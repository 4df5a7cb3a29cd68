import RoomRelay.Duration
import RoomRelay.Json.Value

/-!
What can go wrong in a hub, by cause, and how each cause is told to people, to clients and to
HTTP callers.
-/

namespace RoomRelay

/-- A cause of failure: `HubError`. -/
inductive Failure where
  | configuration (detail : String)
  | busUnavailable (detail : String)
  /-- The Redis client failed; `transient` when the connection did and not the command. -/
  | redis (transient : Bool) (detail : String)
  | encoding (detail : String)
  | collaborator (detail : String)
  /-- A deadline passed. -/
  | overdue (deadline : Duration)
  | unauthorized
  | badRequest (detail : String)
  | transport (detail : String)
  | shuttingDown
deriving DecidableEq

namespace Failure

/-- The words of a failure. -/
def message : Failure → String
  | configuration detail => "configuration error: " ++ detail
  | busUnavailable detail => "shared bus unavailable: " ++ detail
  | redis _ detail => "redis error: " ++ detail
  | encoding detail => "serialization error: " ++ detail
  | collaborator detail => "collaborator call failed: " ++ detail
  | overdue deadline => "operation timed out after " ++ deadline.text
  | unauthorized => "unauthorized"
  | badRequest detail => "bad request: " ++ detail
  | transport detail => "transport error: " ++ detail
  | shuttingDown => "hub is shutting down"

/-- Whether the same call may succeed later: `is_retryable`. -/
def isRetryable : Failure → Bool
  | busUnavailable _ | overdue _ | collaborator _ => true
  | redis transient _ => transient
  | _ => false

/-- The code told to clients. -/
def code : Failure → String
  | badRequest _ | encoding _ => "invalid_payload"
  | unauthorized => "unauthorized"
  | _ => "internal_error"

/-- The status of the response to a request that failed so: `status_code`. -/
def status : Failure → Nat
  | badRequest _ | encoding _ => 400
  | unauthorized => 401
  | shuttingDown | busUnavailable _ => 503
  | overdue _ => 504
  | _ => 500

/-- The body of that response: `into_response`. -/
def body (f : Failure) : Json.Value :=
  Json.Value.ofMembers [("error", .string f.code), ("message", .string f.message)]

end Failure

end RoomRelay
