import RoomRelay.Collaborator
import RoomRelay.Http.Status

/-!
The services behind a REST interface: the request that each call becomes, and what is made of the
response. A peer may also be out of reach or never answer.
-/

namespace RoomRelay.Rest

open Json

structure Request where
  method : String
  /-- The path with its query. -/
  path : String
  body : Option Value := none

/-- What a peer does with a request. -/
inductive Response where
  | answered (status : Nat) (body : String)
  | unreachable
  | silent

/-- The services at one address: `HttpCollaborators`. -/
structure Client where
  baseUrl : String
  deadline : Duration

namespace Client

/-- Services at a base address, of which slashes at the end do not count. -/
def ofBase (url : String) (deadline : Duration) : Client :=
  ⟨String.ofList ((url.toList.reverse.dropWhile (· == '/')).reverse), deadline⟩

def request : Call → Request
  | .roomsOf user => ⟨"GET", "/internal/users/" ++ user.text ++ "/rooms", none⟩
  | .markRoomRead room user =>
    ⟨"POST", "/internal/rooms/" ++ room.text ++ "/read",
      some (.object [("user_id", user.toValue)])⟩
  | .notifications user limit offset unreadOnly =>
    ⟨"GET", "/internal/users/" ++ user.text ++ "/notifications?limit=" ++
      Text.integerText limit ++ "&offset=" ++ Text.integerText offset ++ "&unread_only=" ++
      (if unreadOnly then "true" else "false"), none⟩
  | .unreadCount user =>
    ⟨"GET", "/internal/users/" ++ user.text ++ "/notifications/unread-count", none⟩
  | .markRead user id =>
    ⟨"POST", "/internal/users/" ++ user.text ++ "/notifications/" ++ id.text ++ "/read", none⟩
  | .markAllRead user =>
    ⟨"POST", "/internal/users/" ++ user.text ++ "/notifications/read-all", none⟩

/-- The address a request goes to. -/
def url (c : Client) (r : Request) : String := c.baseUrl ++ r.path

/-- A record with one field. -/
def decodeField {α : Type} (name : String) (read : Decode.Fields → Except Fault α) : Decoder α :=
  fun levels d => do
    let f ← Decode.fields [name] levels d
    read f

/-- The answer in the body of a response. A read mark without an instant was made `now`, as
`mark_room_read` has it. -/
def decodeReply (now : Timestamp) : (call : Call) → Decoder call.Reply
  | .roomsOf _ => decodeField "room_ids" (·.required "room_ids" (Decode.list Uuid.decode))
  | .markRoomRead .. => fun levels d =>
    (decodeField "read_at" (·.optional "read_at" Timestamp.decode) levels d).map (·.getD now)
  | .notifications .. =>
    decodeField "items" (·.withDefault "items" (Decode.list Notification.decode) [])
  | .unreadCount _ => decodeField "unread_count" (·.required "unread_count" Decode.int64)
  | .markRead .. => fun levels d => (Decode.value levels d).map fun _ => ()
  | .markAllRead _ => decodeField "updated" (·.withDefault "updated" (Decode.unsigned 64) 0)

/-- What a call comes to with the response to its request: `send`. -/
def outcome (c : Client) (now : Timestamp) (call : Call) : Response → call.Outcome
  | .unreachable =>
    .error (.collaborator
      ("request failed: error sending request for url (" ++ c.url (request call) ++ ")"))
  | .silent => .error (.overdue c.deadline)
  | .answered status body =>
    if 200 ≤ status ∧ status < 300 then
      match Decode.run (decodeReply now call) body with
      | .ok reply => .ok reply
      | .error _ => .error (.collaborator "invalid response body: error decoding response body")
    else .error (.collaborator (Http.statusText status ++ ": " ++ body))

end Client

end RoomRelay.Rest
