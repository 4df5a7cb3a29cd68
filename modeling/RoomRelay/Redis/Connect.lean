import RoomRelay.Redis.Address

/-!
Connecting to a Redis server. The URL is read first; then the server has to accept the client
within a limit of time.
-/

namespace RoomRelay.Redis

/-- What comes of the attempt to reach a server within `CONNECT_TIMEOUT`. -/
inductive Contact where
  | accepted
  | rejected
  /-- Nothing comes back. -/
  | silent
deriving DecidableEq

/-- Why there is no connection. -/
inductive ConnectFault where
  /-- The URL names no server. -/
  | unreadable
  | rejected
  | overdue
deriving DecidableEq

def ConnectFault.message : ConnectFault → String
  | unreadable => "failed to parse REDIS_URL connection string"
  | rejected => "failed to initialize Redis connection manager"
  | overdue => "timed out connecting to Redis"

/-- Whether the credentials are complete: a user cannot log in without a password. -/
def Address.canLogIn (a : Address) : Bool :=
  a.user.isNone || a.password.isSome

/-- Connects to the server that a URL names. Credentials are looked at before the server is, and
`CONNECT_TIMEOUT` is waited at most. -/
def connect (contact : Address → Contact) (url : String) : Except ConnectFault Address :=
  match Address.parse? url with
  | none => .error .unreadable
  | some a =>
    if ¬a.canLogIn then .error .rejected
    else
      match contact a with
      | .accepted => .ok a
      | .rejected => .error .rejected
      | .silent => .error .overdue

end RoomRelay.Redis
