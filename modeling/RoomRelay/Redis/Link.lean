import RoomRelay.Redis.Server

/-!
The shared bus on a Redis server. Every operation becomes commands, which are sent together, and
waits no longer than a deadline for the reply. When the deadline passes the operation has failed
for the caller, although the server may have carried the commands out.
-/

namespace RoomRelay.Redis

/-- What becomes of an exchange with the server. -/
inductive Exchange where
  /-- The commands are carried out and the reply comes in time. -/
  | answered
  /-- The commands are carried out, but the reply does not come in time. -/
  | unanswered
  /-- The commands do not reach the server. -/
  | broken (detail : String)
deriving DecidableEq

/-- A server with the way to it: `RedisBus`. -/
structure Link where
  server : Server := {}
  /-- How long a reply is waited for. -/
  deadline : Duration := .ofSeconds 2
  /-- What becomes of the next exchange. -/
  exchange : Exchange := .answered

namespace Link

/-- The commands of `set_add`: they add a member to a set and renew its lease, in whole seconds and
at least one. -/
def setAddCommands (key member : String) (lease : Duration) : List Command :=
  [.multi, .sadd key member, .expire key (max lease.seconds 1), .exec]

/-- The commands of `set_contains`, which ask for members. Nothing is sent when nothing is asked. -/
def setContainsCommands (key : String) (texts : List String) : List Command :=
  if texts.isEmpty then [] else [.smismember key texts]

/-- Why an operation failed whose reply did not come in time: the failure of `bounded`. -/
def unansweredFailure (operation : String) (deadline : Duration) : Failure :=
  .busUnavailable ("redis " ++ operation ++ " timed out after " ++ deadline.text)

/-- Sends commands and reads an answer off the server, within the deadline: `bounded`. -/
def send {α : Type} (l : Link) (operation : String) (cs : List Command)
    (answer : Server → α) : Link × Except Failure α :=
  match l.exchange with
  | .answered =>
    let l := { l with server := l.server.executeAll cs }
    (l, .ok (answer l.server))
  | .unanswered =>
    ({ l with server := l.server.executeAll cs },
      .error (unansweredFailure operation l.deadline))
  | .broken detail => (l, .error (.redis true detail))

/-- Has the server relay a message: one `PUBLISH`. -/
def publish (l : Link) (m : BusMessage) : Link × Except Failure Unit :=
  l.send "PUBLISH" [.publish m.channel m.payload] fun _ => ()

/-- Adds a member to a set and renews its lease: `set_add`. -/
def setAdd (l : Link) (key member : String) (lease : Duration) : Link × Except Failure Unit :=
  l.send "SADD" (setAddCommands key member lease) fun _ => ()

/-- Removes a member from a set: `set_remove`. -/
def setRemove (l : Link) (key member : String) : Link × Except Failure Unit :=
  l.send "SREM" [.srem key member] fun _ => ()

/-- For each of the texts whether it is a member of a set: `set_contains`. -/
def setContains (l : Link) (key : String) (texts : List String) :
    Link × Except Failure (List Bool) :=
  if texts.isEmpty then (l, .ok [])
  else l.send "SMISMEMBER" (setContainsCommands key texts) fun s => s.membership key texts

/-- The bus, whose leases go by the server's clock. -/
instance : SharedBus Link where
  publish := publish
  setAdd l _ := l.setAdd
  setRemove := setRemove
  setContains l _ := l.setContains

end Link

end RoomRelay.Redis
