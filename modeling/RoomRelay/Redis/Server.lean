import RoomRelay.Bus.Basic
import RoomRelay.Table

/-!
A Redis server as far as a bus needs one: it relays what is published, and it keeps sets under
keys that may have a deadline. From its deadline on a key is not there, and a key goes with the
last member of its set. The server goes by a clock of its own.
-/

namespace RoomRelay.Redis

inductive Command where
  | publish (channel payload : String)
  /-- The beginning of a transaction. -/
  | multi
  /-- The end of a transaction: what came since its beginning happens at once. -/
  | exec
  | sadd (key member : String)
  | expire (key : String) (seconds : Nat)
  | srem (key member : String)
  | smismember (key : String) (members : List String)
deriving DecidableEq

/-- A command with its arguments, as it is sent. -/
def Command.words : Command → List String
  | publish channel payload => ["PUBLISH", channel, payload]
  | multi => ["MULTI"]
  | exec => ["EXEC"]
  | sadd key member => ["SADD", key, member]
  | expire key seconds => ["EXPIRE", key, Text.decimalText seconds]
  | srem key member => ["SREM", key, member]
  | smismember key members => "SMISMEMBER" :: key :: members

/-- A set under a key. -/
structure Entry where
  members : List String
  /-- The instant from which the key is not there, if it was given one. -/
  deadline : Option Nat := none
deriving DecidableEq

structure Server where
  /-- The instant by the server's clock, in nanoseconds. -/
  clock : Nat := 0
  /-- What was published, newest first. -/
  relayed : List BusMessage := []
  entries : Table String Entry := []

/-- Whether an entry is there at an instant. -/
def Entry.isLive (now : Nat) (e : Entry) : Bool :=
  e.deadline.all (now < ·)

namespace Server

/-- The server at a later instant. -/
def moveTo (s : Server) (now : Nat) : Server := { s with clock := now }

/-- The set under a key. -/
def held? (s : Server) (key : String) : Option Entry :=
  (s.entries.get? key).filter (Entry.isLive s.clock)

def membership (s : Server) (key : String) (texts : List String) : List Bool :=
  let members := ((s.held? key).map (·.members)).getD []
  texts.map members.contains

/-- Adds a member. A set that was not there starts without a deadline. -/
def add (s : Server) (key member : String) : Server :=
  let e := (s.held? key).getD { members := [] }
  let members := if e.members.contains member then e.members else e.members ++ [member]
  { s with entries := s.entries.set key { e with members } }

/-- Gives a key that is there a deadline. -/
def setDeadline (s : Server) (key : String) (seconds : Nat) : Server :=
  match s.held? key with
  | some e =>
    let deadline := s.clock + (Duration.ofSeconds seconds).nanos
    { s with entries := s.entries.set key { e with deadline := some deadline } }
  | none => s

/-- Removes a member, and the key with the last one. -/
def remove (s : Server) (key member : String) : Server :=
  match s.held? key with
  | some e =>
    let members := e.members.filter (· ≠ member)
    { s with
      entries :=
        if members.isEmpty then s.entries.erase key
        else s.entries.set key { e with members } }
  | none => s

def execute (s : Server) : Command → Server
  | .publish channel payload => { s with relayed := ⟨channel, payload⟩ :: s.relayed }
  | .sadd key member => s.add key member
  | .expire key seconds => s.setDeadline key seconds
  | .srem key member => s.remove key member
  | .multi | .exec | .smismember .. => s

def executeAll (s : Server) (cs : List Command) : Server :=
  cs.foldl execute s

end Server

end RoomRelay.Redis
