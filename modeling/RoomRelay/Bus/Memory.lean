import RoomRelay.Bus.Basic
import RoomRelay.Table

/-!
A bus within one process. It keeps every message in order; a subscription is a place in that
order, and reads on from there, but never from further back than the newest 1024 messages,
whatever their channels. While the bus is switched off every operation fails and nothing is
delivered.
-/

namespace RoomRelay

/-- A set of members and the instant from which it counts as empty, its `expires_at`. -/
structure ExpiringSet where
  members : List String
  expiresAt : Nat
deriving DecidableEq

/-- A place in a bus's messages, and what is read from there. -/
structure Subscription where
  filter : Filter
  position : Nat
deriving DecidableEq

/-- A bus within one process. -/
structure MemoryBus where
  /-- The messages that were published, newest first. -/
  log : List BusMessage := []
  count : Nat := 0
  sets : Table String ExpiringSet := []
  available : Bool := true
  count_eq : count = log.length := by rfl

namespace MemoryBus

/-- A bus on which nothing has happened yet. -/
def empty : MemoryBus := {}

/-- The number of messages a subscription may fall behind: `CHANNEL_CAPACITY`. -/
def retained : Nat := 1024

/-- Why nothing goes while the bus is switched off: the failure of `ensure_available`. -/
def switchedOff : Failure := .busUnavailable "memory bus switched off"

def append (b : MemoryBus) (m : BusMessage) : MemoryBus :=
  { b with log := m :: b.log, count := b.count + 1, count_eq := by simp [b.count_eq] }

/-- Puts a message behind those there are. As in every `publish`, nobody needs to be there to read
it. -/
def publish (b : MemoryBus) (m : BusMessage) : MemoryBus × Except Failure Unit :=
  if b.available then (b.append m, .ok ()) else (b, .error switchedOff)

/-- A subscription to what is published from now on, as `subscribe` of the bus gives it. -/
def subscribe (b : MemoryBus) (f : Filter) : Except Failure Subscription :=
  if b.available then .ok ⟨f, b.count⟩ else .error switchedOff

/-- The messages from a position on, oldest first. -/
def since (b : MemoryBus) (position : Nat) : List BusMessage :=
  (b.log.take (b.count - position)).reverse

/-- Where a subscription's reading goes on: its place, or the oldest message that is retained. A
reader that was overtaken is told so, and `subscribe` has it read on from there. -/
def resume (b : MemoryBus) (s : Subscription) : Nat :=
  max s.position (b.count - retained)

/-- The messages a subscription has pending, oldest first. -/
def pending (b : MemoryBus) (s : Subscription) : List BusMessage :=
  (b.since (b.resume s)).filter fun m => s.filter.accepts m.channel

/-- The subscription once it has read all that is pending. -/
def caughtUp (b : MemoryBus) (s : Subscription) : Subscription :=
  { s with position := b.count }

/-- The subscription's next message and its place behind it. Without one it has passed over all
there is. -/
def next (b : MemoryBus) (s : Subscription) : Option BusMessage × Subscription :=
  let from_ := b.resume s
  let unread := b.since from_
  match unread.findIdx? fun m => s.filter.accepts m.channel with
  | some i => (unread[i]?, { s with position := from_ + i + 1 })
  | none => (none, b.caughtUp s)

/-- The members of a set, if it has not expired. -/
def liveMembers (b : MemoryBus) (now : Nat) (key : String) : List String :=
  match b.sets.get? key with
  | some s => if s.expiresAt ≤ now then [] else s.members
  | none => []

/-- Whether `set_add` comes back under a lease: the bus is switched off, which is looked at first,
or the clock can name the end of the lease. -/
def grants (b : MemoryBus) (now : Nat) (lease : Duration) : Bool :=
  !b.available || (lease.after? now).isSome

/-- Adds a member to a set and renews the set's lease, one that the bus `grants`: `set_add`. A set
that had expired starts anew. -/
def setAdd (b : MemoryBus) (now : Nat) (key member : String) (lease : Duration) :
    MemoryBus × Except Failure Unit :=
  if b.available then
    let members := b.liveMembers now key
    let members := if members.contains member then members else members ++ [member]
    ({ b with sets := b.sets.set key ⟨members, now + lease.nanos⟩ }, .ok ())
  else (b, .error switchedOff)

/-- Removes a member from a set, and the set with its last member: `set_remove`. -/
def setRemove (b : MemoryBus) (key member : String) : MemoryBus × Except Failure Unit :=
  if b.available then
    match b.sets.get? key with
    | some s =>
      let members := s.members.filter (· ≠ member)
      let sets :=
        if members.isEmpty then b.sets.erase key else b.sets.set key { s with members }
      ({ b with sets }, .ok ())
    | none => (b, .ok ())
  else (b, .error switchedOff)

/-- For each of the texts whether it is a member of a set: `set_contains`. A set that has expired
goes. -/
def setContains (b : MemoryBus) (now : Nat) (key : String) (texts : List String) :
    MemoryBus × Except Failure (List Bool) :=
  if b.available then
    let members := b.liveMembers now key
    let sets :=
      match b.sets.get? key with
      | some s => if s.expiresAt ≤ now then b.sets.erase key else b.sets
      | none => b.sets
    ({ b with sets }, .ok (texts.map members.contains))
  else (b, .error switchedOff)

instance : SharedBus MemoryBus where
  publish := publish
  setAdd := setAdd
  grants := grants
  setRemove := setRemove
  setContains := setContains

end MemoryBus

end RoomRelay
