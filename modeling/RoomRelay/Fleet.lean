import RoomRelay.Bus.Memory
import RoomRelay.Collaborator.Store
import RoomRelay.Hub.Conversation
import RoomRelay.WebSocket.Session

/-!
A fleet: hubs on one bus, the services they ask, their clients, and the clock that all of them go
by. Each hub stands in the fleet as a `Station`, with its relay's place on the bus and the
instant of its next renewal of presence. The functions here look at the fleet through one hub at
a time; what happens by itself as time passes is in the modules below this one.
-/

namespace RoomRelay

/-- A hub as it works on the bus of a fleet. -/
abbrev LocalSite := Site MemoryBus

/-- How the relay of a hub stands. -/
inductive RelayState where
  /-- The hub has no bus. -/
  | absent
  /-- It reads from the bus. -/
  | attached (s : Subscription)
  /-- It has no subscription; the next attempt is due at an instant, and when it fails the one
  after it follows after `pause`. -/
  | detached (nextAttempt : Nat) (pause : Duration)
  | stopped

/-- A hub in a fleet. -/
structure Station where
  hub : Hub
  /-- Whether the hub is on the bus. -/
  shared : Bool
  /-- The name of the services it asks. -/
  store : String
  relay : RelayState
  /-- When the presence of its users is renewed next, until the hub stops. -/
  nextRefresh : Option Nat

/-- The instants at which a hub goes on by itself. -/
def Station.nextInstants (s : Station) : List Nat :=
  s.nextRefresh.toList ++
    match s.relay with
    | .detached nextAttempt _ => [nextAttempt]
    | _ => []

/-- What a fleet draws from outside: the second of the calendar it lives in, instants of which
each is later than those before, and identifiers that are all different. -/
structure Supply where
  second : Int
  instant : Nat → Timestamp
  identifier : Nat → Uuid

/-- Hubs on one bus with their services and clients. -/
structure Fleet where
  supply : Supply
  instants : Nat := 0
  identifiers : Nat := 0
  /-- The instant, in nanoseconds since the fleet was started. -/
  clock : Nat := 0
  stations : Table String Station := []
  bus : MemoryBus := {}
  /-- Whether the bus refuses new subscriptions. -/
  refusing : Bool := false
  stores : Table String Store := []
  queues : Queues := []
  sessions : Table ConnId (WebSocket.Session LocalSite) := []
  connections : Nat := 0

namespace Fleet

/-- The instant that rate limits and the leases of shared sets go by. It stands still: neither
runs out while a fleet is looked at. -/
def leaseClock : Nat := 0

/-! ## One hub of a fleet -/

def site? (f : Fleet) (name : String) : Option LocalSite :=
  (f.stations.get? name).map fun s =>
    { hub := s.hub, queues := f.queues, bus := if s.shared then some f.bus else none }

def putSite (f : Fleet) (name : String) (s : LocalSite) : Fleet :=
  { f with
    stations := f.stations.modify name fun station => { station with hub := s.hub },
    queues := s.queues, bus := s.bus.getD f.bus }

/-- Does something on a hub. -/
def visit {α : Type} (f : Fleet) (name : String) (op : LocalSite → LocalSite × α) :
    Fleet × Option α :=
  match f.site? name with
  | some s =>
    let (s, a) := op s
    (f.putSite name s, some a)
  | none => (f, none)

def change (f : Fleet) (name : String) (op : LocalSite → LocalSite) : Fleet :=
  (f.visit name fun s => (op s, ())).1

def hub? (f : Fleet) (name : String) : Option Hub :=
  (f.stations.get? name).map (·.hub)

/-! ## Connections -/

/-- Whether a connection is closed. One that is not there is. -/
def isClosed (f : Fleet) (id : ConnId) : Bool :=
  match f.queues.get? id with
  | some c => c.closed
  | none => true

def changeConnection (f : Fleet) (id : ConnId) (op : Connection → Connection) : Fleet :=
  { f with queues := f.queues.modify id op }

def newConnection (f : Fleet) (user : Uuid) (capacity : Nat) : Fleet × ConnId :=
  let id : ConnId := ⟨f.connections⟩
  ({ f with connections := f.connections + 1, queues := f.queues.set id { user, capacity } }, id)

/-- Takes the texts that wait in a connection. -/
def takeAll (f : Fleet) (id : ConnId) : Fleet × List String :=
  (f.changeConnection id fun c => { c with pending := [] },
    ((f.queues.get? id).map (·.pending)).getD [])

/-! ## The services -/

def store (f : Fleet) (name : String) : Store := (f.stores.get? name).getD {}

def changeStore (f : Fleet) (name : String) (op : Store → Store) : Fleet :=
  { f with stores := f.stores.set name (op (f.store name)) }

def drawInstant (f : Fleet) : Fleet × Timestamp :=
  ({ f with instants := f.instants + 1 }, f.supply.instant f.instants)

/-- Puts a call to services and has the answer at once. -/
def consult (f : Fleet) (storeName : String) (c : Call) : Fleet × c.Outcome :=
  let (f, now) := f.drawInstant
  let (s, outcome) := (f.store storeName).answer now c
  (f.changeStore storeName fun _ => s, outcome)

def notify (f : Fleet) (storeName : String) (user : Uuid) (kind title : String) : Fleet × Uuid :=
  let (f, now) := f.drawInstant
  let id := f.supply.identifier f.identifiers
  ({ f with identifiers := f.identifiers + 1 }.changeStore storeName fun s =>
    s.push user (Store.entry id kind title now), id)

def storeOf (f : Fleet) (name : String) : String :=
  ((f.stations.get? name).map (·.store)).getD ""

def deadlineOf (f : Fleet) (name : String) : Duration :=
  ((f.hub? name).map (·.config.collaboratorTimeout)).getD ⟨0⟩

/-- What a hub is answered: what the services say, or that the deadline passed. -/
def reply (f : Fleet) (name : String) (overdue : Bool) (c : Call) : Fleet × c.Outcome :=
  if overdue then (f, .error (.overdue (f.deadlineOf name)))
  else f.consult (f.storeOf name) c

/-- When a hub that asks now goes on, and whether for want of an answer; `none` when it is
answered at once. -/
def pauseOf (f : Fleet) (name : String) : Option (Nat × Bool) :=
  (f.store (f.storeOf name)).delay.map fun takes => waitFor f.clock takes (f.deadlineOf name)

variable {α : Type}

/-- Carries a procedure of a hub on until it is done or has to wait. -/
def pursue (f : Fleet) (name : String) : Procedure LocalSite α → Fleet × Progress LocalSite α
  | .done s a => (f.putSite name s, .finished a)
  | .ask s call resume =>
    let f := f.putSite name s
    match f.pauseOf name with
    | some (wake, overdue) => (f, .waiting ⟨.ask s call resume, wake, overdue⟩)
    | none =>
      let (f, r) := f.reply name false call
      pursue f name (resume s r)
  | .askBoth s first second resume =>
    let f := f.putSite name s
    match f.pauseOf name with
    | some (wake, overdue) => (f, .waiting ⟨.askBoth s first second resume, wake, overdue⟩)
    | none =>
      let (f, r) := f.reply name false first
      let (f, t) := f.reply name false second
      pursue f name (resume s r t)

/-- Begins a procedure on a hub. -/
def start (f : Fleet) (name : String) (p : LocalSite → Procedure LocalSite α) :
    Fleet × Option (Progress LocalSite α) :=
  match f.site? name with
  | some s =>
    let (f, progress) := f.pursue name (p s)
    (f, some progress)
  | none => (f, none)

/-- A procedure goes on once what it waits for has come. -/
def wake (f : Fleet) (name : String) (e : Errand LocalSite α) : Fleet × Progress LocalSite α :=
  match f.site? name with
  | some s =>
    let (f, p) := e.procedure.resume (fun (f : Fleet) c => f.reply name e.overdue c) f s
    f.pursue name p
  | none => (f, .waiting e)

end Fleet

end RoomRelay
