import RoomRelay.Fleet.Clients
import RoomRelay.Fleet.Upkeep

/-!
Time in a fleet. Between two instants nothing happens; at each instant hubs and sessions do what
they can, until nothing is left to do. So the clock may go straight to the next instant at which
one of them goes on by itself.
-/

namespace RoomRelay.Fleet

/-- Every hub and every session does what it can, once. -/
def round (f : Fleet) : Fleet :=
  let f := f.stations.keys.foldl runStation f
  f.sessions.keys.foldl runSession f

/-- How many rounds an instant takes at most. A chain of causes is short: a text that was read is
published, relayed and written; a writer that gives up closes its connection, the reader leaves,
the rooms are told, and that is relayed and written. -/
def roundsOfInstant : Nat := 12

/-- Everything that can happen at this instant happens. -/
def settle (f : Fleet) : Fleet :=
  roundsOfInstant.repeat round f

/-- The instants at which something goes on by itself. -/
def dueInstants (f : Fleet) : List Nat :=
  f.stations.flatMap (fun e => e.2.nextInstants) ++ f.sessions.flatMap (fun e => e.2.nextInstants)

/-- The first of them after an instant. -/
def nextInstant? (f : Fleet) (now : Nat) : Option Nat :=
  (f.dueInstants.filter (now < ·)).min?

/-- The clock goes on from `now` to an instant, and at each instant between everything happens
that can. -/
def runUntil (target now : Nat) (f : Fleet) : Fleet :=
  match f.nextInstant? now with
  | some t =>
    if _ : now < t ∧ t ≤ target then runUntil target t ({ f with clock := t }.settle)
    else { f with clock := max now target }
  | none => { f with clock := max now target }
termination_by target - now

def advanceTo (f : Fleet) (target : Nat) : Fleet :=
  let f := f.settle
  runUntil target f.clock f

def advance (f : Fleet) (d : Duration) : Fleet :=
  f.advanceTo (f.clock + d.nanos)

/-! ## Waiting for the services -/

variable {α : Type}

/-- Waits until an instant, while everything else goes on. -/
def waitUntil (f : Fleet) (pause : Option (Nat × Bool)) : Fleet × Bool :=
  match pause with
  | some (wake, overdue) => (f.advanceTo wake, overdue)
  | none => (f, false)

/-- Carries a procedure of a hub through, waiting for the services where they take their time. -/
def complete (f : Fleet) (name : String) : Procedure LocalSite α → Fleet × Option α
  | .done s a => (f.putSite name s, some a)
  | .ask s call resume =>
    let f := f.putSite name s
    let (f, overdue) := f.waitUntil (f.pauseOf name)
    let (f, r) := f.reply name overdue call
    match f.site? name with
    | some s => complete f name (resume s r)
    | none => (f, none)
  | .askBoth s first second resume =>
    let f := f.putSite name s
    let (f, overdue) := f.waitUntil (f.pauseOf name)
    let (f, r) := f.reply name overdue first
    let (f, t) := f.reply name overdue second
    match f.site? name with
    | some s => complete f name (resume s r t)
    | none => (f, none)

/-- Begins a procedure on a hub and carries it through. -/
def carryOut (f : Fleet) (name : String) (p : LocalSite → Procedure LocalSite α) :
    Fleet × Option α :=
  match f.site? name with
  | some s => f.complete name (p s)
  | none => (f, none)

/-- Puts a call to services of a name, however long they take. -/
def callStore (f : Fleet) (storeName : String) (c : Call) : Fleet × c.Outcome :=
  match (f.store storeName).delay with
  | some takes => (f.advance takes).consult storeName c
  | none => f.consult storeName c

/-! ## Stopping a hub -/

/-- The time between two looks at whether all connections have gone: `DRAIN_POLL`. -/
def pollPeriod : Duration := .ofMillis 10

/-- The number of connections on a hub. -/
def remaining (f : Fleet) (name : String) : Nat :=
  ((f.hub? name).map (·.registry.total)).getD 0

/-- Waits until a hub has no more connections, for so many looks: `drain_connections`. -/
def awaitEmpty (f : Fleet) (name : String) : Nat → Fleet
  | 0 => f
  | n + 1 =>
    if f.remaining name = 0 then f else awaitEmpty (f.advance pollPeriod) name n

/-- A hub stops. Under `shutdown` its relay goes first; then its connections are closed, and their
readers have the time of one write to leave; the users that are still there are removed. -/
def shutdown (f : Fleet) (name : String) : Fleet :=
  match f.hub? name with
  | none => f
  | some hub =>
    let f := (f.setRelay name .stopped).change name Site.stopRelay
    let f := f.change name fun s => s.closeAll.1
    let looks := (hub.config.writeWait.nanos + pollPeriod.nanos - 1) / pollPeriod.nanos
    let f := (f.awaitEmpty name looks).change name Site.evictAll
    { f with stations := f.stations.modify name fun s => { s with nextRefresh := none } }

end RoomRelay.Fleet
