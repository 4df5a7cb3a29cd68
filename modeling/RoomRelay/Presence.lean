import RoomRelay.Bus.Basic
import RoomRelay.Bus.Channel
import RoomRelay.Envelope

/-!
Who is online. The shared set on the bus is what counts; beside it each hub keeps the users it
has connections of, and answers from them when there is no bus or the bus fails.
-/

namespace RoomRelay

/-- A hub's own part of the presence of users: `PresenceTracker`. -/
structure Presence where
  instanceId : Uuid
  /-- How long the shared set lasts without being renewed. -/
  lease : Duration
  /-- The users this hub has connections of. -/
  users : List Uuid := []

namespace Presence

variable {β : Type} [SharedBus β]

/-- The least time between two renewals: `MIN_REFRESH_PERIOD`. -/
def leastRefreshPeriod : Duration := .ofMillis 100

/-- The time between two renewals, half the lease: `refresh_period`. -/
def refreshPeriod (p : Presence) : Duration :=
  ⟨max (p.lease.nanos / 2) leastRefreshPeriod.nanos⟩

/-- The hub has the user. -/
def insert (p : Presence) (user : Uuid) : Presence :=
  if p.users.contains user then p else { p with users := p.users ++ [user] }

/-- The hub no longer has the user. -/
def remove (p : Presence) (user : Uuid) : Presence :=
  { p with users := p.users.filter (· ≠ user) }

@[simp] theorem insert_lease (p : Presence) (user : Uuid) : (p.insert user).lease = p.lease := by
  unfold insert
  split <;> rfl

@[simp] theorem remove_lease (p : Presence) (user : Uuid) : (p.remove user).lease = p.lease := rfl

/-- The notice that a user came online or went offline here. -/
def notice (p : Presence) (user : Uuid) (online : Bool) : BusMessage :=
  ⟨Channel.presence, (PresenceNotice.toValue ⟨user, online, p.instanceId⟩).render⟩

/-- Publishes a notice, as `publish_notice` does; nobody waits for it, so its loss is nothing to
anyone. -/
def announce (p : Presence) (b : β) (user : Uuid) (online : Bool) : β :=
  (SharedBus.publish b (p.notice user online)).1

/-- A user's first connection on this hub came: the hub has the user, the shared set is told, and
when that succeeded a notice goes out. This is `mark_online`. -/
def markOnline (p : Presence) (bus : Option β) (now : Nat) (user : Uuid) :
    Presence × Option β :=
  let p := p.insert user
  match bus with
  | none => (p, none)
  | some b =>
    match SharedBus.setAdd b now Channel.onlineSet user.text p.lease with
    | (b, .ok ()) => (p, some (p.announce b user true))
    | (b, .error _) => (p, some b)

/-- A user's last connection on this hub went. `mark_offline` takes the user out of the shared set
whichever hubs have it, and a failure to do so is final. -/
def markOffline (p : Presence) (bus : Option β) (user : Uuid) : Presence × Option β :=
  let p := p.remove user
  match bus with
  | none => (p, none)
  | some b =>
    match SharedBus.setRemove b Channel.onlineSet user.text with
    | (b, .ok ()) => (p, some (p.announce b user false))
    | (b, .error _) => (p, some b)

/-- Adds users to the shared set again, up to the first that fails: the loop of `refresh`. -/
def refreshOn (p : Presence) (b : β) (now : Nat) : List Uuid → β
  | [] => b
  | user :: rest =>
    match SharedBus.setAdd b now Channel.onlineSet user.text p.lease with
    | (b, .ok ()) => refreshOn p b now rest
    | (b, .error _) => b

/-- Adds users to the shared set again, which renews the lease of the whole set. -/
def refresh (p : Presence) (bus : Option β) (now : Nat) (users : List Uuid) : Option β :=
  bus.map fun b => p.refreshOn b now users

/-- The users among the given that this hub has, which `online_among` falls back on. -/
def hereAmong (p : Presence) (users : List Uuid) : List Uuid :=
  users.filter p.users.contains

/-- The users among the given that are online anywhere, in the order given: `online_among`. -/
def onlineAmong (p : Presence) (bus : Option β) (now : Nat) (users : List Uuid) :
    Option β × List Uuid :=
  if users.isEmpty then (bus, [])
  else
    match bus with
    | none => (none, p.hereAmong users)
    | some b =>
      match SharedBus.setContains b now Channel.onlineSet (users.map Uuid.text) with
      | (b, .ok flags) =>
        (some b, (users.zip flags).filterMap fun uf => if uf.2 then some uf.1 else none)
      | (b, .error _) => (some b, p.hereAmong users)

/-- Whether a user is online anywhere: `is_online`. -/
def isOnline (p : Presence) (bus : Option β) (now : Nat) (user : Uuid) : Option β × Bool :=
  let (bus, online) := p.onlineAmong bus now [user]
  (bus, online.contains user)

end Presence

end RoomRelay
