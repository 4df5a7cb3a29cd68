import Mathlib.Data.Set.Insert
import RoomRelay.Proofs.Outages
import RoomRelay.Proofs.RegistryInvariants

/-!
What users can do to each other by coming, going and listening on one hub whose bus is switched on.
How a user stands there, its connections, its rooms, and whether the hub and the shared set have
it, changes by the user's own changes and by renewals, and each change can be told from how the
user stood alone. So what others do in between, and in which order, makes no difference to it.
-/

namespace RoomRelay

/-- How one user stands on a hub and its bus. -/
@[ext]
structure Standing where
  connections : List ConnId
  /-- The rooms the user listens to. -/
  rooms : Set Uuid
  /-- The hub has the user as one of its own. -/
  here : Prop
  /-- The user stands in the shared set. -/
  online : Prop

/-- The user that a change is about. A renewal is about nobody in particular. -/
def RosterChange.subject? (owner : ConnId → Option Uuid) : RosterChange → Option Uuid
  | .register _ id | .unregister id => owner id
  | .listen _ user | .unlisten _ user => some user
  | .refresh _ => none

def RosterChange.isRenewal : RosterChange → Bool
  | .refresh _ => true
  | _ => false

/-- A change is about a user, or a renewal. -/
def RosterChange.Concerns (owner : ConnId → Option Uuid) (user : Uuid) (x : RosterChange) : Prop :=
  x.subject? owner = some user ∨ x.isRenewal = true

instance (owner : ConnId → Option Uuid) (user : Uuid) (x : RosterChange) :
    Decidable (x.Concerns owner user) :=
  inferInstanceAs (Decidable (_ ∨ _))

/-- The changes about a user and the renewals, in order. -/
def concerning (owner : ConnId → Option Uuid) (user : Uuid) (xs : List RosterChange) :
    List RosterChange :=
  xs.filter (·.Concerns owner user)

private theorem RosterChange.concerns_iff {owner : ConnId → Option Uuid} {user subject : Uuid}
    {x : RosterChange}
    (about : x.subject? owner = some subject) : x.Concerns owner user ↔ user = subject := by
  have noRenewal : x.isRenewal = false := by
    cases x with
    | refresh now => cases about
    | _ => rfl
  simp [Concerns, about, noRenewal, eq_comm]

/-- Of two changes about different users at most one is left for any user. -/
private theorem concerning_swapped {owner : ConnId → Option Uuid} {u v : Uuid} {x y : RosterChange}
    (ofX : x.subject? owner = some u) (ofY : y.subject? owner = some v) (different : u ≠ v)
    (user : Uuid) (earlier later : List RosterChange) :
    concerning owner user (earlier ++ x :: y :: later) =
      concerning owner user (earlier ++ y :: x :: later) := by
  have ofNeither : ¬(x.Concerns owner user ∧ y.Concerns owner user) := by
    rw [RosterChange.concerns_iff ofX, RosterChange.concerns_iff ofY]
    rintro ⟨rfl, same⟩
    exact different same
  simp only [concerning, List.filter_append, List.filter_cons]
  by_cases mineX : x.Concerns owner user
  · have notY : ¬y.Concerns owner user := fun mineY => ofNeither ⟨mineX, mineY⟩
    simp [mineX, notY]
  · simp [mineX]

namespace Standing

/-- The user's connections with one more, unless it is there already. -/
def joined (p : Standing) (id : ConnId) : List ConnId :=
  if id ∈ p.connections then p.connections else p.connections ++ [id]

/-- The user's connections without one. -/
def remaining (p : Standing) (id : ConnId) : List ConnId := p.connections.filter (· ≠ id)

/-- How a user stands after a change about it or a renewal, told from how it stood before. -/
def after (p : Standing) : RosterChange → Standing
  | .register _ id =>
    { p with
      connections := p.joined id
      here := p.here ∨ (p.joined id).length = 1
      online := p.online ∨ (p.joined id).length = 1 }
  | .unregister id =>
    if id ∈ p.connections ∧ p.remaining id = [] then
      { connections := [], rooms := ∅, here := False, online := False }
    else { p with connections := p.remaining id }
  | .listen room _ => { p with rooms := insert room p.rooms }
  | .unlisten room _ => { p with rooms := p.rooms \ {room} }
  | .refresh _ => { p with online := p.online ∨ p.connections ≠ [] }

end Standing

namespace MemoryBus

variable {b : MemoryBus} {user : Uuid} {lease : Duration} {now : Nat}

/-- Whether the set had expired or not, whoever is added last stands in it. -/
private theorem mark_add_shows_added (working : b.Working) :
    (b.mark lease (.add now user)).Shows user := by
  simp only [mark, setAdd_eq working, Shows, Table.get?_set, if_true, Option.some.injEq,
    exists_eq_left']
  split
  · rename_i present
    exact List.contains_iff_mem.mp present
  · exact List.mem_append_right _ List.mem_cons_self

/-- Adding nobody but one user leaves that user as it was or adds it, whenever the set expires. -/
private theorem markAll_add_shows_alone (working : b.Working) {users : List Uuid}
    (alone : ∀ other ∈ users, other = user) :
    (b.markAll lease (users.map (.add now))).Shows user ↔ user ∈ users ∨ b.Shows user := by
  rcases List.eq_nil_or_concat users with rfl | ⟨most, last, rfl⟩
  · simp [markAll]
  · rw [List.concat_eq_append] at alone ⊢
    have same : last = user := alone last (by simp)
    subst same
    have before : (b.markAll lease (most.map (.add now))).Working :=
      ⟨(markAll_available ..).trans working.available, markAll_setsOnce working.setsOnce ..⟩
    rw [List.map_append, markAll_append]
    exact iff_of_true (mark_add_shows_added before) (.inl (by simp))

end MemoryBus

namespace Site

/-- How a user stands. -/
def standing (s : Site MemoryBus) (user : Uuid) : Standing where
  connections := s.connectionsOf user
  rooms := {room | user ∈ s.hub.registry.listeners room}
  here := user ∈ s.hub.presence.users
  online := ∃ b, s.bus = some b ∧ b.Shows user

/-- The hub after changes, one after another. -/
def changeAll (s : Site MemoryBus) (xs : List RosterChange) : Site MemoryBus :=
  xs.foldl changeRoster s

/-- The shared set has not expired at an instant. -/
def Unexpired (s : Site MemoryBus) (now : Nat) : Prop := ∀ b ∈ s.bus, b.Unexpired now

/-- The shared set has not expired when a change adds users to it, before or after. -/
def Lasts (s : Site MemoryBus) (x : RosterChange) : Prop :=
  ∀ now ∈ instants (s.marks (.roster x)), s.Unexpired now ∧ (s.changeRoster x).Unexpired now

/-- The shared set does not expire while changes are made. -/
def NeverExpires (s : Site MemoryBus) : List RosterChange → Prop
  | [] => True
  | x :: rest => s.Lasts x ∧ (s.changeRoster x).NeverExpires rest

instance (s : Site MemoryBus) (now : Nat) : Decidable (s.Unexpired now) :=
  inferInstanceAs (Decidable (∀ b ∈ s.bus, _))

instance (s : Site MemoryBus) (x : RosterChange) : Decidable (s.Lasts x) :=
  inferInstanceAs (Decidable (∀ _ ∈ _, _ ∧ _))

instance decidableNeverExpires : (s : Site MemoryBus) → (xs : List RosterChange) →
    Decidable (s.NeverExpires xs)
  | _, [] => .isTrue trivial
  | s, x :: rest =>
    have := decidableNeverExpires (s.changeRoster x) rest
    inferInstanceAs (Decidable (_ ∧ _))

/-- The hub runs and is in order, and its bus is in memory and works. -/
structure Works (s : Site MemoryBus) : Prop where
  sound : s.hub.registry.Sound s.owner
  running : s.hub.stopped = false
  bus : ∃ b, s.bus = some b ∧ b.Working

private theorem fresh_works (config : Config) (now : Nat) (queues : Queues) {b : MemoryBus}
    (working : b.Working) : (fresh config now queues (some b)).Works where
  sound := Registry.sound_empty _
  running := rfl
  bus := ⟨b, rfl, working⟩

variable {s : Site MemoryBus} {user other : Uuid} {x : RosterChange} {xs : List RosterChange}

private theorem changeRoster_owner (works : s.Works) (x : RosterChange) :
    (s.changeRoster x).owner = s.owner :=
  act_owner works.sound (.roster x)

private theorem changeRoster_bus (works : s.Works) (x : RosterChange) :
    ∃ b b', s.bus = some b ∧ b.Working ∧ (s.changeRoster x).bus = some b' ∧
      (b.markAll s.hub.presence.lease (s.marks (.roster x))).Alike b' := by
  obtain ⟨b, on, working⟩ := works.bus
  obtain ⟨b', after, alike⟩ := act_marks on (.roster x)
  exact ⟨b, b', on, working, after, alike⟩

private theorem changeRoster_works (works : s.Works) (x : RosterChange) :
    (s.changeRoster x).Works := by
  obtain ⟨b, b', -, working, after, alike⟩ := changeRoster_bus works x
  refine ⟨?_, ?_, b', after, alike.working ⟨?_, ?_⟩⟩
  · rw [changeRoster_owner works]
    exact changeRoster_sound works.sound x
  · exact (changeRoster_fixed s x).stopped.trans works.running
  · exact (MemoryBus.markAll_available ..).trans working.available
  · exact MemoryBus.markAll_setsOnce working.setsOnce ..

/-! ## One change -/

/-- A change adds to the set no others than one user, or the set lasts. -/
def AddsPlainly (s : Site MemoryBus) (user : Uuid) (x : RosterChange) : Prop :=
  s.Lasts x ∨ ∀ now other, .add now other ∈ s.marks (.roster x) → other = user

/-- Whoever a change adds to the set stands in it afterwards, and whoever stood in it before, unless
it is removed. -/
private theorem changeRoster_online (works : s.Works) (plainly : s.AddsPlainly user x) :
    ((s.changeRoster x).standing user).online ↔
      (∃ now, .add now user ∈ s.marks (.roster x)) ∨
        (s.standing user).online ∧ .remove user ∉ s.marks (.roster x) := by
  obtain ⟨b, b', on, working, after, alike⟩ := changeRoster_bus works x
  simp only [standing, on, after, Option.some.injEq, exists_eq_left', alike.shows_iff]
  rcases marks_cases s (.roster x) with ⟨now, users, adds⟩ | ⟨users, removes⟩
  · have added : (b.markAll s.hub.presence.lease (users.map (.add now))).Shows user ↔
        user ∈ users ∨ b.Shows user := by
      by_cases nobody : users = []
      · simp [nobody, MemoryBus.markAll]
      · obtain ⟨first, member⟩ := List.exists_mem_of_ne_nil users nobody
        have marked : .add now first ∈ s.marks (.roster x) := adds ▸ List.mem_map_of_mem member
        rcases plainly with lasts | alone
        · obtain ⟨unexpired, later⟩ := lasts now (mem_instants.mpr ⟨first, marked⟩)
          have stillLive := later b' after
          rw [alike.unexpired_iff, adds] at stillLive
          exact MemoryBus.markAll_add_shows working (unexpired b on) stillLive
        · exact MemoryBus.markAll_add_shows_alone working fun other there =>
            alone now other (adds ▸ List.mem_map_of_mem there)
    rw [adds, added]
    simp
  · rw [removes, MemoryBus.markAll_remove_shows working]
    simp [and_comm]

/-! ### Coming -/

variable {subject room : Uuid} {id : ConnId} {now : Nat}

private theorem connectionsOf_addConnection_eq (s : Site MemoryBus) (user : Uuid) (id : ConnId) :
    (s.hub.registry.addConnection user id).connectionsOf user = (s.standing user).joined id := by
  rw [Registry.connectionsOf_addConnection]
  by_cases known : id ∈ s.connectionsOf user <;> simp [Standing.joined, standing, known]

/-- What registering leaves of a user's connections and rooms, and who is here after it. -/
private theorem register_leaves (running : s.hub.stopped = false) (now : Nat) (subject user : Uuid)
    (id : ConnId) :
    ((s.register now subject id).1.connectionsOf user =
      if user = subject then (s.standing user).joined id else s.connectionsOf user) ∧
    (∀ room, (s.register now subject id).1.hub.registry.listeners room =
      s.hub.registry.listeners room) ∧
    (user ∈ (s.register now subject id).1.hub.presence.users ↔
      user ∈ s.hub.presence.users ∨
        user = subject ∧ ((s.standing subject).joined id).length = 1) := by
  have added : (s.hub.registry.addConnection subject id).connectionsOf user =
      if user = subject then (s.standing user).joined id else s.connectionsOf user := by
    by_cases about : user = subject
    · rw [if_pos about, about]
      exact connectionsOf_addConnection_eq s subject id
    · rw [if_neg about, Registry.connectionsOf_addConnection, if_neg fun both => about both.1]
  rw [connectionsOf, register_hub running, Registry.connectionCount, connectionsOf_addConnection_eq]
  refine ⟨added, fun room => ?_, ?_⟩
  · rw [Registry.listeners, Registry.addConnection_rooms]
    rfl
  · by_cases first : ((s.standing subject).joined id).length = 1
    · simp only [first, if_true, Presence.mem_insert, and_true, or_comm]
    · simp [first]

/-- Registering adds a user to the set with its first connection. -/
private theorem online_register (works : s.Works) (owned : s.owner id = some subject)
    (plainly : s.AddsPlainly user (.register now id)) :
    ((s.changeRoster (.register now id)).standing user).online ↔
      (s.standing user).online ∨ user = subject ∧ ((s.standing subject).joined id).length = 1 := by
  rw [changeRoster_online works plainly]
  simp only [marks, owned, works.running, true_and, Registry.connectionCount,
    connectionsOf_addConnection_eq]
  by_cases first : ((s.standing subject).joined id).length = 1 <;> simp [first, or_comm]

/-- Registering: a connection that is new is added, and the user is here and online if it has no
other. -/
private theorem standing_register (works : s.Works)
    (plainly : s.AddsPlainly user (.register now id)) :
    (s.changeRoster (.register now id)).standing user =
      if s.owner id = some user then (s.standing user).after (.register now id)
      else s.standing user := by
  cases owned : s.owner id with
  | none =>
    have same : s.changeRoster (.register now id) = s := (act_nobody owned now).1
    simp [same]
  | some subject =>
    have acted : s.changeRoster (.register now id) = (s.register now subject id).1 :=
      act_register owned now
    obtain ⟨connections, rooms, here⟩ := register_leaves works.running now subject user id
    have online := online_register works owned plainly
    rw [acted] at online ⊢
    by_cases about : user = subject
    · subst about
      rw [if_pos rfl] at connections ⊢
      ext1
      · exact connections
      · simp [standing, Standing.after, rooms]
      · simpa [standing, Standing.after] using here
      · simpa [Standing.after] using online
    · rw [if_neg about] at connections
      rw [if_neg fun same => about (Option.some.inj same).symm]
      ext1
      · exact connections
      · simp [standing, rooms]
      · simpa [standing, about] using here
      · simpa [about] using online

/-! ### Going -/

private theorem connectionsOf_removeConnection_eq (once : s.hub.registry.users.keys.Nodup)
    (user : Uuid)
    (id : ConnId) :
    (s.hub.registry.removeConnection user id).connectionsOf user =
      (s.standing user).remaining id := by
  rw [Registry.connectionsOf_removeConnection once, if_pos rfl]
  rfl

/-- The user loses its last connection. -/
def LosesLast (s : Site MemoryBus) (user : Uuid) (id : ConnId) : Prop :=
  id ∈ s.connectionsOf user ∧ (s.standing user).remaining id = []

instance (s : Site MemoryBus) (user : Uuid) (id : ConnId) : Decidable (s.LosesLast user id) :=
  inferInstanceAs (Decidable (_ ∧ _))

private theorem losesLast_iff (once : s.hub.registry.users.keys.Nodup) :
    s.LosesLast user id ↔ id ∈ s.connectionsOf user ∧
      (s.hub.registry.removeConnection user id).connectionCount user = 0 := by
  rw [LosesLast, Registry.connectionCount, connectionsOf_removeConnection_eq once,
    List.length_eq_zero_iff]

/-- What unregistering leaves of a user's connections and rooms, and who is here after it. -/
private theorem unregister_leaves (works : s.Works) (subject user : Uuid) (id : ConnId) :
    ((s.unregister subject id).1.connectionsOf user =
      if user = subject then (s.standing user).remaining id else s.connectionsOf user) ∧
    (∀ room, user ∈ (s.unregister subject id).1.hub.registry.listeners room ↔
      user ∈ s.hub.registry.listeners room ∧ ¬(user = subject ∧ s.LosesLast subject id)) ∧
    (user ∈ (s.unregister subject id).1.hub.presence.users ↔
      user ∈ s.hub.presence.users ∧ ¬(user = subject ∧ s.LosesLast subject id)) := by
  have once := works.sound.usersOnce
  have removed : (s.hub.registry.removeConnection subject id).connectionsOf user =
      if user = subject then (s.standing user).remaining id else s.connectionsOf user := by
    by_cases about : user = subject
    · rw [if_pos about, about]
      exact connectionsOf_removeConnection_eq once subject id
    · rw [if_neg about, Registry.connectionsOf_removeConnection once, if_neg about]
  by_cases known : id ∈ s.connectionsOf subject
  · by_cases last : (s.hub.registry.removeConnection subject id).connectionCount subject = 0
    · have loses : s.LosesLast subject id := (losesLast_iff once).mpr ⟨known, last⟩
      have left := fun room => Registry.listeners_leaveAll
        (r := s.hub.registry.removeConnection subject id) works.sound.roomsOnce room subject
      rw [connectionsOf, unregister_hub_last works.running known last]
      refine ⟨removed, fun room => ?_, ?_⟩
      · rw [left room]
        simp [loses, Registry.listeners, Registry.removeConnection]
      · simp [Presence.mem_remove, loses, and_comm]
    · have keeps : ¬s.LosesLast subject id := fun loses => last ((losesLast_iff once).mp loses).2
      rw [connectionsOf, unregister_hub_more works.running known last]
      refine ⟨removed, fun room => ?_, ?_⟩
      · simp [keeps, Registry.listeners, Registry.removeConnection]
      · simp [keeps]
  · have keeps : ¬s.LosesLast subject id := fun loses => known loses.1
    rw [connectionsOf, unregister_unknown works.running known]
    refine ⟨?_, fun room => by simp [keeps], by simp [keeps]⟩
    by_cases about : user = subject
    · subst about
      have none_less : (s.standing user).remaining id = s.connectionsOf user :=
        List.filter_eq_self.mpr fun other member => decide_eq_true fun same => known (same ▸ member)
      rw [if_pos rfl, none_less]
    · rw [if_neg about]

private theorem addsPlainly_unregister (s : Site MemoryBus) (user : Uuid) (id : ConnId) :
    s.AddsPlainly user (.unregister id) := by
  refine .inr fun now other added => ?_
  simp only [marks] at added
  split at added
  · split at added <;> simp at added
  · cases added

/-- Unregistering removes a user from the set with its last connection. -/
private theorem online_unregister (works : s.Works) (owned : s.owner id = some subject) :
    ((s.changeRoster (.unregister id)).standing user).online ↔
      (s.standing user).online ∧ ¬(user = subject ∧ s.LosesLast subject id) := by
  rw [changeRoster_online works (addsPlainly_unregister s user id)]
  simp only [marks, owned, works.running, true_and, ← losesLast_iff works.sound.usersOnce]
  by_cases loses : s.LosesLast subject id <;> simp [loses]

/-- Unregistering: the connection is gone, and with the last one the user is gone from its rooms,
from the hub and from the shared set. -/
private theorem standing_unregister (works : s.Works) (id : ConnId) :
    (s.changeRoster (.unregister id)).standing user =
      if s.owner id = some user then (s.standing user).after (.unregister id)
      else s.standing user := by
  cases owned : s.owner id with
  | none =>
    have same : s.changeRoster (.unregister id) = s := (act_nobody owned 0).2
    simp [same]
  | some subject =>
    have acted : s.changeRoster (.unregister id) = (s.unregister subject id).1 :=
      act_unregister owned
    obtain ⟨connections, rooms, here⟩ := unregister_leaves works subject user id
    have online : ((s.changeRoster (.unregister id)).standing user).online ↔ _ :=
      online_unregister works owned
    rw [acted] at online ⊢
    by_cases about : user = subject
    · subst about
      rw [if_pos rfl] at connections ⊢
      by_cases loses : s.LosesLast user id
      · have after : (s.standing user).after (.unregister id) = ⟨[], ∅, False, False⟩ := if_pos loses
        rw [after]
        ext1
        · exact connections.trans loses.2
        · simp [standing, rooms, loses]
        · simp [standing, here, loses]
        · simpa [loses] using online
      · have after : (s.standing user).after (.unregister id) =
            { s.standing user with connections := (s.standing user).remaining id } := if_neg loses
        rw [after]
        ext1
        · exact connections
        · simp [standing, rooms, loses]
        · simp [standing, here, loses]
        · simpa [loses] using online
    · rw [if_neg about] at connections
      rw [if_neg fun same => about (Option.some.inj same).symm]
      ext1
      · exact connections
      · simp [standing, rooms, about]
      · simp [standing, here, about]
      · simpa [about] using online

/-! ### Listening and renewing -/

private theorem standing_listen (s : Site MemoryBus) (room subject user : Uuid) :
    (s.changeRoster (.listen room subject)).standing user =
      if subject = user then (s.standing user).after (.listen room subject)
      else s.standing user := by
  have connections : (s.changeRoster (.listen room subject)).connectionsOf user =
      s.connectionsOf user := by
    simp [connectionsOf, Registry.connectionsOf, changeRoster, Site.listen]
  have rooms (other : Uuid) := Registry.mem_listeners_listen s.hub.registry room subject other user
  split
  · rename_i about
    subst about
    ext1
    · exact connections
    · ext other
      exact (rooms other).trans (by simp [standing, Standing.after, or_comm])
    · rfl
    · rfl
  · rename_i about
    ext1
    · exact connections
    · ext other
      exact (rooms other).trans (by simp [standing, Ne.symm about])
    · rfl
    · rfl

private theorem standing_unlisten (works : s.Works) (room subject user : Uuid) :
    (s.changeRoster (.unlisten room subject)).standing user =
      if subject = user then (s.standing user).after (.unlisten room subject)
      else s.standing user := by
  have rooms (other : Uuid) :=
    Registry.mem_listeners_unlisten works.sound.roomsOnce room subject other user
  split
  · rename_i about
    subst about
    ext1
    · rfl
    · ext other
      exact (rooms other).trans (by simp [standing, Standing.after])
    · rfl
    · rfl
  · rename_i about
    ext1
    · rfl
    · ext other
      exact (rooms other).trans (by simp [standing, Ne.symm about])
    · rfl
    · rfl

/-- Renewing: whoever is connected is online. -/
private theorem standing_refresh (works : s.Works) (plainly : s.AddsPlainly user (.refresh now)) :
    (s.changeRoster (.refresh now)).standing user =
      (s.standing user).after (.refresh now) := by
  have online := changeRoster_online works plainly
  have hub : (s.changeRoster (.refresh now)).hub = s.hub := refresh_hub s now
  have connected : (∃ then_, .add then_ user ∈ s.marks (.roster (.refresh now))) ↔
      s.connectionsOf user ≠ [] := by
    rw [← works.sound.mem_connectedUsers]
    simp [marks]
  have removed : Mark.remove user ∉ s.marks (.roster (.refresh now)) := by simp [marks]
  ext1
  · simp [standing, Standing.after, connectionsOf, hub]
  · simp [standing, Standing.after, hub]
  · simp [standing, Standing.after, hub]
  · rw [online, connected, and_iff_left removed, or_comm]
    rfl

/-- Any change: one that concerns a user takes it from one standing to the next, and any other
leaves it as it stands. -/
private theorem standing_changeRoster (works : s.Works) (plainly : s.AddsPlainly user x) :
    (s.changeRoster x).standing user =
      if x.Concerns s.owner user then (s.standing user).after x else s.standing user := by
  cases x with
  | register now id =>
    refine (standing_register works plainly).trans (if_congr ?_ rfl rfl)
    simp [RosterChange.Concerns, RosterChange.subject?, RosterChange.isRenewal]
  | unregister id =>
    refine (standing_unregister works id).trans (if_congr ?_ rfl rfl)
    simp [RosterChange.Concerns, RosterChange.subject?, RosterChange.isRenewal]
  | listen room subject =>
    refine (standing_listen s room subject user).trans (if_congr ?_ rfl rfl)
    simp [RosterChange.Concerns, RosterChange.subject?, RosterChange.isRenewal]
  | unlisten room subject =>
    refine (standing_unlisten works room subject user).trans (if_congr ?_ rfl rfl)
    simp [RosterChange.Concerns, RosterChange.subject?, RosterChange.isRenewal]
  | refresh now =>
    rw [if_pos (.inr rfl)]
    exact standing_refresh works plainly

/-! ## Runs -/

/-- How a user stands after a run in which the shared set lasts: where its own changes and the
renewals take it. -/
private theorem standing_changeAll (works : s.Works) (never : s.NeverExpires xs) :
    (s.changeAll xs).standing user =
      (concerning s.owner user xs).foldl Standing.after (s.standing user) := by
  induction xs generalizing s with
  | nil => rfl
  | cons x rest ih =>
    have step : (s.changeRoster x).standing user =
        if x.Concerns s.owner user then (s.standing user).after x else s.standing user :=
      standing_changeRoster works (.inl never.1)
    have later := ih (changeRoster_works works x) never.2
    rw [changeRoster_owner works] at later
    refine later.trans ?_
    rw [concerning, concerning, List.filter_cons, step]
    by_cases mine : x.Concerns s.owner user <;> simp [mine]

/-- Nobody else is connected. -/
def IsAlone (s : Site MemoryBus) (user : Uuid) : Prop :=
  ∀ other, s.connectionsOf other ≠ [] → other = user

theorem IsAlone.changeRoster (alone : s.IsAlone user) (works : s.Works)
    (own : x.Concerns s.owner user) : (s.changeRoster x).IsAlone user := by
  intro other held
  obtain ⟨id, member⟩ := List.exists_mem_of_ne_nil _ held
  rcases (mem_act works.sound (.roster x) other id).mp member with ⟨before, -⟩ | brings
  · exact alone other (List.ne_nil_of_mem before)
  · cases x with
    | register now came =>
      obtain ⟨-, owned, -⟩ := brings
      simpa [RosterChange.Concerns, RosterChange.subject?, RosterChange.isRenewal, owned] using own
    | unregister _ | listen _ _ | unlisten _ _ | refresh _ => exact brings.elim

/-- A user that is alone is nobody's concern but its own, whenever the shared set expires. -/
private theorem standing_changeAll_alone (works : s.Works) (alone : s.IsAlone user)
    (own : ∀ x ∈ xs, x.Concerns s.owner user) :
    (s.changeAll xs).standing user = xs.foldl Standing.after (s.standing user) := by
  induction xs generalizing s with
  | nil => rfl
  | cons x rest ih =>
    have mine := own x List.mem_cons_self
    have still := alone.changeRoster works mine
    have plainly : s.AddsPlainly user x := .inr fun now other added =>
      still other (held_of_added works.sound (x := .roster x) added)
    have step := standing_changeRoster works plainly
    rw [if_pos mine] at step
    refine (ih (changeRoster_works works x) still fun y member => ?_).trans (step ▸ rfl)
    rw [changeRoster_owner works]
    exact own y (List.mem_cons_of_mem x member)

/-- In every run on a hub just started, with no expiry of the shared set, each user stands at the
end as if nobody else had ever come. So it makes no difference to anybody in which order two users
make changes that follow one another. -/
theorem users_isolated (config : Config) (now : Nat) (queues : Queues) {b : MemoryBus}
    (working : b.Working) :
    let start := fresh config now queues (some b)
    (∀ xs user, start.NeverExpires xs →
      (start.changeAll xs).standing user =
        (start.changeAll (concerning start.owner user xs)).standing user) ∧
    (∀ earlier x y later u v, x.subject? start.owner = some u → y.subject? start.owner = some v →
      u ≠ v → start.NeverExpires (earlier ++ x :: y :: later) →
      start.NeverExpires (earlier ++ y :: x :: later) → ∀ user,
        (start.changeAll (earlier ++ x :: y :: later)).standing user =
          (start.changeAll (earlier ++ y :: x :: later)).standing user) := by
  intro start
  have works : start.Works := fresh_works config now queues working
  refine ⟨?_, ?_⟩
  · intro xs user never
    have alone : start.IsAlone user := fun other held => absurd rfl held
    rw [standing_changeAll works never, standing_changeAll_alone works alone]
    exact fun x member => of_decide_eq_true (List.mem_filter.mp member).2
  · intro earlier x y later u v ofX ofY different never neverSwapped user
    rw [standing_changeAll works never, standing_changeAll works neverSwapped,
      concerning_swapped ofX ofY different]

/-- A hub with two connections of user 7 and one of user 9. -/
def sharedHub : Site MemoryBus :=
  fresh (.trial ⟨1⟩) 0
    [(⟨0⟩, { user := ⟨7⟩, capacity := 1 }), (⟨1⟩, { user := ⟨9⟩, capacity := 1 }),
      (⟨2⟩, { user := ⟨7⟩, capacity := 1 })]
    (some .empty)

/-- Both users come and listen to one room, which user 7 then leaves with its last connection. -/
def bothComeOneGoes : List RosterChange :=
  [.register 0 ⟨0⟩, .listen ⟨5⟩ ⟨7⟩, .register 1 ⟨1⟩, .listen ⟨5⟩ ⟨9⟩, .register 2 ⟨2⟩, .refresh 3,
    .unregister ⟨0⟩, .unregister ⟨2⟩]

/-- User 9 stands as if user 7 had never come, and whether user 7's last connection or the room of
user 9 goes first makes no difference. -/
theorem bothComeOneGoes_isolated :
    MemoryBus.empty.Working ∧ sharedHub.NeverExpires bothComeOneGoes ∧
      (sharedHub.changeAll bothComeOneGoes).standing ⟨9⟩ =
        (sharedHub.changeAll [.register 1 ⟨1⟩, .listen ⟨5⟩ ⟨9⟩, .refresh 3]).standing ⟨9⟩ ∧
      (sharedHub.changeAll (bothComeOneGoes ++ [.unlisten ⟨5⟩ ⟨9⟩])).standing ⟨9⟩ =
        (sharedHub.changeAll
          (bothComeOneGoes.take 7 ++ [.unlisten ⟨5⟩ ⟨9⟩, .unregister ⟨2⟩])).standing ⟨9⟩ := by
  have working : MemoryBus.empty.Working := ⟨rfl, List.nodup_nil⟩
  have never : sharedHub.NeverExpires bothComeOneGoes := by decide +kernel
  obtain ⟨alone, swapped⟩ := users_isolated (.trial ⟨1⟩) 0 sharedHub.queues working
  refine ⟨working, never, alone bothComeOneGoes ⟨9⟩ never, ?_⟩
  exact swapped (bothComeOneGoes.take 7) (.unregister ⟨2⟩) (.unlisten ⟨5⟩ ⟨9⟩) [] ⟨7⟩ ⟨9⟩
    (by decide) (by decide) (by decide) (by decide +kernel) (by decide +kernel) ⟨9⟩

end Site

end RoomRelay
