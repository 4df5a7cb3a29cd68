import RoomRelay.Hub
import RoomRelay.Proofs.BusReading
import RoomRelay.Proofs.OnlineSet

/-!
What a hub may rely on while its bus is available: what it publishes is published, and the set of
users online changes by the user that was marked and by nobody else. That is said of any bus on
which it can be seen what was published and who stands in that set, so that what follows for hubs
holds on a bus in memory and on a server alike.
-/

namespace RoomRelay

/-- A bus as it is seen from outside. -/
class BusView (β : Type) where
  /-- The bus is available. -/
  Up : β → Prop
  /-- What was published, oldest first. -/
  history : β → List BusMessage
  /-- The user stands in the set of users online. -/
  Shows : β → Uuid → Prop

/-- The bus was `b` and is `b'`: it is available, these messages were published, and nobody but
these users stands in the set of users online. -/
structure BusView.Becomes {β : Type} [BusView β] (b b' : β) (published : List BusMessage)
    (shown : Uuid → Prop) : Prop where
  up : Up b'
  history : history b' = history b ++ published
  shown : ∀ user, Shows b' user → shown user

/-- What was published on the bus of a hub. -/
def Site.heard {β : Type} [BusView β] (s : Site β) : List BusMessage :=
  (s.bus.map BusView.history).getD []

/-- A bus that does what it is asked while it is available. -/
class ReliableBus (β : Type) [SharedBus β] [BusView β] : Prop where
  publish : ∀ {b : β}, BusView.Up b → ∀ m, ∃ b', SharedBus.publish b m = (b', .ok ()) ∧
    BusView.Becomes b b' [m] (BusView.Shows b)
  setAdd : ∀ {b : β}, BusView.Up b → ∀ now (user : Uuid) lease, ∃ b',
    SharedBus.setAdd b now Channel.onlineSet user.text lease = (b', .ok ()) ∧
      BusView.Becomes b b' [] fun other => other = user ∨ BusView.Shows b other
  setRemove : ∀ {b : β}, BusView.Up b → ∀ user : Uuid, ∃ b',
    SharedBus.setRemove b Channel.onlineSet user.text = (b', .ok ()) ∧
      BusView.Becomes b b' [] fun other => other ≠ user ∧ BusView.Shows b other
  setContains : ∀ {b : β}, BusView.Up b → ∀ now (user : Uuid), ∃ b' member,
    SharedBus.setContains b now Channel.onlineSet [user.text] = (b', .ok [member]) ∧
      (member = true → BusView.Shows b user)

open BusView

variable {β : Type} [BusView β] {b b' b'' : β} {earlier later : List BusMessage}
  {shown shown' : Uuid → Prop}

namespace BusView.Becomes

theorem refl (up : Up b) : Becomes b b [] (Shows b) :=
  ⟨up, (List.append_nil _).symm, fun _ => id⟩

/-- Publishing after it lets nobody else into the set. -/
theorem trans (first : Becomes b b' earlier shown) (then_ : Becomes b' b'' later (Shows b')) :
    Becomes b b'' (earlier ++ later) shown where
  up := then_.up
  history := by rw [then_.history, first.history, List.append_assoc]
  shown := fun user shows => first.shown user (then_.shown user shows)

theorem mono (becomes : Becomes b b' earlier shown) (wider : ∀ user, shown user → shown' user) :
    Becomes b b' earlier shown' :=
  ⟨becomes.up, becomes.history, fun user shows => wider user (becomes.shown user shows)⟩

end BusView.Becomes

/-! ## Marks and questions -/

namespace Presence

@[simp] theorem insert_instanceId (p : Presence) (user : Uuid) :
    (p.insert user).instanceId = p.instanceId := by
  unfold insert
  split <;> rfl

@[simp] theorem remove_instanceId (p : Presence) (user : Uuid) :
    (p.remove user).instanceId = p.instanceId := rfl

@[simp] theorem insert_notice (p : Presence) (user other : Uuid) (online : Bool) :
    (p.insert user).notice other online = p.notice other online := by
  simp [notice]

variable [SharedBus β] [ReliableBus β]

/-- A user that comes online is the only one that the set may gain, and a notice tells of it. -/
theorem markOnline_becomes (up : Up b) (p : Presence) (now : Nat) (user : Uuid) :
    ∃ b', (p.markOnline (some b) now user).2 = some b' ∧
      Becomes b b' [p.notice user true] fun other => other = user ∨ Shows b other := by
  obtain ⟨added, adds, becomes⟩ := ReliableBus.setAdd up now user (p.insert user).lease
  obtain ⟨told, publishes, becomesTold⟩ :=
    ReliableBus.publish becomes.up ((p.insert user).notice user true)
  rw [insert_notice] at publishes becomesTold
  refine ⟨told, ?_, becomes.trans becomesTold⟩
  simp only [markOnline, adds, announce, insert_notice, publishes]

/-- A user that goes offline is not in the set any more, and a notice tells of it. -/
theorem markOffline_becomes (up : Up b) (p : Presence) (user : Uuid) :
    ∃ b', (p.markOffline (some b) user).2 = some b' ∧
      Becomes b b' [p.notice user false] fun other => other ≠ user ∧ Shows b other := by
  obtain ⟨removed, removes, becomes⟩ := ReliableBus.setRemove up user
  obtain ⟨told, publishes, becomesTold⟩ :=
    ReliableBus.publish becomes.up ((p.remove user).notice user false)
  have same : (p.remove user).notice user false = p.notice user false := rfl
  rw [same] at publishes becomesTold
  refine ⟨told, ?_, becomes.trans becomesTold⟩
  simp only [markOffline, removes, announce, same, publishes]

/-- A renewal tells nobody, and the set gains none but the users it names. -/
theorem refreshOn_becomes (up : Up b) (p : Presence) (now : Nat) (users : List Uuid) :
    Becomes b (p.refreshOn b now users) [] fun other => other ∈ users ∨ Shows b other := by
  induction users generalizing b with
  | nil => exact (Becomes.refl up).mono fun _ => .inr
  | cons user rest ih =>
    obtain ⟨added, adds, becomes⟩ := ReliableBus.setAdd up now user p.lease
    have renewed := ih becomes.up
    simp only [refreshOn, adds]
    refine ⟨renewed.up, renewed.history.trans ?_, ?_⟩
    · rw [becomes.history, List.append_assoc]
      rfl
    · intro other shows
      rcases renewed.shown other shows with later | before
      · exact .inl (List.mem_cons_of_mem user later)
      · rcases becomes.shown other before with same | earlier
        · exact .inl (same ▸ List.mem_cons_self)
        · exact .inr earlier

/-- A user that does not stand in the set is not online, whichever hub is asked. -/
theorem isOnline_of_hidden (up : Up b) {user : Uuid} (hidden : ¬Shows b user) (p : Presence)
    (now : Nat) : (p.isOnline (some b) now user).2 = false := by
  obtain ⟨asked, member, contains, shows⟩ := ReliableBus.setContains up now user
  have absent : member = false := Bool.eq_false_iff.mpr fun present => hidden (shows present)
  simp only [isOnline, onlineAmong, List.isEmpty_cons, Bool.false_eq_true, if_false, List.map_cons,
    List.map_nil, contains, absent]
  rfl

end Presence

/-! ## A bus in memory -/

namespace MemoryBus

variable {bus : MemoryBus} {user other : Uuid}

instance : BusView MemoryBus where
  Up := Working
  history := MemoryBus.history
  Shows := MemoryBus.Shows

private theorem shows_of_live {now : Nat}
    (live : user.text ∈ bus.liveMembers now Channel.onlineSet) :
    bus.Shows user := by
  unfold liveMembers at live
  unfold MemoryBus.Shows
  cases found : bus.sets.get? Channel.onlineSet with
  | none => simp [found] at live
  | some s =>
    simp only [found] at live
    split at live
    · cases live
    · exact ⟨s, rfl, live⟩

/-- Adding a user shows nobody else, even when the set had expired. -/
theorem shows_of_setAdd (working : bus.Working) {now : Nat} {lease : Duration}
    (shows : (bus.setAdd now Channel.onlineSet user.text lease).1.Shows other) :
    other = user ∨ bus.Shows other := by
  rw [setAdd_eq working] at shows
  obtain ⟨s, found, member⟩ := shows
  simp only [Table.get?_set, if_true, Option.some.injEq] at found
  subst found
  dsimp only at member
  split at member
  · exact .inr (shows_of_live member)
  · rcases List.mem_append.mp member with old | new
    · exact .inr (shows_of_live old)
    · exact .inl (Uuid.text_injective (List.mem_singleton.mp new))

instance : ReliableBus MemoryBus where
  publish {b} working m := by
    refine ⟨b.append m, publish_eq working m, append_working working m, history_append b m, ?_⟩
    intro user shows
    exact (append_shows b m user).mp shows
  setAdd {b} working now user lease := by
    refine ⟨(b.setAdd now Channel.onlineSet user.text lease).1, ?_, ?_, ?_, ?_⟩
    · simp only [SharedBus.setAdd, setAdd_eq working]
    · exact setAdd_working working now Channel.onlineSet user.text lease
    · simp [BusView.history, MemoryBus.history, setAdd_log]
    · intro other shows
      exact shows_of_setAdd working shows
  setRemove {b} working user := by
    refine ⟨(b.setRemove Channel.onlineSet user.text).1, ?_, ?_, ?_, ?_⟩
    · exact Prod.ext rfl (setRemove_ok working Channel.onlineSet user.text)
    · exact setRemove_working working Channel.onlineSet user.text
    · simp [BusView.history, MemoryBus.history, setRemove_log]
    · intro other shows
      exact (setRemove_shows working).mp shows
  setContains {b} working now user := by
    refine ⟨(b.setContains now Channel.onlineSet [user.text]).1,
      (b.liveMembers now Channel.onlineSet).contains user.text, ?_, ?_⟩
    · simp [SharedBus.setContains, setContains, working.available]
    · intro member
      exact shows_of_live (List.contains_iff_mem.mp member)

end MemoryBus

end RoomRelay
