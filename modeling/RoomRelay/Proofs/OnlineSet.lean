import RoomRelay.Bus.Memory
import RoomRelay.Presence
import RoomRelay.Proofs.Table
import RoomRelay.Proofs.UuidText

/-!
The set of users online on a bus in memory. While the bus is switched on and the set has not
expired, a mark changes one user's membership and no other's, and a question is answered by it.
-/

namespace RoomRelay

namespace MemoryBus

/-- Whether a user stands in the set of users online, expired or not. -/
def Shows (b : MemoryBus) (user : Uuid) : Prop :=
  ∃ s, b.sets.get? Channel.onlineSet = some s ∧ user.text ∈ s.members

/-- The set of users online, if there is one, has not expired. -/
def Unexpired (b : MemoryBus) (now : Nat) : Prop :=
  ∀ s, b.sets.get? Channel.onlineSet = some s → now < s.expiresAt

instance (b : MemoryBus) (now : Nat) : Decidable (b.Unexpired now) :=
  decidable_of_iff
    ((b.sets.get? Channel.onlineSet).all fun s => decide (now < s.expiresAt))
    (by simp [Unexpired, Option.all_eq_true])

/-- The bus is switched on, and no set stands twice. -/
structure Working (b : MemoryBus) : Prop where
  available : b.available = true
  setsOnce : b.sets.keys.Nodup

variable {b : MemoryBus} {now : Nat} {user other : Uuid}

/-- A set that has not expired is what is looked at. -/
theorem mem_liveMembers (unexpired : b.Unexpired now) :
    user.text ∈ b.liveMembers now Channel.onlineSet ↔ b.Shows user := by
  unfold liveMembers Shows
  cases found : b.sets.get? Channel.onlineSet with
  | none => simp
  | some s =>
    have later := unexpired s found
    simp only [if_neg (Nat.not_le.mpr later), Option.some.injEq, exists_eq_left']

/-- Looking at a set that has not expired leaves it. -/
theorem setContains_unexpired (unexpired : b.Unexpired now) (texts : List String) :
    (b.setContains now Channel.onlineSet texts).1 = b := by
  unfold setContains
  split
  · dsimp only
    split
    · rename_i s found
      rw [if_neg (Nat.not_le.mpr (unexpired s found))]
    · rfl
  · rfl

theorem setAdd_eq (working : b.Working) (now : Nat) (key member : String) (lease : Duration) :
    b.setAdd now key member lease =
      let live := b.liveMembers now key
      let members := if live.contains member then live else live ++ [member]
      ({ b with sets := b.sets.set key ⟨members, now + lease.nanos⟩ }, .ok ()) := by
  simp [setAdd, working.available]

theorem setAdd_working (working : b.Working) (now : Nat) (key member : String)
    (lease : Duration) : (b.setAdd now key member lease).1.Working := by
  rw [setAdd_eq working]
  exact ⟨working.available, Table.keys_set_nodup working.setsOnce⟩

/-- Adding a user shows it, and changes nothing for others. -/
theorem setAdd_shows (working : b.Working) (unexpired : b.Unexpired now) (lease : Duration) :
    (b.setAdd now Channel.onlineSet user.text lease).1.Shows other ↔
      other = user ∨ b.Shows other := by
  have live : other.text ∈ b.liveMembers now Channel.onlineSet ↔ b.Shows other :=
    mem_liveMembers unexpired
  rw [setAdd_eq working]
  simp only [Shows, Table.get?_set, if_true, Option.some.injEq, exists_eq_left']
  by_cases present : user.text ∈ b.liveMembers now Channel.onlineSet
  · simp only [List.contains_iff_mem, present, if_true]
    rw [live]
    constructor
    · exact .inr
    · rintro (rfl | shown)
      · exact live.mp present
      · exact shown
  · simp only [List.contains_iff_mem, present, if_false, List.mem_append, List.mem_singleton]
    rw [live]
    constructor
    · rintro (shown | same)
      · exact .inr shown
      · exact .inl (Uuid.text_injective same)
    · rintro (rfl | shown)
      · exact .inr rfl
      · exact .inl shown

theorem setRemove_ok (working : b.Working) (key member : String) :
    (b.setRemove key member).2 = .ok () := by
  simp only [setRemove, working.available, if_true]
  cases b.sets.get? key <;> rfl

theorem setRemove_working (working : b.Working) (key member : String) :
    (b.setRemove key member).1.Working := by
  simp only [setRemove, working.available, if_true]
  cases b.sets.get? key with
  | none => exact working
  | some s =>
    refine ⟨rfl, ?_⟩
    dsimp only
    split
    · exact Table.keys_erase_nodup working.setsOnce
    · exact Table.keys_set_nodup working.setsOnce

/-- Removing a user hides it, and changes nothing for others. -/
theorem setRemove_shows (working : b.Working) :
    (b.setRemove Channel.onlineSet user.text).1.Shows other ↔
      other ≠ user ∧ b.Shows other := by
  simp only [setRemove, working.available, if_true, Shows]
  cases found : b.sets.get? Channel.onlineSet with
  | none => simp [found]
  | some s =>
    have left : other.text ∈ s.members.filter (· ≠ user.text) ↔
        other ≠ user ∧ other.text ∈ s.members := by
      simp [Uuid.text_inj, and_comm]
    dsimp only
    split
    · rename_i last
      rw [List.isEmpty_iff.mp last] at left
      simp only [Table.get?_erase working.setsOnce, if_true, Option.some.injEq, exists_eq_left',
        ← left]
      simp
    · simp only [Table.get?_set, if_true, Option.some.injEq, exists_eq_left', left]

@[simp] theorem append_shows (b : MemoryBus) (m : BusMessage) (user : Uuid) :
    (b.append m).Shows user ↔ b.Shows user := Iff.rfl

theorem append_working (working : b.Working) (m : BusMessage) : (b.append m).Working :=
  ⟨working.available, working.setsOnce⟩

theorem publish_eq (working : b.Working) (m : BusMessage) :
    SharedBus.publish b m = (b.append m, .ok ()) := by
  simp [SharedBus.publish, publish, working.available]

end MemoryBus

/-! ## Marks and questions -/

namespace Presence

variable {b : MemoryBus} {now : Nat} {user : Uuid}

theorem markOnline_bus (working : b.Working) (p : Presence) (now : Nat) (user : Uuid) :
    (p.markOnline (some b) now user).2 =
      some ((b.setAdd now Channel.onlineSet user.text p.lease).1.append (p.notice user true)) := by
  have added := MemoryBus.setAdd_eq working now Channel.onlineSet user.text p.lease
  have after := MemoryBus.setAdd_working working now Channel.onlineSet user.text p.lease
  have lease : (p.insert user).lease = p.lease := by
    unfold insert
    split <;> rfl
  have notice : (p.insert user).notice user true = p.notice user true := by
    unfold insert
    split <;> rfl
  unfold markOnline announce
  simp only [SharedBus.setAdd, lease, notice]
  rw [added] at after ⊢
  dsimp only at after ⊢
  rw [MemoryBus.publish_eq after]

theorem markOffline_bus (working : b.Working) (p : Presence) (user : Uuid) :
    (p.markOffline (some b) user).2 =
      some ((b.setRemove Channel.onlineSet user.text).1.append (p.notice user false)) := by
  have done := MemoryBus.setRemove_ok working Channel.onlineSet user.text
  have after := MemoryBus.setRemove_working working Channel.onlineSet user.text
  unfold markOffline announce
  simp only [SharedBus.setRemove]
  cases removed : b.setRemove Channel.onlineSet user.text with
  | mk b' answer =>
    rw [removed] at done after
    dsimp only at done after ⊢
    rw [done]
    dsimp only
    rw [MemoryBus.publish_eq after]
    rfl

/-- A question costs the bus one look at the set, and none when nobody is asked about. -/
theorem onlineAmong_bus {β : Type} [SharedBus β] (p : Presence) (b : β) (now : Nat)
    (users : List Uuid) :
    (p.onlineAmong (some b) now users).1 =
      some (if users.isEmpty then b
        else (SharedBus.setContains b now Channel.onlineSet (users.map Uuid.text)).1) := by
  unfold onlineAmong
  split
  · rfl
  · dsimp only
    split <;> rename_i looked <;> rw [looked]

private theorem flagged_eq_filter (users : List Uuid) (flag : Uuid → Bool) :
    ((users.zip (users.map flag)).filterMap fun uf => if uf.2 then some uf.1 else none) =
      users.filter flag := by
  induction users with
  | nil => rfl
  | cons user rest ih => cases set : flag user <;> simp [set, ih]

/-- Of the users asked about, those in the shared set are online, in the order asked. -/
theorem onlineAmong_shared (working : b.Working) (p : Presence) (now : Nat) (users : List Uuid) :
    (p.onlineAmong (some b) now users).2 =
      users.filter fun user => (b.liveMembers now Channel.onlineSet).contains user.text := by
  by_cases nobody : users = []
  · subst nobody
    rfl
  · simp only [onlineAmong, List.isEmpty_iff, nobody, if_false, SharedBus.setContains,
      MemoryBus.setContains, working.available, if_true, List.map_map]
    exact flagged_eq_filter users _

/-- Any hub answers by the shared set. -/
theorem isOnline_shared (working : b.Working) (unexpired : b.Unexpired now) (p : Presence)
    (user : Uuid) : (p.isOnline (some b) now user).2 = true ↔ b.Shows user := by
  rw [← MemoryBus.mem_liveMembers unexpired]
  by_cases shown : user.text ∈ b.liveMembers now Channel.onlineSet <;>
    simp [isOnline, onlineAmong, SharedBus.setContains, MemoryBus.setContains, working.available,
      shown]

end Presence

end RoomRelay
