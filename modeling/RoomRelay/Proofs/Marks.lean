import RoomRelay.Proofs.AvailableBus

/-!
Marks. All that hubs ever ask of the shared set of users online is to add a user at an instant or
to remove a user. What the marks make of the set is said here, for a bus in memory and for marks
of any hubs in any order; while the bus is switched off a mark does nothing.
-/

namespace RoomRelay

/-- A user is to be added to the set of users online at an instant, or removed from it. -/
inductive Mark where
  | add (now : Nat) (user : Uuid)
  | remove (user : Uuid)
deriving DecidableEq

/-- The instant at which a mark adds a user. -/
def Mark.instant? : Mark → Option Nat
  | .add now _ => some now
  | .remove _ => none

/-- The instants at which users are added. -/
def instants (marks : List Mark) : List Nat := marks.filterMap Mark.instant?

theorem mem_instants {marks : List Mark} {now : Nat} :
    now ∈ instants marks ↔ ∃ user, .add now user ∈ marks := by
  simp only [instants, List.mem_filterMap]
  constructor
  · rintro ⟨m, member, at_⟩
    cases m with
    | add added user => exact ⟨user, Option.some.inj at_ ▸ member⟩
    | remove user => cases at_
  · rintro ⟨user, member⟩
    exact ⟨_, member, rfl⟩

namespace MemoryBus

/-- The bus after a mark. An added user renews the lease of the whole set. -/
def mark (lease : Duration) (b : MemoryBus) : Mark → MemoryBus
  | .add now user => (b.setAdd now Channel.onlineSet user.text lease).1
  | .remove user => (b.setRemove Channel.onlineSet user.text).1

/-- The bus after marks, one after another. -/
def markAll (lease : Duration) (b : MemoryBus) (marks : List Mark) : MemoryBus :=
  marks.foldl (mark lease) b

/-- The buses differ in their messages at most. -/
structure Alike (b b' : MemoryBus) : Prop where
  sets : b'.sets = b.sets
  available : b'.available = b.available

variable {b b' : MemoryBus} {lease : Duration} {now later : Nat} {user other : Uuid}

namespace Alike

theorem refl (b : MemoryBus) : b.Alike b := ⟨rfl, rfl⟩

theorem trans {b'' : MemoryBus} (first : b.Alike b') (second : b'.Alike b'') : b.Alike b'' :=
  ⟨second.sets.trans first.sets, second.available.trans first.available⟩

theorem shows_iff (alike : b.Alike b') (user : Uuid) : b'.Shows user ↔ b.Shows user := by
  unfold MemoryBus.Shows
  rw [alike.sets]

theorem live (alike : b.Alike b') (now : Nat) (key : String) :
    b'.liveMembers now key = b.liveMembers now key := by
  unfold liveMembers
  rw [alike.sets]

theorem unexpired_iff (alike : b.Alike b') (now : Nat) : b'.Unexpired now ↔ b.Unexpired now := by
  unfold MemoryBus.Unexpired
  rw [alike.sets]

theorem working (alike : b.Alike b') (works : b.Working) : b'.Working :=
  ⟨alike.available.trans works.available, alike.sets ▸ works.setsOnce⟩

end Alike

/-! ## One mark -/

@[simp] theorem mark_available (lease : Duration) (b : MemoryBus) (m : Mark) :
    (b.mark lease m).available = b.available := by
  cases m with
  | add now user =>
    simp only [mark, setAdd]
    split <;> rfl
  | remove user =>
    simp only [mark, setRemove]
    split
    · split <;> rfl
    · rfl

/-- While the bus is switched off a mark is lost. -/
private theorem mark_lost (off : b.available = false) (lease : Duration) (m : Mark) :
    b.mark lease m = b := by
  cases m <;> simp [mark, setAdd, setRemove, off]

theorem markAll_lost (off : b.available = false) (lease : Duration) (marks : List Mark) :
    b.markAll lease marks = b := by
  induction marks with
  | nil => rfl
  | cons m rest ih => rw [markAll, List.foldl_cons, mark_lost off]; exact ih

private theorem mark_setsOnce (once : b.sets.keys.Nodup) (lease : Duration) (m : Mark) :
    (b.mark lease m).sets.keys.Nodup := by
  by_cases up : b.available = true
  · cases m with
    | add now user =>
      exact (setAdd_working ⟨up, once⟩ now Channel.onlineSet user.text lease).setsOnce
    | remove user => exact (setRemove_working ⟨up, once⟩ Channel.onlineSet user.text).setsOnce
  · rw [mark_lost (Bool.eq_false_iff.mpr up)]
    exact once

theorem mark_working (working : b.Working) (lease : Duration) (m : Mark) :
    (b.mark lease m).Working :=
  ⟨(mark_available lease b m).trans working.available, mark_setsOnce working.setsOnce lease m⟩

/-- An added user is in the set from then on until the lease ends, with those who were in it when
the user was added. -/
theorem mem_live_add (working : b.Working) :
    other.text ∈ (b.mark lease (.add now user)).liveMembers later Channel.onlineSet ↔
      later < now + lease.nanos ∧
        (other = user ∨ other.text ∈ b.liveMembers now Channel.onlineSet) := by
  simp only [mark, setAdd_eq working]
  rw [liveMembers]
  simp only [Table.get?_set, if_true]
  by_cases ended : now + lease.nanos ≤ later
  · simp [ended, Nat.not_lt.mpr ended]
  · simp only [ended, if_false, Nat.not_le.mp ended, true_and]
    by_cases present : user.text ∈ b.liveMembers now Channel.onlineSet
    · simp only [List.contains_iff_mem, present, if_true]
      exact ⟨.inr, fun either => either.elim (fun same => same ▸ present) id⟩
    · simp only [List.contains_iff_mem, present, if_false, List.mem_append, List.mem_singleton]
      rw [or_comm, Uuid.text_inj]

/-- A removed user is not in the set; nobody else is concerned, nor is the lease. -/
theorem mem_live_remove (working : b.Working) :
    other.text ∈ (b.mark lease (.remove user)).liveMembers later Channel.onlineSet ↔
      other ≠ user ∧ other.text ∈ b.liveMembers later Channel.onlineSet := by
  simp only [mark, setRemove, working.available, if_true]
  cases found : b.sets.get? Channel.onlineSet with
  | none => simp [liveMembers, found]
  | some s =>
    have left : other.text ∈ s.members.filter (· ≠ user.text) ↔
        other ≠ user ∧ other.text ∈ s.members := by
      simp [Uuid.text_inj, and_comm]
    dsimp only
    by_cases last : (s.members.filter (· ≠ user.text)).isEmpty
    · rw [List.isEmpty_iff.mp last] at left
      simp only [last, if_true, liveMembers, found, Table.get?_erase working.setsOnce]
      split
      · simp
      · simpa using left
    · simp only [last, Bool.false_eq_true, if_false, liveMembers, found, Table.get?_set, if_true]
      split
      · simp
      · exact left

/-- Marks do not look at messages. -/
theorem Alike.mark (alike : b.Alike b') (lease : Duration) (m : Mark) :
    (b.mark lease m).Alike (b'.mark lease m) := by
  obtain ⟨log, count, sets, available, counted⟩ := b
  obtain ⟨log', count', sets', available', counted'⟩ := b'
  obtain ⟨rfl, rfl⟩ := (⟨alike.sets, alike.available⟩ : sets' = sets ∧ available' = available)
  cases available' with
  | false => simp only [MemoryBus.mark_lost]; exact alike
  | true =>
    cases m with
    | add now user => exact ⟨rfl, rfl⟩
    | remove user =>
      simp only [MemoryBus.mark, setRemove, if_true]
      split <;> exact ⟨rfl, rfl⟩

/-! ## Many marks -/

theorem markAll_alike (alike : b.Alike b') (lease : Duration) (marks : List Mark) :
    (b.markAll lease marks).Alike (b'.markAll lease marks) := by
  induction marks generalizing b b' with
  | nil => exact alike
  | cons m rest ih => exact ih (alike.mark lease m)

theorem markAll_append (lease : Duration) (b : MemoryBus) (marks rest : List Mark) :
    b.markAll lease (marks ++ rest) = (b.markAll lease marks).markAll lease rest :=
  List.foldl_append

@[simp] theorem markAll_available (lease : Duration) (b : MemoryBus) (marks : List Mark) :
    (b.markAll lease marks).available = b.available := by
  induction marks generalizing b with
  | nil => rfl
  | cons m rest ih => exact (ih _).trans (mark_available lease b m)

theorem markAll_setsOnce (once : b.sets.keys.Nodup) (lease : Duration) (marks : List Mark) :
    (b.markAll lease marks).sets.keys.Nodup := by
  induction marks generalizing b with
  | nil => exact once
  | cons m rest ih => exact ih (mark_setsOnce once lease m)

/-- Only a user that is added comes into the set, and none that is removed stays, whenever the set
expires. -/
theorem shows_of_markAll (working : b.Working) {marks : List Mark}
    (shows_ : (b.markAll lease marks).Shows user) :
    (∃ now, .add now user ∈ marks) ∨ b.Shows user ∧ .remove user ∉ marks := by
  induction marks generalizing b with
  | nil => exact .inr ⟨shows_, List.not_mem_nil⟩
  | cons m rest ih =>
    rcases ih (mark_working working lease m) shows_ with ⟨now, added⟩ | ⟨before, kept⟩
    · exact .inl ⟨now, List.mem_cons_of_mem m added⟩
    · cases m with
      | add now other =>
        rcases shows_of_setAdd working before with rfl | earlier
        · exact .inl ⟨now, List.mem_cons_self⟩
        · exact .inr ⟨earlier, by simpa using kept⟩
      | remove other =>
        obtain ⟨different, earlier⟩ := (setRemove_shows working).mp before
        exact .inr ⟨earlier, by simpa [kept] using different⟩

/-- Removing users hides them and nobody else. -/
theorem markAll_remove_shows (working : b.Working) (users : List Uuid) :
    (b.markAll lease (users.map .remove)).Shows other ↔ other ∉ users ∧ b.Shows other := by
  induction users generalizing b with
  | nil => simp [markAll]
  | cons user rest ih =>
    have removed := ih (mark_working working lease (.remove user))
    rw [List.map_cons, markAll, List.foldl_cons, ← markAll, removed, mark,
      setRemove_shows working, List.mem_cons, not_or, and_left_comm, and_assoc]

/-- An added user renews the lease. -/
private theorem mark_add_unexpired (working : b.Working) :
    (b.mark lease (.add now user)).Unexpired later ↔ later < now + lease.nanos := by
  simp [mark, setAdd_eq working, MemoryBus.Unexpired, Table.get?_set]

private theorem lease_pos_of_unexpired (working : b.Working) {users : List Uuid}
    (some_ : users ≠ [])
    (after : (b.markAll lease (users.map (.add now))).Unexpired now) : 0 < lease.nanos := by
  rcases List.eq_nil_or_concat users with rfl | ⟨most, last, rfl⟩
  · exact absurd rfl some_
  · have before : (b.markAll lease (most.map (.add now))).Working :=
      ⟨(markAll_available ..).trans working.available, markAll_setsOnce working.setsOnce ..⟩
    rw [List.concat_eq_append, List.map_append, markAll_append] at after
    have inTime := (mark_add_unexpired before).mp after
    omega

private theorem markAll_add_shows_of_lease (working : b.Working) (lasts : 0 < lease.nanos)
    (before : b.Unexpired now) (users : List Uuid) :
    (b.markAll lease (users.map (.add now))).Shows other ↔ other ∈ users ∨ b.Shows other := by
  induction users generalizing b with
  | nil => simp [markAll]
  | cons user rest ih =>
    have renewed : (b.mark lease (.add now user)).Unexpired now :=
      (mark_add_unexpired working).mpr (by omega)
    have first : (b.mark lease (.add now user)).Shows other ↔ other = user ∨ b.Shows other :=
      setAdd_shows working before lease
    refine (ih (mark_working working lease (.add now user)) renewed).trans ?_
    rw [first, List.mem_cons, or_left_comm, or_assoc]

/-- Adding users at one instant shows them and hides nobody, unless the set is expired before or
after. -/
theorem markAll_add_shows (working : b.Working) {users : List Uuid} (before : b.Unexpired now)
    (after : (b.markAll lease (users.map (.add now))).Unexpired now) :
    (b.markAll lease (users.map (.add now))).Shows other ↔ other ∈ users ∨ b.Shows other := by
  by_cases nobody : users = []
  · simp [nobody, markAll]
  · exact markAll_add_shows_of_lease working (lease_pos_of_unexpired working nobody after) before
      users

/-- Whether the set was expired before or not, the users that are added are shown. -/
theorem markAll_add_shows_added (working : b.Working) {users : List Uuid} (member : user ∈ users)
    (after : (b.markAll lease (users.map (.add now))).Unexpired now) :
    (b.markAll lease (users.map (.add now))).Shows user := by
  have lasts := lease_pos_of_unexpired working (List.ne_nil_of_mem member) after
  cases users with
  | nil => cases member
  | cons first rest =>
    have renewed : (b.mark lease (.add now first)).Unexpired now :=
      (mark_add_unexpired working).mpr (by omega)
    have shown : (b.mark lease (.add now first)).Shows first :=
      (mem_liveMembers renewed).mp ((mem_live_add working).mpr ⟨by omega, .inl rfl⟩)
    refine (markAll_add_shows_of_lease (mark_working working lease _) lasts renewed rest).mpr ?_
    rcases List.mem_cons.mp member with rfl | later
    · exact .inr shown
    · exact .inl later

end MemoryBus

/-! ## The marks that hubs make -/

namespace Presence

variable {b : MemoryBus}

/-- A notice does nothing to the sets. -/
private theorem announce_alike (p : Presence) (b : MemoryBus) (user : Uuid) (online : Bool) :
    b.Alike (p.announce b user online) := by
  simp only [announce, SharedBus.publish, MemoryBus.publish]
  split <;> exact ⟨rfl, rfl⟩

theorem markOnline_marks (p : Presence) (b : MemoryBus) (now : Nat) (user : Uuid) :
    ∃ b', (p.markOnline (some b) now user).2 = some b' ∧
      (b.mark p.lease (.add now user)).Alike b' := by
  simp only [markOnline, insert_lease, SharedBus.setAdd, MemoryBus.mark]
  split
  · rename_i added adds
    rw [adds]
    exact ⟨_, rfl, announce_alike ..⟩
  · rename_i added _ adds
    rw [adds]
    exact ⟨_, rfl, .refl _⟩

theorem markOffline_marks (p : Presence) (b : MemoryBus) (user : Uuid) :
    ∃ b', (p.markOffline (some b) user).2 = some b' ∧
      (b.mark p.lease (.remove user)).Alike b' := by
  simp only [markOffline, SharedBus.setRemove, MemoryBus.mark]
  split
  · rename_i removed removes
    rw [removes]
    exact ⟨_, rfl, announce_alike ..⟩
  · rename_i removed _ removes
    rw [removes]
    exact ⟨_, rfl, .refl _⟩

/-- A renewal adds the users one after another. When the first add fails so would the others. -/
theorem refreshOn_marks (p : Presence) (b : MemoryBus) (now : Nat) (users : List Uuid) :
    p.refreshOn b now users = b.markAll p.lease (users.map (.add now)) := by
  by_cases up : b.available = true
  · induction users generalizing b with
    | nil => rfl
    | cons user rest ih =>
      have added := ih (b.mark p.lease (.add now user)) ((MemoryBus.mark_available ..).trans up)
      simpa [refreshOn, SharedBus.setAdd, MemoryBus.setAdd, up, MemoryBus.mark,
        MemoryBus.markAll] using added
  · have off := Bool.eq_false_iff.mpr up
    rw [MemoryBus.markAll_lost off]
    cases users <;> simp [refreshOn, SharedBus.setAdd, MemoryBus.setAdd, off]

end Presence

end RoomRelay
