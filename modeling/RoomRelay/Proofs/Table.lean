import RoomRelay.Table

/-!
What is found in a table after it was changed. A table whose keys are all different is a map:
each operation touches one key, and sums over the entries follow that key alone.
-/

namespace RoomRelay.Table

variable {κ α : Type}

@[simp] theorem keys_nil : keys ([] : Table κ α) = [] := rfl

@[simp] theorem keys_cons (entry : κ × α) (rest : Table κ α) :
    keys (entry :: rest) = entry.1 :: keys rest := rfl

theorem keys_map_filter_sublist (t : Table κ α) (f : α → α) (keep : α → Bool) :
    (keys ((t.map fun e => (e.1, f e.2)).filter fun e => keep e.2)).Sublist t.keys := by
  have mapped : keys (t.map fun e => (e.1, f e.2)) = t.keys := by simp [keys]
  rw [← mapped]
  exact List.filter_sublist.map _

variable [DecidableEq κ]

@[simp] theorem get?_nil (k : κ) : get? k ([] : Table κ α) = none := rfl

private theorem get?_cons (k l : κ) (a : α) (rest : Table κ α) :
    get? k ((l, a) :: rest) = if l = k then some a else get? k rest := rfl

/-- A table is a list in which keys are looked up. -/
theorem lookup_eq_get? [BEq κ] [LawfulBEq κ] (k : κ) (t : Table κ α) :
    List.lookup k t = t.get? k := by
  induction t with
  | nil => rfl
  | cons entry rest ih =>
    obtain ⟨l, a⟩ := entry
    rw [List.lookup_cons, get?_cons, ih]
    by_cases same : l = k
    · simp [same]
    · simp [same, beq_eq_false_iff_ne.mpr (Ne.symm same)]

/-- A key that stands nowhere has no entry. -/
theorem get?_eq_none_iff {k : κ} {t : Table κ α} : t.get? k = none ↔ k ∉ t.keys := by
  induction t with
  | nil => simp
  | cons entry rest ih =>
    obtain ⟨l, a⟩ := entry
    rw [get?_cons, keys_cons]
    by_cases same : l = k
    · simp [same]
    · simp [same, Ne.symm same, ih]

theorem mem_of_get? {k : κ} {a : α} {t : Table κ α} (found : t.get? k = some a) : (k, a) ∈ t := by
  induction t with
  | nil => cases found
  | cons entry rest ih =>
    obtain ⟨l, b⟩ := entry
    rw [get?_cons] at found
    split at found
    · rename_i same
      cases found
      exact same ▸ List.mem_cons_self
    · exact List.mem_cons_of_mem _ (ih found)

/-- In a map every entry is the one that is found. -/
theorem get?_of_mem {k : κ} {a : α} {t : Table κ α} (once : t.keys.Nodup) (member : (k, a) ∈ t) :
    t.get? k = some a := by
  induction t with
  | nil => cases member
  | cons entry rest ih =>
    obtain ⟨l, b⟩ := entry
    rw [keys_cons, List.nodup_cons] at once
    rw [get?_cons]
    rcases List.mem_cons.mp member with head | tail
    · cases head
      simp
    · have inRest : k ∈ keys rest := List.mem_map_of_mem tail
      have different : l ≠ k := fun same => once.1 (same ▸ inRest)
      rw [if_neg different]
      exact ih once.2 tail

/-! ## Setting, changing and erasing a key -/

theorem get?_set (k l : κ) (a : α) (t : Table κ α) :
    (t.set k a).get? l = if l = k then some a else t.get? l := by
  induction t with
  | nil =>
    simp only [set, get?_cons, get?_nil, eq_comm]
  | cons entry rest ih =>
    obtain ⟨m, b⟩ := entry
    by_cases here : m = k
    · subst here
      by_cases same : l = m
      · simp [set, get?_cons, same]
      · simp [set, get?_cons, same, Ne.symm same]
    · by_cases same : m = l
      · subst same
        simp [set, get?_cons, here]
      · simp only [set, if_neg here, get?_cons, if_neg same, ih]

theorem get?_modify (k l : κ) (f : α → α) (t : Table κ α) :
    (t.modify k f).get? l = if l = k then (t.get? k).map f else t.get? l := by
  unfold modify
  cases found : t.get? k with
  | none =>
    by_cases same : l = k
    · simp [same, found]
    · simp [same]
  | some a => simp only [get?_set, Option.map_some]

private theorem keys_set (k : κ) (a : α) (t : Table κ α) :
    (t.set k a).keys = if k ∈ t.keys then t.keys else t.keys ++ [k] := by
  induction t with
  | nil => rfl
  | cons entry rest ih =>
    obtain ⟨l, b⟩ := entry
    by_cases here : l = k
    · simp [set, here]
    · simp only [set, if_neg here, keys_cons, ih, List.mem_cons, Ne.symm here, false_or]
      split <;> simp

theorem keys_set_nodup {k : κ} {a : α} {t : Table κ α} (once : t.keys.Nodup) :
    (t.set k a).keys.Nodup := by
  rw [keys_set]
  split
  · exact once
  · rename_i absent
    exact List.nodup_append.mpr ⟨once, by simp, fun l member m last same =>
      absent (List.mem_singleton.mp last ▸ same ▸ member)⟩

private theorem keys_erase_sublist (k : κ) (t : Table κ α) : (t.erase k).keys.Sublist t.keys := by
  induction t with
  | nil => exact .slnil
  | cons entry rest ih =>
    obtain ⟨l, b⟩ := entry
    simp only [erase]
    split
    · exact List.sublist_cons_self _ _
    · exact ih.cons_cons l

theorem keys_erase_nodup {k : κ} {t : Table κ α} (once : t.keys.Nodup) : (t.erase k).keys.Nodup :=
  once.sublist (keys_erase_sublist k t)

theorem get?_erase {k : κ} {t : Table κ α} (once : t.keys.Nodup) (l : κ) :
    (t.erase k).get? l = if l = k then none else t.get? l := by
  induction t with
  | nil => simp [erase]
  | cons entry rest ih =>
    obtain ⟨m, b⟩ := entry
    rw [keys_cons, List.nodup_cons] at once
    by_cases here : m = k
    · subst here
      have absent : get? m rest = none := get?_eq_none_iff.mpr once.1
      by_cases same : l = m
      · simp [erase, same, absent]
      · simp [erase, same, get?_cons, Ne.symm same]
    · by_cases same : m = l
      · subst same
        simp [erase, here, get?_cons]
      · simp only [erase, if_neg here, get?_cons, if_neg same, ih once.2]

/-- Changing every entry and dropping those that came out empty is looked up key by key. -/
theorem get?_map_filter {t : Table κ α} (once : t.keys.Nodup) (f : α → α) (keep : α → Bool) (k : κ) :
    get? k ((t.map fun e => (e.1, f e.2)).filter fun e => keep e.2) =
      ((t.get? k).map f).filter keep := by
  induction t with
  | nil => rfl
  | cons entry rest ih =>
    obtain ⟨l, b⟩ := entry
    rw [keys_cons, List.nodup_cons] at once
    simp only [List.map_cons, List.filter_cons]
    by_cases here : l = k
    · subst here
      have absent : get? l rest = none := get?_eq_none_iff.mpr once.1
      by_cases kept : keep (f b) = true
      · simp [kept, get?_cons, Option.filter]
      · simp [kept, get?_cons, ih once.2, absent, Option.filter]
    · by_cases kept : keep (f b) = true
      · simp only [kept, if_true, get?_cons, if_neg here, ih once.2]
      · simp only [kept, get?_cons, if_neg here, ih once.2, Bool.false_eq_true, if_false]

/-- Empty entries look the same as missing ones. -/
theorem getD_filter_nonempty {α : Type} (found : Option (List α)) :
    (found.filter fun items => !items.isEmpty).getD [] = found.getD [] := by
  cases found with
  | none => rfl
  | some items => cases items <;> rfl

/-! ## Sums over the entries -/

/-- The sum of a size over all entries. -/
def sum (size : α → Nat) : Table κ α → Nat
  | [] => 0
  | entry :: rest => size entry.2 + sum size rest

/-- The size of the entry under a key; none counts nothing. -/
def sizeAt (size : α → Nat) (k : κ) (t : Table κ α) : Nat := ((t.get? k).map size).getD 0

theorem sum_set (size : α → Nat) (k : κ) (a : α) (t : Table κ α) :
    (t.set k a).sum size + t.sizeAt size k = t.sum size + size a := by
  induction t with
  | nil => simp [set, sum, sizeAt]
  | cons entry rest ih =>
    obtain ⟨l, b⟩ := entry
    by_cases here : l = k
    · simp only [set, if_pos here, sum, sizeAt, get?_cons,
        Option.map_some, Option.getD_some]
      omega
    · simp only [sizeAt] at ih
      simp only [set, if_neg here, sum, sizeAt, get?_cons]
      omega

theorem sum_erase (size : α → Nat) (k : κ) (t : Table κ α) :
    (t.erase k).sum size + t.sizeAt size k = t.sum size := by
  induction t with
  | nil => simp [erase, sum, sizeAt]
  | cons entry rest ih =>
    obtain ⟨l, b⟩ := entry
    by_cases here : l = k
    · simp only [erase, if_pos here, sum, sizeAt, get?_cons,
        Option.map_some, Option.getD_some]
      omega
    · simp only [sizeAt] at ih
      simp only [erase, if_neg here, sum, sizeAt, get?_cons]
      omega

end RoomRelay.Table
