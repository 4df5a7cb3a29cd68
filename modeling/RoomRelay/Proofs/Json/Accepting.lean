import RoomRelay.Proofs.Json.Records

/-!
What readers make of documents that they did not write. Free-form data that was read is in the order of
its keys, opens no more levels than its reader had, and its whole numbers fit in 64 bits, so whatever
was read can be written and read again.
-/

namespace RoomRelay.Json

/-! ## Numbers that numerals stand for -/

namespace Numeral

private theorem extend_lt {significand digit n : Nat}
    (extended : extend? significand digit = some n) :
    n < Word.span 64 := by
  simp only [extend?] at extended
  split at extended
  · rename_i small
    cases extended
    exact small
  · cases extended

/-- The digits that are gathered fit in 64 bits. -/
private theorem gatherWhole_lt {significand : Nat} (small : significand < Word.span 64)
    (ds : List Nat) :
    (gatherWhole significand ds).1 < Word.span 64 := by
  induction ds generalizing significand with
  | nil => exact small
  | cons d rest ih =>
    cases extended : extend? significand d with
    | none =>
      rw [gatherWhole, extended]
      exact small
    | some n =>
      rw [gatherWhole, extended]
      exact ih (extend_lt extended)

private theorem whole_word {negative : Bool} {significand : Nat} {i : Int}
    (small : significand < Word.span 64) (is : whole? negative significand = some (.whole i)) :
    (Number.whole i).IsWord := by
  have halves : Word.span 64 = 2 * Word.span 63 := by decide
  unfold whole? at is
  cases negative with
  | false =>
    cases is
    constructor <;> omega
  | true =>
    simp only [if_true] at is
    split at is
    · cases double : Binary64.ofDecimal? true significand 0 <;> simp [double] at is
    · rename_i inside
      cases is
      constructor <;> omega

/-- A whole number that a numeral stands for fits in 64 bits. -/
private theorem number_word {n : Numeral} {i : Int} (is : n.number? = some (.whole i)) :
    (Number.whole i).IsWord := by
  have small : (gatherWhole 0 n.whole).1 < Word.span 64 := gatherWhole_lt (by decide) n.whole
  unfold number? at is
  obtain ⟨significand, surplus⟩ := gatherWhole 0 n.whole
  simp only at is
  split at is
  · exact whole_word small is
  · -- with a fraction, an exponent or digits too many it is a double
    exfalso
    split at is
    · simp at is
    · split at is
      · simp at is
      · split at is
        · cases is
        · cases is

end Numeral

/-! ## Free-form data -/

/-- What is known of a value that was read under so many levels. -/
structure Value.Kept (levels : Nat) (v : Value) : Prop where
  ordered : v.arranged = v
  shallow : v.depth ≤ levels
  numerals : ∀ n ∈ v.numbers, ∃ m : Numeral, m.number? = some n

namespace Value.Kept

theorem mono {levels more : Nat} {v : Value} (kept : v.Kept levels) (le : levels ≤ more) :
    v.Kept more :=
  ⟨kept.ordered, Nat.le_trans kept.shallow le, kept.numerals⟩

theorem array {levels : Nat} {vs : List Value} (kept : ∀ v ∈ vs, v.Kept levels) :
    (Value.array vs).Kept (levels + 1) where
  ordered := by
    rw [arranged, arrangedItems_eq, List.map_congr_left fun v member => (kept v member).ordered,
      List.map_id']
  shallow := Nat.succ_le_succ (depthItems_le_iff.mpr fun v member => (kept v member).shallow)
  numerals n member := by
    obtain ⟨v, standing, inside⟩ := mem_numbersItems.mp member
    exact (kept v standing).numerals n inside

theorem object {levels : Nat} {ms : Members} (ascending : ms.Ascending)
    (kept : ∀ m ∈ ms, m.2.Kept levels) : (Value.object ms).Kept (levels + 1) where
  ordered := by
    rw [arranged, arrangedMembers_eq_self fun m member => (kept m member).ordered,
      Members.ofList_eq_self ascending]
  shallow := Nat.succ_le_succ (depthMembers_le_iff.mpr fun m member => (kept m member).shallow)
  numerals n member := by
    obtain ⟨m, standing, inside⟩ := mem_numbersMembers.mp member
    exact (kept m standing).numerals n inside

end Value.Kept

mutual

/-- The value of a document is no deeper than the document. -/
private theorem kept_of_value : ∀ (d : Document) {v : Value}, d.value? = some v → v.Kept d.depth
  | .null, v, read => by
    cases read
    exact ⟨rfl, Nat.le_refl _, fun _ none => nomatch none⟩
  | .bool b, v, read => by
    cases read
    exact ⟨rfl, Nat.le_refl _, fun _ none => nomatch none⟩
  | .string text, v, read => by
    cases text with
    | none => cases read
    | some s =>
      cases read
      exact ⟨rfl, Nat.le_refl _, fun _ none => nomatch none⟩
  | .number m, v, read => by
    obtain ⟨n, is, rfl⟩ := Option.map_eq_some_iff.mp read
    refine ⟨rfl, Nat.le_refl _, ?_⟩
    intro n' member
    rw [List.mem_singleton.mp member]
    exact ⟨m, is⟩
  | .array items, v, read => by
    obtain ⟨vs, is, rfl⟩ := Option.map_eq_some_iff.mp read
    exact .array (kept_of_valueItems items is)
  | .object members, v, read => by
    obtain ⟨ms, is, rfl⟩ := Option.map_eq_some_iff.mp read
    obtain ⟨ascending, kept⟩ := kept_of_valueMembers members List.Pairwise.nil
      (fun _ none => nomatch none) (Nat.le_refl _) is
    exact .object ascending kept

private theorem kept_of_valueItems : ∀ (items : List Document) {vs : List Value},
    Document.valueItems? items = some vs → ∀ v ∈ vs, v.Kept (Document.depthItems items)
  | [], vs, read, v, member => by
    cases read
    cases member
  | d :: rest, vs, read, v, member => by
    rw [Document.valueItems?] at read
    cases first : d.value? with
    | none => simp [first] at read
    | some u =>
      cases later : Document.valueItems? rest with
      | none => simp [first, later] at read
      | some us =>
        simp only [first, later, Option.some.injEq] at read
        subst read
        rcases List.mem_cons.mp member with is | inRest
        · rw [is]
          exact (kept_of_value d first).mono (Nat.le_max_left ..)
        · exact (kept_of_valueItems rest later v inRest).mono (Nat.le_max_right ..)

private theorem kept_of_valueMembers :
    ∀ (members : List (Option String × Document)) {acc ms : Members}
    {levels : Nat}, acc.Ascending → (∀ m ∈ acc, m.2.Kept levels) →
    Document.depthMembers members ≤ levels → Document.valueMembers? acc members = some ms →
      ms.Ascending ∧ ∀ m ∈ ms, m.2.Kept levels
  | [], acc, ms, levels, ascending, kept, _, read => by
    cases read
    exact ⟨ascending, kept⟩
  | (key, d) :: rest, acc, ms, levels, ascending, kept, room, read => by
    rw [Document.depthMembers] at room
    cases key with
    | none => simp [Document.valueMembers?] at read
    | some key =>
      cases value : d.value? with
      | none => simp [Document.valueMembers?, value] at read
      | some v =>
        simp only [Document.valueMembers?, value] at read
        have new := (kept_of_value d value).mono (Nat.le_trans (Nat.le_max_left ..) room)
        refine kept_of_valueMembers rest (Members.set_ascending ascending key v) ?_
          (Nat.le_trans (Nat.le_max_right ..) room) read
        intro m member
        rcases Members.mem_set member with is | old
        · rw [is]
          exact new
        · exact kept m old

end

/-- Whole numbers, whatever their size. -/
def Whole (ns : List Number) : Prop := ∀ n ∈ ns, ∃ i, n = .whole i

theorem Value.Kept.freeForm {levels : Nat} {v : Value} (kept : v.Kept levels)
    (whole : Whole v.numbers) : v.FreeForm where
  ordered := kept.ordered
  words n member := by
    obtain ⟨i, rfl⟩ := whole n member
    obtain ⟨m, is⟩ := kept.numerals _ member
    exact Numeral.number_word is

/-! ## Readers -/

section Readers

variable {levels : Nat} {d : Document}

private theorem kept_of_read {v : Value} (read : Decode.value levels d = .ok v) :
    v.Kept levels := by
  unfold Decode.value at read
  split at read
  · cases read
  · rename_i shallow
    split at read
    · rename_i u value
      cases read
      exact (kept_of_value d value).mono (Nat.not_lt.mp shallow)
    · cases read

theorem kept_of_members {ms : Members} (read : Decode.members levels d = .ok ms) :
    (Value.object ms).Kept levels := by
  unfold Decode.members at read
  split at read
  · split at read
    · rename_i given
      cases read
      exact kept_of_read given
    · cases read
    · cases read
  · cases read

variable {ε α γ : Type}

/-- What a chain of readers gives rests on what each of them gave. -/
theorem bind_ok {x : Except ε α} {next : α → Except ε γ} {c : γ} (read : x >>= next = .ok c) :
    ∃ a, x = .ok a ∧ next a = .ok c := by
  cases x with
  | error _ => cases read
  | ok a => exact ⟨a, rfl, read⟩

theorem map_ok {x : Except ε α} {g : α → γ} {c : γ} (read : x.map g = .ok c) :
    ∃ a, x = .ok a ∧ g a = c := by
  cases x with
  | error _ => cases read
  | ok a => exact ⟨a, rfl, Except.ok.inj read⟩

theorem unsigned_lt {bits n : Nat} (read : Decode.unsigned bits levels d = .ok n) :
    n < Word.span bits := by
  obtain ⟨i, whole, rfl⟩ := map_ok read
  unfold Decode.whole at whole
  split at whole
  · split at whole
    · split at whole
      · rename_i bounds
        cases whole
        omega
      · cases whole
    · cases whole
    · cases whole
  · cases whole

private theorem mem_of_mapM {step : α → Except ε γ} {as : List α} {cs : List γ}
    (read : as.mapM step = .ok cs) : ∀ c ∈ cs, ∃ a, step a = .ok c := by
  induction as generalizing cs with
  | nil =>
    cases read
    exact fun _ none => nomatch none
  | cons a rest ih =>
    rw [List.mapM_cons] at read
    obtain ⟨first, one, read⟩ := bind_ok read
    obtain ⟨later, others, read⟩ := bind_ok read
    cases read
    intro c member
    rcases List.mem_cons.mp member with is | inRest
    · exact ⟨a, is ▸ one⟩
    · exact ih others c inRest

/-- Each of the items that were read was read from some document. -/
theorem mem_of_list {decode : Decoder α} {as : List α} (read : Decode.list decode levels d = .ok as) :
    ∀ a ∈ as, ∃ levels d, decode levels d = .ok a := by
  unfold Decode.list at read
  split at read
  · cases read
  · rename_i inner items
    intro a member
    obtain ⟨d, one⟩ := mem_of_mapM read a member
    exact ⟨inner, d, one⟩
  · cases read

/-- A record opens a level. -/
theorem levels_of_fields {names : List String} {f : Decode.Fields}
    (read : Decode.fields names levels d = .ok f) : f.levels + 1 = levels := by
  unfold Decode.fields at read
  split at read
  · cases read
  · cases read
  · rename_i inner ms
    obtain ⟨given, -, rfl⟩ := map_ok read
    rfl
  · split at read
    · cases read
    · cases read
      rfl
  · cases read

variable {f : Decode.Fields} {name : String} {decode : Decoder α}

theorem given_or_absent {a absent : α} (read : f.withDefault name decode absent = .ok a) :
    a = absent ∨ ∃ d, decode f.levels d = .ok a := by
  unfold Decode.Fields.withDefault at read
  split at read
  · exact .inr ⟨_, read⟩
  · cases read
    exact .inl rfl

theorem given_of_optional {a : α} (read : f.optional name decode = .ok (some a)) :
    ∃ d, decode f.levels d = .ok a := by
  rcases given_or_absent read with absent | ⟨d, read⟩
  · cases absent
  · unfold Decode.nullable at read
    split at read
    · cases read
    · obtain ⟨b, one, is⟩ := map_ok read
      cases is
      exact ⟨_, one⟩

end Readers

end RoomRelay.Json
