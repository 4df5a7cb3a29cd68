import RoomRelay.Text.Blank

/-!
Texts cut at a mark. A text is cut at the first or the last of the marks in it, so a cut can be told
from the parts: the part before the first mark, or after the last, has no mark in it.
-/

namespace RoomRelay.Text

variable {mark : Char} {cs before after : List Char}

/-! ## At the first mark and at the last -/

theorem cutFirst?_append (absent : mark ∉ before) :
    cutFirst? mark (before ++ mark :: after) = some (before, after) := by
  induction before with
  | nil => simp [cutFirst?]
  | cons c rest ih =>
    obtain ⟨other, absent⟩ := not_or.mp (mt List.mem_cons.mpr absent)
    rw [List.cons_append, cutFirst?, if_neg (Ne.symm other), ih absent, Option.map_some]

theorem cutFirst?_eq_none : cutFirst? mark cs = none ↔ mark ∉ cs := by
  induction cs with
  | nil => simp [cutFirst?]
  | cons c rest ih =>
    by_cases here : c = mark
    · simp [cutFirst?, here]
    · simp [cutFirst?, here, ih, Ne.symm here]

theorem cutFirst?_eq_some :
    cutFirst? mark cs = some (before, after) ↔ cs = before ++ mark :: after ∧ mark ∉ before := by
  refine ⟨fun cut => ?_, fun ⟨whole, absent⟩ => whole ▸ cutFirst?_append absent⟩
  induction cs generalizing before with
  | nil => cases cut
  | cons c rest ih =>
    rw [cutFirst?] at cut
    by_cases here : c = mark
    · rw [if_pos here] at cut
      cases cut
      exact ⟨by rw [here, List.nil_append], List.not_mem_nil⟩
    · rw [if_neg here] at cut
      obtain ⟨⟨front, later⟩, inner, parts⟩ := Option.map_eq_some_iff.mp cut
      cases parts
      obtain ⟨whole, absent⟩ := ih inner
      exact ⟨by rw [whole, List.cons_append], List.not_mem_cons_of_ne_of_not_mem (Ne.symm here) absent⟩

theorem cutLast?_eq_none : cutLast? mark cs = none ↔ mark ∉ cs := by
  rw [cutLast?, Option.map_eq_none_iff, cutFirst?_eq_none, List.mem_reverse]

theorem cutLast?_eq_some :
    cutLast? mark cs = some (before, after) ↔ cs = before ++ mark :: after ∧ mark ∉ after := by
  rw [cutLast?, Option.map_eq_some_iff]
  constructor
  · rintro ⟨⟨later, earlier⟩, cut, parts⟩
    cases parts
    obtain ⟨whole, absent⟩ := cutFirst?_eq_some.mp cut
    rw [← List.reverse_reverse cs, whole]
    exact ⟨by simp, by simpa using absent⟩
  · rintro ⟨rfl, absent⟩
    exact ⟨(after.reverse, before.reverse), cutFirst?_eq_some.mpr ⟨by simp, by simpa using absent⟩,
      by simp⟩

/-! ## At a text -/

section Lead

variable {lead rest word : List Char}

theorem afterPrefix?_eq_some : afterPrefix? lead cs = some after ↔ cs = lead ++ after := by
  induction lead generalizing cs with
  | nil => simp [afterPrefix?, eq_comm]
  | cons l lead ih =>
    cases cs with
    | nil => simp [afterPrefix?]
    | cons c cs =>
      by_cases same : l = c
      · simp [afterPrefix?, same, ih]
      · simp [afterPrefix?, same, Ne.symm same]

theorem afterPrefix?_eq_none : afterPrefix? lead cs = none ↔ ¬lead <+: cs := by
  constructor
  · rintro other ⟨after, whole⟩
    rw [afterPrefix?_eq_some.mpr whole.symm] at other
    cases other
  · intro other
    cases is : afterPrefix? lead cs with
    | none => rfl
    | some after => exact absurd ⟨after, (afterPrefix?_eq_some.mp is).symm⟩ other

theorem stripPrefix?_eq_some {lead s after : String} :
    stripPrefix? lead s = some after ↔ s = lead ++ after := by
  rw [stripPrefix?, Option.map_eq_some_iff]
  constructor
  · rintro ⟨cs, cut, rfl⟩
    have whole : s.toList = (lead ++ String.ofList cs).toList := by
      rw [afterPrefix?_eq_some.mp cut, String.toList_append, String.toList_ofList]
    exact String.toList_inj.mp whole
  · rintro rfl
    exact ⟨after.toList, afterPrefix?_eq_some.mpr String.toList_append, String.ofList_toList⟩

theorem eq_of_cutAt? (cut : cutAt? lead cs = some (before, after)) :
    cs = before ++ lead ++ after := by
  induction cs generalizing before with
  | nil =>
    obtain ⟨_, here, parts⟩ := Option.map_eq_some_iff.mp cut
    cases parts
    exact afterPrefix?_eq_some.mp here
  | cons c cs ih =>
    rw [cutAt?] at cut
    cases here : afterPrefix? lead (c :: cs) with
    | some later =>
      rw [here] at cut
      cases cut
      exact afterPrefix?_eq_some.mp here
    | none =>
      rw [here] at cut
      obtain ⟨⟨front, later⟩, inner, parts⟩ := Option.map_eq_some_iff.mp cut
      cases parts
      rw [ih inner]
      rfl

theorem cutAt?_eq_none : cutAt? lead cs = none ↔ ¬lead <:+: cs := by
  induction cs with
  | nil =>
    rw [cutAt?, Option.map_eq_none_iff, afterPrefix?_eq_none, List.prefix_nil, List.infix_nil]
  | cons c cs ih =>
    rw [cutAt?, List.infix_cons_iff, not_or, ← afterPrefix?_eq_none, ← ih]
    cases afterPrefix? lead (c :: cs) <;> simp

/-- The first occurrence stays the first however the text goes on. -/
theorem cutAt?_append (after : List Char) (cut : cutAt? lead cs = some (before, rest)) :
    cutAt? lead (cs ++ after) = some (before, rest ++ after) := by
  induction cs generalizing before with
  | nil =>
    obtain ⟨rfl, rfl, rfl⟩ : before = [] ∧ lead = [] ∧ rest = [] := by
      simpa using (eq_of_cutAt? cut).symm
    cases cut
    cases after <;> rfl
  | cons c cs ih =>
    rw [cutAt?] at cut
    rw [List.cons_append, cutAt?]
    cases here : afterPrefix? lead (c :: cs) with
    | some later =>
      rw [here] at cut
      cases cut
      rw [← List.cons_append,
        afterPrefix?_eq_some.mpr (by rw [afterPrefix?_eq_some.mp here, List.append_assoc])]
    | none =>
      rw [here] at cut
      obtain ⟨⟨front, later⟩, inner, parts⟩ := Option.map_eq_some_iff.mp cut
      cases parts
      have fits : lead.length ≤ (c :: cs).length := by
        rw [eq_of_cutAt? inner]
        simp
        omega
      have still : afterPrefix? lead (c :: (cs ++ after)) = none :=
        afterPrefix?_eq_none.mpr fun is => afterPrefix?_eq_none.mp here
          (List.prefix_of_prefix_length_le is ⟨after, rfl⟩ fits)
      rw [still, ih inner]
      rfl

/-- A word of characters that `lead` does not have keeps `lead` from reaching over it. -/
theorem not_prefix_append_word (other : ¬lead <+: cs) (some_ : word ≠ [])
    (foreign : ∀ c ∈ word, c ∉ lead) (after : List Char) : ¬lead <+: cs ++ (word ++ after) := by
  intro is
  by_cases fits : lead.length ≤ cs.length
  · exact other (List.prefix_of_prefix_length_le is ⟨word ++ after, rfl⟩ fits)
  · obtain ⟨c, word, rfl⟩ := List.exists_cons_of_ne_nil some_
    have reaches : cs ++ [c] <+: lead :=
      List.prefix_of_prefix_length_le ⟨word ++ after, by simp⟩ is (by simp; omega)
    exact foreign c List.mem_cons_self (reaches.subset (by simp))

/-- No occurrence reaches into a word of characters that `lead` does not have. -/
theorem cutAt?_append_word (absent : cutAt? lead cs = none) (some_ : word ≠ [])
    (foreign : ∀ c ∈ word, c ∉ lead) (after : List Char) :
    cutAt? lead (cs ++ (word ++ after)) =
      (cutAt? lead after).map fun (before, rest) => (cs ++ word ++ before, rest) := by
  induction cs with
  | nil =>
    have lead_ne : ¬lead <+: [] := afterPrefix?_eq_none.mp (Option.map_eq_none_iff.mp absent)
    clear absent some_
    induction word with
    | nil => simp
    | cons c word ih =>
      have other : afterPrefix? lead (c :: (word ++ after)) = none :=
        afterPrefix?_eq_none.mpr
          (not_prefix_append_word lead_ne (List.cons_ne_nil c word) foreign after)
      have ih := ih fun d within => foreign d (List.mem_cons_of_mem c within)
      rw [List.nil_append] at ih
      rw [List.nil_append, List.cons_append, cutAt?, other]
      simp only
      rw [ih, Option.map_map]
      rfl
  | cons c cs ih =>
    rw [cutAt?] at absent
    cases here : afterPrefix? lead (c :: cs) with
    | some later => simp [here] at absent
    | none =>
      have other : afterPrefix? lead (c :: (cs ++ (word ++ after))) = none :=
        afterPrefix?_eq_none.mpr
          (not_prefix_append_word (afterPrefix?_eq_none.mp here) some_ foreign after)
      rw [here] at absent
      rw [List.cons_append, cutAt?, other]
      simp only
      rw [ih (Option.map_eq_none_iff.mp absent), Option.map_map]
      rfl

end Lead

/-! ## Pieces -/

private theorem pieces_cons_mark (mark : Char) (cs : List Char) :
    pieces mark (mark :: cs) = [] :: pieces mark cs := by
  simp [pieces]

/-- A character that is no mark belongs to the first piece. -/
private theorem pieces_cons_other {c : Char} (other : c ≠ mark) (cs : List Char) :
    ∃ first rest, pieces mark cs = first :: rest ∧ pieces mark (c :: cs) = (c :: first) :: rest := by
  refine ⟨_, _, rfl, ?_⟩
  simp [pieces, other]

theorem pieces_of_notMem (absent : mark ∉ cs) : pieces mark cs = [cs] := by
  induction cs with
  | nil => rfl
  | cons c cs ih =>
    obtain ⟨other, absent⟩ := not_or.mp (mt List.mem_cons.mpr absent)
    obtain ⟨first, rest, before, after⟩ := pieces_cons_other (Ne.symm other) cs
    rw [ih absent] at before
    cases before
    exact after

theorem pieces_append (absent : mark ∉ before) :
    pieces mark (before ++ mark :: after) = before :: pieces mark after := by
  induction before with
  | nil => exact pieces_cons_mark mark after
  | cons c cs ih =>
    obtain ⟨other, absent⟩ := not_or.mp (mt List.mem_cons.mpr absent)
    obtain ⟨first, rest, inner, whole⟩ := pieces_cons_other (Ne.symm other) (cs ++ mark :: after)
    rw [ih absent] at inner
    cases inner
    exact whole

end RoomRelay.Text
