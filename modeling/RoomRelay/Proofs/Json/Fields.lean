import RoomRelay.Proofs.Json.Accepting

/-!
Where readers find the fields of a record. A field is the one member of an object that has its name,
or the item of a list that stands in its place, and a word is a text or the one key of an object.
-/

namespace RoomRelay.Json

/-- A member of an object that is the only one of its name. -/
structure OnlyMember (members : List (Option String × Document)) (name : String) (d : Document) :
    Prop where
  given : (some name, d) ∈ members
  only : ∀ other, (some name, other) ∈ members → other = d

/-- A field of a record, which is given as an object or as the list of its fields in order. -/
inductive IsField (names : List String) (name : String) (d : Document) : Document → Prop where
  | named {members : List (Option String × Document)} (member : OnlyMember members name d) :
    IsField names name d (.object members)
  | placed {items : List Document} {i : Nat} (place : names[i]? = some name)
    (item : items[i]? = some d) : IsField names name d (.array items)

/-- A word, as a text or as the only key of an object that holds null. -/
inductive NamesWord (word : String) : Document → Prop where
  | text : NamesWord word (.string (some word))
  | key : NamesWord word (.object [(some word, .null)])

variable {names : List String} {name : String} {d : Document} {levels : Nat}

/-- The known fields of an object are its members, beside those that were known before. -/
private theorem lookup_of_knownFields {members : List (Option String × Document)}
    {acc given : List (String × Document)} (read : Decode.knownFields names members acc = .ok given)
    (known : name ∈ names) (d : Document) :
    given.lookup name = some d ↔ acc.lookup name = some d ∨ (some name, d) ∈ members := by
  induction members generalizing acc with
  | nil =>
    cases read
    simp
  | cons m rest ih =>
    obtain ⟨key, e⟩ := m
    cases key with
    | none => cases read
    | some key =>
      rw [Decode.knownFields] at read
      by_cases knows : names.contains key = true
      · rw [if_pos knows] at read
        split at read
        · cases read
        · rename_i fresh
          rw [ih read, List.lookup_cons, List.mem_cons]
          by_cases same : name = key
          · subst same
            have absent : acc.lookup name = none := Option.not_isSome_iff_eq_none.mp fresh
            simp [absent, eq_comm]
          · have differ : (name == key) = false := by simpa using same
            simp [differ, same]
      · rw [if_neg knows] at read
        have other : name ≠ key := by
          rintro rfl
          exact knows (List.contains_iff_mem.mpr known)
        rw [ih read, List.mem_cons]
        simp [other]

private theorem onlyMember_of_lookup {members : List (Option String × Document)}
    {given : List (String × Document)} (read : Decode.knownFields names members [] = .ok given)
    (known : name ∈ names) (found : given.lookup name = some d) : OnlyMember members name d := by
  have found_iff := lookup_of_knownFields read known
  refine ⟨((found_iff d).mp found).resolve_left nofun, fun other member => ?_⟩
  have both := (found_iff other).mpr (.inr member)
  rw [found] at both
  exact (Option.some.inj both).symm

private theorem isField_of_lookup {f : Decode.Fields} {record : Document}
    (read : Decode.fields names levels record = .ok f) (known : name ∈ names)
    (found : f.given.lookup name = some d) : IsField names name d record := by
  unfold Decode.fields at read
  split at read
  · cases read
  · cases read
  · obtain ⟨given, known_, rfl⟩ := map_ok read
    exact .named (onlyMember_of_lookup known_ known found)
  · split at read
    · cases read
    · cases read
      rw [Table.lookup_eq_get?] at found
      obtain ⟨i, inside, at_⟩ := List.mem_iff_getElem.mp (Table.mem_of_get? found)
      have both := List.getElem?_eq_some_iff.mpr ⟨inside, at_⟩
      obtain ⟨place, item⟩ := List.getElem?_zip_eq_some.mp both
      exact .placed place item
  · cases read

/-- A field that is required is found. -/
theorem isField_of_required {α : Type} {f : Decode.Fields} {record : Document} {decode : Decoder α}
    {a : α} (read : Decode.fields names levels record = .ok f) (known : name ∈ names)
    (required : f.required name decode = .ok a) :
    ∃ d, IsField names name d record ∧ decode f.levels d = .ok a := by
  unfold Decode.Fields.required at required
  split at required
  · rename_i d found
    exact ⟨d, isField_of_lookup read known found, required⟩
  · cases required

theorem namesWord_of_word {α : Type} {known? : String → Option α} {a : α}
    (read : Decode.word known? levels d = .ok a) : ∃ word, known? word = some a ∧ NamesWord word d := by
  unfold Decode.word at read
  split at read
  · rename_i text
    unfold Decode.parsed Decode.text at read
    cases text with
    | none => cases read
    | some word =>
      dsimp only at read
      split at read
      · rename_i known
        cases read
        exact ⟨word, known, .text⟩
      · cases read
  · rename_i key content rest
    split at read
    · rename_i known
      split at read
      · rename_i alone
        cases read
        rw [List.isEmpty_iff.mp alone]
        exact ⟨key, known, .key⟩
      · cases read
    · cases read
    · cases read
  · cases read

theorem text_ok {s : String} (read : Decode.text levels d = .ok s) : d = .string (some s) := by
  unfold Decode.text at read
  split at read
  · cases read
    rfl
  · cases read

theorem whole_ok {least greatest i : Int} (read : Decode.whole least greatest levels d = .ok i) :
    ∃ n : Numeral, d = .number n ∧ n.number? = some (.whole i) := by
  unfold Decode.whole at read
  split at read
  · rename_i n
    split at read
    · rename_i is
      split at read
      · cases read
        exact ⟨n, rfl, is⟩
      · cases read
    · cases read
    · cases read
  · cases read

end RoomRelay.Json
