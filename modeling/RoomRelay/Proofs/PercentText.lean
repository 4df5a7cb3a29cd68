import RoomRelay.Proofs.Cuts
import RoomRelay.Proofs.Utf8Text
import RoomRelay.Text.Percent

/-!
Percent-encoded texts. A word of letters and digits is read as itself wherever it stands, and the
last value that a query gives to a key stands somewhere in the query, where any other may stand.
-/

namespace RoomRelay.Text

/-! ## Words -/

/-- Letters and digits, at least one: what every encoding leaves as it is. -/
def IsWord (cs : List Char) : Prop :=
  cs ≠ [] ∧ ∀ c ∈ cs, c.isAlphanum

variable {word : List Char}

instance : Decidable (IsWord word) :=
  decidable_of_iff (word ≠ [] ∧ word.all Char.isAlphanum) (by simp [IsWord])

/-- A word holds no mark. -/
theorem IsWord.notMem (is : IsWord word) (mark : Char) (no : mark.isAlphanum = false) :
    mark ∉ word := fun within => by
  have letter := is.2 mark within
  rw [no] at letter
  cases letter

theorem IsWord.bounds (is : IsWord word) (c : Char) (within : c ∈ word) :
    0x30 ≤ c.toNat ∧ c.toNat < 0x80 := by
  have letter := is.2 c within
  have value : c.val.toNat = c.toNat := rfl
  simp only [Char.isAlphanum, Char.isAlpha, Char.isUpper, Char.isLower, Char.isDigit,
    Bool.or_eq_true, Bool.and_eq_true, decide_eq_true_eq, ge_iff_le, UInt32.le_iff_toNat_le,
    Char.reduceVal, UInt32.reduceToNat, value] at letter
  omega

namespace Percent

private theorem decode_of_notMem {bytes : List UInt8} (absent : 0x25 ∉ bytes) :
    decode bytes = bytes := by
  fun_induction decode bytes <;> grind

private theorem length_decode_le (bytes : List UInt8) : (decode bytes).length ≤ bytes.length := by
  fun_induction decode bytes <;> grind

private theorem decode_word (is : IsWord word) :
    decode (utf8 (String.ofList word)) = utf8 (String.ofList word) := by
  refine decode_of_notMem fun within => ?_
  rw [utf8, String.toList_ofList] at within
  obtain ⟨c, inWord, within⟩ := List.mem_flatMap.mp within
  rw [Utf8.octets, if_pos (is.bounds c inWord).2, List.mem_singleton] at within
  have percent : c = '%' := by
    have same := congrArg UInt8.toNat within
    rw [Utf8.toNat_octet (Nat.lt_trans (is.bounds c inWord).2 (by decide))] at same
    rw [← Char.ofNat_toNat c, ← same]
    rfl
  exact is.notMem _ (by decide) (percent ▸ inWord)

theorem decodeText?_word (is : IsWord word) :
    decodeText? (String.ofList word) = some (String.ofList word) := by
  rw [decodeText?, decode_word is]
  exact utf8Text?_eq_some.mpr rfl

/-- What is read from a text is not much longer than the text. -/
theorem length_le_of_decodeText? {s : String} {cs : List Char}
    (is : decodeText? s = some (String.ofList cs)) : cs.length ≤ 4 * s.toList.length :=
  calc cs.length ≤ (utf8 (String.ofList cs)).length := length_le_utf8 cs
    _ = (decode (utf8 s)).length := by rw [utf8Text?_eq_some.mp is]
    _ ≤ (utf8 s).length := length_decode_le _
    _ ≤ 4 * s.toList.length := length_utf8_le s

theorem queryPart_word (is : IsWord word) : queryPart word = String.ofList word := by
  have plain : (word.map fun c => if c = '+' then ' ' else c) = word := by
    refine (List.map_congr_left fun c within => if_neg ?_).trans (List.map_id word)
    rintro rfl
    exact is.notMem _ (by decide) within
  simp only [queryPart, plain]
  rw [decode_word is, repaired, mended_utf8]

/-! ## Queries -/

/-- The pair that a piece of a query spells. -/
def pairOf? (piece : List Char) : Option (String × String) :=
  if piece.isEmpty then none
  else
    match cutFirst? '=' piece with
    | some (key, value) => some (queryPart key, queryPart value)
    | none => some (queryPart piece, "")

variable {piece rest : List Char}

private theorem queryPairs_eq (query : String) :
    queryPairs query = (pieces '&' query.toList).filterMap pairOf? := rfl

private theorem queryPairs_of_notMem (absent : '&' ∉ piece) :
    queryPairs (String.ofList piece) = (pairOf? piece).toList := by
  rw [queryPairs_eq, String.toList_ofList, pieces_of_notMem absent, List.filterMap_cons]
  cases pairOf? piece <;> rfl

private theorem queryPairs_append (absent : '&' ∉ piece) (rest : List Char) :
    queryPairs (String.ofList (piece ++ '&' :: rest)) =
      (pairOf? piece).toList ++ queryPairs (String.ofList rest) := by
  rw [queryPairs_eq, queryPairs_eq, String.toList_ofList, String.toList_ofList,
    pieces_append absent, List.filterMap_cons]
  cases pairOf? piece <;> rfl

/-- A piece with a value is a key, a mark and the value, and another value may stand there. -/
private theorem eq_of_pairOf? {key value : String} (is : pairOf? piece = some (key, value))
    (some_ : value ≠ "") :
    ∃ name old, piece = name ++ '=' :: old ∧
      ∀ new, pairOf? (name ++ '=' :: new) = some (key, queryPart new) := by
  cases cut : cutFirst? '=' piece with
  | none =>
    simp [pairOf?, cut] at is
    exact absurd is.2.2 some_
  | some parts =>
    obtain ⟨name, old⟩ := parts
    obtain ⟨rfl, absent⟩ := cutFirst?_eq_some.mp cut
    refine ⟨name, old, rfl, fun new => ?_⟩
    simp [pairOf?, cutFirst?_append absent] at is ⊢
    exact is.1

/-- The last value of a key. -/
def lastValue (query : List Char) (key : String) : Option String :=
  (queryPairs (String.ofList query)).reverse.lookup key

private theorem lastValue_append (absent : '&' ∉ piece) (rest : List Char) (key : String) :
    lastValue (piece ++ '&' :: rest) key = (lastValue rest key).or (lastValue piece key) := by
  rw [lastValue, queryPairs_append absent, List.reverse_append, List.lookup_append,
    ← queryPairs_of_notMem absent]
  rfl

private theorem lastValue_of_notMem (absent : '&' ∉ piece) (key : String) :
    lastValue piece key =
      (pairOf? piece).bind fun (name, value) => if key = name then some value else none := by
  rw [lastValue, queryPairs_of_notMem absent]
  cases pairOf? piece with
  | none => rfl
  | some parts =>
    obtain ⟨name, value⟩ := parts
    by_cases same : key = name
    · simp [same]
    · simp [List.lookup_cons, same, beq_eq_false_iff_ne.mpr same]

/-- A piece by itself gives its value to its key alone. -/
theorem lastValue_piece {name value : List Char} (absent : '&' ∉ name ++ value) (plain : '=' ∉ name)
    (key : String) :
    lastValue (name ++ '=' :: value) key =
      if key = queryPart name then some (queryPart value) else none := by
  have single : '&' ∉ name ++ '=' :: value := by simpa using absent
  rw [lastValue_of_notMem single, pairOf?, if_neg (by simp), cutFirst?_append plain]
  rfl

private theorem value_stands_in_piece {key value : String} (absent : '&' ∉ piece)
    (is : lastValue piece key = some value) (some_ : value ≠ "") :
    ∃ name old, piece = name ++ '=' :: old ∧ '&' ∉ name ∧ ∀ new, '&' ∉ new →
      ∀ other, lastValue (name ++ '=' :: new) other =
        if other = key then some (queryPart new) else lastValue piece other := by
  rw [lastValue_of_notMem absent] at is
  obtain ⟨⟨_, _⟩, pair, matching⟩ := Option.bind_eq_some_iff.mp is
  obtain ⟨rfl, ⟨⟩⟩ := Option.ite_none_right_eq_some.mp matching
  obtain ⟨name, old, rfl, reads⟩ := eq_of_pairOf? pair some_
  have plain : '&' ∉ name := fun within => absent (List.mem_append_left _ within)
  refine ⟨name, old, rfl, plain, fun new without other => ?_⟩
  have absent' : '&' ∉ name ++ '=' :: new := by simp [plain, without]
  rw [lastValue_of_notMem absent', lastValue_of_notMem absent, reads new, pair]
  simp only [Option.bind_some]
  split <;> rfl

/-- The last value of a key stands somewhere in the query, and another may stand there: it is then
the last value of the key, and no other key has another value. -/
theorem value_stands {query : List Char} {key value : String}
    (is : lastValue query key = some value) (some_ : value ≠ "") :
    ∃ front old back, query = front ++ (old ++ back) ∧ ∀ new, '&' ∉ new →
      ∀ other, lastValue (front ++ (new ++ back)) other =
        if other = key then some (queryPart new) else lastValue query other := by
  induction long : query.length using Nat.strongRecOn generalizing query with
  | ind length ih =>
    cases cut : cutFirst? '&' query with
    | none =>
      have absent := cutFirst?_eq_none.mp cut
      obtain ⟨name, old, rfl, -, stands⟩ := value_stands_in_piece absent is some_
      exact ⟨name ++ ['='], old, [], by simp, by simpa using stands⟩
    | some parts =>
      obtain ⟨piece, rest⟩ := parts
      obtain ⟨rfl, absent⟩ := cutFirst?_eq_some.mp cut
      have last := lastValue_append absent rest
      rw [last key] at is
      -- the value is in the rest if the rest has one, and else in the first piece
      cases later : lastValue rest key with
      | some v =>
        rw [later] at is
        cases is
        obtain ⟨front, old, back, rfl, stands⟩ := ih rest.length (by simp [← long]; omega) later rfl
        refine ⟨piece ++ '&' :: front, old, back, by simp, fun new without other => ?_⟩
        have split : piece ++ '&' :: front ++ (new ++ back) =
            piece ++ '&' :: (front ++ (new ++ back)) := by simp
        rw [split, lastValue_append absent, stands new without, last other]
        by_cases same : other = key <;> simp [same]
      | none =>
        rw [later, Option.none_or] at is
        obtain ⟨name, old, rfl, plain, stands⟩ := value_stands_in_piece absent is some_
        refine ⟨name ++ ['='], old, '&' :: rest, by simp, fun new without other => ?_⟩
        have split : name ++ ['='] ++ (new ++ '&' :: rest) =
            (name ++ '=' :: new) ++ '&' :: rest := by simp
        have absent : '&' ∉ name ++ '=' :: new := by simp [plain, without]
        rw [split, lastValue_append absent, stands new without, last other]
        by_cases same : other = key
        · simp [same, later]
        · simp [same]

end Percent
end RoomRelay.Text
