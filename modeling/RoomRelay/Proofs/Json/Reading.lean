import RoomRelay.Proofs.Json.Numerals
import RoomRelay.Proofs.Json.Strings

/-!
What is written can be read: `Value.document` says what document a value is written as, and the text
of a value is read as that document, to its last character, unless a number in it is written with a
zero too many in front.
-/

namespace RoomRelay.Json

/-! ## The document of a value -/

mutual

/-- The document that a value is written as. -/
def Value.document : Value → Document
  | .null => .null
  | .bool b => .bool b
  | .number n => .number n.numeral
  | .string s => .string (some s)
  | .array items => .array (Value.documentItems items)
  | .object members => .object (Value.documentMembers members)

/-- The documents of values. -/
def Value.documentItems : List Value → List Document
  | [] => []
  | v :: rest => v.document :: Value.documentItems rest

/-- The documents of members, under their keys. -/
def Value.documentMembers : List (String × Value) → List (Option String × Document)
  | [] => []
  | (k, v) :: rest => (some k, v.document) :: Value.documentMembers rest

end

mutual

/-- The numbers in a value. -/
def Value.numbers : Value → List Number
  | .number n => [n]
  | .array items => Value.numbersItems items
  | .object members => Value.numbersMembers members
  | _ => []

/-- The numbers in values. -/
def Value.numbersItems : List Value → List Number
  | [] => []
  | v :: rest => v.numbers ++ Value.numbersItems rest

/-- The numbers in the values of members. -/
def Value.numbersMembers : List (String × Value) → List Number
  | [] => []
  | (_, v) :: rest => v.numbers ++ Value.numbersMembers rest

end

/-- None of the numbers has a zero too many in front. -/
def plain (ns : List Number) : Bool := ns.all fun n => !n.numeral.isPadded

private theorem plain_append (ms ns : List Number) : plain (ms ++ ns) = (plain ms && plain ns) :=
  List.all_append ..

/-! ## How a value starts -/

private theorem digitChar_starts : ∀ d < 10, Document.isSpace (Text.digitChar d) = false ∧
    Text.digitChar d ≠ ']' ∧ Text.digitChar d ≠ '"' ∧ Text.digitChar d ≠ '[' ∧
    Text.digitChar d ≠ '{' ∧ Text.digitChar d ≠ 'n' ∧ Text.digitChar d ≠ 't' ∧
    Text.digitChar d ≠ 'f' ∧ Text.digitChar d ≠ '-' := by decide

private theorem unsigned_starts {n : Numeral} (digital : n.Digital) : ∃ d < 10, ∃ rest,
    n.unsigned = Text.digitChar d :: rest := by
  obtain ⟨present, small⟩ := digital.whole
  cases starts : n.whole with
  | nil => exact absurd starts present
  | cons d rest =>
    refine ⟨d, small d (by simp [starts]), ?_⟩
    simp [Numeral.unsigned, starts, Text.digitText]

private theorem number_starts (n : Number) : ∃ c rest, n.render = c :: rest ∧
    Document.isSpace c = false ∧ c ≠ ']' := by
  obtain ⟨d, small, rest, starts⟩ := unsigned_starts n.numeral_digital
  obtain ⟨noSpace, noBracket, -⟩ := digitChar_starts d small
  rw [Number.render_eq, Numeral.written, starts]
  split
  · exact ⟨_, _, rfl, by decide⟩
  · exact ⟨_, _, rfl, noSpace, noBracket⟩

/-- A value starts with no blank and no closing bracket. -/
private theorem value_starts (v : Value) (tail : List Char) :
    ∃ c rest, v.renderOnto tail = c :: rest ∧
    Document.isSpace c = false ∧ c ≠ ']' := by
  cases v with
  | number n =>
    obtain ⟨c, rest, starts, facts⟩ := number_starts n
    exact ⟨c, rest ++ tail, by rw [Value.renderOnto, starts]; rfl, facts⟩
  | bool b => cases b <;> exact ⟨_, _, rfl, by decide⟩
  | null => exact ⟨_, _, rfl, by decide⟩
  | string s => exact ⟨_, _, rfl, by decide⟩
  | array items => exact ⟨_, _, rfl, by decide⟩
  | object members => exact ⟨_, _, rfl, by decide⟩

/-! ## How long it is -/

mutual

private theorem length_lt_renderOnto : ∀ (v : Value) (tail : List Char),
    tail.length < (v.renderOnto tail).length
  | .null, tail => by
    simp only [Value.renderOnto, List.length_cons]
    omega
  | .bool true, tail => by
    simp only [Value.renderOnto, List.length_cons]
    omega
  | .bool false, tail => by
    simp only [Value.renderOnto, List.length_cons]
    omega
  | .number n, tail => by
    obtain ⟨c, rest, starts, -⟩ := number_starts n
    simp only [Value.renderOnto, starts, List.length_append, List.length_cons]
    omega
  | .string s, tail => by
    simp only [Value.renderOnto, quoted, List.length_append, List.length_cons]
    omega
  | .array items, tail => by
    have inner := length_le_renderItems items (']' :: tail)
    simp only [Value.renderOnto, List.length_cons] at inner ⊢
    omega
  | .object members, tail => by
    have inner := length_le_renderMembers members ('}' :: tail)
    simp only [Value.renderOnto, List.length_cons] at inner ⊢
    omega

private theorem length_le_renderItems : ∀ (items : List Value) (tail : List Char),
    tail.length ≤ (Value.renderItems items tail).length
  | [], tail => Nat.le_refl _
  | [v], tail => Nat.le_of_lt (length_lt_renderOnto v tail)
  | v :: w :: rest, tail => by
    have first := length_lt_renderOnto v (',' :: Value.renderItems (w :: rest) tail)
    have later := length_le_renderItems (w :: rest) tail
    simp only [Value.renderItems, List.length_cons] at first ⊢
    omega

private theorem length_le_renderMembers : ∀ (members : List (String × Value)) (tail : List Char),
    tail.length ≤ (Value.renderMembers members tail).length
  | [], tail => Nat.le_refl _
  | [(k, v)], tail => by
    have first := length_lt_renderOnto v tail
    simp only [Value.renderMembers, List.length_append, List.length_cons]
    omega
  | (k, v) :: m :: rest, tail => by
    have first := length_lt_renderOnto v (',' :: Value.renderMembers (m :: rest) tail)
    have later := length_le_renderMembers (m :: rest) tail
    simp only [Value.renderMembers, List.length_append, List.length_cons] at first ⊢
    omega

end

/-! ## Reading it -/

namespace Document

private theorem readValue_numeral {n : Numeral} (digital : n.Digital) (fuel : Nat)
    {tail : List Char}
    (ends : Ends tail) :
    readValue (fuel + 1) (n.written ++ tail) =
      if n.isPadded then none else some (.number n, tail) := by
  have read := readNumeral_unsigned digital ends
  have answer : (readNumeral n.negative (n.unsigned ++ tail)).map (fun p =>
      (Document.number p.1, p.2)) = if n.isPadded then none else some (.number n, tail) := by
    rw [read]
    split <;> rfl
  rw [← answer]
  cases negative : n.negative with
  | true => simp [Numeral.written, negative, readValue, skipSpace, isSpace]
  | false =>
    obtain ⟨d, small, rest, starts⟩ := unsigned_starts digital
    obtain ⟨noSpace, -, quote, bracket, brace, null, true_, false_, minus⟩ :=
      digitChar_starts d small
    simp [Numeral.written, negative, starts, readValue, skipSpace, noSpace, quote, bracket, brace,
      null, true_, false_, minus]

/-- Items are read after their bracket. -/
private theorem readValue_array (fuel : Nat) (v : Value) (rest : List Value) (tail : List Char) :
    readValue (fuel + 1) ('[' :: Value.renderItems (v :: rest) tail) =
      readItems fuel [] (Value.renderItems (v :: rest) tail) := by
  obtain ⟨inner, opened⟩ : ∃ inner, Value.renderItems (v :: rest) tail = v.renderOnto inner := by
    cases rest with
    | nil => exact ⟨_, rfl⟩
    | cons w more => exact ⟨_, rfl⟩
  obtain ⟨c, more, starts, noSpace, noBracket⟩ := value_starts v inner
  have skipped : skipSpace (c :: more) = c :: more := by simp [skipSpace, noSpace]
  rw [opened, starts]
  have opening : skipSpace ('[' :: c :: more) = '[' :: c :: more := rfl
  rw [readValue, opening]
  simp only [skipped]
  simp [noBracket]

/-- Members are read after their brace. -/
private theorem readValue_object (fuel : Nat) (m : String × Value) (rest : List (String × Value))
    (tail : List Char) :
    readValue (fuel + 1) ('{' :: Value.renderMembers (m :: rest) tail) =
      readMembers fuel [] (Value.renderMembers (m :: rest) tail) := by
  obtain ⟨inner, opened⟩ : ∃ inner, Value.renderMembers (m :: rest) tail = '"' :: inner := by
    cases rest with
    | nil => exact ⟨_, rfl⟩
    | cons w more => exact ⟨_, rfl⟩
  have opening : skipSpace ('{' :: '"' :: inner) = '{' :: '"' :: inner := rfl
  have skipped : skipSpace ('"' :: inner) = '"' :: inner := rfl
  rw [opened, readValue, opening]
  simp [skipped]

private theorem ends_comma (tail : List Char) : Ends (',' :: tail) := by
  refine ⟨?_, ?_, ?_, ?_⟩ <;> decide

private theorem ends_bracket (tail : List Char) : Ends (']' :: tail) := by
  refine ⟨?_, ?_, ?_, ?_⟩ <;> decide

private theorem ends_brace (tail : List Char) : Ends ('}' :: tail) := by
  refine ⟨?_, ?_, ?_, ?_⟩ <;> decide

private theorem length_le_escaped (cs : List Char) : cs.length ≤ (cs.flatMap escape).length := by
  induction cs with
  | nil => exact Nat.le_refl _
  | cons c rest ih =>
    have present : 0 < (escape c).length := by
      unfold escape
      repeat' split
      all_goals simp
    rw [List.flatMap_cons, List.length_append, List.length_cons]
    omega

/-- A text in quotes is read, with fuel for its characters. -/
private theorem readString_within (s : String) (tail : List Char) {fuel : Nat}
    (enough : (quoted s ++ tail).length < fuel) :
    readString fuel {} (s.toList.flatMap escape ++ '"' :: tail) = some (some s, tail) := by
  have fewer := length_le_escaped s.toList
  simp only [quoted, List.length_append, List.length_cons] at enough
  exact readString_quoted s tail (by omega)

private theorem quoted_append (s : String) (tail : List Char) :
    quoted s ++ tail = '"' :: (s.toList.flatMap escape ++ '"' :: tail) := by
  simp [quoted]

private theorem readValue_quoted (s : String) (tail : List Char) {fuel : Nat}
    (enough : (quoted s ++ tail).length < fuel) :
    readValue (fuel + 1) (quoted s ++ tail) = some (.string (some s), tail) := by
  have read := readString_within s tail enough
  rw [quoted_append, readValue]
  simp [skipSpace, isSpace, read]

/-- What is made of what follows a member. -/
def afterMember (fuel : Nat) (acc : List (Option String × Document)) :
    List Char → Option (Document × List Char)
  | ',' :: cs => readMembers fuel acc cs
  | '}' :: cs => some (.object acc.reverse, cs)
  | _ => none

/-- A member is read as its key and what is read behind the colon, and then reading goes on. -/
private theorem readMembers_quoted (k : String) (acc : List (Option String × Document)) {fuel : Nat}
    {cs : List Char} (enough : (quoted k ++ ':' :: cs).length < fuel) :
    readMembers (fuel + 1) acc (quoted k ++ ':' :: cs) =
      (readValue fuel cs).bind fun p =>
        afterMember fuel ((some k, p.1) :: acc) (skipSpace p.2) := by
  have read := readString_within k (':' :: cs) enough
  have quote : skipSpace ('"' :: (k.toList.flatMap escape ++ '"' :: ':' :: cs)) =
      '"' :: (k.toList.flatMap escape ++ '"' :: ':' :: cs) := rfl
  have colon : skipSpace (':' :: cs) = ':' :: cs := rfl
  rw [quoted_append, readMembers, quote]
  simp only [read, colon]
  cases readValue fuel cs with
  | none => rfl
  | some p => rfl

mutual

/-- The text of a value is read as its document. -/
private theorem readValue_renderOnto : ∀ (v : Value) (fuel : Nat) (tail : List Char),
    2 * (v.renderOnto tail).length < fuel → Ends tail →
      readValue fuel (v.renderOnto tail) =
        if plain v.numbers then some (v.document, tail) else none
  | v, 0, tail, enough, _ => absurd enough (Nat.not_lt_zero _)
  | .null, fuel + 1, tail, enough, _ => by
    simp [Value.renderOnto, readValue, skipSpace, isSpace, readWord, plain, Value.numbers,
      Value.document]
  | .bool true, fuel + 1, tail, enough, _ => by
    simp [Value.renderOnto, readValue, skipSpace, isSpace, readWord, plain, Value.numbers,
      Value.document]
  | .bool false, fuel + 1, tail, enough, _ => by
    simp [Value.renderOnto, readValue, skipSpace, isSpace, readWord, plain, Value.numbers,
      Value.document]
  | .number n, fuel + 1, tail, enough, ends => by
    rw [Value.renderOnto, Number.render_eq, readValue_numeral n.numeral_digital fuel ends]
    cases padded : n.numeral.isPadded <;>
      simp [plain, Value.numbers, Value.document, padded]
  | .string s, fuel + 1, tail, enough, _ => by
    rw [Value.renderOnto] at enough ⊢
    have present : 0 < (quoted s ++ tail).length := by simp [quoted]
    rw [readValue_quoted s tail (by omega)]
    simp [plain, Value.numbers, Value.document]
  | .array [], fuel + 1, tail, enough, _ => by
    simp [Value.renderOnto, Value.renderItems, readValue, skipSpace, isSpace, plain, Value.numbers,
      Value.numbersItems, Value.document, Value.documentItems]
  | .array (v :: rest), fuel + 1, tail, enough, _ => by
    rw [Value.renderOnto] at enough ⊢
    have read := readItems_renderItems (v :: rest) fuel [] tail (by simp)
      (by simp only [List.length_cons] at enough; omega)
    rw [readValue_array, read]
    rfl
  | .object [], fuel + 1, tail, enough, _ => by
    simp [Value.renderOnto, Value.renderMembers, readValue, skipSpace, isSpace, plain,
      Value.numbers, Value.numbersMembers, Value.document, Value.documentMembers]
  | .object ((k, v) :: rest), fuel + 1, tail, enough, _ => by
    rw [Value.renderOnto] at enough ⊢
    have read := readMembers_renderMembers ((k, v) :: rest) fuel [] tail (by simp)
      (by simp only [List.length_cons] at enough; omega)
    rw [readValue_object, read]
    rfl

/-- The texts of items are read as their documents. -/
private theorem readItems_renderItems : ∀ (items : List Value) (fuel : Nat) (acc : List Document)
    (tail : List Char), items ≠ [] →
    2 * (Value.renderItems items (']' :: tail)).length + 1 < fuel →
      readItems fuel acc (Value.renderItems items (']' :: tail)) =
        if plain (Value.numbersItems items) then
          some (.array (acc.reverse ++ Value.documentItems items), tail)
        else none
  | [], fuel, acc, tail, present, _ => absurd rfl present
  | _ :: _, 0, acc, tail, _, enough => absurd enough (Nat.not_lt_zero _)
  | [v], fuel + 1, acc, tail, _, enough => by
    rw [Value.renderItems] at enough ⊢
    have bracket : skipSpace (']' :: tail) = ']' :: tail := rfl
    rw [readItems, readValue_renderOnto v fuel (']' :: tail) (by omega) (ends_bracket tail)]
    cases plain_ : plain v.numbers <;>
      simp [Value.numbersItems, Value.documentItems, plain_, bracket]
  | v :: w :: rest, fuel + 1, acc, tail, _, enough => by
    have read := readItems_renderItems (w :: rest) fuel (v.document :: acc) tail (by simp)
    rw [Value.renderItems] at enough ⊢
    generalize Value.renderItems (w :: rest) (']' :: tail) = more at enough read ⊢
    have inside := length_lt_renderOnto v (',' :: more)
    simp only [List.length_cons] at inside
    have first := readValue_renderOnto v fuel (',' :: more) (by omega) (ends_comma more)
    have later := read (by omega)
    have comma : skipSpace (',' :: more) = ',' :: more := rfl
    rw [readItems, first, Value.numbersItems, plain_append]
    cases plain_ : plain v.numbers with
    | false => rfl
    | true => simp [comma, later, Value.documentItems]

/-- The texts of members are read as their documents under their keys. -/
private theorem readMembers_renderMembers : ∀ (members : List (String × Value)) (fuel : Nat)
    (acc : List (Option String × Document)) (tail : List Char), members ≠ [] →
    2 * (Value.renderMembers members ('}' :: tail)).length + 1 < fuel →
      readMembers fuel acc (Value.renderMembers members ('}' :: tail)) =
        if plain (Value.numbersMembers members) then
          some (.object (acc.reverse ++ Value.documentMembers members), tail)
        else none
  | [], fuel, acc, tail, present, _ => absurd rfl present
  | _ :: _, 0, acc, tail, _, enough => absurd enough (Nat.not_lt_zero _)
  | [(k, v)], fuel + 1, acc, tail, _, enough => by
    rw [Value.renderMembers] at enough ⊢
    have key : (quoted k ++ ':' :: v.renderOnto ('}' :: tail)).length < fuel := by omega
    have inside : (v.renderOnto ('}' :: tail)).length <
        (quoted k ++ ':' :: v.renderOnto ('}' :: tail)).length := by
      simp only [List.length_append, List.length_cons]
      omega
    have brace : skipSpace ('}' :: tail) = '}' :: tail := rfl
    rw [readMembers_quoted k acc key,
      readValue_renderOnto v fuel ('}' :: tail) (by omega) (ends_brace tail)]
    cases plain_ : plain v.numbers <;>
      simp [Value.numbersMembers, Value.documentMembers, plain_, brace, afterMember]
  | (k, v) :: m :: rest, fuel + 1, acc, tail, _, enough => by
    have read := readMembers_renderMembers (m :: rest) fuel ((some k, v.document) :: acc) tail
      (by simp)
    rw [Value.renderMembers] at enough ⊢
    generalize Value.renderMembers (m :: rest) ('}' :: tail) = more at enough read ⊢
    have key : (quoted k ++ ':' :: v.renderOnto (',' :: more)).length < fuel := by omega
    have inside := length_lt_renderOnto v (',' :: more)
    simp only [List.length_append, List.length_cons] at inside enough
    have first := readValue_renderOnto v fuel (',' :: more) (by omega) (ends_comma more)
    have later := read (by omega)
    have comma : skipSpace (',' :: more) = ',' :: more := rfl
    rw [readMembers_quoted k acc key, first, Value.numbersMembers, plain_append]
    cases plain_ : plain v.numbers with
    | false => rfl
    | true => simp [comma, later, Value.documentMembers, afterMember]

end

/-- A whole text is read as the document of the value it was written from. -/
theorem read_render (v : Value) :
    read? v.render = if plain v.numbers then some v.document else none := by
  have read := readValue_renderOnto v (2 * (v.renderOnto []).length + 2) [] (by omega) trivial
  rw [read?, readFront?, Value.render, String.toList_ofList, read]
  cases plain v.numbers <;> simp [skipSpace]

end Document

/-! ## How deep it is -/

mutual

theorem depth_document : ∀ v : Value, v.document.depth = v.depth
  | .null | .bool _ | .number _ | .string _ => rfl
  | .array items => by
    rw [Value.document, Document.depth, Value.depth, depthItems_document items]
  | .object members => by
    rw [Value.document, Document.depth, Value.depth, depthMembers_document members]

private theorem depthItems_document : ∀ items : List Value,
    Document.depthItems (Value.documentItems items) = Value.depthItems items
  | [] => rfl
  | v :: rest => by
    rw [Value.documentItems, Document.depthItems, Value.depthItems, depth_document v,
      depthItems_document rest]

private theorem depthMembers_document : ∀ members : List (String × Value),
    Document.depthMembers (Value.documentMembers members) = Value.depthMembers members
  | [] => rfl
  | (k, v) :: rest => by
    rw [Value.documentMembers, Document.depthMembers, Value.depthMembers, depth_document v,
      depthMembers_document rest]

end

end RoomRelay.Json
