import RoomRelay.Json.Document
import RoomRelay.Json.Value
import RoomRelay.Proofs.UuidText

/-!
Strings in JSON text: what stands for a character between quotes is read as that character, so every
text is read back from between its quotes.
-/

namespace RoomRelay.Json.Document

/-- A text gathered so far. -/
def gathered (cs : List Char) : Gathered := ⟨some cs, none⟩

private theorem push_gathered (cs : List Char) (c : Char) :
    (gathered cs).push c = gathered (c :: cs) := rfl

/-- A code below those of surrogates is that of a character. -/
private theorem pushCode_gathered (cs : List Char) {c : Char} (small : c.toNat < 0x20) :
    (gathered cs).pushCode c.toNat = gathered (c :: cs) := by
  have notSecond : ¬(0xDC00 ≤ c.toNat ∧ c.toNat ≤ 0xDFFF) := by omega
  have notFirst : ¬(0xD800 ≤ c.toNat ∧ c.toNat ≤ 0xDBFF) := by omega
  rw [Gathered.pushCode, if_neg notSecond, if_neg notFirst, Char.ofNat_toNat, push_gathered]

/-- The code of a control character is read from its four digits. -/
private theorem readCode_digits {n : Nat} (small : n < 0x20) (tail : List Char) :
    readCode (Text.fixedDigits 16 4 n ++ tail) = some (n, tail) := by
  have below : n < Nat.pow 16 4 := Nat.lt_of_lt_of_le small (by decide)
  have read := Text.readHex_fixedDigits 4 n
  rw [Nat.mod_eq_of_lt below] at read
  simp only [Text.fixedDigits, List.nil_append, List.cons_append] at read ⊢
  rw [readCode, read, Option.map_some]

/-- What stands for a character is read as that character. -/
private theorem readString_escape (fuel : Nat) (cs : List Char) (c : Char) (tail : List Char) :
    readString (fuel + 1) (gathered cs) (escape c ++ tail) =
      readString fuel (gathered (c :: cs)) tail := by
  unfold escape
  by_cases quote : c = '"'
  · subst quote
    rfl
  by_cases backslash : c = '\\'
  · subst backslash
    rfl
  by_cases backspace : c = '\x08'
  · subst backspace
    rfl
  by_cases tab : c = '\t'
  · subst tab
    rfl
  by_cases newline : c = '\n'
  · subst newline
    rfl
  by_cases feed : c = '\x0c'
  · subst feed
    rfl
  by_cases return_ : c = '\r'
  · subst return_
    rfl
  rw [if_neg quote, if_neg backslash, if_neg backspace, if_neg tab, if_neg newline, if_neg feed,
    if_neg return_]
  by_cases control : c.toNat < 0x20
  · have code := readCode_digits control tail
    rw [if_pos control]
    simp only [List.cons_append, List.nil_append, readString, code, pushCode_gathered cs control]
    rfl
  · rw [if_neg control]
    simp only [List.cons_append, List.nil_append, readString, if_neg quote, if_neg backslash,
      if_neg control, push_gathered]

private theorem readString_flatMap (s cs tail : List Char) {fuel : Nat} (enough : s.length < fuel) :
    readString fuel (gathered cs) (s.flatMap escape ++ '"' :: tail) =
      some (some (String.ofList (cs.reverse ++ s)), tail) := by
  induction s generalizing cs fuel with
  | nil =>
    obtain ⟨fuel, rfl⟩ := Nat.exists_eq_succ_of_ne_zero (Nat.ne_of_gt enough)
    simp [readString, gathered, Gathered.close]
  | cons c rest ih =>
    obtain ⟨fuel, rfl⟩ := Nat.exists_eq_succ_of_ne_zero (Nat.ne_of_gt (Nat.zero_lt_of_lt enough))
    rw [List.flatMap_cons, List.append_assoc, readString_escape,
      ih (c :: cs) (Nat.lt_of_succ_lt_succ enough)]
    simp

/-- A text is read back from between its quotes. -/
theorem readString_quoted (s : String) (tail : List Char) {fuel : Nat}
    (enough : s.toList.length < fuel) :
    readString fuel {} (s.toList.flatMap escape ++ '"' :: tail) = some (some s, tail) := by
  have read := readString_flatMap s.toList [] tail enough
  rw [List.reverse_nil, List.nil_append, String.ofList_toList] at read
  exact read

end RoomRelay.Json.Document
