import RoomRelay.Uuid
import RoomRelay.Bus.Basic
import RoomRelay.Bus.Channel

/-!
What is written can be read: the text of an identifier is read as that identifier, so different
identifiers have different texts, and a room's channel leads back to the room.
-/

namespace RoomRelay

/-! ## Hexadecimal digits -/

namespace Text

private theorem hexValue_digitChar : ∀ d < 16, hexValue? (digitChar d) = some d := by decide

private theorem fixedDigits_length (base width n : Nat) :
    (fixedDigits base width n).length = width := by
  induction width generalizing n with
  | zero => rfl
  | succ width ih => simp [fixedDigits, ih]

theorem numberOf_snoc (base : Nat) (values : List Nat) (d : Nat) :
    numberOf base (values ++ [d]) = numberOf base values * base + d := by
  simp [numberOf, List.foldl_append]

theorem readHex_snoc (cs : List Char) (c : Char) :
    readHex? (cs ++ [c]) =
      (readHex? cs).bind fun n => (hexValue? c).map fun d => n * 16 + d := by
  unfold readHex?
  rw [List.mapM_append]
  cases cs.mapM hexValue? with
  | none => rfl
  | some values =>
    cases found : hexValue? c with
    | none => simp [found]
    | some d => simp [found, numberOf_snoc]

/-- Reading a number's last digits gives what they say of the number. -/
theorem readHex_fixedDigits (width n : Nat) :
    readHex? (fixedDigits 16 width n) = some (n % Nat.pow 16 width) := by
  induction width generalizing n with
  | zero => simp [fixedDigits, readHex?, numberOf, Nat.mod_one]
  | succ width ih =>
    have digit := hexValue_digitChar (n % 16) (Nat.mod_lt n (by decide))
    rw [fixedDigits, readHex_snoc, ih, digit, Option.bind_some, Option.map_some]
    have longer : Nat.pow 16 (width + 1) = 16 * Nat.pow 16 width := Nat.pow_succ'
    congr 1
    rw [longer, Nat.mod_mul]
    omega

/-- Taking off the front what stands there leaves the rest. -/
private theorem afterPrefix_append (lead cs : List Char) :
    afterPrefix? lead (lead ++ cs) = some cs := by
  induction lead with
  | nil => cases cs <;> rfl
  | cons c rest ih => simp [afterPrefix?, ih]

theorem stripPrefix_append (lead s : String) : stripPrefix? lead (lead ++ s) = some s := by
  simp [stripPrefix?, afterPrefix_append]

end Text

/-! ## Identifiers -/

namespace Uuid

theorem digits_length (u : Uuid) : u.digits.length = 32 :=
  Text.fixedDigits_length 16 32 u.bits.toNat

private theorem ofDigits_digits (u : Uuid) : ofDigits? u.digits = some u := by
  have small : u.bits.toNat < Nat.pow 16 32 := u.bits.isLt
  unfold ofDigits?
  rw [if_pos u.digits_length, digits, Text.readHex_fixedDigits, Nat.mod_eq_of_lt small]
  simp [ofNat]

theorem hyphenate_length {cs : List Char} (long : cs.length = 32) : (hyphenate cs).length = 36 := by
  simp [hyphenate, long]

/-- The groups that hyphens are put between. -/
theorem groups_append (cs : List Char) : cs.take 8 ++ ((cs.drop 8).take 4 ++ ((cs.drop 12).take 4 ++
    ((cs.drop 16).take 4 ++ cs.drop 20))) = cs := by
  have fourth := List.take_append_drop 4 (cs.drop 16)
  have third := List.take_append_drop 4 (cs.drop 12)
  have second := List.take_append_drop 4 (cs.drop 8)
  simp only [List.drop_drop] at second third fourth
  rw [fourth, third, second, List.take_append_drop]

/-- The characters between the hyphens are those that were there before. -/
theorem plain_hyphenate {cs : List Char} (long : cs.length = 32) :
    (hyphenate cs).take 8 ++ ((hyphenate cs).drop 9).take 4 ++ ((hyphenate cs).drop 14).take 4 ++
      ((hyphenate cs).drop 19).take 4 ++ (hyphenate cs).drop 24 = cs := by
  have parts := (groups_append cs).symm
  generalize first : cs.take 8 = a at *
  generalize second : (cs.drop 8).take 4 = b at *
  generalize third : (cs.drop 12).take 4 = c at *
  generalize fourth : (cs.drop 16).take 4 = d at *
  generalize fifth : cs.drop 20 = e at *
  have lengthA : a.length = 8 := by simp [← first, long]
  have lengthB : b.length = 4 := by simp [← second, long]
  have lengthC : c.length = 4 := by simp [← third, long]
  have lengthD : d.length = 4 := by simp [← fourth, long]
  have written : hyphenate cs = a ++ '-' :: b ++ '-' :: c ++ '-' :: d ++ '-' :: e := by
    rw [hyphenate, first, second, third, fourth, fifth]
  rw [written, parts]
  simp (disch := omega) [List.drop_append, List.drop_eq_nil_of_le, lengthA, lengthB, lengthC,
    lengthD]

/-- An identifier is read from its text. -/
theorem parse_text (u : Uuid) : parse? u.text = some u := by
  have long := hyphenate_length u.digits_length
  have plain := plain_hyphenate u.digits_length
  have notPlain : ofDigits? u.chars = none := by
    unfold ofDigits? chars
    rw [long]
    rfl
  have hyphenated : ofHyphenated? u.chars = some u := by
    unfold ofHyphenated? chars
    dsimp only
    rw [plain, if_pos ⟨long, rfl⟩, ofDigits_digits]
  simp [parse?, text, ofChars?, notPlain, hyphenated]

theorem text_injective {u v : Uuid} (same : u.text = v.text) : u = v := by
  have read := parse_text u
  rw [same, parse_text] at read
  exact (Option.some.inj read).symm

theorem text_inj {u v : Uuid} : u.text = v.text ↔ u = v :=
  ⟨text_injective, fun same => same ▸ rfl⟩

end Uuid

/-! ## Channels -/

namespace Channel

theorem roomOf_room (id : Uuid) : roomOf? (room id) = some id := by
  simp [roomOf?, room, Text.stripPrefix_append, Uuid.parse_text]

/-- A room's channel is about that room. -/
theorem topic_room (id : Uuid) : topic (room id) = .room id := by
  simp [topic, roomOf_room]

theorem topic_userEvents : topic userEvents = .userEvents := by decide

theorem topic_presence : topic presence = .presence := by decide

end Channel

end RoomRelay
