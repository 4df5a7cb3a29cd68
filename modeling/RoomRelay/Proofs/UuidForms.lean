import Mathlib.Algebra.Group.Nat.Defs
import Mathlib.Data.List.Induction
import RoomRelay.Proofs.UuidText

/-!
The forms of an identifier. A text is read as an identifier exactly when it is one of four forms of
its digits, which may be in either case.
-/

namespace RoomRelay

/-! ## Hexadecimal digits in either case -/

namespace Text

private theorem hexValue_ascii : ∀ k < 128, ∀ d ∈ hexValue? (Char.ofNat k),
    d < 16 ∧ (Char.ofNat k).toLower = digitChar d := by decide

private theorem hexValue_lowered : ∀ k < 128, ∀ d < 16, (Char.ofNat k).toLower = digitChar d →
    hexValue? (Char.ofNat k) = some d := by decide

/-- Beyond ASCII there is no digit, -/
private theorem hexValue_eq_none {c : Char} (beyond : 128 ≤ c.toNat) : hexValue? c = none := by
  have least (a : Char) (ascii : a.toNat < 128) : ¬c ≤ a := by
    rw [Char.le_def, UInt32.le_iff_toNat_le]
    change ¬c.toNat ≤ a.toNat
    omega
  simp [hexValue?, least]

/-- and nothing to be made small. -/
private theorem toLower_eq_self {c : Char} (beyond : 128 ≤ c.toNat) : c.toLower = c := by
  have small : ¬(c.val ≥ 'A'.val ∧ c.val ≤ 'Z'.val) := by
    rintro ⟨-, most⟩
    have : c.toNat ≤ 90 := UInt32.le_iff_toNat_le.mp most
    omega
  exact dif_neg small

/-- A hexadecimal digit is a small one, once it is made small. -/
private theorem hexValue?_eq_some {c : Char} {d : Nat} :
    hexValue? c = some d ↔ d < 16 ∧ c.toLower = digitChar d := by
  have back : Char.ofNat c.toNat = c := Char.ofNat_toNat c
  by_cases ascii : c.toNat < 128
  · constructor
    · intro is
      have both := hexValue_ascii c.toNat ascii d
      rw [back] at both
      exact both is
    · rintro ⟨small, lowered⟩
      have is := hexValue_lowered c.toNat ascii d small
      rw [back] at is
      exact is lowered
  · have beyond : 128 ≤ c.toNat := Nat.le_of_not_lt ascii
    rw [hexValue_eq_none beyond, toLower_eq_self beyond]
    constructor
    · intro is
      cases is
    · rintro ⟨small, rfl⟩
      have digits : ∀ d < 16, (digitChar d).toNat < 128 := by decide
      exact absurd (digits d small) ascii

/-- The number of so many hexadecimal digits is the one whose digits they are, once they are made
small. -/
private theorem readHex?_eq_some {cs : List Char} {n : Nat} : readHex? cs = some n ↔
    n < 16 ^ cs.length ∧ cs.map Char.toLower = fixedDigits 16 cs.length n := by
  induction cs using List.reverseRecOn generalizing n with
  | nil =>
    simp only [readHex?, fixedDigits, List.mapM_nil, List.length_nil, List.map_nil,
      Nat.pow_zero, and_true]
    change some 0 = some n ↔ n < 1
    rw [Option.some.injEq]
    omega
  | append_singleton cs c ih =>
    rw [readHex_snoc, List.length_append, List.length_singleton, List.map_append, fixedDigits]
    simp only [Option.bind_eq_some_iff, Option.map_eq_some_iff, ih, hexValue?_eq_some]
    constructor
    · rintro ⟨m, ⟨smallM, first⟩, d, ⟨smallD, last⟩, rfl⟩
      rw [show (m * 16 + d) / 16 = m by omega, show (m * 16 + d) % 16 = d by omega, first,
        List.map_singleton, last, Nat.pow_succ]
      exact ⟨by omega, rfl⟩
    · rintro ⟨small, written⟩
      obtain ⟨first, last⟩ := List.append_inj' written rfl
      rw [Nat.pow_succ] at small
      exact ⟨n / 16, ⟨by omega, first⟩, n % 16, ⟨by omega, List.singleton_inj.mp last⟩, by omega⟩

end Text

namespace Uuid

/-- The forms that an identifier may be written in. -/
inductive Form (u : Uuid) : List Char → Prop where
  | digits {cs : List Char} (written : cs.map Char.toLower = u.digits) : Form u cs
  | hyphenated {cs : List Char} (written : cs.map Char.toLower = u.chars) : Form u cs
  | braced {cs : List Char} (written : cs.map Char.toLower = u.chars) : Form u ('{' :: (cs ++ ['}']))
  | urn {cs : List Char} (written : cs.map Char.toLower = "urn:uuid:".toList ++ u.chars) : Form u cs

variable {cs : List Char} {u : Uuid}

private theorem ofDigits?_eq_some : ofDigits? cs = some u ↔ cs.map Char.toLower = u.digits := by
  rw [ofDigits?]
  constructor
  · intro is
    split at is
    · rename_i long
      obtain ⟨n, read, rfl⟩ := Option.map_eq_some_iff.mp is
      obtain ⟨small, written⟩ := Text.readHex?_eq_some.mp read
      rw [long] at small written
      have fits : n < 2 ^ 128 := by omega
      rw [written, digits, ofNat, BitVec.toNat_ofNat, Nat.mod_eq_of_lt fits]
    · cases is
  · intro written
    have long : cs.length = 32 := by
      rw [← List.length_map (f := Char.toLower), written, digits_length]
    have small : u.bits.toNat < 16 ^ 32 := u.bits.isLt
    have read : Text.readHex? cs = some u.bits.toNat :=
      Text.readHex?_eq_some.mpr ⟨long ▸ small, by rw [long, written]; rfl⟩
    rw [if_pos long, read]
    simp [ofNat]

private theorem hyphenate_map {f : Char → Char} (hyphen : f '-' = '-') (cs : List Char) :
    (hyphenate cs).map f = hyphenate (cs.map f) := by
  simp [hyphenate, hyphen]

private theorem eq_hyphen_of_toLower {c : Char} (lowered : c.toLower = '-') : c = '-' := by
  have hyphen : ∀ k < 128, (Char.ofNat k).toLower = '-' → Char.ofNat k = '-' := by decide
  by_cases ascii : c.toNat < 128
  · have is := hyphen c.toNat ascii
    rw [Char.ofNat_toNat] at is
    exact is lowered
  · rwa [Text.toLower_eq_self (Nat.le_of_not_lt ascii)] at lowered

/-- Hyphens stood where they stand once all is made small. -/
private theorem of_map_hyphenate {ds : List Char} (written : cs.map Char.toLower = hyphenate ds)
    (long : ds.length = 32) : ∃ plain, hyphenate plain = cs ∧ plain.map Char.toLower = ds := by
  unfold hyphenate at written
  obtain ⟨front, fifth, rfl, written, ofE⟩ := List.map_eq_append_iff.mp written
  obtain ⟨front, fourth, rfl, written, ofD⟩ := List.map_eq_append_iff.mp written
  obtain ⟨front, third, rfl, written, ofC⟩ := List.map_eq_append_iff.mp written
  obtain ⟨a, second, rfl, groupA, ofB⟩ := List.map_eq_append_iff.mp written
  obtain ⟨_, b, rfl, hyphenB, groupB⟩ := List.map_eq_cons_iff.mp ofB
  obtain ⟨_, c, rfl, hyphenC, groupC⟩ := List.map_eq_cons_iff.mp ofC
  obtain ⟨_, d, rfl, hyphenD, groupD⟩ := List.map_eq_cons_iff.mp ofD
  obtain ⟨_, e, rfl, hyphenE, groupE⟩ := List.map_eq_cons_iff.mp ofE
  have lengthA : a.length = 8 := by simpa [long] using congrArg List.length groupA
  have lengthB : b.length = 4 := by simpa [long] using congrArg List.length groupB
  have lengthC : c.length = 4 := by simpa [long] using congrArg List.length groupC
  have lengthD : d.length = 4 := by simpa [long] using congrArg List.length groupD
  refine ⟨a ++ (b ++ (c ++ (d ++ e))), ?_, ?_⟩
  · rw [eq_hyphen_of_toLower hyphenB, eq_hyphen_of_toLower hyphenC, eq_hyphen_of_toLower hyphenD,
      eq_hyphen_of_toLower hyphenE]
    simp (disch := omega) [hyphenate, List.drop_append, List.drop_eq_nil_of_le, lengthA, lengthB,
      lengthC]
  · simp only [List.map_append, groupA, groupB, groupC, groupD, groupE]
    exact groups_append ds

private theorem ofHyphenated?_eq_some :
    ofHyphenated? cs = some u ↔ cs.map Char.toLower = u.chars := by
  unfold ofHyphenated?
  constructor
  · intro is
    dsimp only at is
    split at is
    · rename_i formed
      have digits := ofDigits?_eq_some.mp is
      rw [← formed.2, hyphenate_map (by decide), digits, chars]
    · cases is
  · intro written
    obtain ⟨plain, rfl, digits⟩ := of_map_hyphenate written u.digits_length
    have long : plain.length = 32 := by
      rw [← List.length_map (f := Char.toLower), digits, digits_length]
    dsimp only
    rw [plain_hyphenate long, if_pos ⟨hyphenate_length long, rfl⟩]
    exact ofDigits?_eq_some.mpr digits

private theorem unbraced?_eq_some {inner : List Char} :
    unbraced? cs = some inner ↔ cs = '{' :: (inner ++ ['}']) := by
  unfold unbraced?
  constructor
  · intro is
    split at is
    · rename_i rest last
      cases is
      obtain ⟨front, whole⟩ := List.getLast?_eq_some_iff.mp last
      cases front with
      | nil => cases whole
      | cons c front =>
        obtain ⟨rfl, rfl⟩ := List.cons.inj whole
        rw [List.append_eq, List.dropLast_concat]
    · cases is
  · rintro rfl
    have last : ('{' :: (inner ++ ['}'])).getLast? = some '}' := by
      rw [← List.cons_append, List.getLast?_concat]
    rw [last]
    exact congrArg some List.dropLast_concat

private theorem afterUrn?_eq_some {after : List Char} : afterUrn? cs = some after ↔
    (cs.take 9).map Char.toLower = "urn:uuid:".toList ∧ cs.drop 9 = after := by
  unfold afterUrn?
  split
  · rename_i urn
    simp [urn]
  · rename_i other
    exact iff_of_false nofun fun both => other both.1

private theorem chars_length (u : Uuid) : u.chars.length = 36 := hyphenate_length u.digits_length

private theorem ofDigits?_eq_none (long : cs.length ≠ 32) : ofDigits? cs = none := if_neg long

private theorem ofHyphenated?_eq_none (long : cs.length ≠ 36) : ofHyphenated? cs = none :=
  if_neg fun both => long both.1

/-- What is read as an identifier is one of its forms. -/
private theorem form_of_ofChars (is : ofChars? cs = some u) : u.Form cs := by
  unfold ofChars? at is
  split at is
  · rename_i digits
    cases is
    exact .digits (ofDigits?_eq_some.mp digits)
  · split at is
    · rename_i hyphenated
      cases is
      exact .hyphenated (ofHyphenated?_eq_some.mp hyphenated)
    · split at is
      · rename_i braced
        rw [unbraced?_eq_some.mp braced]
        exact .braced (ofHyphenated?_eq_some.mp is)
      · obtain ⟨after, urn, written⟩ := Option.bind_eq_some_iff.mp is
        obtain ⟨front, rfl⟩ := afterUrn?_eq_some.mp urn
        have whole : cs.map Char.toLower = "urn:uuid:".toList ++ u.chars := by
          rw [← front, ← ofHyphenated?_eq_some.mp written, ← List.map_append,
            List.take_append_drop]
        exact .urn whole

/-- And each of its forms is read: the forms before have other lengths, or another first letter. -/
private theorem Form.ofChars (form : u.Form cs) : ofChars? cs = some u := by
  unfold ofChars?
  have length (cs : List Char) : (cs.map Char.toLower).length = cs.length := List.length_map ..
  cases form with
  | digits written => rw [ofDigits?_eq_some.mpr written]
  | hyphenated written =>
    have long : cs.length = 36 := by rw [← length, written, chars_length]
    rw [ofDigits?_eq_none (by omega), ofHyphenated?_eq_some.mpr written]
  | @braced inner written =>
    have long : inner.length = 36 := by rw [← length, written, chars_length]
    have braced : ('{' :: (inner ++ ['}'])).length = 38 := by simp [long]
    rw [ofDigits?_eq_none (by omega), ofHyphenated?_eq_none (by omega), unbraced?_eq_some.mpr rfl]
    exact ofHyphenated?_eq_some.mpr written
  | urn written =>
    have long : cs.length = 45 := by
      rw [← length, written, List.length_append, chars_length]
      rfl
    have unbraced : unbraced? cs = none := by
      cases is : unbraced? cs with
      | none => rfl
      | some inner =>
        rw [unbraced?_eq_some.mp is, List.map_cons] at written
        cases (List.cons.inj written).1
    have front : (cs.take 9).map Char.toLower = "urn:uuid:".toList := by
      rw [List.map_take, written]
      exact List.take_left' rfl
    have after : (cs.drop 9).map Char.toLower = u.chars := by
      rw [List.map_drop, written]
      exact List.drop_left' rfl
    rw [ofDigits?_eq_none (by omega), ofHyphenated?_eq_none (by omega), unbraced]
    dsimp only
    rw [afterUrn?_eq_some.mpr ⟨front, rfl⟩, Option.bind_some]
    exact ofHyphenated?_eq_some.mpr after

/-- An identifier is read from its forms, and from nothing else. -/
theorem parse?_eq_some {s : String} : parse? s = some u ↔ u.Form s.toList :=
  ⟨form_of_ofChars, Form.ofChars⟩

end Uuid

end RoomRelay
