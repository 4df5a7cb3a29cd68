import RoomRelay.Json.Numeral
import RoomRelay.Proofs.Decimal

/-!
Numbers in JSON text. Every number is written as a numeral, `Number.numeral` says which, and a
numeral is read to its end, whatever follows, unless what follows would go on with it or its integer
part has a zero too many in front.
-/

namespace RoomRelay.Json

open Text

/-- Digits, some of them. -/
def Digits (ds : List Nat) : Prop := ds ≠ [] ∧ ∀ d ∈ ds, d < 10

namespace Digits

theorem decimal (n : Nat) : Digits (decimalDigits n) := ⟨decimalDigits_ne_nil n, decimalDigits_lt n⟩

theorem zero : Digits [0] := ⟨by simp, by simp⟩

variable {ds : List Nat}

theorem take (digits : Digits ds) {n : Nat} (some_ : 0 < n) : Digits (ds.take n) := by
  have present := List.length_pos_iff.mpr digits.1
  refine ⟨List.ne_nil_of_length_pos ?_, fun d member => digits.2 d (List.mem_of_mem_take member)⟩
  rw [List.length_take]
  omega

theorem drop (digits : Digits ds) {n : Nat} (inside : n < ds.length) : Digits (ds.drop n) := by
  refine ⟨List.ne_nil_of_length_pos ?_, fun d member => digits.2 d (List.mem_of_mem_drop member)⟩
  rw [List.length_drop]
  omega

private theorem zeros_lt (n : Nat) : ∀ d ∈ List.replicate n 0, d < 10 := by
  intro d member
  rw [List.eq_of_mem_replicate member]
  decide

private theorem zeros_after (digits : Digits ds) (n : Nat) : Digits (ds ++ List.replicate n 0) :=
  ⟨by simp [digits.1], List.forall_mem_append.mpr ⟨digits.2, zeros_lt n⟩⟩

theorem zeros_before (digits : Digits ds) (n : Nat) : Digits (List.replicate n 0 ++ ds) :=
  ⟨by simp [digits.1], List.forall_mem_append.mpr ⟨zeros_lt n, digits.2⟩⟩

end Digits

/-! ## Numerals as written -/

/-- The fraction of a numeral as written. -/
def fractionText : Option (List Nat) → List Char
  | none => []
  | some ds => '.' :: digitText ds

/-- The exponent of a numeral as written. -/
def exponentText : Option (Bool × List Nat) → List Char
  | none => []
  | some (down, ds) => 'e' :: (if down then '-' else '+') :: digitText ds

namespace Numeral

/-- A numeral as written after its sign. -/
def unsigned (n : Numeral) : List Char :=
  digitText n.whole ++ (fractionText n.fraction ++ exponentText n.exponent)

/-- A numeral as written. -/
def written (n : Numeral) : List Char := if n.negative then '-' :: n.unsigned else n.unsigned

/-- All its digits are digits, and there are some wherever there have to be. -/
structure Digital (n : Numeral) : Prop where
  whole : Digits n.whole
  fraction : ∀ ds, n.fraction = some ds → Digits ds
  exponent : ∀ down ds, n.exponent = some (down, ds) → Digits ds

/-- Whether a zero stands in front of other digits of the integer part. -/
def isPadded (n : Numeral) : Bool :=
  match n.whole with
  | 0 :: _ :: _ => true
  | _ => false

end Numeral

/-- The numeral of a double. -/
def doubleNumeral (x : Binary64) : Numeral :=
  if x.isZero then ⟨x.negative, [0], some [0], none⟩
  else
    let ds := decimalDigits x.shortest.1
    let power := x.shortest.2
    let leading : Int := ds.length + power
    if 0 ≤ power ∧ leading ≤ 16 then
      ⟨x.negative, ds ++ List.replicate power.natAbs 0, some [0], none⟩
    else if 0 < leading ∧ leading ≤ 16 then
      ⟨x.negative, ds.take leading.natAbs, some (ds.drop leading.natAbs), none⟩
    else if -5 < leading ∧ leading ≤ 0 then
      ⟨x.negative, [0], some (List.replicate leading.natAbs 0 ++ ds), none⟩
    else
      ⟨x.negative, ds.take 1, if ds.length ≤ 1 then none else some (ds.drop 1),
        some (!decide (0 ≤ leading - 1), decimalDigits (leading - 1).natAbs)⟩

/-- The numeral of a number. -/
def Number.numeral : Number → Numeral
  | .whole n => ⟨decide (n < 0), decimalDigits n.natAbs, none, none⟩
  | .double x => doubleNumeral x

private theorem digitText_append (ds es : List Nat) :
    digitText (ds ++ es) = digitText ds ++ digitText es :=
  List.map_append ..

private theorem digitText_take (n : Nat) (ds : List Nat) :
    digitText (ds.take n) = (digitText ds).take n :=
  List.map_take ..

private theorem digitText_drop (n : Nat) (ds : List Nat) :
    digitText (ds.drop n) = (digitText ds).drop n :=
  List.map_drop ..

private theorem digitText_zeros (n : Nat) : digitText (List.replicate n 0) = List.replicate n '0' :=
  List.map_replicate

private theorem renderDouble_eq (x : Binary64) : renderDouble x = (doubleNumeral x).written := by
  unfold renderDouble doubleNumeral
  by_cases zero : x.isZero = true
  · cases x.negative <;> simp [zero, Numeral.written, Numeral.unsigned] <;> rfl
  · obtain ⟨point, power⟩ := x.shortest
    have length : (digitText (decimalDigits point)).length = (decimalDigits point).length := by
      simp [digitText]
    have signed (cs : List Char) : (if x.negative = true then ['-'] else []) ++ cs =
        if x.negative = true then '-' :: cs else cs := by
      split <;> rfl
    simp only [zero, decimal_eq, length, signed, Bool.false_eq_true, if_false]
    have nought : digitText [0] = ['0'] := rfl
    generalize whole : decimalDigits point = ds
    by_cases plain : 0 ≤ power ∧ ds.length + power ≤ 16
    · rw [if_pos plain, if_pos plain]
      simp only [Numeral.written, Numeral.unsigned, digitText_append, digitText_zeros, fractionText,
        exponentText, nought, List.append_nil]
    rw [if_neg plain, if_neg plain]
    by_cases pointed : 0 < ds.length + power ∧ ds.length + power ≤ 16
    · rw [if_pos pointed, if_pos pointed]
      simp only [Numeral.written, Numeral.unsigned, fractionText, exponentText, digitText_take,
        digitText_drop, List.append_nil]
    rw [if_neg pointed, if_neg pointed]
    by_cases small : -5 < ds.length + power ∧ ds.length + power ≤ 0
    · rw [if_pos small, if_pos small]
      simp only [Numeral.written, Numeral.unsigned, digitText_append, digitText_zeros, fractionText,
        exponentText, nought, List.append_nil, List.cons_append, List.nil_append]
    rw [if_neg small, if_neg small]
    simp only [Numeral.written, Numeral.unsigned, digitText_take]
    generalize (ds.length : Int) + power - 1 = e
    have signs : (if 0 ≤ e then '+' :: digitText (decimalDigits e.natAbs)
        else '-' :: digitText (decimalDigits e.natAbs)) =
          (if !decide (0 ≤ e) then '-' else '+') :: digitText (decimalDigits e.natAbs) := by
      by_cases up : 0 ≤ e <;> simp [up]
    rw [signs]
    by_cases single : ds.length ≤ 1 <;>
      simp only [single, if_true, if_false, fractionText, exponentText, digitText_drop,
        List.append_assoc, List.nil_append, List.append_nil]

theorem Number.render_eq (n : Number) : n.render = n.numeral.written := by
  cases n with
  | whole i =>
    simp only [render, numeral, Numeral.written, Numeral.unsigned, integer, decimal_eq,
      fractionText, exponentText, List.append_nil, decide_eq_true_eq]
  | double x => exact renderDouble_eq x

private theorem doubleNumeral_digital (x : Binary64) : (doubleNumeral x).Digital := by
  unfold doubleNumeral
  by_cases zero : x.isZero = true
  · simp only [zero, if_true]
    exact ⟨.zero, by rintro _ ⟨rfl⟩; exact .zero, by simp⟩
  obtain ⟨point, power⟩ := x.shortest
  have digits := Digits.decimal point
  simp only [zero, Bool.false_eq_true, if_false]
  generalize decimalDigits point = ds at digits
  by_cases plain : 0 ≤ power ∧ ds.length + power ≤ 16
  · rw [if_pos plain]
    exact ⟨digits.zeros_after _, by rintro _ ⟨rfl⟩; exact .zero, by simp⟩
  rw [if_neg plain]
  by_cases pointed : 0 < ds.length + power ∧ ds.length + power ≤ 16
  · rw [if_pos pointed]
    -- the point stands inside the digits
    have before : 0 < (ds.length + power).natAbs := by omega
    have behind : (ds.length + power).natAbs < ds.length := by omega
    exact ⟨digits.take before, by rintro _ ⟨rfl⟩; exact digits.drop behind, by simp⟩
  rw [if_neg pointed]
  by_cases tiny : -5 < ds.length + power ∧ ds.length + power ≤ 0
  · rw [if_pos tiny]
    exact ⟨.zero, by rintro _ ⟨rfl⟩; exact digits.zeros_before _, by simp⟩
  rw [if_neg tiny]
  refine ⟨digits.take Nat.one_pos, ?_, ?_⟩
  · intro fraction given
    by_cases single : ds.length ≤ 1
    · simp [single] at given
    · simp only [single, if_false, Option.some.injEq] at given
      subst given
      exact digits.drop (Nat.lt_of_not_le single)
  · rintro down _ ⟨rfl, rfl⟩
    exact .decimal _

theorem Number.numeral_digital (n : Number) : n.numeral.Digital := by
  cases n with
  | whole i => exact ⟨.decimal _, by simp [numeral], by simp [numeral]⟩
  | double x => exact doubleNumeral_digital x

/-- A whole number has no zero in front of other digits. -/
theorem Number.whole_not_padded (i : Int) : (Number.whole i).numeral.isPadded = false := by
  unfold Numeral.isPadded
  split
  · rename_i d rest starts
    cases decimalDigits_head starts
  · rfl

/-! ## Numerals read -/

/-- What follows does not go on with a numeral: it starts with no digit, point or exponent. -/
def Ends : List Char → Prop
  | [] => True
  | c :: _ => decimalValue? c = none ∧ c ≠ '.' ∧ c ≠ 'e' ∧ c ≠ 'E'

namespace Document

/-- Digits are read to their end. -/
private theorem digits_digitText {ds : List Nat} (small : ∀ d ∈ ds, d < 10) (acc : List Nat)
    {tail : List Char} (ends : ∀ c ∈ tail.head?, decimalValue? c = none) :
    digits acc (digitText ds ++ tail) = (acc.reverse ++ ds, tail) := by
  induction ds generalizing acc with
  | nil =>
    cases tail with
    | nil => simp [digitText, digits]
    | cons c rest => simp [digitText, digits, ends c rfl]
  | cons d rest ih =>
    have value := decimalValue_digitChar d (small d List.mem_cons_self)
    have later := ih (fun d member => small d (List.mem_cons_of_mem _ member)) (d :: acc)
    simp only [digitText, List.map_cons, List.cons_append, digits, value] at later ⊢
    rw [later]
    simp

/-- Digits that are there are read to their end. -/
private theorem digits_some {ds : List Nat} (digital : Digits ds) {tail : List Char}
    (ends : ∀ c ∈ tail.head?, decimalValue? c = none) :
    ∃ d rest, ds = d :: rest ∧ digits [] (digitText ds ++ tail) = (d :: rest, tail) := by
  obtain ⟨d, rest, rfl⟩ := List.exists_cons_of_ne_nil digital.1
  exact ⟨d, rest, rfl, digits_digitText digital.2 [] ends⟩

variable {tail : List Char}

private theorem readExponent_text {exponent : Option (Bool × List Nat)}
    (digital : ∀ down ds, exponent = some (down, ds) → Digits ds)
    (ends : Ends tail) :
    readExponent (exponentText exponent ++ tail) = some (exponent, tail) := by
  cases exponent with
  | none =>
    cases tail with
    | nil => rfl
    | cons c rest => simp [exponentText, readExponent, ends.2.2.1, ends.2.2.2]
  | some written =>
    obtain ⟨down, ds⟩ := written
    have noDigit : ∀ c ∈ tail.head?, decimalValue? c = none := by
      cases tail with
      | nil => simp
      | cons c rest => simpa using ends.1
    obtain ⟨d, rest, rfl, read⟩ := digits_some (digital down ds rfl) noDigit
    cases down <;> simp [exponentText, readExponent, read]

/-- A fraction is read to its end before an exponent, or before what ends the numeral. -/
private theorem readFraction_text {fraction : Option (List Nat)}
    (digital : ∀ ds, fraction = some ds → Digits ds)
    (noDigit : ∀ c ∈ tail.head?, decimalValue? c = none) (noPoint : ∀ c ∈ tail.head?, c ≠ '.') :
    readFraction (fractionText fraction ++ tail) = some (fraction, tail) := by
  cases fraction with
  | none =>
    cases tail with
    | nil => rfl
    | cons c rest =>
      have other : c ≠ '.' := noPoint c rfl
      simp [fractionText, readFraction, other]
  | some ds =>
    obtain ⟨d, rest, rfl, read⟩ := digits_some (digital ds rfl) noDigit
    simp [fractionText, readFraction, read]

private theorem readWhole_text {n : Numeral} (digital : n.Digital)
    (noDigit : ∀ c ∈ tail.head?, decimalValue? c = none) :
    readWhole (digitText n.whole ++ tail) = if n.isPadded then none else some (n.whole, tail) := by
  obtain ⟨d, rest, starts, read⟩ := digits_some digital.whole noDigit
  rw [readWhole, read, Numeral.isPadded, starts]
  cases d with
  | zero => cases rest <;> rfl
  | succ d => rfl

/-- A numeral is read to its end. -/
theorem readNumeral_unsigned {n : Numeral} (digital : n.Digital) (ends : Ends tail) :
    readNumeral n.negative (n.unsigned ++ tail) = if n.isPadded then none else some (n, tail) := by
  have afterExponent : ∀ c ∈ (exponentText n.exponent ++ tail).head?,
      decimalValue? c = none ∧ c ≠ '.' := by
    cases n.exponent with
    | none =>
      cases tail with
      | nil => simp [exponentText]
      | cons c rest => simpa [exponentText] using ⟨ends.1, ends.2.1⟩
    | some written => simp [exponentText]; decide
  have afterFraction : ∀ c ∈ (fractionText n.fraction ++ (exponentText n.exponent ++ tail)).head?,
      decimalValue? c = none := by
    cases n.fraction with
    | none => exact fun c member => (afterExponent c member).1
    | some ds => simp [fractionText]; decide
  have exponentRead := readExponent_text digital.exponent ends
  have fractionRead := readFraction_text digital.fraction
    (fun c member => (afterExponent c member).1) (fun c member => (afterExponent c member).2)
  have wholeRead := readWhole_text digital afterFraction
  rw [readNumeral, Numeral.unsigned, List.append_assoc, List.append_assoc, wholeRead]
  split
  · rfl
  · simp [fractionRead, exponentRead]

end Document

/-! ## Numerals understood -/

/-- The number is read from its own numeral. -/
structure Number.Exact (n : Number) : Prop where
  plain : n.numeral.isPadded = false
  understood : n.numeral.number? = some n

private theorem le_numberFrom (significand : Nat) (ds : List Nat) :
    significand ≤ ds.foldl (fun acc d => acc * 10 + d) significand := by
  induction ds generalizing significand with
  | nil => exact Nat.le_refl significand
  | cons d rest ih =>
    have later := ih (significand * 10 + d)
    simp only [List.foldl_cons]
    omega

/-- Digits of a number that fits are all gathered. -/
private theorem gatherWhole_fits {ds : List Nat} {significand : Nat}
    (fits : ds.foldl (fun acc d => acc * 10 + d) significand < Word.span 64) :
    Numeral.gatherWhole significand ds =
      (ds.foldl (fun acc d => acc * 10 + d) significand, 0) := by
  induction ds generalizing significand with
  | nil => rfl
  | cons d rest ih =>
    simp only [List.foldl_cons] at fits ⊢
    have taken : Numeral.extend? significand d = some (significand * 10 + d) := by
      simp only [Numeral.extend?]
      exact if_pos (Nat.lt_of_le_of_lt (le_numberFrom _ rest) fits)
    rw [Numeral.gatherWhole, taken]
    exact ih fits

/-- Whole numbers of 64 bits, with or without a sign, are read from their numerals. -/
theorem Number.whole_exact {i : Int} (fits : -(Word.span 63 : Int) ≤ i ∧ i < Word.span 64) :
    (Number.whole i).Exact where
  plain := whole_not_padded i
  understood := by
    have halves : Word.span 64 = 2 * Word.span 63 := by decide
    have small : i.natAbs < Word.span 64 := by omega
    have value := numberOf_decimalDigits i.natAbs
    have gathered : Numeral.gatherWhole 0 (decimalDigits i.natAbs) = (i.natAbs, 0) := by
      rw [gatherWhole_fits (by rw [← numberOf, value]; exact small), ← numberOf, value]
    simp only [numeral, Numeral.number?, gathered, Numeral.whole?]
    by_cases negative : i < 0
    · have inside : ¬(i.natAbs = 0 ∨ Word.span 63 < i.natAbs) := by omega
      have same : -(i.natAbs : Int) = i := by omega
      rw [if_pos (decide_eq_true negative), if_neg inside, same]
    · have same : (i.natAbs : Int) = i := by omega
      simp [negative, same]

end RoomRelay.Json
