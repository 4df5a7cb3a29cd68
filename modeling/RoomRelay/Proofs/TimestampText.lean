import RoomRelay.Timestamp
import RoomRelay.Proofs.Json.Numerals

/-!
What is written of an instant can be read: every instant that there is, in years with and without a
sign, in a leap second or out of one, and with any fraction of a second, is read from its text as
that instant. The reader takes far more than the printer writes, so each of its parts is shown to stop
where the printed part ends.
-/

namespace RoomRelay

namespace Text

/-- The last digits of a number, most significant first. -/
def lastDigits : Nat → Nat → List Nat
  | 0, _ => []
  | width + 1, n => lastDigits width (n / 10) ++ [n % 10]

private theorem fixedDigits_eq (width n : Nat) :
    fixedDigits 10 width n = digitText (lastDigits width n) := by
  induction width generalizing n with
  | zero => rfl
  | succ width ih => simp [fixedDigits, lastDigits, ih, digitText]

private theorem lastDigits_length (width n : Nat) : (lastDigits width n).length = width := by
  induction width generalizing n with
  | zero => rfl
  | succ width ih => simp [lastDigits, ih]

private theorem lastDigits_lt (width n : Nat) : ∀ d ∈ lastDigits width n, d < 10 := by
  induction width generalizing n with
  | zero => simp [lastDigits]
  | succ width ih =>
    intro d member
    rcases List.mem_append.mp member with before | last
    · exact ih (n / 10) d before
    · rw [List.mem_singleton.mp last]
      exact Nat.mod_lt n (by decide)

private theorem numberOf_lastDigits (width n : Nat) :
    numberOf 10 (lastDigits width n) = n % Nat.pow 10 width := by
  induction width generalizing n with
  | zero => simp [lastDigits, numberOf, Nat.mod_one]
  | succ width ih =>
    have longer : Nat.pow 10 (width + 1) = 10 * Nat.pow 10 width := Nat.pow_succ'
    rw [lastDigits, numberOf_snoc, ih, longer, Nat.mod_mul]
    omega

/-- A number filled up with zeros to at least so many digits. -/
def paddedDigits (width n : Nat) : List Nat :=
  List.replicate (width - (decimalDigits n).length) 0 ++ decimalDigits n

private theorem padded_eq (width n : Nat) : padded width n = digitText (paddedDigits width n) := by
  have zero : digitChar 0 = '0' := rfl
  simp [padded, paddedDigits, decimal_eq, digitText, zero]

/-- Zeros in front of a number do not count. -/
private theorem numberOf_zeros (k : Nat) (ds : List Nat) :
    numberOf 10 (List.replicate k 0 ++ ds) = numberOf 10 ds := by
  induction k with
  | zero => rfl
  | succ k ih => simpa [numberOf, List.replicate_succ] using ih

private theorem numberOf_paddedDigits (width n : Nat) : numberOf 10 (paddedDigits width n) = n := by
  rw [paddedDigits, numberOf_zeros, numberOf_decimalDigits]

private theorem decimalDigits_length_le {n width : Nat} (fits : n < Nat.pow 10 (width + 1)) :
    (decimalDigits n).length ≤ width + 1 := by
  induction n using decimalDigits.induct generalizing width with
  | case1 n small => simp [decimalDigits, small]
  | case2 n large ih =>
    cases width with
    | zero => exact absurd fits large
    | succ width =>
      have shorter : n / 10 < Nat.pow 10 (width + 1) :=
        Nat.div_lt_of_lt_mul (by rw [Nat.mul_comm]; exact fits)
      have length := ih shorter
      rw [decimalDigits, if_neg large, List.length_append, List.length_singleton]
      omega

/-- A number that fits in so many digits is filled up to them. -/
private theorem paddedDigits_length {n width : Nat} (fits : n < Nat.pow 10 (width + 1)) :
    (paddedDigits (width + 1) n).length = width + 1 := by
  have length := decimalDigits_length_le fits
  rw [paddedDigits, List.length_append, List.length_replicate]
  omega

end Text

namespace Timestamp

open Text Json

private theorem paddedDigits_digital (width n : Nat) : Digits (paddedDigits width n) :=
  (Digits.decimal n).zeros_before _

private theorem lastDigits_digital {width : Nat} (some_ : 0 < width) (n : Nat) :
    Digits (lastDigits width n) := by
  refine ⟨List.ne_nil_of_length_pos ?_, lastDigits_lt width n⟩
  rw [lastDigits_length]
  exact some_

/-! ## Digits -/

variable {ds : List Nat} {tail : List Char}

/-- Digits are read to their end, when no more are wanted or no more follow. -/
private theorem digitsUpTo_digitText {most : Nat} (small : ∀ d ∈ ds, d < 10)
    (enough : ds.length ≤ most)
    (ends : ds.length = most ∨ ∀ c ∈ tail.head?, decimalValue? c = none) :
    digitsUpTo most (digitText ds ++ tail) = (ds, tail) := by
  induction ds generalizing most with
  | nil =>
    cases most with
    | zero => simp [digitText, digitsUpTo]
    | succ most =>
      rcases ends with none | ends
      · cases none
      · cases tail with
        | nil => simp [digitText, digitsUpTo]
        | cons c rest => simp [digitText, digitsUpTo, ends c rfl]
  | cons d rest ih =>
    cases most with
    | zero => cases enough
    | succ most =>
      have value := decimalValue_digitChar d (small d List.mem_cons_self)
      have later := ih (fun d member => small d (List.mem_cons_of_mem _ member))
        (Nat.le_of_succ_le_succ enough) (ends.imp_left Nat.succ.inj)
      simp only [digitText, List.map_cons, List.cons_append, digitsUpTo, value] at later ⊢
      rw [later]

/-- Where any number of digits is wanted, they are read to their end. -/
private theorem digitsUpTo_all (small : ∀ d ∈ ds, d < 10)
    (noDigit : ∀ c ∈ tail.head?, decimalValue? c = none) :
    digitsUpTo (digitText ds ++ tail).length (digitText ds ++ tail) = (ds, tail) :=
  digitsUpTo_digitText small (by simp [digitText]) (.inr noDigit)

private theorem digitChar_signless : ∀ d < 10,
    isBlank (digitChar d) = false ∧ digitChar d ≠ '+' ∧ digitChar d ≠ '-' := by decide

/-- No blank stands before digits. -/
private theorem trimLeft_digitText (digital : Digits ds) :
    trimLeft (digitText ds ++ tail) = digitText ds ++ tail := by
  obtain ⟨d, rest, rfl⟩ := List.exists_cons_of_ne_nil digital.1
  have noBlank := (digitChar_signless d (digital.2 d List.mem_cons_self)).1
  simp [digitText, trimLeft, noBlank]

private theorem readNumber_digitText {most : Nat} (digital : Digits ds) (enough : ds.length ≤ most)
    (ends : ds.length = most ∨ ∀ c ∈ tail.head?, decimalValue? c = none) :
    readNumber most (digitText ds ++ tail) = some (numberOf 10 ds, tail) := by
  rw [readNumber, trimLeft_digitText digital, digitsUpTo_digitText digital.2 enough ends]
  obtain ⟨d, rest, rfl⟩ := List.exists_cons_of_ne_nil digital.1
  rfl

/-- Two digits are read whatever follows them. -/
private theorem readNumber_two {n : Nat} (small : n < 100) (tail : List Char) :
    readNumber 2 (fixedDigits 10 2 n ++ tail) = some (n, tail) := by
  have length := lastDigits_length 2 n
  rw [fixedDigits_eq, readNumber_digitText (lastDigits_digital (by decide) n)
    (Nat.le_of_eq length) (.inl length), numberOf_lastDigits, Nat.mod_eq_of_lt small]

private theorem readMark_mark {mark : Char} (noBlank : isBlank mark = false) (cs : List Char) :
    readMark mark (mark :: cs) = some cs := by
  simp [readMark, trimLeft, noBlank]

/-! ## Years and fractions -/

/-- A year is read to the end of its digits, with its sign if it has one. -/
private theorem readYear_yearText (year : Int)
    (noDigit : ∀ c ∈ tail.head?, decimalValue? c = none) :
    readYear (yearText year ++ tail) = some (year, tail) := by
  have digital := paddedDigits_digital 4 year.natAbs
  have value := numberOf_paddedDigits 4 year.natAbs
  unfold yearText
  rw [padded_eq]
  by_cases plain : 0 ≤ year ∧ year ≤ 9999
  · have fits : year.natAbs < Nat.pow 10 (3 + 1) := by
      have bound : year.natAbs < 10000 := by omega
      exact bound
    have length := paddedDigits_length fits
    have read : readNumber 4 (digitText (paddedDigits 4 year.natAbs) ++ tail) =
        some (numberOf 10 (paddedDigits 4 year.natAbs), tail) :=
      readNumber_digitText digital (Nat.le_of_eq length) (.inl length)
    rw [if_pos plain]
    unfold readYear
    rw [trimLeft_digitText digital]
    obtain ⟨d, rest, starts⟩ := List.exists_cons_of_ne_nil digital.1
    obtain ⟨-, noPlus, noMinus⟩ :=
      digitChar_signless d (digital.2 d (starts ▸ List.mem_cons_self))
    split
    · rename_i signed
      rw [starts] at signed
      exact absurd (List.cons.inj signed).1 noPlus
    · rename_i signed
      rw [starts] at signed
      exact absurd (List.cons.inj signed).1 noMinus
    · have same : (year.natAbs : Int) = year := by omega
      rw [read, value, Option.map_some]
      simp only [same]
  · have read := digitsUpTo_all digital.2 noDigit
    obtain ⟨d, rest, starts⟩ := List.exists_cons_of_ne_nil digital.1
    rw [if_neg plain]
    rw [starts] at read value ⊢
    by_cases negative : year < 0
    · have sign : trimLeft ('-' :: (digitText (d :: rest) ++ tail)) =
          '-' :: (digitText (d :: rest) ++ tail) := rfl
      have same : -(year.natAbs : Int) = year := by omega
      rw [if_pos negative, List.cons_append, readYear, sign]
      simp only [read, value, same]
    · have sign : trimLeft ('+' :: (digitText (d :: rest) ++ tail)) =
          '+' :: (digitText (d :: rest) ++ tail) := rfl
      have same : (year.natAbs : Int) = year := by omega
      rw [if_neg negative, List.cons_append, readYear, sign]
      simp only [read, value, same]

/-- Digits after a point are read as so many nanoseconds. -/
private theorem readFraction_point (digital : Digits ds) (short : ds.length ≤ 9)
    (noDigit : ∀ c ∈ tail.head?, decimalValue? c = none) :
    readFraction ('.' :: (digitText ds ++ tail)) =
      some (numberOf 10 ds * Nat.pow 10 (9 - ds.length), tail) := by
  have read := digitsUpTo_all digital.2 noDigit
  obtain ⟨d, rest, rfl⟩ := List.exists_cons_of_ne_nil digital.1
  simp only [readFraction, read, List.take_of_length_le short]

/-- A fraction of so many digits is read as what it was written from, if it was exact. -/
private theorem readFraction_fixedDigits {width units nano : Nat} (some_ : 0 < width)
    (short : width ≤ 9)
    (fits : units < Nat.pow 10 width) (exact_ : units * Nat.pow 10 (9 - width) = nano)
    (noDigit : ∀ c ∈ tail.head?, decimalValue? c = none) :
    readFraction ('.' :: (fixedDigits 10 width units ++ tail)) = some (nano, tail) := by
  have length := lastDigits_length width units
  rw [fixedDigits_eq, readFraction_point (lastDigits_digital some_ units)
    (by rw [length]; exact short) noDigit, numberOf_lastDigits, length, Nat.mod_eq_of_lt fits,
    exact_]

private theorem readFraction_fractionText {nano : Nat} (small : nano < 1000000000)
    (noDigit : ∀ c ∈ tail.head?, decimalValue? c = none) (noPoint : ∀ c ∈ tail.head?, c ≠ '.') :
    readFraction (fractionText nano ++ tail) = some (nano, tail) := by
  have powers : Nat.pow 10 3 = 1000 ∧ Nat.pow 10 6 = 1000000 ∧ Nat.pow 10 9 = 1000000000 := by
    decide
  unfold fractionText
  by_cases none_ : nano = 0
  · rw [if_pos none_, List.nil_append]
    cases tail with
    | nil => simp [readFraction, none_]
    | cons c rest =>
      have other : c ≠ '.' := noPoint c rfl
      simp [readFraction, other, none_]
  rw [if_neg none_]
  by_cases millis : nano % 1000000 = 0
  · rw [if_pos millis]
    refine readFraction_fixedDigits (by decide) (by decide) ?_ ?_ noDigit
    · rw [powers.1]
      omega
    · show nano / 1000000 * Nat.pow 10 6 = nano
      rw [powers.2.1]
      omega
  rw [if_neg millis]
  by_cases micros : nano % 1000 = 0
  · rw [if_pos micros]
    refine readFraction_fixedDigits (by decide) (by decide) ?_ ?_ noDigit
    · rw [powers.2.1]
      omega
    · show nano / 1000 * Nat.pow 10 3 = nano
      rw [powers.1]
      omega
  rw [if_neg micros]
  refine readFraction_fixedDigits (by decide) (by decide) ?_ (Nat.mul_one nano) noDigit
  rw [powers.2.2]
  exact small

/-! ## Instants -/

/-- The parts of an instant make up that instant. -/
private theorem ofParts_parts (t : Timestamp) :
    ofParts? ⟨t.date.year, t.date.month, t.date.day⟩ t.hour t.minute t.second t.nano = some t :=
  dif_pos ⟨t.date_valid, t.hour_lt, t.minute_lt, t.second_le, t.nano_lt⟩

/-- Without an offset an instant stays where it is. -/
private theorem shift_none (date : Date) {minutes : Nat} (day : minutes < 1440) :
    shift date minutes 0 = (date, minutes) := by
  have before : ¬(minutes : Int) - 0 < 0 := by omega
  have after : ¬(1440 : Int) ≤ minutes - 0 := by omega
  simp only [shift]
  rw [if_neg before, if_neg after, Int.sub_zero, Int.toNat_natCast]

private theorem daysIn_le (year : Int) (month : Nat) : daysIn year month ≤ 31 := by
  unfold daysIn
  repeat' split
  all_goals omega

/-- What is read first is what the rest goes on with. -/
private theorem bind_read {α γ : Type} {x : Option α} {next : α → Option γ} {a : α} {c : Option γ}
    (read : x = some a) (rest : next a = c) : x >>= next = c := by
  rw [read]
  exact rest

/-- An instant is read from what is written of it with any form of Universal Time behind. -/
private theorem ofChars_stem (t : Timestamp) {zone : List Char}
    (noDigit : ∀ c ∈ zone.head?, decimalValue? c = none) (noPoint : ∀ c ∈ zone.head?, c ≠ '.')
    (universal : readOffset (trimLeft zone) = some (0, [])) :
    ofChars? (t.stem ++ zone) = some t := by
  obtain ⟨-, -, -, month, -, day⟩ := t.date_valid
  have month : t.date.month < 100 := by omega
  have day : t.date.day < 100 := by
    have most := daysIn_le t.date.year t.date.month
    omega
  have hour : t.hour < 100 := by
    have bound := t.hour_lt
    omega
  have minute : t.minute < 100 := by
    have bound := t.minute_lt
    omega
  have second : t.second < 100 := by
    have bound := t.second_le
    omega
  have inDay : t.hour * 60 + t.minute < 1440 := by
    have hours := t.hour_lt
    have minutes := t.minute_lt
    omega
  have hourAgain : (t.hour * 60 + t.minute) / 60 = t.hour := by
    have minutes := t.minute_lt
    omega
  have minuteAgain : (t.hour * 60 + t.minute) % 60 = t.minute := by
    have minutes := t.minute_lt
    omega
  have written : t.stem ++ zone =
      yearText t.date.year ++ ('-' :: (fixedDigits 10 2 t.date.month ++
        ('-' :: (fixedDigits 10 2 t.date.day ++ ('T' :: (fixedDigits 10 2 t.hour ++
          (':' :: (fixedDigits 10 2 t.minute ++ (':' :: (fixedDigits 10 2 t.second ++
            (fractionText t.nano ++ zone))))))))))) := by
    simp only [stem, List.append_assoc, List.cons_append]
  rw [written]
  -- one part after the other, each up to where the next begins
  refine bind_read (readYear_yearText t.date.year fun c first => ?_) ?_
  · cases first
    rfl
  refine bind_read (readMark_mark rfl _) ?_
  refine bind_read (readNumber_two month _) ?_
  refine bind_read (readMark_mark rfl _) ?_
  refine bind_read (readNumber_two day _) ?_
  -- the letter between day and hour
  refine bind_read rfl ?_
  refine bind_read (readNumber_two hour _) ?_
  refine bind_read (readMark_mark rfl _) ?_
  refine bind_read (readNumber_two minute _) ?_
  refine bind_read (readMark_mark rfl _) ?_
  refine bind_read (readNumber_two second _) ?_
  refine bind_read (readFraction_fractionText t.nano_lt noDigit noPoint) ?_
  refine bind_read universal ?_
  refine bind_read t.ofParts_parts ?_
  rw [shift_none _ inDay]
  show ofParts? t.date ((t.hour * 60 + t.minute) / 60) ((t.hour * 60 + t.minute) % 60) t.second
    t.nano = some t
  rw [hourAgain, minuteAgain]
  exact t.ofParts_parts

/-- An instant is read from its text. -/
theorem parse_text (t : Timestamp) : parse? t.text = some t := by
  rw [parse?, text, String.toList_ofList]
  refine ofChars_stem t ?_ ?_ rfl
  · rintro c ⟨rfl⟩
    rfl
  · rintro c ⟨rfl⟩
    decide

end Timestamp

end RoomRelay
