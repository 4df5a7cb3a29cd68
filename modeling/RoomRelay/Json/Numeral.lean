import RoomRelay.Json.Document
import RoomRelay.Json.Value

/-!
The number a numeral stands for. Digits are gathered into a significand of at most 64 bits; a
whole number that fits stays whole, and all else becomes a double: the significand rounded, then
scaled by a power of ten. Digits the significand cannot take count as places of the integer part
and are dropped from the fraction. Minus zero is the double of that sign, and a number beyond the
doubles has no value.
-/

namespace RoomRelay.Json.Numeral

/-- The significand with one more digit, if 64 bits hold it. -/
def extend? (significand digit : Nat) : Option Nat :=
  let n := significand * 10 + digit
  if n < Word.span 64 then some n else none

/-- The significand after the digits of the integer part, and how many of them it did not
take. -/
def gatherWhole (significand : Nat) : List Nat → Nat × Nat
  | [] => (significand, 0)
  | d :: ds =>
    match extend? significand d with
    | some n => gatherWhole n ds
    | none => (significand, ds.length + 1)

/-- The significand after the digits of the fraction, and how many of them it took. -/
def gatherFraction (significand : Nat) : List Nat → Nat × Nat
  | [] => (significand, 0)
  | d :: ds =>
    match extend? significand d with
    | some n =>
      let (m, taken) := gatherFraction n ds
      (m, taken + 1)
    | none => (significand, 0)

/-- The exponent that digits spell, unless 31 bits cannot hold it. -/
def gatherExponent? (exponent : Nat) : List Nat → Option Nat
  | [] => some exponent
  | d :: ds =>
    let n := exponent * 10 + d
    if n < Word.span 31 then gatherExponent? n ds else none

/-- A whole number of at most 64 bits. Minus zero, and what no signed 64 bits hold, is a
double. -/
def whole? (negative : Bool) (significand : Nat) : Option Number :=
  if negative then
    if significand = 0 ∨ Word.span 63 < significand then
      (Binary64.ofDecimal? true significand 0).map .double
    else some (.whole (-significand))
  else some (.whole significand)

/-- The number a numeral stands for. -/
def number? (n : Numeral) : Option Number :=
  let (significand, surplus) := gatherWhole 0 n.whole
  match n.fraction, n.exponent, surplus with
  | none, none, 0 => whole? n.negative significand
  | fraction, exponent, surplus =>
    let (significand, taken) := gatherFraction significand (fraction.getD [])
    let start : Int := surplus - taken
    match exponent with
    | none => (Binary64.ofDecimal? n.negative significand start).map .double
    | some (down, digits) =>
      match gatherExponent? 0 digits with
      | some e =>
        let power : Int := if down then start - e else start + e
        (Binary64.ofDecimal? n.negative significand power).map .double
      | none =>
        if significand ≠ 0 ∧ ¬down then none else some (.double (.zero n.negative))

end RoomRelay.Json.Numeral
