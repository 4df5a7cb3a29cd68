/-!
Finite binary floating-point numbers of the 64-bit format, in exact whole-number arithmetic.
A value is a significand times a power of two; every operation rounds the exact result to the
nearest value of the format, a tie to the one with an even significand, and answers `none` where
the result lies beyond the greatest finite value.
-/

namespace RoomRelay

/-- `significand · 2 ^ exponent`, negated when `negative`. -/
structure Binary64 where
  negative : Bool
  significand : Nat
  exponent : Int
deriving DecidableEq, Repr

namespace Binary64

/-- The least exponent of the format, which zero and the subnormal values carry. -/
def leastExponent : Int := -1074

/-- The greatest exponent a finite value carries. -/
def greatestExponent : Int := 971

/-- Zero, with its sign. -/
def zero (negative : Bool) : Binary64 := ⟨negative, 0, leastExponent⟩

/-- Whether the value is zero of either sign. -/
def isZero (x : Binary64) : Bool := x.significand == 0

/-- `num / den / 2 ^ e` as a quotient of whole numbers. -/
def scaled (num den : Nat) (e : Int) : Nat × Nat :=
  (num * Nat.pow 2 (-e).toNat, den * Nat.pow 2 e.toNat)

/-- The whole number nearest to `num / den`, a tie going to the even one. -/
def nearest (num den : Nat) : Nat :=
  let q := num / den
  let r := num % den
  if 2 * r < den then q
  else if den < 2 * r then q + 1
  else if q % 2 = 0 then q else q + 1

/-- The value nearest to `num / den`. -/
def ofRatio? (negative : Bool) (num den : Nat) : Option Binary64 :=
  if num = 0 then some (zero negative)
  else
    let fine := max ((num.log2 : Int) - den.log2 - 53) leastExponent
    let (a, b) := scaled num den fine
    let e := if a / b < Nat.pow 2 53 then fine else fine + 1
    let (a, b) := scaled num den e
    let m := nearest a b
    let (m, e) := if m = Nat.pow 2 53 then (Nat.pow 2 52, e + 1) else (m, e)
    if e ≤ greatestExponent then some ⟨negative, m, e⟩ else none

/-- The product of the magnitudes under the sign of the first. -/
def times? (x y : Binary64) : Option Binary64 :=
  let (a, b) := scaled (x.significand * y.significand) 1 (-(x.exponent + y.exponent))
  ofRatio? x.negative a b

/-- The quotient of the magnitudes under the sign of the first. -/
def over? (x y : Binary64) : Option Binary64 :=
  let (a, b) := scaled x.significand y.significand (y.exponent - x.exponent)
  ofRatio? x.negative a b

/-- The value nearest to a power of ten. -/
def powerOfTen (k : Nat) : Binary64 :=
  (ofRatio? false (Nat.pow 10 k) 1).getD (zero false)

/-- The greatest power of ten in the format's range. -/
def greatestPower : Nat := 308

/-- The value divided so many times by the greatest power of ten in range. -/
def sunken (x : Binary64) : Nat → Option Binary64
  | 0 => some x
  | times + 1 =>
    if x.isZero then some x
    else (x.over? (powerOfTen greatestPower)).bind (·.sunken times)

/-- Division by a power of ten, in steps of at most the greatest one in range. -/
def shiftDown (x : Binary64) (k : Nat) : Option Binary64 :=
  let whole := (k - 1) / greatestPower
  (x.sunken whole).bind (·.over? (powerOfTen (k - whole * greatestPower)))

/-- A whole significand times a power of ten: the significand is rounded first, then its product
with, or its quotient by, the rounded power. -/
def ofDecimal? (negative : Bool) (significand : Nat) (exponent : Int) : Option Binary64 :=
  (ofRatio? negative significand 1).bind fun x =>
    if exponent < 0 then shiftDown x exponent.natAbs
    else if exponent ≤ greatestPower then x.times? (powerOfTen exponent.natAbs)
    else if x.isZero then some x else none

end Binary64

end RoomRelay
