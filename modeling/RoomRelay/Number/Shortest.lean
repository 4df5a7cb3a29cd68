import RoomRelay.Number.Binary64
import RoomRelay.Text.Digits

/-!
The shortest decimal of a binary floating-point number: of the decimals that lie closer to it
than to any other value of the format, one with the fewest digits, and of those the nearest.
The search tests the two neighbours of the value on ever finer decimal grids, in exact
arithmetic; the first grid with a hit wins.
-/

namespace RoomRelay.Binary64

/-- The interval of numbers that round to a positive value, and the value itself, all times four
over a common power of two. -/
structure Span where
  low : Nat
  value : Nat
  high : Nat
  exponent : Int
  closed : Bool

/-- The numbers that round to `x`. The gap below a power of two is half as wide. -/
def span (x : Binary64) : Span :=
  let m := 4 * x.significand
  let below := if x.significand = Nat.pow 2 52 ∧ leastExponent < x.exponent then 1 else 2
  ⟨m - below, m, m + 2, x.exponent, x.significand % 2 == 0⟩

/-- The grid of step `10 ^ step`: factors that bring a span's numbers and the grid's points to
one denominator. -/
def gridFactors (exponent step : Int) : Nat × Nat :=
  (Nat.pow 2 exponent.toNat * Nat.pow 10 (-step).toNat,
    4 * (Nat.pow 2 (-exponent).toNat * Nat.pow 10 step.toNat))

/-- Whether the grid point `point` lies in the span. -/
def Span.holds (s : Span) (step : Int) (point : Nat) : Bool :=
  let (f, g) := gridFactors s.exponent step
  if s.closed then s.low * f ≤ point * g && point * g ≤ s.high * f
  else s.low * f < point * g && point * g < s.high * f

/-- The grid point below or at the span's value. -/
def Span.below (s : Span) (step : Int) : Nat :=
  let (f, g) := gridFactors s.exponent step
  s.value * f / g

/-- The nearest point of the grid in the span, an exact tie going to the even one. -/
def Span.hit? (s : Span) (step : Int) : Option Nat :=
  let (f, g) := gridFactors s.exponent step
  let low := s.below step
  match s.holds step low && 0 < low, s.holds step (low + 1) with
  | true, true =>
    let twice := 2 * (s.value * f)
    let middle := (2 * low + 1) * g
    if twice < middle then some low
    else if middle < twice then some (low + 1)
    else if low % 2 = 0 then some low else some (low + 1)
  | true, false => some low
  | false, true => some (low + 1)
  | false, false => none

/-- The power of ten of the leading digit, sought downwards from `step`. -/
def Span.leading (s : Span) : Nat → Int → Int
  | 0, step => step
  | n + 1, step => if s.below step = 0 then s.leading n (step - 1) else step

/-- The first hit on the grids of step `10 ^ step`, `10 ^ (step - 1)`, … -/
def Span.search (s : Span) : Nat → Int → Nat × Int
  | 0, step => (s.below step, step)
  | n + 1, step =>
    match s.hit? step with
    | some point => (point, step)
    | none => s.search n (step - 1)

/-- A number without its trailing zeros, and how many they are. -/
def withoutZeros : Nat → Nat → Nat × Nat
  | 0, n => (n, 0)
  | fuel + 1, n =>
    if n ≠ 0 ∧ n % 10 = 0 then
      let (m, k) := withoutZeros fuel (n / 10)
      (m, k + 1)
    else (n, 0)

/-- The shortest decimal of a non-zero value, as a whole number and a power of ten. -/
def shortest (x : Binary64) : Nat × Int :=
  let s := x.span
  let bits : Int := x.significand.log2 + x.exponent + 1
  let top := s.leading 8 (bits * 30103 / 100000 + 2)
  let (point, step) := s.search 18 top
  let (point, zeros) := withoutZeros 20 point
  (point, step + zeros)

end RoomRelay.Binary64
