import RoomRelay.Number.Word
import RoomRelay.Text.Digits

/-!
Lengths of time in whole nanoseconds. A length is multiplied and divided in two parts, its whole
seconds, which 64 bits must hold, and the nanoseconds below them. The written form names the greatest
of the units second, millisecond, microsecond and nanosecond that is not below one, with the fewest
decimals that are exact.
-/

namespace RoomRelay

structure Duration where
  nanos : Nat
deriving DecidableEq, Inhabited

namespace Duration

instance : LE Duration := ⟨fun a b => a.nanos ≤ b.nanos⟩
instance : LT Duration := ⟨fun a b => a.nanos < b.nanos⟩
instance (a b : Duration) : Decidable (a ≤ b) := inferInstanceAs (Decidable (a.nanos ≤ b.nanos))
instance (a b : Duration) : Decidable (a < b) := inferInstanceAs (Decidable (a.nanos < b.nanos))
instance : Add Duration := ⟨fun a b => ⟨a.nanos + b.nanos⟩⟩

def ofSeconds (n : Nat) : Duration := ⟨n * 1000000000⟩

def ofMillis (n : Nat) : Duration := ⟨n * 1000000⟩

def seconds (d : Duration) : Nat := d.nanos / 1000000000

/-- The nanoseconds below the whole seconds. -/
def subsecond (d : Duration) : Nat := d.nanos % 1000000000

/-- The first instant that a clock cannot name. It counts seconds, and has 63 bits for them. -/
def clockEnd : Nat := Word.span 63 * 1000000000

/-- Half of what a clock counts. -/
def clockHalf : Duration := .ofSeconds (Word.span 62)

/-- The instant that lies a length of time after another, if the clock can name it. -/
def after? (d : Duration) (now : Nat) : Option Nat :=
  if now + d.nanos < clockEnd then some (now + d.nanos) else none

/-- The length of so many seconds and nanoseconds. -/
def ofParts (seconds nanos : Nat) : Duration := ⟨seconds * 1000000000 + nanos⟩

/-- A length taken `n` times, if 64 bits hold the seconds of it. What the nanoseconds come to in
whole seconds is carried. -/
def times? (d : Duration) (n : Nat) : Option Duration :=
  let nanos := d.subsecond * n
  let seconds := d.seconds * n + nanos / 1000000000
  if seconds < Word.span 64 then some (ofParts seconds (nanos % 1000000000)) else none

/-- The `n`-th part of a length. What is left of the seconds is divided with what is left of the
nanoseconds. -/
def part (d : Duration) (n : Nat) : Duration :=
  let left := d.seconds % n * 1000000000 + d.subsecond % n
  ofParts (d.seconds / n) (d.subsecond / n + left / n)

/-- The digits of a fraction of `width` places, without trailing zeros. -/
def fraction (width n : Nat) : List Char :=
  ((Text.fixedDigits 10 width n).reverse.dropWhile (· == '0')).reverse

/-- A number of units with the places that follow the point. -/
def amount (unit width n : Nat) (name : List Char) : List Char :=
  let places := fraction width (n % unit)
  Text.decimal (n / unit) ++ (if places.isEmpty then [] else '.' :: places) ++ name

def text (d : Duration) : String :=
  String.ofList <|
    if 1000000000 ≤ d.nanos then amount 1000000000 9 d.nanos ['s']
    else if 1000000 ≤ d.nanos then amount 1000000 6 d.nanos ['m', 's']
    else if 1000 ≤ d.nanos then amount 1000 3 d.nanos ['µ', 's']
    else amount 1 0 d.nanos ['n', 's']

end Duration

end RoomRelay
