/-!
Base64 with the URL-safe alphabet and without padding. Reading accepts exactly what writing
gives: no padding, no length of the form 4k + 1, and zeros in the bits that a short last group
leaves over.
-/

namespace RoomRelay.Text.Base64Url

/-- The letter for a group of six bits. -/
def letter (n : Nat) : Char :=
  if n < 26 then Char.ofNat (65 + n)
  else if n < 52 then Char.ofNat (71 + n)
  else if n < 62 then Char.ofNat (n - 4)
  else if n = 62 then '-' else '_'

/-- The six bits a letter stands for. -/
def value? (c : Char) : Option Nat :=
  if 'A' ≤ c ∧ c ≤ 'Z' then some (c.toNat - 65)
  else if 'a' ≤ c ∧ c ≤ 'z' then some (c.toNat - 71)
  else if '0' ≤ c ∧ c ≤ '9' then some (c.toNat + 4)
  else if c = '-' then some 62
  else if c = '_' then some 63
  else none

/-- Octets in groups of three, each written as four letters; a last group of one or two octets
takes two or three. -/
def encode : List UInt8 → List Char
  | [] => []
  | [a] => [letter (a.toNat / 4), letter (a.toNat % 4 * 16)]
  | [a, b] =>
    [letter (a.toNat / 4), letter (a.toNat % 4 * 16 + b.toNat / 16),
      letter (b.toNat % 16 * 4)]
  | a :: b :: c :: rest =>
    letter (a.toNat / 4) :: letter (a.toNat % 4 * 16 + b.toNat / 16) ::
      letter (b.toNat % 16 * 4 + c.toNat / 64) :: letter (c.toNat % 64) :: encode rest

/-- Groups of six bits read back as octets. -/
def octets? : List Nat → Option (List UInt8)
  | [] => some []
  | [_] => none
  | [a, b] => if b % 16 = 0 then some [(a * 4 + b / 16).toUInt8] else none
  | [a, b, c] =>
    if c % 4 = 0 then some [(a * 4 + b / 16).toUInt8, (b % 16 * 16 + c / 4).toUInt8] else none
  | a :: b :: c :: d :: rest =>
    (octets? rest).map fun tail =>
      (a * 4 + b / 16).toUInt8 :: (b % 16 * 16 + c / 4).toUInt8 ::
        (c % 4 * 64 + d).toUInt8 :: tail

/-- The octets a text spells. -/
def decode? (cs : List Char) : Option (List UInt8) :=
  (cs.mapM value?).bind octets?

end RoomRelay.Text.Base64Url
