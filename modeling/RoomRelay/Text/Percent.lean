import RoomRelay.Text.Blank
import RoomRelay.Text.Digits
import RoomRelay.Text.Utf8

/-!
Percent encoding: an octet as `%` and two hexadecimal digits. Reading leaves a `%` that two
digits do not follow as it stands. A query is a list of pairs with `&` between, in which `+`
stands for a space.
-/

namespace RoomRelay.Text.Percent

/-- Octets with every `%` and two digits replaced by the octet they name. -/
def decode : List UInt8 → List UInt8
  | 0x25 :: a :: b :: rest =>
    match hexValue? (Char.ofNat a.toNat), hexValue? (Char.ofNat b.toNat) with
    | some x, some y => (16 * x + y).toUInt8 :: decode rest
    | _, _ => 0x25 :: decode (a :: b :: rest)
  | b :: rest => b :: decode rest
  | [] => []
termination_by bytes => bytes.length

/-- The text that a text stands for, if its octets spell one. -/
def decodeText? (s : String) : Option String :=
  utf8Text? (decode (utf8 s))

/-- An octet as `%` and two capital digits. -/
def octet (b : UInt8) : List Char :=
  '%' :: (fixedDigits 16 2 b.toNat).map Char.toUpper

/-- A text with the characters that `plain` refuses encoded. -/
def encode (plain : Char → Bool) (s : String) : String :=
  String.ofList <| s.toList.flatMap fun c => if plain c then [c] else (Utf8.octets c).flatMap octet

/-- A key or value of a query. -/
def queryPart (cs : List Char) : String :=
  let spaced := cs.map fun c => if c = '+' then ' ' else c
  repaired (decode (utf8 (String.ofList spaced)))

/-- The pairs of a query. A piece without `=` has an empty value; empty pieces are passed
over. -/
def queryPairs (query : String) : List (String × String) :=
  (pieces '&' query.toList).filterMap fun piece =>
    if piece.isEmpty then none
    else
      match cutFirst? '=' piece with
      | some (key, value) => some (queryPart key, queryPart value)
      | none => some (queryPart piece, "")

end RoomRelay.Text.Percent
