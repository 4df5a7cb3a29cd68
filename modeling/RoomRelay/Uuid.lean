import RoomRelay.Text.Blank
import RoomRelay.Text.Digits
import RoomRelay.Json.Decode

/-!
Universally unique identifiers: 128 bits, written as 32 small hexadecimal digits in groups of
8, 4, 4, 4 and 12 with hyphens between. Four forms are read, digits in either case: the written
form, the digits without hyphens, and the written form in braces or after `urn:uuid:`.
-/

namespace RoomRelay

structure Uuid where
  bits : BitVec 128
deriving DecidableEq, Inhabited

namespace Uuid

instance : Ord Uuid := ⟨fun a b => compare a.bits.toNat b.bits.toNat⟩

instance : Hashable Uuid := ⟨fun u => hash u.bits.toNat⟩

/-- The identifier with the given number. -/
def ofNat (n : Nat) : Uuid := ⟨BitVec.ofNat 128 n⟩

/-- The 32 digits. -/
def digits (u : Uuid) : List Char :=
  Text.fixedDigits 16 32 u.bits.toNat

/-- Hyphens put after the 8th, 12th, 16th and 20th character. -/
def hyphenate (cs : List Char) : List Char :=
  cs.take 8 ++ '-' :: (cs.drop 8).take 4 ++ '-' :: (cs.drop 12).take 4 ++
    '-' :: (cs.drop 16).take 4 ++ '-' :: cs.drop 20

/-- The written form. -/
def chars (u : Uuid) : List Char :=
  hyphenate u.digits

def text (u : Uuid) : String :=
  String.ofList u.chars

instance : ToString Uuid := ⟨text⟩

/-- The identifier of 32 hexadecimal digits. -/
def ofDigits? (cs : List Char) : Option Uuid :=
  if cs.length = 32 then (Text.readHex? cs).map ofNat else none

/-- The identifier of the written form, digits in either case. -/
def ofHyphenated? (cs : List Char) : Option Uuid :=
  let plain :=
    cs.take 8 ++ (cs.drop 9).take 4 ++ (cs.drop 14).take 4 ++ (cs.drop 19).take 4 ++ cs.drop 24
  if cs.length = 36 ∧ hyphenate plain = cs then ofDigits? plain else none

/-- What stands between braces. -/
def unbraced? (cs : List Char) : Option (List Char) :=
  match cs, cs.getLast? with
  | '{' :: rest, some '}' => some rest.dropLast
  | _, _ => none

/-- What follows `urn:uuid:`, in either case. -/
def afterUrn? (cs : List Char) : Option (List Char) :=
  if (cs.take 9).map Char.toLower = "urn:uuid:".toList then some (cs.drop 9) else none

/-- The identifier that characters spell in one of the four forms. -/
def ofChars? (cs : List Char) : Option Uuid :=
  match ofDigits? cs with
  | some u => some u
  | none =>
    match ofHyphenated? cs with
    | some u => some u
    | none =>
      match unbraced? cs with
      | some inner => ofHyphenated? inner
      | none => (afterUrn? cs).bind ofHyphenated?

def parse? (s : String) : Option Uuid :=
  ofChars? s.toList

/-- Identifiers in ascending order. -/
def sort (us : List Uuid) : List Uuid :=
  us.mergeSort fun a b => a.bits.toNat ≤ b.bits.toNat

def decode : Json.Decoder Uuid :=
  Json.Decode.parsed parse?

def toValue (u : Uuid) : Json.Value :=
  .string u.text

end Uuid

end RoomRelay
