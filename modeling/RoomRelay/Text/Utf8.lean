/-!
UTF-8. Texts are written as octets and octets are read as text under the syntax of RFC 3629:
no overlong form, no surrogate, nothing above U+10FFFF. `mended` reads any octets, putting
something else for each longest run that starts a character and cannot be completed; `repaired`
puts U+FFFD.
-/

namespace RoomRelay.Text

/-- The octets of one character. -/
def Utf8.octets (c : Char) : List UInt8 :=
  let n := c.toNat
  if n < 0x80 then [n.toUInt8]
  else if n < 0x800 then [(0xC0 + n / 64).toUInt8, (0x80 + n % 64).toUInt8]
  else if n < 0x10000 then
    [(0xE0 + n / 4096).toUInt8, (0x80 + n / 64 % 64).toUInt8, (0x80 + n % 64).toUInt8]
  else
    [(0xF0 + n / 262144).toUInt8, (0x80 + n / 4096 % 64).toUInt8,
      (0x80 + n / 64 % 64).toUInt8, (0x80 + n % 64).toUInt8]

/-- The octets of a text. -/
def utf8 (s : String) : List UInt8 :=
  s.toList.flatMap Utf8.octets

/-- What a first octet announces: the number of octets that follow, the bounds of the next one,
and the bits it gives to the character. -/
def Utf8.lead? (b : UInt8) : Option (Nat × UInt8 × UInt8 × Nat) :=
  if b < 0x80 then some (0, 0, 0, b.toNat)
  else if 0xC2 ≤ b ∧ b ≤ 0xDF then some (1, 0x80, 0xBF, b.toNat - 0xC0)
  else if b = 0xE0 then some (2, 0xA0, 0xBF, 0)
  else if b = 0xED then some (2, 0x80, 0x9F, 13)
  else if 0xE1 ≤ b ∧ b ≤ 0xEF then some (2, 0x80, 0xBF, b.toNat - 0xE0)
  else if b = 0xF0 then some (3, 0x90, 0xBF, 0)
  else if 0xF1 ≤ b ∧ b ≤ 0xF3 then some (3, 0x80, 0xBF, b.toNat - 0xF0)
  else if b = 0xF4 then some (3, 0x80, 0x8F, 4)
  else none

/-- Where the reader stands between octets: how many are still owed, the bounds of the next
one, and the bits gathered so far. -/
structure Utf8.Pending where
  owed : Nat := 0
  low : UInt8 := 0x80
  high : UInt8 := 0xBF
  bits : Nat := 0

/-- Reads octets as text. A run that cannot be completed is answered by `spoiled`, which either
ends the reading (`none`) or says what to put in its place. -/
def Utf8.read (spoiled : Option (List Char)) : Utf8.Pending → List Char → List UInt8 →
    Option (List Char)
  | p, acc, [] =>
    if p.owed = 0 then some acc.reverse else spoiled.map fun cs => acc.reverse ++ cs
  | p, acc, b :: bs =>
    if p.owed = 0 then
      match Utf8.lead? b with
      | some (0, _, _, bits) => Utf8.read spoiled {} (Char.ofNat bits :: acc) bs
      | some (owed, low, high, bits) => Utf8.read spoiled ⟨owed, low, high, bits⟩ acc bs
      | none =>
        match spoiled with
        | some cs => Utf8.read spoiled {} (cs.reverse ++ acc) bs
        | none => none
    else if p.low ≤ b ∧ b ≤ p.high then
      let bits := p.bits * 64 + (b.toNat - 0x80)
      if p.owed = 1 then Utf8.read spoiled {} (Char.ofNat bits :: acc) bs
      else Utf8.read spoiled ⟨p.owed - 1, 0x80, 0xBF, bits⟩ acc bs
    else
      match spoiled with
      | none => none
      | some cs =>
        let acc := cs.reverse ++ acc
        match Utf8.lead? b with
        | some (0, _, _, bits) => Utf8.read spoiled {} (Char.ofNat bits :: acc) bs
        | some (owed, low, high, bits) => Utf8.read spoiled ⟨owed, low, high, bits⟩ acc bs
        | none => Utf8.read spoiled {} (cs.reverse ++ acc) bs

/-- The text that octets spell, if they follow the syntax throughout. -/
def utf8Text? (bytes : List UInt8) : Option String :=
  (Utf8.read none {} [] bytes).map String.ofList

/-- The text that octets spell, with the given characters in place of what follows no syntax. -/
def mended (spoiled : List Char) (bytes : List UInt8) : String :=
  String.ofList ((Utf8.read (some spoiled) {} [] bytes).getD [])

/-- The text that octets spell, with U+FFFD in place of what follows no syntax. -/
def repaired (bytes : List UInt8) : String :=
  mended [Char.ofNat 0xFFFD] bytes

def byteSize (s : String) : Nat :=
  s.utf8ByteSize

end RoomRelay.Text
