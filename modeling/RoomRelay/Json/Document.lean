import RoomRelay.Text.Digits
import RoomRelay.Text.Utf8

/-!
JSON text as written. `Document.read?` checks the grammar and keeps what was written, at any
depth: numerals as their digits, and strings as their text, or as `none` where an escape names
half of a surrogate pair alone and no text exists. What of a document is later kept as a value,
and under which limits, is decided by its readers. `Document.readOctets?` reads octets that need
not spell a text: strings are the only place where they may fail to, and have no text then.
-/

namespace RoomRelay.Json

/-- A numeral as written. -/
structure Numeral where
  negative : Bool
  whole : List Nat
  /-- The digits after the point, when there is one. -/
  fraction : Option (List Nat)
  /-- Whether the exponent is negative, and its digits, when there is one. -/
  exponent : Option (Bool × List Nat)
deriving DecidableEq, Repr

/-- A JSON text. -/
inductive Document where
  | null
  | bool (b : Bool)
  | number (n : Numeral)
  | string (text : Option String)
  | array (items : List Document)
  | object (members : List (Option String × Document))

namespace Document

/-- The blanks that may stand between tokens. -/
def isSpace (c : Char) : Bool :=
  c == ' ' || c == '\t' || c == '\n' || c == '\r'

/-- What follows the blanks at the front. -/
def skipSpace : List Char → List Char
  | c :: cs => if isSpace c then skipSpace cs else c :: cs
  | [] => []

/-- The decimal digits at the front, and the rest. -/
def digits : List Nat → List Char → List Nat × List Char
  | acc, [] => (acc.reverse, [])
  | acc, c :: cs =>
    match Text.decimalValue? c with
    | some d => digits (d :: acc) cs
    | none => (acc.reverse, c :: cs)

/-- The integer part of a numeral: one zero, or digits that do not start with one. -/
def readWhole (cs : List Char) : Option (List Nat × List Char) :=
  match digits [] cs with
  | ([], _) => none
  | (0 :: _ :: _, _) => none
  | (ds, rest) => some (ds, rest)

/-- The fraction of a numeral, when a point follows. -/
def readFraction : List Char → Option (Option (List Nat) × List Char)
  | '.' :: cs =>
    match digits [] cs with
    | ([], _) => none
    | (ds, rest) => some (some ds, rest)
  | cs => some (none, cs)

/-- The exponent of a numeral, when an `e` follows. -/
def readExponent : List Char → Option (Option (Bool × List Nat) × List Char)
  | c :: cs =>
    if c = 'e' ∨ c = 'E' then
      let (negative, cs) :=
        match cs with
        | '+' :: cs => (false, cs)
        | '-' :: cs => (true, cs)
        | cs => (false, cs)
      match digits [] cs with
      | ([], _) => none
      | (ds, rest) => some (some (negative, ds), rest)
    else some (none, c :: cs)
  | [] => some (none, [])

/-- A numeral after its sign. -/
def readNumeral (negative : Bool) (cs : List Char) : Option (Numeral × List Char) := do
  let (whole, cs) ← readWhole cs
  let (fraction, cs) ← readFraction cs
  let (exponent, cs) ← readExponent cs
  return (⟨negative, whole, fraction, exponent⟩, cs)

/-- The code of a `\u` escape after the `u`. -/
def readCode : List Char → Option (Nat × List Char)
  | a :: b :: c :: d :: cs => (Text.readHex? [a, b, c, d]).map (·, cs)
  | _ => none

/-- The character that one letter after a backslash stands for. -/
def escaped? : Char → Option Char
  | '"' => some '"'
  | '\\' => some '\\'
  | '/' => some '/'
  | 'b' => some '\x08'
  | 'f' => some '\x0c'
  | 'n' => some '\n'
  | 'r' => some '\r'
  | 't' => some '\t'
  | _ => none

/-- What reading a string has gathered: its characters in reverse, unless some escape was half
of a surrogate pair alone, and a first half that waits for its second. -/
structure Gathered where
  text : Option (List Char) := some []
  half : Option Nat := none

/-- One more character. A first half that waited stays alone. -/
def Gathered.push (g : Gathered) (c : Char) : Gathered :=
  match g.half with
  | none => ⟨g.text.map (c :: ·), none⟩
  | some _ => ⟨none, none⟩

/-- One more `\u` escape. -/
def Gathered.pushCode (g : Gathered) (code : Nat) : Gathered :=
  if 0xDC00 ≤ code ∧ code ≤ 0xDFFF then
    match g.half with
    | some first =>
      ⟨g.text.map (Char.ofNat (0x10000 + (first - 0xD800) * 0x400 + (code - 0xDC00)) :: ·), none⟩
    | none => ⟨none, none⟩
  else if 0xD800 ≤ code ∧ code ≤ 0xDBFF then
    match g.half with
    | none => ⟨g.text, some code⟩
    | some _ => ⟨none, some code⟩
  else g.push (Char.ofNat code)

/-- The text gathered when the string ends. -/
def Gathered.close (g : Gathered) : Option String :=
  match g.half with
  | none => g.text.map fun cs => String.ofList cs.reverse
  | some _ => none

/-- A string after its opening quote. Control characters must be escaped. -/
def readString (fuel : Nat) (g : Gathered) (cs : List Char) :
    Option (Option String × List Char) :=
  match fuel, cs with
  | _, [] => none
  | 0, _ => none
  | fuel + 1, c :: cs =>
    if c = '"' then some (g.close, cs)
    else if c = '\\' then
      match cs with
      | 'u' :: cs =>
        match readCode cs with
        | some (code, rest) => readString fuel (g.pushCode code) rest
        | none => none
      | e :: cs =>
        match escaped? e with
        | some ch => readString fuel (g.push ch) cs
        | none => none
      | [] => none
    else if c.toNat < 0x20 then none
    else readString fuel (g.push c) cs

/-- The word that must follow, and the document it stands for. -/
def readWord (word : List Char) (d : Document) (cs : List Char) :
    Option (Document × List Char) :=
  if word.isPrefixOf cs then some (d, cs.drop word.length) else none

mutual

/-- One document at the front, and what follows it. -/
def readValue : Nat → List Char → Option (Document × List Char)
  | 0, _ => none
  | fuel + 1, cs =>
    match skipSpace cs with
    | [] => none
    | c :: cs =>
      if c = '"' then (readString fuel {} cs).map fun (s, rest) => (.string s, rest)
      else if c = '[' then
        match skipSpace cs with
        | ']' :: rest => some (.array [], rest)
        | cs => readItems fuel [] cs
      else if c = '{' then
        match skipSpace cs with
        | '}' :: rest => some (.object [], rest)
        | cs => readMembers fuel [] cs
      else if c = 'n' then readWord ['u', 'l', 'l'] .null cs
      else if c = 't' then readWord ['r', 'u', 'e'] (.bool true) cs
      else if c = 'f' then readWord ['a', 'l', 's', 'e'] (.bool false) cs
      else if c = '-' then (readNumeral true cs).map fun (n, rest) => (.number n, rest)
      else (readNumeral false (c :: cs)).map fun (n, rest) => (.number n, rest)

/-- The items of an array after its bracket, or after a comma. -/
def readItems : Nat → List Document → List Char → Option (Document × List Char)
  | 0, _, _ => none
  | fuel + 1, acc, cs =>
    match readValue fuel cs with
    | none => none
    | some (d, cs) =>
      match skipSpace cs with
      | ',' :: cs => readItems fuel (d :: acc) cs
      | ']' :: cs => some (.array (d :: acc).reverse, cs)
      | _ => none

/-- The members of an object after its brace, or after a comma. -/
def readMembers : Nat → List (Option String × Document) → List Char →
    Option (Document × List Char)
  | 0, _, _ => none
  | fuel + 1, acc, cs =>
    match skipSpace cs with
    | '"' :: cs =>
      match readString fuel {} cs with
      | none => none
      | some (key, cs) =>
        match skipSpace cs with
        | ':' :: cs =>
          match readValue fuel cs with
          | none => none
          | some (d, cs) =>
            match skipSpace cs with
            | ',' :: cs => readMembers fuel ((key, d) :: acc) cs
            | '}' :: cs => some (.object ((key, d) :: acc).reverse, cs)
            | _ => none
        | _ => none
    | _ => none

end

/-- The document at the front of a text, and what follows it. -/
def readFront? (cs : List Char) : Option (Document × List Char) :=
  readValue (2 * cs.length + 2) cs

/-- The document that a text holds, with nothing but blanks around it. -/
def read? (s : String) : Option Document :=
  match readFront? s.toList with
  | some (d, rest) => if (skipSpace rest).isEmpty then some d else none
  | none => none

/-- What stands for octets that spell no character: a character with the escape of half a
surrogate pair behind it. A string with that in it has no text, and nothing but a string may have
it. The character keeps the escape from what is before: a backslash, or the other half. -/
def unspelled : List Char :=
  [Char.ofNat 0xFFFD, '\\', 'u', 'd', 'c', '0', '0']

/-- The document that octets hold. -/
def readOctets? (os : List UInt8) : Option Document :=
  read? (Text.mended unspelled os)

end Document

end RoomRelay.Json
