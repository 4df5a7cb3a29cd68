import RoomRelay.Text.Blank

/-!
Media types: what the `content-type` of a message says about its body. A type is a kind and a
name with a slash between, `application/json`; a name may end in a suffix that tells what it
builds on, `vnd.api+json`. Parameters may follow; nothing is made of them, but a type with
ill-formed parameters is none.
-/

namespace RoomRelay.Http

open Text

/-- Whether a character may stand in the names of headers and media types. -/
def isNameChar (c : Char) : Bool :=
  c.isAlphanum || "!#$&-^_.+%*'`|~".toList.contains c

/-- A media type in small letters. -/
structure MediaType where
  kind : String
  /-- The name without its suffix. -/
  name : String
  /-- What follows the last plus sign of the name. -/
  suffix : Option String
deriving DecidableEq

namespace MediaType

/-- What may come next among parameters. -/
inductive Awaited where
  /-- A name, or blanks before it. -/
  | name
  /-- The rest of a name, or the sign after it. -/
  | restOfName
  | value
  | restOfValue
  /-- The first character between quotes. -/
  | quoted
  /-- Further characters between quotes, or the closing one. -/
  | restOfQuoted
  /-- The end of a parameter whose value stood between quotes. -/
  | separator
deriving DecidableEq

/-- Whether a character may stand between quotes. -/
def isQuotable (c : Char) : Bool := 0x20 ≤ c.toNat && c.toNat != 0x7F

/-- Whether a text is well-formed where the given is awaited. -/
def areParameters : Awaited → List Char → Bool
  | a, [] => [.name, .value, .restOfValue, .separator].contains a
  | .name, c :: cs =>
    if c = ' ' then areParameters .name cs else isNameChar c && areParameters .restOfName cs
  | .restOfName, c :: cs =>
    if c = '=' then areParameters .value cs else isNameChar c && areParameters .restOfName cs
  | .value, c :: cs =>
    if c = '"' then areParameters .quoted cs else isNameChar c && areParameters .restOfValue cs
  | .restOfValue, c :: cs =>
    if c = ';' then areParameters .name cs else isNameChar c && areParameters .restOfValue cs
  | .quoted, c :: cs => isQuotable c && areParameters .restOfQuoted cs
  | .restOfQuoted, c :: cs =>
    if c = '"' then areParameters .separator cs
    else isQuotable c && areParameters .restOfQuoted cs
  | .separator, c :: cs =>
    if c = ';' then areParameters .name cs else c = ' ' && areParameters .separator cs

/-- The type of a kind and a name with its suffix. A plus sign at the front belongs to the
name. -/
def ofParts (kind name : List Char) : MediaType :=
  let small (cs : List Char) : String := lowered (String.ofList cs)
  match cutLast? '+' name with
  | some (c :: before, suffix) => ⟨small kind, small (c :: before), some (small suffix)⟩
  | _ => ⟨small kind, small name, none⟩

/-- The media type of a text. A semicolon or a blank comes before the parameters. -/
def parse? (s : String) : Option MediaType :=
  match cutFirst? '/' s.toList with
  | none => none
  | some (kind, rest) =>
    let name := rest.takeWhile isNameChar
    let ends :=
      match rest.drop name.length with
      | [] => true
      | c :: parameters =>
        (c = ';' || c = ' ') && !name.isEmpty && areParameters .name parameters
    if !kind.isEmpty && kind.all isNameChar && ends then some (ofParts kind name) else none

/-- Whether a body of the type is JSON. -/
def isJson (m : MediaType) : Bool :=
  m.kind = "application" && (m.name = "json" || m.suffix = some "json")

end MediaType

end RoomRelay.Http
