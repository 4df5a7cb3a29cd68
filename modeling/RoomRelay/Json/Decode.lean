import RoomRelay.Json.Numeral

/-!
Reading typed values out of documents. A reader gets the number of levels that may still be
opened and either answers a value or names the fault: the text is malformed, or it is well formed
and does not fit. Text that is kept must be text, and numbers that are kept must have a value;
what a record does not know is passed over whatever it holds.
-/

namespace RoomRelay.Json

/-- Why a text was refused. -/
inductive Fault where
  /-- The text is no JSON, or holds a string, number or depth that no value has. -/
  | malformed
  /-- The text is JSON of another shape. -/
  | misfit
deriving DecidableEq, Repr

/-- A reader of documents under a number of levels that may be opened. -/
abbrev Decoder (α : Type) := Nat → Document → Except Fault α

/-- The number of levels a whole text may open. -/
def levelLimit : Nat := 127

mutual

/-- The number of arrays and objects one inside another. -/
def Document.depth : Document → Nat
  | .array items => Document.depthItems items + 1
  | .object members => Document.depthMembers members + 1
  | _ => 0

/-- The greatest depth among documents. -/
def Document.depthItems : List Document → Nat
  | [] => 0
  | d :: rest => max d.depth (Document.depthItems rest)

/-- The greatest depth among the documents of members. -/
def Document.depthMembers : List (Option String × Document) → Nat
  | [] => 0
  | (_, d) :: rest => max d.depth (Document.depthMembers rest)

end

mutual

/-- The free-form value a document holds, when all its strings are text and all its numbers
have a value. -/
def Document.value? : Document → Option Value
  | .null => some .null
  | .bool b => some (.bool b)
  | .number n => n.number?.map .number
  | .string text => text.map .string
  | .array items => (Document.valueItems? items).map .array
  | .object members => (Document.valueMembers? [] members).map .object

/-- The values of documents. -/
def Document.valueItems? : List Document → Option (List Value)
  | [] => some []
  | d :: rest =>
    match d.value?, Document.valueItems? rest with
    | some v, some vs => some (v :: vs)
    | _, _ => none

/-- The members gathered so far with those of an object. -/
def Document.valueMembers? (acc : Members) : List (Option String × Document) → Option Members
  | [] => some acc
  | (key, d) :: rest =>
    match key, d.value? with
    | some key, some v => Document.valueMembers? (acc.set key v) rest
    | _, _ => none

end

namespace Decode

/-- The fault of a document of another shape. A number or a string is read before its shape is
held against it, so one without a value is malformed. -/
def unfit : Document → Fault
  | .number n => if n.number?.isSome then .misfit else .malformed
  | .string none => .malformed
  | _ => .misfit

/-- A free-form value. -/
def value : Decoder Value := fun levels d =>
  if levels < d.depth then .error .malformed
  else
    match d.value? with
    | some v => .ok v
    | none => .error .malformed

def members : Decoder Members := fun levels d =>
  match d with
  | .object _ =>
    match value levels d with
    | .ok (.object ms) => .ok ms
    | .ok _ => .error .misfit
    | .error f => .error f
  | d => .error (unfit d)

def text : Decoder String
  | _, .string (some s) => .ok s
  | _, d => .error (unfit d)

def bool : Decoder Bool
  | _, .bool b => .ok b
  | _, d => .error (unfit d)

/-- A whole number between bounds. -/
def whole (least greatest : Int) : Decoder Int
  | _, .number n =>
    match n.number? with
    | some (.whole i) => if least ≤ i ∧ i ≤ greatest then .ok i else .error .misfit
    | some (.double _) => .error .misfit
    | none => .error .malformed
  | _, d => .error (unfit d)

/-- A whole number of so many bits without a sign. -/
def unsigned (bits : Nat) : Decoder Nat := fun levels d =>
  (whole 0 (Word.span bits - 1) levels d).map Int.toNat

/-- A whole number of 64 bits with a sign. -/
def int64 : Decoder Int :=
  whole (-(Word.span 63 : Int)) (Word.span 63 - 1)

/-- A text that a further reader understands. -/
def parsed {α : Type} (parse? : String → Option α) : Decoder α := fun levels d =>
  match text levels d with
  | .ok s =>
    match parse? s with
    | some a => .ok a
    | none => .error .misfit
  | .error f => .error f

/-- Null, or what the given reader reads. -/
def nullable {α : Type} (decode : Decoder α) : Decoder (Option α)
  | _, .null => .ok none
  | levels, d => (decode levels d).map some

def list {α : Type} (decode : Decoder α) : Decoder (List α)
  | 0, .array _ => .error .malformed
  | levels + 1, .array items => items.mapM (decode levels)
  | _, d => .error (unfit d)

/-- One of several words, given as a text or as the only key of an object that holds null. -/
def word {α : Type} (known? : String → Option α) : Decoder α
  | levels, .string s => parsed known? levels (.string s)
  | _, .object ((some key, content) :: rest) =>
    match known? key, content with
    | some a, .null => if rest.isEmpty then .ok a else .error .malformed
    | some _, content => .error (unfit content)
    | none, _ => .error .misfit
  | _, _ => .error .malformed

/-- The fields of a record as they were given, and the levels that its fields may open. -/
structure Fields where
  /-- Whether the fields were given by position. -/
  listed : Bool
  levels : Nat
  given : List (String × Document)

/-- The known fields among the members of an object. One given twice does not fit. -/
def knownFields (names : List String) :
    List (Option String × Document) → List (String × Document) →
      Except Fault (List (String × Document))
  | [], acc => .ok acc
  | (none, _) :: _, _ => .error .malformed
  | (some key, d) :: rest, acc =>
    if names.contains key then
      if (acc.lookup key).isSome then .error .misfit
      else knownFields names rest ((key, d) :: acc)
    else knownFields names rest acc

/-- A record, given as an object or as the list of its fields in order. -/
def fields (names : List String) : Decoder Fields
  | 0, .array _ | 0, .object _ => .error .malformed
  | levels + 1, .object ms => (knownFields names ms []).map (⟨false, levels, ·⟩)
  | levels + 1, .array items =>
    if names.length < items.length then .error .malformed
    else .ok ⟨true, levels, names.zip items⟩
  | _, d => .error (unfit d)

namespace Fields

def required {α : Type} (f : Fields) (name : String) (decode : Decoder α) : Except Fault α :=
  match f.given.lookup name with
  | some d => decode f.levels d
  | none => .error .misfit

/-- A field that has a value of its own when it is not given. -/
def withDefault {α : Type} (f : Fields) (name : String) (decode : Decoder α) (absent : α) :
    Except Fault α :=
  match f.given.lookup name with
  | some d => decode f.levels d
  | none => .ok absent

/-- A field that may be absent or null. -/
def optional {α : Type} (f : Fields) (name : String) (decode : Decoder α) :
    Except Fault (Option α) :=
  f.withDefault name (nullable decode) none

/-- A field that may be absent or null, but must have its place in a list of fields. -/
def placed {α : Type} (f : Fields) (name : String) (decode : Decoder α) :
    Except Fault (Option α) :=
  if f.listed then f.required name (nullable decode) else f.optional name decode

end Fields

/-- What a reader makes of a whole text. -/
def run {α : Type} (decode : Decoder α) (s : String) : Except Fault α :=
  match Document.read? s with
  | some d => decode levelLimit d
  | none => .error .malformed

/-- What a reader makes of octets. -/
def runOctets {α : Type} (decode : Decoder α) (os : List UInt8) : Except Fault α :=
  match Document.readOctets? os with
  | some d => decode levelLimit d
  | none => .error .malformed

/-- What a reader makes of the document at the front of a text, whatever follows it. -/
def runFront {α : Type} (decode : Decoder α) (s : String) : Except Fault α :=
  match Document.readFront? s.toList with
  | some (d, _) => decode levelLimit d
  | none => .error .malformed

end Decode

end RoomRelay.Json
