import RoomRelay.Number.Shortest
import RoomRelay.Number.Word

/-!
JSON values. Numbers are whole numbers or doubles. The members of an object are written in the
order they stand in: records keep the order of their fields, free-form objects the order of
their keys, and `Value.arranged` brings a value from the first form to the second.
`Value.render` writes a value without blanks.
-/

namespace RoomRelay.Json

/-- A number: whole, or binary floating-point. -/
inductive Number where
  | whole (n : Int)
  | double (x : Binary64)
deriving DecidableEq, Repr

inductive Value where
  | null
  | bool (b : Bool)
  | number (n : Number)
  | string (s : String)
  | array (items : List Value)
  | object (members : List (String × Value))

abbrev Members := List (String × Value)

namespace Members

/-- Sets a member among members in the order of their keys; a member that stood under the key
goes. -/
def set (key : String) (v : Value) : Members → Members
  | [] => [(key, v)]
  | (k, w) :: rest =>
    if key = k then (key, v) :: rest
    else if key < k then (key, v) :: (k, w) :: rest
    else (k, w) :: set key v rest

/-- The members of a list in the order of their keys; of two under one key the later stays. -/
def ofList (members : List (String × Value)) : Members :=
  members.foldl (fun acc m => set m.1 m.2 acc) []

/-- The value under a key. -/
def get? (key : String) (members : Members) : Option Value :=
  List.lookup key members

end Members

namespace Value

def int (n : Int) : Value := .number (.whole n)

/-- A free-form object with the given members. -/
def ofMembers (members : List (String × Value)) : Value :=
  .object (Members.ofList members)

/-- The member of an object under a key. Other values have none. -/
def get? (key : String) : Value → Option Value
  | .object members => Members.get? key members
  | _ => none

def asText? : Value → Option String
  | .string s => some s
  | _ => none

def asBool? : Value → Option Bool
  | .bool b => some b
  | _ => none

/-- The number, when the value is a whole one that fits in 64 bits with a sign. -/
def asInt64? : Value → Option Int
  | .number (.whole n) => if Word.IsSigned n then some n else none
  | _ => none

mutual

/-- The value with the members of every object in the order of their keys. -/
def arranged : Value → Value
  | .array items => .array (arrangedItems items)
  | .object members => .object (Members.ofList (arrangedMembers members))
  | v => v

def arrangedItems : List Value → List Value
  | [] => []
  | v :: rest => v.arranged :: arrangedItems rest

/-- The values of members arranged, the members left in place. -/
def arrangedMembers : List (String × Value) → List (String × Value)
  | [] => []
  | (k, v) :: rest => (k, v.arranged) :: arrangedMembers rest

end

mutual

/-- The number of arrays and objects one inside another. -/
def depth : Value → Nat
  | .array items => depthItems items + 1
  | .object members => depthMembers members + 1
  | _ => 0

def depthItems : List Value → Nat
  | [] => 0
  | v :: rest => max v.depth (depthItems rest)

def depthMembers : List (String × Value) → Nat
  | [] => 0
  | (_, v) :: rest => max v.depth (depthMembers rest)

end

end Value

/-- The characters that stand for one character inside quotes: quotes, backslashes and control
characters are escaped, all else stands for itself. -/
def escape (c : Char) : List Char :=
  if c = '"' then ['\\', '"']
  else if c = '\\' then ['\\', '\\']
  else if c = '\x08' then ['\\', 'b']
  else if c = '\t' then ['\\', 't']
  else if c = '\n' then ['\\', 'n']
  else if c = '\x0c' then ['\\', 'f']
  else if c = '\r' then ['\\', 'r']
  else if c.toNat < 0x20 then ['\\', 'u'] ++ Text.fixedDigits 16 4 c.toNat
  else [c]

def quoted (s : String) : List Char :=
  '"' :: (s.toList.flatMap escape ++ ['"'])

/-- A double: positional from `1e-5` up to `1e16`, always with a point, and with an exponent
beyond. -/
def renderDouble (x : Binary64) : List Char :=
  let sign := if x.negative then ['-'] else []
  if x.isZero then sign ++ ['0', '.', '0']
  else
    let (point, power) := x.shortest
    let digits := Text.decimal point
    let leading : Int := digits.length + power
    sign ++
      if 0 ≤ power ∧ leading ≤ 16 then
        digits ++ List.replicate power.natAbs '0' ++ ['.', '0']
      else if 0 < leading ∧ leading ≤ 16 then
        digits.take leading.natAbs ++ '.' :: digits.drop leading.natAbs
      else if -5 < leading ∧ leading ≤ 0 then
        ['0', '.'] ++ List.replicate leading.natAbs '0' ++ digits
      else
        let fraction := if digits.length ≤ 1 then [] else '.' :: digits.drop 1
        let e := leading - 1
        digits.take 1 ++ fraction ++ 'e' :: (if 0 ≤ e then '+' :: Text.decimal e.natAbs
          else '-' :: Text.decimal e.natAbs)

def Number.render : Number → List Char
  | .whole n => Text.integer n
  | .double x => renderDouble x

mutual

/-- A value as written, followed by `tail`. -/
def Value.renderOnto : Value → List Char → List Char
  | .null, tail => 'n' :: 'u' :: 'l' :: 'l' :: tail
  | .bool true, tail => 't' :: 'r' :: 'u' :: 'e' :: tail
  | .bool false, tail => 'f' :: 'a' :: 'l' :: 's' :: 'e' :: tail
  | .number n, tail => n.render ++ tail
  | .string s, tail => quoted s ++ tail
  | .array items, tail => '[' :: Value.renderItems items (']' :: tail)
  | .object members, tail => '{' :: Value.renderMembers members ('}' :: tail)

/-- Values with commas between them, followed by `tail`. -/
def Value.renderItems : List Value → List Char → List Char
  | [], tail => tail
  | [v], tail => v.renderOnto tail
  | v :: w :: rest, tail => v.renderOnto (',' :: Value.renderItems (w :: rest) tail)

/-- Members with commas between them, followed by `tail`. -/
def Value.renderMembers : List (String × Value) → List Char → List Char
  | [], tail => tail
  | [(k, v)], tail => quoted k ++ ':' :: v.renderOnto tail
  | (k, v) :: m :: rest, tail =>
    quoted k ++ ':' :: v.renderOnto (',' :: Value.renderMembers (m :: rest) tail)

end

/-- A value as written, without blanks. -/
def Value.render (v : Value) : String :=
  String.ofList (v.renderOnto [])

end RoomRelay.Json
