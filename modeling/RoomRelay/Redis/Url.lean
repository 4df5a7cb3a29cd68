import RoomRelay.Text.Percent

/-!
The URLs that name a Redis server, taken apart under the rules of the URL standard for schemes
it does not know: blanks at the ends and line breaks anywhere do not count, the user information
ends at the last `@` before the path, and the host stands as written unless it is an IPv6
address.
-/

namespace RoomRelay.Redis

open Text

/-- A URL taken apart. -/
structure Url where
  scheme : String
  user : String := ""
  password : Option String := none
  host : Option String := none
  port : Option Nat := none
  /-- The path, or `none` when it does not start with a slash and has no parts. -/
  path : Option String := none
  query : String := ""

namespace Url

/-- The text without control characters and spaces at its ends, and without tabs and line
breaks. -/
def cleaned (cs : List Char) : List Char :=
  let control (c : Char) : Bool := c.toNat ≤ 0x20
  let ends := (((cs.dropWhile control).reverse).dropWhile control).reverse
  ends.filter fun c => c ≠ '\t' && c ≠ '\n' && c ≠ '\r'

/-- The scheme in small letters, and what follows its colon. -/
def readScheme (cs : List Char) : Option (String × List Char) :=
  match cutFirst? ':' cs with
  | some (c :: name, rest) =>
    if c.isAlpha && name.all fun d => d.isAlphanum || d == '+' || d == '-' || d == '.' then
      some (lowered (String.ofList (c :: name)), rest)
    else none
  | _ => none

/-- Whether a character ends the authority. -/
def endsAuthority (c : Char) : Bool := c == '/' || c == '?' || c == '#'

/-- The host at the front and what follows it. A colon inside brackets belongs to the host. -/
def spanHost : Bool → List Char → List Char × List Char
  | _, [] => ([], [])
  | bracketed, c :: cs =>
    if (c == ':' && !bracketed) then ([], c :: cs)
    else
      let (host, rest) := spanHost (if c = '[' then true else if c = ']' then false else bracketed) cs
      (c :: host, rest)

/-! ### IPv6 addresses -/

/-- The eight groups written, a run of two or more zero groups as `::`, the first longest. -/
def groupsText (groups : List Nat) : String :=
  let hex (n : Nat) : String :=
    let digits := (fixedDigits 16 4 n).dropWhile (· == '0')
    String.ofList (if digits.isEmpty then ['0'] else digits)
  let runAt (i : Nat) : Nat := ((groups.drop i).takeWhile (· == 0)).length
  let best := (List.range 8).foldl (fun b i => if runAt b < runAt i then i else b) 0
  let joined (gs : List Nat) : String := ":".intercalate (gs.map hex)
  match groups with
  | [0, 0, 0, 0, 0, 0xffff, a, b] =>
    let octet (n : Nat) : String := decimalText n
    "::ffff:" ++ octet (a / 256) ++ "." ++ octet (a % 256) ++ "." ++ octet (b / 256) ++ "." ++
      octet (b % 256)
  | _ =>
    if runAt best < 2 then joined groups
    else joined (groups.take best) ++ "::" ++ joined (groups.drop (best + runAt best))

/-- The number of a group of one to four hexadecimal digits. -/
def group? (cs : List Char) : Option Nat :=
  if cs.isEmpty ∨ 4 < cs.length then none else readHex? cs

/-- The two groups of an IPv4 address. -/
def dotted? (cs : List Char) : Option (List Nat) :=
  match (pieces '.' cs).map readDecimal? with
  | [some a, some b, some c, some d] =>
    let plain := (pieces '.' cs).all fun p => p.length = 1 || p.head? != some '0'
    if plain && [a, b, c, d].all (· < 256) then some [a * 256 + b, c * 256 + d] else none
  | _ => none

/-- The groups between single colons, of which the last may be an IPv4 address. -/
def groups? (cs : List Char) : Option (List Nat) :=
  if cs.isEmpty then some []
  else
    let parts := pieces ':' cs
    let last := parts.getLastD []
    if last.contains '.' then
      match parts.dropLast.mapM group?, dotted? last with
      | some gs, some ds => some (gs ++ ds)
      | _, _ => none
    else parts.mapM group?

/-- The address between brackets. -/
def readAddress (cs : List Char) : Option String :=
  match cutAt? [':', ':'] cs with
  | none =>
    (groups? cs).bind fun gs => if gs.length = 8 then some (groupsText gs) else none
  | some (before, after) =>
    match groups? before, groups? after with
    | some bs, some as =>
      if bs.length + as.length < 8 then
        some (groupsText (bs ++ List.replicate (8 - bs.length - as.length) 0 ++ as))
      else none
    | _, _ => none

/-! ### Hosts, ports and paths -/

/-- Characters that no host may hold. -/
def isForbidden (c : Char) : Bool :=
  "\x00\t\n\r #/:<>?@[\\]^|".toList.contains c

/-- The host of a text. -/
def readHost (cs : List Char) : Option String :=
  match cs with
  | '[' :: rest =>
    if rest.getLast? = some ']' then readAddress rest.dropLast else none
  | _ =>
    if cs.any isForbidden then none
    else
      some (Percent.encode (fun c => 0x20 ≤ c.toNat && c.toNat < 0x7F) (String.ofList cs))

/-- The port of a text, of which none may be given. -/
def readPort (cs : List Char) : Option (Option Nat) :=
  if cs.isEmpty then some none
  else (readDecimal? cs).bind fun n => if n < 65536 then some (some n) else none

def isDot (part : String) : Bool :=
  [".", "%2e"].contains (lowered part)

def isDotDot (part : String) : Bool :=
  ["..", ".%2e", "%2e.", "%2e%2e"].contains (lowered part)

/-- The parts of a path with dots carried out. -/
def carried : List String → List String → List String
  | acc, [] => acc.reverse
  | acc, [part] =>
    if isDotDot part then ("" :: acc.drop 1).reverse
    else if isDot part then ("" :: acc).reverse
    else (part :: acc).reverse
  | acc, part :: rest =>
    if isDotDot part then carried (acc.drop 1) rest
    else if isDot part then carried acc rest
    else carried (part :: acc) rest

/-- Whether a character of a path stands for itself. -/
def isPathChar (c : Char) : Bool :=
  0x20 < c.toNat && c.toNat < 0x7F && !("\"#<>?`{}".toList.contains c)

/-- The path after its first slash. -/
def pathText (cs : List Char) : String :=
  let parts := (pieces '/' cs).map fun p => Percent.encode isPathChar (String.ofList p)
  "/" ++ "/".intercalate (carried [] parts)

/-- The part before the fragment and query, and the query. -/
def cutQuery (cs : List Char) : List Char × String :=
  let whole := cs.takeWhile (· ≠ '#')
  match cutFirst? '?' whole with
  | some (path, query) => (path, String.ofList query)
  | none => (whole, "")

/-- What follows two slashes: user information, host, port and path. -/
def readAuthority (scheme : String) (cs : List Char) : Option Url := do
  let authority := cs.takeWhile (!endsAuthority ·)
  let rest := cs.drop authority.length
  let (info, place) := (cutLast? '@' authority).getD ([], authority)
  let (user, password) :=
    match cutFirst? ':' info with
    | some (u, p) => (u, if p.isEmpty then none else some (String.ofList p))
    | none => (info, none)
  let (hostChars, afterHost) := spanHost false place
  let host ← readHost hostChars
  let port ←
    match afterHost with
    | ':' :: digits => if hostChars.isEmpty then none else readPort digits
    | _ => some none
  if host.isEmpty ∧ (¬info.isEmpty ∨ authority.contains '@') then none
  let (path, query) := cutQuery rest
  let path :=
    match path with
    | '/' :: p => some (pathText p)
    | _ => none
  return { scheme, user := String.ofList user, password,
           host := if host.isEmpty then none else some host, port, path, query }

/-- A URL taken apart. -/
def read (s : String) : Option Url := do
  let (scheme, rest) ← readScheme (cleaned s.toList)
  match afterPrefix? ['/', '/'] rest with
  | some authority => readAuthority scheme authority
  | none =>
    let (path, query) := cutQuery rest
    match path with
    | '/' :: p => return { scheme, path := some (pathText p), query }
    | _ => return { scheme, query }

end Url

end RoomRelay.Redis
