import RoomRelay.Number.Word
import RoomRelay.Redis.Url

/-!
Where a Redis server is found, and how a URL that may hold a password is told: `redactUrl` puts
stars in the place of the password, and `Address.label` names the place alone.
-/

namespace RoomRelay.Redis

open Text

/-- The place of a server. -/
inductive Place where
  | tcp (host : String) (port : Nat)
  | socket (path : String)
deriving DecidableEq

def Place.label : Place → String
  | tcp host port => host ++ ":" ++ decimalText port
  | socket path => "unix:" ++ path

/-- A server with the database and the credentials to use on it. -/
structure Address where
  place : Place
  database : Int := 0
  user : Option String := none
  password : Option String := none

namespace Address

/-- The port of a server that names none. -/
def defaultPort : Nat := 6379

/-- The number of a database, which fits in 64 bits with a sign. -/
def readDatabase (cs : List Char) : Option Int :=
  let bounded (n : Int) : Option Int := if Word.IsSigned n then some n else none
  match cs with
  | '-' :: digits => (readDecimal? digits).bind fun n => bounded (-n)
  | '+' :: digits => (readDecimal? digits).bind fun n => bounded n
  | digits => (readDecimal? digits).bind fun n => bounded n

/-- A text without the slashes at its ends. -/
def withoutSlashes (cs : List Char) : List Char :=
  (((cs.dropWhile (· == '/')).reverse).dropWhile (· == '/')).reverse

/-- A server reached over the network. -/
def ofNetworkUrl (u : Url) : Option Address := do
  let host ← u.host
  let path := withoutSlashes (u.path.getD "").toList
  let database ← if path.isEmpty then some 0 else readDatabase path
  let user ← Percent.decodeText? u.user
  let password ←
    match u.password with
    | some p => (Percent.decodeText? p).map some
    | none => some none
  return { place := .tcp host (u.port.getD defaultPort), database,
           user := if user.isEmpty then none else some user, password }

/-- The path of a socket: every part with its octets decoded. A drive's letter at the end gets a
slash. -/
def socketPath (path : String) : String :=
  let bytes := Percent.decode (utf8 path)
  let drive :=
    match bytes.reverse with
    | mark :: letter :: _ :: _ =>
      (mark = 0x3A || mark = 0x7C) && (Char.ofNat letter.toNat).isAlpha
    | _ => false
  repaired (if drive then bytes ++ [0x2F] else bytes)

/-- A server reached through a socket of the file system. -/
def ofSocketUrl (u : Url) : Option Address := do
  if (u.host.filter (· ≠ "localhost")).isSome then none
  let path ← u.path
  let pairs := Percent.queryPairs u.query
  let last (key : String) : Option String := pairs.reverse.lookup key
  let database ←
    match last "db" with
    | some db => readDatabase db.toList
    | none => some 0
  return { place := .socket (socketPath path), database, user := last "user",
           password := last "pass" }

/-- The server that a URL names. -/
def parse? (s : String) : Option Address := do
  let u ← Url.read s
  if u.scheme = "redis" then ofNetworkUrl u
  else if u.scheme = "unix" ∨ u.scheme = "redis+unix" then ofSocketUrl u
  else none

/-- The place in words, without credentials: `addr_label`. -/
def label (a : Address) : String := a.place.label

end Address

/-- A URL with the password of its user information replaced by stars, as it may be told:
`redact_url`. -/
def redactUrl (url : String) : String :=
  match cutAt? "://".toList url.toList with
  | none => url
  | some (scheme, rest) =>
    match cutLast? '@' rest with
    | none => url
    | some (info, host) =>
      let user := info.takeWhile (· ≠ ':')
      let shown := if user.isEmpty then ['*', '*', '*'] else user ++ [':', '*', '*', '*']
      String.ofList (scheme ++ "://".toList ++ shown ++ '@' :: host)

end RoomRelay.Redis
