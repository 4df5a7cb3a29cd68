import RoomRelay.Http.Header
import RoomRelay.Http.MediaType
import RoomRelay.Http.Status
import RoomRelay.Text.Percent
import RoomRelay.Uuid

/-!
HTTP requests: the parts of the target, the type of the body, and the reading of a request's
head from the text that came over the wire.
-/

namespace RoomRelay.Http

open Text

/-- The version of the protocol that a request is made in. -/
inductive Version where
  | http10 | http11
deriving DecidableEq

def Version.text : Version → String
  | http10 => "HTTP/1.0"
  | http11 => "HTTP/1.1"

def Version.parse? (s : String) : Option Version :=
  [http10, http11].find? (·.text = s)

structure Request where
  version : Version := .http11
  method : String
  /-- The path with its query. -/
  target : String
  headers : List Header := []
  body : String := ""

/-- The first line of the response to a request of a version. -/
def Version.statusLine (v : Version) (status : Nat) : String :=
  v.text ++ " " ++ statusText status

namespace Request

/-- The path, as written. -/
def path (r : Request) : String :=
  String.ofList (r.target.toList.takeWhile (· ≠ '?'))

/-- The query, as written. -/
def query (r : Request) : String :=
  match cutFirst? '?' r.target.toList with
  | some (_, query) => String.ofList query
  | none => ""

/-- The parts of the path between its slashes. -/
def segments (r : Request) : List String :=
  (pieces '/' r.path.toList).map String.ofList

/-- The value that the query gives a field, or `none` when it gives several. -/
def queryField? (r : Request) (field : String) : Option (Option String) :=
  match (Percent.queryPairs r.query).filter fun p => p.1 = field with
  | [] => some none
  | [(_, value)] => some (some value)
  | _ => none

/-- Whether the body is said to be JSON. -/
def hasJsonBody (r : Request) : Bool :=
  (((Header.text? "content-type" r.headers).bind MediaType.parse?).map (·.isJson)).getD false

/-! ## The head on the wire -/

/-- The lines of a head, up to the empty one. -/
def lines (fuel : Nat) (cs : List Char) : Option (List (List Char)) :=
  match fuel with
  | 0 => none
  | fuel + 1 =>
    match cutAt? ['\r', '\n'] cs with
    | none => none
    | some ([], _) => some []
    | some (line, rest) => (lines fuel rest).map (line :: ·)

/-- A header line. -/
def readHeader (line : List Char) : Option Header :=
  match cutFirst? ':' line with
  | some (name, value) =>
    if ¬name.isEmpty ∧ name.all isNameChar then
      some ⟨String.ofList name, trimmed (String.ofList value)⟩
    else none
  | none => none

/-- The request of a head. -/
def read? (s : String) : Option Request := do
  let all ← lines (s.length + 1) s.toList
  match all with
  | [] => none
  | first :: rest =>
    match pieces ' ' first with
    | [method, target, version] =>
      let version ← Version.parse? (String.ofList version)
      if ¬method.isEmpty ∧ target.head? = some '/' then
        let headers ← rest.mapM readHeader
        return { version, method := String.ofList method, target := String.ofList target,
                 headers }
      else none
    | _ => none

end Request

end RoomRelay.Http
