import RoomRelay.Text.Blank

/-!
Header lines of HTTP messages, and the access token of a request: from the query, or else from
the authorization header.
-/

namespace RoomRelay.Http

structure Header where
  name : String
  value : String
deriving DecidableEq

namespace Header

/-- Whether a text can be a header's value: no control character but the tab. -/
def isValue (s : String) : Bool :=
  s.toList.all fun c => (0x20 ≤ c.toNat && c.toNat != 0x7F) || c == '\t'

/-- Whether a header's value counts as text: visible ASCII, spaces and tabs. -/
def isText (s : String) : Bool :=
  s.toList.all fun c => (0x20 ≤ c.toNat && c.toNat < 0x7F) || c == '\t'

/-- The value of the first header of a name, whatever its case. -/
def value? (name : String) (headers : List Header) : Option String :=
  (headers.find? fun h => Text.agreesIgnoringCase h.name name).map (·.value)

/-- The value of the first header of a name, if it counts as text. -/
def text? (name : String) (headers : List Header) : Option String :=
  (value? name headers).filter isText

end Header

/-- The access token of a request: `token_from_request`. An empty one in the query does not
count. -/
def bearerToken? (query : Option String) (headers : List Header) : Option String :=
  match query.filter (· ≠ "") with
  | some t => some t
  | none =>
    ((Header.text? "authorization" headers).bind (Text.stripPrefix? "Bearer ")).map Text.trimmed

end RoomRelay.Http
