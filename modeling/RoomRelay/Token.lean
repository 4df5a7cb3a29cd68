import RoomRelay.Failure
import RoomRelay.Text.Base64Url
import RoomRelay.Text.Utf8
import RoomRelay.Token.Library
import RoomRelay.Token.Sha256
import RoomRelay.Uuid

/-!
Access tokens: JSON web tokens signed with HMAC-SHA256. A token is three segments with dots
between, a header, the claims and a signature over the first two; it names a user and the second
it expires at, after which it is honoured for a minute.
-/

namespace RoomRelay.Token

open Json

/-- How long after its expiry a token is honoured, in seconds. -/
def leeway : Int := 60

/-- What a token says of its holder. -/
structure Claims where
  /-- The identifier of the user, as text. -/
  subject : String
  expiry : Int
deriving DecidableEq

def Claims.toValue (c : Claims) : Value :=
  .object [("sub", .string c.subject), ("exp", .int c.expiry)]

def Claims.fieldNames : List String := ["sub", "exp"]

def Claims.decode : Decoder Claims := fun levels d => do
  let f ← Decode.fields Claims.fieldNames levels d
  let subject ← f.required "sub" Decode.text
  let expiry ← f.required "exp" Decode.int64
  return { subject, expiry }

/-- A text as a segment. -/
def segment (s : String) : List Char :=
  Text.Base64Url.encode (Text.utf8 s)

/-- The signature of a text, as a segment. -/
def signature (secret : String) (signed : List Char) : List Char :=
  Text.Base64Url.encode (Sha256.hmac (Text.utf8 secret) (Text.utf8 (String.ofList signed)))

def sign (secret : String) (claims : Claims) : String :=
  let signed := segment header.render ++ '.' :: segment claims.toValue.render
  String.ofList (signed ++ '.' :: signature secret signed)

/-- The second a token issued at `now` expires at, within 64 bits with a sign. -/
def expiry (now : Int) (ttlSecs : Nat) : Int :=
  now + (ttlSecs : Int).bmod (Word.span 64)

/-- A token for a user: `issue_jwt`. -/
def issue (secret : String) (user : Uuid) (now : Int) (ttlSecs : Nat) : String :=
  sign secret ⟨user.text, expiry now ttlSecs⟩

/-- The claims that octets hold. -/
def Claims.ofOctets? (os : List UInt8) : Option Claims :=
  (Decode.runOctets Claims.decode os).toOption

/-- The user that a token names: `verify_jwt`. The signature must be the one of the secret, the
header must name the algorithm, the token must not have expired longer ago than the leeway, and the
library must not refuse anything else it says. -/
def verify (lib : Library) (secret : String) (now : Int) (token : String) :
    Except Failure Uuid :=
  let user := do
    let (signed, given) ← Text.cutLast? '.' token.toList
    let (head, body) ← Text.cutLast? '.' signed
    let header ← Text.Base64Url.decode? head
    let claims ← Text.Base64Url.decode? body
    let algorithm ← (Decode.runOctets decodeAlgorithm header).toOption
    let c ← Claims.ofOctets? claims
    if algorithm = "HS256" ∧ given = signature secret signed ∧
        (now - leeway ≤ c.expiry ∧ 0 ≤ c.expiry) ∧
        lib.takesHeader header ∧ lib.takesClaims claims then
      Uuid.parse? c.subject
    else none
  match user with
  | some u => .ok u
  | none => .error .unauthorized

end RoomRelay.Token
