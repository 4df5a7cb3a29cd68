import RoomRelay.Json.Decode

/-!
The header of an access token. It names the algorithm that the token is signed with, and may say
more about the key: its name, where to find it, certificates for it, or the key itself. Nothing
but the algorithm is used here (`decodeAlgorithm`), but whoever reads the whole header finds fault
with anything in it that is ill-formed (`decodeHeader`).
-/

namespace RoomRelay.Token

open Json

/-- The algorithms that a header may name. -/
def algorithms : List String :=
  ["HS256", "HS384", "HS512", "ES256", "ES384", "RS256", "RS384", "RS512", "PS256", "PS384",
    "PS512", "EdDSA"]

/-- One of the given words. -/
def decodeOneOf (words : List String) : Decoder String :=
  Decode.word fun s => words.find? (· == s)

/-! ## Embedded keys -/

/-- The curves that a key may lie on. -/
def curves : List String := ["P-256", "P-384", "P-521", "Ed25519"]

/-- What a kind of key is made of. -/
structure KeyShape where
  /-- The word for the kind. -/
  kind : String
  /-- Whether the key lies on a curve. -/
  onCurve : Bool
  /-- The names of its numbers, each given as a text. -/
  parts : List String

/-- The kinds of keys. -/
def keyShapes : List KeyShape :=
  [⟨"EC", true, ["x", "y"]⟩, ⟨"RSA", false, ["n", "e"]⟩, ⟨"oct", false, ["k"]⟩,
    ⟨"OKP", true, ["x"]⟩]

/-- A key of one kind. -/
def KeyShape.decode (k : KeyShape) : Decoder Unit := fun levels d => do
  let f ← Decode.fields ("kty" :: (if k.onCurve then "crv" :: k.parts else k.parts)) levels d
  let _ ← f.required "kty" (decodeOneOf [k.kind])
  if k.onCurve then
    let _ ← f.required "crv" (decodeOneOf curves)
  k.parts.forM fun part => do
    let _ ← f.required part Decode.text

/-- What a key of any kind may tell of itself, in order. -/
def keyTraits : List String :=
  ["use", "key_ops", "alg", "kid", "x5u", "x5c", "x5t", "x5t#S256"]

/-- The traits of a key. The algorithm may be any word. -/
def decodeKeyTraits : Decoder Unit := fun levels d => do
  let f ← Decode.fields keyTraits levels d
  let _ ← f.optional "use" Decode.text
  let _ ← f.optional "key_ops" (Decode.list Decode.text)
  let _ ← f.optional "alg" (Decode.word some)
  let _ ← f.optional "kid" Decode.text
  let _ ← f.optional "x5u" Decode.text
  let _ ← f.optional "x5c" (Decode.list Decode.text)
  let _ ← f.optional "x5t" Decode.text
  let _ ← f.optional "x5t#S256" Decode.text

/-- A key: an object that is kept as a whole, with traits, of one of the kinds. -/
def decodeKey : Decoder Unit := fun levels d => do
  let _ ← Decode.members levels d
  decodeKeyTraits levels d
  if keyShapes.any fun k => (k.decode levels d).isOk then .ok () else .error .misfit

/-! ## Headers -/

/-- The fields of a header in order. -/
def headerFields : List String :=
  ["typ", "alg", "cty", "jku", "jwk", "kid", "x5u", "x5c", "x5t", "x5t#S256"]

/-- The algorithm that a header names. -/
def decodeAlgorithm : Decoder String := fun levels d => do
  let f ← Decode.fields headerFields levels d
  f.required "alg" (decodeOneOf algorithms)

/-- A header with all that it may say. -/
def decodeHeader : Decoder Unit := fun levels d => do
  let f ← Decode.fields headerFields levels d
  let _ ← f.placed "typ" Decode.text
  let _ ← f.required "alg" (decodeOneOf algorithms)
  let _ ← f.placed "cty" Decode.text
  let _ ← f.placed "jku" Decode.text
  let _ ← f.placed "jwk" decodeKey
  let _ ← f.placed "kid" Decode.text
  let _ ← f.placed "x5u" Decode.text
  let _ ← f.placed "x5c" (Decode.list Decode.text)
  let _ ← f.placed "x5t" Decode.text
  let _ ← f.placed "x5t#S256" Decode.text

/-- The header of the tokens issued here. -/
def header : Value :=
  .object [("typ", .string "JWT"), ("alg", .string "HS256")]

end RoomRelay.Token
