import RoomRelay.Token.Header

/-!
The library that reads tokens. What it is asked to check is modelled beside the tokens; it also
looks at the rest of what a token says, and refuses some of it. How it does so is its own affair:
a `Library` is what it makes of that rest, and `standard` is one.
-/

namespace RoomRelay.Token

open Json

/-- What a library makes of a token beyond its signature, its algorithm, its user and its
expiry. -/
structure Library where
  /-- Whether nothing in the octets of a header is refused. -/
  takesHeader : List UInt8 → Bool
  /-- Whether nothing in the octets of claims is refused. -/
  takesClaims : List UInt8 → Bool

/-- What is known of every library. A header of a type and an algorithm is refused by none, and
neither are claims of a user and an expiry that is not before 1970: no other claim is required, and
every other part of a header may be left out. -/
structure Library.TakesPlain (lib : Library) : Prop where
  header : ∀ os, Document.readOctets? os =
      some (.object [(some "typ", .string (some "JWT")), (some "alg", .string (some "HS256"))]) →
    lib.takesHeader os = true
  claims : ∀ os (user : String) (n : Numeral) (expiry : Nat), Document.readOctets? os =
      some (.object [(some "sub", .string (some user)), (some "exp", .number n)]) →
    n.number? = some (.whole expiry) → lib.takesClaims os = true

/-! ## One library -/

/-- A claim that may name the audience: a text or a list of texts. -/
def isAudience : Document → Bool
  | .string (some _) => true
  | .array items => items.all fun d => match d with
    | .string (some _) => true
    | _ => false
  | _ => false

/-- The registered claims that are looked at besides a user's own. -/
def registeredFields : List String := ["exp", "nbf", "sub", "iss", "aud"]

/-- Whether a numeral is given up inside its exponent: at the digit with which the exponent is past
32 bits with a sign, when that is not the last and the number is not nothing. -/
def breaksOff (n : Numeral) : Bool :=
  match n.exponent with
  | some (false, digits) =>
    (n.whole ++ n.fraction.getD []).any (· ≠ 0) &&
      (Numeral.gatherExponent? 0 digits.dropLast).isNone
  | _ => false

/-- Whether a registered claim cannot be passed over. A claim that is no number is read as a
value before it is found to be of no use, so one without a value cannot; the start of validity is
not even looked into when it is a list or an object, so one with something in it cannot. -/
def isBroken : String × Document → Bool
  | (_, .number n) => breaksOff n
  | ("nbf", .array (_ :: _)) | ("nbf", .object (_ :: _)) => true
  | (_, d) => !(Decode.value (levelLimit - 1) d).isOk

/-- Whether the registered claims stand in the way: one is given twice or is broken, or there is
an audience, which no caller here belongs to. -/
def isBarred : Document → Bool
  | .object members =>
    match Decode.knownFields registeredFields members [] with
    | .error _ => true
    | .ok given => given.any isBroken || ((given.lookup "aud").map isAudience).getD false
  | _ => true

/-- A library that refuses what is ill-formed in a header, registered claims that are broken, and
any audience. -/
def Library.standard : Library where
  takesHeader os := (Decode.runOctets decodeHeader os).isOk
  takesClaims os := (Document.readOctets? os).any fun d => !isBarred d

end RoomRelay.Token
