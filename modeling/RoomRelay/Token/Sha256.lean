/-!
The SHA-256 digest of octets, and the keyed digest HMAC built on it.
-/

namespace RoomRelay.Sha256

/-- The eight words that a digest is gathered in. -/
structure State where
  a : UInt32
  b : UInt32
  c : UInt32
  d : UInt32
  e : UInt32
  f : UInt32
  g : UInt32
  h : UInt32

/-- The words before the first block: the fractions of the square roots of the first primes. -/
def initial : State :=
  ⟨0x6a09e667, 0xbb67ae85, 0x3c6ef372, 0xa54ff53a, 0x510e527f, 0x9b05688c, 0x1f83d9ab,
    0x5be0cd19⟩

/-- The word of each round: the fractions of the cube roots of the first 64 primes. -/
def roundWords : List UInt32 :=
  [0x428a2f98, 0x71374491, 0xb5c0fbcf, 0xe9b5dba5, 0x3956c25b, 0x59f111f1, 0x923f82a4, 0xab1c5ed5,
   0xd807aa98, 0x12835b01, 0x243185be, 0x550c7dc3, 0x72be5d74, 0x80deb1fe, 0x9bdc06a7, 0xc19bf174,
   0xe49b69c1, 0xefbe4786, 0x0fc19dc6, 0x240ca1cc, 0x2de92c6f, 0x4a7484aa, 0x5cb0a9dc, 0x76f988da,
   0x983e5152, 0xa831c66d, 0xb00327c8, 0xbf597fc7, 0xc6e00bf3, 0xd5a79147, 0x06ca6351, 0x14292967,
   0x27b70a85, 0x2e1b2138, 0x4d2c6dfc, 0x53380d13, 0x650a7354, 0x766a0abb, 0x81c2c92e, 0x92722c85,
   0xa2bfe8a1, 0xa81a664b, 0xc24b8b70, 0xc76c51a3, 0xd192e819, 0xd6990624, 0xf40e3585, 0x106aa070,
   0x19a4c116, 0x1e376c08, 0x2748774c, 0x34b0bcb5, 0x391c0cb3, 0x4ed8aa4a, 0x5b9cca4f, 0x682e6ff3,
   0x748f82ee, 0x78a5636f, 0x84c87814, 0x8cc70208, 0x90befffa, 0xa4506ceb, 0xbef9a3f7, 0xc67178f2]

/-- A word turned right by some bits. -/
def turn (x : UInt32) (n : UInt32) : UInt32 :=
  (x >>> n) ||| (x <<< (32 - n))

/-- The word of four octets. -/
def word : List UInt8 → UInt32
  | [a, b, c, d] =>
    (a.toUInt32 <<< 24) ||| (b.toUInt32 <<< 16) ||| (c.toUInt32 <<< 8) ||| d.toUInt32
  | _ => 0

/-- The four octets of a word. -/
def octets (w : UInt32) : List UInt8 :=
  [(w >>> 24).toUInt8, (w >>> 16).toUInt8, (w >>> 8).toUInt8, w.toUInt8]

/-- A list in chunks of `size`. -/
def chunks {α : Type} (size : Nat) : Nat → List α → List (List α)
  | 0, _ => []
  | _, [] => []
  | n + 1, xs => xs.take size :: chunks size n (xs.drop size)

/-- The sixteen words of a block continued to one for each round. The words are held newest
first. -/
def schedule : Nat → List UInt32 → List UInt32
  | 0, ws => ws.reverse
  | n + 1, ws =>
    let old (i : Nat) := ws.getD i 0
    let s0 := turn (old 14) 7 ^^^ turn (old 14) 18 ^^^ (old 14 >>> 3)
    let s1 := turn (old 1) 17 ^^^ turn (old 1) 19 ^^^ (old 1 >>> 10)
    schedule n ((old 15 + s0 + old 6 + s1) :: ws)

def round (s : State) (k w : UInt32) : State :=
  let s1 := turn s.e 6 ^^^ turn s.e 11 ^^^ turn s.e 25
  let choice := (s.e &&& s.f) ^^^ (~~~s.e &&& s.g)
  let t1 := s.h + s1 + choice + k + w
  let s0 := turn s.a 2 ^^^ turn s.a 13 ^^^ turn s.a 22
  let majority := (s.a &&& s.b) ^^^ (s.a &&& s.c) ^^^ (s.b &&& s.c)
  ⟨t1 + (s0 + majority), s.a, s.b, s.c, s.d + t1, s.e, s.f, s.g⟩

/-- The words after a block. -/
def absorb (s : State) (block : List UInt8) : State :=
  let words := (chunks 4 16 block).map word
  let t := (roundWords.zip (schedule 48 words.reverse)).foldl (fun t kw => round t kw.1 kw.2) s
  ⟨s.a + t.a, s.b + t.b, s.c + t.c, s.d + t.d, s.e + t.e, s.f + t.f, s.g + t.g, s.h + t.h⟩

/-- Octets filled up to whole blocks: a one bit, zeros, and the number of bits in 64 bits. -/
def filled (bytes : List UInt8) : List UInt8 :=
  let n := bytes.length
  let zeros := (119 - n % 64) % 64
  let bits := n * 8
  let length := (List.range 8).map fun i => (bits / Nat.pow 256 (7 - i) % 256).toUInt8
  bytes ++ 0x80 :: List.replicate zeros 0 ++ length

def digest (bytes : List UInt8) : List UInt8 :=
  let all := filled bytes
  let s := (chunks 64 (all.length / 64) all).foldl absorb initial
  [s.a, s.b, s.c, s.d, s.e, s.f, s.g, s.h].flatMap octets

def hmac (key bytes : List UInt8) : List UInt8 :=
  let key := if 64 < key.length then digest key else key
  let key := key ++ List.replicate (64 - key.length) 0
  digest (key.map (· ^^^ 0x5c) ++ digest (key.map (· ^^^ 0x36) ++ bytes))

end RoomRelay.Sha256
