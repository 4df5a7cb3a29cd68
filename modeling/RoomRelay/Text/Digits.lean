/-!
Digits. Whole numbers are written in decimal without a leading zero, or padded with zeros to a
width; hexadecimal digits are written small and read in either case.
-/

namespace RoomRelay.Text

/-- The digit that stands for `n`, in decimal and small hexadecimal. -/
def digitChar (n : Nat) : Char :=
  if n < 10 then Char.ofNat (48 + n) else Char.ofNat (87 + n)

/-- The value of a decimal digit. -/
def decimalValue? (c : Char) : Option Nat :=
  if '0' ≤ c ∧ c ≤ '9' then some (c.toNat - 48) else none

/-- The value of a hexadecimal digit, capital or small. -/
def hexValue? (c : Char) : Option Nat :=
  if '0' ≤ c ∧ c ≤ '9' then some (c.toNat - 48)
  else if 'a' ≤ c ∧ c ≤ 'f' then some (c.toNat - 87)
  else if 'A' ≤ c ∧ c ≤ 'F' then some (c.toNat - 55)
  else none

def isDecimal (c : Char) : Bool :=
  (decimalValue? c).isSome

/-- The decimal digits of `n`, most significant first, followed by `tail`. -/
def decimalOnto (n : Nat) (tail : List Char) : List Char :=
  if n < 10 then digitChar n :: tail
  else decimalOnto (n / 10) (digitChar (n % 10) :: tail)
termination_by n

/-- A whole number in decimal. -/
def decimal (n : Nat) : List Char :=
  decimalOnto n []

def decimalText (n : Nat) : String :=
  String.ofList (decimal n)

/-- A whole number in decimal with its sign when negative. -/
def integer (i : Int) : List Char :=
  if i < 0 then '-' :: decimal i.natAbs else decimal i.natAbs

def integerText (i : Int) : String :=
  String.ofList (integer i)

/-- The last `width` digits of `n` in base `base`, most significant first. -/
def fixedDigits (base : Nat) : Nat → Nat → List Char
  | 0, _ => []
  | width + 1, n => fixedDigits base width (n / base) ++ [digitChar (n % base)]

/-- A whole number in decimal, filled up with zeros to at least `width` digits. -/
def padded (width n : Nat) : List Char :=
  let digits := decimal n
  List.replicate (width - digits.length) '0' ++ digits

/-- The number that a list of digit values stands for in base `base`. -/
def numberOf (base : Nat) (values : List Nat) : Nat :=
  values.foldl (fun acc d => acc * base + d) 0

/-- The number a non-empty run of decimal digits stands for. -/
def readDecimal? (cs : List Char) : Option Nat :=
  if cs.isEmpty then none else (cs.mapM decimalValue?).map (numberOf 10)

/-- The number a run of hexadecimal digits stands for. -/
def readHex? (cs : List Char) : Option Nat :=
  (cs.mapM hexValue?).map (numberOf 16)

end RoomRelay.Text
