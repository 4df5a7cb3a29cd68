import RoomRelay.Text.Blank
import RoomRelay.Text.Digits
import RoomRelay.Json.Decode

/-!
Instants of the calendar in Coordinated Universal Time, to the nanosecond. A minute may have a
sixtieth second for a leap second. The reader takes RFC 3339 texts loosely: blanks between the
parts, single digits, years of more than four digits under a sign, and any offset below a day,
by which the instant is moved to Universal Time. The printer writes the fewest of 0, 3, 6 or 9
fraction digits that are exact.
-/

namespace RoomRelay

/-- Whether a year has a 29th of February. -/
def isLeapYear (year : Int) : Bool :=
  year % 4 == 0 && (year % 100 != 0 || year % 400 == 0)

/-- The number of days of a month. -/
def daysIn (year : Int) (month : Nat) : Nat :=
  if month = 2 then (if isLeapYear year then 29 else 28)
  else if month = 4 ∨ month = 6 ∨ month = 9 ∨ month = 11 then 30 else 31

/-- A day of the calendar. -/
structure Date where
  year : Int
  month : Nat
  day : Nat
deriving DecidableEq

namespace Date

def firstYear : Int := -262143

def lastYear : Int := 262142

/-- Whether the day exists in the calendar and falls in the range of years. -/
def Valid (d : Date) : Prop :=
  firstYear ≤ d.year ∧ d.year ≤ lastYear ∧ 1 ≤ d.month ∧ d.month ≤ 12 ∧ 1 ≤ d.day ∧
    d.day ≤ daysIn d.year d.month

instance (d : Date) : Decidable d.Valid :=
  inferInstanceAs (Decidable (_ ∧ _ ∧ _ ∧ _ ∧ _ ∧ _))

def next (d : Date) : Date :=
  if d.day < daysIn d.year d.month then { d with day := d.day + 1 }
  else if d.month < 12 then ⟨d.year, d.month + 1, 1⟩
  else ⟨d.year + 1, 1, 1⟩

def previous (d : Date) : Date :=
  if 1 < d.day then { d with day := d.day - 1 }
  else if 1 < d.month then ⟨d.year, d.month - 1, daysIn d.year (d.month - 1)⟩
  else ⟨d.year - 1, 12, 31⟩

end Date

structure Timestamp where
  date : Date
  hour : Nat
  minute : Nat
  second : Nat
  nano : Nat
  date_valid : date.Valid
  hour_lt : hour < 24
  minute_lt : minute < 60
  second_le : second ≤ 60
  nano_lt : nano < 1000000000
deriving DecidableEq

namespace Timestamp

/-- The instant with the given parts, if it exists. -/
def ofParts? (date : Date) (hour minute second nano : Nat) : Option Timestamp :=
  if h : date.Valid ∧ hour < 24 ∧ minute < 60 ∧ second ≤ 60 ∧ nano < 1000000000 then
    some ⟨date, hour, minute, second, nano, h.1, h.2.1, h.2.2.1, h.2.2.2.1, h.2.2.2.2⟩
  else none

/-- The parts in the order that decides which of two instants is earlier. -/
def key (t : Timestamp) : List Int :=
  [t.date.year, t.date.month, t.date.day, t.hour, t.minute, t.second, t.nano]

/-- Whether the first list of numbers comes before the second, or is the same. -/
def keyLe : List Int → List Int → Bool
  | [], _ => true
  | _ :: _, [] => false
  | a :: as, b :: bs => if a = b then keyLe as bs else a < b

/-- Whether an instant is not later than another. -/
def le (a b : Timestamp) : Bool :=
  keyLe a.key b.key

instance : LE Timestamp := ⟨fun a b => a.le b = true⟩
instance (a b : Timestamp) : Decidable (a ≤ b) := inferInstanceAs (Decidable (a.le b = true))

/-! ## Writing -/

/-- A year: four digits up to 9999, and a sign with at least four digits elsewhere. -/
def yearText (year : Int) : List Char :=
  if 0 ≤ year ∧ year ≤ 9999 then Text.padded 4 year.natAbs
  else (if year < 0 then '-' else '+') :: Text.padded 4 year.natAbs

/-- The fewest fraction digits that are exact, of none, three, six and nine. -/
def fractionText (nano : Nat) : List Char :=
  if nano = 0 then []
  else if nano % 1000000 = 0 then '.' :: Text.fixedDigits 10 3 (nano / 1000000)
  else if nano % 1000 = 0 then '.' :: Text.fixedDigits 10 6 (nano / 1000)
  else '.' :: Text.fixedDigits 10 9 nano

/-- The instant up to its offset. -/
def stem (t : Timestamp) : List Char :=
  yearText t.date.year ++ '-' :: Text.fixedDigits 10 2 t.date.month ++
    '-' :: Text.fixedDigits 10 2 t.date.day ++ 'T' :: Text.fixedDigits 10 2 t.hour ++
    ':' :: Text.fixedDigits 10 2 t.minute ++ ':' :: Text.fixedDigits 10 2 t.second ++
    fractionText t.nano

/-- The instant with the letter of Universal Time. -/
def text (t : Timestamp) : String :=
  String.ofList (t.stem ++ ['Z'])

/-- The instant with the offset of Universal Time in digits. -/
def offsetText (t : Timestamp) : String :=
  String.ofList (t.stem ++ ['+', '0', '0', ':', '0', '0'])

/-! ## Reading -/

/-- The digits at the front, at most so many. -/
def digitsUpTo : Nat → List Char → List Nat × List Char
  | n + 1, c :: cs =>
    match Text.decimalValue? c with
    | some d =>
      let (ds, rest) := digitsUpTo n cs
      (d :: ds, rest)
    | none => ([], c :: cs)
  | _, cs => ([], cs)

/-- A number of one to `most` digits after blanks. -/
def readNumber (most : Nat) (cs : List Char) : Option (Nat × List Char) :=
  match digitsUpTo most (Text.trimLeft cs) with
  | ([], _) => none
  | (ds, rest) => some (Text.numberOf 10 ds, rest)

/-- A year after blanks: at most four digits, or any number of them after a sign. -/
def readYear (cs : List Char) : Option (Int × List Char) :=
  match Text.trimLeft cs with
  | '+' :: rest =>
    match digitsUpTo rest.length rest with
    | ([], _) => none
    | (ds, rest) => some (Text.numberOf 10 ds, rest)
  | '-' :: rest =>
    match digitsUpTo rest.length rest with
    | ([], _) => none
    | (ds, rest) => some (-(Text.numberOf 10 ds : Int), rest)
  | rest => (readNumber 4 rest).map fun (n, rest) => ((n : Int), rest)

/-- A mark after blanks. -/
def readMark (mark : Char) (cs : List Char) : Option (List Char) :=
  match Text.trimLeft cs with
  | c :: rest => if c = mark then some rest else none
  | [] => none

/-- The fraction of a second: at least one digit after a point, those past the ninth dropped. -/
def readFraction : List Char → Option (Nat × List Char)
  | '.' :: cs =>
    match digitsUpTo cs.length cs with
    | ([], _) => none
    | (ds, rest) =>
      let kept := ds.take 9
      some (Text.numberOf 10 kept * Nat.pow 10 (9 - kept.length), rest)
  | cs => some (0, cs)

/-- The two digits at the front. -/
def readPair : List Char → Option (Nat × List Char)
  | a :: b :: cs =>
    match Text.decimalValue? a, Text.decimalValue? b with
    | some x, some y => some (10 * x + y, cs)
    | _, _ => none
  | _ => none

/-- What follows blanks and colons. -/
def skipColons (cs : List Char) : List Char :=
  cs.dropWhile fun c => c == ':' || Text.isBlank c

/-- The hours and minutes of an offset, in minutes. -/
def readHours (cs : List Char) : Option (Nat × List Char) := do
  let (hours, cs) ← readPair cs
  let (minutes, cs) ← readPair (skipColons cs)
  if hours < 24 ∧ minutes < 60 then some (hours * 60 + minutes, cs) else none

/-- An offset from Universal Time in minutes: `Z`, `UTC`, or hours and minutes after a sign. -/
def readOffset : List Char → Option (Int × List Char)
  | 'z' :: cs | 'Z' :: cs => some (0, cs)
  | '+' :: cs => (readHours cs).map fun (n, rest) => ((n : Int), rest)
  | '-' :: cs | '\u2212' :: cs => (readHours cs).map fun (n, rest) => (-(n : Int), rest)
  | a :: b :: c :: cs =>
    if [a, b, c].map Char.toLower = ['u', 't', 'c'] then some (0, cs) else none
  | _ => none

/-- The day and minute of the day, moved from local to Universal Time. -/
def shift (date : Date) (minutes : Nat) (offset : Int) : Date × Nat :=
  let n : Int := minutes - offset
  if n < 0 then (date.previous, (n + 1440).toNat)
  else if 1440 ≤ n then (date.next, (n - 1440).toNat)
  else (date, n.toNat)

/-- The instant that characters spell. -/
def ofChars? (cs : List Char) : Option Timestamp := do
  let (year, cs) ← readYear cs
  let cs ← readMark '-' cs
  let (month, cs) ← readNumber 2 cs
  let cs ← readMark '-' cs
  let (day, cs) ← readNumber 2 cs
  let cs ←
    match cs with
    | 't' :: cs | 'T' :: cs | ' ' :: cs => some cs
    | _ => none
  let (hour, cs) ← readNumber 2 cs
  let cs ← readMark ':' cs
  let (minute, cs) ← readNumber 2 cs
  let cs ← readMark ':' cs
  let (second, cs) ← readNumber 2 cs
  let (nano, cs) ← readFraction cs
  let (offset, cs) ← readOffset (Text.trimLeft cs)
  let given ← ofParts? ⟨year, month, day⟩ hour minute second nano
  let (date, minutes) := shift given.date (hour * 60 + minute) offset
  if (Text.trimLeft cs).isEmpty then ofParts? date (minutes / 60) (minutes % 60) second nano
  else none

def parse? (s : String) : Option Timestamp :=
  ofChars? s.toList

def decode : Json.Decoder Timestamp :=
  Json.Decode.parsed parse?

def toValue (t : Timestamp) : Json.Value :=
  .string t.text

end Timestamp

end RoomRelay
