/-!
Blank characters and trimming. A character is blank when Unicode gives it the property
White_Space; trimming takes blanks off the two ends of a text and touches nothing between.
-/

namespace RoomRelay.Text

/-- The characters with the Unicode property White_Space. -/
def isBlank (c : Char) : Bool :=
  let n := c.toNat
  (0x09 ≤ n && n ≤ 0x0D) || n == 0x20 || n == 0x85 || n == 0xA0 || n == 0x1680 ||
    (0x2000 ≤ n && n ≤ 0x200A) || n == 0x2028 || n == 0x2029 || n == 0x202F ||
    n == 0x205F || n == 0x3000

/-- What is left of a text after its leading blanks. -/
def trimLeft (cs : List Char) : List Char :=
  cs.dropWhile isBlank

/-- A text without its leading and trailing blanks. -/
def trim (cs : List Char) : List Char :=
  ((trimLeft cs).reverse.dropWhile isBlank).reverse

def trimmed (s : String) : String :=
  String.ofList (trim s.toList)

/-- What is left of `cs` once the characters of `lead` are taken off its front. -/
def afterPrefix? : List Char → List Char → Option (List Char)
  | [], cs => some cs
  | l :: lead, c :: cs => if l = c then afterPrefix? lead cs else none
  | _ :: _, [] => none

/-- What follows `lead` in `s`, when `s` starts with it. -/
def stripPrefix? (lead s : String) : Option String :=
  (afterPrefix? lead.toList s.toList).map String.ofList

/-- What precedes `tail` in `s`, when `s` ends with it. -/
def stripSuffix? (tail s : String) : Option String :=
  (afterPrefix? tail.toList.reverse s.toList.reverse).map (String.ofList ·.reverse)

/-- The part before the first `mark` and the part after it. -/
def cutFirst? (mark : Char) : List Char → Option (List Char × List Char)
  | [] => none
  | c :: cs =>
    if c = mark then some ([], cs)
    else (cutFirst? mark cs).map fun (before, after) => (c :: before, after)

/-- The part before the last `mark` and the part after it. -/
def cutLast? (mark : Char) (cs : List Char) : Option (List Char × List Char) :=
  (cutFirst? mark cs.reverse).map fun (after, before) => (before.reverse, after.reverse)

/-- The part before the first occurrence of `mark` and the part after it. -/
def cutAt? (mark : List Char) : List Char → Option (List Char × List Char)
  | [] => (afterPrefix? mark []).map ([], ·)
  | c :: cs =>
    match afterPrefix? mark (c :: cs) with
    | some after => some ([], after)
    | none => (cutAt? mark cs).map fun (before, after) => (c :: before, after)

/-- The pieces of a text between the occurrences of `mark`. -/
def pieces (mark : Char) (cs : List Char) : List (List Char) :=
  let step := fun (c : Char) (acc : List Char × List (List Char)) =>
    if c = mark then ([], acc.1 :: acc.2) else (c :: acc.1, acc.2)
  let (first, others) := cs.foldr step ([], [])
  first :: others

/-- ASCII capitals made small, every other character kept. -/
def lowered (s : String) : String :=
  s.map Char.toLower

/-- Whether two texts agree once ASCII capitals are made small. -/
def agreesIgnoringCase (a b : String) : Bool :=
  lowered a == lowered b

end RoomRelay.Text
