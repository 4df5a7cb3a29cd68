/-!
Finite tables as lists of pairs, each key at most once. Setting a key keeps its place, a new key
goes to the end.
-/

namespace RoomRelay

/-- A finite table. -/
abbrev Table (κ α : Type) := List (κ × α)

namespace Table

variable {κ α : Type} [DecidableEq κ]

def get? (k : κ) : Table κ α → Option α
  | [] => none
  | (l, a) :: rest => if l = k then some a else get? k rest

def set (k : κ) (a : α) : Table κ α → Table κ α
  | [] => [(k, a)]
  | (l, b) :: rest => if l = k then (k, a) :: rest else (l, b) :: set k a rest

def erase (k : κ) : Table κ α → Table κ α
  | [] => []
  | (l, a) :: rest => if l = k then rest else (l, a) :: erase k rest

/-- Changes the entry under a key, if there is one. -/
def modify (k : κ) (f : α → α) (t : Table κ α) : Table κ α :=
  match t.get? k with
  | some a => t.set k (f a)
  | none => t

def keys (t : Table κ α) : List κ := t.map (·.1)

end Table

end RoomRelay
