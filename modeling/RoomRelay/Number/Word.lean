/-!
Whole numbers that fit in a word of so many bits.
-/

namespace RoomRelay.Word

/-- How many numbers a word of `bits` bits tells apart. -/
def span (bits : Nat) : Nat := Nat.pow 2 bits

/-- Whether a number fits in 64 bits with a sign. -/
def IsSigned (n : Int) : Prop :=
  -(span 63 : Int) ≤ n ∧ n < span 63

instance (n : Int) : Decidable (IsSigned n) :=
  inferInstanceAs (Decidable (_ ∧ _))

end RoomRelay.Word
