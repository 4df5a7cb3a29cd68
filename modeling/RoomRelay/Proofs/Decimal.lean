import RoomRelay.Proofs.UuidText

/-!
Numbers in decimal: the digits that are written are those of the number, and they are read back as
the number.
-/

namespace RoomRelay.Text

/-- The digits of a number, most significant first. -/
def decimalDigits (n : Nat) : List Nat :=
  if n < 10 then [n] else decimalDigits (n / 10) ++ [n % 10]
termination_by n

/-- Digits as written. -/
def digitText (ds : List Nat) : List Char := ds.map digitChar

theorem decimalValue_digitChar : ∀ d < 10, decimalValue? (digitChar d) = some d := by decide

theorem decimalDigits_lt (n : Nat) : ∀ d ∈ decimalDigits n, d < 10 := by
  induction n using decimalDigits.induct with
  | case1 n small => simp [decimalDigits, small]
  | case2 n large ih =>
    intro d member
    rw [decimalDigits, if_neg large] at member
    rcases List.mem_append.mp member with before | last
    · exact ih d before
    · rw [List.mem_singleton.mp last]
      exact Nat.mod_lt n (by decide)

theorem decimalDigits_ne_nil (n : Nat) : decimalDigits n ≠ [] := by
  unfold decimalDigits
  split <;> simp

theorem numberOf_decimalDigits (n : Nat) : numberOf 10 (decimalDigits n) = n := by
  induction n using decimalDigits.induct with
  | case1 n small => simp [decimalDigits, small, numberOf]
  | case2 n large ih =>
    rw [decimalDigits, if_neg large, numberOf_snoc, ih]
    omega

/-- Only zero starts with a zero. -/
theorem decimalDigits_head {n : Nat} {rest : List Nat} (starts : decimalDigits n = 0 :: rest) :
    rest = [] := by
  induction n using decimalDigits.induct generalizing rest with
  | case1 n small =>
    rw [decimalDigits, if_pos small] at starts
    exact (List.cons.inj starts).2.symm
  | case2 n large ih =>
    rw [decimalDigits, if_neg large] at starts
    cases front : decimalDigits (n / 10) with
    | nil => exact absurd front (decimalDigits_ne_nil _)
    | cons d ds =>
      rw [front] at starts
      obtain ⟨rfl, -⟩ := List.cons.inj starts
      -- then the number without its last digit would be zero
      have value := numberOf_decimalDigits (n / 10)
      rw [front, ih front] at value
      simp only [numberOf, List.foldl_cons, List.foldl_nil] at value
      omega

private theorem decimalOnto_eq (n : Nat) (tail : List Char) :
    decimalOnto n tail = digitText (decimalDigits n) ++ tail := by
  induction n, tail using decimalOnto.induct with
  | case1 n tail small => rw [decimalOnto, decimalDigits, if_pos small, if_pos small]; rfl
  | case2 n tail large ih =>
    rw [decimalOnto, decimalDigits, if_neg large, if_neg large, ih]
    simp [digitText]

theorem decimal_eq (n : Nat) : decimal n = digitText (decimalDigits n) := by
  rw [decimal, decimalOnto_eq, List.append_nil]

end RoomRelay.Text
