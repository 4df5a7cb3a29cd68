import RoomRelay.Text.Base64Url

/-!
Octets as letters. Reading is exact: the letters that octets are written as are read as those
octets, and no other text is. The dot is no letter, so it may stand between texts that are written
so.
-/

namespace RoomRelay.Text.Base64Url

/-! ## Letters -/

private theorem value_letter : ∀ n < 64, value? (letter n) = some n := by decide

private theorem letter_ne_dot : ∀ n < 64, letter n ≠ '.' := by decide

/-- Only a letter has a value. -/
private theorem eq_letter_of_value {c : Char} {n : Nat} (is : value? c = some n) :
    n < 64 ∧ letter n = c := by
  have back : Char.ofNat c.toNat = c := Char.ofNat_toNat c
  simp only [value?, Char.le_def, UInt32.le_iff_toNat_le] at is
  change (if 65 ≤ c.toNat ∧ c.toNat ≤ 90 then some (c.toNat - 65)
    else if 97 ≤ c.toNat ∧ c.toNat ≤ 122 then some (c.toNat - 71)
    else if 48 ≤ c.toNat ∧ c.toNat ≤ 57 then some (c.toNat + 4)
    else if c = '-' then some 62 else if c = '_' then some 63 else none) = some n at is
  split at is
  · cases is
    refine ⟨by omega, ?_⟩
    rw [letter, if_pos (by omega), show 65 + (c.toNat - 65) = c.toNat by omega, back]
  · split at is
    · cases is
      refine ⟨by omega, ?_⟩
      rw [letter, if_neg (by omega), if_pos (by omega),
        show 71 + (c.toNat - 71) = c.toNat by omega, back]
    · split at is
      · cases is
        refine ⟨by omega, ?_⟩
        rw [letter, if_neg (by omega), if_neg (by omega), if_pos (by omega),
          show c.toNat + 4 - 4 = c.toNat by omega, back]
      · split at is
        · rename_i dash
          cases is
          exact ⟨by decide, dash.symm⟩
        · split at is
          · rename_i underscore
            cases is
            exact ⟨by decide, underscore.symm⟩
          · cases is

private theorem mapM_value_letters {ns : List Nat} (small : ∀ n ∈ ns, n < 64) :
    (ns.map letter).mapM value? = some ns := by
  induction ns with
  | nil => rfl
  | cons n rest ih =>
    have first := value_letter n (small n List.mem_cons_self)
    have later := ih fun m member => small m (List.mem_cons_of_mem n member)
    simp [first, later]

private theorem letters_of_mapM_value {cs : List Char} {ns : List Nat}
    (is : cs.mapM value? = some ns) :
    (∀ n ∈ ns, n < 64) ∧ ns.map letter = cs := by
  induction cs generalizing ns with
  | nil =>
    cases is
    exact ⟨fun _ none => (nomatch none), rfl⟩
  | cons c rest ih =>
    rw [List.mapM_cons] at is
    obtain ⟨n, first, is⟩ := Option.bind_eq_some_iff.mp is
    obtain ⟨ns', later, whole⟩ := Option.bind_eq_some_iff.mp is
    cases whole
    obtain ⟨small, letter_⟩ := eq_letter_of_value first
    obtain ⟨smaller, letters⟩ := ih later
    refine ⟨fun m member => ?_, by rw [List.map_cons, letter_, letters]⟩
    rcases List.mem_cons.mp member with rfl | inRest
    · exact small
    · exact smaller m inRest

/-! ## Groups -/

/-- Octets in groups of six bits, the last filled up with zeros. -/
def groups : List UInt8 → List Nat
  | [] => []
  | [a] => [a.toNat / 4, a.toNat % 4 * 16]
  | [a, b] => [a.toNat / 4, a.toNat % 4 * 16 + b.toNat / 16, b.toNat % 16 * 4]
  | a :: b :: c :: rest =>
    a.toNat / 4 :: (a.toNat % 4 * 16 + b.toNat / 16) :: (b.toNat % 16 * 4 + c.toNat / 64) ::
      c.toNat % 64 :: groups rest

private theorem encode_eq (bs : List UInt8) : encode bs = (groups bs).map letter := by
  fun_induction groups bs with
  | case1 => rfl
  | case2 a => rfl
  | case3 a b => rfl
  | case4 a b c rest ih => simp [encode, ih]

private theorem groups_lt (bs : List UInt8) : ∀ n ∈ groups bs, n < 64 := by
  have octet (a : UInt8) : a.toNat < 256 := a.toNat_lt
  fun_induction groups bs with
  | case1 => exact fun _ none => nomatch none
  | case2 a =>
    have a256 := octet a
    simp only [List.forall_mem_cons]
    exact ⟨by omega, by omega, fun _ none => nomatch none⟩
  | case3 a b =>
    have a256 := octet a
    have b256 := octet b
    simp only [List.forall_mem_cons]
    exact ⟨by omega, by omega, by omega, fun _ none => nomatch none⟩
  | case4 a b c rest ih =>
    have a256 := octet a
    have b256 := octet b
    have c256 := octet c
    simp only [List.forall_mem_cons]
    exact ⟨by omega, by omega, by omega, by omega, ih⟩

private theorem octet_eq {a : UInt8} {n : Nat} (same : n = a.toNat) : n.toUInt8 = a := by
  subst same
  simp

private theorem octets_groups (bs : List UInt8) : octets? (groups bs) = some bs := by
  have octet (a : UInt8) : a.toNat < 256 := a.toNat_lt
  fun_induction groups bs with
  | case1 => rfl
  | case2 a =>
    have a256 := octet a
    rw [octets?, if_pos (by omega), octet_eq (a := a) (by omega)]
  | case3 a b =>
    have a256 := octet a
    have b256 := octet b
    rw [octets?, if_pos (by omega), octet_eq (a := a) (by omega), octet_eq (a := b) (by omega)]
  | case4 a b c rest ih =>
    have a256 := octet a
    have b256 := octet b
    have c256 := octet c
    rw [octets?, ih, Option.map_some, octet_eq (a := a) (by omega), octet_eq (a := b) (by omega),
      octet_eq (a := c) (by omega)]

theorem toNat_octet {n : Nat} (small : n < 256) : n.toUInt8.toNat = n := by
  simpa using small

/-- Groups that are read are those of the octets: the bits left over are zeros. -/
private theorem groups_of_octets {ns : List Nat} {bs : List UInt8} (small : ∀ n ∈ ns, n < 64)
    (is : octets? ns = some bs) : groups bs = ns := by
  fun_induction octets? ns generalizing bs with
  | case1 =>
    cases is
    rfl
  | case2 a => cases is
  | case3 a b zeros =>
    cases is
    simp only [List.forall_mem_cons] at small
    rw [groups, toNat_octet (by omega)]
    congr 2 <;> omega
  | case4 a b zeros => cases is
  | case5 a b c zeros =>
    cases is
    simp only [List.forall_mem_cons] at small
    rw [groups, toNat_octet (by omega), toNat_octet (by omega)]
    congr 3 <;> omega
  | case6 a b c zeros => cases is
  | case7 a b c d rest ih =>
    obtain ⟨tail, later, rfl⟩ := Option.map_eq_some_iff.mp is
    simp only [List.forall_mem_cons] at small
    obtain ⟨a64, b64, c64, d64, rest64⟩ := small
    rw [groups, toNat_octet (by omega), toNat_octet (by omega), toNat_octet (by omega),
      ih rest64 later]
    congr 4 <;> omega

/-! ## Texts -/

/-- A text spells octets exactly when they are written so. -/
theorem decode?_eq_some {cs : List Char} {bs : List UInt8} :
    decode? cs = some bs ↔ cs = encode bs := by
  rw [decode?, Option.bind_eq_some_iff, encode_eq]
  constructor
  · rintro ⟨ns, values, octets⟩
    obtain ⟨small, letters⟩ := letters_of_mapM_value values
    rw [groups_of_octets small octets, letters]
  · rintro rfl
    exact ⟨groups bs, mapM_value_letters (groups_lt bs), octets_groups bs⟩

/-- No octets are written with a dot. -/
theorem encode_injective {bs bs' : List UInt8} (same : encode bs = encode bs') : bs = bs' := by
  have decoded := decode?_eq_some.mpr same
  rw [decode?_eq_some.mpr rfl] at decoded
  exact Option.some.inj decoded

theorem dot_notMem_encode (bs : List UInt8) : '.' ∉ encode bs := by
  rw [encode_eq, List.mem_map]
  rintro ⟨n, member, dot⟩
  exact letter_ne_dot n (groups_lt bs n member) dot

end RoomRelay.Text.Base64Url
