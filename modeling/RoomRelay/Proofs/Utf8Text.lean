import Mathlib
import RoomRelay.Text.Utf8

/-!
Texts as octets. The octets of a text are read as that text, and no other octets are: whatever can
be read was written from what is read.
-/

namespace RoomRelay.Text

namespace Utf8

/-! ## First octets -/

variable {a : UInt8}

private theorem lead_one (small : a.toNat < 0x80) : lead? a = some (0, 0, 0, a.toNat) := by
  have less : a < 0x80 := UInt8.lt_iff_toNat_lt.mpr small
  rw [lead?, if_pos less]

private theorem lead_two (least : 0xC2 ≤ a.toNat) (less : a.toNat < 0xE0) :
    lead? a = some (1, 0x80, 0xBF, a.toNat - 0xC0) := by
  simp only [lead?, UInt8.lt_iff_toNat_lt, UInt8.le_iff_toNat_le, UInt8.reduceToNat]
  rw [if_neg (by omega), if_pos (by omega)]

private theorem lead_three (least : 0xE0 ≤ a.toNat) (less : a.toNat < 0xF0) :
    lead? a = some (2, if a.toNat = 0xE0 then 0xA0 else 0x80, if a.toNat = 0xED then 0x9F else 0xBF,
      a.toNat - 0xE0) := by
  simp only [lead?, UInt8.lt_iff_toNat_lt, UInt8.le_iff_toNat_le, ← UInt8.toNat_inj,
    UInt8.reduceToNat]
  rw [if_neg (by omega), if_neg (by omega)]
  by_cases first : a.toNat = 0xE0
  · simp [first]
  · by_cases surrogate : a.toNat = 0xED
    · simp [surrogate]
    · rw [if_neg first, if_neg surrogate, if_pos (by omega), if_neg first, if_neg surrogate]

private theorem lead_four (least : 0xF0 ≤ a.toNat) (less : a.toNat < 0xF5) :
    lead? a = some (3, if a.toNat = 0xF0 then 0x90 else 0x80, if a.toNat = 0xF4 then 0x8F else 0xBF,
      a.toNat - 0xF0) := by
  simp only [lead?, UInt8.lt_iff_toNat_lt, UInt8.le_iff_toNat_le, ← UInt8.toNat_inj,
    UInt8.reduceToNat]
  rw [if_neg (by omega), if_neg (by omega), if_neg (by omega), if_neg (by omega), if_neg (by omega)]
  by_cases first : a.toNat = 0xF0
  · simp [first]
  · by_cases last : a.toNat = 0xF4
    · simp [last]
    · rw [if_neg first, if_pos (by omega), if_neg first, if_neg last]

private theorem lead_none (outside : (0x80 ≤ a.toNat ∧ a.toNat < 0xC2) ∨ 0xF5 ≤ a.toNat) :
    lead? a = none := by
  simp only [lead?, UInt8.lt_iff_toNat_lt, UInt8.le_iff_toNat_le, ← UInt8.toNat_inj,
    UInt8.reduceToNat]
  rw [if_neg (by omega), if_neg (by omega), if_neg (by omega), if_neg (by omega), if_neg (by omega),
    if_neg (by omega), if_neg (by omega), if_neg (by omega)]

/-! ## Characters -/

/-- An octet after the first of a character. -/
def IsTail (b : UInt8) : Prop := 0x80 ≤ b.toNat ∧ b.toNat ≤ 0xBF

/-- The octets are the syntax of one character, of the given number. -/
inductive Spells : List UInt8 → Nat → Prop
  | one {a : UInt8} (small : a.toNat < 0x80) : Spells [a] a.toNat
  | two {a b : UInt8} (least : 0xC2 ≤ a.toNat) (less : a.toNat < 0xE0) (tail : IsTail b) :
    Spells [a, b] ((a.toNat - 0xC0) * 64 + (b.toNat - 0x80))
  | three {a b c : UInt8} (least : 0xE0 ≤ a.toNat) (less : a.toNat < 0xF0) (tail : IsTail b)
    (notShorter : a.toNat = 0xE0 → 0xA0 ≤ b.toNat) (noSurrogate : a.toNat = 0xED → b.toNat ≤ 0x9F)
    (last : IsTail c) :
    Spells [a, b, c] (((a.toNat - 0xE0) * 64 + (b.toNat - 0x80)) * 64 + (c.toNat - 0x80))
  | four {a b c d : UInt8} (least : 0xF0 ≤ a.toNat) (less : a.toNat < 0xF5) (tail : IsTail b)
    (notShorter : a.toNat = 0xF0 → 0x90 ≤ b.toNat) (notGreater : a.toNat = 0xF4 → b.toNat ≤ 0x8F)
    (third : IsTail c) (last : IsTail d) :
    Spells [a, b, c, d] ((((a.toNat - 0xF0) * 64 + (b.toNat - 0x80)) * 64 + (c.toNat - 0x80)) * 64 +
      (d.toNat - 0x80))

theorem toNat_ofNat {n : Nat} (valid : n.isValidChar) : (Char.ofNat n).toNat = n := by
  simp [Char.ofNat, valid, Char.toNat, Char.ofNatAux]

theorem toNat_octet {n : Nat} (small : n < 256) : n.toUInt8.toNat = n := by
  simpa using small

private theorem eq_octet {b : UInt8} {n : Nat} (same : b.toNat = n) : n.toUInt8 = b := by
  rw [← same]
  simp

/-- What is spelled is a character, and it is written so. -/
private theorem Spells.octets_eq {bs : List UInt8} {n : Nat} (spells : Spells bs n) :
    octets (Char.ofNat n) = bs := by
  cases spells with
  | one small => rw [octets, toNat_ofNat (.inl (by omega)), if_pos small, eq_octet rfl]
  | @two a b least less tail =>
    obtain ⟨low, high⟩ := tail
    rw [octets, toNat_ofNat (.inl (by omega)), if_neg (by omega), if_pos (by omega),
      eq_octet (b := a) (by omega), eq_octet (b := b) (by omega)]
  | @three a b c least less tail notShorter noSurrogate last =>
    obtain ⟨low, high⟩ := tail
    obtain ⟨lowC, highC⟩ := last
    have valid : (((a.toNat - 0xE0) * 64 + (b.toNat - 0x80)) * 64 +
        (c.toNat - 0x80)).isValidChar := by
      by_cases before : a.toNat ≤ 0xED
      · exact .inl (by omega)
      · exact .inr (by omega)
    rw [octets, toNat_ofNat valid, if_neg (by omega), if_neg (by omega), if_pos (by omega),
      eq_octet (b := a) (by omega), eq_octet (b := b) (by omega), eq_octet (b := c) (by omega)]
  | @four a b c d least less tail notShorter notGreater third last =>
    obtain ⟨low, high⟩ := tail
    obtain ⟨lowC, highC⟩ := third
    obtain ⟨lowD, highD⟩ := last
    rw [octets, toNat_ofNat (.inr (by omega)), if_neg (by omega), if_neg (by omega),
      if_neg (by omega), eq_octet (b := a) (by omega), eq_octet (b := b) (by omega),
      eq_octet (b := c) (by omega), eq_octet (b := d) (by omega)]

private theorem isTail_octet {n : Nat} (least : 0x80 ≤ n) (greatest : n ≤ 0xBF) :
    IsTail n.toUInt8 := by
  rw [IsTail, toNat_octet (by omega)]
  exact ⟨least, greatest⟩

/-- A character is spelled by its octets. -/
private theorem spells_octets (c : Char) : Spells (octets c) c.toNat := by
  have valid : c.toNat < 0xD800 ∨ 0xDFFF < c.toNat ∧ c.toNat < 0x110000 := c.valid
  rw [octets]
  generalize c.toNat = n at valid
  by_cases one : n < 0x80
  · have spells := Spells.one (a := n.toUInt8) (by rw [toNat_octet (by omega)]; exact one)
    rw [toNat_octet (by omega)] at spells
    rwa [if_pos one]
  by_cases two : n < 0x800
  · have first := toNat_octet (n := 0xC0 + n / 64) (by omega)
    have second := toNat_octet (n := 0x80 + n % 64) (by omega)
    have spells := Spells.two (a := (0xC0 + n / 64).toUInt8) (b := (0x80 + n % 64).toUInt8)
      (by omega) (by omega) (isTail_octet (by omega) (by omega))
    rw [first, second] at spells
    rw [if_neg one, if_pos two]
    convert spells using 1
    omega
  by_cases three : n < 0x10000
  · have first := toNat_octet (n := 0xE0 + n / 4096) (by omega)
    have second := toNat_octet (n := 0x80 + n / 64 % 64) (by omega)
    have third := toNat_octet (n := 0x80 + n % 64) (by omega)
    have spells := Spells.three (a := (0xE0 + n / 4096).toUInt8)
      (b := (0x80 + n / 64 % 64).toUInt8) (c := (0x80 + n % 64).toUInt8) (by omega) (by omega)
      (isTail_octet (by omega) (by omega)) (by omega) (by omega) (isTail_octet (by omega) (by omega))
    rw [first, second, third] at spells
    rw [if_neg one, if_neg two, if_pos three]
    convert spells using 1
    omega
  · have first := toNat_octet (n := 0xF0 + n / 262144) (by omega)
    have second := toNat_octet (n := 0x80 + n / 4096 % 64) (by omega)
    have third := toNat_octet (n := 0x80 + n / 64 % 64) (by omega)
    have fourth := toNat_octet (n := 0x80 + n % 64) (by omega)
    have spells := Spells.four (a := (0xF0 + n / 262144).toUInt8)
      (b := (0x80 + n / 4096 % 64).toUInt8) (c := (0x80 + n / 64 % 64).toUInt8)
      (d := (0x80 + n % 64).toUInt8) (by omega) (by omega)
      (isTail_octet (by omega) (by omega)) (by omega) (by omega)
      (isTail_octet (by omega) (by omega)) (isTail_octet (by omega) (by omega))
    rw [first, second, third, fourth] at spells
    rw [if_neg one, if_neg two, if_neg three]
    convert spells using 1
    omega

/-! ## Reading -/

variable {p : Pending} {acc cs : List Char} {bs : List UInt8}

/-- The first octet of a character of several octets. -/
private theorem read_first {owed bits : Nat} {low high : UInt8}
    (announces : lead? a = some (owed + 1, low, high, bits)) :
    read none {} acc (a :: bs) = read none ⟨owed + 1, low, high, bits⟩ acc bs := by
  rw [read, announces]
  rfl

/-- The last octet that is owed. -/
private theorem read_last (owes : p.owed = 1) (b : UInt8) :
    read none p acc (b :: bs) =
      if p.low ≤ b ∧ b ≤ p.high then
        read none {} (Char.ofNat (p.bits * 64 + (b.toNat - 0x80)) :: acc) bs
      else none := by
  rw [read]
  simp [owes]

/-- An octet that is not the last that is owed. -/
private theorem read_more {owed : Nat} (owes : p.owed = owed + 2) (b : UInt8) :
    read none p acc (b :: bs) =
      if p.low ≤ b ∧ b ≤ p.high then
        read none ⟨owed + 1, 0x80, 0xBF, p.bits * 64 + (b.toNat - 0x80)⟩ acc bs
      else none := by
  rw [read]
  simp [owes]

private theorem within_tail_iff {b : UInt8} : ((0x80 : UInt8) ≤ b ∧ b ≤ 0xBF) ↔ IsTail b := by
  simp only [IsTail, UInt8.le_iff_toNat_le, UInt8.reduceToNat]

/-- The bounds that some first octets set to the next. -/
private theorem within_second_iff (low high : UInt8) {b : UInt8} {q r : Prop} [Decidable q]
    [Decidable r]
    (least : 0x80 ≤ low.toNat) (greatest : high.toNat ≤ 0xBF) :
    ((if q then low else 0x80) ≤ b ∧ b ≤ (if r then high else 0xBF)) ↔
      IsTail b ∧ (q → low.toNat ≤ b.toNat) ∧ (r → b.toNat ≤ high.toNat) := by
  simp only [IsTail, UInt8.le_iff_toNat_le, apply_ite UInt8.toNat, UInt8.reduceToNat]
  grind

/-- What is spelled is read. -/
theorem Spells.read {front rest : List UInt8} {n : Nat} (spells : Spells front n) :
    read none {} acc (front ++ rest) = Utf8.read none {} (Char.ofNat n :: acc) rest := by
  cases spells with
  | one small =>
    rw [List.singleton_append, Utf8.read, lead_one small]
    rfl
  | two least less tail =>
    rw [List.cons_append, List.singleton_append, read_first (lead_two least less), read_last rfl,
      if_pos (within_tail_iff.mpr tail)]
  | three least less tail notShorter noSurrogate last =>
    have second := (within_second_iff 0xA0 0x9F (by decide) (by decide)).mpr
      ⟨tail, notShorter, noSurrogate⟩
    rw [List.cons_append, List.cons_append, List.singleton_append,
      read_first (lead_three least less), read_more rfl, if_pos second, read_last rfl,
      if_pos (within_tail_iff.mpr last)]
  | four least less tail notShorter notGreater third last =>
    have second := (within_second_iff 0x90 0x8F (by decide) (by decide)).mpr
      ⟨tail, notShorter, notGreater⟩
    rw [List.cons_append, List.cons_append, List.cons_append, List.singleton_append,
      read_first (lead_four least less), read_more rfl, if_pos second, read_more rfl,
      if_pos (within_tail_iff.mpr third), read_last rfl, if_pos (within_tail_iff.mpr last)]

private theorem of_read_last (owes : p.owed = 1) (is : read none p acc bs = some cs) :
    ∃ b rest, bs = b :: rest ∧ p.low ≤ b ∧ b ≤ p.high := by
  cases bs with
  | nil => simp [Utf8.read, owes] at is
  | cons b rest =>
    rw [read_last owes] at is
    by_cases within : p.low ≤ b ∧ b ≤ p.high
    · exact ⟨b, rest, rfl, within⟩
    · rw [if_neg within] at is
      cases is

private theorem of_read_more {owed : Nat} (owes : p.owed = owed + 2)
    (is : read none p acc bs = some cs) :
    ∃ b rest, bs = b :: rest ∧ (p.low ≤ b ∧ b ≤ p.high) ∧
      read none ⟨owed + 1, 0x80, 0xBF, p.bits * 64 + (b.toNat - 0x80)⟩ acc rest = some cs := by
  cases bs with
  | nil => simp [Utf8.read, owes] at is
  | cons b rest =>
    rw [read_more owes] at is
    by_cases within : p.low ≤ b ∧ b ≤ p.high
    · rw [if_pos within] at is
      exact ⟨b, rest, rfl, within, is⟩
    · rw [if_neg within] at is
      cases is

/-- What is read begins with the octets of a character. -/
private theorem spells_of_read (is : read none {} acc (a :: bs) = some cs) :
    ∃ front rest n, a :: bs = front ++ rest ∧ Spells front n := by
  by_cases one : a.toNat < 0x80
  · exact ⟨[a], bs, _, rfl, .one one⟩
  by_cases tail : a.toNat < 0xC2
  · rw [Utf8.read, lead_none (.inl (by omega))] at is
    cases is
  by_cases two : a.toNat < 0xE0
  · rw [read_first (lead_two (by omega) two)] at is
    obtain ⟨b, rest, rfl, within⟩ := of_read_last rfl is
    exact ⟨[a, b], rest, _, rfl, .two (by omega) two (within_tail_iff.mp within)⟩
  by_cases three : a.toNat < 0xF0
  · rw [read_first (lead_three (by omega) three)] at is
    obtain ⟨b, rest, rfl, within, is⟩ := of_read_more rfl is
    obtain ⟨c, rest, rfl, last⟩ := of_read_last rfl is
    obtain ⟨tail, notShorter, noSurrogate⟩ :=
      (within_second_iff 0xA0 0x9F (by decide) (by decide)).mp within
    exact ⟨[a, b, c], rest, _, rfl,
      .three (by omega) three tail notShorter noSurrogate (within_tail_iff.mp last)⟩
  by_cases four : a.toNat < 0xF5
  · rw [read_first (lead_four (by omega) four)] at is
    obtain ⟨b, rest, rfl, within, is⟩ := of_read_more rfl is
    obtain ⟨c, rest, rfl, third, is⟩ := of_read_more rfl is
    obtain ⟨d, rest, rfl, last⟩ := of_read_last rfl is
    obtain ⟨tail, notShorter, notGreater⟩ :=
      (within_second_iff 0x90 0x8F (by decide) (by decide)).mp within
    exact ⟨[a, b, c, d], rest, _, rfl, .four (by omega) four tail notShorter notGreater
      (within_tail_iff.mp third) (within_tail_iff.mp last)⟩
  · rw [Utf8.read, lead_none (.inr (by omega))] at is
    cases is

/-- Reading goes on after each character. -/
private theorem read_flatMap (acc cs : List Char) :
    read none {} acc (cs.flatMap octets) = some (acc.reverse ++ cs) := by
  induction cs generalizing acc with
  | nil => simp [Utf8.read]
  | cons c rest ih =>
    have back : Char.ofNat c.toNat = c := Char.ofNat_toNat c
    rw [List.flatMap_cons, (spells_octets c).read, back, ih, List.reverse_cons, List.append_assoc,
      List.singleton_append]

/-- What is read was written. The induction is on the number of octets. -/
private theorem eq_flatMap_of_read (is : read none {} acc bs = some cs) :
    ∃ later, cs = acc.reverse ++ later ∧ bs = later.flatMap octets := by
  induction long : bs.length using Nat.strongRecOn generalizing acc bs with
  | ind length ih =>
    cases bs with
    | nil =>
      rw [Utf8.read, if_pos rfl] at is
      exact ⟨[], by simpa using (Option.some.inj is).symm, rfl⟩
    | cons a bs =>
      obtain ⟨front, rest, n, split, spells⟩ := spells_of_read is
      have written := spells.octets_eq
      have some_ : front ≠ [] := by
        rintro rfl
        cases spells
      rw [split, spells.read] at is
      have shorter : rest.length < length := by
        have front := List.length_pos_iff.mpr some_
        rw [← long, split, List.length_append]
        omega
      obtain ⟨later, whole, octets⟩ := ih rest.length shorter is rfl
      refine ⟨Char.ofNat n :: later, ?_, ?_⟩
      · rw [whole, List.reverse_cons, List.append_assoc, List.singleton_append]
      · rw [split, List.flatMap_cons, written, octets]

end Utf8

/-- Octets are read as a text exactly when they are the octets of that text. -/
theorem utf8Text?_eq_some {bs : List UInt8} {s : String} : utf8Text? bs = some s ↔ bs = utf8 s := by
  rw [utf8Text?, Option.map_eq_some_iff]
  constructor
  · rintro ⟨cs, is, rfl⟩
    obtain ⟨later, rfl, written⟩ := Utf8.eq_flatMap_of_read is
    rw [utf8, written]
    simp
  · rintro rfl
    exact ⟨s.toList, Utf8.read_flatMap [] s.toList, String.ofList_toList⟩

/-- A reader that mends reads whatever the strict one reads, and alike. -/
private theorem Utf8.read_mended {p : Pending} {acc cs : List Char} {bs : List UInt8}
    (spoiled : List Char) (is : read none p acc bs = some cs) :
    read (some spoiled) p acc bs = some cs := by
  fun_induction read none p acc bs <;> grind [read]

theorem mended_utf8 (spoiled : List Char) (s : String) : mended spoiled (utf8 s) = s := by
  have is := Utf8.read_flatMap [] s.toList
  rw [mended, utf8, Utf8.read_mended _ is]
  simp

/-! ## Lengths -/

private theorem Utf8.length_octets (c : Char) : 1 ≤ (octets c).length ∧ (octets c).length ≤ 4 := by
  rw [octets]
  grind

theorem length_le_utf8 (cs : List Char) : cs.length ≤ (utf8 (String.ofList cs)).length := by
  rw [utf8, String.toList_ofList]
  induction cs with
  | nil => simp
  | cons c cs ih =>
    have one := (Utf8.length_octets c).1
    rw [List.flatMap_cons, List.length_append, List.length_cons]
    omega

theorem length_utf8_le (s : String) : (utf8 s).length ≤ 4 * s.toList.length := by
  rw [utf8]
  induction s.toList with
  | nil => simp
  | cons c cs ih =>
    have four := (Utf8.length_octets c).2
    rw [List.flatMap_cons, List.length_append, List.length_cons]
    omega

end RoomRelay.Text
