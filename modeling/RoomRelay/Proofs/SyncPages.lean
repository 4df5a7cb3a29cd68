import RoomRelay.Command
import RoomRelay.Proofs.Json.Records

/-!
Which page of notifications a client gets for what it asks. A page has at least one item and at most
fifty, and begins at the front or behind it, whatever was asked, and asking for the page that one got
gives the same page. What was asked counts when it is a whole number of 64 bits with a sign. So the
greatest limits that JSON can name, from 2^63 on, are not brought down to the greatest that is
allowed: they count as if no limit had been given.
-/

namespace RoomRelay

open Json

namespace Json.Value

/-- The whole number under a key, if it fits in 64 bits with a sign. -/
def wholeAt? (v : Value) (key : String) : Option Int := (v.get? key).bind asInt64?

private theorem asInt64_eq_some {v : Value} {n : Int} :
    v.asInt64? = some n ↔ v = .int n ∧ Word.IsSigned n := by
  constructor
  · intro read
    unfold asInt64? at read
    split at read
    · split at read
      · rename_i fits
        cases read
        exact ⟨rfl, fits⟩
      · cases read
    · cases read
  · rintro ⟨rfl, fits⟩
    exact if_pos fits

private theorem wholeAt_eq_some {v : Value} {key : String} {n : Int} :
    v.wholeAt? key = some n ↔ v.get? key = some (.int n) ∧ Word.IsSigned n := by
  rw [wholeAt?, Option.bind_eq_some_iff]
  constructor
  · rintro ⟨found, standing, read⟩
    obtain ⟨rfl, fits⟩ := asInt64_eq_some.mp read
    exact ⟨standing, fits⟩
  · rintro ⟨standing, fits⟩
    exact ⟨_, standing, asInt64_eq_some.mpr ⟨rfl, fits⟩⟩

private theorem wholeAt_eq_none {v : Value} {key : String}
    (other : ∀ n, Word.IsSigned n → v.get? key ≠ some (.int n)) : v.wholeAt? key = none := by
  rw [Option.eq_none_iff_forall_ne_some]
  intro n found
  obtain ⟨standing, fits⟩ := wholeAt_eq_some.mp found
  exact other n fits standing

end Json.Value

namespace SyncParams

/-- The number of items that a limit should come to: the limit, brought down to the greatest, and
without a limit of at least one the default. -/
def promised (n : Int) : Int := if n < 1 then defaultLimit else min n greatestLimit

/-- The data that asks for a page. -/
def toData (p : SyncParams) : Value :=
  .object [("limit", .int p.limit), ("offset", .int p.offset), ("unread_only", .bool p.unreadOnly)]

/-- A page that some data can ask for. -/
structure InRange (p : SyncParams) : Prop where
  some_ : 1 ≤ p.limit
  notMany : p.limit ≤ greatestLimit
  offset : 0 ≤ p.offset
  offsetFits : Word.IsSigned p.offset

variable {v w : Value} {m n : Int}

private theorem promised_range (n : Int) : 1 ≤ promised n ∧ promised n ≤ greatestLimit := by
  unfold promised defaultLimit greatestLimit
  omega

private theorem promised_mono (some_ : 1 ≤ m) (le : m ≤ n) : promised m ≤ promised n := by
  unfold promised
  omega

/-! ## Limits, offsets and flags -/

private theorem limit_eq (v : Value) :
    (ofData (some v)).limit = ((v.wholeAt? "limit").map promised).getD defaultLimit := by
  unfold Value.wholeAt?
  cases asked : (v.get? "limit").bind Value.asInt64? with
  | none => simp [ofData, asked]
  | some n => simp [ofData, asked, promised]

private theorem limit_of_signed (fits : Word.IsSigned n) (asked : v.get? "limit" = some (.int n)) :
    (ofData (some v)).limit = promised n := by
  rw [limit_eq, Value.wholeAt_eq_some.mpr ⟨asked, fits⟩]
  rfl

private theorem limit_of_other (other : ∀ n, Word.IsSigned n → v.get? "limit" ≠ some (.int n)) :
    (ofData (some v)).limit = defaultLimit := by
  rw [limit_eq, Value.wholeAt_eq_none other]
  rfl

/-- A limit that only 64 bits without a sign can hold counts as none. -/
private theorem limit_of_great (great : Word.span 63 ≤ n) (asked : v.get? "limit" = some (.int n)) :
    (ofData (some v)).limit = defaultLimit := by
  apply limit_of_other
  intro k fits same
  rw [asked] at same
  cases same
  exact absurd fits.2 (Int.not_lt.mpr great)

private theorem offset_of_signed (fits : Word.IsSigned n)
    (asked : v.get? "offset" = some (.int n)) :
    (ofData (some v)).offset = max n 0 := by
  show max ((v.wholeAt? "offset").getD 0) 0 = max n 0
  rw [Value.wholeAt_eq_some.mpr ⟨asked, fits⟩]
  rfl

private theorem offset_of_other (other : ∀ n, Word.IsSigned n → v.get? "offset" ≠ some (.int n)) :
    (ofData (some v)).offset = 0 := by
  show max ((v.wholeAt? "offset").getD 0) 0 = 0
  rw [Value.wholeAt_eq_none other]
  rfl

private theorem unreadOnly_of_flag {b : Bool} (asked : v.get? "unread_only" = some (.bool b)) :
    (ofData (some v)).unreadOnly = b := by
  simp [ofData, asked, Value.asBool?]

/-- Whatever is asked, the page is one that could be asked for. -/
private theorem ofData_inRange (v : Value) : (ofData (some v)).InRange := by
  have offset : (ofData (some v)).offset = max ((v.wholeAt? "offset").getD 0) 0 := rfl
  have limit : 1 ≤ (ofData (some v)).limit ∧ (ofData (some v)).limit ≤ greatestLimit := by
    rw [limit_eq]
    cases v.wholeAt? "limit" with
    | none => exact ⟨by decide, by decide⟩
    | some n => exact promised_range n
  refine ⟨limit.1, limit.2, ?_, ?_⟩
  · rw [offset]
    exact Int.le_max_right _ _
  · rw [offset]
    cases asked : v.wholeAt? "offset" with
    | none => decide
    | some n =>
      obtain ⟨-, least, greatest⟩ := Value.wholeAt_eq_some.mp asked
      have room : (0 : Int) < Word.span 63 := by decide
      constructor
      · simp only [Option.getD_some]
        omega
      · simp only [Option.getD_some]
        omega

/-- Asking for a page gives that page. -/
private theorem ofData_toData {p : SyncParams} (inRange : p.InRange) :
    ofData (some p.toData) = p := by
  obtain ⟨some_, notMany, offset, offsetFits⟩ := inRange
  have limitFits : Word.IsSigned p.limit := by
    have least : -(Word.span 63 : Int) ≤ 1 := by decide
    have greatest : greatestLimit < Word.span 63 := by decide
    constructor
    · omega
    · omega
  have limit := limit_of_signed (v := p.toData) limitFits rfl
  have start := offset_of_signed (v := p.toData) offsetFits rfl
  have flag := unreadOnly_of_flag (v := p.toData) (b := p.unreadOnly) rfl
  have same : promised p.limit = p.limit := by
    unfold promised
    omega
  calc ofData (some p.toData) = ⟨promised p.limit, max p.offset 0, p.unreadOnly⟩ := by
        rw [← limit, ← start, ← flag]
    _ = p := by rw [same, Int.max_eq_left offset]

/-! ## Pages -/

/-- How a page goes by the data that asks for it. -/
structure GoesBy (p : SyncParams) (data : Value) : Prop where
  limit : ∀ n, (Number.whole n).IsWord → data.get? "limit" = some (.int n) →
    p.limit = if n < Word.span 63 then promised n else defaultLimit
  /-- What is no whole number of 64 bits counts as no limit. -/
  noLimit : (∀ n, (Number.whole n).IsWord → data.get? "limit" ≠ some (.int n)) →
    p.limit = defaultLimit
  offset : ∀ n, Word.IsSigned n → data.get? "offset" = some (.int n) → p.offset = max n 0
  noOffset : (∀ n, Word.IsSigned n → data.get? "offset" ≠ some (.int n)) → p.offset = 0
  inRange : p.InRange
  /-- Asked for what it got, a client gets it again. -/
  again : ofData (some p.toData) = p

private theorem ofData_goesBy (v : Value) : (ofData (some v)).GoesBy v where
  limit n word asked := by
    split
    · rename_i signed
      exact limit_of_signed ⟨word.1, signed⟩ asked
    · rename_i great
      exact limit_of_great (Int.not_lt.mp great) asked
  noLimit other := by
    apply limit_of_other
    intro n fits
    have halves : (Word.span 63 : Int) ≤ Word.span 64 := by decide
    exact other n ⟨fits.1, Int.lt_of_lt_of_le fits.2 halves⟩
  offset _ := offset_of_signed
  noOffset := offset_of_other
  inRange := ofData_inRange v
  again := ofData_toData (ofData_inRange v)

/-- A page goes by the data that asks for it. Among all whole numbers of 64 bits, with a sign or
without, the limit comes to what it should exactly when it fits with a sign, and among those that do
a greater limit gives no smaller page. -/
theorem limit_promised_iff_signed (v : Value) :
    (ofData (some v)).GoesBy v ∧
      (∀ n, (Number.whole n).IsWord → v.get? "limit" = some (.int n) →
        ((ofData (some v)).limit = promised n ↔ n < Word.span 63)) ∧
      ∀ (w : Value) (m n : Int), v.get? "limit" = some (.int m) → w.get? "limit" = some (.int n) →
        1 ≤ m → m ≤ n → n < Word.span 63 →
        (ofData (some v)).limit ≤ (ofData (some w)).limit := by
  refine ⟨ofData_goesBy v, ?_, ?_⟩
  · intro n word asked
    rw [(ofData_goesBy v).limit n word asked]
    by_cases signed : n < Word.span 63
    · rw [if_pos signed]
      exact iff_of_true rfl signed
    · rw [if_neg signed]
      refine iff_of_false ?_ signed
      have great : greatestLimit < Word.span 63 := by decide
      have fewer : defaultLimit < greatestLimit := by decide
      have some_ : (1 : Int) ≤ greatestLimit := by decide
      unfold promised
      omega
  · intro w m n asked askedMore some_ le signed
    have least : -(Word.span 63 : Int) ≤ 1 := by decide
    have fits : Word.IsSigned m := ⟨by omega, by omega⟩
    have fitsMore : Word.IsSigned n := ⟨by omega, signed⟩
    rw [limit_of_signed fits asked, limit_of_signed fitsMore askedMore]
    exact promised_mono some_ le

/-- Data that asks for so many items. -/
def asking (n : Int) : Value := .object [("limit", .int n)]

/-- The greatest number of 64 bits with a sign is brought down to fifty; the next one is not. -/
theorem asking_limits :
    ((asking (Word.span 63 - 1)).get? "limit" = some (.int (Word.span 63 - 1)) ∧
      (ofData (some (asking (Word.span 63 - 1)))).limit = promised (Word.span 63 - 1)) ∧
    ((asking (Word.span 63)).get? "limit" = some (.int (Word.span 63)) ∧
      (ofData (some (asking (Word.span 63)))).limit ≠ promised (Word.span 63)) ∧
    (ofData (some (asking 7))).limit ≤ (ofData (some (asking 8))).limit := by
  obtain ⟨-, fits, -⟩ := limit_promised_iff_signed (asking (Word.span 63 - 1))
  obtain ⟨-, tooGreat, -⟩ := limit_promised_iff_signed (asking (Word.span 63))
  obtain ⟨-, -, mono⟩ := limit_promised_iff_signed (asking 7)
  refine ⟨⟨rfl, ?_⟩, ⟨rfl, ?_⟩, ?_⟩
  · exact (fits _ (by decide) rfl).mpr (by decide)
  · exact mt (tooGreat _ (by decide) rfl).mp (by decide)
  · exact mono (asking 8) 7 8 rfl rfl (by decide) (by decide) (by decide)

/-- A limit of 2^63 asks for the greatest page and gets the default one. -/
theorem great_limit_gets_default :
    (Number.whole (Word.span 63)).IsWord ∧
      (asking (Word.span 63)).get? "limit" = some (.int (Word.span 63)) ∧
      (ofData (some (asking (Word.span 63)))).limit = 20 ∧ promised (Word.span 63) = 50 := by
  refine ⟨by decide, rfl, by decide, by decide⟩

end SyncParams

end RoomRelay
