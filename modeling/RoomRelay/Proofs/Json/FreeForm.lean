import Mathlib.Data.String.Basic
import RoomRelay.Proofs.Json.Reading

/-!
Free-form values over the wire. Objects are kept in the order of their keys, so what is read from a
value's text is the value with its objects brought into that order, and a value that is in that order
comes back as it was.
-/

namespace RoomRelay.Json

/-! ## Members in order -/

namespace Members

/-- The keys ascend, so none stands twice. -/
def Ascending (ms : Members) : Prop := ms.Pairwise fun m n => m.1 < n.1

theorem mem_set {key : String} {v : Value} {ms : Members} {m : String × Value}
    (member : m ∈ ms.set key v) : m = (key, v) ∨ m ∈ ms := by
  induction ms with
  | nil => exact .inl (List.mem_singleton.mp member)
  | cons entry rest ih =>
    obtain ⟨k, w⟩ := entry
    rw [set] at member
    split at member
    · rcases List.mem_cons.mp member with new | old
      · exact .inl new
      · exact .inr (List.mem_cons_of_mem _ old)
    · split at member
      · rcases List.mem_cons.mp member with new | old
        · exact .inl new
        · exact .inr old
      · rcases List.mem_cons.mp member with same | later
        · exact .inr (same ▸ List.mem_cons_self)
        · rcases ih later with new | old
          · exact .inl new
          · exact .inr (List.mem_cons_of_mem _ old)

theorem set_ascending {ms : Members} (ascending : ms.Ascending) (key : String) (v : Value) :
    (ms.set key v).Ascending := by
  induction ms with
  | nil => exact List.pairwise_singleton ..
  | cons entry rest ih =>
    obtain ⟨k, w⟩ := entry
    obtain ⟨least, later⟩ := List.pairwise_cons.mp ascending
    rw [set]
    by_cases same : key = k
    · subst same
      rw [if_pos rfl]
      exact List.pairwise_cons.mpr ⟨least, later⟩
    · rw [if_neg same]
      by_cases before : key < k
      · rw [if_pos before]
        refine List.pairwise_cons.mpr ⟨?_, ascending⟩
        intro m member
        rcases List.mem_cons.mp member with first | other
        · rw [first]
          exact before
        · exact lt_trans before (least m other)
      · rw [if_neg before]
        refine List.pairwise_cons.mpr ⟨?_, ih later⟩
        intro m member
        rcases mem_set member with new | old
        · rw [new]
          exact lt_of_le_of_ne (not_lt.mp before) (Ne.symm same)
        · exact least m old

/-- A key behind all others is set at the end. -/
private theorem set_last {ms : Members} {key : String} (behind : ∀ m ∈ ms, m.1 < key) (v : Value) :
    ms.set key v = ms ++ [(key, v)] := by
  induction ms with
  | nil => rfl
  | cons entry rest ih =>
    obtain ⟨k, w⟩ := entry
    have first : k < key := behind (k, w) List.mem_cons_self
    rw [set, if_neg (ne_of_gt first), if_neg (not_lt_of_gt first),
      ih fun m member => behind m (List.mem_cons_of_mem _ member)]
    rfl

/-- The members gathered so far with more of them. -/
def gather (acc : Members) (ms : List (String × Value)) : Members :=
  ms.foldl (fun acc m => set m.1 m.2 acc) acc

private theorem gather_ascending {acc : Members} (ascending : acc.Ascending)
    (ms : List (String × Value)) : (acc.gather ms).Ascending := by
  induction ms generalizing acc with
  | nil => exact ascending
  | cons m rest ih => exact ih (set_ascending ascending m.1 m.2)

private theorem mem_gather {acc : Members} {ms : List (String × Value)} {m : String × Value}
    (member : m ∈ acc.gather ms) : m ∈ acc ∨ m ∈ ms := by
  induction ms generalizing acc with
  | nil => exact .inl member
  | cons n rest ih =>
    rcases ih member with gathered | later
    · rcases mem_set gathered with new | old
      · exact .inr (new ▸ List.mem_cons_self)
      · exact .inl old
    · exact .inr (List.mem_cons_of_mem _ later)

/-- Members that go on in order are gathered as they stand. -/
private theorem gather_append {acc ms : Members} (ascending : (acc ++ ms).Ascending) :
    acc.gather ms = acc ++ ms := by
  induction ms generalizing acc with
  | nil => simp [gather]
  | cons m rest ih =>
    have behind : ∀ n ∈ acc, n.1 < m.1 := fun n member =>
      (List.pairwise_append.mp ascending).2.2 n member m List.mem_cons_self
    have moved : acc ++ m :: rest = acc ++ [(m.1, m.2)] ++ rest := by simp
    have step : acc.gather (m :: rest) = (acc.set m.1 m.2).gather rest := rfl
    rw [moved] at ascending ⊢
    rw [step, set_last behind, ih ascending]

theorem ofList_ascending (ms : List (String × Value)) : (ofList ms).Ascending :=
  gather_ascending List.Pairwise.nil ms

theorem mem_ofList {ms : List (String × Value)} {m : String × Value} (member : m ∈ ofList ms) :
    m ∈ ms := by
  have either : m ∈ ([] : Members) ∨ m ∈ ms := mem_gather member
  rcases either with gathered | given
  · cases gathered
  · exact given

/-- Members in order stay as they are. -/
theorem ofList_eq_self {ms : Members} (ascending : ms.Ascending) : ofList ms = ms := by
  have whole : ([] ++ ms : Members).Ascending := ascending
  exact gather_append whole

end Members

/-! ## Values in order -/

theorem arrangedMembers_eq_self {ms : List (String × Value)}
    (fixed : ∀ m ∈ ms, m.2.arranged = m.2) : Value.arrangedMembers ms = ms := by
  induction ms with
  | nil => rfl
  | cons m rest ih =>
    rw [Value.arrangedMembers, fixed m List.mem_cons_self,
      ih fun n member => fixed n (List.mem_cons_of_mem _ member)]

mutual

/-- A value in order stays as it is. -/
theorem arranged_arranged : ∀ v : Value, v.arranged.arranged = v.arranged
  | .null | .bool _ | .number _ | .string _ => rfl
  | .array items => by
    rw [Value.arranged, Value.arranged, arrangedItems_arranged items]
  | .object members => by
    have fixed : ∀ m ∈ Members.ofList (Value.arrangedMembers members), m.2.arranged = m.2 :=
      fun m member => arranged_of_mem members m (Members.mem_ofList member)
    rw [Value.arranged, Value.arranged, arrangedMembers_eq_self fixed,
      Members.ofList_eq_self (Members.ofList_ascending _)]

private theorem arrangedItems_arranged : ∀ items : List Value,
    Value.arrangedItems (Value.arrangedItems items) = Value.arrangedItems items
  | [] => rfl
  | v :: rest => by
    rw [Value.arrangedItems, Value.arrangedItems, arranged_arranged v, arrangedItems_arranged rest]

private theorem arranged_of_mem : ∀ (members : List (String × Value)),
    ∀ m ∈ Value.arrangedMembers members, m.2.arranged = m.2
  | [], _, member => nomatch member
  | (k, v) :: rest, m, member => by
    rw [Value.arrangedMembers] at member
    rcases List.mem_cons.mp member with first | later
    · rw [first]
      exact arranged_arranged v
    · exact arranged_of_mem rest m later

end

/-! ## What is read -/

mutual

/-- What is read from a value's document is the value in order, when its numbers are read as they
were. -/
theorem value_document : ∀ v : Value, (∀ n ∈ v.numbers, n.Exact) →
    v.document.value? = some v.arranged
  | .null, _ | .bool _, _ | .string _, _ => rfl
  | .number n, exact_ => by
    have understood := (exact_ n (by simp [Value.numbers])).understood
    rw [Value.document, Document.value?, understood]
    rfl
  | .array items, exact_ => by
    rw [Value.document, Document.value?, valueItems_document items exact_]
    rfl
  | .object members, exact_ => by
    rw [Value.document, Document.value?, valueMembers_document members [] exact_]
    rfl

private theorem valueItems_document : ∀ items : List Value,
    (∀ n ∈ Value.numbersItems items, n.Exact) →
      Document.valueItems? (Value.documentItems items) = some (Value.arrangedItems items)
  | [], _ => rfl
  | v :: rest, exact_ => by
    have first := value_document v fun n member =>
      exact_ n (List.mem_append.mpr (.inl member))
    have later := valueItems_document rest fun n member =>
      exact_ n (List.mem_append.mpr (.inr member))
    rw [Value.documentItems, Document.valueItems?, first, later]
    rfl

private theorem valueMembers_document : ∀ (members : List (String × Value)) (acc : Members),
    (∀ n ∈ Value.numbersMembers members, n.Exact) →
      Document.valueMembers? acc (Value.documentMembers members) =
        some (acc.gather (Value.arrangedMembers members))
  | [], acc, _ => rfl
  | (k, v) :: rest, acc, exact_ => by
    have first := value_document v fun n member =>
      exact_ n (List.mem_append.mpr (.inl member))
    have later := valueMembers_document rest (acc.set k v.arranged) fun n member =>
      exact_ n (List.mem_append.mpr (.inr member))
    simp only [Value.documentMembers, Document.valueMembers?, first, later]
    rfl

end

/-- The free-form value that a reader with so many levels gets from a value's text. -/
def Value.received? (levels : Nat) (v : Value) : Option Value :=
  if plain v.numbers ∧ v.depth ≤ levels then v.document.value? else none

theorem plain_of_exact {ns : List Number} (exact_ : ∀ n ∈ ns, n.Exact) : plain ns = true := by
  refine List.all_eq_true.mpr ?_
  intro n member
  rw [(exact_ n member).plain]
  rfl

/-- A value that is in order and not too deep, with numbers that are read as they were, comes back
as it was. -/
theorem received_arranged {levels : Nat} {v : Value} (exact_ : ∀ n ∈ v.arranged.numbers, n.Exact)
    (shallow : v.arranged.depth ≤ levels) : v.arranged.received? levels = some v.arranged := by
  rw [Value.received?, if_pos ⟨plain_of_exact exact_, shallow⟩, value_document _ exact_,
    arranged_arranged]

end RoomRelay.Json
