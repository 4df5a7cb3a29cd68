import RoomRelay.Message
import RoomRelay.Proofs.Json.FreeForm
import RoomRelay.Proofs.Table

/-!
Records as they are written can be read. A record is written as an object with a member for each of
its fields that has a value. Its reader finds each of them under its name, in whatever order the
members stand, and nothing under the names of the others, so a record that was put in the order of its
keys on the way is read like one that was not.
-/

namespace RoomRelay.Json

/-! ## Numbers and depth of members -/

theorem mem_numbersMembers {n : Number} {ms : List (String × Value)} :
    n ∈ Value.numbersMembers ms ↔ ∃ m ∈ ms, n ∈ m.2.numbers := by
  induction ms with
  | nil => simp [Value.numbersMembers]
  | cons m rest ih => simp [Value.numbersMembers, ih]

theorem mem_numbersItems {n : Number} {vs : List Value} :
    n ∈ Value.numbersItems vs ↔ ∃ v ∈ vs, n ∈ v.numbers := by
  induction vs with
  | nil => simp [Value.numbersItems]
  | cons v rest ih => simp [Value.numbersItems, ih]

theorem depthMembers_le_iff {ms : List (String × Value)} {levels : Nat} :
    Value.depthMembers ms ≤ levels ↔ ∀ m ∈ ms, m.2.depth ≤ levels := by
  induction ms with
  | nil => simp [Value.depthMembers]
  | cons m rest ih => simp [Value.depthMembers, ih]

theorem depthItems_le_iff {vs : List Value} {levels : Nat} :
    Value.depthItems vs ≤ levels ↔ ∀ v ∈ vs, v.depth ≤ levels := by
  induction vs with
  | nil => simp [Value.depthItems]
  | cons v rest ih => simp [Value.depthItems, ih]

/-! ## Ways of writing -/

/-- `w` keeps all of a value but the order in which members stand. -/
structure Reorders (w : Value → Value) : Prop where
  null : w .null = .null
  bool : ∀ b, w (.bool b) = .bool b
  string : ∀ s, w (.string s) = .string s
  number : ∀ n, w (.number n) = .number n
  array : ∀ items, w (.array items) = .array (items.map w)
  object : ∀ ms, (ms.map Prod.fst).Nodup →
    ∃ ms', w (.object ms) = .object ms' ∧ ms'.Perm (ms.map fun m => (m.1, w m.2))
  arranged : ∀ v, (w v).arranged = v.arranged
  numbers : ∀ v, ∀ n ∈ (w v).numbers, n ∈ v.numbers
  depth : ∀ v, (w v).depth ≤ v.depth

/-- A value may be written as it stands. -/
theorem Reorders.id : Reorders id where
  null := rfl
  bool _ := rfl
  string _ := rfl
  number _ := rfl
  array items := by simp
  object ms _ := ⟨ms, rfl, by simp⟩
  arranged _ := rfl
  numbers _ _ member := member
  depth _ := Nat.le_refl _

theorem arrangedItems_eq (items : List Value) :
    Value.arrangedItems items = items.map Value.arranged := by
  induction items with
  | nil => rfl
  | cons v rest ih => rw [Value.arrangedItems, ih, List.map_cons]

private theorem arrangedMembers_eq (ms : List (String × Value)) :
    Value.arrangedMembers ms = ms.map fun m => (m.1, m.2.arranged) := by
  induction ms with
  | nil => rfl
  | cons m rest ih => rw [Value.arrangedMembers, ih, List.map_cons]

namespace Members

private theorem set_perm {key : String} {v : Value} {ms : Members} (fresh : key ∉ ms.map Prod.fst) :
    (ms.set key v).Perm ((key, v) :: ms) := by
  induction ms with
  | nil => exact .refl _
  | cons entry rest ih =>
    obtain ⟨k, u⟩ := entry
    rw [List.map_cons, List.mem_cons, not_or] at fresh
    rw [set, if_neg fresh.1]
    by_cases before : key < k
    · rw [if_pos before]
    · rw [if_neg before]
      exact ((ih fresh.2).cons (k, u)).trans (.swap ..)

private theorem gather_perm {acc : Members} {ms : List (String × Value)}
    (once : (ms.map Prod.fst ++ acc.map Prod.fst).Nodup) : (acc.gather ms).Perm (ms ++ acc) := by
  induction ms generalizing acc with
  | nil => exact .refl _
  | cons m rest ih =>
    have fresh : m.1 ∉ rest.map Prod.fst ++ acc.map Prod.fst := (List.nodup_cons.mp once).1
    rw [List.mem_append, not_or] at fresh
    have set := set_perm (v := m.2) fresh.2
    have keys : (rest.map Prod.fst ++ (acc.set m.1 m.2).map Prod.fst).Nodup := by
      have moved := (List.perm_append_left_iff (rest.map Prod.fst)).mpr (set.map Prod.fst)
      exact (moved.trans List.perm_middle).nodup_iff.mpr once
    exact (ih keys).trans (((List.perm_append_left_iff rest).mpr set).trans List.perm_middle)

/-- Members under different keys are only moved. -/
private theorem ofList_perm {ms : List (String × Value)} (once : (ms.map Prod.fst).Nodup) :
    (ofList ms).Perm ms := by
  have moved : (gather [] ms).Perm (ms ++ []) := gather_perm (by simpa using once)
  rwa [List.append_nil] at moved

theorem Ascending.nodup {ms : Members} (ascending : ms.Ascending) : (ms.map Prod.fst).Nodup :=
  List.pairwise_map.mpr (ascending.imp fun before => ne_of_lt before)

end Members

mutual

theorem numbers_arranged : ∀ v : Value, ∀ n ∈ v.arranged.numbers, n ∈ v.numbers
  | .null, _, member | .bool _, _, member | .string _, _, member => nomatch member
  | .number _, _, member => member
  | .array items, n, member => numbersItems_arranged items n member
  | .object ms, n, member => by
    obtain ⟨m, standing, inside⟩ := mem_numbersMembers.mp member
    exact numbersMembers_arranged ms m (Members.mem_ofList standing) n inside

private theorem numbersItems_arranged : ∀ items : List Value,
    ∀ n ∈ Value.numbersItems (Value.arrangedItems items), n ∈ Value.numbersItems items
  | [], _, member => nomatch member
  | v :: rest, n, member => by
    rcases List.mem_append.mp member with first | later
    · exact List.mem_append_left _ (numbers_arranged v n first)
    · exact List.mem_append_right _ (numbersItems_arranged rest n later)

private theorem numbersMembers_arranged : ∀ ms : List (String × Value),
    ∀ m ∈ Value.arrangedMembers ms, ∀ n ∈ m.2.numbers, n ∈ Value.numbersMembers ms
  | [], _, standing, _, _ => nomatch standing
  | (k, v) :: rest, m, standing, n, inside => by
    rcases List.mem_cons.mp standing with first | later
    · rw [first] at inside
      exact List.mem_append_left _ (numbers_arranged v n inside)
    · exact List.mem_append_right _ (numbersMembers_arranged rest m later n inside)

end

mutual

theorem depth_arranged : ∀ v : Value, v.arranged.depth ≤ v.depth
  | .null | .bool _ | .number _ | .string _ => Nat.le_refl _
  | .array items => Nat.succ_le_succ (depthItems_arranged items)
  | .object ms => by
    have inside : ∀ m ∈ Members.ofList (Value.arrangedMembers ms),
        m.2.depth ≤ Value.depthMembers ms :=
      fun m standing => depthMembers_arranged ms m (Members.mem_ofList standing)
    exact Nat.succ_le_succ (depthMembers_le_iff.mpr inside)

private theorem depthItems_arranged : ∀ items : List Value,
    Value.depthItems (Value.arrangedItems items) ≤ Value.depthItems items
  | [] => Nat.le_refl _
  | v :: rest => by
    have first := depth_arranged v
    have later := depthItems_arranged rest
    simp only [Value.arrangedItems, Value.depthItems]
    omega

private theorem depthMembers_arranged : ∀ ms : List (String × Value),
    ∀ m ∈ Value.arrangedMembers ms, m.2.depth ≤ Value.depthMembers ms
  | [], _, standing => nomatch standing
  | (k, v) :: rest, m, standing => by
    rcases List.mem_cons.mp standing with first | later
    · rw [first]
      exact Nat.le_trans (depth_arranged v) (Nat.le_max_left ..)
    · exact Nat.le_trans (depthMembers_arranged rest m later) (Nat.le_max_right ..)

end

/-- A value may be written in the order of its keys. -/
theorem Reorders.arrangement : Reorders Value.arranged where
  null := rfl
  bool _ := rfl
  string _ := rfl
  number _ := rfl
  array items := by rw [Value.arranged, arrangedItems_eq]
  object ms once := by
    refine ⟨_, rfl, ?_⟩
    rw [arrangedMembers_eq]
    refine Members.ofList_perm ?_
    simpa [Function.comp_def] using once
  arranged := arranged_arranged
  numbers := numbers_arranged
  depth := depth_arranged

/-! ## Values read back -/

/-- Whole, and within 64 bits, with a sign or without. -/
def Number.IsWord : Number → Prop
  | .whole i => -(Word.span 63 : Int) ≤ i ∧ i < Word.span 64
  | .double _ => False

instance (n : Number) : Decidable n.IsWord :=
  match n with
  | .whole i => inferInstanceAs (Decidable (-(Word.span 63 : Int) ≤ i ∧ i < Word.span 64))
  | .double _ => inferInstanceAs (Decidable False)

theorem Number.IsWord.exact {n : Number} (word : n.IsWord) : n.Exact := by
  cases n with
  | whole i => exact whole_exact word
  | double x => exact word.elim

/-- A text is not written as null, -/
private theorem Reorders.string_not_null {w : Value → Value} (reorders : Reorders w) (s : String) :
    (w (.string s)).document ≠ .null := by
  rw [reorders.string]
  exact Document.noConfusion

/-- and neither is an object. -/
theorem Reorders.object_not_null {w : Value → Value} (reorders : Reorders w)
    {ms : List (String × Value)} (once : (ms.map Prod.fst).Nodup) :
    (w (.object ms)).document ≠ .null := by
  obtain ⟨ms', written, -⟩ := reorders.object ms once
  rw [written]
  exact Document.noConfusion

/-- A value as free-form data is kept, in the order of its keys, with whole numbers only. -/
structure Value.FreeForm (v : Value) : Prop where
  ordered : v.arranged = v
  words : ∀ n ∈ v.numbers, n.IsWord

section Reading

variable {w : Value → Value}

theorem Reorders.value? (reorders : Reorders w) {v : Value} (free : v.FreeForm) :
    (w v).document.value? = some v := by
  have exact_ : ∀ n ∈ (w v).numbers, n.Exact := fun n member =>
    (free.words n (reorders.numbers v n member)).exact
  rw [value_document _ exact_, reorders.arranged, free.ordered]

theorem Reorders.value (reorders : Reorders w) {v : Value} (free : v.FreeForm) {levels : Nat}
    (room : v.depth ≤ levels) : Decode.value levels (w v).document = .ok v := by
  have shallow : ¬levels < (w v).document.depth := by
    have less := reorders.depth v
    rw [depth_document]
    omega
  rw [Decode.value, if_neg shallow, reorders.value? free]

/-- The keys of an object that is in order are all different. -/
theorem Value.FreeForm.nodup {ms : Members} (free : (Value.object ms).FreeForm) :
    (ms.map Prod.fst).Nodup := by
  have ordered := Value.object.inj free.ordered
  rw [← ordered]
  exact (Members.ofList_ascending _).nodup

theorem Reorders.members (reorders : Reorders w) {ms : Members} (free : (Value.object ms).FreeForm)
    {levels : Nat} (room : (Value.object ms).depth ≤ levels) :
    Decode.members levels (w (.object ms)).document = .ok ms := by
  have read := reorders.value free room
  obtain ⟨ms', written, -⟩ := reorders.object ms free.nodup
  rw [written] at read ⊢
  simp only [Value.document, Decode.members] at read ⊢
  rw [read]

theorem Reorders.text (reorders : Reorders w) (levels : Nat) (s : String) :
    Decode.text levels (w (.string s)).document = .ok s := by
  rw [reorders.string]
  rfl

theorem Reorders.flag (reorders : Reorders w) (levels : Nat) (b : Bool) :
    Decode.bool levels (w (.bool b)).document = .ok b := by
  rw [reorders.bool]
  rfl

theorem Reorders.parsed {α : Type} (reorders : Reorders w) {parse? : String → Option α}
    {s : String} {a : α} (parses : parse? s = some a) (levels : Nat) :
    Decode.parsed parse? levels (w (.string s)).document = .ok a := by
  rw [Decode.parsed, reorders.text]
  simp only [parses]

theorem Reorders.word {α : Type} (reorders : Reorders w) {known? : String → Option α} {s : String}
    {a : α} (known : known? s = some a) (levels : Nat) :
    Decode.word known? levels (w (.string s)).document = .ok a := by
  have read := reorders.parsed known levels
  rw [reorders.string] at read ⊢
  exact read

theorem Reorders.unsigned (reorders : Reorders w) {bits n : Nat} (small : n < Word.span bits)
    (word : (Number.whole n).IsWord) (levels : Nat) :
    Decode.unsigned bits levels (w (.int n)).document = .ok n := by
  have bounds : (0 : Int) ≤ n ∧ (n : Int) ≤ Word.span bits - 1 := by omega
  rw [Value.int, reorders.number]
  simp only [Value.document, Decode.unsigned, Decode.whole, word.exact.understood, bounds, and_self,
    if_true]
  rfl

private theorem mapM_ok {α β ε : Type} {read : β → Except ε α} {write : α → β} :
    ∀ {as : List α}, (∀ a ∈ as, read (write a) = .ok a) → (as.map write).mapM read = .ok as
  | [], _ => rfl
  | a :: rest, reads => by
    have first := reads a List.mem_cons_self
    have later := mapM_ok fun b member => reads b (List.mem_cons_of_mem _ member)
    rw [List.map_cons, List.mapM_cons, first, later]
    rfl

private theorem documentItems_eq (vs : List Value) :
    Value.documentItems vs = vs.map Value.document := by
  induction vs with
  | nil => rfl
  | cons v rest ih => rw [Value.documentItems, ih, List.map_cons]

theorem Reorders.list {α : Type} (reorders : Reorders w) {write : α → Value} {decode : Decoder α}
    {as : List α} {levels : Nat} (room : (Value.array (as.map write)).depth ≤ levels)
    (reads : ∀ levels, ∀ a ∈ as, (write a).depth ≤ levels →
      decode levels (w (write a)).document = .ok a) :
    Decode.list decode levels (w (.array (as.map write))).document = .ok as := by
  cases levels with
  | zero => cases room
  | succ levels =>
    have inside := depthItems_le_iff.mp (Nat.le_of_succ_le_succ room)
    rw [reorders.array, Value.document, documentItems_eq, List.map_map, List.map_map]
    exact mapM_ok fun a member => reads levels a member (inside _ (List.mem_map_of_mem member))

/-! ## Records -/

theorem lookup_eq_none {α : Type} {name : String} {l : List (String × α)}
    (absent : name ∉ l.map Prod.fst) : l.lookup name = none := by
  rw [Table.lookup_eq_get?]
  exact Table.get?_eq_none_iff.mpr absent

/-- What stands under a name that stands once is what is found. -/
private theorem lookup_eq_some {α : Type} {name : String} {a : α} {l : List (String × α)}
    (once : (l.map Prod.fst).Nodup) (member : (name, a) ∈ l) : l.lookup name = some a := by
  rw [Table.lookup_eq_get?]
  exact Table.get?_of_mem once member

private theorem knownFields_document {names : List String} {ms : List (String × Value)}
    {acc : List (String × Document)} (known : ∀ m ∈ ms, m.1 ∈ names)
    (once : (ms.map Prod.fst ++ acc.map Prod.fst).Nodup) :
    Decode.knownFields names (Value.documentMembers ms) acc =
      .ok ((ms.map fun m => (m.1, m.2.document)).reverse ++ acc) := by
  induction ms generalizing acc with
  | nil => rfl
  | cons m rest ih =>
    obtain ⟨key, v⟩ := m
    have fresh : key ∉ rest.map Prod.fst ++ acc.map Prod.fst := (List.nodup_cons.mp once).1
    rw [List.mem_append, not_or] at fresh
    have knows : names.contains key = true :=
      List.contains_iff_mem.mpr (known (key, v) List.mem_cons_self)
    have next : (rest.map Prod.fst ++ (key :: acc.map Prod.fst)).Nodup :=
      List.perm_middle.nodup_iff.mpr once
    have read := @ih ((key, v.document) :: acc)
      (fun m member => known m (List.mem_cons_of_mem _ member)) next
    rw [Value.documentMembers, Decode.knownFields, knows, lookup_eq_none fresh.2, read]
    simp

/-- What the reader of a record has before it: the fields that have a value, each as it was written
and with levels enough, and no others. -/
structure Carries (f : Decode.Fields) (w : Value → Value) (fs : List (String × Option Value)) :
    Prop where
  reorders : Reorders w
  present : ∀ name v, (name, some v) ∈ fs →
    f.given.lookup name = some (w v).document ∧ v.depth ≤ f.levels
  absent : ∀ name, (name, none) ∈ fs → f.given.lookup name = none

theorem mem_presentFields {fs : List (String × Option Value)} {m : String × Value} :
    m ∈ presentFields fs ↔ (m.1, some m.2) ∈ fs := by
  obtain ⟨name, v⟩ := m
  simp [presentFields]

theorem keys_presentFields (fs : List (String × Option Value)) :
    ((presentFields fs).map Prod.fst).Sublist (fs.map Prod.fst) := by
  induction fs with
  | nil => exact .slnil
  | cons f rest ih =>
    obtain ⟨name, value⟩ := f
    cases value with
    | none => exact ih.cons _
    | some v => exact ih.cons_cons _

/-- The numbers of a record are those of its fields. -/
theorem words_record {fs : List (String × Option Value)}
    (words : ∀ field ∈ fs, ∀ v ∈ field.2, ∀ n ∈ v.numbers, n.IsWord) :
    ∀ n ∈ (Value.object (presentFields fs)).numbers, n.IsWord := by
  intro n member
  obtain ⟨m, standing, inside⟩ := mem_numbersMembers.mp member
  exact words _ (mem_presentFields.mp standing) m.2 rfl n inside

/-- A record opens one level more than its fields. -/
theorem depth_record {fs : List (String × Option Value)} {levels : Nat}
    (room : ∀ field ∈ fs, ∀ v ∈ field.2, v.depth ≤ levels) :
    (Value.object (presentFields fs)).depth ≤ levels + 1 := by
  refine Nat.succ_le_succ (depthMembers_le_iff.mpr ?_)
  intro m standing
  exact room _ (mem_presentFields.mp standing) m.2 rfl

/-- A record is read from its object as its fields. -/
theorem Reorders.fields (reorders : Reorders w) {fs : List (String × Option Value)}
    {levels : Nat} (room : (Value.object (presentFields fs)).depth ≤ levels)
    (once : (fs.map Prod.fst).Nodup) :
    ∃ f, Decode.fields (fs.map Prod.fst) levels (w (.object (presentFields fs))).document = .ok f ∧
      Carries f w fs := by
  cases levels with
  | zero => cases room
  | succ levels =>
    have inside := depthMembers_le_iff.mp (Nat.le_of_succ_le_succ room)
    have names := once.sublist (keys_presentFields fs)
    obtain ⟨ms, written, moved⟩ := reorders.object (presentFields fs) names
    have keys : (ms.map Prod.fst).Perm ((presentFields fs).map Prod.fst) := by
      simpa [Function.comp_def] using moved.map Prod.fst
    have known : ∀ m ∈ ms, m.1 ∈ fs.map Prod.fst := fun m member =>
      (keys_presentFields fs).subset (keys.mem_iff.mp (List.mem_map_of_mem member))
    have read : Decode.knownFields (fs.map Prod.fst) (Value.documentMembers ms) [] =
        .ok ((ms.map fun m => (m.1, m.2.document)).reverse ++ []) :=
      knownFields_document known (by simpa using keys.nodup_iff.mpr names)
    rw [List.append_nil] at read
    refine ⟨⟨false, levels, (ms.map fun m => (m.1, m.2.document)).reverse⟩, ?_, reorders, ?_, ?_⟩
    · rw [written, Value.document, Decode.fields, read]
      rfl
    · intro name v member
      have standing : (name, v) ∈ presentFields fs := mem_presentFields.mpr member
      refine ⟨lookup_eq_some ?_ ?_, inside _ standing⟩
      · rw [List.map_reverse, List.map_map]
        exact (List.reverse_perm _).nodup_iff.mpr (keys.nodup_iff.mpr names)
      · have moved : (name, w v) ∈ ms :=
          moved.mem_iff.mpr (List.mem_map_of_mem (f := fun m => (m.1, w m.2)) standing)
        exact List.mem_reverse.mpr
          (List.mem_map_of_mem (f := fun m => (m.1, m.2.document)) moved)
    · intro name member
      refine lookup_eq_none ?_
      rw [List.map_reverse, List.map_map, List.mem_reverse]
      intro standing
      have held := keys.mem_iff.mp standing
      obtain ⟨m, present, same⟩ := List.mem_map.mp held
      have both := mem_presentFields.mp present
      rw [same] at both
      -- one name would stand with a value and without
      have one := lookup_eq_some once member
      rw [lookup_eq_some once both] at one
      cases one

variable {f : Decode.Fields} {fs : List (String × Option Value)} {α : Type}
  {decode : Decoder α} {write : α → Value}

theorem Carries.required {a : α} {v : Value} (carries : Carries f w fs) (name : String)
    (member : (name, some v) ∈ fs)
    (reads : v.depth ≤ f.levels → decode f.levels (w v).document = .ok a) :
    f.required name decode = .ok a := by
  obtain ⟨found, room⟩ := carries.present name _ member
  rw [Decode.Fields.required, found]
  exact reads room

theorem Carries.withDefault {a absent : α} {v : Value} (carries : Carries f w fs) (name : String)
    (member : (name, some v) ∈ fs)
    (reads : v.depth ≤ f.levels → decode f.levels (w v).document = .ok a) :
    f.withDefault name decode absent = .ok a := by
  obtain ⟨found, room⟩ := carries.present name _ member
  rw [Decode.Fields.withDefault, found]
  exact reads room

theorem Carries.withDefault_absent {absent : α} (carries : Carries f w fs) (name : String)
    (member : (name, none) ∈ fs) : f.withDefault name decode absent = .ok absent := by
  rw [Decode.Fields.withDefault, carries.absent name member]

private theorem nullable_ok {levels : Nat} {d : Document} {a : α} (some_ : d ≠ .null)
    (read : decode levels d = .ok a) : Decode.nullable decode levels d = .ok (some a) := by
  unfold Decode.nullable
  split
  · exact absurd rfl some_
  · rw [read]
    rfl

/-- A field that may be left out is read as what was written, if its values are not written as
null. -/
theorem Carries.optional {o : Option α} (carries : Carries f w fs) (name : String)
    (member : (name, o.map write) ∈ fs)
    (reads : ∀ a, o = some a → (write a).depth ≤ f.levels →
      (w (write a)).document ≠ .null ∧ decode f.levels (w (write a)).document = .ok a) :
    f.optional name decode = .ok o := by
  cases o with
  | none => exact carries.withDefault_absent name member
  | some a =>
    obtain ⟨found, room⟩ := carries.present name _ member
    obtain ⟨some_, read⟩ := reads a rfl room
    rw [Decode.Fields.optional, Decode.Fields.withDefault, found]
    exact nullable_ok some_ read

theorem Carries.text (carries : Carries f w fs) (name : String) {s : String}
    (member : (name, some (.string s)) ∈ fs) : f.required name Decode.text = .ok s :=
  carries.required name member fun _ => carries.reorders.text f.levels s

theorem Carries.optionalText (carries : Carries f w fs) (name : String) {o : Option String}
    (member : (name, o.map .string) ∈ fs) : f.optional name Decode.text = .ok o :=
  carries.optional name member fun s _ _ =>
    ⟨carries.reorders.string_not_null s, carries.reorders.text f.levels s⟩

section Parsed

variable {parse? : String → Option α} {print : α → String}
  (parses : ∀ a, parse? (print a) = some a)
include parses

/-- A field is read back if what is printed of its values is parsed as them. -/
theorem Carries.parsed (carries : Carries f w fs) (name : String) {a : α}
    (member : (name, some (.string (print a))) ∈ fs) :
    f.required name (Decode.parsed parse?) = .ok a :=
  carries.required name member fun _ => carries.reorders.parsed (parses a) f.levels

theorem Carries.optionalParsed (carries : Carries f w fs) (name : String) {o : Option α}
    (member : (name, o.map fun a => .string (print a)) ∈ fs) :
    f.optional name (Decode.parsed parse?) = .ok o :=
  carries.optional name member fun a _ _ =>
    ⟨carries.reorders.string_not_null (print a), carries.reorders.parsed (parses a) f.levels⟩

end Parsed

/-! ## Whole texts -/

/-- What is read of a document is read of the text that it is written as. -/
theorem Reorders.run (reorders : Reorders w) {v : Value} {a : α}
    (words : ∀ n ∈ v.numbers, n.IsWord) (read : decode levelLimit (w v).document = .ok a) :
    Decode.run decode (w v).render = .ok a := by
  have exact_ : ∀ n ∈ (w v).numbers, n.Exact := fun n member =>
    (words n (reorders.numbers v n member)).exact
  rw [Decode.run, Document.read_render, plain_of_exact exact_]
  exact read

end Reading

end RoomRelay.Json
