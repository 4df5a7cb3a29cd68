import RoomRelay.Proofs.BusReading

/-!
What the subscriptions of a bus in memory are given, over whole runs: messages are published,
subscriptions made and read one message at a time, and the bus is switched off and on, in any order.
Each message of the bus has a number, its place in the order of publication. A subscription is given
the messages from its own beginning on that it asks for, as far as its reading has come, but for those
that the bus no longer retained when the reading came to them. It does not matter who else reads.
-/

namespace RoomRelay

/-- Something done on a bus by those who use it. -/
inductive BusAct where
  | publish (m : BusMessage)
  | subscribe (f : Filter)
  /-- The reader of this number asks for its next message. -/
  | read (k : Nat)
  | switch (on : Bool)

/-- One asking for the next message. -/
structure Reading where
  /-- How many messages the bus held. -/
  held : Nat
  /-- How many of them the reader had come to afterwards. -/
  reached : Nat
  given : Option BusMessage

/-- A subscription with what has come of it. -/
structure Reader where
  subscription : Subscription
  asked : Filter
  /-- How many messages the bus held when the subscription was made. -/
  begun : Nat
  readings : List Reading := []

/-- A bus with its readers, in the order in which they subscribed. -/
structure Readership where
  bus : MemoryBus
  readers : List Reader := []

namespace Reader

/-- The reader after asking for its next message. -/
def read (b : MemoryBus) (r : Reader) : Reader :=
  { r with
    subscription := (b.next r.subscription).2
    readings := r.readings ++
      [⟨b.history.length, (b.next r.subscription).2.position, (b.next r.subscription).1⟩] }

/-- The messages that a reader was given, in order. -/
def received (r : Reader) : List BusMessage := r.readings.filterMap (·.given)

/-- How many messages the bus held when the reading came to one of them, if it has. -/
def heldAt (r : Reader) (i : Nat) : Option Nat :=
  (r.readings.find? fun x => i < x.reached).map (·.held)

/-- Whether a message is due to a reader: it was published after the reader subscribed, is one that
the reader asks for, and was among the newest that the bus retains when the reading came to it. -/
def due (r : Reader) (e : BusMessage × Nat) : Bool :=
  decide (r.begun ≤ e.2) && r.asked.accepts e.1.channel &&
    (r.heldAt e.2).any fun held => decide (held ≤ e.2 + MemoryBus.retained)

end Reader

namespace Readership

/-- The bus and its readers after an act. -/
def act (s : Readership) : BusAct → Readership
  | .publish m => { s with bus := (s.bus.publish m).1 }
  | .subscribe f =>
    match s.bus.subscribe f with
    | .ok subscription =>
      let reader : Reader := { subscription, asked := f, begun := s.bus.history.length }
      { s with readers := s.readers ++ [reader] }
    | .error _ => s
  | .read k => { s with readers := s.readers.modify k (·.read s.bus) }
  | .switch on => { s with bus := { s.bus with available := on } }

/-- The bus and its readers after a run. -/
def run (s : Readership) (acts : List BusAct) : Readership := acts.foldl act s

/-- The message that an act publishes, if the bus takes it. -/
def published? (s : Readership) : BusAct → Option BusMessage
  | .publish m => if (s.bus.publish m).2.isOk then some m else none
  | _ => none

/-- The messages that a run publishes, in order. -/
def published (s : Readership) : List BusAct → List BusMessage
  | [] => []
  | a :: rest => (s.published? a).toList ++ (s.act a).published rest

variable {s : Readership} {b : MemoryBus} {r : Reader} {a : BusAct}

/-! ## What an act does to the bus -/

private theorem act_history (s : Readership) (a : BusAct) :
    (s.act a).bus.history = s.bus.history ++ (s.published? a).toList := by
  cases a with
  | publish m =>
    simp only [act, published?, MemoryBus.publish]
    split
    · exact MemoryBus.history_append s.bus m
    · exact (List.append_nil _).symm
  | subscribe f =>
    simp only [act]
    split <;> exact (List.append_nil _).symm
  | read k => exact (List.append_nil _).symm
  | switch on => exact (List.append_nil _).symm

private theorem run_history (s : Readership) (acts : List BusAct) :
    (s.run acts).bus.history = s.bus.history ++ s.published acts := by
  induction acts generalizing s with
  | nil => exact (List.append_nil _).symm
  | cons a rest ih =>
    have later := ih (s.act a)
    rw [act_history, List.append_assoc] at later
    exact later

/-- What the bus refuses to publish leaves no trace. -/
private theorem act_refused {m : BusMessage} {f : Failure}
    (refused : (s.bus.publish m).2 = .error f) :
    s.act (.publish m) = s := by
  have same : (s.bus.publish m).1 = s.bus := by
    unfold MemoryBus.publish at refused ⊢
    split
    · rename_i on
      rw [if_pos on] at refused
      cases refused
    · rfl
  rw [act, same]

end Readership

/-! ## One reader -/

/-- Of the numbered items one more is chosen, and none behind it. -/
private theorem filter_zipIdx_snoc {α : Type} {items : List α} {p q : α × Nat → Bool} {i : Nat}
    {x : α}
    (stands : items[i]? = some x) (chosen : q (x, i) = true)
    (before : ∀ e ∈ items.zipIdx, e.2 < i → q e = p e)
    (notYet : ∀ e ∈ items.zipIdx, i ≤ e.2 → p e = false)
    (behind : ∀ e ∈ items.zipIdx, i < e.2 → q e = false) :
    items.zipIdx.filter q = items.zipIdx.filter p ++ [(x, i)] := by
  obtain ⟨first, last, split, early, late⟩ : ∃ first last, items.zipIdx = first ++ (x, i) :: last ∧
      (∀ e ∈ first, e.2 < i) ∧ ∀ e ∈ last, i < e.2 := by
    obtain ⟨inside, rfl⟩ := List.getElem?_eq_some_iff.mp stands
    have length : (items.take i).length = i := List.length_take_of_le (Nat.le_of_lt inside)
    have parts : items.take i ++ items[i] :: items.drop (i + 1) = items := by
      rw [← List.drop_eq_getElem_cons inside, List.take_append_drop]
    have numbered := congrArg List.zipIdx parts
    rw [List.zipIdx_append, List.zipIdx_cons, length, Nat.zero_add] at numbered
    refine ⟨_, _, numbered.symm, fun e member => ?_, fun e member => List.le_snd_of_mem_zipIdx member⟩
    have short := List.snd_lt_of_mem_zipIdx member
    rwa [length] at short
  rw [split] at before notYet behind ⊢
  have same : first.filter q = first.filter p :=
    List.filter_congr fun e member => before e (List.mem_append_left _ member) (early e member)
  have none : ((x, i) :: last).filter p = [] := by
    refine List.filter_eq_nil_iff.mpr fun e member => ?_
    have notEarly : i ≤ e.2 := by
      rcases List.mem_cons.mp member with rfl | after
      · exact Nat.le_refl i
      · exact Nat.le_of_lt (late e after)
    rw [notYet e (List.mem_append_right _ member) notEarly]
    exact Bool.false_ne_true
  have only : last.filter q = [] := by
    refine List.filter_eq_nil_iff.mpr fun e member => ?_
    rw [behind e (List.mem_append_right _ (List.mem_cons_of_mem _ member)) (late e member)]
    exact Bool.false_ne_true
  rw [List.filter_append, List.filter_append, none, same, List.append_nil,
    List.filter_cons_of_pos chosen, only]

namespace Reader

variable {b : MemoryBus} {r : Reader}

/-- What a reading has come to: just to the message it gave, and without one to all there was. -/
inductive Reaches (b : MemoryBus) : Reading → Prop where
  | given {held i : Nat} {m : BusMessage} (inside : i < held) (stands : b.history[i]? = some m) :
      Reaches b ⟨held, i + 1, some m⟩
  | nothing {held : Nat} : Reaches b ⟨held, held, none⟩

/-- The readings of a reader so far account for what it was given. -/
structure Accounted (b : MemoryBus) (r : Reader) : Prop where
  asked : r.subscription.filter = r.asked
  begun : r.begun ≤ r.subscription.position
  within : r.subscription.position ≤ b.history.length
  heldAt : ∀ i, r.begun ≤ i → ((r.heldAt i).isSome = true ↔ i < r.subscription.position)
  received : r.received = (b.history.zipIdx.filter r.due).map Prod.fst
  reaches : ∀ x ∈ r.readings, Reaches b x
  past : ∀ x ∈ r.readings, x.held ≤ b.history.length ∧ x.reached ≤ r.subscription.position
  inOrder : r.readings.Pairwise fun x y => x.held ≤ y.held ∧ x.reached ≤ y.reached

private theorem Accounted.heldAt_eq_none (accounted : r.Accounted b) {i : Nat}
    (ahead : r.subscription.position ≤ i) : r.heldAt i = none := by
  have notYet := accounted.heldAt i (Nat.le_trans accounted.begun ahead)
  rw [← Option.not_isSome_iff_eq_none, notYet]
  exact Nat.not_lt.mpr ahead

/-- Nothing is due that the reading has not come to. -/
private theorem Accounted.not_due (accounted : r.Accounted b) {e : BusMessage × Nat}
    (ahead : r.subscription.position ≤ e.2) : r.due e = false := by
  rw [due, accounted.heldAt_eq_none ahead, Option.any_none, Bool.and_false]

/-- A reader that has just subscribed. -/
theorem Accounted.new (b : MemoryBus) (f : Filter) :
    Accounted b { subscription := ⟨f, b.count⟩, asked := f, begun := b.history.length } where
  asked := rfl
  begun := Nat.le_of_eq b.history_length
  within := Nat.le_of_eq b.history_length.symm
  heldAt := by
    intro i from_
    have ahead : ¬i < b.count := by rw [← b.history_length]; exact Nat.not_lt.mpr from_
    simp [Reader.heldAt, ahead]
  received := by
    have nothing : b.history.zipIdx.filter (Reader.due
        { subscription := ⟨f, b.count⟩, asked := f, begun := b.history.length }) = [] := by
      simp [Reader.due, Reader.heldAt]
    rw [nothing]
    rfl
  reaches := fun _ none => nomatch none
  past := fun _ none => nomatch none
  inOrder := .nil

/-- More messages on the bus change nothing for a reader that has not come to them. -/
theorem Accounted.grows {b' : MemoryBus} (accounted : r.Accounted b) {added : List BusMessage}
    (history : b'.history = b.history ++ added) : r.Accounted b' := by
  have longer : b.history.length ≤ b'.history.length := by
    rw [history, List.length_append]
    exact Nat.le_add_right ..
  refine ⟨accounted.asked, accounted.begun, Nat.le_trans accounted.within longer, accounted.heldAt,
    ?_, ?_, ?_, accounted.inOrder⟩
  · have none : (added.zipIdx b.history.length).filter r.due = [] := by
      refine List.filter_eq_nil_iff.mpr fun e member => ?_
      have ahead := Nat.le_trans accounted.within (List.le_snd_of_mem_zipIdx member)
      rw [accounted.not_due ahead]
      exact Bool.false_ne_true
    rw [history, List.zipIdx_append, List.filter_append, Nat.zero_add, none, List.append_nil]
    exact accounted.received
  · intro x member
    cases accounted.reaches x member with
    | given inside stands =>
      refine .given inside ?_
      rw [history, List.getElem?_append_left (List.getElem?_eq_some_iff.mp stands).1, stands]
    | nothing => exact .nothing
  · intro x member
    obtain ⟨held, reached⟩ := accounted.past x member
    exact ⟨Nat.le_trans held longer, reached⟩

private theorem heldAt_read (b : MemoryBus) (r : Reader) (i : Nat) :
    (r.read b).heldAt i = (r.heldAt i).or
      (if i < (b.next r.subscription).2.position then some b.history.length else none) := by
  simp only [heldAt, read, List.find?_append, Option.map_or]
  congr 1
  by_cases come : i < (b.next r.subscription).2.position
  · simp [come]
  · simp [come]

/-- What a reading makes of a message: nothing new, if the reader had come to it before; else it is
due if the reading comes to it in time. -/
private theorem Accounted.due_read (accounted : r.Accounted b) (e : BusMessage × Nat) :
    (r.read b).due e =
      if e.2 < r.subscription.position then r.due e
      else r.asked.accepts e.1.channel &&
        (decide (e.2 < (b.next r.subscription).2.position) &&
          decide (b.history.length ≤ e.2 + MemoryBus.retained)) := by
  have asked : (r.read b).asked = r.asked := rfl
  have begun : (r.read b).begun = r.begun := rfl
  rw [due, heldAt_read, asked, begun]
  by_cases before : e.2 < r.subscription.position
  · rw [if_pos before, due]
    by_cases late : r.begun ≤ e.2
    · obtain ⟨held, known⟩ := Option.isSome_iff_exists.mp ((accounted.heldAt e.2 late).mpr before)
      rw [known, Option.some_or]
    · simp only [late, decide_false, Bool.false_and]
  · have ahead : r.subscription.position ≤ e.2 := Nat.le_of_not_lt before
    have late : r.begun ≤ e.2 := Nat.le_trans accounted.begun ahead
    rw [if_neg before, accounted.heldAt_eq_none ahead, Option.none_or]
    by_cases come : e.2 < (b.next r.subscription).2.position
    · simp [come, late]
    · simp [come]

private theorem received_read (b : MemoryBus) (r : Reader) :
    (r.read b).received = r.received ++ (b.next r.subscription).1.toList := by
  simp only [received, read, List.filterMap_append]
  cases (b.next r.subscription).1 <;> rfl

/-- Behind the reader's place a message is not due if the bus no longer retains it, and not if it is
none that the reader asks for. -/
private theorem Accounted.passed_over (accounted : r.Accounted b) {e : BusMessage × Nat}
    (ahead : r.subscription.position ≤ e.2)
    (refused : b.resume r.subscription ≤ e.2 → r.asked.accepts e.1.channel = false) :
    (r.read b).due e = false := by
  rw [accounted.due_read, if_neg (Nat.not_lt.mpr ahead)]
  by_cases lost : e.2 < b.resume r.subscription
  · have gone : ¬b.history.length ≤ e.2 + MemoryBus.retained := by
      rw [b.history_length]
      simp only [MemoryBus.resume] at lost
      omega
    simp only [gone, decide_false, Bool.and_false]
  · rw [refused (Nat.le_of_not_lt lost), Bool.false_and]

/-- What is given by a reading is what has become due with it. -/
private theorem Accounted.received_read (accounted : r.Accounted b) :
    (r.read b).received = (b.history.zipIdx.filter (r.read b).due).map Prod.fst := by
  have behind : r.subscription.position ≤ b.resume r.subscription := Nat.le_max_left ..
  rw [Reader.received_read, accounted.received]
  rcases b.next_numbered r.subscription with
    ⟨i, m, from_, stands, accepted, skipped, next⟩ | ⟨skipped, next⟩
  · rw [accounted.asked] at accepted skipped
    have chosen : (r.read b).due (m, i) = true := by
      have come : i < (b.next r.subscription).2.position := by
        rw [next]
        exact Nat.lt_succ_self i
      have kept : b.history.length ≤ i + MemoryBus.retained := by
        rw [b.history_length]
        simp only [MemoryBus.resume] at from_
        omega
      rw [accounted.due_read, if_neg (Nat.not_lt.mpr (Nat.le_trans behind from_))]
      simp only [accepted, come, kept, decide_true, Bool.and_self]
    have before : ∀ e ∈ b.history.zipIdx, e.2 < i → (r.read b).due e = r.due e := by
      intro e member early
      by_cases ahead : r.subscription.position ≤ e.2
      · rw [accounted.not_due ahead]
        refine accounted.passed_over ahead fun goesOn => ?_
        exact skipped e.2 e.1 goesOn early (List.mem_zipIdx_iff_getElem?.mp member)
      · rw [accounted.due_read, if_pos (Nat.lt_of_not_le ahead)]
    have notYet : ∀ e ∈ b.history.zipIdx, i ≤ e.2 → r.due e = false :=
      fun e _ ahead => accounted.not_due (Nat.le_trans behind (Nat.le_trans from_ ahead))
    have after : ∀ e ∈ b.history.zipIdx, i < e.2 → (r.read b).due e = false := by
      intro e _ ahead
      have notCome : ¬e.2 < (b.next r.subscription).2.position := by
        rw [next]
        exact Nat.not_lt.mpr ahead
      have unread : ¬e.2 < r.subscription.position := by omega
      rw [accounted.due_read, if_neg unread]
      simp only [notCome, decide_false, Bool.false_and, Bool.and_false]
    rw [filter_zipIdx_snoc stands chosen before notYet after, List.map_append, next]
    rfl
  · -- nothing is given, and nothing has become due
    rw [accounted.asked] at skipped
    have same : b.history.zipIdx.filter (r.read b).due = b.history.zipIdx.filter r.due := by
      refine List.filter_congr fun e member => ?_
      by_cases ahead : r.subscription.position ≤ e.2
      · rw [accounted.not_due ahead]
        refine accounted.passed_over ahead fun goesOn => ?_
        exact skipped e.2 e.1 goesOn (List.mem_zipIdx_iff_getElem?.mp member)
      · rw [accounted.due_read, if_pos (Nat.lt_of_not_le ahead)]
    rw [same, next]
    exact List.append_nil _

theorem Accounted.read (accounted : r.Accounted b) : (r.read b).Accounted b := by
  have behind : r.subscription.position ≤ b.resume r.subscription := Nat.le_max_left ..
  have within := accounted.within
  -- the reader moves on, and not past the end
  obtain ⟨filter, onward, inside, reaches⟩ :
      (b.next r.subscription).2.filter = r.subscription.filter ∧
      r.subscription.position ≤ (b.next r.subscription).2.position ∧
      (b.next r.subscription).2.position ≤ b.history.length ∧
      Reaches b ⟨b.history.length, (b.next r.subscription).2.position, (b.next r.subscription).1⟩ := by
    rcases b.next_numbered r.subscription with ⟨i, m, from_, stands, -, -, next⟩ | ⟨-, next⟩
    · have short : i < b.history.length := (List.getElem?_eq_some_iff.mp stands).1
      rw [next]
      exact ⟨rfl, by dsimp only; omega, short, .given short stands⟩
    · rw [next]
      exact ⟨rfl, within, Nat.le_refl _, .nothing⟩
  refine ⟨filter.trans accounted.asked, Nat.le_trans accounted.begun onward, inside, ?_,
    accounted.received_read, ?_, ?_, ?_⟩
  · intro i from_
    have known := accounted.heldAt i from_
    have moved : (r.read b).subscription = (b.next r.subscription).2 := rfl
    rw [heldAt_read, moved]
    by_cases before : i < r.subscription.position
    · have come : i < (b.next r.subscription).2.position := by omega
      simp [come]
    · rw [accounted.heldAt_eq_none (Nat.le_of_not_lt before), Option.none_or]
      by_cases come : i < (b.next r.subscription).2.position <;> simp [come]
  · intro x member
    rcases List.mem_append.mp member with old | new
    · exact accounted.reaches x old
    · rw [List.mem_singleton.mp new]
      exact reaches
  · intro x member
    rcases List.mem_append.mp member with old | new
    · obtain ⟨held, reached⟩ := accounted.past x old
      exact ⟨held, Nat.le_trans reached onward⟩
    · rw [List.mem_singleton.mp new]
      exact ⟨Nat.le_refl _, Nat.le_refl _⟩
  · refine List.pairwise_append.mpr ⟨accounted.inOrder, List.pairwise_singleton .., ?_⟩
    intro x old y new
    obtain ⟨held, reached⟩ := accounted.past x old
    rw [List.mem_singleton.mp new]
    exact ⟨held, Nat.le_trans reached onward⟩

end Reader

namespace Readership

variable {s s' : Readership} {k : Nat}

/-! ## All readers -/

/-- Every reader's readings account for what it was given. -/
private theorem accounted_act (accounted : ∀ r ∈ s.readers, r.Accounted s.bus) (a : BusAct) :
    ∀ r ∈ (s.act a).readers, r.Accounted (s.act a).bus := by
  cases a with
  | publish m => exact fun r member => (accounted r member).grows (s.act_history (.publish m))
  | subscribe f =>
    simp only [act]
    unfold MemoryBus.subscribe
    by_cases on : s.bus.available = true
    · simp only [on, if_true]
      intro r member
      rcases List.mem_append.mp member with old | new
      · exact accounted r old
      · rw [List.mem_singleton.mp new]
        exact .new s.bus f
    · simp only [on, Bool.false_eq_true, if_false]
      exact accounted
  | read j =>
    intro r member
    obtain ⟨i, found⟩ := List.mem_iff_getElem?.mp member
    rw [act, List.getElem?_modify] at found
    obtain ⟨old, stands, rfl⟩ := Option.map_eq_some_iff.mp found
    have before := accounted old (List.mem_of_getElem? stands)
    split
    · exact before.read
    · exact before
  | switch on => exact fun r member => (accounted r member).grows (s.act_history (.switch on))

private theorem accounted_run (accounted : ∀ r ∈ s.readers, r.Accounted s.bus)
    (acts : List BusAct) :
    ∀ r ∈ (s.run acts).readers, r.Accounted (s.run acts).bus := by
  induction acts generalizing s with
  | nil => exact accounted
  | cons a rest ih => exact ih (accounted_act accounted a)

/-- The same as far as one reader can tell. -/
structure AlikeFor (k : Nat) (s s' : Readership) : Prop where
  bus : s'.bus = s.bus
  length : s'.readers.length = s.readers.length
  reader : s'.readers[k]? = s.readers[k]?

theorem AlikeFor.refl (k : Nat) (s : Readership) : s.AlikeFor k s := ⟨rfl, rfl, rfl⟩

theorem AlikeFor.act (alike : s.AlikeFor k s') (a : BusAct) : (s.act a).AlikeFor k (s'.act a) := by
  obtain ⟨bus, length, reader⟩ := alike
  cases a with
  | publish m => exact ⟨by simp only [Readership.act, bus], length, reader⟩
  | subscribe f =>
    simp only [Readership.act, bus]
    split
    · refine ⟨rfl, by simp only [List.length_append, length], ?_⟩
      simp only [List.getElem?_append, length, reader]
    · exact ⟨bus, length, reader⟩
  | read j =>
    refine ⟨bus, by simp only [Readership.act, List.length_modify, length], ?_⟩
    simp only [Readership.act, List.getElem?_modify, bus, reader]
  | switch on => exact ⟨by simp only [Readership.act, bus], length, reader⟩

/-- Another reader's reading. -/
theorem AlikeFor.read (s : Readership) {j : Nat} (other : j ≠ k) :
    (s.act (.read j)).AlikeFor k s := by
  refine ⟨rfl, (List.length_modify ..).symm, ?_⟩
  exact (List.getElem?_modify_ne _ _ other).symm

theorem AlikeFor.trans {s'' : Readership} (first : s.AlikeFor k s') (then_ : s'.AlikeFor k s'') :
    s.AlikeFor k s'' :=
  ⟨then_.bus.trans first.bus, then_.length.trans first.length, then_.reader.trans first.reader⟩

/-- Whether an act is anything but the reading of a reader other than `k`. -/
def sparing (k : Nat) : BusAct → Bool
  | .read j => j == k
  | .publish _ | .subscribe _ | .switch _ => true

theorem AlikeFor.run (alike : s.AlikeFor k s') (acts : List BusAct) :
    (s.run acts).AlikeFor k (s'.run (acts.filter (sparing k))) := by
  induction acts generalizing s s' with
  | nil => exact alike
  | cons a rest ih =>
    by_cases kept : sparing k a = true
    · rw [List.filter_cons_of_pos kept]
      exact ih (alike.act a)
    · rw [List.filter_cons_of_neg kept]
      cases a with
      | read j =>
        have other : j ≠ k := fun same => kept (beq_iff_eq.mpr same)
        exact ih ((AlikeFor.read s other).trans alike)
      | publish m => exact absurd rfl kept
      | subscribe f => exact absurd rfl kept
      | switch on => exact absurd rfl kept

theorem run_append (s : Readership) (earlier later : List BusAct) :
    s.run (earlier ++ later) = (s.run earlier).run later :=
  List.foldl_append

/-- What the readers of a bus are given in a run that begins with none of them. -/
structure Serves (b : MemoryBus) (acts : List BusAct) : Prop where
  /-- The bus holds, behind what it held before, the messages that it took in the run. -/
  published : (run ⟨b, []⟩ acts).bus.history = b.history ++ published ⟨b, []⟩ acts
  /-- Every reader was given what was due to it, each message once and in the order of
  publication. -/
  received : ∀ r ∈ (run ⟨b, []⟩ acts).readers,
    r.received = ((run ⟨b, []⟩ acts).bus.history.zipIdx.filter r.due).map Prod.fst
  /-- A reading came to the message it gave and no further, or else to all there was. -/
  reaches : ∀ r ∈ (run ⟨b, []⟩ acts).readers, ∀ x ∈ r.readings,
    Reader.Reaches (run ⟨b, []⟩ acts).bus x
  /-- No reader goes back. -/
  inOrder : ∀ r ∈ (run ⟨b, []⟩ acts).readers,
    r.readings.Pairwise fun x y => x.held ≤ y.held ∧ x.reached ≤ y.reached
  /-- What the bus refuses to publish might as well not have been tried. -/
  refused : ∀ before m failure after, acts = before ++ .publish m :: after →
    ((run ⟨b, []⟩ before).bus.publish m).2 = .error failure →
    run ⟨b, []⟩ acts = run ⟨b, []⟩ (before ++ after)
  /-- No reader is given more or less, or later, because of what others read. -/
  apart : ∀ k, (run ⟨b, []⟩ acts).readers[k]? =
    (run ⟨b, []⟩ (acts.filter (sparing k))).readers[k]?

/-- Every subscription of a bus in memory is given exactly what it asks for and comes to in time. -/
theorem subscriptions_served (b : MemoryBus) (acts : List BusAct) : Serves b acts := by
  have accounted := accounted_run (s := ⟨b, []⟩) (fun _ none => nomatch none) acts
  refine ⟨run_history ⟨b, []⟩ acts, fun r member => (accounted r member).received,
    fun r member => (accounted r member).reaches, fun r member => (accounted r member).inOrder, ?_, ?_⟩
  · rintro before m failure after rfl refused
    rw [run_append, run_append]
    have still := act_refused refused
    exact congrArg (fun s => run s after) still
  · intro k
    exact (((AlikeFor.refl k ⟨b, []⟩).run acts).reader).symm

/-- Two readers, of whom the first asks for a channel three times over, and an outage. -/
def twoReaders : List BusAct :=
  [.publish ⟨"c", "early"⟩, .subscribe ⟨["c", "c"], ["c*"]⟩, .publish ⟨"c", "1"⟩,
    .subscribe ⟨["d"], []⟩, .switch false, .publish ⟨"c", "2"⟩, .read 0, .switch true,
    .publish ⟨"d", "3"⟩, .publish ⟨"cd", "4"⟩, .read 0, .read 0, .read 1]

/-- Each reader is given once what it asks for, and what was refused goes to nobody. -/
theorem twoReaders_served :
    Serves .empty twoReaders ∧
      (run ⟨.empty, []⟩ twoReaders).readers.map Reader.received =
        [[⟨"c", "1"⟩, ⟨"cd", "4"⟩], [⟨"d", "3"⟩]] :=
  ⟨subscriptions_served .empty twoReaders, by decide +kernel⟩

end Readership

end RoomRelay
