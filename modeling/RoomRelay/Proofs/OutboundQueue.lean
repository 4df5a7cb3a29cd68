import Mathlib.Data.List.Induction
import RoomRelay.Proofs.LocalFanOut

/-!
The law of a connection's queue, whoever pushes, reads and closes in whatever order. What becomes of a
push is told by the history alone: it is refused for good once the connection was closed or its reader
has gone, and dropped while as many texts are unread as the queue holds. The reader gets the queued
texts in the order of the pushes; drops and closing take none of them away. The queue underneath is
first in, first out.
-/

namespace RoomRelay

/-- Something done with a connection. -/
inductive QueueAct where
  | push (payload : String)
  /-- The reader takes the oldest text. -/
  | receive
  | close
  /-- The reader goes. -/
  | leave
deriving DecidableEq

/-- A connection with what has come of it. -/
structure Outlet where
  connection : Connection
  /-- The texts that were pushed, each with what became of it. -/
  pushed : List (String × PushOutcome) := []
  received : List String := []

namespace Outlet

/-- A connection that is new. -/
def fresh (user : Uuid) (capacity : Nat) : Outlet := { connection := { user, capacity } }

/-- The texts that were queued, in the order of the pushes. -/
def queued (o : Outlet) : List String :=
  o.pushed.filterMap fun p => if p.2 = .queued then some p.1 else none

/-- The connection after an act. -/
def act (o : Outlet) : QueueAct → Outlet
  | .push payload =>
    { o with
      connection := (o.connection.push payload).1
      pushed := o.pushed ++ [(payload, (o.connection.push payload).2)] }
  | .receive =>
    { o with
      connection := o.connection.receive.1
      received := o.received ++ o.connection.receive.2.toList }
  | .close => { o with connection := o.connection.close }
  | .leave => { o with connection := o.connection.dropReader }

/-- The connection after a history. -/
def run (o : Outlet) (acts : List QueueAct) : Outlet := acts.foldl act o

variable {o : Outlet} {acts : List QueueAct} {capacity : Nat}

/-! ## One act -/

private theorem queued_push (o : Outlet) (payload : String) :
    (o.act (.push payload)).queued =
      o.queued ++ if (o.connection.push payload).2 = .queued then [payload] else [] := by
  rw [queued, act, List.filterMap_append]
  congr 1
  by_cases taken : (o.connection.push payload).2 = .queued <;> simp [taken]

/-- A push leaves the connection alone or puts the text at the end of its queue. -/
private theorem push_cases (c : Connection) (payload : String) :
    (c.isOpen = true ∧ c.pending.length < c.capacity ∧
      c.push payload = (c.enqueue payload, .queued)) ∨
    ((c.push payload).2 ≠ .queued ∧ (c.push payload).1 = c) := by
  rw [Connection.push_outcome]
  by_cases slot : c.hasSlot = true
  · obtain ⟨opened, room⟩ := (Bool.and_eq_true _ _).mp slot
    exact .inl ⟨opened, of_decide_eq_true room, if_pos slot⟩
  · rw [if_neg slot]
    split <;> exact .inr ⟨nofun, rfl⟩

/-- A different act at the end does not change whether an act was done. -/
private theorem mem_snoc_iff {a b : QueueAct} (acts : List QueueAct) (other : a ≠ b) :
    b ∈ acts ++ [a] ↔ b ∈ acts := by
  simp [Ne.symm other]

/-- How a connection stands after a history. -/
structure Stands (acts : List QueueAct) (capacity : Nat) (o : Outlet) : Prop where
  room : o.connection.capacity = capacity
  isOpen : o.connection.isOpen = true ↔ .close ∉ acts ∧ .leave ∉ acts
  /-- While the reader is there, what was queued has been received or waits, in the order of the
  pushes. -/
  waiting : .leave ∉ acts → o.received ++ o.connection.pending = o.queued
  gone : .leave ∈ acts → o.connection.pending = []
  bounded : o.queued.length ≤ o.received.length + capacity
  ordered : o.received <+: o.queued

theorem Stands.fresh (user : Uuid) (capacity : Nat) :
    (Outlet.fresh user capacity).Stands [] capacity where
  room := rfl
  isOpen := by simp [Outlet.fresh, Connection.isOpen]
  waiting := fun _ => rfl
  gone := nofun
  bounded := Nat.zero_le _
  ordered := List.nil_prefix

/-- An act that nothing comes of leaves the connection as it stands. -/
theorem Stands.idle {o' : Outlet} {a : QueueAct} (stands : o.Stands acts capacity)
    (stays : a ≠ .close ∧ a ≠ .leave) (connection : o'.connection = o.connection)
    (queued : o'.queued = o.queued) (received : o'.received = o.received) :
    o'.Stands (acts ++ [a]) capacity := by
  have close := mem_snoc_iff acts stays.1
  have leave := mem_snoc_iff acts stays.2
  refine ⟨?_, ?_, ?_, ?_, ?_, ?_⟩
  · rw [connection, stands.room]
  · rw [connection, close, leave, stands.isOpen]
  · rw [connection, leave, queued, received]
    exact stands.waiting
  · rw [connection, leave]
    exact stands.gone
  · rw [queued, received]
    exact stands.bounded
  · rw [queued, received]
    exact stands.ordered

theorem Stands.push (stands : o.Stands acts capacity) (payload : String) :
    (o.act (.push payload)).Stands (acts ++ [.push payload]) capacity := by
  have queued := o.queued_push payload
  rcases push_cases o.connection payload with ⟨opened, slot, pushed⟩ | ⟨refused, same⟩
  · have close := mem_snoc_iff (a := .push payload) (b := .close) acts (by simp)
    have leave := mem_snoc_iff (a := .push payload) (b := .leave) acts (by simp)
    have stays := (stands.isOpen.mp opened).2
    have connection : (o.act (.push payload)).connection = o.connection.enqueue payload :=
      congrArg Prod.fst pushed
    rw [if_pos (congrArg Prod.snd pushed)] at queued
    refine ⟨?_, ?_, ?_, ?_, ?_, ?_⟩
    · rw [connection]
      exact stands.room
    · rw [connection, close, leave]
      exact stands.isOpen
    · intro _
      rw [connection, queued, ← stands.waiting stays]
      exact (List.append_assoc ..).symm
    · exact fun left => absurd (leave.mp left) stays
    · have held := congrArg List.length (stands.waiting stays)
      rw [List.length_append] at held
      rw [queued, List.length_append, List.length_singleton, ← held, ← stands.room]
      exact Nat.add_lt_add_left slot _
    · rw [queued]
      exact stands.ordered.trans (List.prefix_append ..)
  · rw [if_neg refused, List.append_nil] at queued
    exact stands.idle ⟨by simp, by simp⟩ same queued rfl

theorem Stands.receive (stands : o.Stands acts capacity) :
    (o.act .receive).Stands (acts ++ [.receive]) capacity := by
  cases held : o.connection.pending with
  | nil =>
    have nothing : o.act .receive = o := by simp [Outlet.act, Connection.receive, held]
    rw [nothing]
    exact stands.idle ⟨by simp, by simp⟩ rfl rfl rfl
  | cons text rest =>
    have close := mem_snoc_iff (a := .receive) (b := .close) acts (by simp)
    have leave := mem_snoc_iff (a := .receive) (b := .leave) acts (by simp)
    have stays : QueueAct.leave ∉ acts := fun left => by simp [stands.gone left] at held
    have queued : (o.act .receive).queued = o.queued := rfl
    have taken : (o.act .receive).received = o.received ++ [text] := by
      simp [Outlet.act, Connection.receive, held]
    have connection : (o.act .receive).connection = { o.connection with pending := rest } := by
      simp [Outlet.act, Connection.receive, held]
    have whole : o.received ++ [text] ++ rest = o.queued := by
      rw [← stands.waiting stays, held, List.append_assoc]
      rfl
    refine ⟨?_, ?_, ?_, ?_, ?_, ?_⟩
    · rw [connection]
      exact stands.room
    · rw [connection, close, leave]
      exact stands.isOpen
    · intro _
      rw [taken, connection, queued]
      exact whole
    · exact fun left => absurd (leave.mp left) stays
    · rw [taken, queued, List.length_append]
      exact Nat.le_trans stands.bounded (by omega)
    · rw [taken, queued]
      exact ⟨rest, whole⟩

theorem Stands.act (stands : o.Stands acts capacity) (a : QueueAct) :
    (o.act a).Stands (acts ++ [a]) capacity := by
  cases a with
  | push payload => exact stands.push payload
  | receive => exact stands.receive
  | close =>
    have leave := mem_snoc_iff (a := .close) (b := .leave) acts (by simp)
    refine ⟨stands.room, ?_, ?_, ?_, stands.bounded, stands.ordered⟩
    · simp [Outlet.act, Connection.isOpen, Connection.close]
    · rw [leave]
      exact stands.waiting
    · rw [leave]
      exact stands.gone
  | leave =>
    have left : QueueAct.leave ∈ acts ++ [.leave] := by simp
    refine ⟨stands.room, ?_, ?_, fun _ => rfl, stands.bounded, stands.ordered⟩
    · simp [Outlet.act, Connection.isOpen, Connection.dropReader]
    · exact fun stays => absurd left stays

private theorem run_stands (user : Uuid) (capacity : Nat) (acts : List QueueAct) :
    ((fresh user capacity).run acts).Stands acts capacity := by
  induction acts using List.reverseRecOn with
  | nil => exact .fresh user capacity
  | append_singleton acts a ih =>
    have last : (fresh user capacity).run (acts ++ [a]) = ((fresh user capacity).run acts).act a :=
      List.foldl_append
    rw [last]
    exact ih.act a

/-! ## The law -/

/-- The law of a queue that holds so many texts, after a history. -/
structure Lawful (acts : List QueueAct) (capacity : Nat) (o : Outlet) : Prop where
  /-- No more texts are unread than the queue holds. -/
  bounded : o.queued.length ≤ o.received.length + capacity
  /-- What becomes of a push. -/
  outcome : ∀ payload, (o.connection.push payload).2 =
    if .close ∈ acts ∨ .leave ∈ acts then .closed
    else if o.queued.length = o.received.length + capacity then .full
    else .queued
  /-- A push that is not queued changes nothing, and one that is puts its text behind what waits. -/
  changed : ∀ payload, (o.connection.push payload).1 =
    if (o.connection.push payload).2 = .queued then o.connection.enqueue payload else o.connection
  /-- What was received are the first of the queued texts, in the order of the pushes. -/
  ordered : o.received <+: o.queued
  /-- As long as the reader is there, the next text that it takes is the next of them. -/
  next : .leave ∉ acts → o.connection.receive.2 = o.queued[o.received.length]?

/-- Whatever is done with a connection, its queue keeps the law. -/
theorem queue_lawful (user : Uuid) (capacity : Nat) (acts : List QueueAct) :
    ((fresh user capacity).run acts).Lawful acts capacity := by
  obtain ⟨room, isOpen, waiting, gone, bounded, ordered⟩ := run_stands user capacity acts
  generalize (fresh user capacity).run acts = o at *
  refine ⟨bounded, fun payload => ?_, fun payload => ?_, ordered, fun stays => ?_⟩
  · rw [Connection.push_outcome]
    by_cases ended : QueueAct.close ∈ acts ∨ QueueAct.leave ∈ acts
    · have shut : o.connection.isOpen = false := by
        rw [Bool.eq_false_iff, ne_eq, isOpen]
        tauto
      simp [ended, Connection.hasSlot, Connection.isFull, shut]
    · have opened : o.connection.isOpen = true := isOpen.mpr (not_or.mp ended)
      have held := congrArg List.length (waiting (not_or.mp ended).2)
      rw [List.length_append] at held
      rw [if_neg ended]
      by_cases full : o.queued.length = o.received.length + capacity
      · have filled : o.connection.capacity ≤ o.connection.pending.length := by omega
        simp [full, Connection.hasSlot, Connection.isFull, opened, filled, Nat.not_lt.mpr filled]
      · have slot : o.connection.pending.length < o.connection.capacity := by omega
        simp [full, Connection.hasSlot, opened, slot]
  · rcases push_cases o.connection payload with ⟨-, -, pushed⟩ | ⟨refused, same⟩
    · rw [pushed, if_pos rfl]
    · rw [if_neg refused, same]
  · rw [← waiting stays, List.getElem?_append_right (Nat.le_refl _), Nat.sub_self]
    unfold Connection.receive
    cases o.connection.pending <;> rfl

/-- Texts for a queue of two, of which one comes too many and one too late. -/
def crowding : List QueueAct :=
  [.push "a", .push "b", .push "c", .receive, .push "d", .close, .push "e", .receive, .receive]

/-- The drop and the late push are missing from what is received, and nothing else is. -/
theorem crowding_lawful :
    ((fresh ⟨7⟩ 2).run crowding).Lawful crowding 2 ∧
      ((fresh ⟨7⟩ 2).run crowding).received = ["a", "b", "d"] :=
  ⟨queue_lawful ⟨7⟩ 2 crowding, by decide⟩

end Outlet

end RoomRelay
