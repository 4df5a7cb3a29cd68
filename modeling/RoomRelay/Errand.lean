import RoomRelay.Procedure

/-!
Procedures under way. A procedure that has asked the services waits until the answer is there or
its deadline passes, whichever comes first; which of them it will be is known as soon as the
question is out.
-/

namespace RoomRelay

/-- A procedure with its question out. -/
structure Errand (σ α : Type) where
  procedure : Procedure σ α
  /-- When it goes on. -/
  wake : Nat
  /-- Whether the deadline passes before the answer is there. -/
  overdue : Bool

/-- How far a procedure has come. -/
inductive Progress (σ α : Type) where
  | finished (result : α)
  | waiting (errand : Errand σ α)

/-- When a caller that asks at `now` goes on, and whether for want of an answer: after the time the
services take, but no later than its deadline. This is `with_deadline`. -/
def waitFor (now : Nat) (takes deadline : Duration) : Nat × Bool :=
  if deadline < takes then (now + deadline.nanos, true) else (now + takes.nanos, false)

end RoomRelay
