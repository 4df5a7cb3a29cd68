import RoomRelay.Collaborator

/-!
Procedures: work on a state that stops to ask the services and goes on with the answer. Between
the question and the answer the state belongs to the world, so the work goes on with whatever
state the world hands back. What is asked, and in which order, is thus part of what a procedure
is, and the world may answer a question late or with a failure.
-/

namespace RoomRelay

/-- Work on a state of type `σ` that gives an `α`. -/
inductive Procedure (σ α : Type) where
  | done (state : σ) (result : α)
  /-- A question is out. -/
  | ask (state : σ) (call : Call) (resume : σ → call.Outcome → Procedure σ α)
  /-- Two questions are out at once. -/
  | askBoth (state : σ) (first second : Call)
      (resume : σ → first.Outcome → second.Outcome → Procedure σ α)

namespace Procedure

variable {σ α γ : Type}

/-- Further work after a procedure. -/
def andThen (p : Procedure σ α) (next : σ → α → Procedure σ γ) : Procedure σ γ :=
  match p with
  | done s a => next s a
  | ask s call resume => ask s call fun s r => (resume s r).andThen next
  | askBoth s first second resume => askBoth s first second fun s r t => (resume s r t).andThen next

def map (f : α → γ) (p : Procedure σ α) : Procedure σ γ :=
  p.andThen fun s a => done s (f a)

/-- Runs a procedure in a world that answers every call at once, changing its own state only. -/
def run {ω : Type} (answer : ω → (c : Call) → ω × c.Outcome) (w : ω) :
    Procedure σ α → ω × σ × α
  | done s a => (w, s, a)
  | ask s call resume =>
    let (w, r) := answer w call
    run answer w (resume s r)
  | askBoth s first second resume =>
    let (w, r) := answer w first
    let (w, t) := answer w second
    run answer w (resume s r t)

/-- Gives a procedure the answer to the question that is out. The procedure goes on with `s`, the
state as it is by now, and not with the one it had when it asked. -/
def resume {ω : Type} (answer : ω → (c : Call) → ω × c.Outcome) (w : ω) (s : σ) :
    Procedure σ α → ω × Procedure σ α
  | done t a => (w, done t a)
  | ask _ call resume =>
    let (w, r) := answer w call
    (w, resume s r)
  | askBoth _ first second resume =>
    let (w, r) := answer w first
    let (w, t) := answer w second
    (w, resume s r t)

end Procedure

end RoomRelay
