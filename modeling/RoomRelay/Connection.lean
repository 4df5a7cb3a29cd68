import RoomRelay.Uuid

/-!
A client's connection as its hub sees it: a bounded queue of texts that anyone pushes into and
one reader takes from. Pushing never waits: a text that finds the queue full is dropped.
-/

namespace RoomRelay

/-- The name of a connection: `ConnectionId`. -/
structure ConnId where
  number : Nat
deriving DecidableEq

/-- What became of a push. -/
inductive PushOutcome where
  | queued
  /-- The queue was full and the text dropped. -/
  | full
  | closed
deriving DecidableEq

/-- A connection with the texts that wait in its queue, its outbound channel. -/
structure Connection where
  user : Uuid
  capacity : Nat
  pending : List String := []
  closed : Bool := false
  /-- Whether the reader is still there. -/
  receiving : Bool := true
deriving DecidableEq

namespace Connection

/-- Whether the connection takes texts at all. -/
def isOpen (c : Connection) : Bool := !c.closed && c.receiving

/-- Puts a text into the queue and never waits, as `try_send` does. -/
def push (c : Connection) (payload : String) : Connection × PushOutcome :=
  if ¬c.isOpen then (c, .closed)
  else if c.capacity ≤ c.pending.length then (c, .full)
  else ({ c with pending := c.pending ++ [payload] }, .queued)

/-- Takes the oldest text. -/
def receive (c : Connection) : Connection × Option String :=
  match c.pending with
  | [] => (c, none)
  | p :: rest => ({ c with pending := rest }, some p)

/-- Closes the queue. What waits in it can still be taken. -/
def close (c : Connection) : Connection := { c with closed := true }

/-- The reader goes, and what waited with it. -/
def dropReader (c : Connection) : Connection := { c with receiving := false, pending := [] }

end Connection

end RoomRelay
