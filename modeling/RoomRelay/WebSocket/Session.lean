import RoomRelay.Errand
import RoomRelay.Hub
import RoomRelay.WebSocket.Frame

/-!
The session of one WebSocket client. A reader takes what the client sends and hands it to the
hub; a writer takes the texts of the client's connection and writes them, with a ping from time
to time and a close frame at the end. The reader leaves when the client is gone or has been
silent for too long, the writer gives up when one frame takes too long to write, and each ends
the other by closing the connection between them.

What the server has written lies on the wire until the client reads it. The wire holds only so
much: a frame is written once no more is unread than the wire holds.
-/

namespace RoomRelay.WebSocket

/-- The times a session keeps. -/
structure Pace where
  /-- How long the client may go without a pong. -/
  pongWait : Duration
  /-- The time between two pings. -/
  pingPeriod : Duration
  /-- How long one frame may take to be written. -/
  writeWait : Duration

/-- What the reader of a session, `read_loop`, is at. -/
inductive Reader (σ : Type) where
  /-- The client is being received and nothing is read yet. -/
  | welcoming (e : Errand σ (Except Failure Unit))
  /-- Waiting for the client until the deadline. -/
  | reading (deadline : Nat)
  /-- A text is being handled; the deadline goes on meanwhile. -/
  | handling (deadline : Nat) (e : Errand σ Unit)
  | left

/-- What the writer of a session, `write_loop`, is at. -/
inductive Writer where
  /-- The reader has not begun. -/
  | idle
  /-- Waiting for something to write. -/
  | waiting (nextPing : Nat)
  /-- A frame is being written, no longer than until `deadline`; the `last` one ends the writer. -/
  | writing (deadline nextPing : Nat) (last : Bool)
  /-- What is written still goes out. -/
  | closing
  | done
deriving DecidableEq

/-- What a client hears: frames, and the end of the stream. -/
inductive Heard where
  | frame (f : Frame)
  | ended
deriving DecidableEq

/-- The session of a client: `serve_connection`. -/
structure Session (σ : Type) where
  /-- The name of the hub that serves it. -/
  hub : String
  user : Uuid
  pace : Pace
  assembler : Assembler
  /-- What the client has sent and the reader has not taken. -/
  inbox : List Incoming := []
  reader : Reader σ
  writer : Writer := .idle
  /-- How much the wire holds. -/
  capacity : Nat
  /-- What was written and the client has not read. -/
  unread : List Frame := []
  /-- Whether the client does not read. -/
  muted : Bool := false
  /-- Whether the transport was dropped by the client. -/
  gone : Bool := false
  closeSent : Bool := false
  /-- What the client has read. -/
  heard : List Heard := []
  /-- Whether the stream has ended on the server's side. -/
  ended : Bool := false

namespace Session

variable {σ : Type}

/-! ## The client -/

/-- The client reads a frame. A ping is answered at once. -/
def hear (s : Session σ) (f : Frame) : Session σ :=
  let s := { s with heard := s.heard ++ [.frame f] }
  match f with
  | .ping bytes => { s with inbox := s.inbox ++ [.message (.pong bytes)] }
  | _ => s

/-- The client hears that the stream has ended. -/
def hearEnd (s : Session σ) : Session σ :=
  { s with heard := s.heard ++ [.ended] }

/-- The client sends frames. -/
def send (s : Session σ) (fs : List RawFrame) : Session σ :=
  if s.gone then s
  else
    let (assembler, got) := s.assembler.takeAll fs
    { s with assembler, inbox := s.inbox ++ got }

/-- The client stops reading, or reads again, and then all that lies on the wire. -/
def mute (s : Session σ) (on : Bool) : Session σ :=
  if on ∨ s.gone ∨ ¬s.muted then { s with muted := on }
  else
    let s := s.unread.foldl hear { s with muted := false, unread := [] }
    if s.ended then s.hearEnd else s

/-- The client drops the transport. It hears no more. -/
def drop (s : Session σ) : Session σ :=
  { s with gone := true, unread := [] }

/-- What the client has heard since it was last asked. -/
def takeHeard (s : Session σ) : Session σ × List Heard :=
  ({ s with heard := [] }, s.heard)

/-! ## The server -/

/-- Puts a frame on the wire. A client that reads has it at once. -/
def put (s : Session σ) (f : Frame) : Session σ :=
  if s.gone then s
  else if s.muted then { s with unread := s.unread ++ [f] }
  else s.hear f

/-- Puts a close frame on the wire, the first time only. -/
def putClose (s : Session σ) : Session σ :=
  if s.closeSent then s else { s.put (.close none) with closeSent := true }

def octets (fs : List Frame) : Nat :=
  fs.foldl (fun n f => n + f.size) 0

/-- Whether nothing keeps the next frame from being written. -/
def flushed (s : Session σ) : Bool :=
  s.gone || octets s.unread ≤ s.capacity

/-- The session once its stream has ended. -/
def finish (s : Session σ) : Session σ :=
  if s.gone ∨ s.ended then s
  else
    let s := { s with ended := true }
    if s.muted then s else s.hearEnd

/-- A session whose reader begins at an instant, and its writer with it. Without any time between
two pings there is no writer. -/
def begin (s : Session σ) (now : Nat) : Session σ :=
  { s with
    reader := .reading (now + s.pace.pongWait.nanos),
    writer :=
      if s.pace.pingPeriod.nanos = 0 then .done
      else .waiting (now + s.pace.pingPeriod.nanos) }

/-- A session that ends before its reader begins, with a close frame. -/
def refuse (s : Session σ) : Session σ :=
  { s.putClose with reader := .left, writer := .closing }

/-- A session that ends without a word. -/
def abandon (s : Session σ) : Session σ :=
  { s with reader := .left, writer := .done }

/-- The writer puts a frame on the wire and waits until it is written. -/
def write (s : Session σ) (now nextPing : Nat) (f : Frame) : Session σ :=
  { s.put f with writer := .writing (now + s.pace.writeWait.nanos) nextPing false }

/-- The writer puts a close frame on the wire; it is the last it waits for. -/
def writeLast (s : Session σ) (now nextPing : Nat) : Session σ :=
  { s.putClose with writer := .writing (now + s.pace.writeWait.nanos) nextPing true }

/-- The writer ends: the connection is closed, and a close frame follows what was written. -/
def endWriter (c : Connection) (s : Session σ) : Connection × Session σ :=
  (c.close, { s.putClose with writer := .closing })

/-- One step of the writer, or `none` while it has to wait: a turn of `write_loop`. The end of the
connection comes before its texts, and these before a ping. -/
def stepWriter (now : Nat) (c : Connection) (s : Session σ) : Option (Connection × Session σ) :=
  match s.writer with
  | .idle | .done => none
  | .waiting nextPing =>
    if c.closed then some (c, s.writeLast now nextPing)
    else
      match c.receive with
      | (c, some text) => some (c, s.write now nextPing (.text text))
      | (_, none) =>
        if nextPing ≤ now then
          some (c, s.write now (nextPing + s.pace.pingPeriod.nanos) (.ping []))
        else none
  | .writing deadline nextPing last =>
    if s.flushed then
      if last ∨ s.gone then some (endWriter c s)
      else some (c, { s with writer := .waiting nextPing })
    else if deadline ≤ now then some (endWriter c s)
    else none
  | .closing => if s.flushed then some (c, { s with writer := .done }) else none

/-- So many steps of the writer, or fewer when it has to wait. -/
def stepsOfWriter (now : Nat) : Nat → Connection → Session σ → Connection × Session σ
  | 0, c, s => (c, s)
  | n + 1, c, s =>
    match s.stepWriter now c with
    | some (c, s) => stepsOfWriter now n c s
    | none => (c, s)

/-- The writer goes as far as it can. A text takes two steps, one to put it on the wire and one to
see it written; a ping does too, and the end takes three. -/
def runWriter (now : Nat) (c : Connection) (s : Session σ) : Connection × Session σ :=
  s.stepsOfWriter now (2 * c.pending.length + 6) c

/-- The instants at which the session goes on by itself. -/
def nextInstants (s : Session σ) : List Nat :=
  let reader :=
    match s.reader with
    | .welcoming e => [e.wake]
    | .handling _ e => [e.wake]
    | .reading deadline => [deadline]
    | .left => []
  let writer :=
    match s.writer with
    | .waiting nextPing => [nextPing]
    | .writing deadline _ _ => [deadline]
    | _ => []
  reader ++ writer

end Session

end RoomRelay.WebSocket
