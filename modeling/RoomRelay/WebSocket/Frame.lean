import RoomRelay.Text.Utf8

/-!
WebSocket frames. A message may come in fragments; its parts are put together under a limit on
the size of each frame and of the whole, and a text must be UTF-8.
-/

namespace RoomRelay.WebSocket

/-- A message as a peer reads it. -/
inductive Frame where
  | text (s : String)
  | binary (bytes : List UInt8)
  | ping (bytes : List UInt8)
  | pong (bytes : List UInt8)
  | close (code : Option Nat)
deriving DecidableEq

/-- The octets that a frame takes on the wire from a server: its head and its payload. -/
def Frame.size (f : Frame) : Nat :=
  let payload :=
    match f with
    | .text s => Text.byteSize s
    | .binary bytes | .ping bytes | .pong bytes => bytes.length
    | .close code => if code.isSome then 2 else 0
  payload + if payload < 126 then 2 else if payload < 65536 then 4 else 10

/-- What the payload of a frame is. -/
inductive Opcode where
  | continuation | text | binary | close | ping | pong
deriving DecidableEq

/-- A frame as it comes over the wire. -/
structure RawFrame where
  opcode : Opcode
  /-- Whether the frame ends its message. -/
  final : Bool := true
  payload : List UInt8

/-- A text in fragments, as many frames as there are parts. -/
def RawFrame.fragments (parts : List String) : List RawFrame :=
  let last := parts.length - 1
  parts.mapIdx fun i part =>
    { opcode := if i = 0 then .text else .continuation, final := i == last,
      payload := Text.utf8 part }

/-- What a reader gets: a message, or the end of the conversation. -/
inductive Incoming where
  | message (f : Frame)
  /-- A frame broke the rules, or a limit. -/
  | broken
deriving DecidableEq

/-- A message of which the end has not come: whether it is a text, and its octets so far. -/
structure Partial where
  isText : Bool
  bytes : List UInt8

/-- Frames put together to messages, as far as they have come. -/
structure Assembler where
  limit : Nat
  unfinished : Option Partial := none

namespace Assembler

def finish (p : Partial) : Incoming :=
  if p.isText then
    match Text.utf8Text? p.bytes with
    | some s => .message (.text s)
    | none => .broken
  else .message (.binary p.bytes)

def extend (a : Assembler) (p : Partial) (f : RawFrame) : Assembler × Option Incoming :=
  let p := { p with bytes := p.bytes ++ f.payload }
  if a.limit < p.bytes.length then (a, some .broken)
  else if f.final then ({ a with unfinished := none }, some (finish p))
  else ({ a with unfinished := some p }, none)

/-- Takes one frame; the answer is what the reader gets through it, if anything. -/
def take (a : Assembler) (f : RawFrame) : Assembler × Option Incoming :=
  if a.limit < f.payload.length then (a, some .broken)
  else
    match f.opcode, a.unfinished with
    | .ping, _ => (a, some (.message (.ping f.payload)))
    | .pong, _ => (a, some (.message (.pong f.payload)))
    | .close, _ => (a, some (.message (.close none)))
    | .text, none => a.extend ⟨true, []⟩ f
    | .binary, none => a.extend ⟨false, []⟩ f
    | .continuation, some p => a.extend p f
    | _, _ => (a, some .broken)

/-- Takes frames in order. -/
def takeAll (a : Assembler) (fs : List RawFrame) : Assembler × List Incoming :=
  let (a, got) := fs.foldl
    (fun (acc : Assembler × List Incoming) f =>
      let (a, got) := acc.1.take f
      (a, acc.2 ++ got.toList))
    (a, [])
  (a, got)

end Assembler

end RoomRelay.WebSocket
