import RoomRelay.Event

/-!
Commands, the texts that clients send. A frame is a record with a type, a room and data; what is
wrong with it is told by one code. The room is kept as text until a command needs it, so that a
room that is no identifier is told apart from a frame that is no record.
-/

namespace RoomRelay

open Json

/-- Which page of notifications a client asks for. -/
structure SyncParams where
  limit : Int := 20
  offset : Int := 0
  unreadOnly : Bool := false
deriving DecidableEq, Repr

namespace SyncParams

/-- The page size when none is asked for: `NOTIFICATION_SYNC_DEFAULT_LIMIT`. -/
def defaultLimit : Int := 20

/-- The greatest page size: `NOTIFICATION_SYNC_MAX_LIMIT`. -/
def greatestLimit : Int := 50

/-- The page that free-form data asks for: `from_data`. What is missing or out of range is put
right, never refused. -/
def ofData (data : Option Value) : SyncParams :=
  match data with
  | none => {}
  | some v =>
    let limit :=
      match (v.get? "limit").bind Value.asInt64? with
      | some n => if n < 1 then defaultLimit else min n greatestLimit
      | none => defaultLimit
    let offset := max (((v.get? "offset").bind Value.asInt64?).getD 0) 0
    let unreadOnly := ((v.get? "unread_only").bind Value.asBool?).getD false
    { limit, offset, unreadOnly }

end SyncParams

/-- What a client asks for: `WsCommand`. -/
inductive Command where
  | typing (room : Uuid) (isTyping : Bool)
  | read (room : Uuid)
  | notificationSync (params : SyncParams)
  | notificationRead (id : Uuid)
  | notificationReadAll
  /-- A type that is not known, which has no effect. -/
  | unknown (kind : String)
deriving DecidableEq

/-- A frame before its type is looked at: `WsInboundEnvelope`. -/
structure Frame where
  kind : String
  roomId : Option String
  data : Option Value

namespace Frame

def fieldNames : List String := ["type", "room_id", "data"]

def decode : Decoder Frame := fun levels d => do
  let f ← Decode.fields fieldNames levels d
  let kind ← f.required "type" Decode.text
  let roomId ← f.optional "room_id" Decode.text
  let data ← f.optional "data" Decode.value
  return { kind, roomId, data }

/-- The room of a frame that needs one: `required_room_id`. -/
def room (f : Frame) : Except ErrorCode Uuid :=
  match f.roomId.bind Uuid.parse? with
  | some u => .ok u
  | none => .error .invalidRoomId

/-- A member of the frame's data. -/
def datum? (f : Frame) (key : String) : Option Value :=
  f.data.bind (·.get? key)

/-- The command of a frame: `into_command`. -/
def command (f : Frame) : Except ErrorCode Command :=
  if f.kind = "typing" then
    f.room.map fun room => .typing room (((f.datum? "is_typing").bind Value.asBool?).getD true)
  else if f.kind = "read" then f.room.map .read
  else if f.kind = "notification:sync" then .ok (.notificationSync (.ofData f.data))
  else if f.kind = "notification:read" then
    match ((f.datum? "id").bind Value.asText?).bind Uuid.parse? with
    | some id => .ok (.notificationRead id)
    | none => .error .invalidNotificationId
  else if f.kind = "notification:read-all" then .ok .notificationReadAll
  else if f.kind = "" then .error .invalidPayload
  else .ok (.unknown f.kind)

end Frame

namespace Command

/-- The type a command was sent under, which its meter counts it by. -/
def name : Command → String
  | typing .. => "typing"
  | read .. => "read"
  | notificationSync .. => "notification:sync"
  | notificationRead .. => "notification:read"
  | notificationReadAll => "notification:read-all"
  | unknown kind => kind

/-- The command that a text spells, or the code that tells what is wrong with it:
`parse_command`. -/
def parse (text : String) : Except ErrorCode Command :=
  match Decode.run Frame.decode text with
  | .ok f => f.command
  | .error _ => .error .invalidPayload

end Command

end RoomRelay
