import RoomRelay.Notification

/-!
Events, the texts that hubs push to clients. All share one flat record: a kind, and of room,
sender, message and data what the kind needs.
-/

namespace RoomRelay

open Json

/-- The kinds of events. -/
inductive EventKind where
  | newMessage | messageCreated | roomUpdated | messageDeleted | typing | read
  | online | offline | error | notificationSync | notificationState
deriving DecidableEq, Repr

namespace EventKind

/-- The word for a kind on the wire: `as_str`. -/
def name : EventKind → String
  | newMessage => "new_message"
  | messageCreated => "message_created"
  | roomUpdated => "room_updated"
  | messageDeleted => "message_deleted"
  | typing => "typing"
  | read => "read"
  | online => "online"
  | offline => "offline"
  | error => "error"
  | notificationSync => "notification:sync"
  | notificationState => "notification:state"

def all : List EventKind :=
  [newMessage, messageCreated, roomUpdated, messageDeleted, typing, read, online, offline, error,
    notificationSync, notificationState]

def named? (s : String) : Option EventKind :=
  all.find? fun k => k.name == s

end EventKind

/-- The codes that error events carry: the constants of `codes`. -/
inductive ErrorCode where
  | invalidPayload | invalidRoomId | invalidNotificationId | notSubscribed | rateLimited
  | notificationRateLimited | internalError
deriving DecidableEq, Repr

def ErrorCode.name : ErrorCode → String
  | invalidPayload => "invalid_payload"
  | invalidRoomId => "invalid_room_id"
  | invalidNotificationId => "invalid_notification_id"
  | notSubscribed => "not_subscribed"
  | rateLimited => "rate_limited"
  | notificationRateLimited => "notification_rate_limited"
  | internalError => "internal_error"

/-- What clients are told. Only the fields that a kind uses are written. -/
structure Event where
  kind : EventKind
  roomId : Option Uuid := none
  senderId : Option Uuid := none
  messageId : Option Uuid := none
  message : Option Message := none
  data : Option Members := none

namespace Event

def fieldNames : List String :=
  ["type", "room_id", "sender_id", "message_id", "message", "data"]

def toValue (e : Event) : Value :=
  .object <| presentFields
    [("type", some (.string e.kind.name)), ("room_id", e.roomId.map (·.toValue)),
      ("sender_id", e.senderId.map (·.toValue)), ("message_id", e.messageId.map (·.toValue)),
      ("message", e.message.map (·.toValue)), ("data", e.data.map .object)]

def decode : Decoder Event := fun levels d => do
  let f ← Decode.fields fieldNames levels d
  let kind ← f.required "type" (Decode.word EventKind.named?)
  let roomId ← f.optional "room_id" Uuid.decode
  let senderId ← f.optional "sender_id" Uuid.decode
  let messageId ← f.optional "message_id" Uuid.decode
  let message ← f.optional "message" Message.decode
  let data ← f.optional "data" Decode.members
  return { kind, roomId, senderId, messageId, message, data }

/-- The text of an event: `to_json`. -/
def render (e : Event) : String :=
  e.toValue.render

/-- The event as a free-form value. -/
def freeForm (e : Event) : Value :=
  e.toValue.arranged

/-! ## The events there are -/

/-- An event about a message, with the message itself: `for_message`. -/
def aboutMessage (kind : EventKind) (m : Message) : Event :=
  { kind, roomId := some m.roomId, senderId := some m.senderId, messageId := some m.id,
    message := some m }

def newMessage : Message → Event := aboutMessage .newMessage

def messageCreated : Message → Event := aboutMessage .messageCreated

/-- A room's entry in lists changed through a message: `room_updated`. -/
def roomUpdated (m : Message) : Event :=
  { kind := .roomUpdated, roomId := some m.roomId, senderId := some m.senderId,
    messageId := some m.id,
    data := some <| Members.ofList
      [("last_message_preview", .string m.preview),
        ("last_message_at", .string m.createdAt.offsetText)] }

/-- A message was deleted: `message_deleted`. -/
def messageDeleted (room message by_ : Uuid) : Event :=
  { kind := .messageDeleted, roomId := some room, senderId := some by_, messageId := some message }

/-- A user types, or stopped. -/
def typing (room user : Uuid) (isTyping : Bool) : Event :=
  { kind := .typing, roomId := some room, senderId := some user,
    data := some <| Members.ofList [("is_typing", .bool isTyping)] }

/-- A user has read a room up to an instant. -/
def read (room user : Uuid) (readAt : Timestamp) : Event :=
  { kind := .read, roomId := some room, senderId := some user,
    data := some <| Members.ofList [("read_at", .string readAt.offsetText)] }

def online (user : Uuid) : Event :=
  { kind := .online, senderId := some user }

def offline (user : Uuid) : Event :=
  { kind := .offline, senderId := some user }

/-- A user came online or went offline: `online` or `offline`. -/
def presence (user : Uuid) (isOnline : Bool) : Event :=
  if isOnline then online user else offline user

/-- A frame of the client was refused. -/
def error (code : String) : Event :=
  { kind := .error, data := some <| Members.ofList [("code", .string code)] }

/-- A page of notifications: `notification_sync`. -/
def notificationSync (unread : Int) (items : List Notification) (limit offset : Int) : Event :=
  { kind := .notificationSync,
    data := some <| Members.ofList
      [("unread_count", .int unread), ("items", .array (items.map (·.toValue.arranged))),
        ("limit", .int limit), ("offset", .int offset)] }

/-- Notifications were read: `notification_read`. -/
def notificationRead (unread : Int) (ids : List Uuid) : Event :=
  { kind := .notificationState,
    data := some <| Members.ofList
      [("unread_count", .int unread), ("read_ids", .array (ids.map (·.toValue)))] }

/-- All notifications were read: `notification_read_all`. -/
def notificationReadAll (unread : Int) : Event :=
  { kind := .notificationState,
    data := some <| Members.ofList [("unread_count", .int unread), ("read_all", .bool true)] }

/-- The code that an event carries, if it is about an error: `error_code`. -/
def errorCode? (e : Event) : Option String :=
  if e.kind = .error then e.data.bind fun ms => (ms.get? "code").bind Value.asText? else none

end Event

end RoomRelay
