import RoomRelay.Timestamp
import RoomRelay.Uuid

/-!
Chat messages as they travel to clients: a text with its sender, room and attachments. The
message store produces them; a hub only passes them on.
-/

namespace RoomRelay

open Json

/-- A record's fields, those without a value left out. -/
def presentFields (fields : List (String × Option Value)) : List (String × Value) :=
  fields.filterMap fun f => f.2.map (f.1, ·)

/-- A file that belongs to a message. -/
structure Attachment where
  id : Uuid
  url : String
  mimeType : String
  fileName : Option String := none
  sizeBytes : Nat := 0
deriving DecidableEq

namespace Attachment

def fieldNames : List String := ["id", "url", "mime_type", "file_name", "size_bytes"]

def toValue (a : Attachment) : Value :=
  .object <| presentFields
    [("id", some a.id.toValue), ("url", some (.string a.url)),
      ("mime_type", some (.string a.mimeType)), ("file_name", a.fileName.map .string),
      ("size_bytes", some (.int a.sizeBytes))]

def decode : Decoder Attachment := fun levels d => do
  let f ← Decode.fields fieldNames levels d
  let id ← f.required "id" Uuid.decode
  let url ← f.required "url" Decode.text
  let mimeType ← f.required "mime_type" Decode.text
  let fileName ← f.optional "file_name" Decode.text
  let sizeBytes ← f.withDefault "size_bytes" (Decode.unsigned 64) 0
  return { id, url, mimeType, fileName, sizeBytes }

end Attachment

/-- A message of a room: `MessagePayload`. -/
structure Message where
  id : Uuid
  roomId : Uuid
  senderId : Uuid
  content : String := ""
  messageType : String := "text"
  createdAt : Timestamp
  attachments : List Attachment := []
deriving DecidableEq

namespace Message

def fieldNames : List String :=
  ["id", "room_id", "sender_id", "content", "message_type", "created_at", "attachments"]

/-- The record of a message. An empty list of attachments is left out. -/
def toValue (m : Message) : Value :=
  .object <| presentFields
    [("id", some m.id.toValue), ("room_id", some m.roomId.toValue),
      ("sender_id", some m.senderId.toValue), ("content", some (.string m.content)),
      ("message_type", some (.string m.messageType)), ("created_at", some m.createdAt.toValue),
      ("attachments",
        if m.attachments.isEmpty then none else some (.array (m.attachments.map (·.toValue))))]

def decode : Decoder Message := fun levels d => do
  let f ← Decode.fields fieldNames levels d
  let id ← f.required "id" Uuid.decode
  let roomId ← f.required "room_id" Uuid.decode
  let senderId ← f.required "sender_id" Uuid.decode
  let content ← f.withDefault "content" Decode.text ""
  let messageType ← f.withDefault "message_type" Decode.text "text"
  let createdAt ← f.required "created_at" Timestamp.decode
  let attachments ← f.withDefault "attachments" (Decode.list Attachment.decode) []
  return { id, roomId, senderId, content, messageType, createdAt, attachments }

/-- The most characters a preview has: `PREVIEW_MAX_CHARS`. -/
def previewLength : Nat := 100

/-- The short text that room lists show: the start of the trimmed content, or a word for the
attachments when there is nothing else. -/
def preview (m : Message) : String :=
  let trimmed := Text.trim m.content.toList
  if trimmed.isEmpty ∧ ¬m.attachments.isEmpty then "[attachment]"
  else String.ofList (trimmed.take previewLength)

end Message

end RoomRelay
