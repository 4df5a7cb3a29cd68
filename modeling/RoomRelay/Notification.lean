import RoomRelay.Message

/-!
Notifications: the entries of a user's list, each unread until it carries the instant it was
read at.
-/

namespace RoomRelay

open Json

/-- An entry of a user's list: `NotificationItem`. -/
structure Notification where
  id : Uuid
  kind : String
  actorId : Option Uuid := none
  title : Option String := none
  body : Option String := none
  data : Value := .null
  readAt : Option Timestamp := none
  createdAt : Timestamp

namespace Notification

def fieldNames : List String :=
  ["id", "type", "actor_id", "title", "body", "data", "read_at", "created_at"]

/-- The record of a notification. Its data is always written, null included. -/
def toValue (n : Notification) : Value :=
  .object <| presentFields
    [("id", some n.id.toValue), ("type", some (.string n.kind)),
      ("actor_id", n.actorId.map (·.toValue)), ("title", n.title.map .string),
      ("body", n.body.map .string), ("data", some n.data), ("read_at", n.readAt.map (·.toValue)),
      ("created_at", some n.createdAt.toValue)]

def decode : Decoder Notification := fun levels d => do
  let f ← Decode.fields fieldNames levels d
  let id ← f.required "id" Uuid.decode
  let kind ← f.required "type" Decode.text
  let actorId ← f.optional "actor_id" Uuid.decode
  let title ← f.optional "title" Decode.text
  let body ← f.optional "body" Decode.text
  let data ← f.withDefault "data" Decode.value .null
  let readAt ← f.optional "read_at" Timestamp.decode
  let createdAt ← f.required "created_at" Timestamp.decode
  return { id, kind, actorId, title, body, data, readAt, createdAt }

/-- Whether a notification was read: `is_read`. -/
def isRead (n : Notification) : Bool := n.readAt.isSome

end Notification

end RoomRelay
