import RoomRelay.Event

/-!
What hubs tell each other over the shared bus besides room events: envelopes that carry an event
to one user's connections on every hub, and notices of a user coming online or going offline.
-/

namespace RoomRelay

open Json

/-- An event addressed to a user: `UserEventEnvelope`. It names the hub that sent it, which has
delivered it to its own connections already and drops the copy that comes back. -/
structure UserEnvelope where
  eventType : String
  userId : Uuid
  payload : Value
  senderInstanceId : Uuid

namespace UserEnvelope

def fieldNames : List String := ["event_type", "user_id", "payload", "sender_instance_id"]

def toValue (e : UserEnvelope) : Value :=
  .object
    [("event_type", .string e.eventType), ("user_id", e.userId.toValue), ("payload", e.payload),
      ("sender_instance_id", e.senderInstanceId.toValue)]

def decode : Decoder UserEnvelope := fun levels d => do
  let f ← Decode.fields fieldNames levels d
  let eventType ← f.required "event_type" Decode.text
  let userId ← f.required "user_id" Uuid.decode
  let payload ← f.required "payload" Decode.value
  let senderInstanceId ← f.required "sender_instance_id" Uuid.decode
  return { eventType, userId, payload, senderInstanceId }

def ofEvent (sender user : Uuid) (e : Event) : UserEnvelope :=
  ⟨e.kind.name, user, e.freeForm, sender⟩

end UserEnvelope

/-- A user came online or went offline on a hub. -/
structure PresenceNotice where
  userId : Uuid
  online : Bool
  instanceId : Uuid
deriving DecidableEq

namespace PresenceNotice

def fieldNames : List String := ["user_id", "online", "instance_id"]

def toValue (n : PresenceNotice) : Value :=
  .object
    [("user_id", n.userId.toValue), ("online", .bool n.online),
      ("instance_id", n.instanceId.toValue)]

def decode : Decoder PresenceNotice := fun levels d => do
  let f ← Decode.fields fieldNames levels d
  let userId ← f.required "user_id" Uuid.decode
  let online ← f.required "online" Decode.bool
  let instanceId ← f.required "instance_id" Uuid.decode
  return { userId, online, instanceId }

end PresenceNotice

end RoomRelay
