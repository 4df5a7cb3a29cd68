import RoomRelay.Hub.Delivery

/-!
Events from hub to hub. A room's event has one way to the clients: it is published, and every hub
that listens to the bus, the publisher included, delivers what comes back. Only a hub without a
bus, or whose relay does not listen, or whose publish failed, delivers to its own clients
directly. An event for a user is delivered here first and then published in an envelope that
names this hub, so that the copy that comes back is known and dropped.
-/

namespace RoomRelay

/-- How a room's event got on its way. -/
inductive RoomDelivery where
  /-- It was published, and comes back to every hub. -/
  | relayed
  /-- It was delivered to this hub's own clients. -/
  | onsite (stats : DeliveryStats)
deriving DecidableEq

/-- What the relay of a hub listens to: `subscribe_all`. -/
def relayFilter : Filter :=
  ⟨[Channel.presence, Channel.userEvents], [Channel.roomPattern]⟩

namespace Site

variable {β : Type} [SharedBus β]

/-- Publishes a message; a failure is counted under its kind of traffic. -/
def publishOn (s : Site β) (b : β) (t : Traffic) (m : BusMessage) : Site β × Bool :=
  match SharedBus.publish b m with
  | (b, .ok ()) => ({ s with bus := some b }, true)
  | (b, .error _) =>
    ({ s with bus := some b, hub := { s.hub with meters := s.hub.meters.publishFailed t } }, false)

def roomMessage (room : Uuid) (payload : String) : BusMessage :=
  ⟨Channel.room room, payload⟩

/-- A broadcast while the relay listens: published, or delivered here when that fails. -/
def relayBroadcast (s : Site β) (b : β) (room : Uuid) (payload : String) :
    Site β × RoomDelivery :=
  match s.publishOn b .room (roomMessage room payload) with
  | (s, true) => (s, .relayed)
  | (s, false) =>
    let (s, stats) := s.localBroadcast room payload
    (s, .onsite stats)

/-- A broadcast while the relay does not listen: delivered here, and published for the others. -/
def fallbackBroadcast (s : Site β) (b : β) (room : Uuid) (payload : String) :
    Site β × RoomDelivery :=
  let (s, stats) := s.localBroadcast room payload
  ((s.publishOn b .room (roomMessage room payload)).1, .onsite stats)

/-- Broadcasts an event to a room: `publish_to_room`. -/
def broadcast (s : Site β) (room : Uuid) (e : Event) : Site β × RoomDelivery :=
  match s.bus with
  | none =>
    let (s, stats) := s.localBroadcast room e.render
    (s, .onsite stats)
  | some b =>
    if s.hub.subscribed then s.relayBroadcast b room e.render
    else s.fallbackBroadcast b room e.render

/-- Sends an event to a user's connections on every hub: `publish_to_user`. The result counts those
on this one. -/
def sendToUser (s : Site β) (user : Uuid) (e : Event) : Site β × DeliveryStats :=
  let (s, stats) := s.deliverToUser user e.render
  match s.bus with
  | none => (s, stats)
  | some b =>
    let envelope := UserEnvelope.ofEvent s.hub.instanceId user e
    ((s.publishOn b .user ⟨Channel.userEvents, envelope.toValue.render⟩).1, stats)

/-- Delivers an envelope that another hub sent: `handle_user_event`. One's own, and what is no
envelope, is dropped. -/
def receiveEnvelope (s : Site β) (text : String) : Site β :=
  match Json.Decode.run UserEnvelope.decode text with
  | .ok e =>
    if e.senderInstanceId = s.hub.instanceId then s
    else (s.deliverToUser e.userId e.payload.render).1
  | .error _ => s

def countReceived (s : Site β) (t : Traffic) : Site β :=
  { s with hub := { s.hub with meters := s.hub.meters.messageReceived t } }

/-- Passes a message of the bus on to the clients it is for: `handle_message`. -/
def receive (s : Site β) (m : BusMessage) : Site β :=
  match Channel.topic m.channel with
  | .room id => ((s.countReceived .room).localBroadcast id m.payload).1
  | .userEvents => (s.countReceived .user).receiveEnvelope m.payload
  | .presence => s.countReceived .presence
  | .other => s

/-! ## Announcements -/

/-- Broadcasts events to a room one after the other. -/
def broadcastAll (s : Site β) (room : Uuid) (es : List Event) : Site β :=
  es.foldl (fun s e => (s.broadcast room e).1) s

/-- Tells a room of a message: that it arrived, that it was stored, and that the room changed. This
is `announce_message`, which puts the room of its path into the message. -/
def announceMessage (s : Site β) (room : Uuid) (m : Message) : Site β :=
  let m := { m with roomId := room }
  s.broadcastAll room [.newMessage m, .messageCreated m, .roomUpdated m]

/-- Tells a room that a message was deleted: `announce_message_deleted`. -/
def announceDeletion (s : Site β) (room message deletedBy : Uuid) : Site β :=
  s.broadcastAll room [.messageDeleted room message deletedBy]

/-- Tells rooms that a user came online or went offline: `announce_presence`. -/
def announcePresence (s : Site β) (user : Uuid) (rooms : List Uuid) (online : Bool) : Site β :=
  rooms.foldl (fun s room => (s.broadcast room (.presence user online)).1) s

end Site

end RoomRelay
