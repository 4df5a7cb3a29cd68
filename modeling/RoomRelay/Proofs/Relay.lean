import RoomRelay.Hub.Relay
import RoomRelay.Proofs.Delivery
import RoomRelay.Proofs.UuidText

/-!
Events on their way, whatever the bus does with them: each operation makes one fan-out at most.
`Site.Delivers` says what a fan-out changes, the queues it names and the counts, and the theorems
below name the fan-out of each operation.
-/

namespace RoomRelay

/-- The hubs differ in what they have counted, at most: drops, failed publishes and messages
received. -/
structure Hub.AlikeButCounts (h h' : Hub) : Prop where
  config : h'.config = h.config
  users : h'.registry.users = h.registry.users
  rooms : h'.registry.rooms = h.registry.rooms
  presence : h'.presence = h.presence
  subscribed : h'.subscribed = h.subscribed
  stopped : h'.stopped = h.stopped
  gauge : h'.meters.activeConnections = h.meters.activeConnections

theorem Hub.AlikeButCounts.refl (h : Hub) : h.AlikeButCounts h :=
  ⟨rfl, rfl, rfl, rfl, rfl, rfl, rfl⟩

theorem Hub.AlikeButCounts.trans {h h' h'' : Hub} (first : h.AlikeButCounts h')
    (then_ : h'.AlikeButCounts h'') : h.AlikeButCounts h'' where
  config := then_.config.trans first.config
  users := then_.users.trans first.users
  rooms := then_.rooms.trans first.rooms
  presence := then_.presence.trans first.presence
  subscribed := then_.subscribed.trans first.subscribed
  stopped := then_.stopped.trans first.stopped
  gauge := then_.gauge.trans first.gauge

theorem Hub.AlikeButCounts.connectionsOf {h h' : Hub} (alike : h.AlikeButCounts h') (user : Uuid) :
    h'.registry.connectionsOf user = h.registry.connectionsOf user := by
  simp only [Registry.connectionsOf, alike.users]

theorem Hub.AlikeButCounts.listeners {h h' : Hub} (alike : h.AlikeButCounts h') (room : Uuid) :
    h'.registry.listeners room = h.registry.listeners room := by
  simp only [Registry.listeners, alike.rooms]

theorem Hub.AlikeButCounts.recipients {h h' : Hub} (alike : h.AlikeButCounts h') (room : Uuid) :
    h'.registry.recipients room = h.registry.recipients room := by
  rw [Registry.recipients, alike.listeners, Registry.recipients]
  exact congrArg (List.flatMap · _) (funext alike.connectionsOf)

theorem Hub.AlikeButCounts.sound {owner : ConnId → Option Uuid} {h h' : Hub}
    (alike : h.AlikeButCounts h') (sound : h.registry.Sound owner) :
    h'.registry.Sound owner where
  usersOnce := alike.users ▸ sound.usersOnce
  roomsOnce := alike.rooms ▸ sound.roomsOnce
  userConnected := alike.users ▸ sound.userConnected
  roomListened := alike.rooms ▸ sound.roomListened
  idsOnce := fun user => alike.connectionsOf user ▸ sound.idsOnce user
  idsOwned := fun user => alike.connectionsOf user ▸ sound.idsOwned user
  listenersOnce := fun room => alike.listeners room ▸ sound.listenersOnce room

/-- One text and the connections it is pushed to. -/
structure FanOut where
  text : String
  targets : List ConnId

/-- The fan-out that reaches nobody. -/
def FanOut.none : FanOut := ⟨"", []⟩

namespace Site

variable {β : Type}

/-- `s'` is `s` once the fan-out was made: each target got the text once, all other queues are as
they were, and every push that found a queue full was counted. -/
structure Delivers (s : Site β) (f : FanOut) (s' : Site β) : Prop where
  alike : s.hub.AlikeButCounts s'.hub
  queue : ∀ id, s'.queues.get? id =
    if id ∈ f.targets then (s.queues.get? id).map fun c => (c.push f.text).1 else s.queues.get? id
  drops : s'.hub.registry.dropped =
    s.hub.registry.dropped + (s.outcomes f.text f.targets).count .full
  meter : s'.hub.meters.droppedEvents =
    s.hub.meters.droppedEvents + (s.outcomes f.text f.targets).count .full

/-- Changing counts and the bus delivers nothing. -/
theorem Delivers.quiet {s s' : Site β} (alike : s.hub.AlikeButCounts s'.hub)
    (queues : s'.queues = s.queues) (drops : s'.hub.registry.dropped = s.hub.registry.dropped)
    (meter : s'.hub.meters.droppedEvents = s.hub.meters.droppedEvents) :
    s.Delivers .none s' :=
  ⟨alike, fun id => by simp [FanOut.none, queues], by simpa [FanOut.none, outcomes] using drops,
    by simpa [FanOut.none, outcomes] using meter⟩

theorem Delivers.refl (s : Site β) : s.Delivers .none s :=
  .quiet (.refl s.hub) rfl rfl rfl

/-- What becomes of pushes depends on the queues alone. -/
private theorem outcomes_congr {s s' : Site β} (queues : s'.queues = s.queues) (payload : String)
    (ids : List ConnId) : s'.outcomes payload ids = s.outcomes payload ids := by
  induction ids generalizing s s' with
  | nil => rfl
  | cons id rest ih =>
    have outcome : (s'.pushTo id payload).2 = (s.pushTo id payload).2 := by
      rw [pushTo_outcome, pushTo_outcome, queues]
    have after : (s'.pushTo id payload).1.queues = (s.pushTo id payload).1.queues := by
      unfold pushTo
      rw [queues]
      cases s.queues.get? id with
      | none => exact queues
      | some c => rfl
    rw [outcomes, outcomes, outcome, ih after]

/-- Counts may change before the fan-out. -/
theorem Delivers.after {s s' s'' : Site β} {f : FanOut} (first : s.Delivers .none s')
    (queues : s'.queues = s.queues) (then_ : s'.Delivers f s'') : s.Delivers f s'' := by
  have drops := first.drops
  have meter := first.meter
  simp only [FanOut.none, outcomes, List.count_nil, Nat.add_zero] at drops meter
  refine ⟨first.alike.trans then_.alike, ?_, ?_, ?_⟩
  · intro id
    rw [then_.queue, queues]
  · rw [then_.drops, drops, outcomes_congr queues]
  · rw [then_.meter, meter, outcomes_congr queues]

/-- Counts and the bus may change after the fan-out. -/
theorem Delivers.before {s s' s'' : Site β} {f : FanOut} (first : s.Delivers f s')
    (queues : s''.queues = s'.queues) (then_ : s'.Delivers .none s'') : s.Delivers f s'' := by
  have drops := then_.drops
  have meter := then_.meter
  simp only [FanOut.none, outcomes, List.count_nil, Nat.add_zero] at drops meter
  refine ⟨first.alike.trans then_.alike, ?_, ?_, ?_⟩
  · intro id
    rw [queues, first.queue]
  · rw [drops, first.drops]
  · rw [meter, first.meter]

/-! ## Local fan-outs -/

/-- A fan-out changes counts alone, whomever it names and how often. -/
theorem pushAll_alike (s : Site β) (payload : String) (stats : DeliveryStats) (ids : List ConnId) :
    s.hub.AlikeButCounts (s.pushAll payload stats ids).1.hub := by
  rw [pushAll_hub]
  exact ⟨rfl, rfl, rfl, rfl, rfl, rfl, rfl⟩

private theorem pushAll_delivers (s : Site β) (payload : String) (stats : DeliveryStats)
    {ids : List ConnId} (once : ids.Nodup) :
    s.Delivers ⟨payload, ids⟩ (s.pushAll payload stats ids).1 := by
  refine ⟨pushAll_alike s payload stats ids, fun id => pushAll_queue s payload stats once id, ?_, ?_⟩
  · rw [pushAll_hub]
    rfl
  · rw [pushAll_hub]
    rfl

theorem pushTo_delivers (s : Site β) (id : ConnId) (payload : String) :
    s.Delivers ⟨payload, [id]⟩ (s.pushTo id payload).1 :=
  pushAll_delivers s payload {} (List.nodup_singleton id)

variable {owner : ConnId → Option Uuid} {s : Site β}

theorem localBroadcast_delivers (sound : s.hub.registry.Sound owner) (room : Uuid)
    (payload : String) :
    s.Delivers ⟨payload, s.hub.registry.recipients room⟩ (s.localBroadcast room payload).1 :=
  pushAll_delivers s payload {} (sound.recipients_nodup room)

theorem deliverToUser_delivers (sound : s.hub.registry.Sound owner) (user : Uuid)
    (payload : String) :
    s.Delivers ⟨payload, s.hub.registry.connectionsOf user⟩ (s.deliverToUser user payload).1 :=
  pushAll_delivers s payload {} (sound.idsOnce user)

/-! ## From the bus -/

/-- The fan-out of an envelope that came from the bus: one's own, and what is no envelope, reaches
nobody. -/
def envelopeFanOut (s : Site β) (text : String) : FanOut :=
  match Json.Decode.run UserEnvelope.decode text with
  | .ok e =>
    if e.senderInstanceId = s.hub.instanceId then .none
    else ⟨e.payload.render, s.hub.registry.connectionsOf e.userId⟩
  | .error _ => .none

/-- The fan-out of a message that came from the bus. -/
def messageFanOut (s : Site β) (m : BusMessage) : FanOut :=
  match Channel.topic m.channel with
  | .room room => ⟨m.payload, s.hub.registry.recipients room⟩
  | .userEvents => s.envelopeFanOut m.payload
  | .presence | .other => .none

/-- A room's message is pushed to the room's listeners. -/
theorem messageFanOut_room (s : Site β) (room : Uuid) (payload : String) :
    s.messageFanOut (roomMessage room payload) = ⟨payload, s.hub.registry.recipients room⟩ := by
  simp [messageFanOut, roomMessage, Channel.topic_room]

private theorem countReceived_delivers (s : Site β) (t : Traffic) :
    s.Delivers .none (s.countReceived t) :=
  .quiet ⟨rfl, rfl, rfl, rfl, rfl, rfl, rfl⟩ rfl rfl rfl

private theorem receiveEnvelope_delivers (sound : s.hub.registry.Sound owner) (text : String) :
    s.Delivers (s.envelopeFanOut text) (s.receiveEnvelope text) := by
  unfold envelopeFanOut receiveEnvelope
  cases Json.Decode.run UserEnvelope.decode text with
  | error _ => exact .refl s
  | ok e =>
    by_cases own : e.senderInstanceId = s.hub.instanceId
    · simp only [own, if_true]
      exact .refl s
    · simp only [own, if_false]
      exact deliverToUser_delivers sound _ _

theorem receive_delivers (sound : s.hub.registry.Sound owner) (m : BusMessage) :
    s.Delivers (s.messageFanOut m) (s.receive m) := by
  unfold messageFanOut receive
  cases Channel.topic m.channel with
  | room id =>
    have delivered :=
      localBroadcast_delivers (s := s.countReceived .room) sound id m.payload
    exact (countReceived_delivers s .room).after rfl delivered
  | userEvents =>
    have delivered :=
      receiveEnvelope_delivers (s := s.countReceived .user) sound m.payload
    exact (countReceived_delivers s .user).after rfl delivered
  | presence => exact countReceived_delivers s .presence
  | other => exact .refl s

/-- Nothing of it goes back onto the bus. -/
theorem receive_bus (s : Site β) (m : BusMessage) : (s.receive m).bus = s.bus := by
  unfold receive
  cases Channel.topic m.channel with
  | room id => exact pushAll_bus ..
  | userEvents =>
    simp only [receiveEnvelope]
    cases Json.Decode.run UserEnvelope.decode m.payload with
    | error _ => rfl
    | ok e =>
      dsimp only
      split
      · rfl
      · exact pushAll_bus ..
  | presence => rfl
  | other => rfl

/-! ## Over the bus -/

section Bus

variable [SharedBus β]

@[simp] theorem publishOn_queues (s : Site β) (b : β) (t : Traffic) (m : BusMessage) :
    (s.publishOn b t m).1.queues = s.queues := by
  unfold publishOn
  split <;> rfl

theorem publishOn_bus (s : Site β) (b : β) (t : Traffic) (m : BusMessage) :
    (s.publishOn b t m).1.bus = some (SharedBus.publish b m).1 := by
  unfold publishOn
  cases SharedBus.publish b m with
  | mk after answer => cases answer <;> rfl

@[simp] theorem publishOn_registry (s : Site β) (b : β) (t : Traffic) (m : BusMessage) :
    (s.publishOn b t m).1.hub.registry = s.hub.registry := by
  unfold publishOn
  split <;> rfl

theorem publishOn_accepted {b : β} {m : BusMessage} (accepted : (SharedBus.publish b m).2 = .ok ())
    (s : Site β) (t : Traffic) :
    s.publishOn b t m = ({ s with bus := some (SharedBus.publish b m).1 }, true) := by
  unfold publishOn
  split
  · rename_i published
    rw [published]
  · rename_i published
    rw [published] at accepted
    cases accepted

theorem publishOn_refused {b : β} {m : BusMessage} {f : Failure}
    (refused : (SharedBus.publish b m).2 = .error f) (s : Site β) (t : Traffic) :
    s.publishOn b t m =
      ({ s with
        bus := some (SharedBus.publish b m).1
        hub := { s.hub with meters := s.hub.meters.publishFailed t } }, false) := by
  unfold publishOn
  split
  · rename_i published
    rw [published] at refused
    cases refused
  · rename_i published
    rw [published]

theorem publishOn_delivers (s : Site β) (b : β) (t : Traffic) (m : BusMessage) :
    s.Delivers .none (s.publishOn b t m).1 := by
  unfold publishOn
  split
  · exact .quiet ⟨rfl, rfl, rfl, rfl, rfl, rfl, rfl⟩ rfl rfl rfl
  · exact .quiet ⟨rfl, rfl, rfl, rfl, rfl, rfl, rfl⟩ rfl rfl rfl

/-- Whether a broadcast is delivered on this hub at once: without a bus, while the relay does not
listen, or when the publish is refused. -/
def deliversOnsite (s : Site β) (room : Uuid) (e : Event) : Bool :=
  match s.bus with
  | none => true
  | some b =>
    !s.hub.subscribed || !(SharedBus.publish b (roomMessage room e.render)).2.isOk

/-- The fan-out of a broadcast. -/
def broadcastFanOut (s : Site β) (room : Uuid) (e : Event) : FanOut :=
  if s.deliversOnsite room e then ⟨e.render, s.hub.registry.recipients room⟩ else .none

theorem broadcast_delivers (sound : s.hub.registry.Sound owner) (room : Uuid) (e : Event) :
    s.Delivers (s.broadcastFanOut room e) (s.broadcast room e).1 := by
  unfold broadcastFanOut deliversOnsite broadcast
  cases s.bus with
  | none => exact localBroadcast_delivers sound room e.render
  | some b =>
    by_cases listening : s.hub.subscribed = true
    · have published := publishOn_delivers s b .room (roomMessage room e.render)
      simp only [listening, if_true, relayBroadcast, Bool.not_true, Bool.false_or]
      cases answer : (SharedBus.publish b (roomMessage room e.render)).2 with
      | ok done =>
        rw [publishOn_accepted answer] at published ⊢
        exact published
      | error failure =>
        rw [publishOn_refused answer] at published ⊢
        have same := publishOn_registry s b .room (roomMessage room e.render)
        have onsite := localBroadcast_delivers (same ▸ sound) room e.render
        rw [publishOn_refused answer] at onsite
        exact published.after rfl onsite
    · simp only [listening, fallbackBroadcast, Bool.not_false, Bool.true_or, if_true]
      exact (localBroadcast_delivers sound room e.render).before (publishOn_queues ..)
        (publishOn_delivers ..)

/-- Whether it is delivered on this hub or not, a broadcast is handed to the bus once. -/
theorem broadcast_bus (s : Site β) (room : Uuid) (e : Event) :
    (s.broadcast room e).1.bus =
      s.bus.map fun b => (SharedBus.publish b (roomMessage room e.render)).1 := by
  unfold broadcast
  cases on : s.bus with
  | none => exact (pushAll_bus ..).trans on
  | some b =>
    by_cases listening : s.hub.subscribed = true
    · have published := publishOn_bus s b .room (roomMessage room e.render)
      simp only [listening, if_true, relayBroadcast]
      split
      · rename_i after accepted
        rw [accepted] at published
        exact published
      · rename_i after refused
        rw [refused] at published
        exact (pushAll_bus ..).trans published
    · simp only [listening, Bool.false_eq_true, if_false, fallbackBroadcast]
      exact publishOn_bus ..

/-- A broadcast changes counts alone. -/
theorem broadcast_alike (s : Site β) (room : Uuid) (e : Event) :
    s.hub.AlikeButCounts (s.broadcast room e).1.hub := by
  unfold broadcast
  cases s.bus with
  | none => exact pushAll_alike ..
  | some b =>
    by_cases listening : s.hub.subscribed = true
    · have published := (publishOn_delivers s b .room (roomMessage room e.render)).alike
      simp only [listening, if_true, relayBroadcast]
      split
      · rename_i after accepted
        rw [accepted] at published
        exact published
      · rename_i after refused
        rw [refused] at published
        exact published.trans (pushAll_alike ..)
    · simp only [listening, Bool.false_eq_true, if_false, fallbackBroadcast]
      exact (pushAll_alike ..).trans (publishOn_delivers ..).alike

theorem sendToUser_alike (s : Site β) (user : Uuid) (e : Event) :
    s.hub.AlikeButCounts (s.sendToUser user e).1.hub := by
  unfold sendToUser
  dsimp only
  split
  · exact pushAll_alike ..
  · exact (pushAll_alike ..).trans (publishOn_delivers ..).alike

theorem sendToUser_delivers (sound : s.hub.registry.Sound owner) (user : Uuid) (e : Event) :
    s.Delivers ⟨e.render, s.hub.registry.connectionsOf user⟩ (s.sendToUser user e).1 := by
  have first := deliverToUser_delivers sound user e.render
  unfold sendToUser
  dsimp only
  split
  · exact first
  · exact first.before (publishOn_queues ..) (publishOn_delivers ..)

/-- What a hub hands to its bus when it sends an event to a user. -/
theorem sendToUser_bus (s : Site β) (user : Uuid) (e : Event) :
    (s.sendToUser user e).1.bus = s.bus.map fun b =>
      (SharedBus.publish b ⟨Channel.userEvents,
        (UserEnvelope.ofEvent s.hub.instanceId user e).toValue.render⟩).1 := by
  have kept : (s.deliverToUser user e.render).1.bus = s.bus := pushAll_bus ..
  have named : (s.deliverToUser user e.render).1.hub.instanceId = s.hub.instanceId := by
    rw [deliverToUser, pushAll_hub]
    rfl
  unfold sendToUser
  dsimp only
  rw [named]
  cases on : s.bus with
  | none =>
    rw [on] at kept
    simp [kept]
  | some b =>
    rw [on] at kept
    simp [kept, publishOn_bus]

end Bus

end Site

end RoomRelay
