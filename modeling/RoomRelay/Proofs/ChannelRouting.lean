import RoomRelay.Proofs.Cuts
import RoomRelay.Proofs.LocalFanOut
import RoomRelay.Proofs.UuidForms

/-!
Where a message of the bus goes is told from the name of its channel. Who publishes for a room
writes the name, the subscription asks for it by a pattern, and who receives reads the room from
it. The three agree: a room's name is asked for by the pattern alone and is read as that room, a
name is read as a room only if it spells one, and the two channels that are not a room's are never
taken for one. So whatever comes off the bus reaches the listeners of one room, or one user, or
nobody.
-/

namespace RoomRelay

namespace Channel

variable {channel : String} {id : Uuid}

/-- A channel is read as a room's when an identifier follows the lead, in any of its forms. -/
private theorem roomOf?_eq_some :
    roomOf? channel = some id ↔ ∃ written, channel = roomLead ++ written ∧ id.Form written.toList := by
  rw [roomOf?, Option.bind_eq_some_iff]
  simp only [Text.stripPrefix?_eq_some, Uuid.parse?_eq_some]

private theorem room_injective : Function.Injective room := fun a b same => by
  have read : some a = some b := by rw [← roomOf_room a, same, roomOf_room]
  exact Option.some.inj read

private theorem roomOf?_presence : roomOf? presence = none := by decide

private theorem roomOf?_userEvents : roomOf? userEvents = none := by decide

private theorem room_ne {other : String} (noRoom : roomOf? other = none) (id : Uuid) :
    other ≠ room id := by
  rintro rfl
  rw [roomOf_room] at noRoom
  cases noRoom

/-- The pattern stands for every channel with the lead of rooms. -/
private theorem roomPattern_matches (written : String) :
    Filter.patternMatches roomPattern (roomLead ++ written) = true := by
  have lead : Text.stripSuffix? "*" roomPattern = some roomLead := by decide
  rw [Filter.patternMatches, lead]
  simp [Text.stripPrefix_append]

/-- A relay asks for no room's channel by name. -/
private theorem relayFilter_names (id : Uuid) :
    relayFilter.channels.filter (· == room id) = [] := by
  have notPresence := room_ne roomOf?_presence id
  have notUserEvents := room_ne roomOf?_userEvents id
  simp [relayFilter, notPresence, notUserEvents]

/-- It asks for it by the pattern of rooms and by no other. -/
private theorem relayFilter_patterns (id : Uuid) :
    relayFilter.patterns.filter (Filter.patternMatches · (room id)) = [roomPattern] := by
  simp [relayFilter, room, roomPattern_matches]

end Channel

namespace Site

variable {β : Type} {s : Site β}

/-- What a message of the bus does to a site. -/
inductive Routes (s : Site β) (m : BusMessage) : Site β → Prop where
  /-- On a room's channel its text goes to the room's listeners. -/
  | toRoom {id : Uuid} {after : Site β} {stats : DeliveryStats}
      (about : Channel.roomOf? m.channel = some id)
      (fanned : (s.countReceived .room).FansOut (s.hub.registry.isListening id) m.payload
        (after, stats)) : Routes s m after
  /-- On the channel of envelopes the event in another hub's envelope goes to the user it names. -/
  | toUser {e : UserEnvelope} {after : Site β} {stats : DeliveryStats}
      (about : m.channel = Channel.userEvents)
      (read : Json.Decode.run UserEnvelope.decode m.payload = .ok e)
      (foreign : e.senderInstanceId ≠ s.hub.instanceId)
      (fanned : (s.countReceived .user).FansOut (· == e.userId) e.payload.render
        (after, stats)) : Routes s m after
  /-- All else goes to nobody. At most it is counted. -/
  | toNobody {after : Site β}
      (noRoom : Channel.roomOf? m.channel = none)
      (noUser : m.channel = Channel.userEvents → ∀ e,
        Json.Decode.run UserEnvelope.decode m.payload = .ok e →
          e.senderInstanceId = s.hub.instanceId)
      (still : after = s ∨ ∃ t, after = s.countReceived t) : Routes s m after

/-- A room's message is fanned out to the room. -/
private theorem routes_room (sound : s.hub.registry.Sound s.owner) {m : BusMessage} {id : Uuid}
    (about : Channel.roomOf? m.channel = some id) : s.Routes m (s.receive m) := by
  have topic : Channel.topic m.channel = .room id := by rw [Channel.topic, about]
  have handled : s.receive m = ((s.countReceived .room).localBroadcast id m.payload).1 := by
    rw [receive, topic]
  have addressed := NamesAll.recipients (s := s.countReceived .room) sound id
  rw [handled]
  exact .toRoom about (addressed.fansOut sound m.payload)

/-- Another hub's envelope is opened, and what is in it goes to the user. -/
private theorem receiveEnvelope_foreign {e : UserEnvelope} {text : String}
    (read : Json.Decode.run UserEnvelope.decode text = .ok e)
    (foreign : e.senderInstanceId ≠ s.hub.instanceId) :
    s.receiveEnvelope text = (s.deliverToUser e.userId e.payload.render).1 := by
  simp only [receiveEnvelope, read, foreign, if_false]

/-- One's own, and a text that is none, goes to nobody. -/
private theorem receiveEnvelope_eq_self {text : String} (noUser : ∀ e,
    Json.Decode.run UserEnvelope.decode text = .ok e → e.senderInstanceId = s.hub.instanceId) :
    s.receiveEnvelope text = s := by
  unfold receiveEnvelope
  split
  · rename_i e read
    exact if_pos (noUser e read)
  · rfl

private theorem routes_envelope (sound : s.hub.registry.Sound s.owner) {m : BusMessage}
    (about : m.channel = Channel.userEvents) : s.Routes m (s.receive m) := by
  have handled : s.receive m = (s.countReceived .user).receiveEnvelope m.payload := by
    rw [receive, about, Channel.topic_userEvents]
  rw [handled]
  by_cases foreign : ∃ e, Json.Decode.run UserEnvelope.decode m.payload = .ok e ∧
      e.senderInstanceId ≠ s.hub.instanceId
  · obtain ⟨e, read, foreign⟩ := foreign
    have addressed := NamesAll.connectionsOf (s := s.countReceived .user) sound e.userId
    rw [receiveEnvelope_foreign (s := s.countReceived .user) read foreign]
    exact .toUser about read foreign (addressed.fansOut sound e.payload.render)
  · have noUser : ∀ e, Json.Decode.run UserEnvelope.decode m.payload = .ok e →
        e.senderInstanceId = s.hub.instanceId :=
      fun e read => not_not.mp fun other => foreign ⟨e, read, other⟩
    rw [receiveEnvelope_eq_self (s := s.countReceived .user) noUser]
    exact .toNobody (about ▸ Channel.roomOf?_userEvents) (fun _ => noUser) (.inr ⟨.user, rfl⟩)

/-- A message on any other channel is for no client. -/
private theorem routes_other {m : BusMessage} (noRoom : Channel.roomOf? m.channel = none)
    (noEnvelope : m.channel ≠ Channel.userEvents) : s.Routes m (s.receive m) := by
  refine .toNobody noRoom (fun about => absurd about noEnvelope) ?_
  by_cases notice : m.channel = Channel.presence
  · have topic : Channel.topic m.channel = .presence := notice ▸ Channel.topic_presence
    rw [receive, topic]
    exact .inr ⟨.presence, rfl⟩
  · have topic : Channel.topic m.channel = .other := by
      rw [Channel.topic, noRoom]
      simp [noEnvelope, notice]
    rw [receive, topic]
    exact .inl rfl

/-- Publisher, subscription and receiver have one idea of a room's channel. The forms that a room
may be spelled in are those of its identifier, whatever the case of their letters, and each is read
as the same room. No other channel is a room's, and a message, whatever its channel and its text,
goes to one room's listeners, to one user or to nobody. -/
theorem channels_unambiguous (sound : s.hub.registry.Sound s.owner) :
    (∀ id, Channel.roomOf? (Channel.room id) = some id) ∧
    Function.Injective Channel.room ∧
    (∀ id, relayFilter.channels.filter (· == Channel.room id) = [] ∧
      relayFilter.patterns.filter (Filter.patternMatches · (Channel.room id)) =
        [Channel.roomPattern]) ∧
    (∀ channel id, Channel.roomOf? channel = some id ↔
      ∃ written, channel = Channel.roomLead ++ written ∧ id.Form written.toList) ∧
    Channel.roomOf? Channel.presence = none ∧
    Channel.roomOf? Channel.userEvents = none ∧
    ∀ m, s.Routes m (s.receive m) := by
  refine ⟨Channel.roomOf_room, Channel.room_injective,
    fun id => ⟨Channel.relayFilter_names id, Channel.relayFilter_patterns id⟩,
    fun channel id => Channel.roomOf?_eq_some, Channel.roomOf?_presence,
    Channel.roomOf?_userEvents, fun m => ?_⟩
  cases about : Channel.roomOf? m.channel with
  | some id => exact routes_room sound about
  | none =>
    by_cases envelope : m.channel = Channel.userEvents
    · exact routes_envelope sound envelope
    · exact routes_other about envelope

/-- Two users with a connection each, of whom one listens to a room. -/
def halfListening : Site MemoryBus :=
  (fresh (.trial ⟨1⟩) 0
      [(⟨0⟩, { user := ⟨7⟩, capacity := 1 }), (⟨1⟩, { user := ⟨8⟩, capacity := 1 })] none).run
    [.roster (.register 0 ⟨0⟩), .roster (.register 0 ⟨1⟩), .roster (.listen ⟨10⟩ ⟨7⟩)]

/-- Another hub spells the room in braces and capital letters. -/
def spelledMessage : BusMessage :=
  ⟨"chat:room:{00000000-0000-0000-0000-00000000000A}", "new"⟩

/-- The message reaches the listener and not the other user. -/
theorem halfListening_routes :
    halfListening.hub.registry.Sound halfListening.owner ∧
      Channel.roomOf? spelledMessage.channel = some ⟨10⟩ ∧
      (halfListening.receive spelledMessage).queues.get? ⟨0⟩ =
        some { user := ⟨7⟩, capacity := 1, pending := ["new"] } ∧
      (halfListening.receive spelledMessage).queues.get? ⟨1⟩ =
        some { user := ⟨8⟩, capacity := 1 } := by
  have sound : halfListening.hub.registry.Sound halfListening.owner :=
    run_sound (s := fresh (.trial ⟨1⟩) 0 _ none) (Registry.sound_empty _) _
  obtain ⟨-, -, -, forms, -, -, routed⟩ := channels_unambiguous sound
  have form : Uuid.Form ⟨10⟩ "{00000000-0000-0000-0000-00000000000A}".toList :=
    @Uuid.Form.braced _ "00000000-0000-0000-0000-00000000000A".toList (by decide)
  have spelled : Channel.roomOf? spelledMessage.channel = some ⟨10⟩ :=
    (forms _ _).mpr ⟨_, rfl, form⟩
  refine ⟨sound, spelled, ?_⟩
  cases routed spelledMessage with
  | @toRoom id _ _ about fanned =>
    obtain rfl : ⟨10⟩ = id := Option.some.inj (spelled.symm.trans about)
    exact ⟨(fanned.queues ⟨0⟩).trans (by decide), (fanned.queues ⟨1⟩).trans (by decide)⟩
  | toUser about =>
    rw [about, Channel.roomOf?_userEvents] at spelled
    cases spelled
  | toNobody noRoom =>
    rw [spelled] at noRoom
    cases noRoom

end Site

end RoomRelay
