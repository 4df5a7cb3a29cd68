import RoomRelay.Proofs.Conversation
import RoomRelay.Proofs.EnvelopeText

/-!
A hub as it would be without its bus. What clients see of a hub is its queues and what it answers;
beside these a hub with a bus has a relay that listens or not, and counts of traffic on the bus.
`Site.unplugged` takes the bus and these away, and the theorems below say of each operation that it
does the same to the rest, with or without a bus, up to what comes back from the bus.
-/

namespace RoomRelay

/-- The hub without its relay and without what it has counted of the bus. -/
def Hub.unplugged (h : Hub) : Hub :=
  { h with
    subscribed := false
    meters := { h.meters with publishFailures := [], received := [] } }

private theorem Hub.countPush_unplugged (h : Hub) (o : PushOutcome) :
    h.unplugged.countPush o = (h.countPush o).unplugged := by
  cases o <;> rfl

namespace Site

variable {β : Type}

/-- The hub in its surroundings as if there had never been a bus. -/
def unplugged (s : Site β) : Site β :=
  { hub := s.hub.unplugged, queues := s.queues, bus := none }

@[simp] theorem unplugged_unplugged (s : Site β) : s.unplugged.unplugged = s.unplugged := rfl

@[simp] theorem unplugged_bus (s : Site β) : s.unplugged.bus = none := rfl

/-- The bus itself is no part of what is left. -/
theorem unplugged_on (s : Site β) (bus : Option β) : { s with bus }.unplugged = s.unplugged := rfl

variable (s : Site β)

/-! ## Delivery -/

theorem pushTo_unplugged (id : ConnId) (payload : String) :
    s.unplugged.pushTo id payload =
      ((s.pushTo id payload).1.unplugged, (s.pushTo id payload).2) := by
  unfold pushTo unplugged
  cases s.queues.get? id with
  | none => rfl
  | some c => simp only [Hub.countPush_unplugged]

private theorem pushAll_unplugged (payload : String) (stats : DeliveryStats) (ids : List ConnId) :
    s.unplugged.pushAll payload stats ids =
      ((s.pushAll payload stats ids).1.unplugged, (s.pushAll payload stats ids).2) := by
  induction ids generalizing s stats with
  | nil => rfl
  | cons id rest ih => simp only [pushAll, pushTo_unplugged, ih]

private theorem localBroadcast_unplugged (room : Uuid) (payload : String) :
    s.unplugged.localBroadcast room payload =
      ((s.localBroadcast room payload).1.unplugged, (s.localBroadcast room payload).2) :=
  s.pushAll_unplugged payload {} _

private theorem deliverToUser_unplugged (user : Uuid) (payload : String) :
    s.unplugged.deliverToUser user payload =
      ((s.deliverToUser user payload).1.unplugged, (s.deliverToUser user payload).2) :=
  s.pushAll_unplugged payload {} _

/-- Deliveries look at nothing that was taken away. -/
theorem localBroadcast_alike {s t : Site β} (alike : s.unplugged = t.unplugged) (room : Uuid)
    (payload : String) :
    (s.localBroadcast room payload).1.unplugged = (t.localBroadcast room payload).1.unplugged ∧
      (s.localBroadcast room payload).2 = (t.localBroadcast room payload).2 := by
  have both := congrArg (·.localBroadcast room payload) alike
  simpa [localBroadcast_unplugged] using both

/-! ## Limits -/

/-- Who is connected and who listens is the same, and so are presence, the relay and the bus. -/
structure Unmoved (s t : Site β) : Prop where
  registry : t.hub.registry = s.hub.registry
  presence : t.hub.presence = s.hub.presence
  subscribed : t.hub.subscribed = s.hub.subscribed
  bus : t.bus = s.bus

/-- Charging a text concerns a rate limit and a count. -/
private theorem charge_fixed (now : Nat) (user : Uuid) (name : String) (b : Budget) :
    s.Unmoved (s.charge now user name b).1 := by
  unfold charge
  dsimp only
  split <;> cases b <;> exact ⟨rfl, rfl, rfl, rfl⟩

private theorem charge_unplugged (now : Nat) (user : Uuid) (name : String) (b : Budget) :
    s.unplugged.charge now user name b =
      ((s.charge now user name b).1.unplugged, (s.charge now user name b).2) := by
  have limiter : b.limiter s.unplugged.hub = b.limiter s.hub := by cases b <;> rfl
  have set_ (r : RateWindow) :
      b.setLimiter s.unplugged.hub r = (b.setLimiter s.hub r).unplugged := by cases b <;> rfl
  unfold charge
  simp only [limiter, set_]
  by_cases allowed : ((b.limiter s.hub).allow user.text now).2 = true
  · simp only [allowed, if_true]
    rfl
  · simp only [allowed, Bool.false_eq_true, if_false]
    rfl

/-- The hub once a text is charged to the budget of its command, if it is a command and has one. -/
def charged (now : Nat) (user : Uuid) (text : String) : Site β :=
  match Command.parse text with
  | .ok c =>
    match c.budget? with
    | some b => (s.charge now user c.name b).1
    | none => s
  | .error _ => s

theorem charged_fixed (now : Nat) (user : Uuid) (text : String) :
    s.Unmoved (s.charged now user text) := by
  unfold charged
  split
  · split
    · exact charge_fixed ..
    · exact ⟨rfl, rfl, rfl, rfl⟩
  · exact ⟨rfl, rfl, rfl, rfl⟩

theorem charged_unplugged (now : Nat) (user : Uuid) (text : String) :
    s.unplugged.charged now user text = (s.charged now user text).unplugged := by
  unfold charged
  split
  · split
    · rw [charge_unplugged]
    · rfl
  · rfl

/-! ## Messages of the bus -/

/-- Handling a message changes counts alone. -/
theorem receive_alike (m : BusMessage) : s.hub.AlikeButCounts (s.receive m).hub := by
  have counted (t : Traffic) : s.hub.AlikeButCounts (s.countReceived t).hub :=
    ⟨rfl, rfl, rfl, rfl, rfl, rfl, rfl⟩
  simp only [receive]
  split
  · exact (counted .room).trans (pushAll_alike ..)
  · simp only [receiveEnvelope]
    split
    · split
      · exact counted .user
      · exact (counted .user).trans (pushAll_alike ..)
    · exact counted .user
  · exact counted .presence
  · exact .refl _

/-- The notices that hubs publish make nobody hear anything. -/
theorem receive_notice (p : Presence) (user : Uuid) (online : Bool) :
    (s.receive (p.notice user online)).unplugged = s.unplugged := by
  simp [receive, Presence.notice, Channel.topic_presence, countReceived, unplugged, Hub.unplugged,
    Meters.messageReceived]

/-- A room's message is delivered to the room. -/
theorem receive_roomMessage (room : Uuid) (payload : String) :
    (s.receive (roomMessage room payload)).unplugged =
      (s.localBroadcast room payload).1.unplugged := by
  simp only [receive, roomMessage, Channel.topic_room]
  have uncounted : (s.countReceived .room).unplugged = s.unplugged := rfl
  exact (localBroadcast_alike uncounted room payload).1

/-- What a hub sent to a user it has delivered already, so its own envelope is dropped, whether it
can be read or not. -/
theorem receive_own_envelope (user : Uuid) (e : Event) :
    (s.receive ⟨Channel.userEvents,
      (UserEnvelope.ofEvent s.hub.instanceId user e).toValue.render⟩).unplugged = s.unplugged := by
  simp only [receive, Channel.topic_userEvents, receiveEnvelope, Event.decode_envelope]
  cases e.relayed? with
  | none => rfl
  | some payload =>
    simp only [show (s.countReceived .user).hub.instanceId = s.hub.instanceId from rfl, if_true]
    rfl

/-! ## Coming and going -/

variable [SharedBus β]

@[simp] theorem markOnline_none (p : Presence) (now : Nat) (user : Uuid) :
    p.markOnline (none : Option β) now user = (p.insert user, none) := rfl

@[simp] theorem markOffline_none (p : Presence) (user : Uuid) :
    p.markOffline (none : Option β) user = (p.remove user, none) := rfl

theorem register_unplugged (now : Nat) (user : Uuid) (id : ConnId) :
    s.unplugged.register now user id =
      ((s.register now user id).1.unplugged, (s.register now user id).2) := by
  unfold register
  by_cases stopped : s.hub.stopped = true
  · simp [unplugged, Hub.unplugged, stopped]
  · by_cases first : (s.hub.registry.addConnection user id).connectionCount user = 1 <;>
      simp [unplugged, Hub.unplugged, stopped, first, countConnections, markOnline]

theorem unregister_unplugged (user : Uuid) (id : ConnId) :
    s.unplugged.unregister user id =
      ((s.unregister user id).1.unplugged, (s.unregister user id).2) := by
  unfold unregister
  by_cases stopped : s.hub.stopped = true
  · simp [unplugged, Hub.unplugged, stopped]
  · by_cases known : id ∈ s.hub.registry.connectionsOf user
    · by_cases last : (s.hub.registry.removeConnection user id).connectionCount user = 0 <;>
        simp [unplugged, Hub.unplugged, stopped, known, last, countConnections, markOffline]
    · simp [unplugged, Hub.unplugged, stopped, known]

/-! ## Events without a bus -/

theorem broadcast_without_bus (room : Uuid) (e : Event) :
    (s.unplugged.broadcast room e).1 = (s.localBroadcast room e.render).1.unplugged := by
  simp [broadcast, localBroadcast_unplugged]

theorem sendToUser_without_bus (user : Uuid) (e : Event) :
    s.unplugged.sendToUser user e =
      ((s.deliverToUser user e.render).1.unplugged, (s.deliverToUser user e.render).2) := by
  simp [sendToUser, deliverToUser_unplugged]

end Site

/-! ## Texts of clients -/

/-- Carries out what came of a text that a connection of a user sent. -/
def TextOutcome.carryOut {β : Type} [SharedBus β] (user : Uuid) (id : ConnId) (s : Site β) :
    TextOutcome → Site β
  | .refused code => s.replyError id code
  | .toRoom room e => (s.broadcast room e).1
  | .toSender e => s.reply id e
  | .toUser e => (s.sendToUser user e).1
  | .nothing => s

namespace Site

variable {β ω : Type} (answer : ω → (c : Call) → ω × c.Outcome) (w : ω)

@[simp] theorem run_done_ok (s : Site β) (id : ConnId) :
    ((Procedure.done s (.ok ())).andThen (conclude id)).run answer w = (w, s, ()) := rfl

@[simp] theorem run_done_error (s : Site β) (id : ConnId) (code : ErrorCode) :
    ((Procedure.done s (.error code)).andThen (conclude id)).run answer w =
      (w, s.replyError id code, ()) := rfl

@[simp] theorem run_ask (s : Site β) (id : ConnId) (call : Call)
    (resume : Site β → call.Outcome → Procedure (Site β) CommandResult) :
    ((Procedure.ask s call resume).andThen (conclude id)).run answer w =
      ((resume s (answer w call).2).andThen (conclude id)).run answer (answer w call).1 := rfl

@[simp] theorem run_askBoth (s : Site β) (id : ConnId) (first second : Call)
    (resume : Site β → first.Outcome → second.Outcome → Procedure (Site β) CommandResult) :
    ((Procedure.askBoth s first second resume).andThen (conclude id)).run answer w =
      ((resume s (answer w first).2 (answer (answer w first).1 second).2).andThen
        (conclude id)).run answer (answer (answer w first).1 second).1 := rfl

variable [SharedBus β]

variable (β) in
/-- How many notifications are unread goes to all the user's connections, or the sender hears that
this is not known. -/
private theorem sendUnread_run (user : Uuid) (id : ConnId) (event : Int → Event) :
    ∃ w', ∃ o : TextOutcome, ∀ t : Site β,
      ((t.sendUnread user event).andThen (conclude id)).run answer w =
        (w', o.carryOut user id t, ()) := by
  refine ⟨(answer w (.unreadCount user)).1, ?_⟩
  cases unread : (answer w (.unreadCount user)).2 with
  | ok n => exact ⟨.toUser (event n), fun t => by simp [sendUnread, unread, TextOutcome.carryOut]⟩
  | error f =>
    exact ⟨.refused .internalError, fun t => by simp [sendUnread, unread, TextOutcome.carryOut]⟩

variable (β) in
theorem sendSync_run (user : Uuid) (id : ConnId) (p : SyncParams) :
    ∃ w', ∃ o : TextOutcome, ∀ t : Site β,
      ((t.sendSync user id p).andThen (conclude id)).run answer w =
        (w', o.carryOut user id t, ()) := by
  let first := answer w (.unreadCount user)
  let second := answer first.1 (.notifications user p.limit p.offset p.unreadOnly)
  refine ⟨second.1, ?_⟩
  cases unread : first.2 with
  | error f =>
    exact ⟨.refused .internalError, fun t => by
      simp [sendSync, first, second, unread, TextOutcome.carryOut]⟩
  | ok n =>
    cases items : second.2 with
    | error f =>
      exact ⟨.refused .internalError, fun t => by
        simp [sendSync, first, second, unread, items, TextOutcome.carryOut]⟩
    | ok page =>
      exact ⟨.toSender (.notificationSync n page p.limit p.offset), fun t => by
        simp [sendSync, first, second, unread, items, TextOutcome.carryOut]⟩

/-- What comes of a command is decided by the answers and by who listens to which room. -/
private theorem perform_run (s : Site β) (user : Uuid) (id : ConnId) (c : Command) :
    ∃ w', ∃ o : TextOutcome, ∀ t : Site β, t.hub.registry = s.hub.registry →
      ((t.perform user id c).andThen (conclude id)).run answer w =
        (w', o.carryOut user id t, ()) := by
  cases c with
  | typing room isTyping =>
    by_cases listens : s.hub.registry.isListening room user = true
    · refine ⟨w, .toRoom room (.typing room user isTyping), fun t same => ?_⟩
      simp [perform, same, listens, TextOutcome.carryOut]
    · refine ⟨w, .refused .notSubscribed, fun t same => ?_⟩
      simp [perform, same, listens, TextOutcome.carryOut]
  | read room =>
    by_cases listens : s.hub.registry.isListening room user = true
    · cases recorded : (answer w (.markRoomRead room user)).2 with
      | ok readAt =>
        refine ⟨(answer w (.markRoomRead room user)).1, .toRoom room (.read room user readAt),
          fun t same => ?_⟩
        simp [perform, same, listens, recorded, TextOutcome.carryOut]
      | error f =>
        refine ⟨(answer w (.markRoomRead room user)).1, .refused .internalError,
          fun t same => ?_⟩
        simp [perform, same, listens, recorded, TextOutcome.carryOut]
    · refine ⟨w, .refused .notSubscribed, fun t same => ?_⟩
      simp [perform, same, listens, TextOutcome.carryOut]
  | notificationSync p =>
    obtain ⟨w', o, sent⟩ := sendSync_run β answer w user id p
    exact ⟨w', o, fun t _ => sent t⟩
  | notificationRead notification =>
    cases marked : (answer w (.markRead user notification)).2 with
    | ok done_ =>
      obtain ⟨w', o, sent⟩ := sendUnread_run β answer (answer w (.markRead user notification)).1
        user id fun unread => .notificationRead unread [notification]
      exact ⟨w', o, fun t _ => by simpa [perform, marked] using sent t⟩
    | error f =>
      refine ⟨(answer w (.markRead user notification)).1, .refused .internalError, fun t _ => ?_⟩
      simp [perform, marked, TextOutcome.carryOut]
  | notificationReadAll =>
    cases marked : (answer w (.markAllRead user)).2 with
    | ok changed =>
      obtain ⟨w', o, sent⟩ := sendUnread_run β answer (answer w (.markAllRead user)).1
        user id .notificationReadAll
      exact ⟨w', o, fun t _ => by simpa [perform, marked] using sent t⟩
    | error f =>
      refine ⟨(answer w (.markAllRead user)).1, .refused .internalError, fun t _ => ?_⟩
      simp [perform, marked, TextOutcome.carryOut]
  | unknown kind => exact ⟨w, .nothing, fun t _ => rfl⟩

/-- What comes of a text is the same on all hubs that differ in their buses only. -/
theorem handleText_run (s : Site β) (now : Nat) (user : Uuid) (id : ConnId) (text : String) :
    ∃ w', ∃ o : TextOutcome, ∀ t : Site β, t.unplugged = s.unplugged →
      (t.handleText now user id text).run answer w =
        (w', o.carryOut user id (t.charged now user text), ()) := by
  unfold handleText charged
  cases Command.parse text with
  | error code => exact ⟨w, .refused code, fun t _ => rfl⟩
  | ok c =>
    have registry {t : Site β} (alike : t.unplugged = s.unplugged) :
        t.hub.registry = s.hub.registry := congrArg (·.hub.registry) alike
    simp only [execute]
    cases c.budget? with
    | none =>
      obtain ⟨w', o, performed⟩ := s.perform_run answer w user id c
      exact ⟨w', o, fun t alike => performed t (registry alike)⟩
    | some b =>
      obtain ⟨w', o, performed⟩ := s.perform_run answer w user id c
      have charges {t : Site β} (alike : t.unplugged = s.unplugged) :
          (t.charge now user c.name b).2 = (s.charge now user c.name b).2 := by
        have both := congrArg (·.charge now user c.name b) alike
        simp only [charge_unplugged, Prod.mk.injEq] at both
        exact both.2
      have split (t : Site β) (alike : t.unplugged = s.unplugged) :
          t.charge now user c.name b =
            ((t.charge now user c.name b).1, (s.charge now user c.name b).2) :=
        Prod.ext rfl (charges alike)
      cases allowed : (s.charge now user c.name b).2 with
      | true =>
        refine ⟨w', o, fun t alike => ?_⟩
        dsimp only
        rw [split t alike, allowed]
        exact performed _ ((charge_fixed ..).registry.trans (registry alike))
      | false =>
        refine ⟨w, .refused b.code, fun t alike => ?_⟩
        dsimp only
        rw [split t alike, allowed]
        rfl

end Site

end RoomRelay
