import RoomRelay.Proofs.AmbiguousPublish
import RoomRelay.Proofs.Unplugged

/-!
What a hub that is alone gains or loses by a bus: nothing that its clients could see. It may have no
bus, a bus in memory that works and that its relay reads, or a bus that is switched off all the
time. Events take different ways to the same queues, and who is online is looked up in different
places, which agree as long as the shared set does not expire.
-/

namespace RoomRelay

/-- A hub that is alone, and the place from which its relay reads the bus, if it does. -/
structure LoneHub where
  site : Site MemoryBus
  reading : Option Subscription

/-- The text that a client gets from its connection. -/
def ClientAct.taken : ClientAct → Option Connection → Option String
  | .take, some c => c.receive.2
  | _, _ => none

namespace LoneHub

/-- What a lone hub is asked to do. -/
inductive Request where
  | register (now : Nat) (user : Uuid) (id : ConnId)
  | unregister (user : Uuid) (id : ConnId)
  | listen (room user : Uuid)
  | unlisten (room user : Uuid)
  | broadcast (room : Uuid) (e : Event)
  | announceMessage (room : Uuid) (m : Message)
  | announcePresence (user : Uuid) (rooms : List Uuid) (online : Bool)
  | sendToUser (user : Uuid) (e : Event)
  /-- A client's text is handled, and the services are asked what it needs. -/
  | text (now : Nat) (user : Uuid) (id : ConnId) (text : String)
  | isOnline (now : Nat) (user : Uuid)
  | onlineAmong (now : Nat) (users : List Uuid)
  /-- A client takes a text, closes its connection or goes. -/
  | client (id : ConnId) (a : ClientAct)

/-- What whoever asked gets to see. Which way a broadcast took is not part of it. -/
inductive Reply where
  | done
  | registered (first : Except Failure Bool)
  | unregistered (left : Except Failure (List Uuid))
  | delivered (stats : DeliveryStats)
  | online (answer : Bool)
  | onlineOf (answer : List Uuid)
  | took (text : Option String)
deriving DecidableEq

/-- The relay handles everything that is pending. -/
def settle (h : LoneHub) : LoneHub :=
  match h.site.bus, h.reading with
  | some b, some place => ⟨(b.pending place).foldl Site.receive h.site, some (b.caughtUp place)⟩
  | _, _ => h

/-- The hub goes on, and its relay handles what was put on the bus. -/
def goOn (h : LoneHub) (s : Site MemoryBus) : LoneHub := { h with site := s }.settle

/-- Broadcasts events, each of which is handled before the next. -/
def broadcastEach (h : LoneHub) (events : List (Uuid × Event)) : LoneHub :=
  events.foldl (fun h e => h.goOn (h.site.broadcast e.1 e.2).1) h

/-- The events that tell a room of a message. -/
def announcements (room : Uuid) (m : Message) : List (Uuid × Event) :=
  let m := { m with roomId := room }
  [(room, .newMessage m), (room, .messageCreated m), (room, .roomUpdated m)]

variable {ω : Type} (answer : ω → (c : Call) → ω × c.Outcome)

/-- A request is served, by a hub whose relay keeps up with it. -/
def serve (w : ω) (h : LoneHub) : Request → ω × LoneHub × Reply
  | .register now user id =>
    let (s, first) := h.site.register now user id
    (w, h.goOn s, .registered first)
  | .unregister user id =>
    let (s, left) := h.site.unregister user id
    (w, h.goOn s, .unregistered left)
  | .listen room user => (w, h.goOn (h.site.listen room user), .done)
  | .unlisten room user => (w, h.goOn (h.site.unlisten room user), .done)
  | .broadcast room e => (w, h.broadcastEach [(room, e)], .done)
  | .announceMessage room m => (w, h.broadcastEach (announcements room m), .done)
  | .announcePresence user rooms online =>
    (w, h.broadcastEach (rooms.map fun room => (room, .presence user online)), .done)
  | .sendToUser user e =>
    let (s, stats) := h.site.sendToUser user e
    (w, h.goOn s, .delivered stats)
  | .text now user id text =>
    let (w, s, ()) := (h.site.handleText now user id text).run answer w
    (w, h.goOn s, .done)
  | .isOnline now user =>
    let (s, online) := h.site.isOnline now user
    (w, h.goOn s, .online online)
  | .onlineAmong now users =>
    let (s, online) := h.site.onlineAmong now users
    (w, h.goOn s, .onlineOf online)
  | .client id a =>
    let s := { h.site with queues := h.site.queues.modify id a.onConnection }
    (w, h.goOn s, .took (a.taken (h.site.queues.get? id)))

/-- Requests are served one after another. -/
def serveAll (w : ω) (h : LoneHub) : List Request → ω × LoneHub × List Reply
  | [] => (w, h, [])
  | r :: rest =>
    let (w, h, reply) := h.serve answer w r
    let (w, h, replies) := h.serveAll w rest
    (w, h, reply :: replies)

/-- The instant at which a request looks at the shared set. -/
def Request.instant? : Request → Option Nat
  | .register now .. | .isOnline now _ | .onlineAmong now _ => some now
  | _ => none

/-- The bus that the hub's relay reads. -/
def readBus? (h : LoneHub) : Option MemoryBus := h.reading.bind fun _ => h.site.bus

/-- The shared set on a bus that is read has not expired when it is looked at. -/
def LastsFor (h : LoneHub) (r : Request) : Prop :=
  ∀ now ∈ r.instant?, ∀ b ∈ h.readBus?, b.Unexpired now

instance (h : LoneHub) (r : Request) : Decidable (h.LastsFor r) :=
  inferInstanceAs (Decidable (∀ _ ∈ _, ∀ _ ∈ _, _))

/-- It does not expire while requests are served. -/
def LastsThrough (w : ω) (h : LoneHub) : List Request → Prop
  | [] => True
  | r :: rest =>
    h.LastsFor r ∧ (h.serve answer w r).2.1.LastsThrough (h.serve answer w r).1 rest

instance decidableLastsThrough (w : ω) (h : LoneHub) : (requests : List Request) →
    Decidable (h.LastsThrough answer w requests)
  | [] => .isTrue trivial
  | r :: rest =>
    have := decidableLastsThrough (h.serve answer w r).1 (h.serve answer w r).2.1 rest
    inferInstanceAs (Decidable (_ ∧ _))

/-! ## The three modes -/

/-- There is no bus, or it is switched off and the relay reads nothing. -/
structure CutOff (h : LoneHub) : Prop where
  reading : h.reading = none
  off : ∀ b, h.site.bus = some b → b.available = false

/-- The bus works, the relay has read all of it, and the shared set holds the hub's own users. -/
structure Attended (h : LoneHub) (b : MemoryBus) : Prop where
  bus : h.site.bus = some b
  reading : h.reading = some ⟨relayFilter, b.count⟩
  working : b.Working
  listening : h.site.hub.subscribed = true
  agrees : ∀ user, b.Shows user ↔ user ∈ h.site.hub.presence.users

/-- The hub is in one of the modes, and clients cannot tell it from a hub `t` that has no bus. -/
structure Mirrors (h : LoneHub) (t : Site MemoryBus) : Prop where
  mode : h.CutOff ∨ ∃ b, h.Attended b
  same : h.site.unplugged = t

variable {h : LoneHub} {b b' : MemoryBus} {s t : Site MemoryBus} {now : Nat} {user room : Uuid}

/-! ### Cut off from the bus -/

/-- A hub of which no relay reads anything. -/
def bare (t : Site MemoryBus) : LoneHub := ⟨t, none⟩

private theorem goOn_unread (unread : h.reading = none) (s : Site MemoryBus) :
    h.goOn s = ⟨s, none⟩ := by
  simp only [goOn, settle, unread]
  split
  · rename_i impossible
    cases impossible
  · rfl

@[simp] theorem bare_goOn (s t : Site MemoryBus) : (bare t).goOn s = bare s := goOn_unread rfl s

/-- The hub after broadcasting events of which nothing comes back. -/
def broadcasts (s : Site MemoryBus) (events : List (Uuid × Event)) : Site MemoryBus :=
  events.foldl (fun s e => (s.broadcast e.1 e.2).1) s

private theorem bare_broadcastEach (events : List (Uuid × Event)) (t : Site MemoryBus) :
    (bare t).broadcastEach events = bare (broadcasts t events) := by
  induction events generalizing t with
  | nil => rfl
  | cons e rest ih => exact (congrArg (·.broadcastEach rest) (bare_goOn _ t)).trans (ih _)

/-- Of a hub that reads nothing this is what its announcements do. -/
private theorem bare_announceMessage (t : Site MemoryBus) (room : Uuid) (m : Message) :
    (bare t).broadcastEach (announcements room m) = bare (t.announceMessage room m) :=
  bare_broadcastEach ..

private theorem bare_announcePresence (t : Site MemoryBus) (user : Uuid) (rooms : List Uuid)
    (online : Bool) :
    (bare t).broadcastEach (rooms.map fun room => (room, .presence user online)) =
      bare (t.announcePresence user rooms online) := by
  rw [bare_broadcastEach, broadcasts, List.foldl_map, Site.announcePresence]

/-- What leaves the bus as it was leaves the hub cut off. -/
theorem CutOff.mirrors (cutOff : h.CutOff) (still : s.bus = h.site.bus) (same : s.unplugged = t) :
    (h.goOn s).Mirrors t := by
  rw [goOn_unread cutOff.reading]
  exact ⟨.inl ⟨rfl, fun b on => cutOff.off b (still.symm.trans on)⟩, same⟩

private theorem publish_off (off : b.available = false) (m : BusMessage) :
    SharedBus.publish b m = (b, .error MemoryBus.switchedOff) := by
  simp [SharedBus.publish, MemoryBus.publish, off]

theorem CutOff.unpublished (cutOff : h.CutOff) (m : BusMessage) :
    h.site.bus.map (fun b => (SharedBus.publish b m).1) = h.site.bus := by
  cases on : h.site.bus with
  | none => rfl
  | some b => rw [Option.map_some, publish_off (cutOff.off b on)]

/-- With the bus switched off a broadcast is delivered here, whether the relay listens or not. -/
theorem CutOff.broadcast (cutOff : h.CutOff) (room : Uuid) (e : Event) :
    (h.goOn (h.site.broadcast room e).1).Mirrors (h.site.unplugged.broadcast room e).1 := by
  apply cutOff.mirrors
  · rw [Site.broadcast_bus, cutOff.unpublished]
  · rw [Site.broadcast_without_bus]
    cases on : h.site.bus with
    | none => simp [Site.broadcast, on]
    | some b =>
      have refused : (SharedBus.publish b (Site.roomMessage room e.render)).2 =
          .error MemoryBus.switchedOff := by rw [publish_off (cutOff.off b on)]
      by_cases listening : h.site.hub.subscribed = true
      · simp only [Site.broadcast, on, listening, if_true, Site.relayBroadcast,
          Site.publishOn_refused refused]
        refine (Site.localBroadcast_alike ?_ room e.render).1
        rfl
      · simp only [Site.broadcast, on, listening, Bool.false_eq_true, if_false,
          Site.fallbackBroadcast, Site.publishOn_refused refused]
        rfl

theorem CutOff.sendToUser (cutOff : h.CutOff) (user : Uuid) (e : Event) :
    (h.goOn (h.site.sendToUser user e).1).Mirrors (h.site.unplugged.sendToUser user e).1 ∧
      (h.site.sendToUser user e).2 = (h.site.unplugged.sendToUser user e).2 := by
  rw [Site.sendToUser_without_bus]
  have kept : (h.site.deliverToUser user e.render).1.bus = h.site.bus := Site.pushAll_bus ..
  have sent : (h.site.sendToUser user e).1.unplugged =
        (h.site.deliverToUser user e.render).1.unplugged ∧
      (h.site.sendToUser user e).2 = (h.site.deliverToUser user e.render).2 := by
    simp only [Site.sendToUser, kept]
    cases on : h.site.bus with
    | none => exact ⟨rfl, rfl⟩
    | some b =>
      simp only [Site.publishOn, publish_off (cutOff.off b on), and_true]
      rfl
  refine ⟨cutOff.mirrors ?_ sent.1, sent.2⟩
  rw [Site.sendToUser_bus, cutOff.unpublished]

theorem CutOff.register (cutOff : h.CutOff) (now : Nat) (user : Uuid) (id : ConnId) :
    (h.goOn (h.site.register now user id).1).Mirrors (h.site.unplugged.register now user id).1 := by
  have unmarked : (h.site.hub.presence.markOnline h.site.bus now user).2 = h.site.bus := by
    cases on : h.site.bus with
    | none => rfl
    | some b => simp [Presence.markOnline, SharedBus.setAdd, MemoryBus.setAdd, cutOff.off b on]
  refine cutOff.mirrors ?_ (by rw [Site.register_unplugged])
  by_cases stopped : h.site.hub.stopped = true
  · rw [Site.register_stopped stopped]
  · rw [Site.register_bus (Bool.eq_false_iff.mpr stopped), unmarked, ite_self]

theorem CutOff.unregister (cutOff : h.CutOff) (user : Uuid) (id : ConnId) :
    (h.goOn (h.site.unregister user id).1).Mirrors (h.site.unplugged.unregister user id).1 := by
  have unmarked : (h.site.hub.presence.markOffline h.site.bus user).2 = h.site.bus := by
    cases on : h.site.bus with
    | none => rfl
    | some b =>
      simp [Presence.markOffline, SharedBus.setRemove, MemoryBus.setRemove, cutOff.off b on]
  refine cutOff.mirrors ?_ (by rw [Site.unregister_unplugged])
  by_cases stopped : h.site.hub.stopped = true
  · rw [Site.unregister_stopped stopped]
  · rw [Site.unregister_bus (Bool.eq_false_iff.mpr stopped), unmarked, ite_self]

/-- Without the bus a hub knows of its own users. -/
theorem CutOff.onlineAmong (cutOff : h.CutOff) (now : Nat) (users : List Uuid) :
    h.site.hub.presence.onlineAmong h.site.bus now users =
      (h.site.bus, h.site.hub.presence.hereAmong users) := by
  unfold Presence.onlineAmong
  by_cases nobody : users = []
  · simp [nobody, Presence.hereAmong]
  · cases on : h.site.bus with
    | none => simp [nobody]
    | some b =>
      simp [nobody, SharedBus.setContains, MemoryBus.setContains, cutOff.off b on]

/-! ### On a bus that works -/

/-- What is put on the bus comes back at once, and nothing else does. -/
theorem Attended.goOn (attended : h.Attended b) {sent : Option BusMessage} (on : s.bus = some b')
    (history : b'.history = b.history ++ sent.toList)
    (accepted : ∀ m ∈ sent, relayFilter.accepts m.channel = true) :
    h.goOn s = ⟨sent.elim s s.receive, some ⟨relayFilter, b'.count⟩⟩ := by
  have counts : b'.count = b.count + sent.toList.length := by
    rw [← MemoryBus.history_length, history, List.length_append, MemoryBus.history_length]
  have few : sent.toList.length ≤ 1 := by cases sent <;> simp
  -- The relay had read everything, so it is at most one message behind and loses none.
  have keepsUp : ¬b'.Lags ⟨relayFilter, b.count⟩ := by
    simp only [MemoryBus.Lags, counts, MemoryBus.retained]
    omega
  have pending : b'.pending ⟨relayFilter, b.count⟩ = sent.toList := by
    rw [MemoryBus.pending_eq keepsUp, history, ← MemoryBus.history_length, List.drop_left]
    exact List.filter_eq_self.mpr fun m member => accepted m (Option.mem_toList.mp member)
  simp only [LoneHub.goOn, settle, on, attended.reading, pending, MemoryBus.caughtUp]
  cases sent <;> rfl

/-- The hub goes on in step with the bus, when what it sent changes there what it changed here. -/
theorem Attended.mirrors (attended : h.Attended b) (sent : Option BusMessage) (on : s.bus = some b')
    (history : b'.history = b.history ++ sent.toList)
    (accepted : ∀ m ∈ sent, relayFilter.accepts m.channel = true) (working : b'.Working)
    (listening : s.hub.subscribed = true)
    (agrees : ∀ user, b'.Shows user ↔ user ∈ s.hub.presence.users)
    (same : (sent.elim s s.receive).unplugged = t) : (h.goOn s).Mirrors t := by
  rw [attended.goOn on history accepted]
  have kept : (sent.elim s s.receive).bus = s.bus ∧
      s.hub.AlikeButCounts (sent.elim s s.receive).hub := by
    cases sent with
    | none => exact ⟨rfl, .refl _⟩
    | some m => exact ⟨Site.receive_bus s m, Site.receive_alike s m⟩
  obtain ⟨bus, alike⟩ := kept
  refine ⟨.inr ⟨b', bus.trans on, rfl, working, alike.subscribed.trans listening, fun user => ?_⟩,
    same⟩
  rw [agrees, alike.presence]

/-- What concerns neither the bus nor the relay nor who is online. -/
theorem Attended.idle (attended : h.Attended b) (still : s.bus = h.site.bus)
    (listening : s.hub.subscribed = h.site.hub.subscribed)
    (presence : s.hub.presence = h.site.hub.presence) (same : s.unplugged = t) :
    (h.goOn s).Mirrors t :=
  attended.mirrors none (still.trans attended.bus) (by simp) (by simp)
    attended.working (listening.trans attended.listening)
    (fun user => by rw [presence]; exact attended.agrees user) same

theorem Attended.broadcast (attended : h.Attended b) (room : Uuid) (e : Event) :
    (h.goOn (h.site.broadcast room e).1).Mirrors (h.site.unplugged.broadcast room e).1 := by
  let m := Site.roomMessage room e.render
  have published := MemoryBus.publish_eq attended.working m
  have sent : (h.site.broadcast room e).1 = { h.site with bus := some (b.append m) } := by
    simp only [Site.broadcast, attended.bus, attended.listening, if_true, Site.relayBroadcast,
      Site.publishOn, m, published]
  rw [sent]
  refine attended.mirrors (some m) rfl (MemoryBus.history_append b m) ?_
    (MemoryBus.append_working attended.working m) attended.listening attended.agrees ?_
  · simpa using Site.accepts_roomMessage room e.render
  · rw [Site.broadcast_without_bus, Option.elim_some, Site.receive_roomMessage]
    exact (Site.localBroadcast_alike (Site.unplugged_on ..) room e.render).1

private theorem accepts_userEvents : relayFilter.accepts Channel.userEvents = true := by decide

theorem Attended.sendToUser (attended : h.Attended b) (user : Uuid) (e : Event) :
    (h.goOn (h.site.sendToUser user e).1).Mirrors (h.site.unplugged.sendToUser user e).1 ∧
      (h.site.sendToUser user e).2 = (h.site.unplugged.sendToUser user e).2 := by
  let delivered := (h.site.deliverToUser user e.render).1
  let m : BusMessage :=
    ⟨Channel.userEvents, (UserEnvelope.ofEvent delivered.hub.instanceId user e).toValue.render⟩
  have alike : h.site.hub.AlikeButCounts delivered.hub := Site.pushAll_alike ..
  have kept : delivered.bus = some b := (Site.pushAll_bus ..).trans attended.bus
  have published := MemoryBus.publish_eq attended.working m
  have sent : h.site.sendToUser user e =
      ({ delivered with bus := some (b.append m) }, (h.site.deliverToUser user e.render).2) := by
    simp only [Site.sendToUser]
    rw [show (h.site.deliverToUser user e.render).1.bus = some b from kept]
    simp only [Site.publishOn, m, delivered, published]
  rw [sent, Site.sendToUser_without_bus]
  refine ⟨?_, rfl⟩
  refine attended.mirrors (some m) rfl (MemoryBus.history_append b m) ?_
    (MemoryBus.append_working attended.working m) (alike.subscribed.trans attended.listening) ?_ ?_
  · simpa [m] using accepts_userEvents
  · intro other
    rw [MemoryBus.append_shows, attended.agrees, ← alike.presence]
  · exact Site.receive_own_envelope { delivered with bus := some (b.append m) } user e

private theorem accepts_notice (p : Presence) (user : Uuid) (online : Bool) :
    relayFilter.accepts (p.notice user online).channel = true :=
  show relayFilter.accepts Channel.presence = true by decide

theorem Attended.register (attended : h.Attended b) (unexpired : b.Unexpired now) (user : Uuid)
    (id : ConnId) :
    (h.goOn (h.site.register now user id).1).Mirrors (h.site.unplugged.register now user id).1 := by
  have same : (h.site.register now user id).1.unplugged =
      (h.site.unplugged.register now user id).1 := by rw [Site.register_unplugged]
  have fixed := Site.register_fixed h.site now user id
  by_cases stopped : h.site.hub.stopped = true
  · rw [Site.register_stopped stopped] at same ⊢
    exact attended.idle rfl rfl rfl same
  have running := Bool.eq_false_iff.mpr stopped
  have bus := Site.register_bus running now user id
  have hub := Site.register_hub running now user id
  by_cases first : (h.site.hub.registry.addConnection user id).connectionCount user = 1
  · rw [if_pos first, attended.bus, Presence.markOnline_bus attended.working] at bus
    rw [if_pos first] at hub
    refine attended.mirrors (some (h.site.hub.presence.notice user true)) bus ?_ ?_
      ?_ (fixed.subscribed.trans attended.listening) ?_ ?_
    · rw [MemoryBus.history_append, MemoryBus.history, MemoryBus.setAdd_log]
      rfl
    · simpa using accepts_notice h.site.hub.presence user true
    · exact MemoryBus.append_working (MemoryBus.setAdd_working attended.working ..) _
    · intro other
      rw [MemoryBus.append_shows, MemoryBus.setAdd_shows attended.working unexpired, hub,
        Presence.mem_insert, attended.agrees]
    · exact (Site.receive_notice ..).trans same
  · rw [if_neg first] at bus
    exact attended.idle bus fixed.subscribed (by rw [hub, if_neg first]) same

theorem Attended.unregister (attended : h.Attended b) (user : Uuid) (id : ConnId) :
    (h.goOn (h.site.unregister user id).1).Mirrors (h.site.unplugged.unregister user id).1 := by
  have same : (h.site.unregister user id).1.unplugged =
      (h.site.unplugged.unregister user id).1 := by rw [Site.unregister_unplugged]
  have fixed := Site.unregister_fixed h.site user id
  by_cases stopped : h.site.hub.stopped = true
  · rw [Site.unregister_stopped stopped] at same ⊢
    exact attended.idle rfl rfl rfl same
  have running := Bool.eq_false_iff.mpr stopped
  have bus := Site.unregister_bus running user id
  by_cases known : id ∈ h.site.hub.registry.connectionsOf user
  · by_cases last : (h.site.hub.registry.removeConnection user id).connectionCount user = 0
    · have hub := Site.unregister_hub_last running known last
      rw [if_pos ⟨known, last⟩, attended.bus, Presence.markOffline_bus attended.working] at bus
      refine attended.mirrors (some (h.site.hub.presence.notice user false)) bus ?_ ?_
        ?_ (fixed.subscribed.trans attended.listening) ?_ ?_
      · rw [MemoryBus.history_append, MemoryBus.history, MemoryBus.setRemove_log]
        rfl
      · simpa using accepts_notice h.site.hub.presence user false
      · exact MemoryBus.append_working (MemoryBus.setRemove_working attended.working ..) _
      · intro other
        rw [MemoryBus.append_shows, MemoryBus.setRemove_shows attended.working, hub,
          Presence.mem_remove, attended.agrees]
      · exact (Site.receive_notice ..).trans same
    · rw [if_neg fun both => last both.2] at bus
      have hub := Site.unregister_hub_more running known last
      exact attended.idle bus fixed.subscribed (by rw [hub]) same
  · rw [if_neg fun both => known both.1] at bus
    have hub := Site.unregister_unknown running known
    exact attended.idle bus fixed.subscribed (by rw [hub]) same

/-- On the bus stand the users that the hub knows of itself. -/
theorem Attended.onlineAmong (attended : h.Attended b) (unexpired : b.Unexpired now)
    (users : List Uuid) :
    h.site.hub.presence.onlineAmong h.site.bus now users =
      (h.site.bus, h.site.hub.presence.hereAmong users) := by
  have kept (texts : List String) :
      (SharedBus.setContains b now Channel.onlineSet texts).1 = b :=
    MemoryBus.setContains_unexpired unexpired texts
  refine Prod.ext ?_ ?_
  · rw [attended.bus, Presence.onlineAmong_bus, kept, ite_self]
  · rw [attended.bus, Presence.onlineAmong_shared attended.working, Presence.hereAmong]
    refine List.filter_congr fun user _ => ?_
    rw [Bool.eq_iff_iff, List.contains_iff_mem, List.contains_iff_mem,
      MemoryBus.mem_liveMembers unexpired, attended.agrees]

/-! ### In any mode -/

theorem Mirrors.alike (mirrors : h.Mirrors t) : t.unplugged = h.site.unplugged := by
  rw [← mirrors.same, Site.unplugged_unplugged]

/-- What concerns neither the bus nor the relay nor who is online. -/
theorem Mirrors.idle (mirrors : h.Mirrors t) {u : Site MemoryBus} (still : s.bus = h.site.bus)
    (listening : s.hub.subscribed = h.site.hub.subscribed)
    (presence : s.hub.presence = h.site.hub.presence) (same : s.unplugged = u) :
    (h.goOn s).Mirrors u := by
  rcases mirrors.mode with cutOff | ⟨b, attended⟩
  · exact cutOff.mirrors still same
  · exact attended.idle still listening presence same

theorem Mirrors.broadcast (mirrors : h.Mirrors t) (room : Uuid) (e : Event) :
    (h.goOn (h.site.broadcast room e).1).Mirrors (t.broadcast room e).1 := by
  obtain ⟨mode, rfl⟩ := mirrors
  rcases mode with cutOff | ⟨b, attended⟩
  · exact cutOff.broadcast room e
  · exact attended.broadcast room e

private theorem Mirrors.broadcastEach (mirrors : h.Mirrors t) (events : List (Uuid × Event)) :
    (h.broadcastEach events).Mirrors (broadcasts t events) := by
  induction events generalizing h t with
  | nil => exact mirrors
  | cons e rest ih => exact ih (mirrors.broadcast e.1 e.2)

theorem Mirrors.sendToUser (mirrors : h.Mirrors t) (user : Uuid) (e : Event) :
    (h.goOn (h.site.sendToUser user e).1).Mirrors (t.sendToUser user e).1 ∧
      (h.site.sendToUser user e).2 = (t.sendToUser user e).2 := by
  obtain ⟨mode, rfl⟩ := mirrors
  rcases mode with cutOff | ⟨b, attended⟩
  · exact cutOff.sendToUser user e
  · exact attended.sendToUser user e

private theorem Attended.readBus (attended : h.Attended b) : b ∈ h.readBus? := by
  simp [readBus?, attended.reading, attended.bus]

theorem Mirrors.register (mirrors : h.Mirrors t) (lasts : ∀ b ∈ h.readBus?, b.Unexpired now)
    (user : Uuid) (id : ConnId) :
    (h.goOn (h.site.register now user id).1).Mirrors (t.register now user id).1 ∧
      (h.site.register now user id).2 = (t.register now user id).2 := by
  obtain ⟨mode, rfl⟩ := mirrors
  refine ⟨?_, by rw [Site.register_unplugged]⟩
  rcases mode with cutOff | ⟨b, attended⟩
  · exact cutOff.register now user id
  · exact attended.register (lasts b attended.readBus) user id

theorem Mirrors.unregister (mirrors : h.Mirrors t) (user : Uuid) (id : ConnId) :
    (h.goOn (h.site.unregister user id).1).Mirrors (t.unregister user id).1 ∧
      (h.site.unregister user id).2 = (t.unregister user id).2 := by
  obtain ⟨mode, rfl⟩ := mirrors
  refine ⟨?_, by rw [Site.unregister_unplugged]⟩
  rcases mode with cutOff | ⟨b, attended⟩
  · exact cutOff.unregister user id
  · exact attended.unregister user id

/-- In every mode a hub answers by its own users, and leaves the bus as it was. -/
private theorem Mirrors.lookUp (mirrors : h.Mirrors t) (lasts : ∀ b ∈ h.readBus?, b.Unexpired now)
    (users : List Uuid) :
    h.site.hub.presence.onlineAmong h.site.bus now users =
      (h.site.bus, t.hub.presence.hereAmong users) := by
  obtain ⟨mode, rfl⟩ := mirrors
  rcases mode with cutOff | ⟨b, attended⟩
  · exact cutOff.onlineAmong now users
  · exact attended.onlineAmong (lasts b attended.readBus) users

theorem Mirrors.bare (mirrors : h.Mirrors t) : (bare t).Mirrors t := by
  obtain ⟨-, rfl⟩ := mirrors
  exact ⟨.inl ⟨rfl, fun b on => by cases on⟩, rfl⟩

/-- A hub without a bus has no set that could expire. -/
private theorem bare_lasts (t : Site MemoryBus) (now : Nat) :
    ∀ b ∈ (LoneHub.bare t).readBus?, b.Unexpired now := by
  intro b read
  cases read

theorem Mirrors.onlineAmong (mirrors : h.Mirrors t) (lasts : ∀ b ∈ h.readBus?, b.Unexpired now)
    (users : List Uuid) :
    h.site.onlineAmong now users = (h.site, t.hub.presence.hereAmong users) := by
  rw [Site.onlineAmong, mirrors.lookUp lasts]

theorem Mirrors.isOnline (mirrors : h.Mirrors t) (lasts : ∀ b ∈ h.readBus?, b.Unexpired now)
    (user : Uuid) :
    h.site.isOnline now user =
      (h.site, (t.hub.presence.hereAmong [user]).contains user) := by
  rw [Site.isOnline, Presence.isOnline, mirrors.lookUp lasts]

theorem Mirrors.carryOut (mirrors : h.Mirrors t) (user : Uuid) (id : ConnId) (o : TextOutcome) :
    (h.goOn (o.carryOut user id h.site)).Mirrors (o.carryOut user id t) := by
  have replies (e : Event) : (h.goOn (h.site.reply id e)).Mirrors (t.reply id e) := by
    obtain ⟨mode, rfl⟩ := mirrors
    have alike : h.site.hub.AlikeButCounts (h.site.reply id e).hub :=
      (Site.pushTo_delivers h.site id e.render).alike
    refine Mirrors.idle ⟨mode, rfl⟩ (Site.pushTo_bus ..) alike.subscribed alike.presence ?_
    rw [Site.reply, Site.reply, Site.pushTo_unplugged]
  cases o with
  | refused code => exact replies _
  | toRoom room e => exact mirrors.broadcast room e
  | toSender e => exact replies e
  | toUser e => exact (mirrors.sendToUser user e).1
  | nothing => exact mirrors.idle rfl rfl rfl mirrors.same

/-- A text is charged before anything else comes of it. -/
theorem Mirrors.charged (mirrors : h.Mirrors t) (now : Nat) (user : Uuid) (text : String) :
    ({ h with site := h.site.charged now user text }).Mirrors (t.charged now user text) := by
  have unmoved := h.site.charged_fixed now user text
  obtain ⟨mode, rfl⟩ := mirrors
  refine ⟨?_, (Site.charged_unplugged ..).symm⟩
  rcases mode with cutOff | ⟨b, attended⟩
  · exact .inl ⟨cutOff.reading, fun b on => cutOff.off b (unmoved.bus.symm.trans on)⟩
  · refine .inr ⟨b, unmoved.bus.trans attended.bus, attended.reading, attended.working,
      unmoved.subscribed.trans attended.listening, fun other => ?_⟩
    exact (attended.agrees other).trans (by rw [unmoved.presence])

/-! ## Runs -/

variable {ω : Type} (answer : ω → (c : Call) → ω × c.Outcome)

/-- Whatever is asked, the hub does and answers as the hub without a bus does. -/
private theorem serve_mirrors (w : ω) (mirrors : h.Mirrors t) {r : Request} (lasts : h.LastsFor r) :
    ∃ w' u g reply, (bare t).serve answer w r = (w', bare u, reply) ∧
      h.serve answer w r = (w', g, reply) ∧ g.Mirrors u := by
  have there : (bare t).site = t := rfl
  cases r with
  | register now user id =>
    obtain ⟨goes, first⟩ := mirrors.register (lasts now rfl) user id
    exact ⟨w, _, _, .registered (t.register now user id).2, by simp only [serve, there, bare_goOn],
      by simp only [serve, first], goes⟩
  | unregister user id =>
    obtain ⟨goes, left⟩ := mirrors.unregister user id
    exact ⟨w, _, _, .unregistered (t.unregister user id).2,
      by simp only [serve, there, bare_goOn], by simp only [serve, left], goes⟩
  | listen room user =>
    refine ⟨w, t.listen room user, _, .done, by simp only [serve, there, bare_goOn], rfl, ?_⟩
    exact mirrors.idle rfl rfl rfl (by rw [← mirrors.same]; rfl)
  | unlisten room user =>
    refine ⟨w, t.unlisten room user, _, .done, by simp only [serve, there, bare_goOn], rfl, ?_⟩
    exact mirrors.idle rfl rfl rfl (by rw [← mirrors.same]; rfl)
  | broadcast room e =>
    exact ⟨w, _, _, .done, by simp only [serve, bare_broadcastEach], rfl,
      mirrors.broadcastEach [(room, e)]⟩
  | announceMessage room m =>
    exact ⟨w, t.announceMessage room m, _, .done, by simp only [serve, bare_announceMessage], rfl,
      mirrors.broadcastEach (announcements room m)⟩
  | announcePresence user rooms online =>
    have goes := mirrors.broadcastEach (rooms.map fun room => (room, .presence user online))
    rw [broadcasts, List.foldl_map] at goes
    exact ⟨w, t.announcePresence user rooms online, _, .done,
      by simp only [serve, bare_announcePresence], rfl, goes⟩
  | sendToUser user e =>
    obtain ⟨goes, stats⟩ := mirrors.sendToUser user e
    exact ⟨w, _, _, .delivered (t.sendToUser user e).2, by simp only [serve, there, bare_goOn],
      by simp only [serve, stats], goes⟩
  | text now user id text =>
    -- Both hubs put the same questions, so one outcome serves for both.
    obtain ⟨w', o, comes⟩ := h.site.handleText_run answer w now user id text
    refine ⟨w', o.carryOut user id (t.charged now user text), _, .done, ?_, ?_,
      (mirrors.charged now user text).carryOut user id o⟩
    · simp only [serve, there, bare_goOn, comes t mirrors.alike]
    · simp only [serve, comes h.site rfl]
      rfl
  | isOnline now user =>
    have here := mirrors.bare.isOnline (bare_lasts t now) user
    exact ⟨w, t, _, .online ((t.hub.presence.hereAmong [user]).contains user),
      by simp only [serve, here, bare_goOn]; rfl,
      by simp only [serve, mirrors.isOnline (lasts now rfl)],
      mirrors.idle rfl rfl rfl mirrors.same⟩
  | onlineAmong now users =>
    have here := mirrors.bare.onlineAmong (bare_lasts t now) users
    exact ⟨w, t, _, .onlineOf (t.hub.presence.hereAmong users),
      by simp only [serve, here, bare_goOn]; rfl,
      by simp only [serve, mirrors.onlineAmong (lasts now rfl)],
      mirrors.idle rfl rfl rfl mirrors.same⟩
  | client id a =>
    have queues : t.queues = h.site.queues := by rw [← mirrors.same]; rfl
    refine ⟨w, { t with queues := h.site.queues.modify id a.onConnection }, _,
      .took (a.taken (h.site.queues.get? id)), by simp only [serve, there, bare_goOn, queues],
      rfl, ?_⟩
    exact mirrors.idle rfl rfl rfl (by rw [← mirrors.same]; rfl)

private theorem serveAll_mirrors {requests : List Request} {w : ω} (mirrors : h.Mirrors t)
    (lasts : h.LastsThrough answer w requests) :
    ∃ w' u g replies, (bare t).serveAll answer w requests = (w', bare u, replies) ∧
      h.serveAll answer w requests = (w', g, replies) ∧ g.Mirrors u := by
  induction requests generalizing h t w with
  | nil => exact ⟨w, t, h, [], rfl, rfl, mirrors⟩
  | cons r rest ih =>
    obtain ⟨now, later⟩ := lasts
    obtain ⟨w', u, g, reply, there, here, stays⟩ := serve_mirrors answer w mirrors now
    rw [here] at later
    obtain ⟨w'', v, k, replies, goesThere, goesHere, ends⟩ := ih stays later
    exact ⟨w'', v, k, reply :: replies, by simp only [serveAll, there, goesThere],
      by simp only [serveAll, here, goesHere], ends⟩

private theorem broadcastEach_unread (unread : h.reading = none) (events : List (Uuid × Event)) :
    (h.broadcastEach events).reading = none := by
  induction events generalizing h with
  | nil => exact unread
  | cons e rest ih => exact ih (congrArg reading (goOn_unread unread _))

/-- A relay that reads nothing starts to read by no request. -/
private theorem serve_unread (unread : h.reading = none) (w : ω) (r : Request) :
    (h.serve answer w r).2.1.reading = none := by
  cases r <;> simp only [serve, goOn_unread unread, broadcastEach_unread unread]

/-- What expires on a bus that is not read is nobody's concern. -/
private theorem lastsThrough_unread {requests : List Request} {w : ω} (unread : h.reading = none) :
    h.LastsThrough answer w requests := by
  induction requests generalizing h w with
  | nil => trivial
  | cons r rest ih =>
    refine ⟨fun now _ b read => ?_, ih (serve_unread answer unread w r)⟩
    simp [readBus?, unread] at read

/-! ## Hubs from their start -/

/-- What a lone hub may have for a bus. -/
inductive BusMode where
  | without
  /-- A bus of its own that works. -/
  | working
  /-- A bus that is switched off from the start. -/
  | off
deriving DecidableEq

def BusMode.bus : BusMode → Option MemoryBus
  | .without => none
  | .working => some .empty
  | .off => some { MemoryBus.empty with available := false }

/-- A hub that starts, and whose relay listens if it can subscribe. -/
def begin (config : Config) (start : Nat) (queues : Queues) (mode : BusMode) : LoneHub :=
  let reading := mode.bus.bind fun b => (b.subscribe relayFilter).toOption
  let hub := { Hub.start config start with subscribed := reading.isSome }
  { site := { hub, queues, bus := mode.bus }, reading }

/-- A hub that starts without a bus. -/
def startAlone (config : Config) (start : Nat) (queues : Queues) : Site MemoryBus :=
  { hub := Hub.start config start, queues, bus := none }

private theorem begin_mirrors (config : Config) (start : Nat) (queues : Queues) (mode : BusMode) :
    (begin config start queues mode).Mirrors (startAlone config start queues) := by
  have same : (begin config start queues mode).site.unplugged =
      startAlone config start queues := rfl
  refine ⟨?_, same⟩
  cases mode with
  | without => exact .inl ⟨rfl, fun b on => by cases on⟩
  | off => exact .inl ⟨rfl, fun b on => by cases on; rfl⟩
  | working =>
    refine .inr ⟨.empty, rfl, rfl, ⟨rfl, List.nodup_nil⟩, rfl, fun user => ?_⟩
    simp [MemoryBus.Shows, MemoryBus.empty, begin, Hub.start]

/-- Whatever requests are served, clients take the same texts in the same order, the same texts wait
in their queues, the same are dropped, and who asks gets the same answers, whether the hub has no
bus, a bus that works and whose set lasts, or a bus that is switched off. -/
theorem bus_modes_alike (config : Config) (start : Nat) (queues : Queues) (w : ω)
    (requests : List Request)
    (lasts : (begin config start queues .working).LastsThrough answer w requests) (mode : BusMode) :
    let without := (begin config start queues .without).serveAll answer w requests
    let within := (begin config start queues mode).serveAll answer w requests
    within.2.2 = without.2.2 ∧
      within.2.1.site.queues = without.2.1.site.queues ∧
      within.2.1.site.hub.registry.dropped = without.2.1.site.hub.registry.dropped ∧
      within.2.1.site.hub.unplugged = without.2.1.site.hub.unplugged ∧
      within.1 = without.1 := by
  have kept : (begin config start queues mode).LastsThrough answer w requests := by
    cases mode with
    | without => exact lastsThrough_unread answer rfl
    | working => exact lasts
    | off => exact lastsThrough_unread answer rfl
  have bare_begin :
      begin config start queues .without = bare (startAlone config start queues) := rfl
  obtain ⟨w', t, h, replies, there, here, mirrors⟩ :=
    serveAll_mirrors answer (begin_mirrors config start queues mode) kept
  simp only [bare_begin, there, here]
  have same : h.site.unplugged = t.unplugged := mirrors.alike.symm
  refine ⟨trivial, ?_, ?_, ?_, trivial⟩
  · exact congrArg (·.queues) same
  · exact congrArg (·.hub.registry.dropped) same
  · exact congrArg (·.hub) same

/-- Two connections whose queues hold one text each. -/
def shortQueues : Queues :=
  [(⟨0⟩, { user := ⟨7⟩, capacity := 1 }), (⟨1⟩, { user := ⟨8⟩, capacity := 1 })]

/-- A user comes and goes. The other hears of a room, and the next text finds its queue full. -/
def fullQueueRequests : List Request :=
  [.register 0 ⟨7⟩ ⟨0⟩, .register 0 ⟨8⟩ ⟨1⟩, .isOnline 1 ⟨7⟩, .unregister ⟨7⟩ ⟨0⟩,
    .onlineAmong 1 [⟨7⟩, ⟨8⟩], .listen ⟨3⟩ ⟨8⟩, .broadcast ⟨3⟩ (.typing ⟨3⟩ ⟨7⟩ true),
    .sendToUser ⟨8⟩ (.offline ⟨7⟩)]

/-- The requests served in one of the modes, by services that refuse everything. -/
def fullQueueRun (mode : BusMode) : Unit × LoneHub × List Reply :=
  (begin (.trial ⟨1⟩) 0 shortQueues mode).serveAll (fun w _ => (w, .error .unauthorized)) ()
    fullQueueRequests

theorem fullQueueRequests_alike :
    (begin (.trial ⟨1⟩) 0 shortQueues .working).LastsThrough
        (fun w _ => (w, .error .unauthorized)) () fullQueueRequests ∧
      (fullQueueRun .without).2.2 = [.registered (.ok true), .registered (.ok true), .online true,
        .unregistered (.ok []), .onlineOf [⟨8⟩], .done, .done, .delivered ⟨0, 1⟩] ∧
      (fullQueueRun .working).2.2 = (fullQueueRun .without).2.2 ∧
      (fullQueueRun .off).2.2 = (fullQueueRun .without).2.2 := by
  have lasts : (begin (.trial ⟨1⟩) 0 shortQueues .working).LastsThrough
      (fun w _ => (w, .error .unauthorized)) () fullQueueRequests := by decide +kernel
  obtain ⟨working, -⟩ :=
    bus_modes_alike _ (.trial ⟨1⟩) 0 shortQueues () fullQueueRequests lasts .working
  obtain ⟨off, -⟩ := bus_modes_alike _ (.trial ⟨1⟩) 0 shortQueues () fullQueueRequests lasts .off
  refine ⟨lasts, by decide +kernel, ?_, ?_⟩
  · unfold fullQueueRun
    exact working
  · unfold fullQueueRun
    exact off

end LoneHub

end RoomRelay
