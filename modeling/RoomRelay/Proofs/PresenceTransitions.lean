import RoomRelay.Proofs.AvailableBus
import RoomRelay.Proofs.RegistryInvariants
import RoomRelay.Proofs.WireFormats

/-!
The presence of users as their connections come and go on one hub whose bus is available. A user is
marked online when its first connection comes and offline when its last one goes, and at no other
time, whatever comes twice, goes twice or was never there. So the notices of a hub about a user
alternate, and whoever is offline listens to nothing that it listened to before.
-/

namespace RoomRelay

open BusView

/-! ## Notices -/

/-- What a message says of a user when it is a hub's notice about that user: whether it is
online. -/
def BusMessage.notice? (m : BusMessage) (hub user : Uuid) : Option Bool :=
  if m.channel = Channel.presence then
    match Json.Decode.run PresenceNotice.decode m.payload with
    | .ok n => if n.instanceId = hub ∧ n.userId = user then some n.online else none
    | .error _ => none
  else none

/-- A notice is about the one user it names. -/
private theorem Presence.notice_read (p : Presence) (user other : Uuid) (online : Bool) :
    (p.notice user online).notice? p.instanceId other = if other = user then some online else none := by
  have read := Json.Reorders.id.run
    (PresenceNotice.words_toValue ⟨user, online, p.instanceId⟩)
    (PresenceNotice.decode_document .id ⟨user, online, p.instanceId⟩)
  have decoded : Json.Decode.run PresenceNotice.decode (p.notice user online).payload =
      .ok ⟨user, online, p.instanceId⟩ := read
  have channel : (p.notice user online).channel = Channel.presence := rfl
  simp only [BusMessage.notice?, channel, if_true, decoded, true_and, eq_comm]

/-- What may happen while presence is followed: connections come and go and are used by their
clients, users listen to rooms and no longer do, presence is renewed, and the bus turns but is
available. -/
def Op.Ordinary {β : Type} [BusView β] : Op β → Prop
  | .roster _ | .client .. => True
  | .turnBus b => Up b
  | .send _ | .ending _ => False

namespace Site

variable {β : Type} {s : Site β} {op : Op β} {user other : Uuid} {id : ConnId}

/-- How many connections a user has on the hub. -/
abbrev count (s : Site β) (user : Uuid) : Nat := s.hub.registry.connectionCount user

theorem first_iff (fresh : id ∉ s.hub.registry.connectionsOf user) :
    (s.hub.registry.addConnection user id).connectionCount user = 1 ↔ s.count user = 0 := by
  rw [Registry.connectionCount_addConnection fresh, if_pos rfl]
  exact Nat.add_eq_right

theorem last_iff (sound : s.hub.registry.Sound s.owner)
    (known : id ∈ s.hub.registry.connectionsOf user) :
    (s.hub.registry.removeConnection user id).connectionCount user = 0 ↔ s.count user = 1 := by
  have some_there : 0 < s.count user := List.length_pos_of_mem known
  rw [Registry.connectionCount_removeConnection sound.usersOnce (sound.idsOnce user) known,
    if_pos rfl]
  show s.count user - 1 = 0 ↔ s.count user = 1
  omega

/-- A hub in service: it runs, is in order, and is on a bus that is available. -/
structure InService [BusView β] (s : Site β) : Prop where
  orderly : s.hub.Orderly s.owner
  running : s.hub.stopped = false
  named : s.hub.presence.instanceId = s.hub.instanceId
  available : ∃ b, s.bus = some b ∧ Up b

theorem fresh_inService [BusView β] (config : Config) (now : Nat) (queues : Queues) {b : β} (up : Up b) :
    (fresh config now queues (some b)).InService where
  orderly := Hub.Orderly.start config now _
  running := rfl
  named := rfl
  available := ⟨b, rfl, up⟩

variable [SharedBus β]

/-- The operation brings a user its first connection. -/
def ComesOnline (s : Site β) (op : Op β) (user : Uuid) : Prop :=
  s.count user = 0 ∧ (s.act op).count user = 1

/-- The operation takes a user's last connection. -/
def GoesOffline (s : Site β) (op : Op β) (user : Uuid) : Prop :=
  s.count user = 1 ∧ (s.act op).count user = 0

instance (s : Site β) (op : Op β) (user : Uuid) : Decidable (s.ComesOnline op user) :=
  inferInstanceAs (Decidable (_ ∧ _))

instance (s : Site β) (op : Op β) (user : Uuid) : Decidable (s.GoesOffline op user) :=
  inferInstanceAs (Decidable (_ ∧ _))

/-- A user that has connections before and after, or neither time, does not come or go. -/
private theorem stays_neither (stays : (s.act op).count user = 0 ↔ s.count user = 0) :
    ¬s.ComesOnline op user ∧ ¬s.GoesOffline op user := by
  constructor
  · intro comes
    exact Nat.one_ne_zero (comes.2.symm.trans (stays.mpr comes.1))
  · intro goes
    exact Nat.one_ne_zero (goes.1.symm.trans (stays.mp goes.2))

/-! ## Coming and going -/

theorem register_count (running : s.hub.stopped = false)
    (fresh : id ∉ s.hub.registry.connectionsOf user) (now : Nat) (other : Uuid) :
    (s.register now user id).1.count other = if other = user then s.count user + 1 else s.count other := by
  rw [count, register_hub running]
  exact Registry.connectionCount_addConnection fresh other

theorem register_answer (running : s.hub.stopped = false)
    (fresh : id ∉ s.hub.registry.connectionsOf user) (now : Nat) :
    (s.register now user id).2 = .ok (decide (s.count user = 0)) := by
  have first := first_iff fresh
  by_cases none : s.count user = 0
  · simp [register, running, first.mpr none, none]
  · simp [register, running, mt first.mp none, none]

theorem unregister_count (running : s.hub.stopped = false) (sound : s.hub.registry.Sound s.owner)
    (known : id ∈ s.hub.registry.connectionsOf user) (other : Uuid) :
    (s.unregister user id).1.count other =
      if other = user then s.count user - 1 else s.count other := by
  have counted := Registry.connectionCount_removeConnection sound.usersOnce
    (sound.idsOnce user) known other
  by_cases last : (s.hub.registry.removeConnection user id).connectionCount user = 0
  · rw [count, unregister_hub_last running known last]
    exact counted
  · rw [count, unregister_hub_more running known last]
    exact counted

/-- The last one that goes is told the rooms its user listened to. -/
theorem unregister_answer_last (running : s.hub.stopped = false)
    (known : id ∈ s.hub.registry.connectionsOf user)
    (last : (s.hub.registry.removeConnection user id).connectionCount user = 0) :
    (s.unregister user id).2 = .ok (s.hub.registry.roomsOf user) := by
  have rooms : (s.hub.registry.removeConnection user id).roomsOf user =
      s.hub.registry.roomsOf user := rfl
  simp [unregister, running, known, last, rooms]

/-- Any other is told of none. -/
theorem unregister_answer_other (running : s.hub.stopped = false)
    (notLast : id ∈ s.hub.registry.connectionsOf user →
      (s.hub.registry.removeConnection user id).connectionCount user ≠ 0) :
    (s.unregister user id).2 = .ok [] := by
  by_cases known : id ∈ s.hub.registry.connectionsOf user
  · simp [unregister, running, known, notLast known]
  · simp [unregister, running, known]

/-- And takes nobody out of any room. -/
theorem unregister_rooms_other (running : s.hub.stopped = false)
    (notLast : id ∈ s.hub.registry.connectionsOf user →
      (s.hub.registry.removeConnection user id).connectionCount user ≠ 0) :
    (s.unregister user id).1.hub.registry.rooms = s.hub.registry.rooms := by
  by_cases known : id ∈ s.hub.registry.connectionsOf user
  · rw [unregister_hub_more running known (notLast known)]
    rfl
  · rw [unregister_unknown running known]

/-! ## What is published -/

variable [BusView β]

/-- What the hub publishes in an operation. When the bus turns, others have used it. -/
def published (s : Site β) (op : Op β) : List BusMessage :=
  match op with
  | .turnBus _ => []
  | _ => (s.act op).heard.drop s.heard.length

/-- What the hub tells of a user in an operation, by its notices. -/
def told (s : Site β) (user : Uuid) (op : Op β) : List Bool :=
  (s.published op).filterMap (·.notice? s.hub.instanceId user)

/-- What the hub tells of a user in a run. -/
def toldIn (s : Site β) (user : Uuid) : List (Op β) → List Bool
  | [] => []
  | op :: rest => s.told user op ++ (s.act op).toldIn user rest

private theorem published_eq {b b' : β} {added : List BusMessage} (on : s.bus = some b)
    (after : (s.act op).bus = some b') (history : BusView.history b' = BusView.history b ++ added)
    (own : ∀ other, op ≠ .turnBus other) : s.published op = added := by
  unfold published
  split
  · rename_i other
    exact absurd rfl (own other)
  · simp [heard, on, after, history]

/-! ## One operation -/

/-- All that an operation can do to who is online here: one user comes online, one goes offline, or
everybody stays as they are and nobody is told anything. -/
inductive Transition (s : Site β) (op : Op β) : Prop where
  | online (now : Nat) (id : ConnId) (user : Uuid) (came : op = .roster (.register now id))
      (comes : s.ComesOnline op user) (others : ∀ other ≠ user, (s.act op).count other = s.count other)
      (presence : (s.act op).hub.presence = (s.hub.presence.markOnline s.bus now user).1)
      (bus : (s.act op).bus = (s.hub.presence.markOnline s.bus now user).2)
  | offline (id : ConnId) (user : Uuid) (went : op = .roster (.unregister id))
      (goes : s.GoesOffline op user) (others : ∀ other ≠ user, (s.act op).count other = s.count other)
      (presence : (s.act op).hub.presence = (s.hub.presence.markOffline s.bus user).1)
      (bus : (s.act op).bus = (s.hub.presence.markOffline s.bus user).2)
  | neither (stay : ∀ user, (s.act op).count user = 0 ↔ s.count user = 0)
      (presence : (s.act op).hub.presence = s.hub.presence)
      (available : ∃ b, (s.act op).bus = some b ∧ Up b)
      (silent : s.published op = [])

theorem Transition.idle (serves : s.InService)
    (stay : ∀ user, (s.act op).count user = 0 ↔ s.count user = 0)
    (presence : (s.act op).hub.presence = s.hub.presence) (bus : (s.act op).bus = s.bus) :
    s.Transition op := by
  refine .neither stay presence (bus ▸ serves.available) ?_
  unfold published
  split
  · rfl
  · simp only [heard, bus, List.drop_length]

private theorem register_transition (serves : s.InService) (now : Nat)
    (absent : id ∉ s.hub.registry.allConnections) :
    s.Transition (.roster (.register now id)) := by
  cases owned : s.owner id with
  | none =>
    have same := (act_nobody owned now).1
    exact .idle serves (fun _ => by rw [same]) (by rw [same]) (by rw [same])
  | some user =>
    have acted := act_register owned now
    have fresh : id ∉ s.hub.registry.connectionsOf user := fun present =>
      absent ((Registry.mem_allConnections serves.orderly.sound.usersOnce).mpr ⟨user, present⟩)
    have counts := register_count serves.running fresh now
    have hub := register_hub serves.running now user id
    have bus := register_bus serves.running now user id
    by_cases none : s.count user = 0
    · have first := (first_iff fresh).mpr none
      refine .online now id user rfl ⟨none, ?_⟩ ?_ ?_ ?_
      · rw [acted, counts, if_pos rfl, none]
      · intro other different
        rw [acted, counts, if_neg different]
      · rw [acted, hub, if_pos first, Presence.markOnline_presence]
      · rw [acted, bus, if_pos first]
    · have notFirst := mt (first_iff fresh).mp none
      refine .idle serves ?_ ?_ ?_
      · intro other
        rw [acted, counts]
        split
        · rename_i same
          exact iff_of_false (Nat.succ_ne_zero _) (same ▸ none)
        · rfl
      · rw [acted, hub, if_neg notFirst]
      · rw [acted, bus, if_neg notFirst]

private theorem unregister_transition (serves : s.InService) (id : ConnId) :
    s.Transition (.roster (.unregister id)) := by
  cases owned : s.owner id with
  | none =>
    have same := (act_nobody owned 0).2
    exact .idle serves (fun _ => by rw [same]) (by rw [same]) (by rw [same])
  | some user =>
    have acted := act_unregister owned
    have sound := serves.orderly.sound
    have bus := unregister_bus serves.running user id
    by_cases known : id ∈ s.hub.registry.connectionsOf user
    · have counts := unregister_count serves.running sound known
      by_cases one : s.count user = 1
      · have last := (last_iff sound known).mpr one
        have hub := unregister_hub_last serves.running known last
        refine .offline id user rfl ⟨one, ?_⟩ ?_ ?_ ?_
        · rw [acted, counts, if_pos rfl, one]
        · intro other different
          rw [acted, counts, if_neg different]
        · rw [acted, hub, Presence.markOffline_presence]
        · rw [acted, bus, if_pos ⟨known, last⟩]
      · have more := mt (last_iff sound known).mp one
        have some_there : 0 < s.count user := List.length_pos_of_mem known
        refine .idle serves ?_ ?_ ?_
        · intro other
          rw [acted, counts]
          split
          · rename_i same
            subst same
            omega
          · rfl
        · rw [acted, unregister_hub_more serves.running known more]
        · rw [acted, bus, if_neg fun both => more both.2]
    · have hub := unregister_unknown serves.running known
      refine .idle serves ?_ ?_ ?_
      · intro other
        rw [acted, count, hub]
      · rw [acted, hub]
      · rw [acted, bus, if_neg fun both => known both.1]

private theorem register_first (serves : s.InService) (owned : s.owner id = some user)
    (absent : id ∉ s.hub.registry.allConnections) (now : Nat) :
    (s.register now user id).2 =
      .ok (decide (s.ComesOnline (.roster (.register now id)) user)) := by
  have fresh : id ∉ s.hub.registry.connectionsOf user := fun present =>
    absent ((Registry.mem_allConnections serves.orderly.sound.usersOnce).mpr ⟨user, present⟩)
  have counts := register_count serves.running fresh now user
  rw [if_pos rfl] at counts
  have comes : s.ComesOnline (.roster (.register now id)) user ↔ s.count user = 0 := by
    rw [ComesOnline, act_register owned, counts]
    omega
  rw [register_answer serves.running fresh, decide_eq_decide.mpr comes]

/-- Only the last connection of a user can take it offline. -/
private theorem goesOffline_iff (serves : s.InService) (owned : s.owner id = some user) :
    s.GoesOffline (.roster (.unregister id)) user ↔
      id ∈ s.hub.registry.connectionsOf user ∧
        (s.hub.registry.removeConnection user id).connectionCount user = 0 := by
  have sound := serves.orderly.sound
  rw [GoesOffline, act_unregister owned]
  constructor
  · rintro ⟨one, none⟩
    have known : id ∈ s.hub.registry.connectionsOf user := by
      by_contra unknown
      rw [count, unregister_unknown serves.running unknown] at none
      exact Nat.one_ne_zero (one.symm.trans none)
    exact ⟨known, (last_iff sound known).mpr one⟩
  · rintro ⟨known, last⟩
    have one := (last_iff sound known).mp last
    refine ⟨one, ?_⟩
    rw [unregister_count serves.running sound known, if_pos rfl, one]

private theorem unregister_left (serves : s.InService) (owned : s.owner id = some user)
    (goes : s.GoesOffline (.roster (.unregister id)) user) :
    ∃ rooms, (s.unregister user id).2 = .ok rooms ∧ rooms.Nodup ∧
      (∀ room, room ∈ rooms ↔ user ∈ s.hub.registry.listeners room) ∧
      ∀ room, (s.unregister user id).1.hub.registry.listeners room =
        (s.hub.registry.listeners room).filter (· ≠ user) := by
  obtain ⟨known, last⟩ := (goesOffline_iff serves owned).mp goes
  have once := serves.orderly.sound.roomsOnce
  refine ⟨s.hub.registry.roomsOf user, unregister_answer_last serves.running known last,
    Registry.roomsOf_nodup once user, fun room => Registry.mem_roomsOf once, ?_⟩
  intro room
  rw [unregister_hub_last serves.running known last]
  exact Registry.listeners_leaveAll once room user

/-- Whoever comes online is marked so, and whoever goes offline. -/
theorem Transition.marks (transition : s.Transition op) (user : Uuid) :
    (s.ComesOnline op user → ∃ now, ((s.act op).hub.presence, (s.act op).bus) =
      s.hub.presence.markOnline s.bus now user) ∧
    (s.GoesOffline op user → ((s.act op).hub.presence, (s.act op).bus) =
      s.hub.presence.markOffline s.bus user) := by
  cases transition with
  | online now id subject came comes others presence bus =>
    by_cases same : user = subject
    · subst same
      refine ⟨fun _ => ⟨now, Prod.ext presence bus⟩, fun goes => ?_⟩
      exact absurd (goes.1.symm.trans comes.1) Nat.one_ne_zero
    · obtain ⟨notComes, notGoes⟩ := stays_neither (by rw [others user same])
      exact ⟨fun comes => absurd comes notComes, fun goes => absurd goes notGoes⟩
  | offline id subject went goes others presence bus =>
    by_cases same : user = subject
    · subst same
      refine ⟨fun comes => ?_, fun _ => Prod.ext presence bus⟩
      exact absurd (goes.1.symm.trans comes.1) Nat.one_ne_zero
    · obtain ⟨notComes, notGoes⟩ := stays_neither (by rw [others user same])
      exact ⟨fun comes => absurd comes notComes, fun goes => absurd goes notGoes⟩
  | neither stay presence available silent =>
    obtain ⟨notComes, notGoes⟩ := stays_neither (stay user)
    exact ⟨fun comes => absurd comes notComes, fun goes => absurd goes notGoes⟩

section Reliable

variable [ReliableBus β]

private theorem refresh_transition (serves : s.InService) (now : Nat) :
    s.Transition (.roster (.refresh now)) := by
  obtain ⟨b, on, up⟩ := serves.available
  have hub : (s.act (.roster (.refresh now))).hub = s.hub := refresh_hub s now
  have acted : s.act (.roster (.refresh now)) = s.refresh now := rfl
  by_cases nobody : s.hub.registry.connectedUsers.isEmpty = true
  · have same : s.act (.roster (.refresh now)) = s := by simp [acted, Site.refresh, nobody]
    exact .idle serves (fun _ => by rw [same]) (by rw [same]) (by rw [same])
  · have renewed := Presence.refreshOn_becomes up s.hub.presence now s.hub.registry.connectedUsers
    have bus : (s.act (.roster (.refresh now))).bus =
        some (s.hub.presence.refreshOn b now s.hub.registry.connectedUsers) := by
      simp [acted, Site.refresh, nobody, Presence.refresh, on]
    refine .neither (fun user => by rw [count, hub]) (by rw [hub]) ⟨_, bus, renewed.up⟩ ?_
    exact published_eq on bus renewed.history fun _ same => by cases same

/-- Every operation is one of the three. A registration must be that of a connection that is not
there yet. -/
private theorem act_transition (serves : s.InService) (ordinary : op.Ordinary)
    (fresh : ∀ id, op.registered? = some id → id ∉ s.hub.registry.allConnections) :
    s.Transition op := by
  cases op with
  | send x => cases ordinary
  | ending x => cases ordinary
  | client id a => exact .idle serves (fun _ => Iff.rfl) rfl rfl
  | turnBus b =>
    obtain ⟨before, on, -⟩ := serves.available
    refine .neither (fun _ => Iff.rfl) rfl ⟨b, ?_, ordinary⟩ rfl
    simp [act, on]
  | roster x =>
    cases x with
    | register now id => exact register_transition serves now (fresh id rfl)
    | unregister id => exact unregister_transition serves id
    | listen room user =>
      refine .idle serves (fun other => ?_) rfl rfl
      simp only [count, Registry.connectionCount, Registry.connectionsOf, act, changeRoster,
        Site.listen, Registry.listen_users]
    | unlisten room user => exact .idle serves (fun _ => Iff.rfl) rfl rfl
    | refresh now => exact refresh_transition serves now

/-- A mark publishes its notice, and the bus stays available. -/
private theorem online_published (serves : s.InService) {now : Nat} {id : ConnId}
    (came : op = .roster (.register now id))
    (bus : (s.act op).bus = (s.hub.presence.markOnline s.bus now user).2) :
    (∃ b, (s.act op).bus = some b ∧ Up b) ∧ s.published op = [s.hub.presence.notice user true] := by
  obtain ⟨b, on, up⟩ := serves.available
  obtain ⟨b', marks, becomes⟩ := Presence.markOnline_becomes up s.hub.presence now user
  rw [on, marks] at bus
  refine ⟨⟨b', bus, becomes.up⟩, published_eq on bus becomes.history ?_⟩
  rintro other rfl
  cases came

private theorem offline_published (serves : s.InService) {id : ConnId}
    (went : op = .roster (.unregister id))
    (bus : (s.act op).bus = (s.hub.presence.markOffline s.bus user).2) :
    (∃ b, (s.act op).bus = some b ∧ Up b) ∧
      s.published op = [s.hub.presence.notice user false] := by
  obtain ⟨b, on, up⟩ := serves.available
  obtain ⟨b', marks, becomes⟩ := Presence.markOffline_becomes up s.hub.presence user
  rw [on, marks] at bus
  refine ⟨⟨b', bus, becomes.up⟩, published_eq on bus becomes.history ?_⟩
  rintro other rfl
  cases went

/-- What an operation tells of a user: that it came online, that it went offline, or nothing, and
each when it is so. -/
private theorem act_told (serves : s.InService) (transition : s.Transition op) (user : Uuid) :
    (s.ComesOnline op user ∧ s.told user op = [true]) ∨
      (s.GoesOffline op user ∧ s.told user op = [false]) ∨
      (((s.act op).count user = 0 ↔ s.count user = 0) ∧ s.told user op = []) := by
  have read (subject : Uuid) (online : Bool) :=
    Presence.notice_read s.hub.presence subject user online
  rw [serves.named] at read
  cases transition with
  | online now id subject came comes others presence bus =>
    obtain ⟨-, published⟩ := online_published serves came bus
    by_cases about : user = subject
    · subst about
      exact .inl ⟨comes, by simp [told, published, read]⟩
    · refine .inr (.inr ⟨by rw [others user about], ?_⟩)
      simp [told, published, read, about]
  | offline id subject went goes others presence bus =>
    obtain ⟨-, published⟩ := offline_published serves went bus
    by_cases about : user = subject
    · subst about
      exact .inr (.inl ⟨goes, by simp [told, published, read]⟩)
    · refine .inr (.inr ⟨by rw [others user about], ?_⟩)
      simp [told, published, read, about]
  | neither stay presence available silent =>
    exact .inr (.inr ⟨stay user, by simp [told, silent]⟩)

/-- One operation keeps a hub in service. -/
theorem act_inService (serves : s.InService) (ordinary : op.Ordinary)
    (fresh : ∀ id, op.registered? = some id → id ∉ s.hub.registry.allConnections) :
    (s.act op).InService := by
  have goesOn : ∀ x, op ≠ .ending x := by
    rintro x rfl
    cases ordinary
  have running : (s.act op).hub.stopped = false :=
    (act_flags serves.orderly.sound op goesOn).2.trans serves.running
  have named : (s.act op).hub.instanceId = s.hub.presence.instanceId := by
    rw [Hub.instanceId, act_config serves.orderly.sound op, serves.named]
    rfl
  have orderly := act_orderly serves.orderly op fresh
  cases act_transition serves ordinary fresh with
  | online now id user came comes others presence bus =>
    refine ⟨orderly, running, ?_, (online_published serves came bus).1⟩
    rw [named, presence, Presence.markOnline_presence, Presence.insert_instanceId]
  | offline id user went goes others presence bus =>
    refine ⟨orderly, running, ?_, (offline_published serves went bus).1⟩
    rw [named, presence, Presence.markOffline_presence, Presence.remove_instanceId]
  | neither stay presence available silent =>
    exact ⟨orderly, running, by rw [named, presence], available⟩

/-! ## Runs -/

variable {ops earlier later : List (Op β)}

/-- In a run every operation meets a hub in service. -/
private theorem run_inService (serves : s.InService) (ordinary : ∀ op ∈ ops, op.Ordinary)
    (registrable : s.Registrable ops) : (s.run ops).InService := by
  induction ops generalizing s with
  | nil => exact serves
  | cons op rest ih =>
    have next := act_inService serves (ordinary op List.mem_cons_self) registrable.head
    exact ih next (fun later member => ordinary later (List.mem_cons_of_mem op member))
      (registrable.tail serves.orderly)

/-- What is told of a user in a run alternates. The first that is told is what the user was not when
the run began. -/
private theorem run_told (serves : s.InService) (ordinary : ∀ op ∈ ops, op.Ordinary)
    (registrable : s.Registrable ops) (user : Uuid) :
    (decide (s.count user ≠ 0) :: s.toldIn user ops).IsChain (· ≠ ·) := by
  induction ops generalizing s with
  | nil => exact .singleton _
  | cons op rest ih =>
    have first := ordinary op List.mem_cons_self
    have next := act_inService serves first registrable.head
    have later := ih next (fun later member => ordinary later (List.mem_cons_of_mem op member))
      (registrable.tail serves.orderly)
    rw [toldIn]
    rcases act_told serves (act_transition serves first registrable.head) user with
      ⟨⟨none, one⟩, told⟩ | ⟨⟨one, none⟩, told⟩ | ⟨stays, told⟩
    · rw [told, none]
      rw [one] at later
      exact .cons_cons (by decide) later
    · rw [told, one]
      rw [none] at later
      exact .cons_cons (by decide) later
    · rw [told, List.nil_append, decide_eq_decide.mpr (not_congr stays.symm)]
      exact later

/-- Each operation of a run is done on a hub in service, and registers what is not there. -/
private theorem inService_before (serves : s.InService) (ordinary : ∀ op ∈ ops, op.Ordinary)
    (registrable : s.Registrable ops) (split : ops = earlier ++ op :: later) :
    (s.run earlier).InService ∧ op.Ordinary ∧
      ∀ id, op.registered? = some id → id ∉ (s.run earlier).hub.registry.allConnections := by
  subst split
  refine ⟨?_, ordinary op (by simp), (registrable.drop serves.orderly).head⟩
  exact run_inService serves (fun other member => ordinary other (List.mem_append_left _ member))
    registrable.take

private theorem told_eq (serves : s.InService) (transition : s.Transition op) (user : Uuid) :
    s.told user op =
      if s.ComesOnline op user then [true] else if s.GoesOffline op user then [false] else [] := by
  rcases act_told serves transition user with ⟨comes, told⟩ | ⟨goes, told⟩ | ⟨stays, told⟩
  · rw [told, if_pos comes]
  · have notComes : ¬s.ComesOnline op user := fun comes =>
      Nat.one_ne_zero (goes.1.symm.trans comes.1)
    rw [told, if_neg notComes, if_pos goes]
  · obtain ⟨notComes, notGoes⟩ := stays_neither stays
    rw [told, if_neg notComes, if_neg notGoes]

end Reliable

/-- Who comes online, who goes offline and what is told of it, and what becomes of the rooms of
those who go, in a run from `start`. -/
structure TracksPresence (start : Site β) (ops : List (Op β)) : Prop where
  /-- Registering answers whether it brings the user its first connection. -/
  first : ∀ earlier later now id user, ops = earlier ++ .roster (.register now id) :: later →
    (start.run earlier).owner id = some user →
    ((start.run earlier).register now user id).2 =
      .ok (decide ((start.run earlier).ComesOnline (.roster (.register now id)) user))
  /-- Whoever comes online is marked so. -/
  online : ∀ earlier op later user, ops = earlier ++ op :: later →
    (start.run earlier).ComesOnline op user →
    ∃ now, (((start.run earlier).act op).hub.presence, ((start.run earlier).act op).bus) =
      (start.run earlier).hub.presence.markOnline (start.run earlier).bus now user
  /-- Whoever goes offline is marked so. -/
  offline : ∀ earlier op later user, ops = earlier ++ op :: later →
    (start.run earlier).GoesOffline op user →
    (((start.run earlier).act op).hub.presence, ((start.run earlier).act op).bus) =
      (start.run earlier).hub.presence.markOffline (start.run earlier).bus user
  /-- Nothing else is told of anybody than that. -/
  told : ∀ earlier op later user, ops = earlier ++ op :: later →
    (start.run earlier).told user op =
      if (start.run earlier).ComesOnline op user then [true]
      else if (start.run earlier).GoesOffline op user then [false]
      else []
  /-- Of each user it is told in turn that it is online and offline, beginning with online. -/
  alternate : ∀ user, (false :: start.toldIn user ops).IsChain (· ≠ ·)
  /-- Unregistering the last connection answers each room the user listened to, once, and the user
  listens to none any more. For others nothing changes. -/
  left : ∀ earlier later id user, ops = earlier ++ .roster (.unregister id) :: later →
    (start.run earlier).owner id = some user →
    (start.run earlier).GoesOffline (.roster (.unregister id)) user →
    ∃ rooms, ((start.run earlier).unregister user id).2 = .ok rooms ∧ rooms.Nodup ∧
      (∀ room, room ∈ rooms ↔ user ∈ (start.run earlier).hub.registry.listeners room) ∧
      ∀ room, ((start.run earlier).unregister user id).1.hub.registry.listeners room =
        ((start.run earlier).hub.registry.listeners room).filter (· ≠ user)
  /-- Any other unregistering answers no room, and nobody listens to anything else than before. -/
  kept : ∀ earlier later id user, ops = earlier ++ .roster (.unregister id) :: later →
    (start.run earlier).owner id = some user →
    ¬(start.run earlier).GoesOffline (.roster (.unregister id)) user →
    ((start.run earlier).unregister user id).2 = .ok [] ∧
      ((start.run earlier).unregister user id).1.hub.registry.rooms =
        (start.run earlier).hub.registry.rooms

/-- Presence follows the connections on a hub whose bus is available, in every run in which each
connection is registered at most once. -/
theorem presence_follows_connections [ReliableBus β] (config : Config) (now : Nat) (queues : Queues) (b : β)
    (up : Up b) (ops : List (Op β)) (ordinary : ∀ op ∈ ops, op.Ordinary)
    (once : (registrations ops).Nodup) :
    (fresh config now queues (some b)).TracksPresence ops := by
  let start := fresh config now queues (some b)
  have serves : start.InService := fresh_inService config now queues up
  have registrable : start.Registrable ops := ⟨once, fun _ _ present => by cases present⟩
  refine ⟨?_, ?_, ?_, ?_, ?_, ?_, ?_⟩
  · intro earlier later now id user split owned
    obtain ⟨servesThen, -, absent⟩ := inService_before serves ordinary registrable split
    exact register_first servesThen owned (absent id rfl) now
  · intro earlier op later user split
    obtain ⟨servesThen, first, absent⟩ := inService_before serves ordinary registrable split
    exact ((act_transition servesThen first absent).marks user).1
  · intro earlier op later user split
    obtain ⟨servesThen, first, absent⟩ := inService_before serves ordinary registrable split
    exact ((act_transition servesThen first absent).marks user).2
  · intro earlier op later user split
    obtain ⟨servesThen, first, absent⟩ := inService_before serves ordinary registrable split
    exact told_eq servesThen (act_transition servesThen first absent) user
  · intro user
    exact run_told serves ordinary registrable user
  · intro earlier later id user split owned goes
    obtain ⟨servesThen, -, -⟩ := inService_before serves ordinary registrable split
    exact unregister_left servesThen owned goes
  · intro earlier later id user split owned stays
    obtain ⟨servesThen, -, -⟩ := inService_before serves ordinary registrable split
    have notLast : id ∈ (start.run earlier).hub.registry.connectionsOf user →
        ((start.run earlier).hub.registry.removeConnection user id).connectionCount user ≠ 0 :=
      fun known last => stays ((goesOffline_iff servesThen owned).mpr ⟨known, last⟩)
    exact ⟨unregister_answer_other servesThen.running notLast,
      unregister_rooms_other servesThen.running notLast⟩

/-- A user comes with two devices and listens to a room; a connection that never came goes, and the
first device goes twice. -/
def twoDevices : List (Op MemoryBus) :=
  [.roster (.register 0 ⟨0⟩), .roster (.listen ⟨5⟩ ⟨7⟩), .roster (.register 0 ⟨1⟩),
    .roster (.unregister ⟨2⟩), .roster (.unregister ⟨0⟩), .roster (.unregister ⟨0⟩)]

/-- The connections of `twoDevices`. -/
def twoDevicesQueues : Queues :=
  [(⟨0⟩, { user := ⟨7⟩, capacity := 1 }), (⟨1⟩, { user := ⟨7⟩, capacity := 1 }),
    (⟨2⟩, { user := ⟨7⟩, capacity := 1 })]

/-- The hub of `twoDevices` before it. -/
def twoDevicesStart : Site MemoryBus := fresh (.trial ⟨1⟩) 0 twoDevicesQueues (some .empty)

/-- The user stays online until the second device goes too, which then leaves the room. -/
theorem twoDevices_tracked :
    (∀ op ∈ twoDevices ++ [.roster (.unregister ⟨1⟩)], op.Ordinary) ∧
      (registrations (twoDevices ++ [.roster (.unregister ⟨1⟩)])).Nodup ∧
      (twoDevicesStart.run twoDevices).told ⟨7⟩ (.roster (.unregister ⟨1⟩)) = [false] ∧
      ∃ rooms, ((twoDevicesStart.run twoDevices).unregister ⟨7⟩ ⟨1⟩).2 = .ok rooms ∧
        rooms.Nodup ∧ ⟨5⟩ ∈ rooms := by
  have ordinary : ∀ op ∈ twoDevices ++ [.roster (.unregister ⟨1⟩)], op.Ordinary := by
    simp [twoDevices, Op.Ordinary]
  have once : (registrations (twoDevices ++ [.roster (.unregister ⟨1⟩)])).Nodup := by decide
  have up : Up MemoryBus.empty := ⟨rfl, List.nodup_nil⟩
  have tracked : twoDevicesStart.TracksPresence (twoDevices ++ [.roster (.unregister ⟨1⟩)]) :=
    presence_follows_connections (.trial ⟨1⟩) 0 twoDevicesQueues MemoryBus.empty up _ ordinary once
  have goes : (twoDevicesStart.run twoDevices).GoesOffline (.roster (.unregister ⟨1⟩)) ⟨7⟩ := by
    decide
  have listened : ⟨7⟩ ∈ (twoDevicesStart.run twoDevices).hub.registry.listeners ⟨5⟩ := by decide
  refine ⟨ordinary, once, ?_, ?_⟩
  · rw [tracked.told twoDevices _ [] ⟨7⟩ rfl, if_neg fun comes => ?_, if_pos goes]
    exact absurd (goes.1.symm.trans comes.1) Nat.one_ne_zero
  · obtain ⟨rooms, answered, nodup, all, -⟩ := tracked.left twoDevices [] ⟨1⟩ ⟨7⟩ rfl (by decide) goes
    exact ⟨rooms, answered, nodup, (all ⟨5⟩).mpr listened⟩

end Site

end RoomRelay
