import RoomRelay.Fleet.Clock
import RoomRelay.Proofs.AvailableBus
import RoomRelay.Proofs.RegistryInvariants

/-!
The end of a hub. Its relay stops, its connections are closed, their readers have time to leave, and
whoever is still there at last is removed. Whichever of them leave in time, and whatever else happens
meanwhile, nothing is left of those the hub had: a user goes from the rooms and from the shared set
with its last connection, whether that leaves or is removed.
-/

namespace RoomRelay

open BusView

namespace Site

variable {β : Type} {s : Site β} {held : Uuid → Prop} {user : Uuid} {id : ConnId} {op : Op β}
  {ops stopping draining : List (Op β)}

/-- The end of a hub as one run. -/
def endingRun (stopping draining : List (Op β)) : List (Op β) :=
  .ending .stopRelay :: stopping ++ .ending .closeAll :: draining ++ [.ending .evictAll]

private theorem registrations_endingRun (stopping draining : List (Op β)) :
    registrations (endingRun stopping draining) = registrations (stopping ++ draining) := by
  have quiet (x : Ending) : (Op.ending x : Op β).registered? = none := rfl
  simp [registrations, endingRun, quiet]

/-- Nobody is connected, the relay does not listen, and nobody comes any more. -/
structure Ended (s : Site β) : Prop where
  sound : s.hub.registry.Sound s.owner
  stopped : s.hub.stopped = true
  deaf : s.hub.subscribed = false
  empty : s.hub.registry.users = []

theorem Ended.stopRelay (ended : s.Ended) : s.stopRelay = s := by
  have deaf := ended.deaf
  obtain ⟨hub, queues, bus⟩ := s
  obtain ⟨config, registry, presence, subscribed, message, sync, read, meters, stopped⟩ := hub
  subst deaf
  rfl

theorem Ended.closeAll (ended : s.Ended) : s.closeAll = (s, 0) := by
  simp [Site.closeAll, Registry.allConnections, ended.empty, closeQueues]

/-- Between `s` on the bus `b` and `s'` on `b'`, a user that has no connection at `s'` is not seen
where it was not before, and nowhere if it had connections at `s`. -/
structure Fades [BusView β] (s s' : Site β) (b b' : β) (user : Uuid) : Prop where
  shown : Shows b' user → Shows b user ∧ s.connectionsOf user = []
  listening : ∀ room, user ∈ s'.hub.registry.listeners room →
    user ∈ s.hub.registry.listeners room ∧ s.connectionsOf user = []

/-- A user whose connections stay as they are. -/
theorem Fades.still [BusView β] {s s' : Site β} {b b' : β}
    (gone : s'.connectionsOf user = []) (connections : s'.connectionsOf user = s.connectionsOf user)
    (shown : Shows b' user → Shows b user)
    (listening : ∀ room, user ∈ s'.hub.registry.listeners room →
      user ∈ s.hub.registry.listeners room) : s.Fades s' b b' user where
  shown := fun shows => ⟨shown shows, connections.symm.trans gone⟩
  listening := fun room listens => ⟨listening room listens, connections.symm.trans gone⟩

variable [SharedBus β]

/-- The end of a hub, in the order of its own `shutdown`. Other operations come between its steps:
until its relay has stopped, and from when its connections are closed until it waits for their
readers no longer. -/
def shutdown (s : Site β) (stopping draining : List (Op β)) : Site β :=
  ((s.stopRelay.run stopping).closeAll.1.run draining).evictAll

private theorem shutdown_eq_run (s : Site β) (stopping draining : List (Op β)) :
    s.shutdown stopping draining = s.run (endingRun stopping draining) := by
  simp only [shutdown, endingRun, List.cons_append, List.append_assoc, run, List.foldl_cons,
    List.foldl_append, List.foldl_nil]
  rfl

/-! ## A hub that has ended -/

private theorem roster_users (stopped : s.hub.stopped = true) (x : RosterChange) :
    (s.act (.roster x)).hub.registry.users = s.hub.registry.users := by
  cases x with
  | register now id =>
    cases owned : s.owner id with
    | none => rw [(act_nobody owned now).1]
    | some user => rw [act_register owned, register_stopped stopped]
  | unregister id =>
    cases owned : s.owner id with
    | none => rw [(act_nobody owned 0).2]
    | some user => rw [act_unregister owned, unregister_stopped stopped]
  | listen room user => exact Registry.listen_users ..
  | unlisten room user => rfl
  | refresh now => rw [act, changeRoster, refresh_hub]

/-- Nothing that happens brings it back. -/
private theorem act_ended (ended : s.Ended) (op : Op β) : (s.act op).Ended := by
  have sound := act_sound ended.sound op
  cases op with
  | send x =>
    have alike := (send_delivers ended.sound x).alike
    exact ⟨sound, alike.stopped.trans ended.stopped, alike.subscribed.trans ended.deaf,
      alike.users.trans ended.empty⟩
  | roster x =>
    have fixed := changeRoster_fixed s x
    exact ⟨sound, fixed.stopped.trans ended.stopped, fixed.subscribed.trans ended.deaf,
      (roster_users ended.stopped x).trans ended.empty⟩
  | client id a => exact ⟨sound, ended.stopped, ended.deaf, ended.empty⟩
  | turnBus b => exact ⟨sound, ended.stopped, ended.deaf, ended.empty⟩
  | ending x =>
    cases x with
    | stopRelay => exact ⟨sound, ended.stopped, rfl, ended.empty⟩
    | closeAll => exact ⟨sound, ended.stopped, ended.deaf, ended.empty⟩
    | evictAll =>
      have hub : (s.act (.ending .evictAll)).hub = _ := evictAll_hub s
      refine ⟨sound, ?_, ?_, ?_⟩
      · rw [hub]
      · rw [hub]
        exact (Hub.evicted_subscribed ..).trans ended.deaf
      · rw [hub]
        exact Hub.evicted_users ..

private theorem run_ended (ended : s.Ended) (ops : List (Op β)) : (s.run ops).Ended := by
  induction ops generalizing s with
  | nil => exact ended
  | cons op rest ih => exact ih (act_ended ended op)

namespace Ended

theorem evictAll (ended : s.Ended) : s.evictAll = s := by
  have stopped := ended.stopped
  have empty := ended.empty
  obtain ⟨hub, queues, bus⟩ := s
  obtain ⟨config, registry, presence, subscribed, message, sync, read, meters, stopped'⟩ := hub
  obtain ⟨users, rooms, dropped⟩ := registry
  subst stopped empty
  rfl

/-- Ending it again does nothing to what else happens. -/
theorem shutdown (ended : s.Ended) (stopping draining : List (Op β)) :
    s.shutdown stopping draining = s.run (stopping ++ draining) := by
  have later := run_ended ended stopping
  rw [Site.shutdown, ended.stopRelay, later.closeAll, (run_ended later draining).evictAll,
    run_append]

end Ended

/-- A relay that does not listen does not begin to. -/
private theorem run_deaf (sound : s.hub.registry.Sound s.owner) (deaf : s.hub.subscribed = false) :
    (s.run ops).hub.subscribed = false := by
  induction ops generalizing s with
  | nil => exact deaf
  | cons op rest ih =>
    refine ih (act_sound sound op) ?_
    by_cases ends : ∃ x, op = .ending x
    · obtain ⟨x, rfl⟩ := ends
      cases x with
      | stopRelay => rfl
      | closeAll => exact deaf
      | evictAll =>
        have hub : (s.act (.ending .evictAll)).hub = _ := evictAll_hub s
        rw [hub]
        exact (Hub.evicted_subscribed ..).trans deaf
    · exact (act_flags sound op fun x same => ends ⟨x, same⟩).1.trans deaf

/-- Eviction leaves a hub on its bus, or without one. -/
private theorem evictAll_wired (s : Site β) : s.evictAll.bus.isSome = s.bus.isSome := by
  have marked (p : Presence) (bus : Option β) (user : Uuid) :
      (p.markOffline bus user).2.isSome = bus.isSome := by
    unfold Presence.markOffline
    cases bus with
    | none => rfl
    | some b => dsimp only; split <;> rfl
  have evicted (leftover : List (Uuid × List ConnId)) (s : Site β) :
      (leftover.foldl (fun s e => s.evictUser e.1 e.2) s).bus.isSome = s.bus.isSome := by
    induction leftover generalizing s with
    | nil => rfl
    | cons entry rest ih => exact (ih _).trans (marked ..)
  exact evicted s.hub.registry.users _

/-- A hub whose end has come has ended. -/
private theorem shutdown_ended (sound : s.hub.registry.Sound s.owner)
    (stopping draining : List (Op β)) :
    (s.shutdown stopping draining).Ended := by
  have after := run_sound sound (endingRun stopping draining)
  rw [← shutdown_eq_run] at after
  let drained := s.stopRelay.run (stopping ++ .ending .closeAll :: draining)
  have evicts : s.shutdown stopping draining = drained.evictAll := by
    simp only [drained, run_append]
    rfl
  have deaf : drained.hub.subscribed = false := run_deaf (s := s.stopRelay) sound rfl
  have hub := evictAll_hub drained
  rw [← evicts] at hub
  refine ⟨after, ?_, ?_, ?_⟩
  · rw [hub]
  · rw [hub]
    exact (Hub.evicted_subscribed ..).trans deaf
  · rw [hub]
    exact Hub.evicted_users ..

/-! ## Who is still seen -/

variable [BusView β]

/-- An operation leaves the bus available, and whoever is without a connection after it is seen no
more than before. -/
def LetsFade (s : Site β) (b : β) (op : Op β) : Prop :=
  ∃ b', (s.act op).bus = some b' ∧ Up b' ∧
    ∀ user, (s.act op).connectionsOf user = [] → s.Fades (s.act op) b b' user

variable {b : β}

theorem LetsFade.same (on : s.bus = some b) (up : Up b) (same : s.act op = s) : s.LetsFade b op := by
  refine ⟨b, by rw [same, on], up, ?_⟩
  intro user gone
  rw [same] at gone ⊢
  exact .still gone rfl id fun _ => id

/-- What may happen on a hub besides while it ends: the bus stays available; and of the users in
question, others show none online that has no connection here, and none is made to listen to a room
then. -/
def Spares (s : Site β) (held : Uuid → Prop) : Op β → Prop
  | .turnBus b => Up b ∧ ∀ user, held user → s.connectionsOf user = [] → ¬Shows b user
  | .roster (.listen _ user) => held user → s.connectionsOf user ≠ []
  | _ => True

/-- So it is throughout a run. -/
def SparesThrough (s : Site β) (held : Uuid → Prop) : List (Op β) → Prop
  | [] => True
  | op :: rest => s.Spares held op ∧ (s.act op).SparesThrough held rest

/-- So it is when others do nothing on the bus and nobody is made to listen, whoever leaves in
time. -/
theorem sparesThrough_of_undisturbed
    (undisturbed : ∀ op ∈ ops, (∀ b, op ≠ .turnBus b) ∧ ∀ room user, op ≠ .roster (.listen room user)) :
    s.SparesThrough held ops := by
  induction ops generalizing s with
  | nil => trivial
  | cons op rest ih =>
    obtain ⟨noTurn, noListen⟩ := undisturbed op List.mem_cons_self
    refine ⟨?_, ih fun later member => undisturbed later (List.mem_cons_of_mem op member)⟩
    unfold Spares
    split
    · exact absurd rfl (noTurn _)
    · exact absurd rfl (noListen _ _)
    · trivial

/-- Of the users in question, whoever has no connection is not seen: neither in the set of users
online nor among the listeners of a room. -/
structure Forgets (s : Site β) (held : Uuid → Prop) : Prop where
  sound : s.hub.registry.Sound s.owner
  offline : ∃ b, s.bus = some b ∧ Up b ∧
    ∀ user, held user → s.connectionsOf user = [] → ¬Shows b user
  rooms : ∀ user, held user → s.connectionsOf user = [] →
    ∀ room, user ∉ s.hub.registry.listeners room

section Reliable

variable [ReliableBus β]

/-- What is sent puts nobody into the set of users online. -/
private theorem send_becomes (on : s.bus = some b) (up : Up b) (x : Sending) :
    ∃ b' published, (s.send x).bus = some b' ∧ Becomes b b' published (Shows b) := by
  have onsite {s' : Site β} (bus : s'.bus = s.bus) :
      ∃ b' published, s'.bus = some b' ∧ Becomes b b' published (Shows b) :=
    ⟨b, [], bus.trans on, .refl up⟩
  cases x with
  | localBroadcast room payload => exact onsite (pushAll_bus ..)
  | deliverToUser user payload => exact onsite (pushAll_bus ..)
  | sendTo id payload => exact onsite (pushTo_bus ..)
  | receive m => exact onsite (receive_bus ..)
  | broadcast room e =>
    obtain ⟨b', publishes, becomes⟩ := ReliableBus.publish up (roomMessage room e.render)
    refine ⟨b', _, ?_, becomes⟩
    rw [send, broadcast_bus, on, Option.map_some, publishes]
  | sendToUser user e =>
    obtain ⟨b', publishes, becomes⟩ := ReliableBus.publish up ⟨Channel.userEvents,
      (UserEnvelope.ofEvent s.hub.instanceId user e).toValue.render⟩
    refine ⟨b', _, ?_, becomes⟩
    rw [send, sendToUser_bus, on, Option.map_some, publishes]

private theorem register_fades (on : s.bus = some b) (up : Up b)
    (now : Nat) (id : ConnId) : s.LetsFade b (.roster (.register now id)) := by
  cases owned : s.owner id with
  | none => exact .same on up (act_nobody owned now).1
  | some user =>
    have acted := act_register owned now
    by_cases stopped : s.hub.stopped = true
    · exact .same on up (by rw [acted, register_stopped stopped])
    have running := Bool.eq_false_iff.mpr stopped
    have connections := Registry.connectionsOf_addConnection s.hub.registry user
    have hub := register_hub running now user id
    have rooms : (s.act (.roster (.register now id))).hub.registry.rooms = s.hub.registry.rooms := by
      rw [acted, hub]
      exact Registry.addConnection_rooms ..
    have bus : ∃ b', (s.act (.roster (.register now id))).bus = some b' ∧ Up b' ∧
        ∀ other, Shows b' other → other = user ∨ Shows b other := by
      rw [acted, register_bus running]
      split
      · obtain ⟨b', marks, becomes⟩ := Presence.markOnline_becomes up s.hub.presence now user
        exact ⟨b', on ▸ marks, becomes.up, becomes.shown⟩
      · exact ⟨b, on, up, fun _ => .inr⟩
    obtain ⟨b', after, upAfter, shown⟩ := bus
    refine ⟨b', after, upAfter, ?_⟩
    intro other gone
    -- the one that comes has a connection now, so it is another that has none
    have here : id ∈ (s.act (.roster (.register now id))).connectionsOf user := by
      rw [acted]
      exact (mem_register s now user user id id).mpr (.inr ⟨running, rfl, rfl⟩)
    have different : other ≠ user := by
      rintro rfl
      rw [gone] at here
      cases here
    refine .still gone ?_ ?_ ?_
    · rw [connectionsOf, acted, hub]
      exact (connections other id).trans (if_neg fun both => different both.1)
    · intro shows
      exact (shown other shows).resolve_left different
    · intro room listens
      rwa [Registry.listeners, rooms] at listens

private theorem unregister_fades (sound : s.hub.registry.Sound s.owner) (on : s.bus = some b)
    (up : Up b)
    (id : ConnId) : s.LetsFade b (.roster (.unregister id)) := by
  cases owned : s.owner id with
  | none => exact .same on up (act_nobody owned 0).2
  | some user =>
    have acted := act_unregister owned
    by_cases stopped : s.hub.stopped = true
    · exact .same on up (by rw [acted, unregister_stopped stopped])
    have running := Bool.eq_false_iff.mpr stopped
    have bus := unregister_bus running user id
    have removed := fun other =>
      Registry.connectionsOf_removeConnection sound.usersOnce user other id
    by_cases known : id ∈ s.hub.registry.connectionsOf user
    · by_cases last : (s.hub.registry.removeConnection user id).connectionCount user = 0
      · -- the user goes with its last connection; nobody else is touched
        have hub := unregister_hub_last running known last
        obtain ⟨b', marks, becomes⟩ := Presence.markOffline_becomes up s.hub.presence user
        refine ⟨b', ?_, becomes.up, ?_⟩
        · rw [acted, bus, if_pos ⟨known, last⟩, on, marks]
        intro other gone
        have listeners (room : Uuid) :
            (s.act (.roster (.unregister id))).hub.registry.listeners room =
              (s.hub.registry.listeners room).filter (· ≠ user) := by
          rw [acted, hub]
          exact Registry.listeners_leaveAll sound.roomsOnce room user
        by_cases same : other = user
        · subst same
          refine ⟨fun shows => absurd rfl (becomes.shown other shows).1, ?_⟩
          intro room listens
          rw [listeners] at listens
          simp at listens
        · refine .still gone ?_ (fun shows => (becomes.shown other shows).2) ?_
          · rw [connectionsOf, acted, hub]
            exact (removed other).trans (if_neg same)
          · intro room listens
            rw [listeners] at listens
            exact List.mem_of_mem_filter listens
      · have hub := unregister_hub_more running known last
        refine ⟨b, ?_, up, ?_⟩
        · rw [acted, bus, if_neg fun both => last both.2, on]
        intro other gone
        rw [connectionsOf, acted, hub] at gone
        have different : other ≠ user := by
          rintro rfl
          exact last (List.length_eq_zero_iff.mpr gone)
        refine .still (by rw [connectionsOf, acted, hub]; exact gone) ?_ (fun shows => shows) ?_
        · rw [connectionsOf, acted, hub]
          exact (removed other).trans (if_neg different)
        · intro room listens
          rw [acted, hub] at listens
          exact listens
    · have hub := unregister_unknown running known
      refine ⟨b, ?_, up, ?_⟩
      · rw [acted, bus, if_neg fun both => known both.1, on]
      intro other gone
      refine .still gone ?_ (fun shows => shows) ?_
      · rw [connectionsOf, acted, hub]
      · intro room listens
        rw [acted, hub] at listens
        exact listens

private theorem refresh_fades (sound : s.hub.registry.Sound s.owner) (on : s.bus = some b)
    (up : Up b)
    (now : Nat) : s.LetsFade b (.roster (.refresh now)) := by
  have hub : (s.act (.roster (.refresh now))).hub = s.hub := refresh_hub s now
  have acted : s.act (.roster (.refresh now)) = s.refresh now := rfl
  by_cases nobody : s.hub.registry.connectedUsers.isEmpty = true
  · exact .same on up (by simp [acted, Site.refresh, nobody])
  · have renewed := Presence.refreshOn_becomes up s.hub.presence now s.hub.registry.connectedUsers
    refine ⟨s.hub.presence.refreshOn b now s.hub.registry.connectedUsers, ?_, renewed.up, ?_⟩
    · simp [acted, Site.refresh, nobody, Presence.refresh, on]
    intro user gone
    have disconnected : s.connectionsOf user = [] := by rw [← gone, connectionsOf, connectionsOf, hub]
    refine .still gone (by rw [connectionsOf, connectionsOf, hub]) ?_ (by rw [hub]; exact fun _ => id)
    intro shows
    rcases renewed.shown user shows with connected | before
    · exact absurd disconnected (sound.mem_connectedUsers.mp connected)
    · exact before

/-- Evicting users one after another takes each off the set. -/
private theorem evictFold_becomes (on : s.bus = some b) (up : Up b)
    (leftover : Table Uuid (List ConnId)) :
    ∃ b' published, (leftover.foldl (fun s e => s.evictUser e.1 e.2) s).bus = some b' ∧
      Becomes b b' published fun user => user ∉ leftover.keys ∧ Shows b user := by
  induction leftover generalizing s b with
  | nil => exact ⟨b, [], on, (Becomes.refl up).mono fun user shows => ⟨by simp, shows⟩⟩
  | cons entry rest ih =>
    obtain ⟨b', marks, becomes⟩ := Presence.markOffline_becomes up s.hub.presence entry.1
    have evicted : (s.evictUser entry.1 entry.2).bus = some b' := by
      rw [← on] at marks
      exact marks
    obtain ⟨b'', published, after, becomesAfter⟩ := ih evicted becomes.up
    refine ⟨b'', [s.hub.presence.notice entry.1 false] ++ published, after, becomesAfter.up, ?_, ?_⟩
    · rw [becomesAfter.history, becomes.history, List.append_assoc]
    · intro user shows
      obtain ⟨notLater, still⟩ := becomesAfter.shown user shows
      obtain ⟨different, before⟩ := becomes.shown user still
      exact ⟨by simp [different, notLater], before⟩

private theorem evictAll_fades (sound : s.hub.registry.Sound s.owner) (on : s.bus = some b)
    (up : Up b) :
    s.LetsFade b (.ending .evictAll) := by
  have hub : (s.act (.ending .evictAll)).hub = _ := evictAll_hub s
  obtain ⟨b', published, after, becomes⟩ :=
    evictFold_becomes (s := { s with hub := { s.hub with
      registry := { s.hub.registry with users := [] } } }) on up s.hub.registry.users
  have disconnected {user : Uuid} (evicted : user ∉ s.hub.registry.users.keys) :
      s.connectionsOf user = [] := by
    by_contra connected
    exact evicted (sound.mem_connectedUsers.mpr connected)
  refine ⟨b', after, becomes.up, ?_⟩
  intro user _
  refine ⟨?_, ?_⟩
  · intro shows
    obtain ⟨evicted, before⟩ := becomes.shown user shows
    exact ⟨before, disconnected evicted⟩
  · intro room listens
    rw [hub] at listens
    obtain ⟨before, evicted⟩ :=
      (Hub.mem_evicted_listeners sound.withoutUsers s.hub.registry.users room user).mp listens
    exact ⟨before, disconnected evicted⟩

/-- Nothing that the hub itself does, but letting a user listen, shows anybody anew who has no
connection. -/
private theorem act_fades (sound : s.hub.registry.Sound s.owner) (on : s.bus = some b) (up : Up b)
    (own : ∀ other, op ≠ .turnBus other) (noListen : ∀ room user, op ≠ .roster (.listen room user)) :
    s.LetsFade b op := by
  have counting {op : Op β} (hub : (s.act op).hub = s.hub) (bus : (s.act op).bus = s.bus) :
      s.LetsFade b op := by
    refine ⟨b, bus.trans on, up, fun user gone => ?_⟩
    refine .still gone ?_ (fun shows => shows) fun room listens => ?_
    · rw [connectionsOf, connectionsOf, hub]
    · rwa [hub] at listens
  cases op with
  | turnBus other => exact absurd rfl (own other)
  | client id a => exact counting rfl rfl
  | send x =>
    have alike := (send_delivers sound x).alike
    obtain ⟨b', published, after, becomes⟩ := send_becomes on up x
    refine ⟨b', after, becomes.up, fun user gone => ?_⟩
    refine .still gone (alike.connectionsOf user) (becomes.shown user) fun room listens => ?_
    exact alike.listeners room ▸ listens
  | roster x =>
    cases x with
    | register now id => exact register_fades on up now id
    | unregister id => exact unregister_fades sound on up id
    | refresh now => exact refresh_fades sound on up now
    | listen room user => exact absurd rfl (noListen room user)
    | unlisten room user =>
      refine ⟨b, on, up, fun other gone => ?_⟩
      refine .still gone rfl (fun shows => shows) fun there listens => ?_
      have left := Registry.listeners_unlisten sound.roomsOnce room there user
      simp only [act, changeRoster, Site.unlisten, left] at listens
      split at listens
      · rename_i same
        exact same ▸ List.mem_of_mem_filter listens
      · exact listens
  | ending x =>
    cases x with
    | stopRelay =>
      exact ⟨b, on, up, fun user gone => .still gone rfl (fun shows => shows) fun _ listens => listens⟩
    | closeAll => exact counting rfl rfl
    | evictAll => exact evictAll_fades sound on up

/-- The bus stays available as long as it does not turn into one that is not. -/
private theorem run_available (sound : s.hub.registry.Sound s.owner) (on : s.bus = some b)
    (up : Up b)
    (turns : ∀ other, Op.turnBus other ∈ ops → Up other) :
    ∃ b', (s.run ops).bus = some b' ∧ Up b' := by
  induction ops generalizing s b with
  | nil => exact ⟨b, on, up⟩
  | cons op rest ih =>
    have step : ∃ b', (s.act op).bus = some b' ∧ Up b' := by
      by_cases turned : ∃ other, op = .turnBus other
      · obtain ⟨other, rfl⟩ := turned
        exact ⟨other, by simp [act, on], turns other List.mem_cons_self⟩
      by_cases listens : ∃ room user, op = .roster (.listen room user)
      · obtain ⟨room, user, rfl⟩ := listens
        exact ⟨b, on, up⟩
      obtain ⟨b', after, upAfter, -⟩ := act_fades sound on up
        (fun other same => turned ⟨other, same⟩) fun room user same => listens ⟨room, user, same⟩
      exact ⟨b', after, upAfter⟩
    obtain ⟨b', after, upAfter⟩ := step
    exact ih (act_sound sound op) after upAfter fun other member =>
      turns other (List.mem_cons_of_mem op member)

/-- One operation keeps it so. -/
private theorem act_forgets (forgets : s.Forgets held) (spares : s.Spares held op) :
    (s.act op).Forgets held := by
  obtain ⟨b, on, up, hidden⟩ := forgets.offline
  have sound := act_sound forgets.sound op
  by_cases turns : ∃ other, op = .turnBus other
  · obtain ⟨b', rfl⟩ := turns
    obtain ⟨upAfter, spared⟩ := spares
    exact ⟨sound, ⟨b', by simp [act, on], upAfter, spared⟩, forgets.rooms⟩
  by_cases listens : ∃ room user, op = .roster (.listen room user)
  · obtain ⟨room, user, rfl⟩ := listens
    have connections (other : Uuid) :
        (s.act (.roster (.listen room user))).connectionsOf other = s.connectionsOf other := by
      simp only [connectionsOf, Registry.connectionsOf, act, changeRoster, Site.listen,
        Registry.listen_users]
    refine ⟨sound, ⟨b, on, up, ?_⟩, ?_⟩
    · intro other mine gone
      exact hidden other mine (connections other ▸ gone)
    · intro other mine gone there listens
      have goneBefore := connections other ▸ gone
      have different : other ≠ user := by
        rintro rfl
        exact spares mine goneBefore
      simp only [act, changeRoster, Site.listen, Registry.listeners_listen] at listens
      refine forgets.rooms other mine goneBefore there ?_
      split at listens
      · rename_i here
        rw [here.1]
        exact (List.mem_append.mp listens).resolve_right fun last =>
          different (List.mem_singleton.mp last)
      · exact listens
  obtain ⟨b', after, upAfter, fades⟩ := act_fades forgets.sound on up
    (fun other same => turns ⟨other, same⟩) fun room user same => listens ⟨room, user, same⟩
  refine ⟨sound, ⟨b', after, upAfter, ?_⟩, ?_⟩
  · intro user mine gone shows
    obtain ⟨before, goneBefore⟩ := (fades user gone).shown shows
    exact hidden user mine goneBefore before
  · intro user mine gone room listens
    obtain ⟨before, goneBefore⟩ := (fades user gone).listening room listens
    exact forgets.rooms user mine goneBefore room before

private theorem run_forgets (forgets : s.Forgets held) (spares : s.SparesThrough held ops) :
    (s.run ops).Forgets held := by
  induction ops generalizing s with
  | nil => exact forgets
  | cons op rest ih => exact ih (act_forgets forgets spares.1) spares.2

end Reliable

/-! ## What is left -/

/-- What is left of a hub once it has ended. -/
structure LeavesNothing (s : Site β) (stopping draining : List (Op β)) : Prop where
  noConnections : (s.shutdown stopping draining).hub.registry.total = 0
  /-- Whoever was connected at any time, when the end began or since, is closed. -/
  closed : ∀ earlier later, endingRun stopping draining = earlier ++ later →
    ∀ id ∈ (s.run earlier).hub.registry.allConnections,
      (s.shutdown stopping draining).isClosed id = true
  nobodyHere : (s.shutdown stopping draining).hub.presence.users = []
  deaf : (s.shutdown stopping draining).hub.subscribed = false
  gauge : (s.shutdown stopping draining).hub.meters.activeConnections = 0
  /-- The users that were connected when the end began are not in the set of users online, and no
  hub that is asked finds them there. -/
  offline : ∃ b, (s.shutdown stopping draining).bus = some b ∧
    ∀ user, s.connectionsOf user ≠ [] → ¬Shows b user ∧
      ∀ (p : Presence) now, (p.isOnline (some b) now user).2 = false
  /-- Nor do they listen to any room. -/
  unlistening : ∀ user, s.connectionsOf user ≠ [] →
    ∀ room, user ∉ (s.shutdown stopping draining).hub.registry.listeners room
  /-- From then on nobody is registered, and to try it changes nothing. -/
  refused : ∀ later now user id,
    ((s.shutdown stopping draining).run later).register now user id =
      ((s.shutdown stopping draining).run later, .error .shuttingDown)
  /-- To end the hub again does nothing to what else happens. -/
  again : ∀ later stopping' draining',
    ((s.shutdown stopping draining).run later).shutdown stopping' draining' =
      (s.shutdown stopping draining).run (later ++ (stopping' ++ draining'))

/-- Whatever a hub was and however its end goes, nothing is left of the users it had, as long as its
bus is available: whichever of their readers leave in time, and whatever else is sent, registered or
done meanwhile. -/
theorem shutdown_leaves_nothing [ReliableBus β] (config : Config) (now : Nat) (queues : Queues)
    (b : β) (up : Up b) (ops stopping draining : List (Op β))
    (once : (registrations (ops ++ (stopping ++ draining))).Nodup)
    (available : ∀ other, Op.turnBus other ∈ ops → Up other)
    (spared : ((fresh config now queues (some b)).run ops).SparesThrough
      (fun user => ((fresh config now queues (some b)).run ops).connectionsOf user ≠ [])
      (endingRun stopping draining)) :
    ((fresh config now queues (some b)).run ops).LeavesNothing stopping draining := by
  let start := fresh config now queues (some b)
  have orderlyStart : start.hub.Orderly start.owner := Hub.Orderly.start config now start.owner
  have registrable : start.Registrable (ops ++ endingRun stopping draining) := by
    refine ⟨?_, fun _ _ present => by cases present⟩
    have same : registrations (ops ++ endingRun stopping draining) =
        registrations (ops ++ (stopping ++ draining)) := by
      rw [registrations, List.filterMap_append]
      exact (congrArg (registrations ops ++ ·) (registrations_endingRun stopping draining)).trans
        List.filterMap_append.symm
    rw [same]
    exact once
  let s := start.run ops
  have orderly : s.hub.Orderly s.owner := run_orderly orderlyStart registrable.take
  have registrableEnd : s.Registrable (endingRun stopping draining) := registrable.drop orderlyStart
  have orderlyEnd := run_orderly orderly registrableEnd
  rw [← shutdown_eq_run] at orderlyEnd
  have ended := shutdown_ended orderly.sound stopping draining
  have nobody (user : Uuid) : (s.shutdown stopping draining).connectionsOf user = [] := by
    simp [connectionsOf, Registry.connectionsOf, ended.empty]
  have total : (s.shutdown stopping draining).hub.registry.total = 0 := by
    simp [Registry.total, Registry.allConnections, ended.empty]
  obtain ⟨bBefore, onBefore, upBefore⟩ := run_available orderlyStart.sound rfl up available
  have forgets : (s.run (endingRun stopping draining)).Forgets fun user => s.connectionsOf user ≠ [] := by
    refine run_forgets ⟨orderly.sound, ⟨bBefore, onBefore, upBefore, ?_⟩, ?_⟩ spared
    · intro user connected gone
      exact absurd gone connected
    · intro user connected gone
      exact absurd gone connected
  rw [← shutdown_eq_run] at forgets
  refine ⟨total, ?_, ?_, ended.deaf, ?_, ?_, ?_, ?_, ?_⟩
  · intro earlier later split id present
    have runTo : s.shutdown stopping draining = (s.run earlier).run later := by
      rw [shutdown_eq_run, split, run_append]
    rw [split] at registrableEnd
    have before := run_orderly orderly registrableEnd.take
    obtain ⟨user, member⟩ := (Registry.mem_allConnections before.sound.usersOnce).mp present
    rw [runTo]
    refine (run_went before (registrableEnd.drop orderly) member).resolve_left ?_
    rw [← runTo, nobody]
    exact List.not_mem_nil
  · apply List.eq_nil_iff_forall_not_mem.mpr
    intro user online
    exact (orderlyEnd.online user).mp online (nobody user)
  · rw [orderlyEnd.gauge, total]
    rfl
  · obtain ⟨after, on, upAfter, hidden⟩ := forgets.offline
    refine ⟨after, on, fun user connected => ?_⟩
    have notShown := hidden user connected (nobody user)
    exact ⟨notShown, fun p now => Presence.isOnline_of_hidden upAfter notShown p now⟩
  · intro user connected room
    exact forgets.rooms user connected (nobody user) room
  · intro later now user id
    exact register_stopped (run_ended ended later).stopped now user id
  · intro later stopping' draining'
    rw [(run_ended ended later).shutdown, ← run_append]

/-- Two users come and listen to a room. -/
def twoUsers : List (Op MemoryBus) :=
  [.roster (.register 0 ⟨0⟩), .roster (.register 0 ⟨1⟩), .roster (.listen ⟨5⟩ ⟨7⟩),
    .roster (.listen ⟨5⟩ ⟨8⟩)]

/-- The connections of `twoUsers`, and one more. -/
def twoUsersQueues : Queues :=
  [(⟨0⟩, { user := ⟨7⟩, capacity := 1 }), (⟨1⟩, { user := ⟨8⟩, capacity := 1 }),
    (⟨2⟩, { user := ⟨9⟩, capacity := 1 })]

/-- The hub after `twoUsers`. -/
def twoUsersHub : Site MemoryBus :=
  (fresh (.trial ⟨1⟩) 0 twoUsersQueues (some MemoryBus.empty)).run twoUsers

/-- One reader leaves in time, a client comes late, and the user that is still there listens to
another room. -/
def lateGoings : List (Op MemoryBus) :=
  [.roster (.unregister ⟨0⟩), .roster (.register 0 ⟨2⟩), .roster (.listen ⟨6⟩ ⟨8⟩)]

/-- Both are gone, and so is the one that came late. -/
theorem twoUsers_leave_nothing :
    (registrations (twoUsers ++ ([] ++ lateGoings))).Nodup ∧
      (∀ other, Op.turnBus other ∈ twoUsers → Up other) ∧
      twoUsersHub.SparesThrough (fun user => twoUsersHub.connectionsOf user ≠ [])
        (endingRun [] lateGoings) ∧
      (twoUsersHub.shutdown [] lateGoings).hub.registry.total = 0 ∧
      (twoUsersHub.shutdown [] lateGoings).isClosed ⟨1⟩ = true ∧
      ⟨8⟩ ∉ (twoUsersHub.shutdown [] lateGoings).hub.registry.listeners ⟨6⟩ := by
  have up : Up MemoryBus.empty := ⟨rfl, List.nodup_nil⟩
  have once : (registrations (twoUsers ++ ([] ++ lateGoings))).Nodup := by decide
  have available : ∀ other, Op.turnBus other ∈ twoUsers → Up other := by simp [twoUsers]
  have spared : twoUsersHub.SparesThrough (fun user => twoUsersHub.connectionsOf user ≠ [])
      (endingRun [] lateGoings) := by
    refine ⟨trivial, trivial, trivial, trivial, ?_, trivial, trivial⟩
    intro _
    decide
  have ended : twoUsersHub.LeavesNothing [] lateGoings :=
    shutdown_leaves_nothing (.trial ⟨1⟩) 0 twoUsersQueues MemoryBus.empty up twoUsers [] lateGoings
      once available spared
  have connected : ⟨1⟩ ∈ twoUsersHub.hub.registry.allConnections := by decide
  have eight : twoUsersHub.connectionsOf ⟨8⟩ ≠ [] := by decide
  refine ⟨once, available, spared, ended.noConnections, ?_, ended.unlistening ⟨8⟩ eight ⟨6⟩⟩
  exact ended.closed [] (endingRun [] lateGoings) rfl ⟨1⟩ connected

end Site

/-! ## In a fleet -/

namespace Fleet

variable {f : Fleet} {name : String} {s : LocalSite}

/-- What is done to a hub of a fleet is done to it alone, as long as it stays on its bus. -/
private theorem site_change (found : f.site? name = some s) (op : LocalSite → LocalSite)
    (wired : (op s).bus.isSome = s.bus.isSome) : (f.change name op).site? name = some (op s) := by
  have changed : f.change name op = f.putSite name (op s) := by simp [change, visit, found]
  obtain ⟨station, standing, rfl⟩ := Option.map_eq_some_iff.mp found
  rw [changed]
  generalize op _ = after at wired ⊢
  obtain ⟨hub, queues, bus⟩ := after
  cases shared : station.shared with
  | false =>
    have none : bus = none := by simpa [shared] using wired
    simp [site?, putSite, Table.get?_modify, standing, shared, none]
  | true =>
    obtain ⟨b, rfl⟩ : ∃ b, bus = some b := by simpa [shared, Option.isSome_iff_exists] using wired
    simp [site?, putSite, Table.get?_modify, standing, shared]

private theorem site_setRelay (f : Fleet) (name : String) (r : RelayState) :
    (f.setRelay name r).site? name = f.site? name := by
  simp only [setRelay, site?, Table.get?_modify, if_true]
  cases f.stations.get? name <;> rfl

/-- A fleet whose hub has stopped its relay and closed its connections. -/
def closing (f : Fleet) (name : String) : Fleet :=
  ((f.setRelay name .stopped).change name Site.stopRelay).change name fun s => s.closeAll.1

theorem closing_site (found : f.site? name = some s) :
    (f.closing name).site? name = some s.stopRelay.closeAll.1 := by
  have unlinked : (f.setRelay name .stopped).site? name = some s := by rw [site_setRelay, found]
  have stopped := site_change unlinked Site.stopRelay rfl
  exact site_change stopped (fun s => s.closeAll.1) rfl

/-- How often a hub looks at most whether its connections have gone. -/
def looks (h : Hub) : Nat :=
  (h.config.writeWait.nanos + pollPeriod.nanos - 1) / pollPeriod.nanos

private theorem shutdown_eq {h : Hub} (present : f.hub? name = some h) :
    f.shutdown name =
      let waited := ((f.closing name).awaitEmpty name (looks h)).change name Site.evictAll
      { waited with
        stations := waited.stations.modify name fun s => { s with nextRefresh := none } } := by
  simp only [shutdown, present, closing, looks]

private theorem site_forgetRefresh (f : Fleet) (name : String) :
    ({ f with
      stations := f.stations.modify name fun s => { s with nextRefresh := none } } : Fleet).site?
        name = f.site? name := by
  simp only [site?, Table.get?_modify, if_true, Option.map_map]
  rfl

/-- The end of a hub in a fleet is the end of the hub, with what happens to it while the fleet goes
on in between. -/
theorem shutdown_site (found : f.site? name = some s) {draining : List (Op MemoryBus)}
    (waited : ((f.closing name).awaitEmpty name (looks s.hub)).site? name =
      some (s.stopRelay.closeAll.1.run draining)) :
    (f.shutdown name).site? name = some (s.shutdown [] draining) := by
  have hub : f.hub? name = some s.hub := by
    obtain ⟨station, standing, rfl⟩ := Option.map_eq_some_iff.mp found
    simp [hub?, standing]
  have ends : s.shutdown [] draining = (s.stopRelay.closeAll.1.run draining).evictAll := rfl
  rw [shutdown_eq hub, ends]
  exact (site_forgetRefresh _ name).trans (site_change waited Site.evictAll (Site.evictAll_wired _))

end Fleet

end RoomRelay
