import RoomRelay.Hub.Membership
import RoomRelay.Proofs.Delivery

/-!
What coming, going and being evicted do to a hub, whatever the bus answers: the registry, the
hub's own part of presence and the count of connections move together, and the queues of those
that go are closed. Nothing here depends on what kind of bus there is, or whether it works.
-/

namespace RoomRelay

/-! ## The hub's own part of presence -/

namespace Presence

variable {β : Type} [SharedBus β]

/-- The users a hub has do not depend on what the bus made of the mark. -/
@[simp] theorem markOnline_presence (p : Presence) (bus : Option β) (now : Nat) (user : Uuid) :
    (p.markOnline bus now user).1 = p.insert user := by
  unfold markOnline
  cases bus with
  | none => rfl
  | some b => dsimp only; split <;> rfl

@[simp] theorem markOffline_presence (p : Presence) (bus : Option β) (user : Uuid) :
    (p.markOffline bus user).1 = p.remove user := by
  unfold markOffline
  cases bus with
  | none => rfl
  | some b => dsimp only; split <;> rfl

theorem mem_insert {p : Presence} {user other : Uuid} :
    other ∈ (p.insert user).users ↔ other = user ∨ other ∈ p.users := by
  unfold insert
  by_cases present : user ∈ p.users
  · simp only [List.contains_iff_mem, present, if_true]
    exact ⟨Or.inr, fun either => either.elim (fun same => same ▸ present) id⟩
  · simp [present, or_comm]

theorem mem_remove {p : Presence} {user other : Uuid} :
    other ∈ (p.remove user).users ↔ other ≠ user ∧ other ∈ p.users := by
  simp [remove, and_comm]

end Presence

/-! ## Users taken off a hub -/

namespace Hub

/-- The hubs differ in who is connected or listens, at most, and in what follows from that. -/
structure Fixed (h h' : Hub) : Prop where
  config : h'.config = h.config
  subscribed : h'.subscribed = h.subscribed
  stopped : h'.stopped = h.stopped
  dropped : h'.registry.dropped = h.registry.dropped
  lease : h'.presence.lease = h.presence.lease

theorem Fixed.refl (h : Hub) : h.Fixed h := ⟨rfl, rfl, rfl, rfl, rfl⟩

/-- The hub once users with their connections were evicted one after another, the registry's
users having gone before. -/
def evicted (h : Hub) : List (Uuid × List ConnId) → Hub
  | [] => h
  | (user, ids) :: rest =>
    evicted
      { h with
        registry := h.registry.leaveAll user
        meters := { h.meters with
          activeConnections := h.meters.activeConnections + -(ids.length : Int) }
        presence := h.presence.remove user }
      rest

variable {owner : ConnId → Option Uuid}

theorem evicted_sound {h : Hub} (sound : h.registry.Sound owner)
    (leftover : List (Uuid × List ConnId)) : (evicted h leftover).registry.Sound owner := by
  induction leftover generalizing h with
  | nil => exact sound
  | cons entry rest ih => exact ih (sound.leaveAll entry.1)

@[simp] theorem evicted_users (h : Hub) (leftover : List (Uuid × List ConnId)) :
    (evicted h leftover).registry.users = h.registry.users := by
  induction leftover generalizing h with
  | nil => rfl
  | cons entry rest ih => rw [evicted, ih]; rfl

@[simp] theorem evicted_dropped (h : Hub) (leftover : List (Uuid × List ConnId)) :
    (evicted h leftover).registry.dropped = h.registry.dropped := by
  induction leftover generalizing h with
  | nil => rfl
  | cons entry rest ih => rw [evicted, ih]; rfl

@[simp] theorem evicted_config (h : Hub) (leftover : List (Uuid × List ConnId)) :
    (evicted h leftover).config = h.config := by
  induction leftover generalizing h with
  | nil => rfl
  | cons entry rest ih => rw [evicted, ih]

theorem evicted_lease (h : Hub) (leftover : List (Uuid × List ConnId)) :
    (evicted h leftover).presence.lease = h.presence.lease := by
  induction leftover generalizing h with
  | nil => rfl
  | cons entry rest ih => rw [evicted, ih, Presence.remove_lease]

@[simp] theorem evicted_subscribed (h : Hub) (leftover : List (Uuid × List ConnId)) :
    (evicted h leftover).subscribed = h.subscribed := by
  induction leftover generalizing h with
  | nil => rfl
  | cons entry rest ih => rw [evicted, ih]

/-- Whoever is evicted listens to nothing any more, and nobody else listens to less. -/
theorem mem_evicted_listeners {h : Hub} (sound : h.registry.Sound owner)
    (leftover : Table Uuid (List ConnId)) (room other : Uuid) :
    other ∈ (evicted h leftover).registry.listeners room ↔
      other ∈ h.registry.listeners room ∧ other ∉ leftover.keys := by
  induction leftover generalizing h with
  | nil => simp [evicted]
  | cons entry rest ih =>
    have left := Registry.listeners_leaveAll sound.roomsOnce room entry.1
    rw [evicted, ih (sound.leaveAll entry.1), left, Table.keys_cons, List.mem_cons, not_or,
      List.mem_filter, decide_eq_true_eq]
    exact and_assoc

theorem mem_evicted_presence (h : Hub) (leftover : Table Uuid (List ConnId)) (other : Uuid) :
    other ∈ (evicted h leftover).presence.users ↔
      other ∈ h.presence.users ∧ other ∉ leftover.keys := by
  induction leftover generalizing h with
  | nil => simp [evicted]
  | cons entry rest ih =>
    rw [evicted, ih, Presence.mem_remove, Table.keys_cons, List.mem_cons, not_or]
    tauto

theorem evicted_gauge (h : Hub) (leftover : Table Uuid (List ConnId)) :
    (evicted h leftover).meters.activeConnections =
      h.meters.activeConnections - (leftover.sum List.length : Nat) := by
  induction leftover generalizing h with
  | nil => simp [evicted, Table.sum]
  | cons entry rest ih =>
    rw [evicted, ih]
    simp only [Table.sum, Int.natCast_add]
    omega

end Hub

namespace Site

/-! ## Closing queues -/

/-- The named queues are closed, the others as they were. -/
theorem closeQueues_queue (q : Queues) (ids : List ConnId) (id : ConnId) :
    (closeQueues q ids).get? id =
      (q.get? id).map fun c => if id ∈ ids then c.close else c := by
  induction ids generalizing q with
  | nil => simp [closeQueues]
  | cons first rest ih =>
    have step : closeQueues q (first :: rest) =
        closeQueues (q.modify first Connection.close) rest := rfl
    rw [step, ih, Table.get?_modify]
    by_cases same : id = first
    · subst same
      rw [if_pos rfl, Option.map_map]
      congr 1
      funext c
      by_cases again : id ∈ rest <;> simp [again]
    · simp [same]

variable {β : Type} [SharedBus β] {s : Site β} {user : Uuid} {id : ConnId}

/-! ## Marks -/

theorem markOnline_hub (s : Site β) (now : Nat) (user : Uuid) :
    (s.markOnline now user).hub = { s.hub with presence := s.hub.presence.insert user } := by
  simp [markOnline]

theorem markOffline_hub (s : Site β) (user : Uuid) :
    (s.markOffline user).hub = { s.hub with presence := s.hub.presence.remove user } := by
  simp [markOffline]

/-! ## Coming -/

theorem register_stopped (stopped : s.hub.stopped = true) (now : Nat) (user : Uuid) (id : ConnId) :
    s.register now user id = (s, .error .shuttingDown) := by
  simp [register, stopped]

/-- A connection that comes is added and counted; its user is here when it is the first. -/
theorem register_hub (running : s.hub.stopped = false) (now : Nat) (user : Uuid) (id : ConnId) :
    (s.register now user id).1.hub =
      { s.hub with
        registry := s.hub.registry.addConnection user id
        meters := { s.hub.meters with activeConnections := s.hub.meters.activeConnections + 1 }
        presence :=
          if (s.hub.registry.addConnection user id).connectionCount user = 1 then
            s.hub.presence.insert user
          else s.hub.presence } := by
  unfold register
  by_cases first : (s.hub.registry.addConnection user id).connectionCount user = 1
  · simp [running, first, markOnline_hub, countConnections]
  · simp [running, first, countConnections]

/-- The bus hears of a connection only when it is its user's first. -/
theorem register_bus (running : s.hub.stopped = false) (now : Nat) (user : Uuid) (id : ConnId) :
    (s.register now user id).1.bus =
      if (s.hub.registry.addConnection user id).connectionCount user = 1 then
        (s.hub.presence.markOnline s.bus now user).2
      else s.bus := by
  unfold register
  by_cases first : (s.hub.registry.addConnection user id).connectionCount user = 1
  · simp [running, first, markOnline, countConnections]
  · simp [running, first, countConnections]

theorem register_fixed (s : Site β) (now : Nat) (user : Uuid) (id : ConnId) :
    s.hub.Fixed (s.register now user id).1.hub := by
  by_cases stopped : s.hub.stopped = true
  · rw [register_stopped stopped]
    exact .refl _
  · rw [register_hub (Bool.eq_false_iff.mpr stopped)]
    refine ⟨rfl, rfl, rfl, Registry.addConnection_dropped .., ?_⟩
    dsimp only
    split
    · exact Presence.insert_lease ..
    · rfl

theorem register_sound {known : ConnId → Option Uuid} (sound : s.hub.registry.Sound known)
    (owned : known id = some user) (now : Nat) :
    (s.register now user id).1.hub.registry.Sound known := by
  by_cases stopped : s.hub.stopped = true
  · rw [register_stopped stopped]
    exact sound
  · rw [register_hub (Bool.eq_false_iff.mpr stopped)]
    exact sound.addConnection owned

/-- Registering adds the one connection, unless the hub has stopped. -/
theorem mem_register (s : Site β) (now : Nat) (user other : Uuid) (id a : ConnId) :
    a ∈ (s.register now user id).1.hub.registry.connectionsOf other ↔
      a ∈ s.hub.registry.connectionsOf other ∨ s.hub.stopped = false ∧ other = user ∧ a = id := by
  by_cases stopped : s.hub.stopped = true
  · simp [register_stopped stopped, stopped]
  · have running := Bool.eq_false_iff.mpr stopped
    rw [register_hub running, Registry.connectionsOf_addConnection]
    by_cases same : other = user
    · subst same
      by_cases present : id ∈ s.hub.registry.connectionsOf other
      · by_cases here : a = id <;> simp [present, here]
      · simp [present, running]
    · simp [same]

@[simp] theorem register_queues (s : Site β) (now : Nat) (user : Uuid) (id : ConnId) :
    (s.register now user id).1.queues = s.queues := by
  unfold register
  by_cases stopped : s.hub.stopped = true
  · simp [stopped]
  · simp only [stopped, Bool.false_eq_true, if_false]
    split <;> rfl

/-! ## Going -/

theorem unregister_stopped (stopped : s.hub.stopped = true) (user : Uuid) (id : ConnId) :
    s.unregister user id = (s, .error .shuttingDown) := by
  simp [unregister, stopped]

/-- Whoever goes is closed, whether it stood in the registry or not. -/
theorem unregister_queues (running : s.hub.stopped = false) (user : Uuid) (id : ConnId) :
    (s.unregister user id).1.queues = closeQueues s.queues [id] := by
  unfold unregister
  simp only [running, Bool.false_eq_true, if_false]
  split
  · split <;> rfl
  · rfl

/-- One that is not in the registry changes nothing there. -/
theorem unregister_unknown (running : s.hub.stopped = false)
    (unknown : id ∉ s.hub.registry.connectionsOf user) :
    (s.unregister user id).1.hub = s.hub := by
  simp [unregister, running, unknown]

/-- One of several goes. -/
theorem unregister_hub_more (running : s.hub.stopped = false)
    (known : id ∈ s.hub.registry.connectionsOf user)
    (more : (s.hub.registry.removeConnection user id).connectionCount user ≠ 0) :
    (s.unregister user id).1.hub =
      { s.hub with
        registry := s.hub.registry.removeConnection user id
        meters := { s.hub.meters with
          activeConnections := s.hub.meters.activeConnections + -1 } } := by
  simp [unregister, running, known, more, countConnections]

/-- The last one goes, and its user with it, from the rooms and from presence. -/
theorem unregister_hub_last (running : s.hub.stopped = false)
    (known : id ∈ s.hub.registry.connectionsOf user)
    (last : (s.hub.registry.removeConnection user id).connectionCount user = 0) :
    (s.unregister user id).1.hub =
      { s.hub with
        registry := (s.hub.registry.removeConnection user id).leaveAll user
        meters := { s.hub.meters with
          activeConnections := s.hub.meters.activeConnections + -1 }
        presence := s.hub.presence.remove user } := by
  simp [unregister, running, known, last, countConnections, markOffline_hub]

/-- The bus hears of a going only when it is the user's last. -/
theorem unregister_bus (running : s.hub.stopped = false) (user : Uuid) (id : ConnId) :
    (s.unregister user id).1.bus =
      if id ∈ s.hub.registry.connectionsOf user ∧
          (s.hub.registry.removeConnection user id).connectionCount user = 0 then
        (s.hub.presence.markOffline s.bus user).2
      else s.bus := by
  unfold unregister
  by_cases known : id ∈ s.hub.registry.connectionsOf user
  · by_cases last : (s.hub.registry.removeConnection user id).connectionCount user = 0
    · simp [running, known, last, markOffline, countConnections]
    · simp [running, known, last]
  · simp [running, known]

theorem unregister_fixed (s : Site β) (user : Uuid) (id : ConnId) :
    s.hub.Fixed (s.unregister user id).1.hub := by
  by_cases stopped : s.hub.stopped = true
  · rw [unregister_stopped stopped]
    exact .refl _
  · have running := Bool.eq_false_iff.mpr stopped
    by_cases known : id ∈ s.hub.registry.connectionsOf user
    · by_cases last : (s.hub.registry.removeConnection user id).connectionCount user = 0
      · rw [unregister_hub_last running known last]
        exact ⟨rfl, rfl, rfl, rfl, rfl⟩
      · rw [unregister_hub_more running known last]
        exact ⟨rfl, rfl, rfl, rfl, rfl⟩
    · rw [unregister_unknown running known]
      exact .refl _

theorem unregister_sound {known : ConnId → Option Uuid} (sound : s.hub.registry.Sound known)
    (user : Uuid) (id : ConnId) : (s.unregister user id).1.hub.registry.Sound known := by
  by_cases stopped : s.hub.stopped = true
  · rw [unregister_stopped stopped]
    exact sound
  · have running := Bool.eq_false_iff.mpr stopped
    have removed := sound.removeConnection user id
    by_cases here : id ∈ s.hub.registry.connectionsOf user
    · by_cases last : (s.hub.registry.removeConnection user id).connectionCount user = 0
      · rw [unregister_hub_last running here last]
        exact removed.leaveAll user
      · rw [unregister_hub_more running here last]
        exact removed
    · rw [unregister_unknown running here]
      exact sound

/-- Unregistering takes away the one connection, unless the hub has stopped. -/
theorem mem_unregister (once : s.hub.registry.users.keys.Nodup) (user other : Uuid)
    (id a : ConnId) :
    a ∈ (s.unregister user id).1.hub.registry.connectionsOf other ↔
      a ∈ s.hub.registry.connectionsOf other ∧
        ¬(s.hub.stopped = false ∧ other = user ∧ a = id) := by
  by_cases stopped : s.hub.stopped = true
  · simp [unregister_stopped stopped, stopped]
  have running := Bool.eq_false_iff.mpr stopped
  by_cases here : id ∈ s.hub.registry.connectionsOf user
  · have registry : (s.unregister user id).1.hub.registry.connectionsOf other =
        (s.hub.registry.removeConnection user id).connectionsOf other := by
      by_cases last : (s.hub.registry.removeConnection user id).connectionCount user = 0
      · rw [unregister_hub_last running here last]
        rfl
      · rw [unregister_hub_more running here last]
    rw [registry, Registry.connectionsOf_removeConnection once]
    by_cases same : other = user <;> simp [same, running]
  · rw [unregister_unknown running here]
    constructor
    · rintro member
      refine ⟨member, ?_⟩
      rintro ⟨-, rfl, rfl⟩
      exact here member
    · exact fun both => both.1

/-! ## Eviction -/

private theorem evictFold_hub (s : Site β) (leftover : List (Uuid × List ConnId)) :
    (leftover.foldl (fun s e => s.evictUser e.1 e.2) s).hub = s.hub.evicted leftover := by
  induction leftover generalizing s with
  | nil => rfl
  | cons entry rest ih =>
    rw [List.foldl_cons, ih, evictUser, markOffline_hub]
    rfl

private theorem evictFold_queue (s : Site β) (leftover : List (Uuid × List ConnId)) (id : ConnId) :
    (leftover.foldl (fun s e => s.evictUser e.1 e.2) s).queues.get? id =
      (s.queues.get? id).map fun c => if id ∈ leftover.flatMap (·.2) then c.close else c := by
  induction leftover generalizing s with
  | nil => simp
  | cons entry rest ih =>
    have queues : (s.evictUser entry.1 entry.2).queues = closeQueues s.queues entry.2 := rfl
    rw [List.foldl_cons, ih, queues, closeQueues_queue, Option.map_map, List.flatMap_cons]
    congr 1
    funext c
    by_cases here : id ∈ entry.2 <;> by_cases later : id ∈ rest.flatMap (·.2) <;>
      simp [here, later]

/-- Eviction closes every connection of the hub. -/
theorem evictAll_queue (s : Site β) (id : ConnId) :
    s.evictAll.queues.get? id =
      (s.queues.get? id).map fun c =>
        if id ∈ s.hub.registry.allConnections then c.close else c :=
  evictFold_queue _ _ id

theorem evictAll_hub (s : Site β) :
    s.evictAll.hub =
      { Hub.evicted { s.hub with registry := { s.hub.registry with users := [] } }
          s.hub.registry.users with
        stopped := true } := by
  unfold evictAll
  dsimp only
  rw [evictFold_hub]

end Site

end RoomRelay
