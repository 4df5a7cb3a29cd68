import RoomRelay.Hub.Delivery
import RoomRelay.Proofs.Registry

/-!
What a fan-out does: each connection it names once gets one push of the text, no other queue is
touched, and of the hub only the two counts of drops move, by the pushes that found a queue full.
-/

namespace RoomRelay

/-! ## Counting drops -/

/-- A hub that has counted so many more drops. -/
def Hub.countDropped (h : Hub) (n : Nat) : Hub :=
  { h with
    registry := { h.registry with dropped := h.registry.dropped + n },
    meters := { h.meters with droppedEvents := h.meters.droppedEvents + n } }

private theorem Hub.countDropped_add (h : Hub) (m n : Nat) :
    (h.countDropped m).countDropped n = h.countDropped (m + n) := by
  simp only [countDropped, Nat.add_assoc]

private theorem Hub.countPush_eq (h : Hub) (o : PushOutcome) :
    h.countPush o = h.countDropped ([o].count .full) := by
  cases o <;> rfl

/-! ## One connection -/

namespace Connection

@[simp] theorem push_user (c : Connection) (payload : String) : (c.push payload).1.user = c.user := by
  unfold push
  split
  · rfl
  · split <;> rfl

/-- Only an open connection takes anything. -/
theorem push_not_open {c : Connection} (shut : c.isOpen = false) (payload : String) :
    c.push payload = (c, .closed) := by
  simp [push, shut]

/-- A push is refused as full exactly when the connection is open and its queue has no room. -/
theorem push_full_iff {c : Connection} {payload : String} :
    (c.push payload).2 = .full ↔ c.isOpen = true ∧ c.capacity ≤ c.pending.length := by
  unfold push
  by_cases shut : c.isOpen = true
  · by_cases room : c.capacity ≤ c.pending.length <;> simp [shut, room]
  · simp [shut]

@[simp] theorem close_close (c : Connection) : c.close.close = c.close := rfl

end Connection

namespace Site

variable {β : Type}

/-- What becomes of pushing a text to connections one after another. -/
def outcomes (s : Site β) (payload : String) : List ConnId → List PushOutcome
  | [] => []
  | id :: rest => (s.pushTo id payload).2 :: (s.pushTo id payload).1.outcomes payload rest

variable {s : Site β} {payload : String}

theorem pushTo_hub (s : Site β) (id : ConnId) (payload : String) :
    (s.pushTo id payload).1.hub = s.hub.countDropped ([(s.pushTo id payload).2].count .full) := by
  unfold pushTo
  cases s.queues.get? id with
  | none => rfl
  | some c => exact Hub.countPush_eq _ _

@[simp] theorem pushTo_bus (s : Site β) (id : ConnId) (payload : String) :
    (s.pushTo id payload).1.bus = s.bus := by
  unfold pushTo
  cases s.queues.get? id <;> rfl

private theorem pushTo_queue (s : Site β) (id other : ConnId) (payload : String) :
    (s.pushTo id payload).1.queues.get? other =
      if other = id then (s.queues.get? id).map fun c => (c.push payload).1
      else s.queues.get? other := by
  unfold pushTo
  cases found : s.queues.get? id with
  | none =>
    by_cases same : other = id
    · simp [same, found]
    · simp [same]
  | some c => simp only [Table.get?_set, Option.map_some]

/-- What becomes of a push is decided by the queue it goes to. -/
theorem pushTo_outcome (s : Site β) (id : ConnId) (payload : String) :
    (s.pushTo id payload).2 =
      ((s.queues.get? id).map fun c => (c.push payload).2).getD .closed := by
  unfold pushTo
  cases s.queues.get? id <;> rfl

/-! ## Several connections -/

theorem pushAll_hub (s : Site β) (payload : String) (stats : DeliveryStats) (ids : List ConnId) :
    (s.pushAll payload stats ids).1.hub =
      s.hub.countDropped ((s.outcomes payload ids).count .full) := by
  induction ids generalizing s stats with
  | nil => rfl
  | cons id rest ih =>
    rw [pushAll, ih, pushTo_hub, Hub.countDropped_add, outcomes, ← List.count_append]
    rfl

@[simp] theorem pushAll_bus (s : Site β) (payload : String) (stats : DeliveryStats)
    (ids : List ConnId) : (s.pushAll payload stats ids).1.bus = s.bus := by
  induction ids generalizing s stats with
  | nil => rfl
  | cons id rest ih => rw [pushAll, ih, pushTo_bus]

/-- Connections that are named once each get the text once; no other is touched. -/
theorem pushAll_queue (s : Site β) (payload : String) (stats : DeliveryStats) {ids : List ConnId}
    (once : ids.Nodup) (id : ConnId) :
    (s.pushAll payload stats ids).1.queues.get? id =
      if id ∈ ids then (s.queues.get? id).map fun c => (c.push payload).1
      else s.queues.get? id := by
  induction ids generalizing s stats with
  | nil => rfl
  | cons first rest ih =>
    obtain ⟨notAgain, restOnce⟩ := List.nodup_cons.mp once
    rw [pushAll, ih _ _ restOnce, pushTo_queue]
    by_cases same : id = first
    · simp [same, notAgain]
    · simp [same]

private theorem outcomes_eq_map (s : Site β) (payload : String) {ids : List ConnId}
    (once : ids.Nodup) :
    s.outcomes payload ids = ids.map fun id => (s.pushTo id payload).2 := by
  induction ids generalizing s with
  | nil => rfl
  | cons first rest ih =>
    obtain ⟨notAgain, restOnce⟩ := List.nodup_cons.mp once
    rw [outcomes, ih _ restOnce, List.map_cons]
    congr 1
    apply List.map_congr_left
    intro id member
    have different : id ≠ first := fun same => notAgain (same ▸ member)
    rw [pushTo_outcome, pushTo_outcome, pushTo_queue, if_neg different]

/-- What becomes of the pushes can be told from the queues beforehand. A connection that is not
there counts as closed. -/
theorem count_outcomes (s : Site β) (payload : String) {ids : List ConnId} (once : ids.Nodup)
    (o : PushOutcome) (notClosed : o ≠ .closed) :
    (s.outcomes payload ids).count o =
      ids.countP fun id => (s.queues.get? id).any fun c => (c.push payload).2 = o := by
  rw [outcomes_eq_map s payload once, List.count, List.countP_map]
  congr 1
  funext id
  simp only [Function.comp_apply, pushTo_outcome]
  cases s.queues.get? id with
  | none => simp [notClosed.symm]
  | some c => exact beq_eq_decide _ _

/-- A fan-out reports the pushes that were queued and those that found a queue full. -/
theorem pushAll_stats (s : Site β) (payload : String) (stats : DeliveryStats) (ids : List ConnId) :
    (s.pushAll payload stats ids).2 =
      ⟨stats.delivered + (s.outcomes payload ids).count .queued,
        stats.dropped + (s.outcomes payload ids).count .full⟩ := by
  induction ids generalizing s stats with
  | nil => rfl
  | cons id rest ih =>
    rw [pushAll, ih, outcomes, List.count_cons, List.count_cons]
    cases (s.pushTo id payload).2 <;>
      simp [DeliveryStats.count, Nat.add_assoc, Nat.add_comm]

end Site

end RoomRelay
