import RoomRelay.Proofs.BusReading
import RoomRelay.Proofs.Operation

/-!
A bus whose messages stand in an order. A message that is accepted stands behind all that were before
it, one that is refused stands nowhere, and a subscription reads on from a place that lies behind all
that was there when it was made. Whatever a hub does on such a bus, messages are only added.
-/

namespace RoomRelay

/-- A bus whose messages stand in an order, with its subscriptions, which read from a place on. -/
class OrderedBus (β : Type) (σ : outParam Type) where
  /-- What was published, oldest first. -/
  history : β → List BusMessage
  subscribe : β → Filter → Except Failure σ
  /-- A subscription's next message, and the subscription once it has read it. -/
  next : β → σ → Option BusMessage × σ
  /-- How many messages a subscription has read or passed over. -/
  place : σ → Nat

open OrderedBus (history subscribe next place)

/-- A bus that tells the truth: what it accepts is published and what it refuses is not, and a
subscription gets what is published later, each message once at most. -/
class HonestBus (β : Type) (σ : outParam Type) [SharedBus β] [OrderedBus β σ] : Prop where
  accepted : ∀ {b : β} {m : BusMessage}, (SharedBus.publish b m).2 = .ok () →
    history (SharedBus.publish b m).1 = history b ++ [m]
  refused : ∀ {b : β} {m : BusMessage} {f : Failure}, (SharedBus.publish b m).2 = .error f →
    history (SharedBus.publish b m).1 = history b
  setAdd : ∀ (b : β) now key member lease,
    history (SharedBus.setAdd b now key member lease).1 = history b
  setRemove : ∀ (b : β) key member, history (SharedBus.setRemove b key member).1 = history b
  subscribed : ∀ {b : β} {f : Filter} {s : σ}, subscribe b f = .ok s → (history b).length ≤ place β s
  gave : ∀ {b : β} {s s' : σ} {m : BusMessage}, next b s = (some m, s') →
    ∃ k, place β s' = k + 1 ∧ place β s ≤ k ∧ (history b)[k]? = some m
  passed : ∀ {b : β} {s s' : σ}, next b s = (none, s') →
    (history b).length ≤ place β s' ∨ place β s ≤ place β s'

variable {β σ : Type} [OrderedBus β σ] {b b' b'' : β}

/-- Messages were added, at most. -/
def OrderedBus.Grows (b b' : β) : Prop := history b <+: history b'

instance (b b' : β) : Decidable (OrderedBus.Grows b b') :=
  inferInstanceAs (Decidable (history b <+: history b'))

open OrderedBus (Grows)

namespace OrderedBus.Grows

theorem refl (b : β) : Grows b b := List.prefix_rfl

theorem trans (first : Grows b b') (then_ : Grows b' b'') : Grows b b'' :=
  List.IsPrefix.trans first then_

theorem of_eq (same : history b' = history b) : Grows b b' := by
  show history b <+: history b'
  exact same ▸ List.prefix_rfl

/-- What stood somewhere still stands there. -/
theorem getElem? (grows : Grows b b') {k : Nat} {m : BusMessage}
    (stands : (history b)[k]? = some m) : (history b')[k]? = some m := by
  obtain ⟨added, grown⟩ := grows
  have inside : k < (history b).length := (List.getElem?_eq_some_iff.mp stands).1
  rw [← grown, List.getElem?_append_left inside, stands]

end OrderedBus.Grows

/-! ## What hubs do to it -/

section Hubs

variable [SharedBus β] [HonestBus β σ]

theorem publish_grows (b : β) (m : BusMessage) : Grows b (SharedBus.publish b m).1 := by
  cases answer : (SharedBus.publish b m).2 with
  | ok done => exact ⟨[m], (HonestBus.accepted answer).symm⟩
  | error failure => exact .of_eq (HonestBus.refused answer)

namespace Presence

private theorem markOnline_grows (p : Presence) (b : β) (now : Nat) (user : Uuid) :
    ∃ b', (p.markOnline (some b) now user).2 = some b' ∧ Grows b b' := by
  have added := HonestBus.setAdd b now Channel.onlineSet user.text (p.insert user).lease
  simp only [markOnline]
  split
  · rename_i after adds
    rw [adds] at added
    exact ⟨_, rfl, (Grows.of_eq added).trans (publish_grows _ _)⟩
  · rename_i after refuses
    rw [refuses] at added
    exact ⟨_, rfl, .of_eq added⟩

private theorem markOffline_grows (p : Presence) (b : β) (user : Uuid) :
    ∃ b', (p.markOffline (some b) user).2 = some b' ∧ Grows b b' := by
  have removed := HonestBus.setRemove b Channel.onlineSet user.text
  simp only [markOffline]
  split
  · rename_i after removes
    rw [removes] at removed
    exact ⟨_, rfl, (Grows.of_eq removed).trans (publish_grows _ _)⟩
  · rename_i after refuses
    rw [refuses] at removed
    exact ⟨_, rfl, .of_eq removed⟩

private theorem refreshOn_grows (p : Presence) (b : β) (now : Nat) (users : List Uuid) :
    Grows b (p.refreshOn b now users) := by
  induction users generalizing b with
  | nil => exact .refl b
  | cons user rest ih =>
    have added := HonestBus.setAdd b now Channel.onlineSet user.text p.lease
    simp only [refreshOn]
    split
    · rename_i after adds
      rw [adds] at added
      exact (Grows.of_eq added).trans (ih after)
    · rename_i after refuses
      rw [refuses] at added
      exact .of_eq added

end Presence

/-- Operations other than those by which the events of rooms travel: the users' own events, the
coming and going of connections, and what becomes of them when the hub ends. -/
def Op.Aside : Op β → Bool
  | .roster _ | .client .. | .ending .closeAll | .ending .evictAll => true
  | .send (.deliverToUser ..) | .send (.sendTo ..) | .send (.sendToUser ..) => true
  | .send (.localBroadcast ..) | .send (.broadcast ..) | .send (.receive _) => false
  | .ending .stopRelay | .turnBus _ => false

namespace Site

variable {s : Site β} {op : Op β}

private theorem changeRoster_grows (on : s.bus = some b) (x : RosterChange) :
    ∃ b', (s.changeRoster x).bus = some b' ∧ Grows b b' := by
  have still {s' : Site β} (bus : s'.bus = s.bus) : ∃ b', s'.bus = some b' ∧ Grows b b' :=
    ⟨b, bus.trans on, .refl b⟩
  cases x with
  | register now id =>
    cases found : s.queues.get? id with
    | none => exact still (by simp [changeRoster, found])
    | some c =>
      simp only [changeRoster, found]
      by_cases stopped : s.hub.stopped = true
      · exact still (by rw [register_stopped stopped])
      · rw [register_bus (Bool.eq_false_iff.mpr stopped)]
        split
        · rw [on]
          exact Presence.markOnline_grows ..
        · exact still rfl
  | unregister id =>
    cases found : s.queues.get? id with
    | none => exact still (by simp [changeRoster, found])
    | some c =>
      simp only [changeRoster, found]
      by_cases stopped : s.hub.stopped = true
      · exact still (by rw [unregister_stopped stopped])
      · rw [unregister_bus (Bool.eq_false_iff.mpr stopped)]
        split
        · rw [on]
          exact Presence.markOffline_grows ..
        · exact still rfl
  | listen room user => exact still rfl
  | unlisten room user => exact still rfl
  | refresh now =>
    simp only [changeRoster, Site.refresh]
    split
    · exact still rfl
    · refine ⟨s.hub.presence.refreshOn b now s.hub.registry.connectedUsers, ?_,
        Presence.refreshOn_grows ..⟩
      simp [Presence.refresh, on]

private theorem evictFold_grows (on : s.bus = some b) (leftover : List (Uuid × List ConnId)) :
    ∃ b', (leftover.foldl (fun s e => s.evictUser e.1 e.2) s).bus = some b' ∧ Grows b b' := by
  induction leftover generalizing s b with
  | nil => exact ⟨b, on, .refl b⟩
  | cons entry rest ih =>
    obtain ⟨b', marks, grows⟩ := Presence.markOffline_grows s.hub.presence b entry.1
    have evicted : (s.evictUser entry.1 entry.2).bus = some b' := by
      rw [← on] at marks
      exact marks
    obtain ⟨b'', after, growsAfter⟩ := ih evicted
    exact ⟨b'', after, grows.trans growsAfter⟩

/-- Operations aside only add messages. -/
theorem aside_grows (on : s.bus = some b) (aside : op.Aside = true) :
    ∃ b', (s.act op).bus = some b' ∧ Grows b b' := by
  cases op with
  | roster x => exact changeRoster_grows on x
  | client id a => exact ⟨b, on, .refl b⟩
  | turnBus b' => cases aside
  | ending x =>
    cases x with
    | stopRelay => cases aside
    | closeAll => exact ⟨b, on, .refl b⟩
    | evictAll =>
      exact evictFold_grows (s := { s with hub := { s.hub with
        registry := { s.hub.registry with users := [] } } }) on s.hub.registry.users
  | send x =>
    cases x with
    | localBroadcast room payload => cases aside
    | broadcast room e => cases aside
    | receive m => cases aside
    | deliverToUser user payload => exact ⟨b, (pushAll_bus ..).trans on, .refl b⟩
    | sendTo id payload => exact ⟨b, (pushTo_bus ..).trans on, .refl b⟩
    | sendToUser user e =>
      refine ⟨_, ?_, publish_grows b ⟨Channel.userEvents,
        (UserEnvelope.ofEvent s.hub.instanceId user e).toValue.render⟩⟩
      simp only [act, send, sendToUser_bus, on, Option.map_some]

/-- And leave the relay as it is. -/
theorem aside_subscribed {known : ConnId → Option Uuid} (sound : s.hub.registry.Sound known)
    (aside : op.Aside = true) : (s.act op).hub.subscribed = s.hub.subscribed := by
  by_cases ends : ∃ x, op = .ending x
  · obtain ⟨x, rfl⟩ := ends
    cases x with
    | stopRelay => cases aside
    | closeAll => rfl
    | evictAll =>
      have hub : (s.act (.ending .evictAll)).hub = _ := evictAll_hub s
      rw [hub]
      exact Hub.evicted_subscribed ..
  · exact (act_flags sound op fun x same => ends ⟨x, same⟩).1

end Site

end Hubs

/-! ## A bus in memory -/

namespace MemoryBus

instance : OrderedBus MemoryBus Subscription where
  history := MemoryBus.history
  subscribe := MemoryBus.subscribe
  next := MemoryBus.next
  place := Subscription.position

/-- A message that is given stands where the subscription has come to, whether it lagged or not. -/
private theorem next_gave {b : MemoryBus} {s s' : Subscription} {m : BusMessage}
    (gave : b.next s = (some m, s')) :
    ∃ k, s'.position = k + 1 ∧ s.position ≤ k ∧ b.history[k]? = some m := by
  rcases b.next_numbered s with ⟨i, _, from_, stands, -, -, next⟩ | ⟨-, next⟩
  · rw [gave] at next
    cases next
    exact ⟨i, rfl, Nat.le_trans (Nat.le_max_left ..) from_, stands⟩
  · rw [gave] at next
    cases next

instance : HonestBus MemoryBus Subscription where
  accepted {b m} answer := by
    simp only [SharedBus.publish, MemoryBus.publish] at answer ⊢
    split
    · exact history_append b m
    · rename_i off
      rw [if_neg off] at answer
      cases answer
  refused {b m f} answer := by
    simp only [SharedBus.publish, MemoryBus.publish] at answer ⊢
    split
    · rename_i on
      rw [if_pos on] at answer
      cases answer
    · rfl
  setAdd b now key member lease := congrArg List.reverse (setAdd_log b now key member lease)
  setRemove b key member := congrArg List.reverse (setRemove_log b key member)
  subscribed {b f s} subscribes := by
    simp only [OrderedBus.subscribe, MemoryBus.subscribe] at subscribes
    split at subscribes
    · cases subscribes
      exact Nat.le_of_eq (history_length b)
    · cases subscribes
  gave := next_gave
  passed {b s s'} nothing := by
    replace nothing : MemoryBus.next b s = (none, s') := nothing
    rcases b.next_numbered s with ⟨i, _, -, -, -, -, next⟩ | ⟨-, next⟩
    · rw [nothing] at next
      cases next
    · rw [nothing] at next
      cases next
      exact .inl (Nat.le_refl _)

end MemoryBus

end RoomRelay
