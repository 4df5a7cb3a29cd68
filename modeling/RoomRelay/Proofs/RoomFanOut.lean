import Mathlib.Data.Fintype.Basic
import RoomRelay.Proofs.Relays

/-!
Exactly-once delivery of room events, over whole runs: every hub handles every broadcast once, in
the order of publication, and a handling pushes the text once to each connection whose user listens
to the room on that hub at that moment, and to nobody else.
-/

namespace RoomRelay

/-- A move of a run, with the hubs before it. -/
structure Deed (ι : Type) where
  before : Relays ι
  hub : ι
  move : RelayMove

namespace Deed

variable {ι : Type} [DecidableEq ι]

/-- The hubs after it. -/
def after (d : Deed ι) : Relays ι := d.before.step d.hub d.move

/-- The bulletin that a hub handles in it. -/
def handledBy? (d : Deed ι) (i : ι) : Option (Uuid × String) :=
  if d.hub = i then d.before.handled? i d.move else none

/-- Whether it pushes to a connection. -/
def Reaches (d : Deed ι) (i : ι) (id : ConnId) : Prop :=
  d.hub = i ∧ id ∈ d.before.targets i d.move

/-- How many of its pushes on a hub find a queue full. -/
def fullQueues (d : Deed ι) (i : ι) : Nat :=
  match d.handledBy? i with
  | some (_, text) =>
    (d.before.targets i d.move).countP fun id =>
      ((d.before.hubs.queues i).get? id).any fun c => (c.push text).2 = .full
  | none => 0

instance (d : Deed ι) (i : ι) (id : ConnId) : Decidable (d.Reaches i id) :=
  inferInstanceAs (Decidable (_ ∧ _))

end Deed

namespace Relays

variable {ι : Type} [DecidableEq ι]

/-- The moves of a run, each with the hubs before it. -/
def deeds (r : Relays ι) : List (ι × RelayMove) → List (Deed ι)
  | [] => []
  | m :: rest => ⟨r, m.1, m.2⟩ :: (r.step m.1 m.2).deeds rest

/-- No relay ever loses messages during a run. -/
def KeepsUpThrough (r : Relays ι) : List (ι × RelayMove) → Prop
  | [] => r.KeepsUp
  | m :: rest => r.KeepsUp ∧ (r.step m.1 m.2).KeepsUpThrough rest

instance decidableKeepsUp [Fintype ι] (r : Relays ι) : Decidable r.KeepsUp :=
  inferInstanceAs (Decidable (∀ _, ¬_ < _))

instance decidableKeepsUpThrough [Fintype ι] :
    (r : Relays ι) → (moves : List (ι × RelayMove)) → Decidable (r.KeepsUpThrough moves)
  | r, [] => decidableKeepsUp r
  | r, m :: rest =>
    have := decidableKeepsUpThrough (r.step m.1 m.2) rest
    inferInstanceAs (Decidable (_ ∧ _))

/-- The bulletins broadcast in a run, in order. -/
def published (moves : List (ι × RelayMove)) : List (Uuid × String) :=
  moves.filterMap (·.2.sent?)

/-- The bulletins that a hub handles in a run, in order. -/
def handledBy (r : Relays ι) (i : ι) (moves : List (ι × RelayMove)) : List (Uuid × String) :=
  (r.deeds moves).filterMap (·.handledBy? i)

/-- The bulletins that are pushed to a connection in a run, in order. -/
def pushedTo (r : Relays ι) (i : ι) (id : ConnId) (moves : List (ι × RelayMove)) :
    List (Uuid × String) :=
  (r.deeds moves).filterMap fun d => if d.Reaches i id then d.handledBy? i else none

/-- The bulletins that a hub has pending. -/
def pendingBulletins (r : Relays ι) (i : ι) : List (Uuid × String) :=
  (r.hubs.bus.pending (r.reading i)).filterMap BusMessage.bulletin?

/-- A connection's user listens to a room on its hub whenever that hub handles a bulletin of the
room during a run. -/
def StaysIn (r : Relays ι) (moves : List (ι × RelayMove)) (room : Uuid) (i : ι) (id : ConnId) :
    Prop :=
  ∀ d ∈ r.deeds moves, ∀ text, d.handledBy? i = some (room, text) → d.Reaches i id

/-- Every broadcast of a run is delivered exactly once to those it is for. -/
structure FansOutOnce (start : Relays ι) (moves : List (ι × RelayMove)) : Prop where
  /-- Each hub handles the broadcasts in the order of publication, each once. Those it has not
  handled are pending. -/
  handled : ∀ i, start.handledBy i moves ++ (start.run moves).pendingBulletins i = published moves
  /-- A move reaches those who are connected and listen to the room of the bulletin that their hub
  handles in it. -/
  reached : ∀ d ∈ start.deeds moves, ∀ i id, d.Reaches i id ↔
    ∃ room text user, d.handledBy? i = some (room, text) ∧
      user ∈ (d.before.hubs.hubs i).registry.listeners room ∧
      id ∈ (d.before.hubs.hubs i).registry.connectionsOf user
  /-- Those get one push of its text. -/
  pushed : ∀ d ∈ start.deeds moves, ∀ i id, d.Reaches i id →
    ∀ room text, d.handledBy? i = some (room, text) →
      (d.after.hubs.queues i).get? id =
        ((d.before.hubs.queues i).get? id).map fun c => (c.push text).1
  /-- Nobody else gets any push. -/
  spared : ∀ d ∈ start.deeds moves, ∀ i id, ¬d.Reaches i id →
    (d.after.hubs.queues i).get? id =
      ((d.before.hubs.queues i).get? id).map fun c => if d.hub = i then d.move.touch id c else c
  /-- Each hub counts the pushes that find a queue full, and no other drops. -/
  dropped : ∀ d ∈ start.deeds moves, ∀ i, (d.after.hubs.hubs i).registry.dropped =
    (d.before.hubs.hubs i).registry.dropped + d.fullQueues i
  /-- Whoever stays in a room gets the room's broadcasts in the order of publication, up to those
  that are pending: of any two who stay, one gets what the other gets, or the beginning of it. -/
  inOrder : ∀ room i id, start.StaysIn moves room i id →
    (start.pushedTo i id moves ++ (start.run moves).pendingBulletins i).filter (·.1 = room) =
      (published moves).filter (·.1 = room)

variable {r : Relays ι} {moves : List (ι × RelayMove)}

/-! ## Runs -/

private theorem run_listening (listening : r.Listening) (keepsUp : r.KeepsUpThrough moves) :
    (r.run moves).Listening ∧ (r.run moves).KeepsUp := by
  induction moves generalizing r with
  | nil => exact ⟨listening, keepsUp⟩
  | cons m rest ih => exact ih (step_listening listening keepsUp.1 m.1 m.2) keepsUp.2

/-- In every deed of a run the relays listen and keep up. -/
private theorem deed_listening (listening : r.Listening) (keepsUp : r.KeepsUpThrough moves)
    {d : Deed ι}
    (done : d ∈ r.deeds moves) : d.before.Listening ∧ d.before.KeepsUp := by
  induction moves generalizing r with
  | nil => cases done
  | cons m rest ih =>
    rcases List.mem_cons.mp done with first | later
    · rw [first]
      exact ⟨listening, keepsUp.1⟩
    · exact ih (step_listening listening keepsUp.1 m.1 m.2) keepsUp.2 later

private theorem filterMap_cons_toList {α γ : Type} (f : α → Option γ) (a : α) (rest : List α) :
    (a :: rest).filterMap f = (f a).toList ++ rest.filterMap f := by
  cases found : f a <;> simp [found]

/-- What a hub handles in a run, followed by what is then before it, is what was before it, followed
by what is broadcast. -/
private theorem run_ahead (listening : r.Listening) (keepsUp : r.KeepsUpThrough moves) (i : ι) :
    r.handledBy i moves ++ (r.run moves).ahead i = r.ahead i ++ published moves := by
  induction moves generalizing r with
  | nil => simp [handledBy, deeds, published, run]
  | cons m rest ih =>
    have first := step_ahead listening keepsUp.1 m.1 m.2 i
    have later := ih (step_listening listening keepsUp.1 m.1 m.2) keepsUp.2
    have handled : (⟨r, m.1, m.2⟩ : Deed ι).handledBy? i =
        if i = m.1 then r.handled? m.1 m.2 else none := by
      by_cases same : i = m.1
      · simp [Deed.handledBy?, same]
      · simp [Deed.handledBy?, same, Ne.symm same]
    have opened : r.handledBy i (m :: rest) =
        (if i = m.1 then (r.handled? m.1 m.2).toList else []) ++
          (r.step m.1 m.2).handledBy i rest := by
      rw [handledBy, deeds, filterMap_cons_toList, handled]
      split <;> rfl
    calc r.handledBy i (m :: rest) ++ (r.run (m :: rest)).ahead i
        = (if i = m.1 then (r.handled? m.1 m.2).toList else []) ++
            ((r.step m.1 m.2).handledBy i rest ++ ((r.step m.1 m.2).run rest).ahead i) := by
          rw [opened, List.append_assoc]
          rfl
      _ = ((if i = m.1 then (r.handled? m.1 m.2).toList else []) ++ (r.step m.1 m.2).ahead i) ++
            published rest := by
          rw [later, List.append_assoc]
      _ = r.ahead i ++ published (m :: rest) := by
          rw [first, List.append_assoc, published, published, filterMap_cons_toList]

/-- Of a room's bulletins, whoever stays in it is pushed all that its hub handles. -/
private theorem pushedTo_staying {room : Uuid} {i : ι} {id : ConnId}
    (stays : r.StaysIn moves room i id) :
    (r.pushedTo i id moves).filter (·.1 = room) = (r.handledBy i moves).filter (·.1 = room) := by
  unfold pushedTo handledBy
  rw [List.filter_filterMap, List.filter_filterMap]
  apply List.filterMap_congr
  intro d done
  by_cases reached : d.Reaches i id
  · rw [if_pos reached]
  · rw [if_neg reached]
    cases handled : d.handledBy? i with
    | none => rfl
    | some bulletin =>
      obtain ⟨other, text⟩ := bulletin
      have different : other ≠ room := by
        rintro rfl
        exact reached (stays d done text handled)
      simp [Option.filter, different]

private theorem reaches_iff (d : Deed ι) (i : ι) (id : ConnId) : d.Reaches i id ↔
    ∃ room text user, d.handledBy? i = some (room, text) ∧
      user ∈ (d.before.hubs.hubs i).registry.listeners room ∧
      id ∈ (d.before.hubs.hubs i).registry.connectionsOf user := by
  unfold Deed.Reaches Deed.handledBy? targets
  by_cases here : d.hub = i
  · simp only [here, true_and, if_true]
    cases d.before.handled? i d.move with
    | none => simp
    | some bulletin =>
      obtain ⟨room, text⟩ := bulletin
      simp only [Option.some.injEq, Prod.mk.injEq]
      constructor
      · intro target
        obtain ⟨user, listens, connected⟩ := Registry.mem_recipients.mp target
        exact ⟨room, text, user, ⟨rfl, rfl⟩, listens, connected⟩
      · rintro ⟨_, _, user, ⟨rfl, rfl⟩, listens, connected⟩
        exact Registry.mem_recipients.mpr ⟨user, listens, connected⟩
  · simp [here]

/-- Hubs whose relays have subscribed to one bus in memory, and never fall so far behind that they
lose messages, deliver every broadcast exactly once, in every interleaving of broadcasts, handlings,
and connections that come, go, listen, and are read and closed. -/
theorem broadcasts_fan_out_once (configs : ι → Config) (now : Nat) (queues : ι → Queues)
    (moves : List (ι × RelayMove)) (keepsUp : (started configs now queues).KeepsUpThrough moves) :
    (started configs now queues).FansOutOnce moves := by
  have listening := started_listening configs now queues
  obtain ⟨stillListening, stillKeepsUp⟩ := run_listening listening keepsUp
  have handled : ∀ i, (started configs now queues).handledBy i moves ++
      ((started configs now queues).run moves).pendingBulletins i = published moves := by
    intro i
    have balance := run_ahead listening keepsUp i
    have nothing : (started configs now queues).ahead i = [] := rfl
    rw [← pending_bulletins stillListening stillKeepsUp i, nothing, List.nil_append] at balance
    exact balance
  refine ⟨handled, fun d _ => reaches_iff d, ?_, ?_, ?_, ?_⟩
  · rintro d done i id ⟨rfl, target⟩ room text bulletin
    obtain ⟨before, keeping⟩ := deed_listening listening keepsUp done
    have handled : d.before.handled? d.hub d.move = some (room, text) := by
      simpa [Deed.handledBy?] using bulletin
    have pushes : d.before.text d.hub d.move = text := by simp [Relays.text, handled]
    rw [Deed.after, step_queue before keeping]
    simp [target, pushes]
  · intro d done i id spared
    obtain ⟨before, keeping⟩ := deed_listening listening keepsUp done
    rw [Deed.after, step_queue before keeping]
    by_cases here : d.hub = i
    · subst here
      have notTarget : id ∉ d.before.targets d.hub d.move := fun target => spared ⟨rfl, target⟩
      simp [notTarget]
    · simp [here, Ne.symm here]
  · intro d done i
    obtain ⟨before, keeping⟩ := deed_listening listening keepsUp done
    rw [Deed.after, step_dropped before keeping, Deed.fullQueues, Deed.handledBy?]
    by_cases here : d.hub = i
    · subst here
      cases handled : d.before.handled? d.hub d.move with
      | none => simp [targets, handled]
      | some bulletin => simp [Relays.text, handled]
    · simp [here, Ne.symm here]
  · intro room i id stays
    rw [List.filter_append, pushedTo_staying stays, ← List.filter_append, handled i]

/-- Two hubs, with a client of user 7 at the first and one of user 8 at the second. -/
def twoRelays : Relays Bool :=
  started (fun i => .trial ⟨if i then 1 else 2⟩) 0 fun i =>
    [(⟨0⟩, { user := ⟨if i then 7 else 8⟩, capacity := 16 })]

/-- Both users come and listen to a room, the first hub broadcasts to it, and both relays read on
past the two notices of presence and the broadcast. -/
def broadcastToBoth : List (Bool × RelayMove) :=
  [(true, .roster (.register 0 ⟨0⟩)), (false, .roster (.register 0 ⟨0⟩)),
    (true, .roster (.listen ⟨5⟩ ⟨7⟩)), (false, .roster (.listen ⟨5⟩ ⟨8⟩)),
    (true, .broadcast ⟨5⟩ (.online ⟨7⟩)), (false, .handle), (false, .handle), (true, .handle),
    (false, .handle), (true, .handle), (true, .handle)]

/-- Both hubs have handled the one broadcast, and it waits once in each client's queue. -/
theorem broadcastToBoth_handled :
    twoRelays.KeepsUpThrough broadcastToBoth ∧
      ∀ i, twoRelays.handledBy i broadcastToBoth = [(⟨5⟩, (Event.online ⟨7⟩).render)] ∧
        (((twoRelays.run broadcastToBoth).hubs.queues i).get? ⟨0⟩).map (·.pending) =
          some [(Event.online ⟨7⟩).render] := by
  have keepsUp : twoRelays.KeepsUpThrough broadcastToBoth := by decide +kernel
  have once : twoRelays.FansOutOnce broadcastToBoth :=
    broadcasts_fan_out_once _ 0 _ broadcastToBoth keepsUp
  refine ⟨keepsUp, fun i => ?_⟩
  have read : (twoRelays.run broadcastToBoth).pendingBulletins i = [] := by
    cases i <;> decide +kernel
  have handled := once.handled i
  rw [read, List.append_nil] at handled
  exact ⟨handled, by cases i <;> decide +kernel⟩

end Relays

end RoomRelay
