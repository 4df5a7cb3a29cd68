import Mathlib.Data.Fintype.Basic
import RoomRelay.Bus.Memory
import RoomRelay.Proofs.Cluster
import RoomRelay.Proofs.EnvelopeText

/-!
Exactly-once delivery of events that are sent to a user, over whole runs and whatever the bus does:
it may be missing, refuse, fail after it relayed, or relay a text any number of times, and hubs may
receive anything at any time. The sender pushes the event when it is sent and drops every copy of its
envelope that comes back. Every other hub pushes once for each copy it can read. Nobody but the user's
connections is reached.
-/

namespace RoomRelay

/-- A turn of a run: an operation on one of the hubs, with all of them before it. -/
structure Turn (ι β : Type) where
  before : Cluster ι β
  hub : ι
  op : Op β

namespace Turn

variable {ι β : Type}

/-- The message from the bus that is handled in it. -/
def received? (t : Turn ι β) : Option BusMessage :=
  match t.op with
  | .send (.receive m) => some m
  | _ => none

private theorem op_of_received {t : Turn ι β} {m : BusMessage} (received : t.received? = some m) :
    t.op = .send (.receive m) := by
  unfold Turn.received? at received
  split at received
  · rename_i is
    rw [is, Option.some.inj received]
  · cases received

variable [DecidableEq ι] [SharedBus β]

def after (t : Turn ι β) : Cluster ι β := t.before.step t.hub t.op

/-- The text that it pushes to a connection. -/
def pushed? (t : Turn ι β) (i : ι) (id : ConnId) : Option String :=
  let f := (t.before.site t.hub).fanOut t.op
  if i = t.hub ∧ id ∈ f.targets then some f.text else none

end Turn

/-- What a hub does with a copy depends on whether it is its own, and whether it can be read. -/
private theorem Site.copy_fanOut {β : Type} (s : Site β) (sender user : Uuid) (e : Event) :
    s.messageFanOut ⟨Channel.userEvents, (UserEnvelope.ofEvent sender user e).toValue.render⟩ =
      if sender = s.hub.instanceId then .none
      else match e.relayed? with
        | some p => ⟨p.render, s.hub.registry.connectionsOf user⟩
        | none => .none := by
  simp only [messageFanOut, Channel.topic_userEvents, envelopeFanOut, e.decode_envelope]
  cases e.relayed? with
  | none => exact (ite_self _).symm
  | some p => rfl

namespace Cluster

variable {ι β : Type}

/-- Hubs just started, some of them on a bus in any state, some with relays that listen to it. -/
def fresh (configs : ι → Config) (starts : ι → Nat) (queues : ι → Queues) (wired listening : ι → Bool)
    (bus : β) : Cluster ι β :=
  { hubs := fun i => { Hub.start (configs i) (starts i) with subscribed := listening i }, queues,
    wired, bus }

theorem fresh_sound (configs : ι → Config) (starts : ι → Nat) (queues : ι → Queues)
    (wired listening : ι → Bool) (bus : β) :
    (fresh configs starts queues wired listening bus).Sound :=
  fun _ => Registry.sound_empty _

/-- The message that a hub publishes when it sends an event to a user. -/
def envelope (c : Cluster ι β) (a : ι) (user : Uuid) (e : Event) : BusMessage :=
  ⟨Channel.userEvents, (UserEnvelope.ofEvent (c.hubs a).instanceId user e).toValue.render⟩

variable [DecidableEq ι] [SharedBus β]

/-- The turns of a run. -/
def turns (c : Cluster ι β) : List (ι × Op β) → List (Turn ι β)
  | [] => []
  | m :: rest => ⟨c, m.1, m.2⟩ :: (c.step m.1 m.2).turns rest

/-- The turn in which a hub sends an event to a user. -/
def sending (c : Cluster ι β) (a : ι) (user : Uuid) (e : Event) : Turn ι β :=
  ⟨c, a, .send (.sendToUser user e)⟩

/-- The turns of a run in which a hub receives a copy of the envelope. -/
def copies (c : Cluster ι β) (a : ι) (user : Uuid) (e : Event) (moves : List (ι × Op β)) :
    List (Turn ι β) :=
  ((c.sending a user e).after.turns moves).filter fun t => t.received? = some (c.envelope a user e)

/-- What is pushed to a connection when an event is sent to a user and when copies of its envelope
are received, in order. -/
def carried (c : Cluster ι β) (a : ι) (user : Uuid) (e : Event) (moves : List (ι × Op β)) (i : ι)
    (id : ConnId) : List String :=
  (c.sending a user e :: c.copies a user e moves).filterMap (·.pushed? i id)

/-- An event sent by a hub to a user reaches the user's connections exactly once, and nobody
else. -/
structure DeliversOnce (c : Cluster ι β) (a : ι) (user : Uuid) (e : Event)
    (moves : List (ι × Op β)) : Prop where
  /-- The sender, if it is on the bus, publishes the envelope there, whatever the bus makes of
  it. -/
  published : (c.sending a user e).after.bus =
    if c.wired a then (SharedBus.publish c.bus (c.envelope a user e)).1 else c.bus
  /-- The sender pushes the event to each connection that the user has with it. -/
  here : ∀ i id, (c.sending a user e).pushed? i id =
    if i = a ∧ id ∈ (c.hubs a).registry.connectionsOf user then some e.render else none
  /-- The sender pushes nothing when a copy comes back to it. -/
  echo : ∀ t ∈ c.copies a user e moves, t.hub = a → ∀ i id, t.pushed? i id = none
  /-- Another hub pushes what it reads from a copy to each connection that the user has with it. -/
  elsewhere : ∀ t ∈ c.copies a user e moves, t.hub ≠ a → ∀ i id, t.pushed? i id =
    if i = t.hub ∧ id ∈ (t.before.hubs t.hub).registry.connectionsOf user then
      e.relayed?.map Json.Value.render
    else none
  /-- Unless the event is too deep, or a number in it is not read as it was, copies can be read and
  hold the event. -/
  legible : (∀ n ∈ e.freeForm.numbers, n.Exact) → e.freeForm.depth ≤ UserEnvelope.payloadLevels →
    e.relayed? = some e.freeForm
  /-- Connections of others are never pushed to. -/
  others : ∀ t ∈ c.sending a user e :: c.copies a user e moves, ∀ i id,
    (t.before.site i).owner id ≠ some user → t.pushed? i id = none
  /-- What is pushed is pushed once, and no other queue changes. -/
  effect : ∀ t ∈ c.sending a user e :: c.copies a user e moves, ∀ i id,
    (t.after.queues i).get? id = ((t.before.queues i).get? id).map fun conn =>
      match t.pushed? i id with
      | some text => (conn.push text).1
      | none => conn
  /-- So with the sender the event is pushed once in all, however often copies come back. -/
  onceHere : ∀ id, c.carried a user e moves a id =
    if id ∈ (c.hubs a).registry.connectionsOf user then [e.render] else []
  /-- With another hub it is pushed as often as the hub receives a copy that it can read, to whoever
  is connected to it as the user each time. -/
  oncePerCopy : ∀ i id, i ≠ a →
    (∀ t ∈ c.copies a user e moves, t.hub = i →
      id ∈ (t.before.hubs i).registry.connectionsOf user) →
    c.carried a user e moves i id = match e.relayed? with
      | some p => List.replicate ((c.copies a user e moves).countP fun t => t.hub = i) p.render
      | none => []

variable {c : Cluster ι β} {moves : List (ι × Op β)}

/-! ## Turns -/

private theorem turn_before (sound : c.Sound) {t : Turn ι β} (turn : t ∈ c.turns moves) :
    t.before.Sound ∧ ∀ i, (t.before.hubs i).config = (c.hubs i).config := by
  induction moves generalizing c with
  | nil => cases turn
  | cons m rest ih =>
    rcases List.mem_cons.mp turn with first | later
    · rw [first]
      exact ⟨sound, fun _ => rfl⟩
    · obtain ⟨before, same⟩ := ih (step_sound sound m.1 m.2) later
      exact ⟨before, fun i => (same i).trans (step_config sound m.1 m.2 i)⟩

/-- A sending changes queues by what it pushes. -/
private theorem sending_effect {t : Turn ι β} (sound : t.before.Sound) {x : Sending}
    (is : t.op = .send x)
    (i : ι) (id : ConnId) :
    (t.after.queues i).get? id = ((t.before.queues i).get? id).map fun conn =>
      match t.pushed? i id with
      | some text => (conn.push text).1
      | none => conn := by
  unfold Turn.after Turn.pushed? step
  by_cases here : i = t.hub
  · subst here
    have acted := Site.act_queue (s := t.before.site t.hub) (sound t.hub) t.op id
    rw [put_queues_same, acted, is]
    by_cases target : id ∈ ((t.before.site t.hub).fanOut (.send x)).targets
    · simp only [target, if_true, and_self]
      rfl
    · simp only [target, if_false, and_false]
      rfl
  · rw [put_queues_other here]
    simp [here]

/-! ## What is pushed -/

theorem sending_bus (c : Cluster ι β) (a : ι) (user : Uuid) (e : Event) :
    (c.sending a user e).after.bus =
      if c.wired a then (SharedBus.publish c.bus (c.envelope a user e)).1 else c.bus := by
  have handed := (c.site a).sendToUser_bus user e
  have stepped : (c.sending a user e).after.bus =
      ((c.site a).sendToUser user e).1.bus.getD c.bus := rfl
  rw [stepped, handed]
  by_cases wired : c.wired a = true <;> simp [site, wired, envelope]

theorem pushed_sending (c : Cluster ι β) (a : ι) (user : Uuid) (e : Event) (i : ι) (id : ConnId) :
    (c.sending a user e).pushed? i id =
      if i = a ∧ id ∈ (c.hubs a).registry.connectionsOf user then some e.render else none := rfl

/-- Turns that push one text whenever they are on a hub push it as often as they are. -/
private theorem filterMap_pushed {ts : List (Turn ι β)} {i : ι} {id : ConnId} {text : Option String}
    (each : ∀ t ∈ ts, t.pushed? i id = if t.hub = i then text else none) :
    ts.filterMap (·.pushed? i id) =
      text.elim [] fun x => List.replicate (ts.countP fun t => t.hub = i) x := by
  induction ts with
  | nil => cases text <;> rfl
  | cons t rest ih =>
    have first := each t List.mem_cons_self
    have later := ih fun u member => each u (List.mem_cons_of_mem _ member)
    rw [List.filterMap_cons, first, later]
    by_cases here : t.hub = i
    · cases text <;> simp [here, List.replicate_succ]
    · simp [here]

section Copies

variable {a : ι} {user : Uuid} {e : Event} {t : Turn ι β}

/-- A copy is a message received on a hub whose registry is sound, among hubs that still have the
names they had. -/
private theorem copy_facts (sound : c.Sound) (copy : t ∈ c.copies a user e moves) :
    t.before.Sound ∧ (∀ i, (t.before.hubs i).instanceId = (c.hubs i).instanceId) ∧
      t.op = .send (.receive (c.envelope a user e)) := by
  obtain ⟨turn, received⟩ := List.mem_filter.mp copy
  have sent := step_sound sound a (.send (.sendToUser user e))
  obtain ⟨before, configs⟩ := turn_before sent turn
  refine ⟨before, fun i => ?_, Turn.op_of_received (of_decide_eq_true received)⟩
  exact congrArg (·.instanceId) ((configs i).trans (step_config sound a _ i))

private theorem carrying_effect (sound : c.Sound)
    (carries : t ∈ c.sending a user e :: c.copies a user e moves) (i : ι) (id : ConnId) :
    (t.after.queues i).get? id = ((t.before.queues i).get? id).map fun conn =>
      match t.pushed? i id with
      | some text => (conn.push text).1
      | none => conn := by
  rcases List.mem_cons.mp carries with first | copy
  · rw [first]
    exact sending_effect sound rfl i id
  · obtain ⟨before, -, is⟩ := copy_facts sound copy
    exact sending_effect before is i id

variable (sound : c.Sound) (distinct : Function.Injective fun i => (c.hubs i).instanceId)
include sound distinct

/-- With distinct names, a hub pushes what it reads from a copy exactly when it is not the
sender. -/
theorem pushed_copy (copy : t ∈ c.copies a user e moves) (i : ι) (id : ConnId) :
    t.pushed? i id =
      if i = t.hub ∧ t.hub ≠ a ∧ id ∈ (t.before.hubs t.hub).registry.connectionsOf user then
        e.relayed?.map Json.Value.render
      else none := by
  obtain ⟨-, names, is⟩ := copy_facts sound copy
  have name : (t.before.site t.hub).hub.instanceId = (c.hubs t.hub).instanceId := names t.hub
  have fans : (t.before.site t.hub).fanOut t.op =
      (t.before.site t.hub).messageFanOut (c.envelope a user e) := by
    rw [is]
    rfl
  unfold Turn.pushed?
  rw [fans, envelope, Site.copy_fanOut, name]
  by_cases own : t.hub = a
  · rw [own, if_pos rfl]
    simp [FanOut.none]
  · have foreign : (c.hubs a).instanceId ≠ (c.hubs t.hub).instanceId :=
      fun same => own (distinct same).symm
    rw [if_neg foreign]
    cases e.relayed? with
    | none => simp [FanOut.none]
    | some p =>
      simp only [own, ne_eq, not_false_eq_true, true_and]
      rfl

/-- Whoever is pushed to belongs to the user. -/
private theorem pushed_owner (carries : t ∈ c.sending a user e :: c.copies a user e moves) {i : ι}
    {id : ConnId} (other : (t.before.site i).owner id ≠ some user) : t.pushed? i id = none := by
  rcases List.mem_cons.mp carries with first | copy
  · subst first
    rw [pushed_sending, if_neg]
    rintro ⟨rfl, theirs⟩
    exact other ((sound i).idsOwned user id theirs)
  · obtain ⟨before, -, -⟩ := copy_facts sound copy
    rw [pushed_copy sound distinct copy, if_neg]
    rintro ⟨rfl, -, theirs⟩
    exact other ((before t.hub).idsOwned user id theirs)

/-- Copies that come back to the sender add nothing to what it pushed. -/
private theorem carried_here (id : ConnId) : c.carried a user e moves a id =
    if id ∈ (c.hubs a).registry.connectionsOf user then [e.render] else [] := by
  have dropped : (c.copies a user e moves).filterMap (·.pushed? a id) = [] := by
    refine List.filterMap_eq_nil_iff.mpr fun t copy => ?_
    rw [pushed_copy sound distinct copy, if_neg]
    rintro ⟨own, foreign, -⟩
    exact foreign own.symm
  rw [carried, List.filterMap_cons, pushed_sending, dropped]
  by_cases theirs : id ∈ (c.hubs a).registry.connectionsOf user <;> simp [theirs]

/-- Each copy that another hub can read adds one push to whoever stays connected. -/
private theorem carried_there {i : ι} (foreign : i ≠ a) {id : ConnId}
    (stays : ∀ t ∈ c.copies a user e moves, t.hub = i →
      id ∈ (t.before.hubs i).registry.connectionsOf user) :
    c.carried a user e moves i id = match e.relayed? with
      | some p => List.replicate ((c.copies a user e moves).countP fun t => t.hub = i) p.render
      | none => [] := by
  have pushes : ∀ t ∈ c.copies a user e moves, t.pushed? i id =
      if t.hub = i then e.relayed?.map Json.Value.render else none := by
    intro t copy
    rw [pushed_copy sound distinct copy]
    by_cases there : t.hub = i
    · have theirs := stays t copy there
      subst there
      simp [foreign, theirs]
    · simp [there, Ne.symm there]
  rw [carried, List.filterMap_cons, pushed_sending, filterMap_pushed pushes]
  cases e.relayed? <;> simp [foreign]

end Copies

/-- An event that a hub sends to a user is delivered exactly once on every hub, in any run of hubs
with different names, on any bus. -/
theorem user_events_delivered_once (configs : ι → Config) (starts : ι → Nat) (queues : ι → Queues)
    (wired listening : ι → Bool) (bus : β)
    (distinct : Function.Injective fun i => (configs i).instanceId)
    (earlier later : List (ι × Op β)) (a : ι) (user : Uuid) (e : Event) :
    ((fresh configs starts queues wired listening bus).run earlier).DeliversOnce a user e later := by
  have started := fresh_sound configs starts queues wired listening bus
  have sound : ((fresh configs starts queues wired listening bus).run earlier).Sound :=
    run_sound started
  have names : (fun i => (((fresh configs starts queues wired listening bus).run earlier).hubs
      i).instanceId) = fun i => (configs i).instanceId :=
    funext fun i => congrArg (·.instanceId) (run_config started i)
  generalize (fresh configs starts queues wired listening bus).run earlier = c at sound names ⊢
  rw [← names] at distinct
  constructor
  · exact sending_bus c a user e
  · exact pushed_sending c a user e
  · intro t copy own i id
    rw [pushed_copy sound distinct copy, if_neg fun pushes => pushes.2.1 own]
  · intro t copy foreign i id
    rw [pushed_copy sound distinct copy]
    simp only [foreign, ne_eq, not_false_eq_true, true_and]
  · exact e.relayed_exact
  · exact fun t carries i id other => pushed_owner sound distinct carries other
  · exact fun t carries => carrying_effect sound carries
  · exact carried_here sound distinct
  · exact fun i id foreign stays => carried_there sound distinct foreign stays

/-- Two hubs on one bus, with a client of user 7 at each. -/
def pairOfHubs : Cluster Bool MemoryBus :=
  fresh (fun i => .trial ⟨if i then 1 else 2⟩) (fun _ => 0)
    (fun _ => [(⟨0⟩, { user := ⟨7⟩, capacity := 16 })]) (fun _ => true) (fun _ => true) .empty

/-- The user comes to both hubs. -/
def comesToBoth : List (Bool × Op MemoryBus) :=
  [(true, .roster (.register 0 ⟨0⟩)), (false, .roster (.register 0 ⟨0⟩))]

/-- Both hubs receive the envelope of the event that the first of them sent. -/
def relayedToBoth : List (Bool × Op MemoryBus) :=
  [false, true].map fun i =>
    (i, .send (.receive ((pairOfHubs.run comesToBoth).envelope true ⟨7⟩ (.online ⟨7⟩))))

/-- Each of the user's clients gets the event once, and it is all that waits in their queues. -/
theorem relayedToBoth_pushed_once :
    Function.Injective (fun i : Bool => (Config.trial ⟨if i then 1 else 2⟩).instanceId) ∧
      (pairOfHubs.run comesToBoth).carried true ⟨7⟩ (.online ⟨7⟩) relayedToBoth true ⟨0⟩ =
        [(Event.online ⟨7⟩).render] ∧
      (pairOfHubs.run comesToBoth).carried true ⟨7⟩ (.online ⟨7⟩) relayedToBoth false ⟨0⟩ =
        [(Event.online ⟨7⟩).freeForm.render] ∧
      let c := ((pairOfHubs.run comesToBoth).sending true ⟨7⟩ (.online ⟨7⟩)).after.run relayedToBoth
      [true, false].map (fun i => ((c.queues i).get? ⟨0⟩).map (·.pending)) =
        [some [(Event.online ⟨7⟩).render], some [(Event.online ⟨7⟩).freeForm.render]] := by
  have distinct : Function.Injective
      (fun i : Bool => (Config.trial ⟨if i then 1 else 2⟩).instanceId) := by decide
  have once : (pairOfHubs.run comesToBoth).DeliversOnce true ⟨7⟩ (.online ⟨7⟩) relayedToBoth :=
    user_events_delivered_once _ _ _ _ _ _ distinct comesToBoth relayedToBoth true ⟨7⟩ _
  have numberless : (Event.online ⟨7⟩).freeForm.numbers = [] := by decide +kernel
  have relayed : (Event.online ⟨7⟩).relayed? = some (Event.online ⟨7⟩).freeForm :=
    once.legible (by rw [numberless]; exact fun _ none => nomatch none) (by decide +kernel)
  have copies : (pairOfHubs.run comesToBoth).copies true ⟨7⟩ (.online ⟨7⟩) relayedToBoth =
      ((pairOfHubs.run comesToBoth).sending true ⟨7⟩ (.online ⟨7⟩)).after.turns relayedToBoth := by
    simp [Cluster.copies, relayedToBoth, turns, Turn.received?]
  have there := once.oncePerCopy false ⟨0⟩ (by decide) (by rw [copies]; decide +kernel)
  rw [relayed, copies] at there
  refine ⟨distinct, ?_, there, by decide +kernel⟩
  rw [once.onceHere]
  decide +kernel

end Cluster

end RoomRelay
