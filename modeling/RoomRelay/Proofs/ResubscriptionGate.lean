import Mathlib.Logic.Function.Basic
import RoomRelay.Proofs.OrderedBus

/-!
A hub whose broadcasts and whose relay go on step by step, in any interleaving. A broadcast looks
whether the relay listens, publishes when it does, and otherwise takes a gate, looks again, and
delivers and publishes before it gives the gate back. The relay reads from its subscription; when
that ends it says that it listens no longer, takes the gate, subscribes, says that it listens again,
and gives the gate back. Done in one go the steps of a broadcast are the broadcast of the hub.
-/

namespace RoomRelay

open OrderedBus (history subscribe next place Grows)

/-- An event that is broadcast to a room. -/
structure Announcement where
  room : Uuid
  event : Event

namespace Announcement

def text (a : Announcement) : String := a.event.render

/-- What is published of it. -/
def message (a : Announcement) : BusMessage := Site.roomMessage a.room a.text

end Announcement

/-- How far a broadcast, a call of `publish_to_room`, has come. -/
inductive CallStage where
  /-- It has not looked yet whether the relay listens. -/
  | asking
  /-- The relay did not listen: it waits for the gate. -/
  | waiting
  /-- It has the gate and looks again. -/
  | holding
  /-- The relay listens after all: it gives the gate back. -/
  | yielding
  /-- The relay does not listen: it delivers here. -/
  | delivering
  /-- It has delivered here and publishes for the others. -/
  | sharing (stats : DeliveryStats)
  /-- It has published and gives the gate back. -/
  | leaving (stats : DeliveryStats)
  /-- The relay listened: it publishes, and leaves delivering to the relay. -/
  | publishing
  /-- Publishing failed: it delivers here. -/
  | refused
  | done (result : RoomDelivery)

namespace CallStage

/-- Whether it has the gate. -/
def holdsGate : CallStage → Bool
  | holding | yielding | delivering | sharing _ | leaving _ => true
  | asking | waiting | publishing | refused | done _ => false

/-- Whether it has seen, with the gate in hand, that the relay does not listen, and is not yet done
with what depends on it. -/
def unheard : CallStage → Bool
  | delivering | sharing _ => true
  | _ => false

/-- Whether its next step delivers here. -/
def delivers : CallStage → Bool
  | delivering | refused => true
  | _ => false

/-- Whether it may still deliver here or leave that to the relay. -/
def undecided : CallStage → Bool
  | asking | waiting | holding | yielding | delivering | publishing | refused => true
  | sharing _ | leaving _ | done _ => false

/-- Whether the bus has not accepted the event yet. -/
def unpublished : CallStage → Bool
  | leaving _ | done _ => false
  | _ => true

theorem holdsGate_of_unheard {stage : CallStage} (unheard : stage.unheard = true) :
    stage.holdsGate = true := by
  cases stage with
  | delivering => rfl
  | sharing _ => rfl
  | asking => cases unheard
  | waiting => cases unheard
  | holding => cases unheard
  | yielding => cases unheard
  | leaving _ => cases unheard
  | publishing => cases unheard
  | refused => cases unheard
  | done _ => cases unheard

end CallStage

/-- How a relay, the task of `run`, stands with its subscription. -/
inductive RelayStage (σ : Type) where
  | reading (s : σ)
  /-- The subscription has ended; the hub does not know yet. -/
  | ended
  /-- There is no subscription, and the hub knows. -/
  | detached
  /-- It has the gate and is about to subscribe. -/
  | subscribing
  /-- It has subscribed; the hub does not know yet. -/
  | opened (s : σ)
  /-- The hub knows how it went; it gives the gate back. -/
  | returning (s : Option σ)
  /-- It is to stop; the hub does not know yet. -/
  | stopping
  | stopped

namespace RelayStage

variable {σ : Type}

/-- Whether it has the gate. -/
def holdsGate : RelayStage σ → Bool
  | subscribing | opened _ | returning _ => true
  | reading _ | ended | detached | stopping | stopped => false

/-- Whether it has a subscription that the hub knows of. -/
def listens : RelayStage σ → Bool
  | reading _ => true
  | returning s => s.isSome
  | ended | detached | subscribing | opened _ | stopping | stopped => false

/-- The subscription it reads from now or next. -/
def stream? : RelayStage σ → Option σ
  | reading s | opened s => some s
  | returning s => s
  | ended | detached | subscribing | stopping | stopped => none

/-- A subscription that the hub does not know of was made with the gate in hand. -/
theorem listens_or_holdsGate {r : RelayStage σ} {s : σ} (reads : r.stream? = some s) :
    r.listens = true ∨ r.holdsGate = true := by
  cases r with
  | reading _ => exact .inl rfl
  | opened _ => exact .inr rfl
  | returning _ => exact .inr rfl
  | ended => cases reads
  | detached => cases reads
  | subscribing => cases reads
  | stopping => cases reads
  | stopped => cases reads

theorem silent_of_no_stream {r : RelayStage σ} (none : r.stream? = none) : r.listens = false := by
  cases r with
  | reading s => cases none
  | returning s =>
    cases s with
    | some s => cases none
    | none => rfl
  | _ => rfl

end RelayStage

/-- Who has the gate. -/
inductive GateHolder (ι : Type) where
  | nobody
  | call (p : ι)
  | relay
deriving DecidableEq

/-- A step of the relay. What it does goes by its stage, except where something else may befall it:
its subscription ends, a new one is refused, or it is told to stop. -/
inductive RelayStep where
  | goOn | lose | refuse | stop

/-- A step on the hub or on its bus. -/
inductive GateMove (ι β : Type) where
  /-- A broadcast goes on. -/
  | call (p : ι)
  | relay (x : RelayStep)
  /-- Something else happens on the hub. -/
  | aside (op : Op β)
  /-- Others use the bus, or it fails, or works again. -/
  | turn (b : β)

/-- A hub with its broadcasts on their way. -/
structure GatedHub (ι β σ : Type) where
  hub : Hub
  queues : Queues
  bus : β
  gate : GateHolder ι := .nobody
  stage : ι → CallStage := fun _ => .asking
  /-- Where on the bus the event of a broadcast stands, once it was accepted. -/
  placed : ι → Option Nat := fun _ => none
  relay : RelayStage σ

namespace GatedHub

variable {ι β σ : Type} (said : ι → Announcement)

/-- The hub by itself. -/
def site (h : GatedHub ι β σ) : Site β := ⟨h.hub, h.queues, some h.bus⟩

/-- The hub once something was done to it by itself. -/
def put (h : GatedHub ι β σ) (s : Site β) : GatedHub ι β σ :=
  { h with hub := s.hub, queues := s.queues, bus := s.bus.getD h.bus }

/-- A hub just started, whose relay has not subscribed yet. -/
def started (config : Config) (now : Nat) (queues : Queues) (b : β) : GatedHub ι β σ :=
  { hub := .start config now, queues, bus := b, relay := .detached }

/-- The hub knows whether its relay listens. -/
def setSubscribed (h : GatedHub ι β σ) (on : Bool) : GatedHub ι β σ :=
  { h with hub := { h.hub with subscribed := on } }

theorem site_put {h : GatedHub ι β σ} {s : Site β} {b : β} (on : s.bus = some b) :
    (h.put s).site = s := by
  obtain ⟨hub, queues, bus⟩ := s
  subst on
  rfl

/-- A broadcast delivers to the hub's own clients. -/
def deliver (h : GatedHub ι β σ) (p : ι) : GatedHub ι β σ × DeliveryStats :=
  let (s, stats) := h.site.localBroadcast (said p).room (said p).text
  (h.put s, stats)

/-- Delivering here is the hub's own delivery to the room. -/
private theorem deliver_spec (h : GatedHub ι β σ) (p : ι) :
    ((h.deliver said p).1.site, (h.deliver said p).2) =
      h.site.localBroadcast (said p).room (said p).text :=
  Prod.ext (site_put (b := h.bus) (Site.pushAll_bus ..)) rfl

section Stages

variable [DecidableEq ι]

def setStage (h : GatedHub ι β σ) (p : ι) (stage : CallStage) : GatedHub ι β σ :=
  { h with stage := Function.update h.stage p stage }

@[simp] theorem setStage_stage (h : GatedHub ι β σ) (p : ι) (stage : CallStage) :
    (h.setStage p stage).stage p = stage := Function.update_self ..

@[simp] theorem setStage_site (h : GatedHub ι β σ) (p : ι) (stage : CallStage) :
    (h.setStage p stage).site = h.site := rfl

/-- The event of a broadcast was accepted and stands on the bus. -/
def setPlaced (h : GatedHub ι β σ) (p : ι) (k : Nat) : GatedHub ι β σ :=
  { h with placed := Function.update h.placed p (some k) }

theorem setStage_of_ne {h : GatedHub ι β σ} {p q : ι} {stage : CallStage} (other : q ≠ p) :
    (h.setStage p stage).stage q = h.stage q := Function.update_of_ne other ..

theorem setPlaced_iff {h : GatedHub ι β σ} {p q : ι} {i k : Nat} :
    (h.setPlaced p k).placed q = some i ↔ q = p ∧ i = k ∨ q ≠ p ∧ h.placed q = some i := by
  rcases eq_or_ne q p with rfl | other
  · simp [setPlaced, eq_comm]
  · simp [setPlaced, other]

end Stages

variable [OrderedBus β σ]

/-- A step of the relay: what `run` does between two of its awaits. -/
def relayStep (h : GatedHub ι β σ) (x : RelayStep) : GatedHub ι β σ :=
  match h.relay, x with
  | .reading s, .goOn =>
    match next h.bus s with
    | (some m, s) => { h.put (h.site.receive m) with relay := .reading s }
    | (none, s) => { h with relay := .reading s }
  | .reading _, .lose => { h with relay := .ended }
  | .ended, _ => { h.setSubscribed false with relay := .detached }
  | .reading _, .stop | .detached, .stop => { h with relay := .stopping }
  | .detached, .goOn =>
    match h.gate with
    | .nobody => { h with gate := .relay, relay := .subscribing }
    | _ => h
  | .subscribing, .goOn =>
    match subscribe h.bus relayFilter with
    | .ok s => { h with relay := .opened s }
    | .error _ => { h with relay := .returning none }
  | .subscribing, .refuse => { h with relay := .returning none }
  | .opened s, _ => { h.setSubscribed true with relay := .returning (some s) }
  | .returning (some s), _ => { h with gate := .nobody, relay := .reading s }
  | .returning none, _ => { h with gate := .nobody, relay := .detached }
  | .stopping, _ => { h.put h.site.stopRelay with relay := .stopped }
  | _, _ => h

/-- Steps of the relay with nothing between them. -/
def relaySteps (h : GatedHub ι β σ) (steps : List RelayStep) : GatedHub ι β σ :=
  steps.foldl relayStep h

/-- A relay without a subscription that gets one reads from it, and the hub knows. -/
theorem relaySteps_subscribe {h : GatedHub ι β σ} {s : σ} (detached : h.relay = .detached)
    (free : h.gate = .nobody) (subscribes : subscribe h.bus relayFilter = .ok s) :
    h.relaySteps [.goOn, .goOn, .goOn, .goOn] =
      { h.setSubscribed true with relay := .reading s } := by
  obtain ⟨hub, queues, bus, gate, stage, placed, relay⟩ := h
  subst detached free
  simp [relaySteps, relayStep, subscribes, setSubscribed]

/-- One that gets none is as it was. -/
theorem relaySteps_refuse {h : GatedHub ι β σ} (detached : h.relay = .detached)
    (free : h.gate = .nobody) : h.relaySteps [.goOn, .refuse, .goOn] = h := by
  obtain ⟨hub, queues, bus, gate, stage, placed, relay⟩ := h
  subst detached free
  rfl

/-- The relay leaves the bus as it is. -/
private theorem relayStep_bus (h : GatedHub ι β σ) (x : RelayStep) :
    (h.relayStep x).bus = h.bus := by
  unfold relayStep
  split
  -- Besides the message that is read, only the gate and the new subscription are looked at.
  any_goals rfl
  · split
    · exact congrArg (·.getD h.bus) (Site.receive_bus ..)
    · rfl
  · split <;> rfl
  · split <;> rfl

variable [SharedBus β] [DecidableEq ι]

/-- A broadcast publishes its event. -/
def publish (h : GatedHub ι β σ) (p : ι) : GatedHub ι β σ × Bool :=
  match h.site.publishOn h.bus .room (said p).message with
  | (s, true) => ((h.put s).setPlaced p (history h.bus).length, true)
  | (s, false) => (h.put s, false)

@[simp] theorem publish_gate (h : GatedHub ι β σ) (p : ι) : (h.publish said p).1.gate = h.gate := by
  unfold publish
  split <;> rfl

@[simp] theorem publish_stage (h : GatedHub ι β σ) (p : ι) :
    (h.publish said p).1.stage = h.stage := by
  unfold publish
  split <;> rfl

/-- A step of a broadcast: what `publish_to_room` does between two of its awaits. -/
def callStep (h : GatedHub ι β σ) (p : ι) : GatedHub ι β σ :=
  match h.stage p with
  | .asking => h.setStage p (if h.hub.subscribed then .publishing else .waiting)
  | .waiting =>
    match h.gate with
    | .nobody => { h.setStage p .holding with gate := .call p }
    | _ => h
  | .holding => h.setStage p (if h.hub.subscribed then .yielding else .delivering)
  | .yielding => { h.setStage p .publishing with gate := .nobody }
  | .delivering =>
    let (h, stats) := h.deliver said p
    h.setStage p (.sharing stats)
  | .sharing stats => (h.publish said p).1.setStage p (.leaving stats)
  | .leaving stats => { h.setStage p (.done (.onsite stats)) with gate := .nobody }
  | .publishing =>
    let (h, accepted) := h.publish said p
    h.setStage p (if accepted then .done .relayed else .refused)
  | .refused =>
    let (h, stats) := h.deliver said p
    h.setStage p (.done (.onsite stats))
  | .done _ => h

/-- A step. The bus may turn into one on which messages were added, at most; what else happens on
the hub is what is aside of broadcasts and the relay. -/
def step (h : GatedHub ι β σ) : GateMove ι β → GatedHub ι β σ
  | .call p => h.callStep said p
  | .relay x => h.relayStep x
  | .aside op => if op.Aside then h.put (h.site.act op) else h
  | .turn b => if Grows h.bus b then { h with bus := b } else h

/-- The hub after a run. -/
def run (h : GatedHub ι β σ) (moves : List (GateMove ι β)) : GatedHub ι β σ :=
  moves.foldl (step said) h

/-! ## In one go -/

variable {h : GatedHub ι β σ}

theorem run_relay (h : GatedHub ι β σ) (steps : List RelayStep) :
    h.run said (steps.map .relay) = h.relaySteps steps := List.foldl_map

variable {p : ι}

/-- Publishing is the hub's own. -/
private theorem publish_spec (h : GatedHub ι β σ) (p : ι) :
    ((h.publish said p).1.site, (h.publish said p).2) =
      h.site.publishOn h.bus .room (said p).message := by
  have on := Site.publishOn_bus h.site h.bus .room (said p).message
  unfold publish
  split
  · rename_i published
    rw [published] at on ⊢
    exact Prod.ext (site_put on) rfl
  · rename_i published
    rw [published] at on ⊢
    exact Prod.ext (site_put on) rfl

private theorem publish_queues (h : GatedHub ι β σ) (p : ι) :
    (h.publish said p).1.queues = h.queues := by
  have published := congrArg (·.1.queues) (publish_spec said h p)
  exact published.trans (Site.publishOn_queues ..)

/-- Of the steps of a broadcast only those that deliver touch the queues. -/
theorem callStep_queues (h : GatedHub ι β σ) (p : ι) :
    (h.callStep said p).queues =
      if (h.stage p).delivers then (h.deliver said p).1.queues else h.queues := by
  cases at_ : h.stage p with
  | waiting =>
    simp only [callStep, at_]
    cases h.gate <;> rfl
  | sharing stats =>
    simp only [callStep, at_]
    exact publish_queues said h p
  | publishing =>
    simp only [callStep, at_]
    exact publish_queues said h p
  | _ =>
    simp only [callStep, at_]
    rfl

private theorem run_call (h : GatedHub ι β σ) (n : Nat) :
    h.run said (List.replicate (n + 1) (.call p)) =
      (h.callStep said p).run said (List.replicate n (.call p)) := rfl

private theorem run_done {result : RoomDelivery} (done : h.stage p = .done result) (n : Nat) :
    h.run said (List.replicate n (.call p)) = h := by
  induction n with
  | zero => rfl
  | succ n ih => rw [run_call, callStep, done, ih]

/-- From where it is about to publish, a broadcast is one while the relay listens. -/
private theorem publishing_in_one_go (publishing : h.stage p = .publishing) (n : Nat) :
    ((h.run said (List.replicate (n + 2) (.call p))).site,
        (h.run said (List.replicate (n + 2) (.call p))).stage p) =
      ((h.site.relayBroadcast h.bus (said p).room (said p).text).1,
        .done (h.site.relayBroadcast h.bus (said p).room (said p).text).2) := by
  have published := publish_spec said h p
  simp only [Site.relayBroadcast]
  rw [run_call, callStep, publishing, ← Announcement.message, ← published]
  cases answer : h.publish said p with
  | mk after accepted =>
    cases accepted with
    | true => simp only [if_true, run_done said (setStage_stage after p _), setStage_site, setStage_stage]
    | false =>
      simp only [Bool.false_eq_true, if_false, run_call, callStep, setStage_stage]
      have delivered := deliver_spec said (after.setStage p .refused) p
      simp only [run_done said (setStage_stage _ p _), setStage_site, setStage_stage] at delivered ⊢
      rw [← delivered]

private theorem sharing_in_one_go {stats : DeliveryStats} (sharing : h.stage p = .sharing stats) :
    (h.run said [.call p, .call p]).site = (h.site.publishOn h.bus .room (said p).message).1 ∧
      (h.run said [.call p, .call p]).stage p = .done (.onsite stats) := by
  have published := congrArg Prod.fst (publish_spec said h p)
  have shared : h.run said [.call p, .call p] =
      { ((h.publish said p).1.setStage p (.leaving stats)).setStage p (.done (.onsite stats)) with
        gate := .nobody } := by
    simp only [run, List.foldl, step, callStep, sharing, setStage_stage]
  rw [shared]
  exact ⟨published, setStage_stage _ p _⟩

/-- From where it is about to deliver, it is one while the relay does not listen. -/
private theorem delivering_in_one_go (delivering : h.stage p = .delivering) :
    ((h.run said (List.replicate 3 (.call p))).site,
        (h.run said (List.replicate 3 (.call p))).stage p) =
      ((h.site.fallbackBroadcast h.bus (said p).room (said p).text).1,
        .done (h.site.fallbackBroadcast h.bus (said p).room (said p).text).2) := by
  have bus : (h.deliver said p).1.bus = h.bus := congrArg (·.getD h.bus) (Site.pushAll_bus ..)
  simp only [Site.fallbackBroadcast]
  rw [run_call, callStep, delivering, ← deliver_spec]
  generalize h.deliver said p = after at bus
  obtain ⟨shared, done⟩ := sharing_in_one_go said
    (setStage_stage after.1 p (.sharing after.2))
  rw [← bus]
  exact Prod.ext shared done

/-- A broadcast that waits for the gate takes it when nobody has it. -/
private theorem waiting_in_one_go (waiting : h.stage p = .waiting) (free : h.gate = .nobody)
    (unheard : h.hub.subscribed = false) :
    h.run said [.call p, .call p] =
      { (h.setStage p .holding).setStage p .delivering with gate := .call p } := by
  simp [run, step, callStep, waiting, free, unheard, setStage]

/-- The steps of a broadcast, with nothing between them, are the broadcast of the hub. -/
theorem call_in_one_go (asking : h.stage p = .asking) (free : h.gate = .nobody) :
    ((h.run said (List.replicate 6 (.call p))).site,
        (h.run said (List.replicate 6 (.call p))).stage p) =
      ((h.site.broadcast (said p).room (said p).event).1,
        .done (h.site.broadcast (said p).room (said p).event).2) := by
  have goes : h.site.broadcast (said p).room (said p).event =
      if h.hub.subscribed then h.site.relayBroadcast h.bus (said p).room (said p).text
      else h.site.fallbackBroadcast h.bus (said p).room (said p).text := rfl
  rw [goes, run_call, callStep, asking]
  by_cases listening : h.hub.subscribed = true
  · simp only [if_pos listening]
    exact publishing_in_one_go said (setStage_stage h p .publishing) 3
  · simp only [if_neg listening]
    have holds := waiting_in_one_go said (setStage_stage h p .waiting) free
      (Bool.eq_false_iff.mpr listening)
    have apart : List.replicate 5 (.call p : GateMove ι β) =
        [.call p, .call p] ++ List.replicate 3 (.call p) := rfl
    rw [apart, run, List.foldl_append, ← run, ← run, holds]
    exact delivering_in_one_go said (setStage_stage _ p .delivering)

/-! ## The bus -/

section Bus

variable [HonestBus β σ]

private theorem callStep_grows (h : GatedHub ι β σ) (p : ι) :
    Grows h.bus (h.callStep said p).bus := by
  have delivered (h : GatedHub ι β σ) : (h.deliver said p).1.bus = h.bus :=
    congrArg (·.getD h.bus) (Site.pushAll_bus ..)
  have published : Grows h.bus (h.publish said p).1.bus := by
    have on : (h.publish said p).1.site.bus = some (SharedBus.publish h.bus (said p).message).1 := by
      rw [← Site.publishOn_bus h.site, ← publish_spec]
    exact Option.some.inj on ▸ publish_grows ..
  unfold callStep
  split
  · exact .refl h.bus
  · split
    · exact .refl h.bus
    · exact .refl h.bus
  · exact .refl h.bus
  · exact .refl h.bus
  · exact .of_eq (congrArg history (delivered h))
  · exact published
  · exact .refl h.bus
  · exact published
  · exact .of_eq (congrArg history (delivered h))
  · exact .refl h.bus

/-- Messages are only added. -/
private theorem step_grows (h : GatedHub ι β σ) (m : GateMove ι β) :
    Grows h.bus (h.step said m).bus := by
  cases m with
  | call p => exact callStep_grows said h p
  | relay x => exact .of_eq (congrArg history (relayStep_bus h x))
  | aside op =>
    by_cases aside : op.Aside = true
    · obtain ⟨b, on, grows⟩ := Site.aside_grows (s := h.site) rfl aside
      simp only [step, if_pos aside, put, on]
      exact grows
    · simp only [step, if_neg aside]
      exact .refl h.bus
  | turn b =>
    by_cases grows : Grows h.bus b
    · simp only [step, if_pos grows]
      exact grows
    · simp only [step, if_neg grows]
      exact .refl h.bus

theorem run_grows (h : GatedHub ι β σ) (moves : List (GateMove ι β)) :
    Grows h.bus (h.run said moves).bus := by
  induction moves generalizing h with
  | nil => exact .refl h.bus
  | cons m rest ih => exact (step_grows said h m).trans (ih (h.step said m))

end Bus

end GatedHub

end RoomRelay
