import Mathlib.Logic.Function.Basic
import RoomRelay.Proofs.Operation

/-!
Hubs on one bus, in any number, with all their steps in any order. A step is an operation on one
hub: it changes that hub, the queues of that hub's connections, and the bus. Connections belong to
the hub they are made on, so each hub has a table of queues of its own.
-/

namespace RoomRelay

/-- Hubs on one bus. -/
structure Cluster (ι β : Type) where
  hubs : ι → Hub
  queues : ι → Queues
  /-- Whether a hub is on the bus. -/
  wired : ι → Bool
  bus : β

namespace Cluster

variable {ι β : Type}

/-- One of the hubs, in its surroundings. -/
def site (c : Cluster ι β) (i : ι) : Site β :=
  { hub := c.hubs i, queues := c.queues i, bus := if c.wired i then some c.bus else none }

/-- All registries are sound. -/
def Sound (c : Cluster ι β) : Prop := ∀ i, (c.hubs i).registry.Sound (c.site i).owner

variable [DecidableEq ι]

/-- The cluster with one hub and its surroundings changed. -/
def put (c : Cluster ι β) (i : ι) (s : Site β) : Cluster ι β :=
  { c with
    hubs := Function.update c.hubs i s.hub
    queues := Function.update c.queues i s.queues
    bus := s.bus.getD c.bus }

@[simp] theorem put_hub_same (c : Cluster ι β) (i : ι) (s : Site β) : (c.put i s).hubs i = s.hub :=
  Function.update_self ..

@[simp] theorem put_queues_same (c : Cluster ι β) (i : ι) (s : Site β) :
    (c.put i s).queues i = s.queues :=
  Function.update_self ..

variable {i j : ι}

theorem put_hub_other (different : j ≠ i) (c : Cluster ι β) (s : Site β) :
    (c.put i s).hubs j = c.hubs j :=
  Function.update_of_ne different ..

theorem put_queues_other (different : j ≠ i) (c : Cluster ι β) (s : Site β) :
    (c.put i s).queues j = c.queues j :=
  Function.update_of_ne different ..

/-- Only the queues decide whose a connection is. -/
private theorem put_owner_same (c : Cluster ι β) (i : ι) (s : Site β) :
    ((c.put i s).site i).owner = s.owner := by
  funext id
  simp [Site.owner, site]

private theorem put_owner_other (different : j ≠ i) (c : Cluster ι β) (s : Site β) :
    ((c.put i s).site j).owner = (c.site j).owner := by
  funext id
  simp [Site.owner, site, put_queues_other different]

variable [SharedBus β]

/-- The cluster after an operation on one hub. -/
def step (c : Cluster ι β) (i : ι) (op : Op β) : Cluster ι β := c.put i ((c.site i).act op)

/-- The cluster after a run. -/
def run (c : Cluster ι β) (moves : List (ι × Op β)) : Cluster ι β :=
  moves.foldl (fun c m => c.step m.1 m.2) c

variable {c : Cluster ι β}

theorem step_sound (sound : c.Sound) (i : ι) (op : Op β) : (c.step i op).Sound := by
  intro j
  by_cases same : j = i
  · subst same
    have acted := Site.act_sound (s := c.site j) (sound j) op
    rw [step, put_owner_same, put_hub_same]
    exact acted
  · rw [step, put_owner_other same, put_hub_other same]
    exact sound j

/-- Only a part of a hub's end stops it or its relay. -/
theorem step_flags (sound : c.Sound) (i : ι) (op : Op β) (goesOn : ∀ x, op ≠ .ending x) (j : ι) :
    ((c.step i op).hubs j).subscribed = (c.hubs j).subscribed ∧
      ((c.step i op).hubs j).stopped = (c.hubs j).stopped := by
  by_cases same : j = i
  · subst same
    rw [step, put_hub_same]
    exact Site.act_flags (s := c.site j) (sound j) op goesOn
  · rw [step, put_hub_other same]
    exact ⟨rfl, rfl⟩

/-- No step changes the configuration of a hub. -/
theorem step_config (sound : c.Sound) (i : ι) (op : Op β) (j : ι) :
    ((c.step i op).hubs j).config = (c.hubs j).config := by
  by_cases same : j = i
  · subst same
    rw [step, put_hub_same]
    exact Site.act_config (s := c.site j) (sound j) op
  · rw [step, put_hub_other same]

/-! ## Runs -/

variable {moves : List (ι × Op β)}

theorem run_sound (sound : c.Sound) : (c.run moves).Sound := by
  induction moves generalizing c with
  | nil => exact sound
  | cons m rest ih => exact ih (step_sound sound m.1 m.2)

theorem run_config (sound : c.Sound) (j : ι) :
    ((c.run moves).hubs j).config = (c.hubs j).config := by
  induction moves generalizing c with
  | nil => rfl
  | cons m rest ih => exact (ih (step_sound sound m.1 m.2)).trans (step_config sound m.1 m.2 j)

end Cluster

end RoomRelay
