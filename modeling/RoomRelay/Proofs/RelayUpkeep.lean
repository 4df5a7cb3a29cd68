import RoomRelay.Fleet.Upkeep
import RoomRelay.Proofs.ResubscriptionGate

/-!
The relays of a fleet. What a hub of a fleet does with its relay at one instant are steps of the
relay with nothing between them: it loses its subscription, tries to get one, reads all that is
pending, or stops.
-/

namespace RoomRelay

/-! ## Reading all that is pending -/

namespace MemoryBus

/-- What is pending is the next message and what is pending then. -/
private theorem pending_cases (b : MemoryBus) (s : Subscription) :
    (∃ m s', b.next s = (some m, s') ∧ b.pending s = m :: b.pending s' ∧
      b.caughtUp s' = b.caughtUp s) ∨
    b.next s = (none, b.caughtUp s) ∧ b.pending s = [] := by
  rcases b.next_from s with ⟨passed, m, rest, split, accepted, skipped, next⟩ | ⟨skipped, nothing⟩
  · let s' : Subscription := { s with position := b.resume s + passed.length + 1 }
    have resumes : b.resume s' = b.resume s + passed.length + 1 := by
      simp only [resume, s']
      omega
    have behind : b.history.drop (b.resume s + passed.length + 1) = rest := by
      rw [Nat.add_assoc, ← List.drop_drop, split]
      simp
    have none : passed.filter (fun m => s.filter.accepts m.channel) = [] :=
      List.filter_eq_nil_iff.mpr fun n member => Bool.eq_false_iff.mp (skipped n member)
    refine .inl ⟨m, s', next, ?_, rfl⟩
    calc b.pending s
        = (passed ++ m :: rest).filter (fun m => s.filter.accepts m.channel) := by
          rw [pending, since_eq, split]
      _ = m :: rest.filter (fun m => s.filter.accepts m.channel) := by
          rw [List.filter_append, none, List.nil_append, List.filter_cons, if_pos accepted]
      _ = m :: b.pending s' := by rw [pending, since_eq, resumes, behind]
  · refine .inr ⟨nothing, ?_⟩
    rw [pending, since_eq]
    exact List.filter_eq_nil_iff.mpr fun n member => Bool.eq_false_iff.mp (skipped n member)

end MemoryBus

namespace Site

/-- Nothing of what is received goes back onto the bus. -/
private theorem receiveAll_bus {β : Type} (s : Site β) (messages : List BusMessage) :
    (messages.foldl receive s).bus = s.bus := by
  induction messages generalizing s with
  | nil => rfl
  | cons m rest ih => exact (ih (s.receive m)).trans (receive_bus s m)

end Site

namespace GatedHub

variable {ι : Type}

variable {h : GatedHub ι MemoryBus Subscription} {s : Subscription}

/-- A relay that goes on until nothing is pending has received all that was. -/
private theorem relaySteps_pending (reading : h.relay = .reading s) :
    h.relaySteps (List.replicate ((h.bus.pending s).length + 1) .goOn) =
      { h.put ((h.bus.pending s).foldl Site.receive h.site) with
        relay := .reading (h.bus.caughtUp s) } := by
  generalize waiting : h.bus.pending s = messages
  induction messages generalizing h s with
  | nil =>
    rcases h.bus.pending_cases s with ⟨m, s', -, more, -⟩ | ⟨nothing, -⟩
    · cases waiting.symm.trans more
    · have read : OrderedBus.next h.bus s = (none, h.bus.caughtUp s) := nothing
      simp [relaySteps, relayStep, reading, read, put, site]
  | cons m rest ih =>
    rcases h.bus.pending_cases s with ⟨m', s', gave, more, same⟩ | ⟨-, nothing⟩
    · obtain ⟨rfl, rest_⟩ := List.cons.inj (waiting.symm.trans more)
      have read : OrderedBus.next h.bus s = (some m, s') := gave
      let after := { h.put (h.site.receive m) with relay := .reading s' }
      have stepped : h.relayStep .goOn = after := by simp only [relayStep, reading, read, after]
      have bus : after.bus = h.bus := congrArg (·.getD h.bus) (Site.receive_bus ..)
      have site_ : after.site = h.site.receive m := site_put (Site.receive_bus ..)
      have later := ih (h := after) rfl (by rw [bus]; exact rest_.symm)
      have on : (rest.foldl Site.receive (h.site.receive m)).bus = some h.bus :=
        (Site.receiveAll_bus ..).trans (Site.receive_bus ..)
      rw [site_, bus, same] at later
      rw [relaySteps, List.length_cons, List.replicate_succ, List.foldl_cons, stepped]
      refine Eq.trans later ?_
      simp only [put, on, List.foldl_cons, after]
      rfl
    · cases waiting.symm.trans nothing

end GatedHub

/-! ## Hubs of a fleet -/

/-- The stage of a relay between the instants of a fleet. -/
def RelayState.stage? : RelayState → Option (RelayStage Subscription)
  | .absent => none
  | .attached s => some (.reading s)
  | .detached .. => some .detached
  | .stopped => some .stopped

namespace Fleet

variable {ι : Type} {f : Fleet} {name : String} {g : GatedHub ι MemoryBus Subscription}

/-- A hub of a fleet between two instants, before any broadcast. -/
def gated? (ι : Type) (f : Fleet) (name : String) : Option (GatedHub ι MemoryBus Subscription) :=
  match f.stations.get? name with
  | some ⟨hub, true, _, relay, _⟩ =>
    relay.stage?.map fun relay => { hub, queues := f.queues, bus := f.bus, relay }
  | _ => none

/-- What is done to the hub by itself. -/
private theorem gated_change (found : f.gated? ι name = some g) (op : LocalSite → LocalSite)
    {b : MemoryBus} (wired : (op g.site).bus = some b) :
    (f.change name op).gated? ι name = some (g.put (op g.site)) := by
  unfold gated? at found
  split at found
  · rename_i hub store relay due standing
    obtain ⟨stage, at_, rfl⟩ := Option.map_eq_some_iff.mp found
    simp only [GatedHub.site] at wired
    simp [change, visit, site?, standing, putSite, gated?, Table.get?_modify, at_, GatedHub.put, GatedHub.site, wired]
  · cases found

private theorem gated_setRelay {r : RelayState} {relay : RelayStage Subscription}
    (found : f.gated? ι name = some g) (at_ : r.stage? = some relay) :
    (f.setRelay name r).gated? ι name = some { g with relay } := by
  unfold gated? at found
  split at found
  · rename_i hub store before due standing
    obtain ⟨stage, -, rfl⟩ := Option.map_eq_some_iff.mp found
    simp [setRelay, gated?, Table.get?_modify, standing, at_]
  · cases found

/-- Nobody has the gate then, no broadcast has begun, and the relay reads, has no subscription, or
has stopped. -/
private theorem gated_rests (found : f.gated? ι name = some g) :
    g.bus = f.bus ∧ g.gate = .nobody ∧ (∀ p, g.stage p = .asking) ∧
      ((∃ s, g.relay = .reading s) ∨ g.relay = .detached ∨ g.relay = .stopped) := by
  unfold gated? at found
  split at found
  · rename_i hub store relay due standing
    obtain ⟨stage, at_, rfl⟩ := Option.map_eq_some_iff.mp found
    refine ⟨rfl, rfl, fun _ => rfl, ?_⟩
    cases relay with
    | absent => cases at_
    | attached s => cases at_; exact .inl ⟨s, rfl⟩
    | detached nextAttempt pause => cases at_; exact .inr (.inl rfl)
    | stopped => cases at_; exact .inr (.inr rfl)
  · cases found

private theorem gated_setSubscribed (found : f.gated? ι name = some g) (on : Bool) :
    (f.setSubscribed name on).gated? ι name = some (g.setSubscribed on) :=
  gated_change found _ rfl

/-- A relay that tries to subscribe. -/
theorem attach_gated (found : f.gated? ι name = some g) (detached : g.relay = .detached)
    (pause : Duration) :
    (f.attach name pause).gated? ι name = some (g.relaySteps (match f.subscribe with
      | .ok _ => [.goOn, .goOn, .goOn, .goOn]
      | .error _ => [.goOn, .refuse, .goOn])) := by
  obtain ⟨sameBus, free, -, -⟩ := gated_rests found
  unfold attach
  cases answer : f.subscribe with
  | ok s =>
    have subscribes : OrderedBus.subscribe g.bus relayFilter = .ok s := by
      simp only [subscribe] at answer
      split at answer
      · cases answer
      · rw [sameBus]
        exact answer
    have attached := gated_setRelay (r := .attached s) found rfl
    rw [GatedHub.relaySteps_subscribe detached free subscribes]
    exact gated_setSubscribed attached true
  | error failure =>
    have still : { g with relay := .detached } = g := by
      obtain ⟨hub, queues, bus, gate, stage, placed, relay⟩ := g
      subst detached
      rfl
    rw [GatedHub.relaySteps_refuse detached free, gated_setRelay (r := .detached ..) found rfl, still]

/-- A relay that reads all that is pending. -/
theorem drain_gated {s : Subscription} (found : f.gated? ι name = some g)
    (reading : g.relay = .reading s) :
    (f.drain name s).gated? ι name =
      some (g.relaySteps (List.replicate ((f.bus.pending s).length + 1) .goOn)) := by
  obtain ⟨sameBus, -, -, -⟩ := gated_rests found
  rw [← sameBus, GatedHub.relaySteps_pending reading]
  have caughtUp := gated_setRelay (r := .attached (g.bus.caughtUp s)) found rfl
  have received := gated_change caughtUp (fun site => (g.bus.pending s).foldl Site.receive site)
    (Site.receiveAll_bus ..)
  rw [drain, ← sameBus]
  exact received

/-- A relay that loses its subscription. -/
theorem loseSubscription_gated {s : Subscription} (found : f.gated? ι name = some g)
    (reading : g.relay = .reading s) :
    (f.loseSubscription name).gated? ι name = some (g.relaySteps [.lose, .goOn]) := by
  have lost : f.loseSubscription name =
      (f.setRelay name (.detached f.clock firstPause)).setSubscribed name false := by
    unfold gated? at found
    split at found
    · rename_i hub store relay due standing
      obtain ⟨stage, at_, rfl⟩ := Option.map_eq_some_iff.mp found
      obtain rfl : stage = .reading s := reading
      cases relay with
      | attached _ => simp only [loseSubscription, standing]
      | absent => cases at_
      | detached _ _ => cases at_
      | stopped => cases at_
    · cases found
  have detached := gated_setRelay (r := .detached f.clock firstPause) found rfl
  rw [lost, gated_setSubscribed detached false]
  simp only [GatedHub.relaySteps, List.foldl, GatedHub.relayStep, reading]
  rfl

/-- A relay that stops. -/
theorem stop_gated (found : f.gated? ι name = some g) (runs : g.relay ≠ .stopped) :
    ((f.setRelay name .stopped).change name Site.stopRelay).gated? ι name =
      some (g.relaySteps [.stop, .goOn]) := by
  have stopped := gated_setRelay (r := .stopped) found rfl
  rw [gated_change stopped Site.stopRelay rfl]
  obtain ⟨-, -, -, ⟨s, reading⟩ | detached | finished⟩ := gated_rests found
  · simp only [GatedHub.relaySteps, List.foldl, GatedHub.relayStep, reading]
    rfl
  · simp only [GatedHub.relaySteps, List.foldl, GatedHub.relayStep, detached]
    rfl
  · cases runs finished

/-- A broadcast. -/
theorem broadcast_gated [DecidableEq ι] (said : ι → Announcement) (p : ι)
    (found : f.gated? ι name = some g) :
    ((f.change name fun s => (s.broadcast (said p).room (said p).event).1).gated? ι name).map
        GatedHub.site = some (g.run said (List.replicate 6 (.call p))).site := by
  obtain ⟨-, free, asking, -⟩ := gated_rests found
  have on := Site.broadcast_bus g.site (said p).room (said p).event
  have steps := congrArg Prod.fst (GatedHub.call_in_one_go said (asking p) free)
  rw [gated_change found _ on, Option.map_some, GatedHub.site_put on]
  exact congrArg some steps.symm

end Fleet

end RoomRelay
