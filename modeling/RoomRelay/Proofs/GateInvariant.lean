import RoomRelay.Proofs.ResubscriptionGate

/-!
The ways by which texts come to the connections of a hub whose broadcasts and relay go on step by
step, and what holds between any two steps: who has the gate, what the hub knows of the subscription,
where events stand on the bus, and which ways are closed. It is shown of the parts that steps are
made of, then of each step of a broadcast and of the relay, and so of every run.
-/

namespace RoomRelay

open OrderedBus (history subscribe next place Grows)

/-- A way by which a text comes to the connections of a hub. -/
inductive Path (ι : Type) where
  /-- A broadcast delivers its event itself. -/
  | direct (p : ι)
  /-- The relay hands over the message that stands at a place on the bus. -/
  | relayed (k : Nat)
deriving DecidableEq

/-- Whether it is a way of the event of a broadcast, by the places where events stand. -/
def Path.bears {ι : Type} [DecidableEq ι] (placed : ι → Option Nat) (p : ι) : Path ι → Bool
  | .direct q => q = p
  | .relayed k => placed p = some k

namespace GatedHub

variable {ι β σ : Type} [OrderedBus β σ]

section Deliveries

variable [DecidableEq ι] [SharedBus β] (said : ι → Announcement)

/-- What a step delivers, and by which way. -/
def delivery? (h : GatedHub ι β σ) : GateMove ι β → Option (Path ι × FanOut)
  | .call p =>
    if (h.stage p).delivers then
      some (.direct p, ⟨(said p).text, h.hub.registry.recipients (said p).room⟩)
    else none
  | .relay .goOn =>
    match h.relay with
    | .reading s =>
      match next h.bus s with
      | (some m, s) => some (.relayed (place β s - 1), h.site.messageFanOut m)
      | (none, _) => none
    | _ => none
  | _ => none

/-- The fan-out of a step. -/
def fanOut (h : GatedHub ι β σ) (m : GateMove ι β) : FanOut :=
  ((h.delivery? said m).map Prod.snd).getD .none

/-- What the broadcasts and the relay deliver in a run, in order. -/
def deliveries (h : GatedHub ι β σ) : List (GateMove ι β) → List (Path ι × FanOut)
  | [] => []
  | m :: rest => (h.delivery? said m).toList ++ (h.step said m).deliveries rest

/-- The ways by which texts come to a connection. -/
def pathsTo (id : ConnId) (ds : List (Path ι × FanOut)) : List (Path ι) :=
  (ds.filter fun d => id ∈ d.2.targets).map Prod.fst

end Deliveries

/-- What the relay delivers it has just read. -/
theorem handed {said : ι → Announcement} {h : GatedHub ι β σ} {x : RelayStep} {d : Path ι × FanOut}
    (what : h.delivery? said (.relay x) = some d) :
    ∃ s s' m, h.relay = .reading s ∧ x = .goOn ∧ next h.bus s = (some m, s') ∧
      d = (.relayed (place β s' - 1), h.site.messageFanOut m) := by
  cases x with
  | goOn =>
    cases reading : h.relay with
    | reading s =>
      cases read : next h.bus s with
      | mk given s' =>
        cases given with
        | some m =>
          simp only [delivery?, reading, read, Option.some.injEq] at what
          exact ⟨s, s', m, rfl, rfl, read, what.symm⟩
        | none => simp only [delivery?, reading, read, reduceCtorEq] at what
    | _ => simp only [delivery?, reading, reduceCtorEq] at what
  | _ => cases what

/-! ## What every run keeps -/

/-- What holds between any two steps, after texts came by the ways of `ways`. -/
structure Guarded (said : ι → Announcement) (h : GatedHub ι β σ) (ways : List (Path ι)) : Prop where
  sound : h.site.hub.registry.Sound h.site.owner
  /-- Whoever acts on the gate has it. -/
  callGate : ∀ p, (h.stage p).holdsGate = true → h.gate = .call p
  relayGate : h.relay.holdsGate = true → h.gate = .relay
  /-- While a broadcast relies on it, the relay does not listen. -/
  deaf : ∀ p, (h.stage p).unheard = true → h.hub.subscribed = false
  /-- The hub knows of a subscription as soon as the gate is given back. -/
  heard : h.relay.listens = true → h.hub.subscribed = true
  /-- An accepted event stands where it was placed, and no other stands there. -/
  stands : ∀ p k, h.placed p = some k → (history h.bus)[k]? = some (said p).message
  alone : ∀ p q k, h.placed p = some k → h.placed q = some k → p = q
  unplaced : ∀ p, (h.stage p).unpublished = true → h.placed p = none
  /-- Nothing came by a way twice, and no way is open again. -/
  once : ways.Nodup
  decided : ∀ p, .direct p ∈ ways → (h.stage p).undecided = false
  passed : ∀ k, .relayed k ∈ ways → k < (history h.bus).length ∧
    ∀ s, h.relay.stream? = some s → k < place β s
  /-- What came directly does not come from the relay. -/
  apart : ∀ p k, .direct p ∈ ways → h.placed p = some k →
    .relayed k ∉ ways ∧ ∀ s, h.relay.stream? = some s → k < place β s

namespace Guarded

variable {said : ι → Announcement} {h : GatedHub ι β σ} {ways : List (Path ι)} {p : ι} {k : Nat}

theorem start (config : Config) (now : Nat) (queues : Queues) (b : β) :
    Guarded said (.started config now queues b) [] where
  sound := Registry.sound_empty _
  callGate := by intro p holds; cases holds
  relayGate := by intro holds; cases holds
  deaf := by intro p unheard; cases unheard
  heard := by intro listens; cases listens
  stands := by intro p k stands; cases stands
  alone := by intro p q k stands; cases stands
  unplaced := by intro p unpublished; rfl
  once := List.nodup_nil
  decided := by intro p came; cases came
  passed := by intro k came; cases came
  apart := by intro p k came; cases came

/-- There is no subscription while a broadcast relies on the relay not listening. -/
private theorem no_stream (g : Guarded said h ways) (gate : h.gate = .call p)
    (unheard : h.hub.subscribed = false) : h.relay.stream? = none := by
  by_contra reads
  obtain ⟨s, reads⟩ := Option.ne_none_iff_exists'.mp reads
  rcases RelayStage.listens_or_holdsGate reads with listens | holds
  · have heard := g.heard listens
    rw [unheard] at heard
    cases heard
  · have relay := g.relayGate holds
    rw [gate] at relay
    cases relay

/-- Nothing came directly from a broadcast that may still deliver. -/
theorem fresh (g : Guarded said h ways) (undecided : (h.stage p).undecided = true) :
    .direct p ∉ ways := by
  intro came
  cases (g.decided p came).symm.trans undecided

/-! ### What the parts of a step keep -/

/-- Whatever is done to the hub by itself, if the bus only grows and the relay is left as it is. -/
theorem put {s : Site β} {b : β} (g : Guarded said h ways)
    (sound : s.hub.registry.Sound s.owner) (same : s.hub.subscribed = h.hub.subscribed)
    (on : s.bus = some b) (grows : Grows h.bus b) : Guarded said (h.put s) ways := by
  obtain ⟨hub, queues, bus⟩ := s
  subst on
  exact {
    g with
    sound
    deaf := fun p unheard => same.trans (g.deaf p unheard)
    heard := fun listens => same.trans (g.heard listens)
    stands := fun p k placed => grows.getElem? (g.stands p k placed)
    passed := fun k came => (g.passed k came).imp_left (Nat.lt_of_lt_of_le · grows.length_le) }

/-- The gate passes from hand to hand when nobody acts on it. -/
private theorem setGate {gate : GateHolder ι} (g : Guarded said h ways)
    (calls : ∀ p, (h.stage p).holdsGate = false) (relay : h.relay.holdsGate = false) :
    Guarded said { h with gate } ways where
  __ := g
  callGate p holds := by simp [calls p] at holds
  relayGate holds := by simp [relay] at holds

/-- A gate that nobody has can be taken. -/
theorem take {gate : GateHolder ι} (g : Guarded said h ways) (free : h.gate = .nobody) :
    Guarded said { h with gate } ways := by
  apply g.setGate
  · intro p
    apply Bool.eq_false_iff.mpr
    intro holds
    cases free.symm.trans (g.callGate p holds)
  · apply Bool.eq_false_iff.mpr
    intro holds
    cases free.symm.trans (g.relayGate holds)

/-- A broadcast that no longer acts on the gate can give it back. -/
private theorem giveBack (g : Guarded said h ways) (gate : h.gate = .call p)
    (out : (h.stage p).holdsGate = false) : Guarded said { h with gate := .nobody } ways := by
  apply g.setGate
  · intro q
    apply Bool.eq_false_iff.mpr
    intro holds
    cases gate.symm.trans (g.callGate q holds)
    exact Bool.false_ne_true (out.symm.trans holds)
  · apply Bool.eq_false_iff.mpr
    intro holds
    cases gate.symm.trans (g.relayGate holds)

/-- And so can the relay. -/
private theorem relayGivesBack (g : Guarded said h ways) (gate : h.gate = .relay)
    (out : h.relay.holdsGate = false) : Guarded said { h with gate := .nobody } ways := by
  apply g.setGate _ out
  intro p
  apply Bool.eq_false_iff.mpr
  intro holds
  cases gate.symm.trans (g.callGate p holds)

/-- The hub learns that its relay listens, from the relay, which has the gate. -/
private theorem hearsOf (g : Guarded said h ways) (gate : h.gate = .relay) :
    Guarded said (h.setSubscribed true) ways where
  __ := g
  deaf := by
    intro p unheard
    cases gate.symm.trans (g.callGate p (CallStage.holdsGate_of_unheard unheard))
  heard := by
    intro _
    rfl

/-- And that it does not, when there is no subscription that it knows of. -/
private theorem hearsNothing (g : Guarded said h ways) (silent : h.relay.listens = false) :
    Guarded said (h.setSubscribed false) ways where
  __ := g
  deaf := by
    intro p _
    rfl
  heard := by
    intro listens
    cases silent.symm.trans listens

/-- The relay moves on: its subscription is the one before, read further, or a new one. -/
theorem setRelay {relay : RelayStage σ} (g : Guarded said h ways)
    (gate : relay.holdsGate = false ∨ h.gate = .relay)
    (heard : relay.listens = false ∨ h.hub.subscribed = true)
    (onward : ∀ s, relay.stream? = some s → (history h.bus).length ≤ place β s ∨
      ∃ before, h.relay.stream? = some before ∧ place β before ≤ place β s) :
    Guarded said { h with relay } ways := by
  have behind {k : Nat} (inside : k < (history h.bus).length)
      (past : ∀ s, h.relay.stream? = some s → k < place β s) :
      ∀ s, relay.stream? = some s → k < place β s := by
    intro s reads
    rcases onward s reads with late | ⟨before, read, le⟩
    · exact Nat.lt_of_lt_of_le inside late
    · exact Nat.lt_of_lt_of_le (past before read) le
  exact {
    g with
    relayGate := by
      intro holds
      exact gate.resolve_left (ne_false_of_eq_true holds)
    heard := by
      intro listens
      exact heard.resolve_left (ne_false_of_eq_true listens)
    passed := fun k came => ⟨(g.passed k came).1, behind (g.passed k came).1 (g.passed k came).2⟩
    apart := by
      intro p k came placed
      obtain ⟨notRelayed, past⟩ := g.apart p k came placed
      have inside := (List.getElem?_eq_some_iff.mp (g.stands p k placed)).1
      exact ⟨notRelayed, behind inside past⟩ }

/-- The relay goes without a subscription. -/
private theorem withoutStream {relay : RelayStage σ} (g : Guarded said h ways)
    (none : relay.stream? = none) (gate : relay.holdsGate = false ∨ h.gate = .relay) :
    Guarded said { h with relay } ways := by
  refine g.setRelay gate (.inl (RelayStage.silent_of_no_stream none)) ?_
  intro s reads
  cases none.symm.trans reads

/-- The relay goes on with the subscription it has, once the hub knows of it. -/
private theorem keepsStream {relay : RelayStage σ} {s : σ} (g : Guarded said h ways)
    (had : h.relay.stream? = some s) (has : relay.stream? = some s)
    (gate : relay.holdsGate = false ∨ h.gate = .relay) (heard : h.hub.subscribed = true) :
    Guarded said { h with relay } ways := by
  refine g.setRelay gate (.inr heard) ?_
  intro s' reads
  cases has.symm.trans reads
  exact .inr ⟨s, had, Nat.le_refl _⟩

/-- A broadcast delivers directly, of an event that stands nowhere. -/
private theorem addDirect (g : Guarded said h ways) (fresh : .direct p ∉ ways)
    (decided : (h.stage p).undecided = false) (unplaced : h.placed p = none) :
    Guarded said h (ways ++ [.direct p]) where
  __ := g
  once := List.concat_eq_append ▸ List.Nodup.concat fresh g.once
  decided := by
    intro q came
    rcases List.mem_append.mp came with before | now
    · exact g.decided q before
    · cases List.mem_singleton.mp now
      exact decided
  passed := by
    intro k came
    rcases List.mem_append.mp came with before | now
    · exact g.passed k before
    · cases List.mem_singleton.mp now
  apart := by
    intro q k came placed
    rcases List.mem_append.mp came with before | now
    · obtain ⟨notRelayed, past⟩ := g.apart q k before placed
      exact ⟨by simpa using notRelayed, past⟩
    · cases List.mem_singleton.mp now
      cases unplaced.symm.trans placed

/-- The relay hands a message over that no broadcast has delivered, and has read on behind it. -/
private theorem addRelayed (g : Guarded said h ways) (fresh : .relayed k ∉ ways)
    (inside : k < (history h.bus).length) (past : ∀ s, h.relay.stream? = some s → k < place β s)
    (apart : ∀ p, .direct p ∈ ways → h.placed p ≠ some k) :
    Guarded said h (ways ++ [.relayed k]) where
  __ := g
  once := List.concat_eq_append ▸ List.Nodup.concat fresh g.once
  decided := by
    intro p came
    rcases List.mem_append.mp came with before | now
    · exact g.decided p before
    · cases List.mem_singleton.mp now
  passed := by
    intro i came
    rcases List.mem_append.mp came with before | now
    · exact g.passed i before
    · cases List.mem_singleton.mp now
      exact ⟨inside, past⟩
  apart := by
    intro p i came placed
    rcases List.mem_append.mp came with before | now
    · obtain ⟨notRelayed, before_⟩ := g.apart p i before placed
      refine ⟨?_, before_⟩
      intro relayed
      rcases List.mem_append.mp relayed with earlier | this
      · exact notRelayed earlier
      · cases List.mem_singleton.mp this
        exact apart p before placed
    · cases List.mem_singleton.mp now

/-- What the hub delivers by itself leaves this as it is. -/
theorem delivers {s : Site β} {f : FanOut} {b : β} (g : Guarded said h ways)
    (made : h.site.Delivers f s) (on : s.bus = some b) (grows : Grows h.bus b) :
    Guarded said (h.put s) ways :=
  g.put (made.owner ▸ made.alike.sound g.sound) made.alike.subscribed on grows

theorem deliver (g : Guarded said h ways) (p : ι) : Guarded said (h.deliver said p).1 ways :=
  g.delivers (Site.localBroadcast_delivers g.sound ..) (Site.pushAll_bus ..) (.refl h.bus)

section Broadcasts

variable [DecidableEq ι]

/-- A broadcast moves on within what it has seen and has. -/
theorem setStage {stage : CallStage} (g : Guarded said h ways)
    (holds : stage.holdsGate = false ∨ h.gate = .call p)
    (deaf : stage.unheard = false ∨ h.hub.subscribed = false)
    (unpublished : stage.unpublished = false ∨ (h.stage p).unpublished = true)
    (undecided : stage.undecided = false ∨ (h.stage p).undecided = true) :
    Guarded said (h.setStage p stage) ways where
  __ := g
  callGate := by
    intro q holding
    rcases eq_or_ne q p with rfl | other
    · rw [setStage_stage] at holding
      exact holds.resolve_left (ne_false_of_eq_true holding)
    · exact g.callGate q (setStage_of_ne other ▸ holding)
  deaf := by
    intro q unheard
    rcases eq_or_ne q p with rfl | other
    · rw [setStage_stage] at unheard
      exact deaf.resolve_left (ne_false_of_eq_true unheard)
    · exact g.deaf q (setStage_of_ne other ▸ unheard)
  unplaced := by
    intro q pending
    rcases eq_or_ne q p with rfl | other
    · rw [setStage_stage] at pending
      exact g.unplaced q (unpublished.resolve_left (ne_false_of_eq_true pending))
    · exact g.unplaced q (setStage_of_ne other ▸ pending)
  decided := by
    intro q came
    have before := g.decided q came
    rcases eq_or_ne q p with rfl | other
    · rw [setStage_stage]
      exact undecided.resolve_right (by rw [before]; exact Bool.false_ne_true)
    · exact (setStage_of_ne other).symm ▸ before

/-- A broadcast's event is accepted, at a place where nothing stood. Had the broadcast delivered it,
there is no subscription. -/
theorem setPlaced (g : Guarded said h ways) (stands : (history h.bus)[k]? = some (said p).message)
    (published : (h.stage p).unpublished = false) (alone : ∀ q, h.placed q ≠ some k)
    (fresh : .relayed k ∉ ways) (unread : .direct p ∈ ways → h.relay.stream? = none) :
    Guarded said (h.setPlaced p k) ways where
  __ := g
  stands := by
    intro q i placed
    rcases setPlaced_iff.mp placed with ⟨rfl, rfl⟩ | ⟨-, before⟩
    · exact stands
    · exact g.stands q i before
  alone := by
    intro q r i first second
    rcases setPlaced_iff.mp first with ⟨rfl, rfl⟩ | ⟨-, before⟩
    · rcases setPlaced_iff.mp second with ⟨same, -⟩ | ⟨-, taken⟩
      · exact same.symm
      · cases alone r taken
    · rcases setPlaced_iff.mp second with ⟨-, rfl⟩ | ⟨-, before'⟩
      · cases alone q before
      · exact g.alone q r i before before'
  unplaced := by
    intro q pending
    have before := g.unplaced q pending
    apply Option.eq_none_iff_forall_ne_some.mpr
    intro i placed
    rcases setPlaced_iff.mp placed with ⟨rfl, -⟩ | ⟨-, placed⟩
    · cases published.symm.trans pending
    · cases before.symm.trans placed
  apart := by
    intro q i came placed
    rcases setPlaced_iff.mp placed with ⟨rfl, rfl⟩ | ⟨-, before⟩
    · refine ⟨fresh, ?_⟩
      intro s reads
      cases (unread came).symm.trans reads
    · exact g.apart q i came before

/-- A broadcast delivers, and has decided then. -/
theorem delivered {stage : CallStage} (g : Guarded said h ways)
    (undecided : (h.stage p).undecided = true) (unpublished : (h.stage p).unpublished = true)
    (holds : stage.holdsGate = false ∨ h.gate = .call p)
    (deaf : stage.unheard = false ∨ h.hub.subscribed = false) (decided : stage.undecided = false) :
    Guarded said ((h.deliver said p).1.setStage p stage) (ways ++ [.direct p]) := by
  have made := Site.localBroadcast_delivers g.sound (said p).room (said p).text
  apply addDirect
  · apply (g.deliver p).setStage holds
    · exact deaf.imp_right made.alike.subscribed.trans
    · exact .inr unpublished
    · exact .inl decided
  · exact g.fresh undecided
  · rw [setStage_stage, decided]
  · exact g.unplaced p unpublished

end Broadcasts

variable [SharedBus β] [HonestBus β σ]

theorem publishes (g : Guarded said h ways) (p : ι) :
    Guarded said (h.put (h.site.publishOn h.bus .room (said p).message).1) ways :=
  g.delivers (Site.publishOn_delivers ..) (Site.publishOn_bus ..) (publish_grows ..)

/-- The relay finds nothing to read. -/
private theorem passesOver {s s' : σ} (g : Guarded said h ways) (reading : h.relay = .reading s)
    (read : next h.bus s = (none, s')) : Guarded said { h with relay := .reading s' } ways := by
  apply g.setRelay
  · exact .inl rfl
  · exact .inr (g.heard (by rw [reading]; rfl))
  · rintro _ ⟨⟩
    exact (HonestBus.passed read).imp_right fun le => ⟨s, by rw [reading]; rfl, le⟩

/-- The relay gets a subscription. -/
theorem subscribes {s : σ} (g : Guarded said h ways) (gate : h.gate = .relay)
    (answer : subscribe h.bus relayFilter = .ok s) :
    Guarded said { h with relay := .opened s } ways := by
  apply g.setRelay
  · exact .inr gate
  · exact .inl rfl
  · rintro _ ⟨⟩
    exact .inl (HonestBus.subscribed answer)

/-- What a step of the relay keeps by which it hands nothing over. -/
private theorem relayQuiet {x : RelayStep} (g : Guarded said h ways)
    (quiet : h.delivery? said (.relay x) = none) : Guarded said (h.relayStep x) ways := by
  cases at_ : h.relay with
  | reading s =>
    cases x with
    | goOn =>
      cases read : next h.bus s with
      | mk given s' =>
        cases given with
        | some m => simp only [delivery?, at_, read, reduceCtorEq] at quiet
        | none =>
          simp only [GatedHub.relayStep, at_, read]
          exact g.passesOver at_ read
    | refuse =>
      simp only [GatedHub.relayStep, at_]
      exact g
    | _ =>
      simp only [GatedHub.relayStep, at_]
      exact g.withoutStream rfl (.inl rfl)
  | ended =>
    simp only [GatedHub.relayStep, at_]
    have told := g.hearsNothing (by rw [at_]; rfl)
    exact told.withoutStream rfl (.inl rfl)
  | detached =>
    cases x with
    | goOn =>
      simp only [GatedHub.relayStep, at_]
      cases gate : h.gate with
      | nobody => exact (g.take gate).withoutStream rfl (.inr rfl)
      | call p => exact g
      | relay => exact g
    | stop =>
      simp only [GatedHub.relayStep, at_]
      exact g.withoutStream rfl (.inl rfl)
    | _ =>
      simp only [GatedHub.relayStep, at_]
      exact g
  | subscribing =>
    have gate := g.relayGate (by rw [at_]; rfl)
    cases x with
    | goOn =>
      cases answer : subscribe h.bus relayFilter with
      | ok s =>
        simp only [GatedHub.relayStep, at_, answer]
        exact g.subscribes gate answer
      | error f =>
        simp only [GatedHub.relayStep, at_, answer]
        exact g.withoutStream rfl (.inr gate)
    | refuse =>
      simp only [GatedHub.relayStep, at_]
      exact g.withoutStream rfl (.inr gate)
    | _ =>
      simp only [GatedHub.relayStep, at_]
      exact g
  | opened s =>
    have gate := g.relayGate (by rw [at_]; rfl)
    simp only [GatedHub.relayStep, at_]
    exact (g.hearsOf gate).keepsStream (congrArg RelayStage.stream? at_) rfl (.inr gate) rfl
  | returning s =>
    have gate := g.relayGate (by rw [at_]; rfl)
    cases s with
    | some s =>
      have reads : Guarded said { h with relay := .reading s } ways :=
        g.keepsStream (congrArg RelayStage.stream? at_) rfl (.inl rfl) (g.heard (by rw [at_]; rfl))
      simp only [GatedHub.relayStep, at_]
      exact reads.relayGivesBack gate rfl
    | none =>
      have detached : Guarded said { h with relay := .detached } ways :=
        g.withoutStream rfl (.inl rfl)
      simp only [GatedHub.relayStep, at_]
      exact detached.relayGivesBack gate rfl
  | stopping =>
    simp only [GatedHub.relayStep, at_]
    have told := g.hearsNothing (by rw [at_]; rfl)
    exact told.withoutStream rfl (.inl rfl)
  | stopped =>
    simp only [GatedHub.relayStep, at_]
    exact g

/-- The relay reads a message and hands it over. -/
private theorem handsOver {s s' : σ} {m : BusMessage} (g : Guarded said h ways)
    (reading : h.relay = .reading s) (gave : next h.bus s = (some m, s')) :
    Guarded said { h.put (h.site.receive m) with relay := .reading s' }
      (ways ++ [.relayed (place β s' - 1)]) := by
  obtain ⟨k, behind, notRead, stands⟩ := HonestBus.gave gave
  rw [behind, Nat.add_sub_cancel]
  have reads : h.relay.stream? = some s := by rw [reading]; rfl
  -- What has come by a way that is closed now stood before the place of the subscription.
  have open_ {k' : Nat} (past : ∀ s, h.relay.stream? = some s → k' < place β s) : k' ≠ k := by
    rintro rfl
    exact Nat.not_lt.mpr notRead (past s reads)
  have received := Site.receive_delivers g.sound m
  have advanced : Guarded said { h with relay := .reading s' } (ways ++ [.relayed k]) := by
    apply addRelayed
    · apply g.setRelay
      · exact .inl rfl
      · exact .inr (g.heard (by rw [reading]; rfl))
      · rintro _ ⟨⟩
        exact .inr ⟨s, reads, by omega⟩
    · exact fun came => open_ (g.passed k came).2 rfl
    · exact (List.getElem?_eq_some_iff.mp stands).1
    · rintro _ ⟨⟩
      omega
    · exact fun p came placed => open_ (g.apart p k came placed).2 rfl
  exact advanced.delivers received (Site.receive_bus ..) (.refl h.bus)

/-- What a step of the relay keeps. -/
theorem relayStep (g : Guarded said h ways) (x : RelayStep) :
    Guarded said (h.relayStep x) (ways ++ ((h.delivery? said (.relay x)).map Prod.fst).toList) := by
  cases what : h.delivery? said (.relay x) with
  | none =>
    rw [Option.map_none, Option.toList_none, List.append_nil]
    exact g.relayQuiet what
  | some d =>
    obtain ⟨s, s', m, reading, rfl, gave, rfl⟩ := handed what
    simp only [GatedHub.relayStep, reading, gave]
    exact g.handsOver reading gave

variable [DecidableEq ι]

/-- The bus refuses the event of a broadcast. -/
theorem refused {f : Failure} (g : Guarded said h ways)
    (answer : (SharedBus.publish h.bus (said p).message).2 = .error f) :
    (h.publish said p).2 = false ∧ Guarded said (h.publish said p).1 ways := by
  have published := g.publishes p
  unfold publish
  rw [Site.publishOn_refused answer] at published ⊢
  exact ⟨rfl, published⟩

/-- The bus accepts it, and the broadcast moves on, past publishing. -/
theorem accepted {done : Unit} {stage : CallStage} (g : Guarded said h ways)
    (answer : (SharedBus.publish h.bus (said p).message).2 = .ok done)
    (moved : Guarded said (h.setStage p stage) ways) (published : stage.unpublished = false)
    (unread : .direct p ∈ ways → h.relay.stream? = none) :
    (h.publish said p).2 = true ∧ Guarded said ((h.publish said p).1.setStage p stage) ways := by
  have kept : Guarded said
      ((h.put (h.site.publishOn h.bus .room (said p).message).1).setStage p stage) ways :=
    moved.publishes p
  unfold publish
  rw [Site.publishOn_accepted answer] at kept ⊢
  refine ⟨rfl, kept.setPlaced ?_ ?_ ?_ ?_ unread⟩
  · show (history (SharedBus.publish h.bus (said p).message).1)[_]? = _
    rw [HonestBus.accepted answer, List.getElem?_concat_length]
  · rw [setStage_stage, published]
  · intro q placed
    exact Nat.lt_irrefl _ (List.getElem?_eq_some_iff.mp (g.stands q _ placed)).1
  · intro came
    exact Nat.lt_irrefl _ (g.passed _ came).1

/-- A broadcast that has delivered publishes. -/
private theorem shares {stats : DeliveryStats} (g : Guarded said h ways)
    (at_ : h.stage p = .sharing stats) :
    Guarded said ((h.publish said p).1.setStage p (.leaving stats)) ways := by
  -- It still has the gate, so nobody reads what it publishes now.
  have gate := g.callGate p (by rw [at_]; rfl)
  have unread := g.no_stream gate (g.deaf p (by rw [at_]; rfl))
  have moved : Guarded said (h.setStage p (.leaving stats)) ways :=
    g.setStage (.inr gate) (.inl rfl) (.inl rfl) (.inl rfl)
  cases answer : (SharedBus.publish h.bus (said p).message).2 with
  | ok done => exact (g.accepted answer moved rfl fun _ => unread).2
  | error f =>
    exact (g.refused answer).2.setStage (.inr ((publish_gate ..).trans gate)) (.inl rfl)
      (.inl rfl) (.inl rfl)

/-- A broadcast that has not delivered publishes, and delivers only what is refused. -/
private theorem leavesToRelay (g : Guarded said h ways) (at_ : h.stage p = .publishing) :
    Guarded said ((h.publish said p).1.setStage p
      (if (h.publish said p).2 then .done .relayed else .refused)) ways := by
  have undelivered : .direct p ∉ ways := g.fresh (by rw [at_]; rfl)
  have moved : Guarded said (h.setStage p (.done .relayed)) ways :=
    g.setStage (.inl rfl) (.inl rfl) (.inl rfl) (.inl rfl)
  cases answer : (SharedBus.publish h.bus (said p).message).2 with
  | ok done =>
    obtain ⟨went, kept⟩ := g.accepted answer moved rfl (absurd · undelivered)
    rw [went, if_pos rfl]
    exact kept
  | error f =>
    obtain ⟨went, kept⟩ := g.refused answer
    rw [went, if_neg Bool.false_ne_true]
    exact kept.setStage (.inl rfl) (.inl rfl) (.inr (by rw [publish_stage, at_]; rfl))
      (.inr (by rw [publish_stage, at_]; rfl))

/-- What a step of a broadcast keeps. -/
theorem callStep (g : Guarded said h ways) (p : ι) :
    Guarded said (h.callStep said p)
      (if (h.stage p).delivers then ways ++ [.direct p] else ways) := by
  cases at_ : h.stage p with
  | asking =>
    simp only [GatedHub.callStep, at_, CallStage.delivers, Bool.false_eq_true, if_false]
    cases h.hub.subscribed with
    | true => exact g.setStage (.inl rfl) (.inl rfl) (.inr (at_ ▸ rfl)) (.inr (at_ ▸ rfl))
    | false => exact g.setStage (.inl rfl) (.inl rfl) (.inr (at_ ▸ rfl)) (.inr (at_ ▸ rfl))
  | waiting =>
    simp only [GatedHub.callStep, at_, CallStage.delivers, Bool.false_eq_true, if_false]
    cases gate : h.gate with
    | nobody =>
      exact (g.take gate).setStage (.inr rfl) (.inl rfl) (.inr (at_ ▸ rfl)) (.inr (at_ ▸ rfl))
    | call q => exact g
    | relay => exact g
  | holding =>
    have gate := g.callGate p (by rw [at_]; rfl)
    simp only [GatedHub.callStep, at_, CallStage.delivers, Bool.false_eq_true, if_false]
    cases listens : h.hub.subscribed with
    | true =>
      exact g.setStage (.inr gate) (.inl rfl) (.inr (at_ ▸ rfl)) (.inr (at_ ▸ rfl))
    | false =>
      exact g.setStage (.inr gate) (.inr listens) (.inr (at_ ▸ rfl)) (.inr (at_ ▸ rfl))
  | yielding =>
    have gate := g.callGate p (by rw [at_]; rfl)
    simp only [GatedHub.callStep, at_, CallStage.delivers, Bool.false_eq_true, if_false]
    have yielded : Guarded said (h.setStage p .publishing) ways :=
      g.setStage (.inl rfl) (.inl rfl) (.inr (at_ ▸ rfl)) (.inr (at_ ▸ rfl))
    exact yielded.giveBack gate (by rw [setStage_stage]; rfl)
  | delivering =>
    have gate := g.callGate p (by rw [at_]; rfl)
    have deaf := g.deaf p (by rw [at_]; rfl)
    simp only [GatedHub.callStep, at_, CallStage.delivers, if_true]
    exact g.delivered (at_ ▸ rfl) (at_ ▸ rfl) (.inr gate) (.inr deaf) rfl
  | sharing stats =>
    simp only [GatedHub.callStep, at_, CallStage.delivers, Bool.false_eq_true, if_false]
    exact g.shares at_
  | leaving stats =>
    have gate := g.callGate p (by rw [at_]; rfl)
    simp only [GatedHub.callStep, at_, CallStage.delivers, Bool.false_eq_true, if_false]
    have left : Guarded said (h.setStage p (.done (.onsite stats))) ways :=
      g.setStage (.inl rfl) (.inl rfl) (.inl rfl) (.inl rfl)
    exact left.giveBack gate (by rw [setStage_stage]; rfl)
  | publishing =>
    simp only [GatedHub.callStep, at_, CallStage.delivers, Bool.false_eq_true, if_false]
    exact g.leavesToRelay at_
  | refused =>
    simp only [GatedHub.callStep, at_, CallStage.delivers, if_true]
    exact g.delivered (at_ ▸ rfl) (at_ ▸ rfl) (.inl rfl) (.inl rfl) rfl
  | done result =>
    simpa only [GatedHub.callStep, at_, CallStage.delivers, Bool.false_eq_true, if_false] using g

/-- What any step keeps. -/
theorem step (g : Guarded said h ways) (m : GateMove ι β) :
    Guarded said (h.step said m) (ways ++ ((h.delivery? said m).map Prod.fst).toList) := by
  cases m with
  | call p =>
    have kept := g.callStep p
    simp only [delivery?, GatedHub.step]
    cases delivers : (h.stage p).delivers with
    | true => simpa [delivers] using kept
    | false => simpa [delivers] using kept
  | relay x => exact g.relayStep x
  | aside op =>
    have quiet : h.delivery? said (.aside op) = none := rfl
    rw [quiet, Option.map_none, Option.toList_none, List.append_nil, GatedHub.step]
    by_cases aside : op.Aside = true
    · obtain ⟨b, on, grows⟩ := Site.aside_grows (s := h.site) rfl aside
      rw [if_pos aside]
      exact g.put (Site.act_sound g.sound op) (Site.aside_subscribed g.sound aside) on grows
    · rw [if_neg aside]
      exact g
  | turn b =>
    have quiet : h.delivery? said (.turn b) = none := rfl
    rw [quiet, Option.map_none, Option.toList_none, List.append_nil, GatedHub.step]
    by_cases grows : Grows h.bus b
    · rw [if_pos grows]
      exact g.put (s := ⟨h.hub, h.queues, some b⟩) g.sound rfl rfl grows
    · rw [if_neg grows]
      exact g

/-- What a run keeps. -/
theorem run (g : Guarded said h ways) (moves : List (GateMove ι β)) :
    Guarded said (h.run said moves) (ways ++ (h.deliveries said moves).map Prod.fst) := by
  induction moves generalizing h ways with
  | nil =>
    rw [deliveries, List.map_nil, List.append_nil]
    exact g
  | cons m rest ih =>
    rw [deliveries, List.map_append, ← List.append_assoc, ← Option.toList_map]
    exact ih (g.step m)

end Guarded

end GatedHub

end RoomRelay
