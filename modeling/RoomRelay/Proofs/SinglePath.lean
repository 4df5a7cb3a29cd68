import RoomRelay.Proofs.GateInvariant

/-!
An event reaches a connection by one way at most. Either a broadcast delivers it here, or the relay
hands it over once it came back from the bus, and never both, whatever else goes on between the steps
and whatever becomes of the bus and of the subscription. A broadcast delivers here for one of two
reasons. The bus refused the event, and then it stands nowhere on the bus. Or the relay did not
listen, and still does not while the broadcast has the gate: then there is no subscription when the
event is published, and one that is made later gets only what is published later.
-/

namespace RoomRelay

open OrderedBus (history next place)

namespace GatedHub

variable {ι β σ : Type} [OrderedBus β σ] {said : ι → Announcement} {h : GatedHub ι β σ}
  {ways : List (Path ι)}

private theorem pathsTo_sublist (id : ConnId) (ds : List (Path ι × FanOut)) :
    (pathsTo id ds).Sublist (ds.map Prod.fst) :=
  List.Sublist.map _ List.filter_sublist

variable [DecidableEq ι]

/-- Two ways of one event are the same. -/
private theorem Guarded.same_way (g : Guarded said h ways) {p : ι} {w w' : Path ι} (came : w ∈ ways)
    (came' : w' ∈ ways) (bears : w.bears h.placed p) (bears' : w'.bears h.placed p) : w = w' := by
  cases w with
  | direct q =>
    obtain rfl : q = p := of_decide_eq_true bears
    cases w' with
    | direct r => rw [of_decide_eq_true bears']
    | relayed k => cases (g.apart q k came (of_decide_eq_true bears')).1 came'
  | relayed k =>
    have placed := of_decide_eq_true bears
    cases w' with
    | direct r =>
      obtain rfl : r = p := of_decide_eq_true bears'
      cases (g.apart r k came' placed).1 came
    | relayed k' =>
      have placed' := of_decide_eq_true bears'
      cases placed.symm.trans placed'
      rfl

variable [SharedBus β]

/-- A step pushes what it delivers, and nothing else. -/
def Pushes (said : ι → Announcement) (h : GatedHub ι β σ) (m : GateMove ι β) : Prop :=
  ∀ id, (h.step said m).queues.get? id =
    if id ∈ (h.fanOut said m).targets then
      (h.queues.get? id).map fun c => (c.push (h.fanOut said m).text).1
    else h.queues.get? id

/-- How the events of broadcasts come to the connections of a hub in a run. -/
structure SinglePath (said : ι → Announcement) (h : GatedHub ι β σ) (moves : List (GateMove ι β)) :
    Prop where
  /-- An event comes to a connection once at most, be it from the broadcast or from the relay. -/
  atMostOnce : ∀ p id, (pathsTo id (h.deliveries said moves)).countP
    (·.bears (h.run said moves).placed p) ≤ 1
  /-- No message of the bus comes twice from the relay, whoever published it. -/
  noneTwice : ∀ id, (pathsTo id (h.deliveries said moves)).Nodup
  /-- An event that was accepted stands on the bus, and at a place of its own. -/
  stands : ∀ p k, (h.run said moves).placed p = some k →
    (history (h.run said moves).bus)[k]? = some (said p).message
  alone : ∀ p q k, (h.run said moves).placed p = some k → (h.run said moves).placed q = some k → p = q
  /-- Every delivery is the one push, and there are no other pushes of broadcasts or the relay. -/
  pushes : ∀ before m after, moves = before ++ m :: after → (∀ op, m ≠ .aside op) →
    (h.run said before).Pushes said m
  /-- What comes by a way of an event is the event, for those who listen to its room then. -/
  carries : ∀ before m after p w f, moves = before ++ m :: after →
    (h.run said before).delivery? said m = some (w, f) → w.bears (h.run said moves).placed p →
    f = ⟨(said p).text, (h.run said before).hub.registry.recipients (said p).room⟩

/-- A step that delivers nothing and leaves the queues alone pushes nothing. -/
private theorem pushes_nothing {m : GateMove ι β} (nothing : h.delivery? said m = none)
    (queues : (h.step said m).queues = h.queues) : h.Pushes said m := by
  intro id
  simp [fanOut, nothing, FanOut.none, queues]

private theorem callStep_pushes (g : Guarded said h ways) (p : ι) : h.Pushes said (.call p) := by
  have queues := callStep_queues said h p
  by_cases delivers : (h.stage p).delivers = true
  · have made : h.fanOut said (.call p) =
        ⟨(said p).text, h.hub.registry.recipients (said p).room⟩ := by
      simp [fanOut, delivery?, delivers]
    intro id
    rw [made, step, queues, if_pos delivers]
    exact (Site.localBroadcast_delivers g.sound (said p).room (said p).text).queue id
  · apply pushes_nothing
    · simp [delivery?, delivers]
    · rw [step, queues, if_neg delivers]

private theorem relayStep_pushes (g : Guarded said h ways) (x : RelayStep) :
    h.Pushes said (.relay x) := by
  cases what : h.delivery? said (.relay x) with
  | none =>
    apply pushes_nothing what
    simp only [step, relayStep]
    split
    any_goals rfl
    · rename_i reading
      split
      · rename_i read
        simp only [delivery?, reading, read, reduceCtorEq] at what
      · rfl
    · split <;> rfl
    · split <;> rfl
  | some d =>
    intro id
    rw [fanOut, what]
    obtain ⟨s, s', m, reading, rfl, gave, rfl⟩ := handed what
    simp only [step, relayStep, reading, gave]
    exact (Site.receive_delivers g.sound m).queue id

/-- Whatever is no step aside pushes just what it delivers. -/
private theorem step_pushes (g : Guarded said h ways) (m : GateMove ι β)
    (own : ∀ op, m ≠ .aside op) :
    h.Pushes said m := by
  cases m with
  | call p => exact callStep_pushes g p
  | relay x => exact relayStep_pushes g x
  | aside op => cases own op rfl
  | turn b =>
    apply pushes_nothing rfl
    simp only [step]
    split <;> rfl

/-- What satisfies a condition once at most is counted once at most in a list without
repetitions. -/
private theorem countP_le_one {α : Type} [DecidableEq α] {P : α → Bool} {l : List α}
    (once : l.Nodup)
    (unique : ∀ a ∈ l, ∀ b ∈ l, P a = true → P b = true → a = b) : l.countP P ≤ 1 := by
  by_cases found : ∃ a ∈ l, P a = true
  · obtain ⟨a, member, holds⟩ := found
    calc l.countP P ≤ l.countP (· == a) := by
          apply List.countP_mono_left
          intro b member' holds'
          exact beq_iff_eq.mpr (unique b member' a member holds' holds)
      _ ≤ 1 := List.nodup_iff_count_le_one.mp once a
  · have none : l.countP P = 0 :=
      List.countP_eq_zero.mpr fun a member holds => found ⟨a, member, holds⟩
    rw [none]
    exact Nat.zero_le 1

variable [HonestBus β σ]

/-- What comes by a way of an event is the event. -/
private theorem delivery_carries {m : GateMove ι β} {after : List (GateMove ι β)} {p : ι}
    {w : Path ι}
    {f : FanOut} (g : Guarded said (h.run said (m :: after)) ways)
    (made : h.delivery? said m = some (w, f))
    (bears : w.bears (h.run said (m :: after)).placed p) :
    f = ⟨(said p).text, h.hub.registry.recipients (said p).room⟩ := by
  cases m with
  | call q =>
    simp only [delivery?, Option.ite_none_right_eq_some, Option.some.injEq, Prod.mk.injEq] at made
    obtain ⟨-, rfl, rfl⟩ := made
    obtain rfl : q = p := of_decide_eq_true bears
    rfl
  | relay x =>
    obtain ⟨s, s', m, reading, rfl, gave, both⟩ := handed made
    obtain ⟨rfl, rfl⟩ := Prod.mk.inj both
    obtain ⟨k, behind, -, stood⟩ := HonestBus.gave gave
    rw [behind, Nat.add_sub_cancel] at bears
    -- The message stands where the event stands, for it stood there when it was read.
    have stands := g.stands p k (of_decide_eq_true bears)
    have stillStands := (run_grows said h (.relay .goOn :: after)).getElem? stood
    cases stillStands.symm.trans stands
    exact Site.messageFanOut_room h.site (said p).room (said p).text
  | aside op => cases made
  | turn b => cases made

private theorem Guarded.single_path (g : Guarded said h []) (moves : List (GateMove ι β)) :
    SinglePath said h moves := by
  have kept : Guarded said (h.run said moves) ((h.deliveries said moves).map Prod.fst) :=
    g.run moves
  have once (id : ConnId) := kept.once.sublist (pathsTo_sublist id (h.deliveries said moves))
  refine ⟨?_, once, kept.stands, kept.alone, ?_, ?_⟩
  · intro p id
    have within := (pathsTo_sublist id (h.deliveries said moves)).subset
    exact countP_le_one (once id) fun w came w' came' =>
      kept.same_way (within came) (within came')
  · intro before m after split own
    exact step_pushes (g.run before) m own
  · rintro before m after p w f rfl made bears
    have runs : h.run said (before ++ m :: after) = (h.run said before).run said (m :: after) :=
      List.foldl_append
    rw [runs] at kept bears
    exact delivery_carries kept made bears

/-- The events that are broadcast on a hub, however many, reach each connection by one way at most,
in whatever order the broadcasts, the relay and all else on the hub and its bus take their steps. -/
theorem events_take_one_path (said : ι → Announcement) (config : Config) (now : Nat)
    (queues : Queues) (b : β) (moves : List (GateMove ι β)) :
    SinglePath said (.started config now queues b) moves :=
  (Guarded.start config now queues b).single_path moves

/-- A hub whose relay has not subscribed yet, with a connection of a client. -/
def relayless : GatedHub Bool MemoryBus Subscription :=
  .started (.trial ⟨1⟩) 0 [(⟨0⟩, { user := ⟨7⟩, capacity := 16 })] .empty

/-- Two broadcasts of one event. -/
def saidTwice : Bool → Announcement := fun _ => ⟨⟨5⟩, .online ⟨7⟩⟩

/-- The client comes and listens to the room. Both broadcasts see that the relay does not listen.
The first delivers and publishes while the relay waits for the gate; then the relay subscribes, and
the second yields to it. -/
def overtaken : List (GateMove Bool MemoryBus) :=
  [.aside (.roster (.register 0 ⟨0⟩)), .aside (.roster (.listen ⟨5⟩ ⟨7⟩)),
    .call true, .call true, .call false, .call true, .call true, .relay .goOn, .call true,
    .call true, .relay .goOn, .relay .goOn, .relay .goOn, .relay .goOn, .call false, .call false,
    .call false, .call false, .relay .goOn]

/-- The first event comes directly, the second from the relay, and neither by another way. -/
theorem overtaken_one_path_each :
    SinglePath saidTwice relayless overtaken ∧
      (pathsTo ⟨0⟩ (relayless.deliveries saidTwice overtaken) = [.direct true, .relayed 2] ∧
        (relayless.run saidTwice overtaken).placed true = some 1 ∧
        (relayless.run saidTwice overtaken).placed false = some 2) := by
  constructor
  · exact events_take_one_path saidTwice (.trial ⟨1⟩) 0 _ .empty overtaken
  · decide +kernel

end GatedHub

end RoomRelay
