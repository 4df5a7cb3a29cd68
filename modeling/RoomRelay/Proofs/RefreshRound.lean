import RoomRelay.Proofs.Outages

/-!
A round of refreshes repairs what outages did to users who are held. Marks of coming users may have
been lost, and users may have been taken off the shared set by a hub that held them no longer while
another still did. Once the bus is on again, each hub's next refresh puts the users it holds into
the set, and whoever comes later is marked.
-/

namespace RoomRelay

namespace Cluster

variable {ι : Type} {c : Cluster ι MemoryBus} {i : ι} {user : Uuid} {m : Incident ι} {now : Nat}

/-- Every user that a hub holds stands in the shared set. -/
def Healed (c : Cluster ι MemoryBus) (i : ι) : Prop := ∀ user, c.Holds i user → c.bus.Shows user

/-- A refresh marks every user that its hub holds. -/
private theorem refresh_marks (joined : c.Joined) (held : c.Holds i user) (now : Nat) :
    .add now user ∈ c.marks (.change i (.roster (.refresh now))) :=
  List.mem_map_of_mem ((joined.sound i).mem_connectedUsers.mpr held)

variable [DecidableEq ι]

/-- The incident is a refresh on this hub. -/
def Refreshes (i : ι) (m : Incident ι) : Prop :=
  ∃ now, m = .change i (.roster (.refresh now))

/-- The cluster came about from hubs just started on one bus, by whatever incidents. -/
def Reached (c : Cluster ι MemoryBus) : Prop :=
  ∃ first earlier, JustStarted first ∧ c = first.undergoAll earlier

/-- Incidents that follow while the bus is on and stays on, and of which none marks a user as
offline. -/
structure Calm (c : Cluster ι MemoryBus) (round : List (Incident ι)) : Prop where
  up : c.bus.available = true
  stays : .power false ∉ round
  kept : ∀ a ∈ c.attempts round, ∀ user, a.mark ≠ .remove user

/-- From the first incident on that adds users, the shared set does not expire. It may have expired
before. -/
def LastsOnceRenewed (c : Cluster ι MemoryBus) : List (Incident ι) → Prop
  | [] => True
  | m :: rest =>
    if instants (c.marks m) = [] then (c.undergo m).LastsOnceRenewed rest
    else (∀ now ∈ instants (c.marks m), (c.undergo m).bus.Unexpired now) ∧
      (c.undergo m).LastsThrough rest

instance decidableLastsOnceRenewed : (c : Cluster ι MemoryBus) → (round : List (Incident ι)) →
    Decidable (c.LastsOnceRenewed round)
  | _, [] => .isTrue trivial
  | c, m :: rest =>
    have := decidableLastsOnceRenewed (c.undergo m) rest
    inferInstanceAs (Decidable (if instants (c.marks m) = [] then _ else _ ∧ _))

/-- Calm incidents among which every hub refreshes at least once, without the shared set expiring
in between. -/
structure RefreshRound (c : Cluster ι MemoryBus) (round : List (Incident ι)) : Prop
    extends Calm c round where
  everyone : ∀ i, ∃ m ∈ round, Refreshes i m
  lasts : c.LastsOnceRenewed round

variable {round rest : List (Incident ι)}

theorem Reached.joined (reached : c.Reached) : c.Joined := by
  obtain ⟨first, earlier, begins, rfl⟩ := reached
  exact undergoAll_joined begins.joined earlier

theorem Calm.unmarked (calm : c.Calm (m :: rest)) (user : Uuid) : .remove user ∉ c.marks m :=
  fun removed => calm.kept ⟨_, _⟩ (mem_attempts_cons.mpr (.inl ⟨removed, rfl⟩)) user rfl

theorem Calm.next (joined : c.Joined) (calm : c.Calm (m :: rest)) : (c.undergo m).Calm rest := by
  obtain ⟨on, stays⟩ := not_or.mp (mt List.mem_cons.mpr calm.stays)
  refine ⟨?_, stays, fun a member => calm.kept a (mem_attempts_cons.mpr (.inr member))⟩
  rw [undergo_available joined]
  cases m with
  | change j x => exact calm.up
  | power still =>
    cases still with
    | true => rfl
    | false => exact absurd rfl on

/-! ## One incident -/

/-- A hub that refreshes is healed, and so is one that held nobody, when the incident's marks get
through. -/
private theorem renewal_heals (joined : c.Joined) (up : c.bus.available = true)
    (renewed : ∀ now ∈ instants (c.marks m), (c.undergo m).bus.Unexpired now)
    (source : (∀ user, ¬c.Holds i user) ∨ Refreshes i m) : (c.undergo m).Healed i := by
  intro user held
  have added : ∃ now, .add now user ∈ c.marks m := by
    rcases holds_before_or_added joined held with before | added
    · rcases source with nobody | ⟨now, rfl⟩
      · exact absurd before (nobody user)
      · exact ⟨now, refresh_marks joined before now⟩
    · exact added
  obtain ⟨now, added⟩ := added
  exact shows_of_added joined up renewed added

/-- A hub stays healed while no user is marked as offline and every mark gets through. -/
private theorem undergo_healed (joined : c.Joined) (up : c.bus.available = true) (lasts : c.Lasts m)
    (kept : ∀ user, .remove user ∉ c.marks m) (healed : c.Healed i) : (c.undergo m).Healed i := by
  intro user held
  rcases holds_before_or_added joined held with before | ⟨now, added⟩
  · exact shows_of_before joined lasts (healed user before) fun removed => kept user removed.2
  · exact shows_of_added joined up (fun now at_ => (lasts now at_).2) added

/-- An incident that adds nobody brings nobody to a hub that holds nobody, and a hub that refreshes
by such an incident holds nobody. -/
private theorem vacant_of_no_renewal (joined : c.Joined) (none_ : instants (c.marks m) = [])
    (source : (∀ user, ¬c.Holds i user) ∨ Refreshes i m) (user : Uuid) :
    ¬(c.undergo m).Holds i user := by
  have unmarked (now : Nat) : .add now user ∉ c.marks m := by
    intro added
    have member := mem_instants.mpr ⟨user, added⟩
    rw [none_] at member
    cases member
  intro held
  rcases holds_before_or_added joined held with before | ⟨now, added⟩
  · rcases source with nobody | ⟨now, rfl⟩
    · exact nobody user before
    · exact unmarked now (refresh_marks joined before now)
  · exact unmarked now added

/-! ## A round -/

/-- While the set lasts, hubs stay healed, and whichever refreshes is healed. -/
private theorem lasting_round_heals (joined : c.Joined) (calm : c.Calm round)
    (lasts : c.LastsThrough round) (heals : c.Healed i ∨ ∃ m ∈ round, Refreshes i m) :
    (c.undergoAll round).Healed i := by
  induction round generalizing c with
  | nil => exact heals.resolve_right (by simp)
  | cons m rest ih =>
    refine ih (undergo_joined joined m) (calm.next joined) lasts.2 ?_
    rcases heals with healed | ⟨n, member, refreshes⟩
    · exact .inl (undergo_healed joined calm.up lasts.1 calm.unmarked healed)
    · rcases List.mem_cons.mp member with rfl | later
      · have renewed := fun now at_ => (lasts.1 now at_).2
        exact .inl (renewal_heals joined calm.up renewed (.inr refreshes))
      · exact .inr ⟨n, later, refreshes⟩

/-- It does not matter whether the set had expired before the round. Until an incident adds users,
the hubs that have refreshed are those that hold nobody. -/
private theorem round_heals (joined : c.Joined) (calm : c.Calm round)
    (lasts : c.LastsOnceRenewed round)
    (heals : (∀ user, ¬c.Holds i user) ∨ ∃ m ∈ round, Refreshes i m) :
    (c.undergoAll round).Healed i := by
  induction round generalizing c with
  | nil => exact fun user held => absurd held (heals.resolve_right (by simp) user)
  | cons m rest ih =>
    have source : ((∀ user, ¬c.Holds i user) ∨ Refreshes i m) ∨ ∃ n ∈ rest, Refreshes i n := by
      simpa [or_assoc] using heals
    have joined_next := undergo_joined joined m
    by_cases none_ : instants (c.marks m) = []
    · rw [LastsOnceRenewed, if_pos none_] at lasts
      exact ih joined_next (calm.next joined) lasts
        (source.imp_left (vacant_of_no_renewal joined none_))
    · rw [LastsOnceRenewed, if_neg none_] at lasts
      have healed : ((c.undergo m).undergoAll rest).Healed i :=
        lasting_round_heals joined_next (calm.next joined) lasts.2
          (source.imp_left (renewal_heals joined calm.up lasts.1))
      exact healed

private theorem calm_available (joined : c.Joined) (calm : c.Calm round) :
    (c.undergoAll round).bus.available = true := by
  induction round generalizing c with
  | nil => exact calm.up
  | cons m rest ih => exact ih (undergo_joined joined m) (calm.next joined)

/-- Whatever happened before, with connections coming and going on any number of hubs and the bus
on or off: after a round of refreshes every hub calls every user online that any hub holds. -/
theorem refresh_round_shows_held (reached : c.Reached) (refreshed : c.RefreshRound round)
    (unexpired : (c.undergoAll round).bus.Unexpired now)
    (held : ∃ j, (c.undergoAll round).Holds j user) (i : ι) :
    (((c.undergoAll round).site i).isOnline now user).2 = true := by
  obtain ⟨j, holds⟩ := held
  have healed : (c.undergoAll round).Healed j :=
    round_heals reached.joined refreshed.toCalm refreshed.lasts (.inr (refreshed.everyone j))
  have joined := undergoAll_joined reached.joined round
  have up := calm_available reached.joined refreshed.toCalm
  exact (isOnline_wired joined.wired ⟨up, joined.setsOnce⟩ unexpired i).mpr (healed user holds)

/-- Two hubs that share user 7, on a bus that fails. The second hub's client comes during the
outage, and when the bus is on again the first hub's client goes. -/
def clientsDuringOutage : List (Incident Bool) :=
  [.change true (.roster (.register 0 ⟨0⟩)), .power false,
    .change false (.roster (.register 1 ⟨0⟩)), .power true,
    .change true (.roster (.unregister ⟨0⟩))]

/-- Both hubs refresh. -/
def bothRefresh : List (Incident Bool) :=
  [.change true (.roster (.refresh 2)), .change false (.roster (.refresh 2))]

/-- The second hub's user counts as offline, and after the round as online. -/
theorem clientsDuringOutage_healed :
    (((twoHubs.undergoAll clientsDuringOutage).site false).isOnline 2 ⟨7⟩).2 = false ∧
      (twoHubs.undergoAll clientsDuringOutage).RefreshRound bothRefresh ∧
      ((((twoHubs.undergoAll clientsDuringOutage).undergoAll bothRefresh).site true).isOnline
        2 ⟨7⟩).2 = true := by
  have marked : (twoHubs.undergoAll clientsDuringOutage).attempts bothRefresh =
      [⟨.add 2 ⟨7⟩, true⟩] := by decide +kernel
  have refreshed : (twoHubs.undergoAll clientsDuringOutage).RefreshRound bothRefresh := by
    refine ⟨⟨by decide +kernel, by simp [bothRefresh], by simp [marked]⟩, fun i => ?_,
      by decide +kernel⟩
    cases i with
    | false => exact ⟨_, by simp [bothRefresh], 2, rfl⟩
    | true => exact ⟨_, by simp [bothRefresh], 2, rfl⟩
  refine ⟨by decide +kernel, refreshed, ?_⟩
  refine refresh_round_shows_held ⟨twoHubs, clientsDuringOutage, ⟨_, 0, _, rfl⟩, rfl⟩ refreshed ?_
    ⟨false, ?_⟩ true
  · decide +kernel
  · decide +kernel

end Cluster

end RoomRelay
