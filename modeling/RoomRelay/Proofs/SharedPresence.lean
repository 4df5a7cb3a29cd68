import RoomRelay.Proofs.Cluster
import RoomRelay.Proofs.OnlineSet

/-!
Who counts as online among hubs that share a bus in memory. The shared set holds one flag for each
user, which a hub raises when the user's first connection comes to it and lowers when the last one
goes from it, whatever other hubs hold. So the flag is right until one hub lowers it while another
still holds the user, and from then on the user counts as offline although it is connected.
-/

namespace RoomRelay

/-- A connection comes to a hub or goes from it, at an instant. -/
structure ComeOrGo where
  comes : Bool
  now : Nat
  id : ConnId

/-- The operation on the hub. -/
def ComeOrGo.op (x : ComeOrGo) : RosterChange :=
  if x.comes then .register x.now x.id else .unregister x.id

namespace Cluster

variable {ι : Type}

/-- Whether a hub holds a connection of a user. -/
def Holds {β : Type} (c : Cluster ι β) (i : ι) (user : Uuid) : Prop :=
  (c.site i).hub.registry.connectionsOf user ≠ []

instance {β : Type} (c : Cluster ι β) (i : ι) (user : Uuid) : Decidable (c.Holds i user) :=
  inferInstanceAs (Decidable (_ ≠ []))

/-- Hubs just started on a bus that is switched on and holds nothing. -/
def started (configs : ι → Config) (now : Nat) (queues : ι → Queues) : Cluster ι MemoryBus :=
  { hubs := fun i => .start (configs i) now, queues, wired := fun _ => true, bus := .empty }

/-- Asked on any hub while the shared set has not expired, a user counts as online exactly when
some hub holds a connection of it. -/
def TellsWhoIsHeld (c : Cluster ι MemoryBus) (user : Uuid) : Prop :=
  ∀ i now, c.bus.Unexpired now →
    (((c.site i).isOnline now user).2 = true ↔ ∃ j, c.Holds j user)

/-- Every hub runs and is on the bus, and the bus works. -/
structure Serving (c : Cluster ι MemoryBus) : Prop where
  sound : c.Sound
  running : ∀ i, (c.hubs i).stopped = false
  wired : ∀ i, c.wired i = true
  working : c.bus.Working

theorem started_serving (configs : ι → Config) (now : Nat) (queues : ι → Queues) :
    (started configs now queues).Serving where
  sound := fun _ => Registry.sound_empty _
  running := fun _ => rfl
  wired := fun _ => rfl
  working := ⟨rfl, List.nodup_nil⟩

variable {c : Cluster ι MemoryBus} {i j : ι} {user : Uuid}

private theorem ne_nil_iff {α : Type} {l : List α} : l ≠ [] ↔ ∃ a, a ∈ l :=
  ⟨List.exists_mem_of_ne_nil l, fun ⟨_, member⟩ => List.ne_nil_of_mem member⟩

theorem site_bus (serving : c.Serving) (i : ι) : (c.site i).bus = some c.bus := by
  simp [site, serving.wired i]

/-- Any hub on a bus that works answers by the shared set. -/
theorem isOnline_wired (wired : ∀ i, c.wired i = true) (working : c.bus.Working) {now : Nat}
    (unexpired : c.bus.Unexpired now) (i : ι) :
    ((c.site i).isOnline now user).2 = true ↔ c.bus.Shows user := by
  have on : (c.site i).bus = some c.bus := by simp [site, wired i]
  have answered := Presence.isOnline_shared working unexpired (c.site i).hub.presence user
  simpa [Site.isOnline, on] using answered

private theorem isOnline_iff (serving : c.Serving) {now : Nat} (unexpired : c.bus.Unexpired now)
    (i : ι) :
    ((c.site i).isOnline now user).2 = true ↔ c.bus.Shows user :=
  isOnline_wired serving.wired serving.working unexpired i

variable [DecidableEq ι]

/-- The cluster after a connection came or went. -/
def after (c : Cluster ι MemoryBus) (m : ι × ComeOrGo) : Cluster ι MemoryBus := c.step m.1 (.roster m.2.op)

/-- The cluster after connections came and went. -/
def afterAll (c : Cluster ι MemoryBus) (moves : List (ι × ComeOrGo)) : Cluster ι MemoryBus :=
  moves.foldl after c

/-- The shared set has not expired whenever a connection comes or goes, before and after. -/
def NeverExpires (c : Cluster ι MemoryBus) : List (ι × ComeOrGo) → Prop
  | [] => True
  | m :: rest =>
    c.bus.Unexpired m.2.now ∧ (c.after m).bus.Unexpired m.2.now ∧ (c.after m).NeverExpires rest

instance decidableNeverExpires : (c : Cluster ι MemoryBus) → (moves : List (ι × ComeOrGo)) →
    Decidable (c.NeverExpires moves)
  | _, [] => .isTrue trivial
  | c, m :: rest =>
    have := decidableNeverExpires (c.after m) rest
    inferInstanceAs (Decidable (_ ∧ _ ∧ _))

/-- A user's last connection goes from one hub while another still holds the user. -/
def Strands (c : Cluster ι MemoryBus) (m : ι × ComeOrGo) (user : Uuid) : Prop :=
  c.Holds m.1 user ∧ ¬(c.after m).Holds m.1 user ∧ ∃ j, (c.after m).Holds j user

/-! ## One step -/

theorem put_holds (c : Cluster ι MemoryBus) (i : ι) (s : Site MemoryBus) (j : ι) (user : Uuid) :
    (c.put i s).Holds j user ↔
      if j = i then s.hub.registry.connectionsOf user ≠ [] else c.Holds j user := by
  by_cases same : j = i
  · subst same
    simp [Holds, site]
  · simp [Holds, site, same, put_hub_other same]

private theorem put_back (serving : c.Serving) (i : ι) (user : Uuid) :
    ((c.put i (c.site i)).bus.Shows user ↔ c.bus.Shows user) ∧
      ∀ j, (c.put i (c.site i)).Holds j user ↔ c.Holds j user := by
  refine ⟨by simp [put, site_bus serving], fun j => ?_⟩
  rw [put_holds]
  by_cases same : j = i
  · subst same
    simp [Holds]
  · simp [same]

variable {x : ComeOrGo} {k : Connection}

private theorem after_unknown (c : Cluster ι MemoryBus) (i : ι)
    (unknown : (c.site i).queues.get? x.id = none) : c.after (i, x) = c.put i (c.site i) := by
  cases comes : x.comes <;>
    simp [after, step, ComeOrGo.op, comes, Site.act, Site.changeRoster, unknown]

private theorem after_comes (c : Cluster ι MemoryBus) (i : ι) (comes : x.comes = true)
    (found : (c.site i).queues.get? x.id = some k) :
    c.after (i, x) = c.put i ((c.site i).register x.now k.user x.id).1 := by
  simp [after, step, ComeOrGo.op, comes, Site.act, Site.changeRoster, found]

private theorem after_goes (c : Cluster ι MemoryBus) (i : ι) (goes : x.comes = false)
    (found : (c.site i).queues.get? x.id = some k) :
    c.after (i, x) = c.put i ((c.site i).unregister k.user x.id).1 := by
  simp [after, step, ComeOrGo.op, goes, Site.act, Site.changeRoster, found]

/-- A connection that comes makes its hub hold its user. The user is shown if it is the first
there. -/
private theorem register_effect (serving : c.Serving) (i : ι) {now : Nat}
    (unexpired : c.bus.Unexpired now) (v : Uuid) (id : ConnId) :
    let came := c.put i ((c.site i).register now v id).1
    (∀ u, came.bus.Shows u ↔
      u = v ∧ ((c.site i).hub.registry.addConnection v id).connectionCount v = 1 ∨
        c.bus.Shows u) ∧
    (∀ j u, came.Holds j u ↔ c.Holds j u ∨ j = i ∧ u = v) ∧ came.bus.Working := by
  have running : (c.site i).hub.stopped = false := serving.running i
  have bus := Site.register_bus running now v id
  rw [site_bus serving, Presence.markOnline_bus serving.working] at bus
  dsimp only
  refine ⟨?_, ?_, ?_⟩
  · intro u
    by_cases first : ((c.site i).hub.registry.addConnection v id).connectionCount v = 1
    · rw [if_pos first] at bus
      simp only [put, bus, Option.getD_some, MemoryBus.append_shows]
      rw [MemoryBus.setAdd_shows serving.working unexpired]
      simp [first]
    · rw [if_neg first] at bus
      simp [put, bus, first]
  · intro j u
    rw [put_holds]
    by_cases same : j = i
    · subst same
      rw [if_pos rfl, Holds, ne_nil_iff, ne_nil_iff]
      simp only [Site.mem_register, running, true_and]
      constructor
      · rintro ⟨a, before | ⟨rfl, -⟩⟩
        · exact .inl ⟨a, before⟩
        · exact .inr rfl
      · rintro (⟨a, before⟩ | rfl)
        · exact ⟨a, .inl before⟩
        · exact ⟨id, .inr ⟨rfl, rfl⟩⟩
    · simp [same]
  · by_cases first : ((c.site i).hub.registry.addConnection v id).connectionCount v = 1
    · rw [if_pos first] at bus
      simp only [put, bus, Option.getD_some]
      exact MemoryBus.append_working (MemoryBus.setAdd_working serving.working ..) _
    · rw [if_neg first] at bus
      simp only [put, bus, Option.getD_some]
      exact serving.working

/-- A connection that goes leaves its hub holding all users as before, or all but its own when it
was the last there. Then that user is no longer shown. -/
private theorem unregister_effect (serving : c.Serving) (i : ι) (v : Uuid) (id : ConnId) :
    let went := c.put i ((c.site i).unregister v id).1
    let last := id ∈ (c.site i).hub.registry.connectionsOf v ∧
      ((c.site i).hub.registry.removeConnection v id).connectionCount v = 0
    (∀ u, went.bus.Shows u ↔ ¬(u = v ∧ last) ∧ c.bus.Shows u) ∧
    (∀ j u, went.Holds j u ↔ c.Holds j u ∧ ¬((j = i ∧ u = v) ∧ last)) ∧ went.bus.Working := by
  have running : (c.site i).hub.stopped = false := serving.running i
  have once : (c.site i).hub.registry.users.keys.Nodup := (serving.sound i).usersOnce
  have bus := Site.unregister_bus running v id
  rw [site_bus serving, Presence.markOffline_bus serving.working] at bus
  dsimp only
  refine ⟨?_, ?_, ?_⟩
  · intro u
    split at bus
    · rename_i last
      simp only [put, bus, Option.getD_some, MemoryBus.append_shows]
      rw [MemoryBus.setRemove_shows serving.working]
      simp [last]
    · rename_i more
      simp [put, bus, more]
  · intro j u
    rw [put_holds]
    by_cases here : j = i
    · subst here
      rw [if_pos rfl, Holds, ne_nil_iff, ne_nil_iff]
      simp only [Site.mem_unregister once, running, true_and]
      by_cases same : u = v
      · subst same
        have left : ((c.site j).hub.registry.removeConnection u id).connectionCount u = 0 ↔
            ∀ a ∈ (c.site j).hub.registry.connectionsOf u, a = id := by
          rw [Registry.connectionCount, Registry.connectionsOf_removeConnection once, if_pos rfl]
          simp
        rw [left]
        constructor
        · rintro ⟨a, before, stays⟩
          exact ⟨⟨a, before⟩, fun last => stays ⟨rfl, last.2.2 a before⟩⟩
        · rintro ⟨⟨a, before⟩, more⟩
          by_contra nobody
          have all : ∀ b ∈ (c.site j).hub.registry.connectionsOf u, b = id := by
            intro b member
            by_contra other
            exact nobody ⟨b, member, fun both => other both.2⟩
          exact more ⟨rfl, all a before ▸ before, all⟩
      · simp [same]
    · simp [here]
  · split at bus
    · simp only [put, bus, Option.getD_some]
      exact MemoryBus.append_working (MemoryBus.setRemove_working serving.working ..) _
    · simp only [put, bus, Option.getD_some]
      exact serving.working

/-- What one step can do: nothing that counts; or a user comes to a hub and is shown; or a user
goes from a hub and is shown no longer. -/
private theorem after_cases (serving : c.Serving) (i : ι) (x : ComeOrGo)
    (unexpired : c.bus.Unexpired x.now) :
    (∀ u, ((c.after (i, x)).bus.Shows u ↔ c.bus.Shows u) ∧
      ∀ j, (c.after (i, x)).Holds j u ↔ c.Holds j u) ∨
    (∃ v, ∀ u, ((c.after (i, x)).bus.Shows u ↔ u = v ∨ c.bus.Shows u) ∧
      ∀ j, (c.after (i, x)).Holds j u ↔ c.Holds j u ∨ j = i ∧ u = v) ∨
    (∃ v, c.Holds i v ∧ ∀ u, ((c.after (i, x)).bus.Shows u ↔ u ≠ v ∧ c.bus.Shows u) ∧
      ∀ j, (c.after (i, x)).Holds j u ↔ c.Holds j u ∧ ¬(j = i ∧ u = v)) := by
  cases found : (c.site i).queues.get? x.id with
  | none =>
    rw [after_unknown c i found]
    exact .inl fun u => put_back serving i u
  | some k =>
    cases comes : x.comes with
    | true =>
      obtain ⟨shows_, holds, -⟩ := register_effect serving i unexpired k.user x.id
      rw [after_comes c i comes found]
      by_cases first :
          ((c.site i).hub.registry.addConnection k.user x.id).connectionCount k.user = 1
      · refine .inr (.inl ⟨k.user, fun u => ⟨?_, fun j => holds j u⟩⟩)
        simpa [first] using shows_ u
      · refine .inl fun u => ⟨?_, fun j => ?_⟩
        · simpa [first] using shows_ u
        · -- whoever is not the first finds its user there already
          have held : c.Holds i k.user := by
            intro nothing
            apply first
            rw [Registry.connectionCount, Registry.connectionsOf_addConnection, nothing]
            simp
          rw [holds]
          constructor
          · rintro (before | ⟨rfl, rfl⟩)
            · exact before
            · exact held
          · exact .inl
    | false =>
      obtain ⟨shows_, holds, -⟩ := unregister_effect serving i k.user x.id
      rw [after_goes c i comes found]
      by_cases last : x.id ∈ (c.site i).hub.registry.connectionsOf k.user ∧
          ((c.site i).hub.registry.removeConnection k.user x.id).connectionCount k.user = 0
      · refine .inr (.inr ⟨k.user, List.ne_nil_of_mem last.1, fun u => ⟨?_, fun j => ?_⟩⟩)
        · simpa [last] using shows_ u
        · simpa [last] using holds j u
      · refine .inl fun u => ⟨?_, fun j => ?_⟩
        · simpa [last] using shows_ u
        · simpa [last] using holds j u

private theorem after_serving (serving : c.Serving) (m : ι × ComeOrGo)
    (unexpired : c.bus.Unexpired m.2.now) : (c.after m).Serving := by
  obtain ⟨i, x⟩ := m
  refine ⟨step_sound serving.sound i (.roster x.op), ?_, serving.wired, ?_⟩
  · intro j
    by_cases same : j = i
    · subst same
      rw [after, step, put_hub_same]
      exact (Site.changeRoster_fixed (c.site j) x.op).stopped.trans (serving.running j)
    · rw [after, step, put_hub_other same]
      exact serving.running j
  · cases found : (c.site i).queues.get? x.id with
    | none =>
      rw [after_unknown c i found]
      simpa [put, site_bus serving] using serving.working
    | some k =>
      cases comes : x.comes with
      | true =>
        rw [after_comes c i comes found]
        exact (register_effect serving i unexpired k.user x.id).2.2
      | false =>
        rw [after_goes c i comes found]
        exact (unregister_effect serving i k.user x.id).2.2

/-- The user is shown exactly while some hub holds it. -/
def Agrees (c : Cluster ι MemoryBus) (user : Uuid) : Prop :=
  c.bus.Shows user ↔ ∃ j, c.Holds j user

/-- Only a stranding step makes the shared set disagree with the hubs. -/
private theorem after_agrees (serving : c.Serving) (m : ι × ComeOrGo)
    (unexpired : c.bus.Unexpired m.2.now) (agrees : c.Agrees user) (kept : ¬c.Strands m user) :
    (c.after m).Agrees user := by
  obtain ⟨i, x⟩ := m
  rcases after_cases serving i x unexpired with quiet | ⟨v, came⟩ | ⟨v, held, went⟩
  · obtain ⟨shows_, holds⟩ := quiet user
    simp only [Agrees, shows_, holds]
    exact agrees
  · obtain ⟨shows_, holds⟩ := came user
    simp only [Agrees, shows_, holds]
    by_cases same : user = v
    · exact iff_of_true (.inl same) ⟨i, .inr ⟨rfl, same⟩⟩
    · simpa [same] using (show c.bus.Shows user ↔ _ from agrees)
  · obtain ⟨shows_, holds⟩ := went user
    by_cases same : user = v
    · subst same
      have hidden : ¬(c.after (i, x)).bus.Shows user := fun shown => (shows_.mp shown).1 rfl
      refine iff_of_false hidden ?_
      rintro ⟨j, elsewhere⟩
      exact kept ⟨held, fun still => ((holds i).mp still).2 ⟨rfl, rfl⟩, j, elsewhere⟩
    · simp only [Agrees, shows_, holds]
      simpa [same] using (show c.bus.Shows user ↔ _ from agrees)

/-- A stranded user is shown no longer, although a hub holds it. -/
private theorem strands_hides (serving : c.Serving) (m : ι × ComeOrGo)
    (unexpired : c.bus.Unexpired m.2.now) (strands : c.Strands m user) :
    ¬(c.after m).bus.Shows user := by
  obtain ⟨i, x⟩ := m
  obtain ⟨before, gone, -⟩ := strands
  rcases after_cases serving i x unexpired with quiet | ⟨v, came⟩ | ⟨v, -, went⟩
  · exact absurd (((quiet user).2 i).mpr before) gone
  · exact absurd (((came user).2 i).mpr (.inl before)) gone
  · obtain ⟨shows_, holds⟩ := went user
    intro shown
    have different := (shows_.mp shown).1
    exact gone ((holds i).mpr ⟨before, fun both => different both.2⟩)

/-! ## Runs -/

variable {earlier later moves : List (ι × ComeOrGo)}

theorem NeverExpires.take (never : c.NeverExpires (earlier ++ later)) : c.NeverExpires earlier := by
  induction earlier generalizing c with
  | nil => trivial
  | cons m rest ih => exact ⟨never.1, never.2.1, ih never.2.2⟩

theorem NeverExpires.drop (never : c.NeverExpires (earlier ++ later)) :
    (c.afterAll earlier).NeverExpires later := by
  induction earlier generalizing c with
  | nil => exact never
  | cons m rest ih => exact ih never.2.2

private theorem afterAll_serving (serving : c.Serving) (never : c.NeverExpires moves) :
    (c.afterAll moves).Serving := by
  induction moves generalizing c with
  | nil => exact serving
  | cons m rest ih => exact ih (after_serving serving m never.1) never.2.2

/-- A run in which nobody is stranded keeps the shared set in agreement with the hubs. -/
private theorem afterAll_agrees (serving : c.Serving) (never : c.NeverExpires moves)
    (agrees : c.Agrees user)
    (kept : ∀ earlier m later, moves = earlier ++ m :: later →
      ¬(c.afterAll earlier).Strands m user) :
    (c.afterAll moves).Agrees user := by
  induction moves generalizing c with
  | nil => exact agrees
  | cons m rest ih =>
    have first := after_agrees serving m never.1 agrees (kept [] m rest rfl)
    refine ih (after_serving serving m never.1) never.2.2 first ?_
    intro earlier n later split
    exact kept (m :: earlier) n later (by rw [split]; rfl)

/-- On hubs that share a working bus, a user counts as online everywhere exactly while some hub
holds a connection of it, at all times of a run, if and only if no step of the run strands it: takes
its last connection from one hub while another still holds one. -/
theorem online_iff_held_unless_stranded (configs : ι → Config) (start : Nat) (queues : ι → Queues)
    (moves : List (ι × ComeOrGo)) (never : (started configs start queues).NeverExpires moves)
    (user : Uuid) :
    (∀ earlier later, moves = earlier ++ later →
      ((started configs start queues).afterAll earlier).TellsWhoIsHeld user) ↔
    ∀ earlier m later, moves = earlier ++ m :: later →
      ¬((started configs start queues).afterAll earlier).Strands m user := by
  have serving := started_serving configs start queues
  constructor
  · intro truthful earlier m later split strands
    subst split
    have before := afterAll_serving serving never.take
    have step := never.drop
    have next := after_serving before m step.1
    -- right after the step the answer would have to be that the stranded user is online
    have told := truthful (earlier ++ [m]) later (by simp)
    rw [afterAll, List.foldl_append] at told
    have shown := (isOnline_iff next step.2.1 m.1).mp ((told m.1 m.2.now step.2.1).mpr strands.2.2)
    exact strands_hides before m step.1 strands shown
  · intro kept earlier later split i now unexpired
    subst split
    have agreed : (started configs start queues).Agrees user := by
      refine iff_of_false ?_ ?_
      · rintro ⟨s, found, -⟩
        cases found
      · rintro ⟨j, held⟩
        exact held rfl
    have agrees := afterAll_agrees serving never.take agreed fun before m rest split =>
      kept before m (rest ++ later) (by rw [split]; simp)
    exact (isOnline_iff (afterAll_serving serving never.take) unexpired i).trans agrees

/-- Two hubs with a client of user 7 at each. -/
def twoHubs : Cluster Bool MemoryBus :=
  started (fun i => .trial ⟨if i then 1 else 2⟩) 0 fun _ => [(⟨0⟩, { user := ⟨7⟩, capacity := 16 })]

/-- The user comes to both hubs and leaves the first. -/
def comesTwiceLeavesOnce : List (Bool × ComeOrGo) :=
  [(true, ⟨true, 0, ⟨0⟩⟩), (false, ⟨true, 0, ⟨0⟩⟩), (true, ⟨false, 0, ⟨0⟩⟩)]

/-- The user is still connected to the second hub, and counts as offline there. -/
theorem connected_user_told_offline :
    twoHubs.NeverExpires comesTwiceLeavesOnce ∧
      (twoHubs.afterAll comesTwiceLeavesOnce).Holds false ⟨7⟩ ∧
      (((twoHubs.afterAll comesTwiceLeavesOnce).site false).isOnline 0 ⟨7⟩).2 = false := by
  refine ⟨?_, ?_, ?_⟩ <;> decide +kernel

/-- Leaving the first of two hubs strands the user, so somewhere on the way the answer is wrong. -/
theorem comesTwiceLeavesOnce_misleads :
    twoHubs.NeverExpires comesTwiceLeavesOnce ∧
      ¬∀ earlier later, comesTwiceLeavesOnce = earlier ++ later →
        (twoHubs.afterAll earlier).TellsWhoIsHeld ⟨7⟩ := by
  have never : twoHubs.NeverExpires comesTwiceLeavesOnce := by decide +kernel
  refine ⟨never, fun truthful => ?_⟩
  have kept := (online_iff_held_unless_stranded _ 0 _ comesTwiceLeavesOnce never ⟨7⟩).mp truthful
  refine kept (comesTwiceLeavesOnce.take 2) (true, ⟨false, 0, ⟨0⟩⟩) [] rfl ⟨?_, ?_, false, ?_⟩ <;>
    decide +kernel

end Cluster

end RoomRelay
