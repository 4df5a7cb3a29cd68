import RoomRelay.Proofs.Marks
import RoomRelay.Proofs.SharedPresence

/-!
Hubs whose bus comes and goes. Connections come to the hubs and go from them, hubs renew presence
and are brought to their end, and the bus is switched on and off in between. Whatever the bus does,
a hub marks a user when its first connection comes and when its last one goes; while the bus is off
the marks are lost. What is said here of one step and of a run is who is held afterwards, and who
stands in the shared set, in terms of the marks that were made and of those that got through.
-/

namespace RoomRelay

/-- Something that changes who is connected to a hub, or renews what is known of it. -/
inductive Change where
  | roster (x : RosterChange)
  | ending (x : Ending)

/-- The operation on the hub. -/
def Change.op {β : Type} : Change → Op β
  | .roster x => .roster x
  | .ending x => .ending x

/-- A change on one of the hubs, or their bus is switched on or off. -/
inductive Incident (ι : Type) where
  | change (i : ι) (x : Change)
  | power (on : Bool)

/-- A mark, and whether the bus was switched on when it was made. -/
structure Attempt where
  mark : Mark
  through : Bool
deriving DecidableEq

/-! ## On one hub -/

namespace Site

variable {β : Type}

/-- The marks that a change makes, whether they get through or not. -/
def marks (s : Site β) : Change → List Mark
  | .roster (.register now id) =>
    match s.owner id with
    | some user =>
      if s.hub.stopped = false ∧ (s.hub.registry.addConnection user id).connectionCount user = 1
      then [.add now user] else []
    | none => []
  | .roster (.unregister id) =>
    match s.owner id with
    | some user =>
      if s.hub.stopped = false ∧ id ∈ s.connectionsOf user ∧
          (s.hub.registry.removeConnection user id).connectionCount user = 0
      then [.remove user] else []
    | none => []
  | .roster (.refresh now) => s.hub.registry.connectedUsers.map (.add now)
  | .ending .evictAll => s.hub.registry.connectedUsers.map .remove
  | _ => []

variable {s : Site β} {user : Uuid} {x : Change}

/-- A change adds users at one instant, or it removes users. -/
theorem marks_cases (s : Site β) (x : Change) :
    (∃ now, ∃ users : List Uuid, s.marks x = users.map (.add now)) ∨
      ∃ users : List Uuid, s.marks x = users.map .remove := by
  cases x with
  | roster x =>
    cases x with
    | register now id =>
      refine .inl ⟨now, ?_⟩
      simp only [marks]
      split
      · split
        · exact ⟨[_], rfl⟩
        · exact ⟨[], rfl⟩
      · exact ⟨[], rfl⟩
    | unregister id =>
      refine .inr ?_
      simp only [marks]
      split
      · split
        · exact ⟨[_], rfl⟩
        · exact ⟨[], rfl⟩
      · exact ⟨[], rfl⟩
    | listen room user => exact .inr ⟨[], rfl⟩
    | unlisten room user => exact .inr ⟨[], rfl⟩
    | refresh now => exact .inl ⟨now, _, rfl⟩
  | ending x =>
    cases x with
    | stopRelay => exact .inr ⟨[], rfl⟩
    | closeAll => exact .inr ⟨[], rfl⟩
    | evictAll => exact .inr ⟨_, rfl⟩

variable [SharedBus β] {known : ConnId → Option Uuid}

/-- Whoever is held after a change was held before or is marked by it. -/
private theorem held_before_or_added (sound : s.hub.registry.Sound known) (x : Change)
    (held : (s.act x.op).connectionsOf user ≠ []) :
    s.connectionsOf user ≠ [] ∨ ∃ now, .add now user ∈ s.marks x := by
  obtain ⟨a, member⟩ := List.exists_mem_of_ne_nil _ held
  rcases (mem_act sound x.op user a).mp member with ⟨before, -⟩ | brings
  · exact .inl (List.ne_nil_of_mem before)
  · cases x with
    | ending x => exact brings.elim
    | roster x =>
      cases x with
      | register now id =>
        obtain ⟨running, owned, -⟩ := brings
        by_cases first : s.connectionsOf user = []
        · have alone : (s.hub.registry.addConnection user id).connectionCount user = 1 := by
            rw [Registry.connectionCount, Registry.connectionsOf_addConnection,
              show s.hub.registry.connectionsOf user = [] from first]
            simp
          exact .inr ⟨now, by simp [marks, owned, running, alone]⟩
        · exact .inl first
      | unregister _ | listen _ _ | unlisten _ _ | refresh _ => exact brings.elim

/-- Whoever is held before a change is held after it or is marked by it. -/
private theorem held_after_or_removed (sound : s.hub.registry.Sound known) (x : Change)
    (held : s.connectionsOf user ≠ []) :
    (s.act x.op).connectionsOf user ≠ [] ∨ .remove user ∈ s.marks x := by
  by_cases stays : ∃ a ∈ s.connectionsOf user, ¬s.Takes user a (x.op : Op β)
  · obtain ⟨a, member, kept⟩ := stays
    exact .inl (List.ne_nil_of_mem ((mem_act sound x.op user a).mpr (.inl ⟨member, kept⟩)))
  · push Not at stays
    obtain ⟨a, member⟩ := List.exists_mem_of_ne_nil _ held
    have taken := stays a member
    refine .inr ?_
    cases x with
    | roster x =>
      cases x with
      | unregister id =>
        obtain ⟨running, owned, rfl⟩ := taken
        have last : (s.hub.registry.removeConnection user a).connectionCount user = 0 := by
          rw [Registry.connectionCount, Registry.connectionsOf_removeConnection sound.usersOnce]
          simpa using fun other there => (stays other there).2.2
        simp [marks, owned, running, member, last]
      | register _ _ | listen _ _ | unlisten _ _ | refresh _ => exact taken.elim
    | ending x =>
      cases x with
      | evictAll => exact List.mem_map_of_mem (sound.mem_connectedUsers.mpr held)
      | stopRelay | closeAll => exact taken.elim

/-- Whoever is marked as online by a change is held after it. -/
theorem held_of_added (sound : s.hub.registry.Sound known) {x : Change} {now : Nat}
    (added : .add now user ∈ s.marks x) : (s.act x.op).connectionsOf user ≠ [] := by
  cases x with
  | roster x =>
    cases x with
    | register then_ id =>
      simp only [marks] at added
      split at added
      · rename_i owner owned
        split at added
        · rename_i first
          cases List.mem_singleton.mp added
          have came := (mem_act sound (.roster (.register now id) : Op β) user id).mpr
            (.inr ⟨first.1, owned, rfl⟩)
          exact List.ne_nil_of_mem came
        · cases added
      · cases added
    | unregister id =>
      simp only [marks] at added
      split at added
      · split at added <;> simp at added
      · cases added
    | listen _ _ | unlisten _ _ => cases added
    | refresh then_ =>
      obtain ⟨other, member, same⟩ := List.mem_map.mp added
      obtain ⟨-, rfl⟩ := Mark.add.inj same
      simpa [connectionsOf, Change.op, act, changeRoster, refresh_hub] using
        sound.mem_connectedUsers.mp member
  | ending x =>
    cases x with
    | evictAll => simp [marks] at added
    | stopRelay | closeAll => cases added

/-! ### What the marks make of the bus -/

section OnMemoryBus

variable {s : Site MemoryBus} {b : MemoryBus}

private theorem act_marks_of_still (on : s.bus = some b) (still : (s.act x.op).bus = s.bus)
    (unmarked : s.marks x = []) :
    ∃ b', (s.act x.op).bus = some b' ∧
      (b.markAll s.hub.presence.lease (s.marks x)).Alike b' :=
  ⟨b, still.trans on, unmarked ▸ .refl b⟩

private theorem register_marks (on : s.bus = some b) (now : Nat) (id : ConnId) :
    let x := Change.roster (.register now id)
    ∃ b', (s.act x.op).bus = some b' ∧
      (b.markAll s.hub.presence.lease (s.marks x)).Alike b' := by
  cases owned : s.owner id with
  | none =>
    refine act_marks_of_still on ?_ (by simp [marks, owned])
    rw [Change.op, (act_nobody owned now).1]
  | some user =>
    have acts : s.act (Change.roster (.register now id)).op = (s.register now user id).1 :=
      act_register owned now
    by_cases stopped : s.hub.stopped = true
    · refine act_marks_of_still on ?_ (by simp [marks, owned, stopped])
      rw [acts, register_stopped stopped]
    · have running := Bool.eq_false_iff.mpr stopped
      have bus := register_bus running now user id
      by_cases first : (s.hub.registry.addConnection user id).connectionCount user = 1
      · obtain ⟨b', marked, alike⟩ := s.hub.presence.markOnline_marks b now user
        refine ⟨b', ?_, by simpa [marks, owned, running, first, MemoryBus.markAll] using alike⟩
        rw [acts, bus, if_pos first, on, marked]
      · refine act_marks_of_still on ?_ (by simp [marks, owned, first])
        rw [acts, bus, if_neg first]

private theorem unregister_marks (on : s.bus = some b) (id : ConnId) :
    let x := Change.roster (.unregister id)
    ∃ b', (s.act x.op).bus = some b' ∧
      (b.markAll s.hub.presence.lease (s.marks x)).Alike b' := by
  cases owned : s.owner id with
  | none =>
    refine act_marks_of_still on ?_ (by simp [marks, owned])
    rw [Change.op, (act_nobody owned 0).2]
  | some user =>
    have acts : s.act (Change.roster (.unregister id)).op = (s.unregister user id).1 :=
      act_unregister owned
    by_cases stopped : s.hub.stopped = true
    · refine act_marks_of_still on ?_ (by simp [marks, owned, stopped])
      rw [acts, unregister_stopped stopped]
    · have running := Bool.eq_false_iff.mpr stopped
      have bus := unregister_bus running user id
      by_cases last : id ∈ s.connectionsOf user ∧
          (s.hub.registry.removeConnection user id).connectionCount user = 0
      · obtain ⟨b', marked, alike⟩ := s.hub.presence.markOffline_marks b user
        refine ⟨b', ?_, by simpa [marks, owned, running, last, MemoryBus.markAll] using alike⟩
        rw [acts, bus, if_pos last, on, marked]
      · refine act_marks_of_still on ?_
          (by simp only [marks, owned, running, true_and, if_neg last])
        rw [acts, bus, if_neg last]

private theorem evictFold_marks (on : s.bus = some b) (leftover : Table Uuid (List ConnId)) :
    ∃ b', (leftover.foldl (fun s e => s.evictUser e.1 e.2) s).bus = some b' ∧
      (b.markAll s.hub.presence.lease (leftover.keys.map .remove)).Alike b' := by
  induction leftover generalizing s b with
  | nil => exact ⟨b, on, .refl b⟩
  | cons entry rest ih =>
    obtain ⟨b', marked, alike⟩ := s.hub.presence.markOffline_marks b entry.1
    have evicted : (s.evictUser entry.1 entry.2).bus = some b' := by
      rw [← marked, ← on]
      rfl
    obtain ⟨b'', folded, alike'⟩ := ih evicted
    refine ⟨b'', folded, (MemoryBus.markAll_alike alike _ _).trans ?_⟩
    have lease : (s.evictUser entry.1 entry.2).hub.presence.lease = s.hub.presence.lease := by
      rw [evictUser, markOffline_hub]
      rfl
    rwa [lease] at alike'

/-- A change does to the bus what its marks do, and publishes messages at most. -/
theorem act_marks (on : s.bus = some b) (x : Change) :
    ∃ b', (s.act x.op).bus = some b' ∧
      (b.markAll s.hub.presence.lease (s.marks x)).Alike b' := by
  cases x with
  | roster x =>
    cases x with
    | register now id => exact register_marks on now id
    | unregister id => exact unregister_marks on id
    | listen _ _ | unlisten _ _ => exact act_marks_of_still on rfl rfl
    | refresh now =>
      by_cases nobody : s.hub.registry.connectedUsers.isEmpty = true
      · refine act_marks_of_still on ?_ (by simp [marks, List.isEmpty_iff.mp nobody])
        simp [Change.op, act, changeRoster, Site.refresh, nobody]
      · refine ⟨_, ?_, .refl _⟩
        simp [Change.op, act, changeRoster, Site.refresh, nobody, on, Presence.refresh,
          Presence.refreshOn_marks, marks]
  | ending x =>
    cases x with
    | stopRelay | closeAll => exact act_marks_of_still on rfl rfl
    | evictAll =>
      let emptied :=
        { s with hub := { s.hub with registry := { s.hub.registry with users := [] } } }
      exact evictFold_marks (s := emptied) on s.hub.registry.users

end OnMemoryBus

end Site

/-! ## On several hubs -/

namespace Cluster

variable {ι : Type}

/-- The marks that an incident makes. -/
def marks {β : Type} (c : Cluster ι β) : Incident ι → List Mark
  | .change i x => (c.site i).marks x
  | .power _ => []

/-- All hubs are on the bus, which holds no set twice. -/
structure Joined (c : Cluster ι MemoryBus) : Prop where
  sound : c.Sound
  wired : ∀ i, c.wired i = true
  setsOnce : c.bus.sets.keys.Nodup

/-- Hubs just started on a bus that is on and holds nothing. -/
def JustStarted (c : Cluster ι MemoryBus) : Prop :=
  ∃ configs now queues, c = started configs now queues

theorem JustStarted.joined {c : Cluster ι MemoryBus} (begins : c.JustStarted) : c.Joined := by
  obtain ⟨configs, now, queues, rfl⟩ := begins
  have serving := started_serving configs now queues
  exact ⟨serving.sound, serving.wired, serving.working.setsOnce⟩

theorem JustStarted.shows_nobody {c : Cluster ι MemoryBus} (begins : c.JustStarted) {user : Uuid} :
    ¬c.bus.Shows user := by
  obtain ⟨configs, now, queues, rfl⟩ := begins
  rintro ⟨s, found, -⟩
  cases found

theorem Joined.site_bus {c : Cluster ι MemoryBus} (joined : c.Joined) (i : ι) :
    (c.site i).bus = some c.bus := by
  simp [site, joined.wired i]

variable [DecidableEq ι]

/-- The cluster after an incident. -/
def undergo (c : Cluster ι MemoryBus) : Incident ι → Cluster ι MemoryBus
  | .change i x => c.step i x.op
  | .power on => { c with bus := { c.bus with available := on } }

/-- The cluster after incidents, one after another. -/
def undergoAll (c : Cluster ι MemoryBus) (incidents : List (Incident ι)) : Cluster ι MemoryBus :=
  incidents.foldl undergo c

/-- All the marks that incidents make, in order. -/
def attempts (c : Cluster ι MemoryBus) : List (Incident ι) → List Attempt
  | [] => []
  | m :: rest =>
    (c.marks m).map (fun mark => ⟨mark, c.bus.available⟩) ++ (c.undergo m).attempts rest

/-- The shared set is not expired when an incident adds users, before or after. -/
def Lasts (c : Cluster ι MemoryBus) (m : Incident ι) : Prop :=
  ∀ now ∈ instants (c.marks m), c.bus.Unexpired now ∧ (c.undergo m).bus.Unexpired now

instance (c : Cluster ι MemoryBus) (m : Incident ι) : Decidable (c.Lasts m) :=
  inferInstanceAs (Decidable (∀ _ ∈ _, _ ∧ _))

/-- The shared set does not expire while incidents happen. -/
def LastsThrough (c : Cluster ι MemoryBus) : List (Incident ι) → Prop
  | [] => True
  | m :: rest => c.Lasts m ∧ (c.undergo m).LastsThrough rest

instance decidableLastsThrough : (c : Cluster ι MemoryBus) → (incidents : List (Incident ι)) →
    Decidable (c.LastsThrough incidents)
  | _, [] => .isTrue trivial
  | c, m :: rest =>
    have := decidableLastsThrough (c.undergo m) rest
    inferInstanceAs (Decidable (_ ∧ _))

variable {c : Cluster ι MemoryBus} {i : ι} {user : Uuid} {m : Incident ι}
  {incidents : List (Incident ι)}

/-! ### One incident -/

private theorem change_marks (joined : c.Joined) (i : ι) (x : Change) :
    (c.bus.markAll (c.hubs i).presence.lease (c.marks (.change i x))).Alike
      (c.undergo (.change i x)).bus := by
  obtain ⟨b', after, alike⟩ := Site.act_marks (s := c.site i) (joined.site_bus i) x
  have bus : (c.undergo (.change i x)).bus = b' := by simp [undergo, step, put, after]
  rw [bus]
  exact alike

theorem undergo_joined (joined : c.Joined) (m : Incident ι) : (c.undergo m).Joined := by
  cases m with
  | power on => exact ⟨joined.sound, joined.wired, joined.setsOnce⟩
  | change i x =>
    refine ⟨step_sound joined.sound i x.op, joined.wired, ?_⟩
    rw [(change_marks joined i x).sets]
    exact MemoryBus.markAll_setsOnce joined.setsOnce ..

theorem undergo_available (joined : c.Joined) (m : Incident ι) :
    (c.undergo m).bus.available =
      match m with
      | .change _ _ => c.bus.available
      | .power on => on := by
  cases m with
  | power on => rfl
  | change i x => exact (change_marks joined i x).available.trans (MemoryBus.markAll_available ..)

/-- Whoever is held after an incident was held before or is marked by it. -/
theorem holds_before_or_added (joined : c.Joined) (held : (c.undergo m).Holds i user) :
    c.Holds i user ∨ ∃ now, .add now user ∈ c.marks m := by
  cases m with
  | power on => exact .inl held
  | change j x =>
    rw [undergo, step, put_holds] at held
    split at held
    · rename_i same
      subst same
      exact Site.held_before_or_added (s := c.site i) (joined.sound i) x held
    · exact .inl held

/-- Whoever is held before an incident is held after it or is marked by it. -/
private theorem holds_after_or_removed (joined : c.Joined) (held : c.Holds i user)
    (m : Incident ι) :
    (c.undergo m).Holds i user ∨ .remove user ∈ c.marks m := by
  cases m with
  | power on => exact .inl held
  | change j x =>
    rw [undergo, step, put_holds]
    split
    · rename_i same
      subst same
      exact Site.held_after_or_removed (s := c.site i) (joined.sound i) x held
    · exact .inl held

/-- Whoever an incident marks as online is held after it. -/
theorem holds_of_added (joined : c.Joined) {now : Nat} (added : .add now user ∈ c.marks m) :
    ∃ i, (c.undergo m).Holds i user := by
  cases m with
  | power on => cases added
  | change i x =>
    refine ⟨i, ?_⟩
    rw [undergo, step, put_holds, if_pos rfl]
    exact Site.held_of_added (s := c.site i) (joined.sound i) added

/-- Nobody comes into the shared set but by a mark that gets through, and nobody stays in it after
a mark to the contrary got through. -/
theorem shows_before_or_added (joined : c.Joined) (shows_ : (c.undergo m).bus.Shows user) :
    (c.bus.available = true ∧ ∃ now, .add now user ∈ c.marks m) ∨
      c.bus.Shows user ∧ ¬(c.bus.available = true ∧ .remove user ∈ c.marks m) := by
  cases m with
  | power on => exact .inr ⟨shows_, fun removed => List.not_mem_nil removed.2⟩
  | change i x =>
    rw [(change_marks joined i x).shows_iff] at shows_
    by_cases up : c.bus.available = true
    · rcases MemoryBus.shows_of_markAll ⟨up, joined.setsOnce⟩ shows_ with added | ⟨before, kept⟩
      · exact .inl ⟨up, added⟩
      · exact .inr ⟨before, fun removed => kept removed.2⟩
    · rw [MemoryBus.markAll_lost (Bool.eq_false_iff.mpr up)] at shows_
      exact .inr ⟨shows_, fun removed => up removed.1⟩

/-- A mark that gets through adds its user, whether the set had expired or not. -/
theorem shows_of_added (joined : c.Joined) (up : c.bus.available = true)
    (renewed : ∀ now ∈ instants (c.marks m), (c.undergo m).bus.Unexpired now) {now : Nat}
    (added : .add now user ∈ c.marks m) : (c.undergo m).bus.Shows user := by
  have after := renewed now (mem_instants.mpr ⟨user, added⟩)
  cases m with
  | power on => cases added
  | change i x =>
    have working : c.bus.Working := ⟨up, joined.setsOnce⟩
    have alike := change_marks joined i x
    rw [alike.unexpired_iff] at after
    rw [alike.shows_iff]
    rcases Site.marks_cases (c.site i) x with ⟨then_, users, adds⟩ | ⟨users, removes⟩
    · have marks : c.marks (.change i x) = users.map (.add then_) := adds
      rw [marks] at added after ⊢
      obtain ⟨other, member, same⟩ := List.mem_map.mp added
      obtain ⟨rfl, rfl⟩ := Mark.add.inj same
      exact MemoryBus.markAll_add_shows_added working member after
    · have marks : c.marks (.change i x) = users.map .remove := removes
      simp [marks] at added

/-- While the set lasts, whoever stands in it stays until a mark to the contrary gets through. -/
theorem shows_of_before (joined : c.Joined) (lasts : c.Lasts m) (before : c.bus.Shows user)
    (kept : ¬(c.bus.available = true ∧ .remove user ∈ c.marks m)) :
    (c.undergo m).bus.Shows user := by
  cases m with
  | power on => exact before
  | change i x =>
    have alike := change_marks joined i x
    rw [alike.shows_iff]
    by_cases up : c.bus.available = true
    · have working : c.bus.Working := ⟨up, joined.setsOnce⟩
      rcases Site.marks_cases (c.site i) x with ⟨then_, users, adds⟩ | ⟨users, removes⟩
      · have marks : c.marks (.change i x) = users.map (.add then_) := adds
        -- Who adds nobody asks nothing of the lease.
        by_cases nobody : users = []
        · simpa [marks, nobody, MemoryBus.markAll] using before
        · obtain ⟨first, nonempty⟩ := List.exists_mem_of_ne_nil users nobody
          obtain ⟨unexpired, after⟩ := lasts then_
            (mem_instants.mpr ⟨first, marks ▸ List.mem_map_of_mem nonempty⟩)
          rw [alike.unexpired_iff, marks] at after
          rw [marks, MemoryBus.markAll_add_shows working unexpired after]
          exact .inr before
      · have marks : c.marks (.change i x) = users.map .remove := removes
        rw [marks, MemoryBus.markAll_remove_shows working]
        exact ⟨fun member => kept ⟨up, marks ▸ List.mem_map_of_mem member⟩, before⟩
    · rw [MemoryBus.markAll_lost (Bool.eq_false_iff.mpr up)]
      exact before

/-! ### Runs -/

theorem undergoAll_joined (joined : c.Joined) (incidents : List (Incident ι)) :
    (c.undergoAll incidents).Joined := by
  induction incidents generalizing c with
  | nil => exact joined
  | cons m rest ih => exact ih (undergo_joined joined m)

theorem mem_attempts_cons {a : Attempt} :
    a ∈ c.attempts (m :: incidents) ↔
      (a.mark ∈ c.marks m ∧ a.through = c.bus.available) ∨
        a ∈ (c.undergo m).attempts incidents := by
  obtain ⟨mark, through⟩ := a
  simp [attempts, eq_comm]

/-- Whoever is held stays so until it is marked. -/
theorem holds_until_removed (joined : c.Joined) (held : c.Holds i user)
    (incidents : List (Incident ι)) :
    (c.undergoAll incidents).Holds i user ∨
      ∃ through, ⟨.remove user, through⟩ ∈ c.attempts incidents := by
  induction incidents generalizing c with
  | nil => exact .inl held
  | cons m rest ih =>
    rcases holds_after_or_removed joined held m with still | removed
    · rcases ih (undergo_joined joined m) still with last | ⟨through, later⟩
      · exact .inl last
      · exact .inr ⟨through, mem_attempts_cons.mpr (.inr later)⟩
    · exact .inr ⟨_, mem_attempts_cons.mpr (.inl ⟨removed, rfl⟩)⟩

end Cluster

end RoomRelay
