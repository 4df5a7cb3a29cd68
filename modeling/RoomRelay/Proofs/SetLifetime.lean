import Mathlib.Data.List.Chain
import RoomRelay.Proofs.Marks
import RoomRelay.Proofs.Membership

/-!
How long a user counts as online without being marked again. The shared set has one lease for all
who are in it, and whoever adds a user renews the lease of the others. So a user whose hub is gone
stays online as long as some hub goes on adding users in time, and no longer.
-/

namespace RoomRelay

/-! ## What is asked of the parts of presence -/

/-- A call to a hub's part of presence: `mark_online`, `mark_offline`, `refresh`, or
`online_among`. -/
inductive PresenceCall where
  | markOnline (user : Uuid)
  | markOffline (user : Uuid)
  | refresh (users : List Uuid)
  | ask (users : List Uuid)

/-- A call at an instant, and whose part of presence it is made to. -/
structure TimedCall (ι : Type) where
  now : Nat
  tracker : ι
  call : PresenceCall

/-- The marks that a call makes. -/
def TimedCall.marks {ι : Type} (c : TimedCall ι) : List Mark :=
  match c.call with
  | .markOnline user => [.add c.now user]
  | .markOffline user => [.remove user]
  | .refresh users => users.map (.add c.now)
  | .ask _ => []

/-- The parts of presence of several hubs, on one bus in memory. -/
structure Trackers (ι : Type) where
  part : ι → Presence
  bus : MemoryBus

namespace Trackers

variable {ι : Type} [DecidableEq ι]

/-- The trackers after a call. -/
def after (t : Trackers ι) (c : TimedCall ι) : Trackers ι :=
  let p := t.part c.tracker
  match c.call with
  | .markOnline user =>
    let (p, bus) := p.markOnline (some t.bus) c.now user
    ⟨Function.update t.part c.tracker p, bus.getD t.bus⟩
  | .markOffline user =>
    let (p, bus) := p.markOffline (some t.bus) user
    ⟨Function.update t.part c.tracker p, bus.getD t.bus⟩
  | .refresh users => { t with bus := (p.refresh (some t.bus) c.now users).getD t.bus }
  | .ask users => { t with bus := (p.onlineAmong (some t.bus) c.now users).1.getD t.bus }

/-- Whether a call comes back: its marks do if their lease is granted, and the other calls do. -/
def comesBack (t : Trackers ι) (c : TimedCall ι) : Bool :=
  c.marks.all fun
    | .add now _ => SharedBus.grants t.bus now (t.part c.tracker).lease
    | .remove _ => true

/-- The trackers after calls, one after another, if each call comes back. -/
def afterAll? (t : Trackers ι) (calls : List (TimedCall ι)) : Option (Trackers ι) :=
  calls.foldlM (fun t c => if t.comesBack c then some (t.after c) else none) t

/-- Trackers on a bus that is switched on and holds nothing yet. -/
def started (part : ι → Presence) : Trackers ι := ⟨part, .empty⟩

end Trackers

/-! ## How long a mark lasts -/

/-- The user was added and not removed since, and from then until now no lease went by without
some user being added. -/
def Lingers (lease : Duration) (marks : List Mark) (now : Nat) (user : Uuid) : Prop :=
  ∃ before added since, marks = before ++ .add added user :: since ∧ .remove user ∉ since ∧
    (added :: (instants since ++ [now])).IsChain fun a b => b < a + lease.nanos

variable {lease : Duration} {marks before since : List Mark} {now later : Nat} {user other : Uuid}

@[simp] theorem instants_nil : instants [] = [] := rfl

@[simp] theorem instants_add :
    instants (marks ++ [.add now user]) = instants marks ++ [now] := by
  simp [instants, Mark.instant?]

@[simp] theorem instants_remove : instants (marks ++ [.remove user]) = instants marks := by
  simp [instants, Mark.instant?]

private theorem concat_eq_split {α : Type} {l before since : List α} {a b : α} :
    l ++ [a] = before ++ b :: since ↔
      l = before ∧ a = b ∧ since = [] ∨ ∃ rest, since = rest ++ [a] ∧ l = before ++ b :: rest := by
  constructor
  · intro split
    rcases List.eq_nil_or_concat since with rfl | ⟨rest, last, rfl⟩
    · exact .inl (by simpa using List.append_inj' split rfl)
    · rw [List.concat_eq_append, ← List.cons_append, ← List.append_assoc] at split
      obtain ⟨same, ends⟩ := List.append_inj' split rfl
      cases ends
      exact .inr ⟨rest, List.concat_eq_append, same⟩
  · rintro (⟨rfl, rfl, rfl⟩ | ⟨rest, rfl, rfl⟩) <;> simp

private theorem not_lingers_nil : ¬Lingers lease [] now user := by
  rintro ⟨before, added, since, split, -⟩
  simp at split

/-- Whoever was in the set when somebody is added stays for another lease. -/
private theorem lingers_add :
    Lingers lease (marks ++ [.add now user]) later other ↔
      later < now + lease.nanos ∧ (other = user ∨ Lingers lease marks now other) := by
  constructor
  · rintro ⟨before, added, since, split, kept, chain⟩
    rcases concat_eq_split.mp split with ⟨-, same, rfl⟩ | ⟨rest, rfl, rfl⟩
    · cases same
      exact ⟨by simpa using chain, .inl rfl⟩
    · simp only [instants_add, List.append_assoc, List.cons_append, List.nil_append,
        List.isChain_cons_append_cons_cons] at chain
      obtain ⟨earlier, inTime, -⟩ := chain
      exact ⟨inTime, .inr ⟨before, added, rest, rfl,
        fun removed => kept (List.mem_append_left _ removed), earlier⟩⟩
  · rintro ⟨inTime, rfl | ⟨before, added, since, rfl, kept, chain⟩⟩
    · exact ⟨marks, now, [], rfl, List.not_mem_nil, by simpa using inTime⟩
    · refine ⟨before, added, since ++ [.add now user], by simp, by simpa using kept, ?_⟩
      simp only [instants_add, List.append_assoc, List.cons_append, List.nil_append,
        List.isChain_cons_append_cons_cons]
      exact ⟨chain, inTime, List.isChain_singleton _⟩

/-- Only the user that is removed goes, and nobody's time gets longer. -/
private theorem lingers_remove :
    Lingers lease (marks ++ [.remove user]) later other ↔
      other ≠ user ∧ Lingers lease marks later other := by
  constructor
  · rintro ⟨before, added, since, split, kept, chain⟩
    rcases concat_eq_split.mp split with ⟨-, same, -⟩ | ⟨rest, rfl, rfl⟩
    · cases same
    · refine ⟨?_, before, added, rest, rfl,
        fun removed => kept (List.mem_append_left _ removed), ?_⟩
      · rintro rfl
        exact kept (List.mem_append_right _ (List.mem_singleton_self _))
      · simpa using chain
  · rintro ⟨different, before, added, since, rfl, kept, chain⟩
    refine ⟨before, added, since ++ [.remove user], by simp, ?_, by simpa using chain⟩
    simpa [kept] using different

/-! ## The set tells who lingers -/

namespace MemoryBus

/-- From an instant on, the bus holds in its set those who linger after the marks. -/
structure Tells (b : MemoryBus) (lease : Duration) (marks : List Mark) (now : Nat) : Prop where
  working : b.Working
  live : ∀ later, now ≤ later → ∀ user : Uuid,
    user.text ∈ b.liveMembers later Channel.onlineSet ↔ Lingers lease marks later user

variable {b b' : MemoryBus}

private theorem empty_tells (lease : Duration) : empty.Tells lease [] 0 where
  working := ⟨rfl, List.nodup_nil⟩
  live := fun _ _ user =>
    iff_of_false (List.not_mem_nil (a := user.text)) not_lingers_nil

namespace Tells

theorem wait (tells : b.Tells lease marks now) (passed : now ≤ later) :
    b.Tells lease marks later :=
  ⟨tells.working, fun t reached => tells.live t (passed.trans reached)⟩

theorem alike (tells : b.Tells lease marks now) (alike : b.Alike b') :
    b'.Tells lease marks now where
  working := alike.working tells.working
  live := fun t reached user => by rw [alike.live]; exact tells.live t reached user

theorem add (tells : b.Tells lease marks now) (user : Uuid) :
    (b.mark lease (.add now user)).Tells lease (marks ++ [.add now user]) now where
  working := mark_working tells.working ..
  live := fun t _ other => by
    rw [mem_live_add tells.working, lingers_add, tells.live now (Nat.le_refl now)]

theorem remove (tells : b.Tells lease marks now) (user : Uuid) :
    (b.mark lease (.remove user)).Tells lease (marks ++ [.remove user]) now where
  working := mark_working tells.working ..
  live := fun t reached other => by
    rw [mem_live_remove tells.working, lingers_remove, tells.live t reached]

private theorem addAll (tells : b.Tells lease marks now) (users : List Uuid) :
    (b.markAll lease (users.map (.add now))).Tells lease (marks ++ users.map (.add now)) now := by
  induction users generalizing b marks with
  | nil => simpa [markAll] using tells
  | cons user rest ih => simpa [markAll] using ih (tells.add user)

/-- A question drops the set when its lease has ended, which changes nothing from then on. -/
theorem ask (tells : b.Tells lease marks now) (texts : List String) :
    (b.setContains now Channel.onlineSet texts).1.Tells lease marks now := by
  have once := tells.working.setsOnce
  simp only [setContains, tells.working.available, if_true]
  cases found : b.sets.get? Channel.onlineSet with
  | none => exact ⟨⟨rfl, once⟩, tells.live⟩
  | some s =>
    by_cases ended : s.expiresAt ≤ now
    · simp only [ended, if_true]
      refine ⟨⟨rfl, Table.keys_erase_nodup once⟩, fun t reached user => ?_⟩
      have lapsed : b.liveMembers t Channel.onlineSet = [] := by
        simp [liveMembers, found, ended.trans reached]
      rw [← tells.live t reached, lapsed]
      simp [liveMembers, Table.get?_erase once]
    · simp only [ended, if_false]
      exact ⟨⟨rfl, once⟩, tells.live⟩

end Tells

end MemoryBus

/-! ## Runs -/

namespace Trackers

variable {ι : Type} [DecidableEq ι] {t : Trackers ι} {calls : List (TimedCall ι)}

private theorem after_lease (same : ∀ i, (t.part i).lease = lease) (c : TimedCall ι) (i : ι) :
    ((t.after c).part i).lease = lease := by
  by_cases called : i = c.tracker
  · subst called
    simp only [after]
    split <;> simp [same]
  · simp only [after]
    split <;> simp [Function.update_of_ne called, same]

/-- One call leaves on the bus those who linger after its marks too. -/
private theorem after_tells (same : ∀ i, (t.part i).lease = lease)
    (tells : t.bus.Tells lease marks now)
    (c : TimedCall ι) (passed : now ≤ c.now) :
    (t.after c).bus.Tells lease (marks ++ c.marks) c.now := by
  have tells := tells.wait passed
  simp only [after, TimedCall.marks]
  cases c.call with
  | markOnline user =>
    obtain ⟨b', marked, alike⟩ := (t.part c.tracker).markOnline_marks t.bus c.now user
    simp only [marked, Option.getD_some]
    rw [same] at alike
    exact (tells.add user).alike alike
  | markOffline user =>
    obtain ⟨b', marked, alike⟩ := (t.part c.tracker).markOffline_marks t.bus user
    simp only [marked, Option.getD_some]
    rw [same] at alike
    exact (tells.remove user).alike alike
  | refresh users =>
    simp only [Presence.refresh, Option.map_some, Option.getD_some, Presence.refreshOn_marks, same]
    exact tells.addAll users
  | ask users =>
    simp only [List.append_nil, Presence.onlineAmong_bus, Option.getD_some]
    split
    · exact tells
    · exact tells.ask _

omit [DecidableEq ι] in
/-- A call comes back when the clock can name the ends of the leases it gives. -/
private theorem comesBack_of_onClock (same : ∀ i, (t.part i).lease = lease) {c : TimedCall ι}
    (onClock : ∀ added ∈ instants c.marks, (lease.after? added).isSome) :
    t.comesBack c = true := by
  refine List.all_eq_true.mpr fun m member => ?_
  cases m with
  | add added user =>
    have ends := onClock added (mem_instants.mpr ⟨user, member⟩)
    simp [SharedBus.grants, MemoryBus.grants, same, ends]
  | remove user => rfl

/-- Every call of a run comes back when the clock can name the ends of all leases that are given,
and the run leaves on the bus those who linger after its marks. -/
private theorem afterAll_tells (same : ∀ i, (t.part i).lease = lease)
    (tells : t.bus.Tells lease marks now) (ordered : (calls.map (·.now)).Pairwise (· ≤ ·))
    (onClock : ∀ added ∈ instants (calls.flatMap TimedCall.marks), (lease.after? added).isSome)
    (passed : ∀ c ∈ calls, now ≤ c.now) (ended : ∀ c ∈ calls, c.now ≤ later)
    (reached : now ≤ later) :
    ∃ t', t.afterAll? calls = some t' ∧
      t'.bus.Tells lease (marks ++ calls.flatMap TimedCall.marks) later := by
  induction calls generalizing t marks now with
  | nil => exact ⟨t, rfl, by simpa using tells.wait reached⟩
  | cons c rest ih =>
    obtain ⟨next, ordered⟩ := List.pairwise_cons.mp ordered
    simp only [List.flatMap_cons, instants, List.filterMap_append, List.forall_mem_append] at onClock
    have back := comesBack_of_onClock same onClock.1
    have first := after_tells same tells c (passed c List.mem_cons_self)
    obtain ⟨t', ran, told⟩ := ih (after_lease same c) first ordered onClock.2
      (fun d member => next _ (List.mem_map_of_mem member))
      (fun d member => ended d (List.mem_cons_of_mem c member)) (ended c List.mem_cons_self)
    refine ⟨t', ?_, by simpa using told⟩
    rw [afterAll?, List.foldlM_cons, if_pos back]
    exact ran

/-- Every call comes back as long as the clock can name the ends of the leases, and at every
instant, whichever of the hubs is asked, a user counts as online exactly when it lingers: it was
added, it was not removed since, and from then on some user was added in every stretch of time as
long as the lease. -/
theorem online_exactly_while_lingering (part : ι → Presence) (same : ∀ i, (part i).lease = lease)
    (calls : List (TimedCall ι)) (ordered : (calls.map (·.now)).Pairwise (· ≤ ·))
    (onClock : ∀ added ∈ instants (calls.flatMap TimedCall.marks), (lease.after? added).isSome)
    (now : Nat) (ended : ∀ c ∈ calls, c.now ≤ now) (i : ι) (user : Uuid) :
    ∃ t, (started part).afterAll? calls = some t ∧
      (((t.part i).isOnline (some t.bus) now user).2 = true ↔
        Lingers lease (calls.flatMap TimedCall.marks) now user) ∧
      ∀ users, user ∈ ((t.part i).onlineAmong (some t.bus) now users).2 ↔
        user ∈ users ∧ Lingers lease (calls.flatMap TimedCall.marks) now user := by
  obtain ⟨t, ran, tells⟩ := afterAll_tells (t := started part) same (MemoryBus.empty_tells lease)
    ordered onClock (fun _ _ => Nat.zero_le _) ended (Nat.zero_le now)
  have live := tells.live now (Nat.le_refl now) user
  rw [List.nil_append] at live
  have among : ∀ users, user ∈ ((t.part i).onlineAmong (some t.bus) now users).2 ↔
      user ∈ users ∧ Lingers lease (calls.flatMap TimedCall.marks) now user := by
    intro users
    rw [Presence.onlineAmong_shared tells.working]
    simp [live]
  exact ⟨t, ran, by simpa [Presence.isOnline] using among [user], among⟩

/-- Two hubs' parts of presence, with a lease of ten. -/
def twoParts : Bool → Presence := fun i =>
  { instanceId := ⟨if i then 1 else 2⟩, lease := ⟨10⟩ }

/-- The first hub marks user 7 and is not heard of again; the second marks user 8 and renews it. -/
def othersRenew : List (TimedCall Bool) :=
  [⟨0, true, .markOnline ⟨7⟩⟩, ⟨6, false, .markOnline ⟨8⟩⟩, ⟨12, false, .refresh [⟨8⟩]⟩]

/-- User 7 is kept online by what is done for user 8 until a lease after the last of it. -/
theorem othersRenew_keeps_lapsed :
    (othersRenew.map (·.now)).Pairwise (· ≤ ·) ∧
      (∀ added ∈ instants (othersRenew.flatMap TimedCall.marks),
        (Duration.after? ⟨10⟩ added).isSome) ∧
      (∀ c ∈ othersRenew, c.now ≤ 21) ∧
      Lingers ⟨10⟩ (othersRenew.flatMap TimedCall.marks) 21 ⟨7⟩ ∧
      ¬Lingers ⟨10⟩ (othersRenew.flatMap TimedCall.marks) 22 ⟨7⟩ := by
  have ordered : (othersRenew.map (·.now)).Pairwise (· ≤ ·) := by decide
  have onClock : ∀ added ∈ instants (othersRenew.flatMap TimedCall.marks),
      (Duration.after? ⟨10⟩ added).isSome := by decide
  have told := fun now ended =>
    online_exactly_while_lingering twoParts (fun _ => rfl) othersRenew ordered onClock now ended false
      ⟨7⟩
  refine ⟨ordered, onClock, by decide, ?_, fun lingers => ?_⟩
  · obtain ⟨t, ran, online, -⟩ := told 21 (by decide)
    refine online.mp ?_
    cases ran
    decide +kernel
  · obtain ⟨t, ran, online, -⟩ := told 22 (by decide)
    have online := online.mpr lingers
    cases ran
    revert online
    decide +kernel

/-- A user last added more than a lease ago, by a hub that is gone, counts as online. -/
theorem lapsed_user_online :
    (othersRenew.map (·.now)).Pairwise (· ≤ ·) ∧ (∀ c ∈ othersRenew, c.now ≤ 15) ∧
      (∀ added, .add added ⟨7⟩ ∈ othersRenew.flatMap TimedCall.marks → added + 10 ≤ 15) ∧
      ∃ t, (started twoParts).afterAll? othersRenew = some t ∧
        ((t.part false).isOnline (some t.bus) 15 ⟨7⟩).2 = true ∧
        ((t.part false).onlineAmong (some t.bus) 15 [⟨7⟩]).2 = [⟨7⟩] := by
  refine ⟨by decide, by decide, ?_, _, rfl, by decide +kernel, by decide +kernel⟩
  simp [othersRenew, TimedCall.marks]

end Trackers

end RoomRelay
