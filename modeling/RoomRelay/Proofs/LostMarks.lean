import RoomRelay.Proofs.Outages

/-!
Users who stay in the shared set although nobody holds them. A hub forgets a user when its last
connection goes, whether the shared set can be told or not. When the bus is off the mark is lost,
and nothing that hubs do later makes up for it: a refresh names the users a hub holds, and so does
its end. Such users go when the set expires; and they are the only ones who stay.
-/

namespace RoomRelay

/-- Of the marks of a user, the last that got through added it. -/
def AddedLast (log : List Attempt) (user : Uuid) : Prop :=
  ∃ before now since, log = before ++ ⟨.add now user, true⟩ :: since ∧
    ⟨.remove user, true⟩ ∉ since

/-- The shared set was told that the user is online, and of all the marks to the contrary that were
made since, at least one, none got through. -/
def LostSince (log : List Attempt) (user : Uuid) : Prop :=
  ∃ before now since, log = before ++ ⟨.add now user, true⟩ :: since ∧
    ⟨.remove user, true⟩ ∉ since ∧ ⟨.remove user, false⟩ ∈ since

private theorem LostSince.addedLast {log : List Attempt} {user : Uuid} (lost : LostSince log user) :
    AddedLast log user := by
  obtain ⟨before, now, since, split, kept, -⟩ := lost
  exact ⟨before, now, since, split, kept⟩

private theorem append_eq_split {α : Type} {l rest before since : List α} {a : α}
    (split : l ++ rest = before ++ a :: since) :
    (∃ mid, rest = mid ++ a :: since) ∨ ∃ mid, l = before ++ a :: mid ∧ since = mid ++ rest := by
  rcases List.append_eq_append_iff.mp split with ⟨mid, -, ends⟩ | ⟨mid, begins, ends⟩
  · exact .inl ⟨mid, ends⟩
  · cases mid with
    | nil => exact .inl ⟨[], ends.symm⟩
    | cons first mid =>
      obtain ⟨rfl, rfl⟩ := List.cons.inj ends
      exact .inr ⟨mid, begins, rfl⟩

/-- The marks made later decide, if there are any of the user that got through. -/
private theorem addedLast_append {log rest : List Attempt} {user : Uuid} :
    AddedLast (log ++ rest) user ↔
      AddedLast rest user ∨ AddedLast log user ∧ ⟨.remove user, true⟩ ∉ rest := by
  constructor
  · rintro ⟨before, now, since, split, kept⟩
    rcases append_eq_split split with ⟨mid, later⟩ | ⟨mid, earlier, rfl⟩
    · exact .inl ⟨mid, now, since, later, kept⟩
    · obtain ⟨kept, unmarked⟩ := not_or.mp (mt List.mem_append.mpr kept)
      exact .inr ⟨⟨before, now, mid, earlier, kept⟩, unmarked⟩
  · rintro (⟨before, now, since, rfl, kept⟩ | ⟨⟨before, now, since, rfl, kept⟩, unmarked⟩)
    · exact ⟨log ++ before, now, since, by simp, kept⟩
    · exact ⟨before, now, since ++ rest, by simp, by simp [kept, unmarked]⟩

namespace Cluster

variable {ι : Type} {c : Cluster ι MemoryBus} {i : ι} {user : Uuid} {m : Incident ι}
  {incidents : List (Incident ι)}

/-! ## The shared set after a run -/

/-- An incident does not add a user and remove one as well. -/
private theorem remove_not_mem {now : Nat} {other : Uuid}
    (added : .add now user ∈ c.marks m) : .remove other ∉ c.marks m := by
  cases m with
  | power on => cases added
  | change i x =>
    rcases Site.marks_cases (c.site i) x with ⟨then_, users, adds⟩ | ⟨users, removes⟩
    · simp [marks, adds]
    · simp [marks, removes] at added

/-- One incident adds a user last when it adds the user at all, and its marks get through. -/
private theorem addedLast_marks (c : Cluster ι MemoryBus) (m : Incident ι) (user : Uuid) :
    AddedLast ((c.marks m).map fun mark => ⟨mark, c.bus.available⟩) user ↔
      c.bus.available = true ∧ ∃ now, .add now user ∈ c.marks m := by
  constructor
  · rintro ⟨before, now, since, split, -⟩
    have member : (⟨.add now user, true⟩ : Attempt) ∈
        (c.marks m).map fun mark => ⟨mark, c.bus.available⟩ := by
      rw [split]
      exact List.mem_append_right _ List.mem_cons_self
    obtain ⟨mark, made, same⟩ := List.mem_map.mp member
    obtain ⟨rfl, up⟩ := Attempt.mk.inj same
    exact ⟨up, now, made⟩
  · rintro ⟨up, now, added⟩
    obtain ⟨before, since, split⟩ := List.append_of_mem added
    refine ⟨before.map fun mark => ⟨mark, true⟩, now, since.map fun mark => ⟨mark, true⟩, ?_, ?_⟩
    · simp [split, up]
    · intro removed
      obtain ⟨mark, made, same⟩ := List.mem_map.mp removed
      obtain ⟨rfl, -⟩ := Attempt.mk.inj same
      refine remove_not_mem added (?_ : .remove user ∈ c.marks m)
      rw [split]
      exact List.mem_append_right _ (List.mem_cons_of_mem _ made)

variable [DecidableEq ι]

/-- Whoever stands in the set after a run was added by a mark that got through, or stood in it
before; either way no mark to the contrary got through since. -/
private theorem addedLast_or_shown (joined : c.Joined)
    (shows_ : (c.undergoAll incidents).bus.Shows user) :
    AddedLast (c.attempts incidents) user ∨
      c.bus.Shows user ∧ ⟨.remove user, true⟩ ∉ c.attempts incidents := by
  induction incidents generalizing c with
  | nil => exact .inr ⟨shows_, List.not_mem_nil⟩
  | cons m rest ih =>
    rw [attempts, addedLast_append, addedLast_marks, ← attempts]
    rcases ih (undergo_joined joined m) shows_ with added | ⟨next, kept⟩
    · exact .inl (.inl added)
    · rcases shows_before_or_added joined next with added | ⟨before, unmarked⟩
      · exact .inl (.inr ⟨added, kept⟩)
      · refine .inr ⟨before, fun member => ?_⟩
        rcases mem_attempts_cons.mp member with ⟨removed, up⟩ | later
        · exact unmarked ⟨up.symm, removed⟩
        · exact kept later

/-- While the set lasts, whoever was added last stands in it. -/
private theorem shows_of_addedLast (joined : c.Joined) (lasts : c.LastsThrough incidents)
    (source : AddedLast (c.attempts incidents) user ∨
      c.bus.Shows user ∧ ⟨.remove user, true⟩ ∉ c.attempts incidents) :
    (c.undergoAll incidents).bus.Shows user := by
  induction incidents generalizing c with
  | nil =>
    rcases source with ⟨before, now, since, split, -⟩ | ⟨shown, -⟩
    · simp [attempts] at split
    · exact shown
  | cons m rest ih =>
    refine ih (undergo_joined joined m) lasts.2 ?_
    rw [attempts, addedLast_append, addedLast_marks, ← attempts] at source
    rcases source with (later | ⟨⟨up, now, added⟩, kept⟩) | ⟨shown, kept⟩
    · exact .inl later
    · exact .inr ⟨shows_of_added joined up (fun now at_ => (lasts.1 now at_).2) added, kept⟩
    · obtain ⟨unmarked, kept⟩ := not_or.mp (mt mem_attempts_cons.mpr kept)
      refine .inr ⟨shows_of_before joined lasts.1 shown ?_, kept⟩
      exact fun removed => unmarked ⟨removed.2, removed.1.symm⟩

/-! ## Users whom nobody holds -/

/-- Whoever was marked as online and is held by nobody afterwards was marked as offline since. -/
private theorem removed_since (joined : c.Joined) {before since : List Attempt} {now : Nat}
    {through : Bool}
    (split : c.attempts incidents = before ++ ⟨.add now user, through⟩ :: since)
    (nobody : ∀ j, ¬(c.undergoAll incidents).Holds j user) :
    ∃ through, ⟨.remove user, through⟩ ∈ since := by
  induction incidents generalizing c before with
  | nil => simp [attempts] at split
  | cons m rest ih =>
    have next := undergo_joined joined m
    rcases append_eq_split split with ⟨mid, later⟩ | ⟨mid, earlier, rfl⟩
    · exact ih next later nobody
    · have member : (⟨.add now user, through⟩ : Attempt) ∈
          (c.marks m).map fun mark => ⟨mark, c.bus.available⟩ := by
        rw [earlier]
        exact List.mem_append_right _ List.mem_cons_self
      obtain ⟨mark, made, same⟩ := List.mem_map.mp member
      obtain ⟨rfl, -⟩ := Attempt.mk.inj same
      obtain ⟨i, held⟩ := holds_of_added joined made
      rcases holds_until_removed next held rest with still | ⟨t, removed⟩
      · exact absurd still (nobody i)
      · exact ⟨t, List.mem_append_right _ removed⟩

/-- After any run at whose end the bus is on, refreshes and ends of hubs included, a user held by no
hub counts as online on a hub only if the marks that took it off were lost since the shared set was
last told that it is online. As long as the set does not expire, such a user does count as
online on every hub. -/
theorem unheld_online_only_by_lost_marks (begins : c.JustStarted)
    (up : (c.undergoAll incidents).bus.available = true)
    (nobody : ∀ j, ¬(c.undergoAll incidents).Holds j user) (i : ι) (now : Nat) :
    ((((c.undergoAll incidents).site i).isOnline now user).2 = true →
      LostSince (c.attempts incidents) user) ∧
    (c.LastsThrough incidents → (c.undergoAll incidents).bus.Unexpired now →
      LostSince (c.attempts incidents) user →
      (((c.undergoAll incidents).site i).isOnline now user).2 = true) := by
  have joined := undergoAll_joined begins.joined incidents
  have working : (c.undergoAll incidents).bus.Working := ⟨up, joined.setsOnce⟩
  constructor
  · intro online
    have shown : (c.undergoAll incidents).bus.Shows user := by
      by_contra hidden
      have offline := Presence.isOnline_of_hidden (b := (c.undergoAll incidents).bus) working hidden
        ((c.undergoAll incidents).site i).hub.presence now
      rw [Site.isOnline, joined.site_bus, offline] at online
      cases online
    rcases addedLast_or_shown begins.joined shown with added | ⟨first, -⟩
    · obtain ⟨before, added, since, split, kept⟩ := added
      obtain ⟨through, removed⟩ := removed_since begins.joined split nobody
      cases through with
      | true => exact absurd removed kept
      | false => exact ⟨before, added, since, split, kept, removed⟩
    · exact absurd first begins.shows_nobody
  · intro lasts unexpired lost
    exact (isOnline_wired joined.wired working unexpired i).mpr
      (shows_of_addedLast begins.joined lasts (.inl lost.addedLast))

/-- User 7 comes to the first hub and goes during an outage. The bus is on again, and both hubs
refresh. -/
def goesDuringOutage : List (Incident Bool) :=
  [.change true (.roster (.register 0 ⟨0⟩)), .power false,
    .change true (.roster (.unregister ⟨0⟩)), .power true,
    .change true (.roster (.refresh 1)), .change false (.roster (.refresh 1))]

/-- Both hubs are brought to their end. -/
def bothEnd : List (Incident Bool) :=
  [true, false].flatMap fun i =>
    [.change i (.ending .stopRelay), .change i (.ending .closeAll), .change i (.ending .evictAll)]

/-- Nobody holds the user after the outage, and yet it counts as online on both hubs, when both have
refreshed as well as when both have come to their end. -/
theorem goesDuringOutage_stays_online :
    ((twoHubs.undergoAll goesDuringOutage).bus.available = true ∧
      (∀ i, ¬(twoHubs.undergoAll goesDuringOutage).Holds i ⟨7⟩) ∧
      ∀ i, (((twoHubs.undergoAll goesDuringOutage).site i).isOnline 2 ⟨7⟩).2 = true) ∧
    (twoHubs.undergoAll (goesDuringOutage ++ bothEnd)).bus.available = true ∧
      (∀ i, ¬(twoHubs.undergoAll (goesDuringOutage ++ bothEnd)).Holds i ⟨7⟩) ∧
      ∀ i,
        (((twoHubs.undergoAll (goesDuringOutage ++ bothEnd)).site i).isOnline 2 ⟨7⟩).2 = true := by
  decide +kernel

/-- The only mark that took the user off was lost, as it has to be. -/
theorem goesDuringOutage_lost :
    (twoHubs.undergoAll goesDuringOutage).bus.available = true ∧
      (∀ i, ¬(twoHubs.undergoAll goesDuringOutage).Holds i ⟨7⟩) ∧
      LostSince (twoHubs.attempts goesDuringOutage) ⟨7⟩ := by
  have up : (twoHubs.undergoAll goesDuringOutage).bus.available = true := by decide +kernel
  have nobody : ∀ i, ¬(twoHubs.undergoAll goesDuringOutage).Holds i ⟨7⟩ := by decide +kernel
  have told := unheld_online_only_by_lost_marks ⟨_, 0, _, rfl⟩ up nobody false 2
  exact ⟨up, nobody, told.1 (by decide +kernel)⟩

end Cluster

end RoomRelay
