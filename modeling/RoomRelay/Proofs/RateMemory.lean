import Mathlib.Data.List.Dedup
import Mathlib.Data.List.Perm.Subperm
import RoomRelay.Proofs.RateWindow

/-!
What a limiter remembers of the calls it allowed, and for how long. A key's instants leave at the
front alone, and none leaves before some call has come a window after it. So an allowed call has
fewer than `limit` others behind it until such a call comes, in whatever order the instants of calls
are. When they are in order, the sweeps keep the limiter small: it knows only keys that were allowed
a call within the last two windows.
-/

namespace RoomRelay.RateWindow

/-- The limiter after calls. -/
def after (r : RateWindow) (calls : List (String × Nat)) : RateWindow :=
  calls.foldl (fun r c => (r.allow c.1 c.2).1) r

/-- The ruling on a call. -/
def rulingOn (r : RateWindow) (key : String) (now : Nat) : Ruling := ⟨key, now, (r.allow key now).2⟩

variable {r : RateWindow} {past : List Ruling} {window now begun : Nat}

/-! ## Rulings, one after another -/

private theorem after_cons (r : RateWindow) (c : String × Nat) (rest : List (String × Nat)) :
    r.after (c :: rest) = (r.allow c.1 c.2).1.after rest := rfl

private theorem rulings_cons (r : RateWindow) (c : String × Nat) (rest : List (String × Nat)) :
    r.rulings (c :: rest) = r.rulingOn c.1 c.2 :: (r.allow c.1 c.2).1.rulings rest := rfl

/-- Every call is ruled on, in order. -/
private theorem rulings_calls (r : RateWindow) (calls : List (String × Nat)) :
    (r.rulings calls).map Ruling.call = calls := by
  induction calls generalizing r with
  | nil => rfl
  | cons c rest ih => rw [rulings_cons, List.map_cons, ih, rulingOn, Ruling.call]

/-- No ruling rests on calls that are yet to come. -/
private theorem rulings_take (r : RateWindow) (calls : List (String × Nat)) (n : Nat) :
    r.rulings (calls.take n) = (r.rulings calls).take n := by
  induction calls generalizing r n with
  | nil => cases n <;> rfl
  | cons c rest ih =>
    cases n with
    | zero => rfl
    | succ n => rw [List.take_succ_cons, rulings_cons, rulings_cons, List.take_succ_cons, ih]

/-! ## What a call does -/

private theorem allow_eq_rule (r : RateWindow) (key : String) (now : Nat) :
    r.allow key now = (r.sweepIfDue now).rule key now := rfl

private theorem sweepIfDue_keeps (r : RateWindow) (now : Nat) :
    (r.sweepIfDue now).limit = r.limit ∧ (r.sweepIfDue now).window = r.window := by
  unfold sweepIfDue
  split <;> exact ⟨rfl, rfl⟩

private theorem sweepIfDue_once (once : (Table.keys r.stamps).Nodup) (now : Nat) :
    (Table.keys (r.sweepIfDue now).stamps).Nodup := by
  unfold sweepIfDue
  split
  · exact sweep_once once now
  · exact once

private theorem sweepIfDue_stampsOf (once : (Table.keys r.stamps).Nodup) (now : Nat)
    (key : String) :
    (r.sweepIfDue now).stampsOf key =
      if r.windowPassed now then fresh r.window now (r.stampsOf key) else r.stampsOf key := by
  unfold sweepIfDue windowPassed
  by_cases due : r.window ≤ now - r.lastSweep
  · simp only [due, decide_true, if_true]
    exact sweep_stampsOf once now key
  · simp only [due, decide_false, Bool.false_eq_true, if_false]

private theorem allow_keeps (r : RateWindow) (key : String) (now : Nat) :
    (r.allow key now).1.limit = r.limit ∧ (r.allow key now).1.window = r.window := by
  obtain ⟨limit, window, -⟩ := rule_keeps (r.sweepIfDue now) key now
  obtain ⟨sweptLimit, sweptWindow⟩ := r.sweepIfDue_keeps now
  exact ⟨limit.trans sweptLimit, window.trans sweptWindow⟩

/-- Whether all keys were swept before makes no difference to the key that is asked for. -/
private theorem fresh_sweepIfDue (once : (Table.keys r.stamps).Nodup) (now : Nat) (key : String) :
    fresh r.window now ((r.sweepIfDue now).stampsOf key) = fresh r.window now (r.stampsOf key) := by
  rw [sweepIfDue_stampsOf once]
  split
  · exact fresh_fresh (Nat.le_refl now) _
  · rfl

/-- The key that is asked for keeps its fresh instants and gets the call's own, if it is allowed;
of the other keys the stale instants go, if all keys are swept. -/
private theorem allow_stampsOf (once : (Table.keys r.stamps).Nodup) (key : String) (now : Nat)
    (other : String) :
    (r.allow key now).1.stampsOf other =
      if other = key then
        fresh r.window now (r.stampsOf key) ++ if (r.allow key now).2 then [now] else []
      else if r.windowPassed now then fresh r.window now (r.stampsOf other)
      else r.stampsOf other := by
  rw [allow_eq_rule, rule_stampsOf, (r.sweepIfDue_keeps now).2, fresh_sweepIfDue once,
    sweepIfDue_stampsOf once]

/-! ## At most `limit` instants for a key, and at least one -/

/-- Each key is kept once, with instants, and not with more of them than the limit. -/
structure Tidy (r : RateWindow) : Prop where
  once : (Table.keys r.stamps).Nodup
  some : ∀ key stamps, Table.get? key r.stamps = some stamps → stamps ≠ []
  within : ∀ key, (r.stampsOf key).length ≤ r.limit

private theorem stampsOf_of_get? {key : String} {stamps : List Nat}
    (found : Table.get? key r.stamps = some stamps) : r.stampsOf key = stamps := by
  rw [stampsOf, found]
  rfl

theorem Tidy.start (limit window begun : Nat) : (start limit window begun).Tidy where
  once := List.nodup_nil
  some := by intro key stamps found; cases found
  within := fun _ => Nat.zero_le _

private theorem length_fresh_le (window now : Nat) (stamps : List Nat) :
    (fresh window now stamps).length ≤ stamps.length :=
  (List.dropWhile_sublist _).length_le

theorem Tidy.sweepIfDue (tidy : r.Tidy) (now : Nat) : (r.sweepIfDue now).Tidy := by
  refine ⟨sweepIfDue_once tidy.once now, ?_, ?_⟩
  · intro key stamps found
    unfold RateWindow.sweepIfDue at found
    split at found
    · -- a sweep leaves out the keys that have nothing left
      rintro rfl
      obtain ⟨-, kept⟩ := List.mem_filter.mp (Table.mem_of_get? found)
      simp at kept
    · exact tidy.some key stamps found
  · intro key
    rw [(r.sweepIfDue_keeps now).1, sweepIfDue_stampsOf tidy.once]
    split
    · exact Nat.le_trans (length_fresh_le ..) (tidy.within key)
    · exact tidy.within key

private theorem rule_get?_of_ne {key other : String} (different : other ≠ key) (r : RateWindow)
    (now : Nat) :
    Table.get? other (r.rule key now).1.stamps = Table.get? other r.stamps := by
  have left (stamps : List Nat) :
      Table.get? other (setStamps key stamps r.stamps) = Table.get? other r.stamps := by
    rw [setStamps_eq_set, Table.get?_set, if_neg different]
  unfold rule
  split
  · dsimp only
    split <;> exact left _
  · split
    · rfl
    · exact left _

/-- Where no call is allowed at all, no key is kept. -/
private theorem Tidy.none_kept (tidy : r.Tidy) (zero : r.limit = 0) (key : String) :
    Table.get? key r.stamps = none := by
  cases known : Table.get? key r.stamps with
  | none => rfl
  | some kept =>
    have filled := List.length_pos_iff.mpr (tidy.some key kept known)
    have few := tidy.within key
    rw [stampsOf_of_get? known, zero] at few
    omega

private theorem Tidy.rule_eq_of_zero (tidy : r.Tidy) (zero : r.limit = 0) (key : String)
    (now : Nat) :
    r.rule key now = (r, false) := by
  unfold RateWindow.rule
  rw [Table.lookup_eq_get?, tidy.none_kept zero]
  exact if_pos zero

theorem Tidy.rule (tidy : r.Tidy) (key : String) (now : Nat) : (r.rule key now).1.Tidy := by
  refine ⟨(rule_keeps r key now).2.2 tidy.once, ?_, ?_⟩
  · intro other stamps found
    by_cases same : other = key
    · subst same
      have kept := rule_stampsOf r other now other
      rw [stampsOf_of_get? found, if_pos rfl] at kept
      rw [kept]
      by_cases allowed : (r.rule other now).2 = true
      · rw [if_pos allowed]
        exact List.append_ne_nil_of_right_ne_nil _ (List.cons_ne_nil now [])
      · -- the call was rejected because the key has as many as the limit
        rw [if_neg allowed, List.append_nil]
        rw [rule_allowed, decide_eq_true_iff] at allowed
        have positive : 0 < r.limit := by
          refine Nat.pos_of_ne_zero fun zero => ?_
          rw [tidy.rule_eq_of_zero zero, tidy.none_kept zero] at found
          cases found
        exact List.length_pos_iff.mp (Nat.lt_of_lt_of_le positive (Nat.le_of_not_lt allowed))
    · rw [rule_get?_of_ne same] at found
      exact tidy.some other stamps found
  · intro other
    rw [(rule_keeps r key now).1, rule_stampsOf]
    by_cases same : other = key
    · rw [if_pos same, List.length_append]
      by_cases allowed : (r.rule key now).2 = true
      · rw [if_pos allowed, List.length_singleton]
        rw [rule_allowed, decide_eq_true_iff] at allowed
        omega
      · rw [if_neg allowed, List.length_nil]
        exact Nat.le_trans (length_fresh_le ..) (tidy.within key)
    · rw [if_neg same]
      exact tidy.within other

theorem Tidy.allow (tidy : r.Tidy) (key : String) (now : Nat) : (r.allow key now).1.Tidy :=
  (tidy.sweepIfDue now).rule key now

theorem Tidy.after (tidy : r.Tidy) (calls : List (String × Nat)) : (r.after calls).Tidy := by
  induction calls generalizing r with
  | nil => exact tidy
  | cons c rest ih => exact ih (tidy.allow c.1 c.2)

private theorem after_keeps (r : RateWindow) (calls : List (String × Nat)) :
    (r.after calls).limit = r.limit ∧ (r.after calls).window = r.window := by
  induction calls generalizing r with
  | nil => exact ⟨rfl, rfl⟩
  | cons c rest ih =>
    obtain ⟨limit, window⟩ := ih (r.allow c.1 c.2).1
    obtain ⟨firstLimit, firstWindow⟩ := r.allow_keeps c.1 c.2
    exact ⟨limit.trans firstLimit, window.trans firstWindow⟩

/-! ## First in, first out -/

/-- An instant that is not stale holds those behind it, whatever goes before it. -/
private theorem suffix_fresh {s : Nat} {rest stamps : List Nat} (held : s :: rest <:+ stamps)
    (young : ¬window ≤ now - s) : s :: rest <:+ fresh window now stamps := by
  obtain ⟨older, rfl⟩ := held
  have stays : (s :: rest).dropWhile (fun s => decide (window ≤ now - s)) = s :: rest := by
    rw [List.dropWhile_cons, if_neg (by simpa using young)]
  rw [fresh, List.dropWhile_append, stays]
  split
  · exact List.suffix_rfl
  · exact List.suffix_append ..

/-- As long as no call has come a window after an allowed one, its instant is remembered, and behind
it those of all calls for its key that were allowed since. -/
def Retains (r : RateWindow) (past : List Ruling) : Prop :=
  ∀ before first since, past = before ++ first :: since → first.allowed = true →
    (∀ c ∈ since, c.instant < first.instant + r.window) →
    first.instant :: allowedAt since first.key <:+ r.stampsOf first.key

theorem Retains.nil (r : RateWindow) : r.Retains [] := by
  intro before first since split
  cases before <;> cases split

theorem Retains.allow (retains : r.Retains past) (once : (Table.keys r.stamps).Nodup)
    (positive : 0 < r.window) (key : String) (now : Nat) :
    (r.allow key now).1.Retains (past ++ [r.rulingOn key now]) := by
  intro before first since split allowed early
  rw [(r.allow_keeps key now).2] at early
  rcases List.eq_nil_or_concat since with rfl | ⟨since, last, rfl⟩
  · -- the call itself: its instant has just been put at the end
    obtain rfl : r.rulingOn key now = first := (List.cons.inj (List.append_inj_right' split rfl)).1
    rw [rulingOn, allow_stampsOf once, if_pos rfl, if_pos (show (r.allow key now).2 = true from allowed)]
    exact List.suffix_append ..
  · -- an earlier call, which this one does not find stale
    rw [List.concat_eq_append] at split early ⊢
    rw [← List.cons_append, ← List.append_assoc] at split
    obtain ⟨pastSplit, same⟩ := List.append_inj' split rfl
    obtain rfl : r.rulingOn key now = last := (List.cons.inj same).1
    have earlier : ∀ c ∈ since, c.instant < first.instant + r.window :=
      fun c member => early c (List.mem_append_left _ member)
    have nowEarly : now < first.instant + r.window :=
      early _ (List.mem_append_right _ (List.mem_singleton_self _))
    have young : ¬r.window ≤ now - first.instant := by omega
    have held := retains before first since pastSplit allowed earlier
    have fresh := suffix_fresh held young
    rw [allow_stampsOf once, allowedAt_snoc, ← List.cons_append]
    simp only [rulingOn]
    by_cases same : first.key = key
    · subst same
      simp only [true_and, if_true]
      exact List.suffix_append_self_iff.mpr fresh
    · simp only [same, false_and, if_false, List.append_nil]
      split
      · exact fresh
      · exact held

theorem Retains.after (retains : r.Retains past) (tidy : r.Tidy) (positive : 0 < r.window)
    (calls : List (String × Nat)) : (r.after calls).Retains (past ++ r.rulings calls) := by
  induction calls generalizing r past with
  | nil => simpa [RateWindow.after, rulings, rulingsBy] using retains
  | cons c rest ih =>
    have next := retains.allow tidy.once positive c.1 c.2
    have still : 0 < (r.allow c.1 c.2).1.window := (r.allow_keeps c.1 c.2).2 ▸ positive
    have all := ih next (tidy.allow c.1 c.2) still
    rwa [List.append_assoc, List.singleton_append, ← rulings_cons, ← after_cons] at all

/-- Until a call comes a window after an allowed one, that one and the calls for its key that are
allowed behind it are no more than the limit. -/
private theorem few_allowed_since {limit : Nat} (positive : 0 < window)
    {calls : List (String × Nat)}
    {before since : List Ruling} {first : Ruling}
    (split : (start limit window begun).rulings calls = before ++ first :: since)
    (allowed : first.allowed = true) (early : ∀ c ∈ since, c.instant < first.instant + window) :
    (allowedAt since first.key).length < limit := by
  have tidy := Tidy.start limit window begun
  obtain ⟨sameLimit, sameWindow⟩ := (start limit window begun).after_keeps calls
  have retains := (Retains.nil (start limit window begun)).after tidy positive calls
  rw [List.nil_append] at retains
  have held := retains before first since split allowed (by rw [sameWindow]; exact early)
  have long := held.length_le
  have few := (tidy.after calls).within first.key
  rw [sameLimit] at few
  exact Nat.lt_of_lt_of_le (Nat.lt_of_succ_le long) few

/-- What a new limiter promises for calls whose instants come in any order. -/
structure SpacesCalls (limit window begun : Nat) (calls : List (String × Nat)) : Prop where
  complete : ((start limit window begun).rulings calls).map Ruling.call = calls
  /-- When one allowed call for a key is the `limit`-th after another, some call for any key has
  come in between, or comes with it, a window after that other. -/
  spaced : ∀ before first between last later,
    (start limit window begun).rulings calls = before ++ first :: (between ++ last :: later) →
    first.allowed = true → last.allowed = true → last.key = first.key →
    (allowedAt between first.key).length + 1 = limit →
    ∃ c ∈ between ++ [last], first.instant + window ≤ c.instant
  /-- At every time a key that is kept has some instants, and no more than the limit. -/
  kept : ∀ made, made <+: calls →
    ∀ key stamps, (key, stamps) ∈ ((start limit window begun).after made).stamps →
      1 ≤ stamps.length ∧ stamps.length ≤ limit

/-- A limiter spaces the calls it allows even when time goes backwards between them. -/
theorem allowed_calls_spaced (limit window begun : Nat) (positive : 0 < window)
    (calls : List (String × Nat)) : SpacesCalls limit window begun calls := by
  refine ⟨rulings_calls _ calls, ?_, ?_⟩
  · intro before first between last later split allowed lastAllowed sameKey count
    apply Classical.byContradiction
    intro never
    have early : ∀ c ∈ between ++ [last], c.instant < first.instant + window := by
      intro c member
      exact Nat.lt_of_not_le fun late => never ⟨c, member, late⟩
    -- look at the calls up to the last one only
    have upTo : (start limit window begun).rulings
        (calls.take (before ++ first :: (between ++ [last])).length) =
          before ++ first :: (between ++ [last]) := by
      have whole : before ++ first :: (between ++ last :: later) =
          (before ++ first :: (between ++ [last])) ++ later := by simp
      rw [rulings_take, split, whole, List.take_left']
      rfl
    have few := few_allowed_since positive upTo allowed early
    have one : (if first.key = last.key ∧ last.allowed = true then [last.instant] else []) =
        [last.instant] := if_pos ⟨sameKey.symm, lastAllowed⟩
    rw [allowedAt_snoc, one, List.length_append, List.length_singleton, count] at few
    exact Nat.lt_irrefl limit few
  · intro made _ key stamps entry
    have tidy := (Tidy.start limit window begun).after made
    have found := Table.get?_of_mem tidy.once entry
    have few := tidy.within key
    rw [stampsOf_of_get? found, ((start limit window begun).after_keeps made).1] at few
    exact ⟨List.length_pos_iff.mpr (tidy.some key stamps found), few⟩

/-- One call in ten: at 12 the call at 20 still counts, but the one for "b" at 30 has it forgotten,
so that at 12 once more a call is allowed. -/
theorem backAndForth_spaced :
    0 < 10 ∧ SpacesCalls 1 10 0 [("a", 20), ("a", 12), ("b", 30), ("a", 12)] ∧
      (start 1 10 0).rulings [("a", 20), ("a", 12), ("b", 30), ("a", 12)] =
        [⟨"a", 20, true⟩, ⟨"a", 12, false⟩, ⟨"b", 30, true⟩, ⟨"a", 12, true⟩] := by
  have positive : 0 < 10 := by omega
  exact ⟨positive, allowed_calls_spaced 1 10 0 positive _, by decide +kernel⟩

/-! ## Two windows at most -/

/-- What is kept for a key are instants at which it was allowed a call, one of them at the last
sweep less than a window old; and the last sweep is itself less than a window ago. -/
structure Recent (r : RateWindow) (past : List Ruling) (now : Nat) : Prop where
  swept : r.lastSweep ≤ now
  fresh : now < r.lastSweep + r.window
  young : ∀ key, r.stampsOf key ≠ [] → ∃ s ∈ r.stampsOf key, r.lastSweep < s + r.window
  earned : ∀ key, ∀ s ∈ r.stampsOf key, s ∈ allowedAt past key

theorem Recent.start (limit begun : Nat) (positive : 0 < window) :
    (start limit window begun).Recent [] begun where
  swept := Nat.le_refl begun
  fresh := Nat.lt_add_of_pos_right positive
  young := fun _ filled => absurd rfl filled
  earned := fun _ _ member => nomatch member

private theorem mem_of_mem_fresh {s : Nat} {stamps : List Nat}
    (member : s ∈ RateWindow.fresh window now stamps) :
    s ∈ stamps :=
  (List.dropWhile_sublist _).mem member

/-- Where anything is fresh, the oldest is. -/
private theorem exists_young {stamps : List Nat}
    (filled : RateWindow.fresh window now stamps ≠ []) :
    ∃ s ∈ RateWindow.fresh window now stamps, now < s + window := by
  refine ⟨_, List.head_mem filled, ?_⟩
  have young : decide (window ≤ now - (RateWindow.fresh window now stamps).head filled) = false :=
    List.head_dropWhile_not (fun s => decide (window ≤ now - s)) filled
  have notStale := of_decide_eq_false young
  omega

private theorem allow_lastSweep (r : RateWindow) (key : String) (now : Nat) :
    (r.allow key now).1.lastSweep = if r.windowPassed now then now else r.lastSweep := by
  have swept : (r.sweepIfDue now).lastSweep = if r.windowPassed now then now else r.lastSweep := by
    unfold sweepIfDue windowPassed
    by_cases due : r.window ≤ now - r.lastSweep
    · simp only [due, decide_true, if_true]
      rfl
    · simp only [due, decide_false, Bool.false_eq_true, if_false]
  have kept : ((r.sweepIfDue now).rule key now).1.lastSweep = (r.sweepIfDue now).lastSweep := by
    unfold rule
    split
    · dsimp only
      split <;> rfl
    · split <;> rfl
  exact kept.trans swept

theorem Recent.allow (recent : r.Recent past begun) (once : (Table.keys r.stamps).Nodup)
    (passed : begun ≤ now) (key : String) :
    (r.allow key now).1.Recent (past ++ [r.rulingOn key now]) now := by
  have before : r.lastSweep ≤ now := Nat.le_trans recent.swept passed
  have positive : 0 < r.window := Nat.pos_of_lt_add_right (Nat.lt_of_le_of_lt recent.swept recent.fresh)
  have sweep := r.allow_lastSweep key now
  have notAhead : (r.allow key now).1.lastSweep ≤ now := by
    rw [sweep]
    split
    · exact Nat.le_refl now
    · exact before
  refine ⟨notAhead, ?_, ?_, ?_⟩
  · rw [sweep, (r.allow_keeps key now).2]
    split
    · exact Nat.lt_add_of_pos_right positive
    · rename_i notDue
      simp only [windowPassed, decide_eq_true_eq] at notDue
      omega
  · intro other filled
    rw [(r.allow_keeps key now).2]
    -- it is enough that one instant is fresh now
    suffices young : (∃ s ∈ (r.allow key now).1.stampsOf other, now < s + r.window) ∨
        ∃ s ∈ (r.allow key now).1.stampsOf other, (r.allow key now).1.lastSweep < s + r.window by
      rcases young with ⟨s, member, young⟩ | young
      · exact ⟨s, member, by omega⟩
      · exact young
    rw [allow_stampsOf once] at filled ⊢
    by_cases same : other = key
    · rw [if_pos same] at filled ⊢
      by_cases allowed : (r.allow key now).2 = true
      · exact .inl ⟨now, by simp [allowed], by omega⟩
      · simp only [allowed, Bool.false_eq_true, if_false, List.append_nil] at filled ⊢
        exact .inl (exists_young filled)
    · rw [if_neg same, sweep] at *
      by_cases due : r.windowPassed now = true
      · simp only [due, if_true] at filled ⊢
        exact .inl (exists_young filled)
      · simp only [due, Bool.false_eq_true, if_false] at filled ⊢
        exact .inr (recent.young other filled)
  · intro other s member
    rw [allow_stampsOf once] at member
    rw [allowedAt_snoc]
    by_cases same : other = key
    · subst same
      rw [if_pos rfl] at member
      rcases List.mem_append.mp member with old | new
      · exact List.mem_append_left _ (recent.earned other s (mem_of_mem_fresh old))
      · refine List.mem_append_right _ ?_
        simpa only [rulingOn, true_and] using new
    · rw [if_neg same] at member
      refine List.mem_append_left _ (recent.earned other s ?_)
      split at member
      · exact mem_of_mem_fresh member
      · exact member

/-- Over calls in the order of time, up to the last. -/
private theorem Recent.after_snoc (recent : r.Recent past now) (tidy : r.Tidy)
    {made : List (String × Nat)}
    {c : String × Nat} (since : ∀ d ∈ made ++ [c], now ≤ d.2)
    (ordered : (made ++ [c]).Pairwise fun c d => c.2 ≤ d.2) :
    (r.after (made ++ [c])).Recent (past ++ r.rulings (made ++ [c])) c.2 := by
  induction made generalizing r past now with
  | nil => exact recent.allow tidy.once (since c List.mem_cons_self) c.1
  | cons d rest ih =>
    obtain ⟨first, restOrdered⟩ := List.pairwise_cons.mp ordered
    have next := recent.allow tidy.once (since d List.mem_cons_self) d.1
    have all := ih next (tidy.allow d.1 d.2) first restOrdered
    rwa [List.append_assoc, List.singleton_append, ← rulings_cons, ← after_cons] at all

/-- The keys that were allowed a call in the last two windows, each once. -/
def lateKeys (window : Nat) (past : List Ruling) (now : Nat) : List String :=
  ((past.filter fun c => c.allowed ∧ now < c.instant + 2 * window).map (·.key)).dedup

private theorem mem_lateKeys {key : String} : key ∈ lateKeys window past now ↔
    ∃ s ∈ allowedAt past key, now < s + 2 * window := by
  simp only [lateKeys, allowedAt, List.mem_dedup, List.mem_map, List.mem_filter, decide_eq_true_eq]
  constructor
  · rintro ⟨c, ⟨member, allowed, late⟩, rfl⟩
    exact ⟨c.instant, ⟨c, ⟨member, rfl, allowed⟩, rfl⟩, late⟩
  · rintro ⟨_, ⟨c, ⟨member, sameKey, allowed⟩, rfl⟩, late⟩
    exact ⟨c, ⟨member, allowed, late⟩, sameKey⟩

/-- The last sweep left an instant less than a window old, and was less than a window ago. -/
theorem Recent.late (recent : r.Recent past now) (tidy : r.Tidy) {key : String} {stamps : List Nat}
    (entry : (key, stamps) ∈ r.stamps) : ∃ s ∈ stamps, now < s + 2 * r.window := by
  have found := Table.get?_of_mem tidy.once entry
  have filled : r.stampsOf key ≠ [] := stampsOf_of_get? found ▸ tidy.some key stamps found
  obtain ⟨s, member, young⟩ := recent.young key filled
  have swept := recent.fresh
  exact ⟨s, stampsOf_of_get? found ▸ member, by omega⟩

private theorem Recent.key_late (recent : r.Recent past now) (tidy : r.Tidy) {key : String}
    (tracked : key ∈ Table.keys r.stamps) :
    ∃ s ∈ allowedAt past key, now < s + 2 * r.window := by
  obtain ⟨⟨key, stamps⟩, entry, rfl⟩ := List.mem_map.mp tracked
  obtain ⟨s, member, young⟩ := recent.late tidy entry
  have kept := stampsOf_of_get? (Table.get?_of_mem tidy.once entry)
  exact ⟨s, recent.earned key s (kept ▸ member), young⟩

/-- What a new limiter knows after calls, the last of them at `now`. -/
structure KnowsLately (limit window begun : Nat) (calls : List (String × Nat)) (now : Nat) : Prop where
  /-- Each key has an instant within the last two windows. -/
  late : ∀ key stamps, (key, stamps) ∈ ((start limit window begun).after calls).stamps →
    ∃ s ∈ stamps, now < s + 2 * window
  /-- There are no more keys than were allowed a call in that time. -/
  few : ((start limit window begun).after calls).trackedKeys ≤
    (lateKeys window ((start limit window begun).rulings calls) now).length
  /-- There is no key whose calls were all rejected. -/
  earned : ∀ key ∈ Table.keys ((start limit window begun).after calls).stamps,
    ∃ c ∈ (start limit window begun).rulings calls, c.key = key ∧ c.allowed = true

/-- A limiter forgets idle keys: while time does not go backwards, it knows after each call only
keys that were allowed one within the last two windows. -/
theorem idle_keys_forgotten (limit begun : Nat) (positive : 0 < window) (calls : List (String × Nat))
    (since : ∀ c ∈ calls, begun ≤ c.2) (ordered : calls.Pairwise fun c d => c.2 ≤ d.2) :
    ∀ made c later, calls = made ++ c :: later →
      KnowsLately limit window begun (made ++ [c]) c.2 := by
  rintro made c later rfl
  have upTo : (made ++ [c]).Sublist (made ++ c :: later) :=
    (List.cons_sublist_cons.mpr (List.nil_sublist later)).append_left made
  have tidy := (Tidy.start limit window begun).after (made ++ [c])
  have recent := (Recent.start limit begun positive).after_snoc (.start limit window begun)
    (fun d member => since d (upTo.mem member)) (ordered.sublist upTo)
  have sameWindow := ((start limit window begun).after_keeps (made ++ [c])).2
  rw [List.nil_append] at recent
  refine ⟨?_, ?_, ?_⟩
  · intro key stamps entry
    have late := recent.late tidy entry
    rwa [sameWindow] at late
  · have known : Table.keys ((start limit window begun).after (made ++ [c])).stamps ⊆
        lateKeys window ((start limit window begun).rulings (made ++ [c])) c.2 := by
      intro key tracked
      have late := recent.key_late tidy tracked
      rw [sameWindow] at late
      exact mem_lateKeys.mpr late
    have fewer := (tidy.once.subperm known).length_le
    rwa [Table.keys, List.length_map] at fewer
  · intro key tracked
    obtain ⟨s, member, -⟩ := recent.key_late tidy tracked
    obtain ⟨d, ruled, -⟩ := List.mem_map.mp member
    obtain ⟨among, counts⟩ := List.mem_filter.mp ruled
    exact ⟨d, among, of_decide_eq_true counts⟩

/-- At 19 the key of a call at 9 is still there, though that call counts no more; at 20 it is
gone. -/
theorem idleKey_forgotten :
    0 < 10 ∧ (∀ c ∈ [("a", 9), ("b", 10), ("b", 19), ("b", 20)], 0 ≤ c.2) ∧
      ([("a", 9), ("b", 10), ("b", 19), ("b", 20)] : List (String × Nat)).Pairwise
        (fun c d => c.2 ≤ d.2) ∧
      KnowsLately 2 10 0 [("a", 9), ("b", 10), ("b", 19)] 19 ∧
      ((start 2 10 0).after [("a", 9), ("b", 10), ("b", 19)]).trackedKeys = 2 ∧
      ((start 2 10 0).after [("a", 9), ("b", 10), ("b", 19), ("b", 20)]).trackedKeys = 1 := by
  have positive : 0 < 10 := by omega
  have since : ∀ c ∈ [("a", 9), ("b", 10), ("b", 19), ("b", 20)], 0 ≤ c.2 :=
    fun c _ => Nat.zero_le c.2
  have ordered : ([("a", 9), ("b", 10), ("b", 19), ("b", 20)] : List (String × Nat)).Pairwise
      fun c d => c.2 ≤ d.2 := by decide
  refine ⟨positive, since, ordered, ?_, by decide +kernel, by decide +kernel⟩
  exact idle_keys_forgotten 2 0 positive _ since ordered [("a", 9), ("b", 10)] ("b", 19)
    [("b", 20)] rfl

end RoomRelay.RateWindow
