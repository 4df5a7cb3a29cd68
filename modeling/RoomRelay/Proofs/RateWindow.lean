import RoomRelay.RateWindow
import RoomRelay.Proofs.Table

/-!
What a rate limit allows, over whole runs of calls. The limiter forgets lazily: a key's instants are
looked at from the oldest on, and all keys are swept now and then. Main statement: as long as time
does not go backwards, it rules as if it counted each time, among all calls so far, those for the key
that were allowed less than a window ago. So nothing but allowed calls for the same key ever matters.
-/

namespace RoomRelay

/-- A call that was made, and whether it was allowed. -/
structure Ruling where
  key : String
  instant : Nat
  allowed : Bool
deriving DecidableEq

/-- The call that a ruling is on. -/
def Ruling.call (c : Ruling) : String × Nat := (c.key, c.instant)

namespace RateWindow

/-! ## Counting -/

/-- How many calls for a key were allowed less than a window before an instant. -/
def recent (window : Nat) (past : List Ruling) (key : String) (now : Nat) : Nat :=
  past.countP fun c => c.key = key ∧ c.allowed ∧ now - c.instant < window

/-- The rulings on calls, by counting those that came before. -/
def tallied (limit window : Nat) (past : List Ruling) : List (String × Nat) → List Ruling
  | [] => []
  | (key, now) :: rest =>
    let ruling := ⟨key, now, decide (recent window past key now < limit)⟩
    ruling :: tallied limit window (past ++ [ruling]) rest

/-- The rulings on calls, given one after another by a limiter that changes with each. -/
def rulingsBy (rule : RateWindow → String → Nat → RateWindow × Bool) (r : RateWindow) :
    List (String × Nat) → List Ruling
  | [] => []
  | (key, now) :: rest =>
    ⟨key, now, (rule r key now).2⟩ :: rulingsBy rule (rule r key now).1 rest

/-- The rulings of a limiter on calls. -/
def rulings : RateWindow → List (String × Nat) → List Ruling := rulingsBy allow

/-! ## One call -/

/-- A call that is ruled on with no sweep before it. -/
def rule (r : RateWindow) (key : String) (now : Nat) : RateWindow × Bool :=
  match r.stamps.lookup key with
  | some kept =>
    let kept := fresh r.window now kept
    if r.limit ≤ kept.length then ({ r with stamps := setStamps key kept r.stamps }, false)
    else ({ r with stamps := setStamps key (kept ++ [now]) r.stamps }, true)
  | none =>
    if r.limit = 0 then (r, false)
    else ({ r with stamps := setStamps key [now] r.stamps }, true)

/-- A call that is ruled on after a sweep, if the sweep is thought due. -/
def allowWhen (due : RateWindow → Nat → Bool) (r : RateWindow) (key : String) (now : Nat) :
    RateWindow × Bool :=
  (if due r now then r.sweep now else r).rule key now

/-- Whether a window has passed since the last sweep. -/
def windowPassed (r : RateWindow) (now : Nat) : Bool := r.window ≤ now - r.lastSweep

private theorem allow_eq_allowWhen : allow = allowWhen windowPassed := by
  funext r key now
  simp only [allowWhen, windowPassed, decide_eq_true_eq]
  rfl

/-- The instants that are remembered for a key. -/
def stampsOf (r : RateWindow) (key : String) : List Nat := (Table.get? key r.stamps).getD []

theorem setStamps_eq_set (key : String) (s : List Nat) (stamps : List (String × List Nat)) :
    setStamps key s stamps = Table.set key s stamps := by
  induction stamps with
  | nil => rfl
  | cons entry rest ih => rw [setStamps, Table.set, ih]

/-! ## Fresh instants -/

/-- What is stale stays stale. -/
theorem fresh_fresh {window now later : Nat} (passed : now ≤ later) (stamps : List Nat) :
    fresh window later (fresh window now stamps) = fresh window later stamps := by
  induction stamps with
  | nil => rfl
  | cons s rest ih =>
    by_cases stale : window ≤ now - s
    · have staler : window ≤ later - s := by omega
      simp only [fresh, List.dropWhile_cons, stale, staler, decide_true, if_true] at ih ⊢
      exact ih
    · simp only [fresh, List.dropWhile_cons, stale, decide_false, Bool.false_eq_true, if_false]

/-- Lists with the same fresh instants still have the same when both get one more. -/
private theorem fresh_append_congr {window now : Nat} {kept log : List Nat}
    (same : fresh window now kept = fresh window now log) (added : List Nat) :
    fresh window now (kept ++ added) = fresh window now (log ++ added) := by
  simp only [fresh, List.dropWhile_append] at same ⊢
  rw [same]

/-- Of instants in order, the fresh ones are those less than a window ago. -/
private theorem length_fresh {stamps : List Nat} (ordered : stamps.Pairwise (· ≤ ·))
    (window now : Nat) :
    (fresh window now stamps).length = stamps.countP fun s => now - s < window := by
  induction stamps with
  | nil => rfl
  | cons s rest ih =>
    obtain ⟨first, restOrdered⟩ := List.pairwise_cons.mp ordered
    by_cases stale : window ≤ now - s
    · have old : ¬now - s < window := by omega
      have dropped : fresh window now (s :: rest) = fresh window now rest := by
        simp [fresh, stale]
      rw [dropped, ih restOrdered, List.countP_cons_of_neg (by simpa using stale)]
    · -- the oldest is fresh, and so are all after it
      have kept : fresh window now (s :: rest) = s :: rest := by
        simp [fresh, stale]
      have all : (s :: rest).countP (fun s => decide (now - s < window)) = (s :: rest).length := by
        refine List.countP_eq_length.mpr fun other member => ?_
        have later : s ≤ other := by
          rcases List.mem_cons.mp member with same | after
          · exact Nat.le_of_eq same.symm
          · exact first other after
        simp only [decide_eq_true_eq]
        omega
      rw [kept, all]

/-! ## What a call does to the instants -/

variable {r : RateWindow}

theorem sweep_stampsOf (once : (Table.keys r.stamps).Nodup) (now : Nat) (key : String) :
    (r.sweep now).stampsOf key = fresh r.window now (r.stampsOf key) := by
  have looked := Table.get?_map_filter once (fresh r.window now) (fun s => !s.isEmpty) key
  have same : (fun e : String × List Nat => decide ¬e.2.isEmpty = true) = fun e => !e.2.isEmpty := by
    funext e
    cases e.2.isEmpty <;> rfl
  rw [stampsOf, sweep, same, looked, Table.getD_filter_nonempty, stampsOf]
  cases Table.get? key r.stamps <;> rfl

theorem sweep_once (once : (Table.keys r.stamps).Nodup) (now : Nat) :
    (Table.keys (r.sweep now).stamps).Nodup :=
  once.sublist (Table.keys_map_filter_sublist r.stamps (fresh r.window now)
    fun s => decide ¬s.isEmpty = true)

/-- A call is allowed while fewer fresh instants than the limit are remembered. -/
theorem rule_allowed (r : RateWindow) (key : String) (now : Nat) :
    (r.rule key now).2 = decide ((fresh r.window now (r.stampsOf key)).length < r.limit) := by
  unfold rule stampsOf
  rw [Table.lookup_eq_get?]
  cases Table.get? key r.stamps with
  | none =>
    have nothing : (fresh r.window now []).length = 0 := rfl
    by_cases zero : r.limit = 0
    · simp [zero]
    · simp [zero, nothing, Nat.pos_of_ne_zero zero]
  | some kept =>
    by_cases reached : r.limit ≤ (fresh r.window now kept).length
    · simp [reached]
    · simp [reached, Nat.lt_of_not_le reached]

/-- The key's fresh instants stay, with the call's own when it is allowed; other keys are left
alone. -/
theorem rule_stampsOf (r : RateWindow) (key : String) (now : Nat) (other : String) :
    (r.rule key now).1.stampsOf other =
      if other = key then
        fresh r.window now (r.stampsOf key) ++ if (r.rule key now).2 then [now] else []
      else r.stampsOf other := by
  unfold rule stampsOf
  rw [Table.lookup_eq_get?]
  cases found : Table.get? key r.stamps with
  | none =>
    by_cases zero : r.limit = 0
    · by_cases same : other = key
      · simp [zero, same, found, fresh]
      · simp [zero, same]
    · by_cases same : other = key
      · simp [zero, same, setStamps_eq_set, Table.get?_set, fresh]
      · simp [zero, same, setStamps_eq_set, Table.get?_set]
  | some kept =>
    by_cases reached : r.limit ≤ (fresh r.window now kept).length
    · by_cases same : other = key
      · simp [reached, same, setStamps_eq_set, Table.get?_set]
      · simp [reached, same, setStamps_eq_set, Table.get?_set]
    · by_cases same : other = key
      · simp [reached, same, setStamps_eq_set, Table.get?_set]
      · simp [reached, same, setStamps_eq_set, Table.get?_set]

/-- A call changes nothing but what is remembered, for each key at one place. -/
theorem rule_keeps (r : RateWindow) (key : String) (now : Nat) :
    (r.rule key now).1.limit = r.limit ∧ (r.rule key now).1.window = r.window ∧
      ((Table.keys r.stamps).Nodup → (Table.keys (r.rule key now).1.stamps).Nodup) := by
  unfold rule
  cases r.stamps.lookup key with
  | none =>
    dsimp only
    split
    · exact ⟨rfl, rfl, id⟩
    · exact ⟨rfl, rfl, fun once => setStamps_eq_set .. ▸ Table.keys_set_nodup once⟩
  | some kept =>
    dsimp only
    split
    · exact ⟨rfl, rfl, fun once => setStamps_eq_set .. ▸ Table.keys_set_nodup once⟩
    · exact ⟨rfl, rfl, fun once => setStamps_eq_set .. ▸ Table.keys_set_nodup once⟩

/-! ## What is remembered -/

/-- The instants at which calls for a key were allowed. -/
def allowedAt (past : List Ruling) (key : String) : List Nat :=
  (past.filter fun c => c.key = key ∧ c.allowed).map (·.instant)

theorem allowedAt_snoc (past : List Ruling) (c : Ruling) (key : String) :
    allowedAt (past ++ [c]) key =
      allowedAt past key ++ if key = c.key ∧ c.allowed then [c.instant] else [] := by
  by_cases counts : c.key = key ∧ c.allowed = true
  · simp [allowedAt, List.filter_append, counts]
  · have turned : ¬(key = c.key ∧ c.allowed = true) := fun both => counts ⟨both.1.symm, both.2⟩
    simp [allowedAt, List.filter_append, counts, turned]

private theorem recent_eq_countP (window : Nat) (past : List Ruling) (key : String) (now : Nat) :
    recent window past key now = (allowedAt past key).countP fun s => now - s < window := by
  rw [recent, allowedAt, List.countP_map, List.countP_filter]
  congr 1
  funext c
  cases c.allowed <;> simp [Bool.and_comm]

/-- As far as any later instant is concerned, the limiter remembers all the allowed calls of a past
that went in order up to `now`. -/
structure Remembers (r : RateWindow) (past : List Ruling) (now : Nat) : Prop where
  once : (Table.keys r.stamps).Nodup
  fresh : ∀ key later, now ≤ later →
    fresh r.window later (r.stampsOf key) = fresh r.window later (allowedAt past key)
  ordered : past.Pairwise fun c d => c.instant ≤ d.instant
  past : ∀ c ∈ past, c.instant ≤ now

theorem Remembers.start (limit window begun : Nat) : (start limit window begun).Remembers [] 0 where
  once := List.nodup_nil
  fresh := fun _ _ _ => rfl
  ordered := .nil
  past := fun _ none => nomatch none

variable {past : List Ruling} {now then_ : Nat}

theorem Remembers.sweep (remembers : r.Remembers past now) (passed : now ≤ then_) :
    (r.sweep then_).Remembers past then_ where
  once := sweep_once remembers.once then_
  fresh := by
    intro key later after
    have window : (r.sweep then_).window = r.window := rfl
    rw [window, sweep_stampsOf remembers.once, fresh_fresh after]
    exact remembers.fresh key later (Nat.le_trans passed after)
  ordered := remembers.ordered
  past := fun c member => Nat.le_trans (remembers.past c member) passed

/-- Time may pass. -/
theorem Remembers.wait (remembers : r.Remembers past now) (passed : now ≤ then_) :
    r.Remembers past then_ where
  once := remembers.once
  fresh := fun key later after => remembers.fresh key later (Nat.le_trans passed after)
  ordered := remembers.ordered
  past := fun c member => Nat.le_trans (remembers.past c member) passed

/-- What is remembered is enough to count. -/
theorem Remembers.rule_allowed (remembers : r.Remembers past now) (key : String) :
    (r.rule key now).2 = decide (recent r.window past key now < r.limit) := by
  have ordered : (allowedAt past key).Pairwise (· ≤ ·) :=
    List.pairwise_map.mpr (remembers.ordered.filter _)
  rw [RateWindow.rule_allowed, remembers.fresh key now (Nat.le_refl now), length_fresh ordered,
    recent_eq_countP]

theorem Remembers.rule (remembers : r.Remembers past now) (key : String) :
    (r.rule key now).1.Remembers (past ++ [⟨key, now, (r.rule key now).2⟩]) now where
  once := (rule_keeps r key now).2.2 remembers.once
  fresh := by
    intro other later after
    rw [(rule_keeps r key now).2.1, rule_stampsOf, allowedAt_snoc]
    by_cases same : other = key
    · subst same
      have kept : RateWindow.fresh r.window later (RateWindow.fresh r.window now (r.stampsOf other)) =
          RateWindow.fresh r.window later (allowedAt past other) := by
        rw [fresh_fresh after, remembers.fresh other later after]
      simpa using fresh_append_congr kept _
    · simpa [same] using remembers.fresh other later after
  ordered := by
    refine List.pairwise_append.mpr ⟨remembers.ordered, List.pairwise_singleton .., ?_⟩
    intro c member d last
    rw [List.mem_singleton.mp last]
    exact remembers.past c member
  past := by
    intro c member
    rcases List.mem_append.mp member with before | last
    · exact remembers.past c before
    · exact Nat.le_of_eq (congrArg Ruling.instant (List.mem_singleton.mp last))

/-- A call, with or without a sweep before it. -/
private theorem Remembers.allowWhen (remembers : r.Remembers past now) (passed : now ≤ then_)
    (due : RateWindow → Nat → Bool) (key : String) :
    (r.allowWhen due key then_).2 = decide (recent r.window past key then_ < r.limit) ∧
      (r.allowWhen due key then_).1.Remembers
        (past ++ [⟨key, then_, (r.allowWhen due key then_).2⟩]) then_ ∧
      (r.allowWhen due key then_).1.limit = r.limit ∧
      (r.allowWhen due key then_).1.window = r.window := by
  unfold RateWindow.allowWhen
  by_cases swept : due r then_ = true
  · simp only [swept, if_true]
    have ready := remembers.sweep passed
    obtain ⟨limit, window, -⟩ := rule_keeps (r.sweep then_) key then_
    exact ⟨ready.rule_allowed key, ready.rule key, limit, window⟩
  · simp only [swept, Bool.false_eq_true, if_false]
    have ready := remembers.wait passed
    obtain ⟨limit, window, -⟩ := rule_keeps r key then_
    exact ⟨ready.rule_allowed key, ready.rule key, limit, window⟩

/-! ## Runs -/

/-- Calls in the order of time are ruled on as by counting, whenever all keys are swept. -/
private theorem rulingsBy_eq_tallied (due : RateWindow → Nat → Bool) {calls : List (String × Nat)}
    (remembers : r.Remembers past now) (since : ∀ c ∈ calls, now ≤ c.2)
    (ordered : calls.Pairwise fun c d => c.2 ≤ d.2) :
    rulingsBy (allowWhen due) r calls = tallied r.limit r.window past calls := by
  induction calls generalizing r past now with
  | nil => rfl
  | cons c rest ih =>
    obtain ⟨key, then_⟩ := c
    obtain ⟨first, restOrdered⟩ := List.pairwise_cons.mp ordered
    obtain ⟨ruled, next, limit, window⟩ :=
      remembers.allowWhen (since _ List.mem_cons_self) due key
    rw [rulingsBy, tallied, ih next first restOrdered, limit, window, ruled]

variable {limit window : Nat} {calls : List (String × Nat)}

theorem rulings_eq_tallied (limit window begun : Nat)
    (ordered : calls.Pairwise fun c d => c.2 ≤ d.2) :
    (start limit window begun).rulings calls = tallied limit window [] calls := by
  rw [rulings, allow_eq_allowWhen]
  exact rulingsBy_eq_tallied windowPassed (.start limit window begun) (fun _ _ => Nat.zero_le _)
    ordered

private theorem recent_append (window : Nat) (past more : List Ruling) (key : String) (now : Nat) :
    recent window (past ++ more) key now = recent window past key now + recent window more key now :=
  List.countP_append

/-- Every call is ruled on, in order. -/
private theorem tallied_calls (limit window : Nat) (past : List Ruling)
    (calls : List (String × Nat)) :
    (tallied limit window past calls).map Ruling.call = calls := by
  induction calls generalizing past with
  | nil => rfl
  | cons c rest ih => simp [tallied, ih, Ruling.call]

private theorem tallied_append (limit window : Nat) (past : List Ruling)
    (calls more : List (String × Nat)) :
    tallied limit window past (calls ++ more) =
      tallied limit window past calls ++
        tallied limit window (past ++ tallied limit window past calls) more := by
  induction calls generalizing past with
  | nil => simp [tallied]
  | cons c rest ih => simp [tallied, ih]

/-- Of the past only those calls count that are for keys still asked for. -/
theorem tallied_filter (keep : String → Bool) (calls : List (String × Nat)) {past past' : List Ruling}
    (same : ∀ key now, keep key = true → recent window past key now = recent window past' key now) :
    (tallied limit window past calls).filter (fun c => keep c.key) =
      tallied limit window past' (calls.filter fun c => keep c.1) := by
  induction calls generalizing past past' with
  | nil => rfl
  | cons c rest ih =>
    obtain ⟨key, now⟩ := c
    by_cases kept : keep key = true
    · have later := fun ruling => @ih (past ++ [ruling]) (past' ++ [ruling])
        fun other now keeps => by rw [recent_append, recent_append, same other now keeps]
      simp only [tallied, List.filter_cons, kept, if_true, same key now kept, later]
    · -- a call for a key that is not asked for again
      have later := fun allowed => @ih (past ++ [⟨key, now, allowed⟩]) past'
        fun other now keeps => by
          have different : key ≠ other := fun is => kept (is ▸ keeps)
          rw [recent_append, same other now keeps]
          simp [recent, different]
      simp only [tallied, List.filter_cons, kept, Bool.false_eq_true, if_false, later]

/-- Pasts in which the same calls were allowed lead to the same rulings. -/
private theorem tallied_congr (calls : List (String × Nat)) {past past' : List Ruling}
    (same : ∀ key now, recent window past key now = recent window past' key now) :
    tallied limit window past calls = tallied limit window past' calls := by
  have all : (tallied limit window past calls).filter (fun _ => true) =
      tallied limit window past' (calls.filter fun _ => true) :=
    tallied_filter (fun _ => true) calls fun key now _ => same key now
  rwa [List.filter_eq_self.mpr fun _ _ => rfl, List.filter_eq_self.mpr fun _ _ => rfl] at all

/-- Rulings split at one of them: those before it, the count it rests on, and those after it. -/
theorem tallied_split {before past later : List Ruling} {c : Ruling}
    (split : tallied limit window before calls = past ++ c :: later) :
    tallied limit window before (past.map Ruling.call) = past ∧
      c.allowed = decide (recent window (before ++ past) c.key c.instant < limit) ∧
      tallied limit window (before ++ past ++ [c]) (later.map Ruling.call) = later := by
  have called := tallied_calls limit window before calls
  rw [split, List.map_append, List.map_cons] at called
  rw [← called, tallied_append] at split
  have long : (tallied limit window before (past.map Ruling.call)).length = past.length := by
    have length := congrArg List.length
      (tallied_calls limit window before (past.map Ruling.call))
    simpa using length
  obtain ⟨first, rest⟩ := List.append_inj split long
  rw [first, tallied] at rest
  obtain ⟨ruled, after⟩ := List.cons.inj rest
  refine ⟨first, (congrArg Ruling.allowed ruled).symm, ?_⟩
  rw [← ruled] at after ⊢
  exact after

/-- The rulings of a new limiter on calls are those of a sliding window. -/
structure Slides (limit window begun : Nat) (calls : List (String × Nat)) : Prop where
  complete : ((start limit window begun).rulings calls).map Ruling.call = calls
  /-- A call is allowed exactly when fewer than `limit` earlier calls for its key were allowed less
  than a window before it. -/
  counted : ∀ past c later, (start limit window begun).rulings calls = past ++ c :: later →
    (c.allowed = true ↔ recent window past c.key c.instant < limit)
  /-- The calls for a key are ruled on as if there were no others. -/
  keysApart : ∀ key, ((start limit window begun).rulings calls).filter (fun c => c.key = key) =
    (start limit window begun).rulings (calls.filter fun c => c.1 = key)
  /-- A call that is rejected might as well not have been made. -/
  rejectedUnseen : ∀ past c later,
    (start limit window begun).rulings calls = past ++ c :: later → c.allowed = false →
      (start limit window begun).rulings ((past ++ later).map Ruling.call) = past ++ later
  /-- It does not matter when all keys are swept, if ever. -/
  sweepsUnseen : ∀ due, rulingsBy (allowWhen due) (start limit window begun) calls =
    (start limit window begun).rulings calls

/-- A limiter rules by a sliding window on any calls for any keys, unless time goes backwards. -/
theorem rulings_slide (limit window begun : Nat) (calls : List (String × Nat))
    (ordered : calls.Pairwise fun c d => c.2 ≤ d.2) : Slides limit window begun calls := by
  have tally := rulings_eq_tallied limit window begun ordered
  constructor
  · rw [tally, tallied_calls]
  · intro past c later split
    rw [tally] at split
    rw [(tallied_split split).2.1, List.nil_append, decide_eq_true_iff]
  · intro key
    rw [tally, rulings_eq_tallied limit window begun (ordered.filter _)]
    exact tallied_filter (fun k => decide (k = key)) calls fun _ _ _ => rfl
  · intro past c later split rejected
    rw [tally] at split
    obtain ⟨before, -, after⟩ := tallied_split split
    have called := tallied_calls limit window [] calls
    rw [split, List.map_append, List.map_cons] at called
    have remaining : ((past ++ later).map Ruling.call).Pairwise fun c d => c.2 ≤ d.2 := by
      rw [← called] at ordered
      rw [List.map_append]
      exact ordered.sublist ((List.sublist_cons_self _ _).append_left _)
    have unseen : ∀ key now, recent window past key now = recent window (past ++ [c]) key now := by
      intro key now
      rw [recent_append]
      simp [recent, rejected]
    rw [rulings_eq_tallied limit window begun remaining, List.map_append, tallied_append, before,
      List.nil_append, tallied_congr _ unseen]
    exact congrArg (past ++ ·) after
  · intro due
    rw [tally]
    exact rulingsBy_eq_tallied due (.start limit window begun) (fun _ _ => Nat.zero_le _) ordered

/-- Two calls within ten: the third finds both recent, and at ten the first just counts no more. -/
theorem twoWithinTen_slides :
    ([("a", 0), ("a", 4), ("b", 4), ("a", 9), ("a", 10), ("a", 11)] : List (String × Nat)).Pairwise
        (fun c d => c.2 ≤ d.2) ∧
      Slides 2 10 0 [("a", 0), ("a", 4), ("b", 4), ("a", 9), ("a", 10), ("a", 11)] ∧
      (start 2 10 0).rulings [("a", 0), ("a", 4), ("b", 4), ("a", 9), ("a", 10), ("a", 11)] =
        [⟨"a", 0, true⟩, ⟨"a", 4, true⟩, ⟨"b", 4, true⟩, ⟨"a", 9, false⟩, ⟨"a", 10, true⟩,
          ⟨"a", 11, false⟩] := by
  have ordered : ([("a", 0), ("a", 4), ("b", 4), ("a", 9), ("a", 10), ("a", 11)] :
      List (String × Nat)).Pairwise fun c d => c.2 ≤ d.2 := by decide
  exact ⟨ordered, rulings_slide 2 10 0 _ ordered, by decide +kernel⟩

end RateWindow

end RoomRelay
