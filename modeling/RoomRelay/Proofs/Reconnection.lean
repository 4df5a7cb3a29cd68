import Mathlib.Data.List.Induction
import RoomRelay.Proofs.Lives

/-!
Who has the last word about a user whose connections come and go on one hub. The hub decides in one
place which connection is the first and which the last, but what follows from it each connection
tells for itself, and later. So one that went may tell a room that its user is offline when the next
one has come and has told that it is online. Then the room is misled for as long as the user holds a
connection, and there is no other way to mislead it.
-/

namespace RoomRelay

open BusView

namespace Lives

variable {β : Type}

/-! ## What a room was told -/

section Telling

variable {user room : Uuid} {l l' : Lives β} {id : ConnId} {t : Turn} {misled misled' : Prop}

/-- A turn tells a room that the user is offline while the user holds a connection and no connection
is still to tell the room that it is online. -/
def Crosses (user room : Uuid) (l : Lives β) (id : ConnId) : Prop :=
  (l.stageOf id).partsNow room = true ∧ l.site.count user ≠ 0 ∧ ¬l.Greets room

instance (user room : Uuid) (l : Lives β) (id : ConnId) : Decidable (Crosses user room l id) :=
  inferInstanceAs (Decidable (_ ∧ _ ∧ ¬_))

private theorem not_crosses (notGone : ∀ rest, l.stageOf id ≠ .gone (room :: rest)) :
    ¬l.Crosses user room id := by
  rintro ⟨now, -⟩
  obtain ⟨rest, was⟩ := Stage.partsNow_iff.mp now
  exact notGone rest was

/-- Who is not misled is misled by nothing but a turn that crosses. -/
private theorem not_misled_next {s : Site β}
    (next : misled' ↔ s.count user ≠ 0 ∧ (misled ∨ l.Crosses user room id))
    (right : ¬misled) (notCrosses : ¬l.Crosses user room id) : ¬misled' := by
  rw [next]
  rintro ⟨-, before | crosses⟩
  · exact right before
  · exact notCrosses crosses

variable [BusView β]

/-- What a room was told last, and whether it is misled. -/
structure HasTold (user room : Uuid) (misled : Prop) (l : Lives β) : Prop where
  /-- Only who holds a connection can be missed. -/
  missed : misled → l.site.count user ≠ 0
  greeted : l.Greets room → ¬misled
  held : l.site.count user ≠ 0 → ¬l.Greets room →
    (misled → l.site.lastSaid room user = some false) ∧
      (¬misled → l.site.lastSaid room user = some true)
  free : l.site.count user = 0 → l.stages ≠ [] →
    l.Parts room ∨ l.site.lastSaid room user = some false

theorem Moves.begun (moves : Moves user room l id l') : l'.stages ≠ [] := by
  cases moves with
  | rests was =>
    apply stages_ne_nil
    rw [was]
    exact Stage.noConfusion
  | _ => exact stages_enter_ne_nil _ _ _ _

private theorem of_agrees {start : Site β} {rooms : ConnId → List Uuid} (serves : start.InService)
    (nobody : start.count user = 0) :
    (of start).Agrees start.owner user rooms ∧ (of start).HasTold user room False := by
  have none : start.connectionsOf user = [] := List.length_eq_zero_iff.mp nobody
  refine ⟨⟨serves, rfl, ?_, ?_⟩, ⟨False.elim, fun _ => id, ?_, ?_⟩⟩
  · intro id
    show id ∈ start.connectionsOf user ↔ _
    rw [none]
    exact iff_of_false List.not_mem_nil Bool.false_ne_true
  · rintro id toTell ⟨⟩
  · exact fun held => absurd nobody held
  · exact fun _ begun => absurd rfl begun

section OneTurn

variable {s : Site β} {stage : Stage} {toTell : List Uuid}

/-- As long as nothing crosses, a room is misled until the user holds no connection. -/
private theorem HasTold.misled_iff (told : l.HasTold user room misled)
    (next : misled' ↔ s.count user ≠ 0 ∧ (misled ∨ l.Crosses user room id))
    (notCrosses : ¬l.Crosses user room id)
    (count : s.count user = 0 ↔ l.site.count user = 0) : misled' ↔ misled := by
  rw [next, ne_eq, count, or_iff_left notCrosses]
  exact and_iff_right_of_imp told.missed

/-- A turn that tells the room nothing, after which as much is still to be told to it. -/
theorem HasTold.silent (told : l.HasTold user room misled)
    (next : misled' ↔ s.count user ≠ 0 ∧ (misled ∨ l.Crosses user room id))
    (notCrosses : ¬l.Crosses user room id)
    (count : s.count user = 0 ↔ l.site.count user = 0)
    (said : s.said room user = l.site.said room user)
    (greets : stage.greets room = (l.stageOf id).greets room)
    (parts : stage.parts room = (l.stageOf id).parts room)
    (begun : l.site.count user = 0 → l.stages ≠ []) :
    (l.enter s id stage).HasTold user room misled' := by
  have same := told.misled_iff next notCrosses count
  have greets : (l.enter s id stage).Greets room ↔ l.Greets room := anyAt_enter_congr rfl greets
  have parts : (l.enter s id stage).Parts room ↔ l.Parts room := anyAt_enter_congr rfl parts
  have last : s.lastSaid room user = l.site.lastSaid room user := congrArg List.getLast? said
  refine ⟨?_, ?_, ?_, ?_⟩
  · rw [same, enter, ne_eq, count]
    exact told.missed
  · rw [same, greets]
    exact told.greeted
  · rw [same, greets, enter, last, ne_eq, count]
    exact told.held
  · intro none _
    rw [parts, enter, last]
    exact told.free (count.mp none) (begun (count.mp none))

/-- The user's first connection comes, and is to greet the room. -/
theorem HasTold.comes (told : l.HasTold user room misled)
    (next : misled' ↔ s.count user ≠ 0 ∧ (misled ∨ l.Crosses user room id))
    (none : l.site.count user = 0) (one : s.count user ≠ 0) (willTell : room ∈ toTell) :
    (l.enter s id (.arrived toTell)).HasTold user room misled' := by
  have greets : (l.enter s id (.arrived toTell)).Greets room :=
    (anyAt_enter_iff rfl).mpr (.inl (List.contains_iff_mem.mpr willTell))
  have right : ¬misled' :=
    not_misled_next next (fun before => told.missed before none) fun crosses => crosses.2.1 none
  refine ⟨fun wrong => absurd wrong right, fun _ => right, ?_, ?_⟩
  · exact fun _ notGreets => absurd greets notGreets
  · exact fun none' => absurd none' one

/-- The room is told that the user is online, and that is so. -/
theorem HasTold.greets (told : l.HasTold user room misled)
    (next : misled' ↔ s.count user ≠ 0 ∧ (misled ∨ l.Crosses user room id))
    (was : l.stageOf id = .present (room :: toTell)) (held : s.count user ≠ 0)
    (said : s.said room user = l.site.said room user ++ [true]) :
    (l.enter s id (.present toTell)).HasTold user room misled' := by
  have greets : l.Greets room := by
    refine (anyAt_split_iff rfl id).mpr (.inl ?_)
    rw [was]
    exact List.contains_iff_mem.mpr List.mem_cons_self
  have right : ¬misled' :=
    not_misled_next next (told.greeted greets) fun crosses => crosses.2.2 greets
  have last : s.lastSaid room user = some true := by
    rw [Site.lastSaid, said]
    exact List.getLast?_concat
  refine ⟨fun wrong => absurd wrong right, fun _ => right, ?_, ?_⟩
  · exact fun _ _ => ⟨fun wrong => absurd wrong right, fun _ => last⟩
  · exact fun none => absurd none held

/-- The user's last connection goes, and is to part from the room. -/
theorem HasTold.departs (next : misled' ↔ s.count user ≠ 0 ∧ (misled ∨ l.Crosses user room id))
    (none : s.count user = 0) (willTell : room ∈ toTell) :
    (l.enter s id (.gone toTell)).HasTold user room misled' := by
  have right : ¬misled' := fun wrong => (next.mp wrong).1 none
  have parts : (l.enter s id (.gone toTell)).Parts room :=
    (anyAt_enter_iff rfl).mpr (.inl (List.contains_iff_mem.mpr willTell))
  refine ⟨fun wrong => absurd wrong right, fun _ => right, ?_, ?_⟩
  · exact fun held => absurd none held
  · exact fun _ _ => .inl parts

/-- The room is told that the user is offline. If the user is held, that is put right only by a
connection that is still to greet the room. -/
theorem HasTold.parts (told : l.HasTold user room misled)
    (next : misled' ↔ s.count user ≠ 0 ∧ (misled ∨ l.Crosses user room id))
    (was : l.stageOf id = .gone (room :: toTell))
    (count : s.count user = 0 ↔ l.site.count user = 0)
    (said : s.said room user = l.site.said room user ++ [false]) :
    (l.enter s id (.gone toTell)).HasTold user room misled' := by
  have greets : (l.enter s id (.gone toTell)).Greets room ↔ l.Greets room :=
    anyAt_enter_congr rfl (by rw [was]; rfl)
  have last : s.lastSaid room user = some false := by
    rw [Site.lastSaid, said]
    exact List.getLast?_concat
  refine ⟨fun wrong => (next.mp wrong).1, ?_, ?_, fun _ _ => .inr last⟩
  · rw [greets]
    intro greeting
    exact not_misled_next next (told.greeted greeting) fun crosses => crosses.2.2 greeting
  · intro held notGreets
    rw [greets] at notGreets
    have crosses : l.Crosses user room id :=
      ⟨Stage.partsNow_iff.mpr ⟨toTell, was⟩, mt count.mpr held, notGreets⟩
    exact ⟨fun _ => last, fun right => absurd (next.mpr ⟨held, .inr crosses⟩) right⟩

/-- What one turn makes of it. The room is misled by a turn that crosses, and until the user holds
no connection. -/
theorem HasTold.moves (told : l.HasTold user room misled) (moves : Moves user room l id l')
    (next : misled' ↔ l'.site.count user ≠ 0 ∧ (misled ∨ l.Crosses user room id)) :
    l'.HasTold user room misled' := by
  cases moves with
  | comes none one willTell => exact told.comes next none one willTell
  | greets was held said => exact told.greets next was held said
  | departs none willTell => exact .departs next none willTell
  | parts was count said => exact told.parts next was count said
  | passes count said greets parts notParting begun =>
    exact told.silent next (not_crosses notParting) count said greets parts begun
  | rests was =>
    have notCrosses : ¬l.Crosses user room id := by
      apply not_crosses
      rw [was]
      rintro _ ⟨⟩
    rw [propext (told.misled_iff next notCrosses Iff.rfl)]
    exact told

end OneTurn

end Telling

/-! ## Runs -/

section Runs

variable [SharedBus β] {user room : Uuid} {rooms : ConnId → List Uuid} {l : Lives β} {t : Turn}
  {turns : List Turn}

/-- A room is misled after a run: at some turn it was told that the user is offline when nobody was
to put that right, and at every moment since then the user has held a connection. -/
def Misled (user room : Uuid) (rooms : ConnId → List Uuid) (l : Lives β) (turns : List Turn) : Prop :=
  ∃ earlier t later, turns = earlier ++ t :: later ∧
    (l.run user rooms earlier).Crosses user room t.id ∧
    ∀ since after, later = since ++ after →
      (l.run user rooms (earlier ++ t :: since)).site.count user ≠ 0

private theorem misled_nil : ¬Misled user room rooms l [] := by
  rintro ⟨earlier, t, later, split, -⟩
  cases earlier with
  | nil => cases split
  | cons _ _ => cases split

private theorem misled_snoc : Misled user room rooms l (turns ++ [t]) ↔
    (l.run user rooms (turns ++ [t])).site.count user ≠ 0 ∧
      (Misled user room rooms l turns ∨ (l.run user rooms turns).Crosses user room t.id) := by
  constructor
  · rintro ⟨earlier, x, later, split, crosses, held⟩
    have now := held later [] (List.append_nil _).symm
    rw [← split] at now
    refine ⟨now, ?_⟩
    -- the turn that crossed is the last one, or stands before it
    rcases List.eq_nil_or_concat later with rfl | ⟨before, last, rfl⟩
    · obtain ⟨rfl, same⟩ := List.append_inj' split rfl
      cases same
      exact .inr crosses
    · rw [List.concat_eq_append, ← List.cons_append, ← List.append_assoc] at split
      obtain ⟨rfl, same⟩ := List.append_inj' split rfl
      refine .inl ⟨earlier, x, before, rfl, crosses, ?_⟩
      rintro since after rfl
      exact held since (after ++ [last]) (by simp)
  · rintro ⟨now, ⟨earlier, x, later, rfl, crosses, held⟩ | crosses⟩
    · refine ⟨earlier, x, later ++ [t], by simp, crosses, ?_⟩
      intro since after split
      rcases List.eq_nil_or_concat after with rfl | ⟨before, last, rfl⟩
      · rw [List.append_nil] at split
        rw [← split]
        simpa using now
      · rw [List.concat_eq_append, ← List.append_assoc] at split
        obtain ⟨rfl, -⟩ := List.append_inj' split rfl
        exact held since before rfl
    · refine ⟨turns, t, [], rfl, crosses, ?_⟩
      intro since after split
      obtain ⟨rfl, -⟩ := List.append_eq_nil_iff.mp split.symm
      exact now

/-- A run in which no turn crosses misleads nobody. -/
private theorem not_misled_of_take (uncrossed : ∀ n (inside : n < turns.length),
    ¬(l.run user rooms (turns.take n)).Crosses user room (turns.get ⟨n, inside⟩).id) :
    ¬Misled user room rooms l turns := by
  rintro ⟨earlier, t, later, rfl, crosses, -⟩
  apply uncrossed earlier.length (by simp)
  simpa using crosses

variable [BusView β] [ReliableBus β] {owner : ConnId → Option Uuid}

/-- What holds of the lives before a run holds after it. -/
private theorem run_agrees (agrees : l.Agrees owner user rooms)
    (told : l.HasTold user room False)
    (owned : ∀ t ∈ turns, owner t.id = some user) (shared : ∀ t ∈ turns, room ∈ rooms t.id) :
    (l.run user rooms turns).Agrees owner user rooms ∧
      (l.run user rooms turns).HasTold user room (Misled user room rooms l turns) := by
  -- by the last turn, since whether the room is misled rests on the turns before
  induction turns using List.reverseRecOn with
  | nil =>
    refine ⟨agrees, ?_⟩
    rw [eq_false misled_nil]
    exact told
  | append_singleton turns t ih =>
    have before := ih (fun t member => owned t (List.mem_append_left _ member))
      (fun t member => shared t (List.mem_append_left _ member))
    have last : t ∈ turns ++ [t] := List.mem_append_right _ (List.mem_singleton_self t)
    obtain ⟨agreesNow, moves⟩ := before.1.step (owned t last) (shared t last)
    rw [run_snoc]
    refine ⟨agreesNow, before.2.moves moves ?_⟩
    rw [← run_snoc]
    exact misled_snoc

private theorem run_begun (agrees : l.Agrees owner user rooms) (told : l.HasTold user room False)
    (owned : ∀ t ∈ turns, owner t.id = some user) (shared : ∀ t ∈ turns, room ∈ rooms t.id)
    (some_ : turns ≠ []) : (l.run user rooms turns).stages ≠ [] := by
  rcases List.eq_nil_or_concat turns with rfl | ⟨before, last, rfl⟩
  · exact absurd rfl some_
  · rw [List.concat_eq_append] at owned shared ⊢
    obtain ⟨agreesThen, -⟩ := run_agrees agrees told
      (fun t member => owned t (List.mem_append_left _ member))
      (fun t member => shared t (List.mem_append_left _ member))
    have member : last ∈ before ++ [last] := List.mem_append_right _ (List.mem_singleton_self last)
    obtain ⟨-, moves⟩ := agreesThen.step (owned last member) (shared last member)
    rw [run_snoc]
    exact moves.begun

variable {start : Site β}

/-- The last that a room was told of a user is right, once all connections have finished what they
have begun, unless the room is misled; and then it was told that the user is offline while the user
holds a connection. That is so for any number of connections of the user with the room among their
rooms, and in whichever order they do what they do. -/
theorem lastSaid_right_unless_misled (serves : start.InService) (nobody : start.count user = 0)
    (some_ : turns ≠ []) (owned : ∀ t ∈ turns, start.owner t.id = some user)
    (shared : ∀ t ∈ turns, room ∈ rooms t.id)
    (rest : ((of start).run user rooms turns).AtRest) :
    (¬Misled user room rooms (of start) turns →
      ((of start).run user rooms turns).site.lastSaid room user =
        some (decide (((of start).run user rooms turns).site.count user ≠ 0))) ∧
    (Misled user room rooms (of start) turns →
      ((of start).run user rooms turns).site.count user ≠ 0 ∧
        ((of start).run user rooms turns).site.lastSaid room user = some false) := by
  obtain ⟨agreesFirst, toldFirst⟩ :
      (of start).Agrees start.owner user rooms ∧ (of start).HasTold user room False :=
    of_agrees serves nobody
  obtain ⟨-, told⟩ := run_agrees agreesFirst toldFirst owned shared
  have begun := run_begun agreesFirst toldFirst owned shared some_
  obtain ⟨notGreets, notParts⟩ := rest.none_to_tell room
  constructor
  · intro right
    by_cases none : ((of start).run user rooms turns).site.count user = 0
    · have last := (told.free none begun).resolve_left notParts
      rw [last, decide_eq_false (not_not.mpr none)]
    · have last := (told.held none notGreets).2 right
      rw [last, decide_eq_true none]
  · intro wrong
    have held := told.missed wrong
    exact ⟨held, (told.held held notGreets).1 wrong⟩

/-- A user's two connections on a hub that has just started. -/
def returnStart : Site MemoryBus :=
  .fresh (.trial ⟨1⟩) 0
    [(⟨0⟩, { user := ⟨7⟩, capacity := 1 }), (⟨1⟩, { user := ⟨7⟩, capacity := 1 })] (some .empty)

private theorem returnStart_serves : returnStart.InService := by
  have up : Up MemoryBus.empty := ⟨rfl, List.nodup_nil⟩
  exact Site.fresh_inService (.trial ⟨1⟩) 0 _ up

/-- Each connection has the same room. -/
def lobby : ConnId → List Uuid := fun _ => [⟨5⟩]

/-- The first connection comes, greets its room and goes. -/
def firstVisit : List Turn := [⟨0, ⟨0⟩⟩, ⟨0, ⟨0⟩⟩, ⟨0, ⟨0⟩⟩, ⟨0, ⟨0⟩⟩]

/-- It parts from the room when the second one has come and has not greeted it yet. -/
def slowReturn : List Turn := firstVisit ++ [⟨0, ⟨1⟩⟩, ⟨0, ⟨0⟩⟩, ⟨0, ⟨1⟩⟩, ⟨0, ⟨1⟩⟩]

/-- It parts from the room when the second one has greeted it. -/
def quickReturn : List Turn := firstVisit ++ [⟨0, ⟨1⟩⟩, ⟨0, ⟨1⟩⟩, ⟨0, ⟨1⟩⟩, ⟨0, ⟨0⟩⟩]

theorem slowReturn_right :
    ((of returnStart).run ⟨7⟩ lobby slowReturn).AtRest ∧
      ¬Misled ⟨7⟩ ⟨5⟩ lobby (of returnStart) slowReturn ∧
      ((of returnStart).run ⟨7⟩ lobby slowReturn).site.lastSaid ⟨5⟩ ⟨7⟩ = some true := by
  have owned : ∀ t ∈ slowReturn, returnStart.owner t.id = some ⟨7⟩ := by decide
  have shared : ∀ t ∈ slowReturn, ⟨5⟩ ∈ lobby t.id := fun _ _ => List.mem_singleton_self _
  have rest : ((of returnStart).run ⟨7⟩ lobby slowReturn).AtRest := by decide
  have right : ¬Misled ⟨7⟩ ⟨5⟩ lobby (of returnStart) slowReturn := not_misled_of_take (by decide)
  have held : ((of returnStart).run ⟨7⟩ lobby slowReturn).site.count ⟨7⟩ ≠ 0 := by decide
  obtain ⟨told, -⟩ :=
    lastSaid_right_unless_misled returnStart_serves rfl (by decide) owned shared rest
  refine ⟨rest, right, ?_⟩
  rw [told right, decide_eq_true held]

/-- All has been told, the user holds a connection, and the room was told last that it is
offline. -/
theorem quickReturn_misleads :
    ((of returnStart).run ⟨7⟩ lobby quickReturn).AtRest ∧
      ((of returnStart).run ⟨7⟩ lobby quickReturn).site.count ⟨7⟩ = 1 ∧
      ((of returnStart).run ⟨7⟩ lobby quickReturn).site.lastSaid ⟨5⟩ ⟨7⟩ = some false := by
  have owned : ∀ t ∈ quickReturn, returnStart.owner t.id = some ⟨7⟩ := by decide
  have shared : ∀ t ∈ quickReturn, ⟨5⟩ ∈ lobby t.id := fun _ _ => List.mem_singleton_self _
  have rest : ((of returnStart).run ⟨7⟩ lobby quickReturn).AtRest := by decide
  have one : ((of returnStart).run ⟨7⟩ lobby quickReturn).site.count ⟨7⟩ = 1 := by decide
  have held : ((of returnStart).run ⟨7⟩ lobby quickReturn).site.count ⟨7⟩ ≠ 0 := by
    rw [one]
    exact Nat.one_ne_zero
  obtain ⟨agrees, begun⟩ : (of returnStart).Agrees returnStart.owner ⟨7⟩ lobby ∧
      (of returnStart).HasTold ⟨7⟩ ⟨5⟩ False := of_agrees returnStart_serves rfl
  obtain ⟨-, told⟩ := run_agrees agrees begun owned shared
  have misled : Misled ⟨7⟩ ⟨5⟩ lobby (of returnStart) quickReturn := by
    refine ⟨quickReturn.take 7, ⟨0, ⟨0⟩⟩, [], rfl, by decide, ?_⟩
    intro since after split
    obtain ⟨rfl, -⟩ := List.append_eq_nil_iff.mp split.symm
    exact held
  exact ⟨rest, one, (told.held held (rest.none_to_tell ⟨5⟩).1).1 misled⟩

end Runs

end Lives

end RoomRelay
