import RoomRelay.Hub.Conversation
import RoomRelay.Proofs.Announcements

/-!
The lives of a user's connections on one hub. A connection is registered; it listens to its rooms
and, when it was its user's first, tells them one after another that the user is online; later it is
unregistered and, when it was the last, tells the rooms that its user listened to that the user is
offline. Each does so for itself, and the turns of several come in any order. What one turn can come
to is said once, for the user and one room.
-/

namespace RoomRelay

open BusView

/-! ## Lives of connections -/

/-- Where a connection is in its life, which `serve_connection` leads it through. -/
inductive Stage where
  /-- It has not come yet. -/
  | expected
  /-- It is registered and does not listen yet. These rooms are to be told that its user is
  online. -/
  | arrived (toTell : List Uuid)
  /-- It listens. These rooms are still to be told that its user is online; then it may go. -/
  | present (toTell : List Uuid)
  /-- It is not registered any more. These rooms are still to be told that its user is offline. -/
  | gone (toTell : List Uuid)
deriving DecidableEq

namespace Stage

def isHeld : Stage → Bool
  | arrived _ | present _ => true
  | expected | gone _ => false

/-- It is still to tell a room that its user is online. -/
def greets (room : Uuid) : Stage → Bool
  | arrived toTell | present toTell => toTell.contains room
  | expected | gone _ => false

/-- It is still to tell a room that its user is offline. -/
def parts (room : Uuid) : Stage → Bool
  | gone toTell => toTell.contains room
  | expected | arrived _ | present _ => false

/-- The next that it tells is this room that its user is offline. -/
def partsNow (room : Uuid) : Stage → Bool
  | gone (first :: _) => first = room
  | _ => false

/-- What it has begun it has finished. -/
def isSettled : Stage → Bool
  | expected | present [] | gone [] => true
  | _ => false

theorem partsNow_iff {stage : Stage} {room : Uuid} :
    stage.partsNow room = true ↔ ∃ rest, stage = .gone (room :: rest) := by
  constructor
  · intro now
    unfold partsNow at now
    split at now
    · rename_i first rest
      exact ⟨rest, by rw [of_decide_eq_true now]⟩
    · cases now
  · rintro ⟨rest, rfl⟩
    exact decide_eq_true rfl

/-- What it has finished leaves nobody to be told. -/
private theorem told_of_isSettled {stage : Stage} (settled : stage.isSettled = true) (room : Uuid) :
    stage.greets room = false ∧ stage.parts room = false := by
  cases stage with
  | expected => exact ⟨rfl, rfl⟩
  | arrived toTell => cases settled
  | present toTell =>
    cases toTell with
    | nil => exact ⟨rfl, rfl⟩
    | cons _ _ => cases settled
  | gone toTell =>
    cases toTell with
    | nil => exact ⟨rfl, rfl⟩
    | cons _ _ => cases settled

end Stage

/-- A hub, and where the connections of one user are in their lives. -/
structure Lives (β : Type) where
  site : Site β
  stages : Table ConnId Stage := []

namespace Lives

/-- A connection does the next thing in its life. -/
structure Turn where
  now : Nat
  id : ConnId

section Stages

variable {β : Type} {l : Lives β} {id : ConnId} {p : Stage → Bool} {s : Site β} {stage : Stage}

def stageOf (l : Lives β) (id : ConnId) : Stage := (l.stages.get? id).getD .expected

/-- A connection enters a stage, and leaves the hub as it made it. -/
def enter (l : Lives β) (s : Site β) (id : ConnId) (stage : Stage) : Lives β :=
  ⟨s, l.stages.set id stage⟩

/-- Before any of them has come. -/
def of (s : Site β) : Lives β := ⟨s, []⟩

/-- Some connection is at such a stage. -/
def AnyAt (l : Lives β) (p : Stage → Bool) : Prop := ∃ id ∈ l.stages.keys, p (l.stageOf id) = true

instance (l : Lives β) (p : Stage → Bool) : Decidable (l.AnyAt p) :=
  inferInstanceAs (Decidable (∃ id ∈ l.stages.keys, p (l.stageOf id) = true))

/-- Some connection is still to tell a room that the user is online. -/
abbrev Greets (l : Lives β) (room : Uuid) : Prop := l.AnyAt (Stage.greets room)

/-- Some connection is still to tell a room that the user is offline. -/
abbrev Parts (l : Lives β) (room : Uuid) : Prop := l.AnyAt (Stage.parts room)

/-- Every connection has finished what it has begun. -/
def AtRest (l : Lives β) : Prop := ∀ id ∈ l.stages.keys, (l.stageOf id).isSettled = true

instance (l : Lives β) : Decidable l.AtRest :=
  inferInstanceAs (Decidable (∀ id ∈ l.stages.keys, (l.stageOf id).isSettled = true))

private theorem stageOf_enter (l : Lives β) (s : Site β) (id other : ConnId) (stage : Stage) :
    (l.enter s id stage).stageOf other = if other = id then stage else l.stageOf other := by
  rw [stageOf, enter, Table.get?_set]
  split
  · rfl
  · rfl

private theorem mem_keys_of_begun (begun : l.stageOf id ≠ .expected) : id ∈ l.stages.keys := by
  by_contra absent
  apply begun
  rw [stageOf, Table.get?_eq_none_iff.mpr absent]
  rfl

private theorem anyAt_iff (none : p .expected = false) :
    l.AnyAt p ↔ ∃ id, p (l.stageOf id) = true := by
  constructor
  · rintro ⟨id, -, at_⟩
    exact ⟨id, at_⟩
  · rintro ⟨id, at_⟩
    refine ⟨id, mem_keys_of_begun ?_, at_⟩
    intro expected
    rw [expected, none] at at_
    cases at_

/-- A connection among the others is where it was. -/
theorem anyAt_enter_iff (none : p .expected = false) :
    (l.enter s id stage).AnyAt p ↔
      p stage = true ∨ ∃ other, other ≠ id ∧ p (l.stageOf other) = true := by
  rw [anyAt_iff none]
  constructor
  · rintro ⟨other, at_⟩
    rw [stageOf_enter] at at_
    by_cases same : other = id
    · rw [if_pos same] at at_
      exact .inl at_
    · rw [if_neg same] at at_
      exact .inr ⟨other, same, at_⟩
  · rintro (at_ | ⟨other, different, at_⟩)
    · exact ⟨id, by rwa [stageOf_enter, if_pos rfl]⟩
    · exact ⟨other, by rwa [stageOf_enter, if_neg different]⟩

theorem anyAt_split_iff (none : p .expected = false) (id : ConnId) :
    l.AnyAt p ↔ p (l.stageOf id) = true ∨ ∃ other, other ≠ id ∧ p (l.stageOf other) = true := by
  rw [anyAt_iff none]
  constructor
  · rintro ⟨other, at_⟩
    by_cases same : other = id
    · exact .inl (same ▸ at_)
    · exact .inr ⟨other, same, at_⟩
  · rintro (at_ | ⟨other, -, at_⟩)
    · exact ⟨id, at_⟩
    · exact ⟨other, at_⟩

/-- A stage that is alike in this respect changes nothing in it. -/
theorem anyAt_enter_congr (none : p .expected = false) (alike : p stage = p (l.stageOf id)) :
    (l.enter s id stage).AnyAt p ↔ l.AnyAt p := by
  rw [anyAt_enter_iff none, anyAt_split_iff none id, alike]

theorem AtRest.none_to_tell (rest : l.AtRest) (room : Uuid) : ¬l.Greets room ∧ ¬l.Parts room := by
  constructor
  · rintro ⟨id, member, greets⟩
    rw [(Stage.told_of_isSettled (rest id member) room).1] at greets
    cases greets
  · rintro ⟨id, member, parts⟩
    rw [(Stage.told_of_isSettled (rest id member) room).2] at parts
    cases parts

theorem stages_enter_ne_nil (l : Lives β) (s : Site β) (id : ConnId) (stage : Stage) :
    (l.enter s id stage).stages ≠ [] := by
  have at_ : (l.stages.set id stage).get? id = some stage := by
    rw [Table.get?_set, if_pos rfl]
  intro empty
  rw [show l.stages.set id stage = [] from empty] at at_
  cases at_

theorem stages_ne_nil (begun : l.stageOf id ≠ .expected) : l.stages ≠ [] := by
  intro empty
  have member := mem_keys_of_begun begun
  rw [empty] at member
  cases member

end Stages

variable {β : Type}

section Steps

variable [SharedBus β]

/-- The next thing in the life of a connection, for the user of all of them and the rooms of
each. -/
def step (user : Uuid) (rooms : ConnId → List Uuid) (l : Lives β) (t : Turn) : Lives β :=
  match l.stageOf t.id with
  | .expected =>
    match l.site.register t.now user t.id with
    | (s, .ok first) => l.enter s t.id (.arrived (if first then rooms t.id else []))
    | (s, .error _) => l.enter s t.id (.gone [])
  | .arrived toTell => l.enter (l.site.listenAll (rooms t.id) user) t.id (.present toTell)
  | .present (room :: rest) =>
    l.enter (l.site.announcePresence user [room] true) t.id (.present rest)
  | .present [] =>
    match l.site.unregister user t.id with
    | (s, .ok left) => l.enter s t.id (.gone left)
    | (s, .error _) => l.enter s t.id (.gone [])
  | .gone (room :: rest) =>
    l.enter (l.site.announcePresence user [room] false) t.id (.gone rest)
  | .gone [] => l

def run (user : Uuid) (rooms : ConnId → List Uuid) (l : Lives β) (turns : List Turn) : Lives β :=
  turns.foldl (step user rooms) l

variable {user : Uuid} {rooms : ConnId → List Uuid} {l : Lives β} {t : Turn}

private theorem step_expected {first : Bool} (was : l.stageOf t.id = .expected)
    (answer : (l.site.register t.now user t.id).2 = .ok first) :
    l.step user rooms t = l.enter (l.site.register t.now user t.id).1 t.id
      (.arrived (if first then rooms t.id else [])) := by
  simp only [step, was]
  cases registered : l.site.register t.now user t.id with
  | mk s result =>
    rw [registered] at answer
    cases answer
    rfl

private theorem step_arrived {toTell : List Uuid} (was : l.stageOf t.id = .arrived toTell) :
    l.step user rooms t =
      l.enter (l.site.listenAll (rooms t.id) user) t.id (.present toTell) := by
  simp only [step, was]

private theorem step_greeting {first : Uuid} {rest : List Uuid}
    (was : l.stageOf t.id = .present (first :: rest)) :
    l.step user rooms t =
      l.enter (l.site.announcePresence user [first] true) t.id (.present rest) := by
  simp only [step, was]

private theorem step_present {left : List Uuid} (was : l.stageOf t.id = .present [])
    (answer : (l.site.unregister user t.id).2 = .ok left) :
    l.step user rooms t = l.enter (l.site.unregister user t.id).1 t.id (.gone left) := by
  simp only [step, was]
  cases unregistered : l.site.unregister user t.id with
  | mk s result =>
    rw [unregistered] at answer
    cases answer
    rfl

private theorem step_parting {first : Uuid} {rest : List Uuid}
    (was : l.stageOf t.id = .gone (first :: rest)) :
    l.step user rooms t =
      l.enter (l.site.announcePresence user [first] false) t.id (.gone rest) := by
  simp only [step, was]

private theorem step_gone (was : l.stageOf t.id = .gone []) : l.step user rooms t = l := by
  simp only [step, was]

theorem run_snoc (turns : List Turn) :
    l.run user rooms (turns ++ [t]) = (l.run user rooms turns).step user rooms t := by
  rw [run, List.foldl_append, run]
  rfl

/-- The turns of one connection that is left to itself while it greets come to one announcement. -/
private theorem run_greeting (t : Turn) {toTell : List Uuid}
    (was : l.stageOf t.id = .present toTell) :
    (l.run user rooms (List.replicate toTell.length t)).site =
      l.site.announcePresence user toTell true := by
  induction toTell generalizing l with
  | nil => rfl
  | cons first rest ih =>
    rw [List.length_cons, List.replicate_succ, run, List.foldl_cons, step_greeting was]
    exact ih (by rw [stageOf_enter, if_pos rfl])

/-- And so do those of one that parts. -/
private theorem run_parting (t : Turn) {toTell : List Uuid} (was : l.stageOf t.id = .gone toTell) :
    (l.run user rooms (List.replicate toTell.length t)).site =
      l.site.announcePresence user toTell false := by
  induction toTell generalizing l with
  | nil => rfl
  | cons first rest ih =>
    rw [List.length_cons, List.replicate_succ, run, List.foldl_cons, step_parting was]
    exact ih (by rw [stageOf_enter, if_pos rfl])

/-- Left to itself a connection comes as clients are received: it is registered, and when its rooms
are known it listens to them and tells them what is to be told. -/
theorem run_welcome {now : Nat} {id : ConnId} {first : Bool} (was : l.stageOf id = .expected)
    (answer : (l.site.register now user id).2 = .ok first) :
    ∃ resume, l.site.welcome now user id =
        .ask (l.step user rooms ⟨now, id⟩).site (.roomsOf user) resume ∧
      ∀ (l' : Lives β) (toTell : List Uuid), toTell = (if first then rooms id else []) →
        l'.stageOf id = .arrived toTell →
        resume l'.site (.ok (rooms id)) =
          (((l'.run user rooms (List.replicate (toTell.length + 1) ⟨now, id⟩)).site.sendSync
            user id {}).andThen (Site.conclude id)).map .ok := by
  have step : l.step user rooms ⟨now, id⟩ = l.enter (l.site.register now user id).1 id
      (.arrived (if first then rooms id else [])) := step_expected was answer
  have welcome : ∀ {s : Site β}, l.site.register now user id = (s, .ok first) →
      l.site.welcome now user id = .ask s (.roomsOf user) fun s answer =>
        let rooms := answer.toOption.getD []
        let s := s.listenAll rooms user
        let s := if first then s.announcePresence user rooms true else s
        ((s.sendSync user id {}).andThen (Site.conclude id)).map .ok := by
    intro s registered
    rw [Site.welcome, registered]
    rfl
  cases registered : l.site.register now user id with
  | mk s result =>
    rw [registered] at answer step
    cases answer
    rw [step]
    refine ⟨_, welcome registered, ?_⟩
    rintro l' toTell rfl was'
    rw [List.replicate_succ, run, List.foldl_cons, step_arrived was', ← run,
      run_greeting ⟨now, id⟩ (by rw [stageOf_enter, if_pos rfl])]
    cases first with
    | true => rfl
    | false => rfl

/-- And it goes as clients are let go. -/
theorem run_depart {now : Nat} {id : ConnId} {left : List Uuid} (was : l.stageOf id = .present [])
    (answer : (l.site.unregister user id).2 = .ok left) :
    (l.run user rooms (List.replicate (left.length + 1) ⟨now, id⟩)).site =
      l.site.depart user id := by
  rw [List.replicate_succ, run, List.foldl_cons, step_present was answer]
  refine (run_parting ⟨now, id⟩ (by rw [stageOf_enter, if_pos rfl])).trans ?_
  rw [Site.depart]
  cases unregistered : l.site.unregister user id with
  | mk s result =>
    rw [unregistered] at answer
    cases answer
    rfl

end Steps

/-! ## One turn -/

/-- All that a turn of a connection can come to for its user and one of its rooms. -/
inductive Moves [BusView β] (user room : Uuid) (l : Lives β) (id : ConnId) : Lives β → Prop where
  /-- The user's first connection comes, and is to tell the room that the user is online. -/
  | comes {s : Site β} {toTell : List Uuid} (none : l.site.count user = 0)
      (one : s.count user ≠ 0) (willTell : room ∈ toTell) :
      Moves user room l id (l.enter s id (.arrived toTell))
  /-- The room is told that the user is online. -/
  | greets {s : Site β} {toTell : List Uuid} (was : l.stageOf id = .present (room :: toTell))
      (held : s.count user ≠ 0)
      (said : s.said room user = l.site.said room user ++ [true]) :
      Moves user room l id (l.enter s id (.present toTell))
  /-- The user's last connection goes, and is to tell the room that the user is offline. -/
  | departs {s : Site β} {toTell : List Uuid} (none : s.count user = 0)
      (willTell : room ∈ toTell) : Moves user room l id (l.enter s id (.gone toTell))
  /-- The room is told that the user is offline. -/
  | parts {s : Site β} {toTell : List Uuid} (was : l.stageOf id = .gone (room :: toTell))
      (count : s.count user = 0 ↔ l.site.count user = 0)
      (said : s.said room user = l.site.said room user ++ [false]) :
      Moves user room l id (l.enter s id (.gone toTell))
  /-- The room is told nothing, and as much as before is still to be told to it. -/
  | passes {s : Site β} {stage : Stage} (count : s.count user = 0 ↔ l.site.count user = 0)
      (said : s.said room user = l.site.said room user)
      (greets : stage.greets room = (l.stageOf id).greets room)
      (parts : stage.parts room = (l.stageOf id).parts room)
      (notParting : ∀ rest, l.stageOf id ≠ .gone (room :: rest))
      (begun : l.site.count user = 0 → l.stages ≠ []) :
      Moves user room l id (l.enter s id stage)
  | rests (was : l.stageOf id = .gone []) : Moves user room l id l

/-- A user that is held before and after is none that comes or goes. -/
theorem Moves.held [BusView β] {user room : Uuid} {l : Lives β} {id : ConnId} {s : Site β}
    {old stage : Stage} (was : l.stageOf id = old) (before : l.site.count user ≠ 0)
    (after : s.count user ≠ 0) (said : s.said room user = l.site.said room user)
    (greets : stage.greets room = old.greets room) (parts : stage.parts room = old.parts room)
    (notParting : ∀ rest, old ≠ .gone (room :: rest)) :
    Moves user room l id (l.enter s id stage) := by
  subst was
  exact .passes (iff_of_false after before) said greets parts notParting
    fun none => absurd none before

/-- The lives agree with the hub: whoever is held is registered, and whoever is present listens. -/
structure Agrees [BusView β] (owner : ConnId → Option Uuid) (user : Uuid)
    (rooms : ConnId → List Uuid) (l : Lives β) : Prop where
  serves : l.site.InService
  owner : l.site.owner = owner
  registered : ∀ id, id ∈ l.site.connectionsOf user ↔ (l.stageOf id).isHeld = true
  listens : ∀ id toTell, l.stageOf id = .present toTell →
    ∀ room ∈ rooms id, user ∈ l.site.hub.registry.listeners room

section Agreement

variable [BusView β] {owner : ConnId → Option Uuid} {user room : Uuid} {rooms : ConnId → List Uuid}
  {l : Lives β} {s : Site β} {id : ConnId} {stage : Stage} {t : Turn}

theorem Agrees.held (agrees : l.Agrees owner user rooms) (held : (l.stageOf id).isHeld = true) :
    l.site.count user ≠ 0 := by
  have member := (agrees.registered id).mpr held
  exact Nat.pos_iff_ne_zero.mp (List.length_pos_of_mem member)

/-- What lets nobody stop listening keeps the agreement when it registers whom it should. -/
theorem Agrees.enter (agrees : l.Agrees owner user rooms) (serves : s.InService)
    (owner_ : s.owner = l.site.owner)
    (registered : ∀ other, other ∈ s.connectionsOf user ↔
      ((l.enter s id stage).stageOf other).isHeld = true)
    (listening : ∀ room, user ∈ l.site.hub.registry.listeners room →
      user ∈ s.hub.registry.listeners room)
    (present : ∀ toTell, stage = .present toTell → ∀ room ∈ rooms id,
      user ∈ s.hub.registry.listeners room) :
    (l.enter s id stage).Agrees owner user rooms := by
  refine ⟨serves, owner_.trans agrees.owner, registered, ?_⟩
  intro other toTell was
  rw [stageOf_enter] at was
  split at was
  · rename_i same
    subst same
    exact present toTell was
  · intro room member
    exact listening room (agrees.listens other toTell was room member)

private theorem Agrees.registered_alike (agrees : l.Agrees owner user rooms)
    (connections : s.connectionsOf user = l.site.connectionsOf user)
    (alike : stage.isHeld = (l.stageOf id).isHeld) (other : ConnId) :
    other ∈ s.connectionsOf user ↔ ((l.enter s id stage).stageOf other).isHeld = true := by
  rw [connections, agrees.registered, stageOf_enter]
  split
  · rename_i same
    rw [alike, same]
  · rfl

variable [SharedBus β]

private theorem Agrees.registered_register (agrees : l.Agrees owner user rooms) (now : Nat)
    (id : ConnId)
    (toTell : List Uuid) (other : ConnId) :
    other ∈ (l.site.register now user id).1.connectionsOf user ↔
      ((l.enter (l.site.register now user id).1 id (.arrived toTell)).stageOf other).isHeld =
        true := by
  have running := agrees.serves.running
  refine (Site.mem_register l.site now user user id other).trans ?_
  rw [stageOf_enter]
  by_cases same : other = id
  · rw [if_pos same]
    exact iff_of_true (.inr ⟨running, rfl, same⟩) rfl
  · rw [if_neg same, ← agrees.registered]
    constructor
    · rintro (before | ⟨-, -, same'⟩)
      · exact before
      · exact absurd same' same
    · exact .inl

private theorem Agrees.registered_unregister (agrees : l.Agrees owner user rooms) (id : ConnId)
    (toTell : List Uuid) (other : ConnId) :
    other ∈ (l.site.unregister user id).1.connectionsOf user ↔
      ((l.enter (l.site.unregister user id).1 id (.gone toTell)).stageOf other).isHeld = true := by
  have running := agrees.serves.running
  refine (Site.mem_unregister agrees.serves.orderly.sound.usersOnce user user id other).trans ?_
  rw [stageOf_enter]
  by_cases same : other = id
  · rw [if_pos same]
    exact iff_of_false (fun both => both.2 ⟨running, rfl, same⟩) Bool.false_ne_true
  · rw [if_neg same, ← agrees.registered]
    constructor
    · exact fun both => both.1
    · exact fun before => ⟨before, fun taken => same taken.2.2⟩

variable [ReliableBus β]

theorem Agrees.comes (agrees : l.Agrees owner user rooms) (owned : owner t.id = some user)
    (shared : room ∈ rooms t.id) (was : l.stageOf t.id = .expected) :
    (l.step user rooms t).Agrees owner user rooms ∧
      Moves user room l t.id (l.step user rooms t) := by
  have running := agrees.serves.running
  have absent : t.id ∉ l.site.connectionsOf user := by
    rw [agrees.registered, was]
    exact Bool.false_ne_true
  have counts := Site.register_count running absent t.now user
  rw [if_pos rfl] at counts
  have more : (l.site.register t.now user t.id).1.count user ≠ 0 := by omega
  have tells := Site.register_tellsNobody agrees.serves (agrees.owner ▸ owned) absent t.now
  rw [step_expected was (Site.register_answer running absent t.now)]
  constructor
  · apply agrees.enter tells.serves tells.owner (agrees.registered_register t.now t.id _)
    · intro room before
      rw [Site.register_hub running]
      simpa [Registry.listeners] using before
    · exact fun _ => Stage.noConfusion
  · by_cases none : l.site.count user = 0
    · rw [decide_eq_true none, if_pos rfl]
      exact .comes none more shared
    · rw [decide_eq_false none, if_neg Bool.false_ne_true]
      exact .held was none more (tells.said room user) rfl rfl fun _ => Stage.noConfusion

theorem Agrees.listening (agrees : l.Agrees owner user rooms) {toTell : List Uuid}
    (was : l.stageOf t.id = .arrived toTell) :
    (l.step user rooms t).Agrees owner user rooms ∧
      Moves user room l t.id (l.step user rooms t) := by
  obtain ⟨tells, users⟩ := Site.listenAll_tellsNobody agrees.serves (rooms t.id) user
  have listeners := Site.mem_listeners_listenAll l.site (rooms t.id) user
  have held : (l.stageOf t.id).isHeld = true := by
    rw [was]
    rfl
  have connections : (l.site.listenAll (rooms t.id) user).connectionsOf user =
      l.site.connectionsOf user := by
    simp only [Site.connectionsOf, Registry.connectionsOf, users]
  have alike : (Stage.present toTell).isHeld = (l.stageOf t.id).isHeld := held.symm
  rw [step_arrived was]
  constructor
  · apply agrees.enter tells.serves tells.owner (agrees.registered_alike connections alike)
    · intro room before
      exact (listeners room user).mpr (.inl before)
    · intro _ _ room member
      exact (listeners room user).mpr (.inr ⟨rfl, member⟩)
  · have count : (l.site.listenAll (rooms t.id) user).count user = l.site.count user :=
      congrArg List.length connections
    exact .held was (agrees.held held) (count ▸ agrees.held held) (tells.said room user) rfl rfl
      fun _ => Stage.noConfusion

/-- Announcing keeps the agreement. -/
theorem Agrees.announces (agrees : l.Agrees owner user rooms) {first : Uuid} {online : Bool}
    (alike : stage.isHeld = (l.stageOf id).isHeld)
    (present : ∀ toTell, stage = .present toTell → ∃ before, l.stageOf id = .present before) :
    (l.enter (l.site.announcePresence user [first] online) id stage).Agrees owner user rooms := by
  have tells := Site.announce_tells agrees.serves first user online
  have registered := agrees.registered_alike (tells.alike.connectionsOf user) alike
  apply agrees.enter tells.serves tells.owner registered
  · intro room before
    rw [tells.alike.listeners]
    exact before
  · intro toTell is room member
    obtain ⟨before, was⟩ := present toTell is
    rw [tells.alike.listeners]
    exact agrees.listens id before was room member

theorem Agrees.greeting (agrees : l.Agrees owner user rooms) {first : Uuid} {rest : List Uuid}
    (was : l.stageOf t.id = .present (first :: rest)) :
    (l.step user rooms t).Agrees owner user rooms ∧
      Moves user room l t.id (l.step user rooms t) := by
  have tells := Site.announce_tells agrees.serves first user true
  have held : (l.stageOf t.id).isHeld = true := by
    rw [was]
    rfl
  rw [step_greeting was]
  refine ⟨agrees.announces held.symm fun _ _ => ⟨_, was⟩, ?_⟩
  have count : (l.site.announcePresence user [first] true).count user = l.site.count user :=
    congrArg List.length (tells.alike.connectionsOf user)
  have said := tells.said room user
  by_cases here : first = room
  · subst here
    rw [if_pos ⟨rfl, rfl⟩] at said
    exact .greets was (count ▸ agrees.held held) said
  · rw [if_neg fun both => here both.1, List.append_nil] at said
    apply Moves.held was (agrees.held held) (count ▸ agrees.held held) said
    · simp [Stage.greets, Ne.symm here]
    · rfl
    · exact fun _ => Stage.noConfusion

private theorem Agrees.parting (agrees : l.Agrees owner user rooms) {first : Uuid}
    {rest : List Uuid}
    (was : l.stageOf t.id = .gone (first :: rest)) :
    (l.step user rooms t).Agrees owner user rooms ∧
      Moves user room l t.id (l.step user rooms t) := by
  have tells := Site.announce_tells agrees.serves first user false
  have alike : (Stage.gone rest).isHeld = (l.stageOf t.id).isHeld := by
    rw [was]
    rfl
  rw [step_parting was]
  refine ⟨agrees.announces alike fun _ is => (nomatch is), ?_⟩
  have count : (l.site.announcePresence user [first] false).count user = l.site.count user :=
    congrArg List.length (tells.alike.connectionsOf user)
  have said := tells.said room user
  by_cases here : first = room
  · subst here
    rw [if_pos ⟨rfl, rfl⟩] at said
    exact .parts was (by rw [count]) said
  · rw [if_neg fun both => here both.1, List.append_nil] at said
    apply Moves.passes (by rw [count]) said
    · rw [was]
      rfl
    · rw [was]
      simp [Stage.parts, Ne.symm here]
    · rw [was]
      rintro _ ⟨⟩
      exact here rfl
    · intro _
      apply stages_ne_nil
      rw [was]
      exact Stage.noConfusion

theorem Agrees.leaving (agrees : l.Agrees owner user rooms) (owned : owner t.id = some user)
    (shared : room ∈ rooms t.id) (was : l.stageOf t.id = .present []) :
    (l.step user rooms t).Agrees owner user rooms ∧
      Moves user room l t.id (l.step user rooms t) := by
  have running := agrees.serves.running
  have sound := agrees.serves.orderly.sound
  have held : (l.stageOf t.id).isHeld = true := by
    rw [was]
    rfl
  have known := (agrees.registered t.id).mpr held
  have tells := Site.unregister_tellsNobody agrees.serves (agrees.owner ▸ owned)
  have counts := Site.unregister_count running sound known user
  rw [if_pos rfl] at counts
  have lastIff := Site.last_iff sound known
  by_cases one : l.site.count user = 1
  · have last := lastIff.mpr one
    have none : (l.site.unregister user t.id).1.count user = 0 := by omega
    have registered := agrees.registered_unregister t.id (l.site.hub.registry.roomsOf user)
    rw [step_present was (Site.unregister_answer_last running known last)]
    refine ⟨⟨tells.serves, tells.owner.trans agrees.owner, registered, ?_⟩, .departs none ?_⟩
    · -- the user listens no more, but nobody is left who should
      intro other toTell present
      have there := (registered other).mpr (by rw [present]; rfl)
      exact absurd none (Nat.pos_iff_ne_zero.mp (List.length_pos_of_mem there))
    · exact (Registry.mem_roomsOf sound.roomsOnce).mpr (agrees.listens t.id [] was room shared)
  · have notLast := mt lastIff.mp one
    have more : (l.site.unregister user t.id).1.count user ≠ 0 := by
      have before := agrees.held held
      omega
    rw [step_present was (Site.unregister_answer_other running fun _ => notLast)]
    constructor
    · apply agrees.enter tells.serves tells.owner (agrees.registered_unregister t.id [])
      · intro room before
        rw [Registry.listeners, Site.unregister_rooms_other running fun _ => notLast]
        exact before
      · exact fun _ => Stage.noConfusion
    · exact .held was (agrees.held held) more (tells.said room user) rfl rfl
        fun _ => Stage.noConfusion

/-- Every turn keeps the agreement, and comes to one of the moves. -/
theorem Agrees.step (agrees : l.Agrees owner user rooms) (owned : owner t.id = some user)
    (shared : room ∈ rooms t.id) :
    (l.step user rooms t).Agrees owner user rooms ∧
      Moves user room l t.id (l.step user rooms t) := by
  cases was : l.stageOf t.id with
  | expected => exact agrees.comes owned shared was
  | arrived toTell => exact agrees.listening was
  | present toTell =>
    cases toTell with
    | nil => exact agrees.leaving owned shared was
    | cons first rest => exact agrees.greeting was
  | gone toTell =>
    cases toTell with
    | nil =>
      rw [step_gone was]
      exact ⟨agrees, .rests was⟩
    | cons first rest => exact agrees.parting was

end Agreement

end Lives

end RoomRelay
