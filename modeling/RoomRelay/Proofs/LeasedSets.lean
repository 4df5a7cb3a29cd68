import RoomRelay.Proofs.OnlineSet
import RoomRelay.Proofs.RedisBus

/-!
Sets under leases, on a bus in memory and on a Redis server. The server lets a key go at its deadline;
the bus in memory looks at a set's lease only when it adds a member or is asked for members, and takes
members out of a set that has long expired. Main statement: whatever is added, removed and asked at
instants in order, under leases of whole seconds whose ends a clock can name, every call comes back and
nobody can tell the two apart.
-/

namespace RoomRelay

open Redis (Server Link Entry)

/-- What a hub may want of the sets on a bus. -/
inductive SetCall where
  | add (key member : String) (lease : Duration)
  | remove (key member : String)
  | contains (key : String) (texts : List String)
deriving DecidableEq

namespace SetCall

/-- A lease that can be told in seconds, for which there are 64 bits. The server is told no
other. -/
def WholeLease : SetCall → Prop
  | add _ _ lease => ∃ seconds, 1 ≤ seconds ∧ seconds < Word.span 64 ∧ lease = .ofSeconds seconds
  | remove .. | contains .. => True

/-- A lease given at an instant ends at one that the clock can name too. -/
def EndsOnClock (now : Nat) : SetCall → Prop
  | add _ _ lease => (lease.after? now).isSome
  | remove .. | contains .. => True

/-! ## Calls and their answers -/

/-- A call of a bus. Only a question has an answer beyond that the call was carried out. -/
def on {β : Type} [SharedBus β] (b : β) (now : Nat) :
    SetCall → β × Except Failure (Option (List Bool))
  | add key member lease =>
    Prod.map id (Except.map fun _ => none) (SharedBus.setAdd b now key member lease)
  | remove key member => Prod.map id (Except.map fun _ => none) (SharedBus.setRemove b key member)
  | contains key texts => Prod.map id (Except.map some) (SharedBus.setContains b now key texts)

/-- Whether a call comes back: an addition does if its lease is granted, and the other calls do. -/
def comesBack {β : Type} [SharedBus β] (b : β) (now : Nat) : SetCall → Bool
  | add _ _ lease => SharedBus.grants b now lease
  | remove .. | contains .. => true

/-- The answers of a bus to calls at their instants, when `wait` is what the bus does by itself
until an instant. A call that does not come back has no answer, and its caller makes no other. -/
def answers {β : Type} [SharedBus β] (wait : β → Nat → β) :
    β → List (Nat × SetCall) → List (Option (Except Failure (Option (List Bool))))
  | _, [] => []
  | b, (now, call) :: rest =>
    let b := wait b now
    if call.comesBack b now then
      let (b, answer) := call.on b now
      some answer :: answers wait b rest
    else [none]

/-- The commands that a call becomes on the way to a server. -/
def commands : SetCall → List Redis.Command
  | add key member lease => Link.setAddCommands key member lease
  | remove key member => [.srem key member]
  | contains key texts => Link.setContainsCommands key texts

/-- What a server that has carried out a call's commands answers. -/
def reply (s : Server) : SetCall → Option (List Bool)
  | contains key texts => some (s.membership key texts)
  | add .. | remove .. => none

/-- The answers of a server that carries out the commands of calls at their instants. -/
def replies : Server → List (Nat × SetCall) → List (Option (List Bool))
  | _, [] => []
  | s, (now, call) :: rest =>
    let s := (s.moveTo now).executeAll call.commands
    call.reply s :: replies s rest

end SetCall

/-! ## Sets in memory as entries of a server -/

/-- An entry without a member: none without its last. -/
def Redis.Entry.without (e : Entry) (member : String) : Option Entry :=
  let left := e.members.filter (· ≠ member)
  if left.isEmpty then none else some { e with members := left }

/-- A set as a server would have it: nothing once it has expired. -/
def ExpiringSet.entryAt (set : ExpiringSet) (now : Nat) : Option Entry :=
  if now < set.expiresAt then some ⟨set.members, some set.expiresAt⟩ else none

namespace MemoryBus

/-- What a server would have under a key. -/
def entryAt (b : MemoryBus) (now : Nat) (key : String) : Option Entry :=
  (b.sets.get? key).bind (·.entryAt now)

variable {b : MemoryBus} {now : Nat} {key : String}

private theorem liveMembers_eq (b : MemoryBus) (now : Nat) (key : String) :
    b.liveMembers now key = ((b.entryAt now key).map (·.members)).getD [] := by
  unfold liveMembers entryAt
  cases b.sets.get? key with
  | none => rfl
  | some set =>
    by_cases live : now < set.expiresAt
    · simp [ExpiringSet.entryAt, live, Nat.not_le.mpr live]
    · simp [ExpiringSet.entryAt, live, Nat.le_of_not_lt live]

private theorem entryAt_set (b : MemoryBus) (now : Nat) (key other : String) (set : ExpiringSet) :
    entryAt { b with sets := b.sets.set key set } now other =
      if other = key then set.entryAt now else b.entryAt now other := by
  simp only [entryAt, Table.get?_set]
  split <;> rfl

private theorem entryAt_erase (once : b.sets.keys.Nodup) (now : Nat) (key other : String) :
    entryAt { b with sets := b.sets.erase key } now other =
      if other = key then none else b.entryAt now other := by
  simp only [entryAt, Table.get?_erase once]
  split <;> rfl

private theorem setAdd_entryAt (working : b.Working) (now : Nat) (key member other : String)
    {lease : Duration} (ahead : 0 < lease.nanos) :
    (b.setAdd now key member lease).1.entryAt now other =
      if other = key then
        let members := ((b.entryAt now key).map (·.members)).getD []
        some ⟨if members.contains member then members else members ++ [member],
          some (now + lease.nanos)⟩
      else b.entryAt now other := by
  rw [setAdd_eq working, entryAt_set, liveMembers_eq]
  split
  · exact if_pos (Nat.lt_add_of_pos_right ahead)
  · rfl

private theorem setRemove_some (working : b.Working) {set : ExpiringSet}
    (found : b.sets.get? key = some set) (member : String) :
    (b.setRemove key member).1 =
      let left := set.members.filter (· ≠ member)
      { b with
        sets :=
          if left.isEmpty then b.sets.erase key
          else b.sets.set key { set with members := left } } := by
  simp [setRemove, working.available, found]

/-- Taking a member out of an expired set changes nothing that can be seen. -/
private theorem setRemove_entryAt (working : b.Working) (now : Nat) (key member other : String) :
    (b.setRemove key member).1.entryAt now other =
      if other = key then (b.entryAt now key).bind (·.without member) else b.entryAt now other := by
  cases found : b.sets.get? key with
  | none =>
    simp only [setRemove, working.available, if_true, found]
    split
    · rename_i same
      simp [same, entryAt, found]
    · rfl
  | some set =>
    have before : b.entryAt now key = set.entryAt now := by simp [entryAt, found]
    rw [setRemove_some working found, before]
    dsimp only
    by_cases last : (set.members.filter (· ≠ member)).isEmpty = true
    · rw [if_pos last, entryAt_erase working.setsOnce]
      congr 1
      simp only [ExpiringSet.entryAt]
      split
      · exact (if_pos last).symm
      · rfl
    · rw [if_neg last, entryAt_set]
      congr 1
      simp only [ExpiringSet.entryAt]
      split
      · exact (if_neg last).symm
      · rfl

private theorem setContains_answer (working : b.Working) (now : Nat) (key : String)
    (texts : List String) :
    (b.setContains now key texts).2 = .ok (texts.map (b.liveMembers now key).contains) := by
  simp [setContains, working.available]

private theorem setContains_working (working : b.Working) (now : Nat) (key : String)
    (texts : List String) :
    (b.setContains now key texts).1.Working := by
  simp only [setContains, working.available, if_true]
  refine ⟨rfl, ?_⟩
  dsimp only
  split
  · split
    · exact Table.keys_erase_nodup working.setsOnce
    · exact working.setsOnce
  · exact working.setsOnce

/-- A set that has expired goes when it is asked for, which cannot be seen. -/
private theorem setContains_entryAt (working : b.Working) (now : Nat) (key other : String)
    (texts : List String) :
    (b.setContains now key texts).1.entryAt now other = b.entryAt now other := by
  simp only [setContains, working.available, if_true]
  cases found : b.sets.get? key with
  | none => rfl
  | some set =>
    by_cases expired : set.expiresAt ≤ now
    · simp only [expired, if_true]
      by_cases same : other = key
      · have lapsed : set.entryAt now = none := if_neg (Nat.not_lt.mpr expired)
        simp [entryAt, Table.get?_erase working.setsOnce, same, found, lapsed]
      · simp [entryAt, Table.get?_erase working.setsOnce, same]
    · simp only [expired, if_false]
      rfl

/-- What has expired stays so. -/
private theorem entryAt_later {later : Nat} (passed : now ≤ later) (b : MemoryBus) (key : String) :
    b.entryAt later key = (b.entryAt now key).filter (Entry.isLive later) := by
  unfold entryAt
  cases b.sets.get? key with
  | none => rfl
  | some set =>
    by_cases still : later < set.expiresAt
    · have live : now < set.expiresAt := by omega
      simp [ExpiringSet.entryAt, live, still, Option.filter_some, Entry.isLive]
    · by_cases live : now < set.expiresAt
      · simp [ExpiringSet.entryAt, live, still, Option.filter_some, Entry.isLive]
      · simp [ExpiringSet.entryAt, live, still]

end MemoryBus

/-! ## A server's entries after a command -/

namespace Redis.Server

variable {s : Server}

private theorem held?_set (s : Server) (key other : String) (e : Entry) :
    Server.held? { s with entries := s.entries.set key e } other =
      if other = key then (some e).filter (Entry.isLive s.clock) else s.held? other := by
  unfold Server.held?
  rw [Table.get?_set]
  split <;> rfl

private theorem held?_erase (once : s.entries.keys.Nodup) (key other : String) :
    Server.held? { s with entries := s.entries.erase key } other =
      if other = key then none else s.held? other := by
  unfold Server.held?
  rw [Table.get?_erase once]
  split <;> rfl

/-- What was past its deadline stays so. -/
private theorem held?_moveTo {now : Nat} (passed : s.clock ≤ now) (key : String) :
    Server.held? (s.moveTo now) key = (s.held? key).filter (Entry.isLive now) := by
  unfold Server.held? moveTo
  rw [Option.filter_filter]
  congr 1
  funext e
  cases deadline : e.deadline with
  | none => simp [Entry.isLive, deadline]
  | some instant =>
    by_cases live : now < instant
    · have before : s.clock < instant := by omega
      simp [Entry.isLive, deadline, live, before]
    · simp [Entry.isLive, deadline, live]

@[simp] theorem add_clock (s : Server) (key member : String) :
    (s.add key member).clock = s.clock := rfl

@[simp] theorem setDeadline_clock (s : Server) (key : String) (seconds : Nat) :
    (s.setDeadline key seconds).clock = s.clock := by
  unfold setDeadline
  split <;> rfl

@[simp] theorem remove_clock (s : Server) (key member : String) :
    (s.remove key member).clock = s.clock := by
  unfold remove
  split <;> rfl

private theorem executeAll_clock (s : Server) (cs : List Command) :
    (s.executeAll cs).clock = s.clock := by
  induction cs generalizing s with
  | nil => rfl
  | cons c rest ih =>
    have first : (s.execute c).clock = s.clock := by cases c <;> simp [execute]
    exact (ih (s.execute c)).trans first

private theorem isLive_of_found {key : String} {e : Entry} (found : s.held? key = some e) :
    e.isLive s.clock = true :=
  (Option.filter_eq_some_iff.mp found).2

private theorem held?_add (s : Server) (key member other : String) :
    Server.held? (s.add key member) other =
      if other = key then
        let e := (s.held? key).getD { members := [] }
        some { e with
          members := if e.members.contains member then e.members else e.members ++ [member] }
      else s.held? other := by
  have live : ((s.held? key).getD { members := [] }).isLive s.clock = true := by
    cases found : s.held? key with
    | none => rfl
    | some e => exact isLive_of_found found
  unfold add
  rw [held?_set]
  split
  · exact if_pos live
  · rfl

private theorem held?_setDeadline {key : String} {e : Entry} (found : s.held? key = some e)
    {seconds : Nat} (ahead : 1 ≤ seconds) (other : String) :
    Server.held? (s.setDeadline key seconds) other =
      if other = key then
        some { e with deadline := some (s.clock + (Duration.ofSeconds seconds).nanos) }
      else s.held? other := by
  have later : s.clock < s.clock + (Duration.ofSeconds seconds).nanos :=
    Nat.lt_add_of_pos_right (by simp only [Duration.ofSeconds]; omega)
  simp only [setDeadline, found]
  rw [held?_set]
  split
  · exact if_pos (isLive_of_lt later)
  · rfl

private theorem held?_remove (once : s.entries.keys.Nodup) (key member other : String) :
    Server.held? (s.remove key member) other =
      if other = key then (s.held? key).bind (·.without member) else s.held? other := by
  cases found : s.held? key with
  | none =>
    simp only [remove, found, Option.bind_none]
    split
    · rename_i same
      rw [same, found]
    · rfl
  | some e =>
    simp only [remove, found, Option.bind_some, Entry.without]
    split
    · exact held?_erase once key other
    · rw [held?_set]
      split
      · exact if_pos (isLive_of_found found)
      · rfl

end Redis.Server

/-! ## Stores that cannot be told apart -/

/-- A bus in memory has the sets that a server has. -/
structure Mirrors (b : MemoryBus) (s : Server) : Prop where
  working : b.Working
  keysOnce : s.entries.keys.Nodup
  same : ∀ key, s.held? key = b.entryAt s.clock key

namespace Mirrors

variable {b : MemoryBus} {s : Server}

theorem empty : Mirrors .empty {} where
  working := ⟨rfl, List.nodup_nil⟩
  keysOnce := List.nodup_nil
  same := fun _ => rfl

/-- The members that both see. -/
theorem members (mirrors : Mirrors b s) (key : String) :
    b.liveMembers s.clock key = ((s.held? key).map (·.members)).getD [] := by
  rw [MemoryBus.liveMembers_eq, mirrors.same]

theorem wait (mirrors : Mirrors b s) {now : Nat} (passed : s.clock ≤ now) :
    Mirrors b (s.moveTo now) where
  working := mirrors.working
  keysOnce := mirrors.keysOnce
  same := fun key => by
    rw [Redis.Server.held?_moveTo passed, mirrors.same, ← MemoryBus.entryAt_later passed]
    rfl

theorem add (mirrors : Mirrors b s) (key member : String) {seconds : Nat} (ahead : 1 ≤ seconds) :
    Mirrors (b.setAdd s.clock key member (.ofSeconds seconds)).1
      ((s.add key member).setDeadline key seconds) where
  working := MemoryBus.setAdd_working mirrors.working ..
  keysOnce := Server.setDeadline_keys (Server.add_keys mirrors.keysOnce) seconds
  same := fun other => by
    have later : 0 < (Duration.ofSeconds seconds).nanos := by
      simp only [Duration.ofSeconds]
      omega
    have added := Redis.Server.held?_add s key member key
    rw [if_pos rfl] at added
    rw [Redis.Server.held?_setDeadline added ahead, Server.setDeadline_clock, Server.add_clock,
      MemoryBus.setAdd_entryAt mirrors.working _ _ _ _ later, ← mirrors.same]
    by_cases same : other = key
    · rw [if_pos same, if_pos same]
      cases s.held? key <;> rfl
    · rw [if_neg same, if_neg same, Redis.Server.held?_add, if_neg same, ← mirrors.same]

theorem remove (mirrors : Mirrors b s) (key member : String) :
    Mirrors (b.setRemove key member).1 (s.remove key member) where
  working := MemoryBus.setRemove_working mirrors.working ..
  keysOnce := Server.remove_keys mirrors.keysOnce
  same := fun other => by
    rw [Redis.Server.held?_remove mirrors.keysOnce, Server.remove_clock,
      MemoryBus.setRemove_entryAt mirrors.working, mirrors.same, mirrors.same]

theorem contains (mirrors : Mirrors b s) (key : String) (texts : List String) :
    Mirrors (b.setContains s.clock key texts).1 s where
  working := MemoryBus.setContains_working mirrors.working ..
  keysOnce := mirrors.keysOnce
  same := fun other => by
    rw [MemoryBus.setContains_entryAt mirrors.working, mirrors.same]

/-- A call has the same answer on both, and both have the same sets after it. -/
theorem call (mirrors : Mirrors b s) {call : SetCall} (whole : call.WholeLease) :
    ∃ b', call.on b s.clock = (b', .ok (call.reply (s.executeAll call.commands))) ∧
      Mirrors b' (s.executeAll call.commands) := by
  cases call with
  | add key member lease =>
    obtain ⟨seconds, ahead, -, rfl⟩ := whole
    have added := MemoryBus.setAdd_eq mirrors.working s.clock key member (.ofSeconds seconds)
    refine ⟨(b.setAdd s.clock key member (.ofSeconds seconds)).1, ?_, ?_⟩
    · simp [SetCall.on, SharedBus.setAdd, added, SetCall.reply, Except.map]
    · have same : (Duration.ofSeconds seconds).seconds = seconds := by
        simp [Duration.ofSeconds, Duration.seconds]
      have told : max (Duration.ofSeconds seconds).seconds 1 = seconds := by
        rw [same, Nat.max_eq_left ahead]
      have next := mirrors.add key member ahead
      simpa [SetCall.commands, Link.setAddCommands, told, Server.executeAll, Server.execute] using
        next
  | remove key member =>
    have removed := MemoryBus.setRemove_ok mirrors.working key member
    refine ⟨(b.setRemove key member).1, ?_, mirrors.remove key member⟩
    simp [SetCall.on, SharedBus.setRemove, removed, SetCall.reply, Except.map, Prod.map]
  | contains key texts =>
    have answered := MemoryBus.setContains_answer mirrors.working s.clock key texts
    have asked : s.executeAll (SetCall.contains key texts).commands = s := by
      cases texts <;> rfl
    refine ⟨(b.setContains s.clock key texts).1, ?_, ?_⟩
    · rw [asked]
      simp [SetCall.on, SharedBus.setContains, answered, SetCall.reply, Except.map, Prod.map,
        Server.membership, mirrors.members]
    · rw [asked]
      exact mirrors.contains key texts

end Mirrors

/-! ## Runs -/

/-- The server's clock goes on. -/
def Redis.Link.waitUntil (l : Link) (now : Nat) : Link := { l with server := l.server.moveTo now }

namespace SetCall

variable {calls : List (Nat × SetCall)}

/-- On the way to a server that answers, a call is its commands. -/
private theorem on_link {l : Link} (answered : l.exchange = .answered) (now : Nat)
    (call : SetCall) :
    call.on l now =
      ({ l with server := l.server.executeAll call.commands },
        .ok (call.reply (l.server.executeAll call.commands))) := by
  cases call with
  | add key member lease =>
    simp [on, SharedBus.setAdd, Link.setAdd, Link.send, answered, commands, reply, Except.map]
  | remove key member =>
    simp [on, SharedBus.setRemove, Link.setRemove, Link.send, answered, commands, reply, Except.map]
  | contains key texts =>
    cases texts with
    | nil =>
      simp [on, SharedBus.setContains, Link.setContains, commands, Link.setContainsCommands, reply,
        Except.map, Server.executeAll, Server.membership]
    | cons text more =>
      simp [on, SharedBus.setContains, Link.setContains, Link.send, answered, commands, reply,
        Except.map]

/-- A server takes every lease, so its link brings every call back. -/
private theorem comesBack_link (l : Link) (now : Nat) (call : SetCall) :
    call.comesBack l now = true := by
  cases call <;> rfl

/-- A bus in memory brings a call back exactly when it has no lease whose end it cannot keep. -/
private theorem comesBack_memory_iff {b : MemoryBus} (working : b.Working) {now : Nat}
    {call : SetCall} :
    call.comesBack b now = true ↔ call.EndsOnClock now := by
  cases call with
  | add key member lease =>
    simp [comesBack, SharedBus.grants, MemoryBus.grants, working.available, EndsOnClock]
  | remove key member => simp [comesBack, EndsOnClock]
  | contains key texts => simp [comesBack, EndsOnClock]

private theorem answers_link {l : Link} (answered : l.exchange = .answered) :
    answers Link.waitUntil l calls = (replies l.server calls).map (some <| .ok ·) := by
  induction calls generalizing l with
  | nil => rfl
  | cons c rest ih =>
    obtain ⟨now, call⟩ := c
    have reached : (l.waitUntil now).exchange = .answered := answered
    rw [answers, if_pos (comesBack_link ..), on_link reached, replies]
    exact congrArg (some (Except.ok _) :: ·) (ih reached)

/-- A bus in memory keeps up with a server whose sets it has. -/
private theorem answers_memory {b : MemoryBus} {s : Server} (mirrors : Mirrors b s)
    (since : ∀ c ∈ calls, s.clock ≤ c.1) (ordered : calls.Pairwise fun c d => c.1 ≤ d.1)
    (whole : ∀ c ∈ calls, c.2.WholeLease) (ends : ∀ c ∈ calls, c.2.EndsOnClock c.1) :
    answers (fun b _ => b) b calls = (replies s calls).map (some <| .ok ·) := by
  induction calls generalizing b s with
  | nil => rfl
  | cons c rest ih =>
    obtain ⟨now, call⟩ := c
    obtain ⟨first, restOrdered⟩ := List.pairwise_cons.mp ordered
    have waited := mirrors.wait (since _ List.mem_cons_self)
    obtain ⟨b', answered, next⟩ := waited.call (whole _ List.mem_cons_self)
    have answered : call.on b now = (b', _) := answered
    have back := (comesBack_memory_iff mirrors.working).mpr (ends _ List.mem_cons_self)
    rw [answers, if_pos back, answered, replies]
    refine congrArg (some (Except.ok _) :: ·) (ih next ?_ restOrdered ?_ ?_)
    · rw [Redis.Server.executeAll_clock]
      exact first
    · exact fun d member => whole d (List.mem_cons_of_mem _ member)
    · exact fun d member => ends d (List.mem_cons_of_mem _ member)

/-- A lease that is cut short, a member that is taken out of a set that has expired, and one that is
added to it after that. -/
def cutShort : List (Nat × SetCall) :=
  [(0, .add "k" "a" (.ofSeconds 9)), (1000000000, .add "k" "b" (.ofSeconds 1)),
    (1999999999, .contains "k" ["a", "b", "c"]), (2000000000, .remove "k" "a"),
    (2000000000, .contains "k" ["b"]), (2000000000, .add "k" "c" (.ofSeconds 1)),
    (2000000000, .contains "k" ["a", "b", "c"]), (2000000000, .remove "k" "c"),
    (2000000000, .contains "k" ["c"]), (2000000000, .contains "k" [])]

end SetCall

end RoomRelay
