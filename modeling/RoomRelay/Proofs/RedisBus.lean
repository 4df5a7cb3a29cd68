import RoomRelay.Proofs.AvailableBus
import RoomRelay.Redis.Link

/-!
A Redis server as the bus of hubs: as long as its replies come in time it does what the bus is
asked. The set of users online is what stands under its key and is not past its deadline by the
server's clock.
-/

namespace RoomRelay.Redis

namespace Server

variable {s : Server} {key member : String} {user other : Uuid}

/-- What was published, oldest first. -/
def history (s : Server) : List BusMessage := s.relayed.reverse

/-- A user stands in the set of users online. -/
def Shows (s : Server) (user : Uuid) : Prop :=
  ∃ e, s.held? Channel.onlineSet = some e ∧ user.text ∈ e.members

theorem isLive_of_lt {e : Entry} {now deadline : Nat} (ahead : now < deadline) :
    Entry.isLive now { e with deadline := some deadline } = true := by
  simpa [Entry.isLive] using ahead

/-- An entry that is live is found again once it was put under its key. -/
private theorem entry_set {e : Entry} (live : e.isLive s.clock = true) :
    Server.held? { s with entries := s.entries.set key e } key = some e := by
  simp [held?, Table.get?_set, live]

/-- The entry that a member is added to: a new one has no deadline. -/
private theorem add_entry (s : Server) (key member : String) :
    ∃ e, Server.held? (s.add key member) key = some e ∧ ∀ text ∈ e.members,
      text = member ∨ ∃ old, s.held? key = some old ∧ text ∈ old.members := by
  let e := (s.held? key).getD { members := [] }
  let members := if e.members.contains member then e.members else e.members ++ [member]
  have live : Entry.isLive s.clock { e with members } = true := by
    have before : e.isLive s.clock = true := by
      cases found : s.held? key with
      | none => simp [e, found, Entry.isLive]
      | some old =>
        obtain ⟨-, alive⟩ := Option.filter_eq_some_iff.mp found
        simpa [e, found] using alive
    exact before
  have old {text : String} (inside : text ∈ e.members) :
      ∃ old, s.held? key = some old ∧ text ∈ old.members := by
    cases found : s.held? key with
    | none => simp [e, found] at inside
    | some before => exact ⟨before, rfl, by simpa [e, found] using inside⟩
  refine ⟨{ e with members }, entry_set live, ?_⟩
  intro text inside
  simp only [members] at inside
  split at inside
  · exact .inr (old inside)
  · rcases List.mem_append.mp inside with before | added
    · exact .inr (old before)
    · exact .inl (List.mem_singleton.mp added)

/-- A deadline that lies ahead takes no member away and adds none. -/
private theorem setDeadline_entry {e : Entry} (found : s.held? key = some e) {seconds : Nat}
    (ahead : 0 < seconds) :
    ∃ e', Server.held? (s.setDeadline key seconds) key = some e' ∧ e'.members = e.members := by
  have later : s.clock < s.clock + (Duration.ofSeconds seconds).nanos :=
    Nat.lt_add_of_pos_right (by simp [Duration.ofSeconds, ahead])
  refine ⟨{ e with deadline := some (s.clock + (Duration.ofSeconds seconds).nanos) }, ?_, rfl⟩
  simp only [setDeadline, found]
  exact entry_set (isLive_of_lt later)

private theorem shows_of_remove (once : s.entries.keys.Nodup)
    (shows : (s.remove Channel.onlineSet user.text).Shows other) :
    other ≠ user ∧ s.Shows other := by
  obtain ⟨e, found, inside⟩ := shows
  cases before : s.held? Channel.onlineSet with
  | none =>
    simp only [remove, before] at found
    cases found
  | some old =>
    simp only [remove, before] at found
    have live : Entry.isLive s.clock { old with members := old.members.filter (· ≠ user.text) } =
        true := by
      obtain ⟨-, alive⟩ := Option.filter_eq_some_iff.mp before
      exact alive
    split at found
    · simp [held?, Table.get?_erase once] at found
    · rw [entry_set live] at found
      cases found
      obtain ⟨inside, different⟩ := List.mem_filter.mp inside
      exact ⟨fun same => by simp [same] at different, old, before, inside⟩

theorem add_keys (once : s.entries.keys.Nodup) : (s.add key member).entries.keys.Nodup :=
  Table.keys_set_nodup once

theorem setDeadline_keys (once : s.entries.keys.Nodup) (seconds : Nat) :
    (s.setDeadline key seconds).entries.keys.Nodup := by
  unfold setDeadline
  split
  · exact Table.keys_set_nodup once
  · exact once

theorem remove_keys (once : s.entries.keys.Nodup) : (s.remove key member).entries.keys.Nodup := by
  unfold remove
  split
  · dsimp only
    split
    · exact Table.keys_erase_nodup once
    · exact Table.keys_set_nodup once
  · exact once

@[simp] theorem add_relayed (s : Server) (key member : String) :
    (s.add key member).relayed = s.relayed := rfl

@[simp] theorem setDeadline_relayed (s : Server) (key : String) (seconds : Nat) :
    (s.setDeadline key seconds).relayed = s.relayed := by
  unfold setDeadline
  split <;> rfl

@[simp] theorem remove_relayed (s : Server) (key member : String) :
    (s.remove key member).relayed = s.relayed := by
  unfold remove
  split <;> rfl

end Server

namespace Link

variable {l : Link}

/-- Replies come in time, and no key stands twice. -/
structure Answering (l : Link) : Prop where
  answered : l.exchange = .answered
  keysOnce : l.server.entries.keys.Nodup

private theorem send_answered {α : Type} (answering : l.Answering) (operation : String)
    (cs : List Command) (answer : Server → α) :
    l.send operation cs answer =
      ({ l with server := l.server.executeAll cs }, .ok (answer (l.server.executeAll cs))) := by
  simp [send, answering.answered]

instance : BusView Link where
  Up := Answering
  history := fun l => l.server.history
  Shows := fun l => l.server.Shows

private theorem setAdd_becomes (answering : l.Answering) (user : Uuid) (lease : Duration) :
    ∃ l', l.setAdd Channel.onlineSet user.text lease = (l', .ok ()) ∧
      BusView.Becomes l l' [] fun other => other = user ∨ BusView.Shows l other := by
  let added := l.server.add Channel.onlineSet user.text
  let seconds := max lease.seconds 1
  refine ⟨{ l with server := added.setDeadline Channel.onlineSet seconds }, ?_, ?_, ?_, ?_⟩
  · rw [setAdd, send_answered answering]
    rfl
  · exact ⟨answering.answered, Server.setDeadline_keys (Server.add_keys answering.keysOnce) seconds⟩
  · simp [BusView.history, Server.history, added]
  · rintro other ⟨e, found, inside⟩
    obtain ⟨entry, present, members⟩ := l.server.add_entry Channel.onlineSet user.text
    have ahead : 0 < seconds := Nat.lt_of_lt_of_le Nat.zero_lt_one (Nat.le_max_right ..)
    obtain ⟨renewed, foundRenewed, same⟩ := Server.setDeadline_entry present ahead
    rw [foundRenewed] at found
    cases found
    rcases members other.text (same ▸ inside) with itself | ⟨old, before, member⟩
    · exact .inl (Uuid.text_injective itself)
    · exact .inr ⟨old, before, member⟩

instance : ReliableBus Link where
  publish {l} answering m := by
    refine ⟨{ l with server := { l.server with relayed := m :: l.server.relayed } }, ?_, ?_, ?_, ?_⟩
    · exact send_answered answering "PUBLISH" [.publish m.channel m.payload] fun _ => ()
    · exact ⟨answering.answered, answering.keysOnce⟩
    · simp [BusView.history, Server.history]
    · intro user shows
      exact shows
  setAdd answering _ user lease := setAdd_becomes answering user lease
  setRemove {l} answering user := by
    refine ⟨{ l with server := l.server.remove Channel.onlineSet user.text }, ?_, ?_, ?_, ?_⟩
    · exact send_answered answering "SREM" [.srem Channel.onlineSet user.text] fun _ => ()
    · exact ⟨answering.answered, Server.remove_keys answering.keysOnce⟩
    · simp [BusView.history, Server.history]
    · intro other shows
      exact Server.shows_of_remove answering.keysOnce shows
  setContains {l} answering now user := by
    let members := ((l.server.held? Channel.onlineSet).map (·.members)).getD []
    refine ⟨l, members.contains user.text, ?_, ?_⟩
    · exact send_answered answering "SMISMEMBER" [.smismember Channel.onlineSet [user.text]] fun s =>
        s.membership Channel.onlineSet [user.text]
    · intro present
      have inside : user.text ∈ members := List.contains_iff_mem.mp present
      cases found : l.server.held? Channel.onlineSet with
      | none => simp [members, found] at inside
      | some e => exact ⟨e, found, by simpa [members, found] using inside⟩

end Link

end RoomRelay.Redis
