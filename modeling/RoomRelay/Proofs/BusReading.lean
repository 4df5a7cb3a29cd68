import RoomRelay.Bus.Memory
import RoomRelay.Hub.Relay
import RoomRelay.Proofs.UuidText

/-!
How a subscription reads a bus in memory: as long as it is not too far behind, the next message it
gets is the oldest one it has not passed and asks for, and it passes over nothing that it asks for.
Of what hubs read only the messages of rooms are followed here, as bulletins: a room and a text.
-/

namespace RoomRelay

namespace MemoryBus

/-- The messages of a bus, oldest first. -/
def history (b : MemoryBus) : List BusMessage := b.log.reverse

/-- A subscription that is so far behind that it loses messages. -/
def Lags (b : MemoryBus) (s : Subscription) : Prop := s.position + retained < b.count

variable {b : MemoryBus} {s : Subscription}

@[simp] theorem history_append (b : MemoryBus) (m : BusMessage) :
    (b.append m).history = b.history ++ [m] := by
  simp [history, append]

@[simp] theorem history_length (b : MemoryBus) : b.history.length = b.count := by
  simp [history, b.count_eq]

/-- What is done to a set publishes nothing. -/
theorem setRemove_log (b : MemoryBus) (key member : String) :
    (b.setRemove key member).1.log = b.log := by
  unfold setRemove
  split
  · split <;> rfl
  · rfl

theorem setAdd_log (b : MemoryBus) (now : Nat) (key member : String) (lease : Duration) :
    (b.setAdd now key member lease).1.log = b.log := by
  unfold setAdd
  split <;> rfl

theorem since_eq (b : MemoryBus) (position : Nat) : b.since position = b.history.drop position := by
  simp [since, history, b.count_eq, List.drop_reverse]

/-- A subscription that keeps up reads on at its place. -/
private theorem resume_eq (keepsUp : ¬b.Lags s) : b.resume s = s.position := by
  have behind : b.count ≤ s.position + retained := Nat.le_of_not_lt keepsUp
  simp only [resume]
  omega

theorem pending_eq (keepsUp : ¬b.Lags s) :
    b.pending s = (b.history.drop s.position).filter fun m => s.filter.accepts m.channel := by
  rw [pending, since_eq, resume_eq keepsUp]

/-- The next message is the first that is asked for from where reading goes on; when there is none,
all that is there is passed. -/
theorem next_from (b : MemoryBus) (s : Subscription) :
    (∃ passed m rest, b.history.drop (b.resume s) = passed ++ m :: rest ∧
      s.filter.accepts m.channel = true ∧
      (∀ n ∈ passed, s.filter.accepts n.channel = false) ∧
      b.next s = (some m, { s with position := b.resume s + passed.length + 1 })) ∨
    ((∀ n ∈ b.history.drop (b.resume s), s.filter.accepts n.channel = false) ∧
      b.next s = (none, { s with position := b.count })) := by
  simp only [next, since_eq]
  generalize b.resume s = place
  cases found : (b.history.drop place).findIdx? fun m => s.filter.accepts m.channel with
  | none =>
    refine .inr ⟨?_, rfl⟩
    intro n member
    simpa using List.findIdx?_eq_none_iff.mp found n member
  | some k =>
    obtain ⟨inside, accepted, before⟩ := List.findIdx?_eq_some_iff_getElem.mp found
    refine .inl ⟨(b.history.drop place).take k, (b.history.drop place)[k],
      (b.history.drop place).drop (k + 1), ?_, accepted, ?_, ?_⟩
    · rw [← List.drop_eq_getElem_cons inside, List.take_append_drop]
    · intro n member
      obtain ⟨j, short, rfl⟩ := List.mem_take_iff_getElem.mp member
      have skipped := before j (by omega)
      simpa using skipped
    · have length : ((b.history.drop place).take k).length = k := by
        rw [List.length_take]
        omega
      simp only [length, List.getElem?_eq_getElem inside]

/-- The next message, by its number: the first from where reading goes on that is asked for. -/
theorem next_numbered (b : MemoryBus) (s : Subscription) :
    (∃ i m, b.resume s ≤ i ∧ b.history[i]? = some m ∧ s.filter.accepts m.channel = true ∧
      (∀ j n, b.resume s ≤ j → j < i → b.history[j]? = some n → s.filter.accepts n.channel = false) ∧
      b.next s = (some m, { s with position := i + 1 })) ∨
    ((∀ j n, b.resume s ≤ j → b.history[j]? = some n → s.filter.accepts n.channel = false) ∧
      b.next s = (none, { s with position := b.history.length })) := by
  have behind : ∀ j, b.resume s ≤ j →
      b.history[j]? = (b.history.drop (b.resume s))[j - b.resume s]? := by
    intro j after
    rw [List.getElem?_drop, Nat.add_sub_cancel' after]
  rcases b.next_from s with ⟨passed, m, rest, split, accepted, skipped, given⟩ | ⟨skipped, nothing⟩
  · refine .inl ⟨b.resume s + passed.length, m, Nat.le_add_right .., ?_, accepted, ?_, given⟩
    · rw [behind _ (Nat.le_add_right ..), split, Nat.add_sub_cancel_left]
      simp
    · intro j n after before stands
      have short : j - b.resume s < passed.length := by omega
      rw [behind j after, split, List.getElem?_append_left short] at stands
      exact skipped n (List.mem_of_getElem? stands)
  · refine .inr ⟨?_, by rw [nothing, b.history_length]⟩
    intro j n after stands
    rw [behind j after] at stands
    exact skipped n (List.mem_of_getElem? stands)

/-- A subscription that keeps up goes on behind its place. -/
theorem next_cases (keepsUp : ¬b.Lags s) :
    (∃ passed m rest, b.history.drop s.position = passed ++ m :: rest ∧
      (∀ n ∈ passed, s.filter.accepts n.channel = false) ∧
      b.next s = (some m, { s with position := s.position + passed.length + 1 })) ∨
    ((∀ n ∈ b.history.drop s.position, s.filter.accepts n.channel = false) ∧
      b.next s = (none, { s with position := b.count })) := by
  have reads := b.next_from s
  rw [resume_eq keepsUp] at reads
  rcases reads with ⟨passed, m, rest, split, -, skipped, given⟩ | nothing
  · exact .inl ⟨passed, m, rest, split, skipped, given⟩
  · exact .inr nothing

end MemoryBus

/-! ## Bulletins -/

/-- The room and the text of a message, if it is a room's. -/
def BusMessage.bulletin? (m : BusMessage) : Option (Uuid × String) :=
  match Channel.topic m.channel with
  | .room id => some (id, m.payload)
  | .userEvents | .presence | .other => none

private theorem bulletin_eq (m : BusMessage) :
    m.bulletin? = (Channel.roomOf? m.channel).map fun id => (id, m.payload) := by
  unfold BusMessage.bulletin? Channel.topic
  cases Channel.roomOf? m.channel with
  | some id => rfl
  | none =>
    dsimp only
    by_cases user : m.channel = Channel.userEvents
    · rw [if_pos user]
      rfl
    · by_cases presence : m.channel = Channel.presence
      · rw [if_neg user, if_pos presence]
        rfl
      · rw [if_neg user, if_neg presence]
        rfl

theorem bulletin_roomMessage (room : Uuid) (payload : String) :
    (Site.roomMessage room payload).bulletin? = some (room, payload) := by
  simp [bulletin_eq, Site.roomMessage, Channel.roomOf_room]

theorem bulletin_notice (p : Presence) (user : Uuid) (online : Bool) :
    (p.notice user online).bulletin? = none := by
  have notRoom : Channel.roomOf? Channel.presence = none := by decide
  simp [bulletin_eq, Presence.notice, notRoom]

/-- Relays ask for every message of a room. -/
theorem bulletin_of_refused {m : BusMessage} (refused : relayFilter.accepts m.channel = false) :
    m.bulletin? = none := by
  have lead : Text.stripSuffix? "*" Channel.roomPattern = some Channel.roomLead := by decide
  have noMatch : Filter.patternMatches Channel.roomPattern m.channel = false := by
    simp only [Filter.accepts, relayFilter, Bool.or_eq_false_iff, List.any_cons, List.any_nil,
      Bool.or_false] at refused
    exact refused.2
  simp only [Filter.patternMatches, lead, Option.isSome_eq_false_iff, Option.isNone_iff_eq_none]
    at noMatch
  simp [bulletin_eq, Channel.roomOf?, noMatch]

/-- So what a relay gets of the messages behind its place are all the bulletins there. -/
theorem bulletins_filter (messages : List BusMessage) :
    (messages.filter fun m => relayFilter.accepts m.channel).filterMap BusMessage.bulletin? =
      messages.filterMap BusMessage.bulletin? := by
  induction messages with
  | nil => rfl
  | cons m rest ih =>
    by_cases accepted : relayFilter.accepts m.channel = true
    · simp [accepted, List.filterMap_cons, ih]
    · have none := bulletin_of_refused (Bool.eq_false_iff.mpr accepted)
      simp [accepted, none, ih]

end RoomRelay
