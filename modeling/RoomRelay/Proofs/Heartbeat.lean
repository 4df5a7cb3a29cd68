import RoomRelay.Config
import RoomRelay.WebSocket.Session

/-!
The time between two pings of an accepted configuration. Multiplying a length by nine and taking the
tenth part is exact to the nanosecond, although both work on seconds and nanoseconds apart, and of a
wait of two seconds or more it leaves a period that is neither nothing nor the whole wait. But the
product comes before the tenth part, and nothing bounds the wait from above: where nine times the
wait is beyond 64 bits of seconds there is no period at all.
-/

namespace RoomRelay

namespace Duration

theorem parts (d : Duration) : d.seconds * 1000000000 + d.subsecond = d.nanos := by
  unfold seconds subsecond
  omega

/-- With what is carried, the seconds and nanoseconds of a multiple are those of the product. -/
private theorem times?_eq (d : Duration) (n : Nat) :
    d.times? n =
      if d.nanos * n / 1000000000 < Word.span 64 then some ⟨d.nanos * n⟩ else none := by
  have product : d.nanos * n = d.seconds * n * 1000000000 + d.subsecond * n := by
    rw [← d.parts, Nat.add_mul, Nat.mul_right_comm]
  have seconds : d.seconds * n + d.subsecond * n / 1000000000 = d.nanos * n / 1000000000 := by
    omega
  have whole : d.nanos * n / 1000000000 * 1000000000 + d.subsecond * n % 1000000000 =
      d.nanos * n := by
    omega
  simp only [times?, ofParts, seconds, whole]

/-- Nothing is lost by dividing the seconds first. -/
private theorem part_eq (d : Duration) {n : Nat} (positive : 0 < n) : d.part n = ⟨d.nanos / n⟩ := by
  have seconds := Nat.div_add_mod d.seconds n
  have subsecond := Nat.div_add_mod d.subsecond n
  have split : d.nanos = n * (d.seconds / n * 1000000000 + d.subsecond / n) +
      (d.seconds % n * 1000000000 + d.subsecond % n) := by
    rw [Nat.mul_add, ← Nat.mul_assoc]
    have := d.parts
    omega
  have quotient : d.nanos / n = d.seconds / n * 1000000000 + d.subsecond / n +
      (d.seconds % n * 1000000000 + d.subsecond % n) / n := by
    rw [split, Nat.mul_add_div positive]
  simp only [part, ofParts, quotient, Nat.add_assoc]

end Duration

namespace Settings

variable {c : Settings}

/-- What a hub needs to run: a secret that is not blank, room in its queues, and times and limits
that are not nothing. -/
structure Runnable (c : Settings) : Prop where
  secret : (Text.trim c.jwtSecret.toList).isEmpty = false
  queue : c.outboundQueueCapacity ≠ 0
  presence : c.presenceTtlSecs ≠ 0
  silence : 2 ≤ c.pongWaitSecs
  writing : c.writeWaitSecs ≠ 0
  windows : c.messageRateWindowSecs ≠ 0 ∧ c.notificationSyncWindowSecs ≠ 0 ∧
    c.notificationReadWindowSecs ≠ 0
  limits : c.messageRateLimit ≠ 0 ∧ c.notificationSyncLimit ≠ 0 ∧ c.notificationReadLimit ≠ 0

/-- A configuration is accepted exactly when a hub can run under it. -/
private theorem validate_ok_iff : c.validate = .ok () ↔ c.Runnable := by
  unfold validate
  constructor
  · intro accepted
    split at accepted
    · cases accepted
    rename_i secret
    split at accepted
    · cases accepted
    rename_i queue
    split at accepted
    · cases accepted
    rename_i presence
    split at accepted
    · cases accepted
    rename_i timing
    split at accepted
    · cases accepted
    rename_i rates
    exact ⟨Bool.eq_false_iff.mpr secret, queue, presence, by omega, by omega, by omega, by omega⟩
  · intro runs
    obtain ⟨secret, queue, presence, silence, writing, windows, limits⟩ := runs
    have timing : ¬(c.pongWaitSecs < 2 ∨ c.writeWaitSecs = 0) := by omega
    have rates : ¬(c.messageRateWindowSecs = 0 ∨ c.notificationSyncWindowSecs = 0 ∨
        c.notificationReadWindowSecs = 0 ∨ c.messageRateLimit = 0 ∨
        c.notificationSyncLimit = 0 ∨ c.notificationReadLimit = 0) := by
      omega
    simp only [secret, queue, presence, timing, rates, Bool.false_eq_true, if_false]

/-- There is a period as long as 64 bits hold nine times the seconds of the wait. -/
private theorem pingPeriod_eq (c : Settings) :
    c.pingPeriod? =
      if 9 * c.pongWaitSecs < Word.span 64 then some ⟨9 * c.pongWaitSecs * 100000000⟩
      else none := by
  have wait : c.pongWait.nanos = c.pongWaitSecs * 1000000000 := rfl
  have seconds : c.pongWait.nanos * 9 / 1000000000 = 9 * c.pongWaitSecs := by omega
  have tenth : c.pongWait.nanos * 9 / 10 = 9 * c.pongWaitSecs * 100000000 := by omega
  rw [pingPeriod?, Duration.times?_eq, seconds]
  split
  · rw [Option.map_some, Duration.part_eq _ (by decide), tenth]
  · rfl

/-- A time between two pings by which a client that answers never counts as silent: nine tenths, to
the nanosecond, of the time it may stay silent. -/
structure Heartbeat (c : Settings) (period : Duration) : Prop where
  nineTenths : 10 * period.nanos = 9 * c.pongWait.nanos
  positive : 0 < period.nanos
  sooner : period < c.pongWait

/-- The period of an accepted configuration is a heartbeat. -/
private theorem heartbeat_of_pingPeriod (accepted : c.validate = .ok ()) {period : Duration}
    (pings : c.pingPeriod? = some period) : c.Heartbeat period := by
  have silence := (validate_ok_iff.mp accepted).silence
  rw [pingPeriod_eq] at pings
  split at pings
  · cases pings
    constructor
    · show 10 * (9 * c.pongWaitSecs * 100000000) = 9 * (c.pongWaitSecs * 1000000000)
      omega
    · show 0 < 9 * c.pongWaitSecs * 100000000
      omega
    · show 9 * c.pongWaitSecs * 100000000 < c.pongWaitSecs * 1000000000
      omega
  · cases pings

/-- An accepted configuration has a heartbeat exactly when 64 bits hold nine times the seconds for
which a client may stay silent. Otherwise it has no time between two pings at all. -/
theorem heartbeat_iff_wait_fits (accepted : c.validate = .ok ()) :
    ((∃ period, c.pingPeriod? = some period ∧ c.Heartbeat period) ↔
      9 * c.pongWaitSecs < Word.span 64) ∧
    (c.pingPeriod? = none ↔ Word.span 64 ≤ 9 * c.pongWaitSecs) := by
  have period := pingPeriod_eq c
  by_cases fits : 9 * c.pongWaitSecs < Word.span 64
  · rw [if_pos fits] at period
    have heartbeat := heartbeat_of_pingPeriod accepted period
    constructor
    · exact iff_of_true ⟨_, period, heartbeat⟩ fits
    · rw [period]
      exact iff_of_false (Option.some_ne_none _) (Nat.not_le.mpr fits)
  · rw [if_neg fits] at period
    rw [period]
    constructor
    · exact iff_of_false (fun ⟨_, pings, _⟩ => nomatch pings) fits
    · exact iff_of_true rfl (Nat.not_lt.mp fits)

/-- A configuration for tests, but with so many seconds of silence allowed. -/
def patient (secs : Nat) : Settings := { trial ⟨1⟩ with pongWaitSecs := secs }

/-- The longest wait with a heartbeat, and the next one, which has none. -/
theorem patient_heartbeat :
    (patient 2049638230412172401).validate = .ok () ∧
      (patient 2049638230412172402).validate = .ok () ∧
      (∃ period, (patient 2049638230412172401).pingPeriod? = some period ∧
        (patient 2049638230412172401).Heartbeat period) ∧
      (patient 2049638230412172402).pingPeriod? = none := by
  have accepted : (patient 2049638230412172401).validate = .ok () := by rfl
  have acceptedNext : (patient 2049638230412172402).validate = .ok () := by rfl
  refine ⟨accepted, acceptedNext, ?_, ?_⟩
  · exact (heartbeat_iff_wait_fits accepted).1.mpr (by decide)
  · exact (heartbeat_iff_wait_fits acceptedNext).2.mpr (by decide)

/-- A wait of 64 bits that is accepted and has no time between two pings. -/
theorem accepted_without_period :
    (patient 2049638230412172402).validate = .ok () ∧
      (patient 2049638230412172402).pongWaitSecs < Word.span 64 ∧
      (patient 2049638230412172402).pingPeriod? = none := by
  refine ⟨by rfl, by decide, by rfl⟩

end Settings

/-- Under an accepted configuration a session sends its first ping after it has begun and before its
client counts as silent. -/
theorem WebSocket.Session.begin_pings_in_time {σ : Type} {c : Settings} {s : WebSocket.Session σ}
    (accepted : c.validate = .ok ()) (waits : s.pace.pongWait = c.pongWait)
    (pings : c.pingPeriod? = some s.pace.pingPeriod) (now : Nat) :
    ∃ ping deadline, (s.begin now).writer = .waiting ping ∧
      (s.begin now).reader = .reading deadline ∧ now < ping ∧ ping < deadline := by
  obtain ⟨-, positive, sooner⟩ := Settings.heartbeat_of_pingPeriod accepted pings
  refine ⟨now + s.pace.pingPeriod.nanos, now + s.pace.pongWait.nanos, ?_, rfl, ?_, ?_⟩
  · simp only [begin, Nat.ne_of_gt positive, if_false]
  · omega
  · rw [waits]
    exact Nat.add_lt_add_left sooner now

end RoomRelay
