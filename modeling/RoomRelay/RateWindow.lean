/-!
Sliding-window rate limits. A limiter allows each key at most `limit` calls within any window,
and keeps for each key the instants of the calls it allowed, oldest first. A key's stale instants
go when the key is looked at; once per window all keys are swept, so that idle keys are
forgotten. Instants are counted in nanoseconds and may go backwards, in which case no time has
passed.
-/

namespace RoomRelay

/-- A limiter with the calls it remembers: `WindowLimiter`. -/
structure RateWindow where
  limit : Nat
  /-- The length of the window. -/
  window : Nat
  /-- For each key the instants of its allowed calls that are remembered, oldest first. -/
  stamps : List (String × List Nat) := []
  /-- When all keys were last swept. -/
  lastSweep : Nat := 0

namespace RateWindow

/-- A limiter made at an instant. -/
def start (limit window now : Nat) : RateWindow :=
  { limit, window, lastSweep := now }

/-- Instants without the leading ones that lie a window or more in the past: `compact`. -/
def fresh (window now : Nat) (stamps : List Nat) : List Nat :=
  stamps.dropWhile fun s => window ≤ now - s

/-- All keys without their stale instants, and without the keys that have no other. -/
def sweep (r : RateWindow) (now : Nat) : RateWindow :=
  { r with
    stamps := (r.stamps.map fun k => (k.1, fresh r.window now k.2)).filter (¬·.2.isEmpty),
    lastSweep := now }

/-- The sweep that `allow_at` begins with once a window has passed since the last. -/
def sweepIfDue (r : RateWindow) (now : Nat) : RateWindow :=
  if r.window ≤ now - r.lastSweep then r.sweep now else r

/-- Sets the instants of a key, in the key's place or at the end. -/
def setStamps (key : String) (stamps : List Nat) :
    List (String × List Nat) → List (String × List Nat)
  | [] => [(key, stamps)]
  | (k, s) :: rest =>
    if k = key then (key, stamps) :: rest else (k, s) :: setStamps key stamps rest

/-- A call for `key` at `now`: whether it is allowed, and the limiter after it. This is `allow_at`;
a call that is not allowed is not remembered. -/
def allow (r : RateWindow) (key : String) (now : Nat) : RateWindow × Bool :=
  let r := r.sweepIfDue now
  match r.stamps.lookup key with
  | some kept =>
    let kept := fresh r.window now kept
    if r.limit ≤ kept.length then ({ r with stamps := setStamps key kept r.stamps }, false)
    else ({ r with stamps := setStamps key (kept ++ [now]) r.stamps }, true)
  | none =>
    if r.limit = 0 then (r, false)
    else ({ r with stamps := setStamps key [now] r.stamps }, true)

/-- The number of keys that are remembered: `tracked_keys`. -/
def trackedKeys (r : RateWindow) : Nat :=
  r.stamps.length

end RateWindow

end RoomRelay
