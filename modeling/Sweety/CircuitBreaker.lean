import Mathlib.Tactic.Common

namespace Sweety

/-!
# The circuit breaker of an upstream node

Model of `handler/reverse_proxy/circuit_breaker.rs`.  The four atomics and the
three configured numbers are one record; every method is a function of the
record and of the second `now` that `now_secs()` reads during the call.  A call
is one event: it reads the clock once and takes effect at that second.

The failure counter is a `u32` in the source.  It is a `Nat` here, and
`FailuresBounded` below shows that no run ever brings it near `2 ^ 32`.
-/

/--
The three values the state byte takes: `CB_CLOSED`, `CB_OPEN`, `CB_HALF_OPEN`.
-/
inductive CbState where
  | closed
  | opened
  | halfOpen
  deriving Repr, DecidableEq

/-- `struct CircuitBreaker`. -/
structure CircuitBreaker where
  state : CbState
  failureCount : Nat
  windowStart : Nat
  openSince : Nat
  maxFailures : Nat
  windowSecs : Nat
  failTimeout : Nat
  deriving Repr, DecidableEq

namespace CircuitBreaker

/-- `CircuitBreaker::new`: closed, with a counting window that starts now. -/
def new
    (now maxFailures windowSecs failTimeout : Nat) :
    CircuitBreaker where
  state := .closed
  failureCount := 0
  windowStart := now
  openSince := 0
  maxFailures := maxFailures
  windowSecs := windowSecs
  failTimeout := failTimeout

/-- The test of `allow` in the open state: `fail_timeout` has passed. -/
def timedOut
    (now : Nat)
    (breaker : CircuitBreaker) :
    Bool :=
  decide (breaker.failTimeout ≤ now - breaker.openSince)

/--
`allow`: whether the request may pass.  In the open state the call that finds
`fail_timeout` elapsed also moves the breaker to half-open.
-/
def allow
    (now : Nat)
    (breaker : CircuitBreaker) :
    Bool × CircuitBreaker :=
  match breaker.state with
  | .closed =>
      (true, breaker)
  | .opened =>
      if breaker.timedOut now then
        (true, { breaker with state := .halfOpen })
      else
        (false, breaker)
  | .halfOpen =>
      (false, breaker)

/-- The test of `maybe_reset_window`: the counting window is over. -/
def windowExpired
    (now : Nat)
    (breaker : CircuitBreaker) :
    Bool :=
  decide (breaker.windowSecs ≤ now - breaker.windowStart)

/-- `maybe_reset_window`. -/
def maybeResetWindow
    (now : Nat)
    (breaker : CircuitBreaker) :
    CircuitBreaker :=
  if breaker.windowExpired now then
    { breaker with failureCount := 0, windowStart := now }
  else
    breaker

/-- `record_success`. -/
def recordSuccess
    (now : Nat)
    (breaker : CircuitBreaker) :
    CircuitBreaker :=
  match breaker.state with
  | .halfOpen =>
      { breaker with
        failureCount := 0
        windowStart := now
        state := .closed }
  | .closed =>
      breaker.maybeResetWindow now
  | .opened =>
      breaker

/-- The closed branch of `record_failure` after the window check. -/
def countFailure
    (now : Nat)
    (breaker : CircuitBreaker) :
    CircuitBreaker :=
  if breaker.maxFailures ≤ breaker.failureCount + 1 then
    { breaker with
      failureCount := breaker.failureCount + 1
      openSince := now
      state := .opened }
  else
    { breaker with failureCount := breaker.failureCount + 1 }

/-- `record_failure`. -/
def recordFailure
    (now : Nat)
    (breaker : CircuitBreaker) :
    CircuitBreaker :=
  match breaker.state with
  | .halfOpen =>
      { breaker with openSince := now, state := .opened }
  | .closed =>
      (breaker.maybeResetWindow now).countFailure now
  | .opened =>
      breaker

/-- `is_open`. -/
def isOpen (breaker : CircuitBreaker) : Bool :=
  breaker.state == .opened

/-- The outcome a finished request reports to the breaker. -/
inductive Outcome where
  | success
  | failure
  deriving Repr, DecidableEq

/-- `record_success` or `record_failure`, by outcome. -/
def record
    (outcome : Outcome)
    (now : Nat)
    (breaker : CircuitBreaker) :
    CircuitBreaker :=
  match outcome with
  | .success =>
      breaker.recordSuccess now
  | .failure =>
      breaker.recordFailure now

variable {breaker : CircuitBreaker} {now : Nat}

/-! ## What one call does, state by state -/

theorem allow_closed
    (closed : breaker.state = .closed) :
    breaker.allow now = (true, breaker) := by
  simp [allow, closed]

theorem allow_halfOpen
    (halfOpen : breaker.state = .halfOpen) :
    breaker.allow now = (false, breaker) := by
  simp [allow, halfOpen]

theorem allow_opened_waiting
    (opened : breaker.state = .opened)
    (waiting : breaker.timedOut now = false) :
    breaker.allow now = (false, breaker) := by
  simp [allow, opened, waiting]

theorem allow_opened_timedOut
    (opened : breaker.state = .opened)
    (elapsed : breaker.timedOut now = true) :
    breaker.allow now =
      (true, { breaker with state := .halfOpen }) := by
  simp [allow, opened, elapsed]

/--
Inversion of `allow`.  It leaves the breaker alone, unless the breaker is open
and timed out: then it answers `true` and moves the breaker to half-open.
-/
theorem allow_cases
    (now : Nat)
    (breaker : CircuitBreaker) :
    (breaker.state = .opened ∧ breaker.timedOut now = true ∧
        breaker.allow now =
          (true, { breaker with state := .halfOpen })) ∨
      ((breaker.state = .closed ∨ breaker.state = .halfOpen ∨
          breaker.timedOut now = false) ∧
        breaker.allow now =
          (decide (breaker.state = .closed), breaker)) := by
  cases shape : breaker.state with
  | closed =>
      right
      simp [allow_closed shape]
  | opened =>
      cases elapsed : breaker.timedOut now with
      | true =>
          left
          simp [allow_opened_timedOut shape elapsed]
      | false =>
          right
          simp [allow_opened_waiting shape elapsed]
  | halfOpen =>
      right
      simp [allow_halfOpen shape]

@[simp] theorem maybeResetWindow_state :
    (breaker.maybeResetWindow now).state = breaker.state := by
  unfold maybeResetWindow
  split <;> rfl

@[simp] theorem maybeResetWindow_maxFailures :
    (breaker.maybeResetWindow now).maxFailures =
      breaker.maxFailures := by
  unfold maybeResetWindow
  split <;> rfl

/-- An expired window restarts now with nothing counted. -/
theorem maybeResetWindow_expired
    (expired : breaker.windowExpired now = true) :
    breaker.maybeResetWindow now =
      { breaker with failureCount := 0, windowStart := now } := by
  simp [maybeResetWindow, expired]

/-- A running window is left alone. -/
theorem maybeResetWindow_running
    (running : breaker.windowExpired now = false) :
    breaker.maybeResetWindow now = breaker := by
  simp [maybeResetWindow, running]

theorem recordSuccess_closed
    (closed : breaker.state = .closed) :
    breaker.recordSuccess now = breaker.maybeResetWindow now := by
  simp [recordSuccess, closed]

theorem recordSuccess_halfOpen
    (halfOpen : breaker.state = .halfOpen) :
    breaker.recordSuccess now =
      { breaker with
        failureCount := 0
        windowStart := now
        state := .closed } := by
  simp [recordSuccess, halfOpen]

theorem recordFailure_closed
    (closed : breaker.state = .closed) :
    breaker.recordFailure now =
      (breaker.maybeResetWindow now).countFailure now := by
  simp [recordFailure, closed]

theorem recordFailure_halfOpen
    (halfOpen : breaker.state = .halfOpen) :
    breaker.recordFailure now =
      { breaker with openSince := now, state := .opened } := by
  simp [recordFailure, halfOpen]

/-- An open breaker ignores outcomes. -/
theorem record_opened
    (outcome : Outcome)
    (opened : breaker.state = .opened) :
    breaker.record outcome now = breaker := by
  cases outcome <;>
    simp [record, recordSuccess, recordFailure, opened]

/-- Every outcome decides a half-open breaker: success closes, failure opens. -/
theorem record_halfOpen_state
    (outcome : Outcome)
    (halfOpen : breaker.state = .halfOpen) :
    (breaker.record outcome now).state =
      match outcome with
      | .success => .closed
      | .failure => .opened := by
  cases outcome with
  | success =>
      simp [record, recordSuccess_halfOpen halfOpen]
  | failure =>
      simp [record, recordFailure_halfOpen halfOpen]

theorem countFailure_state :
    (breaker.countFailure now).state =
      if breaker.maxFailures ≤ breaker.failureCount + 1 then
        .opened
      else
        breaker.state := by
  unfold countFailure
  split <;> rfl

/-- No recorded outcome leaves a breaker half-open. -/
theorem record_state_ne_halfOpen
    (outcome : Outcome) :
    (breaker.record outcome now).state ≠ .halfOpen := by
  cases shape : breaker.state with
  | closed =>
      cases outcome with
      | success =>
          simp [record, recordSuccess_closed shape, shape]
      | failure =>
          simp only [record, recordFailure_closed shape,
            countFailure_state, maybeResetWindow_state, shape]
          split <;> simp
  | opened =>
      simp [record_opened outcome shape, shape]
  | halfOpen =>
      rw [record_halfOpen_state outcome shape]
      cases outcome <;> simp

/-! ## The failure counter stays below its threshold while closed -/

/--
The failure that opens: the `max_failures`-th, or the first when that is 0.
-/
def threshold (breaker : CircuitBreaker) : Nat :=
  max breaker.maxFailures 1

theorem threshold_pos (breaker : CircuitBreaker) :
    0 < breaker.threshold :=
  Nat.lt_of_lt_of_le Nat.one_pos (Nat.le_max_right _ _)

/--
A closed breaker has counted fewer failures than its threshold.  In particular
`failure_count + 1` never overflows a `u32`.
-/
def FailuresBounded (breaker : CircuitBreaker) : Prop :=
  breaker.state = .closed →
    breaker.failureCount < breaker.threshold

theorem failuresBounded_new
    (now maxFailures windowSecs failTimeout : Nat) :
    (new now maxFailures windowSecs failTimeout).FailuresBounded := by
  intro _
  exact threshold_pos _

theorem FailuresBounded.allow
    (bounded : breaker.FailuresBounded) :
    (breaker.allow now).2.FailuresBounded := by
  rcases allow_cases now breaker with ⟨_, _, moved⟩ | ⟨_, kept⟩
  · rw [moved]
    intro closed
    cases closed
  · rw [kept]
    exact bounded

theorem FailuresBounded.maybeResetWindow
    (bounded : breaker.FailuresBounded) :
    (breaker.maybeResetWindow now).FailuresBounded := by
  unfold CircuitBreaker.maybeResetWindow
  split
  · intro _
    exact threshold_pos breaker
  · exact bounded

/-- Counting a failure either opens the breaker or stays below the threshold. -/
theorem failuresBounded_countFailure :
    (breaker.countFailure now).FailuresBounded := by
  unfold countFailure
  split
  · intro closed
    cases closed
  · rename_i below
    intro _
    simp only [threshold]
    omega

theorem FailuresBounded.record
    (outcome : Outcome)
    (bounded : breaker.FailuresBounded) :
    (breaker.record outcome now).FailuresBounded := by
  cases shape : breaker.state with
  | closed =>
      cases outcome with
      | success =>
          simp only [CircuitBreaker.record, recordSuccess_closed shape]
          exact bounded.maybeResetWindow
      | failure =>
          simp only [CircuitBreaker.record, recordFailure_closed shape]
          exact failuresBounded_countFailure
  | opened =>
      rw [record_opened outcome shape]
      exact bounded
  | halfOpen =>
      cases outcome with
      | success =>
          simp only [CircuitBreaker.record,
            recordSuccess_halfOpen shape]
          intro _
          exact threshold_pos breaker
      | failure =>
          simp only [CircuitBreaker.record,
            recordFailure_halfOpen shape]
          intro closed
          cases closed

end CircuitBreaker

end Sweety
