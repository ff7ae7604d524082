import Sweety.CircuitBreaker
import Mathlib.Data.List.Induction

namespace Sweety.CircuitBreaker

/-!
# Sequential runs of one breaker

A run is the list of calls made on a fresh breaker, each with the second at
which it is made.  The counting window is described by the history alone: when
it last began, and what has happened since.  The invariant `WindowAgrees` ties
that description to the two fields `window_start` and `failure_count`.
-/

/-- One call of the public interface. -/
inductive Call where
  | allow
  | record (outcome : Outcome)
  deriving Repr, DecidableEq

/-- A call and the second at which it is made. -/
structure TimedCall where
  now : Nat
  call : Call
  deriving Repr, DecidableEq

/-- The breaker after one call. -/
def step
    (breaker : CircuitBreaker)
    (timed : TimedCall) :
    CircuitBreaker :=
  match timed.call with
  | .allow =>
      (breaker.allow timed.now).2
  | .record outcome =>
      breaker.record outcome timed.now

/-- The breaker after a list of calls. -/
def after
    (breaker : CircuitBreaker)
    (calls : List TimedCall) :
    CircuitBreaker :=
  calls.foldl step breaker

/-- What the `allow` calls of a run answer, in order. -/
def answers :
    CircuitBreaker → List TimedCall → List Bool
  | _, [] =>
      []
  | breaker, timed :: rest =>
      match timed.call with
      | .allow =>
          (breaker.allow timed.now).1 ::
            answers (breaker.step timed) rest
      | .record _ =>
          answers (breaker.step timed) rest

/-- The failures recorded in a list of calls. -/
def failures (calls : List TimedCall) : Nat :=
  calls.countP fun timed => timed.call = .record .failure

@[simp] theorem after_nil (breaker : CircuitBreaker) :
    breaker.after [] = breaker :=
  rfl

@[simp] theorem after_cons
    (breaker : CircuitBreaker)
    (timed : TimedCall)
    (rest : List TimedCall) :
    breaker.after (timed :: rest) =
      (breaker.step timed).after rest :=
  rfl

@[simp] theorem after_append
    (breaker : CircuitBreaker)
    (early late : List TimedCall) :
    breaker.after (early ++ late) =
      (breaker.after early).after late := by
  simp [after]

@[simp] theorem failures_append
    (early late : List TimedCall) :
    failures (early ++ late) = failures early + failures late := by
  simp [failures]

/-- A closed breaker stays below its threshold in every run. -/
theorem failuresBounded_after
    (now maxFailures windowSecs failTimeout : Nat)
    (calls : List TimedCall) :
    ((new now maxFailures windowSecs failTimeout).after
      calls).FailuresBounded := by
  induction calls using List.reverseRecOn with
  | nil =>
      exact failuresBounded_new now maxFailures windowSecs failTimeout
  | append_singleton earlier timed bounded =>
      rw [after_append]
      rcases timed with ⟨later, call⟩
      cases call with
      | allow =>
          exact bounded.allow
      | record outcome =>
          exact bounded.record outcome

/-! ## The configured numbers never change -/

/-- Two breakers with the same configuration. -/
def SameConfig (first second : CircuitBreaker) : Prop :=
  first.maxFailures = second.maxFailures ∧
    first.windowSecs = second.windowSecs ∧
      first.failTimeout = second.failTimeout

theorem sameConfig_maybeResetWindow
    (now : Nat)
    (breaker : CircuitBreaker) :
    SameConfig (breaker.maybeResetWindow now) breaker := by
  unfold maybeResetWindow
  split <;> exact ⟨rfl, rfl, rfl⟩

theorem sameConfig_countFailure
    (now : Nat)
    (breaker : CircuitBreaker) :
    SameConfig (breaker.countFailure now) breaker := by
  unfold countFailure
  split <;> exact ⟨rfl, rfl, rfl⟩

theorem SameConfig.trans
    {first second third : CircuitBreaker}
    (left : SameConfig first second)
    (right : SameConfig second third) :
    SameConfig first third :=
  ⟨left.1.trans right.1, left.2.1.trans right.2.1,
    left.2.2.trans right.2.2⟩

theorem sameConfig_step
    (breaker : CircuitBreaker)
    (timed : TimedCall) :
    SameConfig (breaker.step timed) breaker := by
  rcases timed with ⟨now, call⟩
  cases call with
  | allow =>
      simp only [step]
      rcases allow_cases now breaker with ⟨_, _, moved⟩ | ⟨_, kept⟩
      · rw [moved]
        exact ⟨rfl, rfl, rfl⟩
      · rw [kept]
        exact ⟨rfl, rfl, rfl⟩
  | record outcome =>
      simp only [step]
      cases shape : breaker.state with
      | closed =>
          cases outcome with
          | success =>
              simp only [record, recordSuccess_closed shape]
              exact sameConfig_maybeResetWindow now breaker
          | failure =>
              simp only [record, recordFailure_closed shape]
              exact (sameConfig_countFailure now _).trans
                (sameConfig_maybeResetWindow now breaker)
      | opened =>
          rw [record_opened outcome shape]
          exact ⟨rfl, rfl, rfl⟩
      | halfOpen =>
          cases outcome with
          | success =>
              simp only [record, recordSuccess_halfOpen shape]
              exact ⟨rfl, rfl, rfl⟩
          | failure =>
              simp only [record, recordFailure_halfOpen shape]
              exact ⟨rfl, rfl, rfl⟩

theorem sameConfig_after
    (breaker : CircuitBreaker)
    (calls : List TimedCall) :
    SameConfig (breaker.after calls) breaker := by
  induction calls generalizing breaker with
  | nil =>
      exact ⟨rfl, rfl, rfl⟩
  | cons timed rest inductionHypothesis =>
      exact (inductionHypothesis (breaker.step timed)).trans
        (sameConfig_step breaker timed)

/-! ## The counting window, read off the history -/

section Window

variable (initial : CircuitBreaker)

/--
`Uninterrupted initial early start late`: while the calls `late` were made,
after `early`, the breaker was closed before each of them, and no outcome
among them came `window_secs` or more after `start`.
-/
def Uninterrupted
    (early : List TimedCall)
    (start : Nat)
    (late : List TimedCall) :
    Prop :=
  ∀ {made next rest},
    late = made ++ next :: rest →
    (initial.after (early ++ made)).state = .closed ∧
      (next.call ≠ .allow → next.now - start < initial.windowSecs)

/--
`WindowStart initial calls start seed`: a counting window begins at second
`start` with the last call of `calls`, which itself counts `seed` failures.

A window begins when the breaker is made, when a success closes a half-open
breaker, and at an outcome recorded after the previous window has run out.
-/
inductive WindowStart : List TimedCall → Nat → Nat → Prop where
  | created :
      WindowStart [] initial.windowStart 0
  | recovered
      {calls : List TimedCall}
      {now : Nat}
      (halfOpen : (initial.after calls).state = .halfOpen) :
      WindowStart (calls ++ [⟨now, .record .success⟩]) now 0
  | expired
      {early late : List TimedCall}
      {start seed now : Nat}
      {outcome : Outcome}
      (began : WindowStart early start seed)
      (uninterrupted : Uninterrupted initial early start late)
      (closed : (initial.after (early ++ late)).state = .closed)
      (elapsed : initial.windowSecs ≤ now - start) :
      WindowStart (early ++ late ++ [⟨now, .record outcome⟩]) now
        (failures [⟨now, .record outcome⟩])

/--
The current window of a closed breaker: it began at `start`, nothing has
interrupted it since, and `count` failures were recorded in it.
-/
def CurrentWindow
    (calls : List TimedCall)
    (start count : Nat) :
    Prop :=
  ∃ early late seed,
    calls = early ++ late ∧
      WindowStart initial early start seed ∧
        Uninterrupted initial early start late ∧
          count = seed + failures late

variable {initial}

theorem uninterrupted_nil
    (early : List TimedCall)
    (start : Nat) :
    Uninterrupted initial early start [] := by
  intro made next rest shape
  simp at shape

/-- One more call while closed, in time, keeps a window uninterrupted. -/
theorem Uninterrupted.snoc
    {early late : List TimedCall}
    {start : Nat}
    {timed : TimedCall}
    (uninterrupted : Uninterrupted initial early start late)
    (closed : (initial.after (early ++ late)).state = .closed)
    (inTime :
      timed.call ≠ .allow →
        timed.now - start < initial.windowSecs) :
    Uninterrupted initial early start (late ++ [timed]) := by
  intro made next rest shape
  rcases List.eq_nil_or_concat rest with restNil | ⟨body, last, restShape⟩
  · subst restNil
    obtain ⟨sameMade, sameNext⟩ := List.append_inj' shape rfl
    obtain rfl : timed = next := by simpa using sameNext
    subst sameMade
    exact ⟨closed, inTime⟩
  · subst restShape
    have lateShape : late = made ++ next :: body := by
      have regrouped :
          late ++ [timed] = (made ++ next :: body) ++ [last] := by
        simpa using shape
      exact (List.append_inj' regrouped rfl).1
    exact uninterrupted lateShape

/-- A call that keeps the window and counts nothing. -/
theorem CurrentWindow.keep
    {calls : List TimedCall}
    {start count : Nat}
    (timed : TimedCall)
    (window : CurrentWindow initial calls start count)
    (closed : (initial.after calls).state = .closed)
    (inTime :
      timed.call ≠ .allow →
        timed.now - start < initial.windowSecs) :
    CurrentWindow initial (calls ++ [timed]) start
      (count + failures [timed]) := by
  obtain ⟨early, late, seed, rfl, began, uninterrupted, rfl⟩ := window
  refine ⟨early, late ++ [timed], seed, by simp, began,
    uninterrupted.snoc closed inTime, ?_⟩
  rw [failures_append]
  omega

/-- An outcome after the window has run out begins the next one. -/
theorem CurrentWindow.restart
    {calls : List TimedCall}
    {start count now : Nat}
    {outcome : Outcome}
    (window : CurrentWindow initial calls start count)
    (closed : (initial.after calls).state = .closed)
    (elapsed : initial.windowSecs ≤ now - start) :
    CurrentWindow initial (calls ++ [⟨now, .record outcome⟩]) now
      (failures [⟨now, .record outcome⟩]) := by
  obtain ⟨early, late, seed, rfl, began, uninterrupted, rfl⟩ := window
  exact ⟨early ++ late ++ [⟨now, .record outcome⟩], [],
    failures [⟨now, .record outcome⟩], by simp,
    .expired began uninterrupted closed elapsed,
    uninterrupted_nil _ _, by simp [failures]⟩

/-- The fields of a closed breaker describe its current window. -/
def WindowAgrees
    (initial : CircuitBreaker)
    (calls : List TimedCall) :
    Prop :=
  (initial.after calls).state = .closed →
    CurrentWindow initial calls
      (initial.after calls).windowStart
      (initial.after calls).failureCount

end Window

variable {initial : CircuitBreaker}

/-- `windowExpired` after any run compares with the configured length. -/
theorem windowExpired_after
    (calls : List TimedCall)
    (now : Nat) :
    (initial.after calls).windowExpired now =
      decide
        (initial.windowSecs ≤
          now - (initial.after calls).windowStart) := by
  simp [windowExpired, (sameConfig_after initial calls).2.1]

/--
Recording an outcome on a closed breaker, seen through the current window: the
window that the outcome belongs to, and the count it brings it to.
-/
theorem WindowAgrees.outcome
    {calls : List TimedCall}
    (now : Nat)
    (outcome : Outcome)
    (agrees : WindowAgrees initial calls)
    (closed : (initial.after calls).state = .closed) :
    CurrentWindow initial
      (calls ++ [⟨now, .record outcome⟩])
      ((initial.after calls).maybeResetWindow now).windowStart
      (((initial.after calls).maybeResetWindow now).failureCount +
        failures [⟨now, .record outcome⟩]) := by
  have window := agrees closed
  cases expired : (initial.after calls).windowExpired now with
  | true =>
      rw [maybeResetWindow_expired expired]
      rw [windowExpired_after, decide_eq_true_eq] at expired
      rw [Nat.zero_add]
      exact window.restart closed expired
  | false =>
      rw [maybeResetWindow_running expired]
      rw [windowExpired_after, decide_eq_false_iff_not,
        Nat.not_le] at expired
      exact window.keep ⟨now, .record outcome⟩ closed
        (fun _ => expired)

/-- One call keeps the fields and the history in agreement. -/
theorem WindowAgrees.snoc
    {calls : List TimedCall}
    (agrees : WindowAgrees initial calls)
    (timed : TimedCall) :
    WindowAgrees initial (calls ++ [timed]) := by
  intro closedAfter
  rcases timed with ⟨now, call⟩
  simp only [after_append, after_cons, after_nil] at closedAfter ⊢
  cases call with
  | allow =>
      simp only [step] at closedAfter ⊢
      rcases allow_cases now (initial.after calls) with
          ⟨_, _, moved⟩ | ⟨_, kept⟩
      · rw [moved] at closedAfter
        cases closedAfter
      · rw [kept] at closedAfter ⊢
        exact (agrees closedAfter).keep ⟨now, .allow⟩
          closedAfter (by simp)
  | record outcome =>
      simp only [step] at closedAfter ⊢
      cases shape : (initial.after calls).state with
      | closed =>
          cases outcome with
          | success =>
              simp only [record, recordSuccess_closed shape]
              exact agrees.outcome now .success shape
          | failure =>
              simp only [record, recordFailure_closed shape]
              have counted := agrees.outcome now .failure shape
              unfold countFailure
              split <;> exact counted
      | opened =>
          rw [record_opened outcome shape] at closedAfter
          exact absurd (shape.symm.trans closedAfter) (by simp)
      | halfOpen =>
          cases outcome with
          | success =>
              simp only [record, recordSuccess_halfOpen shape]
              exact ⟨_, [], 0, by simp, .recovered shape,
                uninterrupted_nil _ _, rfl⟩
          | failure =>
              simp [record, recordFailure_halfOpen shape] at closedAfter

/-- Fields and history agree after every run of a breaker just made. -/
theorem windowAgrees
    (fresh : initial.failureCount = 0)
    (calls : List TimedCall) :
    WindowAgrees initial calls := by
  induction calls using List.reverseRecOn with
  | nil =>
      intro _
      exact ⟨[], [], 0, rfl, .created, uninterrupted_nil _ _, fresh⟩
  | append_singleton calls timed inductionHypothesis =>
      exact inductionHypothesis.snoc timed

/-! ## The four laws of a run -/

/--
The opening is earned: the call is a recorded failure, and with it at least
`threshold` failures were recorded in the current window.
-/
def OpenedByThreshold
    (initial : CircuitBreaker)
    (calls : List TimedCall)
    (timed : TimedCall) :
    Prop :=
  timed.call = .record .failure ∧
    ∃ start count,
      CurrentWindow initial (calls ++ [timed]) start count ∧
        initial.threshold ≤ count

/-- A closed breaker opens only when the window has reached its threshold. -/
theorem openedByThreshold
    (fresh : initial.failureCount = 0)
    {calls : List TimedCall}
    {timed : TimedCall}
    (closed : (initial.after calls).state = .closed)
    (opened : (initial.after (calls ++ [timed])).state = .opened) :
    OpenedByThreshold initial calls timed := by
  rcases timed with ⟨now, call⟩
  simp only [after_append, after_cons, after_nil, step] at opened
  cases call with
  | allow =>
      simp [allow_closed closed, closed] at opened
  | record outcome =>
      cases outcome with
      | success =>
          simp [record, recordSuccess_closed closed, closed] at opened
      | failure =>
          have isOne : failures [⟨now, .record .failure⟩] = 1 := rfl
          refine ⟨rfl, _, _,
            (windowAgrees fresh calls).outcome now .failure closed, ?_⟩
          rw [isOne]
          simp only [record, recordFailure_closed closed,
            countFailure_state, maybeResetWindow_state, closed,
            maybeResetWindow_maxFailures,
            (sameConfig_after initial calls).1] at opened
          have reached :
              initial.maxFailures ≤
                ((initial.after calls).maybeResetWindow now).failureCount
                  + 1 := by
            by_contra below
            simp [below] at opened
          simp only [threshold]
          omega

/-- A call that opens the breaker stamps its own second. -/
theorem openSince_of_opening
    {breaker : CircuitBreaker}
    {timed : TimedCall}
    (notOpened : breaker.state ≠ .opened)
    (opened : (breaker.step timed).state = .opened) :
    (breaker.step timed).openSince = timed.now := by
  rcases timed with ⟨now, call⟩
  simp only [step] at opened ⊢
  cases call with
  | allow =>
      rcases allow_cases now breaker with ⟨wasOpen, _, _⟩ | ⟨_, kept⟩
      · exact absurd wasOpen notOpened
      · rw [kept] at opened
        exact absurd opened notOpened
  | record outcome =>
      cases shape : breaker.state with
      | closed =>
          cases outcome with
          | success =>
              simp [record, recordSuccess_closed shape, shape] at opened
          | failure =>
              simp only [record, recordFailure_closed shape] at opened ⊢
              unfold countFailure at opened ⊢
              split
              · rfl
              · rename_i below
                rw [if_neg below] at opened
                simp [shape] at opened
      | opened =>
          exact absurd shape notOpened
      | halfOpen =>
          cases outcome with
          | success =>
              simp [record, recordSuccess_halfOpen shape] at opened
          | failure =>
              simp only [record, recordFailure_halfOpen shape]

/-- An open breaker within its timeout does not move, whatever is called. -/
theorem step_waiting
    {breaker : CircuitBreaker}
    {timed : TimedCall}
    (opened : breaker.state = .opened)
    (monotone : breaker.openSince ≤ timed.now)
    (waiting : timed.now < breaker.openSince + breaker.failTimeout) :
    breaker.allow timed.now = (false, breaker) ∧
      breaker.step timed = breaker := by
  have notYet : breaker.timedOut timed.now = false := by
    simp only [timedOut, decide_eq_false_iff_not]
    omega
  refine ⟨allow_opened_waiting opened notYet, ?_⟩
  rcases timed with ⟨now, call⟩
  cases call with
  | allow =>
      simp [step, allow_opened_waiting opened notYet]
  | record outcome =>
      simp [step, record_opened outcome opened]

/-- While it waits, an open breaker refuses every request. -/
theorem answers_waiting
    {breaker : CircuitBreaker}
    {later : List TimedCall}
    (opened : breaker.state = .opened)
    (waiting :
      ∀ timed ∈ later,
        breaker.openSince ≤ timed.now ∧
          timed.now < breaker.openSince + breaker.failTimeout) :
    ∀ answer ∈ breaker.answers later, answer = false := by
  induction later with
  | nil =>
      intro answer member
      simp [answers] at member
  | cons timed rest inductionHypothesis =>
      obtain ⟨monotone, notYet⟩ := waiting timed (by simp)
      obtain ⟨refused, stays⟩ := step_waiting opened monotone notYet
      have restRefused :=
        inductionHypothesis
          (fun other member => waiting other (by simp [member]))
      intro answer member
      unfold answers at member
      cases shape : timed.call with
      | allow =>
          simp only [shape, stays, refused, List.mem_cons] at member
          rcases member with isHead | inRest
          · exact isHead
          · exact restRefused answer inRest
      | record outcome =>
          simp only [shape, stays] at member
          exact restRefused answer member

/-- Until an outcome is recorded, a half-open breaker refuses every request. -/
theorem answers_halfOpen
    {breaker : CircuitBreaker}
    {later : List TimedCall}
    (halfOpen : breaker.state = .halfOpen)
    (noOutcome : ∀ timed ∈ later, timed.call = .allow) :
    breaker.answers later = List.replicate later.length false := by
  induction later with
  | nil =>
      rfl
  | cons timed rest inductionHypothesis =>
      have isAllow := noOutcome timed (by simp)
      have refused : breaker.allow timed.now = (false, breaker) :=
        allow_halfOpen halfOpen
      have stays : breaker.step timed = breaker := by
        simp [step, isAllow, refused]
      have restRefused :=
        inductionHypothesis
          (fun other member => noOutcome other (by simp [member]))
      simp [answers, isAllow, refused, stays, restRefused,
        List.replicate_succ]

/-- Only an admitting `allow` moves a breaker to half-open. -/
theorem allow_of_halfOpening
    {breaker : CircuitBreaker}
    {timed : TimedCall}
    (notHalfOpen : breaker.state ≠ .halfOpen)
    (halfOpen : (breaker.step timed).state = .halfOpen) :
    timed.call = .allow ∧ (breaker.allow timed.now).1 = true := by
  rcases timed with ⟨now, call⟩
  cases call with
  | allow =>
      simp only [step] at halfOpen
      rcases allow_cases now breaker with ⟨_, _, moved⟩ | ⟨_, kept⟩
      · exact ⟨rfl, by rw [moved]⟩
      · rw [kept] at halfOpen
        exact absurd halfOpen notHalfOpen
  | record outcome =>
      simp only [step] at halfOpen
      exact absurd halfOpen (record_state_ne_halfOpen outcome)

/--
Soundness of a breaker over sequential runs.  Take any breaker just made, any
calls made on it so far and one call more, at any seconds.  The clock matters
only after an opening, where later calls must not read an earlier second.

* If that call takes the breaker from closed to open, it is a recorded failure
  that brings the current window to its threshold.
* If that call opens the breaker, every `allow` made less than `fail_timeout`
  seconds later is refused.
* If that call makes the breaker half-open, it is an `allow` that was admitted,
  and every further `allow` is refused until an outcome is recorded.
* If it is an outcome recorded half-open, a success leaves the breaker closed
  with nothing counted and a failure leaves it open from that second on.
-/
theorem breaker_sound
    (created maxFailures windowSecs failTimeout : Nat)
    (calls : List TimedCall)
    (timed : TimedCall) :
    let initial := new created maxFailures windowSecs failTimeout
    let before := initial.after calls
    let next := initial.after (calls ++ [timed])
    (before.state = .closed → next.state = .opened →
        OpenedByThreshold initial calls timed) ∧
      (before.state ≠ .opened → next.state = .opened →
        ∀ later : List TimedCall,
          (∀ call ∈ later,
            timed.now ≤ call.now ∧
              call.now < timed.now + failTimeout) →
          ∀ answer ∈ next.answers later, answer = false) ∧
      (before.state ≠ .halfOpen → next.state = .halfOpen →
        timed.call = .allow ∧
          ∀ later : List TimedCall,
            (∀ call ∈ later, call.call = .allow) →
            before.answers (timed :: later) =
              true :: List.replicate later.length false) ∧
      (before.state = .halfOpen →
        (timed.call = .record .success →
          next.state = .closed ∧ next.failureCount = 0) ∧
        (timed.call = .record .failure →
          next.state = .opened ∧ next.openSince = timed.now)) := by
  intro initial before next
  have nextShape : next = before.step timed := by
    simp [next, before]
  have nextTimeout : next.failTimeout = failTimeout :=
    (sameConfig_after initial (calls ++ [timed])).2.2
  refine ⟨?_, ?_, ?_, ?_⟩
  · intro closed opened
    exact openedByThreshold rfl closed opened
  · intro notOpened opened later waiting
    have stamped : next.openSince = timed.now := by
      rw [nextShape] at opened ⊢
      exact openSince_of_opening notOpened opened
    apply answers_waiting opened
    rw [stamped, nextTimeout]
    exact waiting
  · intro notHalfOpen halfOpen
    rw [nextShape] at halfOpen
    obtain ⟨isAllow, admitted⟩ :=
      allow_of_halfOpening notHalfOpen halfOpen
    refine ⟨isAllow, ?_⟩
    intro later noOutcome
    simp [answers, isAllow, admitted,
      answers_halfOpen halfOpen noOutcome]
  · intro halfOpen
    constructor
    · intro isSuccess
      simp [nextShape, step, isSuccess, record,
        recordSuccess_halfOpen halfOpen]
    · intro isFailure
      simp [nextShape, step, isFailure, record,
        recordFailure_halfOpen halfOpen]

/--
A breaker with threshold 2 and timeout 30: the failures at seconds 1 and 2 open
it, and the probe admitted at second 32 keeps it half-open.
-/
theorem breaker_sound_threshold_two :
    OpenedByThreshold (new 0 2 60 30)
        [⟨1, .record .failure⟩] ⟨2, .record .failure⟩ ∧
      ((new 0 2 60 30).after
          [⟨1, .record .failure⟩, ⟨2, .record .failure⟩]).answers
        [⟨32, .allow⟩, ⟨33, .allow⟩] = [true, false] :=
  ⟨(breaker_sound 0 2 60 30
      [⟨1, .record .failure⟩] ⟨2, .record .failure⟩).1
      (by decide) (by decide),
    ((breaker_sound 0 2 60 30
      [⟨1, .record .failure⟩, ⟨2, .record .failure⟩]
      ⟨32, .allow⟩).2.2.1 (by decide) (by decide)).2
      [⟨33, .allow⟩] (by decide)⟩

end Sweety.CircuitBreaker
