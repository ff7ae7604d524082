import Sweety.StepRun
import Sweety.CircuitBreaker

namespace Sweety.CircuitBreaker

/-!
# Who decides a half-open breaker

Any number of requests share one breaker.  Each asks `allow` once and, if it is
admitted, reports one outcome at some later moment; the calls of different
requests interleave in any order.  The source does not tell outcomes apart:
`record_success` and `record_failure` act on whatever state they find.  Two
ghost fields make the question statable: who moved the breaker to half-open,
and how often it has opened.
-/

namespace Probe

/-- How far one request has come. -/
inductive Phase where
  | waiting
  | refused
  /-- Admitted when the breaker had opened `openings` times. -/
  | admitted (openings : Nat)
  | finished
  deriving Repr, DecidableEq

/-- A breaker, its requests, and the two ghost fields. -/
structure System where
  breaker : CircuitBreaker
  phase : Nat → Phase
  /-- The request whose `allow` last moved the breaker to half-open. -/
  probe : Option Nat
  /-- How often the breaker has opened. -/
  openings : Nat

/-- One call by one request at one second. -/
inductive Label where
  | ask (request now : Nat)
  | finish (request now : Nat) (outcome : Outcome)
  deriving Repr, DecidableEq

/-- The request that reports an outcome in this call, if it is a report. -/
def Label.reporter? : Label → Option Nat
  | .ask _ _ =>
      none
  | .finish request _ _ =>
      some request

/-- A fresh breaker and requests that have not asked yet. -/
def System.initial
    (created maxFailures windowSecs failTimeout : Nat) :
    System where
  breaker := new created maxFailures windowSecs failTimeout
  phase := fun _ => .waiting
  probe := none
  openings := 0

/-- Change the phase of one request. -/
def setPhase
    (phase : Nat → Phase)
    (request : Nat)
    (next : Phase) :
    Nat → Phase :=
  fun query => if query = request then next else phase query

@[simp] theorem setPhase_same
    (phase : Nat → Phase)
    (request : Nat)
    (next : Phase) :
    setPhase phase request next request = next := by
  simp [setPhase]

theorem setPhase_other
    (phase : Nat → Phase)
    {request other : Nat}
    (different : other ≠ request)
    (next : Phase) :
    setPhase phase request next other = phase other := by
  simp [setPhase, different]

/-- `allow` by a request that has not asked yet. -/
def System.ask
    (system : System)
    (request now : Nat) :
    System where
  breaker := (system.breaker.allow now).2
  phase :=
    setPhase system.phase request
      (if (system.breaker.allow now).1 then
        .admitted system.openings
      else
        .refused)
  probe :=
    if system.breaker.state ≠ .halfOpen ∧
        (system.breaker.allow now).2.state = .halfOpen then
      some request
    else
      system.probe
  openings := system.openings

/-- `record_success` or `record_failure` by an admitted request. -/
def System.finish
    (system : System)
    (request now : Nat)
    (outcome : Outcome) :
    System where
  breaker := system.breaker.record outcome now
  phase := setPhase system.phase request .finished
  probe := system.probe
  openings :=
    if system.breaker.state ≠ .opened ∧
        (system.breaker.record outcome now).state = .opened then
      system.openings + 1
    else
      system.openings

/-- A request asks once, and reports once if it was admitted. -/
def step? (system : System) : Label → Option System
  | .ask request now =>
      match system.phase request with
      | .waiting =>
          some (system.ask request now)
      | _ =>
          none
  | .finish request now outcome =>
      match system.phase request with
      | .admitted _ =>
          some (system.finish request now outcome)
      | _ =>
          none

/-- What an accepted label does. -/
theorem step?_cases
    {system next : System}
    {label : Label}
    (taken : step? system label = some next) :
    (∃ request now,
        label = .ask request now ∧
          system.phase request = .waiting ∧
            next = system.ask request now) ∨
      (∃ request now outcome opened,
        label = .finish request now outcome ∧
          system.phase request = .admitted opened ∧
            next = system.finish request now outcome) := by
  cases label with
  | ask request now =>
      unfold step? at taken
      cases shape : system.phase request <;> simp [shape] at taken
      exact .inl ⟨request, now, rfl, shape, taken.symm⟩
  | finish request now outcome =>
      unfold step? at taken
      cases shape : system.phase request with
      | admitted opened =>
          simp only [shape, Option.some.injEq] at taken
          exact .inr ⟨request, now, outcome, opened, rfl, shape,
            taken.symm⟩
      | waiting =>
          simp [shape] at taken
      | refused =>
          simp [shape] at taken
      | finished =>
          simp [shape] at taken

/-! ## The probe is the only request admitted since the last opening -/

/--
Admissions are stamped with the openings so far.  Since the last opening nobody
was admitted to an open breaker, and to a half-open one the probe alone.
-/
structure Invariant (system : System) : Prop where
  stamped :
    ∀ {request opened},
      system.phase request = .admitted opened →
      opened ≤ system.openings
  opened :
    system.breaker.state = .opened →
    ∀ request,
      system.phase request ≠ .admitted system.openings
  halfOpen :
    system.breaker.state = .halfOpen →
    ∃ probe,
      system.probe = some probe ∧
        ∀ request,
          system.phase request = .admitted system.openings ↔
            request = probe

theorem invariant_initial
    (created maxFailures windowSecs failTimeout : Nat) :
    Invariant
      (System.initial created maxFailures windowSecs failTimeout) where
  stamped admitted := by
    simp [System.initial] at admitted
  opened isOpen := by
    simp [System.initial, new] at isOpen
  halfOpen isHalfOpen := by
    simp [System.initial, new] at isHalfOpen

/-- A call to `allow` keeps the invariant. -/
theorem Invariant.ask
    {system : System}
    {request now : Nat}
    (invariant : Invariant system)
    (waiting : system.phase request = .waiting) :
    Invariant (system.ask request now) := by
  have othersAdmitted :
      ∀ {other opened} {next : Phase},
        other ≠ request →
        setPhase system.phase request next other = .admitted opened →
        system.phase other = .admitted opened := by
    intro other opened next different admitted
    rwa [setPhase_other _ different] at admitted
  rcases allow_cases now system.breaker with
      ⟨wasOpen, _, moved⟩ | ⟨_, kept⟩
  · -- The call finds an open breaker timed out: this request becomes the probe.
    refine ⟨?_, ?_, ?_⟩
    · intro other opened admitted
      simp only [System.ask, moved, ↓reduceIte] at admitted ⊢
      by_cases same : other = request
      · subst same
        rw [setPhase_same] at admitted
        cases admitted
        exact Nat.le_refl _
      · exact invariant.stamped (othersAdmitted same admitted)
    · intro isOpen
      simp [System.ask, moved] at isOpen
    · intro _
      refine ⟨request, by simp [System.ask, moved, wasOpen], ?_⟩
      intro other
      simp only [System.ask, moved, ↓reduceIte]
      constructor
      · intro admitted
        by_contra different
        exact invariant.opened wasOpen other
          (othersAdmitted different admitted)
      · intro same
        subst same
        simp
  · refine ⟨?_, ?_, ?_⟩
    · intro other opened admitted
      simp only [System.ask, kept] at admitted ⊢
      by_cases same : other = request
      · subst same
        rw [setPhase_same] at admitted
        split at admitted
        · cases admitted
          exact Nat.le_refl _
        · cases admitted
      · exact invariant.stamped (othersAdmitted same admitted)
    · intro isOpen other admitted
      simp only [System.ask, kept] at isOpen admitted
      by_cases same : other = request
      · subst same
        simp [isOpen] at admitted
      · exact invariant.opened isOpen other
          (othersAdmitted same admitted)
    · intro isHalfOpen
      simp only [System.ask, kept] at isHalfOpen
      obtain ⟨probe, probeShape, onlyProbe⟩ :=
        invariant.halfOpen isHalfOpen
      refine ⟨probe, by simp [System.ask, kept, isHalfOpen, probeShape],
        ?_⟩
      intro other
      simp only [System.ask, kept, isHalfOpen]
      by_cases same : other = request
      · subst same
        have notProbe : other ≠ probe := by
          intro isProbe
          have admitted := (onlyProbe other).mpr isProbe
          rw [waiting] at admitted
          cases admitted
        simp [notProbe]
      · rw [setPhase_other _ same]
        exact onlyProbe other

/-- A reported outcome keeps the invariant. -/
theorem Invariant.finish
    {system : System}
    {request now : Nat}
    {outcome : Outcome}
    (invariant : Invariant system) :
    Invariant (system.finish request now outcome) := by
  have stillAdmitted :
      ∀ {other opened},
        setPhase system.phase request .finished other =
            .admitted opened →
        other ≠ request ∧ system.phase other = .admitted opened := by
    intro other opened admitted
    by_cases same : other = request
    · subst same
      simp at admitted
    · rw [setPhase_other _ same] at admitted
      exact ⟨same, admitted⟩
  have openingsGrow :
      system.openings ≤
        (system.finish request now outcome).openings := by
    simp only [System.finish]
    split <;> omega
  refine ⟨?_, ?_, ?_⟩
  · intro other opened admitted
    exact Nat.le_trans
      (invariant.stamped (stillAdmitted admitted).2) openingsGrow
  · intro isOpen other admitted
    have before := (stillAdmitted admitted).2
    by_cases wasOpen : system.breaker.state = .opened
    · apply invariant.opened wasOpen other
      simpa [System.finish, wasOpen] using before
    · have fresh :
          (system.finish request now outcome).openings =
            system.openings + 1 := by
        simp only [System.finish] at isOpen ⊢
        simp [wasOpen, isOpen]
      have bounded := invariant.stamped before
      omega
  · intro isHalfOpen
    simp only [System.finish] at isHalfOpen
    exact absurd isHalfOpen (record_state_ne_halfOpen outcome)

theorem Invariant.step
    {system next : System}
    {label : Label}
    (invariant : Invariant system)
    (taken : step? system label = some next) :
    Invariant next := by
  rcases step?_cases taken with
      ⟨request, now, _, waiting, rfl⟩ | ⟨request, now, outcome, _, _, _, rfl⟩
  · exact invariant.ask waiting
  · exact invariant.finish

/-! ## Late reports are the only other way out of half-open -/

/-- If this call takes the breaker out of half-open, its probe makes it. -/
def DecidedByProbe
    (before : System)
    (label : Label)
    (after : System) :
    Prop :=
  before.breaker.state = .halfOpen →
    after.breaker.state ≠ .halfOpen →
      label.reporter?.isSome ∧ label.reporter? = before.probe

/--
A request that reports to a half-open breaker was admitted after the breaker
last opened: the report is not a late one from before the trip.
-/
def ReportsInTime
    (before : System)
    (label : Label)
    (_after : System) :
    Prop :=
  ∀ request ∈ label.reporter?,
    before.breaker.state = .halfOpen →
      before.phase request = .admitted before.openings

instance (before : System) (label : Label) (after : System) :
    Decidable (DecidedByProbe before label after) := by
  unfold DecidedByProbe
  infer_instance

/-- On one call the two properties agree. -/
theorem decidedByProbe_iff_reportsInTime
    {before after : System}
    {label : Label}
    (invariant : Invariant before)
    (taken : step? before label = some after) :
    DecidedByProbe before label after ↔
      ReportsInTime before label after := by
  rcases step?_cases taken with
      ⟨request, now, rfl, _, rfl⟩ |
        ⟨request, now, outcome, opened, rfl, admitted, rfl⟩
  · -- `allow` refuses on a half-open breaker and leaves it half-open.
    have trivially : ReportsInTime before (.ask request now)
        (before.ask request now) := by
      intro reporter member
      simp [Label.reporter?] at member
    refine ⟨fun _ => trivially, ?_⟩
    intro _ halfOpen moved
    simp [System.ask, allow_halfOpen halfOpen, halfOpen] at moved
  · by_cases halfOpen : before.breaker.state = .halfOpen
    · obtain ⟨probe, probeShape, onlyProbe⟩ :=
        invariant.halfOpen halfOpen
      have leaves :
          (before.finish request now outcome).breaker.state ≠
            .halfOpen := by
        simp only [System.finish,
          record_halfOpen_state outcome halfOpen]
        cases outcome <;> simp
      simp [DecidedByProbe, ReportsInTime, Label.reporter?, halfOpen,
        leaves, probeShape, onlyProbe]
    · simp [DecidedByProbe, ReportsInTime, halfOpen]

/--
A half-open breaker is decided by its probe alone exactly in the runs where no
request admitted before the breaker last opened reports while it is half-open.
-/
theorem halfOpen_decided_by_probe_iff
    (created maxFailures windowSecs failTimeout : Nat)
    (labels : List Label) :
    StepRun.Along step? DecidedByProbe
        (System.initial created maxFailures windowSecs failTimeout)
        labels ↔
      StepRun.Along step? ReportsInTime
        (System.initial created maxFailures windowSecs failTimeout)
        labels :=
  StepRun.along_congr
    (fun invariant taken => invariant.step taken)
    decidedByProbe_iff_reportsInTime
    (invariant_initial created maxFailures windowSecs failTimeout)

/--
Requests 0 and 1 are admitted, the failure of 1 opens the breaker, request 2 is
the probe at second 31, and the late success of request 0 closes the breaker
while the probe is still out.
-/
theorem late_success_closes_halfOpen :
    ¬ StepRun.Along step? DecidedByProbe (System.initial 0 1 60 30)
        [.ask 0 0, .ask 1 0, .finish 1 1 .failure, .ask 2 31,
          .finish 0 32 .success] := by
  decide

end Probe

end Sweety.CircuitBreaker
