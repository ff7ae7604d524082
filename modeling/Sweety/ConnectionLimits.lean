import Mathlib.Algebra.Group.Nat.Defs
import Mathlib.Logic.Function.Basic
import Sweety.CountedTasks
import Sweety.StepRun

namespace Sweety.ConnectionLimits

open CountedTasks

/-!
# The limits on concurrent requests

Model of `max_connections` and `limit_conn` in `multi_site_handler`, over the
atomic accesses of any number of requests in any order.  A counter is increased
first and compared afterwards; `max_connections` undoes the increase by a
`ConnGuard`, `limit_conn` by a decrease of its own before the guard exists.
-/

section Machine

variable {Location : Type} [DecidableEq Location]

/-- The limits of one configuration; 0 stands for none. -/
structure Limits (Location : Type) where
  maxConnections : Nat
  limitConn : Location → Nat

/--
`active_connections`, and `conn_count` of each location.  A `usize` counts
objects in memory, so it does not overflow upwards.
-/
structure Counters (Location : Type) where
  activeConnections : Nat
  connCount : Location → Nat

/-- `fetch_sub(1)` on a `usize`, which wraps around below 0. -/
def fetchSub : Nat → Nat
  | 0 =>
      2 ^ 64 - 1
  | counter + 1 =>
      counter

/-- Where the handler of a request is. -/
inductive Phase (Location : Type) where
  | arrived
  /-- `active_connections` was increased from `cur`, and the guard made. -/
  | counted (cur : Nat)
  /-- The answer is 503, and the guard is to be dropped. -/
  | refused
  | admitted
  /-- `conn_count` was increased from `cur`. -/
  | located (location : Location) (cur : Nat)
  /-- The answer is 503, and `conn_count` is to be decreased. -/
  | refusedAt (location : Location)
  /-- `limit_conn` is passed, with `_loc_conn_guard`. -/
  | holding (guard : Option Location)
  /--
  `_loc_conn_guard` is dropped or was never made; `_conn_guard` is to be
  dropped.
  -/
  | leaving
  | finished
  deriving DecidableEq

/-- What makes the handler move. -/
inductive Event (Location : Type) where
  /-- The next access to a counter, or the next comparison. -/
  | advance
  /-- The request comes to `limit_conn` of a location. -/
  | reach (location : Location)
  /--
  A `return`, the end, a panic or the drop of the future: a guard is dropped.
  -/
  | exit

/-- The counters, and all requests so far. -/
structure State (Location : Type) where
  counters : Counters Location
  requests : List (Phase Location)

inductive Label (Location : Type) where
  | arrive
  | move (index : Nat) (event : Event Location)

namespace Counters

variable (counters : Counters Location)

/-- `conn_count` of one location is changed. -/
def setConnCount (location : Location) (count : Nat) : Counters Location :=
  { counters with
    connCount := Function.update counters.connCount location count }

end Counters

/--
One move of a handler.  Nothing is awaited between an increase and the
comparison after it, so the future is not dropped there.
-/
def Phase.next
    (limits : Limits Location)
    (counters : Counters Location) :
    Phase Location → Event Location →
      Option (Counters Location × Phase Location)
  | .arrived, .advance =>
      some
        ({ counters with
            activeConnections := counters.activeConnections + 1 },
          .counted counters.activeConnections)
  | .arrived, .exit =>
      some (counters, .finished)
  | .counted cur, .advance =>
      if 0 < limits.maxConnections ∧ limits.maxConnections ≤ cur then
        some (counters, .refused)
      else
        some (counters, .admitted)
  | .admitted, .reach location =>
      if 0 < limits.limitConn location then
        let cur := counters.connCount location
        some
          (counters.setConnCount location (cur + 1), .located location cur)
      else
        some (counters, .holding none)
  | .located location cur, .advance =>
      if limits.limitConn location ≤ cur then
        some (counters, .refusedAt location)
      else
        some (counters, .holding (some location))
  | .refusedAt location, .advance
  | .holding (some location), .exit =>
      some
        (counters.setConnCount location
            (fetchSub (counters.connCount location)),
          .leaving)
  | .holding none, .exit
  | .admitted, .exit =>
      some (counters, .leaving)
  | .refused, .exit
  | .leaving, .exit =>
      some
        ({ counters with
            activeConnections := fetchSub counters.activeConnections },
          .finished)
  | _, _ =>
      none

/-- One step: a request arrives, or one moves. -/
def step
    (limits : Limits Location)
    (state : State Location) :
    Label Location → Option (State Location)
  | .arrive =>
      some { state with requests := state.requests ++ [.arrived] }
  | .move index event =>
      match state.requests[index]? with
      | none =>
          none
      | some phase =>
          (phase.next limits state.counters event).map fun moved =>
            ⟨moved.1, state.requests.set index moved.2⟩

/-- No request yet, and all counters at 0. -/
def initial : State Location :=
  ⟨⟨0, fun _ => 0⟩, []⟩

/-- States that some order of steps leads to. -/
def Reachable
    (limits : Limits Location)
    (state : State Location) :
    Prop :=
  ∃ labels, StepRun.run? (step limits) initial labels = some state

/-! ## What the counters count -/

namespace Phase

/-- `max_connections` is passed, and the request has not finished. -/
def isAdmitted : Phase Location → Bool
  | .admitted | .located _ _ | .refusedAt _ | .holding _ | .leaving =>
      true
  | .arrived | .counted _ | .refused | .finished =>
      false

/-- `active_connections` is increased, and `max_connections` is not passed. -/
def inTransit : Phase Location → Bool
  | .counted _ | .refused =>
      true
  | _ =>
      false

/-- `limit_conn` of the location is passed, and its guard not dropped. -/
def isAdmittedAt (location : Location) : Phase Location → Bool
  | .holding (some held) =>
      held = location
  | _ =>
      false

/-- `conn_count` is increased, and `limit_conn` is not passed. -/
def inTransitAt (location : Location) : Phase Location → Bool
  | .located other _ | .refusedAt other =>
      other = location
  | _ =>
      false

/-- `active_connections` is still to be decreased. -/
def counts (phase : Phase Location) : Bool :=
  phase.isAdmitted || phase.inTransit

/-- `conn_count` of the location is still to be decreased. -/
def countsAt (location : Location) (phase : Phase Location) : Bool :=
  phase.isAdmittedAt location || phase.inTransitAt location

/-- `max_connections` is passed, or will be by the next comparison. -/
def passes (limits : Limits Location) : Phase Location → Bool
  | .counted cur =>
      cur < limits.maxConnections
  | phase =>
      phase.isAdmitted

/-- `limit_conn` is passed, or will be by the next comparison. -/
def passesAt
    (limits : Limits Location)
    (location : Location) :
    Phase Location → Bool
  | .located other cur =>
      other = location && cur < limits.limitConn location
  | phase =>
      phase.isAdmittedAt location

end Phase

/--
At every moment the limits hold, and the counters say what they stand for.
-/
structure Exact
    (limits : Limits Location)
    (state : State Location) :
    Prop where
  maxConnections :
    0 < limits.maxConnections →
      count Phase.isAdmitted state.requests ≤ limits.maxConnections
  limitConn :
    ∀ location,
      0 < limits.limitConn location →
      count (Phase.isAdmittedAt location) state.requests ≤
        limits.limitConn location
  activeConnections :
    state.counters.activeConnections =
      count Phase.isAdmitted state.requests +
        count Phase.inTransit state.requests
  connCount :
    ∀ location,
      state.counters.connCount location =
        count (Phase.isAdmittedAt location) state.requests +
          count (Phase.inTransitAt location) state.requests
  /-- A request that has to decrease a counter finds it above 0. -/
  noWrap :
    ∀ phase ∈ state.requests,
      (phase.counts = true → 0 < state.counters.activeConnections) ∧
        ∀ location,
          phase.countsAt location = true →
          0 < state.counters.connCount location
  idle :
    (∀ phase ∈ state.requests, phase = .arrived ∨ phase = .finished) →
      state.counters.activeConnections = 0 ∧
        ∀ location, state.counters.connCount location = 0

/-! ## One move -/

/-- The moves of a handler, one constructor each. -/
inductive Moves
    (limits : Limits Location)
    (counters : Counters Location) :
    Phase Location → Counters Location → Phase Location → Prop where
  | count :
      Moves limits counters .arrived
        { counters with
          activeConnections := counters.activeConnections + 1 }
        (.counted counters.activeConnections)
  | abandon :
      Moves limits counters .arrived counters .finished
  | refuse
      (cur : Nat)
      (full : 0 < limits.maxConnections ∧ limits.maxConnections ≤ cur) :
      Moves limits counters (.counted cur) counters .refused
  | granted
      (cur : Nat)
      (fits : ¬ (0 < limits.maxConnections ∧ limits.maxConnections ≤ cur)) :
      Moves limits counters (.counted cur) counters .admitted
  | locate
      (location : Location)
      (limited : 0 < limits.limitConn location) :
      Moves limits counters .admitted
        (counters.setConnCount location (counters.connCount location + 1))
        (.located location (counters.connCount location))
  | unlimited
      (location : Location)
      (noLimit : ¬ 0 < limits.limitConn location) :
      Moves limits counters .admitted counters (.holding none)
  | refuseAt
      (location : Location)
      (cur : Nat)
      (full : limits.limitConn location ≤ cur) :
      Moves limits counters (.located location cur) counters
        (.refusedAt location)
  | admitAt
      (location : Location)
      (cur : Nat)
      (fits : ¬ limits.limitConn location ≤ cur) :
      Moves limits counters (.located location cur) counters
        (.holding (some location))
  | undo
      (location : Location) :
      Moves limits counters (.refusedAt location)
        (counters.setConnCount location
          (fetchSub (counters.connCount location)))
        .leaving
  | release
      (location : Location) :
      Moves limits counters (.holding (some location))
        (counters.setConnCount location
          (fetchSub (counters.connCount location)))
        .leaving
  | leave :
      Moves limits counters (.holding none) counters .leaving
  | leaveEarly :
      Moves limits counters .admitted counters .leaving
  | finishRefused :
      Moves limits counters .refused
        { counters with
          activeConnections := fetchSub counters.activeConnections }
        .finished
  | finish :
      Moves limits counters .leaving
        { counters with
          activeConnections := fetchSub counters.activeConnections }
        .finished

section Moves

variable
  {limits : Limits Location}
  {counters after : Counters Location}
  {phase next : Phase Location}
  {event : Event Location}

theorem moves_of_next
    (isNext : phase.next limits counters event = some (after, next)) :
    Moves limits counters phase after next := by
  unfold Phase.next at isNext
  split at isNext
  case h_1 =>
    cases isNext
    exact .count
  case h_2 =>
    cases isNext
    exact .abandon
  case h_3 cur =>
    split at isNext
    case isTrue full =>
      cases isNext
      exact .refuse cur full
    case isFalse fits =>
      cases isNext
      exact .granted cur fits
  case h_4 location =>
    dsimp only at isNext
    split at isNext
    case isTrue limited =>
      cases isNext
      exact .locate location limited
    case isFalse noLimit =>
      cases isNext
      exact .unlimited location noLimit
  case h_5 location cur =>
    split at isNext
    case isTrue full =>
      cases isNext
      exact .refuseAt location cur full
    case isFalse fits =>
      cases isNext
      exact .admitAt location cur fits
  case h_6 location =>
    cases isNext
    exact .undo location
  case h_7 location =>
    cases isNext
    exact .release location
  case h_8 =>
    cases isNext
    exact .leave
  case h_9 =>
    cases isNext
    exact .leaveEarly
  case h_10 =>
    cases isNext
    exact .finishRefused
  case h_11 =>
    cases isNext
    exact .finish
  case h_12 =>
    cases isNext

theorem fetchSub_add_one {counter : Nat} (positive : 0 < counter) :
    fetchSub counter + 1 = counter := by
  cases counter with
  | zero =>
      exact absurd positive (Nat.lt_irrefl 0)
  | succ counter =>
      rfl

/-- A move changes `active_connections` by what it changes in its own share. -/
theorem activeConnections_of_moves
    (moves : Moves limits counters phase after next)
    (positive : phase.counts = true → 0 < counters.activeConnections) :
    after.activeConnections + share Phase.counts phase =
      counters.activeConnections + share Phase.counts next := by
  cases moves with
  | finishRefused =>
      exact fetchSub_add_one (positive rfl)
  | finish =>
      exact fetchSub_add_one (positive rfl)
  | _ =>
      rfl

section Locations

variable {location other : Location}

@[simp] theorem countsAt_located (cur : Nat) :
    (Phase.located other cur).countsAt location = decide (other = location) :=
  Bool.false_or _

@[simp] theorem countsAt_refusedAt :
    (Phase.refusedAt other).countsAt location = decide (other = location) :=
  Bool.false_or _

@[simp] theorem countsAt_holding :
    (Phase.holding (some other)).countsAt location =
      decide (other = location) :=
  Bool.or_false _

@[simp] theorem connCount_setConnCount (count : Nat) :
    (counters.setConnCount other count).connCount location =
      if other = location then
        count
      else
        counters.connCount location := by
  unfold Counters.setConnCount
  by_cases same : other = location
  · subst same
    rw [if_pos rfl]
    exact Function.update_self _ _ _
  · rw [if_neg same]
    exact Function.update_of_ne (fun isOther => same isOther.symm) _ _

end Locations

/-- A move changes `conn_count` by what it changes in its own share. -/
theorem connCount_of_moves
    (moves : Moves limits counters phase after next)
    (location : Location)
    (positive :
      phase.countsAt location = true → 0 < counters.connCount location) :
    after.connCount location + share (Phase.countsAt location) phase =
      counters.connCount location +
        share (Phase.countsAt location) next := by
  have freed (other : Location)
      (positive : other = location → 0 < counters.connCount location) :
      (counters.setConnCount other
            (fetchSub (counters.connCount other))).connCount location +
          (decide (other = location)).toNat =
        counters.connCount location + 0 := by
    by_cases same : other = location
    · have isCount := fetchSub_add_one (positive same)
      subst same
      simpa using isCount
    · simp [same]
  cases moves with
  | locate other limited =>
      by_cases same : other = location
      · subst same
        simp [share, Phase.countsAt, Phase.isAdmittedAt, Phase.inTransitAt]
      · simp [share, same, Phase.countsAt, Phase.isAdmittedAt,
          Phase.inTransitAt]
  | refuseAt other cur full =>
      simp [share]
  | admitAt other cur fits =>
      simp [share]
  | undo other =>
      simp only [share, countsAt_refusedAt]
      exact freed other fun same => positive (by simp [same])
  | release other =>
      simp only [share, countsAt_holding]
      exact freed other fun same => positive (by simp [same])
  | _ =>
      rfl

/-- Only an increase below the limit makes a request that passes. -/
theorem passes_of_moves
    (moves : Moves limits counters phase after next)
    (limited : 0 < limits.maxConnections)
    (passes : next.passes limits = true) :
    phase.passes limits = true ∨
      counters.activeConnections < limits.maxConnections := by
  cases moves with
  | count =>
      exact .inr (of_decide_eq_true passes)
  | abandon =>
      cases passes
  | refuse cur full =>
      cases passes
  | granted cur fits =>
      left
      apply decide_eq_true
      exact Nat.lt_of_not_le fun full => fits ⟨limited, full⟩
  | finishRefused =>
      cases passes
  | finish =>
      cases passes
  | _ =>
      exact .inl rfl

/-- The same for a location. -/
theorem passesAt_of_moves
    (moves : Moves limits counters phase after next)
    {location : Location}
    (passes : next.passesAt limits location = true) :
    phase.passesAt limits location = true ∨
      counters.connCount location < limits.limitConn location := by
  cases moves with
  | locate other limited =>
      obtain ⟨same, fits⟩ := (Bool.and_eq_true _ _).mp passes
      obtain rfl := of_decide_eq_true same
      exact .inr (of_decide_eq_true fits)
  | admitAt other cur fits =>
      left
      obtain rfl := of_decide_eq_true passes
      have isLess := Nat.lt_of_not_le fits
      simp [Phase.passesAt, isLess]
  | _ =>
      cases passes

end Moves

/-! ## Whole runs -/

/-- What every step keeps. -/
structure Kept
    (limits : Limits Location)
    (state : State Location) :
    Prop where
  activeConnections :
    state.counters.activeConnections = count Phase.counts state.requests
  connCount :
    ∀ location,
      state.counters.connCount location =
        count (Phase.countsAt location) state.requests
  maxConnections :
    0 < limits.maxConnections →
      count (Phase.passes limits) state.requests ≤ limits.maxConnections
  limitConn :
    ∀ location,
      count (Phase.passesAt limits location) state.requests ≤
        limits.limitConn location

section Runs

variable
  {limits : Limits Location}
  {state : State Location}

theorem kept_initial : Kept limits initial where
  activeConnections := rfl
  connCount _ := rfl
  maxConnections _ := Nat.zero_le _
  limitConn _ := Nat.zero_le _

theorem Kept.arrive (kept : Kept limits state) :
    Kept limits
      { state with requests := state.requests ++ [.arrived] } where
  activeConnections :=
    (count_start _ _ _).symm ▸ kept.activeConnections
  connCount location :=
    (count_start _ _ _).symm ▸ kept.connCount location
  maxConnections limited :=
    (count_start _ _ _).symm ▸ kept.maxConnections limited
  limitConn location :=
    (count_start _ _ _).symm ▸ kept.limitConn location

omit [DecidableEq Location] in
theorem counts_of_passes
    (phase : Phase Location)
    (passes : phase.passes limits = true) :
    phase.counts = true := by
  cases phase <;> first | rfl | cases passes

theorem countsAt_of_passesAt
    {location : Location}
    (phase : Phase Location)
    (passes : phase.passesAt limits location = true) :
    phase.countsAt location = true := by
  cases phase with
  | located other cur =>
      rw [countsAt_located]
      exact ((Bool.and_eq_true _ _).mp passes).1
  | holding guard =>
      cases guard with
      | none =>
          cases passes
      | some other =>
          rw [countsAt_holding]
          exact passes
  | _ =>
      cases passes

theorem Kept.move
    {index : Nat}
    {after : Counters Location}
    {phase next : Phase Location}
    (kept : Kept limits state)
    (isRequest : state.requests[index]? = some phase)
    (moves : Moves limits state.counters phase after next) :
    Kept limits ⟨after, state.requests.set index next⟩ := by
  constructor
  · have positive (counts : phase.counts = true) :
        0 < state.counters.activeConnections := by
      rw [kept.activeConnections]
      exact count_pos_of_holds isRequest counts
    have isCount := activeConnections_of_moves moves positive
    have moved := count_move Phase.counts isRequest next
    rw [kept.activeConnections, ← moved] at isCount
    exact Nat.add_right_cancel isCount
  · intro location
    have positive (counts : phase.countsAt location = true) :
        0 < state.counters.connCount location := by
      rw [kept.connCount location]
      exact count_pos_of_holds isRequest counts
    have isCount := connCount_of_moves moves location positive
    have moved := count_move (Phase.countsAt location) isRequest next
    rw [kept.connCount location, ← moved] at isCount
    exact Nat.add_right_cancel isCount
  · intro limited
    apply count_move_le isRequest (kept.maxConnections limited)
    intro passes
    rcases passes_of_moves moves limited passes with before | fewer
    · exact .inl before
    · right
      rw [kept.activeConnections] at fewer
      have notMore :=
        count_le_count (@counts_of_passes _ limits) state.requests
      exact Nat.lt_of_le_of_lt notMore fewer
  · intro location
    apply count_move_le isRequest (kept.limitConn location)
    intro passes
    rcases passesAt_of_moves moves passes with before | fewer
    · exact .inl before
    · right
      rw [kept.connCount location] at fewer
      have notMore :=
        count_le_count (@countsAt_of_passesAt _ _ limits location)
          state.requests
      exact Nat.lt_of_le_of_lt notMore fewer

theorem Kept.step
    {label : Label Location}
    {after : State Location}
    (kept : Kept limits state)
    (taken : step limits state label = some after) :
    Kept limits after := by
  cases label with
  | arrive =>
      cases taken
      exact kept.arrive
  | move index event =>
      unfold ConnectionLimits.step at taken
      dsimp only at taken
      split at taken
      · cases taken
      · rename_i phase isRequest
        obtain ⟨⟨counters, next⟩, isNext, rfl⟩ :=
          Option.map_eq_some_iff.mp taken
        exact kept.move isRequest (moves_of_next isNext)

omit [DecidableEq Location] in
theorem passes_of_isAdmitted
    (phase : Phase Location)
    (isAdmitted : phase.isAdmitted = true) :
    phase.passes limits = true := by
  cases phase <;> first | rfl | cases isAdmitted

theorem passesAt_of_isAdmittedAt
    {location : Location}
    (phase : Phase Location)
    (isAdmitted : phase.isAdmittedAt location = true) :
    phase.passesAt limits location = true := by
  cases phase <;> first | exact isAdmitted | cases isAdmitted

theorem Kept.exact (kept : Kept limits state) : Exact limits state where
  maxConnections limited :=
    Nat.le_trans (count_le_count passes_of_isAdmitted state.requests)
      (kept.maxConnections limited)
  limitConn location _ :=
    Nat.le_trans (count_le_count passesAt_of_isAdmittedAt state.requests)
      (kept.limitConn location)
  activeConnections := by
    rw [kept.activeConnections]
    apply count_eq_add
    intro phase
    cases phase <;> rfl
  connCount location := by
    rw [kept.connCount location]
    apply count_eq_add
    intro phase
    cases phase with
    | located other cur =>
        simp [share, Phase.isAdmittedAt, Phase.inTransitAt]
    | refusedAt other =>
        simp [share, Phase.isAdmittedAt, Phase.inTransitAt]
    | holding guard =>
        cases guard with
        | none =>
            rfl
        | some other =>
            simp [share, Phase.isAdmittedAt, Phase.inTransitAt]
    | _ =>
        rfl
  noWrap := by
    intro phase isRequest
    obtain ⟨index, isAt⟩ := List.mem_iff_getElem?.mp isRequest
    constructor
    · intro counts
      rw [kept.activeConnections]
      exact count_pos_of_holds isAt counts
    · intro location counts
      rw [kept.connCount location]
      exact count_pos_of_holds isAt counts
  idle := by
    intro areIdle
    constructor
    · rw [kept.activeConnections]
      apply List.countP_eq_zero.mpr
      intro phase isRequest counts
      rcases areIdle phase isRequest with rfl | rfl
      · cases counts
      · cases counts
    · intro location
      rw [kept.connCount location]
      apply List.countP_eq_zero.mpr
      intro phase isRequest counts
      rcases areIdle phase isRequest with rfl | rfl
      · cases counts
      · cases counts

end Runs

/-- Whatever the order of the steps, admission is exact. -/
theorem exact_of_reachable
    (limits : Limits Location)
    (state : State Location)
    (reachable : Reachable limits state) :
    Exact limits state := by
  obtain ⟨labels, accepted⟩ := reachable
  have kept : Kept limits state :=
    StepRun.invariant_of_run Kept.step kept_initial accepted
  exact kept.exact

end Machine

/--
Two requests for one place: one is admitted, the other is refused and leaves.
-/
theorem exact_of_reachable_two :
    Exact ⟨1, fun _ : Unit => 1⟩
      ⟨⟨1, fun _ => 1⟩, [.holding (some ()), .finished]⟩ :=
  exact_of_reachable _ _
    ⟨[.arrive, .arrive, .move 0 .advance, .move 1 .advance,
        .move 0 .advance, .move 0 (.reach ()), .move 0 .advance,
        .move 1 .advance, .move 1 .exit],
      rfl⟩

end Sweety.ConnectionLimits
