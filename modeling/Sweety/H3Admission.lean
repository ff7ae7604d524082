import Mathlib.Algebra.GroupWithZero.Nat
import Sweety.CountedTasks
import Sweety.NotifyQueue
import Sweety.StepRun

namespace Sweety.H3Admission

open CountedTasks StepRun

/-!
# How many HTTP/3 connections are served at a time

Model of the admission of QUIC connections in the `service.rs` of the http core:
`set_h3_max_connections`, `h3_conn_limit`, `h3_conn_acquire` and
`h3_conn_release` over the atomic accesses of any number of connections, and
`detect_max_h3_handlers` of `h3/service.rs`.

Creating `notified()` and polling it for the first time is one step: what comes
in between could as well have come just behind.
-/

/-! ## The counters -/

/--
`detect_max_h3_handlers`, given the memory that is available in bytes and the
number of workers.
-/
def detectMaxH3Handlers (availMemBytes numWorkers : Nat) : Nat :=
  let budget := availMemBytes * 4 % 2 ^ 64 / 5
  let total := budget / (16 * 1024 * 1024)
  let perWorker := total / max numWorkers 1
  min (max perWorker 4) 65536

theorem detectMaxH3Handlers_pos (availMemBytes numWorkers : Nat) :
    0 < detectMaxH3Handlers availMemBytes numWorkers := by
  unfold detectMaxH3Handlers
  dsimp only
  omega

/-- Where the task of a connection is, or a call that sets the limit. -/
inductive Phase where
  /-- Before `h3_conn_acquire`. -/
  | arrived
  /-- At the beginning of the loop, before the load of the limit. -/
  | looping
  /-- The limit was 0: before `compare_exchange`. -/
  | detecting
  /-- Before the load of the active connections. -/
  | limited (limit : Nat)
  /-- Before `compare_exchange_weak`. -/
  | fits (active : Nat)
  /-- Before `notified`. -/
  | full
  | sleeping
  /-- Woken: by `notify_one`, or with all by `notify_waiters`. -/
  | woken (byOne : Bool)
  /-- The connection is served. -/
  | holding
  /-- Behind `fetch_sub`, before `notify_one`. -/
  | releasing
  | finished
  /-- The task has ended while it was serving, without a release. -/
  | lost
  /-- The task has been dropped while it was waiting. -/
  | cancelled
  /-- In `set_h3_max_connections`, before `notify_waiters`. -/
  | raising
  deriving Repr, DecidableEq

/-- The statics, and all tasks so far. -/
structure State where
  /-- `H3_CONN_LIMIT`. -/
  limit : Nat
  /-- `H3_CONN_ACTIVE`. -/
  active : Nat
  /-- `H3_CONN_NOTIFY`. -/
  notify : Option Notify
  tasks : List Phase
  deriving Repr, DecidableEq

def initial : State where
  limit := 0
  active := 0
  notify := none
  tasks := []

/-- What a task, or the server, does next. -/
inductive Label where
  | connect
  /-- `set_h3_max_connections`, up to the swap. -/
  | set (max availMemBytes numWorkers : Nat)
  /-- A task performs its next atomic access. -/
  | proceed (index : Nat)
  /-- `compare_exchange`, with the limit that is detected. -/
  | detect (index availMemBytes numWorkers : Nat)
  /-- `compare_exchange_weak` fails without a reason. -/
  | fail (index : Nat)
  /-- The future of the connection is dropped, or panics. -/
  | drop (index : Nat)
  deriving Repr, DecidableEq

namespace State

/-- A task goes on at another point. -/
def move (state : State) (index : Nat) (next : Phase) : State :=
  { state with tasks := state.tasks.set index next }

/-- `notify_one`, if there is anything to notify. -/
def notifyOne (state : State) : State :=
  match state.notify with
  | none =>
      state
  | some notify =>
      match notify.notifyOne with
      | (none, after) =>
          { state with notify := some after }
      | (some index, after) =>
          { state with notify := some after }.move index (.woken true)

/-- What `notify_waiters` makes of a task. -/
def wake : Phase → Phase
  | .sleeping =>
      .woken false
  | phase =>
      phase

/-- `notify_waiters`, if there is anything to notify. -/
def notifyWaiters (state : State) : State :=
  match state.notify with
  | none =>
      state
  | some notify =>
      { state with
        notify := some notify.notifyWaiters
        tasks := state.tasks.map wake }

/-- `notified().await`, up to where it is pending. -/
def wait (state : State) (index : Nat) : Option State :=
  match state.notify with
  | none =>
      none
  | some notify =>
      match notify.wait index with
      | (true, after) =>
          some ({ state with notify := some after }.move index .looping)
      | (false, after) =>
          some ({ state with notify := some after }.move index .sleeping)

/-- `fetch_sub`, which wraps around. -/
def fetchSub (state : State) : State :=
  { state with
    active := if state.active = 0 then 2 ^ 64 - 1 else state.active - 1 }

/-- The next atomic access of a task at this point. -/
def proceed (state : State) (index : Nat) : Phase → Option State
  | .arrived =>
      some ({ state with notify := some (state.notify.getD .new) }.move
        index .looping)
  | .looping =>
      if state.limit ≠ 0 then
        some (state.move index (.limited state.limit))
      else
        some (state.move index .detecting)
  | .limited limit =>
      if state.active < limit then
        some (state.move index (.fits state.active))
      else
        some (state.move index .full)
  | .fits active =>
      if state.active = active then
        some ({ state with active := active + 1 }.move index .holding)
      else
        some (state.move index .looping)
  | .full =>
      state.wait index
  | .woken _ =>
      some (state.move index .looping)
  | .holding =>
      some (state.fetchSub.move index .releasing)
  | .releasing =>
      some (state.move index .finished).notifyOne
  | .raising =>
      some (state.move index .finished).notifyWaiters
  | .detecting | .sleeping | .finished | .lost | .cancelled =>
      none

/-- `compare_exchange` of the limit with 0. -/
def detect (state : State) (index detected : Nat) : Phase → Option State
  | .detecting =>
      if state.limit = 0 then
        some ({ state with limit := detected }.move index (.limited detected))
      else
        some (state.move index (.limited state.limit))
  | _ =>
      none

/--
The task ends at an `await`.  One that `notify_one` has woken, and that has not
run since, passes the notification on.
-/
def drop (state : State) (index : Nat) : Phase → Option State
  | .sleeping =>
      match state.notify with
      | none =>
          none
      | some notify =>
          some ({ state with notify := some (notify.leave index) }.move index
            .cancelled)
  | .woken true =>
      some (state.move index .cancelled).notifyOne
  | .woken false =>
      some (state.move index .cancelled)
  | .holding =>
      some (state.move index .lost)
  | _ =>
      none

/-- The swap of `set_h3_max_connections`. -/
def swapLimit (state : State) (max : Nat) : State :=
  { state with
    limit := max
    tasks :=
      state.tasks ++
        [if state.limit < max then .raising else .finished] }

end State

def step (state : State) : Label → Option State
  | .connect =>
      some { state with tasks := state.tasks ++ [.arrived] }
  | .set max availMemBytes numWorkers =>
      some (state.swapLimit
        (if max = 0 then
          detectMaxH3Handlers availMemBytes numWorkers
        else
          max))
  | .proceed index =>
      state.tasks[index]?.bind (state.proceed index)
  | .detect index availMemBytes numWorkers =>
      state.tasks[index]?.bind
        (state.detect index (detectMaxH3Handlers availMemBytes numWorkers))
  | .fail index =>
      match state.tasks[index]? with
      | some (.fits _) =>
          some (state.move index .looping)
      | _ =>
          none
  | .drop index =>
      state.tasks[index]?.bind (state.drop index)

/-! ## What is wanted -/

/-- The task has a slot, or has ended with one. -/
def Phase.hasSlot : Phase → Bool
  | .holding | .lost =>
      true
  | _ =>
      false

/-- The task sleeps. -/
def Phase.sleeps : Phase → Bool
  | .sleeping =>
      true
  | _ =>
      false

/-- The task has found no slot. -/
def Phase.waits : Phase → Bool
  | .full | .sleeping =>
      true
  | _ =>
      false

/-- The task is served, or is going to look for a slot, or to notify. -/
def Phase.stirs : Phase → Bool
  | .looping | .detecting | .limited _ | .fits _ | .woken true | .holding
  | .releasing =>
      true
  | _ =>
      false

/-- The task stirs, or it has ended with a slot. -/
def Phase.counts (phase : Phase) : Bool :=
  phase.stirs || phase.hasSlot

/-- The task has called `h3_conn_acquire`. -/
def Phase.hasBegun : Phase → Bool
  | .arrived | .finished | .raising =>
      false
  | _ =>
      true

/-- What the task has read is within a bound. -/
def Phase.Within (bound : Nat) : Phase → Prop
  | .limited limit =>
      0 < limit ∧ limit ≤ bound
  | .fits active =>
      active < bound
  | _ =>
      True

/-- The notification, which is a new one as long as there is none. -/
def State.queue (state : State) : Notify :=
  state.notify.getD .new

/-- The counters and the queue say what the tasks are at. -/
structure Sound (bound : Nat) (state : State) : Prop where
  tracks : Notify.Tracks Phase.sleeps state.queue state.tasks
  begun : state.notify = none → count Phase.hasBegun state.tasks = 0
  active : state.active = count Phase.hasSlot state.tasks
  limit : state.limit ≤ bound
  fits : state.active ≤ bound
  within : ∀ task ∈ state.tasks, task.Within bound

/-- What holds between any two steps, for limits up to a bound. -/
structure Keeps (bound : Nat) (state : State) : Prop extends
    Sound bound state where
  awake :
    0 < count Phase.waits state.tasks →
    state.queue.permit = true ∨ 0 < count Phase.counts state.tasks

theorem keeps_initial (bound : Nat) : Keeps bound initial where
  tracks := Notify.tracks_new _
  begun := fun _ => rfl
  active := rfl
  limit := Nat.zero_le bound
  fits := Nat.zero_le bound
  within := nofun
  awake := nofun

/-! ## One task moves -/

section OneTask

variable
  {bound : Nat}
  {state : State}
  {index : Nat}
  {task next : Phase}

theorem within_set
    (within : ∀ task ∈ state.tasks, task.Within bound)
    (nextWithin : next.Within bound) :
    ∀ task ∈ state.tasks.set index next, task.Within bound := by
  intro other isTask
  rcases List.mem_or_eq_of_mem_set isTask with isOld | rfl
  · exact within other isOld
  · exact nextWithin

/-- A count does not grow when a task moves to where it is not counted. -/
theorem count_set_le
    {holds : Phase → Bool}
    (isTask : state.tasks[index]? = some task)
    (still : holds next = true → holds task = true) :
    count holds (state.tasks.set index next) ≤ count holds state.tasks := by
  have moved := count_move holds isTask next
  cases isNext : holds next with
  | false =>
      rw [share_of_not isNext] at moved
      exact Nat.le.intro moved
  | true =>
      rw [share_of_holds isNext, share_of_holds (still isNext)] at moved
      omega

/-- A count does not shrink when the task that moves is counted no less. -/
theorem count_le_set
    {holds : Phase → Bool}
    (isTask : state.tasks[index]? = some task)
    (still : holds task = true → holds next = true) :
    count holds state.tasks ≤ count holds (state.tasks.set index next) := by
  have moved := count_move holds isTask next
  cases isTaskCounted : holds task with
  | false =>
      rw [share_of_not isTaskCounted] at moved
      omega
  | true =>
      rw [share_of_holds isTaskCounted, share_of_holds (still isTaskCounted)]
        at moved
      omega

theorem count_set_pos
    {holds : Phase → Bool}
    (isTask : state.tasks[index]? = some task)
    (isCounted : holds next = true) :
    0 < count holds (state.tasks.set index next) := by
  have inRange := (List.getElem?_eq_some_iff.mp isTask).1
  exact count_pos_of_holds (List.getElem?_set_self inRange) isCounted

/-- Something counts already where a slot is taken. -/
theorem counts_of_hasSlot
    {tasks : List Phase}
    (isTaken : 0 < count Phase.hasSlot tasks) :
    0 < count Phase.counts tasks := by
  apply Nat.lt_of_lt_of_le isTaken
  apply count_le_count
  intro phase hasSlot
  simp [Phase.counts, hasSlot]

/-- The counters keep their meaning when a task moves from point to point. -/
structure Moves
    (bound : Nat)
    (before : State)
    (task next : Phase)
    (after : State) :
    Prop where
  active :
    after.active + share Phase.hasSlot task =
      before.active + share Phase.hasSlot next
  begun :
    after.notify = none →
    before.notify = none ∧ (next.hasBegun = true → task.hasBegun = true)
  limit : after.limit ≤ bound
  fits : after.active ≤ bound
  within : next.Within bound

/-- A move keeps the counters right if the queue follows. -/
theorem Sound.of_moves
    {after : State}
    (sound : Sound bound state)
    (isTask : state.tasks[index]? = some task)
    (isAfter : after.tasks = state.tasks.set index next)
    (moves : Moves bound state task next after)
    (tracks :
      Notify.Tracks Phase.sleeps after.queue
        (state.tasks.set index next)) :
    Sound bound after := by
  have counted := count_move Phase.hasSlot isTask next
  have active := moves.active
  have wasActive := sound.active
  refine ⟨isAfter ▸ tracks, ?_, ?_, moves.limit, moves.fits, ?_⟩
  · intro isNone
    obtain ⟨wasNone, still⟩ := moves.begun isNone
    have fewer := count_set_le isTask still
    have noneBegun := sound.begun wasNone
    rw [isAfter]
    omega
  · rw [isAfter]
    omega
  · rw [isAfter]
    exact within_set sound.within moves.within

/-- A task that is awake before and after, with the queue unchanged. -/
theorem Sound.of_awake
    {after : State}
    (sound : Sound bound state)
    (isTask : state.tasks[index]? = some task)
    (isAfter : after.tasks = state.tasks.set index next)
    (sameQueue : after.queue = state.queue)
    (moves : Moves bound state task next after)
    (wasAwake : task.sleeps = false)
    (isAwake : next.sleeps = false) :
    Sound bound after := by
  apply sound.of_moves isTask isAfter moves
  rw [sameQueue]
  exact sound.tracks.move isTask wasAwake isAwake

/-- A task that goes on, and counts. -/
theorem Keeps.of_counts
    {after : State}
    (keeps : Keeps bound state)
    (isTask : state.tasks[index]? = some task)
    (isAfter : after.tasks = state.tasks.set index next)
    (sameQueue : after.queue = state.queue)
    (moves : Moves bound state task next after)
    (wasAwake : task.sleeps = false)
    (isAwake : next.sleeps = false)
    (counts : next.counts = true) :
    Keeps bound after := by
  refine ⟨keeps.toSound.of_awake isTask isAfter sameQueue moves wasAwake
    isAwake, ?_⟩
  intro _
  rw [isAfter]
  exact .inr (count_set_pos isTask counts)

/-- A task that did not count, and waits no more than before. -/
theorem awake_set
    (keeps : Keeps bound state)
    (isTask : state.tasks[index]? = some task)
    (notCounted : task.counts = false)
    (still : next.waits = true → task.waits = true)
    (waits : 0 < count Phase.waits (state.tasks.set index next)) :
    state.queue.permit = true ∨
      0 < count Phase.counts (state.tasks.set index next) := by
  have fewer := count_set_le isTask still
  rcases keeps.awake (by omega) with isPermit | counted
  · exact .inl isPermit
  · right
    apply Nat.lt_of_lt_of_le counted
    apply count_le_set isTask
    intro isCounted
    rw [notCounted] at isCounted
    cases isCounted

end OneTask

/-! ## Notifications -/

section Notifications

variable
  {bound : Nat}
  {state : State}

/-- Whoever calls `notify_one`, somebody is awake behind it. -/
theorem Sound.notifyOne (sound : Sound bound state) :
    Keeps bound state.notifyOne := by
  have tracks := sound.tracks
  unfold State.notifyOne
  cases isNotify : state.notify with
  | none =>
      dsimp only
      refine ⟨sound, ?_⟩
      intro waits
      have noneBegun := sound.begun isNotify
      have fewer :
          count Phase.waits state.tasks ≤
            count Phase.hasBegun state.tasks := by
        apply count_le_count
        intro phase
        cases phase <;> simp [Phase.waits, Phase.hasBegun]
      omega
  | some notify =>
      simp only [State.queue, isNotify, Option.getD_some] at tracks
      cases isQueue : notify.waiters with
      | nil =>
          simp only [Notify.notifyOne, isQueue]
          refine ⟨⟨?_, nofun, sound.active,
            sound.limit, sound.fits, sound.within⟩, fun _ => .inl rfl⟩
          exact isQueue ▸ tracks.leavePermit isQueue
      | cons index rest =>
          simp only [Notify.notifyOne, isQueue]
          obtain ⟨task, isTask, sleeps, moved⟩ :=
            @Notify.Tracks.wakeFirst _ _ _ _ (Phase.woken true) _ _
              tracks isQueue rfl
          cases task <;> simp only [Phase.sleeps, Bool.false_eq_true] at sleeps
          refine ⟨sound.of_moves isTask rfl ⟨rfl, nofun,
            sound.limit, sound.fits, trivial⟩ moved, ?_⟩
          intro _
          exact .inr (count_set_pos isTask rfl)

theorem count_map_wake
    {holds : Phase → Bool}
    (same : ∀ phase, holds (State.wake phase) = holds phase)
    (tasks : List Phase) :
    count holds (tasks.map State.wake) = count holds tasks := by
  induction tasks with
  | nil =>
      rfl
  | cons task others inductionHypothesis =>
      simp only [List.map_cons, count_cons, inductionHypothesis, share, same]

theorem count_waits_map_wake (tasks : List Phase) :
    count Phase.waits (tasks.map State.wake) ≤ count Phase.waits tasks := by
  induction tasks with
  | nil =>
      exact Nat.le_refl 0
  | cons task others inductionHypothesis =>
      have less :
          share Phase.waits (State.wake task) ≤ share Phase.waits task := by
        cases task <;> simp [State.wake, share, Phase.waits]
      simp only [List.map_cons, count_cons]
      omega

/-- Waking all keeps the invariant. -/
theorem Keeps.notifyWaiters (keeps : Keeps bound state) :
    Keeps bound state.notifyWaiters := by
  unfold State.notifyWaiters
  cases isNotify : state.notify with
  | none =>
      exact keeps
  | some notify =>
      have hasSlot :
          ∀ phase, (State.wake phase).hasSlot = phase.hasSlot := by
        intro phase
        cases phase <;> rfl
      have counts :
          ∀ phase, (State.wake phase).counts = phase.counts := by
        intro phase
        cases phase <;> rfl
      have awake := keeps.awake
      simp only [State.queue, isNotify, Option.getD_some] at awake
      dsimp only
      refine ⟨⟨?_, nofun, ?_, keeps.limit, keeps.fits,
        ?_⟩, ?_⟩
      · apply Notify.tracks_notifyWaiters
        intro phase
        cases phase <;> rfl
      · simp only [count_map_wake hasSlot]
        exact keeps.active
      · intro phase isTask
        obtain ⟨task, isOld, rfl⟩ := List.mem_map.mp isTask
        have within := keeps.within task isOld
        cases task <;> exact within
      · intro waits
        simp only [count_map_wake counts]
        apply awake
        exact Nat.lt_of_lt_of_le waits (count_waits_map_wake state.tasks)

end Notifications

/-! ## One step -/

section OneStep

variable
  {bound : Nat}
  {state after : State}
  {index : Nat}
  {task : Phase}

/-- A new task. -/
theorem Keeps.start
    (keeps : Keeps bound state)
    {limit : Nat}
    (isWithin : limit ≤ bound)
    (awake : task.sleeps = false)
    (noSlot : task.hasSlot = false)
    (notBegun : task.hasBegun = false)
    (notWaiting : task.waits = false)
    (within : task.Within bound) :
    Keeps bound
      { state with limit := limit, tasks := state.tasks ++ [task] } := by
  refine ⟨⟨keeps.tracks.start awake, ?_, ?_, isWithin, keeps.fits, ?_⟩, ?_⟩
  · intro isNone
    simp only [count_start, share_of_not notBegun, keeps.begun isNone]
  · simp only [count_start, share_of_not noSlot]
    exact keeps.active
  · intro other isOther
    rcases List.mem_append.mp isOther with isOld | isNew
    · exact keeps.within other isOld
    · rw [List.mem_singleton] at isNew
      exact isNew ▸ within
  · intro waits
    simp only [count_start, share_of_not notWaiting] at waits ⊢
    rcases keeps.awake waits with isPermit | counted
    · exact .inl isPermit
    · right
      omega

theorem Keeps.swapLimit
    {max : Nat}
    (keeps : Keeps bound state)
    (isWithin : max ≤ bound) :
    Keeps bound (state.swapLimit max) := by
  unfold State.swapLimit
  split
  · exact keeps.start isWithin rfl rfl rfl rfl trivial
  · exact keeps.start isWithin rfl rfl rfl rfl trivial

/-- A task that goes on with the statics unchanged. -/
theorem moves_of_same
    {next : Phase}
    (keeps : Keeps bound state)
    (sameSlot : next.hasSlot = task.hasSlot)
    (begun : next.hasBegun = true → task.hasBegun = true)
    (within : next.Within bound) :
    Moves bound state task next (state.move index next) where
  active := by simp only [State.move, share, sameSlot]
  begun := fun isNone => ⟨isNone, begun⟩
  limit := keeps.limit
  fits := keeps.fits
  within := within

theorem Keeps.proceed
    (keeps : Keeps bound state)
    (isTask : state.tasks[index]? = some task)
    (goesOn : state.proceed index task = some after) :
    Keeps bound after := by
  have within := keeps.within task (List.mem_of_getElem? isTask)
  cases task with
  | arrived =>
      cases goesOn
      exact keeps.of_counts isTask rfl rfl
        ⟨rfl, nofun, keeps.limit, keeps.fits, trivial⟩
        rfl rfl rfl
  | looping =>
      simp only [State.proceed] at goesOn
      split at goesOn
      · next isSet =>
          cases goesOn
          exact keeps.of_counts isTask rfl rfl
            (moves_of_same keeps rfl (fun _ => rfl)
              ⟨Nat.pos_of_ne_zero isSet, keeps.limit⟩) rfl rfl rfl
      · cases goesOn
        exact keeps.of_counts isTask rfl rfl
          (moves_of_same keeps rfl (fun _ => rfl) trivial) rfl rfl rfl
  | limited limit =>
      simp only [State.proceed] at goesOn
      split at goesOn
      · next isLess =>
          cases goesOn
          exact keeps.of_counts isTask rfl rfl
            (moves_of_same keeps rfl (fun _ => rfl)
              (Nat.lt_of_lt_of_le isLess within.2)) rfl rfl rfl
      · next isFull =>
          cases goesOn
          refine ⟨keeps.toSound.of_awake isTask rfl rfl
            (moves_of_same keeps rfl (fun _ => rfl) trivial) rfl rfl, ?_⟩
          -- Nobody found the slots taken while none was.
          intro _
          right
          apply counts_of_hasSlot
          have positive := within.1
          have active := keeps.active
          have same :
              count Phase.hasSlot state.tasks ≤
                count Phase.hasSlot (state.tasks.set index .full) :=
            count_le_set isTask nofun
          exact Nat.lt_of_lt_of_le (by omega) same
  | fits expected =>
      simp only [State.proceed] at goesOn
      split at goesOn
      · next isActive =>
          cases goesOn
          exact keeps.of_counts isTask rfl rfl
            ⟨by simp only [State.move, isActive]; rfl,
              fun isNone => ⟨isNone, fun _ => rfl⟩, keeps.limit, within,
              trivial⟩
            rfl rfl rfl
      · cases goesOn
        exact keeps.of_counts isTask rfl rfl
          (moves_of_same keeps rfl (fun _ => rfl) trivial) rfl rfl rfl
  | full =>
      simp only [State.proceed, State.wait] at goesOn
      cases isNotify : state.notify with
      | none =>
          simp [isNotify] at goesOn
      | some notify =>
          have tracks := keeps.tracks
          have awake := keeps.awake
          simp only [State.queue, isNotify, Option.getD_some] at tracks awake
          cases isPermit : notify.permit with
          | true =>
              simp only [isNotify, Notify.wait, isPermit, if_true] at goesOn
              cases goesOn
              refine ⟨keeps.toSound.of_moves isTask rfl
                ⟨rfl, nofun, keeps.limit, keeps.fits,
                  trivial⟩ (tracks.takePermit isTask rfl rfl), ?_⟩
              intro _
              exact .inr (count_set_pos isTask rfl)
          | false =>
              simp only [isNotify, Notify.wait, isPermit,
                Bool.false_eq_true, if_false] at goesOn
              cases goesOn
              have falls :
                  Notify.Tracks Phase.sleeps
                    { notify with waiters := notify.waiters ++ [index] }
                    (state.tasks.set index .sleeping) :=
                tracks.sleep isTask rfl rfl isPermit
              simp only [isPermit] at falls
              refine ⟨keeps.toSound.of_moves isTask rfl
                ⟨rfl, nofun, keeps.limit, keeps.fits, trivial⟩
                falls, ?_⟩
              intro _
              right
              have waited : 0 < count Phase.waits state.tasks :=
                count_pos_of_holds isTask rfl
              rcases awake waited with wasPermit | counted
              · rw [isPermit] at wasPermit
                cases wasPermit
              · exact Nat.lt_of_lt_of_le counted
                  (count_le_set isTask nofun)
  | woken byOne =>
      cases goesOn
      exact keeps.of_counts isTask rfl rfl
        (moves_of_same keeps rfl (fun _ => rfl) trivial) rfl rfl rfl
  | holding =>
      cases goesOn
      have isTaken : 0 < count Phase.hasSlot state.tasks :=
        count_pos_of_holds isTask rfl
      have active := keeps.active
      have fits := keeps.fits
      refine keeps.of_counts isTask rfl rfl
        ⟨?_, fun isNone => ⟨isNone, fun _ => rfl⟩, keeps.limit, ?_, trivial⟩
        rfl rfl rfl
      · simp only [State.fetchSub, State.move, share, Phase.hasSlot,
          Bool.toNat_true, Bool.toNat_false]
        split <;> omega
      · simp only [State.fetchSub, State.move]
        split <;> omega
  | releasing =>
      cases goesOn
      have sound : Sound bound (state.move index .finished) :=
        keeps.toSound.of_awake isTask rfl rfl
          (moves_of_same keeps rfl (absurd · Bool.false_ne_true) trivial)
          rfl rfl
      exact sound.notifyOne
  | raising =>
      cases goesOn
      have sound : Sound bound (state.move index .finished) :=
        keeps.toSound.of_awake isTask rfl rfl
          (moves_of_same keeps rfl (absurd · Bool.false_ne_true) trivial)
          rfl rfl
      have moved : Keeps bound (state.move index .finished) :=
        ⟨sound, awake_set keeps isTask rfl
          (absurd · Bool.false_ne_true)⟩
      exact moved.notifyWaiters
  | detecting | sleeping | finished | lost | cancelled =>
      cases goesOn

theorem Keeps.detect
    {detected : Nat}
    (keeps : Keeps bound state)
    (isTask : state.tasks[index]? = some task)
    (positive : 0 < detected)
    (isWithin : detected ≤ bound)
    (goesOn : state.detect index detected task = some after) :
    Keeps bound after := by
  cases task with
  | detecting =>
      simp only [State.detect] at goesOn
      split at goesOn
      · cases goesOn
        exact keeps.of_counts isTask rfl rfl
          ⟨rfl, fun isNone => ⟨isNone, fun _ => rfl⟩, isWithin, keeps.fits,
            ⟨positive, isWithin⟩⟩ rfl rfl rfl
      · next isSet =>
          cases goesOn
          exact keeps.of_counts isTask rfl rfl
            (moves_of_same keeps rfl (fun _ => rfl)
              ⟨Nat.pos_of_ne_zero isSet, keeps.limit⟩) rfl rfl rfl
  | _ =>
      cases goesOn

theorem Keeps.drop
    (keeps : Keeps bound state)
    (isTask : state.tasks[index]? = some task)
    (goesOn : state.drop index task = some after) :
    Keeps bound after := by
  cases task with
  | sleeping =>
      simp only [State.drop] at goesOn
      cases isNotify : state.notify with
      | none =>
          simp [isNotify] at goesOn
      | some notify =>
          have tracks := keeps.tracks
          have awake := @awake_set _ _ _ _ .cancelled keeps isTask rfl nofun
          simp only [State.queue, isNotify, Option.getD_some] at tracks awake
          simp only [isNotify] at goesOn
          cases goesOn
          exact ⟨keeps.toSound.of_moves isTask rfl
            ⟨rfl, nofun, keeps.limit, keeps.fits,
              trivial⟩ (tracks.goAway isTask rfl), awake⟩
  | woken byOne =>
      have sound : Sound bound (state.move index .cancelled) :=
        keeps.toSound.of_awake isTask rfl rfl
          (moves_of_same keeps rfl (fun _ => rfl) trivial) rfl rfl
      cases byOne with
      | true =>
          cases goesOn
          exact sound.notifyOne
      | false =>
          cases goesOn
          exact ⟨sound, awake_set keeps isTask rfl nofun⟩
  | holding =>
      cases goesOn
      exact keeps.of_counts isTask rfl rfl
        (moves_of_same keeps rfl (fun _ => rfl) trivial) rfl rfl rfl
  | _ =>
      cases goesOn

/-- The limit that a step may store. -/
def Label.limit : Label → Nat
  | .set max availMemBytes numWorkers =>
      if max = 0 then
        detectMaxH3Handlers availMemBytes numWorkers
      else
        max
  | .detect _ availMemBytes numWorkers =>
      detectMaxH3Handlers availMemBytes numWorkers
  | .connect | .proceed _ | .fail _ | .drop _ =>
      0

theorem Keeps.step
    {label : Label}
    (keeps : Keeps bound state)
    (taken : step state label = some after)
    (isWithin : label.limit ≤ bound) :
    Keeps bound after := by
  cases label with
  | connect =>
      cases taken
      exact keeps.start keeps.limit rfl rfl rfl rfl trivial
  | set max availMemBytes numWorkers =>
      cases taken
      exact keeps.swapLimit isWithin
  | proceed index =>
      obtain ⟨task, isTask, goesOn⟩ := Option.bind_eq_some_iff.mp taken
      exact keeps.proceed isTask goesOn
  | detect index availMemBytes numWorkers =>
      obtain ⟨task, isTask, goesOn⟩ := Option.bind_eq_some_iff.mp taken
      exact keeps.detect isTask (detectMaxH3Handlers_pos _ _) isWithin goesOn
  | fail index =>
      simp only [H3Admission.step] at taken
      split at taken
      · next active isTask =>
          cases taken
          exact keeps.of_counts isTask rfl rfl
            (moves_of_same keeps rfl (fun _ => rfl) trivial) rfl rfl rfl
      · cases taken
  | drop index =>
      obtain ⟨task, isTask, goesOn⟩ := Option.bind_eq_some_iff.mp taken
      exact keeps.drop isTask goesOn

end OneStep

/-! ## Whole runs -/

section Runs

variable
  {labels : List Label}
  {final : State}

/-- The largest limit that a run stores. -/
def largestLimit (labels : List Label) : Nat :=
  (labels.map Label.limit).foldr max 0

theorem limit_le_largestLimit
    {label : Label}
    (isLabel : label ∈ labels) :
    label.limit ≤ largestLimit labels := by
  induction labels with
  | nil =>
      cases isLabel
  | cons first rest inductionHypothesis =>
      simp only [largestLimit, List.map_cons, List.foldr_cons]
      rcases List.mem_cons.mp isLabel with rfl | isRest
      · exact Nat.le_max_left _ _
      · exact Nat.le_trans (inductionHypothesis isRest)
          (Nat.le_max_right _ _)

theorem keeps_of_run
    (accepted : run? step initial labels = some final) :
    Keeps (largestLimit labels) final := by
  have isWithin :
      Along step
        (fun _ label _ => label.limit ≤ largestLimit labels)
        initial labels :=
    along_of_forall fun _ isLabel => limit_le_largestLimit isLabel
  exact invariant_of_along
    (fun keeps taken isWithin => keeps.step taken isWithin)
    (keeps_initial _) isWithin accepted

theorem count_hasSlot_eq (tasks : List Phase) :
    count Phase.hasSlot tasks =
      count (· == .holding) tasks + count (· == .lost) tasks := by
  apply count_eq_add
  intro task
  cases task <;> rfl

end Runs

/-- Two connections under a limit of one. -/
def servedAndAsleep : List Label :=
  [.set 1 0 1, .connect, .connect, .proceed 1, .proceed 2, .proceed 1,
    .proceed 1, .proceed 1, .proceed 2, .proceed 2, .proceed 2]

/-- The first of them is served, the second sleeps. -/
def oneServed : State where
  limit := 1
  active := 1
  notify := some ⟨[2], false⟩
  tasks := [.raising, .holding, .sleeping]

theorem run?_servedAndAsleep :
    run? step initial servedAndAsleep = some oneServed := by
  decide

section Runs

variable
  {labels : List Label}
  {final : State}

/--
No wake-up is lost: in every run, while a connection sleeps, one is served or is
on its way to look for a slot or to notify, unless one has ended without a
release.
-/
theorem stirs_of_run
    (accepted : run? step initial labels = some final)
    (isAsleep : .sleeping ∈ final.tasks) :
    (∃ task ∈ final.tasks, task.stirs = true) ∨ .lost ∈ final.tasks := by
  have keeps := keeps_of_run accepted
  obtain ⟨index, isTask⟩ := List.mem_iff_getElem?.mp isAsleep
  have isWaiter : index ∈ final.queue.waiters :=
    (keeps.tracks.sleeps index).mpr ⟨_, isTask, rfl⟩
  rcases keeps.awake (count_pos_of_holds isTask rfl) with
    isPermit | counted
  · rw [keeps.tracks.unused isPermit] at isWaiter
    cases isWaiter
  · obtain ⟨task, isMember, counts⟩ := List.countP_pos_iff.mp counted
    rw [Phase.counts, Bool.or_eq_true] at counts
    rcases counts with stirs | hasSlot
    · exact .inl ⟨task, isMember, stirs⟩
    · cases task with
      | holding =>
          exact .inl ⟨_, isMember, rfl⟩
      | lost =>
          exact .inr isMember
      | _ =>
          cases hasSlot

/-- The second sleeps while the first is served. -/
theorem stirs_of_run_oneServed :
    (∃ task ∈ oneServed.tasks, task.stirs = true) ∨
      .lost ∈ oneServed.tasks :=
  stirs_of_run run?_servedAndAsleep (by decide)

end Runs

end Sweety.H3Admission
