import Mathlib.Data.List.Basic
import Mathlib.Data.List.Nodup
import Mathlib.Tactic.Common

/-!
# A notification with one permit

`Notify` of an asynchronous runtime: a task that waits takes the permit, or
joins a queue; `notifyOne` wakes the task that has waited longest, or leaves the
permit behind, of which there is one at most; `notifyWaiters` wakes every task
of the queue and leaves no permit.  The tasks are those of a list, and `asleep`
says which of them are at the point where they wait.  This module names no
particular program.
-/

/-- The tasks that wait, in the order in which they came, and the permit. -/
structure Notify where
  waiters : List Nat
  permit : Bool
  deriving Repr, DecidableEq

namespace Notify

def new : Notify where
  waiters := []
  permit := false

/-- Wait: whether the permit was there, or else the task is in the queue. -/
def wait (notify : Notify) (index : Nat) : Bool × Notify :=
  if notify.permit then
    (true, { notify with permit := false })
  else
    (false, { notify with waiters := notify.waiters ++ [index] })

/-- Notify one task, and tell which was woken. -/
def notifyOne (notify : Notify) : Option Nat × Notify :=
  match notify.waiters with
  | [] =>
      (none, { notify with permit := true })
  | index :: rest =>
      (some index, { notify with waiters := rest })

/-- Wake the whole queue. -/
def notifyWaiters (notify : Notify) : Notify :=
  { notify with waiters := [] }

/-- A task stops waiting without having been woken. -/
def leave (notify : Notify) (index : Nat) : Notify :=
  { notify with waiters := notify.waiters.erase index }

variable {Task : Type}

/--
The queue is of the tasks that sleep, each once, and a permit is there only when
nobody sleeps.
-/
structure Tracks
    (asleep : Task → Bool)
    (notify : Notify)
    (tasks : List Task) :
    Prop where
  once : notify.waiters.Nodup
  sleeps :
    ∀ index,
      index ∈ notify.waiters ↔
        ∃ task, tasks[index]? = some task ∧ asleep task = true
  unused : notify.permit = true → notify.waiters = []

variable
  {asleep : Task → Bool}
  {notify : Notify}
  {tasks : List Task}
  {task next : Task}
  {index : Nat}

theorem tracks_new (asleep : Task → Bool) : Tracks asleep new [] := by
  refine ⟨List.nodup_nil, ?_, fun _ => rfl⟩
  simp [new]

/-- A task that is awake is not in the queue. -/
theorem Tracks.not_mem
    (tracks : Tracks asleep notify tasks)
    (isTask : tasks[index]? = some task)
    (awake : asleep task = false) :
    index ∉ notify.waiters := by
  rw [tracks.sleeps]
  rintro ⟨other, isOther, sleepsOther⟩
  obtain rfl := Option.some.inj (isTask.symm.trans isOther)
  rw [awake] at sleepsOther
  cases sleepsOther

/-- What sleeps after a task has moved. -/
theorem exists_asleep_set
    (isTask : tasks[index]? = some task)
    (other : Nat) :
    (∃ found,
      (tasks.set index next)[other]? = some found ∧ asleep found = true) ↔
      if other = index then
        asleep next = true
      else
        ∃ found, tasks[other]? = some found ∧ asleep found = true := by
  have within := (List.getElem?_eq_some_iff.mp isTask).1
  by_cases same : other = index
  · subst same
    simp [List.getElem?_set_self within]
  · simp [List.getElem?_set_ne (Ne.symm same), same]

/-- A task that starts awake. -/
theorem Tracks.start
    (tracks : Tracks asleep notify tasks)
    (awake : asleep task = false) :
    Tracks asleep notify (tasks ++ [task]) := by
  refine ⟨tracks.once, ?_, tracks.unused⟩
  intro other
  rw [tracks.sleeps]
  rcases Nat.lt_trichotomy other tasks.length with before | same | behind
  · rw [List.getElem?_append_left before]
  · subst same
    simp [awake]
  · have isNone : (tasks ++ [task])[other]? = none := by
      apply List.getElem?_eq_none
      rw [List.length_append, List.length_singleton]
      exact behind
    simp [isNone, List.getElem?_eq_none (Nat.le_of_lt behind)]

/-- A task that is awake before and after. -/
theorem Tracks.move
    (tracks : Tracks asleep notify tasks)
    (isTask : tasks[index]? = some task)
    (awake : asleep task = false)
    (staysAwake : asleep next = false) :
    Tracks asleep notify (tasks.set index next) := by
  have absent := tracks.not_mem isTask awake
  refine ⟨tracks.once, ?_, tracks.unused⟩
  intro other
  rw [exists_asleep_set isTask]
  split
  · next same =>
      subst same
      simp [absent, staysAwake]
  · exact tracks.sleeps other

/-- A task that takes the permit. -/
theorem Tracks.takePermit
    (tracks : Tracks asleep notify tasks)
    (isTask : tasks[index]? = some task)
    (awake : asleep task = false)
    (staysAwake : asleep next = false) :
    Tracks asleep { notify with permit := false }
      (tasks.set index next) := by
  have moved := tracks.move isTask awake staysAwake
  exact ⟨moved.once, moved.sleeps, fun isPermit => nomatch isPermit⟩

/-- A task that goes to sleep. -/
theorem Tracks.sleep
    (tracks : Tracks asleep notify tasks)
    (isTask : tasks[index]? = some task)
    (awake : asleep task = false)
    (falls : asleep next = true)
    (noPermit : notify.permit = false) :
    Tracks asleep { notify with waiters := notify.waiters ++ [index] }
      (tasks.set index next) := by
  have absent := tracks.not_mem isTask awake
  refine ⟨?_, ?_, ?_⟩
  · refine List.nodup_append.mpr
      ⟨tracks.once, List.nodup_singleton index, ?_⟩
    intro waiter isWaiter other isOther same
    rw [List.mem_singleton] at isOther
    exact absent (isOther ▸ same ▸ isWaiter)
  · intro other
    rw [exists_asleep_set isTask, List.mem_append, List.mem_singleton]
    split
    · next same =>
        simp [same, falls]
    · next differs =>
        simp only [differs, or_false]
        exact tracks.sleeps other
  · intro isPermit
    rw [noPermit] at isPermit
    cases isPermit

/-- A task that leaves the queue, by waking or by going away. -/
theorem Tracks.remove
    {waiters : List Nat}
    (tracks : Tracks asleep notify tasks)
    (isTask : tasks[index]? = some task)
    (staysAwake : asleep next = false)
    (once : waiters.Nodup)
    (others :
      ∀ other, other ∈ waiters ↔ other ≠ index ∧ other ∈ notify.waiters) :
    Tracks asleep { notify with waiters := waiters }
      (tasks.set index next) := by
  refine ⟨once, ?_, ?_⟩
  · intro other
    rw [exists_asleep_set isTask, others]
    split
    · next same =>
        simp [same, staysAwake]
    · next differs =>
        simp only [ne_eq, differs, not_false_eq_true, true_and]
        exact tracks.sleeps other
  · intro isPermit
    apply List.eq_nil_iff_forall_not_mem.mpr
    intro other isWaiter
    have isEmpty := tracks.unused isPermit
    have isOld := ((others other).mp isWaiter).2
    rw [isEmpty] at isOld
    cases isOld

/-- The task that has waited longest is woken. -/
theorem Tracks.wakeFirst
    {rest : List Nat}
    (tracks : Tracks asleep notify tasks)
    (isQueue : notify.waiters = index :: rest)
    (wakes : asleep next = false) :
    ∃ task,
      tasks[index]? = some task ∧ asleep task = true ∧
        Tracks asleep { notify with waiters := rest }
          (tasks.set index next) := by
  have isWaiter : index ∈ notify.waiters := by simp [isQueue]
  obtain ⟨task, isTask, sleepsTask⟩ := (tracks.sleeps index).mp isWaiter
  have once := tracks.once
  rw [isQueue, List.nodup_cons] at once
  refine ⟨task, isTask, sleepsTask, tracks.remove isTask wakes once.2 ?_⟩
  intro other
  rw [isQueue, List.mem_cons]
  constructor
  · intro isRest
    refine ⟨?_, .inr isRest⟩
    rintro rfl
    exact once.1 isRest
  · rintro ⟨differs, same | isRest⟩
    · exact absurd same differs
    · exact isRest

/-- A task that goes away while it sleeps. -/
theorem Tracks.goAway
    (tracks : Tracks asleep notify tasks)
    (isTask : tasks[index]? = some task)
    (staysAwake : asleep next = false) :
    Tracks asleep (notify.leave index) (tasks.set index next) := by
  apply tracks.remove isTask staysAwake (tracks.once.erase index)
  intro other
  exact tracks.once.mem_erase_iff

/-- The permit is left behind when nobody sleeps. -/
theorem Tracks.leavePermit
    (tracks : Tracks asleep notify tasks)
    (isQueue : notify.waiters = []) :
    Tracks asleep { notify with permit := true } tasks :=
  ⟨tracks.once, tracks.sleeps, fun _ => isQueue⟩

/-- All are woken. -/
theorem tracks_notifyWaiters
    {wake : Task → Task}
    (notify : Notify)
    (tasks : List Task)
    (wakes : ∀ task, asleep (wake task) = false) :
    Tracks asleep notify.notifyWaiters (tasks.map wake) := by
  refine ⟨List.nodup_nil, ?_, fun _ => rfl⟩
  intro other
  simp [notifyWaiters, wakes]

end Notify
