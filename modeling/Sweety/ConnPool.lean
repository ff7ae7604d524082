import Mathlib.Logic.Function.Basic
import Mathlib.Tactic.Common

namespace Sweety

/-!
# The pool of upstream connections

`reverse_proxy/pool.rs`.  A worker thread keeps a queue of idle connections for
each key.  A request takes the connection at the front of the queue of its key,
and hands it back at the end when it is done with it.

Instants and durations are numbers of nanoseconds.  Each call reads the clock
once here, also where the code reads it again for each connection.
-/

/-- `Duration::from_secs`. -/
def fromSecs (seconds : Nat) : Nat :=
  seconds * 1000000000

/-- A connection that waits for its next request. -/
structure IdleConn (α : Type) where
  conn : α
  returnedAt : Nat
  createdAt : Nat
  requestCount : Nat
  deriving Repr, DecidableEq

/-- `PER_THREAD_POOL`; a key without a queue has an empty one. -/
abbrev NodePools (α : Type) :=
  String → List (IdleConn α)

/-- The limits of a location on its connections; 0 is no limit of its own. -/
structure KeepAlive where
  requests : Nat
  time : Nat
  maxIdle : Nat
  deriving Repr, DecidableEq

/-- `ConnPool`, the limits of all queues. -/
structure ConnPool where
  maxIdle : Nat
  idleTimeout : Nat
  deriving Repr, DecidableEq

namespace ConnPool

variable {α : Type}

/-- The connection has not been idle for too long. -/
def keeps (pool : ConnPool) (now : Nat) (idle : IdleConn α) : Bool :=
  now - idle.returnedAt < pool.idleTimeout

/--
The loop of `acquire`: connections that were idle for too long are dropped.
-/
def popFront
    (pool : ConnPool)
    (now : Nat) :
    List (IdleConn α) → Option (IdleConn α) × List (IdleConn α)
  | [] =>
      (none, [])
  | idle :: rest =>
      if pool.keeps now idle then
        (some idle, rest)
      else
        pool.popFront now rest

/-- `acquire`, with the queues it leaves. -/
def acquire
    (pool : ConnPool)
    (key : String)
    (now : Nat)
    (pools : NodePools α) :
    Option (α × Nat × Nat) × NodePools α :=
  let queue :=
    if 1 < (pools key).length then
      (pools key).filter (pool.keeps now)
    else
      pools key
  let (taken, rest) := pool.popFront now queue
  (taken.map fun idle => (idle.conn, idle.createdAt, idle.requestCount),
    Function.update pools key rest)

/-- How many connections a queue holds at most. -/
def idleLimit (pool : ConnPool) (limits : KeepAlive) : Nat :=
  if 0 < limits.maxIdle then
    limits.maxIdle
  else
    pool.maxIdle

/-- `release`; a connection beyond one of the limits is dropped. -/
def release
    (pool : ConnPool)
    (limits : KeepAlive)
    (key : String)
    (now : Nat)
    (conn : α)
    (createdAt requestCount : Nat)
    (pools : NodePools α) :
    NodePools α :=
  if 0 < limits.requests ∧ limits.requests ≤ requestCount then
    pools
  else if 0 < limits.time ∧ fromSecs limits.time ≤ now - createdAt then
    pools
  else if pool.idleLimit limits ≤ (pools key).length then
    pools
  else
    Function.update pools key
      (pools key ++ [⟨conn, now, createdAt, requestCount⟩])

/-! ## What the operations do to the queues -/

variable
  {pool : ConnPool}
  {now : Nat}
  {key : String}
  {pools : NodePools α}

/-- The loop hands out and leaves connections of the queue. -/
theorem mem_popFront
    {queue : List (IdleConn α)}
    {idle : IdleConn α}
    (member :
      (pool.popFront now queue).1 = some idle ∨
        idle ∈ (pool.popFront now queue).2) :
    idle ∈ queue := by
  induction queue with
  | nil =>
      simp [popFront] at member
  | cons first rest inductionHypothesis =>
      rw [popFront] at member
      split at member
      · rcases member with taken | left
        · obtain rfl := Option.some.inj taken
          exact List.mem_cons_self
        · exact List.mem_cons_of_mem first left
      · exact List.mem_cons_of_mem first (inductionHypothesis member)

/-- Dropping old connections first adds none. -/
theorem mem_of_mem_kept
    {idle : IdleConn α}
    (member :
      idle ∈
        if 1 < (pools key).length then
          (pools key).filter (pool.keeps now)
        else
          pools key) :
    idle ∈ pools key := by
  split at member
  · exact (List.mem_filter.mp member).1
  · exact member

/-- A connection that is handed out was in the queue of its key. -/
theorem mem_of_acquire
    {conn : α}
    {createdAt requestCount : Nat}
    (taken :
      (pool.acquire key now pools).1 =
        some (conn, createdAt, requestCount)) :
    ∃ idle ∈ pools key, idle.conn = conn := by
  obtain ⟨idle, isFront, same⟩ := Option.map_eq_some_iff.mp taken
  obtain ⟨rfl, _⟩ := Prod.mk.inj same
  exact ⟨idle, mem_of_mem_kept (mem_popFront (.inl isFront)), rfl⟩

/-- The loop hands out connections that are not too old. -/
theorem keeps_of_popFront
    {queue : List (IdleConn α)}
    {idle : IdleConn α}
    (taken : (pool.popFront now queue).1 = some idle) :
    pool.keeps now idle = true := by
  induction queue with
  | nil =>
      cases taken
  | cons first rest inductionHypothesis =>
      rw [popFront] at taken
      split at taken
      · rename_i kept
        obtain rfl := Option.some.inj taken
        exact kept
      · exact inductionHypothesis taken

/-- Nothing is handed out if connections may not be idle at all. -/
theorem idleTimeout_pos_of_acquire
    {taken : α × Nat × Nat}
    (isTaken : (pool.acquire key now pools).1 = some taken) :
    0 < pool.idleTimeout := by
  obtain ⟨idle, isFront, _⟩ := Option.map_eq_some_iff.mp isTaken
  have kept := keeps_of_popFront isFront
  rw [keeps, decide_eq_true_eq] at kept
  exact Nat.zero_lt_of_lt kept

/-- The only connection of a queue is handed out as long as it is kept. -/
theorem acquire_of_singleton
    {idle : IdleConn α}
    (queue : pools key = [idle])
    (kept : pool.keeps now idle = true) :
    (pool.acquire key now pools).1 =
      some (idle.conn, idle.createdAt, idle.requestCount) := by
  simp [acquire, queue, popFront, kept]

/-- A connection that is left was there before. -/
theorem mem_of_mem_acquire
    {other : String}
    {idle : IdleConn α}
    (member : idle ∈ (pool.acquire key now pools).2 other) :
    idle ∈ pools other := by
  by_cases same : other = key
  · subst same
    simp only [acquire, Function.update_self] at member
    exact mem_of_mem_kept (mem_popFront (.inr member))
  · simp only [acquire, Function.update_of_ne same] at member
    exact member

/-- A connection in a queue was there before or is the one handed back. -/
theorem mem_of_mem_release
    {limits : KeepAlive}
    {conn : α}
    {createdAt requestCount : Nat}
    {other : String}
    {idle : IdleConn α}
    (member :
      idle ∈
        pool.release limits key now conn createdAt requestCount pools
          other) :
    idle ∈ pools other ∨ other = key ∧ idle.conn = conn := by
  unfold release at member
  split at member
  · exact .inl member
  · split at member
    · exact .inl member
    · split at member
      · exact .inl member
      · by_cases same : other = key
        · subst same
          rw [Function.update_self, List.mem_append,
            List.mem_singleton] at member
          rcases member with before | isNew
          · exact .inl before
          · rw [isNew]
            exact .inr ⟨rfl, rfl⟩
        · rw [Function.update_of_ne same] at member
          exact .inl member

end ConnPool

end Sweety
