import Mathlib.Data.List.Nodup
import Sweety.ConnPool
import Sweety.StepRun

namespace Sweety.PoolLimits

/-!
# The limits of the connection pool

The calls of `acquire` and `release` that `forward_request` makes, with the
counts and instants that it carries from one to the other.  A request takes a
connection from the pool or opens one, may open another after the first has
failed, and at the end hands its connection back or drops it; where the body is
passed on as it comes, a task of the same worker does so later.

A connection is a number, and the numbers are given in the order of opening.
-/

/-- What `forward_request` has of a connection. -/
structure Held where
  conn : Nat
  createdAt : Nat
  requestCount : Nat
  deriving Repr, DecidableEq

/-- How far a call of `forward_request` has come. -/
inductive Phase where
  | waiting
  /-- `new_conn`, in the first or the second attempt. -/
  | connecting (key : String) (again : Bool)
  /-- `send_recv_pooled`. -/
  | sending (key : String) (again : Bool) (held : Held)
  /-- The task that passes the body on. -/
  | streaming (key : String) (held : Held)
  | finished
  deriving Repr, DecidableEq

/-- The connection of a request. -/
def Phase.held? : Phase → Option Held
  | .sending _ _ held | .streaming _ held =>
      some held
  | .waiting | .connecting _ _ | .finished =>
      none

/-- The pools of the workers, the requests, and what happened to connections. -/
structure System where
  workers : Nat → NodePools Nat
  phase : Nat → Phase
  clock : Nat
  /-- How many connections have been opened. -/
  opened : Nat
  /-- When a connection was opened. -/
  born : Nat → Nat
  /-- To how many requests a connection has been given. -/
  uses : Nat → Nat

/-- No connection has been opened yet. -/
def System.initial : System where
  workers := fun _ _ => []
  phase := fun _ => .waiting
  clock := 0
  opened := 0
  born := fun _ => 0
  uses := fun _ => 0

/-- How `send_recv_pooled` ends. -/
inductive Reply where
  /-- With a response, and the connection to be handed back. -/
  | handsBack
  /-- With a response, and the connection closed. -/
  | closes
  /-- With a response whose body a task passes on. -/
  | streams
  /-- With an error, after the body was taken or before. -/
  | failed (bodyConsumed : Bool)
  deriving Repr, DecidableEq

/-- What happens. -/
inductive Action where
  | acquire (request worker : Nat) (key : String)
  | connected (request : Nat)
  | connectFailed (request : Nat)
  | replied (request worker : Nat) (reply : Reply)
  /-- The task has passed the body on, or given up. -/
  | streamed (request worker : Nat) (handsBack : Bool)
  /-- The client went away. -/
  | cancel (request : Nat)
  deriving Repr, DecidableEq

/-- What happens, and when. -/
structure Label where
  now : Nat
  action : Action
  deriving Repr, DecidableEq

namespace System

variable (pool : ConnPool) (limits : KeepAlive) (system : System)

/-- The request goes on without a connection. -/
def without (request : Nat) (phase : Phase) : System :=
  { system with phase := Function.update system.phase request phase }

/-- `pool.release`, with a request more. -/
def handBack
    (request worker : Nat)
    (key : String)
    (now : Nat)
    (held : Held) :
    System :=
  { system with
    workers :=
      Function.update system.workers worker
        (pool.release limits key now held.conn held.createdAt
          (held.requestCount + 1) (system.workers worker))
    phase := Function.update system.phase request .finished }

/-- The steps of `forward_request`. -/
def act (now : Nat) : Action → Option System
  | .acquire request worker key =>
      match system.phase request with
      | .waiting =>
          match pool.acquire key now (system.workers worker) with
          | (some (conn, createdAt, requestCount), pools) =>
              some
                { system with
                  workers := Function.update system.workers worker pools
                  phase :=
                    Function.update system.phase request
                      (.sending key false ⟨conn, createdAt, requestCount⟩)
                  uses :=
                    Function.update system.uses conn (system.uses conn + 1) }
          | (none, pools) =>
              some
                { system with
                  workers := Function.update system.workers worker pools
                  phase :=
                    Function.update system.phase request
                      (.connecting key false) }
      | _ =>
          none
  | .connected request =>
      match system.phase request with
      | .connecting key again =>
          some
            { system with
              phase :=
                Function.update system.phase request
                  (.sending key again ⟨system.opened, now, 0⟩)
              opened := system.opened + 1
              born := Function.update system.born system.opened now
              uses := Function.update system.uses system.opened 1 }
      | _ =>
          none
  | .connectFailed request =>
      match system.phase request with
      | .connecting _ _ =>
          some (system.without request .finished)
      | _ =>
          none
  | .replied request worker reply =>
      match system.phase request, reply with
      | .sending key _ held, .handsBack =>
          some (system.handBack pool limits request worker key now held)
      | .sending _ _ _, .closes =>
          some (system.without request .finished)
      | .sending key _ held, .streams =>
          some (system.without request (.streaming key held))
      | .sending key again _, .failed bodyConsumed =>
          if !again && !bodyConsumed then
            some (system.without request (.connecting key true))
          else
            some (system.without request .finished)
      | _, _ =>
          none
  | .streamed request worker handsBack =>
      match system.phase request with
      | .streaming key held =>
          if handsBack then
            some (system.handBack pool limits request worker key now held)
          else
            some (system.without request .finished)
      | _ =>
          none
  | .cancel request =>
      match system.phase request with
      | .connecting _ _ | .sending _ _ _ =>
          some (system.without request .finished)
      | _ =>
          none

end System

/-- One step.  The clock does not go back. -/
def step
    (pool : ConnPool)
    (limits : KeepAlive)
    (system : System)
    (label : Label) :
    Option System :=
  if system.clock ≤ label.now then
    (system.act pool limits label.now label.action).map fun next =>
      { next with clock := label.now }
  else
    none

/-! ## What is wanted -/

/-- Where a connection can be. -/
inductive Place where
  | idle (worker : Nat) (key : String)
  | request (request : Nat)
  deriving Repr, DecidableEq

/-- The connections of a queue. -/
def System.idleConns
    (system : System)
    (worker : Nat)
    (key : String) :
    List Nat :=
  (system.workers worker key).map (·.conn)

/-- The connection is at a place. -/
def System.At (system : System) : Place → Nat → Prop
  | .idle worker key, conn =>
      conn ∈ system.idleConns worker key
  | .request request, conn =>
      ((system.phase request).held?).map (·.conn) = some conn

/-- Every connection is at one place at most, and there once. -/
structure Exclusive (system : System) : Prop where
  unique :
    ∀ first second conn,
      system.At first conn → system.At second conn → first = second
  nodup : ∀ worker key, (system.idleConns worker key).Nodup

/-- What is asked of every state. -/
structure WithinLimits
    (pool : ConnPool)
    (limits : KeepAlive)
    (system : System) :
    Prop where
  queues :
    ∀ worker key,
      (system.workers worker key).length ≤ pool.idleLimit limits
  exclusive : Exclusive system
  uses :
    0 < limits.requests → ∀ conn, system.uses conn ≤ limits.requests
  /-- A connection in the pool was young when it was handed back. -/
  young :
    0 < limits.time →
      ∀ worker key, ∀ idle ∈ system.workers worker key,
        idle.returnedAt < system.born idle.conn + fromSecs limits.time

/--
A connection that is handed out was handed back less than `idle_timeout` ago.
-/
def HandsOutFresh
    (pool : ConnPool)
    (before : System)
    (label : Label)
    (after : System) :
    Prop :=
  match label.action with
  | .acquire request worker key =>
      ∀ conn,
        after.At (.request request) conn →
          ∃ idle ∈ before.workers worker key,
            idle.conn = conn ∧
              idle.returnedAt ≤ label.now ∧
              label.now < idle.returnedAt + pool.idleTimeout
  | _ =>
      True

/-! ## The two calls -/

section Calls

variable
  {pool : ConnPool}
  {limits : KeepAlive}
  {now : Nat}
  {key : String}
  {pools : NodePools Nat}

/-- What is handed out comes before what is left. -/
theorem popFront_sublist (queue : List (IdleConn Nat)) :
    ((pool.popFront now queue).1.toList ++
        (pool.popFront now queue).2).Sublist queue := by
  induction queue with
  | nil =>
      exact List.Sublist.refl []
  | cons first rest inductionHypothesis =>
      rw [ConnPool.popFront]
      split
      · exact List.Sublist.refl (first :: rest)
      · exact inductionHypothesis.cons first

/-- What `acquire` does. -/
theorem acquire_spec
    (pool : ConnPool)
    (now : Nat)
    (key : String)
    (pools : NodePools Nat) :
    ∃ taken rest,
      pool.acquire key now pools =
          (taken.map fun idle =>
            (idle.conn, idle.createdAt, idle.requestCount),
            Function.update pools key rest) ∧
        (taken.toList ++ rest).Sublist (pools key) ∧
        ∀ idle, taken = some idle → pool.keeps now idle = true := by
  refine ⟨_, _, rfl, ?_, fun idle => ConnPool.keeps_of_popFront⟩
  refine (popFront_sublist _).trans ?_
  split
  · exact List.filter_sublist
  · exact List.Sublist.refl _

/-- What `release` does. -/
theorem release_cases
    (pool : ConnPool)
    (limits : KeepAlive)
    (key : String)
    (now conn createdAt requestCount : Nat)
    (pools : NodePools Nat) :
    pool.release limits key now conn createdAt requestCount pools = pools ∨
      (0 < limits.requests → requestCount < limits.requests) ∧
        (0 < limits.time → now < createdAt + fromSecs limits.time) ∧
        (pools key).length < pool.idleLimit limits ∧
        pool.release limits key now conn createdAt requestCount pools =
          Function.update pools key
            (pools key ++ [⟨conn, now, createdAt, requestCount⟩]) := by
  unfold ConnPool.release
  split
  · exact .inl rfl
  · split
    · exact .inl rfl
    · split
      · exact .inl rfl
      · rename_i notUsedUp notOld notFull
        exact .inr ⟨by omega, by omega, Nat.not_le.mp notFull, rfl⟩

end Calls

/-! ## What the steps keep -/

/-- What is written down about an idle connection. -/
structure IdleOk
    (limits : KeepAlive)
    (system : System)
    (idle : IdleConn Nat) :
    Prop where
  opened : idle.conn < system.opened
  born : idle.createdAt = system.born idle.conn
  uses : idle.requestCount = system.uses idle.conn
  usable : 0 < limits.requests → idle.requestCount < limits.requests
  young :
    0 < limits.time →
      idle.returnedAt < system.born idle.conn + fromSecs limits.time
  returned : idle.returnedAt ≤ system.clock

/-- What a request carries about its connection. -/
structure HeldOk (system : System) (held : Held) : Prop where
  opened : held.conn < system.opened
  born : held.createdAt = system.born held.conn
  uses : held.requestCount + 1 = system.uses held.conn

structure Invariant
    (pool : ConnPool)
    (limits : KeepAlive)
    (system : System) :
    Prop where
  queues :
    ∀ worker key,
      (system.workers worker key).length ≤ pool.idleLimit limits
  exclusive : Exclusive system
  few : 0 < limits.requests → ∀ conn, system.uses conn ≤ limits.requests
  idle :
    ∀ worker key, ∀ idle ∈ system.workers worker key,
      IdleOk limits system idle
  held :
    ∀ request held,
      (system.phase request).held? = some held → HeldOk system held

section Keeping

variable
  {pool : ConnPool}
  {limits : KeepAlive}
  {before after : System}

theorem invariant_initial : Invariant pool limits .initial where
  queues := fun _ _ => Nat.zero_le _
  exclusive :=
    { unique := by
        intro first second conn isFirst
        cases first <;> cases isFirst
      nodup := fun _ _ => List.nodup_nil }
  few := fun _ _ => Nat.zero_le _
  idle := fun _ _ _ member => nomatch member
  held := fun _ _ isHeld => nomatch isHeld

theorem Invariant.withinLimits
    (invariant : Invariant pool limits before) :
    WithinLimits pool limits before where
  queues := invariant.queues
  exclusive := invariant.exclusive
  uses := invariant.few
  young := fun positive worker key idle member =>
    (invariant.idle worker key idle member).young positive

/-- What is at no place. -/
def Nowhere (system : System) (conn : Nat) : Prop :=
  ∀ place, ¬system.At place conn

/-- Connections are dropped, and nothing else happens to them. -/
structure Drops (before after : System) : Prop where
  queues :
    ∀ worker key,
      (after.workers worker key).Sublist (before.workers worker key)
  phases :
    ∀ request held,
      (after.phase request).held? = some held →
      (before.phase request).held? = some held
  opened : after.opened = before.opened
  born : after.born = before.born
  uses : after.uses = before.uses
  clock : before.clock ≤ after.clock

theorem Drops.at
    (drops : Drops before after)
    {place : Place}
    {conn : Nat}
    (isAt : after.At place conn) :
    before.At place conn := by
  cases place with
  | idle worker key =>
      exact ((drops.queues worker key).map _).subset isAt
  | request request =>
      obtain ⟨held, isHeld, isConn⟩ := Option.map_eq_some_iff.mp isAt
      exact
        Option.map_eq_some_iff.mpr
          ⟨held, drops.phases request held isHeld, isConn⟩

theorem Invariant.of_drops
    (invariant : Invariant pool limits before)
    (drops : Drops before after) :
    Invariant pool limits after where
  queues := fun worker key =>
    Nat.le_trans (drops.queues worker key).length_le
      (invariant.queues worker key)
  exclusive :=
    { unique := fun first second conn isFirst isSecond =>
        invariant.exclusive.unique first second conn (drops.at isFirst)
          (drops.at isSecond)
      nodup := fun worker key =>
        (invariant.exclusive.nodup worker key).sublist
          ((drops.queues worker key).map _) }
  few := fun positive conn => by
    rw [drops.uses]
    exact invariant.few positive conn
  idle := fun worker key idle member => by
    have ok :=
      invariant.idle worker key idle ((drops.queues worker key).subset member)
    exact
      { opened := drops.opened ▸ ok.opened
        born := drops.born ▸ ok.born
        uses := drops.uses ▸ ok.uses
        usable := ok.usable
        young := drops.born ▸ ok.young
        returned := Nat.le_trans ok.returned drops.clock }
  held := fun request held isHeld => by
    have ok := invariant.held request held (drops.phases request held isHeld)
    exact
      { opened := drops.opened ▸ ok.opened
        born := drops.born ▸ ok.born
        uses := drops.uses ▸ ok.uses }

/-- A connection that was nowhere is at one place now. -/
theorem exclusive_of_placed
    {target : Place}
    {placed : Nat}
    (exclusive : Exclusive before)
    (nowhere : Nowhere before placed)
    (places :
      ∀ place conn,
        after.At place conn →
        before.At place conn ∨ place = target ∧ conn = placed)
    (nodup : ∀ worker key, (after.idleConns worker key).Nodup) :
    Exclusive after where
  unique := by
    intro first second conn isFirst isSecond
    rcases places first conn isFirst with wasFirst | ⟨rfl, rfl⟩
    · rcases places second conn isSecond with wasSecond | ⟨rfl, rfl⟩
      · exact exclusive.unique first second conn wasFirst wasSecond
      · exact absurd wasFirst (nowhere first)
    · rcases places second conn isSecond with wasSecond | ⟨rfl, _⟩
      · exact absurd wasSecond (nowhere second)
      · rfl
  nodup := nodup

/-- A request gets a connection. -/
structure Gives
    (limits : KeepAlive)
    (before after : System)
    (request : Nat)
    (held : Held) :
    Prop where
  nowhere : Nowhere before held.conn
  workers : after.workers = before.workers
  own : (after.phase request).held? = some held
  others :
    ∀ other, other ≠ request → after.phase other = before.phase other
  opened : before.opened ≤ after.opened
  isOpened : held.conn < after.opened
  born : ∀ conn, conn ≠ held.conn → after.born conn = before.born conn
  isBorn : held.createdAt = after.born held.conn
  uses : ∀ conn, conn ≠ held.conn → after.uses conn = before.uses conn
  isUsed : held.requestCount + 1 = after.uses held.conn
  usable : 0 < limits.requests → held.requestCount < limits.requests
  clock : before.clock ≤ after.clock

theorem Invariant.of_gives
    {request : Nat}
    {held : Held}
    (invariant : Invariant pool limits before)
    (gives : Gives limits before after request held) :
    Invariant pool limits after where
  queues := by
    rw [gives.workers]
    exact invariant.queues
  exclusive := by
    refine
      @exclusive_of_placed before after (.request request) held.conn
        invariant.exclusive gives.nowhere ?_ ?_
    · intro place conn isAt
      cases place with
      | idle worker key =>
          left
          change conn ∈ (before.workers worker key).map (·.conn)
          rw [← gives.workers]
          exact isAt
      | request other =>
          by_cases same : other = request
          · subst same
            change ((after.phase other).held?).map (·.conn) = some conn at isAt
            rw [gives.own] at isAt
            exact .inr ⟨rfl, (Option.some.inj isAt).symm⟩
          · left
            change ((before.phase other).held?).map (·.conn) = some conn
            rw [← gives.others other same]
            exact isAt
    · intro worker key
      change ((after.workers worker key).map (·.conn)).Nodup
      rw [gives.workers]
      exact invariant.exclusive.nodup worker key
  few := by
    intro positive conn
    by_cases same : conn = held.conn
    · rw [same, ← gives.isUsed]
      exact gives.usable positive
    · rw [gives.uses conn same]
      exact invariant.few positive conn
  idle := by
    intro worker key idle member
    rw [gives.workers] at member
    have ok := invariant.idle worker key idle member
    have differs : idle.conn ≠ held.conn := by
      intro same
      apply gives.nowhere (.idle worker key)
      exact List.mem_map.mpr ⟨idle, member, same⟩
    exact
      { opened := Nat.lt_of_lt_of_le ok.opened gives.opened
        born := (gives.born _ differs).symm ▸ ok.born
        uses := (gives.uses _ differs).symm ▸ ok.uses
        usable := ok.usable
        young := (gives.born _ differs).symm ▸ ok.young
        returned := Nat.le_trans ok.returned gives.clock }
  held := by
    intro other own isHeld
    by_cases same : other = request
    · subst same
      rw [gives.own] at isHeld
      cases isHeld
      exact ⟨gives.isOpened, gives.isBorn, gives.isUsed⟩
    · rw [gives.others other same] at isHeld
      have ok := invariant.held other own isHeld
      have differs : own.conn ≠ held.conn := by
        intro sameConn
        apply gives.nowhere (.request other)
        exact Option.map_eq_some_iff.mpr ⟨own, isHeld, sameConn⟩
      exact
        { opened := Nat.lt_of_lt_of_le ok.opened gives.opened
          born := (gives.born _ differs).symm ▸ ok.born
          uses := (gives.uses _ differs).symm ▸ ok.uses }

/-- A connection that no request has any more is put into a queue. -/
structure Puts
    (pool : ConnPool)
    (limits : KeepAlive)
    (before after : System)
    (worker : Nat)
    (key : String)
    (idle : IdleConn Nat) :
    Prop where
  nowhere : Nowhere before idle.conn
  workers :
    after.workers =
      Function.update before.workers worker
        (Function.update (before.workers worker) key
          (before.workers worker key ++ [idle]))
  phase : after.phase = before.phase
  opened : after.opened = before.opened
  born : after.born = before.born
  uses : after.uses = before.uses
  clock : before.clock ≤ after.clock
  space : (before.workers worker key).length < pool.idleLimit limits
  ok : IdleOk limits after idle

theorem Puts.queue_cases
    {worker : Nat}
    {key : String}
    {idle : IdleConn Nat}
    (puts : Puts pool limits before after worker key idle)
    (place : Nat)
    (name : String) :
    after.workers place name = before.workers place name ∨
      (place = worker ∧ name = key) ∧
        after.workers place name = before.workers place name ++ [idle] := by
  rw [puts.workers]
  by_cases samePlace : place = worker
  · subst samePlace
    rw [Function.update_self]
    by_cases sameName : name = key
    · subst sameName
      rw [Function.update_self]
      exact .inr ⟨⟨rfl, rfl⟩, rfl⟩
    · rw [Function.update_of_ne sameName]
      exact .inl rfl
  · rw [Function.update_of_ne samePlace]
    exact .inl rfl

theorem Invariant.of_puts
    {worker : Nat}
    {key : String}
    {idle : IdleConn Nat}
    (invariant : Invariant pool limits before)
    (puts : Puts pool limits before after worker key idle) :
    Invariant pool limits after where
  queues := by
    intro place name
    rcases puts.queue_cases place name with same | ⟨⟨rfl, rfl⟩, longer⟩
    · rw [same]
      exact invariant.queues place name
    · rw [longer, List.length_append, List.length_singleton]
      exact puts.space
  exclusive := by
    refine
      @exclusive_of_placed before after (.idle worker key) idle.conn
        invariant.exclusive puts.nowhere ?_ ?_
    · intro place conn isAt
      cases place with
      | idle place name =>
          change conn ∈ (after.workers place name).map (·.conn) at isAt
          rcases puts.queue_cases place name with
              same | ⟨⟨rfl, rfl⟩, longer⟩
          · rw [same] at isAt
            exact .inl isAt
          · rw [longer, List.map_append, List.mem_append] at isAt
            rcases isAt with wasThere | isNew
            · exact .inl wasThere
            · exact .inr ⟨rfl, List.mem_singleton.mp isNew⟩
      | request other =>
          change ((after.phase other).held?).map (·.conn) = some conn at isAt
          rw [puts.phase] at isAt
          exact .inl isAt
    · intro place name
      change ((after.workers place name).map (·.conn)).Nodup
      have nodup := invariant.exclusive.nodup place name
      rcases puts.queue_cases place name with
          same | ⟨⟨rfl, rfl⟩, longer⟩
      · rw [same]
        exact nodup
      · rw [longer, List.map_append]
        refine List.Nodup.append nodup (List.nodup_singleton _) ?_
        intro conn inQueue isNew
        rw [List.map_singleton, List.mem_singleton] at isNew
        exact puts.nowhere (.idle place name) (isNew ▸ inQueue)
  few := by
    rw [puts.uses]
    exact invariant.few
  idle := by
    intro place name other member
    have keeps (wasThere : other ∈ before.workers place name) :
        IdleOk limits after other := by
      have ok := invariant.idle place name other wasThere
      exact
        { opened := puts.opened ▸ ok.opened
          born := puts.born ▸ ok.born
          uses := puts.uses ▸ ok.uses
          usable := ok.usable
          young := puts.born ▸ ok.young
          returned := Nat.le_trans ok.returned puts.clock }
    rcases puts.queue_cases place name with same | ⟨_, longer⟩
    · exact keeps (same ▸ member)
    · rw [longer, List.mem_append] at member
      rcases member with wasThere | isNew
      · exact keeps wasThere
      · rw [List.mem_singleton.mp isNew]
        exact puts.ok
  held := by
    intro other own isHeld
    rw [puts.phase] at isHeld
    have ok := invariant.held other own isHeld
    exact
      { opened := puts.opened ▸ ok.opened
        born := puts.born ▸ ok.born
        uses := puts.uses ▸ ok.uses }

end Keeping

/-! ## One step -/

section Steps

variable
  {pool : ConnPool}
  {limits : KeepAlive}
  {system next : System}
  {now : Nat}

/-- A request goes on without a connection, or with the one it had. -/
theorem drops_without
    {request : Nat}
    {phase : Phase}
    (inTime : system.clock ≤ now)
    (keeps :
      ∀ held,
        phase.held? = some held →
        (system.phase request).held? = some held) :
    Drops system { system.without request phase with clock := now } where
  queues := fun _ _ => List.Sublist.refl _
  phases := by
    intro other held isHeld
    by_cases same : other = request
    · subst same
      simp only [System.without, Function.update_self] at isHeld
      exact keeps held isHeld
    · simp only [System.without, Function.update_of_ne same] at isHeld
      exact isHeld
  opened := rfl
  born := rfl
  uses := rfl
  clock := inTime

/-- A connection that its request has dropped is nowhere. -/
theorem nowhere_without
    {request : Nat}
    {held : Held}
    {phase : Phase}
    (exclusive : Exclusive system)
    (isHeld : (system.phase request).held? = some held)
    (without : phase.held? = none) :
    Nowhere { system.without request phase with clock := now } held.conn := by
  intro place isAt
  have wasAt : system.At (.request request) held.conn :=
    Option.map_eq_some_iff.mpr ⟨held, isHeld, rfl⟩
  have stillAt : system.At place held.conn ∧ place ≠ .request request := by
    cases place with
    | idle worker key =>
        exact ⟨isAt, nofun⟩
    | request other =>
        by_cases same : other = request
        · subst same
          simp only [System.At, System.without, Function.update_self, without,
            Option.map_none] at isAt
          cases isAt
        · simp only [System.At, System.without,
            Function.update_of_ne same] at isAt
          exact ⟨isAt, fun isSame => same (Place.request.inj isSame)⟩
  exact stillAt.2 (exclusive.unique _ _ held.conn stillAt.1 wasAt)

theorem Invariant.handBack
    {request worker : Nat}
    {key : String}
    {held : Held}
    (invariant : Invariant pool limits system)
    (inTime : system.clock ≤ now)
    (isHeld : (system.phase request).held? = some held) :
    Invariant pool limits
      { system.handBack pool limits request worker key now held with
        clock := now } := by
  have without :=
    invariant.of_drops
      (@drops_without system now request .finished inTime nofun)
  have heldOk := invariant.held request held isHeld
  rcases release_cases pool limits key now held.conn held.createdAt
      (held.requestCount + 1) (system.workers worker) with
      isDropped | ⟨notUsedUp, isYoung, space, isPut⟩
  · rw [System.handBack, isDropped, Function.update_eq_self]
    exact without
  · rw [System.handBack, isPut]
    refine
      without.of_puts
        (@Puts.mk pool limits _ _ worker key
          ⟨held.conn, now, held.createdAt, held.requestCount + 1⟩
          (nowhere_without invariant.exclusive isHeld rfl) rfl rfl rfl rfl rfl
          (Nat.le_refl now) space ?_)
    exact
      { opened := heldOk.opened
        born := heldOk.born
        uses := heldOk.uses
        usable := notUsedUp
        young := fun positive => by
          have young := isYoung positive
          rwa [heldOk.born] at young
        returned := Nat.le_refl now }

/-- What `acquire` leaves in the queues. -/
theorem drops_acquire
    {request worker : Nat}
    {key : String}
    {phase : Phase}
    {rest : List (IdleConn Nat)}
    (inTime : system.clock ≤ now)
    (fewer : rest.Sublist (system.workers worker key))
    (without : phase.held? = none) :
    Drops system
      { system with
        workers :=
          Function.update system.workers worker
            (Function.update (system.workers worker) key rest)
        phase := Function.update system.phase request phase
        clock := now } where
  queues := by
    intro place name
    dsimp only
    by_cases samePlace : place = worker
    · subst samePlace
      rw [Function.update_self]
      by_cases sameName : name = key
      · subst sameName
        rw [Function.update_self]
        exact fewer
      · rw [Function.update_of_ne sameName]
    · rw [Function.update_of_ne samePlace]
  phases := by
    intro other held isHeld
    dsimp only at isHeld
    by_cases same : other = request
    · subst same
      rw [Function.update_self, without] at isHeld
      cases isHeld
    · rwa [Function.update_of_ne same] at isHeld
  opened := rfl
  born := rfl
  uses := rfl
  clock := inTime

/-- A connection that has been taken from its queue is nowhere. -/
theorem nowhere_taken
    {worker : Nat}
    {key : String}
    {idle : IdleConn Nat}
    {rest : List (IdleConn Nat)}
    (exclusive : Exclusive system)
    (fewer : (idle :: rest).Sublist (system.workers worker key))
    (drops : Drops system next)
    (isRest : next.workers worker key = rest) :
    Nowhere next idle.conn := by
  intro place isAt
  have inQueue : system.At (.idle worker key) idle.conn :=
    List.mem_map_of_mem (fewer.subset List.mem_cons_self)
  have samePlace :=
    exclusive.unique place (.idle worker key) idle.conn (drops.at isAt) inQueue
  subst samePlace
  have once : ((idle :: rest).map (·.conn)).Nodup :=
    (exclusive.nodup worker key).sublist (fewer.map (·.conn))
  rw [List.map_cons, List.nodup_cons] at once
  apply once.1
  rw [← isRest]
  exact isAt

theorem Invariant.acquire
    {request worker : Nat}
    {key : String}
    (invariant : Invariant pool limits system)
    (inTime : system.clock ≤ now)
    (taken :
      system.act pool limits now (.acquire request worker key) = some next) :
    Invariant pool limits { next with clock := now } := by
  obtain ⟨front, rest, isAcquired, fewer, kept⟩ :=
    acquire_spec pool now key (system.workers worker)
  simp only [System.act] at taken
  split at taken
  · rw [isAcquired] at taken
    cases front with
    | none =>
        obtain rfl := Option.some.inj taken
        exact
          invariant.of_drops
            (drops_acquire inTime fewer rfl)
    | some idle =>
        obtain rfl := Option.some.inj taken
        have isTaken : (idle :: rest).Sublist (system.workers worker key) :=
          fewer
        have drops :=
          @drops_acquire system now request worker key .finished rest inTime
            ((List.sublist_cons_self idle rest).trans isTaken) rfl
        have ok :=
          invariant.idle worker key idle (isTaken.subset List.mem_cons_self)
        refine
          (invariant.of_drops drops).of_gives
            (@Gives.mk limits _ _ request
              ⟨idle.conn, idle.createdAt, idle.requestCount⟩
              (nowhere_taken invariant.exclusive isTaken drops (by simp))
              rfl ?_ ?_ (Nat.le_refl _) ok.opened (fun _ _ => rfl) ok.born
              ?_ ?_ ok.usable (Nat.le_refl now))
        · simp [Phase.held?]
        · intro other differs
          simp [differs]
        · intro conn differs
          exact Function.update_of_ne differs _ _
        · simp [ok.uses]
  · cases taken

/-- A connection that is not opened yet is nowhere. -/
theorem Invariant.nowhere_opened
    (invariant : Invariant pool limits system) :
    Nowhere system system.opened := by
  intro place isAt
  cases place with
  | idle worker key =>
      obtain ⟨idle, member, isConn⟩ := List.mem_map.mp isAt
      have isOpened := (invariant.idle worker key idle member).opened
      omega
  | request request =>
      obtain ⟨held, isHeld, isConn⟩ := Option.map_eq_some_iff.mp isAt
      have isOpened := (invariant.held request held isHeld).opened
      omega

theorem Invariant.connected
    {request : Nat}
    (invariant : Invariant pool limits system)
    (inTime : system.clock ≤ now)
    (taken :
      system.act pool limits now (.connected request) = some next) :
    Invariant pool limits { next with clock := now } := by
  simp only [System.act] at taken
  split at taken
  · obtain rfl := Option.some.inj taken
    refine
      invariant.of_gives
        (@Gives.mk limits _ _ request ⟨system.opened, now, 0⟩
          invariant.nowhere_opened rfl ?_ ?_ (Nat.le_succ _)
          (Nat.lt_succ_self _) ?_ ?_ ?_ ?_ id inTime)
    · simp [Phase.held?]
    · intro other differs
      simp [differs]
    · intro conn differs
      exact Function.update_of_ne differs _ _
    · simp
    · intro conn differs
      exact Function.update_of_ne differs _ _
    · simp
  · cases taken

theorem Invariant.replied
    {request worker : Nat}
    {reply : Reply}
    (invariant : Invariant pool limits system)
    (inTime : system.clock ≤ now)
    (taken :
      system.act pool limits now (.replied request worker reply) =
        some next) :
    Invariant pool limits { next with clock := now } := by
  cases isPhase : system.phase request with
  | sending key again held =>
      have isHeld : (system.phase request).held? = some held := by
        rw [isPhase]
        rfl
      simp only [System.act, isPhase] at taken
      cases reply with
      | handsBack =>
          obtain rfl := Option.some.inj taken
          exact invariant.handBack inTime isHeld
      | closes =>
          obtain rfl := Option.some.inj taken
          exact invariant.of_drops (drops_without inTime nofun)
      | streams =>
          obtain rfl := Option.some.inj taken
          refine invariant.of_drops (drops_without inTime ?_)
          intro other isOther
          exact isHeld.trans isOther
      | failed bodyConsumed =>
          dsimp only at taken
          split at taken
          · obtain rfl := Option.some.inj taken
            exact invariant.of_drops (drops_without inTime nofun)
          · obtain rfl := Option.some.inj taken
            exact invariant.of_drops (drops_without inTime nofun)
  | waiting | connecting _ _ | streaming _ _ | finished =>
      simp [System.act, isPhase] at taken

theorem Invariant.act
    {action : Action}
    (invariant : Invariant pool limits system)
    (inTime : system.clock ≤ now)
    (taken : system.act pool limits now action = some next) :
    Invariant pool limits { next with clock := now } := by
  cases action with
  | acquire request worker key =>
      exact invariant.acquire inTime taken
  | connected request =>
      exact invariant.connected inTime taken
  | connectFailed request =>
      simp only [System.act] at taken
      split at taken
      · obtain rfl := Option.some.inj taken
        exact invariant.of_drops (drops_without inTime nofun)
      · cases taken
  | replied request worker reply =>
      exact invariant.replied inTime taken
  | streamed request worker handsBack =>
      simp only [System.act] at taken
      split at taken
      · rename_i isPhase
        split at taken
        · obtain rfl := Option.some.inj taken
          exact invariant.handBack inTime (by rw [isPhase]; rfl)
        · obtain rfl := Option.some.inj taken
          exact invariant.of_drops (drops_without inTime nofun)
      · cases taken
  | cancel request =>
      simp only [System.act] at taken
      split at taken
      · obtain rfl := Option.some.inj taken
        exact invariant.of_drops (drops_without inTime nofun)
      · obtain rfl := Option.some.inj taken
        exact invariant.of_drops (drops_without inTime nofun)
      · cases taken

theorem Invariant.step
    {label : Label}
    (invariant : Invariant pool limits system)
    (taken : PoolLimits.step pool limits system label = some next) :
    Invariant pool limits next := by
  unfold PoolLimits.step at taken
  split at taken
  · rename_i inTime
    obtain ⟨middle, acted, rfl⟩ := Option.map_eq_some_iff.mp taken
    exact invariant.act inTime acted
  · cases taken

/-- What is handed out has been idle for less than the timeout. -/
theorem Invariant.handsOutFresh
    {label : Label}
    (invariant : Invariant pool limits system)
    (taken : PoolLimits.step pool limits system label = some next) :
    HandsOutFresh pool system label next := by
  unfold PoolLimits.step at taken
  split at taken
  · rename_i inTime
    obtain ⟨middle, acted, rfl⟩ := Option.map_eq_some_iff.mp taken
    obtain ⟨now, action⟩ := label
    cases action with
    | acquire request worker key =>
        obtain ⟨front, rest, isAcquired, fewer, kept⟩ :=
          acquire_spec pool now key (system.workers worker)
        intro conn isAt
        simp only [System.act] at acted
        split at acted
        · rw [isAcquired] at acted
          cases front with
          | none =>
              obtain rfl := Option.some.inj acted
              simp [System.At, Phase.held?] at isAt
          | some idle =>
              obtain rfl := Option.some.inj acted
              have isTaken :
                  (idle :: rest).Sublist (system.workers worker key) :=
                fewer
              have member := isTaken.subset List.mem_cons_self
              have isConn : idle.conn = conn := by
                simpa [System.At, Phase.held?] using isAt
              have fresh := kept idle rfl
              have ok := invariant.idle worker key idle member
              have returned := ok.returned
              simp only [ConnPool.keeps, decide_eq_true_eq] at fresh
              refine ⟨idle, member, isConn, ?_, ?_⟩
              · exact Nat.le_trans returned inTime
              · dsimp only
                omega
        · cases acted
    | connected _ | connectFailed _ | replied _ _ _ | streamed _ _ _
    | cancel _ =>
        trivial
  · cases taken

/-! ## Whole runs -/

theorem Invariant.run
    {labels : List Label}
    (invariant : Invariant pool limits system)
    (reached :
      StepRun.run? (PoolLimits.step pool limits) system labels = some next) :
    Invariant pool limits next := by
  induction labels generalizing system with
  | nil =>
      obtain rfl := Option.some.inj reached
      exact invariant
  | cons label rest inductionHypothesis =>
      obtain ⟨after, taken, later⟩ := StepRun.run?_cons reached
      exact inductionHypothesis (invariant.step taken) later

theorem Invariant.along
    (invariant : Invariant pool limits system)
    (labels : List Label) :
    StepRun.Along (PoolLimits.step pool limits) (HandsOutFresh pool) system
      labels := by
  induction labels generalizing system with
  | nil =>
      trivial
  | cons label rest inductionHypothesis =>
      intro after taken
      exact
        ⟨invariant.handsOutFresh taken,
          inductionHypothesis (invariant.step taken)⟩

end Steps

/--
Whatever requests do, and whenever: every state that is reached is within the
limits of the pool, and what is handed out has been idle for less than the
timeout.
-/
theorem pool_within_limits
    (pool : ConnPool)
    (limits : KeepAlive)
    (labels : List Label) :
    (∀ system,
        StepRun.run? (step pool limits) .initial labels = some system →
        WithinLimits pool limits system) ∧
      StepRun.Along (step pool limits) (HandsOutFresh pool) .initial labels :=
  ⟨fun _ reached => (invariant_initial.run reached).withinLimits,
    invariant_initial.along labels⟩

end Sweety.PoolLimits
