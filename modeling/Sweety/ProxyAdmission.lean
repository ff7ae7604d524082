import Sweety.StepRun
import Sweety.UpstreamPool
import Mathlib.Logic.Function.Basic

namespace Sweety.ProxyAdmission

/-!
# Requests over a pool with circuit breakers

Any number of requests pick a node and are forwarded to it, interleaved access
by access: `pick` is kept as the code a request still has to run.  A request is
`out` on a node from the moment its `pick` returned the node until the handler
returns or is dropped.  Only the HTTP/1 and HTTP/2 paths of `handle` record an
outcome; the WebSocket and cached ones and `handler/grpc.rs` do not.  The retry
loop of the HTTP/1 path never picks again (`RetryLoop.retryLoop_single`).

The admin views ask `is_available` too, and health checks change the flags.
-/

/-- How a request is served once it has a node. -/
inductive ProxyPath where
  | http1
  | http2
  | webSocket
  | grpc
  | cacheHit
  deriving Repr, DecidableEq

/-- Whether the end of a request on this path is recorded at its node. -/
def ProxyPath.records : ProxyPath → Bool
  | .http1 | .http2 =>
      true
  | .webSocket | .grpc | .cacheHit =>
      false

/-- How far a request has come. -/
inductive Phase where
  | waiting
  /-- Inside `pick`, with the given code to go. -/
  | picking (path : ProxyPath) (program : PoolProgram (Option Nat))
  /-- Admitted to a node. -/
  | out (path : ProxyPath) (node : Nat)
  | finished

/-- The pool and its requests. -/
structure System where
  pool : UpstreamPool
  phase : Nat → Phase

/-- Nobody has asked for a node yet. -/
def System.initial (pool : UpstreamPool) : System where
  pool := pool
  phase := fun _ => .waiting

/-- One step of the proxy; `now` is the second at which it is made. -/
inductive Label where
  | start (request : Nat) (path : ProxyPath) (clientIp : Option String)
  /-- One atomic access of a request's `pick`. -/
  | access (request now : Nat)
  /-- The handler of a request returns. -/
  | finish (request now : Nat) (outcome : CircuitBreaker.Outcome)
  /-- The client is gone and the handler is dropped. -/
  | drop (request : Nat)
  /-- `route_upstreams_list` or `route_upstream_detail` looks at a node. -/
  | view (node now : Nat)
  /-- `mark_healthy` or `mark_unhealthy` by health check or admin API. -/
  | health (node : Nat) (healthy : Bool)
  deriving Repr, DecidableEq

/-- The node that a request's remaining `pick` code has arrived at, if any. -/
def picked? : PoolProgram (Option Nat) → Option Nat
  | .done choice =>
      choice
  | _ =>
      none

/-- The phase that follows from the code a request still has to run. -/
def phaseOf
    (path : ProxyPath)
    (program : PoolProgram (Option Nat)) :
    Phase :=
  match program with
  | .done (some node) =>
      .out path node
  | .done none =>
      .finished
  | program =>
      .picking path program

/-- `active_connections` counts every request but a cache hit. -/
def enterOn
    (path : ProxyPath)
    (node : Option Nat)
    (pool : UpstreamPool) :
    UpstreamPool :=
  match path, node with
  | .cacheHit, _ | _, none =>
      pool
  | _, some node =>
      pool.enter node

/-- What the end of a request on a path does to its node. -/
def finishNode
    (path : ProxyPath)
    (outcome : CircuitBreaker.Outcome)
    (now : Nat)
    (node : NodeState) :
    NodeState :=
  match path with
  | .http1 | .http2 =>
      { node.record outcome now with
        activeConnections := node.activeConnections - 1 }
  | .grpc =>
      match outcome with
      | .success =>
          { node with
            activeConnections := node.activeConnections - 1
            failCount := 0 }
      | .failure =>
          { node with
            activeConnections := node.activeConnections - 1
            failCount := node.failCount + 1
            healthy :=
              node.healthy && decide (node.failCount + 1 < 3) }
  | .webSocket =>
      { node with activeConnections := node.activeConnections - 1 }
  | .cacheHit =>
      node

/-- The step function.  A `pick` that panics ends the process. -/
def step?
    (system : System)
    (label : Label) :
    Option System :=
  match label with
  | .start request path clientIp =>
      match system.phase request with
      | .waiting =>
          some
            { system with
              phase :=
                Function.update system.phase request
                  (phaseOf path (system.pool.pickProgram clientIp)) }
      | _ =>
          none
  | .access request now =>
      match system.phase request with
      | .picking path (.call op next) =>
          let (reply, pool) := system.pool.answer now op
          some
            { pool := enterOn path (picked? (next reply)) pool
              phase :=
                Function.update system.phase request
                  (phaseOf path (next reply)) }
      | _ =>
          none
  | .finish request now outcome =>
      match system.phase request with
      | .out path node =>
          some
            { pool :=
                system.pool.modifyNode node (finishNode path outcome now)
              phase :=
                Function.update system.phase request .finished }
      | _ =>
          none
  | .drop request =>
      match system.phase request with
      | .out _ _ =>
          some
            { system with
              phase :=
                Function.update system.phase request .finished }
      | _ =>
          none
  | .view node now =>
      some
        { system with
          pool := (system.pool.answer now (.isAvailable node)).2 }
  | .health node healthy =>
      some
        { system with
          pool :=
            system.pool.modifyNode node fun state =>
              if healthy then state.markHealthy else state.markUnhealthy }

/-! ## Who resolves a half-open breaker -/

/--
If the breaker of a node is half-open, exactly one request is out on the node,
and its end will be recorded there.
-/
def ResolvableAt (system : System) (node : Nat) : Prop :=
  system.pool.breakerState? node = some .halfOpen →
    ∃ request path,
      system.phase request = .out path node ∧
        path.records = true ∧
        ∀ other otherPath,
          system.phase other = .out otherPath node → other = request

/-- Every half-open breaker has its one request. -/
def Resolvable (system : System) : Prop :=
  ∀ node, ResolvableAt system node

/-- Nobody is out on the node. -/
def NobodyOut (system : System) (node : Nat) : Prop :=
  ∀ request path, system.phase request ≠ .out path node

/--
The condition on one step.  An access of `pick` that moves a breaker to
half-open is its last one and returns that node, on a recording path and with
nobody else out on the node; no other `pick` returns a half-open node; an admin
view moves no breaker; and no request is dropped while the breaker of its node
is half-open.
-/
def Resolves
    (system : System)
    (label : Label)
    (_ : System) :
    Prop :=
  match label with
  | .access request now =>
      match system.phase request with
      | .picking path (.call op next) =>
          let choice := picked? (next (system.pool.answer now op).1)
          (∀ node,
            op = .isAvailable node →
            system.pool.moves now node = true →
              choice = some node ∧
                path.records = true ∧
                NobodyOut system node) ∧
            ∀ node,
              choice = some node →
                system.pool.breakerState? node ≠ some .halfOpen
      | _ =>
          True
  | .view node now =>
      system.pool.moves now node = false
  | .drop request =>
      ∀ path node,
        system.phase request = .out path node →
          system.pool.breakerState? node ≠ some .halfOpen
  | _ =>
      True

/-- A node whose breaker does not turn half-open keeps its one request. -/
theorem ResolvableAt.congr
    {before after : System}
    {node : Nat}
    (resolvable : ResolvableAt before node)
    (breaker :
      after.pool.breakerState? node = some .halfOpen →
        before.pool.breakerState? node = some .halfOpen)
    (sameOut :
      ∀ request path,
        after.phase request = .out path node ↔
          before.phase request = .out path node) :
    ResolvableAt after node := by
  intro halfOpen
  obtain ⟨request, path, isOut, records, only⟩ :=
    resolvable (breaker halfOpen)
  refine ⟨request, path, (sameOut request path).mpr isOut, records, ?_⟩
  intro other otherPath otherOut
  exact only other otherPath ((sameOut other otherPath).mp otherOut)

/-- A request that is out on a node neither before nor after changes nothing. -/
theorem out_update_iff
    {phase : Nat → Phase}
    {request node : Nat}
    {next : Phase}
    (notBefore : ∀ path, phase request ≠ .out path node)
    (notAfter : ∀ path, next ≠ .out path node)
    (other : Nat)
    (path : ProxyPath) :
    Function.update phase request next other = .out path node ↔
      phase other = .out path node := by
  by_cases same : other = request
  · subst same
    rw [Function.update_self]
    exact iff_of_false (notAfter path) (notBefore path)
  · rw [Function.update_of_ne same]

/-- A request is out on the node its `pick` returned. -/
theorem phaseOf_out_iff
    {path outPath : ProxyPath}
    {program : PoolProgram (Option Nat)}
    {node : Nat} :
    phaseOf path program = .out outPath node ↔
      path = outPath ∧ picked? program = some node := by
  cases program with
  | done choice =>
      cases choice <;> simp [phaseOf, picked?]
  | abort =>
      simp [phaseOf, picked?]
  | call op next =>
      simp [phaseOf, picked?]

/-- Before its first access `pick` has not arrived at a node. -/
theorem picked?_pickProgram
    (pool : UpstreamPool)
    (clientIp : Option String) :
    picked? (pool.pickProgram clientIp) = none := by
  unfold UpstreamPool.pickProgram UpstreamPool.indices
  cases pool.nodes with
  | nil =>
      rfl
  | cons node rest =>
      rw [List.length_cons, List.range_eq_range', List.range'_succ]
      rfl

/-- Counting connections leaves the breakers alone. -/
theorem breakerState?_enterOn
    (path : ProxyPath)
    (choice : Option Nat)
    (pool : UpstreamPool)
    (node : Nat) :
    (enterOn path choice pool).breakerState? node =
      pool.breakerState? node := by
  unfold enterOn
  split
  · rfl
  · rfl
  · apply UpstreamPool.breakerState?_modifyNode_of_same
    intro state
    rfl

/-- The end of a request leaves the breakers of other nodes alone. -/
theorem breakerState?_finish_of_ne
    {index node : Nat}
    (other : index ≠ node)
    (path : ProxyPath)
    (outcome : CircuitBreaker.Outcome)
    (now : Nat)
    (pool : UpstreamPool) :
    (pool.modifyNode index
        (finishNode path outcome now)).breakerState? node =
      pool.breakerState? node := by
  rw [UpstreamPool.breakerState?_modifyNode, if_neg other]

/-- A recorded outcome leaves no breaker half-open. -/
theorem breakerState?_finish_ne_halfOpen
    {path : ProxyPath}
    (records : path.records = true)
    (node : Nat)
    (outcome : CircuitBreaker.Outcome)
    (now : Nat)
    (pool : UpstreamPool) :
    (pool.modifyNode node
        (finishNode path outcome now)).breakerState? node ≠
      some .halfOpen := by
  have recorded :
      ∀ state : NodeState,
        (finishNode path outcome now state).circuitBreaker =
          state.circuitBreaker.map (·.record outcome now) := by
    intro state
    cases path with
    | http1 | http2 =>
        exact NodeState.record_circuitBreaker outcome now state
    | webSocket | grpc | cacheHit =>
        cases records
  rw [UpstreamPool.breakerState?_modifyNode, if_pos rfl]
  intro isHalfOpen
  simp only [recorded, Option.map_eq_some_iff,
    Option.bind_eq_some_iff] at isHalfOpen
  obtain ⟨_, ⟨_, _, breaker, _, rfl⟩, halfOpen⟩ := isHalfOpen
  exact CircuitBreaker.record_state_ne_halfOpen outcome halfOpen

/-- An end that is not recorded leaves the breakers alone. -/
theorem breakerState?_finish_of_not_records
    {path : ProxyPath}
    (notRecorded : path.records = false)
    (index node : Nat)
    (outcome : CircuitBreaker.Outcome)
    (now : Nat)
    (pool : UpstreamPool) :
    (pool.modifyNode index
        (finishNode path outcome now)).breakerState? node =
      pool.breakerState? node := by
  apply UpstreamPool.breakerState?_modifyNode_of_same
  intro state
  cases path with
  | http1 | http2 =>
      cases notRecorded
  | webSocket | cacheHit =>
      rfl
  | grpc =>
      cases outcome <;> rfl

/-! ## Every step keeps the half-open breakers resolvable -/

variable {before after : System}

theorem Resolvable.start
    {request : Nat}
    {path : ProxyPath}
    {clientIp : Option String}
    (resolvable : Resolvable before)
    (taken : step? before (.start request path clientIp) = some after) :
    Resolvable after := by
  simp only [step?] at taken
  split at taken
  · rename_i waiting
    obtain rfl := Option.some.inj taken
    intro node
    refine (resolvable node).congr (fun halfOpen => halfOpen) ?_
    apply out_update_iff
    · simp [waiting]
    · intro outPath isOut
      have arrived := (phaseOf_out_iff.mp isOut).2
      rw [picked?_pickProgram] at arrived
      cases arrived
  · cases taken

theorem Resolvable.access
    {request now : Nat}
    (resolvable : Resolvable before)
    (taken : step? before (.access request now) = some after)
    (resolves : Resolves before (.access request now) after) :
    Resolvable after := by
  simp only [step?] at taken
  split at taken
  · rename_i path op next picking
    obtain rfl := Option.some.inj taken
    simp only [Resolves, picking] at resolves
    obtain ⟨moving, arriving⟩ := resolves
    intro node
    by_cases arrived :
        picked? (next (before.pool.answer now op).1) = some node
    · -- The request is now out on this node.
      intro halfOpen
      rw [breakerState?_enterOn,
        UpstreamPool.breakerState?_answer] at halfOpen
      split at halfOpen
      · rename_i moved
        obtain ⟨_, records, nobody⟩ := moving node moved.1 moved.2
        refine ⟨request, path, ?_, records, ?_⟩ <;> dsimp only
        · rw [Function.update_self, phaseOf_out_iff]
          exact ⟨rfl, arrived⟩
        · intro other otherPath otherOut
          by_contra different
          rw [Function.update_of_ne different] at otherOut
          exact nobody other otherPath otherOut
      · exact absurd halfOpen (arriving node arrived)
    · apply (resolvable node).congr
      · intro halfOpen
        rw [breakerState?_enterOn,
          UpstreamPool.breakerState?_answer] at halfOpen
        split at halfOpen
        · rename_i moved
          exact absurd (moving node moved.1 moved.2).1 arrived
        · exact halfOpen
      · apply out_update_iff
        · simp [picking]
        · intro outPath isOut
          exact arrived (phaseOf_out_iff.mp isOut).2
  · cases taken

theorem Resolvable.finish
    {request now : Nat}
    {outcome : CircuitBreaker.Outcome}
    (resolvable : Resolvable before)
    (taken : step? before (.finish request now outcome) = some after) :
    Resolvable after := by
  simp only [step?] at taken
  split at taken
  · rename_i path index isOut
    obtain rfl := Option.some.inj taken
    intro node
    by_cases here : index = node
    · subst here
      intro halfOpen
      cases records : path.records with
      | true =>
          exact absurd halfOpen
            (breakerState?_finish_ne_halfOpen records index outcome now
              before.pool)
      | false =>
          -- The one request out on the node would have been recorded.
          rw [breakerState?_finish_of_not_records records] at halfOpen
          obtain ⟨probe, probePath, probeOut, probeRecords, only⟩ :=
            resolvable index halfOpen
          obtain rfl := only request path isOut
          obtain ⟨rfl, _⟩ : path = probePath ∧ index = index := by
            simpa [isOut] using probeOut
          rw [records] at probeRecords
          cases probeRecords
    · apply (resolvable node).congr
      · rw [breakerState?_finish_of_ne here]
        exact id
      · apply out_update_iff
        · intro otherPath
          rw [isOut]
          simp [here]
        · simp
  · cases taken

theorem Resolvable.drop
    {request : Nat}
    (resolvable : Resolvable before)
    (taken : step? before (.drop request) = some after)
    (resolves : Resolves before (.drop request) after) :
    Resolvable after := by
  simp only [step?] at taken
  split at taken
  · rename_i path index isOut
    obtain rfl := Option.some.inj taken
    intro node
    by_cases here : index = node
    · subst here
      intro halfOpen
      exact absurd halfOpen (resolves path index isOut)
    · refine (resolvable node).congr (fun halfOpen => halfOpen) ?_
      apply out_update_iff
      · intro otherPath
        rw [isOut]
        simp [here]
      · simp
  · cases taken

theorem Resolvable.view
    {node now : Nat}
    (resolvable : Resolvable before)
    (taken : step? before (.view node now) = some after)
    (resolves : Resolves before (.view node now) after) :
    Resolvable after := by
  obtain rfl := Option.some.inj taken
  intro other
  apply (resolvable other).congr
  · rw [UpstreamPool.breakerState?_answer]
    split
    · rename_i moved
      obtain ⟨sameNode, moved⟩ := moved
      obtain rfl : node = other := by simpa using sameNode
      have stays : before.pool.moves now node = false := resolves
      rw [stays] at moved
      cases moved
    · exact id
  · intro request path
    rfl

theorem Resolvable.health
    {node : Nat}
    {healthy : Bool}
    (resolvable : Resolvable before)
    (taken : step? before (.health node healthy) = some after) :
    Resolvable after := by
  obtain rfl := Option.some.inj taken
  intro other
  apply (resolvable other).congr
  · rw [UpstreamPool.breakerState?_modifyNode_of_same]
    · exact id
    · intro state
      cases healthy <;> rfl
  · intro request path
    rfl

/--
One step that meets the condition keeps every half-open breaker resolvable.
-/
theorem Resolvable.step
    {label : Label}
    (resolvable : Resolvable before)
    (taken : step? before label = some after)
    (resolves : Resolves before label after) :
    Resolvable after := by
  cases label with
  | start request path clientIp =>
      exact resolvable.start taken
  | access request now =>
      exact resolvable.access taken resolves
  | finish request now outcome =>
      exact resolvable.finish taken
  | drop request =>
      exact resolvable.drop taken resolves
  | view node now =>
      exact resolvable.view taken resolves
  | health node healthy =>
      exact resolvable.health taken

/--
In every run over a pool that starts without a half-open breaker and whose steps
all meet the condition, every half-open breaker has exactly one request out on
its node, one that will record its outcome, in every state reached.
-/
theorem halfOpen_resolvable_of_resolves
    (pool : UpstreamPool)
    (labels : List Label)
    (fresh : ∀ node, pool.breakerState? node ≠ some .halfOpen)
    (resolves :
      StepRun.Along step? Resolves (System.initial pool) labels) :
    StepRun.Along step?
      (fun _ _ after => Resolvable after)
      (System.initial pool) labels :=
  StepRun.along_of_guarded
    (fun resolvable taken guard => resolvable.step taken guard)
    (fun resolvable => resolvable)
    (fun node halfOpen => absurd halfOpen (fresh node))
    resolves

/-- A breaker that opens at the first failure, for 30 seconds. -/
def sampleBreaker : CircuitBreaker :=
  CircuitBreaker.new 0 1 60 30

/-- One node with a fresh breaker. -/
def onePool : UpstreamPool :=
  UpstreamPool.samplePool [UpstreamPool.sampleNode (some sampleBreaker)] 0

/--
Request 0 is sent to the only node and fails, which opens the breaker; request 1
comes when the breaker has timed out, moves it to half-open by counting the
node, and is refused by the filter.
-/
def stuckRun : List Label :=
  [.start 0 .http1 none, .access 0 0, .access 0 0, .access 0 0,
    .finish 0 1 .failure,
    .start 1 .http1 none, .access 1 31, .access 1 31, .access 1 31]

/--
After `stuckRun` the breaker is half-open, both requests are finished, and
nobody is left to resolve it.
-/
theorem halfOpen_stuck :
    ∃ final,
      StepRun.run? step? (System.initial onePool) stuckRun = some final ∧
        final.pool.breakerState? 0 = some .halfOpen ∧
        (∀ request, NobodyOut final request) ∧
        ¬ StepRun.Along step? (fun _ _ after => Resolvable after)
          (System.initial onePool) stuckRun := by
  obtain ⟨final, runs⟩ :
      ∃ final,
        some final =
          StepRun.run? step? (System.initial onePool) stuckRun :=
    ⟨_, rfl⟩
  have halfOpen : final.pool.breakerState? 0 = some .halfOpen := by
    obtain rfl := Option.some.inj runs
    rfl
  have nobody : ∀ node, NobodyOut final node := by
    obtain rfl := Option.some.inj runs
    intro node request path isOut
    rcases request with _ | _ | request <;> cases isOut
  refine ⟨final, runs.symm, halfOpen, nobody, ?_⟩
  intro always
  have fresh : Resolvable (System.initial onePool) := by
    intro node isHalfOpen
    rcases node with _ | node <;> cases isHalfOpen
  have resolvable : Resolvable final :=
    StepRun.invariant_of_along
      (fun _ _ kept => kept) fresh always runs.symm
  obtain ⟨request, path, isOut, _⟩ := resolvable 0 halfOpen
  exact nobody 0 request path isOut

/-- A plain node, and one whose breaker opened at second 0. -/
def twoPool : UpstreamPool :=
  UpstreamPool.samplePool
    [UpstreamPool.sampleNode none,
      UpstreamPool.sampleNode
        (some { sampleBreaker with state := .opened })]
    0

/--
The breaker times out only after it has been counted out, and the plain node
turns unhealthy meanwhile: the filter itself moves the breaker and returns its
node, and the outcome closes it.
-/
def resolvedRun : List Label :=
  [.start 0 .http1 none, .access 0 29, .access 0 29, .access 0 29,
    .health 0 false, .access 0 30, .access 0 30, .finish 0 31 .success]

/-- An access that moves no breaker and does not end `pick` is harmless. -/
theorem resolves_of_quiet
    {system after : System}
    {request now : Nat}
    {path : ProxyPath}
    {op : PoolOp}
    {next : PoolReply op → PoolProgram (Option Nat)}
    (picking :
      system.phase request = .picking path (.call op next))
    (still :
      ∀ node,
        op = .isAvailable node → system.pool.moves now node = false)
    (goesOn : picked? (next (system.pool.answer now op).1) = none) :
    Resolves system (.access request now) after := by
  simp only [Resolves, picking]
  constructor
  · intro node sameOp moved
    rw [still node sameOp] at moved
    cases moved
  · intro node arrived
    rw [goesOn] at arrived
    cases arrived

theorem halfOpen_resolvable_in_turn :
    StepRun.Along step? (fun _ _ after => Resolvable after)
      (System.initial twoPool) resolvedRun := by
  apply halfOpen_resolvable_of_resolves
  · intro node isHalfOpen
    rcases node with _ | _ | node <;> cases isHalfOpen
  · -- Counting asks both nodes and moves neither breaker.
    refine (StepRun.along_cons_of_step rfl).mpr ⟨trivial, ?_⟩
    refine (StepRun.along_cons_of_step rfl).mpr
      ⟨resolves_of_quiet rfl (by rintro _ ⟨⟩; rfl) rfl, ?_⟩
    refine (StepRun.along_cons_of_step rfl).mpr
      ⟨resolves_of_quiet rfl (by rintro _ ⟨⟩; rfl) rfl, ?_⟩
    refine (StepRun.along_cons_of_step rfl).mpr
      ⟨resolves_of_quiet rfl (by rintro _ ⟨⟩) rfl, ?_⟩
    -- The filter passes over the plain node and takes the other one.
    refine (StepRun.along_cons_of_step rfl).mpr ⟨trivial, ?_⟩
    refine (StepRun.along_cons_of_step rfl).mpr
      ⟨resolves_of_quiet rfl (by rintro _ ⟨⟩; rfl) rfl, ?_⟩
    refine (StepRun.along_cons_of_step rfl).mpr ⟨⟨?_, ?_⟩, ?_⟩
    · rintro _ ⟨⟩ _
      refine ⟨rfl, rfl, ?_⟩
      intro request path isOut
      rcases request with _ | request <;> cases isOut
    · rintro _ ⟨⟩ isHalfOpen
      cases isHalfOpen
    · exact (StepRun.along_cons_of_step rfl).mpr ⟨trivial, trivial⟩

end Sweety.ProxyAdmission
