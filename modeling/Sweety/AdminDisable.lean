import Sweety.ProxyAdmission
import Sweety.UpstreamPick

namespace Sweety.AdminDisable

open ProxyAdmission

/-!
# Nodes that the administrator has disabled

Model of the actions of `route_upstream_node_action` in
`admin_api/handlers/upstreams.rs` among requests and health checks.  `disable`
clears the health flag of a node and `enable` sets it; the flag is also cleared
by failures and set by every recorded success and every probe that succeeds.

Requests run their `pick` access by access, and anything may happen between two
accesses.
-/

/-! ## The ways through `pick` -/

section Paths

variable {down up : Nat → Bool}

/--
A reply, if the nodes that are `down` are unhealthy and those `up` are healthy.
-/
def Fits (down up : Nat → Bool) : (op : PoolOp) → PoolReply op → Prop
  | .isAvailable node, reply =>
      down node = true → reply = false
  | .isHealthy node, reply =>
      (down node = true → reply = false) ∧ (up node = true → reply = true)
  | .weight _, _ | .activeConnections _, _ | .fetchAddCounter, _ =>
      True

/-- A node is returned only if it is not down. -/
def NotDown (down : Nat → Bool) (result : Option Nat) : Prop :=
  ∀ node, result = some node → down node = false

/-- A node that is down is returned only if none of the nodes is up. -/
def Avoids
    (down up : Nat → Bool)
    (nodes : List Nat)
    (result : Option Nat) :
    Prop :=
  ∀ node,
    result = some node →
    down node = true →
    ∀ other ∈ nodes, up other = false

theorem NotDown.avoids
    {result : Option Nat}
    (notDown : NotDown down result)
    (nodes : List Nat) :
    Avoids down up nodes result := by
  intro node isNode isDown
  rw [notDown node isNode] at isDown
  cases isDown

theorem notDown_none : NotDown down none :=
  nofun

theorem notDown_some
    {node : Nat}
    (isUp : down node = false) :
    NotDown down (some node) := by
  intro other isOther
  cases isOther
  exact isUp

theorem meets_isAvailable (node : Nat) :
    Program.Meets (Fits down up)
      (fun passed => passed = true → down node = false)
      (Pick.isAvailable node) := by
  refine (Program.meets_perform (PoolOp.isAvailable node)).mono ?_
  intro passed fits hasPassed
  cases isDown : down node with
  | false =>
      rfl
  | true =>
      rw [fits isDown] at hasPassed
      cases hasPassed

theorem meets_isHealthy (node : Nat) :
    Program.Meets (Fits down up)
      (fun passed => passed = true → down node = false)
      (Pick.isHealthy node) := by
  refine (Program.meets_perform (PoolOp.isHealthy node)).mono ?_
  intro passed fits hasPassed
  cases isDown : down node with
  | false =>
      rfl
  | true =>
      rw [fits.1 isDown] at hasPassed
      cases hasPassed

/-- The nodes that are up are counted. -/
theorem meets_count_isHealthy (nodes : List Nat) :
    Program.Meets (Fits down up)
      (fun count => ∀ node ∈ nodes, up node = true → 0 < count)
      (Pick.count Pick.isHealthy nodes) := by
  induction nodes with
  | nil =>
      exact Program.meets_pure (fun _ member => nomatch member)
  | cons node rest inductionHypothesis =>
      refine
        (Program.meets_perform (PoolOp.isHealthy node)).bind
          fun passed fits => inductionHypothesis.bind fun later counted => ?_
      apply Program.meets_pure
      intro other member isUp
      rcases List.mem_cons.mp member with isNode | inRest
      · subst isNode
        rw [fits.2 isUp]
        exact Nat.succ_pos later
      · have positive := counted other inRest isUp
        cases passed with
        | false =>
            exact positive
        | true =>
            exact Nat.succ_pos later

/-- `nth` returns a node that has passed the test. -/
theorem meets_nth
    {test : Nat → PoolProgram Bool}
    (tests :
      ∀ node,
        Program.Meets (Fits down up)
          (fun passed => passed = true → down node = false) (test node))
    (nodes : List Nat)
    (index : Nat) :
    Program.Meets (Fits down up) (NotDown down)
      (Pick.nth test nodes index) := by
  induction nodes generalizing index with
  | nil =>
      exact Program.meets_pure notDown_none
  | cons node rest inductionHypothesis =>
      refine (tests node).bind fun passed isUp => ?_
      cases passed with
      | false =>
          exact inductionHypothesis index
      | true =>
          cases index with
          | zero =>
              exact Program.meets_pure (notDown_some (isUp rfl))
          | succ index =>
              exact inductionHypothesis index

theorem meets_weightedNode
    (target : Nat)
    (nodes : List Nat)
    (cumulative : Nat) :
    Program.Meets (Fits down up) (NotDown down)
      (Pick.weightedNode target nodes cumulative) := by
  induction nodes generalizing cumulative with
  | nil =>
      exact Program.meets_pure notDown_none
  | cons node rest inductionHypothesis =>
      refine (meets_isAvailable node).bind fun passed isUp => ?_
      cases passed with
      | false =>
          exact inductionHypothesis cumulative
      | true =>
          refine (Program.meets_true (Pick.weight node)).bind fun weight _ => ?_
          refine
            (Program.meets_true (Pick.checkedAdd cumulative weight)).bind
              fun sum _ => ?_
          split
          · exact Program.meets_pure (notDown_some (isUp rfl))
          · exact inductionHypothesis sum

theorem meets_last
    (nodes : List Nat)
    {found : Option Nat}
    (isUp : NotDown down found) :
    Program.Meets (Fits down up) (NotDown down) (Pick.last nodes found) := by
  induction nodes generalizing found with
  | nil =>
      exact Program.meets_pure isUp
  | cons node rest inductionHypothesis =>
      refine (meets_isAvailable node).bind fun passed nodeUp => ?_
      cases passed with
      | false =>
          exact inductionHypothesis isUp
      | true =>
          exact inductionHypothesis (notDown_some (nodeUp rfl))

theorem meets_leastConn
    (nodes : List Nat)
    {best : Option (Nat × Nat)}
    (isUp : NotDown down (best.map (·.1))) :
    Program.Meets (Fits down up) (NotDown down)
      (Pick.leastConn nodes best) := by
  induction nodes generalizing best with
  | nil =>
      exact Program.meets_pure isUp
  | cons node rest inductionHypothesis =>
      refine (meets_isAvailable node).bind fun passed nodeUp => ?_
      cases passed with
      | false =>
          exact inductionHypothesis isUp
      | true =>
          refine
            (Program.meets_true (Pick.activeConnections node)).bind
              fun connections _ => ?_
          cases best with
          | none =>
              exact inductionHypothesis (notDown_some (nodeUp rfl))
          | some kept =>
              dsimp only
              split
              · exact inductionHypothesis (notDown_some (nodeUp rfl))
              · exact inductionHypothesis isUp

theorem meets_byStrategy
    (strategy : LoadBalanceStrategy)
    (clientIp : Option String)
    (nodes : List Nat)
    (availCount : Nat) :
    Program.Meets (Fits down up) (NotDown down)
      (Pick.byStrategy strategy clientIp nodes availCount) := by
  cases strategy with
  | roundRobin =>
      exact
        (Program.meets_true Pick.fetchAddCounter).bind fun ticket _ =>
          meets_nth meets_isAvailable nodes (ticket % availCount)
  | weighted =>
      refine
        (Program.meets_true (Pick.totalWeight nodes 0)).bind fun total _ => ?_
      dsimp only
      split
      · exact meets_nth meets_isAvailable nodes 0
      · refine
          (Program.meets_true Pick.fetchAddCounter).bind fun ticket _ =>
            (meets_weightedNode _ nodes 0).bind fun chosen isUp => ?_
        cases chosen with
        | none =>
            exact meets_last nodes notDown_none
        | some node =>
            exact Program.meets_pure isUp
  | leastConn =>
      exact meets_leastConn nodes notDown_none
  | ipHash =>
      exact meets_nth meets_isAvailable nodes _

/-- The fallback takes a node that is down only if no node is up. -/
theorem meets_degraded (nodes : List Nat) :
    Program.Meets (Fits down up) (Avoids down up nodes)
      (Pick.degraded nodes) := by
  refine (meets_count_isHealthy nodes).bind fun count counted => ?_
  by_cases someHealthy : 0 < count
  · rw [if_pos someHealthy]
    refine
      (Program.meets_true Pick.fetchAddCounter).bind fun ticket _ =>
        (meets_nth meets_isHealthy nodes (ticket % count)).mono ?_
    intro result notDown
    exact notDown.avoids nodes
  · rw [if_neg someHealthy]
    split
    · exact Program.meets_pure (notDown_none.avoids nodes)
    · refine
        (Program.meets_true Pick.fetchAddCounter).bind fun ticket _ =>
          Program.meets_pure ?_
      intro node isNode isDown other member
      cases isUp : up other with
      | false =>
          rfl
      | true =>
          exact absurd (counted other member isUp) someHealthy

/-- `pick` returns a node that is down only if no node is up. -/
theorem meets_pick
    (strategy : LoadBalanceStrategy)
    (clientIp : Option String)
    (nodes : List Nat) :
    Program.Meets (Fits down up) (Avoids down up nodes)
      (Pick.pick strategy clientIp nodes) := by
  refine
    (Program.meets_true (Pick.count Pick.isAvailable nodes)).bind
      fun availCount _ => ?_
  split
  · exact meets_degraded nodes
  · refine (meets_byStrategy strategy clientIp nodes availCount).mono ?_
    intro result notDown
    exact notDown.avoids nodes

end Paths

/-! ## Requests, health checks and the administrator -/

/-- A call of `pick`, and what has been true all through it. -/
structure Call where
  path : ProxyPath
  program : PoolProgram (Option Nat)
  /-- The nodes that were disabled when it began and have been so ever since. -/
  disabledSince : Nat → Bool
  /-- The nodes that were available when it began and healthy ever since. -/
  availableSince : Nat → Bool

/-- How far a request has come. -/
inductive Phase where
  | waiting
  | picking (call : Call)
  | out (path : ProxyPath) (node : Nat)
  | finished

/-- A pool, its requests, and which nodes the administrator has disabled. -/
structure System where
  pool : UpstreamPool
  phase : Nat → Phase
  disabled : Nat → Bool

/-- How a probe of `health_check_task` ends. -/
inductive ProbeResult where
  | answered (code : Nat)
  | failed
  | timedOut
  deriving Repr, DecidableEq

def ProbeResult.isSuccess : ProbeResult → Bool
  | .answered code =>
      decide (200 ≤ code ∧ code < 300)
  | .failed | .timedOut =>
      false

/-- What `health_check_task` does to a node after a probe. -/
def probeNode (result : ProbeResult) (node : NodeState) : NodeState :=
  match result with
  | .answered code =>
      if 200 ≤ code ∧ code < 300 then
        node.markHealthy
      else if 3 ≤ node.failCount + 1 then
        { node with failCount := node.failCount + 1 }.markUnhealthy
      else
        { node with failCount := node.failCount + 1 }
  | .failed | .timedOut =>
      node.markUnhealthy

/-- The steps; `now` is the second at which one is made. -/
inductive Label where
  | start (request now : Nat) (path : ProxyPath) (clientIp : Option String)
  /-- One atomic access of a request's `pick`. -/
  | access (request now : Nat)
  /-- The handler of a request returns. -/
  | finish (request now : Nat) (outcome : CircuitBreaker.Outcome)
  /-- The client is gone and the handler is dropped. -/
  | drop (request : Nat)
  | probe (node : Nat) (result : ProbeResult)
  /-- `route_upstreams_list` or `route_upstream_detail` looks at a node. -/
  | view (node now : Nat)
  | enable (addr : String)
  | disable (addr : String)
  | weight (addr : String) (weight : Nat)
  deriving Repr, DecidableEq

/-- A pool whose nodes the administrator has not touched. -/
def System.initial (pool : UpstreamPool) : System where
  pool := pool
  phase := fun _ => .waiting
  disabled := fun _ => false

/-- What has still been true all through a call. -/
def Call.observe
    (pool : UpstreamPool)
    (disabled : Nat → Bool)
    (call : Call) :
    Call :=
  { call with
    disabledSince := fun node => call.disabledSince node && disabled node
    availableSince := fun node =>
      call.availableSince node && pool.healthyAt node }

def Phase.observe
    (pool : UpstreamPool)
    (disabled : Nat → Bool) :
    Phase → Phase
  | .picking call =>
      .picking (call.observe pool disabled)
  | phase =>
      phase

/-- The calls that go on see the new pool. -/
def System.observe (system : System) : System :=
  { system with
    phase := fun request =>
      (system.phase request).observe system.pool system.disabled }

/-- The phase that follows from the code a call still has to run. -/
def Call.next (call : Call) (program : PoolProgram (Option Nat)) : Phase :=
  match program with
  | .done (some node) =>
      .out call.path node
  | .done none =>
      .finished
  | program =>
      .picking { call with program := program }

/-- `pool.nodes.iter().find(|n| n.addr.as_str() == addr)`. -/
def find? (pool : UpstreamPool) (addr : String) : Option Nat :=
  pool.nodes.findIdx? fun node => node.addr.asStr == addr

/-- An action on the node of an address; without one the answer is a 404. -/
def System.act
    (system : System)
    (addr : String)
    (change : NodeState → NodeState)
    (disabled : Bool → Bool) :
    System :=
  match find? system.pool addr with
  | none =>
      system
  | some node =>
      { system with
        pool := system.pool.modifyNode node change
        disabled :=
          Function.update system.disabled node
            (disabled (system.disabled node)) }

/-- The step itself.  A `pick` that panics ends the process. -/
def System.take (system : System) : Label → Option System
  | .start request now path clientIp =>
      match system.phase request with
      | .waiting =>
          some
            { system with
              phase :=
                Function.update system.phase request
                  ({ path := path
                     program := system.pool.pickProgram clientIp
                     disabledSince := system.disabled
                     availableSince :=
                      UpstreamPool.availableAt now system.pool : Call }.next
                    (system.pool.pickProgram clientIp)) }
      | _ =>
          none
  | .access request now =>
      match system.phase request with
      | .picking call =>
          match call.program with
          | .call op next =>
              some
                { system with
                  pool :=
                    enterOn call.path
                      (picked? (next (system.pool.answer now op).1))
                      (system.pool.answer now op).2
                  phase :=
                    Function.update system.phase request
                      (call.next (next (system.pool.answer now op).1)) }
          | _ =>
              none
      | _ =>
          none
  | .finish request now outcome =>
      match system.phase request with
      | .out path node =>
          some
            { system with
              pool :=
                system.pool.modifyNode node (finishNode path outcome now)
              phase :=
                Function.update system.phase request .finished }
      | _ =>
          none
  | .drop request =>
      match system.phase request with
      | .out _ _ =>
          some
            { system with
              phase :=
                Function.update system.phase request .finished }
      | _ =>
          none
  | .probe node result =>
      some
        { system with
          pool := system.pool.modifyNode node (probeNode result) }
  | .view node now =>
      some
        { system with
          pool := (system.pool.answer now (.isAvailable node)).2 }
  | .enable addr =>
      some (system.act addr NodeState.markHealthy fun _ => false)
  | .disable addr =>
      some (system.act addr NodeState.markUnhealthy fun _ => true)
  | .weight addr weight =>
      some
        (system.act addr
          (fun node => { node with weight := weight % 2 ^ 32 }) id)

/-- One step; the calls that go on see what it has made. -/
def step (system : System) (label : Label) : Option System :=
  (system.take label).map System.observe

/-! ## What is wanted -/

/-- The call that returns a node with this step, and the node. -/
def returned? (system : System) : Label → Option (Call × Nat)
  | .access request now =>
      match system.phase request with
      | .picking call =>
          match call.program with
          | .call op next =>
              (picked? (next (system.pool.answer now op).1)).map fun node =>
                (call, node)
          | _ =>
              none
      | _ =>
          none
  | _ =>
      none

/--
If `pick` returns a node that has been disabled since before it was called, then
no other node was available all the time.
-/
def Sticks (before : System) (label : Label) (_ : System) : Prop :=
  ∀ call node,
    returned? before label = some (call, node) →
    call.disabledSince node = true →
    ∀ other, call.availableSince other = false

/-- The step sets the health flag of a node, and is not the administrator's. -/
def Revives (system : System) : Label → Nat → Prop
  | .finish request _ .success, node =>
      ∃ path,
        system.phase request = .out path node ∧ path.records = true
  | .probe probed result, node =>
      probed = node ∧ result.isSuccess = true
  | _, _ =>
      False

/--
No success is recorded for a node that is disabled, and no probe of it succeeds.
-/
def SparesDisabled (before : System) (label : Label) (_ : System) : Prop :=
  ∀ node, Revives before label node → before.disabled node = false

/-! ## The health flags after a step -/

section Health

variable
  {pool : UpstreamPool}
  {node other : Nat}

theorem healthyAt_modifyNode (change : NodeState → NodeState) :
    (pool.modifyNode node change).healthyAt other =
      if node = other then
        ((pool.nodes[other]?).map fun state =>
          (change state).healthy).getD false
      else
        pool.healthyAt other := by
  unfold UpstreamPool.healthyAt UpstreamPool.modifyNode
  rw [List.getElem?_modify]
  split
  · cases pool.nodes[other]? <;> rfl
  · simp

/-- A change that leaves the flag alone leaves all flags alone. -/
theorem healthyAt_modifyNode_of_same
    {change : NodeState → NodeState}
    (same : ∀ state, (change state).healthy = state.healthy) :
    (pool.modifyNode node change).healthyAt other =
      pool.healthyAt other := by
  rw [healthyAt_modifyNode]
  simp [same, UpstreamPool.healthyAt]

/-- A node that is unhealthy stays so if the change leaves it so. -/
theorem healthyAt_modifyNode_eq_false
    {change : NodeState → NodeState}
    (isDown : pool.healthyAt other = false)
    (stays :
      node = other →
      ∀ state, state.healthy = false → (change state).healthy = false) :
    (pool.modifyNode node change).healthyAt other = false := by
  rw [healthyAt_modifyNode]
  split
  · rename_i same
    unfold UpstreamPool.healthyAt at isDown
    cases found : pool.nodes[other]? with
    | none =>
        rfl
    | some state =>
        rw [found] at isDown
        exact stays same state isDown
  · exact isDown

theorem healthyAt_answer (now : Nat) (op : PoolOp) :
    (pool.answer now op).2.healthyAt other = pool.healthyAt other := by
  cases op with
  | isAvailable asked =>
      cases found : pool.nodes[asked]? with
      | none =>
          simp [UpstreamPool.answer, found]
      | some state =>
          have isSame : (state.isAvailable now).2.healthy = state.healthy := by
            unfold NodeState.isAvailable
            split
            · rfl
            · split <;> rfl
          obtain ⟨inBounds, isNode⟩ := List.getElem?_eq_some_iff.mp found
          by_cases same : asked = other
          · subst same
            simp [UpstreamPool.answer, UpstreamPool.healthyAt, inBounds,
              isSame, isNode]
          · simp [UpstreamPool.answer, UpstreamPool.healthyAt, found, same,
              List.getElem?_set_ne]
  | isHealthy node =>
      rfl
  | weight node =>
      rfl
  | activeConnections node =>
      rfl
  | fetchAddCounter =>
      rfl

theorem healthyAt_enterOn (path : ProxyPath) (chosen : Option Nat) :
    (enterOn path chosen pool).healthyAt other = pool.healthyAt other := by
  cases chosen with
  | none =>
      cases path <;> rfl
  | some node =>
      cases path with
      | cacheHit =>
          rfl
      | http1 | http2 | webSocket | grpc =>
          exact healthyAt_modifyNode_of_same fun _ => rfl

/-- An unhealthy node is not available. -/
theorem fits_answer
    {down up : Nat → Bool}
    (downUnhealthy : ∀ node, down node = true → pool.healthyAt node = false)
    (upHealthy : ∀ node, up node = true → pool.healthyAt node = true)
    (now : Nat)
    (op : PoolOp) :
    Fits down up op (pool.answer now op).1 := by
  cases op with
  | isAvailable node =>
      intro isDown
      have unhealthy := downUnhealthy node isDown
      unfold UpstreamPool.healthyAt at unhealthy
      cases found : pool.nodes[node]? with
      | none =>
          simp [UpstreamPool.answer, found]
      | some state =>
          rw [found] at unhealthy
          have isUnhealthy : state.healthy = false := unhealthy
          simp [UpstreamPool.answer, found, NodeState.isAvailable, isUnhealthy]
  | isHealthy node =>
      exact ⟨downUnhealthy node, upHealthy node⟩
  | weight node =>
      trivial
  | activeConnections node =>
      trivial
  | fetchAddCounter =>
      trivial

/-- Only a success of a path that records it makes a node healthy. -/
theorem finishNode_unhealthy
    {path : ProxyPath}
    {outcome : CircuitBreaker.Outcome}
    (notRecorded : ¬ (outcome = .success ∧ path.records = true))
    (now : Nat)
    (state : NodeState)
    (unhealthy : state.healthy = false) :
    (finishNode path outcome now state).healthy = false := by
  cases path with
  | http1 | http2 =>
      cases outcome with
      | success =>
          exact absurd ⟨rfl, rfl⟩ notRecorded
      | failure =>
          simp [finishNode, NodeState.record, NodeState.recordFailure,
            unhealthy]
  | grpc =>
      cases outcome with
      | success =>
          exact unhealthy
      | failure =>
          simp [finishNode, unhealthy]
  | webSocket =>
      exact unhealthy
  | cacheHit =>
      exact unhealthy

/-- Only a probe that succeeds makes a node healthy. -/
theorem probeNode_unhealthy
    {result : ProbeResult}
    (notSuccess : result.isSuccess = false)
    (state : NodeState)
    (unhealthy : state.healthy = false) :
    (probeNode result state).healthy = false := by
  cases result with
  | answered code =>
      have outside : ¬ (200 ≤ code ∧ code < 300) := by
        simpa [ProbeResult.isSuccess] using notSuccess
      rw [probeNode, if_neg outside]
      split
      · rfl
      · exact unhealthy
  | failed =>
      rfl
  | timedOut =>
      rfl

end Health

/-! ## Disabled nodes stay unhealthy -/

/-- The disabled nodes are unhealthy. -/
def DisabledUnhealthy (system : System) : Prop :=
  ∀ node, system.disabled node = true → system.pool.healthyAt node = false

/-- However little is known of the nodes, the rest of the call goes by it. -/
def CallAvoids (call : Call) : Prop :=
  ∃ nodes,
    (∀ other, call.availableSince other = true → other ∈ nodes) ∧
      ∀ down up : Nat → Bool,
        (∀ node, down node = true → call.disabledSince node = true) →
        (∀ node, up node = true → call.availableSince node = true) →
        call.program.Meets (Fits down up) (Avoids down up nodes)

/-- What a call has seen still holds, and the rest of it goes by it. -/
structure CallSound (system : System) (call : Call) : Prop where
  disabled :
    ∀ node, call.disabledSince node = true → system.disabled node = true
  healthy :
    ∀ node,
      call.availableSince node = true → system.pool.healthyAt node = true
  avoids : CallAvoids call

structure SystemSound (system : System) : Prop where
  unhealthy : DisabledUnhealthy system
  calls :
    ∀ request call,
      system.phase request = .picking call →
      CallSound system call

section Steps

variable
  {system after : System}
  {label : Label}

theorem CallAvoids.observe
    {call : Call}
    (avoids : CallAvoids call)
    (pool : UpstreamPool)
    (disabled : Nat → Bool) :
    CallAvoids (call.observe pool disabled) := by
  obtain ⟨nodes, inNodes, meets⟩ := avoids
  refine ⟨nodes, ?_, ?_⟩
  · intro other isAvailable
    exact inNodes other (Bool.and_eq_true_iff.mp isAvailable).1
  · intro down up downDisabled upAvailable
    apply meets down up
    · intro node isDown
      exact (Bool.and_eq_true_iff.mp (downDisabled node isDown)).1
    · intro node isUp
      exact (Bool.and_eq_true_iff.mp (upAvailable node isUp)).1

/-- What the calls have seen is brought up to date by `observe`. -/
theorem systemSound_observe
    (unhealthy : DisabledUnhealthy system)
    (avoids :
      ∀ request call,
        system.phase request = .picking call →
        CallAvoids call) :
    SystemSound system.observe := by
  constructor
  · exact unhealthy
  · intro request observed isObserved
    cases isPhase : system.phase request with
    | picking call =>
        have isCall : call.observe system.pool system.disabled = observed := by
          change (system.phase request).observe system.pool system.disabled =
            .picking observed at isObserved
          rw [isPhase] at isObserved
          exact Phase.picking.inj isObserved
        subst isCall
        constructor
        · intro node isDisabled
          exact (Bool.and_eq_true_iff.mp isDisabled).2
        · intro node isAvailable
          exact (Bool.and_eq_true_iff.mp isAvailable).2
        · exact (avoids request call isPhase).observe _ _
    | waiting | out path node | finished =>
        change (system.phase request).observe system.pool system.disabled =
          .picking observed at isObserved
        rw [isPhase] at isObserved
        cases isObserved

/-- The call that goes on with some code is the same call. -/
theorem next_picking
    {call later : Call}
    {program : PoolProgram (Option Nat)}
    (goesOn : call.next program = .picking later) :
    later = { call with program := program } := by
  cases program with
  | done choice =>
      cases choice with
      | none =>
          cases goesOn
      | some node =>
          cases goesOn
  | abort =>
      cases goesOn
      rfl
  | call op next =>
      cases goesOn
      rfl

/-- A call at its beginning. -/
theorem callAvoids_start
    (system : System)
    (now : Nat)
    (path : ProxyPath)
    (clientIp : Option String) :
    CallAvoids
      { path := path
        program := system.pool.pickProgram clientIp
        disabledSince := system.disabled
        availableSince := UpstreamPool.availableAt now system.pool } := by
  refine ⟨system.pool.indices, ?_, ?_⟩
  · intro other isAvailable
    obtain ⟨node, isNode, -⟩ :=
      UpstreamPool.exists_node_of_getD isAvailable
    exact List.mem_range.mpr (List.getElem?_eq_some_iff.mp isNode).1
  · intro down up _ _
    exact meets_pick system.pool.strategy clientIp system.pool.indices

/-- A call after one of its accesses. -/
theorem CallSound.next_avoids
    {call : Call}
    (sound : CallSound system call)
    (unhealthy : DisabledUnhealthy system)
    {op : PoolOp}
    {next : PoolReply op → PoolProgram (Option Nat)}
    (isCall : call.program = .call op next)
    (now : Nat) :
    CallAvoids
      { call with program := next (system.pool.answer now op).1 } := by
  obtain ⟨nodes, inNodes, meets⟩ := sound.avoids
  refine ⟨nodes, inNodes, ?_⟩
  intro down up downDisabled upAvailable
  have whole := meets down up downDisabled upAvailable
  rw [isCall] at whole
  apply whole
  apply fits_answer
  · intro node isDown
    exact unhealthy node (sound.disabled node (downDisabled node isDown))
  · intro node isUp
    exact sound.healthy node (upAvailable node isUp)

/-- An action of the administrator leaves the calls alone. -/
theorem phase_act
    (addr : String)
    (change : NodeState → NodeState)
    (disabled : Bool → Bool) :
    (system.act addr change disabled).phase = system.phase := by
  unfold System.act
  split <;> rfl

/-- What a step can do, with the phase that enables it. -/
inductive Takes (system : System) : Label → System → Prop where
  | start
      {request now : Nat}
      {path : ProxyPath}
      {clientIp : Option String}
      {call : Call}
      (isWaiting : system.phase request = .waiting)
      (avoids : CallAvoids call) :
      Takes system (.start request now path clientIp)
        { system with
          phase :=
            Function.update system.phase request
              (call.next call.program) }
  | access
      {request now : Nat}
      {call : Call}
      {op : PoolOp}
      {next : PoolReply op → PoolProgram (Option Nat)}
      (isPicking : system.phase request = .picking call)
      (isCall : call.program = .call op next) :
      Takes system (.access request now)
        { system with
          pool :=
            enterOn call.path
              (picked? (next (system.pool.answer now op).1))
              (system.pool.answer now op).2
          phase :=
            Function.update system.phase request
              (call.next (next (system.pool.answer now op).1)) }
  | finish
      {request now : Nat}
      {outcome : CircuitBreaker.Outcome}
      {path : ProxyPath}
      {node : Nat}
      (isOut : system.phase request = .out path node) :
      Takes system (.finish request now outcome)
        { system with
          pool := system.pool.modifyNode node (finishNode path outcome now)
          phase := Function.update system.phase request .finished }
  | drop
      {request : Nat}
      {path : ProxyPath}
      {node : Nat}
      (isOut : system.phase request = .out path node) :
      Takes system (.drop request)
        { system with
          phase := Function.update system.phase request .finished }
  | probe (node : Nat) (result : ProbeResult) :
      Takes system (.probe node result)
        { system with
          pool := system.pool.modifyNode node (probeNode result) }
  | view (node now : Nat) :
      Takes system (.view node now)
        { system with
          pool := (system.pool.answer now (.isAvailable node)).2 }
  | enable (addr : String) :
      Takes system (.enable addr)
        (system.act addr NodeState.markHealthy fun _ => false)
  | disable (addr : String) :
      Takes system (.disable addr)
        (system.act addr NodeState.markUnhealthy fun _ => true)
  | weight (addr : String) (weight : Nat) :
      Takes system (.weight addr weight)
        (system.act addr
          (fun node => { node with weight := weight % 2 ^ 32 }) id)

theorem takes_of_take (taken : system.take label = some after) :
    Takes system label after := by
  cases label with
  | start request now path clientIp =>
      cases isPhase : system.phase request with
      | waiting =>
          simp only [System.take, isPhase, Option.some.injEq] at taken
          subst taken
          exact .start isPhase (callAvoids_start system now path clientIp)
      | picking _ | out _ _ | finished =>
          simp [System.take, isPhase] at taken
  | access request now =>
      cases isPhase : system.phase request with
      | picking call =>
          cases isProgram : call.program with
          | call op next =>
              simp only [System.take, isPhase, isProgram,
                Option.some.injEq] at taken
              subst taken
              exact .access isPhase isProgram
          | done _ | abort =>
              simp [System.take, isPhase, isProgram] at taken
      | waiting | out _ _ | finished =>
          simp [System.take, isPhase] at taken
  | finish request now outcome =>
      cases isPhase : system.phase request with
      | out path node =>
          simp only [System.take, isPhase, Option.some.injEq] at taken
          subst taken
          exact .finish isPhase
      | waiting | picking _ | finished =>
          simp [System.take, isPhase] at taken
  | drop request =>
      cases isPhase : system.phase request with
      | out path node =>
          simp only [System.take, isPhase, Option.some.injEq] at taken
          subst taken
          exact .drop isPhase
      | waiting | picking _ | finished =>
          simp [System.take, isPhase] at taken
  | probe node result =>
      cases taken
      exact .probe node result
  | view node now =>
      cases taken
      exact .view node now
  | enable addr =>
      cases taken
      exact .enable addr
  | disable addr =>
      cases taken
      exact .disable addr
  | weight addr weight =>
      cases taken
      exact .weight addr weight

/-- The calls after a step. -/
theorem avoids_take
    (sound : SystemSound system)
    (taken : system.take label = some after)
    {request : Nat}
    {call : Call}
    (isPicking : after.phase request = .picking call) :
    CallAvoids call := by
  have kept :
      after.phase = system.phase → CallAvoids call := by
    intro isSame
    rw [isSame] at isPicking
    exact (sound.calls request call isPicking).avoids
  have updated :
      ∀ changed phase,
        after.phase = Function.update system.phase changed phase →
        (phase = .picking call → CallAvoids call) →
        CallAvoids call := by
    intro changed phase isUpdate ofPhase
    rw [isUpdate] at isPicking
    by_cases same : request = changed
    · subst same
      rw [Function.update_self] at isPicking
      exact ofPhase isPicking
    · rw [Function.update_of_ne same] at isPicking
      exact (sound.calls request call isPicking).avoids
  cases takes_of_take taken with
  | @start started _ _ _ begun isWaiting avoids =>
      apply updated started _ rfl
      intro goesOn
      rw [next_picking goesOn]
      exact avoids
  | @access asking now before op next isAsking isProgram =>
      apply updated asking _ rfl
      intro goesOn
      rw [next_picking goesOn]
      exact
        (sound.calls asking before isAsking).next_avoids sound.unhealthy
          isProgram now
  | @finish finished _ _ _ _ isOut =>
      exact updated finished .finished rfl nofun
  | @drop dropped _ _ isOut =>
      exact updated dropped .finished rfl nofun
  | probe node result =>
      exact kept rfl
  | view node now =>
      exact kept rfl
  | enable addr =>
      exact kept (phase_act addr _ _)
  | disable addr =>
      exact kept (phase_act addr _ _)
  | weight addr weight =>
      exact kept (phase_act addr _ _)

/-- An action that leaves a node unhealthy, or says that it is not disabled. -/
theorem unhealthy_act
    (unhealthy : DisabledUnhealthy system)
    (addr : String)
    {change : NodeState → NodeState}
    {disabled : Bool → Bool}
    (stays :
      ∀ was,
        disabled was = true →
        ∀ state,
          (was = true → state.healthy = false) →
          (change state).healthy = false) :
    DisabledUnhealthy (system.act addr change disabled) := by
  intro node isDisabled
  unfold System.act at isDisabled ⊢
  cases isFound : find? system.pool addr with
  | none =>
      rw [isFound] at isDisabled
      exact unhealthy node isDisabled
  | some found =>
      rw [isFound] at isDisabled
      by_cases same : node = found
      · subst same
        have nowDisabled : disabled (system.disabled node) = true := by
          simpa [Function.update_self] using isDisabled
        change (system.pool.modifyNode node change).healthyAt node = false
        rw [healthyAt_modifyNode, if_pos rfl]
        cases isNode : system.pool.nodes[node]? with
        | none =>
            rfl
        | some state =>
            refine stays _ nowDisabled state ?_
            intro wasDisabled
            have wasUnhealthy := unhealthy node wasDisabled
            rw [UpstreamPool.healthyAt, isNode] at wasUnhealthy
            exact wasUnhealthy
      · have wasDisabled : system.disabled node = true := by
          simpa [Function.update_of_ne same] using isDisabled
        change (system.pool.modifyNode found change).healthyAt node = false
        rw [healthyAt_modifyNode, if_neg (Ne.symm same)]
        exact unhealthy node wasDisabled

/-- A step that spares the disabled nodes leaves them unhealthy. -/
theorem unhealthy_take
    (unhealthy : DisabledUnhealthy system)
    (taken : system.take label = some after)
    (spares :
      ∀ node, Revives system label node → system.disabled node = false) :
    DisabledUnhealthy after := by
  have revived :
      ∀ node,
        system.disabled node = true →
        ¬ Revives system label node := by
    intro node isDisabled revives
    rw [spares node revives] at isDisabled
    cases isDisabled
  cases takes_of_take taken with
  | start isWaiting avoids =>
      exact unhealthy
  | access isAsking isProgram =>
      intro node isDisabled
      change UpstreamPool.healthyAt (enterOn _ _ _) node = false
      rw [healthyAt_enterOn, healthyAt_answer]
      exact unhealthy node isDisabled
  | @finish finished now outcome path served isOut =>
      intro node isDisabled
      apply healthyAt_modifyNode_eq_false (unhealthy node isDisabled)
      rintro rfl state isDown
      apply finishNode_unhealthy _ now state isDown
      rintro ⟨rfl, records⟩
      exact revived _ isDisabled ⟨path, isOut, records⟩
  | drop isOut =>
      exact unhealthy
  | probe probed result =>
      intro node isDisabled
      apply healthyAt_modifyNode_eq_false (unhealthy node isDisabled)
      rintro rfl state isDown
      apply probeNode_unhealthy _ state isDown
      cases isSuccess : result.isSuccess with
      | false =>
          rfl
      | true =>
          exact absurd ⟨rfl, isSuccess⟩ (revived _ isDisabled)
  | view viewed now =>
      intro node isDisabled
      change UpstreamPool.healthyAt (UpstreamPool.answer _ _ _).2 node = false
      rw [healthyAt_answer]
      exact unhealthy node isDisabled
  | enable addr =>
      exact unhealthy_act unhealthy addr nofun
  | disable addr =>
      exact unhealthy_act unhealthy addr fun _ _ _ _ => rfl
  | weight addr weight =>
      exact unhealthy_act unhealthy addr fun _ isDisabled _ wasUnhealthy =>
        wasUnhealthy isDisabled

/-- One step. -/
theorem systemSound_step
    (sound : SystemSound system)
    (taken : step system label = some after)
    (spares : SparesDisabled system label after) :
    SystemSound after := by
  obtain ⟨middle, isMiddle, rfl⟩ := Option.map_eq_some_iff.mp taken
  apply systemSound_observe
  · exact unhealthy_take sound.unhealthy isMiddle spares
  · intro request call isPicking
    exact avoids_take sound isMiddle isPicking

/-- What a step returns has gone by what the call has seen. -/
theorem sticks_of_sound
    (sound : SystemSound system) :
    Sticks system label after := by
  intro call node isReturned isDisabled other
  cases label with
  | access asking now =>
      cases isPhase : system.phase asking with
      | picking before =>
          cases isProgram : before.program with
          | call op next =>
              simp only [returned?, isPhase, isProgram,
                Option.map_eq_some_iff, Prod.mk.injEq] at isReturned
              obtain ⟨chosen, isChosen, rfl, rfl⟩ := isReturned
              obtain ⟨nodes, inNodes, meets⟩ :=
                (sound.calls asking before isPhase).next_avoids
                  sound.unhealthy isProgram now
              have avoids :=
                meets before.disabledSince before.availableSince
                  (fun _ same => same) (fun _ same => same)
              cases isRest : next (system.pool.answer now op).1 with
              | done choice =>
                  dsimp only at avoids
                  rw [isRest] at avoids isChosen
                  cases isUp : before.availableSince other with
                  | false =>
                      rfl
                  | true =>
                      have isAvoided :=
                        avoids chosen isChosen isDisabled other
                          (inNodes other isUp)
                      exact absurd isUp (by simp [isAvoided])
              | abort | call _ _ =>
                  rw [isRest] at isChosen
                  cases isChosen
          | done _ | abort =>
              simp [returned?, isPhase, isProgram] at isReturned
      | waiting | out _ _ | finished =>
          simp [returned?, isPhase] at isReturned
  | start _ _ _ _ | finish _ _ _ | drop _ | probe _ _ | view _ _
  | enable _ | disable _ | weight _ _ =>
      cases isReturned

/--
In every run in which no success is recorded for a node while it is disabled,
and no probe of it succeeds, what the administrator has disabled is left alone.
-/
theorem sticks_of_sparesDisabled
    (pool : UpstreamPool)
    (labels : List Label)
    (spares :
      StepRun.Along step SparesDisabled (System.initial pool) labels) :
    StepRun.Along step Sticks (System.initial pool) labels := by
  have start : SystemSound (System.initial pool) := by
    constructor
    · intro node isDisabled
      cases isDisabled
    · intro request call isPicking
      cases isPicking
  exact
    StepRun.along_of_guarded_step
      (fun sound taken guard => systemSound_step sound taken guard)
      (fun sound _ _ => sticks_of_sound sound)
      start spares

end Steps

section Sample

/-- Two plain nodes, of which the one with fewer connections is chosen. -/
def samplePair : UpstreamPool :=
  { UpstreamPool.samplePool
      [UpstreamPool.sampleNode none,
        { UpstreamPool.sampleNode none with
          addr := .tcp "127.0.0.1:8081" }] 0 with
    strategy := .leastConn }

/-- A request is given a node: two accesses count, and four choose. -/
def pickRun (request : Nat) : List Label :=
  [.start request 0 .http1 none, .access request 0, .access request 0,
    .access request 0, .access request 0, .access request 0,
    .access request 0]

/-- The node is disabled while a request is out on it that then fails. -/
theorem sticks_failure :
    StepRun.Along step Sticks (System.initial samplePair)
      (pickRun 0 ++ [.disable "127.0.0.1:8080", .finish 0 0 .failure]) := by
  apply sticks_of_sparesDisabled
  have sparesStart :
      ∀ (system after : System) request now path clientIp,
        SparesDisabled system (.start request now path clientIp) after :=
    fun _ _ _ _ _ _ _ revives => revives.elim
  have sparesAccess :
      ∀ (system after : System) request now,
        SparesDisabled system (.access request now) after :=
    fun _ _ _ _ _ revives => revives.elim
  intro started _
  refine ⟨sparesStart _ _ _ _ _ _, ?_⟩
  intro first _
  refine ⟨sparesAccess _ _ _ _, ?_⟩
  intro second _
  refine ⟨sparesAccess _ _ _ _, ?_⟩
  intro third _
  refine ⟨sparesAccess _ _ _ _, ?_⟩
  intro fourth _
  refine ⟨sparesAccess _ _ _ _, ?_⟩
  intro fifth _
  refine ⟨sparesAccess _ _ _ _, ?_⟩
  intro sixth _
  refine ⟨sparesAccess _ _ _ _, ?_⟩
  intro disabled _
  refine ⟨fun _ revives => revives.elim, ?_⟩
  intro failed _
  exact ⟨fun _ revives => revives.elim, trivial⟩

/-- The request succeeds, and the next one is given the disabled node. -/
theorem not_sticks_success :
    ¬ StepRun.Along step Sticks (System.initial samplePair)
      (pickRun 0 ++ [.disable "127.0.0.1:8080", .finish 0 0 .success] ++
        pickRun 1) := by
  intro along
  obtain ⟨-, along⟩ := along _ rfl
  obtain ⟨-, along⟩ := along _ rfl
  obtain ⟨-, along⟩ := along _ rfl
  obtain ⟨-, along⟩ := along _ rfl
  obtain ⟨-, along⟩ := along _ rfl
  obtain ⟨-, along⟩ := along _ rfl
  obtain ⟨-, along⟩ := along _ rfl
  obtain ⟨-, along⟩ := along _ rfl
  obtain ⟨-, along⟩ := along _ rfl
  obtain ⟨-, along⟩ := along _ rfl
  obtain ⟨-, along⟩ := along _ rfl
  obtain ⟨-, along⟩ := along _ rfl
  obtain ⟨-, along⟩ := along _ rfl
  obtain ⟨-, along⟩ := along _ rfl
  obtain ⟨-, along⟩ := along _ rfl
  obtain ⟨sticks, -⟩ := along _ rfl
  exact absurd (sticks _ 0 rfl rfl 1) (by decide)

end Sample

end Sweety.AdminDisable
