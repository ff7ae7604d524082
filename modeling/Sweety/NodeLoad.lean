import Sweety.CountedTasks
import Sweety.RetryLoop
import Sweety.StepRun

namespace Sweety.NodeLoad

open CountedTasks

/-!
# The load that a node counts

Model of `active_connections` over the atomic accesses of any number of
handlers: `handle_sweety` of `handler/reverse_proxy/mod.rs`, with its three
branches and the retry loop, and that of `handler/grpc.rs`.  The counter is an
`AtomicU32` that the handlers increase and decrease by hand; a future that is
dropped at an `await` decreases nothing.
-/

/-! ## The counter of a node -/

/-- `fetch_add(1)` on an `AtomicU32`. -/
def fetchAdd (counter : Nat) : Nat :=
  (counter + 1) % 2 ^ 32

/-- `fetch_sub(1)` on an `AtomicU32`. -/
def fetchSub (counter : Nat) : Nat :=
  (counter + (2 ^ 32 - 1)) % 2 ^ 32

/-- The counter of one node is changed. -/
def changeCounter
    (change : Nat → Nat)
    (node : Nat)
    (pool : UpstreamPool) :
    UpstreamPool :=
  pool.modifyNode node fun state =>
    { state with activeConnections := change state.activeConnections }

/-- `active_connections.fetch_add(1)`. -/
def charge (node : Nat) (pool : UpstreamPool) : UpstreamPool :=
  changeCounter fetchAdd node pool

/-- `active_connections.fetch_sub(1)`. -/
def discharge (node : Nat) (pool : UpstreamPool) : UpstreamPool :=
  changeCounter fetchSub node pool

/-- What else is done to a node; none of it reads or writes the counter. -/
inductive Update where
  | record (outcome : CircuitBreaker.Outcome) (now : Nat)
  | markHealthy
  | markUnhealthy
  deriving DecidableEq

def Update.apply : Update → NodeState → NodeState
  | .record outcome now =>
      NodeState.record outcome now
  | .markHealthy =>
      NodeState.markHealthy
  | .markUnhealthy =>
      NodeState.markUnhealthy

/-! ## Handlers -/

/-- How a request is forwarded. -/
inductive Branch where
  | websocket
  | http2
  | http1
  | grpc
  deriving DecidableEq

/-- Where a handler is, once `pick` has returned a node. -/
inductive Phase where
  /--
  Before `fetch_add`: the cache is asked, or the body of a gRPC call is read.
  -/
  | picked (branch : Branch) (node : Nat)
  /-- At the head of the retry loop; `body` is `body_for_retry.is_some()`. -/
  | attempting (node : Nat) (attempt : Nat) (body : Bool)
  /--
  Between the `fetch_sub` of the old node and the `fetch_add` of the new one.
  -/
  | switching (node : Nat) (attempt : Nat)
  /-- At the `await` of the branch. -/
  | forwarding (branch : Branch) (node : Nat) (attempt : Nat)
  /-- Before the last `fetch_sub`. -/
  | ending (node : Nat)
  | finished
  deriving DecidableEq

/-- What makes a handler move. -/
inductive Event where
  /-- The code goes on; at an `await`, it is over. -/
  | proceed
  /-- The handler returns before it forwards, or is dropped there. -/
  | leave
  /-- `continue 'retry`. -/
  | retry
  /-- `pool.pick` of a later attempt. -/
  | pick (newNode : Option Nat)
  /-- The future is dropped at an `await`: the client went away. -/
  | drop
  deriving DecidableEq

/-- A pool, and all handlers so far. -/
structure State where
  pool : UpstreamPool
  handlers : List Phase

inductive Label where
  /-- `pick` returned a node of the pool to a new handler. -/
  | arrive (branch : Branch) (node : Nat)
  | move (index : Nat) (event : Event)
  /-- One access of some `pick`. -/
  | access (now : Nat) (op : PoolOp)
  | update (node : Nat) (update : Update)

/-- One move of a handler. -/
def Phase.next
    (pool : UpstreamPool) :
    Phase → Event → Option (UpstreamPool × Phase)
  | .picked branch node, .proceed =>
      match branch with
      | .http1 =>
          some (charge node pool, .attempting node 0 true)
      | _ =>
          some (charge node pool, .forwarding branch node 0)
  | .picked _ _, .leave =>
      some (pool, .finished)
  | .attempting node 0 _, .proceed =>
      some (pool, .forwarding .http1 node 0)
  | .attempting node (_ + 1) false, .proceed =>
      some (pool, .ending node)
  | .attempting node (attempt + 1) true, .pick newNode =>
      match newNode with
      | none =>
          some (pool, .forwarding .http1 node (attempt + 1))
      | some newNode =>
          if newNode < pool.nodes.length then
            some (discharge node pool, .switching newNode (attempt + 1))
          else
            none
  | .attempting _ (_ + 1) true, .drop =>
      -- At the `sleep` of `retry_timeout`.
      some (pool, .finished)
  | .switching node attempt, .proceed =>
      some (charge node pool, .forwarding .http1 node attempt)
  | .forwarding .http1 node attempt, .retry =>
      -- `body_for_retry.take()` has left nothing.
      if attempt + 1 < RetryLoop.maxAttempts pool then
        some (pool, .attempting node (attempt + 1) false)
      else
        none
  | .forwarding _ node _, .proceed =>
      some (pool, .ending node)
  | .forwarding _ _ _, .drop =>
      some (pool, .finished)
  | .ending node, .proceed =>
      some (discharge node pool, .finished)
  | _, _ =>
      none

/-- One step of a handler, of a `pick`, or of what watches the nodes. -/
def step (state : State) : Label → Option State
  | .arrive branch node =>
      if node < state.pool.nodes.length then
        some
          { state with
            handlers := state.handlers ++ [.picked branch node] }
      else
        none
  | .move index event =>
      match state.handlers[index]? with
      | none =>
          none
      | some phase =>
          (phase.next state.pool event).map fun moved =>
            ⟨moved.1, state.handlers.set index moved.2⟩
  | .access now op =>
      some { state with pool := (state.pool.answer now op).2 }
  | .update node update =>
      some { state with pool := state.pool.modifyNode node update.apply }

/-- A new pool: `AtomicU32::new(0)` for each node. -/
def initial (pool : UpstreamPool) : State where
  pool :=
    { pool with
      nodes := pool.nodes.map fun node =>
        { node with activeConnections := 0 } }
  handlers := []

/-! ## Whose current node it is -/

/-- The current node, while it is charged. -/
def Phase.current? : Phase → Option Nat
  | .attempting node _ _ | .forwarding _ node _ | .ending node =>
      some node
  | .picked _ _ | .switching _ _ | .finished =>
      none

/-- The node is the current node of the handler. -/
def Phase.isOn (node : Nat) (phase : Phase) : Bool :=
  phase.current? = some node

/-- How many live handlers the node is the current node of. -/
def State.liveOn (state : State) (node : Nat) : Nat :=
  count (Phase.isOn node) state.handlers

/-- Every counter says what the node serves. -/
structure LoadsTrue (state : State) : Prop where
  counter :
    ∀ node, state.pool.connectionsAt node = state.liveOn node
  idle :
    ∀ node,
      (∀ phase ∈ state.handlers, phase.current? ≠ some node) →
      state.pool.connectionsAt node = 0
  /-- What the least-connections strategy reads is the true load. -/
  leastConn :
    ∀ now node,
      (state.pool.answer now (.activeConnections node)).1 =
        state.liveOn node

/-- The step drops the future of a handler that has charged a node. -/
def DropsCharged (state : State) : Label → Prop
  | .move index .drop =>
      ∃ phase node,
        state.handlers[index]? = some phase ∧
          phase.current? = some node
  | _ =>
      False

/-! ## The counters after an access -/

section Pools

variable
  {pool : UpstreamPool}
  {node other : Nat}

theorem connectionsAt_modifyNode (change : NodeState → NodeState) :
    (pool.modifyNode node change).connectionsAt other =
      if node = other then
        ((pool.nodes[other]?).map fun state =>
          (change state).activeConnections).getD 0
      else
        pool.connectionsAt other := by
  unfold UpstreamPool.connectionsAt UpstreamPool.modifyNode
  rw [List.getElem?_modify]
  split
  · cases pool.nodes[other]? <;> rfl
  · simp

theorem connectionsAt_changeCounter
    (change : Nat → Nat)
    (inRange : node < pool.nodes.length) :
    (changeCounter change node pool).connectionsAt other =
      if node = other then
        change (pool.connectionsAt other)
      else
        pool.connectionsAt other := by
  rw [changeCounter, connectionsAt_modifyNode]
  split
  · rename_i same
    subst same
    simp [UpstreamPool.connectionsAt, inRange]
  · rfl

theorem length_modifyNode (change : NodeState → NodeState) :
    (pool.modifyNode node change).nodes.length = pool.nodes.length :=
  List.length_modify _ _ _

/-- A change that leaves the counter alone leaves all counters alone. -/
theorem connectionsAt_modifyNode_of_same
    {change : NodeState → NodeState}
    (same :
      ∀ state, (change state).activeConnections = state.activeConnections) :
    (pool.modifyNode node change).connectionsAt other =
      pool.connectionsAt other := by
  rw [connectionsAt_modifyNode]
  simp [same, UpstreamPool.connectionsAt]

theorem activeConnections_apply
    (update : Update)
    (state : NodeState) :
    (update.apply state).activeConnections = state.activeConnections := by
  cases update with
  | record outcome now =>
      cases outcome <;> rfl
  | markHealthy =>
      rfl
  | markUnhealthy =>
      rfl

theorem activeConnections_isAvailable
    (now : Nat)
    (state : NodeState) :
    (state.isAvailable now).2.activeConnections =
      state.activeConnections := by
  unfold NodeState.isAvailable
  split
  · rfl
  · split <;> rfl

/-- What an access of `pick` does to the nodes. -/
theorem nodes_answer (now : Nat) (op : PoolOp) :
    (pool.answer now op).2.nodes = pool.nodes ∨
      ∃ asked state,
        pool.nodes[asked]? = some state ∧
          (pool.answer now op).2.nodes =
            pool.nodes.set asked (state.isAvailable now).2 := by
  cases op with
  | isAvailable asked =>
      cases found : pool.nodes[asked]? with
      | none =>
          left
          simp [UpstreamPool.answer, found]
      | some state =>
          right
          exact ⟨asked, state, found, by simp [UpstreamPool.answer, found]⟩
  | isHealthy node =>
      exact .inl rfl
  | weight node =>
      exact .inl rfl
  | activeConnections node =>
      exact .inl rfl
  | fetchAddCounter =>
      exact .inl rfl

/-- No access of `pick` changes a counter. -/
theorem connectionsAt_answer (now : Nat) (op : PoolOp) :
    (pool.answer now op).2.connectionsAt other =
      pool.connectionsAt other := by
  unfold UpstreamPool.connectionsAt
  rcases @nodes_answer pool now op with
    isSame | ⟨asked, state, isState, isSet⟩
  · rw [isSame]
  · rw [isSet]
    by_cases same : asked = other
    · subst same
      obtain ⟨inBounds, isAt⟩ := List.getElem?_eq_some_iff.mp isState
      simp [inBounds, isAt, activeConnections_isAvailable]
    · rw [List.getElem?_set_ne same]

theorem length_answer (now : Nat) (op : PoolOp) :
    (pool.answer now op).2.nodes.length = pool.nodes.length := by
  rcases @nodes_answer pool now op with isSame | ⟨asked, state, _, isSet⟩
  · rw [isSame]
  · rw [isSet, List.length_set]

end Pools

/-! ## One move -/

/-- The node that a handler names, charged or not. -/
def Phase.node? : Phase → Option Nat
  | .picked _ node | .attempting node _ _ | .switching node _
  | .forwarding _ node _ | .ending node =>
      some node
  | .finished =>
      none

/-- What a move does to the charge of the handler. -/
inductive Moves
    (pool : UpstreamPool)
    (phase next : Phase) :
    Event → UpstreamPool → Prop where
  | stays
      {event : Event}
      (same : next.current? = phase.current?)
      (notDrop : event = .drop → phase.current? = none) :
      Moves pool phase next event pool
  | charges
      {event : Event}
      (node : Nat)
      (isFree : phase.current? = none)
      (isNode : phase.node? = some node)
      (isOn : next.current? = some node)
      (notDrop : event ≠ .drop) :
      Moves pool phase next event (charge node pool)
  | discharges
      {event : Event}
      (node : Nat)
      (isOn : phase.current? = some node)
      (isFree : next.current? = none)
      (notDrop : event ≠ .drop) :
      Moves pool phase next event (discharge node pool)
  | abandons
      (node : Nat)
      (isOn : phase.current? = some node)
      (isFree : next.current? = none) :
      Moves pool phase next .drop pool

section OneMove

variable
  {pool after : UpstreamPool}
  {phase next : Phase}
  {event : Event}

theorem moves_of_next
    (isNext : phase.next pool event = some (after, next)) :
    Moves pool phase next event after := by
  unfold Phase.next at isNext
  split at isNext
  case h_1 branch node =>
    cases branch
    all_goals
      cases isNext
      exact .charges node rfl rfl rfl Event.noConfusion
  case h_2 =>
    cases isNext
    exact .stays rfl Event.noConfusion
  case h_3 =>
    cases isNext
    exact .stays rfl Event.noConfusion
  case h_4 =>
    cases isNext
    exact .stays rfl Event.noConfusion
  case h_5 node attempt newNode =>
    cases newNode with
    | none =>
        cases isNext
        exact .stays rfl Event.noConfusion
    | some newNode =>
        dsimp only at isNext
        split at isNext
        · cases isNext
          exact .discharges node rfl rfl Event.noConfusion
        · cases isNext
  case h_6 node attempt =>
    cases isNext
    exact .abandons node rfl rfl
  case h_7 node attempt =>
    cases isNext
    exact .charges node rfl rfl rfl Event.noConfusion
  case h_8 =>
    split at isNext
    · cases isNext
      exact .stays rfl Event.noConfusion
    · cases isNext
  case h_9 =>
    cases isNext
    exact .stays rfl Event.noConfusion
  case h_10 branch node attempt =>
    cases isNext
    exact .abandons node rfl rfl
  case h_11 node =>
    cases isNext
    exact .discharges node rfl rfl Event.noConfusion
  case h_12 =>
    cases isNext

/-- A move names a node of the pool if it named one before. -/
theorem node_of_next
    (isNext : phase.next pool event = some (after, next))
    (inRange :
      ∀ node, phase.node? = some node → node < pool.nodes.length)
    (node : Nat)
    (isNode : next.node? = some node) :
    node < pool.nodes.length := by
  unfold Phase.next at isNext
  split at isNext
  case h_1 branch first =>
    cases branch
    all_goals
      cases isNext
      exact inRange node isNode
  case h_5 first attempt newNode =>
    cases newNode with
    | none =>
        cases isNext
        exact inRange node isNode
    | some newNode =>
        dsimp only at isNext
        split at isNext
        · rename_i less
          cases isNext
          cases isNode
          exact less
        · cases isNext
  case h_8 =>
    split at isNext
    · cases isNext
      exact inRange node isNode
    · cases isNext
  case h_12 =>
    cases isNext
  all_goals
    cases isNext
    first
      | exact inRange node isNode
      | cases isNode

theorem length_of_moves
    (moves : Moves pool phase next event after) :
    after.nodes.length = pool.nodes.length := by
  cases moves with
  | stays =>
      rfl
  | charges =>
      exact length_modifyNode _
  | discharges =>
      exact length_modifyNode _
  | abandons =>
      rfl

end OneMove

/-! ## Whole runs -/

/-- What a step has to do for the counters to stay true. -/
def Honest (before : State) (label : Label) (after : State) : Prop :=
  ¬ DropsCharged before label ∧ ∀ node, after.liveOn node < 2 ^ 32

/-- Every handler names a node of the pool. -/
def InRange (state : State) : Prop :=
  ∀ phase ∈ state.handlers,
    ∀ node, phase.node? = some node → node < state.pool.nodes.length

/-- What honest steps keep. -/
structure Kept (state : State) : Prop where
  counter :
    ∀ node, state.pool.connectionsAt node = state.liveOn node
  bounded :
    ∀ node, state.liveOn node < 2 ^ 32
  inRange : InRange state

section Runs

variable
  {before after : State}
  {label : Label}

theorem kept_initial (pool : UpstreamPool) : Kept (initial pool) where
  counter node := by
    simp [UpstreamPool.connectionsAt, initial, State.liveOn,
      Function.comp_def]
    cases pool.nodes[node]? <;> rfl
  bounded _ := by
    simp [initial, State.liveOn]
  inRange := by
    intro phase isHandler
    cases isHandler

theorem Kept.loadsTrue (kept : Kept after) : LoadsTrue after where
  counter := kept.counter
  idle := by
    intro node unused
    rw [kept.counter node]
    apply List.countP_eq_zero.mpr
    intro phase isHandler isOn
    exact unused phase isHandler (of_decide_eq_true isOn)
  leastConn _ node := kept.counter node

theorem share_isOn (node : Nat) (phase : Phase) :
    share (Phase.isOn node) phase =
      if phase.current? = some node then 1 else 0 := by
  unfold share Phase.isOn
  split <;> simp [*]

/-- A handler that moves. -/
theorem move_of_step
    {index : Nat}
    {event : Event}
    (taken : step before (.move index event) = some after) :
    ∃ phase next pool,
      before.handlers[index]? = some phase ∧
        phase.next before.pool event = some (pool, next) ∧
        after = ⟨pool, before.handlers.set index next⟩ := by
  rw [step] at taken
  split at taken
  · cases taken
  · rename_i phase isHandler
    obtain ⟨⟨pool, next⟩, isNext, rfl⟩ := Option.map_eq_some_iff.mp taken
    exact ⟨phase, next, pool, isHandler, isNext, rfl⟩

/--
A step is a move of a handler, or leaves the counters and the charges alone.
-/
theorem step_cases (taken : step before label = some after) :
    ((∀ node,
        after.pool.connectionsAt node = before.pool.connectionsAt node ∧
          after.liveOn node = before.liveOn node) ∧
      ¬ DropsCharged before label) ∨
    ∃ index event phase next pool,
      label = .move index event ∧
        before.handlers[index]? = some phase ∧
        phase.next before.pool event = some (pool, next) ∧
        after = ⟨pool, before.handlers.set index next⟩ := by
  cases label with
  | arrive branch node =>
      unfold step at taken
      dsimp only at taken
      split at taken
      · cases taken
        refine .inl ⟨fun other => ⟨rfl, ?_⟩, id⟩
        exact count_start _ _ _
      · cases taken
  | move index event =>
      obtain ⟨phase, next, pool, moved⟩ := move_of_step taken
      exact .inr ⟨index, event, phase, next, pool, rfl, moved⟩
  | access now op =>
      cases taken
      exact .inl ⟨fun node => ⟨connectionsAt_answer now op, rfl⟩, id⟩
  | update node update =>
      cases taken
      refine .inl ⟨fun other => ⟨?_, rfl⟩, id⟩
      exact connectionsAt_modifyNode_of_same (activeConnections_apply update)

theorem inRange_of_step
    (inRange : InRange before)
    (taken : step before label = some after) :
    InRange after := by
  cases label with
  | arrive branch node =>
      unfold step at taken
      dsimp only at taken
      split at taken
      · rename_i less
        cases taken
        intro phase isHandler
        rcases List.mem_append.mp isHandler with isOld | isNew
        · exact inRange phase isOld
        · obtain rfl := List.mem_singleton.mp isNew
          intro other isNode
          cases isNode
          exact less
      · cases taken
  | move index event =>
      obtain ⟨phase, next, pool, isHandler, isNext, rfl⟩ := move_of_step taken
      have sameLength := length_of_moves (moves_of_next isNext)
      intro other isOther node isNode
      change node < pool.nodes.length
      rw [sameLength]
      rcases List.mem_or_eq_of_mem_set isOther with isOld | rfl
      · exact inRange other isOld node isNode
      · have inRangeNow := inRange phase (List.mem_of_getElem? isHandler)
        exact node_of_next isNext inRangeNow node isNode
  | access now op =>
      cases taken
      intro phase isHandler node isNode
      change node < (before.pool.answer now op).2.nodes.length
      rw [length_answer]
      exact inRange phase isHandler node isNode
  | update updated update =>
      cases taken
      intro phase isHandler node isNode
      change node < (before.pool.modifyNode updated _).nodes.length
      rw [length_modifyNode]
      exact inRange phase isHandler node isNode

theorem fetchSub_add_one (counter : Nat) :
    fetchSub (counter + 1) = counter % 2 ^ 32 := by
  have isSum : counter + 1 + (2 ^ 32 - 1) = counter + 2 ^ 32 := by
    rw [Nat.add_assoc]
    rfl
  rw [fetchSub, isSum, Nat.add_mod_right]

/-- After a move that is no drop, the counter says the load up to overflow. -/
theorem counter_of_move
    {index : Nat}
    {phase next : Phase}
    {event : Event}
    {pool : UpstreamPool}
    (kept : Kept before)
    (isHandler : before.handlers[index]? = some phase)
    (moves : Moves before.pool phase next event pool)
    (notDropped : ¬ DropsCharged before (.move index event))
    (node : Nat) :
    pool.connectionsAt node =
      count (Phase.isOn node) (before.handlers.set index next) %
        2 ^ 32 := by
  have moved := count_move (Phase.isOn node) isHandler next
  rw [share_isOn, share_isOn] at moved
  have isCount := kept.counter node
  have isBounded := kept.bounded node
  rw [State.liveOn] at isCount isBounded
  have inRange := kept.inRange phase (List.mem_of_getElem? isHandler)
  cases moves with
  | stays same notDrop =>
      rw [same] at moved
      rw [Nat.add_right_cancel moved, isCount, Nat.mod_eq_of_lt isBounded]
  | charges charged isFree isNode isOn notDrop =>
      rw [charge, connectionsAt_changeCounter _ (inRange _ isNode)]
      rw [isFree, isOn, if_neg (by simp), Nat.add_zero] at moved
      by_cases same : charged = node
      · subst same
        rw [if_pos rfl] at moved
        rw [if_pos rfl, moved, isCount, fetchAdd]
      · rw [if_neg (by simpa using same)] at moved
        rw [if_neg same, moved, isCount, Nat.add_zero,
          Nat.mod_eq_of_lt isBounded]
  | discharges charged isOn isFree notDrop =>
      have isNode : phase.node? = some charged := by
        cases phase <;> first | exact isOn | cases isOn
      rw [discharge, connectionsAt_changeCounter _ (inRange _ isNode)]
      rw [isOn, isFree, if_neg (by simp : ¬ none = some node),
        Nat.add_zero] at moved
      by_cases same : charged = node
      · subst same
        rw [if_pos rfl] at moved
        rw [if_pos rfl, isCount, ← moved, fetchSub_add_one]
      · rw [if_neg (by simpa using same), Nat.add_zero] at moved
        rw [if_neg same, moved, isCount, Nat.mod_eq_of_lt isBounded]
  | abandons charged isOn isFree =>
      exact absurd ⟨phase, charged, isHandler, isOn⟩ notDropped

/-- After a drop, the counter of the node says one too many. -/
theorem counter_of_drop
    {index : Nat}
    {phase next : Phase}
    {pool : UpstreamPool}
    {node : Nat}
    (kept : Kept before)
    (isHandler : before.handlers[index]? = some phase)
    (isOn : phase.current? = some node)
    (moves : Moves before.pool phase next .drop pool) :
    pool.connectionsAt node =
      count (Phase.isOn node) (before.handlers.set index next) + 1 := by
  have moved := count_move (Phase.isOn node) isHandler next
  rw [share_isOn, share_isOn, isOn, if_pos rfl] at moved
  have isCount := kept.counter node
  rw [State.liveOn] at isCount
  cases moves with
  | stays same notDrop =>
      rw [notDrop rfl] at isOn
      cases isOn
  | charges _ _ _ _ notDrop =>
      exact absurd rfl notDrop
  | discharges _ _ _ notDrop =>
      exact absurd rfl notDrop
  | abandons charged _ isFree =>
      rw [isFree, if_neg (by simp), Nat.add_zero] at moved
      rw [isCount, moved, Nat.add_zero]

/-- An honest step keeps the counters true. -/
theorem Kept.step
    (kept : Kept before)
    (taken : step before label = some after)
    (honest : Honest before label after) :
    Kept after := by
  refine ⟨?_, honest.2, inRange_of_step kept.inRange taken⟩
  intro node
  rcases step_cases taken with
    ⟨same, _⟩ | ⟨index, event, phase, next, pool, rfl, isHandler, isNext, rfl⟩
  · rw [(same node).1, (same node).2, kept.counter node]
  · have isCount :=
      counter_of_move kept isHandler (moves_of_next isNext) honest.1 node
    have isBounded := honest.2 node
    rw [State.liveOn] at isBounded ⊢
    rw [isCount, Nat.mod_eq_of_lt isBounded]

/-- True counters after a step mean that the step was honest. -/
theorem honest_of_loadsTrue
    (kept : Kept before)
    (taken : step before label = some after)
    (loadsTrue : LoadsTrue after) :
    Honest before label after := by
  rcases step_cases taken with
    ⟨same, notDropped⟩ |
      ⟨index, event, phase, next, pool, rfl, isHandler, isNext, rfl⟩
  · refine ⟨notDropped, fun node => ?_⟩
    rw [(same node).2]
    exact kept.bounded node
  · have moves := moves_of_next isNext
    have notDropped : ¬ DropsCharged before (.move index event) := by
      intro drops
      cases event with
      | drop =>
          obtain ⟨dropped, node, isDropped, isOn⟩ := drops
          rw [isHandler] at isDropped
          cases isDropped
          have tooMany := counter_of_drop kept isHandler isOn moves
          have isCount := loadsTrue.counter node
          rw [State.liveOn] at isCount
          exact absurd (tooMany.symm.trans isCount) (Nat.succ_ne_self _)
      | _ =>
          exact drops
    refine ⟨notDropped, fun node => ?_⟩
    have isRest := counter_of_move kept isHandler moves notDropped node
    have isCount := loadsTrue.counter node
    rw [← isCount]
    change pool.connectionsAt node < 2 ^ 32
    rw [isRest]
    exact Nat.mod_lt _ (by decide)

end Runs

/--
In every run the counters are true after each step exactly if no step drops the
future of a handler that has charged a node, and no node serves 2^32 at once.
-/
theorem loadsTrue_iff (pool : UpstreamPool) (labels : List Label) :
    StepRun.Along step (fun _ _ after => LoadsTrue after)
        (initial pool) labels ↔
      StepRun.Along step Honest (initial pool) labels := by
  apply StepRun.along_congr_of_guarded
    (fun kept taken honest => Kept.step kept taken honest)
    (fun kept taken => ?_) (kept_initial pool)
  constructor
  · exact honest_of_loadsTrue kept taken
  · intro honest
    exact (Kept.step kept taken honest).loadsTrue

/--
A client goes away while its request is forwarded: the node keeps the charge.
-/
theorem not_loadsTrue_of_drop :
    ¬ StepRun.Along step (fun _ _ after => LoadsTrue after)
        (initial RetryLoop.oneRetryPool)
        [.arrive .http1 0, .move 0 .proceed, .move 0 .proceed,
          .move 0 .drop] := by
  intro along
  have loadsTrue :=
    (((((along _ rfl).2 _ rfl).2 _ rfl).2 _ rfl).1).counter 0
  exact absurd loadsTrue (by decide)

end Sweety.NodeLoad
