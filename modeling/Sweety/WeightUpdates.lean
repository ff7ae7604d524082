import Mathlib.Data.List.Nodup
import Sweety.AdminDisable
import Sweety.ConfigModel
import Sweety.FairPicks

namespace Sweety

/-!
# Weights from the configuration and from the administrator

A weight is a `u32` in the configuration and a `u64` in the body of the `PUT`
that `route_upstream_node_action` answers, which stores it `as u32`.  Nothing
else bounds it, and `pick` adds the weights up as `u32`.
-/

/-! ## A pool built from its configuration -/

/-- The address of a node. -/
def UpstreamAddr.ofConfig : ConfigModel.UpstreamAddr → UpstreamAddr
  | .tcp address =>
      .tcp address
  | .unix path =>
      .unix path

/-- `cfg.strategy.clone()`. -/
def LoadBalanceStrategy.ofConfig :
    ConfigModel.LoadBalanceStrategy → LoadBalanceStrategy
  | .roundRobin =>
      .roundRobin
  | .weighted =>
      .weighted
  | .leastConn =>
      .leastConn
  | .ipHash =>
      .ipHash

namespace NextUpstreamFlags

/-- `OFF`. -/
def OFF : NextUpstreamFlags :=
  ⟨0⟩

/-- The flag of a condition; `off` has been dealt with before. -/
def ofCondition : ConfigModel.NextUpstreamCondition → UInt16
  | .error => ERROR
  | .timeout => TIMEOUT
  | .http502 => HTTP_502
  | .http503 => HTTP_503
  | .http504 => HTTP_504
  | .http429 => HTTP_429
  | .nonIdempotent => NON_IDEMPOTENT
  | .invalidHeader => INVALID_HEADER
  | .off => 0

def isOffCondition : ConfigModel.NextUpstreamCondition → Bool
  | .off =>
      true
  | _ =>
      false

/-- `compile_flags`. -/
def compileFlags
    (conditions : List ConfigModel.NextUpstreamCondition) :
    NextUpstreamFlags :=
  if conditions.isEmpty then
    DEFAULT
  else if conditions.any isOffCondition then
    OFF
  else
    ⟨conditions.foldl (fun bits condition => bits ||| ofCondition condition) 0⟩

end NextUpstreamFlags

/-- `NodeState::new`, at second `now`. -/
def NodeState.new
    (now : Nat)
    (node : ConfigModel.UpstreamNode)
    (cbCfg : Option ConfigModel.CircuitBreakerConfig) :
    NodeState where
  addr := .ofConfig node.addr
  weight := node.weight.toNat
  healthy := true
  activeConnections := 0
  failCount := 0
  tls := node.tls
  tlsSni :=
    node.tlsSni.getD
      (match node.addr with
      | .tcp address =>
          String.ofList (address.toList.takeWhile (· != ':'))
      | .unix _ =>
          "localhost")
  tlsInsecure := node.tlsInsecure
  upstreamHost := node.upstreamHost
  http2 := node.http2
  sendProxyProtocol := node.sendProxyProtocol.toNat
  circuitBreaker :=
    cbCfg.map fun breaker =>
      CircuitBreaker.new now breaker.maxFailures.toNat
        breaker.windowSecs.toNat breaker.failTimeout.toNat

/-- `from_config`, at second `now`. -/
def UpstreamPool.fromConfig
    (now : Nat)
    (cfg : ConfigModel.UpstreamConfig) :
    UpstreamPool where
  nodes := cfg.nodes.map fun node => .new now node cfg.circuitBreaker
  strategy := .ofConfig cfg.strategy
  rrCounter := 0
  retry := cfg.retry.toNat
  retryTimeout := cfg.retryTimeout.toNat
  nextUpstreamFlags := .compileFlags cfg.proxyNextUpstream

namespace WeightUpdates

open AdminDisable UpstreamPool WeightedIntervals
open ProxyAdmission (enterOn finishNode)

/-! ## The numbers that were sent -/

/-- What the administrator, or else the configuration, has sent for a node. -/
def noted
    (pool : UpstreamPool)
    (sent : List Nat) :
    Label → List Nat
  | .weight addr weight =>
      match find? pool addr with
      | some node =>
          sent.set node weight
      | none =>
          sent
  | _ =>
      sent

/-- The numbers in force after a run. -/
def sentAfter
    (now : Nat)
    (cfg : ConfigModel.UpstreamConfig)
    (labels : List Label) :
    List Nat :=
  labels.foldl (noted (.fromConfig now cfg))
    (cfg.nodes.map fun node => node.weight.toNat)

/-- The numbers of the steady nodes, added up. -/
def steadySum (sent : List Nat) (pool : UpstreamPool) : Nat :=
  (((pool.nodes.zip sent).filter fun pair => pair.1.steady).map (·.2)).sum

/-- The numbers fit: each, and under weights the sum of the steady nodes'. -/
def Fits (sent : List Nat) (pool : UpstreamPool) : Prop :=
  (∀ number ∈ sent, number < 2 ^ 32) ∧
    (pool.strategy = .weighted → steadySum sent pool < 2 ^ 32)

/-- Every node has the weight that was sent, and no `pick` panics. -/
def Safe (sent : List Nat) (pool : UpstreamPool) : Prop :=
  pool.weights = sent ∧
    ∀ now clientIp, (pool.pick now clientIp).1 ≠ none

/-! ## When `pick` panics -/

section Panics

variable {now : Nat} {pool : UpstreamPool}

/-- The node that the fallback takes. -/
def degradedNode (pool : UpstreamPool) : Option Nat :=
  if 0 < pool.indices.countP pool.healthyAt then
    (pool.indices.filter pool.healthyAt)[
      pool.rrCounter % pool.indices.countP pool.healthyAt]?
  else
    pool.indices[pool.rrCounter % pool.indices.length]?

theorem run_degraded (now : Nat) (pool : UpstreamPool) :
    ((Pick.degraded pool.indices).run (answer now) pool).1 =
      some (degradedNode pool) := by
  have healthyCount :=
    run_count (observes_isHealthy now pool) pool.indices
  rw [Pick.degraded, Program.run_bind_of_some healthyCount, degradedNode]
  split
  · rw [Program.run_bind_of_some run_fetchAddCounter,
      run_nth (observes_isHealthy now pool.bumped)]
    rfl
  · split
    · rename_i isEmpty
      rw [List.isEmpty_iff.mp isEmpty]
      rfl
    · rw [Program.run_bind_of_some run_fetchAddCounter]
      rfl

theorem degradedNode_congr
    {other : UpstreamPool}
    (sameHealthy :
      pool.nodes.map (·.healthy) = other.nodes.map (·.healthy))
    (sameCounter : pool.rrCounter = other.rrCounter) :
    degradedNode pool = degradedNode other := by
  have sameLength := congrArg List.length sameHealthy
  rw [List.length_map, List.length_map] at sameLength
  have sameIndices : pool.indices = other.indices := by
    rw [indices, indices, sameLength]
  have sameFlags : pool.healthyAt = other.healthyAt := by
    funext index
    rw [healthyAt, healthyAt, ← List.getElem?_map, ← List.getElem?_map,
      sameHealthy]
  rw [degradedNode, degradedNode, sameIndices, sameFlags, sameCounter]

/-- On a settled pool only weights that do not fit panic. -/
theorem run_byStrategy_ne_none_iff
    (settled : Settled now pool)
    (clientIp : Option String)
    (availCount : Nat) :
    ((Pick.byStrategy pool.strategy clientIp pool.indices availCount).run
          (answer now) pool).1 ≠ none ↔
      (pool.strategy = .weighted →
        weightSum now pool pool.indices < 2 ^ 32) := by
  cases strategy : pool.strategy with
  | roundRobin =>
      rw [Pick.byStrategy, Program.run_bind_of_some run_fetchAddCounter,
        run_nth settled.bumped.observes]
      refine iff_of_true (Option.some_ne_none _) ?_
      intro isWeighted
      cases isWeighted
  | weighted =>
      have totalRun :=
        run_totalWeight settled pool.indices (by decide : 0 < 2 ^ 32)
      rw [Nat.zero_add] at totalRun
      by_cases fits : weightSum now pool pool.indices < 2 ^ 32
      · refine iff_of_true ?_ fun _ => fits
        rw [if_pos fits] at totalRun
        by_cases isZero : weightSum now pool pool.indices = 0
        · rw [Pick.byStrategy, Program.run_bind_of_some totalRun,
            if_pos isZero, run_nth settled.observes]
          exact Option.some_ne_none _
        · rw [run_weighted settled clientIp availCount
            (Nat.pos_of_ne_zero isZero) fits]
          exact Option.some_ne_none _
      · refine iff_of_false ?_ fun all => fits (all rfl)
        rw [if_neg fits] at totalRun
        rw [Pick.byStrategy, Program.run_bind_of_none totalRun]
        exact fun panics => panics rfl
  | leastConn =>
      obtain ⟨result, runs, _⟩ := run_leastConn settled pool.indices none
      rw [Pick.byStrategy, runs]
      refine iff_of_true (Option.some_ne_none _) ?_
      intro isWeighted
      cases isWeighted
  | ipHash =>
      rw [Pick.byStrategy, run_nth settled.observes]
      refine iff_of_true (Option.some_ne_none _) ?_
      intro isWeighted
      cases isWeighted

/-- Some sum of weights beyond `u32` comes from a node that is available. -/
theorem countP_available_pos
    (positive :
      0 < ((pool.nodes.filter (·.steady)).map (·.weight)).sum)
    (now : Nat) :
    0 < pool.nodes.countP (·.available now) := by
  rw [List.countP_pos_iff]
  cases steady : pool.nodes.filter (·.steady) with
  | nil =>
      rw [steady] at positive
      cases positive
  | cons node rest =>
      have member : node ∈ pool.nodes.filter (·.steady) := by
        rw [steady]
        exact List.mem_cons_self
      obtain ⟨inPool, isSteady⟩ := List.mem_filter.mp member
      exact ⟨node, inPool, NodeState.available_of_steady now isSteady⟩

/-- `pick` panics exactly on weights of steady nodes that do not fit. -/
theorem pick_ne_none_iff (now : Nat) (clientIp : Option String) :
    (pool.pick now clientIp).1 ≠ none ↔
      (pool.strategy = .weighted →
        ((pool.nodes.filter (·.steady)).map (·.weight)).sum < 2 ^ 32) := by
  rw [pick_eq]
  by_cases noneAvailable : pool.nodes.countP (·.available now) = 0
  · rw [if_pos noneAvailable]
    rw [run_degraded]
    refine iff_of_true nofun fun _ => ?_
    by_contra large
    have positive :=
      countP_available_pos
        (Nat.lt_of_lt_of_le (by decide) (Nat.not_lt.mp large)) now
    omega
  · rw [if_neg noneAvailable, ← weightSum_askAll now pool]
    exact
      run_byStrategy_ne_none_iff (settled_askAll now pool) clientIp
        (pool.nodes.countP (·.available now))

end Panics

/-! ## The chances of a node -/

/-- The nodes that `pick` chooses among, if there is an available one. -/
def steadyNodes (pool : UpstreamPool) : List Nat :=
  pool.indices.filter fun index =>
    ((pool.nodes[index]?).map (·.steady)).getD false

/-- Their weights. -/
def steadyWeights (pool : UpstreamPool) : List Nat :=
  (steadyNodes pool).map pool.weightAt

/-- The node that holds a ticket. -/
def ticketNode (pool : UpstreamPool) (ticket : Nat) : Option Nat :=
  if (steadyWeights pool).sum = 0 then
    (steadyNodes pool)[0]?
  else
    (holder? (steadyWeights pool)
        (ticket % (steadyWeights pool).sum)).bind
      fun place => (steadyNodes pool)[place]?

/-- With how many of the numbers that the ticket can be `pick` returns a node. -/
def chances
    (now : Nat)
    (clientIp : Option String)
    (pool : UpstreamPool)
    (index : Nat) :
    Nat :=
  Nat.count
    (fun ticket =>
      ({ pool with rrCounter := ticket }.pick now clientIp).1 =
        some (some index))
    (2 ^ 32)

section Chances

variable {now : Nat} {pool : UpstreamPool}

theorem availableNodes_askAll (now : Nat) (pool : UpstreamPool) :
    availableNodes now (pool.askAll now) = steadyNodes pool := by
  rw [availableNodes, availableAt_askAll, indices_askAll]
  rfl

theorem sum_steadyWeights (pool : UpstreamPool) :
    (steadyWeights pool).sum =
      ((pool.nodes.filter (·.steady)).map (·.weight)).sum :=
  congrArg List.sum
    (map_filter_range pool.nodes (·.steady) (·.weight) 0)

theorem weightSum_askAll_eq (now : Nat) (pool : UpstreamPool) :
    weightSum now (pool.askAll now) (pool.askAll now).indices =
      (steadyWeights pool).sum := by
  rw [weightSum_askAll, sum_steadyWeights]

/-- The node of a ticket is what the weighted strategy returns. -/
theorem pick_weighted_eq
    (weighted : pool.strategy = .weighted)
    (someAvailable : pool.nodes.countP (·.available now) ≠ 0)
    (fits : (steadyWeights pool).sum < 2 ^ 32)
    (clientIp : Option String) :
    (pool.pick now clientIp).1 =
      some (ticketNode pool (pool.rrCounter % 2 ^ 32)) := by
  have isSum := weightSum_askAll_eq now pool
  have nodesEq := availableNodes_askAll now pool
  have settled := settled_askAll now pool
  rw [pick_eq, if_neg someAvailable, weighted, ticketNode]
  by_cases isZero : (steadyWeights pool).sum = 0
  · have totalRun :=
      run_totalWeight settled (pool.askAll now).indices
        (by decide : 0 < 2 ^ 32)
    rw [Nat.zero_add, isSum, if_pos fits, isZero] at totalRun
    rw [if_pos isZero, Pick.byStrategy, Program.run_bind_of_some totalRun,
      if_pos rfl, run_nth settled.observes, ← nodesEq]
    rfl
  · rw [if_neg isZero,
      run_weighted settled clientIp _ (isSum ▸ Nat.pos_of_ne_zero isZero)
        (isSum ▸ fits), isSum, nodesEq, weightAt_askAll]
    rfl

end Chances

/-! ## What the steps do to the weights -/

section Steps

variable {pool : UpstreamPool}

theorem map_modifyNode_of_same
    {α : Type}
    {part : NodeState → α}
    {change : NodeState → NodeState}
    (same : ∀ node, part (change node) = part node)
    (index : Nat) :
    (pool.modifyNode index change).nodes.map part = pool.nodes.map part := by
  apply List.ext_getElem?
  intro place
  simp only [modifyNode, List.getElem?_map, List.getElem?_modify]
  split
  · cases pool.nodes[place]? with
    | none =>
        rfl
    | some node =>
        exact congrArg some (same node)
  · simp

theorem map_answer_of_same
    {α : Type}
    {part : NodeState → α}
    {now : Nat}
    (same : ∀ node : NodeState, part (node.asked now) = part node)
    (op : PoolOp) :
    (pool.answer now op).2.nodes.map part = pool.nodes.map part := by
  cases op with
  | isAvailable index =>
      cases found : pool.nodes[index]? with
      | none =>
          simp [answer, found]
      | some node =>
          obtain ⟨inBounds, isNode⟩ := List.getElem?_eq_some_iff.mp found
          have kept : part (node.isAvailable now).2 = part node :=
            same node
          have inMap : index < (pool.nodes.map part).length := by
            simpa using inBounds
          have there : (pool.nodes.map part)[index] = part node := by
            rw [List.getElem_map, isNode]
          simp only [answer, found]
          rw [List.map_set, kept, ← there, List.set_getElem_self]
  | isHealthy _ | weight _ | activeConnections _ | fetchAddCounter =>
      rfl

theorem map_enterOn_of_same
    {α : Type}
    {part : NodeState → α}
    (same :
      ∀ (node : NodeState) count,
        part { node with activeConnections := count } = part node)
    (path : ProxyAdmission.ProxyPath)
    (chosen : Option Nat) :
    (enterOn path chosen pool).nodes.map part = pool.nodes.map part := by
  cases chosen with
  | none =>
      cases path <;> rfl
  | some node =>
      cases path with
      | cacheHit =>
          rfl
      | http1 | http2 | webSocket | grpc =>
          exact map_modifyNode_of_same (fun _ => same _ _) node

/-- Where a node is listed, and its weight. -/
def listing (node : NodeState) : UpstreamAddr × Nat :=
  (node.addr, node.weight)

@[simp] theorem listing_asked (now : Nat) (node : NodeState) :
    listing (node.asked now) = listing node := by
  unfold NodeState.asked NodeState.isAvailable
  split
  · rfl
  · split <;> rfl

theorem listing_finishNode
    (path : ProxyAdmission.ProxyPath)
    (outcome : CircuitBreaker.Outcome)
    (now : Nat)
    (node : NodeState) :
    listing (finishNode path outcome now node) = listing node := by
  cases path with
  | http1 | http2 | grpc =>
      cases outcome <;> rfl
  | webSocket | cacheHit =>
      rfl

theorem listing_probeNode (result : ProbeResult) (node : NodeState) :
    listing (probeNode result node) = listing node := by
  cases result with
  | answered code =>
      simp only [probeNode]
      split
      · rfl
      · split <;> rfl
  | failed | timedOut =>
      rfl

end Steps

/-- A pool with another weight for one of its nodes. -/
def setWeight (pool : UpstreamPool) (index weight : Nat) : UpstreamPool :=
  pool.modifyNode index fun node => { node with weight := weight }

theorem weights_setWeight (pool : UpstreamPool) (index weight : Nat) :
    (setWeight pool index weight).weights =
      pool.weights.set index weight := by
  apply List.ext_getElem?
  intro place
  simp only [UpstreamPool.weights, setWeight, modifyNode, List.getElem?_map,
    List.getElem?_modify, List.getElem?_set, List.length_map]
  split
  · rename_i same
    subst same
    cases found : pool.nodes[index]? with
    | none =>
        have outside := List.getElem?_eq_none_iff.mp found
        simp [outside]
    | some node =>
        obtain ⟨inBounds, _⟩ := List.getElem?_eq_some_iff.mp found
        simp [inBounds]
  · simp

/-- The pool has the nodes of `origin`, with what was sent as their weights. -/
structure Tracks
    (origin : UpstreamPool)
    (sent : List Nat)
    (pool : UpstreamPool) :
    Prop where
  strategy : pool.strategy = origin.strategy
  addrs : pool.nodes.map (·.addr) = origin.nodes.map (·.addr)
  weights : pool.weights = sent.map (· % 2 ^ 32)

section Runs

variable
  {origin pool next : UpstreamPool}
  {sent : List Nat}

/-- A step that leaves the listings alone. -/
theorem Tracks.of_listing
    (tracks : Tracks origin sent pool)
    (sameStrategy : next.strategy = pool.strategy)
    (sameListing : next.nodes.map listing = pool.nodes.map listing) :
    Tracks origin sent next where
  strategy := sameStrategy.trans tracks.strategy
  addrs := by
    have byListing := congrArg (List.map Prod.fst) sameListing
    rw [List.map_map, List.map_map] at byListing
    exact byListing.trans tracks.addrs
  weights := by
    have byListing := congrArg (List.map Prod.snd) sameListing
    rw [List.map_map, List.map_map] at byListing
    exact byListing.trans tracks.weights

theorem Tracks.modifyNode
    (tracks : Tracks origin sent pool)
    {change : NodeState → NodeState}
    (same : ∀ node, listing (change node) = listing node)
    (index : Nat) :
    Tracks origin sent (pool.modifyNode index change) :=
  tracks.of_listing rfl (map_modifyNode_of_same same index)

theorem Tracks.answer
    (tracks : Tracks origin sent pool)
    (now : Nat)
    (op : PoolOp) :
    Tracks origin sent (pool.answer now op).2 := by
  have sameStrategy : (pool.answer now op).2.strategy = pool.strategy := by
    cases op with
    | isAvailable index =>
        simp only [UpstreamPool.answer]
        split <;> rfl
    | isHealthy _ | weight _ | activeConnections _ | fetchAddCounter =>
        rfl
  exact
    tracks.of_listing sameStrategy
      (map_answer_of_same (listing_asked now) op)

theorem Tracks.enterOn
    (tracks : Tracks origin sent pool)
    (path : ProxyAdmission.ProxyPath)
    (chosen : Option Nat) :
    Tracks origin sent (enterOn path chosen pool) := by
  have sameStrategy :
      (ProxyAdmission.enterOn path chosen pool).strategy = pool.strategy := by
    cases chosen <;> cases path <;> rfl
  exact
    tracks.of_listing sameStrategy
      (map_enterOn_of_same (fun _ _ => rfl) path chosen)

/-- Addresses are found where they were. -/
theorem Tracks.find?_eq
    (tracks : Tracks origin sent pool)
    (addr : String) :
    find? pool addr = find? origin addr := by
  have byAddr (pool : UpstreamPool) :
      find? pool addr =
        (pool.nodes.map (·.addr)).findIdx? (·.asStr == addr) := by
    rw [List.findIdx?_map]
    rfl
  rw [byAddr, byAddr, tracks.addrs]

/-- The administrator's number is stored, reduced. -/
theorem Tracks.set
    (tracks : Tracks origin sent pool)
    (index weight : Nat) :
    Tracks origin (sent.set index weight)
      (pool.modifyNode index fun node =>
        { node with weight := weight % 2 ^ 32 }) where
  strategy := tracks.strategy
  addrs := by
    rw [← tracks.addrs]
    apply map_modifyNode_of_same
    intro node
    rfl
  weights := by
    have stored := weights_setWeight pool index (weight % 2 ^ 32)
    rw [setWeight] at stored
    rw [stored, tracks.weights, List.map_set]

/-- What one step does. -/
theorem Tracks.step
    {system next : System}
    {label : Label}
    (tracks : Tracks origin sent system.pool)
    (taken : AdminDisable.step system label = some next) :
    Tracks origin (noted origin sent label) next.pool := by
  obtain ⟨middle, took, rfl⟩ := Option.map_eq_some_iff.mp taken
  change Tracks origin (noted origin sent label) middle.pool
  cases takes_of_take took with
  | start | drop =>
      exact tracks
  | access =>
      exact (tracks.answer _ _).enterOn _ _
  | finish =>
      exact tracks.modifyNode (listing_finishNode _ _ _) _
  | probe node result =>
      exact tracks.modifyNode (listing_probeNode result) node
  | view node now =>
      exact tracks.answer now (.isAvailable node)
  | enable addr =>
      simp only [System.act]
      split
      · exact tracks
      · apply tracks.modifyNode
        intro node
        rfl
  | disable addr =>
      simp only [System.act]
      split
      · exact tracks
      · apply tracks.modifyNode
        intro node
        rfl
  | weight addr weight =>
      have sameNode := tracks.find?_eq addr
      simp only [System.act, noted]
      cases found : find? origin addr with
      | none =>
          rw [found] at sameNode
          simp only [sameNode]
          exact tracks
      | some index =>
          rw [found] at sameNode
          simp only [sameNode]
          exact tracks.set index weight

/-- What a run does. -/
theorem Tracks.run
    {system final : System}
    {labels : List Label}
    (tracks : Tracks origin sent system.pool)
    (reached : StepRun.run? AdminDisable.step system labels = some final) :
    Tracks origin (labels.foldl (noted origin) sent) final.pool := by
  induction labels generalizing system sent with
  | nil =>
      obtain rfl := Option.some.inj reached
      exact tracks
  | cons label rest inductionHypothesis =>
      obtain ⟨next, taken, later⟩ := StepRun.run?_cons reached
      exact inductionHypothesis (tracks.step taken) later

/-- A pool that comes from its configuration has the weights written there. -/
theorem tracks_fromConfig (now : Nat) (cfg : ConfigModel.UpstreamConfig) :
    Tracks (.fromConfig now cfg)
      (cfg.nodes.map fun node => node.weight.toNat)
      (.fromConfig now cfg) where
  strategy := rfl
  addrs := rfl
  weights := by
    rw [UpstreamPool.weights, fromConfig, List.map_map, List.map_map]
    apply List.map_congr_left
    intro node _
    exact (Nat.mod_eq_of_lt node.weight.isLt).symm

end Runs

/-! ## Heavier nodes -/

section Heavier

variable
  {now : Nat}
  {pool : UpstreamPool}
  {index less more : Nat}

theorem map_setWeight_of_same
    {α : Type}
    {part : NodeState → α}
    (same :
      ∀ (node : NodeState) weight,
        part { node with weight := weight } = part node)
    (pool : UpstreamPool)
    (index weight : Nat) :
    (setWeight pool index weight).nodes.map part = pool.nodes.map part := by
  apply map_modifyNode_of_same
  intro node
  exact same node weight

theorem available_withWeight (now : Nat) (node : NodeState) (weight : Nat) :
    NodeState.available now { node with weight := weight } =
      node.available now := by
  unfold NodeState.available NodeState.isAvailable
  dsimp only
  split
  · rfl
  · split <;> rfl

theorem healthy_asked_withWeight
    (now : Nat)
    (node : NodeState)
    (weight : Nat) :
    (NodeState.asked now { node with weight := weight }).healthy =
      (node.asked now).healthy := by
  unfold NodeState.asked NodeState.isAvailable
  dsimp only
  split
  · rfl
  · split <;> rfl

theorem countP_setWeight (pool : UpstreamPool) (index weight : Nat) :
    (setWeight pool index weight).nodes.countP (·.available now) =
      pool.nodes.countP (·.available now) := by
  have same :=
    map_setWeight_of_same (available_withWeight now) pool index weight
  have counted := congrArg (List.countP id) same
  rwa [List.countP_map, List.countP_map] at counted

theorem getElem?_map_setWeight
    {α : Type}
    {part : NodeState → α}
    (same :
      ∀ (node : NodeState) weight,
        part { node with weight := weight } = part node)
    (pool : UpstreamPool)
    (index weight place : Nat) :
    ((setWeight pool index weight).nodes[place]?).map part =
      (pool.nodes[place]?).map part := by
  have mapped := map_setWeight_of_same same pool index weight
  rw [← List.getElem?_map, ← List.getElem?_map, mapped]

theorem indices_setWeight (pool : UpstreamPool) (index weight : Nat) :
    (setWeight pool index weight).indices = pool.indices := by
  simp [indices, setWeight, modifyNode]

theorem steadyNodes_setWeight (pool : UpstreamPool) (index weight : Nat) :
    steadyNodes (setWeight pool index weight) = steadyNodes pool := by
  rw [steadyNodes, steadyNodes, indices_setWeight]
  apply List.filter_congr
  intro place _
  rw [getElem?_map_setWeight (fun _ _ => rfl)]

theorem nodup_steadyNodes (pool : UpstreamPool) : (steadyNodes pool).Nodup :=
  List.nodup_range.filter _

theorem weightAt_setWeight
    (below : index < pool.nodes.length)
    (weight : Nat) :
    (setWeight pool index weight).weightAt =
      Function.update pool.weightAt index weight := by
  funext place
  rw [Function.update_apply, weightAt, setWeight, modifyNode,
    List.getElem?_modify]
  by_cases same : place = index
  · subst same
    simp [below]
  · have other : ¬index = place :=
      fun isSame => same isSame.symm
    simp [same, other, weightAt]

theorem steadyWeights_setWeight
    (steady : index ∈ steadyNodes pool)
    (weight : Nat) :
    steadyWeights (setWeight pool index weight) =
      (steadyWeights pool).set ((steadyNodes pool).idxOf index) weight := by
  have below : index < pool.nodes.length :=
    List.mem_range.mp (List.mem_filter.mp steady).1
  rw [steadyWeights, steadyNodes_setWeight, weightAt_setWeight below,
    (nodup_steadyNodes pool).map_update, if_pos steady]
  rfl

theorem steadyWeights_setWeight_of_not_steady
    (notSteady : index ∉ steadyNodes pool)
    (weight : Nat) :
    steadyWeights (setWeight pool index weight) = steadyWeights pool := by
  rw [steadyWeights, steadyNodes_setWeight, steadyWeights]
  apply List.map_congr_left
  intro place member
  have other : index ≠ place :=
    fun same => notSteady (same ▸ member)
  simp [weightAt, setWeight, modifyNode, other]

/-- A steady node is at one place. -/
theorem bind_getElem?_steadyNodes
    (steady : index ∈ steadyNodes pool)
    (place : Option Nat) :
    (place.bind fun place => (steadyNodes pool)[place]?) = some index ↔
      place = some ((steadyNodes pool).idxOf index) := by
  have within : (steadyNodes pool).idxOf index < (steadyNodes pool).length :=
    List.idxOf_lt_length_of_mem steady
  cases place with
  | none =>
      simp
  | some place =>
      rw [Option.bind_some, Option.some.injEq]
      constructor
      · intro found
        obtain ⟨inBounds, isIndex⟩ := List.getElem?_eq_some_iff.mp found
        rw [← isIndex, (nodup_steadyNodes pool).idxOf_getElem]
      · rintro rfl
        rw [List.getElem?_eq_getElem within, List.getElem_idxOf]

/-- A node that is not steady has no ticket. -/
theorem ticketNode_ne_of_not_steady
    (notSteady : index ∉ steadyNodes pool)
    (ticket : Nat) :
    ticketNode pool ticket ≠ some index := by
  intro found
  unfold ticketNode at found
  split at found
  · exact notSteady (List.mem_of_getElem? found)
  · obtain ⟨place, _, isNode⟩ := Option.bind_eq_some_iff.mp found
    exact notSteady (List.mem_of_getElem? isNode)

/-- A heavier node holds at least as many of the tickets. -/
theorem count_ticketNode_mono
    (le : less ≤ more)
    (pool : UpstreamPool)
    (index tickets : Nat) :
    Nat.count
        (fun ticket =>
          ticketNode (setWeight pool index less) ticket = some index)
        tickets ≤
      Nat.count
        (fun ticket =>
          ticketNode (setWeight pool index more) ticket = some index)
        tickets := by
  by_cases steady : index ∈ steadyNodes pool
  · have within :
        (steadyNodes pool).idxOf index < (steadyWeights pool).length := by
      rw [steadyWeights, List.length_map]
      exact List.idxOf_lt_length_of_mem steady
    have mono :=
      count_holder?_mono le (steadyWeights pool)
        ((steadyNodes pool).idxOf index) tickets
    have moreEmpty
        (isZero :
          ((steadyWeights pool).set
              ((steadyNodes pool).idxOf index) more).sum = 0) :
        ((steadyWeights pool).set
            ((steadyNodes pool).idxOf index) less).sum = 0 := by
      rw [sum_set_of_lt within] at isZero ⊢
      omega
    simp only [ticketNode, steadyNodes_setWeight,
      steadyWeights_setWeight steady]
    by_cases lessEmpty :
        ((steadyWeights pool).set
            ((steadyNodes pool).idxOf index) less).sum = 0
    · rcases Nat.eq_or_lt_of_le le with rfl | heavier
      · exact Nat.le_refl _
      · -- The node with some weight among nodes with none gets every ticket.
        have always :=
          holder?_set_of_sum_eq_zero within lessEmpty
            (Nat.zero_lt_of_lt heavier)
        have notEmpty :
            ((steadyWeights pool).set
                ((steadyNodes pool).idxOf index) more).sum ≠ 0 := by
          rw [sum_set_of_lt within]
          omega
        refine le_trans (Nat.count_le _) (Nat.le_of_eq (Eq.symm ?_))
        rw [Nat.count_iff_forall]
        intro ticket _
        rw [if_neg notEmpty, bind_getElem?_steadyNodes steady, always]
    · simp only [if_neg lessEmpty, if_neg (lessEmpty ∘ moreEmpty),
        bind_getElem?_steadyNodes steady]
      exact mono
  · have none :
        Nat.count
            (fun ticket =>
              ticketNode (setWeight pool index less) ticket = some index)
            tickets =
          0 := by
      rw [Nat.count_iff_forall_not]
      intro ticket _
      apply ticketNode_ne_of_not_steady
      rwa [steadyNodes_setWeight]
    rw [none]
    exact Nat.zero_le _

theorem steadyWeights_sum_mono
    (le : less ≤ more)
    (pool : UpstreamPool)
    (index : Nat) :
    (steadyWeights (setWeight pool index less)).sum ≤
      (steadyWeights (setWeight pool index more)).sum := by
  by_cases steady : index ∈ steadyNodes pool
  · have within :
        (steadyNodes pool).idxOf index < (steadyWeights pool).length := by
      rw [steadyWeights, List.length_map]
      exact List.idxOf_lt_length_of_mem steady
    rw [steadyWeights_setWeight steady, steadyWeights_setWeight steady,
      sum_set_of_lt within, sum_set_of_lt within]
    omega
  · rw [steadyWeights_setWeight_of_not_steady steady,
      steadyWeights_setWeight_of_not_steady steady]

/-- The fallback does not look at the weights. -/
theorem degradedNode_setWeight
    (now : Nat)
    (pool : UpstreamPool)
    (index weight : Nat) :
    degradedNode ((setWeight pool index weight).askAll now) =
      degradedNode (pool.askAll now) := by
  refine degradedNode_congr ?_ rfl
  have same :=
    @map_setWeight_of_same _ (fun node => (node.asked now).healthy)
      (healthy_asked_withWeight now) pool index weight
  rw [askAll, askAll, List.map_map, List.map_map]
  exact same

theorem chances_of_none_available
    (noneAvailable : pool.nodes.countP (·.available now) = 0)
    (clientIp : Option String)
    (index weight : Nat) :
    chances now clientIp (setWeight pool index weight) index =
      Nat.count
        (fun ticket =>
          degradedNode ({ pool with rrCounter := ticket }.askAll now) =
            some index)
        (2 ^ 32) := by
  have stillNone := (countP_setWeight pool index weight).trans noneAvailable
  unfold chances
  congr 1
  funext ticket
  rw [pick_eq, if_pos stillNone, run_degraded, Option.some.injEq]
  exact
    congrArg (· = some index)
      (degradedNode_setWeight now { pool with rrCounter := ticket } index
        weight)

theorem chances_of_available
    {weight : Nat}
    (weighted : pool.strategy = .weighted)
    (someAvailable : pool.nodes.countP (·.available now) ≠ 0)
    (fits : (steadyWeights (setWeight pool index weight)).sum < 2 ^ 32)
    (clientIp : Option String) :
    chances now clientIp (setWeight pool index weight) index =
      Nat.count
        (fun ticket =>
          ticketNode (setWeight pool index weight) ticket = some index)
        (2 ^ 32) := by
  have someLeft :
      (setWeight pool index weight).nodes.countP (·.available now) ≠ 0 := by
    rwa [countP_setWeight]
  have same
      (ticket : Nat)
      (below : ticket < 2 ^ 32) :
      ({ setWeight pool index weight with
            rrCounter := ticket }.pick now clientIp).1 = some (some index) ↔
        ticketNode (setWeight pool index weight) ticket = some index := by
    have picked :=
      @pick_weighted_eq now
        { setWeight pool index weight with rrCounter := ticket } weighted
        someLeft fits clientIp
    rw [Nat.mod_eq_of_lt below] at picked
    rw [picked, Option.some.injEq]
    rfl
  apply le_antisymm
  · exact Nat.count_mono_left fun ticket below => (same ticket below).mp
  · exact Nat.count_mono_left fun ticket below => (same ticket below).mpr

/-- With weights that fit a heavier node is returned at least as often. -/
theorem chances_mono
    (weighted : pool.strategy = .weighted)
    (le : less ≤ more)
    (fits : (steadyWeights (setWeight pool index more)).sum < 2 ^ 32)
    (now : Nat)
    (clientIp : Option String) :
    chances now clientIp (setWeight pool index less) index ≤
      chances now clientIp (setWeight pool index more) index := by
  have lessFits :=
    Nat.lt_of_le_of_lt (steadyWeights_sum_mono le pool index) fits
  by_cases noneAvailable : pool.nodes.countP (·.available now) = 0
  · rw [chances_of_none_available noneAvailable,
      chances_of_none_available noneAvailable]
  · rw [chances_of_available weighted noneAvailable lessFits,
      chances_of_available weighted noneAvailable fits]
    exact count_ticketNode_mono le pool index (2 ^ 32)

end Heavier

/-! ## The numbers and the weights -/

section Doors

variable
  {now : Nat}
  {cfg : ConfigModel.UpstreamConfig}
  {labels : List Label}
  {system : System}

theorem map_mod_eq_self_iff (sent : List Nat) :
    sent.map (· % 2 ^ 32) = sent ↔ ∀ number ∈ sent, number < 2 ^ 32 := by
  constructor
  · intro same number member
    rw [← same] at member
    obtain ⟨other, _, rfl⟩ := List.mem_map.mp member
    exact Nat.mod_lt other (by decide)
  · intro small
    rw [List.map_congr_left fun number member =>
      Nat.mod_eq_of_lt (small number member), List.map_id']

/-- With the numbers as weights the sums agree. -/
theorem steadySum_eq
    {sent : List Nat}
    {pool : UpstreamPool}
    (same : pool.weights = sent) :
    steadySum sent pool = (steadyWeights pool).sum := by
  subst same
  rw [sum_steadyWeights, steadySum, UpstreamPool.weights,
    ← List.map_prod_left_eq_zip, List.filter_map, List.map_map]
  rfl

theorem safe_iff_fits
    {origin pool : UpstreamPool}
    {sent : List Nat}
    (tracks : Tracks origin sent pool) :
    Safe sent pool ↔ Fits sent pool := by
  rw [Safe, Fits, tracks.weights, map_mod_eq_self_iff]
  refine and_congr_right fun small => ?_
  have same : pool.weights = sent :=
    tracks.weights.trans ((map_mod_eq_self_iff sent).mpr small)
  simp only [pick_ne_none_iff, ← sum_steadyWeights, ← steadySum_eq same]
  exact ⟨fun all => all 0 none, fun all _ _ => all⟩

theorem lt_of_find?
    {pool : UpstreamPool}
    {addr : String}
    {index : Nat}
    (isIndex : find? pool addr = some index) :
    index < pool.nodes.length :=
  (List.findIdx?_eq_some_iff_getElem.mp isIndex).choose

/-- The pool after the administrator's number. -/
theorem pool_of_weight
    {next : System}
    {addr : String}
    {index weight : Nat}
    (taken : step system (.weight addr weight) = some next)
    (isIndex : find? system.pool addr = some index) :
    next.pool = setWeight system.pool index (weight % 2 ^ 32) := by
  obtain ⟨middle, took, rfl⟩ := Option.map_eq_some_iff.mp taken
  obtain rfl := Option.some.inj took
  simp only [System.observe, System.act, isIndex]
  rfl

/--
In every state that is reached the weights are the numbers that were sent and
`pick` does not panic, exactly if the numbers fit; and of two numbers that the
administrator may send for a node, the larger of which fits, the larger one
makes the weighted strategy return the node at least as often.
-/
theorem weights_safe_iff
    (reached :
      StepRun.run? step (.initial (.fromConfig now cfg)) labels =
        some system) :
    (Safe (sentAfter now cfg labels) system.pool ↔
        Fits (sentAfter now cfg labels) system.pool) ∧
      ∀ addr index less more afterLess afterMore,
        find? system.pool addr = some index →
        system.pool.strategy = .weighted →
        less ≤ more →
        step system (.weight addr less) = some afterLess →
        step system (.weight addr more) = some afterMore →
        Fits (sentAfter now cfg (labels ++ [.weight addr more]))
          afterMore.pool →
        ∀ second clientIp,
          chances second clientIp afterLess.pool index ≤
            chances second clientIp afterMore.pool index := by
  have tracks := (tracks_fromConfig now cfg).run reached
  refine ⟨safe_iff_fits tracks, ?_⟩
  intro addr index less more afterLess afterMore isIndex weighted le tookLess
    tookMore fits second clientIp
  have stepped := tracks.step tookMore
  have isOrigin : find? (.fromConfig now cfg) addr = some index := by
    rw [← tracks.find?_eq, isIndex]
  rw [sentAfter, List.foldl_append, List.foldl_cons, List.foldl_nil] at fits
  have sentMore :
      noted (.fromConfig now cfg) (sentAfter now cfg labels)
          (.weight addr more) =
        (sentAfter now cfg labels).set index more := by
    simp only [noted, isOrigin]
  have within : index < (sentAfter now cfg labels).length := by
    have sameLength := congrArg List.length tracks.weights
    rw [UpstreamPool.weights, List.length_map, List.length_map] at sameLength
    exact sameLength ▸ lt_of_find? isIndex
  have moreFits : more < 2 ^ 32 := by
    apply fits.1
    change more ∈ noted _ (sentAfter now cfg labels) _
    rw [sentMore]
    exact List.mem_set within more
  have sumFits : steadySum _ afterMore.pool < 2 ^ 32 :=
    fits.2 (stepped.strategy.trans (tracks.strategy.symm.trans weighted))
  have sameMore :=
    stepped.weights.trans ((map_mod_eq_self_iff _).mpr fits.1)
  rw [steadySum_eq sameMore, pool_of_weight tookMore isIndex,
    Nat.mod_eq_of_lt moreFits] at sumFits
  rw [pool_of_weight tookLess isIndex, pool_of_weight tookMore isIndex,
    Nat.mod_eq_of_lt moreFits,
    Nat.mod_eq_of_lt (Nat.lt_of_le_of_lt le moreFits)]
  exact chances_mono weighted le sumFits second clientIp

end Doors

/-- A node of which only address and weight are written down. -/
def writtenNode
    (address : String)
    (weight : ConfigModel.U32) :
    ConfigModel.UpstreamNode where
  addr := .tcp address
  weight := weight
  tls := false
  tlsSni := none
  tlsInsecure := false
  upstreamHost := none
  http2 := false
  sendProxyProtocol := 0

/-- Two nodes under weights. -/
def writtenConfig (first second : ConfigModel.U32) :
    ConfigModel.UpstreamConfig where
  name := "backend"
  strategy := .weighted
  healthCheck := none
  nodes := [writtenNode "a:1" first, writtenNode "b:1" second]
  keepalive := 32
  keepaliveRequests := 0
  keepaliveTime := 0
  connectTimeout := 10
  readTimeout := 60
  writeTimeout := 60
  retry := 0
  retryTimeout := 0
  proxyNextUpstream := []
  circuitBreaker := none

/-- The administrator sends 3 for the first of two nodes, and could send 4. -/
theorem weights_safe_three_two :
    ∃ system afterLess afterMore,
      Safe (sentAfter 0 (writtenConfig 1 2) [.weight "a:1" 3]) system.pool ∧
        step system (.weight "a:1" 3) = some afterLess ∧
        step system (.weight "a:1" 4) = some afterMore ∧
        chances 0 none afterLess.pool 0 ≤ chances 0 none afterMore.pool 0 := by
  have holds :=
    @weights_safe_iff 0 (writtenConfig 1 2) [.weight "a:1" 3] _ rfl
  refine
    ⟨_, _, _, holds.1.mpr ⟨by decide, fun _ => by decide⟩, rfl, rfl,
      holds.2 "a:1" 0 3 4 _ _ rfl rfl (by decide) rfl rfl
        ⟨by decide, fun _ => by decide⟩ 0 none⟩

/--
The number 2 ^ 32 is stored as 0, and with the weights 2 ^ 32 - 1 and 1, which
the configuration accepts, `pick` panics.
-/
theorem weight_wraps_and_sum_overflows :
    (∃ system,
        StepRun.run? step (.initial (.fromConfig 0 (writtenConfig 1 1)))
            [.weight "a:1" 4294967296] =
          some system ∧
        sentAfter 0 (writtenConfig 1 1) [.weight "a:1" 4294967296] =
          [4294967296, 1] ∧
        system.pool.weights = [0, 1] ∧
        ¬Safe (sentAfter 0 (writtenConfig 1 1) [.weight "a:1" 4294967296])
          system.pool) ∧
      (UpstreamPool.fromConfig 0 (writtenConfig 4294967295 1)).weights =
        [4294967295, 1] ∧
      ((UpstreamPool.fromConfig 0 (writtenConfig 4294967295 1)).pick 0
        none).1 = none := by
  refine ⟨⟨_, rfl, rfl, rfl, ?_⟩, rfl, by decide⟩
  rintro ⟨same, _⟩
  cases same

end WeightUpdates

end Sweety
