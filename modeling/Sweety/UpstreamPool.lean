import Mathlib.Algebra.Group.Nat.Defs
import Sweety.AtomicProgram
import Sweety.CircuitBreaker
import Sweety.RetryPolicy

namespace Sweety

/-!
# Upstream nodes and node selection

Model of `handler/reverse_proxy/lb.rs`.  A node's atomics are plain fields, and
`pick` is a `Program` over the atomic accesses it makes, in the order in which
it makes them: the availability test of a node asks its breaker, and asking may
move the breaker, so it matters how often and how far each filter is run.

Nodes are named by their position in the pool.
-/

/-- `enum UpstreamAddr`. -/
inductive UpstreamAddr where
  | tcp (address : String)
  | unix (path : String)
  deriving Repr, DecidableEq

/-- `UpstreamAddr::as_str`. -/
def UpstreamAddr.asStr : UpstreamAddr → String
  | .tcp address =>
      address
  | .unix path =>
      path

/-- `enum LoadBalanceStrategy`. -/
inductive LoadBalanceStrategy where
  | roundRobin
  | weighted
  | leastConn
  | ipHash
  deriving Repr, DecidableEq

/-- `struct NodeState`; the health flag is 1 or 0 in the source. -/
structure NodeState where
  addr : UpstreamAddr
  weight : Nat
  healthy : Bool
  activeConnections : Nat
  failCount : Nat
  tls : Bool
  tlsSni : String
  tlsInsecure : Bool
  upstreamHost : Option String
  http2 : Bool
  sendProxyProtocol : Nat
  circuitBreaker : Option CircuitBreaker
  deriving Repr, DecidableEq

namespace NodeState

/-- `is_available`: healthy, and let through by the breaker if there is one. -/
def isAvailable
    (now : Nat)
    (node : NodeState) :
    Bool × NodeState :=
  if !node.healthy then
    (false, node)
  else
    match node.circuitBreaker with
    | none =>
        (true, node)
    | some breaker =>
        ((breaker.allow now).1,
          { node with circuitBreaker := some (breaker.allow now).2 })

/-- `mark_unhealthy`. -/
def markUnhealthy (node : NodeState) : NodeState :=
  { node with healthy := false }

/-- `mark_healthy`. -/
def markHealthy (node : NodeState) : NodeState :=
  { node with healthy := true, failCount := 0 }

/-- `record_success`. -/
def recordSuccess
    (now : Nat)
    (node : NodeState) :
    NodeState :=
  { node with
    failCount := 0
    healthy := true
    circuitBreaker :=
      node.circuitBreaker.map (·.recordSuccess now) }

/-- `record_failure`; the third failure in a row marks the node unhealthy. -/
def recordFailure
    (now : Nat)
    (node : NodeState) :
    NodeState :=
  { node with
    failCount := node.failCount + 1
    healthy := node.healthy && decide (node.failCount + 1 < 3)
    circuitBreaker :=
      node.circuitBreaker.map (·.recordFailure now) }

/-- `record_success` or `record_failure`, by outcome. -/
def record
    (outcome : CircuitBreaker.Outcome)
    (now : Nat)
    (node : NodeState) :
    NodeState :=
  match outcome with
  | .success =>
      node.recordSuccess now
  | .failure =>
      node.recordFailure now

/-- Whether asking the node now moves its breaker from open to half-open. -/
def moves (now : Nat) (node : NodeState) : Bool :=
  node.healthy &&
    node.circuitBreaker.any fun breaker =>
      breaker.state == .opened && breaker.timedOut now

/-- Asking a node moves its breaker to half-open or leaves its state alone. -/
theorem isAvailable_breakerState
    (now : Nat)
    (node : NodeState) :
    (node.isAvailable now).2.circuitBreaker.map (·.state) =
      if node.moves now = true then
        some .halfOpen
      else
        node.circuitBreaker.map (·.state) := by
  cases health : node.healthy with
  | false =>
      simp [isAvailable, moves, health]
  | true =>
      cases breakerShape : node.circuitBreaker with
      | none =>
          simp [isAvailable, moves, health, breakerShape]
      | some breaker =>
          rcases CircuitBreaker.allow_cases now breaker with
              ⟨opened, timedOut, moved⟩ | ⟨still, kept⟩
          · simp [isAvailable, moves, health, breakerShape, moved,
              opened, timedOut]
          · have stays :
                (breaker.state == .opened && breaker.timedOut now) =
                  false := by
              rcases still with closed | halfOpen | waiting
              · simp [closed]
              · simp [halfOpen]
              · simp [waiting]
            simp [isAvailable, moves, health, breakerShape, kept, stays]

/-- The breaker of a node sees every recorded outcome. -/
theorem record_circuitBreaker
    (outcome : CircuitBreaker.Outcome)
    (now : Nat)
    (node : NodeState) :
    (node.record outcome now).circuitBreaker =
      node.circuitBreaker.map (·.record outcome now) := by
  cases outcome <;> rfl

end NodeState

/-- The fields of `struct UpstreamPool` that selection and retry read. -/
structure UpstreamPool where
  nodes : List NodeState
  strategy : LoadBalanceStrategy
  /-- `rr_counter`, a `usize`. -/
  rrCounter : Nat
  /-- How often a request may be tried again. -/
  retry : Nat
  /-- Seconds to wait before trying again. -/
  retryTimeout : Nat
  nextUpstreamFlags : NextUpstreamFlags
  deriving Repr, DecidableEq

/-- The atomic accesses of `pick`. -/
inductive PoolOp where
  | isAvailable (node : Nat)
  | isHealthy (node : Nat)
  | weight (node : Nat)
  | activeConnections (node : Nat)
  /-- `rr_counter.fetch_add(1)`. -/
  | fetchAddCounter
  deriving Repr, DecidableEq

/-- What each access answers. -/
abbrev PoolReply : PoolOp → Type
  | .isAvailable _ => Bool
  | .isHealthy _ => Bool
  | .weight _ => Nat
  | .activeConnections _ => Nat
  | .fetchAddCounter => Nat

namespace UpstreamPool

/-- The health flag of a node. -/
def healthyAt (pool : UpstreamPool) (index : Nat) : Bool :=
  ((pool.nodes[index]?).map (·.healthy)).getD false

/-- The weight of a node. -/
def weightAt (pool : UpstreamPool) (index : Nat) : Nat :=
  ((pool.nodes[index]?).map (·.weight)).getD 0

/-- The connection count of a node. -/
def connectionsAt (pool : UpstreamPool) (index : Nat) : Nat :=
  ((pool.nodes[index]?).map (·.activeConnections)).getD 0

/-- The pool answers one access made at second `now`. -/
def answer
    (now : Nat)
    (pool : UpstreamPool) :
    (op : PoolOp) → PoolReply op × UpstreamPool
  | .isAvailable index =>
      match pool.nodes[index]? with
      | none =>
          (false, pool)
      | some node =>
          ((node.isAvailable now).1,
            { pool with
              nodes := pool.nodes.set index (node.isAvailable now).2 })
  | .isHealthy index =>
      (pool.healthyAt index, pool)
  | .weight index =>
      (pool.weightAt index, pool)
  | .activeConnections index =>
      (pool.connectionsAt index, pool)
  | .fetchAddCounter =>
      (pool.rrCounter,
        { pool with rrCounter := (pool.rrCounter + 1) % 2 ^ 64 })

end UpstreamPool

/-- Code that accesses a pool. -/
abbrev PoolProgram (α : Type) :=
  Program PoolOp PoolReply α

namespace Pick

/-- `node.is_available()`. -/
def isAvailable (node : Nat) : PoolProgram Bool :=
  Program.perform (PoolOp.isAvailable node)

/-- `node.is_healthy()`. -/
def isHealthy (node : Nat) : PoolProgram Bool :=
  Program.perform (PoolOp.isHealthy node)

/-- `node.weight.load()`. -/
def weight (node : Nat) : PoolProgram Nat :=
  Program.perform (PoolOp.weight node)

/-- `node.active_connections.load()`. -/
def activeConnections (node : Nat) : PoolProgram Nat :=
  Program.perform (PoolOp.activeConnections node)

/-- `rr_counter.fetch_add(1)`. -/
def fetchAddCounter : PoolProgram Nat :=
  Program.perform PoolOp.fetchAddCounter

/-- `nodes.iter().filter(test).count()`. -/
def count
    (test : Nat → PoolProgram Bool) :
    List Nat → PoolProgram Nat
  | [] =>
      pure 0
  | node :: rest => do
      let passed ← test node
      let later ← count test rest
      pure (if passed then later + 1 else later)

/-- `nodes.iter().filter(test).nth(index)`; stops at the node it returns. -/
def nth
    (test : Nat → PoolProgram Bool) :
    List Nat → Nat → PoolProgram (Option Nat)
  | [], _ =>
      pure none
  | node :: rest, index => do
      let passed ← test node
      match passed, index with
      | false, _ =>
          nth test rest index
      | true, 0 =>
          pure (some node)
      | true, index + 1 =>
          nth test rest index

/-- `u32` addition under `overflow-checks = true`. -/
def checkedAdd (first second : Nat) : PoolProgram Nat :=
  if first + second < 2 ^ 32 then
    pure (first + second)
  else
    .abort

/-- `nodes.iter().filter(is_available).map(weight).sum()`. -/
def totalWeight : List Nat → Nat → PoolProgram Nat
  | [], total =>
      pure total
  | node :: rest, total => do
      if ← isAvailable node then
        let sum ← checkedAdd total (← weight node)
        totalWeight rest sum
      else
        totalWeight rest total

/-- The `for` loop of the weighted strategy. -/
def weightedNode
    (target : Nat) :
    List Nat → Nat → PoolProgram (Option Nat)
  | [], _ =>
      pure none
  | node :: rest, cumulative => do
      if ← isAvailable node then
        let sum ← checkedAdd cumulative (← weight node)
        if target < sum then
          pure (some node)
        else
          weightedNode target rest sum
      else
        weightedNode target rest cumulative

/-- `nodes.iter().filter(is_available).last()`. -/
def last : List Nat → Option Nat → PoolProgram (Option Nat)
  | [], found =>
      pure found
  | node :: rest, found => do
      if ← isAvailable node then
        last rest (some node)
      else
        last rest found

/--
`nodes.iter().filter(is_available).min_by_key(active_connections)`; of several
minimal nodes the first one is kept.
-/
def leastConn :
    List Nat → Option (Nat × Nat) → PoolProgram (Option Nat)
  | [], best =>
      pure (best.map (·.1))
  | node :: rest, best => do
      if ← isAvailable node then
        let connections ← activeConnections node
        match best with
        | none =>
            leastConn rest (some (node, connections))
        | some (kept, fewest) =>
            if connections < fewest then
              leastConn rest (some (node, connections))
            else
              leastConn rest (some (kept, fewest))
      else
        leastConn rest best

/-- `simple_hash`, on a 64-bit `usize`. -/
def simpleHash (text : String) : Nat :=
  text.toUTF8.toList.foldl
    (fun hash byte => (hash * 33 % 2 ^ 64 + byte.toNat) % 2 ^ 64)
    5381

/-- The fallback of `pick` when no node is available. -/
def degraded (nodes : List Nat) : PoolProgram (Option Nat) := do
  let healthyCount ← count isHealthy nodes
  if 0 < healthyCount then
    let ticket ← fetchAddCounter
    nth isHealthy nodes (ticket % healthyCount)
  else if nodes.isEmpty then
    pure none
  else
    let ticket ← fetchAddCounter
    pure nodes[ticket % nodes.length]?

/-- The `match self.strategy` of `pick`. -/
def byStrategy
    (strategy : LoadBalanceStrategy)
    (clientIp : Option String)
    (nodes : List Nat)
    (availCount : Nat) :
    PoolProgram (Option Nat) :=
  match strategy with
  | .roundRobin => do
      let ticket ← fetchAddCounter
      nth isAvailable nodes (ticket % availCount)
  | .weighted => do
      let total ← totalWeight nodes 0
      if total = 0 then
        nth isAvailable nodes 0
      else
        let ticket ← fetchAddCounter
        let target := ticket % 2 ^ 32 % total
        match ← weightedNode target nodes 0 with
        | some node =>
            pure (some node)
        | none =>
            last nodes none
  | .leastConn =>
      leastConn nodes none
  | .ipHash =>
      nth isAvailable nodes
        (simpleHash (clientIp.getD "0.0.0.0") % availCount)

/-- `UpstreamPool::pick` over the nodes `nodes`. -/
def pick
    (strategy : LoadBalanceStrategy)
    (clientIp : Option String)
    (nodes : List Nat) :
    PoolProgram (Option Nat) := do
  let availCount ← count isAvailable nodes
  if availCount = 0 then
    degraded nodes
  else
    byStrategy strategy clientIp nodes availCount

end Pick

namespace UpstreamPool

/-- The positions of a pool's nodes. -/
def indices (pool : UpstreamPool) : List Nat :=
  List.range pool.nodes.length

/-- `pick` as the pool's own code. -/
def pickProgram
    (pool : UpstreamPool)
    (clientIp : Option String) :
    PoolProgram (Option Nat) :=
  Pick.pick pool.strategy clientIp pool.indices

/--
`pick` run in one piece at second `now`: `none` if it panics, else the chosen
node if there is one; and the pool afterwards.
-/
def pick
    (now : Nat)
    (clientIp : Option String)
    (pool : UpstreamPool) :
    Option (Option Nat) × UpstreamPool :=
  (pool.pickProgram clientIp).run (answer now) pool

/-- Change the node at a position. -/
def modifyNode
    (index : Nat)
    (change : NodeState → NodeState)
    (pool : UpstreamPool) :
    UpstreamPool :=
  { pool with nodes := pool.nodes.modify index change }

/-- `active_connections.fetch_add(1)`. -/
def enter (index : Nat) (pool : UpstreamPool) : UpstreamPool :=
  pool.modifyNode index fun node =>
    { node with activeConnections := node.activeConnections + 1 }

/-- `active_connections.fetch_sub(1)`. -/
def leave (index : Nat) (pool : UpstreamPool) : UpstreamPool :=
  pool.modifyNode index fun node =>
    { node with activeConnections := node.activeConnections - 1 }

/-- The state of the breaker of a node, if it has one. -/
def breakerState? (pool : UpstreamPool) (index : Nat) : Option CbState :=
  ((pool.nodes[index]?).bind (·.circuitBreaker)).map (·.state)

/-- Whether asking a node now moves its breaker from open to half-open. -/
def moves (now : Nat) (pool : UpstreamPool) (index : Nat) : Bool :=
  (pool.nodes[index]?).any (·.moves now)

/-- A healthy node with the given breaker. -/
def sampleNode (breaker : Option CircuitBreaker) : NodeState where
  addr := .tcp "127.0.0.1:8080"
  weight := 1
  healthy := true
  activeConnections := 0
  failCount := 0
  tls := false
  tlsSni := ""
  tlsInsecure := false
  upstreamHost := none
  http2 := false
  sendProxyProtocol := 0
  circuitBreaker := breaker

/-- A round-robin pool of the given nodes with the default retry settings. -/
def samplePool
    (nodes : List NodeState)
    (rrCounter : Nat) :
    UpstreamPool where
  nodes := nodes
  strategy := .roundRobin
  rrCounter := rrCounter
  retry := 0
  retryTimeout := 0
  nextUpstreamFlags := NextUpstreamFlags.DEFAULT

/-! ## What the operations do to the breakers -/

/-- Changing one node changes the breaker state of that node at most. -/
theorem breakerState?_modifyNode
    (index other : Nat)
    (change : NodeState → NodeState)
    (pool : UpstreamPool) :
    (pool.modifyNode index change).breakerState? other =
      if index = other then
        ((pool.nodes[other]?).bind fun node =>
          (change node).circuitBreaker).map (·.state)
      else
        pool.breakerState? other := by
  unfold breakerState? modifyNode
  rw [List.getElem?_modify]
  split
  · cases pool.nodes[other]? with
    | none =>
        rfl
    | some node =>
        rfl
  · simp

/-- A change that leaves the breaker alone leaves all breaker states alone. -/
theorem breakerState?_modifyNode_of_same
    {change : NodeState → NodeState}
    (same : ∀ node, (change node).circuitBreaker = node.circuitBreaker)
    (index other : Nat)
    (pool : UpstreamPool) :
    (pool.modifyNode index change).breakerState? other =
      pool.breakerState? other := by
  rw [breakerState?_modifyNode]
  simp [same, breakerState?]

/-- Accesses change breaker states by moving one to half-open only. -/
theorem breakerState?_answer
    (now : Nat)
    (pool : UpstreamPool)
    (op : PoolOp)
    (index : Nat) :
    (pool.answer now op).2.breakerState? index =
      if op = .isAvailable index ∧ pool.moves now index = true then
        some .halfOpen
      else
        pool.breakerState? index := by
  cases op with
  | isAvailable asked =>
      cases found : pool.nodes[asked]? with
      | none =>
          have noMove : pool.moves now asked = false := by
            simp [moves, found]
          simp only [answer, found]
          split
          · rename_i both
            obtain ⟨sameOp, moved⟩ := both
            obtain rfl : asked = index := by simpa using sameOp
            rw [noMove] at moved
            cases moved
          · rfl
      | some node =>
          obtain ⟨inBounds, isNode⟩ := List.getElem?_eq_some_iff.mp found
          by_cases same : asked = index
          · subst same
            have stateOf := NodeState.isAvailable_breakerState now node
            simpa [answer, breakerState?, moves, inBounds, isNode]
              using stateOf
          · simp [answer, found, breakerState?, same,
              List.getElem?_set_ne]
  | isHealthy node =>
      simp [answer]
  | weight node =>
      simp [answer]
  | activeConnections node =>
      simp [answer]
  | fetchAddCounter =>
      simp [answer, breakerState?]

end UpstreamPool

end Sweety
