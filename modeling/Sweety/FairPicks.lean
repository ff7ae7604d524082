import Mathlib.Data.List.Nodup
import Mathlib.Data.Option.Basic
import Sweety.UpstreamPick
import Sweety.WeightedIntervals

namespace Sweety.UpstreamPool

open WeightedIntervals

/-!
# The shares of the nodes

What the weighted strategy selects, exactly: the available nodes hold intervals
as long as their weights, and the ticket that `pick` draws, reduced modulo the
sum of the weights, lies in the interval of the node that is returned.  While
the ticket goes through consecutive numbers every node is therefore returned as
often as its weight says, and under round robin once each.
-/

variable {now : Nat} {pool : UpstreamPool}

/-! ## The weighted strategy -/

/-- The positions of the available nodes. -/
def availableNodes (now : Nat) (pool : UpstreamPool) : List Nat :=
  pool.indices.filter (availableAt now pool)

/-- With weights that fit the weighted strategy returns the holder's node. -/
theorem run_weighted
    (settled : Settled now pool)
    (clientIp : Option String)
    (availCount : Nat)
    (positive : 0 < weightSum now pool pool.indices)
    (fits : weightSum now pool pool.indices < 2 ^ 32) :
    (Pick.byStrategy .weighted clientIp pool.indices availCount).run
        (answer now) pool =
      (some
        ((holder? ((availableNodes now pool).map pool.weightAt)
            (pool.rrCounter % 2 ^ 32 %
              weightSum now pool pool.indices)).bind fun place =>
          (availableNodes now pool)[place]?), pool.bumped) := by
  have totalRun :=
    run_totalWeight settled pool.indices (by decide : 0 < 2 ^ 32)
  rw [Nat.zero_add, if_pos fits] at totalRun
  have below :
      pool.rrCounter % 2 ^ 32 % weightSum now pool pool.indices <
        ((availableNodes now pool).map pool.weightAt).sum :=
    Nat.mod_lt _ positive
  obtain ⟨place, isHolder, within⟩ := exists_holder below
  rw [List.length_map] at within
  have isNode :
      (holder? ((availableNodes now pool).map pool.weightAt)
          (pool.rrCounter % 2 ^ 32 %
            weightSum now pool pool.indices)).bind
          (fun place => (availableNodes now pool)[place]?) =
        some (availableNodes now pool)[place] := by
    rw [isHolder, Option.bind_some, List.getElem?_eq_getElem within]
  have found :=
    @run_weightedNode_eq now pool.bumped settled.bumped
      (pool.rrCounter % 2 ^ 32 % weightSum now pool pool.indices)
      pool.indices 0 (by simpa using fits) (Nat.zero_le _)
  have isFound :
      (Pick.weightedNode
            (pool.rrCounter % 2 ^ 32 % weightSum now pool pool.indices)
            pool.indices 0).run (answer now) pool.bumped =
        (some (some (availableNodes now pool)[place]), pool.bumped) := by
    rw [found, Nat.sub_zero]
    exact congrArg (fun node => (some node, pool.bumped)) isNode
  rw [Pick.byStrategy, Program.run_bind_of_some totalRun,
    if_neg (Nat.ne_of_gt positive),
    Program.run_bind_of_some run_fetchAddCounter,
    Program.run_bind_of_some isFound, isNode]
  rfl

/-! ## Pools whose nodes are all available -/

/-- The nodes are healthy and have no breaker. -/
def Plain (pool : UpstreamPool) : Prop :=
  ∀ node ∈ pool.nodes, node.healthy = true ∧ node.circuitBreaker = none

theorem isAvailable_of_plain
    (plain : Plain pool)
    (now : Nat)
    {node : NodeState}
    (member : node ∈ pool.nodes) :
    node.isAvailable now = (true, node) := by
  obtain ⟨isHealthy, noBreaker⟩ := plain node member
  rw [NodeState.isAvailable, isHealthy, noBreaker]
  rfl

theorem Plain.settled (plain : Plain pool) (now : Nat) :
    Settled now pool := by
  intro node member
  rw [NodeState.asked, isAvailable_of_plain plain now member]

theorem Plain.askAll_eq (plain : Plain pool) (now : Nat) :
    pool.askAll now = pool := by
  have same : pool.nodes.map (·.asked now) = pool.nodes := by
    rw [List.map_congr_left (plain.settled now), List.map_id']
  rw [askAll, same]

theorem Plain.countP_eq (plain : Plain pool) (now : Nat) :
    pool.nodes.countP (·.available now) = pool.nodes.length := by
  rw [List.countP_eq_length]
  intro node member
  rw [NodeState.available, isAvailable_of_plain plain now member]

theorem Plain.availableNodes_eq (plain : Plain pool) (now : Nat) :
    availableNodes now pool = pool.indices := by
  rw [availableNodes, List.filter_eq_self]
  intro index member
  have below : index < pool.nodes.length := List.mem_range.mp member
  rw [availableAt, List.getElem?_eq_getElem below, Option.map_some,
    Option.getD_some, NodeState.available,
    isAvailable_of_plain plain now (List.getElem_mem below)]

/-- The weights of the nodes. -/
def weights (pool : UpstreamPool) : List Nat :=
  pool.nodes.map (·.weight)

theorem map_weightAt_indices (pool : UpstreamPool) :
    pool.indices.map pool.weightAt = pool.weights := by
  apply List.ext_getElem
  · simp [indices, weights]
  · intro index inRange inWeights
    have below : index < pool.nodes.length := by
      simpa [indices] using inRange
    simp [indices, weights, weightAt, below]

theorem Plain.weightSum_eq (plain : Plain pool) (now : Nat) :
    weightSum now pool pool.indices = pool.weights.sum := by
  have available := plain.availableNodes_eq now
  rw [availableNodes] at available
  rw [weightSum, available, map_weightAt_indices]

theorem Plain.pick_eq_byStrategy
    (plain : Plain pool)
    (nonempty : pool.nodes ≠ [])
    (now : Nat)
    (clientIp : Option String) :
    pool.pick now clientIp =
      (Pick.byStrategy pool.strategy clientIp pool.indices
        pool.nodes.length).run (answer now) pool := by
  have someNode : pool.nodes.length ≠ 0 :=
    fun isZero => nonempty (List.eq_nil_of_length_eq_zero isZero)
  rw [pick_eq, plain.countP_eq, plain.askAll_eq, if_neg someNode]

theorem nodes_ne_nil_of_weights
    (positive : 0 < pool.weights.sum) :
    pool.nodes ≠ [] := by
  intro isNil
  rw [weights, isNil] at positive
  cases positive

/-- One pick of the weighted strategy. -/
theorem Plain.pick_weighted
    (plain : Plain pool)
    (weighted : pool.strategy = .weighted)
    (positive : 0 < pool.weights.sum)
    (fits : pool.weights.sum < 2 ^ 32)
    (now : Nat)
    (clientIp : Option String) :
    pool.pick now clientIp =
      (some
        (holder? pool.weights
          (pool.rrCounter % 2 ^ 32 % pool.weights.sum)), pool.bumped) := by
  have isSum := plain.weightSum_eq now
  have chosen :=
    run_weighted (plain.settled now) clientIp pool.nodes.length
      (isSum ▸ positive) (isSum ▸ fits)
  obtain ⟨place, isHolder, within⟩ :=
    exists_holder (Nat.mod_lt (pool.rrCounter % 2 ^ 32) positive)
  have below : place < pool.nodes.length := by
    rwa [weights, List.length_map] at within
  rw [plain.pick_eq_byStrategy (nodes_ne_nil_of_weights positive), weighted,
    chosen, isSum, plain.availableNodes_eq, map_weightAt_indices, isHolder,
    Option.bind_some, indices, List.getElem?_range below]

/-- One pick under round robin. -/
theorem Plain.pick_roundRobin
    (plain : Plain pool)
    (roundRobin : pool.strategy = .roundRobin)
    (nonempty : pool.nodes ≠ [])
    (now : Nat)
    (clientIp : Option String) :
    pool.pick now clientIp =
      (some (some (pool.rrCounter % pool.nodes.length)), pool.bumped) := by
  have available := plain.availableNodes_eq now
  have below : pool.rrCounter % pool.nodes.length < pool.nodes.length :=
    Nat.mod_lt _ (List.length_pos_of_ne_nil nonempty)
  have found :=
    run_nth (plain.settled now).bumped.observes pool.indices
      (pool.rrCounter % pool.nodes.length)
  have isNode :
      (pool.indices.filter (availableAt now pool.bumped))[
          pool.rrCounter % pool.nodes.length]? =
        some (pool.rrCounter % pool.nodes.length) := by
    change (availableNodes now pool)[_]? = _
    rw [available, indices, List.getElem?_range below]
  rw [isNode] at found
  rw [plain.pick_eq_byStrategy nonempty, roundRobin, Pick.byStrategy,
    Program.run_bind_of_some run_fetchAddCounter]
  exact found

/-! ## Consecutive picks -/

/-- Calls of `pick` one after the other, each at a second and for a client. -/
def pickAll :
    List (Nat × Option String) →
      UpstreamPool →
      List (Option (Option Nat)) × UpstreamPool
  | [], pool =>
      ([], pool)
  | (now, clientIp) :: rest, pool =>
      let (picked, next) := pool.pick now clientIp
      let (later, last) := pickAll rest next
      (picked :: later, last)

/-- The tickets that consecutive picks draw. -/
def tickets : Nat → Nat → List Nat
  | _, 0 =>
      []
  | ticket, count + 1 =>
      ticket :: tickets ((ticket + 1) % 2 ^ 64) count

theorem tickets_of_le
    {ticket count : Nat}
    (noWrap : ticket + count ≤ 2 ^ 64) :
    tickets ticket count = List.range' ticket count := by
  induction count generalizing ticket with
  | zero =>
      rfl
  | succ count inductionHypothesis =>
      rw [tickets, List.range'_succ]
      by_cases isLast : ticket + 1 = 2 ^ 64
      · have noMore : count = 0 := by
          omega
        rw [noMore]
        rfl
      · have next : (ticket + 1) % 2 ^ 64 = ticket + 1 :=
          Nat.mod_eq_of_lt (by omega)
        rw [next, inductionHypothesis (by omega)]

/-- The low 32 bits of the tickets are consecutive until they wrap. -/
theorem low_tickets
    {ticket count : Nat}
    (noWrap : ticket % 2 ^ 32 + count ≤ 2 ^ 32) :
    (tickets ticket count).map (· % 2 ^ 32) =
      List.range' (ticket % 2 ^ 32) count := by
  induction count generalizing ticket with
  | zero =>
      rfl
  | succ count inductionHypothesis =>
      have next :
          (ticket + 1) % 2 ^ 64 % 2 ^ 32 = (ticket + 1) % 2 ^ 32 :=
        Nat.mod_mod_of_dvd (ticket + 1) (pow_dvd_pow 2 (by decide))
      rw [tickets, List.map_cons, List.range'_succ]
      congr 1
      by_cases isLast : ticket % 2 ^ 32 + 1 = 2 ^ 32
      · have noMore : count = 0 := by
          omega
        rw [noMore]
        rfl
      · have low : (ticket + 1) % 2 ^ 32 = ticket % 2 ^ 32 + 1 := by
          omega
        rw [inductionHypothesis (by omega), next, low]

/-- Picks that a ticket decides. -/
theorem pickAll_eq_tickets
    {choice : Nat → Option Nat}
    (decided :
      ∀ ticket now clientIp,
        { pool with rrCounter := ticket }.pick now clientIp =
          (some (choice ticket),
            { pool with rrCounter := (ticket + 1) % 2 ^ 64 }))
    (asks : List (Nat × Option String))
    (ticket : Nat) :
    (pickAll asks { pool with rrCounter := ticket }).1 =
      (tickets ticket asks.length).map (some ∘ choice) := by
  induction asks generalizing ticket with
  | nil =>
      rfl
  | cons ask rest inductionHypothesis =>
      obtain ⟨now, clientIp⟩ := ask
      rw [pickAll, decided]
      dsimp only
      rw [inductionHypothesis]
      rfl

theorem Plain.withCounter
    (plain : Plain pool)
    (ticket : Nat) :
    Plain { pool with rrCounter := ticket } :=
  plain

/-- Of as many picks as the weights add up to each node gets its weight. -/
theorem count_pickAll_weighted
    (plain : Plain pool)
    (weighted : pool.strategy = .weighted)
    (positive : 0 < pool.weights.sum)
    (fits : pool.weights.sum < 2 ^ 32)
    {asks : List (Nat × Option String)}
    (isWhole : asks.length = pool.weights.sum)
    (noWrap : pool.rrCounter % 2 ^ 32 + pool.weights.sum ≤ 2 ^ 32)
    (index : Nat) :
    (pickAll asks pool).1.count (some (some index)) =
      pool.weights[index]?.getD 0 := by
  let choice (ticket : Nat) : Option Nat :=
    holder? pool.weights (ticket % 2 ^ 32 % pool.weights.sum)
  have picked : (pickAll asks pool).1 = _ :=
    @pickAll_eq_tickets pool choice
      (fun ticket now clientIp =>
        (plain.withCounter ticket).pick_weighted weighted positive fits now
          clientIp)
      asks pool.rrCounter
  have byLow :
      (tickets pool.rrCounter pool.weights.sum).map choice =
        (List.range' (pool.rrCounter % 2 ^ 32) pool.weights.sum).map
          fun ticket => holder? pool.weights (ticket % pool.weights.sum) := by
    rw [← low_tickets noWrap, List.map_map]
    rfl
  rw [picked, isWhole, ← List.map_map,
    List.count_map_of_injective _ _ (Option.some_injective _), byLow,
    count_consecutive]

/-- Of as many picks as there are nodes each node gets one. -/
theorem count_pickAll_roundRobin
    (plain : Plain pool)
    (roundRobin : pool.strategy = .roundRobin)
    {asks : List (Nat × Option String)}
    (isWhole : asks.length = pool.nodes.length)
    (noWrap : pool.rrCounter + pool.nodes.length ≤ 2 ^ 64)
    {index : Nat}
    (below : index < pool.nodes.length) :
    (pickAll asks pool).1.count (some (some index)) = 1 := by
  let choice (ticket : Nat) : Option Nat :=
    some (ticket % pool.nodes.length)
  have nonempty : pool.nodes ≠ [] :=
    List.ne_nil_of_length_pos (Nat.zero_lt_of_lt below)
  have picked : (pickAll asks pool).1 = _ :=
    @pickAll_eq_tickets pool choice
      (fun ticket now clientIp =>
        (plain.withCounter ticket).pick_roundRobin roundRobin nonempty now
          clientIp)
      asks pool.rrCounter
  have once :
      ((List.range pool.nodes.length).map some).count (some index) = 1 := by
    rw [List.count_map_of_injective _ _ (Option.some_injective _)]
    exact
      List.count_eq_one_of_mem List.nodup_range (List.mem_range.mpr below)
  rw [picked, isWhole, tickets_of_le noWrap, ← List.map_map,
    List.count_map_of_injective _ _ (Option.some_injective _)]
  exact (count_map_range'_mod some _ _ _).trans once

/--
While the ticket does not wrap, each node of a weighted pool is returned as
often as its weight says among as many picks as the weights add up to, and each
node of a round robin pool once among as many picks as there are nodes.
-/
theorem picks_proportional
    {pool : UpstreamPool}
    (plain : Plain pool) :
    (pool.strategy = .weighted →
        0 < pool.weights.sum →
        pool.weights.sum < 2 ^ 32 →
        ∀ asks : List (Nat × Option String),
          asks.length = pool.weights.sum →
          pool.rrCounter % 2 ^ 32 + pool.weights.sum ≤ 2 ^ 32 →
          ∀ index node,
            pool.nodes[index]? = some node →
              (pickAll asks pool).1.count (some (some index)) =
                node.weight) ∧
      (pool.strategy = .roundRobin →
        ∀ asks : List (Nat × Option String),
          asks.length = pool.nodes.length →
          pool.rrCounter + pool.nodes.length ≤ 2 ^ 64 →
          ∀ index < pool.nodes.length,
            (pickAll asks pool).1.count (some (some index)) = 1) := by
  constructor
  · intro weighted positive fits asks isWhole noWrap index node isNode
    rw [count_pickAll_weighted plain weighted positive fits isWhole noWrap,
      weights, List.getElem?_map, isNode]
    rfl
  · intro roundRobin asks isWhole noWrap index below
    exact count_pickAll_roundRobin plain roundRobin isWhole noWrap below

/-- Two nodes, of which the second has twice the weight of the first. -/
def unequalPool : UpstreamPool :=
  { samplePool
      [sampleNode none, { sampleNode none with weight := 2 }] 5 with
    strategy := .weighted }

theorem plain_unequalPool : Plain unequalPool := by
  intro node member
  rcases List.mem_cons.mp member with rfl | inRest
  · exact ⟨rfl, rfl⟩
  · rw [List.mem_singleton.mp inRest]
    exact ⟨rfl, rfl⟩

/-- Of three picks two return the second node. -/
theorem picks_proportional_unequal :
    (pickAll [(0, none), (0, none), (0, none)] unequalPool).1.count
        (some (some 1)) =
      2 :=
  (picks_proportional plain_unequalPool).1 rfl (by decide) (by decide)
    [(0, none), (0, none), (0, none)] rfl (by decide) 1
    { sampleNode none with weight := 2 } rfl

end Sweety.UpstreamPool
