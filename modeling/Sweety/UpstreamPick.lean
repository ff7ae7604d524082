import Mathlib.Algebra.GroupWithZero.Nat
import Mathlib.Algebra.Order.BigOperators.Group.List
import Mathlib.Data.List.Basic
import Sweety.UpstreamPool
import Sweety.WeightedIntervals

namespace Sweety

/-!
# What `pick` returns

`pick` counts the available nodes and then filters them a second time.  Asking
an open breaker whose timeout has passed moves it to half-open, where it refuses
the next question, so a node that was counted may be missing from the second
filter.  The nodes that pass both are the *steady* ones.
-/

namespace NodeState

/-- The answer of `is_available` at second `now`. -/
def available (now : Nat) (node : NodeState) : Bool :=
  (node.isAvailable now).1

/-- The node after being asked at second `now`. -/
def asked (now : Nat) (node : NodeState) : NodeState :=
  (node.isAvailable now).2

/-- Healthy, with no breaker or a closed one: available however often asked. -/
def steady (node : NodeState) : Bool :=
  node.healthy &&
    match node.circuitBreaker with
    | none => true
    | some breaker => breaker.state == .closed

/-- A node that has been asked answers from then on as its steadiness says. -/
theorem isAvailable_asked
    (now : Nat)
    (node : NodeState) :
    (node.asked now).isAvailable now =
      (node.steady, node.asked now) := by
  cases health : node.healthy with
  | false =>
      simp [asked, isAvailable, steady, health]
  | true =>
      cases breakerShape : node.circuitBreaker with
      | none =>
          simp [asked, isAvailable, steady, health, breakerShape]
      | some breaker =>
          rcases CircuitBreaker.allow_cases now breaker with
              ⟨opened, _, moved⟩ | ⟨_, kept⟩
          · have refuses :
                ({ breaker with state := .halfOpen } :
                    CircuitBreaker).allow now =
                  (false, { breaker with state := .halfOpen }) :=
              CircuitBreaker.allow_halfOpen rfl
            simp [asked, isAvailable, steady, health, breakerShape,
              moved, refuses, opened]
          · simp [asked, isAvailable, steady, health, breakerShape,
              kept, beq_eq_decide]

/-- Steady nodes are available. -/
theorem available_of_steady
    {node : NodeState}
    (now : Nat)
    (isSteady : node.steady = true) :
    node.available now = true := by
  cases health : node.healthy with
  | false =>
      simp [steady, health] at isSteady
  | true =>
      cases breakerShape : node.circuitBreaker with
      | none =>
          simp [available, isAvailable, health, breakerShape]
      | some breaker =>
          have closed : breaker.state = .closed := by
            simpa [steady, health, breakerShape] using isSteady
          simp [available, isAvailable, health, breakerShape,
            CircuitBreaker.allow_closed closed]

@[simp] theorem asked_weight (now : Nat) (node : NodeState) :
    (node.asked now).weight = node.weight := by
  unfold asked isAvailable
  split
  · rfl
  · split <;> rfl

end NodeState

/-! ## Reading a list by position -/

/-- Reading a list at all its positions gives the list. -/
theorem map_getElem?_range {α : Type} (items : List α) :
    (List.range items.length).map (fun index => items[index]?) =
      items.map some := by
  apply List.ext_getElem
  · simp
  · intro index inBounds _
    have below : index < items.length := by simpa using inBounds
    simp [below]

/-- Filtering positions by a test of their elements filters the list. -/
theorem map_filter_range
    {α β : Type}
    (items : List α)
    (test : α → Bool)
    (value : α → β)
    (otherwise : β) :
    ((List.range items.length).filter
        fun index => ((items[index]?).map test).getD false).map
        (fun index => ((items[index]?).map value).getD otherwise) =
      (items.filter test).map value := by
  have byOption :
      ((items.map some).filter
          fun item => (item.map test).getD false).map
          (fun item => (item.map value).getD otherwise) =
        (items.filter test).map value := by
    simp [List.filter_map, Function.comp_def]
  rw [← byOption, ← map_getElem?_range]
  simp [List.filter_map, Function.comp_def]

/-- Counting positions by a test of their elements counts in the list. -/
theorem countP_range
    {α : Type}
    (items : List α)
    (test : α → Bool) :
    (List.range items.length).countP
        (fun index => ((items[index]?).map test).getD false) =
      items.countP test := by
  have lengths := congrArg List.length
    (map_filter_range items test (fun _ => ()) ())
  simpa [List.countP_eq_length_filter] using lengths

/-- Below the number of passing elements, filtering has an element there. -/
theorem exists_getElem?_filter
    {α : Type}
    {items : List α}
    {test : α → Bool}
    {index : Nat}
    (below : index < items.countP test) :
    ∃ item ∈ items,
      test item = true ∧ (items.filter test)[index]? = some item := by
  rw [List.countP_eq_length_filter] at below
  obtain ⟨member, passes⟩ := List.mem_filter.mp (List.getElem_mem below)
  exact ⟨_, member, passes, List.getElem?_eq_getElem below⟩

namespace UpstreamPool

open WeightedIntervals (exists_holder holder? holder?_cons_add
  holder?_cons_of_lt)

variable {now : Nat} {pool : UpstreamPool}

/-- The answer of `is_available` for the node at a position. -/
def availableAt (now : Nat) (pool : UpstreamPool) (index : Nat) : Bool :=
  ((pool.nodes[index]?).map (·.available now)).getD false

/-- A position answers `true` only for a node of the pool. -/
theorem exists_node_of_getD
    {test : NodeState → Bool}
    {index : Nat}
    (holds : ((pool.nodes[index]?).map test).getD false = true) :
    ∃ node, pool.nodes[index]? = some node ∧ test node = true := by
  cases found : pool.nodes[index]? with
  | none =>
      simp [found] at holds
  | some node =>
      exact ⟨node, rfl, by simpa [found] using holds⟩

/-- The pool after every node has been asked. -/
def askAll (now : Nat) (pool : UpstreamPool) : UpstreamPool :=
  { pool with nodes := pool.nodes.map (·.asked now) }

/-- Asking changes no node any more. -/
def Settled (now : Nat) (pool : UpstreamPool) : Prop :=
  ∀ node ∈ pool.nodes, node.asked now = node

theorem settled_askAll
    (now : Nat)
    (pool : UpstreamPool) :
    Settled now (pool.askAll now) := by
  intro node member
  obtain ⟨original, _, rfl⟩ := List.mem_map.mp member
  change ((original.asked now).isAvailable now).2 = original.asked now
  rw [NodeState.isAvailable_asked]

/-- After asking every node, exactly the steady ones are available. -/
theorem availableAt_askAll
    (now : Nat)
    (pool : UpstreamPool) :
    availableAt now (pool.askAll now) =
      fun index => ((pool.nodes[index]?).map (·.steady)).getD false := by
  funext index
  simp only [availableAt, askAll, List.getElem?_map, Option.map_map]
  congr 2
  funext node
  exact congrArg Prod.fst (NodeState.isAvailable_asked now node)

theorem weightAt_askAll
    (now : Nat)
    (pool : UpstreamPool) :
    weightAt (pool.askAll now) = weightAt pool := by
  funext index
  simp [weightAt, askAll, Function.comp_def]

/-! ## Running the filters of `pick` -/

/-- A test program that leaves the pool alone and answers `test`. -/
def Observes
    (now : Nat)
    (pool : UpstreamPool)
    (program : Nat → PoolProgram Bool)
    (test : Nat → Bool) :
    Prop :=
  ∀ node,
    (program node).run (answer now) pool = (some (test node), pool)

theorem observes_isHealthy
    (now : Nat)
    (pool : UpstreamPool) :
    Observes now pool Pick.isHealthy pool.healthyAt :=
  fun _ => rfl

/-- On a settled pool the availability test is a mere observation. -/
theorem Settled.observes
    (settled : Settled now pool) :
    Observes now pool Pick.isAvailable (availableAt now pool) := by
  intro index
  simp only [Pick.isAvailable, Program.run_perform, answer, availableAt]
  cases found : pool.nodes[index]? with
  | none =>
      simp
  | some node =>
      have unchanged : (node.isAvailable now).2 = node :=
        settled node (List.mem_of_getElem? found)
      have same : pool.nodes.set index node = pool.nodes := by
        obtain ⟨inBounds, isNode⟩ := List.getElem?_eq_some_iff.mp found
        rw [← isNode, List.set_getElem_self]
      simp [unchanged, same, NodeState.available]

section Observed

variable
  {program : Nat → PoolProgram Bool}
  {test : Nat → Bool}

theorem run_count
    (observes : Observes now pool program test)
    (nodes : List Nat) :
    (Pick.count program nodes).run (answer now) pool =
      (some (nodes.countP test), pool) := by
  induction nodes with
  | nil =>
      rfl
  | cons node rest inductionHypothesis =>
      rw [Pick.count, Program.run_bind_of_some (observes node),
        Program.run_bind_of_some inductionHypothesis]
      cases passed : test node <;>
        simp [passed]

theorem run_nth
    (observes : Observes now pool program test)
    (nodes : List Nat)
    (index : Nat) :
    (Pick.nth program nodes index).run (answer now) pool =
      (some (nodes.filter test)[index]?, pool) := by
  induction nodes generalizing index with
  | nil =>
      rfl
  | cons node rest inductionHypothesis =>
      rw [Pick.nth, Program.run_bind_of_some (observes node)]
      cases passed : test node with
      | false =>
          simp [passed, inductionHypothesis]
      | true =>
          cases index with
          | zero =>
              simp [passed]
          | succ index =>
              simp [passed, inductionHypothesis]

end Observed

/-- The weights of the available nodes among `nodes`, added up. -/
def weightSum
    (now : Nat)
    (pool : UpstreamPool)
    (nodes : List Nat) :
    Nat :=
  ((nodes.filter (availableAt now pool)).map pool.weightAt).sum

theorem weightSum_cons
    (node : Nat)
    (rest : List Nat) :
    weightSum now pool (node :: rest) =
      (if availableAt now pool node then pool.weightAt node else 0) +
        weightSum now pool rest := by
  cases passed : availableAt now pool node <;>
    simp [weightSum, passed]

/-- Running `u32` addition. -/
theorem run_checkedAdd
    (first second : Nat) :
    (Pick.checkedAdd first second).run (answer now) pool =
      (if first + second < 2 ^ 32 then
          some (first + second)
        else
          none, pool) := by
  unfold Pick.checkedAdd
  split <;> rfl

/-- The weight total is the sum, or a panic when that is no `u32`. -/
theorem run_totalWeight
    (settled : Settled now pool)
    (nodes : List Nat)
    {total : Nat}
    (fits : total < 2 ^ 32) :
    (Pick.totalWeight nodes total).run (answer now) pool =
      (if total + weightSum now pool nodes < 2 ^ 32 then
          some (total + weightSum now pool nodes)
        else
          none, pool) := by
  induction nodes generalizing total with
  | nil =>
      have empty : weightSum now pool [] = 0 := rfl
      rw [empty, Nat.add_zero, if_pos fits]
      rfl
  | cons node rest inductionHypothesis =>
      rw [Pick.totalWeight,
        Program.run_bind_of_some (settled.observes node),
        weightSum_cons]
      cases passed : availableAt now pool node with
      | false =>
          simpa using inductionHypothesis fits
      | true =>
          have weightRead :
              (Pick.weight node).run (answer now) pool =
                (some (pool.weightAt node), pool) :=
            rfl
          simp only [↓reduceIte]
          rw [Program.run_bind_of_some weightRead, Program.run_bind,
            run_checkedAdd]
          by_cases small : total + pool.weightAt node < 2 ^ 32
          · simp only [small, ↓reduceIte]
            rw [inductionHypothesis small, Nat.add_assoc]
          · have large :
                ¬ total +
                    (pool.weightAt node + weightSum now pool rest) <
                  2 ^ 32 := by
              omega
            rw [if_neg small, if_neg large]

/-- The loop finds the node whose interval the target lies in. -/
theorem run_weightedNode_eq
    (settled : Settled now pool)
    {target : Nat}
    (nodes : List Nat)
    {cumulative : Nat}
    (fits : cumulative + weightSum now pool nodes < 2 ^ 32)
    (above : cumulative ≤ target) :
    (Pick.weightedNode target nodes cumulative).run (answer now) pool =
      (some
        ((holder?
            ((nodes.filter (availableAt now pool)).map pool.weightAt)
            (target - cumulative)).bind fun place =>
          (nodes.filter (availableAt now pool))[place]?), pool) := by
  induction nodes generalizing cumulative with
  | nil =>
      rfl
  | cons node rest inductionHypothesis =>
      rw [weightSum_cons] at fits
      rw [Pick.weightedNode,
        Program.run_bind_of_some (settled.observes node)]
      cases passed : availableAt now pool node with
      | false =>
          simp only [passed, Bool.false_eq_true, ↓reduceIte,
            Nat.zero_add] at fits ⊢
          rw [List.filter_cons_of_neg (by simp [passed])]
          exact inductionHypothesis fits above
      | true =>
          simp only [passed, ↓reduceIte] at fits ⊢
          have weightRead :
              (Pick.weight node).run (answer now) pool =
                (some (pool.weightAt node), pool) :=
            rfl
          have small : cumulative + pool.weightAt node < 2 ^ 32 := by
            omega
          rw [Program.run_bind_of_some weightRead, Program.run_bind,
            run_checkedAdd, List.filter_cons_of_pos passed, List.map_cons]
          simp only [small, ↓reduceIte]
          by_cases reached : target < cumulative + pool.weightAt node
          · have inFirst : target - cumulative < pool.weightAt node := by
              omega
            rw [if_pos reached, holder?_cons_of_lt inFirst]
            rfl
          · have restFits :
                cumulative + pool.weightAt node +
                    weightSum now pool rest < 2 ^ 32 := by
              omega
            have isLater :
                target - cumulative =
                  pool.weightAt node +
                    (target - (cumulative + pool.weightAt node)) := by
              omega
            rw [if_neg reached,
              inductionHypothesis restFits (Nat.not_lt.mp reached), isLater,
              holder?_cons_add, Option.bind_map]
            rfl

/--
With a total that fits, a target inside the total is reached: the weighted loop
returns one of the available nodes.
-/
theorem run_weightedNode
    (settled : Settled now pool)
    {target : Nat}
    (nodes : List Nat)
    {cumulative : Nat}
    (fits : cumulative + weightSum now pool nodes < 2 ^ 32)
    (above : cumulative ≤ target)
    (below : target < cumulative + weightSum now pool nodes) :
    ∃ node ∈ nodes,
      availableAt now pool node = true ∧
        (Pick.weightedNode target nodes cumulative).run
            (answer now) pool =
          (some (some node), pool) := by
  have inside :
      target - cumulative <
        ((nodes.filter (availableAt now pool)).map pool.weightAt).sum := by
    change target - cumulative < weightSum now pool nodes
    omega
  obtain ⟨place, isHolder, within⟩ := exists_holder inside
  rw [List.length_map] at within
  obtain ⟨member, available⟩ := List.mem_filter.mp (List.getElem_mem within)
  refine ⟨_, member, available, ?_⟩
  rw [run_weightedNode_eq settled nodes fits above, isHolder,
    Option.bind_some, List.getElem?_eq_getElem within]

/-- The least-connections loop keeps its best node or finds an available one. -/
theorem run_leastConn
    (settled : Settled now pool)
    (nodes : List Nat)
    (best : Option (Nat × Nat)) :
    ∃ result,
      (Pick.leastConn nodes best).run (answer now) pool =
          (some result, pool) ∧
        (result = none →
          best = none ∧
            ∀ node ∈ nodes, availableAt now pool node = false) ∧
        (∀ node,
          result = some node →
          (∃ fewest, best = some (node, fewest)) ∨
            node ∈ nodes ∧ availableAt now pool node = true) := by
  induction nodes generalizing best with
  | nil =>
      refine ⟨best.map (·.1), rfl, ?_, ?_⟩
      · intro isNone
        simpa using isNone
      · intro node isNode
        left
        obtain ⟨⟨kept, fewest⟩, bestShape, rfl⟩ :=
          Option.map_eq_some_iff.mp isNode
        exact ⟨fewest, bestShape⟩
  | cons node rest inductionHypothesis =>
      rw [Pick.leastConn,
        Program.run_bind_of_some (settled.observes node)]
      cases passed : availableAt now pool node with
      | false =>
          obtain ⟨result, runs, nothing, something⟩ :=
            inductionHypothesis best
          refine ⟨result, by simpa using runs, ?_, ?_⟩
          · intro isNone
            obtain ⟨bestNone, restNone⟩ := nothing isNone
            refine ⟨bestNone, ?_⟩
            intro other member
            rcases List.mem_cons.mp member with isNode | inRest
            · rw [isNode, passed]
            · exact restNone other inRest
          · intro other isOther
            rcases something other isOther with
                fromBest | ⟨inRest, available⟩
            · exact .inl fromBest
            · exact .inr ⟨by simp [inRest], available⟩
      | true =>
          -- Whichever node is kept, the loop goes on with a best node.
          have continues :
              ∀ kept fewest,
                (kept = node ∨ best = some (kept, fewest)) →
                ∃ result,
                  (Pick.leastConn rest (some (kept, fewest))).run
                      (answer now) pool =
                    (some result, pool) ∧
                  (result = none →
                    best = none ∧
                      ∀ other ∈ node :: rest,
                        availableAt now pool other = false) ∧
                  (∀ other,
                    result = some other →
                    (∃ fewest, best = some (other, fewest)) ∨
                      other ∈ node :: rest ∧
                        availableAt now pool other = true) := by
            intro kept fewest origin
            obtain ⟨result, runs, nothing, something⟩ :=
              inductionHypothesis (some (kept, fewest))
            refine ⟨result, runs, ?_, ?_⟩
            · intro isNone
              exact nomatch (nothing isNone).1
            · intro other isOther
              rcases something other isOther with
                  ⟨count, fromBest⟩ | ⟨inRest, available⟩
              · obtain ⟨rfl, rfl⟩ : kept = other ∧ fewest = count := by
                  simpa using fromBest
                rcases origin with isNode | wasBest
                · subst isNode
                  exact .inr ⟨by simp, passed⟩
                · exact .inl ⟨fewest, wasBest⟩
              · exact .inr ⟨by simp [inRest], available⟩
          have connectionsRead :
              (Pick.activeConnections node).run (answer now) pool =
                (some (pool.connectionsAt node), pool) :=
            rfl
          simp only [↓reduceIte]
          rw [Program.run_bind_of_some connectionsRead]
          rcases best with _ | ⟨kept, fewest⟩
          · exact continues node (pool.connectionsAt node) (.inl rfl)
          · simp only
            split
            · exact continues node (pool.connectionsAt node) (.inl rfl)
            · exact continues kept fewest (.inr rfl)

/-! ## The first pass -/

/-- Asking the node after `front`. -/
theorem run_isAvailable_append
    (now : Nat)
    (pool : UpstreamPool)
    (front : List NodeState)
    (node : NodeState)
    (rest : List NodeState) :
    (Pick.isAvailable front.length).run (answer now)
        { pool with nodes := front ++ node :: rest } =
      (some (node.available now),
        { pool with nodes := front ++ node.asked now :: rest }) := by
  simp [Pick.isAvailable, answer, NodeState.available, NodeState.asked]

/-- The counting pass asks every node once and counts those that answer yes. -/
theorem run_count_append
    (now : Nat)
    (pool : UpstreamPool)
    (front back : List NodeState) :
    (Pick.count Pick.isAvailable
        (List.range' front.length back.length)).run (answer now)
        { pool with nodes := front ++ back } =
      (some (back.countP (·.available now)),
        { pool with nodes := front ++ back.map (·.asked now) }) := by
  induction back generalizing front with
  | nil =>
      simp [Pick.count]
  | cons node rest inductionHypothesis =>
      have later := inductionHypothesis (front ++ [node.asked now])
      simp only [List.length_append, List.length_singleton,
        List.append_assoc, List.singleton_append] at later
      rw [List.length_cons, List.range'_succ, Pick.count,
        Program.run_bind_of_some
          (run_isAvailable_append now pool front node rest),
        Program.run_bind_of_some later]
      cases passed : node.available now <;>
        simp [passed]

/-- The counting pass of `pick`. -/
theorem run_count_indices
    (now : Nat)
    (pool : UpstreamPool) :
    (Pick.count Pick.isAvailable pool.indices).run (answer now) pool =
      (some (pool.nodes.countP (·.available now)), pool.askAll now) := by
  have counted := run_count_append now pool [] pool.nodes
  simpa [indices, List.range_eq_range', askAll] using counted

/-! ## The second pass -/

/-- The pool after `rr_counter.fetch_add(1)`. -/
def bumped (pool : UpstreamPool) : UpstreamPool :=
  { pool with rrCounter := (pool.rrCounter + 1) % 2 ^ 64 }

theorem run_fetchAddCounter :
    Pick.fetchAddCounter.run (answer now) pool =
      (some pool.rrCounter, pool.bumped) :=
  rfl

theorem Settled.bumped
    (settled : Settled now pool) :
    Settled now pool.bumped :=
  settled

@[simp] theorem weightSum_bumped (nodes : List Nat) :
    weightSum now pool.bumped nodes = weightSum now pool nodes :=
  rfl

/-- How many nodes of a pool are available. -/
def availableCount (now : Nat) (pool : UpstreamPool) : Nat :=
  pool.indices.countP (availableAt now pool)

/--
The result names an available node if `condition` holds, and names no node
otherwise.
-/
def SelectsIff
    (now : Nat)
    (pool : UpstreamPool)
    (condition : Prop)
    (result : Option (Option Nat)) :
    Prop :=
  (condition →
      ∃ node,
        availableAt now pool node = true ∧ result = some (some node)) ∧
    (¬ condition → ∀ node, result ≠ some (some node))

/-- Taking the `index`-th available node succeeds up to their number. -/
theorem selectsIff_getElem?
    (now : Nat)
    (pool : UpstreamPool)
    (index : Nat) :
    SelectsIff now pool
      (index < availableCount now pool)
      (some (pool.indices.filter (availableAt now pool))[index]?) := by
  constructor
  · intro below
    obtain ⟨node, _, available, found⟩ := exists_getElem?_filter below
    exact ⟨node, available, congrArg some found⟩
  · intro notBelow node isNode
    rw [availableCount, List.countP_eq_length_filter,
      Nat.not_lt] at notBelow
    rw [List.getElem?_eq_none notBelow] at isNode
    cases isNode

/-- A positive weight total comes from an available node. -/
theorem availableCount_pos_of_weightSum_pos
    (positive : 0 < weightSum now pool pool.indices) :
    0 < availableCount now pool := by
  by_contra noNode
  have none :
      pool.indices.filter (availableAt now pool) = [] := by
    apply List.length_eq_zero_iff.mp
    rw [← List.countP_eq_length_filter]
    exact Nat.eq_zero_of_not_pos noNode
  simp [weightSum, none] at positive

/-- Whether the second pass of each strategy reaches a node. -/
def Reaches
    (now : Nat)
    (pool : UpstreamPool)
    (clientIp : Option String)
    (availCount : Nat) :
    LoadBalanceStrategy → Prop
  | .roundRobin =>
      pool.rrCounter % availCount < availableCount now pool
  | .weighted =>
      0 < availableCount now pool ∧
        weightSum now pool pool.indices < 2 ^ 32
  | .leastConn =>
      0 < availableCount now pool
  | .ipHash =>
      Pick.simpleHash (clientIp.getD "0.0.0.0") % availCount <
        availableCount now pool

theorem selectsIff_weighted
    (settled : Settled now pool)
    (clientIp : Option String)
    (availCount : Nat) :
    SelectsIff now pool
      (0 < availableCount now pool ∧
        weightSum now pool pool.indices < 2 ^ 32)
      ((Pick.byStrategy .weighted clientIp pool.indices availCount).run
        (answer now) pool).1 := by
  have totalRun :=
    run_totalWeight settled pool.indices (by decide : 0 < 2 ^ 32)
  rw [Nat.zero_add] at totalRun
  by_cases fits : weightSum now pool pool.indices < 2 ^ 32
  · rw [if_pos fits] at totalRun
    simp only [Pick.byStrategy, Program.run_bind_of_some totalRun,
      fits, and_true]
    by_cases empty : weightSum now pool pool.indices = 0
    · rw [if_pos empty, run_nth settled.observes]
      exact selectsIff_getElem? now pool 0
    · have positive := Nat.pos_of_ne_zero empty
      obtain ⟨node, _, available, found⟩ :=
        run_weightedNode settled.bumped pool.indices
          (by simpa using fits)
          (Nat.zero_le (pool.rrCounter % 2 ^ 32 %
            weightSum now pool pool.indices))
          (by simpa using Nat.mod_lt _ positive)
      rw [if_neg empty, Program.run_bind_of_some run_fetchAddCounter,
        Program.run_bind_of_some found]
      refine ⟨fun _ => ⟨node, available, rfl⟩, fun noNode => ?_⟩
      exact absurd (availableCount_pos_of_weightSum_pos positive) noNode
  · rw [if_neg fits] at totalRun
    simp only [Pick.byStrategy, Program.run_bind_of_none totalRun]
    exact ⟨fun both => absurd both.2 fits, fun _ _ => nofun⟩

theorem selectsIff_leastConn
    (settled : Settled now pool)
    (clientIp : Option String)
    (availCount : Nat) :
    SelectsIff now pool
      (0 < availableCount now pool)
      ((Pick.byStrategy .leastConn clientIp pool.indices availCount).run
        (answer now) pool).1 := by
  obtain ⟨result, runs, nothing, something⟩ :=
    run_leastConn settled pool.indices none
  simp only [Pick.byStrategy, runs]
  constructor
  · intro positive
    obtain ⟨index, member, available⟩ := List.countP_pos_iff.mp positive
    cases result with
    | none =>
        have refused := (nothing rfl).2 index member
        simp [available] at refused
    | some node =>
        rcases something node rfl with ⟨_, isBest⟩ | ⟨_, isAvailable⟩
        · cases isBest
        · exact ⟨node, isAvailable, rfl⟩
  · intro noNode node isNode
    have isResult : result = some node := by simpa using isNode
    rcases something node isResult with
        ⟨_, isBest⟩ | ⟨member, isAvailable⟩
    · cases isBest
    · exact noNode (List.countP_pos_iff.mpr ⟨node, member, isAvailable⟩)

/--
On a settled pool the second pass selects iff its strategy reaches a node.
-/
theorem selectsIff_byStrategy
    (settled : Settled now pool)
    (strategy : LoadBalanceStrategy)
    (clientIp : Option String)
    (availCount : Nat) :
    SelectsIff now pool
      (Reaches now pool clientIp availCount strategy)
      ((Pick.byStrategy strategy clientIp pool.indices availCount).run
        (answer now) pool).1 := by
  cases strategy with
  | roundRobin =>
      rw [Pick.byStrategy, Program.run_bind_of_some run_fetchAddCounter,
        run_nth settled.bumped.observes]
      exact selectsIff_getElem? now pool (pool.rrCounter % availCount)
  | weighted =>
      exact selectsIff_weighted settled clientIp availCount
  | leastConn =>
      exact selectsIff_leastConn settled clientIp availCount
  | ipHash =>
      rw [Pick.byStrategy, run_nth settled.observes]
      exact selectsIff_getElem? now pool
        (Pick.simpleHash (clientIp.getD "0.0.0.0") % availCount)

/-! ## The fallback -/

/-- The fallback returns a node of every nonempty pool. -/
theorem degraded_returns
    (now : Nat)
    (nonempty : pool.nodes ≠ []) :
    ∃ index < pool.nodes.length,
      ((Pick.degraded pool.indices).run (answer now) pool).1 =
        some (some index) := by
  have healthyCount :=
    run_count (observes_isHealthy now pool) pool.indices
  rw [Pick.degraded, Program.run_bind_of_some healthyCount]
  by_cases someHealthy : 0 < pool.indices.countP pool.healthyAt
  · obtain ⟨index, member, _, found⟩ :=
      exists_getElem?_filter (Nat.mod_lt pool.rrCounter someHealthy)
    rw [if_pos someHealthy, Program.run_bind_of_some run_fetchAddCounter,
      run_nth (observes_isHealthy now pool.bumped)]
    exact ⟨index, List.mem_range.mp member, congrArg some found⟩
  · have positive : 0 < pool.nodes.length :=
      List.length_pos_iff.mpr nonempty
    have notEmpty : pool.indices.isEmpty = false := by
      simpa [indices] using nonempty
    have below := Nat.mod_lt pool.rrCounter positive
    refine ⟨_, below, ?_⟩
    rw [if_neg someHealthy, notEmpty, if_neg Bool.false_ne_true,
      Program.run_bind_of_some run_fetchAddCounter]
    simp [indices, below]

/-! ## The whole of `pick` -/

/--
What is asked of `pick`: it returns a node of the pool, and an available one if
there was any when it was called.
-/
def PickOk
    (now : Nat)
    (pool : UpstreamPool)
    (result : Option (Option Nat)) :
    Prop :=
  ∃ index node,
    result = some (some index) ∧
      pool.nodes[index]? = some node ∧
      ((∃ other ∈ pool.nodes, other.available now = true) →
        node.available now = true)

/--
No node is available, or the second filter reaches a steady node: under round
robin and IP hash the index computed from the number of available nodes is below
the number of steady ones; under least connections there is a steady node; under
weights there is one and the weights of the steady ones add up to a `u32`.
-/
def ReachesSteady
    (now : Nat)
    (clientIp : Option String)
    (pool : UpstreamPool) :
    Prop :=
  pool.nodes.countP (·.available now) = 0 ∨
    match pool.strategy with
    | .roundRobin =>
        pool.rrCounter % pool.nodes.countP (·.available now) <
          pool.nodes.countP (·.steady)
    | .weighted =>
        0 < pool.nodes.countP (·.steady) ∧
          ((pool.nodes.filter (·.steady)).map (·.weight)).sum < 2 ^ 32
    | .leastConn =>
        0 < pool.nodes.countP (·.steady)
    | .ipHash =>
        Pick.simpleHash (clientIp.getD "0.0.0.0") %
            pool.nodes.countP (·.available now) <
          pool.nodes.countP (·.steady)

theorem indices_askAll
    (now : Nat)
    (pool : UpstreamPool) :
    (pool.askAll now).indices = pool.indices := by
  simp [indices, askAll]

theorem availableCount_askAll
    (now : Nat)
    (pool : UpstreamPool) :
    availableCount now (pool.askAll now) =
      pool.nodes.countP (·.steady) := by
  rw [availableCount, availableAt_askAll, indices_askAll]
  exact countP_range pool.nodes (·.steady)

theorem weightSum_askAll
    (now : Nat)
    (pool : UpstreamPool) :
    weightSum now (pool.askAll now) (pool.askAll now).indices =
      ((pool.nodes.filter (·.steady)).map (·.weight)).sum := by
  rw [weightSum, availableAt_askAll, weightAt_askAll, indices_askAll]
  exact congrArg List.sum
    (map_filter_range pool.nodes (·.steady) (·.weight) 0)

/-- The second pass runs on the pool whose nodes have all been asked. -/
theorem pick_eq
    (now : Nat)
    (clientIp : Option String)
    (pool : UpstreamPool) :
    pool.pick now clientIp =
      if pool.nodes.countP (·.available now) = 0 then
        (Pick.degraded (pool.askAll now).indices).run
          (answer now) (pool.askAll now)
      else
        (Pick.byStrategy pool.strategy clientIp
            (pool.askAll now).indices
            (pool.nodes.countP (·.available now))).run
          (answer now) (pool.askAll now) := by
  rw [pick, pickProgram, Pick.pick,
    Program.run_bind_of_some (run_count_indices now pool), indices_askAll]
  split <;> rfl

/-- Without an available node `pick` falls back to a node of the pool. -/
theorem pickOk_of_none_available
    (clientIp : Option String)
    (nonempty : pool.nodes ≠ [])
    (noneAvailable : pool.nodes.countP (·.available now) = 0) :
    PickOk now pool (pool.pick now clientIp).1 := by
  have askedNonempty : (pool.askAll now).nodes ≠ [] := by
    simpa [askAll] using nonempty
  obtain ⟨index, below, returned⟩ := degraded_returns now askedNonempty
  have inBounds : index < pool.nodes.length := by
    simpa [askAll] using below
  rw [pick_eq, if_pos noneAvailable]
  refine ⟨index, pool.nodes[index], returned,
    List.getElem?_eq_getElem inBounds, ?_⟩
  rintro ⟨other, member, available⟩
  have refused := List.countP_eq_zero.mp noneAvailable other member
  exact absurd available refused

/-- With available nodes `pick` is right iff its second pass selects a node. -/
theorem pickOk_iff_reaches
    (clientIp : Option String)
    (someAvailable : pool.nodes.countP (·.available now) ≠ 0) :
    PickOk now pool (pool.pick now clientIp).1 ↔
      Reaches now (pool.askAll now) clientIp
        (pool.nodes.countP (·.available now)) pool.strategy := by
  obtain ⟨selects, refuses⟩ :=
    selectsIff_byStrategy (settled_askAll now pool) pool.strategy
      clientIp (pool.nodes.countP (·.available now))
  rw [pick_eq, if_neg someAvailable]
  constructor
  · rintro ⟨index, node, returned, _, _⟩
    by_contra unreached
    exact refuses unreached index returned
  · intro reached
    obtain ⟨index, available, returned⟩ := selects reached
    rw [availableAt_askAll] at available
    obtain ⟨node, found, isSteady⟩ := exists_node_of_getD available
    exact ⟨index, node, returned, found,
      fun _ => NodeState.available_of_steady now isSteady⟩

/--
`pick` returns a node, and an available one if there was any, exactly when no
node is available or the second filter reaches a steady node.
-/
theorem pick_ok_iff
    (now : Nat)
    (clientIp : Option String)
    (pool : UpstreamPool)
    (nonempty : pool.nodes ≠ []) :
    PickOk now pool (pool.pick now clientIp).1 ↔
      ReachesSteady now clientIp pool := by
  by_cases noneAvailable : pool.nodes.countP (·.available now) = 0
  · have ok := pickOk_of_none_available clientIp nonempty noneAvailable
    exact iff_of_true ok (.inl noneAvailable)
  · rw [pickOk_iff_reaches clientIp noneAvailable, ReachesSteady,
      or_iff_right noneAvailable]
    cases strategy : pool.strategy with
    | roundRobin =>
        simp only [Reaches, availableCount_askAll]
        rfl
    | weighted =>
        simp only [Reaches, availableCount_askAll, weightSum_askAll]
    | leastConn =>
        simp only [Reaches, availableCount_askAll]
    | ipHash =>
        simp only [Reaches, availableCount_askAll]

/-- A pool of one node, whose breaker opened at second 0 for 30 seconds. -/
def recoveringPool : UpstreamPool :=
  samplePool
    [sampleNode (some
      { CircuitBreaker.new 0 1 60 30 with
        state := .opened
        failureCount := 1 })]
    0

/-- Two plain nodes under round robin: `pick_ok_iff` at its second disjunct. -/
theorem pick_ok_two_plain_nodes :
    PickOk 0 (samplePool [sampleNode none, sampleNode none] 5)
      ((samplePool [sampleNode none, sampleNode none] 5).pick 0 none).1 :=
  (pick_ok_iff 0 none (samplePool [sampleNode none, sampleNode none] 5)
    (by decide)).mpr (.inr (show 5 % 2 < 2 by decide))

/--
The only node of `recoveringPool` is available at second 31, and `pick` returns
nothing: its count moves the breaker to half-open, and its filter is refused.
-/
theorem pick_none_of_recovering :
    recoveringPool.nodes ≠ [] ∧
      (∃ node ∈ recoveringPool.nodes, node.available 31 = true) ∧
      (recoveringPool.pick 31 none).1 = some none ∧
      ¬ PickOk 31 recoveringPool (recoveringPool.pick 31 none).1 := by
  have returnsNothing : (recoveringPool.pick 31 none).1 = some none := by
    decide
  refine ⟨by decide, by decide, returnsNothing, ?_⟩
  rintro ⟨index, _, returned, _, _⟩
  rw [returnsNothing] at returned
  cases returned

end UpstreamPool

end Sweety
