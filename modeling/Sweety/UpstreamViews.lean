import Sweety.UpstreamPick

namespace Sweety.UpstreamViews

/-!
# What the administrator sees of the upstream nodes

Model of `route_upstreams_list`, `route_upstream_detail` and
`route_caddy_upstreams` in `admin_api/handlers/upstreams.rs`.  The first two ask
`is_available` of every node they show, as `pick` does; the second at which a
node is asked is given by its position.

The pools are those of all sites in the order in which the loops come to them.
-/

/--
A pool of a site, with the strategy that the configuration of the site names.
-/
structure Entry where
  site : String
  name : String
  strategy : Option LoadBalanceStrategy
  pool : UpstreamPool
  deriving Repr, DecidableEq

/-- What is shown of a node in the list. -/
structure NodeView where
  addr : String
  weight : Nat
  healthy : Bool
  available : Bool
  activeConnections : Nat
  failCount : Nat
  tls : Bool
  http2 : Bool
  circuitBreakerOpen : Option Bool
  deriving Repr, DecidableEq

/-- What is shown of a node in the details of its pool. -/
structure NodeDetail extends NodeView where
  tlsSni : String
  tlsInsecure : Bool
  sendProxyProtocol : Nat
  upstreamHost : Option String
  deriving Repr, DecidableEq

structure PoolView where
  name : String
  site : String
  strategy : Option LoadBalanceStrategy
  nodeCount : Nat
  healthyCount : Nat
  nodes : List NodeView
  deriving Repr, DecidableEq

structure PoolDetail where
  name : String
  site : String
  nodes : List NodeDetail
  retry : Nat
  retryTimeout : Nat
  deriving Repr, DecidableEq

structure CaddyView where
  address : String
  healthy : Bool
  numRequests : Nat
  fails : Nat
  deriving Repr, DecidableEq

/-- The answer of an endpoint. -/
inductive Answer where
  | upstreams (count : Nat) (pools : List PoolView)
  | detail (pool : PoolDetail)
  | missing (status : Nat) (text : String)
  | caddy (nodes : List CaddyView)
  deriving Repr, DecidableEq

inductive Endpoint where
  | list
  | detail (name : String)
  | caddy
  deriving Repr, DecidableEq

/-! ## The endpoints -/

/-- The breaker is looked at after `is_available` has asked it. -/
def viewNode (now : Nat) (node : NodeState) : NodeView where
  addr := node.addr.asStr
  weight := node.weight
  healthy := node.healthy
  available := node.available now
  activeConnections := node.activeConnections
  failCount := node.failCount
  tls := node.tls
  http2 := node.http2
  circuitBreakerOpen :=
    (node.asked now).circuitBreaker.map CircuitBreaker.isOpen

def detailNode (now : Nat) (node : NodeState) : NodeDetail where
  toNodeView := viewNode now node
  tlsSni := node.tlsSni
  tlsInsecure := node.tlsInsecure
  sendProxyProtocol := node.sendProxyProtocol
  upstreamHost := node.upstreamHost

/-- The nodes after each has been asked at its second. -/
def askNodes (clock : Nat → Nat) : List NodeState → List NodeState
  | [] =>
      []
  | node :: rest =>
      node.asked (clock 0) :: askNodes (fun index => clock (index + 1)) rest

/-- What is shown of the nodes of a pool. -/
def viewNodes
    {View : Type}
    (view : Nat → NodeState → View)
    (clock : Nat → Nat) :
    List NodeState → List View
  | [] =>
      []
  | node :: rest =>
      view (clock 0) node ::
        viewNodes view (fun index => clock (index + 1)) rest

/-- The pool of an entry after its nodes have been asked. -/
def Entry.ask (clock : Nat → Nat) (entry : Entry) : Entry :=
  { entry with
    pool :=
      { entry.pool with nodes := askNodes clock entry.pool.nodes } }

def viewPool (clock : Nat → Nat) (entry : Entry) : PoolView where
  name := entry.name
  site := entry.site
  strategy := entry.strategy
  nodeCount := entry.pool.nodes.length
  healthyCount := entry.pool.nodes.countP NodeState.healthy
  nodes := viewNodes viewNode clock entry.pool.nodes

/-- The loops of `route_upstreams_list`; a name is shown once. -/
def listPools
    (clock : Nat → Nat → Nat)
    (seen : List String) :
    List Entry → List PoolView × List Entry
  | [] =>
      ([], [])
  | entry :: rest =>
      let later := fun index => clock (index + 1)
      if seen.contains entry.name then
        let (views, asked) := listPools later seen rest
        (views, entry :: asked)
      else
        let (views, asked) := listPools later (entry.name :: seen) rest
        (viewPool (clock 0) entry :: views, entry.ask (clock 0) :: asked)

/-- `route_upstreams_list`. -/
def routeUpstreamsList
    (clock : Nat → Nat → Nat)
    (entries : List Entry) :
    Answer × List Entry :=
  let (views, asked) := listPools clock [] entries
  (.upstreams views.length views, asked)

/-- `route_upstream_detail`; the first site that has a pool of the name. -/
def routeUpstreamDetail
    (name : String)
    (clock : Nat → Nat → Nat) :
    List Entry → Answer × List Entry
  | [] =>
      (.missing 404 ("上游组 '" ++ name ++ "' 不存在"), [])
  | entry :: rest =>
      if entry.name == name then
        (.detail
          { name := name
            site := entry.site
            nodes := viewNodes detailNode (clock 0) entry.pool.nodes
            retry := entry.pool.retry
            retryTimeout := entry.pool.retryTimeout },
          entry.ask (clock 0) :: rest)
      else
        let (answer, asked) :=
          routeUpstreamDetail name (fun index => clock (index + 1)) rest
        (answer, entry :: asked)

def caddyNode (node : NodeState) : CaddyView where
  address := node.addr.asStr
  healthy := node.healthy
  numRequests := node.activeConnections
  fails := node.failCount

/-- The loops of `route_caddy_upstreams`; an address is shown once. -/
def caddyNodes (seen : List String) : List NodeState → List CaddyView
  | [] =>
      []
  | node :: rest =>
      if seen.contains node.addr.asStr then
        caddyNodes seen rest
      else
        caddyNode node :: caddyNodes (node.addr.asStr :: seen) rest

/-- `route_caddy_upstreams`. -/
def routeCaddyUpstreams (entries : List Entry) : Answer × List Entry :=
  (.caddy (caddyNodes [] (entries.flatMap fun entry => entry.pool.nodes)),
    entries)

/-- A `GET` on the upstreams. -/
def get
    (endpoint : Endpoint)
    (clock : Nat → Nat → Nat)
    (entries : List Entry) :
    Answer × List Entry :=
  match endpoint with
  | .list =>
      routeUpstreamsList clock entries
  | .detail name =>
      routeUpstreamDetail name clock entries
  | .caddy =>
      routeCaddyUpstreams entries

/-! ## What is wanted -/

/--
Every pool and every node is as before, and whatever is picked later is what
would have been picked.
-/
def ReadOnly
    (endpoint : Endpoint)
    (clock : Nat → Nat → Nat)
    (entries : List Entry) :
    Prop :=
  (get endpoint clock entries).2 = entries ∧
    ∀ (index now : Nat) (clientIp : Option String),
      ((get endpoint clock entries).2[index]?).map
          (fun entry : Entry => entry.pool.pick now clientIp) =
        (entries[index]?).map fun entry : Entry =>
          entry.pool.pick now clientIp

/-- The pool at a position is the one that the endpoint asks for its name. -/
def AsksAt
    (endpoint : Endpoint)
    (entries : List Entry)
    (index : Nat)
    (entry : Entry) :
    Prop :=
  match endpoint with
  | .list =>
      entry.name ∉ (entries.take index).map Entry.name
  | .detail name =>
      entry.name = name ∧ name ∉ (entries.take index).map Entry.name
  | .caddy =>
      False

/--
No node of a pool has an open breaker that has timed out when it is asked.
-/
def NoneMoves (clock : Nat → Nat) (nodes : List NodeState) : Prop :=
  ∀ index (node : NodeState),
    nodes[index]? = some node →
    node.moves (clock index) = false

/-- The same for every pool that the endpoint asks. -/
def AsksSettled
    (endpoint : Endpoint)
    (clock : Nat → Nat → Nat)
    (entries : List Entry) :
    Prop :=
  ∀ index entry,
    entries[index]? = some entry →
    AsksAt endpoint entries index entry →
    NoneMoves (clock index) entry.pool.nodes

/-! ## What asking changes -/

/-- Asking leaves a node as it was exactly if it does not move the breaker. -/
theorem asked_eq_self_iff (now : Nat) (node : NodeState) :
    node.asked now = node ↔ node.moves now = false := by
  cases health : node.healthy with
  | false =>
      simp [NodeState.asked, NodeState.isAvailable, NodeState.moves, health]
  | true =>
      cases breakerShape : node.circuitBreaker with
      | none =>
          simp [NodeState.asked, NodeState.isAvailable, NodeState.moves,
            health, breakerShape]
      | some breaker =>
          rcases CircuitBreaker.allow_cases now breaker with
              ⟨opened, timedOut, moved⟩ | ⟨still, kept⟩
          · have isMoved : node.moves now = true := by
              simp [NodeState.moves, health, breakerShape, opened, timedOut]
            have isAsked :
                node.asked now =
                  { node with
                    circuitBreaker :=
                      some { breaker with state := .halfOpen } } := by
              simp [NodeState.asked, NodeState.isAvailable, health,
                breakerShape, moved]
            rw [isMoved, isAsked]
            constructor
            · intro isSame
              have sameBreaker :=
                congrArg NodeState.circuitBreaker isSame
              rw [breakerShape] at sameBreaker
              have sameState :=
                congrArg CircuitBreaker.state (Option.some.inj sameBreaker)
              rw [opened] at sameState
              cases sameState
            · intro isFalse
              cases isFalse
          · have stays : node.moves now = false := by
              rcases still with closed | halfOpen | waiting
              · simp [NodeState.moves, breakerShape, closed]
              · simp [NodeState.moves, breakerShape, halfOpen]
              · simp [NodeState.moves, breakerShape, waiting]
            have isAsked : node.asked now = node := by
              have isHealthy : ¬ (!node.healthy) = true := by
                simp [health]
              rw [NodeState.asked, NodeState.isAvailable, if_neg isHealthy,
                breakerShape]
              dsimp only
              rw [kept, ← breakerShape]
            exact ⟨fun _ => stays, fun _ => isAsked⟩

/-- A statement about all positions of a list, at the first one and after it. -/
theorem forall_getElem?_cons
    {α : Type}
    {first : α}
    {rest : List α}
    {holds : Nat → α → Prop} :
    (∀ index item, (first :: rest)[index]? = some item → holds index item) ↔
      holds 0 first ∧
        ∀ index item,
          rest[index]? = some item → holds (index + 1) item := by
  constructor
  · intro all
    refine ⟨all 0 first rfl, ?_⟩
    intro index item isItem
    exact all (index + 1) item isItem
  · rintro ⟨atFirst, later⟩ index item isItem
    cases index with
    | zero =>
        cases isItem
        exact atFirst
    | succ index =>
        exact later index item isItem

/-- Asking the nodes of a pool leaves them as they were if none moves. -/
theorem askNodes_eq_self_iff
    (clock : Nat → Nat)
    (nodes : List NodeState) :
    askNodes clock nodes = nodes ↔ NoneMoves clock nodes := by
  induction nodes generalizing clock with
  | nil =>
      exact ⟨fun _ _ _ => nofun, fun _ => rfl⟩
  | cons node rest inductionHypothesis =>
      have atRest := inductionHypothesis fun index => clock (index + 1)
      rw [askNodes, List.cons.injEq, asked_eq_self_iff, atRest, NoneMoves,
        NoneMoves, forall_getElem?_cons]

theorem ask_eq_self_iff
    (clock : Nat → Nat)
    (entry : Entry) :
    entry.ask clock = entry ↔ NoneMoves clock entry.pool.nodes := by
  rw [← askNodes_eq_self_iff]
  constructor
  · intro isSame
    exact congrArg (fun other => other.pool.nodes) isSame
  · intro isSame
    rw [Entry.ask, isSame]

/-- The pools of the list, when some names have been seen. -/
theorem listPools_eq_self_iff
    (clock : Nat → Nat → Nat)
    (seen : List String)
    (entries : List Entry) :
    (listPools clock seen entries).2 = entries ↔
      ∀ index entry,
        entries[index]? = some entry →
        entry.name ∉ seen →
        entry.name ∉ (entries.take index).map Entry.name →
        NoneMoves (clock index) entry.pool.nodes := by
  induction entries generalizing clock seen with
  | nil =>
      exact ⟨fun _ _ _ => nofun, fun _ => rfl⟩
  | cons first rest inductionHypothesis =>
      rw [forall_getElem?_cons]
      cases isSeen : seen.contains first.name with
      | true =>
          have wasSeen : first.name ∈ seen := List.contains_iff_mem.mp isSeen
          rw [listPools, isSeen]
          change first :: (listPools _ seen rest).2 = first :: rest ↔ _
          rw [List.cons.injEq, inductionHypothesis]
          constructor
          · rintro ⟨-, later⟩
            refine ⟨fun notSeen => absurd wasSeen notSeen, ?_⟩
            intro index entry isEntry notSeen notBefore
            rw [List.take_succ_cons, List.map_cons, List.mem_cons,
              not_or] at notBefore
            exact later index entry isEntry notSeen notBefore.2
          · rintro ⟨-, later⟩
            refine ⟨rfl, ?_⟩
            intro index entry isEntry notSeen notBefore
            apply later index entry isEntry notSeen
            rw [List.take_succ_cons, List.map_cons, List.mem_cons, not_or]
            refine ⟨?_, notBefore⟩
            intro isFirst
            exact notSeen (isFirst ▸ wasSeen)
      | false =>
          have notSeenFirst : first.name ∉ seen := by
            intro wasSeen
            rw [List.contains_iff_mem.mpr wasSeen] at isSeen
            cases isSeen
          rw [listPools, isSeen]
          change
            first.ask (clock 0) ::
                (listPools _ (first.name :: seen) rest).2 =
              first :: rest ↔ _
          rw [List.cons.injEq, inductionHypothesis, ask_eq_self_iff]
          constructor
          · rintro ⟨atFirst, later⟩
            refine ⟨fun _ _ => atFirst, ?_⟩
            intro index entry isEntry notSeen notBefore
            rw [List.take_succ_cons, List.map_cons, List.mem_cons,
              not_or] at notBefore
            apply later index entry isEntry _ notBefore.2
            rw [List.mem_cons, not_or]
            exact ⟨notBefore.1, notSeen⟩
          · rintro ⟨atFirst, later⟩
            refine ⟨atFirst notSeenFirst nofun, ?_⟩
            intro index entry isEntry notSeen notBefore
            rw [List.mem_cons, not_or] at notSeen
            apply later index entry isEntry notSeen.2
            rw [List.take_succ_cons, List.map_cons, List.mem_cons, not_or]
            exact ⟨notSeen.1, notBefore⟩

theorem routeUpstreamDetail_eq_self_iff
    (name : String)
    (clock : Nat → Nat → Nat)
    (entries : List Entry) :
    (routeUpstreamDetail name clock entries).2 = entries ↔
      AsksSettled (.detail name) clock entries := by
  induction entries generalizing clock with
  | nil =>
      exact ⟨fun _ _ _ => nofun, fun _ => rfl⟩
  | cons first rest inductionHypothesis =>
      rw [AsksSettled, forall_getElem?_cons]
      cases isNamed : first.name == name with
      | true =>
          have sameName : first.name = name := beq_iff_eq.mp isNamed
          rw [routeUpstreamDetail, isNamed]
          change first.ask (clock 0) :: rest = first :: rest ↔ _
          rw [List.cons.injEq, ask_eq_self_iff]
          constructor
          · rintro ⟨atFirst, -⟩
            refine ⟨fun _ => atFirst, ?_⟩
            rintro index entry isEntry ⟨-, notBefore⟩
            rw [List.take_succ_cons, List.map_cons, List.mem_cons,
              not_or] at notBefore
            exact absurd sameName.symm notBefore.1
          · rintro ⟨atFirst, -⟩
            exact ⟨atFirst ⟨sameName, nofun⟩, rfl⟩
      | false =>
          have otherName : first.name ≠ name := by
            intro sameName
            rw [beq_iff_eq.mpr sameName] at isNamed
            cases isNamed
          rw [routeUpstreamDetail, isNamed]
          change
            first :: (routeUpstreamDetail name _ rest).2 = first :: rest ↔ _
          rw [List.cons.injEq, inductionHypothesis]
          constructor
          · rintro ⟨-, later⟩
            refine ⟨fun asks => absurd asks.1 otherName, ?_⟩
            rintro index entry isEntry ⟨isName, notBefore⟩
            rw [List.take_succ_cons, List.map_cons, List.mem_cons,
              not_or] at notBefore
            exact later index entry isEntry ⟨isName, notBefore.2⟩
          · rintro ⟨-, later⟩
            refine ⟨rfl, ?_⟩
            rintro index entry isEntry ⟨isName, notBefore⟩
            apply later index entry isEntry
            refine ⟨isName, ?_⟩
            rw [List.take_succ_cons, List.map_cons, List.mem_cons, not_or]
            exact ⟨Ne.symm otherName, notBefore⟩

theorem get_eq_self_iff
    (endpoint : Endpoint)
    (clock : Nat → Nat → Nat)
    (entries : List Entry) :
    (get endpoint clock entries).2 = entries ↔
      AsksSettled endpoint clock entries := by
  cases endpoint with
  | list =>
      have listed := listPools_eq_self_iff clock [] entries
      constructor
      · intro isSame index entry isEntry notBefore
        exact listed.mp isSame index entry isEntry nofun notBefore
      · intro settled
        apply listed.mpr
        intro index entry isEntry _ notBefore
        exact settled index entry isEntry notBefore
  | detail name =>
      exact routeUpstreamDetail_eq_self_iff name clock entries
  | caddy =>
      exact ⟨fun _ _ _ _ asks => asks.elim, fun _ => rfl⟩

/--
A `GET` on the upstreams only reads exactly if no healthy node of a pool that it
asks has an open breaker whose timeout has passed.
-/
theorem readOnly_iff
    (endpoint : Endpoint)
    (clock : Nat → Nat → Nat)
    (entries : List Entry) :
    ReadOnly endpoint clock entries ↔
      AsksSettled endpoint clock entries := by
  rw [← get_eq_self_iff]
  constructor
  · intro readOnly
    exact readOnly.1
  · intro isSame
    refine ⟨isSame, ?_⟩
    intro index now clientIp
    rw [isSame]

/-- The list moves the breaker of the only node from open to half-open. -/
theorem not_readOnly_recovering :
    ¬ ReadOnly .list (fun _ _ => 31)
      [⟨"s", "u", some .roundRobin, UpstreamPool.recoveringPool⟩] := by
  intro readOnly
  exact absurd readOnly.1 (by decide)

end Sweety.UpstreamViews
