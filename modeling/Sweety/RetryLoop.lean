import Sweety.UpstreamPool
import Mathlib.Data.Nat.Find

namespace Sweety

/-!
# The retry loop of the HTTP/1 proxy

Model of the `'retry` loop of `handle` in `handler/reverse_proxy/mod.rs`, from
the moment a node has been picked.  What an attempt does on the network is left
open: an `Upstreams` value says what `forward_request` returns and how it
changes the rest of the world.

The request body is handed to the first attempt, and a later attempt starts only
while the body is still there.  It never is, so the loop ends with its first
attempt.
-/

/-- The world around the loop: its clock, sleeping, and `forward_request`. -/
structure Upstreams (World Body Resp : Type) where
  now : World → Nat
  sleep : Nat → World → World
  forward :
    (attempt : Nat) → NodeState → Body → World →
      Except ForwardError Resp × World
  status : Resp → Nat

/-- What the client gets: an upstream's response, or a generated error page. -/
inductive HandlerResponse (Resp : Type) where
  | upstream (response : Resp)
  | proxyError (status : Nat)
  deriving Repr, DecidableEq

namespace RetryLoop

/-- The variables of the loop, and the outcomes of the attempts made so far. -/
structure State (World Body Resp : Type) where
  world : World
  pool : UpstreamPool
  currentNode : Nat
  bodyForRetry : Option Body
  lastErr : String
  respOpt : Option Resp
  attempts : List (Except ForwardError Resp)

/-- How one pass of the loop body ends. -/
inductive Flow (State : Type) where
  /-- The next attempt follows. -/
  | next (state : State)
  /-- `break 'retry`. -/
  | stop (state : State)
  | panic

section Loop

variable {World Body Resp : Type} [Inhabited Body]

/-- The head of a later attempt: wait, and switch to another node. -/
def switchNode
    (upstreams : Upstreams World Body Resp)
    (clientIp : String)
    (state : State World Body Resp) :
    Flow (State World Body Resp) :=
  if state.bodyForRetry.isNone then
    .stop state
  else
    let world :=
      if 0 < state.pool.retryTimeout then
        upstreams.sleep state.pool.retryTimeout state.world
      else
        state.world
    match state.pool.pick (upstreams.now world) (some clientIp) with
    | (none, _) =>
        .panic
    | (some none, pool) =>
        .next { state with world, pool }
    | (some (some newNode), pool) =>
        .next
          { state with
            world
            pool := (pool.leave state.currentNode).enter newNode
            currentNode := newNode }

/-- `max_attempts`. -/
def maxAttempts (pool : UpstreamPool) : Nat :=
  if pool.nextUpstreamFlags.isOff then
    1
  else
    1 + pool.retry

/-- `method_allows_retry`. -/
def methodAllowsRetry (method : String) (pool : UpstreamPool) : Bool :=
  isIdempotent method || pool.nextUpstreamFlags.allowsNonIdempotent

/-- `forward_request` on the current node, and the `match` on its result. -/
def attemptForward
    (upstreams : Upstreams World Body Resp)
    (method : String)
    (attempt : Nat)
    (node : NodeState)
    (state : State World Body Resp) :
    Flow (State World Body Resp) :=
  let flags := state.pool.nextUpstreamFlags
  let (outcome, world) :=
    upstreams.forward attempt node
      (state.bodyForRetry.getD default) state.world
  let now := upstreams.now world
  let after : State World Body Resp :=
    { state with
      world
      bodyForRetry := none
      attempts := state.attempts ++ [outcome] }
  match outcome with
  | .ok response =>
      if attempt + 1 < maxAttempts state.pool &&
          methodAllowsRetry method state.pool &&
          flags.matchesStatus (upstreams.status response) then
        .next
          { after with
            pool :=
              state.pool.modifyNode state.currentNode (·.recordFailure now)
            lastErr := s!"HTTP {upstreams.status response}" }
      else
        .stop
          { after with
            pool :=
              state.pool.modifyNode state.currentNode (·.recordSuccess now)
            respOpt := some response }
  | .error error =>
      let failed : State World Body Resp :=
        { after with
          pool :=
            state.pool.modifyNode state.currentNode (·.recordFailure now)
          lastErr := error.text }
      if methodAllowsRetry method state.pool &&
          shouldRetryError error flags then
        .next failed
      else
        .stop failed

/-- One pass of the loop body. -/
def attemptStep
    (upstreams : Upstreams World Body Resp)
    (method clientIp : String)
    (attempt : Nat)
    (state : State World Body Resp) :
    Flow (State World Body Resp) :=
  let prepared :=
    if 0 < attempt then
      switchNode upstreams clientIp state
    else
      .next state
  match prepared with
  | .next ready =>
      match ready.pool.nodes[ready.currentNode]? with
      | none =>
          .panic
      | some node =>
          attemptForward upstreams method attempt node ready
  | ended =>
      ended

/-- The passes from `attempt` on, `remaining` of them; `none` is a panic. -/
def passes
    (upstreams : Upstreams World Body Resp)
    (method clientIp : String) :
    (remaining attempt : Nat) →
      State World Body Resp → Option (State World Body Resp)
  | 0, _, state =>
      some state
  | remaining + 1, attempt, state =>
      match attemptStep upstreams method clientIp attempt state with
      | .next after =>
          passes upstreams method clientIp remaining (attempt + 1) after
      | .stop after =>
          some after
      | .panic =>
          none

/-- The loop of `handle`, for a request that was given node `node`. -/
def retryLoop
    (upstreams : Upstreams World Body Resp)
    (method clientIp : String)
    (body : Body)
    (node : Nat)
    (pool : UpstreamPool)
    (world : World) :
    Option (State World Body Resp) :=
  let entered := pool.enter node
  (passes upstreams method clientIp (maxAttempts entered) 0
    { world
      pool := entered
      currentNode := node
      bodyForRetry := some body
      lastErr := ""
      respOpt := none
      attempts := [] }).map fun ended =>
    { ended with pool := ended.pool.leave ended.currentNode }

/-- `resp_opt.unwrap_or_else(|| proxy_error(BAD_GATEWAY, …))`. -/
def response (state : State World Body Resp) : HandlerResponse Resp :=
  match state.respOpt with
  | some response =>
      .upstream response
  | none =>
      .proxyError 502

/-! ## The loop ends with its first attempt -/

/-- Once the body is gone, no further attempt is made. -/
theorem passes_of_body_none
    (upstreams : Upstreams World Body Resp)
    (method clientIp : String)
    (remaining : Nat)
    {attempt : Nat}
    {state : State World Body Resp}
    (later : 0 < attempt)
    (noBody : state.bodyForRetry = none) :
    passes upstreams method clientIp remaining attempt state =
      some state := by
  cases remaining with
  | zero =>
      rfl
  | succ remaining =>
      simp [passes, attemptStep, switchNode, later, noBody]

/-- The response the loop keeps after an attempt with this outcome. -/
def keptResponse
    (upstreams : Upstreams World Body Resp)
    (method : String)
    (attempt : Nat)
    (pool : UpstreamPool) :
    Except ForwardError Resp → Option Resp
  | .ok response =>
      if attempt + 1 < maxAttempts pool &&
          methodAllowsRetry method pool &&
          pool.nextUpstreamFlags.matchesStatus
            (upstreams.status response) then
        none
      else
        some response
  | .error _ =>
      none

/-- What holds after an attempt, whatever its outcome. -/
structure AfterAttempt
    (upstreams : Upstreams World Body Resp)
    (method : String)
    (attempt : Nat)
    (before : State World Body Resp)
    (result : Except ForwardError Resp × World)
    (after : State World Body Resp) :
    Prop where
  bodyTaken : after.bodyForRetry = none
  counted : after.attempts = before.attempts ++ [result.1]
  world : after.world = result.2
  respOpt :
    before.respOpt = none →
      after.respOpt =
        keptResponse upstreams method attempt before.pool result.1

/-- An attempt takes the body, is counted, and keeps a response or not. -/
theorem attemptForward_cases
    (upstreams : Upstreams World Body Resp)
    (method : String)
    (attempt : Nat)
    (node : NodeState)
    (state : State World Body Resp) :
    ∃ after,
      (attemptForward upstreams method attempt node state = .next after ∨
        attemptForward upstreams method attempt node state =
          .stop after) ∧
        AfterAttempt upstreams method attempt state
          (upstreams.forward attempt node
            (state.bodyForRetry.getD default) state.world)
          after := by
  unfold attemptForward
  generalize
    upstreams.forward attempt node
      (state.bodyForRetry.getD default) state.world = result
  obtain ⟨outcome, world⟩ := result
  cases outcome with
  | ok response =>
      dsimp only
      split
      · rename_i retried
        refine ⟨_, .inl rfl, rfl, rfl, rfl, fun noResponse => ?_⟩
        rw [keptResponse, if_pos retried]
        exact noResponse
      · rename_i kept
        refine ⟨_, .inr rfl, rfl, rfl, rfl, fun _ => ?_⟩
        rw [keptResponse, if_neg kept]
  | error error =>
      dsimp only
      split
      · exact ⟨_, .inl rfl, rfl, rfl, rfl, id⟩
      · exact ⟨_, .inr rfl, rfl, rfl, rfl, id⟩

/-- The node a request enters, as the first attempt sees it. -/
def enteredNode
    (node : Nat)
    (pool : UpstreamPool)
    (picked : node < pool.nodes.length) :
    NodeState :=
  { pool.nodes[node] with
    activeConnections := pool.nodes[node].activeConnections + 1 }

theorem enter_getElem?
    (node : Nat)
    (pool : UpstreamPool)
    (picked : node < pool.nodes.length) :
    (pool.enter node).nodes[node]? =
      some (enteredNode node pool picked) := by
  simp [UpstreamPool.enter, UpstreamPool.modifyNode, enteredNode,
    picked]

/-- The loop makes at least one attempt. -/
theorem exists_maxAttempts (pool : UpstreamPool) :
    ∃ further, maxAttempts pool = further + 1 := by
  unfold maxAttempts
  split
  · exact ⟨0, rfl⟩
  · exact ⟨pool.retry, Nat.add_comm 1 pool.retry⟩

/--
The loop makes exactly one attempt, on the node that was picked, with the whole
body; and the client gets that attempt's response or an error page.
-/
theorem retryLoop_single
    (upstreams : Upstreams World Body Resp)
    (method clientIp : String)
    (body : Body)
    (node : Nat)
    (pool : UpstreamPool)
    (world : World)
    (picked : node < pool.nodes.length) :
    ∃ ended,
      retryLoop upstreams method clientIp body node pool world =
          some ended ∧
        ended.attempts =
          [(upstreams.forward 0 (enteredNode node pool picked)
            body world).1] ∧
        ended.world =
          (upstreams.forward 0 (enteredNode node pool picked)
            body world).2 ∧
        ended.respOpt =
          keptResponse upstreams method 0 (pool.enter node)
            (upstreams.forward 0 (enteredNode node pool picked)
              body world).1 := by
  obtain ⟨further, isFurther⟩ := exists_maxAttempts (pool.enter node)
  let start : State World Body Resp :=
    { world
      pool := pool.enter node
      currentNode := node
      bodyForRetry := some body
      lastErr := ""
      respOpt := none
      attempts := [] }
  obtain ⟨after, flow, facts⟩ :=
    attemptForward_cases upstreams method 0
      (enteredNode node pool picked) start
  have firstPass :
      attemptStep upstreams method clientIp 0 start =
        attemptForward upstreams method 0
          (enteredNode node pool picked) start := by
    simp [attemptStep, start, enter_getElem? node pool picked]
  have ends :
      passes upstreams method clientIp (maxAttempts (pool.enter node)) 0
          start =
        some after := by
    rw [isFurther, passes, firstPass]
    rcases flow with goesOn | stops
    · rw [goesOn]
      exact passes_of_body_none upstreams method clientIp further
        Nat.one_pos facts.bodyTaken
    · rw [stops]
  refine ⟨{ after with pool := after.pool.leave after.currentNode }, ?_,
    facts.counted, facts.world, facts.respOpt rfl⟩
  exact congrArg
    (Option.map fun ended : State World Body Resp =>
      { ended with pool := ended.pool.leave ended.currentNode })
    ends

end Loop

/-! ## The retry law -/

section Law

variable {Body Resp : Type}

/--
Upstreams whose attempts have the given outcomes and durations in seconds; the
world is the clock.
-/
def scripted
    (Body : Type)
    (status : Resp → Nat)
    (outcomes : Nat → Except ForwardError Resp)
    (durations : Nat → Nat) :
    Upstreams Nat Body Resp where
  now := id
  sleep := (· + ·)
  forward attempt _ _ clock :=
    (outcomes attempt, clock + durations attempt)
  status := status

/--
Whether the policy asks to try again after this outcome.  For an idempotent
method only the outcome counts.
-/
def retryable
    (status : Resp → Nat)
    (method : String)
    (pool : UpstreamPool)
    (outcome : Except ForwardError Resp) :
    Bool :=
  methodAllowsRetry method pool &&
    match outcome with
    | .ok response =>
        pool.nextUpstreamFlags.matchesStatus (status response)
    | .error error =>
        shouldRetryError error pool.nextUpstreamFlags

/-- The `position`-th outcome, counted from 1, is the first not to retry. -/
structure IsFirstFinal
    (status : Resp → Nat)
    (method : String)
    (pool : UpstreamPool)
    (outcomes : Nat → Except ForwardError Resp)
    (position : Nat) :
    Prop where
  positive : 0 < position
  final : retryable status method pool (outcomes (position - 1)) = false
  earlier :
    ∀ index,
      index + 1 < position →
        retryable status method pool (outcomes index) = true

/-- What the client is to get after this outcome of the last attempt. -/
def dueResponse :
    Except ForwardError Resp → HandlerResponse Resp
  | .ok response =>
      .upstream response
  | .error _ =>
      .proxyError 502

/--
The law: the attempts go on up to the first final outcome or to the limit of
`1 + retry` attempts, and the client gets what the last one brought.
-/
structure RetryLaw
    (status : Resp → Nat)
    (method : String)
    (pool : UpstreamPool)
    (outcomes : Nat → Except ForwardError Resp)
    (ended : State Nat Body Resp) :
    Prop where
  attempts :
    ∀ position,
      IsFirstFinal status method pool outcomes position →
        ended.attempts.length = min position (pool.retry + 1)
  exhausted :
    (∀ index,
      retryable status method pool (outcomes index) = true) →
        ended.attempts.length = pool.retry + 1
  response :
    response ended = dueResponse (outcomes (ended.attempts.length - 1))

variable
  {status : Resp → Nat}
  {method : String}
  {pool : UpstreamPool}
  {outcomes : Nat → Except ForwardError Resp}

/-- Some outcome is the first final one, or all ask to try again. -/
theorem exists_isFirstFinal
    (status : Resp → Nat)
    (method : String)
    (pool : UpstreamPool)
    (outcomes : Nat → Except ForwardError Resp) :
    (∃ position, IsFirstFinal status method pool outcomes position) ∨
      ∀ index, retryable status method pool (outcomes index) = true := by
  by_cases someFinal :
      ∃ index, retryable status method pool (outcomes index) = false
  · left
    refine ⟨Nat.find someFinal + 1, Nat.succ_pos _,
      Nat.find_spec someFinal, ?_⟩
    intro index below
    have notYet :=
      Nat.find_min someFinal (Nat.lt_of_succ_lt_succ below)
    simpa using notYet
  · right
    intro index
    by_contra isFinal
    exact someFinal ⟨index, by simpa using isFinal⟩

/-- A first final outcome that comes after a retryable one is a later one. -/
theorem IsFirstFinal.one_lt
    {position : Nat}
    (firstFinal :
      IsFirstFinal status method pool outcomes position)
    (retried :
      retryable status method pool (outcomes 0) = true) :
    1 < position := by
  rcases Nat.lt_or_ge 1 position with later | first
  · exact later
  · have isFirst : position = 1 :=
      Nat.le_antisymm first firstFinal.positive
    have final := firstFinal.final
    rw [isFirst, Nat.sub_self, retried] at final
    cases final

/-- A first outcome that is final is the first final one. -/
theorem IsFirstFinal.eq_one
    {position : Nat}
    (firstFinal :
      IsFirstFinal status method pool outcomes position)
    (final :
      retryable status method pool (outcomes 0) = false) :
    position = 1 := by
  rcases Nat.lt_or_ge 1 position with later | first
  · have retried := firstFinal.earlier 0 later
    rw [final] at retried
    cases retried
  · exact Nat.le_antisymm first firstFinal.positive

/-- One attempt obeys the law iff no retry is allowed or none is asked for. -/
theorem retryLaw_single_iff
    {ended : State Nat Body Resp}
    (single : ended.attempts = [outcomes 0])
    (kept :
      pool.retry = 0 ∨
          retryable status method pool (outcomes 0) = false →
        response ended = dueResponse (outcomes 0)) :
    RetryLaw status method pool outcomes ended ↔
      pool.retry = 0 ∨
        retryable status method pool (outcomes 0) = false := by
  have one : ended.attempts.length = 1 := by
    rw [single]
    rfl
  constructor
  · intro law
    by_contra condition
    obtain ⟨someRetry, notFinal⟩ := not_or.mp condition
    have retried :
        retryable status method pool (outcomes 0) = true := by
      simpa using notFinal
    have positive := Nat.pos_of_ne_zero someRetry
    rcases exists_isFirstFinal status method pool outcomes with
        ⟨position, firstFinal⟩ | always
    · have count := law.attempts position firstFinal
      have later := firstFinal.one_lt retried
      omega
    · have count := law.exhausted always
      omega
  · intro condition
    refine ⟨?_, ?_, ?_⟩
    · intro position firstFinal
      rcases condition with noRetry | final
      · have positive := firstFinal.positive
        omega
      · rw [one, firstFinal.eq_one final]
        exact (Nat.min_eq_left (Nat.le_add_left 1 pool.retry)).symm
    · intro always
      rcases condition with noRetry | final
      · rw [one, noRetry]
      · rw [always 0] at final
        cases final
    · rw [one]
      exact kept condition

/-- When the law allows one attempt only, its response is kept. -/
theorem keptResponse_of_final
    (upstreams : Upstreams Nat Body Resp)
    (pool : UpstreamPool)
    (method : String)
    (outcome : Except ForwardError Resp)
    (condition :
      pool.retry = 0 ∨
        retryable upstreams.status method pool outcome =
          false) :
    keptResponse upstreams method 0 pool outcome =
      outcome.toOption := by
  cases outcome with
  | error error =>
      rfl
  | ok response =>
      have notRetried :
          ¬ (0 + 1 < maxAttempts pool &&
              methodAllowsRetry method pool &&
              pool.nextUpstreamFlags.matchesStatus
                (upstreams.status response)) = true := by
        rcases condition with noRetry | final
        · simp [maxAttempts, noRetry]
        · have notAsked :
              (methodAllowsRetry method pool &&
                  pool.nextUpstreamFlags.matchesStatus
                    (upstreams.status response)) =
                false :=
            final
          rw [Bool.and_assoc, notAsked, Bool.and_false]
          exact Bool.false_ne_true
      rw [keptResponse, if_neg notRetried]
      rfl

/--
For every method, body and outcome sequence the loop obeys the retry law exactly
when retries are not configured or the first attempt brought a final outcome.
-/
theorem retryLaw_iff
    [Inhabited Body]
    (status : Resp → Nat)
    (outcomes : Nat → Except ForwardError Resp)
    (durations : Nat → Nat)
    (method clientIp : String)
    (body : Body)
    (node : Nat)
    (pool : UpstreamPool)
    (clock : Nat)
    (picked : node < pool.nodes.length) :
    (∃ ended,
      retryLoop (scripted Body status outcomes durations)
          method clientIp body node pool clock =
          some ended ∧
        RetryLaw status method pool outcomes ended) ↔
      pool.retry = 0 ∨
        retryable status method pool (outcomes 0) = false := by
  obtain ⟨ended, runs, single, _, kept⟩ :=
    retryLoop_single (scripted Body status outcomes durations)
      method clientIp body node pool clock picked
  have law :
      RetryLaw status method pool outcomes ended ↔
        pool.retry = 0 ∨
          retryable status method pool (outcomes 0) =
            false := by
    apply retryLaw_single_iff single
    intro condition
    have isOutcome :
        ended.respOpt = (outcomes 0).toOption :=
      kept.trans
        (keptResponse_of_final (scripted Body status outcomes durations)
          (pool.enter node) method (outcomes 0) condition)
    rw [response, isOutcome]
    cases outcomes 0 <;> rfl
  rw [← law]
  constructor
  · rintro ⟨other, otherRuns, obeys⟩
    have same : other = ended := by
      simpa [runs] using otherRuns.symm
    rw [← same]
    exact obeys
  · intro obeys
    exact ⟨ended, runs, obeys⟩

end Law

/-- One plain node and one retry, under the default `error timeout` flags. -/
def oneRetryPool : UpstreamPool :=
  { UpstreamPool.samplePool [UpstreamPool.sampleNode none] 0 with
    retry := 1 }

/-- The first attempt is refused; any later one would bring status 200. -/
def refusedThenOk : Nat → Except ForwardError Nat
  | 0 =>
      .error (.proxy (.connRefused "127.0.0.1:8080"))
  | _ =>
      .ok 200

/-- With a final first outcome the law holds. -/
theorem retryLaw_ok_first :
    ∃ ended,
      retryLoop (scripted Unit id (fun _ => .ok 200) fun _ => 0)
          "GET" "10.0.0.1" () 0 oneRetryPool 0 =
          some ended ∧
        RetryLaw id "GET" oneRetryPool (fun _ => .ok 200) ended :=
  (retryLaw_iff id (fun _ => .ok 200) (fun _ => 0) "GET" "10.0.0.1" () 0
    oneRetryPool 0 (by decide)).mpr (.inr (by decide))

/--
A refused `GET` that may be tried twice is tried once, and the client gets an
error page although the second attempt would have succeeded.
-/
theorem retryLaw_fails_on_refused :
    isIdempotent "GET" = true ∧
      IsFirstFinal id "GET" oneRetryPool refusedThenOk 2 ∧
      ∃ ended,
        retryLoop (scripted Unit id refusedThenOk fun _ => 0)
            "GET" "10.0.0.1" () 0 oneRetryPool 0 =
            some ended ∧
          ended.attempts.length = 1 ∧
          response ended = .proxyError 502 ∧
          ¬ RetryLaw id "GET" oneRetryPool refusedThenOk ended := by
  have secondIsFinal :
      IsFirstFinal id "GET" oneRetryPool refusedThenOk 2 := by
    refine ⟨by decide, by decide, ?_⟩
    intro index first
    obtain rfl : index = 0 := by omega
    decide
  refine ⟨by decide, secondIsFinal, _, rfl, rfl, rfl, ?_⟩
  intro law
  have count := law.attempts 2 secondIsFinal
  exact absurd count (by decide)

end RetryLoop

end Sweety
