import Sweety.Noninterference
import Sweety.RateBound

namespace Sweety.RateLimit

open ConfigModel Noninterference ProxyProtocol

/-!
# Isolation of clients

In the IP dimension a client takes its tokens from the bucket of a 32-bit
number.  For IPv4 that is the address, so no two clients share a bucket; for
IPv6, and for a text that is no address, it is a hash that can meet any other
client's number.  Two clients whose numbers differ never notice each other; two
that share one do, unless the rule allows nothing at all.
-/

variable
  {ipv6 : Ipv6Text}
  {limiter first second : RateLimiter}
  {event : Event}

/-! ## What a client sees -/

/-- Whether a call is a check for a client. -/
def Event.isFrom (clientIp : List Char) : Event → Bool
  | .check request _ _ =>
      decide (request.clientIp = clientIp)
  | .cleanupExpired _ _ =>
      false

/-- What a client sees of a call. -/
def answerTo
    (ipv6 : Ipv6Text)
    (clientIp : List Char)
    (limiter : RateLimiter) :
    Event → Option RateLimitResult
  | .check request created now =>
      if request.clientIp = clientIp then
        some (limiter.check ipv6 request created now).1
      else
        none
  | .cleanupExpired _ _ =>
      none

/-- A limiter, as a client sees it. -/
def clientView
    (ipv6 : Ipv6Text)
    (clientIp : List Char) :
    Machine RateLimiter Event RateLimitResult where
  step := RateLimiter.after ipv6
  shows := answerTo ipv6 clientIp

/-- The results of a client in a run. -/
def answers
    (ipv6 : Ipv6Text)
    (clientIp : List Char)
    (limiter : RateLimiter)
    (events : List Event) :
    List RateLimitResult :=
  (clientView ipv6 clientIp).observed limiter events

/-- The results of a client are the same if another one sends nothing. -/
def Isolated
    (ipv6 : Ipv6Text)
    (limiter : RateLimiter)
    (clientIp other : List Char) :
    Prop :=
  ∀ events,
    answers ipv6 clientIp limiter events =
      answers ipv6 clientIp limiter
        (events.filter fun event => !event.isFrom other)

/-- Every client has the bucket of its number. -/
def ByIp (ipv6 : Ipv6Text) (limiter : RateLimiter) : Prop :=
  ∀ request,
    limiter.keyOf ipv6 request =
      some (.ip (ipToU32 ipv6 request.clientIp))

theorem byIp_new
    {rule : RateLimitRule}
    (ipv6 : Ipv6Text)
    (compile : String → Option (List Char → Bool))
    (isIp : rule.dimension = .ip) :
    ByIp ipv6 (.new compile rule) := by
  intro request
  unfold RateLimiter.keyOf RateLimiter.new
  rw [isIp]

theorem ByIp.after
    (byIp : ByIp ipv6 limiter)
    (event : Event) :
    ByIp ipv6 (limiter.after ipv6 event) := by
  intro request
  rw [RateLimiter.keyOf_after]
  exact byIp request

theorem ByIp.afterAll
    (byIp : ByIp ipv6 limiter)
    (events : List Event) :
    ByIp ipv6 (limiter.afterAll ipv6 events) := by
  induction events generalizing limiter with
  | nil =>
      exact byIp
  | cons event rest inductionHypothesis =>
      exact inductionHypothesis (byIp.after event)

/-- Every call answers a client from the bucket of its number. -/
theorem answerTo_eq
    (byIp : ByIp ipv6 limiter)
    (clientIp : List Char)
    (request : CheckRequest)
    (created now : ℚ) :
    answerTo ipv6 clientIp limiter (.check request created now) =
      if request.clientIp = clientIp then
        some
          (resultOf
            (acquire limiter.rule created now
              (limiter.bucket? (.ip (ipToU32 ipv6 clientIp)))).1)
      else
        none := by
  by_cases isClient : request.clientIp = clientIp
  · rw [answerTo, if_pos isClient, if_pos isClient,
      RateLimiter.check_result, byIp request, isClient]
    rfl
  · rw [answerTo, if_neg isClient, if_neg isClient]

/-- The calls of another client show a client nothing. -/
theorem answerTo_other
    {clientIp other : List Char}
    (distinct : clientIp ≠ other)
    (isOther : event.isFrom other = true) :
    answerTo ipv6 clientIp limiter event = none := by
  cases event with
  | check request created now =>
      have isFrom : request.clientIp = other := of_decide_eq_true isOther
      apply if_neg
      rw [isFrom]
      exact distinct.symm
  | cleanupExpired idleSecs now =>
      rfl

/-! ## Clients with numbers of their own -/

/-- Two limiters of one rule agree on every bucket but one. -/
structure AgreeApart
    (ipv6 : Ipv6Text)
    (apart : BucketKey)
    (first second : RateLimiter) :
    Prop where
  rule : first.rule = second.rule
  byIpFirst : ByIp ipv6 first
  byIpSecond : ByIp ipv6 second
  buckets :
    ∀ key,
      key ≠ apart →
      first.bucket? key = second.bucket? key

theorem AgreeApart.skip
    {other : List Char}
    (agree : AgreeApart ipv6 (.ip (ipToU32 ipv6 other)) first second)
    (isOther : event.isFrom other = true) :
    AgreeApart ipv6 (.ip (ipToU32 ipv6 other)) (first.after ipv6 event)
      second := by
  refine ⟨?_, agree.byIpFirst.after event, agree.byIpSecond, ?_⟩
  · rw [RateLimiter.rule_after]
    exact agree.rule
  · intro key notApart
    cases event with
    | cleanupExpired idleSecs now =>
        cases isOther
    | check request created now =>
        have isFrom : request.clientIp = other := of_decide_eq_true isOther
        have otherKey : first.keyOf ipv6 request ≠ some key := by
          rw [agree.byIpFirst request, isFrom]
          exact fun same => notApart (Option.some.inj same).symm
        rw [RateLimiter.after, RateLimiter.bucket?_check, if_neg otherKey]
        exact agree.buckets key notApart

theorem AgreeApart.both
    {apart : BucketKey}
    (agree : AgreeApart ipv6 apart first second)
    (event : Event) :
    AgreeApart ipv6 apart (first.after ipv6 event)
      (second.after ipv6 event) := by
  refine ⟨?_, agree.byIpFirst.after event, agree.byIpSecond.after event, ?_⟩
  · rw [RateLimiter.rule_after, RateLimiter.rule_after]
    exact agree.rule
  · intro key notApart
    have sameEvent :
        event.onKey ipv6 first key = event.onKey ipv6 second key := by
      cases event with
      | check request created now =>
          rw [Event.onKey, Event.onKey, agree.byIpFirst request,
            agree.byIpSecond request]
      | cleanupExpired idleSecs now =>
          rfl
    rw [bucket?_after, bucket?_after, sameEvent, agree.rule,
      agree.buckets key notApart]

theorem unwinding_agreeApart
    {clientIp other : List Char}
    (distinct : clientIp ≠ other)
    (ownNumber : ipToU32 ipv6 clientIp ≠ ipToU32 ipv6 other) :
    (clientView ipv6 clientIp).Unwinding (Event.isFrom other)
      (AgreeApart ipv6 (.ip (ipToU32 ipv6 other))) where
  skip isOther agree := agree.skip isOther
  both {_ _ label} _ agree := agree.both label
  silent := answerTo_other distinct
  same := by
    intro first second event _ agree
    cases event with
    | cleanupExpired idleSecs now =>
        rfl
    | check request created now =>
        have ownBucket :
            BucketKey.ip (ipToU32 ipv6 clientIp) ≠
              .ip (ipToU32 ipv6 other) :=
          fun same => ownNumber (BucketKey.ip.inj same)
        refine (answerTo_eq agree.byIpFirst clientIp request created
          now).trans ?_
        rw [agree.rule, agree.buckets _ ownBucket]
        exact (answerTo_eq agree.byIpSecond clientIp request created
          now).symm

/-- Clients with different numbers are isolated. -/
theorem isolated_of_ownNumber
    {clientIp other : List Char}
    (distinct : clientIp ≠ other)
    (byIp : ByIp ipv6 limiter)
    (ownNumber : ipToU32 ipv6 clientIp ≠ ipToU32 ipv6 other) :
    Isolated ipv6 limiter clientIp other :=
  fun events =>
    (unwinding_agreeApart distinct ownNumber).observed_filter
      ⟨rfl, byIp, byIp, fun _ _ => rfl⟩ events

/-! ## Rules that allow nothing -/

/-- A limiter of a rule without tokens. -/
structure Closed (ipv6 : Ipv6Text) (limiter : RateLimiter) : Prop where
  byIp : ByIp ipv6 limiter
  allFit : AllFit limiter
  noTokens : capacity limiter.rule = 0

theorem Closed.after
    (closed : Closed ipv6 limiter)
    (event : Event) :
    Closed ipv6 (limiter.after ipv6 event) where
  byIp := closed.byIp.after event
  allFit := allFit_after closed.allFit event
  noTokens := by
    rw [RateLimiter.rule_after]
    exact closed.noTokens

/-- Everybody is denied. -/
theorem Closed.answerTo
    (closed : Closed ipv6 limiter)
    (clientIp : List Char)
    (request : CheckRequest)
    (created now : ℚ) :
    answerTo ipv6 clientIp limiter (.check request created now) =
      if request.clientIp = clientIp then some (.deny 1) else none := by
  have anyFits := closed.allFit (.ip (ipToU32 ipv6 clientIp))
  have bounded := (level_mem anyFits now).2
  have noToken :
      ¬1 ≤ level limiter.rule
          (limiter.bucket? (.ip (ipToU32 ipv6 clientIp))) now := by
    rw [closed.noTokens] at bounded
    exact not_le_of_gt (lt_of_le_of_lt bounded zero_lt_one)
  rw [answerTo_eq closed.byIp, result_acquire anyFits, if_neg noToken]

theorem unwinding_closed
    {clientIp other : List Char}
    (distinct : clientIp ≠ other) :
    (clientView ipv6 clientIp).Unwinding (Event.isFrom other)
      (fun first second => Closed ipv6 first ∧ Closed ipv6 second) where
  skip {_ _ label} _ closed := ⟨closed.1.after label, closed.2⟩
  both {_ _ label} _ closed :=
    ⟨closed.1.after label, closed.2.after label⟩
  silent := answerTo_other distinct
  same := by
    intro first second event _ closed
    cases event with
    | cleanupExpired idleSecs now =>
        rfl
    | check request created now =>
        exact (closed.1.answerTo clientIp request created now).trans
          (closed.2.answerTo clientIp request created now).symm

/-! ## Clients that share a number -/

theorem answers_checks
    {clientIp other : List Char}
    (distinct : clientIp ≠ other)
    (count : Nat)
    (rest : List Event)
    (limiter : RateLimiter) :
    answers ipv6 clientIp limiter (checks count (requestFrom other) 0 ++ rest) =
      answers ipv6 clientIp
        (limiter.afterAll ipv6 (checks count (requestFrom other) 0))
        rest := by
  apply (clientView ipv6 clientIp).observed_append_of_silent
  intro state event member
  have isOther : Event.isFrom other (.check (requestFrom other) 0 0) :=
    decide_eq_true rfl
  rw [List.eq_of_mem_replicate member]
  exact answerTo_other distinct isOther

/-- The answer to one check for a client. -/
theorem answers_single
    (byIp : ByIp ipv6 limiter)
    (clientIp : List Char) :
    answers ipv6 clientIp limiter [.check (requestFrom clientIp) 0 0] =
      [resultOf
        (acquire limiter.rule 0 0
          (limiter.bucket? (.ip (ipToU32 ipv6 clientIp)))).1] := by
  have isClient : (requestFrom clientIp).clientIp = clientIp := rfl
  have answer := answerTo_eq byIp clientIp (requestFrom clientIp) 0 0
  rw [if_pos isClient] at answer
  exact congrArg (fun shown => shown.toList ++ []) answer

/-- A client whose bucket another one has emptied is denied. -/
theorem answers_emptied
    {clientIp other : List Char}
    {count : Nat}
    (distinct : clientIp ≠ other)
    (byIp : ByIp ipv6 limiter)
    (sameNumber : ipToU32 ipv6 clientIp = ipToU32 ipv6 other)
    (unused : limiter.bucket? (.ip (ipToU32 ipv6 clientIp)) = none)
    (isCapacity : capacity limiter.rule = count) :
    answers ipv6 clientIp limiter
        (checks count (requestFrom other) 0 ++
          [.check (requestFrom clientIp) 0 0]) =
      [.deny 1] := by
  have ofKey :
      limiter.keyOf ipv6 (requestFrom other) =
        some (.ip (ipToU32 ipv6 clientIp)) := by
    rw [byIp, sameNumber]
    rfl
  have enough : (count : ℚ) ≤ level limiter.rule none 0 :=
    le_of_eq isCapacity.symm
  have within : (0 : ℚ) ≤ 0 ∧ (0 : ℚ) ≤ 0 := ⟨le_rfl, le_rfl⟩
  obtain ⟨left, settledLeft, leftLevel, sameRun, _⟩ :=
    burst_spends (settled_none limiter.rule 0) enough within []
  have isLeft :
      (limiter.afterAll ipv6
          (checks count (requestFrom other) 0)).bucket?
            (.ip (ipToU32 ipv6 clientIp)) =
        left := by
    have events := keyEvents_checks ofKey count 0 []
    rw [List.append_nil] at events
    rw [bucket?_afterAll, events, unused]
    exact sameRun
  have isEmpty : ¬1 ≤ level limiter.rule left 0 := by
    have full : level limiter.rule none 0 = count := isCapacity
    rw [leftLevel, full, sub_self]
    exact not_le_of_gt zero_lt_one
  rw [answers_checks distinct, answers_single (byIp.afterAll _), isLeft,
    rule_afterAll, result_acquire settledLeft.anyFits, if_neg isEmpty]

/-- A client with a full bucket is allowed. -/
theorem answers_unused
    {clientIp : List Char}
    (byIp : ByIp ipv6 limiter)
    (unused : limiter.bucket? (.ip (ipToU32 ipv6 clientIp)) = none)
    (hasToken : 1 ≤ capacity limiter.rule) :
    answers ipv6 clientIp limiter [.check (requestFrom clientIp) 0 0] =
      [.allow] := by
  have allowed := (allowed_iff limiter.rule 0 0 none).mpr hasToken
  rw [answers_single byIp, unused, allowed]

/-! ## Isolation -/

theorem toNat_eq_zero_iff (value : U64) :
    value.toNat = 0 ↔ value = 0 := by
  rw [BitVec.toNat_eq]
  rfl

/-- A rule has no tokens exactly if its rate and its burst are zero. -/
theorem capacity_eq_zero_iff (rule : RateLimitRule) :
    capacity rule = 0 ↔ rule.rate = 0 ∧ rule.burst = 0 := by
  unfold capacity capacityOf
  by_cases noBurst : rule.burst = 0
  · rw [if_pos noBurst, Nat.cast_eq_zero, toNat_eq_zero_iff]
    exact (and_iff_left noBurst).symm
  · rw [if_neg noBurst, Nat.cast_eq_zero, toNat_eq_zero_iff]
    exact iff_of_false noBurst fun both => noBurst both.2

/-- A client that shares its number with another one notices it. -/
theorem not_isolated_of_sameNumber
    {clientIp other : List Char}
    (distinct : clientIp ≠ other)
    (byIp : ByIp ipv6 limiter)
    (sameNumber : ipToU32 ipv6 clientIp = ipToU32 ipv6 other)
    (unused : limiter.bucket? (.ip (ipToU32 ipv6 clientIp)) = none)
    (hasTokens : capacity limiter.rule ≠ 0) :
    ¬Isolated ipv6 limiter clientIp other := by
  intro isolated
  obtain ⟨count, isCapacity⟩ := exists_capacity limiter.rule
  have hasToken : 1 ≤ capacity limiter.rule := by
    rw [isCapacity] at hasTokens ⊢
    exact Nat.one_le_cast.mpr
      (Nat.one_le_iff_ne_zero.mpr (Nat.cast_ne_zero.mp hasTokens))
  have emptied :=
    answers_emptied distinct byIp sameNumber unused isCapacity
  have alone := answers_unused byIp unused hasToken
  have filtered :
      (checks count (requestFrom other) 0 ++
          [Event.check (requestFrom clientIp) 0 0]).filter
          (fun event : Event => !event.isFrom other) =
        [.check (requestFrom clientIp) 0 0] := by
    simp [checks, Event.isFrom, requestFrom, distinct]
  have same :=
    isolated
      (checks count (requestFrom other) 0 ++
        [.check (requestFrom clientIp) 0 0])
  rw [filtered, emptied, alone] at same
  cases same

/--
In the IP dimension two clients are isolated exactly if their numbers differ,
or the rule allows nothing.
-/
theorem clients_isolated_iff
    (ipv6 : Ipv6Text)
    (compile : String → Option (List Char → Bool))
    (rule : RateLimitRule)
    (isIp : rule.dimension = .ip)
    (clientIp other : List Char)
    (distinct : clientIp ≠ other) :
    Isolated ipv6 (.new compile rule) clientIp other ↔
      ipToU32 ipv6 clientIp ≠ ipToU32 ipv6 other ∨
        rule.rate = 0 ∧ rule.burst = 0 := by
  have byIp := byIp_new ipv6 compile isIp
  have unused := RateLimiter.bucket?_new compile rule
  rw [← capacity_eq_zero_iff]
  constructor
  · intro isolated
    by_contra violated
    obtain ⟨sharedNumber, hasTokens⟩ := not_or.mp violated
    exact
      not_isolated_of_sameNumber distinct byIp (not_not.mp sharedNumber)
        (unused _) hasTokens isolated
  · intro apart events
    obtain ownNumber | noTokens := apart
    · exact isolated_of_ownNumber distinct byIp ownNumber events
    · have closed : Closed ipv6 (.new compile rule) :=
        ⟨byIp, allFit_new compile rule, noTokens⟩
      exact (unwinding_closed distinct).observed_filter ⟨closed, closed⟩ events

/-- Two IPv4 clients are isolated. -/
theorem isolated_slowRule :
    Isolated loopbackText slowLimiter "1.1.1.1".toList "2.2.2.2".toList :=
  (clients_isolated_iff loopbackText _ slowRule rfl "1.1.1.1".toList
    "2.2.2.2".toList (by decide)).mpr (.inl (by decide))

/-- `::1` has the number of `105.105.25.4`. -/
theorem loopback_shares_number :
    ¬Isolated loopbackText slowLimiter "105.105.25.4".toList
        "::1".toList := by
  have sameNumber :
      ipToU32 loopbackText "105.105.25.4".toList =
        ipToU32 loopbackText "::1".toList := by
    decide
  have hasTokens : capacity slowRule ≠ 0 := by
    rw [capacity_slowRule]
    decide
  exact
    not_isolated_of_sameNumber (by decide)
      (byIp_new loopbackText _ rfl) sameNumber
      (RateLimiter.bucket?_new _ slowRule _) hasTokens

end Sweety.RateLimit
