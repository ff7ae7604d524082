import Sweety.RateLevel

namespace Sweety.RateLimit

open ConfigModel ProxyProtocol RefillBudget StepRun

/-!
# The rate limit bound

For every key, a run of the limiter is a run of the machine of its bucket, so
the budget of the bucket bounds the requests that the limiter allows in a
window.  The cleanup does not look at the tokens of a bucket: one that it drops
before it is full comes back full, and the bound holds as long as that does not
happen.  For the idle seconds of a cleanup this means that the rule fills an
empty bucket in that time.
-/

variable
  {ipv6 : Ipv6Text}
  {limiter : RateLimiter}
  {key : BucketKey}

/-! ## A run, seen from one key -/

/-- What a call does to the bucket of a key, if it does something. -/
def Event.onKey
    (ipv6 : Ipv6Text)
    (limiter : RateLimiter)
    (key : BucketKey) :
    Event → Option BucketEvent
  | .check request created now =>
      if limiter.keyOf ipv6 request = some key then
        some (.acquire created now)
      else
        none
  | .cleanupExpired idleSecs now =>
      some (.expire idleSecs (now key))

/-- What a run does to the bucket of a key. -/
def keyEvents
    (ipv6 : Ipv6Text)
    (limiter : RateLimiter)
    (key : BucketKey)
    (events : List Event) :
    List BucketEvent :=
  events.filterMap (Event.onKey ipv6 limiter key)

/-- Whether a call is a check of a key that is allowed within a window. -/
def allowsKey
    (ipv6 : Ipv6Text)
    (key : BucketKey)
    (first last : ℚ)
    (limiter : RateLimiter) :
    Event → Bool
  | .check request created now =>
      decide
        (limiter.keyOf ipv6 request = some key ∧
          first ≤ now ∧ now ≤ last ∧
          (limiter.check ipv6 request created now).1 = .allow)
  | .cleanupExpired _ _ =>
      false

/-- How many checks of a key a run allows within a window. -/
def allowedWithin
    (ipv6 : Ipv6Text)
    (key : BucketKey)
    (first last : ℚ) :
    RateLimiter → List Event → Nat
  | _, [] =>
      0
  | limiter, event :: rest =>
      (if allowsKey ipv6 key first last limiter event then 1 else 0) +
        allowedWithin ipv6 key first last (limiter.after ipv6 event) rest

@[simp]
theorem keyEvents_after
    (event : Event)
    (events : List Event) :
    keyEvents ipv6 (limiter.after ipv6 event) key events =
      keyEvents ipv6 limiter key events := by
  unfold keyEvents
  apply congrArg (fun onKey => events.filterMap onKey)
  funext other
  cases other with
  | check request created now =>
      simp only [Event.onKey, RateLimiter.keyOf_after]
  | cleanupExpired idleSecs now =>
      rfl

/-- One call, seen from the bucket of one key. -/
theorem bucket?_after (event : Event) :
    (limiter.after ipv6 event).bucket? key =
      (event.onKey ipv6 limiter key).elim (limiter.bucket? key)
        (bucketStep limiter.rule (limiter.bucket? key)) := by
  cases event with
  | check request created now =>
      rw [RateLimiter.after, RateLimiter.bucket?_check, Event.onKey]
      by_cases ofKey : limiter.keyOf ipv6 request = some key
      · rw [if_pos ofKey, if_pos ofKey]
        rfl
      · rw [if_neg ofKey, if_neg ofKey]
        rfl
  | cleanupExpired idleSecs now =>
      exact RateLimiter.bucket?_cleanupExpired idleSecs now key

/-- The machine of the bucket allows what the limiter allows. -/
theorem allowsKey_eq
    (first last : ℚ)
    (event : Event) :
    allowsKey ipv6 key first last limiter event =
      (event.onKey ipv6 limiter key).elim false fun bucketEvent =>
        decide
          (first ≤ bucketEvent.moment ∧ bucketEvent.moment ≤ last ∧
            bucketAllows limiter.rule (limiter.bucket? key)
              bucketEvent) := by
  cases event with
  | check request created now =>
      by_cases ofKey : limiter.keyOf ipv6 request = some key
      · simp only [allowsKey, Event.onKey, ofKey, true_and, if_true,
          Option.elim, BucketEvent.moment, bucketAllows, decide_eq_true_eq,
          RateLimiter.check_result]
      · simp [allowsKey, Event.onKey, ofKey]
  | cleanupExpired idleSecs now =>
      simp [allowsKey, Event.onKey, bucketAllows]

/-- A run of the limiter runs the machine of every bucket. -/
theorem bucket?_afterAll
    (key : BucketKey)
    (events : List Event) :
    (limiter.afterAll ipv6 events).bucket? key =
      (bucketMachine limiter.rule).runFrom (limiter.bucket? key)
        (keyEvents ipv6 limiter key events) := by
  induction events generalizing limiter with
  | nil =>
      rfl
  | cons event rest inductionHypothesis =>
      rw [RateLimiter.afterAll, List.foldl_cons]
      refine inductionHypothesis.trans ?_
      rw [keyEvents_after, RateLimiter.rule_after, bucket?_after, keyEvents,
        keyEvents, List.filterMap_cons]
      cases event.onKey ipv6 limiter key with
      | none =>
          rfl
      | some bucketEvent =>
          rfl

/-- What the limiter allows a key in a window, its bucket spends there. -/
theorem allowedWithin_eq
    (key : BucketKey)
    (first last : ℚ)
    (events : List Event) :
    allowedWithin ipv6 key first last limiter events =
      (bucketMachine limiter.rule).spentWithin first last
        (limiter.bucket? key) (keyEvents ipv6 limiter key events) := by
  induction events generalizing limiter with
  | nil =>
      rfl
  | cons event rest inductionHypothesis =>
      rw [allowedWithin, inductionHypothesis, keyEvents_after,
        RateLimiter.rule_after, bucket?_after, allowsKey_eq, keyEvents,
        keyEvents, List.filterMap_cons]
      cases event.onKey ipv6 limiter key with
      | none =>
          simp
      | some bucketEvent =>
          simp only [Option.elim, Machine.spentWithin, decide_eq_true_eq]
          rfl

/-! ## The bound -/

/-- The moments at which a run reaches the bucket of a key. -/
def readings
    (ipv6 : Ipv6Text)
    (limiter : RateLimiter)
    (key : BucketKey)
    (events : List Event) :
    List ℚ :=
  (keyEvents ipv6 limiter key events).map BucketEvent.moment

/--
A cleanup drops the bucket of a key only if a refill at that moment fills it.
-/
def DropsFull
    (key : BucketKey)
    (limiter : RateLimiter) :
    Event → Prop
  | .check _ _ _ =>
      True
  | .cleanupExpired idleSecs now =>
      ∀ bucket,
        limiter.bucket? key = some bucket →
        bucket.isActive idleSecs (now key) = false →
        capacity limiter.rule ≤
          bucket.tokens + bucket.elapsed (now key) * bucket.rate

/-- Every call is possible at any time. -/
def RateLimiter.call?
    (ipv6 : Ipv6Text)
    (limiter : RateLimiter)
    (event : Event) :
    Option RateLimiter :=
  some (limiter.after ipv6 event)

/-- A run in which every cleanup drops the bucket of a key only when full. -/
def RunDropsFull
    (ipv6 : Ipv6Text)
    (key : BucketKey)
    (limiter : RateLimiter)
    (events : List Event) :
    Prop :=
  Along (RateLimiter.call? ipv6)
    (fun before event _ => DropsFull key before event)
    limiter events

theorem expiresFull_of_runDropsFull
    {events : List Event}
    (dropsFull : RunDropsFull ipv6 key limiter events) :
    Along (bucketMachine limiter.rule).step?
      (fun before event _ => ExpiresFull limiter.rule before event)
      (limiter.bucket? key) (keyEvents ipv6 limiter key events) := by
  induction events generalizing limiter with
  | nil =>
      trivial
  | cons event rest inductionHypothesis =>
      obtain ⟨full, restFull⟩ := (along_cons_of_step rfl).mp dropsFull
      have later := inductionHypothesis restFull
      rw [keyEvents_after, RateLimiter.rule_after, bucket?_after] at later
      rw [keyEvents, List.filterMap_cons]
      cases isEvent : event.onKey ipv6 limiter key with
      | none =>
          rw [isEvent] at later
          exact later
      | some bucketEvent =>
          rw [isEvent] at later
          apply (along_cons_of_step rfl).mpr
          refine ⟨?_, later⟩
          cases event with
          | check request created now =>
              by_cases ofKey : limiter.keyOf ipv6 request = some key
              · rw [Event.onKey, if_pos ofKey] at isEvent
                cases isEvent
                trivial
              · rw [Event.onKey, if_neg ofKey] at isEvent
                cases isEvent
          | cleanupExpired idleSecs now =>
              cases isEvent
              exact full

/-- Every bucket of a limiter fits its rule. -/
def AllFit (limiter : RateLimiter) : Prop :=
  ∀ key, AnyFits limiter.rule (limiter.bucket? key)

theorem allFit_new
    (compile : String → Option (List Char → Bool))
    (rule : RateLimitRule) :
    AllFit (RateLimiter.new compile rule) := by
  intro key bucket isBucket
  rw [RateLimiter.bucket?_new] at isBucket
  cases isBucket

theorem allFit_after
    (allFit : AllFit limiter)
    (event : Event) :
    AllFit (limiter.after ipv6 event) := by
  intro key
  rw [bucket?_after, RateLimiter.rule_after]
  cases event.onKey ipv6 limiter key with
  | none =>
      exact allFit key
  | some bucketEvent =>
      exact anyFits_bucketStep (allFit key) bucketEvent

theorem allFit_afterAll
    (allFit : AllFit limiter)
    (events : List Event) :
    AllFit (limiter.afterAll ipv6 events) := by
  induction events generalizing limiter with
  | nil =>
      exact allFit
  | cons event rest inductionHypothesis =>
      exact inductionHypothesis (allFit_after allFit event)

theorem rule_afterAll (events : List Event) :
    (limiter.afterAll ipv6 events).rule = limiter.rule := by
  induction events generalizing limiter with
  | nil =>
      rfl
  | cons event rest inductionHypothesis =>
      exact inductionHypothesis.trans (limiter.rule_after ipv6 event)

/-- The budget of the bucket bounds what the limiter allows. -/
theorem allowedWithin_le
    {events : List Event}
    {first length : ℚ}
    (unused : limiter.bucket? key = none)
    (inOrder : (readings ipv6 limiter key events).Pairwise (· ≤ ·))
    (dropsFull : RunDropsFull ipv6 key limiter events)
    (isLength : 0 ≤ length) :
    (allowedWithin ipv6 key first (first + length) limiter events : ℚ) ≤
      capacity limiter.rule + tokenRate limiter.rule * length := by
  obtain ⟨start, ordered⟩ :=
    (bucketMachine limiter.rule).exists_ordered inOrder
  have settled : Settled limiter.rule (limiter.bucket? key) start := by
    rw [unused]
    exact settled_none limiter.rule start
  have isWindow : first ≤ first + length :=
    le_add_of_nonneg_right isLength
  have bound :=
    (bucketBudget limiter.rule).spentWithin_le settled ordered
      (expiresFull_of_runDropsFull dropsFull) isWindow
  rw [add_sub_cancel_left] at bound
  rw [allowedWithin_eq]
  exact bound

/--
The tokens of every bucket stay between zero and the capacity.  In a run in
which the cleanup drops the bucket of a key only when it is full, no window
allows the key more checks than the capacity and what the rate adds.
-/
theorem rate_limit_bounds
    (ipv6 : Ipv6Text)
    (compile : String → Option (List Char → Bool))
    (rule : RateLimitRule)
    (key : BucketKey)
    (events : List Event) :
    (∀ bucket,
      ((RateLimiter.new compile rule).afterAll ipv6 events).bucket? key =
        some bucket →
      0 ≤ bucket.tokens ∧
        bucket.tokens ≤ capacityOf rule.rate rule.burst) ∧
      ((readings ipv6 (.new compile rule) key events).Pairwise (· ≤ ·) →
        RunDropsFull ipv6 key (.new compile rule) events →
        ∀ first length,
          0 ≤ length →
          (allowedWithin ipv6 key first (first + length)
              (.new compile rule) events : ℚ) ≤
            capacityOf rule.rate rule.burst +
              rule.rate.toNat * length) := by
  constructor
  · intro bucket isBucket
    have fits :=
      allFit_afterAll (allFit_new compile rule) events key bucket isBucket
    rw [rule_afterAll] at fits
    exact ⟨fits.nonneg, fits.le_capacity⟩
  · intro inOrder dropsFull first length isLength
    exact allowedWithin_le (RateLimiter.bucket?_new compile rule key) inOrder
      dropsFull isLength

/-! ## How long a cleanup has to wait -/

/-- The cleanups of a run drop what was idle for some seconds. -/
def CleansAfter
    (idleSecs : U64) :
    Event → Prop
  | .check _ _ _ =>
      True
  | .cleanupExpired secs _ =>
      secs = idleSecs

/-- A cleanup that waits for as long as a refill takes drops full buckets. -/
theorem runDropsFull_of_cleansAfter
    {idleSecs : U64}
    {events : List Event}
    (allFit : AllFit limiter)
    (fills :
      capacity limiter.rule ≤ tokenRate limiter.rule * idleSecs.toNat)
    (cleans : ∀ event ∈ events, CleansAfter idleSecs event) :
    RunDropsFull ipv6 key limiter events := by
  induction events generalizing limiter with
  | nil =>
      trivial
  | cons event rest inductionHypothesis =>
      apply (along_cons_of_step rfl).mpr
      constructor
      · cases event with
        | check request created now =>
            trivial
        | cleanupExpired secs now =>
            have isIdle : secs = idleSecs := cleans _ List.mem_cons_self
            subst isIdle
            intro bucket isBucket notActive
            have fits := allFit key bucket isBucket
            have waited :
                (secs.toNat : ℚ) ≤ bucket.elapsed (now key) :=
              le_of_not_gt (of_decide_eq_false notActive)
            have added :
                tokenRate limiter.rule * secs.toNat ≤
                  bucket.elapsed (now key) * bucket.rate := by
              rw [fits.rate, mul_comm]
              exact mul_le_mul_of_nonneg_right waited
                (tokenRate_nonneg limiter.rule)
            have notNegative := fits.nonneg
            linarith
      · apply inductionHypothesis (allFit_after allFit event)
        · rw [RateLimiter.rule_after]
          exact fills
        · intro other member
          exact cleans other (List.mem_cons_of_mem event member)

/-- Several checks of one request at one moment. -/
def checks (count : Nat) (request : CheckRequest) (now : ℚ) : List Event :=
  List.replicate count (.check request now now)

theorem keyEvents_checks
    {request : CheckRequest}
    (ofKey : limiter.keyOf ipv6 request = some key)
    (count : Nat)
    (now : ℚ)
    (rest : List Event) :
    keyEvents ipv6 limiter key (checks count request now ++ rest) =
      burst count now ++ keyEvents ipv6 limiter key rest := by
  have isAcquire :
      Event.onKey ipv6 limiter key (.check request now now) =
        some (.acquire now now) :=
    if_pos ofKey
  unfold keyEvents checks burst
  rw [List.filterMap_append, List.filterMap_replicate_of_some isAcquire]

/-- A burst, a cleanup after some seconds, and a second burst. -/
def twoBursts
    (count : Nat)
    (request : CheckRequest)
    (idleSecs : U64) :
    List Event :=
  checks count request 0 ++
    .cleanupExpired idleSecs (fun _ => idleSecs.toNat) ::
      checks count request idleSecs.toNat

theorem keyEvents_twoBursts
    {request : CheckRequest}
    (ofKey : limiter.keyOf ipv6 request = some key)
    (count : Nat)
    (idleSecs : U64) :
    keyEvents ipv6 limiter key (twoBursts count request idleSecs) =
      burst count 0 ++
        .expire idleSecs idleSecs.toNat :: burst count idleSecs.toNat := by
  have second :=
    keyEvents_checks ofKey count (idleSecs.toNat : ℚ) []
  rw [List.append_nil] at second
  rw [twoBursts, keyEvents_checks ofKey]
  apply congrArg (burst count 0 ++ ·)
  refine congrArg (BucketEvent.expire idleSecs idleSecs.toNat :: ·) ?_
  exact second.trans (List.append_nil _)

theorem cleansAfter_twoBursts
    (count : Nat)
    (request : CheckRequest)
    (idleSecs : U64) :
    ∀ event ∈ twoBursts count request idleSecs,
      CleansAfter idleSecs event := by
  intro event member
  obtain isFirst | later := List.mem_append.mp member
  · rw [List.eq_of_mem_replicate isFirst]
    trivial
  · obtain rfl | isSecond := List.mem_cons.mp later
    · rfl
    · rw [List.eq_of_mem_replicate isSecond]
      trivial

theorem readings_twoBursts
    {request : CheckRequest}
    (ofKey : limiter.keyOf ipv6 request = some key)
    (count : Nat)
    (idleSecs : U64) :
    (readings ipv6 limiter key (twoBursts count request idleSecs)).Pairwise
      (· ≤ ·) := by
  have notNegative : (0 : ℚ) ≤ idleSecs.toNat := Nat.cast_nonneg _
  rw [readings, keyEvents_twoBursts ofKey, burst, burst,
    List.map_append, List.map_cons, List.map_replicate,
    List.map_replicate, List.pairwise_append]
  refine ⟨List.pairwise_replicate.mpr (.inr le_rfl),
    List.pairwise_cons.mpr ⟨?_, List.pairwise_replicate.mpr (.inr le_rfl)⟩,
    ?_⟩
  · intro moment member
    rw [List.eq_of_mem_replicate member]
    exact le_rfl
  · intro moment isFirst other isSecond
    rw [List.eq_of_mem_replicate isFirst]
    obtain rfl | later := List.mem_cons.mp isSecond
    · exact notNegative
    · rw [List.eq_of_mem_replicate later]
      exact notNegative

/-- Both bursts are allowed: the cleanup has dropped what the first one left. -/
theorem allowedWithin_twoBursts
    {request : CheckRequest}
    {count : Nat}
    (unused : limiter.bucket? key = none)
    (ofKey : limiter.keyOf ipv6 request = some key)
    (isCapacity : capacity limiter.rule = count)
    (idleSecs : U64) :
    allowedWithin ipv6 key 0 idleSecs.toNat limiter
        (twoBursts count request idleSecs) =
      count + count := by
  have notNegative : (0 : ℚ) ≤ idleSecs.toNat := Nat.cast_nonneg _
  have fullLevel :
      ∀ now : ℚ, (count : ℚ) ≤ level limiter.rule none now :=
    fun now => le_of_eq isCapacity.symm
  obtain ⟨left, settledLeft, _, _, firstSpends⟩ :=
    burst_spends (settled_none limiter.rule 0) (fullLevel 0)
      ⟨le_rfl, notNegative⟩
      (.expire idleSecs idleSecs.toNat :: burst count idleSecs.toNat)
  have dropped :
      bucketStep limiter.rule left (.expire idleSecs idleSecs.toNat) =
        none := by
    cases left with
    | none =>
        rfl
    | some bucket =>
        obtain ⟨_, refilledBefore⟩ := settledLeft bucket rfl
        have waited :
            (idleSecs.toNat : ℚ) ≤ bucket.elapsed idleSecs.toNat := by
          rw [elapsed_of_le (le_trans refilledBefore notNegative)]
          linarith
        apply Option.filter_some_neg
        exact decide_eq_false (not_lt_of_ge waited)
  obtain ⟨_, _, _, _, secondSpends⟩ :=
    burst_spends (settled_none limiter.rule idleSecs.toNat)
      (fullLevel idleSecs.toNat) ⟨notNegative, le_rfl⟩ []
  rw [List.append_nil] at secondSpends
  rw [allowedWithin_eq, keyEvents_twoBursts ofKey, unused, firstSpends]
  apply congrArg (count + ·)
  rw [Machine.spentWithin, if_neg fun within =>
      Bool.false_ne_true within.2.2, Nat.zero_add]
  show
    (bucketMachine limiter.rule).spentWithin 0 idleSecs.toNat
        (bucketStep limiter.rule left (.expire idleSecs idleSecs.toNat))
        (burst count idleSecs.toNat) =
      count
  rw [dropped, secondSpends]
  rfl

/--
The runs whose cleanups wait for some seconds keep the bound, whatever the
clock and the requests, exactly if the rule fills an empty bucket in that time.
-/
theorem bound_iff_refills
    (ipv6 : Ipv6Text)
    (compile : String → Option (List Char → Bool))
    (rule : RateLimitRule)
    (request : CheckRequest)
    (key : BucketKey)
    (ofKey : (RateLimiter.new compile rule).keyOf ipv6 request = some key)
    (idleSecs : U64) :
    (∀ events,
      (∀ event ∈ events, CleansAfter idleSecs event) →
      (readings ipv6 (.new compile rule) key events).Pairwise (· ≤ ·) →
      ∀ first length,
        0 ≤ length →
        (allowedWithin ipv6 key first (first + length)
            (.new compile rule) events : ℚ) ≤
          capacity rule + tokenRate rule * length) ↔
      capacity rule ≤ tokenRate rule * idleSecs.toNat := by
  have unused := RateLimiter.bucket?_new compile rule key
  constructor
  · intro bound
    obtain ⟨count, isCapacity⟩ := exists_capacity rule
    have twice :=
      bound (twoBursts count request idleSecs)
        (cleansAfter_twoBursts count request idleSecs)
        (readings_twoBursts ofKey count idleSecs) 0 idleSecs.toNat
        (Nat.cast_nonneg _)
    rw [zero_add, allowedWithin_twoBursts unused ofKey isCapacity,
      isCapacity, Nat.cast_add] at twice
    rw [isCapacity]
    linarith
  · intro fills events cleans inOrder first length isLength
    exact allowedWithin_le unused inOrder
      (runDropsFull_of_cleansAfter (allFit_new compile rule) fills cleans)
      isLength

/-! ## A slow rule with a long burst -/

/-- One token a second, a hundred at once. -/
def slowRule : RateLimitRule where
  dimension := .ip
  rate := 1
  burst := 100
  nodelay := true
  pathPattern := none
  headerName := none

/-- `::1`. -/
def loopback : Ipv6Addr where
  octets := List.replicate 15 0 ++ [1]
  sixteen := rfl

/-- The text of this address. -/
def loopbackText : Ipv6Text where
  display _ :=
    "::1".toList
  parse text :=
    if text = "::1".toList then
      some loopback
    else
      none

/-- A request from an address. -/
def requestFrom (clientIp : List Char) : CheckRequest where
  clientIp := clientIp
  path := "/".toList
  headers := []
  userAgent := []

/-- The limiter of the slow rule, which has no path pattern. -/
def slowLimiter : RateLimiter :=
  .new (fun _ => none) slowRule

theorem capacity_slowRule :
    capacity slowRule = (100 : Nat) := by
  have hasBurst : slowRule.burst ≠ 0 := by
    decide
  rw [capacity, capacityOf, if_neg hasBurst]
  rfl

theorem tokenRate_slowRule :
    tokenRate slowRule = 1 :=
  Nat.cast_one

theorem rate_limit_bounds_slowRule :
    (allowedWithin loopbackText (.ip (ipToU32 loopbackText "::1".toList))
        0 (0 + 100) slowLimiter
        (twoBursts 100 (requestFrom "::1".toList) 100) : ℚ) ≤
      capacityOf slowRule.rate slowRule.burst +
        slowRule.rate.toNat * 100 := by
  have fills :
      capacity slowRule ≤ tokenRate slowRule * (100 : U64).toNat := by
    rw [capacity_slowRule, tokenRate_slowRule, one_mul]
    exact le_rfl
  exact
    (rate_limit_bounds loopbackText (fun _ => none) slowRule
      (.ip (ipToU32 loopbackText "::1".toList))
      (twoBursts 100 (requestFrom "::1".toList) 100)).2
      (readings_twoBursts rfl 100 100)
      (runDropsFull_of_cleansAfter (allFit_new _ slowRule) fills
        (cleansAfter_twoBursts 100 (requestFrom "::1".toList) 100))
      0 100 (by norm_num)

/-- With a cleanup after a minute, that minute allows 200 checks, not 160. -/
theorem cleanup_refills_early :
    (readings loopbackText slowLimiter
        (.ip (ipToU32 loopbackText "::1".toList))
        (twoBursts 100 (requestFrom "::1".toList) 60)).Pairwise (· ≤ ·) ∧
      capacityOf slowRule.rate slowRule.burst +
          slowRule.rate.toNat * 60 <
        (allowedWithin loopbackText
          (.ip (ipToU32 loopbackText "::1".toList))
          0 (60 : U64).toNat slowLimiter
          (twoBursts 100 (requestFrom "::1".toList) 60) : ℚ) := by
  have allowed :
      allowedWithin loopbackText (.ip (ipToU32 loopbackText "::1".toList))
          0 (60 : U64).toNat slowLimiter
          (twoBursts 100 (requestFrom "::1".toList) 60) =
        100 + 100 :=
    allowedWithin_twoBursts (RateLimiter.bucket?_new _ slowRule _) rfl
      capacity_slowRule 60
  have bound :
      capacityOf slowRule.rate slowRule.burst + slowRule.rate.toNat * 60 =
        (100 : Nat) + 1 * 60 :=
    congr (congrArg _ capacity_slowRule)
      (congrArg (· * (60 : ℚ)) tokenRate_slowRule)
  refine ⟨readings_twoBursts rfl 100 60, ?_⟩
  rw [allowed, bound]
  norm_num

end Sweety.RateLimit
