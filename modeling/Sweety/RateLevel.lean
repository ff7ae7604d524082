import Mathlib.Tactic.Linarith
import Sweety.RateLimit
import Sweety.RefillBudget

namespace Sweety.RateLimit

open ConfigModel ProxyProtocol RefillBudget

/-!
# The level of one bucket

What happens to the bucket of one key is a machine of its own: a check of that
key takes a token, the cleanup may drop the bucket.  Its level is what a refill
would leave in the bucket, a bucket that does not exist being full.  The
machine keeps the budget of its rule as long as the cleanup drops the bucket
only when it is full again.  A run of the limiter is, for every key, a run of
this machine.
-/

/-! ## The machine of one bucket -/

/-- What happens to the bucket of one key. -/
inductive BucketEvent where
  | acquire (created now : ℚ)
  | expire (idleSecs : U64) (now : ℚ)

/-- The moment of an event. -/
def BucketEvent.moment : BucketEvent → ℚ
  | .acquire _ now =>
      now
  | .expire _ now =>
      now

/-- The bucket after an event. -/
def bucketStep
    (rule : RateLimitRule)
    (bucket : Option TokenBucket) :
    BucketEvent → Option TokenBucket
  | .acquire created now =>
      some (acquire rule created now bucket).2
  | .expire idleSecs now =>
      bucket.filter (TokenBucket.isActive idleSecs now)

/-- Whether an event is a check that the bucket allows. -/
def bucketAllows
    (rule : RateLimitRule)
    (bucket : Option TokenBucket) :
    BucketEvent → Bool
  | .acquire created now =>
      decide (resultOf (acquire rule created now bucket).1 = .allow)
  | .expire _ _ =>
      false

/-- The bucket of one key. -/
def bucketMachine (rule : RateLimitRule) :
    Machine (Option TokenBucket) BucketEvent ℚ where
  step := bucketStep rule
  spends := bucketAllows rule
  moment := BucketEvent.moment

variable
  {rule : RateLimitRule}
  {bucket : TokenBucket}
  {maybeBucket : Option TokenBucket}
  {created now earlier later : ℚ}

/-! ## Buckets of a rule -/

/-- The capacity of the buckets of a rule. -/
def capacity (rule : RateLimitRule) : ℚ :=
  capacityOf rule.rate rule.burst

/-- The rate of the buckets of a rule. -/
def tokenRate (rule : RateLimitRule) : ℚ :=
  rule.rate.toNat

/-- The capacity is a whole number of tokens. -/
theorem exists_capacity (rule : RateLimitRule) :
    ∃ burst : Nat, capacity rule = burst := by
  unfold capacity capacityOf
  by_cases noBurst : rule.burst = 0
  · rw [if_pos noBurst]
    exact ⟨rule.rate.toNat, rfl⟩
  · rw [if_neg noBurst]
    exact ⟨rule.burst.toNat, rfl⟩

theorem capacity_nonneg (rule : RateLimitRule) :
    0 ≤ capacity rule := by
  obtain ⟨burst, isBurst⟩ := exists_capacity rule
  rw [isBurst]
  exact Nat.cast_nonneg burst

theorem tokenRate_nonneg (rule : RateLimitRule) :
    0 ≤ tokenRate rule :=
  Nat.cast_nonneg _

/-- A bucket that a rule made, with an amount of tokens that it can hold. -/
structure Fits
    (rule : RateLimitRule)
    (bucket : TokenBucket) :
    Prop where
  nonneg : 0 ≤ bucket.tokens
  le_capacity : bucket.tokens ≤ capacity rule
  rate : bucket.rate = tokenRate rule
  capacity : bucket.capacity = capacity rule

theorem fits_new (rule : RateLimitRule) (now : ℚ) :
    Fits rule (TokenBucket.new rule.rate rule.burst now) where
  nonneg := capacity_nonneg rule
  le_capacity := le_rfl
  rate := rfl
  capacity := rfl

theorem elapsed_nonneg (bucket : TokenBucket) (now : ℚ) :
    0 ≤ bucket.elapsed now :=
  le_max_right _ _

theorem elapsed_of_le (inOrder : bucket.lastRefill ≤ now) :
    bucket.elapsed now = now - bucket.lastRefill :=
  max_eq_left (sub_nonneg.mpr inOrder)

/-- A refill adds tokens, up to the capacity. -/
theorem Fits.refill
    (fits : Fits rule bucket)
    (now : ℚ) :
    Fits rule (bucket.refill now) := by
  have added : 0 ≤ bucket.elapsed now * bucket.rate := by
    rw [fits.rate]
    exact mul_nonneg (elapsed_nonneg bucket now) (tokenRate_nonneg rule)
  constructor
  · apply le_min
    · exact add_nonneg fits.nonneg added
    · rw [fits.capacity]
      exact capacity_nonneg rule
  · exact fits.capacity ▸ min_le_right _ _
  · exact fits.rate
  · exact fits.capacity

/-! ## The level -/

/-- What a refill at a moment leaves in the bucket. -/
def level
    (rule : RateLimitRule)
    (maybeBucket : Option TokenBucket)
    (moment : ℚ) :
    ℚ :=
  maybeBucket.elim (capacity rule) fun bucket =>
    (bucket.refill moment).tokens

/-- The bucket, if there is one, fits and was last refilled by a moment. -/
def Settled
    (rule : RateLimitRule)
    (maybeBucket : Option TokenBucket)
    (moment : ℚ) :
    Prop :=
  ∀ bucket,
    maybeBucket = some bucket →
    Fits rule bucket ∧ bucket.lastRefill ≤ moment

/-- A bucket, if there is one, fits. -/
def AnyFits
    (rule : RateLimitRule)
    (maybeBucket : Option TokenBucket) :
    Prop :=
  ∀ bucket,
    maybeBucket = some bucket →
    Fits rule bucket

theorem Settled.anyFits
    (settled : Settled rule maybeBucket now) :
    AnyFits rule maybeBucket :=
  fun bucket isBucket => (settled bucket isBucket).1

theorem anyFits_some (fits : Fits rule bucket) :
    AnyFits rule (some bucket) := by
  intro other isOther
  obtain rfl := Option.some.inj isOther
  exact fits

theorem settled_none (rule : RateLimitRule) (moment : ℚ) :
    Settled rule none moment := by
  intro bucket isBucket
  cases isBucket

theorem settled_some
    (fits : Fits rule bucket)
    (inOrder : bucket.lastRefill ≤ now) :
    Settled rule (some bucket) now := by
  intro other isOther
  obtain rfl := Option.some.inj isOther
  exact ⟨fits, inOrder⟩

theorem Settled.mono
    (settled : Settled rule maybeBucket earlier)
    (inOrder : earlier ≤ later) :
    Settled rule maybeBucket later := by
  intro bucket isBucket
  obtain ⟨fits, refilled⟩ := settled bucket isBucket
  exact ⟨fits, le_trans refilled inOrder⟩

theorem level_mem
    (anyFits : AnyFits rule maybeBucket)
    (now : ℚ) :
    0 ≤ level rule maybeBucket now ∧
      level rule maybeBucket now ≤ capacity rule := by
  cases maybeBucket with
  | none =>
      exact ⟨capacity_nonneg rule, le_rfl⟩
  | some bucket =>
      have fits := (anyFits bucket rfl).refill now
      exact ⟨fits.nonneg, fits.le_capacity⟩

/-- The level grows at most at the rate of the rule. -/
theorem level_grows
    (settled : Settled rule maybeBucket earlier)
    (inOrder : earlier ≤ later) :
    level rule maybeBucket later ≤
      level rule maybeBucket earlier +
        tokenRate rule * (later - earlier) := by
  have added : 0 ≤ tokenRate rule * (later - earlier) :=
    mul_nonneg (tokenRate_nonneg rule) (sub_nonneg.mpr inOrder)
  cases maybeBucket with
  | none =>
      exact le_add_of_nonneg_right added
  | some bucket =>
      obtain ⟨fits, refilled⟩ := settled bucket rfl
      have elapsedLater := elapsed_of_le (le_trans refilled inOrder)
      have elapsedEarlier := elapsed_of_le refilled
      simp only [level, Option.elim, TokenBucket.refill, fits.rate]
      rw [elapsedLater, elapsedEarlier, ← min_add_add_right]
      apply min_le_min
      · apply le_of_eq
        ring
      · exact le_add_of_nonneg_right added

/-! ## What a check does -/

/-- A check first refills the bucket, or makes a full one. -/
def refilled
    (rule : RateLimitRule)
    (created now : ℚ)
    (maybeBucket : Option TokenBucket) :
    TokenBucket :=
  (maybeBucket.getD (TokenBucket.new rule.rate rule.burst created)).refill now

theorem fits_refilled
    (anyFits : AnyFits rule maybeBucket)
    (created now : ℚ) :
    Fits rule (refilled rule created now maybeBucket) := by
  cases maybeBucket with
  | none =>
      exact (fits_new rule created).refill now
  | some bucket =>
      exact (anyFits bucket rfl).refill now

theorem tokens_refilled
    (rule : RateLimitRule)
    (created now : ℚ)
    (maybeBucket : Option TokenBucket) :
    (refilled rule created now maybeBucket).tokens =
      level rule maybeBucket now := by
  cases maybeBucket with
  | none =>
      apply min_eq_right
      apply le_add_of_nonneg_right
      exact mul_nonneg (elapsed_nonneg _ now) (tokenRate_nonneg rule)
  | some bucket =>
      rfl

/-- A check is allowed exactly if the level is at least one token. -/
theorem allowed_iff
    (rule : RateLimitRule)
    (created now : ℚ)
    (maybeBucket : Option TokenBucket) :
    resultOf (acquire rule created now maybeBucket).1 = .allow ↔
      1 ≤ level rule maybeBucket now := by
  rw [← tokens_refilled rule created, acquire, refilled]
  by_cases enough : 1 ≤ (refilled rule created now maybeBucket).tokens
  · rw [TokenBucket.tryAcquireNodelay_enough rule.nodelay enough]
    exact iff_of_true rfl enough
  · rw [TokenBucket.tryAcquireNodelay_short rule.nodelay enough]
    exact iff_of_false (fun allowed => nomatch allowed) enough

/-- The bucket that a check leaves: refilled, less the token it spent. -/
theorem acquire_bucket
    (rule : RateLimitRule)
    (created now : ℚ)
    (maybeBucket : Option TokenBucket) :
    (acquire rule created now maybeBucket).2 =
      { refilled rule created now maybeBucket with
        tokens :=
          level rule maybeBucket now -
            if 1 ≤ level rule maybeBucket now then 1 else 0 } := by
  rw [← tokens_refilled rule created, acquire]
  by_cases enough : 1 ≤ (refilled rule created now maybeBucket).tokens
  · rw [if_pos enough,
      TokenBucket.tryAcquireNodelay_enough rule.nodelay enough]
    rfl
  · rw [if_neg enough, sub_zero,
      TokenBucket.tryAcquireNodelay_short rule.nodelay enough]
    rfl

theorem lastRefill_acquire
    (rule : RateLimitRule)
    (created now : ℚ)
    (maybeBucket : Option TokenBucket) :
    (acquire rule created now maybeBucket).2.lastRefill = now := by
  rw [acquire_bucket]
  rfl

/-- A check leaves a bucket that fits. -/
theorem acquire_fits
    (anyFits : AnyFits rule maybeBucket)
    (created now : ℚ) :
    Fits rule (acquire rule created now maybeBucket).2 := by
  obtain ⟨notNegative, bounded⟩ := level_mem anyFits now
  have fits := fits_refilled anyFits created now
  rw [acquire_bucket]
  refine ⟨?_, ?_, fits.rate, fits.capacity⟩
  · show
      0 ≤
        level rule maybeBucket now -
          if 1 ≤ level rule maybeBucket now then 1 else 0
    split
    · next enough =>
        exact sub_nonneg.mpr enough
    · rw [sub_zero]
      exact notNegative
  · show
      level rule maybeBucket now -
          (if 1 ≤ level rule maybeBucket now then 1 else 0) ≤
        capacity rule
    split
    · linarith
    · rw [sub_zero]
      exact bounded

/-- The level after a check, at the moment of the check. -/
theorem level_acquire
    (settled : Settled rule maybeBucket now)
    (created : ℚ) :
    level rule (some (acquire rule created now maybeBucket).2) now =
      level rule maybeBucket now -
        if 1 ≤ level rule maybeBucket now then 1 else 0 := by
  have fits := acquire_fits settled.anyFits created now
  have refilledNow := lastRefill_acquire rule created now maybeBucket
  have noTime :
      (acquire rule created now maybeBucket).2.elapsed now = 0 := by
    rw [elapsed_of_le (le_of_eq refilledNow), refilledNow, sub_self]
  have sameTokens :
      (acquire rule created now maybeBucket).2.tokens =
        level rule maybeBucket now -
          if 1 ≤ level rule maybeBucket now then 1 else 0 := by
    rw [acquire_bucket]
  rw [← sameTokens]
  simp only [level, Option.elim, TokenBucket.refill]
  rw [noTime, zero_mul, add_zero, fits.capacity]
  exact min_eq_left fits.le_capacity

/-- The next token is at most a second away. -/
theorem ceil_wait
    (fits : Fits rule bucket)
    (short : ¬1 ≤ bucket.tokens) :
    ⌈bucket.wait⌉ = 1 := by
  have notNegative := fits.nonneg
  have missing : bucket.tokens < 1 := lt_of_not_ge short
  rw [Int.ceil_eq_iff, Int.cast_one, sub_self, TokenBucket.wait]
  by_cases hasRate : 0 < bucket.rate
  · rw [if_pos hasRate]
    have wholeRate : 1 ≤ bucket.rate := by
      rw [fits.rate, tokenRate] at hasRate ⊢
      exact Nat.one_le_cast.mpr (Nat.cast_pos.mp hasRate)
    constructor
    · exact div_pos (sub_pos.mpr missing) hasRate
    · apply (div_le_one hasRate).mpr
      linarith
  · rw [if_neg hasRate]
    exact ⟨zero_lt_one, le_rfl⟩

theorem result_error
    {waitSecs : ℚ}
    (second : ⌈waitSecs⌉ = 1) :
    resultOf (.error waitSecs) = .deny 1 := by
  rw [resultOf, second]
  rfl

/-- The answer follows from the level; whoever is denied waits a second. -/
theorem result_acquire
    (anyFits : AnyFits rule maybeBucket)
    (created now : ℚ) :
    resultOf (acquire rule created now maybeBucket).1 =
      if 1 ≤ level rule maybeBucket now then
        .allow
      else
        .deny 1 := by
  by_cases enough : 1 ≤ level rule maybeBucket now
  · rw [if_pos enough]
    exact (allowed_iff rule created now maybeBucket).mpr enough
  · rw [if_neg enough]
    have fits := fits_refilled anyFits created now
    have short : ¬1 ≤ (refilled rule created now maybeBucket).tokens := by
      rw [tokens_refilled]
      exact enough
    have second := ceil_wait fits short
    rw [acquire, TokenBucket.tryAcquireNodelay_short rule.nodelay short]
    apply result_error
    cases rule.nodelay with
    | true =>
        exact (Int.ceil_intCast _).trans second
    | false =>
        exact second

/-! ## The budget -/

/-- The cleanup drops the bucket only if a refill fills it. -/
def ExpiresFull
    (rule : RateLimitRule)
    (maybeBucket : Option TokenBucket) :
    BucketEvent → Prop
  | .acquire _ _ =>
      True
  | .expire idleSecs now =>
      ∀ bucket,
        maybeBucket = some bucket →
        bucket.isActive idleSecs now = false →
        capacity rule ≤ bucket.tokens + bucket.elapsed now * bucket.rate

theorem anyFits_bucketStep
    (anyFits : AnyFits rule maybeBucket)
    (event : BucketEvent) :
    AnyFits rule (bucketStep rule maybeBucket event) := by
  cases event with
  | acquire created now =>
      exact anyFits_some (acquire_fits anyFits created now)
  | expire idleSecs now =>
      intro bucket isBucket
      exact anyFits bucket (Option.filter_eq_some_iff.mp isBucket).1

theorem settled_bucketStep
    {event : BucketEvent}
    (settled : Settled rule maybeBucket event.moment) :
    Settled rule (bucketStep rule maybeBucket event) event.moment := by
  cases event with
  | acquire created now =>
      exact settled_some (acquire_fits settled.anyFits created now)
        (le_of_eq (lastRefill_acquire rule created now maybeBucket))
  | expire idleSecs now =>
      intro bucket isBucket
      exact settled bucket (Option.filter_eq_some_iff.mp isBucket).1

/-- A bucket that is dropped full loses nothing. -/
theorem level_expire
    {idleSecs : U64}
    (settled : Settled rule maybeBucket now)
    (full : ExpiresFull rule maybeBucket (.expire idleSecs now)) :
    level rule (bucketStep rule maybeBucket (.expire idleSecs now)) now =
      level rule maybeBucket now := by
  cases maybeBucket with
  | none =>
      rfl
  | some bucket =>
      cases active : bucket.isActive idleSecs now with
      | true =>
          rw [bucketStep, Option.filter_some, if_pos active]
      | false =>
          have fits := (settled bucket rfl).1
          have isFull := full bucket rfl active
          rw [bucketStep, Option.filter_some,
            if_neg (Bool.eq_false_iff.mp active)]
          symm
          simp only [level, Option.elim, TokenBucket.refill]
          rw [fits.capacity]
          exact min_eq_right isFull

theorem bucketBudget (rule : RateLimitRule) :
    Budget (bucketMachine rule) (ExpiresFull rule) (Settled rule)
      (level rule) (capacity rule) (tokenRate rule) where
  rate_nonneg := tokenRate_nonneg rule
  level_nonneg settled := (level_mem settled.anyFits _).1
  level_le settled := (level_mem settled.anyFits _).2
  level_grows := level_grows
  settled_later := Settled.mono
  settled_step := settled_bucketStep
  pays := by
    intro maybeBucket event settled full
    cases event with
    | acquire created now =>
        have spent := level_acquire settled created
        have allows :
            (bucketMachine rule).spends maybeBucket
                (.acquire created now) =
              decide (1 ≤ level rule maybeBucket now) :=
          decide_eq_decide.mpr (allowed_iff rule created now maybeBucket)
        rw [allows]
        apply le_of_eq
        simp only [decide_eq_true_eq]
        exact (congrArg (· + _) spent).trans (sub_add_cancel _ _)
    | expire idleSecs now =>
        have spendsNothing :
            (if (bucketMachine rule).spends maybeBucket
                (.expire idleSecs now) then
              1
            else
              0 : ℚ) =
              0 :=
          if_neg Bool.false_ne_true
        rw [spendsNothing, add_zero]
        exact le_of_eq (level_expire settled full)

/-! ## Bursts -/

/-- Several checks at one moment. -/
def burst (count : Nat) (now : ℚ) : List BucketEvent :=
  List.replicate count (.acquire now now)

/--
A burst that the level pays for is allowed and lowers the level by its length.
-/
theorem burst_spends
    {count : Nat}
    {first last : ℚ}
    (settled : Settled rule maybeBucket now)
    (enough : count ≤ level rule maybeBucket now)
    (within : first ≤ now ∧ now ≤ last)
    (rest : List BucketEvent) :
    ∃ after,
      Settled rule after now ∧
        level rule after now = level rule maybeBucket now - count ∧
        (bucketMachine rule).runFrom maybeBucket (burst count now ++ rest) =
          (bucketMachine rule).runFrom after rest ∧
        (bucketMachine rule).spentWithin first last maybeBucket
            (burst count now ++ rest) =
          count + (bucketMachine rule).spentWithin first last after rest := by
  induction count generalizing maybeBucket with
  | zero =>
      refine ⟨maybeBucket, settled, ?_, rfl, ?_⟩
      · rw [Nat.cast_zero, sub_zero]
      · rw [Nat.zero_add]
        rfl
  | succ count inductionHypothesis =>
      have atLeastOne : 1 ≤ level rule maybeBucket now := by
        rw [Nat.cast_succ] at enough
        have notNegative : (0 : ℚ) ≤ count := Nat.cast_nonneg count
        linarith
      have settledNext :
          Settled rule (some (acquire rule now now maybeBucket).2) now :=
        settled_some (acquire_fits settled.anyFits now now)
          (le_of_eq (lastRefill_acquire rule now now maybeBucket))
      have lower := level_acquire settled now
      rw [if_pos atLeastOne] at lower
      have enoughNext :
          count ≤
            level rule (some (acquire rule now now maybeBucket).2) now := by
        rw [Nat.cast_succ] at enough
        rw [lower]
        linarith
      obtain ⟨after, settledAfter, isLevel, sameRun, spends⟩ :=
        inductionHypothesis settledNext enoughNext
      have allowed :
          bucketAllows rule maybeBucket (.acquire now now) = true :=
        decide_eq_true
          ((allowed_iff rule now now maybeBucket).mpr atLeastOne)
      refine ⟨after, settledAfter, ?_, sameRun, ?_⟩
      · rw [isLevel, lower, Nat.cast_succ]
        ring
      · have spendsNow :
            first ≤ now ∧ now ≤ last ∧
              (bucketMachine rule).spends maybeBucket (.acquire now now) :=
          ⟨within.1, within.2, allowed⟩
        refine (congrArg (_ + ·) spends).trans ?_
        show
          (if first ≤ now ∧ now ≤ last ∧
                (bucketMachine rule).spends maybeBucket
                  (.acquire now now) then
              1
            else
              0) +
              (count + _) =
            count + 1 + _
        rw [if_pos spendsNow]
        ring

end Sweety.RateLimit
