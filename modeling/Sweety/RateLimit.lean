import Mathlib.Algebra.Order.Field.Rat
import Mathlib.Algebra.Order.Floor.Ring
import Mathlib.Data.Rat.Floor
import Mathlib.Logic.Function.Basic
import Sweety.ConfigModel
import Sweety.KeyedTable
import Sweety.ProxyProtocol

namespace Sweety.RateLimit

open ConfigModel HttpText KeyedTable ProxyProtocol

/-!
# Rate limiting

Model of `middleware/rate_limit.rs`: the token bucket, the sharded table of the
IP dimension, the table of the other dimensions and the cleanup of idle
buckets.  Token amounts and moments, in seconds, are exact rationals.

Every reading of the clock is an argument: a check reads it once for a bucket
that it creates and once to refill, the cleanup once for each bucket.  The
compiled path pattern is a test on paths.
-/

/-! ## The token bucket -/

/-- `TokenBucket`. -/
structure TokenBucket where
  tokens : ℚ
  lastRefill : ℚ
  rate : ℚ
  capacity : ℚ
  deriving DecidableEq

/-- The capacity that `TokenBucket::new` gives a bucket. -/
def capacityOf (rate burst : U64) : ℚ :=
  if burst = 0 then rate.toNat else burst.toNat

namespace TokenBucket

/-- `TokenBucket::new`. -/
def new (rate burst : U64) (now : ℚ) : TokenBucket where
  tokens := capacityOf rate burst
  lastRefill := now
  rate := rate.toNat
  capacity := capacityOf rate burst

/-- `now.duration_since(last_refill)`, which is never negative. -/
def elapsed (bucket : TokenBucket) (now : ℚ) : ℚ :=
  max (now - bucket.lastRefill) 0

/-- `last_refill.elapsed() < threshold`, the test of the cleanup. -/
def isActive (idleSecs : U64) (now : ℚ) (bucket : TokenBucket) : Bool :=
  decide (bucket.elapsed now < idleSecs.toNat)

/-- `TokenBucket::refill`. -/
def refill (bucket : TokenBucket) (now : ℚ) : TokenBucket :=
  { bucket with
    tokens :=
      min (bucket.tokens + bucket.elapsed now * bucket.rate) bucket.capacity
    lastRefill := now }

/-- The seconds until the next token. -/
def wait (bucket : TokenBucket) : ℚ :=
  if 0 < bucket.rate then
    (1 - bucket.tokens) / bucket.rate
  else
    1

/-- `TokenBucket::try_acquire_nodelay`. -/
def tryAcquireNodelay
    (bucket : TokenBucket)
    (nodelay : Bool)
    (now : ℚ) :
    Except ℚ Unit × TokenBucket :=
  let bucket := bucket.refill now
  if 1 ≤ bucket.tokens then
    (.ok (), { bucket with tokens := bucket.tokens - 1 })
  else if nodelay then
    (.error ⌈bucket.wait⌉, bucket)
  else
    (.error bucket.wait, bucket)

variable
  {bucket : TokenBucket}
  {now : ℚ}

theorem tryAcquireNodelay_enough
    (nodelay : Bool)
    (enough : 1 ≤ (bucket.refill now).tokens) :
    bucket.tryAcquireNodelay nodelay now =
      (.ok (),
        { bucket.refill now with
          tokens := (bucket.refill now).tokens - 1 }) :=
  if_pos enough

theorem tryAcquireNodelay_short
    (nodelay : Bool)
    (short : ¬1 ≤ (bucket.refill now).tokens) :
    bucket.tryAcquireNodelay nodelay now =
      (.error
          (if nodelay then
            ⌈(bucket.refill now).wait⌉
          else
            (bucket.refill now).wait),
        bucket.refill now) := by
  unfold tryAcquireNodelay
  rw [if_neg short]
  cases nodelay with
  | true =>
      rfl
  | false =>
      rfl

end TokenBucket

/-! ## The shards of the IP dimension -/

/-- One step of the hash of `ip_to_u32`. -/
def hashByte (hash : BitVec 32) (byte : UInt8) : BitVec 32 :=
  hash * 16777619 ^^^ BitVec.ofNat 32 byte.toNat

/-- The hash of `ip_to_u32`. -/
def hashBytes (bytes : List UInt8) : BitVec 32 :=
  bytes.foldl hashByte 2166136261

/-- `ip_to_u32`. -/
def ipToU32 (ipv6 : Ipv6Text) (ip : List Char) : BitVec 32 :=
  match ipv6.parseIp? ip with
  | some (.v4 addr) =>
      addr.first.toBitVec ++ addr.second.toBitVec ++
        addr.third.toBitVec ++ addr.fourth.toBitVec
  | some (.v6 addr) =>
      hashBytes addr.octets
  | none =>
      hashBytes (encodeUtf8 ip)

/-- `IpBucketShards`. -/
abbrev IpBucketShards :=
  Fin 256 → Table (BitVec 32) TokenBucket

namespace IpBucketShards

/-- `IpBucketShards::new`. -/
def new : IpBucketShards :=
  fun _ => ∅

/-- `shard_idx`. -/
def shardIdx (ipInt : BitVec 32) : Fin 256 :=
  ⟨(ipInt &&& 0xFF).toNat, by
    have small : (ipInt &&& 0xFF).toNat ≤ (0xFF : BitVec 32).toNat := by
      rw [BitVec.toNat_and]
      exact Nat.and_le_right
    exact Nat.lt_succ_of_le small⟩

/-- `IpBucketShards::check`. -/
def check
    (ipv6 : Ipv6Text)
    (shards : IpBucketShards)
    (ipStr : List Char)
    (rate burst : U64)
    (nodelay : Bool)
    (created now : ℚ) :
    Except ℚ Unit × IpBucketShards :=
  let ipInt := ipToU32 ipv6 ipStr
  let idx := shardIdx ipInt
  let shard := shards idx
  let bucket :=
    (shard.get? ipInt).getD (TokenBucket.new rate burst created)
  let (result, bucket) := bucket.tryAcquireNodelay nodelay now
  (result, Function.update shards idx (shard.insert ipInt bucket))

/-- `IpBucketShards::cleanup`. -/
def cleanup
    (shards : IpBucketShards)
    (idleSecs : U64)
    (now : BitVec 32 → ℚ) :
    IpBucketShards :=
  fun idx =>
    (shards idx).retainEntries fun ipInt =>
      TokenBucket.isActive idleSecs (now ipInt)

end IpBucketShards

/-! ## The limiter of one rule -/

/-- `RateLimitResult`. -/
inductive RateLimitResult where
  | allow
  | deny (retryAfterSecs : Nat)
  deriving Repr, DecidableEq

/-- The answer to a request, from the outcome of its bucket. -/
def resultOf : Except ℚ Unit → RateLimitResult
  | .ok () =>
      .allow
  | .error waitSecs =>
      .deny (max (min ⌈waitSecs⌉.toNat (2 ^ 64 - 1)) 1)

/-- What `check` is asked about. -/
structure CheckRequest where
  clientIp : List Char
  path : List Char
  headers : List (List Char × List Char)
  userAgent : List Char

/-- `RateLimiter`. -/
structure RateLimiter where
  rule : RateLimitRule
  pathRegex : Option (List Char → Bool)
  ipShards : Option IpBucketShards
  buckets : Table (List Char) TokenBucket

/-- The bucket of a request. -/
inductive BucketKey where
  | ip (ipInt : BitVec 32)
  | named (key : List Char)
  deriving DecidableEq

namespace RateLimiter

/-- `RateLimiter::new`. -/
def new
    (compile : String → Option (List Char → Bool))
    (rule : RateLimitRule) :
    RateLimiter where
  rule := rule
  pathRegex := rule.pathPattern.bind compile
  ipShards :=
    match rule.dimension with
    | .ip =>
        some IpBucketShards.new
    | _ =>
        none
  buckets := ∅

variable (limiter : RateLimiter)

/-- Whether the path pattern, where there is one, lets a path pass. -/
def pathMatches (path : List Char) : Bool :=
  match limiter.pathRegex with
  | some regex =>
      regex path
  | none =>
      true

/-- `build_key`. -/
def buildKey (request : CheckRequest) : Option (List Char) :=
  match limiter.rule.dimension with
  | .ip =>
      some request.clientIp
  | .ipPath =>
      if limiter.pathMatches request.path then
        some (request.clientIp ++ ':' :: request.path)
      else
        none
  | .path =>
      if limiter.pathMatches request.path then
        some ("path:".toList ++ request.path)
      else
        none
  | .header =>
      match limiter.rule.headerName with
      | some headerName =>
          (request.headers.find? fun header =>
              eqIgnoreAsciiCase header.1 headerName.toList).map
            fun header =>
              "hdr:".toList ++ headerName.toList ++ ':' :: header.2
      | none =>
          none
  | .userAgent =>
      if request.userAgent = [] then
        none
      else
        some ("ua:".toList ++ request.userAgent)

/-- `RateLimiter::check`. -/
def check
    (ipv6 : Ipv6Text)
    (request : CheckRequest)
    (created now : ℚ) :
    RateLimitResult × RateLimiter :=
  match limiter.ipShards with
  | some shards =>
      let (result, shards) :=
        shards.check ipv6 request.clientIp limiter.rule.rate
          limiter.rule.burst limiter.rule.nodelay created now
      (resultOf result, { limiter with ipShards := some shards })
  | none =>
      match limiter.buildKey request with
      | none =>
          (.allow, limiter)
      | some key =>
          let bucket :=
            (limiter.buckets.get? key).getD
              (TokenBucket.new limiter.rule.rate limiter.rule.burst created)
          let (result, bucket) :=
            bucket.tryAcquireNodelay limiter.rule.nodelay now
          (resultOf result,
            { limiter with buckets := limiter.buckets.insert key bucket })

/-- `cleanup_expired`. -/
def cleanupExpired
    (idleSecs : U64)
    (now : BucketKey → ℚ) :
    RateLimiter :=
  { limiter with
    ipShards :=
      limiter.ipShards.map fun shards =>
        shards.cleanup idleSecs fun ipInt => now (.ip ipInt)
    buckets :=
      limiter.buckets.retainEntries fun key =>
        TokenBucket.isActive idleSecs (now (.named key)) }

/-! ## What a call does to the bucket of one key -/

/-- The bucket that a request takes its token from, if it takes one. -/
def keyOf
    (ipv6 : Ipv6Text)
    (request : CheckRequest) :
    Option BucketKey :=
  match limiter.ipShards with
  | some _ =>
      some (.ip (ipToU32 ipv6 request.clientIp))
  | none =>
      (limiter.buildKey request).map .named

/-- The bucket of a key. -/
def bucket? : BucketKey → Option TokenBucket
  | .ip ipInt =>
      limiter.ipShards.bind fun shards =>
        (shards (IpBucketShards.shardIdx ipInt)).get? ipInt
  | .named key =>
      limiter.buckets.get? key

end RateLimiter

/-- What a check does to the bucket of its key. -/
def acquire
    (rule : RateLimitRule)
    (created now : ℚ)
    (bucket : Option TokenBucket) :
    Except ℚ Unit × TokenBucket :=
  (bucket.getD (TokenBucket.new rule.rate rule.burst created)).tryAcquireNodelay
    rule.nodelay now

namespace RateLimiter

variable
  {limiter : RateLimiter}
  {ipv6 : Ipv6Text}
  {request : CheckRequest}
  {created now : ℚ}

@[simp]
theorem bucket?_new
    (compile : String → Option (List Char → Bool))
    (rule : RateLimitRule)
    (key : BucketKey) :
    (new compile rule).bucket? key = none := by
  cases key with
  | ip ipInt =>
      unfold bucket? new
      cases rule.dimension <;> rfl
  | named key =>
      rfl

/-- The answer comes from the bucket of the key; without a key it is yes. -/
theorem check_result :
    (limiter.check ipv6 request created now).1 =
      (limiter.keyOf ipv6 request).elim .allow fun key =>
        resultOf
          (acquire limiter.rule created now (limiter.bucket? key)).1 := by
  unfold check keyOf
  cases isShards : limiter.ipShards with
  | some shards =>
      simp only [Option.elim, bucket?, isShards, Option.bind_some]
      rfl
  | none =>
      cases limiter.buildKey request with
      | none =>
          rfl
      | some key =>
          rfl

/-- A check writes the bucket of its key and no other. -/
theorem bucket?_check (key : BucketKey) :
    (limiter.check ipv6 request created now).2.bucket? key =
      if limiter.keyOf ipv6 request = some key then
        some (acquire limiter.rule created now (limiter.bucket? key)).2
      else
        limiter.bucket? key := by
  unfold check keyOf
  cases isShards : limiter.ipShards with
  | some shards =>
      cases key with
      | named key =>
          simp [bucket?]
      | ip ipInt =>
          by_cases same : ipToU32 ipv6 request.clientIp = ipInt
          · subst same
            simp only [bucket?, isShards, Option.bind_some, if_pos,
              IpBucketShards.check, Function.update_self, Table.get?_insert]
            rfl
          · have otherKey :
                some (BucketKey.ip (ipToU32 ipv6 request.clientIp)) ≠
                  some (.ip ipInt) := by
              simpa using same
            rw [if_neg otherKey]
            simp only [bucket?, isShards, Option.bind_some,
              IpBucketShards.check]
            by_cases sameShard :
                IpBucketShards.shardIdx ipInt =
                  IpBucketShards.shardIdx (ipToU32 ipv6 request.clientIp)
            · rw [sameShard, Function.update_self, Table.get?_insert,
                if_neg fun equal => same equal.symm]
            · rw [Function.update_of_ne sameShard]
  | none =>
      cases limiter.buildKey request with
      | none =>
          simp
      | some text =>
          cases key with
          | ip ipInt =>
              simp [bucket?, isShards]
          | named key =>
              simp only [bucket?, Option.map_some, Option.some.injEq,
                BucketKey.named.injEq, Table.get?_insert]
              by_cases same : text = key
              · subst same
                rw [if_pos rfl, if_pos rfl]
                rfl
              · rw [if_neg fun equal => same equal.symm, if_neg same]

/-- The cleanup keeps a bucket exactly if it was used recently enough. -/
theorem bucket?_cleanupExpired
    (idleSecs : U64)
    (readings : BucketKey → ℚ)
    (key : BucketKey) :
    (limiter.cleanupExpired idleSecs readings).bucket? key =
      (limiter.bucket? key).filter
        (TokenBucket.isActive idleSecs (readings key)) := by
  cases key with
  | named key =>
      simp [bucket?, cleanupExpired]
  | ip ipInt =>
      cases isShards : limiter.ipShards with
      | none =>
          simp [bucket?, cleanupExpired, isShards]
      | some shards =>
          simp [bucket?, cleanupExpired, isShards, IpBucketShards.cleanup]

@[simp]
theorem rule_check :
    (limiter.check ipv6 request created now).2.rule = limiter.rule := by
  unfold check
  cases limiter.ipShards with
  | some shards =>
      rfl
  | none =>
      cases limiter.buildKey request with
      | none =>
          rfl
      | some key =>
          rfl

/-- The key of a request does not depend on what was asked before. -/
@[simp]
theorem keyOf_check (other : CheckRequest) :
    (limiter.check ipv6 request created now).2.keyOf ipv6 other =
      limiter.keyOf ipv6 other := by
  unfold check
  cases isShards : limiter.ipShards with
  | some shards =>
      simp [keyOf, isShards]
  | none =>
      cases limiter.buildKey request with
      | none =>
          rfl
      | some key =>
          simp only [keyOf, isShards]
          rfl

@[simp]
theorem keyOf_cleanupExpired
    (idleSecs : U64)
    (readings : BucketKey → ℚ)
    (other : CheckRequest) :
    (limiter.cleanupExpired idleSecs readings).keyOf ipv6 other =
      limiter.keyOf ipv6 other := by
  unfold keyOf cleanupExpired
  cases limiter.ipShards with
  | some shards =>
      rfl
  | none =>
      rfl

end RateLimiter

/-! ## Runs -/

/-- A call of the limiter, with the readings of the clock that it makes. -/
inductive Event where
  | check (request : CheckRequest) (created now : ℚ)
  | cleanupExpired (idleSecs : U64) (now : BucketKey → ℚ)

namespace RateLimiter

/-- The limiter after a call. -/
def after
    (ipv6 : Ipv6Text)
    (limiter : RateLimiter) :
    Event → RateLimiter
  | .check request created now =>
      (limiter.check ipv6 request created now).2
  | .cleanupExpired idleSecs now =>
      limiter.cleanupExpired idleSecs now

/-- The limiter after a run of calls. -/
def afterAll
    (ipv6 : Ipv6Text)
    (limiter : RateLimiter)
    (events : List Event) :
    RateLimiter :=
  events.foldl (after ipv6) limiter

@[simp]
theorem rule_after
    (ipv6 : Ipv6Text)
    (limiter : RateLimiter)
    (event : Event) :
    (limiter.after ipv6 event).rule = limiter.rule := by
  cases event with
  | check request created now =>
      exact rule_check
  | cleanupExpired idleSecs now =>
      rfl

@[simp]
theorem keyOf_after
    (ipv6 : Ipv6Text)
    (limiter : RateLimiter)
    (event : Event)
    (request : CheckRequest) :
    (limiter.after ipv6 event).keyOf ipv6 request =
      limiter.keyOf ipv6 request := by
  cases event with
  | check other created now =>
      exact keyOf_check request
  | cleanupExpired idleSecs now =>
      exact keyOf_cleanupExpired idleSecs now request

end RateLimiter

end Sweety.RateLimit
