import Sweety.ContentCoding

namespace Sweety.EncodingChoice

open HttpText FirstMaximum ContentCoding

/-!
# Which encoding a client gets

The encoding that `pick_best_encoding_sized` should choose, by its
documentation: one of the greatest weight, and of several such one by the order
of the server, or by the size of the response where all weights are equal.
This module says when it chooses that one.
-/

/-- What a choice depends on. -/
structure Negotiation where
  weight : Encoding → Int
  enabled : Encoding → Bool
  sizeHint : Option Nat

/-- The order of the server. -/
def serverOrder : List Encoding :=
  [.br, .zstd, .gzip]

/-- The first of two encodings in an order. -/
def NotAfter (order : List Encoding) (encoding other : Encoding) : Prop :=
  order.idxOf encoding ≤ order.idxOf other

namespace Negotiation

variable (asked : Negotiation)

/-- The encoding is enabled, and the client accepts it. -/
def acceptable (encoding : Encoding) : Bool :=
  asked.enabled encoding && decide (0 < asked.weight encoding)

/-- The client has not expressed unequal weights. -/
def AllEqual : Prop :=
  ∀ encoding other,
    asked.acceptable encoding = true →
    asked.acceptable other = true →
      asked.weight encoding = asked.weight other

/-- An acceptable encoding of the greatest weight. -/
structure Heaviest (encoding : Encoding) : Prop where
  isAcceptable : asked.acceptable encoding = true
  greatest :
    ∀ other,
      asked.acceptable other = true →
        asked.weight other ≤ asked.weight encoding

/-- What is documented of the choice. -/
structure RespectsClient (answer : Option Encoding) : Prop where
  none_iff :
    answer = none ↔ ∀ encoding, asked.acceptable encoding = false
  heaviest :
    ∀ encoding ∈ answer, asked.Heaviest encoding
  byServer :
    ¬asked.AllEqual →
      ∀ encoding ∈ answer, ∀ other,
        asked.Heaviest other → NotAfter serverOrder encoding other
  bySize :
    asked.AllEqual →
      ∀ encoding ∈ answer, ∀ other,
        asked.Heaviest other →
          NotAfter (sizeOrder asked.sizeHint) encoding other

/-- Two acceptable encodings are more than a thousandth apart. -/
def Apart : Prop :=
  ∃ encoding other,
    asked.acceptable encoding = true ∧
      asked.acceptable other = true ∧
        asked.weight other + 1 < asked.weight encoding

/-- The acceptable encoding that is first for this size. -/
structure FirstBySize (encoding : Encoding) : Prop where
  isAcceptable : asked.acceptable encoding = true
  notAfter :
    ∀ other,
      asked.acceptable other = true →
        NotAfter (sizeOrder asked.sizeHint) encoding other

/-- The encoding of the greatest weight that is first for the server. -/
structure FirstHeaviest (encoding : Encoding) : Prop where
  isHeaviest : asked.Heaviest encoding
  notAfter :
    ∀ other, asked.Heaviest other → NotAfter serverOrder encoding other

/--
All weights are equal; or some are more than a thousandth apart and one alone
is the greatest; or they differ by one thousandth at most and the encoding that
is first for the size is the one that is asked for.
-/
def WeighsClearly : Prop :=
  asked.AllEqual ∨
    (asked.Apart ∧
      ∀ encoding other,
        asked.Heaviest encoding → asked.Heaviest other → encoding = other) ∨
    (¬asked.Apart ∧
      ∀ encoding, asked.FirstBySize encoding → asked.FirstHeaviest encoding)

/-- The candidates, in the order of the server. -/
def available : List (Encoding × Int) :=
  (serverOrder.filter asked.acceptable).map fun encoding =>
    (encoding, asked.weight encoding)

end Negotiation

/-! ## Orders of all encodings -/

theorem mem_sizeOrder (sizeHint : Option Nat) (encoding : Encoding) :
    encoding ∈ sizeOrder sizeHint := by
  have inBoth :
      encoding ∈ [Encoding.zstd, .br, .gzip] ∧
        encoding ∈ [Encoding.br, .zstd, .gzip] := by
    cases encoding <;> decide
  have oneOfTwo (preferZstd : Bool) :
      encoding ∈
        if preferZstd then
          [Encoding.zstd, .br, .gzip]
        else
          [Encoding.br, .zstd, .gzip] := by
    cases preferZstd with
    | true =>
        exact inBoth.1
    | false =>
        exact inBoth.2
  exact oneOfTwo _

theorem mem_serverOrder (encoding : Encoding) :
    encoding ∈ serverOrder := by
  cases encoding <;> decide

/-- Of two encodings that are not after each other one is the other. -/
theorem eq_of_notAfter
    {order : List Encoding}
    {encoding other : Encoding}
    (isIn : encoding ∈ order)
    (first : NotAfter order encoding other)
    (second : NotAfter order other encoding) :
    encoding = other := by
  have sameIndex : order.idxOf encoding = order.idxOf other :=
    Nat.le_antisymm first second
  exact (List.idxOf_inj isIn).mp sameIndex

/-- The first acceptable item of an order is not after another such item. -/
theorem notAfter_of_find?
    {order : List Encoding}
    {isAcceptable : Encoding → Bool}
    {encoding other : Encoding}
    (isFound : order.find? isAcceptable = some encoding)
    (otherAcceptable : isAcceptable other = true) :
    NotAfter order encoding other := by
  obtain ⟨acceptable, before, after, rfl, notBefore⟩ :=
    List.find?_eq_some_iff_append.mp isFound
  have otherNotBefore : other ∉ before := by
    intro member
    have notAcceptable := notBefore other member
    rw [otherAcceptable] at notAcceptable
    cases notAcceptable
  have notIn : encoding ∉ before := by
    intro member
    have notAcceptable := notBefore encoding member
    rw [acceptable] at notAcceptable
    cases notAcceptable
  rw [NotAfter, List.idxOf_append_of_notMem notIn,
    List.idxOf_append_of_notMem otherNotBefore, List.idxOf_cons_self]
  exact Nat.add_le_add_left (Nat.zero_le _) _

namespace Negotiation

variable (asked : Negotiation)

theorem mem_available_iff {candidate : Encoding × Int} :
    candidate ∈ asked.available ↔
      asked.acceptable candidate.1 = true ∧
        candidate.2 = asked.weight candidate.1 := by
  obtain ⟨encoding, weight⟩ := candidate
  rw [available, List.mem_map]
  constructor
  · rintro ⟨item, member, isPair⟩
    cases isPair
    exact ⟨(List.mem_filter.mp member).2, rfl⟩
  · rintro ⟨isAcceptable, isWeight⟩
    obtain rfl : weight = asked.weight encoding := isWeight
    exact ⟨encoding,
      List.mem_filter.mpr ⟨mem_serverOrder encoding, isAcceptable⟩, rfl⟩

/-- An acceptable encoding is a candidate. -/
theorem mem_available
    {encoding : Encoding}
    (isAcceptable : asked.acceptable encoding = true) :
    (encoding, asked.weight encoding) ∈ asked.available :=
  asked.mem_available_iff.mpr ⟨isAcceptable, rfl⟩

theorem available_eq_nil_iff :
    asked.available = [] ↔
      ∀ encoding, asked.acceptable encoding = false := by
  constructor
  · intro isNil encoding
    rw [Bool.eq_false_iff]
    intro isAcceptable
    have member := asked.mem_available isAcceptable
    rw [isNil] at member
    cases member
  · intro noneAcceptable
    rw [List.eq_nil_iff_forall_not_mem]
    intro candidate member
    have isAcceptable := (asked.mem_available_iff.mp member).1
    rw [noneAcceptable] at isAcceptable
    cases isAcceptable

/-- The candidates that have a name are the acceptable encodings. -/
theorem any_available (encoding : Encoding) :
    (asked.available.any fun candidate => candidate.1 == encoding) =
      asked.acceptable encoding := by
  rw [Bool.eq_iff_iff, List.any_eq_true]
  constructor
  · rintro ⟨candidate, member, isName⟩
    rw [← beq_iff_eq.mp isName]
    exact (asked.mem_available_iff.mp member).1
  · intro isAcceptable
    exact ⟨(encoding, asked.weight encoding),
      asked.mem_available isAcceptable, beq_self_eq_true _⟩

/-- The weights of the candidates are apart as the code compares them. -/
theorem apart_iff (notNil : asked.available ≠ []) :
    (1 <
        ((asked.available.map Prod.snd).max?.getD 0) -
          ((asked.available.map Prod.snd).min?.getD 0)) ↔
      asked.Apart := by
  have notNilWeights : asked.available.map Prod.snd ≠ [] := by
    intro isNil
    exact notNil (List.map_eq_nil_iff.mp isNil)
  obtain ⟨greatest, isMax⟩ :=
    Option.isSome_iff_exists.mp (List.isSome_max?_of_ne_nil notNilWeights)
  obtain ⟨least, isMin⟩ :=
    Option.isSome_iff_exists.mp (List.isSome_min?_of_ne_nil notNilWeights)
  rw [isMax, isMin, Option.getD_some, Option.getD_some]
  obtain ⟨maxMember, atMost⟩ := List.max?_eq_some_iff.mp isMax
  obtain ⟨minMember, atLeast⟩ := List.min?_eq_some_iff.mp isMin
  constructor
  · intro isApart
    obtain ⟨heavy, heavyMember, rfl⟩ := List.mem_map.mp maxMember
    obtain ⟨light, lightMember, rfl⟩ := List.mem_map.mp minMember
    obtain ⟨heavyAcceptable, heavyWeight⟩ :=
      asked.mem_available_iff.mp heavyMember
    obtain ⟨lightAcceptable, lightWeight⟩ :=
      asked.mem_available_iff.mp lightMember
    refine ⟨heavy.1, light.1, heavyAcceptable, lightAcceptable, ?_⟩
    rw [← heavyWeight, ← lightWeight]
    omega
  · rintro ⟨encoding, other, isAcceptable, otherAcceptable, isApart⟩
    have member
        (coding : Encoding)
        (codingAcceptable : asked.acceptable coding) :
        asked.weight coding ∈ asked.available.map Prod.snd :=
      List.mem_map_of_mem (asked.mem_available codingAcceptable)
    have below := atMost _ (member encoding isAcceptable)
    have above := atLeast _ (member other otherAcceptable)
    omega

/-- `max_by` finds the last encoding of the greatest weight. -/
theorem exists_maxBy (notNil : asked.available ≠ []) :
    ∃ encoding,
      (maxBy asked.available).map Prod.fst = some encoding ∧
        asked.Heaviest encoding ∧
        ∀ other,
          asked.Heaviest other →
          NotAfter serverOrder other encoding := by
  have notNilReverse : asked.available.reverse ≠ [] := by
    intro isNil
    exact notNil (List.reverse_eq_nil_iff.mp isNil)
  obtain ⟨first, rest, isCons⟩ := List.exists_cons_of_ne_nil notNilReverse
  obtain ⟨found, isFound, isFirst⟩ :=
    @exists_firstMaximum _ _ _ (Prod.snd : Encoding × Int → Int) first rest
  rw [← isCons] at isFound isFirst
  have member : found ∈ asked.available :=
    List.mem_reverse.mp isFirst.mem
  obtain ⟨isAcceptable, isWeight⟩ := asked.mem_available_iff.mp member
  have isHeaviest : asked.Heaviest found.1 := by
    refine ⟨isAcceptable, ?_⟩
    intro other otherAcceptable
    have otherMember := asked.mem_available otherAcceptable
    rw [← isWeight]
    exact isFirst.le (List.mem_reverse.mpr otherMember)
  refine ⟨found.1, by rw [maxBy, isFound]; rfl, isHeaviest, ?_⟩
  intro other otherHeaviest
  have sorted :
      asked.available.Pairwise fun candidate later =>
        NotAfter serverOrder candidate.1 later.1 := by
    have ordered : serverOrder.Pairwise (NotAfter serverOrder) := by
      unfold NotAfter
      decide
    rw [available, List.pairwise_map]
    exact ordered.sublist List.filter_sublist
  obtain ⟨before, after, isWhole, lighter, -⟩ := isFirst
  have otherMember : (other, asked.weight other) ∈ asked.available.reverse :=
    List.mem_reverse.mpr (asked.mem_available otherHeaviest.isAcceptable)
  have sortedReverse := List.pairwise_reverse.mpr sorted
  rw [isWhole] at otherMember sortedReverse
  rcases List.mem_append.mp otherMember with inBefore | inRest
  · have isLighter := lighter _ inBefore
    rw [isWeight] at isLighter
    exact absurd (otherHeaviest.greatest _ isAcceptable)
      (not_le_of_gt isLighter)
  · rcases List.mem_cons.mp inRest with isSelf | inAfter
    · rw [← isSelf]
      exact Nat.le_refl _
    · have fromHere := (List.pairwise_append.mp sortedReverse).2.1
      exact (List.pairwise_cons.mp fromHere).1 _ inAfter

/-- The search by size finds the acceptable encoding that is first. -/
theorem exists_find? (notNil : asked.available ≠ []) :
    ∃ encoding,
      (sizeOrder asked.sizeHint).find? (fun name =>
          asked.available.any fun candidate => candidate.1 == name) =
        some encoding ∧
        asked.FirstBySize encoding := by
  obtain ⟨candidate, member⟩ := List.exists_mem_of_ne_nil _ notNil
  have isAcceptable := (asked.mem_available_iff.mp member).1
  simp only [any_available]
  have isSome :
      ((sizeOrder asked.sizeHint).find? asked.acceptable).isSome = true :=
    List.find?_isSome.mpr
      ⟨candidate.1, mem_sizeOrder _ _, isAcceptable⟩
  obtain ⟨encoding, isFound⟩ := Option.isSome_iff_exists.mp isSome
  exact ⟨encoding, isFound, List.find?_some isFound,
    fun other otherAcceptable => notAfter_of_find? isFound otherAcceptable⟩

/-! ## When the choice is the documented one -/

/-- Nothing is chosen exactly when nothing is acceptable. -/
theorem chooseFrom_eq_none_iff :
    chooseFrom asked.available asked.sizeHint = none ↔
      ∀ encoding, asked.acceptable encoding = false := by
  rw [← available_eq_nil_iff]
  constructor
  · intro isNone
    by_contra notNil
    obtain ⟨last, isLast, -⟩ := asked.exists_maxBy notNil
    obtain ⟨first, isFirst, -⟩ := asked.exists_find? notNil
    rw [chooseFrom, if_neg fun isEmpty => notNil (List.isEmpty_iff.mp isEmpty)]
      at isNone
    dsimp only at isNone
    split at isNone
    · rw [isLast] at isNone
      cases isNone
    · rw [isFirst] at isNone
      cases isNone
  · intro isNil
    rw [isNil]
    rfl

/-- While an encoding is acceptable, one has to be chosen. -/
theorem some_eq_none_iff
    {encoding : Encoding}
    (isAcceptable : asked.acceptable encoding = true) :
    some encoding = none ↔ ∀ other, asked.acceptable other = false := by
  apply iff_of_false (Option.some_ne_none encoding)
  intro noneAcceptable
  rw [noneAcceptable] at isAcceptable
  cases isAcceptable

/-- With weights apart the last encoding of the greatest weight is chosen. -/
theorem respects_apart_iff
    {encoding : Encoding}
    (isApart : asked.Apart)
    (isHeaviest : asked.Heaviest encoding)
    (isLast :
      ∀ other, asked.Heaviest other → NotAfter serverOrder other encoding) :
    asked.RespectsClient (some encoding) ↔ asked.WeighsClearly := by
  have notEqual : ¬asked.AllEqual := by
    intro allEqual
    obtain ⟨heavy, light, heavyAcceptable, lightAcceptable, apart⟩ := isApart
    rw [allEqual heavy light heavyAcceptable lightAcceptable] at apart
    omega
  constructor
  · intro respects
    have eqSelf (other : Encoding) (otherHeaviest : asked.Heaviest other) :
        other = encoding :=
      eq_of_notAfter (mem_serverOrder other) (isLast other otherHeaviest)
        (respects.byServer notEqual encoding rfl other otherHeaviest)
    refine Or.inr (Or.inl ⟨isApart, ?_⟩)
    intro first second firstHeaviest secondHeaviest
    rw [eqSelf first firstHeaviest, eqSelf second secondHeaviest]
  · rintro (allEqual | ⟨-, alone⟩ | ⟨notApart, -⟩)
    · exact absurd allEqual notEqual
    · refine ⟨asked.some_eq_none_iff isHeaviest.isAcceptable, ?_, ?_,
        fun allEqual => absurd allEqual notEqual⟩
      · intro other isOther
        rw [← Option.some.inj isOther]
        exact isHeaviest
      · intro _ found isFound other otherHeaviest
        rw [← Option.some.inj isFound,
          alone other encoding otherHeaviest isHeaviest]
        exact Nat.le_refl _
    · exact absurd isApart notApart

/-- With weights close together the encoding that is first by size is chosen. -/
theorem respects_close_iff
    {encoding : Encoding}
    (notApart : ¬asked.Apart)
    (isFirst : asked.FirstBySize encoding) :
    asked.RespectsClient (some encoding) ↔ asked.WeighsClearly := by
  have noneIff := asked.some_eq_none_iff isFirst.isAcceptable
  by_cases allEqual : asked.AllEqual
  · constructor
    · intro _
      exact Or.inl allEqual
    · intro _
      refine ⟨noneIff, ?_, fun notEqual => absurd allEqual notEqual, ?_⟩
      · intro found isFound
        rw [← Option.some.inj isFound]
        refine ⟨isFirst.isAcceptable, ?_⟩
        intro other otherAcceptable
        exact (allEqual other encoding otherAcceptable
          isFirst.isAcceptable).le
      · intro _ found isFound other otherHeaviest
        rw [← Option.some.inj isFound]
        exact isFirst.notAfter other otherHeaviest.isAcceptable
  · constructor
    · intro respects
      refine Or.inr (Or.inr ⟨notApart, ?_⟩)
      intro other otherFirst
      have isSame : other = encoding :=
        eq_of_notAfter (mem_sizeOrder asked.sizeHint other)
          (otherFirst.notAfter encoding isFirst.isAcceptable)
          (isFirst.notAfter other otherFirst.isAcceptable)
      rw [isSame]
      exact ⟨respects.heaviest encoding rfl,
        respects.byServer allEqual encoding rfl⟩
    · rintro (isEqual | ⟨isApart, -⟩ | ⟨-, agrees⟩)
      · exact absurd isEqual allEqual
      · exact absurd isApart notApart
      · have isChoice := agrees encoding isFirst
        refine ⟨noneIff, ?_, ?_, fun isEqual => absurd isEqual allEqual⟩
        · intro found isFound
          rw [← Option.some.inj isFound]
          exact isChoice.isHeaviest
        · intro _ found isFound
          rw [← Option.some.inj isFound]
          exact isChoice.notAfter

/-- The choice among the candidates is the documented one. -/
theorem respects_chooseFrom_iff :
    asked.RespectsClient (chooseFrom asked.available asked.sizeHint) ↔
      asked.WeighsClearly := by
  by_cases isNil : asked.available = []
  · have noneAcceptable := asked.available_eq_nil_iff.mp isNil
    have isNone : chooseFrom asked.available asked.sizeHint = none :=
      asked.chooseFrom_eq_none_iff.mpr noneAcceptable
    rw [isNone]
    constructor
    · intro _
      refine Or.inl ?_
      intro encoding other isAcceptable
      rw [noneAcceptable] at isAcceptable
      cases isAcceptable
    · intro _
      refine ⟨⟨fun _ => noneAcceptable, fun _ => rfl⟩, ?_, ?_, ?_⟩
      · intro encoding member
        cases member
      · intro _ encoding member
        cases member
      · intro _ encoding member
        cases member
  · rw [chooseFrom, if_neg fun isEmpty => isNil (List.isEmpty_iff.mp isEmpty)]
    dsimp only
    by_cases isApart : asked.Apart
    · obtain ⟨last, isLast, isHeaviest, notBefore⟩ := asked.exists_maxBy isNil
      rw [if_pos ((asked.apart_iff isNil).mpr isApart), isLast]
      exact asked.respects_apart_iff isApart isHeaviest notBefore
    · obtain ⟨first, isFound, isFirst⟩ := asked.exists_find? isNil
      rw [if_neg fun apart => isApart ((asked.apart_iff isNil).mp apart),
        isFound]
      exact asked.respects_close_iff isApart isFirst

end Negotiation

/-! ## The choice for a request -/

section Request

variable
  (parse : List Char → Option Int)
  (headers : HeaderMap)
  (gzEn brEn zstEn : Bool)
  (sizeHint : Option Nat)

/-- What the choice for a request depends on. -/
def negotiationOf : Negotiation where
  weight := statedWeight parse (acceptText headers)
  enabled
    | .br =>
        brEn
    | .zstd =>
        zstEn
    | .gzip =>
        gzEn
  sizeHint := sizeHint

/-- The candidates of the code are the acceptable encodings. -/
theorem candidates_eq_available :
    candidates (parseAcceptEncoding parse (acceptText headers))
        gzEn brEn zstEn =
      (negotiationOf parse headers gzEn brEn zstEn sizeHint).available := by
  have weight := weight_parseAcceptEncoding parse (acceptText headers)
  have isBrotli :
      (parseAcceptEncoding parse (acceptText headers)).brotli =
        statedWeight parse (acceptText headers) .br :=
    weight .br
  have isZstd :
      (parseAcceptEncoding parse (acceptText headers)).zstd =
        statedWeight parse (acceptText headers) .zstd :=
    weight .zstd
  have isGzip :
      (parseAcceptEncoding parse (acceptText headers)).gzip =
        statedWeight parse (acceptText headers) .gzip :=
    weight .gzip
  let asked := negotiationOf parse headers gzEn brEn zstEn sizeHint
  have takesBrotli :
      (brEn && decide (0 < statedWeight parse (acceptText headers) .br)) =
        asked.acceptable .br :=
    rfl
  have takesZstd :
      (zstEn && decide (0 < statedWeight parse (acceptText headers) .zstd)) =
        asked.acceptable .zstd :=
    rfl
  have takesGzip :
      (gzEn && decide (0 < statedWeight parse (acceptText headers) .gzip)) =
        asked.acceptable .gzip :=
    rfl
  change _ = (serverOrder.filter asked.acceptable).map fun encoding =>
    (encoding, statedWeight parse (acceptText headers) encoding)
  rw [candidates, isBrotli, isZstd, isGzip, takesBrotli, takesZstd, takesGzip,
    serverOrder, List.filter_cons, List.filter_cons, List.filter_cons,
    List.filter_nil]
  cases asked.acceptable .br <;> cases asked.acceptable .zstd <;>
    cases asked.acceptable .gzip <;> rfl

/-- The choice for a request is the one among its candidates. -/
theorem pickBestEncodingSized_eq :
    pickBestEncodingSized parse headers gzEn brEn zstEn sizeHint =
      chooseFrom
        (negotiationOf parse headers gzEn brEn zstEn sizeHint).available
        sizeHint := by
  rw [pickBestEncodingSized]
  split
  · rename_i isEmpty
    have isNil : acceptText headers = [] := List.isEmpty_iff.mp isEmpty
    have noWeight (encoding : Encoding) :
        statedWeight parse (acceptText headers) encoding = 0 := by
      rw [isNil]
      rfl
    refine ((Negotiation.chooseFrom_eq_none_iff _).mpr ?_).symm
    intro encoding
    rw [Negotiation.acceptable, negotiationOf]
    simp only [noWeight]
    exact Bool.and_false _
  · rw [← candidates_eq_available]

/-- Nothing is chosen exactly when no enabled encoding has a weight. -/
theorem pickBestEncodingSized_eq_none_iff :
    pickBestEncodingSized parse headers gzEn brEn zstEn sizeHint = none ↔
      ∀ encoding,
        (negotiationOf parse headers gzEn brEn zstEn sizeHint).acceptable
            encoding =
          false := by
  rw [pickBestEncodingSized_eq]
  exact Negotiation.chooseFrom_eq_none_iff _

end Request

/-- A weight as RFC 7231 writes it. -/
def parseThousandths? (text : List Char) : Option Int :=
  match splitOnce? '.' text with
  | none =>
      (parseUsize? text).map fun whole => 1000 * whole
  | some (whole, fraction) =>
      if fraction.length ≤ 3 then
        (parseUsize? whole).bind fun whole =>
          (parseUsize?
              (fraction ++ List.replicate (3 - fraction.length) '0')).map
            fun part => 1000 * whole + part
      else
        none

/-- `Accept-Encoding: br, gzip, zstd;q=0.5`. -/
def tiedHeaders : HeaderMap :=
  [("accept-encoding", encodeUtf8 "br, gzip, zstd;q=0.5".toList)]

end Sweety.EncodingChoice
