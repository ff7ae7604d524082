import Sweety.UpstreamResponse

namespace Sweety.UpstreamResponse

open HttpText SegmentedReader

/-!
# An upstream that falls silent

Where the upstream falls silent in the middle of a response, no reading function
gets past that place: each of them that returns at all has returned before it,
with what it would return if the upstream went on.
-/

variable
  {silent other : List (Event IoError)}
  {first second after : Reader}

theorem readTextLine_agree
    {result : LineText}
    (agree : AgreeUntil silent other first second)
    (isLine : readTextLine first = (result, after))
    (heard : result ≠ .stall) :
    ∃ next,
      readTextLine second = (result, next) ∧
        AgreeUntil silent other after next := by
  unfold readTextLine at isLine
  unfold readTextLine
  split at isLine
  · rename_i bytes left isRead
    obtain ⟨next, also, agrees⟩ := readLine_agree agree isRead nofun
    rw [also]
    dsimp only
    split at isLine
    all_goals
      obtain ⟨rfl, rfl⟩ := Prod.mk.inj isLine
      exact ⟨next, rfl, agrees⟩
  · rename_i error before left isRead
    obtain ⟨next, also, agrees⟩ := readLine_agree agree isRead nofun
    obtain ⟨rfl, rfl⟩ := Prod.mk.inj isLine
    rw [also]
    exact ⟨next, rfl, agrees⟩
  · obtain ⟨rfl, rfl⟩ := Prod.mk.inj isLine
    exact absurd rfl heard

theorem skipLine_agree
    (agree : AgreeUntil silent other first second)
    (skipped : skipLine first = some after) :
    ∃ next,
      skipLine second = some next ∧
        AgreeUntil silent other after next := by
  unfold skipLine at skipped
  split at skipped
  · cases skipped
  · rename_i result left notStall isLine
    obtain rfl := Option.some.inj skipped
    have heard : result ≠ .stall := by
      rintro rfl
      exact notStall rfl
    obtain ⟨next, also, agrees⟩ := readTextLine_agree agree isLine heard
    refine ⟨next, ?_, agrees⟩
    unfold skipLine
    rw [also]
    cases result with
    | ok line =>
        rfl
    | error error before =>
        rfl
    | stall =>
        exact absurd rfl heard

/-! ## Heads -/

theorem readHeaders_agree
    {head final : ResponseHead}
    (agree : AgreeUntil silent other first second)
    (isHead : readHeaders head first = (.ok final, after)) :
    ∃ next,
      readHeaders head second = (.ok final, next) ∧
        AgreeUntil silent other after next := by
  fun_induction readHeaders head first generalizing second with
  | case1 head first many =>
      obtain ⟨sameHead, rfl⟩ := Prod.mk.inj isHead
      obtain rfl := HeadResult.ok.inj sameHead
      refine ⟨second, ?_, agree⟩
      rw [readHeaders_eq, if_pos many]
  | case2 head first few line left isLine long inductionHypothesis =>
      obtain ⟨middle, also, agrees⟩ :=
        readTextLine_agree agree isLine nofun
      obtain ⟨next, isNext, ends⟩ := inductionHypothesis agrees isHead
      refine ⟨next, ?_, ends⟩
      rw [readHeaders_eq]
      simp only [if_neg few, also, if_pos long, isNext]
  | case3 head first few line left isLine short blank =>
      obtain ⟨next, also, agrees⟩ :=
        readTextLine_agree agree isLine nofun
      obtain ⟨sameHead, rfl⟩ := Prod.mk.inj isHead
      obtain rfl := HeadResult.ok.inj sameHead
      refine ⟨next, ?_, agrees⟩
      rw [readHeaders_eq]
      simp only [if_neg few, also, if_neg short, if_pos blank]
  | case4 head first few line left isLine short notBlank
      inductionHypothesis =>
      obtain ⟨middle, also, agrees⟩ :=
        readTextLine_agree agree isLine nofun
      obtain ⟨next, isNext, ends⟩ := inductionHypothesis agrees isHead
      refine ⟨next, ?_, ends⟩
      rw [readHeaders_eq]
      simp only [if_neg few, also, if_neg short, if_neg notBlank, isNext]
  | case5 head first few error before left isLine isEof =>
      obtain ⟨next, also, agrees⟩ :=
        readTextLine_agree agree isLine nofun
      obtain ⟨sameHead, rfl⟩ := Prod.mk.inj isHead
      obtain rfl := HeadResult.ok.inj sameHead
      refine ⟨next, ?_, agrees⟩
      rw [readHeaders_eq]
      simp only [if_neg few, also, if_pos isEof]
  | case6 head first few error before left isLine notEof =>
      cases (Prod.mk.inj isHead).1
  | case7 head first few left isLine =>
      cases (Prod.mk.inj isHead).1

/-! ## Bodies on the buffered path -/

theorem readTrailers_agree
    {trailers all : List (List Char × List Char)}
    (agree : AgreeUntil silent other first second)
    (isRead : readTrailers trailers first = (some all, after)) :
    ∃ next,
      readTrailers trailers second = (some all, next) ∧
        AgreeUntil silent other after next := by
  fun_induction readTrailers trailers first generalizing second with
  | case1 trailers first many =>
      obtain ⟨sameAll, rfl⟩ := Prod.mk.inj isRead
      obtain rfl := Option.some.inj sameAll
      refine ⟨second, ?_, agree⟩
      rw [readTrailers_eq, if_pos many]
  | case2 trailers first few line left isLine blank =>
      obtain ⟨next, also, agrees⟩ :=
        readTextLine_agree agree isLine nofun
      obtain ⟨sameAll, rfl⟩ := Prod.mk.inj isRead
      obtain rfl := Option.some.inj sameAll
      refine ⟨next, ?_, agrees⟩
      rw [readTrailers_eq]
      simp only [if_neg few, also, if_pos blank]
  | case3 trailers first few line left isLine notBlank noColon
      inductionHypothesis =>
      obtain ⟨middle, also, agrees⟩ :=
        readTextLine_agree agree isLine nofun
      obtain ⟨next, isNext, ends⟩ := inductionHypothesis agrees isRead
      refine ⟨next, ?_, ends⟩
      rw [readTrailers_eq]
      simp only [if_neg few, also, if_neg notBlank, noColon, isNext]
  | case4 trailers first few line left isLine notBlank name value colon
      inductionHypothesis =>
      obtain ⟨middle, also, agrees⟩ :=
        readTextLine_agree agree isLine nofun
      obtain ⟨next, isNext, ends⟩ := inductionHypothesis agrees isRead
      refine ⟨next, ?_, ends⟩
      rw [readTrailers_eq]
      simp only [if_neg few, also, if_neg notBlank, colon, isNext]
  | case5 trailers first few error before left isLine =>
      obtain ⟨next, also, agrees⟩ :=
        readTextLine_agree agree isLine nofun
      obtain ⟨sameAll, rfl⟩ := Prod.mk.inj isRead
      obtain rfl := Option.some.inj sameAll
      refine ⟨next, ?_, agrees⟩
      rw [readTrailers_eq]
      simp only [if_neg few, also]
  | case6 trailers first few left isLine =>
      cases (Prod.mk.inj isRead).1

theorem readChunkedEnd_agree
    {collectTrailers : Bool}
    {body all : List UInt8}
    {trailers : List (List Char × List Char)}
    (agree : AgreeUntil silent other first second)
    (isRead :
      readChunkedEnd collectTrailers body first =
        (.ok all trailers, after)) :
    ∃ next,
      readChunkedEnd collectTrailers body second =
          (.ok all trailers, next) ∧
        AgreeUntil silent other after next := by
  unfold readChunkedEnd at isRead
  unfold readChunkedEnd
  split at isRead
  · rename_i collects
    split at isRead
    · rename_i found left isTrailers
      obtain ⟨next, also, agrees⟩ := readTrailers_agree agree isTrailers
      obtain ⟨same, rfl⟩ := Prod.mk.inj isRead
      rw [if_pos collects, also]
      exact ⟨next, by rw [← same], agrees⟩
    · cases (Prod.mk.inj isRead).1
  · rename_i drops
    split at isRead
    · rename_i left skipped
      obtain ⟨next, also, agrees⟩ := skipLine_agree agree skipped
      obtain ⟨same, rfl⟩ := Prod.mk.inj isRead
      rw [if_neg drops, also]
      exact ⟨next, by rw [← same], agrees⟩
    · cases (Prod.mk.inj isRead).1

/-- A chunk of the buffered path: its size line, its data and a line end. -/
theorem chunk_agree
    {line : List Char}
    {size : Nat}
    {result : LoopResult IoError}
    {left leftData : Reader}
    (agree : AgreeUntil silent other first second)
    (isLine : readTextLine first = (.ok line, left))
    (isData : readLoop size size [] left = (result, leftData))
    (heard : ∀ before, result ≠ .stall before)
    (isSkip : skipLine leftData = some after) :
    ∃ afterLine afterData next,
      readTextLine second = (.ok line, afterLine) ∧
        readLoop size size [] afterLine = (result, afterData) ∧
        skipLine afterData = some next ∧
        AgreeUntil silent other after next := by
  obtain ⟨afterLine, also, agreesLine⟩ :=
    readTextLine_agree agree isLine nofun
  obtain ⟨afterData, alsoData, agreesData⟩ :=
    readLoop_agree agreesLine isData heard
  obtain ⟨next, alsoSkip, agreesSkip⟩ :=
    skipLine_agree agreesData isSkip
  exact ⟨afterLine, afterData, next, also, alsoData, alsoSkip,
    agreesSkip⟩

theorem readChunkedBody_agree
    {collectTrailers : Bool}
    {body all : List UInt8}
    {trailers : List (List Char × List Char)}
    (agree : AgreeUntil silent other first second)
    (isRead :
      readChunkedBody collectTrailers body first =
        (.ok all trailers, after)) :
    ∃ next,
      readChunkedBody collectTrailers body second =
          (.ok all trailers, next) ∧
        AgreeUntil silent other after next := by
  fun_induction readChunkedBody collectTrailers body first
      generalizing second with
  | case1 body first left isLine =>
      obtain ⟨next, also, agrees⟩ :=
        readTextLine_agree agree isLine (by simp)
      obtain ⟨same, rfl⟩ := Prod.mk.inj isRead
      refine ⟨next, ?_, agrees⟩
      rw [readChunkedBody_eq]
      simp only [also, if_true, same]
  | case2 body first line left isLine nonempty long =>
      obtain ⟨next, also, agrees⟩ :=
        readTextLine_agree agree isLine (by simp)
      obtain ⟨same, rfl⟩ := Prod.mk.inj isRead
      refine ⟨next, ?_, agrees⟩
      rw [readChunkedBody_eq]
      simp only [also, if_neg nonempty, if_pos long, same]
  | case3 body first line left isLine nonempty short last =>
      obtain ⟨middle, also, agrees⟩ :=
        readTextLine_agree agree isLine (by simp)
      obtain ⟨next, isNext, ends⟩ := readChunkedEnd_agree agrees isRead
      refine ⟨next, ?_, ends⟩
      rw [readChunkedBody_eq]
      simp only [also, if_neg nonempty, if_neg short, if_pos last, isNext]
  | case4 body first line left isLine nonempty short more large =>
      obtain ⟨next, also, agrees⟩ :=
        readTextLine_agree agree isLine (by simp)
      obtain ⟨same, rfl⟩ := Prod.mk.inj isRead
      refine ⟨next, ?_, agrees⟩
      rw [readChunkedBody_eq]
      simp only [also, if_neg nonempty, if_neg short, if_neg more,
        if_pos large, same]
  | case5 body first line left isLine nonempty short more fits error
      bytes leftData isData isEof skipped isSkip inductionHypothesis =>
      obtain ⟨afterLine, afterData, afterSkip, also, alsoData, alsoSkip,
          agrees⟩ :=
        chunk_agree agree isLine isData (by simp) isSkip
      obtain ⟨next, isNext, ends⟩ := inductionHypothesis agrees isRead
      refine ⟨next, ?_, ends⟩
      rw [readChunkedBody_eq]
      simp only [also, if_neg nonempty, if_neg short, if_neg more,
        if_neg fits, alsoData, if_pos isEof, alsoSkip, isNext]
  | case8 body first line left isLine nonempty short more fits bytes
      leftData isData skipped isSkip inductionHypothesis =>
      obtain ⟨afterLine, afterData, afterSkip, also, alsoData, alsoSkip,
          agrees⟩ :=
        chunk_agree agree isLine isData (by simp) isSkip
      obtain ⟨next, isNext, ends⟩ := inductionHypothesis agrees isRead
      refine ⟨next, ?_, ends⟩
      rw [readChunkedBody_eq]
      simp only [also, if_neg nonempty, if_neg short, if_neg more,
        if_neg fits, alsoData, alsoSkip, isNext]
  | case10 body first line left isLine nonempty short more fits bytes
      leftData isData skipped isSkip inductionHypothesis =>
      obtain ⟨afterLine, afterData, afterSkip, also, alsoData, alsoSkip,
          agrees⟩ :=
        chunk_agree agree isLine isData (by simp) isSkip
      obtain ⟨next, isNext, ends⟩ := inductionHypothesis agrees isRead
      refine ⟨next, ?_, ends⟩
      rw [readChunkedBody_eq]
      simp only [also, if_neg nonempty, if_neg short, if_neg more,
        if_neg fits, alsoData, alsoSkip, isNext]
  | case13 body first error before left isLine =>
      obtain ⟨next, also, agrees⟩ :=
        readTextLine_agree agree isLine (by simp)
      obtain ⟨same, rfl⟩ := Prod.mk.inj isRead
      refine ⟨next, ?_, agrees⟩
      rw [readChunkedBody_eq]
      simp only [also, same]
  -- The others fail, or wait.
  | case6 | case7 | case9 | case11 | case12 | case14 =>
      cases isRead

theorem readExactBody_agree
    {len : Nat}
    {all : List UInt8}
    {trailers : List (List Char × List Char)}
    (agree : AgreeUntil silent other first second)
    (isRead : readExactBody len first = (.ok all trailers, after)) :
    ∃ next,
      readExactBody len second = (.ok all trailers, next) ∧
        AgreeUntil silent other after next := by
  unfold readExactBody at isRead
  unfold readExactBody
  split at isRead
  · rename_i bytes left isLoop
    obtain ⟨next, also, agrees⟩ := readLoop_agree agree isLoop nofun
    obtain ⟨same, rfl⟩ := Prod.mk.inj isRead
    rw [also]
    exact ⟨next, by rw [← same], agrees⟩
  · rename_i bytes left isLoop
    obtain ⟨next, also, agrees⟩ := readLoop_agree agree isLoop nofun
    obtain ⟨same, rfl⟩ := Prod.mk.inj isRead
    rw [also]
    exact ⟨next, by rw [← same], agrees⟩
  · rename_i error bytes left isLoop
    obtain ⟨next, also, agrees⟩ := readLoop_agree agree isLoop nofun
    split at isRead
    · rename_i isEof
      obtain ⟨same, rfl⟩ := Prod.mk.inj isRead
      rw [also]
      refine ⟨next, ?_, agrees⟩
      simp only [if_pos isEof, same]
    · cases (Prod.mk.inj isRead).1
  · cases (Prod.mk.inj isRead).1

/-! ## Bodies on the streaming path -/

theorem streamLength_agree
    {receives : Nat → Bool}
    {remaining : Nat}
    {pieces all : Pieces}
    (agree : AgreeUntil silent other first second)
    (isRead :
      streamLength receives remaining pieces first =
        (all, .ended true, after)) :
    ∃ next,
      streamLength receives remaining pieces second =
          (all, .ended true, next) ∧
        AgreeUntil silent other after next := by
  fun_induction streamLength receives remaining pieces first
      generalizing second with
  | case1 pieces first =>
      obtain ⟨rfl, same⟩ := Prod.mk.inj isRead
      obtain ⟨-, rfl⟩ := Prod.mk.inj same
      refine ⟨second, ?_, agree⟩
      rw [streamLength, if_pos rfl]
  | case2 remaining pieces first more left isBytes =>
      obtain ⟨next, also, agrees⟩ := read_agree agree isBytes nofun
      obtain ⟨rfl, same⟩ := Prod.mk.inj isRead
      obtain ⟨-, rfl⟩ := Prod.mk.inj same
      refine ⟨next, ?_, agrees⟩
      rw [streamLength, if_neg more, also]
  | case3 remaining pieces first more byte others left isBytes takes
      inductionHypothesis =>
      obtain ⟨middle, also, agrees⟩ := read_agree agree isBytes nofun
      obtain ⟨next, isNext, ends⟩ := inductionHypothesis agrees isRead
      refine ⟨next, ?_, ends⟩
      rw [streamLength, if_neg more, also]
      simp only [if_pos takes, isNext]
  | case4 | case5 | case6 =>
      cases isRead

theorem streamChunked_agree
    {receives : Nat → Bool}
    {pieces all : Pieces}
    (agree : AgreeUntil silent other first second)
    (isRead :
      streamChunked receives pieces first =
        (all, .ended true, after)) :
    ∃ next,
      streamChunked receives pieces second =
          (all, .ended true, next) ∧
        AgreeUntil silent other after next := by
  fun_induction streamChunked receives pieces first
      generalizing second with
  | case4 pieces first line left isLine nonempty short fits last
      skipped isSkip =>
      obtain ⟨afterLine, also, agrees⟩ :=
        readTextLine_agree agree isLine nofun
      obtain ⟨next, alsoSkip, ends⟩ := skipLine_agree agrees isSkip
      obtain ⟨rfl, same⟩ := Prod.mk.inj isRead
      obtain ⟨-, rfl⟩ := Prod.mk.inj same
      refine ⟨next, ?_, ends⟩
      rw [streamChunked_eq]
      simp only [also, if_neg nonempty, if_neg short, if_neg fits,
        if_pos last, alsoSkip]
  | case7 pieces first line left isLine nonempty short fits more bytes
      leftData isData takes lineEnd leftEnd notStall isEnd
      inductionHypothesis =>
      obtain ⟨afterLine, also, agrees⟩ :=
        readTextLine_agree agree isLine nofun
      obtain ⟨afterData, alsoData, agreesData⟩ :=
        readLoop_agree agrees isData nofun
      obtain ⟨afterEnd, alsoEnd, agreesEnd⟩ :=
        readLoop_agree agreesData isEnd notStall
      obtain ⟨next, isNext, ends⟩ :=
        inductionHypothesis agreesEnd isRead
      refine ⟨next, ?_, ends⟩
      rw [streamChunked_eq]
      simp only [also, if_neg nonempty, if_neg short, if_neg fits,
        if_neg more, alsoData, if_pos takes, alsoEnd, isNext]
  -- The others end without success, or wait.
  | case1 | case2 | case3 | case5 | case6 | case8 | case9 | case10
  | case11 | case12 | case13 | case14 =>
      cases isRead

end Sweety.UpstreamResponse
