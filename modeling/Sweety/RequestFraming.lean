import Sweety.HttpText
import Sweety.TransferCoding

namespace Sweety.H1

open HttpText

/-!
# Where the body of a request ends

Model of the headers in `decode_head` of the HTTP/1 server: each header that
says something about the body sets the decoder, and the `Connection` header
says whether the connection goes on.  The parser of the head is a third-party
package; its result is taken as it is.
-/

/-- `ContextState`. -/
structure ContextState where
  expect : Bool := false
  connect : Bool := false
  head : Bool := false
  close : Bool := false
  isTls : Bool := false
  deriving Repr, DecidableEq

/-- `Context::reset`. -/
def ContextState.reset (state : ContextState) : ContextState :=
  { isTls := state.isTls }

/-- A header of a parsed head. -/
structure HeaderLine where
  name : List Char
  value : List UInt8
  deriving Repr, DecidableEq

namespace HeaderLine

/-- The header has this name. -/
def isNamed (line : HeaderLine) (name : String) : Bool :=
  eqIgnoreAsciiCase line.name name.toList

/-- The bytes of the value as characters. -/
def chars (line : HeaderLine) : List Char :=
  line.value.map fun byte => Char.ofNat byte.toNat

/-- `HeaderValue::to_str`: visible ASCII, blanks and tabs. -/
def toStr? (line : HeaderLine) : Option (List Char) :=
  if line.value.all fun byte => byte == 9 || (32 ≤ byte && byte < 127) then
    some line.chars
  else
    none

/-- The parts of the value between commas. -/
def tokens? (line : HeaderLine) : Option (List (List Char)) :=
  line.toStr?.map fun text => (text.splitOn ',').map trim

end HeaderLine

/-- One token of `try_set_close_from_header`. -/
def setCloseFromToken (state : ContextState) (token : List Char) :
    ContextState :=
  if eqIgnoreAsciiCase token "keep-alive".toList then
    { state with close := false }
  else if eqIgnoreAsciiCase token "close".toList then
    { state with close := true }
  else
    state

/-- `try_set_close_from_header`. -/
def trySetCloseFromHeader (state : ContextState) (line : HeaderLine) :
    Except ProtoError ContextState :=
  match line.tokens? with
  | none =>
      .error .headerValue
  | some tokens =>
      .ok (tokens.foldl setCloseFromToken state)

/-- `header::parse_content_length`. -/
def parseContentLength (line : HeaderLine) : Except ProtoError Nat :=
  match line.toStr?.bind (fromStrRadix? 10 (2 ^ 64)) with
  | none =>
      .error .headerValue
  | some len =>
      .ok len

/-- The decoder of a chunked body at its start. -/
def TransferCoding.decodeChunkedStart : TransferCoding :=
  .decodeChunked .size 0

/-- The name of the one transfer coding that is looked for. -/
def isChunked (token : List Char) : Bool :=
  eqIgnoreAsciiCase token "chunked".toList

/-- The loop of `try_write_header` over the transfer codings. -/
def setFromCodings (decoder : TransferCoding) :
    List (List Char) → Except ProtoError TransferCoding
  | [] =>
      .ok decoder
  | token :: tokens =>
      if isChunked token then
        match decoder.trySet .decodeChunkedStart with
        | .error error =>
            .error error
        | .ok next =>
            setFromCodings next tokens
      else
        setFromCodings decoder tokens

/-- `try_write_header`, but for the header map. -/
def tryWriteHeader
    (isVersion11 : Bool)
    (state : ContextState)
    (decoder : TransferCoding)
    (line : HeaderLine) :
    Except ProtoError (ContextState × TransferCoding) :=
  if line.isNamed "transfer-encoding" then
    if !isVersion11 then
      .error .headerName
    else
      match line.tokens? with
      | none =>
          .error .headerValue
      | some tokens =>
          (setFromCodings decoder tokens).map (state, ·)
  else if line.isNamed "content-length" then
    match parseContentLength line with
    | .error error =>
        .error error
    | .ok len =>
        (decoder.trySet (.length len)).map (state, ·)
  else if line.isNamed "connection" then
    (trySetCloseFromHeader state line).map (·, decoder)
  else if line.isNamed "expect" then
    if eqIgnoreAsciiCase line.chars "100-continue".toList then
      .ok ({ state with expect := true }, decoder)
    else
      .error .headerValue
  else if line.isNamed "upgrade" then
    if !isVersion11 then
      .error .headerName
    else
      (decoder.trySet .upgrade).map (state, ·)
  else
    .ok (state, decoder)

/-- The loop of `decode_head` over the headers. -/
def writeHeaders (isVersion11 : Bool) :
    List HeaderLine → ContextState → TransferCoding →
      Except ProtoError (ContextState × TransferCoding)
  | [], state, decoder =>
      .ok (state, decoder)
  | line :: lines, state, decoder =>
      match tryWriteHeader isVersion11 state decoder line with
      | .error error =>
          .error error
      | .ok (next, coding) =>
          writeHeaders isVersion11 lines next coding

/-- A head as the parser returns it; `isVersion11` is `version == 1`. -/
structure RawHead where
  method : List Char
  path : List Char
  isVersion11 : Bool
  headers : List HeaderLine
  deriving Repr, DecidableEq

/-- The decoder and the state that the method and the version start with. -/
def RawHead.start (raw : RawHead) (state : ContextState) :
    ContextState × TransferCoding :=
  let fresh := { state.reset with close := !raw.isVersion11 }
  if raw.method = "CONNECT".toList then
    ({ fresh with connect := true }, .upgrade)
  else if raw.method = "HEAD".toList then
    ({ fresh with head := true }, .eof)
  else
    (fresh, .eof)

/-- `decode_head` behind the parser, for a method and a path that are valid. -/
def decodeParsed (state : ContextState) (raw : RawHead) :
    Except ProtoError (ContextState × TransferCoding) :=
  writeHeaders raw.isVersion11 raw.headers (raw.start state).1
    (raw.start state).2

/-! ## What a header says of the body -/

/-- The decoders that a header asks for; `none` if it is not valid. -/
def announced? (isVersion11 : Bool) (line : HeaderLine) :
    Option (List TransferCoding) :=
  if line.isNamed "transfer-encoding" then
    if isVersion11 then
      line.tokens?.map fun tokens =>
        (tokens.filter isChunked).map fun _ => .decodeChunkedStart
    else
      none
  else if line.isNamed "content-length" then
    (line.toStr?.bind (fromStrRadix? 10 (2 ^ 64))).map fun len => [.length len]
  else if line.isNamed "connection" then
    line.tokens?.map fun _ => []
  else if line.isNamed "expect" then
    if eqIgnoreAsciiCase line.chars "100-continue".toList then some [] else none
  else if line.isNamed "upgrade" then
    if isVersion11 then some [.upgrade] else none
  else
    some []

/-- The state behind a valid header. -/
def stateBehind (state : ContextState) (line : HeaderLine) : ContextState :=
  if line.isNamed "transfer-encoding" || line.isNamed "content-length" then
    state
  else if line.isNamed "connection" then
    (line.tokens?.getD []).foldl setCloseFromToken state
  else if line.isNamed "expect" then
    { state with expect := true }
  else
    state

/-- The decoders are set one after the other. -/
def setAll (decoder : TransferCoding) :
    List TransferCoding → Except ProtoError TransferCoding
  | [] =>
      .ok decoder
  | coding :: codings =>
      match decoder.trySet coding with
      | .error error =>
          .error error
      | .ok next =>
          setAll next codings

theorem setAll_append
    (decoder : TransferCoding)
    (first second : List TransferCoding) :
    setAll decoder (first ++ second) =
      match setAll decoder first with
      | .error error =>
          .error error
      | .ok next =>
          setAll next second := by
  induction first generalizing decoder with
  | nil =>
      rfl
  | cons coding codings inductionHypothesis =>
      simp only [List.cons_append, setAll]
      cases decoder.trySet coding with
      | error error =>
          rfl
      | ok next =>
          exact inductionHypothesis next

theorem setFromCodings_eq
    (decoder : TransferCoding)
    (tokens : List (List Char)) :
    setFromCodings decoder tokens =
      setAll decoder
        ((tokens.filter isChunked).map fun _ => .decodeChunkedStart) := by
  induction tokens generalizing decoder with
  | nil =>
      rfl
  | cons token tokens inductionHypothesis =>
      cases isSet : isChunked token with
      | true =>
          rw [List.filter_cons_of_pos isSet, List.map_cons]
          simp only [setFromCodings, isSet, reduceIte, setAll]
          cases decoder.trySet .decodeChunkedStart with
          | error error =>
              rfl
          | ok next =>
              exact inductionHypothesis next
      | false =>
          rw [List.filter_cons_of_neg (by simp [isSet]),
            ← inductionHypothesis]
          simp [setFromCodings, isSet]

theorem setAll_single (decoder coding : TransferCoding) :
    setAll decoder [coding] = decoder.trySet coding := by
  rw [setAll]
  cases decoder.trySet coding <;> rfl

/-- A header that is taken sets the decoders that it asks for. -/
theorem tryWriteHeader_eq_ok_iff
    {isVersion11 : Bool}
    {state next : ContextState}
    {decoder coding : TransferCoding}
    {line : HeaderLine} :
    tryWriteHeader isVersion11 state decoder line = .ok (next, coding) ↔
      ∃ codings, announced? isVersion11 line = some codings ∧
        setAll decoder codings = .ok coding ∧
          next = stateBehind state line := by
  have map_left : ∀ result : Except ProtoError TransferCoding,
      result.map (state, ·) = .ok (next, coding) ↔
        result = .ok coding ∧ next = state := by
    intro result
    cases result with
    | error error =>
        simp [Except.map]
    | ok found =>
        simp [Except.map, eq_comm, and_comm]
  unfold tryWriteHeader announced? stateBehind
  by_cases isCoding : line.isNamed "transfer-encoding" = true
  · simp only [isCoding, reduceIte, Bool.true_or]
    cases isVersion11 with
    | false =>
        simp
    | true =>
        cases line.tokens? with
        | none =>
            simp
        | some tokens =>
            simp [map_left, setFromCodings_eq]
  simp only [isCoding, Bool.false_eq_true, reduceIte, Bool.false_or]
  by_cases isLength : line.isNamed "content-length" = true
  · simp only [isLength, reduceIte, parseContentLength]
    cases line.toStr?.bind (fromStrRadix? 10 (2 ^ 64)) with
    | none =>
        simp
    | some len =>
        simp [map_left, setAll_single]
  simp only [isLength, Bool.false_eq_true, reduceIte]
  by_cases isConnection : line.isNamed "connection" = true
  · simp only [isConnection, reduceIte, trySetCloseFromHeader]
    cases line.tokens? with
    | none =>
        simp [Except.map]
    | some tokens =>
        simp [Except.map, setAll, eq_comm, and_comm]
  simp only [isConnection, Bool.false_eq_true, reduceIte]
  by_cases isExpect : line.isNamed "expect" = true
  · simp only [isExpect, reduceIte]
    split_ifs
    · simp [setAll, eq_comm, and_comm]
    · simp
  simp only [isExpect, Bool.false_eq_true, reduceIte]
  by_cases isUpgrade : line.isNamed "upgrade" = true
  · simp only [isUpgrade, reduceIte]
    cases isVersion11 with
    | false =>
        simp
    | true =>
        simp [map_left, setAll_single]
  · simp [isUpgrade, setAll, eq_comm, and_comm]

/-- The decoders that all headers ask for; `none` if one is not valid. -/
def announcedAll? (isVersion11 : Bool) :
    List HeaderLine → Option (List TransferCoding)
  | [] =>
      some []
  | line :: lines => do
      let codings ← announced? isVersion11 line
      let others ← announcedAll? isVersion11 lines
      return codings ++ others

theorem writeHeaders_eq_ok_iff
    {isVersion11 : Bool}
    {lines : List HeaderLine}
    {state final : ContextState}
    {decoder coding : TransferCoding} :
    writeHeaders isVersion11 lines state decoder = .ok (final, coding) ↔
      ∃ codings, announcedAll? isVersion11 lines = some codings ∧
        setAll decoder codings = .ok coding ∧
          final = lines.foldl stateBehind state := by
  induction lines generalizing state decoder with
  | nil =>
      simp [writeHeaders, announcedAll?, setAll, eq_comm, and_comm]
  | cons line lines inductionHypothesis =>
      constructor
      · intro isWritten
        rw [writeHeaders] at isWritten
        split at isWritten
        next =>
          contradiction
        next next middle isLine =>
          obtain ⟨codings, isAnnounced, isSet, rfl⟩ :=
            tryWriteHeader_eq_ok_iff.mp isLine
          obtain ⟨others, areOthers, areSet, rfl⟩ :=
            inductionHypothesis.mp isWritten
          refine ⟨codings ++ others, ?_, ?_, rfl⟩
          · simp [announcedAll?, isAnnounced, areOthers]
          · rw [setAll_append, isSet]
            exact areSet
      · rintro ⟨all, isAll, areSet, rfl⟩
        simp only [announcedAll?, Option.bind_eq_bind,
          Option.bind_eq_some_iff, Option.pure_def, Option.some.injEq] at isAll
        obtain ⟨codings, isAnnounced, others, areOthers, rfl⟩ := isAll
        rw [setAll_append] at areSet
        split at areSet
        next =>
          contradiction
        next middle isSet =>
          have isLine :
              tryWriteHeader isVersion11 state decoder line =
                .ok (stateBehind state line, middle) :=
            tryWriteHeader_eq_ok_iff.mpr ⟨codings, isAnnounced, isSet, rfl⟩
          rw [writeHeaders, isLine]
          exact inductionHypothesis.mpr ⟨others, areOthers, areSet, rfl⟩

/-! ## The framing of a request -/

/-- A decoder that a header can ask for. -/
def IsAnnounced (coding : TransferCoding) : Prop :=
  coding = .decodeChunkedStart ∨ coding = .upgrade ∨ ∃ len, coding = .length len

/-- The decoders that are not those of an empty body. -/
def bearing (codings : List TransferCoding) : List TransferCoding :=
  codings.filter (· != .length 0)

/-- A second body is refused, but for a second upgrade. -/
theorem trySet_eq_error
    {decoder coding : TransferCoding}
    (isSet : IsAnnounced decoder)
    (isAnnounced : IsAnnounced coding)
    (isBearing : coding ≠ .length 0)
    (notUpgrades : ¬ (coding = .upgrade ∧ decoder = .upgrade)) :
    decoder.trySet coding = .error .headerName := by
  rcases isAnnounced with rfl | rfl | ⟨len, rfl⟩
  · rcases isSet with rfl | rfl | ⟨_, rfl⟩
    · rfl
    · rfl
    · rfl
  · rcases isSet with rfl | rfl | ⟨_, rfl⟩
    · rfl
    · exact absurd ⟨rfl, rfl⟩ notUpgrades
    · rfl
  · cases len with
    | zero =>
        exact absurd rfl isBearing
    | succ len =>
        rcases isSet with rfl | rfl | ⟨_, rfl⟩
        · rfl
        · rfl
        · rfl

/-- A decoder that is set already stays, or the request is refused. -/
theorem setAll_eq_ok_iff_of_set
    {decoder coding : TransferCoding}
    {codings : List TransferCoding}
    (isSet : IsAnnounced decoder)
    (areAnnounced : ∀ coding ∈ codings, IsAnnounced coding) :
    setAll decoder codings = .ok coding ↔
      coding = decoder ∧
        ∀ other ∈ bearing codings, other = .upgrade ∧ decoder = .upgrade := by
  induction codings with
  | nil =>
      simp [setAll, bearing, eq_comm]
  | cons first others inductionHypothesis =>
      obtain ⟨isFirst, areOthers⟩ := List.forall_mem_cons.mp areAnnounced
      have isLater := inductionHypothesis areOthers
      by_cases isZero : first = .length 0
      · subst first
        have isKept : decoder.trySet (.length 0) = .ok decoder := by
          cases decoder <;> rfl
        rw [setAll, isKept]
        simpa [bearing] using isLater
      by_cases areUpgrades : first = .upgrade ∧ decoder = .upgrade
      · obtain ⟨rfl, rfl⟩ := areUpgrades
        rw [setAll, show TransferCoding.upgrade.trySet .upgrade =
          .ok .upgrade from rfl]
        simpa [bearing] using isLater
      · have isRefused :=
          trySet_eq_error isSet isFirst isZero areUpgrades
        rw [setAll, isRefused]
        have isBearing : first ∈ bearing (first :: others) := by
          simp [bearing, isZero]
        refine iff_of_false nofun ?_
        rintro ⟨-, allUpgrade⟩
        exact areUpgrades (allUpgrade first isBearing)

/--
How the decoders that the headers ask for end up as one: there is none, or one,
or all of them pass the rest of the connection on.
-/
def Frames (codings : List TransferCoding) (coding : TransferCoding) : Prop :=
  (codings = [] ∧ coding = .eof) ∨ codings = [coding] ∨
    (coding = .upgrade ∧ codings ≠ [] ∧ ∀ other ∈ codings, other = .upgrade)

theorem setAll_eof_eq_ok_iff
    {coding : TransferCoding}
    {codings : List TransferCoding}
    (areAnnounced : ∀ coding ∈ codings, IsAnnounced coding) :
    setAll .eof codings = .ok coding ↔ Frames (bearing codings) coding := by
  induction codings with
  | nil =>
      simp [setAll, bearing, Frames, eq_comm]
  | cons first others inductionHypothesis =>
      obtain ⟨isFirst, areOthers⟩ := List.forall_mem_cons.mp areAnnounced
      by_cases isZero : first = .length 0
      · subst first
        rw [setAll, show TransferCoding.eof.trySet (.length 0) =
          .ok .eof from rfl]
        simpa [bearing] using inductionHypothesis areOthers
      · have isTaken : TransferCoding.eof.trySet first = .ok first := by
          rcases isFirst with rfl | rfl | ⟨len, rfl⟩
          · rfl
          · rfl
          · cases len with
            | zero =>
                exact absurd rfl isZero
            | succ len =>
                rfl
        have isBearing : bearing (first :: others) = first :: bearing others :=
          List.filter_cons_of_pos (by simp [isZero])
        rw [setAll, isTaken, isBearing]
        refine (setAll_eq_ok_iff_of_set isFirst areOthers).trans ?_
        unfold Frames
        constructor
        · rintro ⟨rfl, areUpgrades⟩
          cases isRest : bearing others with
          | nil =>
              exact .inr (.inl rfl)
          | cons second more =>
              rw [isRest] at areUpgrades
              obtain ⟨-, rfl⟩ := areUpgrades second List.mem_cons_self
              refine .inr (.inr ⟨rfl, nofun, ?_⟩)
              exact List.forall_mem_cons.mpr
                ⟨rfl, fun other isOther => (areUpgrades other isOther).1⟩
        · rintro (⟨isNil, -⟩ | isSingle | ⟨rfl, -, areUpgrades⟩)
          · contradiction
          · obtain ⟨rfl, isNil⟩ := List.cons.inj isSingle
            exact ⟨rfl, by simp [isNil]⟩
          · obtain ⟨isUpgrade, othersUpgrade⟩ :=
              List.forall_mem_cons.mp areUpgrades
            exact ⟨isUpgrade.symm, fun other isOther =>
              ⟨othersUpgrade other isOther, isUpgrade⟩⟩

theorem isAnnounced_of_announced?
    {isVersion11 : Bool}
    {line : HeaderLine}
    {codings : List TransferCoding}
    (isAnnounced : announced? isVersion11 line = some codings) :
    ∀ coding ∈ codings, IsAnnounced coding := by
  unfold announced? at isAnnounced
  split_ifs at isAnnounced
  · obtain ⟨tokens, -, rfl⟩ := Option.map_eq_some_iff.mp isAnnounced
    intro coding isCoding
    obtain ⟨_, -, rfl⟩ := List.mem_map.mp isCoding
    exact .inl rfl
  · obtain ⟨len, -, rfl⟩ := Option.map_eq_some_iff.mp isAnnounced
    rintro coding isCoding
    exact .inr (.inr ⟨len, List.mem_singleton.mp isCoding⟩)
  · obtain ⟨_, -, rfl⟩ := Option.map_eq_some_iff.mp isAnnounced
    exact nofun
  · obtain rfl := Option.some.inj isAnnounced
    exact nofun
  · obtain rfl := Option.some.inj isAnnounced
    rintro coding isCoding
    exact .inr (.inl (List.mem_singleton.mp isCoding))
  · obtain rfl := Option.some.inj isAnnounced
    exact nofun

theorem isAnnounced_of_announcedAll?
    {isVersion11 : Bool}
    {lines : List HeaderLine}
    {codings : List TransferCoding}
    (areAnnounced : announcedAll? isVersion11 lines = some codings) :
    ∀ coding ∈ codings, IsAnnounced coding := by
  induction lines generalizing codings with
  | nil =>
      obtain rfl := Option.some.inj areAnnounced
      exact nofun
  | cons line lines inductionHypothesis =>
      simp only [announcedAll?, Option.bind_eq_bind,
        Option.bind_eq_some_iff, Option.pure_def, Option.some.injEq]
        at areAnnounced
      obtain ⟨first, isFirst, others, areOthers, rfl⟩ := areAnnounced
      intro coding isCoding
      rcases List.mem_append.mp isCoding with isMem | isMem
      · exact isAnnounced_of_announced? isFirst coding isMem
      · exact inductionHypothesis areOthers coding isMem

/-- What the method asks for before the headers do. -/
def RawHead.announced (raw : RawHead) : List TransferCoding :=
  if raw.method = "CONNECT".toList then [.upgrade] else []

/-- What a token of a `Connection` header says: whether to close. -/
def tokenCloses? (token : List Char) : Option Bool :=
  if eqIgnoreAsciiCase token "keep-alive".toList then
    some false
  else if eqIgnoreAsciiCase token "close".toList then
    some true
  else
    none

/-- What the tokens of all `Connection` headers say, in their order. -/
def closeTokens (lines : List HeaderLine) : List Bool :=
  (lines.filter (·.isNamed "connection")).flatMap fun line =>
    (line.tokens?.getD []).filterMap tokenCloses?

/-- A token changes nothing but whether to close. -/
theorem setCloseFromToken_eq (state : ContextState) (token : List Char) :
    setCloseFromToken state token =
      { state with close := (tokenCloses? token).getD state.close } := by
  unfold setCloseFromToken tokenCloses?
  split_ifs <;> rfl

/-- The last token that says something counts. -/
theorem foldl_setCloseFromToken
    (tokens : List (List Char))
    (state : ContextState) :
    tokens.foldl setCloseFromToken state =
      { state with
        close := (tokens.filterMap tokenCloses?).getLast?.getD state.close } := by
  induction tokens generalizing state with
  | nil =>
      rfl
  | cons token tokens inductionHypothesis =>
      rw [List.foldl_cons, inductionHypothesis, setCloseFromToken_eq]
      cases isToken : tokenCloses? token with
      | none =>
          rw [List.filterMap_cons_none isToken]
          rfl
      | some closes =>
          rw [List.filterMap_cons_some isToken, List.getLast?_cons]
          rfl

/-- A header has one name. -/
theorem HeaderLine.not_isNamed
    {line : HeaderLine}
    {name other : String}
    (isNamed : line.isNamed name = true)
    (isOther :
      toAsciiLowercase name.toList ≠ toAsciiLowercase other.toList) :
    line.isNamed other = false := by
  simp only [HeaderLine.isNamed, eqIgnoreAsciiCase, beq_iff_eq,
    beq_eq_false_iff_ne] at isNamed ⊢
  rw [isNamed]
  exact isOther

/-- A header changes nothing but what is expected and whether to close. -/
theorem stateBehind_eq (state : ContextState) (line : HeaderLine) :
    stateBehind state line =
      { state with
        close := (closeTokens [line]).getLast?.getD state.close
        expect := state.expect || line.isNamed "expect" } := by
  cases isConnection : line.isNamed "connection" with
  | true =>
      have notCoding : line.isNamed "transfer-encoding" = false :=
        HeaderLine.not_isNamed isConnection (by decide)
      have notLength : line.isNamed "content-length" = false :=
        HeaderLine.not_isNamed isConnection (by decide)
      have notExpect : line.isNamed "expect" = false :=
        HeaderLine.not_isNamed isConnection (by decide)
      simp [stateBehind, closeTokens, isConnection, notCoding, notLength,
        notExpect, foldl_setCloseFromToken]
  | false =>
      have noTokens : closeTokens [line] = [] := by
        simp [closeTokens, isConnection]
      rw [noTokens]
      cases isExpect : line.isNamed "expect" with
      | true =>
          have notCoding : line.isNamed "transfer-encoding" = false :=
            HeaderLine.not_isNamed isExpect (by decide)
          have notLength : line.isNamed "content-length" = false :=
            HeaderLine.not_isNamed isExpect (by decide)
          simp [stateBehind, isConnection, isExpect, notCoding, notLength]
      | false =>
          simp [stateBehind, isConnection, isExpect]

/-- What all headers together change. -/
theorem foldl_stateBehind
    (lines : List HeaderLine)
    (state : ContextState) :
    lines.foldl stateBehind state =
      { state with
        close := (closeTokens lines).getLast?.getD state.close
        expect := state.expect || lines.any (·.isNamed "expect") } := by
  induction lines generalizing state with
  | nil =>
      simp [closeTokens]
  | cons line lines inductionHypothesis =>
      have isSplit :
          closeTokens (line :: lines) =
            closeTokens [line] ++ closeTokens lines := by
        simp only [closeTokens, ← List.flatMap_append, ← List.filter_append,
          List.singleton_append]
      rw [List.foldl_cons, inductionHypothesis, stateBehind_eq, isSplit,
        List.getLast?_append, List.any_cons, ← Bool.or_assoc]
      cases (closeTokens lines).getLast? <;> rfl

/-- The method counts as the first of what is asked for. -/
theorem setAll_start
    (raw : RawHead)
    (state : ContextState)
    (codings : List TransferCoding) :
    setAll (raw.start state).2 codings =
      setAll .eof (raw.announced ++ codings) := by
  unfold RawHead.start RawHead.announced
  split_ifs
  · rfl
  · rfl
  · rfl

theorem close_start (raw : RawHead) (state : ContextState) :
    (raw.start state).1.close = !raw.isVersion11 := by
  unfold RawHead.start
  split_ifs <;> rfl

/--
The framing of a request, whatever came before it on the connection.  It is
taken if and only if every header is valid and what the method and the headers
ask for, apart from bodies of no length, is nothing, one decoder, or only
upgrades.  The connection is then to be closed as the last `close` or
`keep-alive` says, or else as the version does.
-/
theorem decodeParsed_framing
    (state : ContextState)
    (raw : RawHead)
    (coding : TransferCoding) :
    ((∃ final, decodeParsed state raw = .ok (final, coding)) ↔
      ∃ codings, announcedAll? raw.isVersion11 raw.headers = some codings ∧
        Frames (raw.announced ++ bearing codings) coding) ∧
      ∀ final, decodeParsed state raw = .ok (final, coding) →
        final.close =
          (closeTokens raw.headers).getLast?.getD (!raw.isVersion11) := by
  constructor
  · have isFraming : ∀ codings,
        announcedAll? raw.isVersion11 raw.headers = some codings →
          (setAll (raw.start state).2 codings = .ok coding ↔
            Frames (raw.announced ++ bearing codings) coding) := by
      intro codings areAnnounced
      have allAnnounced : ∀ coding ∈ raw.announced ++ codings,
          IsAnnounced coding := by
        intro coding isCoding
        rcases List.mem_append.mp isCoding with isMem | isMem
        · unfold RawHead.announced at isMem
          split_ifs at isMem
          · exact .inr (.inl (List.mem_singleton.mp isMem))
          · contradiction
        · exact isAnnounced_of_announcedAll? areAnnounced coding isMem
      have isBearing :
          bearing (raw.announced ++ codings) =
            raw.announced ++ bearing codings := by
        unfold RawHead.announced
        split_ifs
        · rfl
        · rfl
      rw [setAll_start, setAll_eof_eq_ok_iff allAnnounced, isBearing]
    constructor
    · rintro ⟨final, isDecoded⟩
      obtain ⟨codings, areAnnounced, areSet, -⟩ :=
        writeHeaders_eq_ok_iff.mp isDecoded
      exact ⟨codings, areAnnounced, (isFraming codings areAnnounced).mp areSet⟩
    · rintro ⟨codings, areAnnounced, isFramed⟩
      exact ⟨_, writeHeaders_eq_ok_iff.mpr ⟨codings, areAnnounced,
        (isFraming codings areAnnounced).mpr isFramed, rfl⟩⟩
  · intro final isDecoded
    obtain ⟨codings, -, -, rfl⟩ := writeHeaders_eq_ok_iff.mp isDecoded
    rw [foldl_stateBehind, close_start]

end Sweety.H1
