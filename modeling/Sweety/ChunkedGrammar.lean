import Sweety.CodingCuts

namespace Sweety.H1

/-!
# The chunked bodies that the decoder takes

Which bytes are a chunked body for the decoder of the HTTP/1 server: size lines,
data, and lines behind the last chunk.  The decoder ends on a buffer if and only
if the buffer begins with such a body, and leaves what follows it.
-/

open TransferCoding ItemMachine

/-- The value of digits behind those with a value already. -/
def hexFold (total : Nat) : List UInt8 → Nat
  | [] =>
      total
  | digit :: digits =>
      hexFold (total * 16 + (hexDigit? digit).getD 0) digits

theorem le_hexFold (total : Nat) (digits : List UInt8) :
    total ≤ hexFold total digits := by
  induction digits generalizing total with
  | nil =>
      exact Nat.le_refl total
  | cons digit digits inductionHypothesis =>
      exact Nat.le_trans (by omega) (inductionHypothesis _)

theorem hexFold_append (total : Nat) (first second : List UInt8) :
    hexFold total (first ++ second) = hexFold (hexFold total first) second := by
  induction first generalizing total with
  | nil =>
      rfl
  | cons digit digits inductionHypothesis =>
      exact inductionHypothesis _

/-- A line without its end. -/
def Unbroken (line : List UInt8) : Prop :=
  carriageReturn ∉ line ∧ lineFeed ∉ line

/-- What may stand between the size and the end of its line. -/
structure Extension where
  blanks : List UInt8
  text : List UInt8
  isBlank : ∀ byte ∈ blanks, isLws byte = true
  semicolon : text = [] ∨ text.head? = some semicolon
  unbroken : Unbroken text

/-- The extension on the wire. -/
def Extension.bytes (extension : Extension) : List UInt8 :=
  extension.blanks ++ extension.text

/-- A size line; without digits the size is zero. -/
structure SizeLine where
  digits : List UInt8
  extension : Extension
  hexadecimal : ∀ digit ∈ digits, (hexDigit? digit).isSome = true
  bounded : hexFold 0 digits < 2 ^ 64

namespace SizeLine

/-- The size that is announced. -/
def size (line : SizeLine) : Nat :=
  hexFold 0 line.digits

/-- The line on the wire. -/
def bytes (line : SizeLine) : List UInt8 :=
  line.digits ++ line.extension.bytes ++ crlfBytes

end SizeLine

/-- A chunk with some data. -/
structure Chunk where
  line : SizeLine
  data : List UInt8
  nonempty : data ≠ []
  exact : line.size = data.length

/-- A chunk on the wire. -/
def Chunk.bytes (chunk : Chunk) : List UInt8 :=
  chunk.line.bytes ++ chunk.data ++ crlfBytes

/-- A line behind the last chunk; it may hold anything but a `\r`. -/
structure TrailerLine where
  text : List UInt8
  nonempty : text ≠ []
  oneLine : carriageReturn ∉ text

/-- A line behind the last chunk on the wire. -/
def TrailerLine.bytes (line : TrailerLine) : List UInt8 :=
  line.text ++ crlfBytes

/-- A chunked body. -/
structure ChunkedBody where
  chunks : List Chunk
  last : SizeLine
  trailers : List TrailerLine
  zero : last.size = 0

namespace ChunkedBody

/-- A chunked body on the wire. -/
def bytes (body : ChunkedBody) : List UInt8 :=
  body.chunks.flatMap Chunk.bytes ++ body.last.bytes ++
    body.trailers.flatMap TrailerLine.bytes ++ crlfBytes

/-- The data of a chunked body. -/
def data (body : ChunkedBody) : List UInt8 :=
  body.chunks.flatMap Chunk.data

end ChunkedBody

/-! ## What the decoder accepts from where -/

/-- The decoder feeds this data, then the end, and leaves this. -/
def Accepts
    (coding : TransferCoding)
    (src data left : List UInt8) :
    Prop :=
  coding.bytewise src = ⟨data.map .byte ++ [.eof], .eof, left⟩

variable
  {state : ChunkedState}
  {size : Nat}
  {byte : UInt8}
  {src rest data left : List UInt8}

theorem not_accepts_nil
    (notEnded : state ≠ .ended)
    (isDecoding : (decodeChunked state size).Decoding) :
    ¬ Accepts (decodeChunked state size) [] data left := by
  rw [Accepts, bytewise_nil, (reading_decodeChunked isDecoding notEnded).1]
  simp

/-- A byte that is not data: what follows is accepted from the next state. -/
theorem accepts_cons_iff
    {next : ChunkedState}
    (notEnded : state ≠ .ended)
    (notBody : state ≠ .body)
    (isNext : (state.readByte size byte).next = .ok (some next)) :
    Accepts (decodeChunked state size) (byte :: rest) data left ↔
      Accepts (decodeChunked next (state.readByte size byte).size) rest
        data left := by
  have isDecoding : (decodeChunked state size).Decoding :=
    decoding_decodeChunked fun isBody => absurd isBody notBody
  rw [Accepts, bytewise_cons (reading_decodeChunked isDecoding notEnded),
    readByte_decodeChunked notBody isNext, Outcome.after_nil, Accepts]

/-- A byte that is an error: nothing is accepted. -/
theorem not_accepts_cons
    {failure : CodecError}
    (notEnded : state ≠ .ended)
    (notBody : state ≠ .body)
    (isError : (state.readByte size byte).next = .error failure) :
    ¬ Accepts (decodeChunked state size) (byte :: rest) data left := by
  have isDecoding : (decodeChunked state size).Decoding :=
    decoding_decodeChunked fun isBody => absurd isBody notBody
  rw [Accepts, bytewise_cons (reading_decodeChunked isDecoding notEnded),
    readByte_decodeChunked_error notBody isError, bytewise_corrupted]
  intro isSame
  have isState := congrArg Outcome.state isSame
  simp at isState

/-- A state that takes one byte only. -/
theorem accepts_expected_iff
    {next : ChunkedState}
    {expected : UInt8}
    (text : String)
    (notEnded : state ≠ .ended)
    (notBody : state ≠ .body)
    (isExpected : ∀ byte, state.readByte size byte =
      ⟨(ChunkedState.expect expected next text byte).map some, [], size,
        none⟩) :
    Accepts (decodeChunked state size) src data left ↔
      ∃ rest, src = expected :: rest ∧
        Accepts (decodeChunked next size) rest data left := by
  cases src with
  | nil =>
      have never : ¬ Accepts (decodeChunked state size) [] data left :=
        not_accepts_nil notEnded
          (decoding_decodeChunked fun isBody => absurd isBody notBody)
      simp [never]
  | cons byte rest =>
      by_cases isByte : byte = expected
      · subst byte
        have isNext :
            (state.readByte size expected).next = .ok (some next) := by
          rw [isExpected, ChunkedState.expect, if_pos rfl]
          rfl
        rw [accepts_cons_iff notEnded notBody isNext, isExpected]
        simp
      · have isError :
            (state.readByte size byte).next =
              .error ⟨.invalidInput, text⟩ := by
          rw [isExpected, ChunkedState.expect, if_neg isByte]
          rfl
        have never :
            ¬ Accepts (decodeChunked state size) (byte :: rest) data left :=
          not_accepts_cons notEnded notBody isError
        simp [never, isByte]

/-! ## The end of a size line -/

/-- The state behind a size line. -/
def behindSize (size : Nat) : TransferCoding :=
  decodeChunked (if 0 < size then .body else .endCr) size

theorem accepts_sizeLf_iff :
    Accepts (decodeChunked .sizeLf size) src data left ↔
      ∃ rest, src = lineFeed :: rest ∧
        Accepts (behindSize size) rest data left := by
  refine accepts_expected_iff "Invalid chunk size LF" (by decide)
    (by decide) fun byte => ?_
  simp only [ChunkedState.readByte, ChunkedState.step, ChunkedState.withByte,
    ChunkedState.readSizeLf, ChunkedState.expect]
  split_ifs <;> rfl

/-- A state that goes over some bytes, and which state it leaves for which. -/
structure Scans
    (state : ChunkedState)
    (keep : UInt8 → Prop)
    (leave : UInt8 → Option ChunkedState) :
    Prop where
  inside : state ≠ .ended ∧ state ≠ .body
  size_eq : ∀ size byte, (state.readByte size byte).size = size
  stays : ∀ size byte, keep byte →
    (state.readByte size byte).next = .ok (some state)
  leaves : ∀ size byte next, ¬ keep byte → leave byte = some next →
    (state.readByte size byte).next = .ok (some next)
  fails : ∀ size byte, ¬ keep byte → leave byte = none →
    ∃ failure, (state.readByte size byte).next = .error failure

theorem accepts_scan_iff
    {keep : UInt8 → Prop}
    {leave : UInt8 → Option ChunkedState}
    (scans : Scans state keep leave) :
    Accepts (decodeChunked state size) src data left ↔
      ∃ text byte next rest,
        src = text ++ byte :: rest ∧
          (∀ byte ∈ text, keep byte) ∧ ¬ keep byte ∧
            leave byte = some next ∧
              Accepts (decodeChunked next size) rest data left := by
  obtain ⟨⟨notEnded, notBody⟩, sizeEq, stays, leaves, fails⟩ := scans
  induction src with
  | nil =>
      have never : ¬ Accepts (decodeChunked state size) [] data left :=
        not_accepts_nil notEnded
          (decoding_decodeChunked fun isBody => absurd isBody notBody)
      simp [never]
  | cons first others inductionHypothesis =>
      by_cases isKept : keep first
      · rw [accepts_cons_iff notEnded notBody (stays size first isKept),
          sizeEq, inductionHypothesis]
        constructor
        · rintro ⟨text, byte, next, rest, rfl, allKept, isEnd⟩
          exact ⟨first :: text, byte, next, rest, rfl,
            List.forall_mem_cons.mpr ⟨isKept, allKept⟩, isEnd⟩
        · rintro ⟨text, byte, next, rest, isSplit, allKept, notKept, isEnd⟩
          cases text with
          | nil =>
              obtain ⟨rfl, rfl⟩ := List.cons.inj isSplit
              exact absurd isKept notKept
          | cons head text =>
              obtain ⟨rfl, rfl⟩ := List.cons.inj isSplit
              exact ⟨text, byte, next, rest, rfl,
                (List.forall_mem_cons.mp allKept).2, notKept, isEnd⟩
      · have atOnce :
            ∀ text byte rest, first :: others = text ++ byte :: rest →
              (∀ byte ∈ text, keep byte) →
                text = [] ∧ byte = first ∧ rest = others := by
          intro text byte rest isSplit allKept
          cases text with
          | nil =>
              obtain ⟨rfl, rfl⟩ := List.cons.inj isSplit
              exact ⟨rfl, rfl, rfl⟩
          | cons head text =>
              obtain ⟨rfl, -⟩ := List.cons.inj isSplit
              exact absurd (allKept _ List.mem_cons_self) isKept
        cases isLeft : leave first with
        | none =>
            obtain ⟨failure, isError⟩ := fails size first isKept isLeft
            have never :
                ¬ Accepts (decodeChunked state size) (first :: others)
                  data left :=
              not_accepts_cons notEnded notBody isError
            refine iff_of_false never ?_
            rintro ⟨text, byte, next, rest, isSplit, allKept, -, isNext, -⟩
            obtain ⟨-, rfl, -⟩ := atOnce text byte rest isSplit allKept
            rw [isLeft] at isNext
            contradiction
        | some next =>
            rw [accepts_cons_iff notEnded notBody
              (leaves size first next isKept isLeft), sizeEq]
            constructor
            · intro isAccepted
              exact ⟨[], first, next, others, rfl, nofun, isKept, isLeft,
                isAccepted⟩
            · rintro ⟨text, byte, other, rest, isSplit, allKept, -, isNext,
                isAccepted⟩
              obtain ⟨-, rfl, rfl⟩ := atOnce text byte rest isSplit allKept
              rw [isLeft] at isNext
              obtain ⟨rfl⟩ := isNext
              exact isAccepted

theorem scans_extension :
    Scans .extension (fun byte => byte ≠ carriageReturn ∧ byte ≠ lineFeed)
      (fun byte => if byte = carriageReturn then some .sizeLf else none) where
  inside := ⟨nofun, nofun⟩
  size_eq _ _ := rfl
  stays size byte isKept := by
    simp [ChunkedState.readByte, ChunkedState.step, ChunkedState.withByte,
      ChunkedState.readExtension, isKept, Except.map]
  leaves size byte next notKept isNext := by
    simp only [Option.ite_none_right_eq_some, Option.some.injEq] at isNext
    obtain ⟨rfl, rfl⟩ := isNext
    rfl
  fails size byte notKept isNone := by
    simp only [ite_eq_right_iff, reduceCtorEq, imp_false] at isNone
    have isLf : byte = lineFeed := by
      by_contra notLf
      exact notKept ⟨isNone, notLf⟩
    exact ⟨_, by rw [isLf]; rfl⟩

theorem accepts_extension_iff :
    Accepts (decodeChunked .extension size) src data left ↔
      ∃ text rest, src = text ++ crlfBytes ++ rest ∧ Unbroken text ∧
        Accepts (behindSize size) rest data left := by
  rw [accepts_scan_iff scans_extension]
  constructor
  · rintro ⟨text, byte, next, rest, rfl, allKept, -, isNext, isAccepted⟩
    simp only [Option.ite_none_right_eq_some, Option.some.injEq] at isNext
    obtain ⟨rfl, rfl⟩ := isNext
    obtain ⟨rest, rfl, isFollowed⟩ := accepts_sizeLf_iff.mp isAccepted
    refine ⟨text, rest, by simp [crlfBytes], ⟨?_, ?_⟩, isFollowed⟩
    · exact fun isMem => (allKept _ isMem).1 rfl
    · exact fun isMem => (allKept _ isMem).2 rfl
  · rintro ⟨text, rest, rfl, ⟨noCr, noLf⟩, isAccepted⟩
    refine ⟨text, carriageReturn, .sizeLf, lineFeed :: rest,
      by simp [crlfBytes], fun byte isMem => ⟨?_, ?_⟩, by simp, by simp,
      accepts_sizeLf_iff.mpr ⟨rest, rfl, isAccepted⟩⟩
    · rintro rfl
      exact noCr isMem
    · rintro rfl
      exact noLf isMem

/-- The states that a byte behind the size leads to. -/
def leaveSize (byte : UInt8) : Option ChunkedState :=
  if byte = semicolon then
    some .extension
  else if byte = carriageReturn then
    some .sizeLf
  else
    none

theorem scans_sizeLws :
    Scans .sizeLws (fun byte => isLws byte = true) leaveSize where
  inside := ⟨nofun, nofun⟩
  size_eq _ _ := rfl
  stays size byte isKept := by
    simp [ChunkedState.readByte, ChunkedState.step, ChunkedState.withByte,
      ChunkedState.readSizeLws, isKept, Except.map]
  leaves size byte next notKept isNext := by
    simp only [ChunkedState.readByte, ChunkedState.step,
      ChunkedState.withByte, ChunkedState.readSizeLws, if_neg notKept]
    grind [leaveSize, Except.map]
  fails size byte notKept isNone := by
    simp only [ChunkedState.readByte, ChunkedState.step,
      ChunkedState.withByte, ChunkedState.readSizeLws, if_neg notKept]
    unfold leaveSize at isNone
    split_ifs at isNone ⊢
    exact ⟨_, rfl⟩

/-- Behind the size, where `leaveSize` leads: the rest of the size line. -/
theorem accepts_leaveSize_iff :
    (∃ byte next rest, src = byte :: rest ∧ leaveSize byte = some next ∧
        Accepts (decodeChunked next size) rest data left) ↔
      ∃ text rest, src = text ++ crlfBytes ++ rest ∧
        (text = [] ∨ text.head? = some semicolon) ∧ Unbroken text ∧
          Accepts (behindSize size) rest data left := by
  constructor
  · rintro ⟨byte, next, rest, rfl, isNext, isAccepted⟩
    unfold leaveSize at isNext
    split_ifs at isNext with isSemicolon isEnd
    · obtain ⟨rfl⟩ := isNext
      obtain ⟨text, rest, rfl, ⟨noCr, noLf⟩, isFollowed⟩ :=
        accepts_extension_iff.mp isAccepted
      refine ⟨byte :: text, rest, rfl, .inr (by simp [isSemicolon]), ?_,
        isFollowed⟩
      subst byte
      exact ⟨by simp [noCr]; decide, by simp [noLf]; decide⟩
    · obtain ⟨rfl⟩ := isNext
      obtain ⟨rest, rfl, isFollowed⟩ := accepts_sizeLf_iff.mp isAccepted
      exact ⟨[], rest, by simp [crlfBytes, isEnd], .inl rfl,
        ⟨by simp, by simp⟩, isFollowed⟩
  · rintro ⟨text, rest, rfl, starts, ⟨noCr, noLf⟩, isAccepted⟩
    cases text with
    | nil =>
        exact ⟨carriageReturn, .sizeLf, lineFeed :: rest, rfl, rfl,
          accepts_sizeLf_iff.mpr ⟨rest, rfl, isAccepted⟩⟩
    | cons byte text =>
        obtain rfl : byte = semicolon := by
          simpa using starts
        have isUnbroken : Unbroken text :=
          ⟨fun isMem => noCr (List.mem_cons_of_mem _ isMem),
            fun isMem => noLf (List.mem_cons_of_mem _ isMem)⟩
        exact ⟨semicolon, .extension, text ++ crlfBytes ++ rest, rfl, rfl,
          accepts_extension_iff.mpr
            ⟨text, rest, rfl, isUnbroken, isAccepted⟩⟩

/-- Behind the first blank: the rest of the size line. -/
theorem accepts_sizeLws_iff :
    Accepts (decodeChunked .sizeLws size) src data left ↔
      ∃ extension : Extension, ∃ rest,
        src = extension.bytes ++ crlfBytes ++ rest ∧
          Accepts (behindSize size) rest data left := by
  rw [accepts_scan_iff scans_sizeLws]
  constructor
  · rintro ⟨blanks, byte, next, rest, rfl, areBlank, -, isNext, isAccepted⟩
    obtain ⟨text, others, isSplit, starts, isUnbroken, isFollowed⟩ :=
      accepts_leaveSize_iff.mp ⟨byte, next, rest, rfl, isNext, isAccepted⟩
    refine ⟨⟨blanks, text, areBlank, starts, isUnbroken⟩, others, ?_,
      isFollowed⟩
    simp [Extension.bytes, isSplit]
  · rintro ⟨⟨blanks, text, areBlank, starts, isUnbroken⟩, rest, rfl,
      isAccepted⟩
    obtain ⟨byte, next, tail, isSplit, isNext, isAccepted⟩ :=
      accepts_leaveSize_iff.mpr
        ⟨text, rest, rfl, starts, isUnbroken, isAccepted⟩
    refine ⟨blanks, byte, next, tail, ?_, areBlank, ?_, isNext, isAccepted⟩
    · simp [Extension.bytes, ← isSplit]
    · intro isBlank
      unfold leaveSize at isNext
      split_ifs at isNext with isSemicolon isEnd
      · subst byte
        revert isBlank
        decide
      · subst byte
        revert isBlank
        decide

/-- The extension with a blank before it. -/
def Extension.behindBlank
    (extension : Extension)
    (isBlank : isLws byte = true) :
    Extension :=
  { extension with
    blanks := byte :: extension.blanks
    isBlank := List.forall_mem_cons.mpr ⟨isBlank, extension.isBlank⟩ }

/-- An extension begins with a blank, or it is its text. -/
theorem Extension.first_cases
    (extension : Extension)
    (isFirst : byte :: rest = extension.bytes ++ crlfBytes ++ src) :
    (∃ isBlank : isLws byte = true, ∃ others : Extension,
        extension = others.behindBlank isBlank ∧
          rest = others.bytes ++ crlfBytes ++ src) ∨
      extension.blanks = [] ∧ isLws byte = false ∧
        (leaveSize byte).isSome = true := by
  obtain ⟨blanks, text, areBlank, starts, isUnbroken⟩ := extension
  cases blanks with
  | cons blank blanks =>
      obtain ⟨rfl, rfl⟩ := List.cons.inj isFirst
      obtain ⟨isBlank, othersBlank⟩ := List.forall_mem_cons.mp areBlank
      exact .inl ⟨isBlank, ⟨blanks, text, othersBlank, starts, isUnbroken⟩,
        rfl, rfl⟩
  | nil =>
      right
      cases text with
      | nil =>
          obtain ⟨rfl, -⟩ := List.cons.inj isFirst
          exact ⟨rfl, by decide, by decide⟩
      | cons head text =>
          obtain ⟨rfl, -⟩ := List.cons.inj isFirst
          obtain rfl : byte = H1.semicolon := by
            simpa using starts
          exact ⟨rfl, by decide, by decide⟩

/-- In front of the size, at a byte that is no digit. -/
theorem readByte_size_of_notDigit
    (notDigit : hexDigit? byte = none) :
    (ChunkedState.size.readByte size byte).size = size ∧
      (isLws byte = true →
        (ChunkedState.size.readByte size byte).next = .ok (some .sizeLws)) ∧
      (isLws byte = false → ∀ next, leaveSize byte = some next →
        (ChunkedState.size.readByte size byte).next = .ok (some next)) ∧
      (isLws byte = false → leaveSize byte = none → ∃ failure,
        (ChunkedState.size.readByte size byte).next = .error failure) := by
  simp only [ChunkedState.readByte, ChunkedState.step,
    ChunkedState.readSize, notDigit, leaveSize]
  cases isLws byte with
  | true =>
      simp
  | false =>
      simp only [Bool.false_eq_true, reduceIte]
      split_ifs <;> simp

theorem accepts_size_of_notDigit
    (notDigit : hexDigit? byte = none) :
    Accepts (decodeChunked .size size) (byte :: rest) data left ↔
      ∃ extension : Extension, ∃ others,
        byte :: rest = extension.bytes ++ crlfBytes ++ others ∧
          Accepts (behindSize size) others data left := by
  obtain ⟨staysSize, blank, leaves, fails⟩ :=
    @readByte_size_of_notDigit size _ notDigit
  cases isBlank : isLws byte with
  | true =>
      rw [accepts_cons_iff (by decide) (by decide) (blank isBlank), staysSize,
        accepts_sizeLws_iff]
      constructor
      · rintro ⟨extension, others, rfl, isFollowed⟩
        exact ⟨extension.behindBlank isBlank, others, rfl, isFollowed⟩
      · rintro ⟨extension, others, isFirst, isFollowed⟩
        rcases extension.first_cases isFirst with
          ⟨_, shorter, -, isRest⟩ | ⟨-, notBlank, -⟩
        · exact ⟨shorter, others, isRest, isFollowed⟩
        · rw [isBlank] at notBlank
          contradiction
  | false =>
      cases isLeft : leaveSize byte with
      | none =>
          obtain ⟨failure, isError⟩ := fails isBlank isLeft
          have never :
              ¬ Accepts (decodeChunked .size size) (byte :: rest) data left :=
            not_accepts_cons (by decide) (by decide) isError
          refine iff_of_false never ?_
          rintro ⟨extension, others, isFirst, -⟩
          rcases extension.first_cases isFirst with
            ⟨isAlso, -⟩ | ⟨-, -, leavesSome⟩
          · rw [isBlank] at isAlso
            contradiction
          · rw [isLeft] at leavesSome
            contradiction
      | some next =>
          rw [accepts_cons_iff (by decide) (by decide) (leaves isBlank next isLeft),
            staysSize]
          constructor
          · intro isAccepted
            obtain ⟨text, others, isSplit, starts, isUnbroken, isFollowed⟩ :=
              accepts_leaveSize_iff.mp
                ⟨byte, next, rest, rfl, isLeft, isAccepted⟩
            exact ⟨⟨[], text, nofun, starts, isUnbroken⟩, others, isSplit,
              isFollowed⟩
          · rintro ⟨extension, others, isFirst, isFollowed⟩
            rcases extension.first_cases isFirst with
              ⟨isAlso, -⟩ | ⟨noBlanks, -, -⟩
            · rw [isBlank] at isAlso
              contradiction
            · rw [Extension.bytes, noBlanks] at isFirst
              obtain ⟨_, other, tail, isSplit, isNext, isAccepted⟩ :=
                accepts_leaveSize_iff.mpr ⟨extension.text, others, isFirst,
                  extension.semicolon, extension.unbroken, isFollowed⟩
              obtain ⟨rfl, rfl⟩ := List.cons.inj isSplit
              rw [isLeft] at isNext
              obtain ⟨rfl⟩ := isNext
              exact isAccepted

/-- A digit of the size is added to it, or is one too many. -/
theorem readByte_size_of_digit
    {digit : Nat}
    (isDigit : hexDigit? byte = some digit) :
    (size * 16 + digit < 2 ^ 64 →
      ChunkedState.size.readByte size byte =
        ⟨.ok (some .size), [], size * 16 + digit, none⟩) ∧
      (¬ size * 16 + digit < 2 ^ 64 → ∃ failure,
        (ChunkedState.size.readByte size byte).next = .error failure) := by
  simp only [ChunkedState.readByte, ChunkedState.step,
    ChunkedState.readSize, isDigit, checkedMul, checkedAdd]
  by_cases fits : size * 16 + digit < 2 ^ 64
  · have fitsFirst : size * 16 < 2 ^ 64 := by
      omega
    refine ⟨fun _ => ?_, fun isOver => absurd fits isOver⟩
    simp only [if_pos fitsFirst, if_pos fits]
  · refine ⟨fun isUnder => absurd isUnder fits, fun _ => ?_⟩
    by_cases fitsFirst : size * 16 < 2 ^ 64
    · simp only [if_pos fitsFirst, if_neg fits]
      exact ⟨_, rfl⟩
    · simp only [if_neg fitsFirst]
      exact ⟨_, rfl⟩

/-- What may stand behind the size is no digit. -/
theorem hexDigit?_of_extension
    {extension : Extension}
    (isFirst : byte :: rest = extension.bytes ++ crlfBytes ++ src) :
    hexDigit? byte = none := by
  rcases extension.first_cases isFirst with
    ⟨isBlank, -⟩ | ⟨-, -, leavesSome⟩
  · simp only [isLws, Bool.or_eq_true, beq_iff_eq] at isBlank
    rcases isBlank with rfl | rfl
    · rfl
    · rfl
  · unfold leaveSize at leavesSome
    split_ifs at leavesSome with isSemicolon isEnd
    · subst byte
      rfl
    · subst byte
      rfl
    · contradiction

/-- In front of more digits of the size: the rest of the size line. -/
theorem accepts_size_iff
    (isBounded : size < 2 ^ 64) :
    Accepts (decodeChunked .size size) src data left ↔
      ∃ digits, ∃ extension : Extension, ∃ rest,
        src = digits ++ extension.bytes ++ crlfBytes ++ rest ∧
          (∀ digit ∈ digits, (hexDigit? digit).isSome = true) ∧
            hexFold size digits < 2 ^ 64 ∧
              Accepts (behindSize (hexFold size digits)) rest data left := by
  induction src generalizing size with
  | nil =>
      have never : ¬ Accepts (decodeChunked .size size) [] data left :=
        not_accepts_nil (by decide) trivial
      simp [never, crlfBytes]
  | cons byte rest inductionHypothesis =>
      cases isDigit : hexDigit? byte with
      | none =>
          rw [accepts_size_of_notDigit isDigit]
          constructor
          · rintro ⟨extension, others, isSplit, isFollowed⟩
            exact ⟨[], extension, others, isSplit, nofun, isBounded,
              isFollowed⟩
          · rintro ⟨digits, extension, others, isSplit, areDigits, -,
              isFollowed⟩
            cases digits with
            | nil =>
                exact ⟨extension, others, isSplit, isFollowed⟩
            | cons head digits =>
                obtain ⟨rfl, -⟩ := List.cons.inj isSplit
                have isSome := areDigits _ List.mem_cons_self
                rw [isDigit] at isSome
                contradiction
      | some digit =>
          obtain ⟨grows, overflows⟩ :=
            @readByte_size_of_digit size _ _ isDigit
          have startsWithDigit :
              ∀ digits, ∀ extension : Extension, ∀ others,
                byte :: rest =
                    digits ++ extension.bytes ++ crlfBytes ++ others →
                  ∃ more, digits = byte :: more ∧
                    rest = more ++ extension.bytes ++ crlfBytes ++ others := by
            intro digits extension others isSplit
            cases digits with
            | cons head digits =>
                obtain ⟨rfl, rfl⟩ := List.cons.inj isSplit
                exact ⟨digits, rfl, rfl⟩
            | nil =>
                rw [List.nil_append] at isSplit
                rw [hexDigit?_of_extension isSplit] at isDigit
                contradiction
          have folds : ∀ digits,
              hexFold size (byte :: digits) =
                hexFold (size * 16 + digit) digits := by
            intro digits
            rw [hexFold, isDigit]
            rfl
          by_cases fits : size * 16 + digit < 2 ^ 64
          · rw [accepts_cons_iff (by decide) (by decide)
              (congrArg ChunkedState.Stepped.next (grows fits)),
              grows fits, inductionHypothesis fits]
            constructor
            · rintro ⟨digits, extension, others, rfl, areDigits, isFolded,
                isFollowed⟩
              refine ⟨byte :: digits, extension, others, rfl,
                List.forall_mem_cons.mpr ⟨by simp [isDigit], areDigits⟩, ?_⟩
              rw [folds]
              exact ⟨isFolded, isFollowed⟩
            · rintro ⟨digits, extension, others, isSplit, areDigits, isFolded,
                isFollowed⟩
              obtain ⟨more, rfl, isRest⟩ :=
                startsWithDigit digits extension others isSplit
              rw [folds] at isFolded isFollowed
              exact ⟨more, extension, others, isRest,
                (List.forall_mem_cons.mp areDigits).2, isFolded, isFollowed⟩
          · obtain ⟨failure, isError⟩ := overflows fits
            have never :
                ¬ Accepts (decodeChunked .size size) (byte :: rest)
                  data left :=
              not_accepts_cons (by decide) (by decide) isError
            refine iff_of_false never ?_
            rintro ⟨digits, extension, others, isSplit, -, isFolded, -⟩
            obtain ⟨more, rfl, -⟩ :=
              startsWithDigit digits extension others isSplit
            rw [folds] at isFolded
            have atLeast := le_hexFold (size * 16 + digit) more
            omega

/-- In front of a size line: it, and what follows it. -/
theorem accepts_sizeLine_iff :
    Accepts (decodeChunked .size 0) src data left ↔
      ∃ line : SizeLine, ∃ rest, src = line.bytes ++ rest ∧
        Accepts (behindSize line.size) rest data left := by
  rw [accepts_size_iff (by decide)]
  constructor
  · rintro ⟨digits, extension, rest, rfl, areDigits, isBounded, isFollowed⟩
    exact ⟨⟨digits, extension, areDigits, isBounded⟩, rest,
      by simp [SizeLine.bytes], isFollowed⟩
  · rintro ⟨line, rest, rfl, isFollowed⟩
    exact ⟨line.digits, line.extension, rest, by simp [SizeLine.bytes],
      line.hexadecimal, line.bounded, isFollowed⟩

/-! ## Chunk data -/

theorem accepts_bodyCr_iff :
    Accepts (decodeChunked .bodyCr size) src data left ↔
      ∃ rest, src = crlfBytes ++ rest ∧
        Accepts (decodeChunked .size size) rest data left := by
  rw [accepts_expected_iff "Invalid chunk body CR" (by decide) (by decide)
    fun byte => rfl]
  constructor
  · rintro ⟨rest, rfl, isFollowed⟩
    rw [accepts_expected_iff "Invalid chunk body LF" (by decide) (by decide)
      fun byte => rfl] at isFollowed
    obtain ⟨rest, rfl, isFollowed⟩ := isFollowed
    exact ⟨rest, rfl, isFollowed⟩
  · rintro ⟨rest, rfl, isFollowed⟩
    refine ⟨lineFeed :: rest, rfl, ?_⟩
    rw [accepts_expected_iff "Invalid chunk body LF" (by decide) (by decide)
      fun byte => rfl]
    exact ⟨rest, rfl, isFollowed⟩

/-- In chunk data a byte is the first of the data. -/
theorem accepts_body_cons_iff :
    Accepts (decodeChunked .body (size + 1)) (byte :: rest) data left ↔
      ∃ more, data = byte :: more ∧
        Accepts (decodeChunked .body size) rest more left := by
  have isRead :
      (decodeChunked .body (size + 1)).bytewise (byte :: rest) =
        ((decodeChunked .body size).bytewise rest).after [.byte byte] :=
    bytewise_cons ⟨rfl, by simp, by simp⟩ byte rest
  rw [Accepts, isRead]
  constructor
  · intro isSame
    have isOut := congrArg Outcome.out isSame
    have isState := congrArg Outcome.state isSame
    have isLeft := congrArg Outcome.rest isSame
    cases data with
    | nil =>
        simp at isOut
    | cons head more =>
        simp only [Outcome.out_after, List.map_cons, List.cons_append,
          List.nil_append, List.cons.injEq, FedItem.byte.injEq] at isOut
        obtain ⟨rfl, isOut⟩ := isOut
        exact ⟨more, rfl, Outcome.ext isOut isState isLeft⟩
  · rintro ⟨more, rfl, isMade⟩
    rw [Accepts] at isMade
    rw [isMade]
    rfl

/-- In chunk data: the rest of it, its line end, and more chunks. -/
theorem accepts_body_iff :
    Accepts (decodeChunked .body size) src data left ↔
      ∃ piece more rest, src = piece ++ crlfBytes ++ rest ∧
        piece.length = size ∧ data = piece ++ more ∧
          Accepts (decodeChunked .size 0) rest more left := by
  induction size generalizing src data with
  | zero =>
      have isBehind :
          Accepts (decodeChunked .body 0) src data left ↔
            Accepts (decodeChunked .bodyCr 0) src data left := Iff.rfl
      rw [isBehind, accepts_bodyCr_iff]
      constructor
      · rintro ⟨rest, rfl, isFollowed⟩
        exact ⟨[], data, rest, rfl, rfl, rfl, isFollowed⟩
      · rintro ⟨piece, more, rest, rfl, isEmpty, rfl, isFollowed⟩
        obtain rfl := List.length_eq_zero_iff.mp isEmpty
        exact ⟨rest, rfl, isFollowed⟩
  | succ size inductionHypothesis =>
      cases src with
      | nil =>
          have never :
              ¬ Accepts (decodeChunked .body (size + 1)) [] data left :=
            not_accepts_nil (by decide) (Nat.succ_pos size)
          simp [never, crlfBytes]
      | cons byte others =>
          rw [accepts_body_cons_iff]
          constructor
          · rintro ⟨data, rfl, isMade⟩
            obtain ⟨piece, more, rest, rfl, rfl, rfl, isFollowed⟩ :=
              inductionHypothesis.mp isMade
            exact ⟨byte :: piece, more, rest, rfl, rfl, rfl, isFollowed⟩
          · rintro ⟨piece, more, rest, isSplit, isLength, rfl, isFollowed⟩
            cases piece with
            | nil =>
                contradiction
            | cons head piece =>
                obtain ⟨rfl, rfl⟩ := List.cons.inj isSplit
                exact ⟨piece ++ more, rfl, inductionHypothesis.mpr
                  ⟨piece, more, rest, rfl, Nat.succ.inj isLength, rfl,
                    isFollowed⟩⟩

/-! ## Behind the last chunk -/

theorem scans_trailer :
    Scans .trailer (fun byte => byte ≠ carriageReturn)
      (fun _ => some .trailerLf) where
  inside := ⟨nofun, nofun⟩
  size_eq _ _ := rfl
  stays size byte isKept := by
    simp [ChunkedState.readByte, ChunkedState.step, ChunkedState.withByte,
      ChunkedState.readTrailer, isKept, Except.map]
  leaves size byte next notKept isNext := by
    obtain rfl : byte = carriageReturn := by
      simpa using notKept
    obtain ⟨rfl⟩ := isNext
    rfl
  fails _ _ _ isNone := by
    contradiction

theorem accepts_trailer_iff :
    Accepts (decodeChunked .trailer size) src data left ↔
      ∃ text rest, src = text ++ crlfBytes ++ rest ∧
        carriageReturn ∉ text ∧
          Accepts (decodeChunked .endCr size) rest data left := by
  rw [accepts_scan_iff scans_trailer]
  constructor
  · rintro ⟨text, byte, next, rest, rfl, allKept, isEnd, ⟨rfl⟩, isAccepted⟩
    rw [accepts_expected_iff "Invalid trailer end LF" (by decide) (by decide)
      fun byte => rfl] at isAccepted
    obtain ⟨rest, rfl, isFollowed⟩ := isAccepted
    obtain rfl : byte = carriageReturn := by
      simpa using isEnd
    exact ⟨text, rest, by simp [crlfBytes],
      fun isMem => allKept _ isMem rfl, isFollowed⟩
  · rintro ⟨text, rest, rfl, noCr, isFollowed⟩
    refine ⟨text, carriageReturn, .trailerLf, lineFeed :: rest,
      by simp [crlfBytes], fun byte isMem => ?_, by simp, rfl, ?_⟩
    · rintro rfl
      exact noCr isMem
    · rw [accepts_expected_iff "Invalid trailer end LF" (by decide)
        (by decide) fun byte => rfl]
      exact ⟨rest, rfl, isFollowed⟩

theorem accepts_ended_iff :
    Accepts (decodeChunked .ended size) src data left ↔
      data = [] ∧ src = left := by
  rw [Accepts, bytewise_ended]
  constructor
  · intro isSame
    have isOut := congrArg Outcome.out isSame
    have isLeft := congrArg Outcome.rest isSame
    cases data with
    | nil =>
        exact ⟨rfl, isLeft⟩
    | cons head more =>
        simp at isOut
  · rintro ⟨rfl, rfl⟩
    rfl

theorem scans_endCr :
    Scans .endCr (fun _ => False)
      (fun byte => some
        (if byte = carriageReturn then .endLf else .trailer)) where
  inside := ⟨nofun, nofun⟩
  size_eq _ _ := rfl
  stays _ _ isKept := isKept.elim
  leaves size byte next _ isNext := by
    obtain ⟨rfl⟩ := isNext
    simp only [ChunkedState.readByte, ChunkedState.step,
      ChunkedState.withByte, ChunkedState.readEndCr]
    split_ifs
    · rfl
    · rfl
  fails _ _ _ isNone := by
    contradiction

/-- At a line end: nothing more, or another line. -/
theorem accepts_endCr_iff :
    Accepts (decodeChunked .endCr size) src data left ↔
      (data = [] ∧ src = crlfBytes ++ left) ∨
        ∃ line : TrailerLine, ∃ rest, src = line.bytes ++ rest ∧
          Accepts (decodeChunked .endCr size) rest data left := by
  rw [accepts_scan_iff scans_endCr]
  constructor
  · rintro ⟨text, byte, next, rest, rfl, noneKept, -, ⟨rfl⟩, isAccepted⟩
    obtain rfl := List.eq_nil_iff_forall_not_mem.mpr noneKept
    by_cases isEnd : byte = carriageReturn
    · left
      rw [if_pos isEnd, accepts_expected_iff "Invalid chunk end LF"
        (by decide) (by decide) fun byte => rfl] at isAccepted
      obtain ⟨rest, rfl, isFollowed⟩ := isAccepted
      obtain ⟨rfl, rfl⟩ := accepts_ended_iff.mp isFollowed
      exact ⟨rfl, by rw [isEnd]; rfl⟩
    · right
      rw [if_neg isEnd, accepts_trailer_iff] at isAccepted
      obtain ⟨text, rest, rfl, noCr, isFollowed⟩ := isAccepted
      have oneLine : carriageReturn ∉ byte :: text := by
        simp [noCr, Ne.symm isEnd]
      exact ⟨⟨byte :: text, List.cons_ne_nil byte text, oneLine⟩, rest,
        by simp [TrailerLine.bytes], isFollowed⟩
  · rintro (⟨rfl, rfl⟩ | ⟨⟨text, nonempty, oneLine⟩, rest, rfl, isFollowed⟩)
    · refine ⟨[], carriageReturn, .endLf, lineFeed :: left, rfl, nofun, id,
        rfl, ?_⟩
      rw [accepts_expected_iff "Invalid chunk end LF" (by decide) (by decide)
        fun byte => rfl]
      exact ⟨left, rfl, accepts_ended_iff.mpr ⟨rfl, rfl⟩⟩
    · cases text with
      | nil =>
          contradiction
      | cons byte text =>
          obtain ⟨notEnd, noCr⟩ := not_or.mp (List.mem_cons.not.mp oneLine)
          refine ⟨[], byte, .trailer, text ++ crlfBytes ++ rest,
            by simp [TrailerLine.bytes], nofun, id, ?_, ?_⟩
          · rw [if_neg (Ne.symm notEnd)]
          · exact accepts_trailer_iff.mpr
              ⟨text, rest, rfl, noCr, isFollowed⟩

/-- Behind the last chunk: lines, and an empty line. -/
theorem accepts_end_iff :
    Accepts (decodeChunked .endCr size) src data left ↔
      data = [] ∧ ∃ lines : List TrailerLine,
        src = lines.flatMap TrailerLine.bytes ++ crlfBytes ++ left := by
  constructor
  · induction isLength : src.length using Nat.strongRecOn
      generalizing src with
    | _ length inductionHypothesis =>
        intro isAccepted
        rcases accepts_endCr_iff.mp isAccepted with
          ⟨rfl, rfl⟩ | ⟨line, rest, rfl, isFollowed⟩
        · exact ⟨rfl, [], rfl⟩
        · have isShorter : rest.length < length := by
            simp only [← isLength, TrailerLine.bytes, crlfBytes,
              List.length_append, List.length_cons]
            omega
          obtain ⟨rfl, lines, rfl⟩ :=
            inductionHypothesis rest.length isShorter rfl isFollowed
          exact ⟨rfl, line :: lines, by simp⟩
  · rintro ⟨rfl, lines, rfl⟩
    induction lines with
    | nil =>
        exact accepts_endCr_iff.mpr (.inl ⟨rfl, rfl⟩)
    | cons line lines inductionHypothesis =>
        exact accepts_endCr_iff.mpr
          (.inr ⟨line, _, by simp, inductionHypothesis⟩)

/-! ## Whole bodies -/

/-- In front of a size line: the last chunk and the end, or a chunk. -/
theorem accepts_chunk_iff :
    Accepts (decodeChunked .size 0) src data left ↔
      (∃ line : SizeLine, ∃ lines : List TrailerLine,
        line.size = 0 ∧ data = [] ∧
          src = line.bytes ++ lines.flatMap TrailerLine.bytes ++ crlfBytes ++
            left) ∨
        ∃ chunk : Chunk, ∃ more rest,
          src = chunk.bytes ++ rest ∧ data = chunk.data ++ more ∧
            Accepts (decodeChunked .size 0) rest more left := by
  rw [accepts_sizeLine_iff]
  constructor
  · rintro ⟨line, rest, rfl, isFollowed⟩
    unfold behindSize at isFollowed
    split_ifs at isFollowed with isPositive
    · right
      obtain ⟨piece, more, rest, rfl, exact, rfl, isBehind⟩ :=
        accepts_body_iff.mp isFollowed
      have nonempty : piece ≠ [] :=
        List.length_pos_iff.mp (exact ▸ isPositive)
      exact ⟨⟨line, piece, nonempty, exact.symm⟩, more, rest,
        by simp [Chunk.bytes], rfl, isBehind⟩
    · left
      obtain ⟨rfl, lines, rfl⟩ := accepts_end_iff.mp isFollowed
      exact ⟨line, lines, Nat.eq_zero_of_not_pos isPositive, rfl, by simp⟩
  · rintro (⟨line, lines, isZero, rfl, rfl⟩ |
      ⟨⟨line, piece, nonempty, exact⟩, more, rest, rfl, rfl, isFollowed⟩)
    · refine ⟨line, lines.flatMap TrailerLine.bytes ++ crlfBytes ++ left,
        by simp, ?_⟩
      rw [behindSize, isZero]
      exact accepts_end_iff.mpr ⟨rfl, lines, rfl⟩
    · refine ⟨line, piece ++ crlfBytes ++ rest, by simp [Chunk.bytes], ?_⟩
      have isPositive : 0 < line.size := by
        rw [exact]
        exact List.length_pos_iff.mpr nonempty
      rw [behindSize, if_pos isPositive]
      exact accepts_body_iff.mpr
        ⟨piece, more, rest, rfl, exact.symm, rfl, isFollowed⟩

/--
The decoder feeds some data and the end of the body exactly when the buffer
begins with a chunked body with this data, and leaves exactly what follows it.
-/
theorem accepts_iff_chunkedBody
    (src data left : List UInt8) :
    Accepts (decodeChunked .size 0) src data left ↔
      ∃ body : ChunkedBody, body.bytes ++ left = src ∧ body.data = data := by
  constructor
  · induction isLength : src.length using Nat.strongRecOn
      generalizing src data with
    | _ length inductionHypothesis =>
        intro isAccepted
        rcases accepts_chunk_iff.mp isAccepted with
          ⟨line, lines, isZero, rfl, rfl⟩ |
            ⟨chunk, more, rest, rfl, rfl, isFollowed⟩
        · exact ⟨⟨[], line, lines, isZero⟩, by simp [ChunkedBody.bytes], rfl⟩
        · have isShorter : rest.length < length := by
            simp only [← isLength, Chunk.bytes, crlfBytes,
              List.length_append, List.length_cons]
            omega
          obtain ⟨⟨chunks, last, trailers, zero⟩, rfl, rfl⟩ :=
            inductionHypothesis rest.length isShorter rest more rfl isFollowed
          exact ⟨⟨chunk :: chunks, last, trailers, zero⟩,
            by simp [ChunkedBody.bytes], by simp [ChunkedBody.data]⟩
  · rintro ⟨⟨chunks, last, trailers, zero⟩, rfl, rfl⟩
    induction chunks with
    | nil =>
        exact accepts_chunk_iff.mpr
          (.inl ⟨last, trailers, zero, rfl, by simp [ChunkedBody.bytes]⟩)
    | cons chunk chunks inductionHypothesis =>
        exact accepts_chunk_iff.mpr (.inr ⟨chunk, _, _,
          by simp [ChunkedBody.bytes], by simp [ChunkedBody.data],
          inductionHypothesis⟩)

/--
A request body in the chunked coding, in any segments: the data and the end are
fed exactly when what arrived begins with a chunked body with this data, and
what follows the body is left for the next request.
-/
theorem feedSegments_iff_chunkedBody
    (segments : List (List UInt8))
    (data left : List UInt8) :
    (∃ fed,
      feedSegments (decodeChunked .size 0) [] segments =
          some (fed, .eof, left) ∧
        fed.flatMap Fed.items = data.map .byte ++ [.eof]) ↔
      ∃ body : ChunkedBody,
        body.bytes ++ left = segments.flatten ∧ body.data = data := by
  have isAwaiting : (decodeChunked .size 0).Awaiting := ⟨trivial, rfl⟩
  obtain ⟨fed, final, last, isFed, isPieces⟩ :=
    feedSegments_eq_runPieces isAwaiting [] segments
  rw [runPieces_eq rfl, List.nil_append, ← isAwaiting.bytewise_eq] at isPieces
  rw [← accepts_iff_chunkedBody, Accepts, isPieces, isFed]
  constructor
  · rintro ⟨other, isSame, isData⟩
    obtain ⟨rfl, rfl, rfl⟩ : fed = other ∧ final = .eof ∧ last = left := by
      simpa using isSame
    rw [isData]
  · intro isSame
    obtain ⟨isData, rfl, rfl⟩ := (Outcome.mk.injEq ..).mp isSame
    exact ⟨fed, rfl, isData⟩

end Sweety.H1
