import Mathlib.Algebra.GroupWithZero.Nat
import Mathlib.Data.List.Basic
import Mathlib.Tactic.Common

namespace Sweety.H1

/-!
# The transfer codings of the HTTP/1 server

Model of `h1/proto/codec.rs` of the HTTP core: the coder that takes the body of
a request off the read buffer and puts the body of a response into the write
buffer, and `BodyReader::ready` of `h1/dispatcher.rs`, which decodes what the
read buffer holds.  A `u64` is a number below `2 ^ 64`; `unreachable!` is `none`.
-/

/-- `enum ChunkedState`: what the decoder of chunked bodies reads next. -/
inductive ChunkedState where
  | size
  | sizeLws
  | extension
  | sizeLf
  | body
  | bodyCr
  | bodyLf
  | trailer
  | trailerLf
  | endCr
  | endLf
  /-- `End`. -/
  | ended
  deriving Repr, DecidableEq

/-- `enum TransferCoding`. -/
inductive TransferCoding where
  | eof
  | corrupted
  | length (rem : Nat)
  | decodeChunked (state : ChunkedState) (size : Nat)
  | encodeChunked
  | upgrade
  deriving Repr, DecidableEq

/-- `enum ProtoError`. -/
inductive ProtoError where
  | headerName
  | headerValue
  | headerTooLarge
  | method
  | uri
  | newLine
  | status
  | token
  | version
  deriving Repr, DecidableEq

/-- The kinds of `io::Error` that the decoder returns. -/
inductive CodecErrorKind where
  | invalidData
  | invalidInput
  deriving Repr, DecidableEq

/-- An `io::Error` of the decoder: its kind and its text. -/
structure CodecError where
  kind : CodecErrorKind
  text : String
  deriving Repr, DecidableEq

/-- `u64::checked_mul`. -/
def checkedMul (first second : Nat) : Option Nat :=
  if first * second < 2 ^ 64 then some (first * second) else none

/-- `u64::checked_add`. -/
def checkedAdd (first second : Nat) : Option Nat :=
  if first + second < 2 ^ 64 then some (first + second) else none

/-- The bytes of an ASCII text. -/
def asciiBytes (text : String) : List UInt8 :=
  text.toList.map fun char => UInt8.ofNat char.toNat

/-- `\r`. -/
def carriageReturn : UInt8 := 13

/-- `\n`. -/
def lineFeed : UInt8 := 10

/-- `;`. -/
def semicolon : UInt8 := 59

/-- `\t` or a blank. -/
def isLws (byte : UInt8) : Bool :=
  byte == 9 || byte == 32

/-- The value of a hexadecimal digit. -/
def hexDigit? (byte : UInt8) : Option Nat :=
  if 48 ≤ byte ∧ byte ≤ 57 then
    some (byte.toNat - 48)
  else if 97 ≤ byte ∧ byte ≤ 102 then
    some (byte.toNat + 10 - 97)
  else if 65 ≤ byte ∧ byte ≤ 70 then
    some (byte.toNat + 10 - 65)
  else
    none

/-- `bounded_split`: what is taken, what is left of `rem`, and of the buffer. -/
def boundedSplit (rem : Nat) (buf : List UInt8) :
    List UInt8 × Nat × List UInt8 :=
  if buf.length ≤ rem then
    (buf, rem - buf.length, [])
  else
    (buf.take rem, 0, buf.drop rem)

namespace ChunkedState

/-- What a step leaves; `next` is `ok none` if the buffer is used up. -/
structure Stepped where
  next : Except CodecError (Option ChunkedState)
  rdr : List UInt8
  size : Nat
  buf : Option (List UInt8) := none
  deriving DecidableEq

/-- `byte!`, and then what `read` makes of the byte. -/
def withByte
    (rdr : List UInt8)
    (size : Nat)
    (read : UInt8 → Except CodecError ChunkedState) :
    Stepped :=
  match rdr with
  | [] =>
      ⟨.ok none, [], size, none⟩
  | byte :: rest =>
      ⟨(read byte).map some, rest, size, none⟩

/-- `or_overflow!`. -/
def overflow : CodecError :=
  ⟨.invalidData, "invalid chunk size: overflow"⟩

/-- `read_size`. -/
def readSize (rdr : List UInt8) (size : Nat) : Stepped :=
  match rdr with
  | [] =>
      ⟨.ok none, [], size, none⟩
  | byte :: rest =>
      match hexDigit? byte with
      | some digit =>
          match checkedMul size 16 with
          | none =>
              ⟨.error overflow, rest, size, none⟩
          | some scaled =>
              match checkedAdd scaled digit with
              | none =>
                  ⟨.error overflow, rest, scaled, none⟩
              | some sum =>
                  ⟨.ok (some .size), rest, sum, none⟩
      | none =>
          if isLws byte then
            ⟨.ok (some .sizeLws), rest, size, none⟩
          else if byte = semicolon then
            ⟨.ok (some .extension), rest, size, none⟩
          else if byte = carriageReturn then
            ⟨.ok (some .sizeLf), rest, size, none⟩
          else
            ⟨.error ⟨.invalidInput,
                "Invalid chunk size line: Invalid Size"⟩, rest, size, none⟩

/-- `read_size_lws`. -/
def readSizeLws (byte : UInt8) : Except CodecError ChunkedState :=
  if isLws byte then
    .ok .sizeLws
  else if byte = semicolon then
    .ok .extension
  else if byte = carriageReturn then
    .ok .sizeLf
  else
    .error ⟨.invalidInput, "Invalid chunk size linear white space"⟩

/-- `read_extension`. -/
def readExtension (byte : UInt8) : Except CodecError ChunkedState :=
  if byte = carriageReturn then
    .ok .sizeLf
  else if byte = lineFeed then
    .error ⟨.invalidData, "invalid chunk extension contains newline"⟩
  else
    .ok .extension

/-- `read_size_lf`. -/
def readSizeLf (size : Nat) (byte : UInt8) : Except CodecError ChunkedState :=
  if byte = lineFeed then
    if 0 < size then .ok .body else .ok .endCr
  else
    .error ⟨.invalidInput, "Invalid chunk size LF"⟩

/-- `read_body`. -/
def readBody (rdr : List UInt8) (rem : Nat) : Stepped :=
  if rdr = [] then
    ⟨.ok none, rdr, rem, none⟩
  else
    let (data, left, rest) := boundedSplit rem rdr
    ⟨.ok (some (if 0 < left then .body else .bodyCr)), rest, left, some data⟩

/-- A byte that has to be the expected one. -/
def expect
    (expected : UInt8)
    (next : ChunkedState)
    (text : String)
    (byte : UInt8) :
    Except CodecError ChunkedState :=
  if byte = expected then .ok next else .error ⟨.invalidInput, text⟩

/-- `read_body_cr`. -/
def readBodyCr : UInt8 → Except CodecError ChunkedState :=
  expect carriageReturn .bodyLf "Invalid chunk body CR"

/-- `read_body_lf`. -/
def readBodyLf : UInt8 → Except CodecError ChunkedState :=
  expect lineFeed .size "Invalid chunk body LF"

/-- `read_trailer`. -/
def readTrailer (byte : UInt8) : Except CodecError ChunkedState :=
  if byte = carriageReturn then .ok .trailerLf else .ok .trailer

/-- `read_trailer_lf`. -/
def readTrailerLf : UInt8 → Except CodecError ChunkedState :=
  expect lineFeed .endCr "Invalid trailer end LF"

/-- `read_end_cr`. -/
def readEndCr (byte : UInt8) : Except CodecError ChunkedState :=
  if byte = carriageReturn then .ok .endLf else .ok .trailer

/-- `read_end_lf`. -/
def readEndLf : UInt8 → Except CodecError ChunkedState :=
  expect lineFeed .ended "Invalid chunk end LF"

/-- `step`. -/
def step (state : ChunkedState) (body : List UInt8) (size : Nat) : Stepped :=
  match state with
  | .size =>
      readSize body size
  | .sizeLws =>
      withByte body size readSizeLws
  | .extension =>
      withByte body size readExtension
  | .sizeLf =>
      withByte body size (readSizeLf size)
  | .body =>
      readBody body size
  | .bodyCr =>
      withByte body size readBodyCr
  | .bodyLf =>
      withByte body size readBodyLf
  | .trailer =>
      withByte body size readTrailer
  | .trailerLf =>
      withByte body size readTrailerLf
  | .endCr =>
      withByte body size readEndCr
  | .endLf =>
      withByte body size readEndLf
  | .ended =>
      ⟨.ok (some .ended), body, size, none⟩

end ChunkedState

/-! ## The decoder -/

/-- `enum ChunkResult`. -/
inductive ChunkResult where
  | ok (bytes : List UInt8)
  | err (error : CodecError)
  | insufficientData
  | onEof
  | alreadyEof
  | corrupted
  deriving Repr, DecidableEq

namespace TransferCoding

/-- `is_eof`. -/
def isEof : TransferCoding → Option Bool
  | .eof =>
      some true
  | .encodeChunked =>
      none
  | _ =>
      some false

/-- `try_set`. -/
def trySet (coding other : TransferCoding) :
    Except ProtoError TransferCoding :=
  match coding, other with
  | .upgrade, .upgrade | _, .length 0 =>
      .ok coding
  | .upgrade, _ | .decodeChunked _ _, _ | .length _, _ =>
      .error .headerName
  | _, _ =>
      .ok other

end TransferCoding

namespace ChunkedState

/-- What a state other than those of chunk data and the end makes of a byte. -/
def readByte (state : ChunkedState) (size : Nat) (byte : UInt8) : Stepped :=
  state.step [byte] size

/-- Outside of chunk data a step takes one byte. -/
theorem step_cons
    {state : ChunkedState}
    (notBody : state ≠ .body)
    (notEnded : state ≠ .ended)
    (byte : UInt8)
    (rest : List UInt8)
    (size : Nat) :
    state.step (byte :: rest) size =
      { state.readByte size byte with rdr := rest, buf := none } := by
  cases state with
  | body =>
      exact absurd rfl notBody
  | ended =>
      exact absurd rfl notEnded
  | size =>
      simp only [readByte, step, readSize]
      cases hexDigit? byte with
      | none =>
          dsimp only
          split_ifs <;> rfl
      | some digit =>
          cases isScaled : checkedMul size 16 with
          | none =>
              rfl
          | some scaled =>
              cases isSum : checkedAdd scaled digit <;> simp [isSum]
  | _ =>
      rfl

/-- With an empty buffer a step waits. -/
theorem step_nil
    {state : ChunkedState}
    (notEnded : state ≠ .ended)
    (size : Nat) :
    state.step [] size = ⟨.ok none, [], size, none⟩ := by
  cases state with
  | ended =>
      exact absurd rfl notEnded
  | _ =>
      rfl

/-- In chunk data a step takes what there is of it. -/
theorem step_body
    {src : List UInt8}
    (nonempty : src ≠ [])
    (size : Nat) :
    ChunkedState.body.step src size =
      ⟨.ok (some (if 0 < (boundedSplit size src).2.1 then .body else .bodyCr)),
        (boundedSplit size src).2.2, (boundedSplit size src).2.1,
        some (boundedSplit size src).1⟩ := by
  rw [step, readBody, if_neg nonempty]

/-- A step that is not the last one and has no data has taken a byte. -/
theorem length_step_lt
    {state next : ChunkedState}
    {src : List UInt8}
    {size : Nat}
    (isNext : (state.step src size).next = .ok (some next))
    (isInside : next ≠ .ended)
    (noData : (state.step src size).buf = none) :
    (state.step src size).rdr.length < src.length := by
  by_cases isEnded : state = .ended
  · subst state
    simp_all [step]
  cases src with
  | nil =>
      simp [step_nil isEnded] at isNext
  | cons byte rest =>
      by_cases isBody : state = .body
      · subst state
        simp [step_body (List.cons_ne_nil byte rest)] at noData
      · simp [step_cons isBody isEnded]

end ChunkedState

/-- The loop of `decode` for chunked bodies. -/
def decodeLoop
    (state : ChunkedState)
    (size : Nat)
    (src : List UInt8) :
    ChunkResult × TransferCoding × List UInt8 :=
  match _isNext : (state.step src size).next with
  | .error error =>
      (.err error, .decodeChunked state (state.step src size).size,
        (state.step src size).rdr)
  | .ok none =>
      (.insufficientData, .decodeChunked state (state.step src size).size,
        (state.step src size).rdr)
  | .ok (some next) =>
      if _isEnd : next = .ended then
        (.onEof, .eof, (state.step src size).rdr)
      else
        match _noData : (state.step src size).buf with
        | some data =>
            (.ok data, .decodeChunked next (state.step src size).size,
              (state.step src size).rdr)
        | none =>
            decodeLoop next (state.step src size).size
              (state.step src size).rdr
termination_by src.length
decreasing_by
  exact ChunkedState.length_step_lt _isNext _isEnd _noData

/-- One step of the loop, without the reasons that it ends. -/
theorem decodeLoop_eq
    (state : ChunkedState)
    (size : Nat)
    (src : List UInt8) :
    decodeLoop state size src =
      match (state.step src size).next with
      | .error error =>
          (.err error, .decodeChunked state (state.step src size).size,
            (state.step src size).rdr)
      | .ok none =>
          (.insufficientData, .decodeChunked state (state.step src size).size,
            (state.step src size).rdr)
      | .ok (some next) =>
          if next = .ended then
            (.onEof, .eof, (state.step src size).rdr)
          else
            match (state.step src size).buf with
            | some data =>
                (.ok data, .decodeChunked next (state.step src size).size,
                  (state.step src size).rdr)
            | none =>
                decodeLoop next (state.step src size).size
                  (state.step src size).rdr := by
  rw [decodeLoop]
  split
  next isError =>
    simp only [isError]
  next isWaiting =>
    simp only [isWaiting]
  next isNext =>
    simp only [isNext]
    split_ifs
    · rfl
    · split <;> simp_all only

/-- With an empty buffer the loop waits. -/
theorem decodeLoop_nil
    {state : ChunkedState}
    (notEnded : state ≠ .ended)
    (size : Nat) :
    decodeLoop state size [] =
      (.insufficientData, .decodeChunked state size, []) := by
  simp only [decodeLoop_eq, ChunkedState.step_nil notEnded]

/-- In chunk data the loop returns what there is of it. -/
theorem decodeLoop_body
    {src : List UInt8}
    (nonempty : src ≠ [])
    (size : Nat) :
    decodeLoop .body size src =
      (.ok (boundedSplit size src).1,
        .decodeChunked
          (if 0 < (boundedSplit size src).2.1 then .body else .bodyCr)
          (boundedSplit size src).2.1,
        (boundedSplit size src).2.2) := by
  rw [decodeLoop_eq]
  simp only [ChunkedState.step_body nonempty]
  split_ifs <;> simp_all

/-- Outside of chunk data the loop takes one byte and goes on. -/
theorem decodeLoop_cons
    {state : ChunkedState}
    (notBody : state ≠ .body)
    (notEnded : state ≠ .ended)
    (size : Nat)
    (byte : UInt8)
    (rest : List UInt8) :
    decodeLoop state size (byte :: rest) =
      match (state.readByte size byte).next with
      | .error error =>
          (.err error,
            .decodeChunked state (state.readByte size byte).size, rest)
      | .ok none =>
          (.insufficientData,
            .decodeChunked state (state.readByte size byte).size, rest)
      | .ok (some next) =>
          if next = .ended then
            (.onEof, .eof, rest)
          else
            decodeLoop next (state.readByte size byte).size rest := by
  rw [decodeLoop_eq]
  simp only [ChunkedState.step_cons notBody notEnded]

/-- `TransferCoding::decode`. -/
def TransferCoding.decode (coding : TransferCoding) (src : List UInt8) :
    Option (ChunkResult × TransferCoding × List UInt8) :=
  match coding with
  | .length 0 | .decodeChunked .ended _ =>
      some (.onEof, .eof, src)
  | .eof =>
      some (.alreadyEof, .eof, src)
  | .corrupted =>
      some (.corrupted, .corrupted, src)
  | .length rem =>
      if src = [] then
        some (.insufficientData, coding, src)
      else
        let (data, left, rest) := boundedSplit rem src
        some (.ok data, .length left, rest)
  | .upgrade =>
      if src = [] then
        some (.insufficientData, coding, src)
      else
        some (.ok src, .upgrade, [])
  | .decodeChunked state size =>
      if src = [] then
        some (.insufficientData, coding, src)
      else
        some (decodeLoop state size src)
  | .encodeChunked =>
      if src = [] then
        some (.insufficientData, coding, src)
      else
        none

/-! ## The encoder -/

/-- The digits of `{:X}`. -/
def upperHex (number : Nat) : List UInt8 :=
  (Nat.toDigits 16 number).map fun char => UInt8.ofNat char.toUpper.toNat

/-- `\r\n`. -/
def crlfBytes : List UInt8 :=
  [carriageReturn, lineFeed]

/-- A chunk in the chunked coding. -/
def chunkBytes (bytes : List UInt8) : List UInt8 :=
  upperHex bytes.length ++ crlfBytes ++ bytes ++ crlfBytes

/-- `0\r\n\r\n`. -/
def lastChunk : List UInt8 :=
  48 :: crlfBytes ++ crlfBytes

/-- `trait H1BufWrite`; a buffer that panics is `none`. -/
class H1BufWrite (Buffer : Type) where
  /-- `write_buf_head`, with a head that could be encoded. -/
  writeBufHead : List UInt8 → Buffer → Option Buffer
  writeBufStatic : List UInt8 → Buffer → Option Buffer
  writeBufBytes : List UInt8 → Buffer → Option Buffer
  writeBufBytesChunked : List UInt8 → Buffer → Option Buffer

/-- `impl H1BufWrite for BytesMut`: the methods that the trait provides. -/
instance : H1BufWrite (List UInt8) where
  writeBufHead head buf :=
    some (buf ++ head)
  writeBufStatic bytes buf :=
    some (buf ++ bytes)
  writeBufBytes bytes buf :=
    some (buf ++ bytes)
  writeBufBytesChunked bytes buf :=
    some (buf ++ chunkBytes bytes)

namespace TransferCoding

variable {Buffer : Type} [H1BufWrite Buffer]

/-- `encode`. -/
def encode
    (coding : TransferCoding)
    (bytes : List UInt8)
    (buf : Buffer) :
    Option (TransferCoding × Buffer) :=
  if bytes = [] then
    some (coding, buf)
  else
    match coding with
    | .upgrade => do
        return (coding, ← H1BufWrite.writeBufBytes bytes buf)
    | .encodeChunked => do
        return (coding, ← H1BufWrite.writeBufBytesChunked bytes buf)
    | .length rem =>
        if bytes.length ≤ rem then do
          return (.length (rem - bytes.length),
            ← H1BufWrite.writeBufBytes bytes buf)
        else do
          return (.length 0,
            ← H1BufWrite.writeBufBytes (bytes.take rem) buf)
    | .eof =>
        some (coding, buf)
    | .corrupted | .decodeChunked _ _ =>
        none

/-- `encode_eof`; what is left of a length is only logged. -/
def encodeEof (coding : TransferCoding) (buf : Buffer) : Option Buffer :=
  match coding with
  | .eof | .upgrade | .length _ =>
      some buf
  | .encodeChunked =>
      H1BufWrite.writeBufStatic lastChunk buf
  | .corrupted | .decodeChunked _ _ =>
      none

/-- The pieces of a body, and then its end. -/
def encodeAll (coding : TransferCoding) :
    List (List UInt8) → Buffer → Option (TransferCoding × Buffer)
  | [], buf => do
      return (coding, ← coding.encodeEof buf)
  | piece :: pieces, buf => do
      let (next, later) ← coding.encode piece buf
      next.encodeAll pieces later

end TransferCoding

end Sweety.H1
