import Sweety.Connection
import Sweety.HttpText

namespace Sweety.FastCgi

open HttpText SegmentedReader

/-!
# Sending a FastCGI request

Model of the sending and header-reading half of the FastCGI handler: the packet
built in `handler/fastcgi/proto.rs` and `handler/fastcgi/response.rs`, the
record reader, the search for the end of the response headers, and the reconnect
loop of `handler/fastcgi.rs`.  The text of the response headers is kept as
bytes; its parsing, and the rest of the response, send nothing and are not part
of this model.
-/

/-- `FCGI_VERSION`. -/
def version : UInt8 := 1

/-- `FCGI_BEGIN_REQUEST`. -/
def beginRequest : UInt8 := 1

/-- `FCGI_PARAMS`. -/
def paramsType : UInt8 := 4

/-- `FCGI_STDIN`. -/
def stdinType : UInt8 := 5

/-- `FCGI_STDOUT`. -/
def stdoutType : UInt8 := 6

/-- `FCGI_RESPONDER`. -/
def responder : Nat := 1

/-- `FCGI_MAX_CONTENT`. -/
def maxContent : Nat := 65535

/-! ## The packet -/

/-- `u16::to_be_bytes`, after the cast to 16 bits. -/
def be16 (value : Nat) : List UInt8 :=
  [UInt8.ofNat (value / 2 ^ 8), UInt8.ofNat value]

/-- `u32::to_be_bytes`. -/
def be32 (value : Nat) : List UInt8 :=
  [UInt8.ofNat (value / 2 ^ 24), UInt8.ofNat (value / 2 ^ 16),
    UInt8.ofNat (value / 2 ^ 8), UInt8.ofNat value]

/-- `write_fcgi_header`. -/
def writeFcgiHeader
    (recordType : UInt8)
    (requestId contentLen padding : Nat) :
    List UInt8 :=
  [version, recordType] ++ be16 requestId ++ be16 contentLen ++
    [UInt8.ofNat padding, 0]

/-- The records of the data, each of at most `maxContent` bytes. -/
def writeFcgiChunks
    (recordType : UInt8)
    (requestId : Nat)
    (data : List UInt8) :
    List UInt8 :=
  if _nonempty : data = [] then
    []
  else
    let chunk := data.take maxContent
    let padding := (8 - chunk.length % 8) % 8
    writeFcgiHeader recordType requestId chunk.length padding ++ chunk ++
      List.replicate padding 0 ++
      writeFcgiChunks recordType requestId (data.drop maxContent)
  termination_by data.length
  decreasing_by
    have positive := List.length_pos_iff.mpr _nonempty
    rw [List.length_drop]
    exact Nat.sub_lt positive (by decide)

/-- `write_fcgi_record`. -/
def writeFcgiRecord
    (recordType : UInt8)
    (requestId : Nat)
    (data : List UInt8) :
    List UInt8 :=
  if data.isEmpty then
    writeFcgiHeader recordType requestId 0 0
  else
    writeFcgiChunks recordType requestId data

/-- `enc_len`. -/
def encodeLength (length : Nat) : List UInt8 :=
  if length < 128 then
    [UInt8.ofNat length]
  else
    be32 (length % 2 ^ 32 ||| 0x80000000)

/-- `encode_nv_pair`. -/
def encodeNvPair (name value : List UInt8) : List UInt8 :=
  encodeLength name.length ++ encodeLength value.length ++ name ++ value

/-- The packet of `fcgi_send_and_read_headers`. -/
def requestPacket
    (params : List (String × String))
    (stdinBody : List UInt8) :
    List UInt8 :=
  let requestId := 1
  writeFcgiHeader beginRequest requestId 8 0 ++ be16 responder ++ [1] ++
    List.replicate 5 0 ++
    writeFcgiRecord paramsType requestId
      (params.flatMap fun param =>
        encodeNvPair (encodeUtf8 param.1.toList)
          (encodeUtf8 param.2.toList)) ++
    writeFcgiRecord paramsType requestId [] ++
    writeFcgiRecord stdinType requestId stdinBody ++
    writeFcgiRecord stdinType requestId []

theorem requestPacket_ne_nil
    (params : List (String × String))
    (stdinBody : List UInt8) :
    requestPacket params stdinBody ≠ [] := by
  simp [requestPacket, writeFcgiHeader]

/-! ## The response headers -/

/-- How reading from the backend ends. -/
inductive ReadResult (α : Type) where
  | ok (value : α)
  | failed (error : IoError)
  | stall
  deriving Repr, DecidableEq

/-- `read_exact`. -/
def readExact
    (count : Nat)
    (reads : List (Event IoError)) :
    ReadResult (List UInt8) × List (Event IoError) :=
  match pullExact count [] reads with
  | (.full bytes, after) =>
      (.ok bytes, after)
  | (.eof _, after) =>
      (.failed ⟨.unexpectedEof, "early eof"⟩, after)
  | (.error error _, after) =>
      (.failed error, after)
  | (.stall _, after) =>
      (.stall, after)

/-- `FcgiRecord`. -/
structure FcgiRecord where
  recType : UInt8
  data : List UInt8
  deriving Repr, DecidableEq

/-- `read_fcgi_from_stream`. -/
def readFcgiFromStream
    (reads : List (Event IoError)) :
    ReadResult FcgiRecord × List (Event IoError) :=
  match readExact 8 reads with
  | (.ok header, afterHeader) =>
      let recType := header.getD 1 0
      let contentLen :=
        (header.getD 4 0).toNat * 2 ^ 8 + (header.getD 5 0).toNat
      let paddingLen := (header.getD 6 0).toNat
      match readExact (contentLen + paddingLen) afterHeader with
      | (.ok content, after) =>
          (.ok ⟨recType, content.take contentLen⟩, after)
      | (.failed error, after) =>
          (.failed error, after)
      | (.stall, after) =>
          (.stall, after)
  | (.failed error, after) =>
      (.failed error, after)
  | (.stall, after) =>
      (.stall, after)

theorem weight_readExact_le
    (count : Nat)
    (reads : List (Event IoError)) :
    weight (readExact count reads).2 ≤ weight reads := by
  have less := weight_pullExact_le count [] reads
  unfold readExact
  split
  all_goals
    rename_i isPull
    rw [isPull] at less
    exact less

/-- A record that was read uses some of the stream up. -/
theorem weight_readFcgiFromStream_lt
    {reads after : List (Event IoError)}
    {record : FcgiRecord}
    (isRecord : readFcgiFromStream reads = (.ok record, after)) :
    weight after < weight reads := by
  have headerRead {header : List UInt8} {middle : List (Event IoError)}
      (isHeader : readExact 8 reads = (.ok header, middle)) :
      weight middle < weight reads := by
    unfold readExact at isHeader
    split at isHeader
    · rename_i full
      obtain ⟨-, rfl⟩ := Prod.mk.inj isHeader
      exact weight_pullExact_lt (by decide) full
    all_goals cases isHeader
  unfold readFcgiFromStream at isRecord
  split at isRecord
  · rename_i header middle isHeader
    have contentRead := weight_readExact_le
      ((header.getD 4 0).toNat * 2 ^ 8 + (header.getD 5 0).toNat +
        (header.getD 6 0).toNat)
      middle
    dsimp only at isRecord
    split at isRecord
    · rename_i isContent
      obtain ⟨-, rfl⟩ := Prod.mk.inj isRecord
      rw [isContent] at contentRead
      exact Nat.lt_of_le_of_lt contentRead (headerRead isHeader)
    · cases isRecord
    · cases isRecord
  · cases isRecord
  · cases isRecord

/-- The first place where `separator` stands. -/
def findSeparator
    (separator buffer : List UInt8) :
    Option Nat :=
  (List.range (buffer.length + 1 - separator.length)).find? fun index =>
    separator.isPrefixOf (buffer.drop index)

/-- `find_header_end`: where the body begins, and where the text ends. -/
def findHeaderEnd (buffer : List UInt8) : Option (Nat × Nat) :=
  ((findSeparator [13, 10, 13, 10] buffer).map fun index =>
      (index + 4, index)) <|>
    (findSeparator [10, 10] buffer).map fun index =>
      (index + 2, index)

/-- `FcgiParsedHeaders`, with the text of the headers as it was read. -/
structure FcgiParsedHeaders where
  headerText : List UInt8
  bodyPrefix : List UInt8
  bodyDone : Bool
  deriving Repr, DecidableEq

/-- `read_headers_from_stream`, with the header bytes read so far. -/
def readHeadersFromStream
    (headerBuf : List UInt8)
    (reads : List (Event IoError)) :
    ReadResult FcgiParsedHeaders × List (Event IoError) :=
  match _isRecord : readFcgiFromStream reads with
  | (.ok record, after) =>
      if record.recType = stdoutType then
        if record.data = [] then
          (.ok ⟨headerBuf, [], true⟩, after)
        else
          let buffer := headerBuf ++ record.data
          match findHeaderEnd buffer with
          | some (bodyStart, textEnd) =>
              (.ok ⟨buffer.take textEnd, buffer.drop bodyStart, false⟩,
                after)
          | none =>
              readHeadersFromStream buffer after
      else
        -- `STDERR` is logged; every other record is skipped.
        readHeadersFromStream headerBuf after
  | (.failed error, after) =>
      (.failed error, after)
  | (.stall, after) =>
      (.stall, after)
  termination_by weight reads
  decreasing_by
    all_goals exact weight_readFcgiFromStream_lt (by assumption)

/-! ## The reconnect loop -/

/-- How an attempt under the read timeout ends. -/
inductive AttemptResult where
  | ok (parsed : FcgiParsedHeaders)
  | failed (error : IoError)
  | timedOut
  deriving Repr, DecidableEq

/-- `fcgi_send_and_read_headers`, with the connection as it is left. -/
def fcgiSendAndReadHeaders
    (params : List (String × String))
    (stdinBody : List UInt8)
    (conn : Conn) :
    AttemptResult × Conn :=
  match conn.writeEach [requestPacket params stdinBody, []] with
  | (.done, written) =>
      match readHeadersFromStream [] written.reads with
      | (.ok parsed, reads) =>
          (.ok parsed, { written with reads })
      | (.failed error, reads) =>
          (.failed error, { written with reads })
      | (.stall, reads) =>
          (.timedOut, { written with reads })
  | (.failed error, after) =>
      (.failed error, after)
  | (.timedOut, after) =>
      (.timedOut, after)

/-- How the handler ends, up to the rest of the response. -/
inductive Outcome where
  | response (parsed : FcgiParsedHeaders)
  | error (status : Nat) (text : String)
  deriving Repr, DecidableEq

/-- The connection could not be made. -/
def connectError : Outcome :=
  .error 502 "PHP-FPM 连接失败"

/-- The outcome of an attempt that is not repeated. -/
def AttemptResult.outcome : AttemptResult → Outcome
  | .ok parsed =>
      .response parsed
  | .failed error =>
      .error 502 ("PHP-FPM 响应失败: " ++ error.text)
  | .timedOut =>
      .error 504 "PHP-FPM 响应超时"

/--
The loop of `handle_sweety`: the first attempt on an idle connection or a new
one, the second on another after `evict`.  Returns the connections used too,
with what this request sent on each.
-/
def reconnectLoop
    (params : List (String × String))
    (stdinBody : List UInt8)
    (first second : Except IoError Conn) :
    Outcome × List Conn :=
  match first with
  | .error _ =>
      (connectError, [])
  | .ok conn =>
      match fcgiSendAndReadHeaders params stdinBody conn.handedOver with
      | (.failed _, after) =>
          match second with
          | .error _ =>
              (connectError, [after])
          | .ok fresh =>
              let (result, afterFresh) :=
                fcgiSendAndReadHeaders params stdinBody fresh.handedOver
              (result.outcome, [after, afterFresh])
      | (result, after) =>
          (result.outcome, [after])

end Sweety.FastCgi
