import Sweety.FirstOccurrence
import Sweety.UpstreamResponse

namespace Sweety.WsProxy

open HttpText SegmentedReader UpstreamResponse FirstOccurrence

/-!
# The WebSocket relay

Model of `read_upstream_headers` and `BiDirStream` in
`handler/reverse_proxy/ws_proxy.rs`: the handshake response is read from the
upstream, and then each poll of the response body drives both directions.

The upstream is the list of what its reads bring.  What the three endpoints
answer in one poll is the argument `Answers`; an endpoint that is not polled is
not asked. The request that opens the connection is not part of this model.
-/

/-! ## The handshake -/

/-- The end of a head. -/
def headEnd : List UInt8 := [13, 10, 13, 10]

/-- The size of the buffer for the head. -/
def headCapacity : Nat := 4096

/-- What `read_upstream_headers` returns. -/
structure UpstreamHead where
  statusCode : Nat
  headers : List (List Char × List Char)
  prefetchedUpstream : Option (List UInt8)
  deriving Repr, DecidableEq

/-- The name and the value of a header line. -/
def headerOf? (line : List Char) : Option (List Char × List Char) :=
  (splitOnce? ':' line).map fun parts => (trim parts.1, trim parts.2)

/-- The end of `read_upstream_headers`, with the bytes read. -/
def parseHead (filled : List UInt8) : Except String UpstreamHead :=
  match position? headEnd filled with
  | none =>
      .error "上游响应头解析失败"
  | some index =>
      let stop := index + 4
      let text := (decodeUtf8 (filled.take stop)).getD []
      .ok
        { statusCode := parseStatusCode text
          headers := (lines text).tail.filterMap headerOf?
          prefetchedUpstream :=
            if stop < filled.length then
              some (filled.drop stop)
            else
              none }

/-- `read_upstream_headers`, with the bytes read so far. -/
def readUpstreamHeaders
    (filled : List UInt8)
    (reads : List (Event IoError)) :
    Except String UpstreamHead × List (Event IoError) :=
  if headCapacity ≤ filled.length then
    (.error "上游响应头过长", reads)
  else
    match _pulled : pull (headCapacity - filled.length) reads with
    | (.ok [], after) =>
        if (position? headEnd filled).isSome then
          (parseHead filled, after)
        else
          (.error "上游在握手前关闭连接", after)
    | (.ok (first :: others), after) =>
        if (position? headEnd (filled ++ first :: others)).isSome then
          (parseHead (filled ++ first :: others), after)
        else
          readUpstreamHeaders (filled ++ first :: others) after
    | (.error error, after) =>
        if (position? headEnd filled).isSome then
          (parseHead filled, after)
        else
          (.error ("上游握手读取失败: " ++ error.text), after)
    | (.stall, after) =>
        (.error "等待上游 101 超时", after)
  termination_by weight reads
  decreasing_by exact weight_pull_lt (by assumption)

/-! ## The endpoints -/

/-- The answer of `poll_write`; no more is accepted than was given. -/
inductive WriteAnswer where
  | ready (count : Nat)
  | failed
  | pending
  deriving Repr, DecidableEq

/-- The answer of the client body. -/
inductive ClientAnswer where
  | chunk (bytes : List UInt8)
  | failed
  | ended
  | pending
  deriving Repr, DecidableEq

/-- What the endpoints answer in one poll, where they are asked. -/
structure Answers where
  pendingWrite : WriteAnswer
  client : ClientAnswer
  write : WriteAnswer
  readable : Bool
  deriving Repr, DecidableEq

/-- An endpoint that was polled, and whether it was pending. -/
inductive Polled where
  | writer (pending : Bool)
  | client (pending : Bool)
  | reader (pending : Bool)
  deriving Repr, DecidableEq

/-- The write half: what was accepted, and whether a write has failed. -/
structure UpstreamWrite where
  accepted : List UInt8
  failed : Bool
  deriving Repr, DecidableEq

/-- `poll_write`. -/
def UpstreamWrite.pollWrite
    (answer : WriteAnswer)
    (data : List UInt8)
    (writer : UpstreamWrite) :
    WriteAnswer × UpstreamWrite :=
  match answer with
  | .ready count =>
      (.ready (min count data.length),
        { writer with accepted := writer.accepted ++ data.take count })
  | .failed =>
      (.failed, { writer with failed := true })
  | .pending =>
      (.pending, writer)

/-! ## The relay -/

/-- `BiDirStream`, with the chunks taken from the client body so far. -/
structure BiDirStream where
  upstreamRead : List (Event IoError)
  upstreamWrite : UpstreamWrite
  clientBody : List (List UInt8)
  prefetchedUpstream : Option (List UInt8)
  pendingWrite : Option (List UInt8)
  clientDone : Bool
  deriving Repr, DecidableEq

/-- What `poll_next` returns. -/
inductive PollNext where
  | pending
  | ended
  | item (bytes : List UInt8)
  deriving Repr, DecidableEq

/-- The size of `read_buf`. -/
def readBufSize : Nat := 65536

namespace BiDirStream

/-- `BiDirStream::new`. -/
def new
    (upstreamRead : List (Event IoError))
    (prefetchedUpstream : Option (List UInt8)) :
    BiDirStream where
  upstreamRead
  upstreamWrite := ⟨[], false⟩
  clientBody := []
  prefetchedUpstream
  pendingWrite := none
  clientDone := false

variable (stream : BiDirStream)

/-- The write of what is pending. -/
def pollPendingWrite (answer : WriteAnswer) : BiDirStream × List Polled :=
  match stream.pendingWrite with
  | none =>
      (stream, [])
  | some data =>
      match stream.upstreamWrite.pollWrite answer data with
      | (.ready count, upstreamWrite) =>
          if count = data.length then
            ({ stream with upstreamWrite, pendingWrite := none },
              [.writer false])
          else
            ({ stream with
                upstreamWrite
                pendingWrite := some (data.drop count) },
              [.writer false])
      | (.failed, upstreamWrite) =>
          ({ stream with
              upstreamWrite
              clientDone := true
              pendingWrite := none },
            [.writer false])
      | (.pending, upstreamWrite) =>
          ({ stream with upstreamWrite }, [.writer true])

/-- The write of a chunk that was taken from the client body. -/
def writeChunk
    (answer : WriteAnswer)
    (chunk : List UInt8) :
    BiDirStream × List Polled :=
  match stream.upstreamWrite.pollWrite answer chunk with
  | (.ready count, upstreamWrite) =>
      if count = chunk.length then
        ({ stream with upstreamWrite }, [.writer false])
      else
        ({ stream with
            upstreamWrite
            pendingWrite := some (chunk.drop count) },
          [.writer false])
  | (.failed, upstreamWrite) =>
      ({ stream with upstreamWrite, clientDone := true }, [.writer false])
  | (.pending, upstreamWrite) =>
      ({ stream with upstreamWrite, pendingWrite := some chunk },
        [.writer true])

/-- The poll of the client body, unless it is done or something is pending. -/
def pollClient
    (client : ClientAnswer)
    (write : WriteAnswer) :
    BiDirStream × List Polled :=
  if stream.clientDone = false ∧ stream.pendingWrite = none then
    match client with
    | .chunk bytes =>
        let written :=
          { stream with clientBody := stream.clientBody ++ [bytes] }.writeChunk
            write bytes
        (written.1, .client false :: written.2)
    | .failed | .ended =>
        ({ stream with clientDone := true }, [.client false])
    | .pending =>
        (stream, [.client true])
  else
    (stream, [])

/-- The direction from the upstream to the client. -/
def pollUpstream (readable : Bool) :
    PollNext × BiDirStream × List Polled :=
  match stream.prefetchedUpstream with
  | some chunk =>
      (.item chunk, { stream with prefetchedUpstream := none }, [])
  | none =>
      if readable then
        match pull readBufSize stream.upstreamRead with
        | (.ok [], upstreamRead) =>
            (.ended, { stream with upstreamRead }, [.reader false])
        | (.ok (first :: others), upstreamRead) =>
            (.item (first :: others), { stream with upstreamRead },
              [.reader false])
        | (.error _, upstreamRead) =>
            -- A connection that breaks ends the stream without an error.
            (.ended, { stream with upstreamRead }, [.reader false])
        | (.stall, upstreamRead) =>
            (.pending, { stream with upstreamRead }, [.reader true])
      else
        (.pending, stream, [.reader true])

/-- `poll_next`, with the polls that it made. -/
def pollNext (answers : Answers) :
    PollNext × BiDirStream × List Polled :=
  let written := stream.pollPendingWrite answers.pendingWrite
  let forwarded := written.1.pollClient answers.client answers.write
  let result := forwarded.1.pollUpstream answers.readable
  (result.1, result.2.1, written.2 ++ forwarded.2 ++ result.2.2)

/-- Poll after poll; returns the items in order, and the stream. -/
def pollAll : BiDirStream → List Answers → List (List UInt8) × BiDirStream
  | stream, [] =>
      ([], stream)
  | stream, answers :: later =>
      let polled := stream.pollNext answers
      let rest := polled.2.1.pollAll later
      match polled.1 with
      | .item bytes =>
          (bytes :: rest.1, rest.2)
      | .pending | .ended =>
          rest

end BiDirStream

end Sweety.WsProxy
