import Sweety.BodyPaths
import Sweety.ChunkedRoundTrip

namespace Sweety.PipedBody

open HttpText ForwardRequest BodyPaths

/-!
# What a piped body leaves on the wire

`pipe_request_body` sends the chunks as they come.  Whatever the connection
does, it has been sent a beginning of the body with these chunks; a connection
that takes everything has been sent all of them.
-/

/-! ## Chunks on the wire -/

/-- The chunks on the wire, without an end. -/
def frames
    (useChunked : Bool)
    (chunks : List (List UInt8)) :
    List UInt8 :=
  ((chunks.filter fun chunk => !chunk.isEmpty).flatMap
    (chunkWrites useChunked)).flatten

section Frames

variable
  {useChunked : Bool}
  {chunks : List (List UInt8)}

theorem frames_cons (byte : UInt8) (others : List UInt8) :
    frames useChunked ((byte :: others) :: chunks) =
      (chunkWrites useChunked (byte :: others)).flatten ++
        frames useChunked chunks := by
  simp [frames]

theorem encodedBody_eq_frames (chunks : List (List UInt8)) :
    encodedBody useChunked chunks =
      frames useChunked chunks ++ (endWrites useChunked).flatten := by
  simp [encodedBody, bodyWrites, frames]

theorem frames_plain (chunks : List (List UInt8)) :
    frames false chunks = chunks.flatten := by
  induction chunks with
  | nil =>
      rfl
  | cons chunk others inductionHypothesis =>
      cases chunk with
      | nil =>
          exact inductionHypothesis
      | cons byte rest =>
          rw [frames_cons, inductionHypothesis]
          simp [chunkWrites]

theorem frames_chunked (chunks : List (List UInt8)) :
    frames true chunks =
      (ChunkedRoundTrip.sentChunks chunks).flatMap Rfc7230.Chunk.bytes := by
  induction chunks with
  | nil =>
      rfl
  | cons chunk others inductionHypothesis =>
      cases chunk with
      | nil =>
          exact inductionHypothesis
      | cons byte rest =>
          rw [frames_cons, inductionHypothesis,
            ChunkedRoundTrip.sentChunks, List.flatMap_cons,
            ChunkedRoundTrip.bytes_chunk]

end Frames

/-! ## Bodies -/

/-- The chunks that come before the end, an error or a silence. -/
def chunksOf : RequestBody → List (List UInt8)
  | .chunk bytes :: rest =>
      bytes :: chunksOf rest
  | _ =>
      []

/-- The body comes to its end. -/
def comesToEnd : RequestBody → Bool
  | [] =>
      true
  | .chunk _ :: rest =>
      comesToEnd rest
  | .error _ :: _ | .stall :: _ =>
      false

theorem flatten_chunksOf (body : RequestBody) :
    (chunksOf body).flatten = arrived body := by
  induction body with
  | nil =>
      rfl
  | cons event rest inductionHypothesis =>
      cases event with
      | chunk bytes =>
          rw [chunksOf, arrived, List.flatten_cons, inductionHypothesis]
      | error text =>
          rfl
      | stall =>
          rfl

/-- What a connection that takes everything is sent of a body. -/
def piped (useChunked : Bool) (body : RequestBody) : List UInt8 :=
  frames useChunked (chunksOf body) ++
    if comesToEnd body then (endWrites useChunked).flatten else []

theorem piped_cons
    (useChunked : Bool)
    (byte : UInt8)
    (others : List UInt8)
    (rest : RequestBody) :
    piped useChunked (.chunk (byte :: others) :: rest) =
      (chunkWrites useChunked (byte :: others)).flatten ++
        piped useChunked rest := by
  rw [piped, chunksOf, frames_cons, List.append_assoc]
  rfl

theorem prefix_piped (useChunked : Bool) (body : RequestBody) :
    piped useChunked body <+:
      encodedBody useChunked (chunksOf body) := by
  rw [piped, encodedBody_eq_frames, List.prefix_append_right_inj]
  split
  · exact List.prefix_rfl
  · exact List.nil_prefix

/-! ## Piping -/

/--
A connection is sent a beginning of what would be sent to one that takes all.
-/
theorem prefix_pipeRequestBody_piped
    (useChunked : Bool)
    (body : RequestBody)
    (conn : Conn) :
    (pipeRequestBody useChunked body conn).2.sent <+:
      conn.sent ++ piped useChunked body := by
  induction body generalizing conn with
  | nil =>
      exact Conn.prefix_sent_writeEach (endWrites useChunked) conn
  | cons event rest inductionHypothesis =>
      cases event with
      | error text =>
          exact List.prefix_append _ _
      | stall =>
          exact List.prefix_append _ _
      | chunk bytes =>
          cases bytes with
          | nil =>
              exact inductionHypothesis conn
          | cons byte others =>
              have part := Conn.prefix_sent_writeEach
                (chunkWrites useChunked (byte :: others)) conn
              rw [piped_cons, ← List.append_assoc]
              rcases Conn.writeEach_cases
                  (chunkWrites useChunked (byte :: others)) conn with
                ⟨written, _⟩ | ⟨notDone, _⟩
              · rw [pipeRequestBody, written]
                exact inductionHypothesis
                  (conn.wrote (chunkWrites useChunked (byte :: others)))
              · cases isWrite :
                    conn.writeEach
                      (chunkWrites useChunked (byte :: others)) with
                | mk result after =>
                    rw [isWrite] at notDone part
                    rw [pipeRequestBody, isWrite]
                    cases result with
                    | done =>
                        exact absurd rfl notDone
                    | failed error =>
                        exact part.trans (List.prefix_append _ _)
                    | timedOut =>
                        exact part.trans (List.prefix_append _ _)

/-- What is sent is a beginning of the body with the chunks that come. -/
theorem prefix_pipeRequestBody
    (useChunked : Bool)
    (body : RequestBody)
    (conn : Conn) :
    (pipeRequestBody useChunked body conn).2.sent <+:
      conn.sent ++ encodedBody useChunked (chunksOf body) :=
  (prefix_pipeRequestBody_piped useChunked body conn).trans
    ((List.prefix_append_right_inj conn.sent).mpr
      (prefix_piped useChunked body))

/-- A connection that takes everything is sent all chunks. -/
theorem sent_pipeRequestBody_taken
    (useChunked : Bool)
    (body : RequestBody)
    {conn : Conn}
    (takes : conn.writes = []) :
    (pipeRequestBody useChunked body conn).2.sent =
      conn.sent ++ piped useChunked body := by
  induction body generalizing conn with
  | nil =>
      have accepts :
          conn.Accepts (endWrites useChunked).length := by
        simp [Conn.Accepts, takes]
      rw [pipeRequestBody, Conn.writeEach_of_accepts accepts]
      rfl
  | cons event rest inductionHypothesis =>
      cases event with
      | error text =>
          exact (List.append_nil _).symm
      | stall =>
          exact (List.append_nil _).symm
      | chunk bytes =>
          cases bytes with
          | nil =>
              exact inductionHypothesis takes
          | cons byte others =>
              have accepts :
                  conn.Accepts
                    (chunkWrites useChunked (byte :: others)).length := by
                simp [Conn.Accepts, takes]
              have stillTakes :
                  (conn.wrote
                    (chunkWrites useChunked
                      (byte :: others))).writes = [] := by
                simp [Conn.wrote, takes]
              rw [pipeRequestBody, Conn.writeEach_of_accepts accepts]
              dsimp only
              rw [inductionHypothesis stillTakes, piped_cons,
                ← List.append_assoc]
              rfl

end Sweety.PipedBody
