import Sweety.H2Response

namespace Sweety.H3

open H2 (BodySize Polled awaited bytesOf)

/-!
# The body of a response over HTTP/3

Model of the part of `resolve_and_handle` in `h3/proto/dispatcher.rs` behind the
head of the response.  A body of at most 32 KiB is collected as far as it is
ready and sent at once; any other body is sent chunk by chunk.  Whether the
client takes what is sent is told by a list of answers, and a handler whose
answers are used up is still waiting.
-/

/-! ## The handler -/

/-- A call to the stream of the response. -/
inductive Call where
  | sendData (bytes : List UInt8)
  | finish
  deriving Repr, DecidableEq

/-- What the handler returns, if it has returned. -/
inductive Status where
  | finished
  | bodyFailed
  | streamFailed
  | waiting
  deriving Repr, DecidableEq

/-- The calls of a handler so far. -/
structure Handled where
  calls : List Call
  status : Status
  deriving Repr, DecidableEq

/-- `send_data`, and what comes behind it if the client takes it. -/
def sendData
    (bytes : List UInt8)
    (answers : List Bool)
    (next : List Bool → Handled) :
    Handled :=
  if bytes.isEmpty then
    next answers
  else
    match answers with
    | [] =>
        ⟨[], .waiting⟩
    | true :: answers =>
        { next answers with calls := .sendData bytes :: (next answers).calls }
    | false :: _ =>
        ⟨[.sendData bytes], .streamFailed⟩

/-- The loop over what is awaited of a body. -/
def sendAwaited : List (Except Unit (List UInt8)) → List Bool → Handled
  | [], _ =>
      ⟨[.finish], .finished⟩
  | .error () :: _, _ =>
      ⟨[], .bodyFailed⟩
  | .ok bytes :: body, answers =>
      sendData bytes answers (sendAwaited body)

/-- The loop over chunks that are ready, with those before. -/
def sendReady (buf : List UInt8) : List Polled → List Bool → Handled
  | [], answers =>
      sendData buf answers (sendAwaited [])
  | .failed :: _, _ =>
      ⟨[], .bodyFailed⟩
  | .chunk bytes :: body, answers =>
      sendReady (buf ++ bytes) body answers
  | .pending :: body, answers =>
      sendData buf answers (sendAwaited (awaited body))

/-- `INLINE_SEND_MAX`. -/
def inlineSendMax : Nat := 32 * 1024

/-- `resolve_and_handle`, behind `send_response`. -/
def sendBody
    (size : BodySize)
    (body : List Polled)
    (answers : List Bool) :
    Handled :=
  match size with
  | .sized size =>
      if size ≤ inlineSendMax then
        sendReady [] body answers
      else
        sendAwaited (awaited body) answers
  | .none | .stream =>
      sendAwaited (awaited body) answers

/-! ## What is delivered -/

/-- The data of the calls. -/
def dataOf : List Call → List UInt8
  | [] =>
      []
  | .sendData bytes :: calls =>
      bytes ++ dataOf calls
  | .finish :: calls =>
      dataOf calls

/-- How a body ends. -/
def Fails (items : List (Except Unit (List UInt8))) : Prop :=
  .error () ∈ items

/--
What the calls are for these items, behind bytes that have been collected: the
stream is finished once at the end, for a body that did not fail, with all its
bytes; and a handler that was not refused anything reports how the body ended.
-/
structure Delivers
    (buf : List UInt8)
    (items : List (Except Unit (List UInt8)))
    (handled : Handled) :
    Prop where
  sent : dataOf handled.calls <+: buf ++ bytesOf items
  finished :
    .finish ∈ handled.calls ↔ handled.status = .finished
  whole :
    handled.status = .finished →
    dataOf handled.calls = buf ++ bytesOf items ∧ ¬ Fails items
  failed : handled.status = .bodyFailed → Fails items

section Delivering

variable
  {buf bytes : List UInt8}
  {items : List (Except Unit (List UInt8))}
  {next : List Bool → Handled}

theorem delivers_sendData
    (answers : List Bool)
    (delivers : ∀ answers, Delivers [] items (next answers)) :
    Delivers bytes items (sendData bytes answers next) := by
  unfold sendData
  split
  · next isEmpty =>
      rw [List.isEmpty_iff] at isEmpty
      subst isEmpty
      exact delivers answers
  · cases answers with
    | nil =>
        exact ⟨List.nil_prefix, by simp, nofun, nofun⟩
    | cons answer answers =>
        cases answer with
        | false =>
            exact ⟨by simp [dataOf], by simp, nofun, nofun⟩
        | true =>
            have goesOn := delivers answers
            refine ⟨?_, by simpa using goesOn.finished, ?_, goesOn.failed⟩
            · exact (List.prefix_append_right_inj bytes).mpr goesOn.sent
            · intro isFinished
              obtain ⟨isData, noFailure⟩ := goesOn.whole isFinished
              refine ⟨?_, noFailure⟩
              rw [List.nil_append] at isData
              simp only [dataOf, isData]

theorem delivers_sendAwaited
    (items : List (Except Unit (List UInt8)))
    (answers : List Bool) :
    Delivers [] items (sendAwaited items answers) := by
  induction items generalizing answers with
  | nil =>
      exact ⟨List.nil_prefix, by simp [sendAwaited],
        fun _ => ⟨rfl, List.not_mem_nil⟩, nofun⟩
  | cons item items inductionHypothesis =>
      cases item with
      | error failure =>
          exact ⟨List.nil_prefix, by simp [sendAwaited], nofun,
            fun _ => List.mem_cons_self⟩
      | ok bytes =>
          have sends : Delivers bytes items
              (sendData bytes answers (sendAwaited items)) :=
            delivers_sendData answers inductionHypothesis
          have fails :
              Fails (.ok bytes :: items) ↔ Fails items := by
            simp [Fails]
          refine ⟨sends.sent, sends.finished, ?_, ?_⟩
          · rw [fails]
            exact sends.whole
          · rw [fails]
            exact sends.failed

theorem delivers_sendReady
    (body : List Polled)
    (answers : List Bool) :
    Delivers buf (awaited body) (sendReady buf body answers) := by
  induction body generalizing buf with
  | nil =>
      exact delivers_sendData answers (delivers_sendAwaited [])
  | cons polled body inductionHypothesis =>
      cases polled with
      | failed =>
          exact ⟨List.nil_prefix, by simp [sendReady], nofun,
            fun _ => List.mem_cons_self⟩
      | pending =>
          exact delivers_sendData answers
            (delivers_sendAwaited (awaited body))
      | chunk bytes =>
          have goesOn : Delivers (buf ++ bytes) (awaited body)
              (sendReady (buf ++ bytes) body answers) :=
            inductionHypothesis
          have fails :
              Fails (awaited (.chunk bytes :: body)) ↔
                Fails (awaited body) := by
            simp [awaited, Fails]
          have isData :
              buf ++ bytesOf (awaited (.chunk bytes :: body)) =
                buf ++ bytes ++ bytesOf (awaited body) := by
            rw [List.append_assoc]
            rfl
          refine ⟨?_, goesOn.finished, ?_, ?_⟩
          · rw [isData]
            exact goesOn.sent
          · rw [isData, fails]
            exact goesOn.whole
          · rw [fails]
            exact goesOn.failed

end Delivering

/-! ## Clients that take everything -/

/-- The handler has come to the end of the body, or to its failure. -/
def Handled.Settles (handled : Handled) : Prop :=
  handled.status = .finished ∨ handled.status = .bodyFailed

section Settling

variable {answers : List Bool}

theorem settles_sendData
    {bytes : List UInt8}
    {next : List Bool → Handled}
    (isTaken : ∀ answer ∈ answers, answer = true)
    (isEnough : 0 < answers.length)
    (settlesAll : (next answers).Settles)
    (settles : (next answers.tail).Settles) :
    (sendData bytes answers next).Settles := by
  unfold sendData
  split
  · exact settlesAll
  · cases answers with
    | nil =>
        cases isEnough
    | cons answer answers =>
        obtain rfl := isTaken answer List.mem_cons_self
        exact settles

theorem settles_sendAwaited
    {items : List (Except Unit (List UInt8))}
    (isTaken : ∀ answer ∈ answers, answer = true)
    (isEnough : items.length ≤ answers.length) :
    (sendAwaited items answers).Settles := by
  induction items generalizing answers with
  | nil =>
      exact .inl rfl
  | cons item items inductionHypothesis =>
      cases item with
      | error failure =>
          exact .inr rfl
      | ok bytes =>
          rw [List.length_cons] at isEnough
          apply settles_sendData isTaken (by omega)
          · exact inductionHypothesis isTaken (by omega)
          · apply inductionHypothesis
            · intro answer isAnswer
              exact isTaken answer (List.mem_of_mem_tail isAnswer)
            · rw [List.length_tail]
              omega

theorem settles_sendReady
    {buf : List UInt8}
    {body : List Polled}
    (isTaken : ∀ answer ∈ answers, answer = true)
    (isEnough : body.length < answers.length) :
    (sendReady buf body answers).Settles := by
  induction body generalizing buf with
  | nil =>
      exact settles_sendData isTaken isEnough (.inl rfl) (.inl rfl)
  | cons polled body inductionHypothesis =>
      rw [List.length_cons] at isEnough
      cases polled with
      | failed =>
          exact .inr rfl
      | chunk bytes =>
          exact inductionHypothesis (by omega)
      | pending =>
          have fewer := H2.length_awaited_le body
          apply settles_sendData isTaken (by omega)
          · exact settles_sendAwaited isTaken (by omega)
          · apply settles_sendAwaited
            · intro answer isAnswer
              exact isTaken answer (List.mem_of_mem_tail isAnswer)
            · rw [List.length_tail]
              omega

theorem Delivers.finishes_iff
    {buf : List UInt8}
    {items : List (Except Unit (List UInt8))}
    {handled : Handled}
    (delivers : Delivers buf items handled)
    (settles : handled.Settles) :
    .finish ∈ handled.calls ↔ ¬ Fails items := by
  rw [delivers.finished]
  constructor
  · intro isFinished
    exact (delivers.whole isFinished).2
  · intro noFailure
    rcases settles with isFinished | isFailed
    · exact isFinished
    · exact absurd (delivers.failed isFailed) noFailure

end Settling

end Sweety.H3
