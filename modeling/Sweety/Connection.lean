import Sweety.RetryPolicy
import Sweety.SegmentedReader

namespace Sweety

open SegmentedReader

/-!
# Connections to a backend

A connection is what its peer will do: how each write operation ends, and what
there will be to read.  What has been written to it is kept in `sent`.
-/

/-- How one write or flush ends, and how much of it was accepted if it fails. -/
inductive WriteOutcome where
  | ok
  | failed (accepted : Nat) (error : IoError)
  | stall (accepted : Nat)
  deriving Repr, DecidableEq

/-- A connection to an upstream; beyond `writes`, writing succeeds. -/
structure Conn where
  writes : List WriteOutcome
  reads : List (Event IoError)
  sent : List UInt8
  deriving Repr, DecidableEq

/-- The result of writing under a timeout. -/
inductive WriteResult where
  | done
  | failed (error : IoError)
  | timedOut
  deriving Repr, DecidableEq

/-- What a write operation with this outcome reports. -/
def WriteOutcome.result : WriteOutcome → WriteResult
  | .ok =>
      .done
  | .failed _ error =>
      .failed error
  | .stall _ =>
      .timedOut

theorem WriteOutcome.result_ne_done
    {outcome : WriteOutcome}
    (notOk : outcome ≠ .ok) :
    outcome.result ≠ .done := by
  cases outcome with
  | ok =>
      exact absurd rfl notOk
  | failed accepted error =>
      exact nofun
  | stall accepted =>
      exact nofun

namespace Conn

/-- `write_all` of `bytes`, or `flush` where `bytes` is empty. -/
def write
    (bytes : List UInt8)
    (conn : Conn) :
    WriteResult × Conn :=
  match conn.writes with
  | [] =>
      (.done, { conn with sent := conn.sent ++ bytes })
  | .ok :: rest =>
      (.done, { conn with writes := rest, sent := conn.sent ++ bytes })
  | .failed accepted error :: rest =>
      -- A write that fails has not accepted its last byte.
      (.failed error,
        { conn with
          writes := rest
          sent :=
            conn.sent ++ bytes.take (min accepted (bytes.length - 1)) })
  | .stall accepted :: rest =>
      (.timedOut,
        { conn with
          writes := rest
          sent :=
            conn.sent ++ bytes.take (min accepted (bytes.length - 1)) })

/-- Several writes under one timeout; the first that fails ends them. -/
def writeEach :
    List (List UInt8) → Conn → WriteResult × Conn
  | [], conn =>
      (.done, conn)
  | bytes :: rest, conn =>
      match conn.write bytes with
      | (.done, after) =>
          writeEach rest after
      | failure =>
          failure

/-- Hand a connection to a request that has not sent anything on it yet. -/
def handedOver (conn : Conn) : Conn :=
  { conn with sent := [] }

/-! ## Writing -/

/-- Whether the next `count` writes succeed. -/
def Accepts (count : Nat) (conn : Conn) : Prop :=
  ∀ outcome ∈ conn.writes.take count, outcome = .ok

@[simp]
theorem reads_handedOver (conn : Conn) :
    conn.handedOver.reads = conn.reads :=
  rfl

theorem accepts_handedOver
    (conn : Conn)
    {count : Nat} :
    conn.handedOver.Accepts count ↔ conn.Accepts count :=
  Iff.rfl

/-- One of the writes that are accepted. -/
theorem Accepts.eq_ok
    {count index : Nat}
    {conn : Conn}
    {outcome : WriteOutcome}
    (accepts : conn.Accepts count)
    (isOutcome : conn.writes[index]? = some outcome)
    (within : index < count) :
    outcome = .ok := by
  apply accepts
  apply List.mem_of_getElem?
  rw [List.getElem?_take_of_lt within]
  exact isOutcome

/-- The connection after writing `items` in full. -/
def wrote (items : List (List UInt8)) (conn : Conn) : Conn :=
  { conn with
    writes := conn.writes.drop items.length
    sent := conn.sent ++ items.flatten }

@[simp]
theorem reads_wrote
    (items : List (List UInt8))
    (conn : Conn) :
    (conn.wrote items).reads = conn.reads :=
  rfl

/-- One write succeeds, and then writes everything, iff its outcome is `ok`. -/
theorem write_cases
    (bytes : List UInt8)
    (conn : Conn) :
    conn.write bytes = (.done, conn.wrote [bytes]) ∧ conn.Accepts 1 ∨
      (conn.write bytes).1 ≠ .done ∧ ¬ conn.Accepts 1 := by
  obtain ⟨writes, reads, sent⟩ := conn
  rcases writes with _ | ⟨outcome, later⟩
  · left
    simp [write, wrote, Accepts]
  · cases outcome with
    | ok =>
        left
        simp [write, wrote, Accepts]
    | failed accepted error =>
        right
        simp [write, Accepts]
    | stall accepted =>
        right
        simp [write, Accepts]

/-- The next `first + second` writes are the next `first` and those after. -/
theorem accepts_add
    (items : List (List UInt8))
    (count : Nat)
    (conn : Conn) :
    conn.Accepts (items.length + count) ↔
      conn.Accepts items.length ∧ (conn.wrote items).Accepts count := by
  simp only [Accepts, wrote, List.take_add, List.mem_append]
  constructor
  · intro both
    exact ⟨fun outcome member => both outcome (.inl member),
      fun outcome member => both outcome (.inr member)⟩
  · rintro ⟨first, second⟩ outcome (member | member)
    · exact first outcome member
    · exact second outcome member

theorem wrote_append
    (first second : List (List UInt8))
    (conn : Conn) :
    (conn.wrote first).wrote second = conn.wrote (first ++ second) := by
  simp [wrote]

/-- Writing succeeds, and then writes everything, iff every write does. -/
theorem writeEach_cases
    (items : List (List UInt8))
    (conn : Conn) :
    conn.writeEach items = (.done, conn.wrote items) ∧
        conn.Accepts items.length ∨
      (conn.writeEach items).1 ≠ .done ∧
        ¬ conn.Accepts items.length := by
  induction items generalizing conn with
  | nil =>
      left
      simp [writeEach, wrote, Accepts]
  | cons bytes rest inductionHypothesis =>
      have split := accepts_add [bytes] rest.length conn
      rw [List.length_singleton, Nat.add_comm] at split
      rw [writeEach, List.length_cons, split]
      rcases write_cases bytes conn with
          ⟨written, accepts⟩ | ⟨notDone, refuses⟩
      · rw [written]
        rcases inductionHypothesis (conn.wrote [bytes]) with
            ⟨restWritten, restAccepts⟩ | ⟨restFails, restRefuses⟩
        · left
          refine ⟨?_, accepts, restAccepts⟩
          dsimp only
          rw [restWritten, wrote_append]
          rfl
        · right
          exact ⟨restFails, fun both => restRefuses both.2⟩
      · right
        refine ⟨?_, fun both => refuses both.1⟩
        split
        · rename_i isDone
          rw [isDone] at notDone
          exact absurd rfl notDone
        · exact notDone

/-- A successful write leaves the connection as having written. -/
theorem writeEach_done
    {items : List (List UInt8)}
    {conn : Conn}
    (done : (conn.writeEach items).1 = .done) :
    conn.writeEach items = (.done, conn.wrote items) ∧
      conn.Accepts items.length := by
  rcases writeEach_cases items conn with success | ⟨notDone, _⟩
  · exact success
  · exact absurd done notDone

theorem writeEach_of_accepts
    {items : List (List UInt8)}
    {conn : Conn}
    (accepts : conn.Accepts items.length) :
    conn.writeEach items = (.done, conn.wrote items) := by
  rcases writeEach_cases items conn with ⟨written, _⟩ | ⟨_, refuses⟩
  · exact written
  · exact absurd accepts refuses

/-- Whatever happens, what is sent begins what was to be sent. -/
theorem prefix_sent_writeEach
    (items : List (List UInt8))
    (conn : Conn) :
    (conn.writeEach items).2.sent <+: conn.sent ++ items.flatten := by
  induction items generalizing conn with
  | nil =>
      simp [writeEach]
  | cons bytes rest inductionHypothesis =>
      have part :
          (conn.write bytes).2.sent <+: conn.sent ++ bytes := by
        unfold write
        split
        · exact List.prefix_rfl
        · exact List.prefix_rfl
        · exact (List.prefix_append_right_inj _).mpr
            (List.take_prefix _ _)
        · exact (List.prefix_append_right_inj _).mpr
            (List.take_prefix _ _)
      rcases write_cases bytes conn with
          ⟨written, _⟩ | ⟨notDone, _⟩
      · have onwards := inductionHypothesis (conn.wrote [bytes])
        rw [writeEach, written]
        simpa [wrote] using onwards
      · have stops :
            conn.writeEach (bytes :: rest) = conn.write bytes := by
          rw [writeEach]
          split
          · rename_i isDone
            rw [isDone] at notDone
            exact absurd rfl notDone
          · rfl
        rw [stops, List.flatten_cons, ← List.append_assoc]
        exact part.trans (List.prefix_append _ _)

/--
A write of some bytes and a flush: both succeed, the flush fails after all bytes
were accepted, or the write fails before its last byte.
-/
theorem writeFlush_cases
    {bytes : List UInt8}
    (nonempty : bytes ≠ [])
    (conn : Conn) :
    (conn.Accepts 2 ∧
      conn.writeEach [bytes, []] = (.done, conn.wrote [bytes, []])) ∨
    (∃ outcome after,
      conn.Accepts 1 ∧
        conn.writes[1]? = some outcome ∧
        outcome ≠ .ok ∧
        conn.writeEach [bytes, []] = (outcome.result, after) ∧
        after.sent = conn.sent ++ bytes) ∨
    ∃ outcome after,
      conn.writes[0]? = some outcome ∧
        outcome ≠ .ok ∧
        conn.writeEach [bytes, []] = (outcome.result, after) ∧
        after.sent.length < conn.sent.length + bytes.length := by
  have shorter (accepted : Nat) :
      min accepted (bytes.length - 1) < bytes.length := by
    have positive := List.length_pos_iff.mpr nonempty
    omega
  obtain ⟨writes, reads, sent⟩ := conn
  rcases writes with _ | ⟨_ | ⟨accepted, error⟩ | accepted, later⟩
  · left
    simp [writeEach, write, wrote, Accepts]
  · rcases later with _ | ⟨_ | ⟨accepted, error⟩ | accepted, rest⟩
    · left
      simp [writeEach, write, wrote, Accepts]
    · left
      simp [writeEach, write, wrote, Accepts]
    · right
      left
      refine ⟨_, _, by simp [Accepts], rfl, by simp, rfl, ?_⟩
      simp
    · right
      left
      refine ⟨_, _, by simp [Accepts], rfl, by simp, rfl, ?_⟩
      simp
  · right
    right
    refine ⟨_, _, rfl, by simp, rfl, ?_⟩
    simpa using shorter accepted
  · right
    right
    refine ⟨_, _, rfl, by simp, rfl, ?_⟩
    simpa using shorter accepted

end Conn

end Sweety
