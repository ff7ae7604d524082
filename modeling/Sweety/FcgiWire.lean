import Mathlib.Algebra.Group.Nat.Defs
import Mathlib.Tactic.Common

/-!
# FastCGI on the wire

A reference reader of the FastCGI 1.0 format: records, streams that an empty
record closes, name-value pairs, and the request of a responder.  It is strict:
a record of another type within a stream, a record behind the request, or one
that is not aligned to eight bytes is refused.
-/

namespace FcgiWire

/-! ## Numbers -/

/-- A number of two bytes, the larger first. -/
def number (high low : UInt8) : Nat :=
  high.toNat * 2 ^ 8 + low.toNat

theorem number_lt (high low : UInt8) : number high low < 2 ^ 16 := by
  have highLt : high.toNat < 256 := high.toNat_lt
  have lowLt : low.toNat < 256 := low.toNat_lt
  rw [number]
  omega

theorem number_eq
    {value : Nat}
    (small : value < 2 ^ 16) :
    number (UInt8.ofNat (value / 2 ^ 8)) (UInt8.ofNat value) = value := by
  rw [number, UInt8.toNat_ofNat', UInt8.toNat_ofNat']
  omega

/-! ## Records -/

/-- A record, with its padding. -/
structure Record where
  recordType : UInt8
  requestId : Nat
  content : List UInt8
  padding : List UInt8
  idFits : requestId < 2 ^ 16
  contentFits : content.length < 2 ^ 16
  paddingFits : padding.length < 2 ^ 8
  deriving DecidableEq

namespace Record

/-- The eight bytes before the content. -/
def header (record : Record) : List UInt8 :=
  [1, record.recordType,
    UInt8.ofNat (record.requestId / 2 ^ 8), UInt8.ofNat record.requestId,
    UInt8.ofNat (record.content.length / 2 ^ 8),
    UInt8.ofNat record.content.length,
    UInt8.ofNat record.padding.length, 0]

/-- A record as it is sent. -/
def bytes (record : Record) : List UInt8 :=
  record.header ++ record.content ++ record.padding

/-- The record ends at a multiple of eight bytes. -/
def Aligned (record : Record) : Prop :=
  (record.content.length + record.padding.length) % 8 = 0

instance (record : Record) : Decidable record.Aligned :=
  inferInstanceAs (Decidable (_ % 8 = 0))

end Record

/-- Read a record of version 1. -/
def readRecord? : List UInt8 → Option (Record × List UInt8)
  | version :: recordType :: idHigh :: idLow :: lengthHigh ::
      lengthLow :: paddingLength :: _ :: rest =>
      let length := number lengthHigh lengthLow
      let padding := paddingLength.toNat
      if version = 1 ∧ length + padding ≤ rest.length then
        some
          ({ recordType
             requestId := number idHigh idLow
             content := rest.take length
             padding := (rest.drop length).take padding
             idFits := number_lt idHigh idLow
             contentFits :=
               Nat.lt_of_le_of_lt (List.length_take_le _ _)
                 (number_lt lengthHigh lengthLow)
             paddingFits :=
               Nat.lt_of_le_of_lt (List.length_take_le _ _)
                 paddingLength.toNat_lt },
            rest.drop (length + padding))
      else
        none
  | _ =>
      none

/-- A record is read back, and nothing of what follows it. -/
theorem readRecord?_bytes (record : Record) (rest : List UInt8) :
    readRecord? (record.bytes ++ rest) = some (record, rest) := by
  obtain ⟨recordType, requestId, content, padding, idFits, contentFits,
    paddingFits⟩ := record
  have isPadding :
      (UInt8.ofNat padding.length).toNat = padding.length := by
    rw [UInt8.toNat_ofNat', Nat.mod_eq_of_lt paddingFits]
  have isBytes :
      (content ++ padding ++ rest).take content.length = content := by
    rw [List.append_assoc, List.take_left]
  have isRest :
      (content ++ padding ++ rest).drop content.length =
        padding ++ rest := by
    rw [List.append_assoc, List.drop_left]
  have isAfter :
      (content ++ padding ++ rest).drop
        (content.length + padding.length) = rest := by
    rw [← List.length_append, List.drop_left]
  have within :
      content.length + padding.length ≤
        (content ++ padding ++ rest).length := by
    simp only [List.length_append]
    omega
  simp only [Record.bytes, Record.header, List.cons_append,
    List.nil_append, readRecord?, number_eq contentFits, number_eq idFits,
    isPadding, isBytes, isRest, isAfter, within, List.take_left, and_self,
    if_true]

theorem length_readRecord?
    {bytes rest : List UInt8}
    {record : Record}
    (isRead : readRecord? bytes = some (record, rest)) :
    rest.length < bytes.length := by
  unfold readRecord? at isRead
  split at isRead
  · dsimp only at isRead
    split at isRead
    · obtain ⟨_, rfl⟩ := Prod.mk.inj (Option.some.inj isRead)
      simp only [List.length_drop, List.length_cons]
      omega
    · cases isRead
  · cases isRead

/-- Read records up to the last byte. -/
def readRecords? (bytes : List UInt8) : Option (List Record) :=
  if bytes = [] then
    some []
  else
    match _isRead : readRecord? bytes with
    | some (record, rest) =>
        (readRecords? rest).map fun records => record :: records
    | none =>
        none
  termination_by bytes.length
  decreasing_by exact length_readRecord? _isRead

/-- Records that are sent in a row are read back. -/
theorem readRecords?_flatMap (records : List Record) :
    readRecords? (records.flatMap Record.bytes) = some records := by
  induction records with
  | nil =>
      rw [List.flatMap_nil, readRecords?, if_pos rfl]
  | cons record rest inductionHypothesis =>
      have nonempty :
          (record :: rest).flatMap Record.bytes ≠ [] := by
        simp [Record.bytes, Record.header]
      rw [readRecords?, if_neg nonempty]
      split
      · next first after isRead =>
          rw [List.flatMap_cons, readRecord?_bytes] at isRead
          obtain ⟨rfl, rfl⟩ := Prod.mk.inj (Option.some.inj isRead)
          rw [inductionHypothesis]
          rfl
      · next isNone =>
          rw [List.flatMap_cons, readRecord?_bytes] at isNone
          cases isNone

/-! ## Streams -/

/-- Read the records of a stream, up to the empty one. -/
def readStream? (recordType : UInt8) :
    List Record → Option (List UInt8 × List Record)
  | [] =>
      none
  | record :: rest =>
      if record.recordType ≠ recordType then
        none
      else if record.content = [] then
        some ([], rest)
      else
        (readStream? recordType rest).map fun stream =>
          (record.content ++ stream.1, stream.2)

/-- A stream of records with some content, and the record that closes it. -/
theorem readStream?_append
    {recordType : UInt8}
    {records : List Record}
    {last : Record}
    (isType : ∀ record ∈ records, record.recordType = recordType)
    (nonempty : ∀ record ∈ records, record.content ≠ [])
    (isLastType : last.recordType = recordType)
    (empty : last.content = [])
    (rest : List Record) :
    readStream? recordType (records ++ last :: rest) =
      some (records.flatMap Record.content, rest) := by
  induction records with
  | nil =>
      rw [List.nil_append, readStream?, if_neg (by simp [isLastType]),
        if_pos empty]
      rfl
  | cons record others inductionHypothesis =>
      have isFirst := isType record List.mem_cons_self
      rw [List.cons_append, readStream?, if_neg (by simp [isFirst]),
        if_neg (nonempty record List.mem_cons_self),
        inductionHypothesis
          (fun other member =>
            isType other (List.mem_cons_of_mem record member))
          (fun other member =>
            nonempty other (List.mem_cons_of_mem record member))]
      rfl

/-! ## Name-value pairs -/

/-- Read a length of one byte, or of four with the highest bit set. -/
def readLength? : List UInt8 → Option (Nat × List UInt8)
  | [] =>
      none
  | first :: rest =>
      if first.toNat < 2 ^ 7 then
        some (first.toNat, rest)
      else
        match rest with
        | second :: third :: fourth :: after =>
            some
              ((first.toNat - 2 ^ 7) * 2 ^ 24 + second.toNat * 2 ^ 16 +
                number third fourth, after)
        | _ =>
            none

/-- Read a name and a value, with their lengths before them. -/
def readPair? (bytes : List UInt8) :
    Option ((List UInt8 × List UInt8) × List UInt8) := do
  let (nameLength, rest) ← readLength? bytes
  let (valueLength, rest) ← readLength? rest
  if nameLength + valueLength ≤ rest.length then
    some
      ((rest.take nameLength, (rest.drop nameLength).take valueLength),
        rest.drop (nameLength + valueLength))
  else
    none

theorem length_readLength?
    {bytes rest : List UInt8}
    {length : Nat}
    (isRead : readLength? bytes = some (length, rest)) :
    rest.length < bytes.length := by
  unfold readLength? at isRead
  split at isRead
  · cases isRead
  · split at isRead
    · obtain ⟨_, rfl⟩ := Prod.mk.inj (Option.some.inj isRead)
      exact Nat.lt_succ_self _
    · split at isRead
      · obtain ⟨_, rfl⟩ := Prod.mk.inj (Option.some.inj isRead)
        simp only [List.length_cons]
        omega
      · cases isRead

theorem readPair?_of_lengths
    {bytes afterName name value rest : List UInt8}
    (isName : readLength? bytes = some (name.length, afterName))
    (isValue :
      readLength? afterName =
        some (value.length, name ++ value ++ rest)) :
    readPair? bytes = some ((name, value), rest) := by
  have within :
      name.length + value.length ≤ (name ++ value ++ rest).length := by
    simp only [List.length_append]
    omega
  have isTake : (name ++ value ++ rest).take name.length = name := by
    rw [List.append_assoc, List.take_left]
  have isDrop :
      (name ++ value ++ rest).drop name.length = value ++ rest := by
    rw [List.append_assoc, List.drop_left]
  have isAfter :
      (name ++ value ++ rest).drop (name.length + value.length) =
        rest := by
    rw [← List.length_append, List.drop_left]
  simp only [readPair?, isName, isValue, Option.bind_eq_bind,
    Option.bind_some, if_pos within, isTake, isDrop, isAfter,
    List.take_left]

theorem length_readPair?
    {bytes rest : List UInt8}
    {pair : List UInt8 × List UInt8}
    (isRead : readPair? bytes = some (pair, rest)) :
    rest.length < bytes.length := by
  simp only [readPair?, Option.bind_eq_bind,
    Option.bind_eq_some_iff] at isRead
  obtain ⟨⟨nameLength, afterName⟩, isName, ⟨valueLength, afterValue⟩,
    isValue, isPair⟩ := isRead
  dsimp only at isValue isPair
  have nameRead := length_readLength? isName
  have valueRead := length_readLength? isValue
  split at isPair
  · obtain ⟨_, rfl⟩ := Prod.mk.inj (Option.some.inj isPair)
    rw [List.length_drop]
    omega
  · cases isPair

/-- Read pairs up to the last byte. -/
def readPairs? (bytes : List UInt8) :
    Option (List (List UInt8 × List UInt8)) :=
  if bytes = [] then
    some []
  else
    match _isRead : readPair? bytes with
    | some (pair, rest) =>
        (readPairs? rest).map fun pairs => pair :: pairs
    | none =>
        none
  termination_by bytes.length
  decreasing_by exact length_readPair? _isRead

/-- A pair before others is read first. -/
theorem readPairs?_cons
    {bytes rest : List UInt8}
    {pair : List UInt8 × List UInt8}
    (isRead : readPair? bytes = some (pair, rest)) :
    readPairs? bytes =
      (readPairs? rest).map fun pairs => pair :: pairs := by
  have nonempty : bytes ≠ [] := by
    rintro rfl
    cases isRead
  rw [readPairs?, if_neg nonempty]
  split
  · next first after isFirst =>
      rw [isRead] at isFirst
      obtain ⟨rfl, rfl⟩ := Prod.mk.inj (Option.some.inj isFirst)
      rfl
  · next isNone =>
      rw [isRead] at isNone
      cases isNone

theorem readPairs?_nil : readPairs? [] = some [] := by
  rw [readPairs?, if_pos rfl]

/-! ## Requests -/

/-- `FCGI_BEGIN_REQUEST`. -/
def beginRequest : UInt8 := 1

/-- `FCGI_PARAMS`. -/
def paramsType : UInt8 := 4

/-- `FCGI_STDIN`. -/
def stdinType : UInt8 := 5

/-- What an application is asked for. -/
structure Request where
  role : Nat
  keepConn : Bool
  params : List (List UInt8 × List UInt8)
  stdin : List UInt8
  deriving Repr, DecidableEq

/-- The role and the flag of a record that begins a request. -/
def readBegin? (record : Record) : Option (Nat × Bool) :=
  match record.content with
  | [roleHigh, roleLow, flags, _, _, _, _, _] =>
      if record.recordType = beginRequest then
        some (number roleHigh roleLow, flags.toNat % 2 = 1)
      else
        none
  | _ =>
      none

/-- The request that the records make up, all of them with one identifier. -/
def requestOf? : List Record → Option Request
  | [] =>
      none
  | first :: others => do
      let (role, keepConn) ← readBegin? first
      let (params, rest) ← readStream? paramsType others
      let pairs ← readPairs? params
      let (stdin, rest) ← readStream? stdinType rest
      if rest = [] ∧
          ∀ record ∈ first :: others,
            record.Aligned ∧ record.requestId = first.requestId then
        some ⟨role, keepConn, pairs, stdin⟩
      else
        none

/-- The request of aligned records, by what is read of its streams. -/
theorem requestOf?_eq
    {first : Record}
    {others : List Record}
    {role : Nat}
    {keepConn : Bool}
    (isBegin : readBegin? first = some (role, keepConn))
    (aligned :
      ∀ record ∈ first :: others,
        record.Aligned ∧ record.requestId = first.requestId) :
    requestOf? (first :: others) =
      (readStream? paramsType others).bind fun params =>
        (readPairs? params.1).bind fun pairs =>
          (readStream? stdinType params.2).bind fun stdin =>
            if stdin.2 = [] then
              some ⟨role, keepConn, pairs, stdin.1⟩
            else
              none := by
  have isAligned := eq_true aligned
  rw [requestOf?, isBegin]
  simp only [Option.bind_eq_bind, Option.bind_some, isAligned, and_true]

/-- Read a request, up to the last byte. -/
def readRequest? (bytes : List UInt8) : Option Request := do
  requestOf? (← readRecords? bytes)

end FcgiWire
