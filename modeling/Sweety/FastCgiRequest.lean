import Sweety.FastCgi
import Sweety.FcgiWire

namespace Sweety.FastCgi

open HttpText FcgiWire

/-!
# FastCGI requests, written and read

What the handler sends is read by the reference reader of the format: the same
parameters and the same body, if neither of them is empty.  An empty stream is
closed twice, since the record of the empty data is itself the one that closes.
-/

/-! ## Lengths and pairs -/

/-- A length of less than 31 bits is read back. -/
theorem readLength?_encodeLength
    {length : Nat}
    (small : length < 2 ^ 31)
    (rest : List UInt8) :
    readLength? (encodeLength length ++ rest) = some (length, rest) := by
  unfold encodeLength
  split
  · next short =>
      have isLength : (UInt8.ofNat length).toNat = length := by
        rw [UInt8.toNat_ofNat']
        omega
      have isShort : length < 2 ^ 7 := by
        omega
      unfold readLength?
      rw [List.singleton_append]
      dsimp only
      rw [isLength, if_pos isShort]
  · next long =>
      have isMarked :
          length % 2 ^ 32 ||| 0x80000000 = 2 ^ 31 + length := by
        have isSum := Nat.two_pow_add_eq_or_of_lt small 1
        rw [Nat.mul_one] at isSum
        rw [isSum, Nat.mod_eq_of_lt (by omega), Nat.or_comm]
      have isFirst :
          (UInt8.ofNat ((2 ^ 31 + length) / 2 ^ 24)).toNat =
            2 ^ 7 + length / 2 ^ 24 := by
        rw [UInt8.toNat_ofNat']
        omega
      unfold readLength?
      rw [isMarked, be32]
      simp only [List.cons_append, List.nil_append, isFirst,
        if_neg (by omega : ¬ 2 ^ 7 + length / 2 ^ 24 < 2 ^ 7), number,
        UInt8.toNat_ofNat', Option.some.injEq, Prod.mk.injEq, and_true]
      omega

/-- A pair is read back. -/
theorem readPair?_encodeNvPair
    {name value : List UInt8}
    (nameSmall : name.length < 2 ^ 31)
    (valueSmall : value.length < 2 ^ 31)
    (rest : List UInt8) :
    readPair? (encodeNvPair name value ++ rest) =
      some ((name, value), rest) := by
  simp only [encodeNvPair, List.append_assoc]
  apply readPair?_of_lengths (readLength?_encodeLength nameSmall _)
  rw [readLength?_encodeLength valueSmall, List.append_assoc]

/-- A parameter as bytes. -/
def paramBytes (param : String × String) : List UInt8 × List UInt8 :=
  (encodeUtf8 param.1.toList, encodeUtf8 param.2.toList)

/-- The contents of the records for parameters. -/
def paramsContent (params : List (String × String)) : List UInt8 :=
  params.flatMap fun param =>
    encodeNvPair (encodeUtf8 param.1.toList) (encodeUtf8 param.2.toList)

/-- No name and no value has 31 bits of length. -/
def ShortParams (params : List (String × String)) : Prop :=
  ∀ param ∈ params,
    (encodeUtf8 param.1.toList).length < 2 ^ 31 ∧
      (encodeUtf8 param.2.toList).length < 2 ^ 31

instance (params : List (String × String)) :
    Decidable (ShortParams params) :=
  inferInstanceAs (Decidable (∀ param ∈ params, _ ∧ _))

/-- The parameters are read back in order. -/
theorem readPairs?_paramsContent
    {params : List (String × String)}
    (short : ShortParams params) :
    readPairs? (paramsContent params) =
      some (params.map paramBytes) := by
  induction params with
  | nil =>
      exact readPairs?_nil
  | cons param others inductionHypothesis =>
      obtain ⟨nameSmall, valueSmall⟩ := short param List.mem_cons_self
      have isRead :=
        readPair?_encodeNvPair nameSmall valueSmall (paramsContent others)
      have later : ShortParams others := fun other member =>
        short other (List.mem_cons_of_mem param member)
      have goesOn := readPairs?_cons isRead
      rw [inductionHypothesis later] at goesOn
      exact goesOn

/-! ## Records -/

/-- The record with this content, aligned to eight bytes. -/
def contentRecord
    (recordType : UInt8)
    (content : List UInt8)
    (fits : content.length ≤ maxContent) :
    Record where
  recordType
  requestId := 1
  content
  padding := List.replicate ((8 - content.length % 8) % 8) 0
  idFits := by decide
  contentFits := Nat.lt_of_le_of_lt fits (by decide)
  paddingFits := by
    rw [List.length_replicate]
    omega

theorem aligned_contentRecord
    (recordType : UInt8)
    (content : List UInt8)
    (fits : content.length ≤ maxContent) :
    (contentRecord recordType content fits).Aligned := by
  simp only [Record.Aligned, contentRecord, List.length_replicate]
  omega

theorem bytes_contentRecord
    (recordType : UInt8)
    (content : List UInt8)
    (fits : content.length ≤ maxContent) :
    (contentRecord recordType content fits).bytes =
      writeFcgiHeader recordType 1 content.length
          ((8 - content.length % 8) % 8) ++
        content ++
        List.replicate ((8 - content.length % 8) % 8) 0 := by
  simp only [Record.bytes, Record.header, contentRecord,
    List.length_replicate]
  rfl

/-- The record that closes a stream. -/
def emptyRecord (recordType : UInt8) : Record :=
  contentRecord recordType [] (Nat.zero_le _)

/-- The records of some data. -/
def dataRecords (recordType : UInt8) (data : List UInt8) :
    List Record :=
  if _nonempty : data = [] then
    []
  else
    contentRecord recordType (data.take maxContent)
        (List.length_take_le _ _) ::
      dataRecords recordType (data.drop maxContent)
  termination_by data.length
  decreasing_by
    have positive := List.length_pos_iff.mpr _nonempty
    rw [List.length_drop]
    exact Nat.sub_lt positive (by decide)

/-- What the records of some data have in common. -/
structure IsStream
    (recordType : UInt8)
    (data : List UInt8)
    (records : List Record) :
    Prop where
  isType : ∀ record ∈ records, record.recordType = recordType
  nonempty : ∀ record ∈ records, record.content ≠ []
  aligned : ∀ record ∈ records, record.Aligned
  isId : ∀ record ∈ records, record.requestId = 1
  isData : records.flatMap Record.content = data

namespace IsStream

variable
  {recordType : UInt8}
  {data : List UInt8}
  {record : Record}
  {others : List Record}

theorem first
    (isStream : IsStream recordType data (record :: others)) :
    record.recordType = recordType ∧ record.content ≠ [] :=
  ⟨isStream.isType record List.mem_cons_self,
    isStream.nonempty record List.mem_cons_self⟩

theorem tail
    (isStream : IsStream recordType data (record :: others)) :
    IsStream recordType (others.flatMap Record.content) others where
  isType := (List.forall_mem_cons.mp isStream.isType).2
  nonempty := (List.forall_mem_cons.mp isStream.nonempty).2
  aligned := (List.forall_mem_cons.mp isStream.aligned).2
  isId := (List.forall_mem_cons.mp isStream.isId).2
  isData := rfl

end IsStream

theorem isStream_dataRecords
    (recordType : UInt8)
    (data : List UInt8) :
    IsStream recordType data (dataRecords recordType data) := by
  fun_induction dataRecords recordType data with
  | case1 =>
      exact ⟨nofun, nofun, nofun, nofun, rfl⟩
  | case2 data nonempty inductionHypothesis =>
      have isContent :
          data.take maxContent ≠ [] := by
        rw [ne_eq, List.take_eq_nil_iff, not_or]
        exact ⟨by decide, nonempty⟩
      refine ⟨?_, ?_, ?_, ?_, ?_⟩
      · exact List.forall_mem_cons.mpr ⟨rfl, inductionHypothesis.isType⟩
      · exact List.forall_mem_cons.mpr
          ⟨isContent, inductionHypothesis.nonempty⟩
      · exact List.forall_mem_cons.mpr
          ⟨aligned_contentRecord _ _ _, inductionHypothesis.aligned⟩
      · exact List.forall_mem_cons.mpr ⟨rfl, inductionHypothesis.isId⟩
      · rw [List.flatMap_cons, inductionHypothesis.isData]
        exact List.take_append_drop maxContent data

theorem writeFcgiChunks_eq
    (recordType : UInt8)
    (data : List UInt8) :
    writeFcgiChunks recordType 1 data =
      (dataRecords recordType data).flatMap Record.bytes := by
  fun_induction dataRecords recordType data with
  | case1 =>
      rw [writeFcgiChunks, dif_pos rfl, List.flatMap_nil]
  | case2 data nonempty inductionHypothesis =>
      rw [writeFcgiChunks, dif_neg nonempty, List.flatMap_cons,
        bytes_contentRecord, inductionHypothesis]

/-- The records that `write_fcgi_record` writes. -/
def recordsOf (recordType : UInt8) (data : List UInt8) : List Record :=
  if data = [] then
    [emptyRecord recordType]
  else
    dataRecords recordType data

theorem writeFcgiRecord_eq
    (recordType : UInt8)
    (data : List UInt8) :
    writeFcgiRecord recordType 1 data =
      (recordsOf recordType data).flatMap Record.bytes := by
  unfold writeFcgiRecord recordsOf
  by_cases empty : data = []
  · subst empty
    rfl
  · rw [if_neg (by simpa using empty), if_neg empty, writeFcgiChunks_eq]

/-- The record that begins a request. -/
def beginRecord : Record :=
  contentRecord FcgiWire.beginRequest [0, 1, 1, 0, 0, 0, 0, 0] (by decide)

/-- The records of a request. -/
def requestRecords
    (params : List (String × String))
    (stdinBody : List UInt8) :
    List Record :=
  beginRecord ::
    (recordsOf FcgiWire.paramsType (paramsContent params) ++
      emptyRecord FcgiWire.paramsType ::
        (recordsOf FcgiWire.stdinType stdinBody ++
          [emptyRecord FcgiWire.stdinType]))

theorem requestPacket_eq
    (params : List (String × String))
    (stdinBody : List UInt8) :
    requestPacket params stdinBody =
      (requestRecords params stdinBody).flatMap Record.bytes := by
  have isBegin :
      beginRecord.bytes =
        writeFcgiHeader beginRequest 1 8 0 ++ be16 responder ++ [1] ++
          List.replicate 5 0 := by
    decide
  have isEmpty (recordType : UInt8) :
      writeFcgiRecord recordType 1 [] = (emptyRecord recordType).bytes :=
    rfl
  simp only [requestPacket, requestRecords, List.flatMap_cons,
    List.flatMap_append, List.flatMap_nil, List.append_nil, isBegin,
    ← isEmpty, ← writeFcgiRecord_eq, List.append_assoc]
  rfl

/-! ## The request as it is read -/

section Streams

variable
  {recordType : UInt8}
  {data : List UInt8}

theorem readStream?_recordsOf
    (nonempty : data ≠ [])
    (rest : List Record) :
    readStream? recordType
        (recordsOf recordType data ++ emptyRecord recordType :: rest) =
      some (data, rest) := by
  have isStream := isStream_dataRecords recordType data
  rw [recordsOf, if_neg nonempty,
    readStream?_append isStream.isType isStream.nonempty rfl rfl,
    isStream.isData]

/-- The record of empty data closes the stream. -/
theorem readStream?_recordsOf_nil (rest : List Record) :
    readStream? recordType
        (recordsOf recordType [] ++ emptyRecord recordType :: rest) =
      some ([], emptyRecord recordType :: rest) := by
  simp [recordsOf, readStream?, emptyRecord, contentRecord]

theorem aligned_recordsOf :
    ∀ record ∈ recordsOf recordType data,
      record.Aligned ∧ record.requestId = 1 := by
  have isStream := isStream_dataRecords recordType data
  unfold recordsOf
  split
  · intro record isRecord
    obtain rfl := List.mem_singleton.mp isRecord
    exact ⟨aligned_contentRecord _ _ _, rfl⟩
  · intro record isRecord
    exact ⟨isStream.aligned record isRecord,
      isStream.isId record isRecord⟩

end Streams

theorem aligned_requestRecords
    (params : List (String × String))
    (stdinBody : List UInt8) :
    ∀ record ∈ requestRecords params stdinBody,
      record.Aligned ∧ record.requestId = beginRecord.requestId := by
  intro record isRecord
  simp only [requestRecords, List.mem_cons, List.mem_append,
    List.not_mem_nil, or_false] at isRecord
  rcases isRecord with rfl | isParams | rfl | isStdin | rfl
  · exact ⟨aligned_contentRecord _ _ _, rfl⟩
  · exact aligned_recordsOf record isParams
  · exact ⟨aligned_contentRecord _ _ _, rfl⟩
  · exact aligned_recordsOf record isStdin
  · exact ⟨aligned_contentRecord _ _ _, rfl⟩

/-- The request that an application is to read. -/
def requestFor
    (params : List (String × String))
    (stdinBody : List UInt8) :
    Request where
  role := responder
  keepConn := true
  params := params.map paramBytes
  stdin := stdinBody

theorem paramsContent_eq_nil_iff {params : List (String × String)} :
    paramsContent params = [] ↔ params = [] := by
  cases params with
  | nil =>
      exact iff_of_true rfl rfl
  | cons param others =>
      refine iff_of_false ?_ (List.cons_ne_nil _ _)
      intro empty
      rw [paramsContent, List.flatMap_cons, List.append_eq_nil_iff,
        encodeNvPair, List.append_assoc, List.append_assoc,
        List.append_eq_nil_iff, encodeLength] at empty
      obtain ⟨⟨isLength, _⟩, _⟩ := empty
      split at isLength
      · cases isLength
      · cases isLength

/-- What is read of the streams of a packet. -/
theorem readRequest?_eq
    (params : List (String × String))
    (stdinBody : List UInt8) :
    readRequest? (requestPacket params stdinBody) =
      (readStream? FcgiWire.paramsType
          (requestRecords params stdinBody).tail).bind fun stream =>
        (readPairs? stream.1).bind fun pairs =>
          (readStream? FcgiWire.stdinType stream.2).bind fun stdin =>
            if stdin.2 = [] then
              some ⟨responder, true, pairs, stdin.1⟩
            else
              none := by
  have isBegin : readBegin? beginRecord = some (responder, true) := rfl
  rw [readRequest?, requestPacket_eq, readRecords?_flatMap]
  exact requestOf?_eq isBegin (aligned_requestRecords params stdinBody)

/-- The streams of a request without parameters do not follow each other. -/
theorem readRequest?_noParams (stdinBody : List UInt8) :
    readRequest? (requestPacket [] stdinBody) = none := by
  have noContent : paramsContent [] = [] := rfl
  rw [readRequest?_eq, requestRecords, List.tail_cons, noContent,
    readStream?_recordsOf_nil, Option.bind_some, readPairs?_nil,
    Option.bind_some]
  rfl

/-- A record follows a request without a body. -/
theorem readRequest?_noBody
    {params : List (String × String)}
    (short : ShortParams params)
    (nonempty : params ≠ []) :
    readRequest? (requestPacket params []) = none := by
  rw [readRequest?_eq, requestRecords, List.tail_cons,
    readStream?_recordsOf (mt paramsContent_eq_nil_iff.mp nonempty),
    Option.bind_some, readPairs?_paramsContent short, Option.bind_some,
    readStream?_recordsOf_nil, Option.bind_some,
    if_neg (List.cons_ne_nil _ _)]

/--
The packet is one request with these parameters and this body exactly if neither
is empty: a stream without data is closed twice.
-/
theorem readRequest?_requestPacket_iff
    {params : List (String × String)}
    (short : ShortParams params)
    (stdinBody : List UInt8) :
    readRequest? (requestPacket params stdinBody) =
        some (requestFor params stdinBody) ↔
      params ≠ [] ∧ stdinBody ≠ [] := by
  by_cases noParams : params = []
  · subst noParams
    rw [readRequest?_noParams]
    exact iff_of_false nofun fun both => both.1 rfl
  · by_cases noBody : stdinBody = []
    · subst noBody
      rw [readRequest?_noBody short noParams]
      exact iff_of_false nofun fun both => both.2 rfl
    · refine iff_of_true ?_ ⟨noParams, noBody⟩
      rw [readRequest?_eq, requestRecords, List.tail_cons,
        readStream?_recordsOf (mt paramsContent_eq_nil_iff.mp noParams),
        Option.bind_some, readPairs?_paramsContent short,
        Option.bind_some, readStream?_recordsOf noBody,
        Option.bind_some, if_pos rfl]
      rfl

/-- A request with a parameter and a body. -/
theorem readRequest?_post :
    readRequest?
        (requestPacket [("REQUEST_METHOD", "POST")] [97, 61, 98]) =
      some (requestFor [("REQUEST_METHOD", "POST")] [97, 61, 98]) := by
  have short : ShortParams [("REQUEST_METHOD", "POST")] := by
    decide
  exact (readRequest?_requestPacket_iff short [97, 61, 98]).mpr
    ⟨by decide, by decide⟩

/-- A request without a body closes the stream of its body twice. -/
theorem not_readRequest?_get :
    readRequest? (requestPacket [("REQUEST_METHOD", "GET")] []) ≠
      some (requestFor [("REQUEST_METHOD", "GET")] []) := by
  have short : ShortParams [("REQUEST_METHOD", "GET")] := by
    decide
  rw [readRequest?_noBody short (List.cons_ne_nil _ _)]
  exact nofun

end Sweety.FastCgi
