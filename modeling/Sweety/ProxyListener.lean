import Sweety.ProxyHeaderRoundTrip

namespace Sweety.ProxyProtocol

open HttpText FirstOccurrence

/-!
# The PROXY header at a listener

Model of `parse_proxy_protocol_header` in the `service.rs` of the http core,
and of what a connection is behind it.  The listener looks once at what has
arrived, takes the header out of the connection, and goes on with the bytes
behind it; a header that has not arrived by then closes the connection.
-/

/-! ## The reader -/

/-- The length of the buffer that is peeked into. -/
def peekLen : Nat := 232

/-- What one look gave, and how many bytes it took out of the connection. -/
structure Reading where
  client : Except String (Option SocketAddr)
  consumed : Nat
  deriving Repr, DecidableEq

/-- An error before anything was taken. -/
def refuse (text : String) : Reading :=
  ⟨.error text, 0⟩

/-- A byte of the buffer, which holds zeros behind what was peeked. -/
def byteOf (buf : List UInt8) (index : Nat) : UInt8 :=
  buf.getD index 0

/-- `copy_from_slice` of sixteen bytes, and `Ipv6Addr::from`. -/
def ipv6Of (buf : List UInt8) (start : Nat) : Ipv6Addr where
  octets := (List.range 16).map fun offset => byteOf buf (start + offset)
  sixteen := by rw [List.length_map, List.length_range]

/-- The client that a version 2 header names, after it was taken. -/
def v2Client
    (command family addrLen : Nat)
    (buf : List UInt8) :
    Except String (Option SocketAddr) :=
  if command = 0 then
    .ok none
  else if command ≠ 1 then
    .error "PROXY v2: 未知命令"
  else if family = 1 ∧ 12 ≤ addrLen then
    .ok (some
      ⟨.v4 ⟨byteOf buf 16, byteOf buf 17, byteOf buf 18, byteOf buf 19⟩,
        fromBeBytes (byteOf buf 24) (byteOf buf 25)⟩)
  else if family = 2 ∧ 36 ≤ addrLen then
    .ok (some
      ⟨.v6 (ipv6Of buf 16), fromBeBytes (byteOf buf 48) (byteOf buf 49)⟩)
  else
    .ok none

/-- The branch of version 2. -/
def readV2 (buf : List UInt8) : Reading :=
  let verCmd := (byteOf buf 12).toNat
  let addrLen := (fromBeBytes (byteOf buf 14) (byteOf buf 15)).toNat
  if verCmd / 16 ≠ 2 then
    refuse "PROXY v2: 版本号不是 2"
  else if buf.length < 16 + addrLen then
    refuse "PROXY v2: 数据不足"
  else
    ⟨v2Client (verCmd % 16) ((byteOf buf 13).toNat / 16) addrLen buf,
      16 + addrLen⟩

section Listener

variable (ipv6 : Ipv6Text)

/-- The client that the fields of a line name; the destination is not read. -/
def fieldsClient :
    List (List Char) → Except String (Option SocketAddr)
  | [_, src, _, srcPort, _] =>
      match ipv6.parseIp? src with
      | none =>
          .error "PROXY v1: 源 IP 无效"
      | some srcIp =>
          match parseU16? srcPort with
          | none =>
              .error "PROXY v1: 源端口无效"
          | some srcPort =>
              .ok (some ⟨srcIp, .ofNat srcPort⟩)
  | _ =>
      .error "PROXY v1: 字段数量不正确"

/-- The client that a version 1 line names, after it was taken. -/
def lineClient (bytes : List UInt8) :
    Except String (Option SocketAddr) :=
  match decodeUtf8 bytes with
  | none =>
      .error "PROXY v1: 非 UTF-8"
  | some line =>
      if "UNKNOWN".toList.isPrefixOf line then
        .ok none
      else
        fieldsClient ipv6 (splitN ' ' 5 line)

/-- The branch of version 1. -/
def readV1 (buf : List UInt8) : Reading :=
  match position? [13, 10] (buf.take 108) with
  | none =>
      refuse "PROXY v1: 未找到 \\r\\n"
  | some stop =>
      ⟨lineClient ipv6 (lineOf buf stop), stop + 2⟩

/-- `parse_proxy_protocol_header`, on the bytes that the peek brought. -/
def parseProxyProtocolHeader (buf : List UInt8) : Reading :=
  if buf.length < 8 then
    refuse "PROXY protocol: 数据不足"
  else if 16 ≤ buf.length ∧ buf.take 12 = v2Signature then
    readV2 buf
  else if buf.take 6 = v1Start then
    readV1 ipv6 buf
  else
    refuse "PROXY protocol: 既非 v1 也非 v2 格式"

/--
The connection behind the header: the address of its client, and the bytes that
are left to it.  `arrived` is how many bytes there are when the listener looks.
-/
def acceptConnection
    (peer : SocketAddr)
    (arrived : Nat)
    (stream : List UInt8) :
    Option (SocketAddr × List UInt8) :=
  let reading :=
    parseProxyProtocolHeader ipv6 ((stream.take arrived).take peekLen)
  match reading.client with
  | .error _ =>
      none
  | .ok client =>
      some (client.getD peer, stream.drop reading.consumed)

end Listener

/-! ## A header is of its own bytes -/

section OwnBytes

variable
  {ipv6 : Ipv6Text}
  {buf more : List UInt8}
  {client : Option SocketAddr}
  {used index : Nat}

/-- The header at the beginning of these bytes, and its length. -/
def Announces
    (ipv6 : Ipv6Text)
    (buf : List UInt8)
    (client : Option SocketAddr)
    (used : Nat) :
    Prop :=
  parseProxyProtocolHeader ipv6 buf = ⟨.ok client, used⟩

theorem byteOf_append
    (within : index < buf.length) :
    byteOf (buf ++ more) index = byteOf buf index := by
  simp only [byteOf, List.getD_eq_getElem?_getD,
    List.getElem?_append_left within]

theorem ipv6Of_append
    {start : Nat}
    (within : start + 16 ≤ buf.length) :
    ipv6Of (buf ++ more) start = ipv6Of buf start := by
  have same :
      (List.range 16).map
          (fun offset => byteOf (buf ++ more) (start + offset)) =
        (List.range 16).map fun offset => byteOf buf (start + offset) := by
    apply List.map_congr_left
    intro offset inRange
    have small := List.mem_range.mp inRange
    exact byteOf_append (by omega)
  simp only [ipv6Of, same]

theorem v2Client_append
    {command family addrLen : Nat}
    (within : 16 + addrLen ≤ buf.length) :
    v2Client command family addrLen (buf ++ more) =
      v2Client command family addrLen buf := by
  unfold v2Client
  split
  · rfl
  · split
    · rfl
    · split
      · next isInet =>
          have long := isInet.2
          simp (disch := omega) only [byteOf_append]
      · split
        · next isInet6 =>
            have long := isInet6.2
            simp (disch := omega) only [byteOf_append, ipv6Of_append]
        · rfl

/-- A version 2 header has arrived, or it is refused. -/
theorem readV2_eq_ok_iff :
    readV2 buf = ⟨.ok client, used⟩ ↔
      (byteOf buf 12).toNat / 16 = 2 ∧
        used = 16 + (fromBeBytes (byteOf buf 14) (byteOf buf 15)).toNat ∧
        used ≤ buf.length ∧
        v2Client ((byteOf buf 12).toNat % 16)
          ((byteOf buf 13).toNat / 16) (used - 16) buf = .ok client := by
  unfold readV2 refuse
  dsimp only
  split
  · next otherVersion =>
      simp [otherVersion]
  · next isVersion =>
      split
      · next isShort =>
          simp only [Reading.mk.injEq, reduceCtorEq, false_and, false_iff]
          rintro ⟨_, isUsed, arrived, _⟩
          omega
      · next arrived =>
          simp only [Reading.mk.injEq]
          constructor
          · rintro ⟨isClient, rfl⟩
            refine ⟨by omega, rfl, by omega, ?_⟩
            simpa using isClient
          · rintro ⟨_, rfl, _, isClient⟩
            exact ⟨by simpa using isClient, rfl⟩

theorem readV2_append
    (long : 16 ≤ buf.length)
    (within : used ≤ buf.length) :
    readV2 (buf ++ more) = ⟨.ok client, used⟩ ↔
      readV2 buf = ⟨.ok client, used⟩ := by
  simp (disch := omega) only [readV2_eq_ok_iff, byteOf_append,
    List.length_append]
  constructor
  · rintro ⟨isVersion, isUsed, _, isClient⟩
    refine ⟨isVersion, isUsed, within, ?_⟩
    rwa [v2Client_append (by omega)] at isClient
  · rintro ⟨isVersion, isUsed, _, isClient⟩
    refine ⟨isVersion, isUsed, by omega, ?_⟩
    rwa [v2Client_append (by omega)]

/-- A version 1 header is a line that ends in time. -/
theorem readV1_eq_ok_iff :
    readV1 ipv6 buf = ⟨.ok client, used⟩ ↔
      ∃ stop,
        position? [13, 10] (buf.take 108) = some stop ∧
          used = stop + 2 ∧
          lineClient ipv6 (lineOf buf stop) = .ok client := by
  unfold readV1 refuse
  cases isEnd : position? [13, 10] (buf.take 108) with
  | none =>
      simp
  | some stop =>
      simp only [Reading.mk.injEq, Option.some.injEq, exists_eq_left']
      constructor
      · rintro ⟨isClient, isUsed⟩
        exact ⟨isUsed.symm, isClient⟩
      · rintro ⟨isUsed, isClient⟩
        exact ⟨isClient, isUsed.symm⟩

theorem position?_le
    {limit stop : Nat}
    (isEnd : position? [13, 10] (buf.take limit) = some stop) :
    stop + 2 ≤ limit ∧ stop + 2 ≤ buf.length := by
  have within := (position?_eq_some_iff.mp isEnd).1.1
  simp only [List.length_cons, List.length_nil, List.length_take] at within
  omega

theorem lineOf_append
    {stop : Nat}
    (within : stop ≤ buf.length) :
    lineOf (buf ++ more) stop = lineOf buf stop := by
  rw [lineOf, lineOf, List.take_append_of_le_length within]

theorem readV1_append
    (within : used ≤ buf.length) :
    readV1 ipv6 (buf ++ more) = ⟨.ok client, used⟩ ↔
      readV1 ipv6 buf = ⟨.ok client, used⟩ := by
  simp only [readV1_eq_ok_iff]
  constructor
  · rintro ⟨stop, isEnd, rfl, isClient⟩
    have limits := position?_le isEnd
    refine ⟨stop, ?_, rfl, ?_⟩
    · rw [List.take_append] at isEnd
      apply position?_of_append isEnd
      simp only [List.length_cons, List.length_nil, List.length_take]
      omega
    · rwa [lineOf_append (by omega)] at isClient
  · rintro ⟨stop, isEnd, rfl, isClient⟩
    refine ⟨stop, ?_, rfl, ?_⟩
    · rw [List.take_append]
      exact position?_append isEnd
    · rwa [lineOf_append (by omega)]

/-- A header lies within the bytes that it is read from. -/
theorem Announces.within
    (names : Announces ipv6 buf client used) :
    8 ≤ used ∧ used ≤ buf.length := by
  unfold Announces parseProxyProtocolHeader at names
  split at names
  · cases names
  · split at names
    · obtain ⟨_, isUsed, arrived, _⟩ := readV2_eq_ok_iff.mp names
      omega
    · split at names
      · next isV1 =>
          obtain ⟨stop, isEnd, rfl, _⟩ := readV1_eq_ok_iff.mp names
          have limits := position?_le isEnd
          have isStart : v1Start <+: buf.take 108 := by
            rw [← isV1, List.prefix_take_iff]
            refine ⟨List.take_prefix _ _, ?_⟩
            rw [List.length_take]
            omega
          have behind := six_le_headerEnd isStart isEnd
          omega
      · cases names

/-- The header depends on its own bytes only. -/
theorem names_append
    (within : used ≤ buf.length) :
    Announces ipv6 (buf ++ more) client used ↔
      Announces ipv6 buf client used := by
  by_cases eight : 8 ≤ used
  · have longer : buf.length ≤ (buf ++ more).length := by simp
    have isSix : (buf ++ more).take 6 = buf.take 6 :=
      List.take_append_of_le_length (by omega)
    unfold Announces parseProxyProtocolHeader
    rw [if_neg (show ¬ (buf ++ more).length < 8 by omega),
      if_neg (show ¬ buf.length < 8 by omega), isSix]
    by_cases long : 16 ≤ buf.length
    · have isTwelve : (buf ++ more).take 12 = buf.take 12 :=
        List.take_append_of_le_length (by omega)
      rw [isTwelve]
      simp only [long, Nat.le_trans long longer, true_and]
      split
      · exact readV2_append long within
      · split
        · exact readV1_append within
        · rfl
    · -- A signature that is complete only later announces sixteen bytes.
      have unsigned : ¬ (16 ≤ buf.length ∧ buf.take 12 = v2Signature) :=
        fun both => long both.1
      rw [if_neg unsigned]
      split
      · next signed =>
          have otherStart : buf.take 6 ≠ v1Start := by
            rw [← isSix]
            intro isV1
            have isTake := congrArg (List.take 6) signed.2
            rw [List.take_take, Nat.min_eq_left (by omega), isV1] at isTake
            exact absurd isTake (by decide)
          rw [if_neg otherStart]
          constructor
          · intro isV2
            obtain ⟨_, isUsed, _, _⟩ := readV2_eq_ok_iff.mp isV2
            omega
          · intro isRefused
            cases isRefused
      · split
        · exact readV1_append within
        · rfl
  · constructor <;>
      exact fun names => absurd names.within.1 eight

end OwnBytes

/-! ## One look -/

section OneLook

variable
  {ipv6 : Ipv6Text}
  {peer : SocketAddr}
  {stream : List UInt8}
  {arrived : Nat}
  {result : SocketAddr × List UInt8}

theorem acceptConnection_eq_some_iff :
    acceptConnection ipv6 peer arrived stream = some result ↔
      ∃ client used,
        Announces ipv6 ((stream.take arrived).take peekLen) client used ∧
          result = (client.getD peer, stream.drop used) := by
  unfold acceptConnection Announces
  dsimp only
  rcases parseProxyProtocolHeader ipv6 ((stream.take arrived).take peekLen)
    with ⟨error | client, used⟩
  · simp
  · simp only [Option.some.injEq, Reading.mk.injEq, Except.ok.injEq]
    constructor
    · rintro rfl
      exact ⟨client, used, ⟨rfl, rfl⟩, rfl⟩
    · rintro ⟨_, _, ⟨rfl, rfl⟩, rfl⟩
      rfl

/-- What the look sees of a header: all of it, or not that header. -/
theorem names_take_iff
    {client : Option SocketAddr}
    {used : Nat} :
    Announces ipv6 ((stream.take arrived).take peekLen) client used ↔
      Announces ipv6 (stream.take peekLen) client used ∧
        used ≤ arrived := by
  have isWhole :
      stream.take peekLen =
        (stream.take arrived).take peekLen ++
          (stream.take peekLen).drop arrived := by
    rw [List.take_take, Nat.min_comm, ← List.take_take,
      List.take_append_drop]
  constructor
  · intro names
    have limits := names.within.2
    refine ⟨?_, by simp only [List.length_take] at limits; omega⟩
    rw [isWhole]
    exact (names_append limits).mpr names
  · rintro ⟨names, hasArrived⟩
    have limits := names.within.2
    rw [isWhole] at names
    refine (names_append ?_).mp names
    simp only [List.length_take] at limits ⊢
    omega

/-- A stream with a header, at any look. -/
theorem acceptConnection_of_names
    {client : Option SocketAddr}
    {used : Nat}
    (names : Announces ipv6 (stream.take peekLen) client used)
    (peer : SocketAddr)
    (arrived : Nat) :
    acceptConnection ipv6 peer arrived stream =
      if used ≤ arrived then
        some (client.getD peer, stream.drop used)
      else
        none := by
  split
  · next hasArrived =>
      exact acceptConnection_eq_some_iff.mpr
        ⟨client, used, names_take_iff.mpr ⟨names, hasArrived⟩, rfl⟩
  · next isShort =>
      apply Option.eq_none_iff_forall_ne_some.mpr
      intro result isAccepted
      obtain ⟨other, length, otherNames, _⟩ :=
        acceptConnection_eq_some_iff.mp isAccepted
      obtain ⟨sameStream, hasArrived⟩ := names_take_iff.mp otherNames
      have same := names.symm.trans sameStream
      simp only [Reading.mk.injEq] at same
      omega

/--
A connection is accepted if and only if its stream begins with a header that
had arrived when the listener looked; which client it is, and what is left to
it, does not depend on how much else had arrived.
-/
theorem acceptConnection_iff
    (ipv6 : Ipv6Text)
    (peer : SocketAddr)
    (arrived : Nat)
    (stream : List UInt8)
    (result : SocketAddr × List UInt8) :
    acceptConnection ipv6 peer arrived stream = some result ↔
      ∃ client used,
        Announces ipv6 (stream.take peekLen) client used ∧
          used ≤ arrived ∧
          result = (client.getD peer, stream.drop used) := by
  simp only [acceptConnection_eq_some_iff, names_take_iff, and_assoc]

end OneLook

/-! ## The two readers of the program -/

section TwoReaders

variable
  {ipv6 : Ipv6Text}
  {buf : List UInt8}
  {header : ProxyHeader}
  {used : Nat}

/-- `ProxyHeader::src_addr`. -/
def ProxyHeader.srcAddr : ProxyHeader → Option SocketAddr
  | .proxy src _ =>
      some src
  | .localCommand =>
      none

theorem byteOf_eq
    {index : Nat}
    (within : index < buf.length) :
    byteOf buf index = buf[index] := by
  rw [byteOf, List.getD_eq_getElem?_getD, List.getElem?_eq_getElem within,
    Option.getD_some]

theorem fromOctets_eq
    {start : Nat}
    (within : start + 16 ≤ buf.length) :
    fromOctets ((buf.take (start + 16)).drop start) =
      .ok (ipv6Of buf start) := by
  have sixteen : ((buf.take (start + 16)).drop start).length = 16 := by
    rw [List.length_drop, List.length_take]
    omega
  have same :
      (buf.take (start + 16)).drop start = (ipv6Of buf start).octets := by
    apply List.ext_getElem (by rw [sixteen, (ipv6Of buf start).sixteen])
    intro offset isLeft _
    rw [sixteen] at isLeft
    simp only [List.getElem_drop, List.getElem_take, ipv6Of,
      List.getElem_map, List.getElem_range]
    rw [byteOf_eq (by omega)]
  rw [fromOctets, dif_pos sixteen]
  congr 1
  rw [Ipv6Addr.mk.injEq]
  exact same

/-- The addresses that the parser reads are those of the listener. -/
theorem v2Client_of_parseAddress
    {command family addrLen : Nat}
    (within : 16 + addrLen ≤ buf.length)
    (isHeader :
      parseAddress command family addrLen buf = .ok (header, used)) :
    v2Client command family addrLen buf = .ok header.srcAddr ∧
      used = 16 + addrLen := by
  unfold parseAddress at isHeader
  unfold v2Client
  split at isHeader
  · next isLocal =>
      cases isHeader
      rw [if_pos isLocal]
      exact ⟨rfl, rfl⟩
  · next notLocal =>
      rw [if_neg notLocal]
      split at isHeader
      · cases isHeader
      · next isProxy =>
          rw [if_neg isProxy]
          split at isHeader
          · next isInet =>
              split at isHeader
              · cases isHeader
              · next long =>
                  rw [Nat.not_lt] at long
                  rw [if_pos ⟨isInet, long⟩]
                  unfold parseInet at isHeader
                  simp (disch := omega) only [byteAt_eq] at isHeader
                  cases isHeader
                  simp (disch := omega) only [byteOf_eq]
                  exact ⟨rfl, trivial⟩
          · next otherInet =>
              rw [if_neg (fun both => otherInet both.1)]
              split at isHeader
              · next isInet6 =>
                  split at isHeader
                  · cases isHeader
                  · next long =>
                      rw [Nat.not_lt] at long
                      rw [if_pos ⟨isInet6, long⟩]
                      unfold parseInet6 at isHeader
                      simp (disch := omega) only [byteAt_eq, sliceAt_eq]
                        at isHeader
                      change (fromOctets _ >>= fun src =>
                        fromOctets _ >>= _) = _ at isHeader
                      rw [fromOctets_eq (show 16 + 16 ≤ buf.length by omega),
                        fromOctets_eq (show 32 + 16 ≤ buf.length by omega)]
                        at isHeader
                      cases isHeader
                      simp (disch := omega) only [byteOf_eq]
                      exact ⟨rfl, trivial⟩
              · next otherInet6 =>
                  cases isHeader
                  rw [if_neg (fun both => otherInet6 both.1)]
                  exact ⟨rfl, rfl⟩

theorem readV2_of_parseV2
    (long : 16 ≤ buf.length)
    (isHeader : parseV2 buf = .ok (header, used)) :
    readV2 buf = ⟨.ok header.srcAddr, used⟩ := by
  rw [parseV2_eq long] at isHeader
  rw [readV2_eq_ok_iff]
  simp (disch := omega) only [byteOf_eq]
  split at isHeader
  · cases isHeader
  · next isVersion =>
      split at isHeader
      · cases isHeader
      · next arrived =>
          obtain ⟨isClient, isUsed⟩ :=
            v2Client_of_parseAddress (by omega) isHeader
          refine ⟨by omega, isUsed, by omega, ?_⟩
          rw [isUsed, Nat.add_sub_cancel_left]
          exact isClient

/-- A line that the parser accepts names the same client to the listener. -/
theorem lineClient_of_parseLine
    {consumed : Nat}
    {bytes : List UInt8}
    (isHeader : parseLine ipv6 consumed bytes = .ok (header, used)) :
    lineClient ipv6 bytes = .ok header.srcAddr ∧ used = consumed := by
  unfold lineClient
  cases isLine : decodeUtf8 bytes with
  | none =>
      rw [parseLine, isLine] at isHeader
      cases isHeader
  | some line =>
      rw [parseLine_eq isLine] at isHeader
      dsimp only
      split at isHeader
      · next isUnknown =>
          cases isHeader
          rw [if_pos isUnknown]
          exact ⟨rfl, rfl⟩
      · next known =>
          rw [if_neg known]
          generalize splitN ' ' 5 line = parts at isHeader
          rcases @parseFields_cases ipv6 consumed parts with
            ⟨family, src, dst, srcPort, dstPort, rfl, isSrc, isDst,
              isSrcPort, isDstPort⟩ | ⟨text, isInvalid⟩
          · obtain ⟨srcIp, isSrc⟩ := Option.isSome_iff_exists.mp isSrc
            obtain ⟨dstIp, isDst⟩ := Option.isSome_iff_exists.mp isDst
            obtain ⟨srcNumber, isSrcPort⟩ :=
              Option.isSome_iff_exists.mp isSrcPort
            obtain ⟨dstNumber, isDstPort⟩ :=
              Option.isSome_iff_exists.mp isDstPort
            rw [parseFields, isSrc, isDst, isSrcPort, isDstPort] at isHeader
            cases isHeader
            simp only [fieldsClient, isSrc, isSrcPort]
            exact ⟨rfl, trivial⟩
          · rw [isInvalid] at isHeader
            cases isHeader

/--
What the parser for upstream connections accepts, the listener accepts: it
finds the same client behind the same number of bytes, unless a line is longer
than the listener looks for its end.
-/
theorem names_of_parse
    (isHeader : parse ipv6 buf = .ok (header, used))
    (inTime : used ≤ v1MaxHeaderLen ∨ MayBeV2 buf) :
    Announces ipv6 buf header.srcAddr used := by
  rw [parse_eq] at isHeader
  unfold Announces parseProxyProtocolHeader
  split at isHeader
  · cases isHeader
  · next long =>
      rw [if_neg long]
      split at isHeader
      · next isV2 =>
          by_cases sixteen : 16 ≤ buf.length
          · have signed : buf.take 12 = v2Signature := by
              apply isV2.eq_of_length
              rw [List.length_take, Nat.min_eq_left (by omega)]
              rfl
            rw [if_pos ⟨sixteen, signed⟩]
            exact readV2_of_parseV2 sixteen isHeader
          · rw [parseV2, if_pos (Nat.not_le.mp sixteen)] at isHeader
            cases isHeader
      · next notV2 =>
          have unsigned :
              ¬ (16 ≤ buf.length ∧ buf.take 12 = v2Signature) := by
            rintro ⟨_, signed⟩
            apply notV2
            rw [MayBeV2, signed]
          rw [if_neg unsigned]
          split at isHeader
          · next isV1 =>
              rw [List.isPrefixOf_iff_prefix] at isV1
              have isSix : buf.take 6 = v1Start :=
                (List.prefix_iff_eq_take.mp isV1).symm
              rw [if_pos isSix]
              cases isEnd : position? [13, 10] buf with
              | none =>
                  rw [parseV1, isEnd] at isHeader
                  dsimp only at isHeader
                  split at isHeader <;> cases isHeader
              | some stop =>
                  rw [parseV1_of_end isV1 isEnd] at isHeader
                  obtain ⟨isClient, rfl⟩ := lineClient_of_parseLine isHeader
                  have short : stop + 2 ≤ 108 :=
                    inTime.resolve_right notV2
                  exact readV1_eq_ok_iff.mpr
                    ⟨stop, position?_take isEnd short, rfl, isClient⟩
          · cases isHeader

end TwoReaders

/-! ## One server behind another -/

section Chain

variable
  {ipv6 : Ipv6Text}
  {src dst : SocketAddr}

/-- `&buf[..len]`. -/
def Cursor.bytes (cursor : Cursor) : List UInt8 :=
  cursor.1.take cursor.2

/--
What `write_proxy_header` writes to an upstream before the request; `none` when
an encoder writes behind its buffer.
-/
def writeProxyHeader
    (ipv6 : Ipv6Text)
    (version : Nat)
    (src dst : SocketAddr) :
    Option (List UInt8) :=
  match version with
  | 1 =>
      (encodeV1 ipv6 src dst).map Cursor.bytes
  | 2 =>
      (encodeV2 src dst).map Cursor.bytes
  | _ =>
      some []

theorem bytes_written
    (capacity : Nat)
    (bytes : List UInt8) :
    Cursor.bytes (written capacity bytes) = bytes :=
  List.take_left

/-- A header, as long as a version 1 header may be, that the parser accepts. -/
structure IsHeader
    (ipv6 : Ipv6Text)
    (bytes : List UInt8)
    (header : ProxyHeader) :
    Prop where
  short : bytes.length ≤ v1MaxHeaderLen
  parsed : ∀ rest, parse ipv6 (bytes ++ rest) = .ok (header, bytes.length)

/-- The listener takes it for the same header, whatever follows it. -/
theorem IsHeader.names
    {bytes : List UInt8}
    {header : ProxyHeader}
    (isHeader : IsHeader ipv6 bytes header)
    (rest : List UInt8) :
    Announces ipv6 ((bytes ++ rest).take peekLen) header.srcAddr
      bytes.length := by
  have short := isHeader.short
  have small : v1MaxHeaderLen ≤ peekLen := by decide
  rw [List.take_append, List.take_of_length_le (by omega)]
  exact names_of_parse (isHeader.parsed _) (.inl short)

theorem exists_writeProxyHeader
    {version : Nat}
    (writesSrc : WritesIp ipv6 src.ip)
    (writesDst : WritesIp ipv6 dst.ip)
    (known : version = 1 ∨ version = 2) :
    ∃ bytes,
      writeProxyHeader ipv6 version src dst = some bytes ∧
        IsHeader ipv6 bytes (headerOf src dst) := by
  rcases known with rfl | rfl
  · have short := length_v1Bytes_le writesSrc writesDst
    refine ⟨v1Bytes (lineText ipv6 src dst), ?_, short, ?_⟩
    · simp only [writeProxyHeader, encodeV1_eq, put_written short,
        Option.map_some, bytes_written]
    · intro rest
      simp only [parse_v1Bytes (return_not_mem_lineText writesSrc writesDst),
        parseLine_lineText writesSrc writesDst]
  · have short := length_v2Bytes_le src dst
    refine ⟨v2Bytes src dst, ?_, Nat.le_trans short (by decide),
      parse_v2Bytes src dst⟩
    simp only [writeProxyHeader, encodeV2_eq, Option.map_some,
      bytes_written]

/--
One server behind another: the header that the first writes is accepted by the
second with the client that the first was called by, and nothing of what
follows it is lost, if and only if the header had arrived at the first look.
The connection is closed otherwise.
-/
theorem acceptConnection_writeProxyHeader
    {version : Nat}
    (writesSrc : WritesIp ipv6 src.ip)
    (writesDst : WritesIp ipv6 dst.ip)
    (known : version = 1 ∨ version = 2)
    (peer : SocketAddr)
    (arrived : Nat)
    (rest : List UInt8) :
    ∃ bytes,
      writeProxyHeader ipv6 version src dst = some bytes ∧
        acceptConnection ipv6 peer arrived (bytes ++ rest) =
          if bytes.length ≤ arrived then
            some ((headerOf src dst).srcAddr.getD peer, rest)
          else
            none := by
  obtain ⟨bytes, isWritten, isHeader⟩ :=
    exists_writeProxyHeader writesSrc writesDst known
  refine ⟨bytes, isWritten, ?_⟩
  simp only [acceptConnection_of_names (isHeader.names rest),
    List.drop_left]

end Chain

/-- A header of a client at `2001:db8::1`, with the first look at 50 bytes. -/
theorem acceptConnection_writeProxyHeader_cut :
    ∃ bytes,
      writeProxyHeader twoTexts 2 ⟨.v6 documentationIp, 50000⟩
          ⟨.v6 loopbackIp, 443⟩ = some bytes ∧
        acceptConnection twoTexts ⟨.v6 loopbackIp, 1⟩ 50
          (bytes ++ [71, 69, 84]) =
            if bytes.length ≤ 50 then
              some (⟨.v6 documentationIp, 50000⟩, [71, 69, 84])
            else
              none :=
  @acceptConnection_writeProxyHeader twoTexts
    ⟨.v6 documentationIp, 50000⟩ ⟨.v6 loopbackIp, 443⟩ 2
    (writesIpv6_of_all (by decide) (by decide) (by decide))
    (writesIpv6_of_all (by decide) (by decide) (by decide))
    (.inr rfl) ⟨.v6 loopbackIp, 1⟩ 50 [71, 69, 84]

end Sweety.ProxyProtocol
