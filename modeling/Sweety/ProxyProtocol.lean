import Sweety.FirstOccurrence
import Sweety.HttpText

namespace Sweety.ProxyProtocol

open HttpText FirstOccurrence

/-!
# The PROXY protocol

Model of `handler/reverse_proxy/proxy_protocol.rs`: the two encoders with the
buffers they write to, and the parser of both formats.  Every index and every
slice is checked, so that one out of range is an outcome of its own.

The text of an IPv6 address is written and read by the standard library; it is a
parameter.  The reader of IPv4 addresses is the standard library's too, and is
written out.
-/

/-! ## Addresses -/

/-- `Ipv4Addr`. -/
structure Ipv4Addr where
  first : UInt8
  second : UInt8
  third : UInt8
  fourth : UInt8
  deriving Repr, DecidableEq

/-- `Ipv4Addr::octets`. -/
def Ipv4Addr.octets (ip : Ipv4Addr) : List UInt8 :=
  [ip.first, ip.second, ip.third, ip.fourth]

/-- `Ipv6Addr`. -/
structure Ipv6Addr where
  octets : List UInt8
  sixteen : octets.length = 16
  deriving Repr, DecidableEq

/-- `IpAddr`. -/
inductive IpAddr where
  | v4 (ip : Ipv4Addr)
  | v6 (ip : Ipv6Addr)
  deriving Repr, DecidableEq

/-- `SocketAddr`, made of an address and a port. -/
structure SocketAddr where
  ip : IpAddr
  port : UInt16
  deriving Repr, DecidableEq

/-- How the standard library writes and reads an IPv6 address. -/
structure Ipv6Text where
  /-- `to_string`. -/
  display : Ipv6Addr → List Char
  /-- `parse`. -/
  parse : List Char → Option Ipv6Addr

/-- An octet of an IPv4 address: up to three digits, without leading zeros. -/
def parseOctet? (text : List Char) : Option UInt8 :=
  if text = [] ∨ 3 < text.length ∨
      1 < text.length ∧ text.head? = some '0' then
    none
  else
    (digitsValue? 10 256 text 0).map UInt8.ofNat

/-- The reader of IPv4 addresses. -/
def parseIpv4? (text : List Char) : Option Ipv4Addr :=
  match text.splitOn '.' with
  | [first, second, third, fourth] =>
      match parseOctet? first, parseOctet? second, parseOctet? third,
          parseOctet? fourth with
      | some first, some second, some third, some fourth =>
          some ⟨first, second, third, fourth⟩
      | _, _, _, _ =>
          none
  | _ =>
      none

/-- `parse::<IpAddr>`. -/
def Ipv6Text.parseIp? (ipv6 : Ipv6Text) (text : List Char) :
    Option IpAddr :=
  (parseIpv4? text).map .v4 <|> (ipv6.parse text).map .v6

/-- `ProxyHeader`. -/
inductive ProxyHeader where
  | proxy (src dst : SocketAddr)
  | localCommand
  deriving Repr, DecidableEq

/-! ## Constants -/

/-- `V2_SIGNATURE`. -/
def v2Signature : List UInt8 :=
  [0x0d, 0x0a, 0x0d, 0x0a, 0x00, 0x0d, 0x0a, 0x51, 0x55, 0x49, 0x54, 0x0a]

/-- `V2_VERSION_COMMAND_PROXY`. -/
def v2VersionCommandProxy : UInt8 := 0x21

/-- `V2_VERSION_COMMAND_LOCAL`. -/
def v2VersionCommandLocal : UInt8 := 0x20

/-- `V2_AF_INET_STREAM`. -/
def v2AfInetStream : UInt8 := 0x11

/-- `V2_AF_INET6_STREAM`. -/
def v2AfInet6Stream : UInt8 := 0x21

/-- `V1_MAX_HEADER_LEN`. -/
def v1MaxHeaderLen : Nat := 108

/-- `b"PROXY "`. -/
def v1Start : List UInt8 :=
  [80, 82, 79, 88, 89, 32]

/-! ## Encoders -/

/-- Write bytes at a place of a buffer; `none` when they do not fit. -/
def writeAt (place : Nat) (bytes buf : List UInt8) :
    Option (List UInt8) :=
  if place + bytes.length ≤ buf.length then
    some
      (buf.take place ++ bytes ++ buf.drop (place + bytes.length))
  else
    none

/-- A buffer and the place up to which it was written. -/
abbrev Cursor :=
  List UInt8 × Nat

/-- Write bytes at the place of the cursor and go on behind them. -/
def put (bytes : List UInt8) (cursor : Cursor) : Option Cursor :=
  (writeAt cursor.2 bytes cursor.1).map fun buf =>
    (buf, cursor.2 + bytes.length)

/-- A decimal digit, as a byte. -/
def digitByte (value : Nat) : UInt8 :=
  48 + UInt8.ofNat value

/-- What `write_u8` writes. -/
def u8Digits (value : UInt8) : List UInt8 :=
  let number := value.toNat
  if 100 ≤ number then
    [digitByte (number / 100), digitByte (number / 10 % 10),
      digitByte (number % 10)]
  else if 10 ≤ number then
    [digitByte (number / 10), digitByte (number % 10)]
  else
    [digitByte number]

/-- What `write_u16` writes. -/
def u16Digits (value : UInt16) : List UInt8 :=
  let number := value.toNat
  if 10000 ≤ number then
    [digitByte (number / 10000), digitByte (number / 1000 % 10),
      digitByte (number / 100 % 10), digitByte (number / 10 % 10),
      digitByte (number % 10)]
  else if 1000 ≤ number then
    [digitByte (number / 1000), digitByte (number / 100 % 10),
      digitByte (number / 10 % 10), digitByte (number % 10)]
  else if 100 ≤ number then
    [digitByte (number / 100), digitByte (number / 10 % 10),
      digitByte (number % 10)]
  else if 10 ≤ number then
    [digitByte (number / 10), digitByte (number % 10)]
  else
    [digitByte number]

section Encoders

variable (ipv6 : Ipv6Text)

/-- `write_ip`. -/
def writeIp (ip : IpAddr) (cursor : Cursor) : Option Cursor :=
  match ip with
  | .v4 ip => do
      let cursor ← put (u8Digits ip.first) cursor
      let cursor ← put [46] cursor
      let cursor ← put (u8Digits ip.second) cursor
      let cursor ← put [46] cursor
      let cursor ← put (u8Digits ip.third) cursor
      let cursor ← put [46] cursor
      put (u8Digits ip.fourth) cursor
  | .v6 ip =>
      put (encodeUtf8 (ipv6.display ip)) cursor

/-- The addresses and ports of a version 1 header, behind the family. -/
def writeAddresses
    (src dst : SocketAddr)
    (cursor : Cursor) :
    Option Cursor := do
  let cursor ← writeIp ipv6 src.ip cursor
  let cursor ← put [32] cursor
  let cursor ← writeIp ipv6 dst.ip cursor
  let cursor ← put [32] cursor
  let cursor ← put (u16Digits src.port) cursor
  let cursor ← put [32] cursor
  let cursor ← put (u16Digits dst.port) cursor
  put [13, 10] cursor

/-- `encode_v1`; `none` when it writes behind its buffer. -/
def encodeV1 (src dst : SocketAddr) : Option Cursor := do
  let cursor ← put v1Start (List.replicate v1MaxHeaderLen 0, 0)
  match src.ip, dst.ip with
  | .v4 _, .v4 _ =>
      let cursor ← put (encodeUtf8 "TCP4 ".toList) cursor
      writeAddresses ipv6 src dst cursor
  | .v6 _, .v6 _ =>
      let cursor ← put (encodeUtf8 "TCP6 ".toList) cursor
      writeAddresses ipv6 src dst cursor
  | _, _ =>
      put (encodeUtf8 "UNKNOWN\r\n".toList) cursor

end Encoders

/-- `u16::to_be_bytes`. -/
def beBytes (value : UInt16) : List UInt8 :=
  [UInt8.ofNat (value.toNat / 2 ^ 8), UInt8.ofNat value.toNat]

/-- `encode_v2`; `none` when it writes behind its buffer. -/
def encodeV2 (src dst : SocketAddr) : Option Cursor := do
  let buf ← writeAt 0 v2Signature (List.replicate 52 0)
  let buf ← writeAt 12 [v2VersionCommandProxy] buf
  match src.ip, dst.ip with
  | .v4 srcIp, .v4 dstIp =>
      let buf ← writeAt 13 [v2AfInetStream] buf
      let buf ← writeAt 14 [0] buf
      let buf ← writeAt 15 [12] buf
      let buf ← writeAt 16 srcIp.octets buf
      let buf ← writeAt 20 dstIp.octets buf
      let buf ← writeAt 24 (beBytes src.port) buf
      let buf ← writeAt 26 (beBytes dst.port) buf
      return (buf, 28)
  | .v6 srcIp, .v6 dstIp =>
      let buf ← writeAt 13 [v2AfInet6Stream] buf
      let buf ← writeAt 14 [0] buf
      let buf ← writeAt 15 [36] buf
      let buf ← writeAt 16 srcIp.octets buf
      let buf ← writeAt 32 dstIp.octets buf
      let buf ← writeAt 48 (beBytes src.port) buf
      let buf ← writeAt 50 (beBytes dst.port) buf
      return (buf, 52)
  | _, _ =>
      let buf ← writeAt 12 [v2VersionCommandLocal] buf
      let buf ← writeAt 13 [0] buf
      let buf ← writeAt 14 [0] buf
      let buf ← writeAt 15 [0] buf
      return (buf, 16)

/-! ## The parser -/

/-- `ParseError`, and an index out of range. -/
inductive ParseError where
  | incomplete
  | invalid (text : String)
  | outOfRange
  deriving Repr, DecidableEq

/-- `buf[index]`. -/
def byteAt (buf : List UInt8) (index : Nat) : Except ParseError UInt8 :=
  match buf[index]? with
  | some byte =>
      .ok byte
  | none =>
      .error .outOfRange

/-- `&buf[start..stop]`. -/
def sliceAt (buf : List UInt8) (start stop : Nat) :
    Except ParseError (List UInt8) :=
  if start ≤ stop ∧ stop ≤ buf.length then
    .ok ((buf.take stop).drop start)
  else
    .error .outOfRange

/-- `ok_or` with the error of an invalid header. -/
def orInvalid {α : Type} (text : String) :
    Option α → Except ParseError α
  | some value =>
      .ok value
  | none =>
      .error (.invalid text)

/-- `splitn`. -/
def splitN (separator : Char) : Nat → List Char → List (List Char)
  | 0, _ =>
      []
  | 1, text =>
      [text]
  | count + 2, text =>
      match splitOnce? separator text with
      | none =>
          [text]
      | some (part, rest) =>
          part :: splitN separator (count + 1) rest

section Parser

variable (ipv6 : Ipv6Text)

/-- The fields of a version 1 header. -/
def parseFields (consumed : Nat) :
    List (List Char) → Except ParseError (ProxyHeader × Nat)
  | [_, src, dst, srcPort, dstPort] => do
      let srcIp ← orInvalid "v1 源 IP 无效" (ipv6.parseIp? src)
      let dstIp ← orInvalid "v1 目标 IP 无效" (ipv6.parseIp? dst)
      let srcPort ← orInvalid "v1 源端口无效" (parseU16? srcPort)
      let dstPort ← orInvalid "v1 目标端口无效" (parseU16? dstPort)
      return (.proxy ⟨srcIp, .ofNat srcPort⟩ ⟨dstIp, .ofNat dstPort⟩,
        consumed)
  | _ =>
      .error (.invalid "v1 字段数量不正确")

/-- `parse_v1` behind the end of the line. -/
def parseLine (consumed : Nat) (bytes : List UInt8) :
    Except ParseError (ProxyHeader × Nat) := do
  let line ← orInvalid "v1 头包含非 UTF-8 字节" (decodeUtf8 bytes)
  if "UNKNOWN".toList.isPrefixOf line then
    return (.localCommand, consumed)
  else
    parseFields ipv6 consumed (splitN ' ' 5 line)

/-- `parse_v1`. -/
def parseV1 (buf : List UInt8) :
    Except ParseError (ProxyHeader × Nat) :=
  match position? [13, 10] buf with
  | none =>
      if buf.length < v1MaxHeaderLen then
        .error .incomplete
      else
        .error (.invalid "v1 头超过最大长度")
  | some headerEnd => do
      let line ← sliceAt buf 6 headerEnd
      parseLine ipv6 (headerEnd + 2) line

/-- Two bytes, the larger first. -/
def fromBeBytes (high low : UInt8) : UInt16 :=
  .ofNat (high.toNat * 2 ^ 8 + low.toNat)

/-- The address of a version 2 header, for IPv4. -/
def parseInet (buf : List UInt8) (total : Nat) :
    Except ParseError (ProxyHeader × Nat) := do
  let src : Ipv4Addr :=
    ⟨← byteAt buf 16, ← byteAt buf 17, ← byteAt buf 18, ← byteAt buf 19⟩
  let dst : Ipv4Addr :=
    ⟨← byteAt buf 20, ← byteAt buf 21, ← byteAt buf 22, ← byteAt buf 23⟩
  let srcPort := fromBeBytes (← byteAt buf 24) (← byteAt buf 25)
  let dstPort := fromBeBytes (← byteAt buf 26) (← byteAt buf 27)
  return (.proxy ⟨.v4 src, srcPort⟩ ⟨.v4 dst, dstPort⟩, total)

/-- `Ipv6Addr::from`, after the copy to an array of sixteen bytes. -/
def fromOctets (octets : List UInt8) : Except ParseError Ipv6Addr :=
  if sixteen : octets.length = 16 then
    .ok ⟨octets, sixteen⟩
  else
    .error .outOfRange

/-- The address of a version 2 header, for IPv6. -/
def parseInet6 (buf : List UInt8) (total : Nat) :
    Except ParseError (ProxyHeader × Nat) := do
  let src ← fromOctets (← sliceAt buf 16 32)
  let dst ← fromOctets (← sliceAt buf 32 48)
  let srcPort := fromBeBytes (← byteAt buf 48) (← byteAt buf 49)
  let dstPort := fromBeBytes (← byteAt buf 50) (← byteAt buf 51)
  return (.proxy ⟨.v6 src, srcPort⟩ ⟨.v6 dst, dstPort⟩, total)

/-- `parse_v2` behind the check of its length. -/
def parseAddress
    (command family addrLen : Nat)
    (buf : List UInt8) :
    Except ParseError (ProxyHeader × Nat) :=
  if command = 0 then
    .ok (.localCommand, 16 + addrLen)
  else if command ≠ 1 then
    .error (.invalid "v2 未知命令")
  else if family = 1 then
    if addrLen < 12 then
      .error (.invalid "v2 IPv4 地址数据不足")
    else
      parseInet buf (16 + addrLen)
  else if family = 2 then
    if addrLen < 36 then
      .error (.invalid "v2 IPv6 地址数据不足")
    else
      parseInet6 buf (16 + addrLen)
  else
    .ok (.localCommand, 16 + addrLen)

/-- `parse_v2`. -/
def parseV2 (buf : List UInt8) :
    Except ParseError (ProxyHeader × Nat) :=
  if buf.length < 16 then
    .error .incomplete
  else do
    let verCmd ← byteAt buf 12
    if verCmd.toNat / 16 ≠ 2 then
      .error (.invalid "v2 版本号不是 2")
    else
      let family ← byteAt buf 13
      let high ← byteAt buf 14
      let low ← byteAt buf 15
      let addrLen := (fromBeBytes high low).toNat
      if buf.length < 16 + addrLen then
        .error .incomplete
      else
        parseAddress (verCmd.toNat % 16) (family.toNat / 16) addrLen buf

/-- `buf[..12] == V2_SIGNATURE`, under a condition on the length. -/
def isSignedIf (condition : Bool) (buf : List UInt8) :
    Except ParseError Bool :=
  if condition then
    (sliceAt buf 0 12).map fun start => start == v2Signature
  else
    .ok false

/-- `parse`. -/
def parse (buf : List UInt8) : Except ParseError (ProxyHeader × Nat) :=
  if buf.length < 8 then
    .error .incomplete
  else do
    let isV2 ← isSignedIf (16 ≤ buf.length) buf
    if isV2 then
      parseV2 buf
    else
      let begins ← isSignedIf (buf.length < 16 ∧ 12 ≤ buf.length) buf
      if begins then
        .error .incomplete
      else if buf.length < 12 ∧ buf.isPrefixOf v2Signature then
        .error .incomplete
      else if v1Start.isPrefixOf buf then
        parseV1 ipv6 buf
      else
        .error (.invalid "既非 v1 也非 v2 格式")

end Parser

end Sweety.ProxyProtocol
