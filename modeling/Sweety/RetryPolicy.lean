import Mathlib.Tactic.Common

namespace Sweety

/-!
# Errors and the retry policy

Model of `handler/reverse_proxy/error.rs` and `handler/reverse_proxy/retry.rs`:
how a failed attempt is named, and which attempts `proxy_next_upstream` asks to
repeat on another node.
-/

/-- The kinds of `std::io::Error` that the proxy tells apart. -/
inductive IoErrorKind where
  | connectionRefused
  | connectionReset
  | brokenPipe
  | unexpectedEof
  | other
  deriving Repr, DecidableEq

/-- `std::io::Error`: its kind and its text. -/
structure IoError where
  kind : IoErrorKind
  text : String
  deriving Repr, DecidableEq

/-- `enum ProxyError`. -/
inductive ProxyError where
  | connRefused (addr : String)
  | connTimeout (addr : String) (timeoutSecs : Nat)
  | readTimeout (addr : String) (timeoutSecs : Nat)
  | writeTimeout (addr : String) (timeoutSecs : Nat)
  | ttfbTimeout (addr : String)
  | connReset (addr : String)
  | tlsHandshake (addr reason : String)
  | badGateway (addr : String) (status : Nat)
  | invalidResponse (addr detail : String)
  | noAvailableUpstream (upstream : String)
  | io (addr : String) (source : IoError)
  deriving Repr, DecidableEq

/-- `enum IoContext`. -/
inductive IoContext where
  | connect
  | read
  | write
  deriving Repr, DecidableEq

namespace ProxyError

/-- The `#[error]` texts. -/
def text : ProxyError → String
  | .connRefused addr =>
      s!"上游拒绝连接: {addr}"
  | .connTimeout addr timeoutSecs =>
      s!"连接上游超时 ({timeoutSecs}s): {addr}"
  | .readTimeout addr timeoutSecs =>
      s!"读取上游响应超时 ({timeoutSecs}s): {addr}"
  | .writeTimeout addr timeoutSecs =>
      s!"写入请求到上游超时 ({timeoutSecs}s): {addr}"
  | .ttfbTimeout addr =>
      s!"等待上游首字节超时: {addr}"
  | .connReset addr =>
      s!"上游重置连接: {addr}"
  | .tlsHandshake addr reason =>
      s!"TLS 握手失败 ({addr}): {reason}"
  | .badGateway addr status =>
      s!"上游返回 {status}: {addr}"
  | .invalidResponse addr detail =>
      s!"上游响应格式错误 ({addr}): {detail}"
  | .noAvailableUpstream upstream =>
      s!"所有上游节点不可用，upstream: {upstream}"
  | .io addr source =>
      "上游 IO 错误 (" ++ addr ++ "): " ++ source.text

/-- `from_io`. -/
def fromIo
    (addr : String)
    (error : IoError)
    (context : IoContext) :
    ProxyError :=
  match error.kind with
  | .connectionRefused =>
      .connRefused addr
  | .connectionReset | .brokenPipe | .unexpectedEof =>
      .connReset addr
  | .other =>
      match context with
      | .connect =>
          .connRefused addr
      | .read | .write =>
          .io addr error

end ProxyError

/-- `anyhow::Error` as the proxy makes it: a `ProxyError` or a mere text. -/
inductive ForwardError where
  | proxy (error : ProxyError)
  | message (text : String)
  deriving Repr, DecidableEq

namespace ForwardError

/-- `format!("{}", e)`. -/
def text : ForwardError → String
  | .proxy error =>
      error.text
  | .message text =>
      text

end ForwardError

/-- `struct NextUpstreamFlags(u16)`. -/
structure NextUpstreamFlags where
  bits : UInt16
  deriving Repr, DecidableEq

namespace NextUpstreamFlags

/-- Connection refused, reset, or another I/O error. -/
def ERROR : UInt16 := 0b00000001

/-- A timeout of connecting, reading or writing. -/
def TIMEOUT : UInt16 := 0b00000010

/-- Upstream answered 502. -/
def HTTP_502 : UInt16 := 0b00000100

/-- Upstream answered 503. -/
def HTTP_503 : UInt16 := 0b00001000

/-- Upstream answered 504. -/
def HTTP_504 : UInt16 := 0b00010000

/-- Upstream answered 429. -/
def HTTP_429 : UInt16 := 0b00100000

/-- Retry non-idempotent methods too. -/
def NON_IDEMPOTENT : UInt16 := 0b01000000

/-- The response head could not be parsed. -/
def INVALID_HEADER : UInt16 := 0b10000000

/-- `DEFAULT`. -/
def DEFAULT : NextUpstreamFlags :=
  ⟨ERROR ||| TIMEOUT⟩

/-- `contains`. -/
def contains (flags : NextUpstreamFlags) (flag : UInt16) : Bool :=
  flags.bits &&& flag != 0

/-- `is_off`. -/
def isOff (flags : NextUpstreamFlags) : Bool :=
  flags.bits == 0

/-- `matches_status`. -/
def matchesStatus (flags : NextUpstreamFlags) (status : Nat) : Bool :=
  match status with
  | 502 => flags.contains HTTP_502
  | 503 => flags.contains HTTP_503
  | 504 => flags.contains HTTP_504
  | 429 => flags.contains HTTP_429
  | _ => false

/-- `allows_non_idempotent`. -/
def allowsNonIdempotent (flags : NextUpstreamFlags) : Bool :=
  flags.contains NON_IDEMPOTENT

end NextUpstreamFlags

/-- `is_idempotent`. -/
def isIdempotent (method : String) : Bool :=
  method == "GET" || method == "HEAD" || method == "PUT" ||
    method == "DELETE" || method == "OPTIONS" || method == "TRACE"

/-- `should_retry_error`. -/
def shouldRetryError
    (error : ForwardError)
    (flags : NextUpstreamFlags) :
    Bool :=
  if flags.isOff then
    false
  else
    match error with
    | .proxy (.connRefused ..) | .proxy (.connReset ..)
    | .proxy (.tlsHandshake ..) | .proxy (.io ..) =>
        flags.contains NextUpstreamFlags.ERROR
    | .proxy (.connTimeout ..) | .proxy (.readTimeout ..)
    | .proxy (.writeTimeout ..) | .proxy (.ttfbTimeout ..) =>
        flags.contains NextUpstreamFlags.TIMEOUT
    | .proxy (.invalidResponse ..) =>
        flags.contains NextUpstreamFlags.INVALID_HEADER
    | .proxy (.badGateway ..) | .proxy (.noAvailableUpstream ..) =>
        false
    | .message _ =>
        flags.contains NextUpstreamFlags.ERROR

end Sweety
