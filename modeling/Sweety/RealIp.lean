import Mathlib.Algebra.Group.Nat.Defs
import Sweety.ConfigModel
import Sweety.ProxyCache
import Sweety.ProxyProtocol

namespace Sweety.RealIp

open HttpText ProxyProtocol

/-!
# The address of the client

Model of `middleware/real_ip.rs`, and of the two places that ask it for the
address: `multi_site_handler` and the FastCGI handler.  A result `none` of a
function whose name ends in `?` and that returns a checked number is a panic:
the program is built with overflow checks, and a prefix longer than the address
makes a subtraction overflow.
-/

/-! ## Networks -/

/-- `CidrEntry`. -/
structure CidrEntry where
  network : IpAddr
  prefixLen : Nat
  deriving Repr, DecidableEq

/-- `u32::from` and `u128::from` of an address. -/
def number (octets : List UInt8) : Nat :=
  octets.foldl (fun total octet => total * 2 ^ 8 + octet.toNat) 0

/-- The comparison under a mask, for addresses of so many bits. -/
def contained?
    (bits prefixLen : Nat)
    (network ip : List UInt8) :
    Option Bool :=
  if prefixLen = 0 then
    some true
  else if prefixLen ≤ bits then
    let mask := (2 ^ bits - 1) <<< (bits - prefixLen) % 2 ^ bits
    some (number network &&& mask == number ip &&& mask)
  else
    none

namespace CidrEntry

/-- `CidrEntry::parse`. -/
def parse? (ipv6 : Ipv6Text) (text : List Char) : Option CidrEntry :=
  match splitOnce? '/' (trim text) with
  | some (network, prefixLen) =>
      match ipv6.parseIp? network, fromStrRadix? 10 (2 ^ 8) prefixLen with
      | some ip, some prefixLen =>
          some ⟨ip, prefixLen⟩
      | _, _ =>
          none
  | none =>
      match ipv6.parseIp? (trim text) with
      | some (.v4 ip) =>
          some ⟨.v4 ip, 32⟩
      | some (.v6 ip) =>
          some ⟨.v6 ip, 128⟩
      | none =>
          none

/-- `CidrEntry::contains`. -/
def contains? (entry : CidrEntry) (ip : IpAddr) : Option Bool :=
  match entry.network, ip with
  | .v4 network, .v4 ip =>
      contained? 32 entry.prefixLen network.octets ip.octets
  | .v6 network, .v6 ip =>
      contained? 128 entry.prefixLen network.octets ip.octets
  | _, _ =>
      some false

end CidrEntry

/-! ## The configuration of a site -/

/-- `CompiledRealIp`. -/
structure CompiledRealIp where
  trusted : List CidrEntry
  header : String
  recursive : Bool
  deriving Repr, DecidableEq

/--
`any` over the trusted networks, which stops at the first that contains it.
-/
def anyContains? (ip : IpAddr) : List CidrEntry → Option Bool
  | [] =>
      some false
  | entry :: rest =>
      match entry.contains? ip with
      | some true =>
          some true
      | some false =>
          anyContains? ip rest
      | none =>
          none

namespace CompiledRealIp

variable (compiled : CompiledRealIp)

/-- `compile`. -/
def compile?
    (ipv6 : Ipv6Text)
    (config : ConfigModel.RealIpConfig) :
    Option CompiledRealIp :=
  let trusted :=
    config.setRealIpFrom.filterMap fun text =>
      CidrEntry.parse? ipv6 text.toList
  if trusted.isEmpty then
    none
  else
    some ⟨trusted, config.realIpHeader, config.recursive⟩

/-- `is_trusted`. -/
def isTrusted? (ip : IpAddr) : Option Bool :=
  anyContains? ip compiled.trusted

/-- The loop of the recursive mode, from the right. -/
def firstUntrusted?
    (ipv6 : Ipv6Text) :
    List (List Char) → Option (Option IpAddr)
  | [] =>
      some none
  | part :: rest =>
      match ipv6.parseIp? (trim part) with
      | some ip =>
          match compiled.isTrusted? ip with
          | some false =>
              some (some ip)
          | some true =>
              firstUntrusted? ipv6 rest
          | none =>
              none
      | none =>
          firstUntrusted? ipv6 rest

/-- `extract_real_ip`. -/
def extractRealIp?
    (ipv6 : Ipv6Text)
    (connIp : IpAddr)
    (headerValue : Option (List Char)) :
    Option (Option IpAddr) :=
  match compiled.isTrusted? connIp with
  | none =>
      none
  | some false =>
      some none
  | some true =>
      match headerValue with
      | none =>
          some none
      | some text =>
          let parts := text.splitOn ','
          if eqIgnoreAsciiCase compiled.header.toList
              "X-Forwarded-For".toList then
            if compiled.recursive then
              match compiled.firstUntrusted? ipv6 parts.reverse with
              | some none =>
                  some (parts.head?.bind fun part =>
                    ipv6.parseIp? (trim part))
              | found =>
                  found
            else
              some (parts.getLast?.bind fun part =>
                ipv6.parseIp? (trim part))
          else
            some (ipv6.parseIp? (trim text))

end CompiledRealIp

/-! ## The two callers -/

/-- `HeaderValue::to_str`. -/
def toStr? (value : List UInt8) : Option (List Char) :=
  if value.all fun byte => 32 ≤ byte && byte < 127 || byte == 9 then
    some (value.map fun byte => Char.ofNat byte.toNat)
  else
    none

/-- The header that the site takes the address from. -/
def headerValue?
    (compiled : CompiledRealIp)
    (headers : HeaderMap) :
    Option (List Char) :=
  (HeaderMap.get?
    (String.ofList (toAsciiLowercase compiled.header.toList))
    headers).bind toStr?

/-- `effective_client_ip` of `multi_site_handler`. -/
def effectiveClientIp?
    (ipv6 : Ipv6Text)
    (realIp : Option CompiledRealIp)
    (connIp : IpAddr)
    (headers : HeaderMap) :
    Option IpAddr :=
  match realIp with
  | some compiled =>
      (compiled.extractRealIp? ipv6 connIp
        (headerValue? compiled headers)).map fun found =>
          found.getD connIp
  | none =>
      some connIp

end Sweety.RealIp
