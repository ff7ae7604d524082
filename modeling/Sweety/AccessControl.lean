import Sweety.ConfigModel
import Sweety.RealIp
import Sweety.StableSort

namespace Sweety.AccessControl

open ConfigModel HttpText ProxyProtocol StableSort

/-!
# Access control

Model of `middleware/access_control.rs`: the rules of a location, their
compilation and the check of an address.  As in `RealIp`, a result `none` of a
function whose name ends in `?` and that tests an address is a panic.
-/

/-! ## Matchers -/

/-- `IpMatcher`. -/
inductive IpMatcher where
  | all
  | exact (addr : IpAddr)
  | cidr (network : IpAddr) (prefixLen : Nat)
  deriving Repr, DecidableEq

/-- The number of bits of an address: `max` of `IpMatcher::parse`. -/
def width : IpAddr → Nat
  | .v4 _ =>
      32
  | .v6 _ =>
      128

/-- `cidr_contains`. -/
def cidrContains?
    (network : IpAddr)
    (prefixLen : Nat)
    (ip : IpAddr) :
    Option Bool :=
  match network, ip with
  | .v4 network, .v4 addr =>
      RealIp.contained? 32 prefixLen network.octets addr.octets
  | .v6 network, .v6 addr =>
      RealIp.contained? 128 prefixLen network.octets addr.octets
  | _, _ =>
      some false

namespace IpMatcher

/-- `IpMatcher::parse`. -/
def parse? (ipv6 : Ipv6Text) (source : List Char) : Option IpMatcher :=
  let text := trim source
  if eqIgnoreAsciiCase text "all".toList then
    some .all
  else
    match splitOnce? '/' text with
    | some (ipText, prefixText) =>
        match ipv6.parseIp? ipText, fromStrRadix? 10 (2 ^ 8) prefixText with
        | some ip, some prefixLen =>
            if width ip < prefixLen then
              none
            else
              some (.cidr ip prefixLen)
        | _, _ =>
            none
    | none =>
        (ipv6.parseIp? text).map .exact

/-- `IpMatcher::matches`. -/
def matches? (matcher : IpMatcher) (ip : IpAddr) : Option Bool :=
  match matcher with
  | .all =>
      some true
  | .exact addr =>
      some (addr == ip)
  | .cidr network prefixLen =>
      cidrContains? network prefixLen ip

end IpMatcher

/-! ## Rules -/

/-- `CompiledAccessRule`. -/
structure CompiledAccessRule where
  action : AccessAction
  matcher : IpMatcher

/-- A rule that can be parsed, with its priority. -/
def compileRule? (ipv6 : Ipv6Text) (rule : AccessRule) :
    Option (U16 × CompiledAccessRule) :=
  (IpMatcher.parse? ipv6 rule.source.toList).map fun matcher =>
    (rule.priority, ⟨rule.action, matcher⟩)

/-- `compile_rules`. -/
def compileRules (ipv6 : Ipv6Text) (rules : List AccessRule) :
    List CompiledAccessRule :=
  (sortByKey (fun compiled => compiled.1.toNat)
    (rules.filterMap (compileRule? ipv6))).map Prod.snd

/-- `check_access`. -/
def checkAccess? (ip : IpAddr) :
    List CompiledAccessRule → Option AccessAction
  | [] =>
      some .allow
  | rule :: rest =>
      match rule.matcher.matches? ip with
      | some true =>
          some rule.action
      | some false =>
          checkAccess? ip rest
      | none =>
          none

end Sweety.AccessControl
