import Sweety.AddressReading
import Sweety.BackendHeaders
import Sweety.CidrAgreement

namespace Sweety.AuthTarget

open HttpText ProxyProtocol AddressReading CidrAgreement LeadingBits
open BackendHeaders (rsplitOnce? rsplitOnce?_eq_some_iff
  rsplitOnce?_eq_none_iff)

/-!
# The target of an authorization request

Model of `parse_auth_url` and `reject_ssrf_target` (`handler/auth_request.rs`),
and of how the address that `do_auth_request` connects to is read.  The filter
reads the host as an address without brackets; the connect call reads host and
port together, where an IPv6 address stands in brackets, and leaves what it
cannot read to the resolver.
-/

/-! ## The filter -/

/-- `is_link_local`. -/
def isLinkLocal (ip : Ipv4Addr) : Bool :=
  ip.first == 169 && ip.second == 254

/-- The first of the `segments`. -/
def firstSegment (ip : Ipv6Addr) : UInt16 :=
  UInt16.ofNat
    ((ip.octets.getD 0 0).toNat * 2 ^ 8 + (ip.octets.getD 1 0).toNat)

/-- `reject_ssrf_target`: the text of the error. -/
def rejectSsrfTarget? (host : List Char) : Option (List Char) :=
  match parseIpAddr? host with
  | some (.v4 v4) =>
      if isLinkLocal v4 then
        some ("auth_request SSRF 防护：拒绝链路本地地址 ".toList ++ host)
      else if v4.octets = [100, 100, 100, 200] then
        some ("auth_request SSRF 防护：拒绝云元数据地址 ".toList ++ host)
      else
        none
  | some (.v6 v6) =>
      if firstSegment v6 &&& 0xff00 = 0xfd00 then
        some ("auth_request SSRF 防护：拒绝 IPv6 ULA 地址 ".toList ++ host)
      else if firstSegment v6 &&& 0xffc0 = 0xfe80 then
        some ("auth_request SSRF 防护：拒绝 IPv6 链路本地地址 ".toList ++ host)
      else
        none
  | none =>
      none

/-- What `parse_auth_url` returns. -/
structure Target where
  host : List Char
  port : Nat
  path : List Char
  useTls : Bool
  deriving Repr, DecidableEq

/-- Host and port of the part in front of the path. -/
def hostAndPort? (useTls : Bool) (authority : List Char) :
    Option (List Char × Nat) :=
  match rsplitOnce? ':' authority with
  | some (host, port) =>
      (parseU16? port).map fun port => (host, port)
  | none =>
      some (authority, if useTls then 443 else 80)

/-- The part in front of the path, and the path. -/
def authorityAndPath (withoutScheme : List Char) :
    List Char × List Char :=
  match splitOnce? '/' withoutScheme with
  | some (authority, rest) =>
      (authority, '/' :: rest)
  | none =>
      (withoutScheme, ['/'])

/-- The branch of `parse_auth_url` for a URL with a scheme. -/
def parseWithScheme (url : List Char) (useTls : Bool)
    (withoutScheme : List Char) : Except (List Char) Target :=
  let (authority, path) := authorityAndPath withoutScheme
  match hostAndPort? useTls authority with
  | none =>
      .error ("auth_url 端口解析失败: ".toList ++ url)
  | some (host, port) =>
      match rejectSsrfTarget? host with
      | some text =>
          .error text
      | none =>
          .ok ⟨host, port, path, useTls⟩

/-- `parse_auth_url`. -/
def parseAuthUrl (url : List Char) : Except (List Char) Target :=
  if "http://".toList.isPrefixOf url || "https://".toList.isPrefixOf url then
    let useTls := "https://".toList.isPrefixOf url
    parseWithScheme url useTls (if useTls then url.drop 8 else url.drop 7)
  else if ['/'].isPrefixOf url then
    -- a path alone is asked of this machine
    .ok ⟨"127.0.0.1".toList, 80, url, false⟩
  else
    .error ("无法解析 auth_request URL: ".toList ++ url)

/-- The `addr` that `do_auth_request` connects to. -/
def Target.addr (target : Target) : List Char :=
  target.host ++ ':' :: Nat.toDigits 10 target.port

/-! ## The connect call -/

/-- An IPv6 address with or without the number of its scope. -/
def parseScoped? (text : List Char) : Option Ipv6Addr :=
  match splitOnce? '%' text with
  | some (address, scope) =>
      if scope = [] ∨ (digitsValue? 10 (2 ^ 32) scope 0).isNone then
        none
      else
        parseIpv6? address
  | none =>
      parseIpv6? text

/--
The address that a host in front of a port denotes: an IPv6 address in brackets,
an IPv4 address, or the numbers and dots that the resolver takes for one.
-/
def literalHost? : List Char → Option IpAddr
  | '[' :: rest =>
      match rsplitOnce? ']' rest with
      | some (inner, []) =>
          (parseScoped? inner).map .v6
      | _ =>
          none
  | host =>
      (parseIpv4? host <|> inetAddr? host).map .v4

/-- The literal address that a text given to `TcpStream::connect` denotes. -/
def literal? (addr : List Char) : Option IpAddr :=
  match rsplitOnce? ':' addr with
  | some (host, port) =>
      if port = [] ∨ (digitsValue? 10 (2 ^ 16) port 0).isNone then
        none
      else
        literalHost? host
  | none =>
      none

/-! ## Addresses to keep away from -/

/-- The IPv4 address that an IPv6 address maps. -/
def mapped? (ip : Ipv6Addr) : Option Ipv4Addr :=
  match ip.octets with
  | [0, 0, 0, 0, 0, 0, 0, 0, 0, 0, 0xff, 0xff, a, b, c, d] =>
      some ⟨a, b, c, d⟩
  | _ =>
      none

/-- The IPv4 address is link-local or the one of the metadata service. -/
def ForbiddenV4 (ip : Ipv4Addr) : Prop :=
  InNetwork (.v4 ⟨169, 254, 0, 0⟩) 16 (.v4 ip) ∨ ip = ⟨100, 100, 100, 200⟩

instance (ip : Ipv4Addr) : Decidable (ForbiddenV4 ip) :=
  inferInstanceAs (Decidable (_ ∨ _))

/-- The IPv6 address is local, or it maps a forbidden IPv4 address. -/
def ForbiddenV6 (ip : Ipv6Addr) : Prop :=
  InNetwork (.v6 ⟨0xfd :: List.replicate 15 0, rfl⟩) 8 (.v6 ip) ∨
    InNetwork (.v6 ⟨0xfe :: 0x80 :: List.replicate 14 0, rfl⟩) 10 (.v6 ip) ∨
      ∃ v4 ∈ mapped? ip, ForbiddenV4 v4

instance (ip : Ipv6Addr) : Decidable (ForbiddenV6 ip) :=
  inferInstanceAs (Decidable (_ ∨ _ ∨ _))

/-- The address is one that the filter is there for. -/
def Forbidden : IpAddr → Prop
  | .v4 ip => ForbiddenV4 ip
  | .v6 ip => ForbiddenV6 ip

instance : (ip : IpAddr) → Decidable (Forbidden ip)
  | .v4 ip => inferInstanceAs (Decidable (ForbiddenV4 ip))
  | .v6 ip => inferInstanceAs (Decidable (ForbiddenV6 ip))

/-! ## What the filter catches -/

theorem inNetwork_linkLocal_iff {ip : Ipv4Addr} :
    InNetwork (.v4 ⟨169, 254, 0, 0⟩) 16 (.v4 ip) ↔ isLinkLocal ip = true := by
  change SharesPrefix 16 [169, 254, 0, 0] ip.octets ↔ _
  rw [← @sharesPrefix_take_iff _ _ 16 2 (by decide)]
  refine Iff.trans
    (@sharesPrefix_all_iff [169, 254] [ip.first, ip.second] rfl) ?_
  rw [isLinkLocal, Bool.and_eq_true, beq_iff_eq, beq_iff_eq,
    List.cons.injEq, List.cons.injEq]
  constructor
  · rintro ⟨isFirst, isSecond, -⟩
    exact ⟨isFirst.symm, isSecond.symm⟩
  · rintro ⟨isFirst, isSecond⟩
    exact ⟨isFirst.symm, isSecond.symm, rfl⟩

/-- A forbidden IPv4 address in four decimal numbers is rejected. -/
theorem not_forbiddenV4_of_accepted
    {host : List Char}
    {ip : Ipv4Addr}
    (isRead : parseIpv4? host = some ip)
    (accepted : rejectSsrfTarget? host = none) :
    ¬ForbiddenV4 ip := by
  have isIp : parseIpAddr? host = some (.v4 ip) := by
    rw [parseIpAddr?, isRead]
    rfl
  rw [rejectSsrfTarget?, isIp] at accepted
  dsimp only at accepted
  split at accepted
  · nomatch accepted
  · rename_i notLocal
    split at accepted
    · nomatch accepted
    · rename_i notMetadata
      rintro (isLocal | isMetadata)
      · exact notLocal (inNetwork_linkLocal_iff.mp isLocal)
      · rw [isMetadata] at notMetadata
        exact notMetadata rfl

/-- What is not the spelling of an address passes. -/
theorem accepted_of_not_read
    {host : List Char}
    (notIpv4 : parseIpv4? host = none)
    (notIpv6 : parseIpv6? host = none) :
    rejectSsrfTarget? host = none := by
  rw [rejectSsrfTarget?, parseIpAddr?, notIpv4, notIpv6]
  rfl

/-- The filter reads no brackets. -/
theorem accepted_of_bracket (rest : List Char) :
    rejectSsrfTarget? ('[' :: rest) = none := by
  have noAddressChar : ¬IsAddressChar '[' := by
    unfold IsAddressChar
    decide
  apply accepted_of_not_read
  · rw [Option.eq_none_iff_forall_ne_some]
    intro ip isRead
    exact noAddressChar
      (isAddressChar_of_parseIpv4? isRead '[' List.mem_cons_self)
  · rw [Option.eq_none_iff_forall_ne_some]
    intro ip isRead
    exact noAddressChar
      (isAddressChar_of_parseIpv6? isRead '[' List.mem_cons_self)

/-- The filter reads no numbers and dots but four decimal numbers. -/
theorem accepted_of_inetAddr?
    {host : List Char}
    {ip : Ipv4Addr}
    (notDotted : parseIpv4? host = none)
    (isRead : inetAddr? host = some ip) :
    rejectSsrfTarget? host = none := by
  have noColon : ¬IsNumberChar ':' := by
    unfold IsNumberChar
    decide
  refine accepted_of_not_read notDotted ?_
  rw [Option.eq_none_iff_forall_ne_some]
  intro v6 isV6
  exact noColon
    (isNumberChar_of_inetAddr? isRead ':' (colon_mem_of_parseIpv6? isV6))

/-! ## The host of a URL -/

/-- The port behind a host, with the colon in front of it. -/
inductive PortPart (host : List Char) : List Char → Prop where
  | absent
      (noColon : ':' ∉ host) :
      PortPart host []
  | given
      {digits : List Char}
      {port : Nat}
      (noColon : ':' ∉ digits)
      (isRead : parseU16? digits = some port) :
      PortPart host (':' :: digits)

/-- A URL with a scheme is made of these parts. -/
structure Parts (url scheme host port path : List Char) : Prop where
  isScheme : scheme = "http://".toList ∨ scheme = "https://".toList
  isUrl : url = scheme ++ (host ++ port ++ path)
  isPort : PortPart host port
  noSlash : '/' ∉ host ++ port
  isPath : path = [] ∨ path.head? = some '/'

/-- The URL names a host. -/
def NamesHost (url host : List Char) : Prop :=
  ∃ scheme port path, Parts url scheme host port path

section Authority

variable {host port path : List Char}

theorem authorityAndPath_fst
    {authority : List Char}
    (noSlash : '/' ∉ authority)
    (isPath : path = [] ∨ path.head? = some '/') :
    (authorityAndPath (authority ++ path)).1 = authority := by
  unfold authorityAndPath
  rcases isPath with rfl | startsPath
  · rw [List.append_nil, splitOnce?_eq_none_iff.mpr noSlash]
  · obtain ⟨rest, rfl⟩ := List.head?_eq_some_iff.mp startsPath
    rw [splitOnce?_append noSlash]

theorem eq_append_authorityAndPath (text : List Char) :
    ∃ path,
      text = (authorityAndPath text).1 ++ path ∧
        '/' ∉ (authorityAndPath text).1 ∧
          (path = [] ∨ path.head? = some '/') := by
  unfold authorityAndPath
  split
  · rename_i authority rest isSplit
    obtain ⟨isText, noSlash⟩ := splitOnce?_eq_some_iff.mp isSplit
    exact ⟨'/' :: rest, isText, noSlash, .inr rfl⟩
  · rename_i notSplit
    exact ⟨[], (List.append_nil _).symm, splitOnce?_eq_none_iff.mp notSplit,
      .inl rfl⟩

/-- What is read of an authority is its host, and a port of 16 bits. -/
theorem hostAndPort?_of_portPart
    (useTls : Bool)
    (isPort : PortPart host port) :
    ∃ number, hostAndPort? useTls (host ++ port) = some (host, number) := by
  unfold hostAndPort?
  cases isPort with
  | absent noColon =>
      rw [List.append_nil, rsplitOnce?_eq_none_iff.mpr noColon]
      exact ⟨_, rfl⟩
  | given noColon isRead =>
      rw [rsplitOnce?_eq_some_iff.mpr ⟨rfl, noColon⟩]
      dsimp only
      rw [isRead]
      exact ⟨_, rfl⟩

theorem portPart_of_hostAndPort?
    {authority : List Char}
    {number : Nat}
    {useTls : Bool}
    (isRead : hostAndPort? useTls authority = some (host, number)) :
    ∃ port,
      authority = host ++ port ∧ PortPart host port ∧ number < 2 ^ 16 := by
  unfold hostAndPort? at isRead
  split at isRead
  · rename_i front digits isSplit
    obtain ⟨rfl, noColon⟩ := rsplitOnce?_eq_some_iff.mp isSplit
    obtain ⟨found, isFound, same⟩ := Option.map_eq_some_iff.mp isRead
    cases same
    refine ⟨':' :: digits, rfl, .given noColon isFound, ?_⟩
    rcases digits_of_fromStrRadix? isFound with isDigits | ⟨_, -, isDigits⟩
    · exact lt_of_digitsValue? (by decide) isDigits
    · exact lt_of_digitsValue? (by decide) isDigits
  · rename_i notSplit
    cases isRead
    refine ⟨[], (List.append_nil _).symm,
      .absent (rsplitOnce?_eq_none_iff.mp notSplit), ?_⟩
    cases useTls <;> decide

end Authority

section Url

variable {url host : List Char}

theorem parseWithScheme_ok_iff
    {useTls : Bool}
    {withoutScheme : List Char}
    {target : Target} :
    parseWithScheme url useTls withoutScheme = .ok target ↔
      hostAndPort? useTls (authorityAndPath withoutScheme).1 =
          some (target.host, target.port) ∧
        rejectSsrfTarget? target.host = none ∧
          target.path = (authorityAndPath withoutScheme).2 ∧
            target.useTls = useTls := by
  unfold parseWithScheme
  cases isRead : hostAndPort? useTls (authorityAndPath withoutScheme).1 with
  | none =>
      simp [isRead]
  | some parts =>
      obtain ⟨host, port⟩ := parts
      obtain ⟨itsHost, itsPort, itsPath, itsTls⟩ := target
      cases isRejected : rejectSsrfTarget? host with
      | some text =>
          simp only [isRead, isRejected, Option.some.injEq, Prod.mk.injEq,
            reduceCtorEq, false_iff]
          rintro ⟨⟨rfl, -⟩, isAccepted, -⟩
          rw [isRejected] at isAccepted
          nomatch isAccepted
      | none =>
          simp only [isRead, isRejected, Except.ok.injEq, Target.mk.injEq,
            Option.some.injEq, Prod.mk.injEq]
          constructor
          · rintro ⟨rfl, rfl, rfl, rfl⟩
            exact ⟨⟨rfl, rfl⟩, isRejected, rfl, rfl⟩
          · rintro ⟨⟨rfl, rfl⟩, -, rfl, rfl⟩
            exact ⟨rfl, rfl, rfl, rfl⟩

/-- A host that passes the filter is taken from the URL that names it. -/
theorem parseAuthUrl_of_namesHost
    (named : NamesHost url host)
    (accepted : rejectSsrfTarget? host = none) :
    ∃ target, parseAuthUrl url = .ok target ∧ target.host = host := by
  obtain ⟨scheme, port, path, parts⟩ := named
  have isAuthority := authorityAndPath_fst parts.noSlash parts.isPath
  have taken :
      ∀ useTls, ∃ target,
        parseWithScheme url useTls (host ++ port ++ path) = .ok target ∧
          target.host = host := by
    intro useTls
    obtain ⟨number, isRead⟩ := hostAndPort?_of_portPart useTls parts.isPort
    rw [← isAuthority] at isRead
    exact ⟨⟨host, number, _, useTls⟩,
      parseWithScheme_ok_iff.mpr ⟨isRead, accepted, rfl, rfl⟩, rfl⟩
  obtain ⟨isScheme, rfl, -⟩ := parts
  rcases isScheme with rfl | rfl
  · exact taken false
  · exact taken true

/-- A target is the one of a host that the URL names, or this machine. -/
theorem parseAuthUrl_ok
    {target : Target}
    (isParsed : parseAuthUrl url = .ok target) :
    target.port < 2 ^ 16 ∧
      (NamesHost url target.host ∧ rejectSsrfTarget? target.host = none ∨
        target.host = "127.0.0.1".toList) := by
  have named :
      ∀ {useTls scheme rest}, scheme = "http://".toList ∨
          scheme = "https://".toList →
        url = scheme ++ rest → parseWithScheme url useTls rest = .ok target →
          target.port < 2 ^ 16 ∧ NamesHost url target.host ∧
            rejectSsrfTarget? target.host = none := by
    intro useTls scheme rest isScheme isUrl isTaken
    obtain ⟨isRead, accepted, -⟩ := parseWithScheme_ok_iff.mp isTaken
    obtain ⟨port, isAuthority, isPort, small⟩ := portPart_of_hostAndPort? isRead
    obtain ⟨path, isRest, noSlash, isPath⟩ := eq_append_authorityAndPath rest
    rw [isAuthority] at isRest noSlash
    exact ⟨small, ⟨scheme, port, path,
      isScheme, by rw [isUrl, isRest], isPort, noSlash, isPath⟩, accepted⟩
  unfold parseAuthUrl at isParsed
  split at isParsed
  · rename_i hasScheme
    by_cases isTls : "https://".toList.isPrefixOf url = true
    · obtain ⟨rest, rfl⟩ := List.isPrefixOf_iff_prefix.mp isTls
      exact (named (.inr rfl) rfl isParsed).imp_right .inl
    · rw [Bool.eq_false_of_not_eq_true isTls, Bool.or_false] at hasScheme
      obtain ⟨rest, rfl⟩ := List.isPrefixOf_iff_prefix.mp hasScheme
      exact (named (.inl rfl) rfl isParsed).imp_right .inl
  · split at isParsed
    · cases isParsed
      exact ⟨(by decide : 80 < 2 ^ 16), .inr rfl⟩
    · nomatch isParsed

/-- Host and port are read apart again. -/
theorem literal?_addr
    {target : Target}
    (small : target.port < 2 ^ 16) :
    literal? target.addr = literalHost? target.host := by
  have isDigit : ∀ char ∈ Nat.toDigits 10 target.port,
      (digitValue? 10 char).isSome = true :=
    isSome_digitValue?_toDigits (by decide) (by decide) target.port
  have noColon : ':' ∉ Nat.toDigits 10 target.port := by
    intro member
    nomatch isDigit ':' member
  have isPort :
      digitsValue? 10 (2 ^ 16) (Nat.toDigits 10 target.port) 0 =
        some target.port := by
    have isValue :
        foldDigits 10 0 (Nat.toDigits 10 target.port) = target.port :=
      foldDigits_toDigits (by decide) (by decide) target.port
    rw [digitsValue?_eq_some (by decide) isDigit (by rwa [isValue]), isValue]
  rw [literal?, Target.addr, rsplitOnce?_eq_some_iff.mpr ⟨rfl, noColon⟩]
  dsimp only
  rw [isPort]
  apply if_neg
  rintro (isNil | isNone)
  · exact Nat.toDigits_ne_nil isNil
  · nomatch isNone

/-! ## Addresses around the filter -/

/--
The host denotes a forbidden address and is not four decimal numbers: it is an
IPv6 address in brackets, or numbers and dots in another notation.
-/
inductive SpelledAround : List Char → Prop where
  | bracketed
      {inner : List Char}
      {ip : Ipv6Addr}
      (isRead : parseScoped? inner = some ip)
      (forbidden : ForbiddenV6 ip) :
      SpelledAround ('[' :: (inner ++ [']']))
  | numeric
      {host : List Char}
      {ip : Ipv4Addr}
      (notDotted : parseIpv4? host = none)
      (isRead : inetAddr? host = some ip)
      (forbidden : ForbiddenV4 ip) :
      SpelledAround host

/-- A host in brackets is read as an IPv6 address only. -/
theorem literalHost?_cases
    {ip : IpAddr}
    (isLiteral : literalHost? host = some ip) :
    (∃ inner v6,
        host = '[' :: (inner ++ [']']) ∧
          parseScoped? inner = some v6 ∧ ip = .v6 v6) ∨
      ∃ v4, (parseIpv4? host <|> inetAddr? host) = some v4 ∧ ip = .v4 v4 := by
  unfold literalHost? at isLiteral
  split at isLiteral
  · rename_i rest
    split at isLiteral
    · rename_i inner isSplit
      obtain ⟨rfl, -⟩ := rsplitOnce?_eq_some_iff.mp isSplit
      obtain ⟨v6, isRead, rfl⟩ := Option.map_eq_some_iff.mp isLiteral
      exact .inl ⟨inner, v6, rfl, isRead, rfl⟩
    · nomatch isLiteral
  · obtain ⟨v4, isRead, rfl⟩ := Option.map_eq_some_iff.mp isLiteral
    exact .inr ⟨v4, isRead, rfl⟩

theorem literalHost?_bracketed
    {inner : List Char}
    {ip : Ipv6Addr}
    (isRead : parseScoped? inner = some ip) :
    literalHost? ('[' :: (inner ++ [']'])) = some (.v6 ip) := by
  rw [literalHost?, rsplitOnce?_eq_some_iff.mpr ⟨rfl, List.not_mem_nil⟩]
  dsimp only
  rw [isRead]
  rfl

/-- Numbers and dots stand in no brackets. -/
theorem literalHost?_numeric
    {ip : Ipv4Addr}
    (notDotted : parseIpv4? host = none)
    (isRead : inetAddr? host = some ip) :
    literalHost? host = some (.v4 ip) := by
  unfold literalHost?
  split
  · have noBracket : ¬IsNumberChar '[' := by
      unfold IsNumberChar
      decide
    exact absurd (isNumberChar_of_inetAddr? isRead '[' List.mem_cons_self)
      noBracket
  · rw [notDotted, isRead]
    rfl

end Url

/--
The filter lets no literal address through that it is there for, exactly when
the host that the URL names is no spelling around it.
-/
theorem filter_complete_iff (url : List Char) :
    (∀ target, parseAuthUrl url = .ok target →
        ∀ ip, literal? target.addr = some ip → ¬Forbidden ip) ↔
      ∀ host, NamesHost url host → ¬SpelledAround host := by
  constructor
  · intro complete host named around
    have denied :
        ∀ {ip}, rejectSsrfTarget? host = none →
          literalHost? host = some ip → ¬Forbidden ip := by
      intro ip accepted isLiteral
      obtain ⟨target, isParsed, rfl⟩ := parseAuthUrl_of_namesHost named accepted
      refine complete target isParsed ip ?_
      rw [literal?_addr (parseAuthUrl_ok isParsed).1, isLiteral]
    cases around with
    | bracketed isRead forbidden =>
        exact denied (accepted_of_bracket _) (literalHost?_bracketed isRead)
          forbidden
    | numeric notDotted isRead forbidden =>
        exact denied (accepted_of_inetAddr? notDotted isRead)
          (literalHost?_numeric notDotted isRead) forbidden
  · intro direct target isParsed ip isLiteral
    obtain ⟨small, isHost⟩ := parseAuthUrl_ok isParsed
    rw [literal?_addr small] at isLiteral
    rcases isHost with ⟨named, accepted⟩ | isLoopback
    · have notAround := direct target.host named
      rcases literalHost?_cases isLiteral with
        ⟨inner, v6, isHost, isRead, rfl⟩ | ⟨v4, isRead, rfl⟩
      · intro forbidden
        rw [isHost] at notAround
        exact notAround (.bracketed isRead forbidden)
      · cases isDotted : parseIpv4? target.host with
        | some ip =>
            rw [isDotted] at isRead
            cases isRead
            exact not_forbiddenV4_of_accepted isDotted accepted
        | none =>
            rw [isDotted] at isRead
            intro forbidden
            exact notAround (.numeric isDotted isRead forbidden)
    · rw [isLoopback] at isLiteral
      cases isLiteral
      decide

/-- Brackets, a mapped address and a hexadecimal number pass the filter. -/
theorem forbidden_addresses_pass :
    ∃ linkLocal mapped number,
      parseAuthUrl "http://[fe80::1]:80/".toList = .ok linkLocal ∧
      literal? linkLocal.addr =
          some (.v6 ⟨0xfe :: 0x80 :: List.replicate 13 0 ++ [1], rfl⟩) ∧
        ForbiddenV6 ⟨0xfe :: 0x80 :: List.replicate 13 0 ++ [1], rfl⟩ ∧
      parseAuthUrl "http://[::ffff:169.254.169.254]:80/".toList = .ok mapped ∧
      (literal? mapped.addr).any (fun ip => decide (Forbidden ip)) = true ∧
      parseAuthUrl "http://0xa9fea9fe/".toList = .ok number ∧
      literal? number.addr = some (.v4 ⟨169, 254, 169, 254⟩) ∧
        ForbiddenV4 ⟨169, 254, 169, 254⟩ :=
  ⟨⟨"[fe80::1]".toList, 80, ['/'], false⟩,
    ⟨"[::ffff:169.254.169.254]".toList, 80, ['/'], false⟩,
    ⟨"0xa9fea9fe".toList, 80, ['/'], false⟩,
    by decide, by decide, by decide, by decide, by decide, by decide,
    by decide, by decide⟩

end Sweety.AuthTarget
