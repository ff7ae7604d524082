import Sweety.AcmeOrder
import Sweety.HttpText
import Sweety.RecordChanges

namespace Sweety.DnsProviders

open AcmeOrder HttpText RecordChanges

/-!
# The providers of DNS records

Model of the adapters in `server/dns01.rs` that use an API.  The records of a
provider are a set of names with values.  Both adapters delete before they
create: the one for Cloudflare what has the name of the record, the one for
Aliyun what a search for the host in the domain finds, which is every host that
contains the word searched for.
-/

/-! ## Names -/

/-- `trim_start_matches("*.")`. -/
def trimWildcards : List Char → List Char
  | '*' :: '.' :: rest =>
      trimWildcards rest
  | text =>
      text

/-- `acme_challenge_domain`. -/
def acmeChallengeDomain (domain : String) : List Char :=
  "_acme-challenge.".toList ++ trimWildcards domain.toList

/-- `split_rr_domain`. -/
def splitRrDomain (recordName : List Char) :
    Except Exit (List Char × List Char) :=
  match splitOnce? '.' recordName with
  | none =>
      .error (.failed ["无法解析 DNS 记录名: " ++ String.ofList recordName])
  | some parts =>
      let allParts := recordName.splitOn '.'
      if 3 ≤ allParts.length then
        -- the last two parts are taken for the domain
        .ok (List.intercalate ['.'] (allParts.take (allParts.length - 2)),
          List.intercalate ['.'] (allParts.drop (allParts.length - 2)))
      else
        .ok parts

/-! ## Records -/

/-- The name and the value of a TXT record. -/
abbrev TxtRecord :=
  List Char × String

/-- `DnsProviderConfig`, without scripts and credentials. -/
inductive DnsProvider where
  | cloudflare (zoneId : Option String)
  | aliyun
  deriving Repr, DecidableEq

/-- The search for a word among the hosts of a domain, in any case. -/
def FoundByKeyword (keyword domain name : List Char) : Prop :=
  ∃ host,
    name = host ++ '.' :: domain ∧
      contains (host.map Char.toLower) (keyword.map Char.toLower) = true

/-- The adapter deletes the record when it deletes by a name. -/
def Hits (provider : DnsProvider) (name : List Char) (record : TxtRecord) :
    Prop :=
  match provider with
  | .cloudflare _ =>
      record.1 = name
  | .aliyun =>
      match splitRrDomain name with
      | .ok (keyword, domain) =>
          FoundByKeyword keyword domain record.1
      | .error _ =>
          False

/-- A change of the records by name. -/
abbrev DnsChange :=
  Change (List Char) TxtRecord

/-- No change. -/
def unchanged : DnsChange :=
  ⟨none, none⟩

/-! ## Adapters -/

/-- An answer of the API. -/
inductive Answer where
  | success
  | refused (status text : String)
  deriving Repr, DecidableEq

/-- What the calls that set a record are answered. -/
structure SetReply where
  /-- `cloudflare_get_zone_id`. -/
  zone : Reply Unit
  create : Reply Answer
  deriving Repr, DecidableEq

/-- `with_context`, for what was awaited. -/
def withContext {Value : Type} (context : String) :
    Except Exit Value → Except Exit Value
  | .error (.failed chain) =>
      .error (.failed (context :: chain))
  | other =>
      other

/-- `cloudflare_set_txt`: how it ends, and what it changes. -/
def cloudflareSetTxt (zoneId : Option String) (reply : SetReply)
    (recordName : List Char) (txtValue : String) :
    Except Exit Unit × DnsChange :=
  let zone : Except Exit Unit :=
    match zoneId with
    | some _ =>
        .ok ()
    | none =>
        awaited [] reply.zone
  match zone with
  | .error exit =>
      (.error exit, unchanged)
  | .ok () =>
      match awaited ["Cloudflare API 请求失败"] reply.create with
      | .error exit =>
          (.error exit, ⟨some recordName, none⟩)
      | .ok (.refused status text) =>
          (.error (.failed ["Cloudflare 创建 TXT 记录失败 (" ++ status ++ "): " ++
            text]), ⟨some recordName, none⟩)
      | .ok .success =>
          (.ok (), ⟨some recordName, some (recordName, txtValue)⟩)

/-- `aliyun_set_txt`; it does not look at what it is answered. -/
def aliyunSetTxt (reply : SetReply) (recordName : List Char)
    (txtValue : String) : Except Exit Unit × DnsChange :=
  match splitRrDomain recordName with
  | .error exit =>
      (.error exit, unchanged)
  | .ok (rr, domain) =>
      match awaited ["阿里云 AddDomainRecord 失败"] reply.create with
      | .error exit =>
          (.error exit, ⟨some recordName, none⟩)
      | .ok _ =>
          (.ok (), ⟨some recordName, some (rr ++ '.' :: domain, txtValue)⟩)

/-- `set_dns01_record`. -/
def setDns01Record (provider : DnsProvider) (reply : SetReply)
    (domain txtValue : String) : Except Exit Unit × DnsChange :=
  let challengeDomain := acmeChallengeDomain domain
  match provider with
  | .cloudflare zoneId =>
      cloudflareSetTxt zoneId reply challengeDomain txtValue
  | .aliyun =>
      aliyunSetTxt reply challengeDomain txtValue

/-- `delete_dns01_record`; neither adapter looks at the value. -/
def deleteDns01Record (domain : String) : DnsChange :=
  ⟨some (acmeChallengeDomain domain), none⟩

/-! ## What an adapter creates -/

theorem intercalate_append
    {separator : List Char}
    {first second : List (List Char)}
    (firstNonempty : first ≠ [])
    (secondNonempty : second ≠ []) :
    separator.intercalate (first ++ second) =
      separator.intercalate first ++
        (separator ++ separator.intercalate second) := by
  induction first with
  | nil =>
      exact absurd rfl firstNonempty
  | cons part rest inductionHypothesis =>
      cases rest with
      | nil =>
          rw [List.singleton_append,
            List.intercalate_cons_of_ne_nil secondNonempty,
            List.intercalate_singleton, List.append_assoc]
      | cons next rest =>
          rw [List.cons_append, List.cons_append,
            List.intercalate_cons_cons, ← List.cons_append,
            inductionHypothesis (List.cons_ne_nil next rest),
            List.intercalate_cons_cons]
          simp only [List.append_assoc]

/-- Host and domain are the name again. -/
theorem eq_of_splitRrDomain
    {recordName rr domain : List Char}
    (isSplit : splitRrDomain recordName = .ok (rr, domain)) :
    rr ++ '.' :: domain = recordName := by
  unfold splitRrDomain at isSplit
  split at isSplit
  · nomatch isSplit
  · rename_i parts isParts
    dsimp only at isSplit
    split at isSplit
    · rename_i several
      cases isSplit
      have whole :
          List.intercalate ['.'] (recordName.splitOn '.') = recordName :=
        List.intercalate_splitOn '.'
      rw [← List.take_append_drop
          ((recordName.splitOn '.').length - 2) (recordName.splitOn '.'),
        intercalate_append] at whole
      · exact whole
      · intro isNil
        have lengths := congrArg List.length isNil
        rw [List.length_take, List.length_nil] at lengths
        omega
      · intro isNil
        have lengths := congrArg List.length isNil
        rw [List.length_drop, List.length_nil] at lengths
        omega
    · cases isSplit
      exact (splitOnce?_eq_some_iff.mp isParts).1.symm

/-- What is set without an error is the record of the challenge. -/
theorem change_of_setDns01Record
    {provider : DnsProvider}
    {reply : SetReply}
    {domain txtValue : String}
    (isSet : (setDns01Record provider reply domain txtValue).1 = .ok ()) :
    (setDns01Record provider reply domain txtValue).2 =
      ⟨some (acmeChallengeDomain domain),
        some (acmeChallengeDomain domain, txtValue)⟩ := by
  cases provider with
  | cloudflare zoneId =>
      change (cloudflareSetTxt zoneId reply (acmeChallengeDomain domain)
        txtValue).1 = .ok () at isSet
      change (cloudflareSetTxt zoneId reply (acmeChallengeDomain domain)
        txtValue).2 = _
      unfold cloudflareSetTxt at isSet ⊢
      dsimp only at isSet ⊢
      split at isSet
      · nomatch isSet
      · split at isSet
        · nomatch isSet
        · nomatch isSet
        · rfl
  | aliyun =>
      change (aliyunSetTxt reply (acmeChallengeDomain domain)
        txtValue).1 = .ok () at isSet
      change (aliyunSetTxt reply (acmeChallengeDomain domain)
        txtValue).2 = _
      unfold aliyunSetTxt at isSet ⊢
      split at isSet
      · nomatch isSet
      · rename_i rr itsDomain isSplit
        split at isSet
        · nomatch isSet
        · rw [eq_of_splitRrDomain isSplit]

/-- What fails creates nothing. -/
theorem creates_of_not_set
    {provider : DnsProvider}
    {reply : SetReply}
    {domain txtValue : String}
    (notSet : (setDns01Record provider reply domain txtValue).1 ≠ .ok ()) :
    (setDns01Record provider reply domain txtValue).2.creates = none := by
  cases provider with
  | cloudflare zoneId =>
      change (cloudflareSetTxt zoneId reply (acmeChallengeDomain domain)
        txtValue).1 ≠ .ok () at notSet
      change (cloudflareSetTxt zoneId reply (acmeChallengeDomain domain)
        txtValue).2.creates = none
      unfold cloudflareSetTxt at notSet ⊢
      dsimp only at notSet ⊢
      split
      · rfl
      · split
        · rfl
        · rfl
        · rename_i isZone _ isAnswer
          rw [isZone, isAnswer] at notSet
          exact absurd rfl notSet
  | aliyun =>
      change (aliyunSetTxt reply (acmeChallengeDomain domain)
        txtValue).1 ≠ .ok () at notSet
      change (aliyunSetTxt reply (acmeChallengeDomain domain)
        txtValue).2.creates = none
      unfold aliyunSetTxt at notSet ⊢
      split
      · rfl
      · rename_i rr itsDomain isSplit
        split
        · rfl
        · rename_i isAnswer
          rw [isSplit] at notSet
          dsimp only at notSet
          rw [isAnswer] at notSet
          exact absurd rfl notSet

end Sweety.DnsProviders
