import Sweety.VHost

namespace Sweety

open HttpText KeyedTable

/-!
# The certificates of a TLS port

Model of `SniResolver` in `server/tls.rs`: for each TLS port a table of exact
names, a table of wildcard suffixes and the certificates for all other names.

A certificate is an arbitrary type.  `lower` is `str::to_lowercase`, and `first`
is the first value of a `HashMap` in its own order.
-/

/-- `struct Inner` of a resolver. -/
structure SniResolver (Cert : Type) where
  exact : Table String (List Cert)
  wildcard : Table String (List Cert)
  fallback : List Cert

variable {Cert : Type}

namespace SniResolver

def empty : SniResolver Cert where
  exact := ∅
  wildcard := ∅
  fallback := []

/-- The body of the loop of `upsert_site`. -/
def insertName
    (lower : String → String)
    (keys : List Cert)
    (resolver : SniResolver Cert)
    (name : String) :
    SniResolver Cert :=
  match wildcardSuffix? name with
  | some suffix =>
      { resolver with
        wildcard := resolver.wildcard.insert (lower suffix) keys }
  | none =>
      { resolver with
        exact := resolver.exact.insert (lower name) keys }

/-- `upsert_site`; the first certificates are those for all other names. -/
def upsertSite
    (lower : String → String)
    (names : List String)
    (keys : List Cert)
    (resolver : SniResolver Cert) :
    SniResolver Cert :=
  names.foldl (insertName lower keys)
    { resolver with
      fallback :=
        if resolver.fallback.isEmpty then keys else resolver.fallback }

/-- The body of the loop of `remove_site`. -/
def eraseName
    (lower : String → String)
    (resolver : SniResolver Cert)
    (name : String) :
    SniResolver Cert :=
  match wildcardSuffix? name with
  | some suffix =>
      { resolver with
        wildcard := resolver.wildcard.erase (lower suffix) }
  | none =>
      { resolver with
        exact := resolver.exact.erase (lower name) }

/-- The first value of the two tables. -/
def firstKeys
    (first : Table String (List Cert) → Option (List Cert))
    (resolver : SniResolver Cert) :
    List Cert :=
  ((first resolver.exact).or (first resolver.wildcard)).getD []

/-- `remove_site`. -/
def removeSite
    (lower : String → String)
    (first : Table String (List Cert) → Option (List Cert))
    (names : List String)
    (resolver : SniResolver Cert) :
    SniResolver Cert :=
  let erased := names.foldl (eraseName lower) resolver
  { erased with fallback := erased.firstKeys first }

/-- `SniResolver::new`. -/
def new
    (lower : String → String)
    (certsMap : List (List String × List Cert)) :
    SniResolver Cert :=
  certsMap.foldl
    (fun resolver (names, keys) => resolver.upsertSite lower names keys)
    empty

/-- `lookup`. -/
def lookup (name : String) (resolver : SniResolver Cert) : List Cert :=
  let nameLower := toAsciiLowercase name.toList
  match resolver.exact.get? (String.ofList nameLower) with
  | some keys =>
      keys
  | none =>
      let found :=
        (splitOnce? '.' nameLower).bind fun parts =>
          resolver.wildcard.get? (String.ofList parts.2)
      found.getD resolver.fallback

/-- `choose`; `fits` says whether a certificate has a scheme of the client. -/
def choose (fits : Cert → Bool) (candidates : List Cert) : Option Cert :=
  (candidates.find? fits).or candidates.head?

/-- `resolve`. -/
def resolve
    (fits : Cert → Bool)
    (serverName : Option String)
    (resolver : SniResolver Cert) :
    Option Cert :=
  choose fits
    (match serverName with
      | some name =>
          resolver.lookup name
      | none =>
          resolver.fallback)

/-! ## What the mutations do to each entry -/

section Entries

variable
  {Tls Other : Type}
  {resolver : SniResolver Cert}
  {slot : Slot}

/-- The certificates for the names of a place; the fallback is no name. -/
def readName (slot : Slot) (resolver : SniResolver Cert) :
    Option (List Cert) :=
  match slot with
  | .exact key =>
      resolver.exact.get? key
  | .wildcard key =>
      resolver.wildcard.get? key
  | .fallback =>
      none

@[simp]
theorem readName_empty :
    (empty : SniResolver Cert).readName slot = none := by
  cases slot <;> rfl

/-- The loop of `upsert_site` writes the keys of the site. -/
theorem foldl_insertName
    (lower : String → String)
    (keys : List Cert)
    (names : List String)
    (resolver : SniResolver Cert) :
    names.foldl (insertName lower keys) resolver =
      { resolver with
        exact :=
          resolver.exact.insertAll
            ((names.filter fun name => (wildcardSuffix? name).isNone).map
              lower)
            keys
        wildcard :=
          resolver.wildcard.insertAll
            ((names.filterMap wildcardSuffix?).map lower) keys } := by
  induction names generalizing resolver with
  | nil =>
      rfl
  | cons name rest inductionHypothesis =>
      rw [List.foldl_cons, inductionHypothesis]
      cases isSuffix : wildcardSuffix? name with
      | none =>
          simp [insertName, isSuffix, Table.insertAll]
      | some suffix =>
          simp [insertName, isSuffix, Table.insertAll]

/-- The loop of `remove_site` erases the keys of the site. -/
theorem foldl_eraseName
    (lower : String → String)
    (names : List String)
    (resolver : SniResolver Cert) :
    names.foldl (eraseName lower) resolver =
      { resolver with
        exact :=
          resolver.exact.eraseAll
            ((names.filter fun name => (wildcardSuffix? name).isNone).map
              lower)
        wildcard :=
          resolver.wildcard.eraseAll
            ((names.filterMap wildcardSuffix?).map lower) } := by
  induction names generalizing resolver with
  | nil =>
      rfl
  | cons name rest inductionHypothesis =>
      rw [List.foldl_cons, inductionHypothesis]
      cases isSuffix : wildcardSuffix? name with
      | none =>
          simp [eraseName, isSuffix, Table.eraseAll]
      | some suffix =>
          simp [eraseName, isSuffix, Table.eraseAll]

/-- `upsert_site`, place by place. -/
theorem readName_upsertSite
    (lower : String → String)
    (site : SiteConfig Tls Other)
    (keys : List Cert)
    (isName : slot ≠ .fallback) :
    (resolver.upsertSite lower site.serverName keys).readName slot =
      if site.Claims lower slot then
        some keys
      else
        resolver.readName slot := by
  rw [upsertSite, foldl_insertName]
  cases slot with
  | exact key =>
      exact (Table.get?_insertAll _ keys resolver.exact key).trans
        (if_congr Iff.rfl rfl rfl)
  | wildcard key =>
      exact (Table.get?_insertAll _ keys resolver.wildcard key).trans
        (if_congr Iff.rfl rfl rfl)
  | fallback =>
      exact absurd rfl isName

theorem fallback_upsertSite
    (lower : String → String)
    (names : List String)
    (keys : List Cert) :
    (resolver.upsertSite lower names keys).fallback =
      if resolver.fallback = [] then keys else resolver.fallback := by
  rw [upsertSite, foldl_insertName]
  exact if_congr List.isEmpty_iff rfl rfl

/-- `remove_site`, place by place. -/
theorem readName_removeSite
    (lower : String → String)
    (first : Table String (List Cert) → Option (List Cert))
    (site : SiteConfig Tls Other)
    (isName : slot ≠ .fallback) :
    (resolver.removeSite lower first site.serverName).readName slot =
      if site.Claims lower slot then
        none
      else
        resolver.readName slot := by
  rw [removeSite, foldl_eraseName]
  cases slot with
  | exact key =>
      exact (Table.get?_eraseAll _ resolver.exact key).trans
        (if_congr Iff.rfl rfl rfl)
  | wildcard key =>
      exact (Table.get?_eraseAll _ resolver.wildcard key).trans
        (if_congr Iff.rfl rfl rfl)
  | fallback =>
      exact absurd rfl isName

/--
The first certificates stand at some place, or there is none: whatever the order
is, it gives a value of a table that has one.
-/
theorem firstKeys_cases
    {first : Table String (List Cert) → Option (List Cert)}
    (isValue :
      ∀ table keys,
        first table = some keys →
        ∃ key, Table.get? key table = some keys)
    (isEmpty :
      ∀ table,
        first table = none →
        ∀ key, Table.get? key table = none)
    (resolver : SniResolver Cert) :
    (∃ slot, resolver.readName slot = some (resolver.firstKeys first)) ∨
      (resolver.firstKeys first = [] ∧
        ∀ slot, resolver.readName slot = none) := by
  rw [firstKeys]
  cases isExact : first resolver.exact with
  | some keys =>
      obtain ⟨key, isRead⟩ := isValue _ _ isExact
      exact .inl ⟨.exact key, isRead⟩
  | none =>
      cases isWildcard : first resolver.wildcard with
      | some keys =>
          obtain ⟨key, isRead⟩ := isValue _ _ isWildcard
          exact .inl ⟨.wildcard key, isRead⟩
      | none =>
          refine .inr ⟨rfl, ?_⟩
          intro slot
          cases slot with
          | exact key =>
              exact isEmpty _ isExact key
          | wildcard key =>
              exact isEmpty _ isWildcard key
          | fallback =>
              rfl

/-- A resolver answers with the certificates of the places it looks at. -/
theorem lookup_eq (name : String) :
    resolver.lookup name =
      ((VHostInner.lookupSlots name).findSome? fun slot =>
        resolver.readName slot).getD resolver.fallback := by
  unfold lookup VHostInner.lookupSlots
  cases isExact : resolver.exact.get?
      (String.ofList (toAsciiLowercase name.toList)) with
  | some keys =>
      simp [readName, isExact]
  | none =>
      cases isSplit : splitOnce? '.' (toAsciiLowercase name.toList) with
      | none =>
          simp [readName, isExact, isSplit]
      | some parts =>
          cases isWildcard :
              resolver.wildcard.get? (String.ofList parts.2) with
          | none =>
              simp [readName, isExact, isSplit, isWildcard]
          | some keys =>
              simp [readName, isExact, isSplit, isWildcard]

end Entries

end SniResolver

end Sweety
