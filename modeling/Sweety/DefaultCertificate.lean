import Sweety.SniResolver
import Sweety.StepRun

namespace Sweety.DefaultCertificate

open KeyedTable HttpText

/-!
# Whether the certificate for all other names is current

A `SniResolver` is made by a series of `upsert_site`, and changed by
`upsert_site` and `remove_site`: by hot reloads and, with the same names and new
keys, by the renewal of `reload_acme_cert_in_resolvers`.  Every caller passes
certificates; the first value of a `HashMap` is found in an order of its own at
every removal.
-/

/-- What the iterator of a `HashMap` gives first. -/
structure HashFirst (Cert : Type) where
  first : Table String (List Cert) → Option (List Cert)
  isValue :
    ∀ table keys,
      first table = some keys →
      ∃ key, Table.get? key table = some keys
  isEmpty :
    ∀ table,
      first table = none →
      ∀ key, Table.get? key table = none

inductive Operation (Cert : Type) where
  | upsertSite (names : List String) (keys : List Cert) (nonempty : keys ≠ [])
  | removeSite (names : List String) (order : HashFirst Cert)

section Steps

variable {Cert : Type} (lower : String → String)

def step (resolver : SniResolver Cert) :
    Operation Cert → Option (SniResolver Cert)
  | .upsertSite names keys _ =>
      some (resolver.upsertSite lower names keys)
  | .removeSite names order =>
      some (resolver.removeSite lower order.first names)

/-! ## What is wanted -/

/-- The certificate is registered under some name. -/
def Registered (resolver : SniResolver Cert) (cert : Cert) : Prop :=
  ∃ slot keys, resolver.readName slot = some keys ∧ cert ∈ keys

/-- A client sends no name, or one that no entry is for. -/
def Unmatched (resolver : SniResolver Cert) : Option String → Prop
  | none =>
      True
  | some name =>
      let nameLower := toAsciiLowercase name.toList
      resolver.exact.get? (String.ofList nameLower) = none ∧
        ∀ parts,
          splitOnce? '.' nameLower = some parts →
          resolver.wildcard.get? (String.ofList parts.2) = none

/--
If any certificate is registered, then a client without a matching name gets one
that is registered, whatever its signature schemes are.
-/
def Current (resolver : SniResolver Cert) : Prop :=
  (∃ cert, Registered resolver cert) →
    ∀ (fits : Cert → Bool) (serverName : Option String),
      Unmatched resolver serverName →
      ∃ cert,
        resolver.resolve fits serverName = some cert ∧
          Registered resolver cert

/-- The names write the entry at a place. -/
def Claims (names : List String) : Slot → Prop
  | .exact key =>
      key ∈ (names.filter fun name => (wildcardSuffix? name).isNone).map lower
  | .wildcard key =>
      key ∈ (names.filterMap wildcardSuffix?).map lower
  | .fallback =>
      False

/-- The certificate is registered under a name that is not one of these. -/
def Stays
    (names : List String)
    (resolver : SniResolver Cert)
    (cert : Cert) :
    Prop :=
  ∃ slot keys,
    ¬ Claims lower names slot ∧
      resolver.readName slot = some keys ∧
      cert ∈ keys

/--
An `upsert_site` leaves every certificate for all other names registered, under
another name or among the new ones, unless nothing is registered at all.
-/
def KeepsFallback (before : SniResolver Cert) :
    Operation Cert → SniResolver Cert → Prop
  | .upsertSite names keys _, _ =>
      (names ≠ [] ∨ ∃ cert, Stays lower names before cert) →
      ∀ cert ∈ before.fallback,
        (names ≠ [] ∧ cert ∈ keys) ∨ Stays lower names before cert
  | .removeSite _ _, _ =>
      True

end Steps

/-! ## What is registered after a step -/

section Entries

variable
  {Cert : Type}
  {lower : String → String}
  {resolver : SniResolver Cert}

/-- Whoever fits, one of the certificates is chosen. -/
theorem mem_of_choose
    {fits : Cert → Bool}
    {candidates : List Cert}
    {cert : Cert}
    (isChosen : SniResolver.choose fits candidates = some cert) :
    cert ∈ candidates := by
  rw [SniResolver.choose] at isChosen
  rcases Option.or_eq_some_iff.mp isChosen with isFound | ⟨-, isHead⟩
  · exact List.mem_of_find?_eq_some isFound
  · exact List.mem_of_head? isHead

/-- A client that fits one certificate only is given this one. -/
theorem choose_eq_of_mem
    [DecidableEq Cert]
    {candidates : List Cert}
    {cert : Cert}
    (member : cert ∈ candidates) :
    SniResolver.choose (fun other => decide (other = cert)) candidates =
      some cert := by
  have isFound :
      candidates.find? (fun other => decide (other = cert)) = some cert := by
    induction candidates with
    | nil =>
        cases member
    | cons first rest inductionHypothesis =>
        by_cases same : first = cert
        · subst same
          exact List.find?_cons_of_pos (decide_eq_true rfl)
        · have later : cert ∈ rest := by
            rcases List.mem_cons.mp member with isFirst | inRest
            · exact absurd isFirst.symm same
            · exact inRest
          rw [List.find?_cons_of_neg (by simpa using same)]
          exact inductionHypothesis later
  rw [SniResolver.choose, isFound]
  rfl

/--
A client without a matching name gets one of the certificates for other names.
-/
theorem resolve_of_unmatched
    (fits : Cert → Bool)
    {serverName : Option String}
    (unmatched : Unmatched resolver serverName) :
    resolver.resolve fits serverName =
      SniResolver.choose fits resolver.fallback := by
  cases serverName with
  | none =>
      rfl
  | some name =>
      obtain ⟨notExact, notWildcard⟩ := unmatched
      have isFallback : resolver.lookup name = resolver.fallback := by
        rw [SniResolver.lookup, notExact]
        cases isSplit : splitOnce? '.' (toAsciiLowercase name.toList) with
        | none =>
            rfl
        | some parts =>
            change (resolver.wildcard.get? _).getD resolver.fallback = _
            rw [notWildcard parts isSplit]
            rfl
      exact congrArg (SniResolver.choose fits) isFallback

/--
The default is current if all certificates for other names are registered.
-/
theorem current_iff :
    Current resolver ↔
      ((∃ cert, Registered resolver cert) →
        resolver.fallback ≠ [] ∧
          ∀ cert ∈ resolver.fallback, Registered resolver cert) := by
  classical
  constructor
  · intro current someCert
    refine ⟨?_, ?_⟩
    · intro isEmpty
      obtain ⟨cert, isChosen, -⟩ :=
        current someCert (fun _ => true) none trivial
      have member : cert ∈ resolver.fallback := mem_of_choose isChosen
      rw [isEmpty] at member
      cases member
    · intro cert member
      obtain ⟨other, isChosen, isRegistered⟩ :=
        current someCert (fun other => decide (other = cert)) none trivial
      have isCert :
          SniResolver.choose (fun other => decide (other = cert))
              resolver.fallback =
            some cert :=
        choose_eq_of_mem member
      change SniResolver.choose _ resolver.fallback = some other at isChosen
      rw [isCert] at isChosen
      cases isChosen
      exact isRegistered
  · intro allRegistered someCert fits serverName unmatched
    rw [resolve_of_unmatched fits unmatched]
    obtain ⟨nonempty, areRegistered⟩ := allRegistered someCert
    cases isChosen : SniResolver.choose fits resolver.fallback with
    | none =>
        rw [SniResolver.choose, Option.or_eq_none_iff] at isChosen
        exact absurd (List.head?_eq_none_iff.mp isChosen.2) nonempty
    | some cert =>
        exact ⟨cert, rfl, areRegistered cert (mem_of_choose isChosen)⟩

theorem readName_upsertSite
    (names : List String)
    (keys : List Cert)
    {slot : Slot}
    (isClaimed : Claims lower names slot) :
    (resolver.upsertSite lower names keys).readName slot = some keys := by
  rw [SniResolver.upsertSite, SniResolver.foldl_insertName]
  cases slot with
  | exact key =>
      exact (Table.get?_insertAll _ keys resolver.exact key).trans
        (if_pos isClaimed)
  | wildcard key =>
      exact (Table.get?_insertAll _ keys resolver.wildcard key).trans
        (if_pos isClaimed)
  | fallback =>
      exact isClaimed.elim

theorem readName_upsertSite_of_not
    (names : List String)
    (keys : List Cert)
    {slot : Slot}
    (notClaimed : ¬ Claims lower names slot) :
    (resolver.upsertSite lower names keys).readName slot =
      resolver.readName slot := by
  rw [SniResolver.upsertSite, SniResolver.foldl_insertName]
  cases slot with
  | exact key =>
      exact (Table.get?_insertAll _ keys resolver.exact key).trans
        (if_neg notClaimed)
  | wildcard key =>
      exact (Table.get?_insertAll _ keys resolver.wildcard key).trans
        (if_neg notClaimed)
  | fallback =>
      rfl

/-- A removal leaves nothing but what was there. -/
theorem readName_of_removeSite
    {first : Table String (List Cert) → Option (List Cert)}
    {names : List String}
    {slot : Slot}
    {keys : List Cert}
    (isRead :
      (resolver.removeSite lower first names).readName slot = some keys) :
    resolver.readName slot = some keys := by
  rw [SniResolver.removeSite, SniResolver.foldl_eraseName] at isRead
  cases slot with
  | exact key =>
      exact Table.within_eraseAll _ resolver.exact key keys isRead
  | wildcard key =>
      exact Table.within_eraseAll _ resolver.wildcard key keys isRead
  | fallback =>
      cases isRead

/-- Any name writes some entry. -/
theorem exists_claims
    {names : List String}
    (nonempty : names ≠ []) :
    ∃ slot, Claims lower names slot := by
  cases names with
  | nil =>
      exact absurd rfl nonempty
  | cons name rest =>
      cases isSuffix : wildcardSuffix? name with
      | none =>
          refine ⟨.exact (lower name), ?_⟩
          apply List.mem_map_of_mem
          exact
            List.mem_filter.mpr
              ⟨List.mem_cons_self, by rw [isSuffix]; rfl⟩
      | some suffix =>
          refine ⟨.wildcard (lower suffix), ?_⟩
          apply List.mem_map_of_mem
          exact List.mem_filterMap.mpr ⟨name, List.mem_cons_self, isSuffix⟩

theorem not_claims_nil (slot : Slot) : ¬ Claims lower [] slot := by
  cases slot with
  | exact key =>
      exact List.not_mem_nil
  | wildcard key =>
      exact List.not_mem_nil
  | fallback =>
      exact id

/-- What is registered after `upsert_site`. -/
theorem registered_upsertSite
    (names : List String)
    (keys : List Cert)
    (cert : Cert) :
    Registered (resolver.upsertSite lower names keys) cert ↔
      (names ≠ [] ∧ cert ∈ keys) ∨ Stays lower names resolver cert := by
  constructor
  · rintro ⟨slot, registered, isRead, member⟩
    by_cases isClaimed : Claims lower names slot
    · rw [readName_upsertSite names keys isClaimed] at isRead
      cases isRead
      refine .inl ⟨?_, member⟩
      rintro rfl
      exact not_claims_nil slot isClaimed
    · rw [readName_upsertSite_of_not names keys isClaimed] at isRead
      exact .inr ⟨slot, registered, isClaimed, isRead, member⟩
  · rintro (⟨nonempty, member⟩ | ⟨slot, registered, notClaimed, isRead, member⟩)
    · obtain ⟨slot, isClaimed⟩ := @exists_claims lower _ nonempty
      exact ⟨slot, keys, readName_upsertSite names keys isClaimed, member⟩
    · refine ⟨slot, registered, ?_, member⟩
      rw [readName_upsertSite_of_not names keys notClaimed]
      exact isRead

/-- The first certificates of what is left are registered. -/
theorem registered_firstKeys
    (order : HashFirst Cert)
    {cert : Cert}
    (member : cert ∈ resolver.firstKeys order.first) :
    Registered resolver cert := by
  rcases SniResolver.firstKeys_cases order.isValue order.isEmpty resolver with
    ⟨slot, isFirst⟩ | ⟨isEmpty, -⟩
  · exact ⟨slot, _, isFirst, member⟩
  · rw [isEmpty] at member
    cases member

/-- No entry is without certificates. -/
def Filled (resolver : SniResolver Cert) : Prop :=
  ∀ slot keys, resolver.readName slot = some keys → keys ≠ []

/-- If anything is left, there are first certificates. -/
theorem firstKeys_ne_nil
    (order : HashFirst Cert)
    (filled : Filled resolver)
    {cert : Cert}
    (isRegistered : Registered resolver cert) :
    resolver.firstKeys order.first ≠ [] := by
  rcases SniResolver.firstKeys_cases order.isValue order.isEmpty resolver with
    ⟨slot, isFirst⟩ | ⟨-, noEntry⟩
  · exact filled slot _ isFirst
  · obtain ⟨slot, keys, isRead, -⟩ := isRegistered
    cases (noEntry slot).symm.trans isRead

end Entries

/-! ## Which steps keep the default current -/

section Runs

variable
  {Cert : Type}
  {lower : String → String}
  {resolver after : SniResolver Cert}
  {operation : Operation Cert}

theorem Filled.step
    (filled : Filled resolver)
    (taken : step lower resolver operation = some after) :
    Filled after := by
  intro slot keys isRead
  cases operation with
  | upsertSite names newKeys nonempty =>
      cases taken
      by_cases isClaimed : Claims lower names slot
      · rw [readName_upsertSite names newKeys isClaimed] at isRead
        cases isRead
        exact nonempty
      · rw [readName_upsertSite_of_not names newKeys isClaimed] at isRead
        exact filled slot keys isRead
  | removeSite names order =>
      cases taken
      exact filled slot keys (readName_of_removeSite isRead)

/-- A removal takes a default of what is left. -/
theorem current_removeSite
    (filled : Filled resolver)
    (names : List String)
    (order : HashFirst Cert) :
    Current (resolver.removeSite lower order.first names) := by
  have stillFilled :
      Filled (resolver.removeSite lower order.first names) := by
    intro slot keys isRead
    exact filled slot keys (readName_of_removeSite isRead)
  apply current_iff.mpr
  rintro ⟨cert, isRegistered⟩
  constructor
  · exact firstKeys_ne_nil order stillFilled isRegistered
  · intro other member
    exact registered_firstKeys order member

/-- An update of a resolver that has no default yet. -/
theorem current_upsertSite_of_empty
    (current : Current resolver)
    (isEmpty : resolver.fallback = [])
    (names : List String)
    {keys : List Cert}
    (nonempty : keys ≠ []) :
    Current (resolver.upsertSite lower names keys) := by
  have noneBefore : ¬ ∃ cert, Registered resolver cert := by
    intro someCert
    exact (current_iff.mp current someCert).1 isEmpty
  apply current_iff.mpr
  rintro ⟨cert, isRegistered⟩
  rw [SniResolver.fallback_upsertSite, if_pos isEmpty]
  refine ⟨nonempty, ?_⟩
  rcases (registered_upsertSite names keys cert).mp isRegistered with
      ⟨hasName, -⟩ | ⟨slot, registered, -, isRead, member⟩
  · intro other isKey
    exact (registered_upsertSite names keys other).mpr (.inl ⟨hasName, isKey⟩)
  · exact absurd ⟨cert, slot, registered, isRead, member⟩ noneBefore

/-- An update of a resolver that has a default. -/
theorem current_upsertSite_iff
    (hasDefault : resolver.fallback ≠ [])
    (names : List String)
    {keys : List Cert}
    (nonempty : keys ≠ []) :
    Current (resolver.upsertSite lower names keys) ↔
      KeepsFallback lower resolver (.upsertSite names keys nonempty) after := by
  rw [current_iff, SniResolver.fallback_upsertSite, if_neg hasDefault]
  have someRegistered :
      (∃ cert, Registered (resolver.upsertSite lower names keys) cert) ↔
        (names ≠ [] ∨ ∃ cert, Stays lower names resolver cert) := by
    constructor
    · rintro ⟨cert, isRegistered⟩
      rcases (registered_upsertSite names keys cert).mp isRegistered with
          ⟨hasName, -⟩ | stays
      · exact .inl hasName
      · exact .inr ⟨cert, stays⟩
    · rintro (hasName | ⟨cert, stays⟩)
      · obtain ⟨key, isKey⟩ := List.exists_mem_of_ne_nil keys nonempty
        exact
          ⟨key, (registered_upsertSite names keys key).mpr
            (.inl ⟨hasName, isKey⟩)⟩
      · exact ⟨cert, (registered_upsertSite names keys cert).mpr (.inr stays)⟩
  rw [someRegistered]
  constructor
  · intro current someLeft cert member
    exact
      (registered_upsertSite names keys cert).mp
        ((current someLeft).2 cert member)
  · intro keeps someLeft
    refine ⟨hasDefault, ?_⟩
    intro cert member
    exact
      (registered_upsertSite names keys cert).mpr
        (keeps someLeft cert member)

/-- A step leaves the default current exactly if it keeps its registrations. -/
theorem current_iff_keepsFallback
    (current : Current resolver)
    (filled : Filled resolver)
    (taken : step lower resolver operation = some after) :
    Current after ↔ KeepsFallback lower resolver operation after := by
  cases operation with
  | upsertSite names keys nonempty =>
      cases taken
      by_cases isEmpty : resolver.fallback = []
      · constructor
        · intro _ _ cert member
          rw [isEmpty] at member
          cases member
        · intro _
          exact current_upsertSite_of_empty current isEmpty names nonempty
      · exact current_upsertSite_iff isEmpty names nonempty
  | removeSite names order =>
      cases taken
      exact
        ⟨fun _ => trivial, fun _ => current_removeSite filled names order⟩

/--
In every run the default is current after each step exactly if no `upsert_site`
writes over the last registration of a certificate for all other names.
-/
theorem current_along_iff
    (lower : String → String)
    (operations : List (Operation Cert)) :
    StepRun.Along (step lower) (fun _ _ after => Current after)
        SniResolver.empty operations ↔
      StepRun.Along (step lower) (KeepsFallback lower)
        SniResolver.empty operations := by
  have start :
      Current (SniResolver.empty : SniResolver Cert) ∧
        Filled (SniResolver.empty : SniResolver Cert) := by
    constructor
    · rintro ⟨cert, slot, keys, isRead, -⟩
      rw [SniResolver.readName_empty] at isRead
      cases isRead
    · intro slot keys isRead
      rw [SniResolver.readName_empty] at isRead
      cases isRead
  have preserved :
      ∀ {before : SniResolver Cert} {label after},
        Current before ∧ Filled before →
        step lower before label = some after →
        KeepsFallback lower before label after →
        Current after ∧ Filled after := by
    intro before label after kept taken keeps
    constructor
    · exact (current_iff_keepsFallback kept.1 kept.2 taken).mpr keeps
    · exact kept.2.step taken
  have same :
      ∀ {before : SniResolver Cert} {label after},
        Current before ∧ Filled before →
        step lower before label = some after →
        (Current after ↔ KeepsFallback lower before label after) := by
    intro before label after kept taken
    exact current_iff_keepsFallback kept.1 kept.2 taken
  exact StepRun.along_congr_of_guarded preserved same start

/-- A resolver is made by a run of `upsert_site`. -/
theorem run?_new
    (lower : String → String)
    (certsMap : List (List String × {keys : List Cert // keys ≠ []})) :
    StepRun.run? (step lower) SniResolver.empty
        (certsMap.map fun site => .upsertSite site.1 site.2.1 site.2.2) =
      some
        (SniResolver.new lower
          (certsMap.map fun site => (site.1, site.2.1))) := by
  have runs :
      ∀ start : SniResolver Cert,
        StepRun.run? (step lower) start
            (certsMap.map fun site => .upsertSite site.1 site.2.1 site.2.2) =
          some
            ((certsMap.map fun site => (site.1, site.2.1)).foldl
              (fun resolver site => resolver.upsertSite lower site.1 site.2)
              start) := by
    induction certsMap with
    | nil =>
        intro start
        rfl
    | cons site rest inductionHypothesis =>
        intro start
        exact inductionHypothesis _
  exact runs SniResolver.empty

end Runs

/--
The certificate of the only site is renewed; the old one stays the default.
-/
theorem not_current_renewed :
    ¬ StepRun.Along (step id) (fun _ _ after => Current after)
      (SniResolver.empty : SniResolver Bool)
      [.upsertSite ["a"] [false] (List.cons_ne_nil _ _),
        .upsertSite ["a"] [true] (List.cons_ne_nil _ _)] := by
  intro along
  obtain ⟨-, along⟩ := along _ rfl
  obtain ⟨current, -⟩ := along _ rfl
  have isRegistered :
      Registered
        (((SniResolver.empty : SniResolver Bool).upsertSite id ["a"]
          [false]).upsertSite id ["a"] [true])
        true :=
    ⟨.exact "a", [true], by decide, List.mem_singleton_self _⟩
  have isDefault := (current_iff.mp current ⟨true, isRegistered⟩).2 false
  have isOld := isDefault (by decide)
  rcases (registered_upsertSite ["a"] [true] false).mp isOld with
      ⟨-, isNew⟩ | ⟨slot, keys, notClaimed, isRead, member⟩
  · cases List.mem_singleton.mp isNew
  · by_cases isClaimed : Claims id ["a"] slot
    · exact notClaimed isClaimed
    · rw [readName_upsertSite_of_not ["a"] [false] isClaimed,
        SniResolver.readName_empty] at isRead
      cases isRead

end Sweety.DefaultCertificate
