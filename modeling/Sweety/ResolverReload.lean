import Sweety.RegistryAgreement

namespace Sweety.ResolverReload

open KeyedTable RegistryAgreement

/-!
# The resolver of one port through a reload

A reload changes the resolver of each port by itself.  Of each name it is said
what a reload does to its entry, whatever the order of the loops, as long as no
name goes from a site whose TLS settings change to another one.
-/

variable
  {Tls Other Cert : Type}
  {env : Externals Tls Other Cert}
  {resolvers : Table Nat (SniResolver Cert)}
  {resolver : SniResolver Cert}
  {port : Nat}
  {slot : Slot}
  {site : SiteConfig Tls Other}

/-! ## One port -/

section Port

variable (env) (port)

/-- The certificates that a site offers at a port. -/
def offered? (site : SiteConfig Tls Other) : Option (List Cert) :=
  if port ∈ site.listenTls then env.certificates? site else none

/-- `upsert_site_to_resolvers` at one port. -/
def upsertAt
    (site : SiteConfig Tls Other)
    (resolver : SniResolver Cert) :
    SniResolver Cert :=
  match env.certificates? site with
  | none =>
      resolver
  | some keys =>
      (site.listenTls.filter fun other => other = port).foldl
        (fun resolver _ =>
          resolver.upsertSite env.lower site.serverName keys)
        resolver

/-- `remove_site_from_resolvers` at one port. -/
def removeAt
    (site : SiteConfig Tls Other)
    (resolver : SniResolver Cert) :
    SniResolver Cert :=
  resolver.removeSite env.lower env.first site.serverName

/-- What a reload does with a site, at one port. -/
def editAt
    (resolver : SniResolver Cert)
    (edit : Edit Tls Other) :
    SniResolver Cert :=
  match edit with
  | .remove old =>
      removeAt env old resolver
  | .add new =>
      upsertAt env port new resolver
  | .change old new =>
      if env.tlsChanged old new then
        upsertAt env port new (removeAt env old resolver)
      else
        resolver

variable {env} {port}

theorem get?_upsertSiteToResolvers :
    (env.upsertSiteToResolvers site resolvers).get? port =
      (resolvers.get? port).map (upsertAt env port site) := by
  unfold Externals.upsertSiteToResolvers upsertAt
  cases env.certificates? site with
  | none =>
      simp
  | some keys =>
      simp only
      induction site.listenTls generalizing resolvers with
      | nil =>
          simp
      | cons other rest inductionHypothesis =>
          rw [List.foldl_cons, inductionHypothesis]
          by_cases isPort : other = port
          · subst isPort
            cases bound : resolvers.get? other with
            | none =>
                simp [bound]
            | some resolver =>
                simp [Table.get?_insert]
          · cases bound : resolvers.get? other with
            | none =>
                simp [isPort]
            | some resolver =>
                simp [Table.get?_insert, isPort, Ne.symm isPort]

theorem get?_applyEdit
    (live : Live Tls Other Cert)
    (edit : Edit Tls Other) :
    (env.applyEdit live edit).sniResolvers.get? port =
      (live.sniResolvers.get? port).map
        fun resolver => editAt env port resolver edit := by
  cases edit with
  | remove old =>
      exact Table.get?_mapValues _ live.sniResolvers port
  | add new =>
      exact get?_upsertSiteToResolvers
  | change old new =>
      simp only [Externals.applyEdit, editAt]
      split
      · rw [get?_upsertSiteToResolvers, Externals.removeSiteFromResolvers,
          Table.get?_mapValues, Option.map_map]
        rfl
      · simp

/-- A reload changes the resolver of each port by itself. -/
theorem get?_applyDiff
    (new : List (SiteConfig Tls Other))
    (order : DiffOrder)
    (live : Live Tls Other Cert) :
    (env.applyDiff new order live).sniResolvers.get? port =
      (live.sniResolvers.get? port).map fun resolver =>
        (env.diff live.currentConfig new order).foldl (editAt env port)
          resolver := by
  rw [Externals.applyDiff]
  generalize env.diff live.currentConfig new order = edits
  have each :
      ∀ start : Live Tls Other Cert,
        (edits.foldl env.applyEdit start).sniResolvers.get? port =
          (start.sniResolvers.get? port).map fun resolver =>
            edits.foldl (editAt env port) resolver := by
    intro start
    induction edits generalizing start with
    | nil =>
        simp
    | cons edit rest inductionHypothesis =>
        rw [List.foldl_cons, inductionHypothesis, get?_applyEdit,
          Option.map_map]
        rfl
  exact each _

end Port

/-! ## One name at one port -/

section Name

theorem certificates?_ne_nil
    {keys : List Cert}
    (isKeys : env.certificates? site = some keys) :
    keys ≠ [] := by
  simpa using (Option.filter_eq_some_iff.mp isKeys).2

/-- The names of a site are written if it offers certificates at the port. -/
theorem readName_upsertAt (isName : slot ≠ .fallback) :
    (upsertAt env port site resolver).readName slot =
      if site.Claims env.lower slot then
        (offered? env port site).or (resolver.readName slot)
      else
        resolver.readName slot := by
  unfold upsertAt offered?
  cases env.certificates? site with
  | none =>
      simp
  | some keys =>
      simp only
      induction site.listenTls generalizing resolver with
      | nil =>
          simp
      | cons other rest inductionHypothesis =>
          by_cases isPort : other = port
          · subst isPort
            rw [List.filter_cons_of_pos (by simp), List.foldl_cons,
              inductionHypothesis,
              SniResolver.readName_upsertSite env.lower site keys isName]
            by_cases claims : site.Claims env.lower slot
            · by_cases later : other ∈ rest
              · simp [claims, later]
              · simp [claims, later]
            · simp [claims]
          · rw [List.filter_cons_of_neg (by simpa using isPort),
              inductionHypothesis]
            simp [Ne.symm isPort]

/-- The first certificates that are offered are those for all other names. -/
theorem fallback_upsertAt :
    (upsertAt env port site resolver).fallback =
      if resolver.fallback = [] then
        (offered? env port site).getD []
      else
        resolver.fallback := by
  unfold upsertAt offered?
  cases isKeys : env.certificates? site with
  | none =>
      by_cases isEmpty : resolver.fallback = []
      · simp [isEmpty]
      · simp [isEmpty]
  | some keys =>
      have notEmpty := certificates?_ne_nil isKeys
      simp only
      induction site.listenTls generalizing resolver with
      | nil =>
          by_cases isEmpty : resolver.fallback = []
          · simp [isEmpty]
          · simp [isEmpty]
      | cons other rest inductionHypothesis =>
          by_cases isPort : other = port
          · subst isPort
            rw [List.filter_cons_of_pos (by simp), List.foldl_cons,
              inductionHypothesis, SniResolver.fallback_upsertSite]
            by_cases isEmpty : resolver.fallback = []
            · simp [isEmpty, notEmpty]
            · simp [isEmpty]
          · rw [List.filter_cons_of_neg (by simpa using isPort),
              inductionHypothesis]
            simp [Ne.symm isPort]

variable (env port slot) in
/-- What an edit does to the entry of a name. -/
def touchAt : Edit Tls Other → Touch (List Cert)
  | .remove old =>
      ⟨decide (old.Claims env.lower slot), none⟩
  | .add new =>
      ⟨false,
        if new.Claims env.lower slot then
          offered? env port new
        else
          none⟩
  | .change old new =>
      if env.tlsChanged old new then
        ⟨decide (old.Claims env.lower slot),
          if new.Claims env.lower slot then
            offered? env port new
          else
            none⟩
      else
        ⟨false, none⟩

theorem readName_removeAt (isName : slot ≠ .fallback) :
    (removeAt env site resolver).readName slot =
      if site.Claims env.lower slot then
        none
      else
        resolver.readName slot :=
  SniResolver.readName_removeSite env.lower env.first site isName

theorem readName_editAt
    (isName : slot ≠ .fallback)
    (edit : Edit Tls Other) :
    (editAt env port resolver edit).readName slot =
      (touchAt env port slot edit).apply (resolver.readName slot) := by
  cases edit with
  | remove old =>
      rw [editAt, readName_removeAt isName]
      simp [touchAt, Touch.apply]
  | add new =>
      rw [editAt, readName_upsertAt isName]
      by_cases claims : new.Claims env.lower slot
      · simp [touchAt, Touch.apply, claims]
      · simp [touchAt, Touch.apply, claims]
  | change old new =>
      simp only [editAt, touchAt]
      by_cases changed : env.tlsChanged old new = true
      · rw [if_pos changed, if_pos changed, readName_upsertAt isName,
          readName_removeAt isName]
        by_cases claims : new.Claims env.lower slot
        · simp [Touch.apply, claims]
        · simp [Touch.apply, claims]
      · rw [if_neg changed, if_neg changed]
        rfl

theorem readName_foldl_editAt
    (isName : slot ≠ .fallback)
    (edits : List (Edit Tls Other))
    (resolver : SniResolver Cert) :
    (edits.foldl (editAt env port) resolver).readName slot =
      (edits.map (touchAt env port slot)).foldl Touch.apply
        (resolver.readName slot) := by
  induction edits generalizing resolver with
  | nil =>
      rfl
  | cons edit rest inductionHypothesis =>
      rw [List.foldl_cons, inductionHypothesis, readName_editAt isName]
      rfl

end Name

/-! ## One name through a reload -/

section Reload

variable
  {old new : List (SiteConfig Tls Other)}
  {order : DiffOrder}

/-- A reload puts the certificates of the site into the resolvers. -/
def Refreshed
    (env : Externals Tls Other Cert)
    (old new : List (SiteConfig Tls Other))
    (site : SiteConfig Tls Other) :
    Prop :=
  siteNamed? new site.name = some site ∧
    ∀ seen,
      siteNamed? old site.name = some seen →
        env.siteChanged seen site = true ∧
          env.tlsChanged seen site = true

/-- A reload erases the names of the site. -/
def Dropped
    (env : Externals Tls Other Cert)
    (old new : List (SiteConfig Tls Other))
    (site : SiteConfig Tls Other) :
    Prop :=
  siteNamed? old site.name = some site ∧
    ∀ next,
      siteNamed? new site.name = some next →
        env.siteChanged site next = true ∧
          env.tlsChanged site next = true

/-- What is added or changed in the resolvers. -/
def stores
    (env : Externals Tls Other Cert)
    (old new : List (SiteConfig Tls Other))
    (order : DiffOrder) :
    List (Edit Tls Other) :=
  (addedSites new order).map .add ++
    (env.changedSites old new order).map fun sites =>
      .change sites.1 sites.2

theorem diff_eq :
    env.diff old new order =
      (removedSites old order).map .remove ++ stores env old new order := by
  rw [Externals.diff, stores, List.append_assoc]

theorem siteNamed?_eq_none {name : String} (absent : name ∉ siteNames old) :
    siteNamed? old name = none := by
  cases isSite : siteNamed? old name with
  | none =>
      rfl
  | some site =>
      obtain ⟨member, sameName⟩ := mem_of_siteNamed? isSite
      exact absurd (sameName ▸ mem_siteNames_of_mem member) absent

/-- A site that is removed is dropped. -/
theorem dropped_of_mem_removedSites
    (fits : order.Fits old new)
    (member : site ∈ removedSites old order) :
    Dropped env old new site := by
  obtain ⟨isOld, gone⟩ := (mem_removedSites_iff fits).mp member
  refine ⟨isOld, ?_⟩
  intro next isNext
  rw [siteNamed?_eq_none gone] at isNext
  cases isNext

/-- A site that is added is refreshed. -/
theorem refreshed_of_mem_addedSites
    (fits : order.Fits old new)
    (member : site ∈ addedSites new order) :
    Refreshed env old new site := by
  obtain ⟨isNew, fresh⟩ := (mem_addedSites_iff fits).mp member
  refine ⟨isNew, ?_⟩
  intro seen isSeen
  rw [siteNamed?_eq_none fresh] at isSeen
  cases isSeen

/-- A site whose TLS settings change is dropped and refreshed. -/
theorem dropped_refreshed_of_mem_changedSites
    (fits : order.Fits old new)
    {before : SiteConfig Tls Other}
    (member : (before, site) ∈ env.changedSites old new order)
    (changed : env.tlsChanged before site = true) :
    Dropped env old new before ∧ Refreshed env old new site := by
  obtain ⟨isOld, isNew, siteChanged⟩ :=
    (Externals.mem_changedSites_iff fits).mp member
  obtain ⟨_, sameName⟩ := mem_of_siteNamed? isOld
  constructor
  · refine ⟨by rw [sameName]; exact isOld, ?_⟩
    intro next isNext
    rw [sameName, isNew] at isNext
    obtain rfl := Option.some.inj isNext
    exact ⟨siteChanged, changed⟩
  · refine ⟨isNew, ?_⟩
    intro seen isSeen
    rw [isOld] at isSeen
    obtain rfl := Option.some.inj isSeen
    exact ⟨siteChanged, changed⟩

/-- Where the certificates of a site that is refreshed are written. -/
theorem exists_store_of_refreshed
    (fits : order.Fits old new)
    (refreshed : Refreshed env old new site)
    (claims : site.Claims env.lower slot) :
    ∃ edit ∈ stores env old new order,
      (touchAt env port slot edit).writes = offered? env port site := by
  obtain ⟨isNew, changed⟩ := refreshed
  by_cases inOld : site.name ∈ siteNames old
  · obtain ⟨seen, isSeen⟩ := exists_siteNamed? inOld
    obtain ⟨siteChanged, tlsChanged⟩ := changed seen isSeen
    have member :=
      (Externals.mem_changedSites_iff fits).mpr
        ⟨isSeen, isNew, siteChanged⟩
    refine ⟨.change seen site, ?_, ?_⟩
    · exact List.mem_append_right _
        (List.mem_map.mpr ⟨(seen, site), member, rfl⟩)
    · simp [touchAt, tlsChanged, claims]
  · have member := (mem_addedSites_iff fits).mpr ⟨isNew, inOld⟩
    refine ⟨.add site, ?_, ?_⟩
    · exact List.mem_append_left _ (List.mem_map_of_mem member)
    · simp [touchAt, claims]

/-- Where the names of a site that is dropped are erased. -/
theorem exists_edit_of_dropped
    (fits : order.Fits old new)
    (dropped : Dropped env old new site)
    (claims : site.Claims env.lower slot) :
    ∃ edit ∈ env.diff old new order,
      (touchAt env port slot edit).erases = true := by
  obtain ⟨isOld, changed⟩ := dropped
  rw [diff_eq]
  by_cases inNew : site.name ∈ siteNames new
  · obtain ⟨next, isNext⟩ := exists_siteNamed? inNew
    obtain ⟨siteChanged, tlsChanged⟩ := changed next isNext
    obtain ⟨_, sameName⟩ := mem_of_siteNamed? isNext
    rw [← sameName] at isNext isOld
    have member :=
      (Externals.mem_changedSites_iff fits).mpr
        ⟨isOld, isNext, siteChanged⟩
    refine ⟨.change site next, ?_, ?_⟩
    · exact List.mem_append_right _ (List.mem_append_right _
        (List.mem_map.mpr ⟨(site, next), member, rfl⟩))
    · simp [touchAt, tlsChanged, claims]
  · have member := (mem_removedSites_iff fits).mpr ⟨isOld, inNew⟩
    refine ⟨.remove site, ?_, ?_⟩
    · exact List.mem_append_left _ (List.mem_map_of_mem member)
    · simp [touchAt, claims]

/-- What is written comes from a site that is refreshed. -/
theorem refreshed_of_writes
    (fits : order.Fits old new)
    {edit : Edit Tls Other}
    (member : edit ∈ env.diff old new order)
    {keys : List Cert}
    (writes : (touchAt env port slot edit).writes = some keys) :
    ∃ site,
      Refreshed env old new site ∧
        site.Claims env.lower slot ∧
        offered? env port site = some keys := by
  rw [diff_eq] at member
  rcases List.mem_append.mp member with isRemoved | isStored
  · obtain ⟨removed, _, rfl⟩ := List.mem_map.mp isRemoved
    simp [touchAt] at writes
  · rcases List.mem_append.mp isStored with isAdded | isChanged
    · obtain ⟨added, inAdded, rfl⟩ := List.mem_map.mp isAdded
      have refreshed : Refreshed env old new added :=
        refreshed_of_mem_addedSites fits inAdded
      simp only [touchAt, Option.ite_none_right_eq_some] at writes
      exact ⟨added, refreshed, writes⟩
    · obtain ⟨⟨before, after⟩, inChanged, rfl⟩ := List.mem_map.mp isChanged
      by_cases tlsChanged : env.tlsChanged before after = true
      · have refreshed :=
          (dropped_refreshed_of_mem_changedSites fits inChanged
            tlsChanged).2
        simp only [touchAt, tlsChanged, if_true,
          Option.ite_none_right_eq_some] at writes
        exact ⟨after, refreshed, writes⟩
      · simp [touchAt, tlsChanged] at writes

/-- What is erased belongs to a site that is dropped. -/
theorem dropped_of_erases
    (fits : order.Fits old new)
    {edit : Edit Tls Other}
    (member : edit ∈ env.diff old new order)
    (erases : (touchAt env port slot edit).erases = true) :
    ∃ site, Dropped env old new site ∧ site.Claims env.lower slot := by
  rw [diff_eq] at member
  rcases List.mem_append.mp member with isRemoved | isStored
  · obtain ⟨removed, inRemoved, rfl⟩ := List.mem_map.mp isRemoved
    exact ⟨removed, dropped_of_mem_removedSites fits inRemoved,
      by simpa [touchAt] using erases⟩
  · rcases List.mem_append.mp isStored with isAdded | isChanged
    · obtain ⟨added, _, rfl⟩ := List.mem_map.mp isAdded
      simp [touchAt] at erases
    · obtain ⟨⟨before, after⟩, inChanged, rfl⟩ := List.mem_map.mp isChanged
      by_cases tlsChanged : env.tlsChanged before after = true
      · have dropped :=
          (dropped_refreshed_of_mem_changedSites fits inChanged
            tlsChanged).1
        exact ⟨before, dropped,
          by simpa [touchAt, tlsChanged] using erases⟩
      · simp [touchAt, tlsChanged] at erases

/-- No name goes from a site whose TLS settings change to another one. -/
def KeepsName
    (env : Externals Tls Other Cert)
    (old new : List (SiteConfig Tls Other))
    (port : Nat)
    (slot : Slot) :
    Prop :=
  ∀ site ∈ new, ∀ seen ∈ siteNamed? old site.name,
    env.siteChanged seen site = true →
    env.tlsChanged seen site = true →
    seen.Claims env.lower slot →
      ∀ other ∈ new,
        other.Claims env.lower slot →
        offered? env port other ≠ none →
          other = site

/-- What is stored of a name is the same, whoever stores it. -/
theorem stores_agree
    (fits : order.Fits old new)
    (oneOwner : OneOwner env.lower new slot)
    (keepsName : KeepsName env old new port slot)
    {edit other : Edit Tls Other}
    {keys : List Cert}
    (isEdit : edit ∈ stores env old new order)
    (writes : (touchAt env port slot edit).writes = some keys)
    (isOther : other ∈ stores env old new order) :
    (touchAt env port slot other).Idle ∨
      (touchAt env port slot other).writes = some keys := by
  have inDiff :
      ∀ {edit : Edit Tls Other},
        edit ∈ stores env old new order →
          edit ∈ env.diff old new order := by
    intro edit member
    rw [diff_eq]
    exact List.mem_append_right _ member
  obtain ⟨site, refreshed, claims, offers⟩ :=
    refreshed_of_writes fits (inDiff isEdit) writes
  have isNew := (mem_of_siteNamed? refreshed.1).1
  cases isWritten : (touchAt env port slot other).writes with
  | some value =>
      obtain ⟨writer, writerRefreshed, writerClaims, writerOffers⟩ :=
        refreshed_of_writes fits (inDiff isOther) isWritten
      have isWriter := (mem_of_siteNamed? writerRefreshed.1).1
      obtain rfl :=
        oneOwner writer isWriter site isNew writerClaims claims
      exact .inr (writerOffers.symm.trans offers)
  | none =>
      left
      refine ⟨?_, isWritten⟩
      by_contra erases
      rcases List.mem_append.mp isOther with isAdded | isChanged
      · obtain ⟨added, _, rfl⟩ := List.mem_map.mp isAdded
        exact erases rfl
      · obtain ⟨⟨before, after⟩, inChanged, rfl⟩ :=
          List.mem_map.mp isChanged
        by_cases tlsChanged : env.tlsChanged before after = true
        · -- It erases a name of the site, so it is the site itself.
          obtain ⟨isOld, isAfter, siteChanged⟩ :=
            (Externals.mem_changedSites_iff fits).mp inChanged
          have beforeClaims : before.Claims env.lower slot := by
            simpa [touchAt, tlsChanged] using erases
          obtain rfl :=
            keepsName after (mem_of_siteNamed? isAfter).1 before isOld
              siteChanged tlsChanged beforeClaims site isNew claims
              (by simp [offers])
          simp [touchAt, tlsChanged, claims, offers] at isWritten
        · exact erases (by simp [touchAt, tlsChanged])

/-- A name of a site that is refreshed has its certificates. -/
theorem readName_of_refreshed
    (fits : order.Fits old new)
    (isName : slot ≠ .fallback)
    (oneOwner : OneOwner env.lower new slot)
    (keepsName : KeepsName env old new port slot)
    (refreshed : Refreshed env old new site)
    (claims : site.Claims env.lower slot)
    {keys : List Cert}
    (offers : offered? env port site = some keys) :
    ((env.diff old new order).foldl (editAt env port)
      resolver).readName slot = some keys := by
  obtain ⟨edit, member, stored⟩ :=
    @exists_store_of_refreshed _ _ _ _ port _ _ _ _ _ fits refreshed claims
  have writes := stored.trans offers
  rw [readName_foldl_editAt isName, diff_eq, List.map_append,
    List.foldl_append]
  apply Touch.foldl_of_written
  · exact ⟨_, List.mem_map_of_mem member, writes⟩
  · intro touch isTouch
    obtain ⟨other, isOther, rfl⟩ := List.mem_map.mp isTouch
    exact stores_agree fits oneOwner keepsName member writes isOther

/-- A name that is not written any more and was dropped has no entry. -/
theorem readName_of_dropped
    (fits : order.Fits old new)
    (isName : slot ≠ .fallback)
    (unwritten :
      ∀ site,
        Refreshed env old new site →
        site.Claims env.lower slot →
          offered? env port site = none)
    (dropped : Dropped env old new site)
    (claims : site.Claims env.lower slot) :
    ((env.diff old new order).foldl (editAt env port)
      resolver).readName slot = none := by
  rw [readName_foldl_editAt isName]
  apply Touch.foldl_of_erased
  · intro touch isTouch
    obtain ⟨edit, member, rfl⟩ := List.mem_map.mp isTouch
    by_contra writes
    obtain ⟨keys, isKeys⟩ := Option.ne_none_iff_exists'.mp writes
    obtain ⟨writer, refreshed, writerClaims, offers⟩ :=
      refreshed_of_writes fits member isKeys
    rw [unwritten writer refreshed writerClaims] at offers
    cases offers
  · obtain ⟨edit, member, erases⟩ :=
      @exists_edit_of_dropped _ _ _ _ port _ _ _ _ _ fits dropped claims
    exact .inr ⟨_, List.mem_map_of_mem member, erases⟩

/-- A name that is neither written nor dropped keeps its entry. -/
theorem readName_of_untouched
    (fits : order.Fits old new)
    (isName : slot ≠ .fallback)
    (unwritten :
      ∀ site,
        Refreshed env old new site →
        site.Claims env.lower slot →
          offered? env port site = none)
    (undropped :
      ∀ site,
        Dropped env old new site → ¬ site.Claims env.lower slot) :
    ((env.diff old new order).foldl (editAt env port)
      resolver).readName slot = resolver.readName slot := by
  rw [readName_foldl_editAt isName]
  apply Touch.foldl_of_idle
  intro touch isTouch
  obtain ⟨edit, member, rfl⟩ := List.mem_map.mp isTouch
  constructor
  · by_contra erases
    obtain ⟨dropped, isDropped, claims⟩ :=
      dropped_of_erases fits member (by simpa using erases)
    exact undropped dropped isDropped claims
  · by_contra writes
    obtain ⟨keys, isKeys⟩ := Option.ne_none_iff_exists'.mp writes
    obtain ⟨writer, refreshed, writerClaims, offers⟩ :=
      refreshed_of_writes fits member isKeys
    rw [unwritten writer refreshed writerClaims] at offers
    cases offers

/-- The order of the loops does not matter for what they go through. -/
theorem mem_removedSites_congr
    {other : DiffOrder}
    (fits : order.Fits old new)
    (otherFits : other.Fits old new) :
    site ∈ removedSites old order ↔ site ∈ removedSites old other := by
  rw [mem_removedSites_iff fits, mem_removedSites_iff otherFits]

theorem mem_addedSites_congr
    {other : DiffOrder}
    (fits : order.Fits old new)
    (otherFits : other.Fits old new) :
    site ∈ addedSites new order ↔ site ∈ addedSites new other := by
  rw [mem_addedSites_iff fits, mem_addedSites_iff otherFits]

theorem mem_changedSites_congr
    {other : DiffOrder}
    (fits : order.Fits old new)
    (otherFits : other.Fits old new)
    {sites : SiteConfig Tls Other × SiteConfig Tls Other} :
    sites ∈ env.changedSites old new order ↔
      sites ∈ env.changedSites old new other := by
  rw [Externals.mem_changedSites_iff fits,
    Externals.mem_changedSites_iff otherFits]

end Reload

/-! ## The order of the loops -/

section Order

variable
  {old new : List (SiteConfig Tls Other)}
  {order other : DiffOrder}

/-- What the order of a `HashMap` of its own is: a function of its entries. -/
structure HashOrder
    (first : Table String (List Cert) → Option (List Cert)) :
    Prop where
  congr :
    ∀ table same,
      (∀ key, Table.get? key table = Table.get? key same) →
        first table = first same
  value :
    ∀ table keys,
      first table = some keys →
        ∃ key, Table.get? key table = some keys
  empty :
    ∀ table,
      first table = none →
        ∀ key, Table.get? key table = none

/-- Two resolvers have the same entries and the same fallback. -/
def SameContents (first second : SniResolver Cert) : Prop :=
  (∀ slot, first.readName slot = second.readName slot) ∧
    first.fallback = second.fallback

/--
No entry is without certificates, and if there is an entry then there are
certificates for all other names.
-/
structure Filled (resolver : SniResolver Cert) : Prop where
  entries :
    ∀ slot keys, resolver.readName slot = some keys → keys ≠ []
  fallback :
    ∀ slot keys,
      resolver.readName slot = some keys → resolver.fallback ≠ []

theorem HashOrder.firstKeys_congr
    {first : Table String (List Cert) → Option (List Cert)}
    (hashOrder : HashOrder first)
    {left right : SniResolver Cert}
    (same : ∀ slot, left.readName slot = right.readName slot) :
    left.firstKeys first = right.firstKeys first := by
  rw [SniResolver.firstKeys, SniResolver.firstKeys,
    hashOrder.congr left.exact right.exact fun key => same (.exact key),
    hashOrder.congr left.wildcard right.wildcard
      fun key => same (.wildcard key)]

/-- The first certificates of a resolver with entries. -/
theorem HashOrder.firstKeys_ne_nil
    {first : Table String (List Cert) → Option (List Cert)}
    (hashOrder : HashOrder first)
    (entries :
      ∀ slot keys, resolver.readName slot = some keys → keys ≠ [])
    {keys : List Cert}
    (isRead : resolver.readName slot = some keys) :
    resolver.firstKeys first ≠ [] := by
  rcases SniResolver.firstKeys_cases hashOrder.value hashOrder.empty
      resolver with
    ⟨place, isFirst⟩ | ⟨-, noEntry⟩
  · exact entries place _ isFirst
  · cases (noEntry slot).symm.trans isRead

theorem offered?_ne_nil
    {keys : List Cert}
    (offers : offered? env port site = some keys) :
    keys ≠ [] := by
  rw [offered?] at offers
  split at offers
  · exact certificates?_ne_nil offers
  · cases offers

theorem Filled.removeAt
    (hashOrder : HashOrder env.first)
    (filled : Filled resolver) :
    Filled (removeAt env site resolver) := by
  have entries :
      ∀ slot keys,
        (ResolverReload.removeAt env site resolver).readName slot =
            some keys →
          keys ≠ [] := by
    intro slot keys isRead
    by_cases isName : slot = .fallback
    · subst isName
      cases isRead
    · rw [readName_removeAt isName] at isRead
      split at isRead
      · cases isRead
      · exact filled.entries slot keys isRead
  exact ⟨entries, fun slot keys isRead =>
    hashOrder.firstKeys_ne_nil entries isRead⟩

theorem Filled.upsertAt (filled : Filled resolver) :
    Filled (upsertAt env port site resolver) := by
  have cases_of_read :
      ∀ slot keys,
        (ResolverReload.upsertAt env port site resolver).readName
            slot = some keys →
          offered? env port site = some keys ∨
            resolver.readName slot = some keys := by
    intro slot keys isRead
    by_cases isName : slot = .fallback
    · subst isName
      cases isRead
    · rw [readName_upsertAt isName] at isRead
      split at isRead
      · cases offers : offered? env port site with
        | none =>
            rw [offers, Option.none_or] at isRead
            exact .inr isRead
        | some others =>
            rw [offers, Option.some_or] at isRead
            exact .inl isRead
      · exact .inr isRead
  constructor
  · intro slot keys isRead
    rcases cases_of_read slot keys isRead with offers | wasRead
    · exact offered?_ne_nil offers
    · exact filled.entries slot keys wasRead
  · intro slot keys isRead
    rw [fallback_upsertAt]
    split
    · next isEmpty =>
        rcases cases_of_read slot keys isRead with offers | wasRead
        · rw [offers]
          exact offered?_ne_nil offers
        · exact absurd isEmpty (filled.fallback slot keys wasRead)
    · next notEmpty =>
        exact notEmpty

/-- Every edit keeps a resolver filled. -/
theorem Filled.foldl_editAt
    (hashOrder : HashOrder env.first)
    (edits : List (Edit Tls Other))
    (filled : Filled resolver) :
    Filled (edits.foldl (editAt env port) resolver) := by
  induction edits generalizing resolver with
  | nil =>
      exact filled
  | cons edit rest inductionHypothesis =>
      apply inductionHypothesis
      cases edit with
      | remove old =>
          exact filled.removeAt hashOrder
      | add new =>
          exact filled.upsertAt
      | change old new =>
          simp only [editAt]
          split
          · exact (filled.removeAt hashOrder).upsertAt
          · exact filled

/-- After removals the fallback is the first value of what is left. -/
theorem fallback_foldl_remove
    (removed : List (SiteConfig Tls Other))
    (resolver : SniResolver Cert) :
    ((removed.map Edit.remove).foldl (editAt env port)
        resolver).fallback =
      if removed = [] then
        resolver.fallback
      else
        ((removed.map Edit.remove).foldl (editAt env port)
          resolver).firstKeys env.first := by
  induction removed using List.reverseRecOn with
  | nil =>
      rfl
  | append_singleton rest last _ =>
      rw [if_neg (by simp), List.map_append, List.foldl_append]
      rfl

/-- Additions fill an empty fallback with the first certificates. -/
theorem fallback_foldl_add
    (added : List (SiteConfig Tls Other))
    (resolver : SniResolver Cert) :
    ((added.map Edit.add).foldl (editAt env port) resolver).fallback =
      if resolver.fallback = [] then
        (added.findSome? (offered? env port)).getD []
      else
        resolver.fallback := by
  induction added generalizing resolver with
  | nil =>
      by_cases isEmpty : resolver.fallback = []
      · simp [isEmpty]
      · simp [isEmpty]
  | cons site rest inductionHypothesis =>
      rw [List.map_cons, List.foldl_cons, inductionHypothesis, editAt,
        fallback_upsertAt]
      by_cases isEmpty : resolver.fallback = []
      · cases offers : offered? env port site with
        | none =>
            simp [isEmpty, offers]
        | some keys =>
            simp [isEmpty, offers, offered?_ne_nil offers]
      · simp [isEmpty]

/-- Removals and some of what is stored do the same to names in any order. -/
theorem readName_foldl_congr
    (fits : order.Fits old new)
    (otherFits : other.Fits old new)
    (oneOwner :
      ∀ slot, slot ≠ .fallback → OneOwner env.lower new slot)
    (keepsName :
      ∀ slot, slot ≠ .fallback → KeepsName env old new port slot)
    {stored otherStored : List (Edit Tls Other)}
    (within : ∀ edit ∈ stored, edit ∈ stores env old new order)
    (same : ∀ edit, edit ∈ stored ↔ edit ∈ otherStored)
    (slot : Slot) :
    (((removedSites old order).map Edit.remove ++ stored).foldl
        (editAt env port) resolver).readName slot =
      (((removedSites old other).map Edit.remove ++ otherStored).foldl
        (editAt env port) resolver).readName slot := by
  by_cases isName : slot = .fallback
  · subst isName
    rfl
  · rw [readName_foldl_editAt isName, readName_foldl_editAt isName,
      List.map_append, List.map_append, List.foldl_append,
      List.foldl_append]
    apply Touch.foldl_congr
    · intro touch
      simp only [List.mem_map, exists_exists_and_eq_and,
        mem_removedSites_congr fits otherFits]
    · intro touch
      simp only [List.mem_map, same]
    · intro touch isTouch
      obtain ⟨edit, isEdit, rfl⟩ := List.mem_map.mp isTouch
      obtain ⟨removed, _, rfl⟩ := List.mem_map.mp isEdit
      rfl
    · intro touch isTouch keys writes next isNext
      obtain ⟨edit, isEdit, rfl⟩ := List.mem_map.mp isTouch
      obtain ⟨nextEdit, isNextEdit, rfl⟩ := List.mem_map.mp isNext
      exact stores_agree fits (oneOwner slot isName)
        (keepsName slot isName) (within edit isEdit) writes
        (within nextEdit isNextEdit)

/-- The sites whose TLS settings a reload changes. -/
def tlsChanges
    (env : Externals Tls Other Cert)
    (old new : List (SiteConfig Tls Other))
    (order : DiffOrder) :
    List (SiteConfig Tls Other × SiteConfig Tls Other) :=
  (env.changedSites old new order).filter fun sites =>
    env.tlsChanged sites.1 sites.2

/-- A site whose TLS settings are the same is not touched. -/
theorem foldl_change
    (changed : List (SiteConfig Tls Other × SiteConfig Tls Other))
    (resolver : SniResolver Cert) :
    (changed.map fun sites => Edit.change sites.1 sites.2).foldl
        (editAt env port) resolver =
      ((changed.filter fun sites =>
          env.tlsChanged sites.1 sites.2).map
        fun sites => Edit.change sites.1 sites.2).foldl
          (editAt env port) resolver := by
  induction changed generalizing resolver with
  | nil =>
      rfl
  | cons sites rest inductionHypothesis =>
      rw [List.map_cons, List.foldl_cons, inductionHypothesis]
      by_cases isChanged : env.tlsChanged sites.1 sites.2 = true
      · simp [isChanged]
      · simp [isChanged, editAt]

/-- A reload removes and adds sites, and then changes TLS settings. -/
theorem foldl_diff :
    (env.diff old new order).foldl (editAt env port) resolver =
      ((tlsChanges env old new order).map fun sites =>
        Edit.change sites.1 sites.2).foldl (editAt env port)
          (((removedSites old order).map Edit.remove ++
              (addedSites new order).map Edit.add).foldl
            (editAt env port) resolver) := by
  rw [Externals.diff, List.foldl_append, foldl_change]
  rfl

/-- A reload goes through each common name once. -/
theorem nodup_changedNames (fits : order.Fits old new) :
    ((env.changedSites old new order).map fun sites =>
      sites.2.name).Nodup := by
  have names : order.common.Nodup :=
    fits.2.2.nodup_iff.mpr ((List.nodup_dedup _).filter _)
  rw [Externals.changedSites]
  generalize order.common = common at names ⊢
  induction common with
  | nil =>
      simp
  | cons name rest inductionHypothesis =>
      obtain ⟨notInRest, restNames⟩ := List.nodup_cons.mp names
      have restNodup := inductionHypothesis restNames
      rw [List.filterMap_cons]
      split
      · exact restNodup
      · next sites isSites =>
          have nameOf :
              ∀ {name : String}
                {sites : SiteConfig Tls Other × SiteConfig Tls Other},
                ((siteNamed? old name).bind fun oldSite =>
                  ((siteNamed? new name).map fun newSite =>
                    (oldSite, newSite)).filter
                      fun sites => env.siteChanged sites.1 sites.2) =
                    some sites →
                  sites.2.name = name := by
            intro name sites isSites
            obtain ⟨oldSite, _, isFiltered⟩ :=
              Option.bind_eq_some_iff.mp isSites
            obtain ⟨newSite, isNew, rfl⟩ :=
              Option.map_eq_some_iff.mp
                (Option.filter_eq_some_iff.mp isFiltered).1
            exact (mem_of_siteNamed? isNew).2
          rw [List.map_cons, List.nodup_cons]
          refine ⟨?_, restNodup⟩
          intro again
          obtain ⟨later, inRest, sameName⟩ := List.mem_map.mp again
          obtain ⟨laterName, isLater, isSitesLater⟩ :=
            List.mem_filterMap.mp inRest
          rw [nameOf isSites, nameOf isSitesLater] at sameName
          exact notInRest (sameName ▸ isLater)

/--
If the sites whose TLS settings change are the same, there is one at most.
-/
theorem tlsChanges_cases
    (fits : order.Fits old new)
    (oneChange :
      ∀ first ∈ tlsChanges env old new order,
        ∀ second ∈ tlsChanges env old new order, first = second) :
    tlsChanges env old new order = [] ∨
      ∃ sites, tlsChanges env old new order = [sites] := by
  have names : (tlsChanges env old new order).Nodup :=
    (nodup_changedNames fits).of_map.filter _
  cases isChanges : tlsChanges env old new order with
  | nil =>
      exact .inl rfl
  | cons sites rest =>
      rw [isChanges] at oneChange names
      cases rest with
      | nil =>
          exact .inr ⟨sites, rfl⟩
      | cons next later =>
          have same :=
            oneChange sites List.mem_cons_self next
              (List.mem_cons_of_mem sites List.mem_cons_self)
          rw [same] at names
          simp at names

/--
Some entry stays when the sites that are gone are removed, or at most one of the
sites that are added offers certificates at the port.
-/
def OneFirst
    (env : Externals Tls Other Cert)
    (old new : List (SiteConfig Tls Other))
    (port : Nat)
    (resolver : SniResolver Cert) :
    Prop :=
  (∃ slot keys,
    resolver.readName slot = some keys ∧
      ∀ site ∈ old,
        site.name ∉ siteNames new → ¬ site.Claims env.lower slot) ∨
  ∀ first ∈ new, ∀ second ∈ new,
    first.name ∉ siteNames old →
    second.name ∉ siteNames old →
    offered? env port first ≠ none →
    offered? env port second ≠ none →
      first = second

/-- An entry that stays keeps the fallback when sites are removed. -/
theorem fallback_foldl_remove_ne_nil
    (hashOrder : HashOrder env.first)
    (filled : Filled resolver)
    {removed : List (SiteConfig Tls Other)}
    {keys : List Cert}
    (isRead : resolver.readName slot = some keys)
    (stays : ∀ site ∈ removed, ¬ site.Claims env.lower slot) :
    ((removed.map Edit.remove).foldl (editAt env port)
      resolver).fallback ≠ [] := by
  have isName : slot ≠ .fallback := by
    rintro rfl
    cases isRead
  have stillRead :
      ((removed.map Edit.remove).foldl (editAt env port)
        resolver).readName slot = some keys := by
    rw [readName_foldl_editAt isName, Touch.foldl_of_idle]
    · exact isRead
    · intro touch isTouch
      obtain ⟨edit, isEdit, rfl⟩ := List.mem_map.mp isTouch
      obtain ⟨site, isRemoved, rfl⟩ := List.mem_map.mp isEdit
      exact ⟨by simpa [touchAt] using stays site isRemoved, rfl⟩
  exact (filled.foldl_editAt hashOrder _).fallback slot keys stillRead

/-- If at most one site offers certificates, the first of them is that one. -/
theorem findSome?_offered?_congr
    {added otherAdded : List (SiteConfig Tls Other)}
    (same : ∀ site, site ∈ added ↔ site ∈ otherAdded)
    (one :
      ∀ first ∈ added, ∀ second ∈ added,
        offered? env port first ≠ none →
        offered? env port second ≠ none →
          first = second) :
    added.findSome? (offered? env port) =
      otherAdded.findSome? (offered? env port) := by
  cases isFirst : added.findSome? (offered? env port) with
  | none =>
      symm
      rw [List.findSome?_eq_none_iff] at isFirst ⊢
      intro site isOther
      exact isFirst site ((same site).mpr isOther)
  | some keys =>
      obtain ⟨site, isSite, offers⟩ :=
        List.exists_of_findSome?_eq_some isFirst
      cases isSecond : otherAdded.findSome? (offered? env port) with
      | none =>
          have none :=
            List.findSome?_eq_none_iff.mp isSecond site
              ((same site).mp isSite)
          rw [offers] at none
          cases none
      | some others =>
          obtain ⟨second, isOther, secondOffers⟩ :=
            List.exists_of_findSome?_eq_some isSecond
          obtain rfl :=
            one site isSite second ((same second).mpr isOther)
              (by simp [offers]) (by simp [secondOffers])
          rw [← offers, ← secondOffers]

theorem fallback_removeAt :
    (removeAt env site resolver).fallback =
      (removeAt env site resolver).firstKeys env.first :=
  rfl

/-- The fallback after removals and additions, if nothing else follows. -/
theorem fallback_early_congr
    (hashOrder : HashOrder env.first)
    (fits : order.Fits old new)
    (otherFits : other.Fits old new)
    (oneOwner :
      ∀ slot, slot ≠ .fallback → OneOwner env.lower new slot)
    (keepsName :
      ∀ slot, slot ≠ .fallback → KeepsName env old new port slot)
    (oneFirst : OneFirst env old new port resolver)
    (filled : Filled resolver) :
    (((removedSites old order).map Edit.remove ++
        (addedSites new order).map Edit.add).foldl
      (editAt env port) resolver).fallback =
    (((removedSites old other).map Edit.remove ++
        (addedSites new other).map Edit.add).foldl
      (editAt env port) resolver).fallback := by
  have sameEmpty :
      removedSites old order = [] ↔ removedSites old other = [] := by
    simp only [List.eq_nil_iff_forall_not_mem,
      mem_removedSites_congr fits otherFits]
  have sameRemoved :
      (((removedSites old order).map Edit.remove).foldl
          (editAt env port) resolver).fallback =
        (((removedSites old other).map Edit.remove).foldl
          (editAt env port) resolver).fallback := by
    rw [fallback_foldl_remove, fallback_foldl_remove]
    refine if_congr sameEmpty rfl (hashOrder.firstKeys_congr ?_)
    intro slot
    have same :=
      @readName_foldl_congr _ _ _ _ resolver port _ _ _ _ fits otherFits
        oneOwner keepsName [] [] (by simp) (by simp) slot
    rw [List.append_nil, List.append_nil] at same
    exact same
  rw [List.foldl_append, List.foldl_append, fallback_foldl_add,
    fallback_foldl_add, ← sameRemoved]
  rcases oneFirst with ⟨slot, keys, isRead, stays⟩ | one
  · have notEmpty :=
      @fallback_foldl_remove_ne_nil _ _ _ env _ port _ hashOrder filled
        (removedSites old order) keys isRead fun site isRemoved =>
          have removed := (mem_removedSites_iff fits).mp isRemoved
          stays site (mem_of_siteNamed? removed.1).1 removed.2
    rw [if_neg notEmpty, if_neg notEmpty]
  · refine if_congr Iff.rfl ?_ rfl
    rw [findSome?_offered?_congr
      (fun site => mem_addedSites_congr fits otherFits)]
    intro first isFirst second isSecond firstOffers secondOffers
    obtain ⟨isNewFirst, freshFirst⟩ := (mem_addedSites_iff fits).mp isFirst
    obtain ⟨isNewSecond, freshSecond⟩ :=
      (mem_addedSites_iff fits).mp isSecond
    exact one first (mem_of_siteNamed? isNewFirst).1 second
      (mem_of_siteNamed? isNewSecond).1 freshFirst freshSecond firstOffers
      secondOffers

/-- What a resolver holds after a reload does not depend on the loops. -/
theorem sameContents_of_fits
    (hashOrder : HashOrder env.first)
    (fits : order.Fits old new)
    (otherFits : other.Fits old new)
    (oneOwner :
      ∀ slot, slot ≠ .fallback → OneOwner env.lower new slot)
    (keepsName :
      ∀ slot, slot ≠ .fallback → KeepsName env old new port slot)
    (oneChange :
      ∀ first ∈ tlsChanges env old new order,
        ∀ second ∈ tlsChanges env old new order, first = second)
    (oneFirst :
      tlsChanges env old new order = [] →
        OneFirst env old new port resolver)
    (filled : Filled resolver) :
    SameContents
      ((env.diff old new order).foldl (editAt env port) resolver)
      ((env.diff old new other).foldl (editAt env port) resolver) := by
  have sameChanges :
      ∀ sites,
        sites ∈ tlsChanges env old new order ↔
          sites ∈ tlsChanges env old new other := by
    intro sites
    rw [tlsChanges, tlsChanges, List.mem_filter, List.mem_filter,
      mem_changedSites_congr fits otherFits]
  have otherOneChange :
      ∀ first ∈ tlsChanges env old new other,
        ∀ second ∈ tlsChanges env old new other, first = second := by
    intro first isFirst second isSecond
    exact oneChange first ((sameChanges first).mpr isFirst) second
      ((sameChanges second).mpr isSecond)
  have sameEarly :
      ∀ slot,
        (((removedSites old order).map Edit.remove ++
            (addedSites new order).map Edit.add).foldl
          (editAt env port) resolver).readName slot =
        (((removedSites old other).map Edit.remove ++
            (addedSites new other).map Edit.add).foldl
          (editAt env port) resolver).readName slot := by
    apply readName_foldl_congr fits otherFits oneOwner keepsName
    · intro edit isEdit
      exact List.mem_append_left _ isEdit
    · intro edit
      simp only [List.mem_map, mem_addedSites_congr fits otherFits]
  constructor
  · intro slot
    rw [diff_eq, diff_eq]
    apply readName_foldl_congr fits otherFits oneOwner keepsName
      (fun _ isEdit => isEdit)
    intro edit
    simp only [stores, List.mem_append, List.mem_map,
      mem_addedSites_congr fits otherFits,
      mem_changedSites_congr fits otherFits]
  · rw [foldl_diff, foldl_diff]
    rcases tlsChanges_cases fits oneChange with isNone | ⟨sites, isOne⟩
    · have otherNone : tlsChanges env old new other = [] := by
        rw [List.eq_nil_iff_forall_not_mem]
        intro sites isChange
        have isChangeHere := (sameChanges sites).mpr isChange
        rw [isNone] at isChangeHere
        cases isChangeHere
      rw [isNone, otherNone]
      exact fallback_early_congr hashOrder fits otherFits oneOwner keepsName
        (oneFirst isNone) filled
    · have otherOne : tlsChanges env old new other = [sites] := by
        have isChange : sites ∈ tlsChanges env old new other := by
          rw [← sameChanges, isOne]
          exact List.mem_singleton_self sites
        rcases tlsChanges_cases otherFits otherOneChange with
          isNone | ⟨others, isOther⟩
        · rw [isNone] at isChange
          cases isChange
        · rw [isOther] at isChange ⊢
          rw [List.mem_singleton.mp isChange]
      have changed : env.tlsChanged sites.1 sites.2 = true := by
        have member : sites ∈ tlsChanges env old new order := by
          rw [isOne]
          exact List.mem_singleton_self sites
        exact (List.mem_filter.mp member).2
      have sameErased :
          ∀ slot,
            (removeAt env sites.1
              (((removedSites old order).map Edit.remove ++
                  (addedSites new order).map Edit.add).foldl
                (editAt env port) resolver)).readName slot =
            (removeAt env sites.1
              (((removedSites old other).map Edit.remove ++
                  (addedSites new other).map Edit.add).foldl
                (editAt env port) resolver)).readName slot := by
        intro slot
        by_cases isName : slot = .fallback
        · subst isName
          rfl
        · rw [readName_removeAt isName, readName_removeAt isName,
            sameEarly slot]
      rw [isOne, otherOne]
      simp only [List.map_cons, List.map_nil, List.foldl_cons,
        List.foldl_nil, editAt, changed, if_true, fallback_upsertAt]
      have sameFallback :=
        hashOrder.firstKeys_congr sameErased
      rw [← fallback_removeAt, ← fallback_removeAt] at sameFallback
      rw [sameFallback]

end Order

end Sweety.ResolverReload
