import Mathlib.Data.List.Dedup
import Sweety.SniResolver

namespace Sweety

open KeyedTable

/-!
# Startup, hot reload and updates by the administrator

Model of `config/hot_reload.rs`, of the startup in `server/http.rs`, and of
`apply_config` and `route_site_delete` in `admin_api/handlers`.

Four things are kept for the sites: the registry of virtual hosts, a resolver of
certificates for each bound TLS port, the configuration that is in force
(`cfg_swap`) and the configuration that the reload loop has seen last
(`current_config`).

A step is taken as a whole.  A reload changes only what differs from the
configuration that the loop has seen last; the order of its three loops is the
order of a `HashSet`, so the label of the step gives it.
-/

/-- What is used of other libraries and of the file system. -/
structure Externals (Tls Other Cert : Type) where
  /-- `str::to_lowercase`. -/
  lower : String → String
  /-- `toml::to_string(site).ok()`. -/
  siteToml : SiteConfig Tls Other → Option String
  /-- `toml::to_string(&site.tls).ok()`. -/
  tlsToml : Option Tls → Option String
  /-- `build_certified_keys`. -/
  certifiedKeys : Tls → List String → List Cert
  /-- Whether `AccessLogger::file_sync` opens a log. -/
  opensLog : String → Bool
  /-- The first value of a `HashMap`. -/
  first : Table String (List Cert) → Option (List Cert)

/-- What is kept for the sites. -/
structure Live (Tls Other Cert : Type) where
  registry : VHostInner Tls Other
  sniResolvers : Table Nat (SniResolver Cert)
  cfg : List (SiteConfig Tls Other)
  currentConfig : List (SiteConfig Tls Other)

variable {Tls Other Cert : Type}

/-! ## Names of a configuration -/

/-- The names of the sites. -/
def siteNames (sites : List (SiteConfig Tls Other)) : List String :=
  sites.map SiteConfig.name

/-- The site of a name in `old_map` and `new_map`: the last one. -/
def siteNamed?
    (sites : List (SiteConfig Tls Other))
    (name : String) :
    Option (SiteConfig Tls Other) :=
  sites.reverse.find? fun site => site.name == name

namespace Externals

variable (env : Externals Tls Other Cert)

/-- `site_changed`. -/
def siteChanged (old new : SiteConfig Tls Other) : Bool :=
  env.siteToml old != env.siteToml new

/-- `tls_changed`. -/
def tlsChanged (old new : SiteConfig Tls Other) : Bool :=
  env.tlsToml old.tls != env.tlsToml new.tls

/-- The certificates of a site, if it has any. -/
def certificates? (site : SiteConfig Tls Other) : Option (List Cert) :=
  (site.tls.map fun tls =>
      env.certifiedKeys tls site.serverName).filter
    fun keys => !keys.isEmpty

/-- `upsert_site_to_resolvers`. -/
def upsertSiteToResolvers
    (site : SiteConfig Tls Other)
    (resolvers : Table Nat (SniResolver Cert)) :
    Table Nat (SniResolver Cert) :=
  match env.certificates? site with
  | none =>
      resolvers
  | some keys =>
      site.listenTls.foldl
        (fun resolvers port =>
          match resolvers.get? port with
          | none =>
              resolvers
          | some resolver =>
              resolvers.insert port
                (resolver.upsertSite env.lower site.serverName keys))
        resolvers

/-- `remove_site_from_resolvers`. -/
def removeSiteFromResolvers
    (site : SiteConfig Tls Other)
    (resolvers : Table Nat (SniResolver Cert)) :
    Table Nat (SniResolver Cert) :=
  resolvers.mapValues fun resolver =>
    resolver.removeSite env.lower env.first site.serverName

end Externals

/-! ## Startup -/

namespace Externals

variable (env : Externals Tls Other Cert)

/-- The resources that are made for a site at the start. -/
def startupResources (site : SiteConfig Tls Other) : SiteResources where
  accessLogger :=
    (site.accessLog.filter env.opensLog).map fun path =>
      ⟨path, site.accessLogFormat⟩
  proxyCacheArc := site.proxyCache
  fcgiCacheArc := site.fastcgiCache

/-- The registry at the start. -/
def startupRegistry (sites : List (SiteConfig Tls Other)) :
    VHostInner Tls Other :=
  sites.foldl
    (fun registry site =>
      registry.injectSiteResources site.name (env.startupResources site))
    (VHostInner.fromConfig env.lower sites)

/-- The sites of a port in `collect_tls_ports_grouped`. -/
def sitesOfPort (sites : List (SiteConfig Tls Other)) (port : Nat) :
    List (SiteConfig Tls Other) :=
  (sites.filter fun site => site.tls.isSome).flatMap fun site =>
    (site.listenTls.filter fun other => other == port).map fun _ => site

/-- `build_sni_server_config`; a port without certificates is not bound. -/
def buildSniServerConfig (sites : List (SiteConfig Tls Other)) :
    Option (SniResolver Cert) :=
  let certsMap := sites.filterMap fun site =>
    (env.certificates? site).map fun keys => (site.serverName, keys)
  if certsMap.isEmpty then
    none
  else
    some (SniResolver.new env.lower certsMap)

/-- The resolvers at the start. -/
def startupResolvers (sites : List (SiteConfig Tls Other)) :
    Table Nat (SniResolver Cert) :=
  (sites.flatMap SiteConfig.listenTls).foldl
    (fun resolvers port =>
      match env.buildSniServerConfig (sitesOfPort sites port) with
      | none =>
          resolvers
      | some resolver =>
          resolvers.insert port resolver)
    ∅

/-- Everything at the start. -/
def startup (sites : List (SiteConfig Tls Other)) :
    Live Tls Other Cert where
  registry := env.startupRegistry sites
  sniResolvers := env.startupResolvers sites
  cfg := sites
  currentConfig := sites

end Externals

/-! ## Hot reload -/

/-- What a reload does with a site. -/
inductive Edit (Tls Other : Type) where
  | remove (old : SiteConfig Tls Other)
  | add (new : SiteConfig Tls Other)
  | change (old new : SiteConfig Tls Other)
  deriving Repr, DecidableEq

/-- The orders of the three loops of `apply_diff`. -/
structure DiffOrder where
  removed : List String
  added : List String
  common : List String
  deriving Repr, DecidableEq

namespace DiffOrder

/-- The loops go through the sets that `apply_diff` computes. -/
def Fits
    (old new : List (SiteConfig Tls Other))
    (order : DiffOrder) :
    Prop :=
  order.removed.Perm
      ((siteNames old).dedup.filter fun name =>
        name ∉ siteNames new) ∧
    order.added.Perm
      ((siteNames new).dedup.filter fun name =>
        name ∉ siteNames old) ∧
    order.common.Perm
      ((siteNames old).dedup.filter fun name =>
        name ∈ siteNames new)

instance
    (old new : List (SiteConfig Tls Other))
    (order : DiffOrder) :
    Decidable (order.Fits old new) :=
  inferInstanceAs (Decidable (_ ∧ _ ∧ _))

end DiffOrder

/-- The sites that `apply_diff` removes, in the order of its loop. -/
def removedSites
    (old : List (SiteConfig Tls Other))
    (order : DiffOrder) :
    List (SiteConfig Tls Other) :=
  order.removed.filterMap (siteNamed? old)

/-- The sites that `apply_diff` adds, in the order of its loop. -/
def addedSites
    (new : List (SiteConfig Tls Other))
    (order : DiffOrder) :
    List (SiteConfig Tls Other) :=
  order.added.filterMap (siteNamed? new)

namespace Externals

variable (env : Externals Tls Other Cert)

/-- The body of the three loops of `apply_diff`. -/
def applyEdit
    (live : Live Tls Other Cert)
    (edit : Edit Tls Other) :
    Live Tls Other Cert :=
  match edit with
  | .remove old =>
      { live with
        registry := live.registry.removeSite old.name
        sniResolvers :=
          env.removeSiteFromResolvers old live.sniResolvers }
  | .add new =>
      { live with
        registry := live.registry.upsertSite env.lower new
        sniResolvers := env.upsertSiteToResolvers new live.sniResolvers }
  | .change old new =>
      { live with
        registry := live.registry.upsertSite env.lower new
        sniResolvers :=
          if env.tlsChanged old new then
            env.upsertSiteToResolvers new
              (env.removeSiteFromResolvers old live.sniResolvers)
          else
            live.sniResolvers }

/-- The sites that `apply_diff` changes, in the order of its loop. -/
def changedSites
    (old new : List (SiteConfig Tls Other))
    (order : DiffOrder) :
    List (SiteConfig Tls Other × SiteConfig Tls Other) :=
  order.common.filterMap fun name =>
    (siteNamed? old name).bind fun oldSite =>
      ((siteNamed? new name).map fun newSite => (oldSite, newSite)).filter
        fun sites => env.siteChanged sites.1 sites.2

/-- What `apply_diff` does, in the order of its loops. -/
def diff
    (old new : List (SiteConfig Tls Other))
    (order : DiffOrder) :
    List (Edit Tls Other) :=
  (removedSites old order).map .remove ++
    (addedSites new order).map .add ++
    (env.changedSites old new order).map fun sites =>
      .change sites.1 sites.2

/-- `apply_diff`; `cfg_swap` is stored first. -/
def applyDiff
    (new : List (SiteConfig Tls Other))
    (order : DiffOrder)
    (live : Live Tls Other Cert) :
    Live Tls Other Cert :=
  (env.diff live.currentConfig new order).foldl env.applyEdit
    { live with cfg := new }

/-! ## Updates by the administrator -/

/-- `apply_config`. -/
def applyConfig
    (new : List (SiteConfig Tls Other))
    (live : Live Tls Other Cert) :
    Live Tls Other Cert :=
  let gone := live.registry.allSites.filter fun name =>
    name ∉ siteNames new
  let registry := gone.foldl
    (fun registry name => registry.removeSite name) live.registry
  { live with
    registry :=
      new.foldl (fun registry site => registry.upsertSite env.lower site)
        registry
    cfg := new }

end Externals

/-- `route_site_delete`; an unknown site is answered with 404. -/
def Live.routeSiteDelete
    (name : String)
    (live : Live Tls Other Cert) :
    Live Tls Other Cert :=
  if name ∈ live.registry.allSites then
    { live with registry := live.registry.removeSite name }
  else
    live

/-! ## Steps -/

/-- The steps, one at a time. -/
inductive ConfigEvent (Tls Other : Type) where
  | hotReload (new : List (SiteConfig Tls Other)) (order : DiffOrder)
  | applyConfig (new : List (SiteConfig Tls Other))
  | siteDelete (name : String)
  deriving Repr, DecidableEq

/-- One step; the loop of a reload keeps the configuration it has applied. -/
def Externals.step?
    (env : Externals Tls Other Cert)
    (live : Live Tls Other Cert) :
    ConfigEvent Tls Other → Option (Live Tls Other Cert)
  | .hotReload new order =>
      if order.Fits live.currentConfig new then
        some { env.applyDiff new order live with currentConfig := new }
      else
        none
  | .applyConfig new =>
      some (env.applyConfig new live)
  | .siteDelete name =>
      some (live.routeSiteDelete name)

/-- A reload whose loops go through the right sets is taken. -/
theorem Externals.step?_hotReload
    (env : Externals Tls Other Cert)
    {live : Live Tls Other Cert}
    {new : List (SiteConfig Tls Other)}
    {order : DiffOrder}
    (fits : order.Fits live.currentConfig new) :
    env.step? live (.hotReload new order) =
      some { env.applyDiff new order live with currentConfig := new } :=
  if_pos fits

/-- A reload that is taken goes through the right sets. -/
theorem Externals.fits_of_step?_hotReload
    {env : Externals Tls Other Cert}
    {live next : Live Tls Other Cert}
    {new : List (SiteConfig Tls Other)}
    {order : DiffOrder}
    (taken : env.step? live (.hotReload new order) = some next) :
    order.Fits live.currentConfig new ∧
      next = { env.applyDiff new order live with currentConfig := new } := by
  by_cases fits : order.Fits live.currentConfig new
  · rw [env.step?_hotReload fits] at taken
    exact ⟨fits, (Option.some.inj taken).symm⟩
  · simp [Externals.step?, fits] at taken

/-- A reload puts the new configuration in force. -/
theorem Externals.cfg_applyDiff
    {env : Externals Tls Other Cert}
    {live : Live Tls Other Cert}
    {new : List (SiteConfig Tls Other)}
    {order : DiffOrder} :
    (env.applyDiff new order live).cfg = new := by
  rw [Externals.applyDiff]
  generalize env.diff live.currentConfig new order = edits
  have kept :
      ∀ start : Live Tls Other Cert,
        (edits.foldl env.applyEdit start).cfg = start.cfg := by
    intro start
    induction edits generalizing start with
    | nil =>
        rfl
    | cons edit rest inductionHypothesis =>
        rw [List.foldl_cons, inductionHypothesis]
        cases edit <;> rfl
  exact kept _

/-! ## Which sites a reload touches -/

section Names

variable
  {old new sites : List (SiteConfig Tls Other)}
  {order : DiffOrder}
  {name : String}
  {site : SiteConfig Tls Other}

theorem mem_siteNames_of_mem (member : site ∈ sites) :
    site.name ∈ siteNames sites :=
  List.mem_map_of_mem member

theorem exists_of_mem_siteNames (member : name ∈ siteNames sites) :
    ∃ site ∈ sites, site.name = name :=
  List.mem_map.mp member

theorem mem_of_siteNamed? (isSite : siteNamed? sites name = some site) :
    site ∈ sites ∧ site.name = name := by
  have sameName := List.find?_some isSite
  have member := List.mem_of_find?_eq_some isSite
  exact ⟨List.mem_reverse.mp member, by simpa using sameName⟩

/-- Every name of a configuration has a site. -/
theorem exists_siteNamed? (member : name ∈ siteNames sites) :
    ∃ site, siteNamed? sites name = some site := by
  obtain ⟨site, isSite, sameName⟩ := exists_of_mem_siteNames member
  have found :
      (sites.reverse.find? fun site => site.name == name).isSome := by
    rw [List.find?_isSome]
    exact ⟨site, List.mem_reverse.mpr isSite, by simpa using sameName⟩
  exact Option.isSome_iff_exists.mp found

/-- Sites of one name are equal if the names are distinct. -/
theorem eq_of_sameName
    (names : (siteNames sites).Nodup)
    {first second : SiteConfig Tls Other}
    (isFirst : first ∈ sites)
    (isSecond : second ∈ sites)
    (sameName : first.name = second.name) :
    first = second :=
  List.inj_on_of_nodup_map names isFirst isSecond sameName

/-- With distinct names, a site is in each part that has its name. -/
theorem mem_of_mem_siteNames
    (names : (siteNames sites).Nodup)
    {part : List (SiteConfig Tls Other)}
    (within : ∀ site ∈ part, site ∈ sites)
    (isSite : site ∈ sites)
    (inPart : site.name ∈ siteNames part) :
    site ∈ part := by
  obtain ⟨other, isOther, sameName⟩ := exists_of_mem_siteNames inPart
  have same := eq_of_sameName names (within other isOther) isSite sameName
  exact same ▸ isOther

/-- With distinct names, the site of a name is the one that has it. -/
theorem siteNamed?_eq_some
    (names : (siteNames sites).Nodup)
    (member : site ∈ sites) :
    siteNamed? sites site.name = some site := by
  obtain ⟨found, isFound⟩ :=
    exists_siteNamed? (mem_siteNames_of_mem member)
  obtain ⟨isSite, sameName⟩ := mem_of_siteNamed? isFound
  rw [isFound, eq_of_sameName names isSite member sameName]

theorem DiffOrder.Fits.mem_removed_iff (fits : order.Fits old new) :
    name ∈ order.removed ↔
      name ∈ siteNames old ∧ name ∉ siteNames new := by
  simp [fits.1.mem_iff, List.mem_dedup]

theorem DiffOrder.Fits.mem_added_iff (fits : order.Fits old new) :
    name ∈ order.added ↔
      name ∈ siteNames new ∧ name ∉ siteNames old := by
  simp [fits.2.1.mem_iff, List.mem_dedup]

theorem DiffOrder.Fits.mem_common_iff (fits : order.Fits old new) :
    name ∈ order.common ↔
      name ∈ siteNames old ∧ name ∈ siteNames new := by
  simp [fits.2.2.mem_iff, List.mem_dedup]

/-- The sites that a reload removes. -/
theorem mem_removedSites_iff (fits : order.Fits old new) :
    site ∈ removedSites old order ↔
      siteNamed? old site.name = some site ∧
        site.name ∉ siteNames new := by
  rw [removedSites, List.mem_filterMap]
  constructor
  · rintro ⟨name, member, isSite⟩
    obtain ⟨_, rfl⟩ := mem_of_siteNamed? isSite
    exact ⟨isSite, (fits.mem_removed_iff.mp member).2⟩
  · rintro ⟨isSite, gone⟩
    have isOld := mem_siteNames_of_mem (mem_of_siteNamed? isSite).1
    exact ⟨site.name, fits.mem_removed_iff.mpr ⟨isOld, gone⟩, isSite⟩

/-- The sites that a reload adds. -/
theorem mem_addedSites_iff (fits : order.Fits old new) :
    site ∈ addedSites new order ↔
      siteNamed? new site.name = some site ∧
        site.name ∉ siteNames old := by
  rw [addedSites, List.mem_filterMap]
  constructor
  · rintro ⟨name, member, isSite⟩
    obtain ⟨_, rfl⟩ := mem_of_siteNamed? isSite
    exact ⟨isSite, (fits.mem_added_iff.mp member).2⟩
  · rintro ⟨isSite, fresh⟩
    have isNew := mem_siteNames_of_mem (mem_of_siteNamed? isSite).1
    exact ⟨site.name, fits.mem_added_iff.mpr ⟨isNew, fresh⟩, isSite⟩

namespace Externals

variable {env : Externals Tls Other Cert}

/-- The sites that a reload changes, with their old settings. -/
theorem mem_changedSites_iff
    (fits : order.Fits old new)
    {before : SiteConfig Tls Other} :
    (before, site) ∈ env.changedSites old new order ↔
      siteNamed? old site.name = some before ∧
        siteNamed? new site.name = some site ∧
        env.siteChanged before site = true := by
  rw [changedSites, List.mem_filterMap]
  constructor
  · rintro ⟨name, member, isPair⟩
    obtain ⟨oldSite, isOld, rest⟩ := Option.bind_eq_some_iff.mp isPair
    obtain ⟨isNew, changed⟩ := Option.filter_eq_some_iff.mp rest
    obtain ⟨newSite, isNewSite, same⟩ := Option.map_eq_some_iff.mp isNew
    cases same
    obtain ⟨_, rfl⟩ := mem_of_siteNamed? isNewSite
    exact ⟨isOld, isNewSite, changed⟩
  · rintro ⟨isOld, isNew, changed⟩
    obtain ⟨oldMember, oldName⟩ := mem_of_siteNamed? isOld
    have inOld := mem_siteNames_of_mem oldMember
    rw [oldName] at inOld
    have inNew := mem_siteNames_of_mem (mem_of_siteNamed? isNew).1
    refine ⟨site.name, fits.mem_common_iff.mpr ⟨inOld, inNew⟩, ?_⟩
    simp [isOld, isNew, changed]

variable (env) in
/-- The sites that a reload stores in the registry. -/
def upsertedSites
    (old new : List (SiteConfig Tls Other))
    (order : DiffOrder) :
    List (SiteConfig Tls Other) :=
  addedSites new order ++ (env.changedSites old new order).map Prod.snd

/-- A site is stored unless it is not reported changed. -/
theorem mem_upsertedSites_iff (fits : order.Fits old new) :
    site ∈ env.upsertedSites old new order ↔
      siteNamed? new site.name = some site ∧
        ∀ before,
          siteNamed? old site.name = some before →
            env.siteChanged before site = true := by
  rw [upsertedSites, List.mem_append, mem_addedSites_iff fits,
    List.mem_map]
  constructor
  · rintro (⟨isNew, fresh⟩ | ⟨⟨before, new⟩, member, rfl⟩)
    · refine ⟨isNew, ?_⟩
      intro before isOld
      obtain ⟨oldMember, oldName⟩ := mem_of_siteNamed? isOld
      exact absurd (oldName ▸ mem_siteNames_of_mem oldMember) fresh
    · obtain ⟨isOld, isNew, changed⟩ := (mem_changedSites_iff fits).mp member
      refine ⟨isNew, ?_⟩
      intro other isOther
      rw [isOld] at isOther
      obtain rfl := Option.some.inj isOther
      exact changed
  · rintro ⟨isNew, changed⟩
    by_cases inOld : site.name ∈ siteNames old
    · obtain ⟨before, isOld⟩ := exists_siteNamed? inOld
      have member :=
        (mem_changedSites_iff fits).mpr ⟨isOld, isNew, changed before isOld⟩
      exact .inr ⟨(before, site), member, rfl⟩
    · exact .inl ⟨isNew, inOld⟩

/-- A reload removes some sites from the registry and then stores others. -/
theorem registry_applyDiff
    (new : List (SiteConfig Tls Other))
    (order : DiffOrder)
    (live : Live Tls Other Cert) :
    (env.applyDiff new order live).registry =
      (env.upsertedSites live.currentConfig new order).foldl
        (fun registry site => registry.upsertSite env.lower site)
        ((siteNames (removedSites live.currentConfig order)).foldl
          (fun registry name => registry.removeSite name)
          live.registry) := by
  have project :
      ∀ (edits : List (Edit Tls Other)) (live : Live Tls Other Cert),
        (edits.foldl env.applyEdit live).registry =
          edits.foldl
            (fun registry edit =>
              match edit with
              | .remove old =>
                  registry.removeSite old.name
              | .add new =>
                  registry.upsertSite env.lower new
              | .change _ new =>
                  registry.upsertSite env.lower new)
            live.registry := by
    intro edits live
    refine (List.foldl_hom Live.registry ?_).symm
    intro live edit
    cases edit <;> rfl
  rw [applyDiff, project, diff]
  simp only [List.foldl_append, List.foldl_map, upsertedSites, siteNames]

end Externals

end Names

/-- Sites with the same text have the same names and the same fallback. -/
def textOfSite (site : SiteConfig Unit Unit) : Option String :=
  some (String.intercalate "\n"
    (site.name :: (if site.fallback then "fallback" else "") ::
      site.serverName))

/-- Sites without TLS and without logs. -/
def plainExternals : Externals Unit Unit Unit where
  lower := asciiLower
  siteToml := textOfSite
  tlsToml := fun _ => none
  certifiedKeys := fun _ _ => []
  opensLog := fun _ => false
  first := fun table => table.values.head?

end Sweety
