import Sweety.ConfigTree
import Sweety.ReadModifyWrite
import Sweety.VHost

namespace Sweety.RegistryUpdates

open ReadModifyWrite

/-!
# Concurrent updates of the registry and of the configuration

A mutation of the registry loads the snapshot, changes a copy and stores it, and
an update of the configuration tree does the same to the live configuration.
Two of them at a time lose one of their effects exactly when both load before
either stores, unless what is stored first leaves no trace anyway.
-/

variable {Tls Other : Type}

/-! ## Mutations -/

/-- A mutation of the registry. -/
inductive Mutation (Tls Other : Type) where
  | upsert (site : SiteConfig Tls Other)
  | remove (siteName : String)
  | inject (siteName : String) (resources : SiteResources)
  deriving Repr, DecidableEq

namespace Mutation

/-- The name of the site that is changed. -/
def site : Mutation Tls Other → String
  | .upsert site =>
      site.name
  | .remove siteName =>
      siteName
  | .inject siteName _ =>
      siteName

/-- The new snapshot; injecting stores nothing if the site is not found. -/
def update
    (lower : String → String)
    (inner : VHostInner Tls Other) :
    Mutation Tls Other → Option (VHostInner Tls Other)
  | .upsert site =>
      some (inner.upsertSite lower site)
  | .remove siteName =>
      some (inner.removeSite siteName)
  | .inject siteName resources =>
      (inner.injectable? siteName).map fun _ =>
        inner.injectSiteResources siteName resources

/-- The snapshot after a mutation. -/
def run
    (lower : String → String)
    (mutation : Mutation Tls Other)
    (inner : VHostInner Tls Other) :
    VHostInner Tls Other :=
  (mutation.update lower inner).getD inner

/-- The places that are written whatever stood there. -/
def Writes
    (lower : String → String)
    (slot : Slot) :
    Mutation Tls Other → Prop
  | .upsert site =>
      site.Claims lower slot
  | .remove _ | .inject _ _ =>
      False

/-- There is nothing to change at a place. -/
def Settled
    (lower : String → String)
    (inner : VHostInner Tls Other)
    (slot : Slot) :
    Mutation Tls Other → Prop
  | .upsert site =>
      if site.Claims lower slot then
        inner.read slot = some (.fromConfig site)
      else
        slot ≠ .fallback →
          ∀ info, inner.read slot = some info → info.name ≠ site.name
  | .remove siteName =>
      ∀ info, inner.read slot = some info → info.name ≠ siteName
  | .inject siteName resources =>
      ∀ found info,
        inner.injectable? siteName = some found →
          inner.read slot = some info →
          info.name = siteName →
          info = { found with resources := resources }

end Mutation

/-- Snapshots with the same sites at all places. -/
def Same (first second : VHostInner Tls Other) : Prop :=
  ∀ slot, first.read slot = second.read slot

/-- Under its exact names a site stands with one `SiteInfo` only. -/
def Uniform (inner : VHostInner Tls Other) : Prop :=
  ∀ firstKey secondKey first second,
    inner.read (.exact firstKey) = some first →
      inner.read (.exact secondKey) = some second →
      first.name = second.name →
      first = second

/-- The site of this name, if it stands at a place. -/
def ownPart
    (siteName : String)
    (entry : Option (SiteInfo Tls Other)) :
    Option (SiteInfo Tls Other) :=
  entry.filter fun info => info.name == siteName

theorem ownPart_eq_some_iff
    {siteName : String}
    {entry : Option (SiteInfo Tls Other)}
    {info : SiteInfo Tls Other} :
    ownPart siteName entry = some info ↔
      entry = some info ∧ info.name = siteName := by
  simp [ownPart, Option.filter_eq_some_iff]

variable
  {lower : String → String}
  {inner : VHostInner Tls Other}
  {slot : Slot}

theorem run_inject
    (siteName : String)
    (resources : SiteResources)
    (inner : VHostInner Tls Other) :
    (Mutation.inject siteName resources).run lower inner =
      inner.injectSiteResources siteName resources := by
  cases isFound : inner.injectable? siteName with
  | none =>
      rw [VHostInner.injectSiteResources_of_none resources isFound]
      simp [Mutation.run, Mutation.update, isFound]
  | some found =>
      simp [Mutation.run, Mutation.update, isFound]

/-- A place that is written holds the site of the mutation. -/
theorem read_run_of_writes
    {mutation : Mutation Tls Other}
    (writes : mutation.Writes lower slot) :
    ∃ site,
      mutation = .upsert site ∧
        ∀ inner : VHostInner Tls Other,
          (mutation.run lower inner).read slot =
            some (.fromConfig site) := by
  cases mutation with
  | upsert site =>
      refine ⟨site, rfl, fun inner => ?_⟩
      have claims : site.Claims lower slot := writes
      have isRead := inner.read_upsertSite lower site slot
      rw [if_pos claims] at isRead
      exact isRead
  | remove siteName =>
      exact writes.elim
  | inject siteName resources =>
      exact writes.elim

/-- Dropping one site leaves the others. -/
theorem ownPart_filter
    {siteName removed : String}
    (different : siteName ≠ removed)
    (entry : Option (SiteInfo Tls Other)) :
    ownPart siteName (entry.filter fun info => info.name != removed) =
      ownPart siteName entry := by
  apply Option.ext
  intro info
  rw [ownPart_eq_some_iff, ownPart_eq_some_iff,
    Option.filter_eq_some_iff]
  constructor
  · rintro ⟨⟨isEntry, _⟩, own⟩
    exact ⟨isEntry, own⟩
  · rintro ⟨isEntry, own⟩
    refine ⟨⟨isEntry, ?_⟩, own⟩
    rw [own]
    simpa using different

/-- Injecting into one site leaves the others. -/
theorem ownPart_map
    {siteName injected : String}
    {found : SiteInfo Tls Other}
    (different : siteName ≠ injected)
    (isFound : found.name = injected)
    (resources : SiteResources)
    (entry : Option (SiteInfo Tls Other)) :
    ownPart siteName
        (entry.map
          (VHostInner.withResources injected found resources)) =
      ownPart siteName entry := by
  cases entry with
  | none =>
      rfl
  | some info =>
      by_cases own : info.name = injected
      · have updated : found.name ≠ siteName :=
          isFound ▸ different.symm
        have before : info.name ≠ siteName :=
          own ▸ different.symm
        rw [Option.map_some, VHostInner.withResources, if_pos own]
        simp only [SiteInfo.name] at updated before
        simp [ownPart, Option.filter, SiteInfo.name, updated, before]
      · rw [Option.map_some, VHostInner.withResources, if_neg own]

/-- Injecting keeps the name of a site. -/
theorem name_withResources
    {injected : String}
    {found info : SiteInfo Tls Other}
    {resources : SiteResources}
    (isFound : found.name = injected) :
    (VHostInner.withResources injected found resources info).name =
      info.name := by
  unfold VHostInner.withResources
  split
  · rename_i own
    exact isFound.trans own.symm
  · rfl

/-- A mutation keeps what belongs to other sites where it does not write. -/
theorem ownPart_read_run
    {mutation : Mutation Tls Other}
    {siteName : String}
    (different : siteName ≠ mutation.site)
    (keeps : ¬ mutation.Writes lower slot) :
    ownPart siteName ((mutation.run lower inner).read slot) =
      ownPart siteName (inner.read slot) := by
  cases mutation with
  | upsert site =>
      have claimsNot : ¬ site.Claims lower slot := keeps
      have isRead := inner.read_upsertSite lower site slot
      rw [if_neg claimsNot] at isRead
      change ownPart siteName ((inner.upsertSite lower site).read slot) = _
      rw [isRead]
      split
      · rfl
      · exact ownPart_filter different _
  | remove removed =>
      change ownPart siteName ((inner.removeSite removed).read slot) = _
      rw [VHostInner.read_removeSite]
      exact ownPart_filter different _
  | inject injected resources =>
      rw [run_inject, VHostInner.read_injectSiteResources]
      cases isFound : inner.injectable? injected with
      | none =>
          rfl
      | some found =>
          exact ownPart_map different
            (VHostInner.injectable?_eq_some isFound).1 resources _

/--
Where a mutation has something to change, it changes what belongs to its site,
in every snapshot with the same entry and the same site to inject into.
-/
theorem ownPart_ne_of_not_settled
    {mutation : Mutation Tls Other}
    {other : VHostInner Tls Other}
    (unsettled : ¬ mutation.Settled lower inner slot)
    (samePart :
      ownPart mutation.site (other.read slot) =
        ownPart mutation.site (inner.read slot))
    (sameFound :
      ∀ siteName resources,
        mutation = .inject siteName resources →
          other.injectable? siteName = inner.injectable? siteName) :
    ownPart mutation.site ((mutation.run lower other).read slot) ≠
      ownPart mutation.site (inner.read slot) := by
  intro same
  apply unsettled
  cases mutation with
  | upsert site =>
      have isRead := other.read_upsertSite lower site slot
      change
        ownPart site.name ((other.upsertSite lower site).read slot) =
          _ at same
      rw [isRead] at same
      simp only [Mutation.Settled]
      split
      · rename_i claims
        rw [if_pos claims] at same
        exact (ownPart_eq_some_iff.mp
          (same.symm.trans (ownPart_eq_some_iff.mpr ⟨rfl, rfl⟩))).1
      · rename_i claimsNot
        intro notFallback info isInfo own
        rw [if_neg claimsNot, if_neg notFallback] at same
        have isOwn :=
          same.trans (ownPart_eq_some_iff.mpr ⟨isInfo, own⟩)
        have dropped :=
          Option.filter_eq_some_iff.mp (ownPart_eq_some_iff.mp isOwn).1
        simp [own] at dropped
  | remove removed =>
      intro info isInfo own
      change
        ownPart removed ((other.removeSite removed).read slot) =
          _ at same
      rw [VHostInner.read_removeSite] at same
      have isOwn := same.trans (ownPart_eq_some_iff.mpr ⟨isInfo, own⟩)
      have dropped :=
        Option.filter_eq_some_iff.mp (ownPart_eq_some_iff.mp isOwn).1
      simp [own] at dropped
  | inject injected resources =>
      intro found info isFound isInfo own
      have isOwn := ownPart_eq_some_iff.mpr ⟨isInfo, own⟩
      have isOther :=
        (ownPart_eq_some_iff.mp (samePart.trans isOwn)).1
      have isFoundOther : other.injectable? injected = some found :=
        (sameFound injected resources rfl).trans isFound
      rw [run_inject, VHostInner.read_injectSiteResources,
        isFoundOther, isOther] at same
      have kept :=
        Option.some.inj (ownPart_eq_some_iff.mp (same.trans isOwn)).1
      rw [VHostInner.withResources, if_pos own] at kept
      exact kept.symm

/-- A mutation changes nothing where there is nothing to change. -/
theorem read_run_of_settled
    {mutation : Mutation Tls Other}
    (settled : mutation.Settled lower inner slot) :
    (mutation.run lower inner).read slot = inner.read slot := by
  cases mutation with
  | upsert site =>
      change (inner.upsertSite lower site).read slot = _
      rw [VHostInner.read_upsertSite]
      simp only [Mutation.Settled] at settled
      split
      · rename_i claims
        rw [if_pos claims] at settled
        exact settled.symm
      · rename_i claimsNot
        rw [if_neg claimsNot] at settled
        split
        · rfl
        · rename_i notFallback
          cases isInfo : inner.read slot with
          | none =>
              rfl
          | some info =>
              have other := settled notFallback info isInfo
              simp [Option.filter, other]
  | remove removed =>
      change (inner.removeSite removed).read slot = _
      rw [VHostInner.read_removeSite]
      cases isInfo : inner.read slot with
      | none =>
          rfl
      | some info =>
          have other := settled info isInfo
          simp [Option.filter, other]
  | inject injected resources =>
      rw [run_inject, VHostInner.read_injectSiteResources]
      cases isFound : inner.injectable? injected with
      | none =>
          rfl
      | some found =>
          cases isInfo : inner.read slot with
          | none =>
              rfl
          | some info =>
              by_cases own : info.name = injected
              · have same := settled found info isFound isInfo own
                simp only [Option.map_some, VHostInner.withResources,
                  if_pos own]
                rw [← same]
              · simp only [Option.map_some, VHostInner.withResources,
                  if_neg own]

/-! ## Reachable snapshots -/

/-- The snapshot after some mutations, from the empty registry. -/
def reached
    (lower : String → String)
    (history : List (Mutation Tls Other)) :
    VHostInner Tls Other :=
  history.foldl (fun inner mutation => mutation.run lower inner) .empty

/-- Every mutation keeps a site the same under all its exact names. -/
theorem Uniform.run
    (uniform : Uniform inner)
    (mutation : Mutation Tls Other) :
    Uniform (mutation.run lower inner) := by
  intro firstKey secondKey first second isFirst isSecond sameName
  cases mutation with
  | upsert site =>
      change
        (inner.upsertSite lower site).read _ = _ at isFirst isSecond
      rw [VHostInner.read_upsertSite, if_neg (by simp :
        Slot.exact firstKey ≠ .fallback)] at isFirst
      rw [VHostInner.read_upsertSite, if_neg (by simp :
        Slot.exact secondKey ≠ .fallback)] at isSecond
      split at isFirst
      · obtain rfl := Option.some.inj isFirst
        split at isSecond
        · exact Option.some.inj isSecond
        · have kept := (Option.filter_eq_some_iff.mp isSecond).2
          simp [← sameName] at kept
      · obtain ⟨firstBefore, kept⟩ :=
          Option.filter_eq_some_iff.mp isFirst
        split at isSecond
        · obtain rfl := Option.some.inj isSecond
          simp [sameName] at kept
        · obtain ⟨secondBefore, _⟩ :=
            Option.filter_eq_some_iff.mp isSecond
          exact uniform firstKey secondKey first second firstBefore
            secondBefore sameName
  | remove removed =>
      change (inner.removeSite removed).read _ = _ at isFirst isSecond
      rw [VHostInner.read_removeSite] at isFirst isSecond
      exact uniform firstKey secondKey first second
        (Option.filter_eq_some_iff.mp isFirst).1
        (Option.filter_eq_some_iff.mp isSecond).1 sameName
  | inject injected resources =>
      rw [run_inject, VHostInner.read_injectSiteResources] at isFirst
      rw [run_inject, VHostInner.read_injectSiteResources] at isSecond
      cases isFound : inner.injectable? injected with
      | none =>
          rw [isFound] at isFirst isSecond
          exact uniform firstKey secondKey first second isFirst isSecond
            sameName
      | some found =>
          rw [isFound] at isFirst isSecond
          have foundName := (VHostInner.injectable?_eq_some isFound).1
          obtain ⟨firstBefore, isFirstBefore, rfl⟩ :=
            Option.map_eq_some_iff.mp isFirst
          obtain ⟨secondBefore, isSecondBefore, rfl⟩ :=
            Option.map_eq_some_iff.mp isSecond
          rw [name_withResources foundName,
            name_withResources foundName] at sameName
          rw [uniform firstKey secondKey firstBefore secondBefore
            isFirstBefore isSecondBefore sameName]

theorem uniform_reached (history : List (Mutation Tls Other)) :
    Uniform (reached lower history) := by
  have start : Uniform (.empty : VHostInner Tls Other) := by
    intro firstKey secondKey first second isFirst
    rw [VHostInner.read_empty] at isFirst
    cases isFirst
  unfold reached
  generalize VHostInner.empty = inner at start
  induction history generalizing inner with
  | nil =>
      exact start
  | cons mutation rest inductionHypothesis =>
      exact inductionHypothesis _ (start.run mutation)

/-- The site to inject into depends only on what stands at the places. -/
theorem Uniform.injectable?_eq
    {other : VHostInner Tls Other}
    {siteName : String}
    {key : String}
    {info : SiteInfo Tls Other}
    (uniform : Uniform inner)
    (isInfo : inner.read (.exact key) = some info)
    (own : info.name = siteName)
    (isOther : other.read (.exact key) = some info)
    (fromInner :
      ∀ key info,
        other.read (.exact key) = some info →
          info.name = siteName →
          inner.read (.exact key) = some info) :
    other.injectable? siteName = inner.injectable? siteName := by
  have isFound :
      ∀ {snapshot : VHostInner Tls Other},
        snapshot.read (.exact key) = some info →
          ∃ found, snapshot.injectable? siteName = some found := by
    intro snapshot isRead
    cases found : snapshot.injectable? siteName with
    | none =>
        exact absurd own
          (VHostInner.injectable?_eq_none_iff.mp found key info isRead)
    | some site =>
        exact ⟨site, rfl⟩
  obtain ⟨first, isFirst⟩ := isFound isInfo
  obtain ⟨second, isSecond⟩ := isFound isOther
  obtain ⟨firstName, firstKey, firstRead⟩ :=
    VHostInner.injectable?_eq_some isFirst
  obtain ⟨secondName, secondKey, secondRead⟩ :=
    VHostInner.injectable?_eq_some isSecond
  rw [isFirst, isSecond,
    uniform secondKey firstKey second first
      (fromInner secondKey second secondRead secondName) firstRead
      (secondName.trans firstName.symm)]

/-! ## Two mutations at a time -/

namespace Mutation

/-- Injecting finds no exact name of its site. -/
def FindsNothing (inner : VHostInner Tls Other) :
    Mutation Tls Other → Prop
  | .inject siteName _ =>
      ∀ key info,
        inner.read (.exact key) = some info → info.name ≠ siteName
  | .upsert _ | .remove _ =>
      False

/-- Injecting finds no exact name of its site that `later` leaves to it. -/
def LosesNames
    (lower : String → String)
    (inner : VHostInner Tls Other)
    (earlier later : Mutation Tls Other) :
    Prop :=
  match earlier with
  | .inject siteName _ =>
      ∀ key info,
        inner.read (.exact key) = some info →
          info.name = siteName →
          later.Writes lower (.exact key)
  | .upsert _ | .remove _ =>
      False

/--
Nothing of `earlier` is lost when `later` is computed from the same snapshot and
stored after it: `later` stores nothing, or takes the names that `earlier` looks
for, or writes every place at which `earlier` has something to change.
-/
def LeavesNoTrace
    (lower : String → String)
    (inner : VHostInner Tls Other)
    (earlier later : Mutation Tls Other) :
    Prop :=
  later.FindsNothing inner ∨
    earlier.LosesNames lower inner later ∨
    ∀ slot, later.Writes lower slot ∨ earlier.Settled lower inner slot

theorem update_eq_none_iff
    {mutation : Mutation Tls Other} :
    mutation.update lower inner = none ↔
      mutation.FindsNothing inner := by
  cases mutation with
  | upsert site =>
      simp [update, FindsNothing]
  | remove siteName =>
      simp [update, FindsNothing]
  | inject siteName resources =>
      rw [update, Option.map_eq_none_iff,
        VHostInner.injectable?_eq_none_iff]
      rfl

/-- A mutation that stores nothing changes nothing. -/
theorem run_of_findsNothing
    {mutation : Mutation Tls Other}
    (findsNothing : mutation.FindsNothing inner) :
    mutation.run lower inner = inner := by
  rw [run, update_eq_none_iff.mpr findsNothing, Option.getD_none]

end Mutation

section Pair

variable {earlier later : Mutation Tls Other}

/-- An entry of another site comes from before. -/
theorem read_of_read_run
    {mutation : Mutation Tls Other}
    {info : SiteInfo Tls Other}
    (isRead : (mutation.run lower inner).read slot = some info)
    (different : info.name ≠ mutation.site) :
    ¬ mutation.Writes lower slot ∧ inner.read slot = some info := by
  have keeps : ¬ mutation.Writes lower slot := by
    intro writes
    obtain ⟨site, rfl, isSite⟩ := read_run_of_writes writes
    rw [isSite inner] at isRead
    obtain rfl := Option.some.inj isRead
    exact different rfl
  have samePart :
      ownPart info.name ((mutation.run lower inner).read slot) =
        ownPart info.name (inner.read slot) :=
    ownPart_read_run different keeps
  rw [isRead, ownPart_eq_some_iff.mpr ⟨rfl, rfl⟩] at samePart
  exact ⟨keeps, (ownPart_eq_some_iff.mp samePart.symm).1⟩

/-- Without the names it looks for, `earlier` does nothing after `later`. -/
theorem run_run_of_losesNames
    (different : earlier.site ≠ later.site)
    (losesNames : earlier.LosesNames lower inner later) :
    earlier.run lower (later.run lower inner) =
      later.run lower inner := by
  apply Mutation.run_of_findsNothing
  cases earlier with
  | upsert site =>
      exact losesNames.elim
  | remove siteName =>
      exact losesNames.elim
  | inject siteName resources =>
      intro key info isRead own
      obtain ⟨keeps, before⟩ :=
        read_of_read_run isRead (own ▸ different)
      exact keeps (losesNames key info before own)

/-- Places that `later` writes, or where `earlier` does nothing, hide it. -/
theorem same_run_run_of_hidden
    (uniform : Uniform inner)
    (hidden :
      ∀ slot,
        later.Writes lower slot ∨ earlier.Settled lower inner slot) :
    Same (later.run lower inner)
      (later.run lower (earlier.run lower inner)) := by
  intro slot
  by_cases writes : later.Writes lower slot
  · obtain ⟨site, _, isSite⟩ := read_run_of_writes writes
    rw [isSite, isSite]
  · have settled := (hidden slot).resolve_left writes
    have sameHere := read_run_of_settled settled
    cases later with
    | upsert site =>
        change
          (inner.upsertSite lower site).read slot =
            ((earlier.run lower inner).upsertSite lower site).read slot
        rw [VHostInner.read_upsertSite, VHostInner.read_upsertSite,
          sameHere]
    | remove removed =>
        change
          (inner.removeSite removed).read slot =
            ((earlier.run lower inner).removeSite removed).read slot
        rw [VHostInner.read_removeSite, VHostInner.read_removeSite,
          sameHere]
    | inject injected resources =>
        -- Injecting writes no place outright, so nothing has changed at all.
        have same :
            ∀ slot,
              (earlier.run lower inner).read slot =
                inner.read slot := by
          intro other
          exact read_run_of_settled ((hidden other).resolve_left id)
        have sameFound :
            (earlier.run lower inner).injectable? injected =
              inner.injectable? injected := by
          cases isFound : inner.injectable? injected with
          | none =>
              apply VHostInner.injectable?_eq_none_iff.mpr
              intro key info isRead
              rw [same] at isRead
              exact VHostInner.injectable?_eq_none_iff.mp isFound key
                info isRead
          | some found =>
              obtain ⟨own, key, isRead⟩ :=
                VHostInner.injectable?_eq_some isFound
              rw [← isFound]
              apply uniform.injectable?_eq isRead own
              · rw [same]
                exact isRead
              · intro other info isOther _
                rw [← same]
                exact isOther
        rw [run_inject, run_inject, VHostInner.read_injectSiteResources,
          VHostInner.read_injectSiteResources, sameFound, sameHere]

/-- After `later`, `earlier` still finds the same site to inject into. -/
theorem injectable?_run
    (uniform : Uniform inner)
    (different : earlier.site ≠ later.site)
    {key : String}
    {info : SiteInfo Tls Other}
    (isInfo : inner.read (.exact key) = some info)
    (own : info.name = earlier.site)
    (keeps : ¬ later.Writes lower (.exact key)) :
    (later.run lower inner).injectable? earlier.site =
      inner.injectable? earlier.site := by
  have stays :
      ownPart earlier.site ((later.run lower inner).read (.exact key)) =
        ownPart earlier.site (inner.read (.exact key)) :=
    ownPart_read_run different keeps
  rw [ownPart_eq_some_iff.mpr ⟨isInfo, own⟩] at stays
  refine uniform.injectable?_eq isInfo own
    (ownPart_eq_some_iff.mp stays).1 ?_
  intro other otherInfo isRead otherOwn
  exact (read_of_read_run isRead (otherOwn ▸ different)).2

/--
Whether `later` alone, on the snapshot that both have loaded, is the same as
both in one of the two orders.
-/
theorem same_inTurn_iff
    (uniform : Uniform inner)
    (different : earlier.site ≠ later.site) :
    (Same (later.run lower inner)
        (later.run lower (earlier.run lower inner)) ∨
      Same (later.run lower inner)
        (earlier.run lower (later.run lower inner))) ↔
      earlier.LosesNames lower inner later ∨
        ∀ slot,
          later.Writes lower slot ∨
            earlier.Settled lower inner slot := by
  constructor
  · intro survives
    by_contra neither
    obtain ⟨keepsNames, shows⟩ := not_or.mp neither
    obtain ⟨slot, visible⟩ := not_forall.mp shows
    obtain ⟨keeps, unsettled⟩ := not_or.mp visible
    have laterKeeps :
        ownPart earlier.site ((later.run lower inner).read slot) =
          ownPart earlier.site (inner.read slot) :=
      ownPart_read_run different keeps
    rcases survives with same | same
    · apply ownPart_ne_of_not_settled unsettled rfl (fun _ _ _ => rfl)
      rw [← laterKeeps, same slot]
      exact (ownPart_read_run different keeps).symm
    · have sameFound :
          ∀ siteName resources,
            earlier = .inject siteName resources →
              (later.run lower inner).injectable? siteName =
                inner.injectable? siteName := by
        rintro siteName resources rfl
        simp only [Mutation.LosesNames, not_forall] at keepsNames
        obtain ⟨key, info, isInfo, own, keepsKey⟩ := keepsNames
        exact injectable?_run uniform different isInfo own keepsKey
      apply ownPart_ne_of_not_settled unsettled laterKeeps sameFound
      rw [← same slot]
      exact laterKeeps
  · rintro (losesNames | hidden)
    · right
      intro slot
      rw [run_run_of_losesNames different losesNames]
    · exact .inl (same_run_run_of_hidden uniform hidden)

end Pair

/-! ## Both kinds of updates -/

open ConfigTree in
/-- The configuration after an update of the tree, which may be refused. -/
def afterMutate
    {Config : Type}
    (serde : Serde Config)
    (request : Request)
    (config : Config) :
    Config :=
  (configTreeMutate serde request config).toOption.getD config

open ConfigTree in
/--
Nothing of `earlier` is lost when `later` is computed from the same
configuration and stored after it: `later` is refused, or gives the same with
the change of `earlier` before it, or leaves nothing for `earlier` to change.
-/
def TreeLeavesNoTrace
    {Config : Type}
    (serde : Serde Config)
    (config : Config)
    (earlier later : Request) :
    Prop :=
  (configTreeMutate serde later config).toOption = none ∨
    afterMutate serde later (afterMutate serde earlier config) =
      afterMutate serde later config ∨
    afterMutate serde earlier (afterMutate serde later config) =
      afterMutate serde later config

/-- Both mutations survive unless they overlap and the earlier one shows. -/
theorem mutations_survive_iff
    {mutations : Writer → Mutation Tls Other}
    {schedule : List Writer}
    {result : VHostInner Tls Other}
    (uniform : Uniform inner)
    (different :
      (mutations (lastWriter schedule).other).site ≠
        (mutations (lastWriter schedule)).site)
    (finishes :
      Finishes
        (fun writer inner => (mutations writer).update lower inner)
        inner schedule result) :
    (∃ writer,
      Same result
        (inTurn
          (fun writer inner => (mutations writer).update lower inner)
          writer inner)) ↔
      (Overlap schedule →
        Mutation.LeavesNoTrace lower inner
          (mutations (lastWriter schedule).other)
          (mutations (lastWriter schedule))) := by
  have reflexive :
      ∀ inner : VHostInner Tls Other, Same inner inner :=
    fun _ _ => rfl
  rw [exists_inTurn_iff reflexive finishes, Mutation.update_eq_none_iff,
    Writer.exists_iff (lastWriter schedule), Mutation.LeavesNoTrace,
    ← same_inTurn_iff uniform different]
  simp only [inTurn, Writer.other_other]
  rfl

open ConfigTree in
/-- Both updates survive unless they overlap and the earlier one shows. -/
theorem treeUpdates_survive_iff
    {Config : Type}
    {serde : Serde Config}
    {requests : Writer → Request}
    {config result : Config}
    {schedule : List Writer}
    (finishes :
      Finishes
        (fun writer config =>
          (configTreeMutate serde (requests writer) config).toOption)
        config schedule result) :
    (∃ writer,
      result =
        inTurn
          (fun writer config =>
            (configTreeMutate serde (requests writer) config).toOption)
          writer config) ↔
      (Overlap schedule →
        TreeLeavesNoTrace serde config
          (requests (lastWriter schedule).other)
          (requests (lastWriter schedule))) := by
  rw [exists_inTurn_iff Eq.refl finishes,
    Writer.exists_iff (lastWriter schedule), TreeLeavesNoTrace]
  simp only [inTurn, Writer.other_other, eq_comm]
  rfl

/-- Two sites are added. -/
def addBoth : Writer → Mutation Unit Unit
  | .first =>
      .upsert (namedSite "a" ["a.example"])
  | .second =>
      .upsert (namedSite "b" ["b.example"])

/-- Two fields of a tree are replaced. -/
def patchBoth : Writer → ConfigTree.Request
  | .first =>
      .patch ["a"] (.bool true)
  | .second =>
      .patch ["b"] (.bool true)

/-- A configuration that is its own tree. -/
def treeSerde : ConfigTree.Serde ConfigTree.Json where
  toValue := .ok
  fromValue := .ok

end Sweety.RegistryUpdates
