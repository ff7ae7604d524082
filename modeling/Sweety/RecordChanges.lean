import Mathlib.Data.List.Induction
import Mathlib.Data.Set.Basic

/-!
# Changes of a set of records

A change deletes every record that a pattern hits and then creates a record; it
may leave out either.  Of a series of changes one can ask which records are left
in the end, whether a record was deleted that the series did not create, and
whether what it created was meant to be deleted again.  This module names no
particular records and patterns.
-/

namespace RecordChanges

variable {Pattern Record : Type}

/-- Delete what a pattern hits, then create a record. -/
structure Change (Pattern Record : Type) where
  deletes : Option Pattern
  creates : Option Record
  deriving Repr, DecidableEq

variable (hits : Pattern → Record → Prop)

namespace Change

/-- The change deletes the record if it is there. -/
def Touches (change : Change Pattern Record) (record : Record) : Prop :=
  ∃ pattern, change.deletes = some pattern ∧ hits pattern record

/-- The records after a change. -/
def apply (change : Change Pattern Record) (records : Set Record) :
    Set Record :=
  fun record =>
    change.creates = some record ∨
      record ∈ records ∧ ¬change.Touches hits record

end Change

/-- The records after a series of changes. -/
def after (changes : List (Change Pattern Record)) (records : Set Record) :
    Set Record :=
  changes.foldl (fun records change => change.apply hits records) records

/-- None of the changes deletes the record. -/
def Untouched (changes : List (Change Pattern Record)) (record : Record) :
    Prop :=
  ∀ change ∈ changes, ¬change.Touches hits record

/-- One of the changes creates the record. -/
def Created (changes : List (Change Pattern Record)) (record : Record) :
    Prop :=
  ∃ change ∈ changes, change.creates = some record

/-- Every record that is deleted was created by the series before. -/
def Spares (changes : List (Change Pattern Record)) (start : Set Record) :
    Prop :=
  ∀ front change behind, changes = front ++ change :: behind →
    ∀ record ∈ after hits front start,
      change.Touches hits record → Created front record

/-- Every record that is created is meant to be deleted by a later change. -/
def Requested (changes : List (Change Pattern Record)) : Prop :=
  ∀ front change behind, changes = front ++ change :: behind →
    ∀ record, change.creates = some record →
      ∃ later ∈ behind, later.Touches hits record

/-- Nothing deletes a record after it was created for the last time. -/
def Kept (changes : List (Change Pattern Record)) : Prop :=
  ∀ front change behind, changes = front ++ change :: behind →
    ∀ record, change.creates = some record →
      ¬Created behind record → Untouched hits behind record

variable
  {hits : Pattern → Record → Prop}
  {changes front behind : List (Change Pattern Record)}
  {start : Set Record}
  {record : Record}

theorem after_append (front behind : List (Change Pattern Record)) :
    after hits (front ++ behind) start =
      after hits behind (after hits front start) :=
  List.foldl_append

/-- A record is left that nothing deletes. -/
theorem mem_after_of_untouched
    (member : record ∈ start)
    (untouched : Untouched hits changes record) :
    record ∈ after hits changes start := by
  induction changes generalizing start with
  | nil =>
      exact member
  | cons change rest inductionHypothesis =>
      obtain ⟨notTouched, untouched⟩ := List.forall_mem_cons.mp untouched
      exact inductionHypothesis (.inr ⟨member, notTouched⟩) untouched

/-- What is left was created, or was there and is untouched. -/
theorem created_or_mem_of_mem_after
    (isLeft : record ∈ after hits changes start) :
    Created changes record ∨ record ∈ start ∧ Untouched hits changes record := by
  induction changes generalizing start with
  | nil =>
      exact .inr ⟨isLeft, fun change member => nomatch member⟩
  | cons change rest inductionHypothesis =>
      rcases inductionHypothesis isLeft with isCreated | ⟨isThere, untouched⟩
      · obtain ⟨later, member, creates⟩ := isCreated
        exact .inl ⟨later, List.mem_cons_of_mem change member, creates⟩
      · rcases isThere with creates | ⟨member, notTouched⟩
        · exact .inl ⟨change, List.mem_cons_self, creates⟩
        · exact .inr ⟨member, List.forall_mem_cons.mpr ⟨notTouched, untouched⟩⟩

/-- What is created is created for a last time. -/
theorem exists_last_creation (isCreated : Created changes record) :
    ∃ front change behind,
      changes = front ++ change :: behind ∧
        change.creates = some record ∧ ¬Created behind record := by
  induction changes with
  | nil =>
      obtain ⟨change, member, -⟩ := isCreated
      nomatch member
  | cons change rest inductionHypothesis =>
      by_cases later : Created rest record
      · obtain ⟨front, found, behind, rfl, creates, isLast⟩ :=
          inductionHypothesis later
        exact ⟨change :: front, found, behind, rfl, creates, isLast⟩
      · obtain ⟨found, member, creates⟩ := isCreated
        rcases List.mem_cons.mp member with rfl | inRest
        · exact ⟨[], found, rest, rfl, creates, later⟩
        · exact absurd ⟨found, inRest, creates⟩ later

/-- All that was created is left exactly if it is kept. -/
theorem forall_created_mem_after_iff :
    (∀ record, Created changes record → record ∈ after hits changes start) ↔
      Kept hits changes := by
  constructor
  · intro isLeft front change behind isChanges record creates isLast
    have isThere := isLeft record
      ⟨change, by rw [isChanges]; simp, creates⟩
    rw [isChanges, after_append] at isThere
    change record ∈ after hits behind _ at isThere
    rcases created_or_mem_of_mem_after isThere with again | ⟨-, untouched⟩
    · exact absurd again isLast
    · exact untouched
  · intro kept record isCreated
    obtain ⟨front, change, behind, isChanges, creates, isLast⟩ :=
      exists_last_creation isCreated
    have untouched := kept front change behind isChanges record creates isLast
    rw [isChanges, after_append]
    have isThere : record ∈ change.apply hits (after hits front start) :=
      .inl creates
    change record ∈ after hits behind _
    exact mem_after_of_untouched isThere untouched

/-- What was there before is spared exactly if only created records are hit. -/
theorem spares_iff :
    Spares hits changes start ↔
      ∀ front change behind, changes = front ++ change :: behind →
        ∀ record ∈ start, change.Touches hits record →
          Created front record := by
  constructor
  · intro spares front change behind isChanges record member touches
    by_contra notCreated
    have isThere :
        ∀ front behind, changes = front ++ behind → ¬Created front record →
          record ∈ after hits front start := by
      intro front
      induction front using List.reverseRecOn with
      | nil =>
          intro behind _ _
          exact member
      | append_singleton front last inductionHypothesis =>
          intro behind isChanges notCreated
          rw [List.append_assoc] at isChanges
          have notBefore : ¬Created front record := by
            rintro ⟨found, inFront, creates⟩
            exact notCreated
              ⟨found, List.mem_append_left [last] inFront, creates⟩
          have before := inductionHypothesis _ isChanges notBefore
          rw [after_append]
          exact .inr ⟨before, fun touches =>
            notBefore (spares front last behind isChanges record before
              touches)⟩
    exact notCreated (spares front change behind isChanges record
      (isThere front (change :: behind) isChanges notCreated) touches)
  · intro onlyCreated front change behind isChanges record isThere touches
    rcases created_or_mem_of_mem_after isThere with isCreated | ⟨member, -⟩
    · exact isCreated
    · exact onlyCreated front change behind isChanges record member touches

/-- A place in a series of two parts is in one of them. -/
theorem forall_place_append_iff
    {property : List (Change Pattern Record) → Change Pattern Record →
      List (Change Pattern Record) → Prop}
    {first second : List (Change Pattern Record)} :
    (∀ front change behind, first ++ second = front ++ change :: behind →
        property front change behind) ↔
      (∀ front change behind, first = front ++ change :: behind →
          property front change (behind ++ second)) ∧
        ∀ front change behind, second = front ++ change :: behind →
          property (first ++ front) change behind := by
  constructor
  · intro everywhere
    constructor
    · rintro front change behind rfl
      exact everywhere front change (behind ++ second) (by simp)
    · rintro front change behind rfl
      exact everywhere (first ++ front) change behind (by simp)
  · rintro ⟨inFirst, inSecond⟩ front change behind isChanges
    rcases List.append_eq_append_iff.mp isChanges with
      ⟨middle, rfl, isSecond⟩ | ⟨middle, isFirst, isRest⟩
    · exact inSecond middle change behind isSecond
    · cases middle with
      | nil =>
          rw [List.append_nil] at isFirst
          subst isFirst
          have placed := inSecond [] change behind isRest.symm
          rwa [List.append_nil] at placed
      | cons head rest =>
          obtain ⟨rfl, rfl⟩ := List.cons.inj isRest
          exact inFirst front change rest isFirst

/-- Changes at the end that create nothing serve the creations before them. -/
theorem requested_append_iff
    {final : List (Change Pattern Record)}
    (createsNone : ∀ change ∈ final, change.creates = none) :
    Requested hits (changes ++ final) ↔
      ∀ front change behind, changes = front ++ change :: behind →
        ∀ record, change.creates = some record →
          (∃ later ∈ behind, later.Touches hits record) ∨
            ∃ later ∈ final, later.Touches hits record := by
  rw [Requested, forall_place_append_iff]
  constructor
  · rintro ⟨inFirst, -⟩ front change behind isChanges record creates
    obtain ⟨later, member, touches⟩ :=
      inFirst front change behind isChanges record creates
    rcases List.mem_append.mp member with inBehind | inFinal
    · exact .inl ⟨later, inBehind, touches⟩
    · exact .inr ⟨later, inFinal, touches⟩
  · intro served
    refine ⟨?_, ?_⟩
    · intro front change behind isChanges record creates
      rcases served front change behind isChanges record creates with
        ⟨later, inBehind, touches⟩ | ⟨later, inFinal, touches⟩
      · exact ⟨later, List.mem_append_left _ inBehind, touches⟩
      · exact ⟨later, List.mem_append_right _ inFinal, touches⟩
    · rintro front change behind rfl record creates
      have isNone := createsNone change (by simp)
      rw [isNone] at creates
      nomatch creates

/-- Changes at the end that repeat a deletion are no danger to anything. -/
theorem spares_append_iff
    {final : List (Change Pattern Record)}
    (repeats :
      ∀ later ∈ final, ∃ change ∈ changes, change.deletes = later.deletes) :
    Spares hits (changes ++ final) start ↔ Spares hits changes start := by
  rw [spares_iff, spares_iff, forall_place_append_iff]
  constructor
  · intro both
    exact both.1
  · intro inFirst
    refine ⟨inFirst, ?_⟩
    rintro front later behind rfl record member ⟨pattern, deletes, isHit⟩
    obtain ⟨change, isChange, same⟩ := repeats later (by simp)
    obtain ⟨before, others, rfl⟩ := List.append_of_mem isChange
    obtain ⟨found, inBefore, creates⟩ :=
      inFirst before change others rfl record member
        ⟨pattern, same.trans deletes, isHit⟩
    exact ⟨found, by simp [inBefore], creates⟩

end RecordChanges
