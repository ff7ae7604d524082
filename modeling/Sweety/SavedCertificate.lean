import Mathlib.Logic.Function.Basic
import Sweety.Rewrite

namespace Sweety.SavedCertificate

open Rewrite

/-!
# Saving a certificate and its key

Model of `save_cert_files` in `server/acme.rs`, which writes the certificate and
then the key over the files that are there.  A file is its bytes under the text
of its path.  At most one call to the file system fails, since the function
returns at the first one that does; `fs::write` fails when the file is opened,
or when the disk takes no more of the bytes than there is room for.
-/

/-! ## Paths -/

abbrev Path :=
  List Char

/-- `Path::join`. -/
def join (base name : Path) : Path :=
  if name.head? = some '/' then name else joinPath base name

/-- `acme_cache_dir`; `config_dir` may give no directory. -/
def acmeCacheDir (configDir : Option Path) : Path :=
  join (join (configDir.getD "/etc".toList) "sweety".toList) "acme".toList

/-- `acme_cert_path`. -/
def acmeCertPath (configDir : Option Path) (domain : Path) : Path :=
  join (acmeCacheDir configDir) (domain ++ ".crt".toList)

/-- `acme_key_path`. -/
def acmeKeyPath (configDir : Option Path) (domain : Path) : Path :=
  join (acmeCacheDir configDir) (domain ++ ".key".toList)

/-! ## The file system -/

abbrev Disk :=
  Path → Option (List UInt8)

/-- The two files that are written. -/
inductive Site where
  | cert
  | key
  deriving Repr, DecidableEq

/-- The call that fails. -/
inductive Failure where
  | createDir
  | open (site : Site)
  | write (site : Site) (room : Nat)
  deriving Repr, DecidableEq

/-- What a call returns, and the disk after it. -/
abbrev Ran :=
  Except Failure Unit × Disk

/-- The next call, if the first one did not fail: `?`. -/
def Ran.andThen (next : Disk → Ran) : Ran → Ran
  | (.ok (), disk) =>
      next disk
  | (.error failure, disk) =>
      (.error failure, disk)

/-- `std::fs::create_dir_all`, which changes no file. -/
def createDirAll (failure : Option Failure) (_ : Path) (disk : Disk) : Ran :=
  if failure = some .createDir then
    (.error .createDir, disk)
  else
    (.ok (), disk)

/-- `std::fs::write`; what was in the file is gone once it is opened. -/
def write
    (failure : Option Failure)
    (site : Site)
    (path : Path)
    (bytes : List UInt8)
    (disk : Disk) :
    Ran :=
  if failure = some (.open site) then
    (.error (.open site), disk)
  else
    match failure with
    | some (.write failing room) =>
        if failing = site ∧ room < bytes.length then
          (.error (.write site room),
            Function.update disk path (some (bytes.take room)))
        else
          (.ok (), Function.update disk path (some bytes))
    | _ =>
        (.ok (), Function.update disk path (some bytes))

/-- The contents of the two files. -/
structure Pair where
  certPem : List UInt8
  keyPem : List UInt8
  deriving Repr, DecidableEq

/-- Where they are. -/
structure Paths where
  certPath : Path
  keyPath : Path

/-- The directory of a path; `parent` cuts it as the standard library does. -/
def createParent
    (parent : Path → Option Path)
    (failure : Option Failure)
    (path : Path)
    (disk : Disk) :
    Ran :=
  match parent path with
  | some directory =>
      createDirAll failure directory disk
  | none =>
      (.ok (), disk)

/-- `save_cert_files`. -/
def saveCertFiles
    (parent : Path → Option Path)
    (failure : Option Failure)
    (paths : Paths)
    (pair : Pair)
    (disk : Disk) :
    Ran :=
  ((createParent parent failure paths.certPath disk).andThen
    (write failure .cert paths.certPath pair.certPem)).andThen
    (write failure .key paths.keyPath pair.keyPem)

/-- The paths of the renewal. -/
def acmePaths (configDir : Option Path) (domain : Path) : Paths where
  certPath := acmeCertPath configDir domain
  keyPath := acmeKeyPath configDir domain

/-! ## What one call does -/

section Calls

variable
  {failure : Option Failure}
  {site : Site}
  {path : Path}
  {bytes : List UInt8}
  {disk : Disk}

/-- The write of a file is not the call that fails. -/
def Passes (site : Site) (bytes : List UInt8) : Option Failure → Prop
  | none | some .createDir =>
      True
  | some (.open failing) =>
      failing ≠ site
  | some (.write failing room) =>
      failing = site → bytes.length ≤ room

theorem write_of_passes (passes : Passes site bytes failure) :
    write failure site path bytes disk =
      (.ok (), Function.update disk path (some bytes)) := by
  rcases failure with _ | _ | failing | ⟨failing, room⟩
  · rfl
  · rfl
  · refine if_neg ?_
    rintro ⟨rfl⟩
    exact passes rfl
  · refine (if_neg (by simp)).trans (if_neg ?_)
    rintro ⟨isSite, isShort⟩
    exact Nat.not_le.mpr isShort (passes isSite)

theorem write_open :
    write (some (.open site)) site path bytes disk =
      (.error (.open site), disk) :=
  if_pos rfl

theorem write_cut {room : Nat} (isShort : room < bytes.length) :
    write (some (.write site room)) site path bytes disk =
      (.error (.write site room),
        Function.update disk path (some (bytes.take room))) := by
  have notOpen :
      some (Failure.write site room) ≠ some (.open site) := by
    intro isSame
    cases isSame
  rw [write, if_neg notOpen]
  exact if_pos ⟨rfl, isShort⟩

end Calls

/-! ## What is left on the disk -/

/-- The files hold the certificate and the key. -/
structure Holds (paths : Paths) (pair : Pair) (disk : Disk) : Prop where
  cert : disk paths.certPath = some pair.certPem
  key : disk paths.keyPath = some pair.keyPem

/-- What a call returns and leaves, in terms of the contents of the files. -/
def outcome (makesDir : Bool) (old new : Pair) :
    Option Failure → Except Failure Unit × Pair
  | none =>
      (.ok (), new)
  | some .createDir =>
      if makesDir then (.error .createDir, old) else (.ok (), new)
  | some (.open .cert) =>
      (.error (.open .cert), old)
  | some (.write .cert room) =>
      if room < new.certPem.length then
        (.error (.write .cert room),
          { old with certPem := new.certPem.take room })
      else
        (.ok (), new)
  | some (.open .key) =>
      (.error (.open .key), { old with certPem := new.certPem })
  | some (.write .key room) =>
      if room < new.keyPem.length then
        (.error (.write .key room),
          { new with keyPem := new.keyPem.take room })
      else
        (.ok (), new)

/-- The call does what the outcome says. -/
def Yields
    (paths : Paths)
    (expected : Except Failure Unit × Pair)
    (ran : Ran) :
    Prop :=
  ran.1 = expected.1 ∧ Holds paths expected.2 ran.2

section Outcome

variable
  {parent : Path → Option Path}
  {failure : Option Failure}
  {paths : Paths}
  {old new : Pair}
  {disk : Disk}

theorem Holds.writeCert
    (holds : Holds paths old disk)
    (apart : paths.certPath ≠ paths.keyPath)
    (bytes : List UInt8) :
    Holds paths { old with certPem := bytes }
      (Function.update disk paths.certPath (some bytes)) where
  cert := Function.update_self _ _ _
  key := by
    rw [Function.update_of_ne apart.symm]
    exact holds.key

theorem Holds.writeKey
    (holds : Holds paths old disk)
    (apart : paths.certPath ≠ paths.keyPath)
    (bytes : List UInt8) :
    Holds paths { old with keyPem := bytes }
      (Function.update disk paths.keyPath (some bytes)) where
  cert := by
    rw [Function.update_of_ne apart]
    exact holds.cert
  key := Function.update_self _ _ _

/-- Once the certificate is written, the key is. -/
theorem saveCertFiles_of_passes
    (made : createParent parent failure paths.certPath disk = (.ok (), disk))
    (cert : Passes .cert new.certPem failure) :
    saveCertFiles parent failure paths new disk =
      write failure .key paths.keyPath new.keyPem
        (Function.update disk paths.certPath (some new.certPem)) := by
  rw [saveCertFiles, made, Ran.andThen, write_of_passes cert]
  rfl

/-- An error of the certificate's file is the result. -/
theorem saveCertFiles_of_error
    {error : Failure}
    {after : Disk}
    (made : createParent parent failure paths.certPath disk = (.ok (), disk))
    (cert :
      write failure .cert paths.certPath new.certPem disk =
        (.error error, after)) :
    saveCertFiles parent failure paths new disk = (.error error, after) := by
  rw [saveCertFiles, made, Ran.andThen, cert]
  rfl

/-- Both files are written. -/
theorem yields_of_passes
    (holds : Holds paths old disk)
    (apart : paths.certPath ≠ paths.keyPath)
    (made : createParent parent failure paths.certPath disk = (.ok (), disk))
    (cert : Passes .cert new.certPem failure)
    (key : Passes .key new.keyPem failure) :
    Yields paths (.ok (), new)
      (saveCertFiles parent failure paths new disk) := by
  rw [saveCertFiles_of_passes made cert, write_of_passes key]
  exact ⟨rfl, (holds.writeCert apart new.certPem).writeKey apart new.keyPem⟩

theorem createParent_of_ne (other : failure ≠ some .createDir) :
    createParent parent failure paths.certPath disk = (.ok (), disk) := by
  rw [createParent]
  cases parent paths.certPath with
  | none =>
      rfl
  | some directory =>
      exact if_neg other

/-- The outcome if the directory is not made. -/
theorem yields_createDir
    (holds : Holds paths old disk)
    (apart : paths.certPath ≠ paths.keyPath) :
    Yields paths
      (outcome (parent paths.certPath).isSome old new (some .createDir))
      (saveCertFiles parent (some .createDir) paths new disk) := by
  cases isParent : parent paths.certPath with
  | none =>
      have made :
          createParent parent (some .createDir) paths.certPath disk =
            (.ok (), disk) := by
        rw [createParent, isParent]
      exact yields_of_passes holds apart made trivial trivial
  | some directory =>
      have fails :
          saveCertFiles parent (some .createDir) paths new disk =
            (.error .createDir, disk) := by
        rw [saveCertFiles, createParent, isParent]
        rfl
      rw [fails]
      exact ⟨rfl, holds⟩

/-- The outcome if a file cannot be opened. -/
theorem yields_open
    (holds : Holds paths old disk)
    (apart : paths.certPath ≠ paths.keyPath)
    (site : Site) :
    Yields paths
      (outcome (parent paths.certPath).isSome old new (some (.open site)))
      (saveCertFiles parent (some (.open site)) paths new disk) := by
  have made :
      createParent parent (some (.open site)) paths.certPath disk =
        (.ok (), disk) :=
    createParent_of_ne (by simp)
  cases site with
  | cert =>
      rw [saveCertFiles_of_error made write_open]
      exact ⟨rfl, holds⟩
  | key =>
      rw [saveCertFiles_of_passes made (by decide : Site.key ≠ .cert),
        write_open]
      exact ⟨rfl, holds.writeCert apart _⟩

/-- The outcome if a disk has room for some bytes of a file. -/
theorem yields_write
    (holds : Holds paths old disk)
    (apart : paths.certPath ≠ paths.keyPath)
    (site : Site)
    (room : Nat) :
    Yields paths
      (outcome (parent paths.certPath).isSome old new
        (some (.write site room)))
      (saveCertFiles parent (some (.write site room)) paths new disk) := by
  have made :
      createParent parent (some (.write site room)) paths.certPath disk =
        (.ok (), disk) :=
    createParent_of_ne (by simp)
  cases site with
  | cert =>
      rw [outcome]
      split
      case isTrue isShort =>
        rw [saveCertFiles_of_error made (write_cut isShort)]
        exact ⟨rfl, holds.writeCert apart _⟩
      case isFalse isLong =>
        exact yields_of_passes holds apart made
          (fun _ => Nat.not_lt.mp isLong)
          (fun isKey => absurd isKey (by decide))
  | key =>
      have cert : Passes .cert new.certPem (some (.write .key room)) :=
        fun isCert => absurd isCert (by decide)
      rw [outcome]
      split
      case isTrue isShort =>
        rw [saveCertFiles_of_passes made cert, write_cut isShort]
        exact ⟨rfl, (holds.writeCert apart _).writeKey apart _⟩
      case isFalse isLong =>
        exact yields_of_passes holds apart made cert
          (fun _ => Nat.not_lt.mp isLong)

/-- The outcome, for each call that can fail. -/
theorem yields_saveCertFiles
    (holds : Holds paths old disk)
    (apart : paths.certPath ≠ paths.keyPath) :
    Yields paths
      (outcome (parent paths.certPath).isSome old new failure)
      (saveCertFiles parent failure paths new disk) := by
  match failure with
  | none =>
      exact yields_of_passes holds apart (createParent_of_ne (by simp))
        trivial trivial
  | some .createDir =>
      exact yields_createDir holds apart
  | some (.open site) =>
      exact yields_open holds apart site
  | some (.write site room) =>
      exact yields_write holds apart site room

end Outcome

/-! ## Files that change together -/

/--
After an error the old pair is on the disk and otherwise the new one, so that
the certificate on the disk belongs to the key next to it.
-/
structure Together (paths : Paths) (old new : Pair) (ran : Ran) : Prop where
  failed : ∀ failure, ran.1 = .error failure → Holds paths old ran.2
  saved : ran.1 = .ok () → Holds paths new ran.2
  belongs :
    ∀ Belongs : List UInt8 → List UInt8 → Prop,
      Belongs old.certPem old.keyPem →
      Belongs new.certPem new.keyPem →
      ∃ pair, Holds paths pair ran.2 ∧ Belongs pair.certPem pair.keyPem

/--
A call whose failure leaves a pair as it was: from the opening of the
certificate on, only if what is written is what was there.
-/
def Harmless (old new : Pair) : Option Failure → Prop
  | none | some .createDir | some (.open .cert) =>
      True
  | some (.write .cert room) =>
      room < new.certPem.length → new.certPem.take room = old.certPem
  | some (.open .key) =>
      new.certPem = old.certPem
  | some (.write .key room) =>
      room < new.keyPem.length →
        new.certPem = old.certPem ∧ new.keyPem.take room = old.keyPem

section Together

variable {paths : Paths} {old new left : Pair} {disk : Disk} {ran : Ran}

theorem Holds.unique
    (first : Holds paths old disk)
    (second : Holds paths new disk) :
    old = new := by
  cases old
  cases new
  congr
  · exact Option.some.inj (first.cert.symm.trans second.cert)
  · exact Option.some.inj (first.key.symm.trans second.key)

/-- A call that returns an error has to leave the old pair. -/
theorem together_iff_of_error
    {failure : Failure}
    (yields : Yields paths (.error failure, left) ran) :
    Together paths old new ran ↔ left = old := by
  obtain ⟨isError, holds⟩ := yields
  constructor
  · intro together
    exact holds.unique (together.failed failure isError)
  · rintro rfl
    exact {
      failed := fun _ _ => holds
      saved := fun isOk => by
        rw [isError] at isOk
        cases isOk
      belongs := fun _ ofOld _ => ⟨left, holds, ofOld⟩ }

/-- A call that returns no error has to leave the new pair, and does. -/
theorem together_of_ok (yields : Yields paths (.ok (), new) ran) :
    Together paths old new ran := by
  obtain ⟨isOk, holds⟩ := yields
  exact {
    failed := fun _ isError => by
      rw [isOk] at isError
      cases isError
    saved := fun _ => holds
    belongs := fun _ _ ofNew => ⟨new, holds, ofNew⟩ }

/-- Of the outcomes those of harmless failures are wanted. -/
theorem together_iff_of_yields
    {makesDir : Bool}
    {failure : Option Failure}
    (yields : Yields paths (outcome makesDir old new failure) ran) :
    Together paths old new ran ↔ Harmless old new failure := by
  match failure with
  | none =>
      exact iff_of_true (together_of_ok yields) trivial
  | some .createDir =>
      refine iff_of_true ?_ trivial
      cases makesDir with
      | false =>
          exact together_of_ok yields
      | true =>
          exact (together_iff_of_error yields).mpr rfl
  | some (.open .cert) =>
      exact iff_of_true ((together_iff_of_error yields).mpr rfl) trivial
  | some (.open .key) =>
      rw [together_iff_of_error yields, Pair.mk.injEq]
      exact and_iff_left rfl
  | some (.write .cert room) =>
      rw [outcome] at yields
      split at yields
      case isTrue isShort =>
        rw [together_iff_of_error yields, Pair.mk.injEq, and_iff_left rfl,
          Harmless, imp_iff_right isShort]
      case isFalse isLong =>
        exact iff_of_true (together_of_ok yields)
          fun isShort => absurd isShort isLong
  | some (.write .key room) =>
      rw [outcome] at yields
      split at yields
      case isTrue isShort =>
        rw [together_iff_of_error yields, Pair.mk.injEq, Harmless,
          imp_iff_right isShort]
      case isFalse isLong =>
        exact iff_of_true (together_of_ok yields)
          fun isShort => absurd isShort isLong

/-- Two names behind one directory are two paths. -/
theorem join_injective
    {base first second : Path}
    (sameHead : first.head? = second.head?)
    (same : join base first = join base second) :
    first = second := by
  rw [join, join, joinPath, joinPath, sameHead] at same
  split at same
  · exact same
  · split at same
    · exact List.append_cancel_left same
    · exact List.tail_eq_of_cons_eq (List.append_cancel_left same)

theorem acmePaths_apart (configDir : Option Path) (domain : Path) :
    (acmePaths configDir domain).certPath ≠
      (acmePaths configDir domain).keyPath := by
  intro same
  rw [acmePaths, acmeCertPath, acmeKeyPath] at same
  have sameHead :
      (domain ++ ".crt".toList).head? = (domain ++ ".key".toList).head? := by
    cases domain with
    | nil =>
        simp
    | cons first rest =>
        rw [List.cons_append, List.cons_append, List.head?_cons,
          List.head?_cons]
  have sameEnd := List.append_cancel_left (join_injective sameHead same)
  exact absurd sameEnd (by decide)

end Together

/-- The files change together exactly if the failure is harmless. -/
theorem saveCertFiles_together_iff
    (configDir : Option Path)
    (domain : Path)
    (parent : Path → Option Path)
    (failure : Option Failure)
    (old new : Pair)
    (disk : Disk)
    (holds : Holds (acmePaths configDir domain) old disk) :
    Together (acmePaths configDir domain) old new
        (saveCertFiles parent failure (acmePaths configDir domain) new
          disk) ↔
      Harmless old new failure :=
  together_iff_of_yields
    (yields_saveCertFiles holds (acmePaths_apart configDir domain))

/-! ## A renewal -/

/-- The paths of one site. -/
def renewed : Paths :=
  acmePaths none "a.org".toList

/-- The certificate and the key that are in use. -/
def inUse : Pair :=
  ⟨[1], [1]⟩

/-- The ones that were issued. -/
def issued : Pair :=
  ⟨[2], [2]⟩

/-- The files before the renewal. -/
def beforeRenewal : Disk :=
  Function.update
    (Function.update (fun _ => none) renewed.certPath (some inUse.certPem))
    renewed.keyPath (some inUse.keyPem)

theorem holds_beforeRenewal : Holds renewed inUse beforeRenewal where
  cert := by
    have apart : renewed.certPath ≠ renewed.keyPath := acmePaths_apart none _
    rw [beforeRenewal, Function.update_of_ne apart, Function.update_self]
  key := by
    rw [beforeRenewal, Function.update_self]

/-- A renewal without a failure. -/
theorem saveCertFiles_together_iff_renewal :
    Together renewed inUse issued
        (saveCertFiles (fun _ => some "/etc/sweety/acme".toList) none renewed
          issued beforeRenewal) ↔
      Harmless inUse issued none :=
  saveCertFiles_together_iff none "a.org".toList _ none inUse issued
    beforeRenewal holds_beforeRenewal

/-- The key cannot be opened: the new certificate is next to the old key. -/
theorem renewal_mixes_pairs :
    ¬Together renewed inUse issued
        (saveCertFiles (fun _ => some "/etc/sweety/acme".toList)
          (some (.open .key)) renewed issued beforeRenewal) := by
  intro together
  have harmless : Harmless inUse issued (some (.open .key)) :=
    (together_iff_of_yields
      (yields_saveCertFiles holds_beforeRenewal
        (acmePaths_apart none _))).mp together
  exact absurd (show issued.certPem = inUse.certPem from harmless) (by decide)

end Sweety.SavedCertificate
