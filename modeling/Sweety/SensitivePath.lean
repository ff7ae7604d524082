import Sweety.HttpText
import Mathlib.Data.List.TakeWhile

namespace Sweety

open HttpText (byteLength toAsciiLowercase)

/-!
# The sensitive-path guard and the static file resolver

Model of `is_sensitive_path` in `middleware/security.rs` and of the part of
`resolve_safe_path_with_canon` in `handler/static_file/path.rs` that turns a
request path into the file path joined to the root.  Both read the same string:
the guard cuts it at `/`, the resolver first trims leading `/` and `\` and
leaves the cutting to the file system.
-/

/-- `SENSITIVE_SET`. -/
def sensitiveSet : List String :=
  [".git", ".env", ".env.local", ".env.production", ".env.staging",
    ".htaccess", ".htpasswd", ".ds_store",
    "composer.json", "composer.lock", "package.json", "package-lock.json",
    "yarn.lock", "makefile", "dockerfile", ".dockerignore",
    "wp-config.php", "config.php", ".ssh", ".aws",
    ".svn", ".hg", ".bzr", ".npmrc", ".yarnrc",
    "web.config", ".editorconfig", ".travis.yml",
    "gruntfile.js", "gulpfile.js", "webpack.config.js",
    ".gitignore", ".gitmodules"]

/-- A name of the sensitive set, in any letter case. -/
def isSensitiveName (segment : List Char) : Bool :=
  sensitiveSet.any fun name => name.toList == toAsciiLowercase segment

/-- The path without its query string. -/
def pathOnly (path : List Char) : List Char :=
  path.takeWhile (· != '?')

/-- `is_sensitive_path`. -/
def isSensitivePath (path : String) : Bool :=
  ((pathOnly path.toList).splitOn '/').any fun segment =>
    !segment.isEmpty &&
      !decide (128 < byteLength segment) &&
      isSensitiveName segment

/-- `/` or `\`. -/
def isSeparator (char : Char) : Bool :=
  char == '/' || char == '\\'

/-- Whether a path has a `..` segment between `/` or `\`. -/
def hasTraversal (path : List Char) : Bool :=
  (path.splitOnP isSeparator).contains ['.', '.']

/--
The text that `resolve_safe_path_with_canon` joins to the root, or `none` where
it refuses the path.
-/
def resolveRelative (path : String) : Option (List Char) :=
  if hasTraversal (pathOnly path.toList) then
    none
  else
    some ((pathOnly path.toList).dropWhile isSeparator)

/-- The components of a file path: cut at `/`, without empty ones and `.`. -/
def components (path : List Char) : List (List Char) :=
  (path.splitOn '/').filter fun segment =>
    !segment.isEmpty && segment != ['.']

/--
What the guard is for: what it lets through resolves to no sensitive name.
-/
def GuardCovers (path : String) : Prop :=
  isSensitivePath path = false →
    ∀ relative,
      resolveRelative path = some relative →
        ∀ component ∈ components relative,
          isSensitiveName component = false

/-! ## Sensitive names -/

/-- A sensitive name is one of the set after lowering its case. -/
theorem isSensitiveName_iff (segment : List Char) :
    isSensitiveName segment = true ↔
      ∃ name ∈ sensitiveSet, name.toList = toAsciiLowercase segment := by
  simp [isSensitiveName]

/-- Sensitive names are ASCII, short, and neither empty nor contain `\`. -/
theorem sensitiveSet_plain :
    ∀ name ∈ sensitiveSet,
      name.toList.length ≤ 17 ∧
        (∀ char ∈ name.toList, char.val < 128) ∧
        name.toList ≠ [] ∧
        '\\' ∉ name.toList := by
  have checked :
      sensitiveSet.all (fun name =>
        name.toList.length ≤ 17 &&
          name.toList.all (fun char => char.val < 128) &&
          !name.toList.isEmpty &&
          !name.toList.contains '\\') = true := by
    decide
  intro name member
  simpa [and_assoc] using List.all_eq_true.mp checked name member

/-- Lowering the case of a character to ASCII means that it was ASCII. -/
theorem utf8Size_of_toLower
    {char : Char}
    (ascii : char.toLower.val < 128) :
    char.utf8Size = 1 := by
  have small : char.val ≤ 0x7f := by
    unfold Char.toLower at ascii
    split at ascii
    · rename_i upper
      exact UInt32.le_trans upper.2 (by decide)
    · exact Nat.le_of_lt_succ ascii
  simp [Char.utf8Size, small]

/-- Names of the set are never skipped for their length. -/
theorem byteLength_of_isSensitiveName
    {segment : List Char}
    (sensitive : isSensitiveName segment = true) :
    byteLength segment ≤ 128 := by
  obtain ⟨name, member, isName⟩ :=
    (isSensitiveName_iff segment).mp sensitive
  obtain ⟨short, ascii, _, _⟩ := sensitiveSet_plain name member
  rw [isName] at short ascii
  have oneByte : ∀ char ∈ segment, char.utf8Size = 1 := by
    intro char inSegment
    exact utf8Size_of_toLower
      (ascii _ (List.mem_map_of_mem inSegment))
  have length : byteLength segment = segment.length := by
    rw [byteLength, List.map_congr_left oneByte, List.map_const',
      List.sum_replicate_nat, Nat.mul_one]
  rw [length]
  have sameLength : (toAsciiLowercase segment).length = segment.length :=
    List.length_map Char.toLower
  omega

/-- No name of the set contains a backslash. -/
theorem isSensitiveName_of_backslash
    {segment : List Char}
    (backslash : '\\' ∈ segment) :
    isSensitiveName segment = false := by
  by_contra sensitive
  obtain ⟨name, member, isName⟩ :=
    (isSensitiveName_iff segment).mp (by simpa using sensitive)
  have lowered : '\\' ∈ toAsciiLowercase segment :=
    List.mem_map_of_mem (f := Char.toLower) backslash
  rw [← isName] at lowered
  exact (sensitiveSet_plain name member).2.2.2 lowered

@[simp] theorem isSensitiveName_nil :
    isSensitiveName [] = false := by
  decide

@[simp] theorem isSensitiveName_dot :
    isSensitiveName ['.'] = false := by
  decide

theorem ne_nil_of_isSensitiveName
    {segment : List Char}
    (sensitive : isSensitiveName segment = true) :
    segment ≠ [] := by
  rintro rfl
  simp at sensitive

/-- The guard finds exactly the segments with a sensitive name. -/
theorem isSensitivePath_eq (path : String) :
    isSensitivePath path =
      ((pathOnly path.toList).splitOn '/').any isSensitiveName := by
  unfold isSensitivePath
  congr 1
  funext segment
  cases sensitive : isSensitiveName segment with
  | false =>
      simp
  | true =>
      have nonempty := ne_nil_of_isSensitiveName sensitive
      have short := byteLength_of_isSensitiveName sensitive
      simp [nonempty, short]

/-- Dropping empty components and `.` hides no sensitive name. -/
theorem components_any (path : List Char) :
    (components path).any isSensitiveName =
      (path.splitOn '/').any isSensitiveName := by
  rw [components, List.any_filter]
  congr 1
  funext segment
  cases sensitive : isSensitiveName segment with
  | false =>
      simp
  | true =>
      have nonempty := ne_nil_of_isSensitiveName sensitive
      have notDot : segment ≠ ['.'] := by
        rintro rfl
        simp at sensitive
      simp [nonempty, notDot]

/-! ## Leading separators -/

theorem splitOn_slash (rest : List Char) :
    ('/' :: rest).splitOn '/' = [] :: rest.splitOn '/' := by
  simp [List.splitOn_eq_splitOnP, List.splitOnP_cons_eq_if_modifyHead]

theorem splitOn_backslash (rest : List Char) :
    ('\\' :: rest).splitOn '/' =
      (rest.splitOn '/').modifyHead ('\\' :: ·) := by
  simp [List.splitOn_eq_splitOnP, List.splitOnP_cons_eq_if_modifyHead]

/-- A backslash glued to the first segment hides its name, no other one. -/
theorem any_splitOn_backslash (rest : List Char) :
    (('\\' :: rest).splitOn '/').any isSensitiveName =
      (rest.splitOn '/').tail.any isSensitiveName := by
  rw [splitOn_backslash]
  cases rest.splitOn '/' with
  | nil =>
      rfl
  | cons first others =>
      have hidden : isSensitiveName ('\\' :: first) = false :=
        isSensitiveName_of_backslash (by simp)
      simp [hidden]

/-- The sensitive segments of a path whose leading separators are `leading`. -/
theorem any_splitOn_leading
    (leading rest : List Char)
    (separators : ∀ char ∈ leading, isSeparator char = true) :
    ((leading ++ rest).splitOn '/').any isSensitiveName =
        (if leading.getLast? = some '\\' then
          (rest.splitOn '/').tail.any isSensitiveName
        else
          (rest.splitOn '/').any isSensitiveName) ∧
      ((leading ++ rest).splitOn '/').tail.any isSensitiveName =
        (if ('\\' :: leading).getLast? = some '\\' then
          (rest.splitOn '/').tail.any isSensitiveName
        else
          (rest.splitOn '/').any isSensitiveName) := by
  induction leading with
  | nil =>
      simp
  | cons char leading inductionHypothesis =>
      obtain ⟨whole, behind⟩ := inductionHypothesis
        fun other member => separators other (by simp [member])
      have isEither : char = '/' ∨ char = '\\' := by
        simpa [isSeparator] using separators char (by simp)
      rcases isEither with rfl | rfl
      · have sameEnd :
            ('/' :: leading).getLast? = some '\\' ↔
              leading.getLast? = some '\\' := by
          cases leading <;> simp
        rw [List.cons_append, splitOn_slash, List.getLast?_cons_cons]
        simp [sameEnd, whole]
      · rw [List.cons_append, any_splitOn_backslash, behind,
          splitOn_backslash, List.tail_modifyHead, behind,
          List.getLast?_cons_cons]
        exact ⟨rfl, rfl⟩

/-! ## When the guard covers the resolver -/

/-- The separators the resolver trims. -/
def leadingSeparators (path : String) : List Char :=
  (pathOnly path.toList).takeWhile isSeparator

/-- The segments of what the resolver keeps. -/
def keptSegments (path : String) : List (List Char) :=
  ((pathOnly path.toList).dropWhile isSeparator).splitOn '/'

/--
The trimmed separators end in a backslash, which the guard reads as part of the
first name; that name is sensitive, no later one is, and there is no `..`.
-/
def HidesFirstName (path : String) : Prop :=
  (leadingSeparators path).getLast? = some '\\' ∧
    (keptSegments path).head?.any isSensitiveName = true ∧
    (keptSegments path).tail.any isSensitiveName = false ∧
    hasTraversal (pathOnly path.toList) = false

instance (path : String) : Decidable (HidesFirstName path) :=
  inferInstanceAs (Decidable (_ ∧ _))

/-- The guard looks at all kept segments, or at all but the first. -/
theorem isSensitivePath_cases (path : String) :
    isSensitivePath path =
      if (leadingSeparators path).getLast? = some '\\' then
        (keptSegments path).tail.any isSensitiveName
      else
        (keptSegments path).any isSensitiveName := by
  have split :
      pathOnly path.toList =
        leadingSeparators path ++
          (pathOnly path.toList).dropWhile isSeparator :=
    List.takeWhile_append_dropWhile.symm
  rw [isSensitivePath_eq, split]
  apply (any_splitOn_leading _ _ _).1
  intro char member
  exact List.mem_takeWhile_imp member

/-- Without a `..` the guard covers a path iff it flags its sensitive names. -/
theorem guardCovers_iff
    {path : String}
    (noTraversal : hasTraversal (pathOnly path.toList) = false) :
    GuardCovers path ↔
      (isSensitivePath path = false →
        (keptSegments path).any isSensitiveName = false) := by
  have resolved :
      resolveRelative path =
        some ((pathOnly path.toList).dropWhile isSeparator) := by
    simp [resolveRelative, noTraversal]
  unfold GuardCovers keptSegments
  rw [resolved, ← components_any, List.any_eq_false]
  simp

/--
The guard covers the resolver on a path exactly when the path does not hide its
first name behind a leading backslash.
-/
theorem guardCovers_iff_not_hidesFirstName (path : String) :
    GuardCovers path ↔ ¬ HidesFirstName path := by
  cases traversal : hasTraversal (pathOnly path.toList) with
  | true =>
      have refused : resolveRelative path = none := by
        simp [resolveRelative, traversal]
      have covers : GuardCovers path := by
        intro _ relative isRelative
        rw [refused] at isRelative
        cases isRelative
      have visible : ¬ HidesFirstName path := by
        rintro ⟨_, _, _, noTraversal⟩
        rw [traversal] at noTraversal
        cases noTraversal
      exact iff_of_true covers visible
  | false =>
      rw [guardCovers_iff traversal, isSensitivePath_cases,
        HidesFirstName]
      by_cases backslash :
          (leadingSeparators path).getLast? = some '\\'
      · -- The guard sees the later names only.
        cases kept : keptSegments path with
        | nil =>
            simp
        | cons first later =>
            cases sensitive : isSensitiveName first <;>
              simp [backslash, sensitive, traversal]
      · simp [backslash]

/-- A request for `/\.env` passes the guard and is resolved to `.env`. -/
theorem guard_misses_backslash_env :
    isSensitivePath "/\\.env" = false ∧
      resolveRelative "/\\.env" = some ".env".toList ∧
      ".env".toList ∈ components ".env".toList ∧
      isSensitiveName ".env".toList = true ∧
      ¬ GuardCovers "/\\.env" := by
  have passes : isSensitivePath "/\\.env" = false := by
    decide
  have resolves :
      resolveRelative "/\\.env" = some ".env".toList := by
    decide
  have isComponent : ".env".toList ∈ components ".env".toList := by
    decide
  have sensitive : isSensitiveName ".env".toList = true := by
    decide
  refine ⟨passes, resolves, isComponent, sensitive, ?_⟩
  intro covers
  have hidden := covers passes _ resolves _ isComponent
  rw [sensitive] at hidden
  cases hidden

end Sweety
