import Sweety.Router

namespace Sweety.ScriptSplit

open FirstOccurrence Router

/-!
# Where the script ends in a path

`split_script_path` should cut a path behind the first segment that ends in
`.php`.  It looks at the first `.php` of the path alone, so a path whose first
`.php` stands inside a segment goes to `/index.php`, whatever follows.
-/

/-- A segment of a path, with what stands before and behind it. -/
structure IsSegment (path front segment back : List Char) : Prop where
  isPath : path = front ++ (segment ++ back)
  noSlash : '/' ∉ segment
  begins : front = [] ∨ ∃ lead, front = lead ++ ['/']
  ends : back = [] ∨ ∃ rest, back = '/' :: rest

/-- The segment is a script. -/
def IsScript (segment : List Char) : Prop :=
  ".php".toList <:+ segment

/-- Some segment of the path is a script. -/
def HasScript (path : List Char) : Prop :=
  ∃ front segment back,
    IsSegment path front segment back ∧ IsScript segment

/-- The path is cut behind its first script, if it has one. -/
structure FindsScript (path : List Char) : Prop where
  found :
    HasScript path →
      ∃ front segment back,
        IsSegment path front segment back ∧
          IsScript segment ∧
          (∀ otherFront other otherBack,
            IsSegment path otherFront other otherBack →
              IsScript other →
                front.length + segment.length ≤
                  otherFront.length + other.length) ∧
          splitScriptPath path = (front ++ segment, back)
  fallback :
    ¬HasScript path →
      splitScriptPath path = ("/index.php".toList, path)

/-- The first `.php` of the path stands at the end of a segment. -/
def FirstEnds (path : List Char) : Prop :=
  ∃ index,
    position? ".php".toList path = some index ∧
      (index + 4 = path.length ∨ path[index + 4]? = some '/')

variable {path : List Char} {index : Nat}

/-! ## Scripts and places -/

/-- A script ends where `.php` stands before a slash or the end. -/
structure ScriptAt (path : List Char) (index : Nat) : Prop where
  stands : StandsAt ".php".toList path index
  ends : index + 4 = path.length ∨ path[index + 4]? = some '/'

/-- A text is cut behind its last slash. -/
theorem exists_last_slash (text : List Char) :
    ∃ front name,
      text = front ++ name ∧ '/' ∉ name ∧
        (front = [] ∨ ∃ lead, front = lead ++ ['/']) := by
  induction text using List.reverseRecOn with
  | nil =>
      exact ⟨[], [], rfl, List.not_mem_nil, .inl rfl⟩
  | append_singleton text char inductionHypothesis =>
      by_cases isSlash : char = '/'
      · refine ⟨text ++ [char], [], (List.append_nil _).symm,
          List.not_mem_nil, .inr ⟨text, ?_⟩⟩
        rw [isSlash]
      · obtain ⟨front, name, isText, noSlash, begins⟩ := inductionHypothesis
        refine ⟨front, name ++ [char], ?_, ?_, begins⟩
        · rw [isText, List.append_assoc]
        · rw [List.mem_append, List.mem_singleton, not_or]
          exact ⟨noSlash, Ne.symm isSlash⟩

/-- What follows an index is nothing or begins with a slash. -/
theorem ends_iff {before after : List Char} :
    (before.length = (before ++ after).length ∨
        (before ++ after)[before.length]? = some '/') ↔
      (after = [] ∨ ∃ rest, after = '/' :: rest) := by
  rw [List.getElem?_append_right (Nat.le_refl _), Nat.sub_self]
  cases after with
  | nil =>
      simp
  | cons char rest =>
      simp

/-- Where a script ends, a segment ends that is one. -/
theorem ScriptAt.segment (script : ScriptAt path index) :
    ∃ front segment back,
      IsSegment path front segment back ∧ IsScript segment ∧
        front.length + segment.length = index + 4 := by
  obtain ⟨before, after, isPath, isIndex⟩ :=
    standsAt_iff_exists.mp script.stands
  have isStop : index + 4 = (before ++ ".php".toList).length := by
    rw [List.length_append, isIndex]
    rfl
  have ends := script.ends
  rw [← List.append_assoc] at isPath
  rw [isStop, isPath] at ends
  obtain ⟨front, name, isBefore, noSlash, begins⟩ := exists_last_slash before
  refine ⟨front, name ++ ".php".toList, after, ⟨?_, ?_, begins, ?_⟩,
    List.suffix_append _ _, ?_⟩
  · rw [isPath, isBefore]
    simp only [List.append_assoc]
  · rw [List.mem_append, not_or]
    exact ⟨noSlash, by decide⟩
  · exact ends_iff.mp ends
  · rw [isStop, isBefore]
    simp only [List.length_append, Nat.add_assoc]

/-- Where a segment ends that is a script, a script ends. -/
theorem IsSegment.scriptAt
    {front segment back : List Char}
    (isSegment : IsSegment path front segment back)
    (isScript : IsScript segment) :
    ∃ index,
      ScriptAt path index ∧
        front.length + segment.length = index + 4 := by
  obtain ⟨name, rfl⟩ := isScript
  have isPath :
      path = front ++ name ++ (".php".toList ++ back) := by
    rw [isSegment.isPath]
    simp only [List.append_assoc]
  have stands : StandsAt ".php".toList path (front ++ name).length :=
    standsAt_iff_exists.mpr ⟨front ++ name, back, isPath, rfl⟩
  have isStop :
      (front ++ name).length + 4 =
        (front ++ name ++ ".php".toList).length := by
    simp only [List.length_append]
    rfl
  refine ⟨(front ++ name).length, ⟨stands, ?_⟩, ?_⟩
  · rw [isStop, isPath, ← List.append_assoc]
    exact ends_iff.mpr isSegment.ends
  · simp only [List.length_append, Nat.add_assoc]
    rfl

/-- A path is cut in one way only behind an index. -/
theorem IsSegment.eq_take
    {front segment back : List Char}
    (isSegment : IsSegment path front segment back)
    {stop : Nat}
    (isStop : front.length + segment.length = stop) :
    path.take stop = front ++ segment ∧ path.drop stop = back := by
  rw [isSegment.isPath, ← List.append_assoc, ← isStop,
    ← List.length_append]
  exact ⟨List.take_left, List.drop_left⟩

/-! ## What the function does -/

/-- A path whose first `.php` ends a segment is cut there. -/
theorem splitScriptPath_of_ends
    (isPlace : position? ".php".toList path = some index)
    (ends : index + 4 = path.length ∨ path[index + 4]? = some '/') :
    splitScriptPath path =
      (path.take (index + 4), path.drop (index + 4)) := by
  rw [splitScriptPath, isPlace]
  exact if_pos ends

/-- Any other path goes to `/index.php`. -/
theorem splitScriptPath_of_not_firstEnds
    (notEnds : ¬FirstEnds path) :
    splitScriptPath path = ("/index.php".toList, path) := by
  rw [splitScriptPath]
  cases isPlace : position? ".php".toList path with
  | none =>
      rfl
  | some index =>
      exact if_neg fun ends => notEnds ⟨index, isPlace, ends⟩

/-- The fallback is no cut of the path. -/
theorem fallback_ne
    {front segment back : List Char}
    (isSegment : IsSegment path front segment back) :
    ("/index.php".toList, path) ≠ (front ++ segment, back) := by
  intro same
  obtain ⟨isScript, isBack⟩ := Prod.mk.inj same
  have isPath := isSegment.isPath
  rw [← List.append_assoc, ← isScript, ← isBack] at isPath
  have lengths := congrArg List.length isPath
  rw [List.length_append] at lengths
  have isLength : "/index.php".toList.length = 10 := rfl
  omega

/--
The script is found exactly when the path has none, or its first `.php` stands
at the end of a segment.
-/
theorem findsScript_iff (path : List Char) :
    FindsScript path ↔ ¬HasScript path ∨ FirstEnds path := by
  constructor
  · intro finds
    by_cases hasScript : HasScript path
    · right
      by_contra notEnds
      obtain ⟨front, segment, back, isSegment, _, _, isSplit⟩ :=
        finds.found hasScript
      rw [splitScriptPath_of_not_firstEnds notEnds] at isSplit
      exact fallback_ne isSegment isSplit
    · exact .inl hasScript
  · intro condition
    by_cases firstEnds : FirstEnds path
    · obtain ⟨index, isPlace, ends⟩ := firstEnds
      obtain ⟨stands, first⟩ := position?_eq_some_iff.mp isPlace
      have script : ScriptAt path index := ⟨stands, ends⟩
      obtain ⟨front, segment, back, isSegment, isScript, isStop⟩ :=
        script.segment
      constructor
      · intro _
        refine ⟨front, segment, back, isSegment, isScript, ?_, ?_⟩
        · intro otherFront other otherBack isOther otherScript
          obtain ⟨otherIndex, scriptAt, otherStop⟩ :=
            isOther.scriptAt otherScript
          have notBefore : ¬otherIndex < index :=
            fun before => first otherIndex before scriptAt.stands
          omega
        · rw [splitScriptPath_of_ends isPlace ends]
          obtain ⟨isFront, isBack⟩ := isSegment.eq_take isStop
          rw [isFront, isBack]
      · intro noScript
        exact absurd ⟨front, segment, back, isSegment, isScript⟩ noScript
    · have noScript := condition.resolve_right firstEnds
      exact ⟨fun hasScript => absurd hasScript noScript,
        fun _ => splitScriptPath_of_not_firstEnds firstEnds⟩

/-- The second segment is a script, the first one only has `.php` in it. -/
theorem script_missed :
    ¬ ∀ path, FindsScript path := by
  intro claimed
  have isSegment :
      IsSegment "/a.phpx/b.php".toList "/a.phpx/".toList "b.php".toList
        [] :=
    ⟨rfl, by decide, .inr ⟨"/a.phpx".toList, rfl⟩, .inl rfl⟩
  have isScript : IsScript "b.php".toList := ⟨"b".toList, rfl⟩
  obtain ⟨front, segment, back, isOther, _, _, isSplit⟩ :=
    (claimed "/a.phpx/b.php".toList).found
      ⟨_, _, _, isSegment, isScript⟩
  have fallsBack :
      splitScriptPath "/a.phpx/b.php".toList =
        ("/index.php".toList, "/a.phpx/b.php".toList) := by
    decide
  rw [fallsBack] at isSplit
  exact fallback_ne isOther isSplit

end Sweety.ScriptSplit
