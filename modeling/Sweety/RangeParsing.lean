import Sweety.StaticCache

namespace Sweety.StaticCache

open HttpText

/-!
# Single byte ranges

A `Range` header asks for one range of a file in three forms.  `parse_range`
reads the number behind the dash of a suffix as the last byte too, and refuses a
range whose last byte is behind the end of the file.
-/

/-! ## Ranges -/

/-- The three forms of a range. -/
inductive ByteRange where
  | between (first last : Nat)
  | starting (first : Nat)
  | suffix (length : Nat)
  deriving Repr, DecidableEq

/-- The first and the last byte that are asked for, if any is there. -/
def ByteRange.bytes? (fileSize : Nat) : ByteRange → Option (Nat × Nat)
  | .between first last =>
      if first ≤ last ∧ first < fileSize then
        some (first, min last (fileSize - 1))
      else
        none
  | .starting first =>
      if first < fileSize then
        some (first, fileSize - 1)
      else
        none
  | .suffix length =>
      if 0 < length ∧ 0 < fileSize then
        some (fileSize - length, fileSize - 1)
      else
        none

/-- The first and the last byte that the code works out. -/
def ByteRange.parsed (fileSize : Nat) : ByteRange → Nat × Nat
  | .between first last =>
      (first, last)
  | .starting first =>
      (first, fileSize - 1)
  | .suffix length =>
      (fileSize - length, length)

/-- A range that the code takes to be one of the file. -/
def ByteRange.Taken (fileSize : Nat) : ByteRange → Prop
  | .between first last =>
      first ≤ last ∧ last < fileSize
  | .starting first =>
      first < fileSize
  | .suffix length =>
      length < fileSize ∧ fileSize ≤ 2 * length

theorem ByteRange.taken_iff {fileSize : Nat} {range : ByteRange} :
    range.Taken fileSize ↔
      (range.parsed fileSize).1 ≤ (range.parsed fileSize).2 ∧
        (range.parsed fileSize).2 < fileSize := by
  cases range with
  | between first last =>
      rfl
  | starting first =>
      simp only [Taken, parsed]
      omega
  | suffix length =>
      simp only [Taken, parsed]
      omega

/--
The code takes the bytes that are asked for: the last one is in the file, and a
suffix leaves exactly one byte out.
-/
def ByteRange.Fits (fileSize : Nat) : ByteRange → Prop
  | .between first last =>
      last < first ∨ fileSize ≤ first ∨ last < fileSize
  | .starting _ =>
      True
  | .suffix length =>
      length = 0 ∨ fileSize = 0 ∨ length + 1 = fileSize

/-! ## Notation -/

/-- A range written in two parts, with a notation for numbers. -/
inductive Form
    (isEmpty : List Char → Prop)
    (isNumber : List Char → Nat → Prop)
    (front rest : List Char) :
    ByteRange → Prop where
  | between
      {first last : Nat}
      (isFirst : isNumber front first)
      (isLast : isNumber rest last) :
      Form isEmpty isNumber front rest (.between first last)
  | starting
      {first : Nat}
      (isFirst : isNumber front first)
      (noLast : isEmpty rest) :
      Form isEmpty isNumber front rest (.starting first)
  | suffix
      {length : Nat}
      (noFirst : isEmpty front)
      (isLength : isNumber rest length) :
      Form isEmpty isNumber front rest (.suffix length)

/-- The two parts of a header, around its first dash. -/
structure Parts (header front rest : List Char) : Prop where
  isHeader : header = "bytes=".toList ++ (front ++ '-' :: rest)
  noDash : '-' ∉ front

/-- The header asks for a range, in the notation of the protocol. -/
def AsksFor (header : List Char) (range : ByteRange) : Prop :=
  ∃ front rest,
    Parts header front rest ∧ Form (· = []) Decimal front rest range

/--
The header asks for a range if blanks around its numbers are left out and a plus
sign before them.
-/
def ReadsAs (header : List Char) (range : ByteRange) : Prop :=
  ∃ front rest,
    Parts header front rest ∧
      Form (fun text => trim text = [])
        (fun text value => parseUsize? (trim text) = some value)
        front rest range

section Reading

variable
  {header : List Char}
  {fileSize : Nat}

theorem Parts.unique
    {front rest otherFront otherRest : List Char}
    (parts : Parts header front rest)
    (others : Parts header otherFront otherRest) :
    front = otherFront ∧ rest = otherRest := by
  have same := parts.isHeader.symm.trans others.isHeader
  rw [List.append_cancel_left_eq] at same
  have split := congrArg (splitOnce? '-') same
  rw [splitOnce?_append parts.noDash, splitOnce?_append others.noDash]
    at split
  cases split
  exact ⟨rfl, rfl⟩

/-- What the code makes of the two parts. -/
theorem parseRange_of_parts
    {front rest : List Char}
    (parts : Parts header front rest) :
    parseRange header fileSize =
      ((if (trim front).isEmpty then
          (parseUsize? (trim rest)).map fun suffix => fileSize - suffix
        else
          parseUsize? (trim front)).bind fun start =>
        (if (trim rest).isEmpty then
            some (fileSize - 1)
          else
            parseUsize? (trim rest)).bind fun last =>
          if last < start ∨ fileSize ≤ last then
            none
          else
            some (start, last)) := by
  have isDropped :
      header.dropPrefix? "bytes=".toList = some (front ++ '-' :: rest) :=
    dropPrefix?_eq_some_iff_append.mpr parts.isHeader
  rw [parseRange, isDropped, Option.bind_some,
    splitOnce?_append parts.noDash]
  rfl

theorem parts_of_parseRange
    {bytes : Nat × Nat}
    (isParsed : parseRange header fileSize = some bytes) :
    ∃ front rest, Parts header front rest := by
  obtain ⟨text, isText, isParsed⟩ := Option.bind_eq_some_iff.mp isParsed
  obtain ⟨parts, isSplit, -⟩ := Option.bind_eq_some_iff.mp isParsed
  obtain ⟨rfl, noDash⟩ := splitOnce?_eq_some_iff.mp isSplit
  have isHeader := dropPrefix?_eq_some_iff_append.mp isText
  exact ⟨parts.1, parts.2, isHeader, noDash⟩

/-- The code reads a range and checks that it is one of the file. -/
theorem parseRange_eq_some_iff
    {bytes : Nat × Nat} :
    parseRange header fileSize = some bytes ↔
      ∃ range,
        ReadsAs header range ∧ range.Taken fileSize ∧
          range.parsed fileSize = bytes := by
  have checked (start last : Nat) :
      (if last < start ∨ fileSize ≤ last then none else some (start, last)) =
          some bytes ↔
        (start ≤ last ∧ last < fileSize) ∧ (start, last) = bytes := by
    by_cases refused : last < start ∨ fileSize ≤ last
    · rw [if_pos refused]
      constructor
      · nofun
      · rintro ⟨⟨inOrder, within⟩, -⟩
        omega
    · rw [if_neg refused, Option.some.injEq]
      constructor
      · intro same
        exact ⟨by omega, same⟩
      · intro both
        exact both.2
  constructor
  · intro isParsed
    obtain ⟨front, rest, parts⟩ := parts_of_parseRange isParsed
    rw [parseRange_of_parts parts] at isParsed
    obtain ⟨start, isStart, isParsed⟩ := Option.bind_eq_some_iff.mp isParsed
    obtain ⟨last, isLast, isParsed⟩ := Option.bind_eq_some_iff.mp isParsed
    obtain ⟨taken, isBytes⟩ := (checked start last).mp isParsed
    by_cases noFirst : (trim front).isEmpty = true
    · rw [if_pos noFirst] at isStart
      obtain ⟨length, isLength, rfl⟩ := Option.map_eq_some_iff.mp isStart
      have someLast : ¬(trim rest).isEmpty = true := by
        intro noLast
        rw [List.isEmpty_iff.mp noLast] at isLength
        nomatch isLength
      rw [if_neg someLast, isLength] at isLast
      cases isLast
      exact ⟨.suffix last,
        ⟨front, rest, parts, .suffix (List.isEmpty_iff.mp noFirst) isLength⟩,
        ByteRange.taken_iff.mpr taken, isBytes⟩
    · rw [if_neg noFirst] at isStart
      by_cases noLast : (trim rest).isEmpty = true
      · rw [if_pos noLast] at isLast
        cases isLast
        exact ⟨.starting start,
          ⟨front, rest, parts,
            .starting isStart (List.isEmpty_iff.mp noLast)⟩,
          ByteRange.taken_iff.mpr taken, isBytes⟩
      · rw [if_neg noLast] at isLast
        exact ⟨.between start last,
          ⟨front, rest, parts, .between isStart isLast⟩, taken, isBytes⟩
  · rintro ⟨range, ⟨front, rest, parts, form⟩, taken, isBytes⟩
    have inBounds := ByteRange.taken_iff.mp taken
    have nonempty {text : List Char} {value : Nat}
        (isNumber : parseUsize? (trim text) = some value) :
        ¬(trim text).isEmpty = true := by
      intro isEmpty
      rw [List.isEmpty_iff.mp isEmpty] at isNumber
      nomatch isNumber
    rw [parseRange_of_parts parts]
    cases form with
    | between isFirst isLast =>
        rw [if_neg (nonempty isFirst), if_neg (nonempty isLast), isFirst,
          isLast]
        exact (checked _ _).mpr ⟨inBounds, isBytes⟩
    | starting isFirst noLast =>
        rw [if_neg (nonempty isFirst), if_pos (List.isEmpty_iff.mpr noLast),
          isFirst]
        exact (checked _ _).mpr ⟨inBounds, isBytes⟩
    | suffix noFirst isLength =>
        rw [if_pos (List.isEmpty_iff.mpr noFirst),
          if_neg (nonempty isLength), isLength]
        exact (checked _ _).mpr ⟨inBounds, isBytes⟩

end Reading

/-! ## The two notations -/

section Notation

variable
  {header : List Char}
  {range other : ByteRange}

/-- A range that is asked for is read as no other. -/
theorem AsksFor.eq_of_readsAs
    (asks : AsksFor header range)
    (reads : ReadsAs header other) :
    other = range := by
  obtain ⟨front, rest, parts, form⟩ := asks
  obtain ⟨otherFront, otherRest, otherParts, otherForm⟩ := reads
  obtain ⟨rfl, rfl⟩ := parts.unique otherParts
  have emptyNumber
      {value : Nat}
      (isNumber : parseUsize? (trim []) = some value) :
      False := by
    nomatch isNumber
  cases form with
  | between isFirst isLast =>
      cases otherForm with
      | between otherFirst otherLast =>
          rw [isFirst.eq_of_parseUsize? otherFirst,
            isLast.eq_of_parseUsize? otherLast]
      | starting otherFirst noLast =>
          rw [isLast.trim_eq] at noLast
          exact absurd noLast isLast.nonempty
      | suffix noFirst otherLength =>
          rw [isFirst.trim_eq] at noFirst
          exact absurd noFirst isFirst.nonempty
  | starting isFirst noLast =>
      subst noLast
      cases otherForm with
      | between otherFirst otherLast =>
          exact (emptyNumber otherLast).elim
      | starting otherFirst _ =>
          rw [isFirst.eq_of_parseUsize? otherFirst]
      | suffix _ otherLength =>
          exact (emptyNumber otherLength).elim
  | suffix noFirst isLength =>
      subst noFirst
      cases otherForm with
      | between otherFirst otherLast =>
          exact (emptyNumber otherFirst).elim
      | starting otherFirst _ =>
          exact (emptyNumber otherFirst).elim
      | suffix _ otherLength =>
          rw [isLength.eq_of_parseUsize? otherLength]

end Notation

/-! ## The law of the ranges -/

/-- Ranges are parsed as the protocol asks, and cut out of the file. -/
structure RangesHonoured (header : List Char) (fileSize : Nat) : Prop where
  /-- The bytes that are asked for are found, and no others. -/
  asked :
    ∀ bytes,
      parseRange header fileSize = some bytes ↔
        ∃ range, AsksFor header range ∧ range.bytes? fileSize = some bytes
  /-- The bytes that are found are in the file. -/
  within :
    ∀ start last, parseRange header fileSize = some (start, last) →
      start ≤ last ∧ last < fileSize
  /-- The answer from an entry has as many bytes as it says. -/
  sliced :
    ∀ (entry : FileCacheEntry) start last,
      entry.data.length = fileSize →
        parseRange header fileSize = some (start, last) →
          (partialResponse entry start last).body.length = last - start + 1

/--
The condition: a range that is asked for fits, and what is read as a range only
without its blanks and plus signs is not taken.
-/
structure Plain (header : List Char) (fileSize : Nat) : Prop where
  fits : ∀ range, AsksFor header range → range.Fits fileSize
  refused :
    ∀ range, ReadsAs header range → range.Taken fileSize →
      ∃ asked, AsksFor header asked

section Law

variable
  {header : List Char}
  {fileSize : Nat}
  {range : ByteRange}

/-- Where a range fits, the code and the protocol agree on it. -/
theorem ByteRange.bytes?_eq_some_iff
    {bytes : Nat × Nat}
    (fits : range.Fits fileSize) :
    range.bytes? fileSize = some bytes ↔
      range.Taken fileSize ∧ range.parsed fileSize = bytes := by
  cases range with
  | between first last =>
      rw [bytes?]
      by_cases taken : first ≤ last ∧ last < fileSize
      · have isLast : min last (fileSize - 1) = last :=
          Nat.min_eq_left (by omega)
        rw [if_pos ⟨taken.1, by omega⟩, isLast, Option.some.injEq]
        exact ⟨fun same => ⟨taken, same⟩, fun both => both.2⟩
      · rw [if_neg (by simp only [Fits] at fits; omega)]
        exact ⟨nofun, fun both => absurd both.1 taken⟩
  | starting first =>
      rw [bytes?]
      by_cases within : first < fileSize
      · rw [if_pos within, Option.some.injEq]
        constructor
        · intro same
          refine ⟨?_, same⟩
          simp only [Taken]
          omega
        · intro both
          exact both.2
      · rw [if_neg within]
        refine ⟨nofun, fun both => ?_⟩
        have taken := both.1
        simp only [Taken] at taken
        omega
  | suffix length =>
      simp only [Fits] at fits
      rw [bytes?]
      by_cases some_ : 0 < length ∧ 0 < fileSize
      · have isLast : fileSize - 1 = length := by
          omega
        rw [if_pos some_, isLast, Option.some.injEq]
        constructor
        · intro same
          refine ⟨?_, same⟩
          simp only [Taken]
          omega
        · intro both
          exact both.2
      · rw [if_neg some_]
        refine ⟨nofun, fun both => ?_⟩
        have taken := both.1
        simp only [Taken] at taken
        omega

/-- Where the protocol and the code give the same bytes, the range fits. -/
theorem ByteRange.fits_of_same
    (same : ∀ bytes, range.bytes? fileSize = some bytes →
      range.Taken fileSize ∧ range.parsed fileSize = bytes) :
    range.Fits fileSize := by
  cases range with
  | between first last =>
      rw [Fits]
      by_cases asked : first ≤ last ∧ first < fileSize
      · have taken := (same _ (if_pos asked)).1
        simp only [Taken] at taken
        omega
      · omega
  | starting first =>
      trivial
  | suffix length =>
      rw [Fits]
      by_cases asked : 0 < length ∧ 0 < fileSize
      · have isBytes := (same _ (if_pos asked)).2
        have isLast : length = fileSize - 1 :=
          congrArg Prod.snd isBytes
        omega
      · omega

/-- The numbers of a range that fits and is there are read. -/
theorem AsksFor.readsAs
    {bytes : Nat × Nat}
    (small : fileSize < 2 ^ 64)
    (asks : AsksFor header range)
    (fits : range.Fits fileSize)
    (isThere : range.bytes? fileSize = some bytes) :
    ReadsAs header range := by
  obtain ⟨front, rest, parts, form⟩ := asks
  have taken := ((ByteRange.bytes?_eq_some_iff fits).mp isThere).1
  refine ⟨front, rest, parts, ?_⟩
  cases form with
  | between isFirst isLast =>
      simp only [ByteRange.Taken] at taken
      exact .between (isFirst.parseUsize?_eq (by omega))
        (isLast.parseUsize?_eq (by omega))
  | starting isFirst noLast =>
      simp only [ByteRange.Taken] at taken
      subst noLast
      exact .starting (isFirst.parseUsize?_eq (by omega)) rfl
  | suffix noFirst isLength =>
      simp only [ByteRange.Taken] at taken
      subst noFirst
      exact .suffix rfl (isLength.parseUsize?_eq (by omega))

theorem within_of_parseRange
    {start last : Nat}
    (isParsed : parseRange header fileSize = some (start, last)) :
    start ≤ last ∧ last < fileSize := by
  obtain ⟨range, -, taken, isBytes⟩ := parseRange_eq_some_iff.mp isParsed
  rw [ByteRange.taken_iff, isBytes] at taken
  exact taken

theorem length_partialResponse
    {entry : FileCacheEntry}
    {start last : Nat}
    (inOrder : start ≤ last)
    (within : last < entry.data.length) :
    (partialResponse entry start last).body.length = last - start + 1 := by
  rw [partialResponse, List.length_take, List.length_drop]
  omega

theorem rangesHonoured_of_plain
    (small : fileSize < 2 ^ 64)
    (plain : Plain header fileSize) :
    RangesHonoured header fileSize := by
  constructor
  · intro bytes
    rw [parseRange_eq_some_iff]
    constructor
    · rintro ⟨range, reads, taken, isBytes⟩
      obtain ⟨asked, asks⟩ := plain.refused range reads taken
      have same := asks.eq_of_readsAs reads
      subst same
      exact ⟨range, asks,
        (ByteRange.bytes?_eq_some_iff (plain.fits range asks)).mpr
          ⟨taken, isBytes⟩⟩
    · rintro ⟨range, asks, isThere⟩
      have fits := plain.fits range asks
      exact ⟨range, asks.readsAs small fits isThere,
        (ByteRange.bytes?_eq_some_iff fits).mp isThere⟩
  · intro start last isParsed
    exact within_of_parseRange isParsed
  · rintro entry start last rfl isParsed
    obtain ⟨inOrder, within⟩ := within_of_parseRange isParsed
    exact length_partialResponse inOrder within

theorem plain_of_rangesHonoured
    (honoured : RangesHonoured header fileSize) :
    Plain header fileSize := by
  constructor
  · intro range asks
    apply ByteRange.fits_of_same
    intro bytes isThere
    have isParsed := (honoured.asked bytes).mpr ⟨range, asks, isThere⟩
    obtain ⟨read, reads, taken, isBytes⟩ :=
      parseRange_eq_some_iff.mp isParsed
    rw [asks.eq_of_readsAs reads] at taken isBytes
    exact ⟨taken, isBytes⟩
  · intro range reads taken
    have isParsed := parseRange_eq_some_iff.mpr ⟨range, reads, taken, rfl⟩
    obtain ⟨asked, asks, -⟩ := (honoured.asked _).mp isParsed
    exact ⟨asked, asks⟩

/-- Ranges are honoured exactly for the headers of the condition. -/
theorem rangesHonoured_iff (header : List Char) (fileSize : UInt64) :
    RangesHonoured header fileSize.toNat ↔ Plain header fileSize.toNat :=
  ⟨plain_of_rangesHonoured, rangesHonoured_of_plain fileSize.toNat_lt⟩

/-- The last two bytes of ten are asked for and refused. -/
theorem not_rangesHonoured_suffix :
    parseRange "bytes=-2".toList 10 = none ∧
    ¬RangesHonoured "bytes=-2".toList 10 := by
  refine ⟨by decide, fun honoured => ?_⟩
  have isDigit : ∀ char ∈ ['2'], (digitValue? 10 char).isSome = true := by
    intro char member
    rw [List.mem_singleton.mp member]
    rfl
  have asks : AsksFor "bytes=-2".toList (.suffix 2) :=
    ⟨[], ['2'], ⟨rfl, List.not_mem_nil⟩,
      .suffix rfl ⟨by decide, isDigit, rfl⟩⟩
  have isParsed := (honoured.asked (8, 9)).mpr ⟨_, asks, rfl⟩
  have notParsed : parseRange "bytes=-2".toList 10 = none := by
    decide
  rw [notParsed] at isParsed
  nomatch isParsed

end Law

end Sweety.StaticCache
