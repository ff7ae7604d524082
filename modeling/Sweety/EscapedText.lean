import Mathlib.Data.List.Basic
import Mathlib.Tactic.Common

namespace Sweety.EscapedText

/-!
# Pieces between quotes

A line is split at its quotes, except at those behind a backslash.  A writer
that escapes quotes and line breaks, but not the backslash itself, is read back
only where the text has no backslash.
-/

/-! ## The reader -/

/-- What an escaped character stands for. -/
def unescape (code : Char) : Char :=
  if code = 'n' then
    '\n'
  else if code = 'r' then
    '\r'
  else
    code

/-- Put a text in front of a piece. -/
def putAll (text : List Char) (piece : List Char × List Char) :
    List Char × List Char :=
  (text ++ piece.1, piece.2)

/--
Read a piece: its text, and what follows the quote at its end.  The flag says
that a backslash stands before the text.
-/
def readFrom : Bool → List Char → Option (List Char × List Char)
  | _, [] =>
      none
  | true, code :: rest =>
      (readFrom false rest).map (putAll [unescape code])
  | false, char :: rest =>
      if char = '"' then
        some ([], rest)
      else if char = '\\' then
        readFrom true rest
      else
        (readFrom false rest).map (putAll [char])

/-- Read a piece. -/
def readPiece (text : List Char) : Option (List Char × List Char) :=
  readFrom false text

/-- The text that is read of a text without quotes. -/
def unescapedFrom : Bool → List Char → List Char
  | _, [] =>
      []
  | true, code :: rest =>
      unescape code :: unescapedFrom false rest
  | false, char :: rest =>
      if char = '\\' then
        unescapedFrom true rest
      else
        char :: unescapedFrom false rest

/-- Whether a text ends in a backslash that escapes what follows. -/
def escapesFrom : Bool → List Char → Bool
  | escaped, [] =>
      escaped
  | true, _ :: rest =>
      escapesFrom false rest
  | false, char :: rest =>
      escapesFrom (decide (char = '\\')) rest

theorem readFrom_char
    {char : Char}
    (notQuote : char ≠ '"')
    (notBackslash : char ≠ '\\')
    (rest : List Char) :
    readFrom false (char :: rest) =
      (readFrom false rest).map (putAll [char]) := by
  rw [readFrom, if_neg notQuote, if_neg notBackslash]

theorem map_putAll
    (first second : List Char)
    (read : Option (List Char × List Char)) :
    (read.map (putAll second)).map (putAll first) =
      read.map (putAll (first ++ second)) := by
  cases read with
  | none =>
      rfl
  | some piece =>
      rw [Option.map_some, Option.map_some, Option.map_some, putAll, putAll,
        putAll, List.append_assoc]

theorem map_putAll_nil (read : Option (List Char × List Char)) :
    read.map (putAll []) = read := by
  cases read with
  | none =>
      rfl
  | some piece =>
      rfl

/-! ## Texts without quotes -/

/-- A text without quotes is read to its end. -/
theorem readFrom_append
    {text : List Char}
    (noQuote : '"' ∉ text)
    (escaped : Bool)
    (rest : List Char) :
    readFrom escaped (text ++ rest) =
      (readFrom (escapesFrom escaped text) rest).map
        (putAll (unescapedFrom escaped text)) := by
  induction text generalizing escaped with
  | nil =>
      cases escaped <;> exact (map_putAll_nil _).symm
  | cons char later ih =>
      have notQuote : char ≠ '"' :=
        fun isQuote => noQuote (isQuote ▸ List.mem_cons_self)
      have laterQuote : '"' ∉ later :=
        fun member => noQuote (List.mem_cons_of_mem _ member)
      cases escaped with
      | true =>
          rw [List.cons_append, readFrom, ih laterQuote, map_putAll]
          rfl
      | false =>
          by_cases isBackslash : char = '\\'
          · rw [List.cons_append, readFrom, if_neg notQuote,
              if_pos isBackslash, ih laterQuote, unescapedFrom,
              if_pos isBackslash, escapesFrom, decide_eq_true isBackslash]
          · rw [List.cons_append, readFrom_char notQuote isBackslash,
              ih laterQuote, map_putAll, unescapedFrom, if_neg isBackslash,
              escapesFrom, decide_eq_false isBackslash]
            rfl

/-- A blank ends a text, escaped or not. -/
theorem readPiece_append_blank
    {text : List Char}
    (noQuote : '"' ∉ text)
    (rest : List Char) :
    readPiece (text ++ ' ' :: rest) =
      (readPiece rest).map (putAll (unescapedFrom false text ++ [' '])) := by
  have isBlank (escaped : Bool) :
      readFrom escaped (' ' :: rest) =
        (readFrom false rest).map (putAll [' ']) := by
    cases escaped with
    | true =>
        rfl
    | false =>
        exact readFrom_char (by decide) (by decide) rest
  rw [readPiece, readFrom_append noQuote, isBlank, map_putAll]
  rfl

/-- Reading makes no blanks. -/
theorem blank_not_mem_unescapedFrom
    {text : List Char}
    (noBlank : ' ' ∉ text)
    (escaped : Bool) :
    ' ' ∉ unescapedFrom escaped text := by
  induction text generalizing escaped with
  | nil =>
      cases escaped <;> exact List.not_mem_nil
  | cons char later ih =>
      have notBlank : ' ' ≠ char :=
        fun isBlank => noBlank (isBlank ▸ List.mem_cons_self)
      have laterBlank : ' ' ∉ later :=
        fun member => noBlank (List.mem_cons_of_mem _ member)
      cases escaped with
      | true =>
          have notBlankCode : ' ' ≠ unescape char := by
            intro isBlank
            rw [unescape] at isBlank
            split at isBlank
            · exact absurd isBlank (by decide)
            · split at isBlank
              · exact absurd isBlank (by decide)
              · exact notBlank isBlank
          exact List.not_mem_cons_of_ne_of_not_mem notBlankCode
            (ih laterBlank false)
      | false =>
          rw [unescapedFrom]
          split
          · exact ih laterBlank true
          · exact List.not_mem_cons_of_ne_of_not_mem notBlank
              (ih laterBlank false)

/-- A text without backslashes is read as it is. -/
theorem unescapedFrom_of_not_mem
    {text : List Char}
    (noBackslash : '\\' ∉ text) :
    unescapedFrom false text = text ∧ escapesFrom false text = false := by
  induction text with
  | nil =>
      exact ⟨rfl, rfl⟩
  | cons char rest ih =>
      have notBackslash : char ≠ '\\' :=
        fun isBackslash => noBackslash (isBackslash ▸ List.mem_cons_self)
      obtain ⟨isRest, notEscape⟩ :=
        ih fun member => noBackslash (List.mem_cons_of_mem _ member)
      rw [unescapedFrom, if_neg notBackslash, isRest, escapesFrom,
        decide_eq_false notBackslash]
      exact ⟨rfl, notEscape⟩

/-! ## Writers that do not escape the backslash -/

/-- What a writer makes of a character other than the backslash. -/
inductive Writes (write : Char → List Char) (char : Char) : Prop where
  | escaped
      (code : Char)
      (isWritten : write char = ['\\', code])
      (isRead : unescape code = char)
      (notBackslash : code ≠ '\\')
      (differs : code = '"' ∨ code ≠ char)
  | plain
      (first : Char)
      (later : List Char)
      (isWritten : write char = first :: later)
      (visible : ∀ other ∈ first :: later, other ≠ '\\' ∧ other ≠ '"')

section Writers

variable {write : Char → List Char} {text tail : List Char} {stop : Char}

/-- What is read of a character that is written. -/
def readBack (write : Char → List Char) (char : Char) : List Char :=
  unescapedFrom false (write char)

theorem Writes.readFrom_append
    {char : Char}
    (writes : Writes write char)
    (rest : List Char) :
    readFrom false (write char ++ rest) =
      (readFrom false rest).map (putAll (readBack write char)) := by
  cases writes with
  | escaped code isWritten isRead notBackslash differs =>
      rw [readBack, isWritten]
      rfl
  | plain first later isWritten visible =>
      have noQuote : '"' ∉ write char := by
        rw [isWritten]
        exact fun member => (visible _ member).2 rfl
      have noBackslash : '\\' ∉ write char := by
        rw [isWritten]
        exact fun member => (visible _ member).1 rfl
      rw [EscapedText.readFrom_append noQuote,
        (unescapedFrom_of_not_mem noBackslash).2]
      rfl

/-- A text without backslashes is read character by character. -/
theorem readFrom_flatMap
    (writes : ∀ char ∈ text, Writes write char)
    (rest : List Char) :
    readFrom false (text.flatMap write ++ rest) =
      (readFrom false rest).map (putAll (text.flatMap (readBack write))) := by
  induction text with
  | nil =>
      exact (map_putAll_nil _).symm
  | cons char later ih =>
      have laterWrites : ∀ other ∈ later, Writes write other :=
        fun other member => writes other (List.mem_cons_of_mem _ member)
      rw [List.flatMap_cons, List.flatMap_cons, List.append_assoc,
        (writes char List.mem_cons_self).readFrom_append, ih laterWrites,
        map_putAll]

/-- What is read of such a character has no backslash, and is not nothing. -/
theorem Writes.readBack_visible
    {char : Char}
    (writes : Writes write char)
    (notBackslash : char ≠ '\\') :
    readBack write char ≠ [] ∧ '\\' ∉ readBack write char := by
  cases writes with
  | escaped code isWritten isRead notCode differs =>
      have isBack : readBack write char = [char] := by
        rw [readBack, isWritten, ← isRead]
        rfl
      rw [isBack]
      exact ⟨List.cons_ne_nil _ _,
        fun member => notBackslash (List.mem_singleton.mp member).symm⟩
  | plain first later isWritten visible =>
      have noBackslash : '\\' ∉ write char := by
        rw [isWritten]
        exact fun member => (visible _ member).1 rfl
      rw [readBack, (unescapedFrom_of_not_mem noBackslash).1]
      exact ⟨by rw [isWritten]; exact List.cons_ne_nil _ _, noBackslash⟩

/-- What is read of a text that begins with no backslash begins with none. -/
theorem head_of_readFrom
    (writes : ∀ char ∈ text, char ≠ '\\' → Writes write char)
    (noRun : text.head? ≠ some '\\')
    (isStop : stop = ' ' ∨ stop = '"')
    {read rest : List Char}
    (isRead :
      readFrom false (text.flatMap write ++ stop :: tail) =
        some (read, rest)) :
    read.head? ≠ some '\\' := by
  cases text with
  | nil =>
      rw [List.flatMap_nil, List.nil_append] at isRead
      rcases isStop with rfl | rfl
      · rw [readFrom_char (by decide) (by decide)] at isRead
        obtain ⟨piece, -, isPiece⟩ := Option.map_eq_some_iff.mp isRead
        cases isPiece
        exact fun isHead => absurd (Option.some.inj isHead) (by decide)
      · cases isRead
        exact fun isHead => by cases isHead
  | cons char later =>
      have notBackslash : char ≠ '\\' :=
        fun isBackslash => noRun (congrArg some isBackslash)
      have charWrites := writes char List.mem_cons_self notBackslash
      obtain ⟨notNil, visible⟩ := charWrites.readBack_visible notBackslash
      rw [List.flatMap_cons, List.append_assoc, charWrites.readFrom_append]
        at isRead
      obtain ⟨piece, -, isPiece⟩ := Option.map_eq_some_iff.mp isRead
      cases isPiece
      obtain ⟨first, others, isBack⟩ := List.exists_cons_of_ne_nil notNil
      rw [isBack] at visible ⊢
      intro isHead
      obtain rfl := Option.some.inj isHead
      exact visible List.mem_cons_self

theorem unescape_ne_backslash
    {code : Char}
    (notBackslash : code ≠ '\\') :
    unescape code ≠ '\\' := by
  rw [unescape]
  split
  · decide
  · split
    · decide
    · exact notBackslash

/-- One backslash in front of such a text is not read back. -/
theorem not_prefix_of_one
    (writes : ∀ char ∈ text, char ≠ '\\' → Writes write char)
    (noRun : text.head? ≠ some '\\')
    (isStop : stop = ' ' ∨ stop = '"')
    {owed : Nat}
    (isOwed : 0 < owed)
    {read rest : List Char}
    (isRead :
      readFrom true (text.flatMap write ++ stop :: tail) =
        some (read, rest)) :
    ¬(List.replicate owed '\\' ++ text) <+: read := by
  obtain ⟨more, rfl⟩ := Nat.exists_eq_succ_of_ne_zero (Nat.ne_of_gt isOwed)
  rw [List.replicate_succ, List.cons_append]
  intro isPrefix
  cases text with
  | nil =>
      have stays : unescape stop ≠ '\\' := by
        rcases isStop with rfl | rfl <;> decide
      obtain ⟨piece, -, isPiece⟩ := Option.map_eq_some_iff.mp isRead
      cases isPiece
      exact stays (List.cons_prefix_cons.mp isPrefix).1.symm
  | cons char later =>
      have notBackslash : char ≠ '\\' :=
        fun isBackslash => noRun (congrArg some isBackslash)
      rw [List.flatMap_cons, List.append_assoc] at isRead
      cases writes char List.mem_cons_self notBackslash with
      | plain first others isWritten visible =>
          have isFirst := (visible first List.mem_cons_self).1
          rw [isWritten, List.cons_append] at isRead
          obtain ⟨piece, -, isPiece⟩ := Option.map_eq_some_iff.mp isRead
          cases isPiece
          exact unescape_ne_backslash isFirst
            (List.cons_prefix_cons.mp isPrefix).1.symm
      | escaped code isWritten isCode notCode differs =>
          rw [isWritten, List.cons_append, List.cons_append, List.nil_append]
            at isRead
          obtain ⟨piece, isPiece, isWhole⟩ := Option.map_eq_some_iff.mp isRead
          cases isWhole
          have afterFirst :
              (List.replicate more '\\' ++ char :: later) <+: piece.1 :=
            (List.cons_prefix_cons.mp isPrefix).2
          by_cases isQuote : code = '"'
          · -- The quote that should be escaped ends the piece.
            rw [isQuote] at isPiece
            cases isPiece
            have isNil := List.prefix_nil.mp afterFirst
            exact absurd (List.append_eq_nil_iff.mp isNil).2
              (List.cons_ne_nil _ _)
          · -- The code is read as it stands.
            rw [readFrom_char isQuote notCode] at isPiece
            obtain ⟨inner, -, isInner⟩ := Option.map_eq_some_iff.mp isPiece
            cases isInner
            cases more with
            | zero =>
                rcases differs with isQuoteCode | notSame
                · exact isQuote isQuoteCode
                · exact notSame (List.cons_prefix_cons.mp afterFirst).1.symm
            | succ fewer =>
                exact notCode (List.cons_prefix_cons.mp afterFirst).1.symm

/-- A run of backslashes is not read back: two of them are read as one. -/
theorem not_prefix_of_run
    (writes : ∀ char ∈ text, char ≠ '\\' → Writes write char)
    (noRun : text.head? ≠ some '\\')
    (isStop : stop = ' ' ∨ stop = '"') :
    ∀ (run owed : Nat), run ≤ owed → 0 < owed →
      ∀ {read rest : List Char},
        readFrom false
            (List.replicate run '\\' ++
              (text.flatMap write ++ stop :: tail)) =
          some (read, rest) →
        ¬(List.replicate owed '\\' ++ text) <+: read := by
  intro run
  induction run using Nat.strongRecOn with
  | ind run ih =>
      intro owed atMost isOwed read rest isRead isPrefix
      obtain ⟨more, rfl⟩ := Nat.exists_eq_succ_of_ne_zero (Nat.ne_of_gt isOwed)
      cases run with
      | zero =>
          have isHead := head_of_readFrom writes noRun isStop isRead
          obtain ⟨after, rfl⟩ := isPrefix
          exact isHead rfl
      | succ fewer =>
          cases fewer with
          | zero =>
              exact not_prefix_of_one writes noRun isStop isOwed isRead isPrefix
          | succ fewer =>
              obtain ⟨piece, isPiece, isWhole⟩ :=
                Option.map_eq_some_iff.mp isRead
              cases isWhole
              have afterFirst :
                  (List.replicate more '\\' ++ text) <+: piece.1 :=
                (List.cons_prefix_cons.mp isPrefix).2
              exact ih fewer (by omega) more (by omega) (by omega) isPiece
                afterFirst

/-- A text begins with a run of backslashes, which may be empty. -/
theorem exists_run (text : List Char) :
    ∃ run rest,
      text = List.replicate run '\\' ++ rest ∧ rest.head? ≠ some '\\' := by
  induction text with
  | nil =>
      exact ⟨0, [], rfl, fun isHead => by cases isHead⟩
  | cons char later ih =>
      by_cases isBackslash : char = '\\'
      · obtain ⟨run, rest, isText, noRun⟩ := ih
        exact ⟨run + 1, rest, by rw [isBackslash, isText]; rfl, noRun⟩
      · exact ⟨0, char :: later, rfl,
          fun isHead => isBackslash (Option.some.inj isHead)⟩

theorem flatMap_run
    (isBackslash : write '\\' = ['\\'])
    (run : Nat)
    (rest : List Char) :
    (List.replicate run '\\' ++ rest).flatMap write =
      List.replicate run '\\' ++ rest.flatMap write := by
  induction run with
  | zero =>
      rfl
  | succ fewer ih =>
      rw [List.replicate_succ, List.cons_append, List.flatMap_cons, ih,
        isBackslash]
      rfl

/-- A text that is read back, whatever follows, has no backslash. -/
theorem backslash_not_mem_leading
    (isBackslash : write '\\' = ['\\'])
    (writes : ∀ char ∈ text, char ≠ '\\' → Writes write char)
    (isStop : stop = ' ' ∨ stop = '"')
    {lead read rest : List Char}
    (noBackslash : '\\' ∉ lead)
    (isRead :
      readFrom false (text.flatMap write ++ stop :: tail) =
        some (read, rest))
    (isPrefix : text <+: lead ++ read) :
    '\\' ∉ text := by
  induction text generalizing lead read with
  | nil =>
      exact List.not_mem_nil
  | cons char later ih =>
      have laterWrites : ∀ other ∈ later, other ≠ '\\' → Writes write other :=
        fun other member => writes other (List.mem_cons_of_mem _ member)
      by_cases isRun : char = '\\'
      · exfalso
        cases lead with
        | cons first others =>
            have isFirst := (List.cons_prefix_cons.mp isPrefix).1
            rw [isRun] at isFirst
            exact noBackslash (isFirst ▸ List.mem_cons_self)
        | nil =>
            obtain ⟨run, after, isText, noRun⟩ := exists_run (char :: later)
            have isSome : 0 < run := by
              cases run with
              | zero =>
                  rw [List.replicate_zero, List.nil_append] at isText
                  rw [← isText, isRun] at noRun
                  exact absurd rfl noRun
              | succ fewer =>
                  exact Nat.succ_pos fewer
            have afterWrites :
                ∀ other ∈ after, other ≠ '\\' → Writes write other := by
              intro other member
              apply writes other
              rw [isText]
              exact List.mem_append_right _ member
            rw [isText] at isPrefix isRead
            rw [flatMap_run isBackslash, List.append_assoc] at isRead
            exact not_prefix_of_run afterWrites noRun isStop run run
              (Nat.le_refl run) isSome isRead isPrefix
      · have charWrites := writes char List.mem_cons_self isRun
        obtain ⟨notNil, visible⟩ := charWrites.readBack_visible isRun
        rw [List.flatMap_cons, List.append_assoc, charWrites.readFrom_append]
          at isRead
        obtain ⟨piece, isPiece, isWhole⟩ := Option.map_eq_some_iff.mp isRead
        cases isWhole
        have laterVisible : '\\' ∉ later := by
          cases lead with
          | nil =>
              -- The character is the first that is read of it.
              obtain ⟨first, others, isBack⟩ :=
                List.exists_cons_of_ne_nil notNil
              rw [isBack] at visible
              have othersVisible : '\\' ∉ others :=
                fun member => visible (List.mem_cons_of_mem _ member)
              rw [isBack] at isPrefix
              exact ih laterWrites othersVisible isPiece
                (List.cons_prefix_cons.mp isPrefix).2
          | cons first others =>
              -- The reader is ahead, and stays ahead.
              have aheadVisible : '\\' ∉ others ++ readBack write char := by
                intro member
                rcases List.mem_append.mp member with inOthers | inBack
                · exact noBackslash (List.mem_cons_of_mem _ inOthers)
                · exact visible inBack
              have afterFirst :
                  later <+: others ++ (readBack write char ++ piece.1) :=
                (List.cons_prefix_cons.mp isPrefix).2
              rw [← List.append_assoc] at afterFirst
              exact ih laterWrites aheadVisible isPiece afterFirst
        exact List.not_mem_cons_of_ne_of_not_mem (Ne.symm isRun) laterVisible

end Writers

end Sweety.EscapedText
