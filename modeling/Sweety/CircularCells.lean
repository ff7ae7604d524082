import Mathlib.Data.List.Basic
import Mathlib.Data.List.DropRight
import Mathlib.Tactic.Common

/-!
# Cells that are written round and round

The writes go through the cells in order and start again at the first cell.
The item of a number is written to the cell of that number modulo the count of
the cells, and stays there while fewer items than there are cells come after
it.  So the cells hold the items that were written last.
-/

namespace CircularCells

/-- Two numbers less than one round apart have different cells. -/
theorem mod_ne_of_lt
    {size earlier later : Nat}
    (isEarlier : earlier < later)
    (within : later < earlier + size) :
    later % size ≠ earlier % size := by
  intro isSame
  have isZero : (later - earlier) % size = 0 :=
    Nat.sub_mod_eq_zero_of_mod_eq isSame
  rw [Nat.mod_eq_of_lt (by omega)] at isZero
  omega

variable {Item : Type*} {cells written : List Item}

/-- Each of the items that were written last is in its cell. -/
def HoldLast (cells written : List Item) : Prop :=
  ∀ number (isWritten : number < written.length),
    written.length ≤ number + cells.length →
      cells[number % cells.length]? = some written[number]

theorem holdLast_nil (cells : List Item) : HoldLast cells [] :=
  fun _ isWritten => absurd isWritten (Nat.not_lt_zero _)

/-- One more write to the next cell. -/
theorem HoldLast.set
    (holds : HoldLast cells written)
    (positive : 0 < cells.length)
    (item : Item) :
    HoldLast (cells.set (written.length % cells.length) item)
      (written ++ [item]) := by
  intro number isWritten isLast
  rw [List.length_append, List.length_singleton] at isWritten
  rw [List.length_append, List.length_singleton, List.length_set] at isLast
  rw [List.length_set]
  rcases Nat.lt_or_eq_of_le (Nat.lt_succ_iff.mp isWritten) with
    isEarlier | rfl
  · rw [List.getElem?_set_ne (mod_ne_of_lt isEarlier isLast),
      holds number isEarlier (Nat.le_of_succ_le isLast),
      List.getElem_append_left]
  · rw [List.getElem?_set_self (Nat.mod_lt _ positive),
      List.getElem_concat_length rfl]

/-- The number of the oldest item that is still there, up to whole rounds. -/
def oldest (cells written : List Item) : Nat :=
  if written.length < cells.length then
    0
  else
    written.length % cells.length

theorem oldest_add_mod (cells written : List Item) (offset : Nat) :
    (oldest cells written + offset) % cells.length =
      (written.length - cells.length + offset) % cells.length := by
  rw [oldest]
  split
  case isTrue isShort =>
    rw [Nat.sub_eq_zero_of_le (Nat.le_of_lt isShort)]
  case isFalse isLong =>
    have isSum :
        written.length + offset =
          written.length - cells.length + offset + cells.length := by
      omega
    rw [Nat.mod_add_mod, isSum, Nat.add_mod_right]

/-- Reading from the oldest item on meets the last items in their order. -/
theorem HoldLast.getElem?_oldest
    (holds : HoldLast cells written)
    {offset : Nat}
    (within : offset < (written.rtake cells.length).length) :
    cells[(oldest cells written + offset) % cells.length]? =
      some (written.rtake cells.length)[offset] := by
  have isShorter := within
  rw [List.rtake, List.length_drop] at isShorter
  rw [oldest_add_mod,
    holds (written.length - cells.length + offset) (by omega) (by omega)]
  simp only [List.rtake, List.getElem_drop]

theorem length_rtake (items : List Item) (count : Nat) :
    (items.rtake count).length = min items.length count := by
  rw [List.rtake, List.length_drop]
  omega

end CircularCells
