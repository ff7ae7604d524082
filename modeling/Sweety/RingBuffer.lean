import Sweety.CircularCells

namespace Sweety

open CircularCells

/-!
# The ring buffer of the request log

Model of `RingBuffer` in `monitor/collector.rs`.  Indexing out of range and a
remainder by zero panic; an operation that panics is `none`.
-/

/-- `RingBuffer`. -/
structure RingBuffer (T : Type) where
  buf : List (Option T)
  head : Nat
  len : Nat
  capacity : Nat
  deriving Repr, DecidableEq

/-- `%` on `usize`. -/
def rem? (number modulus : Nat) : Option Nat :=
  if modulus = 0 then none else some (number % modulus)

namespace RingBuffer

variable {T : Type}

/-- `new`. -/
def new (capacity : Nat) : RingBuffer T where
  buf := List.replicate capacity none
  head := 0
  len := 0
  capacity := capacity

/-- `self.buf[index] = cell`. -/
def store?
    (index : Nat)
    (cell : Option T)
    (buf : List (Option T)) :
    Option (List (Option T)) :=
  if index < buf.length then some (buf.set index cell) else none

/-- `push`. -/
def push (item : T) (ring : RingBuffer T) : Option (RingBuffer T) := do
  let buf ← store? ring.head (some item) ring.buf
  let head ← rem? (ring.head + 1) ring.capacity
  return { ring with
    buf := buf
    head := head
    len := if ring.len < ring.capacity then ring.len + 1 else ring.len }

/-- The cell that `all` looks at for an offset. -/
def cell? (start offset : Nat) (ring : RingBuffer T) :
    Option (Option T) := do
  let index ← rem? (start + offset) ring.capacity
  ring.buf[index]?

/-- `all`. -/
def all (ring : RingBuffer T) : Option (List T) :=
  if ring.len = 0 then
    some []
  else
    let start :=
      if ring.len < ring.capacity then
        0
      else
        -- of a full buffer the oldest record is the next one overwritten
        ring.head
    ((List.range ring.len).mapM fun offset => ring.cell? start offset).map
      (·.filterMap id)

/-- The pushes of a run. -/
def pushAll (items : List T) (ring : RingBuffer T) :
    Option (RingBuffer T) :=
  items.foldlM (fun ring item => ring.push item) ring

/-! ## What a buffer keeps of the pushed items -/

/-- The state of a buffer of some capacity after some pushes. -/
structure Keeps
    (ring : RingBuffer T)
    (capacity : Nat)
    (pushed : List T) :
    Prop where
  capacity_eq : ring.capacity = capacity
  length_buf : ring.buf.length = capacity
  head_eq : ring.head = pushed.length % capacity
  len_eq : ring.len = min pushed.length capacity
  cells : HoldLast ring.buf (pushed.map some)

theorem keeps_new (capacity : Nat) :
    (new capacity : RingBuffer T).Keeps capacity [] where
  capacity_eq := rfl
  length_buf := List.length_replicate
  head_eq := (Nat.zero_mod capacity).symm
  len_eq := (Nat.zero_min capacity).symm
  cells := holdLast_nil _

variable {ring : RingBuffer T} {capacity : Nat} {pushed : List T}

theorem push_eq
    (inRange : ring.head < ring.buf.length)
    (hasCapacity : ring.capacity ≠ 0)
    (item : T) :
    ring.push item = some { ring with
      buf := ring.buf.set ring.head (some item)
      head := (ring.head + 1) % ring.capacity
      len := if ring.len < ring.capacity then ring.len + 1 else ring.len } := by
  rw [push, store?, if_pos inRange, rem?, if_neg hasCapacity]
  rfl

/-- A push overwrites the oldest item, or is one item more. -/
theorem Keeps.push
    (keeps : ring.Keeps capacity pushed)
    (positive : 0 < capacity)
    (item : T) :
    ∃ after, ring.push item = some after ∧
      after.Keeps capacity (pushed ++ [item]) := by
  have inRange : ring.head < ring.buf.length := by
    rw [keeps.head_eq, keeps.length_buf]
    exact Nat.mod_lt _ positive
  have hasCapacity : ring.capacity ≠ 0 := by
    rw [keeps.capacity_eq]
    exact Nat.ne_of_gt positive
  refine ⟨_, push_eq inRange hasCapacity item, ?_⟩
  constructor
  case capacity_eq =>
    exact keeps.capacity_eq
  case length_buf =>
    rw [List.length_set, keeps.length_buf]
  case head_eq =>
    rw [keeps.capacity_eq, keeps.head_eq, Nat.mod_add_mod,
      List.length_append, List.length_singleton]
  case len_eq =>
    change
      (if ring.len < ring.capacity then ring.len + 1 else ring.len) = _
    rw [keeps.capacity_eq, keeps.len_eq, List.length_append,
      List.length_singleton]
    split <;> omega
  case cells =>
    have isNext :
        ring.head = (pushed.map some).length % ring.buf.length := by
      rw [keeps.head_eq, List.length_map, keeps.length_buf]
    rw [List.map_append, List.map_singleton, isNext]
    exact keeps.cells.set (keeps.length_buf ▸ positive) (some item)

/-- All pushes of a run, by induction on the items that are still to come. -/
theorem Keeps.pushAll
    (keeps : ring.Keeps capacity pushed)
    (positive : 0 < capacity)
    (items : List T) :
    ∃ after, ring.pushAll items = some after ∧
      after.Keeps capacity (pushed ++ items) := by
  induction items generalizing ring pushed with
  | nil =>
      exact ⟨ring, rfl, by rwa [List.append_nil]⟩
  | cons item rest inductionHypothesis =>
      obtain ⟨next, isNext, keepsNext⟩ := keeps.push positive item
      obtain ⟨after, isAfter, keepsAfter⟩ := inductionHypothesis keepsNext
      refine ⟨after, ?_, ?_⟩
      · rw [RingBuffer.pushAll, List.foldlM_cons, isNext]
        exact isAfter
      · rwa [List.append_assoc, List.singleton_append] at keepsAfter

/-- A walk over offsets that finds one item at each of them. -/
theorem mapM_range_eq_some
    {Item : Type}
    {look : Nat → Option Item}
    (items : List Item)
    (each : ∀ offset (within : offset < items.length),
      look offset = some items[offset]) :
    (List.range items.length).mapM look = some items := by
  induction items using List.reverseRecOn with
  | nil =>
      rfl
  | append_singleton front last inductionHypothesis =>
      have frontEach :
          ∀ offset (within : offset < front.length),
            look offset = some front[offset] := by
        intro offset within
        rw [each offset (by rw [List.length_append]; omega),
          List.getElem_append_left within]
      have lastFound : look front.length = some last := by
        rw [each front.length (by simp), List.getElem_concat_length rfl]
      rw [List.length_append, List.length_singleton, List.range_succ,
        List.mapM_append, inductionHypothesis frontEach, List.mapM_cons,
        lastFound]
      rfl

/-- `all` starts at the oldest item that is still there. -/
theorem Keeps.start_eq (keeps : ring.Keeps capacity pushed) :
    (if ring.len < ring.capacity then 0 else ring.head) =
      oldest ring.buf (pushed.map some) := by
  rw [oldest, keeps.len_eq, keeps.capacity_eq, keeps.head_eq,
    List.length_map, keeps.length_buf]
  split <;> split <;> omega

/-- `all` returns the last items that were pushed, the oldest first. -/
theorem Keeps.all
    (keeps : ring.Keeps capacity pushed)
    (positive : 0 < capacity) :
    ring.all = some (pushed.rtake capacity) := by
  have hasCapacity : ring.capacity ≠ 0 := by
    rw [keeps.capacity_eq]
    exact Nat.ne_of_gt positive
  have lengthLast :
      ring.len = ((pushed.map some).rtake ring.buf.length).length := by
    rw [length_rtake, List.length_map, keeps.length_buf, keeps.len_eq]
  rw [RingBuffer.all]
  split
  case isTrue isEmpty =>
    rw [keeps.len_eq] at isEmpty
    have noneKept : (pushed.rtake capacity).length = 0 := by
      rw [length_rtake, isEmpty]
    rw [List.eq_nil_of_length_eq_zero noneKept]
  case isFalse =>
    have found :
        (List.range ring.len).mapM
            (fun offset => ring.cell? (oldest ring.buf (pushed.map some))
              offset) =
          some ((pushed.map some).rtake ring.buf.length) := by
      rw [lengthLast]
      apply mapM_range_eq_some
      intro offset within
      rw [cell?, rem?, if_neg hasCapacity, keeps.capacity_eq,
        ← keeps.length_buf]
      exact keeps.cells.getElem?_oldest within
    rw [keeps.start_eq]
    change
      ((List.range ring.len).mapM fun offset =>
        ring.cell? (oldest ring.buf (pushed.map some)) offset).map
          (·.filterMap id) = _
    rw [found, Option.map_some, keeps.length_buf, List.rtake, List.rtake,
      List.length_map, ← List.map_drop, List.filterMap_map,
      Function.id_comp, List.filterMap_some]

/-- After any pushes the buffer returns the last items that fit into it. -/
theorem run_keeps_last
    (capacity : Nat)
    (positive : 1 ≤ capacity)
    (items : List T) :
    ∃ ring, (new capacity).pushAll items = some ring ∧
      ring.all = some (items.rtake (min items.length capacity)) ∧
      ring.len = min items.length capacity := by
  obtain ⟨ring, isRing, keeps⟩ :=
    (keeps_new (T := T) capacity).pushAll positive items
  rw [List.nil_append] at keeps
  have sameLast :
      items.rtake (min items.length capacity) = items.rtake capacity := by
    rw [List.rtake, List.rtake]
    congr 1
    omega
  exact ⟨ring, isRing, sameLast ▸ keeps.all positive, keeps.len_eq⟩

/-- The fourth item overwrites the first one. -/
theorem run_keeps_last_overwrite :
    ∃ ring : RingBuffer Nat,
      (new 3).pushAll [1, 2, 3, 4] = some ring ∧
        ring.all = some [2, 3, 4] ∧ ring.len = 3 :=
  run_keeps_last 3 (by decide) [1, 2, 3, 4]

end RingBuffer

end Sweety
