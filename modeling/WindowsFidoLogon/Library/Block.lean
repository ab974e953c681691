import Mathlib.Data.List.Basic

/-!
# Blocks of memory

A block is a list of cells.  A range of it is read or written where it lies inside
the block; elsewhere there is no result.  Ranges that touch can be read as one, and
a write is seen by reads of its own range and by no read of a range apart from it.
-/

namespace Block

variable {α : Type*}

/-- The cells of a range; `none` when the range is not inside the block. -/
def read (block : List α) (offset count : Nat) : Option (List α) :=
  if offset + count ≤ block.length then some ((block.drop offset).take count) else none

/-- The block with other cells from an offset on. -/
def write (block : List α) (offset : Nat) (cells : List α) : Option (List α) :=
  if offset + cells.length ≤ block.length then
    some (block.take offset ++ cells ++ block.drop (offset + cells.length))
  else none

/-- No cell is in both ranges. -/
def Apart (offset count offset' count' : Nat) : Prop :=
  offset + count ≤ offset' ∨ offset' + count' ≤ offset

theorem Apart.symm {offset count offset' count' : Nat} (h : Apart offset count offset' count') :
    Apart offset' count' offset count := Or.symm h

/-! ## Reading -/

theorem read_eq_some_iff {block cells : List α} {offset count : Nat} :
    read block offset count = some cells ↔
      ∃ before after, block = before ++ cells ++ after ∧ before.length = offset ∧
        cells.length = count := by
  unfold read
  constructor
  · intro h
    split_ifs at h with hInside
    obtain rfl := Option.some.inj h
    refine ⟨block.take offset, block.drop (offset + count), ?_, ?_, ?_⟩
    · rw [← List.drop_drop, List.append_assoc, List.take_append_drop, List.take_append_drop]
    · rw [List.length_take]
      omega
    · rw [List.length_take, List.length_drop]
      omega
  · rintro ⟨before, after, rfl, rfl, rfl⟩
    rw [if_pos (by simp)]
    simp

theorem read_all (block : List α) : read block 0 block.length = some block :=
  read_eq_some_iff.mpr ⟨[], [], by simp, rfl, rfl⟩

theorem read_of_le {block : List α} {offset count : Nat} (h : offset + count ≤ block.length) :
    read block offset count = some ((block.drop offset).take count) := if_pos h

theorem isSome_read_iff {block : List α} {offset count : Nat} :
    (read block offset count).isSome = true ↔ offset + count ≤ block.length := by
  unfold read
  split_ifs with hInside
  · exact iff_of_true rfl hInside
  · exact iff_of_false (by simp) hInside

/-- Two ranges that touch are one range. -/
theorem read_touching {block cells more : List α} {offset count count' : Nat}
    (h : read block offset count = some cells)
    (hNext : read block (offset + count) count' = some more) :
    read block offset (count + count') = some (cells ++ more) := by
  unfold read at h hNext ⊢
  split_ifs at h hNext with hFirst hSecond
  obtain rfl := Option.some.inj h
  obtain rfl := Option.some.inj hNext
  rw [if_pos (by omega), List.take_add, List.drop_drop]

/-! ## Writing -/

theorem length_write {block block' cells : List α} {offset : Nat}
    (h : write block offset cells = some block') : block'.length = block.length := by
  unfold write at h
  split_ifs at h with hInside
  obtain rfl := Option.some.inj h
  simp only [List.length_append, List.length_take, List.length_drop]
  omega

theorem write_of_le (cells : List α) {block : List α} {offset : Nat}
    (h : offset + cells.length ≤ block.length) : ∃ block', write block offset cells = some block' :=
  ⟨_, if_pos h⟩

theorem read_write_same {block block' cells : List α} {offset : Nat}
    (h : write block offset cells = some block') :
    read block' offset cells.length = some cells := by
  unfold write at h
  split_ifs at h with hInside
  obtain rfl := Option.some.inj h
  refine read_eq_some_iff.mpr ⟨block.take offset, _, rfl, ?_, rfl⟩
  rw [List.length_take]
  omega

theorem read_write_apart {block block' cells : List α} {offset offset' count : Nat}
    (h : write block offset cells = some block') (hApart : Apart offset cells.length offset' count) :
    read block' offset' count = read block offset' count := by
  have hLength := length_write h
  unfold write at h
  split_ifs at h with hInside
  obtain rfl := Option.some.inj h
  unfold read
  rw [hLength]
  split_ifs with hOther
  · apply congrArg some
    apply List.ext_getElem?
    intro i
    simp only [List.getElem?_take, List.getElem?_drop]
    by_cases hi : i < count
    · rw [if_pos hi, if_pos hi]
      rcases hApart with hBelow | hAbove
      · rw [List.getElem?_append_right (by simp; omega), List.getElem?_drop]
        congr 1
        simp only [List.length_append, List.length_take]
        omega
      · rw [List.append_assoc, List.getElem?_append_left (by simp; omega),
          List.getElem?_take_of_lt (by omega)]
    · rw [if_neg hi, if_neg hi]
  · rfl

/-! ## Ranges that fill a stretch -/

/-- Ranges, as offsets and counts, that follow one another from `start` to `stop`. -/
def Tiles : Nat → Nat → List (Nat × Nat) → Prop
  | start, stop, [] => start = stop
  | start, stop, (offset, count) :: rest => offset = start ∧ Tiles (start + count) stop rest

theorem Tiles.le {start stop : Nat} {ranges : List (Nat × Nat)} (h : Tiles start stop ranges) :
    start ≤ stop := by
  induction ranges generalizing start with
  | nil => exact Nat.le_of_eq h
  | cons range rest ih =>
      have hRest := ih h.2
      omega

theorem Tiles.bounds {start stop : Nat} {ranges : List (Nat × Nat)} (h : Tiles start stop ranges) :
    ∀ range ∈ ranges, start ≤ range.1 ∧ range.1 + range.2 ≤ stop := by
  induction ranges generalizing start with
  | nil => simp
  | cons range rest ih =>
      obtain ⟨hStart, hRest⟩ := h
      have hLe := hRest.le
      intro other hOther
      rcases List.mem_cons.mp hOther with rfl | hMem
      · exact ⟨by omega, by omega⟩
      · have hBounds := ih hRest other hMem
        exact ⟨by omega, hBounds.2⟩

theorem Tiles.apart {start stop : Nat} {ranges : List (Nat × Nat)} (h : Tiles start stop ranges) :
    ranges.Pairwise fun range other => Apart range.1 range.2 other.1 other.2 := by
  induction ranges generalizing start with
  | nil => exact List.Pairwise.nil
  | cons range rest ih =>
      obtain ⟨hStart, hRest⟩ := h
      refine List.pairwise_cons.mpr ⟨fun other hOther => .inl ?_, ih hRest⟩
      have hBounds := hRest.bounds other hOther
      omega

end Block
