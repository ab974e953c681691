import WindowsFidoLogon.Store.PublishedPolicy

/-!
# The list reader and its buffer

`GetMultiSZ` rounds the size of the stored data down to whole code units and
adds two zeroed ones.  After an even number of bytes both of them follow the
data, and the loop stops at the second one at the latest.  After an odd number
the last byte fills half of the first of them.  Where this byte is not zero,
only one NUL is left behind it: the loop takes it for the end of the last
string and looks for the next string behind the buffer.

`readStrings` is `none` exactly when the loop leaves its buffer, so all that is
needed is when it stops by itself, and what it has read by then.
-/

namespace WindowsFidoLogon
namespace RegistryReader

/-- The code units that the data hold completely. -/
def wholeUnits (data : Bytes) : WString :=
  (toWords data).take (data.length / 2)

/-- The strings of a list of code units: what is between its NULs, up to the
first empty string or to the end. -/
def listedStrings (units : WString) : List WString :=
  (units.splitOn 0).takeWhile (· ≠ [])

/-- An empty string starts among these units. -/
def HasEmptyString (units : WString) : Prop :=
  [0] <+: units ∨ [0, 0] <:+: units

/-! ## When the loop stops -/

/-- The loop stops within the units where an empty string starts among them: at
the cursor, if nothing has been collected there, or behind a NUL. -/
theorem isSome_readStrings (current units : WString) :
    (readStrings current units).isSome = true ↔
      (current = [] ∧ [0] <+: units) ∨ [0, 0] <:+: units := by
  induction units generalizing current with
  | nil => simp [readStrings]
  | cons c units ih =>
      by_cases hc : c = 0
      · subst hc
        by_cases hCurrent : current = []
        · simp [readStrings, hCurrent]
        · rw [readStrings, if_pos rfl, if_neg hCurrent, Option.isSome_map, ih]
          simp [hCurrent, List.infix_cons_iff]
      · rw [readStrings, if_neg hc, ih]
        simp [List.infix_cons_iff, Ne.symm hc]

/-- What the loop has read when it stops. -/
theorem eq_of_readStrings {current units : WString} {strings : List WString}
    (h : readStrings current units = some strings) :
    strings = ((units.splitOn 0).modifyHead (current ++ ·)).takeWhile (· ≠ []) := by
  induction units generalizing current strings with
  | nil => simp [readStrings] at h
  | cons c units ih =>
      rw [readStrings] at h
      rw [List.splitOn_cons_eq_if_modifyHead]
      by_cases hc : c = 0
      · subst hc
        rw [if_pos rfl] at h
        by_cases hCurrent : current = []
        · subst hCurrent
          simpa using h.symm
        · rw [if_neg hCurrent] at h
          obtain ⟨more, hMore, rfl⟩ := Option.map_eq_some_iff.mp h
          have hHead : (units.splitOn 0).modifyHead ([] ++ ·) = units.splitOn 0 := by
            cases units.splitOn 0 <;> rfl
          have hRest := ih hMore
          rw [hHead] at hRest
          simp [hCurrent, hRest]
      · rw [if_neg hc] at h
        have hHead : ((units.splitOn 0).modifyHead (c :: ·)).modifyHead (current ++ ·) =
            (units.splitOn 0).modifyHead (current ++ [c] ++ ·) := by
          cases units.splitOn 0 <;> simp
        rw [if_neg (by simpa using hc), hHead]
        exact ih h

theorem listedStrings_of_readStrings {units : WString} {strings : List WString}
    (h : readStrings [] units = some strings) : strings = listedStrings units := by
  have hHead : (units.splitOn 0).modifyHead ([] ++ ·) = units.splitOn 0 := by
    cases units.splitOn 0 <;> rfl
  have hRead := eq_of_readStrings h
  rwa [hHead] at hRead

/-- A loop that has stopped does not look at what follows. -/
theorem readStrings_append_of_some {current units : WString} {strings : List WString}
    (h : readStrings current units = some strings) (rest : WString) :
    readStrings current (units ++ rest) = some strings := by
  induction units generalizing current strings with
  | nil => simp [readStrings] at h
  | cons c units ih =>
      rw [List.cons_append]
      rw [readStrings] at h ⊢
      by_cases hc : c = 0
      · rw [if_pos hc] at h ⊢
        by_cases hCurrent : current = []
        · rwa [if_pos hCurrent] at h ⊢
        · rw [if_neg hCurrent] at h ⊢
          obtain ⟨more, hMore, rfl⟩ := Option.map_eq_some_iff.mp h
          rw [ih hMore]
          rfl
      · rw [if_neg hc] at h ⊢
        exact ih h

/-- Where two NULs follow the units, the loop reads their strings. -/
theorem readStrings_doubly_terminated (units rest : WString) :
    readStrings [] (units ++ 0 :: 0 :: rest) = some (listedStrings units) := by
  have hHead : (units.splitOn 0).modifyHead ([] ++ ·) = units.splitOn 0 := by
    cases units.splitOn 0 <;> rfl
  have hStop : readStrings [] (0 :: rest) = some [] := by simp [readStrings]
  rw [readStrings_append, hHead, hStop, follow_nil]
  rfl

/-! ## The buffer -/

theorem length_toWords (data : Bytes) : (toWords data).length = (data.length + 1) / 2 := by
  induction data using toWords.induct with
  | case1 => rfl
  | case2 a => simp [toWords]
  | case3 a b rest ih =>
      simp only [toWords, List.length_cons, ih]
      omega

theorem multiBuffer_of_even {data : Bytes} (hEven : data.length % 2 = 0) :
    multiBuffer data = wholeUnits data ++ [0, 0] := by
  have hLength := length_toWords data
  have hWhole : wholeUnits data = toWords data := List.take_of_length_le (by omega)
  have hRest : data.length / 2 + 2 - (toWords data).length = 2 := by omega
  rw [multiBuffer, hWhole, hRest]
  rfl

/-- The last byte of an odd number fills the low half of the unit before the only
NUL. -/
theorem toWords_of_odd {data : Bytes} (hOdd : data.length % 2 = 1) :
    ∃ last, data.getLast? = some last ∧ toWords data = wholeUnits data ++ [last.toUInt16] := by
  induction data using toWords.induct with
  | case1 => simp at hOdd
  | case2 a => exact ⟨a, rfl, by simp [wholeUnits, toWords]⟩
  | case3 a b rest ih =>
      simp only [List.length_cons] at hOdd
      obtain ⟨last, hLast, hWords⟩ := ih (by omega)
      refine ⟨last, ?_, ?_⟩
      · cases rest with
        | nil => simp at hLast
        | cons c rest => simpa using hLast
      · have hHalf : (a :: b :: rest).length / 2 = rest.length / 2 + 1 := by
          simp only [List.length_cons]
          omega
        rw [wholeUnits, hHalf, toWords, List.take_succ_cons, List.cons_append]
        exact congrArg _ hWords

theorem multiBuffer_of_odd {data : Bytes} (hOdd : data.length % 2 = 1) :
    ∃ last, data.getLast? = some last ∧
      multiBuffer data = wholeUnits data ++ [last.toUInt16, 0] := by
  obtain ⟨last, hLast, hWords⟩ := toWords_of_odd hOdd
  have hLength := length_toWords data
  have hRest : data.length / 2 + 2 - (toWords data).length = 1 := by omega
  refine ⟨last, hLast, ?_⟩
  rw [multiBuffer, hRest, hWords, List.append_assoc]
  rfl

/-! ## The reader -/

/-- `GetMultiSZ` stays inside its buffer, and returns the strings of the data. -/
def ReadsTheList (data : Bytes) : Prop :=
  readStrings [] (multiBuffer data) = some (listedStrings (wholeUnits data)) ∧
    getMultiSZ (some { type := .multiSz, data }) = listedStrings (wholeUnits data)

/-- The padding is enough: the data are whole units, or their last byte is zero,
or an empty string ends the list before. -/
def PaddingSuffices (data : Bytes) : Prop :=
  data.length % 2 = 0 ∨ data.getLast? = some 0 ∨ HasEmptyString (wholeUnits data)

/-- A unit that is not a NUL starts no empty string, and neither does the one NUL
behind it. -/
theorem hasEmptyString_append {c : UInt16} (hc : c ≠ 0) (units : WString) :
    HasEmptyString (units ++ [c, 0]) ↔ HasEmptyString units := by
  have hHead : ∀ w : WString, [0] <+: w ++ [c, 0] ↔ [0] <+: w := fun w => by
    cases w <;> simp [Ne.symm hc]
  have hDouble : [0, 0] <:+: units ++ [c, 0] ↔ [0, 0] <:+: units := by
    induction units with
    | nil => simp [List.infix_cons_iff, Ne.symm hc]
    | cons d units ih =>
        rw [List.cons_append, List.infix_cons_iff, List.infix_cons_iff, List.cons_prefix_cons,
          List.cons_prefix_cons, hHead, ih]
  rw [HasEmptyString, HasEmptyString, hHead, hDouble]

theorem isSome_readStrings_nil (units : WString) :
    (readStrings [] units).isSome = true ↔ HasEmptyString units := by
  rw [isSome_readStrings, HasEmptyString]
  simp

/-- `GetMultiSZ` stays inside its buffer and returns the strings of the data
exactly where its padding suffices. -/
theorem readsTheList_iff {data : Bytes} (hSize : 2 ≤ data.length) :
    ReadsTheList data ↔ PaddingSuffices data := by
  have hReader : ReadsTheList data ↔
      readStrings [] (multiBuffer data) = some (listedStrings (wholeUnits data)) := by
    refine ⟨And.left, fun h => ⟨h, ?_⟩⟩
    rw [getMultiSZ, if_neg (by omega), h]
    rfl
  rw [hReader]
  rcases Nat.mod_two_eq_zero_or_one data.length with hEven | hOdd
  · rw [multiBuffer_of_even hEven, readStrings_doubly_terminated]
    exact ⟨fun _ => .inl hEven, fun _ => rfl⟩
  · obtain ⟨last, hLast, hBuffer⟩ := multiBuffer_of_odd hOdd
    rw [hBuffer]
    by_cases hZero : last = 0
    · subst hZero
      have hPadded : (0 : UInt8).toUInt16 = 0 := rfl
      rw [hPadded, readStrings_doubly_terminated]
      exact ⟨fun _ => .inr (.inl hLast), fun _ => rfl⟩
    · -- the half unit is not a NUL, and one NUL is left
      have hUnit : last.toUInt16 ≠ 0 := fun h => hZero (by simpa using congrArg UInt16.toUInt8 h)
      have hSuffices : PaddingSuffices data ↔ HasEmptyString (wholeUnits data) := by
        simp [PaddingSuffices, hOdd, hLast, hZero]
      rw [hSuffices]
      constructor
      · intro h
        rw [← hasEmptyString_append hUnit, ← isSome_readStrings_nil, h]
        rfl
      · intro h
        obtain ⟨strings, hStrings⟩ := Option.isSome_iff_exists.mp ((isSome_readStrings_nil _).mpr h)
        rw [readStrings_append_of_some hStrings, listedStrings_of_readStrings hStrings]

/-- An unterminated value of two units is read as its one string. -/
theorem readsTheList_example : ReadsTheList [65, 0, 66, 0] :=
  (readsTheList_iff (by decide)).mpr (.inl rfl)

/-- The half unit behind `A` is not zero: the loop goes on behind the buffer. -/
theorem readsTheList_counterexample :
    ¬ ∀ data : Bytes, 2 ≤ data.length → ReadsTheList data := by
  intro h
  have hLeaves : readStrings [] (multiBuffer [65, 0, 66]) = none := by decide +kernel
  have hReads := (h [65, 0, 66] (by decide)).1
  rw [hLeaves] at hReads
  cases hReads

end RegistryReader
end WindowsFidoLogon
