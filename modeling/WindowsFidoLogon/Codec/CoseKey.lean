import WindowsFidoLogon.Codec.Verifier
import WindowsFidoLogon.Model.Reference

/-!
# ES256 keys in COSE

`CoseEs256Coordinates` looks for five labels in one loop over a CBOR map, and
casts every integer to 32 bits before it compares it.  The five labels differ in
the kind of value they take only, so they are the values of `CoseField`, and the
loop collects for each of them what it reads there (`coseLoop_iff`).

An ES256 key has each of the five labels once, with its value, at the full width
of CBOR.  The loop finds the same, unless a cast changes an integer of the map,
or one of the labels also has a value of another kind, which the loop skips.
-/

namespace WindowsFidoLogon
namespace FidoVerifier

/-! ## The five fields -/

/-- The labels of an ES256 key. -/
inductive CoseField
  | keyType
  | algorithm
  | curve
  | x
  | y
  deriving DecidableEq, Repr

def CoseField.label : CoseField → Int
  | .keyType => 1
  | .algorithm => 3
  | .curve => -1
  | .x => -2
  | .y => -3

/-- A value as the loop stores it. -/
inductive CoseValue
  | int (value : Int)
  | bytes (handle : Option Bytes)
  deriving DecidableEq, Repr

/-- What the loop reads under a label, if the item is of the kind it looks for. -/
def CoseField.reads : CoseField → CborItem → List CoseValue
  | .keyType, .uint n => [.int (narrow n)]
  | .algorithm, .negint n => [.int (-1 - narrow n)]
  | .curve, .uint n => [.int (narrow n)]
  | .x, .bytestring handle => [.bytes handle]
  | .y, .bytestring handle => [.bytes handle]
  | _, _ => []

/-- What the loop reads for a field in one entry of the map. -/
def CoseField.readsAt (f : CoseField) (entry : CborItem × CborItem) : List CoseValue :=
  if coseLabel entry.1 = some f.label then f.reads entry.2 else []

def CoseField.readsIn (f : CoseField) (pairs : List (CborItem × CborItem)) : List CoseValue :=
  pairs.flatMap f.readsAt

/-- Values that the loop does not refuse. -/
def CoseValue.Fits : CoseValue → Prop
  | .int _ => True
  | .bytes none => False
  | .bytes (some content) => content.length = 32

theorem CoseField.readsAt_of_label {f : CoseField} {key : CborItem}
    (h : coseLabel key = some f.label) (value : CborItem) : f.readsAt (key, value) = f.reads value :=
  if_pos h

theorem CoseField.label_injective {f g : CoseField} (h : f.label = g.label) : f = g := by
  cases f <;> cases g <;> first | rfl | exact absurd h (by decide)

/-- The labels differ, so at most one field reads an entry. -/
theorem CoseField.readsAt_of_ne {f g : CoseField} {entry : CborItem × CborItem}
    (h : f.readsAt entry ≠ []) (hOther : g ≠ f) : g.readsAt entry = [] := by
  unfold CoseField.readsAt at h ⊢
  rw [if_neg]
  intro hLabel
  rw [hLabel] at h
  by_cases hSame : g.label = f.label
  · exact hOther (label_injective hSame)
  · rw [if_neg (by simpa using hSame)] at h
    exact h rfl

/-! ## The loop -/

/-- What a state holds for a field. -/
def CoseState.values (s : CoseState) : CoseField → List CoseValue
  | .keyType => (s.keyType.map .int).toList
  | .algorithm => (s.algorithm.map .int).toList
  | .curve => (s.curve.map .int).toList
  | .x => (s.x.map fun bytes => .bytes (some bytes)).toList
  | .y => (s.y.map fun bytes => .bytes (some bytes)).toList

/-- A state with a value for a field. -/
def CoseState.put (s : CoseState) : CoseField → CoseValue → CoseState
  | .keyType, .int n => { s with keyType := some n }
  | .algorithm, .int n => { s with algorithm := some n }
  | .curve, .int n => { s with curve := some n }
  | .x, .bytes (some bytes) => { s with x := some bytes }
  | .y, .bytes (some bytes) => { s with y := some bytes }
  | _, _ => s

theorem CoseState.length_values (s : CoseState) (f : CoseField) : (s.values f).length ≤ 1 := by
  cases f <;> exact Option.length_toList_le

theorem option_of_toList {α : Type} {a b : Option α} (h : a.toList = b.toList) : a = b := by
  cases a <;> cases b <;> simp_all

theorem CoseState.ext_values {s t : CoseState} (h : ∀ f, t.values f = s.values f) : t = s := by
  have hInt : ∀ {a b : Option Int},
      (a.map CoseValue.int).toList = (b.map CoseValue.int).toList → a = b := fun hSame =>
    Option.map_injective (fun _ _ h => CoseValue.int.inj h) (option_of_toList hSame)
  have hBytes : ∀ {a b : Option Bytes}, (a.map fun bytes => CoseValue.bytes (some bytes)).toList =
      (b.map fun bytes => CoseValue.bytes (some bytes)).toList → a = b := fun hSame =>
    Option.map_injective (fun _ _ h => Option.some.inj (CoseValue.bytes.inj h))
      (option_of_toList hSame)
  obtain ⟨keyType, algorithm, curve, x, y⟩ := s
  obtain ⟨keyType', algorithm', curve', x', y'⟩ := t
  obtain rfl := hInt (h .keyType)
  obtain rfl := hInt (h .algorithm)
  obtain rfl := hInt (h .curve)
  obtain rfl := hBytes (h .x)
  obtain rfl := hBytes (h .y)
  rfl

/-- An entry that no field reads is skipped. -/
theorem coseStep_of_skip {entry : CborItem × CborItem} (h : ∀ f : CoseField, f.readsAt entry = [])
    (s : CoseState) : coseStep s entry.1 entry.2 = some s := by
  obtain ⟨key, value⟩ := entry
  -- each of the first five branches reads something for its field
  have hRead : ∀ f : CoseField, coseLabel key = some f.label → f.reads value = [] :=
    fun f hLabel => (CoseField.readsAt_of_label hLabel value).symm.trans (h f)
  dsimp only
  unfold coseStep
  split
  · next hLabel => exact absurd (hRead .keyType hLabel) (by simp [CoseField.reads])
  · next hLabel => exact absurd (hRead .algorithm hLabel) (by simp [CoseField.reads])
  · next hLabel => exact absurd (hRead .curve hLabel) (by simp [CoseField.reads])
  · next hLabel => exact absurd (hRead .x hLabel) (by simp [CoseField.reads])
  · next hLabel => exact absurd (hRead .y hLabel) (by simp [CoseField.reads])
  · rfl

/-- An entry that a field reads is stored, or refused when the field has a value
already or the new one does not fit. -/
theorem coseStep_of_reads {entry : CborItem × CborItem} {f : CoseField} {value : CoseValue}
    (h : f.readsAt entry = [value]) (s : CoseState) :
    (s.values f = [] ∧ value.Fits → coseStep s entry.1 entry.2 = some (s.put f value) ∧
      (s.put f value).values f = [value]) ∧
    (¬ (s.values f = [] ∧ value.Fits) → coseStep s entry.1 entry.2 = none) ∧
    ∀ g, g ≠ f → (s.put f value).values g = s.values g := by
  obtain ⟨key, item⟩ := entry
  by_cases hLabel : coseLabel key = some f.label
  · rw [CoseField.readsAt_of_label hLabel] at h
    dsimp only
    unfold coseStep
    rw [hLabel]
    cases f <;> cases item <;> simp only [CoseField.reads, List.cons.injEq, and_true,
      reduceCtorEq] at h
    case keyType.uint n =>
      subst h
      refine ⟨fun hFree => ⟨?_, rfl⟩, fun hNot => ?_, fun g hg => ?_⟩
      · have hNone : s.keyType = none := by simpa [CoseState.values] using hFree.1
        simp [CoseField.label, hNone, CoseState.put]
      · have hSome : s.keyType.isSome = true := by
          simpa [CoseState.values, CoseValue.Fits, ← Option.isSome_iff_ne_none] using hNot
        simp [CoseField.label, hSome]
      · cases g <;> first | rfl | exact absurd rfl hg
    case algorithm.negint n =>
      subst h
      refine ⟨fun hFree => ⟨?_, rfl⟩, fun hNot => ?_, fun g hg => ?_⟩
      · have hNone : s.algorithm = none := by simpa [CoseState.values] using hFree.1
        simp [CoseField.label, hNone, CoseState.put]
      · have hSome : s.algorithm.isSome = true := by
          simpa [CoseState.values, CoseValue.Fits, ← Option.isSome_iff_ne_none] using hNot
        simp [CoseField.label, hSome]
      · cases g <;> first | rfl | exact absurd rfl hg
    case curve.uint n =>
      subst h
      refine ⟨fun hFree => ⟨?_, rfl⟩, fun hNot => ?_, fun g hg => ?_⟩
      · have hNone : s.curve = none := by simpa [CoseState.values] using hFree.1
        simp [CoseField.label, hNone, CoseState.put]
      · have hSome : s.curve.isSome = true := by
          simpa [CoseState.values, CoseValue.Fits, ← Option.isSome_iff_ne_none] using hNot
        simp [CoseField.label, hSome]
      · cases g <;> first | rfl | exact absurd rfl hg
    case x.bytestring handle =>
      subst h
      refine ⟨fun hFree => ?_, fun hNot => ?_, fun g hg => ?_⟩
      · have hNone : s.x = none := by simpa [CoseState.values] using hFree.1
        cases handle with
        | none => exact absurd hFree.2 (by simp [CoseValue.Fits])
        | some content =>
            have hLength : content.length = 32 := hFree.2
            simp [CoseField.label, hNone, hLength, CoseState.put, CoseState.values]
      · cases handle with
        | none => rfl
        | some content =>
            have hRefused : s.x.isSome = true ∨ content.length ≠ 32 := by
              by_contra hFits
              rw [not_or, Option.not_isSome_iff_eq_none, not_not] at hFits
              exact hNot ⟨by simp [CoseState.values, hFits.1], hFits.2⟩
            simp only [CoseField.label]
            rw [if_pos hRefused]
      · cases handle <;> cases g <;> first | rfl | exact absurd rfl hg
    case y.bytestring handle =>
      subst h
      refine ⟨fun hFree => ?_, fun hNot => ?_, fun g hg => ?_⟩
      · have hNone : s.y = none := by simpa [CoseState.values] using hFree.1
        cases handle with
        | none => exact absurd hFree.2 (by simp [CoseValue.Fits])
        | some content =>
            have hLength : content.length = 32 := hFree.2
            simp [CoseField.label, hNone, hLength, CoseState.put, CoseState.values]
      · cases handle with
        | none => rfl
        | some content =>
            have hRefused : s.y.isSome = true ∨ content.length ≠ 32 := by
              by_contra hFits
              rw [not_or, Option.not_isSome_iff_eq_none, not_not] at hFits
              exact hNot ⟨by simp [CoseState.values, hFits.1], hFits.2⟩
            simp only [CoseField.label]
            rw [if_pos hRefused]
      · cases handle <;> cases g <;> first | rfl | exact absurd rfl hg
  · rw [CoseField.readsAt, if_neg hLabel] at h
    cases h

theorem CoseField.readsAt_cases (f : CoseField) (entry : CborItem × CborItem) :
    f.readsAt entry = [] ∨ ∃ value, f.readsAt entry = [value] := by
  unfold CoseField.readsAt
  by_cases hLabel : coseLabel entry.1 = some f.label
  · rw [if_pos hLabel]
    cases f <;> cases entry.2 <;> simp [CoseField.reads]
  · exact .inl (if_neg hLabel)

/-- The loop ends where each field has been read at most once, and never a value that is
refused; the state then holds what was read. -/
theorem coseLoop_iff {s t : CoseState} {pairs : List (CborItem × CborItem)} :
    coseLoop s pairs = some t ↔ ∀ f : CoseField, t.values f = s.values f ++ f.readsIn pairs ∧
      ∀ value ∈ f.readsIn pairs, value.Fits := by
  induction pairs generalizing s with
  | nil =>
      constructor
      · intro h f
        obtain rfl := Option.some.inj h
        simp [CoseField.readsIn]
      · intro h
        have hSame : t = s := CoseState.ext_values fun f => by simpa [CoseField.readsIn] using (h f).1
        rw [hSame]
        rfl
  | cons entry pairs ih =>
      have hLoop : coseLoop s (entry :: pairs) =
          (coseStep s entry.1 entry.2).bind fun s' => coseLoop s' pairs := by
        rw [coseLoop]
        cases coseStep s entry.1 entry.2 <;> rfl
      have hReads : ∀ f : CoseField, f.readsIn (entry :: pairs) = f.readsAt entry ++ f.readsIn pairs :=
        fun f => List.flatMap_cons
      simp only [hLoop, hReads]
      by_cases hSkip : ∀ f : CoseField, f.readsAt entry = []
      · rw [coseStep_of_skip hSkip, Option.bind_some, ih]
        simp [hSkip]
      · obtain ⟨f, hf⟩ := not_forall.mp hSkip
        obtain ⟨value, hValue⟩ := (f.readsAt_cases entry).resolve_left hf
        obtain ⟨hStored, hRefused, hOthers⟩ := coseStep_of_reads hValue s
        by_cases hFree : s.values f = [] ∧ value.Fits
        · obtain ⟨hStep, hPut⟩ := hStored hFree
          rw [hStep, Option.bind_some, ih]
          refine forall_congr' fun g => ?_
          by_cases hg : g = f
          · subst hg
            simp [hPut, hValue, hFree]
          · simp [hOthers g hg, CoseField.readsAt_of_ne hf hg]
        · rw [hRefused hFree, Option.bind_none]
          refine iff_of_false (by simp) fun h => hFree ⟨?_, ?_⟩
          · -- a second value does not fit into the state
            have hLength := CoseState.length_values t f
            rw [(h f).1, hValue] at hLength
            simp only [List.length_append, List.length_singleton] at hLength
            exact List.length_eq_zero_iff.mp (by omega)
          · exact (h f).2 value (by simp [hValue])

/-! ## What the parser accepts -/

/-- The value of a field in a key with these coordinates, as the loop stores it. -/
def CoseField.value (x y : Bytes) : CoseField → CoseValue
  | .keyType => .int 2
  | .algorithm => .int (-7)
  | .curve => .int 1
  | .x => .bytes (some x)
  | .y => .bytes (some y)

/-- The loop reads each field once, with its value. -/
structure ReadsKey (pairs : List (CborItem × CborItem)) (x y : Bytes) : Prop where
  fields : ∀ f : CoseField, f.readsIn pairs = [f.value x y]
  length_x : x.length = 32
  length_y : y.length = 32

/-- The state in which the loop has read a key. -/
def keyState (x y : Bytes) : CoseState :=
  { keyType := some 2, algorithm := some (-7), curve := some 1, x := some x, y := some y }

theorem values_keyState (x y : Bytes) (f : CoseField) :
    (keyState x y).values f = [f.value x y] := by
  cases f <;> rfl

theorem coseLoop_keyState_iff {pairs : List (CborItem × CborItem)} {x y : Bytes} :
    coseLoop {} pairs = some (keyState x y) ↔ ReadsKey pairs x y := by
  have hEmpty : ∀ f : CoseField, ({} : CoseState).values f = [] := fun f => by cases f <;> rfl
  rw [coseLoop_iff]
  constructor
  · intro h
    have hFields : ∀ f : CoseField, f.readsIn pairs = [f.value x y] := fun f => by
      have hf := (h f).1
      rw [values_keyState, hEmpty, List.nil_append] at hf
      exact hf.symm
    exact ⟨hFields, (h .x).2 (.bytes (some x)) (by simp [hFields, CoseField.value]),
      (h .y).2 (.bytes (some y)) (by simp [hFields, CoseField.value])⟩
  · intro h f
    rw [values_keyState, hEmpty, List.nil_append, h.fields f]
    refine ⟨rfl, fun value hValue => ?_⟩
    obtain rfl := List.mem_singleton.mp hValue
    cases f
    · trivial
    · trivial
    · trivial
    · exact h.length_x
    · exact h.length_y

variable {P : Platform}

/-- The bytes are one CBOR map of at most 32 entries and nothing else. -/
def LoadsMap (P : Platform) (cose : Bytes) (pairs : List (CborItem × CborItem)) : Prop :=
  P.cborLoad cose = some (.map pairs, cose.length) ∧ pairs.length ≤ 32

/-- What `CoseEs256Coordinates` accepts, in terms of what its loop reads. -/
theorem coseEs256Coordinates_iff {cose coordinates : Bytes} :
    coseEs256Coordinates P cose = some coordinates ↔
      ∃ pairs x y, LoadsMap P cose pairs ∧ ReadsKey pairs x y ∧ coordinates = x ++ y := by
  unfold coseEs256Coordinates
  constructor
  · intro h
    split at h
    · next pairs read hLoad =>
        split_ifs at h with hRefused
        rw [not_or, not_not, Nat.not_lt] at hRefused
        obtain ⟨rfl, hFew⟩ := hRefused
        split at h
        · next algorithm x y hLoop =>
            split_ifs at h with hKey
            obtain ⟨rfl, _, _⟩ := hKey
            exact ⟨pairs, x, y, ⟨hLoad, hFew⟩, coseLoop_keyState_iff.mp hLoop,
              (Option.some.inj h).symm⟩
        · cases h
    · cases h
  · rintro ⟨pairs, x, y, ⟨hLoad, hFew⟩, hKey, rfl⟩
    rw [hLoad]
    dsimp only
    rw [if_neg (by omega), coseLoop_keyState_iff.mpr hKey]
    simp [keyState, COSE_ES256, hKey.length_x, hKey.length_y]

/-! ## ES256 keys -/

/-- The integer that a CBOR item stands for. -/
def intOf : CborItem → Option Int
  | .uint n => some n
  | .negint n => some (-1 - n)
  | _ => none

/-- The item of a field in a key with these coordinates. -/
def CoseField.item (x y : Bytes) : CoseField → CborItem
  | .keyType => .uint 2
  | .algorithm => .negint 6
  | .curve => .uint 1
  | .x => .bytestring (some x)
  | .y => .bytestring (some y)

/-- The items under the label of a field. -/
def CoseField.itemsIn (f : CoseField) (pairs : List (CborItem × CborItem)) : List CborItem :=
  (pairs.filter fun entry => intOf entry.1 = some f.label).map (·.2)

/-- A map with each of the five labels once, with its value. -/
structure IsEs256 (pairs : List (CborItem × CborItem)) (x y : Bytes) : Prop where
  fields : ∀ f : CoseField, f.itemsIn pairs = [f.item x y]
  length_x : x.length = 32
  length_y : y.length = 32

/-- `CoseEs256Coordinates` accepts exactly the bytes of ES256 keys. -/
def ParsesKeys (P : Platform) (cose : Bytes) : Prop :=
  ∀ coordinates, coseEs256Coordinates P cose = some coordinates ↔
    ∃ pairs x y, LoadsMap P cose pairs ∧ IsEs256 pairs x y ∧ coordinates = x ++ y

/-- The integer survives the cast to 32 bits, if the item is one. -/
def SurvivesCast (item : CborItem) : Prop :=
  ∀ n, item = .uint n ∨ item = .negint n → narrow n = n

/-- What the loop takes for one of the labels is this label, with a value that survives
its cast, and each of these labels has a value of the kind that the loop looks for. -/
def Unambiguous (pairs : List (CborItem × CborItem)) : Prop :=
  ∀ entry ∈ pairs, ∀ f : CoseField,
    (f.readsAt entry ≠ [] → intOf entry.1 = some f.label ∧ SurvivesCast entry.2) ∧
    (intOf entry.1 = some f.label → f.reads entry.2 ≠ [])

/-- A label at full width is the label that the loop sees. -/
theorem coseLabel_of_intOf {key : CborItem} {f : CoseField} (h : intOf key = some f.label) :
    coseLabel key = some f.label := by
  cases key with
  | uint n =>
      have hLabel : (n : Int) = f.label := Option.some.inj h
      cases f with
      | keyType =>
          obtain rfl : n = 1 := by simp only [CoseField.label] at hLabel; omega
          rfl
      | algorithm =>
          obtain rfl : n = 3 := by simp only [CoseField.label] at hLabel; omega
          rfl
      | _ =>
          simp only [CoseField.label] at hLabel
          omega
  | negint n =>
      have hLabel : -1 - (n : Int) = f.label := Option.some.inj h
      cases f with
      | curve =>
          obtain rfl : n = 0 := by simp only [CoseField.label] at hLabel; omega
          rfl
      | x =>
          obtain rfl : n = 1 := by simp only [CoseField.label] at hLabel; omega
          rfl
      | y =>
          obtain rfl : n = 2 := by simp only [CoseField.label] at hLabel; omega
          rfl
      | _ =>
          simp only [CoseField.label] at hLabel
          omega
  | _ => simp [intOf] at h

theorem reads_item (f : CoseField) (x y : Bytes) : f.reads (f.item x y) = [f.value x y] := by
  cases f <;> rfl

/-- A value that survives its cast is the right one when the loop takes it for that. -/
theorem reads_eq_value_iff {f : CoseField} {item : CborItem} {x y : Bytes}
    (hSurvives : SurvivesCast item) : f.reads item = [f.value x y] ↔ item = f.item x y := by
  constructor
  · intro h
    cases f <;> cases item <;> simp only [CoseField.reads, CoseField.value, List.cons.injEq,
      and_true, CoseValue.int.injEq, CoseValue.bytes.injEq, reduceCtorEq] at h
    case keyType.uint n =>
      rw [hSurvives n (.inl rfl)] at h
      obtain rfl : n = 2 := by omega
      rfl
    case algorithm.negint n =>
      rw [hSurvives n (.inr rfl)] at h
      obtain rfl : n = 6 := by omega
      rfl
    case curve.uint n =>
      rw [hSurvives n (.inl rfl)] at h
      obtain rfl : n = 1 := by omega
      rfl
    case x.bytestring handle => rw [h, CoseField.item]
    case y.bytestring handle => rw [h, CoseField.item]
  · rintro rfl
    exact reads_item f x y

/-! ### Unambiguous maps -/

/-- Where the loop takes nothing else for a label, it reads the items under this label. -/
theorem readsIn_eq_flatMap {f : CoseField} {pairs : List (CborItem × CborItem)}
    (h : ∀ entry ∈ pairs, f.readsAt entry ≠ [] → intOf entry.1 = some f.label) :
    f.readsIn pairs = (f.itemsIn pairs).flatMap f.reads := by
  induction pairs with
  | nil => rfl
  | cons entry pairs ih =>
      rw [List.forall_mem_cons] at h
      have hRest := ih h.2
      have hFirst : f.readsIn (entry :: pairs) = f.readsAt entry ++ f.readsIn pairs :=
        List.flatMap_cons
      rw [hFirst, hRest]
      by_cases hLabel : intOf entry.1 = some f.label
      · have hItems : f.itemsIn (entry :: pairs) = entry.2 :: f.itemsIn pairs := by
          simp [CoseField.itemsIn, hLabel]
        rw [hItems, List.flatMap_cons, CoseField.readsAt, if_pos (coseLabel_of_intOf hLabel)]
      · have hItems : f.itemsIn (entry :: pairs) = f.itemsIn pairs := by
          simp [CoseField.itemsIn, hLabel]
        have hNone : f.readsAt entry = [] := by
          by_contra hSome
          exact hLabel (h.1 hSome)
        rw [hItems, hNone, List.nil_append]

/-- Items of the right kind are read as one value only if there is one item. -/
theorem flatMap_reads_iff {f : CoseField} {items : List CborItem} {x y : Bytes}
    (hKind : ∀ item ∈ items, f.reads item ≠ []) (hSurvives : ∀ item ∈ items, SurvivesCast item) :
    items.flatMap f.reads = [f.value x y] ↔ items = [f.item x y] := by
  have hPos : ∀ item ∈ items, 0 < (f.reads item).length := fun item hItem =>
    List.length_pos_iff.mpr (hKind item hItem)
  constructor
  · intro h
    rcases items with _ | ⟨item, _ | ⟨second, more⟩⟩
    · cases h
    · rw [List.flatMap_cons, List.flatMap_nil, List.append_nil] at h
      rw [(reads_eq_value_iff (hSurvives item List.mem_cons_self)).mp h]
    · have hLength := congrArg List.length h
      have hFirst := hPos item (by simp)
      have hSecond := hPos second (by simp)
      simp only [List.flatMap_cons, List.length_append, List.length_singleton] at hLength
      omega
  · rintro rfl
    simp [reads_item]

theorem mem_itemsIn {f : CoseField} {pairs : List (CborItem × CborItem)} {item : CborItem} :
    item ∈ f.itemsIn pairs ↔ ∃ entry ∈ pairs, intOf entry.1 = some f.label ∧ entry.2 = item := by
  simp [CoseField.itemsIn]

/-- In an unambiguous map the loop reads the key that is there. -/
theorem readsKey_iff {pairs : List (CborItem × CborItem)} (h : Unambiguous pairs) {x y : Bytes} :
    ReadsKey pairs x y ↔ IsEs256 pairs x y := by
  have hField : ∀ f : CoseField, f.readsIn pairs = [f.value x y] ↔ f.itemsIn pairs = [f.item x y] := by
    intro f
    rw [readsIn_eq_flatMap fun entry hEntry hReads => ((h entry hEntry f).1 hReads).1]
    apply flatMap_reads_iff
    · intro item hItem
      obtain ⟨entry, hEntry, hLabel, rfl⟩ := mem_itemsIn.mp hItem
      exact (h entry hEntry f).2 hLabel
    · intro item hItem
      obtain ⟨entry, hEntry, hLabel, rfl⟩ := mem_itemsIn.mp hItem
      refine ((h entry hEntry f).1 ?_).2
      rw [CoseField.readsAt, if_pos (coseLabel_of_intOf hLabel)]
      exact (h entry hEntry f).2 hLabel
  constructor
  · exact fun hKey => ⟨fun f => (hField f).mp (hKey.fields f), hKey.length_x, hKey.length_y⟩
  · exact fun hKey => ⟨fun f => (hField f).mpr (hKey.fields f), hKey.length_x, hKey.length_y⟩

theorem length_readsIn_pos {f : CoseField} {pairs : List (CborItem × CborItem)}
    {entry : CborItem × CborItem} (hMem : entry ∈ pairs) (hReads : f.readsAt entry ≠ []) :
    0 < (f.readsIn pairs).length := by
  rw [List.length_pos_iff]
  intro hNone
  exact hReads (List.flatMap_eq_nil_iff.mp hNone entry hMem)

/-- A map that is a key, and from which the loop reads one, is unambiguous. -/
theorem unambiguous_of_key {pairs : List (CborItem × CborItem)} {x y x' y' : Bytes}
    (hReads : ReadsKey pairs x y) (hKey : IsEs256 pairs x' y') : Unambiguous pairs := by
  intro entry hEntry f
  have hItem : intOf entry.1 = some f.label → entry.2 = f.item x' y' := fun hLabel => by
    have hMem := mem_itemsIn.mpr ⟨entry, hEntry, hLabel, rfl⟩
    rw [hKey.fields f] at hMem
    exact List.mem_singleton.mp hMem
  refine ⟨fun hRead => ?_, fun hLabel => ?_⟩
  · have hLabel : intOf entry.1 = some f.label := by
      by_contra hOther
      -- the entry of the key itself is read as well
      obtain ⟨proper, hProper, hProperLabel, hProperItem⟩ :=
        mem_itemsIn.mp (hKey.fields f ▸ List.mem_singleton.mpr rfl : f.item x' y' ∈ f.itemsIn pairs)
      have hProperRead : f.readsAt proper ≠ [] := by
        rw [CoseField.readsAt, if_pos (coseLabel_of_intOf hProperLabel), hProperItem, reads_item]
        simp
      obtain ⟨front, back, rfl⟩ := List.append_of_mem hEntry
      have hOne := congrArg List.length (hReads.fields f)
      have hHere : 0 < (f.readsAt entry).length := List.length_pos_iff.mpr hRead
      have hSplit : (f.readsIn (front ++ entry :: back)).length =
          (f.readsIn front).length + (f.readsAt entry).length + (f.readsIn back).length := by
        simp [CoseField.readsIn, Nat.add_assoc]
      rw [hSplit, List.length_singleton] at hOne
      rcases List.mem_append.mp hProper with hFront | hBack
      · have hMore := length_readsIn_pos hFront hProperRead
        omega
      · rcases List.mem_cons.mp hBack with rfl | hBack
        · exact hOther hProperLabel
        · have hMore := length_readsIn_pos hBack hProperRead
          omega
    refine ⟨hLabel, ?_⟩
    rw [hItem hLabel]
    rintro n (hn | hn) <;> cases f <;> cases hn <;> rfl
  · rw [hItem hLabel, reads_item]
    simp

/-- The parser is exact where the map is unambiguous, and where it is no key anyway. -/
theorem parsesKeys_iff {cose : Bytes} :
    ParsesKeys P cose ↔ ∀ pairs, LoadsMap P cose pairs → Unambiguous pairs ∨
      ∀ x y, ¬ ReadsKey pairs x y ∧ ¬ IsEs256 pairs x y := by
  have hSame : ∀ {pairs pairs'}, LoadsMap P cose pairs → LoadsMap P cose pairs' → pairs' = pairs := by
    intro pairs pairs' hLoads hLoads'
    have hEq := hLoads'.1.symm.trans hLoads.1
    simpa using hEq
  constructor
  · intro hParses pairs hLoads
    by_cases hKey : ∃ x y, ReadsKey pairs x y ∨ IsEs256 pairs x y
    · left
      obtain ⟨x, y, hReads | hIs⟩ := hKey
      · obtain ⟨pairs', x', y', hLoads', hIs, _⟩ := (hParses (x ++ y)).mp
          (coseEs256Coordinates_iff.mpr ⟨pairs, x, y, hLoads, hReads, rfl⟩)
        rw [hSame hLoads hLoads'] at hIs
        exact unambiguous_of_key hReads hIs
      · obtain ⟨pairs', x', y', hLoads', hReads, _⟩ := coseEs256Coordinates_iff.mp
          ((hParses (x ++ y)).mpr ⟨pairs, x, y, hLoads, hIs, rfl⟩)
        rw [hSame hLoads hLoads'] at hReads
        exact unambiguous_of_key hReads hIs
    · right
      intro x y
      rw [← not_or]
      exact fun h => hKey ⟨x, y, h⟩
  · intro h coordinates
    rw [coseEs256Coordinates_iff]
    refine exists_congr fun pairs => exists_congr fun x => exists_congr fun y => ?_
    refine and_congr_right fun hLoads => and_congr_left' ?_
    rcases h pairs hLoads with hPlain | hNone
    · exact readsKey_iff hPlain
    · exact iff_of_false (hNone x y).1 (hNone x y).2

section Example

open Reference

/-- Thirty-two bytes in the place of a coordinate. -/
def coordinate (byte : UInt8) : Bytes := List.replicate 32 byte

/-- A key, but with the label `2 ^ 32 + 1` in the place of 1. -/
def wideLabelPairs : List (CborItem × CborItem) :=
  [(.uint 4294967297, .uint 2), (.uint 3, .negint 6), (.negint 0, .uint 1),
    (.negint 1, .bytestring (some (coordinate 1))), (.negint 2, .bytestring (some (coordinate 2)))]

/-- Its CBOR encoding. -/
def wideLabelCose : Bytes :=
  [0xA5, 0x1B, 0, 0, 0, 1, 0, 0, 0, 1, 0x02, 0x03, 0x26, 0x20, 0x01, 0x21, 0x58, 0x20] ++
    coordinate 1 ++ [0x22, 0x58, 0x20] ++ coordinate 2

/-- A libcbor that knows this encoding. -/
def wideLabelPlatform : Platform :=
  platform { cborLoad := fun input =>
    if wideLabelCose.isPrefixOf input then some (.map wideLabelPairs, wideLabelCose.length) else none }

/-- The cast takes `2 ^ 32 + 1` for 1, and the map is accepted as a key. -/
theorem parsesKeys_counterexample : ¬ ∀ (P : Platform) (cose : Bytes), ParsesKeys P cose := by
  intro h
  have hAccepted : coseEs256Coordinates wideLabelPlatform wideLabelCose =
      some (coordinate 1 ++ coordinate 2) := by decide +kernel
  obtain ⟨pairs, x, y, hLoads, hKey, _⟩ := (h wideLabelPlatform wideLabelCose _).mp hAccepted
  have hPairs : pairs = wideLabelPairs := by
    have hLoad : wideLabelPlatform.cborLoad wideLabelCose =
        some (.map wideLabelPairs, wideLabelCose.length) := rfl
    simpa using hLoads.1.symm.trans hLoad
  have hNone : CoseField.keyType.itemsIn wideLabelPairs = [] := rfl
  have hOne := hKey.fields .keyType
  rw [hPairs, hNone] at hOne
  cases hOne

end Example

end FidoVerifier
end WindowsFidoLogon
