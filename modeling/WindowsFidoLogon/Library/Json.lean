import Mathlib.Algebra.Ring.Int.Defs
import Mathlib.Algebra.Ring.Nat
import Mathlib.Tactic.SplitIfs
import WindowsFidoLogon.Library.Program
import WindowsFidoLogon.Library.Text

/-!
# JSON values and their checked accessors

The value type of a JSON library in the style of `nlohmann::json`, with the
accessors that throw: `at`, `value`, `get` and the range-based `for`.  An
accessor either returns or throws the `what()` text of the exception the
library documents for it, so that a program that quotes such a text in a reply
can be checked byte by byte.

Parsing and printing are not defined here.  `allStrings` and `canonical` are
the two predicates in which their contracts are stated: printing is refused
exactly on strings that are not UTF-8, and parsing undoes printing on values
in the form the parser produces.
-/

open Text

/-- A JSON value.  Object members stand in the order of the `std::map` that
holds them.  A floating-point number is represented by the integer to which it
truncates, which is all the integral accessors see of it. -/
inductive Json
  | null
  | bool (value : Bool)
  | int (value : Int)
  | float (truncated : Int)
  | str (value : Bytes)
  | arr (items : List Json)
  | obj (fields : List (Bytes × Json))
  deriving Inhabited

namespace Json

/-- `json::type_name()`. -/
def typeName : Json → Bytes
  | null => text "null"
  | bool _ => text "boolean"
  | int _ => text "number"
  | float _ => text "number"
  | str _ => text "string"
  | arr _ => text "array"
  | obj _ => text "object"

/-- The `what()` text of a `json::type_error`. -/
def typeError (id message : Bytes) : Bytes :=
  text "[json.exception.type_error." ++ id ++ text "] " ++ message

/-- The member of an object, if there is one. -/
def lookup (key : Bytes) : List (Bytes × Json) → Option Json
  | [] => none
  | (k, v) :: rest => if k = key then some v else lookup key rest

/-- `contains(key)`. -/
def contains (j : Json) (key : Bytes) : Bool :=
  match j with
  | obj fields => (lookup key fields).isSome
  | _ => false

/-- `at(key)`. -/
def at_ (j : Json) (key : Bytes) : Except Bytes Json :=
  match j with
  | obj fields =>
      match lookup key fields with
      | some v => .ok v
      | none => .error
          (text "[json.exception.out_of_range.403] key '" ++ key ++ text "' not found")
  | other => .error
      (typeError (text "304") (text "cannot use at() with " ++ other.typeName))

/-- `get<std::string>()`. -/
def getString : Json → Except Bytes Bytes
  | str s => .ok s
  | other => .error
      (typeError (text "302") (text "type must be string, but is " ++ other.typeName))

/-- `get_ref<std::string&>()`. -/
def getStringRef : Json → Except Bytes Bytes
  | str s => .ok s
  | other => .error
      (typeError (text "303")
        (text "incompatible ReferenceType for get_ref, actual type is " ++ other.typeName))

/-- `get<bool>()`. -/
def getBool : Json → Except Bytes Bool
  | bool b => .ok b
  | other => .error
      (typeError (text "302") (text "type must be boolean, but is " ++ other.typeName))

/-- The number an arithmetic `get` converts: any number, and a boolean. -/
def getNumber : Json → Except Bytes Int
  | int n => .ok n
  | float n => .ok n
  | bool b => .ok (if b then 1 else 0)
  | other => .error
      (typeError (text "302") (text "type must be number, but is " ++ other.typeName))

/-- `get<int>()`: the number, narrowed to 32 bits. -/
def getInt (j : Json) : Except Bytes Int :=
  j.getNumber.map fun n => Int.bmod n (2 ^ 32)

/-- `get<unsigned int>()`: the number, narrowed to 32 bits. -/
def getUnsigned (j : Json) : Except Bytes UInt32 :=
  j.getNumber.map fun n => UInt32.ofNat (n % 2 ^ 32).toNat

/-- `value(key, default)` with the conversion of the default's type. -/
def valueOr {α : Type} (get : Json → Except Bytes α) (j : Json) (key : Bytes) (default : α) :
    Except Bytes α :=
  match j with
  | obj fields =>
      match lookup key fields with
      | some v => get v
      | none => .ok default
  | other => .error
      (typeError (text "306") (text "cannot use value() with " ++ other.typeName))

/-- The order of `std::string`, byte by byte. -/
def keyLt : Bytes → Bytes → Bool
  | _, [] => false
  | [], _ :: _ => true
  | a :: s, b :: t => a < b || (a == b && keyLt s t)

theorem keyLt_irrefl (key : Bytes) : keyLt key key = false := by
  induction key with
  | nil => rfl
  | cons b s ih => simp [keyLt, ih]

/-- Set a member of an object, keeping the members sorted. -/
def setField (key : Bytes) (value : Json) : List (Bytes × Json) → List (Bytes × Json)
  | [] => [(key, value)]
  | (k, v) :: rest =>
      if k = key then (key, value) :: rest
      else if keyLt key k then (key, value) :: (k, v) :: rest
      else (k, v) :: setField key value rest

/-- `j[key] = value` on an object. -/
def set (j : Json) (key : Bytes) (value : Json) : Json :=
  match j with
  | obj fields => obj (setField key value fields)
  | other => other

/-- What `for (const auto& item : j)` visits. -/
def elements : Json → List Json
  | null => []
  | arr items => items
  | obj fields => fields.map Prod.snd
  | other => [other]

/-! ## Predicates on whole values -/

mutual

/-- Every string in the value, member names included, satisfies `p`. -/
def allStrings (p : Bytes → Bool) : Json → Bool
  | str s => p s
  | arr items => allStringsList p items
  | obj fields => allStringsFields p fields
  | _ => true

/-- `allStrings` for the items of an array. -/
def allStringsList (p : Bytes → Bool) : List Json → Bool
  | [] => true
  | j :: rest => j.allStrings p && allStringsList p rest

/-- `allStrings` for the members of an object. -/
def allStringsFields (p : Bytes → Bool) : List (Bytes × Json) → Bool
  | [] => true
  | (key, j) :: rest => p key && (j.allStrings p && allStringsFields p rest)

end

/-- The first key of a member list, if there is one, comes after `key`. -/
def precedes (key : Bytes) : List (Bytes × Json) → Bool
  | [] => true
  | (next, _) :: _ => keyLt key next

mutual

/-- The value has the form the parser gives it: the members of every object
are in strictly increasing order, and no number was rounded. -/
def canonical : Json → Bool
  | float _ => false
  | arr items => canonicalList items
  | obj fields => canonicalFields fields
  | _ => true

/-- `canonical` for the items of an array. -/
def canonicalList : List Json → Bool
  | [] => true
  | j :: rest => j.canonical && canonicalList rest

/-- `canonical` for the members of an object. -/
def canonicalFields : List (Bytes × Json) → Bool
  | [] => true
  | (key, j) :: rest => precedes key rest && (j.canonical && canonicalFields rest)

end

theorem allStringsList_iff {p : Bytes → Bool} {items : List Json} :
    allStringsList p items = true ↔ ∀ j ∈ items, j.allStrings p = true := by
  induction items with
  | nil => simp [allStringsList]
  | cons j rest ih => simp [allStringsList, ih]

theorem allStringsFields_iff {p : Bytes → Bool} {fields : List (Bytes × Json)} :
    allStringsFields p fields = true ↔
      ∀ f ∈ fields, p f.1 = true ∧ f.2.allStrings p = true := by
  induction fields with
  | nil => simp [allStringsFields]
  | cons f rest ih => simp [allStringsFields, ih, and_assoc]

theorem canonicalList_iff {items : List Json} :
    canonicalList items = true ↔ ∀ j ∈ items, j.canonical = true := by
  induction items with
  | nil => simp [canonicalList]
  | cons j rest ih => simp [canonicalList, ih]

theorem mem_of_lookup {key : Bytes} {fields : List (Bytes × Json)} {v : Json}
    (h : lookup key fields = some v) : (key, v) ∈ fields := by
  induction fields with
  | nil => simp [lookup] at h
  | cons f rest ih =>
      obtain ⟨k, w⟩ := f
      by_cases hk : k = key
      · simp only [lookup, if_pos hk, Option.some.injEq] at h
        rw [hk, h]
        exact List.mem_cons_self
      · simp only [lookup, if_neg hk] at h
        exact List.mem_cons_of_mem _ (ih h)

@[simp] theorem lookup_setField (key : Bytes) (v : Json) (fields : List (Bytes × Json)) :
    lookup key (setField key v fields) = some v := by
  induction fields with
  | nil => simp [setField, lookup]
  | cons f rest ih =>
      obtain ⟨k, w⟩ := f
      simp only [setField]
      split_ifs with hk hlt
      · simp [lookup]
      · simp [lookup]
      · simp [lookup, hk, ih]

theorem lookup_setField_of_ne {key other : Bytes} (h : other ≠ key) (v : Json)
    (fields : List (Bytes × Json)) :
    lookup other (setField key v fields) = lookup other fields := by
  induction fields with
  | nil => simp [setField, lookup, h.symm]
  | cons f rest ih =>
      obtain ⟨k, w⟩ := f
      simp only [setField]
      split_ifs with hk hlt
      · simp [lookup, hk, h.symm]
      · simp [lookup, h.symm]
      · simp [lookup, ih]

theorem allStringsFields_setField {p : Bytes → Bool} {key : Bytes} {v : Json}
    {fields : List (Bytes × Json)} (hkey : p key = true) (hv : v.allStrings p = true)
    (hfields : allStringsFields p fields = true) :
    allStringsFields p (setField key v fields) = true := by
  induction fields with
  | nil => simp [setField, allStringsFields, hkey, hv]
  | cons f rest ih =>
      obtain ⟨k, w⟩ := f
      simp only [allStringsFields, Bool.and_eq_true] at hfields
      obtain ⟨hk, hw, hrest⟩ := hfields
      simp only [setField]
      split_ifs
      · simp [allStringsFields, hkey, hv, hrest]
      · simp [allStringsFields, hkey, hv, hk, hw, hrest]
      · simp [allStringsFields, hk, hw, ih hrest]

/-- The member of a value has no strings that the value does not have. -/
theorem allStrings_of_at {p : Bytes → Bool} {j v : Json} {key : Bytes}
    (hj : j.allStrings p = true) (hv : j.at_ key = .ok v) : v.allStrings p = true := by
  cases j with
  | obj fields =>
      simp only [at_] at hv
      cases hl : lookup key fields with
      | none => simp [hl] at hv
      | some w =>
          simp only [hl, Except.ok.injEq] at hv
          rw [allStrings, allStringsFields_iff] at hj
          exact hv ▸ (hj _ (mem_of_lookup hl)).2
  | _ => simp [at_] at hv

theorem allStrings_of_elements {p : Bytes → Bool} {j v : Json}
    (hj : j.allStrings p = true) (hv : v ∈ j.elements) : v.allStrings p = true := by
  cases j with
  | null => simp [elements] at hv
  | arr items =>
      rw [allStrings, allStringsList_iff] at hj
      exact hj v hv
  | obj fields =>
      rw [allStrings, allStringsFields_iff] at hj
      obtain ⟨f, hf, rfl⟩ := List.mem_map.mp hv
      exact (hj f hf).2
  | _ =>
      simp only [elements, List.mem_singleton] at hv
      exact hv ▸ hj

/-- A string read out of a value is one of its strings. -/
theorem of_getString {p : Bytes → Bool} {j : Json} {s : Bytes}
    (hj : j.allStrings p = true) (hs : j.getString = .ok s) : p s = true := by
  cases j with
  | str t =>
      simp only [getString, Except.ok.injEq] at hs
      rw [allStrings] at hj
      exact hs ▸ hj
  | _ => simp [getString] at hs

/-- A string read out of a value with a default is one of its strings, or the
default. -/
theorem of_valueOr_getString {p : Bytes → Bool} {j : Json} {key s dflt : Bytes}
    (hj : j.allStrings p = true) (hd : p dflt = true)
    (hs : valueOr getString j key dflt = .ok s) : p s = true := by
  cases j with
  | obj fields =>
      simp only [valueOr] at hs
      cases hl : lookup key fields with
      | none =>
          simp only [hl, Except.ok.injEq] at hs
          exact hs ▸ hd
      | some w =>
          simp only [hl] at hs
          rw [allStrings, allStringsFields_iff] at hj
          exact of_getString (hj _ (mem_of_lookup hl)).2 hs
  | _ => simp [valueOr] at hs

/-! ## The texts of the accessors' exceptions -/

/-- What a computation throws is a UTF-8 text. -/
def FailsUtf8 {α : Type} (r : Except Bytes α) : Prop :=
  ∀ e, r = .error e → validUtf8 e = true

namespace FailsUtf8

variable {α β : Type}

theorem ok (a : α) : FailsUtf8 (.ok a : Except Bytes α) := by
  rintro e ⟨⟩

theorem error {e : Bytes} (h : validUtf8 e = true) : FailsUtf8 (.error e : Except Bytes α) := by
  rintro e' ⟨⟩
  exact h

theorem bind {r : Except Bytes α} {f : α → Except Bytes β} (hr : FailsUtf8 r)
    (hf : ∀ a, r = .ok a → FailsUtf8 (f a)) : FailsUtf8 (r >>= f) := by
  intro e h
  rcases Program.except_bind_eq_error.mp h with h | ⟨a, ha, h⟩
  · exact hr e h
  · exact hf a ha e h

theorem map {r : Except Bytes α} {f : α → β} (hr : FailsUtf8 r) : FailsUtf8 (r.map f) := by
  intro e h
  cases r with
  | ok a => cases h
  | error e' =>
      cases h
      exact hr _ rfl

theorem mapM {f : α → Except Bytes β} {xs : List α} (hf : ∀ x, FailsUtf8 (f x)) :
    FailsUtf8 (xs.mapM f) := by
  intro e h
  obtain ⟨x, _, hx⟩ := Program.of_mapM_error h
  exact hf x e hx

end FailsUtf8

theorem validUtf8_typeName (j : Json) : validUtf8 j.typeName = true := by
  cases j <;> rfl

theorem validUtf8_typeError {id message : Bytes} (hId : validUtf8 id = true)
    (hMessage : validUtf8 message = true) : validUtf8 (typeError id message) = true :=
  validUtf8_append (validUtf8_append (validUtf8_append rfl hId) rfl) hMessage

theorem failsUtf8_at {key : Bytes} (hKey : validUtf8 key = true) (j : Json) :
    FailsUtf8 (j.at_ key) := by
  unfold at_
  split
  · split
    · exact .ok _
    · exact .error (validUtf8_append (validUtf8_append rfl hKey) rfl)
  · exact .error (validUtf8_typeError rfl (validUtf8_append rfl (validUtf8_typeName _)))

theorem failsUtf8_getString (j : Json) : FailsUtf8 j.getString := by
  unfold getString
  split
  · exact .ok _
  · exact .error (validUtf8_typeError rfl (validUtf8_append rfl (validUtf8_typeName _)))

theorem failsUtf8_getStringRef (j : Json) : FailsUtf8 j.getStringRef := by
  unfold getStringRef
  split
  · exact .ok _
  · exact .error (validUtf8_typeError rfl (validUtf8_append rfl (validUtf8_typeName _)))

theorem failsUtf8_getBool (j : Json) : FailsUtf8 j.getBool := by
  unfold getBool
  split
  · exact .ok _
  · exact .error (validUtf8_typeError rfl (validUtf8_append rfl (validUtf8_typeName _)))

theorem failsUtf8_getNumber (j : Json) : FailsUtf8 j.getNumber := by
  unfold getNumber
  split
  · exact .ok _
  · exact .ok _
  · exact .ok _
  · exact .error (validUtf8_typeError rfl (validUtf8_append rfl (validUtf8_typeName _)))

theorem failsUtf8_getUnsigned (j : Json) : FailsUtf8 j.getUnsigned :=
  .map (failsUtf8_getNumber j)

theorem failsUtf8_valueOr {α : Type} {get : Json → Except Bytes α} (hGet : ∀ j, FailsUtf8 (get j))
    (j : Json) (key : Bytes) (dflt : α) : FailsUtf8 (valueOr get j key dflt) := by
  unfold valueOr
  split
  · split
    · exact hGet _
    · exact .ok _
  · exact .error (validUtf8_typeError rfl (validUtf8_append rfl (validUtf8_typeName _)))

end Json
