import Mathlib.Data.List.Forall2
import Mathlib.Data.List.Nodup

/-!
# Lists of records with a key

A table kept as a list, in which the first record with a key is the one that
counts.  The operations are those of a small store: look up, change in place, put
in place or at the end, and erase.  What a lookup finds after each of them is stated
as an equation, so that proofs about tables never look at the list itself.

As long as no two records share a key, the table is a partial function.
-/

namespace Keyed

variable {α κ : Type}

section Distinct

/-- No two records share a key. -/
def Distinct (key : α → κ) (l : List α) : Prop :=
  (l.map key).Nodup

variable {key : α → κ}

theorem Distinct.cons_iff {a : α} {l : List α} :
    Distinct key (a :: l) ↔ (∀ b ∈ l, key b ≠ key a) ∧ Distinct key l := by
  simp [Distinct, eq_comm]

theorem Distinct.map {f : α → α} {l : List α} (h : Distinct key l)
    (hf : ∀ a ∈ l, key (f a) = key a) : Distinct key (l.map f) := by
  have hKeys : (l.map f).map key = l.map key := by
    rw [List.map_map]
    exact List.map_congr_left hf
  unfold Distinct
  rwa [hKeys]

end Distinct

variable [DecidableEq κ] (key : α → κ)

/-- The first record with the key `k`. -/
def lookup (k : κ) (l : List α) : Option α :=
  l.find? fun a => key a = k

/-- Change the first record with the key `k`. -/
def modify (k : κ) (f : α → α) : List α → List α
  | [] => []
  | a :: l => if key a = k then f a :: l else a :: modify k f l

/-- Put a record in the place of the first one with its key, or at the end. -/
def put (a : α) (l : List α) : List α :=
  match lookup key (key a) l with
  | none => l ++ [a]
  | some _ => modify key (key a) (fun _ => a) l

/-- Erase the first record with the key `k`. -/
def erase (k : κ) (l : List α) : List α :=
  l.eraseP fun a => key a = k

variable {key}

/-! ## Lookups -/

@[simp] theorem lookup_nil (k : κ) : lookup key k [] = none := rfl

theorem lookup_cons (k : κ) (a : α) (l : List α) :
    lookup key k (a :: l) = if key a = k then some a else lookup key k l := by
  unfold lookup
  rw [List.find?_cons]
  by_cases h : key a = k <;> simp [h]

theorem key_of_lookup {k : κ} {l : List α} {a : α} (h : lookup key k l = some a) : key a = k := by
  simpa using List.find?_some h

theorem mem_of_lookup {k : κ} {l : List α} {a : α} (h : lookup key k l = some a) : a ∈ l :=
  List.mem_of_find?_eq_some h

theorem lookup_eq_none_iff {k : κ} {l : List α} :
    lookup key k l = none ↔ ∀ a ∈ l, key a ≠ k := by
  simp [lookup]

theorem lookup_append (k : κ) (l m : List α) :
    lookup key k (l ++ m) = (lookup key k l).or (lookup key k m) :=
  List.find?_append

/-- In a table every record is found under its key. -/
theorem lookup_of_mem {l : List α} (h : Distinct key l) {a : α} (ha : a ∈ l) :
    lookup key (key a) l = some a := by
  induction l with
  | nil => cases ha
  | cons b l ih =>
      rw [lookup_cons]
      obtain ⟨hFresh, hRest⟩ := Distinct.cons_iff.mp h
      rcases List.mem_cons.mp ha with rfl | ha
      · rw [if_pos rfl]
      · rw [if_neg fun hSame => hFresh a ha hSame.symm, ih hRest ha]

/-- A map that keeps the keys maps what is found. -/
theorem lookup_map {f : α → α} {l : List α} (hf : ∀ a ∈ l, key (f a) = key a) (k : κ) :
    lookup key k (l.map f) = (lookup key k l).map f := by
  induction l with
  | nil => rfl
  | cons a l ih =>
      rw [List.map_cons, lookup_cons, lookup_cons, hf a List.mem_cons_self,
        ih fun b hb => hf b (List.mem_cons_of_mem _ hb)]
      split_ifs <;> rfl

/-! ## Changes -/

section Modify

variable {k : κ} {f : α → α}

theorem map_key_modify (hf : ∀ a, key a = k → key (f a) = k) (l : List α) :
    (modify key k f l).map key = l.map key := by
  induction l with
  | nil => rfl
  | cons a l ih =>
      unfold modify
      split_ifs with ha
      · rw [List.map_cons, List.map_cons, hf a ha, ha]
      · rw [List.map_cons, List.map_cons, ih]

theorem Distinct.modify {l : List α} (h : Distinct key l) (hf : ∀ a, key a = k → key (f a) = k) :
    Distinct key (Keyed.modify key k f l) := by
  unfold Distinct
  rwa [map_key_modify hf]

/-- A change in place maps the record with this key, and no other. -/
theorem lookup_modify (hf : ∀ a, key a = k → key (f a) = k) (k' : κ) (l : List α) :
    lookup key k' (modify key k f l) =
      if k' = k then (lookup key k l).map f else lookup key k' l := by
  induction l with
  | nil => simp [modify]
  | cons a l ih =>
      unfold modify
      by_cases ha : key a = k
      · by_cases hk : k' = k
        · simp [lookup_cons, ha, hf a ha, hk]
        · simp [lookup_cons, ha, hf a ha, hk, Ne.symm hk]
      · rw [if_neg ha, lookup_cons, ih, lookup_cons, lookup_cons, if_neg ha]
        by_cases hk : k' = k
        · rw [hk, if_neg ha, if_pos rfl, if_pos rfl]
        · rw [if_neg hk, if_neg hk]

theorem mem_modify {l : List α} {x : α} (h : x ∈ modify key k f l) :
    x ∈ l ∨ ∃ a, lookup key k l = some a ∧ x = f a := by
  induction l with
  | nil => cases h
  | cons a l ih =>
      unfold modify at h
      rw [lookup_cons]
      split_ifs at h ⊢
      · rcases List.mem_cons.mp h with rfl | h
        · exact .inr ⟨a, rfl, rfl⟩
        · exact .inl (List.mem_cons_of_mem _ h)
      · rcases List.mem_cons.mp h with rfl | h
        · exact .inl List.mem_cons_self
        · exact (ih h).imp_left (List.mem_cons_of_mem _)

/-- A change in place relates the records of the old table to those of the new one, if it
does so for the record it concerns. -/
theorem forall₂_modify {r : α → α → Prop} [Std.Refl r] {l : List α}
    (hf : ∀ a, lookup key k l = some a → r a (f a)) : List.Forall₂ r l (modify key k f l) := by
  induction l with
  | nil => exact .nil
  | cons a l ih =>
      unfold modify
      split_ifs with ha
      · refine .cons (hf a ?_) (List.forall₂_refl l)
        rw [lookup_cons, if_pos ha]
      · refine .cons (Std.Refl.refl a) (ih fun b hb => hf b ?_)
        rw [lookup_cons, if_neg ha]
        exact hb

end Modify

/-! ## Records put in place -/

/-- After a record was put, it is found under its key; other keys find what they
found before. -/
theorem lookup_put (a : α) (k : κ) (l : List α) :
    lookup key k (put key a l) = if key a = k then some a else lookup key k l := by
  unfold put
  cases hOld : lookup key (key a) l with
  | none =>
      dsimp only
      rw [lookup_append, lookup_cons, lookup_nil]
      by_cases hk : key a = k
      · rw [if_pos hk, ← hk, hOld]
        simp
      · rw [if_neg hk]
        simp [hk]
  | some old =>
      dsimp only
      rw [lookup_modify (fun _ _ => rfl), hOld]
      by_cases hk : key a = k
      · rw [if_pos hk, if_pos hk.symm]
        rfl
      · rw [if_neg hk, if_neg (Ne.symm hk)]

theorem Distinct.put {l : List α} (h : Distinct key l) (a : α) : Distinct key (put key a l) := by
  unfold Keyed.put
  split
  · rename_i hNone
    unfold Distinct at h ⊢
    rw [List.map_append, List.nodup_append]
    refine ⟨h, List.nodup_singleton _, ?_⟩
    intro k hk k' hk'
    obtain ⟨b, hb, rfl⟩ := List.mem_map.mp hk
    obtain rfl : k' = key a := by simpa using hk'
    exact lookup_eq_none_iff.mp hNone b hb
  · exact h.modify fun _ _ => rfl

/-! ## Records erased -/

theorem Distinct.erase {l : List α} (h : Distinct key l) (k : κ) :
    Distinct key (Keyed.erase key k l) := by
  unfold Distinct at h ⊢
  exact h.sublist ((List.eraseP_sublist).map key)

/-- An erasure leaves the other keys alone. -/
theorem lookup_erase_of_ne {k k' : κ} (h : k' ≠ k) (l : List α) :
    lookup key k' (erase key k l) = lookup key k' l := by
  induction l with
  | nil => rfl
  | cons a l ih =>
      unfold erase
      by_cases ha : key a = k
      · rw [List.eraseP_cons_of_pos (by simpa using ha), lookup_cons,
          if_neg fun hSame => h (hSame.symm.trans ha)]
      · rw [List.eraseP_cons_of_neg (by simpa using ha), lookup_cons, lookup_cons]
        unfold erase at ih
        rw [ih]

/-- After an erasure in a table the key is free, and other keys find what they found
before. -/
theorem lookup_erase {l : List α} (h : Distinct key l) (k k' : κ) :
    lookup key k' (erase key k l) = if k' = k then none else lookup key k' l := by
  split_ifs with hk
  · rw [hk]
    induction l with
    | nil => rfl
    | cons a l ih =>
        obtain ⟨hFresh, hRest⟩ := Distinct.cons_iff.mp h
        unfold erase
        by_cases ha : key a = k
        · rw [List.eraseP_cons_of_pos (by simpa using ha)]
          exact lookup_eq_none_iff.mpr fun b hb hSame => hFresh b hb (hSame.trans ha.symm)
        · rw [List.eraseP_cons_of_neg (by simpa using ha), lookup_cons, if_neg ha]
          exact ih hRest
  · exact lookup_erase_of_ne hk l

/-! ## Keys inside the records -/

section Inner

variable {ι : Type} {inner : α → List ι}

/-- No inner key occurs twice, neither in one record nor in two. -/
def InnerDistinct (inner : α → List ι) (l : List α) : Prop :=
  (l.flatMap inner).Nodup

theorem InnerDistinct.cons_iff {a : α} {l : List α} :
    InnerDistinct inner (a :: l) ↔
      (inner a).Nodup ∧ InnerDistinct inner l ∧ ∀ i ∈ inner a, i ∉ l.flatMap inner := by
  unfold InnerDistinct
  rw [List.flatMap_cons, List.nodup_append']
  rfl

theorem InnerDistinct.map {f : α → α} {l : List α} (h : InnerDistinct inner l)
    (hf : ∀ a ∈ l, inner (f a) = inner a) : InnerDistinct inner (l.map f) := by
  have hSame : (l.map f).flatMap inner = l.flatMap inner := by
    rw [List.flatMap_map]
    exact List.flatMap_congr hf
  unfold InnerDistinct
  rwa [hSame]

/-- A change in place may drop inner keys of its record, and add some that are not in use. -/
theorem InnerDistinct.modify {k : κ} {f : α → α} {l : List α} (h : InnerDistinct inner l)
    (hNodup : ∀ a, lookup key k l = some a → (inner (f a)).Nodup)
    (hNew : ∀ a, lookup key k l = some a → ∀ i ∈ inner (f a), i ∈ inner a ∨ i ∉ l.flatMap inner) :
    InnerDistinct inner (Keyed.modify key k f l) := by
  induction l with
  | nil => exact h
  | cons a l ih =>
      obtain ⟨hHead, hRest, hApart⟩ := InnerDistinct.cons_iff.mp h
      unfold Keyed.modify
      rw [lookup_cons] at hNodup hNew
      split_ifs at hNodup hNew ⊢ with ha
      · refine InnerDistinct.cons_iff.mpr ⟨hNodup a rfl, hRest, fun i hi => ?_⟩
        rcases hNew a rfl i hi with hOld | hFresh
        · exact hApart i hOld
        · rw [List.flatMap_cons, List.mem_append, not_or] at hFresh
          exact hFresh.2
      · refine InnerDistinct.cons_iff.mpr ⟨hHead, ih hRest hNodup fun b hb i hi => ?_, ?_⟩
        · refine (hNew b hb i hi).imp_right fun hFresh => ?_
          rw [List.flatMap_cons, List.mem_append, not_or] at hFresh
          exact hFresh.2
        · intro i hi hMem
          obtain ⟨x, hx, hIn⟩ := List.mem_flatMap.mp hMem
          rcases mem_modify hx with hOld | ⟨b, hb, rfl⟩
          · exact hApart i hi (List.mem_flatMap.mpr ⟨x, hOld, hIn⟩)
          · rcases hNew b hb i hIn with hOld | hFresh
            · exact hApart i hi (List.mem_flatMap.mpr ⟨b, mem_of_lookup hb, hOld⟩)
            · refine hFresh ?_
              rw [List.flatMap_cons]
              exact List.mem_append_left _ hi

/-- A record that is put in place keeps inner keys of the one it replaces, and adds some
that are not in use. -/
theorem InnerDistinct.put {a : α} {l : List α} (h : InnerDistinct inner l)
    (hNodup : (inner a).Nodup)
    (hNew : ∀ i ∈ inner a, (∃ b, lookup key (key a) l = some b ∧ i ∈ inner b) ∨
      i ∉ l.flatMap inner) : InnerDistinct inner (Keyed.put key a l) := by
  unfold Keyed.put
  cases hOld : lookup key (key a) l with
  | none =>
      rw [hOld] at hNew
      dsimp only
      unfold InnerDistinct at h ⊢
      rw [List.flatMap_append, List.flatMap_singleton, List.nodup_append']
      refine ⟨h, hNodup, fun i hi hMem => ?_⟩
      rcases hNew i hMem with ⟨_, hNone, -⟩ | hFresh
      · cases hNone
      · exact hFresh hi
  | some b =>
      refine h.modify (fun _ _ => hNodup) fun c hc i hi => ?_
      refine (hNew i hi).imp_left ?_
      rintro ⟨b', hb', hIn⟩
      obtain rfl : b' = c := Option.some.inj (hb'.symm.trans hc)
      exact hIn

end Inner

end Keyed
