import Mathlib.Data.List.Infix

/-!
# Runs and where their facts come from

A run applies a sequence of events to a state.  Three rules connect one step to
a whole run: an invariant of the steps is an invariant of the run, a condition
that every step meets is met at every point of the run, and what holds at the
end but not at the start became true at some event and has held ever since.
-/

namespace History

variable {σ ε : Type}

/-- The state after a sequence of events. -/
def run (step : σ → ε → σ) (s : σ) (es : List ε) : σ :=
  es.foldl step s

variable {step : σ → ε → σ}

@[simp] theorem run_nil (s : σ) : run step s [] = s := rfl

@[simp] theorem run_cons (s : σ) (e : ε) (es : List ε) :
    run step s (e :: es) = run step (step s e) es := rfl

theorem run_append (s : σ) (es fs : List ε) :
    run step s (es ++ fs) = run step (run step s es) fs :=
  List.foldl_append

theorem run_concat (s : σ) (es : List ε) (e : ε) :
    run step s (es ++ [e]) = step (run step s es) e :=
  run_append s es [e]

/-- Every event of a run meets the condition `C` in the state it finds. -/
def Along (step : σ → ε → σ) (C : σ → ε → Prop) : σ → List ε → Prop
  | _, [] => True
  | s, e :: es => C s e ∧ Along step C (step s e) es

theorem along_append {C : σ → ε → Prop} {s : σ} {es fs : List ε} :
    Along step C s (es ++ fs) ↔ Along step C s es ∧ Along step C (run step s es) fs := by
  induction es generalizing s with
  | nil => simp [Along]
  | cons e es ih => simp only [List.cons_append, Along, ih, run_cons, and_assoc]

theorem Along.mono {C D : σ → ε → Prop} (hCD : ∀ s e, C s e → D s e) {s : σ} {es : List ε}
    (h : Along step C s es) : Along step D s es := by
  induction es generalizing s with
  | nil => trivial
  | cons e es ih => exact ⟨hCD _ _ h.1, ih h.2⟩

/-- A condition on every event, as a condition on every way to single one out. -/
theorem along_iff {C : σ → ε → Prop} {s : σ} {es : List ε} :
    Along step C s es ↔ ∀ pre e post, es = pre ++ e :: post → C (run step s pre) e := by
  constructor
  · rintro h pre e post rfl
    exact (along_append.mp h).2.1
  · intro h
    induction es generalizing s with
    | nil => trivial
    | cons e es ih =>
        refine ⟨h [] e es rfl, ih fun pre f post hEs => ?_⟩
        exact h (e :: pre) f post (by rw [hEs]; rfl)

theorem along_of_forall {C : ε → Prop} {s : σ} {es : List ε} (h : ∀ e ∈ es, C e) :
    Along step (fun _ => C) s es := by
  induction es generalizing s with
  | nil => trivial
  | cons e es ih => exact ⟨h e List.mem_cons_self, ih fun f hf => h f (List.mem_cons_of_mem _ hf)⟩

/-- What every step preserves, where the condition is met, a run preserves. -/
theorem run_keeps {I : σ → Prop} {C : σ → ε → Prop}
    (hStep : ∀ s e, I s → C s e → I (step s e)) {s : σ} {es : List ε} (hs : I s)
    (hC : Along step C s es) : I (run step s es) := by
  induction es generalizing s with
  | nil => exact hs
  | cons e es ih => exact ih (hStep s e hs hC.1) hC.2

/-- What holds at the end of a run but not at its start became true at one event,
and has held at every point since. -/
theorem exists_origin {P : σ → Prop} {s : σ} {es : List ε} (hStart : ¬ P s)
    (hEnd : P (run step s es)) :
    ∃ pre e post, es = pre ++ e :: post ∧ ¬ P (run step s pre) ∧
      ∀ mid rest, post = mid ++ rest → P (run step s (pre ++ e :: mid)) := by
  induction es using List.reverseRecOn with
  | nil => exact absurd hEnd hStart
  | append_singleton es e ih =>
      by_cases hBefore : P (run step s es)
      · -- it held before the last event already
        obtain ⟨pre, f, post, rfl, hPre, hSince⟩ := ih hBefore
        refine ⟨pre, f, post ++ [e], by simp, hPre, fun mid rest hMid => ?_⟩
        rcases rest.eq_nil_or_concat with rfl | ⟨rest', g, rfl⟩
        · rw [List.append_nil] at hMid
          rw [← hMid]
          simpa using hEnd
        · rw [List.concat_eq_append, ← List.append_assoc] at hMid
          exact hSince mid rest' (List.append_inj_left' hMid rfl)
      · refine ⟨es, e, [], rfl, hBefore, fun mid rest hMid => ?_⟩
        obtain ⟨rfl, rfl⟩ := List.append_eq_nil_iff.mp hMid.symm
        exact hEnd

end History
