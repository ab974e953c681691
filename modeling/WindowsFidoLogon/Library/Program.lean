import Mathlib.Data.Nat.Notation
import Mathlib.Order.Basic

/-!
# Programs that return, throw, or are stopped

A small calculus for imperative code over an explicit state.  A program maps
the state before the call to an outcome and the state after it.  There are
three outcomes:

* `returned value`: the call came back with a value;
* `threw error`: an exception left the call;
* `stopped`: the process running the call ended in the middle of it, and the
  state after it is what the outside world still holds.

Because a run may be `stopped` at any step, a statement about the state after
every outcome is also a statement about every intermediate point of the call.

The reasoning rules come in five forms.  `Keeps I x` says that `x` preserves
the invariant `I` whatever its outcome, `Moves R x` relates the states before
and after it, `Spares R A x` does so unless it returned something outside `A`,
`Yields x A B` bounds what it returns and throws from any state, and `Meets x s Q`
is the weakest precondition of one run.
-/

namespace Program

/-- How one call ended. -/
inductive Outcome (ε α : Type)
  | returned (value : α)
  | threw (error : ε)
  | stopped
  deriving DecidableEq, Repr

end Program

/-- A program over states `σ` that throws errors `ε` and returns values `α`. -/
def Program (σ ε α : Type) : Type :=
  σ → Program.Outcome ε α × σ

namespace Program

variable {σ τ ε α β γ : Type}

/-- Sequencing: the continuation runs only when the first part returned. -/
protected def bind (x : Program σ ε α) (f : α → Program σ ε β) : Program σ ε β := fun s =>
  match x s with
  | (.returned a, t) => f a t
  | (.threw e, t) => (.threw e, t)
  | (.stopped, t) => (.stopped, t)

instance : Monad (Program σ ε) where
  pure a := fun s => (.returned a, s)
  bind := Program.bind

/-- Raise an exception. -/
def raise (e : ε) : Program σ ε α := fun s => (.threw e, s)

/-- The process ends here. -/
def halt : Program σ ε α := fun s => (.stopped, s)

/-- Read a part of the state. -/
def gets (f : σ → α) : Program σ ε α := fun s => (.returned (f s), s)

/-- Change the state. -/
def update (f : σ → σ) : Program σ ε Unit := fun s => (.returned (), f s)

/-- Turn an exception into a value; a stopped process stays stopped. -/
def attempt (x : Program σ ε α) : Program σ ε (Except ε α) := fun s =>
  match x s with
  | (.returned a, t) => (.returned (.ok a), t)
  | (.threw e, t) => (.returned (.error e), t)
  | (.stopped, t) => (.stopped, t)

/-- Raise the error of a failed computation. -/
def ofExcept : Except ε α → Program σ ε α
  | .ok a => pure a
  | .error e => raise e

/-- Run a program on one component of a larger state. -/
def zoom (get : τ → σ) (set : τ → σ → τ) (x : Program σ ε α) : Program τ ε α := fun t =>
  ((x (get t)).1, set t (x (get t)).2)

/-! ## Running the primitives -/

@[simp] theorem pure_apply (a : α) (s : σ) :
    (pure a : Program σ ε α) s = (.returned a, s) := rfl

theorem bind_apply (x : Program σ ε α) (f : α → Program σ ε β) (s : σ) :
    (x >>= f) s =
      match x s with
      | (.returned a, t) => f a t
      | (.threw e, t) => (.threw e, t)
      | (.stopped, t) => (.stopped, t) := rfl

theorem bind_returned {x : Program σ ε α} {f : α → Program σ ε β} {s t : σ} {a : α}
    (hx : x s = (.returned a, t)) : (x >>= f) s = f a t := by
  rw [bind_apply, hx]

theorem bind_threw {x : Program σ ε α} {f : α → Program σ ε β} {s t : σ} {e : ε}
    (hx : x s = (.threw e, t)) : (x >>= f) s = (.threw e, t) := by
  rw [bind_apply, hx]

theorem bind_stopped {x : Program σ ε α} {f : α → Program σ ε β} {s t : σ}
    (hx : x s = (.stopped, t)) : (x >>= f) s = (.stopped, t) := by
  rw [bind_apply, hx]

@[simp] theorem raise_apply (e : ε) (s : σ) :
    (raise e : Program σ ε α) s = (.threw e, s) := rfl

@[simp] theorem halt_apply (s : σ) : (halt : Program σ ε α) s = (.stopped, s) := rfl

@[simp] theorem gets_apply (f : σ → α) (s : σ) :
    (gets f : Program σ ε α) s = (.returned (f s), s) := rfl

@[simp] theorem update_apply (f : σ → σ) (s : σ) :
    (update f : Program σ ε Unit) s = (.returned (), f s) := rfl

theorem zoom_apply (get : τ → σ) (set : τ → σ → τ) (x : Program σ ε α) (t : τ) :
    zoom get set x t = ((x (get t)).1, set t (x (get t)).2) := rfl

@[simp] theorem ofExcept_ok (a : α) : (ofExcept (.ok a) : Program σ ε α) = pure a := rfl

@[simp] theorem ofExcept_error (e : ε) :
    (ofExcept (.error e) : Program σ ε α) = raise e := rfl

private theorem id_map_program (x : Program σ ε α) : id <$> x = x := by
  funext s
  show Program.bind x (fun a => pure a) s = x s
  unfold Program.bind
  rcases x s with ⟨_ | _ | _, t⟩ <;> rfl

private theorem bind_assoc_program (x : Program σ ε α) (f : α → Program σ ε β)
    (g : β → Program σ ε γ) : x >>= f >>= g = x >>= fun a => f a >>= g := by
  funext s
  show Program.bind (Program.bind x f) g s = Program.bind x (fun a => Program.bind (f a) g) s
  unfold Program.bind
  rcases x s with ⟨_ | _ | _, t⟩ <;> rfl

instance : LawfulMonad (Program σ ε) :=
  LawfulMonad.mk' _ id_map_program (fun _ _ => rfl) bind_assoc_program

/-! ## Inversion: what a run that returned went through -/

/-- A sequence returned exactly when both parts did. -/
theorem bind_returned_iff {x : Program σ ε α} {f : α → Program σ ε β} {s u : σ} {b : β} :
    (x >>= f) s = (.returned b, u) ↔
      ∃ a t, x s = (.returned a, t) ∧ f a t = (.returned b, u) := by
  rw [bind_apply]
  rcases x s with ⟨a | e | _, t⟩
  · constructor
    · exact fun h => ⟨a, t, rfl, h⟩
    · rintro ⟨a', t', ha, h⟩
      cases ha
      exact h
  · simp
  · simp

theorem pure_returned_iff {s u : σ} {a b : α} :
    (pure a : Program σ ε α) s = (.returned b, u) ↔ a = b ∧ s = u := by
  simp

@[simp] theorem raise_returned_iff {e : ε} {s u : σ} {b : β} :
    (raise e : Program σ ε β) s = (.returned b, u) ↔ False := by
  simp

theorem ofExcept_returned_iff {r : Except ε α} {s u : σ} {a : α} :
    (ofExcept r : Program σ ε α) s = (.returned a, u) ↔ r = .ok a ∧ s = u := by
  cases r <;> simp

theorem zoom_returned_iff {get : τ → σ} {set : τ → σ → τ} {x : Program σ ε α} {t u : τ} {a : α} :
    zoom get set x t = (.returned a, u) ↔
      ∃ s, x (get t) = (.returned a, s) ∧ u = set t s := by
  rw [zoom_apply]
  constructor
  · intro h
    obtain ⟨ho, hu⟩ := Prod.mk.inj h
    exact ⟨(x (get t)).2, Prod.ext ho rfl, hu.symm⟩
  · rintro ⟨s, hs, rfl⟩
    rw [hs]

/-! ## One run: `Meets` -/

/-- The run of `x` from `s` ends in `Q`. -/
def Meets (x : Program σ ε α) (s : σ) (Q : Outcome ε α → σ → Prop) : Prop :=
  Q (x s).1 (x s).2

theorem Meets.mono {x : Program σ ε α} {s : σ} {Q R : Outcome ε α → σ → Prop}
    (h : Meets x s Q) (hQR : ∀ o t, Q o t → R o t) : Meets x s R :=
  hQR _ _ h

theorem Meets.and {x : Program σ ε α} {s : σ} {Q R : Outcome ε α → σ → Prop}
    (hQ : Meets x s Q) (hR : Meets x s R) : Meets x s fun o t => Q o t ∧ R o t :=
  ⟨hQ, hR⟩

theorem Meets.of_eq {x : Program σ ε α} {s t : σ} {o : Outcome ε α}
    {Q : Outcome ε α → σ → Prop} (h : Meets x s Q) (hx : x s = (o, t)) : Q o t := by
  unfold Meets at h
  rw [hx] at h
  exact h

/-- The rule for sequencing: whatever the first part came to decides what the
rest must do. -/
theorem meets_bind {x : Program σ ε α} {f : α → Program σ ε β} {s : σ}
    {Q : Outcome ε β → σ → Prop} :
    Meets (x >>= f) s Q ↔
      Meets x s fun o t =>
        match o with
        | .returned a => Meets (f a) t Q
        | .threw e => Q (.threw e) t
        | .stopped => Q .stopped t := by
  unfold Meets
  rw [bind_apply]
  rcases x s with ⟨_ | _ | _, t⟩ <;> rfl

/-- Sequencing through an intermediate assertion about returned values, with
one assertion for runs that do not return. -/
theorem Meets.bind {x : Program σ ε α} {f : α → Program σ ε β} {s : σ}
    {M : α → σ → Prop} {Q : Outcome ε β → σ → Prop}
    (hx : Meets x s fun o t =>
      match o with
      | .returned a => M a t
      | .threw e => Q (.threw e) t
      | .stopped => Q .stopped t)
    (hf : ∀ a t, M a t → Meets (f a) t Q) : Meets (x >>= f) s Q := by
  rw [meets_bind]
  refine hx.mono ?_
  rintro (a | e | _) t h
  · exact hf a t h
  · exact h
  · exact h

/-- Sequencing after a run that is known. -/
theorem meets_bind_returned {x : Program σ ε α} {f : α → Program σ ε β} {s t : σ} {a : α}
    {Q : Outcome ε β → σ → Prop} (hx : x s = (.returned a, t)) :
    Meets (x >>= f) s Q ↔ Meets (f a) t Q := by
  unfold Meets
  rw [bind_returned hx]

@[simp] theorem meets_pure {a : α} {s : σ} {Q : Outcome ε α → σ → Prop} :
    Meets (pure a) s Q ↔ Q (.returned a) s := Iff.rfl

@[simp] theorem meets_raise {e : ε} {s : σ} {Q : Outcome ε α → σ → Prop} :
    Meets (raise e) s Q ↔ Q (.threw e) s := Iff.rfl

@[simp] theorem meets_halt {s : σ} {Q : Outcome ε α → σ → Prop} :
    Meets halt s Q ↔ Q .stopped s := Iff.rfl

@[simp] theorem meets_gets {f : σ → α} {s : σ} {Q : Outcome ε α → σ → Prop} :
    Meets (gets f) s Q ↔ Q (.returned (f s)) s := Iff.rfl

@[simp] theorem meets_update {f : σ → σ} {s : σ} {Q : Outcome ε Unit → σ → Prop} :
    Meets (update f) s Q ↔ Q (.returned ()) (f s) := Iff.rfl

/-! ## Invariants: `Keeps` -/

/-- `x` preserves `I`, whether it returns, throws, or is stopped. -/
def Keeps (I : σ → Prop) (x : Program σ ε α) : Prop :=
  ∀ s, I s → I (x s).2

namespace Keeps

variable {I : σ → Prop}

theorem pure (a : α) : Keeps I (Pure.pure a : Program σ ε α) := fun _ h => h

theorem raise (e : ε) : Keeps I (Program.raise e : Program σ ε α) := fun _ h => h

theorem halt : Keeps I (Program.halt : Program σ ε α) := fun _ h => h

theorem gets (f : σ → α) : Keeps I (Program.gets f : Program σ ε α) := fun _ h => h

theorem ofExcept (r : Except ε α) : Keeps I (Program.ofExcept r : Program σ ε α) := by
  cases r <;> exact fun _ h => h

theorem update {f : σ → σ} (hf : ∀ s, I s → I (f s)) :
    Keeps I (Program.update f : Program σ ε Unit) := hf

theorem bind {x : Program σ ε α} {f : α → Program σ ε β}
    (hx : Keeps I x) (hf : ∀ a, Keeps I (f a)) : Keeps I (x >>= f) := by
  intro s hs
  have ht := hx s hs
  rw [bind_apply]
  rcases h : x s with ⟨a | e | _, t⟩ <;> rw [h] at ht
  · exact hf a t ht
  · exact ht
  · exact ht

/-- Sequencing where the rest may use a fact about the returned value. -/
theorem bind_of {x : Program σ ε α} {f : α → Program σ ε β} {M : α → Prop}
    (hx : Keeps I x) (hM : ∀ s a t, I s → x s = (.returned a, t) → M a)
    (hf : ∀ a, M a → Keeps I (f a)) : Keeps I (x >>= f) := by
  intro s hs
  have ht := hx s hs
  rw [bind_apply]
  rcases h : x s with ⟨a | e | _, t⟩ <;> rw [h] at ht
  · exact hf a (hM s a t hs h) t ht
  · exact ht
  · exact ht

theorem attempt {x : Program σ ε α} (hx : Keeps I x) : Keeps I (Program.attempt x) := by
  intro s hs
  have ht := hx s hs
  unfold Program.attempt
  rcases h : x s with ⟨a | e | _, t⟩ <;> rw [h] at ht <;> exact ht

theorem zoom {J : τ → Prop} {get : τ → σ} {set : τ → σ → τ} {x : Program σ ε α}
    (hx : Keeps I x) (hget : ∀ t, J t → I (get t)) (hset : ∀ t s, J t → I s → J (set t s)) :
    Keeps J (Program.zoom get set x) :=
  fun t ht => hset t _ ht (hx _ (hget t ht))

end Keeps

/-! ## Transitions: `Moves` -/

/-- `x` moves every state to an `R`-related one, whatever its outcome. -/
def Moves (R : σ → σ → Prop) (x : Program σ ε α) : Prop :=
  ∀ s, R s (x s).2

namespace Moves

variable {R : σ → σ → Prop}

theorem pure [Std.Refl R] (a : α) : Moves R (Pure.pure a : Program σ ε α) :=
  fun s => Std.Refl.refl s

theorem raise [Std.Refl R] (e : ε) : Moves R (Program.raise e : Program σ ε α) :=
  fun s => Std.Refl.refl s

theorem halt [Std.Refl R] : Moves R (Program.halt : Program σ ε α) :=
  fun s => Std.Refl.refl s

theorem gets [Std.Refl R] (f : σ → α) : Moves R (Program.gets f : Program σ ε α) :=
  fun s => Std.Refl.refl s

theorem ofExcept [Std.Refl R] (r : Except ε α) :
    Moves R (Program.ofExcept r : Program σ ε α) := by
  cases r <;> exact fun s => Std.Refl.refl s

theorem update {f : σ → σ} (hf : ∀ s, R s (f s)) :
    Moves R (Program.update f : Program σ ε Unit) := hf

theorem bind [IsTrans σ R] {x : Program σ ε α} {f : α → Program σ ε β}
    (hx : Moves R x) (hf : ∀ a, Moves R (f a)) : Moves R (x >>= f) := by
  intro s
  have hst := hx s
  rw [bind_apply]
  rcases h : x s with ⟨a | e | _, t⟩ <;> rw [h] at hst
  · exact Trans.trans hst (hf a t)
  · exact hst
  · exact hst

theorem attempt {x : Program σ ε α} (hx : Moves R x) : Moves R (Program.attempt x) := by
  intro s
  have hst := hx s
  unfold Program.attempt
  rcases h : x s with ⟨a | e | _, t⟩ <;> rw [h] at hst <;> exact hst

theorem mono {S : σ → σ → Prop} {x : Program σ ε α} (hx : Moves R x)
    (hRS : ∀ s t, R s t → S s t) : Moves S x :=
  fun s => hRS s _ (hx s)

theorem of_eq {x : Program σ ε α} (hx : Moves R x) {s t : σ} {o : Outcome ε α}
    (h : x s = (o, t)) : R s t := by
  have hst := hx s
  rw [h] at hst
  exact hst

end Moves

/-! ## Failures: `Spares` -/

/-- `x` moves every state to an `R`-related one when it throws, and when it returns a
value in `A`. -/
def Spares (R : σ → σ → Prop) (A : α → Prop) (x : Program σ ε α) : Prop :=
  ∀ s, Meets x s fun o t =>
    match o with
    | .returned a => A a → R s t
    | .threw _ => R s t
    | .stopped => True

namespace Spares

variable {R : σ → σ → Prop} {A : α → Prop}

theorem of_moves {x : Program σ ε α} (hx : Moves R x) : Spares R A x := by
  intro s
  have hst := hx s
  unfold Meets
  rcases h : x s with ⟨a | e | _, t⟩ <;> rw [h] at hst
  · exact fun _ => hst
  · exact hst
  · trivial

/-- A value that is not in `A` makes no promise. -/
theorem pure_of_not {a : α} (h : ¬ A a) : Spares R A (Pure.pure a : Program σ ε α) :=
  fun _ ha => absurd ha h

theorem pure [Std.Refl R] (a : α) : Spares R A (Pure.pure a : Program σ ε α) :=
  of_moves (.pure a)

theorem raise [Std.Refl R] (e : ε) : Spares R A (Program.raise e : Program σ ε α) :=
  of_moves (.raise e)

theorem ofExcept [Std.Refl R] (r : Except ε α) :
    Spares R A (Program.ofExcept r : Program σ ε α) :=
  of_moves (.ofExcept r)

/-- Sequencing, where the rest is spared what the first part returned in `A`, and makes
no promise about what it returned outside. -/
theorem bind_of [IsTrans σ R] {x : Program σ ε α} {f : α → Program σ ε β} {B : β → Prop}
    (hx : Spares R A x) (hf : ∀ a, A a → Spares R B (f a))
    (hg : ∀ a, ¬ A a → ∃ b, f a = Pure.pure b ∧ ¬ B b) : Spares R B (x >>= f) := by
  intro s
  rw [meets_bind]
  refine (hx s).mono ?_
  rintro (a | e | _) t hst
  · by_cases ha : A a
    · -- the rest starts from a state that is still related to the first one
      refine (hf a ha t).mono ?_
      rintro (b | e | _) u htu
      · exact fun hb => IsTrans.trans s t u (hst ha) (htu hb)
      · exact IsTrans.trans s t u (hst ha) htu
      · trivial
    · obtain ⟨b, hb, hNot⟩ := hg a ha
      dsimp only
      rw [hb]
      exact fun h => absurd h hNot
  · exact hst
  · trivial

/-- Sequencing after a first part that is spared whatever it returns. -/
theorem bind [IsTrans σ R] {x : Program σ ε α} {f : α → Program σ ε β} {B : β → Prop}
    (hx : Spares R (fun _ => True) x) (hf : ∀ a, Spares R B (f a)) : Spares R B (x >>= f) :=
  bind_of hx (fun a _ => hf a) fun _ h => absurd trivial h

theorem zoom {get : τ → σ} {set : τ → σ → τ} {x : Program σ ε α} (hx : Spares R A x)
    (hGet : ∀ t s, get (set t s) = s) :
    Spares (fun t u => R (get t) (get u)) A (Program.zoom get set x) := by
  intro t
  have h := hx (get t)
  unfold Meets at h ⊢
  rw [zoom_apply]
  rcases hEnd : x (get t) with ⟨a | e | _, s⟩ <;> rw [hEnd] at h
  · show A a → R (get t) (get (set t s))
    rwa [hGet]
  · show R (get t) (get (set t s))
    rwa [hGet]
  · trivial

end Spares

/-! ## Results: `Yields` -/

/-- A returned value satisfies `A`, a thrown error `B`, and only `S` allows the
process to stop. -/
def Outcome.Within (A : α → Prop) (B : ε → Prop) (S : Prop) : Outcome ε α → Prop
  | .returned a => A a
  | .threw e => B e
  | .stopped => S

/-- From every state, what `x` returns satisfies `A` and what it throws `B`, and it
stops only if `S`. -/
def Yields (x : Program σ ε α) (A : α → Prop) (B : ε → Prop) (S : Prop) : Prop :=
  ∀ s, (x s).1.Within A B S

namespace Yields

variable {A : α → Prop} {B : ε → Prop} {S : Prop}

theorem pure {a : α} (h : A a) : Yields (Pure.pure a : Program σ ε α) A B S := fun _ => h

theorem raise {e : ε} (h : B e) : Yields (Program.raise e : Program σ ε α) A B S := fun _ => h

theorem gets {f : σ → α} (h : ∀ s, A (f s)) : Yields (Program.gets f : Program σ ε α) A B S := h

theorem update {f : σ → σ} : Yields (Program.update f : Program σ ε Unit) (fun _ => True) B S :=
  fun _ => trivial

theorem ofExcept {r : Except ε α} (hOk : ∀ a, r = .ok a → A a) (hError : ∀ e, r = .error e → B e) :
    Yields (Program.ofExcept r : Program σ ε α) A B S := by
  cases r with
  | ok a => exact pure (hOk a rfl)
  | error e => exact raise (hError e rfl)

theorem bind {x : Program σ ε α} {f : α → Program σ ε β} {C : β → Prop} (hx : Yields x A B S)
    (hf : ∀ a, A a → Yields (f a) C B S) : Yields (x >>= f) C B S := by
  intro s
  have h := hx s
  rw [bind_apply]
  rcases hs : x s with ⟨a | e | _, t⟩ <;> rw [hs] at h
  · exact hf a h t
  · exact h
  · exact h

theorem zoom {get : τ → σ} {set : τ → σ → τ} {x : Program σ ε α} (hx : Yields x A B S) :
    Yields (Program.zoom get set x) A B S :=
  fun t => hx (get t)

end Yields

/-! ## Fallible computations -/

theorem except_ok_bind (a : α) (f : α → Except ε β) : (Except.ok a >>= f) = f a := rfl

theorem except_bind_eq_ok {x : Except ε α} {f : α → Except ε β} {b : β} :
    (x >>= f) = .ok b ↔ ∃ a, x = .ok a ∧ f a = .ok b := by
  cases x with
  | ok a => simp [Bind.bind, Except.bind]
  | error e => simp [Bind.bind, Except.bind]

theorem except_bind_eq_error {x : Except ε α} {f : α → Except ε β} {e : ε} :
    (x >>= f) = .error e ↔ x = .error e ∨ ∃ a, x = .ok a ∧ f a = .error e := by
  cases x with
  | ok a => simp [Bind.bind, Except.bind]
  | error e => simp [Bind.bind, Except.bind]

/-- The items of a list that was converted item by item. -/
theorem of_mem_mapM_ok {f : α → Except ε β} {xs : List α} {ys : List β} (h : xs.mapM f = .ok ys)
    {y : β} (hy : y ∈ ys) : ∃ x ∈ xs, f x = .ok y := by
  induction xs generalizing ys with
  | nil =>
      cases h
      cases hy
  | cons x xs ih =>
      rw [List.mapM_cons, except_bind_eq_ok] at h
      obtain ⟨z, hz, h⟩ := h
      obtain ⟨zs, hzs, h⟩ := except_bind_eq_ok.mp h
      cases h
      rcases List.mem_cons.mp hy with rfl | hy
      · exact ⟨x, List.mem_cons_self, hz⟩
      · obtain ⟨w, hw, hfw⟩ := ih hzs hy
        exact ⟨w, List.mem_cons_of_mem _ hw, hfw⟩

theorem of_mapM_error {f : α → Except ε β} {xs : List α} {e : ε} (h : xs.mapM f = .error e) :
    ∃ x ∈ xs, f x = .error e := by
  induction xs with
  | nil => cases h
  | cons x xs ih =>
      rw [List.mapM_cons, except_bind_eq_error] at h
      rcases h with h | ⟨z, _, h⟩
      · exact ⟨x, List.mem_cons_self, h⟩
      · rcases except_bind_eq_error.mp h with h | ⟨zs, _, h⟩
        · obtain ⟨w, hw, hfw⟩ := ih h
          exact ⟨w, List.mem_cons_of_mem _ hw, hfw⟩
        · cases h

end Program
