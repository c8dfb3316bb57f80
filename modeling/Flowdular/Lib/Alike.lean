/-
# Programs that run alike

Two programs over a state that may fail run alike when they do the same from
every state, and what they may fail with satisfies a predicate.  The relation
follows the shape of the programs, so that one walk over them shows both that
one input can stand for the other and which failures are left.
-/

import Mathlib.Data.List.Basic

namespace Flowdular

variable {σ ε α β : Type}

/-- Two programs that are the same and fail, if at all, with an error in `fails`. -/
structure Alike (fails : ε → Prop) (p q : StateT σ (Except ε) α) : Prop where
  eq : p = q
  fails_of_error : ∀ s e, p s = .error e → fails e

namespace Alike

variable {fails : ε → Prop} {p q : StateT σ (Except ε) α}

theorem pure (a : α) : Alike fails (σ := σ) (Pure.pure a) (Pure.pure a) :=
  ⟨rfl, fun _ _ h => by cases h⟩

theorem refl (p : StateT σ (Except ε) α) : Alike (fun _ => True) p p :=
  ⟨rfl, fun _ _ _ => trivial⟩

variable {e : ε} {f g : α → StateT σ (Except ε) β}

theorem throw (h : fails e) :
    Alike fails (σ := σ) (α := α) (MonadExcept.throw e) (MonadExcept.throw e) :=
  ⟨rfl, fun _ _ h' => by cases h'; exact h⟩

theorem get : Alike fails (σ := σ) MonadState.get MonadState.get :=
  ⟨rfl, fun _ _ h => by cases h⟩

theorem set (s : σ) :
    Alike fails (MonadStateOf.set s : StateT σ (Except ε) PUnit) (MonadStateOf.set s) :=
  ⟨rfl, fun _ _ h => by cases h⟩

theorem bind (hp : Alike fails p q)
    (hf : ∀ a, Alike fails (f a) (g a)) : Alike fails (p >>= f) (q >>= g) := by
  obtain ⟨rfl, hp⟩ := hp
  refine ⟨congrArg (p >>= ·) (funext fun a => (hf a).eq), fun s e h => ?_⟩
  simp only [Bind.bind, StateT.bind, Except.bind] at h
  rcases hs : p s with e' | ⟨a, s'⟩
  · rw [hs] at h
    cases h
    exact hp s e hs
  · rw [hs] at h
    exact (hf a).fails_of_error s' e h

/-- Nothing runs behind a failure. -/
theorem throw_bind (h : fails e) (f g : α → StateT σ (Except ε) β) :
    Alike fails (MonadExcept.throw e >>= f) (MonadExcept.throw e >>= g) :=
  ⟨rfl, fun _ _ h' => by cases h'; exact h⟩

theorem map (f : α → β) (hp : Alike fails p q) : Alike fails (f <$> p) (f <$> q) :=
  hp.bind fun a => pure (f a)

theorem ite {c : Prop} [Decidable c] {p' q' : StateT σ (Except ε) α}
    (hp : c → Alike fails p q) (hp' : ¬ c → Alike fails p' q') :
    Alike fails (if c then p else p') (if c then q else q') := by
  split
  · next h => exact hp h
  · next h => exact hp' h

theorem mapM {xs : List α}
    (h : ∀ x ∈ xs, Alike fails (f x) (g x)) : Alike fails (xs.mapM f) (xs.mapM g) := by
  induction xs with
  | nil => exact pure []
  | cons x xs ih =>
    rw [List.mapM_cons, List.mapM_cons]
    refine (h x List.mem_cons_self).bind fun a => ?_
    exact (ih fun y hy => h y (List.mem_cons_of_mem _ hy)).bind fun as => pure (a :: as)

theorem fails_of_run' (h : Alike fails p q) {s : σ} (he : p.run' s = .error e) : fails e := by
  rcases hs : p s with e' | ⟨a, s'⟩
  · rw [StateT.run', hs] at he
    cases he
    exact h.fails_of_error s e hs
  · rw [StateT.run', hs] at he
    cases he

end Alike

end Flowdular
