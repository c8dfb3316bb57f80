/-
# Programs among others

Programs that share a service take turns call by call.  A discipline says what they
agree on: an invariant of the state, what each relies on of the others between two of
its calls, and which calls may be made where; a call that may be made keeps the
invariant and stays within the rely (`Discipline.keeps`).  A program is safe if it
makes such calls only, whatever the others do within the rely (`Discipline.Safe`).

Triples with preconditions that the others keep (`Discipline.Stable`) are the way to
prove it: one rule for each constructor, for sequences, handlers and facts that are
carried along (`Triple.frame`), and one for programs all of whose calls may be made
anywhere (`Triple.of_all`).
-/

import Flowdular.Lib.Prog

namespace Flowdular.Lib

universe u

/-- What the programs on a service agree on. -/
structure Discipline (C : Type u) (R : C → Type u) (σ : Type*) where
  serve : Prog.Service C R σ
  inv : σ → Prop
  rely : σ → σ → Prop
  ok : C → σ → Prop
  refl : ∀ s, rely s s
  trans : ∀ {a b c}, rely a b → rely b c → rely a c
  keeps : ∀ {c s r s'}, inv s → ok c s → serve c s r s' → inv s' ∧ rely s s'

namespace Discipline

variable {C : Type u} {R : C → Type u} {α β : Type u} {σ : Type*} (D : Discipline C R σ)

/-- Whatever the others do before a call, the call may be made, and the program ends
within `post`. -/
def Safe (post : Except String α → σ → Prop) : Prog C R α → σ → Prop
  | .pure a, s => post (.ok a) s
  | .fail e, s => post (.error e) s
  | .call c next, s => ∀ s₁, D.rely s s₁ → D.inv s₁ →
      D.ok c s₁ ∧ ∀ r s₂, D.serve c s₁ r s₂ → Safe post (next r) s₂

variable {D}

variable {p : Prog C R α} {post : Except String α → σ → Prop} {f : α → Prog C R β}

theorem Safe.mono {post' : Except String α → σ → Prop} (hp : ∀ out s, post out s → post' out s)
    : ∀ {s : σ}, D.Safe post p s → D.Safe post' p s := by
  induction p with
  | pure a => exact fun h => hp _ _ h
  | fail e => exact fun h => hp _ _ h
  | call c next ih =>
    intro s h s₁ hr hi
    obtain ⟨hok, hn⟩ := h s₁ hr hi
    exact ⟨hok, fun r s₂ hs => ih r (hn r s₂ hs)⟩

/-- What the end of the first of two programs must satisfy. -/
def after (post : Except String β → σ → Prop) (safe : α → σ → Prop) : Except String α → σ → Prop
  | .ok a, s => safe a s
  | .error e, s => post (.error e) s

/-- **The rule of sequence.** -/
theorem safe_bind {post : Except String β → σ → Prop} :
    ∀ {s : σ}, D.Safe post (p >>= f) s ↔ D.Safe (after post fun a => D.Safe post (f a)) p s := by
  induction p with
  | pure a => exact Iff.rfl
  | fail e => exact Iff.rfl
  | call c next ih =>
    intro s
    refine forall_congr' fun s₁ => forall_congr' fun _ => forall_congr' fun _ => ?_
    refine and_congr_right fun _ => forall_congr' fun r => forall_congr' fun s₂ => ?_
    exact forall_congr' fun _ => ih r

/-- What the end of a program with a handler must satisfy. -/
def handled (post : Except String α → σ → Prop) (safe : String → σ → Prop) :
    Except String α → σ → Prop
  | .ok a, s => post (.ok a) s
  | .error e, s => safe e s

/-- A program stays safe when the others move, if its postcondition does. -/
theorem Safe.of_rely (hp : ∀ out a b, post out a → D.rely a b → post out b)
    {s s' : σ} (h : D.Safe post p s) (hr : D.rely s s') : D.Safe post p s' := by
  cases p with
  | pure a => exact hp _ _ _ h hr
  | fail e => exact hp _ _ _ h hr
  | call c next => exact fun s₁ hs₁ => h s₁ (D.trans hr hs₁)

/-! ### Triples -/

variable (D)

/-- A fact the others keep. -/
def Stable (A : σ → Prop) : Prop :=
  ∀ s s', D.rely s s' → A s → A s'

/-- From `A` a program is safe, and where it returns, `Q` holds. -/
def Triple (A : σ → Prop) (p : Prog C R α) (Q : α → σ → Prop) : Prop :=
  ∀ s, A s → D.Safe (fun out s' => ∀ a, out = .ok a → Q a s') p s

variable {D} {A B F : σ → Prop} {Q Q' : α → σ → Prop}

theorem stable_true : D.Stable fun _ => True := fun _ _ _ _ => trivial

namespace Triple

variable {p : Prog C R α}

theorem mono (h : D.Triple A p Q) (hA : ∀ s, B s → A s)
    (hQ : ∀ a s, Q a s → Q' a s) : D.Triple B p Q' :=
  fun s hs => (h s (hA s hs)).mono fun _ s' hp a ha => hQ a s' (hp a ha)

theorem pure {a : α} (h : ∀ s, A s → Q a s) : D.Triple A (.pure a) Q := by
  intro s hs b hb
  rw [Except.ok.injEq] at hb
  rw [← hb]
  exact h s hs

theorem fail {e : String} : D.Triple A (.fail e) Q :=
  fun _ _ _ he => nomatch he

theorem bind {B : β → σ → Prop} {p : Prog C R β} {f : β → Prog C R α} (hp : D.Triple A p B)
    (hf : ∀ b, D.Triple (B b) (f b) Q) : D.Triple A (p >>= f) Q := by
  intro s hs
  rw [safe_bind]
  refine (hp s hs).mono fun out s' ho => ?_
  cases out with
  | error e => exact fun a ha => nomatch ha
  | ok b => exact hf b s' (ho b rfl)

theorem call {c : C} {next : R c → Prog C R α} {B : R c → σ → Prop} (hA : D.Stable A)
    (hok : ∀ s, D.inv s → A s → D.ok c s)
    (hser : ∀ s r s', D.inv s → A s → D.serve c s r s' → B r s')
    (hn : ∀ r, D.Triple (B r) (next r) Q) : D.Triple A (.call c next) Q := by
  intro s hs s₁ hr hi
  have hs₁ : A s₁ := hA s s₁ hr hs
  exact ⟨hok s₁ hi hs₁, fun r s₂ h => hn r s₂ (hser s₁ r s₂ hi hs₁ h)⟩

/-- **The frame rule**: a fact the others keep holds behind a program as well. -/
theorem frame (h : D.Triple A p Q) (hF : D.Stable F) :
    D.Triple (fun s => A s ∧ F s) p fun a s => Q a s ∧ F s := by
  have hsafe : ∀ s, F s → D.Safe (fun out s' => ∀ a, out = .ok a → Q a s') p s →
      D.Safe (fun out s' => ∀ a, out = .ok a → Q a s' ∧ F s') p s := by
    clear h
    induction p with
    | pure a => exact fun s hFs hs b hb => ⟨hs b hb, hFs⟩
    | fail e => exact fun s _ _ a ha => nomatch ha
    | call c next ih =>
      intro s hFs hs s₁ hr hi
      obtain ⟨hok, hn⟩ := hs s₁ hr hi
      refine ⟨hok, fun r s₂ hser => ih r s₂ ?_ (hn r s₂ hser)⟩
      exact hF s₁ s₂ (D.keeps hi hok hser).2 (hF s s₁ hr hFs)
  exact fun s hs => hsafe s hs.2 (h s hs.1)

end Triple

/-! ### Calls that may be made anywhere -/

/-- Every call a program may make satisfies `P`. -/
def All (P : C → Prop) : Prog C R α → Prop
  | .pure _ => True
  | .fail _ => True
  | .call c next => P c ∧ ∀ r, All P (next r)

variable {P : C → Prop}

theorem All.mono {Q : C → Prop} (hPQ : ∀ c, P c → Q c) (h : All P p) : All Q p := by
  induction p with
  | pure a => trivial
  | fail e => trivial
  | call c next ih => exact ⟨hPQ c h.1, fun r => ih r (h.2 r)⟩

theorem all_bind (hp : All P p) (hf : ∀ a, All P (f a)) : All P (p >>= f) := by
  induction p with
  | pure a => exact hf a
  | fail e => trivial
  | call c next ih => exact ⟨hp.1, fun r => ih r (hp.2 r)⟩

theorem all_orElse {f : String → Prog C R α} (hp : All P p) (hf : ∀ e, All P (f e)) :
    All P (p.orElse f) := by
  induction p with
  | pure a => trivial
  | fail e => exact hf e
  | call c next ih => exact ⟨hp.1, fun r => ih r (hp.2 r)⟩

/-- A program whose calls may be made anywhere is safe anywhere. -/
theorem Triple.of_all (hp : All P p) (hok : ∀ c, P c → ∀ s, D.inv s → D.ok c s) :
    D.Triple (fun _ => True) p fun _ _ => True := by
  intro s _
  induction p generalizing s with
  | pure a => exact fun _ _ => trivial
  | fail e => exact fun _ _ => trivial
  | call c next ih =>
    exact fun s₁ _ hi => ⟨hok c hp.1 s₁ hi, fun r s₂ _ => ih r (hp.2 r) s₂⟩

/-- Such a program keeps whatever the others keep. -/
theorem Triple.keep_of_all (hp : All P p)
    (hok : ∀ c, P c → ∀ s, D.inv s → D.ok c s) (hF : D.Stable F) : D.Triple F p fun _ => F :=
  ((Triple.of_all hp hok).frame hF).mono (fun _ h => ⟨trivial, h⟩) fun _ _ h => h.2

end Discipline
end Flowdular.Lib
