/-
# Calls that fail, and calls made of smaller calls

A service may answer a call with a failure (`Prog.Reply`), which a program passes on
(`Prog.need`) or holds as a result (`Prog.attempt`).  A call may itself be a program of
smaller calls: `Prog.expand` puts that program in the place of every call, so that
others may come in between.  Where nobody comes in between, a program may return whatever
its calls answer (`Prog.Returns`), or it is a function of
the state (`Prog.run`), and a condition on each of its calls, in the state it is made in
(`Prog.Meets`), carries an invariant through it (`Meets.stops`).
-/

import Flowdular.Lib.Discipline

namespace Flowdular.Lib
namespace Prog

universe u

variable {C C' : Type u} {A : C → Type u} {R R' : C' → Type u} {α β : Type u} {σ : Type*}

/-- The reply to a call that may fail. -/
abbrev Reply (A : C → Type u) (c : C) : Type u :=
  Except String (A c)

/-- Make a call and fail where it does. -/
def need (c : C) : Prog C (Reply A) (A c) :=
  .call c fun
    | .ok a => .pure a
    | .error e => .fail e

/-- Return a result or fail with it. -/
def ofExcept : Except String α → Prog C' R' α
  | .ok a => .pure a
  | .error e => .fail e

/-- Run a program and hold its failure as a result. -/
def attempt : Prog C' R' α → Prog C' R' (Except String α)
  | .pure a => .pure (.ok a)
  | .fail e => .pure (.error e)
  | .call c next => .call c fun r => (next r).attempt

/-- Put a program of smaller calls in the place of every call. -/
def expand (parts : (c : C) → Prog C' R' (A c)) : Prog C (Reply A) α → Prog C' R' α
  | .pure a => .pure a
  | .fail e => .fail e
  | .call c next => (parts c).attempt.bind fun r => (next r).expand parts

/-- Run a program with nobody else about. -/
def run (perform : (c : C') → σ → R' c × σ) : Prog C' R' α → σ → Except String α × σ
  | .pure a, s => (.ok a, s)
  | .fail e, s => (.error e, s)
  | .call c next, s => (next (perform c s).1).run perform (perform c s).2

variable {perform : (c : C') → σ → R' c × σ}

variable {f : α → Prog C' R' β} {p : Prog C' R' α} {c : C} {s : σ}
  {parts : (c : C) → Prog C' R' (A c)}

theorem bind_assoc {γ : Type u} {g : β → Prog C' R' γ} :
    p >>= f >>= g = p >>= fun a => f a >>= g := by
  induction p with
  | pure a => rfl
  | fail e => rfl
  | call c next ih => exact congrArg (Prog.call c) (funext ih)

theorem bind_pure : p >>= Prog.pure = p := by
  induction p with
  | pure a => rfl
  | fail e => rfl
  | call c next ih => exact congrArg (Prog.call c) (funext ih)

@[simp] theorem run_pure (a : α) (s : σ) : (.pure a : Prog C' R' α).run perform s = (.ok a, s) := rfl

@[simp] theorem run_pure' (a : α) (s : σ) :
    (pure a : Prog C' R' α).run perform s = (.ok a, s) := rfl

@[simp] theorem run_fail (e : String) (s : σ) :
    (.fail e : Prog C' R' α).run perform s = (.error e, s) := rfl

/-- **A sequence runs one program behind the other.** -/
theorem run_bind : ∀ {s : σ}, (p >>= f).run perform s = match p.run perform s with
      | (.ok a, s') => (f a).run perform s'
      | (.error e, s') => (.error e, s') := by
  induction p with
  | pure a => exact rfl
  | fail e => exact rfl
  | call c next ih => exact ih _

/-- What follows a call that is passed on where it fails. -/
theorem need_bind {f : A c → Prog C (Reply A) β} : need c >>= f = .call c fun
    | .ok a => f a
    | .error e => .fail e := by
  refine congrArg (Prog.call c) (funext fun r => ?_)
  cases r <;> rfl

/-- What follows a call whose failure is held. -/
theorem need_bind_orElse {f : A c → Prog C (Reply A) β} {g : String → Prog C (Reply A) β} :
    (need c >>= f).orElse g = .call c fun
      | .ok a => (f a).orElse g
      | .error e => g e := by
  rw [need_bind]
  refine congrArg (Prog.call c) (funext fun r => ?_)
  cases r <;> rfl

/-- A call that is passed on where it fails. -/
theorem run_need_bind {perform : (c : C) → σ → Reply A c × σ} {f : A c → Prog C (Reply A) β} :
    (need c >>= f).run perform s = match perform c s with
      | (.ok a, s') => (f a).run perform s'
      | (.error e, s') => (.error e, s') := by
  rw [need_bind, run]
  cases hc : perform c s with
  | mk reply s' => cases reply <;> rfl

/-- **What a program does behind a call** whose parts are put in its place. -/
theorem expand_need_bind {f : A c → Prog C (Reply A) α} :
    (need c >>= f).expand parts = parts c >>= fun a => (f a).expand parts := by
  have hp : ∀ p : Prog C' R' (A c), (p.attempt.bind fun r =>
      (match r with | .ok a => f a | .error e => Prog.fail e : Prog C (Reply A) α).expand parts) =
        p >>= fun a => (f a).expand parts := by
    intro p
    induction p with
    | pure a => rfl
    | fail e => rfl
    | call c next ih => exact congrArg (Prog.call c) (funext ih)
  rw [need_bind, expand]
  refine (congrArg _ (funext fun r => ?_)).trans (hp (parts c))
  cases r <;> rfl

theorem expand_need : (need c).expand parts = parts c := by
  have h : (need c : Prog C (Reply A) (A c)) >>= Prog.pure = need c := bind_pure
  rw [← h, expand_need_bind]
  exact bind_pure

theorem expand_bind {p : Prog C (Reply A) α} {f : α → Prog C (Reply A) β} :
    (p >>= f).expand parts = p.expand parts >>= fun a => (f a).expand parts := by
  induction p with
  | pure a => rfl
  | fail e => rfl
  | call c next ih =>
    refine Eq.trans ?_ bind_assoc.symm
    exact congrArg (Prog.bind (parts c).attempt) (funext ih)

/-- The calls of the parts are those of the whole. -/
theorem all_expand {P : C → Prop} {P' : C' → Prop}
    (hp : ∀ c, P c → Discipline.All P' (parts c)) {p : Prog C (Reply A) α}
    (h : Discipline.All P p) : Discipline.All P' (p.expand parts) := by
  have ha : ∀ {β : Type u} {q : Prog C' R' β}, Discipline.All P' q →
      Discipline.All P' q.attempt := by
    intro β q hq
    induction q with
    | pure a => trivial
    | fail e => trivial
    | call c next ih => exact ⟨hq.1, fun r => ih r (hq.2 r)⟩
  induction p with
  | pure a => trivial
  | fail e => trivial
  | call c next ih =>
    exact Discipline.all_bind (ha (hp c h.1)) fun r => ih r (h.2 r)

/-! ### Programs within a set of calls -/

/-- A program all of whose calls satisfy `P`; it is no definition, so that it is not
evaluated. -/
structure Within (P : C' → Prop) (p : Prog C' R' α) : Prop where
  all : Discipline.All P p

section

variable {P : C' → Prop}

theorem within_pure {a : α} : Within P (.pure a : Prog C' R' α) :=
  ⟨trivial⟩

theorem within_fail {e : String} : Within P (.fail e : Prog C' R' α) :=
  ⟨trivial⟩

variable {p : Prog C' R' α}

theorem within_bind {f : α → Prog C' R' β} (hp : Within P p)
    (hf : ∀ a, Within P (f a)) : Within P (p >>= f) :=
  ⟨Discipline.all_bind hp.all fun a => (hf a).all⟩

theorem within_orElse {f : String → Prog C' R' α} (hp : Within P p)
    (hf : ∀ e, Within P (f e)) : Within P (p.orElse f) :=
  ⟨Discipline.all_orElse hp.all fun e => (hf e).all⟩

theorem within_ofExcept {x : Except String α} : Within P (ofExcept x : Prog C' R' α) := by
  cases x with
  | error e => exact within_fail
  | ok a => exact within_pure

theorem within_need {P : C → Prop} {c : C} (h : P c) : Within P (need c : Prog C (Reply A) (A c)) :=
  ⟨h, fun r => by cases r <;> trivial⟩

end

/-! ### Programs that return

With nobody else about, a program whose calls have any of their outcomes returns, unless a
call fails. -/

section

variable {χ : Type*} {serve : (c : C) → σ → χ → Reply A c × σ} {known : String → Prop}

/-- A program returns within `post`, unless a call fails; it has no failure that is `known`. -/
def Returns (serve : (c : C) → σ → χ → Reply A c × σ) (known : String → Prop) (post : α → σ → Prop) :
    Prog C (Reply A) α → σ → Prop
  | .pure a, s => post a s
  | .fail _, _ => False
  | .call c next, s => ∀ choice, (∀ a, (serve c s choice).1 = .ok a →
        (next (.ok a)).Returns serve known post (serve c s choice).2) ∧
      ∀ e, (serve c s choice).1 = .error e → ¬ known e

variable {p : Prog C (Reply A) α} {post : β → σ → Prop}

theorem returns_bind {f : α → Prog C (Reply A) β} :
    ∀ {s : σ}, p.Returns serve known (fun a s' => (f a).Returns serve known post s') s →
      (p >>= f).Returns serve known post s := by
  induction p with
  | pure a => exact fun h => h
  | fail e => exact fun h => h.elim
  | call c next ih => exact fun h choice => ⟨fun a ha => ih _ ((h choice).1 a ha), (h choice).2⟩

theorem Returns.mono {post post' : α → σ → Prop} (hp : ∀ a s, post a s → post' a s)
    : ∀ {s : σ}, p.Returns serve known post s → p.Returns serve known post' s := by
  induction p with
  | pure a => exact fun h => hp _ _ h
  | fail e => exact fun h => h
  | call c next ih => exact fun h choice => ⟨fun a ha => ih _ ((h choice).1 a ha), (h choice).2⟩

/-- What a call leaves where it is answered, and what follows it. -/
theorem returns_need_bind {c : C} {f : A c → Prog C (Reply A) β} {s : σ}
    (hf : ∀ choice a, (serve c s choice).1 = .ok a →
      (f a).Returns serve known post (serve c s choice).2)
    (hk : ∀ choice e, (serve c s choice).1 = .error e → ¬ known e) :
    (need c >>= f).Returns serve known post s := by
  rw [need_bind]
  exact fun choice => ⟨hf choice, hk choice⟩

/-- A handler of failures does nothing where a program returns unless a call fails. -/
theorem returns_orElse {post : α → σ → Prop}
    {f : String → Prog C (Reply A) α} : ∀ {s : σ}, p.Returns serve known post s →
      (p.orElse f).Returns serve known post s := by
  induction p with
  | pure a => exact fun h => h
  | fail e => exact fun h => h.elim
  | call c next ih => exact fun h choice => ⟨fun a ha => ih _ ((h choice).1 a ha), (h choice).2⟩

end

/-! ### Nobody else about -/

/-- A program that runs is one of its runs. -/
theorem exec_of_run (hs : ∀ c s, serve c s (perform c s).1 (perform c s).2)
    : ∀ {s : σ}, p.Exec serve s (p.run perform s).1 (p.run perform s).2 := by
  induction p with
  | pure a => exact ⟨rfl, rfl⟩
  | fail e => exact ⟨rfl, rfl⟩
  | call c next ih => exact ⟨_, _, hs c _, ih _⟩

/-- Every call of a run meets a condition in the state it is made in. -/
inductive Meets (serve : Service C' R' σ) (ok : C' → σ → Prop) : Prog C' R' α → σ → Prop
  | pure {a : α} {s : σ} : Meets serve ok (.pure a) s
  | fail {e : String} {s : σ} : Meets serve ok (.fail e) s
  | call {c : C'} {next : R' c → Prog C' R' α} {s : σ} (hok : ok c s)
      (hnext : ∀ r s', serve c s r s' → Meets serve ok (next r) s') : Meets serve ok (.call c next) s

variable {serve : Service C' R' σ} {ok : C' → σ → Prop}

/-- An invariant that calls under the condition keep holds wherever the program stops. -/
theorem Meets.stops {inv : σ → Prop} (hk : ∀ {c s r s'}, inv s → ok c s → serve c s r s' → inv s')
    {s' : σ} (h : p.Meets serve ok s) (hi : inv s)
    (hs : p.Stops serve s s') : inv s' := by
  induction h with
  | pure => exact (show s' = _ from hs) ▸ hi
  | fail => exact (show s' = _ from hs) ▸ hi
  | call hok _ ih =>
    rcases hs with rfl | ⟨r, mid, hser, hs⟩
    · exact hi
    · exact ih r mid hser (hk hi hok hser) hs

theorem meets_bind (hp : p.Meets serve ok s)
    (hf : ∀ a s', p.Exec serve s (.ok a) s' → (f a).Meets serve ok s') : (p >>= f).Meets serve ok s := by
  induction hp with
  | pure => exact hf _ _ ⟨rfl, rfl⟩
  | fail => exact .fail
  | call hok _ ih =>
    exact .call hok fun r s' hs => ih r s' hs fun a s'' he => hf a s'' ⟨r, s', hs, he⟩

theorem meets_orElse {f : String → Prog C' R' α} (hp : p.Meets serve ok s)
    (hf : ∀ e s', p.Exec serve s (.error e) s' → (f e).Meets serve ok s') :
    (p.orElse f).Meets serve ok s := by
  induction hp with
  | pure => exact .pure
  | fail => exact hf _ _ ⟨rfl, rfl⟩
  | call hok _ ih =>
    exact .call hok fun r s' hs => ih r s' hs fun e s'' he => hf e s'' ⟨r, s', hs, he⟩

end Prog
end Flowdular.Lib
