/-
# Programs that remember, among others

Processes that take turns on a shared state may own a part of it: a handle one of them
opened, a row it claimed.  What a process owns can be read off its history, so a charter
says, of a history, what it tells of the state (`Charter.knows`), what the others leave as
it is (`Charter.rely`) and which calls may be made behind it (`Charter.ok`), and of two
histories, that they own different things (`Charter.apart`).  A call that may be made
keeps the invariant, keeps the histories apart and is within what every other process
relies on (`Charter.keeps`), where the moves of a run may be under a condition.

A program is safe if it makes such calls only (`Charter.Safe`), which triples prove: their
assertions speak of the history and of the state, and a triple says what holds where the
program returns and where it fails.  A crew of safe programs keeps the invariant
(`Charter.reachable`).
-/

import Flowdular.Lib.Record

namespace Flowdular.Lib

open Prog (History Recorded Reply)

universe u

/-- What programs that remember agree on. -/
structure Charter (C : Type u) (R : C → Type u) (α : Type u) (σ χ : Type*) where
  serve : (c : C) → σ → χ → R c × σ
  cond : Machine.Condition σ (Recorded C R α)
  inv : σ → Prop
  knows : History C R → σ → Prop
  apart : History C R → History C R → Prop
  rely : History C R → σ → σ → Prop
  ok : History C R → C → σ → Prop
  apart_symm : ∀ {H K}, apart H K → apart K H
  apart_nil : ∀ H, apart [] H
  knows_nil : ∀ {s}, inv s → knows [] s
  refl : ∀ H s, rely H s s
  trans : ∀ {H a b c}, rely H a b → rely H b c → rely H a c
  knows_rely : ∀ {H s s'}, knows H s → rely H s s' → knows H s'
  keeps : ∀ {H s c} (choice) {others : List (Recorded C R α)} {next : R c → Prog C R α}, inv s →
    knows H s → (∀ q ∈ others, knows q.history s ∧ apart H q.history) →
    cond s others ⟨H, .call c next⟩ → ok H c s →
    inv (serve c s choice).2 ∧ knows (H ++ [⟨c, (serve c s choice).1⟩]) (serve c s choice).2 ∧
      ∀ q ∈ others, rely q.history s (serve c s choice).2 ∧
        apart (H ++ [⟨c, (serve c s choice).1⟩]) q.history

namespace Charter

variable {C : Type u} {R : C → Type u} {α β γ : Type u} {σ χ ρ : Type*} (D : Charter C R α σ χ)

/-- Whatever the others do before a call, the call may be made, and the program ends
within `post`. -/
def Safe (post : History C R → Except String β → σ → Prop) : History C R → Prog C R β → σ → Prop
  | H, .pure a, s => post H (.ok a) s
  | H, .fail e, s => post H (.error e) s
  | H, .call c next, s => ∀ s₁, D.rely H s s₁ → D.inv s₁ → D.knows H s₁ →
      D.ok H c s₁ ∧ ∀ choice, Safe post (H ++ [⟨c, (D.serve c s₁ choice).1⟩])
        (next (D.serve c s₁ choice).1) (D.serve c s₁ choice).2

variable {D}

variable {p : Prog C R β} {post : History C R → Except String β → σ → Prop}

theorem Safe.mono {post' : History C R → Except String β → σ → Prop}
    (hp : ∀ H out s, post H out s → post' H out s) :
    ∀ {H : History C R} {s : σ}, D.Safe post H p s → D.Safe post' H p s := by
  induction p with
  | pure a => exact fun h => hp _ _ _ h
  | fail e => exact fun h => hp _ _ _ h
  | call c next ih =>
    intro H s h s₁ hr hi hk
    obtain ⟨hok, hn⟩ := h s₁ hr hi hk
    exact ⟨hok, fun choice => ih _ (hn choice)⟩

/-- **The rule of sequence.** -/
theorem safe_bind {post : History C R → Except String γ → σ → Prop}
    {f : β → Prog C R γ} : ∀ {H : History C R} {s : σ},
      D.Safe (fun H' out s' => match out with
        | .ok a => D.Safe post H' (f a) s'
        | .error e => post H' (.error e) s') H p s → D.Safe post H (p >>= f) s := by
  induction p with
  | pure a => exact fun h => h
  | fail e => exact fun h => h
  | call c next ih =>
    intro H s h s₁ hr hi hk
    obtain ⟨hok, hn⟩ := h s₁ hr hi hk
    exact ⟨hok, fun choice => ih _ (hn choice)⟩

/-- **The rule of handlers.** -/
theorem safe_orElse {f : String → Prog C R β} : ∀ {H : History C R} {s : σ},
      D.Safe (fun H' out s' => match out with
        | .ok a => post H' (.ok a) s'
        | .error e => D.Safe post H' (f e) s') H p s → D.Safe post H (p.orElse f) s := by
  induction p with
  | pure a => exact fun h => h
  | fail e => exact fun h => h
  | call c next ih =>
    intro H s h s₁ hr hi hk
    obtain ⟨hok, hn⟩ := h s₁ hr hi hk
    exact ⟨hok, fun choice => ih _ (hn choice)⟩

/-- A program that is under way stays safe when the others move. -/
theorem Safe.of_rely (hp : ∀ H out s s', post H out s → D.rely H s s' → post H out s')
    {H : History C R} {s s' : σ} (h : D.Safe post H p s) (hr : D.rely H s s') :
    D.Safe post H p s' := by
  cases p with
  | pure a => exact hp _ _ _ _ h hr
  | fail e => exact hp _ _ _ _ h hr
  | call c next => exact fun s₁ hs₁ => h s₁ (D.trans hr hs₁)

/-! ### Triples -/

variable (D)

/-- What a program knows at a point of its code, of its history and the state. -/
abbrev Assertion (C : Type u) (R : C → Type u) (σ : Type*) :=
  History C R → σ → Prop

/-- An assertion the others keep. -/
def Stable (A : Assertion C R σ) : Prop :=
  ∀ H s s', D.rely H s s' → A H s → A H s'

/-- From `A` a program is safe; where it returns, `Q` holds, and where it fails, `E`. -/
def Triple (A : Assertion C R σ) (p : Prog C R β) (Q : β → Assertion C R σ)
    (E : Assertion C R σ) : Prop :=
  ∀ H s, A H s → D.Safe (fun H' out s' => match out with
    | .ok a => Q a H' s'
    | .error _ => E H' s') H p s

variable {D} {A B E E' : Assertion C R σ} {Q Q' : β → Assertion C R σ}

variable (D) in
/-- An assertion nobody takes back, the program itself included. -/
structure Lasting (A : Assertion C R σ) : Prop where
  stable : D.Stable A
  step : ∀ H s c choice, D.inv s → D.knows H s → A H s →
    A (H ++ [⟨c, (D.serve c s choice).1⟩]) (D.serve c s choice).2

namespace Triple

variable {p : Prog C R β}

theorem mono (h : D.Triple A p Q E) (hA : ∀ H s, B H s → A H s)
    (hQ : ∀ a H s, Q a H s → Q' a H s) (hE : ∀ H s, E H s → E' H s) : D.Triple B p Q' E' := by
  intro H s hs
  refine (h H s (hA H s hs)).mono fun H' out s' hp => ?_
  cases out with
  | ok a => exact hQ a H' s' hp
  | error e => exact hE H' s' hp

theorem pure {a : β} (h : ∀ H s, A H s → Q a H s) : D.Triple A (.pure a) Q E :=
  fun H s hs => h H s hs

theorem fail {e : String} (h : ∀ H s, A H s → E H s) : D.Triple A (.fail e) Q E :=
  fun H s hs => h H s hs

theorem bind {M : γ → Assertion C R σ} {p : Prog C R γ} {f : γ → Prog C R β}
    (hp : D.Triple A p M E) (hf : ∀ a, D.Triple (M a) (f a) Q E) : D.Triple A (p >>= f) Q E := by
  intro H s hs
  refine safe_bind ((hp H s hs).mono fun H' out s' ho => ?_)
  cases out with
  | ok a => exact hf a H' s' ho
  | error e => exact ho

theorem orElse {f : String → Prog C R β} (hp : D.Triple A p Q E')
    (hf : ∀ e, D.Triple E' (f e) Q E) : D.Triple A (p.orElse f) Q E := by
  intro H s hs
  refine safe_orElse ((hp H s hs).mono fun H' out s' ho => ?_)
  cases out with
  | ok a => exact ho
  | error e => exact hf e H' s' ho

/-- **The frame rule**: what nobody takes back holds behind a program as well. -/
theorem frame {F : Assertion C R σ} (h : D.Triple A p Q E) (hF : D.Lasting F) :
    D.Triple (fun H s => A H s ∧ F H s) p (fun a H s => Q a H s ∧ F H s) fun H s => E H s ∧ F H s := by
  have hsafe : ∀ H s, F H s → D.Safe (fun H' out s' => match out with
        | .ok a => Q a H' s'
        | .error _ => E H' s') H p s →
      D.Safe (fun H' out s' => match out with
        | .ok a => Q a H' s' ∧ F H' s'
        | .error _ => E H' s' ∧ F H' s') H p s := by
    clear h
    induction p with
    | pure a => exact fun H s hFs hs => ⟨hs, hFs⟩
    | fail e => exact fun H s hFs hs => ⟨hs, hFs⟩
    | call c next ih =>
      intro H s hFs hs s₁ hr hi hk
      obtain ⟨hok, hn⟩ := hs s₁ hr hi hk
      have hF₁ := hF.stable H s s₁ hr hFs
      exact ⟨hok, fun choice => ih _ _ _ (hF.step H s₁ c choice hi hk hF₁) (hn choice)⟩
  exact fun H s hs => hsafe H s hs.2 (h H s hs.1)

/-- An assertion that is the case anyway. -/
theorem of_imp {φ : Prop} (hφ : ∀ H s, A H s → φ) (h : φ → D.Triple A p Q E) : D.Triple A p Q E :=
  fun H s hs => h (hφ H s hs) H s hs

/-- **The rule of a call**: what holds before it allows it, and what holds behind it, for
each of its replies, is what the rest starts from. -/
theorem call {c : C} {next : R c → Prog C R β} {M : R c → Assertion C R σ} (hA : D.Stable A)
    (hok : ∀ H s, D.inv s → D.knows H s → A H s → D.ok H c s)
    (hM : ∀ H s choice, D.inv s → D.knows H s → A H s →
      M (D.serve c s choice).1 (H ++ [⟨c, (D.serve c s choice).1⟩]) (D.serve c s choice).2)
    (hn : ∀ r, D.Triple (M r) (next r) Q E) : D.Triple A (.call c next) Q E := by
  intro H s hs s₁ hr hi hk
  have hs₁ := hA H s s₁ hr hs
  exact ⟨hok H s₁ hi hk hs₁, fun choice => hn _ _ _ (hM H s₁ choice hi hk hs₁)⟩

end Triple

section

variable {A : C → Type u} {D : Charter C (Reply A) α σ χ} {B E : Assertion C (Reply A) σ}

/-- What holds behind a call that may fail. -/
def replied {c : C} (Q : A c → Assertion C (Reply A) σ) (E : Assertion C (Reply A) σ) :
    Reply A c → Assertion C (Reply A) σ
  | .ok a => Q a
  | .error _ => E

/-- **The rule of a call that is passed on where it fails.** -/
theorem Triple.need {c : C} {Q : A c → Assertion C (Reply A) σ} (hB : D.Stable B)
    (hok : ∀ H s, D.inv s → D.knows H s → B H s → D.ok H c s)
    (hQ : ∀ H s choice, D.inv s → D.knows H s → B H s →
      replied Q E (D.serve c s choice).1 (H ++ [⟨c, (D.serve c s choice).1⟩])
        (D.serve c s choice).2) : D.Triple B (Prog.need c) Q E := by
  refine Triple.call hB hok hQ fun reply => ?_
  cases reply with
  | ok a => exact Triple.pure fun _ _ h => h
  | error e => exact Triple.fail fun _ _ h => h

end

/-! ### Crews -/

section

variable {program : ρ → Prog C R α} {D : Charter C R α σ χ}

/-- The outline of a crew whose programs are safe. -/
def outline (hsafe : ∀ r s, D.inv s → D.Safe (fun _ _ _ => True) [] (program r) s) :
    Outline (Prog.recorder program D.serve) D.cond where
  inv := D.inv
  knows s p := D.knows p.history s ∧ D.Safe (fun _ _ _ => True) p.history p.rest s
  apart p q := D.apart p.history q.history
  apart_symm := D.apart_symm
  start := by
    rintro s r p hinv h
    rw [← Option.some.inj h]
    exact ⟨⟨D.knows_nil hinv, hsafe r s hinv⟩, fun q _ => D.apart_nil q.history⟩
  stop := fun hinv _ => hinv
  stop_other := fun _ _ hq _ => hq
  move := by
    rintro s others ⟨H, rest⟩ choice s' p' hinv ⟨hknows, hp⟩ hothers hcond hmove
    obtain ⟨c, next, rfl, rfl, rfl⟩ := Prog.recorder_next hmove
    obtain ⟨hok, hnext⟩ := hp s (D.refl _ _) hinv hknows
    obtain ⟨hinv', hknows', -⟩ := D.keeps choice hinv hknows
      (fun q hq => ⟨(hothers q hq).1.1, (hothers q hq).2⟩) hcond hok
    exact ⟨hinv', hknows', hnext choice⟩
  move_other := by
    rintro s others ⟨H, rest⟩ choice s' p' q hinv ⟨hknows, hp⟩ hothers hcond hmove hq
    obtain ⟨c, next, rfl, rfl, rfl⟩ := Prog.recorder_next hmove
    obtain ⟨hok, -⟩ := hp s (D.refl _ _) hinv hknows
    obtain ⟨-, -, hrest⟩ := D.keeps choice hinv hknows
      (fun q hq => ⟨(hothers q hq).1.1, (hothers q hq).2⟩) hcond hok
    obtain ⟨hrely, hapart⟩ := hrest q hq
    obtain ⟨⟨hknowsq, hsafeq⟩, -⟩ := hothers q hq
    refine ⟨⟨D.knows_rely hknowsq hrely, hsafeq.of_rely (fun _ _ _ _ h _ => h) hrely⟩, hapart⟩

/-- **A crew of safe programs keeps the invariant**, and what its processes know. -/
theorem reachable (hs : ∀ r s, D.inv s → D.Safe (fun _ _ _ => True) [] (program r) s) {s : σ}
    (hi : D.inv s) {crew : Crew σ (Recorded C R α)}
    (h : Crew.Reachable (Prog.recorder program D.serve) D.cond s crew) :
    D.inv crew.shared ∧ ∀ p ∈ crew.processes, D.knows p.history crew.shared := by
  have hh := (outline hs).reachable hi h
  exact ⟨hh.inv, fun p hp => (hh.knows p hp).1⟩

end

end Charter
end Flowdular.Lib
