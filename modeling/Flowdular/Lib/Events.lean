/-
# Runs of events

A machine whose events are told from outside: each is refused in some states, and otherwise
leaves a state.  A property holds of every state that a script passes (`Everywhere`), and a
condition on an event and the state before it is met by every event of a script (`Meets`).  What
the events that meet a condition keep holds everywhere (`everywhere_of_meets`); where an event
that does not meet it leaves a state without the property, the condition is met exactly where the
property holds everywhere (`everywhere_iff_meets`).
-/

import Mathlib.Tactic.Common

namespace Flowdular.Lib
namespace Events

variable {σ ε : Type*}

/-- The state a script leaves, if none of its events is refused. -/
def play (step : σ → ε → Option σ) : σ → List ε → Option σ
  | s, [] => some s
  | s, e :: es => (step s e).bind fun s => play step s es

/-- `P` holds of every state that a script passes, up to an event that is refused. -/
def Everywhere (step : σ → ε → Option σ) (P : σ → Prop) : σ → List ε → Prop
  | s, [] => P s
  | s, e :: es => P s ∧ ∀ s', step s e = some s' → Everywhere step P s' es

/-- Every event of a script meets a condition on it and the state before it, up to an event that is
refused. -/
def Meets (step : σ → ε → Option σ) (cond : σ → ε → Prop) : σ → List ε → Prop
  | _, [] => True
  | s, e :: es => cond s e ∧ ∀ s', step s e = some s' → Meets step cond s' es

variable {step : σ → ε → Option σ} {cond : σ → ε → Prop} {P I : σ → Prop}

instance decidableMeets [∀ s e, Decidable (cond s e)] :
    ∀ (s : σ) (es : List ε), Decidable (Meets step cond s es)
  | _, [] => isTrue trivial
  | s, e :: es =>
    match h : step s e with
    | none =>
      decidable_of_iff (cond s e)
        ⟨fun hcond => ⟨hcond, fun _ hs' => absurd (h.symm.trans hs') (by nofun)⟩, And.left⟩
    | some s' =>
      have : Decidable (Meets step cond s' es) := decidableMeets s' es
      decidable_of_iff (cond s e ∧ Meets step cond s' es)
        ⟨fun hboth => ⟨hboth.1, fun _ hs' => Option.some.inj (h.symm.trans hs') ▸ hboth.2⟩,
          fun hmeets => ⟨hmeets.1, hmeets.2 s' h⟩⟩

/-- What holds everywhere holds at the beginning. -/
theorem Everywhere.here {s : σ} {es : List ε} (h : Everywhere step P s es) : P s := by
  cases es with
  | nil => exact h
  | cons e es => exact h.1

theorem Everywhere.mono (hPI : ∀ s, I s → P s) : ∀ {es : List ε} {s : σ},
    Everywhere step I s es → Everywhere step P s es := by
  intro es
  induction es with
  | nil => exact fun h => hPI _ h
  | cons e es ih => exact fun h => ⟨hPI _ h.1, fun s' hs' => ih (h.2 s' hs')⟩

/-- **What the events that meet a condition keep** holds everywhere, where they all do. -/
theorem everywhere_of_meets (hstep : ∀ s e s', I s → cond s e → step s e = some s' → I s') :
    ∀ {es : List ε} {s : σ}, I s → Meets step cond s es → Everywhere step I s es := by
  intro es
  induction es with
  | nil => exact fun hs _ => hs
  | cons e es ih =>
    exact fun hs hm =>
      ⟨hs, fun s' hs' => ih (hstep _ e s' hs hm.1 hs') (hm.2 s' hs')⟩

/-- **The exact condition**: an invariant with the property is kept by the events that meet the
condition, and behind any other event the property fails. -/
theorem everywhere_iff_meets (hstep : ∀ s e s', I s → cond s e → step s e = some s' → I s')
    (hP : ∀ s, I s → P s) (hb : ∀ s e, I s → ¬cond s e → ∃ s', step s e = some s' ∧ ¬P s') :
    ∀ {es : List ε} {s : σ}, I s → (Everywhere step P s es ↔ Meets step cond s es) := by
  intro es s hs
  refine ⟨fun h => ?_, fun h => (everywhere_of_meets hstep hs h).mono hP⟩
  induction es generalizing s with
  | nil => trivial
  | cons e es ih =>
    have hc : cond s e := by
      by_contra hn
      obtain ⟨s', hs', hf⟩ := hb s e hs hn
      exact hf (h.2 s' hs').here
    exact ⟨hc, fun s' hs' => ih (hstep s e s' hs hc hs') (h.2 s' hs')⟩

end Events
end Flowdular.Lib
