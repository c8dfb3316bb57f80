/-
# Local clocks

A clock that reads the time plus an offset, which changes once at most in a window of twice its
bound.  A reading may occur twice, where the offset falls, or not at all, where it grows.  What
reads no more than before is not a first occurrence (`First.lt`), and the occurrences of a reading
are among the two that the offsets around it give (`occurs_cases`).
-/

import Mathlib.Data.Int.Notation
import Mathlib.Tactic.Common

namespace Flowdular.Lib

/-- A clock: its offset is bounded, and changes once at most in any window of twice the bound. -/
structure LocalClock where
  offset : ℤ → ℤ
  reach : ℤ
  bound : ∀ t, -reach < offset t ∧ offset t < reach
  change : ∀ a b, a ≤ b → b - a ≤ 2 * reach → ∃ turn, ∀ t, a ≤ t → t ≤ b →
    (t < turn → offset t = offset a) ∧ (turn ≤ t → offset t = offset b)

namespace LocalClock

variable (clock : LocalClock)

/-- What the clock reads. -/
def reads (t : ℤ) : ℤ :=
  t + clock.offset t

/-- A time is the first that reads a value. -/
def First (value t : ℤ) : Prop :=
  clock.reads t = value ∧ ∀ u, u < t → clock.reads u ≠ value

variable {clock}

variable {t u value : ℤ}

theorem First.eq (ht : clock.First value t) (hu : clock.First value u) : t = u := by
  rcases Int.lt_trichotomy t u with hlt | heq | hgt
  · exact absurd ht.1 (hu.2 t hlt)
  · exact heq
  · exact absurd hu.1 (ht.2 u hgt)

/-- In a window of twice the bound, a time has the offset of an end of it. -/
theorem offset_cases {a b : ℤ} (ha : a ≤ t) (hb : t ≤ b) (hw : b - a ≤ 2 * clock.reach) :
    clock.offset t = clock.offset a ∨ clock.offset t = clock.offset b := by
  obtain ⟨turn, ht⟩ := clock.change a b (by omega) hw
  obtain ⟨hbef, hbeh⟩ := ht t ha hb
  by_cases hlt : t < turn
  · exact Or.inl (hbef hlt)
  · exact Or.inr (hbeh (by omega))

/-- **A first occurrence reads more than every time before it**: a time that reads no less lies within
the window of two changes, of which there is one. -/
theorem First.lt (hu : clock.First value u) (htu : t < u) : clock.reads t < value := by
  by_contra hge
  have hv : u + clock.offset u = value := hu.1
  have hr : value ≤ t + clock.offset t := by
    have h : value ≤ clock.reads t := by omega
    exact h
  obtain ⟨hl, hh⟩ := clock.bound u
  obtain ⟨hl', hh'⟩ := clock.bound t
  -- the time that read the value, had the offset not changed
  obtain ⟨s, hs⟩ : ∃ s, s = t - (t + clock.offset t - value) := ⟨_, rfl⟩
  have hne : clock.offset s ≠ clock.offset t := by
    intro heq
    refine hu.2 s (by omega) ?_
    show s + clock.offset s = value
    omega
  obtain ⟨turn, ht⟩ := clock.change s u (by omega) (by omega)
  obtain ⟨hb, hbeh⟩ := ht t (by omega) (by omega)
  by_cases hlt : t < turn
  · exact hne (hb hlt).symm
  · have heq : clock.offset t = clock.offset u := hbeh (by omega)
    omega

/-- The occurrences of a reading have the offset of a window's end before it or behind it. -/
theorem occurs_cases (h : clock.reads t = value) :
    t = value - clock.offset (value - clock.reach) ∨
      t = value - clock.offset (value + clock.reach) := by
  have hr : t + clock.offset t = value := h
  obtain ⟨hl, hh⟩ := clock.bound t
  have hc : clock.offset t = clock.offset (value - clock.reach) ∨
      clock.offset t = clock.offset (value + clock.reach) :=
    offset_cases (by omega) (by omega) (by omega)
  omega

end LocalClock
end Flowdular.Lib
