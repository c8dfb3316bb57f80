/-
# Leases

A job that workers take in turns.  A worker claims a job that waits, or whose lease has run
out; he renews the lease, gives it back or settles the job; the job may be called off whoever
holds it.

What is settled is settled for good (`Step.unsettled`), a lease that has not run out stays
with its worker until he ends it or the job is called off (`Step.keeps`), and a job is settled
by its holder or called off (`Step.settles`).
-/

import Mathlib.Order.Defs.PartialOrder

namespace Flowdular.Lib

variable {ω κ τ : Type*}

/-- A job: who holds it until when, and how it was settled. -/
structure Job (ω κ τ : Type*) where
  lease : Option (ω × τ)
  outcome : Option κ

namespace Job

/-- What may be done to a job. -/
inductive Act (ω κ τ : Type*)
  | claim (worker : ω) (till : τ)
  | renew (worker : ω) (till : τ)
  | release (worker : ω)
  | settle (worker : ω) (outcome : κ)
  | cancel (outcome : κ)

/-- One step of a job, at a time. -/
inductive Step [LT τ] (now : τ) : Act ω κ τ → Job ω κ τ → Job ω κ τ → Prop
  | claim {lease : Option (ω × τ)} {w : ω} {till : τ} (h : ∀ l ∈ lease, l.2 < now) :
      Step now (.claim w till) ⟨lease, none⟩ ⟨some (w, till), none⟩
  | renew {w : ω} {till till' : τ} :
      Step now (.renew w till') ⟨some (w, till), none⟩ ⟨some (w, till'), none⟩
  | release {w : ω} {till : τ} : Step now (.release w) ⟨some (w, till), none⟩ ⟨none, none⟩
  | settle {w : ω} {till : τ} {k : κ} :
      Step now (.settle w k) ⟨some (w, till), none⟩ ⟨none, some k⟩
  | cancel {lease : Option (ω × τ)} {k : κ} : Step now (.cancel k) ⟨lease, none⟩ ⟨none, some k⟩

section

variable [Preorder τ] {now : τ} {a : Act ω κ τ} {j j' : Job ω κ τ}

/-- Nothing is done to a job that is settled. -/
theorem Step.unsettled (h : Step now a j j') : j.outcome = none := by
  cases h <;> rfl

variable {w : ω} {k : κ}

/-- **A lease that has not run out** stays with its worker, until he ends it or the job is
called off. -/
theorem Step.keeps (h : Step now a j j') {till : τ} (hl : j.lease = some (w, till))
    (hn : now ≤ till) : (∃ till', j'.lease = some (w, till')) ∨ a = .release w ∨
      (∃ k, a = .settle w k) ∨ ∃ k, a = .cancel k := by
  cases h with
  | claim he => exact absurd (he _ hl) (not_lt_of_ge hn)
  | renew =>
    cases hl
    exact .inl ⟨_, rfl⟩
  | release =>
    cases hl
    exact .inr (.inl rfl)
  | settle =>
    cases hl
    exact .inr (.inr (.inl ⟨_, rfl⟩))
  | cancel => exact .inr (.inr (.inr ⟨_, rfl⟩))

/-- **A job is settled** by its holder, or called off. -/
theorem Step.settles (h : Step now a j j') (hk : j'.outcome = some k) :
    (∃ w till, a = .settle w k ∧ j.lease = some (w, till)) ∨ a = .cancel k := by
  cases h with
  | settle =>
    cases hk
    exact .inl ⟨_, _, rfl, rfl⟩
  | cancel =>
    cases hk
    exact .inr rfl
  | _ => cases hk

theorem Step.outcome_settle (h : Step now (.settle w k) j j') : j'.outcome = some k := by
  cases h
  rfl

theorem Step.outcome_cancel (h : Step now (.cancel k) j j') : j'.outcome = some k := by
  cases h
  rfl

/-- A step is one of any later time. -/
theorem Step.later (h : Step now a j j') {now' : τ} (hle : now ≤ now') : Step now' a j j' := by
  cases h with
  | claim he => exact .claim fun l hl => lt_of_lt_of_le (he l hl) hle
  | renew => exact .renew
  | release => exact .release
  | settle => exact .settle
  | cancel => exact .cancel

end

end Job
end Flowdular.Lib
