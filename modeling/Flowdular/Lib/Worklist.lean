/-
# Worklists that mark at the push

The loop `const queue = [...seen]; for (let i = 0; i < queue.length; i++) …`
that adds a successor to `seen` and to `queue` at once, unless `seen` has it
already.  `Worklist.run` is that loop with the number of iterations as fuel.
Over a finite universe it empties its queue (`run_queue`), its result is closed
under the successors (`run_closed`), and it holds exactly what the successors
reach from the start (`mem_run_iff`).
-/

import Mathlib.Data.List.Nodup
import Mathlib.Data.List.Perm.Basic
import Mathlib.Logic.Relation

namespace Flowdular.Lib

/-- A worklist: the items marked so far, in the order they were marked, and
those of them that have still to be visited. -/
structure Worklist (α : Type*) where
  seen : List α
  queue : List α
deriving DecidableEq

namespace Worklist

variable {α : Type*} [DecidableEq α]

/-- Mark an item and queue it, unless it is marked already. -/
def push (w : Worklist α) (a : α) : Worklist α :=
  if a ∈ w.seen then w else { seen := w.seen ++ [a], queue := w.queue ++ [a] }

/-- Push every item of a list, in order. -/
def pushAll (w : Worklist α) (as : List α) : Worklist α :=
  as.foldl push w

/-- The worklist whose marked items are the distinct ones of `starts`, all of
them still to be visited. -/
def start (starts : List α) : Worklist α :=
  pushAll { seen := [], queue := [] } starts

/-- Visit the first queued item: take it off the queue and push its successors.
An empty queue is left as it is. -/
def step (succ : α → List α) (w : Worklist α) : Worklist α :=
  match w.queue with
  | [] => w
  | a :: rest => pushAll { w with queue := rest } (succ a)

/-- Visit `n` items, or fewer when the queue empties before that. -/
def run (succ : α → List α) : ℕ → Worklist α → Worklist α
  | 0, w => w
  | n + 1, w => run succ n (step succ w)

/-- What every worklist of a run satisfies: nothing is marked twice, the queued
items are the last ones marked, and the successors of every visited item are
marked. -/
structure Inv (succ : α → List α) (w : Worklist α) : Prop where
  nodup : w.seen.Nodup
  suffix : w.queue <:+ w.seen
  visited : ∀ a ∈ w.seen, a ∉ w.queue → ∀ b ∈ succ a, b ∈ w.seen

variable {a b : α} {w : Worklist α} {starts U : List α} {succ : α → List α}

theorem mem_push : b ∈ (w.push a).seen ↔ b ∈ w.seen ∨ b = a := by
  unfold push
  split
  · next h => exact ⟨.inl, fun hb => hb.elim id fun hb => hb ▸ h⟩
  · simp

/-- Pushing marks what was marked and what was pushed. -/
theorem mem_pushAll {as : List α} :
    ∀ {w : Worklist α} {b : α}, b ∈ (w.pushAll as).seen ↔ b ∈ w.seen ∨ b ∈ as := by
  induction as with
  | nil => simp [pushAll]
  | cons a as ih =>
    intro w b
    rw [pushAll, List.foldl_cons, ← pushAll, ih, mem_push, List.mem_cons, or_assoc]

/-- Pushing appends the same items to the marked ones and to the queue, each of
them new. -/
theorem pushAll_append (as : List α) : ∀ w : Worklist α, w.seen.Nodup →
    ∃ new, (w.pushAll as).seen = w.seen ++ new ∧ (w.pushAll as).queue = w.queue ++ new ∧
      (w.seen ++ new).Nodup := by
  induction as with
  | nil => exact fun w hw => ⟨[], by simp [pushAll], by simp [pushAll], by simpa using hw⟩
  | cons a as ih =>
    intro w hw
    rw [pushAll, List.foldl_cons, ← pushAll]
    by_cases ha : a ∈ w.seen
    · rw [push, if_pos ha]
      exact ih w hw
    · rw [push, if_neg ha]
      have hnew : (w.seen ++ [a]).Nodup :=
        hw.append (List.nodup_singleton a) (by simpa using ha)
      obtain ⟨new, hs, hq, hn⟩ := ih { seen := w.seen ++ [a], queue := w.queue ++ [a] } hnew
      refine ⟨a :: new, ?_, ?_, ?_⟩
      · simpa using hs
      · simpa using hq
      · simpa using hn

theorem mem_start : a ∈ (start starts).seen ↔ a ∈ starts := by
  simp [start, mem_pushAll]

theorem start_queue (starts : List α) : (start starts).queue = (start starts).seen := by
  obtain ⟨new, hs, hq, -⟩ := pushAll_append starts { seen := [], queue := [] } List.nodup_nil
  rw [start, hs, hq]

theorem inv_start (succ : α → List α) (starts : List α) : Inv succ (start starts) where
  nodup := by
    obtain ⟨new, hs, -, hn⟩ := pushAll_append starts { seen := [], queue := [] } List.nodup_nil
    exact hs ▸ hn
  suffix := start_queue starts ▸ List.suffix_rfl
  visited := fun _ ha hn => absurd ha (start_queue starts ▸ hn)

/-- What a step leaves visited was visited before or stood first in the queue. -/
theorem visited_of_step (h : Inv succ w)
    (ha : a ∈ (w.step succ).seen) (hq : a ∉ (w.step succ).queue) :
    a ∈ w.seen ∧ (a ∉ w.queue ∨ w.queue.head? = some a) := by
  unfold Worklist.step at ha hq
  split at ha
  · exact ⟨ha, .inl (by simp_all)⟩
  · next b rest hqb =>
    obtain ⟨new, hs, hq', -⟩ := pushAll_append (succ b) { w with queue := rest } h.nodup
    rw [hqb] at hq ⊢
    simp only [hs, hq', List.mem_append, not_or] at ha hq
    refine ⟨ha.resolve_right hq.2, ?_⟩
    by_cases hab : a = b
    · exact .inr (by rw [List.head?_cons, hab])
    · exact .inl fun hm => (List.mem_cons.1 hm).elim hab hq.1

/-- One visit keeps the invariant. -/
theorem Inv.step (h : Inv succ w) : Inv succ (w.step succ) := by
  have hv := fun b => visited_of_step (a := b) h
  unfold Worklist.step at hv ⊢
  split
  · exact h
  · next a rest hq =>
    obtain ⟨new, hs, hq', hn⟩ := pushAll_append (succ a) { w with queue := rest } h.nodup
    simp only [hq, List.head?_cons] at hv
    refine ⟨hs ▸ hn, ?_, fun b hb hbq c hc => mem_pushAll.2 ?_⟩
    · obtain ⟨pre, hp⟩ := (List.suffix_cons a rest).trans (hq ▸ h.suffix)
      rw [hs, hq', ← hp]
      exact ⟨pre, by simp⟩
    · obtain ⟨hseen, hnot | hh⟩ := hv b hb hbq
      · exact .inl (h.visited b hseen (hq ▸ hnot) c hc)
      · cases hh
        exact .inr hc

theorem Inv.run (n : ℕ) : ∀ {w : Worklist α}, Inv succ w → Inv succ (w.run succ n) := by
  induction n with
  | zero => exact id
  | succ n ih => exact fun h => ih h.step

theorem subset_step (succ : α → List α) (w : Worklist α) : w.seen ⊆ (w.step succ).seen := by
  intro a ha
  unfold step
  split
  · exact ha
  · exact mem_pushAll.2 (.inl ha)

/-- A run never unmarks an item. -/
theorem subset_run (succ : α → List α) (n : ℕ) : ∀ w : Worklist α,
    w.seen ⊆ (w.run succ n).seen := by
  induction n with
  | zero => exact fun w => List.Subset.refl _
  | succ n ih => exact fun w => List.Subset.trans (subset_step succ w) (ih _)

/-- **What is marked is closed under any set the successors stay in.**  A set
that holds the marked items and every successor of its members holds what a run
marks. -/
theorem run_subset {P : α → Prop} (hP : ∀ a, P a → ∀ b ∈ succ a, P b)
    (n : ℕ) : ∀ {w : Worklist α}, (∀ a ∈ w.seen, P a) → w.queue <:+ w.seen →
      Inv succ w → ∀ a ∈ (w.run succ n).seen, P a := by
  induction n with
  | zero => exact fun hw _ _ => hw
  | succ n ih =>
    intro w hw hq hi
    refine ih ?_ hi.step.suffix hi.step
    unfold step
    split
    · exact hw
    · next a rest hqa =>
      intro b hb
      rcases mem_pushAll.1 hb with hb | hb
      · exact hw b hb
      · exact hP a (hw a (hq.subset (hqa ▸ List.mem_cons_self ..))) b hb

/-- Each visit of a non-empty queue leaves one item fewer to visit than were
marked. -/
theorem step_length (h : Inv succ w) (hq : w.queue ≠ []) :
    (w.step succ).seen.length + w.queue.length =
      w.seen.length + (w.step succ).queue.length + 1 := by
  unfold step
  split
  · next hn => exact absurd hn hq
  · next a rest hqa =>
    obtain ⟨new, hs, hq', -⟩ := pushAll_append (succ a) { w with queue := rest } h.nodup
    simp only [hs, hq', hqa, List.length_append, List.length_cons]
    omega

theorem step_queue_nil (hq : w.queue = []) : w.step succ = w := by
  unfold step
  rw [hq]

theorem run_queue_nil (n : ℕ) : ∀ {w : Worklist α}, w.queue = [] → w.run succ n = w := by
  induction n with
  | zero => exact fun _ => rfl
  | succ n ih => exact fun hq => by rw [run, step_queue_nil hq, ih hq]

/-- After `n` visits the queue is empty or `n` items have been visited. -/
theorem run_queue_or (n : ℕ) : ∀ {w : Worklist α}, Inv succ w →
    (w.run succ n).queue = [] ∨ w.seen.length + n + (w.run succ n).queue.length ≤
        (w.run succ n).seen.length + w.queue.length := by
  induction n with
  | zero => exact fun _ => .inr (by simp only [run]; omega)
  | succ n ih =>
    intro w h
    by_cases hq : w.queue = []
    · exact .inl (by rw [run_queue_nil _ hq, hq])
    · have hl := step_length h hq
      rcases ih h.step with hr | hr
      · exact .inl hr
      · exact .inr (by rw [run]; omega)

/-- **The queue empties.**  When every start and every successor lies in the
universe `U`, as many visits as `U` is long empty the queue. -/
theorem run_queue (hs : starts ⊆ U)
    (hU : ∀ a ∈ U, succ a ⊆ U) : ((start starts).run succ U.length).queue = [] := by
  have hi := inv_start succ starts
  have hsub : ((start starts).run succ U.length).seen ⊆ U :=
    run_subset (P := fun a => a ∈ U) (fun a ha b hb => hU a ha hb) _
      (fun a ha => hs (mem_start.1 ha)) hi.suffix hi
  have hle : ((start starts).run succ U.length).seen.length ≤ U.length :=
    (List.subperm_of_subset (hi.run _).nodup hsub).length_le
  rcases run_queue_or U.length hi with h | h
  · exact h
  · have hq := congrArg List.length (start_queue starts)
    exact List.length_eq_zero_iff.1 (by omega)

/-- **A run is closed under the successors** once its queue is empty. -/
theorem run_closed (hs : starts ⊆ U)
    (hU : ∀ a ∈ U, succ a ⊆ U) (ha : a ∈ ((start starts).run succ U.length).seen)
    (hb : b ∈ succ a) : b ∈ ((start starts).run succ U.length).seen :=
  ((inv_start succ starts).run _).visited a ha (by rw [run_queue hs hU]; exact List.not_mem_nil)
    b hb

theorem mem_start_run (n : ℕ) (ha : a ∈ starts) : a ∈ ((start starts).run succ n).seen :=
  subset_run succ n _ (mem_start.2 ha)

/-- **A run marks exactly what the starts reach.** -/
theorem mem_run_iff (hs : starts ⊆ U) (hU : ∀ a ∈ U, succ a ⊆ U) :
    b ∈ ((start starts).run succ U.length).seen ↔
      ∃ a ∈ starts, Relation.ReflTransGen (fun x y => y ∈ succ x) a b := by
  constructor
  · refine run_subset (P := fun b => ∃ a ∈ starts, Relation.ReflTransGen _ a b) ?_ _ ?_
      (inv_start succ starts).suffix (inv_start succ starts) b
    · rintro x ⟨a, ha, hax⟩ y hy
      exact ⟨a, ha, hax.tail hy⟩
    · exact fun a ha => ⟨a, mem_start.1 ha, .refl⟩
  · rintro ⟨a, ha, hab⟩
    induction hab with
    | refl => exact mem_start_run _ ha
    | tail _ hbc ih => exact run_closed hs hU ih hbc

end Worklist
end Flowdular.Lib
