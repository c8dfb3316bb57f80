/-
# Kahn's topological sort with a sorted ready list

Keep the number of incoming edges of every item that is not ordered yet; take
the first ready item, append it to the order and count its outgoing edges off;
an item whose count reaches zero becomes ready, and the ready list is sorted
again.  `sort` may be any function that permutes its list, so the result is fixed
by it and correct whatever it is: the order holds no item twice, every item
stands behind the sources of the edges that enter it (`Inv`, `inv_run`), and an
order as long as the list of items is a permutation of it (`perm_of_length`).
-/

import Mathlib.Data.List.Count
import Mathlib.Data.List.Nodup
import Mathlib.Data.List.Perm.Basic
import Mathlib.Data.Int.Basic
import Mathlib.Logic.Function.Basic

namespace Flowdular.Lib

/-- The state of the sort: the incoming edges still to be counted off, the ready
items, and the order so far. -/
structure Kahn (α : Type*) where
  counts : α → ℤ
  ready : List α
  order : List α

namespace Kahn

variable {α : Type*} [DecidableEq α]

/-- The targets of the edges that leave an item, one for each edge. -/
def targets (edges : List (α × α)) (a : α) : List α :=
  (edges.filter (·.1 = a)).map Prod.snd

/-- The number of edges that enter `a` from an item outside `order`. -/
def pending (edges : List (α × α)) (order : List α) (a : α) : ℕ :=
  edges.countP fun e => e.2 = a ∧ e.1 ∉ order

/-- Nothing is ordered; the items no edge enters are ready. -/
def start (sort : List α → List α) (items : List α) (edges : List (α × α)) : Kahn α :=
  { counts := fun a => pending edges [] a
    ready := sort (items.filter fun a => pending edges [] a = 0)
    order := [] }

/-- Count one edge into `target` off. -/
def release (sort : List α → List α) (k : Kahn α) (target : α) : Kahn α :=
  let count := k.counts target - 1
  { k with
    counts := Function.update k.counts target count
    ready := if count = 0 then sort (k.ready ++ [target]) else k.ready }

/-- Order the first ready item and count its edges off. -/
def step (sort : List α → List α) (edges : List (α × α)) (k : Kahn α) : Kahn α :=
  match k.ready with
  | [] => k
  | a :: rest =>
    (sort (targets edges a)).foldl (release sort) { k with ready := rest, order := k.order ++ [a] }

/-- `n` steps, or fewer when nothing is ready any more. -/
def run (sort : List α → List α) (edges : List (α × α)) : ℕ → Kahn α → Kahn α
  | 0, k => k
  | n + 1, k => run sort edges n (step sort edges k)

/-- What every state of a sort satisfies. -/
structure Inv (items : List α) (edges : List (α × α)) (k : Kahn α) : Prop where
  nodup : (k.order ++ k.ready).Nodup
  counts : ∀ a, k.counts a = pending edges k.order a
  ready : ∀ a, a ∈ k.order ++ k.ready ↔ a ∈ items ∧ k.counts a = 0
  sources : ∀ pre a post, k.order = pre ++ a :: post → ∀ e ∈ edges, e.2 = a → e.1 ∈ pre

variable {sort : List α → List α} {items : List α} {edges : List (α × α)}

theorem pending_cons (e : α × α) (edges : List (α × α)) (order : List α) (b : α) :
    pending (e :: edges) order b =
      pending edges order b + if e.2 = b ∧ e.1 ∉ order then 1 else 0 := by
  simp only [pending, List.countP_cons, decide_eq_true_eq]

theorem count_targets_cons (e : α × α) (edges : List (α × α)) (a b : α) :
    (targets (e :: edges) a).count b =
      (targets edges a).count b + if e.1 = a ∧ e.2 = b then 1 else 0 := by
  by_cases ha : e.1 = a
  · simp [targets, ha, List.count_cons]
  · simp [targets, ha]

variable {a : α} {order : List α} {k : Kahn α}

/-- Ordering an item counts off the edges that leave it. -/
theorem pending_append (ha : a ∉ order) (edges : List (α × α)) (b : α) :
    pending edges (order ++ [a]) b + (targets edges a).count b = pending edges order b := by
  induction edges with
  | nil => rfl
  | cons e edges ih =>
    have ho : (if e.2 = b ∧ e.1 ∉ order ++ [a] then 1 else 0) +
        (if e.1 = a ∧ e.2 = b then 1 else 0) = if e.2 = b ∧ e.1 ∉ order then 1 else 0 := by
      by_cases hb : e.2 = b
      · by_cases he : e.1 = a
        · simp [hb, he, ha]
        · simp [hb, he]
      · simp [hb]
    rw [pending_cons, pending_cons, count_targets_cons, ← ho, ← ih]
    omega

theorem pending_eq_zero : pending edges order a = 0 ↔ ∀ e ∈ edges, e.2 = a → e.1 ∈ order := by
  simp [pending, List.countP_eq_zero]

/-- **Counting a list of targets off.**  When no item is counted below zero, each
count falls by the occurrences of its item, and the items that become ready are
those whose count the list exhausts. -/
theorem foldl_release (hs : ∀ l, (sort l).Perm l) (ts : List α) : ∀ k : Kahn α,
    (∀ a, (ts.count a : ℤ) ≤ k.counts a) →
    (ts.foldl (release sort) k).order = k.order ∧
      (∀ a, (ts.foldl (release sort) k).counts a = k.counts a - ts.count a) ∧
      ∃ new, (ts.foldl (release sort) k).ready.Perm (k.ready ++ new) ∧ new.Nodup ∧
        ∀ a, a ∈ new ↔ a ∈ ts ∧ k.counts a = ts.count a := by
  induction ts with
  | nil => exact fun k _ => ⟨rfl, by simp, [], by simp, List.nodup_nil, by simp⟩
  | cons t ts ih =>
    intro k hk
    have hcou : ∀ a, (release sort k t).counts a = k.counts a - if a = t then 1 else 0 := by
      intro a
      by_cases ha : a = t
      · subst ha; simp [release]
      · simp [release, ha]
    have hc : ∀ a, ((t :: ts).count a : ℤ) = ts.count a + if a = t then 1 else 0 := by
      intro a
      by_cases ha : a = t
      · subst ha; simp
      · simp [Ne.symm ha, ha]
    have hk' : ∀ a, (ts.count a : ℤ) ≤ (release sort k t).counts a := by
      intro a
      have := hk a
      rw [hc] at this
      rw [hcou]
      omega
    obtain ⟨ho, hcount, new, hrea, hnod, hm⟩ := ih _ hk'
    refine ⟨ho, fun a => ?_, ?_⟩
    · rw [List.foldl_cons, hcount, hcou, hc]
      omega
    · have ht := hk t
      rw [hc, if_pos rfl] at ht
      by_cases hz : k.counts t - 1 = 0
      · have hts : t ∉ ts := by
          rw [← List.count_eq_zero]
          omega
        refine ⟨t :: new, ?_, List.nodup_cons.2 ⟨fun h => hts ((hm t).1 h).1, hnod⟩, fun a => ?_⟩
        · have hr : (release sort k t).ready = sort (k.ready ++ [t]) := by simp [release, hz]
          rw [hr] at hrea
          exact hrea.trans (((hs _).append_right new).trans (by simp))
        · rw [List.mem_cons, hm, hcou, hc, List.mem_cons]
          by_cases ha : a = t
          · subst ha
            simp [List.count_eq_zero.2 hts]
            omega
          · simp [ha]
      · have hr : (release sort k t).ready = k.ready := by simp [release, hz]
        refine ⟨new, hr ▸ hrea, hnod, fun a => ?_⟩
        rw [hm, hcou, hc, List.mem_cons]
        by_cases ha : a = t
        · subst ha
          have hp : k.counts a = ts.count a + 1 → a ∈ ts := by
            intro h
            exact List.count_pos_iff.1 (by omega)
          constructor
          · rintro ⟨-, h⟩
            exact ⟨.inl rfl, by simp at h ⊢; omega⟩
          · rintro ⟨-, h⟩
            simp only [if_true] at h ⊢
            exact ⟨hp h, by omega⟩
        · simp [ha]

theorem inv_start (hs : ∀ l, (sort l).Perm l) (hi : items.Nodup) :
    Inv items edges (start sort items edges) where
  nodup := by
    simpa [start] using (hs _).nodup_iff.2 (hi.filter _)
  counts := fun _ => rfl
  ready := fun a => by simp [start, (hs _).mem_iff]
  sources := fun pre a post h => by cases pre <;> cases h

theorem Inv.step (hsort : ∀ l, (sort l).Perm l) (hedg : ∀ e ∈ edges, e.2 ∈ items)
    (h : Inv items edges k) : Inv items edges (k.step sort edges) := by
  unfold Kahn.step
  split
  · exact h
  · next a rest hr =>
    have hnod := h.nodup
    rw [hr] at hnod
    have ha : a ∉ k.order := fun hm =>
      (List.nodup_append.1 hnod).2.2 a hm a (List.mem_cons_self ..) rfl
    have hcou : ∀ b, ((sort (targets edges a)).count b : ℤ) = (targets edges a).count b :=
      fun b => by rw [(hsort _).count_eq]
    have hspl : ∀ b, (pending edges (k.order ++ [a]) b : ℤ) + (targets edges a).count b =
        k.counts b := fun b => by rw [h.counts, ← pending_append ha]; push_cast; rfl
    obtain ⟨ho, hc, new, hp, hnew, hm⟩ :=
      foldl_release hsort (sort (targets edges a)) { k with ready := rest, order := k.order ++ [a] }
        (fun b => by have := hspl b; rw [hcou]; simp only; omega)
    have hm' : ∀ b, b ∈ new ↔ b ∈ targets edges a ∧ k.counts b = (targets edges a).count b :=
      fun b => by rw [hm, (hsort _).mem_iff, hcou]
    have hz : ∀ b ∈ new, k.counts b ≠ 0 := by
      intro b hb hb0
      obtain ⟨htgt, hcnt⟩ := (hm' b).1 hb
      have := List.count_pos_iff.2 htgt
      omega
    have ht : ∀ b ∈ targets edges a, b ∈ items := by
      intro b hb
      obtain ⟨e, he, rfl⟩ := List.mem_map.1 hb
      exact hedg e (List.mem_filter.1 he).1
    refine ⟨?_, fun b => ?_, fun b => ?_, fun pre b post hpre e he heb => ?_⟩
    · rw [ho, (hp.append_left _).nodup_iff, ← List.append_assoc, List.append_assoc k.order]
      refine hnod.append hnew fun b hb hbn => hz b hbn ?_
      exact ((h.ready b).1 (hr ▸ hb)).2
    · rw [hc, ho, hcou]
      have := hspl b
      simp only
      omega
    · have hin : b ∈ k.order ++ [a] ++ (rest ++ new) ↔ b ∈ k.order ++ k.ready ∨ b ∈ new := by
        rw [hr]
        simp only [List.mem_append, List.mem_cons, List.not_mem_nil, or_false]
        tauto
      rw [ho, (hp.append_left _).mem_iff, hin, h.ready, hm', hc, hcou]
      have hs := hspl b
      simp only
      constructor
      · rintro (⟨hb, h0⟩ | ⟨hb, h0⟩)
        · exact ⟨hb, by omega⟩
        · exact ⟨ht b hb, by omega⟩
      · rintro ⟨hb, h0⟩
        by_cases hcb : k.counts b = 0
        · exact .inl ⟨hb, hcb⟩
        · exact .inr ⟨List.count_pos_iff.1 (by omega), by omega⟩
    · rw [ho] at hpre
      simp only at hpre
      rcases List.eq_nil_or_concat' post with rfl | ⟨post', c, rfl⟩
      · obtain ⟨rfl, hab⟩ := List.append_inj' hpre rfl
        cases hab
        have h0 : k.counts a = 0 :=
          ((h.ready a).1 (List.mem_append_right _ (hr ▸ List.mem_cons_self ..))).2
        rw [h.counts] at h0
        exact pending_eq_zero.1 (by omega) e he heb
      · have hpre' : k.order = pre ++ b :: post' := by
          have : k.order ++ [a] = (pre ++ b :: post') ++ [c] := by simpa using hpre
          exact (List.append_inj' this rfl).1
        exact h.sources pre b post' hpre' e he heb

/-- **Every state of a sort satisfies the invariant.** -/
theorem inv_run (hs : ∀ l, (sort l).Perm l) (he : ∀ e ∈ edges, e.2 ∈ items) (n : ℕ) :
    ∀ {k : Kahn α}, Inv items edges k → Inv items edges (k.run sort edges n) := by
  induction n with
  | zero => exact id
  | succ n ih => exact fun h => ih (h.step hs he)

theorem Inv.order_subset (h : Inv items edges k) : k.order ⊆ items :=
  fun a ha => ((h.ready a).1 (List.mem_append_left _ ha)).1

/-- The source of an edge into an ordered item stands before it. -/
theorem Inv.idxOf_lt (h : Inv items edges k) {e : α × α} (he : e ∈ edges)
    (hm : e.2 ∈ k.order) : k.order.idxOf e.1 < k.order.idxOf e.2 := by
  obtain ⟨pre, post, hs⟩ := List.append_of_mem hm
  have hp := h.sources pre e.2 post hs e he rfl
  have hnod := (List.nodup_append.1 h.nodup).1
  rw [hs] at hnod ⊢
  have hnot : e.2 ∉ pre := fun hin =>
    (List.nodup_append.1 hnod).2.2 _ hin _ (List.mem_cons_self ..) rfl
  rw [List.idxOf_append_of_mem hp, List.idxOf_append_of_notMem hnot, List.idxOf_cons_self]
  have := List.idxOf_lt_length_iff.2 hp
  omega

/-- An order as long as the list of items holds them all. -/
theorem Inv.perm_of_length (h : Inv items edges k)
    (hl : k.order.length = items.length) : k.order.Perm items :=
  (List.subperm_of_subset (List.nodup_append.1 h.nodup).1 h.order_subset).perm_of_length_le
    (by omega)

end Kahn
end Flowdular.Lib
