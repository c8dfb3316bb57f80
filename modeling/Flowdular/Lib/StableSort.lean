/-
# What a stable sort forgets

A sort by an order that does not tell all elements apart keeps the elements it
takes for equal as they stood.  Two arrangements of the same elements are
therefore sorted alike exactly when every pair the order ties stands the same
way round in both (`insertionSort_eq_iff`): the order of the tied pairs is all
that is left of the order before the sort.
-/

import Mathlib.Data.List.Sort
import Mathlib.Data.List.Nodup

namespace Flowdular.StableSort

variable {α : Type} {l l' : List α} {a b : α}

/-! ### Pairs of a list without repetition -/

theorem pair_or (ha : a ∈ l) (hb : b ∈ l) (hne : a ≠ b) : [a, b].Sublist l ∨ [b, a].Sublist l := by
  obtain ⟨s, t, rfl⟩ := List.append_of_mem ha
  rcases List.mem_append.1 hb with hb | hb
  · right
    exact List.Sublist.append (List.singleton_sublist.2 hb)
      (List.singleton_sublist.2 List.mem_cons_self)
  · left
    have hb : b ∈ t := (List.mem_cons.1 hb).resolve_left hne.symm
    exact List.sublist_append_of_sublist_right ((List.singleton_sublist.2 hb).cons_cons a)

theorem not_pair_swap (hl : l.Nodup) (h : [a, b].Sublist l) : ¬[b, a].Sublist l := by
  intro h'
  obtain ⟨s, t, rfl, ha, hb⟩ := List.cons_sublist_iff.1 h
  have hb : b ∈ t := List.singleton_sublist.1 hb
  obtain ⟨hs, ht, hd⟩ := List.nodup_append.1 hl
  obtain ⟨u, v, huv, hbu, hav⟩ := List.cons_sublist_iff.1 h'
  have hav : a ∈ v := List.singleton_sublist.1 hav
  rcases List.append_eq_append_iff.1 huv with ⟨w, rfl, rfl⟩ | ⟨w, rfl, rfl⟩
  · exact hd a ha a (List.mem_append_right _ hav) rfl
  · exact hd b (List.mem_append_left _ hbu) b hb rfl

theorem ne_of_pair (hl : l.Nodup) (h : [a, b].Sublist l) : a ≠ b := by
  rintro rfl
  exact not_pair_swap hl h h

theorem exists_split_of_pair (h : [a, b].Sublist l) : ∃ s m t, l = s ++ a :: (m ++ b :: t) := by
  obtain ⟨s, t, rfl, ha, hb⟩ := List.cons_sublist_iff.1 h
  obtain ⟨s₁, s₂, rfl⟩ := List.append_of_mem ha
  obtain ⟨t₁, t₂, rfl⟩ := List.append_of_mem (List.singleton_sublist.1 hb)
  exact ⟨s₁, s₂ ++ t₁, t₂, by simp⟩

theorem pair_of_split (s m t : List α) : [a, b].Sublist (s ++ a :: (m ++ b :: t)) := by
  have hb : [b].Sublist (m ++ b :: t) :=
    List.singleton_sublist.2 (List.mem_append_right _ List.mem_cons_self)
  exact List.sublist_append_of_sublist_right (hb.cons_cons a)

theorem mem_of_pair (h : [a, b].Sublist l) : a ∈ l ∧ b ∈ l :=
  ⟨h.subset (by simp), h.subset (by simp)⟩

/-! ### Sorting -/

variable {r : α → α → Prop} [DecidableRel r]

/-- A tied pair of the sorted list stood the same way round before. -/
theorem pair_of_insertionSort (hl : l.Nodup) (hba : r b a)
    (h : [a, b].Sublist (l.insertionSort r)) : [a, b].Sublist l := by
  have hp := List.perm_insertionSort r l
  have hs : (l.insertionSort r).Nodup := hp.nodup_iff.2 hl
  obtain ⟨ha, hb⟩ := mem_of_pair h
  rcases pair_or (hp.subset ha) (hp.subset hb) (ne_of_pair hs h) with hab | hab
  · exact hab
  · exact absurd (List.pair_sublist_insertionSort hba hab) (not_pair_swap hs h)

section

variable [Std.Total r] [IsTrans α r]

theorem rel_of_pair (h : [a, b].Sublist (l.insertionSort r)) : r a b :=
  List.pairwise_iff_forall_sublist.1 (List.pairwise_insertionSort r l) h

/-- **Two arrangements are sorted alike exactly when their tied pairs agree.** -/
theorem insertionSort_eq_iff (hl : l.Nodup) (hp : l.Perm l') :
    l.insertionSort r = l'.insertionSort r ↔
      ∀ a b, r a b → r b a → [a, b].Sublist l → [a, b].Sublist l' := by
  have hl' : l'.Nodup := hp.nodup_iff.1 hl
  have hperm : (l.insertionSort r).Perm (l'.insertionSort r) :=
    ((List.perm_insertionSort r l).trans hp).trans (List.perm_insertionSort r l').symm
  have hs : (l.insertionSort r).Nodup := (List.perm_insertionSort r l).nodup_iff.2 hl
  constructor
  · intro h a b hab hba hl₀
    have := List.pair_sublist_insertionSort hab hl₀
    rw [h] at this
    exact pair_of_insertionSort hl' hba this
  · intro h
    -- both sorted lists are arranged by the pairs of the first
    have hanti : ∀ a b, a ∈ l.insertionSort r → b ∈ l'.insertionSort r →
        [a, b].Sublist (l.insertionSort r) → [b, a].Sublist (l.insertionSort r) → a = b :=
      fun a b _ _ hab hba => absurd hba (not_pair_swap hs hab)
    refine List.Perm.eq_of_pairwise hanti ?_ ?_ hperm
    · exact List.pairwise_iff_forall_sublist.2 fun h => h
    · refine List.pairwise_iff_forall_sublist.2 fun {a b} hab => ?_
      have hs' : (l'.insertionSort r).Nodup := hperm.nodup_iff.1 hs
      obtain ⟨ha, hb⟩ := mem_of_pair hab
      have hne : a ≠ b := ne_of_pair hs' hab
      rcases pair_or (hperm.mem_iff.2 ha) (hperm.mem_iff.2 hb) hne with h₁ | h₁
      · exact h₁
      · have hba : r b a := rel_of_pair h₁
        have hl₁ : [b, a].Sublist l := pair_of_insertionSort hl (rel_of_pair hab) h₁
        have hl₂ : [a, b].Sublist l' := pair_of_insertionSort hl' hba hab
        exact absurd (h b a hba (rel_of_pair hab) hl₁) (not_pair_swap hl' hl₂)

end

end Flowdular.StableSort
