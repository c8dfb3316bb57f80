/-
# Pages by keyset

A page is the first rows, in the order of their keys, of those behind a cursor; its own cursor is
the key of its last row, when there are more (`page_spec`).  The table may change between two pages:
a walk from page to page goes forward only, and passes no key that stays in the table
(`Walk.forward`, `Walk.passes`), so that one that comes to its end has visited each such key once
(`Walk.visits_once`).
-/

import Mathlib.Data.List.Sort
import Mathlib.Data.Nat.Notation

namespace Flowdular.Lib
namespace Keyset

variable {Row Key : Type} (before : Key → Key → Prop) [DecidableRel before] (key : Row → Key)

/-- The row is behind the cursor, if there is one. -/
def Behind (cursor : Option Key) (row : Row) : Prop :=
  ∀ c ∈ cursor, before c (key row)

instance (cursor : Option Key) : DecidablePred (Behind before key cursor) :=
  fun row => inferInstanceAs (Decidable (∀ c ∈ cursor, before c (key row)))

/-- The first rows in order, up to a limit, and the cursor behind them. -/
def page (limit : ℕ) (rows : List Row) : List Row × Option Key :=
  let found := (rows.insertionSort fun a b => ¬ before (key b) (key a)).take (limit + 1)
  let items := found.take limit
  (items, if limit < found.length then items.getLast?.map key else none)

/-- A page behind a cursor. -/
def pageBehind (limit : ℕ) (rows : List Row) (cursor : Option Key) : List Row × Option Key :=
  page before key limit (rows.filter (Behind before key cursor))

/-- From page to page, however they are read: the pages so far, the cursor behind them and the rows
on them. -/
inductive Walk (read : ℕ → Option Key → List Row × Option Key → Prop) : ℕ → Option Key → List Row → Prop
  | start : Walk read 0 none []
  | turn (h : Walk read n cursor visited) (hpage : read n cursor (items, some next)) :
      Walk read (n + 1) (some next) (visited ++ items)

section

variable {before key} [IsStrictTotalOrder Key before] {limit n : ℕ} {rows items visited : List Row}
  {cursor next : Option Key} {tables : ℕ → List Row}
  {read : ℕ → Option Key → List Row × Option Key → Prop}

theorem before_of_not (h : ¬ before (key b) (key a)) (hne : key a ≠ key b) : before (key a) (key b) := by
  by_contra hn
  exact hne (Std.Trichotomous.trichotomous _ _ hn h)

theorem pairwise_inOrder (hk : (rows.map key).Nodup) :
    (rows.insertionSort fun a b => ¬ before (key b) (key a)).Pairwise fun a b => before (key a) (key b) := by
  have ht : Std.Total fun a b : Row => ¬ before (key b) (key a) :=
    ⟨fun a b => or_iff_not_imp_left.2 fun hab hba => hab fun hba' => asymm_of before hba hba'⟩
  have htra : IsTrans Row fun a b => ¬ before (key b) (key a) :=
    ⟨fun a b c hab hbc hca => (IsOrderConnected.conn _ (key b) _ hca).elim hbc hab⟩
  have hs := List.pairwise_insertionSort (fun a b : Row => ¬ before (key b) (key a)) rows
  have hn : ((rows.insertionSort fun a b => ¬ before (key b) (key a)).map key).Nodup :=
    ((List.perm_insertionSort _ rows).map key).nodup_iff.2 hk
  exact (hs.and (List.pairwise_map.1 hn)).imp fun h => before_of_not h.1 h.2

/-- **What a page is**: rows in order; without a cursor they are all, and with one the cursor is the
last of them and all others are behind it. -/
theorem page_spec (hk : (rows.map key).Nodup) (hlim : 0 < limit) (h : page before key limit rows = (items, next)) :
    (items.Pairwise fun a b => before (key a) (key b)) ∧ (∀ row ∈ items, row ∈ rows) ∧
      (next = none → ∀ row ∈ rows, row ∈ items) ∧
      ∀ c, next = some c → (∃ row ∈ items, key row = c) ∧ (∀ row ∈ items, ¬ before c (key row)) ∧
        ∀ row ∈ rows, row ∈ items ∨ before c (key row) := by
  have hs := @pairwise_inOrder _ _ before _ key _ rows hk
  have hmem : ∀ row, row ∈ rows.insertionSort (fun a b => ¬ before (key b) (key a)) ↔ row ∈ rows :=
    fun row => List.mem_insertionSort _
  unfold page at h
  dsimp only at h
  revert hs hmem h
  generalize rows.insertionSort (fun a b => ¬ before (key b) (key a)) = sorted
  intro h hs hmem
  rw [List.take_take, Nat.min_eq_left (Nat.le_succ limit), List.length_take] at h
  obtain ⟨hi, hnext⟩ := Prod.mk.inj h
  have hspl : items ++ sorted.drop limit = sorted := hi ▸ List.take_append_drop limit sorted
  rw [← hspl, List.pairwise_append] at hs
  refine ⟨hs.1, fun row hrow => (hmem row).1 (hspl ▸ List.mem_append_left _ hrow), ?_, ?_⟩
  all_goals rw [← hnext, hi]
  · intro hn row hrow
    split at hn
    · next hm =>
      have hne : items ≠ [] := by
        rw [← hi, Ne, List.take_eq_nil_iff]
        rintro (hz | rfl)
        · omega
        · simp at hm
      rw [List.getLast?_eq_some_getLast hne] at hn
      cases hn
    · rw [← hi, List.take_of_length_le (by omega)]
      exact (hmem row).2 hrow
  · intro c hc
    split at hc
    · obtain ⟨last, hl, rfl⟩ := Option.map_eq_some_iff.1 hc
      obtain ⟨front, hf⟩ := List.getLast?_eq_some_iff.1 hl
      have hin : last ∈ items := hf ▸ List.mem_append_right _ List.mem_cons_self
      refine ⟨⟨last, hin, rfl⟩, fun row hrow hb => ?_, fun row hrow => ?_⟩
      · have hp := hs.1
        rw [hf, List.pairwise_append] at hp
        rw [hf] at hrow
        rcases List.mem_append.1 hrow with hrow | hrow
        · exact asymm_of before hb (hp.2.2 row hrow last List.mem_cons_self)
        · rw [List.mem_singleton.1 hrow] at hb
          exact irrefl_of before _ hb
      · rw [← hmem, ← hspl] at hrow
        exact (List.mem_append.1 hrow).imp id fun hr => hs.2.2 last hin row hr
    · cases hc

theorem pageBehind_spec (hk : (rows.map key).Nodup) (hl : 0 < limit)
    (h : pageBehind before key limit rows cursor = (items, next)) :
    (items.Pairwise fun a b => before (key a) (key b)) ∧ (∀ row ∈ items, row ∈ rows ∧ Behind before key cursor row) ∧
      (next = none → ∀ row ∈ rows, Behind before key cursor row → row ∈ items) ∧
      ∀ c, next = some c → (∃ row ∈ items, key row = c) ∧ (∀ row ∈ items, ¬ before c (key row)) ∧
        ∀ row ∈ rows, Behind before key cursor row → row ∈ items ∨ before c (key row) := by
  obtain ⟨hp, hm, hn, hs⟩ := page_spec (hk.sublist (List.filter_sublist.map key)) hl h
  refine ⟨hp, fun row hrow => ?_, fun hnext row hrow hb => ?_, fun c hc => ?_⟩
  · simpa using List.mem_filter.1 (hm row hrow)
  · exact hn hnext row (List.mem_filter.2 ⟨hrow, by simpa using hb⟩)
  · obtain ⟨hlast, hi, hr⟩ := hs c hc
    exact ⟨hlast, hi, fun row hrow hb => hr row (List.mem_filter.2 ⟨hrow, by simpa using hb⟩)⟩

omit [DecidableRel before] in
/-- Rows behind the cursor follow those that are not. -/
theorem pairwise_behind (hv : visited.Pairwise fun a b => before (key a) (key b))
    (hp : ∀ row ∈ visited, ∃ c, cursor = some c ∧ ¬ before c (key row))
    (hi : items.Pairwise fun a b => before (key a) (key b)) (hbeh : ∀ row ∈ items, Behind before key cursor row) :
    (visited ++ items).Pairwise fun a b => before (key a) (key b) := by
  refine List.pairwise_append.2 ⟨hv, hi, fun a ha b hb => ?_⟩
  obtain ⟨c, rfl, hn⟩ := hp a ha
  exact (IsOrderConnected.conn _ (key a) _ (hbeh b hb c rfl)).resolve_left hn

variable (hr : ∀ n cursor result, read n cursor result → pageBehind before key limit (tables n) cursor = result)
  (hk : ∀ k, ((tables k).map key).Nodup) (hl : 0 < limit)

include hr hk hl

/-- **A walk goes forward.**  By induction on its pages. -/
theorem Walk.forward (h : Walk read n cursor visited) : (visited.Pairwise fun a b => before (key a) (key b)) ∧
      ∀ row ∈ visited, ∃ c, cursor = some c ∧ ¬ before c (key row) := by
  induction h with
  | start => exact ⟨.nil, nofun⟩
  | turn h hp ih =>
    obtain ⟨hv, hpas⟩ := ih
    obtain ⟨hi, hm, -, hn⟩ := pageBehind_spec (hk _) hl (hr _ _ _ hp)
    have ha := pairwise_behind hv hpas hi fun row hrow => (hm row hrow).2
    obtain ⟨⟨last, hlast, rfl⟩, hnot, -⟩ := hn _ rfl
    refine ⟨ha, fun row hrow => ⟨_, rfl, ?_⟩⟩
    rcases List.mem_append.1 hrow with hrow | hrow
    · exact asymm_of before ((List.pairwise_append.1 ha).2.2 row hrow last hlast)
    · exact hnot row hrow

/-- **A walk passes no key that stays.**  By induction on its pages. -/
theorem Walk.passes (h : Walk read n cursor visited) {x : Key} (hs : ∀ k < n, x ∈ (tables k).map key) :
    x ∈ visited.map key ∨ ∀ c ∈ cursor, before c x := by
  induction h with
  | start => exact .inr nofun
  | @turn n cursor visited items next h hp ih =>
    rcases ih fun k hlt => hs k (by omega) with hv | ha
    · exact .inl (by rw [List.map_append]; exact List.mem_append_left _ hv)
    · obtain ⟨row, hrow, rfl⟩ := List.mem_map.1 (hs n (by omega))
      obtain ⟨-, -, -, hn⟩ := pageBehind_spec (hk _) hl (hr _ _ _ hp)
      rcases (hn _ rfl).2.2 row hrow ha with hi | hb
      · exact .inl (List.mem_map_of_mem (List.mem_append_right _ hi))
      · exact .inr fun c hc => Option.some.inj hc ▸ hb

/-- **A walk that comes to its end** has visited no key twice, and each key that stays. -/
theorem Walk.visits_once (h : Walk read n cursor visited) (hlast : read n cursor (items, none)) :
    ((visited ++ items).map key).Nodup ∧
      ∀ x, (∀ k ≤ n, x ∈ (tables k).map key) → x ∈ (visited ++ items).map key := by
  obtain ⟨hv, hp⟩ := Walk.forward hr hk hl h
  obtain ⟨hi, hm, hall, -⟩ := pageBehind_spec (hk n) hl (hr _ _ _ hlast)
  have hf := pairwise_behind hv hp hi fun row hrow => (hm row hrow).2
  refine ⟨List.pairwise_map.2 (hf.imp fun hb heq => ?_), fun x hs => ?_⟩
  · rw [heq] at hb
    exact irrefl_of before _ hb
  · rcases Walk.passes hr hk hl h (fun k hlt => hs k (by omega)) with hin | ha
    · rw [List.map_append]
      exact List.mem_append_left _ hin
    · obtain ⟨row, hrow, rfl⟩ := List.mem_map.1 (hs n (Nat.le_refl n))
      exact List.mem_map_of_mem (List.mem_append_right _ (hall rfl row hrow ha))

end

end Keyset
end Flowdular.Lib
