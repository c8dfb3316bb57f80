/-
# Tables

A table is the list of its rows.  `update` is `UPDATE … WHERE`: it changes every
row a condition selects.  An update that keeps the keys keeps what a lookup by
key finds (`find?_update`, `map_update`), and the rows a condition on unchanged
columns counts.  A table that grows in the order of a number has its newest row at its
end (`insertionSort_reverse`, `insertionSort_of_perm`).
-/

import Mathlib.Data.Int.Notation
import Mathlib.Data.List.Pairwise
import Mathlib.Data.List.Sort
import Mathlib.Data.Nat.Notation
import Mathlib.Tactic.Common

namespace Flowdular.Lib
namespace Table

variable {α κ : Type*}

/-- Change every row a condition selects. -/
def update (selects : α → Bool) (change : α → α) (rows : List α) : List α :=
  rows.map fun row => if selects row then change row else row

variable {selects : α → Bool} {change : α → α} {rows : List α}

theorem mem_update {row : α} : row ∈ update selects change rows ↔
    ∃ old ∈ rows, (if selects old then change old else old) = row :=
  List.mem_map

theorem update_eq_self (h : ∀ row ∈ rows, selects row = false) : update selects change rows = rows := by
  unfold update
  conv_rhs => rw [← List.map_id rows]
  refine List.map_congr_left fun row hr => ?_
  rw [h row hr]
  rfl

/-- An update of other columns keeps a column. -/
theorem map_update (column : α → κ) (h : ∀ row, column (change row) = column row) :
    (update selects change rows).map column = rows.map column := by
  rw [update, List.map_map]
  refine List.map_congr_left fun row _ => ?_
  rw [Function.comp_apply, apply_ite column, h, ite_self]

variable {P : α → Bool} {k : κ}

theorem countP_update_le (h : ∀ row, P (change row) = true → P row = true) :
    (update selects change rows).countP P ≤ rows.countP P := by
  induction rows with
  | nil => exact le_rfl
  | cons row rows ih =>
    have hr : P (if selects row then change row else row) = true → P row = true := by
      split_ifs
      · exact h row
      · exact id
    rw [update, List.map_cons, List.countP_cons, List.countP_cons]
    refine Nat.add_le_add ih ?_
    by_cases ha : P (if selects row then change row else row) = true
    · rw [if_pos ha, if_pos (hr ha)]
    · rw [if_neg ha]
      exact Nat.zero_le _

/-- **An update of rows that count, after which they do not.** -/
theorem countP_update_add (hb : ∀ row, selects row = true → P row = true)
    (ha : ∀ row, selects row = true → P (change row) = false) :
    (update selects change rows).countP P + rows.countP selects = rows.countP P := by
  induction rows with
  | nil => rfl
  | cons row rows ih =>
    rw [update, List.map_cons, List.countP_cons, List.countP_cons, List.countP_cons]
    cases hs : selects row with
    | true =>
      rw [if_pos rfl, ha row hs, hb row hs, ← ih, update]
      simp only [Bool.false_eq_true, if_false, if_true]
      omega
    | false =>
      rw [if_neg Bool.false_ne_true, ← ih, update]
      simp only [Bool.false_eq_true, if_false]
      omega

theorem update_of_unique {before behind : List α} {row : α} (hr : selects row = true)
    (hb : ∀ other ∈ before, selects other = false) (hbeh : ∀ other ∈ behind, selects other = false) :
    update selects change (before ++ row :: behind) = before ++ change row :: behind := by
  have hb' : update selects change before = before := update_eq_self hb
  have hbeh' : update selects change behind = behind := update_eq_self hbeh
  unfold update at *
  rw [List.map_append, List.map_cons, hb', hbeh', if_pos hr]

/-- **A lookup by key after an update of other columns.** -/
theorem find?_update [DecidableEq κ] (key : α → κ) (h : ∀ row, key (change row) = key row) (k : κ) :
    (update selects change rows).find? (fun row => decide (key row = k)) =
      (rows.find? fun row => decide (key row = k)).map fun row =>
        if selects row then change row else row := by
  induction rows with
  | nil => rfl
  | cons row rows ih =>
    have hkey : key (if selects row then change row else row) = key row := by
      rw [apply_ite key, h, ite_self]
    rw [update, List.map_cons, List.find?_cons, List.find?_cons, hkey]
    by_cases hk : key row = k
    · simp [hk]
    · simp only [hk, decide_false]
      exact ih

/-- Where the keys are distinct, a row is found by its key. -/
theorem find?_of_mem [DecidableEq κ] (key : α → κ) (h : (rows.map key).Nodup) {row : α} (hr : row ∈ rows) :
    rows.find? (fun r => key r = key row) = some row := by
  induction rows with
  | nil => cases hr
  | cons r rows ih =>
    rw [List.map_cons, List.nodup_cons] at h
    rcases List.mem_cons.1 hr with rfl | hr
    · exact List.find?_cons_of_pos (decide_eq_true rfl)
    · have hne : key r ≠ key row := fun heq => h.1 (heq ▸ List.mem_map_of_mem hr)
      rw [List.find?_cons_of_neg (by simpa using hne)]
      exact ih h.2 hr

/-- A lookup by key after rows of other keys were appended. -/
theorem find?_append_of_ne [DecidableEq κ] (key : α → κ) {row : α} (h : key row ≠ k) :
    (rows ++ [row]).find? (fun row => decide (key row = k)) =
      rows.find? fun row => decide (key row = k) := by
  rw [List.find?_append, List.find?_cons_of_neg (by simpa using h), List.find?_nil, Option.or_none]

/-- A lookup by key after the first row of the key was appended. -/
theorem find?_append_of_eq [DecidableEq κ] (key : α → κ) {row : α} (h : key row = k)
    (hr : ∀ other ∈ rows, key other ≠ k) :
    (rows ++ [row]).find? (fun row => decide (key row = k)) = some row := by
  rw [List.find?_append, List.find?_eq_none.2 (by simpa using hr), Option.none_or,
    List.find?_cons_of_pos (by simpa using h)]

/-! ### Rows that are written over -/

/-- A list filtered behind an update that no row of it is told apart by. -/
theorem filter_update (h : ∀ row, selects row = true → P (change row) = P row) :
    (update selects change rows).filter P = update selects change (rows.filter P) := by
  induction rows with
  | nil => rfl
  | cons row rows ih =>
    have hc : ∀ rows, update selects change (row :: rows) =
        (if selects row then change row else row) :: update selects change rows := fun _ => rfl
    have hP : P (if selects row then change row else row) = P row := by
      split_ifs with hr
      · exact h row hr
      · rfl
    rw [hc, List.filter_cons, List.filter_cons, hP, ih]
    cases P row with
    | true => exact (hc _).symm
    | false => rfl

section Upsert

variable [DecidableEq κ] {key : α → κ} {row : α}

/-- Write a row over the ones of its key, or beside the others: `INSERT … ON CONFLICT … DO UPDATE`. -/
def upsert (key : α → κ) (row : α) (rows : List α) : List α :=
  if rows.any fun r => key r = key row then update (fun r => key r = key row) (fun _ => row) rows
  else rows ++ [row]

/-- The rows behind a write: the one that was written, and those of other keys. -/
theorem mem_upsert {r : α} : r ∈ upsert key row rows ↔ r = row ∨ r ∈ rows ∧ key r ≠ key row := by
  unfold upsert
  split_ifs with ha
  · rw [mem_update]
    obtain ⟨old, hold, hk⟩ := List.any_eq_true.1 ha
    constructor
    · rintro ⟨r', hr', rfl⟩
      by_cases h : key r' = key row
      · simp [h]
      · simp [h, hr']
    · rintro (rfl | ⟨hr, hne⟩)
      · exact ⟨old, hold, if_pos hk⟩
      · exact ⟨r, hr, by simp [hne]⟩
  · rw [List.mem_append, List.mem_singleton]
    have hn : ∀ r ∈ rows, key r ≠ key row := by
      simpa using ha
    constructor
    · rintro (hr | hr)
      · exact .inr ⟨hr, hn r hr⟩
      · exact .inl hr
    · rintro (hr | ⟨hr, -⟩)
      · exact .inr hr
      · exact .inl hr

/-- A write over a row of its key keeps the keys. -/
theorem map_key_upsert (h : key row ∈ rows.map key) : (upsert key row rows).map key = rows.map key := by
  have ha : (rows.any fun r => key r = key row) = true := by
    simpa using h
  rw [upsert, if_pos ha, update, List.map_map]
  refine List.map_congr_left fun r _ => ?_
  by_cases hr : key r = key row
  · simp [hr]
  · simp [hr]

theorem keys_upsert (h : (rows.map key).Nodup) : ((upsert key row rows).map key).Nodup := by
  by_cases hm : key row ∈ rows.map key
  · rw [map_key_upsert hm]
    exact h
  · have ha : ¬(rows.any fun r => key r = key row) = true := by
      simpa using hm
    rw [upsert, if_neg ha, List.map_append, List.map_singleton]
    exact List.nodup_append.2 ⟨h, List.nodup_singleton _, by
      intro k hk k' hk' heq
      rw [heq, List.mem_singleton.1 hk'] at hk
      exact hm hk⟩

variable {P : κ → Bool} {k : κ}

/-- A filter on keys that leaves the row out does not see the write. -/
theorem filter_upsert_not (h : P (key row) = false) :
    (upsert key row rows).filter (fun r => P (key r)) = rows.filter fun r => P (key r) := by
  unfold upsert
  split_ifs
  · rw [filter_update]
    · refine update_eq_self fun r hr => ?_
      by_contra hk
      have hP := (List.mem_filter.1 hr).2
      have hs : key r = key row := by
        simpa using hk
      rw [hs, h] at hP
      cases hP
    · intro r hr
      have hs : key r = key row := of_decide_eq_true hr
      rw [hs]
  · rw [List.filter_append, List.filter_cons_of_neg (by simp [h]), List.filter_nil, List.append_nil]

/-- A filter on keys that keeps the row sees the write in what it keeps. -/
theorem filter_upsert_of (h : P (key row) = true) :
    (upsert key row rows).filter (fun r => P (key r)) = upsert key row (rows.filter fun r => P (key r)) := by
  have ha : ((rows.filter fun r => P (key r)).any fun r => key r = key row) =
      rows.any fun r => key r = key row := by
    rw [List.any_filter, Bool.eq_iff_iff, List.any_eq_true, List.any_eq_true]
    refine exists_congr fun r => and_congr_right fun _ => ?_
    rw [Bool.and_eq_true, and_iff_right_iff_imp]
    intro hr
    have hs : key r = key row := of_decide_eq_true hr
    rw [hs, h]
  unfold upsert
  rw [ha]
  split_ifs
  · refine filter_update fun r hr => ?_
    have hk : key r = key row := of_decide_eq_true hr
    rw [hk]
  · rw [List.filter_append, List.filter_cons_of_pos (by simp [h]), List.filter_nil]

/-- The row of a key behind a write of another. -/
theorem find?_upsert_of_ne (h : k ≠ key row) :
    (upsert key row rows).find? (fun r => key r = k) = rows.find? fun r => key r = k := by
  rw [← List.head?_filter, ← List.head?_filter]
  have hf : (upsert key row rows).filter (fun r => decide (key r = k)) = rows.filter fun r => key r = k :=
    filter_upsert_not (P := fun k' => decide (k' = k)) (decide_eq_false h.symm)
  exact congrArg List.head? hf

/-- The row of the key that is written. -/
theorem find?_upsert_self : (upsert key row rows).find? (fun r => key r = key row) = some row := by
  have hm : row ∈ upsert key row rows := mem_upsert.2 (.inl rfl)
  have hs : ((upsert key row rows).find? fun r => decide (key r = key row)).isSome = true :=
    List.find?_isSome.2 ⟨row, hm, decide_eq_true rfl⟩
  obtain ⟨r, hr⟩ := Option.isSome_iff_exists.1 hs
  rcases mem_upsert.1 (List.mem_of_find?_eq_some hr) with rfl | ⟨-, hne⟩
  · exact hr
  · have hk : decide (key r = key row) = true := List.find?_some (p := fun r => decide (key r = key row)) hr
    exact absurd (of_decide_eq_true hk) hne

/-- The row of a key, among those whose keys a filter keeps. -/
theorem find?_filter_key : (rows.filter fun r => P (key r)).find? (fun r => key r = k) =
      if P k then rows.find? fun r => key r = k else none := by
  rw [List.find?_filter]
  split_ifs with hP
  · refine congrArg (rows.find? ·) (funext fun r => ?_)
    by_cases hr : key r = k <;> simp [hr, hP]
  · rw [List.find?_eq_none]
    intro r _ hr
    obtain ⟨hk, hkey⟩ : P (key r) = true ∧ key r = k := by simpa using hr
    exact hP (hkey ▸ hk)

end Upsert

/-- The rows behind an insert, by their position. -/
theorem getElem?_append_row {row row' : α} {i : ℕ} :
    (rows ++ [row])[i]? = some row' ↔ rows[i]? = some row' ∨ i = rows.length ∧ row = row' := by
  rw [List.getElem?_append]
  split
  · next hlt => simp [hlt.ne]
  · next hle =>
    have hn : rows[i]? = none := List.getElem?_eq_none (by omega)
    have hi : i - rows.length = 0 ↔ i = rows.length := by omega
    simp [hn, List.getElem?_singleton, hi]

/-- Rows in the order of a number, newest first. -/
theorem insertionSort_reverse {number : α → ℤ} (h : rows.Pairwise fun a b => number a < number b) :
    rows.insertionSort (fun a b => number b ≤ number a) = rows.reverse := by
  have ht : Std.Total fun a b : α => number b ≤ number a := ⟨fun a b => le_total _ _⟩
  have htra : IsTrans α fun a b => number b ≤ number a := ⟨fun a b c hab hbc => hbc.trans hab⟩
  have hsymm : Std.Symm fun a b : α => number a ≠ number b := ⟨fun _ _ hab => hab.symm⟩
  have hs := List.pairwise_insertionSort (fun a b => number b ≤ number a) rows
  have hr : rows.reverse.Pairwise fun a b => number b ≤ number a :=
    (List.pairwise_reverse.2 h).imp le_of_lt
  refine List.Perm.eq_of_pairwise ?_ hs hr
    ((List.perm_insertionSort _ _).trans (List.reverse_perm rows).symm)
  intro a b ha hb hab hba
  have hm : a ∈ rows := (List.mem_insertionSort _).1 ha
  have hm' : b ∈ rows := List.mem_reverse.1 hb
  by_contra hne
  have hd : number a ≠ number b := (h.imp ne_of_lt).forall hm hm' hne
  omega

/-- Rows of different numbers, sorted by them. -/
theorem insertionSort_of_perm {number : α → ℤ} {sorted : List α}
    (h : sorted.Pairwise fun a b => number a < number b) (hp : rows.Perm sorted) :
    rows.insertionSort (fun a b => number a ≤ number b) = sorted := by
  have ht : Std.Total fun a b : α => number a ≤ number b := ⟨fun a b => le_total _ _⟩
  have htra : IsTrans α fun a b => number a ≤ number b := ⟨fun a b c hab hbc => hab.trans hbc⟩
  have hsymm : Std.Symm fun a b : α => number a ≠ number b := ⟨fun _ _ hab => hab.symm⟩
  have hs := List.pairwise_insertionSort (fun a b => number a ≤ number b) rows
  refine List.Perm.eq_of_pairwise ?_ hs (h.imp le_of_lt) ((List.perm_insertionSort _ _).trans hp)
  intro a b ha hb hab hba
  have hm : a ∈ sorted := hp.mem_iff.1 ((List.mem_insertionSort _).1 ha)
  by_contra hne
  have hd : number a ≠ number b := (h.imp ne_of_lt).forall hm hb hne
  omega

end Table
end Flowdular.Lib
