/-
# Rows with revisions

Rows under a key, each with a revision, and the saves that took effect on them.  A save names the
revision it was made on; it leaves a row of the next revision, or none.  Where each names the
revision that is stored, no revision of a key is named twice, the stored revision is the first one
and as many more as there were saves, and the stored row is what the last save left (`Saved`).  One
such save keeps it (`Saved.put`, `Saved.drop`).
-/

import Flowdular.Lib.Table
import Mathlib.Data.Int.Notation

namespace Flowdular.Lib
namespace Revisions

variable {κ ρ : Type*}

/-- A save that took effect: its key, the revision it named, and the row it left. -/
structure Save (κ ρ : Type*) where
  key : κ
  expected : ℤ
  left : Option ρ

variable [DecidableEq κ]

/-- The row under a key. -/
def rowAt (key : ρ → κ) (rows : List ρ) (k : κ) : Option ρ :=
  rows.find? fun row => key row = k

/-- What the last save of a key left, or what was there first; the newest save comes first. -/
def leftBy (first : Option ρ) : List (Save κ ρ) → κ → Option ρ
  | [], _ => first
  | save :: log, k => if save.key = k then save.left else leftBy first log k

/-- The rows, behind the saves of a log that began with the first rows. -/
structure Saved (key : ρ → κ) (revision : ρ → ℤ) (first rows : List ρ) (log : List (Save κ ρ)) :
    Prop where
  once : (log.map fun save => (save.key, save.expected)).Nodup
  left : ∀ k, rowAt key rows k = leftBy (rowAt key first k) log k
  counted : ∀ k row, rowAt key rows k = some row → ∃ old, rowAt key first k = some old ∧
    revision row = revision old + log.countP (·.key = k)
  below : ∀ save ∈ log, ∀ row, rowAt key rows save.key = some row → save.expected < revision row

variable {key : ρ → κ} {revision : ρ → ℤ} {first rows : List ρ} {log : List (Save κ ρ)}

variable {k : κ} {old : ρ}

theorem rowAt_upsert {row : ρ} :
    rowAt key (Table.upsert key row rows) k = if k = key row then some row else rowAt key rows k := by
  split_ifs with hk
  · rw [hk]
    exact Table.find?_upsert_self
  · exact Table.find?_upsert_of_ne hk

theorem rowAt_drop {k' : κ} :
    rowAt key (rows.filter fun row => key row ≠ k) k' = if k' = k then none else rowAt key rows k' := by
  have h := @Table.find?_filter_key _ _ rows _ key (fun k' => decide (k' ≠ k)) k'
  by_cases hk : k' = k
  · rw [if_pos hk]
    rw [if_neg (by simpa using hk)] at h
    exact h
  · rw [if_neg hk]
    rw [if_pos (decide_eq_true hk)] at h
    exact h

theorem mem_of_rowAt {row : ρ} (h : rowAt key rows k = some row) : row ∈ rows ∧ key row = k :=
  ⟨List.mem_of_find?_eq_some h, of_decide_eq_true (List.find?_some (p := fun row => decide (key row = k)) h)⟩

theorem saved_nil : Saved key revision rows rows ([] : List (Save κ ρ)) where
  once := List.nodup_nil
  left _ := rfl
  counted _ row h := ⟨row, h, by simp⟩
  below _ h := absurd h List.not_mem_nil

/-- A save of the stored revision names one that no save named before. -/
theorem Saved.fresh (h : Saved key revision first rows log) {left : Option ρ}
    (hold : rowAt key rows k = some old) :
    ((⟨k, revision old, left⟩ :: log : List (Save κ ρ)).map fun save => (save.key, save.expected)).Nodup := by
  rw [List.map_cons, List.nodup_cons]
  refine ⟨fun hm => ?_, h.once⟩
  obtain ⟨save, hs, heq⟩ := List.mem_map.1 hm
  obtain ⟨hk, he⟩ : save.key = k ∧ save.expected = revision old := Prod.mk.inj heq
  have hlt := h.below save hs old (hk ▸ hold)
  omega

/-- **A row of the next revision** over the one a save names. -/
theorem Saved.put (h : Saved key revision first rows log) {row : ρ}
    (hold : rowAt key rows (key row) = some old) (hn : revision row = revision old + 1) :
    Saved key revision first (Table.upsert key row rows) (⟨key row, revision old, some row⟩ :: log) where
  once := h.fresh hold
  left k := by
    rw [rowAt_upsert, leftBy]
    by_cases hk : k = key row
    · rw [if_pos hk, if_pos hk.symm]
    · rw [if_neg hk, if_neg (Ne.symm hk)]
      exact h.left k
  counted k row' hr' := by
    rw [rowAt_upsert] at hr'
    rw [List.countP_cons]
    split_ifs at hr' with hk
    · obtain ⟨oldest, ho, hc⟩ := h.counted k old (hk ▸ hold)
      refine ⟨oldest, ho, ?_⟩
      rw [← Option.some.inj hr', hn, hc, if_pos (decide_eq_true hk.symm)]
      push_cast
      omega
    · obtain ⟨oldest, ho, hc⟩ := h.counted k row' hr'
      refine ⟨oldest, ho, ?_⟩
      rw [if_neg (by simpa using Ne.symm hk)]
      exact hc
  below save hs row' hr' := by
    rw [rowAt_upsert] at hr'
    rcases List.mem_cons.1 hs with rfl | hs
    · rw [if_pos rfl] at hr'
      rw [← Option.some.inj hr', hn]
      change revision old < revision old + 1
      omega
    · split_ifs at hr' with hk
      · have hlt := h.below save hs old (hk ▸ hold)
        rw [← Option.some.inj hr', hn]
        omega
      · exact h.below save hs row' hr'

/-- **No row** where a save deletes the one it names. -/
theorem Saved.drop (h : Saved key revision first rows log) (hold : rowAt key rows k = some old) :
    Saved key revision first (rows.filter fun row => key row ≠ k) (⟨k, revision old, none⟩ :: log) where
  once := h.fresh hold
  left k' := by
    rw [rowAt_drop, leftBy]
    by_cases hk : k' = k
    · rw [if_pos hk, if_pos hk.symm]
    · rw [if_neg hk, if_neg (Ne.symm hk)]
      exact h.left k'
  counted k' row hr := by
    rw [rowAt_drop] at hr
    rw [List.countP_cons]
    split_ifs at hr with hk
    obtain ⟨oldest, ho, hc⟩ := h.counted k' row hr
    refine ⟨oldest, ho, ?_⟩
    rw [if_neg (by simpa using Ne.symm hk)]
    exact hc
  below save hs row hr := by
    rw [rowAt_drop] at hr
    split_ifs at hr with hk
    rcases List.mem_cons.1 hs with rfl | hs
    · exact absurd rfl hk
    · exact h.below save hs row hr

end Revisions
end Flowdular.Lib
