/-
# The names of segment files

The name of a segment file holds the workspace and the range, so `verify` selects the
segment files of a workspace among the files of its directory (`segmentName_matches`), and
no two ranges of a workspace share a file (`segmentName_inj`): the padding of a sequence
can be read back (`pad_inj`).
-/

import Flowdular.Audit.SealVerify

namespace Flowdular.Audit

/-! ### Sequences -/

theorem toList_pad (n : ℕ) : (pad n).toList =
    List.replicate (12 - (Nat.repr n).length) '0' ++ Nat.toDigits 10 n := by
  have hr : toString (n : ℤ) = Nat.repr n := rfl
  unfold pad
  rw [hr, String.toList_append, String.toList_ofList, Nat.toList_repr]

variable {n : ℕ}

/-- **The padding can be read back.** -/
theorem pad_inj {m : ℕ} (h : (pad m).toList = (pad n).toList) : m = n := by
  rw [toList_pad, toList_pad] at h
  have hv := congrArg (fun chars => Nat.ofDigitChars 10 chars 0) h
  simpa [Nat.ofDigitChars_append, Nat.ofDigitChars_ten_toDigits] using hv

/-- The characters of a padded sequence are digits. -/
theorem isDigit_of_mem_pad {c : Char} (h : c ∈ (pad n).toList) : c.isDigit = true := by
  rw [toList_pad, List.mem_append] at h
  rcases h with h | h
  · rw [(List.mem_replicate.1 h).2]
    decide
  · exact Nat.isDigit_of_mem_toDigits (by decide) (by decide) h

theorem dash_notMem_pad (n : ℕ) : '-' ∉ (pad n).toList := by
  intro h
  have := isDigit_of_mem_pad h
  revert this
  decide

/-! ### Names -/

theorem toList_segmentName (tenantId : String) (from_ to_ : ℤ) :
    (segmentName tenantId from_ to_).toList = (segmentNamePrefix tenantId).toList ++
      ((pad from_).toList ++ '-' :: ((pad to_).toList ++ ".jsonl".toList)) := by
  have hd : "-".toList = ['-'] := rfl
  simp only [segmentName, String.toList_append, List.append_assoc, hd, List.cons_append,
    List.nil_append]

/-- **A name tells its range.** -/
theorem segmentName_inj {tenantId : String} {a b a' b' : ℕ}
    (h : segmentName tenantId a b = segmentName tenantId a' b') : a = a' ∧ b = b' := by
  have hc := congrArg String.toList h
  rw [toList_segmentName, toList_segmentName] at hc
  have hran := List.append_cancel_left hc
  have hd := dash_notMem_pad a
  have hd' := dash_notMem_pad a'
  have hf : (pad a).toList = (pad a').toList ∧
      (pad b).toList ++ ".jsonl".toList = (pad b').toList ++ ".jsonl".toList := by
    rw [List.append_eq_append_iff] at hran
    rcases hran with ⟨rest, hl, hr⟩ | ⟨rest, hl, hr⟩
    · cases rest with
      | nil => exact ⟨by simpa using hl.symm, by simpa using hr⟩
      | cons c rest =>
        obtain rfl : c = '-' := by simpa using (List.cons.inj hr).1.symm
        exact absurd (by rw [hl]; simp) hd'
    · cases rest with
      | nil => exact ⟨by simpa using hl, by simpa using hr.symm⟩
      | cons c rest =>
        obtain rfl : c = '-' := by simpa using (List.cons.inj hr).1.symm
        exact absurd (by rw [hl]; simp) hd
  exact ⟨pad_inj hf.1, pad_inj (List.append_cancel_right hf.2)⟩

/-- What `verify` asks of the name of a file. -/
def matchesName (tenantId name : String) : Bool :=
  (segmentNamePrefix tenantId).toList.isPrefixOf name.toList &&
    ".jsonl".toList.isSuffixOf name.toList

/-- **`verify` selects the segment files of its workspace.** -/
theorem segmentName_matches (tenantId : String) (from_ to_ : ℤ) :
    matchesName tenantId (segmentName tenantId from_ to_) = true := by
  unfold matchesName
  rw [Bool.and_eq_true, List.isPrefixOf_iff_prefix, List.isSuffixOf_iff_suffix, toList_segmentName]
  refine ⟨List.prefix_append _ _, ?_⟩
  refine ⟨(segmentNamePrefix tenantId).toList ++ ((pad from_).toList ++ '-' :: (pad to_).toList), ?_⟩
  simp

end Flowdular.Audit
