/-
# Hash chains

A row of a chained log holds its fields, among them the hash of the row before
it, and a hash of its own.  A log is linked when every row names the hash of its
predecessor, the first one none, and its own hash is the digest of its fields.
When the digest has no collisions the last hash commits to every field of every
row (`Linked.commits`), which is what makes an edit show; so does a digest that runs over
a list, where the length of the list is known (`foldl_commits`).
-/

import Mathlib.Data.List.Induction
import Mathlib.Logic.Function.Basic

namespace Flowdular

/-- How the rows of a chained log are read: the hashed fields of a row, the hash
of the row before it as they hold it, the hash a row carries and the digest of
its fields. -/
structure HashChain (Row Fields Hash : Type*) where
  fields : Row → Fields
  previous : Fields → Option Hash
  hash : Row → Hash
  digest : Fields → Hash

namespace HashChain

variable {Row Fields Hash : Type*} (chain : HashChain Row Fields Hash)

/-- The rows link up behind a row whose hash was `previous`. -/
def Linked : Option Hash → List Row → Prop
  | _, [] => True
  | previous, row :: rows =>
    chain.previous (chain.fields row) = previous ∧
      chain.hash row = chain.digest (chain.fields row) ∧ Linked (some (chain.hash row)) rows

/-- The hash of the last row, `previous` when there is none. -/
def lastHash : Option Hash → List Row → Option Hash
  | previous, [] => previous
  | _, row :: rows => lastHash (some (chain.hash row)) rows

variable {chain} {previous : Option Hash} {xs ys : List Row}

@[simp] theorem lastHash_append_singleton (previous : Option Hash) (xs : List Row) (row : Row) :
    chain.lastHash previous (xs ++ [row]) = some (chain.hash row) := by
  induction xs generalizing previous with
  | nil => rfl
  | cons x xs ih => exact ih _

theorem linked_append : chain.Linked previous (xs ++ ys) ↔
      chain.Linked previous xs ∧ chain.Linked (chain.lastHash previous xs) ys := by
  induction xs generalizing previous with
  | nil => simp [Linked, lastHash]
  | cons x xs ih => simp only [List.cons_append, Linked, ih, lastHash, and_assoc]

theorem Linked.hash_eq (h : chain.Linked previous xs) {row : Row} (hr : row ∈ xs) :
    chain.hash row = chain.digest (chain.fields row) := by
  induction xs generalizing previous with
  | nil => simp at hr
  | cons x xs ih =>
    obtain ⟨-, hx, hxs⟩ := h
    rcases List.mem_cons.1 hr with rfl | hr
    · exact hx
    · exact ih hxs hr

/-- **The last hash commits to the log.**  Two logs that both link up from the
start and end in the same hash hold the same fields, row by row. -/
theorem Linked.commits (hd : Function.Injective chain.digest) (hx : chain.Linked none xs)
    (hy : chain.Linked none ys) (h : chain.lastHash none xs = chain.lastHash none ys) :
    xs.map chain.fields = ys.map chain.fields := by
  induction xs using List.reverseRecOn generalizing ys with
  | nil =>
    rcases List.eq_nil_or_concat ys with rfl | ⟨ys, y, rfl⟩
    · rfl
    · simp [lastHash] at h
  | append_singleton xs x ih =>
    rcases List.eq_nil_or_concat ys with rfl | ⟨ys, y, rfl⟩
    · simp [lastHash] at h
    rw [List.concat_eq_append] at *
    obtain ⟨hx, hpx, hhx, -⟩ := linked_append.1 hx
    obtain ⟨hy, hpy, hhy, -⟩ := linked_append.1 hy
    rw [lastHash_append_singleton, lastHash_append_singleton, Option.some_inj, hhx, hhy] at h
    have hf := hd h
    have hl : chain.lastHash none xs = chain.lastHash none ys := by rw [← hpx, hf, hpy]
    simp [ih hx hy hl, hf]

/-- A row whose hash is the digest of other fields than it holds is in no linked
log. -/
theorem not_linked_of_mem (hd : Function.Injective chain.digest) {row : Row} {fields : Fields}
    (hr : row ∈ xs) (hh : chain.hash row = chain.digest fields)
    (hne : chain.fields row ≠ fields) : ¬ chain.Linked previous xs := by
  intro h
  have := h.hash_eq hr
  exact hne (hd (this.symm.trans hh))

/-- A linked log whose last row is a row of another one is, field by field, what
that other log begins with. -/
theorem Linked.prefix_of_mem (hd : Function.Injective chain.digest) {last : Row}
    (hx : chain.Linked none xs) (hy : chain.Linked none (ys ++ [last])) (hl : last ∈ xs) :
    (ys ++ [last]).map chain.fields <+: xs.map chain.fields := by
  obtain ⟨as, bs, rfl⟩ := List.append_of_mem hl
  have hs : as ++ last :: bs = (as ++ [last]) ++ bs := by simp
  rw [hs] at hx ⊢
  have hf := (linked_append.1 hx).1
  rw [hy.commits hd hf (by simp)]
  exact ⟨bs.map chain.fields, by simp⟩

end HashChain

/-! ### Running digests -/

/-- **A running digest commits to what went in**, if it is known how much that was. -/
theorem foldl_commits {α β : Type*} {f : α → β → α} (hf : Function.Injective2 f) {xs ys : List β} :
    ∀ {a b : α}, xs.length = ys.length → xs.foldl f a = ys.foldl f b → a = b ∧ xs = ys := by
  induction xs generalizing ys with
  | nil =>
    intro a b hl h
    obtain rfl := List.length_eq_zero_iff.1 hl.symm
    exact ⟨h, rfl⟩
  | cons x xs ih =>
    intro a b hl h
    cases ys with
    | nil => cases hl
    | cons y ys =>
      have hfold : xs.foldl f (f a x) = ys.foldl f (f b y) := h
      obtain ⟨hs, hr⟩ := ih (Nat.succ.inj hl) hfold
      obtain ⟨ha, hx⟩ := hf hs
      exact ⟨ha, by rw [hx, hr]⟩

end Flowdular
