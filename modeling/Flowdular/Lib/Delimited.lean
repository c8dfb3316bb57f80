/-
# Texts that can be read off the front

An encoding puts values into a stream of symbols, one behind the other.  It
reads back at a value when no other value has an encoding that, with what
follows it, makes the same stream: what follows is the stop, and it says what
the reader may rely on.  Encodings that read back compose: a pair with a symbol
between, a list with a symbol before each item and one behind the last.

Parts joined by a symbol are told apart by their number, where those of one of
two joined texts are without the symbol (`intercalate_inj`).
-/

import Mathlib.Data.List.Basic
import Mathlib.Tactic.Common
import Mathlib.Algebra.GroupWithZero.Nat

namespace Flowdular

variable {α β σ : Type*}

/-- Whatever stands in front of a rest that satisfies `stop`, the encoding of `a`
there is told apart from that of any other value. -/
def Reads (stop : List σ → Prop) (encode : α → List σ) (a : α) : Prop :=
  ∀ b s t, stop s → stop t → encode a ++ s = encode b ++ t → a = b ∧ s = t

/-- The rest begins with a given symbol. -/
def Starts (c : σ) (rest : List σ) : Prop :=
  rest.head? = some c

theorem starts_cons (c : σ) (rest : List σ) : Starts c (c :: rest) :=
  rfl

namespace Reads

variable {stop stop' : List σ → Prop} {encode : α → List σ} {a : α}

theorem mono (h : Reads stop encode a) (hstop : ∀ s, stop' s → stop s) : Reads stop' encode a :=
  fun b s t hs ht => h b s t (hstop s hs) (hstop t ht)

/-- An encoding a function reads back. -/
theorem of_reader (read : List σ → Option (α × List σ))
    (h : ∀ a s, stop s → read (encode a ++ s) = some (a, s)) (a : α) : Reads stop encode a := by
  intro b s t hs ht heq
  have hr := h a s hs
  rw [heq, h b t ht] at hr
  simpa [eq_comm] using hr

/-- An encoding in an alphabet of its own ends where a symbol outside it stands. -/
theorem of_alphabet {P : σ → Prop} (hi : Function.Injective encode)
    (hm : ∀ a, ∀ c ∈ encode a, P c) (hstop : ∀ s, stop s → ∀ c, s.head? = some c → ¬ P c)
    (a : α) : Reads stop encode a := by
  -- what one text has more than the other would stand at the front of a rest
  have key : ∀ b s t rest, stop s → encode b = encode a ++ rest → s = rest ++ t →
      a = b ∧ s = t := by
    rintro b s t (_ | ⟨c, rest⟩) hs hb hst
    · rw [List.append_nil] at hb
      exact ⟨hi hb.symm, hst⟩
    · exact absurd (hm b c (by simp [hb])) (hstop s hs c (by simp [hst]))
  intro b s t hs ht heq
  rcases List.append_eq_append_iff.1 heq with ⟨rest, hb, hst⟩ | ⟨rest, ha, hst⟩
  · exact key b s t rest hs hb hst
  · have key' : ∀ c, rest.head? = some c → False := by
      intro c hc
      obtain ⟨cs, rfl⟩ : ∃ cs, rest = c :: cs := ⟨rest.tail, (List.cons_head?_tail hc).symm⟩
      exact hstop t ht c (by simp [hst]) (hm a c (by simp [ha]))
    obtain rfl : rest = [] := List.head?_eq_none_iff.1 (Option.eq_none_iff_forall_not_mem.2 key')
    rw [List.append_nil] at ha
    exact ⟨hi ha, hst.symm⟩

/-- A whole text determines its value. -/
theorem injective (h : ∀ a, Reads stop encode a) (hn : stop []) : Function.Injective encode :=
  fun a b heq => (h a b [] [] hn hn (by rw [heq])).1

theorem pair {key : β → List σ} {b : β} {c : σ} (hk : Reads (Starts c) key b)
    (hv : Reads stop encode a) :
    Reads stop (fun e : β × α => key e.1 ++ c :: encode e.2) (b, a) := by
  rintro ⟨b', a'⟩ s t hs ht heq
  simp only [List.append_assoc, List.cons_append] at heq
  obtain ⟨rfl, hr⟩ := hk b' _ _ (starts_cons _ _) (starts_cons _ _) heq
  obtain ⟨rfl, rfl⟩ := hv a' s t hs ht (List.cons.inj hr).2
  exact ⟨rfl, rfl⟩

variable {xs : List α} {sep : σ}

/-- Items with a symbol before each and another one behind the last. -/
theorem items {before close : σ} (hne : before ≠ close) (hb : ∀ s, stop (before :: s))
    (hc : ∀ s, stop (close :: s)) (h : ∀ x ∈ xs, Reads stop encode x) :
    Reads (fun _ => True) (fun xs => xs.flatMap (fun x => before :: encode x) ++ [close]) xs := by
  induction xs with
  | nil =>
    rintro (_ | ⟨y, ys⟩) s t - - heq
    · simpa using heq
    · simp [hne.symm] at heq
  | cons x xs ih =>
    rintro (_ | ⟨y, ys⟩) s t - - heq
    · simp [hne] at heq
    have hs : ∀ (zs : List α) s, stop (zs.flatMap (fun x => before :: encode x) ++ [close] ++ s) := by
      rintro (_ | ⟨z, zs⟩) s
      · exact hc s
      · simpa using hb _
    simp only [List.flatMap_cons, List.cons_append, List.append_assoc, List.cons.injEq,
      true_and] at heq
    simp only [List.append_assoc] at hs
    obtain ⟨rfl, hr⟩ := h x List.mem_cons_self y _ _ (hs xs s) (hs ys t) heq
    obtain ⟨rfl, rfl⟩ := ih (fun z hz => h z (List.mem_cons_of_mem _ hz)) ys s t trivial trivial
      (by simpa using hr)
    exact ⟨rfl, rfl⟩

theorem intercalate_cons_map (x : α) (xs : List α) : [sep].intercalate ((x :: xs).map encode) =
      encode x ++ xs.flatMap (fun x => sep :: encode x) := by
  induction xs generalizing x with
  | nil => simp
  | cons y ys ih =>
    rw [List.map_cons, List.intercalate_cons_of_ne_nil (by simp), ih]
    simp

/-- Items with a symbol between them and another one behind the last. -/
theorem separated {close : σ} (hne : sep ≠ close) (hsep : ∀ s, stop (sep :: s))
    (hc : ∀ s, stop (close :: s)) (ho : ∀ x s, (encode x ++ s).head? ≠ some close)
    (h : ∀ x ∈ xs, Reads stop encode x) :
    Reads (fun _ => True) (fun xs => [sep].intercalate (xs.map encode) ++ [close]) xs := by
  have hs : ∀ (zs : List α) s, stop (zs.flatMap (fun x => sep :: encode x) ++ [close] ++ s) := by
    rintro (_ | ⟨z, zs⟩) s
    · exact hc s
    · simpa using hsep _
  simp only [List.append_assoc] at hs
  rintro ys s t - - heq
  rcases xs with _ | ⟨x, xs⟩ <;> rcases ys with _ | ⟨y, ys⟩
  · simpa using heq
  · simp only [intercalate_cons_map, List.append_assoc] at heq
    exact absurd (by rw [← heq]; rfl) (ho y _)
  · simp only [intercalate_cons_map, List.append_assoc] at heq
    exact absurd (by rw [heq]; rfl) (ho x _)
  · simp only [intercalate_cons_map, List.append_assoc] at heq
    obtain ⟨rfl, hr⟩ := h x List.mem_cons_self y _ _ (hs xs s) (hs ys t) heq
    have hi := items hne hsep hc fun z hz => h z (List.mem_cons_of_mem _ hz)
    obtain ⟨rfl, rfl⟩ := hi ys s t trivial trivial (by simpa using hr)
    exact ⟨rfl, rfl⟩

/-- Items that need no separator, up to a symbol none of them begins with. -/
theorem run {close : σ} (h : ∀ x, Reads (fun _ => True) encode x)
    (ho : ∀ x s, (encode x ++ s).head? ≠ some close) (xs : List α) :
    Reads (fun _ => True) (fun xs => xs.flatMap encode ++ [close]) xs := by
  induction xs with
  | nil =>
    rintro (_ | ⟨y, ys⟩) s t - - heq
    · simpa using heq
    · simp only [List.flatMap_cons, List.append_assoc] at heq
      exact absurd (by rw [← heq]; rfl) (ho y _)
  | cons x xs ih =>
    rintro (_ | ⟨y, ys⟩) s t - - heq
    · simp only [List.flatMap_cons, List.append_assoc] at heq
      exact absurd (by rw [heq]; rfl) (ho x _)
    simp only [List.flatMap_cons, List.append_assoc] at heq
    obtain ⟨rfl, hr⟩ := h x y _ _ trivial trivial heq
    obtain ⟨rfl, rfl⟩ := ih ys s t trivial trivial (by simpa using hr)
    exact ⟨rfl, rfl⟩

end Reads

/-! ### Joined parts -/

section

variable [DecidableEq σ] {sep : σ}

/-- The symbols of joined parts: those of the parts and those between them. -/
theorem count_intercalate (p : List σ) (ps : List (List σ)) :
    ([sep].intercalate (p :: ps)).count sep =
      p.count sep + (ps.map (List.count sep)).sum + ps.length := by
  induction ps generalizing p with
  | nil => simp
  | cons q ps ih =>
    rw [List.intercalate_cons_of_ne_nil (by simp), List.count_append, List.count_append, ih,
      List.map_cons, List.sum_cons, List.length_cons, List.count_singleton_self]
    omega

/-- **As many parts are told apart** where one side has no symbol inside its parts: the
other side then has none either. -/
theorem intercalate_inj {as bs : List (List σ)} (hl : as.length = bs.length)
    (hf : ∀ a ∈ as, sep ∉ a) (h : [sep].intercalate as = [sep].intercalate bs) : as = bs := by
  cases as with
  | nil => exact (List.length_eq_zero_iff.1 hl.symm).symm
  | cons a as =>
    cases bs with
    | nil => cases hl
    | cons b bs =>
      have hz : ∀ p ∈ a :: as, p.count sep = 0 := fun p hp => List.count_eq_zero.2 (hf p hp)
      have hs : (as.map (List.count sep)).sum = 0 := by
        refine List.sum_eq_zero_iff_forall_eq_nat.2 fun n hn => ?_
        obtain ⟨p, hp, rfl⟩ := List.mem_map.1 hn
        exact hz p (List.mem_cons_of_mem a hp)
      have hc := congrArg (List.count sep) h
      rw [count_intercalate, count_intercalate, hz a List.mem_cons_self, hs] at hc
      simp only [List.length_cons, Nat.add_right_cancel_iff] at hl
      have hb : b.count sep = 0 := by omega
      have hbs : (bs.map (List.count sep)).sum = 0 := by omega
      have hf' : ∀ p ∈ b :: bs, sep ∉ p := by
        refine List.forall_mem_cons.2 ⟨List.count_eq_zero.1 hb, fun p hp => ?_⟩
        exact List.count_eq_zero.1 (List.sum_eq_zero_iff_forall_eq_nat.1 hbs _ (List.mem_map_of_mem hp))
      rw [← List.splitOn_intercalate sep hf (by simp), h,
        List.splitOn_intercalate sep hf' (by simp)]

end

end Flowdular
