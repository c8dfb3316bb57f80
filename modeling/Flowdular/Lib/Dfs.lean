/-
# Depth-first order

The recursion that visits the targets of an item before the item itself, fails on an item
it is still in, and fails on an edge that does not hold up.  Fuel bounds the depth, and as
much as there are items is enough.  A search that succeeds leaves an order in which every
item comes behind its targets (`Settled`), of exactly the items its starts reach; and it
succeeds exactly when every edge they reach holds up and none of them lies on a cycle
(`run_ok_iff`).
-/

import Mathlib.Data.List.Basic
import Mathlib.Data.List.Nodup
import Mathlib.Data.List.Perm.Subperm
import Mathlib.Logic.Relation

namespace Flowdular.Lib
namespace Dfs

variable {α ε : Type*} [DecidableEq α]

/-- Follow checked edges, one after the other. -/
def follow (visit : α → List α → Except ε (List α)) : List (Except ε α) → List α → Except ε (List α)
  | [], done => .ok done
  | .error e :: _, _ => .error e
  | .ok b :: rest, done =>
    match visit b done with
    | .ok done => follow visit rest done
    | .error e => .error e

omit [DecidableEq α] in
theorem follow_append {visit : α → List α → Except ε (List α)} :
    ∀ (es es' : List (Except ε α)) (done : List α), follow visit (es ++ es') done =
      (match follow visit es done with
      | .ok done => follow visit es' done
      | .error e => .error e)
  | [], _, _ => rfl
  | .error _ :: _, _, _ => rfl
  | .ok b :: es, es', done => by
      rw [List.cons_append, follow, follow]
      cases visit b done with
      | error e => rfl
      | ok done => exact follow_append es es' done

/-- Visit an item, with the items the search is in and those it is done with. -/
def visit (edges : α → List (Except ε α)) (cycle : α → ε) (spent : ε) :
    ℕ → List α → α → List α → Except ε (List α)
  | 0, _, _, _ => .error spent
  | n + 1, path, a, done =>
    if a ∈ done then .ok done
    else if a ∈ path then .error (cycle a)
    else
      match follow (visit edges cycle spent n (a :: path)) (edges a) done with
      | .ok done => .ok (done ++ [a])
      | .error e => .error e

/-- Visit one start after the other. -/
def run (edges : α → List (Except ε α)) (cycle : α → ε) (spent : ε) (n : ℕ) (starts : List α) :
    Except ε (List α) :=
  follow (visit edges cycle spent n []) (starts.map .ok) []

variable (edges : α → List (Except ε α))

/-- An edge that holds up. -/
def Edge (a b : α) : Prop :=
  .ok b ∈ edges a

/-- Every edge of an item holds up. -/
def Sound (a : α) : Prop :=
  ∀ e, .error e ∉ edges a

/-- An order in which the targets of every item come before it. -/
structure Settled (order : List α) : Prop where
  nodup : order.Nodup
  before : ∀ front a behind, order = front ++ a :: behind → Sound edges a ∧ ∀ b, Edge edges a b → b ∈ front

variable {edges}

omit [DecidableEq α] in
theorem settled_nil : Settled edges ([] : List α) where
  nodup := List.nodup_nil
  before front a behind h := by simp at h

variable {a b : α}

omit [DecidableEq α] in
/-- An item whose targets are in the order may come next. -/
theorem Settled.concat (h : Settled edges order) (ha : a ∉ order)
    (hs : Sound edges a) (he : ∀ b, Edge edges a b → b ∈ order) :
    Settled edges (order ++ [a]) where
  nodup := by
    rw [List.nodup_append]
    refine ⟨h.nodup, List.nodup_singleton a, fun x hx y hy => ?_⟩
    rw [List.mem_singleton.1 hy]
    exact fun hxa => ha (hxa ▸ hx)
  before front x behind heq := by
    rcases List.eq_nil_or_concat behind with rfl | ⟨init, last, rfl⟩
    · obtain ⟨rfl, hx⟩ := List.append_inj' heq rfl
      obtain rfl : a = x := by simpa using hx
      exact ⟨hs, he⟩
    · have hspl : order ++ [a] = (front ++ x :: init) ++ [last] := by simpa using heq
      obtain ⟨rfl, -⟩ := List.append_inj' hspl rfl
      exact h.before front x init rfl

omit [DecidableEq α] in
/-- What an item of the order reaches is in the order. -/
theorem Settled.reaches (h : Settled edges order) (ha : a ∈ order)
    (hab : Relation.ReflTransGen (Edge edges) a b) : b ∈ order := by
  induction hab with
  | refl => exact ha
  | tail _ he ih =>
    obtain ⟨front, behind, heq⟩ := List.append_of_mem ih
    rw [heq]
    exact List.mem_append_left _ ((h.before front _ behind heq).2 _ he)

omit [DecidableEq α] in
theorem Settled.sound (h : Settled edges order) (ha : a ∈ order) : Sound edges a := by
  obtain ⟨front, behind, heq⟩ := List.append_of_mem ha
  exact (h.before front a behind heq).1

/-- An edge goes to an item further to the front. -/
theorem Settled.idxOf_lt (h : Settled edges order) (ha : a ∈ order)
    (hab : Relation.TransGen (Edge edges) a b) : order.idxOf b < order.idxOf a := by
  have he : ∀ {x y}, x ∈ order → Edge edges x y → order.idxOf y < order.idxOf x := by
    intro x y hx hxy
    obtain ⟨front, behind, heq⟩ := List.append_of_mem hx
    have hy : y ∈ front := (h.before front x behind heq).2 y hxy
    have hn := h.nodup
    rw [heq] at hn ⊢
    have hxfr : x ∉ front := by
      intro hm
      exact (List.nodup_append.1 hn).2.2 x hm x List.mem_cons_self rfl
    rw [List.idxOf_append_of_mem hy, List.idxOf_append_of_notMem hxfr]
    have hlt : front.idxOf y < front.length := List.idxOf_lt_length_of_mem hy
    omega
  induction hab with
  | single hxy => exact he ha hxy
  | tail hab hbc ih => exact Nat.lt_trans (he (h.reaches ha hab.to_reflTransGen) hbc) ih

/-- No item of the order lies on a cycle. -/
theorem Settled.acyclic (h : Settled edges order) (ha : a ∈ order) :
    ¬ Relation.TransGen (Edge edges) a a :=
  fun hc => Nat.lt_irrefl _ (h.idxOf_lt ha hc)

/-! ### A search that succeeds -/

/-- What a search that follows some starts leaves, from a settled order and within a path
of items it is in. -/
structure Extends (edges : α → List (Except ε α)) (path : List α) (starts : List α)
    (done done' : List α) : Prop where
  settled : Settled edges done'
  keeps : ∀ x ∈ done, x ∈ done'
  visits : ∀ a ∈ starts, a ∈ done'
  reached : ∀ x ∈ done', x ∈ done ∨ ∃ a ∈ starts, Relation.ReflTransGen (Edge edges) a x
  avoids : ∀ x ∈ path, x ∉ done → x ∉ done'

variable {v : α → List α → Except ε (List α)} {path : List α}

omit [DecidableEq α] in
/-- Following edges, if visiting is right. -/
theorem follow_ok (hv : ∀ a done done', v a done = .ok done' → Settled edges done →
      Extends edges path [a] done done') : ∀ {es : List (Except ε α)} {done done' : List α},
    follow v es done = .ok done' → Settled edges done →
      ∃ starts, es = starts.map .ok ∧ Extends edges path starts done done' := by
  intro es
  induction es with
  | nil =>
    intro done done' h hd
    rw [← Except.ok.inj h]
    exact ⟨[], rfl, hd, fun _ hx => hx, fun _ hx => (nomatch hx), fun _ hx => .inl hx,
      fun _ _ hx => hx⟩
  | cons e es ih =>
    intro done done' h hd
    cases e with
    | error e => cases h
    | ok b =>
      rw [follow] at h
      cases hvis : v b done with
      | error e => rw [hvis] at h; cases h
      | ok mid =>
        rw [hvis] at h
        have hf := hv b done mid hvis hd
        obtain ⟨starts, rfl, hr⟩ := ih h hf.settled
        refine ⟨b :: starts, rfl, hr.settled, fun x hx => hr.keeps x (hf.keeps x hx), ?_,
          fun x hx => ?_, fun x hx hn => hr.avoids x hx (hf.avoids x hx hn)⟩
        · intro a ha
          rcases List.mem_cons.1 ha with rfl | ha
          · exact hr.keeps a (hf.visits a List.mem_cons_self)
          · exact hr.visits a ha
        · rcases hr.reached x hx with hx | ⟨a, ha, hax⟩
          · refine (hf.reached x hx).imp id ?_
            rintro ⟨a, ha, hax⟩
            rw [List.mem_singleton.1 ha] at hax
            exact ⟨b, List.mem_cons_self, hax⟩
          · exact .inr ⟨a, List.mem_cons_of_mem _ ha, hax⟩

variable {cycle : α → ε} {spent : ε}

/-- **A visit that succeeds** settles the item behind its targets. -/
theorem visit_ok : ∀ {n : ℕ} {path : List α} {a : α} {done done' : List α},
    visit edges cycle spent n path a done = .ok done' → Settled edges done →
      Extends edges path [a] done done' := by
  intro n
  induction n with
  | zero => exact fun {_ _ _ _} h => nomatch h
  | succ n ih =>
    intro path a done done' h hd
    rw [visit] at h
    split_ifs at h with hm hp
    · rw [← Except.ok.inj h]
      exact ⟨hd, fun _ hx => hx, fun x hx => by rwa [List.mem_singleton.1 hx],
        fun _ hx => .inl hx, fun _ _ hx => hx⟩
    · cases hf : follow (visit edges cycle spent n (a :: path)) (edges a) done with
      | error e => rw [hf] at h; cases h
      | ok mid =>
        rw [hf] at h
        rw [← Except.ok.inj h]
        obtain ⟨starts, hs, hmid⟩ := follow_ok (fun _ _ _ => ih) hf hd
        have hfre : a ∉ mid := hmid.avoids a List.mem_cons_self hm
        have hedge : ∀ b, Edge edges a b ↔ b ∈ starts := by
          intro b
          rw [Edge, hs]
          simp
        refine ⟨hmid.settled.concat hfre ?_ fun b hb => hmid.visits b ((hedge b).1 hb), ?_, ?_, ?_, ?_⟩
        · intro e he
          rw [hs] at he
          simp at he
        · exact fun x hx => List.mem_append_left _ (hmid.keeps x hx)
        · exact fun x hx => List.mem_append_right _ hx
        · intro x hx
          rcases List.mem_append.1 hx with hx | hx
          · refine (hmid.reached x hx).imp id ?_
            rintro ⟨b, hb, hbx⟩
            exact ⟨a, List.mem_singleton_self a, .head ((hedge b).2 hb) hbx⟩
          · exact .inr ⟨a, List.mem_singleton_self a, by rw [List.mem_singleton.1 hx]⟩
        · intro x hx hn hm'
          rcases List.mem_append.1 hm' with hm' | hm'
          · exact hmid.avoids x (List.mem_cons_of_mem _ hx) hn hm'
          · exact hp (List.mem_singleton.1 hm' ▸ hx)

/-! ### A search that must succeed -/

/-- Nothing on the way from an item fails: every edge holds up and there is no cycle. -/
def Clear (edges : α → List (Except ε α)) (a : α) : Prop :=
  ∀ x, Relation.ReflTransGen (Edge edges) a x →
    Sound edges x ∧ ¬ Relation.TransGen (Edge edges) x x

omit [DecidableEq α] in
theorem Clear.edge (h : Clear edges a) (hab : Edge edges a b) : Clear edges b :=
  fun x hx => h x (.head hab hx)

/-- **A visit from which nothing fails** succeeds, with fuel for the items it is not in. -/
theorem exists_visit (cycle : α → ε) (spent : ε) {items : List α} (hi : ∀ a b, Edge edges a b → b ∈ items) :
    ∀ {n : ℕ} {path : List α} {a : α} (done : List α), a ∈ items → Clear edges a →
      path.Nodup → (∀ p ∈ path, p ∈ items ∧ Relation.TransGen (Edge edges) p a) →
      items.length < n + path.length →
      ∃ done', visit edges cycle spent n path a done = .ok done' := by
  intro n
  induction n with
  | zero =>
    intro path a done ha hc hn hpath hf
    have hle : path.length ≤ items.length :=
      (List.Nodup.subperm hn fun p hp => (hpath p hp).1).length_le
    omega
  | succ n ih =>
    intro path a done ha hc hn hpath hf
    rw [visit]
    split_ifs with hmem hin
    · exact ⟨done, rfl⟩
    · exact absurd (hpath a hin).2 (hc a .refl).2
    · have hfol : ∀ (es : List (Except ε α)) (done : List α), (∀ e ∈ es, e ∈ edges a) →
          ∃ done', follow (visit edges cycle spent n (a :: path)) es done = .ok done' := by
        intro es
        induction es with
        | nil => exact fun done _ => ⟨done, rfl⟩
        | cons e es ihes =>
          intro done hes
          have he : e ∈ edges a := hes e List.mem_cons_self
          cases e with
          | error e => exact absurd he ((hc a .refl).1 e)
          | ok b =>
            have hab : Edge edges a b := he
            obtain ⟨mid, hm⟩ := ih done (hi a b hab) (hc.edge hab)
              (List.nodup_cons.2 ⟨hin, hn⟩) (by
                intro p hp
                rcases List.mem_cons.1 hp with rfl | hp
                · exact ⟨ha, .single hab⟩
                · exact ⟨(hpath p hp).1, (hpath p hp).2.tail hab⟩)
              (by rw [List.length_cons]; omega)
            obtain ⟨done', hd'⟩ := ihes mid fun e he => hes e (List.mem_cons_of_mem _ he)
            exact ⟨done', by rw [follow, hm]; exact hd'⟩
      obtain ⟨mid, hm⟩ := hfol (edges a) done fun _ he => he
      exact ⟨mid ++ [a], by rw [hm]⟩

/-! ### The search -/

variable {n : ℕ} {starts order : List α}

/-- **The order a search leaves.** -/
theorem run_ok (h : run edges cycle spent n starts = .ok order) : Settled edges order ∧
    ∀ x, x ∈ order ↔ ∃ a ∈ starts, Relation.ReflTransGen (Edge edges) a x := by
  obtain ⟨starts', hs, he⟩ := follow_ok (fun _ _ _ => visit_ok) h settled_nil
  have heq : starts = starts' := by
    have hi : Function.Injective (Except.ok : α → Except ε α) := fun a b hab => Except.ok.inj hab
    exact (List.map_injective_iff.2 hi) hs
  rw [← heq] at he
  refine ⟨he.settled, fun x => ⟨fun hx => ?_, ?_⟩⟩
  · exact (he.reached x hx).resolve_left List.not_mem_nil
  · rintro ⟨a, ha, hax⟩
    exact he.settled.reaches (he.visits a ha) hax

/-- **A search succeeds** exactly when nothing on the way from its starts fails. -/
theorem run_ok_iff {items : List α} (hi : ∀ a b, Edge edges a b → b ∈ items)
    (hsta : ∀ a ∈ starts, a ∈ items) (hf : items.length < n) :
    (∃ order, run edges cycle spent n starts = .ok order) ↔ ∀ a ∈ starts, Clear edges a := by
  constructor
  · rintro ⟨order, ho⟩ a ha x hax
    obtain ⟨hs, hm⟩ := run_ok ho
    have hx : x ∈ order := (hm x).2 ⟨a, ha, hax⟩
    exact ⟨hs.sound hx, hs.acyclic hx⟩
  · intro hc
    have hfol : ∀ (as : List α) (done : List α), (∀ a ∈ as, a ∈ starts) →
        ∃ order, follow (visit edges cycle spent n []) (as.map .ok) done = .ok order := by
      intro as
      induction as with
      | nil => exact fun done _ => ⟨done, rfl⟩
      | cons a as ih =>
        intro done has
        have ha : a ∈ starts := has a List.mem_cons_self
        obtain ⟨mid, hmid⟩ := exists_visit cycle spent hi done
          (hsta a ha) (hc a ha) List.nodup_nil (fun p hp => nomatch hp)
          (by rw [List.length_nil]; exact hf)
        obtain ⟨order, ho⟩ := ih mid fun b hb => has b (List.mem_cons_of_mem _ hb)
        exact ⟨order, by rw [List.map_cons, follow, hmid]; exact ho⟩
    exact hfol starts [] fun _ ha => ha

end Dfs
end Flowdular.Lib
