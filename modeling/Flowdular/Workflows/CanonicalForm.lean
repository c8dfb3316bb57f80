/-
# What a canonical text identifies

`src/modules/workflows/src/domain/graph.ts`, lines 82-89: the objects of a
canonical text list their entries sorted by `localeCompare`.

Two values are the same (`Json.same`) when they differ in the order of the entries
of their objects at most.  A canonical text is the text of the value with all
entries sorted (`canonical_eq_stringify`), so it tells any two different values
apart.  Whether it is blind to the order of the entries depends on the collation:
a sort keeps the order of keys it takes for equal, and `localeCompare` takes some
distinct keys for equal.  Keys that are array indices do not matter here, since an
object always lists them first and in order.
-/

import Flowdular.Lib.StableSort
import Flowdular.Workflows.GraphValues
import Flowdular.Workflows.JsonText
import Mathlib.Data.List.Perm.Subperm
import Mathlib.Order.Defs.Unbundled

namespace Flowdular.Workflows

/-- What the specification of `localeCompare` promises: it is a consistent
comparison of all strings. -/
abbrev ConsistentCollation [Host] : Prop := Std.TransCmp (Host.localeCompare)

namespace Json

/-! ### Equality up to the order of entries -/

mutual

/-- Equality of two values whose objects may list their entries in different
orders. -/
def same : Json → Json → Bool
  | .null, .null => true
  | .bool a, .bool b => a = b
  | .num a, .num b => a = b
  | .str a, .str b => a = b
  | .arr items, .arr others => sameItems items others
  | .obj fields, .obj others => fields.length = others.length && sameFields fields others
  | _, _ => false

/-- Equality of two lists of items. -/
def sameItems : List Json → List Json → Bool
  | [], [] => true
  | item :: items, other :: others => same item other && sameItems items others
  | _, _ => false

/-- Whether every entry has its like among the others. -/
def sameFields : List (String × Json) → List (String × Json) → Bool
  | [], _ => true
  | (key, value) :: fields, others =>
    (match others.lookup key with
      | some other => same value other
      | none => false) && sameFields fields others

end

theorem sameItems_iff (items : List Json) : ∀ others : List Json,
    sameItems items others = true ↔ List.Forall₂ (fun v w => same v w = true) items others := by
  induction items with
  | nil => intro others; cases others <;> simp [sameItems]
  | cons item items ih => intro others; cases others <;> simp [sameItems, ih]

theorem sameFields_iff (fields others : List (String × Json)) : sameFields fields others = true ↔
      ∀ e ∈ fields, ∃ w, others.lookup e.1 = some w ∧ same e.2 w = true := by
  induction fields with
  | nil => simp [sameFields]
  | cons e fields ih =>
    obtain ⟨key, value⟩ := e
    rw [sameFields, Bool.and_eq_true, ih, List.forall_mem_cons]
    cases others.lookup key <;> simp

variable {fields others : List (String × Json)} {P : List (String × Json) → Prop} {k l : String}
  {e : String × Json} {β : Type} {a b : Json} {entries : List (String × β)}

theorem same_obj_iff : same (.obj fields) (.obj others) = true ↔ fields.length = others.length ∧
        ∀ e ∈ fields, ∃ w, others.lookup e.1 = some w ∧ same e.2 w = true := by
  rw [same, Bool.and_eq_true, decide_eq_true_iff, sameFields_iff]

/-! ### The objects of a value -/

mutual

/-- The entries of each object in a value. -/
def objects : Json → List (List (String × Json))
  | .arr items => objectsOfItems items
  | .obj fields => fields :: objectsOfFields fields
  | _ => []

/-- The entries of each object in a list of items. -/
def objectsOfItems : List Json → List (List (String × Json))
  | [] => []
  | item :: items => objects item ++ objectsOfItems items

/-- The entries of each object below the entries of one. -/
def objectsOfFields : List (String × Json) → List (List (String × Json))
  | [] => []
  | (_, value) :: fields => objects value ++ objectsOfFields fields

end

theorem forall_objectsOfItems (items : List Json) :
    (∀ o ∈ objectsOfItems items, P o) ↔ ∀ v ∈ items, ∀ o ∈ objects v, P o := by
  induction items with
  | nil => simp [objectsOfItems]
  | cons item items ih => simp only [objectsOfItems, List.forall_mem_append, ih,
      List.forall_mem_cons]

theorem forall_objectsOfFields (fields : List (String × Json)) :
    (∀ o ∈ objectsOfFields fields, P o) ↔ ∀ e ∈ fields, ∀ o ∈ objects e.2, P o := by
  induction fields with
  | nil => simp [objectsOfFields]
  | cons e fields ih => simp only [objectsOfFields, List.forall_mem_append, ih,
      List.forall_mem_cons]

/-- Whether `Object.entries` lists one key before another: array indices come
first and in order, and no key comes twice. -/
def keyBefore (k l : String) : Bool :=
  match indexKey? k, indexKey? l with
  | some i, some j => i < j
  | some _, none => true
  | none, some _ => false
  | none, none => k ≠ l

/-- Every object lists its entries as `Object.entries` does. -/
def Listed (v : Json) : Prop :=
  ∀ o ∈ objects v, o.Pairwise fun e f => keyBefore e.1 f.1 = true

instance (v : Json) : Decidable v.Listed :=
  inferInstanceAs (Decidable (∀ o ∈ objects v, o.Pairwise fun e f => keyBefore e.1 f.1 = true))

theorem keyBefore_ne (h : keyBefore k l = true) : k ≠ l := by
  rintro rfl
  unfold keyBefore at h
  split at h <;> simp_all

theorem not_keyBefore_swap (h : keyBefore k l = true)
    (hi : indexKey? k ≠ none ∨ indexKey? l ≠ none) : keyBefore l k = false := by
  unfold keyBefore at h ⊢
  cases hk : indexKey? k <;> cases hl : indexKey? l <;> simp_all
  omega

theorem indexKey?_of_keyBefore {k l : String} (h : keyBefore k l = true)
    (hk : indexKey? k = none) : indexKey? l = none := by
  unfold keyBefore at h
  cases hl : indexKey? l <;> simp_all

theorem forall_objects_arr {items : List Json} :
    (∀ o ∈ objects (.arr items), P o) ↔ ∀ v ∈ items, ∀ o ∈ objects v, P o := by
  rw [objects, forall_objectsOfItems]

theorem forall_objects_obj :
    (∀ o ∈ objects (.obj fields), P o) ↔ P fields ∧ ∀ e ∈ fields, ∀ o ∈ objects e.2, P o := by
  rw [objects, List.forall_mem_cons, forall_objectsOfFields]

theorem listed_arr {items : List Json} : Listed (.arr items) ↔ ∀ v ∈ items, Listed v :=
  forall_objects_arr

theorem listed_obj : Listed (.obj fields) ↔
      (fields.Pairwise fun e f => keyBefore e.1 f.1 = true) ∧ ∀ e ∈ fields, Listed e.2 :=
  forall_objects_obj

/-- The value of a key that one entry holds. -/
theorem lookup_of_mem (hf : fields.Pairwise fun e f => e.1 ≠ f.1) (he : e ∈ fields) :
    fields.lookup e.1 = some e.2 := by
  obtain ⟨s, t, rfl⟩ := List.append_of_mem he
  have hs := (List.pairwise_append.1 hf).2.2
  refine List.lookup_eq_some_iff.2 ⟨s, t, rfl, fun x hx => ?_⟩
  simpa using (hs x hx e List.mem_cons_self).symm

theorem mem_of_lookup_eq {key : String} {value : Json}
    (h : fields.lookup key = some value) : (key, value) ∈ fields := by
  obtain ⟨s, t, rfl, -⟩ := List.lookup_eq_some_iff.1 h
  exact List.mem_append_right _ List.mem_cons_self

theorem same_refl {v : Json} (hv : Listed v) : same v v = true := by
  induction v using Json.induction with
  | null => rfl
  | bool b => simp [same]
  | num n => simp [same]
  | str s => simp [same]
  | arr items ih =>
    have hi := listed_arr.1 hv
    rw [same, sameItems_iff]
    exact List.forall₂_same.2 fun v hv => ih v hv (hi v hv)
  | obj fields ih =>
    obtain ⟨hk, hval⟩ := listed_obj.1 hv
    rw [same_obj_iff]
    exact ⟨rfl, fun e he => ⟨e.2, lookup_of_mem (hk.imp keyBefore_ne) he, ih e he (hval e he)⟩⟩

/-! ### Sorted values -/

variable [Host]

mutual

/-- The value with the entries of every object sorted. -/
def sorted : Json → Json
  | .arr items => .arr (sortedItems items)
  | .obj fields => .obj (sortEntries (sortedFields fields))
  | v => v

/-- The items of an array, each sorted. -/
def sortedItems : List Json → List Json
  | [] => []
  | item :: items => sorted item :: sortedItems items

/-- The entries of an object, each value sorted. -/
def sortedFields : List (String × Json) → List (String × Json)
  | [] => []
  | (key, value) :: fields => (key, sorted value) :: sortedFields fields

end

theorem sortedItems_eq (items : List Json) : sortedItems items = items.map sorted := by
  induction items with
  | nil => rfl
  | cons item items ih => rw [sortedItems, ih, List.map_cons]

theorem sortedFields_eq (fields : List (String × Json)) :
    sortedFields fields = fields.map fun e => (e.1, sorted e.2) := by
  induction fields with
  | nil => rfl
  | cons e fields ih => rw [sortedFields, ih, List.map_cons]

theorem sortEntries_map {γ : Type} (f : β → γ) (entries : List (String × β)) :
    sortEntries (entries.map fun e => (e.1, f e.2)) =
      (sortEntries entries).map fun e => (e.1, f e.2) :=
  (List.map_insertionSort _ _ (fun e : String × β => (e.1, f e.2)) entries
    fun _ _ _ _ => Iff.rfl).symm

theorem perm_sortEntries (entries : List (String × β)) : (sortEntries entries).Perm entries :=
  List.perm_insertionSort _ _

theorem canonicalItems_eq (items : List Json) : canonicalItems items = items.map canonical := by
  induction items with
  | nil => rfl
  | cons item items ih => rw [canonicalItems, ih, List.map_cons]

theorem canonicalFields_eq (fields : List (String × Json)) :
    canonicalFields fields = fields.map fun e => (e.1, canonical e.2) := by
  induction fields with
  | nil => rfl
  | cons e fields ih => rw [canonicalFields, ih, List.map_cons]

/-- The canonical text is the text of the sorted value. -/
theorem canonical_eq_stringify (v : Json) : canonical v = stringify (sorted v) := by
  induction v using Json.induction with
  | null => rfl
  | bool b => rfl
  | num n => rfl
  | str s => rfl
  | arr items ih =>
    have hm : items.map canonical = (items.map sorted).map stringify := by
      rw [List.map_map]
      exact List.map_congr_left ih
    rw [canonical, sorted, stringify, canonicalItems_eq, stringifyItems_eq, sortedItems_eq, hm]
  | obj fields ih =>
    have hm : (fields.map fun e => (e.1, canonical e.2)) =
        (fields.map fun e => (e.1, sorted e.2)).map fun e => (e.1, stringify e.2) := by
      rw [List.map_map]
      exact List.map_congr_left fun e he => by rw [ih e he]; rfl
    rw [canonical, sorted, stringify, canonicalFields_eq, stringifyFields_eq, sortedFields_eq, hm,
      sortEntries_map]

theorem canonical_eq_iff : canonical a = canonical b ↔ sorted a = sorted b := by
  rw [canonical_eq_stringify, canonical_eq_stringify, stringify_injective.eq_iff]

/-! ### What sorting keeps -/

omit [Host] in
theorem nodup_of_keys (h : entries.Pairwise fun e f => e.1 ≠ f.1) : entries.Nodup :=
  h.imp fun hne heq => hne (congrArg Prod.fst heq)

theorem keys_sortedFields (h : fields.Pairwise fun e f => keyBefore e.1 f.1 = true) :
    (sortedFields fields).Pairwise fun e f => keyBefore e.1 f.1 = true := by
  rw [sortedFields_eq]
  exact List.pairwise_map.2 h

theorem nodup_sortedFields
    (h : fields.Pairwise fun e f => keyBefore e.1 f.1 = true) : (sortedFields fields).Nodup :=
  nodup_of_keys ((keys_sortedFields h).imp keyBefore_ne)

/-- Objects that are sorted to one text have their entries in common. -/
theorem entries_of_sorted_eq (ho : others.Pairwise fun e f => keyBefore e.1 f.1 = true)
    (h : sorted (.obj fields) = sorted (.obj others)) :
    fields.length = others.length ∧
      ∀ e ∈ fields, ∃ w, others.lookup e.1 = some w ∧ sorted e.2 = sorted w := by
  rw [sorted, sorted, Json.obj.injEq, sortedFields_eq, sortedFields_eq] at h
  have hp := perm_sortEntries (fields.map fun e => (e.1, sorted e.2))
  rw [h] at hp
  have hp := hp.symm.trans (perm_sortEntries _)
  refine ⟨by simpa using hp.length_eq, fun e he => ?_⟩
  obtain ⟨f, hf, heq⟩ := List.mem_map.1 (hp.subset (List.mem_map_of_mem he))
  rw [Prod.mk.injEq] at heq
  exact ⟨f.2, heq.1 ▸ lookup_of_mem (ho.imp keyBefore_ne) hf, heq.2.symm⟩

/-- A canonical text is the text of no different value. -/
theorem same_of_sorted_eq (hb : Listed b) (h : sorted a = sorted b) : same a b = true := by
  induction a using Json.induction generalizing b with
  | null => cases b <;> simp_all [sorted, same]
  | bool b => cases b <;> simp_all [sorted, same]
  | num n => cases b <;> simp_all [sorted, same]
  | str s => cases b <;> simp_all [sorted, same]
  | arr items ih =>
    cases b with
    | arr others =>
      rw [sorted, sorted, Json.arr.injEq, sortedItems_eq, sortedItems_eq] at h
      rw [same, sameItems_iff, List.forall₂_iff_get]
      have hl : items.length = others.length := by simpa using congrArg List.length h
      refine ⟨hl, fun i hi hi' => ?_⟩
      have hg : sorted items[i] = sorted others[i] := by
        simpa [hi, hi'] using congrArg (·[i]?) h
      exact ih _ (List.getElem_mem hi) (listed_arr.1 hb _ (List.getElem_mem hi')) hg
    | _ => simp [sorted] at h
  | obj fields ih =>
    cases b with
    | obj others =>
      obtain ⟨hk, hv⟩ := listed_obj.1 hb
      obtain ⟨hl, hent⟩ := entries_of_sorted_eq hk h
      refine same_obj_iff.2 ⟨hl, fun e he => ?_⟩
      obtain ⟨w, hw, heq⟩ := hent e he
      exact ⟨w, hw, ih e he (hv _ (mem_of_lookup_eq hw)) heq⟩
    | _ => simp [sorted] at h

/-- No object has two keys the collation takes for equal, the array indices apart. -/
def Untied (v : Json) : Prop :=
  ∀ o ∈ objects v, ∀ e ∈ o, ∀ f ∈ o, indexKey? e.1 = none → indexKey? f.1 = none → e.1 ≠ f.1 →
    Host.localeCompare e.1 f.1 ≠ .eq

instance (v : Json) : Decidable v.Untied :=
  inferInstanceAs (Decidable (∀ o ∈ objects v, ∀ e ∈ o, ∀ f ∈ o, indexKey? e.1 = none →
    indexKey? f.1 = none → e.1 ≠ f.1 → Host.localeCompare e.1 f.1 ≠ .eq))

theorem untied_arr {items : List Json} : Untied (.arr items) ↔ ∀ v ∈ items, Untied v :=
  forall_objects_arr

theorem untied_obj : Untied (.obj fields) ↔
      (∀ e ∈ fields, ∀ f ∈ fields, indexKey? e.1 = none → indexKey? f.1 = none → e.1 ≠ f.1 →
        Host.localeCompare e.1 f.1 ≠ .eq) ∧ ∀ e ∈ fields, Untied e.2 :=
  forall_objects_obj

variable [ConsistentCollation]

instance {β : Type} : Std.Total fun l r : String × β => Host.localeCompare l.1 r.1 ≠ .gt where
  total l r := by
    have : Host.localeCompare l.1 r.1 = (Host.localeCompare r.1 l.1).swap :=
      Std.OrientedCmp.eq_swap
    cases h : Host.localeCompare r.1 l.1 <;> simp_all

instance {β : Type} : IsTrans (String × β) fun l r => Host.localeCompare l.1 r.1 ≠ .gt where
  trans a b c hab hbc := by
    have hle := Std.TransCmp.isLE_trans (Ordering.isLE_iff_ne_gt.2 hab)
      (Ordering.isLE_iff_ne_gt.2 hbc)
    exact Ordering.isLE_iff_ne_gt.1 hle

theorem localeCompare_eq (h : Host.localeCompare k l ≠ .gt)
    (h' : Host.localeCompare l k ≠ .gt) : Host.localeCompare k l = .eq := by
  have : Host.localeCompare k l = (Host.localeCompare l k).swap := Std.OrientedCmp.eq_swap
  cases hk : Host.localeCompare l k <;> simp_all

/-- Two arrangements of one object are sorted alike when the collation ties no two
of its keys but array indices. -/
theorem sortEntries_eq {others : List (String × β)}
    (he : entries.Pairwise fun e f => keyBefore e.1 f.1 = true)
    (ho : others.Pairwise fun e f => keyBefore e.1 f.1 = true) (hp : entries.Perm others)
    (hu : ∀ e ∈ entries, ∀ f ∈ entries, indexKey? e.1 = none → indexKey? f.1 = none → e.1 ≠ f.1 →
      Host.localeCompare e.1 f.1 ≠ .eq) :
    sortEntries entries = sortEntries others := by
  have hn : entries.Nodup := nodup_of_keys (he.imp keyBefore_ne)
  refine (StableSort.insertionSort_eq_iff hn hp).2 fun e f hef hfe hpair => ?_
  have hb : keyBefore e.1 f.1 = true := List.pairwise_iff_forall_sublist.1 he hpair
  obtain ⟨hme, hmf⟩ := StableSort.mem_of_pair hpair
  have ht := localeCompare_eq hef hfe
  have hi : indexKey? e.1 ≠ none ∨ indexKey? f.1 ≠ none := by
    by_contra hnone
    push Not at hnone
    exact hu e hme f hmf hnone.1 hnone.2 (keyBefore_ne hb) ht
  rcases StableSort.pair_or (hp.subset hme) (hp.subset hmf) (StableSort.ne_of_pair hn hpair)
    with h | h
  · exact h
  · -- an array index cannot follow the key it precedes
    have ha : keyBefore f.1 e.1 = true := List.pairwise_iff_forall_sublist.1 ho h
    rw [not_keyBefore_swap hb hi] at ha
    exact absurd ha Bool.false_ne_true

/-- The same values have one canonical text when the collation ties no two keys. -/
theorem sorted_eq_of_same (ha : Listed a) (hb : Listed b) (hu : Untied a)
    (h : same a b = true) : sorted a = sorted b := by
  induction a using Json.induction generalizing b with
  | null => cases b <;> simp_all [sorted, same]
  | bool b => cases b <;> simp_all [sorted, same]
  | num n => cases b <;> simp_all [sorted, same]
  | str s => cases b <;> simp_all [sorted, same]
  | arr items ih =>
    cases b with
    | arr others =>
      rw [same, sameItems_iff] at h
      rw [sorted, sorted, sortedItems_eq, sortedItems_eq]
      obtain ⟨hl, hite⟩ := List.forall₂_iff_get.1 h
      refine congrArg Json.arr (List.ext_getElem (by simpa using hl) fun i hi hi' => ?_)
      have hi : i < items.length := by simpa using hi
      have hi' : i < others.length := by simpa using hi'
      rw [List.getElem_map, List.getElem_map]
      exact ih _ (List.getElem_mem hi) (listed_arr.1 ha _ (List.getElem_mem hi))
        (listed_arr.1 hb _ (List.getElem_mem hi')) (untied_arr.1 hu _ (List.getElem_mem hi))
        (hite i hi hi')
    | _ => simp [same] at h
  | obj fields ih =>
    cases b with
    | obj others =>
      obtain ⟨hk, hv⟩ := listed_obj.1 ha
      obtain ⟨hk', hv'⟩ := listed_obj.1 hb
      obtain ⟨hunt, hunt'⟩ := untied_obj.1 hu
      obtain ⟨hl, hent⟩ := same_obj_iff.1 h
      have hsub : sortedFields fields ⊆ sortedFields others := by
        rw [sortedFields_eq, sortedFields_eq]
        intro f hf
        obtain ⟨e, he, rfl⟩ := List.mem_map.1 hf
        obtain ⟨w, hw, hs⟩ := hent e he
        have hm := mem_of_lookup_eq hw
        have heq := ih e he (hv e he) (hv' _ hm) (hunt' e he) hs
        exact List.mem_map.2 ⟨(e.1, w), hm, by rw [heq]⟩
      have hp : (sortedFields fields).Perm (sortedFields others) := by
        refine (List.Nodup.subperm (nodup_sortedFields hk) hsub).perm_of_length_le ?_
        rw [sortedFields_eq, sortedFields_eq, List.length_map, List.length_map, hl]
      have hunt' : ∀ e ∈ sortedFields fields, ∀ f ∈ sortedFields fields,
          indexKey? e.1 = none → indexKey? f.1 = none → e.1 ≠ f.1 →
            Host.localeCompare e.1 f.1 ≠ .eq := by
        rw [sortedFields_eq]
        intro e' he' f' hf'
        obtain ⟨e, he, rfl⟩ := List.mem_map.1 he'
        obtain ⟨f, hf, rfl⟩ := List.mem_map.1 hf'
        exact hunt e he f hf
      rw [sorted, sorted, sortEntries_eq (keys_sortedFields hk) (keys_sortedFields hk') hp hunt']
    | _ => simp [same] at h

/-- **Two untied values have one canonical text exactly when they are the same.** -/
theorem canonical_eq_iff_same (ha : Listed a) (hb : Listed b) (hu : Untied a) :
    canonical a = canonical b ↔ same a b = true := by
  rw [canonical_eq_iff]
  exact ⟨same_of_sorted_eq hb, sorted_eq_of_same ha hb hu⟩

/-! ### Tied keys -/

/-- Two tied keys of one object can be exchanged, and the text shows it. -/
theorem exists_swapped (hf : Listed (.obj fields))
    {f : String × Json} (hpair : [e, f].Sublist fields) (he : indexKey? e.1 = none)
    (ht : Host.localeCompare e.1 f.1 = .eq) :
    ∃ b, Listed b ∧ same (.obj fields) b = true ∧ sorted (.obj fields) ≠ sorted b := by
  obtain ⟨hk, hv⟩ := listed_obj.1 hf
  obtain ⟨s, m, t, rfl⟩ := StableSort.exists_split_of_pair hpair
  have hs : (e :: (m ++ f :: t)).Perm (f :: (m ++ e :: t)) := by
    refine ((List.perm_middle.cons e).trans (.swap f e _)).trans (List.Perm.cons f ?_)
    exact List.perm_middle.symm
  obtain ⟨hfir, hr, hc⟩ := List.pairwise_append.1 hk
  -- from the first of the two keys on, no key is an array index
  have hnone : ∀ x ∈ e :: (m ++ f :: t), indexKey? x.1 = none := by
    intro x hx
    rcases List.mem_cons.1 hx with rfl | hx
    · exact he
    · exact indexKey?_of_keyBefore ((List.pairwise_cons.1 hr).1 x hx) he
  have hk' : (s ++ f :: (m ++ e :: t)).Pairwise fun e f => keyBefore e.1 f.1 = true := by
    refine List.pairwise_append.2 ⟨hfir, ?_, fun x hx y hy => hc x hx y (hs.mem_iff.2 hy)⟩
    have hne : (f :: (m ++ e :: t)).Pairwise fun e f => e.1 ≠ f.1 :=
      (hs.pairwise_iff fun h => h.symm).1 (hr.imp keyBefore_ne)
    refine hne.imp_of_mem fun {x y} hx hy hxy => ?_
    simp only [keyBefore, hnone x (hs.mem_iff.2 hx), hnone y (hs.mem_iff.2 hy)]
    exact decide_eq_true hxy
  have hp : (s ++ e :: (m ++ f :: t)).Perm (s ++ f :: (m ++ e :: t)) :=
    hs.append_left s
  refine ⟨.obj (s ++ f :: (m ++ e :: t)), listed_obj.2 ⟨hk', fun x hx => hv x (hp.mem_iff.2 hx)⟩,
    same_obj_iff.2 ⟨hp.length_eq, fun x hx => ⟨x.2, ?_, same_refl (hv x hx)⟩⟩, ?_⟩
  · exact lookup_of_mem (hk'.imp keyBefore_ne) (hp.mem_iff.1 hx)
  · rw [sorted, sorted, Ne, Json.obj.injEq]
    intro heq
    have hm := hp.map fun e => (e.1, sorted e.2)
    rw [← sortedFields_eq, ← sortedFields_eq] at hm
    have hn := nodup_sortedFields hk
    have ht' : Host.localeCompare f.1 e.1 = .eq := Std.OrientedCmp.eq_symm ht
    have hpair₁ : [(e.1, sorted e.2), (f.1, sorted f.2)].Sublist
        (sortedFields (s ++ e :: (m ++ f :: t))) := by
      rw [sortedFields_eq]
      exact hpair.map fun e => (e.1, sorted e.2)
    have hpair₂ : [(f.1, sorted f.2), (e.1, sorted e.2)].Sublist
        (sortedFields (s ++ f :: (m ++ e :: t))) := by
      rw [sortedFields_eq]
      exact (StableSort.pair_of_split s m t).map fun e => (e.1, sorted e.2)
    have hsame := (StableSort.insertionSort_eq_iff hn hm).1 heq _ _
      (by simp [ht]) (by simp [ht']) hpair₁
    exact StableSort.not_pair_swap (hm.nodup_iff.1 hn) hsame hpair₂

/-- **A value with tied keys has a like whose canonical text differs.** -/
theorem exists_same_of_not_untied (ha : Listed a) (hu : ¬Untied a) :
    ∃ b, Listed b ∧ same a b = true ∧ sorted a ≠ sorted b := by
  induction a using Json.induction with
  | arr items ih =>
    rw [untied_arr] at hu
    push Not at hu
    obtain ⟨v, hv, huv⟩ := hu
    have hi := listed_arr.1 ha
    obtain ⟨w, hw, hs, hne⟩ := ih v hv (hi v hv) huv
    obtain ⟨s, t, rfl⟩ := List.append_of_mem hv
    refine ⟨.arr (s ++ w :: t), listed_arr.2 fun x hx => ?_, ?_, ?_⟩
    · rcases List.mem_append.1 hx with hx | hx
      · exact hi x (List.mem_append_left _ hx)
      · rcases List.mem_cons.1 hx with rfl | hx
        · exact hw
        · exact hi x (List.mem_append_right _ (List.mem_cons_of_mem _ hx))
    · rw [same, sameItems_iff]
      have hr : ∀ l : List Json, (∀ x ∈ l, x ∈ s ++ v :: t) →
          List.Forall₂ (fun v w => same v w = true) l l :=
        fun l hl => List.forall₂_same.2 fun x hx => same_refl (hi x (hl x hx))
      exact List.rel_append (hr s fun x hx => List.mem_append_left _ hx)
        (.cons hs (hr t fun x hx => List.mem_append_right _ (List.mem_cons_of_mem _ hx)))
    · rw [sorted, sorted, Ne, Json.arr.injEq, sortedItems_eq, sortedItems_eq]
      simpa using hne
  | obj fields ih =>
    rw [untied_obj, not_and_or] at hu
    obtain ⟨hk, hval⟩ := listed_obj.1 ha
    rcases hu with hu | hu
    · push Not at hu
      obtain ⟨e, he, f, hf, hie, hif, hne, ht⟩ := hu
      rcases StableSort.pair_or he hf (fun h => hne (congrArg Prod.fst h)) with hp | hp
      · exact exists_swapped ha hp hie ht
      · exact exists_swapped ha hp hif (Std.OrientedCmp.eq_symm ht)
    · push Not at hu
      obtain ⟨e, he, hue⟩ := hu
      obtain ⟨w, hw, hs, hne⟩ := ih e he (hval e he) hue
      obtain ⟨s, t, rfl⟩ := List.append_of_mem he
      have hk' : (s ++ (e.1, w) :: t).Pairwise fun e f => keyBefore e.1 f.1 = true := by
        simpa [List.pairwise_append] using hk
      refine ⟨.obj (s ++ (e.1, w) :: t), listed_obj.2 ⟨hk', fun x hx => ?_⟩,
        same_obj_iff.2 ⟨by simp, fun x hx => ?_⟩, fun heq => ?_⟩
      · rcases List.mem_append.1 hx with hx | hx
        · exact hval x (List.mem_append_left _ hx)
        · rcases List.mem_cons.1 hx with rfl | hx
          · exact hw
          · exact hval x (List.mem_append_right _ (List.mem_cons_of_mem _ hx))
      · rcases List.mem_append.1 hx with hx' | hx'
        · exact ⟨x.2, lookup_of_mem (hk'.imp keyBefore_ne) (List.mem_append_left _ hx'),
            same_refl (hval x hx)⟩
        · rcases List.mem_cons.1 hx' with rfl | hx'
          · exact ⟨w, lookup_of_mem (hk'.imp keyBefore_ne)
              (List.mem_append_right _ List.mem_cons_self), hs⟩
          · exact ⟨x.2, lookup_of_mem (hk'.imp keyBefore_ne) (List.mem_append_right _
              (List.mem_cons_of_mem _ hx')), same_refl (hval x hx)⟩
      · obtain ⟨w', hw', heq⟩ := (entries_of_sorted_eq hk' heq).2 e he
        have hm : (e.1, w) ∈ s ++ (e.1, w) :: t := List.mem_append_right s List.mem_cons_self
        have hself : (s ++ (e.1, w) :: t).lookup e.1 = some w :=
          lookup_of_mem (hk'.imp keyBefore_ne) hm
        rw [hself, Option.some_inj] at hw'
        exact hne (hw' ▸ heq)
  | _ => exact absurd (fun o ho => by simp [objects] at ho) hu

end Json

end Flowdular.Workflows
