/-
# What the mappings of a node write

`src/modules/workflows/src/domain/graph.ts`, lines 513-537 and 1507-1605.

The mappings of a node write one value after another below an object that is empty
at first.  Targets of which none is a prefix of another never meet: a write is read
back at its target, leaves every other position as it was, and meets nothing but
objects on its way, since only the targets hold the values of others.  So the object
that comes out is the same in every order of the mappings
(`applyWorkflowMappings_put_get`).

An assignment is followed once more with prototypes in view (`assignEntry`): the key
`__proto__` does not name an entry but the prototype, and no target reaches it.
-/

import Flowdular.Workflows.SourcePointers

namespace Flowdular.Workflows

open Json (Listed keyBefore same below? at? pathOf)

/-! ### One entry -/

theorem lookup_insertEntry_self (key : String) (value : Json) : ∀ fields : List (String × Json),
    fields.lookup key = none → (insertEntry key value fields).lookup key = some value
  | [], _ => by simp [insertEntry]
  | (k, v) :: fields, h => by
    have hk : (key == k) = false := by
      rw [List.lookup_cons] at h
      split at h <;> simp_all
    have hr : fields.lookup key = none := by simpa [List.lookup_cons, hk] using h
    have ih := lookup_insertEntry_self key value fields hr
    unfold insertEntry
    split
    · split
      · simp
      · rw [List.lookup_cons, hk]
        exact ih
    · simp
    · rw [List.lookup_cons, hk]
      exact ih

theorem lookup_insertEntry_ne {key other : String} (hne : other ≠ key) (value : Json) :
    ∀ fields : List (String × Json),
      (insertEntry key value fields).lookup other = fields.lookup other
  | [] => by rw [insertEntry, List.lookup_cons, beq_eq_false_iff_ne.2 hne]
  | (k, v) :: fields => by
    have ih := lookup_insertEntry_ne hne value fields
    have hc : ∀ rest : List (String × Json),
        ((key, value) :: rest).lookup other = rest.lookup other := by
      intro rest
      rw [List.lookup_cons, beq_eq_false_iff_ne.2 hne]
    unfold insertEntry
    split
    · split
      · exact hc _
      · rw [List.lookup_cons, List.lookup_cons, ih]
    · exact hc _
    · rw [List.lookup_cons, List.lookup_cons, ih]

theorem lookup_cons_if (k other : String) (v : Json) (fields : List (String × Json)) :
    ((k, v) :: fields).lookup other = if other = k then some v else fields.lookup other := by
  rw [List.lookup_cons]
  by_cases ho : other = k
  · simp [ho]
  · simp [ho, beq_eq_false_iff_ne.2 ho]

theorem lookup_replaceEntry (key other : String) (value : Json) (fields : List (String × Json)) :
    (fields.map fun (k, v) => if k = key then (k, value) else (k, v)).lookup other =
      if other = key then (fields.lookup other).map fun _ => value else fields.lookup other := by
  induction fields with
  | nil => simp
  | cons e fields ih =>
    obtain ⟨k, v⟩ := e
    have hh : (if k = key then (k, value) else (k, v)) = (k, if k = key then value else v) := by
      split_ifs <;> rfl
    rw [List.map_cons]
    show List.lookup other ((if k = key then (k, value) else (k, v)) :: _) = _
    rw [hh, lookup_cons_if, lookup_cons_if, ih]
    split_ifs <;> simp_all

/-- `target[key] = value` is read back. -/
theorem lookup_setEntry_self (fields : List (String × Json)) (key : String) (value : Json) :
    (setEntry fields key value).lookup key = some value := by
  unfold setEntry
  split
  · next h =>
    obtain ⟨v, hv⟩ := Option.isSome_iff_exists.1 h
    rw [lookup_replaceEntry, if_pos rfl, hv]
    rfl
  · next h => exact lookup_insertEntry_self key value fields (Option.not_isSome_iff_eq_none.1 h)

/-- And leaves every other entry as it was. -/
theorem lookup_setEntry_ne {key other : String} (hne : other ≠ key) (fields : List (String × Json))
    (value : Json) : (setEntry fields key value).lookup other = fields.lookup other := by
  unfold setEntry
  split
  · rw [lookup_replaceEntry, if_neg hne]
  · exact lookup_insertEntry_ne hne value fields

theorem mem_insertEntry {key : String} {value : Json} {e : String × Json} :
    ∀ {fields : List (String × Json)}, e ∈ insertEntry key value fields →
      e = (key, value) ∨ e ∈ fields
  | [], h => .inl (by simpa [insertEntry] using h)
  | (k, v) :: fields, h => by
    have ih := @mem_insertEntry key value e fields
    unfold insertEntry at h
    split at h <;> (try split at h) <;> simp only [List.mem_cons] at h ih ⊢ <;> tauto

/-- No key comes twice. -/
abbrev DistinctKeys (fields : List (String × Json)) : Prop :=
  fields.Pairwise fun e f => e.1 ≠ f.1

theorem distinctKeys_insertEntry {key : String} (value : Json) :
    ∀ {fields : List (String × Json)}, fields.lookup key = none → DistinctKeys fields →
      DistinctKeys (insertEntry key value fields)
  | [], _, _ => by simp [insertEntry]
  | (k, v) :: fields, hn, h => by
    have hk : ∀ e ∈ (k, v) :: fields, key ≠ e.1 := by
      intro e he heq
      rw [heq, Json.lookup_of_mem h he] at hn
      cases hn
    have hr : fields.lookup key = none := by
      rw [List.lookup_cons, beq_eq_false_iff_ne.2 (hk _ List.mem_cons_self)] at hn
      exact hn
    obtain ⟨hf, hfie⟩ := List.pairwise_cons.1 h
    have hb : DistinctKeys ((k, v) :: insertEntry key value fields) := by
      refine List.pairwise_cons.2 ⟨fun e he => ?_, distinctKeys_insertEntry value hr hfie⟩
      rcases mem_insertEntry he with rfl | he
      · exact (hk _ List.mem_cons_self).symm
      · exact hf e he
    have hbef : DistinctKeys ((key, value) :: (k, v) :: fields) :=
      List.pairwise_cons.2 ⟨hk, h⟩
    unfold insertEntry
    split
    · split
      · exact hbef
      · exact hb
    · exact hbef
    · exact hb

variable {fields : List (String × Json)} {p q : List String} {α : Type}
  {writes : List (List String × Json)} {pointer : String}

theorem distinctKeys_setEntry (h : DistinctKeys fields)
    (key : String) (value : Json) : DistinctKeys (setEntry fields key value) := by
  unfold setEntry
  split
  · refine List.pairwise_map.2 (h.imp fun {e f} hne => ?_)
    obtain ⟨k, v⟩ := e
    obtain ⟨l, w⟩ := f
    dsimp only
    split_ifs <;> exact hne
  · next hn => exact distinctKeys_insertEntry value (Option.not_isSome_iff_eq_none.1 hn) h

theorem mem_setEntry {key : String} {value : Json}
    {e : String × Json} (h : e ∈ setEntry fields key value) : e.2 = value ∨ e ∈ fields := by
  unfold setEntry at h
  split at h
  · obtain ⟨⟨k, v⟩, hm, rfl⟩ := List.mem_map.1 h
    dsimp only
    split_ifs
    · exact .inl rfl
    · exact .inr hm
  · exact (mem_insertEntry h).imp (congrArg Prod.snd) id

/-! ### One write -/

/-- The keys as the position they lead to. -/
def keySteps (keys : List String) : List Step :=
  keys.map .key

/-- Neither position lies at or below the other. -/
def Apart {α : Type} (p q : List α) : Prop :=
  ¬p <+: q ∧ ¬q <+: p

/-- Nothing but objects stands on the way to a target. -/
def Open (fields : List (String × Json)) : List String → Prop
  | [] | [_] => True
  | part :: parts =>
    match fields.lookup part with
    | none => True
    | some (.obj inner) => Open inner parts
    | some _ => False

theorem at?_key_obj (fields : List (String × Json)) (key : String) (path : List Step) :
    at? (.key key :: path) (.obj fields) = (fields.lookup key).bind (at? path) :=
  rfl

theorem writeSegments_cons (fields : List (String × Json)) (value : Json) (part next : String)
    (parts : List String) :
    writeSegments fields value (part :: next :: parts) = setEntry fields part (.obj (writeSegments
        (match fields.lookup part with
          | some (.obj inner) => inner
          | _ => []) value (next :: parts))) := by
  rfl

/-- **Put, then get.**  What stands at and below the target is the value. -/
theorem at?_writeSegments_self {value : Json} : ∀ {fields : List (String × Json)}
    {keys : List String}, keys ≠ [] → ∀ path,
      at? (keySteps keys ++ path) (.obj (writeSegments fields value keys)) = at? path value
  | _, [], h, _ => absurd rfl h
  | fields, [last], _, path => by
    show at? (.key last :: path) (.obj (setEntry fields last value)) = _
    rw [at?_key_obj, lookup_setEntry_self, Option.bind_some]
  | fields, part :: next :: parts, _, path => by
    rw [writeSegments_cons]
    show at? (.key part :: (keySteps (next :: parts) ++ path)) (.obj (setEntry fields part _)) = _
    rw [at?_key_obj, lookup_setEntry_self, Option.bind_some]
    exact at?_writeSegments_self (by simp) path

/-- Above the target stand objects. -/
theorem at?_writeSegments_above {value : Json} : ∀ {fields : List (String × Json)}
    {keys : List String} (above below : List String), keys = above ++ below → below ≠ [] →
      ∃ inner, at? (keySteps above) (.obj (writeSegments fields value keys)) = some (.obj inner) := by
  intro fields keys above below hk hb
  induction above generalizing fields keys with
  | nil => exact ⟨_, rfl⟩
  | cons part above ih =>
    subst hk
    obtain ⟨next, parts, hp⟩ : ∃ next parts, above ++ below = next :: parts := by
      cases h : above ++ below with
      | nil => exact absurd (List.append_eq_nil_iff.1 h).2 hb
      | cons next parts => exact ⟨next, parts, rfl⟩
    rw [List.cons_append, hp, writeSegments_cons]
    show ∃ inner, at? (.key part :: keySteps above) (.obj (setEntry fields part _)) = _
    rw [at?_key_obj, lookup_setEntry_self, Option.bind_some]
    exact ih hp.symm

/-- **Frame.**  Every position apart from the target stays as it was. -/
theorem at?_writeSegments_apart {value : Json} : ∀ {fields : List (String × Json)}
    {keys : List String}, Open fields keys → ∀ path, Apart (keySteps keys) path →
      at? path (.obj (writeSegments fields value keys)) = at? path (.obj fields)
  | _, [], _, path, h => absurd (List.nil_prefix) h.1
  | _, _ :: _, _, [], h => absurd (List.nil_prefix) h.2
  | fields, [last], _, step :: path, h => by
    have hne : step ≠ .key last := by
      rintro rfl
      exact h.1 (List.cons_prefix_cons.2 ⟨rfl, List.nil_prefix⟩)
    show at? (step :: path) (.obj (setEntry fields last value)) = _
    cases step with
    | index i => rfl
    | key key =>
      rw [at?_key_obj, at?_key_obj, lookup_setEntry_ne fun heq => hne (congrArg Step.key heq)]
  | fields, part :: next :: parts, ho, step :: path, h => by
    rw [writeSegments_cons]
    cases step with
    | index i => rfl
    | key key =>
      rw [at?_key_obj, at?_key_obj]
      by_cases hk : key = part
      · subst hk
        have ha : Apart (keySteps (next :: parts)) path := by
          refine ⟨fun hp => h.1 ?_, fun hp => h.2 ?_⟩
          · exact List.cons_prefix_cons.2 ⟨rfl, hp⟩
          · exact List.cons_prefix_cons.2 ⟨rfl, hp⟩
        rw [lookup_setEntry_self, Option.bind_some]
        unfold Open at ho
        split at ho
        · next hn =>
          have he : Open [] (next :: parts) := by
            cases parts <;> simp [Open]
          rw [hn, Option.bind_none, at?_writeSegments_apart he path ha]
          cases path with
          | nil => exact absurd List.nil_prefix ha.2
          | cons step path => cases step <;> rfl
        · next inner hi =>
          rw [hi, Option.bind_some]
          exact at?_writeSegments_apart ho path ha
        · exact ho.elim
      · rw [lookup_setEntry_ne hk]

theorem distinct_writeSegments {value : Json} (hv : ∀ o ∈ value.objects, DistinctKeys o) :
    ∀ {keys : List String} {fields : List (String × Json)},
      (∀ o ∈ (Json.obj fields).objects, DistinctKeys o) →
        ∀ o ∈ (Json.obj (writeSegments fields value keys)).objects, DistinctKeys o
  | [], _, h => h
  | [last], fields, h => by
    have h := Json.forall_objects_obj.1 h
    show ∀ o ∈ (Json.obj (setEntry fields last value)).objects, DistinctKeys o
    refine Json.forall_objects_obj.2 ⟨distinctKeys_setEntry h.1 _ _, fun e he => ?_⟩
    rcases mem_setEntry he with heq | he
    · rwa [heq]
    · exact h.2 e he
  | part :: next :: parts, fields, h => by
    have h := Json.forall_objects_obj.1 h
    rw [writeSegments_cons]
    refine Json.forall_objects_obj.2 ⟨distinctKeys_setEntry h.1 _ _, fun e he => ?_⟩
    rcases mem_setEntry he with heq | he
    · rw [heq]
      refine distinct_writeSegments hv ?_
      split
      · next inner hi => exact h.2 _ (Json.mem_of_lookup_eq hi)
      · simp [Json.objects, Json.objectsOfFields]
    · exact h.2 e he

/-! ### All writes -/

/-- The writes of a list of targets and values, one after another. -/
def writeAll (fields : List (String × Json)) (writes : List (List String × Json)) :
    List (String × Json) :=
  writes.foldl (fun fields write => writeSegments fields write.2 write.1) fields

/-- What stands where after the writes: the values at and below their targets,
objects above them, nothing apart from all. -/
structure Placed (writes : List (List String × Json)) (fields : List (String × Json)) : Prop where
  target : ∀ write ∈ writes, ∀ path,
    at? (keySteps write.1 ++ path) (.obj fields) = at? path write.2
  above : ∀ write ∈ writes, ∀ above below, write.1 = above ++ below → below ≠ [] →
    ∃ inner, at? (keySteps above) (.obj fields) = some (.obj inner)
  apart : ∀ path, path ≠ [] → (∀ write ∈ writes, Apart (keySteps write.1) path) →
    at? path (.obj fields) = none
  distinct : ∀ o ∈ (Json.obj fields).objects, DistinctKeys o

theorem keySteps_isPrefix : keySteps p <+: keySteps q ↔ p <+: q := by
  constructor
  · rintro ⟨r, hr⟩
    obtain ⟨q₁, q₂, rfl, hp, -⟩ := List.map_eq_append_iff.1 hr.symm
    have : q₁ = p := List.map_injective_iff.2 (fun a b h => Step.key.inj h) hp
    exact this ▸ List.prefix_append _ _
  · exact fun h => h.map Step.key

theorem Apart.keySteps (h : Apart p q) : Apart (keySteps p) (keySteps q) :=
  ⟨fun hp => h.1 (keySteps_isPrefix.1 hp), fun hq => h.2 (keySteps_isPrefix.1 hq)⟩

theorem Apart.symm {p q : List α} (h : Apart p q) : Apart q p :=
  ⟨h.2, h.1⟩

/-- A position below one of two targets apart is apart from the other. -/
theorem Apart.append {p q : List α} (h : Apart p q) (r : List α) : Apart p (q ++ r) := by
  refine ⟨fun hp => ?_, fun hq => h.2 ((List.prefix_append q r).trans hq)⟩
  rcases List.prefix_or_prefix_of_prefix hp (List.prefix_append q r) with hpq | hqp
  · exact h.1 hpq
  · exact h.2 hqp

/-- **The way to a target apart from the written ones is open.** -/
theorem Placed.open (h : Placed writes fields) {keys : List String}
    (hk : ∀ write ∈ writes, Apart write.1 keys) : Open fields keys := by
  -- every position above the target holds an object or nothing
  have habo : ∀ above below, keys = above ++ below → below ≠ [] →
      at? (keySteps above) (.obj fields) = none ∨
        ∃ inner, at? (keySteps above) (.obj fields) = some (.obj inner) := by
    intro above below heq hb
    by_cases hn : above = []
    · exact .inr ⟨fields, by rw [hn]; rfl⟩
    by_cases ha : ∀ write ∈ writes, Apart write.1 above
    · refine .inl (h.apart _ (by simpa [keySteps] using hn) fun write hw => (ha write hw).keySteps)
    · push Not at ha
      obtain ⟨write, hw, hnot⟩ := ha
      have hwk := hk write hw
      have hpre : above <+: write.1 := by
        by_contra hno
        refine hnot ⟨fun hp => hwk.1 ?_, hno⟩
        exact hp.trans (heq ▸ List.prefix_append _ _)
      obtain ⟨rest, hr⟩ := hpre
      have hne : rest ≠ [] := by
        rintro rfl
        rw [List.append_nil] at hr
        exact hwk.1 (by rw [← hr, heq]; exact List.prefix_append _ _)
      exact .inr (h.above write hw above rest hr.symm hne)
  clear hk h
  induction keys generalizing fields with
  | nil => trivial
  | cons part keys ih =>
    cases keys with
    | nil => trivial
    | cons next parts =>
      have hpart := habo [part] (next :: parts) rfl (by simp)
      rw [show keySteps [part] = [.key part] from rfl, at?_key_obj] at hpart
      unfold Open
      split
      · trivial
      · next inner hi =>
        refine ih fun above below heq hb => ?_
        have := habo (part :: above) below (by rw [heq, List.cons_append]) hb
        rwa [show keySteps (part :: above) = .key part :: keySteps above from rfl, at?_key_obj,
          hi, Option.bind_some] at this
      · next v ho hv =>
        rw [hv] at hpart
        rcases hpart with h | ⟨inner, h⟩
        · cases h
        · have ho' : v = .obj inner := Option.some.inj h
          exact ho inner (by rw [ho'])

/-- **One more write** apart from the others. -/
theorem Placed.write (h : Placed writes fields) {write : List String × Json} (hne : write.1 ≠ [])
    (hv : ∀ o ∈ write.2.objects, DistinctKeys o)
    (ha : ∀ other ∈ writes, Apart other.1 write.1) :
    Placed (writes ++ [write]) (writeSegments fields write.2 write.1) := by
  have hf := @at?_writeSegments_apart write.2 fields write.1 (h.open ha)
  constructor
  · intro other ho path
    rcases List.mem_append.1 ho with ho | ho
    · rw [hf _ ((ha other ho).symm.keySteps.append path)]
      exact h.target other ho path
    · rw [List.mem_singleton.1 ho]
      exact at?_writeSegments_self hne path
  · intro other ho above below heq hb
    rcases List.mem_append.1 ho with ho | ho
    · by_cases hpre : above <+: write.1
      · obtain ⟨rest, hr⟩ := hpre
        refine at?_writeSegments_above above rest hr.symm ?_
        rintro rfl
        rw [List.append_nil] at hr
        exact (ha other ho).2 (by rw [heq, ← hr]; exact List.prefix_append _ _)
      · have habo : Apart write.1 above := by
          refine ⟨fun hp => (ha other ho).2 ?_, hpre⟩
          exact hp.trans (heq ▸ List.prefix_append _ _)
        rw [hf _ habo.keySteps]
        exact h.above other ho above below heq hb
    · rw [List.mem_singleton.1 ho] at heq
      exact at?_writeSegments_above above below heq hb
  · intro path hpath hall
    rw [hf path (hall write (by simp))]
    exact h.apart path hpath fun other ho => hall other (by simp [ho])
  · exact distinct_writeSegments hv h.distinct

theorem Placed.empty : Placed [] [] := by
  constructor
  · simp
  · simp
  · intro path hp _
    cases path with
    | nil => exact absurd rfl hp
    | cons step path => cases step <;> rfl
  · simp [Json.objects, Json.objectsOfFields]

/-- **All writes.**  By induction, each one apart from those before it. -/
theorem placed_writeAll (hne : ∀ write ∈ writes, write.1 ≠ [])
    (hv : ∀ write ∈ writes, ∀ o ∈ write.2.objects, DistinctKeys o)
    (ha : writes.Pairwise fun a b => Apart a.1 b.1) : Placed writes (writeAll [] writes) := by
  induction writes using List.reverseRecOn with
  | nil => exact Placed.empty
  | append_singleton writes write ih =>
    obtain ⟨hb, -, hl⟩ := List.pairwise_append.1 ha
    have h := ih (fun w hw => hne w (List.mem_append_left _ hw))
      (fun w hw => hv w (List.mem_append_left _ hw)) hb
    rw [writeAll, List.foldl_append]
    exact h.write (hne write (by simp)) (hv write (by simp)) fun w hw => hl w hw write (by simp)

/-! ### The order of the writes -/

/-- Two positions hold the same as far as one can see without going below. -/
def Heads : Option Json → Option Json → Prop
  | none, none => True
  | some (.obj _), some (.obj _) => True
  | some (.arr items), some (.arr others) => items.length = others.length
  | some v, some w => v = w
  | _, _ => False

theorem Heads.refl (v : Option Json) : Heads v v := by
  rcases v with - | (- | - | - | - | - | -) <;> simp [Heads]

theorem lookup_isSome_iff {key : String} :
    (fields.lookup key).isSome ↔ key ∈ fields.map Prod.fst := by
  simp only [List.lookup_isSome_iff, beq_iff_eq, List.mem_map]
  constructor <;> exact fun ⟨e, he, heq⟩ => ⟨e, he, heq.symm⟩

/-- **Values that look alike at every position are the same.** -/
theorem same_of_heads {a b : Json} (ha : ∀ o ∈ a.objects, DistinctKeys o)
    (hb : ∀ o ∈ b.objects, DistinctKeys o) (h : ∀ path, Heads (at? path a) (at? path b)) :
    same a b = true := by
  induction a using Json.induction generalizing b with
  | null => have := h []; cases b <;> simp_all [at?, Heads, same]
  | bool b => have := h []; cases b <;> simp_all [at?, Heads, same]
  | num n => have := h []; cases b <;> simp_all [at?, Heads, same]
  | str s => have := h []; cases b <;> simp_all [at?, Heads, same]
  | arr items ih =>
    cases b with
    | arr others =>
      have hlen : items.length = others.length := h []
      rw [same, Json.sameItems_iff, List.forall₂_iff_get]
      refine ⟨hlen, fun i hi hi' => ?_⟩
      refine ih _ (List.getElem_mem hi) (Json.forall_objects_arr.1 ha _ (List.getElem_mem hi))
        (Json.forall_objects_arr.1 hb _ (List.getElem_mem hi')) fun path => ?_
      simpa [at?, below?, hi, hi'] using h (.index i :: path)
    | _ =>
      have := h []
      simp [at?, Heads] at this
  | obj fields ih =>
    cases b with
    | obj others =>
      obtain ⟨hkeys, hv⟩ := Json.forall_objects_obj.1 ha
      obtain ⟨hkeys', hv'⟩ := Json.forall_objects_obj.1 hb
      have hl : ∀ key path, Heads ((fields.lookup key).bind (at? path))
          ((others.lookup key).bind (at? path)) := fun key path => h (.key key :: path)
      have hm : ∀ key, key ∈ fields.map Prod.fst ↔ key ∈ others.map Prod.fst := by
        intro key
        have := hl key []
        rw [← lookup_isSome_iff, ← lookup_isSome_iff]
        cases hf : fields.lookup key <;> cases ho : others.lookup key <;> simp_all [Heads, at?]
      have hlen : fields.length = others.length := by
        have hn : (fields.map Prod.fst).Nodup := List.pairwise_map.2 hkeys
        have hn' : (others.map Prod.fst).Nodup := List.pairwise_map.2 hkeys'
        have hle := (List.Nodup.subperm hn fun key hk => (hm key).1 hk).length_le
        have hge := (List.Nodup.subperm hn' fun key hk => (hm key).2 hk).length_le
        simp only [List.length_map] at hle hge
        omega
      refine Json.same_obj_iff.2 ⟨hlen, fun e he => ?_⟩
      have he' := Json.lookup_of_mem hkeys he
      obtain ⟨w, hw⟩ := Option.isSome_iff_exists.1
        (lookup_isSome_iff.2 ((hm e.1).1 (List.mem_map_of_mem he)))
      refine ⟨w, hw, ih e he (hv e he) (hv' _ (Json.mem_of_lookup_eq hw)) fun path => ?_⟩
      have := hl e.1 path
      rwa [he', hw] at this
    | _ =>
      have := h []
      simp [at?, Heads] at this

/-- **The writes determine the object**, whatever their order. -/
theorem Placed.same {others : List (String × Json)}
    (h : Placed writes fields) (h' : Placed writes others) :
    same (.obj fields) (.obj others) = true := by
  refine same_of_heads h.distinct h'.distinct fun path => ?_
  by_cases hn : path = []
  · rw [hn]
    trivial
  by_cases ha : ∀ write ∈ writes, Apart (keySteps write.1) path
  · rw [h.apart path hn ha, h'.apart path hn ha]
    trivial
  · push Not at ha
    obtain ⟨write, hw, hnot⟩ := ha
    by_cases hb : keySteps write.1 <+: path
    · obtain ⟨rest, rfl⟩ := hb
      rw [h.target write hw, h'.target write hw]
      exact Heads.refl _
    · have hp : path <+: keySteps write.1 := by
        by_contra hno
        exact hnot ⟨hb, hno⟩
      obtain ⟨rest, hr⟩ := hp
      obtain ⟨above, below, heq, rfl, rfl⟩ := List.map_eq_append_iff.1 hr.symm
      have hne : below ≠ [] := by
        rintro rfl
        rw [List.append_nil] at heq
        exact hb (heq ▸ List.prefix_refl _)
      obtain ⟨inner, hi⟩ := h.above write hw above below heq hne
      obtain ⟨inner', hi'⟩ := h'.above write hw above below heq hne
      rw [show above.map Step.key = keySteps above from rfl, hi, hi']
      trivial

theorem Placed.perm {others : List (List String × Json)}
    (h : Placed writes fields) (hp : writes.Perm others) : Placed others fields where
  target write hw := h.target write (hp.mem_iff.2 hw)
  above write hw := h.above write (hp.mem_iff.2 hw)
  apart path hpath ha := h.apart path hpath fun write hw => ha write (hp.mem_iff.1 hw)
  distinct := h.distinct

/-! ### Assignments -/

/-- `target[key] = value` with prototypes in view.  Without an own entry of that
name, `__proto__` is the setter of the prototype: `none`. -/
def assignEntry (fields : List (String × Json)) (key : String) (value : Json) :
    Option (List (String × Json)) :=
  if key = "__proto__" ∧ (fields.lookup key).isNone then none else some (setEntry fields key value)

/-- The loop of `writeJsonPointer` as the assignments it makes. -/
def assignSegments (fields : List (String × Json)) (value : Json) :
    List String → Option (List (String × Json))
  | [] => some fields
  | [last] => assignEntry fields last value
  | part :: parts =>
    match fields.lookup part with
    | some (.obj inner) =>
      (assignSegments inner value parts).map fun inner => setEntry fields part (.obj inner)
    | _ =>
      -- `current[part] = {}` comes first, then the writes below it
      (assignEntry fields part (.obj [])).bind fun _ =>
        (assignSegments [] value parts).map fun inner => setEntry fields part (.obj inner)

/-- **No prototype.**  A target without `__proto__` is written by assignments to own
entries alone. -/
theorem assignSegments_eq {value : Json} : ∀ {keys : List String} {fields : List (String × Json)},
    "__proto__" ∉ keys → assignSegments fields value keys = some (writeSegments fields value keys)
  | [], _, _ => rfl
  | [last], fields, h => by
    have hne : last ≠ "__proto__" := fun heq => h (heq ▸ List.mem_singleton_self _)
    simp [assignSegments, assignEntry, hne, writeSegments]
  | part :: next :: parts, fields, h => by
    have hne : part ≠ "__proto__" := fun heq => h (heq ▸ List.mem_cons_self)
    have hr : "__proto__" ∉ next :: parts := fun hm => h (List.mem_cons_of_mem _ hm)
    rw [writeSegments_cons]
    show (match fields.lookup part with
      | some (.obj inner) => _
      | _ => _) = _
    split
    · next inner hi => rw [assignSegments_eq hr, Option.map_some]
    · rw [assignSegments_eq hr]
      simp [assignEntry, hne]

/-! ### The mappings of a node -/

/-- What a mapping writes, and where. -/
def writeOf (outputs : MappingOutputs) (mapping : WorkflowTargetMapping) : List String × Json :=
  (readSegments mapping.targetPointer, (bindingValue outputs mapping.binding).toOption.getD .null)

/-- Targets that can be written, of which none is a prefix of another, with values:
an object for the root. -/
structure Writable (outputs : MappingOutputs) (mappings : List WorkflowTargetMapping) : Prop where
  pointers : ∀ m ∈ mappings, writableTargetPointer m.targetPointer = true
  apart : mappings.Pairwise fun m n =>
    Apart (readSegments m.targetPointer) (readSegments n.targetPointer)
  values : ∀ m ∈ mappings, ∃ v, bindingValue outputs m.binding = .ok v ∧
    (∀ o ∈ v.objects, DistinctKeys o) ∧ (m.targetPointer = "" → v.isRecord = true)

/-- What the mappings produce: every value is read back at its target, in every
order of the mappings the same object comes out, and each mapping on its turn makes
own entries only and leaves what is apart from its target. -/
structure PutGet (outputs : MappingOutputs) (input : Json) (mappings : List WorkflowTargetMapping)
    (fields : List (String × Json)) : Prop where
  produced : applyWorkflowMappings input mappings outputs = .ok (.obj fields)
  get : ∀ m ∈ mappings, ∀ v, bindingValue outputs m.binding = .ok v →
    readJsonPointer (.obj fields) m.targetPointer = some v
  order : ∀ others : List WorkflowTargetMapping, others.Perm mappings →
    ∃ fields', applyWorkflowMappings input others outputs = .ok (.obj fields') ∧
      same (.obj fields) (.obj fields') = true
  frame : ∀ before m after, mappings = before ++ m :: after →
    ∃ target target', applyMappings outputs before [] = .ok target ∧
      applyMappings outputs (before ++ [m]) [] = .ok target' ∧
      (m.targetPointer ≠ "" → assignSegments target (writeOf outputs m).2
        (pointerSegments m.targetPointer) = some target') ∧
      ∀ path, Apart (keySteps (readSegments m.targetPointer)) path →
        at? path (.obj target') = at? path (.obj target)

theorem readSegments_root : readSegments pointer = [] ↔ pointer = "" := by
  unfold readSegments
  split
  · simp_all
  · next h =>
    refine iff_of_false ?_ h
    simp [pointerSegments, List.splitOn_ne_nil]

theorem proto_notMem (h : writableTargetPointer pointer = true) :
    "__proto__" ∉ pointerSegments pointer := by
  unfold writableTargetPointer at h
  rw [Bool.and_eq_true, List.all_eq_true] at h
  intro hm
  have := h.2 _ hm
  simp [forbiddenPointerSegments] at this

theorem pathOf_keySteps : ∀ {keys : List String} {v w : Json},
    at? (keySteps keys) v = some w → pathOf keys v = some (keySteps keys)
  | [], _, _, _ => rfl
  | key :: keys, v, w, h => by
    cases v with
    | obj fields =>
      rw [show keySteps (key :: keys) = .key key :: keySteps keys from rfl, at?_key_obj,
        Option.bind_eq_some_iff] at h
      obtain ⟨inner, hi, hat⟩ := h
      have ih := pathOf_keySteps hat
      simp [pathOf, Json.stepOf, below?, hi, ih, keySteps]
    | _ => simp [keySteps, at?, below?] at h

theorem readJsonPointer_of_at? {v w : Json} (hv : validPointer pointer = true)
    (h : at? (keySteps (readSegments pointer)) v = some w) :
    readJsonPointer v pointer = some w := by
  have hp := pathOf_keySteps h
  unfold readJsonPointer
  unfold readSegments at h hp
  split
  · next hr => simpa [hr, keySteps, at?] using h
  · next hr =>
    rw [if_neg hr] at h hp
    rw [if_neg (by simp [hv]), Json.foldl_child?_eq, hp, Option.bind_some, h]

section

variable {outputs : MappingOutputs} {mappings : List WorkflowTargetMapping}

variable {m : WorkflowTargetMapping}

theorem writeOf_eq {v : Json} (h : bindingValue outputs m.binding = .ok v) :
    writeOf outputs m = (readSegments m.targetPointer, v) := by
  simp [writeOf, h, Except.toOption]

/-- The loop makes the writes of its mappings. -/
theorem applyMappings_eq (mappings : List WorkflowTargetMapping) : ∀ target : List (String × Json),
    (∀ m ∈ mappings, writableTargetPointer m.targetPointer = true ∧ m.targetPointer ≠ "" ∧
      ∃ v, bindingValue outputs m.binding = .ok v) → applyMappings outputs mappings target =
          .ok (writeAll target (mappings.map (writeOf outputs))) := by
  induction mappings with
  | nil => exact fun _ _ => rfl
  | cons m mappings ih =>
    intro target h
    obtain ⟨hw, hr, v, hv⟩ := h m List.mem_cons_self
    have hwri : writeJsonPointer target m.targetPointer v =
        .ok (writeSegments target v (readSegments m.targetPointer)) := by
      simp [writeJsonPointer, hw, hr, readSegments]
    have hrest := ih (writeSegments target v (readSegments m.targetPointer))
      fun n hn => h n (List.mem_cons_of_mem _ hn)
    rw [applyMappings, hv, List.map_cons, writeOf_eq hv]
    show (writeJsonPointer target m.targetPointer v >>= fun t => applyMappings outputs mappings t) = _
    rw [hwri]
    exact hrest

theorem Writable.perm {others : List WorkflowTargetMapping} (h : Writable outputs mappings)
    (hp : others.Perm mappings) : Writable outputs others where
  pointers m hm := h.pointers m (hp.mem_iff.1 hm)
  apart := (hp.pairwise_iff fun ha => ha.symm).2 h.apart
  values m hm := h.values m (hp.mem_iff.1 hm)

/-- A target at the root is the only one. -/
theorem Writable.eq_singleton (h : Writable outputs mappings)
    (hm : m ∈ mappings) (hr : m.targetPointer = "") : mappings = [m] := by
  obtain ⟨before, after, rfl⟩ := List.append_of_mem hm
  have hnil : readSegments m.targetPointer = [] := readSegments_root.2 hr
  obtain ⟨-, hrest, hc⟩ := List.pairwise_append.1 h.apart
  have ha : after = [] := by
    refine List.eq_nil_iff_forall_not_mem.2 fun n hn => ?_
    have := (List.pairwise_cons.1 hrest).1 n hn
    exact this.1 (hnil ▸ List.nil_prefix)
  have hb : before = [] := by
    refine List.eq_nil_iff_forall_not_mem.2 fun n hn => ?_
    have := hc n hn m List.mem_cons_self
    exact this.2 (hnil ▸ List.nil_prefix)
  rw [ha, hb]
  rfl

/-- The writes below the root do what they should. -/
theorem Writable.written (h : Writable outputs mappings)
    (hr : ∀ m ∈ mappings, m.targetPointer ≠ "") :
    applyMappings outputs mappings [] = .ok (writeAll [] (mappings.map (writeOf outputs))) ∧
      Placed (mappings.map (writeOf outputs)) (writeAll [] (mappings.map (writeOf outputs))) := by
  refine ⟨applyMappings_eq mappings [] fun m hm => ?_, placed_writeAll ?_ ?_ ?_⟩
  · obtain ⟨v, hv, -⟩ := h.values m hm
    exact ⟨h.pointers m hm, hr m hm, v, hv⟩
  · intro write hw
    obtain ⟨m, hm, rfl⟩ := List.mem_map.1 hw
    exact fun hn => hr m hm (readSegments_root.1 hn)
  · intro write hw
    obtain ⟨m, hm, rfl⟩ := List.mem_map.1 hw
    obtain ⟨v, hv, hd, -⟩ := h.values m hm
    rw [writeOf_eq hv]
    exact hd
  · exact List.pairwise_map.2 h.apart

theorem Writable.of_append {before : List WorkflowTargetMapping}
    {after : List WorkflowTargetMapping} (h : Writable outputs (before ++ after)) :
    Writable outputs before where
  pointers m hm := h.pointers m (List.mem_append_left _ hm)
  apart := (List.pairwise_append.1 h.apart).1
  values m hm := h.values m (List.mem_append_left _ hm)

theorem applyWorkflowMappings_eq (input : Json) (hne : mappings ≠ [])
    {fields : List (String × Json)} (h : applyMappings outputs mappings [] = .ok fields) :
    applyWorkflowMappings input mappings outputs = .ok (.obj fields) := by
  unfold applyWorkflowMappings
  rw [if_neg (by simpa using hne), h]
  rfl

theorem Writable.putGet_below (h : Writable outputs mappings) (input : Json)
    (hne : mappings ≠ []) (hr : ∀ m ∈ mappings, m.targetPointer ≠ "") :
    PutGet outputs input mappings (writeAll [] (mappings.map (writeOf outputs))) := by
  obtain ⟨ha, hw⟩ := h.written hr
  refine ⟨applyWorkflowMappings_eq input hne ha, fun m hm v hv => ?_, fun others hp => ?_,
    fun before m after heq => ?_⟩
  · have hval : validPointer m.targetPointer = true := by
      have := h.pointers m hm
      rw [writableTargetPointer, Bool.and_eq_true] at this
      exact this.1
    refine readJsonPointer_of_at? hval ?_
    have := hw.target _ (List.mem_map_of_mem hm) []
    rwa [writeOf_eq hv, List.append_nil] at this
  · obtain ⟨ha', hw'⟩ := (h.perm hp).written fun m hm => hr m (hp.mem_iff.1 hm)
    have hne' : others ≠ [] := fun hnil => hne (by simpa [hnil] using hp)
    exact ⟨_, applyWorkflowMappings_eq input hne' ha', hw.same (hw'.perm (hp.map _))⟩
  · subst heq
    have hb : ∀ n ∈ before, n.targetPointer ≠ "" :=
      fun n hn => hr n (List.mem_append_left _ hn)
    have hm : m ∈ before ++ m :: after := List.mem_append_right _ List.mem_cons_self
    have hs : before ++ m :: after = (before ++ [m]) ++ after := by simp
    obtain ⟨happlied₁, hwritten₁⟩ := (h.of_append).written hb
    obtain ⟨happlied₂, -⟩ := ((hs ▸ h).of_append).written fun n hn =>
      hr n (by rw [hs]; exact List.mem_append_left _ hn)
    have hnext : writeAll [] ((before ++ [m]).map (writeOf outputs)) =
        writeSegments (writeAll [] (before.map (writeOf outputs))) (writeOf outputs m).2
          (readSegments m.targetPointer) := by
      rw [List.map_append, writeAll, List.foldl_append]
      rfl
    have hseg : readSegments m.targetPointer = pointerSegments m.targetPointer :=
      if_neg (hr m hm)
    have ho : Open (writeAll [] (before.map (writeOf outputs))) (readSegments m.targetPointer) := by
      refine hwritten₁.open fun write hwri => ?_
      obtain ⟨n, hn, rfl⟩ := List.mem_map.1 hwri
      exact (List.pairwise_append.1 h.apart).2.2 n hn m List.mem_cons_self
    refine ⟨_, _, happlied₁, happlied₂, fun _ => ?_, fun path hpath => ?_⟩
    · rw [hnext, hseg]
      exact assignSegments_eq (proto_notMem (h.pointers m hm))
    · rw [hnext]
      exact at?_writeSegments_apart ho path hpath

theorem Writable.putGet_root (h : Writable outputs [m]) (input : Json)
    (hr : m.targetPointer = "") : ∃ fields, PutGet outputs input [m] fields := by
  obtain ⟨v, hv, hd, hrec⟩ := h.values m List.mem_cons_self
  obtain ⟨fields, rfl⟩ : ∃ fields, v = .obj fields := by
    have := hrec hr
    cases v <;> simp_all [Json.isRecord]
  have ha : applyMappings outputs [m] [] = .ok fields := by
    rw [applyMappings, hv]
    show (writeJsonPointer [] m.targetPointer (.obj fields) >>=
      fun t => applyMappings outputs [] t) = _
    rw [writeJsonPointer, h.pointers m List.mem_cons_self, if_neg (by simp), if_pos hr]
    rfl
  have hpro := applyWorkflowMappings_eq input (by simp) ha
  refine ⟨fields, hpro, fun n hn w hw => ?_, fun others hp => ?_, fun before n after heq => ?_⟩
  · rw [List.mem_singleton.1 hn, hv, Except.ok.injEq] at hw
    rw [List.mem_singleton.1 hn, hr, ← hw]
    rfl
  · rw [List.perm_singleton.1 hp]
    exact ⟨fields, hpro, same_of_heads hd hd fun _ => Heads.refl _⟩
  · obtain rfl : before = [] := by
      cases before with
      | nil => rfl
      | cons b before => simp at heq
    obtain rfl : m = n := by simpa using (List.cons.inj heq).1
    refine ⟨[], fields, rfl, ha, fun hne => absurd hr hne, fun path hpath => ?_⟩
    exact absurd (by rw [readSegments_root.2 hr]; exact List.nil_prefix) hpath.1

/-- **Mappings whose targets can be written and never meet put every value where it
is got**, whatever their order, and touch nothing else. -/
theorem applyWorkflowMappings_put_get (outputs : MappingOutputs) (input : Json)
    (mappings : List WorkflowTargetMapping) (hne : mappings ≠ [])
    (h : Writable outputs mappings) : ∃ fields, PutGet outputs input mappings fields := by
  by_cases hr : ∀ m ∈ mappings, m.targetPointer ≠ ""
  · exact ⟨_, h.putGet_below input hne hr⟩
  · push Not at hr
    obtain ⟨m, hm, hm'⟩ := hr
    obtain rfl := h.eq_singleton hm hm'
    exact h.putGet_root input hm'

theorem applyWorkflowMappings_put_get_pair : ∃ fields, PutGet (fun _ => none) .null
      [⟨"/order/id", .literal (.str "a-1")⟩, ⟨"/order/total~1net", .literal (.num 12)⟩] fields := by
  refine applyWorkflowMappings_put_get _ _ _ (by simp) ⟨?_, ?_, ?_⟩
  · decide +kernel
  · refine List.pairwise_pair.2 ⟨?_, ?_⟩ <;> decide +kernel
  · intro m hm
    simp only [List.mem_cons, List.not_mem_nil, or_false] at hm
    rcases hm with rfl | rfl
    · exact ⟨_, rfl, by decide +kernel, by decide +kernel⟩
    · exact ⟨_, rfl, by decide +kernel, by decide +kernel⟩

/-- A root target without an object is refused, though its pointer is valid and no
other target is there to meet. -/
theorem applyWorkflowMappings_refuses_root : validPointer "" = true ∧
      applyWorkflowMappings .null [⟨"", .literal (.str "a-1")⟩] (fun _ => none) =
        .error "WORKFLOW_MAPPING_TARGET_INVALID" := by
  decide +kernel

end

end Flowdular.Workflows
