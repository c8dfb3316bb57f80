/-
# The order of a module registry

`createModuleRegistry` is the depth-first search of the library on the checked edges of the
modules (`createModuleRegistry_eq_ok`), behind the checks of its two loops over the input.
It succeeds exactly on a composable list of modules, what it leaves is a permutation in
which every module comes behind what it needs, and no other order of the input changes it
(`createModuleRegistry_order`).
-/

import Flowdular.Kernel.ModuleRegistry

namespace Flowdular.Kernel

open Lib Workflows

/-! ### What the loops over the input check -/

section Checks

/-- What `assertModuleCompatibility` accepts. -/
structure Compatible (manifest : ModuleManifest) : Prop where
  version : (parseVersion manifest.version.toList).isSome
  platform : ∃ platformApi, manifest.platformApi = some platformApi ∧
    isValidRange platformApi = true ∧
    satisfiesModuleVersion PLATFORM_API_VERSION platformApi = true ∧
    assertPlatformLine manifest.id platformApi PLATFORM_API_VERSION = .ok ()
  ranges : ∀ d ∈ manifest.dependencies,
    trimChars d.range.toList ≠ [] ∧ isValidRange d.range = true
  once : (manifest.dependencies.map (·.id)).Nodup

theorem assertRanges_eq_ok {moduleId : String} : ∀ {ids : List String} {ds : List ModuleDependency},
    assertRanges moduleId ids ds = .ok () ↔
      (∀ d ∈ ds, trimChars d.range.toList ≠ [] ∧ isValidRange d.range = true) ∧
        (∀ d ∈ ds, d.id ∉ ids) ∧ (ds.map (·.id)).Nodup
  | ids, [] => by simp [assertRanges]
  | ids, d :: ds => by
      rw [assertRanges]
      split_ifs with hran hm
      · constructor
        · intro h
          cases h
        · rintro ⟨h, -, -⟩
          have := h d List.mem_cons_self
          rcases hran with hb | hinv
          · exact absurd hb this.1
          · rw [hinv] at this
            exact absurd this.2 (by simp)
      · constructor
        · intro h
          cases h
        · rintro ⟨-, h, -⟩
          exact absurd hm (h d List.mem_cons_self)
      · rw [assertRanges_eq_ok]
        have hd : trimChars d.range.toList ≠ [] ∧ isValidRange d.range = true := by
          simpa [not_or] using hran
        rw [List.forall_mem_cons, List.forall_mem_cons, List.map_cons, List.nodup_cons]
        simp only [List.mem_cons, not_or, List.mem_map, not_exists, not_and]
        constructor
        · rintro ⟨hr, hi, hn⟩
          exact ⟨⟨hd, hr⟩, ⟨hm, fun x hx => (hi x hx).2⟩, fun x hx => (hi x hx).1, hn⟩
        · rintro ⟨⟨-, hr⟩, ⟨-, hi⟩, hf, hn⟩
          exact ⟨hr, fun x hx => ⟨hf x hx, hi x hx⟩, hn⟩

/-- **Which manifests are compatible.** -/
theorem assertModuleCompatibility_eq_ok {manifest : ModuleManifest} :
    assertModuleCompatibility manifest = .ok () ↔ Compatible manifest := by
  rw [assertModuleCompatibility]
  constructor
  · intro h
    split_ifs at h with hv
    cases hp : manifest.platformApi with
    | none => rw [hp] at h; cases h
    | some platformApi =>
      rw [hp] at h
      dsimp only at h
      split_ifs at h with hran
      cases hl : assertPlatformLine manifest.id platformApi PLATFORM_API_VERSION with
      | error e => rw [hl] at h; cases h
      | ok u =>
        rw [hl] at h
        obtain ⟨hr, -, ho⟩ := assertRanges_eq_ok.1 h
        rw [not_or, Bool.not_eq_false, Bool.not_eq_false] at hran
        exact ⟨Option.isSome_iff_ne_none.2 hv, ⟨platformApi, hp, hran.1, hran.2, hl⟩, hr, ho⟩
  · rintro ⟨hv, ⟨platformApi, hp, hval, hs, hl⟩, hr, ho⟩
    rw [if_neg (Option.isSome_iff_ne_none.1 hv), hp]
    dsimp only
    rw [if_neg (by simp [hval, hs]), hl]
    exact assertRanges_eq_ok.2 ⟨hr, fun _ _ => List.not_mem_nil, ho⟩

theorem registerNavigation_eq_ok : ∀ {items : List NavigationContribution} {ids ids' : List String},
    registerNavigation items ids = .ok ids' ↔
      ids' = ids ++ items.map (·.id) ∧ (∀ x ∈ items, x.id ∉ ids) ∧ (items.map (·.id)).Nodup
  | [], ids, ids' => by simp [registerNavigation, eq_comm]
  | item :: rest, ids, ids' => by
      rw [registerNavigation]
      split_ifs with hm
      · constructor
        · intro h
          cases h
        · rintro ⟨-, h, -⟩
          exact absurd hm (h item List.mem_cons_self)
      · rw [registerNavigation_eq_ok]
        simp only [List.map_cons, List.append_assoc, List.singleton_append, List.mem_append,
          List.mem_singleton, not_or, List.forall_mem_cons, List.nodup_cons, List.mem_map,
          not_exists, not_and]
        constructor
        · rintro ⟨heq, hi, hn⟩
          exact ⟨heq, ⟨hm, fun x hx => (hi x hx).1⟩, fun x hx => (hi x hx).2, hn⟩
        · rintro ⟨heq, ⟨-, hi⟩, hf, hn⟩
          exact ⟨heq, fun x hx => ⟨hi x hx, hf x hx⟩, hn⟩

/-- The identifiers of the contributions of some modules. -/
def navigationIds (input : List RegisteredModule) : List String :=
  input.flatMap fun m => m.navigation.map (·.id)

/-- **What the loop over the input accepts**, behind modules and contributions registered
before. -/
theorem register_eq_ok : ∀ {input byId byId' : List RegisteredModule} {ids : List String},
    (byId.map (·.id)).Nodup → ids.Nodup →
    (register input byId ids = .ok byId' ↔
      byId' = byId ++ input ∧ (∀ m ∈ input, Compatible m.manifest) ∧
        ((byId ++ input).map (·.id)).Nodup ∧ (ids ++ navigationIds input).Nodup)
  | [], byId, byId', ids, hbyId, hids => by
      simp only [register, Except.ok.injEq, List.append_nil, List.not_mem_nil, false_implies,
        implies_true, navigationIds, List.flatMap_nil, hbyId, hids, and_true]
      exact eq_comm
  | m :: rest, byId, byId', ids, hbyId, hids => by
      rw [register]
      cases hc : assertModuleCompatibility m.manifest with
      | error e =>
        constructor
        · intro h
          cases h
        · rintro ⟨-, h, -⟩
          rw [assertModuleCompatibility_eq_ok.2 (h m List.mem_cons_self)] at hc
          cases hc
      | ok u =>
        have hm : Compatible m.manifest := assertModuleCompatibility_eq_ok.1 hc
        dsimp only
        split_ifs with hk
        · constructor
          · intro h
            cases h
          · rintro ⟨-, -, h, -⟩
            obtain ⟨other, ho, heq⟩ := List.any_eq_true.1 hk
            rw [List.map_append, List.nodup_append] at h
            exact absurd (of_decide_eq_true heq)
              (h.2.2 other.id (List.mem_map_of_mem ho) m.id (by simp))
        · have hf : m.id ∉ byId.map (·.id) := by
            intro hmem
            obtain ⟨other, ho, heq⟩ := List.mem_map.1 hmem
            exact hk (List.any_eq_true.2 ⟨other, ho, decide_eq_true heq⟩)
          cases hn : registerNavigation m.navigation ids with
          | error e =>
            constructor
            · intro h
              cases h
            · rintro ⟨-, -, -, h⟩
              rw [navigationIds, List.flatMap_cons, ← List.append_assoc] at h
              have hnod := (List.nodup_append.1 h).1
              rw [List.nodup_append] at hnod
              rw [registerNavigation_eq_ok.2 ⟨rfl, fun x hx hmem =>
                hnod.2.2 x.id hmem x.id (List.mem_map_of_mem hx) rfl, hnod.2.1⟩] at hn
              cases hn
          | ok ids' =>
            obtain ⟨rfl, ha, hown⟩ := registerNavigation_eq_ok.1 hn
            have hbyId' : ((byId ++ [m]).map (·.id)).Nodup := by
              rw [List.map_append, List.nodup_append]
              refine ⟨hbyId, by simp, ?_⟩
              rintro x hx y hy rfl
              rw [List.map_singleton, List.mem_singleton] at hy
              exact hf (hy ▸ hx)
            have hids' : (ids ++ m.navigation.map (·.id)).Nodup := by
              rw [List.nodup_append]
              refine ⟨hids, hown, ?_⟩
              rintro x hx y hy rfl
              obtain ⟨item, hi, rfl⟩ := List.mem_map.1 hy
              exact ha item hi hx
            dsimp only
            rw [register_eq_ok hbyId' hids']
            simp only [List.append_assoc, List.singleton_append, List.forall_mem_cons, hm, true_and,
              navigationIds, List.flatMap_cons]

end Checks

/-! ### Who provides a capability -/

section Providers

/-- A module of the list provides a capability. -/
def Provides (input : List RegisteredModule) (capability id : String) : Prop :=
  ∃ m ∈ input, m.id = id ∧ capability ∈ m.manifest.provides

/-- No capability has two providers. -/
def OneProvider (input : List RegisteredModule) : Prop :=
  ∀ c p p', Provides input c p → Provides input c p' → p = p'

/-- A map of providers that has exactly some pairs. -/
def Lists (providers : List (String × String)) (pair : String → String → Prop) : Prop :=
  ∀ c p, providers.lookup c = some p ↔ pair c p

theorem RegisteredModule.id_ne_empty (m : RegisteredModule) : m.id ≠ "" := by
  intro h
  have := m.manifest.identifier
  rw [show m.manifest.id = "" from h] at this
  exact absurd this (by decide +kernel)

theorem lists_nil : Lists [] fun _ _ => False := by
  simp [Lists]

variable {providers : List (String × String)} {input : List RegisteredModule}

theorem Lists.unique {pair : String → String → Prop}
    (h : Lists providers pair) {c p p' : String} (hp : pair c p) (hp' : pair c p') : p = p' := by
  have hl := (h c p).2 hp
  rw [(h c p').2 hp'] at hl
  exact (Option.some.inj hl).symm

theorem Lists.cons {pair : String → String → Prop}
    (h : Lists providers pair) {capability id : String}
    (ho : ∀ p, pair capability p → p = id) :
    Lists ((capability, id) :: providers) fun c p => pair c p ∨ c = capability ∧ p = id := by
  intro c p
  rw [List.lookup_cons]
  by_cases hc : c = capability
  · subst hc
    rw [BEq.rfl]
    constructor
    · intro heq
      exact .inr ⟨rfl, (Option.some.inj heq).symm⟩
    · rintro (hp | ⟨-, rfl⟩)
      · rw [ho p hp]
      · rfl
  · rw [beq_eq_false_iff_ne.2 hc, h c p]
    simp [hc]

/-- **What one module provides** goes into the map, unless another module provides it. -/
theorem provideAll_cases {id : String} : ∀ (capabilities : List String)
    {providers : List (String × String)} {pair : String → String → Prop}, Lists providers pair →
    (∀ c p, pair c p → p ≠ "") → id ≠ "" →
    (∃ providers', provideAll id capabilities providers = .ok providers' ∧
      Lists providers' fun c p => pair c p ∨ c ∈ capabilities ∧ p = id) ∨
    (∃ e, provideAll id capabilities providers = .error e) ∧
      ∃ c ∈ capabilities, ∃ p, pair c p ∧ p ≠ id
  | [], providers, pair, h, _, _ => .inl ⟨providers, rfl, by simpa using h⟩
  | capability :: rest, providers, pair, h, hn, hid => by
      have hs (hown : ∀ p, pair capability p → p = id) :
          (∃ providers', provideAll id rest ((capability, id) :: providers) = .ok providers' ∧
            Lists providers' fun c p => pair c p ∨ c ∈ capability :: rest ∧ p = id) ∨
          (∃ e, provideAll id rest ((capability, id) :: providers) = .error e) ∧
            ∃ c ∈ capability :: rest, ∃ p, pair c p ∧ p ≠ id := by
        rcases provideAll_cases rest (h.cons hown) (by
          rintro c p (hpair | ⟨-, rfl⟩)
          · exact hn c p hpair
          · exact hid) hid with ⟨providers', hok, hlis⟩ | ⟨herr, c, hc, p, hp, hne⟩
        · refine .inl ⟨providers', hok, fun c p => (hlis c p).trans ?_⟩
          dsimp only
          rw [List.mem_cons, or_and_right, or_assoc]
        · exact .inr ⟨herr, c, List.mem_cons_of_mem _ hc, p,
            hp.resolve_right fun hnew => hne hnew.2, hne⟩
      rw [provideAll]
      cases hl : providers.lookup capability with
      | none =>
        refine hs fun p hp => ?_
        rw [(h capability p).2 hp] at hl
        cases hl
      | some existing =>
        have he : pair capability existing := (h capability existing).1 hl
        dsimp only
        split_ifs with ho
        · exact .inr ⟨⟨_, rfl⟩, capability, List.mem_cons_self, existing, he, ho.2⟩
        · refine hs fun p hp => ?_
          rw [(h capability p).2 hp] at hl
          rw [Option.some.inj hl]
          by_contra hne
          exact ho ⟨hn capability existing he, hne⟩

/-- The pairs of a list of modules, behind those of a map. -/
theorem foldlM_provideAll_cases : ∀ (input : List RegisteredModule)
    {providers : List (String × String)} {pair : String → String → Prop}, Lists providers pair →
    (∀ c p, pair c p → p ≠ "") →
    (∃ providers', input.foldlM (fun providers m => provideAll m.id m.manifest.provides providers)
        providers = .ok providers' ∧ Lists providers' fun c p => pair c p ∨ Provides input c p) ∨
    (∃ e, input.foldlM (fun providers m => provideAll m.id m.manifest.provides providers)
        providers = .error e) ∧
      ∃ c p p', (pair c p ∨ Provides input c p) ∧ Provides input c p' ∧ p ≠ p'
  | [], providers, pair, h, _ => .inl ⟨providers, rfl, by simpa [Provides] using h⟩
  | m :: rest, providers, pair, h, hn => by
      have hcons : ∀ c p, Provides (m :: rest) c p ↔
          (c ∈ m.manifest.provides ∧ p = m.id) ∨ Provides rest c p := by
        intro c p
        simp only [Provides, List.exists_mem_cons_iff]
        rw [and_comm, eq_comm]
      rw [List.foldlM_cons]
      rcases provideAll_cases m.manifest.provides h hn
        m.id_ne_empty with ⟨mid, hm, hl⟩ | ⟨⟨e, he⟩, c, hc, p, hp, hne⟩
      · rw [hm]
        rcases foldlM_provideAll_cases rest hl (by
          rintro c p (hpair | ⟨-, rfl⟩)
          · exact hn c p hpair
          · exact m.id_ne_empty) with ⟨providers', hok, hl'⟩ | ⟨he, c, p, p', hp, hp', hne⟩
        · refine .inl ⟨providers', hok, fun c p => (hl' c p).trans ?_⟩
          dsimp only
          rw [hcons, or_assoc]
        · refine .inr ⟨he, c, p, p', ?_, (hcons c p').2 (.inr hp'), hne⟩
          rw [hcons, ← or_assoc]
          exact hp
      · rw [he]
        exact .inr ⟨⟨e, rfl⟩, c, p, m.id, .inl hp, (hcons c m.id).2 (.inl ⟨hc, rfl⟩), hne⟩

/-- **The map of providers** has who provides what, and there is one unless a capability has
two providers. -/
theorem capabilityProviders_ok
    (h : capabilityProviders input = .ok providers) : Lists providers (Provides input) := by
  rcases foldlM_provideAll_cases input lists_nil (fun _ _ => False.elim) with ⟨providers', hok, hl⟩ | ⟨⟨e, he⟩, -⟩
  · rw [capabilityProviders, hok] at h
    rw [← Except.ok.inj h]
    simpa using hl
  · rw [capabilityProviders, he] at h
    cases h

theorem exists_capabilityProviders_iff :
    (∃ providers, capabilityProviders input = .ok providers) ↔ OneProvider input := by
  constructor
  · rintro ⟨providers, h⟩ c p p' hp hp'
    exact (capabilityProviders_ok h).unique hp hp'
  · intro ho
    rcases foldlM_provideAll_cases input lists_nil (fun _ _ => False.elim) with ⟨providers, hok, -⟩ | ⟨-, c, p, p', hp, hp', hne⟩
    · exact ⟨providers, hok⟩
    · exact absurd (ho c p p' (hp.resolve_left id) hp') hne

end Providers

/-! ### The search -/

section Search

variable [Host]

/-- The checked edges of a module: to its dependencies, then to the providers of what it
requires, both sorted by identifier. -/
def targets (modules : List RegisteredModule) (providers : List (String × String)) (id : String) :
    List (Except String String) :=
  match getModule modules id with
  | none => [.error (registryError "MODULE_NOT_FOUND" s!"Module \"{id}\" is not registered.")]
  | some current =>
    (sortByLocale (·.id) current.manifest.dependencies).map (dependencyTarget modules id) ++
      (sortByLocale (·.id) current.manifest.requires).filterMap (requirementTarget providers id)

/-- What `visitModule` works on, from the identifiers it is in and those it is done with. -/
def walkOf (modules : List RegisteredModule) (visiting visited : List String) : Walk where
  visiting := visiting
  visited := visited
  ordered := visited.filterMap (getModule modules)

omit [Host] in
/-- A loop over items with a target each follows those targets. -/
theorem foldlM_eq_follow {β : Type} {modules : List RegisteredModule} (path : List String)
    (step : Walk → β → Except String Walk) (target : β → Option (Except String String))
    (visit : String → List String → Except String (List String))
    (hs : ∀ item done, step (walkOf modules path done) item = match target item with
      | none => .ok (walkOf modules path done)
      | some (.error e) => .error e
      | some (.ok b) => (visit b done).map (walkOf modules path)) :
    ∀ (items : List β) (done : List String), items.foldlM step (walkOf modules path done) =
      (Dfs.follow visit (items.filterMap target) done).map (walkOf modules path)
  | [], done => rfl
  | item :: rest, done => by
      have ih := foldlM_eq_follow path step target visit hs rest
      rw [List.foldlM_cons, hs, List.filterMap_cons]
      cases target item with
      | none => exact ih done
      | some edge =>
        cases edge with
        | error e => rfl
        | ok b =>
          dsimp only
          rw [Dfs.follow]
          cases visit b done with
          | error e => rfl
          | ok done => exact ih done

/-- **The search behind `visitModule`.** -/
theorem visitModule_eq (modules : List RegisteredModule) (providers : List (String × String)) :
    ∀ (n : ℕ) (path : List String) (id : String) (done : List String),
      visitModule modules providers n id (walkOf modules path done) =
        (Dfs.visit (targets modules providers) cycleAt "RangeError" n path id done).map
          (walkOf modules path)
  | 0, path, id, done => rfl
  | n + 1, path, id, done => by
      have ih := visitModule_eq modules providers n
      rw [visitModule, Dfs.visit]
      show (if id ∈ done then _ else if id ∈ path then _ else _) = _
      split_ifs with hd hp
      · rfl
      · rfl
      · rw [targets]
        cases hm : getModule modules id with
        | none => rfl
        | some current =>
          dsimp only
          have hdep := foldlM_eq_follow (id :: path)
            (visitDependency modules (visitModule modules providers n) id)
            (some ∘ dependencyTarget modules id)
            (Dfs.visit (targets modules providers) cycleAt "RangeError" n (id :: path))
            (fun dependency done => by
              rw [visitDependency, Function.comp_apply]
              cases dependencyTarget modules id dependency with
              | error e => rfl
              | ok target => exact ih (id :: path) target done)
          have hr := foldlM_eq_follow (id :: path)
            (visitRequirement providers (visitModule modules providers n) id)
            (requirementTarget providers id)
            (Dfs.visit (targets modules providers) cycleAt "RangeError" n (id :: path))
            (fun requirement done => by
              rw [visitRequirement]
              rcases requirementTarget providers id requirement with _ | (e | provider)
              · rfl
              · rfl
              · exact ih (id :: path) provider done)
          rw [Dfs.follow_append, ← List.filterMap_eq_map]
          show ((List.foldlM _ (walkOf modules (id :: path) done) _ : Except String Walk) >>= _) = _
          rw [hdep]
          cases Dfs.follow (Dfs.visit (targets modules providers) cycleAt "RangeError" n (id :: path))
              ((sortByLocale (·.id) current.manifest.dependencies).filterMap
                (some ∘ dependencyTarget modules id)) done with
          | error e => rfl
          | ok mid =>
            show ((List.foldlM _ (walkOf modules (id :: path) mid) _ : Except String Walk) >>= _) = _
            rw [hr]
            dsimp only
            cases Dfs.follow (Dfs.visit (targets modules providers) cycleAt "RangeError" n (id :: path))
                ((sortByLocale (·.id) current.manifest.requires).filterMap
                  (requirementTarget providers id)) mid with
            | error e => rfl
            | ok last =>
              show Except.ok _ = Except.ok _
              rw [walkOf, walkOf, List.filterMap_append, List.erase_cons_head]
              simp [hm]

/-- **What a registry is made of**: the checks of the two loops, and the search. -/
theorem createModuleRegistry_eq_ok {input ordered : List RegisteredModule} :
    createModuleRegistry input = .ok ordered ↔
      (∀ m ∈ input, Compatible m.manifest) ∧ (input.map (·.id)).Nodup ∧ (navigationIds input).Nodup ∧
        ∃ providers, capabilityProviders input = .ok providers ∧ ∃ order,
          Dfs.run (targets input providers) cycleAt "RangeError" (input.length + 1)
            ((sortByLocale (·.id) input).map (·.id)) = .ok order ∧
          ordered = order.filterMap (getModule input) := by
  have hs (providers : List (String × String)) := foldlM_eq_follow []
    (fun walk (m : RegisteredModule) => visitModule input providers (input.length + 1) m.id walk)
    (some ∘ fun m => .ok m.id)
    (Dfs.visit (targets input providers) cycleAt "RangeError" (input.length + 1) [])
    (fun m done => visitModule_eq input providers (input.length + 1) [] m.id done) (sortByLocale (·.id) input) []
  have hr (byId' : List RegisteredModule) :=
    @register_eq_ok input [] byId' [] List.nodup_nil List.nodup_nil
  simp only [List.nil_append] at hr
  rw [createModuleRegistry]
  cases hbyId : register input [] [] with
  | error e =>
    constructor
    · intro h
      cases h
    · rintro ⟨hc, hu, hn, -⟩
      rw [(hr input).2 ⟨rfl, hc, hu, hn⟩] at hbyId
      cases hbyId
  | ok byId =>
    obtain ⟨rfl, hc, hu, hn⟩ := (hr byId).1 hbyId
    show (capabilityProviders byId >>= _) = _ ↔ _
    cases hp : capabilityProviders byId with
    | error e =>
      constructor
      · intro h
        cases h
      · rintro ⟨-, -, -, providers, h, -⟩
        cases h
    | ok providers =>
      show ((List.foldlM _ (walkOf byId [] []) _ : Except String Walk) >>= _) = _ ↔ _
      have hrun : Dfs.follow (Dfs.visit (targets byId providers) cycleAt "RangeError" (byId.length + 1) [])
          ((sortByLocale (·.id) byId).filterMap (some ∘ fun m => .ok m.id)) [] =
          Dfs.run (targets byId providers) cycleAt "RangeError" (byId.length + 1)
            ((sortByLocale (·.id) byId).map (·.id)) := by
        rw [Dfs.run, List.filterMap_eq_map, List.map_map]
        rfl
      rw [hs, hrun]
      constructor
      · intro h
        refine ⟨hc, hu, hn, providers, rfl, ?_⟩
        cases ho : Dfs.run (targets byId providers) cycleAt "RangeError" (byId.length + 1)
            ((sortByLocale (·.id) byId).map (·.id)) with
        | error e => rw [ho] at h; cases h
        | ok order =>
          rw [ho] at h
          exact ⟨order, rfl, (Except.ok.inj h).symm⟩
      · rintro ⟨-, -, -, providers', hp', order, ho, rfl⟩
        obtain rfl := Except.ok.inj hp'
        rw [ho]
        rfl

end Search

/-! ### Composable modules -/

section Composable

/-- A dependency is there at a version in its range. -/
def Available (input : List RegisteredModule) (d : ModuleDependency) : Prop :=
  ∃ t ∈ input, t.id = d.id ∧ satisfiesModuleVersion t.manifest.version d.range = true

/-- A module of the list needs another: as a dependency, or as the provider of a capability
it requires; what it provides itself it does not need. -/
def Needs (input : List RegisteredModule) (id id' : String) : Prop :=
  ∃ m ∈ input, m.id = id ∧ ((∃ d ∈ m.manifest.dependencies, d.id = id') ∨
      ∃ r ∈ m.manifest.requires, r.optional = false ∧ Provides input r.id id' ∧ id' ≠ id)

/-- What a list of modules must be for a registry of them. -/
structure Composable (input : List RegisteredModule) : Prop where
  compatible : ∀ m ∈ input, Compatible m.manifest
  unique : (input.map (·.id)).Nodup
  navigation : (navigationIds input).Nodup
  provider : OneProvider input
  dependencies : ∀ m ∈ input, ∀ d ∈ m.manifest.dependencies, Available input d
  capabilities : ∀ m ∈ input, ∀ r ∈ m.manifest.requires, r.optional = false → ∃ p, Provides input r.id p
  acyclic : ∀ id, ¬ Relation.TransGen (Needs input) id id

variable {input : List RegisteredModule}

theorem getModule_eq_some (hu : (input.map (·.id)).Nodup) {id : String} {m : RegisteredModule} :
    getModule input id = some m ↔ m ∈ input ∧ m.id = id := by
  have hf : ∀ {m}, getModule input id = some m → m ∈ input ∧ m.id = id := fun {m} h =>
    ⟨List.mem_of_find?_eq_some h, by
      simpa using @List.find?_some _ (fun m : RegisteredModule => m.id = id) _ _ h⟩
  constructor
  · exact hf
  · rintro ⟨hm, hid⟩
    cases h : getModule input id with
    | none => exact absurd hid (by simpa using List.find?_eq_none.1 h m hm)
    | some m' =>
      obtain ⟨hm', hid'⟩ := hf h
      rw [List.inj_on_of_nodup_map hu hm' hm (hid'.trans hid.symm)]

theorem filterMap_getModule (hu : (input.map (·.id)).Nodup) :
    ∀ {ms : List RegisteredModule}, (∀ m ∈ ms, m ∈ input) → (ms.map (·.id)).filterMap (getModule input) = ms
  | [], _ => rfl
  | m :: ms, h => by
      have hm : getModule input m.id = some m :=
        (getModule_eq_some hu).2 ⟨h m List.mem_cons_self, rfl⟩
      rw [List.map_cons, List.filterMap_cons, hm,
        filterMap_getModule hu fun m hm => h m (List.mem_cons_of_mem _ hm)]

theorem dependencyTarget_eq_ok (hu : (input.map (·.id)).Nodup) (id b : String)
    (d : ModuleDependency) :
    dependencyTarget input id d = .ok b ↔ d.id = b ∧ Available input d := by
  rw [dependencyTarget]
  cases hg : getModule input d.id with
  | none =>
    constructor
    · intro h
      cases h
    · rintro ⟨-, t, ht, hid, -⟩
      rw [(getModule_eq_some hu).2 ⟨ht, hid⟩] at hg
      cases hg
  | some target =>
    obtain ⟨htar, hid⟩ := (getModule_eq_some hu).1 hg
    dsimp only
    rw [assertModuleDependency]
    by_cases hs : satisfiesModuleVersion target.manifest.version d.range = false
    · rw [if_pos hs]
      constructor
      · intro h
        cases h
      · rintro ⟨-, t, ht, hid', h⟩
        rw [List.inj_on_of_nodup_map hu ht htar (hid'.trans hid.symm), hs] at h
        cases h
    · rw [if_neg hs]
      constructor
      · intro h
        exact ⟨Except.ok.inj h, target, htar, hid, by simpa using hs⟩
      · rintro ⟨rfl, -⟩
        rfl

theorem dependencyTarget_sound (hu : (input.map (·.id)).Nodup) (id : String)
    (d : ModuleDependency) : (∀ e, dependencyTarget input id d ≠ .error e) ↔ Available input d := by
  have hok := fun b => dependencyTarget_eq_ok hu id b d
  cases ht : dependencyTarget input id d with
  | error e =>
    refine ⟨fun h => absurd rfl (h e), fun h => ?_⟩
    rw [(hok d.id).2 ⟨rfl, h⟩] at ht
    cases ht
  | ok b => exact ⟨fun _ => ((hok b).1 ht).2, fun _ e h => nomatch h⟩

variable {providers : List (String × String)}

/-- What a requirement comes to: nothing where it is optional or the module's own, a failure
where nobody provides it. -/
theorem requirementTarget_cases (h : Lists providers (Provides input)) (id : String)
    (r : ModuleCapabilityRequirement) :
    (r.optional = true ∨ Provides input r.id id) ∧ requirementTarget providers id r = none ∨
    r.optional = false ∧ (¬ ∃ p, Provides input r.id p) ∧
      (∃ e, requirementTarget providers id r = some (.error e)) ∨
    r.optional = false ∧ ∃ p, Provides input r.id p ∧ p ≠ id ∧
      requirementTarget providers id r = some (.ok p) := by
  rw [requirementTarget]
  cases ho : r.optional with
  | true => exact .inl ⟨.inl rfl, rfl⟩
  | false =>
    cases hl : providers.lookup r.id with
    | none =>
      refine .inr (.inl ⟨rfl, ?_, _, rfl⟩)
      rintro ⟨p, hp⟩
      rw [(h r.id p).2 hp] at hl
      cases hl
    | some p =>
      have hp : Provides input r.id p := (h r.id p).1 hl
      have hne : p ≠ "" := by
        obtain ⟨m, -, rfl, -⟩ := hp
        exact m.id_ne_empty
      have hf : (some p).filter (· ≠ "") = some p := by simp [hne]
      rw [hf]
      by_cases hown : p = id
      · exact .inl ⟨.inr (hown ▸ hp), if_pos hown⟩
      · exact .inr (.inr ⟨rfl, p, hp, hown, if_neg hown⟩)

variable {input' : List RegisteredModule}

theorem provides_perm (hp : input'.Perm input) : Provides input' = Provides input := by
  funext c p
  simp only [Provides, hp.mem_iff]

theorem needs_perm (hp : input'.Perm input) : Needs input' = Needs input := by
  funext id id'
  simp only [Needs, hp.mem_iff, provides_perm hp]

/-- Being composable does not depend on the order. -/
theorem Composable.perm (h : Composable input) (hp : input'.Perm input) : Composable input' where
  compatible m hm := h.compatible m (hp.mem_iff.1 hm)
  unique := (hp.map _).nodup_iff.2 h.unique
  navigation := (hp.flatMap_right _).nodup_iff.2 h.navigation
  provider := by
    rw [OneProvider, provides_perm hp]
    exact h.provider
  dependencies m hm d hd := by
    simp only [Available, hp.mem_iff]
    exact h.dependencies m (hp.mem_iff.1 hm) d hd
  capabilities m hm := by
    rw [provides_perm hp]
    exact h.capabilities m (hp.mem_iff.1 hm)
  acyclic := by
    rw [needs_perm hp]
    exact h.acyclic

section Edges

variable [Host]

theorem mem_sortByLocale {α : Type} {key : α → String} {items : List α} {a : α} :
    a ∈ sortByLocale key items ↔ a ∈ items :=
  (List.perm_insertionSort _ items).mem_iff

variable {m : RegisteredModule} {b id : String} {ordered input' : List RegisteredModule}

theorem mem_targets (hu : (input.map (·.id)).Nodup) (hm : m ∈ input)
    {edge : Except String String} : edge ∈ targets input providers m.id ↔
      (∃ d ∈ m.manifest.dependencies, dependencyTarget input m.id d = edge) ∨
        ∃ r ∈ m.manifest.requires, requirementTarget providers m.id r = some edge := by
  rw [targets, (getModule_eq_some hu).2 ⟨hm, rfl⟩]
  simp only [List.mem_append, List.mem_map, List.mem_filterMap, mem_sortByLocale]

/-- **The edges of the search** are the needs that are met. -/
theorem edge_iff (hu : (input.map (·.id)).Nodup) (h : Lists providers (Provides input))
    (hm : m ∈ input) :
    Dfs.Edge (targets input providers) m.id b ↔
      (∃ d ∈ m.manifest.dependencies, d.id = b ∧ Available input d) ∨
        ∃ r ∈ m.manifest.requires, r.optional = false ∧ Provides input r.id b ∧ b ≠ m.id := by
  rw [Dfs.Edge, mem_targets hu hm]
  refine or_congr ?_ ?_
  · simp only [dependencyTarget_eq_ok hu]
  · refine exists_congr fun r => and_congr_right fun _ => ?_
    rcases requirementTarget_cases h m.id r with ⟨hf, ht⟩ | ⟨hr, hn, e, ht⟩ | ⟨hr, p, hp, hne, ht⟩
    · rw [ht]
      refine ⟨(fun h => by cases h), ?_⟩
      rintro ⟨hr, hb, hne⟩
      rcases hf with ho | hown
      · rw [hr] at ho
        cases ho
      · exact absurd (h.unique hb hown) hne
    · rw [ht]
      refine ⟨(fun h => by cases h), ?_⟩
      rintro ⟨-, hb, -⟩
      exact absurd ⟨b, hb⟩ hn
    · rw [ht]
      constructor
      · intro heq
        obtain rfl := Except.ok.inj (Option.some.inj heq)
        exact ⟨hr, hp, hne⟩
      · rintro ⟨-, hb, -⟩
        rw [h.unique hp hb]

/-- **The edges of a module hold up** where its needs are met. -/
theorem sound_iff (hu : (input.map (·.id)).Nodup) (h : Lists providers (Provides input))
    (hm : m ∈ input) :
    Dfs.Sound (targets input providers) m.id ↔
      (∀ d ∈ m.manifest.dependencies, Available input d) ∧
        ∀ r ∈ m.manifest.requires, r.optional = false → ∃ p, Provides input r.id p := by
  have hreq : ∀ r, (∀ e, requirementTarget providers m.id r ≠ some (.error e)) ↔
      (r.optional = false → ∃ p, Provides input r.id p) := by
    intro r
    rcases requirementTarget_cases h m.id r with ⟨hf, ht⟩ | ⟨hrequired, hn, e, ht⟩ |
      ⟨hrequired, p, hp, -, ht⟩
    · refine ⟨fun _ hrequired => ?_, fun _ e heq => by rw [ht] at heq; cases heq⟩
      rcases hf with ho | hown
      · rw [hrequired] at ho
        cases ho
      · exact ⟨m.id, hown⟩
    · exact ⟨fun ha => absurd ht (ha e), fun hs => absurd (hs hrequired) hn⟩
    · exact ⟨fun _ _ => ⟨p, hp⟩, fun _ e heq => by rw [ht] at heq; cases heq⟩
  simp only [Dfs.Sound, mem_targets hu hm, not_or, not_exists, not_and, ← hreq,
    ← dependencyTarget_sound hu m.id]
  constructor
  · intro ha
    exact ⟨fun d hd e => (ha e).1 d hd, fun r hr e => (ha e).2 r hr⟩
  · rintro ⟨hdep, hrequires⟩ e
    exact ⟨fun d hd => hdep d hd e, fun r hr => hrequires r hr e⟩

/-- An edge of the search is a need of a module, for another module of the list. -/
theorem needs_of_edge (hu : (input.map (·.id)).Nodup) (h : Lists providers (Provides input))
    (he : Dfs.Edge (targets input providers) id b) :
    Needs input id b ∧ b ∈ input.map (·.id) := by
  cases hg : getModule input id with
  | none =>
    rw [Dfs.Edge, targets, hg] at he
    simp at he
  | some m =>
    obtain ⟨hm, rfl⟩ := (getModule_eq_some hu).1 hg
    rcases (edge_iff hu h hm).1 he with ⟨d, hd, rfl, t, ht, hid, -⟩ | ⟨r, hr, hreq, hb, hne⟩
    · exact ⟨⟨m, hm, rfl, .inl ⟨d, hd, rfl⟩⟩, List.mem_map.2 ⟨t, ht, hid⟩⟩
    · refine ⟨⟨m, hm, rfl, .inr ⟨r, hr, hreq, hb, hne⟩⟩, ?_⟩
      obtain ⟨t, ht, rfl, -⟩ := hb
      exact List.mem_map_of_mem ht

theorem mem_starts {x : String} :
    x ∈ (sortByLocale (·.id) input).map (·.id) ↔ x ∈ input.map (·.id) := by
  simp only [List.mem_map, mem_sortByLocale]

variable {order : List String} {n : ℕ}

/-- **The order of the search** has every module once. -/
theorem run_perm (hu : (input.map (·.id)).Nodup) (h : Lists providers (Provides input))
    (ho : Dfs.run (targets input providers) cycleAt "RangeError" n
      ((sortByLocale (·.id) input).map (·.id)) = .ok order) :
    Dfs.Settled (targets input providers) order ∧ order.Perm (input.map (·.id)) := by
  obtain ⟨hs, hm⟩ := Dfs.run_ok ho
  refine ⟨hs, (List.perm_ext_iff_of_nodup hs.nodup hu).2 fun x => (hm x).trans ?_⟩
  constructor
  · rintro ⟨a, ha, hax⟩
    induction hax with
    | refl => exact mem_starts.1 ha
    | tail _ he => exact (needs_of_edge hu h he).2
  · intro hx
    exact ⟨x, mem_starts.2 hx, .refl⟩

/-- Where every edge holds up, a need is one. -/
theorem edge_of_needs (hu : (input.map (·.id)).Nodup) (h : Lists providers (Provides input))
    (hs : ∀ m ∈ input, Dfs.Sound (targets input providers) m.id)
    (hn : Needs input id b) : Dfs.Edge (targets input providers) id b := by
  obtain ⟨m, hm, rfl, ⟨d, hd, rfl⟩ | hr⟩ := hn
  · exact (edge_iff hu h hm).2 (.inl ⟨d, hd, rfl, ((sound_iff hu h hm).1 (hs m hm)).1 d hd⟩)
  · exact (edge_iff hu h hm).2 (.inr hr)

/-- **A registry is made** exactly of composable modules. -/
theorem exists_createModuleRegistry_iff :
    (∃ ordered, createModuleRegistry input = .ok ordered) ↔ Composable input := by
  constructor
  · rintro ⟨ordered, hok⟩
    obtain ⟨hc, hu, hn, providers, hpro, order, ho, -⟩ :=
      createModuleRegistry_eq_ok.1 hok
    have hl := capabilityProviders_ok hpro
    obtain ⟨hset, hp⟩ := run_perm hu hl ho
    have hs : ∀ m ∈ input, Dfs.Sound (targets input providers) m.id := fun m hm =>
      hset.sound (hp.mem_iff.2 (List.mem_map_of_mem hm))
    refine ⟨hc, hu, hn, exists_capabilityProviders_iff.1 ⟨providers, hpro⟩,
      fun m hm => ((sound_iff hu hl hm).1 (hs m hm)).1,
      fun m hm => ((sound_iff hu hl hm).1 (hs m hm)).2, ?_⟩
    intro id hcyc
    have hmem : id ∈ order := by
      obtain ⟨x, ⟨m, hm, rfl, -⟩, -⟩ := Relation.TransGen.head'_iff.1 hcyc
      exact hp.mem_iff.2 (List.mem_map_of_mem hm)
    exact hset.acyclic hmem (Relation.TransGen.mono (fun _ _ => edge_of_needs hu hl hs) _ _ hcyc)
  · intro hcom
    have hu := hcom.unique
    obtain ⟨providers, hpro⟩ := exists_capabilityProviders_iff.2 hcom.provider
    have hl := capabilityProviders_ok hpro
    obtain ⟨order, ho⟩ := (@Dfs.run_ok_iff _ _ _ (targets input providers) cycleAt "RangeError"
      (input.length + 1) ((sortByLocale (·.id) input).map (·.id)) _
      (fun a b he => (needs_of_edge hu hl he).2) (fun a ha => mem_starts.1 ha)
      (by rw [List.length_map]; omega)).2 (by
        intro a ha x hax
        have hx : x ∈ input.map (·.id) := by
          induction hax with
          | refl => exact mem_starts.1 ha
          | tail _ he => exact (needs_of_edge hu hl he).2
        obtain ⟨m, hm, rfl⟩ := List.mem_map.1 hx
        constructor
        · exact (sound_iff hu hl hm).2 ⟨hcom.dependencies m hm, hcom.capabilities m hm⟩
        · intro hcyc
          exact hcom.acyclic m.id
            (Relation.TransGen.mono (fun _ _ he => (needs_of_edge hu hl he).1) _ _ hcyc))
    exact ⟨_, createModuleRegistry_eq_ok.2
      ⟨hcom.compatible, hu, hcom.navigation, providers, hpro, order, ho, rfl⟩⟩

/-- **Every need stands in front.** -/
theorem needs_before (hok : createModuleRegistry input = .ok ordered) :
    ordered.Perm input ∧ ∀ front m behind, ordered = front ++ m :: behind →
      ∀ id, Needs input m.id id → ∃ t ∈ front, t.id = id := by
  obtain ⟨-, hu, -, providers, hpro, order, hord, rfl⟩ := createModuleRegistry_eq_ok.1 hok
  have hl := capabilityProviders_ok hpro
  obtain ⟨hs, hp⟩ := run_perm hu hl hord
  have ho : (order.filterMap (getModule input)).Perm input := by
    have := hp.filterMap (getModule input)
    rwa [filterMap_getModule hu fun m hm => hm] at this
  refine ⟨ho, fun front m behind heq id hn => ?_⟩
  have hi : (order.filterMap (getModule input)).map (·.id) = order := by
    rw [List.map_filterMap, List.filterMap_congr (g := some) fun x hx => ?_, List.filterMap_some]
    obtain ⟨m, hm, rfl⟩ := List.mem_map.1 (hp.mem_iff.1 hx)
    rw [(getModule_eq_some hu).2 ⟨hm, rfl⟩]
    rfl
  rw [heq, List.map_append, List.map_cons] at hi
  obtain ⟨-, hb⟩ := hs.before _ _ _ hi.symm
  have hsou : ∀ m ∈ input, Dfs.Sound (targets input providers) m.id := fun m hm =>
    hs.sound (hp.mem_iff.2 (List.mem_map_of_mem hm))
  exact List.mem_map.1 (hb id (edge_of_needs hu hl hsou hn))

/-- `localeCompare` is a collation, in which identifiers that compare equal are the same. -/
structure Collates : Prop where
  swap : ∀ a b, Host.localeCompare b a = (Host.localeCompare a b).swap
  trans : ∀ a b c, Host.localeCompare a b ≠ .gt → Host.localeCompare b c ≠ .gt →
    Host.localeCompare a c ≠ .gt
  apart : ∀ a b, isIdentifier a = true → isIdentifier b = true → Host.localeCompare a b = .eq → a = b

theorem sortByLocale_perm (hc : Collates) (hu : (input.map (·.id)).Nodup) (hp : input'.Perm input) :
    sortByLocale (·.id) input' = sortByLocale (·.id) input := by
  let r : RegisteredModule → RegisteredModule → Prop := fun a b => Host.localeCompare a.id b.id ≠ .gt
  have : Std.Total r := ⟨fun a b => by
    show Host.localeCompare a.id b.id ≠ .gt ∨ Host.localeCompare b.id a.id ≠ .gt
    rw [hc.swap a.id b.id]
    cases Host.localeCompare a.id b.id <;> simp⟩
  have : IsTrans RegisteredModule r := ⟨fun a b c => hc.trans a.id b.id c.id⟩
  refine @List.Perm.eq_of_pairwise _ r _ _ (fun a b ha hb hab hba => ?_)
    (List.pairwise_insertionSort r input') (List.pairwise_insertionSort r input)
    ((List.perm_insertionSort r input').trans (hp.trans (List.perm_insertionSort r input).symm))
  have heq : Host.localeCompare a.id b.id = .eq := by
    have hs := hc.swap a.id b.id
    cases h : Host.localeCompare a.id b.id with
    | eq => rfl
    | gt => exact absurd h hab
    | lt =>
      rw [h] at hs
      exact absurd hs hba
  have hid := hc.apart a.id b.id a.manifest.identifier b.manifest.identifier heq
  exact List.inj_on_of_nodup_map hu (hp.mem_iff.1 (mem_sortByLocale.1 ha))
    (mem_sortByLocale.1 hb) hid

/-- **The order does not depend on the order of the input.** -/
theorem createModuleRegistry_perm (hc : Collates)
    (hp : input'.Perm input) (hok : createModuleRegistry input = .ok ordered) :
    createModuleRegistry input' = .ok ordered := by
  obtain ⟨ordered', hok'⟩ := exists_createModuleRegistry_iff.2
    ((exists_createModuleRegistry_iff.1 ⟨ordered, hok⟩).perm hp)
  rw [hok']
  obtain ⟨-, hu, -, providers, hpro, order, ho, rfl⟩ := createModuleRegistry_eq_ok.1 hok
  obtain ⟨-, hu', -, providers', hpro', order', ho', rfl⟩ :=
    createModuleRegistry_eq_ok.1 hok'
  have hm : getModule input' = getModule input := by
    funext id
    ext m
    rw [getModule_eq_some hu', getModule_eq_some hu, hp.mem_iff]
  have hl : ∀ c, providers'.lookup c = providers.lookup c := by
    intro c
    ext p
    rw [capabilityProviders_ok hpro' c p, capabilityProviders_ok hpro c p, provides_perm hp]
  have ht : targets input' providers' = targets input providers := by
    have hd : dependencyTarget input' = dependencyTarget input := by
      funext id d
      rw [dependencyTarget, dependencyTarget, hm]
    have hr : requirementTarget providers' = requirementTarget providers := by
      funext id r
      rw [requirementTarget, requirementTarget, hl]
    funext id
    rw [targets, targets, hm, hd, hr]
  rw [ht, hp.length_eq, sortByLocale_perm hc hu hp, ho] at ho'
  rw [hm, Except.ok.inj ho']

end Edges

end Composable

/-! ### The registry -/

/-- **The registry of a list of modules.**  There is one exactly where the modules are
composable; it has every module once and behind what it needs; and where the host's
collation tells identifiers apart, no other order of the input changes it. -/
theorem createModuleRegistry_order [Host] (input : List RegisteredModule) :
    ((∃ ordered, createModuleRegistry input = .ok ordered) ↔ Composable input) ∧
      ∀ ordered, createModuleRegistry input = .ok ordered → ordered.Perm input ∧
        (∀ front m behind, ordered = front ++ m :: behind →
          ∀ id, Needs input m.id id → ∃ t ∈ front, t.id = id) ∧
        (Collates → ∀ input', input'.Perm input → createModuleRegistry input' = .ok ordered) := by
  refine ⟨exists_createModuleRegistry_iff, fun ordered hok => ?_⟩
  obtain ⟨hp, hb⟩ := needs_before hok
  exact ⟨hp, hb, fun hc input' hp' => createModuleRegistry_perm hc hp' hok⟩

theorem collates_plainHost : @Collates plainHost :=
  let _ := plainHost
  { swap := fun _ _ => @Std.OrientedCmp.eq_swap String compare _ _ _
    trans := fun a b c hab hbc => by
      rw [Ne, Ordering.ne_gt_iff_isLE] at *
      exact @Std.TransCmp.isLE_trans String compare _ _ _ _ hab hbc
    apart := fun _ _ _ _ h => @Std.LawfulEqCmp.eq_of_compare String compare _ _ _ h }

/-- A module that provides the capability the other one requires. -/
def sessionsModule : RegisteredModule where
  manifest := {
    id := "auth.core", version := "0.3.1", platformApi := some "^0.2.4", dependencies := [],
    provides := ["auth.sessions"], identifier := by decide +kernel }

def exportsModule : RegisteredModule where
  manifest := {
    id := "audit.core", version := "1.0.0", platformApi := some "^0.2.0",
    dependencies := [⟨"auth.core", "~0.3.0"⟩], requires := [⟨"auth.sessions", false⟩],
    identifier := by decide +kernel }

theorem createModuleRegistry_order_sessions : ∃ ordered,
    @createModuleRegistry plainHost [exportsModule, sessionsModule] = .ok ordered ∧
      @createModuleRegistry plainHost [sessionsModule, exportsModule] = .ok ordered ∧
      ordered.map (·.id) = ["auth.core", "audit.core"] := by
  have hi : (@createModuleRegistry plainHost [exportsModule, sessionsModule]).toOption.map
      (·.map (·.id)) = some ["auth.core", "audit.core"] := by decide +kernel
  cases hok : @createModuleRegistry plainHost [exportsModule, sessionsModule] with
  | error e =>
    rw [hok] at hi
    cases hi
  | ok ordered =>
    rw [hok] at hi
    obtain ⟨-, -, hp⟩ := (@createModuleRegistry_order plainHost _).2 ordered hok
    exact ⟨ordered, rfl, hp collates_plainHost _ (List.Perm.swap _ _ _), Option.some.inj hi⟩

/-- A module that declares no platform. -/
def legacyModule : RegisteredModule where
  manifest := {
    id := "legacy.notes", version := "1.0.0", platformApi := none, dependencies := [],
    identifier := by decide +kernel }

/-- Nothing is missing, twice there or in a cycle, and yet there is no registry. -/
theorem createModuleRegistry_legacy : ([legacyModule].map (·.id)).Nodup ∧
      (∀ m ∈ [legacyModule], ∀ d ∈ m.manifest.dependencies, Available [legacyModule] d) ∧
      (∀ m ∈ [legacyModule], ∀ r ∈ m.manifest.requires, r.optional = false →
        ∃ p, Provides [legacyModule] r.id p) ∧
      (∀ id, ¬ Relation.TransGen (fun id id' => ∃ m ∈ [legacyModule], m.id = id ∧
        ((∃ d ∈ m.manifest.dependencies, d.id = id') ∨
          ∃ r ∈ m.manifest.requires, r.optional = false ∧ Provides [legacyModule] r.id id')) id id) ∧
      ¬ ∃ ordered, @createModuleRegistry plainHost [legacyModule] = .ok ordered := by
  refine ⟨List.nodup_singleton _, ?_, ?_, ?_, ?_⟩
  · intro m hm d hd
    rw [List.mem_singleton.1 hm] at hd
    cases hd
  · intro m hm r hr
    rw [List.mem_singleton.1 hm] at hr
    cases hr
  · intro id hc
    obtain ⟨x, ⟨m, hm, -, hn⟩, -⟩ := Relation.TransGen.head'_iff.1 hc
    rw [List.mem_singleton.1 hm] at hn
    rcases hn with ⟨d, hd, -⟩ | ⟨r, hr, -⟩
    · cases hd
    · cases hr
  · rintro ⟨ordered, hok⟩
    have hnone : (@createModuleRegistry plainHost [legacyModule]).toOption.isNone = true := by
      decide +kernel
    rw [hok] at hnone
    cases hnone

end Flowdular.Kernel
