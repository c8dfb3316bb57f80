/-
# The authority of workflow runs

What a run stores of its graph, its input and its permissions agrees, however calls come in between one
another (`run_authority_exact`).  Its authorization subject is that of its actor where every retry is made
by the person the run before was authorised by: `retry` copies the subject of the run before and replaces
the actor, so a retry by another person is refused by the agents module (`run_authority_fails`).
-/

import Flowdular.Workflows.CompileSoundness
import Flowdular.Workflows.Invocations

namespace Flowdular.Workflows

open Json (jsonHash)
open Kernel (Actor boundedText normalizeActor trimmed)
open Lib

/-! ### Actors -/

theorem trimmed_trimmed (value : String) : trimmed (trimmed value) = trimmed value := by
  rw [trimmed, trimmed, String.toList_ofList, trimChars_trimChars]

theorem boundedText_idem {value text : String} {maximum : ℕ} (h : boundedText value maximum = some text) :
    boundedText text maximum = some text := by
  rw [boundedText] at h ⊢
  split at h
  · cases h
  · next hb =>
    rw [← Option.some.inj h, trimmed_trimmed, if_neg hb]

variable {actor user trusted : Actor}

/-- A normalized actor is normalized again to itself. -/
theorem normalizeActor_idem : ∀ {normalized : Actor},
    normalizeActor actor = some normalized → normalizeActor normalized = some normalized := by
  induction actor with
  | user id label =>
    intro normalized h
    obtain ⟨id', hid, h⟩ := Option.bind_eq_some_iff.1 h
    obtain ⟨label', hl, h⟩ := Option.bind_eq_some_iff.1 h
    cases h
    rw [normalizeActor, boundedText_idem hid, boundedText_idem hl]
    rfl
  | agent id label runId =>
    intro normalized h
    obtain ⟨id', hid, h⟩ := Option.bind_eq_some_iff.1 h
    obtain ⟨label', hl, h⟩ := Option.bind_eq_some_iff.1 h
    obtain ⟨runId', hr, h⟩ := Option.bind_eq_some_iff.1 h
    cases h
    rw [normalizeActor, boundedText_idem hid, boundedText_idem hl, boundedText_idem hr]
    rfl
  | service id label configuredBy ih =>
    intro normalized h
    obtain ⟨id', hid, h⟩ := Option.bind_eq_some_iff.1 h
    obtain ⟨label', hl, h⟩ := Option.bind_eq_some_iff.1 h
    obtain ⟨user, hu, h⟩ := Option.bind_eq_some_iff.1 h
    cases user with
    | user userId userLabel =>
      cases h
      rw [normalizeActor, boundedText_idem hid, boundedText_idem hl, ih hu]
      rfl
    | agent => cases h
    | service => cases h

/-- Whom a normalized actor acts for is a normalized user. -/
theorem derivedSubject_normalized (h : normalizeActor actor = some actor)
    (hu : derivedSubject actor = some user) : isUser user = true ∧ normalizeActor user = some user := by
  cases actor with
  | user id label =>
    cases hu
    exact ⟨rfl, h⟩
  | agent => cases hu
  | service id label configuredBy =>
    cases hu
    obtain ⟨id', -, h⟩ := Option.bind_eq_some_iff.1 h
    obtain ⟨label', -, h⟩ := Option.bind_eq_some_iff.1 h
    obtain ⟨user, hn, h⟩ := Option.bind_eq_some_iff.1 h
    cases user with
    | user userId userLabel =>
      cases h
      exact ⟨rfl, normalizeActor_idem hn⟩
    | agent => cases h
    | service => cases h

theorem trustedActor_ok (h : trustedActor actor = .ok trusted) :
    normalizeActor trusted = some trusted := by
  rw [trustedActor] at h
  split at h
  · next normalized hn =>
    cases h
    exact normalizeActor_idem hn
  · cases h

/-- A normalized actor with a normalized user. -/
structure Trusted (actor : Actor) (subject : Option Actor) : Prop where
  actor : normalizeActor actor = some actor
  subject : ∃ user, subject = some user ∧ isUser user = true ∧ normalizeActor user = some user

/-- The subject is the one whose authority the actor acts with. -/
def NamesAuthority (actor : Actor) (subject : Option Actor) : Prop :=
  ∀ user ∈ derivedSubject actor, subject.map actorId = some (actorId user)

/-- **What `trustedAuthorizationSubject` answers** is the authority of the actor. -/
theorem trustedAuthorizationSubject_ok {subject : Option Actor}
    (ha : trustedActor actor = .ok trusted)
    (h : trustedAuthorizationSubject actor subject = .ok user) :
    Trusted trusted (some user) ∧ NamesAuthority trusted (some user) := by
  have ht := trustedActor_ok ha
  obtain ⟨_, hs, h⟩ := bind_eq_ok h
  cases ha.symm.trans hs
  dsimp only at h
  split at h
  · cases h
  · next normalized hn =>
    have hself : normalizeActor normalized = some normalized := by
      cases subject with
      | some given => exact normalizeActor_idem hn
      | none => exact (derivedSubject_normalized ht hn).2
    split at h
    · cases h
    · next hu =>
      split at h
      · cases h
      · next hs =>
        cases h
        rw [Bool.not_eq_false] at hu
        refine ⟨⟨ht, user, rfl, hu, hself⟩, fun derived hd => ?_⟩
        rw [Option.mem_def.1 hd, Option.any_some, Bool.not_eq_true, decide_eq_false_iff_not,
          not_not] at hs
        rw [Option.map_some, hs]

/-- **A trusted subject that is the authority of the actor is accepted by the agents module.** -/
theorem agentAuthorizationSubject_ok_iff {subject : Option Actor} (h : Trusted actor subject) :
    (∃ user, agentAuthorizationSubject actor subject = .ok user) ↔ NamesAuthority actor subject := by
  obtain ⟨hact, user, rfl, hu, hn⟩ := h
  have hage : agentAuthorizationSubject actor (some user) =
      if isUser user = false ∨ ((derivedSubject actor).any fun derived => actorId user ≠ actorId derived) =
        true then .error agentSubjectInvalid else .ok user := by
    rw [agentAuthorizationSubject, hact]
    simp only [Option.bind_some, hn, Option.some_or]
  rw [hage]
  constructor
  · rintro ⟨accepted, ha⟩ derived hd
    split at ha
    · cases ha
    · next hnot =>
      rw [not_or, Option.mem_def.1 hd, Option.any_some, decide_eq_true_eq, not_not] at hnot
      rw [Option.map_some, hnot.2]
  · intro hnam
    have hnot : ¬(isUser user = false ∨
        ((derivedSubject actor).any fun derived => actorId user ≠ actorId derived) = true) := by
      rw [hu, Option.any_eq_true]
      rintro (hf | ⟨derived, hd, hne⟩)
      · exact Bool.noConfusion hf
      · rw [decide_eq_true_eq] at hne
        have hs := hnam derived hd
        rw [Option.map_some, Option.some.injEq] at hs
        exact hne hs
    exact ⟨user, if_neg hnot⟩

theorem manualContext_ok {tenantId : String} {permissions : List String}
    {context : WorkflowInvocationContext} (h : manualContext tenantId actor permissions = .ok context) :
    Trusted context.actor context.authorizationSubject ∧
      NamesAuthority context.actor context.authorizationSubject ∧
      (derivedSubject context.actor).isSome = true := by
  obtain ⟨trusted, ha, h⟩ := bind_eq_ok h
  obtain ⟨subject, hsub, h⟩ := bind_eq_ok h
  cases h
  obtain ⟨ht, hn⟩ := trustedAuthorizationSubject_ok ha hsub
  refine ⟨ht, hn, ?_⟩
  obtain ⟨_, hs, hsub⟩ := bind_eq_ok hsub
  cases ha.symm.trans hs
  dsimp only at hsub
  split at hsub
  · cases hsub
  · next normalized hd =>
    rw [normalizedSubject] at hd
    show (derivedSubject trusted).isSome = true
    rw [hd]
    rfl

/-! ### Permissions -/

theorem sortedSet_sortedSet (values : List String) : sortedSet (sortedSet values) = sortedSet values := by
  have hn : (sortStrings values.dedup).Nodup :=
    (sortStrings_perm values.dedup).nodup_iff.2 (List.nodup_dedup values)
  rw [sortedSet, sortedSet, hn.dedup]
  exact sortStrings_sortStrings values.dedup

/-! ### What is kept -/

/-- A checksum and an order are those of a graph. -/
structure PinsGraph [Host] (graph : WorkflowGraph) (checksum : String) (order : List String) : Prop where
  checksum : checksum = workflowGraphChecksum graph
  order : order = if graph.cyclic then [] else stableTopologicalOrder graph

/-- **What a run stores agrees:** its digest with its permissions, its hash with its input where that is
stored, its checksum and order with its graph. -/
structure RunPinned [Host] (s : WorkflowTables) (run : WorkflowRunRecord) : Prop where
  digest : run.permissionDigest = permissionsDigest run.permissionSnapshot
  input : ∀ payload ∈ s.payloads, payload.id = run.inputPayloadId → jsonHash payload.value = run.inputHash
  graph : PinsGraph run.graph run.graphChecksum run.compiledOrder
  trusted : Trusted run.actor run.authorizationSubject

section

variable [Host] (named : Actor → Option Actor → Prop)

/-- What is kept of the tables: revisions and runs agree with themselves, the subject of a run is related
to its actor, and what payloads are called was drawn. -/
structure TablesKept (s : WorkflowTables) : Prop where
  revisions : ∀ row ∈ s.revisions, PinsGraph row.graph row.graphChecksum row.compiledOrder
  runs : ∀ run ∈ s.runs, RunPinned s run
  named : ∀ run ∈ s.runs, named run.actor run.authorizationSubject
  inputs : ∀ run ∈ s.runs, run.inputPayloadId ∈ s.drawn
  payloads : ∀ payload ∈ s.payloads, payload.id ∈ s.drawn

/-- The context of a call is trusted, and names the authority of its actor. -/
structure ContextTrusted (context : WorkflowInvocationContext) : Prop where
  trusted : Trusted context.actor context.authorizationSubject
  names : NamesAuthority context.actor context.authorizationSubject

/-- What a process knows: its context is trusted, and what it read agrees with itself. -/
def WorkflowKnows (s : WorkflowTables) : WorkflowProcess → Prop
  | .resolving _ context _ => ContextTrusted context
  | .matching _ context _ revision => ContextTrusted context ∧
      PinsGraph revision.graph revision.graphChecksum revision.compiledOrder
  | .inserting _ context _ revision => ContextTrusted context ∧
      PinsGraph revision.graph revision.graphChecksum revision.compiledOrder
  | .rehearsing _ _ _ draft => PinsGraph draft.graph draft.graphChecksum draft.compiledOrder
  | .reading _ prior => RunPinned s prior ∧ named prior.actor prior.authorizationSubject ∧
      prior.inputPayloadId ∈ s.drawn
  | .renewing context prior input => ContextTrusted context ∧
      (derivedSubject context.actor).isSome = true ∧
      PinsGraph prior.graph prior.graphChecksum prior.compiledOrder ∧
      Trusted prior.actor prior.authorizationSubject ∧
      named prior.actor prior.authorizationSubject ∧ jsonHash input = prior.inputHash
  | _ => True

omit [Host] in
/-- What a step leaves for what others know: more that was drawn, and no payload under a name that was
drawn before. -/
structure TablesOnward (s s' : WorkflowTables) : Prop where
  drawn : ∀ id ∈ s.drawn, id ∈ s'.drawn
  payloads : ∀ payload ∈ s'.payloads, payload ∈ s.payloads ∨ payload.id ∉ s.drawn

end

section Steps

variable [Host] {named : Actor → Option Actor → Prop} {s s' : WorkflowTables} {run : WorkflowRunRecord}

omit [Host] in
theorem TablesOnward.refl : TablesOnward s s where
  drawn _ h := h
  payloads _ h := .inl h

theorem RunPinned.onward (h : RunPinned s run) (hd : run.inputPayloadId ∈ s.drawn)
    (ho : TablesOnward s s') : RunPinned s' run := by
  refine ⟨h.digest, fun payload hm hid => ?_, h.graph, h.trusted⟩
  rcases ho.payloads payload hm with hold | hf
  · exact h.input payload hold hid
  · rw [hid] at hf
    exact absurd hd hf

theorem WorkflowKnows.onward {p : WorkflowProcess} (h : WorkflowKnows named s p)
    (ho : TablesOnward s s') : WorkflowKnows named s' p := by
  cases p with
  | reading request prior => exact ⟨h.1.onward h.2.2 ho, h.2.1, ho.drawn _ h.2.2⟩
  | _ => exact h

theorem pinsGraph_of_compiled {graph : WorkflowGraph} {catalog : Option WorkflowReferenceCatalog}
    {report : WorkflowDryRunResponse} (h : compiled graph catalog = .ok report) :
    PinsGraph graph report.graphChecksum report.compiledOrder := by
  rw [compiled] at h
  split at h
  · next report' hr =>
    cases h
    refine ⟨?_, (compileWorkflowGraph_eq_ok hr).2⟩
    unfold compileWorkflowGraph at hr
    split at hr
    · cases hr
    · cases hr
      rfl
  · cases h

/-- Where runs and payloads stay what they are, up to how the runs stand, what is kept stays so. -/
theorem TablesKept.keep (h : TablesKept named s) (hd : s'.drawn = s.drawn)
    (hr : ∀ row ∈ s'.revisions, PinsGraph row.graph row.graphChecksum row.compiledOrder)
    (hruns : ∀ run ∈ s'.runs, ∃ status, ∃ run' ∈ s.runs, run = { run' with status })
    (hpay : ∀ payload ∈ s'.payloads, payload ∈ s.payloads) :
    TablesKept named s' ∧ TablesOnward s s' := by
  have ho : TablesOnward s s' := by
    refine ⟨fun id hid => ?_, fun payload hm => .inl (hpay payload hm)⟩
    rw [hd]
    exact hid
  refine ⟨⟨hr, fun run hrun => ?_, fun run hrun => ?_, fun run hrun => ?_, ?_⟩, ho⟩
  · obtain ⟨status, run', hm, rfl⟩ := hruns run hrun
    have hp := (h.runs run' hm).onward (h.inputs run' hm) ho
    exact ⟨hp.digest, hp.input, hp.graph, hp.trusted⟩
  · obtain ⟨status, run', hm, rfl⟩ := hruns run hrun
    exact h.named run' hm
  · obtain ⟨status, run', hm, rfl⟩ := hruns run hrun
    rw [hd]
    exact h.inputs run' hm
  · intro payload hm
    rw [hd]
    exact h.payloads payload (hpay payload hm)

omit [Host] in
theorem runs_same (runs : List WorkflowRunRecord) :
    ∀ run ∈ runs, ∃ status, ∃ run' ∈ runs, run = { run' with status } :=
  fun run hr => ⟨run.status, run, hr, rfl⟩

variable {tenantId workflowId : String}

theorem TablesKept.updateDefinition (h : TablesKept named s)
    {change : WorkflowDefinition → WorkflowDefinition} :
    TablesKept named (s.updateDefinition tenantId workflowId change) ∧
      TablesOnward s (s.updateDefinition tenantId workflowId change) :=
  h.keep rfl h.revisions (runs_same _) fun _ hm => hm

/-- A definition is created with a revision that pins its graph. -/
theorem TablesKept.createDefinition (h : TablesKept named s) {definition : WorkflowDefinition}
    {revision : WorkflowRevision}
    (hr : PinsGraph revision.graph revision.graphChecksum revision.compiledOrder)
    (hs : s.createDefinition definition revision = some s') : TablesKept named s' ∧ TablesOnward s s' := by
  rw [WorkflowTables.createDefinition] at hs
  split at hs
  · cases hs
  · cases hs
    have ho : TablesOnward s { s with
        definitions := s.definitions ++ [definition]
        revisions := s.revisions ++ [revision]
        drawn := definition.id :: s.drawn } :=
      ⟨fun _ hid => List.mem_cons_of_mem _ hid, fun _ hm => .inl hm⟩
    refine ⟨⟨?_, fun run hrun => ?_, h.named, fun run hrun => ?_, fun payload hm => ?_⟩, ho⟩
    · refine List.forall_mem_append.2 ⟨h.revisions, ?_⟩
      exact List.forall_mem_singleton.2 hr
    · exact (h.runs run hrun).onward (h.inputs run hrun) ho
    · exact List.mem_cons_of_mem _ (h.inputs run hrun)
    · exact List.mem_cons_of_mem _ (h.payloads payload hm)

/-- A draft is saved with a revision that pins its graph. -/
theorem TablesKept.saveDraft (h : TablesKept named s) {definition : WorkflowDefinition}
    {revision : WorkflowRevision} {expectedRevision : ℕ} {saved : Bool}
    (hr : PinsGraph revision.graph revision.graphChecksum revision.compiledOrder)
    (hs : s.saveDraft definition revision expectedRevision = some (saved, s')) :
    TablesKept named s' ∧ TablesOnward s s' := by
  rw [WorkflowTables.saveDraft] at hs
  split at hs
  · cases hs
    exact ⟨h, .refl⟩
  · split_ifs at hs
    · cases hs
      exact ⟨h, .refl⟩
    · cases hs
      refine h.keep rfl ?_ (runs_same _) fun _ hm => hm
      exact List.forall_mem_append.2 ⟨h.revisions, List.forall_mem_singleton.2 hr⟩

theorem TablesKept.publish (h : TablesKept named s) {revision : ℕ} :
    TablesKept named (s.publish tenantId workflowId revision).2 ∧
      TablesOnward s (s.publish tenantId workflowId revision).2 := by
  rw [WorkflowTables.publish]
  split
  · exact ⟨h, .refl⟩
  · dsimp only
    split_ifs
    · exact ⟨h, .refl⟩
    · exact ⟨h, .refl⟩
    · refine h.keep rfl (fun row hr => ?_) (runs_same _) fun _ hm => hm
      obtain ⟨row', hm, rfl⟩ := List.mem_map.1 hr
      split_ifs
      · exact h.revisions row' hm
      · exact h.revisions row' hm

theorem TablesKept.deleteDraft (h : TablesKept named s) :
    TablesKept named (s.deleteDraft tenantId workflowId).2 ∧
      TablesOnward s (s.deleteDraft tenantId workflowId).2 := by
  rw [WorkflowTables.deleteDraft]
  split
  · exact ⟨h, .refl⟩
  · split_ifs
    · exact ⟨h, .refl⟩
    · exact h.keep rfl (fun row hr => h.revisions row (List.mem_of_mem_filter hr)) (runs_same _)
        fun _ hm => hm

/-- **A run that agrees with its input is created.** -/
theorem TablesKept.createRun (h : TablesKept named s) {input : Json} {payloadId : String}
    (hf : payloadId ∉ s.drawn)
    (hdig : run.permissionDigest = permissionsDigest run.permissionSnapshot)
    (hi : jsonHash input = run.inputHash)
    (hg : PinsGraph run.graph run.graphChecksum run.compiledOrder)
    (ht : Trusted run.actor run.authorizationSubject)
    (hn : named run.actor run.authorizationSubject)
    (hs : s.createRun run input payloadId = some s') : TablesKept named s' ∧ TablesOnward s s' := by
  rw [WorkflowTables.createRun] at hs
  split at hs
  · cases hs
  · cases hs
    have ho : TablesOnward s { s with
        runs := s.runs ++ [{ run with inputPayloadId := payloadId }]
        payloads := s.payloads ++ [⟨payloadId, run.tenantId, run.id, input⟩]
        drawn := run.id :: payloadId :: s.drawn } := by
      refine ⟨fun _ hid => List.mem_cons_of_mem _ (List.mem_cons_of_mem _ hid), fun payload hm => ?_⟩
      rcases List.mem_append.1 hm with hold | hnew
      · exact .inl hold
      · rw [List.mem_singleton.1 hnew]
        exact .inr hf
    refine ⟨⟨h.revisions, ?_, ?_, ?_, ?_⟩, ho⟩
    · refine List.forall_mem_append.2 ⟨fun old hold => ?_, List.forall_mem_singleton.2 ?_⟩
      · exact (h.runs old hold).onward (h.inputs old hold) ho
      · refine ⟨hdig, fun payload hm hid => ?_, hg, ht⟩
        rcases List.mem_append.1 hm with hold | hnew
        · have hd := h.payloads payload hold
          rw [hid] at hd
          exact absurd hd hf
        · rw [List.mem_singleton.1 hnew]
          exact hi
    · exact List.forall_mem_append.2 ⟨h.named, List.forall_mem_singleton.2 hn⟩
    · refine List.forall_mem_append.2 ⟨fun old hold => ?_, List.forall_mem_singleton.2 ?_⟩
      · exact ho.drawn _ (h.inputs old hold)
      · exact List.mem_cons_of_mem _ List.mem_cons_self
    · refine List.forall_mem_append.2 ⟨fun old hold => ?_, List.forall_mem_singleton.2 ?_⟩
      · exact ho.drawn _ (h.payloads old hold)
      · exact List.mem_cons_of_mem _ List.mem_cons_self

/-- What befalls the runs beside the calls. -/
theorem TablesKept.change (h : TablesKept named s) (change : RunChange) :
    TablesKept named (change.apply s) ∧ TablesOnward s (change.apply s) := by
  cases change with
  | settle tenantId runId status =>
    refine h.keep rfl h.revisions (fun run hr => ?_) fun _ hm => hm
    obtain ⟨run', hm, rfl⟩ := List.mem_map.1 hr
    by_cases hs : (run'.tenantId = tenantId && run'.id = runId : Bool) = true
    · exact ⟨status, run', hm, if_pos hs⟩
    · exact ⟨run'.status, run', hm, if_neg hs⟩
  | store payload =>
    rw [RunChange.apply]
    split
    · exact ⟨h, .refl⟩
    · next hf =>
      have ho : TablesOnward s { s with
          payloads := s.payloads ++ [payload], drawn := payload.id :: s.drawn } := by
        refine ⟨fun _ hid => List.mem_cons_of_mem _ hid, fun other hm => ?_⟩
        rcases List.mem_append.1 hm with hold | hn
        · exact .inl hold
        · rw [List.mem_singleton.1 hn]
          exact .inr hf
      refine ⟨⟨h.revisions, fun run hr => ?_, h.named, fun run hr => ?_, ?_⟩, ho⟩
      · exact (h.runs run hr).onward (h.inputs run hr) ho
      · exact List.mem_cons_of_mem _ (h.inputs run hr)
      · refine List.forall_mem_append.2 ⟨fun old hold => ?_, List.forall_mem_singleton.2 ?_⟩
        · exact List.mem_cons_of_mem _ (h.payloads old hold)
        · exact List.mem_cons_self
  | drop tenantId runId payloadId =>
    exact h.keep rfl h.revisions (runs_same _) fun _ hm => List.mem_of_mem_filter hm
  | delete tenantId runIds =>
    refine h.keep rfl h.revisions (fun run hr => ?_) fun _ hm => List.mem_of_mem_filter hm
    exact runs_same _ run (List.mem_of_mem_filter hr)

end Steps

/-! ### The moves -/

section Moves

variable [Host] {named : Actor → Option Actor → Prop} {s : WorkflowTables} {choice : WorkflowChoice}

/-- What a move must leave: the tables kept, a process that knows its own, and what others know. -/
structure MoveKept (named : Actor → Option Actor → Prop) (s : WorkflowTables)
    (x : WorkflowTables × WorkflowProcess) : Prop where
  kept : TablesKept named x.1
  knows : WorkflowKnows named x.1 x.2
  onward : TablesOnward s x.1

variable {p : WorkflowProcess} {fails : Option Bool} {id : String}
  {context : WorkflowInvocationContext} {catalog : Option WorkflowReferenceCatalog}

theorem MoveKept.of_read (h : TablesKept named s) (hp : WorkflowKnows named s p) :
    MoveKept named s (s, p) :=
  ⟨h, hp, .refl⟩

theorem staged_kept {α : Type} {stage : Except WorkflowsServiceError α}
    {next : α → WorkflowTables × WorkflowProcess} (h : TablesKept named s)
    (hn : ∀ a, stage = .ok a → MoveKept named s (next a)) :
    MoveKept named s (staged s stage next) := by
  cases stage with
  | ok a => exact hn a rfl
  | error error => exact .of_read h trivial

theorem transacted_kept {left : Option (WorkflowTables × WorkflowProcess)}
    (h : TablesKept named s) (hl : ∀ x, left = some x → MoveKept named s x) :
    MoveKept named s (transacted s fails left) := by
  rcases left with _ | ⟨s', p⟩
  · exact .of_read h trivial
  · have hx := hl _ rfl
    rcases fails with _ | _ | _
    · exact hx
    · exact .of_read h trivial
    · exact ⟨hx.kept, trivial, hx.onward⟩

theorem transacted_read_kept (h : TablesKept named s)
    (hp : WorkflowKnows named s p) : MoveKept named s (transacted s fails (some (s, p))) :=
  transacted_kept h fun _ hx => Option.some.inj hx ▸ .of_read h hp

theorem transacted_end_kept {s' : WorkflowTables} {outcome : WorkflowOutcome}
    (h : TablesKept named s) (hs : TablesKept named s' ∧ TablesOnward s s') :
    MoveKept named s (transacted s fails (some (s', .over outcome))) :=
  transacted_kept h fun _ hx => Option.some.inj hx ▸ ⟨hs.1, trivial, hs.2⟩

/-- What is read of a definition: its draft pins its graph. -/
theorem detailed_knows {tenantId workflowId : String}
    {next : WorkflowDefinition → WorkflowRevision → WorkflowProcess} (h : TablesKept named s)
    (hn : ∀ definition draft, PinsGraph draft.graph draft.graphChecksum draft.compiledOrder →
      WorkflowKnows named s (next definition draft)) :
    WorkflowKnows named s (detailed (s.definitionDetail tenantId workflowId) next) := by
  rw [WorkflowTables.definitionDetail]
  cases s.definition? tenantId workflowId with
  | none => trivial
  | some definition =>
    cases hd : s.revision? tenantId workflowId definition.currentDraftRevision with
    | none =>
      rw [Option.map_some, hd]
      trivial
    | some draft =>
      rw [Option.map_some, hd]
      exact hn definition draft (h.revisions draft (List.mem_of_find?_eq_some hd))

theorem createWrite_pins {request : CreateRequest}
    {write : WorkflowDefinition × WorkflowRevision} (h : createWrite request id = .ok write) :
    PinsGraph write.2.graph write.2.graphChecksum write.2.compiledOrder := by
  obtain ⟨key, -, h⟩ := bind_eq_ok h
  split at h
  · cases h
  · obtain ⟨tenantId, -, h⟩ := bind_eq_ok h
    obtain ⟨name, -, h⟩ := bind_eq_ok h
    obtain ⟨description, -, h⟩ := bind_eq_ok h
    obtain ⟨report, hr, h⟩ := bind_eq_ok h
    obtain ⟨actor, -, h⟩ := bind_eq_ok h
    cases h
    exact pinsGraph_of_compiled hr

theorem saveWrite_pins {request : UpdateRequest} {definition : WorkflowDefinition}
    {actionSchemas : WorkflowActionInputSchema} {write : WorkflowDefinition × WorkflowRevision}
    (h : saveWrite request definition actionSchemas = .ok write) :
    PinsGraph write.2.graph write.2.graphChecksum write.2.compiledOrder := by
  rw [saveWrite] at h
  split at h
  · cases h
  split at h
  · cases h
  obtain ⟨report, hr, h⟩ := bind_eq_ok h
  split at h
  · cases h
  split at h
  · cases h
  split at h
  · cases h
  split at h
  · cases h
  obtain ⟨name, -, h⟩ := bind_eq_ok h
  obtain ⟨description, -, h⟩ := bind_eq_ok h
  cases h
  exact pinsGraph_of_compiled hr

theorem enqueueTrusted_context {request : EnqueueRequest}
    {trusted : EnqueueRequest × WorkflowInvocationContext}
    (h : enqueueTrusted request context = .ok trusted) : ContextTrusted trusted.2 := by
  obtain ⟨tenantId, -, h⟩ := bind_eq_ok h
  obtain ⟨actor, ha, h⟩ := bind_eq_ok h
  obtain ⟨subject, hs, h⟩ := bind_eq_ok h
  obtain ⟨-, -, h⟩ := bind_eq_ok h
  obtain ⟨workflowKey, -, h⟩ := bind_eq_ok h
  obtain ⟨idempotencyKey, -, h⟩ := bind_eq_ok h
  obtain ⟨-, -, h⟩ := bind_eq_ok h
  cases h
  obtain ⟨ht, hn⟩ := trustedAuthorizationSubject_ok ha hs
  exact ⟨ht, hn⟩

/-- **The run that `simulate` writes agrees with itself.** -/
theorem simulatedRun_ok {request : SimulationRequest}
    {definition : WorkflowDefinition} {draft : WorkflowRevision}
    {run : WorkflowRunRecord}
    (hd : PinsGraph draft.graph draft.graphChecksum draft.compiledOrder)
    (h : simulatedRun request context definition draft catalog id = .ok run) :
    run.permissionDigest = permissionsDigest run.permissionSnapshot ∧
      jsonHash request.input = run.inputHash ∧
      PinsGraph run.graph run.graphChecksum run.compiledOrder ∧
      Trusted run.actor run.authorizationSubject ∧ NamesAuthority run.actor run.authorizationSubject := by
  rw [simulatedRun] at h
  split at h
  · cases h
  obtain ⟨report, hr, h⟩ := bind_eq_ok h
  split at h
  · cases h
  obtain ⟨-, -, h⟩ := bind_eq_ok h
  obtain ⟨actor, ha, h⟩ := bind_eq_ok h
  obtain ⟨subject, hs, h⟩ := bind_eq_ok h
  cases h
  obtain ⟨ht, hn⟩ := trustedAuthorizationSubject_ok ha hs
  refine ⟨?_, rfl, ⟨hd.checksum, (pinsGraph_of_compiled hr).order⟩, ht, hn⟩
  show permissionsDigest context.permissionSnapshot =
    permissionsDigest (sortedSet context.permissionSnapshot)
  rw [permissionsDigest, permissionsDigest, sortedSet_sortedSet]

theorem retryContext_ok {request : RetryRequest} {prior : WorkflowRunRecord}
    (h : retryContext request prior catalog = .ok context) :
    ContextTrusted context ∧ (derivedSubject context.actor).isSome = true := by
  rw [retryContext] at h
  split at h
  · cases h
  obtain ⟨manual, hm, h⟩ := bind_eq_ok h
  obtain ⟨-, -, h⟩ := bind_eq_ok h
  cases h
  obtain ⟨ht, hn, hd⟩ := manualContext_ok hm
  exact ⟨⟨ht, hn⟩, hd⟩

/-- What a relation of subjects to actors must meet: the authority of an actor is related to it, and the
subject of a run that is retried to who retries it. -/
structure NamedBy (named : Actor → Option Actor → Prop)
    (cond : Machine.Condition WorkflowTables WorkflowProcess) : Prop where
  authority : ∀ actor subject, NamesAuthority actor subject → named actor subject
  renewed : ∀ s others context prior input, cond s others (.renewing context prior input) →
    ContextTrusted context → named prior.actor prior.authorizationSubject →
      named context.actor prior.authorizationSubject

/-- **A move keeps the tables.** -/
theorem workflowStep_kept {cond : Machine.Condition WorkflowTables WorkflowProcess}
    {others : List WorkflowProcess} {x : WorkflowTables × WorkflowProcess}
    (hby : NamedBy named cond) (h : TablesKept named s) (hp : WorkflowKnows named s p)
    (hc : cond s others p) (hfre : choice.payloadId ∉ s.drawn)
    (hstep : workflowStep s choice p = some x) : MoveKept named s x := by
  have hcre : ∀ {run : WorkflowRunRecord} {input : Json},
      run.permissionDigest = permissionsDigest run.permissionSnapshot → jsonHash input = run.inputHash →
      PinsGraph run.graph run.graphChecksum run.compiledOrder →
      Trusted run.actor run.authorizationSubject → named run.actor run.authorizationSubject →
      ∀ x, createdRun s choice run input = some x → MoveKept named s x := by
    intro run input hd hi hg ht hn x hx
    obtain ⟨s', hs', rfl⟩ := Option.map_eq_some_iff.1 hx
    obtain ⟨hk, ho⟩ := h.createRun hfre hd hi hg ht hn hs'
    exact ⟨hk, trivial, ho⟩
  cases p with
  | creating request =>
    rw [workflowStep, Option.some.injEq] at hstep
    subst hstep
    refine staged_kept h fun write hw => transacted_kept h fun x hx => ?_
    obtain ⟨s', hs', rfl⟩ := Option.map_eq_some_iff.1 hx
    obtain ⟨hk, ho⟩ := h.createDefinition (createWrite_pins hw) hs'
    exact ⟨hk, trivial, ho⟩
  | updating request =>
    rw [workflowStep, Option.some.injEq] at hstep
    subst hstep
    refine staged_kept h fun _ _ => transacted_read_kept h ?_
    exact detailed_knows h fun _ _ _ => trivial
  | saving request definition =>
    rw [workflowStep, Option.some.injEq] at hstep
    subst hstep
    refine staged_kept h fun write hw => transacted_kept h fun x hx => ?_
    obtain ⟨⟨saved, s'⟩, hs', rfl⟩ := Option.map_eq_some_iff.1 hx
    obtain ⟨hk, ho⟩ := h.saveDraft (saveWrite_pins hw) hs'
    exact ⟨hk, trivial, ho⟩
  | publishing request =>
    rw [workflowStep, Option.some.injEq] at hstep
    subst hstep
    refine staged_kept h fun _ _ => transacted_read_kept h ?_
    exact detailed_knows h fun _ _ _ => trivial
  | marking request context definition draft =>
    rw [workflowStep] at hstep
    obtain ⟨catalog, -, rfl⟩ := Option.map_eq_some_iff.1 hstep
    exact staged_kept h fun _ _ => transacted_end_kept h h.publish
  | archiving tenantId workflowId actor =>
    rw [workflowStep, Option.some.injEq] at hstep
    subst hstep
    exact staged_kept h fun _ _ => transacted_end_kept h h.updateDefinition
  | deleting tenantId workflowId actor =>
    rw [workflowStep, Option.some.injEq] at hstep
    subst hstep
    exact staged_kept h fun _ _ => transacted_end_kept h h.deleteDraft
  | enqueuing request context =>
    rw [workflowStep, Option.some.injEq] at hstep
    subst hstep
    refine staged_kept h fun trusted ht => transacted_read_kept h ?_
    split
    · trivial
    · exact enqueueTrusted_context ht
  | resolving request context definition =>
    rw [workflowStep, Option.some.injEq] at hstep
    subst hstep
    refine staged_kept h fun revision _ => transacted_read_kept h ?_
    split
    · trivial
    · next row hr =>
      split
      · exact ⟨hp, h.revisions row (List.mem_of_find?_eq_some hr)⟩
      · trivial
  | matching request context definition revision =>
    rw [workflowStep, Option.some.injEq] at hstep
    subst hstep
    refine staged_kept h fun _ _ => transacted_read_kept h ?_
    split
    · exact hp
    · split <;> trivial
  | inserting request context definition revision =>
    rw [workflowStep, Option.some.injEq] at hstep
    subst hstep
    refine transacted_kept h (hcre rfl rfl hp.2 hp.1.trusted ?_)
    exact hby.authority _ _ hp.1.names
  | simulating request context =>
    rw [workflowStep, Option.some.injEq] at hstep
    subst hstep
    refine staged_kept h fun _ _ => transacted_read_kept h ?_
    exact detailed_knows h fun _ _ hdra => hdra
  | rehearsing request context definition draft =>
    rw [workflowStep, Option.some.injEq] at hstep
    subst hstep
    refine staged_kept h fun run hrun => transacted_kept h ?_
    obtain ⟨hd, hi, hg, ht, hnam⟩ := simulatedRun_ok hp hrun
    exact hcre hd hi hg ht (hby.authority _ _ hnam)
  | retrying request =>
    rw [workflowStep, Option.some.injEq] at hstep
    subst hstep
    refine staged_kept h fun _ _ => transacted_read_kept h ?_
    split
    · trivial
    · next prior hpri =>
      have hm := List.mem_of_find?_eq_some hpri
      exact ⟨h.runs prior hm, h.named prior hm, h.inputs prior hm⟩
  | reading request prior =>
    rw [workflowStep, Option.some.injEq] at hstep
    subst hstep
    refine staged_kept h fun context hcon => transacted_kept h fun x hx => ?_
    obtain ⟨input, hi, rfl⟩ := Option.map_eq_some_iff.1 hx
    obtain ⟨payload, hpay, rfl⟩ := Option.map_eq_some_iff.1 hi
    obtain ⟨hpin, hn, -⟩ := hp
    obtain ⟨ht, hder⟩ := retryContext_ok hcon
    have hf := List.find?_some hpay
    rw [Bool.and_eq_true, decide_eq_true_eq] at hf
    have hh := hpin.input payload (List.mem_of_find?_eq_some hpay) hf.2
    exact .of_read h ⟨ht, hder, hpin.graph, hpin.trusted, hn, hh⟩
  | renewing context prior input =>
    rw [workflowStep, Option.some.injEq] at hstep
    subst hstep
    obtain ⟨hcon, -, hg, ht, hn, hh⟩ := hp
    refine transacted_kept h (hcre rfl hh hg ⟨hcon.trusted.actor, ht.subject⟩ ?_)
    exact hby.renewed s others context prior input hc hcon hn
  | changing change =>
    rw [workflowStep, Option.some.injEq] at hstep
    subst hstep
    obtain ⟨hk, ho⟩ := h.change change
    exact ⟨hk, trivial, ho⟩
  | «over» outcome => cases hstep

/-- **The calls keep the tables**, whatever comes in between. -/
def workflowOutline {cond : Machine.Condition WorkflowTables WorkflowProcess}
    (hby : NamedBy named cond) : Outline workflowMachine cond where
  inv := TablesKept named
  knows := WorkflowKnows named
  apart _ _ := True
  apart_symm _ := trivial
  start {s r p} _ henter := by
    refine ⟨?_, fun _ _ => trivial⟩
    cases r <;> (cases henter; trivial)
  stop h _ := h
  stop_other _ _ hq _ := hq
  move {s others p choice s' p'} h hp _ hcond hnext := by
    change (if _ then _ else _) = _ at hnext
    split at hnext
    · cases hnext
    · next hfresh =>
      have hmove := workflowStep_kept hby h hp hcond (fun hmem => hfresh (.inr (.inl hmem))) hnext
      exact ⟨hmove.kept, hmove.knows⟩
  move_other {s others p choice s' p' q} h hp hothers hcond hnext hq := by
    change (if _ then _ else _) = _ at hnext
    split at hnext
    · cases hnext
    · next hfresh =>
      have hmove := workflowStep_kept hby h hp hcond (fun hmem => hfresh (.inr (.inl hmem))) hnext
      exact ⟨WorkflowKnows.onward (hothers q hq).1 hmove.onward, trivial⟩

end Moves

/-! ### The authority of runs -/

/-- A retry is made by the person the run before was authorised by. -/
def SameAuthority : Machine.Condition WorkflowTables WorkflowProcess := fun _ _ p =>
  match p with
  | .renewing context prior _ =>
    context.authorizationSubject.map actorId = prior.authorizationSubject.map actorId
  | _ => True

instance : ∀ s others p, Decidable (SameAuthority s others p) := fun _ _ p =>
  match p with
  | .renewing context prior _ =>
    inferInstanceAs
      (Decidable (context.authorizationSubject.map actorId = prior.authorizationSubject.map actorId))
  | .creating .. | .updating .. | .saving .. | .publishing .. | .marking .. | .archiving ..
  | .deleting .. | .enqueuing .. | .resolving .. | .matching .. | .inserting .. | .simulating ..
  | .rehearsing .. | .retrying .. | .reading .. | .changing .. | .over .. => isTrue trivial

/-- Every relation is kept that holds of all. -/
theorem namedBy_true : NamedBy (fun _ _ => True) (fun _ _ _ => True) where
  authority _ _ _ := trivial
  renewed _ _ _ _ _ _ _ _ := trivial

/-- Retries by the same person keep the authority. -/
theorem namedBy_sameAuthority : NamedBy NamesAuthority SameAuthority where
  authority _ _ h := h
  renewed s others context prior input hc hcon _ := by
    intro user hu
    have hs : context.authorizationSubject.map actorId = prior.authorizationSubject.map actorId :=
      hc
    rw [← hs]
    exact hcon.names user hu

theorem tablesKept_nil [Host] {named : Actor → Option Actor → Prop} : TablesKept named {} := by
  constructor <;> exact fun _ hm => nomatch hm

/-- **The authority of runs.**  In every run of the calls each stored run agrees with itself; where every
retry is made by the person the run before was authorised by, its subject is the authority of its actor,
and the agents module accepts it. -/
theorem run_authority_exact [Host] :
    (∀ crew, Crew.Reachable workflowMachine (fun _ _ _ => True) {} crew →
      ∀ run ∈ crew.shared.runs, RunPinned crew.shared run) ∧
    ∀ crew, Crew.Reachable workflowMachine SameAuthority {} crew →
      ∀ run ∈ crew.shared.runs, RunPinned crew.shared run ∧
        NamesAuthority run.actor run.authorizationSubject ∧ ∃ user, run.agentSubject = .ok user := by
  constructor
  · intro crew hc
    exact ((workflowOutline namedBy_true).reachable tablesKept_nil hc).inv.runs
  · intro crew hc run hr
    have hk := ((workflowOutline namedBy_sameAuthority).reachable tablesKept_nil hc).inv
    have hp := hk.runs run hr
    have hn := hk.named run hr
    exact ⟨hp, hn, (agentAuthorizationSubject_ok_iff hp.trusted).2 hn⟩

/-! ### Runs that are retried -/

/-- The JSON of a port. -/
def portJson (name : String) : Json :=
  .arr [.obj [("name", .str name), ("schemaId", .str "order.v1")]]

/-- One input wired to one output. -/
def orderGraph : WorkflowGraph :=
  { wireGraph "order.v1" [("order.v1", [])] with
    raw := .obj [ ("schemaVersion", .num 1), ("nodes", .arr [
        .obj [("id", .str "wire.in"), ("label", .str "In"), ("type", .str "input"),
          ("inputPorts", .arr []), ("outputPorts", portJson "data")],
        .obj [("id", .str "wire.out"), ("label", .str "Out"), ("type", .str "output"),
          ("inputPorts", portJson "input"), ("outputPorts", .arr [])]]),
      ("edges", .arr [.obj [("id", .str "wire.edge"),
        ("source", .obj [("nodeId", .str "wire.in"), ("port", .str "data")]),
        ("target", .obj [("nodeId", .str "wire.out"), ("port", .str "input")])]]),
      ("schemas", .obj [("order.v1", .obj [])]),
      ("layout", .obj [])] }

/-- The person who starts the run. -/
def runner : Actor :=
  .user "ada" "Ada"

/-- Another person, who may run workflows too. -/
def colleague : Actor :=
  .user "ben" "Ben"

/-- A workflow is created, saved, published and run by one person, the run fails, and it is retried. -/
def retryScript [Host] (actor : Actor) : List (Crew.Turn WorkflowRequest WorkflowChoice) :=
  let catalog := simulatedCatalog orderGraph
  [.start (.create ⟨"t", "orders", "Orders", "", runner⟩), .move 0 { id := "w" },
    .start (.update ⟨"t", "w", 1, "Orders", "", orderGraph⟩), .move 0 { id := "a1" }, .move 0 { id := "a2" },
    .start (.publish ⟨"t", "w", 2, runner, []⟩), .move 0 { id := "a3", catalog },
    .move 0 { id := "a4", catalog },
    .start (.enqueue ⟨"orders", "order-0001", .null⟩ ⟨"t", runner, none, [runsExecute]⟩),
    .move 0 { id := "b1" }, .move 0 { id := "b2" }, .move 0 { id := "b3", catalog },
    .move 0 { id := "run", payloadId := "input" },
    .start (.change (.settle "t" "run" .failed)), .move 0 { id := "b4" },
    .start (.retry ⟨"t", "run", actor, [runsExecute]⟩), .move 0 { id := "c1" },
    .move 0 { id := "c2", catalog }, .move 0 { id := "again", payloadId := "input2" }]

/-- The runs of a crew, with the subject the agents module accepts them with. -/
def runSubjects (crew : Crew WorkflowTables WorkflowProcess) : List (String × Option Actor) :=
  crew.shared.runs.map fun run => (run.id, run.agentSubject.toOption)

/-- A run that its own actor retries. -/
theorem run_authority_retried :
    ∃ crew, Crew.Reachable (@workflowMachine plainHost) SameAuthority {} crew ∧
      runSubjects crew = [("run", some runner), ("again", some runner)] ∧
      ∀ run ∈ crew.shared.runs, NamesAuthority run.actor run.authorizationSubject := by
  let _ := plainHost
  have hp : ((Crew.play workflowMachine SameAuthority ⟨{}, []⟩ (retryScript runner)).map
      runSubjects) = some [("run", some runner), ("again", some runner)] := by
    decide +kernel
  obtain ⟨crew, hc, hs⟩ := Option.map_eq_some_iff.1 hp
  have hr := Crew.reachable_of_play hc
  exact ⟨crew, hr, hs, fun run hrun => (run_authority_exact.2 crew hr run hrun).2.1⟩

/-- **A run that a colleague retries is refused by the agents module:** it keeps the subject of the run
before. -/
theorem run_authority_fails :
    ∃ crew, Crew.Reachable (@workflowMachine plainHost) (fun _ _ _ => True) {} crew ∧
      runSubjects crew = [("run", some runner), ("again", none)] := by
  let _ := plainHost
  have hp : ((Crew.play workflowMachine (fun _ _ _ => True) ⟨{}, []⟩ (retryScript colleague)).map
      runSubjects) = some [("run", some runner), ("again", none)] := by
    decide +kernel
  obtain ⟨crew, hc, hs⟩ := Option.map_eq_some_iff.1 hp
  exact ⟨crew, Crew.reachable_of_play hc, hs⟩

end Flowdular.Workflows
