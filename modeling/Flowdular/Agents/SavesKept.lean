/-
# Saves that are not lost

A save writes right where the definition it writes, or deletes, has the revision it names, where a
procedure it archives is attached to no active agent, and where no procedure it attaches to an
active agent is archived (`Fresh`).  Of an agent that is updated nothing is asked about its
revision: a revision that was read is still stored, or the next one is retained (`Seen`), and then
the primary key of the revisions undoes the update.

The checks of the service are made on what was read before, and the statements are guarded by the
id alone: two saves of one procedure that read it before either writes both succeed
(`procedure_saved_twice`).
-/

import Flowdular.Agents.Definitions

namespace Flowdular.Agents

open Lib
open Prog (Abides Along History along_all_bind along_need_bind along_of_all along_ofExcept_bind)
open Revisions (Save Saved mem_of_rowAt rowAt rowAt_drop rowAt_upsert)

/-- A write finds what it is made on. -/
def Fresh (s : DefinitionTables) : DefinitionCall → Prop
  | .updateProcedure procedure expected =>
    ((s.procedure procedure.id).all fun old => old.revision = expected) = true ∧
      (procedure.status = .archived → s.activeDefinitions procedure.id = 0)
  | .deleteProcedure id expected =>
    ((s.procedure id).all fun old => old.revision = expected) = true ∧ s.attachedTo id = []
  | .updateAgent agent _ => agent.status = .active →
      ∀ id ∈ agent.procedureIds, ((s.procedure id).all fun old => old.status ≠ .archived) = true
  | .deleteAgent id expected => ((s.agent id).all fun old => old.revision = expected) = true
  | _ => True

instance (s : DefinitionTables) : (c : DefinitionCall) → Decidable (Fresh s c)
  | .updateProcedure _ _ => inferInstanceAs (Decidable (_ ∧ (_ → _)))
  | .deleteProcedure _ _ => inferInstanceAs (Decidable (_ ∧ _))
  | .updateAgent _ _ => inferInstanceAs (Decidable (_ → _))
  | .deleteAgent _ _ => inferInstanceAs (Decidable (_ = true))
  | .getAgent _ => isTrue trivial
  | .getProcedure _ => isTrue trivial
  | .procedureUsage _ => isTrue trivial
  | .agentUsage _ => isTrue trivial
  | .assertProviderConfigured _ _ => isTrue trivial
  | .assertUsable _ _ => isTrue trivial
  | .appendAuditEvent _ => isTrue trivial

/-- Every write of a run is fresh. -/
def FreshWrites : Machine.Condition DefinitionTables DefinitionProcess := fun s _ p =>
  match p.rest with
  | .call c _ => Fresh s c
  | .pure _ => True
  | .fail _ => True

instance (s : DefinitionTables) (others : List DefinitionProcess) (p : DefinitionProcess) :
    Decidable (FreshWrites s others p) :=
  match h : p.rest with
  | .call c _ => decidable_of_iff (Fresh s c) (by rw [FreshWrites, h])
  | .pure _ => isTrue (by rw [FreshWrites, h]; trivial)
  | .fail _ => isTrue (by rw [FreshWrites, h]; trivial)

theorem of_all {α : Type} {P : α → Prop} [DecidablePred P] {o : Option α} {a : α}
    (h : (o.all fun a => decide (P a)) = true) (ha : o = some a) : P a := by
  rw [ha, Option.all_some] at h
  exact of_decide_eq_true h

/-- **Saves that are not lost.**  No revision of an agent or of a procedure is saved on twice, the
stored revision is the first one and one more for each save, and the contents are those of the last
save; and an archived procedure is attached to no active agent. -/
structure DefinitionsKept (first s : DefinitionTables) : Prop where
  agents : Saved (·.id) (·.revision) first.agents s.agents s.agentSaves
  procedures : Saved (·.id) (·.revision) first.procedures s.procedures s.procedureSaves
  attached : ∀ id procedure, s.procedure id = some procedure → procedure.status = .archived →
    ∀ agentId agent, s.agent agentId = some agent → agent.status = .active →
      id ∉ agent.procedureIds

/-! ### What a call does -/

/-- What a call does to the tables: nothing, or one save. -/
inductive SaveEffect (s s' : DefinitionTables) : DefinitionCall → Prop
  | quiet (c : DefinitionCall) (hs : s' = s) : SaveEffect s s' c
  | putAgent (agent stored : AgentDefinition) (expected : ℤ) (hstored : stored = { agent with
        temperature := DefinitionTables.storedTemperature agent.temperature })
      (hfound : s.agent agent.id ≠ none) (hnew : (agent.id, agent.revision) ∉ s.retained)
      (hs : s' = { s with
        agents := Table.upsert (·.id) stored s.agents
        retained := (agent.id, agent.revision) :: s.retained
        agentSaves := ⟨agent.id, expected, some stored⟩ :: s.agentSaves }) :
      SaveEffect s s' (.updateAgent agent expected)
  | dropAgent (id : String) (expected : ℤ) (hfound : s.agent id ≠ none) (hs : s' = { s with
        agents := s.agents.filter fun agent => agent.id ≠ id
        agentSaves := ⟨id, expected, none⟩ :: s.agentSaves }) :
      SaveEffect s s' (.deleteAgent id expected)
  | putProcedure (procedure : AgentProcedure) (expected : ℤ)
      (hfound : s.procedure procedure.id ≠ none)
      (hs : s' = { s with
        procedures := Table.upsert (·.id) procedure s.procedures
        procedureSaves := ⟨procedure.id, expected, some procedure⟩ :: s.procedureSaves }) :
      SaveEffect s s' (.updateProcedure procedure expected)
  | dropProcedure (id : String) (expected : ℤ) (hfound : s.procedure id ≠ none)
      (hs : s' = { s with
        agents := s.agents.map (DefinitionTables.detach id)
        procedures := s.procedures.filter fun procedure => procedure.id ≠ id
        procedureSaves := ⟨id, expected, none⟩ :: s.procedureSaves }) :
      SaveEffect s s' (.deleteProcedure id expected)

variable {s : DefinitionTables} {c : DefinitionCall}

theorem perform_effect (c : DefinitionCall) (choice : DefinitionChoice) :
    SaveEffect s (c.perform choice s).2 c := by
  cases c with
  | updateAgent agent expected =>
    change SaveEffect s (s.committed (s.updateAgent agent expected)).2 (.updateAgent agent expected)
    rw [DefinitionTables.updateAgent]
    split_ifs with hf hk hp hr
    · exact .quiet _ rfl
    · exact .quiet _ rfl
    · exact .quiet _ rfl
    · exact .quiet _ rfl
    · exact .putAgent agent _ expected rfl hf hr rfl
  | deleteAgent id expected =>
    change SaveEffect s (s.deleteAgent id expected).2 (.deleteAgent id expected)
    rw [DefinitionTables.deleteAgent]
    split_ifs with hf
    · exact .quiet _ rfl
    · exact .dropAgent id expected hf rfl
  | updateProcedure procedure expected =>
    change SaveEffect s (s.committed (s.updateProcedure procedure expected)).2
      (.updateProcedure procedure expected)
    rw [DefinitionTables.updateProcedure]
    split_ifs with hf hk
    · exact .quiet _ rfl
    · exact .quiet _ rfl
    · exact .putProcedure procedure expected hf rfl
  | deleteProcedure id expected =>
    change SaveEffect s (s.deleteProcedure id expected).2 (.deleteProcedure id expected)
    rw [DefinitionTables.deleteProcedure]
    split_ifs with hf
    · exact .quiet _ rfl
    · exact .dropProcedure id expected hf rfl
  | _ => exact .quiet _ rfl

theorem serve_effect (c : DefinitionCall) (choice : DefinitionChoice) :
    SaveEffect s (c.serve s choice).2 c := by
  have hp := perform_effect (s := s) c choice
  rw [DefinitionCall.serve]
  rcases choice.fails with _ | ⟨_ | _, error⟩
  · exact hp
  · exact .quiet _ rfl
  · exact hp

/-! ### What the programs call -/

/-- What a call of a save may write, behind what was read. -/
def Behind (history : History DefinitionCall (Prog.Reply DefinitionCall.Answer)) :
    DefinitionCall → Prop
  | .updateProcedure procedure expected => procedure.revision = expected + 1
  | .updateAgent agent expected => agent.revision = expected + 1 ∧
      ∃ id existing, ⟨.getAgent id, .ok (some existing)⟩ ∈ history ∧ existing.id = agent.id ∧
        existing.revision = expected
  | _ => True

/-- The call updates nothing. -/
def DefinitionCall.Quiet : DefinitionCall → Prop
  | .updateProcedure .. => False
  | .updateAgent .. => False
  | _ => True

theorem behind_of_quiet (history : History DefinitionCall (Prog.Reply DefinitionCall.Answer))
    (c : DefinitionCall) (h : c.Quiet) : Behind history c := by
  cases c with
  | updateProcedure procedure expected => exact h.elim
  | updateAgent agent expected => exact h.elim
  | _ => trivial

section Programs

variable {α : Type} {history : History DefinitionCall (Prog.Reply DefinitionCall.Answer)}

variable {P : DefinitionCall → Prop} {p : DefinitionService α} {now : ℤ}

theorem all_ofExcept (x : Except String α) :
    Discipline.All P (Prog.ofExcept x : DefinitionService α) := by
  cases x <;> trivial

theorem all_call {c : DefinitionCall} (h : P c) : Discipline.All P (definitionCall c) := by
  refine ⟨h, fun r => ?_⟩
  cases r <;> trivial

theorem all_requireSkill (procedureId : String) :
    Discipline.All DefinitionCall.Quiet (requireSkill procedureId) := by
  rw [requireSkill]
  exact Discipline.all_bind (all_ofExcept _) fun _ =>
    Discipline.all_bind (all_call trivial) fun _ => all_ofExcept _

theorem all_requireAgent (agentId : String) :
    Discipline.All DefinitionCall.Quiet (requireAgent agentId) := by
  rw [requireAgent]
  exact Discipline.all_bind (all_ofExcept _) fun _ =>
    Discipline.all_bind (all_call trivial) fun _ => all_ofExcept _

theorem all_assertSkillCanArchive (archives : Bool) (procedureId : String) :
    Discipline.All DefinitionCall.Quiet (assertSkillCanArchive archives procedureId) := by
  cases archives with
  | false => trivial
  | true => exact Discipline.all_bind (all_call trivial) fun _ => all_ofExcept _

theorem all_assertUsable (active : Bool) (provider model : String) :
    Discipline.All DefinitionCall.Quiet (assertUsable active provider model) := by
  cases active with
  | false => trivial
  | true => exact all_call trivial

theorem all_resolveSkills (requireActive : Bool) (procedureIds : List String) :
    Discipline.All DefinitionCall.Quiet (resolveSkills requireActive procedureIds) := by
  induction procedureIds with
  | nil => trivial
  | cons procedureId procedureIds ih =>
    exact Discipline.all_bind (all_call trivial) fun _ => Discipline.all_bind (all_ofExcept _) fun _ =>
      Discipline.all_bind ih fun _ => trivial

theorem all_deleteProcedure (tenantId procedureId actorId : String) (expectedRevision now : ℤ) :
    Discipline.All DefinitionCall.Quiet
      (deleteProcedure tenantId procedureId actorId expectedRevision now) := by
  rw [deleteProcedure]
  exact Discipline.all_bind (all_ofExcept _) fun _ => Discipline.all_bind (all_requireSkill _) fun _ =>
    Discipline.all_bind (all_ofExcept _) fun _ => Discipline.all_bind (all_ofExcept _) fun _ =>
      Discipline.all_bind (all_call trivial) fun _ => Discipline.all_bind (all_ofExcept _) fun _ =>
        Discipline.all_bind (all_call trivial) fun _ => Discipline.all_bind (all_ofExcept _) fun _ =>
          Discipline.all_bind (all_ofExcept _) fun _ => all_call trivial

theorem all_deleteAgent (tenantId agentId actorId : String) (expectedRevision now : ℤ) :
    Discipline.All DefinitionCall.Quiet
      (deleteAgent tenantId agentId actorId expectedRevision now) := by
  rw [deleteAgent]
  exact Discipline.all_bind (all_ofExcept _) fun _ => Discipline.all_bind (all_ofExcept _) fun _ =>
    Discipline.all_bind (all_ofExcept _) fun _ => Discipline.all_bind (all_requireAgent _) fun _ =>
      Discipline.all_bind (all_ofExcept _) fun _ => Discipline.all_bind (all_ofExcept _) fun _ =>
        Discipline.all_bind (all_call trivial) fun _ => Discipline.all_bind (all_ofExcept _) fun _ =>
          Discipline.all_bind (all_ofExcept _) fun _ => Discipline.all_bind (all_call trivial) fun _ =>
            Discipline.all_bind (all_ofExcept _) fun _ => Discipline.all_bind (all_ofExcept _) fun _ =>
              all_call trivial

/-- A program that updates nothing. -/
theorem along_quiet (h : Discipline.All DefinitionCall.Quiet p) : Along Behind history p :=
  along_of_all behind_of_quiet h

theorem check_eq_ok {condition : Prop} [Decidable condition] {error : String} {u : Unit}
    (h : check condition error = .ok u) : condition := by
  rw [check] at h
  split_ifs at h with hc
  exact hc

variable [AgentHost]

theorem updatedProcedure_revision {existing updated : AgentProcedure} {actorId : String}
    {input : UpdateAgentProcedureInput}
    (h : updatedProcedure existing actorId input now = .ok updated) :
    updated.revision = existing.revision + 1 := by
  rw [updatedProcedure] at h
  obtain ⟨_, -, h⟩ := Lib.bind_eq_ok h
  obtain ⟨_, -, h⟩ := Lib.bind_eq_ok h
  obtain ⟨_, -, h⟩ := Lib.bind_eq_ok h
  obtain ⟨_, -, h⟩ := Lib.bind_eq_ok h
  obtain ⟨_, -, h⟩ := Lib.bind_eq_ok h
  obtain ⟨_, -, h⟩ := Lib.bind_eq_ok h
  obtain ⟨_, -, h⟩ := Lib.bind_eq_ok h
  rw [← Except.ok.inj h]

theorem updatedAgent_revision {existing updated : AgentDefinition} {actorId : String}
    {input : UpdateAgentInput} {provider model : String} {allowedTools procedureIds : List String}
    (h : updatedAgent existing actorId input provider model allowedTools procedureIds now =
      .ok updated) : updated.id = existing.id ∧ updated.revision = existing.revision + 1 := by
  rw [updatedAgent] at h
  obtain ⟨_, -, h⟩ := Lib.bind_eq_ok h
  obtain ⟨_, -, h⟩ := Lib.bind_eq_ok h
  obtain ⟨_, -, h⟩ := Lib.bind_eq_ok h
  obtain ⟨_, -, h⟩ := Lib.bind_eq_ok h
  obtain ⟨_, -, h⟩ := Lib.bind_eq_ok h
  obtain ⟨_, -, h⟩ := Lib.bind_eq_ok h
  rw [← Except.ok.inj h]
  exact ⟨rfl, rfl⟩

omit [AgentHost] in
/-- What follows a program that updates nothing. -/
theorem along_quiet_bind {β : Type} {f : α → DefinitionService β}
    (hp : Discipline.All DefinitionCall.Quiet p)
    (hf : ∀ a history', (∀ entry ∈ history, entry ∈ history') → Along Behind history' (f a)) :
    Along Behind history (p >>= f) :=
  along_all_bind behind_of_quiet hp fun a _ _ =>
    hf a _ fun _ he => List.mem_append_left _ he

theorem along_updateProcedure (tenantId procedureId actorId : String)
    (input : UpdateAgentProcedureInput) (now : ℤ) :
    Along Behind history (updateProcedure tenantId procedureId actorId input now) := by
  rw [updateProcedure]
  refine along_quiet_bind (all_ofExcept _) fun _ history' _ => ?_
  refine along_quiet_bind (all_requireSkill _) fun existing history' _ => ?_
  refine along_ofExcept_bind fun _ hr => ?_
  refine along_quiet_bind (all_assertSkillCanArchive _ _) fun _ history' _ => ?_
  refine along_ofExcept_bind fun updated hu => ?_
  have hb : Behind history' (.updateProcedure updated input.expectedRevision) := by
    change updated.revision = input.expectedRevision + 1
    rw [updatedProcedure_revision hu, check_eq_ok hr]
  refine along_need_bind hb fun free => ?_
  refine along_quiet_bind (all_ofExcept _) fun _ history' _ => ?_
  exact along_quiet (Discipline.all_bind (all_call trivial) fun _ => trivial)

theorem along_updateAgent (tenantId agentId actorId : String) (input : UpdateAgentInput) (now : ℤ) :
    Along Behind history (updateAgent tenantId agentId actorId input now) := by
  rw [updateAgent]
  refine along_quiet_bind (all_ofExcept _) fun _ history₁ _ => ?_
  refine along_quiet_bind (all_ofExcept _) fun id history₂ _ => ?_
  refine along_quiet_bind (all_ofExcept _) fun _ history₃ _ => ?_
  refine along_need_bind trivial fun found => ?_
  refine along_ofExcept_bind fun existing he => ?_
  have hf : found = some existing := by
    cases found with
    | none => cases he
    | some agent => exact congrArg some (Except.ok.inj he)
  refine along_ofExcept_bind fun _ hr => ?_
  refine along_ofExcept_bind fun provider _ => ?_
  refine along_ofExcept_bind fun model _ => ?_
  refine along_quiet_bind (all_call trivial) fun _ history₄ h₄ => ?_
  refine along_quiet_bind (all_assertUsable _ _ _) fun _ history₅ h₅ => ?_
  refine along_ofExcept_bind fun allowedTools _ => ?_
  refine along_ofExcept_bind fun _ _ => ?_
  refine along_ofExcept_bind fun procedureIds _ => ?_
  refine along_quiet_bind (all_resolveSkills _ _) fun skills history₆ h₆ => ?_
  refine along_ofExcept_bind fun _ _ => ?_
  refine along_ofExcept_bind fun updated hu => ?_
  obtain ⟨hid, hn⟩ := updatedAgent_revision hu
  have hread : (⟨.getAgent id, .ok (some existing)⟩ :
      Σ c, Prog.Reply DefinitionCall.Answer c) ∈ history₆ := by
    refine h₆ _ (h₅ _ (h₄ _ ?_))
    rw [← hf]
    exact List.mem_append_right _ (List.mem_singleton.2 rfl)
  have hexp : input.expectedRevision = existing.revision := check_eq_ok hr
  have hb : Behind history₆ (.updateAgent updated input.expectedRevision) := by
    refine ⟨?_, id, existing, hread, hid.symm, hexp.symm⟩
    rw [hn, hexp]
  refine along_need_bind hb fun free => ?_
  refine along_quiet_bind (all_ofExcept _) fun _ history₇ _ => ?_
  exact along_quiet (Discipline.all_bind (all_call trivial) fun _ => trivial)

/-- **Every update of a save** is behind what it read. -/
theorem along_save (r : DefinitionRequest) : Along Behind [] r.program := by
  cases r with
  | updateProcedure tenantId procedureId actorId input now =>
    exact Prog.along_bind (along_updateProcedure ..) fun _ _ _ => .pure
  | archiveProcedure tenantId procedureId actorId expectedRevision now =>
    refine Prog.along_bind ?_ fun _ _ _ => .pure
    rw [Agents.archiveProcedure]
    refine along_quiet_bind (all_ofExcept _) fun _ _ _ => ?_
    exact along_quiet_bind (all_requireSkill _) fun _ _ _ => along_updateProcedure ..
  | deleteProcedure tenantId procedureId actorId expectedRevision now =>
    exact along_quiet (all_deleteProcedure ..)
  | updateAgent tenantId agentId actorId input now =>
    exact Prog.along_bind (along_updateAgent ..) fun _ _ _ => .pure
  | archiveAgent tenantId agentId actorId expectedRevision now =>
    refine Prog.along_bind ?_ fun _ _ _ => .pure
    rw [Agents.archiveAgent]
    refine along_quiet_bind (all_ofExcept _) fun _ _ _ => ?_
    refine along_quiet_bind (all_ofExcept _) fun _ _ _ => ?_
    refine along_quiet_bind (all_ofExcept _) fun _ _ _ => ?_
    exact along_quiet_bind (all_requireAgent _) fun _ _ _ => along_updateAgent ..
  | deleteAgent tenantId agentId actorId expectedRevision now =>
    exact along_quiet (all_deleteAgent ..)

end Programs

/-! ### What a save keeps -/

section Steps

variable {first s s' : DefinitionTables} {c : DefinitionCall}

/-- A revision that was read is still stored, or the next one is retained, or the agent is gone. -/
def Seen (s : DefinitionTables) (id : String) (revision : ℤ) : Prop :=
  s.agent id = none ∨ (∃ agent, s.agent id = some agent ∧ agent.revision = revision) ∨
    (id, revision + 1) ∈ s.retained

variable {id : String} {expected : ℤ}

theorem agent_upsert {agents : List AgentDefinition} {agent : AgentDefinition} :
    rowAt (·.id) (Table.upsert (·.id) agent agents) id =
      if id = agent.id then some agent else rowAt (·.id) agents id :=
  rowAt_upsert

/-- A procedure that is attached to no agent goes with no assignment. -/
theorem map_detach (h : s.attachedTo id = []) :
    s.agents.map (DefinitionTables.detach id) = s.agents := by
  rw [DefinitionTables.attachedTo, List.filter_eq_nil_iff] at h
  conv_rhs => rw [← List.map_id s.agents]
  refine List.map_congr_left fun agent ha => ?_
  have hn : id ∉ agent.procedureIds := by simpa using h agent ha
  rw [DefinitionTables.detach, List.filter_eq_self.2 fun other ho => ?_]
  · rfl
  · exact decide_eq_true fun heq => hn (heq ▸ ho)

/-- Where an update takes effect, the revision it was made on is stored. -/
theorem expected_of_seen {agent : AgentDefinition}
    (hs : Seen s agent.id expected) (hn : agent.revision = expected + 1)
    (hf : s.agent agent.id ≠ none) (hnew : (agent.id, agent.revision) ∉ s.retained) :
    ∃ old, s.agent agent.id = some old ∧ old.revision = expected := by
  rcases hs with hg | hsto | hr
  · exact absurd hg hf
  · exact hsto
  · rw [hn] at hnew
    exact absurd hr hnew

/-- What the call of a save knows of the agent it updates. -/
def SeenBy (s : DefinitionTables) : DefinitionCall → Prop
  | .updateAgent agent expected => Seen s agent.id expected ∧ agent.revision = expected + 1
  | .updateProcedure procedure expected => procedure.revision = expected + 1
  | _ => True

/-- **What was read stays seen**, whatever is saved. -/
theorem SaveEffect.seen (h : SaveEffect s s' c) (hfre : Fresh s c) (hby : SeenBy s c)
    {revision : ℤ} (hseen : Seen s id revision) : Seen s' id revision := by
  cases h with
  | quiet _ heq =>
    rw [heq]
    exact hseen
  | putAgent agent stored expected hsto hf hn heq =>
    have hid : stored.id = agent.id := by rw [hsto]
    have hrevision : stored.revision = agent.revision := by rw [hsto]
    obtain ⟨old, hold, he⟩ := expected_of_seen hby.1 hby.2 hf hn
    have ha : s'.agent id = if id = stored.id then some stored else s.agent id := by
      rw [heq]
      exact agent_upsert
    have hr : s'.retained = (agent.id, agent.revision) :: s.retained := by rw [heq]
    rw [Seen, ha, hr]
    rcases hseen with hg | ⟨agent', hsto', hrev⟩ | hm
    · have hne : id ≠ stored.id := by
        rintro rfl
        rw [hid, hold] at hg
        cases hg
      rw [if_neg hne]
      exact .inl hg
    · by_cases hs : id = stored.id
      · refine .inr (.inr ?_)
        rw [hs, hid, hold] at hsto'
        have heq' : agent.revision = revision + 1 := by
          rw [hby.2, ← he, Option.some.inj hsto', hrev]
        rw [hs, hid, heq']
        exact List.mem_cons_self
      · rw [if_neg hs]
        exact .inr (.inl ⟨agent', hsto', hrev⟩)
    · exact .inr (.inr (List.mem_cons_of_mem _ hm))
  | dropAgent id' expected hf heq =>
    have ha : s'.agent id = if id = id' then none else s.agent id := by
      rw [heq]
      exact rowAt_drop
    rw [Seen, ha]
    by_cases hs : id = id'
    · exact .inl (if_pos hs)
    · rw [if_neg hs, heq]
      exact hseen
  | putProcedure procedure expected hf heq =>
    rw [heq]
    exact hseen
  | dropProcedure id' expected hf heq =>
    have hage : s'.agents = s.agents := by
      rw [heq]
      exact map_detach hfre.2
    rw [Seen, DefinitionTables.agent, hage, heq]
    exact hseen

/-- An agent that is updated, over the revision it was made on. -/
theorem kept_putAgent (h : DefinitionsKept first s) {agent stored : AgentDefinition}
    (hsto : stored = { agent with
      temperature := DefinitionTables.storedTemperature agent.temperature })
    (hf : Fresh s (.updateAgent agent expected)) (hn : agent.revision = expected + 1)
    (hold : ∃ old, s.agent agent.id = some old ∧ old.revision = expected) :
    DefinitionsKept first { s with
      agents := Table.upsert (·.id) stored s.agents
      retained := (agent.id, agent.revision) :: s.retained
      agentSaves := ⟨agent.id, expected, some stored⟩ :: s.agentSaves } := by
  obtain ⟨old, hold, he⟩ := hold
  have hid : stored.id = agent.id := by rw [hsto]
  have hr : stored.revision = agent.revision := by rw [hsto]
  refine ⟨?_, h.procedures, fun id procedure hp harc agentId agent' hage' ha => ?_⟩
  · have hold' : rowAt (·.id) s.agents stored.id = some old := by
      rw [hid]
      exact hold
    have hput := h.agents.put hold' (by rw [hr, hn, he])
    rw [hid, he] at hput
    exact hput
  · have hl : (if agentId = stored.id then some stored else s.agent agentId) = some agent' :=
      agent_upsert.symm.trans hage'
    split_ifs at hl with hs
    · rw [← Option.some.inj hl] at ha ⊢
      intro hm
      rw [hsto] at ha hm
      exact of_all (hf ha id hm) hp harc
    · exact h.attached id procedure hp harc agentId agent' hl ha

/-- A procedure that is updated, over the revision it was made on. -/
theorem kept_putProcedure (h : DefinitionsKept first s) {procedure : AgentProcedure}
    (hfre : Fresh s (.updateProcedure procedure expected)) (hn : procedure.revision = expected + 1)
    (hf : s.procedure procedure.id ≠ none) :
    DefinitionsKept first { s with
      procedures := Table.upsert (·.id) procedure s.procedures
      procedureSaves := ⟨procedure.id, expected, some procedure⟩ :: s.procedureSaves } := by
  obtain ⟨old, hold⟩ := Option.ne_none_iff_exists'.1 hf
  have he : old.revision = expected :=
    of_all (P := fun old : AgentProcedure => old.revision = expected) hfre.1 hold
  refine ⟨h.agents, ?_, fun id procedure' hpro' ha agentId agent hage hact => ?_⟩
  · have hp := h.procedures.put hold (by rw [hn, he])
    rw [he] at hp
    exact hp
  · have hl : (if id = procedure.id then some procedure else s.procedure id) = some procedure' :=
      rowAt_upsert.symm.trans hpro'
    split_ifs at hl with hs
    · rw [← Option.some.inj hl] at ha
      have hz := hfre.2 ha
      rw [DefinitionTables.activeDefinitions, List.countP_eq_zero] at hz
      intro hm
      have hatt : agent ∈ s.attachedTo procedure.id :=
        List.mem_filter.2 ⟨(mem_of_rowAt hage).1, decide_eq_true (hs ▸ hm)⟩
      exact hz agent hatt (decide_eq_true hact)
    · exact h.attached id procedure' hl ha agentId agent hage hact

/-- **A save keeps what is saved.** -/
theorem SaveEffect.kept (h : SaveEffect s s' c) (hk : DefinitionsKept first s) (hfre : Fresh s c)
    (hby : SeenBy s c) : DefinitionsKept first s' := by
  cases h with
  | quiet _ heq =>
    rw [heq]
    exact hk
  | putAgent agent stored expected hsto hf hn heq =>
    rw [heq]
    exact kept_putAgent hk hsto hfre hby.2 (expected_of_seen hby.1 hby.2 hf hn)
  | dropAgent id expected hf heq =>
    rw [heq]
    obtain ⟨old, hold⟩ := Option.ne_none_iff_exists'.1 hf
    have he : old.revision = expected :=
      of_all (P := fun old : AgentDefinition => old.revision = expected) hfre hold
    refine ⟨?_, hk.procedures, fun id' procedure hp ha agentId agent hage => ?_⟩
    · have hd := hk.agents.drop hold
      rw [he] at hd
      exact hd
    · have hl : (if agentId = id then none else s.agent agentId) = some agent :=
        rowAt_drop.symm.trans hage
      split_ifs at hl with hs
      exact hk.attached id' procedure hp ha agentId agent hl
  | putProcedure procedure expected hf heq =>
    rw [heq]
    exact kept_putProcedure hk hfre hby hf
  | dropProcedure id expected hf heq =>
    rw [heq, map_detach hfre.2]
    obtain ⟨old, hold⟩ := Option.ne_none_iff_exists'.1 hf
    have he : old.revision = expected :=
      of_all (P := fun old : AgentProcedure => old.revision = expected) hfre.1 hold
    refine ⟨hk.agents, ?_, fun id' procedure hp => ?_⟩
    · have hd := hk.procedures.drop hold
      rw [he] at hd
      exact hd
    · have hl : (if id' = id then none else s.procedure id') = some procedure :=
        rowAt_drop.symm.trans hp
      split_ifs at hl with hs
      exact hk.attached id' procedure hl

end Steps

/-! ### The crew -/

/-- What a process knows: its updates are behind what it read, and what it read stays seen. -/
structure DefinitionKnows (s : DefinitionTables) (p : DefinitionProcess) : Prop where
  abides : Abides Behind p
  seen : ∀ id existing, ⟨.getAgent id, .ok (some existing)⟩ ∈ p.history →
    Seen s existing.id existing.revision

/-- The next call of a process is behind what it has seen. -/
theorem DefinitionKnows.seenBy {p : DefinitionProcess}
    {next : Prog.Reply DefinitionCall.Answer c → DefinitionService Unit} (h : DefinitionKnows s p)
    (hrest : p.rest = .call c next) : SeenBy s c := by
  have ha := h.abides.along
  rw [hrest] at ha
  have hb : Behind p.history c := ha.ok_call
  cases c with
  | updateAgent agent expected =>
    obtain ⟨hn, id, existing, hread, hid, hr⟩ := hb
    have hs := h.seen id existing hread
    rw [hid, hr] at hs
    exact ⟨hs, hn⟩
  | updateProcedure procedure expected => exact hb
  | _ => trivial

/-- An agent that is read is seen. -/
theorem seen_of_read {choice : DefinitionChoice} {id : String} {existing : AgentDefinition}
    (h : (⟨.getAgent id, .ok (some existing)⟩ : Σ c, Prog.Reply DefinitionCall.Answer c) =
      ⟨c, (c.serve s choice).1⟩) :
    Seen (c.serve s choice).2 existing.id existing.revision := by
  obtain ⟨rfl, hr⟩ := Sigma.mk.inj h
  have hr := eq_of_heq hr
  rw [DefinitionCall.serve] at hr ⊢
  cases hf : choice.fails with
  | some failure =>
    rw [hf] at hr
    cases hr
  | none =>
    rw [hf] at hr
    have hs : s.agent id = some existing := (Except.ok.inj hr).symm
    have hid : existing.id = id := (mem_of_rowAt hs).2
    refine .inr (.inl ⟨existing, ?_, rfl⟩)
    rw [hid]
    exact hs

section

variable [AgentHost] {first : DefinitionTables} {crew : Crew DefinitionTables DefinitionProcess}

/-- **The outline of the saves.** -/
def savesOutline (first : DefinitionTables) : Outline definitionSaves FreshWrites where
  inv := DefinitionsKept first
  knows := DefinitionKnows
  apart _ _ := True
  apart_symm _ := trivial
  start {s r p} _ henter := by
    have hp : p = ⟨[], r.program⟩ := (Option.some.inj henter).symm
    rw [hp]
    refine ⟨⟨Prog.abides_start (along_save r), ?_⟩, fun _ _ => trivial⟩
    exact fun _ _ hmem => absurd hmem List.not_mem_nil
  stop hinv _ := hinv
  stop_other _ _ hq _ := hq
  move {s others p choice s' p'} hinv hp _ hcond hnext := by
    obtain ⟨c, next, hrest, hs', hp'⟩ := Prog.recorder_next hnext
    have hfresh : Fresh s c := by
      rw [FreshWrites, hrest] at hcond
      exact hcond
    have hby := hp.seenBy hrest
    have heffect : SaveEffect s (c.serve s choice).2 c := serve_effect c choice
    rw [hs', hp']
    refine ⟨heffect.kept hinv hfresh hby, hp.abides.move hrest _, fun id existing hmem => ?_⟩
    rcases List.mem_append.1 hmem with hmem | hmem
    · exact heffect.seen hfresh hby (hp.seen id existing hmem)
    · exact seen_of_read (List.mem_singleton.1 hmem)
  move_other {s others p choice s' p' q} _ hp hothers hcond hnext hq := by
    obtain ⟨c, next, hrest, hs', hp'⟩ := Prog.recorder_next hnext
    have hfresh : Fresh s c := by
      rw [FreshWrites, hrest] at hcond
      exact hcond
    have heffect : SaveEffect s (c.serve s choice).2 c := serve_effect c choice
    rw [hs']
    refine ⟨⟨(hothers q hq).1.abides, fun id existing hmem => ?_⟩, trivial⟩
    exact heffect.seen hfresh (hp.seenBy hrest) ((hothers q hq).1.seen id existing hmem)

/-- **No save is lost**, where each writes on what it names. -/
theorem saves_kept (hagents : first.agentSaves = []) (hprocedures : first.procedureSaves = [])
    (hattached : ∀ id procedure, first.procedure id = some procedure → procedure.status = .archived →
      ∀ agentId agent, first.agent agentId = some agent → agent.status = .active →
        id ∉ agent.procedureIds)
    (h : Crew.Reachable definitionSaves FreshWrites first crew) :
    DefinitionsKept first crew.shared := by
  have hs : DefinitionsKept first first := by
    refine ⟨?_, ?_, hattached⟩
    · rw [hagents]
      exact Revisions.saved_nil
    · rw [hprocedures]
      exact Revisions.saved_nil
  have hh := (savesOutline first).reachable hs h
  exact hh.inv

end

/-! ### Runs -/

/-- A harness without tools. -/
@[reducible] def bareHost : AgentHost where
  tools := []
  lower := id

/-- A procedure that is active. -/
def sampleProcedure : AgentProcedure where
  id := "p1"
  tenantId := "t"
  key := "triage"
  name := "Triage"
  description := "How to triage."
  instructions := "Read the ticket."
  requiredTools := []
  status := .active
  revision := 1
  createdBy := "ada"
  createdAt := 0
  updatedBy := "ada"
  updatedAt := 0

/-- An agent that is archived. -/
def sampleAgent : AgentDefinition where
  id := "a1"
  tenantId := "t"
  key := "helper"
  name := "Helper"
  description := "Helps."
  instructions := "Be of help."
  provider := "local"
  model := "m"
  allowedTools := []
  procedureIds := []
  maxSteps := 4
  timeoutMs := 1000
  temperature := 0
  maxOutputTokens := 4096
  status := .archived
  revision := 1
  createdBy := "ada"
  createdAt := 0
  updatedBy := "ada"
  updatedAt := 0

/-- The tables with the two of them. -/
def sampleDefinitions : DefinitionTables where
  agents := [sampleAgent]
  procedures := [sampleProcedure]
  retained := [("a1", 1)]

/-- A save of the sample procedure. -/
def sampleUpdate (name actorId : String) : DefinitionRequest :=
  .updateProcedure "t" "p1" actorId
    { key := "triage", name, description := "How to triage.", instructions := "Read the ticket."
      requiredTools := [], status := .active, expectedRevision := 1 } 5

/-- A save of the sample agent, which attaches the procedure. -/
def sampleAttach : DefinitionRequest :=
  .updateAgent "t" "a1" "bob"
    { key := "helper", name := "Helper", description := "Helps.", instructions := "Be of help."
      provider := "", model := "", allowedTools := [], procedureIds := ["p1"], maxSteps := 4
      timeoutMs := 1000, temperature := 1, status := .active, expectedRevision := 1 } 6

/-- What becomes of the sample: the names and revisions that are stored, and the saves. -/
def sampleSaves (crew : Crew DefinitionTables DefinitionProcess) :
    List (String × ℤ) × List (List String × ℤ) × List (String × ℤ) :=
  (crew.shared.procedures.map fun row => (row.name, row.revision),
    crew.shared.agents.map fun row => (row.procedureIds, row.revision),
    crew.shared.procedureSaves.map fun save => (save.key, save.expected))

/-- A procedure is saved, and then attached to an agent that is made active. -/
theorem saves_kept_attached : ∃ crew,
    Crew.Reachable (@definitionSaves bareHost) FreshWrites sampleDefinitions crew ∧
      sampleSaves crew = ([("Sorting", 2)], [(["p1"], 2)], [("p1", 1)]) ∧
      DefinitionsKept sampleDefinitions crew.shared := by
  have hp : (Crew.play (@definitionSaves bareHost) FreshWrites ⟨sampleDefinitions, []⟩
      ([.start (sampleUpdate "Sorting" "ada")] ++ List.replicate 3 (.move 0 {}) ++
        [.start sampleAttach] ++ List.replicate 6 (.move 0 {}))).map sampleSaves =
      some ([("Sorting", 2)], [(["p1"], 2)], [("p1", 1)]) := by decide +kernel
  obtain ⟨crew, hc, hs⟩ := Option.map_eq_some_iff.1 hp
  have hr := Crew.reachable_of_play hc
  refine ⟨crew, hr, hs, @saves_kept bareHost sampleDefinitions crew rfl rfl ?_ hr⟩
  intro id procedure hpro ha
  have hm : procedure = sampleProcedure := List.mem_singleton.1 (mem_of_rowAt hpro).1
  rw [hm] at ha
  cases ha

/-- Two saves that name the same revision of a procedure both succeed, where both read it before
either writes. -/
theorem procedure_saved_twice : ∃ crew,
    Crew.Reachable (@definitionSaves bareHost) (fun _ _ _ => True) sampleDefinitions crew ∧
      sampleSaves crew = ([("Sorting", 2)], [([], 1)], [("p1", 1), ("p1", 1)]) ∧
      ¬ DefinitionsKept sampleDefinitions crew.shared := by
  have hp : (Crew.play (@definitionSaves bareHost) (fun _ _ _ => True) ⟨sampleDefinitions, []⟩
      [.start (sampleUpdate "Sorting" "ada"), .start (sampleUpdate "Filing" "bob"), .move 0 {},
        .move 1 {}, .move 0 {}, .move 1 {}]).map sampleSaves =
      some ([("Sorting", 2)], [([], 1)], [("p1", 1), ("p1", 1)]) := by decide +kernel
  obtain ⟨crew, hc, hs⟩ := Option.map_eq_some_iff.1 hp
  have hk : (crew.shared.procedureSaves.map fun save => (save.key, save.expected)) =
      [("p1", 1), ("p1", 1)] := (Prod.mk.inj (Prod.mk.inj hs).2).2
  refine ⟨crew, Crew.reachable_of_play hc, hs, fun hkept => ?_⟩
  have ho := hkept.procedures.once
  rw [hk] at ho
  exact absurd ho (by decide)

end Flowdular.Agents
