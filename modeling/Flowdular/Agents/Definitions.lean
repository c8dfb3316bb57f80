/-
# Agents and procedures

`src/modules/agents/src/services/agent-service.ts`, lines 139-293 (`bounded` … `status`), 808-944
(`updateProcedure`, `archiveProcedure`, `deleteProcedure`), 1016-1178 (`updateAgent`,
`archiveAgent`, `deleteAgent`) and 2332-2435 (`requireAgent` … `assertSkillToolsAllowed`);
`database-repository.ts`, lines 1042-1098 (the statements), 1436-1448 (`#setAgentSkills`),
1478-1530 (`#retainAgentRevision`) and 2147-2437.

The rows are those of one workspace.  A save reads the definition in one transaction and writes it
in a later one; a transaction is one step.  The primary key of the retained revisions refuses an
agent that is written over a revision it was not read at; nothing else compares revisions in a
statement.  The provider connections, the run history and the clock are answers.
-/

import Flowdular.Agents.Jobs
import Flowdular.Lib.Revisions
import Flowdular.Workflows.Text
import Mathlib.Data.Rat.Init

namespace Flowdular.Agents

open Lib Workflows
open Revisions (Save rowAt)

/-! ### Rows -/

inductive AgentStatus
  | draft
  | active
  | paused
  | archived
deriving DecidableEq

/-- The text of a status. -/
def AgentStatus.text : AgentStatus → String
  | .draft => "draft"
  | .active => "active"
  | .paused => "paused"
  | .archived => "archived"

inductive AgentProcedureStatus
  | draft
  | active
  | archived
deriving DecidableEq

/-- The text of a status. -/
def AgentProcedureStatus.text : AgentProcedureStatus → String
  | .draft => "draft"
  | .active => "active"
  | .archived => "archived"

/-- `AgentDefinition`: a row of `agent_definitions` with its limits and its rows of
`agent_skill_assignments`. -/
structure AgentDefinition where
  id : String
  tenantId : String
  key : String
  name : String
  description : String
  instructions : String
  provider : String
  model : String
  allowedTools : List String
  procedureIds : List String
  maxSteps : ℤ
  timeoutMs : ℤ
  temperature : ℚ
  maxOutputTokens : ℤ
  status : AgentStatus
  revision : ℤ
  createdBy : String
  createdAt : ℤ
  updatedBy : String
  updatedAt : ℤ
deriving DecidableEq

/-- `AgentProcedure`: a row of `agent_skills`. -/
structure AgentProcedure where
  id : String
  tenantId : String
  key : String
  name : String
  description : String
  instructions : String
  requiredTools : List String
  status : AgentProcedureStatus
  revision : ℤ
  createdBy : String
  createdAt : ℤ
  updatedBy : String
  updatedAt : ℤ
deriving DecidableEq

/-- The tables: the definitions and the keys of `agent_definition_revisions`.  The saves that took
effect are history variables: nothing reads them. -/
structure DefinitionTables where
  agents : List AgentDefinition := []
  procedures : List AgentProcedure := []
  retained : List (String × ℤ) := []
  agentSaves : List (Save String AgentDefinition) := []
  procedureSaves : List (Save String AgentProcedure) := []

namespace DefinitionTables

variable (s : DefinitionTables)

/-- `getAgent`. -/
def agent (id : String) : Option AgentDefinition :=
  rowAt (·.id) s.agents id

/-- `getProcedure`. -/
def procedure (id : String) : Option AgentProcedure :=
  rowAt (·.id) s.procedures id

/-- The agents a procedure is attached to. -/
def attachedTo (procedureId : String) : List AgentDefinition :=
  s.agents.filter fun agent => procedureId ∈ agent.procedureIds

/-- `active_definitions` of `procedureUsage`. -/
def activeDefinitions (procedureId : String) : ℕ :=
  (s.attachedTo procedureId).countP (·.status = .active)

/-- The temperature in thousandths, `Math.round`. -/
def storedTemperature (temperature : ℚ) : ℚ :=
  (temperature * 1000 + 1 / 2).floor / 1000

/-- `updateAgent`: whether the key was free, and the tables.  Its transaction is undone where an
attached procedure is missing or the revision is retained already. -/
def updateAgent (agent : AgentDefinition) (expected : ℤ) : Except String (Bool × DefinitionTables) :=
  let stored := { agent with temperature := storedTemperature agent.temperature }
  if s.agent agent.id = none then .error "Agent definition not found."
  else if s.agents.any fun other => other.key = agent.key ∧ other.id ≠ agent.id then .ok (false, s)
  else if agent.procedureIds.any fun id => s.procedure id = none then
    .error "agent_skill_assignments_skill_id_tenant_id_fkey"
  else if (agent.id, agent.revision) ∈ s.retained then .error "agent_definition_revisions_pkey"
  else .ok (true, { s with
    agents := Table.upsert (·.id) stored s.agents
    retained := (agent.id, agent.revision) :: s.retained
    agentSaves := ⟨agent.id, expected, some stored⟩ :: s.agentSaves })

def deleteAgent (id : String) (expected : ℤ) : Bool × DefinitionTables :=
  if s.agent id = none then (false, s)
  else (true, { s with
    agents := s.agents.filter fun agent => agent.id ≠ id
    agentSaves := ⟨id, expected, none⟩ :: s.agentSaves })

/-- `updateProcedure`: whether the key was free, and the tables. -/
def updateProcedure (procedure : AgentProcedure) (expected : ℤ) :
    Except String (Bool × DefinitionTables) :=
  if s.procedure procedure.id = none then .error "Agent skill not found."
  else if s.procedures.any fun other => other.key = procedure.key ∧ other.id ≠ procedure.id then
    .ok (false, s)
  else .ok (true, { s with
    procedures := Table.upsert (·.id) procedure s.procedures
    procedureSaves := ⟨procedure.id, expected, some procedure⟩ :: s.procedureSaves })

/-- An agent behind the deletion of a procedure, which its assignments go with. -/
def detach (procedureId : String) (agent : AgentDefinition) : AgentDefinition :=
  { agent with procedureIds := agent.procedureIds.filter (· ≠ procedureId) }

def deleteProcedure (id : String) (expected : ℤ) : Bool × DefinitionTables :=
  if s.procedure id = none then (false, s)
  else (true, { s with
    agents := s.agents.map (detach id)
    procedures := s.procedures.filter fun procedure => procedure.id ≠ id
    procedureSaves := ⟨id, expected, none⟩ :: s.procedureSaves })

end DefinitionTables

/-! ### Calls -/

/-- The calls of a save.  The revisions that the writes name are not in their statements: only the
history variables take them. -/
inductive DefinitionCall
  | getAgent (id : String)
  | getProcedure (id : String)
  | procedureUsage (id : String)
  | agentUsage (id : String)
  | assertProviderConfigured (provider model : String)
  | assertUsable (provider model : String)
  | updateAgent (agent : AgentDefinition) (expected : ℤ)
  | deleteAgent (id : String) (expected : ℤ)
  | updateProcedure (procedure : AgentProcedure) (expected : ℤ)
  | deleteProcedure (id : String) (expected : ℤ)
  | appendAuditEvent (event : AuditEvent)

/-- `procedureUsage` and `agentUsage`, as far as they are read. -/
structure DefinitionUsage where
  assignments : ℕ
  activeDefinitions : ℕ := 0
  runs : ℕ := 0

/-- What a call is answered with. -/
@[reducible] def DefinitionCall.Answer : DefinitionCall → Type
  | .getAgent _ => Option AgentDefinition
  | .getProcedure _ => Option AgentProcedure
  | .procedureUsage _ => DefinitionUsage
  | .agentUsage _ => DefinitionUsage
  | .assertProviderConfigured .. => Unit
  | .assertUsable .. => Unit
  | .updateAgent .. => Bool
  | .deleteAgent .. => Bool
  | .updateProcedure .. => Bool
  | .deleteProcedure .. => Bool
  | .appendAuditEvent _ => Unit

/-- What an answer leaves open: that it is a failure, behind the commit or without one, and the
number of runs of an agent. -/
structure DefinitionChoice where
  fails : Option (Bool × String) := none
  runs : ℕ := 0

/-- A transaction that may be undone. -/
def DefinitionTables.committed (s : DefinitionTables) :
    Except String (Bool × DefinitionTables) → Except String Bool × DefinitionTables
  | .ok (free, s') => (.ok free, s')
  | .error error => (.error error, s)

/-- A call, where nothing fails outside of it. -/
def DefinitionCall.perform (c : DefinitionCall) (choice : DefinitionChoice) (s : DefinitionTables) :
    Prog.Reply DefinitionCall.Answer c × DefinitionTables :=
  match c with
  | .getAgent id => (.ok (s.agent id), s)
  | .getProcedure id => (.ok (s.procedure id), s)
  | .procedureUsage id => (.ok ⟨(s.attachedTo id).length, s.activeDefinitions id, 0⟩, s)
  | .agentUsage id =>
    (.ok ⟨((s.agent id).map (·.procedureIds.length)).getD 0, 0, choice.runs⟩, s)
  | .assertProviderConfigured .. => (.ok (), s)
  | .assertUsable .. => (.ok (), s)
  | .updateAgent agent expected => s.committed (s.updateAgent agent expected)
  | .deleteAgent id expected => (.ok (s.deleteAgent id expected).1, (s.deleteAgent id expected).2)
  | .updateProcedure procedure expected => s.committed (s.updateProcedure procedure expected)
  | .deleteProcedure id expected =>
    (.ok (s.deleteProcedure id expected).1, (s.deleteProcedure id expected).2)
  | .appendAuditEvent _ => (.ok (), s)

/-- A call, answered. -/
def DefinitionCall.serve (c : DefinitionCall) (s : DefinitionTables) (choice : DefinitionChoice) :
    Prog.Reply DefinitionCall.Answer c × DefinitionTables :=
  match choice.fails with
  | none => c.perform choice s
  | some (kept, error) => (.error error, if kept then (c.perform choice s).2 else s)

/-- A program of calls. -/
abbrev DefinitionService (α : Type) :=
  Prog DefinitionCall (Prog.Reply DefinitionCall.Answer) α

/-- A call of a program. -/
def definitionCall (c : DefinitionCall) : DefinitionService c.Answer :=
  Prog.need c

/-! ### Input -/

/-- `AgentServiceError`, as one text. -/
def agentServiceError (code message : String) (status : ℕ) : String :=
  s!"{status} {code}: {message}"

/-- What holds, or the error. -/
def check (condition : Prop) [Decidable condition] (error : String) : Except String Unit :=
  if condition then .ok () else .error error

@[irreducible] def bounded (value field : String) (minimum maximum : ℕ) : Except String String :=
  let normalized := String.ofList (trimChars value.toList)
  if utf16Length normalized < minimum ∨ maximum < utf16Length normalized then
    .error (agentServiceError "INVALID_INPUT"
      s!"{field} must contain between {minimum} and {maximum} characters." 400)
  else if Char.ofNat 0 ∈ normalized.toList then
    .error (agentServiceError "INVALID_INPUT" s!"{field} contains an unsupported character." 400)
  else .ok normalized

/-- The tools of the harness, and `toLowerCase`. -/
class AgentHost where
  tools : List String
  lower : String → String

/-- `/^[a-z][a-z0-9-]{1,62}[a-z0-9]$/`. -/
def agentKeyPattern (key : List Char) : Bool :=
  3 ≤ key.length && key.length ≤ 64 && isName key &&
    key.getLast?.any fun c => isLowerLetter c || isDigit c

def agentKey [AgentHost] (value : String) : Except String String :=
  let normalized := AgentHost.lower (String.ofList (trimChars value.toList))
  if agentKeyPattern normalized.toList then .ok normalized
  else .error (agentServiceError "INVALID_AGENT_KEY"
    "key must contain 3 to 64 lowercase letters, numbers, or hyphens." 400)

def identifier (value field : String) : Except String String :=
  let normalized := String.ofList (trimChars value.toList)
  if (normalized.toList.splitOn '.').all isName then .ok normalized
  else .error (agentServiceError "INVALID_IDENTIFIER"
    s!"{field} must be a lowercase dot-separated identifier." 400)

def toolList (value : List String) : Except String (List String) :=
  if 32 < value.length then
    .error (agentServiceError "TOOL_LIMIT_EXCEEDED" "An agent can allow at most 32 tools." 400)
  else do
    let tools ← value.mapM fun tool => identifier tool "tool"
    return sortStrings tools.dedup

def procedureIdList (value : List String) : Except String (List String) :=
  if 8 < value.length then
    .error (agentServiceError "SKILL_LIMIT_EXCEEDED" "An agent can attach at most 8 procedures." 400)
  else do
    let ids ← value.mapM fun id => bounded id "procedure id" 1 128
    return sortStrings ids.dedup

def assertToolsRegistered [AgentHost] (tools : List String) : Except String Unit :=
  match tools.find? (· ∉ AgentHost.tools) with
  | some unavailable => .error (agentServiceError "TOOL_NOT_AVAILABLE"
      s!"Tool {unavailable} is not registered." 400)
  | none => .ok ()

def assertSkillToolsAllowed (skills : List AgentProcedure) (allowedTools : List String) :
    Except String Unit :=
  match (skills.flatMap (·.requiredTools)).find? (· ∉ allowedTools) with
  | some unavailable => .error (agentServiceError "SKILL_TOOL_NOT_ALLOWED"
      s!"Attached procedure requires {unavailable}, which the agent does not allow." 409)
  | none => .ok ()

structure UpdateAgentProcedureInput where
  key : String
  name : String
  description : String
  instructions : String
  requiredTools : List String
  status : AgentProcedureStatus
  expectedRevision : ℤ

structure UpdateAgentInput where
  key : String
  name : String
  description : String
  instructions : String
  provider : String
  model : String
  allowedTools : List String
  procedureIds : List String
  maxSteps : ℤ
  timeoutMs : ℤ
  temperature : ℚ
  maxOutputTokens : Option ℤ := none
  status : AgentStatus
  expectedRevision : ℤ

/-- `executionLimits`: the steps, the time, the temperature and the tokens. -/
def executionLimits (input : UpdateAgentInput) (defaultMaxOutputTokens : ℤ) :
    Except String (ℤ × ℤ × ℚ × ℤ) := do
  check (1 ≤ input.maxSteps ∧ input.maxSteps ≤ 32)
    (agentServiceError "INVALID_MAX_STEPS" "maxSteps must be between 1 and 32." 400)
  check (250 ≤ input.timeoutMs ∧ input.timeoutMs ≤ 86400000)
    (agentServiceError "INVALID_TIMEOUT" "timeoutMs must be between 250 and 86400000." 400)
  check (0 ≤ input.temperature ∧ input.temperature ≤ 2)
    (agentServiceError "INVALID_TEMPERATURE" "temperature must be between 0 and 2." 400)
  let maxOutputTokens := input.maxOutputTokens.getD defaultMaxOutputTokens
  check (256 ≤ maxOutputTokens ∧ maxOutputTokens ≤ 65536)
    (agentServiceError "INVALID_MAX_OUTPUT_TOKENS" "maxOutputTokens must be between 256 and 65536." 400)
  return (input.maxSteps, input.timeoutMs, input.temperature, maxOutputTokens)

/-! ### Procedures -/

/-- The error of a procedure that is not there. -/
def skillNotFound : String :=
  agentServiceError "SKILL_NOT_FOUND" "Agent procedure not found." 404

/-- The error of a procedure that changed. -/
def skillRevisionConflict (doing : String) : String :=
  agentServiceError "SKILL_REVISION_CONFLICT"
    s!"The procedure was changed by another request. Reload before {doing}." 409

def requireSkill (procedureId : String) : DefinitionService AgentProcedure := do
  let id ← Prog.ofExcept (bounded procedureId "procedureId" 1 128)
  let found ← definitionCall (.getProcedure id)
  Prog.ofExcept (found.elim (.error skillNotFound) .ok)

/-- `assertSkillCanArchive`, where the procedure is to be archived. -/
def assertSkillCanArchive (archives : Bool) (procedureId : String) : DefinitionService Unit :=
  if archives then do
    let usage ← definitionCall (.procedureUsage procedureId)
    Prog.ofExcept (check (usage.activeDefinitions = 0) (agentServiceError "SKILL_IN_USE"
      "Remove this procedure from every active agent before archiving it." 409))
  else .pure ()

/-- An event of the audit, about a definition. -/
def definitionEvent (tenantId actorId action subjectType subjectId : String)
    (metadata : List (String × Json)) (occurredAt : ℤ) : AuditEvent :=
  { tenantId, actorId, action, subjectType, subjectId, metadata, occurredAt }

section

variable [AgentHost]

/-- The procedure that is stored, behind the checks of `updateProcedure`. -/
def updatedProcedure (existing : AgentProcedure) (actorId : String) (input : UpdateAgentProcedureInput)
    (now : ℤ) : Except String AgentProcedure := do
  let requiredTools ← toolList input.requiredTools
  assertToolsRegistered requiredTools
  let actor ← bounded actorId "actorId" 1 128
  let key ← agentKey input.key
  let name ← bounded input.name "name" 2 120
  let description ← bounded input.description "description" 2 500
  let instructions ← bounded input.instructions "instructions" 8 8000
  return { existing with
    key, name, description, instructions, requiredTools
    status := input.status
    revision := existing.revision + 1
    updatedBy := actor
    updatedAt := now }

def updateProcedure (tenantId procedureId actorId : String) (input : UpdateAgentProcedureInput)
    (now : ℤ) : DefinitionService AgentProcedure := do
  let _ ← Prog.ofExcept (bounded tenantId "tenantId" 1 128)
  let existing ← requireSkill procedureId
  let _ ← Prog.ofExcept (check (input.expectedRevision = existing.revision)
    (skillRevisionConflict "saving"))
  let archives := input.status = .archived && existing.status ≠ .archived
  let _ ← assertSkillCanArchive archives existing.id
  let updated ← Prog.ofExcept (updatedProcedure existing actorId input now)
  let free ← definitionCall (.updateProcedure updated input.expectedRevision)
  let _ ← Prog.ofExcept (check (free = true) (agentServiceError "DUPLICATE_SKILL_KEY"
    "An agent procedure with this key already exists in the active tenant." 409))
  let _ ← definitionCall (.appendAuditEvent (definitionEvent updated.tenantId updated.updatedBy
    (if archives then "agent-skill.archived" else "agent-skill.updated") "agent-skill" updated.id
    [("revision", .num (.ofInt updated.revision)), ("status", .str updated.status.text)] now))
  return updated

def archiveProcedure (tenantId procedureId actorId : String) (expectedRevision now : ℤ) :
    DefinitionService AgentProcedure := do
  let _ ← Prog.ofExcept (bounded tenantId "tenantId" 1 128)
  let existing ← requireSkill procedureId
  updateProcedure tenantId existing.id actorId
    { key := existing.key, name := existing.name, description := existing.description
      instructions := existing.instructions, requiredTools := existing.requiredTools
      status := .archived, expectedRevision } now

end

def deleteProcedure (tenantId procedureId actorId : String) (expectedRevision now : ℤ) :
    DefinitionService Unit := do
  let tenantId ← Prog.ofExcept (bounded tenantId "tenantId" 1 128)
  let existing ← requireSkill procedureId
  let _ ← Prog.ofExcept (check (existing.revision = expectedRevision)
    (skillRevisionConflict "deleting"))
  let _ ← Prog.ofExcept (check (existing.status = .archived) (agentServiceError "SKILL_NOT_ARCHIVED"
    "Archive the procedure before deleting it." 409))
  let usage ← definitionCall (.procedureUsage existing.id)
  let _ ← Prog.ofExcept (check (usage.assignments = 0) (agentServiceError "SKILL_IN_USE"
    "Remove this procedure from every agent before deleting it." 409))
  let deleted ← definitionCall (.deleteProcedure existing.id expectedRevision)
  let _ ← Prog.ofExcept (check (deleted = true) skillNotFound)
  let actorId ← Prog.ofExcept (bounded actorId "actorId" 1 128)
  definitionCall (.appendAuditEvent (definitionEvent tenantId actorId "agent-skill.deleted"
    "agent-skill" existing.id
    [("key", .str existing.key), ("revision", .num (.ofInt existing.revision))] now))

/-! ### Agents -/

/-- The error of an agent that is not there. -/
def agentNotFound : String :=
  agentServiceError "AGENT_NOT_FOUND" "Agent not found." 404

/-- The error of an agent that changed. -/
def agentRevisionConflict (doing : String) : String :=
  agentServiceError "AGENT_REVISION_CONFLICT"
    s!"The agent was changed by another request. Reload before {doing}." 409

def refuseModuleAgentMutation (agentId : String) : Except String Unit :=
  check ("module-agent:".toList.isPrefixOf agentId.toList = false)
    (agentServiceError "MODULE_AGENT_READ_ONLY"
      "Module-owned behavior is read-only. Update its tenant binding instead." 409)

def requireAgent (agentId : String) : DefinitionService AgentDefinition := do
  let id ← Prog.ofExcept (bounded agentId "agentId" 1 128)
  let found ← definitionCall (.getAgent id)
  Prog.ofExcept (found.elim (.error agentNotFound) .ok)

/-- What `resolveSkills` asks of a procedure it found. -/
def checkSkill (requireActive : Bool) : Option AgentProcedure → Except String AgentProcedure
  | none => .error (agentServiceError "SKILL_NOT_FOUND"
      "Attached agent procedure was not found in the active tenant." 409)
  | some procedure =>
    if requireActive = true ∧ procedure.status ≠ .active then
      .error (agentServiceError "SKILL_NOT_ACTIVE"
        s!"Skill {procedure.key} must be active before the agent can run." 409)
    else .ok procedure

def resolveSkills (requireActive : Bool) : List String → DefinitionService (List AgentProcedure)
  | [] => .pure []
  | procedureId :: procedureIds => do
    let found ← definitionCall (.getProcedure procedureId)
    let procedure ← Prog.ofExcept (checkSkill requireActive found)
    let procedures ← resolveSkills requireActive procedureIds
    return procedure :: procedures

/-- The first of two texts that is not empty. -/
def orExisting (value existing : String) : String :=
  if value = "" then existing else value

/-- `assertUsable`, where the agent is to be active. -/
def assertUsable (active : Bool) (provider model : String) : DefinitionService Unit :=
  if active then definitionCall (.assertUsable provider model) else .pure ()

section

variable [AgentHost]

/-- The agent that is stored, behind the checks of `updateAgent`. -/
def updatedAgent (existing : AgentDefinition) (actorId : String) (input : UpdateAgentInput)
    (provider model : String) (allowedTools procedureIds : List String) (now : ℤ) :
    Except String AgentDefinition := do
  let identity ← bounded actorId "actorId" 1 128
  let key ← agentKey input.key
  let name ← bounded input.name "name" 2 120
  let description ← bounded input.description "description" 2 500
  let instructions ← bounded input.instructions "instructions" 8 40000
  let (maxSteps, timeoutMs, temperature, maxOutputTokens) ←
    executionLimits input existing.maxOutputTokens
  return { existing with
    key, name, description, instructions, provider, model, allowedTools, procedureIds
    maxSteps, timeoutMs, temperature, maxOutputTokens
    status := input.status
    revision := existing.revision + 1
    updatedBy := identity
    updatedAt := now }

def updateAgent (tenantId agentId actorId : String) (input : UpdateAgentInput) (now : ℤ) :
    DefinitionService AgentDefinition := do
  let _ ← Prog.ofExcept (bounded tenantId "tenantId" 1 128)
  let id ← Prog.ofExcept (bounded agentId "agentId" 1 128)
  let _ ← Prog.ofExcept (refuseModuleAgentMutation id)
  let found ← definitionCall (.getAgent id)
  let existing ← Prog.ofExcept (found.elim (.error agentNotFound) .ok)
  let _ ← Prog.ofExcept (check (input.expectedRevision = existing.revision)
    (agentRevisionConflict "saving"))
  let provider ← Prog.ofExcept (bounded (orExisting input.provider existing.provider) "provider" 1 128)
  let model ← Prog.ofExcept (bounded (orExisting input.model existing.model) "model" 1 160)
  let _ ← definitionCall (.assertProviderConfigured provider model)
  let _ ← assertUsable (input.status = .active) provider model
  let allowedTools ← Prog.ofExcept (toolList input.allowedTools)
  let _ ← Prog.ofExcept (assertToolsRegistered allowedTools)
  let procedureIds ← Prog.ofExcept (procedureIdList input.procedureIds)
  let skills ← resolveSkills (input.status = .active) procedureIds
  let _ ← Prog.ofExcept (if input.status = .active then assertSkillToolsAllowed skills allowedTools
    else .ok ())
  let updated ← Prog.ofExcept
    (updatedAgent existing actorId input provider model allowedTools procedureIds now)
  let free ← definitionCall (.updateAgent updated input.expectedRevision)
  let _ ← Prog.ofExcept (check (free = true) (agentServiceError "DUPLICATE_AGENT_KEY"
    "An agent with this key already exists in the active tenant." 409))
  let _ ← definitionCall (.appendAuditEvent (definitionEvent updated.tenantId updated.updatedBy
    (if input.status = .archived ∧ existing.status ≠ .archived then "agent.archived"
      else "agent.updated") "agent" updated.id
    [("revision", .num (.ofInt updated.revision)), ("status", .str updated.status.text)] now))
  return updated

def archiveAgent (tenantId agentId actorId : String) (expectedRevision now : ℤ) :
    DefinitionService AgentDefinition := do
  let id ← Prog.ofExcept (bounded agentId "agentId" 1 128)
  let _ ← Prog.ofExcept (refuseModuleAgentMutation id)
  let _ ← Prog.ofExcept (bounded tenantId "tenantId" 1 128)
  let existing ← requireAgent agentId
  updateAgent tenantId existing.id actorId
    { key := existing.key, name := existing.name, description := existing.description
      instructions := existing.instructions, provider := existing.provider, model := existing.model
      allowedTools := existing.allowedTools, procedureIds := existing.procedureIds
      maxSteps := existing.maxSteps, timeoutMs := existing.timeoutMs
      temperature := existing.temperature, maxOutputTokens := some existing.maxOutputTokens
      status := .archived, expectedRevision } now

end

def deleteAgent (tenantId agentId actorId : String) (expectedRevision now : ℤ) :
    DefinitionService Unit := do
  let tenantId ← Prog.ofExcept (bounded tenantId "tenantId" 1 128)
  let id ← Prog.ofExcept (bounded agentId "agentId" 1 128)
  let _ ← Prog.ofExcept (refuseModuleAgentMutation id)
  let existing ← requireAgent agentId
  let _ ← Prog.ofExcept (check (existing.revision = expectedRevision)
    (agentRevisionConflict "deleting"))
  let _ ← Prog.ofExcept (check (existing.status = .archived) (agentServiceError "AGENT_NOT_ARCHIVED"
    "Archive the agent before deleting it." 409))
  let usage ← definitionCall (.agentUsage existing.id)
  let _ ← Prog.ofExcept (check (usage.runs = 0) (agentServiceError "AGENT_IN_USE"
    "Delete is unavailable while this agent has run history." 409))
  let _ ← Prog.ofExcept (check (usage.assignments = 0) (agentServiceError "AGENT_IN_USE"
    "Remove every attached procedure before deleting this agent." 409))
  let deleted ← definitionCall (.deleteAgent existing.id expectedRevision)
  let _ ← Prog.ofExcept (check (deleted = true) agentNotFound)
  let actorId ← Prog.ofExcept (bounded actorId "actorId" 1 128)
  definitionCall (.appendAuditEvent (definitionEvent tenantId actorId "agent.deleted" "agent"
    existing.id [("key", .str existing.key), ("revision", .num (.ofInt existing.revision))] now))

/-! ### Processes -/

/-- A save that is asked for: of what, by whom, and when. -/
inductive DefinitionRequest
  | updateProcedure (tenantId procedureId actorId : String) (input : UpdateAgentProcedureInput) (now : ℤ)
  | archiveProcedure (tenantId procedureId actorId : String) (expectedRevision now : ℤ)
  | deleteProcedure (tenantId procedureId actorId : String) (expectedRevision now : ℤ)
  | updateAgent (tenantId agentId actorId : String) (input : UpdateAgentInput) (now : ℤ)
  | archiveAgent (tenantId agentId actorId : String) (expectedRevision now : ℤ)
  | deleteAgent (tenantId agentId actorId : String) (expectedRevision now : ℤ)

variable [AgentHost]

/-- The program of a save, its answer left out. -/
def DefinitionRequest.program : DefinitionRequest → DefinitionService Unit
  | .updateProcedure tenantId procedureId actorId input now => do
    let _ ← Agents.updateProcedure tenantId procedureId actorId input now
  | .archiveProcedure tenantId procedureId actorId expectedRevision now => do
    let _ ← Agents.archiveProcedure tenantId procedureId actorId expectedRevision now
  | .deleteProcedure tenantId procedureId actorId expectedRevision now =>
    Agents.deleteProcedure tenantId procedureId actorId expectedRevision now
  | .updateAgent tenantId agentId actorId input now => do
    let _ ← Agents.updateAgent tenantId agentId actorId input now
  | .archiveAgent tenantId agentId actorId expectedRevision now => do
    let _ ← Agents.archiveAgent tenantId agentId actorId expectedRevision now
  | .deleteAgent tenantId agentId actorId expectedRevision now =>
    Agents.deleteAgent tenantId agentId actorId expectedRevision now

/-- A process: what it called, and what is left of its program. -/
abbrev DefinitionProcess :=
  Prog.Recorded DefinitionCall (Prog.Reply DefinitionCall.Answer) Unit

/-- Any number of saves, of any processes. -/
def definitionSaves : Machine DefinitionTables DefinitionProcess DefinitionRequest DefinitionChoice :=
  Prog.recorder DefinitionRequest.program DefinitionCall.serve

end Flowdular.Agents
