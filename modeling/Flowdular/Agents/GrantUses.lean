/-
# The use of a run grant

`src/modules/agents/src/services/provider-broker.ts`, lines 36-79 (`exchange`);
`database-repository.ts`, lines 1140-1148 and 2704-2742 (`consumeRunGrant`).

An exchange verifies its token, reads the clock, and consumes the grant: uses that are over at the time
it read are dropped, and a use is recorded where the worker holds the run and neither the grant nor the
token has one.  Row-level security confines what is dropped to the workspace.  Beside the exchanges,
grants are issued and any transaction on runs is made, by any number of processes on one clock.
-/

import Flowdular.Agents.GrantTokens
import Flowdular.Agents.RunStandings

namespace Flowdular.Agents

open Lib Workflows

/-- A row of `agent_run_grant_uses`. -/
structure GrantUse where
  grantId : String
  tokenHash : String
  tenantId : String
  runId : String
  workerId : String
  providerId : String
  modelId : String
  issuedAt : ℤ
  expiresAt : ℤ
  consumedAt : ℤ

/-- A grant was exchanged: its claims, the time, and how its run stood. -/
structure Exchanged where
  claims : AgentRunGrantClaims
  time : ℤ
  run : Option (Status × Option Lease)

/-- The tables and the uses.  What was issued and what was exchanged, the newest first, are history
variables: only the assumption on tokens reads them. -/
structure GrantState where
  tables : AgentTables
  uses : List GrantUse := []
  issued : List IssuedAgentRunGrant := []
  exchanged : List Exchanged := []

/-- `status = 'running' AND lease_owner = $13 AND lease_expires_at >= $14`. -/
def JobRow.leasedTo {β α : Type} (row : JobRow β α) (workerId : String) (time : ℤ) : Bool :=
  row.status = .running && row.lease.any fun l => l.owner = workerId && time ≤ l.expiresAt

/-- The uses that a consumption leaves. -/
def GrantState.usesAfter (s : GrantState) (tenantId : String) (consumedAt : ℤ) : List GrantUse :=
  s.uses.filter fun use => !(use.tenantId = tenantId && use.expiresAt < consumedAt)

/-- The use that is recorded of claims. -/
def useOf (claims : AgentRunGrantClaims) (tokenHash : String) (consumedAt : ℤ) : GrantUse where
  grantId := claims.grantId
  tokenHash := tokenHash
  tenantId := claims.tenantId
  runId := claims.runId
  workerId := claims.workerId
  providerId := claims.providerId
  modelId := claims.modelId
  issuedAt := claims.issuedAt
  expiresAt := claims.expiresAt
  consumedAt := consumedAt

def consumeRunGrant (s : GrantState) (claims : AgentRunGrantClaims) (tokenHash : String)
    (consumedAt : ℤ) : Bool × GrantState :=
  let uses := s.usesAfter claims.tenantId consumedAt
  let held := s.tables.runs.any fun row =>
    row.is claims.tenantId claims.runId && row.leasedTo claims.workerId consumedAt
  if held && !(uses.any fun use => use.grantId = claims.grantId || use.tokenHash = tokenHash) then
    (true, { s with
      uses := uses ++ [useOf claims tokenHash consumedAt]
      exchanged := {
        claims, time := s.tables.clock
        run := (s.tables.run? claims.tenantId claims.runId).map fun row =>
          (row.status, row.lease) } :: s.exchanged })
  else (false, { s with uses })

/-- A grant is issued, a token is exchanged, or a transaction on runs is made. -/
inductive GrantRequest
  | issue (input : IssueAgentRunGrantInput)
  | exchange (token : String)
  | transact (call : AgentCall)

/-- Where a process is. -/
inductive GrantProcess
  | issuing (input : IssueAgentRunGrantInput)
  | verifying (token : String)
  | verified (token : String) (claims : AgentRunGrantClaims)
  | consuming (token : String) (claims : AgentRunGrantClaims) (consumedAt : ℤ)
  | opened (claims : AgentRunGrantClaims)
  | transacting (call : AgentCall)
  | over

/-- What a move leaves open: the identifier that is drawn, and how a call ends. -/
structure GrantChoice where
  grantId : Option Uuid := none
  call : AgentChoice := {}

variable [Metering] [GrantHost]

/-- `tokenHash`. -/
def grantTokenHash (token : String) : String :=
  base64url (GrantHost.sha256 token).toList

/-- A grant is issued; `randomUUID` draws no identifier twice. -/
def issueNext (authority : AgentRunGrantAuthority) (s : GrantState) (input : IssueAgentRunGrantInput)
    (grantId : Uuid) : Option (GrantState × GrantProcess) :=
  if grantId.text ∈ s.issued.map (·.claims.grantId) then none
  else
    match authority.issue input grantId s.tables.clock with
    | .ok grant => some ({ s with issued := grant :: s.issued }, .over)
    | .error _ => some (s, .over)

/-- The transaction of an exchange, which fails before or behind its commit, or is answered. -/
def consumeNext (s : GrantState) (token : String) (claims : AgentRunGrantClaims) (consumedAt : ℤ)
    (choice : AgentChoice) : GrantState × GrantProcess :=
  let consumed := consumeRunGrant s claims (grantTokenHash token) consumedAt
  match choice.fails with
  | none => (consumed.2, if consumed.1 then .opened claims else .over)
  | some (kept, _) => (if kept then consumed.2 else s, .over)

/-- What a process does next. -/
def grantNext (authority : AgentRunGrantAuthority) (s : GrantState) (choice : GrantChoice) :
    GrantProcess → Option (GrantState × GrantProcess)
  | .issuing input => choice.grantId.bind fun grantId => issueNext authority s input grantId
  | .verifying token =>
    match authority.verify token s.tables.clock with
    | .ok claims => some (s, .verified token claims)
    | .error _ => some (s, .over)
  | .verified token claims => some (s, .consuming token claims s.tables.clock)
  | .consuming token claims consumedAt => some (consumeNext s token claims consumedAt choice.call)
  | .transacting call => some ({ s with tables := (call.serve s.tables choice.call).2 }, .over)
  | .opened _ => none
  | .over => none

/-- The processes; a token that is presented is not forged. -/
def grantMachine (authority : AgentRunGrantAuthority) :
    Machine GrantState GrantProcess GrantRequest GrantChoice where
  enter s r :=
    match r with
    | .issue input => some (.issuing input)
    | .exchange token => if Unforged authority s.issued token then some (.verifying token) else none
    | .transact call => some (.transacting call)
  next s p choice := grantNext authority s choice p
  stop s _ := s

/-! ### What is kept -/

/-- The worker of the claims held an unexpired lease on the run. -/
def Exchanged.Held (e : Exchanged) : Prop :=
  ∃ l : Lease, e.run = some (.running, some l) ∧ l.owner = e.claims.workerId ∧ e.time ≤ l.expiresAt

/-- **A grant is exchanged at most once**, and while its worker holds the run. -/
structure GrantsExact (s : GrantState) : Prop where
  once : (s.exchanged.map (·.claims.grantId)).Nodup
  held : ∀ e ∈ s.exchanged, e.Held

/-- The transaction of a second exchange of a grant is made before the grant expires, and between the
clock that an exchange read and its transaction the lease of the run does not run out. -/
def InTime : Machine.Condition GrantState GrantProcess := fun s _ p =>
  match p with
  | .consuming _ claims consumedAt =>
    (claims.grantId ∈ s.exchanged.map (·.claims.grantId) → s.tables.clock ≤ claims.expiresAt) ∧
      ∀ row ∈ s.tables.runs, row.is claims.tenantId claims.runId = true →
        row.leasedTo claims.workerId consumedAt = true →
          row.leasedTo claims.workerId s.tables.clock = true
  | _ => True

/-- The claims were issued. -/
def GrantState.Issued (s : GrantState) (claims : AgentRunGrantClaims) : Prop :=
  ∃ grant ∈ s.issued, grant.claims = claims

/-- What is kept of the uses: what was issued has identifiers of its own; what was exchanged was issued,
has a use or is over. -/
structure UsesKept (s : GrantState) : Prop where
  ids : (s.issued.map (·.claims.grantId)).Nodup
  once : (s.exchanged.map (·.claims.grantId)).Nodup
  held : ∀ e ∈ s.exchanged, e.Held
  issued : ∀ e ∈ s.exchanged, s.Issued e.claims
  used : ∀ e ∈ s.exchanged,
    (∃ use ∈ s.uses, use.grantId = e.claims.grantId ∧ use.expiresAt = e.claims.expiresAt) ∨
      e.claims.expiresAt < s.tables.clock

/-- What a process knows: its token is not forged, its claims were issued, and the time it read is
past. -/
def GrantKnows (authority : AgentRunGrantAuthority) (s : GrantState) : GrantProcess → Prop
  | .verifying token => Unforged authority s.issued token = true
  | .verified _ claims => s.Issued claims
  | .consuming _ claims consumedAt => s.Issued claims ∧ consumedAt ≤ s.tables.clock
  | _ => True

section Steps

omit [Metering] [GrantHost]

variable {s s' : GrantState} {claims : AgentRunGrantClaims} {tokenHash : String} {consumedAt : ℤ}

/-- Claims that were issued are told apart by their identifiers. -/
theorem UsesKept.claims_inj (h : UsesKept s) {claims' : AgentRunGrantClaims} (hc : s.Issued claims)
    (hc' : s.Issued claims') (hid : claims.grantId = claims'.grantId) : claims = claims' := by
  obtain ⟨grant, hg, rfl⟩ := hc
  obtain ⟨grant', hg', rfl⟩ := hc'
  rw [List.inj_on_of_nodup_map h.ids hg hg' hid]

/-- A use that is kept, or dropped because it is over. -/
theorem used_after {e : Exchanged} (tenantId : String) (hp : consumedAt ≤ s.tables.clock)
    (h : (∃ use ∈ s.uses, use.grantId = e.claims.grantId ∧ use.expiresAt = e.claims.expiresAt) ∨
      e.claims.expiresAt < s.tables.clock) :
    (∃ use ∈ s.usesAfter tenantId consumedAt,
      use.grantId = e.claims.grantId ∧ use.expiresAt = e.claims.expiresAt) ∨
      e.claims.expiresAt < s.tables.clock := by
  rcases h with ⟨use, hm, hid, he⟩ | ho
  · by_cases hk : (!(use.tenantId = tenantId && use.expiresAt < consumedAt : Bool)) = true
    · exact .inl ⟨use, List.mem_filter.2 ⟨hm, hk⟩, hid, he⟩
    · rw [Bool.not_eq_true, Bool.not_eq_false', Bool.and_eq_true, decide_eq_true_eq,
        decide_eq_true_eq] at hk
      right
      omega
  · exact .inr ho

/-- **What a consumption does:** it drops uses that are over, and records a use where there is none. -/
theorem consumeRunGrant_cases {consumed : Bool × GrantState}
    (h : consumeRunGrant s claims tokenHash consumedAt = consumed) :
    consumed = (false, { s with uses := s.usesAfter claims.tenantId consumedAt }) ∨
      (∃ row ∈ s.tables.runs, row.is claims.tenantId claims.runId = true ∧
        row.leasedTo claims.workerId consumedAt = true) ∧
      (∀ use ∈ s.usesAfter claims.tenantId consumedAt, use.grantId ≠ claims.grantId) ∧
      consumed = (true, { s with
        uses := s.usesAfter claims.tenantId consumedAt ++ [useOf claims tokenHash consumedAt]
        exchanged := {
          claims, time := s.tables.clock
          run := (s.tables.run? claims.tenantId claims.runId).map fun row =>
            (row.status, row.lease) } :: s.exchanged }) := by
  rw [consumeRunGrant] at h
  split at h
  · next hd =>
    rw [Bool.and_eq_true, List.any_eq_true, Bool.not_eq_true', List.any_eq_false] at hd
    obtain ⟨⟨row, hr, hh⟩, hf⟩ := hd
    refine .inr ⟨⟨row, hr, Bool.and_eq_true_iff.1 hh⟩, fun use hu hid => ?_, h.symm⟩
    refine hf use hu ?_
    rw [decide_eq_true hid, Bool.true_or]
  · exact .inl h.symm

/-- **An exchange in time keeps the uses.** -/
theorem UsesKept.consume (h : UsesKept s) {others : List GrantProcess} {token : String}
    (hc : s.Issued claims) (hp : consumedAt ≤ s.tables.clock)
    (hcond : InTime s others (.consuming token claims consumedAt)) {done : Bool}
    (hs : consumeRunGrant s claims tokenHash consumedAt = (done, s')) : UsesKept s' := by
  rcases consumeRunGrant_cases hs with heq | ⟨⟨row, hrow, his, hlea⟩, hf, heq⟩
  · rw [(Prod.mk.inj heq).2]
    exact ⟨h.ids, h.once, h.held, h.issued, fun e he => used_after _ hp (h.used e he)⟩
  · rw [(Prod.mk.inj heq).2]
    have hnew : claims.grantId ∉ s.exchanged.map (·.claims.grantId) := by
      intro hm
      obtain ⟨e, he, hid⟩ := List.mem_map.1 hm
      have hsame := h.claims_inj (h.issued e he) hc hid
      have hclo := hcond.1 hm
      rcases used_after claims.tenantId hp (h.used e he) with ⟨use, hu, huseId, -⟩ | ho
      · exact hf use hu (huseId.trans hid)
      · rw [hsame] at ho
        omega
    refine ⟨h.ids, List.nodup_cons.2 ⟨hnew, h.once⟩, ?_, ?_, ?_⟩
    · refine List.forall_mem_cons.2 ⟨?_, h.held⟩
      have hn := hcond.2 row hrow his hlea
      rw [JobRow.leasedTo, Bool.and_eq_true, decide_eq_true_eq, Option.any_eq_true] at hn
      obtain ⟨hr, l, hlease, hl⟩ := hn
      rw [Bool.and_eq_true, decide_eq_true_eq, decide_eq_true_eq] at hl
      refine ⟨l, ?_, hl.1, hl.2⟩
      show Option.map _ (s.tables.run? claims.tenantId claims.runId) = _
      rw [run?_of_mem hrow his, Option.map_some, hr, hlease]
    · exact List.forall_mem_cons.2 ⟨hc, h.issued⟩
    · refine List.forall_mem_cons.2 ⟨.inl ⟨useOf claims tokenHash consumedAt, ?_, rfl, rfl⟩, ?_⟩
      · exact List.mem_append_right _ (List.mem_singleton_self _)
      · intro e he
        rcases used_after claims.tenantId hp (h.used e he) with ⟨use, hu, heq⟩ | ho
        · exact .inl ⟨use, List.mem_append_left _ hu, heq⟩
        · exact .inr ho

end Steps

section Moves

variable {authority : AgentRunGrantAuthority} {s s' : GrantState} {p p' q : GrantProcess}
  {others : List GrantProcess} {choice : GrantChoice}

/-- What a move leaves for what others know: more that was issued, and a later time. -/
structure GrantsOnward (s s' : GrantState) : Prop where
  issued : ∀ grant ∈ s.issued, grant ∈ s'.issued
  clock : s.tables.clock ≤ s'.tables.clock

omit [Metering] [GrantHost] in
theorem GrantState.Issued.onward {claims : AgentRunGrantClaims} (h : s.Issued claims)
    (ho : GrantsOnward s s') : s'.Issued claims := by
  obtain ⟨grant, hg, hc⟩ := h
  exact ⟨grant, ho.issued grant hg, hc⟩

variable {token : String}

omit [Metering] in
/-- A token that is not forged stays so. -/
theorem unforged_onward {issued issued' : List IssuedAgentRunGrant}
    (hm : ∀ grant ∈ issued, grant ∈ issued') (h : Unforged authority issued token = true) :
    Unforged authority issued' token = true := by
  rw [Unforged] at h ⊢
  split at h
  · rfl
  · next payload signature hpar =>
    rw [Bool.or_eq_true] at h ⊢
    rcases h with h | h
    · exact .inl h
    · obtain ⟨grant, hg, hp⟩ := List.any_eq_true.1 h
      exact .inr (List.any_eq_true.2 ⟨grant, hm grant hg, hp⟩)

omit [Metering] in
theorem GrantKnows.onward (h : GrantKnows authority s q) (ho : GrantsOnward s s') :
    GrantKnows authority s' q := by
  cases q with
  | verifying token => exact unforged_onward ho.issued h
  | verified token claims => exact GrantState.Issued.onward h ho
  | consuming token claims consumedAt => exact ⟨h.1.onward ho, h.2.trans ho.clock⟩
  | _ => trivial

omit [Metering] [GrantHost] in
/-- Time that passes keeps the uses. -/
theorem UsesKept.later (h : UsesKept s) {tables : AgentTables} (hc : s.tables.clock ≤ tables.clock) :
    UsesKept { s with tables } := by
  refine ⟨h.ids, h.once, h.held, h.issued, fun e he => ?_⟩
  rcases h.used e he with hu | ho
  · exact .inl hu
  · exact .inr (ho.trans_le hc)

omit [Metering] in
/-- **A grant is issued** with an identifier of its own. -/
theorem issueNext_kept {input : IssueAgentRunGrantInput} {grantId : Uuid} (h : UsesKept s)
    (hn : issueNext authority s input grantId = some (s', p')) :
    UsesKept s' ∧ GrantKnows authority s' p' ∧ GrantsOnward s s' := by
  rw [issueNext] at hn
  split at hn
  · cases hn
  · next hf =>
    split at hn
    · next grant hi =>
      cases hn
      have hid : grant.claims.grantId = grantId.text := by rw [(issue_ok hi).1]; rfl
      refine ⟨⟨?_, h.once, h.held, fun e he => ?_, h.used⟩, trivial, ?_, le_rfl⟩
      · refine List.nodup_cons.2 ⟨?_, h.ids⟩
        show grant.claims.grantId ∉ _
        rw [hid]
        exact hf
      · obtain ⟨grant', hg', hc⟩ := h.issued e he
        exact ⟨grant', List.mem_cons_of_mem _ hg', hc⟩
      · exact fun grant' hg' => List.mem_cons_of_mem _ hg'
    · cases hn
      exact ⟨h, trivial, fun _ hg => hg, le_rfl⟩

omit [Metering] in
/-- **The transaction of an exchange in time.** -/
theorem consumeNext_kept {claims : AgentRunGrantClaims} {consumedAt : ℤ}
    {choice : AgentChoice} (h : UsesKept s) (hp : GrantKnows authority s (.consuming token claims consumedAt))
    (hc : InTime s others (.consuming token claims consumedAt)) :
    UsesKept (consumeNext s token claims consumedAt choice).1 ∧
      GrantKnows authority (consumeNext s token claims consumedAt choice).1
        (consumeNext s token claims consumedAt choice).2 ∧
      GrantsOnward s (consumeNext s token claims consumedAt choice).1 := by
  have hk : UsesKept (consumeRunGrant s claims (grantTokenHash token) consumedAt).2 :=
    h.consume hp.1 hp.2 hc rfl
  have ho : GrantsOnward s (consumeRunGrant s claims (grantTokenHash token) consumedAt).2 := by
    rcases consumeRunGrant_cases (rfl : consumeRunGrant s claims (grantTokenHash token) consumedAt = _)
      with heq | ⟨-, -, heq⟩
    · rw [heq]
      exact ⟨fun _ hg => hg, le_rfl⟩
    · rw [heq]
      exact ⟨fun _ hg => hg, le_rfl⟩
  have hpla : ∀ (s : GrantState) (b : Bool),
      GrantKnows authority s (if b then .opened claims else .over) := by
    intro s b
    cases b <;> trivial
  rw [consumeNext]
  rcases choice.fails with _ | ⟨_ | _, error⟩
  · exact ⟨hk, hpla _ _, ho⟩
  · exact ⟨h, trivial, fun _ hg => hg, le_rfl⟩
  · exact ⟨hk, trivial, ho⟩

/-- **A move in time keeps the uses**, and what any process knows. -/
theorem grantNext_kept (hl : GrantHost.Lawful) (h : UsesKept s) (hp : GrantKnows authority s p)
    (hc : InTime s others p) (hn : grantNext authority s choice p = some (s', p')) :
    UsesKept s' ∧ GrantKnows authority s' p' ∧ GrantsOnward s s' := by
  cases p with
  | issuing input =>
    obtain ⟨grantId, -, hi⟩ := Option.bind_eq_some_iff.1 hn
    exact issueNext_kept h hi
  | verifying token =>
    rw [grantNext] at hn
    split at hn
    · next claims hv =>
      cases hn
      exact ⟨h, (claims_of_verify hl hp hv).1, fun _ hg => hg, le_rfl⟩
    · cases hn
      exact ⟨h, trivial, fun _ hg => hg, le_rfl⟩
  | verified token claims =>
    cases hn
    exact ⟨h, ⟨hp, le_rfl⟩, fun _ hg => hg, le_rfl⟩
  | consuming token claims consumedAt =>
    have hk := @consumeNext_kept _ authority s others token claims consumedAt choice.call h hp hc
    rw [grantNext, Option.some.injEq] at hn
    rwa [hn] at hk
  | transacting call =>
    cases hn
    have hclo : s.tables.clock ≤ (call.serve s.tables choice.call).2.clock := by
      rw [clock_serve]
      omega
    exact ⟨h.later hclo, trivial, fun _ hg => hg, hclo⟩
  | opened claims => cases hn
  | «over» => cases hn

/-- **Exchanges in time keep the uses.** -/
def grantOutline (hlaw : GrantHost.Lawful) (authority : AgentRunGrantAuthority) :
    Outline (grantMachine authority) InTime where
  inv := UsesKept
  knows := GrantKnows authority
  apart _ _ := True
  apart_symm _ := trivial
  start {s r p} _ henter := by
    refine ⟨?_, fun _ _ => trivial⟩
    cases r with
    | issue input =>
      cases henter
      trivial
    | exchange token =>
      change (if _ then _ else _) = _ at henter
      split at henter
      · next hforged =>
        cases henter
        exact hforged
      · cases henter
    | transact call =>
      cases henter
      trivial
  stop hs _ := hs
  stop_other _ _ hq _ := hq
  move hs hp _ hcond hnext := by
    obtain ⟨hkept, hknows, -⟩ := grantNext_kept hlaw hs hp hcond hnext
    exact ⟨hkept, hknows⟩
  move_other hs hp hothers hcond hnext hq := by
    obtain ⟨-, -, honward⟩ := grantNext_kept hlaw hs hp hcond hnext
    exact ⟨(hothers _ hq).1.onward honward, trivial⟩

end Moves

/-- Before anything is issued. -/
def GrantState.begin (tables : AgentTables) (uses : List GrantUse) : GrantState :=
  { tables, uses }

section Scripts

variable {authority : AgentRunGrantAuthority} {s : GrantState} {ps : List GrantProcess}
  {cond : Machine.Condition GrantState GrantProcess}

theorem steps_issue {input : IssueAgentRunGrantInput} {grantId : Uuid} {grant : IssuedAgentRunGrant}
    (hc : cond s ps (.issuing input)) (hf : grantId.text ∉ s.issued.map (·.claims.grantId))
    (hi : authority.issue input grantId s.tables.clock = .ok grant) :
    Relation.ReflTransGen (Crew.Step (grantMachine authority) cond) ⟨s, ps⟩
      ⟨{ s with issued := grant :: s.issued }, .over :: ps⟩ := by
  have hs : Crew.Step (grantMachine authority) cond ⟨s, ps⟩ ⟨s, .issuing input :: ps⟩ :=
    .start (r := .issue input) rfl
  refine .head hs (.single (Crew.Step.first (c := { grantId := some grantId }) ?_ hc))
  show issueNext authority s input grantId = _
  rw [issueNext, if_neg hf, hi]

variable {token : String}

theorem steps_verify {claims : AgentRunGrantClaims}
    (hc : cond s ps (.verifying token)) (hf : Unforged authority s.issued token = true)
    (hv : authority.verify token s.tables.clock = .ok claims) :
    Relation.ReflTransGen (Crew.Step (grantMachine authority) cond) ⟨s, ps⟩
      ⟨s, .verified token claims :: ps⟩ := by
  have he : (grantMachine authority).enter s (.exchange token) = some (.verifying token) :=
    if_pos hf
  have hn : (grantMachine authority).next s (.verifying token) {} = some (s, .verified token claims) := by
    show grantNext authority s {} (.verifying token) = _
    rw [grantNext, hv]
  exact .head (.start he) (.single (Crew.Step.first hn hc))

theorem steps_consume {claims : AgentRunGrantClaims} (hc : cond s ps (.verified token claims))
    (hc' : cond s ps (.consuming token claims s.tables.clock))
    (hd : (consumeRunGrant s claims (grantTokenHash token) s.tables.clock).1 = true) :
    Relation.ReflTransGen (Crew.Step (grantMachine authority) cond) ⟨s, .verified token claims :: ps⟩
      ⟨(consumeRunGrant s claims (grantTokenHash token) s.tables.clock).2, .opened claims :: ps⟩ := by
  have hr : (grantMachine authority).next s (.verified token claims) {} =
      some (s, .consuming token claims s.tables.clock) := rfl
  have hn : (grantMachine authority).next s (.consuming token claims s.tables.clock) {} =
      some ((consumeRunGrant s claims (grantTokenHash token) s.tables.clock).2, .opened claims) := by
    show some (consumeNext s token claims s.tables.clock {}) = _
    rw [consumeNext]
    simp only [hd, if_true]
  exact .head (Crew.Step.first hr hc) (.single (Crew.Step.first hn hc'))

theorem steps_wait (elapsed : ℕ) (hc : cond s ps (.transacting .readClock)) :
    Relation.ReflTransGen (Crew.Step (grantMachine authority) cond) ⟨s, ps⟩
      ⟨{ s with tables := s.tables.later elapsed }, ps⟩ := by
  have hsta : Crew.Step (grantMachine authority) cond ⟨s, ps⟩ ⟨s, .transacting .readClock :: ps⟩ :=
    .start (r := .transact .readClock) rfl
  have hr : (grantMachine authority).next s (.transacting .readClock) { call := { elapsed } } =
      some ({ s with tables := s.tables.later elapsed }, .over) := rfl
  have hs : Crew.Step (grantMachine authority) cond
      ⟨{ s with tables := s.tables.later elapsed }, [] ++ .over :: ps⟩
      ⟨{ s with tables := s.tables.later elapsed }, [] ++ ps⟩ := .stop
  exact .head hsta (.head (Crew.Step.first hr hc) (.single hs))

end Scripts

omit [Metering] [GrantHost]

/-- An authority whose grants last a second. -/
def sampleAuthority : AgentRunGrantAuthority where
  key := Vector.replicate 32 0x47
  ttlMs := 1000

/-- An identifier. -/
def sampleUuid : Uuid where
  text := "00000000-0000-4000-8000-000000000000"
  length := by decide
  plain := List.forall_iff_forall_mem.1 (by decide)

/-- What a worker asks a grant for. -/
def sampleGrantInput : IssueAgentRunGrantInput where
  tenantId := "t"
  runId := "run"
  providerId := "provider"
  modelId := "model"
  workerId := "w"
  attempt := 1
  leaseExpiresAt := 100000

/-- The sample run, leased to a worker. -/
def leasedTables : AgentTables where
  runs := [sampleRun.claimed "w" 0 100000]
  actions := []
  runIds := List.nodup_singleton _
  actionIds := List.nodup_nil

/-- The grant of the sample run. -/
noncomputable def sampleGrant : IssuedAgentRunGrant :=
  ⟨@AgentRunGrantAuthority.tokenOf plainGrantHost sampleAuthority
      (@issuedClaims plainGrantHost sampleAuthority sampleGrantInput sampleUuid 0),
    @issuedClaims plainGrantHost sampleAuthority sampleGrantInput sampleUuid 0⟩

theorem sampleGrant_issued :
    @AgentRunGrantAuthority.issue plainGrantHost sampleAuthority sampleGrantInput sampleUuid 0 =
      .ok sampleGrant :=
  @issue_eq plainGrantHost sampleAuthority sampleGrantInput sampleUuid 0 (by decide) (by decide)
    (by decide) (by decide) (by decide) (by decide) (by decide)

theorem sampleGrant_short : grantBytes sampleAuthority sampleGrantInput 0 ≤ 6108 := by
  decide +kernel

theorem sampleGrant_unforged :
    @Unforged plainGrantHost sampleAuthority [sampleGrant] sampleGrant.token = true := by
  let _ := plainGrantHost
  have hp : AgentRunGrantAuthority.partsOf sampleGrant.token =
      some (grantPayload sampleGrant.claims, grantSignature sampleAuthority sampleGrant.claims) :=
    partsOf_tokenOf
  rw [Unforged, hp]
  simp

/-- The state in which the sample grant is issued. -/
noncomputable def sampleIssued : GrantState :=
  { GrantState.begin leasedTables [] with issued := [sampleGrant] }

/-- The sample grant is issued, and its token verified. -/
theorem sampleGrant_steps {cond : Machine.Condition GrantState GrantProcess}
    (hc : ∀ s ps p, (∀ token claims consumedAt, p ≠ .consuming token claims consumedAt) → cond s ps p) :
    Crew.Reachable (@grantMachine flatMetering plainGrantHost sampleAuthority) cond
      (GrantState.begin leasedTables []) ⟨sampleIssued,
        [.verified sampleGrant.token sampleGrant.claims, .over]⟩ := by
  let _ := flatMetering
  let _ := plainGrantHost
  have hi := @steps_issue _ _ sampleAuthority (GrantState.begin leasedTables []) [] cond
    sampleGrantInput sampleUuid sampleGrant (hc _ _ _ nofun) List.not_mem_nil sampleGrant_issued
  have hv : sampleAuthority.verify sampleGrant.token sampleIssued.tables.clock =
      .ok sampleGrant.claims :=
    (verify_issued plainGrantHost_lawful sampleGrant_issued le_rfl (by decide) le_rfl (by decide)).2
      sampleGrant_short
  exact hi.trans (steps_verify (hc _ _ _ nofun) sampleGrant_unforged hv)

/-- A name of control characters. -/
def controlName (n : ℕ) : String :=
  String.ofList (List.replicate n (Char.ofNat 1))

variable {n : ℕ}

theorem mem_controlName {c : Char} (hc : c ∈ (controlName n).toList) : c = Char.ofNat 1 := by
  rw [controlName, String.toList_ofList] at hc
  exact List.eq_of_mem_replicate hc

theorem isStringClaim_controlName {maximum : ℕ} (hp : 1 ≤ n) (hle : n ≤ maximum) :
    IsStringClaim (controlName n) maximum := by
  have hl : utf16Length (controlName n) = n := by
    rw [utf16Length_plain fun c hc => by rw [mem_controlName hc]; decide]
    rw [controlName, String.toList_ofList, List.length_replicate]
  refine ⟨by omega, by omega, fun hm => ?_⟩
  have hz : Char.ofNat 0 = Char.ofNat 1 := mem_controlName hm
  revert hz
  decide

/-- Each character of the name is six bytes. -/
theorem textBytes_controlName (n : ℕ) : textBytes (controlName n) = 6 * n := by
  rw [textBytes, controlName, String.toList_ofList]
  induction n with
  | zero => rfl
  | succ n ih =>
    have hs : bytesOf (Json.quoteChar (Char.ofNat 1)) = 6 := by decide
    rw [List.replicate_succ, List.flatMap_cons, bytesOf_append, ih, hs]
    omega

/-- An input whose names are control characters. -/
def longGrantInput (n : ℕ) : IssueAgentRunGrantInput where
  tenantId := controlName n
  runId := controlName n
  providerId := controlName n
  modelId := controlName n
  workerId := controlName n
  attempt := 1
  leaseExpiresAt := 1000

/-- From 192 characters on, the grant of that input is issued, and refused. -/
theorem longGrant_refused [GrantHost] (hlaw : GrantHost.Lawful) (hl : 192 ≤ n) (hle : n ≤ 256) :
    ∃ issued, sampleAuthority.issue (longGrantInput n) sampleUuid 0 = .ok issued ∧
      sampleAuthority.verify issued.token 0 ≠ .ok issued.claims := by
  have hn : IsStringClaim (controlName n) 256 :=
    isStringClaim_controlName (by omega) hle
  have ha : IsNumberClaim (1 : ℤ) := by decide
  have he : sampleAuthority.expiryOf (longGrantInput n) 0 = 1000 := by
    rw [AgentRunGrantAuthority.expiryOf]
    rfl
  have hi := @issue_eq _ sampleAuthority (longGrantInput n) sampleUuid 0 (by omega) hn hn hn
    hn hn ha
  refine ⟨_, hi, fun hv => ?_⟩
  have hnow : (0 : ℤ) < sampleAuthority.expiryOf (longGrantInput n) 0 := by omega
  have hs := (verify_issued hlaw hi le_rfl (by decide) le_rfl hnow).1 hv
  rw [grantBytes] at hs
  simp only [longGrantInput, textBytes_controlName] at hs
  omega

/-- The state in which the sample grant was exchanged once. -/
noncomputable def sampleExchanged : GrantState :=
  (@consumeRunGrant sampleIssued sampleGrant.claims
    (@grantTokenHash plainGrantHost sampleGrant.token) 0).2

end Flowdular.Agents
