/-
# External identities stay bound

`src/modules/auth/src/services/auth-service.ts`, lines 2831-3029 (`signInExternalIdentity`,
modelled in `SignIn`); `database-repository.ts`, lines 2087-2147 (`findExternalIdentity`,
`findExternalIdentitySubject`, `linkExternalIdentity`).

Sign-ins with any providers, subjects and addresses take turns call by call.  A binding is
looked up, the address is resolved, the account is asked for another subject and the binding
is written in transactions of their own, and where the subject is bound by then the upsert
keeps the binding there is and says nothing.

Where a binding is written while the subject has none and the account no other subject, or
while it is the one there is, and a membership is added to an account that has none, the
bindings tell who is signed in (`external_identities_stay_bound`).
-/

import Flowdular.Auth.RoleScopes

namespace Flowdular.Auth

open Lib Workflows
open Discipline (All all_bind)
open Prog (History Recorded recorder recorder_signed_enter recorder_signed_next Along along_bind along_of_all along_need_bind
  along_ends_bind Ends ends_bind ends_need_bind ends_ends_bind ends_of_forall Within within_pure within_fail within_bind
  within_need within_ofExcept)

/-! ### The bindings -/

/-- A row of `auth_external_identities`, in the space of a workspace or of the platform. -/
structure BindingRow where
  provider : String
  subject : String
  accountId : String
  tenantId : Option String
deriving DecidableEq

/-- The tables, with the bindings. -/
structure LinkedTables where
  tables : Tables
  bindings : List BindingRow := []

/-- The binding a call asks for, and the one a call writes. -/
def Call.links : Call → Option BindingRow
  | .outside what arguments =>
    if what = "linkExternalIdentity" then
      match arguments with
      | provider :: subject :: accountId :: space => some ⟨provider, subject, accountId, space.head?⟩
      | _ => none
    else none
  | _ => none

namespace LinkedTables

variable (s : LinkedTables)

/-- The row of a subject. -/
def bindingOf (provider subject : String) (tenantId : Option String) : Option BindingRow :=
  s.bindings.find? fun b => b.provider = provider && b.subject = subject && b.tenantId = tenantId

def findExternalIdentity (provider subject : String) (tenantId : Option String) : Option String :=
  (s.bindingOf provider subject tenantId).map (·.accountId)

def findExternalIdentitySubject (provider accountId : String) (tenantId : Option String) :
    Option String :=
  (s.bindings.find? fun b =>
    b.accountId = accountId && b.provider = provider && b.tenantId = tenantId).map (·.subject)

/-- `linkExternalIdentity`: a binding there is stays. -/
def linkExternalIdentity (row : BindingRow) : Except String LinkedTables :=
  if (s.bindingOf row.provider row.subject row.tenantId).isSome then .ok s
  else if (s.tables.account row.accountId).isNone then
    .error "error: insert on table \"auth_external_identities\" violates foreign key constraint"
  else .ok { s with bindings := s.bindings ++ [row] }

/-- The reads of the bindings; any other lookup answers as it likes. -/
def lookup (what : String) (arguments : List String) (otherwise : Option String) : Option String :=
  match arguments with
  | provider :: key :: space =>
    if what = "findExternalIdentity" then s.findExternalIdentity provider key space.head?
    else if what = "findExternalIdentitySubject" then
      s.findExternalIdentitySubject provider key space.head?
    else otherwise
  | _ => otherwise

/-- What a link leaves; it answers nothing that is read. -/
def linked (yes : Bool) : Except String LinkedTables → Except String Bool × LinkedTables
  | .ok s' => (.ok yes, s')
  | .error e => (.error e, s)

end LinkedTables

/-- What a call does where it does not fail. -/
def Call.performLinked (c : Call) (choice : Choice) (s : LinkedTables) :
    Except String c.Answer × LinkedTables :=
  match c with
  | .lookup what arguments => (.ok (s.lookup what arguments choice.found), s)
  | .outside what arguments =>
    match (Call.outside what arguments).links with
    | some row => s.linked choice.yes (s.linkExternalIdentity row)
    | none => (.ok choice.yes, s)
  | c => ((c.perform choice s.tables).1, { s with tables := (c.perform choice s.tables).2 })

/-- A call, answered. -/
def Call.serveLinked (c : Call) (s : LinkedTables) (choice : Choice) :
    Prog.Reply Call.Answer c × LinkedTables :=
  match choice.fails with
  | none => c.performLinked choice s
  | some (kept, error) => (.error error, if kept then (c.performLinked choice s).2 else s)

/-! ### The machine -/

/-- A sign-in through a provider. -/
structure ExternalSignIn where
  provider : String
  subject : String
  email : String
  workspace : Option TenantProviderSignIn := none
  now : ℤ
  draws : Draws := {}

/-- The space of a sign-in. -/
def ExternalSignIn.space (r : ExternalSignIn) : Option String :=
  r.workspace.map (·.tenantId)

/-- The provider and the subject of a sign-in, as they are bound. -/
def ExternalSignIn.identifies (r : ExternalSignIn) (provider subject : String) : Prop :=
  identifier r.provider "provider" = .ok provider ∧ identifier r.subject "subject" = .ok subject

/-- A sign-in and its process. -/
abbrev SigningIn :=
  ExternalSignIn × Recorded Call (Prog.Reply Call.Answer) IssuedSession

section

variable [AuthText]

/-- The program that answers a sign-in. -/
def ExternalSignIn.program (policy : AuthPolicy) (r : ExternalSignIn) : Service IssuedSession :=
  signInExternalIdentity policy r.provider r.subject r.email r.workspace r.now r.draws

/-- The sign-ins through providers. -/
def externalSignIns (policy : AuthPolicy) : Machine LinkedTables SigningIn ExternalSignIn Choice :=
  (recorder (ExternalSignIn.program policy) Call.serveLinked).signed

end

/-! ### The condition -/

/-- A binding may be written: it is there, or neither the subject nor the account is bound. -/
def mayLink (s : LinkedTables) (row : BindingRow) : Bool :=
  match s.findExternalIdentity row.provider row.subject row.tenantId with
  | some accountId => accountId = row.accountId
  | none => s.findExternalIdentitySubject row.provider row.accountId row.tenantId = none

/-- The condition on a move: a binding is written that may be, and a membership is added to an
account that has none. -/
def bindsCurrent (s : LinkedTables) (p : SigningIn) : Bool :=
  match p.2.rest with
  | .call (.createMembershipInTenant m) _ => s.tables.countMemberships m.accountId = 0
  | .call c _ => c.links.all (mayLink s)
  | _ => true

/-- `bindsCurrent`, as a condition of the machine. -/
def BindsCurrent : Machine.Condition LinkedTables SigningIn :=
  fun s _ p => bindsCurrent s p = true

/-! ### What is said of a run -/

/-- The account and the workspace of a session, or of a challenge for one, that was issued. -/
def issuedTo (entry : Entry) : Option (String × String) :=
  match entry with
  | ⟨.createSession row, .ok _⟩ => some (row.accountId, row.tenantId)
  | ⟨.createMfaChallenge row, .ok _⟩ => some (row.accountId, row.tenantId)
  | _ => none

/-- A sign-in has issued a session for an account in a workspace. -/
def signedIn (p : SigningIn) (accountId tenantId : String) : Prop :=
  ∃ entry ∈ p.2.history, issuedTo entry = some (accountId, tenantId)

/-- Within a space, a provider's subjects and the accounts they are bound to are one to one. -/
def OneToOne (bindings : List BindingRow) : Prop :=
  ∀ b ∈ bindings, ∀ b' ∈ bindings, b.provider = b'.provider → b.tenantId = b'.tenantId →
    (b.subject = b'.subject ↔ b.accountId = b'.accountId)

/-- What is said of the tables and the sign-ins: the bindings are one to one, who is signed in
is bound, a subject signs in as one account, and a workspace's provider opens its sessions in
the workspace. -/
structure StaysBound (s : LinkedTables) (ps : List SigningIn) : Prop where
  oneToOne : OneToOne s.bindings
  bound : ∀ p ∈ ps, ∀ accountId tenantId, signedIn p accountId tenantId →
    ∃ b ∈ s.bindings, p.1.identifies b.provider b.subject ∧ b.tenantId = p.1.space ∧
      b.accountId = accountId
  same : ∀ p ∈ ps, ∀ q ∈ ps, ∀ provider subject, p.1.identifies provider subject →
    q.1.identifies provider subject → p.1.space = q.1.space →
    ∀ accountId tenantId accountId' tenantId', signedIn p accountId tenantId →
      signedIn q accountId' tenantId' → accountId = accountId'
  workspace : ∀ p ∈ ps, ∀ workspace, p.1.workspace = some workspace →
    ∀ accountId tenantId, signedIn p accountId tenantId → tenantId = workspace.tenantId

/-- What is said of a step: bindings stay, and a membership is added to an account that nobody
holds. -/
structure BoundStep (s s' : LinkedTables) : Prop where
  bindings : ∀ b ∈ s.bindings, b ∈ s'.bindings
  memberships : ∀ m' ∈ s'.tables.memberships, m' ∈ s.tables.memberships ∨
    ∀ m ∈ s.tables.memberships, m.accountId ≠ m'.accountId

/-! ### The calls of a sign-in -/

/-- A call of a sign-in, those that issue aside. -/
def Call.signsIn : Call → Bool
  | .findAccountMembership .. => true
  | .findAccountIdentity _ => true
  | .tenantOfAccount _ => true
  | .countMemberships _ => true
  | .findRoleByKey .. => true
  | .createMembershipInTenant _ => true
  | .createAccountInTenant .. => true
  | .listTenantAccess _ => true
  | .appendAudit .. => true
  | .outside .. => true
  | .lookup .. => true
  | _ => false

/-- A credential is of the workspace that was asked for. -/
def Truthful (entry : Entry) : Prop :=
  match entry with
  | ⟨.findAccountMembership _ tenantId, .ok (some account)⟩ => account.tenantId = tenantId
  | ⟨.createMembershipInTenant m, .ok (some account)⟩ => account.tenantId = m.tenantId
  | ⟨.createAccountInTenant _ m, .ok (some account)⟩ => account.tenantId = m.tenantId
  | _ => True

/-- What stands behind a session: the subject was linked to its account, and it is of the
workspace of the provider. -/
def IssuedAllowed (r : ExternalSignIn) (history : History Call (Prog.Reply Call.Answer))
    (accountId tenantId : String) : Prop :=
  (∃ provider subject yes, r.identifies provider subject ∧
    (⟨.outside "linkExternalIdentity" ([provider, subject, accountId] ++ r.space.toList), .ok yes⟩ : Entry) ∈
      history) ∧
  ((∀ entry ∈ history, Truthful entry) → ∀ workspace, r.workspace = some workspace →
    tenantId = workspace.tenantId)

/-- The calls of a sign-in: a session is issued behind a link. -/
def SignInAllowed (r : ExternalSignIn) (history : History Call (Prog.Reply Call.Answer)) : Call → Prop
  | .createSession row => IssuedAllowed r history row.accountId row.tenantId
  | .createMfaChallenge row => IssuedAllowed r history row.accountId row.tenantId
  | c => c.signsIn = true

/-- What is known of an account that was resolved. -/
def Resolves (r : ExternalSignIn) (history : History Call (Prog.Reply Call.Answer))
    (account : Option AccountCredential) : Prop :=
  ∀ found, account = some found → (∀ entry ∈ history, Truthful entry) →
    ∀ workspace, r.workspace = some workspace → found.tenantId = workspace.tenantId

section Programs

variable {α : Type} {r : ExternalSignIn} {history history' : History Call (Prog.Reply Call.Answer)}
  {workspace : TenantProviderSignIn} {now : ℤ} {draws : Draws} {email provider : String}

variable {tenantId : String} {role : TenantRole}

theorem IssuedAllowed.mono (hs : history ⊆ history') {accountId : String}
    (h : IssuedAllowed r history accountId tenantId) : IssuedAllowed r history' accountId tenantId := by
  obtain ⟨⟨provider, subject, yes, hid, hm⟩, ht⟩ := h
  refine ⟨⟨provider, subject, yes, hid, hs hm⟩, fun htru => ht fun entry he => ?_⟩
  exact htru entry (hs he)

theorem Resolves.mono (hs : history ⊆ history') {account : Option AccountCredential}
    (h : Resolves r history account) : Resolves r history' account :=
  fun found hf ht => h found hf fun entry he => ht entry (hs he)

theorem allowed_of_signsIn (c : Call) (h : c.signsIn = true) : SignInAllowed r history c := by
  cases c with
  | createSession => cases h
  | createMfaChallenge => cases h
  | _ => exact h

/-- A program of calls that issue nothing. -/
abbrev SignsIn (p : Service α) : Prop :=
  Within (fun c => c.signsIn = true) p

theorem along_signsIn {p : Service α} (h : SignsIn p) : Along (SignInAllowed r) history p :=
  along_of_all (fun _ => allowed_of_signsIn) h.all

theorem resolves_none : Resolves r history none :=
  fun _ h => (nomatch h)

theorem signsIn_audit {actorId action subjectType subjectId : String}
    {metadata : List (String × Json)} :
    SignsIn (audit tenantId actorId action subjectType subjectId metadata) :=
  within_audit rfl

theorem signsIn_activeMembership {accountId : String} :
    SignsIn (activeMembership accountId tenantId) :=
  within_bind (within_need rfl) fun _ => within_pure

theorem ends_activeMembership {accountId : String} (hw : r.workspace = some workspace) :
    Ends (Resolves r) history (activeMembership accountId workspace.tenantId) := by
  refine ends_need_bind fun a => .pure fun found hf ht other ho => ?_
  obtain ⟨rfl, -⟩ := Option.filter_eq_some_iff.1 hf
  rw [hw] at ho
  obtain rfl := Option.some.inj ho
  exact ht _ (List.mem_append_right _ (List.mem_singleton_self _))

theorem signsIn_findAccountCredentialById {accountId : String} :
    SignsIn (findAccountCredentialById accountId) := by
  unfold findAccountCredentialById
  refine within_bind (within_need rfl) fun tenantId => ?_
  cases tenantId with
  | none => exact within_pure
  | some tenantId => exact within_need rfl

theorem signsIn_createExternalMember {accountId : Option String} :
    SignsIn (createExternalMember email accountId tenantId role now draws) := by
  cases accountId <;> exact within_need rfl

theorem signsIn_provisionExternalMember {accountId : Option String} :
    SignsIn (provisionExternalMember email accountId provider workspace now draws) := by
  have hc : SignsIn (membershipsOf accountId) := by
    cases accountId with
    | none => exact within_pure
    | some accountId => exact within_need rfl
  unfold provisionExternalMember
  dsimp only
  split_ifs
  · exact within_pure
  · refine within_bind hc fun memberships => within_bind ?_ fun _ => within_bind (within_need rfl)
      fun role => ?_
    · exact within_whenever fun _ => within_bind signsIn_audit fun _ => within_fail
    · cases role with
      | none => exact within_bind signsIn_audit fun _ => within_pure
      | some role =>
        refine within_bind signsIn_createExternalMember fun member => ?_
        cases member with
        | none => exact within_pure
        | some member => exact within_bind signsIn_audit fun _ => within_pure

/-- The member that is provisioned is one of the workspace. -/
theorem ends_giveRole {accountId : Option String} (hw : r.workspace = some workspace) :
    Ends (Resolves r) history (giveRole email accountId provider workspace.tenantId role now draws) := by
  have hc : Ends (Resolves r) history
      (createExternalMember email accountId workspace.tenantId role now draws) := by
    have ha : ∀ {found : AccountCredential} {entry : Entry} {before : History Call (Prog.Reply Call.Answer)},
        (Truthful entry → found.tenantId = workspace.tenantId) →
          Resolves r (before ++ [entry]) (some found) := by
      intro found entry before ht found' hf htru other ho
      rw [hw] at ho
      rw [← Option.some.inj ho, ← Option.some.inj hf]
      exact ht (htru _ (List.mem_append_right _ (List.mem_singleton_self _)))
    cases accountId with
    | none =>
      refine .call fun reply => ?_
      match reply with
      | .error e => exact .fail
      | .ok none => exact .pure resolves_none
      | .ok (some found) => exact .pure (ha fun h => h)
    | some accountId =>
      refine .call fun reply => ?_
      match reply with
      | .error e => exact .fail
      | .ok none => exact .pure resolves_none
      | .ok (some found) => exact .pure (ha fun h => h)
  unfold giveRole
  refine ends_ends_bind hc fun member history' _ hm => ?_
  cases member with
  | none => exact .pure resolves_none
  | some member =>
    refine ends_bind fun _ history'' hle => .pure ?_
    exact hm.mono hle.subset

theorem ends_provisionExternalMember {accountId : Option String}
    (hw : r.workspace = some workspace) :
    Ends (Resolves r) history (provisionExternalMember email accountId provider workspace now draws) := by
  unfold provisionExternalMember
  dsimp only
  split_ifs
  · exact .pure resolves_none
  · refine ends_bind fun memberships _ _ => ends_bind fun _ _ _ => ends_need_bind fun role => ?_
    cases role with
    | none => exact ends_bind fun _ _ _ => .pure resolves_none
    | some role => exact ends_giveRole hw

section

variable [AuthText]

theorem signsIn_resolveSubject {linked : Option String} {given : Option TenantProviderSignIn} :
    SignsIn (resolveSubject linked email provider given now draws) := by
  have hm : ∀ tenantId identity, SignsIn (membershipOf tenantId identity) := by
    intro tenantId identity
    cases identity with
    | none => exact within_pure
    | some identity => exact within_need rfl
  cases linked with
  | some accountId =>
    cases given with
    | none => exact signsIn_findAccountCredentialById
    | some workspace => exact signsIn_activeMembership
  | none =>
    cases given with
    | none =>
      rw [resolveSubject, resolveExternalAccount, findAccountByEmail]
      refine within_bind (within_need rfl) fun identity => ?_
      cases identity with
      | none => exact within_pure
      | some identity => exact signsIn_findAccountCredentialById
    | some workspace =>
      rw [resolveSubject, resolveExternalAccount]
      refine within_bind (within_need rfl) fun identity => ?_
      split_ifs
      · exact within_pure
      · refine within_bind (hm _ _) fun membership => ?_
        cases membership with
        | none => exact signsIn_provisionExternalMember
        | some membership => exact within_pure

/-- **The account that is resolved** is one of the workspace. -/
theorem ends_resolveSubject {linked : Option String} :
    Ends (Resolves r) history (resolveSubject linked email provider r.workspace now draws) := by
  cases hw : r.workspace with
  | none =>
    refine ends_of_forall fun _ _ _ _ _ workspace h => ?_
    rw [hw] at h
    cases h
  | some workspace =>
    cases linked with
    | some accountId => exact ends_activeMembership hw
    | none =>
      rw [resolveSubject, resolveExternalAccount]
      refine ends_need_bind fun identity => ?_
      split_ifs
      · exact .pure resolves_none
      · have hm : ∀ identity : Option AccountIdentity, ∀ history,
            Ends (Resolves r) history (membershipOf workspace.tenantId identity) := by
          intro identity history
          cases identity with
          | none => exact .pure resolves_none
          | some identity =>
            refine .call fun reply => ?_
            match reply with
            | .error e => exact .fail
            | .ok none => exact .pure resolves_none
            | .ok (some found) =>
              refine .pure fun found' hf ht other ho => ?_
              rw [hw] at ho
              rw [← Option.some.inj ho, ← Option.some.inj hf]
              exact ht _ (List.mem_append_right _ (List.mem_singleton_self _))
        refine ends_ends_bind (hm _ _) fun membership history' _ hf => ?_
        cases membership with
        | none => exact ends_provisionExternalMember hw
        | some membership =>
          refine .pure ?_
          split_ifs
          · exact hf
          · exact resolves_none

variable {policy : AuthPolicy}

/-- The session of an account that was linked. -/
theorem along_issueOrChallenge {metadata : List (String × Json)}
    {account : AccountCredential} (hi : IssuedAllowed r history account.accountId account.tenantId) :
    Along (SignInAllowed r) history (issueOrChallenge policy draws now metadata account) := by
  have hl : ∀ entry, IssuedAllowed r (history ++ [entry]) account.accountId account.tenantId :=
    fun entry => hi.mono (List.subset_append_left _ _)
  unfold issueOrChallenge
  refine along_need_bind rfl fun confirmed => ?_
  split_ifs
  · unfold issueMfaChallenge
    exact along_need_bind (hl _) fun _ => .pure
  · unfold issueAudited issue
    refine along_bind (along_need_bind (hl _) fun _ => ?_) fun issued history' _ =>
      along_bind (along_signsIn signsIn_audit) fun _ _ _ => .pure
    exact along_signsIn (within_bind (within_need rfl) fun _ => within_pure)

/-- **The calls of a sign-in** are those it may make. -/
theorem along_signInExternalIdentity : Along (SignInAllowed r) [] (r.program policy) := by
  unfold ExternalSignIn.program signInExternalIdentity
  cases hp : identifier r.provider "provider" with
  | error e => exact .fail
  | ok provider =>
    cases hs : identifier r.subject "subject" with
    | error e => exact .fail
    | ok subject =>
      refine along_need_bind rfl fun linked => ?_
      refine along_ends_bind (along_signsIn signsIn_resolveSubject) ends_resolveSubject
        fun account history' _ hr => ?_
      cases ha : account.filter fun account => account.status = .active with
      | none => exact .fail
      | some account' =>
        obtain ⟨rfl, -⟩ := Option.filter_eq_some_iff.1 ha
        have hc : SignsIn (checkSubject linked provider account'.accountId (r.workspace.map (·.tenantId))) := by
          unfold checkSubject
          exact within_whenever fun _ => within_bind (within_need rfl) fun _ => within_require
        refine along_bind (along_signsIn hc) fun _ history'' hle => along_need_bind rfl fun yes => ?_
        refine along_issueOrChallenge ⟨⟨provider, subject, yes, ⟨hp, hs⟩, ?_⟩, ?_⟩
        · exact List.mem_append_right _ (List.mem_singleton_self _)
        · intro ht workspace hw
          refine (hr.mono hle.subset) account' rfl (fun entry he => ?_) workspace hw
          exact ht entry (List.mem_append_left _ he)

end

end Programs

/-! ### The accounts and the memberships -/

/-- Every membership is of an account there is. -/
def Tables.Referenced (t : Tables) : Prop :=
  ∀ m ∈ t.memberships, (t.account m.accountId).isSome = true

/-- What a call of a sign-in leaves of the accounts and the memberships: an account stays, and
at most one membership is added, of an account that had none. -/
structure Joins (t t' : Tables) : Prop where
  accounts : ∀ accountId, (t.account accountId).isSome = true → (t'.account accountId).isSome = true
  memberships : t'.memberships = t.memberships ∨ ∃ m, t'.memberships = t.memberships ++ [m] ∧
    (t'.account m.accountId).isSome = true ∧ ∀ m' ∈ t.memberships, m'.accountId ≠ m.accountId

section Tables

variable {t t' : Tables} {c : Call} {choice : Choice}

theorem joins_of_eq (ha : t'.accounts = t.accounts) (hm : t'.memberships = t.memberships) :
    Joins t t' := by
  refine ⟨fun accountId h => ?_, .inl hm⟩
  rw [Tables.account, ha]
  exact h

theorem Joins.referenced (h : Joins t t') (hr : t.Referenced) : t'.Referenced := by
  intro m hm
  rcases h.memberships with hs | ⟨m', ha, hsome, -⟩
  · rw [hs] at hm
    exact h.accounts _ (hr m hm)
  · rw [ha] at hm
    rcases List.mem_append.1 hm with hm | hm
    · exact h.accounts _ (hr m hm)
    · rw [List.mem_singleton.1 hm]
      exact hsome

theorem Joins.added (h : Joins t t') : ∀ m' ∈ t'.memberships, m' ∈ t.memberships ∨
    ∀ m ∈ t.memberships, m.accountId ≠ m'.accountId := by
  intro m' hm'
  rcases h.memberships with hs | ⟨m, ha, -, hn⟩
  · rw [hs] at hm'
    exact .inl hm'
  · rw [ha] at hm'
    refine (List.mem_append.1 hm').imp_right fun hm' => ?_
    rw [List.mem_singleton.1 hm']
    exact hn

variable {m : MembershipRow}

/-- What a membership that is created leaves. -/
theorem createMembershipInTenant_ok {account : Option AccountCredential}
    (h : t.createMembershipInTenant m = .ok (t', account)) :
    (∃ m', m'.accountId = m.accountId ∧ t'.memberships = t.memberships ++ [m']) ∧
      t'.accounts = t.accounts ∧ (t.account m.accountId).isSome = true ∧
      account = t'.findAccountMembership m.accountId m.tenantId := by
  rw [Tables.createMembershipInTenant] at h
  obtain ⟨assigned, -, h⟩ := bind_eq_ok h
  dsimp only at h
  split_ifs at h with hn
  obtain ⟨t₁, hi, h⟩ := bind_eq_ok h
  cases h
  rw [Tables.insertMembership] at hi
  split at hi
  · cases hi
  · cases hi
    refine ⟨⟨{ m with scopes := assigned.dedup, status := .active }, rfl, rfl⟩, rfl, ?_, rfl⟩
    rw [Option.isNone_iff_eq_none] at hn
    exact Option.isSome_iff_ne_none.2 hn

theorem joins_createMembershipInTenant {account : Option AccountCredential}
    (h : t.createMembershipInTenant m = .ok (t', account)) (hn : t.countMemberships m.accountId = 0) :
    Joins t t' := by
  obtain ⟨⟨m', hid, hadd⟩, ha, hs, -⟩ := createMembershipInTenant_ok h
  have hk : ∀ accountId, t'.account accountId = t.account accountId := by
    intro accountId
    rw [Tables.account, ha]
    rfl
  refine ⟨fun accountId hs => ?_, .inr ⟨m', hadd, ?_, fun other ho heq => ?_⟩⟩
  · rw [hk]
    exact hs
  · rw [hk, hid]
    exact hs
  · have he : t.memberships.filter (fun m₀ => m₀.accountId = m.accountId) = [] :=
      List.eq_nil_of_length_eq_zero hn
    have hc : other ∈ t.memberships.filter (fun m₀ => m₀.accountId = m.accountId) :=
      List.mem_filter.2 ⟨ho, decide_eq_true (heq.trans hid)⟩
    rw [he] at hc
    cases hc

theorem joins_createAccountInTenant {a : AccountRow} {account : Option AccountCredential}
    (h : t.createAccountInTenant a m = .ok (t', account)) (href : t.Referenced) : Joins t t' := by
  rw [Tables.createAccountInTenant] at h
  obtain ⟨assigned, -, h⟩ := bind_eq_ok h
  split_ifs at h with he hid
  obtain ⟨⟨m', hm', hadd⟩, ha, hs, -⟩ := createMembershipInTenant_ok h
  dsimp only at hm' hadd ha hs
  have hk : ∀ accountId, t'.account accountId =
      (t.accounts ++ [{ a with status := .active, passwordChangeRequired := false }]).find?
        fun a => a.id = accountId := by
    intro accountId
    rw [Tables.account, ha]
  refine ⟨fun accountId hs => ?_, .inr ⟨m', hadd, ?_, fun other ho heq => ?_⟩⟩
  · rw [hk, List.find?_append, Option.isSome_or]
    exact Bool.or_eq_true_iff.2 (.inl hs)
  · rw [hk, hm']
    exact hs
  · refine hid (List.any_eq_true.2 ?_)
    obtain ⟨row, hr⟩ := Option.isSome_iff_exists.1 (href other ho)
    have hf := List.find?_some hr
    rw [decide_eq_true_eq] at hf
    exact ⟨row, List.mem_of_find?_eq_some hr, decide_eq_true (hf.trans (heq.trans hm'))⟩

/-- A credential is of the workspace that was asked for. -/
theorem findAccountMembership_tenantId {accountId tenantId : String} {found : AccountCredential}
    (h : t.findAccountMembership accountId tenantId = some found) : found.tenantId = tenantId := by
  rw [Tables.findAccountMembership] at h
  obtain ⟨a, -, h⟩ := Option.bind_eq_some_iff.1 h
  obtain ⟨m, hm, h⟩ := Option.bind_eq_some_iff.1 h
  rw [← Option.some.inj h]
  have hk := List.find?_some hm
  rw [decide_eq_true_eq] at hk
  exact congrArg Prod.snd hk

end Tables

/-! ### One call -/

/-- A call that may read or write the bindings. -/
def Call.linking : Call → Bool
  | .lookup .. => true
  | .outside .. => true
  | _ => false

section Calls

variable {s : LinkedTables} {r : ExternalSignIn} {history : History Call (Prog.Reply Call.Answer)}
  {c : Call} {next : Prog.Reply Call.Answer c → Service IssuedSession} {choice : Choice}
  {row : BindingRow}

theorem serveLinked_cases :
    (c.serveLinked s choice).2 = s ∨ (c.serveLinked s choice).2 = (c.performLinked choice s).2 := by
  unfold Call.serveLinked
  split
  · exact .inr rfl
  · next kept error _ =>
    cases kept with
    | false => exact .inl rfl
    | true => exact .inr rfl

/-- A call of the tables is answered by them. -/
theorem performLinked_tables (h : c.linking = false) : c.performLinked choice s =
    ((c.perform choice s.tables).1, { s with tables := (c.perform choice s.tables).2 }) := by
  cases c with
  | lookup => cases h
  | outside => cases h
  | _ => rfl

variable {arguments : List String} {what : String}

/-- A call that writes a binding is answered as the upsert is. -/
theorem performLinked_links (hl : (Call.outside what arguments).links = some row) :
    (Call.outside what arguments).performLinked choice s = s.linked choice.yes (s.linkExternalIdentity row) := by
  rw [Call.performLinked, hl]

/-- A call that writes no binding. -/
theorem performLinked_outside (hl : (Call.outside what arguments).links = none) :
    (Call.outside what arguments).performLinked choice s = (.ok choice.yes, s) := by
  rw [Call.performLinked, hl]

/-- What an upsert leaves. -/
theorem linkExternalIdentity_cases : (s.linked choice.yes (s.linkExternalIdentity row)).2 = s ∨
    s.bindingOf row.provider row.subject row.tenantId = none ∧
      (s.linked choice.yes (s.linkExternalIdentity row)).2 =
        { s with bindings := s.bindings ++ [row] } := by
  unfold LinkedTables.linkExternalIdentity
  split_ifs with hf ha
  · exact .inl rfl
  · exact .inl rfl
  · rw [Bool.not_eq_true, Option.isSome_eq_false_iff, Option.isNone_iff_eq_none] at hf
    exact .inr ⟨hf, rfl⟩

/-- **The bindings behind a call**: one that was free may be added. -/
theorem bindings_performLinked : (c.performLinked choice s).2.bindings = s.bindings ∨
    ∃ row, c.links = some row ∧ s.bindingOf row.provider row.subject row.tenantId = none ∧
      (c.performLinked choice s).2.bindings = s.bindings ++ [row] := by
  cases c with
  | outside what arguments =>
    cases hl : (Call.outside what arguments).links with
    | none =>
      rw [performLinked_outside hl]
      exact .inl rfl
    | some row =>
      rw [performLinked_links hl]
      rcases @linkExternalIdentity_cases s choice row with hs | ⟨hf, ha⟩
      · exact .inl (congrArg _ hs)
      · exact .inr ⟨row, rfl, hf, congrArg _ ha⟩
  | _ => exact .inl rfl

theorem mayLink_of_current (hc : bindsCurrent s (r, ⟨history, .call c next⟩) = true)
    (hl : c.links = some row) : mayLink s row = true := by
  cases c with
  | outside what arguments =>
    have ha : (Call.outside what arguments).links.all (mayLink s) = true := hc
    rw [hl] at ha
    exact ha
  | _ => cases hl

theorem bindingOf_eq_some {provider subject : String} {tenantId : Option String} {b : BindingRow}
    (h : s.bindingOf provider subject tenantId = some b) :
    b ∈ s.bindings ∧ b.provider = provider ∧ b.subject = subject ∧ b.tenantId = tenantId := by
  have hf := List.find?_some h
  simp only [Bool.and_eq_true, decide_eq_true_eq] at hf
  exact ⟨List.mem_of_find?_eq_some h, hf.1.1, hf.1.2, hf.2⟩

/-- A binding that may be written is there behind the upsert. -/
theorem mem_of_linked {yes : Bool} (hm : mayLink s row = true)
    (hok : (s.linked choice.yes (s.linkExternalIdentity row)).1 = .ok yes) :
    row ∈ (s.linked choice.yes (s.linkExternalIdentity row)).2.bindings := by
  unfold LinkedTables.linkExternalIdentity at hok ⊢
  split_ifs at hok ⊢ with hf ha
  · obtain ⟨b, hb⟩ := Option.isSome_iff_exists.1 hf
    obtain ⟨hmem, hp, hs, ht⟩ := bindingOf_eq_some hb
    rw [mayLink, LinkedTables.findExternalIdentity, hb] at hm
    have ha : b.accountId = row.accountId := of_decide_eq_true hm
    have hr : b = row := by
      obtain ⟨provider, subject, accountId, tenantId⟩ := row
      obtain ⟨provider', subject', accountId', tenantId'⟩ := b
      simp only at hp hs ht ha
      rw [hp, hs, ht, ha]
    rw [← hr]
    exact hmem
  · cases hok
  · exact List.mem_append_right _ (List.mem_singleton_self _)

/-- **The bindings stay one to one** where one is added that may be. -/
theorem OneToOne.append (h : OneToOne s.bindings) (hm : mayLink s row = true)
    (hf : s.bindingOf row.provider row.subject row.tenantId = none) :
    OneToOne (s.bindings ++ [row]) := by
  have hs : ∀ b ∈ s.bindings, b.provider = row.provider → b.tenantId = row.tenantId →
      b.subject ≠ row.subject := by
    intro b hb hp ht heq
    have hn := List.find?_eq_none.1 hf b hb
    simp [hp, ht, heq] at hn
  have ha : ∀ b ∈ s.bindings, b.provider = row.provider → b.tenantId = row.tenantId →
      b.accountId ≠ row.accountId := by
    intro b hb hp ht heq
    rw [mayLink, LinkedTables.findExternalIdentity, hf] at hm
    have hu : s.findExternalIdentitySubject row.provider row.accountId row.tenantId = none :=
      of_decide_eq_true hm
    have hn := List.find?_eq_none.1 (Option.map_eq_none_iff.1 hu) b hb
    simp [hp, ht, heq] at hn
  intro b hb b' hb' hp ht
  rcases List.mem_append.1 hb with hb | hb <;> rcases List.mem_append.1 hb' with hb' | hb'
  · exact h b hb b' hb' hp ht
  · rw [List.mem_singleton.1 hb'] at hp ht ⊢
    exact iff_of_false (hs b hb hp ht) (ha b hb hp ht)
  · rw [List.mem_singleton.1 hb] at hp ht ⊢
    exact iff_of_false (hs b' hb' hp.symm ht.symm).symm (ha b' hb' hp.symm ht.symm).symm
  · rw [List.mem_singleton.1 hb, List.mem_singleton.1 hb']
    exact iff_of_true rfl rfl

/-- A link that was made is there. -/
def Linked (s : LinkedTables) (entry : Entry) : Prop :=
  match entry with
  | ⟨.outside what arguments, .ok _⟩ => ∀ row, (Call.outside what arguments).links = some row → row ∈ s.bindings
  | _ => True

theorem Linked.mono {s' : LinkedTables} {entry : Entry} (hs : s.bindings ⊆ s'.bindings) (h : Linked s entry) :
    Linked s' entry := by
  obtain ⟨c, reply⟩ := entry
  cases c with
  | outside what arguments =>
    cases reply with
    | error e => trivial
    | ok yes => exact fun row hr => hs (h row hr)
  | _ => trivial

/-- **A link that is made is there** behind it. -/
theorem linked_serveLinked (hc : bindsCurrent s (r, ⟨history, .call c next⟩) = true) :
    Linked (c.serveLinked s choice).2 ⟨c, (c.serveLinked s choice).1⟩ := by
  cases c with
  | outside what arguments =>
    unfold Call.serveLinked
    split
    · cases hr : ((Call.outside what arguments).performLinked choice s).1 with
      | error e => trivial
      | ok yes =>
        intro row hl
        rw [performLinked_links hl] at hr ⊢
        exact mem_of_linked (mayLink_of_current hc hl) hr
    · trivial
  | _ => trivial

/-- **Credentials are of the workspace** that was asked for. -/
theorem truthful_serveLinked : Truthful ⟨c, (c.serveLinked s choice).1⟩ := by
  unfold Call.serveLinked
  split
  · cases c with
    | findAccountMembership accountId tenantId =>
      rw [performLinked_tables rfl, Call.perform]
      cases hf : s.tables.findAccountMembership accountId tenantId with
      | none => trivial
      | some found => exact findAccountMembership_tenantId hf
    | createMembershipInTenant m =>
      rw [performLinked_tables rfl, Call.perform]
      cases hc : s.tables.createMembershipInTenant m with
      | error e => trivial
      | ok result =>
        obtain ⟨t', account⟩ := result
        cases account with
        | none => trivial
        | some account =>
          obtain ⟨-, -, -, hf⟩ := createMembershipInTenant_ok hc
          exact findAccountMembership_tenantId hf.symm
    | createAccountInTenant a m =>
      rw [performLinked_tables rfl, Call.perform]
      cases hc : s.tables.createAccountInTenant a m with
      | error e => trivial
      | ok result =>
        obtain ⟨t', account⟩ := result
        cases account with
        | none => trivial
        | some account =>
          rw [Tables.createAccountInTenant] at hc
          obtain ⟨assigned, -, hc⟩ := bind_eq_ok hc
          split_ifs at hc
          obtain ⟨-, -, -, hf⟩ := createMembershipInTenant_ok hc
          exact findAccountMembership_tenantId hf.symm
    | _ => trivial
  · cases c <;> trivial

/-- **The accounts and the memberships behind a call.** -/
theorem joins_performLinked (ha : SignInAllowed r history c)
    (hc : bindsCurrent s (r, ⟨history, .call c next⟩) = true) (hr : s.tables.Referenced) :
    Joins s.tables (c.performLinked choice s).2.tables := by
  cases c with
  | createMembershipInTenant m =>
    rw [performLinked_tables rfl, Call.perform]
    cases hcre : s.tables.createMembershipInTenant m with
    | error e => exact joins_of_eq rfl rfl
    | ok result => exact joins_createMembershipInTenant hcre (of_decide_eq_true hc)
  | createAccountInTenant a m =>
    rw [performLinked_tables rfl, Call.perform]
    cases hcre : s.tables.createAccountInTenant a m with
    | error e => exact joins_of_eq rfl rfl
    | ok result => exact joins_createAccountInTenant hcre hr
  | createSession row =>
    rw [performLinked_tables rfl, Call.perform]
    unfold Tables.createSession
    split_ifs <;> exact joins_of_eq rfl rfl
  | createMfaChallenge row =>
    rw [performLinked_tables rfl, Call.perform]
    unfold Tables.createMfaChallenge
    dsimp only
    split_ifs <;> exact joins_of_eq rfl rfl
  | outside what arguments =>
    cases hl : (Call.outside what arguments).links with
    | none =>
      rw [performLinked_outside hl]
      exact joins_of_eq rfl rfl
    | some row =>
      rw [performLinked_links hl]
      rcases @linkExternalIdentity_cases s choice row with hs | ⟨-, hadd⟩
      · rw [hs]
        exact joins_of_eq rfl rfl
      · rw [hadd]
        exact joins_of_eq rfl rfl
  | findAccountMembership => exact joins_of_eq rfl rfl
  | findAccountIdentity => exact joins_of_eq rfl rfl
  | tenantOfAccount => exact joins_of_eq rfl rfl
  | countMemberships => exact joins_of_eq rfl rfl
  | findRoleByKey => exact joins_of_eq rfl rfl
  | listTenantAccess => exact joins_of_eq rfl rfl
  | appendAudit => exact joins_of_eq rfl rfl
  | lookup => exact joins_of_eq rfl rfl
  | _ => cases ha

end Calls

/-! ### Runs -/

section Runs

variable [AuthText] {policy : AuthPolicy} {start s : LinkedTables} {r : ExternalSignIn}
  {history : History Call (Prog.Reply Call.Answer)} {c : Call}
  {next : Prog.Reply Call.Answer c → Service IssuedSession} {choice : Choice} {ps : List SigningIn}

/-- What holds of the tables and all sign-ins there were. -/
structure BoundRun (s : LinkedTables) (ps : List SigningIn) : Prop where
  oneToOne : OneToOne s.bindings
  referenced : s.tables.Referenced
  allowed : ∀ p ∈ ps, Along (SignInAllowed p.1) p.2.history p.2.rest
  truthful : ∀ p ∈ ps, ∀ entry ∈ p.2.history, Truthful entry
  linked : ∀ p ∈ ps, ∀ entry ∈ p.2.history, Linked s entry
  issued : ∀ p ∈ ps, ∀ accountId tenantId, signedIn p accountId tenantId →
    IssuedAllowed p.1 p.2.history accountId tenantId

omit [AuthText] in
/-- Bindings stay behind a call. -/
theorem bindings_subset : s.bindings ⊆ (c.serveLinked s choice).2.bindings := by
  rcases @serveLinked_cases s c choice with hs | hp
  · rw [hs]
    exact List.Subset.refl _
  · rw [hp]
    rcases @bindings_performLinked s c choice with hs | ⟨row, -, -, ha⟩
    · rw [hs]
      exact List.Subset.refl _
    · rw [ha]
      exact List.subset_append_left _ _

omit [AuthText] in
theorem joins_serveLinked (ha : SignInAllowed r history c)
    (hc : bindsCurrent s (r, ⟨history, .call c next⟩) = true) (hr : s.tables.Referenced) :
    Joins s.tables (c.serveLinked s choice).2.tables := by
  rcases @serveLinked_cases s c choice with hs | hp
  · rw [hs]
    exact joins_of_eq rfl rfl
  · rw [hp]
    exact joins_performLinked ha hc hr

omit [AuthText] in
theorem oneToOne_serveLinked (hc : bindsCurrent s (r, ⟨history, .call c next⟩) = true)
    (h : OneToOne s.bindings) : OneToOne (c.serveLinked s choice).2.bindings := by
  rcases @serveLinked_cases s c choice with hs | hp
  · rw [hs]
    exact h
  · rw [hp]
    rcases @bindings_performLinked s c choice with hs | ⟨row, hl, hf, ha⟩
    · rw [hs]
      exact h
    · rw [ha]
      exact h.append (mayLink_of_current hc hl) hf

variable {tenantId : String}

omit [AuthText] in
/-- What is issued may be, behind the call that issues it. -/
theorem issued_append {entry : Entry} {accountId : String} (ha : SignInAllowed r history entry.1)
    (hb : (∃ entry ∈ history, issuedTo entry = some (accountId, tenantId)) →
      IssuedAllowed r history accountId tenantId)
    (h : ∃ entry' ∈ history ++ [entry], issuedTo entry' = some (accountId, tenantId)) :
    IssuedAllowed r (history ++ [entry]) accountId tenantId := by
  refine IssuedAllowed.mono (List.subset_append_left _ _) ?_
  obtain ⟨entry', hm, hi⟩ := h
  rcases List.mem_append.1 hm with hm | hm
  · exact hb ⟨entry', hm, hi⟩
  · obtain rfl := List.mem_singleton.1 hm
    obtain ⟨c, reply⟩ := entry'
    cases c with
    | createSession row =>
      cases reply with
      | error e => cases hi
      | ok a =>
        cases hi
        exact ha
    | createMfaChallenge row =>
      cases reply with
      | error e => cases hi
      | ok a =>
        cases hi
        exact ha
    | _ => cases hi

omit [AuthText] in
/-- **One call of a sign-in.** -/
theorem BoundRun.call (h : BoundRun s ((r, ⟨history, .call c next⟩) :: ps))
    (hc : bindsCurrent s (r, ⟨history, .call c next⟩) = true) :
    BoundRun (c.serveLinked s choice).2
      ((r, ⟨history ++ [⟨c, (c.serveLinked s choice).1⟩], next (c.serveLinked s choice).1⟩) :: ps) := by
  obtain ⟨hp, ho⟩ := List.forall_mem_cons.1 h.allowed
  obtain ⟨htru, ht⟩ := List.forall_mem_cons.1 h.truthful
  obtain ⟨hlin, hl⟩ := List.forall_mem_cons.1 h.linked
  obtain ⟨hi, hiss⟩ := List.forall_mem_cons.1 h.issued
  have ha : SignInAllowed r history c := Along.ok_call hp
  refine ⟨oneToOne_serveLinked hc h.oneToOne, (joins_serveLinked ha hc h.referenced).referenced
      h.referenced, List.forall_mem_cons.2 ⟨Along.next hp _, ho⟩,
    List.forall_mem_cons.2 ⟨List.forall_mem_append.2 ⟨htru, List.forall_mem_singleton.2
      truthful_serveLinked⟩, ht⟩,
    List.forall_mem_cons.2 ⟨List.forall_mem_append.2 ⟨fun entry he => ?_, List.forall_mem_singleton.2
      (linked_serveLinked hc)⟩, fun p hp entry he => ?_⟩,
    List.forall_mem_cons.2 ⟨fun accountId tenantId hs => ?_, hiss⟩⟩
  · exact (hlin entry he).mono bindings_subset
  · exact (hl p hp entry he).mono bindings_subset
  · exact issued_append ha (hi accountId tenantId) hs

/-- What holds of the tables and all sign-ins. -/
def boundChronicle : Chronicle (externalSignIns policy) BindsCurrent where
  holds := BoundRun
  perm := by
    intro s ps ps' hperm h
    exact ⟨h.oneToOne, h.referenced, fun p hp => h.allowed p (hperm.mem_iff.2 hp),
      fun p hp => h.truthful p (hperm.mem_iff.2 hp), fun p hp => h.linked p (hperm.mem_iff.2 hp),
      fun p hp => h.issued p (hperm.mem_iff.2 hp)⟩
  start := by
    rintro s ps r p h hstart
    obtain rfl := recorder_signed_enter hstart
    refine ⟨h.oneToOne, h.referenced, List.forall_mem_cons.2 ⟨along_signInExternalIdentity, h.allowed⟩,
      List.forall_mem_cons.2 ⟨fun _ hentry => (nomatch hentry), h.truthful⟩,
      List.forall_mem_cons.2 ⟨fun _ hentry => (nomatch hentry), h.linked⟩,
      List.forall_mem_cons.2 ⟨fun _ _ hsigned => ?_, h.issued⟩⟩
    obtain ⟨_, hentry, -⟩ := hsigned
    cases hentry
  stop h := h
  move := by
    rintro s others gone p choice s' p' h hcond hmove
    obtain ⟨r, history, c, next, rfl, rfl, rfl⟩ := recorder_signed_next hmove
    exact h.call hcond

omit [AuthText] in
/-- Who is signed in is bound. -/
theorem BoundRun.bound (h : BoundRun s ps) {p : SigningIn} (hp : p ∈ ps) {accountId : String}
    (hs : signedIn p accountId tenantId) :
    ∃ b ∈ s.bindings, p.1.identifies b.provider b.subject ∧ b.tenantId = p.1.space ∧
      b.accountId = accountId := by
  obtain ⟨⟨provider, subject, yes, hid, hm⟩, -⟩ := h.issued p hp _ _ hs
  have hspa : p.1.space.toList.head? = p.1.space := by
    cases p.1.space <;> rfl
  have hl : (Call.outside "linkExternalIdentity" ([provider, subject, accountId] ++ p.1.space.toList)).links =
      some ⟨provider, subject, accountId, p.1.space.toList.head?⟩ := by
    simp [Call.links]
  have ht := h.linked p hp _ hm
  exact ⟨_, ht _ hl, hid, hspa, rfl⟩

omit [AuthText] in
theorem BoundRun.staysBound (h : BoundRun s ps) : StaysBound s ps := by
  refine ⟨h.oneToOne, fun p hp _ _ hs => h.bound hp hs, ?_, ?_⟩
  · intro p hp q hq provider subject hid hid' hspa accountId tenantId accountId' tenantId' hs hs'
    obtain ⟨b, hb, hbou, hbsp, rfl⟩ := h.bound hp hs
    obtain ⟨b', hb', hbou', hbsp', rfl⟩ := h.bound hq hs'
    have hpro : b.provider = b'.provider :=
      (Except.ok.inj (hbou.1.symm.trans hid.1)).trans (Except.ok.inj (hid'.1.symm.trans hbou'.1))
    have hsub : b.subject = b'.subject :=
      (Except.ok.inj (hbou.2.symm.trans hid.2)).trans (Except.ok.inj (hid'.2.symm.trans hbou'.2))
    have ht : b.tenantId = b'.tenantId := hbsp.trans (hspa.trans hbsp'.symm)
    exact (h.oneToOne b hb b' hb' hpro ht).1 hsub
  · intro p hp workspace hw accountId tenantId hs
    exact (h.issued p hp _ _ hs).2 (h.truthful p hp) workspace hw

/-- **What one step does to the bindings and the memberships.** -/
theorem boundStep_of_step {crew crew' : Crew (LinkedTables × List SigningIn) SigningIn}
    (hr : crew.shared.1.tables.Referenced)
    (halo : ∀ p ∈ crew.processes, Along (SignInAllowed p.1) p.2.history p.2.rest)
    (hstep : Crew.Step (externalSignIns policy).ledger (Machine.Condition.ledger BindsCurrent) crew crew') :
    BoundStep crew.shared.1 crew'.shared.1 := by
  have hs : ∀ s : LinkedTables, BoundStep s s := fun s => ⟨fun _ hb => hb, fun _ hm => .inl hm⟩
  cases hstep with
  | start h => exact hs _
  | stop => exact hs _
  | @move s s' before behind p p' choice hmove hc =>
    obtain ⟨r, history, c, next, rfl, hser⟩ := Prog.recorder_ledger_next hmove
    rw [hser]
    have hmem : ((r, ⟨history, .call c next⟩) : SigningIn) ∈ before ++ (r, ⟨history, .call c next⟩) :: behind :=
      List.mem_append_right _ List.mem_cons_self
    have hp := halo _ hmem
    have ha : SignInAllowed r history c := Along.ok_call hp
    have hj : Joins s.1.tables (c.serveLinked s.1 choice).2.tables :=
      joins_serveLinked ha hc hr
    have hk : s.1.bindings ⊆ (c.serveLinked s.1 choice).2.bindings := bindings_subset
    exact ⟨hk, hj.added⟩

/-- **External identities stay bound**: in every run in which a binding is written while the
subject has none and the account no other subject, or while it is the one there is, and a
membership is added to an account that has none. -/
theorem external_identities_stay_bound (honetoone : OneToOne start.bindings)
    (hreferenced : start.tables.Referenced) {crew : Crew (LinkedTables × List SigningIn) SigningIn}
    (h : Crew.Reachable (externalSignIns policy).ledger (Machine.Condition.ledger BindsCurrent)
      (start, []) crew) :
    StaysBound crew.shared.1 crew.everyone ∧
      ∀ crew', Crew.Step (externalSignIns policy).ledger (Machine.Condition.ledger BindsCurrent) crew crew' →
        BoundStep crew.shared.1 crew'.shared.1 := by
  have hemp : BoundRun start [] :=
    ⟨honetoone, hreferenced, fun _ hp => (nomatch hp), fun _ hp => (nomatch hp), fun _ hp => (nomatch hp),
      fun _ hp => (nomatch hp)⟩
  have he : BoundRun crew.shared.1 crew.everyone := boundChronicle.reachable hemp h
  refine ⟨he.staysBound, fun crew' hs => boundStep_of_step he.referenced (fun p hp => ?_) hs⟩
  exact he.allowed p (List.mem_append_left _ hp)

end Runs

/-! ### Sample runs -/

/-- A role of a workspace. -/
def sampleMember (tenantId : String) : TenantRole where
  id := tenantId ++ " member"
  tenantId := tenantId
  key := "member"
  name := "Member"
  description := ""
  scopes := []
  builtin := false

/-- Two members of a workspace, and an account that belongs to none. -/
def linkedTables : LinkedTables where
  tables := {
    accounts := [sampleAccount "ada", sampleAccount "bob", sampleAccount "eve"]
    memberships := [sampleOwner "ada" "t", sampleOwner "bob" "t"]
    roles := [sampleMember "t", sampleMember "u"]
    keys := by decide }

theorem linkedTables_referenced : linkedTables.tables.Referenced := by
  intro m hm
  rcases List.mem_cons.1 hm with rfl | hm
  · decide
  · rw [List.mem_singleton.1 hm]
    decide

theorem linkedTables_oneToOne : OneToOne linkedTables.bindings :=
  fun _ hb => (nomatch hb)

/-- A sign-in of one subject, with the address that is reported. -/
def sampleExternal (email : String) : ExternalSignIn where
  provider := "idp"
  subject := "s"
  email := email
  now := 0
  draws := { token := email }

/-- A sign-in through the provider of a workspace that takes members in. -/
def sampleJit (tenantId : String) : ExternalSignIn where
  provider := "idp"
  subject := "s"
  email := "eve"
  workspace := some ⟨tenantId, true, ["eve"], "member"⟩
  now := 0

/-- Moves of the sign-in at a position, where nobody has a second factor. -/
def linkedMoves (i n : ℕ) : List (Crew.Turn ExternalSignIn Choice) :=
  List.replicate n (.move i { yes := false })

/-- The accounts the sign-ins were issued sessions for, and those that are bound. -/
def sampleSigned (crew : Crew (LinkedTables × List SigningIn) SigningIn) :
    List (List (String × String)) × List String :=
  (crew.everyone.map fun p => p.2.history.filterMap issuedTo, crew.shared.1.bindings.map (·.accountId))

/-- The sign-in of a subject that is bound by it. -/
theorem external_identities_bound : ∃ crew,
    Crew.Reachable (@externalSignIns plainText {}).ledger (Machine.Condition.ledger BindsCurrent)
      (linkedTables, []) crew ∧
    sampleSigned crew = ([[("ada", "t")]], ["ada"]) ∧
    StaysBound crew.shared.1 crew.everyone ∧
    ∀ crew', Crew.Step (@externalSignIns plainText {}).ledger (Machine.Condition.ledger BindsCurrent)
      crew crew' → BoundStep crew.shared.1 crew'.shared.1 := by
  have hp : (Crew.play (@externalSignIns plainText {}).ledger
      (fun s _ p => bindsCurrent s.1 p = true) ⟨(linkedTables, []), []⟩
      (.start (sampleExternal "ada") :: linkedMoves 0 8)).map sampleSigned =
        some ([[("ada", "t")]], ["ada"]) := by decide +kernel
  obtain ⟨crew, hc, hs⟩ := Option.map_eq_some_iff.1 hp
  have hr : Crew.Reachable (@externalSignIns plainText {}).ledger
      (Machine.Condition.ledger BindsCurrent) (linkedTables, []) crew :=
    (Crew.reachable_of_play hc).mono fun _ _ _ h => h
  exact ⟨crew, hr, hs, @external_identities_stay_bound plainText {} linkedTables
    linkedTables_oneToOne linkedTables_referenced crew hr⟩

/-- Two sign-ins of one subject, with two addresses: both look the subject up before one binds
it, and the other is issued a session for an account the subject is not bound to.  And two
workspaces take one account in that belongs to neither. -/
theorem external_identities_raced :
    (∃ crew, Crew.Reachable (@externalSignIns plainText {}).ledger (fun _ _ _ => True)
        (linkedTables, []) crew ∧
      sampleSigned crew = ([[("bob", "t")], [("ada", "t")]], ["ada"]) ∧
      ¬ StaysBound crew.shared.1 crew.everyone) ∧
    ∃ crew crew', Crew.Reachable (@externalSignIns plainText {}).ledger (fun _ _ _ => True)
        (linkedTables, []) crew ∧
      Crew.Step (@externalSignIns plainText {}).ledger (fun _ _ _ => True) crew crew' ∧
      ¬ BoundStep crew.shared.1 crew'.shared.1 := by
  have hf : (Crew.play (@externalSignIns plainText {}).ledger (fun _ _ _ => True)
      ⟨(linkedTables, []), []⟩ (.start (sampleExternal "ada") :: linkedMoves 0 5 ++
        .start (sampleExternal "bob") :: linkedMoves 0 5 ++ linkedMoves 1 3 ++
        linkedMoves 0 3)).map sampleSigned =
        some ([[("bob", "t")], [("ada", "t")]], ["ada"]) := by decide +kernel
  have hj : ((Crew.play (@externalSignIns plainText {}).ledger (fun _ _ _ => True)
      ⟨(linkedTables, []), []⟩ (.start (sampleJit "t") :: linkedMoves 0 5 ++
        .start (sampleJit "u") :: linkedMoves 0 5 ++ linkedMoves 1 1)).bind fun crew =>
      (Crew.turn (@externalSignIns plainText {}).ledger (fun _ _ _ => True) crew (.move 0 {})).bind
        fun crew' => some ((crew, crew'), crew.shared.1.tables.memberships.map (·.key),
          crew'.shared.1.tables.memberships.map (·.key))).map Prod.snd =
        some ([("ada", "t"), ("bob", "t"), ("eve", "t")],
          [("ada", "t"), ("bob", "t"), ("eve", "t"), ("eve", "u")]) := by decide +kernel
  obtain ⟨crew, hc, hs⟩ := Option.map_eq_some_iff.1 hf
  obtain ⟨_, hrun, hr⟩ := Option.map_eq_some_iff.1 hj
  obtain ⟨crew₁, hcrew₁, hrun⟩ := Option.bind_eq_some_iff.1 hrun
  obtain ⟨crew₂, hturn, hrun⟩ := Option.bind_eq_some_iff.1 hrun
  obtain rfl := Option.some.inj hrun
  obtain ⟨hbef, haft⟩ := Prod.mk.inj hr
  refine ⟨⟨crew, Crew.reachable_of_play hc, hs, fun h => ?_⟩, crew₁, crew₂,
    Crew.reachable_of_play hcrew₁, Crew.step_of_turn hturn, fun h => ?_⟩
  · obtain ⟨hi, hbou⟩ := Prod.mk.inj hs
    have hbob : [("bob", "t")] ∈ crew.everyone.map fun p => p.2.history.filterMap issuedTo := by
      rw [hi]
      exact List.mem_cons_self
    obtain ⟨p, hp, hh⟩ := List.mem_map.1 hbob
    have he : ("bob", "t") ∈ p.2.history.filterMap issuedTo := by
      rw [hh]
      exact List.mem_singleton_self _
    obtain ⟨entry, hmem, he⟩ := List.mem_filterMap.1 he
    obtain ⟨b, hb, -, -, ha⟩ := h.bound p hp "bob" "t" ⟨entry, hmem, he⟩
    have ht : b.accountId ∈ crew.shared.1.bindings.map (·.accountId) := List.mem_map_of_mem hb
    rw [hbou, ha] at ht
    exact absurd ht (by decide)
  · have heve : ("eve", "u") ∈ crew₂.shared.1.tables.memberships.map (·.key) := by
      rw [haft]
      decide
    have hold : ("eve", "t") ∈ crew₁.shared.1.tables.memberships.map (·.key) := by
      rw [hbef]
      decide
    obtain ⟨m', hm', hkey'⟩ := List.mem_map.1 heve
    obtain ⟨m, hm, hkey⟩ := List.mem_map.1 hold
    rcases h.memberships m' hm' with hk | hn
    · have ht : m'.key ∈ crew₁.shared.1.tables.memberships.map (·.key) := List.mem_map_of_mem hk
      rw [hkey', hbef] at ht
      exact absurd ht (by decide)
    · exact hn m hm ((Prod.mk.inj hkey).1.trans (Prod.mk.inj hkey').1.symm)

end Flowdular.Auth
