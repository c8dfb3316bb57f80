/-
# A disabled member stays out

Calls of `setMembershipStatus`, `setMemberStatus`, the ways to sign in, `switchTenant` and
`issueApiToken`, by any actors and for any accounts, take turns call by call on the rows of
all workspaces.  Barred is what a disabling call leaves behind when it finishes, and what
is created while the membership is disabled; a session is barred for its account's status
too.  What is barred never resolves, where a session or a token is inserted only while the
membership is not disabled and no disabling call is behind the step that removes it
(`disabled_stays_out`).

Whoever is disabled when a session or a token is presented is refused without any condition.
-/

import Flowdular.Auth.ApiTokens

namespace Flowdular.Auth

open Lib Workflows
open Prog (History Recorded recorder recorder_next Ends ends_bind ends_need_bind)

/-! ### The machine -/

/-- What a finished call has disabled. -/
inductive Shut
  | membership (accountId tenantId : String)
  | account (accountId : String)
deriving DecidableEq

/-- The membership of a session is shut. -/
def Shut.covers (accountId tenantId : String) : Shut → Bool
  | .membership a t => a = accountId && t = tenantId
  | .account a => a = accountId

/-- A call of one of the operations. -/
inductive AccessRequest
  | setMembershipStatus (actor : AuthActor) (accountId : String) (status : Status) (now : ℤ)
  | setMemberStatus (actor : AuthActor) (accountId : String) (status : Status)
  | signIn (input : SignInInput) (address : Option String) (now : ℤ) (draws : Draws)
  | completeMfaChallenge (token : String) (code recoveryCode : Option String) (now : ℤ) (draws : Draws)
  | signInExternalIdentity (provider subject email : String) (workspace : Option TenantProviderSignIn)
      (now : ℤ) (draws : Draws)
  | switchTenant (token tenantId : String) (now : ℤ) (draws : Draws)
  | issueApiToken (input : CreateApiTokenInput) (draws : Draws)

/-- A program that disables nothing. -/
def opens {α : Type} (p : Service α) : Service (Option Shut) := do
  let _ ← p
  return none

/-- The program that answers a request, with what it has disabled. -/
def AccessRequest.program [AuthText] (policy : AuthPolicy) : AccessRequest → Service (Option Shut)
  | .setMembershipStatus actor accountId status now => do
    let (accountId, status) ← Auth.setMembershipStatus actor accountId status now
    return if status = .disabled then some (.membership accountId actor.tenantId) else none
  | .setMemberStatus actor accountId status => do
    let record ← Auth.setMemberStatus actor accountId status
    return if status = .disabled then some (.account record.accountId) else none
  | .signIn input address now draws => opens (Auth.signIn policy input address now draws)
  | .completeMfaChallenge token code recoveryCode now draws =>
    opens (Auth.completeMfaChallenge policy token code recoveryCode now draws)
  | .signInExternalIdentity provider subject email workspace now draws =>
    opens (Auth.signInExternalIdentity policy provider subject email workspace now draws)
  | .switchTenant token tenantId now draws => opens (Auth.switchTenant policy token tenantId now draws)
  | .issueApiToken input draws => opens (Auth.issueApiToken input draws)

/-- A process, with what it has read and done. -/
abbrev AccessProcess :=
  Recorded Call (Prog.Reply Call.Answer) (Option Shut)

namespace Tables

variable (s : Tables)

/-- The membership is disabled. -/
def membershipDisabled (accountId tenantId : String) : Bool :=
  (s.membershipRow accountId tenantId).any fun m => m.status = .disabled

/-- The membership or its account is disabled. -/
def disabled (accountId tenantId : String) : Bool :=
  s.membershipDisabled accountId tenantId || (s.account accountId).any fun a => a.status = .disabled

/-- The numbers tell the rows apart, and the counter is beyond them. -/
structure Numbered : Prop where
  session : ∀ x ∈ s.sessions, x.number < s.inserted
  token : ∀ x ∈ s.apiTokens, x.number < s.inserted
  sessions_nodup : (s.sessions.map (·.number)).Nodup
  tokens_nodup : (s.apiTokens.map (·.number)).Nodup

end Tables

/-- The tables, and the numbers of the sessions and tokens that are barred. -/
structure Gate where
  tables : Tables
  barredSessions : List ℕ := []
  barredTokens : List ℕ := []

/-- The gate behind a step: new rows of a disabled membership are barred, and those a
finished call has shut. -/
def Gate.bar (g : Gate) (s : Tables) (shut : Option Shut) : Gate where
  tables := s
  barredSessions := g.barredSessions ++ (s.sessions.filter fun x =>
    (decide (g.tables.inserted ≤ x.number) && s.disabled x.accountId x.tenantId) ||
      shut.any (Shut.covers x.accountId x.tenantId)).map (·.number)
  barredTokens := g.barredTokens ++ (s.apiTokens.filter fun x =>
    (decide (g.tables.inserted ≤ x.number) && s.membershipDisabled x.accountId x.tenantId) ||
      decide (shut = some (.membership x.accountId x.tenantId))).map (·.number)

/-- What a process has shut, if it has just finished. -/
def outcome (p : AccessProcess) : Option Shut :=
  match p.rest with
  | .pure shut => shut
  | _ => none

/-- The operations on the gate. -/
def access [AuthText] (policy : AuthPolicy) : Machine Gate AccessProcess AccessRequest Choice where
  enter _ r := some ⟨[], r.program policy⟩
  next g p choice :=
    ((recorder (AccessRequest.program policy) Call.serve).next g.tables p choice).map fun (s, p) =>
      (g.bar s (outcome p), p)
  stop g _ := g

/-! ### The condition -/

/-- A step that leaves no session of a membership. -/
def clearsSessions (accountId tenantId : String) : Entry → Bool
  | ⟨.deleteMembershipSessions a t, .ok _⟩ => a = accountId && t = tenantId
  | ⟨.sessionTenants a, .ok tenants⟩ => a = accountId && decide (tenantId ∉ tenants)
  | _ => false

/-- A step that leaves no API token of a membership. -/
def revokesTokens (accountId tenantId : String) : Entry → Bool
  | ⟨.revokeMembershipApiTokens t a _ _, .ok _⟩ => a = accountId && t = tenantId
  | _ => false

/-- The process goes on behind a step of a kind. -/
def behind (removes : Entry → Bool) (p : AccessProcess) : Bool :=
  p.running && p.history.any removes

/-- The condition on a move: a session is inserted while neither its membership nor its
account is disabled and no call is behind the removal of such sessions; and so is an API
token, where its membership is not disabled. -/
def guarded (g : Gate) (others : List AccessProcess) (p : AccessProcess) : Bool :=
  match p.rest with
  | .call (.createSession row) _ =>
    !g.tables.disabled row.accountId row.tenantId &&
      (p :: others).all fun q => !behind (clearsSessions row.accountId row.tenantId) q
  | .call (.createApiToken row) _ =>
    !g.tables.membershipDisabled row.accountId row.tenantId &&
      (p :: others).all fun q => !behind (revokesTokens row.accountId row.tenantId) q
  | _ => true

/-- `guarded`, as a condition of the machine. -/
def Guarded : Machine.Condition Gate AccessProcess :=
  fun g others p => guarded g others p = true

/-! ### What a call does to sessions and tokens -/

/-- The call inserts a session of a membership. -/
def Call.insertsSession (c : Call) (accountId tenantId : String) : Prop :=
  ∃ row, c = .createSession row ∧ row.accountId = accountId ∧ row.tenantId = tenantId

/-- The call inserts an API token of a membership. -/
def Call.insertsToken (c : Call) (accountId tenantId : String) : Prop :=
  ∃ row, c = .createApiToken row ∧ row.accountId = accountId ∧ row.tenantId = tenantId

/-- The sessions and tokens behind a call: each is one there was, where no token is taken
out of revocation, or the one the call inserts. -/
structure Follows (c : Call) (s s' : Tables) : Prop where
  inserted : s.inserted ≤ s'.inserted
  session : ∀ x ∈ s'.sessions,
    (∃ y ∈ s.sessions, y.number = x.number ∧ y.accountId = x.accountId ∧ y.tenantId = x.tenantId) ∨
      x.number = s.inserted ∧ s.inserted < s'.inserted ∧ c.insertsSession x.accountId x.tenantId
  token : ∀ x ∈ s'.apiTokens,
    (∃ y ∈ s.apiTokens, y.number = x.number ∧ y.accountId = x.accountId ∧ y.tenantId = x.tenantId ∧
        (y.revokedAt ≠ none → x.revokedAt ≠ none)) ∨
      x.number = s.inserted ∧ s.inserted < s'.inserted ∧ c.insertsToken x.accountId x.tenantId
  nodup : s.Numbered → s'.Numbered

section Follows

variable {c : Call} {s s' : Tables} {choice : Choice} {accountId tenantId : String}

/-- A call that only takes rows away. -/
theorem follows_of_sublist (hses : s'.sessions.Sublist s.sessions)
    (ht : s'.apiTokens.Sublist s.apiTokens) (hi : s'.inserted = s.inserted) :
    Follows c s s' where
  inserted := Nat.le_of_eq hi.symm
  session x hx := .inl ⟨x, hses.subset hx, rfl, rfl, rfl⟩
  token x hx := .inl ⟨x, ht.subset hx, rfl, rfl, rfl, id⟩
  nodup hs := {
    session := fun x hx => hi ▸ hs.session x (hses.subset hx)
    token := fun x hx => hi ▸ hs.token x (ht.subset hx)
    sessions_nodup := hs.sessions_nodup.sublist (hses.map _)
    tokens_nodup := hs.tokens_nodup.sublist (ht.map _) }

theorem follows_self : Follows c s s :=
  follows_of_sublist (List.Sublist.refl _) (List.Sublist.refl _) rfl

/-- A call that touches neither. -/
theorem follows_of_eq (hs : s'.sessions = s.sessions) (ht : s'.apiTokens = s.apiTokens)
    (hi : s'.inserted = s.inserted) : Follows c s s' :=
  follows_of_sublist (hs ▸ List.Sublist.refl _) (ht ▸ List.Sublist.refl _) hi

/-- A call that changes sessions, but not whose they are. -/
theorem follows_of_update {selects : SessionRow → Bool} {change : SessionRow → SessionRow}
    (hc : ∀ x, (change x).number = x.number ∧ (change x).accountId = x.accountId ∧
      (change x).tenantId = x.tenantId) :
    Follows c s { s with sessions := Table.update selects change s.sessions } where
  inserted := le_rfl
  session x hx := by
    obtain ⟨y, hy, rfl⟩ := List.mem_map.1 hx
    refine .inl ⟨y, hy, ?_⟩
    split
    · exact ⟨(hc y).1.symm, (hc y).2.1.symm, (hc y).2.2.symm⟩
    · exact ⟨rfl, rfl, rfl⟩
  token x hx := .inl ⟨x, hx, rfl, rfl, rfl, id⟩
  nodup hs := {
    session := by
      intro x hx
      obtain ⟨y, hy, rfl⟩ := List.mem_map.1 hx
      split
      · rw [(hc y).1]
        exact hs.session y hy
      · exact hs.session y hy
    token := hs.token
    sessions_nodup := by
      rw [Table.map_update _ fun x => (hc x).1]
      exact hs.sessions_nodup
    tokens_nodup := hs.tokens_nodup }

theorem nodup_append_inserted {numbers : List ℕ} {n : ℕ} (h : numbers.Nodup)
    (hb : ∀ m ∈ numbers, m < n) : (numbers ++ [n]).Nodup := by
  rw [List.nodup_append]
  refine ⟨h, List.nodup_singleton _, ?_⟩
  intro m hm k hk
  have hlt := hb m hm
  rw [List.mem_singleton.1 hk]
  omega

theorem follows_createSession {row : SessionRow} :
    Follows (.createSession row) s ((Call.createSession row).perform choice s).2 := by
  simp only [Call.perform, Tables.createSession]
  split_ifs
  · exact follows_self
  · exact follows_self
  · refine ⟨Nat.le_succ _, ?_, fun x hx => .inl ⟨x, hx, rfl, rfl, rfl, id⟩, fun hs => ?_⟩
    · intro x hx
      rcases List.mem_append.1 hx with hx | hx
      · exact .inl ⟨x, hx, rfl, rfl, rfl⟩
      · rw [List.mem_singleton.1 hx]
        exact .inr ⟨rfl, Nat.lt_succ_self _, row, rfl, rfl, rfl⟩
    · refine ⟨?_, fun x hx => Nat.lt_succ_of_lt (hs.token x hx), ?_, hs.tokens_nodup⟩
      · intro x hx
        rcases List.mem_append.1 hx with hx | hx
        · exact Nat.lt_succ_of_lt (hs.session x hx)
        · rw [List.mem_singleton.1 hx]
          exact Nat.lt_succ_self _
      · show (List.map _ (s.sessions ++ [_])).Nodup
        rw [List.map_append]
        refine nodup_append_inserted hs.sessions_nodup ?_
        intro n hn
        obtain ⟨x, hx, rfl⟩ := List.mem_map.1 hn
        exact hs.session x hx

theorem follows_createApiToken {row : ApiTokenRow} :
    Follows (.createApiToken row) s ((Call.createApiToken row).perform choice s).2 := by
  simp only [Call.perform, Tables.createApiToken]
  split_ifs
  · exact follows_self
  · exact follows_self
  · refine ⟨Nat.le_succ _, fun x hx => .inl ⟨x, hx, rfl, rfl, rfl⟩, ?_, fun hs => ?_⟩
    · intro x hx
      rcases List.mem_append.1 hx with hx | hx
      · exact .inl ⟨x, hx, rfl, rfl, rfl, id⟩
      · rw [List.mem_singleton.1 hx]
        exact .inr ⟨rfl, Nat.lt_succ_self _, row, rfl, rfl, rfl⟩
    · refine ⟨fun x hx => Nat.lt_succ_of_lt (hs.session x hx), ?_, hs.sessions_nodup, ?_⟩
      · intro x hx
        rcases List.mem_append.1 hx with hx | hx
        · exact Nat.lt_succ_of_lt (hs.token x hx)
        · rw [List.mem_singleton.1 hx]
          exact Nat.lt_succ_self _
      · show (List.map _ (s.apiTokens ++ [_])).Nodup
        rw [List.map_append]
        refine nodup_append_inserted hs.tokens_nodup ?_
        intro n hn
        obtain ⟨x, hx, rfl⟩ := List.mem_map.1 hn
        exact hs.token x hx

theorem follows_revoke {revokedAt : ℤ} {revokedBy : String} :
    Follows c s (s.revokeMembershipApiTokens tenantId accountId revokedAt revokedBy) where
  inserted := le_rfl
  session x hx := .inl ⟨x, hx, rfl, rfl, rfl⟩
  token x hx := by
    obtain ⟨y, hy, rfl⟩ := List.mem_map.1 hx
    refine .inl ⟨y, hy, ?_⟩
    split
    · exact ⟨rfl, rfl, rfl, fun _ => Option.some_ne_none _⟩
    · exact ⟨rfl, rfl, rfl, id⟩
  nodup hs := {
    session := hs.session
    token := by
      intro x hx
      obtain ⟨y, hy, rfl⟩ := List.mem_map.1 hx
      split <;> exact hs.token y hy
    sessions_nodup := hs.sessions_nodup
    tokens_nodup := by
      have hm : (s.revokeMembershipApiTokens tenantId accountId revokedAt revokedBy).apiTokens.map
          (·.number) = s.apiTokens.map (·.number) := Table.map_update _ fun _ => rfl
      rw [hm]
      exact hs.tokens_nodup }

variable {m : MembershipRow} {α : Type}

theorem insertMembership_follows (h : s.insertMembership m = .ok s') : Follows c s s' := by
  rw [Tables.insertMembership] at h
  split at h
  · cases h
  · cases h
    exact follows_of_eq rfl rfl rfl

theorem createMembershipInTenant_follows {account : Option AccountCredential}
    (h : s.createMembershipInTenant m = .ok (s', account)) : Follows c s s' := by
  rw [Tables.createMembershipInTenant] at h
  cases hs : s.assignedScopes m.tenantId m.role m.scopes with
  | error e =>
    rw [hs] at h
    cases h
  | ok scopes =>
    rw [hs] at h
    change (if _ then _ else _) = _ at h
    split at h
    · cases h
    · cases hi : s.insertMembership { m with scopes := scopes.dedup, status := .active } with
      | error e =>
        rw [hi] at h
        cases h
      | ok s₁ =>
        rw [hi] at h
        cases h
        exact insertMembership_follows hi

theorem createAccountInTenant_follows {a : AccountRow}
    {account : Option AccountCredential} (h : s.createAccountInTenant a m = .ok (s', account)) :
    Follows c s s' := by
  rw [Tables.createAccountInTenant] at h
  cases hsco : s.assignedScopes m.tenantId m.role m.scopes with
  | error e =>
    rw [hsco] at h
    cases h
  | ok scopes =>
    rw [hsco] at h
    change (if _ then _ else _) = _ at h
    split_ifs at h
    have hf := @createMembershipInTenant_follows c _ _ _ _ h
    exact ⟨hf.inserted, hf.session, hf.token, fun hs => hf.nodup
      ⟨hs.session, hs.token, hs.sessions_nodup, hs.tokens_nodup⟩⟩

theorem answered_follows {r : Except String (Tables × α)}
    (h : ∀ s' a, r = .ok (s', a) → Follows c s s') : Follows c s (answered s r).2 := by
  cases r with
  | error e => exact follows_self
  | ok reply => exact h reply.1 reply.2 rfl

theorem written_follows {a : α} {r : Except String Tables}
    (h : ∀ s', r = .ok s' → Follows c s s') : Follows c s (written s a r).2 := by
  cases r with
  | error e => exact follows_self
  | ok s' => exact h s' rfl

theorem findSession_follows {tokenHash : String} {now idleMs touchIntervalMs : ℤ} :
    Follows c s (s.findSession tokenHash now idleMs touchIntervalMs).2 := by
  rw [Tables.findSession]
  split
  · exact follows_self
  · split_ifs
    · exact follows_of_sublist List.filter_sublist (List.Sublist.refl _) rfl
    · exact follows_of_update fun _ => ⟨rfl, rfl, rfl⟩
    · exact follows_self

/-- **What every call does** to sessions and tokens. -/
theorem perform_follows : Follows c s (c.perform choice s).2 := by
  cases c with
  | createSession row => exact follows_createSession
  | createApiToken row => exact follows_createApiToken
  | revokeMembershipApiTokens => exact follows_revoke
  | findSession => exact findSession_follows
  | createMembershipInTenant m =>
    exact answered_follows fun _ _ => createMembershipInTenant_follows
  | createAccountInTenant a m => exact answered_follows fun _ _ => createAccountInTenant_follows
  | deleteMembership =>
    exact follows_of_sublist List.filter_sublist List.filter_sublist rfl
  | deleteAccount => exact follows_of_sublist List.filter_sublist List.filter_sublist rfl
  | deleteMembershipSessions =>
    exact follows_of_sublist List.filter_sublist (List.Sublist.refl _) rfl
  | deleteSession => exact follows_of_sublist List.filter_sublist (List.Sublist.refl _) rfl
  | updateMembershipRole accountId tenantId role roleId scopes =>
    refine written_follows fun s' h => ?_
    rw [Tables.updateMembershipRole] at h
    cases hs : s.assignedScopes tenantId role scopes with
    | error e =>
      rw [hs] at h
      cases h
    | ok assigned =>
      rw [hs] at h
      cases h
      exact follows_of_eq rfl rfl rfl
  | createMfaChallenge row =>
    refine written_follows fun s' h => ?_
    dsimp only [Tables.createMfaChallenge] at h
    split_ifs at h
    cases h
    exact follows_of_eq rfl rfl rfl
  | createRole role =>
    refine written_follows fun s' h => ?_
    dsimp only [Tables.createRole] at h
    split_ifs at h
    cases h
    exact follows_of_eq rfl rfl rfl
  | grantTenantOwnerScopes tenantId scopes =>
    refine answered_follows fun s' granted h => ?_
    rw [Tables.grantTenantOwnerScopes] at h
    split_ifs at h
    · cases h
      exact follows_self
    · split at h
      · cases h
      · cases h
        exact follows_of_eq rfl rfl rfl
  | createTenantInvitation row =>
    refine written_follows fun s' h => ?_
    dsimp only [Tables.createTenantInvitation] at h
    split_ifs at h
    cases h
    exact follows_of_eq rfl rfl rfl
  | _ => exact follows_of_eq rfl rfl rfl

theorem serve_follows : Follows c s (c.serve s choice).2 := by
  rw [Call.serve]
  split
  · exact perform_follows
  · split_ifs
    · exact perform_follows
    · exact follows_self

end Follows

/-! ### What is known of a process -/

namespace Tables

variable (s : Tables)

/-- The membership has no session. -/
def NoSession (accountId tenantId : String) : Prop :=
  ∀ x ∈ s.sessions, ¬ (x.accountId = accountId ∧ x.tenantId = tenantId)

/-- The membership has no API token that is not revoked. -/
def NoToken (accountId tenantId : String) : Prop :=
  ∀ x ∈ s.apiTokens, x.accountId = accountId → x.tenantId = tenantId → x.revokedAt ≠ none

end Tables

/-- What stands behind a disabling call that has finished. -/
def Removed (history : History Call (Prog.Reply Call.Answer)) : Option Shut → Prop
  | none => True
  | some (.membership accountId tenantId) =>
    history.any (clearsSessions accountId tenantId) = true ∧
      history.any (revokesTokens accountId tenantId) = true
  | some (.account accountId) => ∀ tenantId, history.any (clearsSessions accountId tenantId) = true

/-- What is known of a process: while it goes on behind a removal there is nothing to
remove, and when it finishes it is behind the removals it owes. -/
structure GateKnows (g : Gate) (p : AccessProcess) : Prop where
  session : ∀ a t, behind (clearsSessions a t) p = true → g.tables.NoSession a t
  token : ∀ a t, behind (revokesTokens a t) p = true → g.tables.NoToken a t
  ends : Ends Removed p.history p.rest

/-- The invariant of the gate: no session is barred at all, and the tokens that are barred
are revoked. -/
structure GateInv (g : Gate) : Prop where
  numbered : g.tables.Numbered
  session : g.barredSessions = []
  below : ∀ n ∈ g.barredTokens, n < g.tables.inserted
  token : ∀ x ∈ g.tables.apiTokens, x.number ∈ g.barredTokens → x.revokedAt ≠ none

section Steps

variable {c : Call} {s s' : Tables} {choice : Choice} {accountId tenantId : String}

theorem NoSession.follows (h : s.NoSession accountId tenantId) (hf : Follows c s s')
    (hi : ¬ c.insertsSession accountId tenantId) : s'.NoSession accountId tenantId := by
  rintro x hx ⟨rfl, rfl⟩
  rcases hf.session x hx with ⟨y, hy, -, ha, ht⟩ | ⟨-, -, hins⟩
  · exact h y hy ⟨ha, ht⟩
  · exact hi hins

theorem NoToken.follows (h : s.NoToken accountId tenantId) (hf : Follows c s s')
    (hi : ¬ c.insertsToken accountId tenantId) : s'.NoToken accountId tenantId := by
  rintro x hx rfl rfl
  rcases hf.token x hx with ⟨y, hy, -, ha, ht, hr⟩ | ⟨-, -, hins⟩
  · exact hr (h y hy ha ht)
  · exact absurd hins hi

/-- A call that is answered took effect. -/
theorem serve_ok {a : c.Answer} (h : (c.serve s choice).1 = .ok a) :
    c.perform choice s = (.ok a, (c.serve s choice).2) := by
  rw [Call.serve] at h ⊢
  split at h
  · exact Prod.ext h rfl
  · cases h

/-- Behind a removal the membership has no session. -/
theorem noSession_of_clears (h : clearsSessions accountId tenantId ⟨c, (c.serve s choice).1⟩ = true) :
    (c.serve s choice).2.NoSession accountId tenantId := by
  cases c with
  | deleteMembershipSessions a t =>
    cases hr : ((Call.deleteMembershipSessions a t).serve s choice).1 with
    | error e => simp [clearsSessions, hr] at h
    | ok reply =>
      simp only [clearsSessions, hr, Bool.and_eq_true, decide_eq_true_eq] at h
      obtain ⟨rfl, rfl⟩ := h
      rw [← congrArg Prod.snd (serve_ok hr)]
      intro x hx hb
      have hk := (List.mem_filter.1 hx).2
      simp [hb.1, hb.2] at hk
  | sessionTenants a =>
    cases hr : ((Call.sessionTenants a).serve s choice).1 with
    | error e => simp [clearsSessions, hr] at h
    | ok tenants =>
      simp only [clearsSessions, hr, Bool.and_eq_true, decide_eq_true_eq] at h
      obtain ⟨rfl, hn⟩ := h
      have hp := serve_ok hr
      rw [← congrArg Prod.snd hp]
      rintro x hx ⟨ha, rfl⟩
      have ht : s.sessionTenants a = tenants := Except.ok.inj (congrArg Prod.fst hp)
      refine hn ?_
      rw [← ht, Tables.sessionTenants, List.mem_dedup]
      exact List.mem_map_of_mem (List.mem_filter.2 ⟨hx, decide_eq_true ha⟩)
  | _ => simp [clearsSessions] at h

/-- Behind a revocation the membership has no token that is not revoked. -/
theorem noToken_of_revokes (h : revokesTokens accountId tenantId ⟨c, (c.serve s choice).1⟩ = true) :
    (c.serve s choice).2.NoToken accountId tenantId := by
  cases c with
  | revokeMembershipApiTokens t a revokedAt revokedBy =>
    cases hr : ((Call.revokeMembershipApiTokens t a revokedAt revokedBy).serve s choice).1 with
    | error e => simp [revokesTokens, hr] at h
    | ok reply =>
      simp only [revokesTokens, hr, Bool.and_eq_true, decide_eq_true_eq] at h
      obtain ⟨rfl, rfl⟩ := h
      rw [← congrArg Prod.snd (serve_ok hr)]
      intro x hx ha ht
      obtain ⟨y, hy, rfl⟩ := List.mem_map.1 hx
      split
      · exact Option.some_ne_none _
      · next hs =>
        rw [if_neg hs] at ha ht
        intro hn
        exact hs (by simp [ha, ht, hn])
  | _ => simp [revokesTokens] at h

end Steps

/-! ### What stands behind a disabling call -/

section Programs

variable {α : Type} {history : History Call (Prog.Reply Call.Answer)} {actor : AuthActor}
  {accountId tenantId : String} {target : AccountCredential} {status : Status} {now : ℤ}

theorem ends_opens {p : Service α} : Ends Removed history (opens p) :=
  ends_bind fun _ _ _ => .pure trivial

variable {f : PUnit → Service (Option Shut)}

/-- Behind the deletes of an account each of its workspaces is cleared. -/
theorem ends_deleteSessionsIn {tenants : List String} (hf : ∀ history', history <+: history' →
      (∀ t ∈ tenants, history'.any (clearsSessions accountId t) = true) → Ends Removed history' (f ⟨⟩)) :
    Ends Removed history (deleteSessionsIn accountId tenants >>= f) := by
  induction tenants generalizing history with
  | nil => exact hf history (List.prefix_refl _) fun t ht => absurd ht List.not_mem_nil
  | cons tenantId rest ih =>
    rw [deleteSessionsIn, Prog.bind_assoc]
    refine ends_need_bind fun reply => ih fun history' hle hr => ?_
    refine hf history' ((List.prefix_append _ _).trans hle) fun t ht => ?_
    rcases List.mem_cons.1 ht with rfl | ht
    · have hm : (⟨.deleteMembershipSessions accountId t, .ok reply⟩ : Entry) ∈ history' :=
        hle.subset (List.mem_append_right _ (List.mem_singleton_self _))
      exact List.any_eq_true.2 ⟨_, hm, by simp [clearsSessions]⟩
    · exact hr t ht

/-- Behind the sessions of an account all of its memberships are cleared. -/
theorem ends_deleteAccountSessions
    (hf : ∀ history', (∀ t, history'.any (clearsSessions accountId t) = true) →
      Ends Removed history' (f ⟨⟩)) :
    Ends Removed history (deleteAccountSessions accountId >>= f) := by
  rw [deleteAccountSessions, Prog.bind_assoc]
  refine ends_need_bind fun tenants => ends_deleteSessionsIn fun history' hle hc => ?_
  refine hf history' fun t => ?_
  by_cases ht : t ∈ tenants
  · exact hc t ht
  · have hm : (⟨.sessionTenants accountId, .ok tenants⟩ : Entry) ∈ history' :=
      hle.subset (List.mem_append_right _ (List.mem_singleton_self _))
    exact List.any_eq_true.2 ⟨_, hm, by simp [clearsSessions, ht]⟩

theorem ends_member {f : TenantMember → Service (Option Shut)}
    (hf : ∀ record history', history <+: history' → record.accountId = accountId →
      Ends Removed history' (f record)) :
    Ends Removed history (member accountId tenantId >>= f) := by
  rw [member, Prog.bind_assoc]
  refine ends_need_bind fun members => ?_
  split
  · exact .fail
  · next record hr =>
    have hfou := List.find?_some hr
    exact hf record _ (List.prefix_append _ _) (of_decide_eq_true hfou)

/-- What `setMemberStatus` has disabled. -/
def shutAccount (status : Status) (record : TenantMember) : Service (Option Shut) :=
  return if status = .disabled then some (.account record.accountId) else none

theorem ends_setStatusOf :
    Ends Removed history (setStatusOf actor status target >>= shutAccount status) := by
  have ht : ∀ history', (status = .disabled →
        ∀ t, history'.any (clearsSessions target.accountId t) = true) →
      Ends Removed history' ((do
        let _ ← call (.updateAccountStatus target.accountId status)
        let _ ← audit actor.tenantId actor.accountId "users.member.status" "account" target.accountId
          [("status", .str status.text)]
        member target.accountId actor.tenantId) >>= shutAccount status) := by
    intro history' hcle
    rw [Prog.bind_assoc]
    refine ends_bind fun _ history₁ hle₁ => ?_
    rw [Prog.bind_assoc]
    refine ends_bind fun _ history₂ hle₂ => ends_member fun record history₃ hle₃ hr => ?_
    rw [shutAccount]
    split_ifs with hs
    · refine .pure fun t => ?_
      obtain ⟨entry, he, hc⟩ := List.any_eq_true.1 (hcle hs t)
      rw [hr]
      exact List.any_eq_true.2 ⟨entry, hle₃.subset (hle₂.subset (hle₁.subset he)), hc⟩
    · exact .pure trivial
  rw [setStatusOf, Prog.bind_assoc, whenever]
  split_ifs with hs
  · rw [Prog.bind_assoc]
    refine ends_bind fun _ history₁ _ => ends_deleteAccountSessions fun history₂ hcle => ?_
    exact ht history₂ fun _ => hcle
  · exact ht history fun h => absurd h hs

/-- What `setMembershipStatus` has disabled. -/
def shutMembership (tenantId : String) : String × Status → Service (Option Shut)
  | (accountId, status) => return if status = .disabled then some (.membership accountId tenantId) else none

theorem ends_setMembershipStatusOf : Ends Removed history
      (setMembershipStatusOf actor status now target >>= shutMembership actor.tenantId) := by
  have ht : ∀ history', (status = .disabled →
        history'.any (clearsSessions target.accountId actor.tenantId) = true ∧
          history'.any (revokesTokens target.accountId actor.tenantId) = true) →
      Ends Removed history' ((do
        let _ ← audit actor.tenantId actor.accountId "auth.membership.status" "account"
          target.accountId [("status", .str status.text)]
        return (target.accountId, status)) >>= shutMembership actor.tenantId) := by
    intro history' hrem
    rw [Prog.bind_assoc]
    refine ends_bind fun _ history₁ hle => ?_
    show Ends Removed history₁ (shutMembership actor.tenantId (target.accountId, status))
    rw [shutMembership]
    split_ifs with hs
    · obtain ⟨hc, hr⟩ := hrem hs
      obtain ⟨entry, he, hc⟩ := List.any_eq_true.1 hc
      obtain ⟨entry', he', hr⟩ := List.any_eq_true.1 hr
      exact .pure ⟨List.any_eq_true.2 ⟨entry, hle.subset he, hc⟩,
        List.any_eq_true.2 ⟨entry', hle.subset he', hr⟩⟩
    · exact .pure trivial
  rw [setMembershipStatusOf, Prog.bind_assoc]
  refine ends_bind fun _ history₁ _ => ?_
  rw [Prog.bind_assoc]
  refine ends_bind fun _ history₂ _ => ?_
  rw [Prog.bind_assoc, whenever]
  split_ifs with hs
  · rw [Prog.bind_assoc]
    refine ends_need_bind fun reply => ?_
    rw [Prog.bind_assoc]
    refine ends_need_bind fun count => ht _ fun _ => ⟨?_, ?_⟩
    · exact List.any_eq_true.2 ⟨⟨.deleteMembershipSessions target.accountId actor.tenantId, .ok reply⟩,
        by simp, by simp [clearsSessions]⟩
    · exact List.any_eq_true.2
        ⟨⟨.revokeMembershipApiTokens actor.tenantId target.accountId now actor.accountId, .ok count⟩,
          by simp, by simp [revokesTokens]⟩
  · exact ht _ fun h => absurd h hs

/-- **A disabling call that finishes** is behind the removals it owes. -/
theorem ends_program [AuthText] {policy : AuthPolicy} (r : AccessRequest) :
    Ends Removed [] (r.program policy) := by
  cases r with
  | setMembershipStatus actor accountId status now =>
    show Ends Removed [] ((targetMember actor accountId false >>= setMembershipStatusOf actor status now)
      >>= shutMembership actor.tenantId)
    rw [Prog.bind_assoc]
    exact ends_bind fun _ _ _ => ends_setMembershipStatusOf
  | setMemberStatus actor accountId status =>
    show Ends Removed [] ((targetMember actor accountId false >>= setStatusOf actor status)
      >>= shutAccount status)
    rw [Prog.bind_assoc]
    exact ends_bind fun _ _ _ => ends_setStatusOf
  | signIn => exact ends_opens
  | completeMfaChallenge => exact ends_opens
  | signInExternalIdentity => exact ends_opens
  | switchTenant => exact ends_opens
  | issueApiToken => exact ends_opens

end Programs

/-! ### One move -/

section Move

variable {g : Gate} {others : List AccessProcess} {p q : AccessProcess} {c : Call}
  {next : Prog.Reply Call.Answer c → Service (Option Shut)} {choice : Choice} {a t : String}

theorem guarded_session (hc : guarded g others p = true) (hr : p.rest = .call c next)
    (hi : c.insertsSession a t) :
    g.tables.disabled a t = false ∧ ∀ q ∈ p :: others, behind (clearsSessions a t) q = false := by
  obtain ⟨row, rfl, rfl, rfl⟩ := hi
  rw [guarded, hr] at hc
  simp only [Bool.and_eq_true, Bool.not_eq_true', List.all_eq_true] at hc
  exact hc

theorem guarded_token (hc : guarded g others p = true) (hr : p.rest = .call c next)
    (hi : c.insertsToken a t) :
    g.tables.membershipDisabled a t = false ∧ ∀ q ∈ p :: others, behind (revokesTokens a t) q = false := by
  obtain ⟨row, rfl, rfl, rfl⟩ := hi
  rw [guarded, hr] at hc
  simp only [Bool.and_eq_true, Bool.not_eq_true', List.all_eq_true] at hc
  exact hc

/-- A move inserts nothing behind the removals of a process. -/
theorem noSession_of_behind (hk : GateKnows g q) (hq : q ∈ p :: others)
    (hc : guarded g others p = true) (hr : p.rest = .call c next)
    (hb : behind (clearsSessions a t) q = true) : (c.serve g.tables choice).2.NoSession a t := by
  refine NoSession.follows (hk.session a t hb) serve_follows fun hi => ?_
  have hn := (guarded_session hc hr hi).2 q hq
  rw [hb] at hn
  cases hn

theorem noToken_of_behind (hk : GateKnows g q) (hq : q ∈ p :: others)
    (hc : guarded g others p = true) (hr : p.rest = .call c next)
    (hb : behind (revokesTokens a t) q = true) : (c.serve g.tables choice).2.NoToken a t := by
  refine NoToken.follows (hk.token a t hb) serve_follows fun hi => ?_
  have hn := (guarded_token hc hr hi).2 q hq
  rw [hb] at hn
  cases hn

/-- An entry behind a move is old, or it is the call that was made. -/
theorem behind_of_any {removes : Entry → Bool} {reply : Prog.Reply Call.Answer c}
    (hr : p.rest = .call c next) (h : (p.history ++ [(⟨c, reply⟩ : Entry)]).any removes = true) :
    behind removes p = true ∨ removes ⟨c, reply⟩ = true := by
  rw [List.any_append, Bool.or_eq_true, List.any_cons, List.any_nil, Bool.or_false] at h
  refine h.imp_left fun h => ?_
  rw [behind, h, Recorded.running, hr]
  rfl

/-- Whatever the mover has removed is gone behind its move, whether it goes on or not. -/
theorem removed_behind_move (hk : GateKnows g p) (hc : guarded g others p = true)
    (hr : p.rest = .call c next) :
    (∀ a t, (p.history ++ [(⟨c, (c.serve g.tables choice).1⟩ : Entry)]).any (clearsSessions a t) = true →
        (c.serve g.tables choice).2.NoSession a t) ∧
      ∀ a t, (p.history ++ [(⟨c, (c.serve g.tables choice).1⟩ : Entry)]).any (revokesTokens a t) = true →
        (c.serve g.tables choice).2.NoToken a t := by
  constructor
  · intro a t h
    rcases behind_of_any hr h with h | h
    · exact noSession_of_behind hk List.mem_cons_self hc hr h
    · exact noSession_of_clears h
  · intro a t h
    rcases behind_of_any hr h with h | h
    · exact noToken_of_behind hk List.mem_cons_self hc hr h
    · exact noToken_of_revokes h

variable {s : Tables} {shut : Option Shut}

theorem createSession_disabled {row : SessionRow} :
    ((Call.createSession row).serve s choice).2.disabled a t = s.disabled a t := by
  rw [Call.serve]
  simp only [Call.perform, Tables.createSession]
  split_ifs <;> split <;> first | rfl | split_ifs <;> rfl

theorem createApiToken_membershipDisabled {row : ApiTokenRow} :
    ((Call.createApiToken row).serve s choice).2.membershipDisabled a t = s.membershipDisabled a t := by
  rw [Call.serve]
  simp only [Call.perform, Tables.createApiToken]
  split_ifs <;> split <;> first | rfl | split_ifs <;> rfl

/-- A move bars no session. -/
theorem bar_sessions (hi : GateInv g) (hc : guarded g others p = true) (hr : p.rest = .call c next)
    (hs : ∀ x ∈ (c.serve g.tables choice).2.sessions,
      shut.any (Shut.covers x.accountId x.tenantId) = false) :
    (g.bar (c.serve g.tables choice).2 shut).barredSessions = [] := by
  rw [Gate.bar, hi.session, List.nil_append, List.map_eq_nil_iff, List.filter_eq_nil_iff]
  intro x hx hb
  rw [hs x hx, Bool.or_false, Bool.and_eq_true, decide_eq_true_eq] at hb
  rcases serve_follows.session x hx with ⟨y, hy, hn, -⟩ | ⟨-, -, hins⟩
  · have hlt := hi.numbered.session y hy
    have hle := hb.1
    omega
  · have hf := (guarded_session hc hr hins).1
    obtain ⟨row, rfl, -⟩ := hins
    rw [createSession_disabled, hf] at hb
    cases hb.2

/-- A move bars only tokens that are revoked. -/
theorem bar_tokens (hi : GateInv g) (hc : guarded g others p = true) (hrest : p.rest = .call c next)
    (hs : ∀ a t, shut = some (.membership a t) → (c.serve g.tables choice).2.NoToken a t) :
    ∀ x ∈ (c.serve g.tables choice).2.apiTokens,
      x.number ∈ (g.bar (c.serve g.tables choice).2 shut).barredTokens → x.revokedAt ≠ none := by
  intro x hx hb
  rcases List.mem_append.1 hb with hold | hnew
  · rcases serve_follows.token x hx with ⟨y, hy, hn, -, -, hr⟩ | ⟨hn, -⟩
    · exact hr (hi.token y hy (hn ▸ hold))
    · have hlt := hi.below _ hold
      omega
  · obtain ⟨z, hz, hn⟩ := List.mem_map.1 hnew
    obtain ⟨hm, hz⟩ := List.mem_filter.1 hz
    have hnod := (serve_follows.nodup hi.numbered : (c.serve g.tables choice).2.Numbered).tokens_nodup
    rw [← List.inj_on_of_nodup_map hnod hm hx hn]
    rw [Bool.or_eq_true, Bool.and_eq_true, decide_eq_true_eq, decide_eq_true_eq] at hz
    rcases hz with ⟨hle, hd⟩ | hs'
    · rcases serve_follows.token z hm with ⟨y, hy, hn', -⟩ | ⟨-, -, hins⟩
      · have hlt := hi.numbered.token y hy
        omega
      · have hf := (guarded_token hc hrest hins).1
        obtain ⟨row, rfl, -⟩ := hins
        rw [createApiToken_membershipDisabled, hf] at hd
        cases hd
    · exact hs _ _ hs' z hm rfl rfl

/-- What is shut when a process finishes has been removed. -/
theorem removed_of_outcome (he : Ends Removed p.history p.rest) : Removed p.history (outcome p) := by
  rw [outcome]
  split
  · next shut hr =>
    rw [hr] at he
    exact he.of_pure
  · trivial

end Move

section Outline

variable [AuthText] {policy : AuthPolicy} {g g' : Gate} {others : List AccessProcess}
  {p p' q : AccessProcess} {choice : Choice}

/-- A move is a call, and the gate bars what it leaves. -/
theorem access_next (h : (access policy).next g p choice = some (g', p')) :
    ∃ c next, p.rest = .call c next ∧
      p' = ⟨p.history ++ [⟨c, (c.serve g.tables choice).1⟩], next (c.serve g.tables choice).1⟩ ∧
      g' = g.bar (c.serve g.tables choice).2 (outcome p') := by
  obtain ⟨⟨s, p₁⟩, hn, heq⟩ := Option.map_eq_some_iff.1 h
  obtain ⟨c, next, hr, rfl, rfl⟩ := recorder_next hn
  obtain ⟨rfl, rfl⟩ := Prod.mk.inj heq
  exact ⟨c, next, hr, rfl, rfl⟩

theorem move_knows (hk : GateKnows g p) (hc : guarded g others p = true)
    (h : (access policy).next g p choice = some (g', p')) : GateKnows g' p' := by
  obtain ⟨c, next, hr, rfl, rfl⟩ := access_next h
  obtain ⟨hs, ht⟩ := removed_behind_move hk hc hr
  refine ⟨fun a t hb => ?_, fun a t hb => ?_, ?_⟩
  · exact hs a t (Bool.and_eq_true_iff.1 hb).2
  · exact ht a t (Bool.and_eq_true_iff.1 hb).2
  · have he := hk.ends
    rw [hr] at he
    exact he.next _

theorem move_other_knows (hk : GateKnows g q) (hq : q ∈ others) (hc : guarded g others p = true)
    (h : (access policy).next g p choice = some (g', p')) : GateKnows g' q := by
  obtain ⟨c, next, hr, rfl, rfl⟩ := access_next h
  refine ⟨fun a t hb => ?_, fun a t hb => ?_, hk.ends⟩
  · exact noSession_of_behind hk (List.mem_cons_of_mem _ hq) hc hr hb
  · exact noToken_of_behind hk (List.mem_cons_of_mem _ hq) hc hr hb

theorem move_inv (hi : GateInv g) (hk : GateKnows g p) (hc : guarded g others p = true)
    (h : (access policy).next g p choice = some (g', p')) : GateInv g' := by
  have he := (move_knows hk hc h).ends
  have hr := removed_of_outcome he
  obtain ⟨c, next, hrest, hp', rfl⟩ := access_next h
  obtain ⟨hses, ht⟩ := removed_behind_move hk hc hrest
  rw [hp'] at hr
  have hnum : (c.serve g.tables choice).2.Numbered := serve_follows.nodup hi.numbered
  refine ⟨hnum, ?_, ?_, ?_⟩
  · refine bar_sessions hi hc hrest fun x hx => ?_
    rw [← Bool.not_eq_true]
    intro hcov
    obtain ⟨shut, hs, hcov⟩ := (Option.any_eq_true _ _).1 hcov
    rw [hp'] at hs
    rw [hs] at hr
    cases shut with
    | membership a t =>
      rw [Shut.covers, Bool.and_eq_true, decide_eq_true_eq, decide_eq_true_eq] at hcov
      exact hses a t hr.1 x hx ⟨hcov.1.symm, hcov.2.symm⟩
    | account a =>
      rw [Shut.covers, decide_eq_true_eq] at hcov
      exact hses a x.tenantId (hr x.tenantId) x hx ⟨hcov.symm, rfl⟩
  · intro n hn
    rcases List.mem_append.1 hn with hold | hnew
    · exact Nat.lt_of_lt_of_le (hi.below n hold) serve_follows.inserted
    · obtain ⟨x, hx, rfl⟩ := List.mem_map.1 hnew
      exact hnum.token x (List.mem_filter.1 hx).1
  · refine bar_tokens hi hc hrest fun a t hs => ?_
    rw [hp'] at hs
    rw [hs] at hr
    exact ht a t hr.2

/-- What the processes know of each other's removals. -/
def accessOutline (policy : AuthPolicy) : Outline (access policy) Guarded where
  inv := GateInv
  knows := GateKnows
  apart _ _ := True
  apart_symm _ := trivial
  start {g r p} hinv h := by
    obtain rfl := Option.some.inj h
    refine ⟨⟨fun a t hbehind => ?_, fun a t hbehind => ?_, ends_program r⟩, fun _ _ => trivial⟩
    · simp [behind] at hbehind
    · simp [behind] at hbehind
  stop hinv _ := hinv
  stop_other _ _ hknows _ := hknows
  move hinv hknows _ hcond h := ⟨move_inv hinv hknows hcond h, move_knows hknows hcond h⟩
  move_other _ _ hothers hcond h hq := ⟨move_other_knows (hothers _ hq).1 hq hcond h, trivial⟩

end Outline

/-! ### Presenting a session or a token -/

variable {s : Tables} {now : ℤ} {tokenHash : String}

/-- A membership that answers as active, of an active account, is not disabled. -/
theorem Tables.not_disabled {accountId tenantId : String} {account : AccountCredential}
    (h : s.findAccountMembership accountId tenantId = some account) (hs : account.status = .active)
    (hmem : account.membershipStatus = .active) : s.disabled accountId tenantId = false := by
  obtain ⟨a, ha, h⟩ := Option.bind_eq_some_iff.1 h
  obtain ⟨m, hm, h⟩ := Option.bind_eq_some_iff.1 h
  cases h
  rw [disabled, membershipDisabled, ha, hm]
  simp [show a.status = .active from hs, show m.status = .active from hmem]

theorem Tables.findSession_live {idleMs touchIntervalMs : ℤ}
    {found : SessionRow × AccountCredential}
    (h : (s.findSession tokenHash now idleMs touchIntervalMs).1 = some found) :
    s.liveSession tokenHash now = some found := by
  rw [findSession] at h
  split at h
  · cases h
  · next row account hl =>
    split_ifs at h
    · exact hl.trans h
    · exact hl.trans h

theorem Tables.liveSession_active {row : SessionRow}
    {account : AccountCredential} (h : s.liveSession tokenHash now = some (row, account)) :
    row ∈ s.sessions ∧ s.disabled row.accountId row.tenantId = false := by
  obtain ⟨x, hx, h⟩ := Option.bind_eq_some_iff.1 h
  obtain ⟨credential, hc, h⟩ := Option.bind_eq_some_iff.1 h
  split at h
  · next ha =>
    cases h
    exact ⟨List.mem_of_find?_eq_some hx, not_disabled hc ha.2.1 ha.2.2⟩
  · cases h

/-- A cookie that resolves names a session of a membership that is not disabled. -/
theorem resolveSession_active [AuthText] {policy : AuthPolicy} {token : String}
    {row : SessionRow} {account : AccountCredential}
    (h : ((resolveSession policy token now).run (fun c => c.perform {}) s).1 = .ok (some (row, account))) :
    row ∈ s.sessions ∧ s.disabled row.accountId row.tenantId = false := by
  rw [resolveSession] at h
  split_ifs at h
  · cases h
  · exact Tables.liveSession_active (Tables.findSession_live (Except.ok.inj h))

/-- **A disabled member stays out.**  In every run whose sessions and tokens are inserted
while their membership is not disabled and behind no removal, what resolves belongs to a
membership that is not disabled, and it is not barred. -/
theorem disabled_stays_out [AuthText] {policy : AuthPolicy} {s : Tables} (hs : s.Numbered)
    {crew : Crew Gate AccessProcess} (h : Crew.Reachable (access policy) Guarded ⟨s, [], []⟩ crew) :
    (∀ token now row account,
      ((resolveSession policy token now).run (fun c => c.perform {}) crew.shared.tables).1 =
          .ok (some (row, account)) →
        crew.shared.tables.disabled row.accountId row.tenantId = false ∧
          row.number ∉ crew.shared.barredSessions) ∧
      ∀ tokenHash now identity,
        crew.shared.tables.resolveApiTokenIdentity tokenHash now = some identity →
          crew.shared.tables.disabled identity.record.accountId identity.record.tenantId = false ∧
            identity.record.number ∉ crew.shared.barredTokens := by
  have hstart : GateInv ⟨s, [], []⟩ :=
    ⟨hs, rfl, fun n hn => absurd hn List.not_mem_nil, fun x _ hn => absurd hn List.not_mem_nil⟩
  have hi : GateInv crew.shared := ((accessOutline policy).reachable hstart h).inv
  constructor
  · intro token now row account hr
    refine ⟨(resolveSession_active hr).2, ?_⟩
    rw [hi.session]
    exact List.not_mem_nil
  · intro tokenHash now identity hr
    obtain ⟨hmem, hrev, hm, hsta, ha, -⟩ :=
      Tables.resolveApiTokenIdentity_scopes hr
    exact ⟨Tables.not_disabled hm hsta ha, fun hb => hi.token _ hmem hb hrev⟩

/-! ### Runs that let a disabled member in -/

/-- The token of a challenge. -/
def sampleChallenge : String :=
  String.ofList (List.replicate 43 'a')

/-- A member that has signed in up to the second factor, and holds a token. -/
def memberTables : Tables where
  accounts := [{ id := "ada", email := "ada@example.com", passwordHash := "hash", displayName := "Ada" }]
  memberships := [⟨"ada", "t", "member", none, ["tasks.items.read"], .active, 0⟩]
  apiTokens := [{
    number := 0, id := "k", tenantId := "t", accountId := "ada", label := "script", tokenHash := "digest of k"
    scopes := ["tasks.items.read"], allowWrites := false, allowedOrigins := [], rateLimitPerMinute := 0
    createdBy := "ada", createdAt := 0, expiresAt := none }]
  challenges := [{
    tokenHash := "digest of " ++ sampleChallenge, accountId := "ada", tenantId := "t", expiresAt := 300
    createdAt := 0 }]
  inserted := 1
  keys := by decide

/-- The owner who disables the member. -/
def sampleOwnerActor : AuthActor where
  accountId := "bea"
  tenantId := "t"
  email := "bea@example.com"
  role := "owner"
  scopes := []

/-- The first process moves some times. -/
def firstMoves (n : ℕ) : List (Crew.Turn AccessRequest Choice) :=
  List.replicate n (.move 0 {})

/-- The member is disabled, and made active again. -/
def disabledAndBack : List (Crew.Turn AccessRequest Choice) :=
  .start (.setMembershipStatus sampleOwnerActor "ada" .disabled 5) :: firstMoves 5 ++
    .start (.setMembershipStatus sampleOwnerActor "ada" .active 20) :: firstMoves 3

/-- The member is disabled, completes its sign-in, and is made active again. -/
def signedInBetween : List (Crew.Turn AccessRequest Choice) :=
  .start (.setMembershipStatus sampleOwnerActor "ada" .disabled 5) :: firstMoves 5 ++
    .start (.completeMfaChallenge sampleChallenge (some "123456") none 10 { issuedAt := 10 }) ::
      firstMoves 7 ++
    .start (.setMembershipStatus sampleOwnerActor "ada" .active 20) :: firstMoves 3

/-- The cookie resolves to a session that is barred. -/
def resolvesBarred [AuthText] (g : Gate) (token : String) (now : ℤ) : Bool :=
  match ((resolveSession {} token now).run (fun c => c.perform {}) g.tables).1 with
  | .ok (some (row, _)) => row.number ∈ g.barredSessions
  | _ => false

/-- A disabled member's token is barred and does not resolve when the member is back. -/
theorem disabled_stays_out_ada : ∃ crew : Crew Gate AccessProcess,
    @Crew.Reachable _ _ _ _ (@access plainText {}) Guarded ⟨memberTables, [], []⟩ crew ∧
      crew.shared.tables.disabled "ada" "t" = false ∧ crew.shared.barredTokens = [0] ∧
      ∀ tokenHash now identity,
        crew.shared.tables.resolveApiTokenIdentity tokenHash now = some identity →
          identity.record.number ∉ crew.shared.barredTokens := by
  let _ := plainText
  have hp : (Crew.play (access {}) (fun g others p => guarded g others p = true)
      ⟨⟨memberTables, [], []⟩, []⟩ disabledAndBack).map (fun crew =>
        (crew.shared.tables.disabled "ada" "t", crew.shared.barredTokens)) = some (false, [0]) := by
    decide +kernel
  obtain ⟨crew, hc, hresult⟩ := Option.map_eq_some_iff.1 hp
  obtain ⟨hd, hb⟩ := Prod.mk.inj hresult
  have hr : Crew.Reachable (access {}) Guarded ⟨memberTables, [], []⟩ crew :=
    (Crew.reachable_of_play hc).mono fun _ _ _ h => h
  have hn : memberTables.Numbered :=
    ⟨by decide, by decide, by decide, by decide⟩
  refine ⟨crew, hr, hd, hb, fun tokenHash now identity hres => ?_⟩
  exact ((disabled_stays_out hn hr).2 tokenHash now identity hres).2

/-- A sign-in that is completed while the member is disabled leaves a session that resolves
when the member is back. -/
theorem disabled_comes_back : ∃ crew : Crew Gate AccessProcess,
    @Crew.Reachable _ _ _ _ (@access plainText {}) (fun _ _ _ => True) ⟨memberTables, [], []⟩ crew ∧
      crew.processes.all (fun p => !p.running) = true ∧
      @resolvesBarred plainText crew.shared "token" 30 = true := by
  let _ := plainText
  have hp : (Crew.play (access {}) (fun _ _ _ => True) ⟨⟨memberTables, [], []⟩, []⟩
      signedInBetween).map (fun crew =>
        (crew.processes.all fun p => !p.running, resolvesBarred crew.shared "token" 30)) =
      some (true, true) := by
    decide +kernel
  obtain ⟨crew, hc, hres⟩ := Option.map_eq_some_iff.1 hp
  obtain ⟨hf, hr⟩ := Prod.mk.inj hres
  exact ⟨crew, Crew.reachable_of_play hc, hf, hr⟩

end Flowdular.Auth
