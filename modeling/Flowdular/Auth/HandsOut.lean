/-
# What a member may hand out

One actor who is no owner makes any sequence of the calls that create and change roles,
members, invitations and API tokens; each call runs to its end or stops anywhere, and the
invitations of the sequence may be accepted.  Where every role it gives or rewrites grants
only what the actor's membership held before, or the member it is given to, nobody ends up
with a scope that neither had (`hands_out_held`).

`setMembershipScopes` and `issueApiToken` need no condition: they have a ceiling of their
own.
-/

import Flowdular.Auth.Roles

namespace Flowdular.Auth

open Lib Workflows
open Prog (Meets meets_bind meets_orElse)

/-! ### Sequences of calls -/

/-- A call of the actor, or the acceptance of an invitation. -/
inductive ActorRequest
  | createRole (input : CreateRoleInput) (id : String)
  | updateRole (input : UpdateRoleInput)
  | assignMemberRole (accountId roleKey : String)
  | setMembershipScopes (accountId : String) (scopes : List String)
  | createTenantMember (input : CreateTenantMemberInput) (draws : Draws)
  | createTenantInvitation (email roleKey : String) (draws : Draws)
  | acceptTenantInvitation (token displayName password : String) (now : ℤ) (draws : Draws)
  | issueApiToken (input : CreateApiTokenInput) (draws : Draws)

/-- A program without its result. -/
def done {α : Type} (p : Service α) : Service PUnit := do
  let _ ← p
  return ⟨⟩

/-- The program that answers a request; an actor issues tokens to its own membership. -/
def ActorRequest.program [AuthText] (minLength : ℕ) (actor : AuthActor) : ActorRequest → Service PUnit
  | .createRole input id => done (Auth.createRole actor input id)
  | .updateRole input => done (Auth.updateRole actor input)
  | .assignMemberRole accountId roleKey => done (Auth.assignMemberRole actor accountId roleKey)
  | .setMembershipScopes accountId scopes => done (Auth.setMembershipScopes actor accountId scopes)
  | .createTenantMember input draws => done (Auth.createTenantMember input (some actor) minLength draws)
  | .createTenantInvitation email roleKey draws =>
    done (Auth.createTenantInvitation actor email roleKey draws)
  | .acceptTenantInvitation token displayName password now draws =>
    Auth.acceptTenantInvitation token displayName password minLength now draws
  | .issueApiToken input draws => done (Auth.issueApiToken { input with
        tenantId := actor.tenantId, accountId := actor.accountId, createdBy := actor.accountId } draws)

/-- What a call may answer, and what it may leave. -/
def Serves : Prog.Service Call (Prog.Reply Call.Answer) Tables :=
  fun c s r s' => ∃ choice, c.serve s choice = (r, s')

/-- The principal of a session of the membership: it has its role, and no scope beyond. -/
structure Acts (s : Tables) (accountId tenantId : String) (actor : AuthActor) : Prop where
  account : actor.accountId = accountId
  tenant : actor.tenantId = tenantId
  membership : ∃ m ∈ s.memberships, m.key = (accountId, tenantId) ∧ m.role = actor.role ∧
    ∀ scope ∈ actor.scopes, scope ∈ m.scopes
  /-- Accounts and workspaces are named by identifiers. -/
  identifiers : identifier accountId "accountId" = .ok accountId ∧
    identifier tenantId "tenantId" = .ok tenantId

/-- The token of an invitation that was not there at the start. -/
def ActorRequest.own [AuthText] (first : Tables) : ActorRequest → Prop
  | .acceptTenantInvitation token .. =>
    AuthText.hashSessionToken token ∉ first.invitations.map (·.tokenHash)
  | _ => True

section

variable [AuthText] (minLength : ℕ) (cond : Tables → ActorRequest → Prop) (first : Tables)
  (accountId tenantId : String)

/-- The tables a sequence of calls may leave. -/
inductive Handing : Tables → Prop
  | start : Handing first
  | call {s s' : Tables} {actor : AuthActor} {r : ActorRequest} (hbefore : Handing s)
      (hactor : Acts s accountId tenantId actor) (hown : r.own first) (hcond : cond s r)
      (hrun : (r.program minLength actor).Stops Serves s s') : Handing s'

end

/-! ### The condition -/

/-- The membership of the actor held the scope before the sequence. -/
def HeldBy (first : Tables) (accountId tenantId scope : String) : Prop :=
  ∃ m ∈ first.memberships, m.key = (accountId, tenantId) ∧ scope ∈ m.scopes

/-- The actor or the membership held the scope before the sequence. -/
def MayHold (first : Tables) (accountId tenantId : String) (key : String × String) (scope : String) :
    Prop :=
  HeldBy first accountId tenantId scope ∨ ∃ m ∈ first.memberships, m.key = key ∧ scope ∈ m.scopes

/-- The roles a call gives or rewrites grant only what the actor held, or the members they
are given to. -/
def GrantsHeld [AuthText] (first : Tables) (accountId tenantId : String) (s : Tables) :
    ActorRequest → Prop
  | .assignMemberRole target roleKey =>
    ∀ id key role, identifier target "accountId" = .ok id → validateRoleKey roleKey = .ok key →
      s.findRoleByKey tenantId key = some role →
      ∀ scope ∈ role.scopes, MayHold first accountId tenantId (id, tenantId) scope
  | .updateRole input =>
    ∀ id scopes, identifier input.id "id" = .ok id → input.scopes = some scopes →
      ∀ m ∈ s.memberships, m.tenantId = tenantId → m.roleId = some id →
      ∀ scope ∈ scopes, MayHold first accountId tenantId m.key scope
  | .createTenantMember input _ =>
    ∀ key role, validateRoleKey input.role = .ok key → s.findRoleByKey tenantId key = some role →
      ∀ scope ∈ role.scopes, HeldBy first accountId tenantId scope
  | .acceptTenantInvitation token _ _ now _ =>
    ∀ invitation role,
      (s.consumeTenantInvitation (AuthText.hashSessionToken token) now).1 = some invitation →
      s.findRoleByKey invitation.tenantId invitation.roleKey = some role →
      ∀ scope ∈ role.scopes, HeldBy first accountId tenantId scope
  | _ => True

/-! ### Calls that hand out -/

section Calls

variable {first s s' : Tables} {accountId tenantId : String} {c : Call} {choice : Choice}

/-- What a call hands out was held. -/
def HandsHeld (first : Tables) (accountId tenantId : String) : Call → Prop
  | .replaceMembershipScopes a t scopes =>
    ∀ scope ∈ scopes, MayHold first accountId tenantId (a, t) scope
  | .updateMembershipRole a t role _ scopes =>
    role ≠ "owner" ∧ ∀ scope ∈ scopes, MayHold first accountId tenantId (a, t) scope
  | .createMembershipInTenant m =>
    m.role ≠ "owner" ∧ ∀ scope ∈ m.scopes, HeldBy first accountId tenantId scope
  | .createAccountInTenant _ m =>
    m.role ≠ "owner" ∧ ∀ scope ∈ m.scopes, HeldBy first accountId tenantId scope
  | .createApiToken row => ∀ scope ∈ row.scopes, HeldBy first accountId tenantId scope
  | .createTenantInvitation row => row.roleKey ≠ "owner" ∧ validateRoleKey row.roleKey = .ok row.roleKey
  | .grantTenantOwnerScopes .. => False
  | _ => True

/-- A call that hands out nothing. -/
def Call.harmless : Call → Bool
  | .replaceMembershipScopes .. => false
  | .updateMembershipRole .. => false
  | .createMembershipInTenant _ => false
  | .createAccountInTenant .. => false
  | .createApiToken _ => false
  | .createTenantInvitation _ => false
  | .grantTenantOwnerScopes .. => false
  | _ => true

/-- The invariant of a sequence: scopes of memberships and tokens were held, owners were
owners, and invitations that have come up name a role by its key that is not the owner's. -/
structure Handed (first : Tables) (accountId tenantId : String) (s : Tables) : Prop where
  scopes : ∀ m ∈ s.memberships, ∀ scope ∈ m.scopes, MayHold first accountId tenantId m.key scope
  owner : ∀ m ∈ s.memberships, m.role = "owner" →
    ∃ m₀ ∈ first.memberships, m₀.key = m.key ∧ m₀.role = "owner"
  tokens : ∀ x ∈ s.apiTokens, ∀ scope ∈ x.scopes, HeldBy first accountId tenantId scope ∨
    ∃ x₀ ∈ first.apiTokens, x₀.id = x.id ∧ scope ∈ x₀.scopes
  invitations : ∀ i ∈ s.invitations, i.tokenHash ∉ first.invitations.map (·.tokenHash) →
    i.roleKey ≠ "owner" ∧ validateRoleKey i.roleKey = .ok i.roleKey

theorem handed_start : Handed first accountId tenantId first where
  scopes m hm _ hs := .inr ⟨m, hm, rfl, hs⟩
  owner m hm hr := ⟨m, hm, rfl, hr⟩
  tokens x hx _ hs := .inr ⟨x, hx, rfl, hs⟩
  invitations _ hi hn := absurd (List.mem_map_of_mem hi) hn

/-- A call that only takes rows away. -/
theorem Handed.of_subset (h : Handed first accountId tenantId s) (hmem : s'.memberships ⊆ s.memberships)
    (ht : s'.apiTokens ⊆ s.apiTokens) (hinv : s'.invitations ⊆ s.invitations) :
    Handed first accountId tenantId s' where
  scopes m hm := h.scopes m (hmem hm)
  owner m hm := h.owner m (hmem hm)
  tokens x hx := h.tokens x (ht hx)
  invitations i hi := h.invitations i (hinv hi)

theorem Handed.of_eq (h : Handed first accountId tenantId s) (hm : s'.memberships = s.memberships)
    (ht : s'.apiTokens = s.apiTokens) (hi : s'.invitations = s.invitations) :
    Handed first accountId tenantId s' :=
  h.of_subset (hm ▸ List.Subset.refl _) (ht ▸ List.Subset.refl _) (hi ▸ List.Subset.refl _)

theorem Handed.updateMemberships {selects : MembershipRow → Bool} {change : MembershipRow → MembershipRow}
    (hk : ∀ m, (change m).key = m.key) (h : Handed first accountId tenantId s)
    (hsco : ∀ m ∈ s.memberships, selects m = true →
      ∀ scope ∈ (change m).scopes, MayHold first accountId tenantId m.key scope)
    (ho : ∀ m ∈ s.memberships, selects m = true → (change m).role = "owner" → m.role = "owner") :
    Handed first accountId tenantId (s.updateMemberships selects change hk) where
  scopes m hm := by
    obtain ⟨m₀, hm₀, rfl⟩ := List.mem_map.1 hm
    split
    · next hs =>
      rw [hk]
      exact hsco m₀ hm₀ hs
    · exact h.scopes m₀ hm₀
  owner m hm := by
    obtain ⟨m₀, hm₀, rfl⟩ := List.mem_map.1 hm
    split
    · next hs =>
      intro hr
      rw [hk]
      exact h.owner m₀ hm₀ (ho m₀ hm₀ hs hr)
    · exact h.owner m₀ hm₀
  tokens := h.tokens
  invitations := h.invitations

variable {m : MembershipRow} {α : Type}

theorem Handed.insertMembership (h : Handed first accountId tenantId s)
    (hi : s.insertMembership m = .ok s') (hr : m.role ≠ "owner")
    (hs : ∀ scope ∈ m.scopes, MayHold first accountId tenantId m.key scope) :
    Handed first accountId tenantId s' := by
  rw [Tables.insertMembership] at hi
  split at hi
  · cases hi
  · cases hi
    refine ⟨fun m' hm' => ?_, fun m' hm' => ?_, h.tokens, h.invitations⟩
    · rcases List.mem_append.1 hm' with hm' | hm'
      · exact h.scopes m' hm'
      · rw [List.mem_singleton.1 hm']
        exact hs
    · rcases List.mem_append.1 hm' with hm' | hm'
      · exact h.owner m' hm'
      · rw [List.mem_singleton.1 hm']
        exact fun ho => absurd ho hr

theorem assignedScopes_of_ne {role : String} {scopes : List String} (h : role ≠ "owner") {t : String} :
    s.assignedScopes t role scopes = .ok scopes := by
  rw [Tables.assignedScopes, if_pos h]

theorem Handed.createMembershipInTenant {account : Option AccountCredential}
    (h : Handed first accountId tenantId s) (hok : HandsHeld first accountId tenantId (.createMembershipInTenant m))
    (hc : s.createMembershipInTenant m = .ok (s', account)) : Handed first accountId tenantId s' := by
  rw [Tables.createMembershipInTenant, assignedScopes_of_ne hok.1] at hc
  change (if _ then _ else _) = _ at hc
  split at hc
  · cases hc
  · cases hi : s.insertMembership { m with scopes := m.scopes.dedup, status := .active } with
    | error e =>
      rw [hi] at hc
      cases hc
    | ok s₁ =>
      rw [hi] at hc
      cases hc
      exact h.insertMembership hi hok.1 fun scope hs => .inl (hok.2 scope (List.mem_dedup.1 hs))

theorem Handed.createAccountInTenant {a : AccountRow}
    {account : Option AccountCredential} (h : Handed first accountId tenantId s)
    (hok : HandsHeld first accountId tenantId (.createAccountInTenant a m))
    (hc : s.createAccountInTenant a m = .ok (s', account)) : Handed first accountId tenantId s' := by
  rw [Tables.createAccountInTenant, assignedScopes_of_ne hok.1] at hc
  change (if _ then _ else _) = _ at hc
  split_ifs at hc
  refine Handed.createMembershipInTenant ?_ ?_ hc
  · exact h.of_eq rfl rfl rfl
  · exact hok

theorem Handed.answered {r : Except String (Tables × α)} (h : Handed first accountId tenantId s)
    (hr : ∀ s' a, r = .ok (s', a) → Handed first accountId tenantId s') :
    Handed first accountId tenantId (answered s r).2 := by
  cases r with
  | error e => exact h
  | ok reply => exact hr reply.1 reply.2 rfl

theorem Handed.written {a : α} {r : Except String Tables} (h : Handed first accountId tenantId s)
    (hr : ∀ s', r = .ok s' → Handed first accountId tenantId s') :
    Handed first accountId tenantId (written s a r).2 := by
  cases r with
  | error e => exact h
  | ok s' => exact hr s' rfl

/-- **A call that hands out what was held** keeps the invariant. -/
theorem Handed.perform (h : Handed first accountId tenantId s) (hok : HandsHeld first accountId tenantId c) :
    Handed first accountId tenantId (c.perform choice s).2 := by
  cases c with
  | replaceMembershipScopes a t scopes =>
    have hk : ∀ m : MembershipRow, { m with scopes := scopes.dedup }.key = m.key := fun _ => rfl
    refine h.updateMemberships hk (fun m _ hsel scope hsco => ?_) fun m _ _ hr => hr
    rw [of_decide_eq_true hsel]
    exact hok scope (List.mem_dedup.1 hsco)
  | updateMembershipRole a t role roleId scopes =>
    refine h.written fun s' hs' => ?_
    rw [Tables.updateMembershipRole, assignedScopes_of_ne hok.1] at hs'
    cases hs'
    have hk : ∀ m : MembershipRow, { m with role, roleId, scopes := scopes.dedup }.key = m.key :=
      fun _ => rfl
    refine h.updateMemberships hk (fun m _ hsel scope hsco => ?_) fun _ _ _ hr =>
      absurd hr hok.1
    rw [of_decide_eq_true hsel]
    exact hok.2 scope (List.mem_dedup.1 hsco)
  | setMembershipStatus a t status =>
    have hk : ∀ m : MembershipRow, { m with status }.key = m.key := fun _ => rfl
    exact h.updateMemberships hk (fun m hm _ => h.scopes m hm) fun m _ _ hr => hr
  | createMembershipInTenant m => exact h.answered fun _ _ => h.createMembershipInTenant hok
  | createAccountInTenant a m => exact h.answered fun _ _ => h.createAccountInTenant hok
  | deleteMembership a t =>
    exact h.of_subset (List.filter_subset_self _) (List.filter_subset_self _) (List.Subset.refl _)
  | deleteAccount a =>
    exact h.of_subset (List.filter_subset_self _) (List.filter_subset_self _) (List.Subset.refl _)
  | createApiToken row =>
    refine h.written fun s' hs' => ?_
    rw [Tables.createApiToken] at hs'
    split_ifs at hs'
    cases hs'
    refine ⟨h.scopes, h.owner, fun x hx => ?_, h.invitations⟩
    rcases List.mem_append.1 hx with hx | hx
    · exact h.tokens x hx
    · rw [List.mem_singleton.1 hx]
      exact fun scope hsco => .inl (hok scope hsco)
  | revokeMembershipApiTokens t a revokedAt revokedBy =>
    refine ⟨h.scopes, h.owner, fun x hx => ?_, h.invitations⟩
    obtain ⟨x₀, hx₀, rfl⟩ := List.mem_map.1 hx
    split <;> exact h.tokens x₀ hx₀
  | createTenantInvitation row =>
    refine h.written fun s' hs' => ?_
    dsimp only [Tables.createTenantInvitation] at hs'
    split_ifs at hs'
    cases hs'
    refine ⟨h.scopes, h.owner, h.tokens, fun i hi => ?_⟩
    rcases List.mem_append.1 hi with hi | hi
    · exact h.invitations i (List.mem_filter.1 hi).1
    · rw [List.mem_singleton.1 hi]
      exact fun _ => hok
  | consumeTenantInvitation tokenHash now =>
    refine ⟨h.scopes, h.owner, h.tokens, fun i hi => ?_⟩
    obtain ⟨i₀, hi₀, rfl⟩ := List.mem_map.1 hi
    split <;> exact h.invitations i₀ hi₀
  | createSession row =>
    refine h.written fun s' hs' => ?_
    rw [Tables.createSession] at hs'
    split_ifs at hs'
    cases hs'
    exact h.of_eq rfl rfl rfl
  | createMfaChallenge row =>
    refine h.written fun s' hs' => ?_
    dsimp only [Tables.createMfaChallenge] at hs'
    split_ifs at hs'
    cases hs'
    exact h.of_eq rfl rfl rfl
  | createRole role =>
    refine h.written fun s' hs' => ?_
    rw [Tables.createRole] at hs'
    split_ifs at hs'
    cases hs'
    exact h.of_eq rfl rfl rfl
  | findSession tokenHash now idleMs touchIntervalMs =>
    simp only [Call.perform, Tables.findSession]
    split
    · exact h
    · split_ifs <;> exact h.of_eq rfl rfl rfl
  | grantTenantOwnerScopes t scopes => exact hok.elim
  | _ => exact h.of_eq rfl rfl rfl

theorem Handed.serves {r : Prog.Reply Call.Answer c} (h : Handed first accountId tenantId s)
    (hok : HandsHeld first accountId tenantId c) (hs : Serves c s r s') :
    Handed first accountId tenantId s' := by
  obtain ⟨choice, hs⟩ := hs
  obtain rfl : (c.serve s choice).2 = s' := congrArg Prod.snd hs
  rw [Call.serve]
  split
  · exact h.perform hok
  · split_ifs
    · exact h.perform hok
    · exact h

end Calls

/-! ### Programs in a state -/

section Programs

variable {first s : Tables} {accountId tenantId : String} {α β : Type} {c : Call} {actor : AuthActor}

/-- The calls of a program in a state hand out what was held. -/
abbrev Hands (first : Tables) (accountId tenantId : String) (p : Service α) (s : Tables) : Prop :=
  p.Meets Serves (fun c _ => HandsHeld first accountId tenantId c) s

variable {f : α → Service β} {p : Service α} {condition : Prop}
  {a t target id description name roleKey email displayName password : String} {s' : Tables}
  {scopes : List String} {input : UpdateRoleInput} {draws : Draws} {minLength : ℕ}
  {raw : CreateTenantMemberInput} {now : ℤ}

/-- A sequence whose second program may be run in any state. -/
theorem hands_bind (hp : Hands first accountId tenantId p s)
    (hf : ∀ a s', Hands first accountId tenantId (f a) s') :
    Hands first accountId tenantId (p >>= f) s :=
  meets_bind hp fun a s' _ => hf a s'

theorem hands_call (hok : HandsHeld first accountId tenantId c) :
    Hands first accountId tenantId (call c) s := by
  refine .call hok fun r s' _ => ?_
  cases r with
  | ok a => exact .pure
  | error e => exact .fail

theorem hands_ofExcept_bind {x : Except String α}
    (hf : ∀ a, x = .ok a → Hands first accountId tenantId (f a) s) :
    Hands first accountId tenantId (Prog.ofExcept x >>= f) s := by
  cases x with
  | ok a => exact hf a rfl
  | error e => exact .fail

theorem hands_require_bind [Decidable condition] {e : String} {f : PUnit → Service β}
    (hf : Hands first accountId tenantId (f ⟨⟩) s) :
    Hands first accountId tenantId (require condition e >>= f) s := by
  rw [require]
  split_ifs
  · exact hf
  · exact .fail

theorem hands_whenever_bind [Decidable condition] {p : Service PUnit}
    {f : PUnit → Service β} (hp : condition → Hands first accountId tenantId (p >>= f) s)
    (hf : Hands first accountId tenantId (f ⟨⟩) s) :
    Hands first accountId tenantId (whenever condition p >>= f) s := by
  rw [whenever]
  split_ifs with hc
  · exact hp hc
  · exact hf

theorem hands_renamed {known replacement : String} (h : Hands first accountId tenantId p s) :
    Hands first accountId tenantId (renamed known replacement p) s :=
  meets_orElse h fun _ _ _ => .fail

theorem hands_audit {action subjectType subjectId : String} {metadata : List (String × Json)} :
    Hands first accountId tenantId (audit t a action subjectType subjectId metadata) s :=
  meets_orElse (hands_call trivial) fun _ _ _ => .pure

theorem hands_member : Hands first accountId tenantId (member a t) s := by
  unfold member
  refine hands_bind (hands_call trivial) fun members s' => ?_
  split
  · exact .fail
  · exact .pure

theorem serves_read {r : Prog.Reply Call.Answer c} {a : c.Answer}
    (hr : ∀ choice, c.perform choice s = (.ok a, s)) (hser : Serves c s r s') :
    s' = s ∧ ∀ b, r = .ok b → b = a := by
  obtain ⟨choice, hser⟩ := hser
  rw [Call.serve] at hser
  split at hser
  · rw [hr] at hser
    obtain ⟨rfl, rfl⟩ := Prod.mk.inj hser
    exact ⟨rfl, fun b hb => (Except.ok.inj hb).symm⟩
  · obtain ⟨rfl, hs⟩ := Prod.mk.inj hser
    refine ⟨?_, fun b hb => (nomatch hb)⟩
    rw [hr] at hs
    split_ifs at hs
    · exact hs.symm
    · exact hs.symm

theorem hands_read {a : c.Answer} {f : c.Answer → Service β} (hr : ∀ choice, c.perform choice s = (.ok a, s))
    (hok : HandsHeld first accountId tenantId c) (hf : Hands first accountId tenantId (f a) s) :
    Hands first accountId tenantId (call c >>= f) s := by
  rw [call, Prog.need_bind]
  refine .call hok fun r s' hs => ?_
  obtain ⟨rfl, ha⟩ := serves_read hr hs
  cases r with
  | error e => exact .fail
  | ok b =>
    rw [ha b rfl]
    exact hf

/-- A program that leaves the tables. -/
def Still (p : Service α) : Prop :=
  ∀ {s s' : Tables} {out : Except String α}, p.Exec Serves s out s' → s' = s

theorem still_bind (hp : Still p) (hf : ∀ a, Still (f a)) : Still (p >>= f) := by
  intro s s' out he
  rcases Prog.exec_bind.1 he with ⟨a, mid, h₁, h₂⟩ | ⟨e, h₁, -⟩
  · rw [hf a h₂, hp h₁]
  · exact hp h₁

theorem still_pure {a : α} : Still (.pure a : Service α) :=
  fun he => he.2

theorem still_call (hr : ∀ s, ∃ a, ∀ choice, c.perform choice s = (.ok a, s)) : Still (call c) := by
  rintro s s' out ⟨r, mid, hs, he⟩
  obtain ⟨a, hr⟩ := hr s
  obtain ⟨rfl, -⟩ := serves_read hr hs
  cases r with
  | ok b => exact he.2
  | error e => exact he.2

/-- A program that changes nothing, and what follows it. -/
theorem hands_still (hs : Still p)
    (hp : Hands first accountId tenantId p s) (hf : ∀ a, Hands first accountId tenantId (f a) s) :
    Hands first accountId tenantId (p >>= f) s := by
  refine meets_bind hp fun a s' he => ?_
  rw [hs he]
  exact hf a

theorem Tables.findAccountMembership_id {target : AccountCredential}
    (h : s.findAccountMembership a t = some target) :
    target.accountId = a ∧ ∃ m ∈ s.memberships, m.key = (a, t) ∧ m.scopes = target.scopes := by
  obtain ⟨account, ha, h⟩ := Option.bind_eq_some_iff.1 h
  obtain ⟨m, hm, h⟩ := Option.bind_eq_some_iff.1 h
  cases h
  have hid := List.find?_some ha
  have hk := List.find?_some hm
  exact ⟨of_decide_eq_true hid, m, List.mem_of_find?_eq_some hm, of_decide_eq_true hk, rfl⟩

/-- Behind the target stands its identifier. -/
theorem hands_targetMember {f : AccountCredential → Service β}
    (hf : ∀ id found, identifier target "accountId" = .ok id → found.accountId = id →
      Hands first accountId tenantId (f found) s) :
    Hands first accountId tenantId (targetMember actor target false >>= f) s := by
  unfold targetMember
  rw [Prog.bind_assoc]
  refine hands_ofExcept_bind fun id hid => ?_
  rw [Prog.bind_assoc]
  refine hands_read (fun _ => rfl) trivial (hands_ofExcept_bind fun found hfou => hf id found hid ?_)
  cases hm : s.findAccountMembership id actor.tenantId with
  | none =>
    rw [hm] at hfou
    cases hfou
  | some target =>
    rw [hm, checkTarget] at hfou
    split_ifs at hfou
    cases hfou
    exact (Tables.findAccountMembership_id hm).1

/-- Behind the role stands its key, which is not the owner's. -/
theorem hands_roleForAssignment {key : String} {f : TenantRole → Service β} (ha : actor.role ≠ "owner")
    (hf : ∀ role, s.findRoleByKey actor.tenantId key = some role → role.key = key → key ≠ "owner" →
      Hands first accountId tenantId (f role) s) :
    Hands first accountId tenantId (roleForAssignment actor key >>= f) s := by
  unfold roleForAssignment
  split_ifs with ho
  · exact .fail
  · rw [Prog.bind_assoc]
    refine hands_read (fun _ => rfl) trivial ?_
    cases hr : s.findRoleByKey actor.tenantId key with
    | none => exact .fail
    | some role =>
      have hfou := List.find?_some hr
      rw [Bool.and_eq_true] at hfou
      exact hf role hr (of_decide_eq_true hfou.2) fun hk => ho ⟨hk, ha⟩

/-- The scopes that may be granted are read. -/
theorem hands_listGrantableScopes {f : List String → Service β}
    (hf : ∀ grantable, Hands first accountId tenantId (f grantable) s) :
    Hands first accountId tenantId (listGrantableScopes t >>= f) s := by
  unfold listGrantableScopes
  rw [Prog.bind_assoc]
  refine hands_ofExcept_bind fun id _ => ?_
  rw [Prog.bind_assoc]
  exact hands_read (fun _ => rfl) trivial (hf _)

/-- The scopes of a role are those that were asked for. -/
theorem hands_roleScopes {f : List String → Service β}
    (hf : Hands first accountId tenantId (f (sortStrings scopes.dedup)) s) :
    Hands first accountId tenantId (roleScopes actor scopes >>= f) s := by
  unfold roleScopes
  rw [Prog.bind_assoc]
  refine hands_listGrantableScopes fun grantable => ?_
  rw [Prog.bind_assoc]
  refine hands_require_bind ?_
  rw [Prog.bind_assoc]
  exact hands_ofExcept_bind fun _ _ => hf

theorem mem_accepted {scope : String} : scope ∈ sortStrings scopes.dedup ↔ scope ∈ scopes := by
  rw [(sortStrings_perm _).mem_iff, List.mem_dedup]

theorem hands_done (h : Hands first accountId tenantId p s) :
    Hands first accountId tenantId (done p) s := by
  unfold done
  exact hands_bind h fun _ _ => .pure

/-! ### The calls of the actor -/

theorem hands_createRole {input : CreateRoleInput} :
    Hands first accountId tenantId (Auth.createRole actor input id) s := by
  unfold Auth.createRole requireTenant
  refine hands_require_bind (hands_ofExcept_bind fun key _ => hands_require_bind (hands_renamed ?_))
  refine hands_ofExcept_bind fun name _ => hands_ofExcept_bind fun description _ => hands_roleScopes ?_
  exact hands_bind (hands_call trivial) fun _ _ => hands_bind hands_audit fun _ _ => .pure

theorem hands_replaceScopesOf {f : PUnit → Service β} :
    ∀ {members : List TenantMember} {s : Tables},
    (∀ entry ∈ members, ∀ scope ∈ scopes, MayHold first accountId tenantId (entry.accountId, tenantId) scope) →
      (∀ s', Hands first accountId tenantId (f ⟨⟩) s') →
      Hands first accountId tenantId (replaceScopesOf tenantId scopes members >>= f) s := by
  intro members
  induction members with
  | nil => exact fun _ hf => hf _
  | cons entry rest ih =>
    intro s h hf
    obtain ⟨he, hr⟩ := List.forall_mem_cons.1 h
    rw [replaceScopesOf, Prog.bind_assoc]
    exact hands_bind (hands_call he) fun _ _ => ih hr hf

/-- The members of a workspace are its memberships. -/
theorem Tables.mem_listTenantMembers {entry : TenantMember} (h : entry ∈ s.listTenantMembers t) :
    ∃ m ∈ s.memberships, m.key = (entry.accountId, t) ∧ m.roleId = entry.roleId := by
  obtain ⟨m, hm, h⟩ := List.mem_filterMap.1 h
  obtain ⟨account, ha, rfl⟩ := Option.map_eq_some_iff.1 h
  obtain ⟨hmem, ht⟩ := List.mem_filter.1 hm
  have hid := List.find?_some ha
  refine ⟨m, hmem, ?_, rfl⟩
  exact Prod.ext (of_decide_eq_true hid).symm (of_decide_eq_true ht)

theorem hands_rewriteHolders {roleId : String} {f : PUnit → Service β}
    (hg : ∀ m ∈ s.memberships, m.tenantId = tenantId → m.roleId = some roleId →
      ∀ scope ∈ scopes, MayHold first accountId tenantId m.key scope)
    (hf : ∀ s', Hands first accountId tenantId (f ⟨⟩) s') :
    Hands first accountId tenantId (rewriteHolders tenantId roleId scopes >>= f) s := by
  unfold rewriteHolders
  rw [Prog.bind_assoc]
  refine hands_read (fun _ => rfl) trivial (hands_replaceScopesOf ?_ hf)
  intro entry he scope hs
  obtain ⟨hmem, hr⟩ := List.mem_filter.1 he
  obtain ⟨m, hm, hk, hroleId⟩ := Tables.mem_listTenantMembers hmem
  rw [← hk]
  exact hg m hm (Prod.mk.inj hk).2 (hroleId.trans (of_decide_eq_true hr)) scope hs

/-- A change of a role changes no membership. -/
theorem serves_updateRole {r : Prog.Reply Call.Answer (.updateRole t id name description scopes)}
    (hs : Serves (.updateRole t id name description scopes) s r s') :
    s'.memberships = s.memberships := by
  obtain ⟨choice, hs⟩ := hs
  obtain rfl : ((Call.updateRole t id name description scopes).serve s choice).2 = s' :=
    congrArg Prod.snd hs
  rw [Call.serve]
  split
  · rfl
  · split_ifs <;> rfl

/-- The change of a role, with the scopes that are given to its members. -/
theorem hands_changeRole {f : Option TenantRole → Service β}
    (hf : ∀ updated s', s'.memberships = s.memberships → Hands first accountId tenantId (f updated) s') :
    Hands first accountId tenantId (call (.updateRole t id name description scopes) >>= f) s := by
  rw [call, Prog.need_bind]
  refine .call trivial fun r s' hs => ?_
  cases r with
  | error e => exact .fail
  | ok updated => exact hf updated s' (serves_updateRole hs)

theorem hands_updateRoleOf {current : TenantRole} (hten : actor.tenantId = tenantId)
    (hg : ∀ scopes, input.scopes = some scopes → ∀ m ∈ s.memberships, m.tenantId = tenantId →
      m.roleId = some current.id → ∀ scope ∈ scopes, MayHold first accountId tenantId m.key scope) :
    Hands first accountId tenantId (updateRoleOf actor input current) s := by
  subst hten
  unfold updateRoleOf
  have hsco : ∀ (f : List String → Service TenantRole),
      (∀ scopes, (input.scopes.isSome = true → ∀ m ∈ s.memberships, m.tenantId = actor.tenantId →
          m.roleId = some current.id →
          ∀ scope ∈ scopes, MayHold first accountId actor.tenantId m.key scope) →
        Hands first accountId actor.tenantId (f scopes) s) →
      Hands first accountId actor.tenantId (updatedScopes actor current input.scopes >>= f) s := by
    intro f hf
    cases hi : input.scopes with
    | none => exact hf current.scopes fun h => by rw [hi] at h; cases h
    | some scopes =>
      refine hands_roleScopes (hf _ fun _ m hm ht hr scope hs => ?_)
      exact hg scopes hi m hm ht hr scope (mem_accepted.1 hs)
  refine hsco _ fun scopes hh => ?_
  refine hands_ofExcept_bind fun name _ => hands_ofExcept_bind fun description _ => ?_
  refine hands_changeRole fun updated s' hmem => ?_
  have ha : ∀ s'', Hands first accountId actor.tenantId (auditUpdated actor updated) s'' := by
    intro s''
    cases updated with
    | none => exact .fail
    | some updated => exact hands_bind hands_audit fun _ _ => .pure
  refine hands_whenever_bind (fun hsome => hands_rewriteHolders ?_ fun s'' => ?_) ?_
  · rw [hmem]
    exact hh hsome
  · exact ha s''
  · exact ha s'

theorem hands_updateRole (ht : actor.tenantId = tenantId)
    (hg : ∀ id scopes, identifier input.id "id" = .ok id → input.scopes = some scopes →
      ∀ m ∈ s.memberships, m.tenantId = tenantId → m.roleId = some id →
      ∀ scope ∈ scopes, MayHold first accountId tenantId m.key scope) :
    Hands first accountId tenantId (Auth.updateRole actor input) s := by
  unfold Auth.updateRole requireTenant
  refine hands_require_bind ?_
  unfold editableRole
  rw [Prog.bind_assoc]
  refine hands_ofExcept_bind fun id hid => ?_
  rw [Prog.bind_assoc]
  refine hands_read (fun _ => rfl) trivial ?_
  cases hr : s.findRole actor.tenantId id with
  | none => exact .fail
  | some role =>
    dsimp only
    rw [Prog.bind_assoc]
    refine hands_require_bind (hands_updateRoleOf ht fun scopes hs => ?_)
    have hf := List.find?_some hr
    rw [Bool.and_eq_true] at hf
    rw [show role.id = id from of_decide_eq_true hf.2]
    exact hg id scopes hid hs

theorem hands_assertOwnerRemains {target : AccountCredential} {counted : Bool} :
    Hands first accountId tenantId (assertOwnerRemains t target counted) s := by
  unfold assertOwnerRemains
  split_ifs
  · refine hands_bind (hands_call trivial) fun owners s' => ?_
    split_ifs
    · exact .fail
    · exact .pure
  · exact .pure

theorem hands_assignMemberRole (ha : actor.role ≠ "owner") (ht : actor.tenantId = tenantId)
    (hg : ∀ id key role, identifier target "accountId" = .ok id → validateRoleKey roleKey = .ok key →
      s.findRoleByKey tenantId key = some role →
      ∀ scope ∈ role.scopes, MayHold first accountId tenantId (id, tenantId) scope) :
    Hands first accountId tenantId (Auth.assignMemberRole actor target roleKey) s := by
  subst ht
  unfold Auth.assignMemberRole
  refine hands_targetMember fun id found hid hf => hands_ofExcept_bind fun key hk => ?_
  refine hands_roleForAssignment ha fun role hrole hr ho => ?_
  unfold assignRole
  have hrest : ∀ s', Hands first accountId actor.tenantId (do
      let _ ← call (.updateMembershipRole found.accountId actor.tenantId role.key (some role.id) role.scopes)
      let _ ← audit actor.tenantId actor.accountId "users.member.role" "account" found.accountId
        [("role", .str role.key)]
      member found.accountId actor.tenantId) s' := by
    intro s'
    refine hands_bind (hands_call ⟨?_, ?_⟩) fun _ _ => hands_bind hands_audit fun _ _ => hands_member
    · rw [hr]
      exact ho
    · rw [hf]
      exact hg id key role hid hk hrole
  exact hands_whenever_bind (fun _ => hands_bind hands_assertOwnerRemains fun _ s' => hrest s') (hrest s)

theorem checkScopes_cap {grantable held : List String} : ∀ {scopes : List String},
    checkScopes grantable (some held) scopes = .ok ⟨⟩ → ∀ scope ∈ scopes, scope ∈ held := by
  intro scopes
  induction scopes with
  | nil => exact fun _ scope hs => absurd hs List.not_mem_nil
  | cons scope rest ih =>
    intro h
    rw [checkScopes] at h
    split_ifs at h with hg hc
    refine List.forall_mem_cons.2 ⟨?_, ih h⟩
    by_contra hn
    exact hc (by simp [hn])

theorem hands_setMembershipScopes (ha : actor.role ≠ "owner")
    (hh : ∀ scope ∈ actor.scopes, HeldBy first accountId tenantId scope) :
    Hands first accountId tenantId (Auth.setMembershipScopes actor target scopes) s := by
  unfold Auth.setMembershipScopes
  refine hands_targetMember fun id found _ _ => hands_listGrantableScopes fun grantable => ?_
  refine hands_ofExcept_bind fun _ hc => ?_
  rw [if_pos ha] at hc
  refine hands_bind (hands_call fun scope hs => .inl ?_) fun _ _ =>
    hands_bind hands_audit fun _ _ => hands_member
  exact hh scope (checkScopes_cap hc scope hs)

theorem hands_insertMember {by' : Option AuthActor} {input : CreateTenantMemberInput}
    {roleId : Option String} (hr : input.role ≠ "owner")
    (hh : ∀ scope ∈ scopes, HeldBy first accountId tenantId scope) :
    Hands first accountId tenantId (insertMember by' input draws roleId scopes) s := by
  unfold insertMember
  refine hands_bind (hands_call ⟨hr, hh⟩) fun account s' => ?_
  cases account with
  | none => exact .fail
  | some account =>
    refine hands_bind ?_ fun _ _ => .pure
    cases by' with
    | none => exact .pure
    | some by' => exact hands_audit

/-- What a member that is created has been checked for. -/
theorem validateCreateTenantMember_role [AuthText] {input : CreateTenantMemberInput}
    (h : validateCreateTenantMember raw minLength = .ok input) :
    validateRoleKey raw.role = .ok input.role ∧ input.tenantId = raw.tenantId := by
  unfold validateCreateTenantMember at h
  obtain ⟨displayName, -, h⟩ := bind_eq_ok h
  obtain ⟨-, -, h⟩ := bind_eq_ok h
  obtain ⟨-, -, h⟩ := bind_eq_ok h
  split_ifs at h
  obtain ⟨role, hr, h⟩ := bind_eq_ok h
  cases h
  exact ⟨hr, rfl⟩

theorem hands_createTenantMember [AuthText]
    (ha : actor.role ≠ "owner") (ht : actor.tenantId = tenantId)
    (hg : ∀ key role, validateRoleKey raw.role = .ok key → s.findRoleByKey tenantId key = some role →
      ∀ scope ∈ role.scopes, HeldBy first accountId tenantId scope) :
    Hands first accountId tenantId (Auth.createTenantMember raw (some actor) minLength draws) s := by
  subst ht
  unfold Auth.createTenantMember
  refine hands_ofExcept_bind fun input hi => ?_
  unfold createMember
  refine hands_whenever_bind (fun _ => .fail) ?_
  unfold roleOfMember
  rw [Prog.bind_assoc]
  refine hands_roleForAssignment ha fun role hr _ ho => hands_renamed ?_
  have hv := (validateCreateTenantMember_role hi).1
  exact hands_insertMember ho (hg input.role role hv hr)

/-! ### Invitations -/

/-- A role key stands for itself. -/
theorem validateRoleKey_ok {value key : String} (h : validateRoleKey value = .ok key) :
    trimmed value = key ∧ validateRoleKey key = .ok key := by
  unfold validateRoleKey at h
  dsimp only at h
  split_ifs at h with hv
  have hk := Except.ok.inj h
  refine ⟨hk, ?_⟩
  have hs : ∀ c : Char, (isLowerLetter c || isDigit c || decide (c = '-')) = true →
      isWhiteSpace c = false := by
    intro c hc
    rw [isWhiteSpace, decide_eq_false_iff_not]
    intro hm
    simp only [isLowerLetter, isDigit, Bool.or_eq_true, Bool.and_eq_true, decide_eq_true_eq] at hc
    simp only [List.mem_cons, List.not_mem_nil, or_false] at hm
    rcases hc with (hc | hc) | rfl
    · omega
    · omega
    · exact absurd hm (by decide)
  have hn : ∀ c ∈ trimChars value.toList, isWhiteSpace c = false := by
    intro c hc
    split at hv
    · cases hv
    · next first rest ht =>
      rw [ht] at hc
      simp only [Bool.and_eq_true, List.all_eq_true] at hv
      rcases List.mem_cons.1 hc with rfl | hc
      · exact hs c (by simp [hv.1.1.1])
      · exact hs c (hv.2 c hc)
  rw [validateRoleKey, ← hk]
  simp only [String.toList_ofList, trimChars_of_none hn]
  rw [if_pos hv]

theorem hands_createTenantInvitation [AuthText] (ha : actor.role ≠ "owner") :
    Hands first accountId tenantId (Auth.createTenantInvitation actor email roleKey draws) s := by
  unfold Auth.createTenantInvitation
  refine hands_ofExcept_bind fun _ _ => hands_ofExcept_bind fun key hk => ?_
  refine hands_roleForAssignment ha fun role _ _ ho => ?_
  obtain ⟨ht, hv⟩ := validateRoleKey_ok hk
  refine hands_bind (hands_call trivial) fun configured s₁ => hands_require_bind ?_
  refine hands_bind (hands_call ?_) fun _ s₂ => ?_
  · show trimmed roleKey ≠ "owner" ∧ validateRoleKey (trimmed roleKey) = .ok (trimmed roleKey)
    rw [ht]
    exact ⟨ho, hv⟩
  · refine hands_bind (meets_orElse (hands_call trivial) fun _ _ _ => .pure) fun sent s₃ => ?_
    exact hands_require_bind (hands_bind hands_audit fun _ _ => .pure)

/-- Taking an invitation changes no role. -/
theorem serves_consume {tokenHash : String}
    {r : Prog.Reply Call.Answer (.consumeTenantInvitation tokenHash now)}
    (hs : Serves (.consumeTenantInvitation tokenHash now) s r s') :
    s'.roles = s.roles ∧ ∀ a, r = .ok a → a = (s.consumeTenantInvitation tokenHash now).1 := by
  obtain ⟨choice, hs⟩ := hs
  obtain rfl : ((Call.consumeTenantInvitation tokenHash now).serve s choice).2 = s' :=
    congrArg Prod.snd hs
  obtain rfl : ((Call.consumeTenantInvitation tokenHash now).serve s choice).1 = r :=
    congrArg Prod.fst hs
  rw [Call.serve]
  split
  · exact ⟨rfl, fun a ha => (Except.ok.inj ha).symm⟩
  · refine ⟨?_, fun a ha => (nomatch ha)⟩
    split_ifs <;> rfl

theorem still_findAccountByEmail : Still (findAccountByEmail email) := by
  unfold findAccountByEmail
  refine still_bind (still_call fun s => ⟨_, fun _ => rfl⟩) fun identity => ?_
  cases identity with
  | none => exact still_pure
  | some identity =>
    refine still_bind (still_call fun s => ⟨_, fun _ => rfl⟩) fun tenantId => ?_
    cases tenantId with
    | none => exact still_pure
    | some tenantId => exact still_call fun s => ⟨_, fun _ => rfl⟩

theorem hands_findAccountByEmail : Hands first accountId tenantId (findAccountByEmail email) s := by
  unfold findAccountByEmail
  refine hands_bind (hands_call trivial) fun identity s₁ => ?_
  cases identity with
  | none => exact .pure
  | some identity =>
    refine hands_bind (hands_call trivial) fun t s₂ => ?_
    cases t with
    | none => exact .pure
    | some t => exact hands_call trivial

/-- An invitation makes a member of its role. -/
theorem hands_joinInvited [AuthText] {invitation : InvitationRow} {role : TenantRole}
    {existing : Option AccountCredential}
    (ho : invitation.roleKey ≠ "owner")
    (hv : validateRoleKey invitation.roleKey = .ok invitation.roleKey)
    (hr : s.findRoleByKey invitation.tenantId invitation.roleKey = some role)
    (hh : ∀ scope ∈ role.scopes, HeldBy first accountId tenantId scope) :
    Hands first accountId tenantId
      (joinInvited invitation role displayName password minLength draws existing) s := by
  cases existing with
  | some existing =>
    unfold joinInvited joinTenant
    refine hands_bind (hands_call trivial) fun _ _ => hands_require_bind ?_
    exact hands_bind (hands_call ⟨ho, hh⟩) fun _ _ => .pure
  | none =>
    unfold joinInvited Auth.createTenantMember
    refine hands_bind (hands_ofExcept_bind fun input hi => ?_) fun _ _ => .pure
    obtain ⟨hk, ht⟩ := validateCreateTenantMember_role hi
    have hinp : input.role = invitation.roleKey :=
      (Except.ok.inj (hv.symm.trans hk)).symm
    unfold createMember
    refine hands_whenever_bind (fun _ => .fail) ?_
    unfold roleOfMember
    rw [Prog.bind_assoc, hinp, ht]
    refine hands_read (fun _ => rfl) trivial ?_
    rw [hr]
    refine hands_renamed (hands_insertMember ?_ hh)
    rw [hinp]
    exact ho

theorem hands_acceptTenantInvitation [AuthText] {token : String}
    (hs : Handed first accountId tenantId s)
    (hown : AuthText.hashSessionToken token ∉ first.invitations.map (·.tokenHash))
    (hg : ∀ invitation role,
      (s.consumeTenantInvitation (AuthText.hashSessionToken token) now).1 = some invitation →
      s.findRoleByKey invitation.tenantId invitation.roleKey = some role →
      ∀ scope ∈ role.scopes, HeldBy first accountId tenantId scope) :
    Hands first accountId tenantId
      (Auth.acceptTenantInvitation token displayName password minLength now draws) s := by
  unfold Auth.acceptTenantInvitation
  refine hands_require_bind ?_
  rw [call, Prog.need_bind]
  refine .call trivial fun r s' hser => ?_
  obtain ⟨hrol, ha⟩ := serves_consume hser
  cases r with
  | error e => exact .fail
  | ok found =>
    have hf := ha found rfl
    cases found with
    | none => exact .fail
    | some invitation =>
      have hsel := List.find?_some hf.symm
      rw [Bool.and_eq_true, Bool.and_eq_true, decide_eq_true_eq] at hsel
      obtain ⟨ho, hv⟩ := hs.invitations invitation (List.mem_of_find?_eq_some hf.symm)
        (hsel.1.1 ▸ hown)
      have hsame : s'.findRoleByKey invitation.tenantId invitation.roleKey =
          s.findRoleByKey invitation.tenantId invitation.roleKey := by
        rw [Tables.findRoleByKey, Tables.findRoleByKey, hrol]
      show Hands first accountId tenantId (acceptInvitation invitation displayName password minLength draws) s'
      unfold acceptInvitation
      refine hands_read (fun _ => rfl) trivial ?_
      cases hr : s'.findRoleByKey invitation.tenantId invitation.roleKey with
      | none => exact .fail
      | some role =>
        refine hands_still still_findAccountByEmail hands_findAccountByEmail fun existing => ?_
        refine hands_bind (hands_joinInvited ho hv hr ?_) fun _ _ => hands_audit
        exact hg invitation role hf.symm (hsame.symm.trans hr)

/-! ### API tokens -/

theorem tokenScopes_held {held asked : List String} (h : tokenScopes held asked = .ok scopes) :
    ∀ scope ∈ scopes, scope ∈ held := by
  rw [tokenScopes] at h
  split_ifs at h
  split at h
  · cases h
  · dsimp only at h
    split_ifs at h
    cases h
    intro scope hs
    rw [(sortStrings_perm _).mem_iff] at hs
    exact of_decide_eq_true (List.mem_filter.1 hs).2

theorem tokenRow_scopes [AuthText] {raw : CreateApiTokenInput} {createdBy label : String}
    {membership : AccountCredential} {row : ApiTokenRow}
    (h : tokenRow raw t a createdBy label draws membership = .ok row) :
    ∀ scope ∈ row.scopes, scope ∈ membership.scopes := by
  unfold tokenRow at h
  obtain ⟨scopes, hs, h⟩ := bind_eq_ok h
  obtain ⟨-, -, h⟩ := bind_eq_ok h
  obtain ⟨origins, -, h⟩ := bind_eq_ok h
  obtain ⟨limit, -, h⟩ := bind_eq_ok h
  cases h
  exact tokenScopes_held hs

theorem hands_issueApiToken [AuthText] {raw : CreateApiTokenInput}
    (hs : Handed first accountId tenantId s)
    (hacc : identifier raw.accountId "accountId" = .ok accountId)
    (hten : identifier raw.tenantId "tenantId" = .ok tenantId) :
    Hands first accountId tenantId (Auth.issueApiToken raw draws) s := by
  unfold Auth.issueApiToken
  refine hands_ofExcept_bind fun t ht => hands_ofExcept_bind fun a ha => ?_
  obtain rfl := Except.ok.inj (hten.symm.trans ht)
  obtain rfl := Except.ok.inj (hacc.symm.trans ha)
  refine hands_ofExcept_bind fun createdBy _ => hands_ofExcept_bind fun label _ => ?_
  refine hands_read (fun _ => rfl) trivial (hands_ofExcept_bind fun membership hmem => ?_)
  refine hands_ofExcept_bind fun row hr => ?_
  refine hands_bind (hands_call fun scope hscope => ?_) fun _ _ => hands_bind hands_audit fun _ _ => .pure
  have hh := tokenRow_scopes hr scope hscope
  cases hf : s.findAccountMembership accountId tenantId with
  | none =>
    rw [hf] at hmem
    cases hmem
  | some found =>
    rw [hf, checkTokenMembership] at hmem
    split_ifs at hmem
    cases hmem
    obtain ⟨-, m, hm, hk, hsco⟩ := Tables.findAccountMembership_id hf
    rcases hs.scopes m hm scope (hsco ▸ hh) with hb | ⟨m₀, hm₀, hkey₀, hscope₀⟩
    · exact hb
    · exact ⟨m₀, hm₀, hkey₀.trans hk, hscope₀⟩

/-- **What the actor does** hands out what was held, under the condition. -/
theorem hands_program [AuthText] {r : ActorRequest} (hs : Handed first accountId tenantId s)
    (ha : Acts s accountId tenantId actor) (hr : actor.role ≠ "owner") (ho : r.own first)
    (hg : GrantsHeld first accountId tenantId s r) :
    Hands first accountId tenantId (r.program minLength actor) s := by
  have hh : ∀ scope ∈ actor.scopes, HeldBy first accountId tenantId scope := by
    intro scope hscope
    obtain ⟨m, hm, hk, -, hsco⟩ := ha.membership
    rcases hs.scopes m hm scope (hsco scope hscope) with hb | ⟨m₀, hm₀, hkey₀, hscope₀⟩
    · exact hb
    · exact ⟨m₀, hm₀, hkey₀.trans hk, hscope₀⟩
  cases r with
  | createRole input id => exact hands_done hands_createRole
  | updateRole input => exact hands_done (hands_updateRole ha.tenant hg)
  | assignMemberRole target roleKey =>
    exact hands_done (hands_assignMemberRole hr ha.tenant hg)
  | setMembershipScopes target scopes => exact hands_done (hands_setMembershipScopes hr hh)
  | createTenantMember input draws =>
    exact hands_done (hands_createTenantMember hr ha.tenant hg)
  | createTenantInvitation email roleKey draws => exact hands_done (hands_createTenantInvitation hr)
  | acceptTenantInvitation token displayName password now draws =>
    exact hands_acceptTenantInvitation hs ho hg
  | issueApiToken input draws =>
    refine hands_done (hands_issueApiToken hs ?_ ?_)
    · rw [ha.account]
      exact ha.identifiers.1
    · rw [ha.tenant]
      exact ha.identifiers.2

end Programs

/-! ### Sequences -/

/-- The actor stays what it was: no owner. -/
theorem Handed.role_ne {first s : Tables} {accountId tenantId : String} {actor : AuthActor}
    (h : Handed first accountId tenantId s)
    (hf : ∀ m ∈ first.memberships, m.key = (accountId, tenantId) → m.role ≠ "owner")
    (ha : Acts s accountId tenantId actor) : actor.role ≠ "owner" := by
  obtain ⟨m, hm, hk, hr, -⟩ := ha.membership
  intro ho
  obtain ⟨m₀, hm₀, hkey₀, hrole₀⟩ := h.owner m hm (hr.trans ho)
  exact hf m₀ hm₀ (hkey₀.trans hk) hrole₀

section Sequences

variable [AuthText] {minLength : ℕ} {first s : Tables} {accountId tenantId : String}

theorem handing_handed (hf : ∀ m ∈ first.memberships, m.key = (accountId, tenantId) → m.role ≠ "owner")
    (h : Handing minLength (GrantsHeld first accountId tenantId) first accountId tenantId s) :
    Handed first accountId tenantId s := by
  induction h with
  | start => exact handed_start
  | call hb ha ho hc hr ih =>
    refine Meets.stops (fun hi hok hs => hi.serves hok hs) ?_ ih hr
    exact hands_program ih ha (ih.role_ne hf ha) ho hc

/-- **A member who is no owner hands out what it holds.**  In every sequence of its calls
whose roles grant only what the actor or the member they are given to held, every scope of
a membership or of an API token was held, by the actor's membership or by the same
membership or token, and every owner was one. -/
theorem hands_out_held
    (hfirst : ∀ m ∈ first.memberships, m.key = (accountId, tenantId) → m.role ≠ "owner")
    (h : Handing minLength (GrantsHeld first accountId tenantId) first accountId tenantId s) :
    (∀ m ∈ s.memberships, ∀ scope ∈ m.scopes, HeldBy first accountId tenantId scope ∨
        ∃ m₀ ∈ first.memberships, m₀.key = m.key ∧ scope ∈ m₀.scopes) ∧
      (∀ x ∈ s.apiTokens, ∀ scope ∈ x.scopes, HeldBy first accountId tenantId scope ∨
        ∃ x₀ ∈ first.apiTokens, x₀.id = x.id ∧ scope ∈ x₀.scopes) ∧
      ∀ m ∈ s.memberships, m.role = "owner" →
        ∃ m₀ ∈ first.memberships, m₀.key = m.key ∧ m₀.role = "owner" := by
  have hh := handing_handed hfirst h
  exact ⟨hh.scopes, hh.tokens, hh.owner⟩

end Sequences

/-! ### A member hands out what it does not hold -/

/-- A workspace with a manager, a member and two roles: the manager holds the scope of one. -/
def managedTables : Tables where
  accounts := [
    { id := "ada", email := "ada@example.com", passwordHash := "hash", displayName := "Ada" },
    { id := "bob", email := "bob@example.com", passwordHash := "hash", displayName := "Bob" }]
  memberships := [
    ⟨"ada", "t", "manager", none, ["auth.roles.manage", "users.members.manage"], .active, 0⟩,
    ⟨"bob", "t", "member", none, ["users.members.read"], .active, 0⟩]
  roles := [ ⟨"r", "t", "helper", "Helper", "", ["users.members.manage"], false⟩,
    ⟨"q", "t", "keeper", "Keeper", "", ["audit.holds.manage"], false⟩]
  keys := by decide

/-- The manager. -/
def manager : AuthActor where
  accountId := "ada"
  tenantId := "t"
  email := "ada@example.com"
  role := "manager"
  scopes := ["auth.roles.manage", "users.members.manage"]

/-- The tables a call of the manager leaves that does not fail. -/
def managed [AuthText] (r : ActorRequest) : Tables :=
  ((r.program 12 manager).run (fun c s => c.serve s {}) managedTables).2

theorem handing_managed [AuthText] {cond : Tables → ActorRequest → Prop} {r : ActorRequest}
    (ho : r.own managedTables) (hc : cond managedTables r) :
    Handing 12 cond managedTables "ada" "t" (managed r) := by
  have ha : Acts managedTables "ada" "t" manager := ⟨rfl, rfl, by decide +kernel, by decide +kernel⟩
  exact .call .start ha ho hc (Prog.exec_of_run fun _ _ => ⟨{}, rfl⟩).stops

/-- The manager gives the member a role whose scope it holds. -/
theorem hands_out_held_manager : ∃ s : Tables,
    @Handing plainText 12 (@GrantsHeld plainText managedTables "ada" "t") managedTables "ada" "t" s ∧
      s.memberships.map (·.scopes) =
        [["auth.roles.manage", "users.members.manage"], ["users.members.manage"]] ∧
      ∀ m ∈ s.memberships, m.role = "owner" →
        ∃ m₀ ∈ managedTables.memberships, m₀.key = m.key ∧ m₀.role = "owner" := by
  let _ := plainText
  have hg : GrantsHeld managedTables "ada" "t" managedTables (.assignMemberRole "bob" "helper") := by
    intro id key role _ hk hr scope hs
    have hhel : managedTables.findRoleByKey "t" "helper" =
        some ⟨"r", "t", "helper", "Helper", "", ["users.members.manage"], false⟩ := by decide +kernel
    have hv : validateRoleKey "helper" = .ok "helper" := by decide +kernel
    obtain rfl := Except.ok.inj (hv.symm.trans hk)
    obtain rfl := Option.some.inj (hhel.symm.trans hr)
    rw [List.mem_singleton.1 hs]
    exact .inl ⟨_, List.mem_cons_self, rfl, by decide⟩
  have hh := @handing_managed plainText _ (.assignMemberRole "bob" "helper") trivial hg
  exact ⟨_, hh, by decide +kernel, (hands_out_held (by decide +kernel) hh).2.2⟩

/-- The manager gives the member a role whose scope neither holds. -/
theorem hands_out_unheld : ∃ s : Tables,
    @Handing plainText 12 (fun _ _ => True) managedTables "ada" "t" s ∧
      ∃ m ∈ s.memberships, "audit.holds.manage" ∈ m.scopes ∧
        ∀ m₀ ∈ managedTables.memberships, "audit.holds.manage" ∉ m₀.scopes := by
  have hh := @handing_managed plainText (fun _ _ => True) (.assignMemberRole "bob" "keeper")
    trivial trivial
  exact ⟨_, hh, by decide +kernel⟩

end Flowdular.Auth
