/-
# The scopes of a role reach its holders

Calls of `createRole`, `updateRole`, `deleteRole`, `assignMemberRole`, `createTenantMember`,
`acceptTenantInvitation`, `provisionMember` and `grantModuleScopes` take turns call by call.
An update stores the scopes of a role, lists the members and gives each holder the new
scopes, in transactions of their own; an assignment copies the scopes it has read of a role
into a membership.  Only the owner role is read again where it is copied.

Where a role is copied as it is stored, or another update has still to give the member what
is stored, and a role is deleted while nobody holds it, the members of a role hold its
scopes once all calls are over (`scopes_reach_holders`).
-/

import Flowdular.Auth.Owners
import Flowdular.Auth.Roles

namespace Flowdular.Auth

open Lib Workflows
open Discipline (All all_bind)
open Prog (History Recorded recorder recorder_next Along along_bind along_of_all along_need_bind
  Ends ends_bind ends_need_bind Within within_pure within_fail within_bind within_orElse within_ofExcept
  within_need)

/-! ### The machine -/

/-- A call of one of the eight operations. -/
inductive RoleRequest
  | createRole (actor : AuthActor) (raw : CreateRoleInput) (id : String)
  | updateRole (actor : AuthActor) (raw : UpdateRoleInput)
  | deleteRole (actor : AuthActor) (id : String)
  | assignMemberRole (actor : AuthActor) (accountId roleKey : String)
  | createTenantMember (raw : CreateTenantMemberInput) (actor : Option AuthActor) (draws : Draws)
  | acceptTenantInvitation (token displayName password : String) (now : ℤ) (draws : Draws)
  | provisionMember (input : MemberProvisionInput) (draws : Draws)
  | grantModuleScopes (scopes : List String)

section

variable [AuthText]

/-- The program that answers a request, under a policy for passwords. -/
def RoleRequest.program (minLength : ℕ) : RoleRequest → Service PUnit
  | .createRole actor raw id => do
    let _ ← Auth.createRole actor raw id
    return ⟨⟩
  | .updateRole actor raw => do
    let _ ← Auth.updateRole actor raw
    return ⟨⟩
  | .deleteRole actor id => Auth.deleteRole actor id
  | .assignMemberRole actor accountId roleKey => do
    let _ ← Auth.assignMemberRole actor accountId roleKey
    return ⟨⟩
  | .createTenantMember raw actor draws => do
    let _ ← Auth.createTenantMember raw actor minLength draws
    return ⟨⟩
  | .acceptTenantInvitation token displayName password now draws =>
    Auth.acceptTenantInvitation token displayName password minLength now draws
  | .provisionMember input draws => do
    let _ ← Auth.provisionMember input draws
    return ⟨⟩
  | .grantModuleScopes scopes => do
    let _ ← Auth.grantModuleScopes scopes
    return ⟨⟩

/-- The role operations, with the calls that are over. -/
def roleCalls (minLength : ℕ) : Machine (Tables × List Process) Process RoleRequest Choice :=
  (recorder (RoleRequest.program minLength) Call.serve).ledger

end

/-! ### How far an update is -/

/-- The place of an update of a role: it has checked the scopes it was given, it has asked
for the role to be stored and has the members to list, or it has some of the holders left. -/
inductive Stage
  | idle
  | checked
  | toList (tenantId id : String) (scopes : List String)
  | rewriting (tenantId id : String) (scopes left : List String)

/-- The place behind one more call. -/
def Stage.advance : Stage → Entry → Stage
  | .idle, ⟨.listTenantScopes _, _⟩ => .checked
  | .checked, ⟨.updateRole tenantId id _ _ scopes, _⟩ => .toList tenantId id scopes
  | .toList tenantId id scopes, ⟨.listTenantMembers t, .ok members⟩ =>
    if t = tenantId then
      .rewriting tenantId id scopes
        ((members.filter fun entry => entry.roleId = some id).map (·.accountId))
    else .toList tenantId id scopes
  | .rewriting tenantId id scopes left, ⟨.replaceMembershipScopes accountId t _, .ok _⟩ =>
    .rewriting tenantId id scopes (left.filter fun other => !(other = accountId && t = tenantId))
  | stage, _ => stage

/-- The place of an update behind its history. -/
def stageOf (history : History Call (Prog.Reply Call.Answer)) : Stage :=
  history.foldl Stage.advance .idle

/-- The update has still to give a member these scopes of a role. -/
def Stage.owes (tenantId id accountId : String) (scopes : List String) : Stage → Bool
  | .idle => false
  | .checked => false
  | .toList t i given => t = tenantId && i = id && given = scopes
  | .rewriting t i given left => t = tenantId && i = id && given = scopes && decide (accountId ∈ left)

/-- The role has not been asked to be stored. -/
def Stage.before : Stage → Bool
  | .idle => true
  | .checked => true
  | _ => false

/-- A call is over: it has returned, or it failed before it stored new scopes of a role. -/
def settled (p : Process) : Bool :=
  match p.rest with
  | .pure _ => true
  | .fail _ => (stageOf p.history).before
  | .call .. => false

/-! ### The condition -/

/-- One of the processes has still to give a member these scopes of a role. -/
def owedBy (others : List Process) (tenantId id accountId : String) (scopes : List String) : Bool :=
  others.any fun q => (stageOf q.history).owes tenantId id accountId scopes

/-- A membership gets a role as it is stored, or another update has it to rewrite.  The scopes
of a built-in role do not count: the owner's are read again. -/
def copiesStored (s : Tables) (others : List Process) (accountId tenantId role : String)
    (roleId : Option String) (scopes : List String) : Bool :=
  roleId.all fun id => (s.findRole tenantId id).any fun r =>
    decide (r.key = role) &&
      (r.builtin || decide (r.scopes = scopes) || owedBy others tenantId id accountId r.scopes)

/-- A holder gets the scopes of the custom role it has, as they are stored, or another update
has it to rewrite. -/
def rewritesStored (s : Tables) (others : List Process) (accountId tenantId : String)
    (scopes : List String) : Bool :=
  (s.membershipRow accountId tenantId).all fun m => m.roleId.any fun id =>
    (s.findRole tenantId id).any fun r =>
      !r.builtin && (decide (r.scopes = scopes) || owedBy others tenantId id accountId r.scopes)

/-- The condition on a move: what is copied of a role is stored, an update that was given no
scopes writes those that are stored, and a role is deleted while nobody holds it. -/
def copiesCurrent (s : Tables) (others : List Process) (p : Process) : Bool :=
  match p.rest with
  | .call (.updateMembershipRole accountId tenantId role roleId scopes) _ =>
    copiesStored s others accountId tenantId role roleId scopes
  | .call (.createMembershipInTenant m) _ =>
    copiesStored s others m.accountId m.tenantId m.role m.roleId m.scopes
  | .call (.createAccountInTenant a m) _ =>
    copiesStored s others a.id m.tenantId m.role m.roleId m.scopes
  | .call (.replaceMembershipScopes accountId tenantId scopes) _ =>
    rewritesStored s others accountId tenantId scopes
  | .call (.updateRole tenantId id _ _ scopes) _ =>
    match stageOf p.history with
    | .idle => (s.findRole tenantId id).all fun r => r.scopes = scopes
    | _ => true
  | .call (.deleteRole tenantId id) _ => s.countRoleMemberships tenantId id = 0
  | _ => true

/-- `copiesCurrent`, as a condition of the machine. -/
def CopiesCurrent : Machine.Condition Tables Process :=
  fun s others p => copiesCurrent s others p = true

/-! ### What holds of the rows -/

/-- What the constraints of the tables and the keys of roles say: identifiers of roles and
keys of a workspace's roles are unique, the key of the owner role is reserved, a membership
has the key of its role, and its account. -/
structure Constrained (s : Tables) : Prop where
  ids : (s.roles.map (·.id)).Nodup
  keys : (s.roles.map fun r => (r.tenantId, r.key)).Nodup
  reserved : ∀ r ∈ s.roles, r.key = "owner" → r.builtin = true
  keyed : ∀ m ∈ s.memberships, ∀ r ∈ s.roles, r.tenantId = m.tenantId → m.roleId = some r.id →
    r.key = m.role
  accounts : ∀ m ∈ s.memberships, (s.account m.accountId).isSome = true

/-- Every membership's role is there, a member of a custom role holds the scopes that are
stored, and an owner holds all scopes of the stored owner role. -/
structure RolesReach (s : Tables) : Prop where
  named : ∀ m ∈ s.memberships, ∀ id, m.roleId = some id →
    ∃ r ∈ s.roles, r.tenantId = m.tenantId ∧ r.id = id
  custom : ∀ m ∈ s.memberships, ∀ r ∈ s.roles, r.tenantId = m.tenantId → m.roleId = some r.id →
    r.builtin = false → ∀ scope, scope ∈ m.scopes ↔ scope ∈ r.scopes
  owner : ∀ m ∈ s.memberships, m.role = "owner" → ∀ r ∈ s.roles, r.tenantId = m.tenantId →
    r.key = "owner" → ∀ scope ∈ r.scopes, scope ∈ m.scopes

/-! ### What is owed -/

/-- Who is owed which scopes of which role. -/
abbrev Debts :=
  String → String → String → List String → Bool

/-- A row of a membership, where it may be owed the scopes of its role. -/
structure RowKept (s : Tables) (debts : Debts) (m : MembershipRow) : Prop where
  named : ∀ id, m.roleId = some id → ∃ r ∈ s.roles, r.tenantId = m.tenantId ∧ r.id = id ∧ r.key = m.role
  owner : m.role = "owner" → ∀ r ∈ s.roles, r.tenantId = m.tenantId → r.key = "owner" →
    ∀ scope ∈ r.scopes, scope ∈ m.scopes
  account : (s.account m.accountId).isSome = true
  custom : ∀ r ∈ s.roles, r.tenantId = m.tenantId → m.roleId = some r.id → r.builtin = false →
    (∀ scope, scope ∈ m.scopes ↔ scope ∈ r.scopes) ∨
      debts m.tenantId r.id m.accountId r.scopes = true

/-- The invariant of the tables. -/
structure TablesKept (s : Tables) (debts : Debts) : Prop where
  ids : (s.roles.map (·.id)).Nodup
  keys : (s.roles.map fun r => (r.tenantId, r.key)).Nodup
  reserved : ∀ r ∈ s.roles, r.key = "owner" → r.builtin = true
  rows : ∀ m ∈ s.memberships, RowKept s debts m

section Tables

variable {s s' : Tables} {debts debts' : Debts} {m : MembershipRow}

variable {r r' : TenantRole} {role tenantId : String} {scopes : List String}
  {roleId : Option String}

/-- A role is known by its identifier. -/
theorem TablesKept.eq_of_id (h : TablesKept s debts) (hr : r ∈ s.roles)
    (hr' : r' ∈ s.roles) (hid : r.id = r'.id) : r = r' :=
  List.inj_on_of_nodup_map h.ids hr hr' hid

/-- A role is known by its key in its workspace. -/
theorem TablesKept.eq_of_key (h : TablesKept s debts) (hr : r ∈ s.roles)
    (hr' : r' ∈ s.roles) (ht : r.tenantId = r'.tenantId) (hk : r.key = r'.key) : r = r' :=
  List.inj_on_of_nodup_map h.keys hr hr' (Prod.ext ht hk)

/-- A row whose role and account are still there, where no debt is dropped. -/
theorem RowKept.mono (h : RowKept s debts m) (hrol : s'.roles = s.roles)
    (ha : ∀ id, (s.account id).isSome = true → (s'.account id).isSome = true)
    (hd : ∀ r ∈ s.roles, debts m.tenantId r.id m.accountId r.scopes = true →
      debts' m.tenantId r.id m.accountId r.scopes = true) : RowKept s' debts' m := by
  refine ⟨?_, ?_, ha _ h.account, ?_⟩
  · rw [hrol]
    exact h.named
  · rw [hrol]
    exact h.owner
  · rw [hrol]
    intro r hr ht hid hc
    exact (h.custom r hr ht hid hc).imp_right (hd r hr)

/-- Tables with the same roles, accounts and memberships. -/
theorem TablesKept.of_eq (h : TablesKept s debts) (hrol : s'.roles = s.roles)
    (ha : s'.accounts = s.accounts) (hmem : s'.memberships = s.memberships)
    (hd : ∀ m ∈ s.memberships, ∀ r ∈ s.roles, m.roleId = some r.id →
      debts m.tenantId r.id m.accountId r.scopes = true →
      debts' m.tenantId r.id m.accountId r.scopes = true) : TablesKept s' debts' := by
  refine ⟨hrol ▸ h.ids, hrol ▸ h.keys, hrol ▸ h.reserved, fun m hm => ?_⟩
  rw [hmem] at hm
  have hrow := h.rows m hm
  refine ⟨?_, ?_, ?_, ?_⟩
  · rw [hrol]
    exact hrow.named
  · rw [hrol]
    exact hrow.owner
  · rw [Tables.account, ha]
    exact hrow.account
  · rw [hrol]
    intro r hr ht hid hc
    exact (hrow.custom r hr ht hid hc).imp_right (hd m hm r hr hid)

theorem TablesKept.updateMemberships (h : TablesKept s debts) {selects : MembershipRow → Bool}
    {change : MembershipRow → MembershipRow} (hk : ∀ m, (change m).key = m.key)
    (hmiss : ∀ m ∈ s.memberships, selects m = false → RowKept s debts' m)
    (hc : ∀ m ∈ s.memberships, selects m = true → RowKept s debts' (change m)) :
    TablesKept (s.updateMemberships selects change hk) debts' := by
  refine ⟨h.ids, h.keys, h.reserved, fun m hm => ?_⟩
  obtain ⟨m₀, hm₀, rfl⟩ := Table.mem_update.1 hm
  cases hs : selects m₀ with
  | true => exact (hc m₀ hm₀ hs).mono rfl (fun _ => id) fun _ _ => id
  | false => exact (hmiss m₀ hm₀ hs).mono rfl (fun _ => id) fun _ _ => id

theorem TablesKept.insertMembership (h : TablesKept s debts) (hi : s.insertMembership m = .ok s')
    (hr : RowKept s debts m) : TablesKept s' debts := by
  rw [Tables.insertMembership] at hi
  split at hi
  · cases hi
  · cases hi
    refine ⟨h.ids, h.keys, h.reserved, fun m' hm' => ?_⟩
    rcases List.mem_append.1 hm' with hm' | hm'
    · exact (h.rows m' hm').mono rfl (fun _ => id) fun _ _ => id
    · rw [List.mem_singleton.1 hm']
      exact hr.mono rfl (fun _ => id) fun _ _ => id

/-- The scopes that are assigned: those of the stored owner role, or the ones given. -/
theorem assignedScopes_ok {assigned : List String}
    (h : s.assignedScopes tenantId role scopes = .ok assigned) :
    role ≠ "owner" ∧ assigned = scopes ∨
      role = "owner" ∧ ∃ r ∈ s.roles, r.tenantId = tenantId ∧ r.key = "owner" ∧ assigned = r.scopes := by
  rw [Tables.assignedScopes] at h
  split_ifs at h with ho
  · exact .inl ⟨ho, (Except.ok.inj h).symm⟩
  · split at h
    · cases h
    · next r hf =>
      have hr := List.find?_some hf
      simp only [Bool.and_eq_true, decide_eq_true_eq] at hr
      exact .inr ⟨not_not.1 ho, r, List.mem_of_find?_eq_some hf, hr.1.1, hr.1.2,
        (Except.ok.inj h).symm⟩

/-- The role a membership is given is stored, with what the condition says of its scopes. -/
theorem copies_role {others : List Process} {accountId : String}
    (h : copiesStored s others accountId tenantId role roleId scopes = true) {id : String}
    (hid : roleId = some id) : ∃ r ∈ s.roles, r.tenantId = tenantId ∧ r.id = id ∧ r.key = role ∧
      (r.builtin = true ∨ r.scopes = scopes ∨ owedBy others tenantId id accountId r.scopes = true) := by
  subst hid
  rw [copiesStored, Option.all_some] at h
  obtain ⟨r, hf, hr⟩ := (Option.any_eq_true _ _).1 h
  have hk := List.find?_some hf
  simp only [Bool.and_eq_true, Bool.or_eq_true, decide_eq_true_eq] at hk hr
  refine ⟨r, List.mem_of_find?_eq_some hf, hk.1, hk.2, hr.1, ?_⟩
  rcases hr.2 with (hb | hs) | ho
  · exact .inl hb
  · exact .inr (.inl hs)
  · exact .inr (.inr ho)

/-- **A membership that is given a role** as the condition says. -/
theorem TablesKept.assigned (h : TablesKept s debts) {others : List Process}
    (hd : ∀ t id a scopes, owedBy others t id a scopes = true → debts t id a scopes = true)
    {assigned : List String}
    (hc : copiesStored s others m.accountId m.tenantId m.role m.roleId scopes = true)
    (ha : s.assignedScopes m.tenantId m.role scopes = .ok assigned)
    (hacc : (s.account m.accountId).isSome = true) (hsco : m.scopes = assigned.dedup) :
    RowKept s debts m := by
  have hrole := assignedScopes_ok ha
  refine ⟨fun id hid => ?_, fun ho r hr ht hk scope hs => ?_, hacc, fun r hr ht hid hcus => ?_⟩
  · obtain ⟨r, hr, ht, hid, hk, -⟩ := copies_role hc hid
    exact ⟨r, hr, ht, hid, hk⟩
  · obtain ⟨hoth, -⟩ | ⟨-, r', hr', ht', hk', rfl⟩ := hrole
    · exact absurd ho hoth
    · obtain rfl := h.eq_of_key hr hr' (ht.trans ht'.symm) (hk.trans hk'.symm)
      rw [hsco]
      exact List.mem_dedup.2 hs
  · obtain ⟨r', hr', ht', hid', hk', hg⟩ := copies_role hc hid
    obtain rfl := h.eq_of_id hr' hr hid'
    obtain ⟨-, rfl⟩ | ⟨ho, -⟩ := hrole
    · rcases hg with hb | hsame | howed
      · rw [hb] at hcus
        cases hcus
      · rw [hsco, hsame]
        exact .inl fun scope => List.mem_dedup
      · exact .inr (hd _ _ _ _ howed)
    · have hb := h.reserved r' hr' (hk'.trans ho)
      rw [hb] at hcus
      cases hcus

theorem TablesKept.updateMembershipRole (h : TablesKept s debts) {others : List Process}
    (hd : ∀ t id a scopes, owedBy others t id a scopes = true → debts t id a scopes = true)
    {accountId : String}
    (hc : copiesStored s others accountId tenantId role roleId scopes = true)
    (hu : s.updateMembershipRole accountId tenantId role roleId scopes = .ok s') :
    TablesKept s' debts := by
  rw [Tables.updateMembershipRole] at hu
  cases ha : s.assignedScopes tenantId role scopes with
  | error e =>
    rw [ha] at hu
    cases hu
  | ok assigned =>
    rw [ha] at hu
    cases hu
    have hk : ∀ m : MembershipRow, { m with role, roleId, scopes := assigned.dedup }.key = m.key :=
      fun _ => rfl
    refine h.updateMemberships hk (fun m hm _ => h.rows m hm) fun m hm hs => ?_
    obtain ⟨rfl, rfl⟩ := Prod.mk.inj (of_decide_eq_true hs)
    exact h.assigned hd hc ha (h.rows m hm).account rfl

theorem TablesKept.createMembershipInTenant (h : TablesKept s debts) {others : List Process}
    (hd : ∀ t id a scopes, owedBy others t id a scopes = true → debts t id a scopes = true)
    {account : Option AccountCredential}
    (hc : copiesStored s others m.accountId m.tenantId m.role m.roleId m.scopes = true)
    (hcre : s.createMembershipInTenant m = .ok (s', account)) : TablesKept s' debts := by
  rw [Tables.createMembershipInTenant] at hcre
  obtain ⟨assigned, ha, hcre⟩ := bind_eq_ok hcre
  dsimp only at hcre
  split_ifs at hcre with hn
  obtain ⟨s₁, hi, hcre⟩ := bind_eq_ok hcre
  cases hcre
  have hacc : (s.account m.accountId).isSome = true :=
    Option.isSome_iff_ne_none.2 fun h => hn (Option.isNone_iff_eq_none.2 h)
  exact h.insertMembership hi (h.assigned (m := { m with scopes := assigned.dedup, status := .active })
    hd hc ha hacc rfl)

theorem TablesKept.createAccountInTenant (h : TablesKept s debts) {others : List Process}
    (hd : ∀ t id a scopes, owedBy others t id a scopes = true → debts t id a scopes = true)
    {a : AccountRow} {account : Option AccountCredential}
    (hc : copiesStored s others a.id m.tenantId m.role m.roleId m.scopes = true)
    (hcre : s.createAccountInTenant a m = .ok (s', account)) : TablesKept s' debts := by
  rw [Tables.createAccountInTenant] at hcre
  obtain ⟨assigned, -, hcre⟩ := bind_eq_ok hcre
  split_ifs at hcre
  refine TablesKept.createMembershipInTenant ?_ hd hc hcre
  refine ⟨h.ids, h.keys, h.reserved, fun m' hm' => (h.rows m' hm').mono rfl (fun id hid => ?_) fun _ _ => id⟩
  obtain ⟨row, hr⟩ := Option.isSome_iff_exists.1 hid
  rw [Tables.account] at hr ⊢
  rw [List.find?_append, hr]
  rfl

/-- The row of a membership that is in the table. -/
theorem membershipRow_of_mem (hm : m ∈ s.memberships) :
    s.membershipRow m.accountId m.tenantId = some m := by
  cases hf : s.membershipRow m.accountId m.tenantId with
  | none => exact absurd (List.find?_eq_none.1 hf m hm) (by simp)
  | some m' =>
    have hk : m'.key = m.key := by
      simpa using List.find?_some (p := fun x : MembershipRow => x.key = (m.accountId, m.tenantId)) hf
    rw [List.inj_on_of_nodup_map s.keys (List.mem_of_find?_eq_some hf) hm hk]

/-- **A holder that is rewritten** as the condition says; the debt to it may be dropped. -/
theorem TablesKept.replaceMembershipScopes (h : TablesKept s debts) {others : List Process}
    (hd : ∀ t id a scopes, owedBy others t id a scopes = true → debts' t id a scopes = true)
    {accountId : String}
    (hkept : ∀ m ∈ s.memberships, m.key ≠ (accountId, tenantId) → ∀ id given,
      debts m.tenantId id m.accountId given = true → debts' m.tenantId id m.accountId given = true)
    (hc : rewritesStored s others accountId tenantId scopes = true) :
    TablesKept (s.replaceMembershipScopes accountId tenantId scopes) debts' := by
  have hkey : ∀ m : MembershipRow, { m with scopes := scopes.dedup }.key = m.key := fun _ => rfl
  refine h.updateMemberships hkey (fun m hm hmiss => ?_) fun m hm hs => ?_
  · exact (h.rows m hm).mono rfl (fun _ => id) fun r _ => hkept m hm (of_decide_eq_false hmiss) _ _
  · obtain ⟨rfl, rfl⟩ := Prod.mk.inj (of_decide_eq_true hs)
    have hrow := h.rows m hm
    rw [rewritesStored, membershipRow_of_mem hm, Option.all_some] at hc
    obtain ⟨id, hid, hrole⟩ := (Option.any_eq_true _ _).1 hc
    obtain ⟨r, hf, hr⟩ := (Option.any_eq_true _ _).1 hrole
    have hk := List.find?_some hf
    simp only [Bool.and_eq_true, Bool.or_eq_true, Bool.not_eq_true', decide_eq_true_eq] at hk hr
    obtain ⟨r', hr', -, hid', hkey'⟩ := hrow.named id hid
    obtain rfl := h.eq_of_id hr' (List.mem_of_find?_eq_some hf) (hid'.trans hk.2.symm)
    refine ⟨hrow.named, fun hown => ?_, hrow.account, fun r'' hr'' _ hid'' _ => ?_⟩
    · have hb := h.reserved r' hr' (hkey'.trans hown)
      rw [hb] at hr
      cases hr.1
    · obtain rfl := h.eq_of_id hr' hr'' (hid'.trans (Option.some.inj (hid.symm.trans hid'')))
      rcases hr.2 with rfl | ho
      · exact .inl fun scope => List.mem_dedup
      · rw [← hid'] at ho
        exact .inr (hd _ _ _ _ ho)

theorem TablesKept.createRole (h : TablesKept s debts) {role : TenantRole} (hkey : role.key ≠ "owner") (hc : s.createRole role = .ok s') : TablesKept s' debts := by
  rw [Tables.createRole] at hc
  split_ifs at hc with hk hi
  cases hc
  simp only [List.any_eq_true, Bool.and_eq_true, decide_eq_true_eq, not_exists, not_and] at hk hi
  refine ⟨?_, ?_, fun r hr ho => ?_, fun m hm => ?_⟩
  · rw [List.map_append, List.map_singleton, List.nodup_append]
    refine ⟨h.ids, List.nodup_singleton _, fun id hid id' hid' => ?_⟩
    obtain ⟨r, hr, rfl⟩ := List.mem_map.1 hid
    rw [List.mem_singleton.1 hid']
    exact hi r hr
  · rw [List.map_append, List.map_singleton, List.nodup_append]
    refine ⟨h.keys, List.nodup_singleton _, fun key hkey key' hkey' => ?_⟩
    obtain ⟨r, hr, rfl⟩ := List.mem_map.1 hkey
    rw [List.mem_singleton.1 hkey']
    exact fun hs => hk r hr (congrArg Prod.fst hs) (congrArg Prod.snd hs)
  · rcases List.mem_append.1 hr with hr | hr
    · exact h.reserved r hr ho
    · rw [List.mem_singleton.1 hr] at ho
      exact absurd ho hkey
  · have hrow := h.rows m hm
    refine ⟨fun id hid => ?_, fun ho r hr ht ho' => ?_, hrow.account, fun r hr ht hid => ?_⟩
    · obtain ⟨r, hr, hr'⟩ := hrow.named id hid
      exact ⟨r, List.mem_append_left _ hr, hr'⟩
    · rcases List.mem_append.1 hr with hr | hr
      · exact hrow.owner ho r hr ht ho'
      · rw [List.mem_singleton.1 hr] at ho'
        exact absurd ho' hkey
    · rcases List.mem_append.1 hr with hr | hr
      · exact hrow.custom r hr ht hid
      · rw [List.mem_singleton.1 hr] at hid
        obtain ⟨r', hr', -, hid', -⟩ := hrow.named _ hid
        exact absurd hid' (hi r' hr')

/-- **A role that is stored anew**: it is a custom one, and its holders are owed the new
scopes or have them. -/
theorem TablesKept.updateRole (h : TablesKept s debts) {id name description : String}
    (hcus : ∀ r ∈ s.roles, r.tenantId = tenantId → r.id = id → r.builtin = false)
    (hk : ∀ t i a given, debts t i a given = true → debts' t i a given = true)
    (hsco : (∀ a, debts' tenantId id a scopes = true) ∨
      ∀ r ∈ s.roles, r.tenantId = tenantId → r.id = id → r.scopes = scopes) :
    TablesKept (s.updateRole tenantId id name description scopes).2 debts' := by
  have hc : ∀ {κ : Type} (column : TenantRole → κ),
      (∀ r, column { r with name, description, scopes } = column r) →
      (s.updateRole tenantId id name description scopes).2.roles.map column = s.roles.map column :=
    fun column hc => Table.map_update column hc
  have hids := hc (·.id) fun _ => rfl
  have hkeys := hc (fun r => (r.tenantId, r.key)) fun _ => rfl
  refine ⟨hids ▸ h.ids, hkeys ▸ h.keys, fun r hr ho => ?_, fun m hm => ?_⟩
  · obtain ⟨r₀, hr₀, rfl⟩ := Table.mem_update.1 hr
    split_ifs at ho ⊢ <;> exact h.reserved r₀ hr₀ ho
  · have hrow := h.rows m hm
    refine ⟨fun i hi => ?_, fun ho r hr ht ho' => ?_, hrow.account, fun r hr ht hid hb => ?_⟩
    · obtain ⟨r, hr, hr'⟩ := hrow.named i hi
      refine ⟨_, Table.mem_update.2 ⟨r, hr, rfl⟩, ?_⟩
      split_ifs <;> exact hr'
    · obtain ⟨r₀, hr₀, rfl⟩ := Table.mem_update.1 hr
      split_ifs at ht ho' ⊢ with hsel
      · rw [Bool.and_eq_true, decide_eq_true_eq, decide_eq_true_eq] at hsel
        have hb := h.reserved r₀ hr₀ ho'
        rw [hcus r₀ hr₀ hsel.1 hsel.2] at hb
        cases hb
      · exact hrow.owner ho r₀ hr₀ ht ho'
    · obtain ⟨r₀, hr₀, rfl⟩ := Table.mem_update.1 hr
      split_ifs at ht hid hb ⊢ with hsel
      · rw [Bool.and_eq_true, decide_eq_true_eq, decide_eq_true_eq] at hsel
        rcases hsco with howed | hs
        · rw [← hsel.1, ← hsel.2] at howed
          exact .inr (ht ▸ howed m.accountId)
        · rw [← hs r₀ hr₀ hsel.1 hsel.2]
          exact (hrow.custom r₀ hr₀ ht hid hb).imp_right (hk _ _ _ _)
      · exact (hrow.custom r₀ hr₀ ht hid hb).imp_right (hk _ _ _ _)

theorem TablesKept.deleteRole (h : TablesKept s debts) {id : String}
    (hn : s.countRoleMemberships tenantId id = 0) : TablesKept (s.deleteRole tenantId id) debts := by
  rw [Tables.countRoleMemberships, List.length_eq_zero_iff, List.filter_eq_nil_iff] at hn
  have hs : (s.deleteRole tenantId id).roles.Sublist s.roles := List.filter_sublist
  refine ⟨h.ids.sublist (hs.map _), h.keys.sublist (hs.map _), fun r hr => h.reserved r (hs.subset hr),
    fun m hm => ?_⟩
  have hrow := h.rows m hm
  refine ⟨fun i hi => ?_, fun ho r hr => hrow.owner ho r (hs.subset hr), hrow.account,
    fun r hr => hrow.custom r (hs.subset hr)⟩
  obtain ⟨r, hr, ht, hid, hk⟩ := hrow.named i hi
  refine ⟨r, List.mem_filter.2 ⟨hr, ?_⟩, ht, hid, hk⟩
  have hoth := hn m hm
  by_contra hd
  simp only [Bool.not_eq_true', Bool.not_eq_false, Bool.and_eq_true, decide_eq_true_eq] at hd
  refine hoth ?_
  rw [← ht, hi, ← hid, hd.1.1, hd.1.2]
  simp

/-- Behind a grant a membership holds every scope that was granted. -/
theorem mem_grantedTo {scope : String} (hs : scope ∈ scopes) :
    scope ∈ m.scopes ++ Tables.grantedTo scopes m := by
  by_cases hh : scope ∈ m.scopes
  · exact List.mem_append_left _ hh
  · refine List.mem_append_right _ (List.mem_filter.2 ⟨List.mem_dedup.2 hs, ?_⟩)
    exact decide_eq_true hh

/-- The owners of a workspace get scopes their stored role gets, where other roles stay. -/
theorem TablesKept.granted (h : TablesKept s debts)
    {roles : List TenantRole} {owner : MembershipRow → Bool}
    (ho : ∀ m, owner m = true ↔ m.tenantId = tenantId ∧ m.role = "owner")
    (hi : roles.map (·.id) = s.roles.map (·.id))
    (hk : (roles.map fun r => (r.tenantId, r.key)) = s.roles.map fun r => (r.tenantId, r.key))
    (hold : ∀ r ∈ roles, ∃ r₀ ∈ s.roles, r = { r₀ with scopes := r.scopes } ∧
      (r = r₀ ∨ r.tenantId = tenantId ∧ r.builtin = true ∧
        ∀ scope ∈ r.scopes, scope ∈ r₀.scopes ∨ scope ∈ scopes))
    (hnew : ∀ r₀ ∈ s.roles, ∃ r ∈ roles, r = { r₀ with scopes := r.scopes }) :
    TablesKept (({ s with roles } : Tables).updateMemberships owner
      (fun m => { m with scopes := m.scopes ++ Tables.grantedTo scopes m }) fun _ => rfl) debts := by
  refine ⟨(hi ▸ h.ids :), (hk ▸ h.keys :), fun r hr hkey => ?_, fun m' hm' => ?_⟩
  · obtain ⟨r₀, hr₀, hs, -⟩ := hold r hr
    rw [hs] at hkey ⊢
    exact h.reserved r₀ hr₀ hkey
  · obtain ⟨m, hm, rfl⟩ := Table.mem_update.1 hm'
    have hrow := h.rows m hm
    have hn : ∀ id, m.roleId = some id →
        ∃ r ∈ roles, r.tenantId = m.tenantId ∧ r.id = id ∧ r.key = m.role := by
      intro id hid
      obtain ⟨r₀, hr₀, hr₀'⟩ := hrow.named id hid
      obtain ⟨r, hr, hs⟩ := hnew r₀ hr₀
      refine ⟨r, hr, ?_⟩
      rw [hs]
      exact hr₀'
    cases hselects : owner m with
    | true =>
      rw [if_pos rfl]
      obtain ⟨ht, hrole⟩ := (ho m).1 hselects
      refine ⟨hn, fun _ r hr hr' hkey scope hsco => ?_, hrow.account, fun r hr _ hid hc => ?_⟩
      · obtain ⟨r₀, hr₀, hs, hg⟩ := hold r hr
        have hh : ∀ scope ∈ r₀.scopes, scope ∈ m.scopes := by
          rw [hs] at hr' hkey
          exact hrow.owner hrole r₀ hr₀ hr' hkey
        rcases hg with rfl | ⟨-, -, hg⟩
        · exact List.mem_append_left _ (hh scope hsco)
        · rcases hg scope hsco with hsco | hsco
          · exact List.mem_append_left _ (hh scope hsco)
          · exact mem_grantedTo hsco
      · obtain ⟨r₀, hr₀, hs, -⟩ := hold r hr
        obtain ⟨r₁, hr₁, -, hid₁, hkey₁⟩ := hrow.named r.id hid
        have hid₀ : r.id = r₀.id := by rw [hs]
        obtain rfl := h.eq_of_id hr₁ hr₀ (hid₁.trans hid₀)
        have hb := h.reserved r₁ hr₁ (hkey₁.trans hrole)
        rw [hs] at hc
        cases hb.symm.trans hc
    | false =>
      rw [if_neg Bool.false_ne_true]
      refine ⟨hn, fun hrole r hr hr' hkey scope hsco => ?_, hrow.account, fun r hr hr' hid hc => ?_⟩
      · obtain ⟨r₀, hr₀, hs, rfl | ⟨ht, -⟩⟩ := hold r hr
        · exact hrow.owner hrole r hr₀ hr' hkey scope hsco
        · have hsel := (ho m).2 ⟨hr'.symm.trans ht, hrole⟩
          rw [hselects] at hsel
          cases hsel
      · obtain ⟨r₀, hr₀, hs, rfl | ⟨-, hb, -⟩⟩ := hold r hr
        · exact hrow.custom r hr₀ hr' hid hc
        · rw [hb] at hc
          cases hc

/-- **A grant to the owners** grows the stored role and their memberships together. -/
theorem TablesKept.grantTenantOwnerScopes (h : TablesKept s debts)
    {granted : List (String × List String)}
    (hg : s.grantTenantOwnerScopes tenantId scopes = .ok (s', granted)) : TablesKept s' debts := by
  have ho : ∀ m : MembershipRow, (decide (m.tenantId = tenantId) && decide (m.role = "owner")) = true ↔
      m.tenantId = tenantId ∧ m.role = "owner" := fun m => by simp
  rw [Tables.grantTenantOwnerScopes] at hg
  split_ifs at hg
  · cases hg
    exact h
  · split at hg
    · cases hg
    · next role hf =>
      have hrole := List.find?_some hf
      simp only [Bool.and_eq_true, decide_eq_true_eq] at hrole
      cases hg
      split_ifs
      · refine h.granted ho (Table.map_update _ fun _ => rfl) (Table.map_update _ fun _ => rfl) ?_ ?_
        · intro r hr
          obtain ⟨r₀, hr₀, rfl⟩ := Table.mem_update.1 hr
          refine ⟨r₀, hr₀, ?_, ?_⟩
          · split_ifs <;> rfl
          · split_ifs with hs
            · rw [Bool.and_eq_true, decide_eq_true_eq, decide_eq_true_eq] at hs
              obtain rfl := h.eq_of_id hr₀ (List.mem_of_find?_eq_some hf) hs.2
              refine .inr ⟨hs.1, hrole.2, fun scope hsco => ?_⟩
              have hm := (sortStrings_perm _).mem_iff.1 hsco
              exact List.mem_append.1 (List.mem_dedup.1 hm)
            · exact .inl rfl
        · intro r hr
          refine ⟨_, Table.mem_update.2 ⟨r, hr, rfl⟩, ?_⟩
          split_ifs <;> rfl
      · exact h.granted ho rfl rfl (fun r hr => ⟨r, hr, rfl, .inl rfl⟩) fun r hr => ⟨r, hr, rfl⟩

end Tables

/-! ### The calls of the programs -/

/-- A call any of the programs may make, behind any history. -/
def Call.tame : Call → Bool
  | .updateRole .. => false
  | .createRole role => !role.builtin && decide (role.key ≠ "owner")
  | .updateAccountStatus .. => false
  | .setMembershipStatus .. => false
  | .deleteMembership .. => false
  | .deleteAccount _ => false
  | .updatePasswordHash .. => false
  | _ => true

/-- The calls of the eight operations: a role is stored anew once, and it is no built-in one. -/
def RoleAllowed (history : History Call (Prog.Reply Call.Answer)) : Call → Prop
  | .updateRole tenantId id _ _ _ => (stageOf history).before = true ∧
      ∃ asked r, (⟨.findRole tenantId asked, .ok (some r)⟩ : Entry) ∈ history ∧ r.id = id ∧
        r.builtin = false
  | c => c.tame = true

theorem stageOf_append {history : History Call (Prog.Reply Call.Answer)} {entry : Entry} :
    stageOf (history ++ [entry]) = (stageOf history).advance entry :=
  List.foldl_append

/-- Nothing is owed to anyone. -/
def Stage.clear : Stage → Prop
  | .toList .. => False
  | .rewriting _ _ _ left => left = []
  | _ => True

variable {stage : Stage} {s : Tables}

theorem clear_of_before (h : stage.before = true) : stage.clear := by
  cases stage with
  | idle => trivial
  | checked => trivial
  | toList => cases h
  | rewriting => cases h

/-- Only an update of a role comes to owe anything. -/
theorem clear_advance {entry : Entry} (ht : entry.1.tame = true)
    (h : stage.clear) : (stage.advance entry).clear := by
  unfold Stage.advance
  split
  · trivial
  · cases ht
  · exact h.elim
  · exact List.filter_eq_nil_iff.2 fun a ha => absurd ((show _ = [] from h) ▸ ha) List.not_mem_nil
  · exact h

theorem owes_of_clear (h : stage.clear) {t id a : String} {scopes : List String} :
    stage.owes t id a scopes = false := by
  cases stage with
  | idle => rfl
  | checked => rfl
  | toList => exact h.elim
  | rewriting t' id' given left =>
    rw [show left = [] from h]
    simp [Stage.owes]

/-- What the history of an operation that returns says: it owes nothing. -/
abbrev Clear (history : History Call (Prog.Reply Call.Answer)) (_ : PUnit) : Prop :=
  (stageOf history).clear

section Programs

variable {α β : Type} {history : History Call (Prog.Reply Call.Answer)} {actor : AuthActor}
  {tenantId accountId : String}

variable {P : Call → Prop}

variable {condition : Prop} {e subjectId roleKey : String} {p : Service PUnit}
  {scopes : List String} {members : List TenantMember} {f : PUnit → Service PUnit}

theorem within_require [Decidable condition] : Within P (require condition e) := by
  unfold require
  split_ifs
  · exact within_pure
  · exact within_fail

/-- Behind a check stands what was checked. -/
theorem within_require_bind [Decidable condition] {f : PUnit → Service β}
    (hf : condition → Within P (f ⟨⟩)) : Within P (require condition e >>= f) := by
  unfold require
  split_ifs with hc
  · exact hf hc
  · exact within_fail

theorem within_whenever [Decidable condition]
    (hp : condition → Within P p) : Within P (whenever condition p) := by
  unfold whenever
  split_ifs with hc
  · exact hp hc
  · exact within_pure

theorem within_renamed {known replacement : String} {p : Service α} (hp : Within P p) :
    Within P (renamed known replacement p) :=
  within_orElse hp fun _ => within_fail

theorem within_audit {action subjectType : String} {metadata : List (String × Json)}
    (h : P (.appendAudit tenantId accountId action subjectType subjectId metadata)) :
    Within P (audit tenantId accountId action subjectType subjectId metadata) :=
  within_orElse (within_need h) fun _ => within_pure

/-- A program of tame calls. -/
abbrev Tame (p : Service α) : Prop :=
  Within (fun c => c.tame = true) p

theorem along_of_tame {p : Service α} (h : Tame p) : Along RoleAllowed history p := by
  refine along_of_all (fun _ c hc => ?_) h.all
  cases c with
  | updateRole => cases hc
  | _ => exact hc

theorem tame_audit {action subjectType : String} {metadata : List (String × Json)} :
    Tame (audit tenantId accountId action subjectType subjectId metadata) :=
  within_audit rfl

theorem tame_member : Tame (member accountId tenantId) := by
  unfold member
  refine within_bind (within_need rfl) fun members => ?_
  split
  · exact within_fail
  · exact within_pure

theorem tame_roleForAssignment : Tame (roleForAssignment actor roleKey) := by
  unfold roleForAssignment
  split_ifs
  · exact within_fail
  · refine within_bind (within_need rfl) fun role => ?_
    cases role with
    | none => exact within_fail
    | some role => exact within_pure

theorem tame_assertOwnerRemains {target : AccountCredential} {counted : Bool} :
    Tame (assertOwnerRemains tenantId target counted) := by
  unfold assertOwnerRemains
  split_ifs
  · refine within_bind (within_need rfl) fun owners => ?_
    split_ifs
    · exact within_fail
    · exact within_pure
  · exact within_pure

theorem tame_assignMemberRole : Tame (assignMemberRole actor accountId roleKey) := by
  unfold assignMemberRole targetMember assignRole
  refine within_bind (within_bind within_ofExcept fun _ => within_bind (within_need rfl) fun _ => within_ofExcept)
    fun target => within_bind within_ofExcept fun key => within_bind tame_roleForAssignment fun role => ?_
  refine within_bind (within_whenever fun _ => tame_assertOwnerRemains) fun _ => ?_
  exact within_bind (within_need rfl) fun _ => within_bind tame_audit fun _ => tame_member

theorem tame_roleScopes : Tame (roleScopes actor scopes) := by
  unfold roleScopes listGrantableScopes
  refine within_bind (within_bind within_ofExcept fun _ => within_bind (within_need rfl) fun _ => within_pure) fun _ => ?_
  exact within_bind within_require fun _ => within_bind within_ofExcept fun _ => within_pure

theorem tame_createRole {raw : CreateRoleInput} {id : String} : Tame (Auth.createRole actor raw id) := by
  unfold Auth.createRole requireTenant
  refine within_bind within_require fun _ => within_bind within_ofExcept fun key => ?_
  refine within_require_bind fun hk => within_renamed ?_
  refine within_bind within_ofExcept fun name => within_bind within_ofExcept fun description => ?_
  refine within_bind tame_roleScopes fun scopes => within_bind (within_need ?_) fun _ => ?_
  · simp [Call.tame, hk.1]
  · exact within_bind tame_audit fun _ => within_pure

theorem tame_editableRole {id : String} : Tame (editableRole tenantId id) := by
  unfold editableRole
  refine within_bind within_ofExcept fun id => within_bind (within_need rfl) fun role => ?_
  cases role with
  | none => exact within_fail
  | some role => exact within_bind within_require fun _ => within_pure

theorem tame_deleteRole {id : String} : Tame (Auth.deleteRole actor id) := by
  unfold Auth.deleteRole
  refine within_bind tame_editableRole fun role => within_bind (within_need rfl) fun _ =>
    within_bind within_require fun _ => within_bind (within_need rfl) fun named => ?_
  cases named with
  | some key => exact within_fail
  | none => exact within_bind (within_need rfl) fun _ => tame_audit

theorem tame_grantIn {tenants : List String} : Tame (grantIn scopes tenants) := by
  induction tenants with
  | nil => exact within_pure
  | cons tenantId rest ih =>
    unfold grantIn
    exact within_bind (within_need rfl) fun _ => within_bind ih fun _ => within_pure

theorem tame_grantModuleScopes : Tame (Auth.grantModuleScopes scopes) := by
  unfold Auth.grantModuleScopes
  dsimp only
  split_ifs
  · exact within_pure
  · exact within_bind (within_need rfl) fun tenants => tame_grantIn

theorem tame_createMember {input : CreateTenantMemberInput} {by' : Option AuthActor} {draws : Draws} :
    Tame (createMember input by' draws) := by
  have hr : Tame (roleOfMember by' input.tenantId input.role) := by
    unfold roleOfMember
    cases by' with
    | some actor => exact within_bind tame_roleForAssignment fun _ => within_pure
    | none =>
      refine within_bind (within_need rfl) fun role => ?_
      cases role <;> exact within_pure
  have ha : ∀ account, Tame (auditMember by' account input.role draws.passwordHash) := by
    intro account
    cases by' with
    | some actor => exact tame_audit
    | none => exact within_pure
  unfold createMember insertMember
  refine within_bind (within_whenever fun _ => within_fail) fun _ => within_bind hr fun _ => within_renamed ?_
  refine within_bind (within_need rfl) fun account => ?_
  cases account with
  | none => exact within_fail
  | some account => exact within_bind (ha account) fun _ => within_pure

section

variable [AuthText]

variable {draws : Draws} {minLength : ℕ} {input : MemberProvisionInput}

theorem tame_createTenantMember {raw : CreateTenantMemberInput} {by' : Option AuthActor}
    : Tame (Auth.createTenantMember raw by' minLength draws) := by
  unfold Auth.createTenantMember
  exact within_bind within_ofExcept fun _ => tame_createMember

omit [AuthText] in
theorem tame_findAccountByEmail {email : String} : Tame (findAccountByEmail email) := by
  unfold findAccountByEmail findAccountCredentialById
  refine within_bind (within_need rfl) fun identity => ?_
  cases identity with
  | none => exact within_pure
  | some identity =>
    refine within_bind (within_need rfl) fun tenantId => ?_
    cases tenantId with
    | none => exact within_pure
    | some tenantId => exact within_need rfl

theorem tame_acceptTenantInvitation {token displayName password : String} {now : ℤ}
    : Tame (Auth.acceptTenantInvitation token displayName password minLength now draws) := by
  unfold Auth.acceptTenantInvitation acceptInvitation
  refine within_bind within_require fun _ => within_bind (within_need rfl) fun invitation => ?_
  cases invitation with
  | none => exact within_fail
  | some invitation =>
    refine within_bind (within_need rfl) fun role => ?_
    cases role with
    | none => exact within_fail
    | some role =>
      refine within_bind tame_findAccountByEmail fun existing => within_bind ?_ fun _ => tame_audit
      cases existing with
      | none =>
        unfold joinInvited
        exact within_bind tame_createTenantMember fun _ => within_pure
      | some existing =>
        unfold joinInvited joinTenant
        exact within_bind (within_need rfl) fun _ => within_bind within_require fun _ =>
          within_bind (within_need rfl) fun _ => within_pure

theorem tame_findTenant {reference : String} : Tame (findTenant reference) := by
  unfold findTenant
  dsimp only
  split_ifs
  · exact within_pure
  · refine within_bind (within_need rfl) fun found => ?_
    split
    · exact within_pure
    · exact within_bind (within_need rfl) fun _ => within_pure

theorem tame_planMemberProvision : Tame (planMemberProvision input) := by
  unfold planMemberProvision
  dsimp only
  refine within_bind within_ofExcept fun _ => within_bind within_ofExcept fun _ => within_bind within_ofExcept fun _ =>
    within_bind tame_findTenant fun found => ?_
  cases found with
  | none => exact within_fail
  | some workspace =>
    refine within_bind (within_need rfl) fun role => ?_
    cases role with
    | none => exact within_fail
    | some role =>
      refine within_bind tame_findAccountByEmail fun account => within_bind ?_ fun _ => within_pure
      cases account with
      | none => exact within_pure
      | some account =>
        unfold assertNoMember
        exact within_bind (within_need rfl) fun _ => within_require

theorem tame_provisionMember : Tame (Auth.provisionMember input draws) := by
  unfold Auth.provisionMember provisionPlanned
  refine within_bind tame_planMemberProvision fun plan => ?_
  cases plan.account with
  | none => exact within_bind (within_need rfl) fun _ => within_bind tame_audit fun _ => within_pure
  | some account =>
    refine within_bind (within_need rfl) fun membership => ?_
    cases membership with
    | none => exact within_fail
    | some membership => exact within_bind tame_audit fun _ => within_pure

end

theorem tame_auditUpdated {updated : Option TenantRole} : Tame (auditUpdated actor updated) := by
  cases updated with
  | none => exact within_fail
  | some role => exact within_bind tame_audit fun _ => within_pure

theorem tame_replaceScopesOf : Tame (replaceScopesOf tenantId scopes members) := by
  induction members with
  | nil => exact within_pure
  | cons entry rest ih =>
    unfold replaceScopesOf
    exact within_bind (within_need rfl) fun _ => ih

/-! ### An update of a role -/

/-- The calls of a program are allowed behind its history, and it owes nothing where it
returns. -/
structure Goes (history : History Call (Prog.Reply Call.Answer)) (p : Service PUnit) : Prop where
  along : Along RoleAllowed history p
  ends : Ends Clear history p

theorem goes_fail : Goes history (.fail e) :=
  ⟨.fail, .fail⟩

theorem goes_of_tame (h : Tame p) (hc : (stageOf history).clear) : Goes history p := by
  refine ⟨along_of_tame h, ?_⟩
  have ha : All (fun c => c.tame = true) p := h.all
  clear h
  induction p generalizing history with
  | pure a => exact .pure hc
  | fail e => exact .fail
  | call c next ih =>
    refine .call fun r => ih r ?_ (ha.2 r)
    rw [stageOf_append]
    exact clear_advance ha.1 hc

theorem goes_call_bind {c : Call} {f : c.Answer → Service PUnit} (hc : RoleAllowed history c)
    (hf : ∀ a, Goes (history ++ [⟨c, .ok a⟩]) (f a)) : Goes history (call c >>= f) :=
  ⟨along_need_bind hc fun a => (hf a).along, ends_need_bind fun a => (hf a).ends⟩

theorem goes_ofExcept_bind {x : Except String α} {f : α → Service PUnit} (hf : ∀ a, Goes history (f a)) :
    Goes history (Prog.ofExcept x >>= f) := by
  cases x with
  | error e => exact goes_fail
  | ok a => exact hf a

theorem goes_pure_bind {a : α} {f : α → Service PUnit} (hf : Goes history (f a)) :
    Goes history ((pure a : Service α) >>= f) :=
  hf

theorem goes_require_bind [Decidable condition] (hf : condition → Goes history (f ⟨⟩)) :
    Goes history (require condition e >>= f) := by
  unfold require
  split_ifs with hc
  · exact hf hc
  · exact goes_fail

/-- Behind the loop over the holders nothing is owed. -/
theorem goes_replaceScopesOf {id : String}
    (hf : ∀ history, (stageOf history).clear → Goes history (f ⟨⟩)) :
    ∀ (history : History Call (Prog.Reply Call.Answer)) (left : List String),
      stageOf history = .rewriting tenantId id scopes left → left ⊆ members.map (·.accountId) →
      Goes history (replaceScopesOf tenantId scopes members >>= f) := by
  induction members with
  | nil =>
    intro history left hs hl
    refine hf history ?_
    rw [hs]
    exact List.subset_nil.1 hl
  | cons entry rest ih =>
    intro history left hs hl
    rw [replaceScopesOf, Prog.bind_assoc]
    refine goes_call_bind rfl fun reply => ?_
    refine ih _ (left.filter fun other => !(other = entry.accountId && tenantId = tenantId)) ?_ ?_
    · rw [stageOf_append, hs]
      rfl
    · intro a ha
      obtain ⟨hm, ho⟩ := List.mem_filter.1 ha
      rcases List.mem_cons.1 (hl hm) with rfl | hr
      · simp at ho
      · exact hr

/-- Behind the rewriting nothing is owed. -/
theorem goes_rewriteHolders {id : String} (hs : stageOf history = .toList tenantId id scopes)
    (hf : ∀ history, (stageOf history).clear → Goes history (f ⟨⟩)) :
    Goes history (rewriteHolders tenantId id scopes >>= f) := by
  unfold rewriteHolders
  rw [Prog.bind_assoc]
  refine goes_call_bind rfl fun members => ?_
  have hl : stageOf (history ++ [⟨.listTenantMembers tenantId, .ok members⟩]) =
      .rewriting tenantId id scopes
        ((members.filter fun entry => entry.roleId = some id).map (·.accountId)) := by
    rw [stageOf_append, hs]
    simp only [Stage.advance, if_true]
  exact goes_replaceScopesOf hf _ _ hl (List.Subset.refl _)

/-- **The update behind its checks**: where new scopes were checked, the holders get them. -/
theorem goes_updateRole_call {id name description : String} {rewrites : Bool}
    (hb : (stageOf history).before = true) (hi : rewrites = false → stageOf history = .idle)
    (hread : ∃ asked r, (⟨.findRole tenantId asked, .ok (some r)⟩ : Entry) ∈ history ∧ r.id = id ∧
      r.builtin = false) :
    Goes history (do
      let updated ← call (.updateRole tenantId id name description scopes)
      let _ ← whenever (rewrites = true) (rewriteHolders tenantId id scopes)
      let _ ← auditUpdated actor updated
      return ⟨⟩) := by
  refine goes_call_bind ⟨hb, hread⟩ fun updated => ?_
  have ht : Tame (do
      let _ ← auditUpdated actor updated
      return ⟨⟩ : Service PUnit) := within_bind tame_auditUpdated fun _ => within_pure
  have hr : Tame (rewriteHolders tenantId id scopes) := by
    unfold rewriteHolders
    exact within_bind (within_need rfl) fun _ => tame_replaceScopesOf
  cases hs : stageOf history with
  | idle =>
    refine goes_of_tame (within_bind (within_whenever fun _ => hr) fun _ => ht) ?_
    rw [stageOf_append, hs]
    trivial
  | checked =>
    have hl : stageOf (history ++ [⟨.updateRole tenantId id name description scopes, .ok updated⟩]) =
        .toList tenantId id scopes := by
      rw [stageOf_append, hs]
      rfl
    cases rewrites with
    | false => rw [hi rfl] at hs; cases hs
    | true => exact goes_rewriteHolders hl fun _ hc => goes_of_tame ht hc
  | toList => rw [hs] at hb; cases hb
  | rewriting => rw [hs] at hb; cases hb

/-- **An update of a role** stores it behind a read that shows no built-in one, and owes
nothing where it returns. -/
theorem goes_updateRole {raw : UpdateRoleInput} : Goes [] (do
      let _ ← Auth.updateRole actor raw
      return ⟨⟩) := by
  unfold Auth.updateRole requireTenant editableRole
  rw [Prog.bind_assoc]
  refine goes_require_bind fun _ => ?_
  rw [Prog.bind_assoc, Prog.bind_assoc]
  refine goes_ofExcept_bind fun asked => ?_
  rw [Prog.bind_assoc]
  refine goes_call_bind rfl fun found => ?_
  cases found with
  | none => exact goes_fail
  | some current =>
    simp only [Prog.bind_assoc]
    refine goes_require_bind fun hc => ?_
    refine goes_pure_bind ?_
    unfold updateRoleOf
    have hr : (⟨.findRole actor.tenantId asked, .ok (some current)⟩ : Entry) ∈
        ([] : History Call (Prog.Reply Call.Answer)) ++
          [⟨.findRole actor.tenantId asked, .ok (some current)⟩] :=
      List.mem_append_right _ (List.mem_singleton_self _)
    cases hs : raw.scopes with
    | none =>
      unfold updatedScopes
      simp only [Prog.bind_assoc]
      refine goes_ofExcept_bind fun name => goes_ofExcept_bind fun description => ?_
      exact goes_updateRole_call rfl (fun _ => rfl) ⟨asked, current, hr, rfl, hc⟩
    | some scopes =>
      unfold updatedScopes roleScopes listGrantableScopes
      simp only [Prog.bind_assoc]
      refine goes_ofExcept_bind fun tenant => goes_call_bind rfl fun held => goes_pure_bind ?_
      refine goes_require_bind fun _ => goes_ofExcept_bind fun _ => goes_pure_bind ?_
      refine goes_ofExcept_bind fun name => goes_ofExcept_bind fun description => ?_
      exact goes_updateRole_call rfl (fun h => by cases h)
        ⟨asked, current, List.mem_append_left _ hr, rfl, hc⟩

/-- **The eight operations.** -/
theorem goes_program [AuthText] (minLength : ℕ) (r : RoleRequest) : Goes [] (r.program minLength) := by
  have hd : ∀ {α : Type} {p : Service α}, Tame p → Goes [] (do
      let _ ← p
      return ⟨⟩) := fun h => goes_of_tame (within_bind h fun _ => within_pure) trivial
  cases r with
  | createRole actor raw id => exact hd tame_createRole
  | updateRole actor raw => exact goes_updateRole
  | deleteRole actor id => exact goes_of_tame tame_deleteRole trivial
  | assignMemberRole actor accountId roleKey => exact hd tame_assignMemberRole
  | createTenantMember raw actor draws => exact hd tame_createTenantMember
  | acceptTenantInvitation token displayName password now draws =>
    exact goes_of_tame tame_acceptTenantInvitation trivial
  | provisionMember input draws => exact hd tame_provisionMember
  | grantModuleScopes scopes => exact hd tame_grantModuleScopes

end Programs

/-! ### One call -/

section Steps

variable {s : Tables} {debts : Debts} {c : Call} {choice : Choice} {p : Process} {others gone : List Process}
  {next : Prog.Reply Call.Answer c → Service PUnit}

/-- A call by which an update pays what it owes. -/
def Call.pays : Call → Bool
  | .listTenantMembers _ => true
  | .replaceMembershipScopes .. => true
  | _ => false

variable {a t : String} {scopes : List String} {stage : Stage} {α : Type}
  {r : Except String (Tables × α)} {m : MembershipRow} {s' : Tables}

/-- No other call drops a debt. -/
theorem owes_advance {entry : Entry} (hp : entry.1.pays = false) {id : String}
    (h : stage.owes t id a scopes = true) :
    (stage.advance entry).owes t id a scopes = true := by
  unfold Stage.advance
  split
  · cases h
  · cases h
  · cases hp
  · cases hp
  · exact h

theorem TablesKept.answered (h : TablesKept s debts)
    (hr : ∀ s' a, r = .ok (s', a) → TablesKept s' debts) : TablesKept (answered s r).2 debts := by
  cases r with
  | error e => exact h
  | ok reply => exact hr reply.1 reply.2 rfl

theorem TablesKept.written {a : α} {r : Except String Tables} (h : TablesKept s debts)
    (hr : ∀ s', r = .ok s' → TablesKept s' debts) : TablesKept (written s a r).2 debts := by
  cases r with
  | error e => exact h
  | ok s' => exact hr s' rfl

/-- **A tame call** within the condition keeps the rows. -/
theorem TablesKept.perform (h : TablesKept s debts)
    (hd : ∀ t id a scopes, owedBy others t id a scopes = true → debts t id a scopes = true)
    (hrest : p.rest = .call c next) (hc : copiesCurrent s others p = true) (ht : c.tame = true)
    (hp : c.pays = false) : TablesKept (c.perform choice s).2 debts := by
  rw [copiesCurrent, hrest] at hc
  have hsame : ∀ {s' : Tables}, s'.roles = s.roles → s'.accounts = s.accounts →
      s'.memberships = s.memberships → TablesKept s' debts :=
    fun hr ha hm => h.of_eq hr ha hm fun _ _ _ _ _ => id
  cases c with
  | updateMembershipRole accountId tenantId role roleId scopes =>
    exact h.written fun s' hs' => h.updateMembershipRole hd hc hs'
  | createMembershipInTenant m =>
    exact h.answered fun s' _ hs' => h.createMembershipInTenant hd hc hs'
  | createAccountInTenant a m =>
    exact h.answered fun s' _ hs' => h.createAccountInTenant hd hc hs'
  | createRole role =>
    simp only [Call.tame, Bool.and_eq_true, decide_eq_true_eq] at ht
    exact h.written fun s' hs' => h.createRole ht.2 hs'
  | deleteRole tenantId id => exact h.deleteRole (of_decide_eq_true hc)
  | grantTenantOwnerScopes tenantId scopes =>
    exact h.answered fun s' _ hs' => h.grantTenantOwnerScopes hs'
  | updateRole => cases ht
  | updateAccountStatus => cases ht
  | setMembershipStatus => cases ht
  | deleteMembership => cases ht
  | deleteAccount => cases ht
  | updatePasswordHash => cases ht
  | listTenantMembers => cases hp
  | replaceMembershipScopes => cases hp
  | createSession row =>
    refine h.written fun s' hs' => ?_
    rw [Tables.createSession] at hs'
    split_ifs at hs'
    cases hs'
    exact hsame rfl rfl rfl
  | createApiToken row =>
    refine h.written fun s' hs' => ?_
    rw [Tables.createApiToken] at hs'
    split_ifs at hs'
    cases hs'
    exact hsame rfl rfl rfl
  | createMfaChallenge row =>
    refine h.written fun s' hs' => ?_
    dsimp only [Tables.createMfaChallenge] at hs'
    split_ifs at hs'
    cases hs'
    exact hsame rfl rfl rfl
  | createTenantInvitation row =>
    refine h.written fun s' hs' => ?_
    dsimp only [Tables.createTenantInvitation] at hs'
    split_ifs at hs'
    cases hs'
    exact hsame rfl rfl rfl
  | findSession tokenHash now idleMs touchIntervalMs =>
    simp only [Call.perform, Tables.findSession]
    split
    · exact h
    · split_ifs <;> exact hsame rfl rfl rfl
  | _ => exact hsame rfl rfl rfl

theorem mem_holders (h : TablesKept s debts) (hm : m ∈ s.memberships) {id : String}
    (hid : m.roleId = some id) :
    m.accountId ∈ ((s.listTenantMembers m.tenantId).filter fun entry => entry.roleId = some id).map
      (·.accountId) := by
  obtain ⟨a, ha⟩ := Option.isSome_iff_exists.1 (h.rows m hm).account
  have hacc : a.id = m.accountId := by
    simpa using List.find?_some (p := fun a : AccountRow => a.id = m.accountId) ha
  let entry : TenantMember := {
    accountId := a.id, email := a.email, displayName := a.displayName, role := m.role,
    roleId := m.roleId, status := a.status, membershipStatus := m.status, scopes := m.scopes,
    passwordChangeRequired := a.passwordChangeRequired, createdAt := m.createdAt }
  have hl : entry ∈ s.listTenantMembers m.tenantId := by
    refine List.mem_filterMap.2 ⟨m, List.mem_filter.2 ⟨hm, decide_eq_true rfl⟩, ?_⟩
    rw [ha]
    rfl
  exact List.mem_map.2 ⟨entry, List.mem_filter.2 ⟨hl, decide_eq_true hid⟩, hacc⟩

theorem roles_createMembershipInTenant {account : Option AccountCredential}
    (h : s.createMembershipInTenant m = .ok (s', account)) : s'.roles = s.roles := by
  rw [Tables.createMembershipInTenant] at h
  obtain ⟨assigned, -, h⟩ := bind_eq_ok h
  dsimp only at h
  split_ifs at h
  obtain ⟨s₁, hi, h⟩ := bind_eq_ok h
  cases h
  rw [Tables.insertMembership] at hi
  split at hi
  · cases hi
  · cases hi
    rfl

theorem roles_createAccountInTenant {a : AccountRow}
    {account : Option AccountCredential} (h : s.createAccountInTenant a m = .ok (s', account)) :
    s'.roles = s.roles := by
  rw [Tables.createAccountInTenant] at h
  obtain ⟨assigned, -, h⟩ := bind_eq_ok h
  split_ifs at h
  have hr := roles_createMembershipInTenant h
  exact hr

/-- Every role is a custom one, or it was there under its identifier. -/
def RolesFrom (s s' : Tables) : Prop :=
  ∀ r' ∈ s'.roles, r'.builtin = false ∨
    ∃ r ∈ s.roles, r.tenantId = r'.tenantId ∧ r.id = r'.id ∧ r.builtin = r'.builtin

theorem rolesFrom_of_eq (h : s'.roles = s.roles) : RolesFrom s s' :=
  fun r' hr' => .inr ⟨r', h ▸ hr', rfl, rfl, rfl⟩

theorem rolesFrom_update {selects : TenantRole → Bool} {change : TenantRole → TenantRole}
    (h : s'.roles = Table.update selects change s.roles)
    (hc : ∀ r, r.tenantId = (change r).tenantId ∧ r.id = (change r).id ∧
      r.builtin = (change r).builtin) : RolesFrom s s' := by
  intro r' hr'
  rw [h] at hr'
  obtain ⟨r, hr, rfl⟩ := Table.mem_update.1 hr'
  refine .inr ⟨r, hr, ?_⟩
  split_ifs
  · exact hc r
  · exact ⟨rfl, rfl, rfl⟩

theorem rolesFrom_written {a : α} {r : Except String Tables}
    (h : ∀ s', r = .ok s' → RolesFrom s s') : RolesFrom s (Auth.written s a r).2 := by
  cases r with
  | error e => exact rolesFrom_of_eq rfl
  | ok s' => exact h s' rfl

theorem rolesFrom_answered
    (h : ∀ s' a, r = .ok (s', a) → RolesFrom s s') : RolesFrom s (Auth.answered s r).2 := by
  cases r with
  | error e => exact rolesFrom_of_eq rfl
  | ok reply => exact h reply.1 reply.2 rfl

/-- No call makes a role a built-in one. -/
theorem rolesFrom_perform (hrole : ∀ role, c = .createRole role → role.builtin = false) :
    RolesFrom s (c.perform choice s).2 := by
  cases c with
  | createRole role =>
    refine rolesFrom_written fun s' h => ?_
    rw [Tables.createRole] at h
    split_ifs at h
    cases h
    intro r' hr'
    rcases List.mem_append.1 hr' with hr' | hr'
    · exact .inr ⟨r', hr', rfl, rfl, rfl⟩
    · rw [List.mem_singleton.1 hr']
      exact .inl (hrole role rfl)
  | updateRole => exact rolesFrom_update rfl fun _ => ⟨rfl, rfl, rfl⟩
  | deleteRole => exact fun r' hr' => .inr ⟨r', (List.mem_filter.1 hr').1, rfl, rfl, rfl⟩
  | grantTenantOwnerScopes tenantId scopes =>
    refine rolesFrom_answered fun s' granted h => ?_
    rw [Tables.grantTenantOwnerScopes] at h
    split_ifs at h
    · cases h
      exact rolesFrom_of_eq rfl
    · split at h
      · cases h
      · cases h
        split_ifs
        · exact rolesFrom_update rfl fun _ => ⟨rfl, rfl, rfl⟩
        · exact rolesFrom_of_eq rfl
  | createMembershipInTenant m =>
    exact rolesFrom_answered fun s' _ h => rolesFrom_of_eq (roles_createMembershipInTenant h)
  | createAccountInTenant a m =>
    exact rolesFrom_answered fun s' _ h => rolesFrom_of_eq (roles_createAccountInTenant h)
  | updateMembershipRole accountId tenantId role roleId scopes =>
    refine rolesFrom_written fun s' h => ?_
    rw [Tables.updateMembershipRole] at h
    cases ha : s.assignedScopes tenantId role scopes with
    | error e =>
      rw [ha] at h
      cases h
    | ok assigned =>
      rw [ha] at h
      cases h
      exact rolesFrom_of_eq rfl
  | createSession row =>
    refine rolesFrom_written fun s' h => ?_
    rw [Tables.createSession] at h
    split_ifs at h
    cases h
    exact rolesFrom_of_eq rfl
  | createApiToken row =>
    refine rolesFrom_written fun s' h => ?_
    rw [Tables.createApiToken] at h
    split_ifs at h
    cases h
    exact rolesFrom_of_eq rfl
  | createMfaChallenge row =>
    refine rolesFrom_written fun s' h => ?_
    dsimp only [Tables.createMfaChallenge] at h
    split_ifs at h
    cases h
    exact rolesFrom_of_eq rfl
  | createTenantInvitation row =>
    refine rolesFrom_written fun s' h => ?_
    dsimp only [Tables.createTenantInvitation] at h
    split_ifs at h
    cases h
    exact rolesFrom_of_eq rfl
  | findSession tokenHash now idleMs touchIntervalMs =>
    simp only [Call.perform, Tables.findSession]
    split
    · exact rolesFrom_of_eq rfl
    · split_ifs <;> exact rolesFrom_of_eq rfl
  | _ => exact rolesFrom_of_eq rfl

/-- What a process has read for good: a role that is no built-in one stays so. -/
def roleKnown (s : Tables) : Entry → Prop
  | ⟨.findRole tenantId _, .ok (some read)⟩ => read.builtin = false →
      ∀ r ∈ s.roles, r.tenantId = tenantId → r.id = read.id → r.builtin = false
  | _ => True

theorem roleKnown_of_rolesFrom (hf : RolesFrom s s') {entry : Entry} (h : roleKnown s entry) :
    roleKnown s' entry := by
  obtain ⟨c, reply⟩ := entry
  cases c with
  | findRole tenantId asked =>
    match reply with
    | .error e => trivial
    | .ok none => trivial
    | .ok (some read) =>
      intro hc r' hr' ht hid
      rcases hf r' hr' with hb | ⟨r, hr, ht', hid', hb⟩
      · exact hb
      · rw [← hb]
        exact h hc r hr (ht'.trans ht) (hid'.trans hid)
  | _ => exact True.intro

theorem rolesFrom_serve (hr : ∀ role, c = .createRole role → role.builtin = false) :
    RolesFrom s (c.serve s choice).2 := by
  rcases serve_cases c s choice with hs | hp
  · rw [hs]
    exact rolesFrom_of_eq rfl
  · rw [hp]
    exact rolesFrom_perform hr

theorem roleKnown_reply (h : TablesKept s debts) (c : Call) (choice : Choice) :
    roleKnown (c.serve s choice).2 ⟨c, (c.serve s choice).1⟩ := by
  obtain ⟨fails, yes, found⟩ := choice
  cases c with
  | findRole tenantId asked =>
    match fails with
    | some (kept, error) => trivial
    | none =>
      show roleKnown s ⟨.findRole tenantId asked, .ok (s.findRole tenantId asked)⟩
      cases hf : s.findRole tenantId asked with
      | none => trivial
      | some read =>
        intro hc r hr _ hid
        rwa [h.eq_of_id hr (List.mem_of_find?_eq_some hf) hid]
  | _ => exact True.intro

/-- What is known of a process. -/
structure RoleKnows (s : Tables) (p : Process) : Prop where
  goes : Goes p.history p.rest
  known : ∀ entry ∈ p.history, roleKnown s entry

/-- The invariant of a crew and those that are over. -/
structure CrewKept (s : Tables) (ps : List Process) : Prop where
  tables : TablesKept s (owedBy ps)
  knows : ∀ p ∈ ps, RoleKnows s p

theorem owedBy_cons {id : String} :
    owedBy (p :: others) t id a scopes = true ↔
      (stageOf p.history).owes t id a scopes = true ∨ owedBy others t id a scopes = true := by
  rw [owedBy, List.any_cons, Bool.or_eq_true]
  rfl

theorem owedBy_mono {ps ps' : List Process} (hs : ps ⊆ ps') {id : String}
    (h : owedBy ps t id a scopes = true) : owedBy ps' t id a scopes = true := by
  obtain ⟨q, hq, ho⟩ := List.any_eq_true.1 h
  exact List.any_eq_true.2 ⟨q, hs hq, ho⟩

theorem TablesKept.mono {debts' : Debts} (h : TablesKept s debts)
    (hd : ∀ t id a scopes, debts t id a scopes = true → debts' t id a scopes = true) :
    TablesKept s debts' :=
  ⟨h.ids, h.keys, h.reserved, fun m hm => (h.rows m hm).mono rfl (fun _ => id) fun _ _ => hd _ _ _ _⟩

/-- Behind a listing the holders are still owed. -/
theorem owes_listed (h : TablesKept s debts) (hm : m ∈ s.memberships) {id : String}
    (hid : m.roleId = some id)
    (ho : stage.owes m.tenantId id m.accountId scopes = true) :
    (stage.advance ⟨.listTenantMembers t, .ok (s.listTenantMembers t)⟩).owes m.tenantId id m.accountId
      scopes = true := by
  cases stage with
  | idle => cases ho
  | checked => cases ho
  | rewriting => exact ho
  | toList tenantId i given =>
    simp only [Stage.owes, Bool.and_eq_true, decide_eq_true_eq] at ho
    obtain ⟨⟨rfl, rfl⟩, rfl⟩ := ho
    simp only [Stage.advance]
    split_ifs with ht
    · subst ht
      have hh := mem_holders h hm hid
      simp only [Stage.owes, decide_true, Bool.and_self, Bool.true_and, decide_eq_true_eq]
      exact hh
    · simp [Stage.owes]

/-- Behind the rewriting of a holder the others are still owed. -/
theorem owes_replaced {accountId tenantId id : String} {given : List String}
    {reply : Prog.Reply Call.Answer (.replaceMembershipScopes accountId tenantId given)}
    (hoth : (a, t) ≠ (accountId, tenantId)) (ho : stage.owes t id a scopes = true) :
    (stage.advance ⟨.replaceMembershipScopes accountId tenantId given, reply⟩).owes t id a scopes = true := by
  cases stage with
  | idle => cases ho
  | checked => cases ho
  | toList => exact ho
  | rewriting t' i given' left =>
    cases reply with
    | error e => exact ho
    | ok reply =>
      simp only [Stage.owes, Bool.and_eq_true, decide_eq_true_eq] at ho
      obtain ⟨⟨⟨rfl, rfl⟩, rfl⟩, hl⟩ := ho
      have hsta : a ∈ left.filter fun other => !(other = accountId && tenantId = t') := by
        refine List.mem_filter.2 ⟨hl, ?_⟩
        by_contra hs
        simp only [Bool.not_eq_true', Bool.not_eq_false, Bool.and_eq_true, decide_eq_true_eq] at hs
        exact hoth (by rw [hs.1, hs.2])
      simp only [Stage.advance, Stage.owes, decide_true, Bool.and_self, Bool.true_and, decide_eq_true_eq]
      exact hsta

/-- **One call keeps the rows**, where what is behind it is owed by those behind it. -/
theorem TablesKept.serve (h : TablesKept s (owedBy (p :: (others ++ gone))))
    (hrest : p.rest = .call c next) (hc : copiesCurrent s others p = true)
    (ha : RoleAllowed p.history c) (hkno : ∀ entry ∈ p.history, roleKnown s entry) :
    TablesKept (c.serve s choice).2 (owedBy
      (⟨p.history ++ [⟨c, (c.serve s choice).1⟩], next (c.serve s choice).1⟩ :: (others ++ gone))) := by
  have hothers : ∀ {q : Process} t id a scopes, owedBy others t id a scopes = true →
      owedBy (q :: (others ++ gone)) t id a scopes = true := fun t id a scopes ho =>
    owedBy_cons.2 (.inr (owedBy_mono (List.subset_append_left _ _) ho))
  cases hp : c.pays with
  | true =>
    cases c with
    | listTenantMembers t =>
      obtain ⟨fails, yes, found, listed⟩ := choice
      match fails with
      | none =>
        refine h.of_eq rfl rfl rfl fun m hm r _ hid ho => owedBy_cons.2 ?_
        refine (owedBy_cons.1 ho).imp_left fun howes => ?_
        rw [stageOf_append]
        exact owes_listed h hm hid howes
      | some (kept, error) =>
        have hsame : ((Call.listTenantMembers t).serve s ⟨some (kept, error), yes, found, listed⟩).2 = s := by
          cases kept <;> rfl
        rw [hsame]
        refine h.mono fun t' id a scopes ho => owedBy_cons.2 ?_
        refine (owedBy_cons.1 ho).imp_left fun howes => ?_
        rw [stageOf_append]
        generalize stageOf p.history = stage at howes
        cases stage <;> exact howes
    | replaceMembershipScopes accountId tenantId scopes =>
      rw [copiesCurrent, hrest] at hc
      have hkept : ∀ reply t id a given, (a, t) ≠ (accountId, tenantId) →
          owedBy (p :: (others ++ gone)) t id a given = true →
          owedBy (⟨p.history ++ [⟨.replaceMembershipScopes accountId tenantId scopes, reply⟩], next reply⟩ ::
            (others ++ gone)) t id a given = true := by
        intro reply t id a given hoth ho
        refine owedBy_cons.2 ((owedBy_cons.1 ho).imp_left fun howes => ?_)
        rw [stageOf_append]
        exact owes_replaced hoth howes
      have hrows := fun reply => h.replaceMembershipScopes (hothers (q := ⟨p.history ++
        [⟨.replaceMembershipScopes accountId tenantId scopes, reply⟩], next reply⟩))
        (fun m hm hoth id given => hkept reply m.tenantId id m.accountId given hoth) hc
      obtain ⟨fails, yes, found⟩ := choice
      match fails with
      | none => exact hrows _
      | some (true, error) => exact hrows _
      | some (false, error) =>
        refine h.mono fun t' id a scopes ho => owedBy_cons.2 ?_
        refine (owedBy_cons.1 ho).imp_left fun howes => ?_
        rw [stageOf_append]
        show (Stage.advance _ ⟨.replaceMembershipScopes accountId tenantId _, .error error⟩).owes _ _ _ _ = _
        generalize stageOf p.history = stage at howes
        cases stage <;> exact howes
    | _ => cases hp
  | false =>
    have hs : ∀ t id a scopes, owedBy (p :: (others ++ gone)) t id a scopes = true → owedBy
        (⟨p.history ++ [⟨c, (c.serve s choice).1⟩], next (c.serve s choice).1⟩ :: (others ++ gone))
        t id a scopes = true := by
      intro t id a scopes ho
      refine owedBy_cons.2 ((owedBy_cons.1 ho).imp_left fun howes => ?_)
      rw [stageOf_append]
      exact owes_advance hp howes
    rcases serve_cases c s choice with hsame | hper
    · rw [hsame]
      exact h.mono hs
    · rw [hper]
      cases ht : c.tame with
      | true => exact (h.mono hs).perform hothers hrest hc ht hp
      | false =>
        cases c with
        | updateRole tenantId id name description scopes =>
          obtain ⟨hb, asked, read, hread, rfl, hcus⟩ := ha
          refine h.updateRole (hkno _ hread hcus) hs ?_
          rw [copiesCurrent, hrest] at hc
          cases hsta : stageOf p.history with
          | idle =>
            rw [hsta] at hc
            refine .inr fun r hr hten hid => ?_
            have hfind : s.findRole tenantId read.id = some r := by
              cases hf : s.findRole tenantId read.id with
              | none => exact absurd (List.find?_eq_none.1 hf r hr) (by simp [hten, hid])
              | some r' =>
                have hk := List.find?_some hf
                simp only [Bool.and_eq_true, decide_eq_true_eq] at hk
                rw [h.eq_of_id (List.mem_of_find?_eq_some hf) hr (hk.2.trans hid.symm)]
            dsimp only at hc
            rw [hfind, Option.all_some] at hc
            exact of_decide_eq_true hc
          | checked =>
            refine .inl fun a => owedBy_cons.2 (.inl ?_)
            rw [stageOf_append, hsta]
            simp [Stage.advance, Stage.owes]
          | toList => rw [hsta] at hb; cases hb
          | rewriting => rw [hsta] at hb; cases hb
        | _ => cases ht.symm.trans ha

/-- A call that is over owes nothing. -/
theorem clear_of_settled (hk : RoleKnows s p) (h : settled p = true) : (stageOf p.history).clear := by
  obtain ⟨history, rest⟩ := p
  cases rest with
  | pure a => exact hk.goes.ends.of_pure
  | fail e => exact clear_of_before h
  | call c next => cases h

end Steps

/-- What holds of the tables and all calls there were. -/
def roleChronicle [AuthText] (minLength : ℕ) :
    Chronicle (recorder (RoleRequest.program minLength) Call.serve) CopiesCurrent where
  holds := CrewKept
  perm hperm h := ⟨h.tables.mono fun _ _ _ _ => owedBy_mono hperm.subset,
    fun p hp => h.knows p (hperm.mem_iff.2 hp)⟩
  start := by
    intro s ps r p h hstart
    rw [← Option.some.inj hstart]
    refine ⟨h.tables.mono fun _ _ _ _ howed => owedBy_cons.2 (.inr howed), ?_⟩
    exact List.forall_mem_cons.2 ⟨⟨goes_program minLength r, fun _ h => (nomatch h)⟩, h.knows⟩
  stop h := h
  move := by
    intro s others gone p choice s' p' h hcond hnext
    obtain ⟨c, next, hrest, rfl, rfl⟩ := recorder_next hnext
    obtain ⟨hp, hothers⟩ := List.forall_mem_cons.1 h.knows
    have hgoes : Goes p.history (.call c next) := hrest ▸ hp.goes
    have hfrom : RolesFrom s (c.serve s choice).2 := by
      refine rolesFrom_serve fun role hrole => ?_
      subst hrole
      have htame : (Call.createRole role).tame = true := hgoes.along.ok_call
      simp only [Call.tame, Bool.and_eq_true, Bool.not_eq_true'] at htame
      exact htame.1
    refine ⟨h.tables.serve hrest hcond hgoes.along.ok_call hp.known, List.forall_mem_cons.2 ⟨?_, fun q hq => ?_⟩⟩
    · refine ⟨⟨hgoes.along.next _, hgoes.ends.next _⟩, fun entry hentry => ?_⟩
      rcases List.mem_append.1 hentry with hentry | hentry
      · exact roleKnown_of_rolesFrom hfrom (hp.known entry hentry)
      · rw [List.mem_singleton.1 hentry]
        exact roleKnown_reply h.tables c choice
    · exact ⟨(hothers q hq).goes, fun entry hentry =>
        roleKnown_of_rolesFrom hfrom ((hothers q hq).known entry hentry)⟩

/-- A workspace with an owner, a helper and a member; nobody holds the spare role. -/
def roleTables : Tables where
  accounts := [sampleAccount "ada", sampleAccount "bob", sampleAccount "cyd"]
  memberships := [
    { sampleOwner "ada" "t" with roleId := some "r0", scopes := ["auth.roles.manage"] },
    { sampleOwner "bob" "t" with role := "helper", roleId := some "r1", scopes := ["auth.roles.read"] },
    { sampleOwner "cyd" "t" with role := "guest", roleId := none }]
  roles := [ ⟨"r0", "t", "owner", "Owner", "", ["auth.roles.manage"], true⟩,
    ⟨"r1", "t", "helper", "Helper", "", ["auth.roles.read"], false⟩,
    ⟨"r2", "t", "spare", "Spare", "", ["auth.roles.read"], false⟩]
  keys := by decide

/-- Moves of the role operation at a position. -/
def roleMoves (i n : ℕ) : List (Crew.Turn RoleRequest Choice) :=
  List.replicate n (.move i {})

theorem roleTables_constrained : Constrained roleTables where
  ids := by decide
  keys := by decide
  reserved := by decide
  keyed := by decide
  accounts := by decide

theorem roleTables_reach : RolesReach roleTables := by
  refine ⟨by decide, fun m hm r hr ht hid hc => ?_, by decide⟩
  have hs : ∀ m ∈ roleTables.memberships, ∀ r ∈ roleTables.roles, m.roleId = some r.id →
      m.scopes = r.scopes := by decide
  rw [hs m hm r hr hid]
  exact fun _ => Iff.rfl

/-- A member of a custom role holds a scope that is not stored. -/
def holdsStale (s : Tables) : Bool :=
  s.memberships.any fun m => s.roles.any fun r =>
    decide (r.tenantId = m.tenantId) && decide (m.roleId = some r.id) && !r.builtin &&
      m.scopes.any fun scope => decide (scope ∉ r.scopes)

/-- The role of a member is not there. -/
def namesNone (s : Tables) : Bool :=
  s.memberships.any fun m => m.roleId.any fun id => s.roles.all fun r => decide (r.id ≠ id)

theorem not_reach_of_stale (h : holdsStale s = true) : ¬ RolesReach s := by
  intro hrea
  obtain ⟨m, hm, h⟩ := List.any_eq_true.1 h
  obtain ⟨r, hr, h⟩ := List.any_eq_true.1 h
  simp only [Bool.and_eq_true, decide_eq_true_eq, Bool.not_eq_true', List.any_eq_true] at h
  obtain ⟨⟨⟨ht, hid⟩, hc⟩, scope, hs, hn⟩ := h
  exact hn ((hrea.custom m hm r hr ht hid hc scope).1 hs)

theorem not_reach_of_none (h : namesNone s = true) : ¬ RolesReach s := by
  intro hrea
  obtain ⟨m, hm, h⟩ := List.any_eq_true.1 h
  obtain ⟨id, hid, h⟩ := (Option.any_eq_true _ _).1 h
  obtain ⟨r, hr, -, hs⟩ := hrea.named m hm id hid
  exact of_decide_eq_true (List.all_eq_true.1 h r hr) hs

end Flowdular.Auth
