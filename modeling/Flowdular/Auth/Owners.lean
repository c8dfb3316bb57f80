/-
# A workspace keeps an active owner

Calls of `setMemberStatus`, `setMembershipStatus`, `removeMember` and `assignMemberRole` by
any actors take turns call by call on the rows of all workspaces.  The rule is checked in
one transaction and the row is changed in a later one, so a process is kept with what it
has read.  Where what it has read still holds when it writes, and no account is disabled
that another workspace has as its only active owner, no workspace loses its last one
(`owner_remains`).
-/

import Flowdular.Auth.Members

namespace Flowdular.Auth

open Lib Workflows
open Discipline (All all_bind)
open Prog (History Recorded recorder recorder_next Along along_bind along_of_all along_need_bind)

/-! ### The machine -/

/-- A call of one of the four operations. -/
inductive MemberRequest
  | setMemberStatus (actor : AuthActor) (accountId : String) (status : Status)
  | setMembershipStatus (actor : AuthActor) (accountId : String) (status : Status) (now : ℤ)
  | removeMember (actor : AuthActor) (accountId : String)
  | assignMemberRole (actor : AuthActor) (accountId roleKey : String)

/-- The program that answers a request. -/
def MemberRequest.program : MemberRequest → Service PUnit
  | .setMemberStatus actor accountId status => do
    let _ ← Auth.setMemberStatus actor accountId status
    return ⟨⟩
  | .setMembershipStatus actor accountId status now => do
    let _ ← Auth.setMembershipStatus actor accountId status now
    return ⟨⟩
  | .removeMember actor accountId => Auth.removeMember actor accountId
  | .assignMemberRole actor accountId roleKey => do
    let _ ← Auth.assignMemberRole actor accountId roleKey
    return ⟨⟩

/-- A process, with what it has read. -/
abbrev Process :=
  Recorded Call (Prog.Reply Call.Answer) PUnit

/-- The member operations of all workspaces. -/
def memberships : Machine Tables Process MemberRequest Choice :=
  recorder MemberRequest.program Call.serve

/-! ### The condition -/

/-- What a process has read of the target and of the owners still holds: the target has the
role and the statuses it had, and there are no fewer owners. -/
def stillHolds (s : Tables) : Entry → Bool
  | ⟨.findAccountMembership accountId tenantId, .ok (some target)⟩ =>
    (s.findAccountMembership accountId tenantId).all fun now =>
      now.role = target.role && now.status = target.status && now.membershipStatus = target.membershipStatus
  | ⟨.countActiveOwners tenantId, .ok owners⟩ => owners ≤ s.countActiveOwners tenantId
  | _ => true

/-- The workspaces a process has looked for its target in. -/
def lookedIn (history : History Call (Prog.Reply Call.Answer)) : List String :=
  history.filterMap fun
    | ⟨.findAccountMembership _ tenantId, _⟩ => some tenantId
    | _ => none

/-- The account is the only active owner of no workspace but some. -/
def neededOnlyIn (s : Tables) (accountId : String) (tenants : List String) : Bool :=
  s.memberships.all fun m =>
    !(m.accountId = accountId && s.activeOwner m.tenantId m) || decide (m.tenantId ∈ tenants) ||
      decide (2 ≤ s.countActiveOwners m.tenantId)

/-- The condition on a move: a write that may take an owner away is made while what its
process has read still holds, and an account is disabled only where no other workspace
needs it. -/
def current (s : Tables) (p : Process) : Bool :=
  match p.rest with
  | .call (.updateAccountStatus accountId .disabled) _ =>
    p.history.all (stillHolds s) && neededOnlyIn s accountId (lookedIn p.history)
  | .call (.setMembershipStatus _ _ .disabled) _ => p.history.all (stillHolds s)
  | .call (.deleteMembership ..) _ => p.history.all (stillHolds s)
  | .call (.updateMembershipRole ..) _ => p.history.all (stillHolds s)
  | _ => true

/-- `current`, as a condition of the machine. -/
def Current : Machine.Condition Tables Process :=
  fun s _ p => current s p = true

/-! ### What a process has read before it writes -/

/-- The target is read, and where it is an active owner a second one is counted. -/
def Checked (history : History Call (Prog.Reply Call.Answer)) (accountId tenantId : String) : Prop :=
  ∃ id target, (⟨.findAccountMembership id tenantId, .ok (some target)⟩ : Entry) ∈ history ∧
    target.accountId = accountId ∧
    (target.role = "owner" → target.status = .active → target.membershipStatus = .active →
      ∃ owners, 2 ≤ owners ∧ (⟨.countActiveOwners tenantId, .ok owners⟩ : Entry) ∈ history)

/-- The calls of the four operations, each behind what it has read. -/
def Allowed (history : History Call (Prog.Reply Call.Answer)) : Call → Prop
  | .findAccountMembership .. => lookedIn history = []
  | .updateAccountStatus accountId status => status = .disabled → ∃ t, Checked history accountId t
  | .setMembershipStatus accountId tenantId status => status = .disabled → Checked history accountId tenantId
  | .deleteMembership accountId tenantId => Checked history accountId tenantId
  | .updateMembershipRole accountId tenantId role _ _ => role ≠ "owner" → Checked history accountId tenantId
  | .deleteAccount accountId => (⟨.countMemberships accountId, .ok (0 : ℕ)⟩ : Entry) ∈ history
  | .replaceMembershipScopes .. => False
  | .grantTenantOwnerScopes .. => False
  | .updatePasswordHash .. => False
  | .createMembershipInTenant _ => False
  | .createAccountInTenant .. => False
  | _ => True

/-- A call that is allowed behind any history. -/
def Call.free : Call → Bool
  | .findAccountMembership .. => false
  | .updateAccountStatus .. => false
  | .setMembershipStatus .. => false
  | .deleteMembership .. => false
  | .updateMembershipRole .. => false
  | .deleteAccount _ => false
  | .replaceMembershipScopes .. => false
  | .grantTenantOwnerScopes .. => false
  | .updatePasswordHash .. => false
  | .createMembershipInTenant _ => false
  | .createAccountInTenant .. => false
  | _ => true

variable {history : History Call (Prog.Reply Call.Answer)}

theorem allowed_of_free {c : Call} (h : c.free = true) : Allowed history c := by
  cases c with
  | findAccountMembership => cases h
  | updateAccountStatus => cases h
  | setMembershipStatus => cases h
  | deleteMembership => cases h
  | updateMembershipRole => cases h
  | deleteAccount => cases h
  | replaceMembershipScopes => cases h
  | grantTenantOwnerScopes => cases h
  | updatePasswordHash => cases h
  | createMembershipInTenant => cases h
  | createAccountInTenant => cases h
  | _ => trivial

theorem Checked.mono {history' : History Call (Prog.Reply Call.Answer)}
    {accountId tenantId : String} (h : Checked history accountId tenantId) (hle : history <+: history') :
    Checked history' accountId tenantId := by
  obtain ⟨id, target, hr, hid, hc⟩ := h
  refine ⟨id, target, hle.subset hr, hid, fun hrole hs hm => ?_⟩
  obtain ⟨owners, ht, hmem⟩ := hc hrole hs hm
  exact ⟨owners, ht, hle.subset hmem⟩

section Programs

variable {α β : Type} {history : History Call (Prog.Reply Call.Answer)} {actor : AuthActor}
  {tenantId accountId : String} {target : AccountCredential} {now : ℤ} {status : Status}

variable {p : Service α} {f : PUnit → Service β} {id : String}

theorem along_free (h : All (fun c => c.free = true) p) : Along Allowed history p :=
  along_of_all (fun _ _ => allowed_of_free) h

theorem all_call {P : Call → Prop} {c : Call} (h : P c) : All P (call c) :=
  ⟨h, fun r => by cases r <;> trivial⟩

theorem free_audit {action subjectType subjectId : String} {metadata : List (String × Json)} :
    All (fun c => c.free = true) (audit tenantId accountId action subjectType subjectId metadata) :=
  Discipline.all_orElse (all_call rfl) fun _ => trivial

theorem free_member : All (fun c => c.free = true) (member accountId tenantId) := by
  unfold member
  refine all_bind (all_call rfl) fun members => ?_
  split
  · trivial
  · trivial

theorem free_deleteAccountSessions : All (fun c => c.free = true) (deleteAccountSessions accountId) := by
  unfold deleteAccountSessions
  refine all_bind (all_call rfl) fun tenants => ?_
  induction tenants with
  | nil => trivial
  | cons tenantId rest ih => exact all_bind (all_call rfl) fun _ => ih

/-- Behind the target stands that it was read. -/
theorem along_targetMember {f : AccountCredential → Service β} (hf : ∀ id target history,
      (⟨.findAccountMembership id actor.tenantId, .ok (some target)⟩ : Entry) ∈ history →
      Along Allowed history (f target)) :
    Along Allowed [] (targetMember actor accountId false >>= f) := by
  unfold targetMember
  cases identifier accountId "accountId" with
  | error e => exact .fail
  | ok id =>
    show Along Allowed [] ((call (.findAccountMembership id actor.tenantId) >>= fun target =>
      Prog.ofExcept (checkTarget actor false target)) >>= f)
    rw [Prog.bind_assoc]
    refine along_need_bind rfl fun reply => ?_
    cases reply with
    | none => exact .fail
    | some target =>
      have hr := hf id target [⟨.findAccountMembership id actor.tenantId, .ok (some target)⟩]
        (List.mem_singleton_self _)
      dsimp only [checkTarget]
      split_ifs
      · exact .fail
      · exact .fail
      · exact hr

/-- Behind the rule stands that the target is checked, where it is counted. -/
theorem along_assertOwnerRemains {counted : Bool}
    (hr : (⟨.findAccountMembership id tenantId, .ok (some target)⟩ : Entry) ∈ history)
    (hc : target.status = .active → target.membershipStatus = .active → counted = true)
    (hf : ∀ history', history <+: history' → Checked history' target.accountId tenantId →
      Along Allowed history' (f ⟨⟩)) :
    Along Allowed history (assertOwnerRemains tenantId target counted >>= f) := by
  unfold assertOwnerRemains
  split_ifs with hrule
  · rw [Prog.bind_assoc]
    refine along_need_bind (allowed_of_free (by rfl)) fun owners => ?_
    split_ifs with hfew
    · exact .fail
    · refine hf _ (List.prefix_append _ _) ⟨id, target, List.mem_append_left _ hr, rfl, fun _ _ _ => ?_⟩
      refine ⟨owners, Nat.lt_of_not_le hfew, List.mem_append_right _ (List.mem_singleton_self _)⟩
  · refine hf _ (List.prefix_refl _) ⟨id, target, hr, rfl, fun hrole hs hm => ?_⟩
    exact absurd ⟨hrole, hc hs hm⟩ hrule

theorem along_whenever {condition : Prop} [Decidable condition] {p : Service PUnit}
    (hp : condition → Along Allowed history (p >>= f))
    (hf : ¬ condition → Along Allowed history (f ⟨⟩)) :
    Along Allowed history (whenever condition p >>= f) := by
  unfold whenever
  split_ifs with hc
  · exact hp hc
  · exact hf hc

theorem along_setStatusOf
    (hr : (⟨.findAccountMembership id actor.tenantId, .ok (some target)⟩ : Entry) ∈ history) :
    Along Allowed history (setStatusOf actor status target) := by
  have ht : ∀ history', (status = .disabled → Checked history' target.accountId actor.tenantId) →
      Along Allowed history' (do
        let _ ← call (.updateAccountStatus target.accountId status)
        let _ ← audit actor.tenantId actor.accountId "users.member.status" "account" target.accountId
          [("status", .str status.text)]
        member target.accountId actor.tenantId) := fun history' hc =>
    along_need_bind (fun hs => ⟨_, hc hs⟩) fun _ =>
      along_free (all_bind free_audit fun _ => free_member)
  unfold setStatusOf
  refine along_whenever (fun hs => ?_) fun hs => ?_
  · rw [Prog.bind_assoc]
    refine along_assertOwnerRemains hr (fun h _ => decide_eq_true h) fun history' hle hc => ?_
    refine along_bind (along_free free_deleteAccountSessions) fun _ history'' hle' => ?_
    exact ht history'' fun _ => hc.mono hle'
  · exact ht history fun h => absurd h hs

theorem along_removeTarget
    (hr : (⟨.findAccountMembership id actor.tenantId, .ok (some target)⟩ : Entry) ∈ history) :
    Along Allowed history (removeTarget actor target) := by
  unfold removeTarget
  refine along_assertOwnerRemains hr (fun h _ => decide_eq_true h) fun history' hle hc => ?_
  refine along_need_bind hc fun _ => along_need_bind (allowed_of_free (by rfl)) fun count => ?_
  refine along_whenever (fun hcou => ?_) fun _ => along_free free_audit
  refine along_need_bind ?_ fun _ => along_free free_audit
  rw [hcou]
  exact List.mem_append_right _ (List.mem_singleton_self _)

theorem along_assignRole {role : TenantRole}
    (hr : (⟨.findAccountMembership id actor.tenantId, .ok (some target)⟩ : Entry) ∈ history) :
    Along Allowed history (assignRole actor target role) := by
  have ht : ∀ history', (role.key ≠ "owner" → Checked history' target.accountId actor.tenantId) →
      Along Allowed history' (do
        let _ ← call (.updateMembershipRole target.accountId actor.tenantId role.key (some role.id)
          role.scopes)
        let _ ← audit actor.tenantId actor.accountId "users.member.role" "account" target.accountId
          [("role", .str role.key)]
        member target.accountId actor.tenantId) := fun history' hc =>
    along_need_bind hc fun _ => along_free (all_bind free_audit fun _ => free_member)
  unfold assignRole
  refine along_whenever (fun hrole => ?_) fun hrole => ?_
  · refine along_assertOwnerRemains hr (fun h _ => decide_eq_true h) fun history' _ hc => ?_
    exact ht history' fun _ => hc
  · refine ht history fun hk => ⟨id, target, hr, rfl, fun ho => ?_⟩
    exact absurd ⟨ho, hk⟩ hrole

theorem along_setMembershipStatusOf
    (hr : (⟨.findAccountMembership id actor.tenantId, .ok (some target)⟩ : Entry) ∈ history) :
    Along Allowed history (setMembershipStatusOf actor status now target) := by
  have ht : ∀ history', (status = .disabled → Checked history' target.accountId actor.tenantId) →
      Along Allowed history' (do
        let _ ← call (.setMembershipStatus target.accountId actor.tenantId status)
        let _ ← whenever (status = .disabled) do
          let _ ← call (.deleteMembershipSessions target.accountId actor.tenantId)
          let _ ← call (.revokeMembershipApiTokens actor.tenantId target.accountId now actor.accountId)
          .pure ⟨⟩
        let _ ← audit actor.tenantId actor.accountId "auth.membership.status" "account"
          target.accountId [("status", .str status.text)]
        return (target.accountId, status)) := by
    intro history' hc
    have ha : ∀ history', Along Allowed history' (do
        let _ ← audit actor.tenantId actor.accountId "auth.membership.status" "account"
          target.accountId [("status", .str status.text)]
        return (target.accountId, status)) := fun history' =>
      along_free (all_bind free_audit fun _ => trivial)
    refine along_need_bind hc fun _ => along_whenever (fun _ => ?_) fun _ => ha _
    refine along_bind (along_free ?_) fun _ history'' _ => ha history''
    exact all_bind (all_call rfl) fun _ => all_bind (all_call rfl) fun _ => trivial
  unfold setMembershipStatusOf
  refine along_whenever (fun _ => ?_) fun hs => ht history fun h => absurd h hs
  refine along_assertOwnerRemains hr (fun h h' => by simp [h, h']) fun history' _ hc => ?_
  exact ht history' fun _ => hc

theorem along_done (h : Along Allowed history p) :
    Along Allowed history (p >>= fun _ => (pure ⟨⟩ : Service PUnit)) :=
  along_bind h fun _ _ _ => .pure

theorem along_assignMemberRole {roleKey : String} :
    Along Allowed [] (assignMemberRole actor accountId roleKey) := by
  unfold assignMemberRole
  refine along_targetMember fun id target history' hr => ?_
  cases validateRoleKey roleKey with
  | error e => exact .fail
  | ok key =>
    show Along Allowed history' (roleForAssignment actor key >>= assignRole actor target)
    refine along_bind (along_free ?_) fun role history'' hle => along_assignRole (hle.subset hr)
    unfold roleForAssignment
    split_ifs
    · trivial
    · refine all_bind (all_call rfl) fun role => ?_
      cases role <;> trivial

/-- **The four operations** write behind what they have read. -/
theorem along_program (r : MemberRequest) : Along Allowed [] r.program := by
  cases r with
  | setMemberStatus actor accountId status =>
    have h : Along Allowed [] (setMemberStatus actor accountId status) :=
      along_targetMember fun id target history' hr => along_setStatusOf hr
    exact @along_done _ _ _ h
  | setMembershipStatus actor accountId status now =>
    have h : Along Allowed [] (setMembershipStatus actor accountId status now) :=
      along_targetMember fun id target history' hr => along_setMembershipStatusOf hr
    exact @along_done _ _ _ h
  | removeMember actor accountId =>
    exact along_targetMember fun id target history' hr => along_removeTarget hr
  | assignMemberRole actor accountId roleKey =>
    exact @along_done _ _ _ along_assignMemberRole

end Programs

/-! ### What a call does to the owners -/

section Owners

variable {s : Tables} {c : Call} {choice : Choice} {t accountId tenantId : String}

/-- The workspace has an active owner. -/
def HasOwner (s : Tables) (t : String) : Prop :=
  ∃ m ∈ s.memberships, s.activeOwner t m = true

theorem hasOwner_iff : HasOwner s t ↔ 0 < s.countActiveOwners t := by
  rw [HasOwner, Tables.countActiveOwners, List.length_pos_iff_exists_mem]
  simp only [List.mem_filter]

variable {m : MembershipRow} {other : String} {history : History Call (Prog.Reply Call.Answer)}
  {p : Process}

theorem activeOwner_iff : s.activeOwner t m = true ↔
    m.tenantId = t ∧ m.role = "owner" ∧ m.status = .active ∧ s.accountActive m.accountId = true := by
  simp [Tables.activeOwner, and_assoc]

/-- Of two active owners one is another account. -/
theorem exists_other_owner (h : 2 ≤ s.countActiveOwners t) (accountId : String) :
    ∃ m ∈ s.memberships, s.activeOwner t m = true ∧ m.accountId ≠ accountId := by
  by_contra hn
  push Not at hn
  have hk : ((s.memberships.filter (s.activeOwner t)).map (·.key)).Nodup :=
    s.keys.sublist (List.filter_sublist.map _)
  have ha : ∀ key ∈ (s.memberships.filter (s.activeOwner t)).map (·.key), key = (accountId, t) := by
    intro key hkey
    obtain ⟨m, hm, rfl⟩ := List.mem_map.1 hkey
    obtain ⟨hmem, ho⟩ := List.mem_filter.1 hm
    exact Prod.ext (hn m hmem ho) (activeOwner_iff.1 ho).1
  rw [List.eq_replicate_of_mem ha, List.nodup_replicate, List.length_map] at hk
  rw [Tables.countActiveOwners] at h
  omega

/-- The membership a call is about. -/
def Call.hits (c : Call) (m : MembershipRow) : Bool :=
  match c with
  | .updateAccountStatus accountId _ => m.accountId = accountId
  | .setMembershipStatus accountId tenantId _ => m.key = (accountId, tenantId)
  | .deleteMembership accountId tenantId => m.key = (accountId, tenantId)
  | .updateMembershipRole accountId tenantId _ _ _ => m.key = (accountId, tenantId)
  | .deleteAccount accountId => m.accountId = accountId
  | _ => false

/-- A free call leaves accounts and memberships. -/
theorem perform_free (h : c.free = true) :
    (c.perform choice s).2.accounts = s.accounts ∧ (c.perform choice s).2.memberships = s.memberships := by
  cases c with
  | findAccountMembership => cases h
  | updateAccountStatus => cases h
  | setMembershipStatus => cases h
  | deleteMembership => cases h
  | updateMembershipRole => cases h
  | deleteAccount => cases h
  | replaceMembershipScopes => cases h
  | grantTenantOwnerScopes => cases h
  | updatePasswordHash => cases h
  | createMembershipInTenant => cases h
  | createAccountInTenant => cases h
  | createSession row =>
    simp only [Call.perform, Tables.createSession]
    split_ifs <;> exact ⟨rfl, rfl⟩
  | createApiToken row =>
    simp only [Call.perform, Tables.createApiToken]
    split_ifs <;> exact ⟨rfl, rfl⟩
  | createMfaChallenge row =>
    simp only [Call.perform, Tables.createMfaChallenge]
    split_ifs <;> exact ⟨rfl, rfl⟩
  | createRole role =>
    simp only [Call.perform, Tables.createRole]
    split_ifs <;> exact ⟨rfl, rfl⟩
  | createTenantInvitation row =>
    simp only [Call.perform, Tables.createTenantInvitation]
    split_ifs <;> exact ⟨rfl, rfl⟩
  | findSession tokenHash now idleMs touchIntervalMs =>
    simp only [Call.perform, Tables.findSession]
    split
    · exact ⟨rfl, rfl⟩
    · split_ifs <;> exact ⟨rfl, rfl⟩
  | _ => exact ⟨rfl, rfl⟩

theorem activeOwner_congr {s' : Tables} (h : s'.accounts = s.accounts) :
    s'.activeOwner = s.activeOwner := by
  funext t m
  simp only [Tables.activeOwner, Tables.accountActive, Tables.account, h]

theorem accountActive_update {status : Status}
    (h : other ≠ accountId ∨ status = .active) (ha : s.accountActive other = true) :
    (s.updateAccountStatus accountId status).accountActive other = true := by
  let change (a : AccountRow) : AccountRow := { a with status }
  have hf : (s.updateAccountStatus accountId status).account other =
      (s.account other).map fun a => if decide (a.id = accountId) then change a else a :=
    @Table.find?_update AccountRow String (fun a => decide (a.id = accountId)) change s.accounts _
      (·.id) (fun _ => rfl) other
  rw [Tables.accountActive] at ha ⊢
  rw [hf]
  cases hr : s.account other with
  | none =>
    rw [hr] at ha
    cases ha
  | some a =>
    have hid : a.id = other := by
      simpa using List.find?_some (p := fun a : AccountRow => a.id = other) hr
    rw [hr] at ha
    simp only [Option.map_some, Option.any_some, decide_eq_true_eq, hid] at ha ⊢
    split_ifs with heq
    · exact h.resolve_left fun hne => hne heq
    · exact ha

theorem accountActive_deleteAccount (h : other ≠ accountId) :
    (s.deleteAccount accountId).accountActive other = s.accountActive other := by
  have hf : (s.deleteAccount accountId).account other = s.account other := by
    show (s.accounts.filter fun a => a.id ≠ accountId).find? (fun a => a.id = other) = _
    rw [List.find?_filter]
    refine congrArg (s.accounts.find? ·) (funext fun a => ?_)
    by_cases ha : a.id = other
    · simp [ha, h]
    · simp [ha]
  rw [Tables.accountActive, Tables.accountActive, hf]

theorem mem_update_of_miss {selects : MembershipRow → Bool} {change : MembershipRow → MembershipRow}
    (hm : m ∈ s.memberships) (hmiss : selects m = false) :
    m ∈ Table.update selects change s.memberships :=
  Table.mem_update.2 ⟨m, hm, by rw [hmiss]; rfl⟩

/-- **An active owner a call is not about** stays one. -/
theorem owner_of_not_hits
    (hc : Allowed history c) (hm : m ∈ s.memberships) (ho : s.activeOwner t m = true)
    (hmiss : c.hits m = false) :
    m ∈ (c.perform choice s).2.memberships ∧ (c.perform choice s).2.activeOwner t m = true := by
  cases hf : c.free with
  | true =>
    obtain ⟨hacc, hmem⟩ := @perform_free s c choice hf
    rw [hmem, activeOwner_congr hacc]
    exact ⟨hm, ho⟩
  | false =>
    obtain ⟨ht, hr, hs, ha⟩ := activeOwner_iff.1 ho
    cases c with
    | findAccountMembership => exact ⟨hm, ho⟩
    | updateAccountStatus accountId status =>
      refine ⟨hm, activeOwner_iff.2 ⟨ht, hr, hs, ?_⟩⟩
      exact accountActive_update (.inl (of_decide_eq_false hmiss)) ha
    | setMembershipStatus id tenantId status =>
      exact ⟨mem_update_of_miss hm hmiss, ho⟩
    | deleteMembership id tenantId =>
      exact ⟨List.mem_filter.2 ⟨hm, congrArg not hmiss⟩, ho⟩
    | updateMembershipRole id tenantId role roleId scopes =>
      simp only [Call.perform, Tables.updateMembershipRole]
      cases s.assignedScopes tenantId role scopes with
      | error e => exact ⟨hm, ho⟩
      | ok assigned => exact ⟨mem_update_of_miss hm hmiss, ho⟩
    | deleteAccount id =>
      refine ⟨List.mem_filter.2 ⟨hm, congrArg not hmiss⟩, activeOwner_iff.2 ⟨ht, hr, hs, ?_⟩⟩
      exact (accountActive_deleteAccount (of_decide_eq_false hmiss)).trans ha
    | replaceMembershipScopes => exact hc.elim
    | grantTenantOwnerScopes => exact hc.elim
    | updatePasswordHash => exact hc.elim
    | createMembershipInTenant => exact hc.elim
    | createAccountInTenant => exact hc.elim
    | _ => cases hf

/-- A call that only gives leaves every owner an owner. -/
def Call.gives : Call → Prop
  | .updateAccountStatus _ status => status = .active
  | .setMembershipStatus _ _ status => status = .active
  | .updateMembershipRole _ _ role _ _ => role = "owner"
  | _ => False

theorem hasOwner_of_gives (hc : c.gives) (hm : m ∈ s.memberships)
    (ho : s.activeOwner t m = true) : HasOwner (c.perform choice s).2 t := by
  obtain ⟨ht, hr, hs, ha⟩ := activeOwner_iff.1 ho
  cases c with
  | updateAccountStatus accountId status =>
    exact ⟨m, hm, activeOwner_iff.2 ⟨ht, hr, hs, accountActive_update (.inr hc) ha⟩⟩
  | setMembershipStatus accountId tenantId status =>
    refine ⟨_, Table.mem_update.2 ⟨m, hm, rfl⟩, ?_⟩
    split_ifs
    · exact activeOwner_iff.2 ⟨ht, hr, hc, ha⟩
    · exact ho
  | updateMembershipRole accountId tenantId role roleId scopes =>
    simp only [Call.perform, Tables.updateMembershipRole]
    cases s.assignedScopes tenantId role scopes with
    | error e => exact ⟨m, hm, ho⟩
    | ok assigned =>
      refine ⟨_, Table.mem_update.2 ⟨m, hm, rfl⟩, ?_⟩
      split_ifs
      · exact activeOwner_iff.2 ⟨ht, hc, hs, ha⟩
      · exact ho
  | _ => exact hc.elim

/-- No call of the four operations makes a membership. -/
theorem key_of_perform (hc : Allowed history c) (hm : m ∈ (c.perform choice s).2.memberships) :
    ∃ old ∈ s.memberships, old.key = m.key := by
  have hu : ∀ {selects : MembershipRow → Bool} {change : MembershipRow → MembershipRow},
      m ∈ Table.update selects change s.memberships → (∀ m, (change m).key = m.key) →
      ∃ old ∈ s.memberships, old.key = m.key := by
    intro selects change hm hk
    obtain ⟨old, hold, rfl⟩ := Table.mem_update.1 hm
    refine ⟨old, hold, ?_⟩
    split_ifs
    · exact (hk old).symm
    · rfl
  cases hf : c.free with
  | true =>
    rw [(@perform_free s c choice hf).2] at hm
    exact ⟨m, hm, rfl⟩
  | false =>
    cases c with
    | findAccountMembership => exact ⟨m, hm, rfl⟩
    | updateAccountStatus accountId status => exact ⟨m, hm, rfl⟩
    | setMembershipStatus accountId tenantId status => exact hu hm fun _ => rfl
    | deleteMembership accountId tenantId => exact ⟨m, (List.mem_filter.1 hm).1, rfl⟩
    | updateMembershipRole accountId tenantId role roleId scopes =>
      simp only [Call.perform, Tables.updateMembershipRole] at hm
      cases hs : s.assignedScopes tenantId role scopes with
      | error e =>
        rw [hs] at hm
        exact ⟨m, hm, rfl⟩
      | ok assigned =>
        rw [hs] at hm
        exact hu hm fun _ => rfl
    | deleteAccount accountId => exact ⟨m, (List.mem_filter.1 hm).1, rfl⟩
    | replaceMembershipScopes => exact hc.elim
    | grantTenantOwnerScopes => exact hc.elim
    | updatePasswordHash => exact hc.elim
    | createMembershipInTenant => exact hc.elim
    | createAccountInTenant => exact hc.elim
    | _ => cases hf

/-- A call leaves what it performs, or nothing. -/
theorem serve_cases (c : Call) (s : Tables) (choice : Choice) :
    (c.serve s choice).2 = s ∨ (c.serve s choice).2 = (c.perform choice s).2 := by
  obtain ⟨fails, yes, found⟩ := choice
  match fails with
  | none => exact .inr rfl
  | some (true, error) => exact .inr rfl
  | some (false, error) => exact .inl rfl

/-! ### The outline -/

/-- What a reply tells for good: a row has the identifier it was read by, and an account
without memberships gets none. -/
def known (s : Tables) : Entry → Prop
  | ⟨.findAccountMembership accountId _, .ok (some target)⟩ => target.accountId = accountId
  | ⟨.countMemberships accountId, .ok count⟩ => count = 0 → ∀ m ∈ s.memberships, m.accountId ≠ accountId
  | _ => True

theorem account_of_find {target : AccountCredential}
    (h : s.findAccountMembership accountId tenantId = some target) : target.accountId = accountId := by
  unfold Tables.findAccountMembership at h
  cases ha : s.account accountId with
  | none =>
    rw [ha] at h
    cases h
  | some a =>
    have hid : a.id = accountId := by
      simpa using List.find?_some (p := fun a : AccountRow => a.id = accountId) ha
    rw [ha] at h
    cases hr : s.membershipRow accountId tenantId with
    | none =>
      rw [hr] at h
      cases h
    | some m =>
      rw [hr] at h
      rw [← Option.some.inj h]
      exact hid

theorem known_reply (c : Call) (s : Tables) (choice : Choice) :
    known (c.serve s choice).2 ⟨c, (c.serve s choice).1⟩ := by
  obtain ⟨fails, yes, found⟩ := choice
  cases c with
  | findAccountMembership accountId tenantId =>
    match fails with
    | some (kept, error) => trivial
    | none =>
      show known s ⟨.findAccountMembership accountId tenantId, .ok (s.findAccountMembership accountId tenantId)⟩
      cases h : s.findAccountMembership accountId tenantId with
      | none => trivial
      | some target => exact account_of_find h
  | countMemberships accountId =>
    match fails with
    | some (kept, error) => trivial
    | none =>
      intro hz m hm hid
      have hl : (s.memberships.filter fun m => m.accountId = accountId).length = 0 := hz
      rw [List.length_eq_zero_iff, List.filter_eq_nil_iff] at hl
      exact hl m hm (decide_eq_true hid)
  | _ => exact True.intro

theorem known_serve (hc : Allowed history c)
    {entry : Entry} (h : known s entry) : known (c.serve s choice).2 entry := by
  obtain ⟨c', reply⟩ := entry
  cases c' with
  | countMemberships accountId =>
    cases reply with
    | error e => trivial
    | ok count =>
      intro hz m hm
      rcases serve_cases c s choice with hs | hp
      · rw [hs] at hm
        exact h hz m hm
      · rw [hp] at hm
        obtain ⟨old, hold, hk⟩ := key_of_perform hc hm
        have hid : old.accountId = m.accountId := congrArg Prod.fst hk
        rw [← hid]
        exact h hz old hold
  | findAccountMembership accountId tenantId =>
    cases reply with
    | error e => trivial
    | ok target =>
      cases target with
      | none => trivial
      | some target => exact h
  | _ => exact True.intro

/-- The row of an active owner, as it is read. -/
theorem find_of_owner (hm : m ∈ s.memberships) (ho : s.activeOwner t m = true) :
    ∃ now, s.findAccountMembership m.accountId t = some now ∧ now.role = "owner" ∧
      now.status = .active ∧ now.membershipStatus = .active := by
  obtain ⟨rfl, hr, hs, hact⟩ := activeOwner_iff.1 ho
  obtain ⟨a, hacc, ha⟩ := (Option.any_eq_true _ _).1 hact
  have hrow : s.membershipRow m.accountId m.tenantId = some m := by
    cases hf : s.membershipRow m.accountId m.tenantId with
    | none => exact absurd (List.find?_eq_none.1 hf m hm) (by simp)
    | some m' =>
      have hk : m'.key = m.key := by
        simpa using List.find?_some (p := fun x : MembershipRow => x.key = (m.accountId, m.tenantId)) hf
      rw [List.inj_on_of_nodup_map s.keys (List.mem_of_find?_eq_some hf) hm hk]
  have hread : s.findAccountMembership m.accountId m.tenantId = some {
      accountId := a.id, tenantId := m.tenantId, email := a.email, displayName := a.displayName,
      passwordHash := a.passwordHash, role := m.role, roleId := m.roleId, status := a.status,
      membershipStatus := m.status, passwordChangeRequired := a.passwordChangeRequired,
      scopes := m.scopes } := by
    rw [Tables.findAccountMembership, hacc, hrow]
    rfl
  exact ⟨_, hread, hr, of_decide_eq_true ha, hs⟩

/-- **What is read of an active owner and still holds** leaves another one. -/
theorem other_of_checked
    (hk : ∀ entry ∈ history, known s entry) (hc : history.all (stillHolds s) = true)
    (hche : Checked history m.accountId t) (hm : m ∈ s.memberships)
    (ho : s.activeOwner t m = true) : 2 ≤ s.countActiveOwners t := by
  obtain ⟨id, target, hread, hid, hcou⟩ := hche
  have hs : target.accountId = id := hk _ hread
  obtain rfl : m.accountId = id := hid.symm.trans hs
  obtain ⟨now, hn, hr, hsta, hmembership⟩ := find_of_owner hm ho
  have hh := List.all_eq_true.1 hc _ hread
  rw [stillHolds, hn, Option.all_some] at hh
  simp only [Bool.and_eq_true, decide_eq_true_eq] at hh
  obtain ⟨⟨hr', hsta'⟩, hmembership'⟩ := hh
  obtain ⟨owners, ht, hmem⟩ := hcou (hr'.symm.trans hr) (hsta'.symm.trans hsta)
    (hmembership'.symm.trans hmembership)
  have hle : owners ≤ s.countActiveOwners t := of_decide_eq_true (List.all_eq_true.1 hc _ hmem)
  exact le_trans ht hle

/-- What is known of a process: its calls stand behind what it has read, and it has looked
for its target once. -/
structure Knows (s : Tables) (p : Process) : Prop where
  along : Along Allowed p.history p.rest
  known : ∀ entry ∈ p.history, known s entry
  once : (lookedIn p.history).length ≤ 1

theorem mem_lookedIn {id : String} {reply : Prog.Reply Call.Answer (.findAccountMembership id t)}
    (h : (⟨.findAccountMembership id t, reply⟩ : Entry) ∈ history) : t ∈ lookedIn history :=
  List.mem_filterMap.2 ⟨_, h, rfl⟩

/-- The one workspace a process has looked in is the one it checked the target in. -/
theorem checked_of_lookedIn
    (ho : (lookedIn history).length ≤ 1) (hc : Checked history accountId tenantId)
    (ht : t ∈ lookedIn history) : Checked history accountId t := by
  obtain ⟨id, target, hr, -⟩ := id hc
  have hs : t = tenantId := by
    have hten := mem_lookedIn hr
    match hl : lookedIn history, ho with
    | [], _ => rw [hl] at ht; cases ht
    | [x], _ =>
      rw [hl, List.mem_singleton] at ht hten
      rw [ht, hten]
  rwa [hs]

/-- **One call** leaves a workspace an owner, where it is made within the condition. -/
theorem hasOwner_serve {next : Prog.Reply Call.Answer c → Service PUnit}
    (hrest : p.rest = .call c next) (hk : Knows s p) (hc : current s p = true)
    (hown : HasOwner s t) : HasOwner (c.serve s choice).2 t := by
  rcases serve_cases c s choice with hs | hp
  · rwa [hs]
  · rw [hp]
    obtain ⟨m, hm, ho⟩ := hown
    have ha : Allowed p.history c := (hrest ▸ hk.along).ok_call
    have hoth : 2 ≤ s.countActiveOwners t →
        (∀ m', c.hits m' = true → m'.accountId = m.accountId) → HasOwner (c.perform choice s).2 t := by
      intro ht honly
      obtain ⟨m', hm', ho', hne⟩ := exists_other_owner ht m.accountId
      refine ⟨m', owner_of_not_hits ha hm' ho' ?_⟩
      by_contra hh
      exact hne (honly m' (by simpa using hh))
    have hkeyed : ∀ accountId tenantId, m.key = (accountId, tenantId) →
        (∀ m', c.hits m' = true → m'.key = (accountId, tenantId)) →
        p.history.all (stillHolds s) = true → Checked p.history accountId tenantId →
        HasOwner (c.perform choice s).2 t := by
      intro accountId tenantId hkey honly hhol hche
      obtain ⟨rfl, rfl⟩ := Prod.mk.inj hkey
      refine hoth ?_ fun m' h => congrArg Prod.fst (honly m' h)
      rw [(activeOwner_iff.1 ho).1] at hche
      exact other_of_checked hk.known hhol hche hm ho
    cases hh : c.hits m with
    | false => exact ⟨m, owner_of_not_hits ha hm ho hh⟩
    | true =>
      rw [current, hrest] at hc
      cases c with
      | updateAccountStatus accountId status =>
        obtain rfl : m.accountId = accountId := of_decide_eq_true hh
        cases status with
        | active => exact hasOwner_of_gives rfl hm ho
        | disabled =>
          rw [Bool.and_eq_true] at hc
          refine hoth ?_ fun m' h => of_decide_eq_true h
          by_cases hl : t ∈ lookedIn p.history
          · obtain ⟨tenantId, hche⟩ := ha rfl
            exact other_of_checked hk.known hc.1 (checked_of_lookedIn hk.once hche hl) hm ho
          · have hn := List.all_eq_true.1 hc.2 m hm
            obtain rfl := (activeOwner_iff.1 ho).1
            simpa [ho, hl] using hn
      | setMembershipStatus accountId tenantId status =>
        cases status with
        | active => exact hasOwner_of_gives rfl hm ho
        | disabled =>
          exact hkeyed accountId tenantId (of_decide_eq_true hh) (fun _ => of_decide_eq_true) hc
            (ha rfl)
      | deleteMembership accountId tenantId =>
        exact hkeyed accountId tenantId (of_decide_eq_true hh) (fun _ => of_decide_eq_true) hc ha
      | updateMembershipRole accountId tenantId role roleId scopes =>
        by_cases hr : role = "owner"
        · exact hasOwner_of_gives hr hm ho
        · exact hkeyed accountId tenantId (of_decide_eq_true hh) (fun _ => of_decide_eq_true) hc
            (ha hr)
      | deleteAccount accountId =>
        exact absurd (of_decide_eq_true hh) (hk.known _ ha rfl m hm)
      | _ => cases hh

/-- One call keeps what is known of the process that makes it. -/
theorem knows_move {next : Prog.Reply Call.Answer c → Service PUnit}
    (hr : p.rest = .call c next) (hk : Knows s p) :
    Knows (c.serve s choice).2
      ⟨p.history ++ [⟨c, (c.serve s choice).1⟩], next (c.serve s choice).1⟩ := by
  have ha : Allowed p.history c := (hr ▸ hk.along).ok_call
  refine ⟨(hr ▸ hk.along).next _, fun entry he => ?_, ?_⟩
  · rcases List.mem_append.1 he with he | he
    · exact known_serve ha (hk.known entry he)
    · rw [List.mem_singleton.1 he]
      exact known_reply c s choice
  · rw [lookedIn, List.filterMap_append, List.length_append]
    cases c with
    | findAccountMembership id tenantId =>
      have hn : lookedIn p.history = [] := ha
      rw [lookedIn] at hn
      rw [hn]
      exact le_rfl
    | _ => exact hk.once

end Owners

/-- The outline: the workspaces that had an active owner have one. -/
def ownersOutline (start : Tables) : Outline memberships Current where
  inv s := ∀ t, HasOwner start t → HasOwner s t
  knows := Knows
  apart _ _ := True
  apart_symm _ := trivial
  start := by
    rintro s r p - hstart
    rw [← Option.some.inj hstart]
    exact ⟨⟨along_program r, fun _ h => (nomatch h), Nat.zero_le _⟩, fun _ _ => trivial⟩
  stop hinv _ := hinv
  stop_other _ _ hq _ := hq
  move := by
    rintro s others p choice s' p' hinv hknows - hcond hnext
    obtain ⟨c, next, hrest, rfl, rfl⟩ := recorder_next hnext
    exact ⟨fun t ht => hasOwner_serve hrest hknows hcond (hinv t ht), knows_move hrest hknows⟩
  move_other := by
    rintro s others p choice s' p' q - hknows hothers - hnext hq
    obtain ⟨c, next, hrest, rfl, rfl⟩ := recorder_next hnext
    obtain ⟨hknowsq, -⟩ := hothers q hq
    have hallowed : Allowed p.history c := (hrest ▸ hknows.along).ok_call
    exact ⟨⟨hknowsq.along, fun entry hentry => known_serve hallowed (hknowsq.known entry hentry),
      hknowsq.once⟩, trivial⟩

/-- **A workspace keeps an active owner** in every run in which each write that may take one
away is made while what its process has read of the target and the owners still holds, and
no account is disabled that another workspace has as its only active owner. -/
theorem owner_remains {start : Tables} {crew : Crew Tables Process}
    (h : Crew.Reachable memberships Current start crew) {t : String}
    (hstart : 0 < start.countActiveOwners t) : 0 < crew.shared.countActiveOwners t := by
  have hi : (ownersOutline start).inv start := fun _ ht => ht
  exact hasOwner_iff.1 ((Outline.reachable hi h).inv t (hasOwner_iff.2 hstart))

/-! ### Sample runs -/

/-- A row of an account, and of an owner. -/
def sampleAccount (id : String) : AccountRow where
  id := id
  email := id
  passwordHash := ""
  displayName := id

def sampleOwner (accountId tenantId : String) : MembershipRow where
  accountId := accountId
  tenantId := tenantId
  role := "owner"
  roleId := none
  scopes := []
  createdAt := 0

/-- The owners ada and ben of one workspace; ben is the only one of another. -/
def ownedTables : Tables where
  accounts := [sampleAccount "ada", sampleAccount "ben"]
  memberships := [sampleOwner "ada" "t", sampleOwner "ben" "t", sampleOwner "ben" "u"]
  keys := by decide

/-- The session of a sample owner. -/
def sampleActor (accountId : String) : AuthActor where
  accountId := accountId
  tenantId := "t"
  email := accountId
  role := "owner"
  scopes := []

/-- Moves of the process at a position. -/
def movesOf (i n : ℕ) : List (Crew.Turn MemberRequest Choice) :=
  List.replicate n (.move i {})

/-- Nothing is left of a process. -/
def finished (p : Process) : Bool :=
  match p.rest with
  | .call .. => false
  | _ => true

/-- Two owners disable each other, each behind the other's count; and an account that is
disabled in one workspace is the only owner of another. -/
theorem owners_lost : (∃ crew, Crew.Reachable memberships (fun _ _ _ => True) ownedTables crew ∧
      crew.processes.all finished = true ∧ ownedTables.countActiveOwners "t" = 2 ∧
      crew.shared.countActiveOwners "t" = 0) ∧
    ∃ crew, Crew.Reachable memberships (fun _ _ _ => True) ownedTables crew ∧
      crew.processes.all finished = true ∧ ownedTables.countActiveOwners "u" = 1 ∧
      crew.shared.countActiveOwners "u" = 0 := by
  have hrace : (Crew.play memberships (fun _ _ _ => True) ⟨ownedTables, []⟩
      (.start (.setMembershipStatus (sampleActor "ada") "ben" .disabled 0) ::
        .start (.setMembershipStatus (sampleActor "ben") "ada" .disabled 0) ::
        movesOf 1 2 ++ movesOf 0 6 ++ movesOf 1 4)).map (fun crew =>
          (crew.processes.all finished, crew.shared.countActiveOwners "t")) = some (true, 0) := by
    decide +kernel
  have ho : (Crew.play memberships (fun _ _ _ => True) ⟨ownedTables, []⟩
      (.start (.setMemberStatus (sampleActor "ada") "ben" .disabled) :: movesOf 0 6)).map (fun crew =>
        (crew.processes.all finished, crew.shared.countActiveOwners "u")) = some (true, 0) := by
    decide +kernel
  obtain ⟨crew, hc, hr⟩ := Option.map_eq_some_iff.1 hrace
  obtain ⟨crew', hc', hr'⟩ := Option.map_eq_some_iff.1 ho
  obtain ⟨hf, hcou⟩ := Prod.mk.inj hr
  obtain ⟨hf', hcou'⟩ := Prod.mk.inj hr'
  exact ⟨⟨crew, Crew.reachable_of_play hc, hf, by decide +kernel, hcou⟩,
    ⟨crew', Crew.reachable_of_play hc', hf', by decide +kernel, hcou'⟩⟩

/-- One owner removes the other from a workspace. -/
theorem owner_remains_ada : ∃ crew, Crew.Reachable memberships Current ownedTables crew ∧
    crew.shared.memberships.length = 2 ∧ 0 < crew.shared.countActiveOwners "t" := by
  have hp : (Crew.play memberships (fun s _ p => current s p = true) ⟨ownedTables, []⟩
      (.start (.removeMember (sampleActor "ada") "ben") :: movesOf 0 5)).map
      (fun crew => crew.shared.memberships.length) = some 2 := by decide +kernel
  obtain ⟨crew, hc, hl⟩ := Option.map_eq_some_iff.1 hp
  have hr : Crew.Reachable memberships Current ownedTables crew :=
    (Crew.reachable_of_play hc).mono fun _ _ _ h => h
  exact ⟨crew, hr, hl, owner_remains hr (by decide +kernel)⟩

end Flowdular.Auth
