/-
# One-time links

`src/modules/auth/src/services/auth-service.ts`, lines 2035-2093 (`completePasswordReset`)
and 2149-2225 (`acceptTenantInvitation`).

Submissions of one password reset link, or of one invitation link, take turns call by call.
A reset checks the password before it consumes the link, so that "a refused password leaves
the link usable instead of stranding the visitor with a dead one".  An acceptance consumes
the link first and checks everything behind it.

Where an acceptance that consumes a link would be refused by none of these checks, a link is
spent by the one submission that takes effect (`links_spent_once`).
-/

import Flowdular.Auth.RoleScopes

namespace Flowdular.Auth

open Lib Workflows
open Discipline (All all_bind)
open Prog (Recorded recorder recorder_signed_enter recorder_signed_next Returns returns_bind returns_need_bind returns_orElse Within
  within_pure within_fail within_bind within_need within_ofExcept)

/-! ### Password resets -/

/-- `RESET_TOKEN_INVALID`. -/
def resetTokenInvalid : String :=
  authServiceError "RESET_TOKEN_INVALID" "This password reset link is invalid or has expired." 400

/-- The account a reset link names. -/
def namedAccount (tokenHash : String) (now : ℤ) : Service (Option AccountCredential) := do
  let named ← call (.findPasswordResetTokenAccount tokenHash now)
  match named with
  | none => .pure none
  | some accountId => findAccountCredentialById accountId

section

variable [AuthText]

/-- `completePasswordReset` behind the link. -/
def changePassword (account : AccountCredential) (passwordHash : String) :
    Option String → Service PUnit
  | none => .fail resetTokenInvalid
  | some accountId => do
    let _ ← call (.updatePasswordHash accountId passwordHash false)
    let _ ← deleteAccountSessions accountId
    let _ ← call (.outside "clearSignInFailures" [normalizeEmail account.email])
    audit account.tenantId account.accountId "auth.password-reset.completed" "account"
      account.accountId []

/-- `completePasswordReset`; the clock is read twice, and the digest of the password is
drawn. -/
def completePasswordReset (token password : String) (minLength : ℕ) (now later : ℤ)
    (passwordHash : String) : Service PUnit := do
  let _ ← require (challengePattern token = true) resetTokenInvalid
  let tokenHash := AuthText.hashSessionToken token
  let account ← namedAccount tokenHash now
  match account.filter fun account => account.status = .active with
  | none => .fail resetTokenInvalid
  | some account =>
    let _ ← Prog.ofExcept (validatePassword password minLength account.email)
    let accountId ← call (.consumePasswordResetToken tokenHash later)
    changePassword account passwordHash accountId

/-! ### The machine -/

/-- A link that was sent. -/
inductive Link
  | passwordReset (token : String)
  | invitation (token : String)

/-- What is submitted with a link, and when; a reset asks for no display name. -/
structure Submission where
  displayName : String := ""
  password : String
  now : ℤ
  later : ℤ
  draws : Draws := {}

/-- The program that answers a submission, under a policy for passwords. -/
def Link.submit (minLength : ℕ) : Link → Submission → Service PUnit
  | .passwordReset token, sub =>
    completePasswordReset token sub.password minLength sub.now sub.later sub.draws.passwordHash
  | .invitation token, sub =>
    acceptTenantInvitation token sub.displayName sub.password minLength sub.now sub.draws

/-- An outcome of a call: where it fails, it does not claim that an address is taken. -/
abbrev Outcome :=
  { choice : Choice // ∀ kept, choice.fails ≠ some (kept, Tables.duplicateAccountError) }

/-- A call, answered with an outcome. -/
def Call.settle (c : Call) (s : Tables) (outcome : Outcome) : Prog.Reply Call.Answer c × Tables :=
  c.serve s outcome.1

/-- A submission and its process. -/
abbrev Submitted :=
  Submission × Process

/-- The submissions of one link. -/
def submissions (minLength : ℕ) (link : Link) : Machine Tables Submitted Submission Outcome :=
  (recorder (link.submit minLength) Call.settle).signed

end

/-! ### What a submission has done -/

/-- A call that leaves the tables as they are, whatever they are, where it is replied to like
this. -/
def Harmless (entry : Entry) : Prop :=
  ∀ s outcome, (entry.1.settle s outcome).1 = entry.2 → (entry.1.settle s outcome).2 = s

/-- A call that consumed a link. -/
def consumed (entry : Entry) : Bool :=
  match entry with
  | ⟨.consumePasswordResetToken .., .ok (some _)⟩ => true
  | ⟨.consumeTenantInvitation .., .ok (some _)⟩ => true
  | _ => false

/-- A call that failed, and not because an address is taken. -/
def failed (entry : Entry) : Bool :=
  match entry.2 with
  | .ok _ => false
  | .error e => e ≠ Tables.duplicateAccountError

/-- A submission takes effect with the link. -/
def tookEffect (p : Submitted) : Bool :=
  p.2.history.any consumed

/-- A submission has returned. -/
def returned (p : Submitted) : Bool :=
  match p.2.rest with
  | .pure _ => true
  | _ => false

/-- A submission is refused: it has failed, and none of its calls has. -/
def refused (p : Submitted) : Bool :=
  match p.2.rest with
  | .fail _ => p.2.history.all fun entry => !failed entry
  | _ => false

/-! ### The condition -/

/-- The credential `findAccountCredentialById` reads. -/
def Tables.credentialById (s : Tables) (accountId : String) : Option AccountCredential := do
  let tenantId ← s.tenantOfAccount accountId
  s.findAccountMembership accountId tenantId

/-- The credential `findAccountByEmail` reads. -/
def Tables.credentialByEmail (s : Tables) (email : String) : Option AccountCredential := do
  let identity ← s.findAccountIdentity email
  s.credentialById identity.accountId

section

variable [AuthText]

/-- No check of an acceptance refuses: the role is there, and an account that is found is no
member, or what is submitted is in order and the address is free. -/
def invitationPasses (minLength : ℕ) (s : Tables) (displayName password : String)
    (invitation : InvitationRow) : Bool :=
  (s.findRoleByKey invitation.tenantId invitation.roleKey).isSome &&
    match s.credentialByEmail invitation.normalizedEmail with
    | some existing => (s.findAccountMembership existing.accountId invitation.tenantId).isNone
    | none =>
      (validateCreateTenantMember
        { tenantId := invitation.tenantId, email := invitation.email, displayName, password
          role := invitation.roleKey } minLength).toBool &&
        s.accounts.all fun a => a.email ≠ normalizeEmail invitation.email

/-- The condition on a move: an invitation is consumed where no check behind refuses. -/
def consumesPassing (minLength : ℕ) (s : Tables) (p : Submitted) : Bool :=
  match p.2.rest with
  | .call (.consumeTenantInvitation tokenHash now) _ =>
    (s.consumeTenantInvitation tokenHash now).1.all
      (invitationPasses minLength s p.1.displayName p.1.password)
  | _ => true

/-- `consumesPassing`, as a condition of the machine. -/
def ConsumesPassing (minLength : ℕ) : Machine.Condition Tables Submitted :=
  fun s _ p => consumesPassing minLength s p = true

/-- A submission that no check refuses while the link is live. -/
def welcome (minLength : ℕ) (s : Tables) (sub : Submission) : Link → Bool
  | .passwordReset token =>
    challengePattern token &&
      (((s.findPasswordResetTokenAccount (AuthText.hashSessionToken token) sub.now).bind
        s.credentialById).any fun account =>
          decide (account.status = .active) &&
            (validatePassword sub.password minLength account.email : Except String Unit).toBool) &&
      (s.consumePasswordResetToken (AuthText.hashSessionToken token) sub.later).1.isSome
  | .invitation token =>
    challengePattern token &&
      (s.consumeTenantInvitation (AuthText.hashSessionToken token) sub.now).1.any
        (invitationPasses minLength s sub.displayName sub.password)

end

/-! ### Calls on the links -/

/-- A call of a submission that reads. -/
def Call.reads : Call → Bool
  | .findAccountMembership .. => true
  | .findAccountIdentity _ => true
  | .tenantOfAccount _ => true
  | .findRoleByKey .. => true
  | .findPasswordResetTokenAccount .. => true
  | _ => false

/-- A call of a submission that leaves the links. -/
def Call.leavesLinks : Call → Bool
  | .createMembershipInTenant _ => true
  | .createAccountInTenant .. => true
  | .updatePasswordHash .. => true
  | .sessionTenants _ => true
  | .deleteMembershipSessions .. => true
  | .appendAudit .. => true
  | .outside .. => true
  | c => c.reads

/-- The digests of links are keys. -/
structure LinksKeyed (s : Tables) : Prop where
  passwordResets : (s.passwordResets.map (·.tokenHash)).Nodup
  invitations : (s.invitations.map (·.tokenHash)).Nodup

section Calls

variable {s s' : Tables} {c : Call} {outcome : Outcome}

/-- A call that is answered was performed. -/
theorem settle_ok {a : c.Answer} (h : (c.settle s outcome).1 = .ok a) :
    c.settle s outcome = c.perform outcome.1 s := by
  unfold Call.settle Call.serve at h ⊢
  split at h
  · rfl
  · cases h

/-- A call that fails because an address is taken was performed. -/
theorem settle_error {e : String} (h : (c.settle s outcome).1 = .error e)
    (hp : ∀ choice, (c.perform choice s).1 ≠ .error Tables.duplicateAccountError) :
    e ≠ Tables.duplicateAccountError := by
  obtain ⟨⟨fails, yes, found, listed⟩, hf⟩ := outcome
  rintro rfl
  unfold Call.settle Call.serve at h
  split at h
  · exact hp _ h
  · next kept error hs =>
    rw [Except.error.injEq] at h
    exact hf kept (h ▸ hs)

theorem settle_reads (h : c.reads = true) : (c.settle s outcome).2 = s := by
  rcases serve_cases c s outcome.1 with hs | hp
  · exact hs
  · rw [Call.settle, hp]
    cases c with
    | findAccountMembership => rfl
    | findAccountIdentity => rfl
    | tenantOfAccount => rfl
    | findRoleByKey => rfl
    | findPasswordResetTokenAccount => rfl
    | _ => cases h

variable {m : MembershipRow} {now : ℤ} {tokenHash : String}

theorem links_insertMembership (h : s.insertMembership m = .ok s') :
    s'.passwordResets = s.passwordResets ∧ s'.invitations = s.invitations ∧ s'.accounts = s.accounts := by
  rw [Tables.insertMembership] at h
  split at h
  · cases h
  · cases h
    exact ⟨rfl, rfl, rfl⟩

theorem links_createMembershipInTenant {account : Option AccountCredential}
    (h : s.createMembershipInTenant m = .ok (s', account)) :
    s'.passwordResets = s.passwordResets ∧ s'.invitations = s.invitations := by
  rw [Tables.createMembershipInTenant] at h
  obtain ⟨assigned, -, h⟩ := bind_eq_ok h
  dsimp only at h
  split_ifs at h
  obtain ⟨s₁, hi, h⟩ := bind_eq_ok h
  cases h
  have hl := links_insertMembership hi
  exact ⟨hl.1, hl.2.1⟩

theorem links_createAccountInTenant {a : AccountRow}
    {account : Option AccountCredential} (h : s.createAccountInTenant a m = .ok (s', account)) :
    s'.passwordResets = s.passwordResets ∧ s'.invitations = s.invitations := by
  rw [Tables.createAccountInTenant] at h
  obtain ⟨assigned, -, h⟩ := bind_eq_ok h
  split_ifs at h
  have hl := links_createMembershipInTenant h
  exact hl

theorem links_answered {α : Type} {r : Except String (Tables × α)} (h : ∀ s' a, r = .ok (s', a) →
      s'.passwordResets = s.passwordResets ∧ s'.invitations = s.invitations) :
    (answered s r).2.passwordResets = s.passwordResets ∧ (answered s r).2.invitations = s.invitations := by
  cases r with
  | error e => exact ⟨rfl, rfl⟩
  | ok result => exact h result.1 result.2 rfl

/-- What the calls behind a link leave of the links. -/
theorem settle_leaves (h : c.leavesLinks = true) :
    (c.settle s outcome).2.passwordResets = s.passwordResets ∧
      (c.settle s outcome).2.invitations = s.invitations := by
  rcases serve_cases c s outcome.1 with hs | hp
  · rw [Call.settle, hs]
    exact ⟨rfl, rfl⟩
  · rw [Call.settle, hp]
    cases c with
    | createMembershipInTenant m => exact links_answered fun _ _ => links_createMembershipInTenant
    | createAccountInTenant a m => exact links_answered fun _ _ => links_createAccountInTenant
    | updatePasswordHash => exact ⟨rfl, rfl⟩
    | sessionTenants => exact ⟨rfl, rfl⟩
    | deleteMembershipSessions => exact ⟨rfl, rfl⟩
    | appendAudit => exact ⟨rfl, rfl⟩
    | outside => exact ⟨rfl, rfl⟩
    | findAccountMembership => exact ⟨rfl, rfl⟩
    | findAccountIdentity => exact ⟨rfl, rfl⟩
    | tenantOfAccount => exact ⟨rfl, rfl⟩
    | findRoleByKey => exact ⟨rfl, rfl⟩
    | findPasswordResetTokenAccount => exact ⟨rfl, rfl⟩
    | _ => cases h

theorem consumed_leaves (h : c.leavesLinks = true) {r : Prog.Reply Call.Answer c} :
    consumed ⟨c, r⟩ = false := by
  cases c with
  | consumePasswordResetToken => cases h
  | consumeTenantInvitation => cases h
  | _ => rfl

theorem reads_leaves (h : c.reads = true) : c.leavesLinks = true := by
  cases c with
  | findAccountMembership => rfl
  | findAccountIdentity => rfl
  | tenantOfAccount => rfl
  | findRoleByKey => rfl
  | findPasswordResetTokenAccount => rfl
  | _ => cases h

/-- A consumption that finds nothing changes nothing. -/
theorem consumePasswordResetToken_none (h : (s.consumePasswordResetToken tokenHash now).1 = none) :
    (s.consumePasswordResetToken tokenHash now).2 = s := by
  have hr := List.find?_eq_none.1 (Option.map_eq_none_iff.1 h)
  have hs : Table.update _ (fun x : PasswordResetRow => { x with usedAt := some now }) s.passwordResets = s.passwordResets :=
    Table.update_eq_self fun row hrow => Bool.eq_false_iff.2 (hr row hrow)
  exact congrArg (fun rows => { s with passwordResets := rows }) hs

theorem consumeTenantInvitation_none (h : (s.consumeTenantInvitation tokenHash now).1 = none) :
    (s.consumeTenantInvitation tokenHash now).2 = s := by
  have hr := List.find?_eq_none.1 h
  have hs : Table.update _ (fun x : InvitationRow => { x with acceptedAt := some now }) s.invitations = s.invitations :=
    Table.update_eq_self fun row hrow => Bool.eq_false_iff.2 (hr row hrow)
  exact congrArg (fun rows => { s with invitations := rows }) hs

end Calls

section Consumption

variable [AuthText] {s : Tables} {c : Call} {outcome : Outcome} {link : Link}

/-- The link has been consumed. -/
def Link.closed (s : Tables) : Link → Prop
  | .passwordReset token => ∀ row ∈ s.passwordResets,
      row.tokenHash = AuthText.hashSessionToken token → row.usedAt ≠ none
  | .invitation token => ∀ row ∈ s.invitations,
      row.tokenHash = AuthText.hashSessionToken token → row.acceptedAt ≠ none

/-- A call that consumes the link. -/
def Link.consumes (link : Link) (c : Call) : Prop :=
  match link, c with
  | .passwordReset token, .consumePasswordResetToken tokenHash _ =>
    tokenHash = AuthText.hashSessionToken token
  | .invitation token, .consumeTenantInvitation tokenHash _ =>
    tokenHash = AuthText.hashSessionToken token
  | _, _ => False

/-- A link that was consumed is not found. -/
theorem consume_closed (hc : link.consumes c) (h : link.closed s) :
    (c.settle s outcome).2 = s ∧ consumed ⟨c, (c.settle s outcome).1⟩ = false := by
  have hset : ∀ {r : Prog.Reply Call.Answer c}, (∀ choice, c.perform choice s = (r, s)) →
      (c.settle s outcome).2 = s ∧ ((c.settle s outcome).1 = r ∨ ∃ e, (c.settle s outcome).1 = .error e) := by
    intro r hp
    unfold Call.settle Call.serve
    split
    · rw [hp]
      exact ⟨rfl, .inl rfl⟩
    · rw [hp]
      exact ⟨ite_self s, .inr ⟨_, rfl⟩⟩
  cases link with
  | passwordReset token =>
    cases c with
    | consumePasswordResetToken tokenHash now =>
      obtain rfl : tokenHash = AuthText.hashSessionToken token := hc
      have hn : (s.consumePasswordResetToken (AuthText.hashSessionToken token) now).1 = none := by
        refine Option.map_eq_none_iff.2 (List.find?_eq_none.2 fun row hrow hl => ?_)
        simp only [Bool.and_eq_true, decide_eq_true_eq] at hl
        exact h row hrow hl.1.1 hl.1.2
      obtain ⟨hs, hr⟩ := hset (r := .ok none) fun choice =>
        Prod.ext (congrArg Except.ok hn) (consumePasswordResetToken_none hn)
      refine ⟨hs, ?_⟩
      rcases hr with hr | ⟨e, hr⟩ <;> rw [hr] <;> rfl
    | _ => exact hc.elim
  | invitation token =>
    cases c with
    | consumeTenantInvitation tokenHash now =>
      obtain rfl : tokenHash = AuthText.hashSessionToken token := hc
      have hn : (s.consumeTenantInvitation (AuthText.hashSessionToken token) now).1 = none := by
        refine List.find?_eq_none.2 fun row hrow hl => ?_
        simp only [Bool.and_eq_true, decide_eq_true_eq] at hl
        exact h row hrow hl.1.1 hl.1.2
      obtain ⟨hs, hr⟩ := hset (r := .ok none) fun choice =>
        Prod.ext (congrArg Except.ok hn) (consumeTenantInvitation_none hn)
      refine ⟨hs, ?_⟩
      rcases hr with hr | ⟨e, hr⟩ <;> rw [hr] <;> rfl
    | _ => exact hc.elim

/-- A consumption that finds nothing is harmless, or it failed. -/
theorem consume_harmless (hc : link.consumes c) (h : consumed ⟨c, (c.settle s outcome).1⟩ = false) :
    Harmless ⟨c, (c.settle s outcome).1⟩ ∨ failed ⟨c, (c.settle s outcome).1⟩ = true := by
  cases hr : (c.settle s outcome).1 with
  | error e =>
    refine .inr (decide_eq_true (settle_error hr fun choice => ?_))
    cases c with
    | consumePasswordResetToken => exact fun h => (nomatch h)
    | consumeTenantInvitation => exact fun h => (nomatch h)
    | _ => cases link <;> exact hc.elim
  | ok a =>
    refine .inl fun s' outcome' hr' => ?_
    have hs := settle_ok hr'
    rw [hs] at hr' ⊢
    rw [hr] at h
    cases c with
    | consumePasswordResetToken tokenHash now =>
      cases a with
      | some accountId => cases h
      | none => exact consumePasswordResetToken_none (Except.ok.inj hr')
    | consumeTenantInvitation tokenHash now =>
      cases a with
      | some row => cases h
      | none => exact consumeTenantInvitation_none (Except.ok.inj hr')
    | _ => cases link <;> exact hc.elim

theorem consume_keyed (hc : link.consumes c) (h : LinksKeyed s) : LinksKeyed (c.settle s outcome).2 := by
  rcases serve_cases c s outcome.1 with hs | hp
  · rwa [Call.settle, hs]
  · rw [Call.settle, hp]
    cases c with
    | consumePasswordResetToken tokenHash now =>
      refine ⟨?_, h.invitations⟩
      show (List.map (·.tokenHash) (Table.update _ _ s.passwordResets)).Nodup
      rw [Table.map_update fun x : PasswordResetRow => x.tokenHash]
      · exact h.passwordResets
      · exact fun _ => rfl
    | consumeTenantInvitation tokenHash now =>
      refine ⟨h.passwordResets, ?_⟩
      show (List.map (·.tokenHash) (Table.update _ _ s.invitations)).Nodup
      rw [Table.map_update fun x : InvitationRow => x.tokenHash]
      · exact h.invitations
      · exact fun _ => rfl
    | _ => cases link <;> exact hc.elim

/-- **A consumption that finds the link consumes it**: it has one row. -/
theorem consume_closes (hk : LinksKeyed s) (hc : link.consumes c)
    (h : consumed ⟨c, (c.settle s outcome).1⟩ = true) : link.closed (c.settle s outcome).2 := by
  cases hr : (c.settle s outcome).1 with
  | error e =>
    rw [hr] at h
    cases c with
    | consumePasswordResetToken => cases h
    | consumeTenantInvitation => cases h
    | _ => cases link <;> exact hc.elim
  | ok a =>
    rw [hr] at h
    have hset := settle_ok hr
    rw [hset] at hr ⊢
    cases link with
    | passwordReset token =>
      cases c with
      | consumePasswordResetToken tokenHash now =>
        obtain rfl : tokenHash = AuthText.hashSessionToken token := hc
        cases a with
        | none => cases h
        | some accountId =>
          obtain ⟨row, hf, -⟩ := Option.map_eq_some_iff.1 (Except.ok.inj hr)
          have hl := List.find?_some hf
          intro row' hrow' hh
          obtain ⟨old, hold, rfl⟩ := Table.mem_update.1 hrow'
          split_ifs at hh ⊢ with hsel
          · exact Option.some_ne_none _
          · have hs : row.tokenHash = old.tokenHash := by
              simp only [Bool.and_eq_true, decide_eq_true_eq] at hl
              exact hl.1.1.trans hh.symm
            rw [List.inj_on_of_nodup_map hk.passwordResets (List.mem_of_find?_eq_some hf) hold
              hs] at hl
            exact absurd hl hsel
      | _ => exact hc.elim
    | invitation token =>
      cases c with
      | consumeTenantInvitation tokenHash now =>
        obtain rfl : tokenHash = AuthText.hashSessionToken token := hc
        cases a with
        | none => cases h
        | some row =>
          have hf := Except.ok.inj hr
          have hl := List.find?_some hf
          intro row' hrow' hh
          obtain ⟨old, hold, rfl⟩ := Table.mem_update.1 hrow'
          split_ifs at hh ⊢ with hsel
          · exact Option.some_ne_none _
          · have hs : row.tokenHash = old.tokenHash := by
              simp only [Bool.and_eq_true, decide_eq_true_eq] at hl
              exact hl.1.1.trans hh.symm
            rw [List.inj_on_of_nodup_map hk.invitations (List.mem_of_find?_eq_some hf) hold
              hs] at hl
            exact absurd hl hsel
      | _ => exact hc.elim

end Consumption

/-! ### Behind a link -/

/-- A program returns within `post` with nobody else about, unless a call fails. -/
abbrev Settles {α : Type} (post : α → Tables → Prop) (p : Service α) (s : Tables) : Prop :=
  p.Returns Call.settle (· = Tables.duplicateAccountError) post s

section Settling

variable {α β : Type} {post : α → Tables → Prop} {s : Tables} {c : Call}

variable {f : c.Answer → Service α} {v : c.Answer} {tenantId e : String} {condition : Prop}
  {m : MembershipRow} {s' : Tables} {a : AccountRow} {r : Except String (Tables × α)}

theorem settles_call_bind
    (hp : ∀ choice, (c.perform choice s).1 ≠ .error Tables.duplicateAccountError)
    (hf : ∀ choice a, (c.perform choice s).1 = .ok a → Settles post (f a) (c.perform choice s).2) :
    Settles post (call c >>= f) s := by
  refine returns_need_bind (fun outcome a ha => ?_) fun outcome e he => settle_error he hp
  have hs := settle_ok ha
  rw [hs] at ha ⊢
  exact hf outcome.1 a ha

theorem settles_read_bind
    (hr : ∀ choice, c.perform choice s = (.ok v, s)) (hf : Settles post (f v) s) :
    Settles post (call c >>= f) s := by
  refine settles_call_bind (fun choice => ?_) fun choice a ha => ?_
  · rw [hr]
    exact fun h => (nomatch h)
  · rw [hr] at ha ⊢
    rwa [← Except.ok.inj ha]

theorem settles_read (hr : ∀ choice, c.perform choice s = (.ok v, s)) :
    Settles (fun a s' => a = v ∧ s' = s) (call c) s := by
  have h : Settles (fun a s' => a = v ∧ s' = s) (call c >>= Prog.pure) s :=
    settles_read_bind hr ⟨rfl, rfl⟩
  exact Prog.bind_pure (p := call c) ▸ h

theorem settles_audit {actorId action subjectType subjectId : String}
    {metadata : List (String × Json)} :
    Settles (fun _ _ => True) (audit tenantId actorId action subjectType subjectId metadata) s := by
  have h : Settles (fun _ _ => True)
      (call (.appendAudit tenantId actorId action subjectType subjectId metadata) >>= Prog.pure) s :=
    settles_read_bind (v := ⟨⟩) (fun _ => rfl) trivial
  rw [Prog.bind_pure] at h
  exact returns_orElse h

theorem settles_ofExcept_bind {x : Except String β} {b : β} {f : β → Service α} (hx : x = .ok b)
    (hf : Settles post (f b) s) : Settles post (Prog.ofExcept x >>= f) s := by
  subst hx
  exact hf

theorem settles_require_bind [Decidable condition]
    {f : PUnit → Service α} (h : condition) (hf : Settles post (f ⟨⟩) s) :
    Settles post (require condition e >>= f) s := by
  unfold require
  rw [if_pos h]
  exact hf

theorem settles_whenever_bind [Decidable condition] {p : Service PUnit}
    {f : PUnit → Service α} (h : ¬ condition) (hf : Settles post (f ⟨⟩) s) :
    Settles post (whenever condition p >>= f) s := by
  unfold whenever
  rw [if_neg h]
  exact hf

theorem settles_findAccountCredentialById {accountId : String} :
    Settles (fun a s' => a = s.credentialById accountId ∧ s' = s) (findAccountCredentialById accountId)
      s := by
  unfold findAccountCredentialById
  refine settles_read_bind (fun _ => rfl) ?_
  have hv : s.credentialById accountId =
      (s.tenantOfAccount accountId).bind (s.findAccountMembership accountId) := rfl
  rw [hv]
  cases s.tenantOfAccount accountId with
  | none => exact ⟨rfl, rfl⟩
  | some tenantId => exact settles_read fun _ => rfl

theorem settles_findAccountByEmail {email : String} :
    Settles (fun a s' => a = s.credentialByEmail email ∧ s' = s) (findAccountByEmail email) s := by
  unfold findAccountByEmail
  refine settles_read_bind (fun _ => rfl) ?_
  have hv : s.credentialByEmail email =
      (s.findAccountIdentity email).bind fun identity => s.credentialById identity.accountId := rfl
  rw [hv]
  cases s.findAccountIdentity email with
  | none => exact ⟨rfl, rfl⟩
  | some identity => exact settles_findAccountCredentialById

theorem settles_namedAccount {tokenHash : String} {now : ℤ} :
    Settles (fun a s' => a = (s.findPasswordResetTokenAccount tokenHash now).bind s.credentialById ∧ s' = s)
      (namedAccount tokenHash now) s := by
  unfold namedAccount
  refine settles_read_bind (fun _ => rfl) ?_
  cases s.findPasswordResetTokenAccount tokenHash now with
  | none => exact ⟨rfl, rfl⟩
  | some accountId => exact settles_findAccountCredentialById

theorem settles_deleteSessionsIn {accountId : String} {tenants : List String} :
    Settles (fun _ _ => True) (deleteSessionsIn accountId tenants) s := by
  induction tenants generalizing s with
  | nil => exact trivial
  | cons tenantId tenants ih =>
    exact settles_call_bind (fun _ h => (nomatch h)) fun _ _ _ => ih

theorem settles_deleteAccountSessions {accountId : String} :
    Settles (fun _ _ => True) (deleteAccountSessions accountId) s :=
  settles_read_bind (fun _ => rfl) settles_deleteSessionsIn

/-! ### What the inserts answer -/

theorem assignedScopes_error {role : String} {scopes : List String}
    (h : s.assignedScopes tenantId role scopes = .error e) : e ≠ Tables.duplicateAccountError := by
  unfold Tables.assignedScopes at h
  split_ifs at h
  split at h
  · rw [← Except.error.inj h]
    decide
  · cases h

theorem createMembershipInTenant_error
    (h : s.createMembershipInTenant m = .error e) : e ≠ Tables.duplicateAccountError := by
  rw [Tables.createMembershipInTenant] at h
  cases ha : s.assignedScopes m.tenantId m.role m.scopes with
  | error e' =>
    rw [ha] at h
    exact Except.error.inj h ▸ assignedScopes_error ha
  | ok assigned =>
    rw [ha] at h
    dsimp only [bind, Except.bind] at h
    split_ifs at h
    · rw [← Except.error.inj h]
      decide
    · unfold Tables.insertMembership at h
      split_ifs at h
      · rw [← Except.error.inj h]
        decide
      · cases h

/-- A membership that was inserted is found. -/
theorem createMembershipInTenant_isSome
    {account : Option AccountCredential} (h : s.createMembershipInTenant m = .ok (s', account)) :
    account.isSome = true := by
  rw [Tables.createMembershipInTenant] at h
  obtain ⟨assigned, -, h⟩ := bind_eq_ok h
  dsimp only at h
  split_ifs at h with hn
  obtain ⟨_, hi, h⟩ := bind_eq_ok h
  cases h
  obtain ⟨a, ha⟩ : ∃ a, s.account m.accountId = some a :=
    Option.ne_none_iff_exists'.1 fun h => hn (Option.isNone_iff_eq_none.2 h)
  have hacc : s'.account m.accountId = some a := by
    rw [Tables.account, (links_insertMembership hi).2.2]
    exact ha
  have hr : (s'.membershipRow m.accountId m.tenantId).isSome = true := by
    unfold Tables.insertMembership at hi
    split_ifs at hi
    cases hi
    rw [Tables.membershipRow, List.find?_isSome]
    exact ⟨_, List.mem_append_right _ (List.mem_singleton_self _), decide_eq_true rfl⟩
  obtain ⟨row, hr⟩ := Option.isSome_iff_exists.1 hr
  have hv : s'.findAccountMembership m.accountId m.tenantId =
      (s'.account m.accountId).bind fun a => (s'.membershipRow m.accountId m.tenantId).bind fun m => some {
        accountId := a.id, tenantId := m.tenantId, email := a.email, displayName := a.displayName,
        passwordHash := a.passwordHash, role := m.role, roleId := m.roleId, status := a.status,
        membershipStatus := m.status, passwordChangeRequired := a.passwordChangeRequired,
        scopes := m.scopes } := rfl
  rw [hv, hacc, hr]
  rfl

theorem createAccountInTenant_error (hf : ∀ other ∈ s.accounts, other.email ≠ a.email)
    (h : s.createAccountInTenant a m = .error e) : e ≠ Tables.duplicateAccountError := by
  rw [Tables.createAccountInTenant] at h
  cases ha : s.assignedScopes m.tenantId m.role m.scopes with
  | error e' =>
    rw [ha] at h
    exact Except.error.inj h ▸ assignedScopes_error ha
  | ok assigned =>
    rw [ha] at h
    dsimp only [bind, Except.bind] at h
    split_ifs at h with he
    · obtain ⟨other, ho, heq⟩ := List.any_eq_true.1 he
      exact absurd (of_decide_eq_true heq) (hf other ho)
    · rw [← Except.error.inj h]
      decide
    · exact createMembershipInTenant_error h

theorem createAccountInTenant_isSome
    {account : Option AccountCredential} (h : s.createAccountInTenant a m = .ok (s', account)) :
    account.isSome = true := by
  rw [Tables.createAccountInTenant] at h
  obtain ⟨assigned, -, h⟩ := bind_eq_ok h
  split_ifs at h
  have hs := createMembershipInTenant_isSome h
  exact hs

theorem answered_error (h : (answered s r).1 = .error e) : r = .error e := by
  cases r with
  | error e' => exact congrArg Except.error (Except.error.inj h)
  | ok result => cases h

theorem answered_ok {a : α} (h : (answered s r).1 = .ok a) : ∃ s', r = .ok (s', a) := by
  cases r with
  | error e => cases h
  | ok result =>
    obtain ⟨s', a'⟩ := result
    rw [← Except.ok.inj h]
    exact ⟨s', rfl⟩

end Settling

section Programs

variable [AuthText] {s : Tables}

variable {draws : Draws} {input : CreateTenantMemberInput} {minLength : ℕ}

omit [AuthText] in
/-- **The member an invitation makes**, where the address is free. -/
theorem settles_createMember (hf : ∀ a ∈ s.accounts, a.email ≠ input.email) :
    Settles (fun _ _ => True) (createMember input none draws) s := by
  have hi : ∀ roleId scopes, Settles (fun _ _ => True) (insertMember none input draws roleId scopes) s := by
    intro roleId scopes
    unfold insertMember
    refine settles_call_bind (fun _ h => ?_) fun _ account ha => ?_
    · exact createAccountInTenant_error hf (answered_error h) rfl
    · obtain ⟨s', hs'⟩ := answered_ok ha
      obtain ⟨account', rfl⟩ := Option.isSome_iff_exists.1 (createAccountInTenant_isSome hs')
      exact trivial
  have hr : Settles (fun _ s' => s' = s) (roleOfMember none input.tenantId input.role) s := by
    unfold roleOfMember
    refine settles_read_bind (fun _ => rfl) ?_
    cases s.findRoleByKey input.tenantId input.role with
    | none => exact rfl
    | some role => exact rfl
  unfold createMember renamed
  refine settles_whenever_bind (fun h => (nomatch h)) (returns_bind (hr.mono fun given s' hs' => ?_))
  subst hs'
  exact returns_orElse (hi given.1 given.2)

/-- What is submitted keeps the address. -/
theorem email_of_validate {raw : CreateTenantMemberInput}
    (h : validateCreateTenantMember raw minLength = .ok input) : input.email = normalizeEmail raw.email := by
  unfold validateCreateTenantMember at h
  obtain ⟨displayName, -, h⟩ := bind_eq_ok h
  obtain ⟨⟨⟩, -, h⟩ := bind_eq_ok h
  obtain ⟨⟨⟩, -, h⟩ := bind_eq_ok h
  split_ifs at h
  obtain ⟨role, -, h⟩ := bind_eq_ok h
  exact (Except.ok.inj h) ▸ rfl

/-- **An acceptance that passes** returns. -/
theorem settles_acceptInvitation {invitation : InvitationRow} {displayName password : String}
    (h : invitationPasses minLength s displayName password invitation = true) :
    Settles (fun _ _ => True) (acceptInvitation invitation displayName password minLength draws) s := by
  unfold invitationPasses at h
  obtain ⟨hr, hj⟩ := Bool.and_eq_true_iff.1 h
  obtain ⟨role, hr⟩ := Option.isSome_iff_exists.1 hr
  unfold acceptInvitation
  refine settles_read_bind (v := some role) (fun _ => congrArg (fun r => (Except.ok r, s)) hr) ?_
  refine returns_bind (settles_findAccountByEmail.mono fun existing s' he => ?_)
  obtain ⟨rfl, rfl⟩ := he
  refine returns_bind (Returns.mono (fun _ _ _ => settles_audit) (?_ : Settles (fun _ _ => True) _ _))
  cases hf : s'.credentialByEmail invitation.normalizedEmail with
  | some existing =>
    rw [hf] at hj
    have hn : (s'.findAccountMembership existing.accountId invitation.tenantId).isNone = true := hj
    rw [joinInvited, joinTenant]
    refine settles_read_bind (fun _ => rfl) ?_
    refine settles_require_bind hn ?_
    refine settles_call_bind (fun _ h => ?_) fun _ _ _ => trivial
    exact createMembershipInTenant_error (answered_error h) rfl
  | none =>
    rw [hf] at hj
    dsimp only at hj
    rw [Bool.and_eq_true] at hj
    have hv := hj.1
    have hfree := hj.2
    rw [joinInvited, createTenantMember]
    cases hi : validateCreateTenantMember
        { tenantId := invitation.tenantId, email := invitation.email, displayName, password
          role := invitation.roleKey } minLength with
    | error e =>
      rw [hi] at hv
      cases hv
    | ok input =>
      refine returns_bind (Returns.mono (fun _ _ _ => trivial) (settles_createMember fun a ha => ?_))
      rw [email_of_validate hi]
      exact of_decide_eq_true (List.all_eq_true.1 hfree a ha)

/-- **A password that may be changed** is changed. -/
theorem settles_changePassword {account : AccountCredential} {passwordHash accountId : String} :
    Settles (fun _ _ => True) (changePassword account passwordHash (some accountId)) s := by
  unfold changePassword
  refine settles_call_bind (fun _ h => (nomatch h)) fun _ _ _ => ?_
  refine returns_bind (settles_deleteAccountSessions.mono fun _ s' _ => ?_)
  exact settles_call_bind (fun _ h => (nomatch h)) fun _ _ _ => settles_audit

end Programs

/-! ### Up to the link -/

section Waiting

variable [AuthText] {α : Type} {minLength : ℕ} {link : Link} {sub : Submission}

/-- A program that reads until it consumes the link, and does not return before.  Behind a
consumption that meets the condition it returns, unless a call fails. -/
inductive Waits (minLength : ℕ) (link : Link) (sub : Submission) : Service PUnit → Prop
  | fail {e : String} : Waits minLength link sub (.fail e)
  | read {c : Call} {next : Prog.Reply Call.Answer c → Service PUnit} (hc : c.reads = true)
      (hnext : ∀ r, Waits minLength link sub (next r)) : Waits minLength link sub (.call c next)
  | consume {c : Call} {next : Prog.Reply Call.Answer c → Service PUnit} (hc : link.consumes c)
      (hmissed : ∀ r, consumed ⟨c, r⟩ = false → Waits minLength link sub (next r))
      (hleaves : ∀ r, consumed ⟨c, r⟩ = true → All (fun c => c.leavesLinks = true) (next r))
      (htook : ∀ s outcome history, consumesPassing minLength s (sub, ⟨history, .call c next⟩) = true →
        consumed ⟨c, (c.settle s outcome).1⟩ = true →
        Settles (fun _ _ => True) (next (c.settle s outcome).1) (c.settle s outcome).2) :
      Waits minLength link sub (.call c next)

variable {f : α → Service PUnit} {now : ℤ} {passwordHash password token : String} {draws : Draws}

theorem waits_reads_bind {p : Service α} (hp : All (fun c => c.reads = true) p)
    (hf : ∀ a, Waits minLength link sub (f a)) : Waits minLength link sub (p >>= f) := by
  induction p with
  | pure a => exact hf a
  | fail e => exact .fail
  | call c next ih => exact .read hp.1 fun r => ih r (hp.2 r)

theorem waits_require_bind {condition : Prop} [Decidable condition] {e : String}
    {f : PUnit → Service PUnit} (hf : Waits minLength link sub (f ⟨⟩)) :
    Waits minLength link sub (require condition e >>= f) := by
  unfold require
  split_ifs
  · exact hf
  · exact .fail

theorem waits_ofExcept_bind {x : Except String α}
    (hf : ∀ a, Waits minLength link sub (f a)) : Waits minLength link sub (Prog.ofExcept x >>= f) := by
  cases x with
  | error e => exact .fail
  | ok a => exact hf a

theorem waits_consume_bind {c : Call} {f : c.Answer → Service PUnit} (hc : link.consumes c)
    (hm : ∀ a, consumed ⟨c, .ok a⟩ = false → Waits minLength link sub (f a))
    (hl : ∀ a, All (fun c => c.leavesLinks = true) (f a))
    (ht : ∀ s choice a history next, consumesPassing minLength s (sub, ⟨history, .call c next⟩) = true →
      c.perform choice s = (.ok a, (c.perform choice s).2) → consumed ⟨c, .ok a⟩ = true →
      Settles (fun _ _ => True) (f a) (c.perform choice s).2) :
    Waits minLength link sub (call c >>= f) := by
  rw [call, Prog.need_bind]
  refine .consume hc (fun r hr => ?_) (fun r hr => ?_) fun s outcome history hp hr => ?_
  · cases r with
    | error e => exact .fail
    | ok a => exact hm a hr
  · cases r with
    | error e => exact trivial
    | ok a => exact hl a
  · cases hrep : (c.settle s outcome).1 with
    | error e =>
      rw [hrep] at hr
      cases link <;> cases c <;> first | exact hc.elim | cases hr
    | ok a =>
      have hs := settle_ok hrep
      rw [hrep] at hr
      rw [hs] at hrep ⊢
      exact ht s outcome.1 a history _ hp (Prod.ext hrep rfl) hr

/-! ### The submissions -/

omit [AuthText] in
theorem reads_findAccountCredentialById {accountId : String} :
    All (fun c => c.reads = true) (findAccountCredentialById accountId) := by
  unfold findAccountCredentialById
  refine all_bind (all_call rfl) fun tenantId => ?_
  cases tenantId with
  | none => exact trivial
  | some tenantId => exact all_call rfl

omit [AuthText] in
theorem reads_namedAccount {tokenHash : String} :
    All (fun c => c.reads = true) (namedAccount tokenHash now) := by
  unfold namedAccount
  refine all_bind (all_call rfl) fun named => ?_
  cases named with
  | none => exact trivial
  | some accountId => exact reads_findAccountCredentialById

/-- A program that leaves the links. -/
abbrev LeavesLinks (p : Service α) : Prop :=
  Within (fun c => c.leavesLinks = true) p

theorem leaves_changePassword {account : AccountCredential}
    {accountId : Option String} : LeavesLinks (changePassword account passwordHash accountId) := by
  have hs : ∀ accountId tenants, LeavesLinks (deleteSessionsIn accountId tenants) := by
    intro accountId tenants
    induction tenants with
    | nil => exact within_pure
    | cons tenantId tenants ih => exact within_bind (within_need rfl) fun _ => ih
  cases accountId with
  | none => exact within_fail
  | some accountId =>
    unfold changePassword deleteAccountSessions
    refine within_bind (within_need rfl) fun _ => within_bind ?_ fun _ =>
      within_bind (within_need rfl) fun _ => within_audit rfl
    exact within_bind (within_need rfl) fun _ => hs _ _

theorem waits_completePasswordReset {later : ℤ} : Waits minLength (.passwordReset token) sub
      (completePasswordReset token password minLength now later passwordHash) := by
  unfold completePasswordReset
  refine waits_require_bind (waits_reads_bind reads_namedAccount fun account => ?_)
  cases account.filter fun account => account.status = .active with
  | none => exact .fail
  | some account =>
    refine waits_ofExcept_bind fun _ => waits_consume_bind rfl (fun accountId hm => ?_)
      (fun _ => leaves_changePassword.all) fun s choice accountId _ _ _ _ ht => ?_
    · cases accountId with
      | none => exact .fail
      | some accountId => cases hm
    · cases accountId with
      | none => cases ht
      | some accountId => exact settles_changePassword

omit [AuthText] in
theorem leaves_findAccountByEmail {email : String} : LeavesLinks (findAccountByEmail email) := by
  unfold findAccountByEmail
  refine within_bind (within_need rfl) fun identity => ?_
  cases identity with
  | none => exact within_pure
  | some identity => exact ⟨reads_findAccountCredentialById.mono fun _ => reads_leaves⟩

omit [AuthText] in
theorem leaves_createMember {input : CreateTenantMemberInput} :
    LeavesLinks (createMember input none draws) := by
  unfold createMember roleOfMember insertMember
  refine within_bind (within_whenever fun _ => within_fail) fun _ =>
    within_bind (within_bind (within_need rfl) fun role => ?_) fun _ =>
      within_renamed (within_bind (within_need rfl) fun account => ?_)
  · cases role <;> exact within_pure
  · cases account with
    | none => exact within_fail
    | some account => exact within_pure

theorem leaves_acceptInvitation {invitation : InvitationRow} {displayName : String}
    : LeavesLinks (acceptInvitation invitation displayName password minLength draws) := by
  unfold acceptInvitation
  refine within_bind (within_need rfl) fun role => ?_
  cases role with
  | none => exact within_fail
  | some role =>
    refine within_bind leaves_findAccountByEmail fun existing => within_bind ?_ fun _ => within_audit rfl
    cases existing with
    | none =>
      rw [joinInvited, createTenantMember]
      exact within_bind (within_bind within_ofExcept fun _ => leaves_createMember) fun _ => within_pure
    | some existing =>
      rw [joinInvited, joinTenant]
      exact within_bind (within_need rfl) fun _ => within_bind within_require fun _ =>
        within_bind (within_need rfl) fun _ => within_pure

theorem waits_acceptTenantInvitation : Waits minLength (.invitation token) sub
      (acceptTenantInvitation token sub.displayName sub.password minLength now draws) := by
  unfold acceptTenantInvitation
  refine waits_require_bind (waits_consume_bind rfl (fun invitation hm => ?_) (fun invitation => ?_)
    fun s choice invitation history next hp hper ht => ?_)
  · cases invitation with
    | none => exact .fail
    | some invitation => cases hm
  · cases invitation with
    | none => exact trivial
    | some invitation => exact leaves_acceptInvitation.all
  · cases invitation with
    | none => cases ht
    | some invitation =>
      have hf := Except.ok.inj (congrArg Prod.fst hper)
      have hpas : ((s.consumeTenantInvitation (AuthText.hashSessionToken token) now).1.all
          (invitationPasses minLength s sub.displayName sub.password)) = true := hp
      rw [hf, Option.all_some] at hpas
      exact settles_acceptInvitation hpas

theorem waits_submit : Waits minLength link sub (link.submit minLength sub) := by
  cases link with
  | passwordReset token => exact waits_completePasswordReset
  | invitation token => exact waits_acceptTenantInvitation

end Waiting

/-! ### The steps -/

section Steps

variable [AuthText] {minLength : ℕ} {link : Link} {start s : Tables} {ps : List Submitted} {p : Submitted}

/-- What is known of a submission: it has not consumed the link, or nothing but a failure of
a call keeps it from returning. -/
inductive Standing (minLength : ℕ) (link : Link) (s : Tables) (p : Submitted) : Prop
  | waiting (htook : tookEffect p = false)
      (hhistory : ∀ entry ∈ p.2.history, Harmless entry ∨ failed entry = true)
      (hrest : Waits minLength link p.1 p.2.rest)
  | settling (htook : tookEffect p = true) (hleaves : All (fun c => c.leavesLinks = true) p.2.rest)
      (hrest : (∀ entry ∈ p.2.history, failed entry = false) → Settles (fun _ _ => True) p.2.rest s)

/-- What holds of the tables and all submissions there were. -/
structure Spending (minLength : ℕ) (link : Link) (start s : Tables) (ps : List Submitted) : Prop where
  standing : ∀ p ∈ ps, Standing minLength link s p
  once : ps.countP tookEffect ≤ 1
  keyed : LinksKeyed s
  closed : (∃ p ∈ ps, tookEffect p = true) → link.closed s
  unchanged : (∀ p ∈ ps, ∀ entry ∈ p.2.history, Harmless entry) → s = start

variable {s' : Tables} {history : Prog.History Call (Prog.Reply Call.Answer)} {sub : Submission}
  {c : Call}

/-- A submission that has not consumed the link stands whatever the tables are. -/
theorem Standing.mono (h : Standing minLength link s p)
    (hs : tookEffect p = true → s' = s) : Standing minLength link s' p := by
  cases h with
  | waiting ht hh hr => exact .waiting ht hh hr
  | settling ht hl hr =>
    rw [hs ht]
    exact .settling ht hl hr

omit [AuthText] in
theorem tookEffect_append {entry : Entry} {rest rest' : Service PUnit} :
    tookEffect (sub, ⟨history ++ [entry], rest'⟩) = (tookEffect (sub, ⟨history, rest⟩) || consumed entry) := by
  simp [tookEffect]

/-- Whoever consumes a link is the only one. -/
theorem closed_not_consumed {outcome : Outcome} (h : Spending minLength link start s ps)
    (hc : link.consumes c) (ht : consumed ⟨c, (c.settle s outcome).1⟩ = true) :
    ∀ q ∈ ps, tookEffect q = false := by
  intro q hq
  by_contra ho
  have hclo := h.closed ⟨q, hq, by simpa using ho⟩
  rw [(consume_closed hc hclo).2] at ht
  cases ht

/-- Links that a call leaves are as they were. -/
theorem closed_of_leaves {outcome : Outcome} (hc : c.leavesLinks = true)
    (h : link.closed s) : link.closed (c.settle s outcome).2 := by
  obtain ⟨hr, hi⟩ : (c.settle s outcome).2.passwordResets = s.passwordResets ∧
    (c.settle s outcome).2.invitations = s.invitations := settle_leaves hc
  cases link with
  | passwordReset token =>
    unfold Link.closed
    rw [hr]
    exact h
  | invitation token =>
    unfold Link.closed
    rw [hi]
    exact h

omit [AuthText] in
theorem keyed_of_leaves {outcome : Outcome} (hc : c.leavesLinks = true)
    (h : LinksKeyed s) : LinksKeyed (c.settle s outcome).2 := by
  obtain ⟨hr, hi⟩ : (c.settle s outcome).2.passwordResets = s.passwordResets ∧
    (c.settle s outcome).2.invitations = s.invitations := settle_leaves hc
  refine ⟨?_, ?_⟩
  · rw [hr]
    exact h.passwordResets
  · rw [hi]
    exact h.invitations

/-- One more move, where nobody else has taken effect or nothing has changed. -/
theorem Spending.next {p' : Submitted} (h : Spending minLength link start s (p :: ps))
    (hp' : Standing minLength link s' p')
    (ho : (∀ q ∈ ps, tookEffect q = false) ∨ s' = s ∧ tookEffect p' = false)
    (hk : LinksKeyed s') (hc : tookEffect p' = true → link.closed s')
    (hh : (∀ entry ∈ p'.2.history, Harmless entry) →
      (∀ entry ∈ p.2.history, Harmless entry) ∧ s' = s) :
    Spending minLength link start s' (p' :: ps) := by
  have hr := List.forall_mem_cons.1 h.standing
  refine ⟨List.forall_mem_cons.2 ⟨hp', fun q hq => (hr.2 q hq).mono fun ht => ?_⟩, ?_, hk, ?_, ?_⟩
  · rcases ho with hn | ⟨hs, -⟩
    · rw [hn q hq] at ht
      cases ht
    · exact hs
  · rcases ho with hn | ⟨-, hm⟩
    · have hz : ps.countP tookEffect = 0 := List.countP_eq_zero.2 fun q hq => by simp [hn q hq]
      rw [List.countP_cons, hz]
      split_ifs <;> omega
    · have honce := h.once
      rw [List.countP_cons] at honce
      rw [List.countP_cons, hm, if_neg Bool.false_ne_true]
      omega
  · rintro ⟨q, hq, ht⟩
    rcases List.mem_cons.1 hq with rfl | hq
    · exact hc ht
    · rcases ho with hn | ⟨hs, -⟩
      · rw [hn q hq] at ht
        cases ht
      · rw [hs]
        exact h.closed ⟨q, List.mem_cons_of_mem _ hq, ht⟩
  · intro ha
    obtain ⟨hnew, hold⟩ := List.forall_mem_cons.1 ha
    obtain ⟨hb, hs⟩ := hh hnew
    rw [hs]
    exact h.unchanged (List.forall_mem_cons.2 ⟨hb, hold⟩)

/-- **One call of a submission.** -/
theorem Spending.call {next : Prog.Reply Call.Answer c → Service PUnit} {outcome : Outcome}
    (h : Spending minLength link start s ((sub, ⟨history, .call c next⟩) :: ps))
    (hcond : consumesPassing minLength s (sub, ⟨history, .call c next⟩) = true) :
    Spending minLength link start (c.settle s outcome).2
      ((sub, ⟨history ++ [⟨c, (c.settle s outcome).1⟩], next (c.settle s outcome).1⟩) :: ps) := by
  have htook' : ∀ {took : Bool}, tookEffect (sub, ⟨history, .call c next⟩) = took →
      tookEffect (sub, ⟨history ++ [⟨c, (c.settle s outcome).1⟩], next (c.settle s outcome).1⟩) =
        (took || consumed ⟨c, (c.settle s outcome).1⟩) := by
    rintro took rfl
    exact tookEffect_append
  have hh : (∀ entry ∈ history ++ [⟨c, (c.settle s outcome).1⟩], Harmless entry) →
      (∀ entry ∈ history, Harmless entry) ∧ (c.settle s outcome).2 = s := by
    intro hall
    obtain ⟨hb, hnew⟩ := List.forall_mem_append.1 hall
    exact ⟨hb, List.forall_mem_singleton.1 hnew s outcome rfl⟩
  cases h.standing _ List.mem_cons_self with
  | waiting htook hhis hrest =>
    have hmis : consumed ⟨c, (c.settle s outcome).1⟩ = false →
        (Harmless ⟨c, (c.settle s outcome).1⟩ ∨ failed ⟨c, (c.settle s outcome).1⟩ = true) →
        Waits minLength link sub (next (c.settle s outcome).1) → Standing minLength link
          (c.settle s outcome).2
          (sub, ⟨history ++ [⟨c, (c.settle s outcome).1⟩], next (c.settle s outcome).1⟩) := by
      intro hm he hw
      refine .waiting ((htook' htook).trans hm) ?_ hw
      exact List.forall_mem_append.2 ⟨hhis, List.forall_mem_singleton.2 he⟩
    cases hrest with
    | read hc hnext =>
      have hs : (c.settle s outcome).2 = s := settle_reads hc
      have hm := consumed_leaves (reads_leaves hc) (r := (c.settle s outcome).1)
      have hn := (htook' htook).trans hm
      refine h.next (hmis hm (.inl fun _ _ _ => settle_reads hc) (hnext _)) (.inr ⟨hs, hn⟩)
        ?_ (fun htook => ?_) hh
      · exact hs.symm ▸ h.keyed
      · rw [hn] at htook
        cases htook
    | consume hc hw hl hp =>
      have hk : LinksKeyed (c.settle s outcome).2 := consume_keyed hc h.keyed
      cases hcon : consumed ⟨c, (c.settle s outcome).1⟩ with
      | false =>
        have hn := (htook' htook).trans hcon
        refine h.next (hmis hcon (consume_harmless hc hcon) (hw _ hcon)) ?_ hk (fun htook => ?_) hh
        · by_cases hclo : link.closed s
          · exact .inr ⟨(consume_closed hc hclo).1, hn⟩
          · refine .inl fun q hq => ?_
            by_contra ho
            exact hclo (h.closed ⟨q, List.mem_cons_of_mem _ hq, by simpa using ho⟩)
        · rw [hn] at htook
          cases htook
      | true =>
        have ht := (htook' htook).trans hcon
        refine h.next (.settling ht (hl _ hcon) fun _ => ?_) (.inl fun q hq => ?_) hk
          (fun _ => consume_closes h.keyed hc hcon) hh
        · exact hp s outcome history hcond hcon
        · exact closed_not_consumed h hc hcon q (List.mem_cons_of_mem _ hq)
  | settling htook hl hrest =>
    have ht := (htook' htook).trans (Bool.true_or _)
    have hclo : link.closed (c.settle s outcome).2 :=
      closed_of_leaves hl.1 (h.closed ⟨_, List.mem_cons_self, htook⟩)
    refine h.next (.settling ht (hl.2 _) fun ha => ?_) (.inl fun q hq => ?_)
      (keyed_of_leaves hl.1 h.keyed) (fun _ => hclo) hh
    · obtain ⟨hb, hnew⟩ := List.forall_mem_append.1 ha
      have hr := hrest hb outcome
      have hf := List.forall_mem_singleton.1 hnew
      cases hrep : (c.settle s outcome).1 with
      | ok a => exact hr.1 a hrep
      | error e =>
        rw [hrep] at hf
        exact absurd (not_not.1 (of_decide_eq_false hf)) (hr.2 e hrep)
    · have honce := h.once
      rw [List.countP_cons, htook, if_pos rfl] at honce
      have hz : ps.countP tookEffect = 0 := by omega
      simpa using List.countP_eq_zero.1 hz q hq

/-- What holds of the tables and all submissions of a link. -/
def spendingChronicle (minLength : ℕ) (link : Link) (start : Tables) :
    Chronicle (submissions minLength link) (ConsumesPassing minLength) where
  holds := Spending minLength link start
  perm hperm h := by
    refine ⟨fun p hp => h.standing p (hperm.mem_iff.2 hp), ?_, h.keyed, ?_, ?_⟩
    · rw [← hperm.countP_eq]
      exact h.once
    · rintro ⟨p, hp, htook⟩
      exact h.closed ⟨p, hperm.mem_iff.2 hp, htook⟩
    · exact fun hall => h.unchanged fun p hp => hall p (hperm.mem_iff.1 hp)
  start := by
    rintro s ps sub p h hstart
    obtain rfl := recorder_signed_enter hstart
    refine ⟨List.forall_mem_cons.2 ⟨.waiting rfl (fun _ h => (nomatch h)) waits_submit, h.standing⟩, ?_,
      h.keyed, ?_, fun hall => h.unchanged (List.forall_mem_cons.1 hall).2⟩
    · rw [List.countP_cons]
      exact h.once
    · rintro ⟨q, hq, htook⟩
      rcases List.mem_cons.1 hq with rfl | hq
      · cases htook
      · exact h.closed ⟨q, hq, htook⟩
  stop h := h
  move := by
    rintro s others gone p outcome s' p' h hcond hmove
    obtain ⟨sub, history, c, next, rfl, rfl, rfl⟩ := recorder_signed_next hmove
    exact h.call hcond

end Steps

/-! ### A link is spent once -/

section

variable [AuthText] {minLength : ℕ} {link : Link} {s : Tables} {sub : Submission}

omit [AuthText] in
theorem isOk_of_toBool {ε α : Type} {x : Except ε α} (h : x.toBool = true) : ∃ a, x = .ok a := by
  cases x with
  | error e => cases h
  | ok a => exact ⟨a, rfl⟩

/-- **A submission that is welcome** returns with nobody else about, unless a call fails. -/
theorem settles_submit (h : welcome minLength s sub link = true) :
    Settles (fun _ _ => True) (link.submit minLength sub) s := by
  cases link with
  | passwordReset token =>
    rw [welcome, Bool.and_eq_true, Bool.and_eq_true] at h
    obtain ⟨⟨hpat, hacc⟩, hl⟩ := h
    obtain ⟨account, hf, hm⟩ := (Option.any_eq_true _ _).1 hacc
    rw [Bool.and_eq_true] at hm
    obtain ⟨⟨⟩, hv⟩ := isOk_of_toBool hm.2
    obtain ⟨accountId, hl⟩ := Option.isSome_iff_exists.1 hl
    rw [Link.submit, completePasswordReset]
    refine settles_require_bind hpat (returns_bind (settles_namedAccount.mono fun found s' hs' => ?_))
    obtain ⟨rfl, rfl⟩ := hs'
    rw [hf, Option.filter_some, if_pos hm.1]
    refine settles_ofExcept_bind hv (settles_call_bind (fun _ h => (nomatch h)) fun _ answer ha => ?_)
    obtain rfl : some accountId = answer := hl.symm.trans (Except.ok.inj ha)
    exact settles_changePassword
  | invitation token =>
    rw [welcome, Bool.and_eq_true] at h
    obtain ⟨hpat, hi⟩ := h
    obtain ⟨invitation, hf, hp⟩ := (Option.any_eq_true _ _).1 hi
    rw [Link.submit, acceptTenantInvitation]
    refine settles_require_bind hpat (settles_call_bind (fun _ h => (nomatch h)) fun _ answer ha => ?_)
    obtain rfl : some invitation = answer := hf.symm.trans (Except.ok.inj ha)
    exact settles_acceptInvitation hp

/-- What is said of the submissions of a link: one takes effect at most, and only that one
returns; one that is refused has left the tables as they were, and while nobody has done
otherwise they are as at the start, so that a submission in order is still welcome. -/
structure SpentOnce (minLength : ℕ) (link : Link) (start s : Tables) (ps : List Submitted) : Prop where
  once : ps.countP tookEffect ≤ 1
  returned : ∀ p ∈ ps, returned p = true → tookEffect p = true
  refused : ∀ p ∈ ps, refused p = true → ∀ entry ∈ p.2.history, Harmless entry
  unchanged : (∀ p ∈ ps, ∀ entry ∈ p.2.history, Harmless entry) → s = start
  welcome : ∀ sub, welcome minLength s sub link = true →
    Settles (fun _ _ => True) (link.submit minLength sub) s

/-- **Links are spent once**: in every run in which an invitation is consumed where none of
the checks behind refuses. -/
theorem links_spent_once {start : Tables} (hkeyed : LinksKeyed start)
    {crew : Crew (Tables × List Submitted) Submitted}
    (h : Crew.Reachable (submissions minLength link).ledger (ConsumesPassing minLength).ledger
      (start, []) crew) : SpentOnce minLength link start crew.shared.1 crew.everyone := by
  have hemp : Spending minLength link start start [] := by
    refine ⟨fun _ h => (nomatch h), Nat.zero_le _, hkeyed, ?_, fun _ => rfl⟩
    rintro ⟨p, hp, -⟩
    cases hp
  have he : Spending minLength link start crew.shared.1 crew.everyone :=
    (spendingChronicle minLength link start).reachable hemp h
  refine ⟨he.once, ?_, ?_, he.unchanged, fun sub hw => settles_submit hw⟩
  · rintro ⟨sub, history, rest⟩ hp hret
    cases he.standing _ hp with
    | waiting _ _ hrest =>
      cases rest with
      | pure a => cases hrest
      | fail e => cases hret
      | call c next => cases hret
    | settling ht => exact ht
  · rintro ⟨sub, history, rest⟩ hp hr
    cases rest with
    | pure a => cases hr
    | call c next => cases hr
    | fail e =>
      have ha : ∀ entry ∈ history, failed entry = false := fun entry hent =>
        Bool.not_eq_true' _ ▸ List.all_eq_true.1 hr entry hent
      cases he.standing _ hp with
      | waiting _ hhis =>
        intro entry hent
        rcases hhis entry hent with hh | hf
        · exact hh
        · rw [ha entry hent] at hf
          cases hf
      | settling _ _ hrest => exact (hrest ha).elim

end

/-! ### Sample runs -/

/-- A token of 43 characters. -/
def sampleToken : String :=
  String.ofList (List.replicate 43 'a')

/-- A workspace with an owner and an invitation. -/
def invitedTables : Tables where
  accounts := [sampleAccount "ada"]
  memberships := [sampleOwner "ada" "t"]
  roles := [⟨"r1", "t", "member", "Member", "", ["auth.profile.read"], true⟩]
  invitations := [{
    id := "i", tenantId := "t", email := "eve@example.org", normalizedEmail := "eve@example.org"
    roleKey := "member", tokenHash := "digest of " ++ sampleToken, expiresAt := 9, createdBy := "ada"
    createdAt := 0 }]
  keys := by decide

theorem invitedTables_keyed : LinksKeyed invitedTables where
  passwordResets := by decide
  invitations := by decide

/-- A submission of the invitation. -/
def sampleSubmission (password : String) : Submission where
  displayName := "Eve"
  password := password
  now := 1
  later := 1

/-- An outcome of a call that does not fail. -/
def answeredOutcome : Outcome :=
  ⟨{}, fun _ h => (nomatch h)⟩

/-- A submission at the head, and its moves. -/
def submissionTurns (password : String) (n : ℕ) : List (Crew.Turn Submission Outcome) :=
  .start (sampleSubmission password) :: List.replicate n (.move 0 answeredOutcome)

/-- A submission that takes effect, and a later one of the same link, which is refused. -/
theorem links_spent_once_eve : ∃ crew, Crew.Reachable
    (@submissions plainText 12 (.invitation sampleToken)).ledger (@ConsumesPassing plainText 12).ledger
      (invitedTables, []) crew ∧
    crew.everyone.map (fun p => (tookEffect p, returned p, refused p)) =
      [(false, false, true), (true, true, false)] ∧
    @SpentOnce plainText 12 (.invitation sampleToken) invitedTables crew.shared.1 crew.everyone := by
  have hp : (Crew.play (@submissions plainText 12 (.invitation sampleToken)).ledger
      (fun s _ p => @consumesPassing plainText 12 s.1 p = true) ⟨(invitedTables, []), []⟩
      (submissionTurns "correct horse battery" 6 ++ submissionTurns "correct horse battery" 1)).map
      (fun crew => crew.everyone.map fun p => (tookEffect p, returned p, refused p)) =
        some [(false, false, true), (true, true, false)] := by decide +kernel
  obtain ⟨crew, hc, hres⟩ := Option.map_eq_some_iff.1 hp
  have hr : Crew.Reachable (@submissions plainText 12 (.invitation sampleToken)).ledger
      (@ConsumesPassing plainText 12).ledger (invitedTables, []) crew :=
    (Crew.reachable_of_play hc).mono fun _ _ _ h => h
  exact ⟨crew, hr, hres, @links_spent_once plainText 12 _ _ invitedTables_keyed _ hr⟩

/-- A password that is too short consumes the invitation: the submission is refused, and the
corrected one is refused as well. -/
theorem links_stranded : LinksKeyed invitedTables ∧
    @welcome plainText 12 invitedTables (sampleSubmission "correct horse battery")
      (.invitation sampleToken) = true ∧
    ∃ crew, Crew.Reachable (@submissions plainText 12 (.invitation sampleToken)).ledger
      (fun _ _ _ => True) (invitedTables, []) crew ∧
      crew.everyone.map refused = [true, true] ∧
      crew.shared.1.accounts.length = 1 ∧ crew.shared.1.invitations.map (·.acceptedAt) = [some 1] ∧
      ¬ @SpentOnce plainText 12 (.invitation sampleToken) invitedTables crew.shared.1 crew.everyone := by
  have hplay : (Crew.play (@submissions plainText 12 (.invitation sampleToken)).ledger
      (fun _ _ _ => True) ⟨(invitedTables, []), []⟩
      (submissionTurns "short" 3 ++ submissionTurns "correct horse battery" 1)).map
      (fun crew => (crew.everyone.map refused, crew.shared.1.accounts.length,
        crew.shared.1.invitations.map (·.acceptedAt))) = some ([true, true], 1, [some 1]) := by
    decide +kernel
  obtain ⟨crew, hc, hr⟩ := Option.map_eq_some_iff.1 hplay
  obtain ⟨href, hr⟩ := Prod.mk.inj hr
  obtain ⟨ha, hl⟩ := Prod.mk.inj hr
  refine ⟨invitedTables_keyed, by decide +kernel, crew, Crew.reachable_of_play hc, href, ha,
    hl, fun h => ?_⟩
  have hall : ∀ p ∈ crew.everyone, refused p = true := by
    intro p hp
    have hm := List.mem_map_of_mem (f := refused) hp
    rw [href] at hm
    simpa using hm
  have hs := @SpentOnce.unchanged plainText _ _ _ _ _ h fun p hp =>
    @SpentOnce.refused plainText _ _ _ _ _ h p hp (hall p hp)
  rw [hs] at hl
  exact absurd hl (by decide)

end Flowdular.Auth
