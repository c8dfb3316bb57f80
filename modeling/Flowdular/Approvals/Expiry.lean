/-
# Expiry is what a sweep records

No decision looks at the expiry of its request: a request whose expiry passed stays open to its
deciders until a sweep expires it, and is settled by whichever comes first.  So a request may be
approved behind its expiry (`approvals_decided_late`).  What holds over every order of decisions and
sweeps is that a request is expired by a sweep that read a clock at or behind the expiry, that a sweep
which returned leaves the request it read settled, and expired where it read it pending, and that no
call moves a settled request again (`expiry_by_sweep`).
-/

import Flowdular.Approvals.Quorum

namespace Flowdular.Approvals

open Lib Workflows
open Prog (History Along along_need_bind along_ofExcept_bind along_of_all Ends ends_need_bind ends_all recorder_signed_enter recorder_signed_next Within
  within_pure within_fail within_bind within_need within_ofExcept)

/-! ### What is said of the sweeps -/

/-- The process is a sweep of the request, at or behind its expiry, and settled it. -/
structure ExpiredBy (p : ApprovalProcess) (row : ApprovalRequest) (tenantId id : String) (draws : Draws) :
    Prop where
  sweeps : p.1 = .expire tenantId id draws
  key : row.key = ⟨tenantId, id⟩
  due : row.expiresAt ≤ draws.now
  resolved : row.resolvedAt = some draws.decidedAt

/-- What a sweep leaves: the request is settled where the sweep is told that it is not pending, and where
it returns behind the expiry; it is expired then, at the time of the sweep, if the sweep read it pending. -/
structure Swept (s : ApprovalTables) (p : ApprovalProcess) (tenantId id : String) (draws : Draws) : Prop where
  refused : ∀ d needed resolvedAt auditId request,
    (⟨.decide d needed resolvedAt auditId, .ok (.notPending request)⟩ : ApprovalEntry) ∈ p.2.history →
      ∃ row ∈ s.requests, row.key = d.key ∧ row.status ≠ .pending
  returned : p.2.rest = .pure () → ∀ request,
    (⟨.get tenantId id, .ok (some request)⟩ : ApprovalEntry) ∈ p.2.history → request.expiresAt ≤ draws.now →
      ∃ row ∈ s.requests, row.key = ⟨tenantId, id⟩ ∧ row.status ≠ .pending ∧
        (request.status = .pending → row.status = .expired ∧ row.resolvedAt = some draws.decidedAt)

/-- What is said of the tables and the operations: an expired request was swept behind its expiry, and
every sweep leaves its request as it should. -/
structure ExpirySwept (s : ApprovalTables) (ps : List ApprovalProcess) : Prop where
  due : ∀ row ∈ s.requests, row.status = .expired →
    ∃ p ∈ ps, ∃ tenantId id draws, ExpiredBy p row tenantId id draws
  swept : ∀ p ∈ ps, ∀ tenantId id draws, p.1 = .expire tenantId id draws → Swept s p tenantId id draws

/-- What is said of a later state: no request is lost, and a settled one stays as it is. -/
def SettledStay (s s' : ApprovalTables) : Prop :=
  ∀ row ∈ s.requests, (∃ row' ∈ s'.requests, row'.opening = row.opening) ∧
    (row.status ≠ .pending → row ∈ s'.requests)

/-- No request is approved or rejected at or behind its expiry. -/
def NeverLate (s : ApprovalTables) : Prop :=
  ∀ row ∈ s.requests, row.status = .approved ∨ row.status = .rejected →
    ∀ resolvedAt, row.resolvedAt = some resolvedAt → resolvedAt < row.expiresAt

/-! ### What a call answers -/

/-- What the tables say of a reply: a request that was read is there, unchanged where it was settled; one
that a decision found settled is settled; one that a sweep was recorded on is expired. -/
def Recalls (s : ApprovalTables) : (c : ApprovalCall) → Prog.Reply ApprovalCall.Answer c → Prop
  | .get tenantId id, .ok (some request) => request.key = ⟨tenantId, id⟩ ∧
      ∃ row ∈ s.requests, row.opening = request.opening ∧ (request.status ≠ .pending → row = request)
  | .decide d _ _ _, .ok (.notPending _) => ∃ row ∈ s.requests, row.key = d.key ∧ row.status ≠ .pending
  | .decide d _ resolvedAt _, .ok (.recorded ..) => d.decision = .expire →
      ∃ row ∈ s.requests, row.key = d.key ∧ row.status = .expired ∧ row.resolvedAt = some resolvedAt
  | _, _ => True

section Replies

variable {s s' : ApprovalTables} {c : ApprovalCall} {reply : Prog.Reply ApprovalCall.Answer c}
  {d : ApprovalDecision} {needed : ℕ} {resolvedAt : ℤ} {auditId : String} {request : ApprovalRequest}

theorem settledStay_of_step (h : ApprovalStep s s') : SettledStay s s' := by
  intro row hr
  obtain ⟨row', hr', ho, -, hs⟩ := h row hr
  refine ⟨⟨row', hr', ho⟩, fun hsta => ?_⟩
  rw [← (hs hsta).1]
  exact hr'

theorem SettledStay.refl : SettledStay s s :=
  fun row hr => ⟨⟨row, hr, rfl⟩, fun _ => hr⟩

theorem SettledStay.trans {s'' : ApprovalTables} (h : SettledStay s s') (h' : SettledStay s' s'') :
    SettledStay s s'' := by
  intro row hr
  obtain ⟨⟨row', hr', ho⟩, hset⟩ := h row hr
  obtain ⟨⟨row'', hr'', ho'⟩, -⟩ := h' row' hr'
  exact ⟨⟨row'', hr'', ho'.trans ho⟩, fun hs => (h' row (hset hs)).2 hs⟩

/-- What is said of a reply is said behind any step. -/
theorem Recalls.stay (h : Recalls s c reply) (hs : SettledStay s s') : Recalls s' c reply := by
  unfold Recalls at h ⊢
  split at h
  · next tenantId id request =>
    obtain ⟨hkey, row, hrow, ho, hset⟩ := h
    obtain ⟨⟨row', hrow', ho'⟩, hk⟩ := hs row hrow
    refine ⟨hkey, ?_⟩
    by_cases hsta : request.status = .pending
    · exact ⟨row', hrow', ho'.trans ho, fun hne => absurd hsta hne⟩
    · obtain rfl := hset hsta
      exact ⟨row, hk hsta, rfl, fun _ => rfl⟩
  · obtain ⟨row, hrow, hkey, hsta⟩ := h
    exact ⟨row, (hs row hrow).2 hsta, hkey, hsta⟩
  · intro he
    obtain ⟨row, hrow, hkey, hsta, hr⟩ := h he
    refine ⟨row, (hs row hrow).2 ?_, hkey, hsta, hr⟩
    rw [hsta]
    nofun
  · trivial

variable [ApprovalGrants]

/-- An expiry that is recorded settles its request. -/
theorem decide_expire {decisions : List ApprovalDecision} {resolved : Bool} (he : d.decision = .expire)
    (h : s.decide d needed resolvedAt auditId = .ok (.recorded request decisions resolved, s')) : resolved = true := by
  unfold ApprovalTables.decide at h
  rw [he] at h
  split at h
  · cases h
  · split_ifs at h
    · cases h
    · cases h
    · dsimp only [resolve] at h
      split at h
      · cases h
        rfl
      · obtain ⟨s₁, -, h⟩ := bind_eq_ok h
        cases h
        rfl

/-- What the transaction of a decision answers is so behind it. -/
theorem decide_recalls {answer : DecideApprovalResult} (h : s.decide d needed resolvedAt auditId = .ok (answer, s')) :
    Recalls s' (.decide d needed resolvedAt auditId) (.ok answer) := by
  have heff := decide_effect answer s' h (.ok answer) (.inl rfl)
  cases answer with
  | notFound => trivial
  | duplicate => trivial
  | notPending found =>
    unfold ApprovalTables.decide at h
    split at h
    · cases h
    · next request hr =>
      have hk : request.key = d.key := by simpa using List.find?_some hr
      split_ifs at h with hp hd
      · cases h
        exact ⟨found, List.mem_of_find?_eq_some hr, hk, hp⟩
      · cases h
      · dsimp only at h
        split at h
        · cases h
        · split at h
          · cases h
          · obtain ⟨s₁, -, h⟩ := bind_eq_ok h
            cases h
  | recorded found decisions resolved =>
    intro he
    obtain rfl := decide_expire he h
    cases heff with
    | same _ _ hrep => cases hrep
    | @decided _ _ _ _ row before behind _ hk _ _ hreq' _ _ =>
      rw [he] at hreq'
      refine ⟨row.resolved .expired resolvedAt, ?_, hk, rfl, rfl⟩
      rw [hreq']
      exact List.mem_append_right _ List.mem_cons_self

/-- **What a call answers** is so behind it. -/
theorem serve_recalls {choice : ApprovalChoice} : Recalls (c.serve s choice).2 c (c.serve s choice).1 := by
  unfold ApprovalCall.serve
  split
  · cases c with
    | get tenantId id =>
      cases hf : s.request ⟨tenantId, id⟩ with
      | none =>
        simp only [ApprovalCall.perform, hf]
        trivial
      | some request =>
        simp only [ApprovalCall.perform, hf]
        have hk : request.key = ⟨tenantId, id⟩ := by simpa using List.find?_some hf
        exact ⟨hk, request, List.mem_of_find?_eq_some hf, rfl, fun _ => rfl⟩
    | decide d needed resolvedAt auditId =>
      cases h : s.decide d needed resolvedAt auditId with
      | error e =>
        simp only [ApprovalCall.perform, ApprovalTables.committed, h]
        trivial
      | ok result =>
        simp only [ApprovalCall.perform, ApprovalTables.committed, h]
        exact decide_recalls h
    | _ => trivial
  · next kept error _ =>
    split
    · next hp =>
      cases c with
      | register => trivial
      | takeCallback => trivial
      | _ => cases hp
    · cases c <;> trivial

end Replies

/-! ### The calls of an operation -/

/-- The calls an operation may make: requests are opened pending, and an expiry is recorded by a sweep
that read the request pending and due. -/
def ApprovalOperation.sweeps (r : ApprovalOperation)
    (history : History ApprovalCall (Prog.Reply ApprovalCall.Answer)) (c : ApprovalCall) : Prop :=
  match c with
  | .create request _ => request.status = .pending
  | .decide d _ resolvedAt _ => d.decision = .expire → ∃ tenantId id draws request,
      r = .expire tenantId id draws ∧ (⟨.get tenantId id, .ok (some request)⟩ : ApprovalEntry) ∈ history ∧
      d.key = request.key ∧ request.expiresAt ≤ draws.now ∧ resolvedAt = draws.decidedAt
  | _ => True

/-- The call opens no request and expires none. -/
def ApprovalCall.leaves : ApprovalCall → Bool
  | .create .. => false
  | .decide d .. => d.decision ≠ .expire
  | _ => true

/-- The call may follow a transaction: an event, or a callback. -/
def ApprovalCall.follows : ApprovalCall → Bool
  | .takeCallback _ => true
  | .runCallback .. => true
  | .publisher => true
  | .publish _ => true
  | _ => false

/-- A program that opens no request and expires none. -/
abbrev Leaves {α : Type} (p : ApprovalService α) : Prop :=
  Within (fun c => c.leaves = true) p

/-- A program of events and callbacks. -/
abbrev Follows {α : Type} (p : ApprovalService α) : Prop :=
  Within (fun c => c.follows = true) p

/-- A sweep that returned behind the expiry recorded it, or read the request settled. -/
def Sweeps (tenantId id : String) (draws : Draws)
    (history : History ApprovalCall (Prog.Reply ApprovalCall.Answer)) : Prop :=
  ∀ request, (⟨.get tenantId id, .ok (some request)⟩ : ApprovalEntry) ∈ history →
    request.expiresAt ≤ draws.now → request.status = .pending → ∃ d needed auditId found decisions resolved,
      (⟨.decide d needed draws.decidedAt auditId, .ok (.recorded found decisions resolved)⟩ : ApprovalEntry) ∈
        history ∧ d.decision = .expire ∧ d.key = request.key

section Programs

variable {r : ApprovalOperation} {history : History ApprovalCall (Prog.Reply ApprovalCall.Answer)}
  {request : ApprovalRequest} {d : ApprovalDecision}

theorem sweeps_of_leaves {c : ApprovalCall} (h : c.leaves = true) : r.sweeps history c := by
  cases c with
  | create => cases h
  | decide => exact fun he => absurd he (of_decide_eq_true h)
  | _ => trivial

variable {α : Type} {p : ApprovalService α} {notifyRequester manage : Bool} {id tenantId : String}
  {draws : Draws}

theorem along_leaves (h : Leaves p) : Along r.sweeps history p :=
  along_of_all (fun _ _ => sweeps_of_leaves) h.all

theorem leaves_of_follows (h : Follows p) : Leaves p := by
  refine ⟨h.all.mono fun c hc => ?_⟩
  cases c with
  | create => cases hc
  | decide => cases hc
  | _ => rfl

theorem follows_publishBatches {event : List String → NotificationPublishInput} :
    ∀ {batches : List (List String)}, Follows (publishBatches event batches) := by
  intro batches
  induction batches with
  | nil => exact within_pure
  | cons batch batches ih =>
    refine ⟨rfl, fun reply => ?_⟩
    cases reply with
    | error e => trivial
    | ok a => exact ih.all

theorem follows_publishApprovalEvent {input : NotificationPublishInput} : Follows (publishApprovalEvent input) := by
  unfold publishApprovalEvent
  split_ifs
  · exact within_pure
  · refine ⟨rfl, fun reply => ?_⟩
    match reply with
    | .error e => trivial
    | .ok false => trivial
    | .ok true => exact follows_publishBatches.all

theorem leaves_registerCallback {k : RequestKey} {callback : Option ℕ} : Leaves (registerCallback k callback) := by
  cases callback with
  | none => exact within_pure
  | some callback => exact within_need rfl

theorem leaves_opened {eligible : List String} {onResolved : Option ℕ} {created : Bool} :
    Leaves (opened request eligible onResolved created) := by
  cases created with
  | true => exact within_bind leaves_registerCallback fun _ => leaves_of_follows follows_publishApprovalEvent
  | false =>
    refine within_bind (within_need rfl) fun found => ?_
    cases found with
    | none => exact within_fail
    | some found => exact leaves_registerCallback

theorem follows_settled {decisions : List ApprovalDecision} :
    Follows (settled request decisions notifyRequester) := by
  have hn : Follows (notify request notifyRequester) := by
    unfold notify
    split_ifs
    · exact follows_publishApprovalEvent
    · exact within_pure
  refine within_bind hn fun _ => within_bind (within_need rfl) fun callback => ?_
  cases callback with
  | none => exact within_pure
  | some callback => exact ⟨rfl, fun _ => trivial⟩

theorem leaves_record {auditId : String} (h : d.decision ≠ .expire) :
    Leaves (record request d auditId notifyRequester) := by
  refine within_bind (within_need (decide_eq_true h)) fun result => ?_
  cases result with
  | recorded found decisions resolved =>
    cases resolved with
    | false => exact within_pure
    | true => exact leaves_of_follows follows_settled
  | _ => exact within_fail

theorem leaves_existing : Leaves (existing tenantId id) := by
  refine within_bind within_ofExcept fun _ => within_bind within_ofExcept fun _ =>
    within_bind (within_need rfl) fun found => ?_
  cases found with
  | none => exact within_fail
  | some request => exact within_pure

theorem leaves_canRead {accountId : String} : Leaves (canRead request accountId manage) := by
  unfold canRead
  split_ifs
  · exact within_pure
  · exact within_need rfl

theorem leaves_assertPending : Leaves (assertPending request) := by
  unfold assertPending
  split_ifs
  · exact within_fail
  · exact within_pure

theorem leaves_decideRequest {accountId : String} {verdict : Verdict} {comment : Option String} :
    Leaves (decideRequest tenantId id accountId verdict comment manage draws) := by
  refine within_bind leaves_existing fun request => within_bind (within_need rfl) fun member => ?_
  cases member.filter fun member => memberSatisfies request.requirement member request.requesterAccountId with
  | none =>
    refine within_bind leaves_canRead fun readable => ?_
    cases readable with
    | false => exact within_fail
    | true => exact within_bind leaves_assertPending fun _ => within_fail
  | some decider =>
    refine within_bind leaves_assertPending fun _ => within_bind within_ofExcept fun comment' => ?_
    exact leaves_record (by cases verdict <;> nofun)

theorem leaves_cancelRequest {actorAccountId : String} :
    Leaves (cancelRequest tenantId id actorAccountId manage draws) := by
  refine within_bind within_ofExcept fun actor => within_bind leaves_existing fun request =>
    within_bind leaves_canRead fun readable => ?_
  cases readable with
  | false => exact within_fail
  | true =>
    refine within_bind leaves_assertPending fun _ => ?_
    split_ifs
    · exact within_fail
    · exact leaves_record (by nofun)

theorem sweeps_openRequest {input : OpenApprovalInput} :
    Along r.sweeps history (openRequest input draws) := by
  unfold openRequest
  refine along_ofExcept_bind fun _ _ => along_ofExcept_bind fun _ _ => along_ofExcept_bind fun _ _ =>
    along_ofExcept_bind fun _ _ => along_need_bind trivial fun _ => along_ofExcept_bind fun _ _ =>
    along_ofExcept_bind fun _ _ => along_ofExcept_bind fun _ _ => along_ofExcept_bind fun _ _ =>
    along_ofExcept_bind fun _ _ => along_need_bind trivial fun pending => ?_
  cases pending with
  | some pending => exact along_leaves leaves_registerCallback
  | none =>
    refine along_need_bind trivial fun members => along_ofExcept_bind fun eligible _ => ?_
    exact along_need_bind rfl fun created => along_leaves leaves_opened

/-- A sweep records an expiry of a request it read pending and due. -/
theorem sweeps_expireRequest (hr : r = .expire tenantId id draws) :
    Along r.sweeps history (expireRequest tenantId id draws) := by
  refine along_need_bind trivial fun found => ?_
  cases found with
  | none => exact .pure
  | some request =>
    dsimp only
    split_ifs with hs hd
    · exact .pure
    · exact .pure
    · have hg : (⟨.get tenantId id, .ok (some request)⟩ : ApprovalEntry) ∈
          history ++ [⟨.get tenantId id, .ok (some request)⟩] :=
        List.mem_append_right _ (List.mem_singleton_self _)
      refine along_need_bind (fun _ => ⟨tenantId, id, draws, request, hr, hg, rfl, not_lt.1 hd, rfl⟩)
        fun result => ?_
      cases result with
      | recorded found decisions resolved =>
        cases resolved with
        | false => exact .pure
        | true => exact along_leaves (leaves_of_follows follows_settled)
      | _ => exact .fail

/-- **The calls of an operation** are those it may make. -/
theorem sweeps_program : Along r.sweeps [] r.program := by
  cases r with
  | openRequest => exact sweeps_openRequest
  | decide => exact along_leaves leaves_decideRequest
  | cancel => exact along_leaves leaves_cancelRequest
  | expire => exact sweeps_expireRequest rfl

/-- The request a sweep read is the one of its first call. -/
theorem found_of_read {found : Option ApprovalRequest}
    {extra : History ApprovalCall (Prog.Reply ApprovalCall.Answer)}
    (he : ∀ entry ∈ extra, ∀ t i reply, entry ≠ ⟨.get t i, reply⟩)
    (h : (⟨.get tenantId id, .ok (some request)⟩ : ApprovalEntry) ∈ ⟨.get tenantId id, .ok found⟩ :: extra) :
    found = some request := by
  rcases List.mem_cons.1 h with hent | hm
  · cases hent
    rfl
  · exact absurd rfl (he _ hm _ _ _)

/-- **A sweep that returned** recorded the expiry, if it read its request pending and due. -/
theorem ends_sweep :
    Ends (fun history _ => Sweeps tenantId id draws history) [] (expireRequest tenantId id draws) := by
  have hn : ∀ entry ∈ ([] : History ApprovalCall (Prog.Reply ApprovalCall.Answer)), ∀ t i reply,
      entry ≠ ⟨.get t i, reply⟩ := fun _ he => absurd he List.not_mem_nil
  unfold expireRequest
  refine ends_need_bind fun found => ?_
  cases found with
  | none => exact .pure fun request hget _ _ => nomatch found_of_read hn hget
  | some request =>
    dsimp only
    split_ifs with hsta hd
    · refine .pure fun request' hget _ hp => ?_
      obtain rfl := Option.some.inj (found_of_read hn hget)
      exact absurd hp hsta
    · refine .pure fun request' hget hd' _ => ?_
      obtain rfl := Option.some.inj (found_of_read hn hget)
      omega
    · refine ends_need_bind fun result => ?_
      cases result with
      | recorded found decisions resolved =>
        have hs : ∀ extra : History ApprovalCall (Prog.Reply ApprovalCall.Answer),
            (∀ entry ∈ extra, entry.1.follows = true) →
              Sweeps tenantId id draws (⟨.get tenantId id, .ok (some request)⟩ ::
                ⟨.decide (expireDecision request draws) request.decisionsNeeded draws.decidedAt draws.auditId,
                  .ok (.recorded found decisions resolved)⟩ :: extra) := by
          intro extra hext request' hget _ _
          have hg : ∀ entry ∈ extra, ∀ t i reply, entry ≠ ⟨.get t i, reply⟩ := by
            rintro _ he t i reply rfl
            cases hext _ he
          obtain rfl := Option.some.inj (found_of_read (List.forall_mem_cons.2 ⟨(fun _ _ _ hn => by cases hn), hg⟩) hget)
          exact ⟨_, _, _, _, _, _, List.mem_cons_of_mem _ List.mem_cons_self, rfl, rfl⟩
        cases resolved with
        | false => exact .pure (hs [] fun _ he => nomatch he)
        | true =>
          refine (ends_all follows_settled.all).mono ?_
          rintro _ - ⟨extra, rfl, hext⟩
          exact hs extra hext
      | _ => exact .fail

end Programs

/-! ### Runs -/

/-- What holds of the tables and all processes: what is left of an operation is right, what it was
answered is so, and an expired request was swept behind its expiry. -/
structure ExpiryRun (s : ApprovalTables) (ps : List ApprovalProcess) : Prop where
  allowed : ∀ p ∈ ps, Along p.1.sweeps p.2.history p.2.rest
  ends : ∀ p ∈ ps, ∀ tenantId id draws, p.1 = .expire tenantId id draws →
    Ends (fun history _ => Sweeps tenantId id draws history) p.2.history p.2.rest
  recalls : ∀ p ∈ ps, ∀ entry ∈ p.2.history, Recalls s entry.1 entry.2
  due : ∀ row ∈ s.requests, row.status = .expired →
    ∃ p ∈ ps, ∃ tenantId id draws, ExpiredBy p row tenantId id draws

section Steps

variable {s s' : ApprovalTables} {ps : List ApprovalProcess} {r : ApprovalOperation} {c : ApprovalCall}
  {history : History ApprovalCall (Prog.Reply ApprovalCall.Answer)} {reply : Prog.Reply ApprovalCall.Answer c}
  {row : ApprovalRequest} {d : ApprovalDecision}

/-- A decision that leaves a request expired is an expiry. -/
theorem expire_of_resolve {needed : ℕ} {kind : ApprovalDecisionKind} {decisions : List ApprovalDecision}
    {resolvedAt : ℤ} (hp : row.status = .pending)
    (h : (row.decided (resolve kind needed decisions) resolvedAt).status = .expired) :
    kind = .expire ∧ (row.decided (resolve kind needed decisions) resolvedAt).resolvedAt = some resolvedAt := by
  cases kind with
  | expire => exact ⟨rfl, rfl⟩
  | reject => cases h
  | cancel => cases h
  | approve =>
    dsimp only [resolve] at h
    split_ifs at h
    · cases h
    · exact nomatch hp.symm.trans h

variable {p : ApprovalProcess}

/-- A request that a call leaves expired was swept behind its expiry. -/
theorem due_effect (hswe : r.sweeps history c)
    (hrec : ∀ entry ∈ history, Recalls s entry.1 entry.2) (heff : Effect s s' c reply)
    (hp : p.1 = r) (hrow : row ∈ s'.requests) (hexp : row.status = .expired) :
    row ∈ s.requests ∨ ∃ tenantId id draws, ExpiredBy p row tenantId id draws := by
  cases heff with
  | same hreq _ _ => exact .inl (hreq ▸ hrow)
  | opened _ hreq _ =>
    rw [hreq] at hrow
    rcases List.mem_append.1 hrow with hrow | hrow
    · exact .inl hrow
    · rw [List.mem_singleton.1 hrow] at hexp
      exact nomatch (Eq.symm hswe).trans hexp
  | @decided d needed resolvedAt _ old before behind _ hk hpen hreq hreq' _ _ =>
    rw [hreq', List.perm_middle.mem_iff, List.mem_cons] at hrow
    rcases hrow with rfl | hoth
    · obtain ⟨hexpire, hr⟩ := expire_of_resolve hpen hexp
      obtain ⟨tenantId, id, draws, request, rfl, hg, hk', hd, rfl⟩ := hswe hexpire
      obtain ⟨hf, found, hm, ho, -⟩ := hrec _ hg
      have hold : old ∈ s.requests := by
        rw [hreq]
        exact List.mem_append_right _ List.mem_cons_self
      have hs : old.opening = request.opening := by
        have hid : old.id = found.id :=
          (congrArg RequestKey.id (hk.trans hk')).trans (id_of_opening ho).symm
        rw [eq_of_id hold hm hid]
        exact ho
      have ho' : (old.decided (resolve d.decision needed (s.decisionsOn d.key ++ [d]))
          draws.decidedAt).opening = request.opening := decided_opening.trans hs
      refine .inr ⟨tenantId, id, draws, hp, (key_of_opening ho').trans hf, ?_, hr⟩
      have he := congrArg ApprovalRequest.expiresAt ho'
      exact he.trans_le hd
    · refine .inl ?_
      rw [hreq]
      exact List.perm_middle.mem_iff.2 (List.mem_cons_of_mem _ hoth)

variable [ApprovalGrants] {next : Prog.Reply ApprovalCall.Answer c → ApprovalService Unit}
  {choice : ApprovalChoice}

/-- **One call of an operation.** -/
theorem ExpiryRun.call (h : ExpiryRun s ((r, ⟨history, .call c next⟩) :: ps)) :
    ExpiryRun (c.serve s choice).2
      ((r, ⟨history ++ [⟨c, (c.serve s choice).1⟩], next (c.serve s choice).1⟩) :: ps) := by
  obtain ⟨hp, ho⟩ := List.forall_mem_cons.1 h.allowed
  obtain ⟨he, hend⟩ := List.forall_mem_cons.1 h.ends
  obtain ⟨hrecalls, hrec⟩ := List.forall_mem_cons.1 h.recalls
  have heff : Effect s (c.serve s choice).2 c (c.serve s choice).1 := serve_effect
  have hs : SettledStay s (c.serve s choice).2 := settledStay_of_step (approvalStep_effect heff)
  refine ⟨List.forall_mem_cons.2 ⟨Along.next hp _, ho⟩,
    List.forall_mem_cons.2 ⟨fun t i draws hr => (he t i draws hr).next _, hend⟩,
    List.forall_mem_cons.2 ⟨fun entry hent => ?_, fun p hp entry hent => ?_⟩, fun row hrow hexp => ?_⟩
  · rcases List.mem_append.1 hent with hent | hent
    · exact (hrecalls entry hent).stay hs
    · rw [List.mem_singleton.1 hent]
      exact serve_recalls
  · exact (hrec p hp entry hent).stay hs
  · have hm := due_effect (p := (r, ⟨history ++ [⟨c, (c.serve s choice).1⟩], next (c.serve s choice).1⟩))
      (Along.ok_call hp) hrecalls heff rfl hrow hexp
    rcases hm with hold | hn
    · obtain ⟨p, hp, t, i, draws, hby⟩ := h.due row hold hexp
      rcases List.mem_cons.1 hp with rfl | hp
      · exact ⟨_, List.mem_cons_self, t, i, draws, hby.sweeps, hby.key, hby.due, hby.resolved⟩
      · exact ⟨p, List.mem_cons_of_mem _ hp, t, i, draws, hby⟩
    · exact ⟨_, List.mem_cons_self, hn⟩

/-- What holds of the tables and all processes. -/
def expiryChronicle : Chronicle approvalOperations (fun _ _ _ => True) where
  holds := ExpiryRun
  perm := by
    intro s ps ps' hperm h
    refine ⟨fun p hp => h.allowed p (hperm.mem_iff.2 hp), fun p hp => h.ends p (hperm.mem_iff.2 hp),
      fun p hp => h.recalls p (hperm.mem_iff.2 hp), fun row hrow hexpired => ?_⟩
    obtain ⟨p, hp, hby⟩ := h.due row hrow hexpired
    exact ⟨p, hperm.mem_iff.1 hp, hby⟩
  start := by
    rintro s ps r p h hstart
    obtain rfl := recorder_signed_enter hstart
    refine ⟨List.forall_mem_cons.2 ⟨sweeps_program, h.allowed⟩, List.forall_mem_cons.2 ⟨?_, h.ends⟩,
      List.forall_mem_cons.2 ⟨fun _ hentry => (nomatch hentry), h.recalls⟩, fun row hrow hexpired => ?_⟩
    · rintro t i draws rfl
      exact ends_sweep
    · obtain ⟨p, hp, hby⟩ := h.due row hrow hexpired
      exact ⟨p, List.mem_cons_of_mem _ hp, hby⟩
  stop h := h
  move := by
    rintro s others gone p choice s' p' h - hmove
    obtain ⟨r, history, c, next, rfl, rfl, rfl⟩ := recorder_signed_next hmove
    exact h.call

omit [ApprovalGrants] in
/-- A sweep leaves its request as it should. -/
theorem ExpiryRun.swept (h : ExpiryRun s ps) (hp : p ∈ ps) {tenantId id : String}
    {draws : Draws} (hr : p.1 = .expire tenantId id draws) : Swept s p tenantId id draws := by
  refine ⟨fun d needed resolvedAt auditId request href => h.recalls p hp _ href,
    fun hret request hg hd => ?_⟩
  obtain ⟨hk, row, hrow, ho, hs⟩ := h.recalls p hp _ hg
  by_cases hpen : request.status = .pending
  · have he := h.ends p hp tenantId id draws hr
    rw [hret] at he
    obtain ⟨d, needed, auditId, found, decisions, resolved, hrec, hexpire, hk'⟩ :=
      he.of_pure request hg hd hpen
    obtain ⟨row', hrow', hk'', hexp, hres⟩ := h.recalls p hp _ hrec hexpire
    refine ⟨row', hrow', hk''.trans (hk'.trans hk), ?_, fun _ => ⟨hexp, hres⟩⟩
    rw [hexp]
    nofun
  · obtain rfl := hs hpen
    exact ⟨row, hrow, hk, hpen, fun hpen' => absurd hpen' hpen⟩

/-- Any number of steps keep what is settled. -/
theorem settledStay_of_steps {crew crew' : Crew (ApprovalTables × List ApprovalProcess) ApprovalProcess}
    (h : Relation.ReflTransGen (Crew.Step approvalOperations.ledger (fun _ _ _ => True)) crew crew') :
    SettledStay crew.shared.1 crew'.shared.1 := by
  induction h with
  | refl => exact .refl
  | tail _ hs ih => exact ih.trans (settledStay_of_step (approvalStep_of_step hs))

/-- **Expiry is what a sweep records**: in every run, a request is expired by a sweep at or behind its
expiry, a sweep that returned behind the expiry leaves its request settled, and expired where it read it
pending, and no later call moves a settled request. -/
theorem expiry_by_sweep {crew : Crew (ApprovalTables × List ApprovalProcess) ApprovalProcess}
    (h : Crew.Reachable approvalOperations.ledger (fun _ _ _ => True) (({} : ApprovalTables), []) crew) :
    ExpirySwept crew.shared.1 crew.everyone ∧
      ∀ crew', Relation.ReflTransGen (Crew.Step approvalOperations.ledger (fun _ _ _ => True)) crew crew' →
        SettledStay crew.shared.1 crew'.shared.1 := by
  have hemp : ExpiryRun {} [] :=
    ⟨fun _ hp => (nomatch hp), fun _ hp => (nomatch hp), fun _ hp => (nomatch hp), fun _ hrow => (nomatch hrow)⟩
  have he : ExpiryRun crew.shared.1 crew.everyone := expiryChronicle.reachable hemp h
  exact ⟨⟨he.due, fun p hp tenantId id draws hr => he.swept hp hr⟩, fun crew' hs =>
    settledStay_of_steps hs⟩

end Steps

/-! ### Sample runs -/

/-- The time at which the sample request expires. -/
def sampleExpiry : ℤ :=
  DAY_MS

/-- The turns of a sweep of the sample request at its expiry. -/
def sweepTurns : List (Crew.Turn ApprovalOperation ApprovalChoice) :=
  .start (.expire "t" "r" ⟨"x", "", sampleExpiry, sampleExpiry⟩) :: List.replicate 5 (.move 0 {})

/-- The turns of a member who approves at the expiry. -/
def lateTurns (accountId id : String) : List (Crew.Turn ApprovalOperation ApprovalChoice) :=
  .start (.decide "t" "r" accountId .approve none false ⟨id, "", sampleExpiry, sampleExpiry⟩) ::
    List.replicate 3 (.move 0 { member := some ⟨accountId, "admin", []⟩ })

/-- One of two administrators approves, and the sweep expires the request; the approval of the other one
is refused. -/
theorem expiry_swept : ∃ crew,
    Crew.Reachable (@approvalOperations noGrants).ledger (fun _ _ _ => True) (({} : ApprovalTables), []) crew ∧
    (crew.shared.1.requests.map fun row => (row.status, row.resolvedAt)) = [(.expired, some sampleExpiry)] ∧
    ExpirySwept crew.shared.1 crew.everyone ∧
    ∀ crew', Relation.ReflTransGen (Crew.Step (@approvalOperations noGrants).ledger (fun _ _ _ => True)) crew crew' →
      SettledStay crew.shared.1 crew'.shared.1 := by
  have hp : (Crew.play (@approvalOperations noGrants).ledger (fun _ _ _ => True)
      ⟨(({} : ApprovalTables), []), []⟩ (openTurns ++ lateTurns "bob" "d1" ++ sweepTurns ++
        (.start (.decide "t" "r" "cyd" .approve none false ⟨"d2", "", sampleExpiry, sampleExpiry⟩) ::
          List.replicate 2 (.move 0 { member := some ⟨"cyd", "admin", []⟩ })))).map
        (fun crew => crew.shared.1.requests.map fun row => (row.status, row.resolvedAt)) =
        some [(.expired, some sampleExpiry)] := by decide +kernel
  obtain ⟨crew, hc, hs⟩ := Option.map_eq_some_iff.1 hp
  have hr : Crew.Reachable (@approvalOperations noGrants).ledger (fun _ _ _ => True)
      (({} : ApprovalTables), []) crew := Crew.reachable_of_play hc
  exact ⟨crew, hr, hs, @expiry_by_sweep noGrants crew hr⟩

/-- Two administrators approve at the expiry, before any sweep: the request is approved. -/
theorem approvals_decided_late : ∃ crew,
    Crew.Reachable (@approvalOperations noGrants).ledger (fun _ _ _ => True) (({} : ApprovalTables), []) crew ∧
    (crew.shared.1.requests.map fun row => (row.status, row.expiresAt, row.resolvedAt)) =
      [(.approved, sampleExpiry, some sampleExpiry)] ∧
    ¬ NeverLate crew.shared.1 := by
  have hp : (Crew.play (@approvalOperations noGrants).ledger (fun _ _ _ => True)
      ⟨(({} : ApprovalTables), []), []⟩ (openTurns ++ lateTurns "bob" "d1" ++ lateTurns "cyd" "d2")).map
        (fun crew => crew.shared.1.requests.map fun row => (row.status, row.expiresAt, row.resolvedAt)) =
        some [(.approved, sampleExpiry, some sampleExpiry)] := by decide +kernel
  obtain ⟨crew, hc, hrows⟩ := Option.map_eq_some_iff.1 hp
  refine ⟨crew, Crew.reachable_of_play hc, hrows, fun h => ?_⟩
  obtain ⟨row, hrow, hres⟩ : ∃ row ∈ crew.shared.1.requests,
      (row.status, row.expiresAt, row.resolvedAt) = (.approved, sampleExpiry, some sampleExpiry) := by
    refine List.mem_map.1 ?_
    rw [hrows]
    exact List.mem_singleton_self _
  obtain ⟨hs, hrest⟩ := Prod.mk.inj hres
  obtain ⟨he, hr⟩ := Prod.mk.inj hrest
  have hlt := h row hrow (.inl hs) sampleExpiry hr
  rw [he] at hlt
  exact lt_irrefl _ hlt

end Flowdular.Approvals
