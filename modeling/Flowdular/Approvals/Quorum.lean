/-
# Requests are settled by their quorum, once

Operations on requests take turns call by call.  A decision is recorded on a request that is
pending, under its lock, so the decisions on a request are approvals, as many as it needs where
it is approved, and one decision of another kind at most, which is the last one and settles it
(`Ledger`).  One operation is told that it settled the request, and what follows (the event,
the callback) is of that operation (`approvals_settle_once`).

A request that is cancelled is told of by no event: its requester knows of it.
-/

import Flowdular.Approvals.Requests

namespace Flowdular.Approvals

open Lib Workflows
open Discipline (All all_bind)
open Prog (History Recorded recorder recorder_signed_enter recorder_signed_next Along along_bind along_of_all along_all_bind along_need_bind
  along_ofExcept_bind Ends ends_bind ends_all_bind ends_ends_bind ends_need_bind ends_ofExcept_bind Within within_pure within_fail within_bind
  within_need within_ofExcept)

/-! ### What is said of a request -/

/-- The request as it was opened. -/
def ApprovalRequest.opening (row : ApprovalRequest) : ApprovalRequest :=
  { row with status := .pending, resolvedAt := none }

/-- The decisions on a request, by its status: approvals, and behind them the decision of another
kind that settled it, if one did. -/
def Ledger (status : ApprovalStatus) (needed : ℕ) (decisions : List ApprovalDecision) : Prop :=
  match status with
  | .pending => (∀ d ∈ decisions, d.decision = .approve) ∧ decisions.length < needed
  | .approved => (∀ d ∈ decisions, d.decision = .approve) ∧ decisions.length = needed
  | status => ∃ before last, decisions = before ++ [last] ∧ (∀ d ∈ before, d.decision = .approve) ∧
      before.length < needed ∧ status.settlingDecision = some last.decision

/-- The operation is a decision of a member, who satisfied the requirement of the request when it
asked who decides. -/
def Votes (r : ApprovalOperation) (history : History ApprovalCall (Prog.Reply ApprovalCall.Answer))
    (request : ApprovalRequest) (d : ApprovalDecision) (verdict : Verdict) : Prop :=
  ∃ tenantId id accountId comment manage draws member,
    r = .decide tenantId id accountId verdict comment manage draws ∧
    (⟨.member request.tenantId accountId, .ok (some member)⟩ : ApprovalEntry) ∈ history ∧
    memberSatisfies request.requirement member request.requesterAccountId = true ∧
    d.deciderAccountId = some member.accountId

/-- The operation made the approval, of a member who satisfied the requirement. -/
structure ApprovedBy (p : ApprovalProcess) (request : ApprovalRequest) (d : ApprovalDecision) : Prop where
  votes : Votes p.1 p.2.history request d .approve
  made : ∃ entry ∈ p.2.history, ∃ needed resolvedAt auditId, entry.1 = .decide d needed resolvedAt auditId

/-- Behind an approved request stand as many people as it needs, each other than its requester,
each of whom satisfied its requirement, and nobody decided otherwise. -/
structure Quorum (s : ApprovalTables) (ps : List ApprovalProcess) (row : ApprovalRequest) : Prop where
  approvals : ∀ d ∈ s.decisionsOn row.key, d.decision = .approve
  different : ((s.decisionsOn row.key).map (·.deciderAccountId)).Nodup
  enough : row.decisionsNeeded ≤ (s.decisionsOn row.key).length
  eligible : ∀ d ∈ s.decisionsOn row.key, ∃ accountId, d.deciderAccountId = some accountId ∧
    accountId ≠ row.requesterAccountId ∧ ∃ p ∈ ps, ApprovedBy p row d

/-! ### What is said of the operations -/

/-- What an operation was told it settled: the request, its decisions, and how it decided. -/
structure Settled where
  request : ApprovalRequest
  decisions : List ApprovalDecision
  kind : ApprovalDecisionKind

/-- What a call says was settled. -/
def settledBy (entry : ApprovalEntry) : Option Settled :=
  match entry with
  | ⟨.decide d _ _ _, .ok (.recorded request decisions true)⟩ => some ⟨request, decisions, d.decision⟩
  | _ => none

/-- The call says that the request of the key was settled. -/
def settles (k : RequestKey) (entry : ApprovalEntry) : Bool :=
  (settledBy entry).any fun told => told.request.key = k

/-- The call is a decision on the request that was not answered. -/
def unanswered (k : RequestKey) (entry : ApprovalEntry) : Bool :=
  match entry with
  | ⟨.decide d _ _ _, .error _⟩ => d.key = k
  | _ => false

/-- What all processes were answered. -/
def entriesOf (ps : List ApprovalProcess) : List ApprovalEntry :=
  ps.flatMap fun p => p.2.history

/-- How many operations were told that they settled the request. -/
def told (ps : List ApprovalProcess) (k : RequestKey) : ℕ :=
  (entriesOf ps).countP (settles k)

/-- How many decisions on the request were not answered. -/
def lost (ps : List ApprovalProcess) (k : RequestKey) : ℕ :=
  (entriesOf ps).countP (unanswered k)

/-- The event of a request that was decided. -/
def decidedEvent (request : ApprovalRequest) : NotificationPublishInput :=
  let text := request.status.text
  { tenantId := request.tenantId, kind := .approvalDecided
    sourceModule := clamp "approvals.core" 64, sourceRef := clamp request.id 200
    title := clamp request.title 200, body := some (clamp s!"The request is {text}." 4000)
    recipients := [clamp request.requesterAccountId 128] }

/-- Every request an operation was told it settled has its event published, if there is a publisher
and it was not cancelled, and its callback run, if there is one. -/
def Produces (history : History ApprovalCall (Prog.Reply ApprovalCall.Answer)) : Prop :=
  ∀ entry ∈ history, ∀ told, settledBy entry = some told →
    (told.kind ≠ .cancel → ∃ reply, (⟨.publisher, reply⟩ : ApprovalEntry) ∈ history ∧
      (reply = .ok true → ∃ reply', (⟨.publish (decidedEvent told.request), reply'⟩ : ApprovalEntry) ∈ history)) ∧
    ∃ callback, (⟨.takeCallback (callbackKey told.request.key), .ok callback⟩ : ApprovalEntry) ∈ history ∧
      ∀ found, callback = some found →
        ∃ reply, (⟨.runCallback found (withDeciders told.request told.decisions), reply⟩ : ApprovalEntry) ∈ history

/-- A call that tells of a decided request, or takes or runs a callback, is of an operation that was
told it settled the request. -/
def Behind (history : History ApprovalCall (Prog.Reply ApprovalCall.Answer)) (c : ApprovalCall) : Prop :=
  match c with
  | .publish event => event.kind = .approvalDecided → ∃ entry ∈ history, ∃ told,
      settledBy entry = some told ∧ told.kind ≠ .cancel ∧ event = decidedEvent told.request
  | .takeCallback key => ∃ entry ∈ history, ∃ told,
      settledBy entry = some told ∧ key = callbackKey told.request.key
  | .runCallback _ request => ∃ entry ∈ history, ∃ told,
      settledBy entry = some told ∧ request = withDeciders told.request told.decisions
  | _ => True

/-- What is said of the tables and the operations: the decisions on a request are those of its status,
an approved one has its quorum, one operation is told that it settled a request, unless its answer was
lost, and what follows is done by the operation that was told. -/
structure ApprovalsSettled (s : ApprovalTables) (ps : List ApprovalProcess) : Prop where
  ledger : ∀ row ∈ s.requests, Ledger row.status row.decisionsNeeded (s.decisionsOn row.key)
  quorum : ∀ row ∈ s.requests, row.status = .approved → Quorum s ps row
  once : ∀ row ∈ s.requests, told ps row.key ≤ (if row.status = .pending then 0 else 1) ∧
    (row.status ≠ .pending → told ps row.key = 1 ∨ 0 < lost ps row.key)
  produces : ∀ p ∈ ps, p.2.rest = .pure () → Produces p.2.history
  behind : ∀ p ∈ ps, ∀ entry ∈ p.2.history, Behind p.2.history entry.1

/-- What is said of a step: no request is lost, what is settled stays as it is, with its decisions, and
decisions are only added to a request that is pending. -/
def ApprovalStep (s s' : ApprovalTables) : Prop :=
  ∀ row ∈ s.requests, ∃ row' ∈ s'.requests, row'.opening = row.opening ∧
    s.decisionsOn row.key <+: s'.decisionsOn row.key ∧
    (row.status ≠ .pending → row' = row ∧ s'.decisionsOn row.key = s.decisionsOn row.key)

/-! ### What a call does -/

/-- The request behind a decision, with what it came to. -/
def ApprovalRequest.decided (row : ApprovalRequest) (outcome : Option ApprovalStatus) (resolvedAt : ℤ) :
    ApprovalRequest :=
  match outcome with
  | none => row
  | some status => row.resolved status resolvedAt

/-- What a call leaves of the tables, with its reply: the requests and decisions stay, a request is
opened, or a decision is recorded on one that is pending. -/
inductive Effect (s s' : ApprovalTables) : (c : ApprovalCall) → Prog.Reply ApprovalCall.Answer c → Prop
  | same {c : ApprovalCall} {reply : Prog.Reply ApprovalCall.Answer c} (hrequests : s'.requests = s.requests)
      (hdecisions : s'.decisions = s.decisions) (hreply : settledBy ⟨c, reply⟩ = none) : Effect s s' c reply
  | opened {request : ApprovalRequest} {eligible : List String}
      {reply : Prog.Reply ApprovalCall.Answer (.create request eligible)}
      (hnew : request.id ∉ s.requests.map (·.id))
      (hrequests : s'.requests = s.requests ++ [request]) (hdecisions : s'.decisions = s.decisions) :
      Effect s s' (.create request eligible) reply
  | decided {d : ApprovalDecision} {needed : ℕ} {resolvedAt : ℤ} {auditId : String} {row : ApprovalRequest}
      {before behind : List ApprovalRequest}
      {reply : Prog.Reply ApprovalCall.Answer (.decide d needed resolvedAt auditId)}
      (hkey : row.key = d.key) (hpending : row.status = .pending)
      (hrequests : s.requests = before ++ row :: behind)
      (hrequests' : s'.requests =
        before ++ row.decided (resolve d.decision needed (s.decisionsOn d.key ++ [d])) resolvedAt :: behind)
      (hdecisions : s'.decisions = s.decisions ++ [d])
      (hreply : (∃ e, reply = .error e) ∨ ∃ request decisions, reply = .ok (.recorded request decisions
        (resolve d.decision needed (s.decisionsOn d.key ++ [d])).isSome) ∧ request.key = d.key) :
      Effect s s' (.decide d needed resolvedAt auditId) reply

section Effects

variable {s s' : ApprovalTables} {k : RequestKey} {d : ApprovalDecision} {row : ApprovalRequest} {needed : ℕ}
  {resolvedAt : ℤ} {auditId : String} {decisions decisions' : List ApprovalDecision}

/-- What a decision comes to does not depend on the order of the decisions. -/
theorem resolve_perm {kind : ApprovalDecisionKind} (h : decisions.Perm decisions') :
    resolve kind needed decisions = resolve kind needed decisions' := by
  cases kind with
  | approve =>
    unfold resolve
    rw [h.countP_eq]
  | _ => rfl

theorem decisionsOn_append (h : s'.decisions = s.decisions ++ [d]) :
    s'.decisionsOn k = s.decisionsOn k ++ if d.key = k then [d] else [] := by
  unfold ApprovalTables.decisionsOn
  rw [h, List.filter_append]
  split_ifs with hk
  · rw [List.filter_cons_of_pos (by simpa using hk), List.filter_nil]
  · rw [List.filter_cons_of_neg (by simpa using hk), List.filter_nil]

theorem decisionsOn_same (h : s'.decisions = s.decisions) : s'.decisionsOn k = s.decisionsOn k := by
  unfold ApprovalTables.decisionsOn
  rw [h]

variable {before : List ApprovalRequest}

/-- The rows around the one of a key have other keys. -/
theorem key_ne_of_split {behind : List ApprovalRequest} (h : s.requests = before ++ row :: behind) :
    ∀ other ∈ before ++ behind, other.key ≠ row.key := by
  have hi := s.ids
  rw [h, List.map_append, List.map_cons] at hi
  have hp : (before.map (·.id) ++ row.id :: behind.map (·.id)).Perm
      (row.id :: (before.map (·.id) ++ behind.map (·.id))) := List.perm_middle
  have hn := (List.nodup_cons.1 (hp.nodup_iff.1 hi)).1
  intro other ho hk
  refine hn ?_
  rw [← List.map_append]
  have hid : other.id = row.id := congrArg RequestKey.id hk
  rw [← hid]
  exact List.mem_map_of_mem ho

/-- The update that resolves the request of a key. -/
theorem resolveRequest_requests {behind : List ApprovalRequest} {terminal : ApprovalStatus}
    (h : s.requests = before ++ row :: behind) (hp : row.status = .pending) :
    (s.resolveRequest row.key terminal resolvedAt).requests =
      before ++ row.resolved terminal resolvedAt :: behind := by
  have hne := key_ne_of_split h
  have ho : ∀ other ∈ before ++ behind, (other.key = row.key && other.status = .pending) = false := by
    intro other ho
    simp [hne other ho]
  unfold ApprovalTables.resolveRequest
  dsimp only
  rw [h]
  exact Table.update_of_unique (by simp [hp])
    (fun other ho' => ho other (List.mem_append_left _ ho'))
    fun other ho' => ho other (List.mem_append_right _ ho')

variable [ApprovalGrants]

/-- The answer of a decision that was recorded, and its effect. -/
theorem decide_effect : ∀ answer s', s.decide d needed resolvedAt auditId = .ok (answer, s') →
    ∀ reply : Prog.Reply ApprovalCall.Answer (.decide d needed resolvedAt auditId),
      (reply = .ok answer ∨ ∃ e, reply = .error e) →
        Effect s s' (.decide d needed resolvedAt auditId) reply := by
  intro answer s' h reply hrep
  have hs : (∀ request decisions, answer ≠ .recorded request decisions true) → s' = s →
      Effect s s' (.decide d needed resolvedAt auditId) reply := by
    rintro ha rfl
    refine .same rfl rfl ?_
    rcases hrep with rfl | ⟨e, rfl⟩
    · unfold settledBy
      split
      · next heq =>
        obtain ⟨-, hrep⟩ := Sigma.mk.inj heq
        exact absurd (Except.ok.inj (eq_of_heq hrep)) (ha _ _)
      · rfl
    · rfl
  unfold ApprovalTables.decide at h
  split at h
  · obtain ⟨rfl, rfl⟩ := Prod.mk.inj (Except.ok.inj h)
    exact hs (fun _ _ hn => by cases hn) rfl
  · next request hr =>
    split_ifs at h with hpen hdec
    · obtain ⟨rfl, rfl⟩ := Prod.mk.inj (Except.ok.inj h)
      exact hs (fun _ _ hn => by cases hn) rfl
    · obtain ⟨rfl, rfl⟩ := Prod.mk.inj (Except.ok.inj h)
      exact hs (fun _ _ hn => by cases hn) rfl
    · have hk : request.key = d.key := by
        simpa using List.find?_some hr
      have hm : request ∈ s.requests := List.mem_of_find?_eq_some hr
      obtain ⟨before, behind, hspl⟩ := List.append_of_mem hm
      dsimp only at h
      have hi : ∀ hn, (s.insertDecision d hn).decisions = s.decisions ++ [d] := fun _ => rfl
      have hp : ∀ hn, ((s.insertDecision d hn).listDecisions d.key).Perm (s.decisionsOn d.key ++ [d]) := by
        intro hn
        have hd := decisionsOn_append (k := d.key) (hi hn)
        rw [if_pos rfl] at hd
        rw [← hd]
        exact List.perm_insertionSort _ _
      rw [resolve_perm (hp _)] at h
      cases ho : resolve d.decision needed (s.decisionsOn d.key ++ [d]) with
      | none =>
        rw [ho] at h
        obtain ⟨rfl, rfl⟩ := Prod.mk.inj (Except.ok.inj h)
        refine .decided hk (not_not.1 hpen) hspl ?_ rfl ?_
        · rw [ho]
          exact hspl
        · rw [ho]
          exact hrep.symm.imp_right fun hrep => ⟨_, _, hrep, hk⟩
      | some terminal =>
        rw [ho] at h
        dsimp only at h
        have hreq : ∀ hn, ((s.insertDecision d hn).resolveRequest d.key terminal resolvedAt).requests =
            before ++ request.decided (some terminal) resolvedAt :: behind := by
          intro hn
          rw [← hk]
          exact resolveRequest_requests (s := s.insertDecision d hn) hspl (not_not.1 hpen)
        have hres : s'.requests = before ++ request.decided (some terminal) resolvedAt :: behind ∧
            s'.decisions = s.decisions ++ [d] ∧
            ∃ decisions, answer = .recorded (request.resolved terminal resolvedAt) decisions true := by
          split at h
          · obtain ⟨rfl, rfl⟩ := Prod.mk.inj (Except.ok.inj h)
            exact ⟨hreq _, rfl, _, rfl⟩
          · obtain ⟨s₁, hs₁, h⟩ := bind_eq_ok h
            obtain ⟨rfl, rfl⟩ := Prod.mk.inj (Except.ok.inj h)
            unfold ApprovalTables.insertAudit at hs₁
            split_ifs at hs₁
            rw [← Except.ok.inj hs₁]
            exact ⟨hreq _, rfl, _, rfl⟩
        obtain ⟨hreq', hd, decisions, rfl⟩ := hres
        have hk' : (request.resolved terminal resolvedAt).key = d.key := hk
        refine .decided hk (not_not.1 hpen) hspl ?_ hd ?_
        · rw [ho]
          exact hreq'
        · rw [ho]
          exact hrep.symm.imp_right fun hrep => ⟨_, _, hrep, hk'⟩

omit [ApprovalGrants] in
/-- What a request that is opened leaves. -/
theorem create_effect {request : ApprovalRequest} {eligible : List String} :
    ∀ answer s', s.create request eligible = .ok (answer, s') →
    ∀ reply : Prog.Reply ApprovalCall.Answer (.create request eligible),
      Effect s s' (.create request eligible) reply := by
  intro answer s' h reply
  unfold ApprovalTables.create at h
  split_ifs at h with hc he
  · obtain ⟨rfl, rfl⟩ := Prod.mk.inj (Except.ok.inj h)
    exact .same rfl rfl rfl
  · obtain ⟨rfl, rfl⟩ := Prod.mk.inj (Except.ok.inj h)
    exact .opened (s.id_of_conflicts (by simpa using hc)) rfl rfl

end Effects

section Serve

variable [ApprovalGrants] {s : ApprovalTables} {c : ApprovalCall} {choice : ApprovalChoice}

/-- **What a call does**, where it is performed, with its answer or without. -/
theorem perform_effect {reply : Prog.Reply ApprovalCall.Answer c}
    (hr : reply = (c.perform choice s).1 ∨ ∃ e, reply = .error e) :
    Effect s (c.perform choice s).2 c reply := by
  cases c with
  | create request eligible =>
    cases h : s.create request eligible with
    | error e =>
      have hp : ((ApprovalCall.create request eligible).perform choice s).2 = s := by
        simp [ApprovalCall.perform, ApprovalTables.committed, h]
      rw [hp]
      exact .same rfl rfl rfl
    | ok result =>
      have hp : ((ApprovalCall.create request eligible).perform choice s).2 = result.2 := by
        simp [ApprovalCall.perform, ApprovalTables.committed, h]
      rw [hp]
      exact create_effect result.1 result.2 h reply
  | decide d needed resolvedAt auditId =>
    cases h : s.decide d needed resolvedAt auditId with
    | error e =>
      have hp : (ApprovalCall.decide d needed resolvedAt auditId).perform choice s = (.error e, s) := by
        simp [ApprovalCall.perform, ApprovalTables.committed, h]
      rw [hp] at hr ⊢
      rcases hr with rfl | ⟨e, rfl⟩
      · exact .same rfl rfl rfl
      · exact .same rfl rfl rfl
    | ok result =>
      have hp : (ApprovalCall.decide d needed resolvedAt auditId).perform choice s =
          (.ok result.1, result.2) := by
        simp [ApprovalCall.perform, ApprovalTables.committed, h]
      rw [hp] at hr ⊢
      exact decide_effect result.1 result.2 h reply hr
  | _ => exact .same rfl rfl rfl

/-- **What a call does**, answered or not. -/
theorem serve_effect : Effect s (c.serve s choice).2 c (c.serve s choice).1 := by
  unfold ApprovalCall.serve
  split
  · exact perform_effect (.inl rfl)
  · next kept error _ =>
    cases hp : c.inProcess with
    | true => exact perform_effect (.inl rfl)
    | false =>
      cases kept with
      | true => exact perform_effect (.inr ⟨error, rfl⟩)
      | false =>
        refine .same rfl rfl ?_
        cases c <;> rfl

end Serve

/-! ### The calls of an operation -/

/-- The operation decides so. -/
def Decides (r : ApprovalOperation) (history : History ApprovalCall (Prog.Reply ApprovalCall.Answer))
    (request : ApprovalRequest) (d : ApprovalDecision) : Prop :=
  d.decision = .approve → Votes r history request d .approve

/-- The calls an operation may make: a request is opened pending, a decision is on a request that was
read, and made by a member who may make it, and what follows is behind it. -/
def ApprovalOperation.makes (r : ApprovalOperation)
    (history : History ApprovalCall (Prog.Reply ApprovalCall.Answer)) (c : ApprovalCall) : Prop :=
  match c with
  | .create request _ => request.status = .pending ∧ 0 < request.decisionsNeeded
  | .decide d needed _ _ => ∃ request,
      (∃ tenantId id, (⟨.get tenantId id, .ok (some request)⟩ : ApprovalEntry) ∈ history) ∧
      d.key = request.key ∧ needed = request.decisionsNeeded ∧ Decides r history request d
  | c => Behind history c

/-- The call settles nothing, and nothing follows from it. -/
def ApprovalCall.plain : ApprovalCall → Bool
  | .create .. => false
  | .decide .. => false
  | .takeCallback _ => false
  | .runCallback .. => false
  | .publish event => event.kind ≠ .approvalDecided
  | _ => true

/-- The call is a decision. -/
def ApprovalCall.decides : ApprovalCall → Bool
  | .decide .. => true
  | _ => false

section Programs

variable {r : ApprovalOperation} {history history' : History ApprovalCall (Prog.Reply ApprovalCall.Answer)}
  {c : ApprovalCall} {request : ApprovalRequest} {decisions : List ApprovalDecision} {d : ApprovalDecision}

theorem Behind.mono (hs : history ⊆ history') (h : Behind history c) : Behind history' c := by
  cases c with
  | publish event =>
    intro hk
    obtain ⟨entry, he, ht⟩ := h hk
    exact ⟨entry, hs he, ht⟩
  | takeCallback key =>
    obtain ⟨entry, he, ht⟩ := h
    exact ⟨entry, hs he, ht⟩
  | runCallback callback detail =>
    obtain ⟨entry, he, ht⟩ := h
    exact ⟨entry, hs he, ht⟩
  | _ => trivial

theorem makes_of_plain (h : c.plain = true) : r.makes history c := by
  cases c with
  | create => cases h
  | decide => cases h
  | takeCallback => cases h
  | runCallback => cases h
  | publish event => exact fun hk => absurd hk (of_decide_eq_true h)
  | _ => trivial

/-- A program of plain calls. -/
abbrev Plain {α : Type} (p : ApprovalService α) : Prop :=
  Within (fun c => c.plain = true) p

/-- A program without decisions. -/
abbrev DecidesNothing {α : Type} (p : ApprovalService α) : Prop :=
  Within (fun c => c.decides = false) p

variable {α : Type} {p : ApprovalService α} {notifyRequester manage : Bool}
  {auditId id tenantId actorAccountId : String} {draws : Draws} {input : OpenApprovalInput}
  {f : ApprovalRequest → ApprovalService Unit} {comment : Option String} {verdict : Verdict}

theorem decidesNothing_of_plain (h : Plain p) : DecidesNothing p := by
  refine ⟨h.all.mono fun c hc => ?_⟩
  cases c with
  | decide => cases hc
  | _ => rfl

theorem along_plain (h : Plain p) : Along r.makes history p :=
  along_of_all (fun _ _ => makes_of_plain) h.all

/-- A count that is in its bounds. -/
theorem boundedInteger_ok {value : Decimal} {field : String} {minimum maximum n : ℕ}
    (h : boundedInteger value field minimum maximum = .ok n) : minimum ≤ n := by
  unfold boundedInteger at h
  dsimp only at h
  split_ifs at h with hb
  push Not at hb
  have hw := Except.ok.inj h
  omega

/-- A requirement asks for a decision. -/
theorem normalizeRequirement_ok {requirement : ApprovalRequirement} {days : Decimal}
    {record : ApprovalRequirementRecord} (h : normalizeRequirement requirement days = .ok record) :
    0 < record.decisions := by
  unfold normalizeRequirement at h
  obtain ⟨roleKey, -, h⟩ := bind_eq_ok h
  obtain ⟨scope, -, h⟩ := bind_eq_ok h
  split_ifs at h
  obtain ⟨decisions, hd, h⟩ := bind_eq_ok h
  obtain ⟨expiresInDays, -, h⟩ := bind_eq_ok h
  rw [← Except.ok.inj h]
  exact boundedInteger_ok hd

/-! What follows a request that was settled. -/

/-- The operation was told that it settled the request, by a decision of the kind. -/
def Told (history : History ApprovalCall (Prog.Reply ApprovalCall.Answer)) (told : Settled) : Prop :=
  ∃ entry ∈ history, settledBy entry = some told

theorem Told.mono {told : Settled} (h : Told history told) (hs : history ⊆ history') : Told history' told := by
  obtain ⟨entry, he, ht⟩ := h
  exact ⟨entry, hs he, ht⟩

/-- What is published of a request that was decided. -/
theorem publishDecided_eq : publishDecided request = .call .publisher fun
      | .ok true => .call (.publish (decidedEvent request)) fun _ => .pure ()
      | _ => .pure () := by
  unfold publishDecided
  unfold publishApprovalEvent
  rw [if_neg (List.cons_ne_nil _ _)]
  refine congrArg (Prog.call _) (funext fun reply => ?_)
  match reply with
  | .error e => rfl
  | .ok false => rfl
  | .ok true =>
    refine congrArg (Prog.call _) (funext fun reply' => ?_)
    cases reply' with
    | error e => rfl
    | ok a => rfl

/-- The calls that follow a request that was settled. -/
theorem along_settled {told : Settled} (h : Told history told)
    (hn : notifyRequester = true → told.kind ≠ .cancel) :
    Along r.makes history (settled told.request told.decisions notifyRequester) := by
  have hp : Along r.makes history (notify told.request notifyRequester) := by
    unfold notify
    split_ifs with hy
    · rw [publishDecided_eq]
      refine .call trivial fun reply => ?_
      match reply with
      | .error e => exact .pure
      | .ok false => exact .pure
      | .ok true =>
        refine .call (fun _ => ?_) fun _ => .pure
        obtain ⟨entry, he, ht⟩ := h
        exact ⟨entry, List.mem_append_left _ he, told, ht, hn hy, rfl⟩
    · exact .pure
  refine along_bind hp fun _ history' hle => ?_
  have h' := h.mono hle.subset
  refine along_need_bind ?_ fun callback => ?_
  · obtain ⟨entry, he, ht⟩ := h'
    exact ⟨entry, he, told, ht, rfl⟩
  · cases callback with
    | none => exact .pure
    | some callback =>
      refine .call ?_ fun _ => .pure
      obtain ⟨entry, he, ht⟩ := h'
      exact ⟨entry, List.mem_append_left _ he, told, ht, rfl⟩

/-- The history tells of one request that was settled, and of its event. -/
structure Notified (told : Settled) (history : History ApprovalCall (Prog.Reply ApprovalCall.Answer)) : Prop where
  only : ∀ entry ∈ history, ∀ other, settledBy entry = some other → other = told
  event : told.kind ≠ .cancel → ∃ reply, (⟨.publisher, reply⟩ : ApprovalEntry) ∈ history ∧
    (reply = .ok true → ∃ reply', (⟨.publish (decidedEvent told.request), reply'⟩ : ApprovalEntry) ∈ history)

theorem only_append {told : Settled} {extra : History ApprovalCall (Prog.Reply ApprovalCall.Answer)}
    (h : ∀ entry ∈ history, ∀ other, settledBy entry = some other → other = told)
    (hext : ∀ entry ∈ extra, settledBy entry = none) :
    ∀ entry ∈ history ++ extra, ∀ other, settledBy entry = some other → other = told := by
  intro entry he other ho
  rcases List.mem_append.1 he with he | he
  · exact h entry he other ho
  · rw [hext entry he] at ho
    cases ho

/-- **What follows is done**, where the operation returns. -/
theorem ends_settled {told : Settled}
    (honly : ∀ entry ∈ history, ∀ other, settledBy entry = some other → other = told)
    (hn : told.kind ≠ .cancel → notifyRequester = true) :
    Ends (fun history _ => Produces history) history (settled told.request told.decisions notifyRequester) := by
  have hp : Ends (fun history _ => Notified told history) history
      (notify told.request notifyRequester) := by
    unfold notify
    split_ifs with hy
    · rw [publishDecided_eq]
      refine .call fun reply => ?_
      have ha := only_append honly
        (List.forall_mem_singleton.2 (rfl : settledBy ⟨.publisher, reply⟩ = none))
      have hm : (⟨.publisher, reply⟩ : ApprovalEntry) ∈ history ++ [⟨.publisher, reply⟩] :=
        List.mem_append_right _ (List.mem_singleton_self _)
      match reply with
      | .error e => exact .pure ⟨ha, fun _ => ⟨_, hm, by nofun⟩⟩
      | .ok false => exact .pure ⟨ha, fun _ => ⟨_, hm, by nofun⟩⟩
      | .ok true =>
        refine .call fun reply' => .pure ⟨?_, fun _ => ⟨_, List.mem_append_left _ hm, fun _ => ⟨reply', ?_⟩⟩⟩
        · exact only_append ha (List.forall_mem_singleton.2 rfl)
        · exact List.mem_append_right _ (List.mem_singleton_self _)
    · exact .pure ⟨honly, fun hk => absurd (hn hk) hy⟩
  refine ends_ends_bind hp fun _ history' _ hnot => ?_
  refine ends_need_bind fun callback => ?_
  have ht : (⟨.takeCallback (callbackKey told.request.key), .ok callback⟩ : ApprovalEntry) ∈
      history' ++ [⟨.takeCallback (callbackKey told.request.key), .ok callback⟩] :=
    List.mem_append_right _ (List.mem_singleton_self _)
  have ha := only_append hnot.only (List.forall_mem_singleton.2
    (rfl : settledBy ⟨.takeCallback (callbackKey told.request.key), .ok callback⟩ = none))
  have heve : ∀ extra, told.kind ≠ .cancel → ∃ reply, (⟨.publisher, reply⟩ : ApprovalEntry) ∈ history' ++ extra ∧
      (reply = .ok true →
        ∃ reply', (⟨.publish (decidedEvent told.request), reply'⟩ : ApprovalEntry) ∈ history' ++ extra) := by
    intro extra hk
    obtain ⟨reply, hm, hpub⟩ := hnot.event hk
    refine ⟨reply, List.mem_append_left _ hm, fun hy => ?_⟩
    obtain ⟨reply', hm'⟩ := hpub hy
    exact ⟨reply', List.mem_append_left _ hm'⟩
  cases callback with
  | none =>
    refine .pure fun entry he other ho => ?_
    rw [ha entry he other ho]
    exact ⟨heve _, none, ht, by nofun⟩
  | some callback =>
    refine .call fun reply => .pure fun entry he other ho => ?_
    rw [only_append ha (List.forall_mem_singleton.2 rfl) entry he other ho]
    refine ⟨?_, some callback, List.mem_append_left _ ht, ?_⟩
    · rw [List.append_assoc]
      exact heve _
    · rintro found ⟨⟩
      exact ⟨reply, List.mem_append_right _ (List.mem_singleton_self _)⟩

/-- A history without decisions. -/
def Undecided (history : History ApprovalCall (Prog.Reply ApprovalCall.Answer)) : Prop :=
  ∀ entry ∈ history, entry.1.decides = false

theorem Undecided.unsettled (h : Undecided history) : ∀ entry ∈ history, settledBy entry = none := by
  rintro ⟨c, reply⟩ he
  have hc : c.decides = false := h _ he
  cases c with
  | decide => cases hc
  | _ => rfl

/-- An operation that settles nothing produces nothing. -/
theorem produces_unsettled (h : ∀ entry ∈ history, settledBy entry = none) : Produces history := by
  intro entry he told ht
  rw [h entry he] at ht
  cases ht

theorem along_record
    (hr : ∃ tenantId id, (⟨.get tenantId id, .ok (some request)⟩ : ApprovalEntry) ∈ history)
    (hk : d.key = request.key) (hd : Decides r history request d)
    (hn : notifyRequester = true → d.decision ≠ .cancel) :
    Along r.makes history (record request d auditId notifyRequester) := by
  refine along_need_bind ⟨request, hr, hk, rfl, hd⟩ fun result => ?_
  cases result with
  | notFound => exact .fail
  | notPending => exact .fail
  | duplicate => exact .fail
  | recorded found decisions resolved =>
    cases resolved with
    | false => exact .pure
    | true =>
      have ht : Told (history ++ [⟨.decide d request.decisionsNeeded d.decidedAt auditId,
          .ok (.recorded found decisions true)⟩]) ⟨found, decisions, d.decision⟩ :=
        ⟨_, List.mem_append_right _ (List.mem_singleton_self _), rfl⟩
      exact along_settled ht hn

theorem ends_record (hh : Undecided history) (hn : d.decision ≠ .cancel → notifyRequester = true) :
    Ends (fun history _ => Produces history) history (record request d auditId notifyRequester) := by
  refine ends_need_bind fun result => ?_
  cases result with
  | notFound => exact .fail
  | notPending => exact .fail
  | duplicate => exact .fail
  | recorded found decisions resolved =>
    cases resolved with
    | false =>
      refine .pure (produces_unsettled (List.forall_mem_append.2 ⟨hh.unsettled, ?_⟩))
      exact List.forall_mem_singleton.2 rfl
    | true =>
      have honly : ∀ entry ∈ history ++ [(⟨.decide d request.decisionsNeeded d.decidedAt auditId,
          .ok (.recorded found decisions true)⟩ : ApprovalEntry)], ∀ other, settledBy entry = some other →
            other = ⟨found, decisions, d.decision⟩ := by
        intro entry he other ho
        rcases List.mem_append.1 he with he | he
        · rw [hh.unsettled entry he] at ho
          cases ho
        · rw [List.mem_singleton.1 he] at ho
          exact (Option.some.inj ho).symm
      exact ends_settled honly hn

/-! The programs. -/

theorem plain_publishBatches {event : List String → NotificationPublishInput}
    (he : ∀ recipients, (event recipients).kind ≠ .approvalDecided) :
    ∀ {batches : List (List String)}, Plain (publishBatches event batches) := by
  intro batches
  induction batches with
  | nil => exact within_pure
  | cons batch batches ih =>
    refine ⟨decide_eq_true (he _), fun reply => ?_⟩
    cases reply with
    | error e => trivial
    | ok a => exact ih.all

theorem plain_publishApprovalEvent {input : NotificationPublishInput} (h : input.kind ≠ .approvalDecided) :
    Plain (publishApprovalEvent input) := by
  unfold publishApprovalEvent
  split_ifs
  · exact within_pure
  · refine ⟨rfl, fun reply => ?_⟩
    match reply with
    | .error e => trivial
    | .ok false => trivial
    | .ok true =>
      refine (plain_publishBatches ?_).all
      exact fun _ => h

theorem plain_registerCallback {k : RequestKey} {callback : Option ℕ} : Plain (registerCallback k callback) := by
  cases callback with
  | none => exact within_pure
  | some callback => exact within_need rfl

theorem plain_opened {eligible : List String} {onResolved : Option ℕ} {created : Bool} :
    Plain (opened request eligible onResolved created) := by
  cases created with
  | true => exact within_bind plain_registerCallback fun _ => plain_publishApprovalEvent (by simp)
  | false =>
    refine within_bind (within_need rfl) fun found => ?_
    cases found with
    | none => exact within_fail
    | some found => exact plain_registerCallback

theorem plain_canRead {accountId : String} : Plain (canRead request accountId manage) := by
  unfold canRead
  split_ifs
  · exact within_pure
  · exact within_need rfl

theorem plain_assertPending : Plain (assertPending request) := by
  unfold assertPending
  split_ifs
  · exact within_fail
  · exact within_pure

theorem along_openRequest : Along r.makes history (openRequest input draws) := by
  unfold openRequest
  refine along_ofExcept_bind fun tenantId _ => along_ofExcept_bind fun subjectModule _ =>
    along_ofExcept_bind fun subjectRef _ => along_ofExcept_bind fun requesterAccountId _ =>
    along_need_bind trivial fun days => along_ofExcept_bind fun requirement hr =>
    along_ofExcept_bind fun permission _ => along_ofExcept_bind fun action _ =>
    along_ofExcept_bind fun title _ => along_ofExcept_bind fun summary _ =>
    along_need_bind trivial fun pending => ?_
  cases pending with
  | some pending => exact along_plain plain_registerCallback
  | none =>
    refine along_need_bind trivial fun members => along_ofExcept_bind fun eligible _ => ?_
    have hn : 0 < requirement.decisions := normalizeRequirement_ok hr
    exact along_need_bind ⟨rfl, hn⟩ fun created => along_plain plain_opened

/-- The request of an operation is one that was read. -/
theorem along_existing_bind
    (hf : ∀ request extra, (∃ tenantId id, (⟨.get tenantId id, .ok (some request)⟩ : ApprovalEntry) ∈ extra) →
        Along r.makes (history ++ extra) (f request)) : Along r.makes history (existing tenantId id >>= f) := by
  unfold existing
  simp only [Prog.bind_assoc]
  refine along_ofExcept_bind fun tenantId _ => along_ofExcept_bind fun id _ => along_need_bind trivial fun found => ?_
  cases found with
  | none => exact .fail
  | some request =>
    exact hf request [⟨.get tenantId id, .ok (some request)⟩] ⟨tenantId, id, List.mem_singleton_self _⟩

theorem ends_existing_bind (hh : Undecided history)
    (hf : ∀ request history', Undecided history' → Ends (fun history _ => Produces history) history' (f request)) :
    Ends (fun history _ => Produces history) history (existing tenantId id >>= f) := by
  unfold existing
  simp only [Prog.bind_assoc]
  refine ends_ofExcept_bind fun tenantId => ends_ofExcept_bind fun id => ends_need_bind fun found => ?_
  cases found with
  | none => exact .fail
  | some request => exact hf request _ (List.forall_mem_append.2 ⟨hh, List.forall_mem_singleton.2 rfl⟩)

/-- A program without decisions leaves a history without them. -/
theorem ends_undecided_bind {f : α → ApprovalService Unit}
    (hp : DecidesNothing p) (hh : Undecided history)
    (hf : ∀ a history', Undecided history' → Ends (fun history _ => Produces history) history' (f a)) :
    Ends (fun history _ => Produces history) history (p >>= f) :=
  ends_all_bind hp.all fun a _ he => hf a _ (List.forall_mem_append.2 ⟨hh, he⟩)

theorem ends_plain_bind {f : α → ApprovalService Unit} (hp : Plain p) (hh : Undecided history)
    (hf : ∀ a history', Undecided history' → Ends (fun history _ => Produces history) history' (f a)) :
    Ends (fun history _ => Produces history) history (p >>= f) :=
  ends_undecided_bind (decidesNothing_of_plain hp) hh hf

theorem along_decideRequest {accountId : String}
    (hr : r = .decide tenantId id accountId verdict comment manage draws) :
    Along r.makes history (decideRequest tenantId id accountId verdict comment manage draws) := by
  unfold decideRequest
  refine along_existing_bind fun request extra hread => along_need_bind trivial fun member => ?_
  cases hf : member.filter fun member =>
      memberSatisfies request.requirement member request.requesterAccountId with
  | none =>
    refine along_bind (along_plain plain_canRead) fun readable _ _ => ?_
    cases readable with
    | false => exact .fail
    | true => exact along_bind (along_plain plain_assertPending) fun _ _ _ => .fail
  | some decider =>
    obtain ⟨rfl, hs⟩ := Option.filter_eq_some_iff.1 hf
    have hm : (⟨.member request.tenantId accountId, .ok (some decider)⟩ : ApprovalEntry) ∈
        history ++ extra ++ [⟨.member request.tenantId accountId, .ok (some decider)⟩] :=
      List.mem_append_right _ (List.mem_singleton_self _)
    refine along_bind (along_plain plain_assertPending) fun _ history' hle => along_ofExcept_bind fun comment' _ => ?_
    refine along_record ?_ rfl (fun ha => ?_) fun _ => by cases verdict <;> nofun
    · obtain ⟨t, i, hg⟩ := hread
      exact ⟨t, i, hle.subset (List.mem_append_left _ (List.mem_append_right _ hg))⟩
    · have hv : verdict = .approve := by
        cases verdict with
        | approve => rfl
        | reject => cases ha
      subst hv
      exact ⟨tenantId, id, accountId, comment, manage, draws, decider, hr, hle.subset hm, hs, rfl⟩

theorem ends_decideRequest {accountId : String} (hh : Undecided history) :
    Ends (fun history _ => Produces history) history
      (decideRequest tenantId id accountId verdict comment manage draws) := by
  unfold decideRequest
  refine ends_existing_bind hh fun request history₁ h₁ => ?_
  refine ends_plain_bind (within_need rfl) h₁ fun member history₂ h₂ => ?_
  cases member.filter fun member => memberSatisfies request.requirement member request.requesterAccountId with
  | none =>
    refine ends_plain_bind plain_canRead h₂ fun readable history₃ h₃ => ?_
    cases readable with
    | false => exact .fail
    | true => exact ends_plain_bind plain_assertPending h₃ fun _ _ _ => .fail
  | some decider =>
    refine ends_plain_bind plain_assertPending h₂ fun _ history₃ h₃ => ends_ofExcept_bind fun comment' => ?_
    exact ends_record h₃ fun _ => rfl

theorem along_cancelRequest :
    Along r.makes history (cancelRequest tenantId id actorAccountId manage draws) := by
  unfold cancelRequest
  refine along_ofExcept_bind fun actor _ => along_existing_bind fun request _ hr =>
    along_bind (along_plain plain_canRead) fun readable history' hle => ?_
  cases readable with
  | false => exact .fail
  | true =>
    refine along_bind (along_plain plain_assertPending) fun _ history'' hle' => ?_
    split_ifs
    · exact .fail
    · obtain ⟨t, i, hg⟩ := hr
      have hg' := hle'.subset (hle.subset (List.mem_append_right history hg))
      exact along_record ⟨t, i, hg'⟩ rfl (by nofun) (by nofun)

theorem ends_cancelRequest
    (hh : Undecided history) : Ends (fun history _ => Produces history) history
      (cancelRequest tenantId id actorAccountId manage draws) := by
  unfold cancelRequest
  refine ends_ofExcept_bind fun actor => ends_existing_bind hh fun request history₁ h₁ =>
    ends_plain_bind plain_canRead h₁ fun readable history₂ h₂ => ?_
  cases readable with
  | false => exact .fail
  | true =>
    refine ends_plain_bind plain_assertPending h₂ fun _ history₃ h₃ => ?_
    split_ifs
    · exact .fail
    · exact ends_record h₃ fun hk => absurd rfl hk

theorem along_expireRequest : Along r.makes history (expireRequest tenantId id draws) := by
  unfold expireRequest
  refine along_need_bind trivial fun found => ?_
  cases found with
  | none => exact .pure
  | some request =>
    dsimp only
    split_ifs
    · exact .pure
    · exact .pure
    · have hg : (⟨.get tenantId id, .ok (some request)⟩ : ApprovalEntry) ∈
          history ++ [⟨.get tenantId id, .ok (some request)⟩] :=
        List.mem_append_right _ (List.mem_singleton_self _)
      exact along_record ⟨tenantId, id, hg⟩ rfl (by nofun) (by nofun)

theorem ends_expireRequest (hh : Undecided history) :
    Ends (fun history _ => Produces history) history (expireRequest tenantId id draws) := by
  unfold expireRequest
  refine ends_plain_bind (within_need rfl) hh fun found history₁ h₁ => ?_
  cases found with
  | none => exact .pure (produces_unsettled h₁.unsettled)
  | some request =>
    dsimp only
    split_ifs
    · exact .pure (produces_unsettled h₁.unsettled)
    · exact .pure (produces_unsettled h₁.unsettled)
    · exact ends_record h₁ fun _ => rfl

/-- An operation that opens a request settles none. -/
theorem ends_openRequest (hh : Undecided history) :
    Ends (fun history _ => Produces history) history (openRequest input draws) := by
  have ho : DecidesNothing (openRequest input draws) := by
    unfold openRequest
    refine within_bind within_ofExcept fun _ => within_bind within_ofExcept fun _ =>
      within_bind within_ofExcept fun _ => within_bind within_ofExcept fun _ => within_bind (within_need rfl) fun _ =>
      within_bind within_ofExcept fun _ => within_bind within_ofExcept fun _ => within_bind within_ofExcept fun _ =>
      within_bind within_ofExcept fun _ => within_bind within_ofExcept fun _ => within_bind (within_need rfl)
      fun pending => ?_
    cases pending with
    | some pending => exact decidesNothing_of_plain plain_registerCallback
    | none =>
      refine within_bind (within_need rfl) fun _ => within_bind within_ofExcept fun _ =>
        within_bind (within_need rfl) fun _ => ?_
      exact decidesNothing_of_plain plain_opened
  have h : Ends (fun history _ => Produces history) history (openRequest input draws >>= Prog.pure) :=
    ends_undecided_bind ho hh fun _ _ h => .pure (produces_unsettled h.unsettled)
  rwa [Prog.bind_pure] at h

/-- **The calls of an operation** are those it may make. -/
theorem along_program : Along r.makes [] r.program := by
  cases r with
  | openRequest => exact along_openRequest
  | decide => exact along_decideRequest rfl
  | cancel => exact along_cancelRequest
  | expire => exact along_expireRequest

/-- **An operation that returns** has done what follows. -/
theorem ends_program : Ends (fun history _ => Produces history) [] r.program := by
  have hn : Undecided [] := fun _ h => (nomatch h)
  cases r with
  | openRequest => exact ends_openRequest hn
  | decide => exact ends_decideRequest hn
  | cancel => exact ends_cancelRequest hn
  | expire => exact ends_expireRequest hn

end Programs

/-! ### Requests and their decisions -/

section Ledgers

variable {needed : ℕ} {decisions : List ApprovalDecision} {d : ApprovalDecision} {row : ApprovalRequest}
  {outcome : Option ApprovalStatus} {resolvedAt : ℤ}

@[simp] theorem decided_key : (row.decided outcome resolvedAt).key = row.key := by
  cases outcome <;> rfl

@[simp] theorem decided_opening : (row.decided outcome resolvedAt).opening = row.opening := by
  cases outcome <;> rfl

@[simp] theorem decided_decisionsNeeded :
    (row.decided outcome resolvedAt).decisionsNeeded = row.decisionsNeeded := by
  cases outcome <;> rfl

theorem decided_status (h : row.status = .pending) :
    (row.decided outcome resolvedAt).status = outcome.getD .pending := by
  cases outcome with
  | none => exact h
  | some status => rfl

/-- Where all decisions are approvals, they count as many as they are. -/
theorem countP_approvals (h : ∀ d ∈ decisions, d.decision = .approve) :
    (decisions.countP fun d => d.decision = .approve) = decisions.length := by
  rw [List.countP_eq_length]
  exact fun d hd => decide_eq_true (h d hd)

/-- **A decision on a request that is pending**: what it comes to is the status of its ledger. -/
theorem ledger_next (h : Ledger .pending needed decisions) :
    Ledger ((resolve d.decision needed (decisions ++ [d])).getD .pending) needed (decisions ++ [d]) := by
  obtain ⟨ha, hl⟩ := h
  have ho : ∀ status : ApprovalStatus, status.settlingDecision = some d.decision →
      ∃ before last, decisions ++ [d] = before ++ [last] ∧ (∀ d ∈ before, d.decision = .approve) ∧
        before.length < needed ∧ status.settlingDecision = some last.decision :=
    fun status hs => ⟨decisions, d, rfl, ha, hl, hs⟩
  cases hk : d.decision with
  | reject => exact ho .rejected (by rw [hk]; rfl)
  | expire => exact ho .expired (by rw [hk]; rfl)
  | cancel => exact ho .cancelled (by rw [hk]; rfl)
  | approve =>
    have hall : ∀ d' ∈ decisions ++ [d], d'.decision = .approve :=
      List.forall_mem_append.2 ⟨ha, List.forall_mem_singleton.2 hk⟩
    have hc := countP_approvals hall
    rw [List.length_append, List.length_singleton] at hc
    rw [resolve, hc]
    split_ifs with he
    · refine ⟨hall, ?_⟩
      rw [List.length_append, List.length_singleton]
      omega
    · refine ⟨hall, ?_⟩
      rw [List.length_append, List.length_singleton]
      omega

end Ledgers

/-! ### Runs -/

/-- How many requests of the key are settled. -/
def settledCount (s : ApprovalTables) (k : RequestKey) : ℕ :=
  s.requests.countP fun row => row.key = k && row.status ≠ .pending

/-- What holds of the tables. -/
structure LedgersKept (s : ApprovalTables) : Prop where
  ledger : ∀ row ∈ s.requests, Ledger row.status row.decisionsNeeded (s.decisionsOn row.key)
  known : ∀ d ∈ s.decisions, ∃ row ∈ s.requests, row.key = d.key

/-- What holds of the tables and all processes there were. -/
structure ApprovalRun (s : ApprovalTables) (ps : List ApprovalProcess) : Prop where
  allowed : ∀ p ∈ ps, Along p.1.makes p.2.history p.2.rest
  ends : ∀ p ∈ ps, Ends (fun history _ => Produces history) p.2.history p.2.rest
  behind : ∀ p ∈ ps, ∀ entry ∈ p.2.history, Behind p.2.history entry.1
  read : ∀ p ∈ ps, ∀ tenantId id request,
    (⟨.get tenantId id, .ok (some request)⟩ : ApprovalEntry) ∈ p.2.history →
      ∃ row ∈ s.requests, row.opening = request.opening
  kept : LedgersKept s
  approved : ∀ row ∈ s.requests, ∀ d ∈ s.decisionsOn row.key, d.decision = .approve →
    ∃ p ∈ ps, ApprovedBy p row d
  told : ∀ k, told ps k ≤ settledCount s k ∧ settledCount s k ≤ told ps k + lost ps k

section Steps

variable {s s' : ApprovalTables} {ps ps' : List ApprovalProcess} {r : ApprovalOperation} {c : ApprovalCall}
  {history : History ApprovalCall (Prog.Reply ApprovalCall.Answer)} {k : RequestKey}
  {row : ApprovalRequest} {reply : Prog.Reply ApprovalCall.Answer c}

variable {row' : ApprovalRequest} {entry : ApprovalEntry} {d : ApprovalDecision}
  {p : ApprovalProcess} {rest rest' : ApprovalService Unit}

/-- Requests with one id are one request. -/
theorem eq_of_id (h : row ∈ s.requests) (h' : row' ∈ s.requests) (hid : row.id = row'.id) :
    row = row' :=
  List.inj_on_of_nodup_map s.ids h h' hid

theorem id_of_opening (h : row.opening = row'.opening) : row.id = row'.id := by
  have hid : row.opening.id = row'.opening.id := by rw [h]
  exact hid

theorem key_of_opening (h : row.opening = row'.opening) : row.key = row'.key := by
  have hk : row.opening.key = row'.opening.key := by rw [h]
  exact hk

theorem decisionsNeeded_of_opening (h : row.opening = row'.opening) :
    row.decisionsNeeded = row'.decisionsNeeded := by
  have hn : row.opening.decisionsNeeded = row'.opening.decisionsNeeded := by rw [h]
  exact hn

/-- Nobody has decided on a request that is not there. -/
theorem LedgersKept.decisionsOn_new (h : LedgersKept s) (hn : row.id ∉ s.requests.map (·.id)) :
    s.decisionsOn row.key = [] := by
  refine List.filter_eq_nil_iff.2 fun d hd hk => hn ?_
  obtain ⟨other, ho, ho'⟩ := h.known d hd
  have hid : other.id = row.id := congrArg RequestKey.id (ho'.trans (of_decide_eq_true hk))
  rw [← hid]
  exact List.mem_map_of_mem ho

/-- **The ledgers are kept.** -/
theorem ledgersKept_effect (h : LedgersKept s) (hm : r.makes history c)
    (hr : ∀ tenantId id request, (⟨.get tenantId id, .ok (some request)⟩ : ApprovalEntry) ∈ history →
      ∃ row ∈ s.requests, row.opening = request.opening) (he : Effect s s' c reply) : LedgersKept s' := by
  cases he with
  | same hreq hdec _ =>
    refine ⟨fun row hrow => ?_, fun d hd => ?_⟩
    · rw [decisionsOn_same hdec]
      exact h.ledger row (hreq ▸ hrow)
    · rw [hreq]
      exact h.known d (hdec ▸ hd)
  | @opened request _ _ hnew hreq hdec =>
    refine ⟨fun row hrow => ?_, fun d hd => ?_⟩
    · rw [decisionsOn_same hdec]
      rw [hreq] at hrow
      rcases List.mem_append.1 hrow with hrow | hrow
      · exact h.ledger row hrow
      · rw [List.mem_singleton.1 hrow, h.decisionsOn_new hnew, hm.1]
        exact ⟨fun _ hd => (nomatch hd), hm.2⟩
    · obtain ⟨row, hrow, hkey⟩ := h.known d (hdec ▸ hd)
      exact ⟨row, hreq ▸ List.mem_append_left _ hrow, hkey⟩
  | @decided d needed resolvedAt auditId row before behind reply hkey hp hreq hreq' hdec _ =>
    obtain ⟨request, ⟨t, i, hg⟩, hkey', hn, -⟩ := hm
    have hmem : row ∈ s.requests := by
      rw [hreq]
      exact List.mem_append_right _ List.mem_cons_self
    -- the request that was read is the one that is decided
    have ho : row.opening = request.opening := by
      obtain ⟨other, hoth, ho⟩ := hr t i request hg
      have hid : row.id = request.id := congrArg RequestKey.id (hkey.trans hkey')
      rw [← eq_of_id hoth hmem ((id_of_opening ho).trans hid.symm)]
      exact ho
    have hn' : needed = row.decisionsNeeded := hn.trans (decisionsNeeded_of_opening ho).symm
    have hl := h.ledger row hmem
    rw [hp, hkey] at hl
    have hnext := @ledger_next _ _ d hl
    refine ⟨fun row' hrow' => ?_, fun d' hd' => ?_⟩
    · rw [decisionsOn_append hdec]
      rw [hreq', List.perm_middle.mem_iff, List.mem_cons] at hrow'
      rcases hrow' with rfl | hoth
      · rw [decided_key, decided_status hp, decided_decisionsNeeded, hkey, if_pos rfl, ← hn']
        rw [← hn'] at hnext
        exact hnext
      · have hne := key_ne_of_split hreq row' hoth
        rw [if_neg fun heq => hne (heq.symm.trans hkey.symm), List.append_nil]
        refine h.ledger row' ?_
        rw [hreq]
        exact List.perm_middle.mem_iff.2 (List.mem_cons_of_mem _ hoth)
    · have hkno : ∃ old ∈ s.requests, old.key = d'.key := by
        rw [hdec] at hd'
        rcases List.mem_append.1 hd' with hd' | hd'
        · exact h.known d' hd'
        · exact ⟨row, hmem, by rw [List.mem_singleton.1 hd', hkey]⟩
      obtain ⟨old, hold, hk⟩ := hkno
      rw [hreq, List.perm_middle.mem_iff, List.mem_cons] at hold
      rw [hreq']
      rcases hold with rfl | hold
      · exact ⟨_, List.mem_append_right _ List.mem_cons_self, by rw [decided_key, hk]⟩
      · exact ⟨old, List.perm_middle.mem_iff.2 (List.mem_cons_of_mem _ hold), hk⟩

/-- **What a call leaves of the requests there are.** -/
theorem approvalStep_effect (he : Effect s s' c reply) : ApprovalStep s s' := by
  intro row hrow
  cases he with
  | same hr hd _ =>
    have hs : s'.decisionsOn row.key = s.decisionsOn row.key := decisionsOn_same hd
    exact ⟨row, hr ▸ hrow, rfl, hs ▸ List.prefix_refl _, fun _ => ⟨rfl, hs⟩⟩
  | opened _ hr hd =>
    have hs : s'.decisionsOn row.key = s.decisionsOn row.key := decisionsOn_same hd
    have hrow' : row ∈ s'.requests := hr ▸ List.mem_append_left _ hrow
    exact ⟨row, hrow', rfl, hs ▸ List.prefix_refl _, fun _ => ⟨rfl, hs⟩⟩
  | @decided d needed resolvedAt _ old before behind _ hk hp hr hr' hd _ =>
    have ha := decisionsOn_append (k := row.key) hd
    have hle : s.decisionsOn row.key <+: s'.decisionsOn row.key := by
      rw [ha]
      exact List.prefix_append _ _
    have hrow' := hrow
    rw [hr, List.perm_middle.mem_iff, List.mem_cons] at hrow'
    rcases hrow' with rfl | ho
    · have hn : row.decided (resolve d.decision needed (s.decisionsOn d.key ++ [d])) resolvedAt ∈ s'.requests := by
        rw [hr']
        exact List.mem_append_right _ List.mem_cons_self
      exact ⟨_, hn, decided_opening, hle, fun hset => absurd hp hset⟩
    · have hne := key_ne_of_split hr row ho
      rw [if_neg fun heq => hne (heq.symm.trans hk.symm), List.append_nil] at ha
      refine ⟨row, ?_, rfl, hle, fun _ => ⟨rfl, ha⟩⟩
      rw [hr']
      exact List.perm_middle.mem_iff.2 (List.mem_cons_of_mem _ ho)

theorem settledCount_le (k : RequestKey) : settledCount s k ≤ 1 := by
  have hle : settledCount s k ≤ (s.requests.map (·.id)).count k.id := by
    rw [List.count, List.countP_map]
    refine List.countP_mono_left fun row _ hr => ?_
    rw [Bool.and_eq_true] at hr
    have hk : row.key = k := of_decide_eq_true hr.1
    simp [← hk, ApprovalRequest.key]
  exact hle.trans (List.nodup_iff_count_le_one.1 s.ids _)

theorem settles_of_none (h : settledBy entry = none) : settles k entry = false := by
  rw [settles, h]
  rfl

/-- A decision comes to no request that is pending. -/
theorem resolve_ne_pending {kind : ApprovalDecisionKind} {needed : ℕ} {decisions : List ApprovalDecision} :
    resolve kind needed decisions ≠ some .pending := by
  cases kind with
  | approve =>
    unfold resolve
    split_ifs <;> nofun
  | _ => nofun

/-- **A request is settled by the call that says so**, or by one that was not answered. -/
theorem settledCount_effect (hm : r.makes history c) (he : Effect s s' c reply) :
    settledCount s k + (if settles k ⟨c, reply⟩ then 1 else 0) ≤ settledCount s' k ∧
      settledCount s' k ≤ settledCount s k + (if settles k ⟨c, reply⟩ then 1 else 0) +
        (if unanswered k ⟨c, reply⟩ then 1 else 0) := by
  cases he with
  | same hreq _ hrep =>
    have hsame : settledCount s' k = settledCount s k := by rw [settledCount, hreq, settledCount]
    rw [settles_of_none hrep, hsame]
    simp
  | @opened request _ _ _ hreq _ =>
    have hsame : settledCount s' k = settledCount s k := by
      rw [settledCount, hreq, List.countP_append, List.countP_singleton, settledCount]
      simp [hm.1]
    rw [settles_of_none rfl, hsame]
    simp
  | @decided d needed resolvedAt auditId row before behind reply hkey hp hreq hreq' _ hrep =>
    have hc : settledCount s' k = settledCount s k +
        if d.key = k ∧ (resolve d.decision needed (s.decisionsOn d.key ++ [d])).isSome then 1 else 0 := by
      rw [settledCount, hreq', settledCount, hreq]
      simp only [List.countP_append, List.countP_cons]
      rw [decided_key, decided_status hp, hkey, hp]
      cases ho : resolve d.decision needed (s.decisionsOn d.key ++ [d]) with
      | none => simp
      | some status =>
        have hsta : status ≠ .pending := fun h => resolve_ne_pending (h ▸ ho)
        simp [hsta]
        omega
    rcases hrep with ⟨e, rfl⟩ | ⟨request, decisions, rfl, hr⟩
    · have hs : settles k (⟨.decide d needed resolvedAt auditId, .error e⟩ : ApprovalEntry) = false := rfl
      have hl : unanswered k (⟨.decide d needed resolvedAt auditId, .error e⟩ : ApprovalEntry) =
          decide (d.key = k) := rfl
      rw [hs, hl, hc]
      by_cases hk : d.key = k
      · simp [hk]
        split_ifs <;> omega
      · simp [hk]
    · have hl : unanswered k (⟨.decide d needed resolvedAt auditId, .ok (.recorded request decisions
          (resolve d.decision needed (s.decisionsOn d.key ++ [d])).isSome)⟩ : ApprovalEntry) = false := rfl
      have hs : settles k (⟨.decide d needed resolvedAt auditId, .ok (.recorded request decisions
          (resolve d.decision needed (s.decisionsOn d.key ++ [d])).isSome)⟩ : ApprovalEntry) =
            (decide (d.key = k) && (resolve d.decision needed (s.decisionsOn d.key ++ [d])).isSome) := by
        cases (resolve d.decision needed (s.decisionsOn d.key ++ [d])).isSome with
        | false => simp [settles, settledBy]
        | true => simp [settles, settledBy, hr]
      rw [hs, hl, hc]
      simp

/-- What is said of an approval is said of the request as it was opened. -/
theorem ApprovedBy.of_opening
    (h : ApprovedBy p row d) (ho : row.opening = row'.opening) : ApprovedBy p row' d := by
  have hv : Votes p.1 p.2.history row.opening d .approve := h.votes
  rw [ho] at hv
  exact ⟨hv, h.made⟩

/-- A process that goes on has made the approval. -/
theorem ApprovedBy.append (h : ApprovedBy (r, ⟨history, rest⟩) row d) :
    ApprovedBy (r, ⟨history ++ [entry], rest'⟩) row d := by
  obtain ⟨⟨tenantId, id, accountId, comment, manage, draws, member, hr, hm, hs⟩, entry', he, hmade⟩ :=
    h
  exact ⟨⟨tenantId, id, accountId, comment, manage, draws, member, hr, List.mem_append_left _ hm, hs⟩,
    entry', List.mem_append_left _ he, hmade⟩

theorem told_cons : told (p :: ps) k = p.2.history.countP (settles k) + told ps k := by
  rw [told, entriesOf, List.flatMap_cons, List.countP_append]
  rfl

theorem lost_cons : lost (p :: ps) k = p.2.history.countP (unanswered k) + lost ps k := by
  rw [lost, entriesOf, List.flatMap_cons, List.countP_append]
  rfl

/-- What was read is there. -/
theorem get_serve [ApprovalGrants] {tenantId id : String} {request : ApprovalRequest}
    (h : (⟨.get tenantId id, .ok (some request)⟩ : ApprovalEntry) = ⟨c, (c.serve s choice).1⟩) :
    request ∈ s.requests := by
  cases c with
  | get t i =>
    have hr := eq_of_heq (Sigma.mk.inj h).2
    unfold ApprovalCall.serve at hr
    split at hr
    · have hf : some request = s.request ⟨t, i⟩ := Except.ok.inj hr
      exact List.mem_of_find?_eq_some hf.symm
    · exact nomatch hr
  | _ => exact nomatch (Sigma.mk.inj h).1

/-- **The approvals behind a call**: the new one, of the operation that made it, and those there
were. -/
theorem approved_effect (hk : LedgersKept s) (hmak : r.makes history c)
    (hread : ∀ tenantId id request, (⟨.get tenantId id, .ok (some request)⟩ : ApprovalEntry) ∈ history →
      ∃ row ∈ s.requests, row.opening = request.opening)
    (happ : ∀ row ∈ s.requests, ∀ d ∈ s.decisionsOn row.key, d.decision = .approve →
      ∃ p ∈ ((r, ⟨history, rest⟩) :: ps : List ApprovalProcess), ApprovedBy p row d)
    (he : Effect s s' c reply) :
    ∀ row ∈ s'.requests, ∀ d ∈ s'.decisionsOn row.key, d.decision = .approve →
      ∃ p ∈ ((r, ⟨history ++ [⟨c, reply⟩], rest'⟩) :: ps : List ApprovalProcess), ApprovedBy p row d := by
  have hold : ∀ row ∈ s.requests, ∀ row', row'.opening = row.opening → ∀ d ∈ s.decisionsOn row.key,
      d.decision = .approve →
        ∃ p ∈ ((r, ⟨history ++ [⟨c, reply⟩], rest'⟩) :: ps : List ApprovalProcess), ApprovedBy p row' d := by
    intro row hrow row' ho d hd ha
    obtain ⟨p, hp, hby⟩ := happ row hrow d hd ha
    rcases List.mem_cons.1 hp with rfl | hp
    · exact ⟨_, List.mem_cons_self, hby.append.of_opening ho.symm⟩
    · exact ⟨p, List.mem_cons_of_mem _ hp, hby.of_opening ho.symm⟩
  intro row' hrow' d' hd' ha
  cases he with
  | same hreq hdecisions _ =>
    rw [decisionsOn_same hdecisions] at hd'
    exact hold row' (hreq ▸ hrow') row' rfl d' hd' ha
  | opened hn hreq hdecisions =>
    rw [decisionsOn_same hdecisions] at hd'
    rw [hreq] at hrow'
    rcases List.mem_append.1 hrow' with hrow' | hrow'
    · exact hold row' hrow' row' rfl d' hd' ha
    · rw [List.mem_singleton.1 hrow', hk.decisionsOn_new hn] at hd'
      exact nomatch hd'
  | @decided d needed resolvedAt auditId row before behind reply hkey hpen hreq hreq' hdecisions _ =>
    rw [decisionsOn_append hdecisions] at hd'
    rw [hreq', List.perm_middle.mem_iff, List.mem_cons] at hrow'
    have hmem : row ∈ s.requests := by
      rw [hreq]
      exact List.mem_append_right _ List.mem_cons_self
    rcases hrow' with rfl | hoth
    · rw [decided_key, hkey, if_pos rfl] at hd'
      rcases List.mem_append.1 hd' with hd' | hd'
      · exact hold row hmem _ decided_opening d' (hkey ▸ hd') ha
      · obtain rfl := List.mem_singleton.1 hd'
        obtain ⟨request, ⟨t, i, hg⟩, hkey', -, hdec⟩ := hmak
        have ho : row.opening = request.opening := by
          obtain ⟨found, hf, ho⟩ := hread t i request hg
          have hid : row.id = request.id := congrArg RequestKey.id (hkey.trans hkey')
          rw [← eq_of_id hf hmem ((id_of_opening ho).trans hid.symm)]
          exact ho
        obtain ⟨t, i, accountId, comment, manage, draws, member, hr, hm, hs⟩ := hdec ha
        have hby : ApprovedBy (r, ⟨history ++ [⟨.decide d' needed resolvedAt auditId, reply⟩], rest'⟩) request d' :=
          ⟨⟨t, i, accountId, comment, manage, draws, member, hr, List.mem_append_left _ hm, hs⟩,
            _, List.mem_append_right _ (List.mem_singleton_self _), _, _, _, rfl⟩
        exact ⟨_, List.mem_cons_self, hby.of_opening (ho.symm.trans decided_opening.symm)⟩
    · have hne := key_ne_of_split hreq row' hoth
      rw [if_neg fun heq => hne (heq.symm.trans hkey.symm), List.append_nil] at hd'
      refine hold row' ?_ row' rfl d' hd' ha
      rw [hreq]
      exact List.perm_middle.mem_iff.2 (List.mem_cons_of_mem _ hoth)

variable [ApprovalGrants] {next : Prog.Reply ApprovalCall.Answer c → ApprovalService Unit}
  {choice : ApprovalChoice}

/-- **One call of an operation.** -/
theorem ApprovalRun.call (h : ApprovalRun s ((r, ⟨history, .call c next⟩) :: ps)) :
    ApprovalRun (c.serve s choice).2
      ((r, ⟨history ++ [⟨c, (c.serve s choice).1⟩], next (c.serve s choice).1⟩) :: ps) := by
  obtain ⟨hp, hoth⟩ := List.forall_mem_cons.1 h.allowed
  obtain ⟨he, hend⟩ := List.forall_mem_cons.1 h.ends
  obtain ⟨hbeh, hb⟩ := List.forall_mem_cons.1 h.behind
  obtain ⟨hread, hr⟩ := List.forall_mem_cons.1 h.read
  have hm : r.makes history c := Along.ok_call hp
  have heff : Effect s (c.serve s choice).2 c (c.serve s choice).1 := serve_effect
  have hs : ∀ request : ApprovalRequest, (∃ row ∈ s.requests, row.opening = request.opening) →
      ∃ row ∈ (c.serve s choice).2.requests, row.opening = request.opening := by
    rintro request ⟨row, hrow, ho⟩
    obtain ⟨row', hrow', ho', -⟩ := approvalStep_effect heff row hrow
    exact ⟨row', hrow', ho'.trans ho⟩
  refine ⟨List.forall_mem_cons.2 ⟨Along.next hp _, hoth⟩, List.forall_mem_cons.2 ⟨he.next _, hend⟩,
    List.forall_mem_cons.2 ⟨fun entry hent => ?_, hb⟩,
    List.forall_mem_cons.2 ⟨fun t i request hg => ?_, fun p hp t i request hg => ?_⟩, ?_, ?_, fun k => ?_⟩
  · have hsub : history ⊆ history ++ [⟨c, (c.serve s choice).1⟩] := List.subset_append_left _ _
    rcases List.mem_append.1 hent with hent | hent
    · exact (hbeh entry hent).mono hsub
    · rw [List.mem_singleton.1 hent]
      cases c with
      | create => trivial
      | decide => trivial
      | _ => exact Behind.mono hsub hm
  · rcases List.mem_append.1 hg with hg | hg
    · exact hs request (hread t i request hg)
    · exact hs request ⟨request, get_serve (List.mem_singleton.1 hg), rfl⟩
  · exact hs request (hr p hp t i request hg)
  · exact ledgersKept_effect h.kept hm hread heff
  · exact approved_effect h.kept hm hread h.approved heff
  · have hbef := h.told k
    have hc := settledCount_effect (k := k) hm heff
    rw [told_cons, lost_cons] at hbef ⊢
    rw [List.countP_append, List.countP_append, List.countP_singleton, List.countP_singleton]
    dsimp only at hbef ⊢
    omega

/-- What holds of the tables and all processes. -/
def approvalChronicle : Chronicle approvalOperations (fun _ _ _ => True) where
  holds := ApprovalRun
  perm := by
    intro s ps ps' hperm h
    have hentries : (entriesOf ps).Perm (entriesOf ps') := hperm.flatMap_right _
    refine ⟨fun p hp => h.allowed p (hperm.mem_iff.2 hp), fun p hp => h.ends p (hperm.mem_iff.2 hp),
      fun p hp => h.behind p (hperm.mem_iff.2 hp), fun p hp => h.read p (hperm.mem_iff.2 hp), h.kept,
      fun row hrow d hd happrove => ?_, fun k => ?_⟩
    · obtain ⟨p, hp, hby⟩ := h.approved row hrow d hd happrove
      exact ⟨p, hperm.mem_iff.1 hp, hby⟩
    · rw [Approvals.told, lost, ← hentries.countP_eq, ← hentries.countP_eq]
      exact h.told k
  start := by
    rintro s ps r p h hstart
    obtain rfl := recorder_signed_enter hstart
    refine ⟨List.forall_mem_cons.2 ⟨along_program, h.allowed⟩, List.forall_mem_cons.2 ⟨ends_program, h.ends⟩,
      List.forall_mem_cons.2 ⟨fun _ hentry => (nomatch hentry), h.behind⟩,
      List.forall_mem_cons.2 ⟨fun _ _ _ hget => (nomatch hget), h.read⟩, h.kept,
      fun row hrow d hd happrove => ?_, fun k => ?_⟩
    · obtain ⟨p, hp, hby⟩ := h.approved row hrow d hd happrove
      exact ⟨p, List.mem_cons_of_mem _ hp, hby⟩
    · have htold := h.told k
      rw [told_cons, lost_cons]
      dsimp only
      rw [List.countP_nil, List.countP_nil]
      omega
  stop h := h
  move := by
    rintro s others gone p choice s' p' h - hmove
    obtain ⟨r, history, c, next, rfl, rfl, rfl⟩ := recorder_signed_next hmove
    exact h.call

/-- What one step does to the requests there are. -/
theorem approvalStep_of_step {crew crew' : Crew (ApprovalTables × List ApprovalProcess) ApprovalProcess}
    (hstep : Crew.Step approvalOperations.ledger (fun _ _ _ => True) crew crew') :
    ApprovalStep crew.shared.1 crew'.shared.1 := by
  have hs : ∀ s : ApprovalTables, ApprovalStep s s :=
    fun s row hr => ⟨row, hr, rfl, List.prefix_refl _, fun _ => ⟨rfl, rfl⟩⟩
  cases hstep with
  | start h => exact hs _
  | stop => exact hs _
  | @move s s' before behind p p' choice h _ =>
    obtain ⟨_, _, c, next, -, hser⟩ := Prog.recorder_ledger_next h
    rw [hser]
    exact approvalStep_effect serve_effect

omit [ApprovalGrants] in
/-- The approvals of a request are of different members. -/
theorem nodup_deciders (h : ∀ d ∈ s.decisionsOn k, d.decision = .approve) :
    ((s.decisionsOn k).map (·.deciderAccountId)).Nodup := by
  have hv : (s.decisionsOn k).filter (·.votes) = s.decisionsOn k := by
    refine List.filter_eq_self.2 fun d hd => ?_
    simp [ApprovalDecision.votes, h d hd]
  have hs : (s.decisionsOn k).Sublist (s.decisions.filter (·.votes)) := by
    rw [← hv]
    exact (List.filter_sublist (l := s.decisions)).filter _
  have hb : ((s.decisionsOn k).map (·.ballot)).Nodup := s.deciders.sublist (hs.map _)
  refine List.Nodup.map_on ?_ (List.Nodup.of_map _ hb)
  intro d hd d' hd' hdec
  have hk : d.key = d'.key := by
    rw [of_decide_eq_true (List.mem_filter.1 hd).2, of_decide_eq_true (List.mem_filter.1 hd').2]
  exact List.inj_on_of_nodup_map hb hd hd' (Prod.ext hk hdec)

omit [ApprovalGrants] in
/-- **An approved request has its quorum.** -/
theorem ApprovalRun.quorum (h : ApprovalRun s ps) (hr : row ∈ s.requests) (hsta : row.status = .approved) :
    Quorum s ps row := by
  have hl := h.kept.ledger row hr
  rw [hsta] at hl
  refine ⟨hl.1, nodup_deciders hl.1, hl.2.ge, fun d hd => ?_⟩
  obtain ⟨p, hp, hby⟩ := h.approved row hr d hd (hl.1 d hd)
  obtain ⟨tenantId, id, accountId, comment, manage, draws, member, -, -, hs, hdec⟩ := hby.votes
  have hne : member.accountId ≠ row.requesterAccountId := by
    rw [memberSatisfies, Bool.and_eq_true, Bool.and_eq_true] at hs
    exact of_decide_eq_true hs.1.1
  exact ⟨member.accountId, hdec, hne, p, hp, hby⟩

/-- **Requests are settled by their quorum, once**: in every run, the decisions on a request are those
of its status, an approved one was approved by as many members as it needs, one operation is told that
it settled a request and produces what follows, and what is settled stays. -/
theorem approvals_settle_once {crew : Crew (ApprovalTables × List ApprovalProcess) ApprovalProcess}
    (h : Crew.Reachable approvalOperations.ledger (fun _ _ _ => True) (({} : ApprovalTables), []) crew) :
    ApprovalsSettled crew.shared.1 crew.everyone ∧
      ∀ crew', Crew.Step approvalOperations.ledger (fun _ _ _ => True) crew crew' →
        ApprovalStep crew.shared.1 crew'.shared.1 := by
  have hemp : ApprovalRun {} [] :=
    ⟨fun _ hp => (nomatch hp), fun _ hp => (nomatch hp), fun _ hp => (nomatch hp), fun _ hp => (nomatch hp),
      ⟨fun _ hrow => (nomatch hrow), fun _ hd => (nomatch hd)⟩, fun _ hrow => (nomatch hrow), fun _ => ⟨le_rfl, le_rfl⟩⟩
  have hend : ApprovalRun crew.shared.1 crew.everyone := approvalChronicle.reachable hemp h
  refine ⟨⟨hend.kept.ledger, fun row hrow hsta => hend.quorum hrow hsta, fun row hrow => ?_,
    fun p hp hr => ?_, hend.behind⟩, fun crew' hs => approvalStep_of_step hs⟩
  · have ht := hend.told row.key
    have hc : settledCount crew.shared.1 row.key = if row.status = .pending then 0 else 1 := by
      have hle := @settledCount_le crew.shared.1 row.key
      split_ifs with hpen
      · refine List.countP_eq_zero.2 fun other ho hset => ?_
        rw [Bool.and_eq_true] at hset
        have hid : other.id = row.id := congrArg RequestKey.id (of_decide_eq_true hset.1)
        rw [eq_of_id ho hrow hid] at hset
        exact of_decide_eq_true hset.2 hpen
      · have hpos : 0 < settledCount crew.shared.1 row.key :=
          List.countP_pos_iff.2 ⟨row, hrow, by simp [hpen]⟩
        omega
    rw [hc] at ht
    refine ⟨ht.1, fun hset => ?_⟩
    rw [if_neg hset] at ht
    omega
  · have he := hend.ends p hp
    rw [hr] at he
    exact he.of_pure

end Steps

/-! ### Sample runs -/

/-- No grants are signed. -/
@[reducible] def noGrants : ApprovalGrants where
  keyId := none

/-- Two administrators. -/
def sampleMembers : List ApprovalMember :=
  [⟨"bob", "admin", []⟩, ⟨"cyd", "admin", []⟩]

/-- A request for two administrators. -/
def sampleInput : OpenApprovalInput where
  tenantId := "t"
  subjectModule := "workflows.core"
  subjectRef := "run"
  permission := "runs.start"
  action := "start"
  title := "Start"
  requesterAccountId := "ada"
  requirement := { roleKey := some "admin", decisions := some (.ofNat 2) }
  onResolved := some 7

/-- The turns that open the request. -/
def openTurns : List (Crew.Turn ApprovalOperation ApprovalChoice) :=
  .start (.openRequest sampleInput ⟨"r", "", 0, 0⟩) ::
    List.replicate 7 (.move 0 { members := sampleMembers })

/-- The turns of a member who approves, up to the decision. -/
def approveTurns (accountId id : String) : List (Crew.Turn ApprovalOperation ApprovalChoice) :=
  .start (.decide "t" "r" accountId .approve none false ⟨id, "", 0, 0⟩) ::
    List.replicate 2 (.move 0 { member := some ⟨accountId, "admin", []⟩ })

/-- The status of the requests, who decided them, and the callbacks that are left. -/
def sampleStatus (crew : Crew (ApprovalTables × List ApprovalProcess) ApprovalProcess) :
    List ApprovalStatus × List (Option String) × List (String × ℕ) :=
  (crew.shared.1.requests.map (·.status), crew.shared.1.decisions.map (·.deciderAccountId),
    crew.shared.1.callbacks)

/-- Two members who are eligible approve at once: the later one settles the request, tells of it and
runs the callback. -/
theorem approvals_settle_approved : ∃ crew,
    Crew.Reachable (@approvalOperations noGrants).ledger (fun _ _ _ => True) (({} : ApprovalTables), []) crew ∧
    sampleStatus crew = ([.approved], [some "cyd", some "bob"], []) ∧
    ApprovalsSettled crew.shared.1 crew.everyone ∧
    ∀ crew', Crew.Step (@approvalOperations noGrants).ledger (fun _ _ _ => True) crew crew' →
      ApprovalStep crew.shared.1 crew'.shared.1 := by
  have hp : (Crew.play (@approvalOperations noGrants).ledger (fun _ _ _ => True)
      ⟨(({} : ApprovalTables), []), []⟩ (openTurns ++ approveTurns "bob" "d1" ++ approveTurns "cyd" "d2" ++
        .move 0 {} :: List.replicate 5 (.move 1 {}))).map sampleStatus =
        some ([.approved], [some "cyd", some "bob"], []) := by decide +kernel
  obtain ⟨crew, hc, hs⟩ := Option.map_eq_some_iff.1 hp
  have hr : Crew.Reachable (@approvalOperations noGrants).ledger (fun _ _ _ => True)
      (({} : ApprovalTables), []) crew := Crew.reachable_of_play hc
  exact ⟨crew, hr, hs, @approvals_settle_once noGrants crew hr⟩

/-- Every request an operation was told it settled has its event published. -/
def Announces (history : History ApprovalCall (Prog.Reply ApprovalCall.Answer)) : Prop :=
  ∀ entry ∈ history, ∀ told, settledBy entry = some told →
    ∃ reply, (⟨.publish (decidedEvent told.request), reply⟩ : ApprovalEntry) ∈ history

/-- The operation returned, was told that it settled a request, and published nothing. -/
def settledQuietly (p : ApprovalProcess) : Bool :=
  (match p.2.rest with | .pure _ => true | _ => false) && p.2.history.any (fun entry => (settledBy entry).isSome) &&
    p.2.history.all fun entry => match entry.1 with | .publish _ => false | _ => true

theorem not_announces {p : ApprovalProcess} (h : settledQuietly p = true) :
    p.2.rest = .pure () ∧ ¬ Announces p.2.history := by
  rw [settledQuietly, Bool.and_eq_true, Bool.and_eq_true] at h
  obtain ⟨⟨hr, hset⟩, hq⟩ := h
  refine ⟨?_, fun ha => ?_⟩
  · split at hr
    · next heq => exact heq
    · cases hr
  · obtain ⟨entry, he, hs⟩ := List.any_eq_true.1 hset
    obtain ⟨told, ht⟩ := Option.isSome_iff_exists.1 hs
    obtain ⟨reply, hp⟩ := ha entry he told ht
    have hn := List.all_eq_true.1 hq _ hp
    cases hn

/-- A requester who cancels: the request is settled, and nothing is told of it. -/
theorem approvals_cancelled_quietly : ∃ crew,
    Crew.Reachable (@approvalOperations noGrants).ledger (fun _ _ _ => True) (({} : ApprovalTables), []) crew ∧
    (crew.shared.1.requests.map fun row => row.status) = [.cancelled] ∧
    ¬ ∀ p ∈ crew.everyone, p.2.rest = .pure () → Announces p.2.history := by
  have hplay : (Crew.play (@approvalOperations noGrants).ledger (fun _ _ _ => True)
      ⟨(({} : ApprovalTables), []), []⟩ (openTurns ++ .start (.cancel "t" "r" "ada" false ⟨"d", "", 0, 0⟩) ::
        List.replicate 4 (.move 0 {}))).map (fun crew =>
          (crew.shared.1.requests.map fun row => row.status, crew.processes.any settledQuietly)) =
        some ([.cancelled], true) := by decide +kernel
  obtain ⟨crew, hc, hres⟩ := Option.map_eq_some_iff.1 hplay
  obtain ⟨hs, hq⟩ := Prod.mk.inj hres
  refine ⟨crew, Crew.reachable_of_play hc, hs, fun h => ?_⟩
  obtain ⟨p, hp, hset⟩ := List.any_eq_true.1 hq
  obtain ⟨hr, hsil⟩ := not_announces hset
  exact hsil (h p (List.mem_append_left _ hp) hr)

end Flowdular.Approvals
