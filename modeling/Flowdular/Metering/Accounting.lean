/-
# What is metered

Operations on meters take turns statement by statement.  In the transaction of `recordFact` a
statement would be answered the same at its commit (`Still`): the record, the bucket and the limit
it read are held, and where every fact of a month finds a limit nothing else moves the sum of the
month.  So a commit adds its fact to the bucket once (`Accounted`), and the last one of a month has
read what the month came to (`LastSaw`); the notice of a threshold that was reached is claimed then,
by one call (`metering_accounts`).
-/

import Flowdular.Metering.Usage

namespace Flowdular.Metering

open Lib Workflows
open Discipline (All)
open Prog (History Recorded recorder recorder_next Along Abides abides_start along_ends_bind along_of_all_behind
  along_need_bind along_ofExcept_bind Ends ends_ends_bind ends_need_bind ends_ofExcept_bind ends_all ends_of_behind
  Within within_pure within_bind within_need within_orElse)

/-! ### What is said of the tables -/

/-- What was recorded in a bucket. -/
def recordedIn (facts : List Fact) (k : BucketKey) : List Fact :=
  facts.filter fun fact => fact.bucket = k

/-- Each bucket has the sum and the number of the facts recorded in it, each fact is in its bucket, and
facts of a source reference are counted once. -/
structure Accounted (s : MeteringTables) : Prop where
  keys : (s.buckets.map (·.key)).Nodup
  sums : ∀ b ∈ s.buckets, b.amount = ((recordedIn s.facts b.key).map (·.amount)).sum ∧
    b.events = (recordedIn s.facts b.key).length
  complete : ∀ fact ∈ s.facts, fact.bucket ∈ s.buckets.map (·.key)
  refs : (s.facts.filterMap (·.ref)).Nodup
  records : ∀ k, k ∈ s.records.map (·.key) ↔ k ∈ s.facts.filterMap (·.ref)
  notices : s.notices.Nodup

/-- What all processes were answered. -/
def entriesOf (ps : List MeteringProcess) : List MeteringEntry :=
  ps.flatMap fun p => p.2.history

/-- The call says that the notice was claimed by it. -/
def tells (k : NoticeKey) (entry : MeteringEntry) : Bool :=
  match entry with
  | ⟨.claimThresholds meter month _, .ok claimed⟩ =>
    meter = k.meter && month = k.month && claimed.contains k.threshold
  | _ => false

/-- How many calls claimed the notice. -/
def told (ps : List MeteringProcess) (k : NoticeKey) : ℕ :=
  (entriesOf ps).countP (tells k)

/-- The call commits the fact. -/
def commits (fact : Fact) (entry : MeteringEntry) : Bool :=
  match entry.1 with
  | .commit (some recorded) => recorded.fact = fact
  | _ => false

/-- The call was answered. -/
def answered (entry : MeteringEntry) : Bool :=
  match entry.2 with
  | .ok _ => true
  | .error _ => false

/-- The call commits a fact of the meter and the month. -/
def commitsIn (meter : MeterKey) (month : UtcMonth) (entry : MeteringEntry) : Bool :=
  match entry.1 with
  | .commit (some recorded) => recorded.fact.of meter month
  | _ => false

/-- The process made the commit of a fact of the meter and the month. -/
def countsIn (meter : MeterKey) (month : UtcMonth) (p : MeteringProcess) : Bool :=
  p.2.history.any (commitsIn meter month)

/-- The process is over, no call of it failed, it found the limit, and read the setting. -/
structure Undisturbed (limit : ℕ) (setting : Option ℤ) (p : MeteringProcess) : Prop where
  done : p.2.rest = .pure ()
  answered : ∀ entry ∈ p.2.history, answered entry = true
  limit : ∀ recorded, (⟨.commit (some recorded), .ok ()⟩ : MeteringEntry) ∈ p.2.history → recorded.limit = some limit
  setting : ∀ reading, (⟨.warningPercent, .ok reading⟩ : MeteringEntry) ∈ p.2.history → reading = setting

/-- What is said of the tables and the operations: the buckets are accounted for, what was committed is
what is counted, a call that returned has its fact counted, once where it has a source reference, and a
notice is claimed by one call at most, and by one where its threshold was reached. -/
structure MeteringSettled [MeteringHost] (start s : MeteringTables) (ps : List MeteringProcess) : Prop where
  accounted : Accounted s
  committed : ∀ fact,
    start.facts.count fact + (entriesOf ps).countP (fun entry => commits fact entry && answered entry) ≤
      s.facts.count fact ∧
    s.facts.count fact ≤ start.facts.count fact + (entriesOf ps).countP (commits fact)
  counted : ∀ p ∈ ps, ∀ input now, p.1 = .record input now → p.2.rest = .pure () →
    ∃ meter fact, prepare input now = .ok (meter, fact) ∧
      (∀ k, fact.ref = some k → s.facts.countP (fun f => f.ref = some k) = 1) ∧
      (fact.ref = none → ∃ entry ∈ p.2.history, commits fact entry ∧ answered entry)
  most : ∀ k, told ps k + start.notices.count k ≤ 1
  one : ∀ k limit setting, (∃ p ∈ ps, countsIn k.meter k.month p) →
    (∀ p ∈ ps, countsIn k.meter k.month p → Undisturbed limit setting p) →
    k.threshold.point limit setting ≤ s.total k.meter k.month → told ps k + start.notices.count k = 1

/-! ### Buckets -/

section Buckets

variable {row own : BucketRow} {buckets : List BucketRow} {meter : MeterKey} {month : UtcMonth} {k : BucketKey}
  {fact : Fact} {facts : List Fact}

theorem filter_write_not (h : row.key.of meter month = false) :
    (writeBucket row buckets).filter (fun b => b.key.of meter month) =
      buckets.filter fun b => b.key.of meter month :=
  Table.filter_upsert_not (P := fun k : BucketKey => k.of meter month) h

theorem filter_write_of (h : row.key.of meter month = true) :
    (writeBucket row buckets).filter (fun b => b.key.of meter month) =
      writeBucket row (buckets.filter fun b => b.key.of meter month) :=
  Table.filter_upsert_of (P := fun k : BucketKey => k.of meter month) h

/-- A bucket of another meter or month is not summed. -/
theorem monthTotal_write (h : row.key.of meter month = false) :
    monthTotal (writeBucket row buckets) meter month = monthTotal buckets meter month := by
  unfold monthTotal
  rw [filter_write_not h]

theorem monthTotal_write_write (h : row.key.of meter month = false) :
    monthTotal (writeBucket own (writeBucket row buckets)) meter month =
      monthTotal (writeBucket own buckets) meter month := by
  unfold monthTotal
  cases ho : own.key.of meter month with
  | true => rw [filter_write_of ho, filter_write_not h, filter_write_of ho]
  | false => rw [filter_write_not ho, filter_write_not h, filter_write_not ho]

theorem recordedIn_append : recordedIn (facts ++ [fact]) k =
    recordedIn facts k ++ if fact.bucket = k then [fact] else [] := by
  unfold recordedIn
  rw [List.filter_append]
  split_ifs with hk
  · rw [List.filter_cons_of_pos (by simpa using hk), List.filter_nil]
  · rw [List.filter_cons_of_neg (by simpa using hk), List.filter_nil]

variable {s : MeteringTables}

/-- What a bucket has, whether there is a row of it or not. -/
theorem Accounted.bucket (h : Accounted s) (k : BucketKey) :
    ((s.bucket k).map (·.amount)).getD 0 = ((recordedIn s.facts k).map (·.amount)).sum ∧
      ((s.bucket k).map (·.events)).getD 0 = (recordedIn s.facts k).length := by
  cases hbuc : s.bucket k with
  | some b =>
    have hk : b.key = k := by
      simpa using List.find?_some hbuc
    rw [← hk]
    exact h.sums b (List.mem_of_find?_eq_some hbuc)
  | none =>
    have hn : recordedIn s.facts k = [] := by
      refine List.filter_eq_nil_iff.2 fun fact hf hk => ?_
      obtain ⟨b, hb, hk'⟩ := List.mem_map.1 (h.complete fact hf)
      have hne := List.find?_eq_none.1 hbuc b hb
      rw [hk', of_decide_eq_true hk] at hne
      simp at hne
    rw [hn]
    exact ⟨rfl, rfl⟩

/-- The bucket a statement accumulates. -/
theorem accumulateBucket_ok (h : s.accumulateBucket fact = .ok row) : row.key = fact.bucket ∧
    row.amount = ((s.bucket fact.bucket).map (·.amount)).getD 0 + fact.amount ∧
    row.events = ((s.bucket fact.bucket).map (·.events)).getD 0 + 1 := by
  unfold MeteringTables.accumulateBucket at h
  dsimp only at h
  split_ifs at h
  rw [← Except.ok.inj h]
  exact ⟨rfl, rfl, rfl⟩

variable {recorded : RecordedFact}

theorem row_key {r : RecordRow} (h : fact.row = some r) : fact.ref = some r.key := by
  obtain ⟨k, hk, rfl⟩ := Option.map_eq_some_iff.1 h
  exact hk

/-- **A commit keeps the account.** -/
theorem Accounted.commit (h : Accounted s) (hrow : s.accumulateBucket recorded.fact = .ok recorded.row)
    (hc : ∀ r, recorded.fact.row = some r → s.claimRecord r = true) : Accounted (s.commit recorded) := by
  obtain ⟨hkey, ha, he⟩ := accumulateBucket_ok hrow
  obtain ⟨hsum, hcou⟩ := h.bucket recorded.fact.bucket
  have hn : ∀ k, recorded.fact.ref = some k → k ∉ s.facts.filterMap (·.ref) := by
    intro k hk hm
    have hr : recorded.fact.row = some ⟨k, recorded.fact.day, recorded.fact.amount, recorded.fact.recordedAt⟩ := by
      rw [Fact.row, hk]
      rfl
    obtain ⟨r, hr', hrk⟩ := List.mem_map.1 ((h.records k).2 hm)
    have hcla := hc _ hr
    unfold MeteringTables.claimRecord at hcla
    rw [Bool.not_eq_true', List.any_eq_false] at hcla
    exact hcla r hr' (by simpa using hrk)
  refine ⟨Table.keys_upsert h.keys, ?_, ?_, ?_, ?_, h.notices⟩
  · intro b hb
    have hfac : (s.commit recorded).facts = s.facts ++ [recorded.fact] := rfl
    rw [hfac, recordedIn_append]
    rcases Table.mem_upsert.1 hb with rfl | ⟨hb, hne⟩
    · rw [hkey, if_pos rfl, List.map_append, List.sum_append, List.length_append, ← hsum, ← hcou]
      exact ⟨ha, he⟩
    · rw [if_neg (fun heq => hne (heq.symm.trans hkey.symm)), List.append_nil]
      exact h.sums b hb
  · intro fact hf
    rcases List.mem_append.1 hf with hf | hf
    · obtain ⟨b, hb, hbk⟩ := List.mem_map.1 (h.complete fact hf)
      by_cases hs : b.key = recorded.row.key
      · exact List.mem_map.2 ⟨recorded.row, Table.mem_upsert.2 (.inl rfl), hs.symm.trans hbk⟩
      · exact List.mem_map.2 ⟨b, Table.mem_upsert.2 (.inr ⟨hb, hs⟩), hbk⟩
    · rw [List.mem_singleton.1 hf]
      exact List.mem_map.2 ⟨recorded.row, Table.mem_upsert.2 (.inl rfl), hkey⟩
  · have hrefs : (s.commit recorded).facts.filterMap (·.ref) =
        s.facts.filterMap (·.ref) ++ recorded.fact.ref.toList := by
      show (s.facts ++ [recorded.fact]).filterMap _ = _
      rw [List.filterMap_append]
      cases hk : recorded.fact.ref <;> simp [hk]
    rw [hrefs]
    cases hk : recorded.fact.ref with
    | none => simpa using h.refs
    | some k =>
      refine List.nodup_append.2 ⟨h.refs, List.nodup_singleton _, ?_⟩
      intro k' hk' k'' hk'' heq
      rw [heq, List.mem_singleton.1 hk''] at hk'
      exact hn k hk hk'
  · intro k
    show k ∈ (s.records ++ recorded.fact.row.toList).map (·.key) ↔ k ∈ (s.facts ++ [recorded.fact]).filterMap (·.ref)
    rw [List.map_append, List.filterMap_append, List.mem_append, List.mem_append, h.records k]
    refine or_congr_right ?_
    rw [Fact.row]
    cases hk : recorded.fact.ref <;> simp [hk]

end Buckets

/-! ### Notices -/

section Notices

variable {s : MeteringTables} {meter : MeterKey} {month : UtcMonth} {thresholds : List MeterThreshold}

/-- What the claim of thresholds leaves: those that were claimed are new, those that were asked for are
there, and nothing else changes. -/
theorem claimThresholds_spec : ∀ {thresholds : List MeterThreshold} {s : MeteringTables},
    (claimThresholds meter month thresholds s).2 =
      { s with notices := s.notices ++
          (claimThresholds meter month thresholds s).1.map fun threshold => ⟨meter, month, threshold⟩ } ∧
    (s.notices.Nodup → (claimThresholds meter month thresholds s).2.notices.Nodup) ∧
    ∀ threshold ∈ thresholds, ⟨meter, month, threshold⟩ ∈ (claimThresholds meter month thresholds s).2.notices := by
  intro thresholds
  induction thresholds with
  | nil =>
    intro s
    exact ⟨by simp [claimThresholds], id, by simp⟩
  | cons threshold thresholds ih =>
    intro s
    rw [claimThresholds]
    split_ifs with hm
    · obtain ⟨heq, hn, ha⟩ := ih (s := s)
      refine ⟨heq, hn, List.forall_mem_cons.2 ⟨?_, ha⟩⟩
      rw [heq]
      exact List.mem_append_left _ (by simpa using hm)
    · obtain ⟨heq, hn, ha⟩ := ih (s := { s with notices := s.notices ++ [⟨meter, month, threshold⟩] })
      dsimp only at heq hn ha ⊢
      refine ⟨?_, fun h => hn ?_, List.forall_mem_cons.2 ⟨?_, ha⟩⟩
      · rw [heq]
        simp
      · refine List.nodup_append.2 ⟨h, List.nodup_singleton _, ?_⟩
        intro k hk k' hk' hkk
        rw [hkk, List.mem_singleton.1 hk'] at hk
        exact hm (by simpa using hk)
      · rw [heq]
        simp

end Notices

/-! ### What a call does -/

/-- The call changes neither what is counted nor the notices. -/
def MeteringCall.asks : MeteringCall → Bool
  | .commit (some _) => false
  | .claimThresholds .. => false
  | _ => true

/-- The reply is what the tables answer. -/
def answers (s : MeteringTables) (entry : MeteringEntry) : Prop :=
  match entry with
  | ⟨.claimRecord row, .ok claimed⟩ => claimed = s.claimRecord row
  | ⟨.accumulateBucket fact, .ok row⟩ => s.accumulateBucket fact = .ok row
  | ⟨.findLimitForUpdate meter, .ok limit⟩ => limit = s.findLimit meter
  | ⟨.monthUsage meter month own, .ok used⟩ => used = s.monthUsage meter month own
  | _ => True

/-- The tables have the same records, buckets and notices, and the same facts. -/
structure SameCounts (s s' : MeteringTables) : Prop where
  records : s'.records = s.records
  buckets : s'.buckets = s.buckets
  facts : s'.facts = s.facts
  notices : s'.notices = s.notices

/-- What a call leaves of the tables, with its reply. -/
inductive Effect (s s' : MeteringTables) : (c : MeteringCall) → Prog.Reply MeteringCall.Answer c → Prop
  | asked {c : MeteringCall} {reply : Prog.Reply MeteringCall.Answer c} (hasks : c.asks = true)
      (hsame : SameCounts s s') (hanswers : answers s ⟨c, reply⟩) : Effect s s' c reply
  | committed {recorded : RecordedFact} {reply : Prog.Reply MeteringCall.Answer (.commit (some recorded))}
      (hs : s' = s.commit recorded) : Effect s s' (.commit (some recorded)) reply
  | uncommitted {recorded : RecordedFact} {e : String} (hs : s' = s) :
      Effect s s' (.commit (some recorded)) (.error e)
  | claimed {meter : MeterKey} {month : UtcMonth} {thresholds : List MeterThreshold}
      {reply : Prog.Reply MeteringCall.Answer (.claimThresholds meter month thresholds)}
      (hs : s' = (claimThresholds meter month thresholds s).2)
      (hreply : reply = .ok (claimThresholds meter month thresholds s).1 ∨ ∃ e, reply = .error e) :
      Effect s s' (.claimThresholds meter month thresholds) reply
  | unclaimed {meter : MeterKey} {month : UtcMonth} {thresholds : List MeterThreshold} {e : String}
      (hs : s' = s) : Effect s s' (.claimThresholds meter month thresholds) (.error e)

section Serve

variable {s s' : MeteringTables} {c : MeteringCall} {choice : MeteringChoice} {row : RecordRow}

theorem answers_error {e : String} : answers s ⟨c, .error e⟩ := by
  cases c <;> trivial

theorem perform_same (h : c.asks = true) : SameCounts s (c.perform choice s).2 := by
  cases c with
  | commit recorded =>
    cases recorded with
    | none => exact ⟨rfl, rfl, rfl, rfl⟩
    | some recorded => cases h
  | claimThresholds => cases h
  | _ => exact ⟨rfl, rfl, rfl, rfl⟩

theorem perform_answers : answers s ⟨c, (c.perform choice s).1⟩ := by
  cases c with
  | accumulateBucket fact =>
    unfold MeteringCall.perform
    dsimp only
    cases h : s.accumulateBucket fact with
    | ok row => exact h
    | error e => trivial
  | claimRecord => rfl
  | findLimitForUpdate => rfl
  | monthUsage => rfl
  | commit recorded => cases recorded <;> trivial
  | _ => trivial

/-- **What a call does**, answered or not. -/
theorem serve_effect : Effect s (c.serve s choice).2 c (c.serve s choice).1 := by
  unfold MeteringCall.serve
  cases ha : c.asks with
  | true =>
    split
    · exact .asked ha (perform_same ha) perform_answers
    · next kept error _ =>
      cases kept with
      | true => exact .asked ha (perform_same ha) answers_error
      | false => exact .asked ha ⟨rfl, rfl, rfl, rfl⟩ answers_error
  | false =>
    cases c with
    | commit recorded =>
      cases recorded with
      | none => cases ha
      | some recorded =>
        split
        · exact .committed rfl
        · next kept error _ =>
          cases kept with
          | true => exact .committed rfl
          | false => exact .uncommitted rfl
    | claimThresholds meter month thresholds =>
      split
      · exact .claimed rfl (.inl rfl)
      · next kept error _ =>
        cases kept with
        | true => exact .claimed rfl (.inr ⟨error, rfl⟩)
        | false => exact .unclaimed rfl
    | _ => cases ha

theorem findLimit_le {meter : MeterKey} {limit : ℕ} (h : s.findLimit meter = some limit) :
    limit ≤ METER_LIMITS.monthlyLimit := by
  obtain ⟨row, -, rfl⟩ := Option.map_eq_some_iff.1 h
  exact row.within

end Serve

/-! ### Histories -/

/-- The claim a transaction begins with. -/
def claimedBy (fact : Fact) : List MeteringEntry :=
  match fact.row with
  | none => []
  | some row => [⟨.claimRecord row, .ok true⟩]

/-- The sum a transaction reads where there is a limit. -/
def summedBy (recorded : RecordedFact) : List MeteringEntry :=
  match recorded.limit with
  | none => []
  | some _ => [⟨.monthUsage recorded.fact.meter recorded.fact.day.month recorded.row, .ok recorded.used⟩]

/-- The history of a transaction that is committed next. -/
def opened (recorded : RecordedFact) : List MeteringEntry :=
  claimedBy recorded.fact ++ [⟨.accumulateBucket recorded.fact, .ok recorded.row⟩,
    ⟨.findLimitForUpdate recorded.fact.meter, .ok recorded.limit⟩] ++ summedBy recorded

/-- The calls that may be made behind a history: the statements of a transaction in their order, and a
claim of thresholds of the month of a fact that was committed. -/
def makes (history : History MeteringCall (Prog.Reply MeteringCall.Answer)) (c : MeteringCall) : Prop :=
  match c with
  | .claimRecord _ => history = []
  | .accumulateBucket fact => history = claimedBy fact
  | .findLimitForUpdate meter => ∃ fact row, meter = fact.meter ∧
      history = claimedBy fact ++ [⟨.accumulateBucket fact, .ok row⟩]
  | .monthUsage meter month own => ∃ fact limit, meter = fact.meter ∧ month = fact.day.month ∧
      history = claimedBy fact ++ [⟨.accumulateBucket fact, .ok own⟩, ⟨.findLimitForUpdate meter, .ok (some limit)⟩]
  | .commit (some recorded) => history = opened recorded
  | .commit none => ∃ row, history = [⟨.claimRecord row, .ok false⟩]
  | .claimThresholds meter month _ => ∃ entry ∈ history, commitsIn meter month entry
  | _ => True

/-- What a call left that was counted: the thresholds that were reached are claimed, unless a call failed. -/
def Notified (recorded : RecordedFact) (history : History MeteringCall (Prog.Reply MeteringCall.Answer)) : Prop :=
  ∀ limit, recorded.limit = some limit → (∀ entry ∈ history, answered entry = true) →
    ∃ setting, (⟨.warningPercent, .ok setting⟩ : MeteringEntry) ∈ history ∧
      (reached recorded.used limit setting = [] ∨
        ∃ claimed, (⟨.claimThresholds recorded.fact.meter recorded.fact.day.month
          (reached recorded.used limit setting), .ok claimed⟩ : MeteringEntry) ∈ history)

/-- What a call of `record` that returned has made: it committed its fact, or was told that it is a repeat. -/
inductive Leaves [MeteringHost] (input : MeterRecordInput) (now : ℤ)
    (history : History MeteringCall (Prog.Reply MeteringCall.Answer)) : Prop
  | counted {meter : DeclaredMeter} {recorded : RecordedFact} (hprepare : prepare input now = .ok (meter, recorded.fact))
      (hcommit : (⟨.commit (some recorded), .ok ()⟩ : MeteringEntry) ∈ history)
      (honly : ∀ entry ∈ history, ∀ other, entry.1 = .commit (some other) → other = recorded)
      (hnotified : Notified recorded history)
  | repeated {meter : DeclaredMeter} {fact : Fact} {row : RecordRow} (hprepare : prepare input now = .ok (meter, fact))
      (hrow : fact.row = some row) (hclaim : (⟨.claimRecord row, .ok false⟩ : MeteringEntry) ∈ history)
      (hnone : ∀ entry ∈ history, ∀ other, entry.1 ≠ .commit (some other))

/-- What an operation that returned has made. -/
def MeteringOperation.leaves [MeteringHost] (r : MeteringOperation)
    (history : History MeteringCall (Prog.Reply MeteringCall.Answer)) (_ : Unit) : Prop :=
  match r with
  | .record input now => Leaves input now history
  | .setLimit .. => ∀ entry ∈ history, ∀ other, entry.1 ≠ .commit (some other)

section Programs

variable {history : History MeteringCall (Prog.Reply MeteringCall.Answer)} {fact : Fact} {recorded : RecordedFact}
  {meter : DeclaredMeter}

theorem claimedBy_none (h : fact.row = none) : claimedBy fact = [] := by
  unfold claimedBy
  rw [h]

theorem claimedBy_some {row : RecordRow} (h : fact.row = some row) :
    claimedBy fact = [⟨.claimRecord row, .ok true⟩] := by
  unfold claimedBy
  rw [h]

/-- The statements behind the claim of a fact. -/
theorem along_countFact : Along makes (claimedBy fact) (countFact fact) := by
  refine along_need_bind rfl fun row => along_need_bind ⟨fact, row, rfl, rfl⟩ fun limit => ?_
  cases limit with
  | none =>
    refine along_need_bind ?_ fun _ => .pure
    show _ = opened _
    simp [opened, summedBy]
  | some limit =>
    refine along_need_bind ⟨fact, limit, rfl, rfl, by simp⟩ fun used => along_need_bind ?_ fun _ => .pure
    show _ = opened _
    simp [opened, summedBy]

theorem along_recordFact : Along makes [] (recordFact fact) := by
  unfold recordFact claimFact
  cases hr : fact.row with
  | none =>
    have hc : Along makes (claimedBy fact) (countFact fact) := along_countFact
    rw [claimedBy_none hr] at hc
    exact hc
  | some row =>
    refine along_need_bind rfl fun claimed => ?_
    cases claimed with
    | true =>
      have hc : Along makes (claimedBy fact) (countFact fact) := along_countFact
      rw [claimedBy_some hr] at hc
      exact hc
    | false => exact along_need_bind ⟨row, rfl⟩ fun _ => .pure

/-- The history `recordFact` leaves. -/
def Records (fact : Fact) (history : History MeteringCall (Prog.Reply MeteringCall.Answer)) :
    Option RecordedFact → Prop
  | some recorded => recorded.fact = fact ∧ history = opened recorded ++ [⟨.commit (some recorded), .ok ()⟩]
  | none => ∃ row, fact.row = some row ∧ history = [⟨.claimRecord row, .ok false⟩, ⟨.commit none, .ok ()⟩]

theorem ends_countFact : Ends (Records fact) (claimedBy fact) (countFact fact) := by
  refine ends_need_bind fun row => ends_need_bind fun limit => ?_
  cases limit with
  | none =>
    refine ends_need_bind fun _ => .pure ⟨rfl, ?_⟩
    simp [opened, summedBy]
  | some limit =>
    refine ends_need_bind fun used => ends_need_bind fun _ => .pure ⟨rfl, ?_⟩
    simp [opened, summedBy]

theorem ends_recordFact : Ends (Records fact) [] (recordFact fact) := by
  unfold recordFact claimFact
  cases hr : fact.row with
  | none =>
    have hc : Ends (Records fact) (claimedBy fact) (countFact fact) := ends_countFact
    rw [claimedBy_none hr] at hc
    exact hc
  | some row =>
    refine ends_need_bind fun claimed => ?_
    cases claimed with
    | true =>
      have hc : Ends (Records fact) (claimedBy fact) (countFact fact) := ends_countFact
      rw [claimedBy_some hr] at hc
      exact hc
    | false => exact ends_need_bind fun _ => .pure ⟨row, hr, rfl⟩

/-- The call may follow a fact of the meter and the month. -/
def MeteringCall.follows (meter : MeterKey) (month : UtcMonth) : MeteringCall → Bool
  | .claimThresholds m mo _ => m = meter && mo = month
  | .warningPercent => true
  | .owners _ => true
  | .publisher => true
  | .publish _ => true
  | _ => false

/-- A program of such calls. -/
abbrev Follows (fact : Fact) {α : Type} (p : MeteringService α) : Prop :=
  Within (fun c => c.follows fact.meter fact.day.month = true) p

theorem follows_publish {notice : ThresholdNotice} : Follows fact (publishThresholdNotice notice) := by
  unfold publishThresholdNotice
  split_ifs
  · exact within_pure
  · refine ⟨rfl, fun reply => ?_⟩
    match reply with
    | .error e => trivial
    | .ok false => trivial
    | .ok true => exact ⟨rfl, fun _ => trivial⟩

theorem follows_publishNotices {other : Fact} {used limit : ℕ} {owners : List String} :
    ∀ {thresholds : List MeterThreshold},
      Follows fact (publishNotices meter other used limit owners thresholds) := by
  intro thresholds
  induction thresholds with
  | nil => exact within_pure
  | cons threshold thresholds ih =>
    refine within_bind ?_ fun title => within_bind follows_publish fun _ => ih
    cases threshold with
    | exhausted => exact within_pure
    | warning => exact within_bind (within_need rfl) fun _ => within_pure

variable [MeteringHost]

theorem follows_notifyThresholds {used limit : ℕ} : Follows fact (notifyThresholds meter fact used limit) := by
  refine within_bind (within_need rfl) fun setting => ?_
  dsimp only
  split_ifs
  · exact within_pure
  · have hc : (MeteringCall.claimThresholds fact.meter fact.day.month
        (reached used limit setting)).follows fact.meter fact.day.month = true := by
      simp [MeteringCall.follows]
    refine within_bind (within_need hc) fun claimed => ?_
    unfold tellOwners
    split_ifs
    · exact within_pure
    · exact within_bind (within_need rfl) fun owners => follows_publishNotices

theorem follows_afterFact : Follows recorded.fact (afterFact meter (some recorded)) := by
  obtain ⟨fact, row, limit, used⟩ := recorded
  cases limit with
  | none => exact within_pure
  | some limit => exact within_orElse follows_notifyThresholds fun _ => within_pure

omit [MeteringHost] in
/-- A call that failed takes the promise away. -/
theorem notified_of_error {entry : MeteringEntry} (he : entry ∈ history) (h : answered entry = false) :
    Notified recorded history := by
  intro limit _ ha
  rw [ha entry he] at h
  cases h

/-- **What was reached is claimed** behind a fact that was counted. -/
theorem ends_afterFact : Ends (fun history _ => Notified recorded history) history (afterFact meter (some recorded)) := by
  obtain ⟨fact, row, limit, used⟩ := recorded
  cases limit with
  | none => exact .pure (by nofun)
  | some limit =>
    unfold afterFact notifyThresholds meteringCall
    dsimp only
    rw [Prog.need_bind_orElse]
    refine .call fun reply => ?_
    cases reply with
    | error e => exact .pure (notified_of_error (List.mem_append_right _ (List.mem_singleton_self _)) rfl)
    | ok setting =>
      have hs : (⟨.warningPercent, .ok setting⟩ : MeteringEntry) ∈
          history ++ [⟨.warningPercent, .ok setting⟩] :=
        List.mem_append_right _ (List.mem_singleton_self _)
      dsimp only
      split_ifs with hr
      · refine .pure fun limit' hl' _ => ⟨setting, hs, .inl ?_⟩
        rw [← Option.some.inj hl']
        exact hr
      · rw [Prog.need_bind_orElse]
        refine .call fun reply => ?_
        cases reply with
        | error e => exact .pure (notified_of_error (List.mem_append_right _ (List.mem_singleton_self _)) rfl)
        | ok claimed =>
          refine ends_of_behind fun history' _ hle limit' hl' _ => ⟨setting, hle.subset ?_, .inr ⟨claimed, hle.subset ?_⟩⟩
          · exact List.mem_append_left _ hs
          · rw [← Option.some.inj hl']
            exact List.mem_append_right _ (List.mem_singleton_self _)

end Programs

section Operations

variable {history : History MeteringCall (Prog.Reply MeteringCall.Answer)} {recorded : RecordedFact}

/-- The statements of a transaction that is committed next. -/
theorem mem_opened {entry : MeteringEntry} : entry ∈ opened recorded ↔
    (∃ row, recorded.fact.row = some row ∧ entry = ⟨.claimRecord row, .ok true⟩) ∨
    entry = ⟨.accumulateBucket recorded.fact, .ok recorded.row⟩ ∨
    entry = ⟨.findLimitForUpdate recorded.fact.meter, .ok recorded.limit⟩ ∨
    ∃ limit, recorded.limit = some limit ∧
      entry = ⟨.monthUsage recorded.fact.meter recorded.fact.day.month recorded.row, .ok recorded.used⟩ := by
  unfold opened claimedBy summedBy
  cases recorded.fact.row with
  | none => cases recorded.limit <;> simp
  | some row => cases recorded.limit <;> simp

/-- A history that is committed next has no commit in it. -/
theorem ne_commit_of_opened {entry : MeteringEntry} (h : entry ∈ opened recorded) (other : Option RecordedFact) :
    entry.1 ≠ .commit other := by
  rcases mem_opened.1 h with ⟨row, -, rfl⟩ | rfl | rfl | ⟨limit, -, rfl⟩ <;> nofun

variable [MeteringHost]

/-- **The calls of an operation** are made in their order. -/
theorem along_program {r : MeteringOperation} : Along makes [] r.program := by
  cases r with
  | record input now =>
    refine along_ofExcept_bind fun prepared _ => ?_
    obtain ⟨meter, fact⟩ := prepared
    refine along_ends_bind along_recordFact ends_recordFact fun outcome history _ hr => ?_
    cases outcome with
    | none => exact .pure
    | some recorded =>
      obtain ⟨rfl, rfl⟩ := hr
      have hf : Follows recorded.fact (afterFact meter (some recorded)) := follows_afterFact
      refine along_of_all_behind (fun history' hle c hc => ?_) hf.all
      cases c with
      | claimThresholds m mo thresholds =>
        obtain ⟨rfl, rfl⟩ : m = recorded.fact.meter ∧ mo = recorded.fact.day.month := by
          simpa [MeteringCall.follows] using hc
        refine ⟨_, hle.subset (List.mem_append_right _ (List.mem_singleton_self _)), ?_⟩
        simp [commitsIn, Fact.of, BucketKey.of, Fact.bucket, inMonth_iff]
      | warningPercent => trivial
      | owners => trivial
      | publisher => trivial
      | publish => trivial
      | _ => cases hc
  | setLimit tenantId meter monthlyLimit setBy now =>
    exact along_ofExcept_bind fun _ _ => along_ofExcept_bind fun _ _ => along_ofExcept_bind fun _ _ =>
      along_ofExcept_bind fun _ _ => along_need_bind trivial fun _ => .call trivial fun reply => by
        cases reply with
        | ok a => exact .pure
        | error e => exact .fail

/-- **What an operation leaves** that returned. -/
theorem ends_program {r : MeteringOperation} : Ends r.leaves [] r.program := by
  cases r with
  | record input now =>
    have hs : ∀ x, x = prepare input now →
        Ends (MeteringOperation.leaves (.record input now)) []
          (.ofExcept x >>= fun prepared => recordFact prepared.2 >>= afterFact prepared.1) := by
      rintro x hx
      cases x with
      | error e => exact .fail
      | ok prepared =>
        obtain ⟨meter, fact⟩ := prepared
        show Ends _ [] (recordFact fact >>= afterFact meter)
        refine ends_ends_bind ends_recordFact fun outcome history _ hr => ?_
        cases outcome with
        | none =>
          obtain ⟨row, hrow, rfl⟩ := hr
          refine .pure (.repeated hx.symm hrow (by simp) ?_)
          simp
        | some recorded =>
          obtain ⟨rfl, rfl⟩ := hr
          refine (ends_afterFact.and (ends_all follows_afterFact.all)).mono fun history' _ => ?_
          rintro ⟨hn, extra, rfl, hext⟩
          refine .counted hx.symm (by simp) (fun entry he other ho => ?_) hn
          rcases List.mem_append.1 he with he | he
          · rcases List.mem_append.1 he with he | he
            · exact absurd ho (ne_commit_of_opened he _)
            · rw [List.mem_singleton.1 he] at ho
              cases ho
              rfl
          · have hf := hext entry he
            rw [ho] at hf
            cases hf
    exact hs _ rfl
  | setLimit tenantId meter monthlyLimit setBy now =>
    refine ends_ofExcept_bind fun _ => ends_ofExcept_bind fun _ => ends_ofExcept_bind fun _ =>
      ends_ofExcept_bind fun _ => ends_need_bind fun _ => .call fun reply => ?_
    cases reply with
    | error e => exact .fail
    | ok a =>
      refine .pure ?_
      show ∀ entry ∈ _, _
      simp

end Operations

/-! ### What is said of the tables and the calls -/

/-- A commit of the month found no limit, or was not answered. -/
def Disturbed (es : List MeteringEntry) (meter : MeterKey) (month : UtcMonth) : Prop :=
  ∃ entry ∈ es, ∃ recorded, entry.1 = .commit (some recorded) ∧ recorded.fact.of meter month = true ∧
    (recorded.limit = none ∨ answered entry = false)

/-- The last commit of the month, if there was one, read what the month came to. -/
def LastSaw (s : MeteringTables) (es : List MeteringEntry) (meter : MeterKey) (month : UtcMonth) : Prop :=
  (∀ entry ∈ es, commitsIn meter month entry = false) ∨ Disturbed es meter month ∨
    ∃ recorded limit, (⟨.commit (some recorded), .ok ()⟩ : MeteringEntry) ∈ es ∧
      recorded.fact.of meter month = true ∧ recorded.limit = some limit ∧
      recorded.used = monthSum (s.total meter month)

/-- The claim of thresholds of the month was not answered. -/
def losesClaim (meter : MeterKey) (month : UtcMonth) (entry : MeteringEntry) : Bool :=
  match entry with
  | ⟨.claimThresholds m mo _, .error _⟩ => m = meter && mo = month
  | _ => false

/-- What is said of the tables and of all calls that were made. -/
structure Books (start s : MeteringTables) (es : List MeteringEntry) : Prop where
  accounted : Accounted s
  committed : ∀ fact,
    start.facts.count fact + es.countP (fun entry => commits fact entry && answered entry) ≤ s.facts.count fact ∧
    s.facts.count fact ≤ start.facts.count fact + es.countP (commits fact)
  repeats : ∀ row, (⟨.claimRecord row, .ok false⟩ : MeteringEntry) ∈ es → row.key ∈ s.records.map (·.key)
  limits : ∀ meter limit, (⟨.findLimitForUpdate meter, .ok (some limit)⟩ : MeteringEntry) ∈ es →
    limit ≤ METER_LIMITS.monthlyLimit
  toldOf : ∀ k, start.notices.count k + es.countP (tells k) ≤ s.notices.count k
  new : ∀ k ∈ s.notices, k ∈ start.notices ∨ (∃ entry ∈ es, tells k entry = true) ∨
    ∃ entry ∈ es, losesClaim k.meter k.month entry = true
  claimed : ∀ meter month thresholds claimed,
    (⟨.claimThresholds meter month thresholds, .ok claimed⟩ : MeteringEntry) ∈ es →
      ∀ threshold ∈ thresholds, ⟨meter, month, threshold⟩ ∈ s.notices
  last : ∀ meter month, LastSaw s es meter month

/-- What a commit says is so. -/
structure Sound (s : MeteringTables) (es : List MeteringEntry) (recorded : RecordedFact) : Prop where
  row : s.accumulateBucket recorded.fact = .ok recorded.row
  record : ∀ row, recorded.fact.row = some row → s.claimRecord row = true
  used : ∀ limit, recorded.limit = some limit →
    recorded.used = s.monthUsage recorded.fact.meter recorded.fact.day.month recorded.row ∨
      Disturbed es recorded.fact.meter recorded.fact.day.month

section Books

variable {start s s' : MeteringTables} {es es' : List MeteringEntry} {c : MeteringCall}
  {reply : Prog.Reply MeteringCall.Answer c} {meter : MeterKey} {month : UtcMonth} {recorded : RecordedFact}

theorem Disturbed.mono (h : Disturbed es meter month) (hs : es ⊆ es') : Disturbed es' meter month := by
  obtain ⟨entry, he, h⟩ := h
  exact ⟨entry, hs he, h⟩

theorem of_iff {fact : Fact} : fact.of meter month = true ↔ fact.meter = meter ∧ fact.day.month = month := by
  show (decide (fact.meter = meter) && inMonth fact.day month) = true ↔ _
  rw [Bool.and_eq_true, decide_eq_true_eq, inMonth_iff]

theorem books_start (h : Accounted start) : Books start start [] := by
  refine ⟨h, fun fact => by simp, by simp, by simp, by simp, fun k hk => .inl hk, by simp, fun _ _ => .inl ?_⟩
  simp

theorem Books.perm (h : Books start s es) (hp : es.Perm es') : Books start s es' := by
  refine ⟨h.accounted, fun fact => ?_, fun row hrow => h.repeats row (hp.mem_iff.2 hrow),
    fun m limit hl => h.limits m limit (hp.mem_iff.2 hl), fun k => ?_, fun k hk => ?_,
    fun m mo ts claimed hc => h.claimed m mo ts claimed (hp.mem_iff.2 hc), fun m mo => ?_⟩
  · rw [← hp.countP_eq, ← hp.countP_eq]
    exact h.committed fact
  · rw [← hp.countP_eq]
    exact h.toldOf k
  · refine (h.new k hk).imp_right (Or.imp ?_ ?_)
    · rintro ⟨entry, he, ht⟩
      exact ⟨entry, hp.mem_iff.1 he, ht⟩
    · rintro ⟨entry, he, hlos⟩
      exact ⟨entry, hp.mem_iff.1 he, hlos⟩
  · refine (h.last m mo).imp (fun hn entry he => hn entry (hp.mem_iff.2 he))
      (Or.imp (fun hd => hd.mono hp.subset) ?_)
    rintro ⟨recorded, limit, he, hr⟩
    exact ⟨recorded, limit, hp.mem_iff.1 he, hr⟩

/-- The month stays as it is, and the call is no commit of it. -/
theorem LastSaw.append (h : LastSaw s es meter month) (ht : s'.total meter month = s.total meter month)
    (he : commitsIn meter month ⟨c, reply⟩ = false) : LastSaw s' (es ++ [⟨c, reply⟩]) meter month := by
  rcases h with hn | hd | ⟨recorded, limit, hm, hof, hl, hu⟩
  · exact .inl (List.forall_mem_append.2 ⟨hn, List.forall_mem_singleton.2 he⟩)
  · exact .inr (.inl (hd.mono (List.subset_append_left _ _)))
  · rw [← ht] at hu
    exact .inr (.inr ⟨recorded, limit, List.mem_append_left _ hm, hof, hl, hu⟩)

/-- A call that changes no counts. -/
theorem Books.asked (h : Books start s es) (hasks : c.asks = true) (hs : SameCounts s s')
    (ha : answers s ⟨c, reply⟩) : Books start s' (es ++ [⟨c, reply⟩]) := by
  have hcom : ∀ fact, commits fact ⟨c, reply⟩ = false := by
    intro fact
    cases c with
    | commit recorded =>
      cases recorded with
      | none => rfl
      | some recorded => cases hasks
    | _ => rfl
  have ht : ∀ k, tells k ⟨c, reply⟩ = false := by
    intro k
    cases c with
    | claimThresholds => cases hasks
    | _ => rfl
  have hin : ∀ m mo, commitsIn m mo ⟨c, reply⟩ = false := by
    intro m mo
    cases c with
    | commit recorded =>
      cases recorded with
      | none => rfl
      | some recorded => cases hasks
    | _ => rfl
  have hacc : Accounted s' := by
    have h' := h.accounted
    refine ⟨?_, ?_, ?_, ?_, ?_, ?_⟩
    · rw [hs.buckets]
      exact h'.keys
    · rw [hs.buckets, hs.facts]
      exact h'.sums
    · rw [hs.buckets, hs.facts]
      exact h'.complete
    · rw [hs.facts]
      exact h'.refs
    · rw [hs.records, hs.facts]
      exact h'.records
    · rw [hs.notices]
      exact h'.notices
  refine ⟨hacc, fun fact => ?_, fun row hrow => ?_, fun m limit hl => ?_, fun k => ?_, fun k hk => ?_,
    fun m mo ts claimed hcla => ?_, fun m mo => ?_⟩
  · rw [hs.facts, List.countP_append, List.countP_append, List.countP_singleton, List.countP_singleton, hcom]
    exact h.committed fact
  · rw [hs.records]
    rcases List.mem_append.1 hrow with hrow | hrow
    · exact h.repeats row hrow
    · obtain ⟨rfl, hr⟩ := Sigma.mk.inj (List.mem_singleton.1 hrow)
      rw [← eq_of_heq hr] at ha
      have hc : false = s.claimRecord row := ha
      unfold MeteringTables.claimRecord at hc
      simpa using hc
  · rcases List.mem_append.1 hl with hl | hl
    · exact h.limits m limit hl
    · obtain ⟨rfl, hr⟩ := Sigma.mk.inj (List.mem_singleton.1 hl)
      rw [← eq_of_heq hr] at ha
      exact findLimit_le ha.symm
  · rw [hs.notices, List.countP_append, List.countP_singleton, ht]
    exact h.toldOf k
  · rw [hs.notices] at hk
    refine (h.new k hk).imp_right (Or.imp ?_ ?_)
    · rintro ⟨entry, he, ht⟩
      exact ⟨entry, List.mem_append_left _ he, ht⟩
    · rintro ⟨entry, he, hlos⟩
      exact ⟨entry, List.mem_append_left _ he, hlos⟩
  · rw [hs.notices]
    rcases List.mem_append.1 hcla with hcla | hcla
    · exact h.claimed m mo ts claimed hcla
    · obtain ⟨rfl, -⟩ := Sigma.mk.inj (List.mem_singleton.1 hcla)
      cases hasks
  · refine (h.last m mo).append ?_ (hin m mo)
    unfold MeteringTables.total
    rw [hs.buckets]

theorem total_commit (hk : recorded.row.key = recorded.fact.bucket) (h : recorded.fact.of meter month = false) :
    (s.commit recorded).total meter month = s.total meter month := by
  refine monthTotal_write ?_
  rw [hk]
  exact h

/-- A commit is seen, or the month is another one. -/
theorem LastSaw.commit {reply : Prog.Reply MeteringCall.Answer (.commit (some recorded))}
    (h : LastSaw s es meter month) (hs : s' = s.commit recorded ∨ s' = s ∧ ∃ e, reply = .error e)
    (hsou : Sound s es recorded) : LastSaw s' (es ++ [⟨.commit (some recorded), reply⟩]) meter month := by
  have hm : (⟨.commit (some recorded), reply⟩ : MeteringEntry) ∈ es ++ [⟨.commit (some recorded), reply⟩] :=
    List.mem_append_right _ (List.mem_singleton_self _)
  cases hof : recorded.fact.of meter month with
  | false =>
    refine h.append ?_ hof
    rcases hs with rfl | ⟨rfl, -⟩
    · exact total_commit (accumulateBucket_ok hsou.row).1 hof
    · rfl
  | true =>
    have hlost : answered ⟨.commit (some recorded), reply⟩ = false →
        LastSaw s' (es ++ [⟨.commit (some recorded), reply⟩]) meter month :=
      fun ha => .inr (.inl ⟨_, hm, recorded, rfl, hof, .inr ha⟩)
    rcases hs with rfl | ⟨-, e, rfl⟩
    · cases hl : recorded.limit with
      | none => exact .inr (.inl ⟨_, hm, recorded, rfl, hof, .inl hl⟩)
      | some limit =>
        obtain ⟨rfl, rfl⟩ := of_iff.1 hof
        rcases hsou.used limit hl with hu | hd
        · cases reply with
          | error e => exact hlost rfl
          | ok a => exact .inr (.inr ⟨recorded, limit, hm, hof, hl, hu⟩)
        · exact .inr (.inl (hd.mono (List.subset_append_left _ _)))
    · exact hlost rfl

/-- The notices stay, and the calls are some more. -/
theorem Books.new_append (h : Books start s es) {entry : MeteringEntry} {k : NoticeKey} (hk : k ∈ s.notices) :
    k ∈ start.notices ∨ (∃ e ∈ es ++ [entry], tells k e = true) ∨
      ∃ e ∈ es ++ [entry], losesClaim k.meter k.month e = true := by
  refine (h.new k hk).imp_right (Or.imp ?_ ?_)
  · rintro ⟨e, he, ht⟩
    exact ⟨e, List.mem_append_left _ he, ht⟩
  · rintro ⟨e, he, hl⟩
    exact ⟨e, List.mem_append_left _ he, hl⟩

/-- **A commit**, whether it is answered or not. -/
theorem Books.commit {reply : Prog.Reply MeteringCall.Answer (.commit (some recorded))} (h : Books start s es)
    (hs : s' = s.commit recorded ∨ s' = s ∧ ∃ e, reply = .error e) (hsou : Sound s es recorded) :
    Books start s' (es ++ [⟨.commit (some recorded), reply⟩]) := by
  have hn : s'.notices = s.notices := by
    rcases hs with rfl | ⟨rfl, -⟩ <;> rfl
  refine ⟨?_, fun fact => ?_, fun row hr => ?_, fun m limit hl => ?_, fun k => ?_, fun k hk => ?_,
    fun m mo ts claimed hc => ?_, fun m mo => (h.last m mo).commit hs hsou⟩
  · rcases hs with rfl | ⟨rfl, -⟩
    · exact h.accounted.commit hsou.row hsou.record
    · exact h.accounted
  · have hcom : commits fact ⟨.commit (some recorded), reply⟩ = decide (recorded.fact = fact) := rfl
    obtain ⟨hle, hge⟩ := h.committed fact
    rw [List.countP_append, List.countP_append, List.countP_singleton, List.countP_singleton, hcom]
    rcases hs with rfl | ⟨rfl, e, rfl⟩
    · have hfac : (s.commit recorded).facts = s.facts ++ [recorded.fact] := rfl
      rw [hfac, List.count_append, List.count_singleton]
      by_cases hf : recorded.fact = fact
      · simp only [hf, decide_true, Bool.true_and, BEq.rfl, if_true]
        constructor
        · split_ifs <;> omega
        · omega
      · simp only [hf, decide_false, Bool.false_and, beq_iff_eq, if_false, Bool.false_eq_true]
        omega
    · have hlost : answered ⟨.commit (some recorded), .error e⟩ = false := rfl
      rw [hlost, Bool.and_false, if_neg Bool.false_ne_true]
      constructor
      · omega
      · split_ifs <;> omega
  · rcases List.mem_append.1 hr with hr | hr
    · have hm := h.repeats row hr
      rcases hs with rfl | ⟨rfl, -⟩
      · show row.key ∈ (s.records ++ recorded.fact.row.toList).map (·.key)
        rw [List.map_append]
        exact List.mem_append_left _ hm
      · exact hm
    · cases (Sigma.mk.inj (List.mem_singleton.1 hr)).1
  · rcases List.mem_append.1 hl with hl | hl
    · exact h.limits m limit hl
    · cases (Sigma.mk.inj (List.mem_singleton.1 hl)).1
  · have ht : tells k ⟨.commit (some recorded), reply⟩ = false := rfl
    rw [hn, List.countP_append, List.countP_singleton, ht]
    exact h.toldOf k
  · rw [hn] at hk
    exact h.new_append hk
  · rw [hn]
    rcases List.mem_append.1 hc with hc | hc
    · exact h.claimed m mo ts claimed hc
    · cases (Sigma.mk.inj (List.mem_singleton.1 hc)).1

/-- **A claim of thresholds**, whether it is answered or not. -/
theorem Books.claim {thresholds : List MeterThreshold}
    {reply : Prog.Reply MeteringCall.Answer (.claimThresholds meter month thresholds)} (h : Books start s es)
    (hs : s' = (claimThresholds meter month thresholds s).2 ∧
        (reply = .ok (claimThresholds meter month thresholds s).1 ∨ ∃ e, reply = .error e) ∨
      s' = s ∧ ∃ e, reply = .error e) :
    Books start s' (es ++ [⟨.claimThresholds meter month thresholds, reply⟩]) := by
  obtain ⟨heq, hn, hall⟩ := @claimThresholds_spec meter month thresholds s
  have hsame : s' = { s with notices := s'.notices } := by
    rcases hs with ⟨rfl, -⟩ | ⟨rfl, -⟩
    · rw [heq]
    · rfl
  have hnot : s.notices <+: s'.notices := by
    rcases hs with ⟨rfl, -⟩ | ⟨rfl, -⟩
    · rw [heq]
      exact List.prefix_append _ _
    · exact List.prefix_refl _
  have ha : Accounted s' := by
    have h' := h.accounted
    have hn' : s'.notices.Nodup := by
      rcases hs with ⟨rfl, -⟩ | ⟨rfl, -⟩
      · exact hn h'.notices
      · exact h'.notices
    rw [hsame]
    exact ⟨h'.keys, h'.sums, h'.complete, h'.refs, h'.records, hn'⟩
  refine ⟨ha, fun fact => ?_, fun row hrow => ?_, fun m limit hl => ?_, fun k => ?_, fun k hk => ?_,
    fun m mo ts claimed hcla threshold ht => ?_, fun m mo => (h.last m mo).append ?_ rfl⟩
  · have hcom : commits fact ⟨.claimThresholds meter month thresholds, reply⟩ = false := rfl
    rw [hsame, List.countP_append, List.countP_append, List.countP_singleton, List.countP_singleton, hcom]
    exact h.committed fact
  · rw [hsame]
    rcases List.mem_append.1 hrow with hrow | hrow
    · exact h.repeats row hrow
    · cases (Sigma.mk.inj (List.mem_singleton.1 hrow)).1
  · rcases List.mem_append.1 hl with hl | hl
    · exact h.limits m limit hl
    · cases (Sigma.mk.inj (List.mem_singleton.1 hl)).1
  · have htold := h.toldOf k
    rw [List.countP_append, List.countP_singleton]
    rcases hs with ⟨rfl, rfl | ⟨e, rfl⟩⟩ | ⟨rfl, e, rfl⟩
    · rw [heq]
      dsimp only
      rw [List.count_append]
      split_ifs with htel
      · have hk : k ∈ (claimThresholds meter month thresholds s).1.map fun threshold =>
            (⟨meter, month, threshold⟩ : NoticeKey) := by
          obtain ⟨km, kmo, kt⟩ := k
          simp only [tells, Bool.and_eq_true, decide_eq_true_eq, List.contains_iff_mem] at htel
          obtain ⟨⟨rfl, rfl⟩, hm⟩ := htel
          exact List.mem_map_of_mem hm
        have hp := List.count_pos_iff.2 hk
        omega
      · omega
    · have hpre := hnot.sublist.count_le k
      have hlost : tells k ⟨.claimThresholds meter month thresholds, .error e⟩ = false := rfl
      rw [hlost, if_neg Bool.false_ne_true]
      omega
    · have hlost : tells k ⟨.claimThresholds meter month thresholds, .error e⟩ = false := rfl
      rw [hlost, if_neg Bool.false_ne_true]
      omega
  · by_cases hold : k ∈ s.notices
    · exact h.new_append hold
    · rcases hs with ⟨rfl, hr⟩ | ⟨rfl, -⟩
      · rw [heq] at hk
        obtain ⟨threshold, ht, rfl⟩ := List.mem_map.1 ((List.mem_append.1 hk).resolve_left hold)
        refine .inr (hr.imp ?_ ?_)
        · rintro rfl
          refine ⟨_, List.mem_append_right _ (List.mem_singleton_self _), ?_⟩
          simp [tells, ht]
        · rintro ⟨e, rfl⟩
          refine ⟨_, List.mem_append_right _ (List.mem_singleton_self _), ?_⟩
          simp [losesClaim]
      · exact absurd hk hold
  · rcases List.mem_append.1 hcla with hcla | hcla
    · exact hnot.subset (h.claimed m mo ts claimed hcla threshold ht)
    · obtain ⟨hc, hr⟩ := Sigma.mk.inj (List.mem_singleton.1 hcla)
      cases hc
      rcases hs with ⟨rfl, -⟩ | ⟨-, e, rfl⟩
      · exact hall threshold ht
      · cases eq_of_heq hr
  · rw [hsame]
    rfl

/-- **A call keeps the books**, where what a commit says is so. -/
theorem Books.step (h : Books start s es) (he : Effect s s' c reply)
    (hsou : ∀ recorded, c = .commit (some recorded) → Sound s es recorded) :
    Books start s' (es ++ [⟨c, reply⟩]) := by
  cases he with
  | asked hasks hsame ha => exact h.asked hasks hsame ha
  | committed hs => exact h.commit (.inl hs) (hsou _ rfl)
  | uncommitted hs => exact h.commit (.inr ⟨hs, _, rfl⟩) (hsou _ rfl)
  | claimed hs hr => exact h.claim (.inl ⟨hs, hr⟩)
  | unclaimed hs => exact h.claim (.inr ⟨hs, _, rfl⟩)

end Books

/-! ### What is said of the processes -/

/-- The statement would be answered the same now; of the sum of a month this is so unless it was disturbed. -/
def Still (s : MeteringTables) (es : List MeteringEntry) (entry : MeteringEntry) : Prop :=
  match entry with
  | ⟨.claimRecord row, .ok true⟩ => s.claimRecord row = true
  | ⟨.accumulateBucket fact, .ok row⟩ => s.accumulateBucket fact = .ok row
  | ⟨.monthUsage meter month own, .ok used⟩ => used = s.monthUsage meter month own ∨ Disturbed es meter month
  | _ => True

/-- No row is held by both. -/
def Apart (p q : MeteringProcess) : Prop :=
  ∀ row, holds row p = true → holds row q = false

/-- What is said of the tables and the processes. -/
structure Kept [MeteringHost] (start s : MeteringTables) (live gone : List MeteringProcess) : Prop where
  abides : ∀ p ∈ live ++ gone, Abides makes p.2
  leaves : ∀ p ∈ live ++ gone, Ends p.1.leaves p.2.history p.2.rest
  apart : live.Pairwise Apart
  still : ∀ p ∈ live, inTransaction p = true → ∀ entry ∈ p.2.history, Still s (entriesOf (live ++ gone)) entry
  books : Books start s (entriesOf (live ++ gone))

section Processes

variable {start s s' : MeteringTables} {es es' : List MeteringEntry} {p q : MeteringProcess} {c : MeteringCall}
  {reply : Prog.Reply MeteringCall.Answer c} {recorded : RecordedFact} {entry : MeteringEntry} {row : LockedRow}
  {ps ps' : List MeteringProcess}

theorem entriesOf_perm (h : ps.Perm ps') : (entriesOf ps).Perm (entriesOf ps') :=
  h.flatMap_right _

theorem mem_entriesOf : entry ∈ entriesOf ps ↔ ∃ p ∈ ps, entry ∈ p.2.history :=
  List.mem_flatMap

/-- The calls behind a move of the first process. -/
theorem entriesOf_move {r : MeteringOperation} {history : List MeteringEntry} {rest rest' : MeteringService Unit} :
    (entriesOf ((r, ⟨history, rest⟩) :: ps) ++ [entry]).Perm
      (entriesOf ((r, ⟨history ++ [entry], rest'⟩) :: ps)) := by
  unfold entriesOf
  rw [List.flatMap_cons, List.flatMap_cons, List.append_assoc, List.append_assoc]
  exact List.perm_append_comm.append_left _

theorem Still.mono (h : Still s es entry) (hs : es ⊆ es') (hr : s'.records = s.records)
    (hb : s'.buckets = s.buckets) : Still s' es' entry := by
  have hc : ∀ row, s'.claimRecord row = s.claimRecord row := by
    intro row
    unfold MeteringTables.claimRecord
    rw [hr]
  have hbuc : ∀ fact, s'.accumulateBucket fact = s.accumulateBucket fact := by
    intro fact
    unfold MeteringTables.accumulateBucket MeteringTables.bucket
    rw [hb]
  have hu : ∀ meter month own, s'.monthUsage meter month own = s.monthUsage meter month own := by
    intro meter month own
    unfold MeteringTables.monthUsage
    rw [hb]
  unfold Still at h ⊢
  split at h
  · exact (hc _).trans h
  · exact (hbuc _).trans h
  · rw [hu]
    exact h.imp_right fun hd => hd.mono hs
  · trivial

/-- What a statement was answered is so. -/
theorem still_of_answers (h : answers s entry) : Still s es entry := by
  unfold Still
  split
  · exact Eq.symm h
  · exact h
  · exact .inl h
  · trivial

theorem inTransaction_iff : inTransaction p = true ↔
    p.2.running = true ∧ ∀ entry ∈ p.2.history, ∀ outcome, entry.1 ≠ .commit outcome := by
  unfold inTransaction
  rw [Bool.and_eq_true, List.all_eq_true]
  refine and_congr_right fun _ => forall_congr' fun entry => forall_congr' fun _ => ?_
  split
  · next outcome hc =>
    constructor
    · nofun
    · intro h
      exact absurd hc (h outcome)
  · next hn => exact ⟨fun _ => hn, fun _ => rfl⟩

/-- A process that is in a transaction behind a move was in it, and made no commit. -/
theorem inTransaction_of_move {r : MeteringOperation} {history : List MeteringEntry} {rest : MeteringService Unit}
    (next : Prog.Reply MeteringCall.Answer c → MeteringService Unit)
    (h : inTransaction (r, ⟨history ++ [⟨c, reply⟩], rest⟩) = true) :
    inTransaction (r, ⟨history, .call c next⟩) = true ∧ ∀ outcome, c ≠ .commit outcome := by
  obtain ⟨-, hn⟩ := inTransaction_iff.1 h
  refine ⟨inTransaction_iff.2 ⟨rfl, fun entry he => hn entry (List.mem_append_left _ he)⟩, ?_⟩
  exact hn _ (List.mem_append_right _ (List.mem_singleton_self _))

/-- What a reply takes is what its call waited for. -/
theorem waitsFor_of_takes (h : takes row ⟨c, reply⟩ = true) : c.waitsFor = some row := by
  unfold takes at h
  split at h
  · next heq =>
    obtain ⟨rfl, -⟩ := Sigma.mk.inj heq
    exact congrArg some (of_decide_eq_true h).symm
  · next heq =>
    obtain ⟨rfl, -⟩ := Sigma.mk.inj heq
    exact congrArg some (of_decide_eq_true h).symm
  · next heq =>
    obtain ⟨rfl, -⟩ := Sigma.mk.inj heq
    exact congrArg some (of_decide_eq_true h).symm
  · cases h

theorem holds_of_mem (hp : inTransaction p = true) (he : entry ∈ p.2.history) (h : takes row entry = true) :
    holds row p = true := by
  unfold holds
  rw [hp, Bool.true_and, List.any_eq_true]
  exact ⟨entry, he, h⟩

/-- **A move keeps the processes apart**, where it was not blocked. -/
theorem apart_of_move {r : MeteringOperation} {history : List MeteringEntry} {rest : MeteringService Unit}
    {next : Prog.Reply MeteringCall.Answer c → MeteringService Unit} {others : List MeteringProcess}
    (h : Apart (r, ⟨history, .call c next⟩) q) (hq : q ∈ others)
    (hu : unblocked others (r, ⟨history, .call c next⟩) = true) :
    Apart (r, ⟨history ++ [⟨c, reply⟩], rest⟩) q := by
  intro row hr
  unfold holds at hr
  rw [Bool.and_eq_true, List.any_append, Bool.or_eq_true] at hr
  obtain ⟨hm, ha⟩ := hr
  have hp := (inTransaction_of_move next hm).1
  rcases ha with ha | ha
  · refine h row ?_
    unfold holds
    rw [hp, ha]
    rfl
  · have ht : takes row ⟨c, reply⟩ = true := by
      simpa using ha
    unfold unblocked at hu
    dsimp only at hu
    rw [waitsFor_of_takes ht, Option.all_some, List.all_eq_true] at hu
    simpa using hu q hq

theorem Apart.symm (h : Apart p q) : Apart q p := by
  intro row hr
  by_contra hp
  rw [h row (by simpa using hp)] at hr
  cases hr

/-- **A commit of another process** leaves what a transaction was answered as it is. -/
theorem still_commit (hq : inTransaction q = true) (ha : Abides makes q.2) (hent : entry ∈ q.2.history)
    (h : Still s es entry) (hp : inTransaction p = true) (ho : p.2.history = opened recorded)
    (hapa : Apart p q) (hkey : recorded.row.key = recorded.fact.bucket)
    (reply : Prog.Reply MeteringCall.Answer (.commit (some recorded))) :
    Still (s.commit recorded) (es ++ [⟨.commit (some recorded), reply⟩]) entry := by
  have hb : ∀ row e e', e ∈ p.2.history → takes row e = true → e' ∈ q.2.history → takes row e' = true → False := by
    intro row e e' he ht he' ht'
    have hq' := holds_of_mem hq he' ht'
    rw [hapa row (holds_of_mem hp he ht)] at hq'
    cases hq'
  have hmem : ∀ {e : MeteringEntry}, e ∈ opened recorded → e ∈ p.2.history := by
    intro e he
    rw [ho]
    exact he
  unfold Still at h ⊢
  split at h
  · next row =>
    unfold MeteringTables.claimRecord at h ⊢
    rw [Bool.not_eq_true'] at h ⊢
    show (s.records ++ recorded.fact.row.toList).any _ = false
    rw [List.any_append, h, Bool.false_or]
    cases hrow : recorded.fact.row with
    | none => rfl
    | some row' =>
      refine List.any_eq_false.2 fun r hr hs => ?_
      rw [List.mem_singleton.1 hr] at hs
      have hk : row'.key = row.key := of_decide_eq_true hs
      refine hb (.record row.key) _ _ (hmem (mem_opened.2 (.inl ⟨row', hrow, rfl⟩))) ?_ hent ?_
      · simp [takes, hk]
      · simp [takes]
  · next fact row =>
    have hne : fact.bucket ≠ recorded.row.key := by
      intro hs
      rw [hkey] at hs
      refine hb (.bucket fact.bucket) _ _ (hmem (mem_opened.2 (.inr (.inl rfl)))) ?_ hent ?_
      · simp [takes, hs]
      · simp [takes]
    have hbuc : (s.commit recorded).bucket fact.bucket = s.bucket fact.bucket :=
      Table.find?_upsert_of_ne hne
    unfold MeteringTables.accumulateBucket at h ⊢
    rw [hbuc]
    exact h
  · next meter month own used =>
    cases hof : recorded.fact.of meter month with
    | false =>
      have hu : (s.commit recorded).monthUsage meter month own = s.monthUsage meter month own := by
        refine congrArg monthSum (monthTotal_write_write ?_)
        rw [hkey]
        exact hof
      rw [hu]
      exact h.imp_right fun hd => hd.mono (List.subset_append_left _ _)
    | true =>
      cases hl : recorded.limit with
      | none =>
        exact .inr ⟨_, List.mem_append_right _ (List.mem_singleton_self _), recorded, rfl, hof, .inl hl⟩
      | some limit =>
        obtain ⟨before, behind, hspl⟩ := List.append_of_mem hent
        obtain ⟨fact, limit', hm, -, hbef⟩ := ha.made _ _ _ hspl
        have hread : (⟨.findLimitForUpdate meter, .ok (some limit')⟩ : MeteringEntry) ∈ q.2.history := by
          rw [hspl, hbef]
          simp
        obtain ⟨hs, -⟩ := of_iff.1 hof
        refine (hb (.limit meter) _ _ (hmem (mem_opened.2 (.inr (.inr (.inl rfl))))) ?_ hread ?_).elim
        · simp [takes, hl, hs]
        · simp [takes]
  · trivial

end Processes

section Runs

variable [MeteringHost] {start s s' : MeteringTables} {live live' gone others : List MeteringProcess}
  {p p' : MeteringProcess}

theorem Kept.perm (h : Kept start s live gone) (hperm : live.Perm live') : Kept start s live' gone := by
  have ha : (live ++ gone).Perm (live' ++ gone) := hperm.append_right _
  refine ⟨fun p hp => h.abides p (ha.mem_iff.2 hp), fun p hp => h.leaves p (ha.mem_iff.2 hp), ?_, ?_,
    h.books.perm (entriesOf_perm ha)⟩
  · exact (hperm.pairwise_iff fun hpq => hpq.symm).1 h.apart
  · intro p hp hin entry he
    exact (h.still p (hperm.mem_iff.2 hp) hin entry he).mono (entriesOf_perm ha).subset rfl rfl

theorem Kept.enter (h : Kept start s live gone) {r : MeteringOperation}
    (he : meteringOperations.enter s r = some p) : Kept start s (p :: live) gone := by
  obtain ⟨hrec, hr⟩ := Machine.signed_enter he
  obtain ⟨r', process⟩ := p
  dsimp only at hr
  subst hr
  cases Option.some.inj hrec
  refine ⟨List.forall_mem_cons.2 ⟨abides_start along_program, h.abides⟩,
    List.forall_mem_cons.2 ⟨ends_program, h.leaves⟩, List.pairwise_cons.2 ⟨fun q _ row hrow => ?_, h.apart⟩,
    List.forall_mem_cons.2 ⟨by simp, h.still⟩, h.books⟩
  unfold holds at hrow
  simp at hrow

theorem Kept.stop (h : Kept start s (p :: live) gone) : Kept start s live (p :: gone) := by
  have ha : (p :: live ++ gone).Perm (live ++ p :: gone) := List.perm_middle.symm
  refine ⟨fun q hq => h.abides q (ha.mem_iff.2 hq), fun q hq => h.leaves q (ha.mem_iff.2 hq),
    (List.pairwise_cons.1 h.apart).2, fun q hq hin entry he => ?_, h.books.perm (entriesOf_perm ha)⟩
  exact (h.still q (List.mem_cons_of_mem _ hq) hin entry he).mono (entriesOf_perm ha).subset rfl rfl

/-- What a commit of a process says is so. -/
theorem Kept.sound {recorded : RecordedFact} {r : MeteringOperation}
    {history : List MeteringEntry} {next : Prog.Reply MeteringCall.Answer (.commit (some recorded)) → MeteringService Unit}
    (h : Kept start s ((r, ⟨history, .call (.commit (some recorded)) next⟩) :: live) gone) :
    history = opened recorded ∧ inTransaction (r, ⟨history, .call (.commit (some recorded)) next⟩) = true ∧
      Sound s (entriesOf (((r, ⟨history, .call (.commit (some recorded)) next⟩) :: live) ++ gone)) recorded := by
  have ho : history = opened recorded := (h.abides _ (List.mem_cons_self ..)).along.ok_call
  have hin : inTransaction (r, ⟨history, .call (.commit (some recorded)) next⟩) = true := by
    refine inTransaction_iff.2 ⟨rfl, fun entry he => ?_⟩
    rw [ho] at he
    exact ne_commit_of_opened he
  have hs := h.still _ (List.mem_cons_self ..) hin
  have hm : ∀ entry ∈ opened recorded, entry ∈ history := by
    rw [ho]
    exact fun _ => id
  refine ⟨ho, hin, ?_, fun row hr => ?_, fun limit hl => ?_⟩
  · exact hs _ (hm _ (mem_opened.2 (.inr (.inl rfl))))
  · exact hs _ (hm _ (mem_opened.2 (.inl ⟨row, hr, rfl⟩)))
  · exact hs _ (hm _ (mem_opened.2 (.inr (.inr (.inr ⟨limit, hl, rfl⟩)))))

/-- **A move keeps what is said.** -/
theorem Kept.move (h : Kept start s (p :: others) gone) (hcond : Unblocked s others p) {choice : MeteringChoice}
    (hn : meteringOperations.next s p choice = some (s', p')) : Kept start s' (p' :: others) gone := by
  obtain ⟨hrecorder, hr⟩ := Machine.signed_next hn
  obtain ⟨c, next, hrest, hs, hp'⟩ := recorder_next hrecorder
  obtain ⟨r, history, rest⟩ := p
  obtain ⟨r', process⟩ := p'
  dsimp only at hr hrest hs hp' hcond
  subst hr hrest hp'
  have heff : Effect s s' c (c.serve s choice).1 := by
    rw [hs]
    exact serve_effect
  generalize (c.serve s choice).1 = reply at heff
  clear hs hn hrecorder
  have hperm : (entriesOf (((r', ⟨history, .call c next⟩) : MeteringProcess) :: others ++ gone) ++
      [(⟨c, reply⟩ : MeteringEntry)]).Perm
      (entriesOf ((r', ⟨history ++ [(⟨c, reply⟩ : MeteringEntry)], next reply⟩) :: others ++ gone)) :=
    entriesOf_move
  obtain ⟨hapa, ho⟩ := List.pairwise_cons.1 h.apart
  have hsub : entriesOf (((r', ⟨history, .call c next⟩) : MeteringProcess) :: others ++ gone) ⊆
      entriesOf ((r', ⟨history ++ [(⟨c, reply⟩ : MeteringEntry)], next reply⟩) :: others ++ gone) :=
    fun entry he => hperm.subset (List.mem_append_left _ he)
  have hl : Ends r'.leaves history (.call c next) := h.leaves _ (List.mem_cons_self ..)
  -- A transaction goes on to be answered the same: its own statement is, and those of the others are.
  have hk : (∀ recorded, c ≠ .commit (some recorded)) → s'.records = s.records ∧ s'.buckets = s.buckets := by
    intro hne
    cases heff with
    | asked _ hsame _ => exact ⟨hsame.records, hsame.buckets⟩
    | committed => exact absurd rfl (hne _)
    | uncommitted => exact absurd rfl (hne _)
    | claimed hs =>
      rw [hs, claimThresholds_spec.1]
      exact ⟨rfl, rfl⟩
    | unclaimed hs =>
      rw [hs]
      exact ⟨rfl, rfl⟩
  refine ⟨?_, ?_, ?_, ?_, ?_⟩
  · refine List.forall_mem_cons.2 ⟨?_, fun q hq => h.abides q (List.mem_cons_of_mem _ hq)⟩
    exact (h.abides _ (List.mem_cons_self ..)).move rfl reply
  · exact List.forall_mem_cons.2 ⟨hl.next reply, fun q hq => h.leaves q (List.mem_cons_of_mem _ hq)⟩
  · refine List.pairwise_cons.2 ⟨fun q hq => ?_, ho⟩
    exact apart_of_move (hapa q hq) hq hcond
  · refine List.forall_mem_cons.2 ⟨fun hin entry he => ?_, fun q hq hin entry he => ?_⟩
    · obtain ⟨hbef, hne⟩ := inTransaction_of_move next hin
      obtain ⟨hrec, hb⟩ := hk fun recorded => hne _
      rcases List.mem_append.1 he with he | he
      · exact (h.still _ (List.mem_cons_self ..) hbef entry he).mono hsub hrec hb
      · rw [List.mem_singleton.1 he]
        have ha : answers s ⟨c, reply⟩ := by
          cases heff with
          | asked _ _ ha => exact ha
          | _ => trivial
        exact (still_of_answers ha).mono (List.Subset.refl _) hrec hb
    · have hsti := h.still q (List.mem_cons_of_mem _ hq) hin entry he
      by_cases hcom : ∃ recorded, c = .commit (some recorded)
      · obtain ⟨recorded, rfl⟩ := hcom
        obtain ⟨hope, hp, hsou⟩ := h.sound
        have hkey := (accumulateBucket_ok hsou.row).1
        have haft := still_commit hin (h.abides q (List.mem_cons_of_mem _ (List.mem_append_left _ hq))) he hsti
          hp hope (hapa q hq) hkey reply
        cases heff with
        | asked hasks => cases hasks
        | committed hs =>
          rw [hs]
          exact haft.mono hperm.subset rfl rfl
        | uncommitted hs =>
          rw [hs]
          exact hsti.mono hsub rfl rfl
      · obtain ⟨hrec, hb⟩ := hk fun recorded hc => hcom ⟨recorded, hc⟩
        exact hsti.mono hsub hrec hb
  · refine (h.books.step heff ?_).perm hperm
    rintro recorded rfl
    exact (h.sound).2.2

/-- What is said of the tables and the processes, over a run. -/
def keptJournal (start : MeteringTables) : Journal meteringOperations Unblocked where
  holds := Kept start
  perm hperm h := h.perm hperm
  start h henter := h.enter henter
  stop h := h.stop
  move h hcond hnext := h.move hcond hnext

omit [MeteringHost] in
/-- A threshold is not above the limit. -/
theorem point_le {threshold : MeterThreshold} {limit : ℕ} {setting : Option ℤ} :
    threshold.point limit setting ≤ limit := by
  cases threshold with
  | exhausted => exact le_rfl
  | warning =>
    show thresholdPoint limit (percent setting) ≤ limit
    have hp : percent setting ≤ 99 := by
      unfold percent
      omega
    have hm := Nat.mul_le_mul_left limit hp
    unfold thresholdPoint
    omega

omit [MeteringHost] in
/-- A source reference of a fact that was counted is counted once. -/
theorem Accounted.once (h : Accounted s) {k : RecordKey} (hk : k ∈ s.facts.filterMap (·.ref)) :
    s.facts.countP (fun f => f.ref = some k) = 1 := by
  rw [← List.count_eq_one_of_mem h.refs hk, List.count_filterMap]
  refine List.countP_congr fun f _ => ?_
  simp

/-- A call of `record` that returned has its fact counted. -/
theorem Kept.counted (h : Kept start s live gone) (hp : p ∈ live ++ gone) {input : MeterRecordInput} {now : ℤ}
    (hr : p.1 = .record input now) (hd : p.2.rest = .pure ()) :
    ∃ meter fact, prepare input now = .ok (meter, fact) ∧
      (∀ k, fact.ref = some k → s.facts.countP (fun f => f.ref = some k) = 1) ∧
      (fact.ref = none → ∃ entry ∈ p.2.history, commits fact entry ∧ answered entry) := by
  have hl := h.leaves p hp
  rw [hd, hr] at hl
  have hpost : Leaves input now p.2.history := hl.of_pure
  cases hpost with
  | @counted meter recorded hpre hc ho hn =>
    have hcom : commits recorded.fact ⟨.commit (some recorded), .ok ()⟩ = true := by
      simp [commits]
    refine ⟨meter, recorded.fact, hpre, fun k hk => h.books.accounted.once ?_, fun _ => ?_⟩
    · have hpos : 0 < (entriesOf (live ++ gone)).countP fun entry => commits recorded.fact entry && answered entry := by
        refine List.countP_pos_iff.2 ⟨_, mem_entriesOf.2 ⟨p, hp, hc⟩, ?_⟩
        rw [hcom]
        rfl
      have hcou := (h.books.committed recorded.fact).1
      have hm : recorded.fact ∈ s.facts := List.count_pos_iff.1 (by omega)
      exact List.mem_filterMap.2 ⟨recorded.fact, hm, hk⟩
    · exact ⟨_, hc, hcom, rfl⟩
  | @repeated meter fact row hpre hrow hcla hnone =>
    have href := row_key hrow
    refine ⟨meter, fact, hpre, fun k hk => h.books.accounted.once ?_, fun hno => ?_⟩
    · rw [href] at hk
      rw [← Option.some.inj hk, ← h.books.accounted.records]
      exact h.books.repeats row (mem_entriesOf.2 ⟨p, hp, hcla⟩)
    · rw [href] at hno
      cases hno

/-- A threshold that was reached is claimed, where no call of the month was disturbed. -/
theorem Kept.notice (h : Kept start s live gone) {k : NoticeKey} {limit : ℕ} {setting : Option ℤ}
    (hs : ∃ p ∈ live ++ gone, countsIn k.meter k.month p)
    (hc : ∀ p ∈ live ++ gone, countsIn k.meter k.month p → Undisturbed limit setting p)
    (hrea : k.threshold.point limit setting ≤ s.total k.meter k.month) : k ∈ s.notices := by
  rcases h.books.last k.meter k.month with hnone | hd | ⟨recorded, limit', hcom, hof, hl, hu⟩
  · obtain ⟨p, hp, hcou⟩ := hs
    obtain ⟨entry, he, hin⟩ := List.any_eq_true.1 hcou
    rw [hnone entry (mem_entriesOf.2 ⟨p, hp, he⟩)] at hin
    cases hin
  · obtain ⟨entry, he, recorded, hcall, hof, hw⟩ := hd
    obtain ⟨p, hp, hmem⟩ := mem_entriesOf.1 he
    have hin : commitsIn k.meter k.month entry = true := by
      unfold commitsIn
      rw [hcall]
      exact hof
    have hc' := hc p hp (List.any_eq_true.2 ⟨entry, hmem, hin⟩)
    have ha := hc'.answered entry hmem
    obtain ⟨c, reply⟩ := entry
    dsimp only at hcall
    subst hcall
    cases reply with
    | error e => cases ha
    | ok a =>
      have hf := hc'.limit recorded hmem
      rcases hw with hw | hw
      · rw [hw] at hf
        cases hf
      · cases hw
  · obtain ⟨p, hp, hmem⟩ := mem_entriesOf.1 hcom
    have hc' := hc p hp (List.any_eq_true.2 ⟨_, hmem, hof⟩)
    have hlea := h.leaves p hp
    rw [hc'.done] at hlea
    have hpost := hlea.of_pure
    cases ho : p.1 with
    | setLimit =>
      rw [ho] at hpost
      exact absurd rfl (hpost _ hmem recorded)
    | record input now =>
      rw [ho] at hpost
      have hpost : Leaves input now p.2.history := hpost
      cases hpost with
      | repeated _ _ _ hnone => exact absurd rfl (hnone _ hmem recorded)
      | counted _ _ honly hnot =>
        rw [← honly _ hmem recorded rfl] at hnot
        obtain ⟨setting', hr, hclaims⟩ := hnot limit (hc'.limit recorded hmem) hc'.answered
        rw [hc'.setting setting' hr] at hclaims
        -- What was read of the limit bounds it, so that the sum that was read reaches the threshold too.
        have hb : limit ≤ METER_LIMITS.monthlyLimit := by
          obtain ⟨before, behind, hspl⟩ := List.append_of_mem hmem
          have hope : before = opened recorded := (h.abides p hp).made _ _ _ hspl
          refine h.books.limits recorded.fact.meter limit (mem_entriesOf.2 ⟨p, hp, ?_⟩)
          rw [hspl, hope, ← hc'.limit recorded hmem]
          exact List.mem_append_left _ (mem_opened.2 (.inr (.inr (.inl rfl))))
        have hmax : METER_LIMITS.monthlyLimit ≤ MAX_SAFE_INTEGER := by decide
        have hpoi : k.threshold.point limit setting ≤ limit := point_le
        have hu' : k.threshold.point limit setting ≤ recorded.used := by
          rw [hu]
          unfold monthSum
          omega
        have hin : k.threshold ∈ reached recorded.used limit setting := by
          unfold reached
          rw [List.mem_filter]
          refine ⟨?_, by simpa using hu'⟩
          cases k.threshold <;> simp
        rcases hclaims with hnil | ⟨claimed, hcla⟩
        · rw [hnil] at hin
          cases hin
        · have hn := h.books.claimed _ _ _ _ (mem_entriesOf.2 ⟨p, hp, hcla⟩) k.threshold hin
          obtain ⟨hm, hmon⟩ := of_iff.1 hof
          rw [hm, hmon] at hn
          exact hn

/-- A claim of the month that was not answered disturbs it. -/
theorem Kept.answeredClaim (h : Kept start s live gone) {k : NoticeKey} {limit : ℕ} {setting : Option ℤ}
    (hcalm : ∀ p ∈ live ++ gone, countsIn k.meter k.month p → Undisturbed limit setting p) {entry : MeteringEntry}
    (he : entry ∈ entriesOf (live ++ gone)) : losesClaim k.meter k.month entry = false := by
  by_contra hl
  rw [Bool.not_eq_false] at hl
  obtain ⟨p, hp, hmem⟩ := mem_entriesOf.1 he
  unfold losesClaim at hl
  split at hl
  · next meter month thresholds e =>
    rw [Bool.and_eq_true, decide_eq_true_eq, decide_eq_true_eq] at hl
    obtain ⟨hm, hmon⟩ := hl
    obtain ⟨before, behind, hs⟩ := List.append_of_mem hmem
    obtain ⟨commit, hc, hin⟩ := (h.abides p hp).made _ _ _ hs
    rw [hm, hmon] at hin
    have hcou : countsIn k.meter k.month p = true := by
      refine List.any_eq_true.2 ⟨commit, ?_, hin⟩
      rw [hs]
      exact List.mem_append_left _ hc
    have ha := (hcalm p hp hcou).answered _ hmem
    cases ha
  · cases hl

/-- **What is said of the tables and the operations** follows. -/
theorem Kept.settled (h : Kept start s live gone) : MeteringSettled start s (live ++ gone) := by
  have hm : ∀ k, told (live ++ gone) k + start.notices.count k ≤ 1 := by
    intro k
    have ht := h.books.toldOf k
    have ho := List.nodup_iff_count_le_one.1 h.books.accounted.notices k
    unfold told
    omega
  refine ⟨h.books.accounted, h.books.committed, fun p hp input now hrec hd => h.counted hp hrec hd, hm,
    fun k limit setting hs hc hr => ?_⟩
  have hle := hm k
  rcases h.books.new k (h.notice hs hc hr) with hsta | ⟨entry, he, htel⟩ | ⟨entry, he, hl⟩
  · have hpos := List.count_pos_iff.2 hsta
    omega
  · have hpos : 0 < told (live ++ gone) k := List.countP_pos_iff.2 ⟨entry, he, htel⟩
    omega
  · rw [h.answeredClaim hc he] at hl
    cases hl

end Runs

/-! ### Results -/

/-- **Metering accounts for what was recorded**: over any run of the operations, from tables that are
accounted for. -/
theorem metering_accounts [MeteringHost] {start : MeteringTables} (hstart : Accounted start)
    {crew : Crew (MeteringTables × List MeteringProcess) MeteringProcess}
    (h : Crew.Reachable meteringOperations.ledger Unblocked.ledger (start, []) crew) :
    MeteringSettled start crew.shared.1 crew.everyone := by
  have he : Kept start start [] [] := by
    refine ⟨by simp, by simp, .nil, by simp, books_start hstart⟩
  exact ((keptJournal start).reachable he h).settled

/-! ### A sample run -/

/-- `Undisturbed`, evaluated. -/
def undisturbed (limit : ℕ) (setting : Option ℤ) (p : MeteringProcess) : Bool :=
  (match p.2.rest with | .pure _ => true | _ => false) && p.2.history.all fun entry => answered entry &&
    match entry with
    | ⟨.commit (some recorded), _⟩ => recorded.limit = some limit
    | ⟨.warningPercent, .ok reading⟩ => reading = setting
    | _ => true

theorem undisturbed_spec {limit : ℕ} {setting : Option ℤ} {p : MeteringProcess}
    (h : undisturbed limit setting p = true) : Undisturbed limit setting p := by
  rw [undisturbed, Bool.and_eq_true, List.all_eq_true] at h
  obtain ⟨hd, he⟩ := h
  refine ⟨?_, fun entry hent => ?_, fun recorded hc => ?_, fun reading hr => ?_⟩
  · split at hd
    · next heq => exact heq
    · cases hd
  · have hent' := he entry hent
    rw [Bool.and_eq_true] at hent'
    exact hent'.1
  · exact of_decide_eq_true (he _ hc)
  · exact of_decide_eq_true (he _ hr)

/-- One meter is declared. -/
@[reducible] def sampleHost : MeteringHost where
  resolve key := if key = "ai.tokens" then some ⟨"ai.tokens", "Tokens", "tokens"⟩ else none
  hasOwners := true

/-- A fact of 60 tokens. -/
def sampleFact (sourceRef : String) (at' : ℕ) : MeteringOperation :=
  .record ⟨"t", "ai.tokens", .ofNat 60, some sourceRef, some (.ofNat at')⟩ 0

/-- A limit is set; two facts of one month are recorded at once, on different days, and one of them again. -/
def sampleTurns : List (Crew.Turn MeteringOperation MeteringChoice) :=
  [.start (.setLimit "t" "ai.tokens" (.ofNat 100) "ops" 0), .move 0 {}, .move 0 {},
    .start (sampleFact "a" 0), .start (sampleFact "b" 86400000),
    .move 1 {}, .move 0 {}, .move 1 {}, .move 0 {}, .move 1 {}, .move 1 {}, .move 1 {},
    .move 0 {}, .move 0 {}, .move 0 {}, .move 1 {}] ++
    List.replicate 8 (.move 0 { owners := ["ada"] }) ++
    [.start (sampleFact "a" 0), .move 0 {}, .move 0 {}]

/-- The warning of the month of the sample. -/
def sampleNotice : NoticeKey :=
  ⟨⟨"t", "ai.tokens"⟩, ⟨1970, 1⟩, .warning⟩

/-- The amounts of the buckets, and what is needed to tell that the warning is claimed. -/
def sampleOutcome (crew : Crew (MeteringTables × List MeteringProcess) MeteringProcess) : List ℕ × Bool × Bool × ℕ :=
  let counting := countsIn sampleNotice.meter sampleNotice.month
  (crew.shared.1.buckets.map (·.amount), crew.everyone.any counting,
    crew.everyone.all fun p => !counting p || undisturbed 100 (some 80) p,
    crew.shared.1.total sampleNotice.meter sampleNotice.month)

instance : ∀ s ps p, Decidable (Unblocked.ledger s ps p) :=
  fun _ others p => inferInstanceAs (Decidable (unblocked others p = true))

/-- Two facts that come to the threshold together: one call claims the warning. -/
theorem metering_claims_warning : ∃ crew,
    Crew.Reachable (@meteringOperations sampleHost).ledger Unblocked.ledger (({} : MeteringTables), []) crew ∧
    crew.shared.1.buckets.map (·.amount) = [60, 60] ∧
    @MeteringSettled sampleHost {} crew.shared.1 crew.everyone ∧ told crew.everyone sampleNotice = 1 := by
  have hplay : (Crew.play (@meteringOperations sampleHost).ledger Unblocked.ledger
      ⟨(({} : MeteringTables), []), []⟩ sampleTurns).map sampleOutcome =
        some ([60, 60], true, true, 120) := by decide +kernel
  obtain ⟨crew, hc, ho⟩ := Option.map_eq_some_iff.1 hplay
  obtain ⟨hb, hs, hcalm, ht⟩ : _ ∧ _ ∧ _ ∧ _ := by
    simpa only [sampleOutcome, Prod.mk.injEq] using ho
  have hr : Crew.Reachable (@meteringOperations sampleHost).ledger Unblocked.ledger
      (({} : MeteringTables), []) crew := Crew.reachable_of_play hc
  have hsta : Accounted {} := ⟨.nil, by simp, by simp, .nil, by simp, .nil⟩
  have hset := @metering_accounts sampleHost _ hsta crew hr
  refine ⟨crew, hr, hb, hset, ?_⟩
  let host : MeteringHost := sampleHost
  refine hset.one sampleNotice 100 (some 80) (by simpa using hs) (fun p hp hcou => ?_) ?_
  · have hp' := List.all_eq_true.1 hcalm p hp
    rw [hcou] at hp'
    exact undisturbed_spec hp'
  · rw [ht]
    decide

end Flowdular.Metering
