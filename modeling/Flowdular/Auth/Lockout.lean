/-
# What a lockout counts

The failures of an address are counted right where each is written over the count its transaction
read, at a time that is not before the one of that count (`Unraced`).  The attempts are then a crew
that keeps three things (`lockoutOutline`): the rows are what the marks say (`Tallied`), what each
attempt has read or dropped is still so (`AttemptKnows`), and no two transactions drop one row.

`recordSignInFailure` reads the count and writes it in one transaction "so two attempts cannot both
count the same failure", but at read committed nothing keeps another failure from being recorded in
between: then five failures may leave a count of one (`sign_in_failures_lost`).
-/

import Flowdular.Auth.SignInFailures

namespace Flowdular.Auth

open Lib

/-- A count is written over what was read, and is no older than it. -/
def Unraced : Machine.Condition FailureTable Attempt := fun s _ p =>
  match p with
  | .read email _ now dropped previous =>
    findSignInFailure (undropped s.rows dropped) email = previous ∧
      ∀ row ∈ s.rows, row.emailNormalized = email → row.updatedAt ≤ now
  | _ => True

instance (s : FailureTable) (others : List Attempt) : (p : Attempt) → Decidable (Unraced s others p)
  | .read _ _ _ _ _ => inferInstanceAs (Decidable (_ ∧ _))
  | .asked _ _ _ => isTrue trivial
  | .checking _ _ _ => isTrue trivial
  | .failed _ _ => isTrue trivial
  | .recording _ _ _ => isTrue trivial
  | .pruned _ _ _ _ => isTrue trivial
  | .recorded _ _ _ => isTrue trivial
  | .clearing _ => isTrue trivial
  | .cleared _ => isTrue trivial
  | .refused _ => isTrue trivial

/-- Until when the table locks an address. -/
def lockedUntilOf (rows : List SignInFailureRow) (email : String) : Option ℤ :=
  (findSignInFailure rows email).bind (·.lockedUntil)

/-- A success or a retention gap took the failures of an address away. -/
def Reset (marks : List Mark) (email : String) : Prop :=
  .cleared email ∈ marks ∨ ∃ emails, .dropped emails ∈ marks ∧ email ∈ emails

/-- **A lockout that counts every failure.**  The count of an address is that of its failures since
the last success, lock or retention gap; whatever fills up the threshold locks the address for
`LOCK_MS`, unless a success clears it; an attempt that began while the address was locked checks no
password, unless its failures were taken away since; and no step but a success unlocks it. -/
structure LockoutExact [AuthText] (cond : Machine.Condition FailureTable Attempt)
    (crew : Crew FailureTable Attempt) : Prop where
  counted : ∀ email, ((findSignInFailure crew.shared.rows email).map (·.failures)).getD 0 =
    failuresSince crew.shared.marks email % lockThreshold
  locked : ∀ email, lockedUntilOf crew.shared.rows email = lockOf crew.shared.marks email
  locks : ∀ recent email now earlier, crew.shared.marks = recent ++ .failed email now :: earlier →
    lockThreshold ∣ failuresSince (.failed email now :: earlier) email →
    .cleared email ∉ recent → crew.shared.clock < now + lockMs →
    ∃ lockedUntil, lockedUntilOf crew.shared.rows email = some lockedUntil ∧
      now + lockMs ≤ lockedUntil
  refused : ∀ input now begun, .checking input now begun ∈ crew.processes →
    ∀ lockedUntil, lockOf begun input.email = some lockedUntil → now < lockedUntil →
      ∃ recent, crew.shared.marks = recent ++ begun ∧ Reset recent input.email
  keeps : ∀ crew', Crew.Step signInAttempts cond crew crew' → ∀ email lockedUntil,
    lockedUntilOf crew.shared.rows email = some lockedUntil → crew'.shared.clock < lockedUntil →
    crew'.shared.marks = .cleared email :: crew.shared.marks ∨
      ∃ later, lockedUntilOf crew'.shared.rows email = some later ∧ lockedUntil ≤ later

/-! ### The table -/

section Rows

variable {rows : List SignInFailureRow} {row : SignInFailureRow} {email e : String}
  {dropped : List String}

theorem failureRow_undropped : failureRow (undropped rows dropped) email =
      if email ∈ dropped then none else failureRow rows email := by
  have h := @Table.find?_filter_key _ _ rows _ (·.emailNormalized) (fun e => decide (e ∉ dropped)) email
  by_cases hm : email ∈ dropped
  · rw [if_pos hm]
    rw [if_neg (by simpa using hm)] at h
    exact h
  · rw [if_neg hm]
    rw [if_pos (decide_eq_true hm)] at h
    exact h

theorem failureRow_cleared : failureRow (rows.filter fun row => row.emailNormalized ≠ email) e =
      if e = email then none else failureRow rows e := by
  have h := @Table.find?_filter_key _ _ rows _ (·.emailNormalized) (fun e => decide (e ≠ email)) e
  by_cases he : e = email
  · rw [if_pos he]
    rw [if_neg (by simpa using he)] at h
    exact h
  · rw [if_neg he]
    rw [if_pos (decide_eq_true he)] at h
    exact h

theorem failureRow_upsert : failureRow (Table.upsert (·.emailNormalized) row rows) e =
      if e = row.emailNormalized then some row else failureRow rows e := by
  split_ifs with he
  · rw [he]
    exact Table.find?_upsert_self
  · exact Table.find?_upsert_of_ne he

theorem mem_of_failureRow (h : failureRow rows email = some row) :
    row ∈ rows ∧ row.emailNormalized = email :=
  ⟨List.mem_of_find?_eq_some h, of_decide_eq_true
    (List.find?_some (p := fun row : SignInFailureRow => decide (row.emailNormalized = email)) h)⟩

/-- A lock of the table is one of a row. -/
theorem row_of_lockedUntilOf {lockedUntil : ℤ} (h : lockedUntilOf rows email = some lockedUntil) :
    ∃ row ∈ rows, row.emailNormalized = email ∧ row.lockedUntil = some lockedUntil := by
  obtain ⟨record, hr, hl⟩ := Option.bind_eq_some_iff.1 h
  obtain ⟨row, hrow, rfl⟩ := Option.map_eq_some_iff.1 hr
  have hm := mem_of_failureRow hrow
  exact ⟨row, hm.1, hm.2, hl⟩

end Rows

/-! ### The steps -/

/-- What a move of an attempt does to the table: nothing but time and held rows, the record of a
failure, or a success. -/
inductive AttemptEffect (s s' : FailureTable) : Attempt → Attempt → Prop
  | look (input : SignInInput) (now : ℤ) (begun : List Mark) (hs : s' = s)
      (h : lockedAt (findSignInFailure s.rows input.email) now = false) :
      AttemptEffect s s' (.asked input now begun) (.checking input now begun)
  | quiet (p p' : Attempt) (hs : s' = s) (hdrops : p'.drops = p.drops) (hplace : match p' with
        | .recording _ _ now => now ≤ s.clock
        | .read email account now dropped _ => p = .pruned email account now dropped
        | .asked .. => False
        | .checking .. => False
        | .pruned .. => False
        | _ => True) :
      AttemptEffect s s' p p'
  | drop (email : String) (account : Option AccountCredential) (now : ℤ)
      (hfree : ∀ e ∈ staleFailures s.rows (now - failureRetentionMs), e ∉ s.held)
      (hs : s' = { s with held := staleFailures s.rows (now - failureRetentionMs) ++ s.held }) :
      AttemptEffect s s' (.recording email account now)
        (.pruned email account now (staleFailures s.rows (now - failureRetentionMs)))
  | write (email : String) (account : Option AccountCredential) (now : ℤ) (dropped : List String)
      (previous : Option SignInFailureRecord) (hfree : email ∈ s.held → email ∈ dropped)
      (hs : s' = { s with
        rows := Table.upsert (·.emailNormalized)
          (countedRow email (countFailure previous now) now) (undropped s.rows dropped)
        held := s.held.filter (· ∉ dropped)
        marks := .failed email now :: .dropped dropped :: s.marks }) :
      AttemptEffect s s' (.read email account now dropped previous)
        (.recorded email account (countFailure previous now))
  | clear (email : String) (hfree : email ∉ s.held) (hs : s' = { s with
        rows := s.rows.filter fun row => row.emailNormalized ≠ email
        marks := .cleared email :: s.marks }) :
      AttemptEffect s s' (.clearing email) (.cleared email)

variable {s s' : FailureTable}

theorem attemptNext_effect {p p' : Attempt} {c : AttemptChoice}
    (h : attemptNext s p c = some (s', p')) : AttemptEffect s s' p p' := by
  cases p with
  | asked input now begun =>
    rw [attemptNext, Option.some.injEq, Prod.mk.injEq] at h
    obtain ⟨hs, hp⟩ := h
    by_cases hl : lockedAt (findSignInFailure s.rows input.email) now = true
    · rw [if_pos hl] at hp
      rw [← hp]
      exact .quiet _ _ hs.symm rfl trivial
    · rw [if_neg hl] at hp
      rw [← hp]
      exact .look input now begun hs.symm (Bool.eq_false_iff.2 hl)
  | checking input now begun =>
    rw [attemptNext, Option.some.injEq, Prod.mk.injEq] at h
    obtain ⟨hs, hp⟩ := h
    split at hp
    · rw [← hp]
      exact .quiet _ _ hs.symm rfl trivial
    · rw [← hp]
      exact .quiet _ _ hs.symm rfl trivial
  | failed email account =>
    rw [attemptNext, Option.some.injEq, Prod.mk.injEq] at h
    obtain ⟨hs, hp⟩ := h
    rw [← hp]
    exact .quiet _ _ hs.symm rfl le_rfl
  | recording email account now =>
    rw [attemptNext, dropStale] at h
    split at h
    · cases h
    · next ha =>
      rw [Option.some.injEq, Prod.mk.injEq] at h
      rw [← h.2]
      exact .drop email account now (by simpa using ha) h.1.symm
  | pruned email account now dropped =>
    rw [attemptNext, Option.some.injEq, Prod.mk.injEq] at h
    obtain ⟨hs, hp⟩ := h
    rw [← hp]
    exact .quiet _ _ hs.symm rfl rfl
  | read email account now dropped previous =>
    rw [attemptNext, writeFailure] at h
    split at h
    · cases h
    · next hh =>
      rw [Option.some.injEq, Prod.mk.injEq] at h
      rw [← h.2]
      exact .write email account now dropped previous (by simpa using hh) h.1.symm
  | clearing email =>
    rw [attemptNext, clearFailures] at h
    split at h
    · cases h
    · next hh =>
      rw [Option.some.injEq, Prod.mk.injEq] at h
      rw [← h.2]
      exact .clear email hh h.1.symm
  | recorded email account record => cases h
  | cleared email => cases h
  | refused email => cases h

/-! ### The counts -/

/-- The rows say what the marks say. -/
def Counts (rows : List SignInFailureRow) (marks : List Mark) : Prop :=
  ∀ email, ((findSignInFailure rows email).map (·.failures)).getD 0 =
      failuresSince marks email % lockThreshold ∧
    lockedUntilOf rows email = lockOf marks email

section Counting

variable {rows : List SignInFailureRow} {marks : List Mark} {dropped : List String}
  {email e : String} {now : ℤ}

theorem Counts.drop (h : Counts rows marks) :
    Counts (undropped rows dropped) (.dropped dropped :: marks) := by
  intro e
  rw [lockedUntilOf, findSignInFailure, failureRow_undropped, failuresSince, lockOf]
  split_ifs with he
  · exact ⟨rfl, rfl⟩
  · exact h e

theorem Counts.fail (h : Counts rows marks) : Counts (Table.upsert (·.emailNormalized)
      (countedRow email (countFailure (findSignInFailure rows email) now) now) rows)
      (.failed email now :: marks) := by
  intro e
  rw [lockedUntilOf, findSignInFailure, failureRow_upsert, failuresSince, lockOf]
  by_cases he : e = email
  · have hk : e =
        (countedRow email (countFailure (findSignInFailure rows email) now) now).emailNormalized := he
    rw [if_pos hk, if_pos he.symm, ← he]
    obtain ⟨hc, hl⟩ := h e
    have hlt : failuresSince marks e % lockThreshold < lockThreshold := Nat.mod_lt _ (by decide)
    have hm : (failuresSince marks e + 1) % lockThreshold =
        (failuresSince marks e % lockThreshold + 1) % lockThreshold := (Nat.mod_add_mod _ _ _).symm
    by_cases hf : lockThreshold ≤ failuresSince marks e % lockThreshold + 1
    · have heq : failuresSince marks e % lockThreshold + 1 = lockThreshold := by omega
      have hd : lockThreshold ∣ failuresSince marks e + 1 := by
        rw [Nat.dvd_iff_mod_eq_zero, hm, heq, Nat.mod_self]
      have hz := Nat.dvd_iff_mod_eq_zero.1 hd
      simp [countedRow, countFailure, SignInFailureRow.record, hc, hf, hd, hz]
    · have hm' : (failuresSince marks e + 1) % lockThreshold =
          failuresSince marks e % lockThreshold + 1 := by
        rw [hm, Nat.mod_eq_of_lt (by omega)]
      have hd : ¬lockThreshold ∣ failuresSince marks e + 1 := by
        rw [Nat.dvd_iff_mod_eq_zero, hm']
        omega
      simp [countedRow, countFailure, SignInFailureRow.record, hc, hf, hd, hm', ← hl, lockedUntilOf]
  · have hk : e ≠
        (countedRow email (countFailure (findSignInFailure rows email) now) now).emailNormalized := he
    have hne : ¬email = e := fun h => he h.symm
    rw [if_neg hk, if_neg hne, if_neg (fun h => hne h.1)]
    exact h e

theorem Counts.clear (h : Counts rows marks) :
    Counts (rows.filter fun row => row.emailNormalized ≠ email) (.cleared email :: marks) := by
  intro e
  rw [lockedUntilOf, findSignInFailure, failureRow_cleared, failuresSince, lockOf]
  by_cases he : e = email
  · rw [if_pos he, if_pos he.symm, if_pos he.symm]
    exact ⟨rfl, rfl⟩
  · have hne : ¬email = e := fun h => he h.symm
    rw [if_neg he, if_neg hne, if_neg hne]
    exact h e

end Counting

/-- No lock lasts longer than `LOCK_MS` behind the last failure. -/
def Bounded (rows : List SignInFailureRow) : Prop :=
  ∀ row ∈ rows, ∀ lockedUntil, row.lockedUntil = some lockedUntil →
    lockedUntil ≤ row.updatedAt + lockMs

/-- A lock of the marks is that of a row, and bounded by its time. -/
theorem Counts.bounded {rows : List SignInFailureRow} {marks : List Mark} {email : String}
    {lockedUntil : ℤ} (h : Counts rows marks) (hb : Bounded rows)
    (hl : lockOf marks email = some lockedUntil) :
    ∃ row ∈ rows, row.emailNormalized = email ∧ lockedUntil ≤ row.updatedAt + lockMs := by
  rw [← (h email).2] at hl
  obtain ⟨row, hr, he, hloc⟩ := row_of_lockedUntilOf hl
  exact ⟨row, hr, he, hb row hr lockedUntil hloc⟩

/-! ### The invariants -/

/-- What is kept of the table. -/
structure Tallied (s : FailureTable) : Prop where
  nodup : (s.rows.map (·.emailNormalized)).Nodup
  counts : Counts s.rows s.marks
  bounded : Bounded s.rows
  locks : ∀ recent email now earlier, s.marks = recent ++ .failed email now :: earlier →
    lockThreshold ∣ failuresSince (.failed email now :: earlier) email →
    .cleared email ∉ recent → s.clock < now + lockMs →
    ∃ lockedUntil, lockOf s.marks email = some lockedUntil ∧ now + lockMs ≤ lockedUntil

/-- What a transaction knows of the rows it dropped. -/
structure Dropping (s : FailureTable) (now : ℤ) (dropped : List String) : Prop where
  past : now ≤ s.clock
  held : ∀ e ∈ dropped, e ∈ s.held
  stale : ∀ row ∈ s.rows, row.emailNormalized ∈ dropped → row.updatedAt < now - failureRetentionMs

/-- What an attempt knows of the table. -/
def AttemptKnows (s : FailureTable) : Attempt → Prop
  | .asked input now begun => now ≤ s.clock ∧ ∃ recent, s.marks = recent ++ begun ∧
      ∀ lockedUntil, lockOf begun input.email = some lockedUntil → Reset recent input.email ∨
          ∃ later, lockOf s.marks input.email = some later ∧ lockedUntil ≤ later
  | .checking input now begun => ∃ recent, s.marks = recent ++ begun ∧
      ∀ lockedUntil, lockOf begun input.email = some lockedUntil → now < lockedUntil →
        Reset recent input.email
  | .recording _ _ now => now ≤ s.clock
  | .pruned _ _ now dropped => Dropping s now dropped
  | .read _ _ now dropped _ => Dropping s now dropped
  | _ => True

/-- A table behind another: time goes on, marks are added, and a lock is taken away by a success, or
by the retention when it is over, or else it does not become shorter. -/
structure Onward (s s' : FailureTable) : Prop where
  clock : s.clock ≤ s'.clock
  marks : ∃ recent, s'.marks = recent ++ s.marks ∧
    ∀ email lockedUntil, lockOf s.marks email = some lockedUntil →
      recent = [.cleared email] ∨ (Reset recent email ∧ lockedUntil ≤ s'.clock) ∨
        ∃ later, lockOf s'.marks email = some later ∧ lockedUntil ≤ later

/-- Where the marks are the same, only time went on. -/
theorem onward_of_marks (hc : s.clock ≤ s'.clock) (hm : s'.marks = s.marks) : Onward s s' := by
  refine ⟨hc, [], hm, fun email lockedUntil hl => .inr (.inr ⟨lockedUntil, ?_, le_rfl⟩)⟩
  rw [hm]
  exact hl

section Steps

variable {s s' : FailureTable} {p p' q : Attempt} {others : List Attempt}

variable {email : String} {marks recent : List Mark} {dropped : List String} {now : ℤ}
  {previous : Option SignInFailureRecord}

theorem reset_append (h : Reset marks email) : Reset (recent ++ marks) email := by
  rcases h with h | ⟨emails, h, hm⟩
  · exact .inl (List.mem_append_right _ h)
  · exact .inr ⟨emails, List.mem_append_right _ h, hm⟩

theorem reset_append_left (h : Reset recent email) : Reset (recent ++ marks) email := by
  rcases h with h | ⟨emails, h, hm⟩
  · exact .inl (List.mem_append_left _ h)
  · exact .inr ⟨emails, List.mem_append_left _ h, hm⟩

/-- The record of a failure goes on from the table it was counted on. -/
theorem onward_write {account : Option AccountCredential} (hs : Tallied s)
    (hp : Dropping s now dropped) (hc : Unraced s others (.read email account now dropped previous))
    (hclo : s'.clock = s.clock) (hm : s'.marks = .failed email now :: .dropped dropped :: s.marks) :
    Onward s s' := by
  refine ⟨hclo.ge, [.failed email now, .dropped dropped], hm, fun e lockedUntil hl => ?_⟩
  obtain ⟨row, hrow, he, hle⟩ := hs.counts.bounded hs.bounded hl
  by_cases hmem : e ∈ dropped
  · have hsta := hp.stale row hrow (he.symm ▸ hmem)
    have hpast := hp.past
    have hr : lockMs ≤ failureRetentionMs := by decide
    refine .inr (.inl ⟨.inr ⟨dropped, by simp, hmem⟩, ?_⟩)
    omega
  · rw [hm, lockOf, lockOf, if_neg hmem]
    split_ifs with hf
    · have hn : row.updatedAt ≤ now := hc.2 row hrow (he.trans hf.1.symm)
      exact .inr (.inr ⟨now + lockMs, rfl, by omega⟩)
    · exact .inr (.inr ⟨lockedUntil, hl, le_rfl⟩)

/-- **A step goes on from the table before it.** -/
theorem AttemptEffect.onward (h : AttemptEffect s s' p p') (hs : Tallied s) (hp : AttemptKnows s p)
    (hc : Unraced s others p) : Onward s s' := by
  cases h with
  | look input now begun heq => exact onward_of_marks (by rw [heq]) (by rw [heq])
  | quiet _ _ heq => exact onward_of_marks (by rw [heq]) (by rw [heq])
  | drop email account now hf heq => exact onward_of_marks (by rw [heq]) (by rw [heq])
  | write email account now dropped previous hf heq =>
    exact onward_write hs hp hc (by rw [heq]) (by rw [heq])
  | clear email hf heq =>
    refine ⟨by rw [heq], [.cleared email], by rw [heq]; rfl, fun e lockedUntil hl => ?_⟩
    by_cases he : email = e
    · exact .inl (by rw [he])
    · refine .inr (.inr ⟨lockedUntil, ?_, le_rfl⟩)
      rw [heq, lockOf, if_neg he]
      exact hl

/-- A lock of `LOCK_MS` goes on with the table. -/
theorem Onward.locks (h : Onward s s') (hs : Tallied s)
    {earlier : List Mark} (hm : s.marks = recent ++ .failed email now :: earlier)
    (hf : lockThreshold ∣ failuresSince (.failed email now :: earlier) email)
    (hcle : .cleared email ∉ recent) (hcle' : s'.marks ≠ .cleared email :: s.marks)
    (hlate : s'.clock < now + lockMs) :
    ∃ lockedUntil, lockOf s'.marks email = some lockedUntil ∧ now + lockMs ≤ lockedUntil := by
  have hclo := h.clock
  obtain ⟨lockedUntil, hlock, hle⟩ := hs.locks recent email now earlier hm hf hcle (by omega)
  obtain ⟨added, ha, hg⟩ := h.marks
  rcases hg email lockedUntil hlock with hc | ⟨-, ho⟩ | ⟨later, hl, hle'⟩
  · exact absurd (by rw [ha, hc]; rfl) hcle'
  · omega
  · exact ⟨later, hl, by omega⟩

/-! ### What a step keeps of the table -/

/-- The invariant of the table does not see what is held. -/
theorem Tallied.of_same (h : Tallied s) (hr : s'.rows = s.rows) (hm : s'.marks = s.marks)
    (hclo : s.clock ≤ s'.clock) : Tallied s' where
  nodup := by rw [hr]; exact h.nodup
  counts := by rw [hr, hm]; exact h.counts
  bounded := by rw [hr]; exact h.bounded
  locks recent email now earlier heq hf hc hl := by
    rw [hm] at heq ⊢
    exact h.locks recent email now earlier heq hf hc (by omega)

theorem bounded_write {rows : List SignInFailureRow} (h : Bounded rows)
    (ht : ∀ row ∈ rows, row.emailNormalized = email → row.updatedAt ≤ now) :
    Bounded (Table.upsert (·.emailNormalized)
      (countedRow email (countFailure (findSignInFailure rows email) now) now) rows) := by
  intro row hr lockedUntil hl
  rcases Table.mem_upsert.1 hr with rfl | ⟨hold, -⟩
  · change (countFailure (findSignInFailure rows email) now).lockedUntil = some lockedUntil at hl
    change lockedUntil ≤ now + lockMs
    rw [countFailure] at hl
    split at hl
    · exact (Option.some.inj hl).ge
    · obtain ⟨before, hb, he, hs⟩ := row_of_lockedUntilOf hl
      have hle := h before hb lockedUntil hs
      have hn := ht before hb he
      omega
  · exact h row hold lockedUntil hl

theorem mem_undropped {rows : List SignInFailureRow} {row : SignInFailureRow}
    (h : row ∈ undropped rows dropped) : row ∈ rows ∧ row.emailNormalized ∉ dropped := by
  rw [undropped, List.mem_filter, decide_eq_true_eq] at h
  exact h

/-- The record of a failure keeps the table. -/
theorem tallied_write {account : Option AccountCredential} (hs : Tallied s)
    (hp : Dropping s now dropped) (hc : Unraced s others (.read email account now dropped previous)) :
    Tallied { s with
      rows := Table.upsert (·.emailNormalized)
        (countedRow email (countFailure previous now) now) (undropped s.rows dropped)
      held := s.held.filter (· ∉ dropped)
      marks := .failed email now :: .dropped dropped :: s.marks } where
  nodup := Table.keys_upsert (hs.nodup.sublist (List.filter_sublist.map _))
  counts := by
    rw [← hc.1]
    exact hs.counts.drop.fail
  bounded := by
    rw [← hc.1]
    refine bounded_write (fun row hrow => hs.bounded row (mem_undropped hrow).1) ?_
    exact fun row hrow => hc.2 row (mem_undropped hrow).1
  locks recent e time earlier heq hf hcle hl := by
    have ho : Onward s { s with
      rows := Table.upsert (·.emailNormalized)
        (countedRow email (countFailure previous now) now) (undropped s.rows dropped)
      held := s.held.filter (· ∉ dropped)
      marks := .failed email now :: .dropped dropped :: s.marks } :=
      onward_write hs hp hc rfl rfl
    rcases recent with _ | ⟨mark, _ | ⟨mark', recent⟩⟩
    · obtain ⟨hm, rfl⟩ := List.cons.inj heq
      cases hm
      refine ⟨now + lockMs, ?_, le_rfl⟩
      rw [failuresSince, if_pos rfl] at hf
      rw [lockOf, if_pos ⟨rfl, hf⟩]
    · have hm := (List.cons.inj (List.cons.inj heq).2).1
      cases hm
    · have hr := (List.cons.inj (List.cons.inj heq).2).2
      refine ho.locks hs hr hf (fun h => hcle (by simp [h])) ?_ hl
      intro h
      cases (List.cons.inj h).1

/-- A success keeps the table. -/
theorem tallied_clear (hs : Tallied s) (ho : Onward s { s with
      rows := s.rows.filter fun row => row.emailNormalized ≠ email
      marks := .cleared email :: s.marks }) :
    Tallied { s with
      rows := s.rows.filter fun row => row.emailNormalized ≠ email
      marks := .cleared email :: s.marks } where
  nodup := hs.nodup.sublist (List.filter_sublist.map _)
  counts := hs.counts.clear
  bounded row hrow := hs.bounded row (List.mem_filter.1 hrow).1
  locks recent e now earlier heq hf hc hl := by
    rcases recent with _ | ⟨mark, recent⟩
    · have hm := (List.cons.inj heq).1
      cases hm
    · obtain ⟨hm, hr⟩ := List.cons.inj heq
      refine ho.locks hs hr hf (fun h => hc (by simp [h])) ?_ hl
      intro h
      have hsame := (List.cons.inj h).1
      rw [hm] at hsame
      exact hc (by simp [hsame])

/-- **A step keeps the table.** -/
theorem AttemptEffect.tallied (h : AttemptEffect s s' p p') (hs : Tallied s) (hp : AttemptKnows s p)
    (hc : Unraced s others p) : Tallied s' := by
  have ho := h.onward hs hp hc
  cases h with
  | look input now begun heq => rw [heq]; exact hs
  | quiet _ _ heq => rw [heq]; exact hs
  | drop email account now hf heq =>
    rw [heq]
    exact hs.of_same rfl rfl le_rfl
  | write email account now dropped previous hf heq =>
    rw [heq]
    exact tallied_write hs hp hc
  | clear email hf heq =>
    rw [heq] at ho ⊢
    exact tallied_clear hs ho

/-! ### What the attempts know behind a step -/

theorem AttemptKnows.drops_held (h : AttemptKnows s q) : ∀ e ∈ q.drops, e ∈ s.held := by
  cases q with
  | pruned email account now dropped => exact Dropping.held h
  | read email account now dropped previous => exact Dropping.held h
  | _ => exact fun e he => absurd he List.not_mem_nil

/-- What another transaction dropped is still so behind a step. -/
theorem AttemptEffect.dropping (h : AttemptEffect s s' p p')
    (hc : s.clock ≤ s'.clock) (hq : Dropping s now dropped)
    (ha : List.Disjoint p.drops dropped) : Dropping s' now dropped := by
  have hp := hq.past
  refine ⟨by omega, fun e he => ?_, fun row hr hm => ?_⟩
  · have hh := hq.held e he
    cases h with
    | look input now begun heq => rw [heq]; exact hh
    | quiet _ _ heq => rw [heq]; exact hh
    | drop email account now hf heq =>
      rw [heq]
      exact List.mem_append_right _ hh
    | write email account now dropped' previous hf heq =>
      rw [heq]
      exact List.mem_filter.2 ⟨hh, decide_eq_true fun hm => ha hm he⟩
    | clear email hf heq => rw [heq]; exact hh
  · have hold : row ∈ s.rows := by
      cases h with
      | look input now begun heq => rwa [heq] at hr
      | quiet _ _ heq => rwa [heq] at hr
      | drop email account now hf heq => rwa [heq] at hr
      | write email account now dropped' previous hf heq =>
        rw [heq] at hr
        rcases Table.mem_upsert.1 hr with rfl | ⟨hold, -⟩
        · exact absurd hm (ha (hf (hq.held _ hm)))
        · exact (mem_undropped hold).1
      | clear email hf heq =>
        rw [heq] at hr
        exact (List.mem_filter.1 hr).1
    exact hq.stale row hold hm

/-- What an attempt knows of what was locked when it began goes on with the table. -/
theorem Onward.asked (h : Onward s s') {input : SignInInput} {begun : List Mark}
    (hq : AttemptKnows s (.asked input now begun)) : AttemptKnows s' (.asked input now begun) := by
  obtain ⟨hn, recent, hrec, hloc⟩ := hq
  obtain ⟨added, ha, hg⟩ := h.marks
  refine ⟨hn.trans h.clock, added ++ recent, ?_, fun lockedUntil hlock => ?_⟩
  · rw [ha, hrec, List.append_assoc]
  · rcases hloc lockedUntil hlock with hr | ⟨later, hlat, hle⟩
    · exact .inl (reset_append hr)
    · rcases hg input.email later hlat with hc | ⟨hr, -⟩ | ⟨latest, hl, hle'⟩
      · exact .inl (.inl (by simp [hc]))
      · exact .inl (reset_append_left hr)
      · exact .inr ⟨latest, hl, hle.trans hle'⟩

/-- **What others know** is still so behind a step. -/
theorem AttemptEffect.known (h : AttemptEffect s s' p p') (ho : Onward s s')
    (hq : AttemptKnows s q) (ha : List.Disjoint p.drops q.drops) : AttemptKnows s' q := by
  cases q with
  | asked input now begun => exact ho.asked hq
  | checking input now begun =>
    obtain ⟨recent, hr, hl⟩ := hq
    obtain ⟨added, hadd, -⟩ := ho.marks
    refine ⟨added ++ recent, ?_, fun lockedUntil hlock hlt => reset_append (hl lockedUntil hlock hlt)⟩
    rw [hadd, hr, List.append_assoc]
  | recording email account now => exact le_trans (show now ≤ s.clock from hq) ho.clock
  | pruned email account now dropped => exact h.dropping ho.clock hq ha
  | read email account now dropped previous => exact h.dropping ho.clock hq ha
  | failed email account => trivial
  | recorded email account record => trivial
  | clearing email => trivial
  | cleared email => trivial
  | refused email => trivial

/-- Rows that are stale are the only ones of their addresses. -/
theorem stale_of_mem {before : ℤ} (hs : Tallied s) {row : SignInFailureRow} (hr : row ∈ s.rows)
    (hm : row.emailNormalized ∈ staleFailures s.rows before) : row.updatedAt < before := by
  rw [staleFailures, List.mem_map] at hm
  obtain ⟨old, hold, hk⟩ := hm
  obtain ⟨hold, hlt⟩ := List.mem_filter.1 hold
  rw [← List.inj_on_of_nodup_map hs.nodup hold hr hk]
  exact of_decide_eq_true hlt

/-- **What the attempt that moves knows.** -/
theorem AttemptEffect.own (h : AttemptEffect s s' p p') (hs : Tallied s) (hp : AttemptKnows s p) :
    AttemptKnows s' p' := by
  cases h with
  | look input now begun heq hf =>
    obtain ⟨-, recent, hr, hloc⟩ := hp
    rw [heq]
    refine ⟨recent, hr, fun lockedUntil hlock hlt => ?_⟩
    rcases hloc lockedUntil hlock with hres | ⟨later, hl, hle⟩
    · exact hres
    · rw [← (hs.counts input.email).2, lockedUntilOf] at hl
      rw [lockedAt, hl, decide_eq_false_iff_not] at hf
      omega
  | quiet _ _ heq hd hpla =>
    rw [heq]
    cases p' with
    | recording email account now => exact hpla
    | read email account now dropped previous =>
      rw [show p = .pruned email account now dropped from hpla] at hp
      exact hp
    | asked input now begun => exact hpla.elim
    | checking input now begun => exact hpla.elim
    | pruned email account now dropped => exact hpla.elim
    | failed email account => trivial
    | recorded email account record => trivial
    | clearing email => trivial
    | cleared email => trivial
    | refused email => trivial
  | drop email account now hf heq =>
    rw [heq]
    exact ⟨hp, fun e he => List.mem_append_left _ he, fun row hrow hm => stale_of_mem hs hrow hm⟩
  | write email account now dropped previous hf heq => trivial
  | clear email hf heq => trivial

/-- No two transactions drop one row. -/
theorem AttemptEffect.apart (h : AttemptEffect s s' p p') (hq : AttemptKnows s q)
    (ha : List.Disjoint p.drops q.drops) : List.Disjoint p'.drops q.drops := by
  cases h with
  | look input now begun heq => exact List.disjoint_nil_left _
  | quiet _ _ heq hd =>
    rw [hd]
    exact ha
  | drop email account now hf heq => exact fun e he hm => hf e he (hq.drops_held e hm)
  | write email account now dropped previous hf heq => exact List.disjoint_nil_left _
  | clear email hf heq => exact List.disjoint_nil_left _

/-- Time that passes changes nothing that is known. -/
theorem AttemptKnows.later (h : AttemptKnows s q) (elapsed : ℕ) :
    AttemptKnows (s.later elapsed) q := by
  have hc : s.clock ≤ (s.later elapsed).clock := by
    change s.clock ≤ s.clock + elapsed
    omega
  have ho : Onward s (s.later elapsed) := onward_of_marks hc rfl
  cases q with
  | asked input now begun => exact ho.asked h
  | checking input now begun => exact h
  | recording email account now => exact le_trans (show now ≤ s.clock from h) hc
  | pruned email account now dropped => exact ⟨h.past.trans hc, h.held, h.stale⟩
  | read email account now dropped previous => exact ⟨h.past.trans hc, h.held, h.stale⟩
  | _ => trivial

theorem Tallied.later (h : Tallied s) (elapsed : ℕ) : Tallied (s.later elapsed) := by
  refine h.of_same rfl rfl ?_
  change s.clock ≤ s.clock + elapsed
  omega

/-- A transaction that is undone gives back what it held. -/
theorem AttemptKnows.stop (h : AttemptKnows s q) (ha : List.Disjoint p.drops q.drops) :
    AttemptKnows { s with held := s.held.filter (· ∉ p.drops) } q := by
  have hh : ∀ {now : ℤ} {dropped : List String}, Dropping s now dropped →
      List.Disjoint p.drops dropped →
      Dropping { s with held := s.held.filter (· ∉ p.drops) } now dropped := by
    intro now dropped hd hdis
    refine ⟨hd.past, fun e he => ?_, hd.stale⟩
    exact List.mem_filter.2 ⟨hd.held e he, decide_eq_true fun hm => hdis hm he⟩
  cases q with
  | asked input now begun => exact h
  | checking input now begun => exact h
  | recording email account now => exact h
  | pruned email account now dropped => exact hh h ha
  | read email account now dropped previous => exact hh h ha
  | _ => trivial

end Steps

/-! ### The crew -/

section

variable [AuthText] {crew crew' : Crew FailureTable Attempt}

theorem knows_begun {s : FailureTable} {raw : SignInInput} {p : Attempt}
    (h : signInAttempts.enter s raw = some p) : AttemptKnows s p ∧ p.drops = [] := by
  simp only [signInAttempts] at h
  split at h
  · rw [← Option.some.inj h]
    exact ⟨⟨le_rfl, [], rfl, fun lockedUntil hl => .inr ⟨lockedUntil, hl, le_rfl⟩⟩, rfl⟩
  · cases h

/-- **The outline of the attempts.** -/
def lockoutOutline : Outline signInAttempts Unraced where
  inv := Tallied
  knows := AttemptKnows
  apart p q := List.Disjoint p.drops q.drops
  apart_symm h := h.symm
  start _ henter := by
    obtain ⟨hknows, hdrops⟩ := knows_begun henter
    refine ⟨hknows, fun q _ => ?_⟩
    rw [hdrops]
    exact List.disjoint_nil_left _
  stop hinv _ := hinv.of_same rfl rfl le_rfl
  stop_other _ _ hq hapart := hq.stop hapart
  move {s others p c s' p'} hinv hp _ hcond hnext := by
    have heffect := attemptNext_effect hnext
    have hcond' : Unraced (s.later c.elapsed) others p := hcond
    have hlater := hinv.later c.elapsed
    exact ⟨heffect.tallied hlater (hp.later c.elapsed) hcond',
      heffect.own hlater (hp.later c.elapsed)⟩
  move_other {s others p c s' p' q} hinv hp hothers hcond hnext hq := by
    have heffect := attemptNext_effect hnext
    have hcond' : Unraced (s.later c.elapsed) others p := hcond
    have honward := heffect.onward (hinv.later c.elapsed) (hp.later c.elapsed) hcond'
    obtain ⟨hknows, hapart⟩ := hothers q hq
    have hlater := hknows.later c.elapsed
    exact ⟨heffect.known honward hlater hapart, heffect.apart hlater hapart⟩

/-- A step of the crew goes on from the table before it. -/
theorem onward_of_step (hh : lockoutOutline.Holds crew)
    (hs : Crew.Step signInAttempts Unraced crew crew') : Onward crew.shared crew'.shared := by
  cases hs with
  | start _ => exact onward_of_marks le_rfl rfl
  | stop => exact onward_of_marks le_rfl rfl
  | @move s s' before behind p p' c hn hc =>
    have hi : Tallied s := hh.inv
    have hp : AttemptKnows s p := (Outline.Holds.others hh).1
    have hc' : Unraced (s.later c.elapsed) (before ++ behind) p := hc
    have ho := (attemptNext_effect hn).onward (hi.later c.elapsed) (hp.later c.elapsed) hc'
    have hclo : s.clock ≤ s.clock + c.elapsed := by omega
    exact ⟨hclo.trans ho.clock, ho.marks⟩

/-- **A lockout counts every failure**, where each is written over the count that was read, at a time
that is not before the one of that count. -/
theorem lockout_exact {clock : ℤ}
    (h : Crew.Reachable signInAttempts Unraced { clock } crew) : LockoutExact Unraced crew := by
  have hsta : Tallied { clock } := by
    refine ⟨List.nodup_nil, fun email => ⟨rfl, rfl⟩, fun row hrow => absurd hrow List.not_mem_nil, ?_⟩
    intro recent email now earlier heq
    exact absurd heq.symm (by simp)
  have hh := lockoutOutline.reachable hsta h
  have hi : Tallied crew.shared := hh.inv
  refine ⟨fun email => (hi.counts email).1, fun email => (hi.counts email).2, ?_, ?_, ?_⟩
  · intro recent email now earlier heq hf hc hlate
    rw [(hi.counts email).2]
    exact hi.locks recent email now earlier heq hf hc hlate
  · intro input now begun hm lockedUntil hl hlt
    obtain ⟨recent, hr, hloc⟩ := hh.knows _ hm
    exact ⟨recent, hr, hloc lockedUntil hl hlt⟩
  · intro crew' hs email lockedUntil hl hlate
    have hi' : Tallied crew'.shared := (hh.step hs).inv
    rw [(hi.counts email).2] at hl
    rw [(hi'.counts email).2]
    obtain ⟨recent, hr, hg⟩ := (onward_of_step hh hs).marks
    rcases hg email lockedUntil hl with hcle | ⟨-, ho⟩ | hlat
    · exact .inl (by rw [hr, hcle]; rfl)
    · omega
    · exact .inr hlat

end

/-! ### Runs -/

/-- An attempt with a wrong address, up to the read of its count. -/
def readTurns : List (Crew.Turn SignInInput AttemptChoice) :=
  [.start { email := "ada@example.org", password := "guess" }, .move 0 {}, .move 0 {}, .move 0 {},
    .move 0 {}, .move 0 {}]

/-- Five attempts that read the count before any of them writes it. -/
def racedTurns : List (Crew.Turn SignInInput AttemptChoice) :=
  readTurns ++ readTurns ++ readTurns ++ readTurns ++ readTurns ++
    [.move 0 {}, .move 1 {}, .move 2 {}, .move 3 {}, .move 4 {}]

/-- What becomes of an address: the failures the marks hold, the count that is stored, and the
lock. -/
def sampleCount (crew : Crew FailureTable Attempt) : ℕ × Option SignInFailureRecord :=
  (failuresSince crew.shared.marks "ada@example.org",
    findSignInFailure crew.shared.rows "ada@example.org")

/-- Five attempts one behind the other lock the address for a quarter of an hour. -/
theorem lockout_exact_five : ∃ crew,
    @Crew.Reachable _ _ _ _ (@signInAttempts plainText) Unraced { clock := 7 } crew ∧
      sampleCount crew = (5, some ⟨0, some 900007⟩) ∧ @LockoutExact plainText Unraced crew := by
  have hp : (@Crew.play _ _ _ _ (@signInAttempts plainText) Unraced _ ⟨{ clock := 7 }, []⟩
      (List.replicate 5 (readTurns ++ [.move 0 {}])).flatten).map sampleCount =
        some (5, some ⟨0, some 900007⟩) := by decide +kernel
  obtain ⟨crew, hc, hcou⟩ := Option.map_eq_some_iff.1 hp
  have hr := Crew.reachable_of_play hc
  exact ⟨crew, hr, hcou, @lockout_exact plainText crew 7 hr⟩

/-- Five attempts at once leave a count of one, and no lock. -/
theorem sign_in_failures_lost : ∃ crew,
    @Crew.Reachable _ _ _ _ (@signInAttempts plainText) (fun _ _ _ => True) {} crew ∧
      sampleCount crew = (5, some ⟨1, none⟩) ∧ ¬ @LockoutExact plainText (fun _ _ _ => True) crew := by
  have hp : (@Crew.play _ _ _ _ (@signInAttempts plainText) (fun _ _ _ => True) _ ⟨{}, []⟩
      racedTurns).map sampleCount = some (5, some ⟨1, none⟩) := by decide +kernel
  obtain ⟨crew, hcrew, hc⟩ := Option.map_eq_some_iff.1 hp
  refine ⟨crew, Crew.reachable_of_play hcrew, hc, fun he => ?_⟩
  obtain ⟨hs, hsto⟩ := Prod.mk.inj hc
  have hcou := @LockoutExact.counted plainText _ _ he "ada@example.org"
  rw [hs, hsto] at hcou
  exact absurd hcou (by decide)

end Flowdular.Auth
