/-
# The follower of time zone changes

`src/modules/automations/src/services/time-zone-follower.ts`, and the settings log it reads:
`settingsChangesAfter` of `src/modules/auth/src/services/database-repository.ts`, lines 2965-3024.

The log may be any at any read, as long as the newest change of every setting stays, which is what its
store promises; a page may be of any size.  A pass waits in its reads and in its applications of a
change, and the log changes between them.
-/

import Flowdular.Lib.Events
import Flowdular.Lib.Table

namespace Flowdular.Automations

open Lib

/-! ### The settings log -/

structure ModuleSettingLogEntry where
  revision : ℕ
  tenantId : String
  moduleId : String
  key : String
  cleared : Bool
  changedAt : ℤ
deriving DecidableEq

/-- The settings log: its rows, in the order of their revisions. -/
structure SettingsLog where
  rows : List ModuleSettingLogEntry
  positive : ∀ row ∈ rows, 0 < row.revision
  sorted : rows.Pairwise fun row row' => row.revision < row'.revision

/-- A cursor: the revision read last, and the time of the read. -/
structure SettingsCursor where
  revision : ℕ
  readAt : ℤ
deriving DecidableEq

/-- `SETTINGS_CURSOR_LIFETIME_MS`: a day less than the log is retained. -/
def SETTINGS_CURSOR_LIFETIME_MS : ℤ :=
  30 * 24 * 60 * 60 * 1000 - 24 * 60 * 60 * 1000

structure ModuleSettingChangesRequest where
  after : Option SettingsCursor
  limit : ℕ
  moduleId : Option String := none
  key : Option String := none

inductive ModuleSettingChangesPage
  | expired
  | page (changes : List ModuleSettingLogEntry) (cursor : SettingsCursor) (more : Bool)

/-- The revision a read starts behind. -/
def position (after : Option SettingsCursor) : ℕ :=
  (after.map (·.revision)).getD 0

/-- `settingsChangesAfter`, at a time. -/
def settingsChangesAfter (log : SettingsLog) (readAt : ℤ) (request : ModuleSettingChangesRequest) :
    ModuleSettingChangesPage :=
  let rows := (log.rows.filter fun row => position request.after < row.revision &&
    request.moduleId.all (fun moduleId => row.moduleId = moduleId) &&
    request.key.all fun key => row.key = key).take (request.limit + 1)
  if request.after.any fun cursor => SETTINGS_CURSOR_LIFETIME_MS < readAt - cursor.readAt then .expired
  else
    let changes := rows.take request.limit
    .page changes ⟨((changes.getLast?).map (·.revision)).getD (position request.after), readAt⟩
      (request.limit < rows.length)

/-- The newest change of every setting stays. -/
def SettingsLog.Keeps (log log' : SettingsLog) : Prop :=
  ∀ row ∈ log.rows, ∃ row' ∈ log'.rows, row'.tenantId = row.tenantId ∧ row'.moduleId = row.moduleId ∧
    row'.key = row.key ∧ row.revision ≤ row'.revision

instance (log log' : SettingsLog) : Decidable (log.Keeps log') :=
  inferInstanceAs (Decidable (∀ row ∈ log.rows, ∃ row' ∈ log'.rows, _))

/-! ### The follower -/

def TENANT_TIME_ZONE_MODULE_ID : String := "system.core"

def TENANT_TIME_ZONE_KEY : String := "timeZone"

def TIME_ZONE_RETRY_LIMIT : ℕ := 1000

abbrev TimeZoneHold :=
  String → Bool

def HOLD_ALL : TimeZoneHold :=
  fun _ => true

/-- Where a pass waits: in a read (behind a cursor that expired, in the read from the start), in the
application of a change of a page, or of one it tries again. -/
inductive FollowerPlace
  | idle
  | reading (again : Bool)
  | applying (change : ModuleSettingLogEntry) (left : List ModuleSettingLogEntry) (cursor : SettingsCursor)
      (more : Bool)
  | retrying (change : ModuleSettingLogEntry) (left : List ModuleSettingLogEntry)
deriving DecidableEq

/-- The follower, the log it reads, the hold of its last pass, and what has happened: the changes it read,
those it applied, those that were due when its last pass began, those this pass offered, and whether it
read the log to its end. -/
structure FollowerState where
  log : SettingsLog
  cursor : Option SettingsCursor := none
  owed : List ModuleSettingLogEntry := []
  retry : List ModuleSettingLogEntry := []
  failed : List String := []
  place : FollowerPlace := .idle
  hold : TimeZoneHold := fun _ => false
  seen : List ModuleSettingLogEntry := []
  applied : List ModuleSettingLogEntry := []
  due : List ModuleSettingLogEntry := []
  offered : List ModuleSettingLogEntry := []
  complete : Bool := false

/-- A change is one of the workspace, and no older. -/
def ModuleSettingLogEntry.covers (change earlier : ModuleSettingLogEntry) : Bool :=
  change.tenantId = earlier.tenantId && earlier.revision ≤ change.revision

/-- `Map.set`, by workspace. -/
def setChange (changes : List ModuleSettingLogEntry) (change : ModuleSettingLogEntry) : List ModuleSettingLogEntry :=
  Table.upsert (·.tenantId) change changes

/-- The newest change of every workspace of a page. -/
def newestOf (changes : List ModuleSettingLogEntry) : List ModuleSettingLogEntry :=
  changes.foldl setChange []

namespace FollowerState

variable (s : FollowerState)

/-- No change as new as this one was applied. -/
def pending (change : ModuleSettingLogEntry) : Bool :=
  !s.applied.any fun applied => applied.covers change

/-- `pass` begins. -/
def begin : FollowerState :=
  { s with
    retry := s.owed, owed := [], failed := [], place := .reading false
    due := s.seen.filter s.pending, offered := [], complete := false }

/-- A pass ends. -/
def finish : FollowerState :=
  let failed := s.failed
  if TIME_ZONE_RETRY_LIMIT < s.owed.length then
    { s with owed := [], cursor := none, place := .idle, hold := fun tenantId => failed.contains tenantId,
             retry := [], complete := true }
  else { s with place := .idle, hold := fun tenantId => failed.contains tenantId, retry := [], complete := true }

/-- A pass is caught, and every slot waits. -/
def caught : FollowerState :=
  { s with owed := s.retry.foldl setChange s.owed, place := .idle, hold := HOLD_ALL, retry := [], complete := false }

/-- The next change that is tried again. -/
def retryNext : List ModuleSettingLogEntry → FollowerState
  | [] => s.finish
  | change :: left => { s with place := .retrying change left }

/-- The next change of a page. -/
def applyNext (cursor : SettingsCursor) (more : Bool) : List ModuleSettingLogEntry → FollowerState
  | [] =>
    if more then { s with cursor := some cursor, place := .reading false }
    else { s with cursor := some cursor }.retryNext s.retry
  | change :: left => { s with place := .applying change left cursor more }

/-- A page is read. -/
def page (changes : List ModuleSettingLogEntry) (cursor : SettingsCursor) (more : Bool) : FollowerState :=
  { s with seen := s.seen ++ changes }.applyNext cursor more (newestOf changes)

/-- `apply` of a change. -/
def apply (change : ModuleSettingLogEntry) (succeeds : Bool) : FollowerState :=
  if succeeds then { s with offered := s.offered ++ [change], applied := s.applied ++ [change] }
  else
    { s with
      offered := s.offered ++ [change], failed := s.failed ++ [change.tenantId]
      owed := setChange s.owed change }

/-- The change of a page is applied, or the one that is owed if it is newer. -/
def newer (change : ModuleSettingLogEntry) : ModuleSettingLogEntry :=
  match s.retry.find? fun earlier => earlier.tenantId = change.tenantId with
  | none => change
  | some earlier => if change.revision < earlier.revision then earlier else change

/-- The workspace is not tried again in this pass. -/
def settle (tenantId : String) : FollowerState :=
  { s with retry := s.retry.filter fun change => change.tenantId ≠ tenantId }

/-- What the follower asks of the log. -/
def request (after : Option SettingsCursor) (limit : ℕ) : ModuleSettingChangesRequest where
  after
  limit
  moduleId := some TENANT_TIME_ZONE_MODULE_ID
  key := some TENANT_TIME_ZONE_KEY

end FollowerState

/-- What happens: a pass begins, the log changes, a read is answered or fails, an application ends. -/
inductive FollowerEvent
  | pass
  | log (log : SettingsLog)
  | read (readAt : ℤ) (limit : ℕ)
  | readFails
  | apply (succeeds : Bool)

/-- A step of the follower or its log. -/
def FollowerState.step (s : FollowerState) : FollowerEvent → Option FollowerState
  | .pass =>
    match s.place with
    | .idle => some s.begin
    | _ => none
  | .log log => if s.log.Keeps log then some { s with log } else none
  | .read readAt limit =>
    match s.place with
    | .reading again =>
      if limit = 0 then none
      else
        match settingsChangesAfter s.log readAt (FollowerState.request s.cursor limit) with
        | .page changes cursor more => some (s.page changes cursor more)
        | .expired =>
          -- a read from the start that expires is an error
          if again then some s.caught else some { s with cursor := none, place := .reading true }
    | _ => none
  | .readFails =>
    match s.place with
    | .reading _ => some s.caught
    | _ => none
  | .apply succeeds =>
    match s.place with
    | .applying change left cursor more =>
      some (((s.settle change.tenantId).apply (s.newer change) succeeds).applyNext cursor more left)
    | .retrying change left => some ((s.apply change succeeds).retryNext left)
    | _ => none

/-- The follower at its start. -/
def FollowerState.start (log : SettingsLog) : FollowerState where
  log

/-! ### What is said of the follower -/

/-- What is said behind a pass: a workspace with a change that was read and not applied is held, and if the
pass read the log to its end, what was due when it began was offered, or a newer change. -/
structure Follows (s : FollowerState) : Prop where
  held : ∀ change ∈ s.seen, s.pending change = true → s.hold change.tenantId = true
  offered : s.complete = true → ∀ change ∈ s.due, ∃ offered ∈ s.offered, offered.covers change = true

/-! ### The invariant -/

/-- A change of the zone of a workspace lies behind a revision in the log, and is no older. -/
def Ahead (s : FollowerState) (horizon : ℕ) (change : ModuleSettingLogEntry) : Prop :=
  ∃ row ∈ s.log.rows, row.moduleId = TENANT_TIME_ZONE_MODULE_ID ∧ row.key = TENANT_TIME_ZONE_KEY ∧
    row.covers change = true ∧ horizon < row.revision

/-- One of the changes is one of the workspace, and no older. -/
def Among (changes : List ModuleSettingLogEntry) (change : ModuleSettingLogEntry) : Prop :=
  ∃ other ∈ changes, other.covers change = true

/-- What holds of every change that was read: the log keeps it or a newer one, and it was applied, is owed
or lies ahead. -/
structure Kept (s : FollowerState) (waiting : List ModuleSettingLogEntry) (horizon : ℕ) : Prop where
  kept : ∀ change ∈ s.seen, Ahead s 0 change
  keys : (s.owed.map (·.tenantId)).Nodup
  owes : ∀ change ∈ s.seen, Among s.applied change ∨ Among (s.owed ++ waiting) change ∨ Ahead s horizon change

/-- What holds within a pass that still tries some changes again, applies some of a page, and may read on:
what was due was offered, or will be. -/
structure Running (s : FollowerState) (retry left : List ModuleSettingLogEntry) (horizon : ℕ) (more : Bool) :
    Prop where
  kept : Kept s (retry ++ left) horizon
  retryKeys : (retry.map (·.tenantId)).Nodup
  apart : ∀ owed ∈ s.owed, ∀ change ∈ retry, owed.tenantId ≠ change.tenantId
  offers : ∀ change ∈ s.seen, (Among s.applied change ∧ change ∉ s.due) ∨ Among s.offered change ∨
    Among (retry ++ left) change ∨ (more = true ∧ Ahead s horizon change)
  tried : ∀ change ∈ s.offered, change ∈ s.applied ∨ change.tenantId ∈ s.failed
  due : s.due ⊆ s.seen

/-- The changes of a page are of different workspaces, and the newest that were read of theirs, or newer
ones lie ahead. -/
structure Fresh (s : FollowerState) (left : List ModuleSettingLogEntry) (horizon : ℕ) : Prop where
  keys : (left.map (·.tenantId)).Nodup
  newest : ∀ change ∈ left, ∀ earlier ∈ s.seen, earlier.tenantId = change.tenantId →
    change.covers earlier = true ∨ Ahead s horizon earlier

/-- What holds of the follower, by the place it waits at. -/
def FollowerInv (s : FollowerState) : Prop :=
  match s.place with
  | .idle => Kept s [] (position s.cursor) ∧ Follows s
  | .reading _ => Running s s.retry [] (position s.cursor) true
  | .applying change left cursor more =>
    Running s s.retry (change :: left) cursor.revision more ∧ Fresh s (change :: left) cursor.revision
  | .retrying change left => Running s (change :: left) [] (position s.cursor) false

section Kept

variable {s : FollowerState} {change earlier : ModuleSettingLogEntry} {changes retry left : List ModuleSettingLogEntry}
  {horizon : ℕ} {cursor : SettingsCursor} {more : Bool}

theorem covers_iff : change.covers earlier = true ↔
    change.tenantId = earlier.tenantId ∧ earlier.revision ≤ change.revision := by
  unfold ModuleSettingLogEntry.covers
  rw [Bool.and_eq_true, decide_eq_true_iff, decide_eq_true_iff]

theorem covers_trans {middle : ModuleSettingLogEntry} (h : change.covers middle = true)
    (h' : middle.covers earlier = true) : change.covers earlier = true := by
  obtain ⟨ht, hle⟩ := covers_iff.1 h
  obtain ⟨ht', hle'⟩ := covers_iff.1 h'
  exact covers_iff.2 ⟨ht.trans ht', hle'.trans hle⟩

theorem Among.mono {changes' : List ModuleSettingLogEntry} (h : Among changes change) (hs : changes ⊆ changes') :
    Among changes' change := by
  obtain ⟨other, ho, hc⟩ := h
  exact ⟨other, hs ho, hc⟩

theorem pending_iff : s.pending change = true ↔ ¬ Among s.applied change := by
  unfold FollowerState.pending Among
  rw [Bool.not_eq_true', ← Bool.not_eq_true, List.any_eq_true]

/-- **A pass that read the log to its end** leaves what it should. -/
theorem inv_finish (h : Running s [] [] (position s.cursor) false) : FollowerInv s.finish := by
  have ho : ∀ change ∈ s.seen, (Among s.applied change ∧ change ∉ s.due) ∨ Among s.offered change := by
    intro change hs
    rcases h.offers change hs with hd | ho | hw | hahe
    · exact .inl hd
    · exact .inr ho
    · obtain ⟨other, hoth, -⟩ := hw
      cases hoth
    · cases hahe.1
  have hf : ∀ s' : FollowerState, s'.seen = s.seen → s'.applied = s.applied → s'.due = s.due →
      s'.offered = s.offered → (s'.hold = fun tenantId => s.failed.contains tenantId) → Follows s' := by
    intro s' hs ha hdue hoff hh
    refine ⟨fun change hc hp => ?_, fun _ change hc => ?_⟩
    · rw [pending_iff, ha] at hp
      rw [hs] at hc
      rcases ho change hc with hd | ⟨other, hoth, hcov⟩
      · exact absurd hd.1 hp
      · rcases h.tried other hoth with happ | hfai
        · exact absurd ⟨other, happ, hcov⟩ hp
        · rw [hh, ← (covers_iff.1 hcov).1]
          exact List.contains_iff_mem.2 hfai
    · rw [hdue] at hc
      rw [hoff]
      rcases ho change (h.due hc) with hd | ho
      · exact absurd hc hd.2
      · exact ho
  unfold FollowerState.finish
  dsimp only
  split_ifs with hl
  · refine ⟨⟨h.kept.kept, List.nodup_nil, fun change hs => .inr (.inr (h.kept.kept change hs))⟩, ?_⟩
    exact hf _ rfl rfl rfl rfl rfl
  · refine ⟨⟨h.kept.kept, h.kept.keys, fun change hs => ?_⟩, hf _ rfl rfl rfl rfl rfl⟩
    exact h.kept.owes change hs

/-- What holds within a pass does not depend on the place, the cursor and the map of the state. -/
theorem Running.moved (h : Running s retry left horizon more) (place : FollowerPlace) (cursor : Option SettingsCursor)
    (map : List ModuleSettingLogEntry) : Running { s with place, cursor, retry := map } retry left horizon more :=
  ⟨⟨h.kept.kept, h.kept.keys, h.kept.owes⟩, h.retryKeys, h.apart, h.offers, h.tried, h.due⟩

theorem inv_retryNext (h : Running s retry [] (position s.cursor) false) : FollowerInv (s.retryNext retry) := by
  cases retry with
  | nil => exact inv_finish h
  | cons change left => exact h.moved (.retrying change left) s.cursor s.retry

theorem inv_applyNext (h : Running s s.retry left cursor.revision more) (hf : Fresh s left cursor.revision) :
    FollowerInv (s.applyNext cursor more left) := by
  cases left with
  | nil =>
    unfold FollowerState.applyNext
    dsimp only
    split_ifs with hm
    · rw [hm] at h
      exact h.moved (.reading false) (some cursor) s.retry
    · rw [Bool.not_eq_true] at hm
      rw [hm] at h
      exact inv_retryNext (h.moved s.place (some cursor) s.retry)
  | cons change left => exact ⟨h.moved (.applying change left cursor more) s.cursor s.retry, hf.keys, hf.newest⟩

variable {log : SettingsLog} {limit : ℕ} {succeeds : Bool}

theorem Ahead.keeps (h : Ahead s horizon change) (hk : s.log.Keeps log) :
    Ahead { s with log } horizon change := by
  obtain ⟨row, hr, hm, hkey, hc, hlt⟩ := h
  obtain ⟨row', hr', ht, hm', hkey', hle⟩ := hk row hr
  refine ⟨row', hr', hm'.trans hm, hkey'.trans hkey, ?_, hlt.trans_le hle⟩
  exact covers_trans (covers_iff.2 ⟨ht, hle⟩) hc

theorem Ahead.mono {horizon' : ℕ} (h : Ahead s horizon change) (hle : horizon' ≤ horizon) : Ahead s horizon' change := by
  obtain ⟨row, hr, hm, hk, hc, hlt⟩ := h
  exact ⟨row, hr, hm, hk, hc, hle.trans_lt hlt⟩

theorem Kept.keeps {waiting : List ModuleSettingLogEntry} (h : Kept s waiting horizon)
    (hk : s.log.Keeps log) : Kept { s with log } waiting horizon := by
  refine ⟨fun change hs => (h.kept change hs).keeps hk, h.keys, fun change hs => ?_⟩
  rcases h.owes change hs with hd | ho | ha
  · exact .inl hd
  · exact .inr (.inl ho)
  · exact .inr (.inr (ha.keeps hk))

theorem Running.keeps (h : Running s retry left horizon more) (hk : s.log.Keeps log) :
    Running { s with log } retry left horizon more := by
  refine ⟨h.kept.keeps hk, h.retryKeys, h.apart, fun change hs => ?_, h.tried, h.due⟩
  rcases h.offers change hs with hd | ho | hw | ha
  · exact .inl hd
  · exact .inr (.inl ho)
  · exact .inr (.inr (.inl hw))
  · exact .inr (.inr (.inr ⟨ha.1, ha.2.keeps hk⟩))

theorem inv_log (h : FollowerInv s) (hk : s.log.Keeps log) : FollowerInv { s with log } := by
  unfold FollowerInv at h ⊢
  dsimp only
  split at h
  · exact ⟨h.1.keeps hk, h.2.held, h.2.offered⟩
  · exact h.keeps hk
  · refine ⟨h.1.keeps hk, h.2.keys, fun change hc earlier hs ht => ?_⟩
    exact (h.2.newest change hc earlier hs ht).imp_right fun ha => ha.keeps hk
  · exact h.keeps hk

theorem inv_begin (h : Kept s [] (position s.cursor)) : FollowerInv s.begin := by
  have hr : Running s.begin s.owed [] (position s.cursor) true := by
    refine ⟨⟨h.kept, List.nodup_nil, fun change hs => ?_⟩, h.keys, fun _ ho => (nomatch ho),
      fun change hs => ?_, fun _ hoff => (nomatch hoff), fun _ hdue => List.mem_of_mem_filter hdue⟩
    · rcases h.owes change hs with hd | ho | ha
      · exact .inl hd
      · refine .inr (.inl (ho.mono ?_))
        simp [FollowerState.begin]
      · exact .inr (.inr ha)
    · by_cases hd : Among s.applied change
      · refine .inl ⟨hd, fun hdue => ?_⟩
        exact pending_iff.1 (List.mem_filter.1 hdue).2 hd
      · rcases h.owes change hs with hd' | ho | ha
        · exact absurd hd' hd
        · exact .inr (.inr (.inl ho))
        · exact .inr (.inr (.inr ⟨rfl, ha⟩))
  exact hr

/-- Changes that are owed are kept where the rest of those tried again are added. -/
theorem mem_foldl_setChange : ∀ {retry owed : List ModuleSettingLogEntry} {c : ModuleSettingLogEntry},
    (retry.map (·.tenantId)).Nodup → (∀ o ∈ owed, ∀ r ∈ retry, o.tenantId ≠ r.tenantId) →
      (c ∈ retry.foldl setChange owed ↔ c ∈ owed ∨ c ∈ retry) := by
  intro retry
  induction retry with
  | nil => simp
  | cons r retry ih =>
    intro owed c hk ha
    rw [List.map_cons, List.nodup_cons] at hk
    rw [List.foldl_cons, ih hk.2, setChange, Table.mem_upsert, List.mem_cons]
    · constructor
      · rintro ((rfl | hc) | hc)
        · exact .inr (.inl rfl)
        · exact .inl hc.1
        · exact .inr (.inr hc)
      · rintro (hc | rfl | hc)
        · exact .inl (.inr ⟨hc, ha c hc r List.mem_cons_self⟩)
        · exact .inl (.inl rfl)
        · exact .inr hc
    · intro o ho r' hr'
      rcases Table.mem_upsert.1 ho with rfl | ho
      · intro heq
        exact hk.1 (List.mem_map.2 ⟨r', hr', heq.symm⟩)
      · exact ha o ho.1 r' (List.mem_cons_of_mem _ hr')

theorem keys_foldl_setChange : ∀ {retry owed : List ModuleSettingLogEntry}, (owed.map (·.tenantId)).Nodup →
    ((retry.foldl setChange owed).map (·.tenantId)).Nodup := by
  intro retry
  induction retry with
  | nil => exact fun h => h
  | cons r retry ih => exact fun h => ih (Table.keys_upsert h)

/-- **A pass that is caught** owes what it would have tried. -/
theorem inv_caught (h : Running s s.retry [] horizon true) (hh : position s.cursor ≤ horizon) :
    FollowerInv s.caught := by
  have hk : Kept s.caught [] (position s.cursor) := by
    refine ⟨h.kept.kept, keys_foldl_setChange h.kept.keys, fun change hs => ?_⟩
    rcases h.kept.owes change hs with hd | ho | ha
    · exact .inl hd
    · refine .inr (.inl (ho.mono fun c hc => ?_))
      rw [List.append_nil] at hc ⊢
      exact (mem_foldl_setChange h.retryKeys h.apart).2 (List.mem_append.1 hc)
    · exact .inr (.inr (ha.mono hh))
  exact ⟨hk, fun _ _ _ => rfl, fun hcom => nomatch hcom⟩

/-- The newest changes of a page are those of different workspaces, of the page, and every change of the
page is covered. -/
theorem newestOf_spec : ∀ {changes found : List ModuleSettingLogEntry},
    changes.Pairwise (fun row row' => row.revision < row'.revision) →
    (∀ old ∈ found, ∀ c ∈ changes, old.revision < c.revision) → (found.map (·.tenantId)).Nodup →
      ((changes.foldl setChange found).map (·.tenantId)).Nodup ∧
      (∀ c ∈ changes.foldl setChange found, c ∈ found ∨ c ∈ changes) ∧
      ∀ c, c ∈ found ∨ c ∈ changes → Among (changes.foldl setChange found) c := by
  intro changes
  induction changes with
  | nil =>
    intro found _ _ hk
    refine ⟨hk, fun c hc => .inl hc, fun c hc => ?_⟩
    rcases hc with hc | hc
    · exact ⟨c, hc, covers_iff.2 ⟨rfl, le_rfl⟩⟩
    · cases hc
  | cons change changes ih =>
    intro found hsor hold hk
    rw [List.pairwise_cons] at hsor
    have hnext : ∀ old ∈ setChange found change, ∀ c ∈ changes, old.revision < c.revision := by
      intro old hm c hc
      rcases Table.mem_upsert.1 hm with rfl | ⟨hm, -⟩
      · exact hsor.1 c hc
      · exact hold old hm c (List.mem_cons_of_mem _ hc)
    obtain ⟨hn, hf, hcov⟩ := ih hsor.2 hnext (Table.keys_upsert hk)
    rw [List.foldl_cons]
    refine ⟨hn, fun c hc => ?_, fun c hc => ?_⟩
    · rcases hf c hc with hm | hm
      · rcases Table.mem_upsert.1 hm with rfl | ⟨hm, -⟩
        · exact .inr List.mem_cons_self
        · exact .inl hm
      · exact .inr (List.mem_cons_of_mem _ hm)
    · have hs : change ∈ setChange found change := Table.mem_upsert.2 (.inl rfl)
      rcases hc with hc | hc
      · by_cases hkey : c.tenantId = change.tenantId
        · obtain ⟨other, ho, hcovers⟩ := hcov change (.inl hs)
          have hle := hold c hc change List.mem_cons_self
          exact ⟨other, ho, covers_trans hcovers (covers_iff.2 ⟨hkey.symm, hle.le⟩)⟩
        · exact hcov c (.inl (Table.mem_upsert.2 (.inr ⟨hc, hkey⟩)))
      · rcases List.mem_cons.1 hc with rfl | hc
        · exact hcov c (.inl hs)
        · exact hcov c (.inr hc)

/-- What a page says: its changes are of the log, in their order, behind the cursor that was given, and
what of the log lies behind that one is in the page or behind its own cursor, where there is more. -/
theorem page_spec {readAt : ℤ} {after : Option SettingsCursor} (hl : limit ≠ 0)
    (h : settingsChangesAfter log readAt (FollowerState.request after limit) = .page changes cursor more) :
    changes.Pairwise (fun row row' => row.revision < row'.revision) ∧
    (∀ row ∈ changes, row ∈ log.rows ∧ position after < row.revision ∧
      row.moduleId = TENANT_TIME_ZONE_MODULE_ID ∧ row.key = TENANT_TIME_ZONE_KEY) ∧
    ∀ row ∈ log.rows, row.moduleId = TENANT_TIME_ZONE_MODULE_ID → row.key = TENANT_TIME_ZONE_KEY →
      position after < row.revision → row ∈ changes ∨ more = true ∧ cursor.revision < row.revision := by
  obtain ⟨rows, hrows⟩ : ∃ rows, rows = log.rows.filter fun row =>
    position (FollowerState.request after limit).after < row.revision &&
      (FollowerState.request after limit).moduleId.all (fun moduleId => row.moduleId = moduleId) &&
      (FollowerState.request after limit).key.all fun key => row.key = key := ⟨_, rfl⟩
  have hmem : ∀ row, row ∈ rows ↔ row ∈ log.rows ∧ position after < row.revision ∧
      row.moduleId = TENANT_TIME_ZONE_MODULE_ID ∧ row.key = TENANT_TIME_ZONE_KEY := by
    intro row
    rw [hrows, List.mem_filter]
    simp only [FollowerState.request, Option.all_some, Bool.and_eq_true, decide_eq_true_iff, and_assoc]
    exact and_congr_right fun _ => and_congr_left fun _ => decide_eq_true_iff
  have hs : rows.Pairwise fun row row' => row.revision < row'.revision := hrows ▸ log.sorted.filter _
  unfold settingsChangesAfter at h
  dsimp only at h
  rw [← hrows] at h
  split_ifs at h
  obtain ⟨hc, hcur, hm⟩ := ModuleSettingChangesPage.page.inj h
  have hr : (FollowerState.request after limit).limit = limit := rfl
  rw [hr] at hc hcur hm
  rw [List.take_take, Nat.min_eq_left (Nat.le_succ limit)] at hc
  have hspl : changes ++ rows.drop limit = rows := by rw [← hc, List.take_append_drop]
  rw [← hspl] at hs
  obtain ⟨hs', -, hb⟩ := List.pairwise_append.1 hs
  refine ⟨hs', fun row hrow => ?_, fun row hrow hmod hk hlt => ?_⟩
  · rw [← hmem, ← hspl]
    exact List.mem_append_left _ hrow
  · have hin : row ∈ changes ++ rows.drop limit := by
      rw [hspl]
      exact (hmem row).2 ⟨hrow, hlt, hmod, hk⟩
    rcases List.mem_append.1 hin with hin | hin
    · exact .inl hin
    · right
      have hlen : limit < rows.length := by
        by_contra hle
        rw [List.drop_eq_nil_of_le (not_lt.1 hle)] at hin
        cases hin
      refine ⟨?_, ?_⟩
      · rw [← hm, decide_eq_true_iff, List.length_take]
        omega
      · have hne : changes ≠ [] := by
          rw [← hc, Ne, List.take_eq_nil_iff]
          rintro (hz | hn)
          · exact hl hz
          · rw [hn] at hlen
            cases hlen
        rw [← hcur]
        dsimp only
        rw [List.take_take, Nat.min_eq_left (Nat.le_succ limit), hc, List.getLast?_eq_getLast_of_ne_nil hne]
        exact hb _ (List.getLast_mem hne) row hin

/-- **A page is read.** -/
theorem inv_page {readAt : ℤ} (hlim : limit ≠ 0) (h : Running s s.retry [] (position s.cursor) true)
    (hp : settingsChangesAfter s.log readAt (FollowerState.request s.cursor limit) = .page changes cursor more) :
    FollowerInv (s.page changes cursor more) := by
  obtain ⟨hsor, hf, hb⟩ := page_spec hlim hp
  obtain ⟨hn, hnewest, hc⟩ := @newestOf_spec changes [] hsor (fun _ hold => (nomatch hold)) List.nodup_nil
  have hseen : ∀ change ∈ changes, Ahead { s with seen := s.seen ++ changes } 0 change := by
    intro change hcha
    obtain ⟨hrow, -, hm, hk⟩ := hf change hcha
    exact ⟨change, hrow, hm, hk, covers_iff.2 ⟨rfl, le_rfl⟩, s.log.positive change hrow⟩
  have ha : ∀ change, Ahead s (position s.cursor) change → Among (newestOf changes) change ∨
      more = true ∧ Ahead { s with seen := s.seen ++ changes } cursor.revision change := by
    rintro change ⟨row, hrow, hm, hk, hcov, hlt⟩
    rcases hb row hrow hm hk hlt with hin | ⟨hmore, hlt'⟩
    · obtain ⟨other, ho, hcov'⟩ := hc row (.inr hin)
      exact .inl ⟨other, ho, covers_trans hcov' hcov⟩
    · exact .inr ⟨hmore, row, hrow, hm, hk, hcov, hlt'⟩
  have hleft : ∀ {change : ModuleSettingLogEntry}, Among (newestOf changes) change →
      Among (s.retry ++ newestOf changes) change := fun h => h.mono (List.subset_append_right _ _)
  have hr : ∀ {change : ModuleSettingLogEntry}, Among (s.retry ++ []) change →
      Among (s.retry ++ newestOf changes) change := by
    intro change h
    rw [List.append_nil] at h
    exact h.mono (List.subset_append_left _ _)
  refine inv_applyNext ⟨⟨?_, h.kept.keys, ?_⟩, h.retryKeys, h.apart, ?_, h.tried, ?_⟩ ⟨hn, ?_⟩
  · exact List.forall_mem_append.2 ⟨h.kept.kept, hseen⟩
  · refine List.forall_mem_append.2 ⟨fun change hold => ?_, fun change hnew => ?_⟩
    · rcases h.kept.owes change hold with hd | ⟨other, ho, hcov⟩ | hlies
      · exact .inl hd
      · refine .inr (.inl ⟨other, ?_, hcov⟩)
        rw [List.append_nil] at ho
        rw [← List.append_assoc]
        exact List.mem_append_left _ ho
      · rcases ha change hlies with hnow | hl
        · exact .inr (.inl ((hleft hnow).mono (List.subset_append_right _ _)))
        · exact .inr (.inr hl.2)
    · exact .inr (.inl ((hleft (hc change (.inr hnew))).mono (List.subset_append_right _ _)))
  · refine List.forall_mem_append.2 ⟨fun change hold => ?_, fun change hnew => ?_⟩
    · rcases h.offers change hold with hd | hoff | hw | ⟨-, hlies⟩
      · exact .inl hd
      · exact .inr (.inl hoff)
      · exact .inr (.inr (.inl (hr hw)))
      · rcases ha change hlies with hnow | hl
        · exact .inr (.inr (.inl (hleft hnow)))
        · exact .inr (.inr (.inr hl))
    · exact .inr (.inr (.inl (hleft (hc change (.inr hnew)))))
  · exact fun change hdue => List.mem_append_left _ (h.due hdue)
  · intro change hcha
    have hin : change ∈ changes := (hnewest change hcha).resolve_left (by nofun)
    have hs : ∀ {earlier : ModuleSettingLogEntry}, Among (newestOf changes) earlier →
        earlier.tenantId = change.tenantId → change.covers earlier = true := by
      rintro earlier ⟨other, ho, hcov⟩ ht
      have heq : other = change :=
        List.inj_on_of_nodup_map hn ho hcha ((covers_iff.1 hcov).1.trans ht)
      rwa [heq] at hcov
    refine List.forall_mem_append.2 ⟨fun earlier hold ht => ?_, fun earlier hnew ht => ?_⟩
    · by_cases hlies : Ahead s (position s.cursor) earlier
      · rcases ha earlier hlies with hnow | hl
        · exact .inl (hs hnow ht)
        · exact .inr hl.2
      · -- what the log keeps of it lies before the page
        obtain ⟨row, hrow, hm, hk, hcov, -⟩ := h.kept.kept earlier hold
        have hle : row.revision ≤ position s.cursor := by
          by_contra hlt
          exact hlies ⟨row, hrow, hm, hk, hcov, not_le.1 hlt⟩
        have hlt := (hf change hin).2.1
        have hold' := (covers_iff.1 hcov).2
        exact .inl (covers_iff.2 ⟨ht.symm, by omega⟩)
    · exact .inl (hs (hc earlier (.inr hnew)) ht)

theorem inv_expired (h : Running s s.retry [] (position s.cursor) true) :
    FollowerInv { s with cursor := none, place := .reading true } := by
  have hm := h.moved (.reading true) none s.retry
  have hz : position (none : Option SettingsCursor) = 0 := rfl
  refine ⟨⟨hm.kept.kept, hm.kept.keys, fun change hs => ?_⟩, h.retryKeys, h.apart,
    fun change hs => ?_, h.tried, h.due⟩
  · rcases hm.kept.owes change hs with hd | howed | ha
    · exact .inl hd
    · exact .inr (.inl howed)
    · exact .inr (.inr (ha.mono (Nat.zero_le _)))
  · rcases hm.offers change hs with hd | ho | hw | ha
    · exact .inl hd
    · exact .inr (.inl ho)
    · exact .inr (.inr (.inl hw))
    · exact .inr (.inr (.inr ⟨rfl, ha.2.mono (Nat.zero_le _)⟩))

/-- **A change is applied**, or its workspace is held and the change owed: what was to be tried may be left
out where this change, a later one of the page or the log covers it. -/
theorem running_apply {retry' left' : List ModuleSettingLogEntry} {offer : ModuleSettingLogEntry}
    (h : Running s retry left horizon more)
    (hr : retry'.Sublist retry)
    (hw : ∀ c ∈ retry ++ left, c.tenantId ≠ offer.tenantId → c ∈ retry' ++ left')
    (hcovers : ∀ c ∈ retry ++ left, c.tenantId = offer.tenantId → offer.covers c = true)
    (hn : ∀ c ∈ retry', c.tenantId ≠ offer.tenantId)
    (howed : ∀ earlier ∈ s.seen, earlier.tenantId = offer.tenantId →
      Among s.owed earlier → offer.covers earlier = true ∨ Ahead s horizon earlier) :
    Running (s.apply offer succeeds) retry' left' horizon more := by
  have hm : ∀ earlier, Among (retry ++ left) earlier →
      Among (retry' ++ left') earlier ∨ offer.covers earlier = true := by
    rintro earlier ⟨other, hoth, hcov⟩
    by_cases ht : other.tenantId = offer.tenantId
    · exact .inr (covers_trans (hcovers other hoth ht) hcov)
    · exact .inl ⟨other, hw other hoth ht, hcov⟩
  have happ : s.applied ⊆ s.applied ++ [offer] := List.subset_append_left _ _
  have hself : offer ∈ setChange s.owed offer := Table.mem_upsert.2 (.inl rfl)
  have hoffers : ∀ earlier ∈ s.seen, ∀ applied, s.applied ⊆ applied →
      (Among applied earlier ∧ earlier ∉ s.due) ∨ Among (s.offered ++ [offer]) earlier ∨
        Among (retry' ++ left') earlier ∨ (more = true ∧ Ahead s horizon earlier) := by
    intro earlier hs applied hsub
    rcases h.offers earlier hs with hd | hoffered | hw | ha
    · exact .inl ⟨hd.1.mono hsub, hd.2⟩
    · exact .inr (.inl (hoffered.mono (List.subset_append_left _ _)))
    · rcases hm earlier hw with hw | hoff
      · exact .inr (.inr (.inl hw))
      · exact .inr (.inl ⟨offer, List.mem_append_right _ (List.mem_singleton_self _), hoff⟩)
    · exact .inr (.inr (.inr ha))
  unfold FollowerState.apply
  cases succeeds with
  | true =>
    refine ⟨⟨h.kept.kept, h.kept.keys, fun earlier hs => ?_⟩, h.retryKeys.sublist (hr.map _),
      fun o ho c hc => h.apart o ho c (hr.subset hc), fun earlier hs => hoffers earlier hs _ happ,
      fun c hc => ?_, h.due⟩
    · rcases h.kept.owes earlier hs with hd | ⟨other, hoth, hcov⟩ | ha
      · exact .inl (hd.mono happ)
      · rcases List.mem_append.1 hoth with hoth | hoth
        · exact .inr (.inl ⟨other, List.mem_append_left _ hoth, hcov⟩)
        · rcases hm earlier ⟨other, hoth, hcov⟩ with hw | hoff
          · exact .inr (.inl (hw.mono (List.subset_append_right _ _)))
          · exact .inl ⟨offer, List.mem_append_right _ (List.mem_singleton_self _), hoff⟩
      · exact .inr (.inr ha)
    · rcases List.mem_append.1 hc with hc | hc
      · exact (h.tried c hc).imp_left fun hin => happ hin
      · exact .inl (List.mem_append_right _ hc)
  | false =>
    refine ⟨⟨h.kept.kept, Table.keys_upsert h.kept.keys, fun earlier hs => ?_⟩, h.retryKeys.sublist (hr.map _),
      fun o ho c hc => ?_, fun earlier hs => hoffers earlier hs _ (List.Subset.refl _), fun c hc => ?_, h.due⟩
    · rcases h.kept.owes earlier hs with hd | ⟨other, hoth, hcov⟩ | ha
      · exact .inl hd
      · rcases List.mem_append.1 hoth with hoth | hoth
        · by_cases ht : other.tenantId = offer.tenantId
          · have hsame : earlier.tenantId = offer.tenantId := (covers_iff.1 hcov).1.symm.trans ht
            rcases howed earlier hs hsame ⟨other, hoth, hcov⟩ with hoff | ha
            · exact .inr (.inl ⟨offer, List.mem_append_left _ hself, hoff⟩)
            · exact .inr (.inr ha)
          · refine .inr (.inl ⟨other, List.mem_append_left _ ?_, hcov⟩)
            exact Table.mem_upsert.2 (.inr ⟨hoth, ht⟩)
        · rcases hm earlier ⟨other, hoth, hcov⟩ with hw | hoff
          · exact .inr (.inl (hw.mono (List.subset_append_right _ _)))
          · exact .inr (.inl ⟨offer, List.mem_append_left _ hself, hoff⟩)
      · exact .inr (.inr ha)
    · rcases Table.mem_upsert.1 ho with rfl | ⟨ho, -⟩
      · exact (hn c hc).symm
      · exact h.apart o ho c (hr.subset hc)
    · rcases List.mem_append.1 hc with hc | hc
      · exact (h.tried c hc).imp_right fun hin => List.mem_append_left _ hin
      · rw [List.mem_singleton.1 hc]
        exact .inr (List.mem_append_right _ (List.mem_singleton_self _))

@[simp] theorem retry_apply {succeeds : Bool} : (s.apply change succeeds).retry = s.retry := by
  unfold FollowerState.apply
  split_ifs <;> rfl

@[simp] theorem seen_apply {succeeds : Bool} : (s.apply change succeeds).seen = s.seen := by
  unfold FollowerState.apply
  split_ifs <;> rfl

@[simp] theorem log_apply {succeeds : Bool} : (s.apply change succeeds).log = s.log := by
  unfold FollowerState.apply
  split_ifs <;> rfl

@[simp] theorem cursor_apply {succeeds : Bool} : (s.apply change succeeds).cursor = s.cursor := by
  unfold FollowerState.apply
  split_ifs <;> rfl

/-- The change that is applied is of the workspace, and no older than the one of the page and the one that
was owed. -/
theorem newer_spec (hk : (s.retry.map (·.tenantId)).Nodup) : (s.newer change).covers change = true ∧
    ∀ c ∈ s.retry, c.tenantId = change.tenantId → (s.newer change).covers c = true := by
  unfold FollowerState.newer
  split
  · next hn =>
    refine ⟨covers_iff.2 ⟨rfl, le_rfl⟩, fun c hc ht => ?_⟩
    exact absurd (decide_eq_true ht) (List.find?_eq_none.1 hn c hc)
  · next earlier hf =>
    have ht : earlier.tenantId = change.tenantId := by simpa using List.find?_some hf
    have hm : earlier ∈ s.retry := List.mem_of_find?_eq_some hf
    have hs : ∀ c ∈ s.retry, c.tenantId = change.tenantId → c = earlier := fun c hc hkey =>
      List.inj_on_of_nodup_map hk hc hm (hkey.trans ht.symm)
    split_ifs with hlt
    · refine ⟨covers_iff.2 ⟨ht, hlt.le⟩, fun c hc hkey => ?_⟩
      rw [hs c hc hkey]
      exact covers_iff.2 ⟨rfl, le_rfl⟩
    · refine ⟨covers_iff.2 ⟨rfl, le_rfl⟩, fun c hc hkey => ?_⟩
      rw [hs c hc hkey]
      exact covers_iff.2 ⟨ht.symm, not_lt.1 hlt⟩

theorem inv_applying (h : Running s s.retry (change :: left) cursor.revision more)
    (hf : Fresh s (change :: left) cursor.revision) :
    FollowerInv (((s.settle change.tenantId).apply (s.newer change) succeeds).applyNext cursor more left) := by
  obtain ⟨hcov, hr⟩ : (s.newer change).covers change = true ∧ ∀ c ∈ s.retry,
      c.tenantId = change.tenantId → (s.newer change).covers c = true := newer_spec h.retryKeys
  have ht : (s.newer change).tenantId = change.tenantId := (covers_iff.1 hcov).1
  have hk := hf.keys
  rw [List.map_cons, List.nodup_cons] at hk
  have ho : ∀ c ∈ left, c.tenantId ≠ change.tenantId := fun c hc heq =>
    hk.1 (List.mem_map.2 ⟨c, hc, heq⟩)
  have hset : Running (s.settle change.tenantId) s.retry (change :: left) cursor.revision more :=
    h.moved s.place s.cursor _
  have hrun : Running ((s.settle change.tenantId).apply (s.newer change) succeeds)
      (s.settle change.tenantId).retry left cursor.revision more := by
    refine running_apply hset List.filter_sublist (fun c hc hne => ?_) (fun c hc heq => ?_) (fun c hc => ?_)
      fun earlier hs heq _ => ?_
    · rw [ht] at hne
      rcases List.mem_append.1 hc with hc | hc
      · exact List.mem_append_left _ (List.mem_filter.2 ⟨hc, decide_eq_true hne⟩)
      · rcases List.mem_cons.1 hc with rfl | hc
        · exact absurd rfl hne
        · exact List.mem_append_right _ hc
    · rw [ht] at heq
      rcases List.mem_append.1 hc with hc | hc
      · exact hr c hc heq
      · rcases List.mem_cons.1 hc with rfl | hc
        · exact hcov
        · exact absurd heq (ho c hc)
    · rw [ht]
      exact of_decide_eq_true (List.mem_filter.1 hc).2
    · rw [ht] at heq
      exact (hf.newest change List.mem_cons_self earlier hs heq).imp_left (covers_trans hcov)
  refine inv_applyNext (by rwa [retry_apply]) ⟨hk.2, fun c hc earlier hs heq => ?_⟩
  rw [seen_apply] at hs
  refine (hf.newest c (List.mem_cons_of_mem _ hc) earlier hs heq).imp_right fun ha => ?_
  unfold Ahead
  rw [log_apply]
  exact ha

/-- A change that is tried again is applied. -/
theorem inv_retrying (h : Running s (change :: left) [] (position s.cursor) false) :
    FollowerInv ((s.apply change succeeds).retryNext left) := by
  have hk := h.retryKeys
  rw [List.map_cons, List.nodup_cons] at hk
  have ho : ∀ c ∈ left, c.tenantId ≠ change.tenantId := fun c hc heq =>
    hk.1 (List.mem_map.2 ⟨c, hc, heq⟩)
  refine inv_retryNext ?_
  rw [cursor_apply]
  refine running_apply h (List.sublist_cons_self _ _) (fun c hc hne => ?_) (fun c hc heq => ?_) ho
    fun earlier _ heq howed => ?_
  · rw [List.append_nil] at hc ⊢
    exact (List.mem_cons.1 hc).resolve_left fun hs => hne (hs ▸ rfl)
  · rw [List.append_nil] at hc
    rcases List.mem_cons.1 hc with rfl | hc
    · exact covers_iff.2 ⟨rfl, le_rfl⟩
    · exact absurd heq (ho c hc)
  · obtain ⟨owed, hm, hcov⟩ := howed
    exact absurd ((covers_iff.1 hcov).1.trans heq) (h.apart owed hm change List.mem_cons_self)

end Kept

/-- **One step.** -/
theorem inv_step {s s' : FollowerState} {e : FollowerEvent} (h : FollowerInv s) (hs : s.step e = some s') :
    FollowerInv s' := by
  have hp := h
  unfold FollowerInv at hp
  cases e with
  | pass =>
    rw [FollowerState.step] at hs
    split at hs
    · next heq =>
      rw [heq] at hp
      rw [← Option.some.inj hs]
      exact inv_begin hp.1
    · cases hs
  | log log =>
    rw [FollowerState.step] at hs
    split_ifs at hs with hk
    rw [← Option.some.inj hs]
    exact inv_log h hk
  | read readAt limit =>
    rw [FollowerState.step] at hs
    split at hs
    · next again heq =>
      rw [heq] at hp
      split at hs
      · cases hs
      · next hl =>
        split at hs
        · next changes cursor more hpage =>
          rw [← Option.some.inj hs]
          exact inv_page hl hp hpage
        · split_ifs at hs
          · rw [← Option.some.inj hs]
            exact inv_caught hp le_rfl
          · rw [← Option.some.inj hs]
            exact inv_expired hp
    · cases hs
  | readFails =>
    rw [FollowerState.step] at hs
    split at hs
    · next again heq =>
      rw [heq] at hp
      rw [← Option.some.inj hs]
      exact inv_caught hp le_rfl
    · cases hs
  | apply succeeds =>
    rw [FollowerState.step] at hs
    split at hs
    · next change left cursor more heq =>
      rw [heq] at hp
      rw [← Option.some.inj hs]
      exact inv_applying hp.1 hp.2
    · next change left heq =>
      rw [heq] at hp
      rw [← Option.some.inj hs]
      exact inv_retrying hp
    · cases hs

/-- **The follower forgets no change**: whatever the log, its pages, the failures of reads and of
applications, a workspace is held behind every pass while a change that was read is newer than those that
were applied, and that change or a newer one is offered in the next pass that reads the log to its end. -/
theorem follower_forgets_nothing (log : SettingsLog) (events : List FollowerEvent) :
    Events.Everywhere FollowerState.step (fun s => s.place = .idle → Follows s) (.start log) events := by
  have hsta : FollowerInv (.start log) :=
    ⟨⟨fun _ hs => (nomatch hs), List.nodup_nil, fun _ hs => (nomatch hs)⟩,
      fun _ hs => (nomatch hs), fun hc => nomatch hc⟩
  have hm : Events.Meets FollowerState.step (fun _ _ => True) (.start log) events := by
    generalize FollowerState.start log = s
    induction events generalizing s with
    | nil => trivial
    | cons e events ih => exact ⟨trivial, fun s' _ => ih s'⟩
  refine (Events.everywhere_of_meets (fun s e s' h _ hstep => inv_step h hstep) hsta hm).mono fun s h hi => ?_
  unfold FollowerInv at h
  rw [hi] at h
  exact h.2

/-- A log with one change. -/
def sampleLog : SettingsLog where
  rows := [⟨3, "t", TENANT_TIME_ZONE_MODULE_ID, TENANT_TIME_ZONE_KEY, false, 0⟩]
  positive := by decide
  sorted := by decide

/-- A change that could not be applied is tried again in the next pass, where the log tells nothing new. -/
example : (Events.play FollowerState.step (.start sampleLog)
    [.pass, .read 0 500, .apply false, .pass, .read 1 500, .apply true]).map
      (fun s => (s.place, s.offered.map (·.revision), s.owed, s.hold "t")) = some (.idle, [3], [], false) := by
  decide +kernel

end Flowdular.Automations
