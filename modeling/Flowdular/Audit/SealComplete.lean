/-
# A pass over an untouched directory

Where the runs leave the files of one another alone, every anchor has its whole file
(`reachable_filed`), and the directory names no file twice (`reachable_names`).  A pass over
such a directory reports ok as long as it can read what it finds (`Readable`): every file it
reads belongs to an anchor it reads, no file is too long or splits a line at a separator
that JSON text keeps, and the ring holds the keys (`verify_complete`).
-/

import Flowdular.Audit.SealSound
import Mathlib.Data.List.Chain
import Mathlib.Data.List.Dedup

namespace Flowdular.Audit

open Lib Workflows

/-! ### Signatures -/

theorem hexDigitValue_hexDigit {n : ℕ} (hn : n < 16) : hexDigitValue (Json.hexDigit n) = some n := by
  have ha : ∀ i : Fin 16, hexDigitValue (Json.hexDigit i) = some (i : ℕ) := by decide
  exact ha ⟨n, hn⟩

/-- The bytes of a signature are read back. -/
theorem fromHex_toHex (bytes : List UInt8) : fromHex (toHex bytes).toList = bytes := by
  unfold toHex
  rw [String.toList_ofList]
  induction bytes with
  | nil => rfl
  | cons b bytes ih =>
    have hlt := b.toNat_lt
    have hh : hexDigitValue (Json.hexDigit (b.toNat / 16)) = some (b.toNat / 16) :=
      hexDigitValue_hexDigit (by omega)
    have hl : hexDigitValue (Json.hexDigit (b.toNat % 16)) = some (b.toNat % 16) :=
      hexDigitValue_hexDigit (by omega)
    have hb : b.toNat / 16 * 16 + b.toNat % 16 = b.toNat := by omega
    rw [List.flatMap_cons, List.cons_append, List.cons_append, List.nil_append, fromHex, hh, hl]
    show UInt8.ofNat (b.toNat / 16 * 16 + b.toNat % 16) :: _ = _
    rw [ih, hb, UInt8.ofNat_toNat]

section

variable [SealHost]

/-- **A signature verifies** under a ring that holds its key. -/
theorem AnchorSigner.verify_sign {signer other : AnchorSigner} {anchorHash : String}
    (hk : signer.key other.keyId = some other.current) :
    signer.verify anchorHash (other.sign anchorHash) other.keyId = true := by
  unfold AnchorSigner.verify
  rw [hk]
  exact decide_eq_true (fromHex_toHex _)

/-! ### The names of the directory -/

theorem serve_names (c : SealCall) (archive : Archive) (outcome : Outcome)
    (h : (archive.entries.map Prod.fst).Nodup) :
    ((c.serve archive outcome).2.entries.map Prod.fst).Nodup := by
  have hw : ∀ handle text, (archive.write handle text).2.entries = archive.entries := by
    intro handle text
    rcases write_state archive handle text with heq | ⟨before, -, heq⟩ <;> rw [heq]
  rcases serve_state archive outcome c with heq | ⟨time, heq⟩ | ⟨handle, text, text', rfl, heq⟩
  · rw [heq]
    exact h
  · rw [heq]
    cases c with
    | latestAnchor => exact h
    | sealAuditEventsPage => exact h
    | now => exact h
    | directory => exact h
    | mkdir => exact h
    | appendAuditEvent input draws => exact h
    | insertAnchor anchor =>
      rw [SealCall.perform]
      split <;> exact h
    | write handle text =>
      rw [SealCall.perform, hw]
      exact h
    | close handle =>
      rw [SealCall.perform]
      rcases close_state archive handle with heq | ⟨before, -, heq⟩ <;> rw [heq] <;> exact h
    | rm name => exact h.sublist (List.filter_sublist.map _)
    | openNew name =>
      rw [SealCall.perform]
      split
      · exact h
      · next he =>
        rw [List.map_append, List.nodup_append]
        refine ⟨h, List.nodup_singleton _, ?_⟩
        intro other ho new hnew hs
        obtain ⟨entry, hent, rfl⟩ := List.mem_map.1 ho
        have hn : new = name := by simpa using hnew
        refine he (List.any_eq_true.2 ⟨entry, hent, ?_⟩)
        simpa [hn] using hs
  · rw [heq, hw]
    exact h

/-- **The directory names no file twice.** -/
theorem reachable_names {cond : Machine.Condition Archive SealProcess}
    {crew : Crew Archive SealProcess} (h : ChainReachable cond crew) :
    (crew.shared.entries.map Prod.fst).Nodup := by
  induction h with
  | refl => exact List.nodup_nil
  | tail _ hs ih =>
    cases hs with
    | start => exact ih
    | stop => exact ih
    | move h _ =>
      obtain ⟨c, next, -, rfl, -⟩ := Prog.recorder_next h
      exact serve_names c _ _ ih

/-! ### What a pass can read -/

/-- What the state before a pass has to meet. -/
structure Readable (archive : Archive) (signer : AnchorSigner) (tenantId : String) (window : ℕ) :
    Prop where
  files : ∀ file ∈ readFiles tenantId archive.files window,
    ∃ anchor ∈ newestAnchors archive tenantId window, file.1 = anchor.segmentFile
  anchors : ∀ anchor ∈ newestAnchors archive tenantId window, anchor.Plain
  events : ∀ anchor ∈ newestAnchors archive tenantId window,
    ∀ event ∈ archive.segmentEvents anchor, event.Plain
  size : ∀ anchor ∈ newestAnchors archive tenantId window,
    (archive.segmentText anchor).utf8ByteSize ≤ SEAL_LIMITS.fileBytes
  ring : ∀ anchor ∈ newestAnchors archive tenantId window, ∀ key,
    SealHost.keyFingerprint key = anchor.keyId → signer.key anchor.keyId = some key

variable {archive : Archive} {signer : AnchorSigner} {tenantId : String} {window : ℕ}

/-- The anchor a pass finds recorded under a number. -/
theorem recordedAnchor_eq (hsou : archive.Sound) {anchor : AuditChainAnchor}
    (h : anchor ∈ newestAnchors archive tenantId window) :
    recordedAnchor (archive.listAnchors tenantId window) anchor.anchorSequence = some anchor := by
  have hl : (archive.listAnchors tenantId window).reverse = newestAnchors archive tenantId window := by
    rw [hsou.listAnchors, List.take_reverse, List.reverse_reverse]
    rfl
  unfold recordedAnchor
  rw [hl]
  cases hf : (newestAnchors archive tenantId window).find? fun other =>
      other.anchorSequence = anchor.anchorSequence with
  | none => exact absurd (List.find?_eq_none.1 hf anchor h) (by simp)
  | some other =>
    have ho := List.mem_of_find?_eq_some hf
    have hs := List.find?_some hf
    rw [hsou.anchor_inj ((mem_anchorsOf_iff window).2 (.inr ho))
      ((mem_anchorsOf_iff window).2 (.inr h)) (by simpa using hs)]

theorem Chained.links {events : List StoredAuditEvent} (h : Chained events) (after through : ℤ) :
    (between events after through).IsChain fun a b => b.previousHash = some a.eventHash := by
  have ha : events.IsChain fun a b => b.previousHash = some a.eventHash := by
    rw [List.isChain_iff_getElem]
    intro i hi
    have hl := h.link (i + 1) _ (List.getElem?_eq_getElem hi)
    have hlt : i < events.length := by omega
    rw [List.take_add_one, List.getElem?_eq_getElem hlt, Option.toList_some, List.getLast?_concat] at hl
    exact hl
  unfold between
  exact (ha.drop _).take _

/-- **A recorded anchor and its events are what a pass accepts.** -/
theorem written_of_readable (hs : archive.Sound) (hr : Readable archive signer tenantId window)
    {anchor : AuditChainAnchor} (h : anchor ∈ newestAnchors archive tenantId window) :
    Written signer (archive.listAnchors tenantId window) anchor (archive.segmentEvents anchor) := by
  have hm := (mem_anchorsOf.1 ((mem_anchorsOf_iff window).2 (.inr h))).1
  obtain ⟨previous, hfol⟩ := hs.follows hm
  have hc := hs.events anchor.tenantId
  have hran := segmentEvents_eq hc hfol
  have hto := hfol.toSequence
  have hrows := hfol.rowCount
  have hl := length_between hfol.behind (by omega) hfol.covered
  exact {
    plainAnchor := hr.anchors anchor h
    plainEvents := hr.events anchor h
    size := hr.size anchor h
    rowCount := by
      rw [hran, hl]
      omega
    anchorHash := hfol.anchorHash
    segmentHash := by
      rw [hran, hfol.previousAnchorHash]
      exact hfol.segmentHash
    hashes := fun event he => by
      rw [hran] at he
      exact hc.hash event (List.mem_of_mem_drop (List.mem_of_mem_take he))
    links := by
      rw [hran]
      exact hc.links _ _
    first := fun hf event he => by
      -- a segment that begins at one begins with the first event of its workspace
      have hz : sealedThrough previous = 0 := by
        have := hfol.fromSequence
        have := hfol.behind
        omega
      rw [hran, hz] at he
      unfold between at he
      rw [Int.toNat_zero, List.drop_zero, List.head?_take] at he
      split at he
      · cases he
      · rw [List.head?_eq_getElem?] at he
        exact hc.link 0 event he
    signature := by
      obtain ⟨other, hkeyId, hsig⟩ := hfol.signed
      have hk := hr.ring anchor h other.current hkeyId.symm
      rw [hkeyId] at hk
      rw [hkeyId, hsig]
      exact AnchorSigner.verify_sign hk
    recorded := ⟨anchor, recordedAnchor_eq hs h, rfl⟩ }

/-! ### The chain of the files -/

/-- The lines of an anchor. -/
def Archive.lines (archive : Archive) (anchor : AuditChainAnchor) :
    SegmentAnchorLine × List SegmentEventLine :=
  (anchor.segmentLine, (archive.segmentEvents anchor).map (·.segmentLine))

omit [SealHost] in
/-- Anchors that follow each other link up. -/
theorem chainLinkFailures_eq_nil {anchors : List AuditChainAnchor} (h : anchors.IsChain fun a b =>
      b.previousAnchorHash = some a.anchorHash ∧ b.anchorSequence = a.anchorSequence + 1 ∧
        b.fromSequence = a.toSequence + 1) :
    chainLinkFailures (anchors.map (·.segmentLine)) = [] := by
  induction anchors with
  | nil => rfl
  | cons a anchors ih =>
    cases anchors with
    | nil => rfl
    | cons b anchors =>
      obtain ⟨⟨hp, hs, hf⟩, hr⟩ := List.isChain_cons_cons.1 h
      show linkFailures a.segmentLine b.segmentLine ++
        chainLinkFailures ((b :: anchors).map (·.segmentLine)) = []
      rw [ih hr, List.append_nil]
      unfold linkFailures
      simp only [List.append_eq_nil_iff, failUnless_eq_nil]
      refine ⟨⟨?_, hs⟩, hf⟩
      show nullColumn b.previousAnchorHash = _
      rw [hp]
      rfl

/-- **The files of the newest anchors make up a chain.** -/
theorem chainFailuresOf_newest (hsou : archive.Sound) {anchors : List AuditChainAnchor}
    (hp : anchors.Perm (newestAnchors archive tenantId window)) :
    chainFailuresOf (seenOf (anchors.map archive.lines)) (archive.listAnchors tenantId window) = [] := by
  set newest := newestAnchors archive tenantId window with hn
  have hpai : newest.Pairwise fun a b => a.anchorSequence < b.anchorSequence :=
    (hsou.pairwise tenantId).sublist (List.drop_sublist _ _)
  have hs : seenOf (anchors.map archive.lines) =
      anchors.map fun anchor => (anchor.anchorSequence, anchor.segmentLine) := by
    unfold seenOf
    rw [List.map_map]
    rfl
  have ho : (seenOf (anchors.map archive.lines)).insertionSort (fun a b => a.1 ≤ b.1) =
      newest.map fun anchor => (anchor.anchorSequence, anchor.segmentLine) := by
    rw [hs]
    refine Table.insertionSort_of_perm (List.pairwise_map.2 hpai) (hp.map _)
  have hr : archive.listAnchors tenantId window = newest.reverse := by
    rw [hsou.listAnchors, List.take_reverse]
    rfl
  have hc : newest.IsChain fun a b => b.previousAnchorHash = some a.anchorHash ∧
      b.anchorSequence = a.anchorSequence + 1 ∧ b.fromSequence = a.toSequence + 1 := by
    have hall : (archive.anchorsOf tenantId).IsChain fun a b =>
        b.previousAnchorHash = some a.anchorHash ∧ b.anchorSequence = a.anchorSequence + 1 ∧
          b.fromSequence = a.toSequence + 1 := by
      rw [List.isChain_iff_getElem]
      intro i hi
      have hlt : i < (archive.anchorsOf tenantId).length := by omega
      have hnext := hsou.next (List.getElem?_eq_getElem hlt) (List.getElem?_eq_getElem hi)
      exact ⟨hnext.previousAnchorHash, hnext.anchorSequence, hnext.fromSequence⟩
    exact hall.drop _
  unfold chainFailuresOf
  simp only [ho]
  cases hl : newest with
  | nil =>
    rw [hr, hl]
    rfl
  | cons lowest rest =>
    show chainLinkFailures (List.map Prod.snd (List.map _ (lowest :: rest))) ++ List.map _ _ = []
    rw [List.map_map, List.append_eq_nil_iff, List.map_eq_nil_iff, List.filter_eq_nil_iff]
    refine ⟨?_, fun sequence hseq => ?_⟩
    · rw [hl] at hc
      exact chainLinkFailures_eq_nil hc
    · rw [List.mem_insertionSort, List.mem_dedup, hr, List.map_reverse, List.mem_reverse] at hseq
      obtain ⟨anchor, ha, rfl⟩ := List.mem_map.1 hseq
      have hm : anchor.anchorSequence ∈ (seenOf (anchors.map archive.lines)).map Prod.fst := by
        rw [hs, List.map_map]
        exact List.mem_map_of_mem (hp.mem_iff.2 ha)
      simp only [decide_eq_true_eq, not_and, not_not]
      exact fun _ => hm

/-! ### A pass -/

omit [SealHost] in
theorem forall₂_of_forall_exists {α β : Type} (R : α → β → Prop) (xs : List α)
    (h : ∀ x ∈ xs, ∃ y, R x y) : ∃ ys, List.Forall₂ R xs ys := by
  induction xs with
  | nil => exact ⟨[], .nil⟩
  | cons x xs ih =>
    obtain ⟨y, hy⟩ := h x List.mem_cons_self
    obtain ⟨ys, hys⟩ := ih fun z hz => h z (List.mem_cons_of_mem _ hz)
    exact ⟨y :: ys, .cons hy hys⟩

omit [SealHost] in
/-- A file of the directory that has the name of an anchor is the anchor's. -/
theorem file_of_name (hfil : archive.Filed) (hn : (archive.entries.map Prod.fst).Nodup)
    {anchor : AuditChainAnchor} (ha : anchor ∈ archive.anchors) {file : String × String}
    (hf : file ∈ archive.files) (hname : file.1 = anchor.segmentFile) :
    file = (anchor.segmentFile, archive.segmentText anchor) := by
  obtain ⟨handle, he, hi⟩ := hfil anchor ha
  obtain ⟨entry, hm, rfl⟩ := List.mem_map.1 hf
  have hs : entry = (anchor.segmentFile, handle) :=
    List.inj_on_of_nodup_map hn hm he hname
  rw [hs]
  unfold Archive.fileText
  rw [hi]
  rfl

end

/-- **A pass over an untouched directory reports ok**: whatever appends and seal runs of any
workspaces did, in any order and wherever they stopped, if no run removed the file of a
recorded anchor or of another run, and the pass can read what it finds. -/
theorem verify_complete [SealHost] (hparse : Parses) {crew : Crew Archive SealProcess}
    (hreach : ChainReachable LeavesFiles crew) {signer : AnchorSigner} {tenantId : String} {window : ℕ}
    (hreadable : Readable crew.shared signer tenantId window) :
    (AuditSealService.verify signer tenantId crew.shared.files
      (crew.shared.listAnchors tenantId window) window).ok = true := by
  have hs := reachable_sound (hreach.mono fun _ _ _ _ => trivial)
  have hfil := reachable_filed hreach
  have hnam := reachable_names hreach
  set archive := crew.shared with harc
  have hanc : ∀ {anchor}, anchor ∈ newestAnchors archive tenantId window →
      anchor ∈ archive.anchorsOf tenantId := fun h => (mem_anchorsOf_iff window).2 (.inr h)
  -- every file the pass reads is the one of an anchor it reads
  obtain ⟨anchors, ha⟩ := forall₂_of_forall_exists
    (fun file anchor => anchor ∈ newestAnchors archive tenantId window ∧
      file = (anchor.segmentFile, archive.segmentText anchor))
    (readFiles tenantId archive.files window) fun file hfile => by
    obtain ⟨anchor, hn, hname⟩ := hreadable.files file hfile
    have hmem := (mem_matchingFiles.1 ((mem_matching_iff window).2 (.inr hfile))).1
    exact ⟨anchor, hn, file_of_name hfil hnam (mem_anchorsOf.1 (hanc hn)).1 hmem hname⟩
  have hl := ha.length_eq
  have hsub : anchors ⊆ newestAnchors archive tenantId window := by
    intro anchor hmem
    obtain ⟨i, hi⟩ := List.getElem?_of_mem hmem
    obtain ⟨hlt, rfl⟩ := List.getElem?_eq_some_iff.1 hi
    exact ((List.forall₂_iff_get.1 ha).2 i (by omega) hlt).1
  have hf : readFiles tenantId archive.files window =
      anchors.map fun anchor => (anchor.segmentFile, archive.segmentText anchor) := by
    have he := ha.imp fun _ _ h => h.2
    rw [← List.forall₂_eq_eq_eq, List.forall₂_map_right_iff]
    exact he
  have hnod : anchors.Nodup := by
    have hr : ((readFiles tenantId archive.files window).map Prod.fst).Nodup := by
      have hall : (archive.files.map Prod.fst).Nodup := by
        unfold Archive.files
        rw [List.map_map]
        exact hnam
      have hm : ((matchingFiles tenantId archive.files).map Prod.fst).Nodup := by
        have hp := (List.perm_insertionSort (fun a b : String × String =>
          unitsLE (codeUnits a.1) (codeUnits b.1) = true) (archive.files.filter fun file =>
            (segmentNamePrefix tenantId).toList.isPrefixOf file.1.toList &&
              ".jsonl".toList.isSuffixOf file.1.toList)).map Prod.fst
        exact hp.nodup_iff.2 (hall.sublist (List.filter_sublist.map _))
      exact hm.sublist ((List.drop_sublist _ _).map _)
    rw [hf, List.map_map] at hr
    exact hr.of_map _
  have hh : ∀ anchor ∈ archive.anchorsOf tenantId, anchor.segmentFile ∈ archive.files.map Prod.fst := by
    intro anchor hmem
    obtain ⟨handle, hent, -⟩ := hfil anchor (mem_anchorsOf.1 hmem).1
    exact List.mem_map.2 ⟨_, List.mem_map_of_mem hent, rfl⟩
  have hp : anchors.Perm (newestAnchors archive tenantId window) := by
    refine (List.subperm_of_subset hnod hsub).perm_of_length_le ?_
    have hm := length_le_matching hs hh
    rw [← hl, newestAnchors, readFiles, List.length_drop, List.length_drop]
    omega
  refine verify_ok.2 ⟨anchors.map archive.lines, ?_, ?_, chainFailuresOf_newest hs hp⟩
  · show List.Forall₂ _ (readFiles tenantId archive.files window) _
    rw [hf, List.forall₂_map_left_iff, List.forall₂_map_right_iff, List.forall₂_same]
    intro anchor hmem
    have hn := hsub hmem
    have hacc := (written_of_readable hs hreadable hn).accepted hparse anchor.segmentFile
    rw [(mem_anchorsOf.1 (hanc hn)).2] at hacc
    exact hacc
  · rw [List.map_map]
    have hpai := (hs.pairwise tenantId).sublist
      (List.drop_sublist ((archive.anchorsOf tenantId).length - window) _)
    have hseq : ((newestAnchors archive tenantId window).map (·.anchorSequence)).Nodup :=
      List.pairwise_map.2 (hpai.imp ne_of_lt)
    exact (hp.map _).nodup_iff.2 hseq

/-- No more files are accepted than anchors are read. -/
theorem length_le_of_ok [SealHost] {archive : Archive} (hsou : archive.Sound) {signer : AnchorSigner}
    {tenantId : String} {files : List (String × String)} {window : ℕ}
    (h : (AuditSealService.verify signer tenantId files
      (archive.listAnchors tenantId window) window).ok = true) :
    (readFiles tenantId files window).length ≤ (newestAnchors archive tenantId window).length := by
  obtain ⟨lines, ha, hn, -⟩ := verify_ok.1 h
  have hl := ha.length_eq
  have hsub : (lines.map fun line => line.1.anchorSequence) ⊆
      (newestAnchors archive tenantId window).map (·.anchorSequence) := by
    intro sequence hseq
    obtain ⟨line, hm, rfl⟩ := List.mem_map.1 hseq
    obtain ⟨i, hi⟩ := List.getElem?_of_mem hm
    obtain ⟨hlt, rfl⟩ := List.getElem?_eq_some_iff.1 hi
    have hv := ((List.forall₂_iff_get.1 ha).2 i (by omega) hlt).verified
    obtain ⟨stored, hsto, hs, -⟩ := stored_of_verified hsou hv
    exact List.mem_map.2 ⟨stored, hsto, hs⟩
  have hle := (List.subperm_of_subset hn hsub).length_le
  rw [List.length_map, List.length_map, ← hl] at hle
  exact hle

/-! ### Sample runs -/

/-- A second event. -/
def sampleLater : ChainRequest :=
  .append
    { tenantId := "t", actorId := "operator", action := "profile.viewed", subjectType := "account",
      subjectId := "ada", metadata := [], occurredAt := 6 }
    ⟨"e3", "k3", Vector.replicate 32 9, "iv"⟩

/-- A seal run that stops between its file and its anchor, and another one behind the next
event. -/
def stoppedTurns : List (Crew.Turn ChainRequest Outcome) :=
  .start sampleChange :: sealMoves 1 ++ .start (sampleSeal "a1") :: sealMoves 12 ++ .stop 0 ::
    .start sampleLater :: sealMoves 1 ++ .start (sampleSeal "a2") :: sealMoves 16

/-- Nothing is left of a process. -/
def sealEnded (p : SealProcess) : Bool :=
  match p.rest with
  | .call .. => false
  | _ => true

/-- **The file of a stopped run** stays beside the one of the run that sealed instead. -/
theorem verify_refuses_leftover : letI := sampleSealHost
    Parses ∧ ∃ crew, ChainReachable (fun _ _ _ => True) crew ∧ crew.processes.all sealEnded = true ∧
      (AuditSealService.verify sampleSigner "t" crew.shared.files
        (crew.shared.listAnchors "t" 10) 10).ok = false := by
  let _ := sampleSealHost
  have hp : (Crew.play (Prog.recorder ChainRequest.program fun c archive outcome =>
      SealCall.serve c archive outcome) (fun _ _ _ => True) ⟨Archive.empty, []⟩ stoppedTurns).map
        (fun crew => (crew.processes.all sealEnded, (readFiles "t" crew.shared.files 10).length,
          (newestAnchors crew.shared "t" 10).length)) = some (true, 2, 1) := by
    decide +kernel
  obtain ⟨crew, hc, hres⟩ := Option.map_eq_some_iff.1 hp
  obtain ⟨he, hcou⟩ := Prod.mk.inj hres
  obtain ⟨hf, ha⟩ := Prod.mk.inj hcou
  have hr := Crew.reachable_of_play hc
  refine ⟨sample_parses, crew, hr, he, ?_⟩
  by_contra hok
  have hle := length_le_of_ok (reachable_sound hr) (Bool.eq_true_of_not_eq_false hok)
  omega

/-- `LeavesFiles`, evaluated. -/
def leavesFiles (archive : Archive) (others : List SealProcess) (p : SealProcess) : Bool :=
  match p.rest with
  | .call (.rm name) _ => archive.anchors.all (fun anchor => anchor.segmentFile ≠ name) &&
    others.all fun q => (handles q.history).all fun handle => (name, handle) ∉ archive.entries
  | _ => true

theorem leavesFiles_spec {archive : Archive} {others : List SealProcess} {p : SealProcess}
    (h : leavesFiles archive others p = true) : LeavesFiles archive others p := by
  intro name next hr
  unfold leavesFiles at h
  rw [hr] at h
  simp only [Bool.and_eq_true, List.all_eq_true, decide_eq_true_eq] at h
  exact ⟨h.1, h.2⟩

/-- One event is appended and sealed. -/
theorem verify_complete_sealed : letI := sampleSealHost
    ∃ crew, ChainReachable LeavesFiles crew ∧ (AuditSealService.verify sampleSigner "t"
      crew.shared.files (crew.shared.listAnchors "t" 10) 10).ok = true := by
  let _ := sampleSealHost
  have hp : (Crew.play (Prog.recorder ChainRequest.program fun c archive outcome =>
      SealCall.serve c archive outcome) (fun s ps p => leavesFiles s ps p = true)
        ⟨Archive.empty, []⟩ sealTurns).map (fun crew => ((readFiles "t" crew.shared.files 10).map
          Prod.fst, crew.shared.anchors, crew.shared.events "t")) =
      some ([sampleAnchor.segmentFile], [sampleAnchor], [sampleEvent]) := by
    decide +kernel
  obtain ⟨crew, hc, hres⟩ := Option.map_eq_some_iff.1 hp
  obtain ⟨hfil, hrows⟩ := Prod.mk.inj hres
  obtain ⟨ha, heve⟩ := Prod.mk.inj hrows
  have hr : ChainReachable LeavesFiles crew :=
    (Crew.reachable_of_play hc).mono fun _ _ _ h => leavesFiles_spec h
  have hn : newestAnchors crew.shared "t" 10 = [sampleAnchor] := by
    unfold newestAnchors Archive.anchorsOf
    rw [ha]
    rfl
  have hseg : crew.shared.segmentEvents sampleAnchor = [sampleEvent] := by
    unfold Archive.segmentEvents
    rw [show crew.shared.events sampleAnchor.tenantId = [sampleEvent] from heve]
    rfl
  refine ⟨crew, hr, verify_complete sample_parses hr ?_⟩
  refine ⟨fun file hf => ?_, ?_, ?_, ?_, ?_⟩
  · have hname := List.mem_map_of_mem (f := Prod.fst) hf
    rw [hfil] at hname
    exact ⟨sampleAnchor, by rw [hn]; simp, List.mem_singleton.1 hname⟩
  all_goals
    rw [hn]
    intro anchor hanc
    rw [List.mem_singleton.1 hanc]
  · exact editedAnchor_plain _ (plain_of_ascii (by decide))
  · rw [hseg]
    intro event he
    rw [List.mem_singleton.1 he]
    exact editedEvent_plain _ (plain_of_ascii (by decide))
  · unfold Archive.segmentText
    rw [hseg]
    have hs : (segmentText sampleAnchor [sampleEvent]).utf8ByteSize ≤ 1000 := by decide +kernel
    exact hs.trans (by unfold SEAL_LIMITS.fileBytes; omega)
  · intro key hk
    have hb : key.toList = (Vector.replicate 32 (0 : UInt8)).toList := by
      have hz : sampleAnchor.keyId = toHex (Vector.replicate 32 (0 : UInt8)).toList := by
        decide +kernel
      have hh : toHex key.toList = toHex (Vector.replicate 32 (0 : UInt8)).toList := by
        rw [← hz]
        exact hk
      have hread := congrArg (fun text => fromHex text.toList) hh
      simpa only [fromHex_toHex] using hread
    have hk : key = Vector.replicate 32 0 := Vector.toList_inj.1 hb
    rw [hk]
    decide +kernel

end Flowdular.Audit
