/-
# What is written of an archive is read back

The bytes a writer leaves are the local parts of the entries, the central directory and the end
record, each at the offset that is written of it (`archive_layout`).  A package that is read takes
the end record at the end of the file and the directory entry by entry (`openPackage_archive`), so
it has the names it was written with where they are in ASCII and distinct, unless there are 65535
of them, and in no other case (`archive_round_trips_iff`): the writer sets no flag for UTF-8, looks
at no other name, and leaves the count that stands for ZIP64.
-/

import Flowdular.Audit.Zip
import Flowdular.Documents.Zip
import Flowdular.Lib.Prog
import Flowdular.Lib.Table
import Mathlib.Data.List.Nodup

namespace Flowdular.Documents

open Lib Audit
open Bytes (readAt readAt_append readAt_record record width Fits utf8 latin1 isAscii latin1_utf8)

/-! ### What is said of an archive -/

/-- A package of the archive opens within the limits, has exactly the names, in their order, and reads
back the content of any of its parts, as far as the budget goes. -/
def RoundTrips [ZipHost] (limits : ZipLimits) (entries : List ArchiveEntry) (bytes : Bytes) : Prop :=
  ∃ p, openPackage bytes limits = .ok p ∧ p.entries.map (·.name) = entries.map (·.name) ∧
    ∀ parts : List ArchiveEntry, parts ⊆ entries →
      (parts.map fun part => part.content.length).sum ≤ limits.inflatedBytes →
        (p.readMany (parts.map (·.name))).1.map (fun reading => (reading.chunks.flatten, reading.error)) =
          parts.map (fun part => (part.content, none)) ∧
        (p.readMany (parts.map (·.name))).2.exhausted = false

/-! ### The writer -/

section Writer

variable {w w' : StoredZipWriter} {chunk bytes : Bytes} {stamp : LocalTime} {entry : ArchiveEntry}
  {entries : List ArchiveEntry}

/-- What was given to the writer, as far as it was written and as it waits. -/
def pushed (w : StoredZipWriter) : Bytes :=
  w.output ++ w.pending.flatten

/-- The counts of a writer are right, and within the limit. -/
structure Counted (w : StoredZipWriter) : Prop where
  offset : w.offset = (pushed w).length
  limit : w.offset ≤ SIZE_LIMIT
  waiting : w.pendingBytes = w.pending.flatten.length

theorem Counted.reopen (h : Counted w) {opened : Option ZipEntryRecord} : Counted { w with opened } :=
  ⟨h.offset, h.limit, h.waiting⟩

/-- The writer was given more. -/
structure Pushed (w : StoredZipWriter) (bytes : Bytes) (w' : StoredZipWriter) : Prop where
  counted : Counted w'
  bytes : pushed w' = pushed w ++ bytes
  stamp : w'.stamp = w.stamp
  closed : w'.closed = w.closed

theorem Pushed.trans {w'' : StoredZipWriter} {bytes' : Bytes} (h : Pushed w bytes w') (h' : Pushed w' bytes' w'') :
    Pushed w (bytes ++ bytes') w'' :=
  ⟨h'.counted, by rw [h'.bytes, h.bytes, List.append_assoc], h'.stamp.trans h.stamp, h'.closed.trans h.closed⟩

/-- What is given to the writer, and leaves its entries as they are. -/
structure Kept (w w' : StoredZipWriter) : Prop where
  entries : w'.entries = w.entries
  opened : w'.opened = w.opened

theorem pushed_flush (h : Counted w) : Pushed w [] w.flush ∧ Kept w w.flush := by
  unfold StoredZipWriter.flush
  split_ifs with hn
  · exact ⟨⟨h, (List.append_nil _).symm, rfl, rfl⟩, rfl, rfl⟩
  · have hb : pushed { w with output := w.output ++ w.pending.flatten, pending := [], pendingBytes := 0 } =
        pushed w := by
      simp [pushed]
    refine ⟨⟨⟨?_, h.limit, rfl⟩, ?_, rfl, rfl⟩, rfl, rfl⟩
    · rw [hb]
      exact h.offset
    · rw [hb, List.append_nil]

theorem pushed_push (hw : Counted w) (h : w.push chunk = .ok w') : Pushed w chunk w' ∧ Kept w w' := by
  unfold StoredZipWriter.push at h
  dsimp only at h
  split at h
  · cases h
  · next hl =>
    have hwait : ∀ waiting : StoredZipWriter, waiting = { w with
          offset := w.offset + chunk.length
          pending := w.pending ++ [chunk]
          pendingBytes := w.pendingBytes + chunk.length } →
        Pushed w chunk waiting ∧ Kept w waiting := by
      rintro waiting rfl
      have hbyt : pushed { w with
          offset := w.offset + chunk.length
          pending := w.pending ++ [chunk]
          pendingBytes := w.pendingBytes + chunk.length } = pushed w ++ chunk := by
        simp [pushed]
      refine ⟨⟨⟨?_, by simpa using hl, ?_⟩, hbyt, rfl, rfl⟩, rfl, rfl⟩
      · rw [hbyt, List.length_append, ← hw.offset]
      · simp [hw.waiting]
    obtain ⟨hp, hk⟩ := hwait _ rfl
    rw [← Except.ok.inj h]
    split_ifs
    · obtain ⟨hf, hk'⟩ := pushed_flush hp.counted
      have hb := hp.trans hf
      rw [List.append_nil] at hb
      exact ⟨hb, hk'.entries.trans hk.entries, hk'.opened.trans hk.opened⟩
    · exact ⟨hp, hk⟩

theorem alloc_ok {fields : Bytes.Fields} (h : alloc fields = .ok bytes) : Fits fields ∧ bytes = record fields := by
  unfold alloc at h
  split_ifs at h with hf
  exact ⟨hf, (Except.ok.inj h).symm⟩

/-! What an entry comes to. -/

/-- The checksum of an entry. -/
def checksumOf (chunks : List Bytes) (value : UInt32) : UInt32 :=
  chunks.foldl (fun value chunk => crc32 chunk value) value

/-- The fields of the local header of an entry. -/
def headerOf (stamp : LocalTime) (entry : ArchiveEntry) : Bytes.Fields :=
  localFields (dosTime stamp).1 (dosTime stamp).2 (utf8 entry.name).length

/-- The local part of an entry. -/
def localPart (stamp : LocalTime) (entry : ArchiveEntry) : Bytes :=
  record (headerOf stamp entry) ++ (utf8 entry.name ++ (entry.content ++
    record (descriptorFields (checksumOf entry.chunks 0) entry.content.length)))

/-- The record of an entry whose local part is at an offset. -/
def recordOf (stamp : LocalTime) (offset : ℕ) (entry : ArchiveEntry) : ZipEntryRecord where
  name := utf8 entry.name
  offset := offset
  size := entry.content.length
  checksum := checksumOf entry.chunks 0
  time := (dosTime stamp).1
  date := (dosTime stamp).2

theorem pushed_write : ∀ {chunks : List Bytes} {w : StoredZipWriter} {o : ZipEntryRecord}, Counted w →
    w.opened = some o → chunks.foldlM StoredZipWriter.write w = .ok w' →
    Pushed w chunks.flatten w' ∧ w'.entries = w.entries ∧ w'.opened = some { o with
      size := o.size + chunks.flatten.length
      checksum := checksumOf chunks o.checksum } := by
  intro chunks
  induction chunks with
  | nil =>
    intro w o hw ho h
    cases h
    exact ⟨⟨hw, (List.append_nil _).symm, rfl, rfl⟩, rfl, ho⟩
  | cons chunk chunks ih =>
    intro w o hw ho h
    rw [List.foldlM_cons] at h
    obtain ⟨w₁, hwri, h⟩ := bind_eq_ok h
    unfold StoredZipWriter.write at hwri
    rw [ho] at hwri
    dsimp only at hwri
    split at hwri
    · cases hwri
    · obtain ⟨hp, hk⟩ := pushed_push hw.reopen hwri
      obtain ⟨hr, he, ho'⟩ := ih hp.counted hk.opened h
      have hb : Pushed w (chunk ++ chunks.flatten) w' := by
        refine ⟨hr.counted, ?_, hr.stamp.trans hp.stamp, hr.closed.trans hp.closed⟩
        rw [hr.bytes, hp.bytes, ← List.append_assoc]
        rfl
      refine ⟨hb, he.trans hk.entries, ?_⟩
      rw [ho', List.flatten_cons, List.length_append, ← Nat.add_assoc]
      rfl

/-- **An entry is written**: its local part is put out, and its record kept. -/
theorem pushed_writeEntry (hw : Counted w) (ho : w.opened = none) (h : writeEntry w entry = .ok w') :
    Pushed w (localPart w.stamp entry) w' ∧ w'.opened = none ∧
      w'.entries = w.entries ++ [recordOf w.stamp w.offset entry] ∧ Fits (headerOf w.stamp entry) := by
  unfold writeEntry at h
  obtain ⟨w₁, ha, h⟩ := bind_eq_ok h
  obtain ⟨w₂, hwri, hc⟩ := bind_eq_ok h
  unfold StoredZipWriter.addEntry at ha
  rw [ho] at ha
  dsimp only at ha
  split at ha
  · cases ha
  · obtain ⟨header, hh, ha⟩ := bind_eq_ok ha
    obtain ⟨hf, rfl⟩ := alloc_ok hh
    obtain ⟨w₃, hpush₃, hpush₁⟩ := bind_eq_ok ha
    obtain ⟨hpushed₃, hkept₃⟩ := pushed_push hw.reopen hpush₃
    obtain ⟨hpushed₁, hkept₁⟩ := pushed_push hpushed₃.counted hpush₁
    have hopened₁ := hkept₁.opened.trans hkept₃.opened
    obtain ⟨hpushed₂, hentries₂, hopened₂⟩ := pushed_write hpushed₁.counted hopened₁ hwri
    unfold StoredZipWriter.closeEntry at hc
    rw [hopened₂] at hc
    obtain ⟨descriptor, hd, hc⟩ := bind_eq_ok hc
    obtain ⟨-, rfl⟩ := alloc_ok hd
    obtain ⟨w₄, hpush₄, hc⟩ := bind_eq_ok hc
    obtain ⟨hpushed₄, hkept₄⟩ := pushed_push hpushed₂.counted hpush₄
    rw [← Except.ok.inj hc]
    have hentries₁ := hkept₁.entries.trans hkept₃.entries
    have hall := ((hpushed₃.trans hpushed₁).trans hpushed₂).trans hpushed₄
    refine ⟨⟨⟨hall.counted.offset, hall.counted.limit, hall.counted.waiting⟩, ?_, hall.stamp, hall.closed⟩, rfl, ?_, hf⟩
    · show pushed w₄ = _
      rw [hall.bytes, localPart, List.append_assoc, List.append_assoc, Nat.zero_add]
      rfl
    · show w₄.entries ++ _ = _
      rw [hkept₄.entries, hentries₂, hentries₁, Nat.zero_add]
      rfl

/-- The records of entries whose local parts begin at an offset. -/
def located (stamp : LocalTime) : ℕ → List ArchiveEntry → List ZipEntryRecord
  | _, [] => []
  | offset, entry :: entries =>
    recordOf stamp offset entry :: located stamp (offset + (localPart stamp entry).length) entries

/-- The part of the central directory that lists an entry. -/
def centralPart (entry : ZipEntryRecord) : Bytes :=
  record (centralFields entry) ++ entry.name

theorem pushed_entries : ∀ {entries : List ArchiveEntry} {w : StoredZipWriter}, Counted w → w.opened = none →
    entries.foldlM writeEntry w = .ok w' → Pushed w (entries.flatMap (localPart w.stamp)) w' ∧ w'.opened = none ∧
      w'.entries = w.entries ++ located w.stamp w.offset entries ∧ ∀ e ∈ entries, Fits (headerOf w.stamp e) := by
  intro entries
  induction entries with
  | nil =>
    intro w hw ho h
    cases h
    exact ⟨⟨hw, (List.append_nil _).symm, rfl, rfl⟩, ho, (List.append_nil _).symm, by simp⟩
  | cons entry entries ih =>
    intro w hw ho h
    rw [List.foldlM_cons] at h
    obtain ⟨w₁, hwri, h⟩ := bind_eq_ok h
    obtain ⟨hp, hopened₁, he, hf⟩ := pushed_writeEntry hw ho hwri
    obtain ⟨hr, ho', he', hf'⟩ := ih hp.counted hopened₁ h
    have hoff : w₁.offset = w.offset + (localPart w.stamp entry).length := by
      rw [hp.counted.offset, hp.bytes, List.length_append, ← hw.offset]
    rw [hp.stamp] at hr he' hf'
    refine ⟨hp.trans hr, ho', ?_, List.forall_mem_cons.2 ⟨hf, hf'⟩⟩
    rw [he', he, hoff, List.append_assoc]
    rfl

theorem pushed_central : ∀ {records : List ZipEntryRecord} {w : StoredZipWriter}, Counted w →
    records.foldlM StoredZipWriter.pushCentral w = .ok w' →
      Pushed w (records.flatMap centralPart) w' ∧ Kept w w' ∧ ∀ r ∈ records, Fits (centralFields r) := by
  intro records
  induction records with
  | nil =>
    intro w hw h
    cases h
    exact ⟨⟨hw, (List.append_nil _).symm, rfl, rfl⟩, ⟨rfl, rfl⟩, by simp⟩
  | cons r records ih =>
    intro w hw h
    rw [List.foldlM_cons] at h
    obtain ⟨w₁, hp, h⟩ := bind_eq_ok h
    unfold StoredZipWriter.pushCentral at hp
    obtain ⟨header, hh, hp⟩ := bind_eq_ok hp
    obtain ⟨hf, rfl⟩ := alloc_ok hh
    obtain ⟨w₂, hpush₂, hpush₁⟩ := bind_eq_ok hp
    obtain ⟨hpushed₂, hkept₂⟩ := pushed_push hw hpush₂
    obtain ⟨hpushed₁, hkept₁⟩ := pushed_push hpushed₂.counted hpush₁
    obtain ⟨hr, hk, hf'⟩ := ih hpushed₁.counted h
    refine ⟨(hpushed₂.trans hpushed₁).trans hr, ⟨?_, ?_⟩, List.forall_mem_cons.2 ⟨hf, hf'⟩⟩
    · exact hk.entries.trans (hkept₁.entries.trans hkept₂.entries)
    · exact hk.opened.trans (hkept₁.opened.trans hkept₂.opened)

/-- Where nothing waits, all that was given is written. -/
theorem output_flush (h : Counted w) : w.flush.output = pushed w := by
  unfold StoredZipWriter.flush
  split_ifs with hn
  · have hw := h.waiting
    rw [hn] at hw
    rw [pushed, List.eq_nil_of_length_eq_zero hw.symm, List.append_nil]
  · rfl

/-- The bytes of an archive: its local parts, its central directory, and its end record. -/
structure Layout (stamp : LocalTime) (entries : List ArchiveEntry) (bytes : Bytes) : Prop where
  written : bytes = entries.flatMap (localPart stamp) ++ ((located stamp 0 entries).flatMap centralPart ++
    record (endFields entries.length ((located stamp 0 entries).flatMap centralPart).length
      (entries.flatMap (localPart stamp)).length))
  limit : bytes.length ≤ SIZE_LIMIT
  headers : ∀ e ∈ entries, Fits (headerOf stamp e)
  centrals : ∀ r ∈ located stamp 0 entries, Fits (centralFields r)
  last : Fits (endFields entries.length ((located stamp 0 entries).flatMap centralPart).length
    (entries.flatMap (localPart stamp)).length)

theorem length_located : ∀ {entries : List ArchiveEntry} {offset : ℕ},
    (located stamp offset entries).length = entries.length := by
  intro entries
  induction entries with
  | nil => exact rfl
  | cons entry entries ih => exact congrArg (· + 1) ih

/-- **An archive that is not refused** is laid out so. -/
theorem archive_layout (h : archive stamp entries = .ok bytes) : Layout stamp entries bytes := by
  unfold archive at h
  obtain ⟨w₁, he, h⟩ := bind_eq_ok h
  obtain ⟨w₂, hfin, h⟩ := bind_eq_ok h
  have hn : Counted { stamp } := ⟨rfl, Nat.zero_le _, rfl⟩
  obtain ⟨hpushed₁, hope, hr, hh⟩ := pushed_entries hn rfl he
  have hlen := hpushed₁.counted.offset
  rw [hpushed₁.bytes] at hlen
  unfold StoredZipWriter.finish at hfin
  rw [hpushed₁.closed, if_neg Bool.false_ne_true] at hfin
  obtain ⟨w₃, hclo, hfin⟩ := bind_eq_ok hfin
  unfold StoredZipWriter.closeEntry at hclo
  rw [hope] at hclo
  cases hclo
  obtain ⟨w₄, hc, hfin⟩ := bind_eq_ok hfin
  obtain ⟨hpushed₄, hkept₄, hcen⟩ := pushed_central hpushed₁.counted hc
  obtain ⟨last, hl, hfin⟩ := bind_eq_ok hfin
  obtain ⟨hf, rfl⟩ := alloc_ok hl
  obtain ⟨w₅, hp, hfin⟩ := bind_eq_ok hfin
  obtain ⟨hpushed₅, -⟩ := pushed_push hpushed₄.counted hp
  have hsta : w₁.offset = (entries.flatMap (localPart stamp)).length := hlen
  have ha : w₁.entries = located stamp 0 entries := hr
  have hs : w₄.offset - w₁.offset = ((located stamp 0 entries).flatMap centralPart).length := by
    rw [hpushed₄.counted.offset, hpushed₄.bytes, List.length_append, ← hpushed₁.counted.offset, ha]
    exact Nat.add_sub_cancel_left ..
  rw [hkept₄.entries, ha, length_located, hs, hsta] at hf hpushed₅
  have ho : bytes = pushed w₅ := by
    rw [← Except.ok.inj h, ← Except.ok.inj hfin]
    exact output_flush hpushed₅.counted
  refine ⟨?_, ?_, hh, ?_, hf⟩
  · rw [ho, hpushed₅.bytes, hpushed₄.bytes, hpushed₁.bytes, ha, List.append_assoc]
    rfl
  · rw [ho, ← hpushed₅.counted.offset]
    exact hpushed₅.counted.limit
  · rw [← ha]
    exact hcen

end Writer

/-! ### The reader -/

section Reader

variable {stamp : LocalTime} {entries : List ArchiveEntry} {bytes : Bytes}

variable {before rest : Bytes}

/-- A field of a record that stands in a file is read back. -/
theorem read_field (fields : Bytes.Fields) (i : ℕ) {file : Bytes} {w n offset : ℕ}
    (ho : width (fields.take i) = offset) (hfie : fields[i]? = some (w, n)) (hfile : file = before ++ (record fields ++ rest)) (hf : Fits fields) :
    readAt w file (before.length + offset) = n := by
  obtain ⟨hi, hg⟩ := List.getElem?_eq_some_iff.1 hfie
  have hs : fields = fields.take i ++ (w, n) :: fields.drop (i + 1) := by
    rw [← hg, ← List.drop_eq_getElem_cons hi, List.take_append_drop]
  rw [hfile, readAt_append, ← ho]
  rw [hs] at hf
  have hr := @readAt_record _ _ _ _ rest hf
  rw [← hs] at hr
  exact hr

/-- A part of a file, between what is before it and what is behind. -/
theorem subarray_append {part : Bytes} {start stop : ℕ} (hsta : start = before.length)
    (hs : stop = before.length + part.length) : subarray (before ++ (part ++ rest)) start stop = part := by
  rw [subarray, hsta, hs, List.drop_left, Nat.add_sub_cancel_left, List.take_left]

/-- The entry a record is read as. -/
def listed (r : ZipEntryRecord) : ZipEntry where
  name := latin1 r.name
  method := STORED
  encrypted := false
  compressedSize := r.size
  localOffset := r.offset

/-- Entries are listed behind each other, unless a name is there. -/
def listAll : List ZipEntry → List ZipEntry → Except String (List ZipEntry)
  | seen, [] => .ok seen
  | seen, entry :: entries =>
    if seen.any fun e => e.name = entry.name then .error "The archive names one part twice."
    else listAll (seen ++ [entry]) entries

/-- They are listed where their names are distinct. -/
theorem listAll_iff : ∀ {entries seen result : List ZipEntry}, (seen.map (·.name)).Nodup →
    (listAll seen entries = .ok result ↔ result = seen ++ entries ∧ ((seen ++ entries).map (·.name)).Nodup) := by
  intro entries
  induction entries with
  | nil =>
    intro seen result hs
    rw [listAll, List.append_nil]
    constructor
    · intro h
      exact ⟨(Except.ok.inj h).symm, hs⟩
    · rintro ⟨rfl, -⟩
      rfl
  | cons entry entries ih =>
    intro seen result hs
    rw [listAll]
    split_ifs with ht
    · refine iff_of_false (by nofun) fun h => ?_
      obtain ⟨e, he, hn⟩ := List.any_eq_true.1 ht
      have hnod := h.2
      rw [List.map_append, List.map_cons] at hnod
      refine (List.nodup_append.1 hnod).2.2 _ (List.mem_map_of_mem he) _ List.mem_cons_self ?_
      exact of_decide_eq_true hn
    · have hs' : ((seen ++ [entry]).map (·.name)).Nodup := by
        rw [List.map_append, List.map_singleton]
        refine List.nodup_append.2 ⟨hs, List.nodup_singleton _, ?_⟩
        rintro name hn _ hn' rfl
        obtain ⟨e, he, hsame⟩ := List.mem_map.1 hn
        refine ht (List.any_eq_true.2 ⟨e, he, ?_⟩)
        rw [hsame, List.mem_singleton.1 hn']
        exact decide_eq_true rfl
      rw [ih hs', List.append_assoc, List.singleton_append]

/-- What a package can hold. -/
theorem located_lt : ∀ {entries : List ArchiveEntry} {offset : ℕ}, ∀ r ∈ located stamp offset entries,
    r.offset + r.size < offset + (entries.flatMap (localPart stamp)).length := by
  intro entries
  induction entries with
  | nil =>
    intro offset r hr
    cases hr
  | cons entry entries ih =>
    intro offset r hr
    have hl : (localPart stamp entry).length = 30 + ((utf8 entry.name).length + (entry.content.length + 16)) := by
      simp [localPart, headerOf, localFields, descriptorFields, width]
    rw [List.flatMap_cons, List.length_append]
    rcases List.mem_cons.1 hr with rfl | hr
    · show offset + entry.content.length < _
      omega
    · have hrest := ih r hr
      omega

variable [ZipHost]

/-- **The loop over the directory** lists the records that were written. -/
theorem readCentral_records {bound : ℕ} : ∀ {records : List ZipEntryRecord} {before : Bytes} {seen : List ZipEntry},
    bytes = before ++ (records.flatMap centralPart ++ rest) →
    bound = before.length + (records.flatMap centralPart).length →
    (∀ r ∈ records, Fits (centralFields r) ∧ r.size < ZIP64_MARKER ∧ r.offset < ZIP64_MARKER) →
    readCentral bytes bound records.length before.length seen = listAll seen (records.map listed) := by
  intro records
  induction records with
  | nil => exact fun _ _ _ => rfl
  | cons r records ih =>
    intro before seen hbyt hb hr
    obtain ⟨⟨hfits, hs, ho⟩, hrest⟩ := List.forall_mem_cons.1 hr
    have hh : (record (centralFields r)).length = 46 := by
      simp [centralFields, width]
    have hf : bytes = before ++ (record (centralFields r) ++ (r.name ++ (records.flatMap centralPart ++ rest))) := by
      rw [hbyt, List.flatMap_cons, centralPart]
      simp only [List.append_assoc]
    rw [List.flatMap_cons, centralPart, List.length_append, List.length_append, hh] at hb
    -- The fields the loop reads, each behind those before it.
    have hsig : readUInt32LE bytes (before.length + 0) = CENTRAL_SIGNATURE :=
      read_field (centralFields r) 0 (by simp [centralFields, width]) rfl hf hfits
    rw [Nat.add_zero] at hsig
    have hfla : readUInt16LE bytes (before.length + 8) = STREAMING_FLAG :=
      read_field (centralFields r) 3 (by simp [centralFields, width]) rfl hf hfits
    have hm : readUInt16LE bytes (before.length + 10) = STORED :=
      read_field (centralFields r) 4 (by simp [centralFields, width]) rfl hf hfits
    have hcom : readUInt32LE bytes (before.length + 20) = r.size :=
      read_field (centralFields r) 8 (by simp [centralFields, width]) rfl hf hfits
    have hu : readUInt32LE bytes (before.length + 24) = r.size :=
      read_field (centralFields r) 9 (by simp [centralFields, width]) rfl hf hfits
    have hn : readUInt16LE bytes (before.length + 28) = r.name.length :=
      read_field (centralFields r) 10 (by simp [centralFields, width]) rfl hf hfits
    have he : readUInt16LE bytes (before.length + 30) = 0 :=
      read_field (centralFields r) 11 (by simp [centralFields, width]) rfl hf hfits
    have hc : readUInt16LE bytes (before.length + 32) = 0 :=
      read_field (centralFields r) 12 (by simp [centralFields, width]) rfl hf hfits
    have hl : readUInt32LE bytes (before.length + 42) = r.offset :=
      read_field (centralFields r) 16 (by simp [centralFields, width]) rfl hf hfits
    have ht : subarray bytes (before.length + 46) (before.length + 46 + r.name.length) = r.name := by
      rw [hf, ← List.append_assoc]
      exact subarray_append (by rw [List.length_append, hh]) (by rw [List.length_append, hh])
    have hnext : before.length + 46 + r.name.length = (before ++ centralPart r).length := by
      rw [centralPart, List.length_append, List.length_append, hh, Nat.add_assoc]
    rw [List.length_cons, readCentral, if_neg (by omega), if_neg (not_not.2 hsig), hfla, hm, hcom,
      hu, hn, he, hc, hl]
    dsimp only
    have hlat : entryName STREAMING_FLAG r.name = latin1 r.name := if_pos (by decide)
    rw [ht, hlat, if_neg (by omega), if_neg (by omega), Nat.add_zero, Nat.add_zero, hnext]
    have htail : bytes = before ++ centralPart r ++ (records.flatMap centralPart ++ rest) := by
      rw [hbyt, List.flatMap_cons, List.append_assoc, List.append_assoc]
    have hb' : bound = (before ++ centralPart r).length + (records.flatMap centralPart).length := by
      rw [← hnext]
      omega
    rw [ih htail hb' hrest, List.map_cons, listAll]
    rfl

omit [ZipHost] in
/-- The search for the end record finds the one at the end. -/
theorem endRecord_of {last : ℕ} (hlen : bytes.length = last + END_RECORD)
    (hs : readUInt32LE bytes last = END_SIGNATURE) : endRecord bytes = .ok last := by
  have hl : ¬ bytes.length < END_RECORD := by omega
  have hf : ((List.range (min last MAX_COMMENT + 1)).map (last - ·)).find?
      (fun place => readUInt32LE bytes place = END_SIGNATURE) = some last := by
    rw [List.range_succ_eq_map, List.map_cons, List.find?_cons_of_pos]
    · rfl
    · exact decide_eq_true hs
  unfold endRecord
  dsimp only
  rw [if_neg hl, hlen, Nat.add_sub_cancel, hf]

omit [ZipHost] in
theorem Layout.length (h : Layout stamp entries bytes) : bytes.length =
    (entries.flatMap (localPart stamp)).length + ((located stamp 0 entries).flatMap centralPart).length +
      END_RECORD := by
  rw [h.written]
  simp [endFields, width, END_RECORD, Nat.add_assoc]

/-- **What is written opens**, but for the count that stands for ZIP64 and names that are read twice. -/
theorem openPackage_archive {limits : ZipLimits} (h : Layout stamp entries bytes)
    (hlim : entries.length ≤ limits.entries) :
    openPackage bytes limits = if entries.length = 0xffff then .error "A ZIP64 archive is not read."
      else (listAll [] ((located stamp 0 entries).map listed)).map fun found =>
        { bytes, entries := found, centralOffset := (entries.flatMap (localPart stamp)).length,
          remaining := limits.inflatedBytes } := by
  have hlen := h.length
  have hs := h.limit
  have hfile := h.written
  have hf := h.last
  have hc := h.centrals
  have hloc : ∀ r ∈ located stamp 0 entries, r.offset + r.size < (entries.flatMap (localPart stamp)).length := by
    intro r hr
    have hlt := located_lt r hr
    omega
  have hrec : (located stamp 0 entries).length = entries.length := length_located
  generalize entries.flatMap (localPart stamp) = before at hlen hfile hf hloc ⊢
  generalize hcen : (located stamp 0 entries).flatMap centralPart = central at hlen hfile hf ⊢
  have hm : SIZE_LIMIT < ZIP64_MARKER := by decide
  have hl : bytes = before ++ central ++ (record (endFields entries.length central.length before.length) ++ []) := by
    rw [hfile, List.append_nil, List.append_assoc]
  have hp : (before ++ central).length = before.length + central.length := List.length_append
  have hsig : readUInt32LE bytes ((before ++ central).length + 0) = END_SIGNATURE :=
    read_field (endFields _ _ _) 0 (by simp [width]) rfl hl hf
  have hd : readUInt16LE bytes ((before ++ central).length + 4) = 0 :=
    read_field (endFields _ _ _) 1 (by simp [endFields, width]) rfl hl hf
  have hcentralDisk : readUInt16LE bytes ((before ++ central).length + 6) = 0 :=
    read_field (endFields _ _ _) 2 (by simp [endFields, width]) rfl hl hf
  have hcou : readUInt16LE bytes ((before ++ central).length + 10) = entries.length :=
    read_field (endFields _ _ _) 4 (by simp [endFields, width]) rfl hl hf
  have hread : readUInt32LE bytes ((before ++ central).length + 12) = central.length :=
    read_field (endFields _ _ _) 5 (by simp [endFields, width]) rfl hl hf
  have hsta : readUInt32LE bytes ((before ++ central).length + 16) = before.length :=
    read_field (endFields _ _ _) 6 (by simp [endFields, width]) rfl hl hf
  have he : endRecord bytes = .ok (before ++ central).length :=
    endRecord_of (by rw [hlen, hp]) (by simpa using hsig)
  have hloop : readCentral bytes (before.length + central.length) entries.length before.length [] =
      listAll [] ((located stamp 0 entries).map listed) := by
    have hcut : bytes = before ++ ((located stamp 0 entries).flatMap centralPart ++
        record (endFields entries.length central.length before.length)) := by
      rw [hcen]
      exact hfile
    rw [← hrec]
    refine readCentral_records hcut (by rw [hcen]) fun r hr => ?_
    have hlt := hloc r hr
    exact ⟨hc r hr, by omega, by omega⟩
  unfold openPackage
  rw [he]
  show (if _ then _ else _) = _
  rw [hd, hcentralDisk, hcou, hread, hsta, hloop, if_neg (by simp)]
  by_cases hz : entries.length = 0xffff
  · rw [if_pos (.inl hz), if_pos hz]
  · rw [if_neg (by omega), if_neg hz, if_neg (by omega), if_neg (by omega)]
    cases listAll [] ((located stamp 0 entries).map listed) <;> rfl

end Reader

/-! ### What is read of a part -/

section Parts

variable {stamp : LocalTime} {entries : List ArchiveEntry} {bytes : Bytes} {p : ZipPackage} {entry : ArchiveEntry}

/-- Each record is of an entry, behind the local parts of those before it. -/
theorem mem_located : ∀ {entries : List ArchiveEntry} {offset : ℕ}, entry ∈ entries →
    ∃ before behind, entries = before ++ entry :: behind ∧
      recordOf stamp (offset + (before.flatMap (localPart stamp)).length) entry ∈ located stamp offset entries := by
  intro entries
  induction entries with
  | nil => exact fun h => (nomatch h)
  | cons e entries ih =>
    intro offset h
    rcases List.mem_cons.1 h with rfl | h
    · exact ⟨[], entries, rfl, List.mem_cons_self⟩
    · obtain ⟨before, behind, rfl, hm⟩ := @ih (offset + (localPart stamp e).length) h
      refine ⟨e :: before, behind, rfl, List.mem_cons_of_mem _ ?_⟩
      rw [List.flatMap_cons, List.length_append, ← Nat.add_assoc]
      exact hm

theorem names_located : ∀ {entries : List ArchiveEntry} {offset : ℕ},
    ((located stamp offset entries).map listed).map (·.name) = entries.map fun e => latin1 (utf8 e.name) := by
  intro entries
  induction entries with
  | nil => exact rfl
  | cons e entries ih =>
    intro offset
    exact congrArg (latin1 (utf8 e.name) :: ·) ih

/-- The data of a part that was written. -/
theorem data_located {offset : ℕ} {before behind : List ArchiveEntry} (hb : p.bytes = bytes)
    (hc : p.centralOffset = (entries.flatMap (localPart stamp)).length) (h : Layout stamp entries bytes)
    (hspl : entries = before ++ entry :: behind) (ho : offset = (before.flatMap (localPart stamp)).length) :
    p.data (listed (recordOf stamp offset entry)) = .ok entry.content := by
  have hfits := h.headers entry (by rw [hspl]; simp)
  have hl : (record (headerOf stamp entry)).length = 30 := by
    simp [headerOf, localFields, width]
  have hp : (localPart stamp entry).length = 30 + ((utf8 entry.name).length + (entry.content.length + 16)) := by
    simp [localPart, headerOf, localFields, descriptorFields, width]
  have hr : offset + (localPart stamp entry).length ≤ p.centralOffset := by
    rw [hc, hspl, ho]
    simp
  have hf : ∃ rest, bytes = before.flatMap (localPart stamp) ++
      (record (headerOf stamp entry) ++ (utf8 entry.name ++ (entry.content ++ rest))) := by
    rw [h.written, hspl, List.flatMap_append, List.flatMap_cons, localPart]
    simp only [List.append_assoc]
    exact ⟨_, rfl⟩
  obtain ⟨rest, hf⟩ := hf
  have hsig : readUInt32LE bytes (offset + 0) = LOCAL_SIGNATURE := by
    rw [ho]
    exact read_field (headerOf stamp entry) 0 (by simp [width]) rfl hf hfits
  have hn : readUInt16LE bytes (offset + 26) = (utf8 entry.name).length := by
    rw [ho]
    exact read_field (headerOf stamp entry) 7 (by simp [headerOf, localFields, width]) rfl hf hfits
  have he : readUInt16LE bytes (offset + 28) = 0 := by
    rw [ho]
    exact read_field (headerOf stamp entry) 8 (by simp [headerOf, localFields, width]) rfl hf hfits
  have hd : subarray bytes (offset + 30 + (utf8 entry.name).length)
      (offset + 30 + (utf8 entry.name).length + entry.content.length) = entry.content := by
    rw [hf, ← List.append_assoc, ← List.append_assoc]
    have hs : (before.flatMap (localPart stamp) ++ record (headerOf stamp entry) ++ utf8 entry.name).length =
        offset + 30 + (utf8 entry.name).length := by
      rw [List.length_append, List.length_append, hl, ho]
    exact subarray_append hs.symm (by rw [hs])
  rw [Nat.add_zero] at hsig
  unfold ZipPackage.data listed recordOf
  dsimp only
  rw [hb, hn, he, if_neg, if_neg (by omega), Nat.add_zero, hd]
  rintro (hcut | hw)
  · omega
  · exact hw hsig

/-- The chunks of a stored part are its data. -/
theorem flatten_storedChunks : ∀ {fuel : ℕ} {data : Bytes}, data.length ≤ fuel →
    (ZipPackage.storedChunks fuel data).flatten = data := by
  intro fuel
  induction fuel with
  | zero =>
    intro data h
    rw [List.eq_nil_of_length_eq_zero (Nat.le_zero.1 h)]
    rfl
  | succ fuel ih =>
    intro data h
    rw [ZipPackage.storedChunks]
    split_ifs with hn
    · rw [hn]
      rfl
    · have hp : 0 < data.length := List.length_pos_iff.2 hn
      have hc : 0 < CHUNK := by decide
      rw [List.flatten_cons, ih (by rw [List.length_drop]; omega), List.take_append_drop]

/-- What is spent within the budget is yielded whole. -/
theorem spendAll_within : ∀ {chunks : List Bytes} {p : ZipPackage}, p.exhausted = false →
    chunks.flatten.length ≤ p.remaining →
      (ZipPackage.spendAll chunks p).1.flatten = chunks.flatten ∧
      (ZipPackage.spendAll chunks p).2 = { p with remaining := p.remaining - chunks.flatten.length } := by
  intro chunks
  induction chunks with
  | nil => exact fun _ _ => ⟨rfl, rfl⟩
  | cons chunk chunks ih =>
    intro p hf hb
    rw [List.flatten_cons, List.length_append] at hb
    have hs : p.spend chunk = (chunk, { p with remaining := p.remaining - chunk.length }) :=
      if_pos (by omega)
    rw [ZipPackage.spendAll, hs]
    dsimp only
    obtain ⟨hy, hl⟩ := @ih { p with remaining := p.remaining - chunk.length } hf (by dsimp only; omega)
    have hg : ¬ p.exhausted = true := by
      simp [hf]
    rw [if_neg hg, hl]
    refine ⟨?_, ?_⟩
    · split_ifs with he
      · rw [List.flatten_cons, List.flatten_cons, hy]
      · rw [hy, List.flatten_cons, List.eq_nil_of_length_eq_zero (Nat.le_zero.1 (not_lt.1 he)), List.nil_append]
    · rw [List.flatten_cons, List.length_append, Nat.sub_sub]

variable [ZipHost]

/-- A package of the archive, as far as it is not spent. -/
structure OpenedOf (stamp : LocalTime) (entries : List ArchiveEntry) (bytes : Bytes) (p : ZipPackage) : Prop where
  file : p.bytes = bytes
  parts : p.entries = (located stamp 0 entries).map listed
  central : p.centralOffset = (entries.flatMap (localPart stamp)).length
  fresh : p.exhausted = false

/-- **A part is read back** within the budget. -/
theorem read_part (h : Layout stamp entries bytes) (hp : OpenedOf stamp entries bytes p)
    (ha : ∀ e ∈ entries, isAscii e.name = true) (hn : (p.entries.map (·.name)).Nodup)
    (he : entry ∈ entries) (hb : entry.content.length ≤ p.remaining) :
    ((p.read entry.name).1.chunks.flatten, (p.read entry.name).1.error) = (entry.content, none) ∧
      (p.read entry.name).2 = { p with remaining := p.remaining - entry.content.length } := by
  obtain ⟨before, behind, hs, hm⟩ := @mem_located stamp entry entries 0 he
  rw [Nat.zero_add] at hm
  generalize ho : (before.flatMap (localPart stamp)).length = offset at hm
  have hlis : listed (recordOf stamp offset entry) ∈ p.entries := by
    rw [hp.parts]
    exact List.mem_map_of_mem hm
  have hname : (listed (recordOf stamp offset entry)).name = entry.name := latin1_utf8.2 (ha entry he)
  have hf := Table.find?_of_mem ZipEntry.name hn hlis
  rw [hname] at hf
  have hd := data_located hp.file hp.central h hs ho.symm
  have hc : (ZipPackage.storedChunks entry.content.length entry.content).flatten = entry.content :=
    flatten_storedChunks le_rfl
  obtain ⟨hy, hl⟩ := @spendAll_within (ZipPackage.storedChunks entry.content.length entry.content) p
    hp.fresh (by rw [hc]; exact hb)
  have hr : p.read entry.name = p.readData STORED entry.content := by
    unfold ZipPackage.read
    rw [hf]
    dsimp only
    rw [hd]
    rfl
  rw [hc] at hy hl
  rw [hr]
  unfold ZipPackage.readData
  rw [if_pos rfl]
  dsimp only
  rw [hy, hl]
  exact ⟨rfl, rfl⟩

/-- **Parts are read back** one behind the other, within the budget. -/
theorem readMany_parts (h : Layout stamp entries bytes) (ha : ∀ e ∈ entries, isAscii e.name = true) :
    ∀ {parts : List ArchiveEntry} {p : ZipPackage}, OpenedOf stamp entries bytes p →
      (p.entries.map (·.name)).Nodup → parts ⊆ entries →
      (parts.map fun part => part.content.length).sum ≤ p.remaining →
        (p.readMany (parts.map (·.name))).1.map (fun reading => (reading.chunks.flatten, reading.error)) =
          parts.map (fun part => (part.content, none)) ∧
        (p.readMany (parts.map (·.name))).2.exhausted = false := by
  intro parts
  induction parts with
  | nil => exact fun hp _ _ _ => ⟨rfl, hp.fresh⟩
  | cons part parts ih =>
    intro p hp hn hpar hb
    rw [List.map_cons, List.sum_cons] at hb
    obtain ⟨hpart, hrest⟩ := List.cons_subset.1 hpar
    obtain ⟨hread, hl⟩ := read_part h hp ha hn hpart (by omega)
    have hp' : OpenedOf stamp entries bytes (p.read part.name).2 := by
      rw [hl]
      exact ⟨hp.file, hp.parts, hp.central, hp.fresh⟩
    have hn' : ((p.read part.name).2.entries.map (·.name)).Nodup := by
      rw [hl]
      exact hn
    obtain ⟨hr, hf⟩ := ih hp' hn' hrest (by rw [hl]; dsimp only; omega)
    rw [List.map_cons, ZipPackage.readMany]
    dsimp only
    rw [List.map_cons, hread, hr, List.map_cons]
    exact ⟨rfl, hf⟩

end Parts

/-! ### Results -/

/-- **What is written is read back** where the names are in ASCII and distinct and their number is not the
one that stands for ZIP64, and in no other case. -/
theorem archive_round_trips_iff [ZipHost] {stamp : LocalTime} {entries : List ArchiveEntry} {bytes : Bytes}
    {limits : ZipLimits} (h : archive stamp entries = .ok bytes) (hlimit : entries.length ≤ limits.entries) :
    RoundTrips limits entries bytes ↔
      (∀ e ∈ entries, isAscii e.name = true) ∧ (entries.map (·.name)).Nodup ∧ entries.length ≠ 65535 := by
  have hlay := archive_layout h
  have ho := openPackage_archive hlay hlimit
  have hnam : ((located stamp 0 entries).map listed).map (·.name) = entries.map fun e => latin1 (utf8 e.name) :=
    names_located
  constructor
  · rintro ⟨p, hp, hs, -⟩
    rw [ho] at hp
    split_ifs at hp with hz
    cases hl : listAll [] ((located stamp 0 entries).map listed) with
    | error e =>
      rw [hl] at hp
      cases hp
    | ok found =>
      rw [hl] at hp
      obtain ⟨hf, hn⟩ := (listAll_iff (by simp)).1 hl
      rw [List.nil_append] at hf hn
      rw [← Except.ok.inj hp] at hs
      dsimp only at hs
      rw [hf, hnam] at hs
      rw [hnam, hs] at hn
      exact ⟨fun e he => latin1_utf8.1 (List.map_inj_left.1 hs e he), hn, hz⟩
  · rintro ⟨ha, hd, hz⟩
    have hs : (entries.map fun e => latin1 (utf8 e.name)) = entries.map (·.name) :=
      List.map_congr_left fun e he => latin1_utf8.2 (ha e he)
    have hn : (((located stamp 0 entries).map listed).map (·.name)).Nodup := by
      rw [hnam, hs]
      exact hd
    have hl : listAll [] ((located stamp 0 entries).map listed) = .ok ((located stamp 0 entries).map listed) :=
      (listAll_iff (by simp)).2 ⟨rfl, hn⟩
    rw [if_neg hz, hl] at ho
    refine ⟨_, ho, hnam.trans hs, fun parts hpar hb => ?_⟩
    exact readMany_parts hlay ha ⟨rfl, rfl, rfl, rfl⟩ hn hpar hb

/-! ### Samples -/

/-- A host that inflates nothing. -/
@[reducible] def storedOnly : ZipHost where
  utf8 := nameText
  inflateRaw _ := ([], true)

/-- The time of the samples. -/
def sampleStamp : LocalTime :=
  ⟨2026, 0, 2, 3, 4, 5⟩

/-- The limits of the samples. -/
def sampleLimits : ZipLimits :=
  ⟨10, 100⟩

/-- A list of entries whose names are in ASCII and distinct. -/
def plainEntries : List ArchiveEntry :=
  [⟨"rows.json", [[1, 2], [], [3]]⟩, ⟨"manifest.json", []⟩]

/-- What a package of a list of entries lists. -/
def listedNames (entries : List ArchiveEntry) : Except String (List String) := do
  let bytes ← archive sampleStamp entries
  let p ← @openPackage storedOnly bytes sampleLimits
  return p.entries.map (·.name)

/-- Two entries with plain names are read back. -/
theorem archive_round_trips_plain : ∃ bytes, archive sampleStamp plainEntries = .ok bytes ∧
    @RoundTrips storedOnly sampleLimits plainEntries bytes := by
  have hok : (archive sampleStamp plainEntries).toOption.isSome = true := by decide +kernel
  cases h : archive sampleStamp plainEntries with
  | error e =>
    rw [h] at hok
    cases hok
  | ok bytes =>
    exact ⟨bytes, rfl, (@archive_round_trips_iff storedOnly _ _ _ sampleLimits h (by decide)).2
      (by decide +kernel)⟩

/-- An archive whose package does not list the names of its entries is not read back. -/
theorem not_roundTrips {entries : List ArchiveEntry} {result : Except String (List String)}
    (h : listedNames entries = result) (hok : (archive sampleStamp entries).toOption.isSome = true)
    (hne : ∀ names, result = .ok names → names ≠ entries.map (·.name)) :
    ∃ bytes, archive sampleStamp entries = .ok bytes ∧ ¬ @RoundTrips storedOnly sampleLimits entries bytes := by
  unfold listedNames at h
  cases ha : archive sampleStamp entries with
  | error e =>
    rw [ha] at hok
    cases hok
  | ok bytes =>
    refine ⟨bytes, rfl, ?_⟩
    rintro ⟨p, hp, hs, -⟩
    rw [ha] at h
    have hn : result = .ok (p.entries.map (·.name)) := by
      rw [← h]
      show (@openPackage storedOnly bytes sampleLimits >>= _) = _
      rw [hp]
      rfl
    exact hne _ hn hs

/-- A name that is not in ASCII is read as another, and of two entries of one name none is read; neither is
refused when it is written. -/
theorem archive_not_read_back : (∃ bytes, archive sampleStamp [⟨"é.json", [[1]]⟩] = .ok bytes ∧
      ¬ @RoundTrips storedOnly sampleLimits [⟨"é.json", [[1]]⟩] bytes) ∧
    ∃ bytes, archive sampleStamp [⟨"a", []⟩, ⟨"a", []⟩] = .ok bytes ∧
      ¬ @RoundTrips storedOnly sampleLimits [⟨"a", []⟩, ⟨"a", []⟩] bytes := by
  constructor
  · have hn : listedNames [⟨"é.json", [[1]]⟩] = .ok ["Ã©.json"] := by decide +kernel
    refine not_roundTrips hn (by decide +kernel) fun names h => ?_
    rw [← Except.ok.inj h]
    decide
  · have hn : listedNames [⟨"a", []⟩, ⟨"a", []⟩] = .error "The archive names one part twice." := by
      decide +kernel
    exact not_roundTrips hn (by decide +kernel) (by nofun)

end Flowdular.Documents
