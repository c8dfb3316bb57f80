/-
# Hostile archives

`src/modules/documents/src/services/text/zip.ts`: `ZipPackage` over any bytes, as a buffer takes
its reads: one that leaves the buffer is a `RangeError`, not a `ZipUnreadable`.

The checks before each read keep it inside, so the constructor and `#data` throw what they throw in
`Documents.Zip`, where no read fails (`newZipPackage_eq`, `checkedData_eq`).  Parts are read side by
side, a chunk at a time, and share what is left of the budget (`archive_contained`).
-/

import Flowdular.Documents.Zip
import Flowdular.Lib.Prog

namespace Flowdular.Documents

open Lib

/-- What is thrown: `ZipUnreadable`, or the `RangeError` of a read outside the buffer. -/
inductive ZipThrow
  | unreadable (message : String)
  | outOfRange
deriving DecidableEq

/-- What is computed of a buffer. -/
abbrev Checked :=
  Except ZipThrow

/-- A number of a buffer. -/
def checkedRead (width : ℕ) (view : Bytes) (offset : ℕ) : Checked ℕ :=
  if offset + width ≤ view.length then .ok (Bytes.readAt width view offset) else .error .outOfRange

/-- A part of a buffer. -/
def checkedSlice (view : Bytes) (start stop : ℕ) : Checked Bytes :=
  if start ≤ stop ∧ stop ≤ view.length then .ok (subarray view start stop) else .error .outOfRange

/-- The loop of `#endRecord`. -/
def checkedPlaces (view : Bytes) : List ℕ → Checked ℕ
  | [] => .error (.unreadable "The file is not a ZIP archive.")
  | place :: places => do
    let signature ← checkedRead 4 view place
    if signature = END_SIGNATURE then .ok place else checkedPlaces view places

/-- `#endRecord`. -/
def checkedEndRecord (view : Bytes) : Checked ℕ :=
  let last := view.length - END_RECORD
  checkedPlaces view
    (if view.length < END_RECORD then [] else (List.range (min last MAX_COMMENT + 1)).map (last - ·))

section

variable [ZipHost]

/-- The loop over the central directory. -/
def checkedCentral (view : Bytes) (bound : ℕ) : (count cursor : ℕ) → List ZipEntry → Checked (List ZipEntry)
  | 0, _, entries => .ok entries
  | count + 1, cursor, entries =>
    if bound < cursor + 46 then .error (.unreadable "The central directory is cut short.")
    else do
      let signature ← checkedRead 4 view cursor
      if signature ≠ CENTRAL_SIGNATURE then .error (.unreadable "A central directory entry is malformed.")
      else
        let flags ← checkedRead 2 view (cursor + 8)
        let method ← checkedRead 2 view (cursor + 10)
        let compressedSize ← checkedRead 4 view (cursor + 20)
        let uncompressedSize ← checkedRead 4 view (cursor + 24)
        let nameLength ← checkedRead 2 view (cursor + 28)
        let extraLength ← checkedRead 2 view (cursor + 30)
        let commentLength ← checkedRead 2 view (cursor + 32)
        let localOffset ← checkedRead 4 view (cursor + 42)
        let next := cursor + 46 + nameLength + extraLength + commentLength
        if bound < next then .error (.unreadable "A central directory entry is cut short.")
        else if compressedSize = ZIP64_MARKER ∨ uncompressedSize = ZIP64_MARKER ∨ localOffset = ZIP64_MARKER then
          .error (.unreadable "A ZIP64 entry is not read.")
        else
          let bytes ← checkedSlice view (cursor + 46) (cursor + 46 + nameLength)
          let name := entryName flags bytes
          if entries.any fun entry => entry.name = name then
            .error (.unreadable "The archive names one part twice.")
          else
            let entry := ⟨name, method, flags &&& 0x0001 ≠ 0, compressedSize, localOffset⟩
            checkedCentral view bound count next (entries ++ [entry])

def newZipPackage (bytes : Bytes) (limits : ZipLimits) : Checked ZipPackage := do
  let place ← checkedEndRecord bytes
  let disk ← checkedRead 2 bytes (place + 4)
  let centralDisk ← checkedRead 2 bytes (place + 6)
  let count ← checkedRead 2 bytes (place + 10)
  let size ← checkedRead 4 bytes (place + 12)
  let offset ← checkedRead 4 bytes (place + 16)
  if disk ≠ 0 ∨ centralDisk ≠ 0 then .error (.unreadable "A multi-disk archive is not read.")
  else if count = 0xffff ∨ size = ZIP64_MARKER ∨ offset = ZIP64_MARKER then
    .error (.unreadable "A ZIP64 archive is not read.")
  else if limits.entries < count then .error (.unreadable "The archive lists too many entries.")
  else if place < offset + size then .error (.unreadable "The central directory lies outside the file.")
  else
    let entries ← checkedCentral bytes (offset + size) count offset []
    return { bytes, entries, centralOffset := offset, remaining := limits.inflatedBytes }

end

/-- `#data`. -/
def checkedData (p : ZipPackage) (entry : ZipEntry) : Checked Bytes :=
  let place := entry.localOffset
  if p.centralOffset < place + 30 then .error (.unreadable "A local entry header is malformed.")
  else do
    let signature ← checkedRead 4 p.bytes place
    if signature ≠ LOCAL_SIGNATURE then .error (.unreadable "A local entry header is malformed.")
    else
      let nameLength ← checkedRead 2 p.bytes (place + 26)
      let extraLength ← checkedRead 2 p.bytes (place + 28)
      let start := place + 30 + nameLength + extraLength
      let stop := start + entry.compressedSize
      if p.centralOffset < stop then .error (.unreadable "An entry lies outside the file.")
      else checkedSlice p.bytes start stop

/-! ### Reads stay inside -/

section Inside

variable {view : Bytes} {width offset start stop : ℕ} {α : Type}

theorem checkedRead_eq (h : offset + width ≤ view.length) :
    checkedRead width view offset = .ok (Bytes.readAt width view offset) :=
  if_pos h

theorem checkedRead_two (h : offset + 2 ≤ view.length) : checkedRead 2 view offset = .ok (readUInt16LE view offset) :=
  checkedRead_eq h

theorem checkedRead_four (h : offset + 4 ≤ view.length) : checkedRead 4 view offset = .ok (readUInt32LE view offset) :=
  checkedRead_eq h

theorem checkedSlice_eq (hsta : start ≤ stop) (hs : stop ≤ view.length) :
    checkedSlice view start stop = .ok (subarray view start stop) :=
  if_pos ⟨hsta, hs⟩

/-- What the code throws, where it throws nothing but `ZipUnreadable`. -/
def unreadable (result : Except String α) : Checked α :=
  result.mapError .unreadable

theorem unreadable_ne_outOfRange {result : Except String α} : unreadable result ≠ .error .outOfRange := by
  cases result <;> nofun

theorem checkedPlaces_eq : ∀ {places : List ℕ}, (∀ place ∈ places, place + 4 ≤ view.length) →
    checkedPlaces view places =
      unreadable (match places.find? fun place => readUInt32LE view place = END_SIGNATURE with
        | some place => .ok place
        | none => .error "The file is not a ZIP archive.") := by
  intro places
  induction places with
  | nil => exact fun _ => rfl
  | cons place places ih =>
    intro h
    obtain ⟨hp, hpla⟩ := List.forall_mem_cons.1 h
    rw [checkedPlaces, checkedRead_eq hp, List.find?_cons]
    change (if readUInt32LE view place = END_SIGNATURE then _ else _) = _
    by_cases hs : readUInt32LE view place = END_SIGNATURE
    · simp [hs, unreadable, Except.mapError]
    · simp [hs, ih hpla]

theorem mem_places {place : ℕ} (h : place ∈ (if view.length < END_RECORD then []
    else (List.range (min (view.length - END_RECORD) MAX_COMMENT + 1)).map (view.length - END_RECORD - ·))) :
    place + END_RECORD ≤ view.length := by
  split at h
  · cases h
  · next hl =>
    obtain ⟨back, -, rfl⟩ := List.mem_map.1 h
    omega

theorem checkedEndRecord_eq : checkedEndRecord view = unreadable (endRecord view) := by
  refine checkedPlaces_eq fun place hp => ?_
  have he := mem_places hp
  unfold END_RECORD at he
  omega

theorem endRecord_le {place : ℕ} (h : endRecord view = .ok place) : place + END_RECORD ≤ view.length := by
  unfold endRecord at h
  dsimp only at h
  split at h
  · next found hf =>
    obtain rfl := Except.ok.inj h
    exact mem_places (List.mem_of_find?_eq_some hf)
  · cases h

/-- **The data of an entry is read in front of the directory.** -/
theorem checkedData_eq {p : ZipPackage} {entry : ZipEntry} (h : p.centralOffset ≤ p.bytes.length) :
    checkedData p entry = unreadable (p.data entry) := by
  unfold checkedData ZipPackage.data
  dsimp only
  by_cases hs : p.centralOffset < entry.localOffset + 30
  · rw [if_pos hs, if_pos (.inl hs)]
    rfl
  · rw [if_neg hs]
    simp (disch := omega) only [checkedRead_two, checkedRead_four, bind, Except.bind]
    by_cases hsig : readUInt32LE p.bytes entry.localOffset ≠ LOCAL_SIGNATURE
    · rw [if_pos hsig, if_pos (.inr hsig)]
      rfl
    · rw [if_neg hsig, if_neg (not_or.2 ⟨hs, hsig⟩)]
      split
      · rfl
      · exact checkedSlice_eq (by omega) (by omega)

variable [ZipHost]

/-- **The directory is read inside the buffer.**  By induction on the entries that are left; each
read is behind a check of its record against the bound. -/
theorem checkedCentral_eq {bound : ℕ} (hb : bound ≤ view.length) : ∀ {count cursor : ℕ} {entries : List ZipEntry},
    checkedCentral view bound count cursor entries = unreadable (readCentral view bound count cursor entries) := by
  intro count
  induction count with
  | zero => intro _ _; rfl
  | succ count ih =>
    intro cursor entries
    rw [checkedCentral, readCentral]
    by_cases hs : bound < cursor + 46
    · rw [if_pos hs, if_pos hs]
      rfl
    · rw [if_neg hs, if_neg hs]
      simp (disch := omega) only [checkedRead_two, checkedRead_four, bind, Except.bind]
      by_cases hsig : readUInt32LE view cursor ≠ CENTRAL_SIGNATURE
      · rw [if_pos hsig, if_pos hsig]
        rfl
      · rw [if_neg hsig, if_neg hsig]
        split
        · rfl
        · next hn =>
          split
          · rfl
          · rw [checkedSlice_eq (by omega) (by omega)]
            dsimp only
            split
            · rfl
            · exact ih

/-- **The constructor throws nothing but `ZipUnreadable`**: its reads are in the end record. -/
theorem newZipPackage_eq {limits : ZipLimits} : newZipPackage view limits = unreadable (openPackage view limits) := by
  unfold newZipPackage openPackage
  rw [checkedEndRecord_eq]
  cases hp : endRecord view with
  | error e => rfl
  | ok place =>
    have he := endRecord_le hp
    unfold END_RECORD at he
    simp (disch := omega) only [unreadable, Except.mapError, checkedRead_two, checkedRead_four, bind, Except.bind]
    split
    · rfl
    · split
      · rfl
      · split
        · rfl
        · split
          · rfl
          · rw [checkedCentral_eq (by omega)]
            cases readCentral view _ _ _ [] <;> rfl

end Inside

/-! ### Readers -/

/-- A part that is being read: asked for, or behind a chunk that was yielded, or at its end. -/
inductive Reader
  | fresh (name : String)
  | open_ (chunks : List Bytes) (failed : Bool)
  | ended

/-- A package, and the parts that are read of it side by side. -/
structure Readers where
  package : ZipPackage
  readers : List Reader := []

/-- What a consumer does: it asks for a part, for the next chunk of one, or stops one. -/
inductive ReadEvent
  | read (name : String)
  | next (reader : ℕ)
  | stop (reader : ℕ)

/-- What it gets: a chunk, the end of a part, or what is thrown. -/
inductive ReadReply
  | chunk (bytes : Bytes)
  | done
  | threw (fault : ZipThrow)

section

variable [ZipHost]

/-- `read` up to its loop: the chunks that come, and whether the inflater fails behind them. -/
def openPart (p : ZipPackage) (name : String) : Checked (List Bytes × Bool) :=
  match p.entries.find? fun entry => entry.name = name with
  | none => .error (.unreadable ("The part " ++ name ++ " is missing."))
  | some entry =>
    if entry.encrypted then .error (.unreadable "An encrypted entry is not read.")
    else do
      let data ← checkedData p entry
      if entry.method = STORED then .ok (ZipPackage.storedChunks data.length data, false)
      else if entry.method ≠ DEFLATE then .error (.unreadable "Only stored and deflate entries are read.")
      else .ok (ZipHost.inflateRaw data)

/-- The loop of `read` up to its next `yield`. -/
def produce (failed : Bool) : List Bytes → ZipPackage → ReadReply × Reader × ZipPackage
  | [], p => (if failed then .threw (.unreadable "A part does not inflate.") else .done, .ended, p)
  | chunk :: chunks, p =>
    let (allowed, p) := p.spend chunk
    if 0 < allowed.length then (.chunk allowed, .open_ chunks failed, p)
    else if p.exhausted then (.done, .ended, p)
    else produce failed chunks p

/-- One `next` of a part. -/
def nextOf (p : ZipPackage) : Reader → ReadReply × Reader × ZipPackage
  | .fresh name =>
    match openPart p name with
    | .error fault => (.threw fault, .ended, p)
    | .ok (chunks, failed) => produce failed chunks p
  -- the budget is looked at again where the loop goes on behind a chunk
  | .open_ chunks failed => if p.exhausted then (.done, .ended, p) else produce failed chunks p
  | .ended => (.done, .ended, p)

/-- A consumer does something. -/
def Readers.step (s : Readers) : ReadEvent → List ReadReply × Readers
  | .read name => ([], { s with readers := s.readers ++ [.fresh name] })
  | .next i =>
    match s.readers[i]? with
    | none => ([], s)
    | some reader =>
      let (reply, reader, package) := nextOf s.package reader
      ([reply], { package, readers := s.readers.set i reader })
  | .stop i => ([], { s with readers := s.readers.set i .ended })

/-- A run of consumers, with what they got. -/
def Readers.run (s : Readers) : List ReadEvent → List ReadReply × Readers
  | [] => ([], s)
  | event :: events =>
    let (replies, s) := s.step event
    let (more, s) := s.run events
    (replies ++ more, s)

end

/-- The bytes a reply hands out. -/
def ReadReply.bytes : ReadReply → ℕ
  | .chunk bytes => bytes.length
  | _ => 0

/-- The reply is a chunk that is not empty, an end, or a `ZipUnreadable`. -/
def ReadReply.Contained : ReadReply → Prop
  | .chunk bytes => bytes ≠ []
  | .done => True
  | .threw fault => fault ≠ .outOfRange

section Readers

variable {p p' : ZipPackage} {reader reader' : Reader} {reply : ReadReply} {failed : Bool} {chunks : List Bytes}

/-- What a reply does to the package: what it hands out is spent, and the bytes stay as they are. -/
structure Spends (p : ZipPackage) (reply : ReadReply) (p' : ZipPackage) : Prop where
  contained : reply.Contained
  spent : reply.bytes + p'.remaining = p.remaining
  bytes : p'.bytes = p.bytes
  centralOffset : p'.centralOffset = p.centralOffset

theorem spends_nothing (h : reply.Contained) (hb : reply.bytes = 0) : Spends p reply p :=
  ⟨h, by omega, rfl, rfl⟩

theorem spend_spent (chunk : Bytes) : (p.spend chunk).1.length + (p.spend chunk).2.remaining = p.remaining ∧
    (p.spend chunk).2.bytes = p.bytes ∧ (p.spend chunk).2.centralOffset = p.centralOffset := by
  unfold ZipPackage.spend
  split
  · refine ⟨?_, rfl, rfl⟩
    dsimp only
    omega
  · refine ⟨?_, rfl, rfl⟩
    dsimp only
    rw [List.length_take]
    omega

/-- **The loop hands out what it spends.**  By induction on the chunks that come. -/
theorem produce_spends : ∀ {p : ZipPackage}, Spends p (produce failed chunks p).1 (produce failed chunks p).2.2 := by
  induction chunks with
  | nil =>
    intro p
    rw [produce]
    cases failed
    · exact spends_nothing trivial rfl
    · exact spends_nothing (nofun : ZipThrow.unreadable _ ≠ .outOfRange) rfl
  | cons chunk chunks ih =>
    intro p
    obtain ⟨hs, hb, hc⟩ := @spend_spent p chunk
    rw [produce]
    dsimp only
    split
    · next hp => exact ⟨List.length_pos_iff.1 hp, hs, hb, hc⟩
    · next he =>
      split
      · refine ⟨trivial, ?_, hb, hc⟩
        change 0 + (p.spend chunk).2.remaining = _
        omega
      · obtain ⟨hcon, hr, hb', hc'⟩ := @ih (p.spend chunk).2
        exact ⟨hcon, by omega, hb'.trans hb, hc'.trans hc⟩

/-- What was handed out in some replies. -/
def handed (replies : List ReadReply) : ℕ :=
  (replies.map ReadReply.bytes).sum

/-- The chunks among some replies are no more than their bytes. -/
theorem chunks_le_handed {replies : List ReadReply} (h : ∀ reply ∈ replies, reply.Contained) :
    replies.countP (fun reply => match reply with | .chunk _ => true | _ => false) ≤ handed replies := by
  induction replies with
  | nil => exact Nat.le_refl 0
  | cons reply replies ih =>
    obtain ⟨hrep, hr⟩ := List.forall_mem_cons.1 h
    have hrest := ih hr
    unfold handed at *
    rw [List.countP_cons, List.map_cons, List.sum_cons]
    cases reply with
    | chunk bytes =>
      have hp : 0 < bytes.length := List.length_pos_iff.2 hrep
      simp only [ReadReply.bytes, if_true]
      omega
    | _ => simpa [ReadReply.bytes] using hrest

variable [ZipHost]

theorem openPart_error {fault : ZipThrow} {name : String} (hp : p.centralOffset ≤ p.bytes.length)
    (h : openPart p name = .error fault) : fault ≠ .outOfRange := by
  rintro rfl
  unfold openPart at h
  split at h
  · cases h
  · next entry _ =>
    split at h
    · cases h
    · rw [checkedData_eq hp] at h
      cases hd : p.data entry with
      | error e =>
        rw [hd] at h
        cases h
      | ok data =>
        rw [hd] at h
        change (if _ then _ else _) = _ at h
        split_ifs at h
        cases h

theorem nextOf_spends (hp : p.centralOffset ≤ p.bytes.length) :
    Spends p (nextOf p reader).1 (nextOf p reader).2.2 := by
  cases reader with
  | ended => exact spends_nothing trivial rfl
  | open_ chunks failed =>
    rw [nextOf]
    split
    · exact spends_nothing trivial rfl
    · exact produce_spends
  | fresh name =>
    rw [nextOf]
    split
    · next fault hf => exact spends_nothing (openPart_error hp hf) rfl
    · exact produce_spends

/-- What a run did. -/
structure Contains (s : Readers) (replies : List ReadReply) (s' : Readers) : Prop where
  contained : ∀ reply ∈ replies, reply.Contained
  spent : handed replies + s'.package.remaining = s.package.remaining
  inside : s'.package.centralOffset ≤ s'.package.bytes.length

theorem Readers.step_contains {s : Readers} {event : ReadEvent} (hs : s.package.centralOffset ≤ s.package.bytes.length) :
    Contains s (s.step event).1 (s.step event).2 := by
  have hn : ∀ {s' : Readers}, s'.package = s.package → Contains s [] s' := fun h => by
    rw [← h] at hs
    exact ⟨nofun, by rw [h]; exact Nat.zero_add _, hs⟩
  cases event with
  | read name => exact hn rfl
  | stop i => exact hn rfl
  | next i =>
    rw [Readers.step]
    split
    · exact hn rfl
    · next reader _ =>
      obtain ⟨hc, hspe, hb, hcen⟩ := @nextOf_spends _ reader _ hs
      refine ⟨by simpa using hc, by simpa [handed] using hspe, ?_⟩
      dsimp only
      rw [hb, hcen]
      exact hs

/-- **A run hands out what it spends.**  By induction on its events. -/
theorem Readers.run_contains : ∀ {events : List ReadEvent} {s : Readers},
    s.package.centralOffset ≤ s.package.bytes.length → Contains s (s.run events).1 (s.run events).2 := by
  intro events
  induction events with
  | nil => exact fun hs => ⟨nofun, Nat.zero_add _, hs⟩
  | cons event events ih =>
    intro s hs
    have hstep := @Readers.step_contains _ _ event hs
    have hrun := ih hstep.inside
    refine ⟨?_, ?_, hrun.inside⟩
    · exact fun reply h => (List.mem_append.1 h).elim (hstep.contained reply) (hrun.contained reply)
    · have hf := hstep.spent
      have hr := hrun.spent
      simp only [Readers.run, handed, List.map_append, List.sum_append] at hf hr ⊢
      omega

theorem openPackage_inside {bytes : Bytes} {limits : ZipLimits} (h : openPackage bytes limits = .ok p) :
    p.centralOffset ≤ p.bytes.length ∧ p.remaining = limits.inflatedBytes := by
  unfold openPackage at h
  obtain ⟨place, hp, h⟩ := bind_eq_ok h
  have he := endRecord_le hp
  dsimp only at h
  split_ifs at h with hd hzip64 hc hdir
  obtain ⟨entries, -, h⟩ := bind_eq_ok h
  obtain rfl := Except.ok.inj h
  refine ⟨?_, rfl⟩
  dsimp only
  omega

end Readers

/-- **Hostile archives are contained.**  Any bytes open or are unreadable, and however the parts of
what opens are read, each reply is a chunk, an end or a `ZipUnreadable`: nothing is read outside the
bytes.  What was handed out and what is left of the budget are the budget, so that there are no
more chunks than bytes in it. -/
theorem archive_contained [ZipHost] (bytes : Bytes) (limits : ZipLimits) :
    (∃ message, newZipPackage bytes limits = .error (.unreadable message)) ∨
      ∃ p, newZipPackage bytes limits = .ok p ∧ ∀ events,
        (∀ reply ∈ (Readers.run { package := p } events).1, reply.Contained) ∧
        handed (Readers.run { package := p } events).1 +
          (Readers.run { package := p } events).2.package.remaining = limits.inflatedBytes ∧
        (Readers.run { package := p } events).1.countP
          (fun reply => match reply with | .chunk _ => true | _ => false) ≤ limits.inflatedBytes := by
  rw [newZipPackage_eq]
  cases ho : openPackage bytes limits with
  | error message => exact .inl ⟨message, rfl⟩
  | ok p =>
    refine .inr ⟨p, rfl, fun events => ?_⟩
    obtain ⟨hi, hb⟩ := openPackage_inside ho
    have hr := @Readers.run_contains _ events { package := p } hi
    have hc := chunks_le_handed hr.contained
    have hs := hr.spent
    dsimp only at hs
    exact ⟨hr.contained, by omega, by omega⟩

end Flowdular.Documents
