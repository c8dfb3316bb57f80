/-
# Archives of an export

`src/modules/audit/src/services/zip.ts`: `dosTime` and `StoredZipWriter`.

A header is a buffer of zeros that numbers are written to at offsets; here it is the record of
its fields in that order, those that are not written included.  A number that does not fit its
field is refused by the buffer (`alloc`).  The output keeps all it is given.
-/

import Flowdular.Lib.Bytes
import Mathlib.Data.Int.Notation

namespace Flowdular.Audit

open Lib

/-! ### Constants -/

def LOCAL_HEADER : ℕ := 0x04034b50

def DATA_DESCRIPTOR : ℕ := 0x08074b50

def CENTRAL_HEADER : ℕ := 0x02014b50

def END_OF_CENTRAL_DIRECTORY : ℕ := 0x06054b50

def STREAMING_FLAG : ℕ := 0x0008

def STORE : ℕ := 0

def VERSION : ℕ := 20

/-- `EXTERNAL_ATTRIBUTES`, `0o100600 << 16`. -/
def EXTERNAL_ATTRIBUTES : ℕ := 0o100600 <<< 16

def SIZE_LIMIT : ℕ := 0xfffffffe

def WRITE_WINDOW : ℕ := 65536

/-! ### Stamps and checksums -/

/-- A local time, as a `Date` tells it. -/
structure LocalTime where
  fullYear : ℤ
  month : ℕ
  date : ℕ
  hours : ℕ
  minutes : ℕ
  seconds : ℕ

/-- `dosTime`: the time and the date. -/
def dosTime (stamp : LocalTime) : ℕ × ℕ :=
  let year := max 1980 stamp.fullYear
  ((stamp.hours <<< 11) ||| (stamp.minutes <<< 5) ||| ((stamp.seconds / 2) &&& 0x1f),
    ((year - 1980).toNat <<< 9) ||| ((stamp.month + 1) <<< 5) ||| stamp.date)

/-- One bit of a checksum. -/
def crcBit (value : UInt32) : UInt32 :=
  if value &&& 1 = 1 then (value >>> 1) ^^^ 0xedb88320 else value >>> 1

/-- One byte of a checksum. -/
def crcByte (value : UInt32) (byte : UInt8) : UInt32 :=
  Nat.iterate crcBit 8 (value ^^^ byte.toUInt32)

/-- `crc32` of a chunk, behind the checksum of what was before it. -/
def crc32 (chunk : Bytes) (value : UInt32) : UInt32 :=
  ~~~ chunk.foldl crcByte (~~~ value)

example : crc32 ("123456789".toList.flatMap String.utf8EncodeChar) 0 = 0xcbf43926 := by decide +kernel

/-! ### The writer -/

/-- `ZipWriteError`, as one text. -/
def zipWriteError (code message : String) : String :=
  s!"{code}: {message}"

/-- `toString('utf8')` of a name, which was a text. -/
def nameText (name : Bytes) : String :=
  (String.fromUTF8? name.toByteArray).getD ""

/-- A buffer with its fields written, if each number fits its field. -/
def alloc (fields : Bytes.Fields) : Except String Bytes :=
  if Bytes.Fits fields then .ok (Bytes.record fields)
  else .error "ERR_OUT_OF_RANGE"

structure ZipEntryRecord where
  name : Bytes
  offset : ℕ
  size : ℕ
  checksum : UInt32
  time : ℕ
  date : ℕ

/-- The state of a `StoredZipWriter`; an open entry is a record of what was written of it. -/
structure StoredZipWriter where
  stamp : LocalTime
  output : Bytes := []
  entries : List ZipEntryRecord := []
  offset : ℕ := 0
  pending : List Bytes := []
  pendingBytes : ℕ := 0
  opened : Option ZipEntryRecord := none
  closed : Bool := false

/-- The fields of a local header. -/
def localFields (time date nameLength : ℕ) : Bytes.Fields :=
  [(4, LOCAL_HEADER), (2, VERSION), (2, STREAMING_FLAG), (2, STORE), (2, time), (2, date), (12, 0),
    (2, nameLength), (2, 0)]

/-- The fields of a data descriptor. -/
def descriptorFields (checksum : UInt32) (size : ℕ) : Bytes.Fields :=
  [(4, DATA_DESCRIPTOR), (4, checksum.toNat), (4, size), (4, size)]

/-- The fields of a header of the central directory. -/
def centralFields (entry : ZipEntryRecord) : Bytes.Fields :=
  [(4, CENTRAL_HEADER), (2, VERSION), (2, VERSION), (2, STREAMING_FLAG), (2, STORE), (2, entry.time),
    (2, entry.date), (4, entry.checksum.toNat), (4, entry.size), (4, entry.size), (2, entry.name.length),
    (2, 0), (2, 0), (2, 0), (2, 0), (4, EXTERNAL_ATTRIBUTES), (4, entry.offset)]

/-- The fields of the end record. -/
def endFields (count size start : ℕ) : Bytes.Fields :=
  [(4, END_OF_CENTRAL_DIRECTORY), (2, 0), (2, 0), (2, count), (2, count), (4, size), (4, start), (2, 0)]

namespace StoredZipWriter

variable (w : StoredZipWriter)

def flush : StoredZipWriter :=
  if w.pendingBytes = 0 then w
  else { w with output := w.output ++ w.pending.flatten, pending := [], pendingBytes := 0 }

def push (chunk : Bytes) : Except String StoredZipWriter :=
  let offset := w.offset + chunk.length
  if SIZE_LIMIT < offset then
    .error (zipWriteError "ZIP_ARCHIVE_TOO_LARGE" "The archive is larger than this archive format carries.")
  else
    let w := { w with offset, pending := w.pending ++ [chunk], pendingBytes := w.pendingBytes + chunk.length }
    .ok (if WRITE_WINDOW ≤ w.pendingBytes then w.flush else w)

def addEntry (name : String) : Except String StoredZipWriter :=
  match w.opened with
  | some opened =>
    .error (zipWriteError "ZIP_ENTRY_OPEN" ("The entry " ++ nameText opened.name ++ " is still open."))
  | none => do
    let encoded := Bytes.utf8 name
    if encoded.length = 0 ∨ 0xffff < encoded.length then
      .error (zipWriteError "ZIP_ENTRY_NAME" ("\"" ++ name ++ "\" is not an entry name."))
    else
      let (time, date) := dosTime w.stamp
      let header ← alloc (localFields time date encoded.length)
      let w := { w with opened := some ⟨encoded, w.offset, 0, 0, time, date⟩ }
      let w ← w.push header
      w.push encoded

def write (chunk : Bytes) : Except String StoredZipWriter :=
  match w.opened with
  | none => .error (zipWriteError "ZIP_NO_ENTRY" "No archive entry is open.")
  | some opened =>
    if SIZE_LIMIT < opened.size + chunk.length then
      .error (zipWriteError "ZIP_ENTRY_TOO_LARGE"
        (nameText opened.name ++ " is larger than this archive format carries."))
    else
      let opened :=
        { opened with checksum := crc32 chunk opened.checksum, size := opened.size + chunk.length }
      { w with opened := some opened }.push chunk

def closeEntry : Except String StoredZipWriter :=
  match w.opened with
  | none => .ok w
  | some opened => do
    let descriptor ← alloc (descriptorFields opened.checksum opened.size)
    let w ← w.push descriptor
    return { w with entries := w.entries ++ [opened], opened := none }

/-- A header of the central directory, with its name. -/
def pushCentral (entry : ZipEntryRecord) : Except String StoredZipWriter := do
  let header ← alloc (centralFields entry)
  let w ← w.push header
  w.push entry.name

def finish : Except String StoredZipWriter :=
  if w.closed then .ok w
  else do
    let w ← w.closeEntry
    let start := w.offset
    let w ← w.entries.foldlM pushCentral w
    let record ← alloc (endFields w.entries.length (w.offset - start) start)
    let w ← w.push record
    return { w.flush with closed := true }

end StoredZipWriter

/-- An entry as its writer is given it: its name, and its content in chunks. -/
structure ArchiveEntry where
  name : String
  chunks : List Bytes

/-- The content of an entry. -/
def ArchiveEntry.content (entry : ArchiveEntry) : Bytes :=
  entry.chunks.flatten

/-- An entry is written. -/
def writeEntry (w : StoredZipWriter) (entry : ArchiveEntry) : Except String StoredZipWriter := do
  let w ← w.addEntry entry.name
  let w ← entry.chunks.foldlM StoredZipWriter.write w
  w.closeEntry

/-- What is written of a list of entries, if none of them is refused. -/
def archive (stamp : LocalTime) (entries : List ArchiveEntry) : Except String Bytes := do
  let w ← entries.foldlM writeEntry { stamp }
  let w ← w.finish
  return w.output

end Flowdular.Audit
