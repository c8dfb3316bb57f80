/-
# Packages that are read

`src/modules/documents/src/services/text/zip.ts`: `ZipPackage`, an archive read through its
central directory.

A part is read to its end; what is read of it are the chunks that were yielded, and why it
stopped, if it did.  No number is read beyond the end of the file, where a buffer would refuse.
-/

import Flowdular.Lib.Bytes

namespace Flowdular.Documents

open Lib

structure ZipLimits where
  entries : ℕ
  inflatedBytes : ℕ

/-- What the platform does: `toString('utf8')`, and `createInflateRaw`, the chunks it produces and
whether it failed behind them. -/
class ZipHost where
  utf8 : Bytes → String
  inflateRaw : Bytes → List Bytes × Bool

structure ZipEntry where
  name : String
  method : ℕ
  encrypted : Bool
  compressedSize : ℕ
  localOffset : ℕ
deriving DecidableEq

def END_SIGNATURE : ℕ := 0x06054b50

def CENTRAL_SIGNATURE : ℕ := 0x02014b50

def LOCAL_SIGNATURE : ℕ := 0x04034b50

def END_RECORD : ℕ := 22

def MAX_COMMENT : ℕ := 0xffff

def ZIP64_MARKER : ℕ := 0xffffffff

def STORED : ℕ := 0

def DEFLATE : ℕ := 8

def CHUNK : ℕ := 64 * 1024

def readUInt16LE (view : Bytes) (offset : ℕ) : ℕ :=
  Bytes.readAt 2 view offset

def readUInt32LE (view : Bytes) (offset : ℕ) : ℕ :=
  Bytes.readAt 4 view offset

def subarray (view : Bytes) (start stop : ℕ) : Bytes :=
  (view.drop start).take (stop - start)

/-- `#endRecord`: the last place of the signature. -/
def endRecord (view : Bytes) : Except String ℕ :=
  let last := view.length - END_RECORD
  let places := if view.length < END_RECORD then [] else (List.range (min last MAX_COMMENT + 1)).map (last - ·)
  match places.find? fun place => readUInt32LE view place = END_SIGNATURE with
  | some place => .ok place
  | none => .error "The file is not a ZIP archive."

/-- An open package. -/
structure ZipPackage where
  bytes : Bytes
  entries : List ZipEntry
  centralOffset : ℕ
  remaining : ℕ
  exhausted : Bool := false

section

variable [ZipHost]

/-- The name of an entry, by its flags. -/
def entryName (flags : ℕ) (bytes : Bytes) : String :=
  if flags &&& 0x0800 = 0 then Bytes.latin1 bytes else ZipHost.utf8 bytes

/-- The loop over the central directory, up to its bound. -/
def readCentral (view : Bytes) (bound : ℕ) : (count cursor : ℕ) → List ZipEntry → Except String (List ZipEntry)
  | 0, _, entries => .ok entries
  | count + 1, cursor, entries =>
    if bound < cursor + 46 then .error "The central directory is cut short."
    else if readUInt32LE view cursor ≠ CENTRAL_SIGNATURE then
      .error "A central directory entry is malformed."
    else
      let flags := readUInt16LE view (cursor + 8)
      let method := readUInt16LE view (cursor + 10)
      let compressedSize := readUInt32LE view (cursor + 20)
      let uncompressedSize := readUInt32LE view (cursor + 24)
      let nameLength := readUInt16LE view (cursor + 28)
      let extraLength := readUInt16LE view (cursor + 30)
      let commentLength := readUInt16LE view (cursor + 32)
      let localOffset := readUInt32LE view (cursor + 42)
      let next := cursor + 46 + nameLength + extraLength + commentLength
      if bound < next then .error "A central directory entry is cut short."
      else if compressedSize = ZIP64_MARKER ∨ uncompressedSize = ZIP64_MARKER ∨ localOffset = ZIP64_MARKER then
        .error "A ZIP64 entry is not read."
      else
        let name := entryName flags (subarray view (cursor + 46) (cursor + 46 + nameLength))
        if entries.any fun entry => entry.name = name then .error "The archive names one part twice."
        else
          let entry := ⟨name, method, flags &&& 0x0001 ≠ 0, compressedSize, localOffset⟩
          readCentral view bound count next (entries ++ [entry])

/-- `new ZipPackage`. -/
def openPackage (bytes : Bytes) (limits : ZipLimits) : Except String ZipPackage := do
  let place ← endRecord bytes
  let disk := readUInt16LE bytes (place + 4)
  let centralDisk := readUInt16LE bytes (place + 6)
  let count := readUInt16LE bytes (place + 10)
  let size := readUInt32LE bytes (place + 12)
  let offset := readUInt32LE bytes (place + 16)
  if disk ≠ 0 ∨ centralDisk ≠ 0 then .error "A multi-disk archive is not read."
  else if count = 0xffff ∨ size = ZIP64_MARKER ∨ offset = ZIP64_MARKER then
    .error "A ZIP64 archive is not read."
  else if limits.entries < count then .error "The archive lists too many entries."
  else if place < offset + size then .error "The central directory lies outside the file."
  else
    let entries ← readCentral bytes (offset + size) count offset []
    return { bytes, entries, centralOffset := offset, remaining := limits.inflatedBytes }

end

namespace ZipPackage

def has (p : ZipPackage) (name : String) : Bool :=
  p.entries.any fun entry => entry.name = name

def spend (p : ZipPackage) (chunk : Bytes) : Bytes × ZipPackage :=
  if chunk.length ≤ p.remaining then (chunk, { p with remaining := p.remaining - chunk.length })
  else (chunk.take p.remaining, { p with remaining := 0, exhausted := true })

/-- The chunks that are yielded of those that come, up to the budget. -/
def spendAll : List Bytes → ZipPackage → List Bytes × ZipPackage
  | [], p => ([], p)
  | chunk :: chunks, p =>
    let allowed := (p.spend chunk).1
    let rest := if (p.spend chunk).2.exhausted then ([], (p.spend chunk).2) else spendAll chunks (p.spend chunk).2
    (if 0 < allowed.length then allowed :: rest.1 else rest.1, rest.2)

def data (p : ZipPackage) (entry : ZipEntry) : Except String Bytes :=
  let place := entry.localOffset
  if p.centralOffset < place + 30 ∨ readUInt32LE p.bytes place ≠ LOCAL_SIGNATURE then
    .error "A local entry header is malformed."
  else
    let start := place + 30 + readUInt16LE p.bytes (place + 26) + readUInt16LE p.bytes (place + 28)
    let stop := start + entry.compressedSize
    if p.centralOffset < stop then .error "An entry lies outside the file."
    else .ok (subarray p.bytes start stop)

/-- The chunks of a stored part: the loop takes one of them from what is left. -/
def storedChunks : (fuel : ℕ) → Bytes → List Bytes
  | 0, _ => []
  | fuel + 1, data => if data = [] then [] else data.take CHUNK :: storedChunks fuel (data.drop CHUNK)

/-- What is read of a part. -/
structure Reading where
  chunks : List Bytes := []
  error : Option String := none

/-- What is read of an entry whose data is there. -/
def readData [ZipHost] (p : ZipPackage) (method : ℕ) (data : Bytes) : Reading × ZipPackage :=
  if method = STORED then
    let spent := spendAll (storedChunks data.length data) p
    ({ chunks := spent.1 }, spent.2)
  else if method ≠ DEFLATE then ({ error := some "Only stored and deflate entries are read." }, p)
  else
    let produced := ZipHost.inflateRaw data
    let spent := spendAll produced.1 p
    let failed := produced.2 && !spent.2.exhausted
    ({ chunks := spent.1, error := if failed then some "A part does not inflate." else none }, spent.2)

def read [ZipHost] (p : ZipPackage) (name : String) : Reading × ZipPackage :=
  match p.entries.find? fun entry => entry.name = name with
  | none => ({ error := some ("The part " ++ name ++ " is missing.") }, p)
  | some entry =>
    if entry.encrypted then ({ error := some "An encrypted entry is not read." }, p)
    else
      match p.data entry with
      | .error e => ({ error := some e }, p)
      | .ok data => p.readData entry.method data

/-- Parts are read one behind the other. -/
def readMany [ZipHost] (p : ZipPackage) : List String → List Reading × ZipPackage
  | [] => ([], p)
  | name :: names =>
    let rest := (p.read name).2.readMany names
    ((p.read name).1 :: rest.1, rest.2)

end ZipPackage

end Flowdular.Documents
