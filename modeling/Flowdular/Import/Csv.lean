/-
# CSV files, written and read

`src/packages/server/src/export/csv.ts` and `src/modules/import/src/domain/csv.ts`.

The writer quotes a field where it carries a quote, a comma or a line break, and the
reader takes nothing but what such a writer leaves: a quote opens a field, closes it
before a separator, or stands doubled inside.  So a field is read back whatever its
characters are (`scan_field`), a record as the cells it was written from
(`scan_record`), and a file as its header and rows, with the names of the header
trimmed (`parseCsv_export`).
-/

import Flowdular.Lib.Prog
import Flowdular.Workflows.Text

namespace Flowdular.Import

open Workflows (isWhiteSpace trimChars utf16Length)

/-! ### The writer -/

def CSV_BOM : Char :=
  Char.ofNat 0xfeff

def CSV_RECORD_SEPARATOR : String :=
  "\r\n"

/-- `NEEDS_QUOTING`. -/
def needsQuoting (value : String) : Bool :=
  value.toList.any fun c => c = '"' || c = '\r' || c = '\n' || c = ','

/-- `value.replaceAll('"', '""')`. -/
def doubleQuotes (cs : List Char) : List Char :=
  cs.flatMap fun c => if c = '"' then ['"', '"'] else [c]

def csvField (value : String) : String :=
  if needsQuoting value then String.ofList ('"' :: doubleQuotes value.toList ++ ['"']) else value

/-- The loop of `csvRecord`. -/
def csvFields : List String → String
  | [] => ""
  | [value] => csvField value
  | value :: values => csvField value ++ "," ++ csvFields values

def csvRecord (values : List String) : String :=
  csvFields values ++ CSV_RECORD_SEPARATOR

/-- The bytes an export writes: the mark, the header, one record for each row. -/
def exportBytes (header : List String) (rows : List (List String)) : ByteArray :=
  (String.ofList (CSV_BOM :: (csvRecord header).toList ++
    rows.flatMap fun row => (csvRecord row).toList)).toByteArray

/-! ### The reader -/

inductive CsvErrorCode where
  | empty
  | headerBlank
  | headerDuplicate
  | notUtf8
  | quoteUnterminated
  | quoteUnexpected
  | tooManyRows
deriving DecidableEq, Repr

structure CsvError where
  code : CsvErrorCode
  message : String
deriving DecidableEq, Repr

structure CsvRow where
  /-- 1-based data row number, header excluded. -/
  row : ℕ
  cells : List String
deriving DecidableEq, Repr

structure CsvDocument where
  header : List String
  rows : List CsvRow
deriving DecidableEq, Repr

/-- `text.startsWith(BOM) ? text.slice(BOM.length) : text`. -/
def withoutBom : List Char → List Char
  | [] => []
  | c :: cs => if c = CSV_BOM then cs else c :: cs

/-- `decodeCsv`: the decoder drops a mark of its own. -/
def decodeCsv (bytes : ByteArray) : Except CsvError (List Char) :=
  match String.fromUTF8? bytes with
  | none => .error ⟨.notUtf8, "The file is not valid UTF-8 text."⟩
  | some text => .ok (withoutBom (withoutBom text.toList))

/-- The variables of `parseRecords`; `piece` is what lies between `start` and
`index`. -/
structure CsvReader where
  index : ℕ := 0
  piece : List Char := []
  pending : List Char := []
  cells : List String := []
  records : List (List String) := []
  quoted : Bool := false
  started : Bool := false

namespace CsvReader

variable (r : CsvReader)

def empty : Bool :=
  r.pending.isEmpty && r.piece.isEmpty

/-- The cell read so far. -/
def cell : String :=
  String.ofList (r.pending ++ r.piece)

def endField : CsvReader :=
  { r with cells := r.cells ++ [r.cell], pending := [], started := true }

def endRecord (maxRows : ℕ) : Except CsvError CsvReader :=
  let records := r.records ++ [r.endField.cells]
  if maxRows + 1 < records.length then
    .error ⟨.tooManyRows, "The file holds more than " ++ toString maxRows ++ " rows."⟩
  else .ok { r.endField with records, cells := [], started := false }

/-- `index += 1` on a character of the cell. -/
def take (c : Char) : CsvReader :=
  { r with piece := r.piece ++ [c], index := r.index + utf16Length (String.singleton c) }

/-- `index += n; start = index`. -/
def skip (n : ℕ) : CsvReader :=
  { r with piece := [], index := r.index + n }

end CsvReader

/-- A separator or the end of the text. -/
def endsField : List Char → Bool
  | [] => true
  | c :: _ => c = ',' || c = '\n' || c = '\r'

/-- The loop of `parseRecords`. -/
def scan (maxRows : ℕ) : List Char → CsvReader → Except CsvError CsvReader
  | [], r => .ok r
  | c :: rest, r =>
    if r.quoted then
      if c ≠ '"' then scan maxRows rest (r.take c)
      else
        match rest with
        | '"' :: rest => scan maxRows rest { r.skip 2 with pending := r.pending ++ r.piece ++ ['"'] }
        | rest =>
          let r := { r.skip 1 with pending := r.pending ++ r.piece, quoted := false }
          if !endsField rest then
            .error ⟨.quoteUnexpected,
              "Unexpected text after a closing quote at offset " ++ toString r.index ++ "."⟩
          else scan maxRows rest r
    else if c = '"' then
      if !r.empty then
        .error ⟨.quoteUnexpected,
          "A quote may only open a field, at offset " ++ toString r.index ++ "."⟩
      else scan maxRows rest { r.skip 1 with quoted := true, started := true }
    else if c = ',' then scan maxRows rest (r.endField.skip 1)
    else if c = '\r' ∨ c = '\n' then
      match r.endRecord maxRows with
      | .error error => .error error
      | .ok r =>
        match c, rest with
        | '\r', '\n' :: rest => scan maxRows rest (r.skip 2)
        | _, rest => scan maxRows rest (r.skip 1)
    else scan maxRows rest { r.take c with started := true }

def parseRecords (text : List Char) (maxRows : ℕ) : Except CsvError (List (List String)) := do
  let r ← scan maxRows text {}
  if r.quoted then .error ⟨.quoteUnterminated, "A quoted field is never closed."⟩
  else if r.started || !r.empty || !r.cells.isEmpty then return (← r.endRecord maxRows).records
  else return r.records

/-- `cell.trim()`. -/
def trimCell (cell : String) : String :=
  String.ofList (trimChars cell.toList)

/-- The loop over the names of the header. -/
def checkHeader (seen : List String) : List String → Except CsvError Unit
  | [] => .ok ()
  | name :: names =>
    if name = "" then .error ⟨.headerBlank, "A column header is blank."⟩
    else if name ∈ seen then
      .error ⟨.headerDuplicate, "The column " ++ name ++ " appears more than once."⟩
    else checkHeader (seen ++ [name]) names

/-- The records behind the header as rows. -/
def numberRows (records : List (List String)) : List CsvRow :=
  records.mapIdx fun i cells => ⟨i + 1, cells⟩

def parseCsv (text : List Char) (maxRows : ℕ) : Except CsvError CsvDocument := do
  match ← parseRecords text maxRows with
  | [] => .error ⟨.empty, "The file carries no header row."⟩
  | headerRecord :: records =>
    if headerRecord = [""] then .error ⟨.empty, "The file carries no header row."⟩
    else
      let header := headerRecord.map trimCell
      checkHeader [] header
      return { header, rows := numberRows records }

/-! ### A field, read back -/

section

variable {maxRows : ℕ}

theorem doubleQuotes_cons (c : Char) (cs : List Char) :
    doubleQuotes (c :: cs) = (if c = '"' then ['"', '"'] else [c]) ++ doubleQuotes cs :=
  rfl

/-- The reader goes on behind a text it has read into the cell. -/
structure CsvReader.Read (r r' : CsvReader) (cs : List Char) : Prop where
  quoted : r'.quoted = r.quoted
  cell : r'.pending ++ r'.piece = r.pending ++ r.piece ++ cs
  cells : r'.cells = r.cells
  records : r'.records = r.records

/-- Characters without a meaning are taken as they are. -/
theorem scan_plain (rest : List Char) : ∀ {cs : List Char} {r : CsvReader}, r.quoted = false →
    (∀ c ∈ cs, ¬(c = '"' ∨ c = '\r' ∨ c = '\n' ∨ c = ',')) →
      ∃ r', scan maxRows (cs ++ rest) r = scan maxRows rest r' ∧ r.Read r' cs := by
  intro cs
  induction cs with
  | nil => exact fun {r} _ _ => ⟨r, rfl, rfl, by simp, rfl, rfl⟩
  | cons c cs ih =>
    intro r hq hp
    have hc := hp c List.mem_cons_self
    simp only [not_or] at hc
    obtain ⟨hquo, hr, hn, hcom⟩ := hc
    obtain ⟨r', hs, hread⟩ := @ih { r.take c with started := true } hq
      fun d hd => hp d (List.mem_cons_of_mem c hd)
    refine ⟨r', ?_, hread.quoted, ?_, hread.cells, hread.records⟩
    · rw [List.cons_append, scan.eq_def]
      simp only [hq, hquo, hcom, hr, hn, or_self, if_false, Bool.false_eq_true]
      exact hs
    · rw [hread.cell]
      simp [CsvReader.take]

/-- Between quotes every character is taken, a doubled quote as one. -/
theorem scan_quoted (rest : List Char) : ∀ {cs : List Char} {r : CsvReader}, r.quoted = true →
    ∃ r', scan maxRows (doubleQuotes cs ++ rest) r = scan maxRows rest r' ∧ r.Read r' cs := by
  intro cs
  induction cs with
  | nil => exact fun {r} _ => ⟨r, rfl, rfl, by simp, rfl, rfl⟩
  | cons c cs ih =>
    intro r hq
    rw [doubleQuotes_cons]
    by_cases hc : c = '"'
    · obtain ⟨r', hs, hr⟩ :=
        @ih { r.skip 2 with pending := r.pending ++ r.piece ++ ['"'] } hq
      refine ⟨r', ?_, hr.quoted, ?_, hr.cells, hr.records⟩
      · rw [if_pos hc]
        show scan maxRows ('"' :: '"' :: (doubleQuotes cs ++ rest)) r = _
        rw [scan.eq_def]
        simp only [hq, if_true, ne_eq, not_true_eq_false, if_false]
        exact hs
      · rw [hr.cell, hc]
        simp [CsvReader.skip]
    · obtain ⟨r', hs, hr⟩ := @ih (r.take c) hq
      refine ⟨r', ?_, hr.quoted, ?_, hr.cells, hr.records⟩
      · rw [if_neg hc]
        show scan maxRows (c :: (doubleQuotes cs ++ rest)) r = _
        rw [scan.eq_def]
        simp only [hq, if_true, ne_eq, hc, not_false_eq_true]
        exact hs
      · rw [hr.cell]
        simp [CsvReader.take]

theorem scan_close {rest : List Char} (hr : endsField rest = true) {r : CsvReader}
    (hq : r.quoted = true) : scan maxRows ('"' :: rest) r =
      scan maxRows rest { r.skip 1 with pending := r.pending ++ r.piece, quoted := false } := by
  rw [scan.eq_def]
  simp only [hq, if_true, ne_eq, not_true_eq_false, if_false]
  split
  · simp [endsField] at hr
  · next rest _ => rw [if_neg (by simpa using hr)]

/-- The reader stands before a cell. -/
structure CsvReader.AtField (r : CsvReader) : Prop where
  quoted : r.quoted = false
  piece : r.piece = []
  pending : r.pending = []

/-- **A field is read back**, whatever its characters are. -/
theorem scan_field (value : String) {rest : List Char} (hrest : endsField rest = true)
    {r : CsvReader} (h : r.AtField) :
    ∃ r', scan maxRows ((csvField value).toList ++ rest) r = scan maxRows rest r' ∧
      r.Read r' value.toList := by
  unfold csvField
  split
  · -- the opening quote, the characters and the closing quote
    obtain ⟨r', hs, hr⟩ := @scan_quoted maxRows ('"' :: rest) value.toList
      { r.skip 1 with quoted := true, started := true } rfl
    refine ⟨{ r'.skip 1 with pending := r'.pending ++ r'.piece, quoted := false }, ?_, h.quoted.symm,
      ?_, hr.cells, hr.records⟩
    · rw [String.toList_ofList, List.append_assoc, List.cons_append, scan.eq_def]
      have he : r.empty = true := by simp [CsvReader.empty, h.piece, h.pending]
      simp only [h.quoted, Bool.false_eq_true, if_false, if_true, he, Bool.not_true]
      rw [List.singleton_append, hs, scan_close hrest hr.quoted]
    · have hcell := hr.cell
      simp only [CsvReader.skip, h.pending, List.nil_append] at hcell
      simp [CsvReader.skip, hcell, h.pending, h.piece]
  · next hn =>
    refine scan_plain rest h.quoted fun c hc => ?_
    simp only [needsQuoting, Bool.not_eq_true, List.any_eq_false] at hn
    simpa [and_assoc] using hn c hc

/-! ### Records -/

/-- The cells a record is read as: one without fields is a blank line, which has one
empty cell. -/
def cellsRead : List String → List String
  | [] => [""]
  | values => values

theorem scan_fields (rest : List Char) (hrest : endsField rest = true) :
    ∀ {values : List String} {r : CsvReader}, r.AtField →
      ∃ r', scan maxRows ((csvFields values).toList ++ rest) r = scan maxRows rest r' ∧
        r'.quoted = false ∧ r'.endField.cells = r.cells ++ cellsRead values ∧
        r'.records = r.records := by
  intro values
  induction values with
  | nil => exact fun {r} h => ⟨r, by simp [csvFields], h.quoted,
      by simp [CsvReader.endField, CsvReader.cell, h.piece, h.pending, cellsRead], rfl⟩
  | cons value values ih =>
    intro r h
    cases values with
    | nil =>
      obtain ⟨r', hs, hr⟩ := @scan_field maxRows value rest hrest r h
      refine ⟨r', hs, hr.quoted.trans h.quoted, ?_, hr.records⟩
      simp [CsvReader.endField, CsvReader.cell, hr.cells, hr.cell, h.piece, h.pending, cellsRead]
    | cons next values =>
      obtain ⟨r₁, hscan₁, hr⟩ := @scan_field maxRows value
        (',' :: ((csvFields (next :: values)).toList ++ rest)) rfl r h
      have hq := hr.quoted.trans h.quoted
      obtain ⟨r', hs', hq', hc, hrec⟩ :=
        @ih (r₁.endField.skip 1) ⟨hq, rfl, rfl⟩
      refine ⟨r', ?_, hq', ?_, hrec.trans hr.records⟩
      · rw [show csvFields (value :: next :: values) =
            csvField value ++ "," ++ csvFields (next :: values) from rfl,
          String.toList_append, String.toList_append, List.append_assoc, List.append_assoc]
        show scan maxRows ((csvField value).toList ++
          ',' :: ((csvFields (next :: values)).toList ++ rest)) r = _
        rw [hscan₁, scan.eq_def]
        simp only [hq, Bool.false_eq_true, if_false, if_true, Char.reduceEq]
        exact hs'
      · rw [hc]
        simp [CsvReader.skip, CsvReader.endField, CsvReader.cell, hr.cells, hr.cell,
          h.piece, h.pending, cellsRead]

/-- The reader stands before a record. -/
structure CsvReader.AtRecord (r : CsvReader) : Prop extends r.AtField where
  cells : r.cells = []
  started : r.started = false

/-- The refusal of a file that is too long. -/
def tooManyRows (maxRows : ℕ) : CsvError :=
  ⟨.tooManyRows, "The file holds more than " ++ toString maxRows ++ " rows."⟩

/-- **A record is read as the cells it was written from**, or is one too many. -/
theorem scan_record (values : List String) (rest : List Char) {r : CsvReader} (h : r.AtRecord) :
    if maxRows < r.records.length then
      scan maxRows ((csvRecord values).toList ++ rest) r = .error (tooManyRows maxRows)
    else ∃ r', scan maxRows ((csvRecord values).toList ++ rest) r = scan maxRows rest r' ∧
      r'.AtRecord ∧ r'.records = r.records ++ [cellsRead values] := by
  obtain ⟨r', hs, hq, hc, hr⟩ :=
    @scan_fields maxRows ('\r' :: '\n' :: rest) rfl values r h.toAtField
  rw [h.cells, List.nil_append] at hc
  have hf : scan maxRows ((csvRecord values).toList ++ rest) r = match r'.endRecord maxRows with
      | .error error => .error error
      | .ok r => scan maxRows rest (r.skip 2) := by
    rw [csvRecord, String.toList_append, List.append_assoc]
    show scan maxRows ((csvFields values).toList ++ '\r' :: '\n' :: rest) r = _
    rw [hs, scan.eq_def]
    simp only [hq, Bool.false_eq_true, if_false, if_true, Char.reduceEq, true_or]
  rw [hf, CsvReader.endRecord]
  simp only [hc, hr, List.length_append, List.length_singleton, Nat.add_lt_add_iff_right]
  split
  · rfl
  · exact ⟨_, rfl, ⟨⟨hq, rfl, rfl⟩, rfl, rfl⟩, rfl⟩

/-- Records one after another.  By induction on the records. -/
theorem scan_records : ∀ {records : List (List String)} {r : CsvReader}, r.AtRecord →
    r.records.length ≤ maxRows + 1 → if maxRows + 1 < r.records.length + records.length then
        scan maxRows (records.flatMap fun values => (csvRecord values).toList) r =
          .error (tooManyRows maxRows)
      else ∃ r', scan maxRows (records.flatMap fun values => (csvRecord values).toList) r = .ok r' ∧
        r'.AtRecord ∧ r'.records = r.records ++ records.map cellsRead := by
  intro records
  induction records with
  | nil =>
    intro r h hl
    rw [if_neg (by simpa using hl)]
    exact ⟨r, rfl, h, by simp⟩
  | cons values records ih =>
    intro r h hl
    have hr := @scan_record maxRows values
      (records.flatMap fun values => (csvRecord values).toList) r h
    rw [List.flatMap_cons, List.length_cons]
    split at hr
    · rw [if_pos (by omega)]
      exact hr
    · obtain ⟨r₁, hscan₁, h₁, hrecords₁⟩ := hr
      have hlength₁ : r₁.records.length = r.records.length + 1 := by simp [hrecords₁]
      have hrest := ih h₁ (by omega)
      rw [hlength₁, Nat.add_assoc, Nat.add_comm 1] at hrest
      rw [hscan₁]
      split at hrest
      · rw [if_pos (by assumption)]
        exact hrest
      · rw [if_neg (by assumption)]
        obtain ⟨r', hs', h', hrec'⟩ := hrest
        exact ⟨r', hs', h', by simp [hrec', hrecords₁]⟩

/-- **The records of a file are read back**, as far as there are not too many. -/
theorem parseRecords_csvRecord (records : List (List String)) :
    parseRecords (records.flatMap fun values => (csvRecord values).toList) maxRows =
      if maxRows + 1 < records.length then .error (tooManyRows maxRows)
      else .ok (records.map cellsRead) := by
  have hs := @scan_records maxRows records {} ⟨⟨rfl, rfl, rfl⟩, rfl, rfl⟩ (Nat.zero_le _)
  have hz : (({} : CsvReader).records.length + records.length) = records.length := Nat.zero_add _
  rw [hz] at hs
  unfold parseRecords
  split at hs
  · rw [hs, if_pos (by assumption)]
    rfl
  · rw [if_neg (by assumption)]
    obtain ⟨r, hr, hat, hrec⟩ := hs
    rw [hr]
    show (if r.quoted then _ else _) = _
    simp only [hat.quoted, hat.started, hat.cells, CsvReader.empty, hat.piece, hat.pending,
      Bool.false_eq_true, if_false, List.isEmpty_nil, Bool.and_self, Bool.not_true, Bool.or_self]
    exact congrArg Except.ok hrec

/-! ### A file -/

theorem fromUTF8?_toByteArray (text : String) : String.fromUTF8? text.toByteArray = some text := by
  unfold String.fromUTF8?
  rw [dif_pos text.isValidUTF8]
  rfl

/-- What a record has behind its first field. -/
def recordRest : List String → List Char
  | [] => ['\r', '\n']
  | names => ',' :: (csvRecord names).toList

theorem csvRecord_cons (name : String) (names : List String) :
    (csvRecord (name :: names)).toList = (csvField name).toList ++ recordRest names := by
  cases names with
  | nil => rw [csvRecord, String.toList_append]; rfl
  | cons next names =>
    rw [csvRecord, show csvFields (name :: next :: names) =
        csvField name ++ "," ++ csvFields (next :: names) from rfl]
    simp [recordRest, csvRecord]

theorem withoutBom_of_ne {c : Char} (h : c ≠ CSV_BOM) (cs : List Char) :
    withoutBom (c :: cs) = c :: cs :=
  if_neg h

theorem withoutBom_recordRest (names : List String) (rest : List Char) :
    withoutBom (recordRest names ++ rest) = recordRest names ++ rest := by
  cases names with
  | nil => exact withoutBom_of_ne (by decide) _
  | cons name names => exact withoutBom_of_ne (by decide) _

/-- **The second mark a reader drops is one of the first name**, which is trimmed
anyway. -/
theorem exists_withoutBom (header : List String) (rest : List Char) :
    ∃ header', withoutBom ((csvRecord header).toList ++ rest) = (csvRecord header').toList ++ rest ∧
      header'.map trimCell = header.map trimCell := by
  cases header with
  | nil => exact ⟨[], withoutBom_of_ne (by decide) _, rfl⟩
  | cons name names =>
    rw [csvRecord_cons, List.append_assoc]
    by_cases hn : needsQuoting name = true
    · refine ⟨name :: names, ?_, rfl⟩
      rw [csvRecord_cons, List.append_assoc, csvField, if_pos hn, String.toList_ofList]
      exact withoutBom_of_ne (by decide) _
    · have hp : (csvField name).toList = name.toList := by rw [csvField, if_neg hn]
      rw [hp]
      cases hname : name.toList with
      | nil =>
        refine ⟨name :: names, ?_, rfl⟩
        rw [csvRecord_cons, List.append_assoc, hp, hname]
        exact withoutBom_recordRest names rest
      | cons c cs =>
        by_cases hc : c = CSV_BOM
        · -- the name loses the mark
          have hn' : ¬needsQuoting (String.ofList cs) = true := by
            intro h
            refine hn ?_
            rw [needsQuoting, String.toList_ofList] at h
            rw [needsQuoting, hname, List.any_cons, h, Bool.or_true]
          refine ⟨String.ofList cs :: names, ?_, ?_⟩
          · rw [csvRecord_cons, List.append_assoc, csvField, if_neg hn', String.toList_ofList]
            exact if_pos hc
          · have ht : trimChars cs = trimChars (c :: cs) := by
              rw [trimChars, trimChars, List.dropWhile_cons_of_pos (by rw [hc]; decide)]
            rw [List.map_cons, List.map_cons, trimCell, trimCell, String.toList_ofList, hname, ht]
        · refine ⟨name :: names, ?_, rfl⟩
          rw [csvRecord_cons, List.append_assoc, hp, hname]
          exact withoutBom_of_ne hc _

/-- The bytes of an export as the text a reader decodes. -/
theorem decodeCsv_exportBytes (header : List String) (rows : List (List String)) :
    ∃ header', decodeCsv (exportBytes header rows) =
        .ok ((header' :: rows).flatMap fun values => (csvRecord values).toList) ∧
      header'.map trimCell = header.map trimCell := by
  obtain ⟨header', ht, htrim⟩ :=
    exists_withoutBom header (rows.flatMap fun row => (csvRecord row).toList)
  refine ⟨header', ?_, htrim⟩
  have hm : ∀ cs, withoutBom (CSV_BOM :: cs) = cs := fun cs => by rw [withoutBom, if_pos rfl]
  rw [decodeCsv, exportBytes, fromUTF8?_toByteArray]
  simp only [String.toList_ofList, List.cons_append]
  rw [hm, ht, List.flatMap_cons]

/-- Names of columns a reader takes: none is blank, none comes twice, and there is
one. -/
def Readable (names : List String) : Prop :=
  names ≠ [] ∧ "" ∉ names ∧ names.Nodup

theorem checkHeader_eq_ok : ∀ {names seen : List String},
    checkHeader seen names = .ok () ↔ "" ∉ names ∧ names.Nodup ∧ ∀ name ∈ names, name ∉ seen := by
  intro names
  induction names with
  | nil => simp [checkHeader]
  | cons name names ih =>
    intro seen
    unfold checkHeader
    split
    · next hb => simp [hb]
    · split
      · next hs => simp [hs]
      · next hb hs =>
        rw [ih]
        simp only [List.mem_cons, List.nodup_cons, List.mem_append, List.not_mem_nil, or_false,
          forall_eq_or_imp, not_or]
        constructor
        · rintro ⟨hnot, hn, ha⟩
          exact ⟨⟨Ne.symm hb, hnot⟩, ⟨fun hm => (ha name hm).2 rfl, hn⟩, hs,
            fun other ho => (ha other ho).1⟩
        · rintro ⟨⟨-, hnot⟩, ⟨hname, hn⟩, -, ha⟩
          refine ⟨hnot, hn, fun other ho => ⟨ha other ho, ?_⟩⟩
          rintro rfl
          exact hname ho

theorem map_cellsRead {rows : List (List String)} (h : [] ∉ rows) : rows.map cellsRead = rows := by
  induction rows with
  | nil => rfl
  | cons row rows ih =>
    rw [List.mem_cons, not_or] at h
    rw [List.map_cons, ih h.2]
    cases row with
    | nil => exact absurd rfl h.1
    | cons cell cells => rfl

/-- Reading the bytes of a file. -/
def readBytes (bytes : ByteArray) (maxRows : ℕ) : Except CsvError CsvDocument := do
  parseCsv (← decodeCsv bytes) maxRows

/-- **An export is read back**: as the trimmed names of its header and its rows as
they are, cell by cell, if the trimmed names are ones a reader takes and the rows
are not too many, and is refused otherwise. -/
theorem readBytes_exportBytes (header : List String) (rows : List (List String)) (maxRows : ℕ)
    (hwidth : ∀ row ∈ rows, row.length = header.length) (document : CsvDocument) :
    readBytes (exportBytes header rows) maxRows = .ok document ↔
      document = ⟨header.map trimCell, numberRows rows⟩ ∧ Readable (header.map trimCell) ∧
        rows.length ≤ maxRows := by
  obtain ⟨header', hd, ht⟩ := decodeCsv_exportBytes header rows
  rw [readBytes, hd]
  show parseCsv _ maxRows = _ ↔ _
  rw [parseCsv, parseRecords_csvRecord, List.length_cons]
  split
  · next htoo => exact iff_of_false (by nofun) fun h => by omega
  · next hrows =>
    have hle : rows.length ≤ maxRows := by omega
    show (if cellsRead header' = [""] then _ else _) = _ ↔ _
    have he : cellsRead header' = [""] → ¬Readable (header.map trimCell) := by
      rw [← ht]
      rintro h ⟨hne, hb, -⟩
      cases header' with
      | nil => exact hne rfl
      | cons name names =>
        rw [show cellsRead (name :: names) = name :: names from rfl] at h
        rw [h] at hb
        exact hb (by decide)
    split
    · next h => exact iff_of_false (by nofun) fun hr => he h hr.2.1
    · next h =>
      have hne : header' ≠ [] := by
        rintro rfl
        exact h rfl
      have hr : cellsRead header' = header' := by
        cases header' with
        | nil => exact absurd rfl hne
        | cons name names => rfl
      have hw : [] ∉ rows := by
        intro hm
        have hz := hwidth [] hm
        rw [List.length_nil, ← List.length_map trimCell, ← ht, List.length_map] at hz
        exact hne (List.length_eq_zero_iff.1 hz.symm)
      rw [hr, map_cellsRead hw, ht]
      have hh : Readable (header.map trimCell) ↔ checkHeader [] (header.map trimCell) = .ok () := by
        rw [checkHeader_eq_ok, Readable]
        have : header.map trimCell ≠ [] := by rw [← ht]; simpa using hne
        simp [this]
      rw [hh]
      cases hc : checkHeader [] (header.map trimCell) with
      | error error => exact iff_of_false (by nofun) fun h => by cases h.2.1
      | ok u =>
        show Except.ok (CsvDocument.mk _ _) = _ ↔ _
        rw [Except.ok.injEq]
        exact ⟨fun h => ⟨h.symm, rfl, hle⟩, fun h => h.1.symm⟩

/-- Cells with quotes, commas, line breaks and marks, and an empty one. -/
theorem readBytes_exportBytes_cells : readBytes (exportBytes ["name", "note"]
        [["\ufeffAda", "said \"go\", then\r\nleft"], ["", "=1+1"]]) 10 =
      .ok ⟨["name", "note"], numberRows
        [["\ufeffAda", "said \"go\", then\r\nleft"], ["", "=1+1"]]⟩ := by
  refine (readBytes_exportBytes _ _ 10 (by decide) _).2 ⟨?_, ?_, by decide⟩
  · decide +kernel
  · exact ⟨by decide, by decide +kernel, by decide +kernel⟩

/-- **The header is not returned as it was written** where a name has white space
around it. -/
theorem readBytes_trims_header :
    ¬∀ (header : List String) (rows : List (List String)) (maxRows : ℕ),
      rows.length ≤ maxRows → (∀ row ∈ rows, row.length = header.length) →
        readBytes (exportBytes header rows) maxRows = .ok ⟨header, numberRows rows⟩ := by
  intro h
  have hr := h [" name"] [] 10 (by decide) (by decide)
  have hd : decodeCsv (exportBytes [" name"] []) = .ok (csvRecord [" name"]).toList := by
    rw [decodeCsv, exportBytes, fromUTF8?_toByteArray]
    decide +kernel
  rw [readBytes, hd] at hr
  exact absurd hr (by decide +kernel)

end

/-! ### A file, whatever the bound -/

theorem CsvReader.endRecord_eq_ok {r r' : CsvReader} {maxRows : ℕ} (h : r.endRecord maxRows = .ok r') :
    r' = { r.endField with records := r.records ++ [r.endField.cells], cells := [], started := false } ∧
      r'.records.length ≤ maxRows + 1 := by
  unfold CsvReader.endRecord at h
  dsimp only at h
  split at h
  · cases h
  · next hle =>
    cases h
    exact ⟨rfl, Nat.le_of_not_lt hle⟩

/-- What is read does not depend on the bound. -/
theorem scan_unique {maxRows maxRows' : ℕ} {text : List Char} {r a b : CsvReader}
    (h : scan maxRows text r = .ok a) (h' : scan maxRows' text r = .ok b) : a = b := by
  fun_induction scan maxRows text r with
  | case5 c r hq hquo rest hn r₁ he ih =>
    rw [scan.eq_def] at h'
    simp_all
    exact ih h'
  | case9 => cases h
  | case10 r hq r₁ hend rest hquo hc hb ih =>
    rw [scan.eq_def] at h'
    simp only [hq, hquo, hc, true_or, if_true, if_false] at h'
    cases hend' : r.endRecord maxRows' with
    | error error => rw [hend'] at h'; cases h'
    | ok r₂ =>
      rw [hend'] at h'
      have hs : r₂ = r₁ := (r.endRecord_eq_ok hend').1.trans (r.endRecord_eq_ok hend).1.symm
      rw [hs] at h'
      exact ih h h'
  | case11 c r hq hquo hc hb r₁ hend rest hn ih =>
    rw [scan.eq_def] at h'
    simp only [hq, hquo, hc, hb, Bool.false_eq_true, if_true, if_false] at h'
    cases hend' : r.endRecord maxRows' with
    | error error => rw [hend'] at h'; cases h'
    | ok r₂ =>
      rw [hend'] at h'
      have hs : r₂ = r₁ := (r.endRecord_eq_ok hend').1.trans (r.endRecord_eq_ok hend).1.symm
      rw [hs] at h'
      dsimp only at h'
      exact ih h h'
  | _ =>
    rw [scan.eq_def] at h'
    simp_all


/-- No more records are read than the bound and the header allow. -/
theorem scan_length {maxRows : ℕ} {text : List Char} {r a : CsvReader}
    (h : scan maxRows text r = .ok a) (hr : r.records.length ≤ maxRows + 1) :
    a.records.length ≤ maxRows + 1 := by
  fun_induction scan maxRows text r with
  | case1 r =>
    cases h
    exact hr
  | case10 r hq r₁ he rest hquo hc hb ih => exact ih h (r.endRecord_eq_ok he).2
  | case11 c r hq hquo hc hb r₁ he rest hn ih =>
    exact ih h (r.endRecord_eq_ok he).2
  | case2 | case3 | case5 | case7 | case8 | case12 =>
    rename_i ih
    exact ih h hr
  | case4 | case6 | case9 => cases h

theorem parseRecords_eq_ok {text : List Char} {maxRows : ℕ} {records : List (List String)}
    (h : parseRecords text maxRows = .ok records) : ∃ r, scan maxRows text {} = .ok r ∧
      records.length ≤ maxRows + 1 ∧
      records = if r.started || !r.empty || !r.cells.isEmpty then r.records ++ [r.endField.cells]
        else r.records := by
  obtain ⟨r, hs, hrest⟩ := Lib.bind_eq_ok h
  have hl : r.records.length ≤ maxRows + 1 := scan_length hs (Nat.zero_le _)
  refine ⟨r, hs, ?_⟩
  split at hrest
  · cases hrest
  · split at hrest
    · next ho =>
      obtain ⟨r', he, hrec⟩ := Lib.bind_eq_ok hrest
      obtain ⟨hr', hle⟩ := r.endRecord_eq_ok he
      cases hrec
      rw [if_pos ho]
      exact ⟨hle, by rw [hr']⟩
    · next hc =>
      cases hrest
      rw [if_neg hc]
      exact ⟨hl, rfl⟩

theorem parseRecords_unique {text : List Char} {maxRows maxRows' : ℕ} {records records' : List (List String)}
    (h : parseRecords text maxRows = .ok records) (h' : parseRecords text maxRows' = .ok records') :
    records = records' := by
  obtain ⟨r, hs, -, hr⟩ := parseRecords_eq_ok h
  obtain ⟨r', hs', -, hr'⟩ := parseRecords_eq_ok h'
  rw [hr, hr', scan_unique hs hs']

/-- A file that is read: its records, the first of which is the header. -/
theorem readBytes_eq_ok {body : ByteArray} {maxRows : ℕ} {document : CsvDocument}
    (h : readBytes body maxRows = .ok document) : ∃ text header records,
      decodeCsv body = .ok text ∧ parseRecords text maxRows = .ok (header :: records) ∧
        document = ⟨header.map trimCell, numberRows records⟩ := by
  obtain ⟨text, hdec, hp⟩ := Lib.bind_eq_ok h
  obtain ⟨records, hrec, hr⟩ := Lib.bind_eq_ok hp
  cases records with
  | nil => cases hr
  | cons header records =>
    dsimp only at hr
    split at hr
    · cases hr
    · obtain ⟨-, -, hd⟩ := Lib.bind_eq_ok hr
      cases hd
      exact ⟨text, header, records, hdec, hrec, rfl⟩

/-- **A file has one reading**, whatever the bound. -/
theorem readBytes_unique {body : ByteArray} {maxRows maxRows' : ℕ} {document document' : CsvDocument}
    (h : readBytes body maxRows = .ok document) (h' : readBytes body maxRows' = .ok document') :
    document = document' := by
  obtain ⟨text, header, records, hd, hr, rfl⟩ := readBytes_eq_ok h
  obtain ⟨text', header', records', hd', hr', rfl⟩ := readBytes_eq_ok h'
  rw [hd] at hd'
  cases hd'
  cases parseRecords_unique hr hr'
  rfl

/-- The data rows of a file are numbered from 1, and are no more than the bound. -/
theorem readBytes_rows {body : ByteArray} {maxRows : ℕ} {document : CsvDocument}
    (h : readBytes body maxRows = .ok document) :
    document.rows.map (·.row) = List.range' 1 document.rows.length ∧
      document.rows.length ≤ maxRows := by
  obtain ⟨text, header, records, -, hr, rfl⟩ := readBytes_eq_ok h
  obtain ⟨-, -, hl, -⟩ := parseRecords_eq_ok hr
  rw [List.length_cons] at hl
  constructor
  · refine List.ext_getElem (by simp [numberRows]) fun i _ _ => ?_
    simp [numberRows, Nat.add_comm]
  · rw [numberRows, List.length_mapIdx]
    omega

end Flowdular.Import
