/-
# The envelope of a stored object

`src/packages/storage/src/envelope.ts`, the keys and the content types of `contracts.ts`
and `content-type.ts`, and the ring of `src/packages/kernel/src/keyring.ts`.

An object is one frame: a mark, the length of a header, the header as JSON and the
ciphertext.  The header is in the clear, but the key of the object and the fields of the
header go into the additional data of the cipher, joined by line breaks.  No field of an
admitted object has a line break, so the additional data tell them apart
(`additionalData_inj`), and what the writer of a frame wrote the parser reads
(`parseHeader_frameOf`).

What the code takes from its host, the cipher and the conversions of `Buffer`, is a class
(`StorageHost`); what it relies on of them is `StorageHost.Lawful` and, of the cipher's
secrecy, `StorageHost.Binding`.
-/

import Flowdular.Lib.Bytes
import Flowdular.Workflows.JsonText
import Flowdular.Lib.Delimited

namespace Flowdular.Storage

open Lib (Bytes)
open Lib.Bytes (utf8 littleEndian number)
open Workflows (Json Decimal)

/-! ### The host -/

/-- A key of the ring: 32 bytes. -/
abbrev CipherKey :=
  Vector UInt8 32

/-- What the storage takes from its host: the fingerprint of a key, digests, the cipher
with additional data, and the conversions of `Buffer`, `JSON.parse` and `Date`. -/
class StorageHost where
  keyFingerprint : CipherKey → String
  sha256Hex : Bytes → String
  /-- The ciphertext and the tag of a plaintext under a key, a nonce and additional data. -/
  encrypt : CipherKey → Bytes → Bytes → Bytes → Bytes × Bytes
  /-- The plaintext under a key, a nonce, a tag, a ciphertext and additional data. -/
  decrypt : CipherKey → Bytes → Bytes → Bytes → Bytes → Option Bytes
  toText : Bytes → String
  parse : String → Option Json
  toBase64 : Bytes → String
  fromBase64 : String → Bytes
  toISOString : ℤ → Option String
  parseDate : String → Option ℤ

/-! ### The ring of keys -/

/-- `Keyring`, as `createKeyring` makes it. -/
structure Keyring where
  current : CipherKey
  previous : List CipherKey := []
  bounded : previous.length ≤ 8 := by decide

/-- What the functions throw: a `StorageError`, a `KeyringError`, or an error of the
language. -/
inductive StorageFault where
  | storage (code message : String)
  | keyring (code message : String)
  | typeError
  | rangeError
deriving DecidableEq, Repr

structure SealedEnvelope where
  keyId : String
  iv : Bytes
  tag : Bytes
  ciphertext : Bytes

section

variable [StorageHost]

namespace Keyring

def keyId (ring : Keyring) : String :=
  StorageHost.keyFingerprint ring.current

/-- `keys.get`: a key listed twice counts once. -/
def key (ring : Keyring) (keyId : String) : Option CipherKey :=
  (ring.current :: ring.previous).find? fun key => StorageHost.keyFingerprint key = keyId

def knows (ring : Keyring) (keyId : String) : Bool :=
  (ring.key keyId).isSome

/-- `seal`, with the nonce it draws. -/
def sealWith (ring : Keyring) (iv : Vector UInt8 12) (plaintext : Bytes) (additional : String) :
    SealedEnvelope :=
  let sealed := StorageHost.encrypt ring.current iv.toList plaintext (utf8 additional)
  { keyId := ring.keyId, iv := iv.toList, tag := sealed.2, ciphertext := sealed.1 }

/-- `open`, of an envelope that names its key. -/
def openEnvelope (ring : Keyring) (envelope : SealedEnvelope) (additional : String) :
    Except StorageFault Bytes :=
  if envelope.iv.length ≠ 12 ∨ envelope.tag.length ≠ 16 then
    .error (.keyring "ENVELOPE_INVALID"
      "The envelope does not carry a 12-byte nonce and a 16-byte authentication tag.")
  else
    match ring.key envelope.keyId with
    | none =>
      .error (.keyring "KEY_UNKNOWN" ("No key in this ring has the id " ++ envelope.keyId ++ "."))
    | some key =>
      match StorageHost.decrypt key envelope.iv envelope.tag envelope.ciphertext
          (utf8 additional) with
      | none =>
        .error (.keyring "ENVELOPE_INVALID"
          "The envelope failed authentication under the key it names.")
      | some plaintext => .ok plaintext

/-- A ring opens what its own key sealed. -/
theorem key_keyId (ring : Keyring) : ring.key ring.keyId = some ring.current := by
  rw [key, List.find?_cons_of_pos]
  simp [keyId]

end Keyring

end

/-! ### Headers -/

/-- `StorageScanVerdict`. -/
inductive ScanVerdict where
  | clean
  | infected
  | unscanned
deriving DecidableEq, Repr

/-- The verdict as it stands. -/
def ScanVerdict.text : ScanVerdict → String
  | .clean => "clean"
  | .infected => "infected"
  | .unscanned => "unscanned"

structure FrameDraft where
  contentType : String
  bytes : Decimal
  checksum : String
  scan : ScanVerdict
  createdAt : String
deriving DecidableEq

/-- `FrameHeader`, but for its version. -/
structure FrameHeader extends FrameDraft where
  keyId : String
  iv : String
  tag : String
deriving DecidableEq

/-- `StoredObject`, with the date as it is parsed. -/
structure StoredObject where
  key : String
  bytes : Decimal
  contentType : String
  checksum : String
  keyId : String
  scan : ScanVerdict
  createdAt : Option ℤ
deriving DecidableEq

def MAGIC : String :=
  "FDS1"

def HEADER_LIMIT : ℕ :=
  4096

/-- The bytes before the header. -/
def prefixBytes : ℕ :=
  8

def STORAGE_HEADER_PREFIX_BYTES : ℕ :=
  prefixBytes + HEADER_LIMIT

/-- The fields of the additional data. -/
def additionalFields (key : String) (draft : FrameDraft) : List String :=
  [key, draft.contentType, draft.bytes.text, draft.checksum, draft.scan.text, draft.createdAt]

def additionalData (key : String) (draft : FrameDraft) : String :=
  String.intercalate "\n" (additionalFields key draft)

def corrupt (detail : String) : StorageFault :=
  .storage "OBJECT_CORRUPT" ("The stored object could not be read: " ++ detail ++ ".")

/-- The header as `JSON.stringify` sees it. -/
def FrameHeader.json (header : FrameHeader) : Json :=
  .obj [("v", .num 1), ("keyId", .str header.keyId), ("iv", .str header.iv), ("tag", .str header.tag),
    ("contentType", .str header.contentType), ("bytes", .num header.bytes),
    ("checksum", .str header.checksum), ("scan", .str header.scan.text),
    ("createdAt", .str header.createdAt)]

/-- The verdict a header names. -/
def scanOf (value : Option Json) : Option ScanVerdict :=
  [ScanVerdict.clean, .infected, .unscanned].find? fun scan => value = some (.str scan.text)

/-- The header of a parsed value, if it describes a version 1 object. -/
def headerOf (parsed : Json) : Option FrameHeader :=
  match parsed.get? "v", parsed.get? "keyId", parsed.get? "iv", parsed.get? "tag",
      parsed.get? "contentType", parsed.get? "bytes", parsed.get? "checksum",
      parsed.get? "createdAt", scanOf (parsed.get? "scan") with
  | some (.num v), some (.str keyId), some (.str iv), some (.str tag), some (.str contentType),
      some (.num bytes), some (.str checksum), some (.str createdAt), some scan =>
    if v = 1 then some { keyId, iv, tag, contentType, bytes, checksum, scan, createdAt } else none
  | _, _, _, _, _, _, _, _, _ => none

/-- `writeUInt32BE`. -/
def uint32BE (n : ℕ) : Bytes :=
  (littleEndian 4 n).reverse

/-- `getUint32(offset, false)`. -/
def readUint32BE (bytes : Bytes) : ℕ :=
  number (bytes.take 4).reverse

section

variable [StorageHost]

/-- `parseHeader`: the header and the offset of the ciphertext. -/
def parseHeader (frame : Bytes) : Except StorageFault (FrameHeader × ℕ) :=
  if frame.length < prefixBytes then .error (corrupt "the frame is truncated")
  else if StorageHost.toText (frame.take 4) ≠ MAGIC then
    .error (corrupt "the frame carries no Flowdular object header")
  else
    let length := readUint32BE (frame.drop 4)
    if length = 0 ∨ HEADER_LIMIT < length then
      .error (corrupt "the header length is out of range")
    else if frame.length < prefixBytes + length then .error (corrupt "the header is truncated")
    else
      match StorageHost.parse (StorageHost.toText ((frame.drop prefixBytes).take length)) with
      | none => .error (.storage "OBJECT_CORRUPT" "The stored object header is not JSON.")
      | some .null => .error .typeError
      | some parsed =>
        match headerOf parsed with
        | none => .error (corrupt "the header does not describe a version 1 object")
        | some header => .ok (header, prefixBytes + length)

def describe (key : String) (header : FrameHeader) : StoredObject where
  key := key
  bytes := header.bytes
  contentType := header.contentType
  checksum := header.checksum
  keyId := header.keyId
  scan := header.scan
  createdAt := StorageHost.parseDate header.createdAt

/-- The frame of a header and a ciphertext. -/
def frameOf (header : FrameHeader) (ciphertext : Bytes) : Bytes :=
  let encoded := utf8 (Json.stringify header.json)
  utf8 MAGIC ++ uint32BE encoded.length ++ encoded ++ ciphertext

/-- The header of a draft under an envelope. -/
def headerUnder (draft : FrameDraft) (envelope : SealedEnvelope) : FrameHeader :=
  { draft with
    keyId := envelope.keyId
    iv := StorageHost.toBase64 envelope.iv
    tag := StorageHost.toBase64 envelope.tag }

/-- `sealFrame`, with the nonce the ring draws. -/
def sealFrame (ring : Keyring) (iv : Vector UInt8 12) (key : String) (plaintext : Bytes)
    (draft : FrameDraft) : Except StorageFault (Bytes × StoredObject) :=
  let sealed := ring.sealWith iv plaintext (additionalData key draft)
  let header := headerUnder draft sealed
  if HEADER_LIMIT < (utf8 (Json.stringify header.json)).length then
    .error (corrupt "the header exceeds its size limit")
  else .ok (frameOf header sealed.ciphertext, describe key header)

def storageChecksum (plaintext : Bytes) : String :=
  "sha256:" ++ StorageHost.sha256Hex plaintext

/-- `encodeStoredObject`, with the nonce the ring draws. -/
def encodeStoredObject (ring : Keyring) (iv : Vector UInt8 12) (key : String) (plaintext : Bytes)
    (contentType : String) (scan : ScanVerdict) (createdAt : ℤ) :
    Except StorageFault (Bytes × StoredObject) :=
  match StorageHost.toISOString createdAt with
  | none => .error .rangeError
  | some createdAt =>
    sealFrame ring iv key plaintext
      { contentType, bytes := .ofNat plaintext.length, checksum := storageChecksum plaintext, scan
        createdAt }

/-- The envelope a frame carries under its header. -/
def envelopeOf (header : FrameHeader) (ciphertext : Bytes) : SealedEnvelope where
  keyId := header.keyId
  iv := StorageHost.fromBase64 header.iv
  tag := StorageHost.fromBase64 header.tag
  ciphertext := ciphertext

def openFrame (ring : Keyring) (key : String) (frame : Bytes) :
    Except StorageFault (FrameHeader × Bytes) := do
  let (header, ciphertextOffset) ← parseHeader frame
  let plaintext ← ring.openEnvelope (envelopeOf header (frame.drop ciphertextOffset))
    (additionalData key header.toFrameDraft)
  return (header, plaintext)

def readStoredObjectHeader (key : String) (frame : Bytes) : Except StorageFault StoredObject := do
  let (header, _) ← parseHeader frame
  return describe key header

def openStoredObject (ring : Keyring) (key : String) (frame : Bytes) :
    Except StorageFault (StoredObject × Bytes) := do
  let (header, plaintext) ← openFrame ring key frame
  return (describe key header, plaintext)

/-- `resealStoredObject`, with the nonce the ring draws. -/
def resealStoredObject (ring : Keyring) (iv : Vector UInt8 12) (key : String) (frame : Bytes) :
    Except StorageFault (Bytes × StoredObject) := do
  let (header, plaintext) ← openFrame ring key frame
  sealFrame ring iv key plaintext header.toFrameDraft

end

/-! ### What the store admits -/

structure StorageObjectRef where
  tenantId : String
  moduleId : String
  objectId : String
deriving DecidableEq, Repr

/-- `[A-Za-z0-9]`. -/
def isIdStart (c : Char) : Bool :=
  (97 ≤ c.toNat && c.toNat ≤ 122) || (65 ≤ c.toNat && c.toNat ≤ 90) ||
    (48 ≤ c.toNat && c.toNat ≤ 57)

/-- `STORAGE_ID_PATTERN`. -/
def isStorageId (value : String) : Bool :=
  match value.toList with
  | [] => false
  | c :: cs => isIdStart c && cs.length ≤ 127 && cs.all fun c => isIdStart c || c = '.' || c = '_' || c = '-'

def assertId (value position : String) : Except StorageFault Unit :=
  if isStorageId value then .ok ()
  else .error (.storage "OBJECT_REFERENCE_INVALID" ("A storage " ++ position ++
    " must match ^[A-Za-z0-9][A-Za-z0-9._-]\x7b0,127\x7d$."))

def storageObjectKey (reference : StorageObjectRef) : Except StorageFault String := do
  assertId reference.tenantId "tenant id"
  assertId reference.moduleId "module id"
  assertId reference.objectId "object id"
  return reference.tenantId ++ "/" ++ reference.moduleId ++ "/" ++ reference.objectId

def STORAGE_CONTENT_TYPES : List String :=
  ["application/pdf", "image/png", "image/jpeg", "image/gif", "image/webp", "text/plain", "text/csv",
    "application/vnd.openxmlformats-officedocument.wordprocessingml.document",
    "application/vnd.openxmlformats-officedocument.spreadsheetml.sheet",
    "application/vnd.openxmlformats-officedocument.presentationml.presentation",
    "application/msword", "application/vnd.ms-excel"]

/-- What the store admits under a key: the key of a reference, a content type of its
list, and the size, the digest and the date of the plaintext. -/
structure Admitted [StorageHost] (key : String) (plaintext : Bytes) (draft : FrameDraft) : Prop where
  reference : ∃ r, storageObjectKey r = .ok key
  contentType : draft.contentType ∈ STORAGE_CONTENT_TYPES
  bytes : draft.bytes = .ofNat plaintext.length
  checksum : draft.checksum = storageChecksum plaintext
  createdAt : ∃ t, StorageHost.toISOString t = some draft.createdAt

/-! ### What the code relies on -/

/-- A text of printable characters in ASCII that JSON prints as they are. -/
def IsPlain (text : String) : Prop :=
  ∀ c ∈ text.toList, 0x20 ≤ c.toNat ∧ c.toNat < 0x7f ∧ c.toNat ≠ 0x22 ∧ c.toNat ≠ 0x5c

/-- The conversions and the cipher do what they are documented to. -/
structure StorageHost.Lawful [StorageHost] : Prop where
  keyFingerprint : ∀ key, IsPlain (StorageHost.keyFingerprint key) ∧
    (StorageHost.keyFingerprint key).toList.length = 16
  sha256Hex : ∀ bytes, IsPlain (StorageHost.sha256Hex bytes) ∧
    (StorageHost.sha256Hex bytes).toList.length = 64
  toISOString : ∀ t text, StorageHost.toISOString t = some text →
    IsPlain text ∧ text.toList.length ≤ 27
  toText : ∀ text, StorageHost.toText (utf8 text) = text
  parse : ∀ header : FrameHeader,
    StorageHost.parse (Json.stringify header.json) = some header.json
  fromBase64 : ∀ bytes, StorageHost.fromBase64 (StorageHost.toBase64 bytes) = bytes
  toBase64 : ∀ bytes, IsPlain (StorageHost.toBase64 bytes) ∧
    (StorageHost.toBase64 bytes).toList.length = 4 * ((bytes.length + 2) / 3)
  tag : ∀ key iv plaintext additional,
    (StorageHost.encrypt key iv plaintext additional).2.length = 16
  decrypt : ∀ key iv plaintext additional,
    StorageHost.decrypt key iv (StorageHost.encrypt key iv plaintext additional).2
      (StorageHost.encrypt key iv plaintext additional).1 additional = some plaintext

/-- **The cipher is secure**: what was encrypted is decrypted under its own key, nonce
and additional data only, to its own plaintext. -/
def StorageHost.Binding [StorageHost] : Prop :=
  ∀ key iv plaintext additional key' iv' plaintext' additional',
    StorageHost.decrypt key' iv' (StorageHost.encrypt key iv plaintext additional).2
        (StorageHost.encrypt key iv plaintext additional).1 additional' = some plaintext' →
      key' = key ∧ iv' = iv ∧ additional' = additional ∧ plaintext' = plaintext

/-! ### The additional data -/

section

variable [StorageHost]

omit [StorageHost] in
theorem IsPlain.notMem {text : String} (h : IsPlain text) : '\n' ∉ text.toList := by
  intro hm
  have hle := (h _ hm).1
  exact absurd hle (by decide)

omit [StorageHost] in
theorem notMem_of_isStorageId {value : String} (h : isStorageId value = true) :
    '\n' ∉ value.toList := by
  unfold isStorageId at h
  split at h
  · cases h
  · next c cs hv =>
    rw [Bool.and_eq_true, Bool.and_eq_true, List.all_eq_true] at h
    rw [hv]
    intro hm
    rcases List.mem_cons.1 hm with rfl | hm
    · exact absurd h.1.1 (by decide)
    · exact absurd (h.2 _ hm) (by decide)

omit [StorageHost] in
/-- The key of a reference has no line break. -/
theorem notMem_of_storageObjectKey {reference : StorageObjectRef} {key : String}
    (h : storageObjectKey reference = .ok key) : '\n' ∉ key.toList := by
  unfold storageObjectKey assertId at h
  by_cases ht : isStorageId reference.tenantId = true
  · by_cases hm : isStorageId reference.moduleId = true
    · by_cases ho : isStorageId reference.objectId = true
      · rw [if_pos ht, if_pos hm, if_pos ho] at h
        cases h
        have ht := notMem_of_isStorageId ht
        have hm := notMem_of_isStorageId hm
        have ho := notMem_of_isStorageId ho
        simp [String.toList_append, ht, hm, ho]
      · rw [if_pos ht, if_pos hm, if_neg ho] at h
        cases h
    · rw [if_pos ht, if_neg hm] at h
      cases h
  · rw [if_neg ht] at h
    cases h

omit [StorageHost] in
/-- The characters of a literal, read off its list and not off its bytes. -/
theorem toList_of_eq_ofList {text : String} {cs : List Char} (h : text = String.ofList cs) :
    text.toList = cs := by
  rw [h, String.toList_ofList]

omit [StorageHost] in
theorem notMem_contentType {contentType : String} (h : contentType ∈ STORAGE_CONTENT_TYPES) :
    '\n' ∉ contentType.toList := by
  have ha : ∀ contentType ∈ STORAGE_CONTENT_TYPES, '\n' ∉ contentType.toList := by
    simp only [STORAGE_CONTENT_TYPES, List.forall_mem_cons, List.not_mem_nil, false_implies,
      implies_true, and_true]
    repeat' apply And.intro
    all_goals
      rw [toList_of_eq_ofList rfl]
      decide
  exact ha contentType h

omit [StorageHost] in
theorem notMem_text (n : Decimal) : '\n' ∉ n.text.toList := by
  intro hm
  rcases Decimal.isNumberChar_of_mem_text n hm with h | h
  · exact absurd h (by decide)
  · exact absurd h (by decide)

variable {draft draft' : FrameDraft} {plaintext : Bytes} {key' : String} {iv : Vector UInt8 12}
  {ring ring' : Keyring}

/-- No field of an admitted object has a line break. -/
theorem Admitted.notMem (hl : StorageHost.Lawful) {key : String}
    (h : Admitted key plaintext draft) :
    ∀ field ∈ additionalFields key draft, '\n' ∉ field.toList := by
  obtain ⟨reference, hk⟩ := h.reference
  obtain ⟨t, hcreatedAt⟩ := h.createdAt
  have hc : '\n' ∉ draft.checksum.toList := by
    rw [h.checksum, storageChecksum, String.toList_append, List.mem_append, not_or]
    exact ⟨by decide, (hl.sha256Hex _).1.notMem⟩
  have hs : '\n' ∉ draft.scan.text.toList := by
    cases draft.scan <;> decide
  simp only [additionalFields, List.forall_mem_cons, List.not_mem_nil, false_implies,
    implies_true, and_true]
  exact ⟨notMem_of_storageObjectKey hk, notMem_contentType h.contentType, notMem_text _,
    hc, hs, (hl.toISOString t _ hcreatedAt).1.notMem⟩

omit [StorageHost] in
theorem ScanVerdict.text_injective : Function.Injective ScanVerdict.text := by
  intro a b
  cases a <;> cases b <;> decide

omit [StorageHost] in
theorem additionalFields_injective {key : String}
    (h : additionalFields key' draft' = additionalFields key draft) :
    key' = key ∧ draft' = draft := by
  simp only [additionalFields, List.cons.injEq, and_true] at h
  obtain ⟨hk, ht, hb, hc, hs, hcre⟩ := h
  obtain ⟨contentType, bytes, checksum, scan, createdAt⟩ := draft
  obtain ⟨contentType', bytes', checksum', scan', createdAt'⟩ := draft'
  refine ⟨hk, ?_⟩
  simp only at ht hb hc hs hcre
  rw [ht, Decimal.text_injective hb, hc, ScanVerdict.text_injective hs, hcre]

/-- **The additional data tell objects apart**: those of an admitted object are of no
other key and no other header, whatever strings these are. -/
theorem additionalData_inj (hl : StorageHost.Lawful) {key : String}
    (h : Admitted key plaintext draft)
    (heq : additionalData key' draft' = additionalData key draft) :
    key' = key ∧ draft' = draft := by
  have hj : ['\n'].intercalate ((additionalFields key draft).map String.toList) =
      ['\n'].intercalate ((additionalFields key' draft').map String.toList) := by
    have := congrArg String.toList heq.symm
    rw [additionalData, additionalData, String.toList_intercalate, String.toList_intercalate] at this
    exact this
  have hfie := intercalate_inj (by simp [additionalFields]) (fun a ha => by
    obtain ⟨field, hf, rfl⟩ := List.mem_map.1 ha
    exact h.notMem hl field hf) hj
  refine additionalFields_injective ?_
  exact (List.map_injective_iff.2 (fun a b hab => String.toList_inj.1 hab) hfie).symm

/-! ### A frame, read back -/

omit [StorageHost] in
theorem length_uint32BE (n : ℕ) : (uint32BE n).length = 4 := by
  rw [uint32BE, List.length_reverse, Lib.Bytes.length_littleEndian]

omit [StorageHost] in
theorem readUint32BE_uint32BE {n : ℕ} (h : n < 256 ^ 4) (rest : Bytes) :
    readUint32BE (uint32BE n ++ rest) = n := by
  rw [readUint32BE, List.take_left' (length_uint32BE n), uint32BE, List.reverse_reverse,
    Lib.Bytes.number_littleEndian h]

omit [StorageHost] in
theorem headerOf_json (header : FrameHeader) : headerOf header.json = some header := by
  obtain ⟨⟨contentType, bytes, checksum, scan, createdAt⟩, keyId, iv, tag⟩ := header
  cases scan <;> rfl

omit [StorageHost] in
/-- The text of a header is not empty. -/
theorem length_header_pos (header : FrameHeader) :
    0 < (utf8 (Json.stringify header.json)).length := by
  obtain ⟨c, cs, hc, -⟩ := Json.exists_cons_chars header.json
  have hle := Lib.Bytes.length_le_utf8 (Json.stringify header.json).toList
  have hl : (Json.stringify header.json).toList.length = cs.length + 1 := by
    rw [show (Json.stringify header.json).toList = c :: cs from hc, List.length_cons]
  unfold utf8
  omega

/-- **What the writer of a frame wrote the parser reads.** -/
theorem parseHeader_frameOf (hl : StorageHost.Lawful) {header : FrameHeader}
    (hlim : (utf8 (Json.stringify header.json)).length ≤ HEADER_LIMIT) (ciphertext : Bytes) :
    parseHeader (frameOf header ciphertext) =
        .ok (header, prefixBytes + (utf8 (Json.stringify header.json)).length) ∧
      (frameOf header ciphertext).drop
        (prefixBytes + (utf8 (Json.stringify header.json)).length) = ciphertext := by
  have hp := length_header_pos header
  generalize he : utf8 (Json.stringify header.json) = encoded at hlim hp
  have hm : (utf8 MAGIC).length = 4 := by decide
  have hlen := length_uint32BE encoded.length
  have hf : frameOf header ciphertext =
      utf8 MAGIC ++ (uint32BE encoded.length ++ (encoded ++ ciphertext)) := by
    rw [frameOf, he, List.append_assoc, List.append_assoc]
  have hd : ∀ rest : Bytes,
      (utf8 MAGIC ++ (uint32BE encoded.length ++ rest)).drop prefixBytes = rest := by
    intro rest
    rw [← List.append_assoc]
    exact List.drop_left' (by rw [List.length_append, hm, hlen]; rfl)
  have hr : readUint32BE ((frameOf header ciphertext).drop 4) = encoded.length := by
    rw [hf, List.drop_left' hm]
    exact readUint32BE_uint32BE (by unfold HEADER_LIMIT at hlim; omega) _
  have htext : StorageHost.toText ((frameOf header ciphertext).take 4) = MAGIC := by
    rw [hf, List.take_left' hm, hl.toText]
  have hb : ((frameOf header ciphertext).drop prefixBytes).take encoded.length = encoded := by
    rw [hf, hd, List.take_left]
  have ht : (frameOf header ciphertext).length =
      prefixBytes + (encoded.length + ciphertext.length) := by
    rw [hf, List.length_append, List.length_append, List.length_append, hm, hlen]
    unfold prefixBytes
    omega
  constructor
  · rw [parseHeader, if_neg (by rw [ht]; omega), if_neg (by rw [htext]; simp)]
    simp only [hr]
    rw [if_neg (by omega), if_neg (by rw [ht]; omega), hb, ← he, hl.toText, hl.parse]
    show (match headerOf header.json with
      | none => _
      | some header => _) = _
    rw [headerOf_json]
  · rw [hf, ← List.append_assoc, ← List.append_assoc]
    refine List.drop_left' ?_
    rw [List.length_append, List.length_append, hm, hlen]
    rfl

/-- What `sealFrame` returns, if the header is within its limit. -/
theorem sealFrame_eq_ok {key : String} {frame : Bytes} {object : StoredObject} :
    sealFrame ring iv key plaintext draft = .ok (frame, object) ↔
      (utf8 (Json.stringify (headerUnder draft (ring.sealWith iv plaintext
          (additionalData key draft))).json)).length ≤ HEADER_LIMIT ∧
        frame = frameOf (headerUnder draft (ring.sealWith iv plaintext (additionalData key draft)))
          (ring.sealWith iv plaintext (additionalData key draft)).ciphertext ∧
        object = describe key
          (headerUnder draft (ring.sealWith iv plaintext (additionalData key draft))) := by
  unfold sealFrame
  simp only
  split
  · exact iff_of_false (by nofun) fun h => by omega
  · rw [Except.ok.injEq, Prod.mk.injEq]
    constructor
    · rintro ⟨rfl, rfl⟩
      exact ⟨by omega, rfl, rfl⟩
    · rintro ⟨-, rfl, rfl⟩
      exact ⟨rfl, rfl⟩

/-- **A sealed frame opens** under every ring that holds its key. -/
theorem openFrame_sealFrame (hl : StorageHost.Lawful) {key : String} {frame : Bytes}
    {object : StoredObject} (hs : sealFrame ring iv key plaintext draft = .ok (frame, object))
    (hk : ring'.key ring.keyId = some ring.current) :
    openFrame ring' key frame =
      .ok (headerUnder draft (ring.sealWith iv plaintext (additionalData key draft)), plaintext) := by
  obtain ⟨hlim, rfl, rfl⟩ := sealFrame_eq_ok.1 hs
  obtain ⟨hp, hd⟩ := parseHeader_frameOf hl hlim
    (ring.sealWith iv plaintext (additionalData key draft)).ciphertext
  unfold openFrame
  rw [hp]
  show (ring'.openEnvelope (envelopeOf _ (List.drop _ _)) _ >>= fun plaintext => _) = _
  rw [hd]
  have ho : ring'.openEnvelope (envelopeOf
        (headerUnder draft (ring.sealWith iv plaintext (additionalData key draft)))
        (ring.sealWith iv plaintext (additionalData key draft)).ciphertext)
      (additionalData key draft) = .ok plaintext := by
    simp only [Keyring.openEnvelope, envelopeOf, headerUnder, hl.fromBase64, Keyring.sealWith,
      Vector.length_toList, hl.tag, hk, hl.decrypt]
    simp
  show (ring'.openEnvelope _ (additionalData key draft) >>= fun plaintext => _) = _
  rw [ho]
  rfl

theorem openStoredObject_sealFrame (hl : StorageHost.Lawful) {key : String} {frame : Bytes}
    {object : StoredObject} (hs : sealFrame ring iv key plaintext draft = .ok (frame, object))
    (hk : ring'.key ring.keyId = some ring.current) :
    openStoredObject ring' key frame = .ok (object, plaintext) := by
  rw [openStoredObject, openFrame_sealFrame hl hs hk, (sealFrame_eq_ok.1 hs).2.2]
  rfl

/-! ### The length of a header -/

/-- The bytes of characters. -/
def weight (cs : List Char) : ℕ :=
  (cs.flatMap String.utf8EncodeChar).length

omit [StorageHost] in
theorem weight_append (as bs : List Char) : weight (as ++ bs) = weight as + weight bs := by
  rw [weight, List.flatMap_append, List.length_append]
  rfl

omit [StorageHost] in
theorem weight_intercalate (sep : Char) (part : List Char) (parts : List (List Char)) :
    weight ([sep].intercalate (part :: parts)) =
      weight part + (parts.map fun p => weight [sep] + weight p).sum := by
  induction parts generalizing part with
  | nil => simp
  | cons next parts ih =>
    rw [List.intercalate_cons_of_ne_nil (by simp), weight_append, weight_append, ih, List.map_cons,
      List.sum_cons]
    omega

omit [StorageHost] in
theorem weight_ascii {cs : List Char} (h : ∀ c ∈ cs, c.toNat < 0x80) : weight cs = cs.length := by
  induction cs with
  | nil => rfl
  | cons c cs ih =>
    have hv : c.val.toNat < 0x80 := h c List.mem_cons_self
    have hs : weight [c] = 1 := by
      rw [weight, List.flatMap_singleton, String.length_utf8EncodeChar]
      refine Char.utf8Size_eq_one_iff.2 ?_
      show c.val.toNat ≤ 127
      omega
    rw [← List.singleton_append, weight_append, hs,
      ih fun d hd => h d (List.mem_cons_of_mem c hd), List.length_append, List.length_singleton]

omit [StorageHost] in
/-- A plain text is quoted as it is. -/
theorem toList_quote_plain {text : String} (h : IsPlain text) :
    (Json.quote text).toList = Json.mark :: (text.toList ++ [Json.mark]) := by
  have hp : ∀ cs : List Char,
      (∀ c ∈ cs, 0x20 ≤ c.toNat ∧ c.toNat < 0x7f ∧ c.toNat ≠ 0x22 ∧ c.toNat ≠ 0x5c) →
        cs.flatMap Json.quoteChar = cs := by
    intro cs
    induction cs with
    | nil => exact fun _ => rfl
    | cons c cs ih =>
      intro hcs
      obtain ⟨hl, hh, hm, hs⟩ := hcs c List.mem_cons_self
      have hq : Json.quoteChar c = [c] := by
        unfold Json.quoteChar
        simp only
        rw [if_neg hm, if_neg hs, if_neg (by omega), if_neg (by omega), if_neg (by omega),
          if_neg (by omega), if_neg (by omega), if_neg (by omega)]
      rw [List.flatMap_cons, hq, ih fun d hd => hcs d (List.mem_cons_of_mem c hd),
        List.singleton_append]
  rw [Json.toList_quote, hp _ h]

omit [StorageHost] in
theorem weight_quote {text : String} (h : IsPlain text) :
    weight (Json.quote text).toList = text.toList.length + 2 := by
  rw [toList_quote_plain h, weight_ascii, List.length_cons, List.length_append,
    List.length_singleton]
  intro c hc
  rcases List.mem_cons.1 hc with rfl | hc
  · decide
  · rcases List.mem_append.1 hc with hc | hc
    · have := (h c hc).2.1
      omega
    · rw [List.mem_singleton.1 hc]
      decide

omit [StorageHost] in
theorem weight_entry (name : String) (value : Json) : weight (Json.entryChars (name, value)) =
      weight (Json.quote name).toList + (1 + weight (Json.chars value)) := by
  have hc : weight [':'] = 1 := by decide
  rw [Json.entryChars, show ∀ cs : List Char, ':' :: cs = [':'] ++ cs from fun _ => rfl,
    weight_append, weight_append, hc]

omit [StorageHost] in
/-- The bytes of a header: those of its texts, and 86 for its names and marks. -/
theorem length_header (header : FrameHeader) : (utf8 (Json.stringify header.json)).length =
      86 + (weight (Json.quote header.keyId).toList + weight (Json.quote header.iv).toList +
        weight (Json.quote header.tag).toList) +
      (weight (Json.quote header.contentType).toList + weight header.bytes.text.toList +
        weight (Json.quote header.checksum).toList + weight (Json.quote header.scan.text).toList +
        weight (Json.quote header.createdAt).toList) := by
  have ho : ∀ cs : List Char, weight (Char.ofNat 0x7b :: cs) = 1 + weight cs := by
    intro cs
    rw [show Char.ofNat 0x7b :: cs = [Char.ofNat 0x7b] ++ cs from rfl, weight_append]
    rfl
  have hc : weight [Char.ofNat 0x7d] = 1 := by decide
  have hcom : weight [','] = 1 := by decide
  have hstr : ∀ text, Json.chars (.str text) = (Json.quote text).toList := fun _ => rfl
  have hnum : ∀ n : Decimal, Json.chars (.num n) = n.text.toList := fun _ => rfl
  have hone : weight (Decimal.text 1).toList = 1 := by decide
  have hn : weight (Json.quote "v").toList = 3 ∧ weight (Json.quote "keyId").toList = 7 ∧
      weight (Json.quote "iv").toList = 4 ∧ weight (Json.quote "tag").toList = 5 ∧
      weight (Json.quote "contentType").toList = 13 ∧ weight (Json.quote "bytes").toList = 7 ∧
      weight (Json.quote "checksum").toList = 10 ∧ weight (Json.quote "scan").toList = 6 ∧
      weight (Json.quote "createdAt").toList = 11 := by
    decide
  obtain ⟨hv, hkeyId, hiv, htag, ht, hb, hche, hs, hcre⟩ := hn
  have hl : (utf8 (Json.stringify header.json)).length = weight (Json.chars header.json) := rfl
  rw [hl, FrameHeader.json, Json.chars_obj, ho, weight_append, hc]
  simp only [List.map_cons, List.map_nil, weight_intercalate, List.sum_cons, List.sum_nil,
    weight_entry, hstr, hnum, hcom, hone, hv, hkeyId, hiv, htag, ht, hb, hche, hs,
    hcre]
  omega

end

end Flowdular.Storage
