/-
# A stored object opens as it was sealed

`src/packages/storage/src/envelope.ts`.

A frame opens under its own key name, with its own metadata, to its own payload: the
ciphertext carries the additional data, and these tell the admitted objects apart.  The
header a frame is written with has a length that depends on the draft alone
(`length_headerUnder`), so that an object which was sealed once is sealed again under
every other ring.
-/

import Flowdular.Storage.Envelope
import Mathlib.Data.Countable.Basic
import Mathlib.Logic.Equiv.List

namespace Flowdular.Storage

open Lib (Bytes)
open Lib.Bytes (utf8)
open Workflows (Json Decimal)

section

variable [StorageHost]

/-! ### Sealing succeeds -/

omit [StorageHost] in
/-- The bytes the texts of a draft take in a header. -/
def draftWeight (draft : FrameDraft) : ℕ :=
  weight (Json.quote draft.contentType).toList + weight draft.bytes.text.toList +
    weight (Json.quote draft.checksum).toList + weight (Json.quote draft.scan.text).toList +
    weight (Json.quote draft.createdAt).toList

/-- **The header of a draft is as long under every ring and every nonce.** -/
theorem length_headerUnder (hl : StorageHost.Lawful) (ring : Keyring) (iv : Vector UInt8 12)
    (plaintext : Bytes) (additional : String) (draft : FrameDraft) :
    (utf8 (Json.stringify (headerUnder draft (ring.sealWith iv plaintext additional)).json)).length =
      148 + draftWeight draft := by
  have hkeyId := hl.keyFingerprint ring.current
  have hiv := hl.toBase64 iv.toList
  have ht := hl.toBase64 (StorageHost.encrypt ring.current iv.toList plaintext (utf8 additional)).2
  rw [Vector.length_toList] at hiv
  rw [hl.tag] at ht
  rw [length_header, headerUnder, Keyring.sealWith, Keyring.keyId]
  simp only
  rw [weight_quote hkeyId.1, weight_quote hiv.1, weight_quote ht.1, hkeyId.2, hiv.2, ht.2]
  rfl

variable {draft : FrameDraft} {plaintext : Bytes} {iv : Vector UInt8 12} {ring : Keyring}
  {header : FrameHeader}

omit [StorageHost] in
theorem isPlain_of_eq_ofList {text : String} {cs : List Char} (h : text = String.ofList cs)
    (hcs : cs.Forall fun c => 0x20 ≤ c.toNat ∧ c.toNat < 0x7f ∧ c.toNat ≠ 0x22 ∧ c.toNat ≠ 0x5c) :
    IsPlain text := by
  unfold IsPlain
  rw [toList_of_eq_ofList h]
  exact List.forall_iff_forall_mem.1 hcs

/-- The draft of an admitted object fits into a header. -/
theorem Admitted.draftWeight_le (hl : StorageHost.Lawful) {key : String}
    (h : Admitted key plaintext draft) (hs : plaintext.length < 2 ^ 53) :
    148 + draftWeight draft ≤ HEADER_LIMIT := by
  obtain ⟨t, hcreatedAt⟩ := h.createdAt
  have hd := hl.toISOString t _ hcreatedAt
  have ht : IsPlain draft.contentType ∧ draft.contentType.toList.length ≤ 80 := by
    have hall : ∀ contentType ∈ STORAGE_CONTENT_TYPES,
        IsPlain contentType ∧ contentType.toList.length ≤ 80 := by
      simp only [STORAGE_CONTENT_TYPES, List.forall_mem_cons, List.not_mem_nil, false_implies,
        implies_true, and_true]
      refine ⟨?_, ?_, ?_, ?_, ?_, ?_, ?_, ?_, ?_, ?_, ?_, ?_⟩
      all_goals
        refine ⟨isPlain_of_eq_ofList rfl ?_, le_of_eq_of_le (congrArg _ (toList_of_eq_ofList rfl)) ?_⟩
        · decide +kernel
        · decide
    exact hall _ h.contentType
  have hche : IsPlain draft.checksum ∧ draft.checksum.toList.length = 71 := by
    obtain ⟨hp, hlen⟩ := hl.sha256Hex plaintext
    have hm : ∀ c ∈ "sha256:".toList, 0x20 ≤ c.toNat ∧ c.toNat < 0x7f ∧ c.toNat ≠ 0x22 ∧
        c.toNat ≠ 0x5c := List.forall_iff_forall_mem.1 (by decide)
    rw [h.checksum, storageChecksum]
    refine ⟨fun c hc => ?_, ?_⟩
    · rw [String.toList_append, List.mem_append] at hc
      exact hc.elim (hm c) (hp c)
    · rw [String.toList_append, List.length_append, hlen]
      rfl
  have hscan : weight (Json.quote draft.scan.text).toList ≤ 11 := by
    cases draft.scan <;> decide
  have hb : weight draft.bytes.text.toList ≤ 21 := by
    have ha : ∀ c ∈ draft.bytes.text.toList, c.toNat < 0x80 := by
      intro c hc
      rcases Decimal.isNumberChar_of_mem_text _ hc with hc | hc
      · have hle : c.toNat ≤ '9'.toNat := (Char.isDigit_iff_toNat.1 hc).2
        exact Nat.lt_of_le_of_lt hle (by decide)
      · have hall : ∀ c ∈ ['-', '+', '.', 'e'], c.toNat < 0x80 := List.forall_iff_forall_mem.1 (by decide)
        exact hall c hc
    rw [weight_ascii ha, h.bytes]
    exact Decimal.length_text_ofNat (by omega)
  rw [draftWeight, weight_quote ht.1, weight_quote hche.1, weight_quote hd.1]
  unfold HEADER_LIMIT
  omega

/-- Sealing succeeds where the draft fits into a header. -/
theorem exists_sealFrame (hl : StorageHost.Lawful) (ring : Keyring) (iv : Vector UInt8 12)
    (key : String) (plaintext : Bytes)
    (hf : 148 + draftWeight draft ≤ HEADER_LIMIT) :
    ∃ frame object, sealFrame ring iv key plaintext draft = .ok (frame, object) := by
  refine ⟨_, _, sealFrame_eq_ok.2 ⟨?_, rfl, rfl⟩⟩
  rw [length_headerUnder hl]
  exact hf

/-- The object a ring seals from a draft: the draft under the key of the ring. -/
theorem object_sealFrame {key : String} {frame : Bytes} {object : StoredObject}
    (hs : sealFrame ring iv key plaintext draft = .ok (frame, object)) :
    object =
      { key, bytes := draft.bytes, contentType := draft.contentType, checksum := draft.checksum
        keyId := ring.keyId, scan := draft.scan
        createdAt := StorageHost.parseDate draft.createdAt } := by
  obtain ⟨-, -, ho⟩ := sealFrame_eq_ok.1 hs
  exact ho

omit [StorageHost] in
/-- The first bytes of a frame hold its header. -/
theorem take_frameOf
    (hl : (utf8 (Json.stringify header.json)).length ≤ HEADER_LIMIT) (ciphertext : Bytes) :
    ∃ ciphertext', (frameOf header ciphertext).take STORAGE_HEADER_PREFIX_BYTES =
      frameOf header ciphertext' := by
  refine ⟨ciphertext.take
    (STORAGE_HEADER_PREFIX_BYTES - (prefixBytes + (utf8 (Json.stringify header.json)).length)), ?_⟩
  have hm : (utf8 MAGIC).length = 4 := by decide
  have hlen := length_uint32BE (utf8 (Json.stringify header.json)).length
  have hh : (utf8 MAGIC ++ uint32BE (utf8 (Json.stringify header.json)).length ++
      utf8 (Json.stringify header.json)).length =
        prefixBytes + (utf8 (Json.stringify header.json)).length := by
    rw [List.length_append, List.length_append, hm, hlen]
    rfl
  unfold frameOf
  simp only
  rw [List.take_append, hh, List.take_of_length_le]
  rw [hh]
  unfold STORAGE_HEADER_PREFIX_BYTES
  omega

/-- **The header of a sealed frame is read from its first bytes.** -/
theorem readStoredObjectHeader_take (hlaw : StorageHost.Lawful) {key : String} {frame : Bytes}
    {object : StoredObject} (hs : sealFrame ring iv key plaintext draft = .ok (frame, object)) :
    readStoredObjectHeader key (frame.take STORAGE_HEADER_PREFIX_BYTES) = .ok object := by
  obtain ⟨hl, rfl, rfl⟩ := sealFrame_eq_ok.1 hs
  obtain ⟨ciphertext', ht⟩ := take_frameOf hl
    (ring.sealWith iv plaintext (additionalData key draft)).ciphertext
  rw [ht, readStoredObjectHeader, (parseHeader_frameOf hlaw hl ciphertext').1]
  rfl

/-! ### What a frame is bound to -/

/-- A frame carries the ciphertext and the tag of another, under any header. -/
def Carries (frame' frame : Bytes) : Prop :=
  ∃ header offset header' offset',
    parseHeader frame = .ok (header, offset) ∧ parseHeader frame' = .ok (header', offset') ∧
      frame'.drop offset' = frame.drop offset ∧
      StorageHost.fromBase64 header'.tag = StorageHost.fromBase64 header.tag

/-- What an opened frame is. -/
theorem openFrame_eq_ok {key : String} {frame : Bytes} {opened : FrameHeader}
    {offset : ℕ} (hp : parseHeader frame = .ok (header, offset))
    (ho : openFrame ring key frame = .ok (opened, plaintext)) :
    opened = header ∧ ∃ cipherKey, ring.key header.keyId = some cipherKey ∧
      StorageHost.decrypt cipherKey (StorageHost.fromBase64 header.iv)
        (StorageHost.fromBase64 header.tag) (frame.drop offset)
        (utf8 (additionalData key header.toFrameDraft)) = some plaintext := by
  unfold openFrame at ho
  rw [hp] at ho
  change (ring.openEnvelope (envelopeOf header (frame.drop offset))
    (additionalData key header.toFrameDraft) >>= fun plaintext => pure (header, plaintext)) = _ at ho
  unfold Keyring.openEnvelope at ho
  split at ho
  · cases ho
  · split at ho
    · cases ho
    · next cipherKey hk =>
      split at ho
      · cases ho
      · next found hd =>
        cases ho
        exact ⟨rfl, cipherKey, hk, hd⟩

/-- An opened object is the one its frame describes. -/
theorem openStoredObject_eq_ok {key : String} {frame : Bytes} {object : StoredObject}
    (ho : openStoredObject ring key frame = .ok (object, plaintext)) :
    ∃ header, openFrame ring key frame = .ok (header, plaintext) ∧ object = describe key header := by
  unfold openStoredObject at ho
  cases hf : openFrame ring key frame with
  | error fault =>
    rw [hf] at ho
    cases ho
  | ok opened =>
    rw [hf] at ho
    cases ho
    exact ⟨opened.1, rfl, rfl⟩

/-- A ring finds a key under its own fingerprint. -/
theorem Keyring.keyFingerprint_of_key {keyId : String} {cipherKey : CipherKey}
    (h : ring.key keyId = some cipherKey) : StorageHost.keyFingerprint cipherKey = keyId := by
  have := List.find?_some h
  simpa using this

/-- **A sealed box opens to its own object alone**, whatever header it stands under and
whatever key name it is read as. -/
theorem openStoredObject_binding (hl : StorageHost.Lawful) (hb : StorageHost.Binding)
    {ring' : Keyring} {key key' : String} {plaintext' : Bytes}
    {frame frame' : Bytes} {object object' : StoredObject}
    (hadm : Admitted key plaintext draft)
    (hseal : sealFrame ring iv key plaintext draft = .ok (frame, object))
    (hc : Carries frame' frame)
    (hopen : openStoredObject ring' key' frame' = .ok (object', plaintext')) :
    key' = key ∧ object' = object ∧ plaintext' = plaintext := by
  obtain ⟨hlim, rfl, rfl⟩ := sealFrame_eq_ok.1 hseal
  obtain ⟨header, offset, header', offset', hp, hp', hcip, ht⟩ := hc
  obtain ⟨hparse₀, hd⟩ := parseHeader_frameOf hl hlim
    (ring.sealWith iv plaintext (additionalData key draft)).ciphertext
  rw [hp] at hparse₀
  cases hparse₀
  obtain ⟨opened, ho, hobj⟩ := openStoredObject_eq_ok hopen
  obtain ⟨rfl, cipherKey, hkey, hdec⟩ := openFrame_eq_ok hp' ho
  rw [hcip, hd, ht] at hdec
  simp only [headerUnder, hl.fromBase64, Keyring.sealWith] at hdec
  obtain ⟨hk, -, ha, hpla⟩ := hb _ _ _ _ _ _ _ _ hdec
  have hdata : additionalData key' opened.toFrameDraft = additionalData key draft := by
    rw [← hl.toText (additionalData key' _), ha, hl.toText]
  obtain ⟨hs, hdra⟩ := additionalData_inj hl hadm hdata
  have hkeyId : opened.keyId = ring.keyId := by
    rw [← Keyring.keyFingerprint_of_key hkey, hk]
    rfl
  refine ⟨hs, ?_, hpla⟩
  rw [hobj, hs, ← hdra, describe, describe, hkeyId]
  rfl

/-! ### A frame under a newer key -/

/-- A frame that opens is sealed again from its own header. -/
theorem resealStoredObject_eq {key : String} {frame : Bytes}
    (ho : openFrame ring key frame = .ok (header, plaintext))
    :
    resealStoredObject ring iv key frame = sealFrame ring iv key plaintext header.toFrameDraft := by
  simp only [resealStoredObject, ho, bind, Except.bind]

/-- **A sealed frame is sealed again under every ring that knows its key**, and is the same
object but for the key it names. -/
theorem resealStoredObject_sealFrame (hl : StorageHost.Lawful) {newer : Keyring}
    {key : String} {frame : Bytes}
    {object : StoredObject} (hs : sealFrame ring iv key plaintext draft = .ok (frame, object))
    (hk : newer.key ring.keyId = some ring.current) (iv' : Vector UInt8 12) :
    ∃ frame', resealStoredObject newer iv' key frame =
        .ok (frame', { object with keyId := newer.keyId }) ∧
      sealFrame newer iv' key plaintext draft = .ok (frame', { object with keyId := newer.keyId }) := by
  have hlim := (sealFrame_eq_ok.1 hs).1
  rw [length_headerUnder hl] at hlim
  obtain ⟨frame', object', hsea⟩ := exists_sealFrame hl newer iv' key plaintext hlim
  have ho : object' = { object with keyId := newer.keyId } := by
    rw [object_sealFrame hsea, object_sealFrame hs]
  rw [ho] at hsea
  refine ⟨frame', ?_, hsea⟩
  rw [resealStoredObject_eq (openFrame_sealFrame hl hs hk)]
  exact hsea

end

/-! ### A host -/

/-- The letters of base64. -/
def base64Letters : List Char :=
  "ABCDEFGHIJKLMNOPQRSTUVWXYZabcdefghijklmnopqrstuvwxyz0123456789+/".toList

/-- The letter of six bits. -/
def base64Letter (n : ℕ) : Char :=
  base64Letters.getD n 'A'

/-- The bytes of a list in base64, three at a time. -/
def base64Chars : Bytes → List Char
  | [] => []
  | [a] => [base64Letter (a.toNat / 4), base64Letter (a.toNat % 4 * 16), '=', '=']
  | [a, b] =>
    [base64Letter (a.toNat / 4), base64Letter (a.toNat % 4 * 16 + b.toNat / 16),
      base64Letter (b.toNat % 16 * 4), '=']
  | a :: b :: c :: rest =>
    base64Letter (a.toNat / 4) :: base64Letter (a.toNat % 4 * 16 + b.toNat / 16) ::
      base64Letter (b.toNat % 16 * 4 + c.toNat / 64) :: base64Letter (c.toNat % 64) ::
        base64Chars rest

/-- The bytes a text in base64 stands for. -/
def base64Bytes : List Char → Bytes
  | w :: x :: y :: z :: rest =>
    let w := base64Letters.idxOf w
    let x := base64Letters.idxOf x
    let a := UInt8.ofNat (w * 4 + x / 16)
    if y = '=' then [a]
    else
      let y := base64Letters.idxOf y
      let b := UInt8.ofNat (x % 16 * 16 + y / 4)
      if z = '=' then [a, b]
      else a :: b :: UInt8.ofNat (y % 4 * 64 + base64Letters.idxOf z) :: base64Bytes rest
  | _ => []

example : String.ofList (base64Chars [102, 111, 111, 98]) = "Zm9vYg==" := by decide

variable {n : ℕ}

theorem base64Letter_spec : ∀ n < 64, base64Letters.idxOf (base64Letter n) = n ∧ base64Letter n ≠ '=' := by
  have hl : base64Letters = _ := toList_of_eq_ofList rfl
  unfold base64Letter
  rw [hl]
  decide +kernel

theorem idxOf_base64Letter (h : n < 64) : base64Letters.idxOf (base64Letter n) = n :=
  (base64Letter_spec n h).1

theorem base64Letter_ne (h : n < 64) : base64Letter n ≠ '=' :=
  (base64Letter_spec n h).2

theorem length_base64Chars (bytes : Bytes) :
    (base64Chars bytes).length = 4 * ((bytes.length + 2) / 3) := by
  fun_induction base64Chars bytes with
  | case1 => rfl
  | case2 a => simp
  | case3 a b => simp
  | case4 a b c rest ih =>
    simp only [List.length_cons, ih]
    omega

theorem mem_base64Chars {bytes : Bytes} {c : Char} (hc : c ∈ base64Chars bytes) :
    c ∈ '=' :: base64Letters := by
  have hl : ∀ n, base64Letter n ∈ '=' :: base64Letters := by
    intro n
    rw [base64Letter, List.getD_eq_getElem?_getD]
    rcases lt_or_ge n base64Letters.length with h | h
    · rw [List.getElem?_eq_getElem h]
      exact List.mem_cons_of_mem _ (List.getElem_mem h)
    · rw [List.getElem?_eq_none h]
      decide
  fun_induction base64Chars bytes with
  | case1 => cases hc
  | case2 a =>
    simp only [List.mem_cons, List.not_mem_nil, or_false] at hc
    rcases hc with rfl | rfl | rfl | rfl
    · exact hl _
    · exact hl _
    · exact List.mem_cons_self
    · exact List.mem_cons_self
  | case3 a b =>
    simp only [List.mem_cons, List.not_mem_nil, or_false] at hc
    rcases hc with rfl | rfl | rfl | rfl
    · exact hl _
    · exact hl _
    · exact hl _
    · exact List.mem_cons_self
  | case4 a b d rest ih =>
    simp only [List.mem_cons] at hc
    rcases hc with rfl | rfl | rfl | rfl | hc
    · exact hl _
    · exact hl _
    · exact hl _
    · exact hl _
    · exact ih hc

/-- What is written in base64 is read back. -/
theorem base64Bytes_base64Chars (bytes : Bytes) : base64Bytes (base64Chars bytes) = bytes := by
  have hbyte : ∀ (a : UInt8) (n : ℕ), n = a.toNat → UInt8.ofNat n = a := by
    rintro a _ rfl
    exact UInt8.ofNat_toNat
  fun_induction base64Chars bytes with
  | case1 => rfl
  | case2 a =>
    have ha := a.toNat_lt
    rw [base64Bytes, if_pos rfl, idxOf_base64Letter (by omega), idxOf_base64Letter (by omega),
      hbyte a _ (by omega)]
  | case3 a b =>
    have ha := a.toNat_lt
    have hb := b.toNat_lt
    rw [base64Bytes, if_neg (base64Letter_ne (by omega)), if_pos rfl,
      idxOf_base64Letter (by omega), idxOf_base64Letter (by omega), idxOf_base64Letter (by omega),
      hbyte a _ (by omega), hbyte b _ (by omega)]
  | case4 a b c rest ih =>
    have ha := a.toNat_lt
    have hb := b.toNat_lt
    have hc := c.toNat_lt
    rw [base64Bytes, if_neg (base64Letter_ne (by omega)), if_neg (base64Letter_ne (by omega)),
      idxOf_base64Letter (by omega), idxOf_base64Letter (by omega), idxOf_base64Letter (by omega),
      idxOf_base64Letter (by omega), hbyte a _ (by omega), hbyte b _ (by omega),
      hbyte c _ (by omega), ih]

theorem exists_box : ∃ box : CipherKey × Bytes × Bytes × Bytes → Bytes, Function.Injective box := by
  have hb : Countable UInt8 := @Function.Injective.countable _ _ _ UInt8.toNat fun a b h =>
    UInt8.toNat_inj.1 h
  have hk : Countable CipherKey := @Function.Injective.countable _ _ _ Vector.toList fun a b h =>
    Vector.toList_inj.1 h
  obtain ⟨f, hf⟩ := Countable.exists_injective_nat (CipherKey × Bytes × Bytes × Bytes)
  refine ⟨fun box => List.replicate (f box) 0, fun a b h => hf ?_⟩
  simpa using congrArg List.length h

/-- An ideal cipher: the ciphertext of a key, a nonce, a plaintext and additional data. -/
noncomputable def sampleBox : CipherKey × Bytes × Bytes × Bytes → Bytes :=
  exists_box.choose

theorem sampleBox_injective : Function.Injective sampleBox :=
  exists_box.choose_spec

/-- What the ideal cipher finds in a ciphertext. -/
noncomputable def sampleContent (key : CipherKey) (iv ciphertext additional : Bytes) :
    Option Bytes :=
  Function.partialInv (fun plaintext => sampleBox (key, iv, plaintext, additional)) ciphertext

theorem sampleContent_eq_some {key : CipherKey} {iv ciphertext additional plaintext : Bytes} :
    sampleContent key iv ciphertext additional = some plaintext ↔
      sampleBox (key, iv, plaintext, additional) = ciphertext := by
  have hi : Function.Injective fun plaintext =>
      sampleBox (key, iv, plaintext, additional) := by
    intro a b h
    have := sampleBox_injective h
    simpa using this
  exact hi.isPartialInv plaintext ciphertext

/-- The fingerprints of two keys. -/
def sampleFingerprint (key : CipherKey) : String :=
  if key = Vector.replicate 32 0 then "66687aadf862bd77" else "72cd6e8422c407fb"

/-- A host of two keys, one payload and one date, with an ideal cipher. -/
@[reducible] noncomputable def sampleHost : StorageHost where
  keyFingerprint := sampleFingerprint
  sha256Hex _ := "e3b0c44298fc1c149afbf4c8996fb92427ae41e4649b934ca495991b7852b855"
  encrypt key iv plaintext additional :=
    (sampleBox (key, iv, plaintext, additional), List.replicate 16 0)
  decrypt key iv _ ciphertext additional := sampleContent key iv ciphertext additional
  toText := Function.invFun utf8
  parse := Function.partialInv Json.stringify
  toBase64 bytes := String.ofList (base64Chars bytes)
  fromBase64 text := base64Bytes text.toList
  toISOString t := if t = 1767225600000 then some "2026-01-01T00:00:00.000Z" else none
  parseDate text := if text = "2026-01-01T00:00:00.000Z" then some 1767225600000 else none

theorem sampleHost_lawful : @StorageHost.Lawful sampleHost := by
  have hp : ∀ text ∈ ["66687aadf862bd77", "72cd6e8422c407fb", "2026-01-01T00:00:00.000Z",
      "e3b0c44298fc1c149afbf4c8996fb92427ae41e4649b934ca495991b7852b855"], IsPlain text := by
    simp only [List.forall_mem_cons, List.not_mem_nil, false_implies, implies_true, and_true]
    refine ⟨?_, ?_, ?_, ?_⟩
    all_goals
      refine isPlain_of_eq_ofList rfl ?_
      decide +kernel
  refine @StorageHost.Lawful.mk sampleHost ?_ ?_ ?_ ?_ ?_ ?_ ?_ ?_ ?_
  · intro key
    show IsPlain (sampleFingerprint key) ∧ (sampleFingerprint key).toList.length = 16
    unfold sampleFingerprint
    split
    · exact ⟨hp _ (by decide), rfl⟩
    · exact ⟨hp _ (by decide), rfl⟩
  · refine fun _ => ⟨hp "e3b0c44298fc1c149afbf4c8996fb92427ae41e4649b934ca495991b7852b855"
      (by decide), ?_⟩
    show "e3b0c44298fc1c149afbf4c8996fb92427ae41e4649b934ca495991b7852b855".toList.length = 64
    decide
  · intro t text h
    change ite _ _ _ = _ at h
    split at h
    · cases h
      exact ⟨hp _ (by decide), by decide⟩
    · cases h
  · exact Function.leftInverse_invFun Lib.Bytes.utf8_injective
  · exact fun header => Function.partialInv_left Json.stringify_injective header.json
  · intro bytes
    show base64Bytes (String.ofList (base64Chars bytes)).toList = bytes
    rw [String.toList_ofList, base64Bytes_base64Chars]
  · intro bytes
    show IsPlain (String.ofList (base64Chars bytes)) ∧
      (String.ofList (base64Chars bytes)).toList.length = _
    rw [IsPlain, String.toList_ofList, length_base64Chars]
    refine ⟨fun c hc => ?_, rfl⟩
    have ha : ∀ c ∈ '=' :: base64Letters,
        0x20 ≤ c.toNat ∧ c.toNat < 0x7f ∧ c.toNat ≠ 0x22 ∧ c.toNat ≠ 0x5c :=
      List.forall_iff_forall_mem.1 (by decide +kernel)
    exact ha c (mem_base64Chars hc)
  · exact fun _ _ _ _ => List.length_replicate
  · exact fun _ _ _ _ => sampleContent_eq_some.2 rfl

theorem sampleHost_binding : @StorageHost.Binding sampleHost := by
  intro key iv plaintext additional key' iv' plaintext' additional' h
  have hb := sampleBox_injective (sampleContent_eq_some.1 h)
  simp only [Prod.mk.injEq] at hb
  exact ⟨hb.1, hb.2.1, hb.2.2.2, hb.2.2.1⟩

/-- A ring of one key. -/
def sampleRing : Keyring where
  current := Vector.replicate 32 0

/-- The ring after the key was replaced. -/
def newerRing : Keyring where
  current := Vector.replicate 32 1
  previous := [Vector.replicate 32 0]

theorem sampleRing_keyId : @Keyring.keyId sampleHost sampleRing = "66687aadf862bd77" := by
  show sampleFingerprint (Vector.replicate 32 0) = _
  decide

theorem newerRing_keyId : @Keyring.keyId sampleHost newerRing = "72cd6e8422c407fb" := by
  show sampleFingerprint (Vector.replicate 32 1) = _
  decide

/-- The newer ring knows the key it replaced. -/
theorem newerRing_knows : @Keyring.key sampleHost newerRing (@Keyring.keyId sampleHost sampleRing) =
    some sampleRing.current := by
  let _ := sampleHost
  have hn : StorageHost.keyFingerprint (Vector.replicate 32 1) ≠ sampleRing.keyId := by
    rw [show StorageHost.keyFingerprint (Vector.replicate 32 1) = "72cd6e8422c407fb" from
      newerRing_keyId, sampleRing_keyId]
    decide
  show List.find? _ [Vector.replicate 32 1, Vector.replicate 32 0] = _
  rw [List.find?_cons_of_neg (by simpa using hn), List.find?_cons_of_pos]
  · rfl
  · exact decide_eq_true rfl

end Flowdular.Storage
