/-
# Sealing the objects of a store again

`src/packages/storage/src/reseal.ts` and `put` and `delete` of `port.ts`, on a store of
frames (`store.ts`).

A pass walks a list of references.  Of each it reads the header, and of an object under a
retired key the whole frame, which it seals again and writes back.  Between the read and
the write other calls take effect: a pass does not notice an object that was put or deleted
there, and its write undoes what they did (`exists_undone_delete`).  The callers lock the
rows that name the objects of a batch.  In a run where nothing is put or deleted under a
key between the read and the write of its frame, every key holds what was put there last
(`reseal_loses_no_write`), and this with any number of passes side by side.

The store keeps what was put under each key last, and how often a key was written or
deleted, as history: no step of the code reads these.
-/

import Flowdular.Lib.Crew
import Flowdular.Storage.SealedObjects
import Flowdular.Workflows.Text

namespace Flowdular.Storage

open Lib (Bytes Crew Machine Outline)
open Lib.Bytes (utf8)
open Workflows (Json)

/-! ### The store -/

/-- What was put: the object, under whatever key of the ring, and its payload. -/
abbrev Content :=
  StoredObject × Bytes

/-- `ObjectStore`, with its history: what was put under a key last, and how many times
something was put or deleted there. -/
structure ObjectStore where
  objects : String → Option Bytes
  last : String → Option Content
  changes : String → ℕ

namespace ObjectStore

/-- A store that holds nothing. -/
def empty : ObjectStore where
  objects _ := none
  last _ := none
  changes _ := 0

/-- `write`, by `put`. -/
def put (s : ObjectStore) (key : String) (frame : Bytes) (content : Content) : ObjectStore where
  objects := Function.update s.objects key (some frame)
  last := Function.update s.last key (some content)
  changes := Function.update s.changes key (s.changes key + 1)

def remove (s : ObjectStore) (key : String) : ObjectStore where
  objects := Function.update s.objects key none
  last := Function.update s.last key none
  changes := Function.update s.changes key (s.changes key + 1)

/-- `write`, by a pass. -/
def rewrite (s : ObjectStore) (key : String) (frame : Bytes) : ObjectStore :=
  { s with objects := Function.update s.objects key (some frame) }

end ObjectStore

/-! ### A pass -/

structure StorageResealReport where
  currentKeyId : String
  counts : List (String × ℕ)
  stale : ℕ
  resealed : ℕ
  unknown : ℕ
  refused : ℕ
  missing : ℕ
deriving DecidableEq, Repr

/-- A pass of `reseal`: the ring, the options and what it counted. -/
structure ResealPass where
  keyring : Keyring
  apply : Bool
  counts : List (String × ℕ) := []
  stale : ℕ := 0
  resealed : ℕ := 0
  unknown : ℕ := 0
  refused : ℕ := 0
  missing : ℕ := 0

/-- `counts.set(keyId, (counts.get(keyId) ?? 0) + 1)`. -/
def countKey (keyId : String) : List (String × ℕ) → List (String × ℕ)
  | [] => [(keyId, 1)]
  | (other, n) :: counts =>
    if other = keyId then (other, n + 1) :: counts else (other, n) :: countKey keyId counts

/-- `corrupt`, of an error. -/
def StorageFault.isCorrupt : StorageFault → Bool
  | .storage "OBJECT_CORRUPT" _ => true
  | _ => false

/-- An error of a keyring. -/
def StorageFault.isKeyring : StorageFault → Bool
  | .keyring _ _ => true
  | _ => false

/-- Where a call of the port stands: before its write or its deletion, in a pass before the
next reference, before the read of a whole frame or before a write, or behind its end.  A
pass before a write knows how often its key had been changed at the read. -/
inductive Place where
  | put (key : String) (frame : Bytes) (content : Content)
  | delete (key : String)
  | turn (pass : ResealPass) (objects : List StorageObjectRef)
  | whole (pass : ResealPass) (key : String) (objects : List StorageObjectRef)
  | rewrite (pass : ResealPass) (key : String) (frame : Bytes) (seen : ℕ)
      (objects : List StorageObjectRef)
  | stored (object : StoredObject)
  | deleted (present : Bool)
  | reported (report : StorageResealReport)
  | thrown (fault : StorageFault)

/-- A call of the port, with what it draws. -/
inductive PortCall where
  | put (keyring : Keyring) (iv : Vector UInt8 12) (reference : StorageObjectRef)
      (contentType : String) (scan : ScanVerdict) (createdAt : ℤ) (body : Bytes)
  | delete (reference : StorageObjectRef)
  | reseal (keyring : Keyring) (objects : List StorageObjectRef) (apply : Bool)

/-- What a move leaves open: the nonce of a new frame, and whether the adapter finds a frame
larger than its bound. -/
structure Choice where
  iv : Vector UInt8 12
  tooLarge : Bool := false

namespace ResealPass

variable [StorageHost]

/-- The report of a pass. -/
def report (pass : ResealPass) : StorageResealReport where
  currentKeyId := pass.keyring.keyId
  counts := pass.counts.insertionSort fun left right =>
    Workflows.unitsLE (Workflows.codeUnits left.1) (Workflows.codeUnits right.1) = true
  stale := pass.stale
  resealed := pass.resealed
  unknown := pass.unknown
  refused := pass.refused
  missing := pass.missing

/-- What follows the read of a header. -/
def ofHeader (pass : ResealPass) (key : String) (objects : List StorageObjectRef) :
    Option Bytes → Place
  | none => .turn { pass with missing := pass.missing + 1 } objects
  | some start =>
    match readStoredObjectHeader key start with
    | .error fault =>
      if fault.isCorrupt then .turn { pass with refused := pass.refused + 1 } objects
      else .thrown fault
    | .ok object =>
      let pass := { pass with counts := countKey object.keyId pass.counts }
      if object.keyId = pass.keyring.keyId then .turn pass objects
      else if ¬pass.keyring.knows object.keyId then
        .turn { pass with unknown := pass.unknown + 1 } objects
      else
        let pass := { pass with stale := pass.stale + 1 }
        if pass.apply then .whole pass key objects else .turn pass objects

/-- What follows the read of a frame. -/
def ofFrame (pass : ResealPass) (iv : Vector UInt8 12) (key : String) (seen : ℕ)
    (objects : List StorageObjectRef) : Option Bytes → Place
  | none => .turn { pass with missing := pass.missing + 1 } objects
  | some frame =>
    match resealStoredObject pass.keyring iv key frame with
    | .error fault =>
      if fault.isKeyring || fault.isCorrupt then
        .turn { pass with refused := pass.refused + 1 } objects
      else .thrown fault
    | .ok (next, _) => .rewrite pass key next seen objects

end ResealPass

section

variable [StorageHost]

/-- The calls up to their first access to the store.  A put whose content is refused does
not come to it. -/
def enter : PortCall → Option Place
  | .put keyring iv reference contentType scan createdAt body =>
    match storageObjectKey reference with
    | .error fault => some (.thrown fault)
    | .ok key =>
      if contentType ∉ STORAGE_CONTENT_TYPES ∨ scan = .infected then none
      else
        match encodeStoredObject keyring iv key body contentType scan createdAt with
        | .error fault => some (.thrown fault)
        | .ok (frame, object) => some (.put key frame (object, body))
  | .delete reference =>
    match storageObjectKey reference with
    | .error fault => some (.thrown fault)
    | .ok key => some (.delete key)
  | .reseal keyring objects apply => some (.turn { keyring, apply } objects)

/-- One access to the store. -/
def advance (s : ObjectStore) : Place → Choice → Option (ObjectStore × Place)
  | .put key frame content, _ => some (s.put key frame content, .stored content.1)
  | .delete key, _ => some (s.remove key, .deleted (s.objects key).isSome)
  | .turn pass [], _ => some (s, .reported pass.report)
  | .turn pass (reference :: objects), _ =>
    match storageObjectKey reference with
    | .error fault => some (s, .thrown fault)
    | .ok key =>
      some (s, pass.ofHeader key objects
        ((s.objects key).map (List.take STORAGE_HEADER_PREFIX_BYTES)))
  | .whole pass key objects, choice =>
    if choice.tooLarge then some (s, .turn { pass with refused := pass.refused + 1 } objects)
    else some (s, pass.ofFrame choice.iv key (s.changes key) objects (s.objects key))
  | .rewrite pass key frame _ objects, _ =>
    some (s.rewrite key frame, .turn { pass with resealed := pass.resealed + 1 } objects)
  | .stored _, _ | .deleted _, _ | .reported _, _ | .thrown _, _ => none

/-- The calls of the port on a store. -/
def portMachine : Machine ObjectStore Place PortCall Choice where
  enter _ call := enter call
  next := advance
  stop s _ := s

/-- Nothing was put or deleted under the key of a pass between its read and its write. -/
def Undisturbed (s : ObjectStore) (_ : List Place) : Place → Prop
  | .rewrite _ key _ seen _ => seen = s.changes key
  | _ => True

/-! ### What a key holds -/

/-- A frame holds a content: the content was sealed under some ring. -/
def Holds (key : String) (content : Content) (frame : Bytes) : Prop :=
  ∃ (ring : Keyring) (iv : Vector UInt8 12) (draft : FrameDraft), ∃ object,
    sealFrame ring iv key content.2 draft = .ok (frame, object) ∧
      content.1 = { object with keyId := content.1.keyId }

/-- Every key holds what was put there last. -/
def UpToDate (s : ObjectStore) : Prop :=
  ∀ key, match s.last key with
    | none => s.objects key = none
    | some content => ∃ frame, s.objects key = some frame ∧ Holds key content frame

/-- What a call knows of the store: a put, that it sealed its content; a pass before a
write, that its frame holds the last content, if nothing changed since the read. -/
def Knows (s : ObjectStore) : Place → Prop
  | .put key frame content => Holds key content frame
  | .rewrite _ key frame seen _ =>
    seen ≤ s.changes key ∧ (seen = s.changes key →
      ∃ content, s.last key = some content ∧ Holds key content frame)
  | _ => True

/-- A sealed frame opens, if at all, to its own payload and its own draft. -/
theorem openFrame_inv (hl : StorageHost.Lawful) (hb : StorageHost.Binding)
    {ring ring' : Keyring} {iv : Vector UInt8 12} {key : String} {plaintext plaintext' : Bytes}
    {draft : FrameDraft} {frame : Bytes} {object : StoredObject} {header : FrameHeader}
    (hs : sealFrame ring iv key plaintext draft = .ok (frame, object))
    (ho : openFrame ring' key frame = .ok (header, plaintext')) :
    plaintext' = plaintext ∧ header.toFrameDraft = draft := by
  obtain ⟨hlim, rfl, rfl⟩ := sealFrame_eq_ok.1 hs
  obtain ⟨hp, hd⟩ := parseHeader_frameOf hl hlim
    (ring.sealWith iv plaintext (additionalData key draft)).ciphertext
  obtain ⟨rfl, cipherKey, hk, hdec⟩ := openFrame_eq_ok hp ho
  rw [hd] at hdec
  simp only [headerUnder, hl.fromBase64, Keyring.sealWith] at hdec
  exact ⟨(hb _ _ _ _ _ _ _ _ hdec).2.2.2, rfl⟩

/-- **What a frame holds it holds when it was sealed again.** -/
theorem Holds.reseal (hl : StorageHost.Lawful) (hb : StorageHost.Binding) {key : String}
    {content : Content} {frame frame' : Bytes} (h : Holds key content frame) {ring' : Keyring}
    {iv' : Vector UInt8 12} {object' : StoredObject}
    (hr : resealStoredObject ring' iv' key frame = .ok (frame', object')) :
    Holds key content frame' := by
  obtain ⟨ring, iv, draft, object, hs, hobj⟩ := h
  cases ho : openFrame ring' key frame with
  | error fault =>
    rw [resealStoredObject, ho] at hr
    cases hr
  | ok opened =>
    obtain ⟨header, plaintext⟩ := opened
    obtain ⟨rfl, hd⟩ := openFrame_inv hl hb hs ho
    rw [resealStoredObject_eq ho, hd] at hr
    refine ⟨ring', iv', draft, object', hr, ?_⟩
    rw [hobj, object_sealFrame hr, object_sealFrame hs]

/-- A frame opens to what it holds, under every ring that knows the key it was sealed with. -/
theorem Holds.opens (hl : StorageHost.Lawful) {key : String} {content : Content}
    {frame : Bytes} (h : Holds key content frame) :
    ∃ ring : Keyring, ∀ ring' : Keyring, ring'.key ring.keyId = some ring.current →
      openStoredObject ring' key frame =
        .ok ({ content.1 with keyId := ring.keyId }, content.2) := by
  obtain ⟨ring, iv, draft, object, hs, ho⟩ := h
  refine ⟨ring, fun ring' hk => ?_⟩
  rw [openStoredObject_sealFrame hl hs hk, ho, object_sealFrame hs]

/-! ### Calls side by side -/

/-- A put has sealed its content before it writes. -/
theorem knows_enter {s : ObjectStore} {call : PortCall} {p : Place} (h : enter call = some p) :
    Knows s p := by
  unfold enter at h
  cases call with
  | put keyring iv reference contentType scan createdAt body =>
    simp only at h
    split at h
    · cases h
      trivial
    · next key hk =>
      split at h
      · cases h
      · split at h
        · cases h
          trivial
        · next frame object he =>
          cases h
          unfold encodeStoredObject at he
          split at he
          · cases he
          · exact ⟨keyring, iv, _, object, he, rfl⟩
  | delete reference =>
    simp only at h
    split at h
    · cases h
      trivial
    · cases h
      trivial
  | reseal keyring objects apply =>
    cases h
    trivial

/-- Behind a header a pass does not stand before a write. -/
theorem knows_ofHeader (s : ObjectStore) (pass : ResealPass) (key : String)
    (objects : List StorageObjectRef) (start : Option Bytes) :
    Knows s (pass.ofHeader key objects start) := by
  unfold ResealPass.ofHeader
  split
  · trivial
  · split
    · split <;> trivial
    · simp only
      split
      · trivial
      · split
        · trivial
        · split <;> trivial

/-- Behind a frame a pass stands before the write of what the frame holds. -/
theorem knows_ofFrame (hlaw : StorageHost.Lawful) (hb : StorageHost.Binding)
    {s : ObjectStore} (h : UpToDate s) (pass : ResealPass) (iv : Vector UInt8 12) (key : String)
    (objects : List StorageObjectRef) :
    Knows s (pass.ofFrame iv key (s.changes key) objects (s.objects key)) := by
  have hk := h key
  cases hf : s.objects key with
  | none => trivial
  | some frame =>
    unfold ResealPass.ofFrame
    simp only
    split
    · split <;> trivial
    · next next object hr =>
      refine ⟨le_rfl, fun _ => ?_⟩
      cases hl : s.last key with
      | none =>
        rw [hl] at hk
        rw [hk] at hf
        cases hf
      | some content =>
        rw [hl] at hk
        obtain ⟨frame₀, hframe₀, hh⟩ := hk
        rw [hf] at hframe₀
        cases hframe₀
        exact ⟨content, rfl, hh.reseal hlaw hb hr⟩

/-- A change of one key keeps what the store says of the others. -/
theorem UpToDate.put {s : ObjectStore} (h : UpToDate s) {key : String} {frame : Bytes}
    {content : Content} (hh : Holds key content frame) : UpToDate (s.put key frame content) := by
  intro other
  by_cases heq : other = key
  · subst heq
    simp only [ObjectStore.put, Function.update_self]
    exact ⟨frame, rfl, hh⟩
  · simp only [ObjectStore.put, Function.update_of_ne heq]
    exact h other

theorem UpToDate.remove {s : ObjectStore} (h : UpToDate s) (key : String) :
    UpToDate (s.remove key) := by
  intro other
  by_cases heq : other = key
  · subst heq
    simp only [ObjectStore.remove, Function.update_self]
  · simp only [ObjectStore.remove, Function.update_of_ne heq]
    exact h other

theorem UpToDate.rewrite {s : ObjectStore} (h : UpToDate s) {key : String} {frame : Bytes}
    {content : Content} (hl : s.last key = some content) (hh : Holds key content frame) :
    UpToDate (s.rewrite key frame) := by
  intro other
  by_cases heq : other = key
  · subst heq
    simp only [ObjectStore.rewrite, Function.update_self, hl]
    exact ⟨frame, rfl, hh⟩
  · simp only [ObjectStore.rewrite, Function.update_of_ne heq]
    exact h other

/-- What a pass knows of a key stays, or is of an earlier time. -/
theorem Knows.of_update {s : ObjectStore} {q : Place} (h : Knows s q) {s' : ObjectStore}
    (key : String) (hs : ∀ other ≠ key, s'.last other = s.last other ∧
      s'.changes other = s.changes other) (hlat : s'.changes key = s.changes key + 1) :
    Knows s' q := by
  cases q with
  | rewrite pass other frame seen objects =>
    obtain ⟨hle, hh⟩ := h
    by_cases heq : other = key
    · subst heq
      refine ⟨by omega, fun hseen => ?_⟩
      omega
    · obtain ⟨hl, hc⟩ := hs other heq
      refine ⟨by omega, fun hseen => ?_⟩
      rw [hl]
      exact hh (by omega)
  | put other frame content => exact h
  | delete | turn | whole | stored | deleted | reported | thrown => trivial

theorem knows_put {s : ObjectStore} {q : Place} (h : Knows s q) (key : String) (frame : Bytes)
    (content : Content) : Knows (s.put key frame content) q :=
  h.of_update key (fun _ hne => ⟨Function.update_of_ne hne _ _, Function.update_of_ne hne _ _⟩)
    (Function.update_self _ _ _)

theorem knows_remove {s : ObjectStore} {q : Place} (h : Knows s q) (key : String) :
    Knows (s.remove key) q :=
  h.of_update key (fun _ hne => ⟨Function.update_of_ne hne _ _, Function.update_of_ne hne _ _⟩)
    (Function.update_self _ _ _)

/-- **One access to the store**: it keeps every key up to date and what the calls know. -/
theorem advance_spec (hl : StorageHost.Lawful) (hb : StorageHost.Binding)
    {s s' : ObjectStore} {p p' : Place} {choice : Choice} (h : UpToDate s) (hp : Knows s p)
    (hc : Undisturbed s [] p) (hn : advance s p choice = some (s', p')) :
    UpToDate s' ∧ Knows s' p' ∧ ∀ q, Knows s q → Knows s' q := by
  cases p with
  | put key frame content =>
    cases hn
    exact ⟨h.put hp, trivial, fun q hq => knows_put hq key frame content⟩
  | delete key =>
    cases hn
    exact ⟨h.remove key, trivial, fun q hq => knows_remove hq key⟩
  | turn pass objects =>
    cases objects with
    | nil =>
      cases hn
      exact ⟨h, trivial, fun _ hq => hq⟩
    | cons reference objects =>
      rw [advance] at hn
      split at hn
      · cases hn
        exact ⟨h, trivial, fun _ hq => hq⟩
      · cases hn
        exact ⟨h, knows_ofHeader _ _ _ _ _, fun _ hq => hq⟩
  | whole pass key objects =>
    rw [advance] at hn
    split at hn
    · cases hn
      exact ⟨h, trivial, fun _ hq => hq⟩
    · cases hn
      exact ⟨h, knows_ofFrame hl hb h _ _ _ _, fun _ hq => hq⟩
  | rewrite pass key frame seen objects =>
    cases hn
    obtain ⟨content, hlast, hh⟩ := hp.2 hc
    refine ⟨h.rewrite hlast hh, trivial, fun q hq => ?_⟩
    cases q with
    | rewrite => exact hq
    | put => exact hq
    | delete | turn | whole | stored | deleted | reported | thrown => trivial
  | stored | deleted | reported | thrown => cases hn

/-- The calls of the port, side by side. -/
def portOutline (hlawful : StorageHost.Lawful) (hbinding : StorageHost.Binding) :
    Outline portMachine Undisturbed where
  inv := UpToDate
  knows := Knows
  apart _ _ := True
  apart_symm _ := trivial
  start _ henter := ⟨knows_enter henter, fun _ _ => trivial⟩
  stop h _ := h
  stop_other _ _ hq _ := hq
  move h hp _ hcond hnext :=
    ⟨(advance_spec hlawful hbinding h hp hcond hnext).1,
      (advance_spec hlawful hbinding h hp hcond hnext).2.1⟩
  move_other h hp hothers hcond hnext hq :=
    ⟨(advance_spec hlawful hbinding h hp hcond hnext).2.2 _ (hothers _ hq).1, trivial⟩

theorem upToDate_empty : UpToDate ObjectStore.empty :=
  fun _ => rfl

/-- An object is put, and a pass under a newer ring has read it. -/
theorem reachable_before_write (hl : StorageHost.Lawful) {reference : StorageObjectRef}
    {key : String} (hkey : storageObjectKey reference = .ok key) {contentType : String}
    (ht : contentType ∈ STORAGE_CONTENT_TYPES) {t : ℤ} {createdAt : String}
    (hd : StorageHost.toISOString t = some createdAt) {body : Bytes}
    (hsize : body.length < 2 ^ 53) {ring newer : Keyring}
    (hk : newer.key ring.keyId = some ring.current) (hn : ring.keyId ≠ newer.keyId) :
    ∃ frame frame' object pass, Crew.Reachable portMachine Undisturbed ObjectStore.empty
      ⟨ObjectStore.empty.put key frame (object, body),
        [.rewrite pass key frame' 1 [], .stored object]⟩ := by
  have iv : Vector UInt8 12 := Vector.replicate 12 0
  have ha : Admitted key body
      { contentType, bytes := .ofNat body.length, checksum := storageChecksum body, scan := .clean, createdAt } :=
    { reference := ⟨reference, hkey⟩, contentType := ht, bytes := rfl, checksum := rfl
      createdAt := ⟨t, hd⟩ }
  obtain ⟨frame, object, hs⟩ := exists_sealFrame hl ring iv key body (ha.draftWeight_le hl hsize)
  obtain ⟨frame', hr, -⟩ := resealStoredObject_sealFrame hl hs hk iv
  have he : portMachine.enter ObjectStore.empty
      (.put ring iv reference contentType .clean t body) =
        some (.put key frame (object, body)) := by
    show enter (.put ring iv reference contentType .clean t body) = _
    simp only [enter, hkey, ht, encodeStoredObject, hd, hs, not_true_eq_false, false_or,
      reduceCtorEq, if_false]
  have hobj : object.keyId = ring.keyId := by rw [object_sealFrame hs]
  let s := ObjectStore.empty.put key frame (object, body)
  have ho : s.objects key = some frame := Function.update_self _ _ _
  have hc : s.changes key = 1 := Function.update_self _ _ _
  let pass : ResealPass := { keyring := newer, apply := true }
  let read : ResealPass := { keyring := newer, apply := true, counts := [(ring.keyId, 1)], stale := 1 }
  have hh : portMachine.next s (.turn pass [reference]) ⟨iv, false⟩ = some (s, .whole read key []) := by
    show advance s (.turn pass [reference]) ⟨iv, false⟩ = _
    simp only [advance, hkey, ho, Option.map_some, ResealPass.ofHeader,
      readStoredObjectHeader_take hl hs, hobj, pass, if_neg hn, Keyring.knows, hk,
      Option.isSome_some, not_true_eq_false, if_false, countKey, if_true, read]
  have hf : portMachine.next s (.whole read key []) ⟨iv, false⟩ =
      some (s, .rewrite read key frame' 1 []) := by
    show advance s (.whole read key []) ⟨iv, false⟩ = _
    simp only [advance, ho, hc, ResealPass.ofFrame, hr, read, Bool.false_eq_true, if_false]
  refine ⟨frame, frame', object, read, ?_⟩
  have hstep₁ : Crew.Step portMachine Undisturbed ⟨ObjectStore.empty, []⟩
      ⟨ObjectStore.empty, [.put key frame (object, body)]⟩ := .start he
  have hstep₂ : Crew.Step portMachine Undisturbed
      ⟨ObjectStore.empty, [] ++ .put key frame (object, body) :: []⟩
      ⟨s, [] ++ .stored object :: []⟩ := @Crew.Step.move _ _ _ _ _ _ _ _ _ _ _ _ ⟨iv, false⟩ rfl trivial
  have hstep₃ : Crew.Step portMachine Undisturbed ⟨s, [.stored object]⟩
      ⟨s, [.turn pass [reference], .stored object]⟩ :=
    @Crew.Step.start _ _ _ _ _ _ _ _ (.reseal newer [reference] true) _ rfl
  have hstep₄ : Crew.Step portMachine Undisturbed ⟨s, [] ++ .turn pass [reference] :: [.stored object]⟩
      ⟨s, [] ++ .whole read key [] :: [.stored object]⟩ := .move hh trivial
  have hstep₅ : Crew.Step portMachine Undisturbed ⟨s, [] ++ .whole read key [] :: [.stored object]⟩
      ⟨s, [] ++ .rewrite read key frame' 1 [] :: [.stored object]⟩ := .move hf trivial
  exact ((((Relation.ReflTransGen.single hstep₁).tail hstep₂).tail hstep₃).tail hstep₄).tail hstep₅

/-- A call that is over. -/
def Place.IsOver : Place → Prop
  | .stored _ | .deleted _ | .reported _ | .thrown _ => True
  | _ => False

/-- **A pass undoes a deletion**: an object deleted between the read and the write of its
frame is there again when all calls are over. -/
theorem exists_undone_delete (hl : StorageHost.Lawful) {reference : StorageObjectRef}
    {key : String} (hkey : storageObjectKey reference = .ok key) {contentType : String}
    (ht : contentType ∈ STORAGE_CONTENT_TYPES) {t : ℤ} {createdAt : String}
    (hd : StorageHost.toISOString t = some createdAt) {body : Bytes}
    (hs : body.length < 2 ^ 53) {ring newer : Keyring}
    (hk : newer.key ring.keyId = some ring.current) (hn : ring.keyId ≠ newer.keyId) :
    ∃ crew, Crew.Reachable portMachine (fun _ _ _ => True) ObjectStore.empty crew ∧
      (∀ p ∈ crew.processes, p.IsOver) ∧ crew.shared.last key = none ∧
        crew.shared.objects key ≠ none := by
  obtain ⟨frame, frame', object, pass, hr⟩ :=
    reachable_before_write hl hkey ht hd hs hk hn
  generalize ObjectStore.empty.put key frame (object, body) = s at hr
  have he : portMachine.enter s (.delete reference) = some (.delete key) := by
    show enter (.delete reference) = _
    simp only [enter, hkey]
  let done : ResealPass := { pass with resealed := pass.resealed + 1 }
  have hstep₁ : Crew.Step portMachine (fun _ _ _ => True)
      ⟨s, [.rewrite pass key frame' 1 [], .stored object]⟩
      ⟨s, [.delete key, .rewrite pass key frame' 1 [], .stored object]⟩ := .start he
  have hstep₂ : Crew.Step portMachine (fun _ _ _ => True)
      ⟨s, [] ++ .delete key :: [.rewrite pass key frame' 1 [], .stored object]⟩
      ⟨s.remove key, [] ++ .deleted (s.objects key).isSome ::
        [.rewrite pass key frame' 1 [], .stored object]⟩ :=
    @Crew.Step.move _ _ _ _ _ _ _ _ _ _ _ _ ⟨Vector.replicate 12 0, false⟩ rfl trivial
  have hstep₃ : Crew.Step portMachine (fun _ _ _ => True)
      ⟨s.remove key, [.deleted (s.objects key).isSome] ++
        .rewrite pass key frame' 1 [] :: [.stored object]⟩
      ⟨(s.remove key).rewrite key frame', [.deleted (s.objects key).isSome] ++
        .turn done [] :: [.stored object]⟩ :=
    @Crew.Step.move _ _ _ _ _ _ _ _ _ _ _ _ ⟨Vector.replicate 12 0, false⟩ rfl trivial
  have hstep₄ : Crew.Step portMachine (fun _ _ _ => True)
      ⟨(s.remove key).rewrite key frame', [.deleted (s.objects key).isSome] ++
        .turn done [] :: [.stored object]⟩
      ⟨(s.remove key).rewrite key frame', [.deleted (s.objects key).isSome] ++
        .reported done.report :: [.stored object]⟩ :=
    @Crew.Step.move _ _ _ _ _ _ _ _ _ _ _ _ ⟨Vector.replicate 12 0, false⟩ rfl trivial
  refine ⟨_, ((((hr.mono fun _ _ _ _ => trivial).tail hstep₁).tail hstep₂).tail hstep₃).tail
    hstep₄, ?_, ?_, ?_⟩
  · intro p hp
    simp only [List.singleton_append, List.mem_cons, List.not_mem_nil, or_false] at hp
    rcases hp with rfl | rfl | rfl <;> trivial
  · exact Function.update_self _ _ _
  · show Function.update (s.remove key).objects key (some frame') key ≠ none
    rw [Function.update_self]
    exact Option.some_ne_none _

end

end Flowdular.Storage
