/-
# Bytes

Numbers of a fixed width in little-endian order (`littleEndian`, `number`), records of such
fields, and what is read of a file at an offset.  A file is cut at the offset into what is
before and what is behind (`readAt_append`), so that a field of a record is read back where
its offset is the width of the fields before it (`readAt_record`).  A text in UTF-8 reads the
same byte by byte where it is in ASCII only (`latin1_utf8`).
-/

import Mathlib.Data.Nat.Notation
import Mathlib.Tactic.Common
import Mathlib.Tactic.Ring

namespace Flowdular.Lib

/-- Bytes of a file or a buffer. -/
abbrev Bytes :=
  List UInt8

namespace Bytes

/-! ### Numbers -/

/-- The bytes of a number, the least one first; what is above the width is dropped. -/
def littleEndian : (width : ℕ) → ℕ → Bytes
  | 0, _ => []
  | width + 1, n => UInt8.ofNat (n % 256) :: littleEndian width (n / 256)

/-- The number of bytes in that order. -/
def number : Bytes → ℕ
  | [] => 0
  | b :: bs => b.toNat + 256 * number bs

@[simp] theorem length_littleEndian : ∀ width n, (littleEndian width n).length = width := by
  intro width
  induction width with
  | zero => exact fun _ => rfl
  | succ width ih =>
    intro n
    rw [littleEndian, List.length_cons, ih]

theorem number_littleEndian : ∀ {width n : ℕ}, n < 256 ^ width → number (littleEndian width n) = n := by
  intro width
  induction width with
  | zero =>
    intro n h
    rw [littleEndian, number]
    omega
  | succ width ih =>
    intro n h
    have hd : n / 256 < 256 ^ width := by
      rw [Nat.div_lt_iff_lt_mul (by decide), ← pow_succ]
      exact h
    rw [littleEndian, number, ih hd, UInt8.toNat_ofNat']
    omega

/-- The number at an offset; a byte beyond the end counts nothing. -/
def readAt (width : ℕ) (file : Bytes) (offset : ℕ) : ℕ :=
  number ((file.drop offset).take width)

theorem readAt_append {width : ℕ} {before file : Bytes} {offset : ℕ} :
    readAt width (before ++ file) (before.length + offset) = readAt width file offset := by
  rw [readAt, readAt, List.drop_append, List.drop_eq_nil_of_le (by omega), List.nil_append,
    Nat.add_sub_cancel_left]

/-! ### Records -/

/-- Fields in their order, each with its width. -/
abbrev Fields :=
  List (ℕ × ℕ)

/-- The bytes of a record. -/
def record (fields : Fields) : Bytes :=
  fields.flatMap fun field => littleEndian field.1 field.2

/-- The width of a record. -/
def width (fields : Fields) : ℕ :=
  (fields.map (·.1)).sum

@[simp] theorem length_record (fields : Fields) : (record fields).length = width fields := by
  rw [record, List.length_flatMap, width]
  simp

theorem record_append (fields fields' : Fields) : record (fields ++ fields') = record fields ++ record fields' :=
  List.flatMap_append

/-- Each field is of its width. -/
def Fits (fields : Fields) : Prop :=
  ∀ field ∈ fields, field.2 < 256 ^ field.1

instance : DecidablePred Fits :=
  fun fields => inferInstanceAs (Decidable (∀ field ∈ fields, field.2 < 256 ^ field.1))

/-- **A field is read back**: its offset is the width of the fields before it. -/
theorem readAt_record (before : Fields) {w n : ℕ} {behind : Fields} {rest : Bytes}
    (h : Fits (before ++ (w, n) :: behind)) :
    readAt w (record (before ++ (w, n) :: behind) ++ rest) (width before) = n := by
  have hn : n < 256 ^ w := h (w, n) (List.mem_append_right _ List.mem_cons_self)
  have hs : record (before ++ (w, n) :: behind) ++ rest =
      record before ++ (littleEndian w n ++ (record behind ++ rest)) := by
    rw [record_append, List.append_assoc]
    simp [record]
  rw [hs, ← length_record, ← Nat.add_zero (record before).length, readAt_append, readAt, List.drop_zero,
    List.take_append_of_le_length (by simp), List.take_of_length_le (by simp), number_littleEndian hn]

/-! ### Texts -/

/-- A text in UTF-8. -/
def utf8 (text : String) : Bytes :=
  text.toList.flatMap String.utf8EncodeChar

theorem utf8_injective : Function.Injective utf8 := by
  intro a b h
  rw [← String.toByteArray_inj, ← String.utf8Encode_toList, ← String.utf8Encode_toList]
  exact congrArg List.toByteArray h

/-- Bytes as a text, one character each. -/
def latin1 (bytes : Bytes) : String :=
  String.ofList (bytes.map fun b => Char.ofNat b.toNat)

/-- The text is in ASCII only. -/
def isAscii (text : String) : Bool :=
  text.toList.all fun c => c.val ≤ 127

theorem length_le_utf8 : ∀ cs : List Char, cs.length ≤ (cs.flatMap String.utf8EncodeChar).length := by
  intro cs
  induction cs with
  | nil => exact le_rfl
  | cons c cs ih =>
    have hp : 0 < (String.utf8EncodeChar c).length := List.length_pos_iff.2 String.utf8EncodeChar_ne_nil
    rw [List.flatMap_cons, List.length_append, List.length_cons]
    omega

/-- A character in ASCII is one byte, which reads the same. -/
theorem utf8EncodeChar_ascii {c : Char} (h : c.val ≤ 127) :
    (String.utf8EncodeChar c).map (fun b => Char.ofNat b.toNat) = [c] := by
  rw [String.utf8EncodeChar_eq_singleton (Char.utf8Size_eq_one_iff.2 h), List.map_singleton]
  have hv : c.val.toNat ≤ 127 := h
  have hb : c.val.toUInt8.toNat = c.toNat := by
    rw [UInt32.toNat_toUInt8]
    exact Nat.mod_eq_of_lt (by omega)
  rw [hb, Char.ofNat_toNat]

/-- **A text is read back byte by byte** where it is in ASCII, and in no other case. -/
theorem latin1_utf8 {text : String} : latin1 (utf8 text) = text ↔ isAscii text = true := by
  have hl : latin1 (utf8 text) = text ↔
      (text.toList.flatMap String.utf8EncodeChar).map (fun b => Char.ofNat b.toNat) = text.toList := by
    rw [latin1, utf8]
    constructor
    · intro h
      rw [← String.toList_ofList (l := List.map _ _), h]
    · intro h
      rw [h, String.ofList_toList]
  rw [hl, isAscii, List.all_eq_true]
  generalize text.toList = cs
  induction cs with
  | nil => simp
  | cons c cs ih =>
    rw [List.flatMap_cons, List.map_append, List.forall_mem_cons, decide_eq_true_eq]
    by_cases hc : c.val ≤ 127
    · rw [utf8EncodeChar_ascii hc, List.singleton_append, List.cons_inj_right]
      exact ih.trans (and_iff_right hc).symm
    · refine iff_of_false (fun h => ?_) fun h => hc h.1
      -- A character that is not in ASCII takes two bytes at least, and no other one takes less than one.
      have hlen := congrArg List.length h
      rw [List.length_append, List.length_map, List.length_map, List.length_cons, String.length_utf8EncodeChar] at hlen
      have hs : c.utf8Size ≠ 1 := fun h => hc (Char.utf8Size_eq_one_iff.1 h)
      have hp := Char.utf8Size_pos c
      have hr := length_le_utf8 cs
      omega

end Bytes
end Flowdular.Lib
