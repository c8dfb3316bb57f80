/-
# The text `JSON.stringify` prints

`JSON.stringify` of a value whose objects list their entries in their own order,
and the proof that the text determines the value.  Numbers, strings and lists
are each read back off the front of a text: a number up to the first character
no number holds, a string up to its closing quote, an item up to the separator
behind it.
-/

import Flowdular.Lib.Delimited
import Flowdular.Workflows.Json
import Mathlib.Algebra.Order.Field.Basic
import Mathlib.Data.List.TakeWhile
import Mathlib.Data.Rat.Lemmas
import Mathlib.Tactic.FieldSimp
import Mathlib.Tactic.NormNum
import Mathlib.Tactic.Ring

namespace Flowdular.Workflows

/-! ### Numbers -/

namespace Decimal

/-- The number a run of digits with an optional point denotes. -/
def readFraction (cs : List Char) : ℚ :=
  let whole := cs.takeWhile (· ≠ '.')
  let fraction := (cs.dropWhile (· ≠ '.')).drop 1
  (Nat.ofDigitChars 10 (whole ++ fraction) 0 : ℚ) * 10 ^ (-(fraction.length : ℤ))

/-- The power of ten behind the `e` of a number. -/
def readPower : List Char → ℤ
  | '-' :: ds => -(Nat.ofDigitChars 10 ds 0 : ℤ)
  | '+' :: ds => Nat.ofDigitChars 10 ds 0
  | _ => 0

/-- The number a text without a sign denotes. -/
def readUnsigned (cs : List Char) : ℚ :=
  readFraction (cs.takeWhile (· ≠ 'e')) * 10 ^ readPower ((cs.dropWhile (· ≠ 'e')).drop 1)

/-- The number a text denotes. -/
def read : List Char → ℚ
  | '-' :: cs => -readUnsigned cs
  | cs => readUnsigned cs

variable {c : Char} {cs ds : List Char}

theorem takeWhile_ne_of_not_mem (h : c ∉ cs) :
    cs.takeWhile (· ≠ c) = cs ∧ cs.dropWhile (· ≠ c) = [] := by
  have h' : ∀ a ∈ cs, decide (a ≠ c) = true := by
    intro a ha
    have : a ≠ c := ne_of_mem_of_not_mem ha h
    simpa using this
  exact ⟨List.takeWhile_eq_self_iff.2 h', List.dropWhile_eq_nil_iff.2 h'⟩

theorem takeWhile_ne_append (h : c ∉ cs) (rest : List Char) :
    (cs ++ c :: rest).takeWhile (· ≠ c) = cs ∧ (cs ++ c :: rest).dropWhile (· ≠ c) = c :: rest := by
  have h' : ∀ a ∈ cs, decide (a ≠ c) = true := by
    intro a ha
    have : a ≠ c := ne_of_mem_of_not_mem ha h
    simpa using this
  rw [List.takeWhile_append_of_pos h', List.dropWhile_append_of_pos h']
  simp

theorem readFraction_whole (h : '.' ∉ ds) : readFraction ds = Nat.ofDigitChars 10 ds 0 := by
  obtain ⟨h₁, h₂⟩ := takeWhile_ne_of_not_mem h
  simp only [readFraction]
  rw [h₁, h₂]
  simp

theorem readFraction_point {fs : List Char} (h : '.' ∉ ds) : readFraction (ds ++ '.' :: fs) =
      Nat.ofDigitChars 10 (ds ++ fs) 0 * 10 ^ (-(fs.length : ℤ)) := by
  obtain ⟨h₁, h₂⟩ := takeWhile_ne_append h fs
  simp only [readFraction]
  rw [h₁, h₂]
  simp

theorem readUnsigned_plain (h : 'e' ∉ cs) : readUnsigned cs = readFraction cs := by
  obtain ⟨h₁, h₂⟩ := takeWhile_ne_of_not_mem h
  simp only [readUnsigned]
  rw [h₁, h₂]
  simp [readPower]

theorem readUnsigned_power {ps : List Char} (h : 'e' ∉ cs) :
    readUnsigned (cs ++ 'e' :: ps) = readFraction cs * 10 ^ readPower ps := by
  obtain ⟨h₁, h₂⟩ := takeWhile_ne_append h ps
  simp only [readUnsigned]
  rw [h₁, h₂]
  simp

/-- The digits of a natural number as `toString` writes them. -/
theorem toList_toString (n : ℕ) : (toString n).toList = Nat.toDigits 10 n := by
  rw [Nat.toString_eq_repr, Nat.toList_repr]

theorem not_mem_digits (h : c.isDigit = false) (n : ℕ) : c ∉ Nat.toDigits 10 n := by
  intro hc
  have := Nat.isDigit_of_mem_toDigits (by omega) le_rfl hc
  simp [h] at this

theorem toRat_eq (d : Decimal) : d.toRat = d.mantissa * 10 ^ d.exponent := by
  unfold toRat
  split
  · next h => rw [← zpow_natCast, Int.toNat_of_nonneg h]
  · next h =>
    rw [div_eq_mul_inv, ← zpow_natCast, ← zpow_neg, Int.toNat_of_nonneg (by omega), neg_neg]

/-- The power behind the `e` of a number. -/
def powerText (n : ℤ) : List Char :=
  (if 0 ≤ n then '+' else '-') :: Nat.toDigits 10 n.natAbs

/-- The text of a number without its sign, from its digits and its exponent. -/
def unsignedText (digits : List Char) (exponent : ℤ) : List Char :=
  let k := digits.length
  let n : ℤ := k + exponent
  if (k : ℤ) ≤ n ∧ n ≤ 21 then digits ++ List.replicate exponent.toNat '0'
  else if 0 < n ∧ n ≤ 21 then digits.take n.toNat ++ '.' :: digits.drop n.toNat
  else if -6 < n ∧ n ≤ 0 then '0' :: '.' :: (List.replicate (-n).toNat '0' ++ digits)
  else
    if k = 1 then digits.take 1 ++ 'e' :: powerText (n - 1)
    else digits.take 1 ++ '.' :: digits.drop 1 ++ 'e' :: powerText (n - 1)

theorem readPower_text (n : ℤ) : readPower (powerText n) = n := by
  unfold powerText
  split_ifs with h
  · rw [readPower, Nat.ofDigitChars_ten_toDigits, Int.natCast_natAbs, abs_of_nonneg h]
  · rw [readPower, Nat.ofDigitChars_ten_toDigits, Int.natCast_natAbs, abs_of_neg (by omega),
      neg_neg]

theorem toList_text (d : Decimal) : d.text.toList = (if d.mantissa < 0 then ['-'] else []) ++
        if d.mantissa = 0 then ['0'] else
          unsignedText (Nat.toDigits 10 d.mantissa.natAbs) d.exponent := by
  have hl : (toString d.mantissa.natAbs).length = (Nat.toDigits 10 d.mantissa.natAbs).length := by
    rw [← toList_toString, String.length_toList]
  have hs : ∀ t : String, (if d.mantissa < 0 then "-" ++ t else t).toList =
      (if d.mantissa < 0 then ['-'] else []) ++ t.toList := by
    intro t
    split_ifs <;> simp
  unfold text unsignedText powerText
  simp only [hs, hl, apply_ite String.toList, String.toList_append, toList_toString,
    String.toList_ofList]
  congr 1
  by_cases hz : d.mantissa = 0
  · simp [hz]
  · simp only [hz, if_false]
    split_ifs <;> simp

theorem strip_value (fuel : ℕ) : ∀ m e : ℕ,
    (strip fuel m e).1 * 10 ^ (strip fuel m e).2 = m * 10 ^ e := by
  induction fuel with
  | zero => exact fun _ _ => rfl
  | succ fuel ih =>
    intro m e
    unfold strip
    split
    · next h =>
      rw [ih, pow_succ, mul_comm (10 ^ e), ← mul_assoc, Nat.div_mul_cancel (Nat.dvd_of_mod_eq_zero h)]
    · rfl

/-- A whole number below `10 ^ 21` is printed with its digits alone. -/
theorem length_text_ofNat {n : ℕ} (h : n < 10 ^ 21) : (ofNat n).text.toList.length ≤ 21 := by
  by_cases hz : n = 0
  · subst hz
    decide
  have hv := strip_value n n 0
  have hm : (ofNat n).mantissa = ((strip n n 0).1 : ℤ) := by rw [ofNat, dif_neg hz]
  have hexp : (ofNat n).exponent = ((strip n n 0).2 : ℤ) := by rw [ofNat, dif_neg hz]
  rw [pow_zero, mul_one] at hv
  generalize (strip n n 0).1 = m at hv hm
  generalize (strip n n 0).2 = e at hv hexp
  have hp : 0 < m := by
    rcases Nat.eq_zero_or_pos m with rfl | hp
    · rw [zero_mul] at hv
      omega
    · exact hp
  have he : e < 21 := by
    by_contra he
    have hle : 10 ^ 21 ≤ 10 ^ e := Nat.pow_le_pow_right (by omega) (by omega)
    have hmul : 10 ^ e ≤ m * 10 ^ e := Nat.le_mul_of_pos_left _ hp
    omega
  have hlt : m < 10 ^ (21 - e) := by
    refine Nat.lt_of_mul_lt_mul_right (a := 10 ^ e) ?_
    rw [hv, ← pow_add, Nat.sub_add_cancel he.le]
    exact h
  have hd : (Nat.toDigits 10 m).length ≤ 21 - e :=
    (Nat.length_toDigits_le_iff (by omega) (by omega)).2 hlt
  rw [toList_text, hm, hexp, if_neg (by omega), if_neg (by omega), Int.natAbs_natCast,
    List.nil_append, unsignedText, if_pos (by omega), List.length_append, List.length_replicate]
  omega

theorem readUnsigned_unsignedText (m : ℕ) (exponent : ℤ) :
    readUnsigned (unsignedText (Nat.toDigits 10 m) exponent) = m * 10 ^ exponent := by
  have hpoi := not_mem_digits (c := '.') (by decide) m
  have hp := not_mem_digits (c := 'e') (by decide) m
  have hv : Nat.ofDigitChars 10 (Nat.toDigits 10 m) 0 = m := Nat.ofDigitChars_ten_toDigits
  have hpos : 0 < (Nat.toDigits 10 m).length := Nat.length_toDigits_pos
  generalize Nat.toDigits 10 m = ds at *
  have ht : ∀ c n, c ∉ ds → c ∉ ds.take n := fun c n h hc => h (List.mem_of_mem_take hc)
  have hd : ∀ c n, c ∉ ds → c ∉ ds.drop n := fun c n h hc => h (List.mem_of_mem_drop hc)
  unfold unsignedText
  simp only
  split_ifs with h₁ h₂ h₃
  · -- all digits before the point, zeros appended
    rw [readUnsigned_plain (by simp [hp]), readFraction_whole (by simp [hpoi]),
      Nat.ofDigitChars_append, hv, Nat.ofDigitChars_replicate_zero]
    have he : exponent = exponent.toNat := by omega
    rw [Nat.cast_mul, Nat.cast_pow, he, zpow_natCast, mul_comm]
    norm_cast
  · -- the point falls among the digits
    rw [readUnsigned_plain (by simp [ht _ _ hp, hd _ _ hp]),
      readFraction_point (ht _ _ hpoi), List.take_append_drop, hv, List.length_drop]
    congr 2
    omega
  · -- zeros between the point and the digits
    rw [readUnsigned_plain (by simp [hp]), ← List.singleton_append,
      readFraction_point (by simp), List.singleton_append, ← List.cons_append,
      ← List.replicate_succ, Nat.ofDigitChars_append, Nat.ofDigitChars_replicate_zero, mul_zero,
      hv, List.length_append, List.length_replicate]
    congr 2
    omega
  · -- scientific notation, one digit
    have ho : ds.take 1 = ds := List.take_of_length_le (by omega)
    rw [readUnsigned_power (ht _ _ hp), readFraction_whole (ht _ _ hpoi), ho, hv, readPower_text]
    congr 2
    omega
  · rw [readUnsigned_power (by simp [ht _ _ hp, -List.drop_one, hd _ _ hp]),
      readFraction_point (ht _ _ hpoi), List.take_append_drop, hv, readPower_text,
      List.length_drop, mul_assoc, ← zpow_add₀ (by norm_num)]
    congr 2
    omega

theorem head?_unsignedText (m : ℕ) (exponent : ℤ) :
    ∃ c cs, unsignedText (Nat.toDigits 10 m) exponent = c :: cs ∧ c.isDigit = true := by
  obtain ⟨d, ds, hds⟩ := List.exists_cons_of_ne_nil (Nat.toDigits_ne_nil (n := m) (b := 10))
  have hd : d.isDigit := Nat.isDigit_of_mem_toDigits (by omega) le_rfl (hds ▸ List.mem_cons_self)
  unfold unsignedText
  rw [hds]
  simp only
  split_ifs
  · exact ⟨d, _, rfl, hd⟩
  · obtain ⟨n, hn⟩ : ∃ n : ℕ, (((d :: ds).length : ℤ) + exponent).toNat = n + 1 :=
      ⟨_, (Nat.succ_pred_eq_of_pos (by omega)).symm⟩
    rw [hn]
    exact ⟨d, _, rfl, hd⟩
  · exact ⟨'0', _, rfl, by decide⟩
  · exact ⟨d, _, rfl, hd⟩
  · exact ⟨d, _, rfl, hd⟩

/-- Reading a number's text gives the number back. -/
theorem read_text (d : Decimal) : read d.text.toList = d.toRat := by
  rw [toList_text, toRat_eq]
  have hv := readUnsigned_unsignedText d.mantissa.natAbs d.exponent
  obtain ⟨c, cs, hcs, hc⟩ := head?_unsignedText d.mantissa.natAbs d.exponent
  have hm : c ≠ '-' := by rintro rfl; simp at hc
  split_ifs with hn hz hz
  · omega
  · rw [List.singleton_append, read, hv, Nat.cast_natAbs, abs_of_neg hn]
    push_cast
    ring
  · rw [hz]
    simp [read, readUnsigned, readFraction, readPower, Nat.ofDigitChars]
  · rw [List.nil_append, hcs, read, ← hcs, hv, Nat.cast_natAbs, abs_of_nonneg (by omega)]
    simpa using hm

/-- A normal decimal is the only one of its value. -/
theorem toRat_injective : Function.Injective toRat := by
  have key : ∀ a b : Decimal, a.toRat = b.toRat → a.exponent ≤ b.exponent → a = b := by
    intro a b h hle
    obtain ⟨k, hk⟩ := Int.eq_ofNat_of_zero_le (Int.sub_nonneg.2 hle)
    have hb : b.exponent = a.exponent + k := by omega
    rw [toRat_eq, toRat_eq, hb, zpow_add₀ (by norm_num), ← mul_assoc,
      mul_right_comm, zpow_natCast] at h
    have h := mul_right_cancel₀ (zpow_ne_zero _ (by norm_num)) h
    have hm : a.mantissa = b.mantissa * 10 ^ k := by exact_mod_cast h
    have hk0 : k = 0 := by
      by_contra hne
      obtain ⟨j, rfl⟩ := Nat.exists_eq_succ_of_ne_zero hne
      have hd : (10 : ℤ) ∣ a.mantissa := ⟨b.mantissa * 10 ^ j, by rw [hm, pow_succ]; ring⟩
      have ha : a.mantissa = 0 ∧ a.exponent = 0 :=
        a.normal.resolve_left (by simpa using Int.emod_eq_zero_of_dvd hd)
      have hb0 : b.mantissa = 0 := by
        have h0 : b.mantissa * 10 ^ (j + 1) = 0 := by rw [← hm, ha.1]
        exact (mul_eq_zero.1 h0).resolve_right (by positivity)
      have := b.normal
      omega
    subst hk0
    obtain ⟨m, e, hn⟩ := a
    obtain ⟨m', e', hn'⟩ := b
    simp_all
  intro a b h
  rcases le_total a.exponent b.exponent with hle | hle
  · exact key a b h hle
  · exact (key b a h.symm hle).symm

theorem text_injective : Function.Injective text := by
  intro a b h
  apply toRat_injective
  rw [← read_text, ← read_text, h]

/-- The characters a number's text is made of. -/
def IsNumberChar (c : Char) : Prop :=
  c.isDigit ∨ c ∈ ['-', '+', '.', 'e']

theorem isNumberChar_of_mem_text (d : Decimal) (hc : c ∈ d.text.toList) : IsNumberChar c := by
  have hd : ∀ n, c ∈ Nat.toDigits 10 n → IsNumberChar c := fun n h =>
    .inl (Nat.isDigit_of_mem_toDigits (by omega) le_rfl h)
  have hds : ∀ n k, c ∈ (Nat.toDigits 10 n).take k ∨ c ∈ (Nat.toDigits 10 n).drop k →
      IsNumberChar c := fun n k h =>
    h.elim (fun h => hd n (List.mem_of_mem_take h)) fun h => hd n (List.mem_of_mem_drop h)
  have hz : ∀ k, c ∈ List.replicate k '0' → IsNumberChar c := by
    intro k h
    rw [List.eq_of_mem_replicate h]
    exact .inl rfl
  have hs : c ∈ ['-', '+', '.', 'e'] → IsNumberChar c := .inr
  have hp : ∀ n, c ∈ powerText n → IsNumberChar c := by
    intro n h
    rcases List.mem_cons.1 h with rfl | h
    · split_ifs <;> exact .inr (by simp)
    · exact hd _ h
  rw [toList_text, List.mem_append] at hc
  rcases hc with hc | hc
  · split_ifs at hc <;> simp_all
  split_ifs at hc
  · exact hz 1 hc
  unfold unsignedText at hc
  simp only at hc
  split_ifs at hc
  all_goals simp only [List.mem_append, List.mem_cons, or_assoc] at hc
  · exact hc.elim (hd _) (hz _)
  · rcases hc with hc | rfl | hc
    · exact hds _ _ (.inl hc)
    · exact .inr (by simp)
    · exact hds _ _ (.inr hc)
  · rcases hc with rfl | rfl | hc | hc
    · exact .inl rfl
    · exact .inr (by simp)
    · exact hz _ hc
    · exact hd _ hc
  · rcases hc with hc | rfl | hc
    · exact hds _ _ (.inl hc)
    · exact .inr (by simp)
    · exact hp _ hc
  · rcases hc with hc | rfl | hc | rfl | hc
    · exact hds _ _ (.inl hc)
    · exact .inr (by simp)
    · exact hds _ _ (.inr hc)
    · exact .inr (by simp)
    · exact hp _ hc

end Decimal

namespace Json

/-! ### Strings -/

/-- The value of a hexadecimal digit in lower case. -/
def hexValue (c : Char) : ℕ :=
  if c.toNat < 58 then c.toNat - 48 else c.toNat - 87

theorem hexValue_hexDigit {n : ℕ} (hn : n < 16) : hexValue (hexDigit n) = n := by
  revert hn
  revert n
  decide

/-- The character an escape letter stands for. -/
def unescape (c : Char) : Char :=
  if c = 'b' then Char.ofNat 0x08
  else if c = 't' then Char.ofNat 0x09
  else if c = 'n' then Char.ofNat 0x0a
  else if c = 'f' then Char.ofNat 0x0c
  else if c = 'r' then Char.ofNat 0x0d
  else c

/-- Read one character of a quoted string. -/
def readChar : List Char → Option (Char × List Char)
  | [] => none
  | c :: rest =>
    if c = '\\' then
      match rest with
      | [] => none
      | e :: rest =>
        if e = 'u' then
          match rest with
          | _ :: _ :: h :: l :: rest =>
            some (Char.ofNat (16 * hexValue h + hexValue l), rest)
          | _ => none
        else some (unescape e, rest)
    else some (c, rest)

variable {c : Char} {v : Json}

theorem readChar_escape (hc : c ≠ 'u') (rest : List Char) :
    readChar ('\\' :: c :: rest) = some (unescape c, rest) := by
  simp [readChar, hc]

theorem readChar_quoteChar (c : Char) (rest : List Char) :
    readChar (quoteChar c ++ rest) = some (c, rest) := by
  have hc : Char.ofNat c.toNat = c := Char.ofNat_toNat c
  -- a character with an escape letter is the one of its code
  have hesc : ∀ e n, c.toNat = n → unescape e = Char.ofNat n → e ≠ 'u' →
      readChar (['\\', e] ++ rest) = some (c, rest) := by
    intro e n hn hu he
    rw [List.cons_append, List.singleton_append, readChar_escape he, hu, ← hn, hc]
  unfold quoteChar
  simp only
  split_ifs with h₁ h₂ h₃ h₄ h₅ h₆ h₇ h₈
  · exact hesc _ _ h₁ rfl (by decide)
  · exact hesc _ _ h₂ rfl (by decide)
  · exact hesc _ _ h₃ rfl (by decide)
  · exact hesc _ _ h₄ rfl (by decide)
  · exact hesc _ _ h₅ rfl (by decide)
  · exact hesc _ _ h₆ rfl (by decide)
  · exact hesc _ _ h₇ rfl (by decide)
  · have hv : 16 * hexValue (hexDigit (c.toNat / 16)) + hexValue (hexDigit (c.toNat % 16)) =
        c.toNat := by
      rw [hexValue_hexDigit (by omega), hexValue_hexDigit (by omega)]
      omega
    simp [readChar, hv]
  · have hne : c ≠ '\\' := by
      rintro rfl
      exact h₂ rfl
    simp [readChar, hne]

/-- The quotation mark. -/
def mark : Char := Char.ofNat 0x22

theorem head?_quoteChar (c : Char) (rest : List Char) :
    (quoteChar c ++ rest).head? ≠ some mark := by
  unfold quoteChar
  simp only
  split_ifs with h₁
  all_goals simp [mark]
  rintro rfl
  exact h₁ rfl

theorem toList_quote (s : String) :
    (quote s).toList = mark :: (s.toList.flatMap quoteChar ++ [mark]) := by
  simp [quote, mark]

/-- A quoted string is read up to its closing mark. -/
theorem reads_quote (s : String) : Reads (fun _ => True) (fun s => (quote s).toList) s := by
  intro s' rest rest' _ _ heq
  simp only [toList_quote, List.cons_append, List.cons.injEq, true_and] at heq
  have hrun := Reads.run
    (fun c => Reads.of_reader readChar (fun c rest _ => readChar_quoteChar c rest) c)
    head?_quoteChar s.toList
  obtain ⟨hs, hr⟩ := hrun s'.toList rest rest' trivial trivial heq
  exact ⟨String.toList_inj.1 hs, hr⟩

/-! ### Values -/

mutual

/-- `JSON.stringify`: the text of a value whose objects list their entries in
their own order. -/
def stringify : Json → String
  | .null => "null"
  | .bool b => if b then "true" else "false"
  | .num n => n.text
  | .str s => quote s
  | .arr items => "[" ++ String.intercalate "," (stringifyItems items) ++ "]"
  | .obj fields =>
    "\x7b" ++ String.intercalate ","
      ((stringifyFields fields).map fun (key, entry) => quote key ++ ":" ++ entry) ++ "\x7d"

/-- The texts of the items of an array. -/
def stringifyItems : List Json → List String
  | [] => []
  | item :: items => stringify item :: stringifyItems items

/-- The entries of an object, each value replaced by its text. -/
def stringifyFields : List (String × Json) → List (String × String)
  | [] => []
  | (key, entry) :: fields => (key, stringify entry) :: stringifyFields fields

end

/-- The characters of a value's text. -/
def chars (v : Json) : List Char :=
  (stringify v).toList

/-- The characters of an entry. -/
def entryChars (e : String × Json) : List Char :=
  (quote e.1).toList ++ ':' :: chars e.2

theorem stringifyItems_eq (items : List Json) : stringifyItems items = items.map stringify := by
  induction items with
  | nil => rfl
  | cons v items ih => rw [stringifyItems, ih, List.map_cons]

theorem stringifyFields_eq (fields : List (String × Json)) :
    stringifyFields fields = fields.map fun e => (e.1, stringify e.2) := by
  induction fields with
  | nil => rfl
  | cons e fields ih => rw [stringifyFields, ih, List.map_cons]

theorem chars_arr (items : List Json) :
    chars (.arr items) = '[' :: ([','].intercalate (items.map chars) ++ [']']) := by
  have hm : (items.map stringify).map String.toList = items.map chars := by
    rw [List.map_map]
    rfl
  rw [chars, stringify, stringifyItems_eq]
  simp [hm]

theorem chars_obj (fields : List (String × Json)) : chars (.obj fields) =
      Char.ofNat 0x7b :: ([','].intercalate (fields.map entryChars) ++ [Char.ofNat 0x7d]) := by
  have hm : (fields.map fun e => quote e.1 ++ ":" ++ stringify e.2).map String.toList =
      fields.map entryChars := by
    rw [List.map_map]
    refine List.map_congr_left fun e _ => ?_
    simp [entryChars, chars]
  rw [chars, stringify, stringifyFields_eq, List.map_map]
  simp only [String.toList_append, String.toList_intercalate]
  rw [← hm]
  rfl

/-- What may stand behind a value: nothing, a separator or a closing bracket. -/
def ValueEnd (rest : List Char) : Prop :=
  ∀ c, rest.head? = some c → c ∈ [',', ']', Char.ofNat 0x7d]

/-- What the first character of a value's text says about the value. -/
def kindOfChar (c : Char) : ℕ :=
  if c = 'n' then 0 else if c = 't' then 1 else if c = 'f' then 2 else if c = mark then 3
  else if c = '[' then 4 else if c = Char.ofNat 0x7b then 5
  else if c.isDigit ∨ c = '-' then 6 else 7

/-- The kind of a value, the two Booleans apart. -/
def kind : Json → ℕ
  | .null => 0
  | .bool true => 1
  | .bool false => 2
  | .str _ => 3
  | .arr _ => 4
  | .obj _ => 5
  | .num _ => 6

theorem exists_cons_text (d : Decimal) :
    ∃ c cs, d.text.toList = c :: cs ∧ (c.isDigit ∨ c = '-') := by
  obtain ⟨c, cs, hcs, hc⟩ := Decimal.head?_unsignedText d.mantissa.natAbs d.exponent
  rw [Decimal.toList_text, hcs]
  split_ifs
  · exact ⟨'-', _, rfl, .inr rfl⟩
  · exact ⟨'-', _, rfl, .inr rfl⟩
  · exact ⟨'0', _, rfl, .inl rfl⟩
  · exact ⟨c, cs, rfl, .inl hc⟩

theorem exists_cons_chars (v : Json) : ∃ c cs, chars v = c :: cs ∧ kindOfChar c = kind v := by
  cases v with
  | null => exact ⟨'n', _, rfl, rfl⟩
  | bool b => cases b <;> exact ⟨_, _, rfl, rfl⟩
  | str s => exact ⟨mark, _, toList_quote s, rfl⟩
  | arr items => exact ⟨'[', _, chars_arr items, rfl⟩
  | obj fields => exact ⟨_, _, chars_obj fields, rfl⟩
  | num d =>
    obtain ⟨c, cs, hcs, hc⟩ := exists_cons_text d
    refine ⟨c, cs, hcs, ?_⟩
    have hne : ∀ k : Char, k.isDigit = false → k ≠ '-' → c ≠ k := by
      rintro k hk hk' rfl
      simp_all
    simp [kindOfChar, kind, mark, hne, hc]

theorem kind_eq {w : Json} {s t : List Char} (h : chars v ++ s = chars w ++ t) :
    kind v = kind w := by
  obtain ⟨c, cs, hv, hc⟩ := exists_cons_chars v
  obtain ⟨d, ds, hw, hd⟩ := exists_cons_chars w
  rw [hv, hw, List.cons_append, List.cons_append, List.cons.injEq] at h
  rw [← hc, ← hd, h.1]

theorem reads_number (d : Decimal) : Reads ValueEnd (fun d => d.text.toList) d := by
  refine Reads.of_alphabet (fun _ _ h => Decimal.text_injective (String.toList_inj.1 h))
    (fun d c hc => d.isNumberChar_of_mem_text hc) (fun s hs c hc hn => ?_) d
  have := hs c hc
  simp only [List.mem_cons, List.not_mem_nil, or_false] at this
  rcases this with rfl | rfl | rfl <;> simp [Decimal.IsNumberChar] at hn

theorem head?_chars (v : Json) (rest : List Char) : (chars v ++ rest).head? ≠ some ']' := by
  obtain ⟨c, cs, hcs, hc⟩ := exists_cons_chars v
  rw [hcs, List.cons_append, List.head?_cons, Ne, Option.some_inj]
  rintro rfl
  rcases v with - | (_ | _) | d | s | items | fields <;> simp [kind, kindOfChar, mark] at hc

theorem head?_entryChars (e : String × Json) (rest : List Char) :
    (entryChars e ++ rest).head? ≠ some (Char.ofNat 0x7d) := by
  rw [entryChars, toList_quote]
  simp [mark]

theorem valueEnd_of_mem (h : c ∈ [',', ']', Char.ofNat 0x7d]) (rest : List Char) :
    ValueEnd (c :: rest) := by
  intro d hd
  rw [List.head?_cons, Option.some_inj] at hd
  exact hd ▸ h

/-- An entry is read up to a separator or a closing bracket. -/
theorem reads_entry {k : String} (h : Reads ValueEnd chars v) :
    Reads ValueEnd entryChars (k, v) := by
  have hk : Reads (Starts ':') (fun s => (quote s).toList) k :=
    Reads.mono (reads_quote k) fun _ _ => trivial
  exact @Reads.pair Json String Char ValueEnd chars v (fun s => (quote s).toList) k ':' hk h

/-- A value is read up to a separator, a closing bracket or the end. -/
theorem reads_chars (v : Json) : Reads ValueEnd chars v := by
  induction v using Json.induction with
  | null =>
    intro b s t _ _ heq
    have hk := kind_eq heq
    rcases b with - | (_ | _) | d | s | items | fields <;> simp [kind] at hk
    exact ⟨rfl, List.append_cancel_left heq⟩
  | bool a =>
    intro b s t _ _ heq
    have hk := kind_eq heq
    rcases a with _ | _ <;> rcases b with - | (_ | _) | d | s | items | fields <;>
      simp [kind] at hk
    · exact ⟨rfl, List.append_cancel_left heq⟩
    · exact ⟨rfl, List.append_cancel_left heq⟩
  | num d =>
    intro b s t hs ht heq
    have hk := kind_eq heq
    rcases b with - | (_ | _) | e | s | items | fields <;> simp [kind] at hk
    obtain ⟨rfl, rfl⟩ := reads_number d e s t hs ht heq
    exact ⟨rfl, rfl⟩
  | str a =>
    intro b s t _ _ heq
    have hk := kind_eq heq
    rcases b with - | (_ | _) | e | b | items | fields <;> simp [kind] at hk
    obtain ⟨rfl, rfl⟩ := reads_quote a b s t trivial trivial heq
    exact ⟨rfl, rfl⟩
  | arr items ih =>
    intro b s t _ _ heq
    have hk := kind_eq heq
    rcases b with - | (_ | _) | e | b | items' | fields <;> simp [kind] at hk
    have hl := Reads.separated (show ',' ≠ ']' by decide)
      (valueEnd_of_mem (by simp)) (valueEnd_of_mem (by simp)) head?_chars ih
    rw [chars_arr, chars_arr, List.cons_append, List.cons_append, List.cons.injEq] at heq
    obtain ⟨rfl, rfl⟩ := hl items' s t trivial trivial heq.2
    exact ⟨rfl, rfl⟩
  | obj fields ih =>
    intro b s t _ _ heq
    have hk := kind_eq heq
    rcases b with - | (_ | _) | e | b | items' | fields' <;> simp [kind] at hk
    have hent : ∀ e ∈ fields, Reads ValueEnd entryChars e := fun e he => reads_entry (ih e he)
    have hl := Reads.separated (show ',' ≠ Char.ofNat 0x7d by decide)
      (valueEnd_of_mem (by simp)) (valueEnd_of_mem (by simp)) head?_entryChars hent
    rw [chars_obj, chars_obj, List.cons_append, List.cons_append, List.cons.injEq] at heq
    obtain ⟨rfl, rfl⟩ := hl fields' s t trivial trivial heq.2
    exact ⟨rfl, rfl⟩

/-- **The text of a value determines the value.** -/
theorem stringify_injective : Function.Injective stringify := by
  intro a b h
  have hn : ValueEnd [] := fun c hc => by simp at hc
  exact Reads.injective reads_chars hn (congrArg String.toList h)

end Json

end Flowdular.Workflows
