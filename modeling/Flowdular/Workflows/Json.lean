/-
# JSON values and their canonical text

`src/modules/workflows/src/domain/types.ts`, lines 3-9 (`JsonValue`,
`JsonSchemaV1`), and `src/modules/workflows/src/domain/graph.ts`, lines 81-89 and
137-143 (`canonical`, `jsonHash`, `jsonByteSize`).

An object is the list of its own entries in the order `Object.entries` gives
them.  A finite number is held as the shortest decimal that denotes it
(`Decimal`), which is what `JSON.stringify` prints and what decides `===` and
`<`.  Two functions of the host stay parameters (`Host`): the collation behind
`localeCompare`, which orders the keys of a canonical text, and SHA-256.
-/

import Mathlib.Data.List.Sort
import Mathlib.Data.Rat.Defs
import Mathlib.Algebra.Order.Ring.Rat

namespace Flowdular.Workflows

/-- What the code takes from its host: the collation `String.prototype.localeCompare`
runs on and the SHA-256 digest in hexadecimal. -/
class Host where
  localeCompare : String → String → Ordering
  sha256 : String → String

/-- A host that orders keys by code points and whose digest is the text itself. -/
@[reducible] def plainHost : Host where
  localeCompare := compare
  sha256 := id

/-! ### Numbers -/

/-- A finite number as its shortest decimal `mantissa · 10 ^ exponent`: the
mantissa has no trailing zero, and zero is `0 · 10 ^ 0`. -/
structure Decimal where
  mantissa : ℤ
  exponent : ℤ
  normal : mantissa % 10 ≠ 0 ∨ mantissa = 0 ∧ exponent = 0
deriving DecidableEq

namespace Decimal

/-- Move the trailing zeros of `m` into the exponent, at most `fuel` of them. -/
def strip : ℕ → ℕ → ℕ → ℕ × ℕ
  | 0, m, e => (m, e)
  | fuel + 1, m, e => if m % 10 = 0 then strip fuel (m / 10) (e + 1) else (m, e)

theorem strip_mod (fuel : ℕ) : ∀ m e, 0 < m → m ≤ fuel → (strip fuel m e).1 % 10 ≠ 0 := by
  induction fuel with
  | zero => exact fun m _ h₀ h => absurd h₀ (by omega)
  | succ fuel ih =>
    intro m e h₀ h
    unfold strip
    split
    · exact ih _ _ (by omega) (by omega)
    · assumption

/-- The number a natural numeral denotes. -/
def ofNat (n : ℕ) : Decimal :=
  if h : n = 0 then { mantissa := 0, exponent := 0, normal := .inr ⟨rfl, rfl⟩ }
  else
    { mantissa := (strip n n 0).1, exponent := (strip n n 0).2,
      normal := .inl (by have := strip_mod n n 0 (by omega) le_rfl; omega) }

instance (n : ℕ) : OfNat Decimal n := ⟨ofNat n⟩

/-- The rational a decimal denotes. -/
def toRat (d : Decimal) : ℚ :=
  if 0 ≤ d.exponent then d.mantissa * 10 ^ d.exponent.toNat
  else d.mantissa / 10 ^ (-d.exponent).toNat

/-- `Number.prototype.toString`: plain digits up to `10 ^ 21`, a fraction down to
`10 ^ -6`, scientific notation beyond. -/
def text (d : Decimal) : String :=
  let digits := toString d.mantissa.natAbs
  let k := digits.length
  let n : ℤ := k + d.exponent
  let unsigned :=
    if d.mantissa = 0 then "0"
    else if (k : ℤ) ≤ n ∧ n ≤ 21 then
      digits ++ String.ofList (List.replicate d.exponent.toNat '0')
    else if 0 < n ∧ n ≤ 21 then
      String.ofList (digits.toList.take n.toNat) ++ "." ++
        String.ofList (digits.toList.drop n.toNat)
    else if -6 < n ∧ n ≤ 0 then
      "0." ++ String.ofList (List.replicate (-n).toNat '0') ++ digits
    else
      let head := String.ofList (digits.toList.take 1)
      let tail := String.ofList (digits.toList.drop 1)
      let power := (if 0 ≤ n - 1 then "e+" else "e-") ++ toString (n - 1).natAbs
      if k = 1 then head ++ power else head ++ "." ++ tail ++ power
  if d.mantissa < 0 then "-" ++ unsigned else unsigned

example : (250 : Decimal).text = "250" := by decide
example : (Decimal.mk (-25) (-1) (by decide)).text = "-2.5" := by decide
example : (Decimal.mk 15 (-9) (by decide)).text = "1.5e-8" := by decide

end Decimal

/-! ### Values -/

/-- `JsonValue`.  The entries of an object stand in the order `Object.entries`
lists them. -/
inductive Json where
  | null
  | bool (b : Bool)
  | num (n : Decimal)
  | str (s : String)
  | arr (items : List Json)
  | obj (fields : List (String × Json))

namespace Json

mutual

/-- Equality of values is decided by walking them together. -/
def decEq : (a b : Json) → Decidable (a = b)
  | .null, .null => isTrue rfl
  | .bool a, .bool b => decidable_of_iff (a = b) (by simp)
  | .num a, .num b => decidable_of_iff (a = b) (by simp)
  | .str a, .str b => decidable_of_iff (a = b) (by simp)
  | .arr a, .arr b => have := decEqItems a b; decidable_of_iff (a = b) (by simp)
  | .obj a, .obj b => have := decEqFields a b; decidable_of_iff (a = b) (by simp)
  | .null, .bool _ | .null, .num _ | .null, .str _ | .null, .arr _ | .null, .obj _ => isFalse nofun
  | .bool _, .null | .bool _, .num _ | .bool _, .str _ | .bool _, .arr _ | .bool _, .obj _ =>
    isFalse nofun
  | .num _, .null | .num _, .bool _ | .num _, .str _ | .num _, .arr _ | .num _, .obj _ =>
    isFalse nofun
  | .str _, .null | .str _, .bool _ | .str _, .num _ | .str _, .arr _ | .str _, .obj _ =>
    isFalse nofun
  | .arr _, .null | .arr _, .bool _ | .arr _, .num _ | .arr _, .str _ | .arr _, .obj _ =>
    isFalse nofun
  | .obj _, .null | .obj _, .bool _ | .obj _, .num _ | .obj _, .str _ | .obj _, .arr _ =>
    isFalse nofun

/-- Equality of two lists of items. -/
def decEqItems : (a b : List Json) → Decidable (a = b)
  | [], [] => isTrue rfl
  | [], _ :: _ | _ :: _, [] => isFalse nofun
  | a :: as, b :: bs =>
    have := decEq a b
    have := decEqItems as bs
    decidable_of_iff (a = b ∧ as = bs) (by simp)

/-- Equality of two lists of entries. -/
def decEqFields : (a b : List (String × Json)) → Decidable (a = b)
  | [], [] => isTrue rfl
  | [], _ :: _ | _ :: _, [] => isFalse nofun
  | (k, a) :: as, (l, b) :: bs =>
    have := decEq a b
    have := decEqFields as bs
    decidable_of_iff (k = l ∧ a = b ∧ as = bs) (by simp [and_assoc])

end

instance : DecidableEq Json := decEq

/-- Induction over a value whose step is given the statement for every item and
every entry. -/
@[elab_as_elim]
theorem induction {P : Json → Prop} (null : P .null) (bool : ∀ b, P (.bool b))
    (num : ∀ n, P (.num n)) (str : ∀ s, P (.str s))
    (arr : ∀ items, (∀ v ∈ items, P v) → P (.arr items))
    (obj : ∀ fields, (∀ e ∈ fields, P e.2) → P (.obj fields)) (v : Json) : P v :=
  @Json.rec P (fun items => ∀ v ∈ items, P v) (fun fields => ∀ e ∈ fields, P e.2) (fun e => P e.2)
    null bool num str arr obj
    (fun _ h => absurd h List.not_mem_nil)
    (fun _ _ h hs v hv => (List.mem_cons.1 hv).elim (fun e => e ▸ h) (hs v))
    (fun _ h => absurd h List.not_mem_nil)
    (fun _ _ h hs e he => (List.mem_cons.1 he).elim (fun e' => e' ▸ h) (hs e))
    (fun _ _ h => h) v

/-- The own entry `value[key]` of an object, `none` for an absent key and for
every value that is no object. -/
def get? : Json → String → Option Json
  | .obj fields, key => fields.lookup key
  | _, _ => none

/-- `isRecord`: an object, neither `null` nor an array. -/
def isRecord : Json → Bool
  | .obj _ => true
  | _ => false

/-! ### Canonical text -/

/-- A hexadecimal digit in lower case. -/
def hexDigit (n : ℕ) : Char :=
  if n < 10 then Char.ofNat (48 + n) else Char.ofNat (87 + n)

/-- What `JSON.stringify` prints for one character of a string. -/
def quoteChar (c : Char) : List Char :=
  let n := c.toNat
  if n = 0x22 then ['\\', Char.ofNat 0x22]
  else if n = 0x5c then ['\\', '\\']
  else if n = 0x08 then ['\\', 'b']
  else if n = 0x09 then ['\\', 't']
  else if n = 0x0a then ['\\', 'n']
  else if n = 0x0c then ['\\', 'f']
  else if n = 0x0d then ['\\', 'r']
  else if n < 0x20 then ['\\', 'u', '0', '0', hexDigit (n / 16), hexDigit (n % 16)]
  else [c]

/-- `JSON.stringify` of a string. -/
def quote (s : String) : String :=
  let mark := Char.ofNat 0x22
  String.ofList (mark :: s.toList.flatMap quoteChar ++ [mark])

variable [Host]

/-- The entries sorted by `left.localeCompare(right)`; entries that compare equal
keep their order. -/
def sortEntries {β : Type} (entries : List (String × β)) : List (String × β) :=
  entries.insertionSort fun left right => Host.localeCompare left.1 right.1 ≠ .gt

mutual

/-- `canonical`: the JSON text of a value whose objects list their entries in
sorted order. -/
def canonical : Json → String
  | .null => "null"
  | .bool b => if b then "true" else "false"
  | .num n => n.text
  | .str s => quote s
  | .arr items => "[" ++ String.intercalate "," (canonicalItems items) ++ "]"
  | .obj fields =>
    "\x7b" ++ String.intercalate ","
      ((sortEntries (canonicalFields fields)).map fun (key, entry) => quote key ++ ":" ++ entry) ++
      "\x7d"

/-- The canonical texts of the items of an array. -/
def canonicalItems : List Json → List String
  | [] => []
  | item :: items => canonical item :: canonicalItems items

/-- The entries of an object, each value replaced by its canonical text. -/
def canonicalFields : List (String × Json) → List (String × String)
  | [] => []
  | (key, entry) :: fields => (key, canonical entry) :: canonicalFields fields

end

/-- `jsonHash`: the digest of the canonical text. -/
def jsonHash (value : Json) : String :=
  "sha256:" ++ Host.sha256 (canonical value)

/-- `jsonByteSize`: the length of the canonical text in UTF-8. -/
def jsonByteSize (value : Json) : ℕ :=
  (canonical value).utf8ByteSize

end Json

/-- A schema is an object: the list of its entries. -/
abbrev JsonSchema := List (String × Json)

end Flowdular.Workflows
