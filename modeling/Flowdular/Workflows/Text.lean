/-
# Names, pointers and string order

The regular expressions and the string operations of
`src/modules/workflows/src/domain/graph.ts` and `graph-security.ts`: what an
identifier, a port name and a JSON pointer look like, how a pointer falls into
segments, and the order of `Array.prototype.sort` on strings, which compares
UTF-16 code units.
-/

import Flowdular.Workflows.Json
import Mathlib.Data.List.DropRight
import Mathlib.Data.List.Sort

namespace Flowdular.Workflows

/-! ### Names -/

/-- `[a-z]`. -/
def isLowerLetter (c : Char) : Bool :=
  97 ≤ c.toNat && c.toNat ≤ 122

/-- `[0-9]`. -/
def isDigit (c : Char) : Bool :=
  48 ≤ c.toNat && c.toNat ≤ 57

/-- `[a-z][a-z0-9-]*`, the shape of a port name and of each part of an
identifier. -/
def isName : List Char → Bool
  | [] => false
  | c :: cs => isLowerLetter c && cs.all fun c => isLowerLetter c || isDigit c || c = '-'

/-- `IDENTIFIER`: at least two names joined by dots. -/
def isIdentifier (s : String) : Bool :=
  let parts := s.toList.splitOn '.'
  2 ≤ parts.length && parts.all isName

/-- `PORT`. -/
def isPortName (s : String) : Bool :=
  isName s.toList

/-- `QUESTION_KEY`: `[a-z][a-z0-9_]{0,63}`. -/
def isQuestionKey (s : String) : Bool :=
  match s.toList with
  | [] => false
  | c :: cs =>
    isLowerLetter c && cs.length ≤ 63 && cs.all fun c => isLowerLetter c || isDigit c || c = '_'

/-- A path of the node input a typed decision asks about:
`[a-zA-Z0-9_.-]{1,200}`. -/
def isStatePath (s : String) : Bool :=
  let cs := s.toList
  1 ≤ cs.length && cs.length ≤ 200 && cs.all fun c =>
      isLowerLetter c || (65 ≤ c.toNat && c.toNat ≤ 90) || isDigit c || c = '_' || c = '.' || c = '-'

/-- `sha256:` and 64 lower-case hexadecimal digits. -/
def isSha256Digest (s : String) : Bool :=
  let cs := s.toList
  cs.take 7 = "sha256:".toList && cs.length = 71 &&
    (cs.drop 7).all fun c => isDigit c || (97 ≤ c.toNat && c.toNat ≤ 102)

/-- The white space `String.prototype.trim` removes. -/
def isWhiteSpace (c : Char) : Bool :=
  c.toNat ∈ [0x09, 0x0a, 0x0b, 0x0c, 0x0d, 0x20, 0xa0, 0x1680, 0x2000, 0x2001, 0x2002, 0x2003,
    0x2004, 0x2005, 0x2006, 0x2007, 0x2008, 0x2009, 0x200a, 0x2028, 0x2029, 0x202f, 0x205f, 0x3000,
    0xfeff]

/-- `String.prototype.trim`, on the characters. -/
def trimChars (cs : List Char) : List Char :=
  (cs.dropWhile isWhiteSpace).rdropWhile isWhiteSpace

/-- What has no white space is trimmed. -/
theorem trimChars_of_none {cs : List Char} (h : ∀ c ∈ cs, isWhiteSpace c = false) : trimChars cs = cs := by
  have hf : cs.dropWhile isWhiteSpace = cs := by
    cases cs with
    | nil => rfl
    | cons c cs => exact List.dropWhile_cons_of_neg (by simp [h c List.mem_cons_self])
  rw [trimChars, hf, List.rdropWhile_eq_self_iff]
  intro hne
  rw [h _ (List.getLast_mem hne)]
  exact Bool.false_ne_true

theorem trimChars_trimChars (cs : List Char) : trimChars (trimChars cs) = trimChars cs := by
  have hd : ∀ l : List Char, ((l.dropWhile isWhiteSpace).rdropWhile isWhiteSpace).dropWhile isWhiteSpace =
      (l.dropWhile isWhiteSpace).rdropWhile isWhiteSpace := by
    intro l
    cases h : (l.dropWhile isWhiteSpace).rdropWhile isWhiteSpace with
    | nil => rfl
    | cons x xs =>
      obtain ⟨rest, hr⟩ : x :: xs <+: l.dropWhile isWhiteSpace := by
        rw [← h]
        exact List.rdropWhile_prefix isWhiteSpace _
      have hne : l.dropWhile isWhiteSpace ≠ [] := by simp [← hr]
      have hh : isWhiteSpace x = false := by
        have hn := List.head_dropWhile_not isWhiteSpace hne
        simpa [← hr] using hn
      simp [hh]
  rw [trimChars, trimChars, hd, List.rdropWhile_idempotent]

/-- The UTF-16 code units of a string. -/
def codeUnits (s : String) : List ℕ :=
  s.toList.flatMap fun c =>
    if c.toNat < 0x10000 then [c.toNat]
    else [0xd800 + (c.toNat - 0x10000) / 0x400, 0xdc00 + (c.toNat - 0x10000) % 0x400]

/-- `s.length`. -/
def utf16Length (s : String) : ℕ :=
  (codeUnits s).length

/-- No name has a colon, so no identifier has one. -/
theorem colon_notMem_of_isName {cs : List Char} (h : isName cs = true) : ':' ∉ cs := by
  cases cs with
  | nil => exact List.not_mem_nil
  | cons c cs =>
    rw [isName, Bool.and_eq_true, List.all_eq_true] at h
    intro hm
    rcases List.mem_cons.1 hm with rfl | hm
    · exact absurd h.1 (by decide)
    · exact absurd (h.2 _ hm) (by decide)

theorem mem_intercalate {α : Type} {sep : α} {b : α} : ∀ {parts : List (List α)},
    b ∈ [sep].intercalate parts → b = sep ∨ ∃ part ∈ parts, b ∈ part := by
  intro parts
  induction parts with
  | nil => simp
  | cons part parts ih =>
    intro h
    cases parts with
    | nil => exact .inr ⟨part, List.mem_cons_self .., by simpa using h⟩
    | cons next rest =>
      rw [List.intercalate_cons_cons, List.mem_append, List.mem_append, List.mem_singleton] at h
      rcases h with (h | h) | h
      · exact .inr ⟨part, List.mem_cons_self .., h⟩
      · exact .inl h
      · refine (ih h).imp id ?_
        rintro ⟨p, hp, hb⟩
        exact ⟨p, List.mem_cons_of_mem _ hp, hb⟩

theorem colon_notMem_of_isIdentifier {s : String} (h : isIdentifier s = true) : ':' ∉ s.toList := by
  rw [isIdentifier, Bool.and_eq_true, List.all_eq_true] at h
  intro hm
  have hs : s.toList = ['.'].intercalate (s.toList.splitOn '.') :=
    (List.intercalate_splitOn '.').symm
  rw [hs] at hm
  rcases mem_intercalate hm with hd | ⟨part, hp, hm⟩
  · exact absurd hd (by decide)
  · exact colon_notMem_of_isName (h.2 part hp) hm

theorem append_colon_inj {as bs ps qs : List Char} (ha : ':' ∉ as) (hb : ':' ∉ bs)
    (h : as ++ ':' :: ps = bs ++ ':' :: qs) : as = bs ∧ ps = qs := by
  induction as generalizing bs with
  | nil =>
    cases bs with
    | nil => exact ⟨rfl, (List.cons.inj h).2⟩
    | cons b bs => exact absurd ((List.cons.inj h).1 ▸ List.mem_cons_self ..) hb
  | cons a as ih =>
    cases bs with
    | nil => exact absurd ((List.cons.inj h).1 ▸ List.mem_cons_self ..) ha
    | cons b bs =>
      have ht := (List.cons.inj h).2
      obtain ⟨hab, hpq⟩ :=
        ih (List.not_mem_of_not_mem_cons ha) (List.not_mem_of_not_mem_cons hb) ht
      exact ⟨by rw [(List.cons.inj h).1, hab], hpq⟩

/-- The key `node:port` names the node and the port when the node has no colon. -/
theorem colon_inj {a b p q : String} (ha : ':' ∉ a.toList) (hb : ':' ∉ b.toList)
    (h : a ++ ":" ++ p = b ++ ":" ++ q) : a = b ∧ p = q := by
  have hl : a.toList ++ ':' :: p.toList = b.toList ++ ':' :: q.toList := by
    simpa using congrArg String.toList h
  obtain ⟨hab, hpq⟩ := append_colon_inj ha hb hl
  exact ⟨String.toList_inj.1 hab, String.toList_inj.1 hpq⟩

/-! ### Decimal numbers -/

/-- Numbers of the same decimal digits are the same. -/
theorem toDigits_inj {m n : ℕ} (h : Nat.toDigits 10 m = Nat.toDigits 10 n) : m = n := by
  rw [← @Nat.ofDigitChars_ten_toDigits m, h, Nat.ofDigitChars_ten_toDigits]

theorem colon_notMem_toString (n : ℕ) : ':' ∉ (toString n).toList := by
  intro hm
  rw [show toString n = n.repr from rfl, Nat.toList_repr] at hm
  exact absurd (Nat.isDigit_of_mem_toDigits (by decide) (by decide) hm) (by decide)

/-! ### Order -/

/-- Code units compared left to right, a prefix first. -/
def unitsLE : List ℕ → List ℕ → Bool
  | [], _ => true
  | _ :: _, [] => false
  | a :: as, b :: bs => a < b || (a = b && unitsLE as bs)

/-- `strings.sort()`. -/
def sortStrings (strings : List String) : List String :=
  strings.insertionSort fun a b => unitsLE (codeUnits a) (codeUnits b) = true

theorem sortStrings_perm (strings : List String) : (sortStrings strings).Perm strings :=
  List.perm_insertionSort _ strings

theorem unitsLE_total : ∀ as bs : List ℕ, unitsLE as bs = true ∨ unitsLE bs as = true := by
  intro as
  induction as with
  | nil => exact fun bs => .inl (by rw [unitsLE])
  | cons a as ih =>
    intro bs
    cases bs with
    | nil => exact .inr (by rw [unitsLE])
    | cons b bs =>
      simp only [unitsLE, Bool.or_eq_true, Bool.and_eq_true, decide_eq_true_eq]
      rcases lt_trichotomy a b with h | rfl | h
      · exact .inl (.inl h)
      · exact (ih bs).imp (fun h => .inr ⟨rfl, h⟩) fun h => .inr ⟨rfl, h⟩
      · exact .inr (.inl h)

theorem unitsLE_trans : ∀ {as bs cs : List ℕ}, unitsLE as bs = true → unitsLE bs cs = true →
    unitsLE as cs = true := by
  intro as
  induction as with
  | nil => exact fun _ _ => by rw [unitsLE]
  | cons a as ih =>
    intro bs cs hab hbc
    cases bs with
    | nil => exact absurd hab Bool.false_ne_true
    | cons b bs =>
      cases cs with
      | nil => exact absurd hbc Bool.false_ne_true
      | cons c cs =>
        simp only [unitsLE, Bool.or_eq_true, Bool.and_eq_true, decide_eq_true_eq] at hab hbc ⊢
        rcases hab with hab | ⟨rfl, hab⟩
        · rcases hbc with hbc | ⟨rfl, -⟩
          · exact .inl (by omega)
          · exact .inl hab
        · exact hbc.imp id fun hbc => ⟨hbc.1, ih hab hbc.2⟩

/-- Sorting again changes nothing. -/
theorem sortStrings_sortStrings (strings : List String) :
    sortStrings (sortStrings strings) = sortStrings strings := by
  have ht : Std.Total fun a b => unitsLE (codeUnits a) (codeUnits b) = true :=
    ⟨fun a b => unitsLE_total _ _⟩
  have htra : IsTrans String fun a b => unitsLE (codeUnits a) (codeUnits b) = true :=
    ⟨fun _ _ _ => unitsLE_trans⟩
  exact (List.pairwise_insertionSort _ strings).insertionSort_eq
/-! ### Pointers -/

/-- `/~(?:[^01]|$)/`: a tilde that stands for nothing. -/
def strayTilde : List Char → Bool
  | [] => false
  | c :: cs => (c = '~' && cs.head? ≠ some '0' && cs.head? ≠ some '1') || strayTilde cs

/-- `validPointer`: an RFC 6901 pointer. -/
def validPointer (pointer : String) : Bool :=
  pointer = "" || (pointer.toList.head? = some '/' && !strayTilde pointer.toList)

/-- Replace every `~` followed by `code` by `c`, left to right. -/
def replaceTilde (code c : Char) : List Char → List Char
  | [] => []
  | [a] => [a]
  | a :: b :: rest =>
    if a = '~' ∧ b = code then c :: replaceTilde code c rest
    else a :: replaceTilde code c (b :: rest)

/-- `part.replaceAll('~1', '/').replaceAll('~0', '~')`. -/
def decodeSegment (part : List Char) : String :=
  String.ofList (replaceTilde '0' '~' (replaceTilde '1' '/' part))

/-- `pointer.slice(1).split('/')`, each part decoded. -/
def pointerSegments (pointer : String) : List String :=
  ((pointer.toList.drop 1).splitOn '/').map decodeSegment

/-- `/^(0|[1-9][0-9]*)$/`: a decimal without leading zeros. -/
def isArrayIndex (s : String) : Bool :=
  match s.toList with
  | [] => false
  | c :: cs => isDigit c && cs.all isDigit && (c ≠ '0' || cs.isEmpty)

/-- `FORBIDDEN_POINTER_SEGMENTS`. -/
def forbiddenPointerSegments : List String :=
  ["__proto__", "constructor", "prototype"]

def writableTargetPointer (pointer : String) : Bool :=
  validPointer pointer && (pointerSegments pointer).all fun part => part ∉ forbiddenPointerSegments

/-- `pointerPart`: a key as a pointer segment. -/
def pointerPart (key : String) : String :=
  String.ofList (key.toList.flatMap fun c =>
    if c = '~' then ['~', '0'] else if c = '/' then ['~', '1'] else [c])

/-- Double quotes around a name in a message. -/
def quoted (name : String) : String :=
  "\"" ++ name ++ "\""

example : pointerSegments "/a~1b/m~0n" = ["a/b", "m~n"] := by decide +kernel
example : isIdentifier "node.first-1" = true ∧ isIdentifier "node" = false := by decide +kernel

end Flowdular.Workflows
