/-
# Paths of URLs

A text relative to a URL with an authority (`https` and its like) is resolved as the URL
standard says: white space at the ends is stripped, tabs and line ends are removed, a
backslash reads as a slash, `?` and `#` end the path, characters outside the path set are
percent-encoded, and dot segments, also percent-encoded ones, are resolved away.

What is left of the text is its encoded form exactly where nothing of that applies
(`Straight`): each of these steps makes the path shorter than the encoded text
(`length_walk`), and the backslash, which does not, changes it (`resolve_pathname_iff`).
-/

import Mathlib.Data.List.DropRight
import Mathlib.Data.Nat.Notation
import Mathlib.Tactic.Common

namespace Flowdular.Lib
namespace UrlPath

/-! ### Percent-encoding -/

/-- A hexadecimal digit in upper case. -/
def hexUpper (n : ℕ) : Char :=
  if n < 10 then Char.ofNat (48 + n) else Char.ofNat (55 + n)

/-- A character as the bytes of its UTF-8 form. -/
def percentChar (c : Char) : List Char :=
  (String.utf8EncodeChar c).flatMap fun b => ['%', hexUpper (b.toNat / 16), hexUpper (b.toNat % 16)]

/-- The path percent-encode set. -/
def inPathSet (c : Char) : Bool :=
  c.toNat ≤ 0x20 || 0x7e < c.toNat ||
    c.toNat ∈ [0x22, 0x23, 0x3c, 0x3e, 0x3f, 0x5e, 0x60, 0x7b, 0x7d]

def encodeChar (c : Char) : List Char :=
  if inPathSet c then percentChar c else [c]

def encode (cs : List Char) : List Char :=
  cs.flatMap encodeChar

/-! ### Segments -/

/-- A slash, or a backslash. -/
def isSlash (c : Char) : Bool :=
  c.toNat == 0x2f || c.toNat == 0x5c

/-- The number of dots a segment consists of, percent-encoded ones included. -/
def dotCount : List Char → Option ℕ
  | [] => some 0
  | '.' :: cs => (dotCount cs).map (· + 1)
  | '%' :: '2' :: c :: cs => if c = 'e' ∨ c = 'E' then (dotCount cs).map (· + 1) else none
  | _ => none

/-- A single-dot or a double-dot segment. -/
def isDots (segment : List Char) : Bool :=
  dotCount segment == some 1 || dotCount segment == some 2

/-- The path state: each segment in turn, the last one with what it leaves behind. -/
def walk (path : List (List Char)) : List (List Char) → List (List Char)
  | [] => path
  | [last] =>
    if dotCount last = some 2 then path.dropLast ++ [[]]
    else if dotCount last = some 1 then path ++ [[]]
    else path ++ [last]
  | segment :: segments =>
    if dotCount segment = some 2 then walk path.dropLast segments
    else if dotCount segment = some 1 then walk path segments
    else walk (path ++ [segment]) segments

/-- The serialization of a path. -/
def pathname (segments : List (List Char)) : List Char :=
  segments.flatMap ('/' :: ·)

/-- `?` and `#` end the path. -/
def inPath (c : Char) : Bool :=
  c.toNat != 0x3f && c.toNat != 0x23

/-- The path of a text, up to its query, below a path. -/
def pathBelow (path : List (List Char)) (cs : List Char) : List Char :=
  pathname (walk path (((cs.takeWhile inPath).splitOnP isSlash).map encode))

/-! ### Resolution -/

/-- A URL: its origin, its path, and what stands behind it. -/
structure Url where
  origin : String
  pathname : List Char
  behind : List Char := []
  deriving DecidableEq

/-- A parsed base URL. -/
structure Base where
  origin : String
  segments : List (List Char)
  nonempty : segments ≠ []
  plain : ∀ segment ∈ segments, ∀ c ∈ segment, inPathSet c = false ∧ isSlash c = false

/-- The origin an authority stands for under the scheme of another one, `none` where it is no
valid authority. -/
class UrlHost where
  authority : String → List Char → Option String

/-- What is stripped from the ends. -/
def isC0OrSpace (c : Char) : Bool :=
  c.toNat ≤ 0x20

def isTabOrLineEnd (c : Char) : Bool :=
  c.toNat == 9 || c.toNat == 10 || c.toNat == 13

/-- The text that is parsed. -/
def clean (text : List Char) : List Char :=
  ((text.dropWhile isC0OrSpace).rdropWhile isC0OrSpace).filter (!isTabOrLineEnd ·)

/-- A text without a scheme, relative to a base. -/
def resolve [UrlHost] (base : Base) (text : List Char) : Option Url :=
  match clean text with
  | [] => some ⟨base.origin, pathname base.segments, []⟩
  | c :: cs =>
    if isSlash c && cs.head?.any isSlash then
      let rest := cs.dropWhile isSlash
      let path := rest.dropWhile fun c => !isSlash c && inPath c
      (UrlHost.authority base.origin (rest.takeWhile fun c => !isSlash c && inPath c)).map fun origin =>
        ⟨origin, pathBelow [] (if path.head?.any isSlash then path.tail else path),
          path.dropWhile inPath⟩
    else if isSlash c then some ⟨base.origin, pathBelow [] cs, cs.dropWhile inPath⟩
    else if inPath c then
      some ⟨base.origin, pathBelow base.segments.dropLast (c :: cs), cs.dropWhile inPath⟩
    else some ⟨base.origin, pathname base.segments, c :: cs⟩

/-- A path that resolution leaves as it is, but for its encoding. -/
structure Straight (text : List Char) : Prop where
  slash : ∃ cs, text = '/' :: cs ∧ cs.head?.any isSlash = false
  inside : ∀ c ∈ text, inPath c = true ∧ isTabOrLineEnd c = false ∧ c.toNat ≠ 0x5c
  last : ∀ c, text.getLast? = some c → isC0OrSpace c = false
  segments : ∀ segment ∈ text.splitOn '/', isDots (encode segment) = false

/-! ### Lengths -/

theorem percentChar_ne_nil (c : Char) : percentChar c ≠ [] := by
  have hne : String.utf8EncodeChar c ≠ [] := String.utf8EncodeChar_ne_nil
  obtain ⟨b, bs, hbs⟩ := List.exists_cons_of_ne_nil hne
  rw [percentChar, hbs]
  simp

theorem encodeChar_ne_nil (c : Char) : encodeChar c ≠ [] := by
  unfold encodeChar
  split
  · exact percentChar_ne_nil c
  · exact List.cons_ne_nil _ _

theorem encode_cons (c : Char) (cs : List Char) : encode (c :: cs) = encodeChar c ++ encode cs :=
  List.flatMap_cons

theorem encode_append (cs ds : List Char) : encode (cs ++ ds) = encode cs ++ encode ds :=
  List.flatMap_append

variable {cs ds : List Char}

/-- Part of a text has a shorter form than the text. -/
theorem length_encode_le (h : List.Sublist cs ds) : (encode cs).length ≤ (encode ds).length := by
  induction h with
  | slnil => exact Nat.le_refl _
  | cons c _ ih =>
    rw [encode_cons, List.length_append]
    omega
  | cons_cons c _ ih =>
    rw [encode_cons, encode_cons, List.length_append, List.length_append]
    omega

theorem eq_of_length_encode (h : List.Sublist cs ds)
    (hl : (encode ds).length ≤ (encode cs).length) : cs = ds := by
  induction h with
  | slnil => rfl
  | cons c hs _ =>
    have hle := length_encode_le hs
    have hp := List.length_pos_of_ne_nil (encodeChar_ne_nil c)
    rw [encode_cons, List.length_append] at hl
    omega
  | cons_cons c _ ih =>
    rw [encode_cons, encode_cons, List.length_append, List.length_append] at hl
    rw [ih (by omega)]

theorem length_pathname_append (path segments : List (List Char)) :
    (pathname (path ++ segments)).length = (pathname path).length + (pathname segments).length := by
  rw [pathname, List.flatMap_append, List.length_append]
  rfl

theorem length_pathname_cons (segment : List Char) (segments : List (List Char)) :
    (pathname (segment :: segments)).length = 1 + segment.length + (pathname segments).length := by
  rw [pathname, List.flatMap_cons, List.length_append, List.length_cons, Nat.add_comm segment.length]
  rfl

theorem length_pathname_dropLast (path : List (List Char)) :
    (pathname path.dropLast).length ≤ (pathname path).length := by
  cases path using List.reverseRecOn with
  | nil => exact Nat.le_refl _
  | append_singleton path last =>
    rw [List.dropLast_concat, length_pathname_append]
    omega

theorem length_of_dotCount : ∀ {segment : List Char} {n : ℕ}, dotCount segment = some n →
    n ≤ segment.length := by
  intro segment
  induction segment using dotCount.induct with
  | case1 =>
    intro n h
    cases h
    exact Nat.le_refl _
  | case2 cs ih =>
    intro n h
    rw [dotCount] at h
    obtain ⟨m, hm, rfl⟩ := Option.map_eq_some_iff.1 h
    exact Nat.succ_le_succ (ih hm)
  | case3 c cs hc ih =>
    intro n h
    rw [dotCount, if_pos hc] at h
    obtain ⟨m, hm, rfl⟩ := Option.map_eq_some_iff.1 h
    have := ih hm
    simp only [List.length_cons]
    omega
  | case4 c cs hc =>
    intro n h
    rw [dotCount, if_neg hc] at h
    exact nomatch h
  | case5 cs h₁ h₂ h₃ =>
    intro n h
    rw [dotCount] at h
    · exact nomatch h
    all_goals assumption

/-- **A walk is no longer than its segments**, and shorter where one is dots. -/
theorem length_walk : ∀ (segments path : List (List Char)),
    (pathname (walk path segments)).length ≤ (pathname path).length + (pathname segments).length ∧
      ((∃ segment ∈ segments, isDots segment = true) →
        (pathname (walk path segments)).length < (pathname path).length + (pathname segments).length) := by
  intro segments
  induction segments with
  | nil => exact fun path => ⟨Nat.le_refl _, by simp⟩
  | cons segment segments ih =>
    intro path
    have hdrop := length_pathname_dropLast path
    have hc := length_pathname_cons segment segments
    cases segments with
    | nil =>
      have hn : (pathname [[]]).length = 1 := rfl
      have hz : (pathname ([] : List (List Char))).length = 0 := rfl
      rw [walk]
      split_ifs with ht ho
      · have := length_of_dotCount ht
        rw [length_pathname_append]
        constructor <;> intros <;> omega
      · have := length_of_dotCount ho
        rw [length_pathname_append]
        constructor <;> intros <;> omega
      · rw [length_pathname_append]
        refine ⟨Nat.le_refl _, ?_⟩
        simp [isDots, ht, ho]
    | cons next rest =>
      rw [walk]
      · split_ifs with ht ho
        · have hl := length_of_dotCount ht
          have := (ih path.dropLast).1
          constructor <;> intros <;> omega
        · have hl := length_of_dotCount ho
          have := (ih path).1
          constructor <;> intros <;> omega
        · have hstep := ih (path ++ [segment])
          have ha := length_pathname_append path [segment]
          have hsin := length_pathname_cons segment []
          have hz : (pathname ([] : List (List Char))).length = 0 := rfl
          refine ⟨by omega, fun ⟨s, hs, hd⟩ => ?_⟩
          rcases List.mem_cons.1 hs with rfl | hs
          · simp [isDots, ht, ho] at hd
          · have := hstep.2 ⟨s, hs, hd⟩
            omega
      · exact List.cons_ne_nil _ _

theorem walk_eq : ∀ {segments path : List (List Char)},
    (∀ segment ∈ segments, isDots segment = false) → walk path segments = path ++ segments := by
  intro segments
  induction segments with
  | nil => exact fun _ => (List.append_nil _).symm
  | cons segment segments ih =>
    intro path h
    have hseg := h segment List.mem_cons_self
    simp only [isDots, Bool.or_eq_false_iff, beq_eq_false_iff_ne] at hseg
    cases segments with
    | nil => rw [walk, if_neg hseg.2, if_neg hseg.1]
    | cons next rest =>
      rw [walk, if_neg hseg.2, if_neg hseg.1, ih fun s hs => h s (List.mem_cons_of_mem _ hs)]
      · simp
      · exact List.cons_ne_nil _ _

theorem walk_ne_nil : ∀ {segments path : List (List Char)}, segments ≠ [] →
    walk path segments ≠ [] := by
  intro segments
  induction segments with
  | nil => exact fun h => absurd rfl h
  | cons segment segments ih =>
    intro path _
    cases segments with
    | nil =>
      rw [walk]
      split_ifs <;> simp
    | cons next rest =>
      rw [walk]
      · split_ifs <;> exact ih (List.cons_ne_nil _ _)
      · exact List.cons_ne_nil _ _

/-! ### What resolution leaves as it is -/

theorem encodeChar_slash : encodeChar '/' = ['/'] := by decide

theorem isSlash_iff {c : Char} : isSlash c = true ↔ c = '/' ∨ c.toNat = 0x5c := by
  rw [isSlash, Bool.or_eq_true, beq_iff_eq, beq_iff_eq]
  exact or_congr_left ⟨fun h => Char.toNat_inj.1 h, fun h => h ▸ rfl⟩

/-- A backslash read as a slash. -/
def slashed (c : Char) : Char :=
  if isSlash c then '/' else c

theorem length_encode_slashed (cs : List Char) :
    (encode (cs.map slashed)).length = (encode cs).length := by
  induction cs with
  | nil => rfl
  | cons c cs ih =>
    rw [List.map_cons, encode_cons, encode_cons, List.length_append, List.length_append, ih,
      Nat.add_right_cancel_iff, slashed]
    split
    · next h =>
      rcases isSlash_iff.1 h with rfl | h
      · rfl
      · rw [encodeChar_slash, encodeChar, if_neg (by simp [inPathSet, h])]
        rfl
    · rfl

theorem no_backslash_of_encode : ∀ {cs : List Char}, encode (cs.map slashed) = encode cs →
    ∀ c ∈ cs, c.toNat ≠ 0x5c := by
  intro cs
  induction cs with
  | nil => simp
  | cons c cs ih =>
    intro h
    rw [List.map_cons, encode_cons, encode_cons] at h
    have hl := length_encode_slashed [c]
    rw [List.map_singleton, encode, encode, List.flatMap_singleton, List.flatMap_singleton] at hl
    obtain ⟨hh, ht⟩ := List.append_inj h hl
    intro d hd
    rcases List.mem_cons.1 hd with rfl | hd
    · intro hb
      rw [slashed, if_pos (isSlash_iff.2 (.inr hb)), encodeChar_slash, encodeChar,
        if_neg (by simp [inPathSet, hb]), List.cons.injEq] at hh
      rw [← hh.1] at hb
      exact absurd hb (by decide)
    · exact ih ht d hd

theorem map_slashed (h : ∀ c ∈ cs, c.toNat ≠ 0x5c) : cs.map slashed = cs := by
  refine (List.map_congr_left fun c hc => ?_).trans (List.map_id cs)
  unfold slashed
  split
  · next hs => exact ((isSlash_iff.1 hs).resolve_right (h c hc)).symm
  · rfl

/-- The segments of a text, joined again. -/
theorem pathname_split (cs : List Char) :
    pathname ((cs.splitOnP isSlash).map encode) = '/' :: encode (cs.map slashed) := by
  induction cs with
  | nil => rfl
  | cons c cs ih =>
    rw [List.splitOnP_cons_eq_if_modifyHead, List.map_cons, encode_cons, slashed]
    obtain ⟨first, rest, hs⟩ := List.exists_cons_of_ne_nil (List.splitOnP_ne_nil isSlash cs)
    rw [hs] at ih ⊢
    split
    · rw [List.map_cons, pathname, List.flatMap_cons, ← pathname, ih, encodeChar_slash]
      rfl
    · rw [List.modifyHead_cons, List.map_cons, encode_cons]
      rw [List.map_cons, pathname, List.flatMap_cons, ← pathname, List.cons_append,
        List.cons.injEq] at ih
      rw [pathname, List.flatMap_cons, ← pathname, List.cons_append, List.append_assoc, ih.2]

theorem splitOnP_isSlash (h : ∀ c ∈ cs, c.toNat ≠ 0x5c) : cs.splitOnP isSlash = cs.splitOn '/' := by
  induction cs with
  | nil => rfl
  | cons c cs ih =>
    have hc : isSlash c = (c == '/') := by
      rw [Bool.eq_iff_iff, isSlash_iff, beq_iff_eq]
      exact or_iff_left (h c List.mem_cons_self)
    rw [List.splitOnP_cons_eq_if_modifyHead, List.splitOn_cons_eq_if_modifyHead, hc,
      ih fun d hd => h d (List.mem_cons_of_mem _ hd)]

theorem length_pathBelow (cs : List Char) : (pathBelow [] cs).length ≤ 1 + (encode cs).length := by
  have hw := (length_walk (((cs.takeWhile inPath).splitOnP isSlash).map encode) []).1
  have hs := length_encode_le (List.takeWhile_sublist (p := inPath) (l := cs))
  rw [pathname_split, List.length_cons, length_encode_slashed] at hw
  have hz : (pathname ([] : List (List Char))).length = 0 := rfl
  rw [pathBelow]
  omega

/-- **The path state leaves a text as it is** where the text is all path, without a backslash
and without dots. -/
theorem pathBelow_eq_iff (hsub : List.Sublist cs ds) :
    pathBelow [] cs = '/' :: encode ds ↔ cs = ds ∧ (∀ c ∈ cs, inPath c = true) ∧
      (∀ c ∈ cs, c.toNat ≠ 0x5c) ∧ ∀ segment ∈ cs.splitOn '/', isDots (encode segment) = false := by
  have hwalk := length_walk (((cs.takeWhile inPath).splitOnP isSlash).map encode) []
  have ht := List.takeWhile_sublist (p := inPath) (l := cs)
  have hz : (pathname ([] : List (List Char))).length = 0 := rfl
  rw [pathname_split, List.length_cons, length_encode_slashed, hz, Nat.zero_add] at hwalk
  constructor
  · intro h
    have hl := congrArg List.length h
    rw [pathBelow, List.length_cons] at hl
    have hw : cs.takeWhile inPath = ds := eq_of_length_encode (ht.trans hsub) (by omega)
    have heq : cs = ds := hsub.eq_of_length_le (by rw [← hw]; exact ht.length_le)
    subst heq
    have hdots : ∀ segment ∈ ((cs.splitOnP isSlash).map encode), isDots segment = false := by
      intro segment hseg
      rw [← hw] at hseg
      by_contra hd
      have := hwalk.2 ⟨segment, hseg, by simpa using hd⟩
      rw [hw] at this hl
      omega
    rw [pathBelow, hw, walk_eq hdots, List.nil_append, pathname_split, List.cons.injEq] at h
    have hb := no_backslash_of_encode h.2
    refine ⟨rfl, List.takeWhile_eq_self_iff.1 hw, hb, fun segment hseg => ?_⟩
    rw [← splitOnP_isSlash hb] at hseg
    exact hdots _ (List.mem_map_of_mem hseg)
  · rintro ⟨rfl, hp, hb, hdots⟩
    rw [pathBelow, List.takeWhile_eq_self_iff.2 hp, walk_eq, List.nil_append, pathname_split,
      map_slashed hb]
    intro segment hseg
    obtain ⟨s, hs, rfl⟩ := List.mem_map.1 hseg
    rw [splitOnP_isSlash hb] at hs
    exact hdots s hs

theorem clean_slash (cs : List Char) :
    clean ('/' :: cs) = '/' :: (cs.rdropWhile isC0OrSpace).filter (!isTabOrLineEnd ·) := by
  have hk : isC0OrSpace '/' = false := by decide
  have hd : ('/' :: cs).rdropWhile isC0OrSpace = '/' :: cs.rdropWhile isC0OrSpace := by
    induction cs using List.reverseRecOn with
    | nil => decide
    | append_singleton cs c ih =>
      rw [← List.cons_append, List.rdropWhile_concat, List.rdropWhile_concat, ih]
      split <;> rfl
  rw [clean, List.dropWhile_cons_of_neg (by simp [hk]), hd, List.filter_cons_of_pos (by decide)]

theorem head?_pathname {segments : List (List Char)} (h : segments ≠ []) :
    (pathname segments).head? = some '/' := by
  obtain ⟨segment, rest, rfl⟩ := List.exists_cons_of_ne_nil h
  rfl

theorem head?_pathBelow (path : List (List Char)) (cs : List Char) :
    (pathBelow path cs).head? = some '/' :=
  head?_pathname (walk_ne_nil (by simp))

section

variable [UrlHost] {base : Base} {text : List Char} {url : Url}

theorem head?_of_resolve (h : resolve base text = some url) : url.pathname.head? = some '/' := by
  unfold resolve at h
  split at h
  · cases h
    exact head?_pathname base.nonempty
  · split at h
    · obtain ⟨origin, -, rfl⟩ := Option.map_eq_some_iff.1 h
      exact head?_pathBelow _ _
    · split_ifs at h <;> cases h
      · exact head?_pathBelow _ _
      · exact head?_pathBelow _ _
      · exact head?_pathname base.nonempty

theorem resolve_straight (h : Straight text) :
    resolve base text = some ⟨base.origin, encode text, []⟩ := by
  obtain ⟨cs, rfl, hh⟩ := h.slash
  have hl : cs.rdropWhile isC0OrSpace = cs := by
    rw [List.rdropWhile_eq_self_iff]
    intro hne hs
    have := h.last (cs.getLast hne) (by
      rw [List.getLast?_cons, List.getLast?_eq_some_getLast hne, Option.getD_some])
    rw [this] at hs
    exact Bool.false_ne_true hs
  have hf : cs.filter (!isTabOrLineEnd ·) = cs := List.filter_eq_self.2 fun c hc => by
    rw [(h.inside c (List.mem_cons_of_mem _ hc)).2.1]
    rfl
  have hp : ∀ c ∈ cs, inPath c = true := fun c hc => (h.inside c (List.mem_cons_of_mem _ hc)).1
  have hb : pathBelow [] cs = '/' :: encode cs := by
    refine (pathBelow_eq_iff (List.Sublist.refl cs)).2 ⟨rfl, hp,
      fun c hc => (h.inside c (List.mem_cons_of_mem _ hc)).2.2, fun segment hseg => ?_⟩
    refine h.segments segment ?_
    rw [List.splitOn_cons_eq_if_modifyHead, if_pos (beq_self_eq_true _)]
    exact List.mem_cons_of_mem _ hseg
  have hsla : isSlash '/' = true := by decide
  rw [resolve, clean_slash, hl, hf]
  simp only [hh, hsla, Bool.and_false, Bool.false_eq_true, if_false, if_true, hb]
  rw [List.dropWhile_eq_nil_iff.2 hp, encode_cons, encodeChar_slash]
  rfl

/-- **Resolution leaves a straight path as it is, and no other one.** -/
theorem resolve_pathname_iff (h : resolve base text = some url) :
    url.pathname = encode text ↔ Straight text := by
  constructor
  · intro heq
    have hf := head?_of_resolve h
    rw [heq] at hf
    obtain ⟨cs, rfl⟩ : ∃ cs, text = '/' :: cs := by
      cases text with
      | nil => exact nomatch hf
      | cons c cs =>
        refine ⟨cs, ?_⟩
        rw [encode_cons, encodeChar] at hf
        split at hf
        · have hne : String.utf8EncodeChar c ≠ [] := String.utf8EncodeChar_ne_nil
          obtain ⟨b, bs, hbs⟩ := List.exists_cons_of_ne_nil hne
          rw [percentChar, hbs] at hf
          exact absurd (Option.some.inj hf) (by decide)
        · rw [Option.some.inj hf]
    have hsla : isSlash '/' = true := by decide
    have hsub : List.Sublist ((cs.rdropWhile isC0OrSpace).filter (!isTabOrLineEnd ·)) cs :=
      List.filter_sublist.trans (List.rdropWhile_prefix _ cs).sublist
    have hlen := congrArg List.length heq
    have hsho := length_encode_le hsub
    rw [encode_cons, encodeChar_slash, List.length_append, List.length_singleton] at hlen
    rw [resolve, clean_slash] at h
    simp only [hsla, Bool.true_and, if_true] at h
    split at h
    · -- what follows two slashes is an authority, which the path has lost
      next htwo =>
      obtain ⟨d, ds, hds⟩ : ∃ d ds, (cs.rdropWhile isC0OrSpace).filter (!isTabOrLineEnd ·) = d :: ds := by
        cases hcs : (cs.rdropWhile isC0OrSpace).filter (!isTabOrLineEnd ·) with
        | nil => simp [hcs] at htwo
        | cons d ds => exact ⟨d, ds, rfl⟩
      rw [hds] at h htwo hsho
      have hd : isSlash d = true := by simpa using htwo
      obtain ⟨origin, -, rfl⟩ := Option.map_eq_some_iff.1 h
      have hpos := List.length_pos_of_ne_nil (encodeChar_ne_nil d)
      rw [encode_cons, List.length_append] at hsho
      rw [List.dropWhile_cons_of_pos hd] at hlen
      have hr : List.Sublist ((ds.dropWhile isSlash).dropWhile fun c => !isSlash c && inPath c) ds :=
        (List.dropWhile_sublist _).trans (List.dropWhile_sublist _)
      generalize (ds.dropWhile isSlash).dropWhile (fun c => !isSlash c && inPath c) = path at hr hlen
      have hbou := length_pathBelow (if path.head?.any isSlash then path.tail else path)
      have ht : List.Sublist (if path.head?.any isSlash then path.tail else path) ds := by
        split
        · exact (List.tail_sublist _).trans hr
        · exact hr
      have := length_encode_le ht
      simp only at hlen
      omega
    · next ho =>
      cases h
      simp only [encode_cons, encodeChar_slash, List.singleton_append] at heq
      obtain ⟨hcs, hp, hb, hdots⟩ := (pathBelow_eq_iff hsub).1 heq
      have hdrop : cs.rdropWhile isC0OrSpace = cs := by
        refine (List.rdropWhile_prefix _ cs).sublist.eq_of_length_le ?_
        have := congrArg List.length hcs
        have hle := List.length_filter_le (!isTabOrLineEnd ·) (cs.rdropWhile isC0OrSpace)
        omega
      rw [hcs] at ho hp hb hdots
      rw [hdrop] at hcs
      have hi := List.filter_eq_self.1 hcs
      refine ⟨⟨cs, rfl, by simpa using ho⟩, fun c hc => ?_, fun c hc => ?_, fun segment hs => ?_⟩
      · rcases List.mem_cons.1 hc with rfl | hc
        · exact ⟨by decide, by decide, by decide⟩
        · exact ⟨hp c hc, by simpa using hi c hc, hb c hc⟩
      · cases hl : cs.getLast? with
        | none =>
          rw [List.getLast?_cons, hl] at hc
          cases hc
          decide
        | some d =>
          rw [List.getLast?_cons, hl] at hc
          cases hc
          have hne : cs ≠ [] := by
            rintro rfl
            exact nomatch hl
          rw [List.getLast?_eq_some_getLast hne, Option.some.injEq] at hl
          have := List.rdropWhile_eq_self_iff.1 hdrop hne
          rw [hl] at this
          simpa using this
      · rw [List.splitOn_cons_eq_if_modifyHead, if_pos (beq_self_eq_true _)] at hs
        rcases List.mem_cons.1 hs with rfl | hs
        · decide
        · exact hdots segment hs
  · intro hstr
    rw [resolve_straight hstr] at h
    cases h
    rfl

end

end UrlPath
end Flowdular.Lib
