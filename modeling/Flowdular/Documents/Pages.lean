/-
# Pages of an extracted text

`src/modules/documents/src/services/text/pages.ts`: `PageWriter` and `joinPages`.

A text is its UTF-16 code units.  What is kept of it are whole characters of the texts that were
written, in their order: the writer cuts beside a line break, or in front of a pair, and what it
drops before it is full is white space (`Holds`).  So the pages stay within the bounds and split
back (`pages_of_calls`).
-/

import Mathlib.Data.Nat.Notation
import Mathlib.Tactic.Common
import Mathlib.Data.List.DropRight
import Mathlib.Algebra.BigOperators.Group.List.Basic
import Mathlib.Algebra.GroupWithZero.Nat

namespace Flowdular.Documents

/-- A text, as its code units. -/
abbrev Units :=
  List ℕ

/-- A high surrogate. -/
def isHigh (u : ℕ) : Bool :=
  0xd800 ≤ u && u ≤ 0xdbff

/-- A low surrogate. -/
def isLow (u : ℕ) : Bool :=
  0xdc00 ≤ u && u ≤ 0xdfff

/-- White space of JavaScript. -/
def isSpace (u : ℕ) : Bool :=
  u ∈ [9, 10, 11, 12, 13, 32, 160, 5760, 8192, 8193, 8194, 8195, 8196, 8197, 8198, 8199, 8200, 8201, 8202,
    8232, 8233, 8239, 8287, 12288, 65279]

/-- The characters of a text, as `for … of` finds them: a pair of surrogates is one. -/
def characters : Units → List Units
  | [] => []
  | [u] => [[u]]
  | u :: v :: rest =>
    if isHigh u && isLow v then [u, v] :: characters rest else [u] :: characters (v :: rest)

/-- The bytes of a character in UTF-8; a surrogate alone is written as a replacement. -/
def characterBytes : Units → ℕ
  | [u] => if u < 0x80 then 1 else if u < 0x800 then 2 else 3
  | _ => 4

/-- The bytes of some characters. -/
def sizes (chars : List Units) : ℕ :=
  (chars.map characterBytes).sum

def byteLength (text : Units) : ℕ :=
  sizes (characters text)

/-- The loop of `utf8Prefix`, with the bytes that are left. -/
def fitting : List Units → ℕ → List Units
  | [], _ => []
  | c :: chars, room => if room < characterBytes c then [] else c :: fitting chars (room - characterBytes c)

def utf8Prefix (text : Units) (bytes : ℕ) : Units :=
  (fitting (characters text) bytes).flatten

/-- `replace(/\r\n?/g, '\n')`. -/
def lineEnds : Units → Units
  | [] => []
  | 13 :: 10 :: rest => 10 :: lineEnds rest
  | 13 :: rest => 10 :: lineEnds rest
  | u :: rest => u :: lineEnds rest

def normalized (text : Units) : Units :=
  ((lineEnds text).map fun u => if u = 12 ∨ u = 11 then 10 else u).filter (· ≠ 0)

/-- `replace(/\s+$/, '')`. -/
def trimEnd (text : Units) : Units :=
  text.rdropWhile isSpace

/-- `lastIndexOf('\n', limit)`. -/
def lastLineEnd (text : Units) (limit : ℕ) : Option ℕ :=
  ((List.range (limit + 1)).filter fun i => text[i]? = some 10).getLast?

structure PageBounds where
  pages : ℕ
  textBytes : ℕ
  flowPageCharacters : ℕ

structure PageWriter where
  bounds : PageBounds
  flow : Bool
  pages : List Units := []
  current : Option Units := none
  bytes : ℕ := 0
  truncated : Bool := false
  full : Bool := false

/-- Where a text that is too long is cut: the head, and what is left. -/
def cutAt (text : Units) (limit : ℕ) : Units × Units :=
  match lastLineEnd text limit with
  | some (lineEnd + 1) => (text.take (lineEnd + 1), text.drop (lineEnd + 2))
  | _ =>
    let code := if limit = 0 then none else text[limit - 1]?
    let cut := if code.any isHigh then limit - 1 else limit
    (text.take cut, text.drop cut)

namespace PageWriter

def close (w : PageWriter) (page : Units) : PageWriter :=
  { w with pages := w.pages ++ [trimEnd page], current := none }

/-- The page that is open is closed. -/
def closeCurrent (w : PageWriter) : PageWriter :=
  match w.current with
  | some current => w.close current
  | none => w

def stop (w : PageWriter) : PageWriter :=
  { w.closeCurrent with truncated := true, full := true }

def startPage (w : PageWriter) : PageWriter :=
  if w.full then w
  else
    let w := w.closeCurrent
    if w.bounds.pages ≤ w.pages.length then w.stop else { w with current := some [] }

/-- The loop of `#split`: each turn closes a page, so that there are no more turns than pages. -/
def splitLoop : ℕ → PageWriter → PageWriter
  | 0, w => w
  | turns + 1, w =>
    match w.current with
    | none => w
    | some text =>
      if text.length ≤ w.bounds.flowPageCharacters then w
      else
        let (head, rest) := cutAt text w.bounds.flowPageCharacters
        let w := w.close head
        if w.bounds.pages ≤ w.pages.length then
          if rest.any fun u => !isSpace u then w.stop else w
        else splitLoop turns { w with current := some rest }

def split (w : PageWriter) : PageWriter :=
  if w.flow then splitLoop w.bounds.pages w else w

def write (w : PageWriter) (value : Units) : PageWriter :=
  if w.full || value = [] then w
  else
    let w := if w.current = none then w.startPage else w
    if w.full then w
    else
      let text := normalized value
      let size := byteLength text
      let append (text : Units) : Option Units := some (w.current.getD [] ++ text)
      if w.bounds.textBytes < w.bytes + size then
        let text := utf8Prefix text (w.bounds.textBytes - w.bytes)
        (split { w with current := append text, bytes := w.bounds.textBytes }).stop
      else split { w with current := append text, bytes := w.bytes + size }

/-- `finish`: what is written is `pages` and `truncated` of the writer. -/
def finish (w : PageWriter) : PageWriter :=
  w.closeCurrent

end PageWriter

/-- A call of a writer. -/
inductive PageCall
  | startPage
  | write (value : Units)
  | cut
  | finish

/-- A writer is called. -/
def PageWriter.step (w : PageWriter) : PageCall → PageWriter
  | .startPage => w.startPage
  | .write value => w.write value
  | .cut => w.stop
  | .finish => w.finish

/-- The text a call writes. -/
def PageCall.value : PageCall → Units
  | .write value => value
  | _ => []

def joinPages (pages : List Units) : Units :=
  [12].intercalate pages

/-- `text.split('\f')`. -/
def splitPages (text : Units) : List Units :=
  text.splitOn 12

/-! ### Characters -/

/-- A code unit, or a pair of surrogates. -/
def IsCharacter (c : Units) : Prop :=
  (∃ u, c = [u]) ∨ ∃ u v, isHigh u = true ∧ isLow v = true ∧ c = [u, v]

theorem isHigh_of_isLow {u : ℕ} (h : isLow u = true) : isHigh u = false := by
  unfold isLow isHigh at *
  simp only [Bool.and_eq_true, decide_eq_true_eq] at h
  rw [Bool.and_eq_false_iff, decide_eq_false_iff_not, decide_eq_false_iff_not]
  omega

theorem isSpace_surrogate {u : ℕ} (h : isHigh u = true ∨ isLow u = true) : isSpace u = false := by
  unfold isLow isHigh at h
  unfold isSpace
  simp only [Bool.and_eq_true, decide_eq_true_eq] at h
  rw [decide_eq_false_iff_not]
  simp only [List.mem_cons, List.not_mem_nil, or_false]
  omega

section Characters

variable {text : Units} {chars : List Units} {c : Units}

theorem characters_spec (text : Units) :
    (characters text).flatten = text ∧ ∀ c ∈ characters text, IsCharacter c := by
  induction text using characters.induct with
  | case1 => exact ⟨rfl, nofun⟩
  | case2 u => exact ⟨rfl, fun c hc => .inl ⟨u, List.mem_singleton.1 hc⟩⟩
  | case3 u v rest hp ih =>
    rw [characters, if_pos hp]
    rw [Bool.and_eq_true] at hp
    refine ⟨by simp [ih.1], fun c hc => ?_⟩
    rcases List.mem_cons.1 hc with rfl | hc
    · exact .inr ⟨u, v, hp.1, hp.2, rfl⟩
    · exact ih.2 c hc
  | case4 u v rest hp ih =>
    rw [characters, if_neg hp]
    refine ⟨by simp [ih.1], fun c hc => ?_⟩
    rcases List.mem_cons.1 hc with rfl | hc
    · exact .inl ⟨u, rfl⟩
    · exact ih.2 c hc

theorem sizes_append (chars more : List Units) : sizes (chars ++ more) = sizes chars + sizes more := by
  rw [sizes, List.map_append, List.sum_append]
  rfl

theorem sizes_cons (c : Units) (chars : List Units) : sizes (c :: chars) = characterBytes c + sizes chars := by
  simp [sizes]

theorem sizes_le_of_sublist {more : List Units} (h : chars.Sublist more) : sizes chars ≤ sizes more := by
  induction h with
  | slnil => exact Nat.le_refl _
  | cons c _ ih =>
    rw [sizes_cons]
    omega
  | cons_cons c _ ih =>
    rw [sizes_cons, sizes_cons]
    omega

/-- A character in front of a text adds no more than its bytes: it may close a pair. -/
theorem byteLength_append_le (hc : IsCharacter c) : byteLength (c ++ text) ≤ characterBytes c + byteLength text := by
  unfold byteLength
  rcases hc with ⟨u, rfl⟩ | ⟨u, v, hu, hv, rfl⟩
  · cases text with
    | nil => exact Nat.le_of_eq (sizes_cons _ _)
    | cons v rest =>
      change sizes (characters (u :: v :: rest)) ≤ _
      rw [characters]
      split
      · next hp =>
        rw [Bool.and_eq_true] at hp
        -- a low surrogate stands alone in the rest
        have hr : characters (v :: rest) = [v] :: characters rest := by
          cases rest with
          | nil => rfl
          | cons w rest => rw [characters, isHigh_of_isLow hp.2, Bool.false_and, if_neg (by decide)]
        have hb : ∀ w, isHigh w = true ∨ isLow w = true → characterBytes [w] = 3 := by
          intro w hw
          unfold isHigh isLow at hw
          simp only [Bool.and_eq_true, decide_eq_true_eq] at hw
          rw [characterBytes, if_neg (by omega), if_neg (by omega)]
        rw [hr, sizes_cons, sizes_cons, hb u (.inl hp.1), hb v (.inr hp.2)]
        change 4 + _ ≤ _
        omega
      · exact Nat.le_of_eq (sizes_cons _ _)
  · change sizes (characters (u :: v :: text)) ≤ _
    rw [characters, hu, hv, Bool.and_self, if_pos rfl]
    exact Nat.le_of_eq (sizes_cons _ _)

/-- Characters that are put together have no more bytes than they have one by one. -/
theorem byteLength_flatten_le (h : ∀ c ∈ chars, IsCharacter c) : byteLength chars.flatten ≤ sizes chars := by
  induction chars with
  | nil => exact Nat.le_refl 0
  | cons c chars ih =>
    obtain ⟨hc, hcha⟩ := List.forall_mem_cons.1 h
    have hle := @byteLength_append_le chars.flatten c hc
    have hr := ih hcha
    rw [List.flatten_cons, sizes_cons]
    omega

theorem fitting_spec : ∀ {chars : List Units} {room : ℕ}, fitting chars room <+: chars ∧ sizes (fitting chars room) ≤ room := by
  intro chars
  induction chars with
  | nil => exact ⟨List.nil_prefix, Nat.zero_le _⟩
  | cons c chars ih =>
    intro room
    rw [fitting]
    split
    · exact ⟨List.nil_prefix, Nat.zero_le _⟩
    · obtain ⟨hsub, hs⟩ := @ih (room - characterBytes c)
      refine ⟨List.cons_prefix_cons.2 ⟨rfl, hsub⟩, ?_⟩
      rw [sizes_cons]
      omega

/-- No pair stands over the place. -/
def Between (text : Units) (i : ℕ) : Prop :=
  i = 0 ∨ text[i - 1]?.any isHigh = false ∨ text[i]?.any isLow = false

/-- **A place between characters** splits them.  By induction on the characters. -/
theorem exists_split : ∀ {chars : List Units} {i : ℕ}, (∀ c ∈ chars, IsCharacter c) → Between chars.flatten i →
    ∃ before behind, chars = before ++ behind ∧ before.flatten = chars.flatten.take i ∧
      behind.flatten = chars.flatten.drop i := by
  intro chars
  induction chars with
  | nil => exact fun _ _ => ⟨[], [], rfl, by simp, by simp⟩
  | cons c chars ih =>
    intro i hcha hi
    obtain ⟨hc, hr⟩ := List.forall_mem_cons.1 hcha
    rcases i with _ | i
    · exact ⟨[], c :: chars, rfl, rfl, rfl⟩
    rcases hc with ⟨u, rfl⟩ | ⟨u, v, hu, hv, rfl⟩
    · have hrest : Between chars.flatten i := by
        rcases hi with hi | hi
        · cases hi
        · rcases i with _ | i
          · exact .inl rfl
          · exact .inr (by simpa using hi)
      obtain ⟨before, behind, hs, hb, hbeh⟩ := ih hr hrest
      exact ⟨[u] :: before, behind, congrArg _ hs, by simp [hb], by simp [hbeh]⟩
    · rcases i with _ | i
      · simp [Between, hu, hv] at hi
      · have hrest : Between chars.flatten i := by
          rcases hi with hi | hi
          · cases hi
          · rcases i with _ | i
            · exact .inl rfl
            · exact .inr (by simpa using hi)
        obtain ⟨before, behind, hs, hb, hbeh⟩ := ih hr hrest
        exact ⟨[u, v] :: before, behind, congrArg _ hs, by simp [hb], by simp [hbeh]⟩

end Characters

/-! ### What is visible -/

/-- The code units that are neither white space nor NUL. -/
def visible (text : Units) : Units :=
  text.filter fun u => !isSpace u && u ≠ 0

section Visible

variable {text : Units} {chars : List Units}

theorem visible_append (text more : Units) : visible (text ++ more) = visible text ++ visible more :=
  List.filter_append _ _

theorem visible_eq_nil (h : ∀ u ∈ text, isSpace u = true) : visible text = [] := by
  refine List.filter_eq_nil_iff.2 fun u hu => ?_
  simp [h u hu]

theorem visible_cons (u : ℕ) (text : Units) : visible (u :: text) = visible [u] ++ visible text :=
  visible_append [u] text

theorem visible_lineEnds (text : Units) : visible (lineEnds text) = visible text := by
  have hs : visible [10] = [] ∧ visible [13] = [] := by decide
  induction text using lineEnds.induct with
  | case1 => rfl
  | case2 rest ih =>
    rw [lineEnds, visible_cons 10, visible_cons 13, visible_cons 10 rest, ih, hs.1, hs.2, List.nil_append,
      List.nil_append]
  | case3 rest hr ih =>
    rw [lineEnds.eq_3 _ hr, visible_cons 10, visible_cons 13, ih, hs.1, hs.2]
  | case4 u rest hp hu ih => rw [lineEnds.eq_4 _ _ hp hu, visible_cons, ih, ← visible_cons]

theorem visible_normalized (text : Units) : visible (normalized text) = visible text := by
  rw [← visible_lineEnds text, normalized]
  generalize lineEnds text = units
  induction units with
  | nil => rfl
  | cons u units ih =>
    rw [List.map_cons, visible_cons u units, ← ih]
    by_cases hb : u = 12 ∨ u = 11
    · have hn : visible [u] = [] := by rcases hb with rfl | rfl <;> decide
      rw [if_pos hb, List.filter_cons_of_pos (by decide), visible_cons 10, hn]
      rfl
    · rw [if_neg hb]
      by_cases hz : u = 0
      · subst hz
        rw [List.filter_cons_of_neg (by decide)]
        rfl
      · rw [List.filter_cons_of_pos (by simpa using hz), visible_cons]

theorem mem_normalized {u : ℕ} (h : u ∈ normalized text) : u ≠ 12 ∧ u ≠ 0 := by
  obtain ⟨hm, hne⟩ := List.mem_filter.1 h
  obtain ⟨v, -, rfl⟩ := List.mem_map.1 hm
  refine ⟨?_, by simpa using hne⟩
  split
  · decide
  · omega

/-- What is trimmed of some characters is white space, and whole characters. -/
theorem trimEnd_spec (h : ∀ c ∈ chars, IsCharacter c) : ∃ kept, kept <+: chars ∧
    kept.flatten = trimEnd chars.flatten ∧ visible kept.flatten = visible chars.flatten := by
  induction chars using List.reverseRecOn with
  | nil => exact ⟨[], List.nil_prefix, rfl, rfl⟩
  | append_singleton chars c ih =>
    rw [List.forall_mem_append] at h
    have hs : ∀ {front : Units} {u : ℕ}, c = front ++ [u] → isSpace u = false →
        ∃ kept, kept <+: chars ++ [c] ∧ kept.flatten = trimEnd (chars ++ [c]).flatten ∧
          visible kept.flatten = visible (chars ++ [c]).flatten := by
      rintro front u rfl hu
      refine ⟨_, List.prefix_refl _, ?_, rfl⟩
      rw [List.flatten_append, List.flatten_singleton, ← List.append_assoc, trimEnd,
        List.rdropWhile_concat_neg _ _ _ (by rw [hu]; decide)]
    rcases h.2 c List.mem_cons_self with ⟨u, rfl⟩ | ⟨u, v, hu, hv, rfl⟩
    · cases hspa : isSpace u with
      | false => exact @hs [] u rfl hspa
      | true =>
        obtain ⟨kept, hk, hf, hvis⟩ := ih h.1
        refine ⟨kept, hk.trans (List.prefix_append _ _), ?_, ?_⟩
        · rw [hf, List.flatten_append, List.flatten_singleton, trimEnd, trimEnd,
            List.rdropWhile_concat_pos _ _ _ hspa]
        · rw [hvis, List.flatten_append, List.flatten_singleton, visible_append,
            @visible_eq_nil [u] (by simpa using hspa), List.append_nil]
    · exact @hs [u] v rfl (isSpace_surrogate (.inr hv))

theorem lastLineEnd_eq_some {limit i : ℕ} (h : lastLineEnd text limit = some i) : i ≤ limit ∧ text[i]? = some 10 := by
  obtain ⟨hr, hl⟩ := List.mem_filter.1 (List.mem_of_getLast? h)
  rw [List.mem_range] at hr
  exact ⟨by omega, by simpa using hl⟩

/-- **A cut is between characters**, and drops a line break at most. -/
theorem cutAt_spec {limit : ℕ} (h : ∀ c ∈ chars, IsCharacter c) : ∃ head sep rest, chars = head ++ sep ++ rest ∧
    cutAt chars.flatten limit = (head.flatten, rest.flatten) ∧ head.flatten.length ≤ limit ∧
      visible sep.flatten = [] := by
  unfold cutAt
  split
  · next lineEnd hline =>
    obtain ⟨hle, hbre⟩ := lastLineEnd_eq_some hline
    obtain ⟨head, behind, rfl, hhead, hb⟩ := exists_split (i := lineEnd + 1) h (.inr (.inr (by rw [hbre]; rfl)))
    have hs : Between behind.flatten 1 := by
      refine .inr (.inl ?_)
      rw [hb, List.getElem?_drop, Nat.sub_self, Nat.add_zero, hbre]
      rfl
    obtain ⟨sep, rest, rfl, hsep, hr⟩ := exists_split (fun c hc => h c (List.mem_append_right _ hc)) hs
    refine ⟨head, sep, rest, (List.append_assoc _ _ _).symm, ?_, ?_, ?_⟩
    · rw [hhead, hr, hb, List.drop_drop]
    · rw [hhead, List.length_take]
      omega
    · refine visible_eq_nil fun u hu => ?_
      rw [hsep, hb, List.take_one, List.head?_drop, hbre] at hu
      obtain rfl := List.mem_singleton.1 hu
      decide
  · have hcut : ∀ {cut : ℕ}, cut ≤ limit → Between chars.flatten cut → ∃ head sep rest, chars = head ++ sep ++ rest ∧
        (chars.flatten.take cut, chars.flatten.drop cut) = (head.flatten, rest.flatten) ∧
          head.flatten.length ≤ limit ∧ visible sep.flatten = [] := by
      intro cut hle hbet
      obtain ⟨head, rest, hspl, hhead, hr⟩ := exists_split h hbet
      refine ⟨head, [], rest, by rw [List.append_nil, hspl], by rw [hhead, hr], ?_, rfl⟩
      rw [hhead, List.length_take]
      omega
    dsimp only
    by_cases hl : limit = 0
    · subst hl
      exact hcut (Nat.le_refl 0) (.inl rfl)
    · rw [if_neg hl]
      by_cases hh : (chars.flatten[limit - 1]?.any isHigh) = true
      · rw [if_pos hh]
        obtain ⟨u, hu, hh⟩ := (Option.any_eq_true _ _).1 hh
        refine hcut (Nat.sub_le _ _) (.inr (.inr ?_))
        rw [hu, Option.any_some, ← Bool.not_eq_true]
        intro hlow
        rw [isHigh_of_isLow hlow] at hh
        cases hh
      · rw [if_neg hh]
        exact hcut (Nat.le_refl _) (.inr (.inl (Bool.not_eq_true _ ▸ hh)))

end Visible

/-! ### The writer -/

/-- What a writer holds of the characters that were written: those of its pages, and those that are
not yet on one. -/
structure Holds (origin : PageBounds × Bool) (w : PageWriter) (written : List Units) (kept : List (List Units)) (loose : List Units) : Prop where
  same : (w.bounds, w.flow) = origin
  pages : w.pages = kept.map List.flatten
  whole : (kept.flatten ++ loose).Sublist written
  counted : sizes (kept.flatten ++ loose) ≤ w.bytes
  within : w.bytes ≤ w.bounds.textBytes
  count : w.pages.length ≤ w.bounds.pages
  flowing : w.flow = true → ∀ page ∈ w.pages, page.length ≤ w.bounds.flowPageCharacters
  stopped : w.full = true → w.truncated = true
  seen : w.truncated = false → visible (kept.flatten ++ loose).flatten = visible written.flatten

/-- A writer between two calls. -/
def Settled (origin : PageBounds × Bool) (w : PageWriter) (written : List Units) : Prop :=
  ∃ kept loose, Holds origin w written kept loose ∧ (w.current = none → loose = []) ∧
    ∀ text, w.current = some text → text = loose.flatten ∧ w.pages.length < w.bounds.pages ∧
      (w.flow = true → text.length ≤ w.bounds.flowPageCharacters)

section Writer

variable {origin : PageBounds × Bool} {w : PageWriter} {written : List Units} {kept : List (List Units)} {loose head sep rest : List Units}

theorem visible_flatten_append (chars more : List Units) :
    visible (chars ++ more).flatten = visible chars.flatten ++ visible more.flatten := by
  rw [List.flatten_append, visible_append]

/-- **A page is closed** on the characters in front; what is between them and the rest is dropped. -/
theorem Holds.close (h : Holds origin w written kept (head ++ sep ++ rest)) (hw : ∀ c ∈ written, IsCharacter c)
    (hr : w.pages.length < w.bounds.pages) (hsep : visible sep.flatten = [])
    (hflow : w.flow = true → head.flatten.length ≤ w.bounds.flowPageCharacters) :
    ∃ kept, Holds origin (w.close head.flatten) written kept rest := by
  have hh : ∀ c ∈ head, IsCharacter c := fun c hc =>
    hw c (h.whole.subset (by simp [hc]))
  obtain ⟨page, hpage, htrim, hv⟩ := trimEnd_spec hh
  have hs : ((kept ++ [page]).flatten ++ rest).Sublist (kept.flatten ++ (head ++ sep ++ rest)) := by
    rw [List.flatten_append, List.flatten_singleton, List.append_assoc, List.append_assoc]
    exact (List.Sublist.refl _).append (hpage.sublist.append (List.sublist_append_right _ _))
  refine ⟨kept ++ [page], h.same, ?_, hs.trans h.whole, (sizes_le_of_sublist hs).trans h.counted, h.within, ?_, ?_,
    h.stopped, fun ht => ?_⟩
  · rw [PageWriter.close, h.pages, List.map_append, ← htrim]
    rfl
  · rw [PageWriter.close, List.length_append]
    exact hr
  · intro hf p hp
    rcases List.mem_append.1 hp with hp | hp
    · exact h.flowing hf p hp
    · rw [List.mem_singleton.1 hp, trimEnd]
      exact (List.rdropWhile_prefix _ _).length_le.trans (hflow hf)
  · rw [← h.seen ht]
    simp only [List.flatten_append, List.flatten_singleton, visible_append, hv, hsep,
      List.append_assoc, List.nil_append]

/-- Characters that are not on a page are dropped, if nothing of them is visible. -/
theorem Holds.drop (h : Holds origin w written kept loose) (hd : w.truncated = false → visible loose.flatten = []) :
    Holds origin w written kept [] := by
  have hs : (kept.flatten ++ []).Sublist (kept.flatten ++ loose) :=
    (List.Sublist.refl _).append (List.nil_sublist _)
  refine ⟨h.same, h.pages, hs.trans h.whole, (sizes_le_of_sublist hs).trans h.counted, h.within, h.count, h.flowing,
    h.stopped, fun ht => ?_⟩
  rw [← h.seen ht, visible_flatten_append, visible_flatten_append, hd ht]
  rfl

theorem Settled.closeCurrent (h : Settled origin w written) (hw : ∀ c ∈ written, IsCharacter c) :
    ∃ kept, Holds origin w.closeCurrent written kept [] ∧ w.closeCurrent.current = none := by
  obtain ⟨kept, loose, hh, hn, hs⟩ := h
  unfold PageWriter.closeCurrent
  cases hc : w.current with
  | none =>
    obtain rfl := hn hc
    exact ⟨kept, hh, hc⟩
  | some text =>
    obtain ⟨rfl, hr, hf⟩ := hs text hc
    obtain ⟨kept', hclo⟩ := @Holds.close _ _ _ _ loose [] [] (by simpa using hh) hw hr rfl hf
    exact ⟨kept', hclo, rfl⟩

theorem Holds.settled (h : Holds origin w written kept []) (hn : w.current = none) : Settled origin w written :=
  ⟨kept, [], h, fun _ => rfl, fun text ht => by rw [hn] at ht; cases ht⟩

theorem Holds.settled_open (h : Holds origin w written kept loose) (hc : w.current = some loose.flatten)
    (hr : w.pages.length < w.bounds.pages)
    (hf : w.flow = true → loose.flatten.length ≤ w.bounds.flowPageCharacters) : Settled origin w written := by
  refine ⟨kept, loose, h, fun hn => ?_, fun text ht => ?_⟩
  · rw [hc] at hn
    cases hn
  · obtain rfl := Option.some.inj (hc.symm.trans ht)
    exact ⟨rfl, hr, hf⟩

/-- A writer that stops has dropped what it likes. -/
theorem Holds.stop (h : Holds origin w written kept loose) (hn : w.current = none) : Settled origin w.stop written := by
  have hc : w.closeCurrent = w := by rw [PageWriter.closeCurrent, hn]
  have hd : Holds origin { w with truncated := true, full := true } written kept loose :=
    ⟨h.same, h.pages, h.whole, h.counted, h.within, h.count, h.flowing, fun _ => rfl, nofun⟩
  unfold PageWriter.stop
  rw [hc]
  exact (hd.drop nofun).settled hn

theorem Settled.stop (h : Settled origin w written) (hw : ∀ c ∈ written, IsCharacter c) : Settled origin w.stop written := by
  obtain ⟨kept, hc, hn⟩ := h.closeCurrent hw
  have hs := hc.stop hn
  have ht : w.closeCurrent.closeCurrent = w.closeCurrent := by
    unfold PageWriter.closeCurrent at hn ⊢
    rw [hn]
  unfold PageWriter.stop at hs ⊢
  rwa [ht] at hs

theorem Settled.startPage (h : Settled origin w written) (hw : ∀ c ∈ written, IsCharacter c) :
    Settled origin w.startPage written := by
  unfold PageWriter.startPage
  split
  · exact h
  · obtain ⟨kept, hc, hn⟩ := h.closeCurrent hw
    dsimp only
    split
    · exact hc.stop hn
    · next hr =>
      exact @Holds.settled_open _ _ _ _ [] ⟨hc.same, hc.pages, hc.whole, hc.counted, hc.within,
        hc.count, hc.flowing, hc.stopped, hc.seen⟩ rfl (Nat.not_le.1 hr)
        fun _ => Nat.zero_le _

/-- **A text that is too long is cut into pages.**  By induction on the turns: each closes a page. -/
theorem Holds.splitLoop (hw : ∀ c ∈ written, IsCharacter c) : ∀ {turns : ℕ} {w : PageWriter}
    {kept : List (List Units)} {loose : List Units}, Holds origin w written kept loose → w.current = some loose.flatten →
      w.pages.length < w.bounds.pages → w.bounds.pages ≤ turns + w.pages.length →
        Settled origin (PageWriter.splitLoop turns w) written := by
  intro turns
  induction turns with
  | zero =>
    intro w kept loose h hcur hr ht
    omega
  | succ turns ih =>
    intro w kept loose h hcur hr ht
    rw [PageWriter.splitLoop, hcur]
    dsimp only
    split
    · next hs => exact h.settled_open hcur hr fun _ => hs
    · have hl : ∀ c ∈ loose, IsCharacter c := fun c hc => hw c (h.whole.subset (by simp [hc]))
      obtain ⟨head, sep, rest, rfl, hcut, hlen, hsep⟩ := @cutAt_spec _ w.bounds.flowPageCharacters hl
      rw [hcut]
      dsimp only
      obtain ⟨kept', hclo⟩ := h.close hw hr hsep fun _ => hlen
      split
      · split
        · exact hclo.stop rfl
        · next hb =>
          refine (hclo.drop fun _ => visible_eq_nil fun u hu => ?_).settled rfl
          by_contra hspa
          exact hb (List.any_eq_true.2 ⟨u, hu, by simpa using hspa⟩)
      · next hleft =>
        refine @ih _ kept' rest ⟨hclo.same, hclo.pages, hclo.whole, hclo.counted, hclo.within,
          hclo.count, hclo.flowing, hclo.stopped, hclo.seen⟩ rfl (Nat.not_le.1 hleft) ?_
        simp only [PageWriter.close, List.length_append, List.length_singleton]
        omega

theorem Holds.split (h : Holds origin w written kept loose) (hw : ∀ c ∈ written, IsCharacter c)
    (hc : w.current = some loose.flatten) (hr : w.pages.length < w.bounds.pages) :
    Settled origin w.split written := by
  unfold PageWriter.split
  split
  · exact h.splitLoop hw hc hr (Nat.le_add_right _ _)
  · next hflow => exact h.settled_open hc hr fun hf => absurd hf hflow

theorem Settled.more (h : Settled origin w written) (ht : w.truncated = true) {more : List Units}
    (hm : written.Sublist more) : Settled origin w more := by
  obtain ⟨kept, loose, hh, ho⟩ := h
  exact ⟨kept, loose, ⟨hh.same, hh.pages, hh.whole.trans hm, hh.counted, hh.within, hh.count,
    hh.flowing, hh.stopped, fun hs => by rw [ht] at hs; cases hs⟩, ho⟩

theorem Settled.truncated_of_full (h : Settled origin w written) (hf : w.full = true) : w.truncated = true := by
  obtain ⟨kept, loose, hh, -⟩ := h
  exact hh.stopped hf

theorem startPage_current (h : w.startPage.full = false) : w.startPage.current = some [] := by
  unfold PageWriter.startPage at h ⊢
  split at h
  · next hf =>
    rw [hf] at h
    cases h
  · next hf =>
    rw [if_neg hf]
    dsimp only at h ⊢
    split at h
    · cases h
    · next hr => rw [if_neg hr]

/-- **A text is written.**  Its characters follow those that were written, or the writer is full. -/
theorem Settled.write {value : Units} (h : Settled origin w written) (hwri : ∀ c ∈ written, IsCharacter c) :
    Settled origin (w.write value) (written ++ characters (normalized value)) := by
  have hm : ∀ c ∈ written ++ characters (normalized value), IsCharacter c := fun c hc =>
    (List.mem_append.1 hc).elim (hwri c) ((characters_spec _).2 c)
  have hs : ∀ {w : PageWriter}, Settled origin w written → w.full = true →
      Settled origin w (written ++ characters (normalized value)) := fun h hf =>
    h.more (h.truncated_of_full hf) (List.sublist_append_left _ _)
  unfold PageWriter.write
  by_cases hf : w.full = true
  · rw [if_pos (by simp [hf])]
    exact hs h hf
  by_cases hv : value = []
  · subst hv
    rw [if_pos (by simp)]
    simpa [characters, normalized, lineEnds] using h
  rw [if_neg (by simp [hf, hv])]
  dsimp only
  generalize ho : (if w.current = none then w.startPage else w) = w₁
  have hset : Settled origin w₁ written := by
    rw [← ho]
    split
    · exact h.startPage hwri
    · exact h
  have hcur : w₁.full = false → w₁.current ≠ none := by
    rw [← ho]
    intro hf hn
    split at hn
    · next hw =>
      rw [if_pos hw] at hf
      rw [startPage_current hf] at hn
      cases hn
    · next hw => exact hw hn
  by_cases hfull₁ : w₁.full = true
  · rw [if_pos hfull₁]
    exact hs hset hfull₁
  rw [if_neg hfull₁]
  obtain ⟨kept, loose, hh, -, hsome⟩ := hset
  obtain ⟨text, htext⟩ := Option.ne_none_iff_exists'.1 (hcur (Bool.not_eq_true _ ▸ hfull₁))
  obtain ⟨rfl, hr, -⟩ := hsome text htext
  rw [htext, Option.getD_some]
  -- the characters `more` follow, of no more bytes than there is room for
  have hg : ∀ {more : List Units} {bytes : ℕ}, more <+: characters (normalized value) →
      w₁.bytes + sizes more ≤ bytes → bytes ≤ w₁.bounds.textBytes →
        Holds origin { w₁ with current := some (loose.flatten ++ more.flatten), bytes := bytes } (written ++ more) kept
          (loose ++ more) := by
    intro more bytes _ hb hwit
    refine ⟨hh.same, hh.pages, ?_, ?_, hwit, hh.count, hh.flowing, hh.stopped, fun ht => ?_⟩
    · rw [← List.append_assoc]
      exact hh.whole.append (List.Sublist.refl _)
    · have hcou := hh.counted
      rw [← List.append_assoc, sizes_append]
      dsimp only
      omega
    · rw [← List.append_assoc, visible_flatten_append, hh.seen ht, ← visible_flatten_append]
  have hfla := (characters_spec (normalized value)).1
  split
  · obtain ⟨hpre, hsize⟩ := @fitting_spec (characters (normalized value)) (w₁.bounds.textBytes - w₁.bytes)
    have hwit := hh.within
    have hp : ∀ c ∈ written ++ fitting (characters (normalized value)) (w₁.bounds.textBytes - w₁.bytes),
        IsCharacter c := fun c hc => (List.mem_append.1 hc).elim (hwri c) fun hc =>
      (characters_spec _).2 c (hpre.subset hc)
    have hspl := (hg hpre (by omega) (Nat.le_refl _)).split hp (by rw [List.flatten_append]) hr
    exact (hspl.stop hp).more rfl ((List.Sublist.refl _).append hpre.sublist)
  · next hfits =>
    have ha := hg (List.prefix_refl _) (Nat.le_refl _) (Nat.not_lt.1 hfits)
    rw [hfla] at ha
    exact ha.split hm (by rw [List.flatten_append, hfla]) hr

theorem Settled.step {call : PageCall} (h : Settled origin w written) (hw : ∀ c ∈ written, IsCharacter c) :
    Settled origin (w.step call) (written ++ characters (normalized call.value)) := by
  have hnil : written ++ characters (normalized []) = written := List.append_nil _
  cases call with
  | startPage => exact hnil.symm ▸ h.startPage hw
  | write value => exact h.write hw
  | cut => exact hnil.symm ▸ h.stop hw
  | finish =>
    obtain ⟨kept, hc, hn⟩ := h.closeCurrent hw
    exact hnil.symm ▸ hc.settled hn

/-- **A run of calls** keeps the bounds.  By induction on the calls. -/
theorem Settled.run : ∀ {calls : List PageCall} {w : PageWriter} {written : List Units}, Settled origin w written →
    (∀ c ∈ written, IsCharacter c) →
      Settled origin (calls.foldl PageWriter.step w) (written ++ calls.flatMap fun call => characters (normalized call.value)) := by
  intro calls
  induction calls with
  | nil =>
    intro w written h _
    rwa [List.flatMap_nil, List.append_nil]
  | cons call calls ih =>
    intro w written h hw
    rw [List.flatMap_cons, ← List.append_assoc]
    exact ih (h.step hw) fun c hc => (List.mem_append.1 hc).elim (hw c) ((characters_spec _).2 c)

end Writer

/-- The code units that were written, as they came. -/
def writtenBy (calls : List PageCall) : Units :=
  calls.flatMap PageCall.value

theorem visible_written (calls : List PageCall) :
    visible (calls.flatMap fun call => characters (normalized call.value)).flatten = visible (writtenBy calls) := by
  induction calls with
  | nil => rfl
  | cons call calls ih =>
    rw [List.flatMap_cons, List.flatten_append, visible_append, ih, (characters_spec _).1, visible_normalized,
      ← visible_append]
    rfl

/-- **The pages of a text stay within the bounds and split back.**  After any calls there are no more
pages than the bound, none of a flow is too long, and all have no more bytes than the bound.  None
has a form feed or NUL in it, so that pages that are joined are split at their form feeds; each is a
row of whole characters of the texts that were written, in their order; and what the writer drops
without saying so is white space or NUL. -/
theorem pages_of_calls (bounds : PageBounds) (flow : Bool) (calls : List PageCall) :
    let w := (calls.foldl PageWriter.step { bounds, flow }).finish
    w.pages.length ≤ bounds.pages ∧
    (flow = true → ∀ page ∈ w.pages, page.length ≤ bounds.flowPageCharacters) ∧
    (w.pages.map byteLength).sum ≤ bounds.textBytes ∧
    (∀ page ∈ w.pages, 12 ∉ page ∧ 0 ∉ page) ∧
    (w.pages ≠ [] → splitPages (joinPages w.pages) = w.pages) ∧
    (∃ kept : List (List Units), w.pages = kept.map List.flatten ∧
      kept.flatten.Sublist (calls.flatMap fun call => characters (normalized call.value))) ∧
    (w.truncated = false → visible w.pages.flatten = visible (writtenBy calls)) := by
  intro w
  have hs : Settled (bounds, flow) { bounds, flow } [] :=
    @Holds.settled _ _ _ [] ⟨rfl, rfl, List.Sublist.refl _, Nat.le_refl _, Nat.zero_le _, Nat.zero_le _, nofun,
      nofun, fun _ => rfl⟩ rfl
  have hwri : ∀ c ∈ calls.flatMap fun call => characters (normalized call.value), IsCharacter c := by
    intro c hc
    obtain ⟨call, -, hc⟩ := List.mem_flatMap.1 hc
    exact (characters_spec _).2 c hc
  obtain ⟨kept, hh, -⟩ := (@Settled.run _ calls _ _ hs nofun).closeCurrent hwri
  change Holds (bounds, flow) w _ kept [] at hh
  obtain ⟨hb, hf⟩ := Prod.mk.inj hh.same
  have hw := hh.whole
  rw [List.append_nil, List.nil_append] at hw
  have hk : ∀ chars ∈ kept, ∀ c ∈ chars, c ∈ calls.flatMap fun call => characters (normalized call.value) :=
    fun chars hcha c hc => hw.subset (List.mem_flatten_of_mem hcha hc)
  have hcle : ∀ page ∈ w.pages, 12 ∉ page ∧ 0 ∉ page := by
    intro page hp
    rw [hh.pages] at hp
    obtain ⟨chars, hcha, rfl⟩ := List.mem_map.1 hp
    have hunit : ∀ u ∈ chars.flatten, u ≠ 12 ∧ u ≠ 0 := by
      intro u hu
      obtain ⟨c, hc, hu⟩ := List.mem_flatten.1 hu
      obtain ⟨call, -, hcall⟩ := List.mem_flatMap.1 (hk chars hcha c hc)
      refine @mem_normalized call.value _ ?_
      rw [← (characters_spec (normalized call.value)).1]
      exact List.mem_flatten_of_mem hcall hu
    exact ⟨fun h => (hunit _ h).1 rfl, fun h => (hunit _ h).2 rfl⟩
  refine ⟨hb ▸ hh.count, ?_, ?_, hcle, fun hne => ?_, ⟨kept, hh.pages, hw⟩, fun ht => ?_⟩
  · rw [← hf, ← hb]
    exact hh.flowing
  · have hle : (w.pages.map byteLength).sum ≤ sizes kept.flatten := by
      rw [hh.pages]
      clear hh hw hcle
      induction kept with
      | nil => exact Nat.le_refl 0
      | cons chars kept ih =>
        obtain ⟨hcha, hk⟩ := List.forall_mem_cons.1 hk
        have hp := byteLength_flatten_le fun c hc => hwri c (hcha c hc)
        rw [List.map_cons, List.map_cons, List.sum_cons, List.flatten_cons, sizes_append]
        exact Nat.add_le_add hp (ih hk)
    have hcou := hh.counted
    rw [List.append_nil] at hcou
    exact hle.trans (hcou.trans (hb ▸ hh.within))
  · exact List.splitOn_intercalate 12 (fun page hp => (hcle page hp).1) hne
  · rw [← visible_written, ← List.nil_append (calls.flatMap _), ← hh.seen ht, List.append_nil, hh.pages,
      ← List.flatten_flatten]

/-- No pages are joined to a text that splits into one; and a NUL is dropped, without a word. -/
theorem pages_of_calls_limits :
    (∃ calls : List PageCall,
      let w := (calls.foldl PageWriter.step { bounds := ⟨9, 9, 9⟩, flow := false }).finish
      splitPages (joinPages w.pages) ≠ w.pages) ∧
    ∃ calls : List PageCall,
      let w := (calls.foldl PageWriter.step { bounds := ⟨9, 9, 9⟩, flow := false }).finish
      writtenBy calls = [65, 0, 66] ∧ w.pages = [[65, 66]] ∧ w.truncated = false :=
  ⟨⟨[], by decide +kernel⟩, [.write [65, 0, 66]], by decide +kernel⟩

end Flowdular.Documents
