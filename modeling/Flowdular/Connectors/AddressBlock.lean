/-
# The addresses a call may not reach

`src/modules/connectors/src/services/egress.ts`, lines 42-137 (`blockedIpv4`,
`ipv6Bytes`, `blockedAddress`), and `isIP` of the platform, which both rely on.

An IPv6 address has many texts: groups of one to four hexadecimal digits in
either case, one run of zero groups left out, the last 32 bits in dotted decimal,
a zone behind it.  `Denotes` says which bytes such a text stands for, `isIP`
takes exactly the texts that stand for some (`isIP_six_iff`), and the parser
gives exactly those bytes (`ipv6Bytes_of_denotes`).

An IPv4 address is carried in an IPv6 address behind a fixed lead (`Carrier`).
The block says that it covers IPv4 carried inside IPv6.  It does for the mapped,
the compatible, the NAT64 and the 6to4 form, and never for the translated one:
no prefix of `::ffff:0:0:0/96` is looked at (`block_sees_through_exact`).
-/

import Flowdular.Workflows.Text
import Mathlib.Data.List.DropRight
import Mathlib.Tactic.IntervalCases

namespace Flowdular.Connectors

/-! ### IPv4 -/

/-- `Number` of what stands between two dots, where that is digits. -/
def numberOf (part : List Char) : Option ℕ :=
  if part.all Char.isDigit then some (Nat.ofDigitChars 10 part 0) else none

def blockedIpv4 (value : List Char) : Bool :=
  match (value.splitOn '.').map numberOf with
  | [some a, some b, some c, some d] =>
    decide (255 < a) || decide (255 < b) || decide (255 < c) || decide (255 < d) ||
      a == 0 || a == 10 || a == 127 ||
      (a == 169 && b == 254) ||
      (a == 172 && decide (16 ≤ b) && decide (b ≤ 31)) ||
      (a == 192 && b == 168) ||
      (a == 100 && decide (64 ≤ b) && decide (b ≤ 127)) ||
      (a == 192 && b == 0 && (c == 0 || c == 2)) ||
      (a == 198 && (b == 18 || b == 19)) ||
      (a == 198 && b == 51 && c == 100) ||
      (a == 203 && b == 0 && c == 113) ||
      decide (224 ≤ a)
  | _ => true

/-- A number up to 255 without a leading zero. -/
def isV4Segment (part : List Char) : Bool :=
  part ≠ [] && part.all Char.isDigit && (part.length == 1 || part.head? ≠ some '0') &&
    Nat.ofDigitChars 10 part 0 ≤ 255

def isIPv4 (value : List Char) : Bool :=
  (value.splitOn '.').length == 4 && (value.splitOn '.').all isV4Segment

/-- The numbers of a dotted text. -/
def dottedBytes (value : List Char) : List ℕ :=
  (value.splitOn '.').map fun part => Nat.ofDigitChars 10 part 0

/-- Numbers joined by dots. -/
def dotted (bytes : List ℕ) : List Char :=
  ['.'].intercalate (bytes.map (Nat.toDigits 10))

/-! ### IPv6 -/

/-- The value of a hexadecimal digit of either case. -/
def nibble (c : Char) : Option ℕ :=
  if 48 ≤ c.toNat ∧ c.toNat ≤ 57 then some (c.toNat - 48)
  else if 97 ≤ c.toNat ∧ c.toNat ≤ 102 then some (c.toNat - 87)
  else if 65 ≤ c.toNat ∧ c.toNat ≤ 70 then some (c.toNat - 55)
  else none

/-- `Number.parseInt(group, 16)` of hexadecimal digits. -/
def hexNumber (group : List Char) : ℕ :=
  group.foldl (fun n c => 16 * n + (nibble c).getD 0) 0

/-- One to four hexadecimal digits. -/
def isGroup (piece : List Char) : Bool :=
  1 ≤ piece.length && piece.length ≤ 4 && piece.all fun c => (nibble c).isSome

def isZoneChar (c : Char) : Bool :=
  c.isDigit || (97 ≤ c.toNat && c.toNat ≤ 122) || (65 ≤ c.toNat && c.toNat ≤ 90) ||
    c == '-' || c == '.' || c == ':'

/-- The words pieces between colons make: one a group, two a dotted text, which
is the last piece. -/
def wordCount : List (List Char) → Option ℕ
  | [] => none
  | [piece] => if isGroup piece then some 1 else if isIPv4 piece then some 2 else none
  | piece :: pieces => if isGroup piece then (wordCount pieces).map (· + 1) else none

/-- What may stand behind `::` after a number of groups. -/
def behindGap (groups : ℕ) (pieces : List (List Char)) : Bool :=
  (pieces == [[]] && decide (groups ≤ 7)) || match wordCount pieces with
    | some words => decide (groups + words ≤ 7)
    | none => false

/-- What may stand behind a number of groups, each with its colon. -/
def behindGroups : ℕ → List (List Char) → Bool
  | _, [] => false
  | groups, [piece] => (isGroup piece && groups == 7) || (isIPv4 piece && groups == 6)
  | groups, piece :: pieces =>
    if piece = [] then decide (0 < groups) && behindGap groups pieces
    else isGroup piece && behindGroups (groups + 1) pieces

/-- An IPv6 address without its zone. -/
def isIPv6Address (address : List Char) : Bool :=
  match address.splitOn ':' with
  | [] :: [] :: pieces => behindGap 0 pieces
  | pieces => behindGroups 0 pieces

def isIPv6 (value : List Char) : Bool :=
  match value.splitOn '%' with
  | [address] => isIPv6Address address
  | [address, zone] => isIPv6Address address && zone ≠ [] && zone.all isZoneChar
  | _ => false

/-- `isIP` of the platform: the version of the address a text is, 0 for other
texts. -/
def isIP (value : List Char) : ℕ :=
  if isIPv4 value then 4 else if isIPv6 value then 6 else 0

/-- `text.split('::')`. -/
def splitGap : List Char → List (List Char)
  | [] => [[]]
  | ':' :: ':' :: cs => [] :: splitGap cs
  | c :: cs => (splitGap cs).modifyHead (c :: ·)

/-- `groups` of `ipv6Bytes`. -/
def groupsOf (half : List Char) : List (List Char) :=
  if half = [] then [] else half.splitOn ':'

/-- `/^[0-9a-f]{1,4}$/`. -/
def isLowerGroup (group : List Char) : Bool :=
  1 ≤ group.length && group.length ≤ 4 &&
    group.all fun c => (48 ≤ c.toNat && c.toNat ≤ 57) || (97 ≤ c.toNat && c.toNat ≤ 102)

/-- The loop of `ipv6Bytes` over all groups. -/
def groupBytes : List (List Char) → Option (List ℕ)
  | [] => some []
  | group :: groups =>
    if isLowerGroup group then
      (groupBytes groups).map ([hexNumber group / 256, hexNumber group % 256] ++ ·)
    else none

/-- `ipv6Bytes` behind the replacement of the dotted tail. -/
def hexBytes (text : List Char) : Option (List ℕ) :=
  match splitGap text with
  | [half] =>
    if (groupsOf half).length = 8 then groupBytes (groupsOf half) else none
  | [first, second] =>
    let head := groupsOf first
    let rest := groupsOf second
    if 8 < head.length + rest.length then none
    else groupBytes (head ++ List.replicate (8 - (head.length + rest.length)) ['0'] ++ rest)
  | _ => none

/-- `ipv6Bytes`: sixteen bytes, or nothing when the text does not parse. -/
def ipv6Bytes (value : List Char) : Option (List ℕ) :=
  let last := value.rtakeWhile (· ≠ ':')
  if '.' ∈ last then
    if isIP last = 4 then
      -- `bytes.splice(12, 4, ...tail)`
      (hexBytes (value.rdropWhile (· ≠ ':') ++ ['0', ':', '0'])).map fun bytes =>
        bytes.take 12 ++ dottedBytes last ++ bytes.drop 16
    else none
  else hexBytes value

/-- `zero` of `blockedAddress`. -/
def zeroBytes (bytes : List ℕ) (first last : ℕ) : Bool :=
  ((bytes.take last).drop first).all (· == 0)

/-- `embedded` of `blockedAddress`. -/
def embedded (bytes : List ℕ) (first : ℕ) : List Char :=
  dotted ((bytes.drop first).take 4)

/-- `blockedAddress` on the bytes of an IPv6 address. -/
def blockedBytes (bytes : List ℕ) : Bool :=
  let byte (i : ℕ) := bytes.getD i 0
  if zeroBytes bytes 0 10 && byte 10 == 0xff && byte 11 == 0xff then
    blockedIpv4 (embedded bytes 12)
  else if zeroBytes bytes 0 12 then true
  else if byte 0 == 0x00 && byte 1 == 0x64 && byte 2 == 0xff && byte 3 == 0x9b then
    if zeroBytes bytes 4 12 then blockedIpv4 (embedded bytes 12) else true
  else if byte 0 == 0x20 && byte 1 == 0x02 then blockedIpv4 (embedded bytes 2)
  else if byte 0 == 0x20 && byte 1 == 0x01 && byte 2 == 0x00 && byte 3 == 0x00 then true
  else if byte 0 == 0x20 && byte 1 == 0x01 && byte 2 == 0x0d && byte 3 == 0xb8 then true
  else if byte 0 == 0x01 && zeroBytes bytes 1 8 then true
  else
    (byte 0 &&& 0xfe) == 0xfc || (byte 0 == 0xfe && (byte 1 &&& 0xc0) == 0x80) ||
      (byte 0 == 0xfe && (byte 1 &&& 0xc0) == 0xc0) ||
      byte 0 == 0xff

/-- `value.toLowerCase().split('%')[0]`. -/
def withoutZone (value : List Char) : List Char :=
  (value.map Char.toLower).takeWhile (· ≠ '%')

def blockedAddress (value : List Char) : Bool :=
  if isIP value = 4 then blockedIpv4 value
  else if isIP value ≠ 6 then true
  else
    match ipv6Bytes (withoutZone value) with
    | none => true
    | some bytes => blockedBytes bytes

/-! ### What a text stands for -/

/-- The bytes of pieces between colons: two a group, four a dotted text, which is
the last piece. -/
inductive Pieces : List (List Char) → List ℕ → Prop
  | nil : Pieces [] []
  | group {piece pieces bytes} (hpiece : isGroup piece = true) (h : Pieces pieces bytes) :
      Pieces (piece :: pieces) ([hexNumber piece / 256, hexNumber piece % 256] ++ bytes)
  | dotted {piece} (hpiece : isIPv4 piece = true) : Pieces [piece] (dottedBytes piece)

/-- The bytes of an address without its zone; `::` stands for at least one group
of zeros. -/
inductive Spells : List Char → List ℕ → Prop
  | full {pieces bytes} (h : Pieces pieces bytes) (hlength : bytes.length = 16) :
      Spells ([':'].intercalate pieces) bytes
  | gap {head rest front behind} (hgroups : ∀ piece ∈ head, isGroup piece = true)
      (hhead : Pieces head front) (hrest : Pieces rest behind)
      (hlength : front.length + behind.length ≤ 14) :
      Spells ([':'].intercalate head ++ ':' :: ':' :: [':'].intercalate rest)
        (front ++ List.replicate (16 - (front.length + behind.length)) 0 ++ behind)

/-- The bytes a textual IPv6 address stands for. -/
inductive Denotes : List Char → List ℕ → Prop
  | plain {address bytes} (h : Spells address bytes) : Denotes address bytes
  | zone {address zone bytes} (h : Spells address bytes) (hne : zone ≠ [])
      (hchars : ∀ c ∈ zone, isZoneChar c = true) : Denotes (address ++ '%' :: zone) bytes

/-- The standard forms of an IPv6 address that carry an IPv4 address. -/
inductive Carrier
  | mapped
  | compatible
  | translated
  | nat64
  | sixToFour
  deriving DecidableEq

/-- The bytes in front of the IPv4 address. -/
def Carrier.lead : Carrier → List ℕ
  | mapped => List.replicate 10 0 ++ [0xff, 0xff]
  | compatible => List.replicate 12 0
  | translated => List.replicate 8 0 ++ [0xff, 0xff, 0, 0]
  | nat64 => [0x00, 0x64, 0xff, 0x9b] ++ List.replicate 8 0
  | sixToFour => [0x20, 0x02]

/-- The IPv4 address an IPv6 address of the form carries. -/
def Carrier.carried (form : Carrier) (bytes : List ℕ) : Option (List ℕ) :=
  if form.lead <+: bytes then some ((bytes.drop form.lead.length).take 4) else none

/-- The block sees through the spelling of an address and through what carries
it. -/
structure SeesThrough (value : List Char) : Prop where
  accepts : isIP value = 6 ↔ ∃ bytes, Denotes value bytes
  parses : ∀ bytes, Denotes value bytes → bytes.length = 16 ∧ (∀ b ∈ bytes, b < 256) ∧
    ipv6Bytes (withoutZone value) = some bytes
  alike : ∀ other bytes, Denotes value bytes → Denotes other bytes →
    blockedAddress other = blockedAddress value
  carries : ∀ bytes (form : Carrier) v4, Denotes value bytes → form.carried bytes = some v4 →
    blockedAddress (dotted v4) = true → blockedAddress value = true

/-! ### Groups -/

theorem toNat_toLower (c : Char) :
    c.toLower.toNat = if 65 ≤ c.toNat ∧ c.toNat ≤ 90 then c.toNat + 32 else c.toNat := by
  have hA : c.val ≥ 'A'.val ↔ 65 ≤ c.toNat := Iff.rfl
  have hZ : c.val ≤ 'Z'.val ↔ c.toNat ≤ 90 := Iff.rfl
  unfold Char.toLower
  split
  · next h =>
    rw [hA, hZ] at h
    rw [if_pos h]
    show (c.val + ('a'.val - 'A'.val)).toNat = _
    rw [UInt32.toNat_add]
    show (c.toNat + 32) % 2 ^ 32 = _
    omega
  · next h =>
    rw [hA, hZ] at h
    rw [if_neg h]

theorem nibble_toLower (c : Char) : nibble c.toLower = nibble c := by
  unfold nibble
  rw [toNat_toLower]
  grind

variable {c : Char} {n groups : ℕ} {piece value : List Char} {bytes v4 : List ℕ}
  {rest : List (List Char)} {form : Carrier}

theorem nibble_lt (h : nibble c = some n) : n < 16 := by
  unfold nibble at h
  split_ifs at h <;> injection h <;> omega

theorem hexNumber_append (cs : List Char) (c : Char) :
    hexNumber (cs ++ [c]) = 16 * hexNumber cs + (nibble c).getD 0 := by
  rw [hexNumber, List.foldl_append]
  rfl

theorem hexNumber_lt (cs : List Char) : hexNumber cs < 16 ^ cs.length := by
  induction cs using List.reverseRecOn with
  | nil => exact Nat.one_pos
  | append_singleton cs c ih =>
    have hc : (nibble c).getD 0 < 16 := by
      cases h : nibble c with
      | none => exact Nat.succ_pos _
      | some n => exact nibble_lt h
    rw [hexNumber_append, List.length_append, List.length_singleton, pow_succ]
    omega

theorem hexNumber_toLower (cs : List Char) : hexNumber (cs.map Char.toLower) = hexNumber cs := by
  rw [hexNumber, List.foldl_map, hexNumber]
  simp only [nibble_toLower]

theorem isGroup_iff : isGroup piece = true ↔
      1 ≤ piece.length ∧ piece.length ≤ 4 ∧ ∀ c ∈ piece, (nibble c).isSome = true := by
  simp [isGroup, and_assoc]

theorem isGroup_toLower (h : isGroup piece = true) : isGroup (piece.map Char.toLower) = true := by
  rw [isGroup_iff] at h ⊢
  refine ⟨by simpa using h.1, by simpa using h.2.1, fun c hc => ?_⟩
  obtain ⟨d, hd, rfl⟩ := List.mem_map.1 hc
  rw [nibble_toLower]
  exact h.2.2 d hd

theorem hexNumber_bound (h : isGroup piece = true) : hexNumber piece < 65536 :=
  (hexNumber_lt piece).trans_le (Nat.pow_le_pow_right (by decide) (isGroup_iff.1 h).2.1)

/-- No separator is a digit of a group. -/
theorem notMem_of_isGroup (h : isGroup piece = true) (hc : nibble c = none) : c ∉ piece := by
  intro hm
  have := (isGroup_iff.1 h).2.2 c hm
  rw [hc] at this
  exact Bool.false_ne_true this

/-! ### Dotted texts -/

theorem isV4Segment_iff {part : List Char} :
    isV4Segment part = true ↔ part ≠ [] ∧ (∀ c ∈ part, c.isDigit = true) ∧
      (part.length = 1 ∨ part.head? ≠ some '0') ∧ Nat.ofDigitChars 10 part 0 ≤ 255 := by
  simp [isV4Segment, and_assoc]

theorem isIPv4_iff : isIPv4 value = true ↔
      (value.splitOn '.').length = 4 ∧ ∀ part ∈ value.splitOn '.', isV4Segment part = true := by
  simp [isIPv4]

section

variable {value : List Char}

variable {c : Char}

theorem digit_or_dot (h : isIPv4 value = true) (hc : c ∈ value) : c = '.' ∨ c.isDigit = true := by
  have ht : ['.'].intercalate (value.splitOn '.') = value := List.intercalate_splitOn '.'
  rw [← ht] at hc
  refine (Workflows.mem_intercalate hc).imp id ?_
  rintro ⟨part, hp, hm⟩
  exact (isV4Segment_iff.1 ((isIPv4_iff.1 h).2 part hp)).2.1 c hm

theorem notMem_of_isIPv4 (h : isIPv4 value = true) (hd : c ≠ '.')
    (hdig : c.isDigit = false) : c ∉ value := by
  intro hc
  rcases digit_or_dot h hc with heq | heq
  · exact hd heq
  · rw [hdig] at heq
    exact Bool.false_ne_true heq

theorem dot_mem (h : isIPv4 value = true) : '.' ∈ value := by
  by_contra hd
  have hl := (isIPv4_iff.1 h).1
  rw [List.splitOn_eq_singleton hd] at hl
  simp at hl

theorem toLower_of_isIPv4 (h : isIPv4 value = true) : value.map Char.toLower = value := by
  refine (List.map_congr_left fun c hc => ?_).trans (List.map_id value)
  have hs : ¬ (65 ≤ c.toNat ∧ c.toNat ≤ 90) := by
    rcases digit_or_dot h hc with rfl | hd
    · decide
    · have hr : 48 ≤ c.toNat ∧ c.toNat ≤ 57 := Char.isDigit_iff_toNat.1 hd
      omega
  rw [id, ← Char.toNat_inj, toNat_toLower, if_neg hs]

theorem isGroup_of_isIPv4 (h : isIPv4 value = true) : isGroup value = false := by
  by_contra hg
  exact notMem_of_isGroup (Bool.eq_true_of_not_eq_false hg) (by decide) (dot_mem h)

theorem length_dottedBytes (h : isIPv4 value = true) : (dottedBytes value).length = 4 := by
  rw [dottedBytes, List.length_map, (isIPv4_iff.1 h).1]

theorem lt_of_mem_dottedBytes (h : isIPv4 value = true) {b : ℕ} (hb : b ∈ dottedBytes value) :
    b < 256 := by
  obtain ⟨part, hp, rfl⟩ := List.mem_map.1 hb
  have := (isV4Segment_iff.1 ((isIPv4_iff.1 h).2 part hp)).2.2.2
  omega

end

theorem isV4Segment_toDigits (h : n < 256) : isV4Segment (Nat.toDigits 10 n) = true := by
  have ha : ∀ i : Fin 256, isV4Segment (Nat.toDigits 10 i) = true := by decide +kernel
  exact ha ⟨n, h⟩

theorem splitOn_dotted (h : bytes ≠ []) :
    (dotted bytes).splitOn '.' = bytes.map (Nat.toDigits 10) := by
  refine List.splitOn_intercalate '.' (fun part hp hd => ?_) (by simpa using h)
  obtain ⟨n, -, rfl⟩ := List.mem_map.1 hp
  exact absurd (Nat.isDigit_of_mem_toDigits (by decide) (by decide) hd) (by decide)

theorem isIPv4_dotted (hl : bytes.length = 4) (hb : ∀ b ∈ bytes, b < 256) :
    isIPv4 (dotted bytes) = true := by
  have hne : bytes ≠ [] := by
    rintro rfl
    simp at hl
  rw [isIPv4_iff, splitOn_dotted hne, List.length_map]
  refine ⟨hl, fun part hp => ?_⟩
  obtain ⟨n, hn, rfl⟩ := List.mem_map.1 hp
  exact isV4Segment_toDigits (hb n hn)

/-! ### Pieces -/

theorem wordCount_cons (piece next : List Char) (pieces : List (List Char)) :
    wordCount (piece :: next :: pieces) =
      if isGroup piece then (wordCount (next :: pieces)).map (· + 1) else none :=
  rfl

namespace Pieces

variable {pieces : List (List Char)} {bytes : List ℕ}

theorem notMem (h : Pieces pieces bytes) {c : Char} (hn : nibble c = none) (hd : c ≠ '.')
    (hdig : c.isDigit = false) : ∀ piece ∈ pieces, c ∉ piece := by
  induction h with
  | nil => simp
  | group hpie _ ih =>
    intro p hp
    rcases List.mem_cons.1 hp with rfl | hp
    · exact notMem_of_isGroup hpie hn
    · exact ih p hp
  | dotted hpie =>
    intro p hp
    rw [List.mem_singleton.1 hp]
    exact notMem_of_isIPv4 hpie hd hdig

theorem colon_notMem (h : Pieces pieces bytes) : ∀ piece ∈ pieces, ':' ∉ piece :=
  h.notMem (by decide) (by decide) (by decide)

theorem ne_nil (h : Pieces pieces bytes) : ∀ piece ∈ pieces, piece ≠ [] := by
  induction h with
  | nil => simp
  | group hpie _ ih =>
    rintro p hp rfl
    rcases List.mem_cons.1 hp with rfl | hp
    · simp [isGroup_iff] at hpie
    · exact ih [] hp rfl
  | dotted hpie =>
    rintro p hp rfl
    rw [← List.mem_singleton.1 hp] at hpie
    exact absurd (dot_mem hpie) List.not_mem_nil

theorem lt (h : Pieces pieces bytes) : ∀ b ∈ bytes, b < 256 := by
  induction h with
  | nil => simp
  | group hp _ ih =>
    have := hexNumber_bound hp
    intro b hb
    simp only [List.cons_append, List.nil_append, List.mem_cons] at hb
    rcases hb with rfl | rfl | hb
    · omega
    · omega
    · exact ih b hb
  | dotted hp => exact fun b hb => lt_of_mem_dottedBytes hp hb

theorem toLower (h : Pieces pieces bytes) : Pieces (pieces.map (·.map Char.toLower)) bytes := by
  induction h with
  | nil => exact .nil
  | @group piece _ _ hp _ ih =>
    rw [List.map_cons, ← hexNumber_toLower piece]
    exact .group (isGroup_toLower hp) ih
  | dotted hp =>
    rw [List.map_singleton, toLower_of_isIPv4 hp]
    exact .dotted hp

/-- Groups alone make two bytes each. -/
theorem length_of_groups (h : Pieces pieces bytes) (hg : ∀ piece ∈ pieces, isGroup piece = true) :
    bytes.length = 2 * pieces.length := by
  induction h with
  | nil => rfl
  | group _ _ ih =>
    have := ih fun p hp => hg p (List.mem_cons_of_mem _ hp)
    simp only [List.length_append, List.length_cons, List.length_nil]
    omega
  | dotted hpie =>
    have hgro := hg _ (List.mem_singleton_self _)
    rw [isGroup_of_isIPv4 hpie] at hgro
    exact absurd hgro Bool.false_ne_true

theorem of_groups : ∀ {pieces : List (List Char)}, (∀ piece ∈ pieces, isGroup piece = true) →
    ∃ bytes, Pieces pieces bytes := by
  intro pieces
  induction pieces with
  | nil => exact fun _ => ⟨[], .nil⟩
  | cons piece pieces ih =>
    intro h
    obtain ⟨bytes, hb⟩ := ih fun p hp => h p (List.mem_cons_of_mem _ hp)
    exact ⟨_, .group (h piece List.mem_cons_self) hb⟩

/-- Pieces are counted as half as many words as they make bytes. -/
theorem wordCount_eq (h : Pieces pieces bytes) (hne : pieces ≠ []) :
    ∃ words, wordCount pieces = some words ∧ bytes.length = 2 * words := by
  induction h with
  | nil => exact absurd rfl hne
  | @group piece pieces bytes hp hr ih =>
    cases pieces with
    | nil =>
      cases hr
      exact ⟨1, by rw [wordCount, if_pos hp], by simp⟩
    | cons next pieces =>
      obtain ⟨words, hw, hl⟩ := ih (List.cons_ne_nil _ _)
      refine ⟨words + 1, by rw [wordCount_cons, if_pos hp, hw, Option.map_some], ?_⟩
      simp only [List.length_append, List.length_cons, List.length_nil]
      omega
  | dotted hp =>
    refine ⟨2, ?_, length_dottedBytes hp⟩
    rw [wordCount, isGroup_of_isIPv4 hp, if_neg Bool.false_ne_true, if_pos hp]

theorem of_wordCount : ∀ {pieces : List (List Char)} {words : ℕ}, wordCount pieces = some words →
    ∃ bytes, Pieces pieces bytes ∧ bytes.length = 2 * words := by
  intro pieces
  induction pieces with
  | nil => nofun
  | cons piece pieces ih =>
    intro words h
    cases pieces with
    | nil =>
      rw [wordCount] at h
      split_ifs at h with hg hd
      · cases h
        exact ⟨_, .group hg .nil, rfl⟩
      · cases h
        exact ⟨_, .dotted hd, length_dottedBytes hd⟩
    | cons next pieces =>
      rw [wordCount_cons] at h
      split_ifs at h with hg
      obtain ⟨n, hn, rfl⟩ := Option.map_eq_some_iff.1 h
      obtain ⟨bytes, hb, hl⟩ := ih hn
      refine ⟨_, .group hg hb, ?_⟩
      simp only [List.length_append, List.length_cons, List.length_nil]
      omega

end Pieces

/-! ### What `isIP` accepts -/

theorem behindGroups_cons (groups : ℕ) (piece next : List Char) (pieces : List (List Char)) :
    behindGroups groups (piece :: next :: pieces) =
      if piece = [] then decide (0 < groups) && behindGap groups (next :: pieces)
      else isGroup piece && behindGroups (groups + 1) (next :: pieces) :=
  rfl

theorem intercalate_gap {head : List (List Char)} (hh : head ≠ []) (hr : rest ≠ []) :
    [':'].intercalate (head ++ [] :: rest) =
      [':'].intercalate head ++ ':' :: ':' :: [':'].intercalate rest := by
  induction head with
  | nil => exact absurd rfl hh
  | cons piece head ih =>
    cases head with
    | nil =>
      rw [List.singleton_append, List.intercalate_cons_cons,
        List.intercalate_cons_of_ne_nil hr, List.intercalate_singleton]
      simp
    | cons next head =>
      have := ih (List.cons_ne_nil _ _)
      rw [List.cons_append] at this
      rw [List.cons_append, List.cons_append, List.intercalate_cons_cons, this,
        List.intercalate_cons_cons]
      simp

theorem behindGap_sound {pieces : List (List Char)}
    (h : behindGap groups pieces = true) : pieces ≠ [] ∧ ∃ rest bytes, Pieces rest bytes ∧
      2 * groups + bytes.length ≤ 14 ∧ [':'].intercalate pieces = [':'].intercalate rest := by
  rw [behindGap, Bool.or_eq_true, Bool.and_eq_true, beq_iff_eq, decide_eq_true_eq] at h
  rcases h with ⟨rfl, hg⟩ | h
  · exact ⟨List.cons_ne_nil _ _, [], [], .nil, by simpa using by omega, rfl⟩
  · split at h
    · next words hw =>
      obtain ⟨bytes, hb, hl⟩ := Pieces.of_wordCount hw
      rw [decide_eq_true_eq] at h
      refine ⟨?_, pieces, bytes, hb, by omega, rfl⟩
      rintro rfl
      exact nomatch hw
    · exact absurd h Bool.false_ne_true

/-- Groups and what follows them are a full address or go up to a gap. -/
theorem behindGroups_sound : ∀ {pieces : List (List Char)} {groups : ℕ},
    behindGroups groups pieces = true →
      (∃ bytes, Pieces pieces bytes ∧ bytes.length + 2 * groups = 16) ∨
      ∃ head rest, pieces = head ++ [] :: rest ∧ (0 < groups ∨ head ≠ []) ∧
        (∀ piece ∈ head, isGroup piece = true) ∧ behindGap (groups + head.length) rest = true := by
  intro pieces
  induction pieces with
  | nil => nofun
  | cons piece pieces ih =>
    intro groups h
    cases pieces with
    | nil =>
      left
      simp only [behindGroups, Bool.or_eq_true, Bool.and_eq_true, beq_iff_eq] at h
      rcases h with ⟨hg, rfl⟩ | ⟨hd, rfl⟩
      · exact ⟨_, .group hg .nil, rfl⟩
      · exact ⟨_, .dotted hd, by rw [length_dottedBytes hd]⟩
    | cons next pieces =>
      rw [behindGroups_cons] at h
      split at h
      · next hn =>
        rw [Bool.and_eq_true, decide_eq_true_eq] at h
        exact .inr ⟨[], _, by rw [hn]; rfl, .inl h.1, by simp, h.2⟩
      · rw [Bool.and_eq_true] at h
        rcases ih h.2 with ⟨bytes, hb, hl⟩ | ⟨head, rest, heq, -, hh, hgap⟩
        · refine .inl ⟨_, .group h.1 hb, ?_⟩
          simp only [List.length_append, List.length_cons, List.length_nil]
          omega
        · refine .inr ⟨piece :: head, rest, by rw [heq, List.cons_append],
            .inr (List.cons_ne_nil _ _), ?_, ?_⟩
          · simpa using ⟨h.1, hh⟩
          · rw [List.length_cons]
            rwa [show groups + (head.length + 1) = groups + 1 + head.length by omega]

theorem behindGroups_full {pieces : List (List Char)} (h : Pieces pieces bytes) :
    ∀ {groups : ℕ}, pieces ≠ [] → bytes.length + 2 * groups = 16 →
      behindGroups groups pieces = true := by
  induction h with
  | nil => exact fun hne => absurd rfl hne
  | @group piece pieces bytes hp hr ih =>
    intro groups _ hl
    simp only [List.length_append, List.length_cons, List.length_nil] at hl
    cases pieces with
    | nil =>
      cases hr
      simp only [List.length_nil] at hl
      simp only [behindGroups, hp, Bool.true_and, Bool.or_eq_true, beq_iff_eq]
      left
      omega
    | cons next pieces =>
      have hne : piece ≠ [] := (Pieces.group hp hr).ne_nil _ List.mem_cons_self
      rw [behindGroups_cons, if_neg hne, hp, Bool.true_and]
      exact ih (List.cons_ne_nil _ _) (by omega)
  | dotted hp =>
    intro groups _ hl
    rw [length_dottedBytes hp] at hl
    simp only [behindGroups, hp, Bool.true_and, Bool.or_eq_true, beq_iff_eq]
    right
    omega

theorem behindGroups_gap (hr : rest ≠ []) :
    ∀ {head : List (List Char)} {groups : ℕ}, (0 < groups ∨ head ≠ []) →
      (∀ piece ∈ head, isGroup piece = true) →
        behindGroups groups (head ++ [] :: rest) = behindGap (groups + head.length) rest := by
  obtain ⟨first, rest, rfl⟩ := List.exists_cons_of_ne_nil hr
  intro head
  induction head with
  | nil =>
    intro groups hgro _
    have : 0 < groups := hgro.resolve_right fun h => h rfl
    rw [List.nil_append, behindGroups_cons, if_pos rfl, decide_eq_true this, Bool.true_and]
    rfl
  | cons piece head ih =>
    intro groups _ hh
    have hg := hh _ List.mem_cons_self
    have hne : piece ≠ [] := (Pieces.group hg .nil).ne_nil _ List.mem_cons_self
    obtain ⟨next, tail, ht⟩ := List.exists_cons_of_ne_nil (l := head ++ [] :: first :: rest)
      (by simp)
    have hs := @ih (groups + 1) (.inl (Nat.succ_pos _)) fun p hp => hh p (List.mem_cons_of_mem _ hp)
    rw [ht] at hs
    rw [List.cons_append, ht, behindGroups_cons, if_neg hne, hg, Bool.true_and, hs,
      List.length_cons, show groups + 1 + head.length = groups + (head.length + 1) by omega]

theorem splitOn_pieces {pieces : List (List Char)} (h : Pieces pieces bytes) :
    ([':'].intercalate pieces).splitOn ':' = if pieces = [] then [[]] else pieces := by
  split
  · next hn =>
    rw [hn]
    rfl
  · next hne => exact List.splitOn_intercalate ':' h.colon_notMem hne

theorem behindGap_complete {pieces : List (List Char)}
    (h : Pieces pieces bytes) (hl : 2 * groups + bytes.length ≤ 14) :
    behindGap groups (([':'].intercalate pieces).splitOn ':') = true := by
  rw [splitOn_pieces h]
  split
  · have : groups ≤ 7 := by omega
    simp [behindGap, this]
  · next hne =>
    obtain ⟨words, hw, hb⟩ := h.wordCount_eq hne
    have : groups + words ≤ 7 := by omega
    simp [behindGap, hw, this]

/-- `isIP` takes exactly the addresses that can be spelt. -/
theorem isIPv6Address_iff {address : List Char} :
    isIPv6Address address = true ↔ ∃ bytes, Spells address bytes := by
  constructor
  · intro h
    have ht : [':'].intercalate (address.splitOn ':') = address := List.intercalate_splitOn ':'
    unfold isIPv6Address at h
    split at h
    · next pieces hs =>
      obtain ⟨hne, rest, bytes, hr, hl, heq⟩ := behindGap_sound h
      rw [hs, List.intercalate_cons_cons, List.intercalate_cons_of_ne_nil hne, heq] at ht
      rw [← ht]
      exact ⟨_, @Spells.gap [] _ _ _ (by simp) .nil hr (by simpa using hl)⟩
    · rcases behindGroups_sound h with ⟨bytes, hbyt, hl⟩ | ⟨head, rest, heq, hh, hg, hgap⟩
      · rw [← ht]
        exact ⟨bytes, .full hbyt (by omega)⟩
      · obtain ⟨hne, rest', behind, hr, hl, hb⟩ := behindGap_sound hgap
        obtain ⟨front, hf⟩ := Pieces.of_groups hg
        have := hf.length_of_groups hg
        rw [heq, intercalate_gap (hh.resolve_left (Nat.lt_irrefl 0)) hne, hb] at ht
        rw [← ht]
        exact ⟨_, .gap hg hf hr (by omega)⟩
  · rintro ⟨bytes, h⟩
    cases h with
    | @full pieces _ hp hl =>
      have hne : pieces ≠ [] := by
        rintro rfl
        cases hp
        simp at hl
      obtain ⟨first, others, rfl⟩ := List.exists_cons_of_ne_nil hne
      obtain ⟨c, cs, rfl⟩ := List.exists_cons_of_ne_nil (hp.ne_nil first List.mem_cons_self)
      rw [isIPv6Address, List.splitOn_intercalate ':' hp.colon_notMem hne]
      exact behindGroups_full hp hne (by omega)
    | @gap head rest front behind hg hf hb hl =>
      have hfrontLength := hf.length_of_groups hg
      have hr : behindGap head.length (([':'].intercalate rest).splitOn ':') = true :=
        behindGap_complete hb (by omega)
      have hs : ([':'].intercalate head ++ ':' :: ':' :: [':'].intercalate rest).splitOn ':' =
          ([':'].intercalate head).splitOn ':' ++ [] :: ([':'].intercalate rest).splitOn ':' := by
        rw [List.splitOn_append_cons_self, List.splitOn_cons_eq_if_modifyHead, if_pos (beq_self_eq_true _)]
      rw [isIPv6Address, hs, splitOn_pieces hf]
      cases head with
      | nil => exact hr
      | cons first others =>
        obtain ⟨c, cs, rfl⟩ := List.exists_cons_of_ne_nil (hf.ne_nil first List.mem_cons_self)
        have hgap := @behindGroups_gap _ (List.splitOn_ne_nil ':' ([':'].intercalate rest))
          ((c :: cs) :: others) 0 (.inr (List.cons_ne_nil _ _)) hg
        rw [if_neg (List.cons_ne_nil _ _)]
        rw [Nat.zero_add] at hgap
        exact hgap.trans hr

namespace Spells

variable {address : List Char} {bytes : List ℕ}

theorem notMem (h : Spells address bytes) {c : Char} (hn : nibble c = none) (hd : c ≠ '.')
    (hcol : c ≠ ':') (hdig : c.isDigit = false) : c ∉ address := by
  have hpie : ∀ {pieces bytes}, Pieces pieces bytes → c ∉ [':'].intercalate pieces :=
    fun hp hc => (Workflows.mem_intercalate hc).elim hcol
      fun ⟨piece, hpiece, hm⟩ => hp.notMem hn hd hdig piece hpiece hm
  cases h with
  | full hp _ => exact hpie hp
  | gap _ hh hr _ =>
    simp only [List.mem_append, List.mem_cons, not_or]
    exact ⟨hpie hh, hcol, hcol, hpie hr⟩

theorem percent_notMem (h : Spells address bytes) : '%' ∉ address :=
  h.notMem (by decide) (by decide) (by decide) (by decide)

theorem length (h : Spells address bytes) : bytes.length = 16 := by
  cases h with
  | full _ hl => exact hl
  | gap _ _ _ hl =>
    simp only [List.length_append, List.length_replicate]
    omega

theorem lt (h : Spells address bytes) : ∀ b ∈ bytes, b < 256 := by
  cases h with
  | full hp _ => exact hp.lt
  | gap _ hh hr _ =>
    intro b hb
    simp only [List.mem_append, List.mem_replicate] at hb
    rcases hb with (hb | ⟨-, rfl⟩) | hb
    · exact hh.lt b hb
    · decide
    · exact hr.lt b hb

theorem colon_mem (h : Spells address bytes) : ':' ∈ address := by
  cases h with
  | gap _ _ _ _ => simp
  | full hp hl =>
    cases hp with
    | nil => simp at hl
    | dotted hpie => simp [length_dottedBytes hpie] at hl
    | @group piece pieces _ hpie hr =>
      cases pieces with
      | nil =>
        cases hr
        simp at hl
      | cons next pieces =>
        rw [List.intercalate_cons_cons]
        simp

theorem map_intercalate (f : Char → Char) : ∀ pieces : List (List Char),
    ([':'].intercalate pieces).map f = [f ':'].intercalate (pieces.map (·.map f)) := by
  intro pieces
  induction pieces with
  | nil => rfl
  | cons piece pieces ih =>
    cases pieces with
    | nil => simp
    | cons next pieces =>
      rw [List.intercalate_cons_cons, List.map_append, List.map_append, ih]
      simp only [List.map_cons, List.map_nil, List.intercalate_cons_cons]

theorem toLower (h : Spells address bytes) : Spells (address.map Char.toLower) bytes := by
  cases h with
  | full hp hl =>
    rw [map_intercalate]
    exact .full hp.toLower hl
  | gap hg hh hr hl =>
    rw [List.map_append, List.map_cons, List.map_cons, map_intercalate, map_intercalate]
    refine .gap (fun piece hpie => ?_) hh.toLower hr.toLower hl
    obtain ⟨p, hp, rfl⟩ := List.mem_map.1 hpie
    exact isGroup_toLower (hg p hp)

end Spells

namespace Denotes

variable {value : List Char} {bytes : List ℕ}

theorem spells (h : Denotes value bytes) : ∃ address tail, Spells address bytes ∧
    value = address ++ tail ∧ (tail = [] ∨ ∃ zone, tail = '%' :: zone) := by
  cases h with
  | plain h => exact ⟨value, [], h, (List.append_nil value).symm, .inl rfl⟩
  | @zone address zone _ h _ _ => exact ⟨address, '%' :: zone, h, rfl, .inr ⟨zone, rfl⟩⟩

theorem length (h : Denotes value bytes) : bytes.length = 16 := by
  obtain ⟨_, _, hs, -⟩ := h.spells
  exact hs.length

theorem lt (h : Denotes value bytes) : ∀ b ∈ bytes, b < 256 := by
  obtain ⟨_, _, hs, -⟩ := h.spells
  exact hs.lt

theorem isIPv4_eq (h : Denotes value bytes) : isIPv4 value = false := by
  obtain ⟨address, tail, hs, rfl, -⟩ := h.spells
  by_contra hd
  exact notMem_of_isIPv4 (Bool.eq_true_of_not_eq_false hd) (by decide) (by decide)
    (List.mem_append_left tail hs.colon_mem)

/-- What is parsed is the address in lower case. -/
theorem withoutZone_eq (h : Denotes value bytes) : ∃ address, Spells address bytes ∧
    withoutZone value = address.map Char.toLower := by
  obtain ⟨address, tail, hs, rfl, ht⟩ := h.spells
  refine ⟨address, hs, ?_⟩
  have hcha : ∀ c ∈ address.map Char.toLower, decide (c ≠ '%') = true := fun c hc =>
    decide_eq_true fun heq => hs.toLower.percent_notMem (heq ▸ hc)
  rw [withoutZone, List.map_append, List.takeWhile_append_of_pos hcha]
  rcases ht with rfl | ⟨zone, rfl⟩
  · rw [List.map_nil, List.takeWhile_nil, List.append_nil]
  · rw [List.map_cons, List.takeWhile_cons_of_neg (by decide), List.append_nil]

end Denotes

theorem isIPv6_iff : isIPv6 value = true ↔ ∃ bytes, Denotes value bytes := by
  constructor
  · intro h
    have ht : ['%'].intercalate (value.splitOn '%') = value := List.intercalate_splitOn '%'
    unfold isIPv6 at h
    split at h
    · next address hs =>
      rw [hs, List.intercalate_singleton] at ht
      obtain ⟨bytes, hb⟩ := isIPv6Address_iff.1 h
      exact ⟨bytes, ht ▸ .plain hb⟩
    · next address zone hs =>
      rw [hs, List.intercalate_cons_cons, List.intercalate_singleton] at ht
      simp only [Bool.and_eq_true, decide_eq_true_eq, List.all_eq_true] at h
      obtain ⟨bytes, hb⟩ := isIPv6Address_iff.1 h.1.1
      rw [← ht, List.append_assoc, List.singleton_append]
      exact ⟨bytes, .zone hb h.1.2 h.2⟩
    · exact absurd h Bool.false_ne_true
  · rintro ⟨bytes, h⟩
    cases h with
    | plain h =>
      rw [isIPv6, List.splitOn_eq_singleton h.percent_notMem]
      exact isIPv6Address_iff.2 ⟨bytes, h⟩
    | @zone address zone _ h hne hc =>
      have hz : '%' ∉ zone := fun hm => absurd (hc _ hm) (by decide)
      rw [isIPv6, List.splitOn_append_cons_self_of_not_mem h.percent_notMem,
        List.splitOn_eq_singleton hz]
      simp only [Bool.and_eq_true, decide_eq_true_eq, List.all_eq_true]
      exact ⟨⟨isIPv6Address_iff.2 ⟨bytes, h⟩, hne⟩, hc⟩

/-- `isIP` takes exactly the texts that stand for an address. -/
theorem isIP_six_iff : isIP value = 6 ↔ ∃ bytes, Denotes value bytes := by
  rw [← isIPv6_iff]
  unfold isIP
  split
  · next hd =>
    refine ⟨nofun, fun h => ?_⟩
    obtain ⟨bytes, hb⟩ := isIPv6_iff.1 h
    rw [hb.isIPv4_eq] at hd
    exact absurd hd Bool.false_ne_true
  · split
    · next h => exact ⟨fun _ => h, fun _ => rfl⟩
    · next h => exact ⟨nofun, fun h' => absurd h' h⟩

/-! ### What the parser gives -/

/-- No letter in upper case. -/
def Lower (text : List Char) : Prop :=
  ∀ c ∈ text, ¬ (65 ≤ c.toNat ∧ c.toNat ≤ 90)

theorem lower_toLower (text : List Char) : Lower (text.map Char.toLower) := by
  intro c hc
  obtain ⟨d, -, rfl⟩ := List.mem_map.1 hc
  rw [toNat_toLower]
  split <;> omega

theorem isLowerGroup_of (h : isGroup piece = true) (hlow : Lower piece) :
    isLowerGroup piece = true := by
  obtain ⟨hp, hle, hdig⟩ := isGroup_iff.1 h
  simp only [isLowerGroup, Bool.and_eq_true, Bool.or_eq_true, decide_eq_true_eq, List.all_eq_true]
  refine ⟨⟨hp, hle⟩, fun c hc => ?_⟩
  have hn := hlow c hc
  have hs := hdig c hc
  unfold nibble at hs
  split_ifs at hs with hd hl hu
  · exact .inl hd
  · exact .inr hl
  · omega
  · exact absurd hs Bool.false_ne_true

theorem splitGap_cons (h : c ≠ ':') (cs : List Char) :
    splitGap (c :: cs) = (splitGap cs).modifyHead (c :: ·) := by
  rw [splitGap]
  exact fun _ heq => absurd heq h

theorem splitGap_colon (h : c ≠ ':') (cs : List Char) :
    splitGap (':' :: c :: cs) = (splitGap (c :: cs)).modifyHead (':' :: ·) := by
  rw [splitGap]
  exact fun _ _ heq => absurd (List.cons.inj heq).1 h

theorem splitGap_piece (h : ':' ∉ piece) (cs : List Char) :
    splitGap (piece ++ cs) = (splitGap cs).modifyHead (piece ++ ·) := by
  induction piece with
  | nil =>
    show splitGap cs = (splitGap cs).modifyHead id
    rw [List.modifyHead_id, id]
  | cons c piece ih =>
    rw [List.mem_cons, not_or] at h
    rw [List.cons_append, splitGap_cons (Ne.symm h.1), ih h.2, List.modifyHead_modifyHead]
    rfl

/-- Pieces in front have no gap between them. -/
theorem splitGap_pieces {pieces : List (List Char)} (h : Pieces pieces bytes)
    (cs : List Char) : splitGap ([':'].intercalate pieces ++ cs) =
      (splitGap cs).modifyHead ([':'].intercalate pieces ++ ·) := by
  have hcol := h.colon_notMem
  have hne := h.ne_nil
  clear h
  induction pieces with
  | nil =>
    show splitGap cs = (splitGap cs).modifyHead id
    rw [List.modifyHead_id, id]
  | cons piece pieces ih =>
    have hpie := hcol piece List.mem_cons_self
    cases pieces with
    | nil =>
      rw [List.intercalate_singleton]
      exact splitGap_piece hpie cs
    | cons next pieces =>
      have hr := ih (fun p hp => hcol p (List.mem_cons_of_mem _ hp))
        fun p hp => hne p (List.mem_cons_of_mem _ hp)
      obtain ⟨c, next, rfl⟩ := List.exists_cons_of_ne_nil (hne next (by simp))
      have hc : c ≠ ':' := by
        rintro rfl
        exact hcol (':' :: next) (by simp) List.mem_cons_self
      have hs : ∃ tail, [':'].intercalate ((c :: next) :: pieces) = c :: tail := by
        cases pieces with
        | nil => exact ⟨next, List.intercalate_singleton⟩
        | cons _ _ => exact ⟨_, by rw [List.intercalate_cons_cons]; rfl⟩
      obtain ⟨tail, ht⟩ := hs
      rw [ht] at hr
      rw [List.intercalate_cons_cons, ht, List.append_assoc, List.append_assoc, splitGap_piece hpie, List.singleton_append,
        List.cons_append, splitGap_colon hc, ← List.cons_append, hr, List.modifyHead_modifyHead,
        List.modifyHead_modifyHead]
      simp [Function.comp_def]

theorem groupsOf_pieces {pieces : List (List Char)} (h : Pieces pieces bytes) :
    groupsOf ([':'].intercalate pieces) = pieces := by
  cases pieces with
  | nil => rfl
  | cons piece pieces =>
    have hne : [':'].intercalate (piece :: pieces) ≠ [] := by
      obtain ⟨c, cs, rfl⟩ := List.exists_cons_of_ne_nil (h.ne_nil piece List.mem_cons_self)
      cases pieces with
      | nil => simp
      | cons _ _ => simp [List.intercalate_cons_cons]
    rw [groupsOf, if_neg hne, List.splitOn_intercalate ':' h.colon_notMem (List.cons_ne_nil _ _)]

theorem groupBytes_append : ∀ {head rest : List (List Char)} {front behind : List ℕ},
    groupBytes head = some front → groupBytes rest = some behind →
      groupBytes (head ++ rest) = some (front ++ behind) := by
  intro head
  induction head with
  | nil =>
    intro rest front behind hh hr
    cases hh
    exact hr
  | cons group head ih =>
    intro rest front behind hh hr
    rw [groupBytes] at hh
    split_ifs at hh with hg
    obtain ⟨bytes, hb, rfl⟩ := Option.map_eq_some_iff.1 hh
    rw [List.cons_append, groupBytes, if_pos hg, ih hb hr, Option.map_some, List.append_assoc]

theorem groupBytes_zeros (n : ℕ) :
    groupBytes (List.replicate n ['0']) = some (List.replicate (2 * n) 0) := by
  induction n with
  | zero => rfl
  | succ n ih =>
    rw [List.replicate_succ, groupBytes, if_pos (by decide), ih]
    rfl

/-- Groups in lower case are read as their bytes. -/
theorem groupBytes_pieces {pieces : List (List Char)} (h : Pieces pieces bytes)
    (hg : ∀ piece ∈ pieces, isGroup piece = true) (hl : ∀ piece ∈ pieces, Lower piece) :
    groupBytes pieces = some bytes := by
  induction h with
  | nil => rfl
  | group hpie _ ih =>
    rw [groupBytes, if_pos (isLowerGroup_of hpie (hl _ List.mem_cons_self)),
      ih (fun p hp => hg p (List.mem_cons_of_mem _ hp))
        fun p hp => hl p (List.mem_cons_of_mem _ hp), Option.map_some]
  | dotted hpie =>
    have hgro := hg _ (List.mem_singleton_self _)
    rw [isGroup_of_isIPv4 hpie] at hgro
    exact absurd hgro Bool.false_ne_true

theorem mem_intercalate_of_mem : ∀ {pieces : List (List Char)},
    piece ∈ pieces → c ∈ piece → c ∈ [':'].intercalate pieces := by
  intro pieces
  induction pieces with
  | nil => nofun
  | cons first pieces ih =>
    intro hp hc
    cases pieces with
    | nil =>
      rw [List.mem_singleton.1 hp] at hc
      rwa [List.intercalate_singleton]
    | cons next pieces =>
      rw [List.intercalate_cons_cons, List.mem_append, List.mem_append]
      rcases List.mem_cons.1 hp with rfl | hp
      · exact .inl (.inl hc)
      · exact .inr (ih hp hc)

/-- A text without a dot is made of groups. -/
theorem Pieces.groups_of_dot {pieces : List (List Char)} (h : Pieces pieces bytes)
    (hd : '.' ∉ [':'].intercalate pieces) : ∀ piece ∈ pieces, isGroup piece = true := by
  have hpieces : ∀ piece ∈ pieces, '.' ∉ piece := fun piece hpie hm =>
    hd (mem_intercalate_of_mem hpie hm)
  clear hd
  induction h with
  | nil => simp
  | group hpie _ ih =>
    intro p hp
    rcases List.mem_cons.1 hp with rfl | hp
    · exact hpie
    · exact ih (fun q hq => hpieces q (List.mem_cons_of_mem _ hq)) p hp
  | dotted hpie => exact absurd (dot_mem hpie) (hpieces _ (List.mem_singleton_self _))

/-- A text without a dot, in lower case, is read as the bytes it spells. -/
theorem hexBytes_spells {text : List Char} (h : Spells text bytes)
    (hd : '.' ∉ text) (hl : Lower text) : hexBytes text = some bytes := by
  have hr : ∀ {pieces bytes}, Pieces pieces bytes → '.' ∉ [':'].intercalate pieces →
      Lower ([':'].intercalate pieces) → groupBytes pieces = some bytes ∧
        bytes.length = 2 * pieces.length := fun hp hd hl =>
    have hg := hp.groups_of_dot hd
    ⟨groupBytes_pieces hp hg fun piece hpie c hc =>
      hl c (mem_intercalate_of_mem hpie hc), hp.length_of_groups hg⟩
  cases h with
  | @full pieces _ hp hlen =>
    obtain ⟨hbyt, hcou⟩ := hr hp hd hl
    have hs : splitGap ([':'].intercalate pieces) = [[':'].intercalate pieces] := by
      have := splitGap_pieces hp []
      simpa [splitGap] using this
    rw [hexBytes, hs]
    simp only [groupsOf_pieces hp]
    rw [if_pos (by omega), hbyt]
  | @gap head rest front behind _ hh hrest hlen =>
    simp only [List.mem_append, List.mem_cons, not_or] at hd
    obtain ⟨hf, hfrontCount⟩ := hr hh hd.1 fun c hc => hl c (by simp [hc])
    obtain ⟨hb, hbehindCount⟩ := hr hrest hd.2.2.2 fun c hc => hl c (by simp [hc])
    have hs : splitGap ([':'].intercalate head ++ ':' :: ':' :: [':'].intercalate rest) =
        [[':'].intercalate head, [':'].intercalate rest] := by
      have hlast := splitGap_pieces hrest []
      rw [List.append_nil] at hlast
      rw [splitGap_pieces hh, splitGap, hlast]
      simp [splitGap]
    rw [hexBytes, hs]
    simp only [groupsOf_pieces hh, groupsOf_pieces hrest]
    rw [if_neg (by omega), groupBytes_append (groupBytes_append hf (groupBytes_zeros _)) hb,
      show 2 * (8 - (head.length + rest.length)) = 16 - (front.length + behind.length) by omega]

theorem lastPart {front last : List Char} (h : ':' ∉ last) :
    (front ++ ':' :: last).rtakeWhile (· ≠ ':') = last ∧
      (front ++ ':' :: last).rdropWhile (· ≠ ':') = front ++ [':'] := by
  have ha : ∀ c ∈ last.reverse, decide (c ≠ ':') = true := fun c hc =>
    decide_eq_true fun heq => h (heq ▸ List.mem_reverse.1 hc)
  have hr : (front ++ ':' :: last).reverse = last.reverse ++ ':' :: front.reverse := by simp
  constructor
  · rw [List.rtakeWhile, hr, List.takeWhile_append_of_pos ha,
      List.takeWhile_cons_of_neg (by decide), List.append_nil, List.reverse_reverse]
  · rw [List.rdropWhile, hr, List.dropWhile_append_of_pos ha,
      List.dropWhile_cons_of_neg (by decide)]
    simp

/-- A dotted text is the last piece, and two groups of zeros could stand there. -/
theorem Pieces.undot {pieces : List (List Char)} (h : Pieces pieces bytes)
    (hd : '.' ∈ [':'].intercalate pieces) : ∃ lead last front pieces',
      [':'].intercalate pieces = lead ++ last ∧ isIPv4 last = true ∧ '.' ∉ lead ∧
      (lead = [] ∧ front = [] ∨ ∃ l, lead = l ++ [':']) ∧ bytes = front ++ dottedBytes last ∧
      [':'].intercalate pieces' = lead ++ ['0', ':', '0'] ∧ Pieces pieces' (front ++ [0, 0, 0, 0]) := by
  have hz : Pieces [['0'], ['0']] [0, 0, 0, 0] := .group (by decide) (.group (by decide) .nil)
  induction h with
  | nil => exact absurd hd List.not_mem_nil
  | @dotted piece hpie =>
    exact ⟨[], piece, [], [['0'], ['0']], List.intercalate_singleton, hpie, List.not_mem_nil,
      .inl ⟨rfl, rfl⟩, rfl, rfl, hz⟩
  | @group piece pieces bytes hpie hr ih =>
    have hc : '.' ∉ piece := notMem_of_isGroup hpie (by decide)
    cases pieces with
    | nil =>
      rw [List.intercalate_singleton] at hd
      exact absurd hd hc
    | cons next pieces =>
      rw [List.intercalate_cons_cons, List.mem_append, List.mem_append] at hd
      have hb : '.' ∈ [':'].intercalate (next :: pieces) :=
        hd.resolve_left fun h => h.elim hc (by decide)
      obtain ⟨lead, last, front, pieces', ht, hl, hlead, hs, hbyt, ht', hp'⟩ :=
        ih hb
      have hne : pieces' ≠ [] := by
        rintro rfl
        simp at ht'
      refine ⟨piece ++ ':' :: lead, last, [hexNumber piece / 256, hexNumber piece % 256] ++ front,
        piece :: pieces', ?_, hl, ?_, .inr ?_, ?_, ?_, .group hpie hp'⟩
      · rw [List.intercalate_cons_cons, ht]
        simp
      · simp only [List.mem_append, List.mem_cons, not_or]
        exact ⟨hc, by decide, hlead⟩
      · rcases hs with ⟨rfl, -⟩ | ⟨l, rfl⟩
        · exact ⟨piece, rfl⟩
        · exact ⟨piece ++ ':' :: l, by simp⟩
      · rw [hbyt, List.append_assoc]
      · rw [List.intercalate_cons_of_ne_nil hne, ht']
        simp

/-- The dotted tail of an address replaced by zeros. -/
theorem Spells.undot {text : List Char} (h : Spells text bytes)
    (hd : '.' ∈ text) : ∃ front last, text = front ++ ':' :: last ∧ isIPv4 last = true ∧
      '.' ∉ front ∧ Spells (front ++ [':'] ++ ['0', ':', '0']) (bytes.take 12 ++ [0, 0, 0, 0]) ∧
      bytes = bytes.take 12 ++ dottedBytes last := by
  cases h with
  | full hp hlen =>
    obtain ⟨lead, last, front, pieces', ht, hl, hlead, hsha, rfl, ht', hpie'⟩ :=
      hp.undot hd
    have hcou := length_dottedBytes hl
    rw [List.length_append] at hlen
    rcases hsha with ⟨-, rfl⟩ | ⟨l, rfl⟩
    · simp only [List.length_nil] at hlen
      omega
    · have htake : (front ++ dottedBytes last).take 12 = front :=
        List.take_left' (by omega)
      have hs : Spells (l ++ [':'] ++ ['0', ':', '0']) (front ++ [0, 0, 0, 0]) := by
        rw [← ht']
        refine .full hpie' ?_
        simp only [List.length_append, List.length_cons, List.length_nil]
        omega
      rw [htake, ht]
      exact ⟨l, last, by simp, hl, by simpa using hlead, hs, rfl⟩
  | @gap head rest front behind hg hh hr hlen =>
    have hcle : '.' ∉ [':'].intercalate head := fun hm =>
      (Workflows.mem_intercalate hm).elim (by decide) fun ⟨piece, hpiece, hc⟩ =>
        notMem_of_isGroup (hg piece hpiece) (by decide) hc
    simp only [List.mem_append, List.mem_cons, hcle, false_or] at hd
    obtain ⟨lead, last, middle, pieces', ht, hl, hlead, hsha, rfl, ht', hpie'⟩ :=
      hr.undot (hd.resolve_left (by decide) |>.resolve_left (by decide))
    have hcou := length_dottedBytes hl
    rw [List.length_append] at hlen
    have hsum : front.length + (middle ++ [0, 0, 0, 0]).length =
        front.length + (middle ++ dottedBytes last).length := by
      rw [List.length_append, List.length_append, hcou]
      rfl
    have htake : (front ++ List.replicate (16 - (front.length + (middle ++ dottedBytes last).length)) 0 ++
        (middle ++ dottedBytes last)).take 12 = front ++
          List.replicate (16 - (front.length + (middle ++ dottedBytes last).length)) 0 ++ middle := by
      rw [← List.append_assoc]
      refine List.take_left' ?_
      simp only [List.length_append, List.length_replicate]
      omega
    have hs := Spells.gap hg hh hpie' (by rw [hsum, List.length_append]; omega)
    rw [htake, ht]
    rw [ht', hsum] at hs
    rcases hsha with ⟨rfl, rfl⟩ | ⟨l, rfl⟩
    · refine ⟨[':'].intercalate head ++ [':'], last, by simp, hl, by simpa using hcle, ?_, by simp⟩
      simpa using hs
    · refine ⟨[':'].intercalate head ++ ':' :: ':' :: l, last, by simp, hl, ?_, ?_, by simp⟩
      · simp only [List.mem_append, List.mem_cons, not_or] at hlead ⊢
        exact ⟨hcle, by decide, by decide, hlead.1⟩
      · simpa using hs

/-- **The parser gives the bytes a text spells.** -/
theorem ipv6Bytes_spells {text : List Char} (h : Spells text bytes)
    (hlow : Lower text) : ipv6Bytes text = some bytes := by
  by_cases hd : '.' ∈ text
  · obtain ⟨front, last, rfl, hl, hf, hs, hb⟩ := h.undot hd
    have hcol : ':' ∉ last := notMem_of_isIPv4 hl (by decide) (by decide)
    have hcle : '.' ∉ front ++ [':'] ++ ['0', ':', '0'] := by
      simpa using hf
    have hr := hexBytes_spells hs hcle fun c hc => by
      simp only [List.append_assoc, List.mem_append] at hc
      rcases hc with hc | hc | hc
      · exact hlow c (List.mem_append_left _ hc)
      · rw [List.mem_singleton.1 hc]
        decide
      · have hz : Lower ['0', ':', '0'] := List.forall_iff_forall_mem.1 (by decide)
        exact hz c hc
    have ht : (bytes.take 12 ++ [0, 0, 0, 0]).take 12 = bytes.take 12 := by
      rw [List.take_append_of_le_length (by simp [h.length]), List.take_take]
      rfl
    have hlen := hs.length
    rw [ipv6Bytes]
    simp only [(lastPart hcol).1, (lastPart hcol).2, dot_mem hl, if_true,
      show isIP last = 4 by rw [isIP, if_pos hl], hr, Option.map_some, ht]
    rw [List.drop_eq_nil_of_le hlen.le, List.append_nil, ← hb]
  · have hl : '.' ∉ text.rtakeWhile (· ≠ ':') := fun hm =>
      hd ((List.rtakeWhile_suffix _ _).subset hm)
    rw [ipv6Bytes, if_neg hl]
    exact hexBytes_spells h hd hlow

theorem ipv6Bytes_of_denotes (h : Denotes value bytes) :
    ipv6Bytes (withoutZone value) = some bytes := by
  obtain ⟨address, hs, ht⟩ := h.withoutZone_eq
  rw [ht]
  exact ipv6Bytes_spells hs.toLower (lower_toLower address)

/-- The answer depends on the bytes an address stands for only. -/
theorem blockedAddress_of_denotes (h : Denotes value bytes) :
    blockedAddress value = blockedBytes bytes := by
  have hs : isIP value = 6 := isIP_six_iff.2 ⟨bytes, h⟩
  rw [blockedAddress, hs, if_neg (by decide), if_neg (by decide), ipv6Bytes_of_denotes h]

/-! ### What carries an IPv4 address -/

theorem blockedAddress_dotted (hl : v4.length = 4) (hb : ∀ b ∈ v4, b < 256) :
    blockedAddress (dotted v4) = blockedIpv4 (dotted v4) := by
  rw [blockedAddress, isIP, if_pos (isIPv4_dotted hl hb), if_pos rfl]

theorem carried_eq_some (hlen : bytes.length = 16) (h : form.carried bytes = some v4) :
    ∃ rest, bytes = form.lead ++ v4 ++ rest ∧ v4.length = 4 ∧ form.lead.length + 4 + rest.length = 16 := by
  unfold Carrier.carried at h
  split_ifs at h with hl
  obtain ⟨behind, rfl⟩ := hl
  rw [List.drop_left, Option.some.injEq] at h
  rw [List.length_append] at hlen
  have hf : form.lead.length ≤ 12 := by cases form <;> decide
  refine ⟨behind.drop 4, ?_, ?_, ?_⟩
  · rw [← h, List.append_assoc, List.take_append_drop]
  · rw [← h, List.length_take]
    omega
  · rw [List.length_drop]
    omega

/-- An address of four bytes, in front of others. -/
theorem four_bytes (h : v4.length = 4) : ∃ a b c d, v4 = [a, b, c, d] := by
  match v4, h with
  | [a, b, c, d], _ => exact ⟨a, b, c, d, rfl⟩

/-- **The forms the block looks at** answer as the address they carry, or always. -/
theorem blockedBytes_carried (hl : bytes.length = 16)
    (hf : form ≠ .translated) (h : form.carried bytes = some v4)
    (hv4 : blockedIpv4 (dotted v4) = true) : blockedBytes bytes = true := by
  obtain ⟨rest, rfl, hfour, hr⟩ := carried_eq_some hl h
  obtain ⟨a, b, c, d, rfl⟩ := four_bytes hfour
  cases form with
  | translated => exact absurd rfl hf
  | sixToFour =>
    simpa [blockedBytes, zeroBytes, embedded, Carrier.lead] using hv4
  | mapped =>
    obtain rfl : rest = [] := List.eq_nil_of_length_eq_zero (by simpa [Carrier.lead] using hr)
    simpa [blockedBytes, zeroBytes, embedded, Carrier.lead] using hv4
  | compatible =>
    obtain rfl : rest = [] := List.eq_nil_of_length_eq_zero (by simpa [Carrier.lead] using hr)
    simp [blockedBytes, zeroBytes, Carrier.lead]
  | nat64 =>
    obtain rfl : rest = [] := List.eq_nil_of_length_eq_zero (by simpa [Carrier.lead] using hr)
    simpa [blockedBytes, zeroBytes, embedded, Carrier.lead] using hv4

/-- **An IPv4-translated address is never blocked**, whatever it carries. -/
theorem blockedBytes_translated (hl : bytes.length = 16)
    (h : Carrier.translated.carried bytes = some v4) : blockedBytes bytes = false := by
  obtain ⟨rest, rfl, hf, hr⟩ := carried_eq_some hl h
  obtain ⟨a, b, c, d, rfl⟩ := four_bytes hf
  simp [blockedBytes, zeroBytes, Carrier.lead]

/-- **The block sees through an address** unless it is the translated form of an
IPv4 address that is blocked. -/
theorem block_sees_through_exact (value : List Char) :
    SeesThrough value ↔ ∀ bytes v4, Denotes value bytes →
      Carrier.translated.carried bytes = some v4 → blockedAddress (dotted v4) = false := by
  constructor
  · intro h bytes v4 hv hc
    by_contra hblo
    have ht := h.carries bytes .translated v4 hv hc (Bool.eq_true_of_not_eq_false hblo)
    rw [blockedAddress_of_denotes hv, blockedBytes_translated hv.length hc] at ht
    exact Bool.false_ne_true ht
  · intro h
    refine ⟨isIP_six_iff, fun bytes hv => ⟨hv.length, hv.lt, ipv6Bytes_of_denotes hv⟩,
      fun other bytes hv ho => ?_, fun bytes form v4 hv hc hblo => ?_⟩
    · rw [blockedAddress_of_denotes hv, blockedAddress_of_denotes ho]
    · by_cases hf : form = .translated
      · rw [hf] at hc
        rw [h bytes v4 hv hc] at hblo
        exact absurd hblo Bool.false_ne_true
      · obtain ⟨rest, hbyt, hfour, -⟩ := carried_eq_some hv.length hc
        have hv4 : ∀ b ∈ v4, b < 256 := fun b hb => hv.lt b (by rw [hbyt]; simp [hb])
        rw [blockedAddress_dotted hfour hv4] at hblo
        rw [blockedAddress_of_denotes hv]
        exact blockedBytes_carried hv.length hf hc hblo

/-- `::ffff:0:127.0.0.1` reaches the loopback address through a translator. -/
theorem block_translated_loopback : ¬ ∀ value, SeesThrough value := by
  intro h
  have hd : Pieces [['f', 'f', 'f', 'f'], ['0'], "127.0.0.1".toList]
      [0xff, 0xff, 0, 0, 127, 0, 0, 1] :=
    .group (by decide) (.group (by decide) (.dotted (by decide)))
  have hv : Denotes "::ffff:0:127.0.0.1".toList
      [0, 0, 0, 0, 0, 0, 0, 0, 0xff, 0xff, 0, 0, 127, 0, 0, 1] :=
    .plain (.gap (by simp) .nil hd (by decide))
  exact absurd ((h _).carries _ .translated [127, 0, 0, 1] hv (by decide) (by decide)) (by decide)

end Flowdular.Connectors
