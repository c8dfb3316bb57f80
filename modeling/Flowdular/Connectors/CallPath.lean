/-
# The path of a call

`src/modules/connectors/src/services/call-service.ts`, lines 148-272 (`encodePath`,
`templateValue`, `expandPath`, `queryParameters`, `requestBody`, `prepareRequest`).

A call input supplies values, never the shape of the path: a value at `{name}` is one
escaped segment, a value at `{+name}` a whole path, and the URL parser, which resolves
dot segments and a second slash, is to leave what was written alone or the call is
refused.  The docstring says that the function builds the target or refuses.

It does where the values are well-formed text and the written path is `Straight`, leads
elsewhere and is refused for that, or is refused for its query or its body
(`path_keeps_shape_exact`).  A lone surrogate makes `encodeURIComponent` throw, and behind
a base URL without a path a value that begins with two slashes is read as an authority.
-/

import Flowdular.Connectors.AddressBlock
import Flowdular.Lib.UrlPath

namespace Flowdular.Connectors

open Lib
open UrlPath (Base Url UrlHost Straight encode isDots percentChar resolve)

/-! ### Inputs -/

/-- A text of an input: its characters, and lone surrogates as `none`. -/
abbrev InputText :=
  List (Option Char)

/-- A value of an input, as far as a call reads it. -/
inductive InputValue
  | undefined
  | null
  | text (value : InputText)
  /-- A number or a boolean, with `String(value)`. -/
  | scalar (written : InputText)
  /-- The entries of an object. -/
  | object (entries : List (InputText × InputValue))
  | other

/-- `JSON.stringify`, `none` where it throws or gives nothing. -/
class CallHost extends UrlHost where
  stringify : InputValue → Option String

inductive ConnectorMethod
  | get
  | post
  | put
  | patch
  | delete
  deriving DecidableEq

/-- What a call reads of a `ConnectorOperation`. -/
structure ConnectorOperation where
  method : ConnectorMethod
  path : List Char

/-- What `prepareRequest` throws. -/
inductive Thrown
  | callRefusal (outcome errorClass : String)
  | uriError
  | typeError
  deriving DecidableEq

def invalidInput : Thrown :=
  .callRefusal "refused" "invalid-input"

/-! ### Values -/

def utf16Length (text : InputText) : ℕ :=
  (text.map fun c => if c.any fun c => 0x10000 ≤ c.toNat then 2 else 1).sum

/-- `value.trim()`. -/
def trimText (text : InputText) : InputText :=
  (text.dropWhile (·.any Workflows.isWhiteSpace)).rdropWhile (·.any Workflows.isWhiteSpace)

/-- `/[\u0000-\u001f\u007f]/`. -/
def isControl (c : Char) : Bool :=
  c.toNat ≤ 0x1f || c.toNat == 0x7f

/-- Whether a trimmed value may stand in a path. -/
def valueAccepted (value : InputText) : Bool :=
  value ≠ [] && utf16Length value ≤ 1024 && !value.any (·.any isControl) &&
    (value.splitOn (some '/')).all fun segment =>
      segment ≠ [some '.'] && segment ≠ [some '.', some '.']

def templateValue : InputValue → Except Thrown InputText
  | .text value => if valueAccepted (trimText value) then .ok (trimText value) else .error invalidInput
  | _ => .error invalidInput

/-- What `encodeURIComponent` leaves as it is. -/
def isUnreserved (c : Char) : Bool :=
  c.isAlphanum || c ∈ ['-', '_', '.', '!', '~', '*', '(', ')'] || c.toNat == 0x27

/-- `encodeURIComponent` of a text that is well-formed. -/
def escaped (text : List Char) : List Char :=
  text.flatMap fun c => if isUnreserved c then [c] else percentChar c

/-- The characters of a text without a lone surrogate. -/
def wellFormed : InputText → Option (List Char)
  | [] => some []
  | none :: _ => none
  | some c :: text => (wellFormed text).map (c :: ·)

def encodeURIComponent (text : InputText) : Except Thrown (List Char) :=
  match wellFormed text with
  | some chars => .ok (escaped chars)
  | none => .error .uriError

/-- `encodePath`: every segment, in order. -/
def encodePath (value : InputText) : Except Thrown (List Char) :=
  ((value.splitOn (some '/')).mapM encodeURIComponent).map ['/'].intercalate

/-! ### Templates -/

/-- A piece of a template: `{name}`, `{+name}`, or a character that is neither. -/
inductive Piece
  | literal (c : Char)
  | segment (name : String)
  | path (name : String)
  deriving DecidableEq

def isNameChar (c : Char) : Bool :=
  c.isAlphanum || c == '_'

/-- A placeholder behind its opening brace, with what follows it. -/
def placeholder? (cs : List Char) : Option (Piece × List Char) :=
  let reserved := cs.head? == some '+'
  let name := if reserved then cs.tail else cs
  if name.head?.any Workflows.isLowerLetter && (name.dropWhile isNameChar).head?.any (·.toNat == 0x7d) then
    let word := String.ofList (name.takeWhile isNameChar)
    some (if reserved then .path word else .segment word, (name.dropWhile isNameChar).tail)
  else none

/-- The matches of `/\{(\+?)([a-z][a-zA-Z0-9_]*)\}/g` and what is between them. -/
def piecesFrom : ℕ → List Char → List Piece
  | 0, _ => []
  | _, [] => []
  | n + 1, c :: cs =>
    match if c.toNat = 0x7b then placeholder? cs else none with
    | some (piece, rest) => piece :: piecesFrom n rest
    | none => .literal c :: piecesFrom n cs

def pieces (template : List Char) : List Piece :=
  piecesFrom template.length template

variable (input : String → InputValue)

/-- Whether a value at `{+name}` is a path. -/
def isPathValue (value : InputText) : Bool :=
  value.head? == some (some '/') && !value.any (·.any fun c => c.toNat == 0x3f || c.toNat == 0x23)

/-- The replacement of one match. -/
def expandPiece : Piece → Except Thrown (List Char)
  | .literal c => .ok [c]
  | .segment name =>
    match templateValue (input name) with
    | .ok value => encodeURIComponent value
    | .error thrown => .error thrown
  | .path name =>
    match templateValue (input name) with
    | .ok value => if isPathValue value then encodePath value else .error invalidInput
    | .error thrown => .error thrown

def expandPieces : List Piece → Except Thrown (List Char)
  | [] => .ok []
  | piece :: rest =>
    match expandPiece input piece with
    | .ok text => (expandPieces rest).map (text ++ ·)
    | .error thrown => .error thrown

def expandPath (template : List Char) : Except Thrown (List Char) :=
  expandPieces input (pieces template)

/-! ### Query and body -/

def maxQueryParameters : ℕ :=
  32

def maxRequestBytes : ℕ :=
  256 * 1024

/-- A parameter of a query, with its value as text. -/
def queryParameter : InputText × InputValue → Option (InputText × InputText)
  | (key, .text text) | (key, .scalar text) =>
    if key ≠ [] ∧ utf16Length key ≤ 64 ∧ utf16Length text ≤ 1024 then some (key, text) else none
  | _ => none

def queryAccepted : InputValue → Bool
  | .undefined | .null => true
  | .object entries => entries.length ≤ maxQueryParameters && entries.all (queryParameter · |>.isSome)
  | _ => false

def queryParameters (value : InputValue) : Except Thrown (List (InputText × InputText)) :=
  if queryAccepted value then
    match value with
    | .object entries => .ok (entries.filterMap queryParameter)
    | _ => .ok []
  else .error invalidInput

section

variable [CallHost]

/-- Whether a method sends a body at all, and the body can be sent. -/
def bodyAccepted (method : ConnectorMethod) (body : InputValue) : Bool :=
  method == .get || method == .delete || match body with
    | .undefined => true
    | body => (CallHost.stringify body).any (·.utf8ByteSize ≤ maxRequestBytes)

def requestBody (operation : ConnectorOperation) : Except Thrown (Option String) :=
  if bodyAccepted operation.method (input "body") then
    if operation.method = .get ∨ operation.method = .delete then .ok none
    else
      match input "body" with
      | .undefined => .ok none
      | body => .ok (CallHost.stringify body)
  else .error invalidInput

/-- `base.pathname.replace(/\/+$/, '')`. -/
def basePrefix (base : Base) : List Char :=
  (UrlPath.pathname base.segments).rdropWhile (· = '/')

/-- Whether a target has left the origin or the path of its base. -/
def elsewhere (base : Base) (target : Url) : Bool :=
  target.origin ≠ base.origin || !(basePrefix base).isPrefixOf target.pathname

structure PreparedRequest where
  target : Url
  /-- What is appended to `searchParams`. -/
  parameters : List (InputText × InputText)
  body : Option String

def prepareRequest (base : Base) (operation : ConnectorOperation) : Except Thrown PreparedRequest := do
  let expanded ← expandPath input operation.path
  match resolve base (basePrefix base ++ expanded) with
  | none => .error .typeError
  | some target =>
    if elsewhere base target then .error invalidInput
    else do
      let parameters ← queryParameters (input "query")
      let body ← requestBody input operation
      return { target, parameters, body }

end

/-! ### What a path is made of -/

/-- The value of a hexadecimal pair. -/
def hexPair (high low : Char) : Option UInt8 :=
  match nibble high, nibble low with
  | some h, some l => some (UInt8.ofNat (16 * h + l))
  | _, _ => none

/-- The bytes of an escaped text in ASCII. -/
def unescapedBytes : List Char → Option (List UInt8)
  | [] => some []
  | '%' :: high :: low :: cs =>
    match hexPair high low with
    | some b => (unescapedBytes cs).map (b :: ·)
    | none => none
  | '%' :: _ => none
  | c :: cs => (unescapedBytes cs).map (UInt8.ofNat c.toNat :: ·)

/-- `decodeURIComponent` of a text in ASCII. -/
def decodeURIComponent (text : List Char) : Option (List Char) :=
  (unescapedBytes text).bind fun bytes => (bytes.toByteArray.utf8Decode?).map (·.toList)

/-- A text is one segment, which says a value. -/
structure Segment (value : InputText) (text : List Char) : Prop where
  written : ∃ chars, value = chars.map some ∧ text = escaped chars ∧ decodeURIComponent text = some chars
  one : '/' ∉ text
  plain : isDots text = false

/-- What a piece of a template is in the path. -/
inductive Contributes : Piece → List Char → Prop
  | literal (c : Char) : Contributes (.literal c) (encode [c])
  | segment {name value text} (hvalue : input name = .text value) (h : Segment (trimText value) text) :
      Contributes (.segment name) text
  | path {name value texts} (hvalue : input name = .text value)
      (h : List.Forall₂ Segment ((trimText value).splitOn (some '/')) texts) :
      Contributes (.path name) (['/'].intercalate texts)

/-- A call is refused, or its target has the shape of its template. -/
structure KeepsShape [CallHost] (base : Base) (operation : ConnectorOperation) : Prop where
  refuses : ∀ thrown, prepareRequest input base operation = .error thrown → thrown = invalidInput
  origin : ∀ request, prepareRequest input base operation = .ok request →
    request.target.origin = base.origin
  path : ∀ request, prepareRequest input base operation = .ok request → ∃ texts,
    List.Forall₂ (Contributes input) (pieces operation.path) texts ∧
      request.target.pathname = basePrefix base ++ texts.flatten

/-! ### The condition -/

/-- A value that is refused. -/
def pieceRefused : Piece → Bool
  | .literal _ => false
  | .segment name =>
    match input name with
    | .text value => !valueAccepted (trimText value)
    | _ => true
  | .path name =>
    match input name with
    | .text value => !(valueAccepted (trimText value) && isPathValue (trimText value))
    | _ => true

/-- A value with a lone surrogate. -/
def pieceMalformed : Piece → Bool
  | .literal _ => false
  | .segment name | .path name =>
    match input name with
    | .text value => (wellFormed (trimText value)).isNone
    | _ => false

/-- The characters of a trimmed value. -/
def charsOf (name : String) : List Char :=
  match input name with
  | .text value => (wellFormed (trimText value)).getD []
  | _ => []

/-- A piece as it is written. -/
def written : Piece → List Char
  | .literal c => [c]
  | .segment name => escaped (charsOf input name)
  | .path name => ['/'].intercalate (((charsOf input name).splitOn '/').map escaped)

/-- The base path and behind it the written template. -/
def writtenPath (base : Base) (template : List Char) : List Char :=
  basePrefix base ++ (pieces template).flatMap (written input)

/-- The first value that is not fine is refused, or all are fine and the written path is
one that resolution leaves alone or that is refused behind it. -/
def Bearable [CallHost] (base : Base) (operation : ConnectorOperation) : Prop :=
  match (pieces operation.path).find? fun piece => pieceRefused input piece || pieceMalformed input piece with
  | some piece => pieceRefused input piece = true
  | none => ∃ target, resolve base (writtenPath input base operation.path) = some target ∧
      (Straight (writtenPath input base operation.path) ∨ elsewhere base target = true ∨
        queryAccepted (input "query") = false ∨ bodyAccepted operation.method (input "body") = false)

/-! ### Escaped texts -/

variable {n : ℕ} {c d : Char} {b : UInt8} {cs : List Char} {l : List (List Char)}

theorem nibble_hexUpper (h : n < 16) : nibble (UrlPath.hexUpper n) = some n := by
  have ha : ∀ i : Fin 16, nibble (UrlPath.hexUpper i) = some (i : ℕ) := by decide
  exact ha ⟨n, h⟩

theorem hexUpper_plain (h : n < 16) :
    UrlPath.inPathSet (UrlPath.hexUpper n) = false ∧ UrlPath.hexUpper n ≠ '/' := by
  have ha : ∀ i : Fin 16, UrlPath.inPathSet (UrlPath.hexUpper i) = false ∧
      UrlPath.hexUpper i ≠ '/' := by decide
  exact ha ⟨n, h⟩

theorem lt_of_isAlphanum (h : c.isAlphanum = true) :
    48 ≤ c.toNat ∧ c.toNat ≤ 57 ∨ 65 ≤ c.toNat ∧ c.toNat ≤ 90 ∨ 97 ≤ c.toNat ∧ c.toNat ≤ 122 := by
  have hd : c.isDigit = true ↔ 48 ≤ c.toNat ∧ c.toNat ≤ 57 := Char.isDigit_iff_toNat
  have hu : c.isUpper = true ↔ 65 ≤ c.toNat ∧ c.toNat ≤ 90 := by
    show decide (65 ≤ c.val ∧ c.val ≤ 90) = true ↔ _
    simp [UInt32.le_iff_toNat_le]
  have hl : c.isLower = true ↔ 97 ≤ c.toNat ∧ c.toNat ≤ 122 := by
    show (decide (97 ≤ c.val) && decide (c.val ≤ 122)) = true ↔ _
    simp [UInt32.le_iff_toNat_le]
  change (c.isUpper || c.isLower || c.isDigit) = true at h
  rw [Bool.or_eq_true, Bool.or_eq_true, hd, hu, hl] at h
  omega

/-- An unreserved character is in ASCII and outside the path set. -/
theorem isUnreserved_plain (h : isUnreserved c = true) :
    UrlPath.inPathSet c = false ∧ c ≠ '/' ∧ c ≠ '%' ∧ c.toNat ≤ 127 := by
  have hc : c.toNat ∈ [0x2d, 0x5f, 0x2e, 0x21, 0x7e, 0x2a, 0x28, 0x29, 0x27] ∨
      c.isAlphanum = true := by
    simp only [isUnreserved, Bool.or_eq_true, decide_eq_true_eq, beq_iff_eq] at h
    rcases h with (h | h) | h
    · exact .inr h
    · left
      simp only [List.mem_cons, List.not_mem_nil, or_false] at h
      rcases h with rfl | rfl | rfl | rfl | rfl | rfl | rfl | rfl <;> decide
    · exact .inl (by simp [h])
  have hr : c.toNat ≠ 0x2f ∧ c.toNat ≠ 0x25 ∧ 0x20 < c.toNat ∧ c.toNat ≤ 0x7e ∧
      c.toNat ∉ [0x22, 0x23, 0x3c, 0x3e, 0x3f, 0x5e, 0x60, 0x7b, 0x7d] := by
    simp only [List.mem_cons, List.not_mem_nil, or_false] at hc ⊢
    rcases hc with hc | hc
    · omega
    · have := lt_of_isAlphanum hc
      omega
  refine ⟨?_, ?_, ?_, ?_⟩
  · simp only [UrlPath.inPathSet, Bool.or_eq_false_iff, decide_eq_false_iff_not]
    exact ⟨⟨by omega, by omega⟩, hr.2.2.2.2⟩
  · rintro rfl
    exact hr.1 rfl
  · rintro rfl
    exact hr.2.1 rfl
  · omega

/-- Only a full stop is encoded with the byte of one. -/
theorem first_byte {bs : List UInt8} (h : String.utf8EncodeChar c = b :: bs)
    (hb : b.toNat = 0x2e) : c = '.' := by
  unfold String.utf8EncodeChar at h
  have hv : c.val.toNat = c.toNat := rfl
  simp only [hv] at h
  split_ifs at h with h₁ h₂ h₃ <;> (rw [List.cons.injEq] at h; rw [← h.1, UInt8.toNat_ofNat'] at hb)
  · refine Char.toNat_inj.1 (show c.toNat = 0x2e from ?_)
    omega
  all_goals omega

theorem mem_percentChar (h : d ∈ percentChar c) : UrlPath.inPathSet d = false ∧ d ≠ '/' := by
  obtain ⟨b, -, hd⟩ := List.mem_flatMap.1 h
  have := b.toNat_lt
  simp only [List.mem_cons, List.not_mem_nil, or_false] at hd
  rcases hd with rfl | rfl | rfl
  · decide
  · exact hexUpper_plain (by omega)
  · exact hexUpper_plain (by omega)

theorem mem_escaped {text : List Char} (h : d ∈ escaped text) :
    UrlPath.inPathSet d = false ∧ d ≠ '/' := by
  obtain ⟨c, -, hd⟩ := List.mem_flatMap.1 h
  split at hd
  · next hc =>
    rw [List.mem_singleton.1 hd]
    exact ⟨(isUnreserved_plain hc).1, (isUnreserved_plain hc).2.1⟩
  · exact mem_percentChar hd

theorem encode_eq_self {text : List Char} (h : ∀ c ∈ text, UrlPath.inPathSet c = false) :
    encode text = text := by
  induction text with
  | nil => rfl
  | cons c text ih =>
    rw [UrlPath.encode_cons, UrlPath.encodeChar, h c List.mem_cons_self, if_neg Bool.false_ne_true,
      ih fun d hd => h d (List.mem_cons_of_mem _ hd)]
    rfl

theorem unescapedBytes_percent (bs : List UInt8) (rest : List Char) :
    unescapedBytes (bs.flatMap (fun b => ['%', UrlPath.hexUpper (b.toNat / 16),
      UrlPath.hexUpper (b.toNat % 16)]) ++ rest) = (unescapedBytes rest).map (bs ++ ·) := by
  induction bs with
  | nil =>
    show unescapedBytes rest = (unescapedBytes rest).map id
    rw [Option.map_id, id]
  | cons b bs ih =>
    have hb := b.toNat_lt
    have hp : hexPair (UrlPath.hexUpper (b.toNat / 16)) (UrlPath.hexUpper (b.toNat % 16)) = some b := by
      rw [hexPair, nibble_hexUpper (by omega), nibble_hexUpper (by omega)]
      exact congrArg some (UInt8.toNat_inj.1 (by rw [UInt8.toNat_ofNat']; omega))
    rw [List.flatMap_cons, List.append_assoc]
    simp only [List.cons_append, List.nil_append, unescapedBytes, hp, ih, Option.map_map]
    rfl

theorem unescapedBytes_escaped (text : List Char) :
    unescapedBytes (escaped text) = some (text.flatMap String.utf8EncodeChar) := by
  induction text with
  | nil => rfl
  | cons c text ih =>
    rw [escaped, List.flatMap_cons, ← escaped, List.flatMap_cons]
    split
    · next hc =>
      obtain ⟨-, -, hp, ha⟩ := isUnreserved_plain hc
      have ho : String.utf8EncodeChar c = [UInt8.ofNat c.toNat] := by
        unfold String.utf8EncodeChar
        exact if_pos ha
      rw [List.singleton_append, unescapedBytes, ih, Option.map_some, ho]
      · rfl
      · exact fun _ _ _ heq => absurd heq hp
      · exact fun heq => absurd heq hp
    · rw [percentChar, unescapedBytes_percent, ih, Option.map_some]

/-- **An escaped text is decoded to the text.** -/
theorem decodeURIComponent_escaped (text : List Char) :
    decodeURIComponent (escaped text) = some text := by
  have hd : text.utf8Encode.utf8Decode? = some text.toArray := List.utf8Decode?_utf8Encode
  rw [decodeURIComponent, unescapedBytes_escaped, Option.bind_some]
  rw [List.utf8Encode] at hd
  rw [hd]
  rfl

theorem dotCount_of_ne (hd : c ≠ '.') (hp : c ≠ '%') : UrlPath.dotCount (c :: cs) = none := by
  rw [UrlPath.dotCount]
  · exact fun heq => absurd heq (List.cons_ne_nil _ _)
  · exact fun _ heq => hd (List.cons.inj heq).1
  · exact fun _ _ heq => hp (List.cons.inj heq).1

/-- A byte is a dot of a segment only where it is that of a full stop. -/
theorem dotCount_percent (h : b.toNat ≠ 0x2e) :
    UrlPath.dotCount ('%' :: UrlPath.hexUpper (b.toNat / 16) :: UrlPath.hexUpper (b.toNat % 16) :: cs) =
      none := by
  have hb := b.toNat_lt
  have ht : ∀ i : Fin 16, UrlPath.hexUpper i = '2' → (i : ℕ) = 2 := by decide
  have hl : ∀ i : Fin 16, UrlPath.hexUpper i = 'e' ∨ UrlPath.hexUpper i = 'E' → (i : ℕ) = 14 := by
    decide
  by_cases hh : UrlPath.hexUpper (b.toNat / 16) = '2'
  · have hlow : ¬ (UrlPath.hexUpper (b.toNat % 16) = 'e' ∨ UrlPath.hexUpper (b.toNat % 16) = 'E') := by
      intro hlow
      have h₁ := ht ⟨b.toNat / 16, by omega⟩ hh
      have h₂ := hl ⟨b.toNat % 16, by omega⟩ hlow
      simp only at h₁ h₂
      omega
    rw [hh, UrlPath.dotCount, if_neg hlow]
  · rw [UrlPath.dotCount]
    · exact fun heq => absurd heq (List.cons_ne_nil _ _)
    · exact fun _ heq => absurd (List.cons.inj heq).1 (by decide)
    · exact fun _ _ heq => hh (List.cons.inj (List.cons.inj heq).2).1

/-- Only full stops are escaped to dots. -/
theorem dots_of_escaped : ∀ {text : List Char} {n : ℕ}, UrlPath.dotCount (escaped text) = some n →
    text = List.replicate n '.' := by
  intro text
  induction text with
  | nil =>
    intro n h
    cases h
    rfl
  | cons c text ih =>
    intro n h
    rw [escaped, List.flatMap_cons, ← escaped] at h
    split at h
    · next hc =>
      by_cases hd : c = '.'
      · subst hd
        rw [List.singleton_append, UrlPath.dotCount] at h
        obtain ⟨m, hm, rfl⟩ := Option.map_eq_some_iff.1 h
        rw [ih hm, List.replicate_succ]
      · rw [List.singleton_append, dotCount_of_ne hd (isUnreserved_plain hc).2.2.1] at h
        cases h
    · next hc =>
      obtain ⟨b, bs, hbs⟩ := List.exists_cons_of_ne_nil (String.utf8EncodeChar_ne_nil (c := c))
      have hb : b.toNat ≠ 0x2e := fun hb => hc (first_byte hbs hb ▸ by decide)
      rw [percentChar, hbs, List.flatMap_cons, List.append_assoc] at h
      simp only [List.cons_append, List.nil_append] at h
      rw [dotCount_percent hb] at h
      cases h

/-- An accepted value has no dot segment, escaped or not. -/
theorem isDots_escaped {text : List Char} (ho : text ≠ ['.']) (ht : text ≠ ['.', '.']) :
    isDots (escaped text) = false := by
  simp only [isDots, Bool.or_eq_false_iff, beq_eq_false_iff_ne]
  exact ⟨fun h => ho (dots_of_escaped h), fun h => ht (dots_of_escaped h)⟩

/-! ### Values and pieces -/

theorem wellFormed_eq_some {text : InputText} : ∀ {chars : List Char},
    wellFormed text = some chars ↔ text = chars.map some := by
  induction text with
  | nil =>
    intro chars
    cases chars <;> simp [wellFormed]
  | cons c text ih =>
    intro chars
    cases c with
    | none => cases chars <;> simp [wellFormed]
    | some c =>
      cases chars with
      | nil => simp [wellFormed]
      | cons d chars =>
        simp only [wellFormed, Option.map_eq_some_iff, ih, List.map_cons, List.cons.injEq,
          Option.some.injEq]
        constructor
        · rintro ⟨_, rfl, rfl, rfl⟩
          exact ⟨rfl, rfl⟩
        · rintro ⟨rfl, rfl⟩
          exact ⟨chars, rfl, rfl, rfl⟩

theorem wellFormed_eq_none {text : InputText} : wellFormed text = none ↔ none ∈ text := by
  induction text with
  | nil => simp [wellFormed]
  | cons c text ih =>
    cases c with
    | none => simp [wellFormed]
    | some c => simp [wellFormed, ih]

theorem encodeURIComponent_some (chars : List Char) :
    encodeURIComponent (chars.map some) = .ok (escaped chars) := by
  rw [encodeURIComponent, wellFormed_eq_some.2 rfl]

theorem splitOn_map_some (chars : List Char) :
    (chars.map some).splitOn (some '/') = (chars.splitOn '/').map (·.map some) := by
  induction chars with
  | nil => rfl
  | cons c chars ih =>
    rw [List.map_cons, List.splitOn_cons_eq_if_modifyHead, List.splitOn_cons_eq_if_modifyHead, ih]
    have hc : (some c == some '/') = (c == '/') := by simp
    rw [hc]
    split
    · rfl
    · cases chars.splitOn '/' <;> rfl

theorem encodePath_some (chars : List Char) :
    encodePath (chars.map some) = .ok (['/'].intercalate ((chars.splitOn '/').map escaped)) := by
  have hm : ∀ l : List (List Char),
      (l.map (·.map some)).mapM encodeURIComponent = .ok (l.map escaped) := by
    intro l
    induction l with
    | nil => rfl
    | cons chars l ih =>
      rw [List.map_cons, List.mapM_cons, encodeURIComponent_some, ih]
      rfl
  rw [encodePath, splitOn_map_some, hm]
  rfl

theorem encodePath_none {value : InputText} (h : none ∈ value) :
    encodePath value = .error .uriError := by
  have hm : ∀ l : List InputText, (∃ segment ∈ l, none ∈ segment) →
      l.mapM encodeURIComponent = .error .uriError := by
    intro l
    induction l with
    | nil => simp
    | cons segment l ih =>
      rintro ⟨s, hs, hn⟩
      rw [List.mapM_cons, encodeURIComponent]
      cases hw : wellFormed segment with
      | none => rfl
      | some chars =>
        rcases List.mem_cons.1 hs with rfl | hs
        · rw [wellFormed_eq_none.2 hn] at hw
          exact nomatch hw
        · show (do let texts ← l.mapM encodeURIComponent; pure (escaped chars :: texts)) = _
          rw [ih ⟨s, hs, hn⟩]
          rfl
  have ht : [some '/'].intercalate (value.splitOn (some '/')) = value := List.intercalate_splitOn _
  rw [← ht] at h
  rw [encodePath, hm _ ((Workflows.mem_intercalate h).resolve_left nofun)]
  rfl

/-- A piece is refused, throws, or is replaced by what is written. -/
theorem expandPiece_eq (piece : Piece) : expandPiece input piece =
    if pieceRefused input piece then .error invalidInput
    else if pieceMalformed input piece then .error .uriError else .ok (written input piece) := by
  cases piece with
  | literal c => rfl
  | segment name =>
    rw [expandPiece, pieceRefused, pieceMalformed, written, charsOf]
    cases hv : input name with
    | text value =>
      simp only [templateValue]
      by_cases ha : valueAccepted (trimText value) = true
      · simp only [ha, if_true, Bool.not_true, Bool.false_eq_true, if_false, encodeURIComponent]
        cases wellFormed (trimText value) <;> rfl
      · simp [ha]
    | _ => rfl
  | path name =>
    rw [expandPiece, pieceRefused, pieceMalformed, written, charsOf]
    cases hv : input name with
    | text value =>
      simp only [templateValue]
      by_cases ha : valueAccepted (trimText value) = true
      · by_cases hp : isPathValue (trimText value) = true
        · simp only [ha, hp, if_true, Bool.and_true, Bool.not_true, Bool.false_eq_true, if_false]
          cases hw : wellFormed (trimText value) with
          | none => exact encodePath_none (wellFormed_eq_none.1 hw)
          | some chars =>
            rw [wellFormed_eq_some.1 hw]
            exact encodePath_some chars
        · simp [ha, hp]
      · simp [ha]
    | _ => rfl

theorem expandPieces_eq : ∀ ps : List Piece, expandPieces input ps =
    match ps.find? fun piece => pieceRefused input piece || pieceMalformed input piece with
    | some piece => .error (if pieceRefused input piece then invalidInput else .uriError)
    | none => .ok (ps.flatMap (written input)) := by
  intro ps
  induction ps with
  | nil => rfl
  | cons piece ps ih =>
    rw [expandPieces, expandPiece_eq, List.find?_cons]
    cases hr : pieceRefused input piece with
    | true => simp [hr]
    | false =>
      cases hm : pieceMalformed input piece with
      | true => simp [hr]
      | false =>
        simp only [Bool.or_self, Bool.false_eq_true, if_false, ih, List.flatMap_cons]
        cases ps.find? fun piece => pieceRefused input piece || pieceMalformed input piece <;> rfl

theorem valueAccepted_segments {chars : List Char} (h : valueAccepted (chars.map some) = true) :
    ∀ segment ∈ chars.splitOn '/', isDots (escaped segment) = false := by
  simp only [valueAccepted, Bool.and_eq_true, List.all_eq_true, decide_eq_true_eq, splitOn_map_some] at h
  intro segment hs
  have hp := h.2 _ (List.mem_map_of_mem hs)
  refine isDots_escaped (fun heq => hp.1 ?_) fun heq => hp.2 ?_ <;>
    · rw [heq]
      rfl

theorem valueAccepted_whole {chars : List Char} (h : valueAccepted (chars.map some) = true) :
    isDots (escaped chars) = false := by
  refine isDots_escaped ?_ ?_ <;>
    · rintro rfl
      exact absurd h (by decide)

theorem segment_escaped {chars : List Char} (h : isDots (escaped chars) = false) :
    Segment (chars.map some) (escaped chars) where
  written := ⟨chars, rfl, rfl, decodeURIComponent_escaped chars⟩
  one hs := (mem_escaped hs).2 rfl
  plain := h

theorem Segment.eq {chars text : List Char} (h : Segment (chars.map some) text) : text = escaped chars := by
  obtain ⟨others, heq, ht, -⟩ := h.written
  rw [ht, List.map_injective_iff.2 (Option.some_injective _) heq]

theorem segments_eq {texts : List (List Char)}
    (h : List.Forall₂ (fun chars => Segment (chars.map some)) l texts) : texts = l.map escaped := by
  induction h with
  | nil => rfl
  | cons hs _ ih => rw [List.map_cons, hs.eq, ih]

theorem mem_intercalate_escaped
    (h : c ∈ ['/'].intercalate (l.map escaped)) : UrlPath.inPathSet c = false := by
  rcases Workflows.mem_intercalate h with rfl | ⟨part, hp, hc⟩
  · decide
  · obtain ⟨chars, -, rfl⟩ := List.mem_map.1 hp
    exact (mem_escaped hc).1

/-- A value that is fine has one form in the path, that which is written. -/
theorem contributes_iff {piece : Piece} (hr : pieceRefused input piece = false)
    (hm : pieceMalformed input piece = false) {text : List Char} :
    Contributes input piece text ↔ text = encode (written input piece) := by
  cases piece with
  | literal c =>
    constructor
    · rintro ⟨⟩
      rfl
    · rintro rfl
      exact .literal c
  | segment name =>
    rw [pieceRefused] at hr
    rw [pieceMalformed] at hm
    rw [written, charsOf, encode_eq_self fun c hc => (mem_escaped hc).1]
    cases hv : input name with
    | text value =>
      rw [hv] at hr hm
      simp only [Bool.not_eq_false', Option.isNone_eq_false_iff] at hr hm
      obtain ⟨chars, hcha⟩ := Option.isSome_iff_exists.1 hm
      simp only [hcha, Option.getD_some]
      have ht := wellFormed_eq_some.1 hcha
      rw [ht] at hr
      constructor
      · rintro (_ | ⟨hv', h⟩)
        rw [hv, InputValue.text.injEq] at hv'
        subst hv'
        rw [ht] at h
        exact h.eq
      · rintro rfl
        exact .segment hv (ht ▸ segment_escaped (valueAccepted_whole hr))
    | _ =>
      rw [hv] at hr
      exact absurd hr.symm Bool.false_ne_true
  | path name =>
    rw [pieceRefused] at hr
    rw [pieceMalformed] at hm
    rw [written, charsOf, encode_eq_self fun c => mem_intercalate_escaped]
    cases hv : input name with
    | text value =>
      rw [hv] at hr hm
      simp only [Bool.not_eq_false', Option.isNone_eq_false_iff, Bool.and_eq_true] at hr hm
      obtain ⟨chars, hcha⟩ := Option.isSome_iff_exists.1 hm
      simp only [hcha, Option.getD_some]
      have ht := wellFormed_eq_some.1 hcha
      rw [ht] at hr
      constructor
      · rintro (_ | _ | ⟨hv', h⟩)
        rw [hv, InputValue.text.injEq] at hv'
        subst hv'
        rw [ht, splitOn_map_some, List.forall₂_map_left_iff] at h
        rw [segments_eq h]
      · rintro rfl
        refine .path hv ?_
        rw [ht, splitOn_map_some, List.forall₂_map_left_iff, List.forall₂_map_right_iff]
        exact List.forall₂_same.2 fun segment hs =>
          segment_escaped (valueAccepted_segments hr.1 segment hs)
    | _ =>
      rw [hv] at hr
      exact absurd hr.symm Bool.false_ne_true

/-! ### Calls -/

theorem encode_basePrefix (base : Base) : encode (basePrefix base) = basePrefix base := by
  refine encode_eq_self fun c hc => ?_
  have hm := (List.rdropWhile_prefix (fun c => decide (c = '/')) _).subset hc
  obtain ⟨segment, hs, hc⟩ := List.mem_flatMap.1 hm
  rcases List.mem_cons.1 hc with rfl | hc
  · decide
  · exact (base.plain segment hs c hc).1

/-- What the pieces are in a path, where all values are fine. -/
theorem contributions {ps : List Piece} (h : ∀ piece ∈ ps, pieceRefused input piece = false ∧
    pieceMalformed input piece = false) (path : List Char) :
    (∃ texts, List.Forall₂ (Contributes input) ps texts ∧ path = texts.flatten) ↔
      path = encode (ps.flatMap (written input)) := by
  have hf : encode (ps.flatMap (written input)) = (ps.map fun p => encode (written input p)).flatten := by
    rw [encode, List.flatMap_assoc]
    rfl
  constructor
  · rintro ⟨texts, ht, rfl⟩
    rw [hf]
    clear hf
    induction ht with
    | nil => rfl
    | cons hpie _ ih =>
      have hfine := h _ List.mem_cons_self
      rw [List.flatten_cons, List.map_cons, List.flatten_cons,
        (contributes_iff input hfine.1 hfine.2).1 hpie, ih fun p hp => h p (List.mem_cons_of_mem _ hp)]
  · intro hpath
    refine ⟨_, ?_, hpath.trans hf⟩
    rw [List.forall₂_map_right_iff]
    exact List.forall₂_same.2 fun p hp => (contributes_iff input (h p hp).1 (h p hp).2).2 rfl

theorem queryParameters_eq {value : InputValue} :
    (queryAccepted value = false → queryParameters value = .error invalidInput) ∧
      (queryAccepted value = true → ∃ parameters, queryParameters value = .ok parameters) := by
  constructor
  · intro h
    unfold queryParameters
    rw [h, if_neg Bool.false_ne_true]
  · intro h
    unfold queryParameters
    rw [if_pos h]
    cases value <;> exact ⟨_, rfl⟩

section

variable {input} [CallHost] {base : Base} {operation : ConnectorOperation}

theorem keepsShape_of_refused (h : prepareRequest input base operation = .error invalidInput) :
    KeepsShape input base operation where
  refuses thrown ht := by
    rw [h] at ht
    exact (Except.error.inj ht).symm
  origin request hr := by
    rw [h] at hr
    exact nomatch hr
  path request hr := by
    rw [h] at hr
    exact nomatch hr

theorem requestBody_eq : (bodyAccepted operation.method (input "body") = false →
        requestBody input operation = .error invalidInput) ∧
      (bodyAccepted operation.method (input "body") = true →
        ∃ body, requestBody input operation = .ok body) := by
  constructor
  · intro h
    rw [requestBody, h, if_neg Bool.false_ne_true]
  · intro h
    rw [requestBody, if_pos h]
    split_ifs
    · exact ⟨_, rfl⟩
    · split <;> exact ⟨_, rfl⟩

end

/-- **The shape of a path is kept** exactly where the inputs can be borne. -/
theorem path_keeps_shape_exact [CallHost] (base : Base) (operation : ConnectorOperation) :
    KeepsShape input base operation ↔ Bearable input base operation := by
  have he := expandPieces_eq input (pieces operation.path)
  rw [← expandPath] at he
  unfold Bearable
  cases hf : (pieces operation.path).find? fun piece =>
      pieceRefused input piece || pieceMalformed input piece with
  | some piece =>
    rw [hf] at he
    have hfail : prepareRequest input base operation =
        .error (if pieceRefused input piece then invalidInput else .uriError) := by
      rw [prepareRequest, he]
      rfl
    constructor
    · intro h
      have := h.refuses _ hfail
      by_contra href
      rw [if_neg href] at this
      exact nomatch this
    · intro href
      simp only at href
      rw [if_pos href] at hfail
      refine ⟨fun thrown h => ?_, fun request h => ?_, fun request h => ?_⟩ <;> rw [hfail] at h <;>
        cases h
      rfl
  | none =>
    rw [hf] at he
    have hfine : ∀ piece ∈ pieces operation.path, pieceRefused input piece = false ∧
        pieceMalformed input piece = false := fun piece hpie => by
      simpa using List.find?_eq_none.1 hf piece hpie
    have hpre : prepareRequest input base operation =
        match resolve base (writtenPath input base operation.path) with
        | none => .error .typeError
        | some target =>
          if elsewhere base target then .error invalidInput
          else do
            let parameters ← queryParameters (input "query")
            let body ← requestBody input operation
            return { target, parameters, body } := by
      rw [prepareRequest, he]
      rfl
    cases hres : resolve base (writtenPath input base operation.path) with
    | none =>
      rw [hres] at hpre
      refine iff_of_false (fun h => ?_) fun ⟨target, h, _⟩ => nomatch h
      exact nomatch h.refuses _ hpre
    | some target =>
      rw [hres] at hpre
      simp only at hpre
      rw [show (∃ target', some target = some target' ∧ _) ↔ _ from
        ⟨fun ⟨_, heq, h⟩ => Option.some.inj heq ▸ h, fun h => ⟨target, rfl, h⟩⟩]
      cases hels : elsewhere base target with
      | true =>
        rw [hels, if_pos rfl] at hpre
        exact iff_of_true (keepsShape_of_refused hpre) (.inr (.inl rfl))
      | false =>
        rw [hels, if_neg Bool.false_ne_true] at hpre
        cases hq : queryAccepted (input "query") with
        | false =>
          rw [queryParameters_eq.1 hq] at hpre
          exact iff_of_true (keepsShape_of_refused hpre) (.inr (.inr (.inl rfl)))
        | true =>
          obtain ⟨parameters, hpar⟩ := queryParameters_eq.2 hq
          rw [hpar] at hpre
          cases hb : bodyAccepted operation.method (input "body") with
          | false =>
            rw [requestBody_eq.1 hb] at hpre
            exact iff_of_true (keepsShape_of_refused hpre) (.inr (.inr (.inr rfl)))
          | true =>
            obtain ⟨body, hb'⟩ := requestBody_eq.2 hb
            rw [hb'] at hpre
            have ho : target.origin = base.origin := by
              have := (Bool.or_eq_false_iff.1 hels).1
              simpa using this
            have hl : encode (writtenPath input base operation.path) =
                basePrefix base ++ encode ((pieces operation.path).flatMap (written input)) := by
              rw [writtenPath, UrlPath.encode_append, encode_basePrefix]
            rw [← UrlPath.resolve_pathname_iff hres, hl]
            simp only [Bool.true_eq_false, Bool.false_eq_true, or_false]
            constructor
            · intro h
              obtain ⟨texts, ht, hp⟩ := h.path _ hpre
              rw [← (contributions input hfine _).1 ⟨texts, ht, rfl⟩]
              exact hp
            · intro hp
              refine ⟨fun thrown hthr => ?_, fun request hr => ?_, fun request hr => ?_⟩
              · rw [hpre] at hthr
                exact nomatch hthr
              · rw [hpre] at hr
                cases hr
                exact ho
              · rw [hpre] at hr
                cases hr
                obtain ⟨texts, ht, heq⟩ := (contributions input hfine _).2 rfl
                exact ⟨texts, ht, by rw [← heq]; exact hp⟩

/-- A base URL without a path. -/
def sampleBase : Base where
  origin := "https://api.example.test"
  segments := [[]]
  nonempty := List.cons_ne_nil _ _
  plain := by simp

/-- A lone surrogate in a value makes the encoder throw. -/
theorem path_throws_surrogate : ¬ ∀ (_ : CallHost) (input : String → InputValue) (base : Base)
    (operation : ConnectorOperation), KeepsShape input base operation := by
  intro h
  let host : CallHost := { authority := fun _ _ => none, stringify := fun _ => none }
  have ht : @prepareRequest (fun _ => .text [none]) host sampleBase
      ⟨.get, '/' :: Char.ofNat 0x7b :: 'i' :: 'd' :: [Char.ofNat 0x7d]⟩ = .error .uriError :=
    rfl
  exact nomatch (h host _ sampleBase _).refuses _ ht

end Flowdular.Connectors
