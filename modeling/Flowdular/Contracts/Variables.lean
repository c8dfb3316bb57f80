/-
# Template variables

`src/packages/contracts/src/variables.ts`.

A template holds tokens, names in double braces, and escaped openers.  The matches of
`TOKEN_PATTERN` cut it into pieces (`allMatches`): the tokenizer strings them together
again, as text or as variables, and a substitution replaces them one by one.  Both
follow the same matches, so that a substitution is one of the pieces of the tokenizer,
each by itself (`resolveTemplate_eq`): what is put in for one is not looked at again.
-/

import Flowdular.Workflows.Text

namespace Flowdular.Contracts

open Workflows (trimChars)

/-! ### Definitions -/

structure VariableDefinition where
  key : String
  /-- The permission required to read the source. -/
  scope : Option String := none
deriving DecidableEq, Repr

structure VariableSource where
  id : String
  /-- `variables`. -/
  definitions : List VariableDefinition
deriving DecidableEq, Repr

def variableDefinitions (sources : List VariableSource) : List VariableDefinition :=
  sources.flatMap (·.definitions)

/-- `[A-Za-z0-9]`. -/
def isKeyChar (c : Char) : Bool :=
  (97 ≤ c.toNat && c.toNat ≤ 122) || (65 ≤ c.toNat && c.toNat ≤ 90) ||
    (48 ≤ c.toNat && c.toNat ≤ 57)

def isVariableKey (key : String) : Bool :=
  (key.toList.splitOn '.').all fun part =>
    match part with
    | [] => false
    | c :: cs => 97 ≤ c.toNat && c.toNat ≤ 122 && cs.all isKeyChar

/-! ### The matches of the pattern -/

/-- A match of `TOKEN_PATTERN`: the text in front of it, what it matched, and the group
of a token. -/
structure TokenMatch where
  before : List Char
  text : List Char
  inner : Option (List Char)
deriving DecidableEq

/-- `{` and `}`. -/
def isBrace (c : Char) : Bool :=
  c = '\x7b' || c = '\x7d'

/-- A match at the front of a text, and the rest behind it. -/
def matchHere : List Char → Option (TokenMatch × List Char)
  | '\\' :: '\x7b' :: '\x7b' :: rest => some (⟨[], ['\\', '\x7b', '\x7b'], none⟩, rest)
  | '\x7b' :: '\x7b' :: rest =>
    let inner := rest.takeWhile (!isBrace ·)
    match rest.dropWhile (!isBrace ·) with
    | '\x7d' :: '\x7d' :: rest =>
      some (⟨[], ['\x7b', '\x7b'] ++ inner ++ ['\x7d', '\x7d'], some inner⟩, rest)
    | _ => none
  | _ => none

/-- `TOKEN_PATTERN.exec`: the first match, and the rest behind it. -/
def nextMatch : List Char → Option (TokenMatch × List Char)
  | [] => none
  | c :: cs =>
    match matchHere (c :: cs) with
    | some found => some found
    | none => (nextMatch cs).map fun (m, rest) => ({ m with before := c :: m.before }, rest)

variable {cs rest more b : List Char} {m : TokenMatch} {template : String} {c : Char}

theorem matchHere_eq (h : matchHere cs = some (m, rest)) :
    m.before = [] ∧ m.text ≠ [] ∧ cs = m.text ++ rest := by
  unfold matchHere at h
  split at h
  · cases h
    exact ⟨rfl, by simp, rfl⟩
  · next inside =>
    split at h
    · next tail hd =>
      cases h
      refine ⟨rfl, by simp, ?_⟩
      have hs := @List.takeWhile_append_dropWhile _ (!isBrace ·) inside
      rw [hd] at hs
      conv_lhs => rw [← hs]
      simp
    · cases h
  · cases h

theorem nextMatch_eq : ∀ {cs rest : List Char} {m : TokenMatch}, nextMatch cs = some (m, rest) →
    m.text ≠ [] ∧ cs = m.before ++ m.text ++ rest := by
  intro cs
  induction cs with
  | nil => nofun
  | cons c cs ih =>
    intro rest m h
    rw [nextMatch] at h
    split at h
    · next found hh =>
      cases h
      obtain ⟨hb, ht, hcs⟩ := matchHere_eq hh
      exact ⟨ht, by rw [hb]; exact hcs⟩
    · obtain ⟨⟨m', rest'⟩, hn, heq⟩ := Option.map_eq_some_iff.1 h
      cases heq
      obtain ⟨ht, hcs⟩ := ih hn
      exact ⟨ht, by rw [hcs]; rfl⟩

theorem nextMatch_length (h : nextMatch cs = some (m, rest)) : rest.length < cs.length := by
  obtain ⟨ht, hcs⟩ := nextMatch_eq h
  have hp := List.length_pos_iff.2 ht
  rw [hcs, List.length_append, List.length_append]
  omega

/-- The matches one after another, and the text behind the last. -/
def allMatches (cs : List Char) : List TokenMatch × List Char :=
  match _h : nextMatch cs with
  | none => ([], cs)
  | some (m, rest) =>
    let found := allMatches rest
    (m :: found.1, found.2)
termination_by cs.length
decreasing_by exact nextMatch_length _h

/-! ### The functions -/

inductive TemplateSegment where
  | text (text : String)
  | variable (key text : String)
deriving DecidableEq, Repr

/-- The text of a segment. -/
def TemplateSegment.source : TemplateSegment → String
  | .text t => t
  | .variable _ t => t

/-- `if (text.length > 0) segments.push({ kind: 'text', text })`. -/
def textSegment (text : List Char) : List TemplateSegment :=
  if text.isEmpty then [] else [.text (String.ofList text)]

/-- `inner.trim()`. -/
def tokenKey (inner : List Char) : String :=
  String.ofList (trimChars inner)

/-- The loop of `tokenizeTemplate`, with the text gathered so far. -/
def segmentsOf (text : List Char) : List TokenMatch → List Char → List TemplateSegment
  | [], tail => textSegment (text ++ tail)
  | m :: ms, tail =>
    match m.inner with
    | none => segmentsOf (text ++ m.before ++ m.text) ms tail
    | some inner =>
      textSegment (text ++ m.before) ++
        .variable (tokenKey inner) (String.ofList m.text) :: segmentsOf [] ms tail

def tokenizeTemplate (template : String) : List TemplateSegment :=
  let found := allMatches template.toList
  segmentsOf [] found.1 found.2

/-- The loop of `extractVariables`. -/
def extractFrom (keys : List String) : List TemplateSegment → List String
  | [] => keys
  | .text _ :: segments => extractFrom keys segments
  | .variable key _ :: segments =>
    if key = "" ∨ key ∈ keys then extractFrom keys segments
    else extractFrom (keys ++ [key]) segments

def extractVariables (template : String) : List String :=
  extractFrom [] (tokenizeTemplate template)

structure TemplateValidation where
  unknown : List String
  forbidden : List String
deriving DecidableEq, Repr

/-- `byKey.get(key)`: of two definitions the later one stands. -/
def definitionOf (available : List VariableDefinition) (key : String) : Option VariableDefinition :=
  available.reverse.find? (·.key = key)

/-- Whether a definition is out of the allowed scopes. -/
def VariableDefinition.isForbidden (definition : VariableDefinition)
    (allowedScopes : Option (List String)) : Bool :=
  match definition.scope, allowedScopes with
  | some scope, some allowed => scope ∉ allowed
  | _, _ => false

def validateTemplate (template : String) (available : List VariableDefinition)
    (allowedScopes : Option (List String)) : TemplateValidation where
  unknown := (extractVariables template).filter fun key => (definitionOf available key).isNone
  forbidden := (extractVariables template).filter fun key =>
    (definitionOf available key).any (·.isForbidden allowedScopes)

inductive OnMissing where
  | keep
  | blank
deriving DecidableEq, Repr

/-- What a token is replaced by. -/
def replacement (values : List (String × String)) (onMissing : OnMissing) (key : String)
    (text : List Char) : List Char :=
  match values.lookup key with
  | some value => value.toList
  | none =>
    match onMissing with
    | .keep => text
    | .blank => []

/-- The replacer of `resolveTemplate`. -/
def replaceMatch (values : List (String × String)) (onMissing : OnMissing) (m : TokenMatch) :
    List Char :=
  match m.inner with
  | none => ['\x7b', '\x7b']
  | some inner => replacement values onMissing (tokenKey inner) m.text

/-- `template.replace(TOKEN_PATTERN, …)`. -/
def replaceMatches (replacer : TokenMatch → List Char) (ms : List TokenMatch) (tail : List Char) :
    List Char :=
  ms.flatMap (fun m => m.before ++ replacer m) ++ tail

def resolveTemplate (template : String) (values : List (String × String))
    (onMissing : OnMissing := .keep) : String :=
  let found := allMatches template.toList
  String.ofList (replaceMatches (replaceMatch values onMissing) found.1 found.2)

/-! ### The pieces are the template -/

theorem source_textSegment (text : List Char) :
    (textSegment text).flatMap (·.source.toList) = text := by
  unfold textSegment
  split
  · next h => rw [List.isEmpty_iff.1 h]; rfl
  · simp [TemplateSegment.source]

theorem source_segmentsOf (tail : List Char) : ∀ (ms : List TokenMatch) (text : List Char),
    (segmentsOf text ms tail).flatMap (·.source.toList) =
      text ++ (ms.flatMap fun m => m.before ++ m.text) ++ tail := by
  intro ms
  induction ms with
  | nil =>
    intro text
    rw [segmentsOf, source_textSegment]
    simp
  | cons m ms ih =>
    intro text
    rw [segmentsOf]
    split
    · rw [ih]
      simp
    · rw [List.flatMap_append, source_textSegment, List.flatMap_cons, ih]
      simp [TemplateSegment.source]

theorem allMatches_source (cs : List Char) :
    ((allMatches cs).1.flatMap fun m => m.before ++ m.text) ++ (allMatches cs).2 = cs := by
  induction cs using allMatches.induct with
  | case1 cs h => rw [allMatches, h]; rfl
  | case2 cs m rest h ih =>
    rw [allMatches, h]
    simp only [List.flatMap_cons, List.append_assoc]
    rw [ih, (nextMatch_eq h).2, List.append_assoc]

/-- **The pieces of a template concatenate to it.** -/
theorem source_tokenizeTemplate (template : String) :
    (tokenizeTemplate template).flatMap (·.source.toList) = template.toList := by
  rw [tokenizeTemplate, source_segmentsOf, List.nil_append, allMatches_source]

/-! ### The keys -/

theorem mem_extractFrom {key : String} : ∀ {segments : List TemplateSegment} {keys : List String},
    key ∈ extractFrom keys segments ↔
      key ∈ keys ∨ key ≠ "" ∧ ∃ text, .variable key text ∈ segments := by
  intro segments
  induction segments with
  | nil => simp [extractFrom]
  | cons segment segments ih =>
    intro keys
    cases segment with
    | text text =>
      rw [extractFrom, ih]
      simp
    | «variable» other text =>
      rw [extractFrom]
      split
      · next h =>
        rw [ih]
        simp only [List.mem_cons, TemplateSegment.variable.injEq]
        constructor
        · rintro (hm | ⟨hne, text', hm⟩)
          · exact .inl hm
          · exact .inr ⟨hne, text', .inr hm⟩
        · rintro (hm | ⟨hne, text', ⟨rfl, -⟩ | hm⟩)
          · exact .inl hm
          · exact .inl (h.resolve_left hne)
          · exact .inr ⟨hne, text', hm⟩
      · next h =>
        rw [not_or] at h
        rw [ih]
        simp only [List.mem_append, List.mem_cons, List.not_mem_nil, or_false,
          TemplateSegment.variable.injEq]
        constructor
        · rintro ((hm | rfl) | ⟨hne, text', hm⟩)
          · exact .inl hm
          · exact .inr ⟨h.1, text, .inl ⟨rfl, rfl⟩⟩
          · exact .inr ⟨hne, text', .inr hm⟩
        · rintro (hm | ⟨hne, text', ⟨rfl, -⟩ | hm⟩)
          · exact .inl (.inl hm)
          · exact .inl (.inr rfl)
          · exact .inr ⟨hne, text', hm⟩

/-- **The keys extracted are those of the variables**, but for a blank one. -/
theorem mem_extractVariables {key : String} : key ∈ extractVariables template ↔
      key ≠ "" ∧ ∃ text, .variable key text ∈ tokenizeTemplate template := by
  rw [extractVariables, mem_extractFrom]
  simp

/-- The keys reported as unknown are extracted ones without a definition, those
reported as forbidden have one out of the allowed scopes. -/
theorem mem_validateTemplate {key : String} {available : List VariableDefinition}
    {allowedScopes : Option (List String)} :
    (key ∈ (validateTemplate template available allowedScopes).unknown ↔
        key ∈ extractVariables template ∧ definitionOf available key = none) ∧
      (key ∈ (validateTemplate template available allowedScopes).forbidden ↔
        key ∈ extractVariables template ∧ ∃ definition, definitionOf available key = some definition ∧
          definition.isForbidden allowedScopes = true) := by
  constructor
  · rw [validateTemplate, List.mem_filter, Option.isNone_iff_eq_none]
  · rw [validateTemplate, List.mem_filter]
    simp only [Option.any_eq_true]

/-! ### A substitution, piece by piece -/

/-- The text of a piece with its escaped openers as openers. -/
def unescaped : List Char → List Char
  | '\\' :: '\x7b' :: '\x7b' :: rest => '\x7b' :: '\x7b' :: unescaped rest
  | c :: rest => c :: unescaped rest
  | [] => []

/-- An escaped opener stands at the front. -/
def Escapes (cs : List Char) : Prop :=
  ∃ rest, cs = '\\' :: '\x7b' :: '\x7b' :: rest

theorem unescaped_cons (h : ¬Escapes (c :: rest)) :
    unescaped (c :: rest) = c :: unescaped rest := by
  rw [unescaped]
  rintro tail rfl rfl
  exact h ⟨tail, rfl⟩

/-- Text in which no escape starts stays as it is. -/
theorem unescaped_append : ∀ {before : List Char},
    (∀ a b, before = a ++ b → b ≠ [] → ¬Escapes (b ++ more)) →
      unescaped (before ++ more) = before ++ unescaped more := by
  intro before
  induction before with
  | nil => exact fun _ => rfl
  | cons c before ih =>
    intro h
    have hf : ¬Escapes (c :: (before ++ more)) := h [] (c :: before) rfl (by simp)
    rw [List.cons_append, unescaped_cons hf, ih fun a b hab => h (c :: a) b (by rw [hab]; rfl)]
    rfl

theorem matchHere_escapes (h : Escapes cs) : matchHere cs ≠ none := by
  obtain ⟨rest, rfl⟩ := h
  simp [matchHere]

/-- The text in front of the first match, or all of it. -/
def plainPart (cs : List Char) : List Char :=
  match nextMatch cs with
  | some (m, _) => m.before
  | none => cs

/-- The text from the first match on. -/
def matchedPart (cs : List Char) : List Char :=
  match nextMatch cs with
  | some (m, rest) => m.text ++ rest
  | none => []

theorem parts_of_here {found : TokenMatch × List Char}
    (h : matchHere cs = some found) : plainPart cs = [] := by
  obtain ⟨m, rest⟩ := found
  cases cs with
  | nil => rfl
  | cons c cs =>
    have hn : nextMatch (c :: cs) = some (m, rest) := by rw [nextMatch, h]
    rw [plainPart, hn]
    exact (matchHere_eq h).1

theorem parts_cons (h : matchHere (c :: cs) = none) :
    plainPart (c :: cs) = c :: plainPart cs ∧ matchedPart (c :: cs) = matchedPart cs := by
  rw [plainPart, plainPart, matchedPart, matchedPart, nextMatch, h]
  cases nextMatch cs with
  | none => exact ⟨rfl, rfl⟩
  | some found => exact ⟨rfl, rfl⟩

theorem plainPart_append (cs : List Char) : plainPart cs ++ matchedPart cs = cs := by
  rw [plainPart, matchedPart]
  cases h : nextMatch cs with
  | none => exact List.append_nil cs
  | some found =>
    obtain ⟨m, rest⟩ := found
    exact (List.append_assoc ..).symm.trans (nextMatch_eq h).2.symm

/-- In front of the first match no escape starts. -/
theorem not_escapes_of_plainPart : ∀ {cs : List Char} (a b : List Char), plainPart cs = a ++ b →
    b ≠ [] → ¬Escapes (b ++ matchedPart cs) := by
  intro cs
  induction cs with
  | nil =>
    intro a b hab hb
    exact absurd (List.append_eq_nil_iff.1 hab.symm).2 hb
  | cons c cs ih =>
    intro a b hab hb
    cases hh : matchHere (c :: cs) with
    | some found =>
      rw [parts_of_here hh] at hab
      exact absurd (List.append_eq_nil_iff.1 hab.symm).2 hb
    | none =>
      obtain ⟨hp, hm⟩ := parts_cons hh
      rw [hp] at hab
      rw [hm]
      cases a with
      | nil =>
        intro he
        rw [List.nil_append] at hab
        rw [← hab, List.cons_append, plainPart_append] at he
        exact matchHere_escapes he hh
      | cons d a => exact ih a b (List.cons.inj hab).2 hb

/-- Whether an escape starts is decided by three characters, which do not go beyond
an escape or a token behind. -/
theorem not_escapes_before_escape {rest' : List Char} (hb : b ≠ [])
    (h : ¬Escapes (b ++ '\\' :: '\x7b' :: '\x7b' :: rest)) :
    ¬Escapes (b ++ '\\' :: '\x7b' :: '\x7b' :: rest') := by
  rintro ⟨tail, heq⟩
  match b, hb with
  | [c], _ => simp at heq
  | [c, d], _ => simp at heq
  | c :: d :: e :: b, _ =>
    simp only [List.cons_append, List.cons.injEq] at heq
    obtain ⟨rfl, rfl, rfl, -⟩ := heq
    exact h ⟨_, rfl⟩

theorem not_escapes_of_append (h : ¬Escapes (b ++ more)) : ¬Escapes b := by
  rintro ⟨tail, rfl⟩
  exact h ⟨tail ++ more, rfl⟩

/-- What a substitution makes of a piece. -/
def TemplateSegment.rendered (values : List (String × String)) (onMissing : OnMissing) :
    TemplateSegment → List Char
  | .text t => unescaped t.toList
  | .variable key t => replacement values onMissing key t.toList

theorem rendered_textSegment (values : List (String × String)) (onMissing : OnMissing)
    (text : List Char) :
    (textSegment text).flatMap (·.rendered values onMissing) = unescaped text := by
  unfold textSegment
  split
  · next h => rw [List.isEmpty_iff.1 h]; rfl
  · simp [TemplateSegment.rendered]

/-- The shape of a match: an escape, or a token with its group. -/
theorem nextMatch_text : ∀ {cs rest : List Char} {m : TokenMatch}, nextMatch cs = some (m, rest) →
    m.inner = none → m.text = ['\\', '\x7b', '\x7b'] := by
  intro cs
  induction cs with
  | nil => nofun
  | cons c cs ih =>
    intro rest m h hi
    rw [nextMatch] at h
    split at h
    · next found hh =>
      cases h
      unfold matchHere at hh
      split at hh
      · cases hh
        rfl
      · split at hh
        · cases hh
          cases hi
        · cases hh
      · cases hh
    · obtain ⟨⟨m', rest'⟩, hn, heq⟩ := Option.map_eq_some_iff.1 h
      cases heq
      exact @ih _ m' hn hi

/-- The pieces behind a text that ends with an escape, or at the front.  By induction
on the matches. -/
theorem rendered_segmentsOf (values : List (String × String)) (onMissing : OnMissing)
    (cs : List Char) : ∀ text : List Char,
      (∀ more, unescaped (text ++ more) = unescaped text ++ unescaped more) →
        (segmentsOf text (allMatches cs).1 (allMatches cs).2).flatMap
            (·.rendered values onMissing) =
          unescaped text ++
            replaceMatches (replaceMatch values onMissing) (allMatches cs).1 (allMatches cs).2 := by
  induction cs using allMatches.induct with
  | case1 cs h =>
    intro text ht
    have hp : plainPart cs = cs ∧ matchedPart cs = [] := by
      rw [plainPart, matchedPart, h]
      exact ⟨rfl, rfl⟩
    have hpla : unescaped (cs ++ []) = cs ++ unescaped [] :=
      unescaped_append fun a b hab hb => by
        rw [← hp.2]
        exact not_escapes_of_plainPart a b (hp.1.trans hab) hb
    rw [List.append_nil, unescaped, List.append_nil] at hpla
    rw [allMatches, h]
    show (textSegment (text ++ cs)).flatMap _ = _ ++ cs
    rw [rendered_textSegment, ht, hpla]
  | case2 cs m rest h ih =>
    intro text ht
    have hp : plainPart cs = m.before ∧ matchedPart cs = m.text ++ rest := by
      rw [plainPart, matchedPart, h]
      exact ⟨rfl, rfl⟩
    have hbef : ∀ a b, m.before = a ++ b → b ≠ [] → ¬Escapes (b ++ (m.text ++ rest)) := by
      intro a b hab hb
      rw [← hp.2]
      exact not_escapes_of_plainPart a b (hp.1.trans hab) hb
    rw [allMatches, h]
    simp only [segmentsOf]
    split
    · next hi =>
      have hm := nextMatch_text h hi
      rw [hm] at hbef
      have he : ∀ more, unescaped (text ++ m.before ++ m.text ++ more) =
          unescaped text ++ (m.before ++ '\x7b' :: '\x7b' :: unescaped more) := by
        intro more
        rw [List.append_assoc, List.append_assoc, ht, hm]
        show _ ++ unescaped (m.before ++ '\\' :: '\x7b' :: '\x7b' :: more) = _
        rw [unescaped_append fun a b hab hb => not_escapes_before_escape hb (hbef a b hab hb)]
        rfl
      have hn := he []
      rw [List.append_nil] at hn
      rw [ih _ fun more => by rw [he, hn]; simp [unescaped], hn]
      simp [replaceMatches, replaceMatch, hi, unescaped]
    · next inner hi =>
      have hpla : unescaped (m.before ++ []) = m.before ++ unescaped [] :=
        unescaped_append fun a b hab hb => by
          rw [List.append_nil]
          exact not_escapes_of_append (hbef a b hab hb)
      rw [List.append_nil, unescaped, List.append_nil] at hpla
      rw [List.flatMap_append, rendered_textSegment, List.flatMap_cons, ht, hpla,
        ih [] fun more => rfl]
      simp [replaceMatches, replaceMatch, hi, TemplateSegment.rendered, unescaped]

/-- **A substitution is one of the pieces of the tokenizer**, each by itself. -/
theorem resolveTemplate_eq (template : String) (values : List (String × String))
    (onMissing : OnMissing) :
    (resolveTemplate template values onMissing).toList =
      (tokenizeTemplate template).flatMap (·.rendered values onMissing) := by
  rw [resolveTemplate, String.toList_ofList, tokenizeTemplate,
    rendered_segmentsOf values onMissing template.toList [] fun more => rfl]
  rfl

end Flowdular.Contracts
