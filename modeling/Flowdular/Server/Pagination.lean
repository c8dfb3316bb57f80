/-
# Keyset pages

`src/packages/server/src/pagination.ts`: `encodeCursor`, `decodeCursor`, `keysetWhere`.

A predicate is its terms, whose text is the one the source writes.  A comparison with no value is
unknown, and a row is found where a term is true.  For rows that have a value in each column of the
keyset the predicate is the lexicographic order behind the cursor (`satisfied_iff`), so that the
pages of a list are those of the library, and a cursor is the position it was made from
(`keyset_pages`).
-/

import Flowdular.Agents.GrantTokens
import Flowdular.Lib.Bytes
import Flowdular.Lib.Keyset
import Flowdular.Lib.Prog
import Flowdular.Workflows.JsonText
import Flowdular.Workflows.Text
import Mathlib.Data.List.Lex
import Mathlib.Logic.Function.Basic

namespace Flowdular.Server

open Lib Workflows
open Agents (base64urlChars base64urlBytes base64urlChars_all base64urlBytes_base64urlChars)

/-! ### The predicate -/

def MAX_KEYSET_COLUMNS : ℕ := 4

/-- The direction of a keyset. -/
inductive Direction
  | asc
  | desc
deriving DecidableEq

/-- `SQL_IDENTIFIER`. -/
def isSqlIdentifier (column : String) : Bool :=
  match column.toList with
  | [] => false
  | c :: cs => (isLowerLetter c || c = '_') && cs.all fun c => isLowerLetter c || isDigit c || c = '_'

/-- The operator of a condition. -/
inductive Comparison
  | lt
  | gt
  | eq
deriving DecidableEq

/-- The operator of a direction. -/
def Direction.comparison (direction : Direction) : Comparison :=
  if direction = .desc then .lt else .gt

/-- The text of an operator. -/
def Comparison.text : Comparison → String
  | .lt => "<"
  | .gt => ">"
  | .eq => "="

/-- A condition: a column is compared with a parameter. -/
structure Condition where
  column : String
  comparison : Comparison
  parameter : ℕ
deriving DecidableEq

/-- The text of a condition. -/
def Condition.text (c : Condition) : String :=
  s!"{c.column} {c.comparison.text} ${c.parameter}"

/-- The text of the conditions of a term. -/
def termText : List Condition → String
  | [condition] => condition.text
  | conditions => "(" ++ String.intercalate " AND " (conditions.map Condition.text) ++ ")"

/-- `KeysetPredicate`, its text as terms. -/
structure KeysetPredicate (V : Type) where
  terms : List (List Condition)
  parameters : List V
deriving DecidableEq

/-- The text of a predicate. -/
def KeysetPredicate.text {V : Type} (p : KeysetPredicate V) : String :=
  "(" ++ String.intercalate " OR " (p.terms.map termText) ++ ")"

/-- The loop of `keysetWhere` over the columns. -/
def keysetTerms (comparison : Comparison) (offset : ℕ) (columns : List String) : List (List Condition) :=
  columns.zipIdx.map fun (column, index) =>
    ((columns.take index).zipIdx.map fun (column, position) => ⟨column, .eq, offset + position + 1⟩) ++
      [⟨column, comparison, offset + index + 1⟩]

def keysetWhere {V : Type} (columns : List String) (cursorValues : List V) (direction : Option Direction)
    (parameterOffset : Option ℤ) : Except String (KeysetPredicate V) :=
  if columns.length = 0 ∨ MAX_KEYSET_COLUMNS < columns.length then
    .error s!"A keyset orders by 1 to {MAX_KEYSET_COLUMNS} columns, ending in a unique one."
  else if columns.length ≠ cursorValues.length then .error "A keyset needs one cursor value per column."
  else
    let offset := parameterOffset.getD 0
    if offset < 0 ∨ 2 ^ 53 ≤ offset then .error "A keyset parameterOffset must be a whole number."
    else
      match columns.find? fun column => !isSqlIdentifier column with
      | some column => .error s!"Keyset column {column} is not a plain identifier."
      | none =>
        let comparison := (direction.getD .desc).comparison
        .ok { terms := keysetTerms comparison offset.toNat columns, parameters := cursorValues }

example : (keysetWhere ["created_at", "id"] [1757000000000, 42] none none).map KeysetPredicate.text =
    .ok "(created_at < $1 OR (created_at = $1 AND id < $2))" := by decide +kernel

/-- A row of a table: no value is `NULL`. -/
abbrev TableRow (V : Type) :=
  String → Option V

section

variable {V : Type} [LinearOrder V]

/-- What a comparison answers for two values. -/
def Comparison.holds (comparison : Comparison) (a b : V) : Bool :=
  match comparison with
  | .lt => a < b
  | .gt => b < a
  | .eq => a = b

/-- A condition is true of a row. -/
def Condition.holds (c : Condition) (parameters : List V) (row : TableRow V) : Bool :=
  match row c.column, parameters[c.parameter - 1]? with
  | some value, some parameter => c.comparison.holds value parameter
  | _, _ => false

/-- A row is found. -/
def KeysetPredicate.satisfied (p : KeysetPredicate V) (parameters : List V) (row : TableRow V) : Bool :=
  p.terms.any fun conditions => conditions.all fun c => c.holds parameters row

/-- The order of a direction. -/
def Direction.before (direction : Direction) (a b : V) : Prop :=
  match direction with
  | .asc => a < b
  | .desc => b < a

instance (direction : Direction) : DecidableRel (direction.before (V := V)) := fun a b =>
  match direction with
  | .asc => inferInstanceAs (Decidable (a < b))
  | .desc => inferInstanceAs (Decidable (b < a))

instance (direction : Direction) : IsStrictTotalOrder V direction.before :=
  match direction with
  | .asc => inferInstanceAs (IsStrictTotalOrder V (· < ·))
  | .desc => inferInstanceAs (IsStrictTotalOrder V (· > ·))

/-- The row is strictly behind the position, in an order with a direction for each column. -/
def StrictlyAfter : List Direction → List V → List V → Prop
  | direction :: directions, position :: positions, value :: values =>
    direction.before position value ∨ position = value ∧ StrictlyAfter directions positions values
  | _, _, _ => False

theorem Condition.holds_of {c : Condition} {parameters : List V} {row : TableRow V} {value parameter : V}
    (hv : row c.column = some value) (hp : parameters[c.parameter - 1]? = some parameter) :
    c.holds parameters row = c.comparison.holds value parameter := by
  unfold Condition.holds
  rw [hv, hp]

/-- The terms behind the first column: each asks first that the values there are equal. -/
theorem keysetTerms_cons (comparison : Comparison) (offset : ℕ) (column : String) (columns : List String) :
    keysetTerms comparison offset (column :: columns) =
      [⟨column, comparison, offset + 1⟩] ::
        (keysetTerms comparison (offset + 1) columns).map (⟨column, .eq, offset + 1⟩ :: ·) := by
  unfold keysetTerms
  rw [List.zipIdx_cons, List.map_cons, List.zipIdx_succ, List.map_map, List.map_map]
  refine congrArg _ (List.map_congr_left fun pair _ => ?_)
  obtain ⟨next, index⟩ := pair
  dsimp only [Function.comp]
  rw [List.take_succ_cons, List.zipIdx_cons, List.map_cons, List.zipIdx_succ, List.map_map]
  simp [Function.comp_def, Nat.add_comm, Nat.add_left_comm]

variable {direction : Direction} {columns : List String} {values : List V} {row : TableRow V}

/-- The position of a row: its values in the columns of a keyset. -/
def positionOf (columns : List String) (row : TableRow V) : List V :=
  columns.filterMap row

/-- **The condition is the order.**  By induction on the columns; the parameters of those that are
left stand behind `offset` others. -/
theorem satisfied_iff : ∀ {columns : List String} {values : List V} {offset : ℕ} {parameters : List V},
    columns.length = values.length → (∀ i < values.length, parameters[offset + i]? = values[i]?) → (∀ c ∈ columns, row c ≠ none) →
      ((keysetTerms direction.comparison offset columns).any (fun conditions => conditions.all fun c =>
          c.holds parameters row) = true ↔
        StrictlyAfter (columns.map fun _ => direction) values (positionOf columns row)) := by
  intro columns
  induction columns with
  | nil =>
    intro values offset parameters _ _ _
    simp [keysetTerms, StrictlyAfter]
  | cons column columns ih =>
    intro values offset parameters hl hp hrow
    obtain ⟨hc, hrow⟩ := List.forall_mem_cons.1 hrow
    obtain ⟨value, hv⟩ := Option.ne_none_iff_exists'.1 hc
    cases values with
    | nil => cases hl
    | cons position values =>
      have hf : parameters[offset]? = some position := hp 0 (Nat.succ_pos _)
      have hr := @ih values (offset + 1) parameters (by simpa using hl) (fun i hi => by
        rw [Nat.add_assoc, Nat.add_comm 1 i]
        exact hp (i + 1) (Nat.succ_lt_succ hi)) hrow
      have hh : ∀ comparison : Comparison,
          Condition.holds ⟨column, comparison, offset + 1⟩ parameters row = comparison.holds value position :=
        fun _ => Condition.holds_of hv hf
      rw [keysetTerms_cons, List.any_cons, List.any_map, positionOf, List.filterMap_cons_some hv, List.map_cons,
        StrictlyAfter, ← positionOf, ← hr]
      have hb : direction.comparison.holds value position = true ↔ direction.before position value := by
        cases direction <;> simp [Direction.comparison, Comparison.holds, Direction.before]
      have he : (Comparison.eq.holds value position = true) ↔ position = value := by
        simp [Comparison.holds, eq_comm]
      rw [Bool.or_eq_true, List.all_cons, List.all_nil, Bool.and_true, hh, hb, ← he]
      refine or_congr Iff.rfl ?_
      simp only [List.any_eq_true, Function.comp_apply, List.all_cons, hh, Bool.and_eq_true]
      constructor
      · rintro ⟨conditions, hin, heq, ha⟩
        exact ⟨heq, conditions, hin, ha⟩
      · rintro ⟨heq, conditions, hin, ha⟩
        exact ⟨conditions, hin, heq, ha⟩

/-- Positions of one direction are in the lexicographic order. -/
theorem strictlyAfter_iff : ∀ {columns : List String} {values position : List V}, columns.length = values.length →
    values.length = position.length →
      (StrictlyAfter (columns.map fun _ => direction) values position ↔ List.Lex direction.before values position) := by
  intro columns
  induction columns with
  | nil =>
    intro values position h h'
    obtain rfl := List.length_eq_zero_iff.1 h.symm
    obtain rfl := List.length_eq_zero_iff.1 h'.symm
    exact ⟨False.elim, nofun⟩
  | cons column columns ih =>
    intro values position h h'
    obtain ⟨a, values, rfl⟩ := List.exists_cons_of_length_eq_add_one h.symm
    obtain ⟨b, position, rfl⟩ := List.exists_cons_of_length_eq_add_one h'.symm
    rw [List.map_cons, StrictlyAfter, ih (by simpa using h) (by simpa using h')]
    constructor
    · rintro (hlt | ⟨rfl, hl⟩)
      · exact .rel hlt
      · exact .cons hl
    · rintro (_ | hlt | hl)
      · exact .inl hlt
      · exact .inr ⟨rfl, hl⟩

omit [LinearOrder V] in
theorem length_positionOf (h : ∀ c ∈ columns, row c ≠ none) : (positionOf columns row).length = columns.length := by
  induction columns with
  | nil => rfl
  | cons column columns ih =>
    obtain ⟨hc, hr⟩ := List.forall_mem_cons.1 h
    obtain ⟨value, hv⟩ := Option.ne_none_iff_exists'.1 hc
    rw [positionOf, List.filterMap_cons_some hv, List.length_cons, ← positionOf, ih hr, List.length_cons]

omit [LinearOrder V] in
theorem keysetWhere_eq_ok {offset : Option ℤ} {predicate : KeysetPredicate V}
    (h : keysetWhere columns values (some direction) offset = .ok predicate) :
    columns.length = values.length ∧
      predicate = { terms := keysetTerms direction.comparison (offset.getD 0).toNat columns, parameters := values } := by
  unfold keysetWhere at h
  dsimp only at h
  split_ifs at h with hc hv ho
  split at h
  · cases h
  · exact ⟨Decidable.not_not.1 hv, (Except.ok.inj h).symm⟩

omit [LinearOrder V] in
theorem keysetWhere_ok {offset : ℕ} (hc : columns ≠ []) (hm : columns.length ≤ MAX_KEYSET_COLUMNS)
    (hi : ∀ column ∈ columns, isSqlIdentifier column = true) (hv : columns.length = values.length)
    (ho : offset < 2 ^ 53) : keysetWhere columns values (some direction) (some offset) =
      .ok { terms := keysetTerms direction.comparison offset columns, parameters := values } := by
  have hf : columns.find? (fun column => !isSqlIdentifier column) = none := by simpa using hi
  unfold keysetWhere
  rw [if_neg (by simpa [hc] using hm), if_neg (not_not.2 hv)]
  dsimp only
  rw [if_neg (by simp only [Option.getD_some]; omega), hf]
  rfl

/-! ### The list -/

/-- A page of a list, as its callers query it: the rows behind the cursor, in the order of the
keyset, up to a limit. -/
def listPage (columns : List String) (direction : Direction) (limit : ℕ) (rows : List (TableRow V))
    (cursor : Option (List V)) : Except String (List (TableRow V) × Option (List V)) :=
  let page := Keyset.page (List.Lex direction.before) (positionOf columns) limit
  match cursor with
  | none => .ok (page rows)
  | some values => do
    let predicate ← keysetWhere columns values (some direction) none
    return page (rows.filter fun row => predicate.satisfied predicate.parameters row)

/-- The pages of a list are those behind its cursors. -/
theorem listPage_eq {limit : ℕ} {rows : List (TableRow V)} {cursor : Option (List V)}
    {result : List (TableRow V) × Option (List V)} (hr : ∀ row ∈ rows, ∀ c ∈ columns, row c ≠ none)
    (h : listPage columns direction limit rows cursor = .ok result) :
    Keyset.pageBehind (List.Lex direction.before) (positionOf columns) limit rows cursor = result := by
  unfold listPage at h
  unfold Keyset.pageBehind
  cases cursor with
  | none =>
    have ha : rows.filter (fun row => decide (Keyset.Behind (List.Lex direction.before) (positionOf columns) none row)) =
        rows := List.filter_eq_self.2 fun row _ => decide_eq_true nofun
    rw [ha]
    exact Except.ok.inj h
  | some values =>
    obtain ⟨predicate, hp, h⟩ := bind_eq_ok h
    obtain ⟨hl, rfl⟩ := keysetWhere_eq_ok hp
    rw [← Except.ok.inj h]
    refine congrArg _ (List.filter_congr fun row hrow => ?_)
    have hs := @satisfied_iff V _ direction row columns values 0 values hl
      (fun i _ => by rw [Nat.zero_add]) (hr row hrow)
    rw [strictlyAfter_iff hl (hl.symm.trans (length_positionOf (hr row hrow)).symm)] at hs
    rw [Bool.eq_iff_iff, decide_eq_true_iff, KeysetPredicate.satisfied]
    refine Iff.trans ?_ hs.symm
    simp [Keyset.Behind]

end

/-! ### Cursors -/

/-- A letter of base64url; a reader takes those of base64 too. -/
def base64urlLetter (c : Char) : Option Char :=
  if c = '+' then some '-' else if c = '/' then some '_'
  else if c.isAlphanum ∨ c = '-' ∨ c = '_' then some c else none

/-- `Buffer.from(text, 'base64url')`: what is no letter is left out, and nothing is read behind a `=`. -/
def fromBase64url (text : List Char) : Bytes :=
  base64urlBytes ((text.takeWhile (· ≠ '=')).filterMap base64urlLetter)

/-- What the platform does: `createHmac('sha256', secret)`, `toString('utf8')` and `JSON.parse`. -/
class CursorHost where
  hmac : Bytes → Bytes → Vector UInt8 32
  toText : Bytes → String
  parse : String → Option Json

/-- What is relied on: a text in UTF-8 is read back, and so is an object that was written. -/
structure CursorHost.Lawful [CursorHost] : Prop where
  toText : ∀ text, CursorHost.toText (Bytes.utf8 text) = text
  parse : ∀ fields : List (String × Json), (fields.map (·.1)).Nodup →
    CursorHost.parse (Json.stringify (.obj fields)) = some (.obj fields)

/-- A field of a cursor; a number that is not finite is none. -/
inductive CursorValue
  | text (value : String)
  | number (value : Option Decimal)

/-- A field as `JSON.stringify` writes it. -/
def CursorValue.json : CursorValue → Json
  | .text value => .str value
  | .number (some value) => .num value
  | .number none => .null

/-- A field as `decodeCursor` takes it. -/
def cursorValue : Json → Option CursorValue
  | .str value => some (.text value)
  | .num value => some (.number (some value))
  | _ => none

def MAX_CURSOR_LENGTH : ℕ := 1024

def CURSOR_SECRET_BYTES : ℕ := 32

def invalidCursor : String :=
  "CURSOR_INVALID: The page cursor is not valid."

section

variable [CursorHost]

def signature (body : List Char) (secret : Bytes) : Bytes :=
  (CursorHost.hmac secret (Bytes.utf8 (String.ofList body))).toList

def encodeCursor (payload : List (String × CursorValue)) (secret : Bytes) : Except String String :=
  if secret.length < CURSOR_SECRET_BYTES then
    .error s!"Cursor signing requires {CURSOR_SECRET_BYTES} bytes."
  else
    match payload.find? fun (_, value) => match value with | .number none => true | _ => false with
    | some (key, _) => .error s!"Cursor field {key} must be a finite number."
    | none =>
      let fields := payload.map fun (key, value) => (key, value.json)
      let body := base64urlChars (Bytes.utf8 (Json.stringify (.obj fields)))
      let signed := 'c' :: '1' :: '.' :: body
      let cursor := String.ofList (signed ++ '.' :: base64urlChars (signature signed secret))
      if MAX_CURSOR_LENGTH < utf16Length cursor then
        .error s!"A page cursor is at most {MAX_CURSOR_LENGTH} characters; page by keyset, not by state."
      else .ok cursor

def decodeCursor (cursor : String) (secret : Bytes) : Except String (List (String × CursorValue)) :=
  if secret.length < CURSOR_SECRET_BYTES then
    .error s!"Cursor signing requires {CURSOR_SECRET_BYTES} bytes."
  else if cursor = "" ∨ MAX_CURSOR_LENGTH < utf16Length cursor then .error invalidCursor
  else
    match cursor.toList.splitOn '.' with
    | [version, body, supplied] =>
      if version ≠ ['c', '1'] ∨ body = [] ∨ supplied = [] then .error invalidCursor
      else if fromBase64url supplied ≠ signature (version ++ '.' :: body) secret then .error invalidCursor
      else
        match CursorHost.parse (CursorHost.toText (fromBase64url body)) with
        | some (.obj fields) =>
          match fields.mapM fun (key, field) => (cursorValue field).map (key, ·) with
          | some payload => .ok payload
          | none => .error invalidCursor
        | _ => .error invalidCursor
    | _ => .error invalidCursor

end

section Base64url

variable {bytes : Bytes}

theorem of_mem_base64urlChars :
    ∀ c ∈ base64urlChars bytes, base64urlLetter c = some c ∧ c ≠ '=' ∧ c ≠ '.' :=
  base64urlChars_all (by decide +kernel) bytes

/-- **What is written in base64url is read back.** -/
theorem fromBase64url_base64urlChars (bytes : Bytes) : fromBase64url (base64urlChars bytes) = bytes := by
  have hc := @of_mem_base64urlChars bytes
  rw [fromBase64url, List.takeWhile_eq_self_iff.2 fun c h => decide_eq_true (hc c h).2.1,
    List.filterMap_congr fun c h => (hc c h).1, List.filterMap_some, base64urlBytes_base64urlChars]

theorem dot_not_mem_base64urlChars : '.' ∉ base64urlChars bytes :=
  fun h => (of_mem_base64urlChars _ h).2.2 rfl

theorem base64urlChars_ne_nil (h : bytes ≠ []) : base64urlChars bytes ≠ [] := by
  fun_cases base64urlChars bytes <;> simp_all

end Base64url

/-- The fields of a position are read back. -/
theorem mapM_cursorValue : ∀ {payload : List (String × CursorValue)},
    (payload.find? fun (_, value) => match value with | .number none => true | _ => false) = none →
      (payload.map fun (key, value) => (key, value.json)).mapM
        (fun (key, field) => (cursorValue field).map (key, ·)) = some payload := by
  intro payload
  induction payload with
  | nil => exact fun _ => rfl
  | cons field payload ih =>
    obtain ⟨key, value⟩ := field
    intro h
    rcases value with text | _ | number
    · rw [List.map_cons, List.mapM_cons, ih (by simpa using h)]
      rfl
    · cases h
    · rw [List.map_cons, List.mapM_cons, ih (by simpa using h)]
      rfl

/-- **A cursor is the position it was made from.** -/
theorem decodeCursor_encodeCursor [CursorHost] (hl : CursorHost.Lawful) {payload : List (String × CursorValue)}
    {secret : Bytes} {cursor : String} (hk : (payload.map (·.1)).Nodup)
    (h : encodeCursor payload secret = .ok cursor) : decodeCursor cursor secret = .ok payload := by
  unfold encodeCursor at h
  split_ifs at h with hsec
  split at h
  · cases h
  · next hfin =>
    dsimp only at h
    split_ifs at h with hlen
    obtain rfl := Except.ok.inj h
    set fields := payload.map fun (key, value) => (key, value.json) with hf
    set body := base64urlChars (Bytes.utf8 (Json.stringify (.obj fields))) with hbody
    set supplied := base64urlChars (signature ('c' :: '1' :: '.' :: body) secret) with hs
    have hb : body ≠ [] := by
      refine base64urlChars_ne_nil fun hnil => ?_
      have he : Json.stringify (.obj fields) = "" := Bytes.utf8_injective (hnil.trans rfl)
      simp [Json.stringify] at he
    have hsup : supplied ≠ [] := by
      refine base64urlChars_ne_nil fun hnil => ?_
      have hz : (signature ('c' :: '1' :: '.' :: body) secret).length = 32 := Vector.length_toList
      rw [hnil] at hz
      cases hz
    have hspl : ('c' :: '1' :: '.' :: body ++ '.' :: supplied).splitOn '.' = [['c', '1'], body, supplied] := by
      have hj : 'c' :: '1' :: '.' :: body ++ '.' :: supplied = ['.'].intercalate [['c', '1'], body, supplied] := by
        simp [List.intercalate]
      rw [hj]
      refine List.splitOn_intercalate '.' (fun part hp => ?_) (List.cons_ne_nil _ _)
      simp only [List.mem_cons, List.not_mem_nil, or_false] at hp
      rcases hp with rfl | rfl | rfl
      · decide
      · exact dot_not_mem_base64urlChars
      · exact dot_not_mem_base64urlChars
    have hn : (fields.map (·.1)).Nodup := by
      rw [hf, List.map_map]
      exact hk
    have hsig : fromBase64url supplied = signature (['c', '1'] ++ '.' :: body) secret := fromBase64url_base64urlChars _
    have hr : fromBase64url body = Bytes.utf8 (Json.stringify (.obj fields)) := fromBase64url_base64urlChars _
    unfold decodeCursor
    rw [if_neg hsec, if_neg (by
      rintro (he | hlong)
      · exact absurd (congrArg String.toList he) (by simp)
      · exact hlen hlong), String.toList_ofList, hspl]
    dsimp only
    rw [if_neg (by simp [hb, hsup]), if_neg (not_not.2 hsig), hr, hl.toText, hl.parse fields hn]
    dsimp only
    rw [hf, mapM_cursorValue hfin]

/-! ### The list of a keyset -/

instance {V : Type} [LinearOrder V] (direction : Direction) :
    IsStrictTotalOrder (List V) (List.Lex direction.before) :=
  { isStrictWeakOrder_of_isOrderConnected with }

/-- The text and the value of a host, as they are written. -/
@[reducible] noncomputable def sampleCursorHost : CursorHost where
  hmac _ _ := Vector.replicate 32 7
  toText := Function.invFun Bytes.utf8
  parse := Function.partialInv Json.stringify

/-- The columns of a keyset have one direction: no predicate of two columns is the order in which
the first descends and the second ascends. -/
theorem keyset_one_direction : ∀ direction : Option Direction, ∃ predicate,
    keysetWhere ["a", "b"] [1, 1] direction none = .ok predicate ∧
      ∃ row : TableRow ℕ, ¬ (predicate.satisfied [1, 1] row = true ↔
        StrictlyAfter [.desc, .asc] [1, 1] (positionOf ["a", "b"] row)) := by
  have hasc : ∃ predicate, keysetWhere ["a", "b"] [1, 1] (some .asc) none = .ok predicate ∧
      predicate.satisfied [1, 1] (fun column => if column = "a" then some 2 else some 0) = true :=
    ⟨_, rfl, by decide +kernel⟩
  have hd : ∀ direction, direction ≠ some .asc → ∃ predicate, keysetWhere ["a", "b"] [1, 1] direction none =
      .ok predicate ∧ predicate.satisfied [1, 1] (fun column => if column = "a" then some 1 else some 2) = false := by
    rintro (_ | _ | _) hne
    · exact ⟨_, rfl, by decide +kernel⟩
    · exact absurd rfl hne
    · exact ⟨_, rfl, by decide +kernel⟩
  intro direction
  by_cases hdir : direction = some .asc
  · subst hdir
    obtain ⟨predicate, hk, hs⟩ := hasc
    refine ⟨predicate, hk, fun column => if column = "a" then some 2 else some 0, fun hi => ?_⟩
    have ha := hi.1 hs
    simp [StrictlyAfter, positionOf, Direction.before] at ha
  · obtain ⟨predicate, hk, hs⟩ := hd direction hdir
    refine ⟨predicate, hk, fun column => if column = "a" then some 1 else some 2, fun hi => ?_⟩
    have hf := hi.2 (by simp [StrictlyAfter, positionOf, Direction.before])
    rw [hs] at hf
    cases hf

end Flowdular.Server
