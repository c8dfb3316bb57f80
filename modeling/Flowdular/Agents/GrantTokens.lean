/-
# What a grant token carries

Issuing bounds the claims one by one, and verifying bounds the whole token.  A character of a claim may
take six bytes in JSON, so five claims of 256 characters each may make a token of more than 8192
(`length_tokenOf`).  Where the token is not too long, it verifies as the claims it was issued with until
they expire (`verify_tokenOf`); and a token that nobody forged carries claims that were issued
(`claims_of_verify`).
-/

import Flowdular.Agents.RunGrants

namespace Flowdular.Agents

open Lib (Bytes)
open Lib.Bytes (utf8)
open Workflows

/-! ### Plain characters -/

/-- A character that is one byte in a token and in JSON, and no separator. -/
def isPlain (c : Char) : Bool :=
  0x20 ≤ c.toNat && c.toNat < 0x7f && c ≠ '.' && c.toNat ≠ 0x22 && c.toNat ≠ 0x5c

variable {c : Char} {field : String}

theorem isPlain_iff : isPlain c = true ↔
    0x20 ≤ c.toNat ∧ c.toNat < 0x7f ∧ c ≠ '.' ∧ c.toNat ≠ 0x22 ∧ c.toNat ≠ 0x5c := by
  simp [isPlain, and_assoc]

theorem base64urlChar_plain : ∀ n < 64, isPlain (base64urlChar n) = true := by
  decide

/-- What every character of the alphabet has. -/
theorem base64urlChars_all {p : Char → Prop} (hp : ∀ n < 64, p (base64urlChar n)) (bytes : Bytes) :
    ∀ c ∈ base64urlChars bytes, p c := by
  have hl : ∀ a : UInt8, a.toNat < 256 := fun a => a.toNat_lt
  induction bytes using base64urlChars.induct with
  | case1 => exact fun c hc => nomatch hc
  | case2 a =>
    have := hl a
    simp only [base64urlChars, List.forall_mem_cons]
    exact ⟨hp _ (by omega), hp _ (by omega), fun c hc => nomatch hc⟩
  | case3 a b =>
    have := hl a
    have := hl b
    simp only [base64urlChars, List.forall_mem_cons]
    exact ⟨hp _ (by omega), hp _ (by omega), hp _ (by omega), fun c hc => nomatch hc⟩
  | case4 a b c rest ih =>
    have := hl a
    have := hl b
    have := hl c
    simp only [base64urlChars, List.forall_mem_cons]
    exact ⟨hp _ (by omega), hp _ (by omega), hp _ (by omega), hp _ (by omega), ih⟩

theorem base64urlChars_plain (bytes : Bytes) : ∀ c ∈ base64urlChars bytes, isPlain c = true :=
  base64urlChars_all base64urlChar_plain bytes

theorem length_base64urlChars (bytes : Bytes) :
    (base64urlChars bytes).length = (4 * bytes.length + 2) / 3 := by
  induction bytes using base64urlChars.induct with
  | case1 => rfl
  | case2 a => simp [base64urlChars]
  | case3 a b => simp [base64urlChars]
  | case4 a b c rest ih =>
    rw [base64urlChars]
    simp only [List.length_cons, ih]
    omega

/-- A text of plain characters is as long in UTF-16 as it has characters. -/
theorem utf16Length_plain {text : String} (h : ∀ c ∈ text.toList, c.toNat < 0x10000) :
    utf16Length text = text.toList.length := by
  rw [utf16Length, codeUnits]
  have hu : ∀ cs : List Char, (∀ c ∈ cs, c.toNat < 0x10000) →
      (cs.flatMap fun c => if c.toNat < 0x10000 then [c.toNat]
        else [0xd800 + (c.toNat - 0x10000) / 0x400, 0xdc00 + (c.toNat - 0x10000) % 0x400]).length =
        cs.length := by
    intro cs hcs
    induction cs with
    | nil => rfl
    | cons c cs ih =>
      rw [List.flatMap_cons, if_pos (hcs c List.mem_cons_self), List.length_append]
      rw [ih fun c hc => hcs c (List.mem_cons_of_mem _ hc)]
      simp only [List.length_cons, List.length_nil]
      omega
  exact hu text.toList h

/-! ### Bytes -/

/-- How many bytes characters are in UTF-8. -/
def bytesOf (cs : List Char) : ℕ :=
  (cs.flatMap String.utf8EncodeChar).length

@[simp] theorem bytesOf_nil : bytesOf [] = 0 :=
  rfl

@[simp] theorem bytesOf_append (cs ds : List Char) : bytesOf (cs ++ ds) = bytesOf cs + bytesOf ds := by
  rw [bytesOf, List.flatMap_append, List.length_append, bytesOf, bytesOf]

theorem bytesOf_cons (h : c.toNat < 0x80) (cs : List Char) :
    bytesOf (c :: cs) = bytesOf cs + 1 := by
  have ho : (String.utf8EncodeChar c).length = 1 := by
    have hv : c.val ≤ 127 := Nat.le_of_lt_succ h
    rw [String.utf8EncodeChar_eq_singleton (Char.utf8Size_eq_one_iff.2 hv)]
    rfl
  rw [bytesOf, List.flatMap_cons, List.length_append, ho, bytesOf, Nat.add_comm]

theorem length_utf8 (text : String) : (utf8 text).length = bytesOf text.toList :=
  rfl

/-- How many bytes a text is within the quotes of JSON. -/
def textBytes (text : String) : ℕ :=
  bytesOf (text.toList.flatMap Json.quoteChar)

/-- How many bytes an integer is in JSON. -/
def numberBytes (n : ℤ) : ℕ :=
  bytesOf (Decimal.ofInt n).text.toList

theorem bytesOf_quote (text : String) : bytesOf (Json.quote text).toList = textBytes text + 2 := by
  have hm : Json.mark.toNat < 0x80 := by decide
  rw [Json.toList_quote, bytesOf_cons hm, bytesOf_append, bytesOf_cons hm]
  rfl

/-- A plain text is a byte for each character. -/
theorem textBytes_plain {text : String} (h : ∀ c ∈ text.toList, isPlain c = true) :
    textBytes text = text.toList.length := by
  have hcha : ∀ cs : List Char, (∀ c ∈ cs, isPlain c = true) →
      bytesOf (cs.flatMap Json.quoteChar) = cs.length := by
    intro cs hcs
    induction cs with
    | nil => rfl
    | cons c cs ih =>
      obtain ⟨hl, hh, -, hq, hsla⟩ := isPlain_iff.1 (hcs c List.mem_cons_self)
      have hs : Json.quoteChar c = [c] := by
        rw [Json.quoteChar]
        rw [if_neg hq, if_neg hsla, if_neg (by omega), if_neg (by omega), if_neg (by omega),
          if_neg (by omega), if_neg (by omega), if_neg (by omega)]
      rw [List.flatMap_cons, hs, List.singleton_append, bytesOf_cons (by omega)]
      rw [ih fun c hc => hcs c (List.mem_cons_of_mem _ hc), List.length_cons]
  exact hcha text.toList h

theorem textBytes_base64url (bytes : Bytes) : textBytes (base64url bytes) = (4 * bytes.length + 2) / 3 := by
  have hp : ∀ c ∈ (base64url bytes).toList, isPlain c = true := by
    rw [base64url, String.toList_ofList]
    exact base64urlChars_plain bytes
  rw [textBytes_plain hp, base64url, String.toList_ofList, length_base64urlChars]

theorem bytesOf_entryChars (e : String × Json) :
    bytesOf (Json.entryChars e) = textBytes e.1 + bytesOf e.2.chars + 3 := by
  rw [Json.entryChars, bytesOf_append, bytesOf_quote, bytesOf_cons (by decide)]
  omega

/-- How many bytes the entries of an object are. -/
theorem bytesOf_obj (e : String × Json) (entries : List (String × Json)) :
    bytesOf (Json.obj (e :: entries)).chars =
      ((e :: entries).map fun e => textBytes e.1 + bytesOf e.2.chars + 4).sum + 1 := by
  have hr : ∀ entries : List (String × Json),
      bytesOf (entries.flatMap fun e => ',' :: Json.entryChars e) =
        (entries.map fun e => textBytes e.1 + bytesOf e.2.chars + 4).sum := by
    intro entries
    induction entries with
    | nil => rfl
    | cons e entries ih =>
      rw [List.flatMap_cons, bytesOf_append, bytesOf_cons (by decide), bytesOf_entryChars, ih]
      rw [List.map_cons, List.sum_cons]
  rw [Json.chars_obj, bytesOf_cons (by decide), bytesOf_append, Reads.intercalate_cons_map]
  rw [bytesOf_append, bytesOf_entryChars, hr, bytesOf_cons (by decide), List.map_cons, List.sum_cons]
  rw [bytesOf_nil]
  omega

/-- How many bytes claims are: what is the same in all, the texts and the numbers. -/
theorem bytesOf_claims (claims : AgentRunGrantClaims) :
    bytesOf (Json.obj claims.entries).chars = 243 + textBytes claims.grantId + textBytes claims.tenantId +
      textBytes claims.runId + textBytes claims.providerId + textBytes claims.modelId +
      textBytes claims.workerId + textBytes claims.permissionDigest + textBytes claims.toolGrantDigest +
      numberBytes claims.attempt + numberBytes claims.issuedAt + numberBytes claims.expiresAt := by
  have hs : ∀ text, bytesOf (Json.str text).chars = textBytes text + 2 := bytesOf_quote
  have hn : ∀ n, bytesOf (Json.num (.ofInt n)).chars = numberBytes n := fun _ => rfl
  have hv : bytesOf (Json.num 1).chars = 1 := by decide +kernel
  have hk : ["version", "issuer", "audience", "grantId", "tenantId", "runId", "providerId", "modelId",
      "workerId", "attempt", "permissionDigest", "toolGrantDigest", "issuedAt", "expiresAt", grantIssuer,
      grantAudience].map textBytes = [7, 6, 8, 7, 8, 5, 10, 7, 8, 7, 16, 15, 8, 9, 23, 21] := by
    decide +kernel
  simp only [List.map_cons, List.map_nil, List.cons.injEq, and_true] at hk
  rw [AgentRunGrantClaims.entries, bytesOf_obj]
  simp only [List.map_cons, List.map_nil, List.sum_cons, List.sum_nil, hs, hn, hv, hk]
  omega

/-! ### Reading claims -/

/-- A text that `stringClaim` takes. -/
def IsStringClaim (text : String) (maximum : ℕ) : Prop :=
  1 ≤ utf16Length text ∧ utf16Length text ≤ maximum ∧ Char.ofNat 0 ∉ text.toList

/-- A number that `numberClaim` takes. -/
def IsNumberClaim (n : ℤ) : Prop :=
  0 ≤ n ∧ n ≤ Metering.MAX_SAFE_INTEGER

instance {text : String} {maximum : ℕ} : Decidable (IsStringClaim text maximum) :=
  inferInstanceAs (Decidable (_ ∧ _))

instance {n : ℤ} : Decidable (IsNumberClaim n) :=
  inferInstanceAs (Decidable (_ ∧ _))

theorem stringClaim_ok {text text' : String} {maximum : ℕ} :
    stringClaim (some (.str text)) field maximum = .ok text' ↔
      text' = text ∧ IsStringClaim text maximum := by
  rw [stringClaim]
  split_ifs with h
  · rw [Except.ok.injEq]
    exact ⟨fun heq => ⟨heq.symm, h⟩, fun heq => heq.1.symm⟩
  · exact ⟨fun heq => (nomatch heq), fun heq => absurd heq.2 h⟩

theorem numberClaim_ok {n n' : ℤ} :
    numberClaim (some (.num (.ofInt n))) field = .ok n' ↔ n' = n ∧ IsNumberClaim n := by
  have hs : (Decimal.ofInt n).isSafeInteger = true ∧ 0 ≤ n ↔ IsNumberClaim n := by
    rw [Audit.isSafeInteger_ofInt, IsNumberClaim, Metering.MAX_SAFE_INTEGER]
    constructor
    · rintro ⟨ha, hp⟩
      rw [abs_of_nonneg hp] at ha
      exact ⟨hp, ha⟩
    · rintro ⟨hp, hle⟩
      rw [abs_of_nonneg hp]
      exact ⟨hle, hp⟩
  rw [numberClaim]
  simp only [Decimal.whole_ofInt]
  split_ifs with h
  · rw [Except.ok.injEq]
    exact ⟨fun heq => ⟨heq.symm, hs.1 h⟩, fun heq => heq.1.symm⟩
  · exact ⟨fun heq => (nomatch heq), fun heq => absurd (hs.2 heq.2) h⟩

/-- Claims that are read as they are. -/
structure AgentRunGrantClaims.Valid (claims : AgentRunGrantClaims) : Prop where
  grantId : IsStringClaim claims.grantId 256
  tenantId : IsStringClaim claims.tenantId 256
  runId : IsStringClaim claims.runId 256
  providerId : IsStringClaim claims.providerId 256
  modelId : IsStringClaim claims.modelId 256
  workerId : IsStringClaim claims.workerId 256
  attempt : IsNumberClaim claims.attempt
  permissionDigest : IsStringClaim claims.permissionDigest 64
  toolGrantDigest : IsStringClaim claims.toolGrantDigest 64
  issuedAt : IsNumberClaim claims.issuedAt
  expiresAt : IsNumberClaim claims.expiresAt

namespace AgentRunGrantAuthority

/-- What is read of the entries of claims. -/
theorem claimsIn_entries_eq (claims : AgentRunGrantClaims) : claimsIn claims.entries = (do
    let grantId ← stringClaim (some (.str claims.grantId)) "grantId"
    let tenantId ← stringClaim (some (.str claims.tenantId)) "tenantId"
    let runId ← stringClaim (some (.str claims.runId)) "runId"
    let providerId ← stringClaim (some (.str claims.providerId)) "providerId"
    let modelId ← stringClaim (some (.str claims.modelId)) "modelId"
    let workerId ← stringClaim (some (.str claims.workerId)) "workerId"
    let attempt ← numberClaim (some (.num (.ofInt claims.attempt))) "attempt"
    let permissionDigest ← stringClaim (some (.str claims.permissionDigest)) "permissionDigest" 64
    let toolGrantDigest ← stringClaim (some (.str claims.toolGrantDigest)) "toolGrantDigest" 64
    let issuedAt ← numberClaim (some (.num (.ofInt claims.issuedAt))) "issuedAt"
    let expiresAt ← numberClaim (some (.num (.ofInt claims.expiresAt))) "expiresAt"
    return {
      grantId, tenantId, runId, providerId, modelId, workerId, attempt, permissionDigest,
      toolGrantDigest, issuedAt, expiresAt }) :=
  rfl

/-- **Claims are read as they are, or not at all.** -/
theorem claimsIn_entries {claims claims' : AgentRunGrantClaims} :
    claimsIn claims.entries = .ok claims' ↔ claims' = claims ∧ claims.Valid := by
  rw [claimsIn_entries_eq]
  constructor
  · intro h
    obtain ⟨grantId, h₁, h⟩ := Lib.bind_eq_ok h
    obtain ⟨tenantId, h₂, h⟩ := Lib.bind_eq_ok h
    obtain ⟨runId, h₃, h⟩ := Lib.bind_eq_ok h
    obtain ⟨providerId, h₄, h⟩ := Lib.bind_eq_ok h
    obtain ⟨modelId, h₅, h⟩ := Lib.bind_eq_ok h
    obtain ⟨workerId, h₆, h⟩ := Lib.bind_eq_ok h
    obtain ⟨attempt, h₇, h⟩ := Lib.bind_eq_ok h
    obtain ⟨permissionDigest, h₈, h⟩ := Lib.bind_eq_ok h
    obtain ⟨toolGrantDigest, h₉, h⟩ := Lib.bind_eq_ok h
    obtain ⟨issuedAt, h₁₀, h⟩ := Lib.bind_eq_ok h
    obtain ⟨expiresAt, h₁₁, h⟩ := Lib.bind_eq_ok h
    obtain ⟨rfl, v₁⟩ := stringClaim_ok.1 h₁
    obtain ⟨rfl, v₂⟩ := stringClaim_ok.1 h₂
    obtain ⟨rfl, v₃⟩ := stringClaim_ok.1 h₃
    obtain ⟨rfl, v₄⟩ := stringClaim_ok.1 h₄
    obtain ⟨rfl, v₅⟩ := stringClaim_ok.1 h₅
    obtain ⟨rfl, v₆⟩ := stringClaim_ok.1 h₆
    obtain ⟨rfl, v₇⟩ := numberClaim_ok.1 h₇
    obtain ⟨rfl, v₈⟩ := stringClaim_ok.1 h₈
    obtain ⟨rfl, v₉⟩ := stringClaim_ok.1 h₉
    obtain ⟨rfl, v₁₀⟩ := numberClaim_ok.1 h₁₀
    obtain ⟨rfl, v₁₁⟩ := numberClaim_ok.1 h₁₁
    exact ⟨(Except.ok.inj h).symm, v₁, v₂, v₃, v₄, v₅, v₆, v₇, v₈, v₉, v₁₀, v₁₁⟩
  · rintro ⟨rfl, h⟩
    rw [stringClaim_ok.2 ⟨rfl, h.grantId⟩, stringClaim_ok.2 ⟨rfl, h.tenantId⟩,
      stringClaim_ok.2 ⟨rfl, h.runId⟩, stringClaim_ok.2 ⟨rfl, h.providerId⟩,
      stringClaim_ok.2 ⟨rfl, h.modelId⟩, stringClaim_ok.2 ⟨rfl, h.workerId⟩,
      numberClaim_ok.2 ⟨rfl, h.attempt⟩, stringClaim_ok.2 ⟨rfl, h.permissionDigest⟩,
      stringClaim_ok.2 ⟨rfl, h.toolGrantDigest⟩, numberClaim_ok.2 ⟨rfl, h.issuedAt⟩,
      numberClaim_ok.2 ⟨rfl, h.expiresAt⟩]
    rfl

/-- The claims of an input are those it names, where each is taken. -/
theorem claimsOf_ok [GrantHost] {input : IssueAgentRunGrantInput} {grantId : Uuid}
    {issuedAt expiresAt : ℤ} {claims : AgentRunGrantClaims}
    (h : claimsOf input grantId issuedAt expiresAt = .ok claims) :
    claims = {
      grantId := grantId.text, tenantId := input.tenantId, runId := input.runId
      providerId := input.providerId, modelId := input.modelId, workerId := input.workerId
      attempt := input.attempt, permissionDigest := grantDigest input.permissions
      toolGrantDigest := grantDigest input.toolGrants, issuedAt, expiresAt } ∧
    IsStringClaim input.tenantId 256 ∧ IsStringClaim input.runId 256 ∧
      IsStringClaim input.providerId 256 ∧ IsStringClaim input.modelId 256 ∧
      IsStringClaim input.workerId 256 ∧ IsNumberClaim input.attempt := by
  rw [claimsOf] at h
  obtain ⟨tenantId, h₂, h⟩ := Lib.bind_eq_ok h
  obtain ⟨runId, h₃, h⟩ := Lib.bind_eq_ok h
  obtain ⟨providerId, h₄, h⟩ := Lib.bind_eq_ok h
  obtain ⟨modelId, h₅, h⟩ := Lib.bind_eq_ok h
  obtain ⟨workerId, h₆, h⟩ := Lib.bind_eq_ok h
  obtain ⟨attempt, h₇, h⟩ := Lib.bind_eq_ok h
  obtain ⟨rfl, v₂⟩ := stringClaim_ok.1 h₂
  obtain ⟨rfl, v₃⟩ := stringClaim_ok.1 h₃
  obtain ⟨rfl, v₄⟩ := stringClaim_ok.1 h₄
  obtain ⟨rfl, v₅⟩ := stringClaim_ok.1 h₅
  obtain ⟨rfl, v₆⟩ := stringClaim_ok.1 h₆
  obtain ⟨rfl, v₇⟩ := numberClaim_ok.1 h₇
  exact ⟨(Except.ok.inj h).symm, v₂, v₃, v₄, v₅, v₆, v₇⟩

end AgentRunGrantAuthority

/-! ### Tokens -/

section Tokens

variable [GrantHost] {authority : AgentRunGrantAuthority} {claims : AgentRunGrantClaims}
  {input : IssueAgentRunGrantInput} {grantId : Uuid} {issuedAt : ℤ}

/-- The signature of claims. -/
def grantSignature (authority : AgentRunGrantAuthority) (claims : AgentRunGrantClaims) : String :=
  base64url (GrantHost.hmac authority.key ("v1." ++ grantPayload claims)).toList

variable {bytes : Bytes} {now : ℤ} {token : String} {issued : IssuedAgentRunGrant}

omit [GrantHost] in
theorem plain_base64url : ∀ c ∈ (base64url bytes).toList, isPlain c = true := by
  rw [base64url, String.toList_ofList]
  exact base64urlChars_plain bytes

omit [GrantHost] in
theorem length_base64url : (base64url bytes).toList.length = (4 * bytes.length + 2) / 3 := by
  rw [base64url, String.toList_ofList, length_base64urlChars]

theorem tokenOf_toList : (authority.tokenOf claims).toList =
    ['.'].intercalate [['v', '1'], (grantPayload claims).toList, (grantSignature authority claims).toList] := by
  rw [AgentRunGrantAuthority.tokenOf, ← grantSignature]
  simp [List.intercalate, List.intersperse]

/-- **How long a token is.** -/
theorem length_tokenOf : utf16Length (authority.tokenOf claims) =
    (4 * bytesOf (Json.obj claims.entries).chars + 2) / 3 + 47 := by
  have hpay : (grantPayload claims).toList.length =
      (4 * bytesOf (Json.obj claims.entries).chars + 2) / 3 := length_base64url
  have hs : (grantSignature authority claims).toList.length = 43 := by
    rw [grantSignature, length_base64url, Vector.length_toList]
  have hl : (authority.tokenOf claims).toList = 'v' :: '1' :: '.' :: ((grantPayload claims).toList ++
      '.' :: (grantSignature authority claims).toList) := by
    rw [tokenOf_toList]
    simp [List.intercalate, List.intersperse]
  have hsma : ∀ c ∈ (authority.tokenOf claims).toList, c.toNat < 0x10000 := by
    have hp : ∀ {bytes : Bytes}, ∀ c ∈ (base64url bytes).toList, c.toNat < 0x10000 := by
      intro bytes c hc
      have := (isPlain_iff.1 (plain_base64url c hc)).2.1
      omega
    rw [hl]
    simp only [List.forall_mem_cons, List.forall_mem_append]
    exact ⟨by decide, by decide, by decide, hp, by decide, hp⟩
  rw [utf16Length_plain hsma, hl]
  simp only [List.length_cons, List.length_append, hpay, hs]

/-- A token is split where its parts were joined. -/
theorem partsOf_tokenOf : AgentRunGrantAuthority.partsOf (authority.tokenOf claims) =
    some (grantPayload claims, grantSignature authority claims) := by
  have hd : ∀ {bytes : Bytes}, '.' ∉ (base64url bytes).toList := by
    intro bytes hm
    exact (isPlain_iff.1 (plain_base64url '.' hm)).2.2.1 rfl
  have hs : (authority.tokenOf claims).toList.splitOn '.' =
      [['v', '1'], (grantPayload claims).toList, (grantSignature authority claims).toList] := by
    rw [tokenOf_toList, List.splitOn_intercalate _ _ (List.cons_ne_nil _ _)]
    simp only [List.forall_mem_cons]
    exact ⟨by decide, hd, hd, fun _ h => nomatch h⟩
  have hp : (grantPayload claims).toList ≠ [] := by
    intro hn
    have hl := congrArg List.length hn
    rw [grantPayload, length_base64url, length_utf8] at hl
    have hb := bytesOf_claims claims
    rw [Json.chars] at hb
    simp only [List.length_nil] at hl
    omega
  have hsig : (grantSignature authority claims).toList ≠ [] := by
    intro hn
    have hl := congrArg List.length hn
    rw [grantSignature, length_base64url, Vector.length_toList] at hl
    simp at hl
  rw [AgentRunGrantAuthority.partsOf, hs]
  simp [hp, hsig]

/-- **A token that is not too long verifies as the claims it was made of**, within their lifetime. -/
theorem verify_tokenOf (hlaw : GrantHost.Lawful) (hv : claims.Valid)
    (hi : claims.issuedAt ≤ now) (hn : now < claims.expiresAt)
    (hlife : claims.expiresAt - claims.issuedAt ≤ authority.ttlMs)
    (hs : utf16Length (authority.tokenOf claims) ≤ 8192) :
    authority.verify (authority.tokenOf claims) now = .ok claims := by
  have hlen : ¬(utf16Length (authority.tokenOf claims) < 64 ∨
      8192 < utf16Length (authority.tokenOf claims)) := by
    have hbyt := bytesOf_claims claims
    rw [length_tokenOf] at hs ⊢
    omega
  have hsig : authority.signs (grantPayload claims) (grantSignature authority claims) = true := by
    rw [AgentRunGrantAuthority.signs, grantSignature, hlaw.fromBase64url, decide_eq_true_eq]
  have hp : GrantHost.parse (GrantHost.toText (GrantHost.fromBase64url (grantPayload claims))) =
      some (.obj claims.entries) := by
    rw [grantPayload, hlaw.fromBase64url, hlaw.toText, hlaw.parse]
  have hl : authority.checkLifetime claims now = .ok claims := by
    rw [AgentRunGrantAuthority.checkLifetime, if_neg (by omega)]
  have hb : ¬(claims.entries.lookup "version" ≠ some (.num 1) ∨
      claims.entries.lookup "issuer" ≠ some (.str grantIssuer) ∨
      claims.entries.lookup "audience" ≠ some (.str grantAudience)) := by
    rintro (h | h | h)
    · exact h rfl
    · exact h rfl
    · exact h rfl
  rw [AgentRunGrantAuthority.verify, if_neg hlen, partsOf_tokenOf]
  simp only [hsig, hp, Bool.true_eq_false, if_false]
  rw [AgentRunGrantAuthority.readPayload, if_neg hb, AgentRunGrantAuthority.claimsIn_entries.2 ⟨rfl, hv⟩]
  exact hl

/-- What `verify` accepts has parts, and its payload is that of claims it reads. -/
theorem verify_ok (h : authority.verify token now = .ok claims) :
    utf16Length token ≤ 8192 ∧ ∃ payload signature,
      AgentRunGrantAuthority.partsOf token = some (payload, signature) ∧
        authority.signs payload signature = true ∧
        authority.readPayload
          (GrantHost.parse (GrantHost.toText (GrantHost.fromBase64url payload))) now = .ok claims := by
  rw [AgentRunGrantAuthority.verify] at h
  split at h
  · cases h
  · next hl =>
    split at h
    · cases h
    · next payload signature hp =>
      split at h
      · cases h
      · next hs =>
        exact ⟨by omega, payload, signature, hp, by simpa using hs, h⟩

/-- **What nobody forged carries claims that were issued**, and that did not expire. -/
theorem claims_of_verify (hlaw : GrantHost.Lawful)
    {issued : List IssuedAgentRunGrant} (hf : Unforged authority issued token = true)
    (h : authority.verify token now = .ok claims) :
    (∃ grant ∈ issued, grant.claims = claims) ∧ now < claims.expiresAt := by
  obtain ⟨-, payload, signature, hpar, hs, hr⟩ := verify_ok h
  rw [Unforged, hpar] at hf
  simp only [hs, Bool.not_true, Bool.false_or] at hf
  obtain ⟨grant, hg, hp⟩ := List.any_eq_true.1 hf
  have hp' : grantPayload grant.claims = payload := of_decide_eq_true hp
  rw [← hp', grantPayload, hlaw.fromBase64url, hlaw.toText, hlaw.parse] at hr
  rw [AgentRunGrantAuthority.readPayload] at hr
  split at hr
  · cases hr
  · obtain ⟨claims', hc, hl⟩ := Lib.bind_eq_ok hr
    obtain ⟨rfl, -⟩ := AgentRunGrantAuthority.claimsIn_entries.1 hc
    rw [AgentRunGrantAuthority.checkLifetime] at hl
    split at hl
    · cases hl
    · next hn =>
      rw [Except.ok.injEq] at hl
      rw [← hl]
      exact ⟨⟨grant, hg, rfl⟩, by omega⟩

/-! ### What is issued -/

omit [GrantHost] in
/-- A plain text is a claim. -/
theorem isStringClaim_plain {text : String} {maximum : ℕ} (h : ∀ c ∈ text.toList, isPlain c = true)
    (hp : 1 ≤ text.toList.length) (hle : text.toList.length ≤ maximum) : IsStringClaim text maximum := by
  have hl : utf16Length text = text.toList.length := by
    refine utf16Length_plain fun c hc => ?_
    have := (isPlain_iff.1 (h c hc)).2.1
    omega
  refine ⟨by omega, by omega, fun hm => ?_⟩
  have := (isPlain_iff.1 (h _ hm)).1
  revert this
  decide

omit [GrantHost] in
theorem plain_uuid : ∀ c ∈ grantId.text.toList, isPlain c = true := by
  have hh : ∀ c ∈ "0123456789abcdef".toList, isPlain c = true := List.forall_iff_forall_mem.1 (by decide)
  intro c hc
  rcases grantId.plain c hc with rfl | hc
  · decide
  · exact hh c hc

omit [GrantHost] in
theorem isStringClaim_uuid : IsStringClaim grantId.text 256 := by
  have hl := grantId.length
  exact isStringClaim_plain plain_uuid (by omega) (by omega)

theorem isStringClaim_digest {values : List String} : IsStringClaim (grantDigest values) 64 := by
  have hl : (grantDigest values).toList.length = 43 := by
    rw [grantDigest, length_base64url, Vector.length_toList]
  exact isStringClaim_plain plain_base64url (by omega) (by omega)

/-- The claims of a grant that is issued. -/
def issuedClaims (authority : AgentRunGrantAuthority) (input : IssueAgentRunGrantInput) (grantId : Uuid)
    (issuedAt : ℤ) : AgentRunGrantClaims where
  grantId := grantId.text
  tenantId := input.tenantId
  runId := input.runId
  providerId := input.providerId
  modelId := input.modelId
  workerId := input.workerId
  attempt := input.attempt
  permissionDigest := grantDigest input.permissions
  toolGrantDigest := grantDigest input.toolGrants
  issuedAt := issuedAt
  expiresAt := authority.expiryOf input issuedAt

/-- **What `issue` answers.** -/
theorem issue_ok (h : authority.issue input grantId issuedAt = .ok issued) :
    issued = ⟨authority.tokenOf (issuedClaims authority input grantId issuedAt),
      issuedClaims authority input grantId issuedAt⟩ ∧
    issuedAt + 500 ≤ authority.expiryOf input issuedAt ∧
    (0 ≤ issuedAt → issuedAt ≤ Metering.MAX_INSTANT_MS →
      (issuedClaims authority input grantId issuedAt).Valid) := by
  rw [AgentRunGrantAuthority.issue] at h
  split at h
  · cases h
  · next hl =>
    obtain ⟨claims, hc, h⟩ := Lib.bind_eq_ok h
    obtain ⟨rfl, ht, hr, hp, hm, hw, ha⟩ :=
      AgentRunGrantAuthority.claimsOf_ok hc
    have hl' : ¬authority.expiryOf input issuedAt - issuedAt < 500 := hl
    refine ⟨(Except.ok.inj h).symm, by omega, fun hpos hle => ?_⟩
    have hlife : authority.expiryOf input issuedAt ≤ issuedAt + authority.ttlMs := min_le_left _ _
    have hb := authority.bounded
    have hmax : Metering.MAX_INSTANT_MS + 300000 ≤ Metering.MAX_SAFE_INTEGER := by decide
    refine ⟨isStringClaim_uuid, ht, hr, hp, hm, hw, ha,
      isStringClaim_digest, isStringClaim_digest, ⟨hpos, ?_⟩, ?_, ?_⟩
    · show issuedAt ≤ _
      omega
    · show 0 ≤ authority.expiryOf input issuedAt
      omega
    · show authority.expiryOf input issuedAt ≤ _
      omega

/-- An input whose names are claims is issued a grant, where its lease is long enough. -/
theorem issue_eq (hl : issuedAt + 500 ≤ authority.expiryOf input issuedAt)
    (ht : IsStringClaim input.tenantId 256) (hr : IsStringClaim input.runId 256)
    (hp : IsStringClaim input.providerId 256) (hm : IsStringClaim input.modelId 256)
    (hw : IsStringClaim input.workerId 256) (ha : IsNumberClaim input.attempt) :
    authority.issue input grantId issuedAt =
      .ok ⟨authority.tokenOf (issuedClaims authority input grantId issuedAt),
        issuedClaims authority input grantId issuedAt⟩ := by
  have hc : AgentRunGrantAuthority.claimsOf input grantId issuedAt
      (authority.expiryOf input issuedAt) = .ok (issuedClaims authority input grantId issuedAt) := by
    rw [AgentRunGrantAuthority.claimsOf, stringClaim_ok.2 ⟨rfl, ht⟩, stringClaim_ok.2 ⟨rfl, hr⟩,
      stringClaim_ok.2 ⟨rfl, hp⟩, stringClaim_ok.2 ⟨rfl, hm⟩,
      stringClaim_ok.2 ⟨rfl, hw⟩, numberClaim_ok.2 ⟨rfl, ha⟩]
    rfl
  have hn : ¬authority.expiryOf input issuedAt - issuedAt < 500 := by omega
  rw [AgentRunGrantAuthority.issue]
  simp only [if_neg hn, hc]
  rfl

/-- How many bytes the claims of an input are in JSON: 365 that are the same for all, and its names and
numbers. -/
def grantBytes (authority : AgentRunGrantAuthority) (input : IssueAgentRunGrantInput) (issuedAt : ℤ) :
    ℕ :=
  365 + textBytes input.tenantId + textBytes input.runId + textBytes input.providerId +
    textBytes input.modelId + textBytes input.workerId + numberBytes input.attempt +
    numberBytes issuedAt + numberBytes (authority.expiryOf input issuedAt)

theorem bytesOf_issuedClaims :
    bytesOf (Json.obj (issuedClaims authority input grantId issuedAt).entries).chars =
      grantBytes authority input issuedAt := by
  have hid : textBytes grantId.text = 36 := by rw [textBytes_plain plain_uuid, grantId.length]
  have hd : ∀ values, textBytes (grantDigest values) = 43 := by
    intro values
    rw [grantDigest, textBytes_base64url, Vector.length_toList]
  rw [bytesOf_claims, grantBytes]
  simp only [issuedClaims, hid, hd]
  omega

/-- **An issued token verifies as its claims until they expire, where it is short enough.** -/
theorem verify_issued (hlaw : GrantHost.Lawful)
    (h : authority.issue input grantId issuedAt = .ok issued) (hp : 0 ≤ issuedAt)
    (hle : issuedAt ≤ Metering.MAX_INSTANT_MS) (hi : issuedAt ≤ now)
    (hn : now < issued.claims.expiresAt) :
    authority.verify issued.token now = .ok issued.claims ↔ grantBytes authority input issuedAt ≤ 6108 := by
  obtain ⟨rfl, -, hv⟩ := issue_ok h
  have hlen := @length_tokenOf _ authority (issuedClaims authority input grantId issuedAt)
  rw [bytesOf_issuedClaims] at hlen
  constructor
  · intro hver
    have hs := (verify_ok hver).1
    change utf16Length (authority.tokenOf _) ≤ 8192 at hs
    omega
  · intro hs
    refine verify_tokenOf hlaw (hv hp hle) hi hn ?_ (by omega)
    have hl : authority.expiryOf input issuedAt ≤ issuedAt + authority.ttlMs := min_le_left _ _
    show authority.expiryOf input issuedAt - issuedAt ≤ authority.ttlMs
    omega

end Tokens

/-! ### A host -/

/-- The number of a character of the alphabet. -/
def sextet (c : Char) : ℕ :=
  if c = '-' then 62
  else if c = '_' then 63
  else if c.toNat < 58 then c.toNat + 4
  else if c.toNat < 91 then c.toNat - 65
  else c.toNat - 71

theorem sextet_base64urlChar : ∀ n < 64, sextet (base64urlChar n) = n := by
  decide

/-- `Buffer.from(…, 'base64url')`, of a text in the alphabet. -/
def base64urlBytes : List Char → Bytes
  | a :: b :: c :: d :: rest =>
    UInt8.ofNat (sextet a * 4 + sextet b / 16) :: UInt8.ofNat (sextet b % 16 * 16 + sextet c / 4) ::
      UInt8.ofNat (sextet c % 4 * 64 + sextet d) :: base64urlBytes rest
  | [a, b, c] =>
    [UInt8.ofNat (sextet a * 4 + sextet b / 16), UInt8.ofNat (sextet b % 16 * 16 + sextet c / 4)]
  | [a, b] => [UInt8.ofNat (sextet a * 4 + sextet b / 16)]
  | _ => []

theorem base64urlBytes_base64urlChars (bytes : Bytes) : base64urlBytes (base64urlChars bytes) = bytes := by
  have hbyte : ∀ (a : UInt8) (n : ℕ), n = a.toNat → UInt8.ofNat n = a := by
    rintro a n rfl
    exact UInt8.ofNat_toNat
  induction bytes using base64urlChars.induct with
  | case1 => rfl
  | case2 a =>
    have ha := a.toNat_lt
    rw [base64urlChars, base64urlBytes, sextet_base64urlChar _ (by omega),
      sextet_base64urlChar _ (by omega), hbyte a _ (by omega)]
  | case3 a b =>
    have ha := a.toNat_lt
    have hb := b.toNat_lt
    rw [base64urlChars, base64urlBytes, sextet_base64urlChar _ (by omega),
      sextet_base64urlChar _ (by omega), sextet_base64urlChar _ (by omega), hbyte a _ (by omega),
      hbyte b _ (by omega)]
  | case4 a b c rest ih =>
    have ha := a.toNat_lt
    have hb := b.toNat_lt
    have hc := c.toNat_lt
    rw [base64urlChars, base64urlBytes, sextet_base64urlChar _ (by omega),
      sextet_base64urlChar _ (by omega), sextet_base64urlChar _ (by omega),
      sextet_base64urlChar _ (by omega), hbyte a _ (by omega), hbyte b _ (by omega),
      hbyte c _ (by omega), ih]

/-- A host whose digests are all the same, and whose readers read what is written. -/
@[reducible] noncomputable def plainGrantHost : GrantHost where
  sha256 _ := Vector.replicate 32 0
  hmac _ _ := Vector.replicate 32 0
  fromBase64url text := base64urlBytes text.toList
  toText := Function.invFun utf8
  parse := Function.partialInv Json.stringify

theorem plainGrantHost_lawful : @GrantHost.Lawful plainGrantHost := by
  refine @GrantHost.Lawful.mk plainGrantHost (fun bytes => ?_) ?_ fun claims => ?_
  · show base64urlBytes (base64url bytes).toList = bytes
    rw [base64url, String.toList_ofList, base64urlBytes_base64urlChars]
  · exact Function.leftInverse_invFun Lib.Bytes.utf8_injective
  · exact Function.partialInv_left Json.stringify_injective (.obj claims.entries)

end Flowdular.Agents
