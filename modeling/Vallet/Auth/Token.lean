import Vallet.Domain.Auth
import Vallet.Foundation.Encoding

/-!
# Token formats

Refresh tokens carry a credential identifier and a secret; access tokens carry
signed claims.  Randomness is an argument of the functions that draw it, so
every statement below holds for every value the generator could return.
-/

namespace Vallet.Auth

open Encoding GoString

def accessTokenLifetime : Int := 15 * Duration.minute

def refreshLineageLifetime : Int := 90 * 24 * Duration.hour

def credentialIDBytes : Nat := 16
def refreshSecretBytes : Nat := 32
def credentialIDChars : Nat := 22
def maxClientLabelLen : Nat := 64
def maxScopes : Nat := 32

def refreshTokenPrefix : GoString := utf8 "svr_"
def accessTokenPrefix : GoString := utf8 "sva_"

/-- The byte of `"."`. -/
def tokenSeparator : UInt8 := 46

theorem tokenSeparator_not_mem (bytes : List UInt8) : tokenSeparator ∉ base64Encode bytes :=
  dot_not_mem_base64Encode bytes

/-- What `randomBytes(n)` returns. -/
abbrev RandomBytes (count : Nat) := { bytes : List UInt8 // bytes.length = count }

def newCredentialID (random : RandomBytes credentialIDBytes) : RefreshCredentialID :=
  base64Encode random.val

theorem newCredentialID_ne_nil (random : RandomBytes credentialIDBytes) :
    newCredentialID random ≠ [] := by
  apply base64Encode_ne_nil
  intro empty
  have length := random.property
  rw [empty] at length
  cases length

def hashRefreshSecret (secret : List UInt8) : List UInt8 := sha256 secret

def secretMatches (stored secret : List UInt8) : Bool :=
  decide (stored = hashRefreshSecret secret)

def formatRefreshToken (id : RefreshCredentialID) (secret : List UInt8) : GoString :=
  refreshTokenPrefix ++ (id ++ tokenSeparator :: base64Encode secret)

/-- The part of `parseRefreshToken` that device codes share: an identifier of
fixed width and a secret of fixed length behind a known start. -/
def parseCredentialText (start : GoString) (secretBytes : Nat)
    (presented : GoString) : Except Err (GoString × List UInt8) :=
  match cutPrefix? presented start with
  | none => .error .authFailed
  | some body =>
    match cut? body tokenSeparator with
    | none => .error .authFailed
    | some (idPart, secretPart) =>
      if tokenSeparator ∈ secretPart then .error .authFailed
      else if idPart.length ≠ credentialIDChars then .error .authFailed
      else
        match base64Decode? idPart, base64Decode? secretPart with
        | some _, some secret =>
          if secret.length = secretBytes then .ok (idPart, secret)
          else .error .authFailed
        | _, _ => .error .authFailed

def parseRefreshToken (presented : GoString) : Except Err (RefreshCredentialID × List UInt8) :=
  parseCredentialText refreshTokenPrefix refreshSecretBytes presented

/-! ## Exact texts -/

section Exact

/-- Neither part around the first separator has line breaks or spare bits. -/
def Strict (start presented : GoString) : Prop :=
  ∀ body idPart secretPart, presented.cutPrefix? start = some body →
    body.cut? tokenSeparator = some (idPart, secretPart) →
    base64Canonical idPart ∧ base64Canonical secretPart

/-- The text has its start and one separator, an identifier of the right width
that decodes, and a secret that decodes to the right length. -/
def WellSized (start : GoString) (secretBytes : Nat) (presented : GoString) : Prop :=
  ∃ idPart secretPart, presented = start ++ (idPart ++ tokenSeparator :: secretPart) ∧
    tokenSeparator ∉ idPart ∧ tokenSeparator ∉ secretPart ∧
    idPart.length = credentialIDChars ∧ (base64Decode? idPart).isSome = true ∧
    (base64Decode? secretPart).map List.length = some secretBytes

/-- What is accepted is what was issued for the credential that is returned. -/
def Exact (parse : GoString → Except Err (GoString × List UInt8))
    (format : GoString → List UInt8 → GoString) (secretBytes : Nat)
    (presented : GoString) : Prop :=
  ∀ id secret, parse presented = .ok (id, secret) ↔
    (∃ random : RandomBytes credentialIDBytes, id = base64Encode random.val) ∧
      secret.length = secretBytes ∧ presented = format id secret

variable {start id presented : GoString} {secretBytes : Nat} {secret : List UInt8}

theorem strict_of_format {random : List UInt8} :
    Strict start (start ++ (base64Encode random ++ tokenSeparator :: base64Encode secret)) := by
  intro body idPart secretPart begun cut
  rw [cutPrefix?_append] at begun
  cases begun
  rw [cut?_append (tokenSeparator_not_mem random)] at cut
  cases cut
  exact ⟨base64Canonical_encode random, base64Canonical_encode secret⟩

theorem parseCredentialText_format (random : RandomBytes credentialIDBytes)
    (sized : secret.length = secretBytes) :
    parseCredentialText start secretBytes
        (start ++ (base64Encode random.val ++ tokenSeparator :: base64Encode secret)) =
      .ok (base64Encode random.val, secret) := by
  have length : (base64Encode random.val).length = credentialIDChars := by
    rw [length_base64Encode, random.property]
    rfl
  simp [parseCredentialText, cutPrefix?_append,
    cut?_append (tokenSeparator_not_mem random.val), tokenSeparator_not_mem,
    length, base64Decode?_encode, sized]

theorem parseCredentialText_ok
    (parsed : parseCredentialText start secretBytes presented = .ok (id, secret)) :
    ∃ secretPart random, presented = start ++ (id ++ tokenSeparator :: secretPart) ∧
      tokenSeparator ∉ id ∧ tokenSeparator ∉ secretPart ∧ id.length = credentialIDChars ∧
      base64Decode? id = some random ∧ base64Decode? secretPart = some secret ∧
      secret.length = secretBytes := by
  unfold parseCredentialText at parsed
  split at parsed
  · cases parsed
  rename_i body begun
  split at parsed
  · cases parsed
  rename_i idPart secretPart cut
  split at parsed
  · cases parsed
  rename_i single
  split at parsed
  · cases parsed
  rename_i wide
  split at parsed
  · rename_i random _ read readSecret
    split at parsed
    · rename_i long
      cases parsed
      obtain ⟨whole, first⟩ := cut?_eq_some cut
      exact ⟨secretPart, random, by rw [cutPrefix?_eq_some begun, whole], first, single,
        not_not.mp wide, read, readSecret, long⟩
    · cases parsed
  · cases parsed

theorem issued_of_strict (strict : Strict start presented)
    (parsed : parseCredentialText start secretBytes presented = .ok (id, secret)) :
    (∃ random : RandomBytes credentialIDBytes, id = base64Encode random.val) ∧
      secret.length = secretBytes ∧
      presented = start ++ (id ++ tokenSeparator :: base64Encode secret) := by
  obtain ⟨secretPart, random, rfl, first, _, wide, read, readSecret, long⟩ :=
    parseCredentialText_ok parsed
  obtain ⟨idPlain, secretPlain⟩ := strict _ id secretPart (cutPrefix?_append _ _)
    (cut?_append first secretPart)
  have same := base64Encode_decode idPlain read
  refine ⟨⟨⟨random, ?_⟩, same.symm⟩, long, by rw [base64Encode_decode secretPlain readSecret]⟩
  rw [← same, length_base64Encode] at wide
  simp only [credentialIDChars, credentialIDBytes] at wide ⊢
  omega

theorem wellSized_of_ok
    (parsed : parseCredentialText start secretBytes presented = .ok (id, secret)) :
    WellSized start secretBytes presented := by
  obtain ⟨secretPart, random, whole, first, single, wide, read, readSecret, long⟩ :=
    parseCredentialText_ok parsed
  exact ⟨id, secretPart, whole, first, single, wide, by rw [read]; rfl,
    by rw [readSecret, Option.map_some, long]⟩

theorem ok_of_wellSized (sized : WellSized start secretBytes presented) :
    ∃ result, parseCredentialText start secretBytes presented = .ok result := by
  obtain ⟨idPart, secretPart, rfl, first, single, wide, read, long⟩ := sized
  obtain ⟨random, read⟩ := Option.isSome_iff_exists.mp read
  obtain ⟨secret, readSecret, long⟩ := Option.map_eq_some_iff.mp long
  exact ⟨(idPart, secret), by
    simp [parseCredentialText, cutPrefix?_append, cut?_append first, single, wide, read,
      readSecret, long]⟩

theorem exact_iff (start : GoString) (secretBytes : Nat) (presented : GoString) :
    Exact (parseCredentialText start secretBytes)
        (fun id secret => start ++ (id ++ tokenSeparator :: base64Encode secret))
        secretBytes presented ↔
      Strict start presented ∨ ¬ WellSized start secretBytes presented := by
  have issued : ∀ id secret, (∃ random : RandomBytes credentialIDBytes,
      id = base64Encode random.val) ∧ secret.length = secretBytes ∧
        presented = start ++ (id ++ tokenSeparator :: base64Encode secret) →
      parseCredentialText start secretBytes presented = .ok (id, secret) := by
    rintro _ secret ⟨⟨random, rfl⟩, sized, rfl⟩
    exact parseCredentialText_format random sized
  constructor
  · intro agrees
    by_cases sized : WellSized start secretBytes presented
    · obtain ⟨⟨id, secret⟩, parsed⟩ := ok_of_wellSized sized
      obtain ⟨⟨random, rfl⟩, _, rfl⟩ := (agrees id secret).mp parsed
      exact .inl strict_of_format
    · exact .inr sized
  · rintro (strict | missized) id secret
    · exact ⟨issued_of_strict strict, issued id secret⟩
    · exact ⟨fun parsed => (missized (wellSized_of_ok parsed)).elim, issued id secret⟩

end Exact

/-- The loop of `ValidateScopes`: scopes seen so far and bindings counted. -/
def validateScopesFrom (total : Nat) : List Scope → List Scope → Nat → Except Err Nat
  | [], _, bindings => .ok bindings
  | scope :: rest, seen, bindings =>
    match scope.validate with
    | .error failure => .error failure
    | .ok () =>
      if scope ∈ seen then
        .error (.errorf ("auth: duplicate scope " ++ scope.kind.quoted) .invalidInput)
      else if scope.kind = .fullOwner ∧ total > 1 then
        .error (.errorf ("auth: scope kind " ++ scope.kind.quoted ++
          " must be the only scope in the set") .invalidInput)
      else
        validateScopesFrom total rest (scope :: seen)
          (if scope.kind.bindsResource then bindings + 1 else bindings)

def validateScopes (scopes : List Scope) : Except Err Unit :=
  if scopes.isEmpty then
    .error (.errorf "auth: scope set must not be empty" .invalidInput)
  else if scopes.length > maxScopes then
    .error (.errorf "auth: scope set exceeds 32 entries" .invalidInput)
  else
    match validateScopesFrom scopes.length scopes [] 0 with
    | .error failure => .error failure
    | .ok bindings =>
      if bindings > 1 then
        .error (.errorf "auth: at most one resource binding per scope set" .invalidInput)
      else
        .ok ()

theorem validateScopesFrom_ok {total bindings count : Nat} {scopes seen : List Scope}
    (valid : validateScopesFrom total scopes seen bindings = .ok count) :
    (∀ scope ∈ scopes, scope.validate = .ok () ∧ scope ∉ seen ∧
      (scope.kind = .fullOwner → total ≤ 1)) ∧ scopes.Nodup ∧
      count = bindings + (scopes.filter (·.kind.bindsResource)).length := by
  induction scopes generalizing seen bindings with
  | nil =>
    cases valid
    simp
  | cons scope scopes induction =>
    rw [validateScopesFrom] at valid
    split at valid
    · cases valid
    rename_i formed
    split at valid
    · cases valid
    rename_i new
    split at valid
    · cases valid
    rename_i alone
    obtain ⟨members, distinct, counted⟩ := induction valid
    refine ⟨?_, ?_, ?_⟩
    · intro other member
      rcases List.mem_cons.mp member with rfl | later
      · exact ⟨formed, new, fun full => Nat.not_lt.mp fun more => alone ⟨full, more⟩⟩
      · obtain ⟨valid, unseen, single⟩ := members other later
        exact ⟨valid, fun listed => unseen (List.mem_cons_of_mem scope listed), single⟩
    · exact List.nodup_cons.mpr
        ⟨fun listed => (members scope listed).2.1 List.mem_cons_self, distinct⟩
    · rw [List.filter_cons, counted]
      split
      · rw [List.length_cons]
        omega
      · rfl

theorem validateScopes_ok {scopes : List Scope} (valid : validateScopes scopes = .ok ()) :
    scopes ≠ [] ∧ (∀ scope ∈ scopes, scope.validate = .ok () ∧
      (scope.kind = .fullOwner → scopes.length ≤ 1)) ∧ scopes.Nodup ∧
      (scopes.filter (·.kind.bindsResource)).length ≤ 1 := by
  unfold validateScopes at valid
  split at valid
  · cases valid
  rename_i filled
  split at valid
  · cases valid
  split at valid
  · cases valid
  rename_i counted
  split at valid
  · cases valid
  rename_i single
  obtain ⟨members, distinct, rfl⟩ := validateScopesFrom_ok counted
  exact ⟨by simpa using filled, fun scope member => (members scope member).imp_right (·.2),
    distinct, by omega⟩

/-- `unicode.IsControl`. -/
def isControl (rune : Char) : Bool :=
  decide (rune.toNat < 0x20) ||
    (decide (0x7f ≤ rune.toNat) && decide (rune.toNat < 0xa0))

def validateClientLabel (label : GoString) : Except Err Unit :=
  if label.length > maxClientLabelLen then
    .error (.errorf "auth: client label exceeds 64 bytes" .invalidInput)
  else
    match runes label with
    | none => .error (.errorf "auth: client label must be valid UTF-8" .invalidInput)
    | some runes =>
      if runes.any isControl then
        .error (.errorf "auth: client label must not contain control characters" .invalidInput)
      else
        .ok ()

/-! ## Access tokens -/

structure WireScope where
  kind : String
  resource : GoString
deriving DecidableEq, Repr

structure AccessClaims where
  ver : Int
  id : GoString
  owner : GoString
  refresh : GoString
  scopes : List WireScope
  issuedAt : Int
  expires : Int
deriving DecidableEq, Repr

/-- The JSON encoding of claims and its strict decoder. -/
structure ClaimsCodec where
  marshal : AccessClaims → List UInt8
  unmarshal? : List UInt8 → Option AccessClaims

/-- Decoding an encoding gives back the credential and the expiry. -/
def ClaimsCodec.Faithful (codec : ClaimsCodec) (claims : AccessClaims) : Prop :=
  ∀ decoded, codec.unmarshal? (codec.marshal claims) = some decoded →
    decoded.refresh = claims.refresh ∧ decoded.expires = claims.expires

def minSigningKeyLen : Nat := 32
def accessTokenVersion : Int := 1

structure AccessTokenSigner where
  key : List UInt8
  longEnough : minSigningKeyLen ≤ key.length
  codec : ClaimsCodec

def ScopeKind.ofText (text : String) : ScopeKind :=
  if text = ScopeKind.fullOwner.text then .fullOwner
  else if text = ScopeKind.readOnly.text then .readOnly
  else if text = ScopeKind.singleSet.text then .singleSet
  else if text = ScopeKind.singleDevice.text then .singleDevice
  else .unknown text

theorem ScopeKind.ofText_text {kind : ScopeKind} (valid : kind.isValid = true) :
    ofText kind.text = kind := by
  cases kind with
  | unknown text => cases valid
  | _ => rfl

def claimsOf (token : AccessToken) : AccessClaims where
  ver := accessTokenVersion
  id := token.id
  owner := token.ownerID
  refresh := token.refreshCredentialID
  scopes := token.scopes.map fun scope =>
    { kind := scope.kind.text, resource := scope.resourceID }
  issuedAt := unixSeconds token.issuedAt
  expires := unixSeconds token.expiresAt

namespace AccessTokenSigner

def mac (signer : AccessTokenSigner) (message : List UInt8) : List UInt8 :=
  hmacSha256 signer.key message

def issue (signer : AccessTokenSigner) (token : AccessToken) : Except Err GoString :=
  if token.id.isEmpty || token.ownerID.isEmpty ||
      token.refreshCredentialID.isEmpty then
    .error (.errorf "auth: access token is missing an identifier" .invalidInput)
  else
    match validateScopes token.scopes with
    | .error failure => .error failure
    | .ok () =>
      if ¬ token.issuedAt < token.expiresAt then
        .error (.errorf "auth: access token expires at or before it is issued" .invalidInput)
      else
        let encoded := base64Encode (signer.codec.marshal (claimsOf token))
        .ok (accessTokenPrefix ++ (encoded ++ tokenSeparator :: base64Encode (signer.mac encoded)))

/-- The checks `Verify` makes on claims whose signature was accepted. -/
def acceptClaims (claims : AccessClaims) (now : Int) : Except Err AccessToken :=
  let scopes : List Scope := claims.scopes.map fun scope =>
    { kind := ScopeKind.ofText scope.kind, resourceID := scope.resource }
  let issued := ofUnixSeconds claims.issuedAt
  let expires := ofUnixSeconds claims.expires
  if claims.ver ≠ accessTokenVersion then .error .authFailed
  else if claims.id.isEmpty || claims.owner.isEmpty ||
      claims.refresh.isEmpty then .error .authFailed
  else if (validateScopes scopes).toOption.isNone then .error .authFailed
  else if now < issued ∨ ¬ now < expires then .error .authFailed
  else
    .ok {
      id := claims.id
      ownerID := claims.owner
      refreshCredentialID := claims.refresh
      scopes := scopes
      issuedAt := issued
      expiresAt := expires }

def verify (signer : AccessTokenSigner) (presented : GoString) (now : Int) :
    Except Err AccessToken :=
  match cutPrefix? presented accessTokenPrefix with
  | none => .error .authFailed
  | some body =>
    match cut? body tokenSeparator with
    | none => .error .authFailed
    | some (encoded, macPart) =>
      if tokenSeparator ∈ macPart then .error .authFailed
      else if base64Decode? macPart ≠ some (signer.mac encoded) then
        .error .authFailed
      else
        match (base64Decode? encoded).bind signer.codec.unmarshal? with
        | none => .error .authFailed
        | some claims => acceptClaims claims now

variable {token verified : AccessToken} {signer : AccessTokenSigner}
  {raw presented encoded : GoString} {now : Int}

theorem acceptClaims_ok {claims : AccessClaims} (accepted : acceptClaims claims now = .ok token) :
    token.refreshCredentialID = claims.refresh ∧ now < ofUnixSeconds claims.expires := by
  unfold acceptClaims at accepted
  simp only at accepted
  split at accepted
  · cases accepted
  split at accepted
  · cases accepted
  split at accepted
  · cases accepted
  split at accepted
  · cases accepted
  · rename_i inTime
    cases accepted
    exact ⟨rfl, by omega⟩

/-- The text whose MAC `Issue` appends. -/
def encodedClaims (signer : AccessTokenSigner) (token : AccessToken) : GoString :=
  base64Encode (signer.codec.marshal (claimsOf token))

/-- The token with both times rounded down to whole seconds. -/
def floored (token : AccessToken) : AccessToken :=
  { token with
    issuedAt := ofUnixSeconds (unixSeconds token.issuedAt)
    expiresAt := ofUnixSeconds (unixSeconds token.expiresAt) }

/-- The presented text has this payload and a MAC that matches it. -/
def Carries (signer : AccessTokenSigner) (presented encoded : GoString) : Prop :=
  ∃ macPart, presented = accessTokenPrefix ++ (encoded ++ tokenSeparator :: macPart) ∧
    tokenSeparator ∉ encoded ∧ tokenSeparator ∉ macPart ∧
    base64Decode? macPart = some (signer.mac encoded)

theorem issue_ok (signed : signer.issue token = .ok raw) :
    ¬ (token.id.isEmpty || token.ownerID.isEmpty || token.refreshCredentialID.isEmpty) ∧
      validateScopes token.scopes = .ok () ∧ signer.Carries raw (signer.encodedClaims token) := by
  unfold issue at signed
  split at signed
  · cases signed
  rename_i named
  split at signed
  · cases signed
  rename_i valid
  split at signed
  · cases signed
  · cases signed
    exact ⟨named, valid, _, rfl, tokenSeparator_not_mem _, tokenSeparator_not_mem _,
      base64Decode?_encode _⟩

/-- The signature of an issued token is accepted, so its verdict is that on
the claims the decoder reads back. -/
theorem verify_of_carries (now : Int)
    (carries : signer.Carries presented (signer.encodedClaims token)) :
    signer.verify presented now =
      match signer.codec.unmarshal? (signer.codec.marshal (claimsOf token)) with
      | none => .error .authFailed
      | some claims => acceptClaims claims now := by
  obtain ⟨macPart, rfl, plain, single, matching⟩ := carries
  simp only [verify, cutPrefix?_append, cut?_append plain, if_neg single, matching, ne_eq,
    not_true, if_false]
  simp only [encodedClaims, base64Decode?_encode, Option.bind_some]

/-- A token that was issued and is accepted carries the claims that the
decoder reads back. -/
theorem verify_issued (signed : signer.issue token = .ok raw)
    (accepted : signer.verify raw now = .ok verified) :
    ∃ decoded,
      signer.codec.unmarshal? (signer.codec.marshal (claimsOf token)) = some decoded ∧
      acceptClaims decoded now = .ok verified := by
  rw [verify_of_carries now (issue_ok signed).2.2] at accepted
  split at accepted
  · cases accepted
  · rename_i decoded read
    exact ⟨decoded, read, accepted⟩

theorem carries_of_verify (accepted : signer.verify presented now = .ok verified) :
    ∃ encoded, signer.Carries presented encoded := by
  unfold verify at accepted
  split at accepted
  · cases accepted
  rename_i body begun
  split at accepted
  · cases accepted
  rename_i encoded macPart cut
  split at accepted
  · cases accepted
  rename_i single
  split at accepted
  · cases accepted
  rename_i matching
  obtain ⟨whole, plain⟩ := cut?_eq_some cut
  exact ⟨encoded, macPart, by rw [cutPrefix?_eq_some begun, whole], plain, single,
    not_not.mp matching⟩

theorem Carries.unique {other : GoString} (carries : signer.Carries presented encoded)
    (carriesOther : signer.Carries presented other) : encoded = other := by
  obtain ⟨macPart, rfl, plain, _, _⟩ := carries
  obtain ⟨otherMac, same, otherPlain, _, _⟩ := carriesOther
  have parts := cut?_append otherPlain otherMac
  rw [← List.append_cancel_left same, cut?_append plain] at parts
  exact congrArg Prod.fst (Option.some.inj parts)

/-- A call of `Issue` that returned a token. -/
def Issued (signer : AccessTokenSigner) (calls : Set AccessToken) (token : AccessToken) : Prop :=
  token ∈ calls ∧ ∃ raw, signer.issue token = .ok raw

/-- The claims `Issue` accepts pass every later check except that of the time. -/
theorem acceptClaims_claimsOf (now : Int) (signed : signer.issue token = .ok raw) :
    acceptClaims (claimsOf token) now =
      if now < (floored token).issuedAt ∨ ¬ now < (floored token).expiresAt then
        .error .authFailed
      else .ok (floored token) := by
  obtain ⟨named, valid, _⟩ := issue_ok signed
  have kept : (claimsOf token).scopes.map
      (fun scope => (⟨ScopeKind.ofText scope.kind, scope.resource⟩ : Scope)) = token.scopes := by
    simp only [claimsOf, List.map_map]
    refine (List.map_congr_left fun scope member => ?_).trans (List.map_id _)
    have formed := ((validateScopes_ok valid).2.1 scope member).1
    unfold Scope.validate at formed
    split at formed
    · cases formed
    · rename_i known
      simp only [Function.comp_apply, ScopeKind.ofText_text (by simpa using known), id]
  have present : ((claimsOf token).id.isEmpty || (claimsOf token).owner.isEmpty ||
      (claimsOf token).refresh.isEmpty) ≠ true := named
  simp only [acceptClaims, kept, valid, if_neg present]
  rfl

end AccessTokenSigner

end Vallet.Auth
