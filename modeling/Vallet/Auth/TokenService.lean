import Vallet.Auth.Credentials
import Vallet.Auth.Denylist

/-!
# Issuing, exchanging and verifying tokens

`Issue` starts a lineage with one committed insert.  The body of `Exchange` is
a program over credential statements, so that the same text can be run inside
one serialized transaction or interleaved with other transactions.  Draws of
the random generator, faults and store calls are arguments.
-/

namespace Vallet.Auth

open Counter Effects RefreshCredentialRepository

/-- What the random generator returns to one `Issue` or `Exchange`. -/
structure Draws where
  credentialID : RandomBytes credentialIDBytes
  secret : RandomBytes refreshSecretBytes
  accessTokenID : RandomBytes credentialIDBytes

structure Issued where
  refreshToken : GoString
  refreshExpiresAt : Int
  accessToken : GoString
  accessExpiresAt : Int
  ownerID : OwnerID
  lineageID : LineageID
  scopes : List Scope
deriving DecidableEq, Repr

/-- The access token `mint` signs. -/
def accessTokenFor (credential : RefreshCredential)
    (tokenID : RandomBytes credentialIDBytes) (now : Int) : AccessToken where
  id := Encoding.base64Encode tokenID.val
  ownerID := credential.ownerID
  refreshCredentialID := credential.id
  scopes := credential.scopes
  issuedAt := now
  expiresAt := now + accessTokenLifetime

def mint (signer : AccessTokenSigner) (credential : RefreshCredential)
    (draws : Draws) (now : Int) : Except Err Issued :=
  let access := accessTokenFor credential draws.accessTokenID now
  match signer.issue access with
  | .error failure => .error (.wrap "auth: issuing access token" failure)
  | .ok raw =>
    .ok {
      refreshToken := formatRefreshToken credential.id draws.secret.val
      refreshExpiresAt := credential.expiresAt
      accessToken := raw
      accessExpiresAt := access.expiresAt
      ownerID := credential.ownerID
      lineageID := credential.lineageID
      scopes := credential.scopes }

theorem mint_ok {signer : AccessTokenSigner} {credential : RefreshCredential}
    {draws : Draws} {now : Int} {issued : Issued}
    (minted : mint signer credential draws now = .ok issued) :
    signer.issue (accessTokenFor credential draws.accessTokenID now) = .ok issued.accessToken ∧
      issued.refreshToken = formatRefreshToken credential.id draws.secret.val ∧
      issued.ownerID = credential.ownerID ∧
      issued.lineageID = credential.lineageID ∧
      issued.scopes = credential.scopes := by
  simp only [mint] at minted
  split at minted
  · cases minted
  · rename_i raw signed
    cases minted
    exact ⟨signed, rfl, rfl, rfl, rfl⟩

/-! ## Issue -/

/-- The root credential of a new lineage. -/
def rootCredential (ownerID : OwnerID) (scopes : List Scope)
    (clientLabel : GoString) (now : Int) (draws : Draws) :
    RefreshCredential where
  id := newCredentialID draws.credentialID
  ownerID := ownerID
  lineageID := newCredentialID draws.credentialID
  secretHash := hashRefreshSecret draws.secret.val
  scopes := scopes
  clientLabel := clientLabel
  rotatedFromID := none
  issuedAt := now
  expiresAt := now + refreshLineageLifetime
  status := .active
  revokedAt := none

/-- What `Issue` has checked is all that minting can fail on. -/
theorem mint_rootCredential (signer : AccessTokenSigner) {ownerID : OwnerID}
    {scopes : List Scope} (clientLabel : GoString) (now : Int)
    (draws : Draws) (named : ownerID ≠ []) (validScopes : validateScopes scopes = .ok ()) :
    ∃ issued, mint signer (rootCredential ownerID scopes clientLabel now draws)
      draws now = .ok issued := by
  have tokenNamed := newCredentialID_ne_nil draws.accessTokenID
  have credentialNamed := newCredentialID_ne_nil draws.credentialID
  have lives : now < now + accessTokenLifetime := Int.lt_add_of_pos_right now (by decide)
  unfold newCredentialID at tokenNamed
  simp [mint, AccessTokenSigner.issue, accessTokenFor, rootCredential,
    tokenNamed, named, credentialNamed, validScopes, lives]

def issue (signer : AccessTokenSigner) (ownerID : OwnerID)
    (scopes : List Scope) (clientLabel : GoString) (now : Int)
    (draws : Draws) : Program CredentialStatement (Except Err Issued) :=
  if ownerID.isEmpty then
    return .error (.errorf "auth: owner id must not be empty" .invalidInput)
  else
    match validateScopes scopes, validateClientLabel clientLabel with
    | .error failure, _ => return .error failure
    | .ok (), .error failure => return .error failure
    | .ok (), .ok () => do
        let root := rootCredential ownerID scopes clientLabel now draws
        match ← RefreshCredentialRepository.create root with
        | .error failure => return .error (.wrap "auth: creating refresh credential" failure)
        | .ok () => return mint signer root draws now

/-! ## Exchange -/

/-- What the transaction hands to the code after it: the new pair, if one was
issued, and the rows to list on the denylist. -/
structure ExchangeOutcome where
  issued : Option Issued
  revoked : List RefreshCredential

/-- A denial that wrote nothing. -/
def ExchangeOutcome.denied : ExchangeOutcome where
  issued := none
  revoked := []

/-- Revoke the whole lineage.  A failure to read the rows back is swallowed,
so that it cannot undo the revocation. -/
def revokeLineage (credential : RefreshCredential) (now : Int) :
    Program CredentialStatement (Except Err ExchangeOutcome) := do
  match ← RefreshCredentialRepository.revokeLineage credential.ownerID credential.lineageID now with
  | .error failure => return .error failure
  | .ok _ =>
    match ← listByLineage credential.ownerID credential.lineageID with
    | .error _ => return .ok { issued := none, revoked := [] }
    | .ok rows => return .ok { issued := none, revoked := rows }

/-- The credential a rotation creates. -/
def successor (credential : RefreshCredential) (now : Int) (draws : Draws) : RefreshCredential where
  id := newCredentialID draws.credentialID
  ownerID := credential.ownerID
  lineageID := credential.lineageID
  secretHash := hashRefreshSecret draws.secret.val
  scopes := credential.scopes
  clientLabel := credential.clientLabel
  rotatedFromID := some credential.id
  issuedAt := now
  expiresAt := credential.expiresAt
  status := .active
  revokedAt := none

/-- Consume an active credential and create its successor. -/
def rotate (signer : AccessTokenSigner) (credential : RefreshCredential)
    (now : Int) (draws : Draws) :
    Program CredentialStatement (Except Err ExchangeOutcome) := do
  match ← markRotated credential.ownerID credential.id with
  | .error failure =>
    if failure.is .conflict then revokeLineage credential now
    else return .error failure
  | .ok () =>
    let child := successor credential now draws
    match ← RefreshCredentialRepository.create child with
    | .error failure => return .error failure
    | .ok () =>
      match mint signer child draws now with
      | .error failure => return .error failure
      | .ok issued => return .ok { issued := some issued, revoked := [] }

/-- `Exchange` once the presented secret has been matched to a credential and
its owner has been read. -/
def exchangeFor (signer : AccessTokenSigner) (credential : RefreshCredential)
    (owner : Owner) (now : Int) (draws : Draws) :
    Program CredentialStatement (Except Err ExchangeOutcome) :=
  if owner.id ≠ credential.ownerID then return .ok .denied
  else if !owner.inGoodStanding then return .ok .denied
  else if credential.status ≠ .active then revokeLineage credential now
  else if ¬ now < credential.expiresAt then return .ok .denied
  else if (validateScopes credential.scopes).toOption.isNone then
    return .ok .denied
  else rotate signer credential now draws

/-- The transaction of `Exchange` for a parsed token. -/
def exchangeTx (signer : AccessTokenSigner) (id : RefreshCredentialID)
    (secret : List UInt8) (now : Int) (draws : Draws) :
    Program CredentialStatement (Except Err ExchangeOutcome) := do
  match ← getByID id with
  | .error failure =>
    if failure.is .notFound then return .ok .denied
    else return .error failure
  | .ok credential =>
    if credential.id ≠ id then return .ok .denied
    else if !secretMatches credential.secretHash secret then
      return .ok .denied
    else if credential.ownerID.isEmpty || credential.lineageID.isEmpty then
      return .ok .denied
    else
      match ← OwnerRepository.get credential.ownerID with
      | .error failure =>
        if failure.is .notFound then return .ok .denied
        else return .error failure
      | .ok owner => exchangeFor signer credential owner now draws

/-- The repository part of `EnrollmentService.revokeLineage`: its two calls
commit one by one, and the rows are those it goes on to list. -/
def revokeIssuedLineage (ownerID : OwnerID) (lineageID : LineageID) (now : Int) :
    Program CredentialStatement (List RefreshCredential) := do
  match ← RefreshCredentialRepository.revokeLineage ownerID lineageID now with
  | .error _ => return []
  | .ok _ =>
    match ← listByLineage ownerID lineageID with
    | .error _ => return []
    | .ok rows => return rows

/-- The tables and the store behind the denylist. -/
structure TokenState (σ : Type) where
  tables : CredentialTables
  denylist : σ

section Service

variable {σ : Type} [CounterStore σ]

/-- List the rows a committed transaction revoked; a failure is only logged. -/
def denyRevoked (store : σ) (calls : Nat → StoreCall) (now : Int)
    (revoked : List RefreshCredential) : σ :=
  if revoked.isEmpty then store
  else (Denylist.revokeLineage store calls now revoked).2

/-- What `WithTx` reports when it cannot begin or commit. -/
def commitFault : Err := .errorf "sqlite: commit transaction" .driver

def exchange (signer : AccessTokenSigner) (presented : GoString) (now : Int)
    (draws : Draws) (plan : FaultPlan) (calls : Nat → StoreCall)
    (state : TokenState σ) : Except Err Issued × TokenState σ :=
  match parseRefreshToken presented with
  | .error _ => (.error .authFailed, state)
  | .ok (id, secret) =>
    match transact credentialInterpreter commitFault
        (exchangeTx signer id secret now draws) plan state.tables with
    | (.error _, tables) => (.error .authFailed, { state with tables })
    | (.ok outcome, tables) =>
      let after : TokenState σ :=
        { tables
          denylist := denyRevoked state.denylist calls now outcome.revoked }
      match outcome.issued with
      | none => (.error .authFailed, after)
      | some issued => (.ok issued, after)

/-- `Verify`: the stateless checks first, then the denylist. -/
def verify (signer : AccessTokenSigner) (presented : GoString)
    (call : StoreCall) (store : σ) : Except Err AccessToken × σ :=
  match signer.verify presented call.now with
  | .error failure => (.error failure, store)
  | .ok token =>
    match Denylist.check store call (some token) with
    | (.error _, after) => (.error .authFailed, after)
    | (.ok _, after) => (.ok token, after)

end Service

end Vallet.Auth
