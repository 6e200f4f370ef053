import Vallet.Auth.TokenSystem

/-!
# Safety of lineages over serialized runs

The joint invariant of `Lineage` and the one-way progress of credentials give
the contract of the token service: one active credential for each lineage,
single use of every refresh token, an unmovable deadline, and the end of a
lineage once any member of it is revoked.
-/

namespace Vallet.Auth

open Counter Effects Relational CredentialTables

/-- A presented token names a stored credential of a lineage. -/
def CredentialTables.PresentsLineage (tables : CredentialTables)
    (presented : GoString) (lineageID : LineageID) : Prop :=
  ∃ id secret credential, parseRefreshToken presented = .ok (id, secret) ∧
    credential ∈ tables.refreshCredentials ∧ credential.id = id ∧
    credential.lineageID = lineageID

namespace TokenSystem

variable {σ : Type} [CounterStore σ] {signer : AccessTokenSigner}
  {system : TokenSystem σ} {call : ExchangeCall} {issued : Issued}
  {credential : RefreshCredential} {secret : List UInt8}
  {lineageID : LineageID} {id : RefreshCredentialID}

theorem exchange_ok (returned : (system.exchange signer call).1 = .ok issued) :
    ∃ id secret credential, parseRefreshToken call.presented = .ok (id, secret) ∧
      credential ∈ system.state.tables.refreshCredentials ∧
      credential.id = id ∧ credential.status = .active ∧
      call.now < credential.expiresAt ∧
      issued.lineageID = credential.lineageID ∧
      (system.state.tables.rotateCredential credential.ownerID
        credential.id).insertCredential (successor credential call.now call.draws) =
        (.inserted, (system.exchange signer call).2.state.tables) ∧
      mint signer (successor credential call.now call.draws) call.draws call.now = .ok issued := by
  rcases exchange_cases signer call.presented call.now call.draws call.plan
      call.calls system.state with
    ⟨failed, _⟩ | ⟨id, secret, outcome, tables, parsed, effect, ran⟩
  · rw [exchange, failed] at returned
    cases returned
  · rw [exchange, ran] at returned ⊢
    cases effect with
    | denied | burned => cases returned
    | @rotated credential _ minted stored named authentic active unexpired inserted mintedEq =>
      cases returned
      refine ⟨id, secret, credential, parsed, stored, named, active,
        unexpired, (mint_ok mintedEq).2.2.2.1, inserted, mintedEq⟩

theorem exchange_ok_of_stored
    (parsed : parseRefreshToken call.presented = .ok (credential.id, secret))
    (stored : credential ∈ system.state.tables.refreshCredentials)
    (returned : (system.exchange signer call).1 = .ok issued) :
    (system.state.tables.rotateCredential credential.ownerID
        credential.id).insertCredential (successor credential call.now call.draws) =
        (.inserted, (system.exchange signer call).2.state.tables) ∧
      mint signer (successor credential call.now call.draws) call.draws call.now = .ok issued := by
  obtain ⟨id, otherSecret, other, otherParsed, otherStored, otherNamed, _, _,
    _, inserted, minted⟩ := exchange_ok returned
  rw [parsed] at otherParsed
  cases otherParsed
  have same := Table.eq_of_key_eq otherStored stored otherNamed
  subst other
  exact ⟨inserted, minted⟩

omit [CounterStore σ] in
/-- What `Issue` returns is minted from the root it inserted. -/
theorem issue_ok {call : IssueCall} (returned : (system.issue signer call).1 = .ok issued) :
    system.state.tables.insertCredential (rootCredential call.ownerID
        call.scopes call.clientLabel call.now call.draws) =
        (.inserted, (system.issue signer call).2.state.tables) ∧
      mint signer (rootCredential call.ownerID call.scopes call.clientLabel
        call.now call.draws) call.draws call.now = .ok issued := by
  rcases issue_effect signer call.ownerID call.scopes call.clientLabel
      call.now call.draws call.faults system.state.tables with
    ⟨failure, ran⟩ | ⟨extended, _, _, insertion, ran⟩
  · simp only [issue, ran] at returned
    cases returned
  · simp only [issue, ran] at returned ⊢
    exact ⟨insertion, returned⟩

theorem stored_of_presents {tables : CredentialTables}
    (presents : tables.PresentsLineage call.presented lineageID)
    (parsed : parseRefreshToken call.presented = .ok (id, secret))
    (stored : credential ∈ tables.refreshCredentials)
    (named : credential.id = id) : credential.lineageID = lineageID := by
  obtain ⟨otherID, otherSecret, other, otherParsed, otherStored, otherNamed, lineage⟩ := presents
  rw [parsed] at otherParsed
  cases otherParsed
  rw [Table.eq_of_key_eq stored otherStored (named.trans otherNamed.symm)]
  exact lineage

/-- Without an active credential in the lineage, no token of it can be
exchanged. -/
theorem exchange_error_of_inactive (inactive : ∀ credential ∈ system.state.tables.lineage lineageID,
      credential.status ≠ .active) (presents : system.state.tables.PresentsLineage call.presented
      lineageID) :
    ∃ failure, (system.exchange signer call).1 = .error failure := by
  cases returned : (system.exchange signer call).1 with
  | error failure => exact ⟨failure, rfl⟩
  | ok issued =>
    obtain ⟨id, secret, credential, parsed, stored, named, active, _⟩ := exchange_ok returned
    have lineage := stored_of_presents presents parsed stored named
    exact (inactive credential (mem_lineage.mpr ⟨stored, lineage⟩) active).elim

theorem exchange_error_of_spent (parsed : parseRefreshToken call.presented = .ok (id, secret))
    (stored : credential ∈ system.state.tables.refreshCredentials)
    (named : credential.id = id) (spent : credential.status ≠ .active) :
    ∃ failure, (system.exchange signer call).1 = .error failure := by
  cases returned : (system.exchange signer call).1 with
  | error failure => exact ⟨failure, rfl⟩
  | ok issued =>
    obtain ⟨otherID, otherSecret, other, otherParsed, otherStored,
      otherNamed, active, _⟩ := exchange_ok returned
    rw [parsed] at otherParsed
    cases otherParsed
    have same : credential = other :=
      Table.eq_of_key_eq stored otherStored (named.trans otherNamed.symm)
    rw [same] at spent
    exact (spent active).elim

theorem exchange_ok_spends (returned : (system.exchange signer call).1 = .ok issued) :
    ∃ id secret credential, parseRefreshToken call.presented = .ok (id, secret) ∧
      credential ∈ (system.exchange signer call).2.state.tables.refreshCredentials ∧
      credential.id = id ∧ credential.status ≠ .active := by
  obtain ⟨id, secret, credential, parsed, stored, named, active, _, _,
    inserted, _⟩ := exchange_ok returned
  obtain ⟨_, _, _, rows⟩ := insertCredential_eq_inserted_iff.mp inserted
  refine ⟨id, secret, credential.rotated, parsed, ?_, named, by
    simp [RefreshCredential.rotated]⟩
  rw [Table.mem_iff, rows, List.mem_append, rows_rotateCredential, List.mem_map]
  refine .inl ⟨credential, stored, ?_⟩
  simp [RefreshCredential.rotatable, RefreshCredential.ownedBy, active]

/-- A lineage with a revoked member is revoked as a whole, and stays so. -/
theorem lineage_revoked_of_runs {later : TokenSystem σ}
    (sound : system.state.tables.Sound) (runs : Runs signer system later)
    (stored : credential ∈ system.state.tables.refreshCredentials)
    (revoked : credential.status = .revoked) :
    ∀ other ∈ later.state.tables.lineage credential.lineageID, other.status = .revoked := by
  obtain ⟨heir, heirStored, _, lineage, _, _, heirRevoked⟩ :=
    RunsWhere.progress runs credential stored
  have formed := (RunsWhere.sound runs sound).wellFormed heirStored
  rw [lineage] at formed
  intro other member
  exact formed.burned heir (mem_lineage.mpr ⟨heirStored, lineage⟩)
    (heirRevoked revoked) other member

/-- An exchange that fails has changed no credential, or has revoked every
credential of the presented credential's lineage and no other. -/
theorem exchange_error_effect {failure : Err} (sound : system.state.tables.Sound)
    (returned : (system.exchange signer call).1 = .error failure) :
    (system.exchange signer call).2.state.tables = system.state.tables ∨
    ∃ id secret credential, parseRefreshToken call.presented = .ok (id, secret) ∧
      credential ∈ system.state.tables.refreshCredentials ∧
      credential.id = id ∧
      (system.exchange signer call).2.state.tables =
        system.state.tables.revokeLineageRows credential.ownerID credential.lineageID call.now ∧
      ∀ other ∈ (system.exchange signer call).2.state.tables.lineage
        credential.lineageID, other.status = .revoked := by
  rcases exchange_cases signer call.presented call.now call.draws call.plan
      call.calls system.state with
    ⟨_, unchanged⟩ | ⟨id, secret, outcome, tables, parsed, effect, ran⟩
  · exact .inl (by rw [exchange, unchanged])
  rw [exchange, ran] at returned ⊢
  cases effect with
  | denied => exact .inl rfl
  | @burned credential _ stored named authentic inactive listed =>
    exact .inr ⟨id, secret, credential, parsed, stored, named, rfl,
      sound.all_revoked_of_burn stored call.now⟩
  | rotated => cases returned

/-- The contract of the token service in one state and all runs from it. -/
structure LineageContract (signer : AccessTokenSigner) (system : TokenSystem σ) : Prop where
  oneActive : ∀ credential ∈ system.state.tables.refreshCredentials,
    ∀ other ∈ system.state.tables.refreshCredentials,
    credential.lineageID = other.lineageID → credential.status = .active →
    other.status = .active → credential = other
  oneChain : ∀ lineageID, system.state.tables.lineage lineageID ≠ [] →
    ∃ root descendants, system.state.tables.lineage lineageID = root :: descendants ∧
      root.id = lineageID ∧ root.rotatedFromID = none ∧
      (root :: descendants).IsChain (fun parent child =>
        child.rotatedFromID = some parent.id) ∧
      ∀ credential ∈ root :: descendants, credential.ownerID = root.ownerID ∧
        credential.scopes = root.scopes ∧
        credential.expiresAt = root.expiresAt
  singleUse : ∀ (first second : ExchangeCall) issued later,
    (system.exchange signer first).1 = .ok issued →
    Runs signer (system.exchange signer first).2 later →
    second.presented = first.presented →
    ∃ failure, (later.exchange signer second).1 = .error failure
  deadline : ∀ (call : ExchangeCall) root, root ∈ system.state.tables.refreshCredentials →
    root.id = root.lineageID →
    system.state.tables.PresentsLineage call.presented root.lineageID →
    root.issuedAt + refreshLineageLifetime ≤ call.now →
    ∃ failure, (system.exchange signer call).1 = .error failure
  burnedForever : ∀ (call : ExchangeCall) credential later,
    credential ∈ system.state.tables.refreshCredentials →
    credential.status = .revoked → Runs signer system later →
    later.state.tables.PresentsLineage call.presented credential.lineageID →
    ∃ failure, (later.exchange signer call).1 = .error failure
  failureEffect : ∀ (call : ExchangeCall) failure,
    (system.exchange signer call).1 = .error failure →
    (system.exchange signer call).2.state.tables = system.state.tables ∨
    ∃ id secret credential, parseRefreshToken call.presented = .ok (id, secret) ∧
      credential ∈ system.state.tables.refreshCredentials ∧
      credential.id = id ∧
      (system.exchange signer call).2.state.tables =
        system.state.tables.revokeLineageRows credential.ownerID credential.lineageID call.now ∧
      ∀ other ∈ (system.exchange signer call).2.state.tables.lineage
        credential.lineageID, other.status = .revoked

/-- No exchange on a lineage succeeds at or after the root's deadline. -/
theorem exchange_error_of_deadline (sound : system.state.tables.Sound) {root : RefreshCredential}
    (stored : root ∈ system.state.tables.refreshCredentials) (isRoot : root.id = root.lineageID)
    (presents : system.state.tables.PresentsLineage call.presented
      root.lineageID) (late : root.issuedAt + refreshLineageLifetime ≤ call.now) :
    ∃ failure, (system.exchange signer call).1 = .error failure := by
  cases returned : (system.exchange signer call).1 with
  | error failure => exact ⟨failure, rfl⟩
  | ok issued =>
    obtain ⟨id, secret, credential, parsed, credentialStored, named, _,
      unexpired, _⟩ := exchange_ok returned
    have lineage := stored_of_presents presents parsed credentialStored named
    have formed := sound.wellFormed stored
    obtain ⟨first, head, firstID, _⟩ := formed.started
    have firstStored := (mem_lineage.mp (List.mem_of_head? head)).1
    have same : first = root := Table.eq_of_key_eq firstStored stored (firstID.trans isRoot.symm)
    subst first
    have deadline := formed.deadline head (mem_lineage.mpr ⟨credentialStored, lineage⟩)
    omega

theorem lineageContract_of_reachable (system : TokenSystem σ)
    (reachable : Reachable signer system) : LineageContract signer system := by
  have sound := reachable.sound
  constructor
  case oneActive =>
    intro credential stored other otherStored
    exact sound.oneActive stored otherStored
  case oneChain =>
    intro lineageID
    exact sound.oneChain
  case singleUse =>
    intro first second issued later returned runs samePresented
    obtain ⟨id, secret, credential, parsed, stored, named, spent⟩ := exchange_ok_spends returned
    obtain ⟨heir, heirStored, heirID, _, _, inactive, _⟩ :=
      RunsWhere.progress runs credential stored
    rw [← samePresented] at parsed
    exact exchange_error_of_spent parsed heirStored (heirID.trans named) (inactive spent)
  case deadline =>
    intro call root stored isRoot
    exact exchange_error_of_deadline sound stored isRoot
  case burnedForever =>
    intro call credential later stored revoked runs presents
    apply exchange_error_of_inactive _ presents
    intro other member active
    have otherRevoked := lineage_revoked_of_runs sound runs stored revoked other member
    rw [active] at otherRevoked
    cases otherRevoked
  case failureEffect =>
    intro call failure
    exact exchange_error_effect sound

end TokenSystem

/-! ## A concrete lineage -/

namespace Sample

def alice : Owner where
  id := utf8 "alice"
  status := .active
  createdAt := 0
  updatedAt := 0
  deletedAt := none

def owners : Table Owner.id where
  rows := [alice]
  distinct := by simp

/-- A generator that repeats one byte. -/
def draws (byte : UInt8) : Draws where
  credentialID := ⟨List.replicate credentialIDBytes byte, by simp⟩
  secret := ⟨List.replicate refreshSecretBytes byte, by simp⟩
  accessTokenID := ⟨List.replicate credentialIDBytes byte, by simp⟩

/-- The refresh token of the credential created with `draws byte`. -/
def refreshToken (byte : UInt8) : GoString :=
  formatRefreshToken (newCredentialID (draws byte).credentialID) (draws byte).secret.val

def quoted (text : GoString) : GoString := [34] ++ text ++ [34]

def marshalScope (scope : WireScope) : GoString :=
  utf8 "\x7b\"k\":" ++ quoted (utf8 scope.kind) ++
    (if scope.resource.isEmpty then []
      else utf8 ",\"r\":" ++ quoted scope.resource) ++ utf8 "\x7d"

/-- The JSON of claims whose strings need no escape. -/
def marshal (claims : AccessClaims) : GoString :=
  utf8 "\x7b\"v\":" ++ utf8 (toString claims.ver) ++ utf8 ",\"jti\":" ++ quoted claims.id ++
    utf8 ",\"own\":" ++ quoted claims.owner ++
    utf8 ",\"ref\":" ++ quoted claims.refresh ++
    utf8 ",\"scp\":[" ++ ((claims.scopes.map marshalScope).intersperse [44]).flatten ++
    utf8 "],\"iat\":" ++ utf8 (toString claims.issuedAt) ++
    utf8 ",\"exp\":" ++ utf8 (toString claims.expires) ++ utf8 "\x7d"

/-- The decoder, as far as the claims it will be given are known. -/
def codec (known : List AccessClaims) : ClaimsCodec where
  marshal := marshal
  unmarshal? bytes := known.find? fun claims => decide (marshal claims = bytes)

def signer (known : List AccessClaims) : AccessTokenSigner where
  key := List.replicate minSigningKeyLen 7
  longEnough := by simp
  codec := codec known

def issueCall : IssueCall where
  ownerID := alice.id
  scopes := [{ kind := .fullOwner, resourceID := [] }]
  clientLabel := utf8 "laptop"
  now := 0
  draws := draws 1

/-- Exchange the token of `draws token` for the one of `draws child`. -/
def exchangeCall (token child : UInt8) (now : Int) : ExchangeCall where
  presented := refreshToken token
  now := now
  finished := now
  draws := draws child
  calls := fun _ => { now }

/-- A lineage of two credentials: the first rotated, the second active. -/
def rotated (signer : AccessTokenSigner) : TokenSystem MemoryStore :=
  ((((TokenSystem.initial owners MemoryStore.new 0).issue signer
    issueCall).2).exchange signer (exchangeCall 1 2 1)).2

theorem rotated_reachable (signer : AccessTokenSigner) : (rotated signer).Reachable signer := by
  refine ⟨owners, MemoryStore.new, 0, ?_⟩
  refine Relation.ReflTransGen.tail (.tail .refl ⟨.issue issueCall, trivial, .issue (le_refl _)⟩)
    ⟨.exchange (exchangeCall 1 2 1), trivial, .exchange ?_ (le_refl _)⟩
  exact (by decide : (0 : Int) ≤ 1)

end Sample

/-- The contract at a lineage that has been rotated once. -/
theorem lineageContract_rotated :
    (Sample.rotated (Sample.signer [])).state.tables.refreshCredentials.rows.map
        (·.status) = [.rotated, .active] ∧
      TokenSystem.LineageContract (Sample.signer []) (Sample.rotated (Sample.signer [])) :=
  ⟨by decide +kernel, TokenSystem.lineageContract_of_reachable _ (Sample.rotated_reachable _)⟩

end Vallet.Auth
