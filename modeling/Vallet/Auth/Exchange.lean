import Vallet.Auth.TokenService

/-!
# What a serialized exchange does

Run alone, the transaction of `Exchange` denies without writing, burns the
lineage of a replayed credential, or rotates an active credential.  Everything
later proved about serialized runs is derived from these three effects.
-/

namespace Vallet.Auth

open Effects Relational Program RefreshCredentialRepository

section Repositories

variable {α : Type} (faults : List Bool) (tables : CredentialTables)

theorem run_getOwner_bind (id : OwnerID) (next : Except Err Owner → Program CredentialStatement α) :
    (OwnerRepository.get id >>= next).run credentialInterpreter faults tables =
      (next (if faults.headD false then .error driverFault
        else match tables.owners.find? id with
          | none => .error (.of .notFound)
          | some owner => .ok owner)).run credentialInterpreter faults.tail
        tables := by
  simp only [OwnerRepository.get, ask_bind, issue_bind, run_issue]
  cases faults.headD false with
  | true => rfl
  | false =>
    simp only [reply_false, credentialInterpreter, CredentialStatement.execute]
    cases tables.owners.find? id <;> rfl

theorem run_getByID_bind (id : RefreshCredentialID)
    (next : Except Err RefreshCredential → Program CredentialStatement α) :
    (getByID id >>= next).run credentialInterpreter faults tables =
      (next (if faults.headD false then .error driverFault
        else match tables.refreshCredentials.find? id with
          | none => .error (.of .notFound)
          | some credential => .ok credential)).run credentialInterpreter
        faults.tail tables := by
  simp only [getByID, ask_bind, issue_bind, run_issue]
  cases faults.headD false with
  | true => rfl
  | false =>
    simp only [reply_false, credentialInterpreter, CredentialStatement.execute]
    cases tables.refreshCredentials.find? id <;> rfl

theorem run_listByLineage_bind (ownerID : OwnerID) (lineageID : LineageID)
    (next : Except Err (List RefreshCredential) → Program CredentialStatement α) :
    (listByLineage ownerID lineageID >>= next).run credentialInterpreter faults tables =
      (next (if faults.headD false then .error driverFault
        else .ok (tables.lineageRows ownerID lineageID))).run
        credentialInterpreter faults.tail tables := by
  simp only [listByLineage, ask_bind, issue_bind, run_issue]
  cases faults.headD false <;> rfl

/-- The error `Create` makes of an insert that was answered. -/
def createResult : Inserted → Except Err Unit
  | .inserted => .ok ()
  | .duplicateKey => .error (.of .conflict)
  | .constraintFailed => .error driverFault

theorem run_create_bind (credential : RefreshCredential)
    (next : Except Err Unit → Program CredentialStatement α) :
    (RefreshCredentialRepository.create credential >>= next).run
        credentialInterpreter faults tables =
      if faults.headD false then
        (next (.error driverFault)).run credentialInterpreter faults.tail tables
      else
        (next (createResult (tables.insertCredential credential).1)).run
          credentialInterpreter faults.tail
          (tables.insertCredential credential).2 := by
  simp only [RefreshCredentialRepository.create, ask_bind, issue_bind, run_issue]
  cases faults.headD false with
  | true => rfl
  | false =>
    simp only [reply_false, credentialInterpreter,
      CredentialStatement.execute, Bool.false_eq_true, if_false]
    rcases tables.insertCredential credential with ⟨_ | _ | _, after⟩ <;> rfl

theorem run_revokeLineage_bind (ownerID : OwnerID) (lineageID : LineageID)
    (now : Int) (next : Except Err Nat → Program CredentialStatement α) :
    (RefreshCredentialRepository.revokeLineage ownerID lineageID now >>=
        next).run credentialInterpreter faults tables =
      if faults.headD false then
        (next (.error driverFault)).run credentialInterpreter faults.tail tables
      else
        (next (.ok (tables.refreshCredentials.select
          (RefreshCredential.revocable ownerID lineageID)).length)).run
          credentialInterpreter faults.tail
          (tables.revokeLineageRows ownerID lineageID now) := by
  simp only [RefreshCredentialRepository.revokeLineage, ask_bind, issue_bind, run_issue]
  cases faults.headD false <;> rfl

end Repositories

variable {tables : CredentialTables} {credential : RefreshCredential}

theorem insertCredential_unchanged {after : CredentialTables} {answer : Inserted}
    (insertion : tables.insertCredential credential = (answer, after))
    (refused : answer ≠ .inserted) : after = tables := by
  unfold CredentialTables.insertCredential at insertion
  split at insertion
  · cases insertion
    rfl
  · split at insertion
    · cases insertion
      rfl
    · cases insertion
      exact (refused rfl).elim

/-- A conditional update of an active credential always matches it. -/
theorem rotatable_rows_ne_nil (stored : credential ∈ tables.refreshCredentials)
    (active : credential.status = .active) :
    0 < (tables.refreshCredentials.select (RefreshCredential.rotatable
      credential.ownerID credential.id)).length := by
  apply List.length_pos_of_mem (a := credential)
  simp [Table.mem_select, stored, RefreshCredential.rotatable, RefreshCredential.ownedBy, active]

theorem run_markRotated_bind {α : Type} (faults : List Bool)
    (stored : credential ∈ tables.refreshCredentials) (active : credential.status = .active)
    (next : Except Err Unit → Program CredentialStatement α) :
    (markRotated credential.ownerID
        credential.id >>= next).run credentialInterpreter faults tables =
      if faults.headD false then
        (next (.error driverFault)).run credentialInterpreter faults.tail tables
      else
        (next (.ok ())).run credentialInterpreter faults.tail
          (tables.rotateCredential credential.ownerID credential.id) := by
  have affected := rotatable_rows_ne_nil stored active
  simp only [markRotated, ask_bind, issue_bind, run_issue]
  cases faults.headD false with
  | true => rfl
  | false =>
    simp only [reply_false, credentialInterpreter, CredentialStatement.execute,
      classifyConditional, affected, if_true, pure_eq_done, done_bind, Bool.false_eq_true, if_false]

/-- The three effects of an exchange on the tables. -/
inductive ExchangeEffect (signer : AccessTokenSigner)
    (id : RefreshCredentialID) (secret : List UInt8) (now : Int)
    (draws : Draws) (tables : CredentialTables) :
    ExchangeOutcome → CredentialTables → Prop where
  | denied : ExchangeEffect signer id secret now draws tables .denied tables
  | burned {credential : RefreshCredential} {revoked : List RefreshCredential}
      (stored : credential ∈ tables.refreshCredentials) (named : credential.id = id)
      (authentic : secretMatches credential.secretHash secret = true)
      (inactive : credential.status ≠ .active)
      (listed : revoked = [] ∨ revoked = (tables.revokeLineageRows
        credential.ownerID credential.lineageID now).lineageRows
          credential.ownerID credential.lineageID) :
      ExchangeEffect signer id secret now draws tables { issued := none, revoked := revoked }
        (tables.revokeLineageRows credential.ownerID credential.lineageID now)
  | rotated {credential : RefreshCredential} {extended : CredentialTables} {issued : Issued}
      (stored : credential ∈ tables.refreshCredentials) (named : credential.id = id)
      (authentic : secretMatches credential.secretHash secret = true)
      (active : credential.status = .active) (unexpired : now < credential.expiresAt) (inserted :
        (tables.rotateCredential credential.ownerID
          credential.id).insertCredential (successor credential now draws) =
        (.inserted, extended)) (minted : mint signer (successor credential now draws) draws now =
        .ok issued) :
      ExchangeEffect signer id secret now draws tables
        { issued := some issued, revoked := [] } extended

section Effects

variable {signer : AccessTokenSigner} {id : RefreshCredentialID}
  {secret : List UInt8} {now : Int} {draws : Draws} {faults : List Bool}
  {tables after : CredentialTables} {outcome : ExchangeOutcome} {credential : RefreshCredential}

theorem revokeLineage_effect
    (result : (revokeLineage credential now).run credentialInterpreter faults
      tables = (.ok outcome, after)) :
    outcome.issued = none ∧
      after = tables.revokeLineageRows credential.ownerID credential.lineageID now ∧
      (outcome.revoked = [] ∨ outcome.revoked =
        after.lineageRows credential.ownerID credential.lineageID) := by
  rw [revokeLineage, run_revokeLineage_bind] at result
  split at result
  · simp at result
  rw [run_listByLineage_bind] at result
  split at result
  · simp only [pure_eq_done, run_done, Prod.mk.injEq, Except.ok.injEq] at result
    obtain ⟨rfl, rfl⟩ := result
    exact ⟨rfl, rfl, .inl rfl⟩
  · rename_i rows listed
    split at listed
    · cases listed
    cases listed
    simp only [pure_eq_done, run_done, Prod.mk.injEq, Except.ok.injEq] at result
    obtain ⟨rfl, rfl⟩ := result
    exact ⟨rfl, rfl, .inr rfl⟩

theorem rotate_effect (stored : credential ∈ tables.refreshCredentials)
    (active : credential.status = .active)
    (result : (rotate signer credential now draws).run credentialInterpreter
      faults tables = (.ok outcome, after)) :
    ∃ issued,
      (tables.rotateCredential credential.ownerID
        credential.id).insertCredential (successor credential now draws) = (.inserted, after) ∧
      mint signer (successor credential now draws) draws now = .ok issued ∧
      outcome = { issued := some issued, revoked := [] } := by
  rw [rotate, run_markRotated_bind faults stored active] at result
  split at result
  · simp [driverFault] at result
  rw [run_create_bind] at result
  split at result
  · simp at result
  cases insertion : ((tables.rotateCredential credential.ownerID
      credential.id).insertCredential (successor credential now draws)) with
  | mk answer extended =>
    rw [insertion] at result
    cases answer with
    | duplicateKey | constraintFailed => simp [createResult] at result
    | inserted =>
      simp only [createResult] at result
      split at result
      · simp at result
      rename_i issued minted
      simp only [pure_eq_done, run_done, Prod.mk.injEq, Except.ok.injEq] at result
      obtain ⟨rfl, rfl⟩ := result
      exact ⟨issued, rfl, minted, rfl⟩

/-- Denials are the only way to return without deciding on the secret. -/
private theorem run_denied (result : (done (Except.ok ExchangeOutcome.denied) :
      Program CredentialStatement (Except Err ExchangeOutcome)).run
        credentialInterpreter faults tables = (.ok outcome, after)) :
    ExchangeEffect signer id secret now draws tables outcome after := by
  simp only [run_done, Prod.mk.injEq, Except.ok.injEq] at result
  obtain ⟨rfl, rfl⟩ := result
  exact .denied

theorem exchangeFor_effect {owner : Owner} (stored : credential ∈ tables.refreshCredentials)
    (named : credential.id = id) (authentic : secretMatches credential.secretHash secret = true)
    (result : (exchangeFor signer credential owner now draws).run
      credentialInterpreter faults tables = (.ok outcome, after)) :
    ExchangeEffect signer id secret now draws tables outcome after := by
  unfold exchangeFor at result
  split at result
  · exact run_denied result
  split at result
  · exact run_denied result
  split at result
  · rename_i inactive
    obtain ⟨unissued, rfl, listed⟩ := revokeLineage_effect result
    cases outcome
    cases unissued
    exact .burned stored named authentic inactive listed
  split at result
  · exact run_denied result
  split at result
  · exact run_denied result
  · rename_i active unexpired _
    obtain ⟨issued, inserted, minted, rfl⟩ := rotate_effect stored (not_not.mp active) result
    exact .rotated stored named authentic (not_not.mp active) (not_not.mp unexpired) inserted minted

theorem exchangeTx_effect (result : (exchangeTx signer id secret now draws).run
      credentialInterpreter faults tables = (.ok outcome, after)) :
    ExchangeEffect signer id secret now draws tables outcome after := by
  rw [exchangeTx, run_getByID_bind] at result
  split at result
  · split at result
    · exact run_denied result
    · simp at result
  · rename_i credential found
    split at found
    · cases found
    split at found
    · cases found
    rename_i lookup
    cases found
    obtain ⟨stored, named⟩ := Table.find?_eq_some_iff.mp lookup
    split at result
    · exact run_denied result
    split at result
    · exact run_denied result
    split at result
    · exact run_denied result
    rename_i authentic _
    rw [run_getOwner_bind] at result
    split at result
    · split at result
      · exact run_denied result
      · simp at result
    · exact exchangeFor_effect stored named (by simpa using authentic) result

end Effects

/-- Issuing either leaves the tables alone and fails, or inserts the root of
a new lineage and returns what minting from it gives. -/
theorem issue_effect (signer : AccessTokenSigner) (ownerID : OwnerID)
    (scopes : List Scope) (clientLabel : GoString) (now : Int)
    (draws : Draws) (faults : List Bool) (tables : CredentialTables) :
    (∃ failure,
      (issue signer ownerID scopes clientLabel now draws).run
        credentialInterpreter faults tables = (.error failure, tables)) ∨
    ∃ extended, ownerID ≠ [] ∧ validateScopes scopes = .ok () ∧
      tables.insertCredential
        (rootCredential ownerID scopes clientLabel now draws) = (.inserted, extended) ∧
      (issue signer ownerID scopes clientLabel now draws).run
        credentialInterpreter faults tables =
          (mint signer (rootCredential ownerID scopes clientLabel now draws)
            draws now, extended) := by
  unfold issue
  split
  · exact .inl ⟨_, rfl⟩
  rename_i named
  split
  · exact .inl ⟨_, rfl⟩
  · exact .inl ⟨_, rfl⟩
  · rename_i _ _ validScopes _
    rw [run_create_bind]
    split
    · exact .inl ⟨_, rfl⟩
    cases insertion : tables.insertCredential
        (rootCredential ownerID scopes clientLabel now draws) with
    | mk answer extended =>
      cases answer with
      | inserted =>
        refine .inr ⟨extended, ?_, validScopes, rfl, rfl⟩
        rintro rfl
        exact named rfl
      | duplicateKey =>
        refine .inl ⟨.wrap "auth: creating refresh credential" (.of .conflict), ?_⟩
        rw [insertCredential_unchanged insertion (by decide)]
        rfl
      | constraintFailed =>
        refine .inl ⟨.wrap "auth: creating refresh credential" driverFault, ?_⟩
        rw [insertCredential_unchanged insertion (by decide)]
        rfl

/-- The rows to list are read after the lineage was revoked. -/
theorem revokeIssuedLineage_effect (ownerID : OwnerID)
    (lineageID : LineageID) (now : Int) (faults : List Bool) (tables : CredentialTables) :
    (revokeIssuedLineage ownerID lineageID now).run credentialInterpreter
      faults tables = ([], tables) ∨
    ∃ rows, (revokeIssuedLineage ownerID lineageID now).run
        credentialInterpreter faults tables =
          (rows, tables.revokeLineageRows ownerID lineageID now) ∧
      ∀ row ∈ rows, row ∈ (tables.revokeLineageRows ownerID lineageID now).refreshCredentials := by
  rw [revokeIssuedLineage, run_revokeLineage_bind]
  split
  · exact .inl rfl
  rw [run_listByLineage_bind]
  split
  · exact .inr ⟨[], rfl, by simp⟩
  rename_i rows listed
  split at listed
  · cases listed
  cases listed
  refine .inr ⟨_, rfl, ?_⟩
  intro row member
  exact (CredentialTables.mem_lineageRows.mp member).1

/-- Without faults, a replay by an owner in good standing revokes the lineage
and reads every row of it back. -/
theorem exchangeTx_replay (signer : AccessTokenSigner) (now : Int)
    (draws : Draws) {secret : List UInt8} {owner : Owner}
    (stored : credential ∈ tables.refreshCredentials)
    (authentic : secretMatches credential.secretHash secret = true)
    (inactive : credential.status ≠ .active) (ownerNamed : credential.ownerID ≠ [])
    (lineageNamed : credential.lineageID ≠ [])
    (found : tables.owners.find? credential.ownerID = some owner)
    (standing : owner.inGoodStanding = true) :
    (exchangeTx signer credential.id secret now draws).run credentialInterpreter [] tables =
      (.ok {
        issued := none
        revoked := (tables.revokeLineageRows credential.ownerID
          credential.lineageID now).lineageRows credential.ownerID credential.lineageID },
      tables.revokeLineageRows credential.ownerID credential.lineageID now) := by
  have lookup : tables.refreshCredentials.find? credential.id =
      some credential := Table.find?_eq_some_iff.mpr ⟨stored, rfl⟩
  have ownerID : owner.id = credential.ownerID := (Table.find?_eq_some_iff.mp found).2
  rw [exchangeTx, run_getByID_bind]
  simp only [List.headD_nil, Bool.false_eq_true, if_false, lookup, ne_eq,
    not_true, authentic, Bool.not_true, ownerNamed, lineageNamed,
    List.isEmpty_iff, or_self, Bool.or_eq_true]
  rw [run_getOwner_bind]
  simp only [List.tail_nil, List.headD_nil, Bool.false_eq_true, if_false,
    found, exchangeFor, ownerID, ne_eq, not_true, standing, Bool.not_true,
    inactive, not_false_eq_true, if_true, revokeLineage]
  rw [run_revokeLineage_bind]
  simp only [List.headD_nil, Bool.false_eq_true, if_false]
  rw [run_listByLineage_bind]
  simp

/-! ## The whole call -/

section Calls

open Counter

variable {σ : Type} [CounterStore σ]

/-- An exchange either fails without touching the tables or commits one of
the three effects for the token it was given. -/
theorem exchange_cases (signer : AccessTokenSigner) (presented : GoString)
    (now : Int) (draws : Draws) (plan : FaultPlan)
    (calls : Nat → StoreCall) (state : TokenState σ) :
    ((exchange signer presented now draws plan calls state).1 = .error .authFailed ∧
      (exchange signer presented now draws plan calls state).2 = state) ∨
    ∃ id secret outcome tables, parseRefreshToken presented = .ok (id, secret) ∧
      ExchangeEffect signer id secret now draws state.tables outcome tables ∧
      exchange signer presented now draws plan calls state =
        (match outcome.issued with
          | none => .error .authFailed
          | some issued => .ok issued,
        { tables
          denylist := denyRevoked state.denylist calls now outcome.revoked }) := by
  unfold exchange
  split
  · exact .inl ⟨rfl, rfl⟩
  rename_i id secret parsed
  rcases transact_cases credentialInterpreter commitFault
      (exchangeTx signer id secret now draws) plan state.tables with
    ⟨failure, transaction⟩ | ⟨outcome, tables, ran, transaction⟩
  · rw [transaction]
    exact .inl ⟨rfl, rfl⟩
  · rw [transaction]
    refine .inr ⟨id, secret, outcome, tables, parsed, exchangeTx_effect ran, ?_⟩
    cases outcome with
    | mk issued revoked => cases issued <;> rfl

/-- Without faults, a replay by an owner in good standing burns the lineage
and lists every row of it. -/
theorem exchange_replay (signer : AccessTokenSigner) {presented : GoString}
    (now : Int) (draws : Draws) (calls : Nat → StoreCall)
    {state : TokenState σ} {secret : List UInt8} {credential : RefreshCredential} {owner : Owner}
    (parsed : parseRefreshToken presented = .ok (credential.id, secret))
    (stored : credential ∈ state.tables.refreshCredentials)
    (authentic : secretMatches credential.secretHash secret = true)
    (inactive : credential.status ≠ .active) (ownerNamed : credential.ownerID ≠ [])
    (lineageNamed : credential.lineageID ≠ [])
    (found : state.tables.owners.find? credential.ownerID = some owner)
    (standing : owner.inGoodStanding = true) :
    exchange signer presented now draws {} calls state =
      (.error .authFailed,
        let burned := state.tables.revokeLineageRows credential.ownerID
          credential.lineageID now
        { tables := burned
          denylist := denyRevoked state.denylist calls now
            (burned.lineageRows credential.ownerID credential.lineageID) }) := by
  have ran := exchangeTx_replay signer now draws stored authentic inactive
    ownerNamed lineageNamed found standing
  simp only [exchange, parsed, transact_commits ran]

end Calls

end Vallet.Auth
