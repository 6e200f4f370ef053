import Vallet.Auth.Exchange
import Vallet.Auth.Lineage
import Mathlib.Logic.Relation

/-!
# Serialized runs of the token service

Transactions execute one at a time.  A step issues a lineage, exchanges a
token, revokes a lineage on behalf of the enrollment service, or replaces the
owners by anything; calls carry non-decreasing times and may fault anywhere.
-/

namespace Vallet.Auth

open Counter Effects Relational CredentialTables

structure IssueCall where
  ownerID : OwnerID
  scopes : List Scope
  clientLabel : GoString
  now : Int
  draws : Draws
  faults : List Bool := []

/-- `finished` is the time at which the call has made its last store call. -/
structure ExchangeCall where
  presented : GoString
  now : Int
  finished : Int
  draws : Draws
  plan : FaultPlan := {}
  calls : Nat → StoreCall

structure RevokeLineageCall where
  ownerID : OwnerID
  lineageID : LineageID
  now : Int
  finished : Int
  faults : List Bool := []
  calls : Nat → StoreCall

/-- A call of the token service, or a change of the owners. -/
inductive TokenEvent where
  | issue (call : IssueCall)
  | exchange (call : ExchangeCall)
  | revokeLineage (call : RevokeLineageCall)
  | setOwners (owners : Table Owner.id)

/-- The state of the service and the time of its last call. -/
structure TokenSystem (σ : Type) where
  state : TokenState σ
  clock : Int

namespace TokenSystem

variable {σ : Type} [CounterStore σ]

/-- The result of an `Issue` call. -/
def issue (signer : AccessTokenSigner) (call : IssueCall)
    (system : TokenSystem σ) : Except Err Issued × TokenSystem σ :=
  let ran := (Auth.issue signer call.ownerID call.scopes call.clientLabel
    call.now call.draws).run credentialInterpreter call.faults
      system.state.tables
  (ran.1, {
    state := { system.state with tables := ran.2 }
    clock := call.now })

/-- The result of an `Exchange` call. -/
def exchange (signer : AccessTokenSigner) (call : ExchangeCall)
    (system : TokenSystem σ) : Except Err Issued × TokenSystem σ :=
  let ran := Auth.exchange signer call.presented call.now call.draws call.plan
    call.calls system.state
  (ran.1, { state := ran.2, clock := call.finished })

/-- `EnrollmentService.revokeLineage`. -/
def revokeLineage (call : RevokeLineageCall) (system : TokenSystem σ) : TokenSystem σ :=
  let ran := (revokeIssuedLineage call.ownerID call.lineageID call.now).run
    credentialInterpreter call.faults system.state.tables
  { state :=
      { tables := ran.2
        denylist := (Denylist.revokeLineage system.state.denylist call.calls call.now ran.1).2 }
    clock := call.finished }

/-- One call, at a time that is not before the last one. -/
inductive Step (signer : AccessTokenSigner) :
    TokenSystem σ → TokenEvent → TokenSystem σ → Prop where
  | issue {system : TokenSystem σ} {call : IssueCall} (order : system.clock ≤ call.now) :
      Step signer system (.issue call) (system.issue signer call).2
  | exchange {system : TokenSystem σ} {call : ExchangeCall}
      (order : system.clock ≤ call.now) (ends : call.now ≤ call.finished) :
      Step signer system (.exchange call) (system.exchange signer call).2
  | revokeLineage {system : TokenSystem σ} {call : RevokeLineageCall}
      (order : system.clock ≤ call.now) (ends : call.now ≤ call.finished) :
      Step signer system (.revokeLineage call) (system.revokeLineage call)
  | setOwners {system : TokenSystem σ} {owners : Table Owner.id} :
      Step signer system (.setOwners owners) { system with
          state := { system.state with
            tables := { system.state.tables with owners } } }

/-- Runs in which every step meets a condition on the state it starts from. -/
def RunsWhere (signer : AccessTokenSigner) (condition : TokenSystem σ → TokenEvent → Prop) :
    TokenSystem σ → TokenSystem σ → Prop :=
  Relation.ReflTransGen fun before after =>
    ∃ event, condition before event ∧ Step signer before event after

def Runs (signer : AccessTokenSigner) : TokenSystem σ → TokenSystem σ → Prop :=
  RunsWhere signer fun _ _ => True

/-- No credential has been issued yet. -/
def initial (owners : Table Owner.id) (denylist : σ) (clock : Int) : TokenSystem σ where
  state :=
    { tables := { owners, refreshCredentials := .empty }
      denylist }
  clock := clock

/-- Some run leads here from an empty table. -/
def Reachable (signer : AccessTokenSigner) (system : TokenSystem σ) : Prop :=
  ∃ owners denylist clock, Runs signer (initial owners denylist clock) system

end TokenSystem

/-! ## What a step does to the tables -/

/-- Rows are kept, and none regains a status it has lost. -/
def CredentialTables.Progress (before after : CredentialTables) : Prop :=
  ∀ credential ∈ before.refreshCredentials,
    ∃ later ∈ after.refreshCredentials,
      later.id = credential.id ∧ later.lineageID = credential.lineageID ∧
      later.issuedAt = credential.issuedAt ∧
      (credential.status ≠ .active → later.status ≠ .active) ∧
      (credential.status = .revoked → later.status = .revoked)

namespace CredentialTables

variable {before middle after : CredentialTables}

theorem Progress.refl (tables : CredentialTables) : tables.Progress tables :=
  fun credential stored =>
    ⟨credential, stored, rfl, rfl, rfl, fun inactive => inactive,
      fun revoked => revoked⟩

theorem Progress.trans (first : before.Progress middle)
    (second : middle.Progress after) : before.Progress after := by
  intro credential stored
  obtain ⟨between, betweenStored, id, lineage, issued, inactive, revoked⟩ := first credential stored
  obtain ⟨later, laterStored, laterID, laterLineage, laterIssued,
    laterInactive, laterRevoked⟩ := second between betweenStored
  exact ⟨later, laterStored, laterID.trans id, laterLineage.trans lineage,
    laterIssued.trans issued, fun was => laterInactive (inactive was),
    fun was => laterRevoked (revoked was)⟩

theorem Progress.of_statusChange {change : RefreshCredential → RefreshCredential}
    (statusOnly : StatusChange change) (rows : after.refreshCredentials.rows =
      before.refreshCredentials.rows.map change) : before.Progress after := by
  intro credential stored
  refine ⟨change credential, ?_, statusOnly.id credential,
    statusOnly.lineageID credential, statusOnly.issuedAt credential,
    statusOnly.staysInactive credential, statusOnly.staysRevoked credential⟩
  rw [Table.mem_iff, rows]
  exact List.mem_map_of_mem stored

theorem progress_insertCredential {credential : RefreshCredential}
    (insertion : before.insertCredential credential = (.inserted, after)) :
    before.Progress after := by
  obtain ⟨_, _, _, rows⟩ := insertCredential_eq_inserted_iff.mp insertion
  intro other stored
  refine ⟨other, ?_, rfl, rfl, rfl, fun inactive => inactive,
    fun revoked => revoked⟩
  rw [Table.mem_iff, rows]
  exact List.mem_append_left _ stored

end CredentialTables

/-- Every row names an owner and a lineage, and its scopes are valid. -/
def CredentialTables.Populated (tables : CredentialTables) : Prop :=
  ∀ credential ∈ tables.refreshCredentials, credential.ownerID ≠ [] ∧
    credential.lineageID ≠ [] ∧ validateScopes credential.scopes = .ok ()

theorem CredentialTables.Populated.of_statusChange
    {before after : CredentialTables} (populated : before.Populated)
    {change : RefreshCredential → RefreshCredential}
    (statusOnly : StatusChange change) (rows : after.refreshCredentials.rows =
      before.refreshCredentials.rows.map change) : after.Populated := by
  intro credential stored
  rw [Table.mem_iff, rows] at stored
  obtain ⟨previous, previousStored, rfl⟩ := List.mem_map.mp stored
  rw [statusOnly.ownerID, statusOnly.lineageID, statusOnly.scopes]
  exact populated previous previousStored

/-- A started lineage without an active credential. -/
def CredentialTables.Ended (tables : CredentialTables) (lineageID : LineageID) : Prop :=
  tables.lineage lineageID ≠ [] ∧
    ∀ credential ∈ tables.lineage lineageID, credential.status ≠ .active

/-- What any step may do to the tables.  New rows carry the time of the
step. -/
inductive TableEffect (now : Int) (before : CredentialTables) : CredentialTables → Prop where
  | owners {after : CredentialTables}
      (credentials : after.refreshCredentials = before.refreshCredentials) :
      TableEffect now before after
  | root {after : CredentialTables} {ownerID : OwnerID} {scopes : List Scope}
      {clientLabel : GoString} {draws : Draws}
      (named : ownerID ≠ []) (validScopes : validateScopes scopes = .ok ())
      (insertion : before.insertCredential (rootCredential ownerID scopes clientLabel now draws) =
          (.inserted, after)) :
      TableEffect now before after
  | burned (ownerID : OwnerID) (lineageID : LineageID) :
      TableEffect now before (before.revokeLineageRows ownerID lineageID now)
  | rotated {credential : RefreshCredential} {after : CredentialTables} {draws : Draws}
      (stored : credential ∈ before.refreshCredentials) (active : credential.status = .active)
      (insertion : (before.rotateCredential credential.ownerID
        credential.id).insertCredential (successor credential now draws) = (.inserted, after)) :
      TableEffect now before after

namespace TableEffect

variable {now : Int} {before after : CredentialTables}

variable (effect : TableEffect now before after)

include effect

theorem sound (sound : before.Sound) : after.Sound := by
  cases effect with
  | owners credentials =>
    intro lineageID
    simpa [lineage, credentials] using sound lineageID
  | root named validScopes insertion => exact sound.insertRoot rfl rfl rfl rfl insertion
  | burned ownerID lineageID => exact sound.revokeLineageRows ownerID lineageID now
  | rotated stored active insertion =>
    refine sound.insertSuccessor stored active ?_ ?_ ?_ ?_ insertion
    · rfl
    · rfl
    · rfl
    · exact ⟨rfl, rfl, rfl⟩

theorem progress : before.Progress after := by
  cases effect with
  | owners credentials =>
    intro credential stored
    refine ⟨credential, ?_, rfl, rfl, rfl, fun inactive => inactive,
      fun revoked => revoked⟩
    rw [credentials]
    exact stored
  | root named validScopes insertion => exact progress_insertCredential insertion
  | burned ownerID lineageID =>
    exact .of_statusChange (statusChange_revoked ownerID lineageID now) rfl
  | rotated stored active insertion =>
    exact (Progress.of_statusChange (statusChange_rotated _ _) rfl).trans
      (progress_insertCredential insertion)

theorem populated (populated : before.Populated) : after.Populated := by
  cases effect with
  | owners credentials =>
    intro credential stored
    rw [credentials] at stored
    exact populated credential stored
  | root named validScopes insertion =>
    obtain ⟨_, _, _, rows⟩ := insertCredential_eq_inserted_iff.mp insertion
    intro credential stored
    rw [Table.mem_iff, rows, List.mem_append, List.mem_singleton] at stored
    rcases stored with stored | rfl
    · exact populated credential stored
    · exact ⟨named, newCredentialID_ne_nil _, validScopes⟩
  | burned ownerID lineageID =>
    exact populated.of_statusChange (statusChange_revoked ownerID lineageID now) rfl
  | @rotated source _ _ sourceStored active insertion =>
    obtain ⟨_, _, _, rows⟩ := insertCredential_eq_inserted_iff.mp insertion
    intro credential stored
    rw [Table.mem_iff, rows, List.mem_append, List.mem_singleton] at stored
    rcases stored with stored | rfl
    · have rotatedPopulated := populated.of_statusChange
        (statusChange_rotated source.ownerID source.id)
        (before.rows_rotateCredential source.ownerID source.id)
      exact rotatedPopulated credential stored
    · exact populated source sourceStored

/-- No row is issued after the time of the step that last wrote it. -/
theorem issuedBy (clock : Int) (issuedBefore : ∀ credential ∈ before.refreshCredentials,
      credential.issuedAt ≤ clock) (order : now ≤ clock) :
    ∀ credential ∈ after.refreshCredentials, credential.issuedAt ≤ clock := by
  cases effect with
  | owners credentials =>
    rw [credentials]
    exact issuedBefore
  | root named validScopes insertion =>
    intro credential stored
    obtain ⟨_, _, _, rows⟩ := insertCredential_eq_inserted_iff.mp insertion
    rw [Table.mem_iff, rows, List.mem_append, List.mem_singleton] at stored
    rcases stored with stored | rfl
    · exact issuedBefore credential stored
    · exact order
  | burned ownerID lineageID =>
    intro credential stored
    rw [Table.mem_iff, rows_revokeLineageRows] at stored
    obtain ⟨previous, member, rfl⟩ := List.mem_map.mp stored
    rw [(statusChange_revoked ownerID lineageID now).issuedAt]
    exact issuedBefore previous member
  | @rotated source _ _ sourceStored active insertion =>
    intro credential stored
    obtain ⟨_, _, _, rows⟩ := insertCredential_eq_inserted_iff.mp insertion
    rw [Table.mem_iff, rows, List.mem_append, List.mem_singleton, rows_rotateCredential] at stored
    rcases stored with stored | rfl
    · obtain ⟨previous, member, rfl⟩ := List.mem_map.mp stored
      rw [(statusChange_rotated source.ownerID source.id).issuedAt]
      exact issuedBefore previous member
    · exact order

/-- A lineage that has ended gets no new credential and none of its
credentials becomes active again. -/
theorem ended (sound : before.Sound)
    {lineageID : LineageID} (ended : before.Ended lineageID) : after.Ended lineageID := by
  obtain ⟨started, inactive⟩ := ended
  cases effect with
  | owners credentials =>
    simpa [Ended, lineage, credentials] using And.intro started inactive
  | root named validScopes insertion =>
    rw [Ended, lineage_insertCredential insertion, if_neg]
    · exact ⟨started, inactive⟩
    · rintro rfl
      exact started (sound.lineage_eq_nil (insertCredential_eq_inserted_iff.mp insertion).1)
  | burned ownerID burnedID =>
    rw [Ended, lineage_revokeLineageRows]
    refine ⟨by simpa using started, ?_⟩
    simp only [List.mem_map, forall_exists_index, and_imp, forall_apply_eq_imp_iff₂]
    intro credential member
    exact (statusChange_revoked ownerID burnedID now).staysInactive
      credential (inactive credential member)
  | @rotated source _ draws stored active insertion =>
    have elsewhere : (successor source now draws).lineageID ≠ lineageID :=
      fun here => inactive source (mem_lineage.mpr ⟨stored, here⟩) active
    rw [Ended, lineage_insertCredential insertion, if_neg elsewhere, lineage_rotateCredential]
    refine ⟨by simpa using started, ?_⟩
    simp only [List.mem_map, forall_exists_index, and_imp, forall_apply_eq_imp_iff₂]
    intro credential member
    exact (statusChange_rotated source.ownerID source.id).staysInactive
      credential (inactive credential member)

end TableEffect

namespace TokenSystem

variable {σ : Type} [CounterStore σ] {signer : AccessTokenSigner}
  {before after : TokenSystem σ} {event : TokenEvent}
  {condition : TokenSystem σ → TokenEvent → Prop} {system : TokenSystem σ}

omit [CounterStore σ] in
theorem issue_tableEffect (signer : AccessTokenSigner) (call : IssueCall) (system : TokenSystem σ) :
    TableEffect call.now system.state.tables (system.issue signer call).2.state.tables := by
  rcases issue_effect signer call.ownerID call.scopes call.clientLabel
      call.now call.draws call.faults system.state.tables with
    ⟨failure, ran⟩ | ⟨extended, named, validScopes, insertion, ran⟩
  · exact .owners (by rw [issue, ran])
  · rw [issue, ran]
    exact .root named validScopes insertion

theorem exchange_tableEffect (signer : AccessTokenSigner)
    (call : ExchangeCall) (system : TokenSystem σ) :
    TableEffect call.now system.state.tables (system.exchange signer call).2.state.tables := by
  rcases exchange_cases signer call.presented call.now call.draws call.plan
      call.calls system.state with
    ⟨_, unchanged⟩ | ⟨id, secret, outcome, tables, _, effect, ran⟩
  · exact .owners (by rw [exchange, unchanged])
  rw [exchange, ran]
  cases effect with
  | denied => exact .owners rfl
  | burned stored => exact .burned _ _
  | rotated stored named authentic active unexpired inserted minted =>
    exact .rotated stored active inserted

theorem revokeLineage_tableEffect (call : RevokeLineageCall) (system : TokenSystem σ) :
    TableEffect call.now system.state.tables (system.revokeLineage call).state.tables := by
  rcases revokeIssuedLineage_effect call.ownerID call.lineageID call.now
      call.faults system.state.tables with ran | ⟨rows, ran, _⟩
  · exact .owners (by rw [revokeLineage, ran])
  · rw [revokeLineage, ran]
    exact .burned _ _

theorem Step.tableEffect (step : Step signer before event after) : ∃ now ≤ after.clock,
      TableEffect now before.state.tables after.state.tables := by
  cases step with
  | @issue call order => exact ⟨call.now, le_refl _, issue_tableEffect signer _ _⟩
  | @exchange call order ends => exact ⟨call.now, ends, exchange_tableEffect signer _ _⟩
  | @revokeLineage call order ends => exact ⟨call.now, ends, revokeLineage_tableEffect _ _⟩
  | setOwners => exact ⟨before.clock, le_refl _, .owners rfl⟩

theorem Step.clock_le (step : Step signer before event after) : before.clock ≤ after.clock := by
  cases step with
  | issue order => exact order
  | exchange order ends | revokeLineage order ends => exact order.trans ends
  | setOwners => exact le_refl _

section

variable (runs : RunsWhere signer condition before after)

include runs

theorem RunsWhere.sound (sound : before.state.tables.Sound) : after.state.tables.Sound := by
  induction runs with
  | refl => exact sound
  | tail _ step induction =>
    obtain ⟨event, _, step⟩ := step
    obtain ⟨now, _, effect⟩ := step.tableEffect
    exact effect.sound induction

theorem RunsWhere.progress : before.state.tables.Progress after.state.tables := by
  induction runs with
  | refl => exact .refl _
  | tail _ step induction =>
    obtain ⟨event, _, step⟩ := step
    obtain ⟨now, _, effect⟩ := step.tableEffect
    exact induction.trans effect.progress

theorem RunsWhere.ended (sound : before.state.tables.Sound) {lineageID : LineageID}
    (ended : before.state.tables.Ended lineageID) : after.state.tables.Ended lineageID := by
  induction runs with
  | refl => exact ended
  | tail earlier step induction =>
    obtain ⟨event, _, step⟩ := step
    obtain ⟨now, _, effect⟩ := step.tableEffect
    exact effect.ended (RunsWhere.sound earlier sound) induction

theorem RunsWhere.clock_le : before.clock ≤ after.clock := by
  induction runs with
  | refl => exact le_refl _
  | tail _ step induction =>
    obtain ⟨event, _, step⟩ := step
    exact induction.trans step.clock_le

end

theorem Reachable.populated (reachable : Reachable signer system) :
    system.state.tables.Populated := by
  obtain ⟨owners, denylist, clock, runs⟩ := reachable
  have start : (initial owners denylist clock).state.tables.Populated :=
    fun credential stored => (Table.not_mem_empty credential stored).elim
  induction runs with
  | refl => exact start
  | tail _ step induction =>
    obtain ⟨event, _, step⟩ := step
    obtain ⟨now, _, effect⟩ := step.tableEffect
    exact effect.populated induction

theorem Reachable.sound (reachable : Reachable signer system) : system.state.tables.Sound := by
  obtain ⟨owners, denylist, clock, runs⟩ := reachable
  exact RunsWhere.sound runs sound_empty

end TokenSystem

end Vallet.Auth
