import Vallet.Auth.TokenSystem
import Vallet.Foundation.ReadCommitted

/-!
# The protocol of an exchange transaction

However its statements are answered, an `Exchange` reads one credential and
then does one of two things: it marks that credential rotated and inserts its
successor, or it revokes the lineage.  Tokens are returned only after the
successor was inserted.
-/

namespace Vallet.Auth

open Effects Relational RefreshCredentialRepository CredentialStatement

/-- What one statement of an exchange did. -/
inductive ExchangeAct where
  | quiet
  | read (credential : RefreshCredential)
  | rotated (ownerID : OwnerID) (id : RefreshCredentialID)
  | inserted (credential : RefreshCredential)
  | burned (ownerID : OwnerID) (lineageID : LineageID)

def CredentialStatement.exchangeAct {β : Type} :
    CredentialStatement β → Except Fault β → ExchangeAct
  | .selectByID _, .ok (some credential) => .read credential
  | .insert credential, .ok .inserted => .inserted credential
  | .updateRotated ownerID id, .ok affected => if affected > 0 then .rotated ownerID id else .quiet
  | .updateLineageRevoked ownerID lineageID _, .ok _ => .burned ownerID lineageID
  | _, _ => .quiet

/-- How far an exchange has come, with the credential it read. -/
inductive ExchangePhase where
  | fresh
  | read (credential : RefreshCredential)
  | rotated (credential : RefreshCredential)
  | inserted (credential child : RefreshCredential)
  | burned (credential : RefreshCredential)

namespace ExchangePhase

def record : ExchangeAct → ExchangePhase → ExchangePhase
  | .read credential, _ => .read credential
  | .rotated _ _, .read credential => .rotated credential
  | .inserted child, .rotated credential => .inserted credential child
  | .burned _ _, .read credential => .burned credential
  | _, phase => phase

/-- A successor is inserted after its parent was marked rotated; nothing is
written twice, and a lineage that is revoked was not rotated before. -/
def Permits : ExchangePhase → ExchangeAct → Prop
  | _, .quiet => True
  | .fresh, .read _ => True
  | .read credential, .rotated ownerID id => ownerID = credential.ownerID ∧ id = credential.id
  | .rotated credential, .inserted child =>
    child.ownerID = credential.ownerID ∧
      child.lineageID = credential.lineageID ∧ child.status = .active
  | .read credential, .burned ownerID lineageID =>
    ownerID = credential.ownerID ∧ lineageID = credential.lineageID
  | _, _ => False

/-- Tokens are those of the inserted successor. -/
def Concludes (phase : ExchangePhase) : Except Err ExchangeOutcome → Prop
  | .error _ => True
  | .ok outcome => ∀ issued, outcome.issued = some issued →
      ∃ credential child, phase = .inserted credential child ∧ issued.lineageID = child.lineageID

end ExchangePhase

def exchangeLabelling : Labelling CredentialStatement ExchangeAct ExchangePhase where
  label := exchangeAct
  record := ExchangePhase.record

namespace ExchangePhase

/-- The program performs only permitted acts, and ends as described. -/
def Follows {α : Type} (reaches : ExchangePhase → α → Prop)
    (program : Program CredentialStatement α) (phase : ExchangePhase) : Prop :=
  program.Obeys exchangeLabelling Permits reaches phase

section Programs

variable {phase : ExchangePhase} {credential : RefreshCredential}

/-- What follows a reply, once its act is known. -/
theorem follows_reply {α β : Type} {reaches : ExchangePhase → α → Prop}
    {statement : CredentialStatement β} {reply : Except Fault β}
    {act : ExchangeAct} {rest : Program CredentialStatement α}
    (acts : statement.exchangeAct reply = act) (permitted : phase.Permits act)
    (follows : Follows reaches rest (record act phase)) :
    phase.Permits (exchangeLabelling.label statement reply) ∧
      Follows reaches rest (exchangeLabelling.record
        (exchangeLabelling.label statement reply) phase) := by
  subst acts
  exact ⟨permitted, follows⟩

theorem follows_denied : Follows Concludes (.done (.ok ExchangeOutcome.denied)) phase := by
  intro issued impossible
  cases impossible

theorem follows_getOwner (id : OwnerID) :
    Follows (fun reached _ => reached = phase) (OwnerRepository.get id) phase := by
  intro reply
  refine ⟨trivial, ?_⟩
  rcases reply with fault | _ | owner <;> rfl

theorem follows_getByID (id : RefreshCredentialID) :
    Follows (fun reached result => match result with
        | .ok credential => reached = .read credential
        | .error _ => reached = .fresh)
      (getByID id) .fresh := by
  intro reply
  rcases reply with fault | _ | credential <;> exact ⟨trivial, rfl⟩

theorem follows_classifyConditional (affected : Nat) (ownerID : OwnerID)
    (id : RefreshCredentialID) :
    Follows (fun reached result => reached = phase ∧
        (result = .ok () ↔ affected > 0)) (classifyConditional affected ownerID id)
      phase := by
  unfold classifyConditional
  by_cases changed : affected > 0
  · rw [if_pos changed]
    exact ⟨rfl, iff_of_true rfl changed⟩
  · rw [if_neg changed]
    intro reply
    rcases reply with fault | _ | status <;>
      exact ⟨trivial, rfl, iff_of_false (by simp) changed⟩

theorem follows_markRotated : Follows (fun reached result => match result with
        | .ok () => reached = .rotated credential
        | .error _ => reached = .read credential)
      (markRotated credential.ownerID credential.id) (.read credential) := by
  intro reply
  cases reply with
  | error fault => exact ⟨trivial, rfl⟩
  | ok affected =>
    by_cases changed : affected > 0
    · refine follows_reply (if_pos changed) ⟨rfl, rfl⟩
        (Program.Obeys.mono (follows_classifyConditional affected _ _) ?_)
      rintro reached (failure | value) ⟨same, succeeds⟩
      · cases succeeds.mpr changed
      · exact same
    · refine follows_reply (if_neg changed) trivial
        (Program.Obeys.mono (follows_classifyConditional affected _ _) ?_)
      rintro reached (failure | value) ⟨same, succeeds⟩
      · exact same
      · exact (changed (succeeds.mp rfl)).elim

theorem follows_create {child : RefreshCredential}
    (permitted : Permits (.rotated credential) (.inserted child)) :
    Follows (fun reached result => match result with
        | .ok () => reached = .inserted credential child
        | .error _ => reached = .rotated credential)
      (RefreshCredentialRepository.create child) (.rotated credential) := by
  intro reply
  rcases reply with fault | answer
  · exact ⟨trivial, rfl⟩
  cases answer with
  | inserted => exact ⟨permitted, rfl⟩
  | duplicateKey | constraintFailed => exact ⟨trivial, rfl⟩

theorem follows_listByLineage (ownerID : OwnerID) (lineageID : LineageID) :
    Follows (fun reached _ => reached = phase) (listByLineage ownerID lineageID) phase := by
  intro reply
  refine ⟨trivial, ?_⟩
  rcases reply with fault | rows <;> rfl

theorem follows_revokeRows (now : Int) : Follows (fun _ _ => True)
      (RefreshCredentialRepository.revokeLineage credential.ownerID
        credential.lineageID now) (.read credential) := by
  intro reply
  rcases reply with fault | affected
  · exact ⟨trivial, trivial⟩
  · exact ⟨⟨rfl, rfl⟩, trivial⟩

theorem follows_revokeLineage (now : Int) :
    Follows Concludes (revokeLineage credential now) (.read credential) := by
  refine (follows_revokeRows now).bind fun reached result reaches => ?_
  cases result with
  | error failure => trivial
  | ok affected =>
    refine (follows_listByLineage _ _).bind fun _ rows _ => ?_
    cases rows with
    | error | ok =>
      intro issued impossible
      cases impossible

variable (signer : AccessTokenSigner)

theorem follows_rotate (now : Int) (draws : Draws) :
    Follows Concludes (rotate signer credential now draws) (.read credential) := by
  refine follows_markRotated.bind fun reached result reaches => ?_
  cases result with
  | error failure =>
    subst reaches
    simp only
    split
    · exact follows_revokeLineage now
    · trivial
  | ok marked =>
    subst reaches
    have permitted : Permits (.rotated credential)
        (.inserted (successor credential now draws)) := ⟨rfl, rfl, rfl⟩
    refine (follows_create permitted).bind fun reached result reaches => ?_
    cases result with
    | error failure => trivial
    | ok created =>
      subst reaches
      simp only
      split
      · trivial
      rename_i issued minted
      intro returned same
      cases same
      exact ⟨credential, _, rfl, (mint_ok minted).2.2.2.1⟩

theorem follows_exchangeFor (owner : Owner) (now : Int) (draws : Draws) :
    Follows Concludes (exchangeFor signer credential owner now draws) (.read credential) := by
  unfold exchangeFor
  split
  · exact follows_denied
  split
  · exact follows_denied
  split
  · exact follows_revokeLineage now
  split
  · exact follows_denied
  split
  · exact follows_denied
  · exact follows_rotate signer now draws

theorem follows_exchangeTx
    (id : RefreshCredentialID) (secret : List UInt8) (now : Int) (draws : Draws) :
    Follows Concludes (exchangeTx signer id secret now draws) .fresh := by
  refine (follows_getByID id).bind fun reached result reaches => ?_
  cases result with
  | error failure =>
    simp only
    split
    · exact follows_denied
    · trivial
  | ok credential =>
    subst reaches
    simp only
    split
    · exact follows_denied
    split
    · exact follows_denied
    split
    · exact follows_denied
    refine (follows_getOwner _).bind fun reached result reaches => ?_
    subst reaches
    cases result with
    | error failure =>
      simp only
      split
      · exact follows_denied
      · trivial
    | ok owner => exact follows_exchangeFor signer owner now draws

end Programs

end ExchangePhase

/-! ## Exchanges as transactions -/

/-- The transaction of an `Exchange` call; a token that does not parse opens
none. -/
def ExchangeCall.program (signer : AccessTokenSigner) (call : ExchangeCall) :
    Program CredentialStatement (Except Err ExchangeOutcome) :=
  match parseRefreshToken call.presented with
  | .error _ => .done (.error .authFailed)
  | .ok (id, secret) => exchangeTx signer id secret call.now call.draws

theorem ExchangeCall.obeys_program (signer : AccessTokenSigner) (call : ExchangeCall) :
    ExchangePhase.Follows ExchangePhase.Concludes (call.program signer) .fresh := by
  unfold ExchangeCall.program
  split
  · trivial
  · exact ExchangePhase.follows_exchangeTx signer _ _ call.now call.draws

def exchangeService (signer : AccessTokenSigner) :
    Service CredentialStatement ExchangeCall (Except Err ExchangeOutcome)
      ExchangeAct ExchangePhase where
  program := ExchangeCall.program signer
  labelling := exchangeLabelling
  blank := .fresh
  permits _ := ExchangePhase.Permits
  concludes _ := ExchangePhase.Concludes
  valid _ _ := True
  obeyed := ExchangeCall.obeys_program signer
  valid_blank _ := trivial
  valid_record _ _ := trivial

/-- How each statement uses the credentials; owners do not change. -/
def CredentialStatement.access (owners : Table Owner.id) {β : Type} :
    CredentialStatement β → Effects.Access RefreshCredential.id β
  | .selectOwner id => .read fun _ => owners.find? id
  | .selectByID id => .read fun rows => rows.find? id
  | .selectStatus ownerID id => .read fun rows =>
    (rows.select (RefreshCredential.ownedBy ownerID id)).head?.map (·.status)
  | .selectLineage ownerID lineageID => .read fun rows =>
    CredentialTables.lineageRows ⟨owners, rows⟩ ownerID lineageID
  | .insert credential =>
    if (owners.find? credential.ownerID).isNone then
      .read fun rows =>
        if (rows.find? credential.id).isSome then .duplicateKey
        else .constraintFailed
    else
      .insert credential fun inserted =>
        if inserted then .inserted else .duplicateKey
  | .updateRotated ownerID id =>
    .update (RefreshCredential.rotatable ownerID id)
      RefreshCredential.rotated RefreshCredential.id_rotated fun n => n
  | .updateLineageRevoked ownerID lineageID now =>
    .update (RefreshCredential.revocable ownerID lineageID)
      (RefreshCredential.revoked now) (RefreshCredential.id_revoked now)
      fun n => n

/-- Only the primary key keeps credentials apart. -/
def credentialSchema (owners : Table Owner.id) :
    Schema CredentialStatement RefreshCredential.id where
  access := access owners
  clashes _ _ := false
  symmetric _ _ := rfl

theorem unique_credentials (rows : Table RefreshCredential.id) (owners : Table Owner.id) :
    rows.Unique (credentialSchema owners).clashes :=
  fun _ _ _ _ _ => rfl

/-! ## What the statements of a transaction are -/

/-- The next statement revokes a lineage. -/
def revokesNext {α : Type} : Program CredentialStatement α → Bool
  | .issue (.updateLineageRevoked _ _ _) _ => true
  | _ => false

section Statements

variable {signer : AccessTokenSigner} {thread : Thread (exchangeService signer)} {β : Type}
  {statement : CredentialStatement β} {next : Except Fault β →
    Program CredentialStatement (Except Err ExchangeOutcome)} {owners : Table Owner.id}

variable (waiting : thread.rest = .issue statement next)

include waiting

/-- A reading statement leaves the phase alone, or is the first one and has
found the presented credential. -/
theorem phase_of_read {answer : Table RefreshCredential.id → β}
    (form : (credentialSchema owners).access statement = .read answer)
    (rows : Table RefreshCredential.id) :
    ExchangePhase.record (statement.exchangeAct (.ok (answer rows))) thread.trail = thread.trail ∨
      ∃ credential ∈ rows, thread.trail = .fresh ∧
        ExchangePhase.record (statement.exchangeAct (.ok (answer rows)))
          thread.trail = .read credential := by
  cases statement with
  | selectByID id =>
    cases form
    cases found : rows.find? id with
    | none =>
      simp only [found]
      exact .inl rfl
    | some credential =>
      have permitted := thread.permitted waiting (.ok (some credential))
      simp only [found]
      refine .inr ⟨credential, (Table.find?_eq_some_iff.mp found).1, ?_, rfl⟩
      cases phase : thread.trail with
      | fresh => rfl
      | _ =>
        rw [phase] at permitted
        exact permitted.elim
  | insert credential =>
    simp only [credentialSchema, access] at form
    split at form
    · cases form
      simp only
      split <;> exact .inl rfl
    · cases form
  | selectOwner | selectStatus | selectLineage =>
    cases form
    exact .inl rfl
  | updateRotated | updateLineageRevoked => cases form

/-- An insert that collides leaves the phase alone; one that succeeds adds the
successor of a credential that was marked rotated. -/
theorem phase_of_insert {row : RefreshCredential} {answer : Bool → β}
    (form : (credentialSchema owners).access statement = .insert row answer) :
    ExchangePhase.record (statement.exchangeAct (.ok (answer false))) thread.trail = thread.trail ∧
      ∃ credential, thread.trail = .rotated credential ∧ row.ownerID = credential.ownerID ∧
        row.lineageID = credential.lineageID ∧ row.status = .active ∧
        ExchangePhase.record (statement.exchangeAct (.ok (answer true)))
          thread.trail = .inserted credential row := by
  cases statement with
  | insert child =>
    simp only [credentialSchema, access] at form
    split at form
    · cases form
    cases form
    have permitted := thread.permitted waiting (.ok .inserted)
    refine ⟨rfl, ?_⟩
    cases phase : thread.trail with
    | rotated credential =>
      rw [phase] at permitted
      exact ⟨credential, rfl, permitted.1, permitted.2.1, permitted.2.2, rfl⟩
    | _ =>
      rw [phase] at permitted
      exact permitted.elim
  | selectOwner | selectByID | selectStatus | selectLineage | updateRotated
  | updateLineageRevoked => cases form

/-- An update marks the credential that was read, or revokes its lineage. -/
theorem phase_of_update
    {chosen : RefreshCredential → Bool} {change : RefreshCredential → Option RefreshCredential}
    {keepsKey : ∀ ⦃row version⦄, change row = some version →
      version.id = row.id} {answer : Nat → β} (form : (credentialSchema owners).access statement =
      .write chosen change keepsKey answer) :
    ∃ credential, thread.trail = .read credential ∧
      ((revokesNext thread.rest = false ∧
          chosen = RefreshCredential.rotatable credential.ownerID credential.id ∧
          (∀ row, change row = some row.rotated) ∧
          ∀ affected, ExchangePhase.record
            (statement.exchangeAct (.ok (answer affected))) thread.trail =
              if affected > 0 then .rotated credential
              else .read credential) ∨
        (revokesNext thread.rest = true ∧
          chosen = RefreshCredential.revocable credential.ownerID credential.lineageID ∧
          (∃ now, ∀ row, change row = some (row.revoked now)) ∧
          ∀ affected, ExchangePhase.record
            (statement.exchangeAct (.ok (answer affected))) thread.trail =
              .burned credential)) := by
  cases statement with
  | updateRotated ownerID id =>
    cases form
    have permitted := thread.permitted waiting (.ok 1)
    cases phase : thread.trail with
    | read credential =>
      rw [phase] at permitted
      obtain ⟨rfl, rfl⟩ := permitted
      refine ⟨credential, rfl, .inl ⟨by rw [waiting]; rfl, rfl,
        fun _ => rfl, fun affected => ?_⟩⟩
      simp only [exchangeAct]
      split <;> rfl
    | _ =>
      rw [phase] at permitted
      exact permitted.elim
  | updateLineageRevoked ownerID lineageID now =>
    cases form
    have permitted := thread.permitted waiting (.ok 1)
    cases phase : thread.trail with
    | read credential =>
      rw [phase] at permitted
      obtain ⟨rfl, rfl⟩ := permitted
      exact ⟨credential, rfl, .inr ⟨by rw [waiting]; rfl, rfl, ⟨now, fun _ => rfl⟩, fun _ => rfl⟩⟩
    | _ =>
      rw [phase] at permitted
      exact permitted.elim
  | insert child =>
    simp only [credentialSchema, access] at form
    split at form <;> cases form
  | _ => cases form

end Statements

end Vallet.Auth
