import Vallet.Foundation.ReadCommitted
import Vallet.Publishing.AccessKeyEffects

/-!
# The protocol of a rotation transaction

However its statements are answered, a `Rotate` transaction reads one key,
inserts a successor if it has read the key as active, and then marks the key.
`Revoke` runs outside of a transaction, so each of its two statements commits
on its own.
-/

namespace Vallet.Publishing

open Auth Effects Effects.Program Relational AccessKeyRepository AccessKeyStatement

/-! ## The protocol of a rotation -/

/-- What is executed as one transaction: a rotation, and each of the two
statements of `Revoke`, which commit on their own. -/
inductive KeyTransaction where
  | rotate (call : AccessKeyService.RotateCall)
  | lookUp (ownerID : OwnerID) (id : AccessKeyID)
  | revoke (ownerID : OwnerID) (id : AccessKeyID) (now : Int)

/-- The program of a transaction; a rotation returns its successor. -/
def KeyTransaction.program (service : AccessKeyService) :
    KeyTransaction → Program AccessKeyStatement (Except Err (Option AccessKey))
  | .rotate call => do
      let result ← service.rotateTx call
      return result.map fun rotation => some rotation.created
  | .lookUp ownerID id => do
      let result ← get ownerID id
      return result.map fun _ => none
  | .revoke ownerID id now => do
      let result ← AccessKeyRepository.revoke ownerID id now
      return result.map fun _ => none

/-- What one statement did. -/
inductive KeyAct where
  | quiet
  | read (ownerID : OwnerID) (id : AccessKeyID) (key : AccessKey)
  | inserted (key : AccessKey)
  | marked (ownerID : OwnerID) (id : AccessKeyID)
  | revoked (ownerID : OwnerID) (id : AccessKeyID)

def AccessKeyStatement.keyAct {β : Type} : AccessKeyStatement β → Except Fault β → KeyAct
  | .selectKey ownerID id, .ok (some key) => .read ownerID id key
  | .insertKey key, .ok .inserted => .inserted key
  | .updateRotated ownerID id _ _, .ok affected =>
    if affected > 0 then .marked ownerID id else .quiet
  | .updateRevoked ownerID id _, .ok _ => .revoked ownerID id
  | _, _ => .quiet

/-- How far a transaction has come, with the key it read. -/
inductive KeyPhase where
  | fresh
  | read (key : AccessKey)
  | inserted (key successor : AccessKey)
  | marked (key successor : AccessKey)

namespace KeyPhase

def record : KeyAct → KeyPhase → KeyPhase
  | .read _ _ key, _ => .read key
  | .inserted successor, .read key => .inserted key successor
  | .marked _ _, .inserted key successor => .marked key successor
  | _, phase => phase

/-- A key is read once, its successor is inserted if it was active, and then
it is marked. -/
def Permits : KeyTransaction → KeyPhase → KeyAct → Prop
  | _, _, .quiet => True
  | .rotate call, .fresh, .read ownerID id _ => ownerID = call.ownerID ∧ id = call.id
  | .lookUp wanted name, .fresh, .read ownerID id _ => ownerID = wanted ∧ id = name
  | .rotate _, .read key, .inserted successor => key.status = .active ∧ successor.status = .active
  | .rotate call, .inserted _ _, .marked ownerID id => ownerID = call.ownerID ∧ id = call.id
  | .revoke wanted name _, .fresh, .revoked ownerID id => ownerID = wanted ∧ id = name
  | _, _, _ => False

/-- A rotation that succeeds has marked its key and returns the successor. -/
def Concludes : KeyTransaction → KeyPhase → Except Err (Option AccessKey) → Prop
  | .rotate _, phase, .ok result => ∃ key successor,
      result = some successor ∧ phase = .marked key successor
  | _, _, _ => True

/-- Only an active key gets a successor. -/
def Valid : KeyPhase → Prop
  | .inserted key _ => key.status = .active
  | .marked key _ => key.status = .active
  | _ => True

theorem Valid.record {transaction : KeyTransaction} {phase : KeyPhase}
    {act : KeyAct} (permitted : Permits transaction phase act)
    (valid : Valid phase) : Valid (record act phase) := by
  cases act with
  | quiet => cases phase <;> exact valid
  | read => trivial
  | inserted successor =>
    cases phase with
    | read key =>
      cases transaction with
      | rotate call => exact permitted.1
      | lookUp | revoke => exact permitted.elim
    | fresh | inserted | marked => exact valid
  | marked | revoked => cases phase <;> exact valid

end KeyPhase

def keyLabelling : Labelling AccessKeyStatement KeyAct KeyPhase where
  label := keyAct
  record := KeyPhase.record

namespace KeyPhase

/-- The program performs only permitted acts, and ends as described when it
succeeds. -/
def Achieves {α : Type} (transaction : KeyTransaction) (reaches : KeyPhase → α → Prop)
    (program : Program AccessKeyStatement (Except Err α)) (phase : KeyPhase) : Prop :=
  program.Achieves keyLabelling (Permits transaction) reaches phase

variable {transaction : KeyTransaction} {phase : KeyPhase}
  {call : AccessKeyService.RotateCall} {key : AccessKey}

theorem achieves_get {ownerID : OwnerID} {id : AccessKeyID}
    (permitted : ∀ found, Permits transaction .fresh (.read ownerID id found)) :
    Achieves transaction (fun reached found => reached = .read found) (get ownerID id) .fresh := by
  intro reply
  rcases reply with fault | _ | found
  · exact ⟨trivial, achieves_error⟩
  · exact ⟨trivial, achieves_error⟩
  · exact ⟨permitted found, achieves_ok rfl⟩

theorem achieves_getKeySet (ownerID : OwnerID) (setID : KeySetID) :
    Achieves transaction (fun reached _ => reached = phase) (getKeySet ownerID setID) phase := by
  intro reply
  refine ⟨trivial, ?_⟩
  rcases reply with fault | _ | set <;> exact fun _ _ => rfl

theorem achieves_keySetIn (ownerID : OwnerID) (setID : KeySetID) :
    Achieves transaction (fun reached _ => reached = phase)
      (AccessKeyService.keySetIn ownerID setID) phase := by
  unfold AccessKeyService.keySetIn
  split
  · nofun
  refine (achieves_getKeySet _ _).bind fun set reached reaches => ?_
  simp only
  split <;> exact fun _ _ => reaches

theorem achieves_create (active : key.status = .active)
    {successor : AccessKey} (live : successor.status = .active) :
    Achieves (.rotate call) (fun reached _ => reached = .inserted key successor)
      (AccessKeyRepository.create successor) (.read key) := by
  intro reply
  rcases reply with fault | answer
  · exact ⟨trivial, achieves_error⟩
  cases answer with
  | inserted => exact ⟨⟨active, live⟩, achieves_ok rfl⟩
  | duplicateKey | constraintFailed => exact ⟨trivial, achieves_error⟩

theorem achieves_markRotated (successor : AccessKey) (graceUntil : Int) :
    Achieves (.rotate call) (fun reached _ => reached = .marked key successor)
      (markRotated call.ownerID call.id successor.id graceUntil) (.inserted key successor) := by
  intro reply
  rcases reply with fault | affected
  · exact ⟨trivial, achieves_error⟩
  by_cases changed : affected > 0
  · have act : keyLabelling.label (.updateRotated call.ownerID call.id
        successor.id graceUntil) (.ok affected) =
        .marked call.ownerID call.id := if_pos changed
    rw [act]
    exact ⟨⟨rfl, rfl⟩, fun _ _ => rfl⟩
  · have act : keyLabelling.label (.updateRotated call.ownerID call.id
        successor.id graceUntil) (.ok affected) = .quiet := if_neg changed
    rw [act]
    refine ⟨trivial, fun _ returned => ?_⟩
    rw [requireAffected, if_pos (Nat.eq_zero_of_not_pos changed)] at returned
    cases returned

theorem achieves_rotateKey (service : AccessKeyService) :
    Achieves (.rotate call) (fun reached rotation => reached = .marked key rotation.created)
      (service.rotateKey call key) (.read key) := by
  unfold AccessKeyService.rotateKey
  split
  · nofun
  rename_i live
  refine (achieves_keySetIn _ _).bind ?_
  rintro set _ rfl
  simp only
  split
  · nofun
  rename_i rotation planned
  have created := service.planRotation_created planned
  refine (achieves_create (not_not.mp live) (created ▸ rfl)).bind ?_
  rintro _ _ rfl
  exact (achieves_markRotated _ _).bind fun _ _ reaches => achieves_ok reaches

theorem follows_program (service : AccessKeyService) (transaction : KeyTransaction) :
    (transaction.program service).Obeys keyLabelling (Permits transaction)
      (Concludes transaction) .fresh := by
  cases transaction with
  | rotate call =>
    have first : Achieves (.rotate call) (fun reached rotation =>
        ∃ key, reached = .marked key rotation.created) (service.rotateTx call) .fresh := by
      refine Achieves.bind (achieves_get fun _ => ⟨rfl, rfl⟩) ?_
      rintro key _ rfl
      exact Program.Obeys.mono (achieves_rotateKey service)
        fun _ _ marked rotation same => ⟨key, marked rotation same⟩
    refine Program.Obeys.bind first fun reached result reaches => ?_
    cases result with
    | error failure => trivial
    | ok rotation =>
      obtain ⟨key, marked⟩ := reaches rotation rfl
      exact ⟨key, rotation.created, rfl, marked⟩
  | lookUp ownerID id =>
    exact Program.Obeys.bind (achieves_get fun _ => ⟨rfl, rfl⟩) fun _ _ _ => trivial
  | revoke ownerID id now =>
    intro reply
    rcases reply with fault | affected
    · exact ⟨trivial, trivial⟩
    · exact ⟨⟨rfl, rfl⟩, trivial⟩

end KeyPhase

def keyService (service : AccessKeyService) :
    Service AccessKeyStatement KeyTransaction (Except Err (Option AccessKey)) KeyAct KeyPhase where
  program := KeyTransaction.program service
  labelling := keyLabelling
  blank := .fresh
  permits := KeyPhase.Permits
  concludes := KeyPhase.Concludes
  valid _ := KeyPhase.Valid
  obeyed := KeyPhase.follows_program service
  valid_blank _ := trivial
  valid_record := KeyPhase.Valid.record

/-- How each statement uses the keys; the other tables do not change. -/
def AccessKeyStatement.access (catalog : Catalog) {β : Type} :
    AccessKeyStatement β → Access AccessKey.id β
  | .selectKeySet ownerID id => .read fun _ => catalog.findKeySet ownerID id
  | .selectKey ownerID id => .read fun keys =>
    Catalog.findAccessKey { catalog with accessKeys := keys } ownerID id
  | .selectExpiredGrace now limit => .read fun keys =>
    Catalog.expiredGrace { catalog with accessKeys := keys } now limit
  | .insertKey key =>
    if (catalog.owners.find? key.ownerID).isNone ∨ (catalog.keySets.find? key.keySetID).isNone then
      .read fun keys =>
        if (keys.find? key.id).isSome then .duplicateKey
        else .constraintFailed
    else
      .insert key fun inserted =>
        if inserted then .inserted else .duplicateKey
  | .updateRotated ownerID id replacedBy graceUntil =>
    .update (AccessKey.rotatable ownerID id) (AccessKey.rotated replacedBy graceUntil)
      (AccessKey.id_rotated replacedBy graceUntil) fun affected => affected
  | .updateRevoked ownerID id now =>
    .update (AccessKey.ownedBy ownerID id) (AccessKey.revoked now)
      (AccessKey.id_revoked now) fun affected => affected
  | .appendAudit record => .read fun _ => (catalog.appendAudit record).1

/-- Only the primary key keeps access keys apart. -/
def keySchema (catalog : Catalog) : Schema AccessKeyStatement AccessKey.id where
  access := access catalog
  clashes _ _ := false
  symmetric _ _ := rfl

theorem unique_keys (catalog : Catalog) (keys : Table AccessKey.id) :
    keys.Unique (keySchema catalog).clashes :=
  fun _ _ _ _ _ => rfl

/-! ## What the statements of a transaction are -/

section Statements

variable {service : AccessKeyService} {thread : Thread (keyService service)}
  {catalog : Catalog} {β : Type} {statement : AccessKeyStatement β} {next : Except Fault β →
    Program AccessKeyStatement (Except Err (Option AccessKey))}

variable (waiting : thread.rest = .issue statement next)

include waiting

/-- A read leaves the phase alone, or is the one that finds the key. -/
theorem phase_of_read
    {answer : Table AccessKey.id → β} (form : (keySchema catalog).access statement = .read answer)
    (keys : Table AccessKey.id) :
    (thread.answered waiting (.ok (answer keys))).trail = thread.trail ∨
    ∃ key ∈ keys, thread.trail = .fresh ∧
      (thread.answered waiting (.ok (answer keys))).trail = .read key ∧
      ∀ call, thread.call = .rotate call → key.id = call.id := by
  cases statement with
  | selectKey ownerID id =>
    cases form
    cases found : Catalog.findAccessKey { catalog with accessKeys := keys } ownerID id with
    | none =>
      refine .inl ?_
      simp only [Thread.answered, found]
      cases trail : thread.trail <;> rfl
    | some key =>
      have permitted := thread.permitted waiting (.ok (some key))
      obtain ⟨stored, sameID, _⟩ := Catalog.findAccessKey_eq_some.mp found
      have fresh : thread.trail = .fresh ∧ ∀ call, thread.call = .rotate call → id = call.id := by
        cases trail : thread.trail with
        | fresh =>
          refine ⟨rfl, fun call rotates => ?_⟩
          rw [trail, rotates] at permitted
          exact permitted.2
        | _ =>
          rw [trail] at permitted
          cases kind : thread.call <;> rw [kind] at permitted <;>
            exact permitted.elim
      refine .inr ⟨key, stored, fresh.1, ?_, fun call rotates =>
        sameID.trans (fresh.2 call rotates)⟩
      simp only [Thread.answered, found]
      rfl
  | insertKey key =>
    refine .inl ?_
    simp only [keySchema, access] at form
    split at form
    · cases form
      simp only [Thread.answered]
      by_cases taken : (keys.find? key.id).isSome
      · simp only [taken, if_true]
        cases trail : thread.trail <;> rfl
      · simp only [taken]
        cases trail : thread.trail <;> rfl
    · cases form
  | selectKeySet | selectExpiredGrace | appendAudit =>
    refine .inl ?_
    simp only [Thread.answered]
    cases trail : thread.trail <;> rfl
  | updateRotated | updateRevoked => cases form

/-- Only the successor of a key that was read as active is inserted. -/
theorem phase_of_insert {row : AccessKey} {answer : Bool → β}
    (form : (keySchema catalog).access statement = .insert row answer) :
    (thread.answered waiting (.ok (answer false))).trail = thread.trail ∧
    ∃ key, thread.trail = .read key ∧ row.status = .active ∧
      (thread.answered waiting (.ok (answer true))).trail = .inserted key row := by
  cases statement with
  | insertKey key =>
    simp only [keySchema, access] at form
    split at form
    · cases form
    cases form
    have permitted := thread.permitted waiting (.ok .inserted)
    cases trail : thread.trail with
    | read old =>
      rw [trail] at permitted
      cases kind : thread.call with
      | rotate call =>
        rw [kind] at permitted
        simp only [Thread.answered, trail]
        exact ⟨rfl, old, rfl, permitted.2, rfl⟩
      | lookUp | revoke =>
        rw [kind] at permitted
        exact permitted.elim
    | _ =>
      rw [trail] at permitted
      cases kind : thread.call <;> rw [kind] at permitted <;>
        exact permitted.elim
  | _ => cases form

/-- An update is the mark of a rotation, after its successor was inserted, or
the revocation of a key. -/
theorem phase_of_update {chosen : AccessKey → Bool} {change : AccessKey → Option AccessKey}
    {keepsKey : ∀ ⦃row version⦄, change row = some version →
      version.id = row.id} {answer : Nat → β} (form : (keySchema catalog).access statement =
      .write chosen change keepsKey answer) :
    (∃ call key successor replacedBy graceUntil,
      thread.call = .rotate call ∧ thread.trail = .inserted key successor ∧
      chosen = AccessKey.rotatable call.ownerID call.id ∧
      (∀ row, change row = some (row.rotated replacedBy graceUntil)) ∧
      ∀ affected, (thread.answered waiting (.ok (answer affected))).trail =
        if affected > 0 then .marked key successor
        else .inserted key successor) ∨
    (thread.trail = .fresh ∧ ∃ now, (∀ row, change row = some (row.revoked now)) ∧
      ∀ affected, (thread.answered waiting (.ok (answer affected))).trail = .fresh) := by
  cases statement with
  | updateRotated ownerID id replacedBy graceUntil =>
    cases form
    have permitted := thread.permitted waiting (.ok 1)
    cases trail : thread.trail with
    | inserted key successor =>
      rw [trail] at permitted
      cases kind : thread.call with
      | rotate call =>
        rw [kind] at permitted
        obtain ⟨rfl, rfl⟩ := permitted
        refine .inl ⟨call, key, successor, replacedBy, graceUntil, rfl,
          rfl, rfl, fun _ => rfl, fun affected => ?_⟩
        simp only [Thread.answered, trail]
        by_cases changed : affected > 0
        · rw [if_pos changed]
          have act : (keyService service).labelling.label
              (.updateRotated call.ownerID call.id replacedBy graceUntil) (.ok affected) =
              .marked call.ownerID call.id := if_pos changed
          rw [act]
          rfl
        · rw [if_neg changed]
          have act : (keyService service).labelling.label
              (.updateRotated call.ownerID call.id replacedBy
                graceUntil) (.ok affected) = .quiet := if_neg changed
          rw [act]
          rfl
      | lookUp | revoke =>
        rw [kind] at permitted
        exact permitted.elim
    | _ =>
      rw [trail] at permitted
      cases kind : thread.call <;> rw [kind] at permitted <;>
        exact permitted.elim
  | updateRevoked ownerID id now =>
    cases form
    have permitted := thread.permitted waiting (.ok 1)
    cases trail : thread.trail with
    | fresh =>
      refine .inr ⟨rfl, now, fun _ => rfl, fun affected => ?_⟩
      simp only [Thread.answered, trail]
      rfl
    | _ =>
      rw [trail] at permitted
      cases kind : thread.call <;> rw [kind] at permitted <;>
        exact permitted.elim
  | insertKey key =>
    simp only [keySchema, access] at form
    split at form <;> cases form
  | _ => cases form

end Statements

end Vallet.Publishing
