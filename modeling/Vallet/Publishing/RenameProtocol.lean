import Vallet.Publishing.HandleEffects

/-!
# The protocol of a rename transaction

However its statements are answered, a `Rename` transaction reads the owner's
active handle, lists the owner's names, writes the tombstone and then either
takes back a hold or registers the new name.  What it has listed allows it to
add a name or not, and nothing it reads later is compared with that again.
-/

namespace Vallet.Publishing

open Auth Effects Effects.Program Relational HandleStatement

/-- What one statement did. -/
inductive HandleAct where
  | quiet
  | active (ownerID : OwnerID) (old : Handle)
  | listed (ownerID : OwnerID) (held : List Handle)
  | updated (ownerID : OwnerID) (id : HandleID) (values : Handle)
  | inserted (handle : Handle)
  /-- A write of the sweep or of the recompute pass. -/
  | foreign

def HandleStatement.act {β : Type} : HandleStatement β → Except Fault β → HandleAct
  | .selectActiveByOwner ownerID, .ok (some old) => .active ownerID old
  | .selectByOwner ownerID, .ok held => .listed ownerID held
  | .updateHandle ownerID id values, .ok (some affected) =>
    if affected > 0 then .updated ownerID id values else .quiet
  | .insertHandle handle, .ok .inserted => .inserted handle
  | .updateFold _ _ _ _, _ => .foreign
  | .updateLookalike _ _, _ => .foreign
  | .deleteExpired _ _, _ => .foreign
  | _, _ => .quiet

/-- How far a rename has come, with what it has read. -/
inductive RenamePhase where
  | fresh
  | active (old : Handle)
  | listed (old : Handle) (held : List Handle)
  | vacated (old : Handle) (held : List Handle)
  | reclaimed (old : Handle) (held : List Handle)
  | registered (old : Handle) (held : List Handle) (claimed : Handle)

namespace RenamePhase

def record : HandleAct → RenamePhase → RenamePhase
  | .active _ old, .fresh => .active old
  | .listed _ held, .active old => .listed old held
  | .updated _ _ _, .listed old held => .vacated old held
  | .updated _ _ _, .vacated old held => .reclaimed old held
  | .inserted claimed, .vacated old held => .registered old held claimed
  | _, phase => phase

/-- What was listed leaves room for the name asked for. -/
def Allowed (service : HandleService) (call : RenameCall) (held : List Handle) : Prop :=
  reclaims held call.name = true ∨ held.length < service.maxNames

def Permits (service : HandleService) (call : RenameCall) : RenamePhase → HandleAct → Prop
  | _, .quiet => True
  | .fresh, .active ownerID _ => ownerID = call.ownerID
  | .active _, .listed ownerID _ => ownerID = call.ownerID
  | .listed old held, .updated ownerID id values =>
    ownerID = old.ownerID ∧ id = old.id ∧ values.state = .quarantined ∧ Allowed service call held
  | .vacated _ _, .updated ownerID _ values => ownerID = call.ownerID ∧ values.state = .active
  | .vacated _ _, .inserted handle => handle = service.folds.stored call.fresh
  | _, _ => False

theorem record_quiet (phase : RenamePhase) : record .quiet phase = phase := by
  cases phase <;> rfl

theorem permits_quiet (service : HandleService) (call : RenameCall)
    (phase : RenamePhase) : Permits service call phase .quiet := by
  cases phase <;> trivial

/-- A rename that succeeds has claimed its name. -/
def Concludes (_ : RenameCall) : RenamePhase → Except Err Handle → Prop
  | phase, .ok _ => ∃ old held, phase = .reclaimed old held ∨
      ∃ claimed, phase = .registered old held claimed
  | _, .error _ => True

/-- A name is written only when the list allowed it, and only the name asked
for is registered. -/
def Valid (service : HandleService) (call : RenameCall) : RenamePhase → Prop
  | .vacated _ held => Allowed service call held
  | .reclaimed _ held => Allowed service call held
  | .registered _ held claimed => Allowed service call held ∧
      claimed = service.folds.stored call.fresh
  | _ => True

theorem Valid.record {service : HandleService} {call : RenameCall}
    {phase : RenamePhase} {act : HandleAct} (permitted : Permits service call phase act)
    (valid : Valid service call phase) : Valid service call (record act phase) := by
  cases act with
  | quiet =>
    rw [record_quiet]
    exact valid
  | active ownerID old =>
    cases phase with
    | fresh => trivial
    | _ => exact permitted.elim
  | listed ownerID held =>
    cases phase with
    | active old => trivial
    | _ => exact permitted.elim
  | updated ownerID id values =>
    cases phase with
    | listed old held => exact permitted.2.2.2
    | vacated old held => exact valid
    | _ => exact permitted.elim
  | inserted handle =>
    cases phase with
    | vacated old held => exact ⟨valid, permitted⟩
    | _ => exact permitted.elim
  | foreign => cases phase <;> exact permitted.elim

end RenamePhase

def renameLabelling : Labelling HandleStatement HandleAct RenamePhase where
  label := act
  record := RenamePhase.record

namespace RenamePhase

/-- The program performs only permitted acts, and ends as described when it
succeeds. -/
def Achieves {α : Type} (service : HandleService) (call : RenameCall)
    (reaches : RenamePhase → α → Prop) (program : Program HandleStatement (Except Err α))
    (phase : RenamePhase) : Prop :=
  program.Achieves renameLabelling (Permits service call) reaches phase

variable {service : HandleService} {call : RenameCall} {phase : RenamePhase}

theorem achieves_getActiveByOwner :
    Achieves service call (fun reached old => reached = .active old)
      (HandleRepository.getActiveByOwner call.ownerID) .fresh := by
  intro reply
  rcases reply with fault | _ | old
  · exact ⟨trivial, achieves_error⟩
  · exact ⟨trivial, achieves_error⟩
  · exact ⟨rfl, achieves_ok rfl⟩

theorem achieves_listByOwner (old : Handle) :
    Achieves service call (fun reached held => reached = .listed old held)
      (HandleRepository.listByOwner call.ownerID) (.active old) := by
  intro reply
  rcases reply with fault | held
  · exact ⟨trivial, achieves_error⟩
  · exact ⟨rfl, achieves_ok rfl⟩

theorem obeys_getByName (name : GoString) :
    (HandleRepository.getByName name).Obeys renameLabelling (Permits service call)
      (fun reached _ => reached = phase) phase :=
  fun _ => ⟨permits_quiet service call phase, record_quiet phase⟩

/-- An update is recorded when it has changed a row. -/
theorem achieves_update {values : Handle} {later : RenamePhase}
    (permitted : Permits service call phase (.updated values.ownerID values.id values))
    (recorded : record (.updated values.ownerID values.id values) phase = later) :
    Achieves service call (fun reached _ => reached = later)
      (HandleRepository.update values) phase := by
  have silent := permits_quiet service call phase
  intro reply
  refine ⟨silent, ?_⟩
  rcases reply with fault | _ | current
  · exact achieves_error
  · exact achieves_error
  · change Program.Obeys renameLabelling _ _ _ (record .quiet phase)
    rw [record_quiet]
    simp only [Program.bind_done]
    by_cases same : current = values.name
    · rw [if_neg (not_not.mpr same)]
      intro reply
      rcases reply with fault | _ | affected
      · exact ⟨silent, achieves_error⟩
      · exact ⟨silent, achieves_error⟩
      · by_cases changed : affected > 0
        · have act : renameLabelling.label (.updateHandle values.ownerID
              values.id values) (.ok (some affected)) =
              .updated values.ownerID values.id values := if_pos changed
          rw [act]
          exact ⟨permitted, fun _ _ => recorded⟩
        · have act : renameLabelling.label (.updateHandle values.ownerID
              values.id values) (.ok (some affected)) = .quiet :=
            if_neg changed
          rw [act]
          refine ⟨silent, fun _ returned => ?_⟩
          rw [requireUpdated, if_pos (Nat.eq_zero_of_not_pos changed)] at returned
          cases returned
    · rw [if_pos same]
      exact achieves_error

theorem achieves_register (old : Handle) (held : List Handle) :
    Achieves service call (fun reached _ =>
        reached = .registered old held (service.folds.stored call.fresh))
      (HandleRepository.register service.folds call.fresh)
      (.vacated old held) := by
  intro reply
  refine ⟨trivial, ?_⟩
  rcases reply with fault | _ | _
  · nofun
  · intro reply
    rcases reply with fault | answer
    · exact ⟨trivial, nofun⟩
    cases answer with
    | inserted => exact ⟨rfl, achieves_ok rfl⟩
    | duplicateKey | constraintFailed => exact ⟨trivial, nofun⟩
  · nofun

theorem achieves_emitTx (action : AuditAction) (ownerID : OwnerID)
    (id : HandleID) (details : List (DetailKey × GoString)) (auditID : AuditRecordID) (now : Int) :
    Achieves service call (fun reached _ => reached = phase)
      (service.emitTx action ownerID id details auditID now) phase := by
  have silent := permits_quiet service call phase
  unfold HandleService.emitTx Audit.Emitter.emit
  split
  · nofun
  intro reply
  refine ⟨silent, ?_⟩
  change Program.Obeys renameLabelling _ _ _ (record .quiet phase)
  rw [record_quiet]
  rcases reply with fault | answer
  · nofun
  · cases answer <;> exact fun _ _ => rfl

theorem achieves_claim (old : Handle) (held : List Handle) :
    Achieves service call (fun reached _ => reached = .reclaimed old held ∨
        ∃ fresh, reached = .registered old held fresh)
      (service.claim call) (.vacated old held) := by
  refine (obeys_getByName call.name).bind fun reached looked reaches => ?_
  subst reaches
  cases looked with
  | ok existing =>
    simp only
    split
    · nofun
    rename_i own
    push Not at own
    have permitted : Permits service call (.vacated old held)
        (.updated (Handle.reactivated call.now existing).ownerID
          (Handle.reactivated call.now existing).id
          (Handle.reactivated call.now existing)) := ⟨own.1, rfl⟩
    exact (achieves_update permitted rfl).bind fun _ _ reaches => achieves_ok (.inl reaches)
  | error failure =>
    simp only
    split
    · exact (achieves_register old held).bind
        fun _ _ reaches => achieves_ok (.inr ⟨_, reaches⟩)
    · nofun

theorem allowed_of_refusal {held : List Handle} (allowed : service.refusal call held = none) :
    Allowed service call held := by
  unfold HandleService.refusal at allowed
  unfold Allowed
  split at allowed
  · cases allowed
  · rename_i room
    rw [not_and_or, Bool.not_eq_false, ge_iff_le, not_le] at room
    exact room

theorem achieves_move {old : Handle} {held : List Handle} (allowed : Allowed service call held)
    (details : List (DetailKey × GoString)) :
    Achieves service call (fun reached renamed => Concludes call reached (.ok renamed))
      (service.move call old details) (.listed old held) := by
  have permitted : Permits service call (.listed old held)
      (.updated (Handle.vacated (call.vacatedAt + service.quarantine) call.now old).ownerID
        (Handle.vacated (call.vacatedAt + service.quarantine) call.now old).id
        (Handle.vacated (call.vacatedAt + service.quarantine) call.now
          old)) := ⟨rfl, rfl, rfl, allowed⟩
  refine (achieves_update permitted rfl).bind ?_
  rintro _ _ rfl
  refine (achieves_claim old held).bind fun claimed reached phase => ?_
  refine (achieves_emitTx _ _ _ _ _ _).bind ?_
  rintro _ _ rfl
  exact achieves_ok ⟨old, held, phase⟩

theorem follows_renameTx (service : HandleService) (call : RenameCall) :
    (service.renameTx call).Obeys renameLabelling (Permits service call)
      (Concludes call) .fresh := by
  have achieves : Achieves service call
      (fun reached renamed => Concludes call reached (.ok renamed))
      (service.renameTx call) .fresh := by
    refine achieves_getActiveByOwner.bind ?_
    rintro old _ rfl
    simp only
    split
    · nofun
    refine (achieves_listByOwner old).bind ?_
    rintro held _ rfl
    simp only
    split
    · nofun
    · nofun
    · rename_i details allowed _
      exact achieves_move (allowed_of_refusal allowed) details
  refine Program.Obeys.mono achieves fun reached result reaches => ?_
  cases result with
  | error failure => trivial
  | ok renamed => exact reaches renamed rfl

end RenamePhase

def renameService (service : HandleService) :
    Service HandleStatement RenameCall (Except Err Handle) HandleAct RenamePhase where
  program := service.renameTx
  labelling := renameLabelling
  blank := .fresh
  permits := RenamePhase.Permits service
  concludes := RenamePhase.Concludes
  valid := RenamePhase.Valid service
  obeyed := RenamePhase.follows_renameTx service
  valid_blank _ := trivial
  valid_record := RenamePhase.Valid.record

/-! ## The table of handles -/

/-- How each statement uses the handles; the other tables do not change. -/
def HandleStatement.access (catalog : Catalog) {β : Type} : HandleStatement β → Access Handle.id β
  | .selectActiveByOwner ownerID => .read fun handles =>
    Catalog.activeHandle { catalog with handles := handles } ownerID
  | .selectByOwner ownerID => .read fun handles =>
    Catalog.handlesOf { catalog with handles := handles } ownerID
  | .selectByName name => .read fun handles =>
    Catalog.handleNamed { catalog with handles := handles } name
  | .selectName ownerID id => .read fun handles =>
    (handles.select (Handle.ownedBy ownerID id)).head?.map (·.name)
  | .selectExpiredQuarantine now limit => .read fun handles =>
    Catalog.expiredQuarantine { catalog with handles := handles } now limit
  | .selectFoldStale version => .read fun handles =>
    (handles.select fun handle =>
      decide (handle.foldVersion ≠ version)).head?.isSome
  | .selectStaleFolds version => .read fun handles =>
    Catalog.staleFolds { catalog with handles := handles } version
  | .updateHandle ownerID id values =>
    .update (Handle.ownedBy ownerID id) (Handle.written values) (Handle.id_written values) some
  | .updateFold id fold version now =>
    .update (Handle.named id) (Handle.folded fold version now)
      (Handle.id_folded fold version now) some
  | .updateLookalike id now =>
    .update (Handle.named id) (Handle.quarantinedLookalike now)
      (Handle.id_quarantinedLookalike now) some
  | .insertHandle handle =>
    if (catalog.owners.find? handle.ownerID).isNone then
      .read fun handles =>
        (Catalog.insertHandle handle { catalog with handles := handles }).1
    else
      .insert handle fun inserted =>
        if inserted then .inserted else .duplicateKey
  | .deleteExpired id now => .delete (Handle.releasable id now) fun affected => affected
  | .appendAudit record => .read fun _ => (catalog.appendAudit record).1

def handleSchema (catalog : Catalog) : Schema HandleStatement Handle.id where
  access := access catalog
  clashes := Handle.clashes
  symmetric := Handle.clashes_comm

/-! ## What the statements of a transaction are -/

section Statements

variable {service : HandleService} {thread : Thread (renameService service)}
  {catalog : Catalog} {β : Type} {statement : HandleStatement β}
  {next : Except Fault β → Program HandleStatement (Except Err Handle)}

variable (waiting : thread.rest = .issue statement next)

include waiting

/-- A read leaves the phase alone, finds the active handle, or lists the
owner's names. -/
theorem RenamePhase.after_read
    {answer : Table Handle.id → β} (form : (handleSchema catalog).access statement = .read answer)
    (handles : Table Handle.id) :
    (thread.answered waiting (.ok (answer handles))).trail = thread.trail ∨
    (∃ old ∈ handles, thread.trail = .fresh ∧ old.ownerID = thread.call.ownerID ∧
      (thread.answered waiting (.ok (answer handles))).trail = .active old) ∨
    ∃ old, thread.trail = .active old ∧
      (thread.answered waiting (.ok (answer handles))).trail = .listed old
        (Catalog.handlesOf { catalog with handles := handles } thread.call.ownerID) := by
  have quiet : ∀ {reply : β}, statement.act (.ok reply) = .quiet →
      (thread.answered waiting (.ok reply)).trail = thread.trail := by
    intro reply act
    change RenamePhase.record (statement.act (.ok reply)) thread.trail = _
    rw [act, record_quiet]
  cases statement with
  | selectActiveByOwner ownerID =>
    cases form
    cases found : Catalog.activeHandle { catalog with handles := handles } ownerID with
    | none => exact .inl (quiet (by simp [act, found]))
    | some old =>
      have permitted := thread.permitted waiting (.ok (some old))
      obtain ⟨stored, owner, _⟩ := Catalog.activeHandle_eq_some found
      cases trail : thread.trail with
      | fresh =>
        rw [trail] at permitted
        refine .inr (.inl ⟨old, stored, rfl, owner.trans permitted, ?_⟩)
        simp only [Thread.answered, found, trail]
        rfl
      | _ =>
        rw [trail] at permitted
        exact permitted.elim
  | selectByOwner ownerID =>
    cases form
    have permitted := thread.permitted waiting (.ok [])
    cases trail : thread.trail with
    | active old =>
      rw [trail] at permitted
      refine .inr (.inr ⟨old, rfl, ?_⟩)
      obtain rfl : ownerID = thread.call.ownerID := permitted
      simp only [Thread.answered, trail]
      rfl
    | _ =>
      rw [trail] at permitted
      exact permitted.elim
  | insertHandle handle =>
    refine .inl (quiet ?_)
    simp only [handleSchema, access] at form
    split at form
    · cases form
      simp only [Catalog.insertHandle]
      split
      · rfl
      · split
        · rfl
        · simp [act]
    · cases form
  | selectByName | selectName | selectExpiredQuarantine | selectFoldStale
  | selectStaleFolds | appendAudit => exact .inl (quiet rfl)
  | _ => cases form

/-- Only the name asked for is inserted, after the tombstone was written. -/
theorem RenamePhase.after_insert {row : Handle} {answer : Bool → β}
    (form : (handleSchema catalog).access statement = .insert row answer) :
    (thread.answered waiting (.ok (answer false))).trail = thread.trail ∧
    ∃ old held, thread.trail = .vacated old held ∧ row = service.folds.stored thread.call.fresh ∧
      (thread.answered waiting (.ok (answer true))).trail = .registered old held row := by
  cases statement with
  | insertHandle handle =>
    simp only [handleSchema, access] at form
    split at form
    · cases form
    cases form
    have permitted := thread.permitted waiting (.ok .inserted)
    cases trail : thread.trail with
    | vacated old held =>
      rw [trail] at permitted
      simp only [Thread.answered, trail]
      exact ⟨rfl, old, held, rfl, permitted, rfl⟩
    | _ =>
      rw [trail] at permitted
      exact permitted.elim
  | _ => cases form

/-- An update writes the tombstone, or takes back a hold. -/
theorem RenamePhase.after_update {chosen : Handle → Bool} {change : Handle → Option Handle}
    {keepsKey : ∀ ⦃row version⦄, change row = some version →
      version.id = row.id} {answer : Nat → β} (form : (handleSchema catalog).access statement =
      .write chosen change keepsKey answer) :
    ∃ ownerID id values, chosen = Handle.ownedBy ownerID id ∧
      (∀ row, change row = some (Handle.written values row)) ∧
      ((∃ old held, thread.trail = .listed old held ∧ ownerID = old.ownerID ∧ id = old.id ∧
          values.state = .quarantined ∧ ∀ affected,
            (thread.answered waiting (.ok (answer affected))).trail =
              if affected > 0 then .vacated old held
              else .listed old held) ∨
        ∃ old held, thread.trail = .vacated old held ∧
          ownerID = thread.call.ownerID ∧ values.state = .active ∧
          ∀ affected,
            (thread.answered waiting (.ok (answer affected))).trail =
              if affected > 0 then .reclaimed old held
              else .vacated old held) := by
  cases statement with
  | updateHandle ownerID id values =>
    cases form
    refine ⟨ownerID, id, values, rfl, fun _ => rfl, ?_⟩
    have permitted := thread.permitted waiting (.ok (some 1))
    have trails : ∀ affected, (thread.answered waiting
        (.ok (some affected))).trail = RenamePhase.record
          (if affected > 0 then .updated ownerID id values else .quiet)
          thread.trail := fun _ => rfl
    cases trail : thread.trail with
    | listed old held =>
      rw [trail] at permitted trails
      obtain ⟨owner, named, state, _⟩ := permitted
      refine .inl ⟨old, held, rfl, owner, named, state, fun affected => ?_⟩
      rw [trails affected]
      split <;> rfl
    | vacated old held =>
      rw [trail] at permitted trails
      obtain ⟨owner, state⟩ := permitted
      refine .inr ⟨old, held, rfl, owner, state, fun affected => ?_⟩
      rw [trails affected]
      split <;> rfl
    | _ =>
      rw [trail] at permitted
      exact permitted.elim
  | updateFold | updateLookalike | deleteExpired =>
    have permitted := thread.permitted waiting (.error .storage)
    cases trail : thread.trail <;> rw [trail] at permitted <;>
      exact permitted.elim
  | insertHandle handle =>
    simp only [handleSchema, access] at form
    split at form <;> cases form
  | _ => cases form

end Statements

end Vallet.Publishing
