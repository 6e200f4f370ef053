import Vallet.Publishing.KeySetTable

/-!
# The protocol of transactions on key sets

However its statements are answered, a transaction on a stored set reads the
set once, as an active one, and writes what it has read.  A rename inserts the
copy, vacates the old set and moves the designation when the set it has read
was the default; a delete asks once more whether its set is the default.
-/

namespace Vallet.Publishing

open Auth Effects Effects.Program Relational KeySetRepository KeySetStatement

/-- A transaction of the key set service. -/
inductive SetCall where
  | create (call : CreateSetCall) (details : List (DetailKey × GoString))
  | rename (call : RenameSetCall)
  | delete (call : DeleteSetCall)
  | setDefault (call : SetDefaultCall)
  | setVisibility (call : SetVisibilityCall) (visibility : Visibility)

inductive SetKind where
  | create
  | rename
  | delete
  | setDefault
  | setVisibility
deriving DecidableEq, Repr

namespace SetCall

def kind : SetCall → SetKind
  | .create _ _ => .create
  | .rename _ => .rename
  | .delete _ => .delete
  | .setDefault _ => .setDefault
  | .setVisibility _ _ => .setVisibility

def ownerID : SetCall → OwnerID
  | .create call _ => call.ownerID
  | .rename call => call.ownerID
  | .delete call => call.ownerID
  | .setDefault call => call.ownerID
  | .setVisibility call _ => call.ownerID

/-- The set a call is about. -/
def targetID : SetCall → Option KeySetID
  | .create _ _ => none
  | .rename call => some call.id
  | .delete call => some call.id
  | .setDefault call => some call.id
  | .setVisibility call _ => some call.id

/-- The id a call gives to a new set. -/
def newID : SetCall → Option KeySetID
  | .create call _ => some call.id.text
  | .rename call => some call.newID.text
  | _ => none

def program (service : KeySetService) : SetCall → Program KeySetStatement (Except Err Unit)
  | .create call details => do
      let result ← service.createTx call details
      return result.map fun _ => ()
  | .rename call => do
      let result ← service.renameTx call
      return result.map fun _ => ()
  | .delete call => do
      let result ← service.deleteTx call
      return result.map fun _ => ()
  | .setDefault call => do
      let result ← service.setDefaultTx call
      return result.map fun _ => ()
  | .setVisibility call visibility => do
      let result ← service.setVisibilityTx call visibility
      return result.map fun _ => ()

end SetCall

/-- What one statement did. -/
inductive SetAct where
  | quiet
  | read (ownerID : OwnerID) (id : KeySetID) (set : KeySet)
  | checked (ownerID : OwnerID) (id : KeySetID)
  | inserted (set : KeySet)
  | updated (ownerID : OwnerID) (id : KeySetID) (values : KeySet)
  | cleared (ownerID : OwnerID)
  | designated (ownerID : OwnerID) (id : KeySetID)
  | dropped (ownerID : OwnerID) (id : KeySetID)

def KeySetStatement.act {β : Type} : KeySetStatement β → Except Fault β → SetAct
  | .selectKeySet ownerID id, .ok (some set) =>
    if set.state = .active then .read ownerID id set else .quiet
  | .selectIsDefault ownerID id, .ok (some false) => .checked ownerID id
  | .insertKeySet set, .ok .inserted => .inserted set
  | .updateKeySet ownerID id values, .ok (some affected) =>
    if affected > 0 then .updated ownerID id values else .quiet
  | .clearDefault ownerID, .ok (some _) => .cleared ownerID
  | .designate ownerID id, .ok (some affected) =>
    if affected > 0 then .designated ownerID id else .quiet
  | .deleteKeySet ownerID id, .ok (some affected) =>
    if affected > 0 then .dropped ownerID id else .quiet
  | _, _ => .quiet

/-- How far a transaction has come, with the set it has read. -/
inductive SetPhase where
  | fresh
  | seen (target : KeySet)
  | created
  | checked (target : KeySet)
  | dropped (target : KeySet)
  | copied (target : KeySet)
  | vacated (target : KeySet)
  | unsettled (target : KeySet)
  | settled (target : KeySet)
  | cleared (target : KeySet)
  | designated (target : KeySet)
  | shown (target : KeySet)

namespace SetPhase

/-- The set that was read. -/
def target? : SetPhase → Option KeySet
  | .fresh => none
  | .created => none
  | .seen target => some target
  | .checked target => some target
  | .dropped target => some target
  | .copied target => some target
  | .vacated target => some target
  | .unsettled target => some target
  | .settled target => some target
  | .cleared target => some target
  | .designated target => some target
  | .shown target => some target

def record : SetAct → SetPhase → SetPhase
  | .read _ _ set, .fresh => .seen set
  | .inserted _, .fresh => .created
  | .checked _ _, .seen target => .checked target
  | .dropped _ _, .checked target => .dropped target
  | .inserted _, .seen target => .copied target
  | .updated _ _ _, .copied target => .vacated target
  | .cleared _, .vacated target => .unsettled target
  | .designated _ _, .unsettled target => .settled target
  | .cleared _, .seen target => .cleared target
  | .designated _ _, .cleared target => .designated target
  | .updated _ _ _, .seen target => .shown target
  | _, phase => phase

/-- The kind of call that gets so far. -/
def kind? : SetPhase → Option SetKind
  | .fresh => none
  | .seen _ => none
  | .created => some .create
  | .checked _ => some .delete
  | .dropped _ => some .delete
  | .copied _ => some .rename
  | .vacated _ => some .rename
  | .unsettled _ => some .rename
  | .settled _ => some .rename
  | .cleared _ => some .setDefault
  | .designated _ => some .setDefault
  | .shown _ => some .setVisibility

def Permits (call : SetCall) : SetPhase → SetAct → Prop
  | _, .quiet => True
  | .fresh, .read ownerID id set =>
    ownerID = call.ownerID ∧ call.targetID = some id ∧ set.state = .active
  | .fresh, .inserted set => ∃ create details, call = .create create details ∧ set = create.created
  | .seen _, .checked ownerID id => call.kind = .delete ∧
      ownerID = call.ownerID ∧ call.targetID = some id
  | .checked _, .dropped ownerID id => ownerID = call.ownerID ∧ call.targetID = some id
  | .seen target, .inserted set => ∃ rename, call = .rename rename ∧ set = rename.renamed target
  | .copied target, .updated ownerID id values =>
    ownerID = target.ownerID ∧ id = target.id ∧ values.state = .quarantined
  | .vacated target, .cleared ownerID => target.isDefault = true ∧ ownerID = call.ownerID
  | .unsettled _, .designated ownerID id => ownerID = call.ownerID ∧ call.newID = some id
  | .seen _, .cleared ownerID => call.kind = .setDefault ∧ ownerID = call.ownerID
  | .cleared _, .designated ownerID id => ownerID = call.ownerID ∧ call.targetID = some id
  | .seen target, .updated ownerID id values =>
    call.kind = .setVisibility ∧ ownerID = target.ownerID ∧ id = target.id ∧ values.state = .active
  | _, _ => False

/-- A transaction that succeeds has made all its writes. -/
def Concludes (call : SetCall) (phase : SetPhase) : Except Err Unit → Prop
  | .error _ => True
  | .ok _ =>
    match call.kind with
    | .create => phase = .created
    | .rename => ∃ target, (phase = .vacated target ∧
        target.isDefault = false) ∨ phase = .settled target
    | .delete => ∃ target, phase = .dropped target
    | .setDefault => ∃ target, phase = .designated target
    | .setVisibility => ∃ target, phase = .shown target

/-- What is read is active, and a transaction gets only so far as its call
goes. -/
structure Valid (call : SetCall) (phase : SetPhase) : Prop where
  active : ∀ target, phase.target? = some target → target.state = .active
  kind : ∀ kind, phase.kind? = some kind → call.kind = kind

theorem record_quiet (phase : SetPhase) : record .quiet phase = phase := by
  cases phase <;> rfl

theorem permits_quiet (call : SetCall) (phase : SetPhase) : Permits call phase .quiet := by
  cases phase <;> trivial

theorem Valid.record {call : SetCall} {phase : SetPhase} {act : SetAct}
    (permitted : Permits call phase act) (valid : Valid call phase) :
    Valid call (record act phase) := by
  obtain ⟨active, kind⟩ := valid
  have advance : ∀ {target : KeySet} {later : SetPhase},
      phase.target? = some target → later.target? = some target →
      (∀ kind, later.kind? = some kind → call.kind = kind) →
      Valid call later := by
    intro target later was now kinds
    refine ⟨fun found same => ?_, kinds⟩
    rw [now] at same
    cases same
    exact active target was
  cases act with
  | quiet =>
    rw [record_quiet]
    exact ⟨active, kind⟩
  | read ownerID id set =>
    cases phase with
    | fresh =>
      refine ⟨fun target same => ?_, nofun⟩
      cases same
      exact permitted.2.2
    | _ => exact permitted.elim
  | checked =>
    cases phase with
    | seen target =>
      refine advance rfl rfl fun kind same => ?_
      cases same
      exact permitted.1
    | _ => exact permitted.elim
  | inserted =>
    cases phase with
    | fresh =>
      refine ⟨nofun, fun kind same => ?_⟩
      cases same
      obtain ⟨_, _, rfl, _⟩ := permitted
      rfl
    | seen target =>
      refine advance rfl rfl fun kind same => ?_
      cases same
      obtain ⟨_, rfl, _⟩ := permitted
      rfl
    | _ => exact permitted.elim
  | updated =>
    cases phase with
    | seen target =>
      refine advance rfl rfl fun kind same => ?_
      cases same
      exact permitted.1
    | copied target => exact advance rfl rfl kind
    | _ => exact permitted.elim
  | cleared =>
    cases phase with
    | seen target =>
      refine advance rfl rfl fun kind same => ?_
      cases same
      exact permitted.1
    | vacated target => exact advance rfl rfl kind
    | _ => exact permitted.elim
  | designated =>
    cases phase with
    | unsettled | cleared => exact advance rfl rfl kind
    | _ => exact permitted.elim
  | dropped =>
    cases phase with
    | checked target => exact advance rfl rfl kind
    | _ => exact permitted.elim

end SetPhase

def setLabelling : Labelling KeySetStatement SetAct SetPhase where
  label := KeySetStatement.act
  record := SetPhase.record

/-! ## The programs -/

namespace SetPhase

/-- The program performs only permitted acts, and ends as described. -/
def Follows {α : Type} (call : SetCall) (reaches : SetPhase → α → Prop)
    (program : Program KeySetStatement α) (phase : SetPhase) : Prop :=
  program.Obeys setLabelling (Permits call) reaches phase

/-- Likewise, where only the success of a program is described. -/
def Achieves {α : Type} (call : SetCall) (reaches : SetPhase → α → Prop)
    (program : Program KeySetStatement (Except Err α)) (phase : SetPhase) : Prop :=
  program.Achieves setLabelling (Permits call) reaches phase

variable {call : SetCall} {phase : SetPhase} {ownerID : OwnerID} {id : KeySetID} {later : SetPhase}

theorem follows_quiet {α β : Type} {statement : KeySetStatement β} {finish : Except Fault β → α}
    (silent : ∀ reply, statement.act reply = .quiet) :
    Follows call (fun reached _ => reached = phase)
      (do let reply ← Program.ask statement; return finish reply) phase := by
  intro reply
  change Permits call phase (statement.act reply) ∧ record (statement.act reply) phase = phase
  rw [silent reply]
  exact ⟨permits_quiet call phase, record_quiet phase⟩

theorem Follows.achieves {α : Type} {reaches : SetPhase → Prop}
    {program : Program KeySetStatement (Except Err α)}
    (follows : Follows call (fun reached _ => reaches reached) program phase) :
    Achieves call (fun reached _ => reaches reached) program phase :=
  follows.mono fun _ _ reached _ _ => reached

theorem follows_get (owner : ownerID = call.ownerID) (target : call.targetID = some id) :
    Follows call (fun reached result => ∀ set, live result = .ok set →
        reached = .seen set) (get ownerID id) .fresh := by
  intro reply
  rcases reply with fault | _ | set
  · exact ⟨trivial, nofun⟩
  · exact ⟨trivial, nofun⟩
  · change Permits call .fresh (if set.state = .active then .read ownerID id set else .quiet) ∧
      ∀ other, live (.ok set) = .ok other → record
        (if set.state = .active then .read ownerID id set else .quiet) .fresh = .seen other
    by_cases active : set.state = .active
    · rw [if_pos active]
      refine ⟨⟨owner, target, active⟩, fun other addressable => ?_⟩
      obtain ⟨same, _⟩ := live_eq_ok addressable
      cases same
      rfl
    · rw [if_neg active]
      refine ⟨trivial, fun other addressable => ?_⟩
      obtain ⟨same, live⟩ := live_eq_ok addressable
      cases same
      exact (active live).elim

theorem achieves_lockOwnerForCreate (engine : Engine) (ownerID : OwnerID) :
    Achieves call (fun reached _ => reached = phase) (lockOwnerForCreate engine ownerID) phase := by
  cases engine with
  | sqlite => exact fun _ _ => rfl
  | postgres =>
    intro reply
    refine ⟨permits_quiet call phase, ?_⟩
    cases reply <;> exact fun _ _ => record_quiet phase

theorem achieves_addMembers (ownerID : OwnerID) (setID : KeySetID) (now : Int)
    (members : List KeySetMembership) :
    Achieves call (fun reached _ => reached = phase)
      (KeySetService.addMembers ownerID setID now members) phase := by
  induction members with
  | nil => exact achieves_ok rfl
  | cons first rest induction =>
    refine (follows_quiet fun _ => rfl).achieves.bind ?_
    rintro _ _ rfl
    exact induction

theorem achieves_create {set : KeySet} (permitted : Permits call phase (.inserted set))
    (recorded : record (.inserted set) phase = later) :
    Achieves call (fun reached _ => reached = later) (KeySetRepository.create set) phase := by
  intro reply
  rcases reply with fault | answer
  · exact ⟨permits_quiet call phase, achieves_error⟩
  · cases answer with
    | inserted => exact ⟨permitted, fun _ _ => recorded⟩
    | duplicateKey | constraintFailed => exact ⟨permits_quiet call phase, achieves_error⟩

/-- An update is recorded when it has changed a row, and fails otherwise. -/
theorem achieves_affected {statement : KeySetStatement Updated} {act : SetAct}
    (acts : ∀ affected, statement.act (.ok (some affected)) =
      if affected > 0 then act else .quiet)
    (silent : ∀ fault, statement.act (.error fault) = .quiet)
    (refused : statement.act (.ok none) = .quiet)
    (permitted : Permits call phase act) (recorded : record act phase = later) :
    Achieves call (fun reached _ => reached = later)
      (do let reply ← Program.ask statement; return requireUpdated reply)
      phase := by
  have quiet := permits_quiet call phase
  intro reply
  change Permits call phase (statement.act reply) ∧
    (∀ value, requireUpdated reply = .ok value → record (statement.act reply) phase = later)
  rcases reply with fault | _ | affected
  · rw [silent]
    exact ⟨quiet, nofun⟩
  · rw [refused]
    exact ⟨quiet, nofun⟩
  · rw [acts]
    by_cases changed : affected > 0
    · rw [if_pos changed]
      exact ⟨permitted, fun _ _ => recorded⟩
    · rw [if_neg changed]
      refine ⟨quiet, fun _ returned => ?_⟩
      rw [requireUpdated, if_pos (Nat.eq_zero_of_not_pos changed)] at returned
      cases returned

theorem achieves_setDefault {middle : SetPhase} (clears : Permits call phase (.cleared ownerID))
    (cleared : record (.cleared ownerID) phase = middle)
    (designates : Permits call middle (.designated ownerID id))
    (designated : record (.designated ownerID id) middle = later) :
    Achieves call (fun reached _ => reached = later) (setDefault ownerID id) phase := by
  intro reply
  rcases reply with fault | _ | affected
  · exact ⟨permits_quiet call phase, achieves_error⟩
  · exact ⟨permits_quiet call phase, achieves_error⟩
  · refine ⟨clears, ?_⟩
    change Achieves call _ (do
      let reply ← Program.ask (.designate ownerID id)
      return requireUpdated reply) (record (.cleared ownerID) phase)
    rw [cleared]
    exact achieves_affected (fun _ => rfl) (fun _ => rfl) rfl designates designated

theorem achieves_delete {target : KeySet} (kind : call.kind = .delete)
    (owner : ownerID = call.ownerID) (named : call.targetID = some id) :
    Achieves call (fun reached _ => reached = .dropped target)
      (delete ownerID id) (.seen target) := by
  intro reply
  rcases reply with fault | _ | standing
  · exact ⟨trivial, achieves_error⟩
  · exact ⟨trivial, achieves_error⟩
  · cases standing with
    | true => exact ⟨trivial, achieves_error⟩
    | false =>
      refine ⟨⟨kind, owner, named⟩, fun reply => ?_⟩
      rcases reply with fault | removed
      · exact ⟨trivial, achieves_error⟩
      refine ⟨trivial, fun reply => ?_⟩
      change Permits call (.checked target) ((deleteKeySet ownerID id).act reply) ∧
        (∀ value, requireDeleted reply = .ok value →
          record ((deleteKeySet ownerID id).act reply) (.checked target) = .dropped target)
      rcases reply with fault | _ | affected
      · exact ⟨trivial, nofun⟩
      · exact ⟨trivial, nofun⟩
      · by_cases changed : affected > 0
        · simp only [KeySetStatement.act, if_pos changed]
          exact ⟨⟨owner, named⟩, fun _ _ => rfl⟩
        · simp only [KeySetStatement.act, if_neg changed]
          refine ⟨trivial, fun _ returned => ?_⟩
          rw [requireDeleted, if_pos (Nat.eq_zero_of_not_pos changed)] at returned
          cases returned

/-! ### Transactions -/

theorem achieves_createLocked {service : KeySetService} {set : KeySet}
    (permitted : Permits call phase (.inserted set))
    (recorded : record (.inserted set) phase = later) :
    Achieves call (fun reached _ => reached = later) (service.createLocked ownerID set) phase := by
  refine (achieves_lockOwnerForCreate _ _).bind ?_
  rintro _ _ rfl
  refine (follows_quiet fun _ => rfl).achieves.bind ?_
  rintro count _ rfl
  simp only
  split
  · exact achieves_error
  · exact (achieves_create permitted recorded).bind fun _ _ reached => achieves_ok reached

variable (service : KeySetService)

theorem achieves_createTx (create : CreateSetCall) (details : List (DetailKey × GoString)) :
    Achieves (.create create details) (fun reached _ => reached = .created)
      (service.createTx create details) .fresh := by
  have permitted : Permits (.create create details) .fresh
      (.inserted create.created) := ⟨create, details, rfl, rfl⟩
  exact (achieves_createLocked permitted rfl).bind fun _ _ reached => achieves_ok reached

theorem achieves_carryDefault (rename : RenameSetCall) (old : KeySet)
    (details : List (DetailKey × GoString)) :
    Achieves (.rename rename) (fun reached _ => (reached = .vacated old ∧
        old.isDefault = false) ∨ reached = .settled old)
      (KeySetService.carryDefault rename old details) (.vacated old) := by
  unfold KeySetService.carryDefault
  split
  · rename_i plain
    exact achieves_ok (.inl ⟨rfl, plain⟩)
  · rename_i standing
    rw [Bool.not_eq_false] at standing
    have clears : Permits (.rename rename) (.vacated old)
        (.cleared rename.ownerID) := ⟨standing, rfl⟩
    have designates : Permits (.rename rename) (.unsettled old)
        (.designated rename.ownerID rename.newID.text) := ⟨rfl, rfl⟩
    exact (achieves_setDefault clears rfl designates rfl).bind
      fun _ _ reached => achieves_ok (.inr reached)

theorem achieves_replace (rename : RenameSetCall)
    (old : KeySet) (details : List (DetailKey × GoString)) :
    Achieves (.rename rename) (fun reached _ => (reached = .vacated old ∧
        old.isDefault = false) ∨ reached = .settled old)
      (service.replace rename old details) (.seen old) := by
  have inserts : Permits (.rename rename) (.seen old)
      (.inserted (rename.renamed old)) := ⟨rename, rfl, rfl⟩
  refine (achieves_createLocked inserts rfl).bind ?_
  rintro _ _ rfl
  refine (follows_quiet fun _ => rfl).achieves.bind ?_
  rintro members _ rfl
  refine (achieves_addMembers _ _ _ members).bind ?_
  rintro _ _ rfl
  have vacates : Permits (.rename rename) (.copied old) (.updated
        (old.vacated (rename.now + service.quarantine) rename.now).ownerID
        (old.vacated (rename.now + service.quarantine) rename.now).id
        (old.vacated (rename.now + service.quarantine) rename.now)) :=
    ⟨rfl, rfl, rfl⟩
  refine (achieves_affected (fun _ => rfl) (fun _ => rfl) rfl vacates rfl).bind ?_
  rintro _ _ rfl
  exact achieves_carryDefault rename old details

theorem achieves_renameTx (rename : RenameSetCall) :
    Achieves (.rename rename) (fun reached _ => ∃ target,
        (reached = .vacated target ∧ target.isDefault = false) ∨ reached = .settled target)
      (service.renameTx rename) .fresh := by
  refine (follows_get rfl rfl).bind fun reached reply reaches => ?_
  cases found : live reply with
  | error failure => exact achieves_error
  | ok old =>
    obtain rfl := reaches old found
    simp only
    split
    · exact achieves_error
    · exact Program.Obeys.mono (achieves_replace service rename old _)
        fun _ _ ends value done => ⟨old, ends value done⟩

theorem achieves_deleteTx (delete : DeleteSetCall) :
    Achieves (.delete delete) (fun reached _ => ∃ target, reached = .dropped target)
      (service.deleteTx delete) .fresh := by
  refine (follows_get rfl rfl).bind fun reached reply reaches => ?_
  cases found : live reply with
  | error failure => exact achieves_error
  | ok set =>
    obtain rfl := reaches set found
    refine (follows_quiet fun _ => rfl).achieves.bind ?_
    rintro members _ rfl
    simp only
    split
    · exact achieves_error
    split
    · exact achieves_error
    · exact (achieves_delete rfl rfl rfl).bind
        fun _ _ reached => achieves_ok ⟨set, reached⟩

theorem achieves_setDefaultTx (designate : SetDefaultCall) :
    Achieves (.setDefault designate) (fun reached _ => ∃ target, reached = .designated target)
      (service.setDefaultTx designate) .fresh := by
  refine (follows_get rfl rfl).bind fun reached reply reaches => ?_
  cases found : live reply with
  | error failure => exact achieves_error
  | ok target =>
    obtain rfl := reaches target found
    refine (follows_quiet fun _ => rfl).bind ?_
    rintro reached previous rfl
    split
    · exact achieves_error
    split
    · exact achieves_error
    have clears : Permits (.setDefault designate) (.seen target)
        (.cleared designate.ownerID) := ⟨rfl, rfl⟩
    have designates : Permits (.setDefault designate) (.cleared target)
        (.designated designate.ownerID designate.id) := ⟨rfl, rfl⟩
    exact (achieves_setDefault clears rfl designates rfl).bind
      fun _ _ reached => achieves_ok ⟨target, reached⟩

theorem achieves_setVisibilityTx (shown : SetVisibilityCall) (visibility : Visibility) :
    Achieves (.setVisibility shown visibility) (fun reached _ => ∃ target, reached = .shown target)
      (service.setVisibilityTx shown visibility) .fresh := by
  refine (follows_get rfl rfl).bind fun reached reply reaches => ?_
  cases found : live reply with
  | error failure => exact achieves_error
  | ok target =>
    obtain rfl := reaches target found
    simp only
    split
    · exact achieves_error
    have shows : Permits (.setVisibility shown visibility) (.seen target)
        (.updated (target.shown visibility shown.now).ownerID (target.shown visibility shown.now).id
          (target.shown visibility shown.now)) :=
      ⟨rfl, rfl, rfl, (live_eq_ok found).2⟩
    exact (achieves_affected (fun _ => rfl) (fun _ => rfl) rfl shows rfl).bind
      fun _ _ reached => achieves_ok ⟨target, reached⟩

theorem Achieves.discard {α : Type}
    {program : Program KeySetStatement (Except Err α)} (achieves : Achieves call
      (fun reached _ => Concludes call reached (.ok ())) program phase) :
    Follows call (Concludes call)
      (do let result ← program; return result.map fun _ => ()) phase := by
  refine Program.Obeys.bind achieves fun reached result reaches => ?_
  cases result with
  | error failure => exact trivial
  | ok recorded => exact reaches recorded rfl

/-- Every transaction ends as its call does when it succeeds. -/
theorem follows_program (call : SetCall) :
    Follows call (Concludes call) (call.program service) .fresh := by
  cases call with
  | create create details => exact (achieves_createTx service create details).discard
  | rename rename => exact (achieves_renameTx service rename).discard
  | delete delete => exact (achieves_deleteTx service delete).discard
  | setDefault designate => exact (achieves_setDefaultTx service designate).discard
  | setVisibility shown visibility =>
    exact (achieves_setVisibilityTx service shown visibility).discard

end SetPhase

def setService (service : KeySetService) :
    Service KeySetStatement SetCall (Except Err Unit) SetAct SetPhase where
  program := SetCall.program service
  labelling := setLabelling
  blank := .fresh
  permits := SetPhase.Permits
  concludes := SetPhase.Concludes
  valid := SetPhase.Valid
  obeyed := SetPhase.follows_program service
  valid_blank _ := ⟨nofun, nofun⟩
  valid_record := SetPhase.Valid.record

/-! ## What the statements of a transaction are -/

/-- What an `UPDATE` or a `DELETE` of a transaction chooses, what it makes of
a row, and the phase after it, by the number of rows it has changed. -/
inductive SetWrite (call : SetCall) (phase : SetPhase)
    (chosen : SetRow → Bool) (change : SetRow → Option SetRow) (after : Nat → SetPhase) : Prop where
  | aside (spares : ∀ row, chosen row = true → row.set? = none)
      (keeps : ∀ row version, change row = some version →
        row.set? = none → version.set? = none) (same : ∀ affected, after affected = phase)
  | vacate {target values : KeySet} (copied : phase = .copied target) (choice : chosen =
        SetRow.onSet (KeySet.ownedBy target.ownerID target.id)) (changes : ∀ row, change row =
        some (SetRow.mapSet (KeySet.written values) row)) (state : values.state = .quarantined)
      (later : ∀ affected, after affected =
        if affected > 0 then .vacated target else .copied target)
  | reveal {target values : KeySet} (seen : phase = .seen target)
      (kind : call.kind = .setVisibility) (choice : chosen =
        SetRow.onSet (KeySet.ownedBy target.ownerID target.id)) (changes : ∀ row, change row =
        some (SetRow.mapSet (KeySet.written values) row))
      (state : values.state = .active) (later : ∀ affected, after affected =
        if affected > 0 then .shown target else .seen target)
  | clear {target : KeySet}
      (ready : (phase = .seen target ∧ call.kind = .setDefault ∧
          ∀ affected, after affected = .cleared target) ∨
        (phase = .vacated target ∧ target.isDefault = true ∧
          ∀ affected, after affected = .unsettled target))
      (choice : chosen = SetRow.onSet (KeySet.isDefaultOf call.ownerID))
      (changes : ∀ row, change row = some (SetRow.mapSet (KeySet.designated false) row))
  | designate {target : KeySet} {id : KeySetID}
      (ready : (phase = .cleared target ∧ call.targetID = some id ∧
          ∀ affected, after affected =
            if affected > 0 then .designated target else .cleared target) ∨
        (phase = .unsettled target ∧ call.newID = some id ∧
          ∀ affected, after affected =
            if affected > 0 then .settled target else .unsettled target))
      (choice : chosen = SetRow.onSet (KeySet.ownedBy call.ownerID id))
      (changes : ∀ row, change row = some (SetRow.mapSet (KeySet.designated true) row))
  | drop {target : KeySet} {id : KeySetID} (checked : phase = .checked target)
      (named : call.targetID = some id)
      (choice : chosen = SetRow.onSet (KeySet.ownedBy call.ownerID id))
      (drops : ∀ row, change row = none) (later : ∀ affected, after affected =
        if affected > 0 then .dropped target else .checked target)

namespace SetWrite

open SetPhase

variable {call : SetCall} {phase : SetPhase} {ownerID : OwnerID} {id : KeySetID}

theorem of_updated {values : KeySet} (permitted : Permits call phase (.updated ownerID id values)) :
    SetWrite call phase (SetRow.onSet (KeySet.ownedBy ownerID id))
      (fun row => some (SetRow.mapSet (KeySet.written values) row)) fun affected =>
        record (if affected > 0 then .updated ownerID id values else .quiet) phase := by
  cases phase with
  | copied target =>
    obtain ⟨rfl, rfl, state⟩ := permitted
    refine .vacate rfl rfl (fun _ => rfl) state fun affected => ?_
    split <;> rfl
  | seen target =>
    obtain ⟨kind, rfl, rfl, state⟩ := permitted
    refine .reveal rfl kind rfl (fun _ => rfl) state fun affected => ?_
    split <;> rfl
  | _ => exact permitted.elim

theorem of_cleared (permitted : Permits call phase (.cleared ownerID)) :
    SetWrite call phase (SetRow.onSet (KeySet.isDefaultOf ownerID))
      (fun row => some (SetRow.mapSet (KeySet.designated false) row)) fun _ =>
        record (.cleared ownerID) phase := by
  cases phase with
  | seen target =>
    obtain ⟨kind, rfl⟩ := permitted
    exact .clear (.inl ⟨rfl, kind, fun _ => rfl⟩) rfl fun _ => rfl
  | vacated target =>
    obtain ⟨standing, rfl⟩ := permitted
    exact .clear (.inr ⟨rfl, standing, fun _ => rfl⟩) rfl fun _ => rfl
  | _ => exact permitted.elim

theorem of_designated (permitted : Permits call phase (.designated ownerID id)) :
    SetWrite call phase (SetRow.onSet (KeySet.ownedBy ownerID id))
      (fun row => some (SetRow.mapSet (KeySet.designated true) row)) fun affected =>
        record (if affected > 0 then .designated ownerID id else .quiet) phase := by
  cases phase with
  | cleared target =>
    obtain ⟨rfl, named⟩ := permitted
    refine .designate (.inl ⟨rfl, named, fun affected => ?_⟩) rfl fun _ => rfl
    split <;> rfl
  | unsettled target =>
    obtain ⟨rfl, named⟩ := permitted
    refine .designate (.inr ⟨rfl, named, fun affected => ?_⟩) rfl fun _ => rfl
    split <;> rfl
  | _ => exact permitted.elim

theorem of_dropped (permitted : Permits call phase (.dropped ownerID id)) :
    SetWrite call phase (SetRow.onSet (KeySet.ownedBy ownerID id)) (fun _ => none) fun affected =>
      record (if affected > 0 then .dropped ownerID id else .quiet) phase := by
  cases phase with
  | checked target =>
    obtain ⟨rfl, named⟩ := permitted
    refine .drop rfl named rfl (fun _ => rfl) fun affected => ?_
    split <;> rfl
  | _ => exact permitted.elim

theorem of_members {chosen : KeySetMembership → Bool} {after : Nat → SetPhase}
    (same : ∀ affected, after affected = phase) :
    SetWrite call phase (SetRow.onMember chosen) (fun _ => none) after := by
  refine .aside (fun row matched => ?_) (fun row version impossible => nomatch impossible) same
  cases row with
  | membership => rfl
  | keySet | owner => cases matched

end SetWrite

section Statements

variable {service : KeySetService} {thread : Thread (setService service)}
  {catalog : Catalog} {β : Type} {statement : KeySetStatement β}
  {next : Except Fault β → Program KeySetStatement (Except Err Unit)}

variable (waiting : thread.rest = .issue statement next)

include waiting

theorem SetPhase.answered_quiet {reply : β} (act : statement.act (.ok reply) = .quiet) :
    (thread.answered waiting (.ok reply)).trail = thread.trail := by
  change SetPhase.record (statement.act (.ok reply)) thread.trail = _
  rw [act, record_quiet]

/-- A read leaves the phase alone, finds the set the call is about, or finds
that it is not the default. -/
theorem SetPhase.after_read
    {answer : Table SetRow.key → β} (form : (keySetSchema catalog).access statement = .read answer)
    (rows : Table SetRow.key) :
    (thread.answered waiting (.ok (answer rows))).trail = thread.trail ∨
    (∃ set, .keySet set ∈ rows ∧ thread.trail = .fresh ∧ set.ownerID = thread.call.ownerID ∧
      thread.call.targetID = some set.id ∧ set.state = .active ∧
      (thread.answered waiting (.ok (answer rows))).trail = .seen set) ∨
    ∃ target set, .keySet set ∈ rows ∧ thread.trail = .seen target ∧
      thread.call.kind = .delete ∧ thread.call.targetID = some set.id ∧
      set.isDefault = false ∧
      (thread.answered waiting (.ok (answer rows))).trail = .checked target := by
  have trails : ∀ reply, (thread.answered waiting (.ok reply)).trail =
      SetPhase.record (statement.act (.ok reply)) thread.trail := fun _ => rfl
  cases statement with
  | selectKeySet ownerID id =>
    cases form
    beta_reduce
    cases found : (catalog.withRows rows).findKeySet ownerID id with
    | none => exact .inl (answered_quiet waiting rfl)
    | some set =>
      obtain ⟨stored, named, owner⟩ := Catalog.findKeySet_eq_some found
      by_cases active : set.state = .active
      · have act : KeySetStatement.act (.selectKeySet ownerID id)
            (.ok (some set)) = .read ownerID id set := if_pos active
        have permitted := thread.permitted waiting (.ok (some set))
        change Permits thread.call thread.trail (KeySetStatement.act (.selectKeySet ownerID id)
            (.ok (some set))) at permitted
        rw [act] at permitted
        rw [trails, act]
        cases trail : thread.trail with
        | fresh =>
          rw [trail] at permitted
          exact .inr (.inl ⟨set, mem_setsOf.mp stored, rfl,
            owner.trans permitted.1, named ▸ permitted.2.1, active, rfl⟩)
        | _ =>
          rw [trail] at permitted
          exact permitted.elim
      · exact .inl (answered_quiet waiting (if_neg active))
  | selectIsDefault ownerID id =>
    cases form
    beta_reduce
    cases found : (catalog.withRows rows).findKeySet ownerID id with
    | none => exact .inl (answered_quiet waiting rfl)
    | some set =>
      obtain ⟨stored, named, owner⟩ := Catalog.findKeySet_eq_some found
      rw [Option.map_some]
      cases plain : set.isDefault with
      | true => exact .inl (answered_quiet waiting rfl)
      | false =>
        have permitted := thread.permitted waiting (.ok (some false))
        rw [trails]
        cases trail : thread.trail with
        | seen target =>
          rw [trail] at permitted
          exact .inr (.inr ⟨target, set, mem_setsOf.mp stored, rfl,
            permitted.1, named ▸ permitted.2.2, plain, rfl⟩)
        | _ =>
          rw [trail] at permitted
          exact permitted.elim
  | insertKeySet set =>
    refine .inl (answered_quiet waiting ?_)
    simp only [keySetSchema, access] at form
    split at form
    · rename_i unknown
      cases form
      simp only [Catalog.insertKeySet]
      split
      · rfl
      split
      · rfl
      have missing : ((catalog.withRows rows).owners.find? set.ownerID).isNone = true := unknown
      rw [if_pos missing]
      rfl
    · cases form
  | insertMember | deleteMember => exact .inl (answered_quiet waiting rfl)
  | selectDefault | countByOwner | selectMembers | appendAudit =>
    exact .inl (answered_quiet waiting rfl)
  | _ => cases form

/-- Members are inserted, and the one set the call makes. -/
theorem SetPhase.after_insert {row : SetRow} {answer : Bool → β}
    (form : (keySetSchema catalog).access statement = .insert row answer) :
    (thread.answered waiting (.ok (answer false))).trail = thread.trail ∧
    ((row.set? = none ∧ (thread.answered waiting (.ok (answer true))).trail = thread.trail) ∨
    ∃ set, row = .keySet set ∧ thread.call.newID = some set.id ∧
      set.ownerID = thread.call.ownerID ∧ set.state = .active ∧
      ((thread.trail = .fresh ∧ (thread.answered waiting (.ok (answer true))).trail = .created) ∨
      ∃ target, thread.trail = .seen target ∧
        (thread.answered waiting (.ok (answer true))).trail = .copied target)) := by
  cases statement with
  | insertKeySet set =>
    simp only [keySetSchema, access] at form
    split at form
    · cases form
    cases form
    have permitted := thread.permitted waiting (.ok .inserted)
    refine ⟨answered_quiet waiting rfl, .inr ⟨set, rfl, ?_⟩⟩
    cases trail : thread.trail with
    | fresh =>
      rw [trail] at permitted
      obtain ⟨create, details, called, rfl⟩ := permitted
      rw [called]
      refine ⟨rfl, rfl, rfl, .inl ⟨rfl, ?_⟩⟩
      simp only [Thread.answered, trail]
      rfl
    | seen target =>
      rw [trail] at permitted
      obtain ⟨rename, called, rfl⟩ := permitted
      rw [called]
      refine ⟨rfl, rfl, rfl, .inr ⟨target, rfl, ?_⟩⟩
      simp only [Thread.answered, trail]
      rfl
    | _ =>
      rw [trail] at permitted
      exact permitted.elim
  | insertMember ownerID setID keyID now =>
    refine ⟨answered_quiet waiting rfl, .inl ⟨?_, answered_quiet waiting rfl⟩⟩
    simp only [keySetSchema, access] at form
    split at form
    · cases form
      rfl
    · cases form
  | deleteMember ownerID setID keyID =>
    simp only [keySetSchema, access] at form
    split at form <;> cases form
  | _ => cases form

theorem SetPhase.after_write {chosen : SetRow → Bool} {change : SetRow → Option SetRow}
    {keepsKey : ∀ ⦃row version⦄, change row = some version →
      version.key = row.key} {answer : Nat → β} (form : (keySetSchema catalog).access statement =
      .write chosen change keepsKey answer) :
    SetWrite thread.call thread.trail chosen change fun affected =>
      (thread.answered waiting (.ok (answer affected))).trail := by
  cases statement with
  | lockOwner ownerID =>
    cases form
    refine .aside (fun row matched => ?_) (fun row version changed plain => ?_)
      fun _ => answered_quiet waiting rfl
    · cases row with
      | owner => rfl
      | keySet | membership => cases matched
    · cases changed
      exact plain
  | deleteMembers setID =>
    cases form
    exact .of_members fun _ => answered_quiet waiting rfl
  | deleteMember ownerID setID keyID =>
    simp only [keySetSchema, access] at form
    split at form
    · cases form
      exact .of_members fun _ => answered_quiet waiting rfl
    · cases form
  | updateKeySet ownerID id values =>
    cases form
    exact .of_updated (thread.permitted waiting (.ok (some 1)))
  | clearDefault ownerID =>
    cases form
    exact .of_cleared (thread.permitted waiting (.ok (some 1)))
  | designate ownerID id =>
    cases form
    exact .of_designated (thread.permitted waiting (.ok (some 1)))
  | deleteKeySet ownerID id =>
    cases form
    exact .of_dropped (thread.permitted waiting (.ok (some 1)))
  | insertKeySet | insertMember =>
    simp only [keySetSchema, access] at form
    split at form <;> cases form
  | _ => cases form

end Statements

end Vallet.Publishing
