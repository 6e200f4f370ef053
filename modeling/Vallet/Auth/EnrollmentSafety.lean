import Vallet.Auth.EnrollmentPool
import Vallet.Auth.PairingRevocation

/-!
# Safety of interleaved enrollment

The lineages that failed redemptions take back, and then what every
interleaving guarantees: owners are set once, ended pairings stay ended, a
pairing is redeemed at most once for its own owner and scopes, and no failed
redemption leaves an active credential.
-/

namespace Vallet.Auth

open Counter Effects Relational EnrollmentPool

namespace EnrollmentPool

variable {signer : AccessTokenSigner} {σ : Type}

/-! ## Lineages of failed redemptions -/

/-- Lineages have one credential each, and one that was taken back has no
active credential. -/
structure Compensating (pool : EnrollmentPool signer σ) : Prop where
  unfaulted : ∀ index thread, pool.At index thread → thread.trail.faulted = false
  roots : ∀ credential ∈ pool.state.credentials.refreshCredentials,
    credential.lineageID = credential.id
  minted : ∀ index thread root, pool.At index thread → thread.trail.minted = some root →
    ∃ credential ∈ pool.state.credentials.refreshCredentials,
      credential.id = root.id ∧ credential.ownerID = root.ownerID
  burned : ∀ index thread root, pool.At index thread → thread.trail.minted = some root →
    thread.trail.burned = some (root.ownerID, root.lineageID) →
    ∀ credential ∈ pool.state.credentials.refreshCredentials,
      credential.lineageID = root.lineageID → credential.status ≠ .active

theorem lineageID_of_isRootCredential {credential : RefreshCredential}
    (root : IsRootCredential credential) : credential.lineageID = credential.id := by
  obtain ⟨_, _, _, _, _, rfl, _⟩ := root
  rfl

section Compensation

variable {before after : EnrollmentPool signer σ} {index : Nat}
  {thread later : Thread (enrollmentService signer)} {act : PairingAct}

theorem minted_cases (acted : Pool.Acted before after index thread later act)
    {other : Nat} {found : Thread (enrollmentService signer)}
    {root : RefreshCredential} (running : after.At other found)
    (minted : found.trail.minted = some root) :
    (other = index ∧ act = .minted root) ∨
      ∃ was, before.At other was ∧ was.trail.minted = some root := by
  rcases trail_cases acted running with was | ⟨rfl, was, trail⟩
  · exact .inr ⟨found, was, minted⟩
  rw [trail] at minted
  rcases PairingTrail.minted_record minted with performed | minted
  · exact .inl ⟨rfl, performed⟩
  · exact .inr ⟨thread, was, minted⟩

theorem Compensating.unfaulted_after (compensating : before.Compensating)
    (acted : Pool.Acted before after index thread later act) (answered : act ≠ .faulted) :
    ∀ other found, after.At other found → found.trail.faulted = false := by
  intro other found running
  rcases trail_cases acted running with was | ⟨rfl, was, trail⟩
  · exact compensating.unfaulted _ _ was
  rw [trail]
  cases act with
  | faulted => exact (answered rfl).elim
  | _ => exact compensating.unfaulted _ _ was

theorem credentials_unchanged (effect : EnrollmentEffect before.state after.state act)
    (known : act ≠ .rotated) (unminted : ∀ root, act ≠ .minted root)
    (unburned : ∀ ownerID lineageID now, act ≠ .burned ownerID lineageID now) :
    after.state.credentials = before.state.credentials := by
  cases effect with
  | quiet credentials | created credentials | approved credentials | redeemed credentials
  | revoked credentials => exact credentials
  | faulted unchanged | read unchanged => rw [unchanged]
  | minted => exact (unminted _ rfl).elim
  | burned => exact (unburned _ _ _ rfl).elim
  | rotated => exact (known rfl).elim

section

variable (compensating : before.Compensating)

include compensating

theorem Compensating.after_mint {root : RefreshCredential}
    (acted : Pool.Acted before after index thread later (.minted root))
    (insertion : before.state.credentials.insertCredential root =
      (.inserted, after.state.credentials)) : after.Compensating := by
  obtain ⟨_, unburned, isRoot⟩ := acted.permitted
  obtain ⟨fresh, _, _, rows⟩ := CredentialTables.insertCredential_eq_inserted_iff.mp insertion
  have stored_iff : ∀ credential, credential ∈ after.state.credentials.refreshCredentials ↔
        credential ∈ before.state.credentials.refreshCredentials ∨ credential = root := by
    intro credential
    simp [Table.mem_iff, rows]
  constructor
  case unfaulted => exact compensating.unfaulted_after acted nofun
  case roots =>
    intro credential stored
    rcases (stored_iff credential).mp stored with old | rfl
    · exact compensating.roots credential old
    · exact lineageID_of_isRootCredential isRoot
  case minted =>
    intro other found minted running marked
    rcases minted_cases acted running marked with
      ⟨_, performed⟩ | ⟨was, old, marked⟩
    · cases performed
      exact ⟨root, (stored_iff root).mpr (.inr rfl), rfl, rfl⟩
    · obtain ⟨credential, stored, same⟩ := compensating.minted _ _ _ old marked
      exact ⟨credential, (stored_iff credential).mpr (.inl stored), same⟩
  case burned =>
    intro other found minted running marked burned credential stored lineage
    rcases trail_cases acted running with was | ⟨rfl, was, trail⟩
    · rcases (stored_iff credential).mp stored with old | rfl
      · exact compensating.burned _ _ _ was marked burned credential old lineage
      obtain ⟨taken, takenStored, sameID, _⟩ := compensating.minted _ _ _ was marked
      rw [lineageID_of_isRootCredential isRoot,
        lineageID_of_isRootCredential (found.valid.minted minted marked)] at lineage
      exact (fresh taken takenStored (sameID.trans lineage.symm)).elim
    · rw [trail] at burned
      exact (Option.some_ne_none _ (burned.symm.trans unburned)).elim

theorem Compensating.after_burn {ownerID : OwnerID} {lineageID : LineageID} {now : Int}
    (acted : Pool.Acted before after index thread later
      (.burned ownerID lineageID now)) (updated : after.state.credentials =
      before.state.credentials.revokeLineageRows ownerID lineageID now) :
    after.Compensating := by
  have statusOnly := statusChange_revoked ownerID lineageID now
  have stored_iff : ∀ credential, credential ∈ after.state.credentials.refreshCredentials ↔
        ∃ previous ∈ before.state.credentials.refreshCredentials,
          (if RefreshCredential.revocable ownerID lineageID previous then
            previous.revoked now else previous) = credential := by
    intro credential
    rw [updated, Table.mem_iff, CredentialTables.rows_revokeLineageRows, List.mem_map]
    rfl
  constructor
  case unfaulted => exact compensating.unfaulted_after acted nofun
  case roots =>
    intro credential stored
    obtain ⟨previous, old, rfl⟩ := (stored_iff credential).mp stored
    rw [statusOnly.lineageID, statusOnly.id]
    exact compensating.roots previous old
  case minted =>
    intro other found minted running marked
    rcases minted_cases acted running marked with
      ⟨_, performed⟩ | ⟨was, old, marked⟩
    · cases performed
    obtain ⟨credential, stored, sameID, sameOwner⟩ := compensating.minted _ _ _ old marked
    refine ⟨_, (stored_iff _).mpr ⟨credential, stored, rfl⟩, ?_, ?_⟩
    · rw [statusOnly.id, sameID]
    · rw [statusOnly.ownerID, sameOwner]
  case burned =>
    intro other found minted running marked burned credential stored lineage
    obtain ⟨previous, old, rfl⟩ := (stored_iff credential).mp stored
    rw [statusOnly.lineageID] at lineage
    rcases trail_cases acted running with was | ⟨rfl, was, trail⟩
    · exact statusOnly.staysInactive previous (compensating.burned _ _ _ was
        marked burned previous old lineage)
    · rw [trail] at burned marked
      cases burned
      obtain ⟨row, rowStored, sameID, sameOwner⟩ := compensating.minted _ _ _ was marked
      have rootLineage := lineageID_of_isRootCredential (thread.valid.minted minted marked)
      have sameRow : previous = row := Table.eq_of_key_eq old rowStored (by
        rw [sameID, ← rootLineage, ← lineage, compensating.roots previous old])
      subst sameRow
      split
      · exact nofun
      rename_i kept
      intro active
      simp [RefreshCredential.revocable, RefreshCredential.inLineage,
        sameOwner, lineage, active] at kept

theorem Compensating.after_act (effect : EnrollmentEffect before.state after.state act)
    (acted : Pool.Acted before after index thread later act)
    (answered : act ≠ .faulted) : after.Compensating := by
  by_cases mints : ∃ root, act = .minted root
  · obtain ⟨root, rfl⟩ := mints
    cases effect with
    | minted _ insertion => exact compensating.after_mint acted insertion
  by_cases burns : ∃ ownerID lineageID now, act = .burned ownerID lineageID now
  · obtain ⟨ownerID, lineageID, now, rfl⟩ := burns
    cases effect with
    | burned _ updated => exact compensating.after_burn acted updated
  have known : act ≠ .rotated := by
    rintro rfl
    exact acted.permitted
  have unchanged := credentials_unchanged effect known (fun root same => mints ⟨root, same⟩)
    (fun ownerID lineageID now same => burns ⟨ownerID, lineageID, now, same⟩)
  constructor
  case unfaulted => exact compensating.unfaulted_after acted answered
  case roots => rw [unchanged]; exact compensating.roots
  case minted =>
    intro other found minted running marked
    rw [unchanged]
    rcases minted_cases acted running marked with
      ⟨_, performed⟩ | ⟨was, old, marked⟩
    · exact (mints ⟨_, performed⟩).elim
    · exact compensating.minted _ _ _ old marked
  case burned =>
    intro other found minted running marked burned
    rw [unchanged]
    rcases trail_cases acted running with was | ⟨rfl, was, trail⟩
    · exact compensating.burned _ _ _ was marked burned
    rw [trail] at marked burned
    rcases PairingTrail.minted_record marked with performed | marked
    · exact (mints ⟨_, performed⟩).elim
    rcases PairingTrail.burned_record burned with ⟨now, performed⟩ | burned
    · exact (burns ⟨_, _, now, performed⟩).elim
    exact compensating.burned _ _ _ was marked burned

end

end Compensation

/-! ## Runs -/

/-- A call has been started; nothing else has happened. -/
structure Started (before after : EnrollmentPool signer σ) (call : EnrollmentCall) : Prop where
  fresh : FreshDraws before.calls call
  state : after.state = before.state
  threads : ∀ index thread, after.At index thread ↔
    before.At index thread ∨ (index = before.threads.length ∧
      thread = Thread.start (enrollmentService signer) call)

section Starts

variable {before after : EnrollmentPool signer σ} {call : EnrollmentCall}

variable (started : Started before after call)

include started

theorem Started.trail_cases
    {index : Nat} {thread : Thread (enrollmentService signer)} (running : after.At index thread) :
    before.At index thread ∨ thread.trail = {} := by
  rcases (started.threads index thread).mp running with was | ⟨_, rfl⟩
  · exact .inl was
  · exact .inr rfl

theorem Started.created {pairing : DevicePairing} :
    after.Created pairing ↔ before.Created pairing := by
  constructor
  · rintro ⟨index, thread, running, marked⟩
    rcases started.trail_cases running with was | blank
    · exact ⟨index, thread, was, marked⟩
    · rw [blank] at marked
      cases marked
  · rintro ⟨index, thread, running, marked⟩
    exact ⟨index, thread, (started.threads _ _).mpr (.inl running), marked⟩

theorem Started.bound {id : PairingID} {ownerID : OwnerID} :
    after.Bound id ownerID ↔ before.Bound id ownerID := by
  constructor
  · rintro ⟨index, thread, running, marked⟩
    rcases started.trail_cases running with was | blank
    · exact ⟨index, thread, was, marked⟩
    · rw [blank] at marked
      cases marked
  · rintro ⟨index, thread, running, marked⟩
    exact ⟨index, thread, (started.threads _ _).mpr (.inl running), marked⟩

theorem Started.originates {pairing : DevicePairing} :
    after.Originates pairing ↔ before.Originates pairing := by
  simp only [Originates, started.created]

theorem Coherent.after_start (coherent : before.Coherent) : after.Coherent := by
  constructor
  case drawnOnce =>
    intro first second firstThread secondThread id firstAt secondAt firstDrawn secondDrawn
    rcases (started.threads _ _).mp firstAt with firstOld | ⟨rfl, rfl⟩
    · rcases (started.threads _ _).mp secondAt with secondOld | ⟨rfl, rfl⟩
      · exact coherent.drawnOnce _ _ _ _ _ firstOld secondOld firstDrawn secondDrawn
      · exact (started.fresh _ (Pool.mem_calls firstOld) id firstDrawn secondDrawn).elim
    · rcases (started.threads _ _).mp secondAt with secondOld | ⟨rfl, rfl⟩
      · exact (started.fresh _ (Pool.mem_calls secondOld) id secondDrawn firstDrawn).elim
      · rfl
  case origin =>
    rw [started.state]
    intro pairing stored
    exact started.originates.mpr (coherent.origin pairing stored)
  case unowned => rw [started.state]; exact coherent.unowned
  case owner =>
    rw [started.state]
    intro pairing stored owned
    exact started.bound.mpr (coherent.owner pairing stored owned)
  case boundCreated =>
    intro id ownerID bound
    obtain ⟨created, was, sameID⟩ := coherent.boundCreated id ownerID (started.bound.mp bound)
    exact ⟨created, started.created.mpr was, sameID⟩
  case boundRow =>
    rw [started.state]
    intro id ownerID bound
    exact coherent.boundRow id ownerID (started.bound.mp bound)
  case boundOnce =>
    intro first second firstThread secondThread id ownerID otherOwner firstAt
      secondAt firstBound secondBound
    rcases started.trail_cases firstAt with firstOld | blank
    · rcases started.trail_cases secondAt with secondOld | blank
      · exact coherent.boundOnce _ _ _ _ _ _ _ firstOld secondOld firstBound secondBound
      · rw [blank] at secondBound
        cases secondBound
    · rw [blank] at firstBound
      cases firstBound
  case redeemedRow =>
    rw [started.state]
    intro index thread redemption running redeemed
    rcases started.trail_cases running with was | blank
    · exact coherent.redeemedRow _ _ _ was redeemed
    · rw [blank] at redeemed
      cases redeemed
  case redeemedOnce =>
    intro first second firstThread secondThread redemption other firstAt
      secondAt firstRedeemed secondRedeemed sameID
    rcases started.trail_cases firstAt with firstOld | blank
    · rcases started.trail_cases secondAt with secondOld | blank
      · exact coherent.redeemedOnce _ _ _ _ _ _ firstOld secondOld
          firstRedeemed secondRedeemed sameID
      · rw [blank] at secondRedeemed
        cases secondRedeemed
    · rw [blank] at firstRedeemed
      cases firstRedeemed
  case redeemedBound =>
    intro index thread redemption running redeemed
    rcases started.trail_cases running with was | blank
    · exact started.bound.mpr (coherent.redeemedBound _ _ _ was redeemed)
    · rw [blank] at redeemed
      cases redeemed
  case readOrigin =>
    intro index thread pairing running read
    rcases started.trail_cases running with was | blank
    · exact started.originates.mpr (coherent.readOrigin _ _ _ was read)
    · rw [blank] at read
      cases read

theorem Compensating.after_start (compensating : before.Compensating) : after.Compensating := by
  constructor
  case unfaulted =>
    intro index thread running
    rcases started.trail_cases running with was | blank
    · exact compensating.unfaulted _ _ was
    · rw [blank]
  case roots => rw [started.state]; exact compensating.roots
  case minted =>
    rw [started.state]
    intro index thread root running minted
    rcases started.trail_cases running with was | blank
    · exact compensating.minted _ _ _ was minted
    · rw [blank] at minted
      cases minted
  case burned =>
    rw [started.state]
    intro index thread root running minted burned
    rcases started.trail_cases running with was | blank
    · exact compensating.burned _ _ _ was minted burned
    · rw [blank] at minted
      cases minted

end Starts


section Runs

variable [CounterStore σ] {before after : EnrollmentPool signer σ}

/-- One more call is started, or the next statement of one is executed. -/
abbrev Step (before after : EnrollmentPool signer σ) : Prop :=
  Pool.Step enrollmentInterpreter FreshDraws before after

abbrev Runs (before after : EnrollmentPool signer σ) : Prop :=
  Pool.Runs enrollmentInterpreter FreshDraws before after

/-- No pairing, link or credential exists and no call has been started. -/
def initial (signer : AccessTokenSigner) (owners : Table Owner.id)
    (store : σ) : EnrollmentPool signer σ :=
  .idle (enrollmentService signer) {
    credentials := { owners, refreshCredentials := .empty }
    pairings := .empty
    links := .empty
    store }

theorem Step.cases (step : Step before after) : (∃ call, Started before after call) ∨
    ∃ act index thread later, act ≠ .faulted ∧ EnrollmentEffect before.state after.state act ∧
      Pool.Acted before after index thread later act := by
  rcases Pool.Step.cases step with ⟨call, fresh, state, threads⟩ |
    ⟨β, statement, index, thread, later, state, acted⟩
  · exact .inl ⟨call, fresh, state, threads⟩
  refine .inr ⟨_, index, thread, later, ?_, ?_, acted⟩
  · exact EnrollmentStatement.act_ok_ne_faulted statement _
  · rw [state]
    exact EnrollmentEffect.ofReply statement false before.state

omit [CounterStore σ] in
theorem coherent_initial (owners : Table Owner.id) (store : σ) :
    (initial signer owners store).Coherent := by
  have empty : ∀ index thread, ¬ (initial signer owners store).At index
      thread := fun index thread running => Nat.not_lt_zero _ running.lt
  have noRow : ∀ pairing, pairing ∉ (initial signer owners store).state.pairings :=
    fun pairing => Table.not_mem_empty pairing
  constructor
  case drawnOnce => exact fun _ _ _ _ _ running => (empty _ _ running).elim
  case origin => exact fun _ stored => (noRow _ stored).elim
  case unowned => exact fun _ stored => (noRow _ stored).elim
  case owner => exact fun _ stored => (noRow _ stored).elim
  case boundCreated => exact fun _ _ ⟨_, _, running, _⟩ => (empty _ _ running).elim
  case boundRow => exact fun _ _ _ _ stored => (noRow _ stored).elim
  case boundOnce => exact fun _ _ _ _ _ _ _ running => (empty _ _ running).elim
  case redeemedRow => exact fun _ _ _ running => (empty _ _ running).elim
  case redeemedOnce => exact fun _ _ _ _ _ _ running => (empty _ _ running).elim
  case redeemedBound => exact fun _ _ _ running => (empty _ _ running).elim
  case readOrigin => exact fun _ _ _ running => (empty _ _ running).elim

omit [CounterStore σ] in
theorem compensating_initial (owners : Table Owner.id) (store : σ) :
    (initial signer owners store).Compensating := by
  have empty : ∀ index thread, ¬ (initial signer owners store).At index
      thread := fun index thread running => Nat.not_lt_zero _ running.lt
  constructor
  case roots => exact fun _ stored => (Table.not_mem_empty _ stored).elim
  case minted => exact fun _ _ _ running => (empty _ _ running).elim
  case burned => exact fun _ _ _ running => (empty _ _ running).elim
  case unfaulted => exact fun _ _ running => (empty _ _ running).elim

section

variable (runs : Runs before after)

include runs

theorem Runs.coherent (coherent : before.Coherent) : after.Coherent := by
  induction runs with
  | refl => exact coherent
  | tail _ step induction =>
    rcases Step.cases step with
      ⟨call, started⟩ | ⟨act, index, thread, later, _, effect, acted⟩
    · exact induction.after_start started
    · exact induction.after_act effect acted

theorem Runs.compensating (compensating : before.Compensating) : after.Compensating := by
  induction runs with
  | refl => exact compensating
  | tail _ step induction =>
    rcases Step.cases step with
      ⟨call, started⟩ | ⟨act, index, thread, later, answered, effect, acted⟩
    · exact induction.after_start started
    · exact induction.after_act effect acted answered

theorem Runs.created {pairing : DevicePairing}
    (created : before.Created pairing) : after.Created pairing := by
  induction runs with
  | refl => exact created
  | tail _ step induction =>
    rcases Step.cases step with
      ⟨call, started⟩ | ⟨act, index, thread, later, _, effect, acted⟩
    · exact started.created.mpr induction
    · exact induction.after_act acted

/-- From one state to any later one a pairing only moves forward. -/
theorem Runs.advances (coherent : before.Coherent)
    {pairing later : DevicePairing} (stored : pairing ∈ before.state.pairings)
    (laterStored : later ∈ after.state.pairings)
    (sameID : later.id = pairing.id) : pairing.Advances later := by
  induction runs generalizing later with
  | refl =>
    have same := Table.eq_of_key_eq laterStored stored sameID
    subst same
    exact .refl _
  | @tail middle after earlier step induction =>
    rcases Step.cases step with
      ⟨call, started⟩ | ⟨act, index, thread, next, _, effect, acted⟩
    · rw [started.state] at laterStored
      exact induction laterStored sameID
    · have middleCoherent := Runs.coherent earlier coherent
      have known : act ≠ .rotated := by
        rintro rfl
        exact acted.permitted
      rcases effect.row known laterStored with
        rfl | ⟨previous, old, change⟩
      · obtain ⟨created, was, createdID, _⟩ := coherent.origin pairing stored
        exact (middleCoherent.fresh acted (Runs.created earlier was)
          (createdID.trans sameID.symm)).elim
      · have first := induction old (change.id.symm.trans sameID)
        exact first.trans (change.advances (middleCoherent.unowned previous old))

end

end Runs

/-! ## What every interleaving guarantees -/

/-- A call, an `Approve` or a `Mint` of the owner, whose statement set the
owner of the pairing. -/
def SetsOwner (pool : EnrollmentPool signer σ) (index : Nat) (id : PairingID)
    (ownerID : OwnerID) : Prop :=
  ∃ thread, pool.At index thread ∧ thread.call.Binds ownerID ∧
    thread.trail.bound = some (id, ownerID)

/-- A call that has returned a pair of tokens for the pairing. -/
def Redeemed (pool : EnrollmentPool signer σ) (index : Nat) (id : PairingID)
    (issued : Issued) : Prop :=
  ∃ thread, pool.At index thread ∧ thread.call.Redeems id ∧
    thread.rest = .done (.ok (.tokens issued))

/-- A `Redeem` that has returned an error after it had minted a lineage. -/
def TakenBack (pool : EnrollmentPool signer σ) (lineageID : LineageID) : Prop :=
  ∃ index thread call failure root, pool.At index thread ∧
    thread.call = .redeem call ∧ thread.rest = .done (.error failure) ∧
    thread.trail.minted = some root ∧ root.lineageID = lineageID

/-- What holds between a pool that was reached and any later one. -/
structure Safe (pool later : EnrollmentPool signer σ) : Prop where
  ownerSetOnce : ∀ index other id ownerID otherOwner,
    later.SetsOwner index id ownerID → later.SetsOwner other id otherOwner →
    index = other ∧ ownerID = otherOwner
  ownerKept : ∀ pairing ∈ pool.state.pairings,
    ∀ after ∈ later.state.pairings, after.id = pairing.id →
    pairing.ownerID ≠ [] → after.ownerID = pairing.ownerID
  terminal : ∀ pairing ∈ pool.state.pairings,
    ∀ after ∈ later.state.pairings, after.id = pairing.id →
    pairing.status = .redeemed ∨ pairing.status = .revoked →
    after.status = pairing.status
  singleUse : ∀ index other id issued second,
    later.Redeemed index id issued → later.Redeemed other id second →
    index = other
  rightful : ∀ index id issued, later.Redeemed index id issued →
    (∃ approver, later.SetsOwner approver id issued.ownerID) ∧
    (∃ created, later.Created created ∧ created.id = id ∧ created.scopes = issued.scopes) ∧
    ∀ pairing ∈ later.state.pairings, pairing.id = id →
      pairing.ownerID = issued.ownerID ∧ pairing.scopes = issued.scopes ∧
      pairing.lineageID = issued.lineageID
  compensated : ∀ lineageID, later.TakenBack lineageID →
    ∀ credential ∈ later.state.credentials.refreshCredentials,
      credential.lineageID = lineageID → credential.status ≠ .active

section Guarantees

variable {pool later : EnrollmentPool signer σ} {index : Nat} {id : PairingID} {issued : Issued}

theorem Bound.setsOwner {ownerID : OwnerID} (bound : pool.Bound id ownerID) :
    ∃ approver, pool.SetsOwner approver id ownerID := by
  obtain ⟨index, thread, running, bound⟩ := bound
  exact ⟨index, thread, running, (thread.valid.bound id ownerID bound).2, bound⟩

/-- A call that returned tokens read its pairing and consumed it. -/
theorem Redeemed.trail (redeemed : pool.Redeemed index id issued) :
    ∃ thread pairing, pool.At index thread ∧ pairing.id = id ∧ thread.trail.read = some pairing ∧
      thread.trail.redeemed = some {
        id
        ownerID := pairing.ownerID
        lineageID := issued.lineageID } ∧
      issued.ownerID = pairing.ownerID ∧ issued.scopes = pairing.scopes := by
  obtain ⟨thread, running, ⟨call, secret, isRedeem, parsed⟩, returned⟩ := redeemed
  have concludes := thread.concluded returned
  simp only [enrollmentService, isRedeem, EnrollmentCall.Concludes] at concludes
  obtain ⟨pairing, read, consumed, owner, scopes⟩ := concludes
  obtain ⟨other, otherSecret, isOther, otherParsed⟩ := thread.valid.redeemed _ consumed
  rw [isRedeem] at isOther
  cases isOther
  rw [parsed] at otherParsed
  cases otherParsed
  exact ⟨thread, pairing, running, rfl, read, consumed, owner, scopes⟩

theorem Coherent.singleUse (coherent : pool.Coherent) {other : Nat}
    {second : Issued} (redeemed : pool.Redeemed index id issued)
    (again : pool.Redeemed other id second) : index = other := by
  obtain ⟨thread, _, running, _, _, consumed, _⟩ := redeemed.trail
  obtain ⟨found, _, otherRunning, _, _, otherConsumed, _⟩ := again.trail
  exact coherent.redeemedOnce _ _ _ _ _ _ running otherRunning consumed otherConsumed rfl

theorem Coherent.rightful (coherent : pool.Coherent) (redeemed : pool.Redeemed index id issued) :
    (∃ approver, pool.SetsOwner approver id issued.ownerID) ∧
    (∃ created, pool.Created created ∧ created.id = id ∧ created.scopes = issued.scopes) ∧
    ∀ pairing ∈ pool.state.pairings, pairing.id = id →
      pairing.ownerID = issued.ownerID ∧ pairing.scopes = issued.scopes ∧
      pairing.lineageID = issued.lineageID := by
  obtain ⟨thread, read, running, readID, marked, consumed, owner, scopes⟩ := redeemed.trail
  have bound := coherent.redeemedBound _ _ _ running consumed
  obtain ⟨created, was, createdID, createdScopes⟩ := coherent.readOrigin _ _ _ running marked
  rw [← scopes] at createdScopes
  rw [readID] at createdID
  refine ⟨owner ▸ bound.setsOwner, ⟨created, was, createdID, createdScopes⟩,
    fun pairing stored sameID => ?_⟩
  obtain ⟨origin, originWas, originID, originScopes⟩ := coherent.origin pairing stored
  have sameOrigin := coherent.createdOnce originWas was
    (originID.trans (sameID.trans createdID.symm))
  subst sameOrigin
  refine ⟨?_, originScopes.symm.trans createdScopes, ?_⟩
  · rw [owner]
    exact (coherent.boundRow _ _ bound pairing stored sameID).1
  · exact (coherent.redeemedRow _ _ _ running consumed pairing stored sameID).2

end Guarantees

section Runs

variable [CounterStore σ]

theorem safe_of_runs {owners : Table Owner.id} {store : σ} {pool later : EnrollmentPool signer σ}
    (reached : Runs (initial signer owners store) pool)
    (continues : Runs pool later) : Safe pool later := by
  have poolCoherent := Runs.coherent reached (coherent_initial owners store)
  have laterCoherent := Runs.coherent continues poolCoherent
  have compensating := Runs.compensating continues
    (Runs.compensating reached (compensating_initial owners store))
  constructor
  case ownerSetOnce =>
    rintro index other id ownerID otherOwner ⟨thread, running, _, bound⟩
      ⟨found, otherRunning, _, otherBound⟩
    have sameIndex := laterCoherent.boundOnce _ _ _ _ _ _ _ running otherRunning bound otherBound
    subst sameIndex
    have sameThread := running.unique otherRunning
    subst sameThread
    rw [bound] at otherBound
    cases otherBound
    exact ⟨rfl, rfl⟩
  case ownerKept =>
    intro pairing stored after afterStored sameID
    exact (Runs.advances continues poolCoherent stored afterStored sameID).ownerID
  case terminal =>
    intro pairing stored after afterStored sameID ended
    have advances := Runs.advances continues poolCoherent stored afterStored sameID
    rcases ended with redeemed | revoked
    · rw [redeemed, advances.redeemed redeemed]
    · rw [revoked, advances.revoked revoked]
  case singleUse =>
    intro index other id issued second redeemed again
    exact laterCoherent.singleUse redeemed again
  case rightful =>
    intro index id issued redeemed
    exact laterCoherent.rightful redeemed
  case compensated =>
    rintro _ ⟨index, thread, call, failure, root, running, isRedeem, returned, minted, rfl⟩
    have concludes := thread.concluded returned
    simp only [enrollmentService, isRedeem, EnrollmentCall.Concludes] at concludes
    exact compensating.burned _ _ _ running minted
      (concludes.2 (compensating.unfaulted _ _ running) root minted)

end Runs

end EnrollmentPool

/-! ## Two redemptions of one pairing -/

namespace Racing

/-- A pairing is minted and its device code presented twice at once. -/
def started : EnrollmentPool (Sample.signer []) MemoryStore :=
  { initial (Sample.signer []) Sample.owners MemoryStore.new with
    threads := [ .start _ (.mint Sample.mintCall), .start _ (.redeem (Sample.redeemCall 1)),
      .start _ (.redeem (Sample.redeemCall 2))] }

/-- The two redemptions take turns; the second loses and takes back what it
has minted. -/
def finished : EnrollmentPool (Sample.signer []) MemoryStore :=
  [0, 0, 1, 2, 1, 2, 1, 2, 1, 2, 1, 2, 1, 2, 2, 2, 2, 2].foldl
    (Pool.advance enrollmentInterpreter) started

theorem started_reached : Runs (initial (Sample.signer [])
      Sample.owners MemoryStore.new) started := by
  have first : Step (initial (Sample.signer [])
      Sample.owners MemoryStore.new) _ := .start (.mint Sample.mintCall) nofun
  refine .head first (.head (.start (EnrollmentCall.redeem (Sample.redeemCall 1)) ?_)
    (.single (.start (EnrollmentCall.redeem (Sample.redeemCall 2)) ?_)))
  all_goals exact fun _ _ _ _ => nofun

end Racing

theorem safe_racing_redemptions :
    (Racing.finished.returned? 1).map (·.toOption.isSome) = some true ∧
    (Racing.finished.returned? 2).map (·.toOption.isSome) = some false ∧
    Safe Racing.started Racing.finished := by
  refine ⟨by decide +kernel, by decide +kernel, ?_⟩
  exact safe_of_runs Racing.started_reached (Pool.schedule_runs _ _)

end Vallet.Auth
