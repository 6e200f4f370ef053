import Vallet.Auth.EnrollmentPrograms
import Vallet.Auth.LineageSafety

/-!
# Revoking a pairing

Enrollment calls, exchanges and changes of owners, one after the other and
with faults anywhere.  The ledger of a system remembers which lineage each
successful `Redeem` issued, so that what a revocation should kill is known
independently of what the pairing row says.
-/

namespace Vallet.Auth

open Counter Effects Relational DevicePairingRepository PairingTrail Program

/-- The state with the ids drawn so far and the lineages issued for pairings. -/
structure EnrollmentSystem (σ : Type) where
  state : EnrollmentState σ
  drawn : List PairingID
  issued : List (PairingID × LineageID)

/-- A call of the enrolment or token service, or a change of the owners. -/
inductive EnrollmentEvent where
  | enroll (call : EnrollmentCall) (faults : List Bool)
  | exchange (call : ExchangeCall)
  | setOwners (owners : Table Owner.id)

/-- The entry a `Redeem` that returned tokens adds to the ledger. -/
def EnrollmentCall.issues : EnrollmentCall →
    Except Err EnrollmentAnswer → List (PairingID × LineageID)
  | .redeem call, .ok (.tokens issued) =>
    match parseDeviceCode call.deviceCode with
    | .ok (id, _) => [(id, issued.lineageID)]
    | .error _ => []
  | _, _ => []

namespace EnrollmentSystem

variable {σ : Type} [CounterStore σ]

def enroll (signer : AccessTokenSigner) (call : EnrollmentCall)
    (faults : List Bool) (system : EnrollmentSystem σ) :
    Except Err EnrollmentAnswer × EnrollmentSystem σ :=
  let ran := (call.program signer).run enrollmentInterpreter faults
    system.state
  (ran.1, {
    state := ran.2
    drawn := call.drawn.toList ++ system.drawn
    issued := call.issues ran.1 ++ system.issued })

/-- The part of the state the token service works on. -/
def tokens (system : EnrollmentSystem σ) : TokenSystem σ where
  state :=
    { tables := system.state.credentials
      denylist := system.state.store }
  clock := 0

def exchange (signer : AccessTokenSigner) (call : ExchangeCall) (system : EnrollmentSystem σ) :
    Except Err Issued × EnrollmentSystem σ :=
  let ran := system.tokens.exchange signer call
  (ran.1, { system with
    state := { system.state with
      credentials := ran.2.state.tables
      store := ran.2.state.denylist } })

/-- One call; a pairing identifier is never drawn twice. -/
inductive Step (signer : AccessTokenSigner) :
    EnrollmentSystem σ → EnrollmentEvent → EnrollmentSystem σ → Prop where
  | enroll {system : EnrollmentSystem σ} {call : EnrollmentCall} {faults : List Bool}
      (fresh : ∀ id, call.drawn = some id → id ∉ system.drawn) :
      Step signer system (.enroll call faults) (system.enroll signer call faults).2
  | exchange {system : EnrollmentSystem σ} {call : ExchangeCall} :
      Step signer system (.exchange call) (system.exchange signer call).2
  | setOwners {system : EnrollmentSystem σ} {owners : Table Owner.id} :
      Step signer system (.setOwners owners) { system with
          state := { system.state with
            credentials := { system.state.credentials with owners } } }

def Runs (signer : AccessTokenSigner) : EnrollmentSystem σ → EnrollmentSystem σ → Prop :=
  Relation.ReflTransGen fun before after =>
    ∃ event, Step signer before event after

/-- No pairing, link or credential exists yet. -/
def initial (owners : Table Owner.id) (store : σ) : EnrollmentSystem σ where
  state :=
    { credentials := { owners, refreshCredentials := .empty }
      pairings := .empty
      links := .empty
      store }
  drawn := []
  issued := []

/-- Some run leads here from empty tables. -/
def Reachable (signer : AccessTokenSigner) (system : EnrollmentSystem σ) : Prop :=
  ∃ owners store, Runs signer (initial owners store) system

end EnrollmentSystem

/-! ## What one call keeps -/

variable {trail : PairingTrail} {call : EnrollmentCall}

/-- The effect of a permitted act on the credential table. -/
theorem EnrollmentEffect.tableEffect {σ : Type}
    {before after : EnrollmentState σ} {act : PairingAct}
    (effect : EnrollmentEffect before after act)
    (permitted : call.Permits trail act) :
    ∃ now, TableEffect now before.credentials after.credentials := by
  cases effect with
  | quiet credentials | created credentials | approved credentials | redeemed credentials
  | revoked credentials => exact ⟨0, .owners (by rw [credentials])⟩
  | faulted unchanged | read unchanged => exact ⟨0, .owners (by rw [unchanged])⟩
  | minted pairings insertion =>
    obtain ⟨_, _, ownerID, scopes, clientLabel, now, draws, rfl, named, validScopes⟩ := permitted
    exact ⟨now, .root named validScopes insertion⟩
  | @burned ownerID lineageID now pairings updated =>
    exact ⟨now, updated ▸ .burned ownerID lineageID⟩
  | rotated => exact permitted.elim

/-- The ledger entry of a redemption. -/
def PairingTrail.entries (trail : PairingTrail) : List (PairingID × LineageID) :=
  trail.redeemed.toList.map fun redemption =>
    (redemption.id, redemption.lineageID)

theorem PairingTrail.mem_entries {entry : PairingID × LineageID} :
    entry ∈ trail.entries ↔ ∃ redemption,
      trail.redeemed = some redemption ∧ (redemption.id, redemption.lineageID) = entry := by
  simp [entries]

/-- How tables and ledger agree.  While a call runs, `own` is the identifier
it has drawn. -/
structure Consistent {σ : Type} (own : Option PairingID)
    (drawn : List PairingID) (issued : List (PairingID × LineageID))
    (state : EnrollmentState σ) : Prop where
  sound : state.credentials.Sound
  known : ∀ pairing ∈ state.pairings, pairing.id ∈ drawn ∨ own = some pairing.id
  ledger : ∀ entry ∈ issued, entry.1 ∈ drawn ∧ state.credentials.lineage entry.2 ≠ [] ∧
    ∀ pairing ∈ state.pairings, pairing.id = entry.1 →
      pairing.status = .redeemed ∧ pairing.lineageID = entry.2
  recorded : ∀ pairing ∈ state.pairings, pairing.status = .redeemed →
    (pairing.id, pairing.lineageID) ∈ issued

/-- What holds between two statements of a call. -/
structure MidCall {σ : Type} (call : EnrollmentCall)
    (drawn : List PairingID) (issued : List (PairingID × LineageID))
    (state : EnrollmentState σ) (trail : PairingTrail) : Prop where
  consistent : Consistent call.drawn drawn (trail.entries ++ issued) state
  minted : ∀ root, trail.minted = some root → state.credentials.lineage root.lineageID ≠ []
  redeemed : ∀ redemption, trail.redeemed = some redemption → call.Redeems redemption.id

theorem CredentialTables.Progress.started {before after : CredentialTables}
    (progress : before.Progress after) {lineageID : LineageID}
    (started : before.lineage lineageID ≠ []) : after.lineage lineageID ≠ [] := by
  obtain ⟨credential, member⟩ := List.exists_mem_of_ne_nil _ started
  obtain ⟨stored, lineage⟩ := CredentialTables.mem_lineage.mp member
  obtain ⟨later, laterStored, _, sameLineage, _⟩ := progress credential stored
  exact List.ne_nil_of_mem (CredentialTables.mem_lineage.mpr
    ⟨laterStored, sameLineage.trans lineage⟩)

theorem EnrollmentCall.Redeems.drawn {id : PairingID}
    (redeems : call.Redeems id) : call.drawn = none := by
  obtain ⟨_, _, rfl, _⟩ := redeems
  rfl

theorem EnrollmentCall.Redeems.unique {id other : PairingID} (redeems : call.Redeems id)
    (also : call.Redeems other) : id = other := by
  obtain ⟨_, _, rfl, parsed⟩ := redeems
  obtain ⟨_, _, same, otherParsed⟩ := also
  cases same
  rw [parsed] at otherParsed
  cases otherParsed
  rfl

section Acts

variable {σ : Type} {before after : EnrollmentState σ} {act : PairingAct}
  {call : EnrollmentCall} {trail : PairingTrail} {drawn : List PairingID}
  {issued : List (PairingID × LineageID)}

theorem PairingTrail.mem_entries_record
    (permitted : call.Permits trail act) {entry : PairingID × LineageID}
    (member : entry ∈ trail.entries) : entry ∈ (trail.record act).entries := by
  obtain ⟨redemption, redeemed, rfl⟩ := mem_entries.mp member
  cases act with
  | redeemed =>
    rw [permitted.1] at redeemed
    cases redeemed
  | _ => exact mem_entries.mpr ⟨redemption, redeemed, rfl⟩

theorem MidCall.after_act (midCall : MidCall call drawn issued before trail)
    (fresh : ∀ id, call.drawn = some id → id ∉ drawn) (effect : EnrollmentEffect before after act)
    (permitted : call.Permits trail act) : MidCall call drawn issued after (trail.record act) := by
  obtain ⟨now, tableEffect⟩ := effect.tableEffect permitted
  have known : act ≠ .rotated := by
    rintro rfl
    exact permitted
  have consistent := midCall.consistent
  have redeems : ∀ redemption, (trail.record act).redeemed = some redemption →
      call.Redeems redemption.id := by
    intro redemption redeemed
    rcases redeemed_record redeemed with ⟨_, rfl⟩ | redeemed
    · exact permitted.2.1
    · exact midCall.redeemed redemption redeemed
  refine ⟨⟨tableEffect.sound consistent.sound, ?_, ?_, ?_⟩, ?_, redeems⟩
  · intro pairing stored
    rcases effect.row known stored with rfl | ⟨previous, old, change⟩
    · exact .inr permitted.2.2.1
    · rw [change.id]
      exact consistent.known previous old
  · have old : ∀ entry ∈ trail.entries ++ issued, entry.1 ∈ drawn ∧
        after.credentials.lineage entry.2 ≠ [] ∧
        ∀ pairing ∈ after.pairings, pairing.id = entry.1 →
          pairing.status = .redeemed ∧ pairing.lineageID = entry.2 := by
      intro entry member
      obtain ⟨entryKnown, started, rows⟩ := consistent.ledger entry member
      refine ⟨entryKnown, tableEffect.progress.started started,
        effect.redeemedRows_after known ?_ rows⟩
      rintro created rfl sameID
      exact fresh _ (sameID ▸ permitted.2.2.1) entryKnown
    intro entry member
    rcases List.mem_append.mp member with marked | member
    · obtain ⟨redemption, redeemed, rfl⟩ := mem_entries.mp marked
      rcases redeemed_record redeemed with ⟨now, rfl⟩ | earlier
      · obtain ⟨target, targetStored, targetID, _⟩ := effect.redeemable
        obtain ⟨_, redeemsIt, root, minted, _, lineage⟩ := permitted
        refine ⟨?_, ?_, fun pairing stored sameID =>
          effect.redeemedRows stored sameID⟩
        · rcases consistent.known target targetStored with known | own
          · exact targetID ▸ known
          · rw [redeemsIt.drawn] at own
            cases own
        · exact lineage ▸ tableEffect.progress.started (midCall.minted root minted)
      · exact old _ (List.mem_append_left _
          (mem_entries.mpr ⟨redemption, earlier, rfl⟩))
    · exact old entry (List.mem_append_right _ member)
  · intro pairing stored redeemed
    rcases effect.row known stored with rfl | ⟨previous, old, change⟩
    · obtain ⟨_, _, _, _, ⟨pending, _⟩ | ⟨approved, _⟩⟩ := permitted
      · cases redeemed.symm.trans pending
      · cases redeemed.symm.trans approved
    · cases change with
      | keeps elsewhere keeps =>
        rw [keeps.id, keeps.lineageID]
        rcases List.mem_append.mp (consistent.recorded previous old
          (keeps.redeemed.mp redeemed)) with marked | member
        · exact List.mem_append_left _ (mem_entries_record permitted marked)
        · exact List.mem_append_right _ member
      | approved => cases redeemed
      | redeemed owned approved =>
        exact List.mem_append_left _ (mem_entries.mpr ⟨_, rfl, rfl⟩)
  · intro root minted
    rcases minted_record minted with rfl | minted
    · cases effect with
      | minted pairings insertion =>
        rw [CredentialTables.lineage_insertCredential insertion, if_pos rfl]
        simp
    · exact tableEffect.progress.started (midCall.minted root minted)

/-- The rows of a pairing that can be neither approved nor redeemed. -/
def FinishedRows (id : PairingID) (state : EnrollmentState σ) : Prop :=
  ∀ pairing ∈ state.pairings, pairing.id = id →
    pairing.status = .redeemed ∨ pairing.status = .revoked

/-- A finished pairing stays finished, and the call does not redeem it. -/
structure MidFinished (call : EnrollmentCall) (id : PairingID)
    (state : EnrollmentState σ) (trail : PairingTrail) : Prop where
  finished : FinishedRows id state
  redeemed : ∀ redemption, trail.redeemed = some redemption →
    call.Redeems redemption.id ∧ redemption.id ≠ id

theorem MidFinished.after_act {id : PairingID} (midFinished : MidFinished call id before trail)
    (fresh : call.drawn ≠ some id) (effect : EnrollmentEffect before after act)
    (permitted : call.Permits trail act) : MidFinished call id after (trail.record act) := by
  have known : act ≠ .rotated := by
    rintro rfl
    exact permitted
  constructor
  · intro pairing stored sameID
    rcases effect.row known stored with rfl | ⟨previous, old, change⟩
    · exact (fresh (sameID ▸ permitted.2.2.1)).elim
    have was := midFinished.finished previous old (change.id.symm.trans sameID)
    cases change with
    | keeps elsewhere keeps => exact was.imp keeps.redeemed.mpr keeps.revoked
    | approved pending => rcases was with was | was <;>
        cases was.symm.trans pending
    | redeemed owned approved => exact .inl rfl
  · intro redemption redeemed
    rcases redeemed_record redeemed with ⟨now, rfl⟩ | redeemed
    · refine ⟨permitted.2.1, fun sameID => ?_⟩
      obtain ⟨target, stored, targetID, _, _, approved⟩ := effect.redeemable
      rcases midFinished.finished target stored (targetID.trans sameID) with
        was | was <;> cases was.symm.trans approved
    · exact midFinished.redeemed redemption redeemed

/-- A lineage that has ended, while a call runs. -/
structure MidEnded (lineageID : LineageID) (state : EnrollmentState σ)
    (trail : PairingTrail) : Prop where
  sound : state.credentials.Sound
  ended : state.credentials.Ended lineageID

theorem MidEnded.after_act {lineageID : LineageID} (midEnded : MidEnded lineageID before trail)
    (effect : EnrollmentEffect before after act) (permitted : call.Permits trail act) :
    MidEnded lineageID after (trail.record act) := by
  obtain ⟨now, tableEffect⟩ := effect.tableEffect permitted
  exact ⟨tableEffect.sound midEnded.sound, tableEffect.ended midEnded.sound midEnded.ended⟩

end Acts

/-- What the ledger gains is what the trail has marked. -/
theorem EnrollmentCall.issues_eq_entries
    {answer : Except Err EnrollmentAnswer} (concludes : call.Concludes trail answer)
    (redeems : ∀ redemption, trail.redeemed = some redemption → call.Redeems redemption.id) :
    call.issues answer = trail.entries := by
  have unmarked : (∀ redemption, call ≠ .redeem redemption) → trail.entries = [] := by
    intro other
    cases marked : trail.redeemed with
    | none => simp [entries, marked]
    | some redemption =>
      obtain ⟨redeemCall, _, isRedeem, _⟩ := redeems redemption marked
      exact (other redeemCall isRedeem).elim
  cases call with
  | redeem redemption =>
    cases answer with
    | error failure => simp [issues, entries, concludes.1]
    | ok answer =>
      cases answer with
      | tokens issued =>
        obtain ⟨pairing, _, marked, _⟩ := concludes
        obtain ⟨_, _, same, parsed⟩ := redeems _ marked
        cases same
        simp [issues, entries, marked, parsed]
      | _ => exact concludes.elim
  | _ => exact (unmarked nofun).symm

namespace EnrollmentSystem

variable {σ : Type} [CounterStore σ] {signer : AccessTokenSigner}
  {system before after : EnrollmentSystem σ}

/-- The tables and the ledger of a system agree. -/
def Sound (system : EnrollmentSystem σ) : Prop :=
  Consistent none system.drawn system.issued system.state

variable {event : EnrollmentEvent} {id : PairingID} {lineageID : LineageID}
  {pairing : DevicePairing}

theorem Sound.enroll (sound : system.Sound) {call : EnrollmentCall} (faults : List Bool)
    (fresh : ∀ id, call.drawn = some id → id ∉ system.drawn) :
    (system.enroll signer call faults).2.Sound := by
  have start : MidCall call system.drawn system.issued system.state {} := by
    refine ⟨⟨sound.sound, fun pairing stored => ?_, sound.ledger, sound.recorded⟩, nofun, nofun⟩
    rcases sound.known pairing stored with known | impossible
    · exact .inl known
    · cases impossible
  obtain ⟨trail, concludes, midCall⟩ :=
    (EnrollmentCall.follows_program signer call).run
      (fun statement faulted state trail midCall permitted =>
        midCall.after_act fresh (EnrollmentEffect.ofReply statement faulted state) permitted)
      faults start
  have ledger := EnrollmentCall.issues_eq_entries concludes midCall.redeemed
  have consistent := midCall.consistent
  refine ⟨consistent.sound, fun pairing stored => .inl ?_, ?_, ?_⟩
  · rcases consistent.known pairing stored with known | own
    · exact List.mem_append_right _ known
    · exact List.mem_append_left _ (by simp [own])
  · intro entry member
    simp only [EnrollmentSystem.enroll, ledger] at member
    obtain ⟨known, rest⟩ := consistent.ledger entry member
    exact ⟨List.mem_append_right _ known, rest⟩
  · intro pairing stored redeemed
    simp only [EnrollmentSystem.enroll, ledger]
    exact consistent.recorded pairing stored redeemed

omit [CounterStore σ] in
theorem Sound.credentials (sound : system.Sound) (now : Int)
    {credentials : CredentialTables} {store : σ}
    (effect : TableEffect now system.state.credentials credentials) :
    ({ system with
      state := { system.state with credentials, store } } : EnrollmentSystem σ).Sound := by
  refine ⟨effect.sound sound.sound, sound.known, fun entry member => ?_, sound.recorded⟩
  obtain ⟨known, started, rows⟩ := sound.ledger entry member
  exact ⟨known, effect.progress.started started, rows⟩

theorem Step.sound (step : Step signer before event after) (sound : before.Sound) :
    after.Sound := by
  cases step with
  | enroll fresh => exact sound.enroll _ fresh
  | exchange => exact sound.credentials _ (TokenSystem.exchange_tableEffect signer _ before.tokens)
  | setOwners => exact sound.credentials 0 (.owners rfl)

theorem Runs.sound (runs : Runs signer before after) (sound : before.Sound) : after.Sound := by
  induction runs with
  | refl => exact sound
  | tail _ step induction =>
    obtain ⟨event, step⟩ := step
    exact step.sound induction

theorem Reachable.sound (reachable : Reachable signer system) : system.Sound := by
  obtain ⟨owners, store, runs⟩ := reachable
  refine runs.sound ⟨CredentialTables.sound_empty, ?_, nofun, ?_⟩
  all_goals exact fun pairing stored => (Table.not_mem_empty pairing stored).elim

theorem Reachable.named (reachable : Reachable signer system) : ∀ id ∈ system.drawn, id ≠ [] := by
  obtain ⟨owners, store, runs⟩ := reachable
  induction runs with
  | refl => exact nofun
  | tail _ step induction =>
    obtain ⟨event, step⟩ := step
    cases step with
    | @enroll call faults fresh =>
      intro id member
      rcases List.mem_append.mp member with own | old
      · rw [Option.mem_toList] at own
        cases call with
        | startDeviceGrant start =>
          cases own
          exact newCredentialID_ne_nil start.draws.id
        | mint minting =>
          cases own
          exact newCredentialID_ne_nil minting.draws.id
        | _ => cases own
      · exact induction id old
    | exchange | setOwners => exact induction

/-- A pairing that was created and is finished. -/
def Finished (system : EnrollmentSystem σ) (id : PairingID) : Prop :=
  id ∈ system.drawn ∧ FinishedRows id system.state

theorem Finished.midFinished (finished : system.Finished id)
    (call : EnrollmentCall) (faults : List Bool)
    (fresh : ∀ id, call.drawn = some id → id ∉ system.drawn) :
    ∃ trail, call.Concludes trail (system.enroll signer call faults).1 ∧
      MidFinished call id (system.enroll signer call faults).2.state
        trail := by
  have start : MidFinished call id system.state {} := ⟨finished.2, nofun⟩
  exact (EnrollmentCall.follows_program signer call).run
    (fun statement faulted state trail midFinished permitted =>
      midFinished.after_act (fun own => fresh id own finished.1)
        (EnrollmentEffect.ofReply statement faulted state) permitted)
    faults start

theorem Step.finished (step : Step signer before event after) (finished : before.Finished id) :
    after.Finished id := by
  cases step with
  | @enroll call faults fresh =>
    obtain ⟨trail, _, midFinished⟩ := finished.midFinished call faults fresh
    exact ⟨List.mem_append_right _ finished.1, midFinished.finished⟩
  | exchange | setOwners => exact finished

theorem Runs.finished (runs : Runs signer before after)
    (finished : before.Finished id) : after.Finished id := by
  induction runs with
  | refl => exact finished
  | tail _ step induction =>
    obtain ⟨event, step⟩ := step
    exact step.finished induction

/-- No `Redeem` of a finished pairing returns tokens. -/
theorem Finished.not_redeemed (finished : system.Finished id)
    {call : EnrollmentCall} (redeems : call.Redeems id) (faults : List Bool) (issued : Issued) :
    (system.enroll signer call faults).1 ≠ .ok (.tokens issued) := by
  intro returned
  obtain ⟨trail, concludes, midFinished⟩ := finished.midFinished call faults
    (fun other own => nomatch redeems.drawn.symm.trans own)
  obtain ⟨redemption, secret, rfl, parsed⟩ := redeems
  rw [returned] at concludes
  obtain ⟨pairing, _, marked, _⟩ := concludes
  obtain ⟨also, different⟩ := midFinished.redeemed _ marked
  exact different (also.unique ⟨redemption, secret, rfl, parsed⟩)

theorem Step.ended (step : Step signer before event after)
    (sound : before.Sound) (ended : before.state.credentials.Ended lineageID) :
    after.state.credentials.Ended lineageID := by
  cases step with
  | @enroll call faults fresh =>
    have start : MidEnded lineageID before.state {} := ⟨sound.sound, ended⟩
    obtain ⟨_, _, midEnded⟩ :=
      (EnrollmentCall.follows_program signer call).run
        (fun statement faulted state trail midEnded permitted =>
          midEnded.after_act (EnrollmentEffect.ofReply statement faulted state) permitted)
        faults start
    exact midEnded.ended
  | exchange =>
    exact (TokenSystem.exchange_tableEffect signer _ before.tokens).ended sound.sound ended
  | setOwners =>
    have effect : TableEffect 0 before.state.credentials
        { before.state.credentials with owners := _ } := .owners rfl
    exact effect.ended sound.sound ended

theorem Runs.ended (runs : Runs signer before after) (sound : before.Sound)
    (ended : before.state.credentials.Ended lineageID) :
    after.state.credentials.Ended lineageID := by
  induction runs with
  | refl => exact ended
  | tail earlier step induction =>
    obtain ⟨event, step⟩ := step
    exact step.ended (Runs.sound earlier sound) induction

/-! ## The revocation itself -/

section Revocation

variable {state : EnrollmentState σ} {pairing : DevicePairing} (stored : pairing ∈ state.pairings)
  (owned : pairing.ownerID ≠ [])

include stored owned

omit [CounterStore σ] in
theorem select_ownedBy : (state.pairings.select
      (DevicePairing.ownedBy pairing.ownerID pairing.id)).head? = some pairing := by
  have chosen : pairing ∈ state.pairings.select
      (DevicePairing.ownedBy pairing.ownerID pairing.id) :=
    Table.mem_select.mpr ⟨stored, DevicePairing.ownedBy_iff.mpr ⟨rfl, owned, rfl⟩⟩
  cases found : (state.pairings.select
      (DevicePairing.ownedBy pairing.ownerID pairing.id)).head? with
  | none =>
    rw [List.head?_eq_none_iff] at found
    rw [found] at chosen
    cases chosen
  | some other =>
    obtain ⟨otherStored, otherOwned⟩ := Table.mem_select.mp (List.mem_of_head? found)
    rw [Table.eq_of_key_eq otherStored stored (DevicePairing.ownedBy_iff.mp otherOwned).1]

theorem run_get : (DevicePairingRepository.get pairing.ownerID pairing.id).run
      enrollmentInterpreter [] state = (.ok pairing, state) := by
  have answer : (EnrollmentStatement.execute
      (.right (.select pairing.ownerID pairing.id)) state).1 = some pairing :=
    select_ownedBy stored owned
  simp only [DevicePairingRepository.get, askPairing, ask_bind,
    run_issue, List.headD_nil, reply_false, enrollmentInterpreter, answer]
  rfl

theorem run_revoke_redeemed (redeemed : pairing.status = .redeemed) (now : Int) :
    (revoke pairing.ownerID pairing.id now).run
      enrollmentInterpreter [] state = (.error (.of .conflict), state) := by
  have skipped : ∀ row ∈ state.pairings, ¬ row.revocable pairing.ownerID pairing.id = true := by
    intro row rowStored chosen
    obtain ⟨ownedRow, unfinished⟩ := DevicePairing.revocable_iff.mp chosen
    rw [Table.eq_of_key_eq rowStored stored
      (DevicePairing.ownedBy_iff.mp ownedRow).1, redeemed] at unfinished
    rcases unfinished with impossible | impossible <;> cases impossible
  have update : EnrollmentStatement.execute
      (.right (.updateRevoked pairing.ownerID pairing.id now)) state =
        (0, state) := EnrollmentState.updatePairings_of_none skipped
  have answer : (EnrollmentStatement.execute
      (.right (.selectStatus pairing.ownerID pairing.id)) state).1 = some pairing.status :=
    congrArg (Option.map DevicePairing.status) (select_ownedBy stored owned)
  simp only [revoke, askPairing, ask_bind, run_issue, List.headD_nil, List.tail_nil, reply_false,
    enrollmentInterpreter, update,
    classify, if_neg (Nat.lt_irrefl 0), answer]
  rfl

theorem run_revoke_live
    (live : pairing.status = .pending ∨ pairing.status = .approved) (now : Int) :
    (revoke pairing.ownerID pairing.id now).run
      enrollmentInterpreter [] state =
        (.ok (), (state.updatePairings (DevicePairing.revocable pairing.ownerID pairing.id)
          (DevicePairing.revoked now) (DevicePairing.id_revoked now)).2) := by
  have revocable : pairing.revocable pairing.ownerID pairing.id = true :=
    DevicePairing.revocable_iff.mpr ⟨DevicePairing.ownedBy_iff.mpr ⟨rfl, owned, rfl⟩, live⟩
  have affected : (EnrollmentStatement.execute
      (.right (.updateRevoked pairing.ownerID pairing.id now)) state).1 > 0 :=
    List.length_pos_of_mem (Table.mem_select.mpr ⟨stored, revocable⟩)
  simp only [revoke, askPairing, ask_bind, run_issue, List.headD_nil, List.tail_nil, reply_false,
    enrollmentInterpreter, classify, if_pos affected]
  rfl

/-- The call by which the owner of a pairing revokes it. -/
def revocation (pairing : DevicePairing) (now : Int) (calls : Nat → StoreCall) : EnrollmentCall :=
  .revoke { ownerID := pairing.ownerID, id := pairing.id, now, calls }

variable (named : pairing.id ≠ []) (now : Int) (calls : Nat → StoreCall)

include named

/-- A redeemed pairing is refused before its lineage is looked at. -/
theorem run_revocation_redeemed (redeemed : pairing.status = .redeemed) :
    ((revocation pairing now calls).program signer).run enrollmentInterpreter [] state =
      (.error (.wrap "auth: revoking device pairing" (.of .conflict)), state) := by
  simp [revocation, EnrollmentCall.program, revokePairing, run_bind_nil, run_get stored owned,
    run_revoke_redeemed stored owned redeemed, named, owned, Except.map]

/-- Any other pairing is revoked, and its row stays so. -/
theorem run_revocation_live (live : pairing.status = .pending ∨ pairing.status = .approved) :
    (((revocation pairing now calls).program signer).run enrollmentInterpreter
        [] state).2.pairings =
      (state.updatePairings
        (DevicePairing.revocable pairing.ownerID pairing.id) (DevicePairing.revoked now)
        (DevicePairing.id_revoked now)).2.pairings := by
  simp only [revocation, EnrollmentCall.program, revokePairing,
    List.isEmpty_iff, owned, named, or_self, if_false, if_true, ne_eq,
    ite_not, pure_eq_done, run_bind_nil,
    run_get stored owned, run_revoke_live stored owned live, run_done]
  split <;> rfl

end Revocation

/-- Whatever a `Redeem` of the pairing issued is dead: its credentials are
revoked, and neither they nor the pairing ever yield tokens again. -/
structure Killed (signer : AccessTokenSigner) (system : EnrollmentSystem σ)
    (id : PairingID) : Prop where
  revoked : ∀ lineageID, (id, lineageID) ∈ system.issued →
    ∀ credential ∈ system.state.credentials.lineage lineageID, credential.status = .revoked
  notExchanged : ∀ lineageID, (id, lineageID) ∈ system.issued →
    ∀ later, Runs signer system later → ∀ call : ExchangeCall,
      later.state.credentials.PresentsLineage call.presented lineageID →
      ∀ issued, (later.exchange signer call).1 ≠ .ok issued
  notRedeemed : ∀ later, Runs signer system later →
    ∀ call : EnrollmentCall, call.Redeems id → ∀ faults issued,
      (later.enroll signer call faults).1 ≠ .ok (.tokens issued)

theorem Finished.killed (finished : system.Finished id) (sound : system.Sound)
    (revoked : ∀ lineageID, (id, lineageID) ∈ system.issued →
      ∀ credential ∈ system.state.credentials.lineage lineageID,
        credential.status = .revoked) : Killed signer system id := by
  refine ⟨revoked, ?_, ?_⟩
  · intro lineageID entry later runs call presents issued returned
    have ended : system.state.credentials.Ended lineageID := by
      refine ⟨(sound.ledger _ entry).2.1, fun credential member active => ?_⟩
      cases (revoked lineageID entry credential member).symm.trans active
    have refused : ∃ failure, (later.tokens.exchange signer call).1 = .error failure :=
      TokenSystem.exchange_error_of_inactive (runs.ended sound ended).2 presents
    obtain ⟨failure, failed⟩ := refused
    cases returned.symm.trans failed
  · intro later runs call redeems faults issued
    exact (runs.finished finished).not_redeemed redeems faults issued

/-- The revocation of any other pairing finishes it. -/
theorem finished_revocation (stored : pairing ∈ system.state.pairings)
    (drawn : pairing.id ∈ system.drawn) (named : pairing.id ≠ []) (owned : pairing.ownerID ≠ [])
    (live : pairing.status = .pending ∨ pairing.status = .approved) (now : Int)
    (calls : Nat → StoreCall) :
    (system.enroll signer (revocation pairing now calls) []).2.Finished
      pairing.id := by
  refine ⟨List.mem_append_right _ drawn, fun row rowStored sameID => ?_⟩
  simp only [enroll, run_revocation_live stored owned named now calls live] at rowStored
  obtain ⟨previous, old, rfl⟩ := EnrollmentState.mem_updatePairings.mp rowStored
  have previousID : previous.id = pairing.id := by
    rw [← sameID]
    split <;> rfl
  have same := Table.eq_of_key_eq old stored previousID
  subst same
  rw [if_pos (DevicePairing.revocable_iff.mpr
    ⟨DevicePairing.ownedBy_iff.mpr ⟨rfl, owned, rfl⟩, live⟩)]
  exact .inr rfl

theorem killed_revocation_iff (reachable : Reachable signer system)
    {pairing : DevicePairing} (stored : pairing ∈ system.state.pairings)
    (owned : pairing.ownerID ≠ []) (unrevoked : pairing.status ≠ .revoked)
    (now : Int) (calls : Nat → StoreCall) :
    Killed signer (system.enroll signer (revocation pairing now calls) []).2 pairing.id ↔
      pairing.status ≠ .redeemed ∨
        ∀ credential ∈ system.state.credentials.lineage pairing.lineageID,
          credential.status = .revoked := by
  have sound := reachable.sound
  have drawn : pairing.id ∈ system.drawn := (sound.known pairing stored).resolve_right nofun
  have named := reachable.named pairing.id drawn
  by_cases redeemed : pairing.status = .redeemed
  · have same : (system.enroll signer (revocation pairing now calls) []).2 = system := by
      simp only [enroll, run_revocation_redeemed stored owned named now calls redeemed]
      rfl
    rw [same]
    have entry := sound.recorded pairing stored redeemed
    constructor
    · exact fun killed => .inr (killed.revoked pairing.lineageID entry)
    rintro (unredeemed | revoked)
    · exact (unredeemed redeemed).elim
    refine Finished.killed ⟨drawn, fun row rowStored sameID => ?_⟩ sound
      fun lineageID other => ?_
    · rw [Table.eq_of_key_eq rowStored stored sameID]
      exact .inl redeemed
    · have same : pairing.lineageID = lineageID :=
        ((sound.ledger _ other).2.2 pairing stored rfl).2
      exact same ▸ revoked
  · have live : pairing.status = .pending ∨ pairing.status = .approved := by
      cases status : pairing.status with
      | pending => exact .inl rfl
      | approved => exact .inr rfl
      | redeemed => exact (redeemed status).elim
      | revoked => exact (unrevoked status).elim
    refine iff_of_true ?_ (.inl redeemed)
    refine Finished.killed (finished_revocation stored drawn named owned live
      now calls) (sound.enroll [] nofun) fun lineageID entry => ?_
    exact (redeemed ((sound.ledger _ entry).2.2 pairing stored rfl).1).elim

end EnrollmentSystem

/-! ## One pairing, minted and redeemed -/

namespace Sample

def pairingDraws : PairingDraws where
  id := ⟨List.replicate credentialIDBytes 9, by simp⟩
  secret := ⟨List.replicate pairingSecretBytes 9, by simp⟩
  userCode := ⟨List.replicate userCodeLen 9, by simp⟩

def mintCall : MintCall where
  ownerID := alice.id
  clientLabel := utf8 "laptop"
  scopes := [{ kind := .readOnly, resourceID := [] }]
  approved := 0
  now := 0
  draws := pairingDraws

/-- Redeem the device code of the minted pairing. -/
def redeemCall (byte : UInt8) : RedeemCall where
  deviceCode := formatDeviceCode (newPairingID pairingDraws.id) pairingDraws.secret.val
  authenticatedAt := Duration.minute
  now := Duration.minute
  draws := draws byte
  calls := fun _ => { now := Duration.minute }

def approvedPairing : DevicePairing :=
  newPairing (mintedPairing alice.id mintCall.clientLabel mintCall.scopes 0) 0
    pairingDraws

def minted : EnrollmentSystem MemoryStore :=
  ((EnrollmentSystem.initial owners MemoryStore.new).enroll (signer []) (.mint mintCall) []).2

def redeemedPairing : DevicePairing :=
  approvedPairing.redeemed (newCredentialID (draws 1).credentialID)
    Duration.minute

def redeemed : EnrollmentSystem MemoryStore :=
  (minted.enroll (signer []) (.redeem (redeemCall 1)) []).2

def revokeCalls : Nat → StoreCall :=
  fun _ => { now := 2 * Duration.minute }

theorem reachable_minted : EnrollmentSystem.Reachable (signer []) minted :=
  ⟨owners, MemoryStore.new, .single ⟨_, .enroll nofun⟩⟩

theorem reachable_redeemed : EnrollmentSystem.Reachable (signer []) redeemed := by
  obtain ⟨owners, store, runs⟩ := reachable_minted
  exact ⟨owners, store, runs.tail ⟨_, .enroll nofun⟩⟩

end Sample

open Sample

theorem killed_approved_pairing : approvedPairing ∈ minted.state.pairings ∧
    EnrollmentSystem.Killed (signer []) (minted.enroll (signer [])
        (EnrollmentSystem.revocation approvedPairing (2 * Duration.minute) revokeCalls) []).2
      approvedPairing.id := by
  have stored : approvedPairing ∈ minted.state.pairings := by
    decide +kernel
  exact ⟨stored, (EnrollmentSystem.killed_revocation_iff
    reachable_minted stored (by decide) (by decide) _ _).mpr (.inl (by decide))⟩

theorem redeemed_pairing_survives_revocation : EnrollmentSystem.Reachable (signer []) redeemed ∧
    redeemedPairing ∈ redeemed.state.pairings ∧
    redeemedPairing.ownerID = alice.id ∧
    redeemedPairing.status ≠ .revoked ∧
    ¬ EnrollmentSystem.Killed (signer []) (redeemed.enroll (signer [])
        (EnrollmentSystem.revocation redeemedPairing (2 * Duration.minute) revokeCalls) []).2
      redeemedPairing.id := by
  refine ⟨reachable_redeemed, by decide +kernel, rfl, by decide,
    fun killed => ?_⟩
  have revoked := killed.revoked redeemedPairing.lineageID (by
    decide +kernel)
  revert revoked
  decide +kernel

end Vallet.Auth
