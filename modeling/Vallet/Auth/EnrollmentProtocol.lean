import Vallet.Auth.Enrollment
import Vallet.Foundation.Protocol

/-!
# The protocol of enrollment

Every statement of an enrollment call is summed up by what it did to pairings
and credentials.  Here each statement is tied to its effect on the tables, and
each program to the acts it may perform; both hold whatever happens between
two statements.
-/

namespace Vallet.Auth

open Counter Effects Relational

/-- What one statement did. -/
inductive PairingAct where
  | quiet
  | faulted
  | created (pairing : DevicePairing)
  | approved (id : PairingID) (ownerID : OwnerID) (now : Int)
  | read (pairing : DevicePairing)
  | redeemed (id : PairingID) (ownerID : OwnerID) (lineageID : LineageID) (now : Int)
  | revoked (id : PairingID) (ownerID : OwnerID) (now : Int)
  | minted (credential : RefreshCredential)
  | burned (ownerID : OwnerID) (lineageID : LineageID) (now : Int)
  | rotated

def CredentialStatement.act {β : Type} : CredentialStatement β → β → PairingAct
  | .insert credential, .inserted => .minted credential
  | .updateRotated _ _, _ => .rotated
  | .updateLineageRevoked ownerID lineageID now, _ => .burned ownerID lineageID now
  | _, _ => .quiet

def PairingStatement.act {β : Type} : PairingStatement β → β → PairingAct
  | .insertPairing pairing, .inserted => .created pairing
  | .select _ _, some pairing => .read pairing
  | .updateApproved id ownerID now, affected =>
    if affected > 0 then .approved id ownerID now else .quiet
  | .updateRedeemed ownerID id lineageID now, affected =>
    if affected > 0 then .redeemed id ownerID lineageID now else .quiet
  | .updateRevoked ownerID id now, affected =>
    if affected > 0 then .revoked id ownerID now else .quiet
  | _, _ => .quiet

def EnrollmentStatement.act {β : Type} : EnrollmentStatement β → Except Fault β → PairingAct
  | _, .error _ => .faulted
  | .left statement, .ok answer => statement.act answer
  | .right statement, .ok answer => statement.act answer

theorem EnrollmentStatement.act_ok_ne_faulted {β : Type}
    (statement : EnrollmentStatement β) (answer : β) : statement.act (.ok answer) ≠ .faulted := by
  cases statement with
  | left statement =>
    cases statement with
    | insert credential => cases answer <;> exact nofun
    | _ => exact nofun
  | right statement =>
    simp only [EnrollmentStatement.act]
    cases statement with
    | insertPairing | select => cases answer <;> exact nofun
    | updateApproved | updateRedeemed | updateRevoked =>
      simp only [PairingStatement.act]
      split <;> exact nofun
    | _ => exact nofun

/-- A redemption that changed its row. -/
structure Redemption where
  id : PairingID
  ownerID : OwnerID
  lineageID : LineageID
deriving DecidableEq

/-- What a call has done so far.  `bound` is the pairing whose owner the call
set, by creating it approved or by approving it. -/
structure PairingTrail where
  created : Option DevicePairing := none
  bound : Option (PairingID × OwnerID) := none
  read : Option DevicePairing := none
  minted : Option RefreshCredential := none
  redeemed : Option Redemption := none
  burned : Option (OwnerID × LineageID) := none
  faulted : Bool := false

namespace PairingTrail

def record : PairingAct → PairingTrail → PairingTrail
  | .created pairing, trail =>
    { trail with
      created := some pairing
      bound := if pairing.ownerID = [] then trail.bound
        else some (pairing.id, pairing.ownerID) }
  | .approved id ownerID _, trail => { trail with bound := some (id, ownerID) }
  | .read pairing, trail => { trail with read := some pairing }
  | .minted credential, trail => { trail with minted := some credential }
  | .redeemed id ownerID lineageID _, trail =>
    { trail with redeemed := some { id, ownerID, lineageID } }
  | .burned ownerID lineageID _, trail => { trail with burned := some (ownerID, lineageID) }
  | .faulted, trail => { trail with faulted := true }
  | .quiet, trail => trail
  | .revoked _ _ _, trail => trail
  | .rotated, trail => trail

variable {trail : PairingTrail} {act : PairingAct}

theorem redeemed_record {redemption : Redemption}
    (redeemed : (trail.record act).redeemed = some redemption) :
    (∃ now, act = .redeemed redemption.id redemption.ownerID
      redemption.lineageID now) ∨ trail.redeemed = some redemption := by
  cases act with
  | redeemed id ownerID lineageID now =>
    cases redeemed
    exact .inl ⟨now, rfl⟩
  | _ => exact .inr redeemed

theorem minted_record {root : RefreshCredential} (minted : (trail.record act).minted = some root) :
    act = .minted root ∨ trail.minted = some root := by
  cases act with
  | minted other =>
    cases minted
    exact .inl rfl
  | _ => exact .inr minted

end PairingTrail

def enrollmentLabelling : Labelling EnrollmentStatement PairingAct PairingTrail where
  label := EnrollmentStatement.act
  record := PairingTrail.record

/-- The calls that may set the owner of a pairing to theirs. -/
def EnrollmentCall.Binds (call : EnrollmentCall) (ownerID : OwnerID) : Prop :=
  (∃ mint, call = .mint mint ∧ mint.ownerID = ownerID) ∨
    ∃ approve, call = .approve approve ∧ approve.ownerID = ownerID

/-- A credential that `Issue` creates. -/
def IsRootCredential (credential : RefreshCredential) : Prop :=
  ∃ ownerID scopes clientLabel now draws,
    credential = rootCredential ownerID scopes clientLabel now draws ∧
      ownerID ≠ [] ∧ validateScopes scopes = .ok ()

/-- The acts a call may perform after what it has done. -/
def EnrollmentCall.Permits (call : EnrollmentCall) (trail : PairingTrail) : PairingAct → Prop
  | .created pairing =>
    trail.created = none ∧ trail.bound = none ∧
    call.drawn = some pairing.id ∧ pairing.lineageID = [] ∧
    ((pairing.status = .pending ∧ pairing.ownerID = []) ∨
      (pairing.status = .approved ∧ pairing.ownerID ≠ [] ∧ call.Binds pairing.ownerID))
  | .approved _ ownerID _ => trail.bound = none ∧ ownerID ≠ [] ∧ call.Binds ownerID
  | .read _ => trail.read = none
  | .minted credential =>
    trail.minted = none ∧ trail.burned = none ∧ IsRootCredential credential
  | .redeemed id ownerID lineageID _ =>
    trail.redeemed = none ∧ call.Redeems id ∧
    ∃ root, trail.minted = some root ∧ root.ownerID = ownerID ∧ root.lineageID = lineageID
  | .burned _ _ _ => trail.burned = none
  | .rotated => False
  | .revoked _ _ _ => True
  | .quiet => True
  | .faulted => True

/-- What the result of a `Redeem` says about its trail. -/
def EnrollmentCall.Concludes (trail : PairingTrail) :
    EnrollmentCall → Except Err EnrollmentAnswer → Prop
  | .redeem _, .ok (.tokens issued) =>
    ∃ pairing, trail.read = some pairing ∧
      trail.redeemed = some {
        id := pairing.id
        ownerID := pairing.ownerID
        lineageID := issued.lineageID } ∧
      issued.ownerID = pairing.ownerID ∧ issued.scopes = pairing.scopes
  | .redeem _, .ok _ => False
  | .redeem _, .error _ =>
    trail.redeemed = none ∧
    (trail.faulted = false → ∀ root, trail.minted = some root →
      trail.burned = some (root.ownerID, root.lineageID))
  | _, _ => True

/-! ## What a statement does to the tables -/

/-- The tables before and after a statement that performed an act. -/
inductive EnrollmentEffect {σ : Type} (before after : EnrollmentState σ) : PairingAct → Prop where
  | quiet (credentials : after.credentials = before.credentials)
      (pairings : ∀ pairing ∈ after.pairings, ∃ previous ∈ before.pairings,
        ∃ nextPollAt, pairing = previous.touched nextPollAt) :
      EnrollmentEffect before after .quiet
  | faulted (unchanged : after = before) : EnrollmentEffect before after .faulted
  | created {pairing : DevicePairing} (credentials : after.credentials = before.credentials)
      (inserted : before.pairings.insert? pairing = some after.pairings) :
      EnrollmentEffect before after (.created pairing)
  | approved {id : PairingID} {ownerID : OwnerID} {now : Int}
      (credentials : after.credentials = before.credentials)
      (found : ∃ pairing ∈ before.pairings, pairing.approvable id = true)
      (updated : after.pairings = before.pairings.update
        (DevicePairing.approvable id) (DevicePairing.approved ownerID now)
        (DevicePairing.id_approved ownerID now)) :
      EnrollmentEffect before after (.approved id ownerID now)
  | read {pairing : DevicePairing} (unchanged : after = before)
      (stored : pairing ∈ before.pairings) :
      EnrollmentEffect before after (.read pairing)
  | redeemed {id : PairingID} {ownerID : OwnerID} {lineageID : LineageID}
      {now : Int} (credentials : after.credentials = before.credentials)
      (found : ∃ pairing ∈ before.pairings, pairing.redeemable ownerID id = true)
      (updated : after.pairings = before.pairings.update (DevicePairing.redeemable ownerID id)
        (DevicePairing.redeemed lineageID now) (DevicePairing.id_redeemed lineageID now)) :
      EnrollmentEffect before after (.redeemed id ownerID lineageID now)
  | revoked {id : PairingID} {ownerID : OwnerID} {now : Int}
      (credentials : after.credentials = before.credentials)
      (updated : after.pairings = before.pairings.update
        (DevicePairing.revocable ownerID id) (DevicePairing.revoked now)
        (DevicePairing.id_revoked now)) :
      EnrollmentEffect before after (.revoked id ownerID now)
  | minted {credential : RefreshCredential} (pairings : after.pairings = before.pairings)
      (insertion : before.credentials.insertCredential credential =
        (.inserted, after.credentials)) :
      EnrollmentEffect before after (.minted credential)
  | burned {ownerID : OwnerID} {lineageID : LineageID} {now : Int}
      (pairings : after.pairings = before.pairings) (updated : after.credentials =
        before.credentials.revokeLineageRows ownerID lineageID now) :
      EnrollmentEffect before after (.burned ownerID lineageID now)
  | rotated : EnrollmentEffect before after .rotated

namespace EnrollmentEffect

variable {σ : Type} {before after : EnrollmentState σ}

theorem unchanged (credentials : after.credentials = before.credentials)
    (pairings : after.pairings = before.pairings) : EnrollmentEffect before after .quiet := by
  refine .quiet credentials fun pairing stored => ?_
  rw [pairings] at stored
  exact ⟨pairing, stored, pairing.nextPollAt, rfl⟩

/-- A conditional update that affected a row performed its act, and one that
affected none changed nothing. -/
theorem ofUpdate (state : EnrollmentState σ) {chosen : DevicePairing → Bool}
    {change : DevicePairing → DevicePairing}
    {keepsID : ∀ pairing, (change pairing).id = pairing.id} {act : PairingAct}
    (performed : (∃ pairing ∈ state.pairings, chosen pairing = true) →
      EnrollmentEffect state (state.updatePairings chosen change keepsID).2 act) :
    EnrollmentEffect state (state.updatePairings chosen change keepsID).2
      (if (state.updatePairings chosen change keepsID).1 > 0 then act
        else .quiet) := by
  by_cases affected : (state.updatePairings chosen change keepsID).1 > 0
  · rw [if_pos affected]
    apply performed
    obtain ⟨pairing, selected⟩ := List.exists_mem_of_length_pos affected
    exact ⟨pairing, (Table.mem_select.mp selected).1, (Table.mem_select.mp selected).2⟩
  · rw [if_neg affected]
    have none : state.pairings.select chosen = [] :=
      List.eq_nil_of_length_eq_zero (Nat.eq_zero_of_not_pos affected)
    rw [EnrollmentState.updatePairings_of_none (List.filter_eq_nil_iff.mp none)]
    exact .unchanged rfl rfl

theorem ofCredentials {β : Type} (statement : CredentialStatement β) (state : EnrollmentState σ) :
    EnrollmentEffect state { state with credentials := (statement.execute state.credentials).2 }
      (statement.act (statement.execute state.credentials).1) := by
  cases statement with
  | selectOwner | selectByID | selectStatus | selectLineage => exact .unchanged rfl rfl
  | insert credential =>
    simp only [CredentialStatement.execute]
    rcases insertion : state.credentials.insertCredential credential with
      ⟨answer, tables⟩
    cases answer with
    | inserted => exact .minted rfl insertion
    | duplicateKey =>
      refine .unchanged ?_ rfl
      unfold CredentialTables.insertCredential at insertion
      split at insertion
      · cases insertion
        rfl
      · split at insertion <;> cases insertion
    | constraintFailed =>
      refine .unchanged ?_ rfl
      unfold CredentialTables.insertCredential at insertion
      split at insertion
      · cases insertion
      · split at insertion <;> cases insertion
        rfl
  | updateRotated ownerID id => exact .rotated
  | updateLineageRevoked ownerID lineageID now => exact .burned rfl rfl

variable [CounterStore σ]

theorem ofPairings {β : Type} (statement : PairingStatement β) (state : EnrollmentState σ) :
    EnrollmentEffect state (statement.execute state).2
      (statement.act (statement.execute state).1) := by
  cases statement with
  | insertPairing pairing =>
    simp only [PairingStatement.execute, EnrollmentState.insertPairing]
    cases inserted : state.pairings.insert? pairing with
    | none => exact .unchanged rfl rfl
    | some pairings => exact .created rfl inserted
  | select ownerID id =>
    simp only [PairingStatement.execute]
    cases found : (state.pairings.select (DevicePairing.ownedBy ownerID id)).head? with
    | none => exact .unchanged rfl rfl
    | some pairing => exact .read rfl (Table.mem_select.mp (List.mem_of_head? found)).1
  | updateApproved id ownerID now => exact .ofUpdate state fun found => .approved rfl found rfl
  | updateRedeemed ownerID id lineageID now =>
    exact .ofUpdate state fun found => .redeemed rfl found rfl
  | updateRevoked ownerID id now => exact .ofUpdate state fun found => .revoked rfl rfl
  | updateNextPollAt id nextPollAt =>
    refine .quiet rfl fun pairing stored => ?_
    obtain ⟨previous, previousStored, rfl⟩ := EnrollmentState.mem_updatePairings.mp stored
    by_cases named : previous.id = id
    · exact ⟨previous, previousStored, nextPollAt, by simp [named]⟩
    · exact ⟨previous, previousStored, previous.nextPollAt, by
        simp [named, DevicePairing.touched]⟩
  | deleteExpired cutoff limit =>
    refine .quiet rfl fun pairing stored => ?_
    exact ⟨pairing, (Table.mem_delete.mp stored).1, pairing.nextPollAt, rfl⟩
  | insertLink link =>
    simp only [PairingStatement.execute, EnrollmentState.insertLink]
    split
    · exact .unchanged rfl rfl
    split
    · exact .unchanged rfl rfl
    split
    all_goals exact .unchanged rfl rfl
  | selectByID | selectByUserCodeHash | selectStatusByID | selectStatus | selectLink | increment
  | listRevoked => exact .unchanged rfl rfl

/-- Every statement, answered or faulted, has the effect of its act. -/
theorem ofReply {β : Type} (statement : EnrollmentStatement β)
    (faulted : Bool) (state : EnrollmentState σ) :
    EnrollmentEffect state (Program.reply enrollmentInterpreter faulted statement state).2
      (statement.act (Program.reply enrollmentInterpreter faulted statement state).1) := by
  cases faulted with
  | true => exact .faulted rfl
  | false =>
    cases statement with
    | left statement => exact .ofCredentials statement state
    | right statement => exact .ofPairings statement state

end EnrollmentEffect

end Vallet.Auth

namespace Vallet.DevicePairing

/-! ## What a statement does to a row -/

/-- What a pairing keeps through every statement but the three that create,
approve and redeem it. -/
structure Keeps (before after : DevicePairing) : Prop where
  id : after.id = before.id
  scopes : after.scopes = before.scopes
  ownerID : after.ownerID = before.ownerID
  lineageID : after.lineageID = before.lineageID
  pending : after.status = .pending → before.status = .pending
  redeemed : after.status = .redeemed ↔ before.status = .redeemed
  revoked : before.status = .revoked → after.status = .revoked

theorem keeps_touched (pairing : DevicePairing) (nextPollAt : Int) :
    pairing.Keeps (pairing.touched nextPollAt) :=
  ⟨rfl, rfl, rfl, rfl, fun pending => pending, Iff.rfl,
    fun revoked => revoked⟩

theorem keeps_refl (pairing : DevicePairing) : pairing.Keeps pairing :=
  pairing.keeps_touched pairing.nextPollAt

theorem keeps_revoked {pairing : DevicePairing} {ownerID : OwnerID} {id : PairingID} (now : Int)
    (revocable : pairing.revocable ownerID id = true) : pairing.Keeps (pairing.revoked now) := by
  refine ⟨rfl, rfl, rfl, rfl, nofun, ⟨nofun, ?_⟩, fun _ => rfl⟩
  intro redeemed
  have unfinished := (revocable_iff.mp revocable).2
  rw [redeemed] at unfinished
  rcases unfinished with impossible | impossible <;> cases impossible

end Vallet.DevicePairing

namespace Vallet.Auth

open Counter Effects Relational

/-- The pairing whose row an approval or a redemption changes. -/
def PairingAct.target : PairingAct → Option PairingID
  | .approved id _ _ => some id
  | .redeemed id _ _ _ => some id
  | _ => none

/-- How a statement changes a row. -/
inductive RowChange : PairingAct → DevicePairing → DevicePairing → Prop where
  | keeps {act : PairingAct} {before after : DevicePairing}
      (elsewhere : act.target ≠ some before.id)
      (keeps : before.Keeps after) : RowChange act before after
  | approved {pairing : DevicePairing} {ownerID : OwnerID} {now : Int}
      (pending : pairing.status = .pending) :
      RowChange (.approved pairing.id ownerID now) pairing (pairing.approved ownerID now)
  | redeemed {pairing : DevicePairing} {lineageID : LineageID} {now : Int}
      (owned : pairing.ownerID ≠ []) (approved : pairing.status = .approved) :
      RowChange (.redeemed pairing.id pairing.ownerID lineageID now) pairing
        (pairing.redeemed lineageID now)

variable {before after : DevicePairing}

theorem RowChange.id {act : PairingAct}
    (change : RowChange act before after) : after.id = before.id := by
  cases change with
  | keeps _ keeps => exact keeps.id
  | approved | redeemed => rfl

theorem RowChange.scopes {act : PairingAct}
    (change : RowChange act before after) : after.scopes = before.scopes := by
  cases change with
  | keeps _ keeps => exact keeps.scopes
  | approved | redeemed => rfl

/-- A row that is not chosen is not the row the act names. -/
theorem RowChange.unchosen {pairings : Table DevicePairing.id} {chosen : DevicePairing → Bool}
    {act : PairingAct} {row : DevicePairing} (found : ∃ target ∈ pairings, chosen target = true)
    (named : ∀ target, chosen target = true → act.target = some target.id)
    (stored : row ∈ pairings) (spared : ¬ chosen row = true) : RowChange act row row := by
  refine .keeps (fun targeted => spared ?_) row.keeps_refl
  obtain ⟨target, targetStored, matched⟩ := found
  have sameID := Option.some.inj ((named target matched).symm.trans targeted)
  exact Table.eq_of_key_eq targetStored stored sameID ▸ matched

namespace EnrollmentEffect

variable {σ : Type} {before after : EnrollmentState σ} {act : PairingAct}

theorem row (effect : EnrollmentEffect before after act)
    (known : act ≠ .rotated) {pairing : DevicePairing} (stored : pairing ∈ after.pairings) :
    act = .created pairing ∨ ∃ previous ∈ before.pairings, RowChange act previous pairing := by
  have same (untargeted : act.target = none) (old : pairing ∈ before.pairings) :
      ∃ previous ∈ before.pairings, RowChange act previous pairing :=
    ⟨pairing, old, .keeps (by simp [untargeted]) pairing.keeps_refl⟩
  cases effect with
  | quiet credentials pairings =>
    obtain ⟨previous, previousStored, nextPollAt, rfl⟩ := pairings pairing stored
    exact .inr ⟨previous, previousStored, .keeps nofun (previous.keeps_touched nextPollAt)⟩
  | faulted unchanged | read unchanged read => exact .inr (same rfl (unchanged ▸ stored))
  | minted pairings insertion | burned pairings updated => exact .inr (same rfl (pairings ▸ stored))
  | created credentials inserted =>
    rcases (Table.mem_insert inserted).mp stored with old | rfl
    · exact .inr (same rfl old)
    · exact .inl rfl
  | @approved id ownerID now credentials found updated =>
    rw [updated, Table.mem_update] at stored
    obtain ⟨previous, previousStored, rfl⟩ := stored
    refine .inr ⟨previous, previousStored, ?_⟩
    by_cases chosen : previous.approvable id = true
    · rw [if_pos chosen]
      obtain ⟨rfl, pending⟩ := DevicePairing.approvable_iff.mp chosen
      exact .approved pending
    · rw [if_neg chosen]
      exact .unchosen found (fun _ approvable =>
        congrArg some (DevicePairing.approvable_iff.mp approvable).1.symm) previousStored chosen
  | @redeemed id ownerID lineageID now credentials found updated =>
    rw [updated, Table.mem_update] at stored
    obtain ⟨previous, previousStored, rfl⟩ := stored
    refine .inr ⟨previous, previousStored, ?_⟩
    by_cases chosen : previous.redeemable ownerID id = true
    · rw [if_pos chosen]
      obtain ⟨owned, approved⟩ := DevicePairing.redeemable_iff.mp chosen
      obtain ⟨rfl, named, rfl⟩ := DevicePairing.ownedBy_iff.mp owned
      exact .redeemed named approved
    · rw [if_neg chosen]
      refine .unchosen found (fun _ redeemable => ?_) previousStored chosen
      obtain ⟨owned, _⟩ := DevicePairing.redeemable_iff.mp redeemable
      exact congrArg some (DevicePairing.ownedBy_iff.mp owned).1.symm
  | @revoked id ownerID now credentials updated =>
    rw [updated, Table.mem_update] at stored
    obtain ⟨previous, previousStored, rfl⟩ := stored
    refine .inr ⟨previous, previousStored, .keeps nofun ?_⟩
    by_cases chosen : previous.revocable ownerID id = true
    · rw [if_pos chosen]
      exact DevicePairing.keeps_revoked now chosen
    · rw [if_neg chosen]
      exact previous.keeps_refl
  | rotated => exact (known rfl).elim

variable {lineageID : LineageID} {id : PairingID}

theorem redeemedRows {ownerID : OwnerID} {now : Int} (effect : EnrollmentEffect before after
      (.redeemed id ownerID lineageID now)) {pairing : DevicePairing}
    (stored : pairing ∈ after.pairings) (sameID : pairing.id = id) :
    pairing.status = .redeemed ∧ pairing.lineageID = lineageID := by
  rcases effect.row nofun stored with impossible | ⟨previous, _, change⟩
  · cases impossible
  generalize performed : PairingAct.redeemed id ownerID lineageID now = act at change
  cases change with
  | keeps elsewhere keeps =>
    subst performed
    exact (elsewhere (congrArg some (sameID.symm.trans keeps.id))).elim
  | approved => cases performed
  | redeemed => exact ⟨rfl, (PairingAct.redeemed.inj performed).2.2.1.symm⟩

/-- A pairing redeemed for a lineage stays so, unless it is created anew. -/
theorem redeemedRows_after (effect : EnrollmentEffect before after act) (known : act ≠ .rotated)
    (fresh : ∀ created, act = .created created → created.id ≠ id)
    (rows : ∀ pairing ∈ before.pairings, pairing.id = id →
      pairing.status = .redeemed ∧ pairing.lineageID = lineageID) :
    ∀ pairing ∈ after.pairings, pairing.id = id →
      pairing.status = .redeemed ∧ pairing.lineageID = lineageID := by
  intro pairing stored sameID
  rcases effect.row known stored with created | ⟨previous, old, change⟩
  · exact (fresh pairing created sameID).elim
  obtain ⟨status, lineage⟩ := rows previous old (change.id.symm.trans sameID)
  cases change with
  | keeps elsewhere keeps => exact ⟨keeps.redeemed.mpr status, keeps.lineageID.trans lineage⟩
  | approved pending => cases status.symm.trans pending
  | redeemed owned approved => cases status.symm.trans approved

/-- A redemption found its row approved for the owner. -/
theorem redeemable {ownerID : OwnerID} {now : Int} (effect : EnrollmentEffect before after
      (.redeemed id ownerID lineageID now)) :
    ∃ pairing ∈ before.pairings, pairing.id = id ∧ ownerID ≠ [] ∧
      pairing.ownerID = ownerID ∧ pairing.status = .approved := by
  cases effect with
  | redeemed credentials found updated =>
    obtain ⟨target, stored, redeemable⟩ := found
    obtain ⟨owned, approved⟩ := DevicePairing.redeemable_iff.mp redeemable
    obtain ⟨sameID, named, owner⟩ := DevicePairing.ownedBy_iff.mp owned
    exact ⟨target, stored, sameID, owner ▸ named, owner, approved⟩

end EnrollmentEffect

end Vallet.Auth
