import Vallet.Auth.ConcurrentExchange
import Vallet.Auth.LineageSafety

/-!
# Burned lineages under concurrent exchanges

A transaction that has revoked a lineage leaves it dead, and a dead lineage
stays dead, because every credential that a transaction would commit unrevoked
is backed by an active one.  Two schedules show what the window is: a rotation
that commits while the revocation is under way leaves an active successor, and
one that commits before does not.
-/

namespace Vallet.Auth

open Counter Effects Relational ExchangeDatabase Database ExchangeTransaction

/-! ## Burned lineages -/

/-- No credential of the lineage can be exchanged any more. -/
def Dead (lineageID : LineageID) (committed : Table RefreshCredential.id) : Prop :=
  ∀ row ∈ committed, row.lineageID = lineageID → row.status = .revoked

section Burned

variable {signer : AccessTokenSigner} {lineageID : LineageID}
  {owners : Table Owner.id} {committed : Table RefreshCredential.id}
  {transaction : ExchangeTransaction signer}

section

variable (faithful : Faithful lineageID committed transaction)

include faithful

/-- A transaction of a dead lineage has nothing but revocations to commit. -/
theorem Faithful.revoked_of_dead (dead : Dead lineageID committed) {row : RefreshCredential}
    (written : row ∈ transaction.pending)
    (lineage : row.lineageID = lineageID) : row.status = .revoked := by
  by_contra unrevoked
  obtain ⟨parent, member, sameLineage, active, _⟩ := faithful.backed.active row written unrevoked
  rw [dead parent member (sameLineage.trans lineage)] at active
  cases active

theorem Faithful.dead_after_commit
    (dead : Dead lineageID committed) : Dead lineageID (transaction.view committed) := by
  intro row member lineage
  rcases Transaction.mem_view.mp member with written | ⟨stored, _⟩
  · exact faithful.revoked_of_dead dead written lineage
  · exact dead row stored lineage

/-- A transaction that has revoked the lineage leaves it dead. -/
theorem Faithful.dead_of_burned
    {credential : RefreshCredential} (burned : transaction.thread.trail = .burned credential)
    (lineage : credential.lineageID = lineageID) : Dead lineageID (transaction.view committed) := by
  have covers : Covers committed transaction.pending [] lineageID := by
    cases faithful.stage with
    | burned phase idle covers =>
      rw [burned] at phase
      cases phase
      exact covers lineage
    | unread phase | read phase | rotating phase | rotated phase
    | inserted phase | burning phase =>
      rw [burned] at phase
      cases phase
  intro row member sameLineage
  rcases Transaction.mem_view.mp member with written | ⟨stored, untouched⟩
  · exact covers.revokes row written
  rcases covers.visits row stored sameLineage with
    revoked | ⟨version, written, sameID⟩ | impossible
  · exact revoked
  · exact (untouched (sameID ▸ Transaction.touches_of_mem written)).elim
  · cases impossible

theorem Faithful.issues_none
    (dead : Dead lineageID committed) {outcome : ExchangeOutcome} {issued : Issued}
    (returned : transaction.thread.rest = .done (.ok outcome))
    (tokens : outcome.issued = some issued) : issued.lineageID ≠ lineageID := by
  intro lineage
  obtain ⟨credential, child, phase, sameLineage⟩ :=
    transaction.thread.concluded returned issued tokens
  cases faithful.stage with
  | inserted other idle written active =>
    rw [phase] at other
    cases other
    have revoked := faithful.revoked_of_dead dead written (sameLineage.symm.trans lineage)
    rw [active] at revoked
    cases revoked
  | unread other | read other | rotating other | rotated other
  | burning other | burned other =>
    rw [phase] at other
    cases other

end

/-- The transaction revoked the lineage and committed. -/
def ExchangeTransaction.burned (lineageID : LineageID)
    (transaction : ExchangeTransaction signer) : Bool :=
  match transaction.standing, transaction.thread.trail with
  | .committed _, .burned credential => decide (credential.lineageID = lineageID)
  | _, _ => false

theorem ExchangeTransaction.burned_iff : transaction.burned lineageID = true ↔
      ∃ value credential, transaction.standing = .committed value ∧
        transaction.thread.trail = .burned credential ∧
        credential.lineageID = lineageID := by
  unfold burned
  split
  · rename_i value credential committed phase
    simp [committed, phase]
  · rename_i other
    constructor
    · intro impossible
      cases impossible
    · rintro ⟨value, credential, committed, phase, _⟩
      exact (other value credential committed phase).elim

/-- The transaction returned tokens of the lineage and committed. -/
def ExchangeTransaction.issues (lineageID : LineageID)
    (transaction : ExchangeTransaction signer) : Bool :=
  match transaction.standing with
  | .committed (.ok { issued := some issued, .. }) => decide (issued.lineageID = lineageID)
  | _ => false

theorem ExchangeTransaction.issues_iff : transaction.issues lineageID = true ↔
      ∃ outcome issued, transaction.standing = .committed (.ok outcome) ∧
        outcome.issued = some issued ∧ issued.lineageID = lineageID := by
  unfold issues
  split
  · rename_i issued revoked committed
    simp [committed]
  · rename_i other
    constructor
    · intro impossible
      cases impossible
    · rintro ⟨⟨tokens, revoked⟩, issued, committed, rfl, _⟩
      exact (other _ _ committed).elim

end Burned

namespace ExchangeDatabase

variable {signer : AccessTokenSigner} {lineageID : LineageID}
  {owners : Table Owner.id} {before after : ExchangeDatabase signer}

section

variable (holds : before.Holds (credentialSchema owners) SharedOwner (Faithful lineageID))
  (dead : Dead lineageID before.committed)

include holds dead

theorem dead_after_step (step : Step (credentialSchema owners) Except.isOk
     (Undisturbed lineageID) before after) :
    Dead lineageID after.committed := by
  cases step with
  | commit found running => exact (holds.running found running).dead_after_commit dead
  | start | move | abort => exact dead

/-- While the lineage is dead, no transaction that commits returns tokens of
it. -/
theorem issued_before_step (step : Step (credentialSchema owners) Except.isOk
     (Undisturbed lineageID) before after) {index : Nat}
    {transaction : ExchangeTransaction signer} (found : after.At index transaction)
    (issues : transaction.issues lineageID = true) : before.At index transaction := by
  obtain ⟨outcome, issued, committed, tokens, lineage⟩ := issues_iff.mp issues
  rcases step.committed_cases found committed with was |
    ⟨running, was, isRunning, _, returned, _, _, _, rfl⟩
  · exact was
  · exact ((holds.running was isRunning).issues_none dead returned tokens lineage).elim

/-- Whatever follows, the lineage stays dead and every transaction that
returned tokens of it had done so before. -/
theorem dead_runs (runs : Runs owners (Undisturbed lineageID) before after) :
    Dead lineageID after.committed ∧
      ∀ {index} {transaction : ExchangeTransaction signer}, after.At index transaction →
        transaction.issues lineageID = true →
        before.At index transaction := by
  induction runs with
  | refl => exact ⟨dead, fun found _ => found⟩
  | tail earlier step induction =>
    have middleHolds := holds.after_runs (faithful_discipline owners lineageID) earlier
    refine ⟨dead_after_step middleHolds induction.1 step,
      fun found issues => induction.2 ?_ issues⟩
    exact issued_before_step middleHolds induction.1 step found issues

end

/-- Once a transaction has revoked the lineage and committed, the lineage is
dead. -/
theorem dead_of_burned {initial : Table RefreshCredential.id} (shared : SharedOwner initial)
    (runs : Runs owners (Undisturbed lineageID) (idle (exchangeService signer) initial) after)
    {index : Nat} {transaction : ExchangeTransaction signer} (found : after.At index transaction)
    (burned : transaction.burned lineageID = true) : Dead lineageID after.committed := by
  -- Induction on the run: the burning commit is the last step or an
  -- earlier one.
  induction runs generalizing index transaction with
  | refl => cases found
  | @tail middle final earlier step induction =>
    have holds := (holds_idle (unique_credentials initial owners)
      shared).after_runs (faithful_discipline owners lineageID) earlier
    have persists := fun was : middle.At index transaction =>
      dead_after_step holds (induction was burned) step
    obtain ⟨value, credential, committed, phase, lineage⟩ :=
      burned_iff.mp burned
    rcases step.committed_cases found committed with was |
      ⟨running, was, isRunning, _, _, _, _, became, rfl⟩
    · exact persists was
    · rw [became]
      exact (holds.running was isRunning).dead_of_burned phase lineage

end ExchangeDatabase

theorem sharedOwner_of_sound {tables : CredentialTables}
    (sound : tables.Sound) : SharedOwner tables.refreshCredentials := by
  intro row member other otherMember sameLineage
  exact ((sound.wellFormed member).uniform row
    (CredentialTables.mem_lineage.mpr ⟨member, rfl⟩) other
    (CredentialTables.mem_lineage.mpr ⟨otherMember, sameLineage.symm⟩)).1

/-- Let exchanges run concurrently on the credentials of a reachable token
service, in such a way that no rotation in the lineage commits while another
transaction is revoking the lineage.  Once an exchange that revoked the
lineage has committed, no credential of the lineage is active again and no
exchange that commits later returns tokens of it. -/
theorem burned_lineage_stays_dead {σ : Type} [CounterStore σ]
    {signer : AccessTokenSigner} {system : TokenSystem σ}
    (reachable : system.Reachable signer) {lineageID : LineageID}
    {middle final : ExchangeDatabase signer}
    (runs : Runs system.state.tables.owners
      (Undisturbed lineageID) (idle (exchangeService signer)
        system.state.tables.refreshCredentials) middle)
    {index : Nat} {transaction : ExchangeTransaction signer} (found : middle.At index transaction)
    (burned : transaction.burned lineageID = true)
    (continues : Runs system.state.tables.owners (Undisturbed lineageID) middle final) :
    (∀ row ∈ final.committed, row.lineageID = lineageID → row.status ≠ .active) ∧
    ∀ (other : Nat) (exchange : ExchangeTransaction signer),
      final.At other exchange → exchange.issues lineageID = true →
      middle.At other exchange := by
  have shared := sharedOwner_of_sound reachable.sound
  have dead := dead_of_burned shared runs found burned
  have holds := (holds_idle (unique_credentials _
    system.state.tables.owners) shared).after_runs
      (faithful_discipline system.state.tables.owners lineageID) runs
  obtain ⟨stillDead, issuedBefore⟩ := dead_runs holds dead continues
  refine ⟨fun row member lineage active => ?_, fun other exchange =>
    issuedBefore⟩
  rw [stillDead row member lineage] at active
  cases active

/-! ## Two schedules -/

namespace Sample

/-- No transaction on the rotated lineage has been started. -/
def exchangeIdle (signer : AccessTokenSigner) : ExchangeDatabase signer :=
  idle (exchangeService signer) (rotated signer).state.tables.refreshCredentials

def exchangeSchedule (signer : AccessTokenSigner) (allows : ExchangeDatabase signer → Nat → Prop)
    [∀ database index, Decidable (allows database index)]
    (database : ExchangeDatabase signer) (schedule : List Nat) : ExchangeDatabase signer :=
  schedule.foldl (advance (credentialSchema (rotated signer).state.tables.owners) Except.isOk
    allows) database

/-- The lineage of the first credential. -/
def lineage : LineageID := newCredentialID (draws 1).credentialID

/-- The second credential is being exchanged; the first one is replayed, and
its revocation has found two credentials and waits for the lock on the
second. -/
def waiting (signer : AccessTokenSigner) : ExchangeDatabase signer :=
  exchangeSchedule signer (fun _ _ => True)
    (((exchangeIdle signer).begin (exchangeCall 2 3 2)).begin
      (exchangeCall 1 9 2)) [0, 0, 0, 0, 0, 0, 1, 1, 1, 1]

/-- The exchange commits, and then the revocation. -/
def outlived (signer : AccessTokenSigner) : ExchangeDatabase signer :=
  exchangeSchedule signer (fun _ _ => True) (waiting signer) [0, 1, 1, 1, 1]

/-- The credential that the revocation did not find is exchanged. -/
def revived (signer : AccessTokenSigner) : ExchangeDatabase signer :=
  exchangeSchedule signer (fun _ _ => True)
    ((outlived signer).begin (exchangeCall 3 4 3)) [2, 2, 2, 2, 2, 2, 2]

end Sample

open Sample

/-- A rotation that commits while the revocation waits for its lock leaves a
successor that the revocation has not found.  When both have ended the
lineage has an active credential, and a later exchange of it returns
tokens. -/
theorem successor_outlives_revocation : let signer := signer []
    (rotated signer).Reachable signer ∧
    Runs (rotated signer).state.tables.owners (fun _ _ => True)
      (idle (exchangeService signer) (rotated signer).state.tables.refreshCredentials)
      (outlived signer) ∧
    (∃ transaction ∈ (outlived signer).transactions, burned lineage transaction = true) ∧
    (∀ transaction ∈ (outlived signer).transactions, transaction.standing.isRunning = false) ∧
    (∃ row ∈ (outlived signer).committed.rows, row.lineageID = lineage ∧ row.status = .active) ∧
    Runs (rotated signer).state.tables.owners (fun _ _ => True) (outlived signer) (revived signer) ∧
    (outlived signer).transactions.length = 2 ∧
    (revived signer).transactions[2]?.any (issues lineage) = true :=
  ⟨rotated_reachable _, (((begin_runs _ _).trans (begin_runs _ _)).trans (schedule_runs _ _)).trans
    (schedule_runs _ _), by decide +kernel, by decide +kernel, by decide +kernel,
    (begin_runs _ _).trans (schedule_runs _ _), by decide +kernel, by decide +kernel⟩

namespace Sample

/-- The first credential is replayed, but before its transaction goes on the
second one is exchanged and committed; the lineage is revoked after that. -/
def burnedLast (signer : AccessTokenSigner) : ExchangeDatabase signer :=
  exchangeSchedule signer (Undisturbed lineage)
    (((exchangeIdle signer).begin (exchangeCall 1 9 2)).begin
      (exchangeCall 2 3 2)) [0, 0, 1, 1, 1, 1, 1, 1, 1, 0, 0, 0, 0, 0, 0, 0]

/-- The newest credential is presented afterwards. -/
def buried (signer : AccessTokenSigner) : ExchangeDatabase signer :=
  exchangeSchedule signer (Undisturbed lineage)
    ((burnedLast signer).begin (exchangeCall 3 4 3)) [2, 2, 2, 2, 2, 2, 2]

end Sample

/-- With the rotation committed before the revocation starts, three rows are
revoked and the newest credential gets nothing. -/
theorem burned_lineage_stays_dead_sample :
    ((burnedLast (signer [])).committed.rows.map (·.status) = [.revoked, .revoked, .revoked]) ∧
    (∀ row ∈ (buried (signer [])).committed, row.lineageID = lineage → row.status ≠ .active) ∧
    ∀ (other : Nat) (exchange : ExchangeTransaction (signer [])),
      (buried (signer [])).At other exchange →
      exchange.issues lineage = true →
      (burnedLast (signer [])).At other exchange := by
  have ends : (burnedLast (signer [])).transactions[0]?.any (burned lineage) = true := by
    decide +kernel
  cases found : (burnedLast (signer [])).transactions[0]? with
  | none =>
    rw [found] at ends
    cases ends
  | some transaction =>
    rw [found] at ends
    refine ⟨by decide +kernel, ?_⟩
    exact burned_lineage_stays_dead (rotated_reachable _)
      (((begin_runs _ _).trans (begin_runs _ _)).trans (schedule_runs _ _)) found ends
      ((begin_runs _ _).trans (schedule_runs _ _))

end Vallet.Auth
