import Vallet.Auth.ExchangeProtocol
import Vallet.Foundation.TransactionInvariants

/-!
# Concurrent exchanges at READ COMMITTED

Any number of `Exchange` transactions share the table of credentials.  A
rotation that commits while another transaction's `RevokeLineage` statement is
under way leaves a successor which that statement has not found.  As long as
no rotation commits in that window, a lineage that one exchange has burned is
dead for all of them.
-/

namespace Vallet.Auth

open Counter Effects Relational Transaction Table

abbrev ExchangeTransaction (signer : AccessTokenSigner) :=
  Transaction (exchangeService signer) RefreshCredential.id

abbrev ExchangeDatabase (signer : AccessTokenSigner) :=
  Database (exchangeService signer) RefreshCredential.id

namespace ExchangeTransaction

variable {signer : AccessTokenSigner}

/-- The statement that revokes the lineage has started, and perhaps ended. -/
def revoking (lineageID : LineageID) (transaction : ExchangeTransaction signer) : Bool :=
  match transaction.thread.trail with
  | .burned credential => decide (credential.lineageID = lineageID)
  | .read credential =>
    decide (credential.lineageID = lineageID) &&
      transaction.scan.isSome && revokesNext transaction.thread.rest
  | _ => false

/-- A credential of the lineage is marked rotated, or its successor is
inserted, in what the transaction would commit. -/
def rotating (lineageID : LineageID) (transaction : ExchangeTransaction signer) : Bool :=
  transaction.pending.rows.any fun row =>
    decide (row.lineageID = lineageID) && decide (row.status ≠ .revoked)

end ExchangeTransaction

namespace ExchangeDatabase

variable {signer : AccessTokenSigner}

/-- A transaction that would commit a rotation in the lineage does so while no
other one is revoking the lineage. -/
def Undisturbed (lineageID : LineageID) (database : ExchangeDatabase signer) (index : Nat) : Prop :=
  ∀ transaction ∈ database.transactions[index]?,
    ExchangeTransaction.rotating lineageID transaction = true →
    ∀ other ∈ database.transactions.eraseIdx index, other.standing.isRunning = true →
      ExchangeTransaction.revoking lineageID other = false

instance (lineageID : LineageID) (database : ExchangeDatabase signer)
    (index : Nat) : Decidable (database.Undisturbed lineageID index) :=
  inferInstanceAs (Decidable (∀ transaction ∈ database.transactions[index]?, _))

/-- Runs of exchange transactions against fixed owners, in which a transaction
whose body returned no error may commit when `allows` says so. -/
def Runs (owners : Table Owner.id) (allows : ExchangeDatabase signer → Nat → Prop) :
    ExchangeDatabase signer → ExchangeDatabase signer → Prop :=
  Database.Runs (credentialSchema owners) Except.isOk allows

end ExchangeDatabase

/-! ## What holds of a running transaction -/

def ExchangePhase.credential? : ExchangePhase → Option RefreshCredential
  | .fresh => none
  | .read credential => some credential
  | .rotated credential => some credential
  | .inserted credential _ => some credential
  | .burned credential => some credential

/-- Everything written is revoked, and every committed credential of the
lineage is revoked, written or still to be visited. -/
structure Covers (committed pending : Table RefreshCredential.id)
    (remaining : List RefreshCredentialID) (lineageID : LineageID) :
    Prop where
  revokes : ∀ row ∈ pending, row.status = .revoked
  visits : ∀ stored ∈ committed, stored.lineageID = lineageID →
    stored.status = .revoked ∨ (∃ row ∈ pending, row.id = stored.id) ∨ stored.id ∈ remaining

/-- The written row of the credential is not a revocation. -/
def Marks (pending : Table RefreshCredential.id) (credential : RefreshCredential) : Prop :=
  ∃ row ∈ pending, row.id = credential.id ∧ row.status ≠ .revoked

/-- What a transaction has written, by how far it has come.  That a revocation
misses nothing is recorded for one lineage. -/
inductive Stage {signer : AccessTokenSigner} (lineageID : LineageID)
    (committed : Table RefreshCredential.id) (transaction : ExchangeTransaction signer) : Prop where
  | unread (phase : transaction.thread.trail = .fresh) (idle : transaction.scan = none)
      (clean : transaction.pending = empty)
  | read {credential : RefreshCredential}
      (phase : transaction.thread.trail = .read credential) (idle : transaction.scan = none)
      (clean : transaction.pending = empty)
  | rotating {credential : RefreshCredential} {scan : Scan RefreshCredentialID}
      (phase : transaction.thread.trail = .read credential)
      (scanning : transaction.scan = some scan)
      (rotates : revokesNext transaction.thread.rest = false)
      (clean : scan.affected = 0 → transaction.pending = empty)
      (marked : scan.affected > 0 → Marks transaction.pending credential)
  | rotated {credential : RefreshCredential}
      (phase : transaction.thread.trail = .rotated credential) (idle : transaction.scan = none)
      (marked : Marks transaction.pending credential)
  | inserted {credential child : RefreshCredential}
      (phase : transaction.thread.trail = .inserted credential child)
      (idle : transaction.scan = none) (written : child ∈ transaction.pending)
      (active : child.status = .active)
  | burning {credential : RefreshCredential} {scan : Scan RefreshCredentialID}
      (phase : transaction.thread.trail = .read credential)
      (scanning : transaction.scan = some scan)
      (revokes : revokesNext transaction.thread.rest = true)
      (covers : credential.lineageID = lineageID →
        Covers committed transaction.pending scan.remaining lineageID)
  | burned {credential : RefreshCredential}
      (phase : transaction.thread.trail = .burned credential) (idle : transaction.scan = none)
      (covers : credential.lineageID = lineageID →
        Covers committed transaction.pending [] lineageID)

/-- Lineage and owner of a credential are those of a stored one. -/
def Kin (stored credential : RefreshCredential) : Prop :=
  stored.lineageID = credential.lineageID ∧ stored.ownerID = credential.ownerID

theorem Kin.symm {stored credential : RefreshCredential}
    (kin : Kin stored credential) : Kin credential stored :=
  ⟨kin.1.symm, kin.2.symm⟩

theorem Kin.trans {first second third : RefreshCredential}
    (kin : Kin first second) (next : Kin second third) : Kin first third :=
  ⟨kin.1.trans next.1, kin.2.trans next.2⟩

/-- A written credential that is not revoked belongs to a lineage with an
active committed credential, which is written as well. -/
structure Backed (committed pending : Table RefreshCredential.id) : Prop where
  active : ∀ row ∈ pending, row.status ≠ .revoked →
    ∃ parent ∈ committed, parent.lineageID = row.lineageID ∧
      parent.status = .active ∧ ∃ locked ∈ pending, locked.id = parent.id
  versions : ∀ row ∈ pending, ∀ stored ∈ committed, stored.id = row.id → Kin stored row
  related : ∀ row ∈ pending, ∃ stored ∈ committed, Kin stored row

/-- The writes of a transaction fit the committed rows. -/
structure Faithful {signer : AccessTokenSigner} (lineageID : LineageID)
    (committed : Table RefreshCredential.id) (transaction : ExchangeTransaction signer) : Prop where
  stage : Stage lineageID committed transaction
  backed : Backed committed transaction.pending
  keeps : transaction.removed = []
  known : ∀ credential, transaction.thread.trail.credential? = some credential →
    ∃ stored ∈ committed, stored.id = credential.id ∧ Kin stored credential

/-- Credentials of one lineage have one owner. -/
def SharedOwner (committed : Table RefreshCredential.id) : Prop :=
  ∀ row ∈ committed, ∀ other ∈ committed, row.lineageID = other.lineageID →
    row.ownerID = other.ownerID

section Moves

variable {signer : AccessTokenSigner} {lineageID : LineageID}
  {committed : Table RefreshCredential.id} {transaction later : ExchangeTransaction signer}
  {credential row : RefreshCredential}

theorem backed_empty : Backed committed empty where
  active row impossible := (not_mem_empty row impossible).elim
  versions row impossible := (not_mem_empty row impossible).elim
  related row impossible := (not_mem_empty row impossible).elim

/-- Between statements, only the phase and the written rows matter. -/
theorem Stage.of_idle (stage : Stage lineageID committed transaction)
    (idle : transaction.scan = none) (trail : later.thread.trail = transaction.thread.trail)
    (pending : later.pending = transaction.pending)
    (idleLater : later.scan = none) : Stage lineageID committed later := by
  cases stage with
  | unread phase _ clean => exact .unread (trail.trans phase) idleLater (pending.trans clean)
  | read phase _ clean => exact .read (trail.trans phase) idleLater (pending.trans clean)
  | rotated phase _ marked => exact .rotated (trail.trans phase) idleLater (pending ▸ marked)
  | inserted phase _ written active =>
    exact .inserted (trail.trans phase) idleLater (pending ▸ written) active
  | burned phase _ covers => exact .burned (trail.trans phase) idleLater (pending ▸ covers)
  | rotating _ scanning | burning _ scanning => simp [idle] at scanning

section

variable (stage : Stage lineageID committed transaction)

include stage

theorem Stage.clean_of_fresh
    (phase : transaction.thread.trail = .fresh) : transaction.pending = empty := by
  cases stage with
  | unread _ _ clean => exact clean
  | read other | rotating other | rotated other | inserted other
  | burning other | burned other =>
    rw [phase] at other
    cases other

theorem Stage.clean_of_read
    (phase : transaction.thread.trail = .read credential) (idle : transaction.scan = none) :
    transaction.pending = empty := by
  cases stage with
  | read _ _ clean => exact clean
  | rotating _ scanning | burning _ scanning => simp [idle] at scanning
  | unread other | rotated other | inserted other | burned other =>
    rw [phase] at other
    cases other

theorem Stage.marks_of_rotated (phase : transaction.thread.trail = .rotated credential) :
    Marks transaction.pending credential := by
  cases stage with
  | rotated other _ marked =>
    rw [phase] at other
    cases other
    exact marked
  | unread other | read other | rotating other | inserted other
  | burning other | burned other =>
    rw [phase] at other
    cases other

variable {scan : Scan RefreshCredentialID} (phase : transaction.thread.trail = .read credential)
  (scanning : transaction.scan = some scan)

include phase scanning

theorem Stage.rotating_of_scan (rotates : revokesNext transaction.thread.rest = false) :
    (scan.affected = 0 → transaction.pending = empty) ∧
      (scan.affected > 0 → Marks transaction.pending credential) := by
  cases stage with
  | rotating other found _ clean marked =>
    cases phase.symm.trans other
    cases scanning.symm.trans found
    exact ⟨clean, marked⟩
  | burning _ _ revokes => cases rotates.symm.trans revokes
  | unread _ idle | read _ idle | rotated _ idle | inserted _ idle
  | burned _ idle => cases scanning.symm.trans idle

theorem Stage.covers_of_scan (revokes : revokesNext transaction.thread.rest = true)
    (same : credential.lineageID = lineageID) :
    Covers committed transaction.pending scan.remaining lineageID := by
  cases stage with
  | burning other found _ covers =>
    cases phase.symm.trans other
    cases scanning.symm.trans found
    exact covers same
  | rotating _ _ rotates => cases revokes.symm.trans rotates
  | unread _ idle | read _ idle | rotated _ idle | inserted _ idle
  | burned _ idle => cases scanning.symm.trans idle

end

variable {pending : Table RefreshCredential.id}

/-- Storing a version keeps the written rows backed when the version itself
is. -/
theorem Backed.put (backed : Backed committed pending)
    (active : row.status ≠ .revoked → ∃ parent ∈ committed,
      parent.lineageID = row.lineageID ∧ parent.status = .active ∧
      (row.id = parent.id ∨ ∃ locked ∈ pending, locked.id = parent.id))
    (versions : ∀ stored ∈ committed, stored.id = row.id → Kin stored row)
    (related : ∃ stored ∈ committed, Kin stored row) : Backed committed (pending.put row) := by
  have locks : ∀ {id}, (row.id = id ∨ ∃ locked ∈ pending, locked.id = id) →
      ∃ locked ∈ pending.put row, locked.id = id := by
    rintro id (rfl | ⟨locked, written, rfl⟩)
    · exact ⟨row, mem_put.mpr (.inr rfl), rfl⟩
    · exact exists_mem_put written row
  constructor
  · intro written member unrevoked
    rcases mem_put.mp member with ⟨old, _⟩ | rfl
    · obtain ⟨parent, stored, lineage, isActive, locked⟩ := backed.active written old unrevoked
      exact ⟨parent, stored, lineage, isActive, locks (.inr locked)⟩
    · obtain ⟨parent, stored, lineage, isActive, locked⟩ := active unrevoked
      exact ⟨parent, stored, lineage, isActive, locks locked⟩
  · intro written member
    rcases mem_put.mp member with ⟨old, _⟩ | rfl
    · exact backed.versions written old
    · exact versions
  · intro written member
    rcases mem_put.mp member with ⟨old, _⟩ | rfl
    · exact backed.related written old
    · exact related

section

variable {thread : Thread (exchangeService signer)} {scan : Option (Scan RefreshCredentialID)}
  (faithful : Faithful lineageID committed transaction)

include faithful

theorem Faithful.of_stage
    (trail : thread.trail.credential? = transaction.thread.trail.credential?)
    (stage : Stage lineageID committed { transaction with thread, scan }) :
    Faithful lineageID committed { transaction with thread, scan } where
  stage := stage
  backed := faithful.backed
  keeps := faithful.keeps
  known := trail ▸ faithful.known

theorem Faithful.after_read
    (fresh : transaction.thread.trail = .fresh) (found : credential ∈ transaction.view committed)
    (trail : thread.trail = .read credential) (idle : transaction.scan = none) :
    Faithful lineageID committed { transaction with thread } where
  stage := .read trail idle (faithful.stage.clean_of_fresh fresh)
  backed := faithful.backed
  keeps := faithful.keeps
  known := by
    intro read reads
    rw [trail] at reads
    cases reads
    rw [mem_view_of_clean (faithful.stage.clean_of_fresh fresh) faithful.keeps] at found
    exact ⟨credential, found, rfl, rfl, rfl⟩

/-- The successor of a credential that was marked rotated is backed by the
credential that backs the mark. -/
theorem Faithful.backed_successor (rotated : transaction.thread.trail = .rotated credential)
    (owner : row.ownerID = credential.ownerID) (lineage : row.lineageID = credential.lineageID)
    (absent : (transaction.view committed).find? row.id = none) :
    Backed committed (transaction.pending.put row) := by
  obtain ⟨stored, storedMember, storedID, kin⟩ := faithful.known credential (by rw [rotated]; rfl)
  obtain ⟨mark, marked, markID, markStatus⟩ := faithful.stage.marks_of_rotated rotated
  have markKin := faithful.backed.versions mark marked stored storedMember
    (storedID.trans markID.symm)
  refine faithful.backed.put (fun _ => ?_) ?_
    ⟨stored, storedMember, kin.1.trans lineage.symm, kin.2.trans owner.symm⟩
  · obtain ⟨parent, parentMember, parentLineage, parentActive, locked⟩ :=
      faithful.backed.active mark marked markStatus
    refine ⟨parent, parentMember, ?_, parentActive, .inr locked⟩
    rw [parentLineage, ← markKin.1, kin.1, lineage]
  · intro other otherMember sameID
    obtain ⟨version, versionMember, versionID, _⟩ := exists_mem_view faithful.keeps otherMember
    exact (find?_eq_none_iff.mp absent version versionMember (versionID.trans sameID)).elim

theorem Faithful.after_insert (rotated : transaction.thread.trail = .rotated credential)
    (trail : thread.trail = .inserted credential row) (owner : row.ownerID = credential.ownerID)
    (lineage : row.lineageID = credential.lineageID) (active : row.status = .active)
    (absent : (transaction.view committed).find? row.id = none) (idle : transaction.scan = none) :
    Faithful lineageID committed
      { transaction with thread, pending := transaction.pending.put row } where
  stage := .inserted trail idle (mem_put.mpr (.inr rfl)) active
  backed := faithful.backed_successor rotated owner lineage absent
  keeps := faithful.keeps
  known read reads := by
    refine faithful.known read ?_
    rw [rotated, ← reads]
    exact (congrArg ExchangePhase.credential? trail).symm

/-- A credential that is not yet revoked is found by its lineage's
revocation. -/
theorem Faithful.revocable
    (shared : SharedOwner committed) (phase : transaction.thread.trail = .read credential)
    (member : row ∈ committed) (lineage : row.lineageID = credential.lineageID)
    (unrevoked : row.status ≠ .revoked) :
    RefreshCredential.revocable credential.ownerID credential.lineageID row = true := by
  obtain ⟨stored, storedMember, _, kin⟩ := faithful.known credential (by rw [phase]; rfl)
  have owner := (shared _ member stored storedMember (lineage.trans kin.1.symm)).trans kin.2
  simp [RefreshCredential.revocable, RefreshCredential.inLineage, owner, lineage, unrevoked]

/-- The rows an update of the lineage finds when it starts. -/
theorem Faithful.covers_found
    (shared : SharedOwner committed) (phase : transaction.thread.trail = .read credential)
    (idle : transaction.scan = none) :
    Covers committed transaction.pending
      (((transaction.view committed).select (RefreshCredential.revocable
        credential.ownerID credential.lineageID)).map RefreshCredential.id)
      credential.lineageID := by
  have clean := faithful.stage.clean_of_read phase idle
  constructor
  · intro row impossible
    rw [clean] at impossible
    exact (not_mem_empty row impossible).elim
  · intro stored member lineage
    by_cases revoked : stored.status = .revoked
    · exact .inl revoked
    · refine .inr (.inr (List.mem_map.mpr ⟨stored, ?_, rfl⟩))
      exact mem_select.mpr ⟨(mem_view_of_clean clean faithful.keeps).mpr member,
          faithful.revocable shared phase member lineage revoked⟩

/-- A new version of a row the transaction sees is backed by what backs the
row. -/
theorem Faithful.backed_version
    {version : RefreshCredential} (latest : row ∈ transaction.view committed)
    (sameID : version.id = row.id) (kin : Kin row version)
    (unlessRevoked : version.status ≠ .revoked → row.status = .active) :
    Backed committed (transaction.pending.put version) := by
  rcases mem_view.mp latest with written | ⟨member, _⟩
  · refine faithful.backed.put (fun unrevoked => ?_) ?_ ?_
    · obtain ⟨parent, stored, lineage, active, locked⟩ :=
        faithful.backed.active row written (by
          simp [unlessRevoked unrevoked])
      exact ⟨parent, stored, lineage.trans kin.1, active, .inr locked⟩
    · intro stored member storedID
      exact (faithful.backed.versions row written stored member (storedID.trans sameID)).trans kin
    · obtain ⟨stored, member, same⟩ := faithful.backed.related row written
      exact ⟨stored, member, same.trans kin⟩
  · refine faithful.backed.put (fun unrevoked => ?_) ?_ ⟨row, member, kin⟩
    · exact ⟨row, member, kin.1, unlessRevoked unrevoked, .inl sameID⟩
    · intro stored storedMember storedID
      rw [eq_of_key_eq storedMember member (storedID.trans sameID)]
      exact kin

theorem Faithful.after_version
    {version : RefreshCredential} (latest : row ∈ transaction.view committed)
    (sameID : version.id = row.id) (kin : Kin row version)
    (unlessRevoked : version.status ≠ .revoked → row.status = .active)
    (stage : Stage lineageID committed
      { transaction with pending := transaction.pending.put version, scan }) :
    Faithful lineageID committed
      { transaction with pending := transaction.pending.put version, scan } where
  stage := stage
  backed := faithful.backed_version latest sameID kin unlessRevoked
  keeps := faithful.keeps
  known := faithful.known

end

variable {remaining : List RefreshCredentialID}

section

variable (covers : Covers committed pending remaining lineageID)

include covers

theorem Covers.after_change (now : Int) :
    Covers committed (pending.put (row.revoked now)) (remaining.filter (· ≠ row.id)) lineageID := by
  constructor
  · intro written inPending
    rcases mem_put.mp inPending with ⟨old, _⟩ | rfl
    · exact covers.revokes written old
    · rfl
  · intro stored member lineage
    rcases covers.visits stored member lineage with
      revoked | ⟨written, inPending, sameID⟩ | waits
    · exact .inl revoked
    · obtain ⟨kept, keptMember, keptID⟩ := exists_mem_put inPending (row.revoked now)
      exact .inr (.inl ⟨kept, keptMember, keptID.trans sameID⟩)
    · by_cases visited : stored.id = row.id
      · exact .inr (.inl ⟨row.revoked now, mem_put.mpr (.inr rfl), visited.symm⟩)
      · exact .inr (.inr (List.mem_filter.mpr ⟨waits, by simpa using visited⟩))

theorem Covers.after_skip
    {wanted : RefreshCredentialID} (settled : ∀ stored ∈ committed, stored.lineageID = lineageID →
      stored.id = wanted → stored.status = .revoked ∨ ∃ written ∈ pending, written.id = stored.id) :
    Covers committed pending (remaining.filter (· ≠ wanted)) lineageID := by
  refine ⟨covers.revokes, fun stored member lineage => ?_⟩
  rcases covers.visits stored member lineage with
    revoked | written | waits
  · exact .inl revoked
  · exact .inr (.inl written)
  · by_cases visited : stored.id = wanted
    · rcases settled stored member lineage visited with revoked | written
      · exact .inl revoked
      · exact .inr (.inl written)
    · exact .inr (.inr (List.mem_filter.mpr ⟨waits, by simpa using visited⟩))

end

/-- A row that the revocation passes over is revoked already, or written. -/
theorem Faithful.covers_skipped (faithful : Faithful lineageID committed transaction)
    (shared : SharedOwner committed) (phase : transaction.thread.trail = .read credential)
    {wanted : RefreshCredentialID} (unmatched : ∀ row ∈ transaction.view committed,
      row.id = wanted →
        RefreshCredential.revocable credential.ownerID credential.lineageID row = false)
    (covers : Covers committed transaction.pending remaining credential.lineageID) :
    Covers committed transaction.pending (remaining.filter (· ≠ wanted)) credential.lineageID := by
  refine covers.after_skip fun stored member lineage named => ?_
  by_cases revoked : stored.status = .revoked
  · exact .inl revoked
  have found := faithful.revocable shared phase member lineage revoked
  by_cases touched : transaction.Touches stored.id
  · rcases touches_iff.mp touched with written | removed
    · exact .inr written
    · rw [faithful.keeps] at removed
      cases removed
  · have missed := unmatched stored (mem_view.mpr (.inr ⟨member, touched⟩)) named
    cases found.symm.trans missed

variable {owners : Table Owner.id} {database : ExchangeDatabase signer} {index : Nat}

theorem Faithful.after_move (shared : SharedOwner database.committed)
    (faithful : Faithful lineageID database.committed transaction)
    (moved : Database.Move (credentialSchema owners) database index transaction later) :
    Faithful lineageID database.committed later := by
  cases moved with
  | read waiting idle form =>
    rcases phase_of_read waiting form (transaction.view database.committed) with
      same | ⟨credential, found, fresh, reads⟩
    · exact faithful.of_stage (congrArg _ same) (faithful.stage.of_idle idle same rfl idle)
    · exact faithful.after_read fresh found reads idle
  | insert waiting idle form unlocked absent fits =>
    obtain ⟨_, credential, rotated, owner, lineage, active, trail⟩ := phase_of_insert waiting form
    exact faithful.after_insert rotated trail owner lineage active absent idle
  | collide waiting idle form unlocked taken =>
    have same := (phase_of_insert waiting form).1
    exact faithful.of_stage (congrArg _ same) (faithful.stage.of_idle idle same rfl idle)
  | find waiting idle form =>
    obtain ⟨credential, phase, ⟨rotates, _⟩ | ⟨revokes, rfl, _⟩⟩ := phase_of_update waiting form
    · exact faithful.of_stage rfl (.rotating phase rfl rotates
        (fun _ => faithful.stage.clean_of_read phase idle)
        (fun impossible => (Nat.lt_irrefl 0 impossible).elim))
    · refine faithful.of_stage rfl (.burning phase rfl revokes ?_)
      rintro rfl
      exact faithful.covers_found shared phase idle
  | @change β statement next chosen change keepsKey answer scan row version
      waiting scanning form visited latest matched changed unlocked fits =>
    obtain ⟨credential, phase, ⟨rotates, rfl, changes, _⟩ |
        ⟨revokes, rfl, ⟨now, changes⟩, _⟩⟩ := phase_of_update waiting form
    · obtain rfl := Option.some.inj ((changes row).symm.trans changed)
      simp only [RefreshCredential.rotatable, RefreshCredential.ownedBy,
        Bool.and_eq_true, decide_eq_true_eq] at matched
      refine faithful.after_version latest rfl ⟨rfl, rfl⟩ (fun _ => matched.2) ?_
      exact .rotating phase rfl rotates (fun impossible => (Nat.succ_ne_zero _ impossible).elim)
        (fun _ => ⟨row.rotated, mem_put.mpr (.inr rfl),
          matched.1.1, by simp [RefreshCredential.rotated]⟩)
    · obtain rfl := Option.some.inj ((changes row).symm.trans changed)
      refine faithful.after_version latest rfl ⟨rfl, rfl⟩ (fun unrevoked => (unrevoked rfl).elim) ?_
      exact .burning phase rfl revokes fun same =>
        (faithful.stage.covers_of_scan phase scanning revokes same).after_change now
  | remove waiting scanning form visited latest matched changed free =>
    obtain ⟨credential, phase, ⟨_, _, changes, _⟩ |
        ⟨_, _, ⟨now, changes⟩, _⟩⟩ := phase_of_update waiting form
    all_goals simp [changes] at changed
  | @skip β statement next chosen change keepsKey answer scan wanted waiting
      scanning form visited free unmatched =>
    obtain ⟨credential, phase, ⟨rotates, rfl, _⟩ | ⟨revokes, rfl, _⟩⟩ :=
      phase_of_update waiting form
    · obtain ⟨clean, marked⟩ := faithful.stage.rotating_of_scan phase scanning rotates
      exact faithful.of_stage rfl (.rotating phase rfl rotates clean marked)
    · refine faithful.of_stage rfl (.burning phase rfl revokes ?_)
      rintro rfl
      exact faithful.covers_skipped shared phase unmatched
        (faithful.stage.covers_of_scan phase scanning revokes rfl)
  | @finish β statement next chosen change keepsKey answer affected waiting scanned form =>
    obtain ⟨credential, phase, ⟨rotates, _, _, trail⟩ |
        ⟨revokes, _, _, trail⟩⟩ := phase_of_update waiting form
    all_goals
      have became := trail affected
      have keepsCredential : ∀ {reached found : ExchangePhase},
          found = reached → reached.credential? = some credential →
          found.credential? = transaction.thread.trail.credential? := by
        rintro reached _ rfl same
        rw [same, phase]
        rfl
    · obtain ⟨clean, marked⟩ := faithful.stage.rotating_of_scan phase scanned rotates
      by_cases changed : affected > 0
      · rw [if_pos changed] at became
        exact faithful.of_stage (keepsCredential became rfl) (.rotated became rfl (marked changed))
      · rw [if_neg changed] at became
        exact faithful.of_stage (keepsCredential became rfl)
          (.read became rfl (clean (by simpa using changed)))
    · exact faithful.of_stage (keepsCredential became rfl)
        (.burned became rfl (faithful.stage.covers_of_scan phase scanned revokes))

end Moves

/-! ## What survives the commits of others -/

section Commits

variable {signer : AccessTokenSigner} {lineageID : LineageID}
  {owners : Table Owner.id} {committed : Table RefreshCredential.id}
  {transaction holder : ExchangeTransaction signer}

/-- A committed row that another transaction has locked is not changed. -/
theorem mem_view_of_locked (apart : Database.Apart (credentialSchema owners) transaction holder)
    {row : RefreshCredential} (locked : holder.Touches row.id) :
    row ∈ transaction.view committed ↔ row ∈ committed := by
  have untouched : ¬ transaction.Touches row.id :=
    fun touched => apart.1 row.id touched locked
  rw [mem_view]
  constructor
  · rintro (written | ⟨stored, _⟩)
    · exact (untouched (touches_of_mem written)).elim
    · exact stored
  · exact fun stored => .inr ⟨stored, untouched⟩

section

variable (faithful : Faithful lineageID committed transaction)

include faithful

theorem Faithful.sharedOwner
    (shared : SharedOwner committed) : SharedOwner (transaction.view committed) := by
  have stored : ∀ row ∈ transaction.view committed, ∃ stored ∈ committed, Kin stored row := by
    intro row member
    rcases mem_view.mp member with written | ⟨old, _⟩
    · exact faithful.backed.related row written
    · exact ⟨row, old, rfl, rfl⟩
  intro row member other otherMember sameLineage
  obtain ⟨kept, keptMember, kin⟩ := stored row member
  obtain ⟨keptOther, keptOtherMember, otherKin⟩ := stored other otherMember
  rw [← kin.2, ← otherKin.2]
  exact shared kept keptMember keptOther keptOtherMember (by rw [kin.1, otherKin.1, sameLineage])

/-- A stored credential has kin with its id among the rows a transaction
leaves. -/
theorem Faithful.exists_kin {stored : RefreshCredential} (member : stored ∈ committed) :
    ∃ version ∈ transaction.view committed, version.id = stored.id ∧ Kin version stored := by
  obtain ⟨version, seen, sameID, written | rfl⟩ := exists_mem_view faithful.keeps member
  · exact ⟨version, seen, sameID, (faithful.backed.versions version written
      stored member sameID.symm).symm⟩
  · exact ⟨version, seen, rfl, rfl, rfl⟩

theorem Backed.endures (apart : Database.Apart (credentialSchema owners) transaction holder)
    (backed : Backed committed holder.pending) :
    Backed (transaction.view committed) holder.pending where
  active row written unrevoked := by
    obtain ⟨parent, member, lineage, active, locked, held, lockedID⟩ :=
      backed.active row written unrevoked
    have touched : holder.Touches parent.id := lockedID ▸ touches_of_mem held
    exact ⟨parent, (mem_view_of_locked apart touched).mpr member, lineage,
      active, locked, held, lockedID⟩
  versions row written stored member sameID := by
    have touched : holder.Touches stored.id := sameID ▸ touches_of_mem written
    exact backed.versions row written stored ((mem_view_of_locked apart touched).mp member) sameID
  related row written := by
    obtain ⟨stored, member, kin⟩ := backed.related row written
    obtain ⟨version, seen, _, versionKin⟩ := faithful.exists_kin member
    exact ⟨version, seen, versionKin.trans kin⟩

end

/-- A commit that rotates nothing in the lineage leaves nothing for a
revocation under way to miss. -/
theorem Covers.endures {pending : Table RefreshCredential.id} {remaining : List RefreshCredentialID}
    (quiet : transaction.rotating lineageID = false)
    (covers : Covers committed pending remaining lineageID) :
    Covers (transaction.view committed) pending remaining lineageID := by
  refine ⟨covers.revokes, fun stored member lineage => ?_⟩
  rcases mem_view.mp member with written | ⟨old, _⟩
  · simp only [ExchangeTransaction.rotating, List.any_eq_false] at quiet
    have revoked := quiet stored written
    rw [lineage] at revoked
    exact .inl (by simpa using revoked)
  · exact covers.visits stored old lineage

theorem Stage.endures (stage : Stage lineageID committed holder)
    (quiet : holder.revoking lineageID = true → transaction.rotating lineageID = false) :
    Stage lineageID (transaction.view committed) holder := by
  cases stage with
  | unread phase idle clean => exact .unread phase idle clean
  | read phase idle clean => exact .read phase idle clean
  | rotating phase scanning rotates clean marked =>
    exact .rotating phase scanning rotates clean marked
  | rotated phase idle marked => exact .rotated phase idle marked
  | inserted phase idle written active => exact .inserted phase idle written active
  | burning phase scanning revokes covers =>
    refine .burning phase scanning revokes fun same => ?_
    refine (covers same).endures (quiet ?_)
    simp [ExchangeTransaction.revoking, phase, same, scanning, revokes]
  | burned phase idle covers =>
    refine .burned phase idle fun same => ?_
    refine (covers same).endures (quiet ?_)
    simp [ExchangeTransaction.revoking, phase, same]

theorem faithful_discipline (owners : Table Owner.id) (lineageID : LineageID) :
    Database.Discipline (credentialSchema owners) Except.isOk
      (ExchangeDatabase.Undisturbed lineageID : ExchangeDatabase signer → Nat → Prop)
      SharedOwner (Faithful lineageID) where
  start call _ := ⟨.unread rfl rfl rfl, backed_empty, rfl, nofun⟩
  move shared _ faithful moved := faithful.after_move shared moved
  publish shared faithful _ _ _ _ := faithful.sharedOwner shared
  endure := by
    intro database index other transaction holder _ shared faithful held apart
      heldAt differs holding found _ _ undisturbed
    have quiet : ExchangeTransaction.revoking lineageID holder = true →
        ExchangeTransaction.rotating lineageID transaction = false := by
      intro revoking
      by_contra rotating
      have still := undisturbed transaction found (by simpa using rotating)
        holder (List.mem_eraseIdx_iff_getElem?.mpr ⟨other, differs, heldAt⟩)
        (Standing.isRunning_iff.mpr holding)
      rw [revoking] at still
      cases still
    refine ⟨held.stage.endures quiet, held.backed.endures faithful apart,
      held.keeps, fun credential known => ?_⟩
    obtain ⟨stored, member, storedID, kin⟩ := held.known credential known
    obtain ⟨version, seen, versionID, versionKin⟩ := faithful.exists_kin member
    exact ⟨version, seen, versionID.trans storedID, versionKin.trans kin⟩

end Commits

end Vallet.Auth
