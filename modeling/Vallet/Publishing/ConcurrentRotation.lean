import Vallet.Foundation.TransactionInvariants
import Vallet.Publishing.AccessKeyProtocol

/-!
# Concurrent rotations at READ COMMITTED

Any number of `Rotate` transactions, and the statements of any number of
`Revoke` calls, share the table of access keys.  A rotation reads its key with
a plain `SELECT`, checks that it is active, and later marks it with an `UPDATE`
that only asks for a key that is not revoked.  Two rotations that have both
read the key as active therefore both mark it.  As long as no rotation commits
while another one has read the key as active, a key is replaced once.
-/

namespace Vallet.Publishing

open Auth Effects Relational Database Transaction

/-! ## What holds of a running transaction -/

abbrev KeyDatabaseTransaction (service : AccessKeyService) :=
  Transaction (keyService service) AccessKey.id

abbrev KeyDatabase (service : AccessKeyService) :=
  Database (keyService service) AccessKey.id

def KeyPhase.key? : KeyPhase → Option AccessKey
  | .fresh => none
  | .read key => some key
  | .inserted key _ => some key
  | .marked key _ => some key

/-- A rotation of the key that has read it as active. -/
def KeyTransaction.claims (id : AccessKeyID) (transaction : KeyTransaction)
    (phase : KeyPhase) : Bool :=
  match transaction with
  | .rotate call => decide (call.id = id) &&
      phase.key?.any fun key => decide (key.status = .active)
  | _ => false

namespace KeyDatabaseTransaction

variable {service : AccessKeyService}

def claims (id : AccessKeyID)
    (transaction : KeyDatabaseTransaction service) : Bool :=
  transaction.thread.call.claims id transaction.thread.trail

/-- The transaction has moved the key into its grace window. -/
def Graces (id : AccessKeyID) (transaction : KeyDatabaseTransaction service) : Prop :=
  ∃ row ∈ transaction.pending, row.id = id ∧ row.status = .grace

/-- What a transaction has written of one key. -/
structure Orderly (id : AccessKeyID) (committed : Table AccessKey.id)
    (transaction : KeyDatabaseTransaction service) : Prop where
  keeps : transaction.removed = []
  writes : ∀ row ∈ transaction.pending, row.id = id →
    row.status = .revoked ∨
    (row.status = .grace ∧ transaction.claims id = true) ∨
    (row.status = .active ∧ ∀ stored ∈ committed, stored.id ≠ id)
  scanned : ∀ call key successor scan, transaction.thread.call = .rotate call → call.id = id →
    transaction.thread.trail = .inserted key successor →
    transaction.scan = some scan → scan.affected > 0 →
    transaction.Graces id
  marked : ∀ call key successor, transaction.thread.call = .rotate call → call.id = id →
    transaction.thread.trail = .marked key successor →
    transaction.Graces id

section Moves

variable {id : AccessKeyID} {committed : Table AccessKey.id}
  {transaction later : KeyDatabaseTransaction service}

theorem orderly_start (call : KeyTransaction) : Orderly id committed
      (start (keyService service) AccessKey.id call) where
  keeps := rfl
  writes row impossible := (Table.not_mem_empty row impossible).elim
  scanned _ _ _ _ _ _ impossible := by cases impossible
  marked _ _ _ _ _ impossible := by cases impossible

theorem claims_of_fresh (fresh : transaction.thread.trail = .fresh) :
    transaction.claims id = false := by
  unfold claims KeyTransaction.claims
  rw [fresh]
  cases transaction.thread.call <;> simp [KeyPhase.key?]

section Orderly

variable {thread : Thread (keyService service)} {scan : Option (Scan AccessKeyID)}
  (orderly : Orderly id committed transaction)

include orderly

/-- A new phase between updates, with nothing written. -/
theorem Orderly.next
    (claims : transaction.claims id = true → thread.call.claims id thread.trail = true)
    (idle : scan = none) (marked : ∀ call key successor, thread.call = .rotate call →
      call.id = id → thread.trail = .marked key successor → transaction.Graces id) :
    Orderly id committed { transaction with thread, scan } where
  keeps := orderly.keeps
  writes row written named := (orderly.writes row written named).imp_right
    (Or.imp_left fun ⟨grace, claimed⟩ => ⟨grace, claims claimed⟩)
  scanned _ _ _ _ _ _ _ scanning := by cases idle.symm.trans scanning
  marked := marked

/-- Between updates, a transaction that has written nothing new in the same
phase is as orderly as before. -/
theorem Orderly.of_idle (call : thread.call = transaction.thread.call)
    (trail : thread.trail = transaction.thread.trail) (idle : scan = none) :
    Orderly id committed { transaction with thread, scan } := by
  refine orderly.next (fun claimed => ?_) idle ?_
  · rw [call, trail]
    exact claimed
  · rw [call, trail]
    exact orderly.marked

/-- The successor of a key that was read. -/
theorem Orderly.after_insert {key row : AccessKey} (call : thread.call = transaction.thread.call)
    (read : transaction.thread.trail = .read key) (inserted : thread.trail = .inserted key row)
    (absent : (transaction.view committed).find? row.id = none) (active : row.status = .active)
    (idle : transaction.scan = none) :
    Orderly id committed { transaction with thread, pending := transaction.pending.put row } := by
  have phased : Orderly id committed { transaction with thread } := by
    refine orderly.next (fun claimed => ?_) idle fun _ _ _ _ _ marked => ?_
    · rw [call, inserted]
      rw [claims, read] at claimed
      exact claimed
    · cases inserted.symm.trans marked
  refine ⟨orderly.keeps, fun version written named => ?_, ?_, ?_⟩
  · rcases Table.mem_put.mp written with ⟨old, _⟩ | rfl
    · exact phased.writes version old named
    · refine .inr (.inr ⟨active, fun stored known same => ?_⟩)
      obtain ⟨other, seen, sameID, _⟩ := exists_mem_view orderly.keeps known
      exact Table.find?_eq_none_iff.mp absent other seen (sameID.trans (same.trans named.symm))
  · intro _ _ _ _ _ _ _ scanning
    cases idle.symm.trans scanning
  · intro _ _ _ _ _ marked
    cases inserted.symm.trans marked

/-- A version stored by an update under way. -/
theorem Orderly.after_change {version : AccessKey}
    (writes : version.id = id → version.status = .revoked ∨
      (version.status = .grace ∧ transaction.claims id = true)) (graces : ∀ rotation key successor,
      transaction.thread.call = .rotate rotation → rotation.id = id →
      transaction.thread.trail = .inserted key successor →
      version.id = id ∧ version.status = .grace) (unmarked : ∀ key successor,
      transaction.thread.trail ≠ .marked key successor) :
    Orderly id committed
      { transaction with pending := transaction.pending.put version, scan } where
  keeps := orderly.keeps
  writes row written named := by
    rcases Table.mem_put.mp written with ⟨old, _⟩ | rfl
    · exact orderly.writes row old named
    · exact (writes named).imp_right .inl
  scanned rotation key successor _ rotates named inserted _ _ := by
    obtain ⟨same, grace⟩ := graces rotation key successor rotates named inserted
    exact ⟨version, Table.mem_put.mpr (.inr rfl), same, grace⟩
  marked _ key successor _ _ marked := (unmarked key successor marked).elim

/-- The key that a rotation marks is the one it has read as active. -/
theorem Orderly.after_mark {rotation : AccessKeyService.RotateCall} {key successor row : AccessKey}
    (rotates : transaction.thread.call = .rotate rotation)
    (inserted : transaction.thread.trail = .inserted key successor)
    (matched : row.id = rotation.id) (replacedBy : AccessKeyID) (graceUntil : Int) :
    Orderly id committed { transaction with
      pending := transaction.pending.put (row.rotated replacedBy graceUntil), scan } := by
  refine orderly.after_change ?_ ?_ ?_
  · intro named
    have active : key.status = .active := by
      have valid := transaction.thread.valid
      rw [inserted] at valid
      exact valid
    have sameCall : rotation.id = id := matched.symm.trans named
    refine .inr ⟨rfl, ?_⟩
    simp [claims, KeyTransaction.claims, rotates, inserted, KeyPhase.key?, sameCall, active]
  · intro other _ _ sameRotation named _
    cases rotates.symm.trans sameRotation
    exact ⟨matched.trans named, rfl⟩
  · intro _ _ marked
    cases inserted.symm.trans marked

/-- A rotation whose update has changed a row has marked its key. -/
theorem Orderly.after_marked {key successor : AccessKey} {found : Scan AccessKeyID}
    (call : thread.call = transaction.thread.call)
    (inserted : transaction.thread.trail = .inserted key successor)
    (marked : thread.trail = .marked key successor) (scanned : transaction.scan = some found)
    (changed : found.affected > 0) :
    Orderly id committed { transaction with thread, scan := none } := by
  refine orderly.next (fun claimed => ?_) rfl ?_
  · rw [call, marked]
    rw [claims, inserted] at claimed
    exact claimed
  · intro rotation _ _ rotates named _
    exact orderly.scanned rotation key successor _ (call ▸ rotates) named inserted scanned changed

end Orderly

variable {catalog : Catalog} {database : KeyDatabase service} {index : Nat}

theorem Orderly.after_move (orderly : Orderly id database.committed transaction)
    (moved : Move (keySchema catalog) database index transaction
      later) : Orderly id database.committed later := by
  cases moved with
  | read waiting idle form =>
    rcases phase_of_read waiting form (transaction.view database.committed) with
      same | ⟨key, _, fresh, reads, _⟩
    · exact orderly.of_idle rfl same idle
    refine orderly.next (fun claimed => ?_) idle fun _ _ _ _ _ marked => ?_
    · cases (claims_of_fresh fresh).symm.trans claimed
    · cases reads.symm.trans marked
  | insert waiting idle form unlocked absent fits =>
    obtain ⟨_, key, read, active, inserted⟩ := phase_of_insert waiting form
    exact orderly.after_insert rfl read inserted absent active idle
  | collide waiting idle form unlocked taken =>
    exact orderly.of_idle rfl (phase_of_insert waiting form).1 idle
  | find waiting idle form =>
    refine ⟨orderly.keeps, orderly.writes, ?_, orderly.marked⟩
    intro _ _ _ _ _ _ _ scanning affected
    cases scanning
    exact (Nat.lt_irrefl 0 affected).elim
  | @change β statement next chosen change keepsKey answer scan row version
      waiting scanning form visited latest matched changed unlocked fits =>
    rcases phase_of_update waiting form with
      ⟨call, key, successor, replacedBy, graceUntil, rotates, inserted,
        rfl, changes, _⟩ | ⟨fresh, now, changes, _⟩
    · obtain rfl := Option.some.inj ((changes row).symm.trans changed)
      simp only [AccessKey.rotatable, AccessKey.ownedBy, Bool.and_eq_true,
        decide_eq_true_eq] at matched
      exact orderly.after_mark rotates inserted matched.1.1 replacedBy graceUntil
    · obtain rfl := Option.some.inj ((changes row).symm.trans changed)
      refine orderly.after_change (fun _ => .inl rfl) ?_ ?_
      · intro _ _ _ _ _ inserted
        cases fresh.symm.trans inserted
      · intro _ _ marked
        cases fresh.symm.trans marked
  | remove waiting scanning form visited latest matched changed free =>
    rcases phase_of_update waiting form with
      ⟨_, _, _, _, _, _, _, _, changes, _⟩ | ⟨_, _, changes, _⟩
    all_goals simp [changes] at changed
  | @skip β statement next chosen change keepsKey answer scan wanted waiting
      scanning form visited free unmatched =>
    refine ⟨orderly.keeps, orderly.writes, ?_, orderly.marked⟩
    intro call key successor later rotates named inserted same affected
    cases same
    exact orderly.scanned call key successor scan rotates named inserted scanning affected
  | @finish β statement next chosen change keepsKey answer affected waiting scanned form =>
    rcases phase_of_update waiting form with
      ⟨call, key, successor, _, _, rotates, inserted, _, _, trail⟩ |
      ⟨fresh, _, _, trail⟩
    · have became := trail affected
      by_cases changed : affected > 0
      · rw [if_pos changed] at became
        exact orderly.after_marked rfl inserted became scanned changed
      · rw [if_neg changed] at became
        exact orderly.of_idle rfl (became.trans inserted.symm) rfl
    · exact orderly.of_idle rfl ((trail affected).trans fresh.symm) rfl

/-- A transaction comes to claim a key only by reading it as active. -/
theorem claims_of_move (moved : Move (keySchema catalog) database index transaction
      later) (claimed : later.claims id = true) :
    transaction.claims id = true ∨
      (transaction.thread.trail = .fresh ∧
        ∃ key ∈ transaction.view database.committed, key.id = id ∧
          key.status = .active) := by
  have same : ∀ {phase : KeyPhase}, later.thread.trail = phase →
      phase.key? = transaction.thread.trail.key? →
      later.thread.call = transaction.thread.call →
      transaction.claims id = true := by
    rintro phase rfl keys call
    unfold claims KeyTransaction.claims at claimed ⊢
    rw [← keys, ← call]
    exact claimed
  cases moved with
  | read waiting idle form =>
    rcases phase_of_read waiting form (transaction.view database.committed) with
      unchanged | ⟨key, seen, fresh, reads, named⟩
    · exact .inl (same unchanged rfl rfl)
    refine .inr ⟨fresh, key, seen, ?_⟩
    unfold claims KeyTransaction.claims at claimed
    rw [reads] at claimed
    split at claimed
    · rename_i call rotates
      simp only [KeyPhase.key?, Option.any_some, Bool.and_eq_true, decide_eq_true_eq] at claimed
      exact ⟨(named call rotates).trans claimed.1, claimed.2⟩
    · cases claimed
  | insert waiting idle form unlocked absent fits =>
    obtain ⟨_, key, read, _, inserted⟩ := phase_of_insert waiting form
    exact .inl (same inserted (by rw [read]; rfl) rfl)
  | collide waiting idle form => exact .inl (same (phase_of_insert waiting form).1 rfl rfl)
  | find | change | remove | skip => exact .inl claimed
  | @finish β statement next chosen change keepsKey answer affected waiting scanned form =>
    rcases phase_of_update waiting form with
      ⟨_, key, successor, _, _, _, inserted, _, _, trail⟩ |
      ⟨fresh, _, _, trail⟩
    · refine .inl (same (trail affected) ?_ rfl)
      rw [inserted]
      split <;> rfl
    · exact .inl (same (trail affected) (by rw [fresh]) rfl)

end Moves

/-- What a transaction has written of a key survives the commits of others. -/
theorem orderly_discipline (catalog : Catalog) (id : AccessKeyID)
    (allows : KeyDatabase service → Nat → Prop) :
    Discipline (keySchema catalog) Except.isOk allows
      (fun _ => True) (Orderly id) where
  start call _ := orderly_start call
  move _ _ orderly moved := orderly.after_move moved
  publish _ _ _ _ _ _ := trivial
  endure := by
    intro database index other transaction holder _ _ _ held apart _ _ _ _ _ _ _
    refine ⟨held.keeps, fun row written named => ?_, held.scanned, held.marked⟩
    rcases held.writes row written named with
      revoked | grace | ⟨active, unknown⟩
    · exact .inl revoked
    · exact .inr (.inl grace)
    · refine .inr (.inr ⟨active, fun stored seen same => ?_⟩)
      rcases mem_view.mp seen with locked | ⟨member, _⟩
      · refine apart.1 id ?_ ?_
        · exact same ▸ touches_of_mem locked
        · exact named ▸ touches_of_mem written
      · exact unknown stored member same

end KeyDatabaseTransaction

/-! ## Keys that cannot be replaced any more -/

namespace KeyDatabase

open KeyDatabaseTransaction

variable {service : AccessKeyService} {catalog : Catalog} {id : AccessKeyID}
  {allows : KeyDatabase service → Nat → Prop} {before after : KeyDatabase service}

/-- Runs of rotations and revocations against fixed owners and sets, in which
a transaction whose body returned no error may commit when `allows` says so. -/
def Runs (catalog : Catalog) (allows : KeyDatabase service → Nat → Prop) :
    KeyDatabase service → KeyDatabase service → Prop :=
  Database.Runs (keySchema catalog) Except.isOk allows

/-- Nobody who would rotate the key has read it as active, and it is not. -/
structure Closed (id : AccessKeyID) (database : KeyDatabase service) :
    Prop where
  stored : ∃ row ∈ database.committed, row.id = id
  spent : ∀ row ∈ database.committed, row.id = id → row.status ≠ .active
  unclaimed : ∀ {index transaction}, database.At index transaction →
    transaction.standing = .running →
    KeyDatabaseTransaction.claims id transaction = false

variable {transaction : KeyDatabaseTransaction service} {row : AccessKey} {index : Nat}

theorem Closed.revokes (closed : Closed id before)
    (orderly : Orderly id before.committed transaction) (unclaimed : transaction.claims id = false)
    (written : row ∈ transaction.pending) (named : row.id = id) : row.status = .revoked := by
  rcases orderly.writes row written named with
    revoked | ⟨_, claimed⟩ | ⟨_, unknown⟩
  · exact revoked
  · rw [unclaimed] at claimed
    cases claimed
  · obtain ⟨stored, member, same⟩ := closed.stored
    exact (unknown stored member same).elim

theorem Closed.spent_view (closed : Closed id before)
    (orderly : Orderly id before.committed transaction) (unclaimed : transaction.claims id = false)
    (seen : row ∈ transaction.view before.committed) (named : row.id = id) :
    row.status ≠ .active := by
  rcases mem_view.mp seen with written | ⟨member, _⟩
  · rw [closed.revokes orderly unclaimed written named]
    simp
  · exact closed.spent row member named

theorem Closed.after_step (closed : Closed id before)
    (holds : before.Holds (keySchema catalog) (fun _ => True) (Orderly id))
    (step : Step (keySchema catalog) Except.isOk allows before
      after) : Closed id after := by
  cases step with
  | start call =>
    refine ⟨closed.stored, closed.spent, fun found running => ?_⟩
    rcases at_append found with old | rfl
    · exact closed.unclaimed old running
    · exact claims_of_fresh rfl
  | @move index transaction later was wasRunning moved =>
    refine ⟨closed.stored, closed.spent, fun found running => ?_⟩
    rcases (at_set was).mp found with ⟨_, rfl⟩ | ⟨_, old⟩
    · by_contra claimed
      rw [Bool.not_eq_false] at claimed
      have unclaimed := closed.unclaimed was wasRunning
      rcases claims_of_move moved claimed with
        already | ⟨_, key, seen, named, active⟩
      · rw [unclaimed] at already
        cases already
      · exact closed.spent_view (holds.running was wasRunning) unclaimed seen named active
    · exact closed.unclaimed old running
  | @commit index transaction value was wasRunning =>
    have orderly : Orderly id before.committed transaction := holds.running was wasRunning
    have unclaimed := closed.unclaimed was wasRunning
    constructor
    case stored =>
      obtain ⟨row, member, named⟩ := closed.stored
      obtain ⟨version, seen, same, _⟩ := exists_mem_view orderly.keeps member
      exact ⟨version, seen, same.trans named⟩
    case spent =>
      exact fun row seen named =>
        closed.spent_view orderly unclaimed seen named
    case unclaimed =>
      intro other found at' running
      rcases (at_set was).mp at' with ⟨_, rfl⟩ | ⟨_, old⟩
      · cases running
      · exact closed.unclaimed old running
  | abort was wasRunning =>
    refine ⟨closed.stored, closed.spent, fun found running => ?_⟩
    rcases (at_set was).mp found with ⟨_, rfl⟩ | ⟨_, old⟩
    · cases running
    · exact closed.unclaimed old running

theorem Closed.frozen_after_step (closed : Closed id before)
    (holds : before.Holds (keySchema catalog) (fun _ => True) (Orderly id))
    (step : Step (keySchema catalog) Except.isOk allows before
      after) (frozen : ∀ version ∈ before.committed, version.id = id →
      version = row ∨ version.status = .revoked) :
    ∀ version ∈ after.committed, version.id = id →
      version = row ∨ version.status = .revoked := by
  cases step with
  | start | move | abort => exact frozen
  | commit was wasRunning =>
    intro version seen named
    rcases mem_view.mp seen with written | ⟨member, _⟩
    · exact .inr (closed.revokes (holds.running was wasRunning)
        (closed.unclaimed was wasRunning) written named)
    · exact frozen version member named

/-! ## Keys are replaced once -/

/-- A rotation that has read the key as active commits while no other running
one has. -/
def Undisturbed (id : AccessKeyID) (database : KeyDatabase service)
    (index : Nat) : Prop :=
  ∀ transaction ∈ database.transactions[index]?,
    KeyDatabaseTransaction.claims id transaction = true →
    ∀ other ∈ database.transactions.eraseIdx index,
      other.standing.isRunning = true →
      KeyDatabaseTransaction.claims id other = false

instance (id : AccessKeyID) (database : KeyDatabase service) (index : Nat) :
    Decidable (database.Undisturbed id index) :=
  inferInstanceAs (Decidable (∀ transaction ∈ database.transactions[index]?, _))

/-- A committed rotation of the key. -/
def replaces (id : AccessKeyID)
    (transaction : KeyDatabaseTransaction service) : Bool :=
  match transaction.thread.call, transaction.standing with
  | .rotate call, .committed (.ok _) => decide (call.id = id)
  | _, _ => false

/-- The transaction of the number is a committed rotation of the key. -/
def Replaces (id : AccessKeyID) (database : KeyDatabase service)
    (index : Nat) : Prop :=
  database.transactions[index]?.any (replaces id) = true

instance (id : AccessKeyID) (database : KeyDatabase service) (index : Nat) :
    Decidable (database.Replaces id index) :=
  inferInstanceAs (Decidable (_ = true))

theorem replaces_iff {database : KeyDatabase service} : database.Replaces id index ↔
      ∃ transaction call value, database.At index transaction ∧
        transaction.thread.call = .rotate call ∧ call.id = id ∧
        transaction.standing = .committed (.ok value) := by
  rw [Replaces, Option.any_eq_true]
  constructor
  · rintro ⟨transaction, found, replaced⟩
    unfold replaces at replaced
    split at replaced
    · rename_i call value rotates standing
      exact ⟨transaction, call, value, found, rotates, of_decide_eq_true replaced, standing⟩
    · cases replaced
  · rintro ⟨transaction, call, value, found, rotates, named, standing⟩
    refine ⟨transaction, found, ?_⟩
    simp [replaces, rotates, standing, named]

/-- Once a rotation has replaced the key, none does again. -/
structure Settled (catalog : Catalog) (id : AccessKeyID)
    (database : KeyDatabase service) : Prop where
  holds : database.Holds (keySchema catalog) (fun _ => True) (Orderly id)
  graced : ∀ row ∈ database.committed, row.id = id → row.status = .grace →
    Closed id database
  replaced : ∀ index, database.Replaces id index → Closed id database
  once : ∀ index other, database.Replaces id index →
    database.Replaces id other → index = other

/-- A commit that moves the key into its grace window, while nobody else has
claimed the key, closes it. -/
theorem closed_of_commit {running : KeyDatabaseTransaction service}
    (committed : after.committed = running.view before.committed)
    (others : ∀ {other holder}, after.At other holder →
      holder.standing = .running → other ≠ index ∧ before.At other holder)
    (was : before.At index running) (claimed : running.claims id = true)
    (undisturbed : before.Undisturbed id index)
    (written : row ∈ running.pending) (named : row.id = id) (grace : row.status = .grace) :
    Closed id after := by
  have seen : row ∈ after.committed := committed ▸ mem_view.mpr (.inl written)
  constructor
  case stored => exact ⟨row, seen, named⟩
  case spent =>
    intro version versionSeen versionNamed
    rw [Table.eq_of_key_eq versionSeen seen (versionNamed.trans named.symm), grace]
    simp
  case unclaimed =>
    intro other holder found holding
    obtain ⟨differs, old⟩ := others found holding
    exact undisturbed running was claimed holder
      (List.mem_eraseIdx_iff_getElem?.mpr ⟨other, differs, old⟩)
      (Standing.isRunning_iff.mpr holding)

/-- A rotation about to commit has claimed its key and moved it into its grace
window. -/
theorem graces_of_returned {call : AccessKeyService.RotateCall} {value : Option AccessKey}
    (orderly : Orderly id before.committed transaction)
    (rotates : transaction.thread.call = .rotate call) (named : call.id = id)
    (returned : transaction.thread.rest = .done (.ok value)) :
    transaction.claims id = true ∧ transaction.Graces id := by
  have concluded := transaction.thread.concluded returned
  have valid := transaction.thread.valid
  simp only [keyService, rotates] at concluded valid
  obtain ⟨key, successor, _, marked⟩ := concluded
  rw [marked] at valid
  refine ⟨?_, orderly.marked call key successor rotates named marked⟩
  have active : key.status = .active := valid
  simp [KeyDatabaseTransaction.claims, KeyTransaction.claims, rotates, marked,
    KeyPhase.key?, named, active]

section Steps

variable (settled : Settled catalog id before)
  (step : Step (keySchema catalog) Except.isOk (Undisturbed id) before after)

include settled step

/-- A rotation of the key stood committed before the step, or the step is its
commit, the first of all, and closes the key. -/
theorem replaces_cases (replaces : after.Replaces id index) : before.Replaces id index ∨
    ((∀ earlier, ¬ before.Replaces id earlier) ∧ Closed id after ∧
      ∀ other, after.Replaces id other → other = index) := by
  obtain ⟨transaction, call, value, found, rotates, named, ended⟩ := replaces_iff.mp replaces
  rcases step.committed_cases found ended with
    old | ⟨running, was, wasRunning, _, returned, _, undisturbed, committed, same⟩
  · exact .inl (replaces_iff.mpr ⟨transaction, call, value, old, rotates, named, ended⟩)
  subst same
  have orderly : Orderly id before.committed running := settled.holds.running was wasRunning
  obtain ⟨claimed, row, written, rowID, grace⟩ := graces_of_returned orderly rotates named returned
  have first : ∀ earlier, ¬ before.Replaces id earlier := by
    intro earlier replaced
    rw [(settled.replaced earlier replaced).unclaimed was wasRunning] at claimed
    cases claimed
  refine .inr ⟨first, ?_, fun other otherReplaces => ?_⟩
  · refine closed_of_commit committed (fun {other holder} holding running =>
      ?_) was claimed undisturbed written rowID grace
    by_cases differs : other = index
    · subst differs
      rw [holding.unique found] at running
      cases running
    · exact ⟨differs, step.others_of_commit was wasRunning found rfl holding differs⟩
  · obtain ⟨holder, otherCall, otherValue, holding, otherRotates,
      otherNamed, otherEnded⟩ := replaces_iff.mp otherReplaces
    by_contra differs
    exact first other (replaces_iff.mpr ⟨holder, otherCall, otherValue,
      step.others_of_commit was wasRunning found rfl holding differs,
      otherRotates, otherNamed, otherEnded⟩)

/-- A key in its grace window was there before, or the step is the commit that
has put it there, and closes the key. -/
theorem Settled.graced_after_step (member : row ∈ after.committed) (named : row.id = id)
    (grace : row.status = .grace) : Closed id after := by
  have stays : row ∈ before.committed → Closed id after := fun stored =>
    (settled.graced row stored named grace).after_step settled.holds step
  cases step with
  | start | move | abort => exact stays member
  | @commit index transaction value was wasRunning _ _ _ undisturbed =>
    rcases mem_view.mp member with written | ⟨stored, _⟩
    · have orderly : Orderly id before.committed transaction := settled.holds.running was wasRunning
      rcases orderly.writes row written named with
        revoked | ⟨_, claimed⟩ | ⟨active, _⟩
      · rw [revoked] at grace
        cases grace
      · refine closed_of_commit rfl (fun {other holder} holding running =>
          ?_) was claimed undisturbed written named grace
        rcases (at_set was).mp holding with
          ⟨_, rfl⟩ | ⟨differs, old⟩
        · cases running
        · exact ⟨differs, old⟩
      · rw [active] at grace
        cases grace
    · exact stays stored

theorem Settled.after_step : Settled catalog id after where
  holds := settled.holds.after_step (orderly_discipline catalog id _) step
  graced row member named grace :=
    settled.graced_after_step step member named grace
  replaced index replaces := by
    rcases replaces_cases settled step replaces with old | ⟨_, closed, _⟩
    · exact (settled.replaced index old).after_step settled.holds step
    · exact closed
  once index other replaces otherReplaces := by
    rcases replaces_cases settled step replaces with old | ⟨_, _, only⟩
    · rcases replaces_cases settled step otherReplaces with
        otherOld | ⟨first, _, _⟩
      · exact settled.once index other old otherOld
      · exact (first index old).elim
    · exact (only other otherReplaces).symm

end Steps

theorem settled_idle (catalog : Catalog) (id : AccessKeyID) (keys : Table AccessKey.id) :
    Settled catalog id (idle (keyService service) keys) where
  holds := holds_idle (unique_keys catalog keys) trivial
  graced row member named grace := by
    refine ⟨⟨row, member, named⟩, fun version stored same => ?_,
      fun found => by cases found⟩
    rw [Table.eq_of_key_eq stored member (same.trans named.symm), grace]
    simp
  replaced index replaces := by
    obtain ⟨_, _, _, found, _⟩ := replaces_iff.mp replaces
    cases found
  once index other replaces := by
    obtain ⟨_, _, _, found, _⟩ := replaces_iff.mp replaces
    cases found

theorem Settled.after_runs (runs : Runs catalog (Undisturbed id) before after)
    (settled : Settled catalog id before) : Settled catalog id after := by
  induction runs with
  | refl => exact settled
  | tail _ step induction => exact induction.after_step step

theorem Closed.frozen_after_runs (runs : Runs catalog (Undisturbed id) before after)
    (settled : Settled catalog id before) (closed : Closed id before)
    (member : row ∈ before.committed) (named : row.id = id) :
    ∀ version ∈ after.committed, version.id = id →
      version = row ∨ version.status = .revoked := by
  have both : Closed id after ∧ ∀ version ∈ after.committed,
      version.id = id → version = row ∨ version.status = .revoked := by
    induction runs with
    | refl =>
      refine ⟨closed, fun version stored same => .inl ?_⟩
      exact Table.eq_of_key_eq stored member (same.trans named.symm)
    | tail earlier step induction =>
      have holds := (settled.after_runs earlier).holds
      exact ⟨induction.1.after_step holds step,
        induction.1.frozen_after_step holds step induction.2⟩
  exact both.2

/-- In every interleaving in which rotations that have read the key as active
commit one at a time, at most one rotation of the key commits, and its grace
window and successor are written once. -/
theorem key_replaced_at_most_once (service : AccessKeyService)
    (catalog : Catalog) (keys : Table AccessKey.id) (id : AccessKeyID)
    {database later : KeyDatabase service} (reached : Runs catalog (Undisturbed id)
      (idle (keyService service) keys) database)
    (runs : Runs catalog (Undisturbed id) database later) :
    (∀ index other, later.Replaces id index → later.Replaces id other →
      index = other) ∧
    ∀ row ∈ database.committed, row.id = id → row.status = .grace →
      ∀ version ∈ later.committed, version.id = id →
        version.status = .grace →
        version.graceUntil = row.graceUntil ∧
          version.replacedByID = row.replacedByID := by
  have settled : Settled catalog id database := (settled_idle catalog id keys).after_runs reached
  refine ⟨(settled.after_runs runs).once, ?_⟩
  intro row member named grace version stored same versionGrace
  rcases (settled.graced row member named grace).frozen_after_runs runs
    settled member named version stored same with rfl | revoked
  · exact ⟨rfl, rfl⟩
  · rw [revoked] at versionGrace
    cases versionGrace

end KeyDatabase

namespace Sample

/-- One active key. -/
def keys : Table AccessKey.id :=
  (Table.empty.insert? {
    id := List.replicate 26 65, ownerID := utf8 "olive",
    keySetID := utf8 "work", name := utf8 "laptop", secretHash := [],
    status := .active, createdAt := 10, revokedAt := none,
    graceUntil := none, replacedByID := none }).getD .empty

def rotation (letter : UInt8) (known : letter ∈ randTextAlphabet)
    (now : Int) : KeyTransaction :=
  .rotate {
    ownerID := utf8 "olive"
    id := List.replicate 26 65
    requestID := []
    now := now
    draw := draw letter known
    createdAuditID := []
    rotatedAuditID := [] }

/-- Two rotations of the key have been started. -/
def started : KeyDatabase accessKeyService :=
  ((idle (keyService accessKeyService) keys).begin
    (rotation 66 b_known 20)).begin (rotation 67 c_known 30)

/-- Let the transactions go on in the given order. -/
def schedule (allows : KeyDatabase accessKeyService → Nat → Prop)
    [∀ database index, Decidable (allows database index)]
    (order : List Nat) (database : KeyDatabase accessKeyService) : KeyDatabase accessKeyService :=
  order.foldl (advance (keySchema catalog) Except.isOk allows)
    database

/-- Both rotations read and insert; then one marks the key and commits. -/
def replaced : KeyDatabase accessKeyService :=
  schedule (fun _ _ => True) [0, 0, 0, 1, 1, 1, 0, 0, 0, 0] started

/-- The other one goes on to its commit. -/
def replacedAgain : KeyDatabase accessKeyService :=
  schedule (fun _ _ => True) [1, 1, 1, 1] replaced

/-- One rotation runs to its commit before the other one reads. -/
def oneByOne : KeyDatabase accessKeyService :=
  schedule (KeyDatabase.Undisturbed (List.replicate 26 65)) [0, 0, 0, 0, 0, 0, 0] started

/-- The other one finds a key that is no longer active. -/
def refused : KeyDatabase accessKeyService :=
  schedule (KeyDatabase.Undisturbed (List.replicate 26 65)) [1, 1] oneByOne

/-- The successor and the deadline of the stored key. -/
def successorOf (database : KeyDatabase accessKeyService) :
    Option (Option AccessKeyID × Option Int) :=
  (database.committed.find? (List.replicate 26 65)).map fun key =>
    (key.replacedByID, key.graceUntil)

end Sample

open Sample

namespace KeyDatabase

/-- Both rotations have read the key as active, so both commit: the key gets a
second successor, and its grace window is moved. -/
theorem key_replaced_twice : Runs catalog (fun _ _ => True)
        (idle (keyService accessKeyService) keys)
        replaced ∧
      Runs catalog (fun _ _ => True) replaced
        replacedAgain ∧
      successorOf replaced =
        some (some (List.replicate 26 66), some (24 * Duration.hour + 20)) ∧
      successorOf replacedAgain =
        some (some (List.replicate 26 67), some (24 * Duration.hour + 30)) ∧
      replacedAgain.Replaces (List.replicate 26 65) 0 ∧
      replacedAgain.Replaces (List.replicate 26 65) 1 := by
  refine ⟨?_, Database.schedule_runs _ _, by decide +kernel,
    by decide +kernel, by decide +kernel, by decide +kernel⟩
  exact ((Database.begin_runs _ _).trans (Database.begin_runs _ _)).trans
    (Database.schedule_runs _ _)

/-- The second rotation comes after the commit of the first one and is
refused. -/
theorem key_replaced_at_most_once_refused : refused.Replaces (List.replicate 26 65) 0 ∧
      ¬ refused.Replaces (List.replicate 26 65) 1 ∧
      (∀ index other,
        refused.Replaces (List.replicate 26 65) index →
        refused.Replaces (List.replicate 26 65) other →
        index = other) ∧
      ∀ row ∈ oneByOne.committed, row.id = List.replicate 26 65 →
        row.status = .grace →
        ∀ version ∈ refused.committed,
          version.id = List.replicate 26 65 → version.status = .grace →
          version.graceUntil = row.graceUntil ∧
            version.replacedByID = row.replacedByID := by
  refine ⟨by decide +kernel, by decide +kernel, ?_⟩
  exact key_replaced_at_most_once accessKeyService catalog keys (List.replicate 26 65)
    (((Database.begin_runs _ _).trans (Database.begin_runs _ _)).trans
      (Database.schedule_runs _ _)) (Database.schedule_runs _ _)

end KeyDatabase

end Vallet.Publishing
