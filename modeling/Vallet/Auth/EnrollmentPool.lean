import Vallet.Auth.EnrollmentPrograms
import Vallet.Auth.Lineage
import Vallet.Foundation.Interleaving

/-!
# Interleaved enrollment

Any number of calls run against the same tables, one statement at a time.  A
call remembers what it has done, and the tables agree with what all calls
remember: who created a pairing, who set its owner and who redeemed it.
-/

namespace Vallet.DevicePairing

/-- A pairing keeps its owner once it has one, and stays where it ended. -/
structure Advances (before after : DevicePairing) : Prop where
  ownerID : before.ownerID ≠ [] → after.ownerID = before.ownerID
  redeemed : before.status = .redeemed → after.status = .redeemed
  revoked : before.status = .revoked → after.status = .revoked

theorem Advances.refl (pairing : DevicePairing) : pairing.Advances pairing :=
  ⟨fun _ => rfl, fun redeemed => redeemed, fun revoked => revoked⟩

theorem Advances.trans {first second third : DevicePairing}
    (earlier : first.Advances second) (later : second.Advances third) : first.Advances third := by
  refine ⟨fun owned => ?_, fun redeemed => later.redeemed
    (earlier.redeemed redeemed), fun revoked => later.revoked (earlier.revoked revoked)⟩
  have same := earlier.ownerID owned
  rw [← same] at owned ⊢
  exact later.ownerID owned

end Vallet.DevicePairing

namespace Vallet.Auth

open Counter Effects Relational

/-- What the acts so far say about the call. -/
structure EnrollmentCall.TrailValid (call : EnrollmentCall) (trail : PairingTrail) : Prop where
  created : ∀ pairing, trail.created = some pairing → call.drawn = some pairing.id
  bound : ∀ id ownerID, trail.bound = some (id, ownerID) → ownerID ≠ [] ∧ call.Binds ownerID
  minted : ∀ root, trail.minted = some root → IsRootCredential root
  redeemed : ∀ redemption, trail.redeemed = some redemption → call.Redeems redemption.id

variable {act : PairingAct}

theorem EnrollmentCall.trailValid_blank (call : EnrollmentCall) : call.TrailValid {} := by
  constructor <;> simp

theorem EnrollmentCall.TrailValid.record {call : EnrollmentCall}
    {trail : PairingTrail} (permitted : call.Permits trail act) (valid : call.TrailValid trail) :
    call.TrailValid (trail.record act) := by
  cases act with
  | created pairing =>
    obtain ⟨_, _, drawn, _, kind⟩ := permitted
    refine ⟨?_, ?_, valid.minted, valid.redeemed⟩
    · rintro other ⟨⟩
      exact drawn
    · intro id ownerID bound
      simp only [PairingTrail.record] at bound
      rcases kind with ⟨_, unowned⟩ | ⟨_, owned, binds⟩
      · rw [if_pos unowned] at bound
        exact valid.bound id ownerID bound
      · rw [if_neg owned] at bound
        cases bound
        exact ⟨owned, binds⟩
  | approved id ownerID now =>
    refine ⟨valid.created, ?_, valid.minted, valid.redeemed⟩
    rintro other otherOwner ⟨⟩
    exact ⟨permitted.2.1, permitted.2.2⟩
  | minted credential =>
    refine ⟨valid.created, valid.bound, ?_, valid.redeemed⟩
    rintro root ⟨⟩
    exact permitted.2.2
  | redeemed id ownerID lineageID now =>
    refine ⟨valid.created, valid.bound, valid.minted, ?_⟩
    rintro redemption ⟨⟩
    exact permitted.2.1
  | _ => exact ⟨valid.created, valid.bound, valid.minted, valid.redeemed⟩

/-- Enrollment as a service whose calls interleave. -/
def enrollmentService (signer : AccessTokenSigner) :
    Service EnrollmentStatement EnrollmentCall (Except Err EnrollmentAnswer)
      PairingAct PairingTrail where
  program := EnrollmentCall.program signer
  labelling := enrollmentLabelling
  blank := {}
  permits := EnrollmentCall.Permits
  concludes := fun call trail answer => call.Concludes trail answer
  valid := EnrollmentCall.TrailValid
  obeyed := EnrollmentCall.follows_program signer
  valid_blank := EnrollmentCall.trailValid_blank
  valid_record := EnrollmentCall.TrailValid.record

/-- The generator returns no identifier twice. -/
def FreshDraws (started : List EnrollmentCall) (call : EnrollmentCall) : Prop :=
  ∀ other ∈ started, ∀ id, other.drawn = some id → call.drawn ≠ some id

/-! ## What acts leave on a trail -/

/-- The pairing whose owner an act sets. -/
def PairingAct.binds : PairingAct → Option (PairingID × OwnerID)
  | .created pairing =>
    if pairing.ownerID = [] then none
    else some (pairing.id, pairing.ownerID)
  | .approved id ownerID _ => some (id, ownerID)
  | _ => none

namespace PairingTrail

variable {call : EnrollmentCall} {trail : PairingTrail} {act : PairingAct}
  {binding : PairingID × OwnerID} {pairing : DevicePairing}

theorem bound_record (bound : (trail.record act).bound = some binding) :
    act.binds = some binding ∨ trail.bound = some binding := by
  cases act with
  | created pairing =>
    simp only [record] at bound
    by_cases unowned : pairing.ownerID = []
    · rw [if_pos unowned] at bound
      exact .inr bound
    · rw [if_neg unowned] at bound
      exact .inl (by rw [← bound]; exact if_neg unowned)
  | approved id ownerID now => exact .inl bound
  | _ => exact .inr bound

theorem read_record (read : (trail.record act).read = some pairing) :
    act = .read pairing ∨ trail.read = some pairing := by
  cases act with
  | read other =>
    cases read
    exact .inl rfl
  | _ => exact .inr read

theorem burned_record {lineage : OwnerID × LineageID}
    (burned : (trail.record act).burned = some lineage) :
    (∃ now, act = .burned lineage.1 lineage.2 now) ∨ trail.burned = some lineage := by
  cases act with
  | burned ownerID lineageID now =>
    cases burned
    exact .inl ⟨now, rfl⟩
  | _ => exact .inr burned

theorem created_record (permitted : call.Permits trail act)
    (created : trail.created = some pairing) : (trail.record act).created = some pairing := by
  cases act with
  | created other =>
    rw [permitted.1] at created
    cases created
  | _ => exact created

theorem bound_record_of_bound (permitted : call.Permits trail act)
    (bound : trail.bound = some binding) : (trail.record act).bound = some binding := by
  cases act with
  | created other =>
    rw [permitted.2.1] at bound
    cases bound
  | approved id ownerID now =>
    rw [permitted.1] at bound
    cases bound
  | _ => exact bound

theorem bound_record_of_binds (binds : act.binds = some binding) :
    (trail.record act).bound = some binding := by
  cases act with
  | created pairing =>
    simp only [PairingAct.binds] at binds
    simp only [record]
    by_cases unowned : pairing.ownerID = []
    · rw [if_pos unowned] at binds
      cases binds
    · rw [if_neg unowned] at binds
      rw [if_neg unowned, binds]
  | approved id ownerID now => exact binds
  | _ => cases binds

end PairingTrail

theorem RowChange.advances {before after : DevicePairing} (change : RowChange act before after)
    (unowned : before.status = .pending → before.ownerID = []) : before.Advances after := by
  cases change with
  | keeps _ keeps => exact ⟨fun _ => keeps.ownerID, keeps.redeemed.mpr, keeps.revoked⟩
  | approved pending =>
    refine ⟨fun owned => (owned (unowned pending)).elim, ?_, ?_⟩
    · exact fun redeemed => nomatch pending.symm.trans redeemed
    · exact fun revoked => nomatch pending.symm.trans revoked
  | redeemed owned approved =>
    refine ⟨fun _ => rfl, fun _ => rfl, ?_⟩
    exact fun revoked => nomatch approved.symm.trans revoked

/-! ## What holds of every pool -/

abbrev EnrollmentPool (signer : AccessTokenSigner) (σ : Type) :=
  Pool (enrollmentService signer) (EnrollmentState σ)

namespace EnrollmentPool

variable {signer : AccessTokenSigner} {σ : Type}

/-- Some call created the pairing, with these values. -/
def Created (pool : EnrollmentPool signer σ) (pairing : DevicePairing) : Prop :=
  ∃ index thread, pool.At index thread ∧ thread.trail.created = some pairing

/-- Some call set the owner of the pairing. -/
def Bound (pool : EnrollmentPool signer σ) (id : PairingID) (ownerID : OwnerID) : Prop :=
  ∃ index thread, pool.At index thread ∧ thread.trail.bound = some (id, ownerID)

/-- The pairing comes from one that some call created. -/
def Originates (pool : EnrollmentPool signer σ) (pairing : DevicePairing) : Prop :=
  ∃ created, pool.Created created ∧ created.id = pairing.id ∧ created.scopes = pairing.scopes

/-- How the rows of the pairing table agree with what calls have done. -/
structure Coherent (pool : EnrollmentPool signer σ) : Prop where
  drawnOnce : ∀ index other thread found id, pool.At index thread →
    pool.At other found → thread.call.drawn = some id →
    found.call.drawn = some id → index = other
  origin : ∀ pairing ∈ pool.state.pairings, pool.Originates pairing
  unowned : ∀ pairing ∈ pool.state.pairings, pairing.status = .pending → pairing.ownerID = []
  owner : ∀ pairing ∈ pool.state.pairings, pairing.ownerID ≠ [] →
    pool.Bound pairing.id pairing.ownerID
  boundCreated : ∀ id ownerID, pool.Bound id ownerID →
    ∃ created, pool.Created created ∧ created.id = id
  boundRow : ∀ id ownerID, pool.Bound id ownerID →
    ∀ pairing ∈ pool.state.pairings, pairing.id = id →
    pairing.ownerID = ownerID ∧ pairing.status ≠ .pending
  boundOnce : ∀ index other thread found id ownerID otherOwner,
    pool.At index thread → pool.At other found →
    thread.trail.bound = some (id, ownerID) →
    found.trail.bound = some (id, otherOwner) → index = other
  redeemedRow : ∀ index thread redemption, pool.At index thread →
    thread.trail.redeemed = some redemption →
    ∀ pairing ∈ pool.state.pairings, pairing.id = redemption.id →
    pairing.status = .redeemed ∧ pairing.lineageID = redemption.lineageID
  redeemedOnce : ∀ index other thread found redemption second,
    pool.At index thread → pool.At other found →
    thread.trail.redeemed = some redemption →
    found.trail.redeemed = some second → redemption.id = second.id →
    index = other
  redeemedBound : ∀ index thread redemption, pool.At index thread →
    thread.trail.redeemed = some redemption →
    pool.Bound redemption.id redemption.ownerID
  readOrigin : ∀ index thread pairing, pool.At index thread →
    thread.trail.read = some pairing → pool.Originates pairing

theorem Coherent.createdOnce {pool : EnrollmentPool signer σ}
    (coherent : pool.Coherent) {first second : DevicePairing}
    (firstCreated : pool.Created first) (secondCreated : pool.Created second)
    (sameID : first.id = second.id) : first = second := by
  obtain ⟨index, thread, running, created⟩ := firstCreated
  obtain ⟨other, found, otherRunning, otherCreated⟩ := secondCreated
  have sameIndex := coherent.drawnOnce index other thread found second.id
    running otherRunning (sameID ▸ thread.valid.created first created)
    (found.valid.created second otherCreated)
  subst sameIndex
  have sameThread := running.unique otherRunning
  subst sameThread
  exact Option.some.inj (created.symm.trans otherCreated)

section Acts

variable {before after : EnrollmentPool signer σ} {index : Nat}
  {thread later : Thread (enrollmentService signer)} {act : PairingAct}
  {pairing : DevicePairing} {id : PairingID} {ownerID : OwnerID} {other : Nat}
  {found : Thread (enrollmentService signer)}

section

variable (acted : Pool.Acted before after index thread later act)

include acted

theorem marked_after_act {mark : PairingTrail → Prop}
    (recorded : ∀ {call : EnrollmentCall} {trail}, call.Permits trail act → mark trail →
      mark (trail.record act)) (marked : ∃ other found, before.At other found ∧ mark found.trail) :
    ∃ other found, after.At other found ∧ mark found.trail := by
  obtain ⟨other, found, running, holds⟩ := marked
  obtain ⟨kept, stillRunning, _, unchanged | ⟨permitted, trail⟩⟩ := acted.persists running
  · exact ⟨other, kept, stillRunning, unchanged ▸ holds⟩
  · exact ⟨other, kept, stillRunning, trail ▸ recorded permitted holds⟩

theorem Created.after_act (created : before.Created pairing) : after.Created pairing :=
  marked_after_act acted PairingTrail.created_record created

theorem Bound.after_act (bound : before.Bound id ownerID) : after.Bound id ownerID :=
  marked_after_act acted PairingTrail.bound_record_of_bound bound

theorem Originates.after_act (originates : before.Originates pairing) :
    after.Originates pairing := by
  obtain ⟨created, was, sameID, sameScopes⟩ := originates
  exact ⟨created, was.after_act acted, sameID, sameScopes⟩

theorem acted_at : after.At index later :=
  (acted.threads index later).mpr (.inl ⟨rfl, rfl⟩)

theorem bound_of_act (binds : act.binds = some (id, ownerID)) : after.Bound id ownerID :=
  ⟨index, later, acted_at acted, by
    rw [acted.trail]
    exact PairingTrail.bound_record_of_binds binds⟩

section

variable (running : after.At other found)

include running

/-- What a thread has on its trail it had before, or it has just done. -/
theorem trail_cases : before.At other found ∨
      (other = index ∧ before.At index thread ∧ found.trail = thread.trail.record act) := by
  rcases (acted.threads other found).mp running with ⟨rfl, rfl⟩ | ⟨_, was⟩
  · exact .inr ⟨rfl, acted.running, acted.trail⟩
  · exact .inl was

theorem call_before : ∃ was, before.At other was ∧ found.call = was.call := by
  rcases (acted.threads other found).mp running with ⟨rfl, rfl⟩ | ⟨_, was⟩
  · exact ⟨thread, acted.running, acted.call⟩
  · exact ⟨found, was, rfl⟩

theorem bound_cases {binding : PairingID × OwnerID} (bound : found.trail.bound = some binding) :
    (other = index ∧ act.binds = some binding) ∨
      ∃ was, before.At other was ∧ was.trail.bound = some binding := by
  rcases trail_cases acted running with was | ⟨rfl, was, trail⟩
  · exact .inr ⟨found, was, bound⟩
  rw [trail] at bound
  rcases PairingTrail.bound_record bound with binds | bound
  · exact .inl ⟨rfl, binds⟩
  · exact .inr ⟨thread, was, bound⟩

theorem redeemed_cases {redemption : Redemption}
    (redeemed : found.trail.redeemed = some redemption) :
    (other = index ∧ ∃ now, act = .redeemed redemption.id redemption.ownerID
      redemption.lineageID now) ∨
      ∃ was, before.At other was ∧ was.trail.redeemed = some redemption := by
  rcases trail_cases acted running with was | ⟨rfl, was, trail⟩
  · exact .inr ⟨found, was, redeemed⟩
  rw [trail] at redeemed
  rcases PairingTrail.redeemed_record redeemed with performed | redeemed
  · exact .inl ⟨rfl, performed⟩
  · exact .inr ⟨thread, was, redeemed⟩

end

end

theorem created_of_act (acted : Pool.Acted before after index thread later (.created pairing)) :
    after.Created pairing :=
  ⟨index, later, acted_at acted, by rw [acted.trail]; rfl⟩

/-- A created pairing has an identifier no other pairing has had. -/
theorem Coherent.fresh (coherent : before.Coherent)
    (acted : Pool.Acted before after index thread later (.created pairing))
    {created : DevicePairing} (was : before.Created created) : created.id ≠ pairing.id := by
  intro sameID
  obtain ⟨other, found, running, marked⟩ := was
  obtain ⟨unused, _, drawn, _⟩ := acted.permitted
  have sameIndex := coherent.drawnOnce index other thread found pairing.id
    acted.running running drawn (sameID ▸ found.valid.created created marked)
  subst sameIndex
  have sameThread := acted.running.unique running
  subst sameThread
  exact Option.some_ne_none _ (marked.symm.trans unused)

theorem Coherent.fresh_row (coherent : before.Coherent) {previous : DevicePairing}
    (acted : Pool.Acted before after index thread later (.created pairing))
    (stored : previous ∈ before.state.pairings) : previous.id ≠ pairing.id := by
  obtain ⟨created, was, sameID, _⟩ := coherent.origin previous stored
  exact sameID ▸ coherent.fresh acted was

end Acts

/-- Two threads that did what only one can do: now, or before. -/
theorem index_once {first second index : Nat} {firstNow secondNow firstOld secondOld : Prop}
    (firstCases : (first = index ∧ firstNow) ∨ firstOld)
    (secondCases : (second = index ∧ secondNow) ∨ secondOld) (left : firstNow → ¬ secondOld)
    (right : secondNow → ¬ firstOld) (both : firstOld → secondOld → first = second) :
    first = second := by
  rcases firstCases with ⟨rfl, now⟩ | old
  · rcases secondCases with ⟨rfl, _⟩ | other
    · rfl
    · exact (left now other).elim
  · rcases secondCases with ⟨rfl, now⟩ | other
    · exact (right now old).elim
    · exact both old other

section Preservation

variable {before after : EnrollmentPool signer σ} {index : Nat}
  {thread later : Thread (enrollmentService signer)} {act : PairingAct}
  {id : PairingID} {ownerID : OwnerID}

/-- A pairing is redeemed once, by a call of the owner it was bound to. -/
theorem Coherent.redemption (coherent : before.Coherent) {lineageID : LineageID} {now : Int}
    (effect : EnrollmentEffect before.state after.state (.redeemed id ownerID lineageID now)) :
    (∀ other found redemption, before.At other found →
      found.trail.redeemed = some redemption → redemption.id ≠ id) ∧
    before.Bound id ownerID ∧
    ∀ pairing ∈ after.state.pairings, pairing.id = id →
      pairing.status = .redeemed ∧ pairing.lineageID = lineageID := by
  obtain ⟨target, targetStored, rfl, named, rfl, approved⟩ := effect.redeemable
  refine ⟨?_, coherent.owner target targetStored named,
    fun pairing stored sameID => effect.redeemedRows stored sameID⟩
  intro other found redemption running redeemed sameID
  have status := (coherent.redeemedRow other found redemption running redeemed
    target targetStored sameID.symm).1
  cases approved.symm.trans status

variable (coherent : before.Coherent) (effect : EnrollmentEffect before.state after.state act)
  (acted : Pool.Acted before after index thread later act)

include coherent effect acted

/-- An owner is set only where none was, and then the row carries it. -/
theorem Coherent.binding (binds : act.binds = some (id, ownerID)) :
    (∀ other, ¬ before.Bound id other) ∧
    (∃ created, after.Created created ∧ created.id = id) ∧
    ∀ pairing ∈ after.state.pairings, pairing.id = id →
      pairing.ownerID = ownerID ∧ pairing.status ≠ .pending := by
  cases effect with
  | @created created credentials inserted =>
    simp only [PairingAct.binds] at binds
    by_cases unowned : created.ownerID = []
    · rw [if_pos unowned] at binds
      cases binds
    rw [if_neg unowned] at binds
    cases binds
    refine ⟨fun other bound => ?_, ⟨created, created_of_act acted, rfl⟩,
      fun pairing stored sameID => ?_⟩
    · obtain ⟨earlier, was, sameID⟩ := coherent.boundCreated _ _ bound
      exact coherent.fresh acted was sameID
    · rcases (Table.mem_insert inserted).mp stored with old | rfl
      · exact (coherent.fresh_row acted old sameID).elim
      obtain ⟨_, _, _, _, ⟨_, none⟩ | ⟨approved, _⟩⟩ := acted.permitted
      · exact (unowned none).elim
      · rw [approved]
        exact ⟨rfl, nofun⟩
  | @approved _ _ now credentials found updated =>
    cases binds
    obtain ⟨target, targetStored, approvable⟩ := found
    obtain ⟨targetID, pending⟩ := DevicePairing.approvable_iff.mp approvable
    obtain ⟨created, was, createdID, _⟩ := (coherent.origin target targetStored).after_act acted
    refine ⟨fun other bound => ?_, ⟨created, was, createdID.trans targetID⟩,
      fun pairing stored sameID => ?_⟩
    · exact (coherent.boundRow _ _ bound target targetStored targetID).2 pending
    rw [updated, Table.mem_update] at stored
    obtain ⟨previous, previousStored, rfl⟩ := stored
    have previousID : previous.id = id := by
      rw [← sameID]
      split <;> rfl
    have sameRow := Table.eq_of_key_eq previousStored targetStored (previousID.trans targetID.symm)
    subst sameRow
    rw [if_pos approvable]
    exact ⟨rfl, nofun⟩
  | _ => cases binds

/-- What an old owner binding says of rows survives every act. -/
theorem Coherent.boundRow_after (known : act ≠ .rotated) (bound : before.Bound id ownerID) :
    ∀ pairing ∈ after.state.pairings, pairing.id = id →
      pairing.ownerID = ownerID ∧ pairing.status ≠ .pending := by
  intro pairing stored sameID
  rcases effect.row known stored with rfl | ⟨previous, old, change⟩
  · obtain ⟨created, was, createdID⟩ := coherent.boundCreated _ _ bound
    exact (coherent.fresh acted was (createdID.trans sameID.symm)).elim
  · have previousID : previous.id = id := change.id.symm.trans sameID
    obtain ⟨owner, decided⟩ := coherent.boundRow _ _ bound previous old previousID
    cases change with
    | keeps elsewhere keeps =>
      exact ⟨keeps.ownerID.trans owner,
        fun pending => decided (keeps.pending pending)⟩
    | approved pending => exact (decided pending).elim
    | redeemed owned approved => exact ⟨owner, nofun⟩

theorem Coherent.redeemedRow_after (known : act ≠ .rotated) {other : Nat}
    {found : Thread (enrollmentService signer)} {redemption : Redemption}
    (running : before.At other found) (redeemed : found.trail.redeemed = some redemption) :
    ∀ pairing ∈ after.state.pairings, pairing.id = redemption.id →
      pairing.status = .redeemed ∧ pairing.lineageID = redemption.lineageID := by
  refine effect.redeemedRows_after known ?_
    (coherent.redeemedRow other found redemption running redeemed)
  rintro created rfl sameID
  obtain ⟨earlier, was, earlierID⟩ := coherent.boundCreated _ _
    (coherent.redeemedBound other found redemption running redeemed)
  exact coherent.fresh acted was (earlierID.trans sameID.symm)

theorem Coherent.unowned_after (known : act ≠ .rotated) {pairing : DevicePairing}
    (stored : pairing ∈ after.state.pairings) (pending : pairing.status = .pending) :
    pairing.ownerID = [] := by
  rcases effect.row known stored with rfl | ⟨previous, old, change⟩
  · obtain ⟨_, _, _, _, ⟨_, none⟩ | ⟨approved, _⟩⟩ := acted.permitted
    · exact none
    · cases pending.symm.trans approved
  · cases change with
    | keeps elsewhere keeps =>
      rw [keeps.ownerID]
      exact coherent.unowned previous old (keeps.pending pending)
    | approved | redeemed => cases pending

theorem Coherent.owner_after (known : act ≠ .rotated) {pairing : DevicePairing}
    (stored : pairing ∈ after.state.pairings) (owned : pairing.ownerID ≠ []) :
    after.Bound pairing.id pairing.ownerID := by
  rcases effect.row known stored with rfl | ⟨previous, old, change⟩
  · exact bound_of_act acted (if_neg owned)
  cases change with
  | keeps elsewhere keeps =>
    rw [keeps.ownerID] at owned ⊢
    rw [keeps.id]
    exact (coherent.owner previous old owned).after_act acted
  | approved pending => exact bound_of_act acted rfl
  | redeemed named approved => exact (coherent.owner previous old named).after_act acted

theorem Coherent.readOrigin_after {other : Nat} {found : Thread (enrollmentService signer)}
    {pairing : DevicePairing} (running : after.At other found)
    (read : found.trail.read = some pairing) : after.Originates pairing := by
  rcases trail_cases acted running with was | ⟨rfl, was, trail⟩
  · exact (coherent.readOrigin _ _ _ was read).after_act acted
  rw [trail] at read
  rcases PairingTrail.read_record read with rfl | read
  · cases effect with
    | read unchanged stored => exact (coherent.origin pairing stored).after_act acted
  · exact (coherent.readOrigin _ _ _ was read).after_act acted

/-- Every act of a thread keeps the pool coherent. -/
theorem Coherent.after_act : after.Coherent := by
  have known : act ≠ .rotated := by
    rintro rfl
    exact acted.permitted
  constructor
  case drawnOnce =>
    intro first second firstThread secondThread id firstAt secondAt firstDrawn secondDrawn
    obtain ⟨firstWas, firstOld, firstCall⟩ := call_before acted firstAt
    obtain ⟨secondWas, secondOld, secondCall⟩ := call_before acted secondAt
    exact coherent.drawnOnce first second firstWas secondWas id firstOld
      secondOld (firstCall ▸ firstDrawn) (secondCall ▸ secondDrawn)
  case origin =>
    intro pairing stored
    rcases effect.row known stored with rfl | ⟨previous, old, change⟩
    · exact ⟨pairing, created_of_act acted, rfl, rfl⟩
    · obtain ⟨created, was, sameID, sameScopes⟩ := (coherent.origin previous old).after_act acted
      exact ⟨created, was, sameID.trans change.id.symm, sameScopes.trans change.scopes.symm⟩
  case unowned => exact fun _ => coherent.unowned_after effect acted known
  case owner => exact fun _ => coherent.owner_after effect acted known
  case boundCreated =>
    rintro id ownerID ⟨other, found, running, bound⟩
    rcases bound_cases acted running bound with ⟨_, binds⟩ | ⟨was, old, bound⟩
    · exact (coherent.binding effect acted binds).2.1
    · obtain ⟨created, was, sameID⟩ := coherent.boundCreated id ownerID ⟨other, was, old, bound⟩
      exact ⟨created, was.after_act acted, sameID⟩
  case boundRow =>
    rintro id ownerID ⟨other, found, running, bound⟩
    rcases bound_cases acted running bound with ⟨_, binds⟩ | ⟨was, old, bound⟩
    · exact (coherent.binding effect acted binds).2.2
    · exact coherent.boundRow_after effect acted known ⟨other, was, old, bound⟩
  case boundOnce =>
    intro first second _ _ id ownerID otherOwner firstAt secondAt firstBound secondBound
    refine index_once (bound_cases acted firstAt firstBound)
      (bound_cases acted secondAt secondBound) ?_ ?_ ?_
    · exact fun binds old => (coherent.binding effect acted binds).1 otherOwner ⟨second, old⟩
    · exact fun binds old => (coherent.binding effect acted binds).1 ownerID ⟨first, old⟩
    · exact fun ⟨_, firstOld, bound⟩ ⟨_, secondOld, otherBound⟩ =>
        coherent.boundOnce _ _ _ _ _ _ _ firstOld secondOld bound otherBound
  case redeemedRow =>
    intro other found redemption running redeemed
    rcases redeemed_cases acted running redeemed with
      ⟨rfl, now, rfl⟩ | ⟨was, old, redeemed⟩
    · exact (coherent.redemption effect).2.2
    · exact coherent.redeemedRow_after effect acted known old redeemed
  case redeemedOnce =>
    intro first second _ _ redemption other firstAt secondAt firstRedeemed secondRedeemed sameID
    refine index_once (redeemed_cases acted firstAt firstRedeemed)
      (redeemed_cases acted secondAt secondRedeemed) ?_ ?_ ?_
    · rintro ⟨now, rfl⟩ ⟨_, old, redeemed⟩
      exact (coherent.redemption effect).1 _ _ _ old redeemed sameID.symm
    · rintro ⟨now, rfl⟩ ⟨_, old, redeemed⟩
      exact (coherent.redemption effect).1 _ _ _ old redeemed sameID
    · exact fun ⟨_, firstOld, redeemed⟩ ⟨_, secondOld, otherRedeemed⟩ =>
        coherent.redeemedOnce _ _ _ _ _ _ firstOld secondOld redeemed otherRedeemed sameID
  case redeemedBound =>
    intro other found redemption running redeemed
    rcases redeemed_cases acted running redeemed with
      ⟨rfl, now, rfl⟩ | ⟨was, old, redeemed⟩
    · exact (coherent.redemption effect).2.1.after_act acted
    · exact (coherent.redeemedBound _ _ _ old redeemed).after_act acted
  case readOrigin => exact fun _ _ _ => coherent.readOrigin_after effect acted

end Preservation

end EnrollmentPool

end Vallet.Auth
