import Vallet.Publishing.AccessKeyLife

/-!
# The grace sweep beside verification

`ExpireGrace` revokes keys whose grace window has passed, and `Verify` judges
the same window on its own.  A schedule of sweeps is unobservable to a later
`Verify` as long as no sweep runs at the very instant a window ends: the sweep
counts that instant as past the window, `Verify` counts it as within.  Only
the key that the presented token names matters.
-/

namespace Vallet.Publishing

open Effects Effects.Program Relational

variable (service : AccessKeyService) {catalog : Catalog} {id : AccessKeyID} {now time : Int}
  {first second third before after : Table AccessKey.id}

/-- The key has not changed unless it is unusable at `time`. -/
def Dormant (id : AccessKeyID) (time : Int) (before after : Table AccessKey.id) : Prop :=
  ∀ key ∈ before, key.id = id → ∀ later ∈ after, later.id = key.id →
    later = key ∨ AccessKeyService.usable time key = false

theorem Dormant.refl (keys : Table AccessKey.id) : Dormant id time keys keys :=
  fun _ stored _ _ laterStored same =>
    .inl (Table.eq_of_key_eq laterStored stored same)

theorem Dormant.trans (left : Dormant id time first second)
    (right : Dormant id time second third) (retires : Retires first second) :
    Dormant id time first third := by
  intro key stored named later laterStored same
  obtain ⟨middle, middleStored, retired⟩ := retires.kept key stored
  have middleID : middle.id = key.id := retired.sameCredential.id
  rcases left key stored named middle middleStored middleID with rfl | unusable
  · exact right middle middleStored named later laterStored same
  · exact .inr unusable

/-- The key's window does not end at `time`. -/
def NoWindowEnds (id : AccessKeyID) (time : Int) (keys : Table AccessKey.id) : Prop :=
  ∀ key ∈ keys, key.id = id → key.status = .grace → key.graceUntil ≠ some time

theorem NoWindowEnds.retires (apart : NoWindowEnds id time before)
    (retires : Retires before after) : NoWindowEnds id time after := by
  intro later stored named grace
  obtain ⟨key, keyStored, retired⟩ := retires.origin later stored
  rcases retired with rfl | ⟨_, revoked⟩
  · exact apart later keyStored named grace
  · rw [revoked] at grace
    cases grace

/-! ## One sweep -/

variable {key : AccessKey}

theorem usable_of_graceExpired (expired : key.graceExpired now = true) (past : now ≤ time)
    (apart : now = time → key.status = .grace → key.graceUntil ≠ some time) :
    AccessKeyService.usable time key = false := by
  simp only [AccessKey.graceExpired, Bool.and_eq_true, decide_eq_true_eq,
    Option.any_eq_true] at expired
  obtain ⟨grace, deadline, ends, passed⟩ := expired
  simp only [AccessKeyService.usable, grace, ends, Option.any_some, decide_eq_false_iff_not]
  intro within
  have sameInstant : now = time := by omega
  have sameDeadline : deadline = time := by omega
  exact apart sameInstant grace (sameDeadline ▸ ends)

theorem dormant_revokeAccessKey (stored : key ∈ before)
    (unusable : key.id = id → AccessKeyService.usable time key = false)
    (dormant : Dormant id time before catalog.accessKeys) :
    Dormant id time before (catalog.revokeAccessKey key.ownerID key.id now).accessKeys := by
  intro other otherStored named later laterStored same
  simp only [Catalog.revokeAccessKey, Table.mem_update] at laterStored
  obtain ⟨row, rowStored, rfl⟩ := laterStored
  by_cases owned : AccessKey.ownedBy key.ownerID key.id row = true
  · have sameKey : other = key := by
      refine Table.eq_of_key_eq otherStored stored ?_
      rw [if_pos owned] at same
      exact same.symm.trans (AccessKey.ownedBy_iff.mp owned).1
    subst sameKey
    exact .inr (unusable named)
  · rw [if_neg owned] at same ⊢
    exact dormant other otherStored named row rowStored same

/-- The loop revokes nothing but listed keys. -/
theorem ensures_retire_dormant (auditID : Nat → AuditRecordID)
    (listed : List AccessKey) (unusable : ∀ key ∈ listed, key ∈ before ∧
      (key.id = id → AccessKeyService.usable time key = false)) (retired : Nat) (catalog : Catalog)
    (dormant : Dormant id time before catalog.accessKeys) :
    (service.retire now auditID listed retired).Ensures accessKeyInterpreter
      (fun _ final => Dormant id time before final.accessKeys) catalog := by
  induction listed generalizing retired catalog with
  | nil => exact dormant
  | cons key rest induction =>
    have continued := induction fun other member =>
      unusable other (List.mem_cons_of_mem _ member)
    obtain ⟨stored, lapsed⟩ := unusable key List.mem_cons_self
    unfold AccessKeyService.retire
    split
    · exact dormant
    have revoked : (AccessKeyRepository.revoke key.ownerID key.id
        now).Ensures accessKeyInterpreter (fun _ final =>
          Dormant id time before final.accessKeys) catalog :=
      ⟨dormant, dormant_revokeAccessKey stored lapsed dormant⟩
    refine revoked.bind ?_
    intro answer middle still
    cases answer with
    | error failure =>
      simp only
      split
      · exact continued retired middle still
      · exact still
    | ok _ =>
      refine (ensures_emit_accessKeys _ _ _ _).bind ?_
      intro recorded final same
      rw [← same] at still
      cases recorded with
      | error failure => exact still
      | ok _ => exact continued (retired + 1) final still

theorem Catalog.mem_expiredGrace {limit : Nat} (listed : key ∈ catalog.expiredGrace now limit) :
    key ∈ catalog.accessKeys ∧ key.graceExpired now = true := by
  have sorted := List.mem_of_mem_take listed
  rw [List.mem_insertionSort] at sorted
  exact Table.mem_select.mp sorted

theorem ensures_expireGrace_dormant (limit : Int)
    (auditID : Nat → AuditRecordID) (catalog : Catalog) (past : now ≤ time)
    (apart : now = time → NoWindowEnds id time catalog.accessKeys) :
    (service.expireGrace limit now auditID).Ensures accessKeyInterpreter
      (fun _ final => Dormant id time catalog.accessKeys final.accessKeys)
      catalog := by
  unfold AccessKeyService.expireGrace
  split
  · exact Dormant.refl _
  unfold AccessKeyRepository.listExpiredGrace
  split
  · exact Dormant.refl _
  refine ⟨Dormant.refl _, ?_⟩
  refine ensures_retire_dormant service auditID _ ?_ 0 catalog (.refl _)
  intro key listed
  obtain ⟨stored, expired⟩ := Catalog.mem_expiredGrace listed
  exact ⟨stored, fun named => usable_of_graceExpired expired past
    fun sameInstant => apart sameInstant key stored named⟩

/-! ## A schedule of sweeps -/

/-- A call of `ExpireGrace`, with the statements that fault in it. -/
structure GraceSweep where
  limit : Int
  now : Int
  auditID : Nat → AuditRecordID
  faults : List Bool

namespace AccessKeyService

def sweep (service : AccessKeyService) (catalog : Catalog) (call : GraceSweep) : Catalog :=
  ((service.expireGrace call.limit call.now call.auditID).run
    accessKeyInterpreter call.faults catalog).2

def sweeps (service : AccessKeyService) (schedule : List GraceSweep)
    (catalog : Catalog) : Catalog :=
  schedule.foldl service.sweep catalog

theorem sweeps_dormant (schedule : List GraceSweep) (catalog : Catalog)
    (past : ∀ call ∈ schedule, call.now ≤ time) (apart : ∀ call ∈ schedule, call.now = time →
      NoWindowEnds id time catalog.accessKeys) :
    Retires catalog.accessKeys (service.sweeps schedule catalog).accessKeys ∧
      Dormant id time catalog.accessKeys (service.sweeps schedule catalog).accessKeys := by
  induction schedule generalizing catalog with
  | nil => exact ⟨.refl _, .refl _⟩
  | cons call rest induction =>
    have retires := (ensures_expireGrace service call.limit call.now
      call.auditID catalog).run call.faults
    have dormant := (ensures_expireGrace_dormant service call.limit
      call.auditID catalog (past call List.mem_cons_self)
      (apart call List.mem_cons_self)).run call.faults
    obtain ⟨laterRetires, laterDormant⟩ := induction (service.sweep catalog call)
      (fun other member => past other (List.mem_cons_of_mem _ member)) (fun other member same =>
        (apart other (List.mem_cons_of_mem _ member) same).retires retires)
    exact ⟨retires.trans laterRetires, dormant.trans laterDormant retires⟩

theorem isOk_verify_nil {ownerID : OwnerID} {setID : KeySetID} {presented : GoString} :
    ((service.verify ownerID setID presented time).run accessKeyInterpreter
        [] catalog).1.isOk = true ↔
      ∃ key, ((service.verify ownerID setID presented time).run
        accessKeyInterpreter [] catalog).1 = .ok key := by
  cases ((service.verify ownerID setID presented time).run accessKeyInterpreter [] catalog).1 with
  | error failure =>
    constructor
    · intro impossible
      cases impossible
    · rintro ⟨_, impossible⟩
      cases impossible
  | ok key => exact ⟨fun _ => ⟨key, rfl⟩, fun _ => rfl⟩

/-- `Verify` reads once, so only its first statement can fault. -/
theorem isOk_verify (ownerID : OwnerID) (setID : KeySetID)
    (presented : GoString) (time : Int) (faults : List Bool) (catalog : Catalog) :
    ((service.verify ownerID setID presented time).run accessKeyInterpreter faults catalog).1.isOk =
      (!faults.headD false &&
        ((service.verify ownerID setID presented time).run
          accessKeyInterpreter [] catalog).1.isOk) := by
  unfold verify
  split
  · exact (Bool.and_false _).symm
  split
  · exact (Bool.and_false _).symm
  simp only [AccessKeyRepository.get, Program.ask_bind,
    Program.issue_bind, Program.run_issue, List.headD_nil]
  cases faults.headD false with
  | true => rfl
  | false =>
    simp only [Program.reply_false]
    cases (accessKeyInterpreter.execute _ catalog).1 <;> rfl

/-- A schedule of sweeps up to `time` does not change what a `Verify` at
`time` answers, unless a sweep runs at that instant and the window of the key
that is presented ends then. -/
theorem verify_blind_to_sweeps (schedule : List GraceSweep) (catalog : Catalog) (time : Int)
    (ownerID : OwnerID) (setID : KeySetID) (presented : GoString) (faults : List Bool)
    (past : ∀ call ∈ schedule, call.now ≤ time) (apart : ∀ call ∈ schedule, call.now = time →
      ∀ id secret, parseToken presented = some (id, secret) →
        NoWindowEnds id time catalog.accessKeys) :
    ((service.verify ownerID setID presented time).run accessKeyInterpreter
        faults (service.sweeps schedule catalog)).1.isOk =
      ((service.verify ownerID setID presented time).run accessKeyInterpreter
        faults catalog).1.isOk := by
  rw [isOk_verify, isOk_verify _ _ _ _ _ _ catalog]
  congr 1
  rw [Bool.eq_iff_iff, isOk_verify_nil, isOk_verify_nil]
  simp only [verify_ok_iff]
  have effect := fun id secret parsed => sweeps_dormant service schedule catalog past
    fun call member same => apart call member same id secret parsed
  constructor
  · rintro ⟨later, owned, addressed, id, secret, parsed, stored, sameID,
      sameOwner, sameSet, usable, hash⟩
    obtain ⟨retires, _⟩ := effect id secret parsed
    obtain ⟨key, keyStored, retired⟩ := retires.origin later stored
    rcases retired with rfl | ⟨_, revoked⟩
    · exact ⟨later, owned, addressed, id, secret, parsed, keyStored, sameID,
        sameOwner, sameSet, usable, hash⟩
    · simp [AccessKeyService.usable, revoked] at usable
  · rintro ⟨key, owned, addressed, id, secret, parsed, stored, sameID,
      sameOwner, sameSet, usable, hash⟩
    obtain ⟨retires, dormant⟩ := effect id secret parsed
    obtain ⟨later, laterStored, retired⟩ := retires.kept key stored
    have laterID := retired.sameCredential.id
    rcases dormant key stored sameID later laterStored laterID with rfl | unusable
    · exact ⟨later, owned, addressed, id, secret, parsed, laterStored,
        sameID, sameOwner, sameSet, usable, hash⟩
    · rw [unusable] at usable
      cases usable

end AccessKeyService

namespace Sample

/-- The deadline of the key that `rotated` replaced. -/
def graceEnd : Int := 20 + 24 * Duration.hour

def graceSweep (now : Int) : GraceSweep := ⟨10, now, fun _ => utf8 "a4", []⟩

end Sample

open Sample

namespace AccessKeyService

/-- Just after the deadline the sweep revokes the replaced key, which `Verify`
refuses with or without it. -/
theorem verify_blind_to_sweeps_late : ((accessKeyService.verify (utf8 "olive") (utf8 "work")
        (draw 65 (by decide)).token (graceEnd + 1)).run
        accessKeyInterpreter [] (accessKeyService.sweeps [graceSweep (graceEnd + 1)]
          rotated.catalog)).1.isOk =
      ((accessKeyService.verify (utf8 "olive") (utf8 "work")
        (draw 65 (by decide)).token (graceEnd + 1)).run
        accessKeyInterpreter [] rotated.catalog).1.isOk := by
  have apart : ∀ key ∈ rotated.catalog.accessKeys, key.status = .grace →
      key.graceUntil ≠ some (graceEnd + 1) := by
    decide +kernel
  exact verify_blind_to_sweeps accessKeyService [graceSweep (graceEnd + 1)] rotated.catalog
    (graceEnd + 1) (utf8 "olive") (utf8 "work") _ [] (by decide)
    fun _ _ _ _ _ _ key stored _ => apart key stored

/-- At the deadline itself `Verify` accepts the replaced key, and refuses it
once the sweep has run at that instant. -/
theorem sweep_at_deadline_observed : ((accessKeyService.verify (utf8 "olive") (utf8 "work")
        (draw 65 (by decide)).token graceEnd).run
        accessKeyInterpreter [] rotated.catalog).1.isOk = true ∧
      ((accessKeyService.verify (utf8 "olive") (utf8 "work")
        (draw 65 (by decide)).token graceEnd).run
        accessKeyInterpreter [] (accessKeyService.sweeps [graceSweep graceEnd]
          rotated.catalog)).1.isOk = false := by
  constructor <;> decide +kernel

end AccessKeyService

end Vallet.Publishing
