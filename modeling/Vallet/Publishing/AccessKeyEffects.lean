import Vallet.Publishing.AccessKeys

/-!
# What access key calls do to the stored keys

A call inserts a fresh key, replaces an active key by a fresh one, or revokes
keys; whatever else it does leaves the table of keys alone.  The
postconditions hold wherever statements fault.
-/

/-! ## Keys that retire -/

namespace Vallet.AccessKey

/-- Two versions of one credential. -/
structure SameCredential (key later : AccessKey) : Prop where
  id : later.id = key.id
  ownerID : later.ownerID = key.ownerID
  keySetID : later.keySetID = key.keySetID
  secretHash : later.secretHash = key.secretHash

theorem SameCredential.refl (key : AccessKey) : SameCredential key key :=
  ⟨rfl, rfl, rfl, rfl⟩

variable {first second third : AccessKey}

theorem SameCredential.trans (left : SameCredential first second)
    (right : SameCredential second third) : SameCredential first third where
  id := right.id.trans left.id
  ownerID := right.ownerID.trans left.ownerID
  keySetID := right.keySetID.trans left.keySetID
  secretHash := right.secretHash.trans left.secretHash

/-- A key is left as it was, or is revoked. -/
def Retired (key later : AccessKey) : Prop :=
  later = key ∨ (SameCredential key later ∧ later.status = .revoked)

theorem Retired.trans
    (left : Retired first second) (right : Retired second third) : Retired first third := by
  rcases left with rfl | ⟨same, revoked⟩
  · exact right
  · rcases right with rfl | ⟨later, laterRevoked⟩
    · exact .inr ⟨same, revoked⟩
    · exact .inr ⟨same.trans later, laterRevoked⟩

theorem Retired.sameCredential {key later : AccessKey}
    (retired : Retired key later) : SameCredential key later := by
  rcases retired with rfl | ⟨same, _⟩
  · exact .refl _
  · exact same

theorem retired_revoked (now : Int) (key : AccessKey) : Retired key (key.revoked now) :=
  .inr ⟨⟨rfl, rfl, rfl, rfl⟩, rfl⟩

end Vallet.AccessKey

namespace Vallet.Publishing

open Audit Auth Effects Effects.Program Relational AccessKeyService AccessKey Program

/-- Nothing but revocations of stored keys. -/
structure Retires (before after : Table AccessKey.id) : Prop where
  kept : ∀ key ∈ before, ∃ later ∈ after, AccessKey.Retired key later
  origin : ∀ later ∈ after, ∃ key ∈ before, AccessKey.Retired key later

theorem Retires.refl (keys : Table AccessKey.id) : Retires keys keys where
  kept key stored := ⟨key, stored, .inl rfl⟩
  origin key stored := ⟨key, stored, .inl rfl⟩

theorem Retires.trans {first second third : Table AccessKey.id}
    (left : Retires first second) (right : Retires second third) :
    Retires first third where
  kept key stored := by
    obtain ⟨middle, middleStored, firstPart⟩ := left.kept key stored
    obtain ⟨later, laterStored, secondPart⟩ := right.kept middle middleStored
    exact ⟨later, laterStored, firstPart.trans secondPart⟩
  origin later stored := by
    obtain ⟨middle, middleStored, secondPart⟩ := right.origin later stored
    obtain ⟨key, keyStored, firstPart⟩ := left.origin middle middleStored
    exact ⟨key, keyStored, firstPart.trans secondPart⟩

variable (ownerID : OwnerID)

theorem retires_revokeAccessKey (id : AccessKeyID) (now : Int) (catalog : Catalog) :
    Retires catalog.accessKeys (catalog.revokeAccessKey ownerID id now).accessKeys := by
  have version : ∀ key, AccessKey.Retired key
      (if ownedBy ownerID id key then key.revoked now else key) := by
    intro key
    split
    · exact retired_revoked now key
    · exact .inl rfl
  constructor
  · intro key stored
    exact ⟨_, Table.mem_update_of_mem _ _ (id_revoked now) stored, version key⟩
  · intro later stored
    simp only [Catalog.revokeAccessKey, Table.mem_update] at stored
    obtain ⟨key, keyStored, rfl⟩ := stored
    exact ⟨key, keyStored, version key⟩

/-! ## Repository calls -/

variable {catalog : Catalog}

theorem ensures_create (key : AccessKey) :
    (AccessKeyRepository.create key).Ensures accessKeyInterpreter
      (fun result final =>
        (∃ failure, result = .error failure ∧ final = catalog) ∨
        ∃ extended, result = .ok () ∧ catalog.accessKeys.insert? key = some extended ∧
          final = { catalog with accessKeys := extended }) catalog := by
  refine ⟨.inl ⟨_, rfl, rfl⟩, ?_⟩
  simp only [accessKeyInterpreter, AccessKeyStatement.execute, Catalog.insertAccessKey]
  cases inserted : catalog.accessKeys.insert? key with
  | none => exact .inl ⟨_, rfl, rfl⟩
  | some extended =>
    simp only
    split
    · exact .inl ⟨_, rfl, rfl⟩
    · exact .inr ⟨extended, rfl, rfl, rfl⟩

theorem Catalog.findAccessKey_eq_some {ownerID : OwnerID} {id : AccessKeyID} {key : AccessKey} :
    catalog.findAccessKey ownerID id = some key ↔
      key ∈ catalog.accessKeys ∧ key.id = id ∧ key.ownerID = ownerID := by
  rw [Catalog.findAccessKey, Table.head?_select_eq_some_iff, ownedBy_iff]
  intro row stored other otherStored owned otherOwned
  exact Table.eq_of_key_eq stored otherStored ((ownedBy_iff.mp owned).1.trans
    (ownedBy_iff.mp otherOwned).1.symm)

theorem ensures_get (id : AccessKeyID) :
    (AccessKeyRepository.get ownerID id).Ensures accessKeyInterpreter
      (fun result final => final = catalog ∧ ∀ key, result = .ok key →
        key ∈ catalog.accessKeys ∧ key.id = id ∧ key.ownerID = ownerID)
      catalog := by
  refine ⟨⟨rfl, nofun⟩, ?_⟩
  simp only [accessKeyInterpreter, AccessKeyStatement.execute]
  cases found : catalog.findAccessKey ownerID id with
  | none => exact ⟨rfl, nofun⟩
  | some key =>
    refine ⟨rfl, fun other same => ?_⟩
    cases same
    exact Catalog.findAccessKey_eq_some.mp found

theorem ensures_getKeySet (setID : KeySetID) :
    (AccessKeyStatement.getKeySet ownerID setID).Ensures accessKeyInterpreter
      (fun result final => final = catalog ∧ ∀ set, result = .ok set → set.id = setID) catalog := by
  refine ⟨⟨rfl, nofun⟩, ?_⟩
  simp only [accessKeyInterpreter, AccessKeyStatement.execute]
  cases found : catalog.findKeySet ownerID setID with
  | none => exact ⟨rfl, nofun⟩
  | some set =>
    have owned := (Table.mem_of_head?_select found).2
    rw [KeySet.ownedBy, Bool.and_eq_true, decide_eq_true_eq] at owned
    refine ⟨rfl, fun other same => ?_⟩
    cases same
    exact owned.1

theorem ensures_keySetIn (setID : KeySetID) :
    (keySetIn ownerID setID).Ensures accessKeyInterpreter
      (fun result final => final = catalog ∧ ∀ set, result = .ok set →
        set.id = setID ∧ setID ≠ []) catalog := by
  unfold keySetIn
  split
  · exact ⟨rfl, nofun⟩
  rename_i addressed
  refine (ensures_getKeySet ownerID setID).bind ?_
  rintro result _ ⟨rfl, found⟩
  cases result with
  | error failure => exact ⟨rfl, nofun⟩
  | ok set =>
    by_cases live : set.state = .active
    · simp only [live, if_true]
      refine ⟨rfl, fun other same => ?_⟩
      cases same
      exact ⟨found set rfl, addressed⟩
    · simp only [live, if_false]
      exact ⟨rfl, nofun⟩

theorem yields_markRotated (id replacedBy : AccessKeyID) (graceUntil : Int) :
    (AccessKeyRepository.markRotated ownerID id replacedBy graceUntil).Yields accessKeyInterpreter
      (fun _ final =>
        final = catalog.rotateAccessKey ownerID id replacedBy graceUntil)
      catalog :=
  ⟨yields_error, fun _ _ => rfl⟩

theorem ensures_revoke (id : AccessKeyID) (now : Int) :
    (AccessKeyRepository.revoke ownerID id now).Ensures accessKeyInterpreter
      (fun _ final => Retires catalog.accessKeys final.accessKeys) catalog :=
  ⟨.refl _, retires_revokeAccessKey ownerID id now catalog⟩

theorem ensures_emit_accessKeys (emitter : Emitter) (event : Event)
    (id : AuditRecordID) (now : Int) :
    (emitter.emit .appendAudit event id now).Ensures accessKeyInterpreter
      (fun _ final => final.accessKeys = catalog.accessKeys) catalog := by
  refine (ensures_emit_catalog (fun _ _ => rfl) emitter event id now
    catalog).mono fun result final cases => ?_
  rcases cases with ⟨_, rfl⟩ | ⟨_, _, _, _, _, _, rfl⟩ <;> rfl

/-! ## Service calls -/

/-- A key as it is issued for a draw. -/
structure Issued (service : AccessKeyService) (draw : TokenDraw) (key : AccessKey) : Prop where
  id : key.id = draw.id.text
  secretHash : key.secretHash = service.hash draw.id.text draw.secret
  active : key.status = .active
  owned : key.ownerID ≠ []
  addressed : key.keySetID ≠ []

variable (service : AccessKeyService)

/-- A mint that does not store a key changes nothing; one that does fails only
at its record. -/
theorem ensures_mint (call : AccessKeyService.MintCall) (catalog : Catalog) :
    (service.mint call).Ensures accessKeyInterpreter
      (fun result final =>
        ((∃ failure, result = .error failure) ∧ final = catalog) ∨
        ∃ key, Issued service call.draw key ∧
          catalog.accessKeys.insert? key = some final.accessKeys ∧
          ∀ returned, result = .ok returned → returned = (key, call.draw.token)) catalog := by
  unfold AccessKeyService.mint
  split
  · exact .inl ⟨⟨_, rfl⟩, rfl⟩
  rename_i owned
  split
  · exact .inl ⟨⟨_, rfl⟩, rfl⟩
  rename_i clean _
  refine (ensures_keySetIn _ _).bind ?_
  rintro result _ ⟨rfl, found⟩
  cases result with
  | error failure => exact .inl ⟨⟨_, rfl⟩, rfl⟩
  | ok set =>
    simp only [mintInto]
    split
    · exact .inl ⟨⟨_, rfl⟩, rfl⟩
    refine (ensures_create _).bind ?_
    rintro stored _ (⟨failure, rfl, rfl⟩ | ⟨extended, rfl, fresh, rfl⟩)
    · exact .inl ⟨⟨_, rfl⟩, rfl⟩
    refine (ensures_emit_accessKeys _ _ _ _).bind ?_
    intro recorded final same
    have issued : Issued service call.draw (service.mintedKey call set clean) := by
      refine ⟨rfl, rfl, rfl, owned, ?_⟩
      obtain ⟨sameSet, addressed⟩ := found set rfl
      exact sameSet.trans_ne addressed
    cases recorded with
    | error failure =>
      refine .inr ⟨_, issued, same ▸ fresh, ?_⟩
      intro returned impossible
      cases impossible
    | ok _ =>
      refine .inr ⟨_, issued, same ▸ fresh, ?_⟩
      intro returned result
      cases result
      rfl

theorem AccessKeyService.planRotation_created {call : RotateCall} {old : AccessKey} {set : KeySet}
    {rotation : Rotation} (planned : service.planRotation call old set = .ok rotation) :
    rotation.created = service.newRotatedKey old set call := by
  simp only [planRotation] at planned
  split at planned
  · cases planned
    rfl
  · cases planned

variable (call : RotateCall)

theorem yields_rotateTx (owned : call.ownerID ≠ []) (catalog : Catalog) :
    (service.rotateTx call).Yields accessKeyInterpreter
      (fun rotation final => ∃ old ∈ catalog.accessKeys, ∃ extended,
          old.id = call.id ∧ old.ownerID = call.ownerID ∧
          old.status = .active ∧ Issued service call.draw rotation.created ∧
          catalog.accessKeys.insert? rotation.created = some extended ∧
          final.accessKeys = extended.update
            (rotatable call.ownerID call.id) (rotated rotation.created.id
              (call.now + service.graceWindow))
            (id_rotated _ _)) catalog := by
  refine (ensures_get call.ownerID call.id).bind ?_
  rintro result _ ⟨rfl, found⟩
  cases result with
  | error failure => exact yields_error
  | ok old =>
    obtain ⟨stored, sameID, sameOwner⟩ := found old rfl
    simp only [rotateKey]
    split
    · exact yields_error
    rename_i live
    refine (ensures_keySetIn _ _).bind ?_
    rintro answer _ ⟨rfl, foundSet⟩
    cases answer with
    | error failure => exact yields_error
    | ok set =>
      obtain ⟨sameSet, addressed⟩ := foundSet set rfl
      simp only
      split
      · exact yields_error
      rename_i rotation planned
      have created := service.planRotation_created planned
      have issued : Issued service call.draw rotation.created := by
        rw [created]
        exact ⟨rfl, rfl, rfl, sameOwner ▸ owned, sameSet.trans_ne addressed⟩
      refine (ensures_create _).bind ?_
      rintro inserted _ (⟨failure, rfl, rfl⟩ | ⟨extended, rfl, fresh, rfl⟩)
      · exact yields_error
      refine (yields_markRotated _ _ _ _).bind ?_
      rintro _ _ rfl
      exact yields_ok ⟨old, stored, extended, sameID, sameOwner,
        not_not.mp live, issued, fresh, rfl⟩

/-- The records after a commit leave the keys alone. -/
theorem ensures_recordRotation (rotation : Rotation) (catalog : Catalog) :
    (service.recordRotation call rotation).Ensures accessKeyInterpreter
      (fun result final => final.accessKeys = catalog.accessKeys ∧
        ∀ returned, result = .ok returned →
          returned = (rotation.created, call.draw.token)) catalog := by
  refine (ensures_emit_accessKeys _ _ _ _).bind ?_
  intro created middle unchanged
  cases created with
  | error failure => exact ⟨unchanged, nofun⟩
  | ok _ =>
    refine (ensures_emit_accessKeys _ _ _ _).bind ?_
    intro rotated final same
    cases rotated with
    | error failure => exact ⟨same.trans unchanged, nofun⟩
    | ok _ =>
      refine ⟨same.trans unchanged, fun returned result => ?_⟩
      cases result
      rfl

/-- A rotation whose transaction does not commit changes nothing. -/
theorem rotate_cases (plan : FaultPlan) (auditFaults : List Bool) (catalog : Catalog) :
    ((∃ failure, (service.rotate call plan auditFaults catalog).1 = .error failure) ∧
      (service.rotate call plan auditFaults catalog).2 = catalog) ∨
    ∃ old ∈ catalog.accessKeys, ∃ key extended, old.id = call.id ∧ old.ownerID = call.ownerID ∧
      old.status = .active ∧ Issued service call.draw key ∧
      catalog.accessKeys.insert? key = some extended ∧
      (service.rotate call plan auditFaults catalog).2.accessKeys =
        extended.update (rotatable call.ownerID call.id)
          (rotated key.id (call.now + service.graceWindow)) (id_rotated _ _) ∧
      ∀ returned, (service.rotate call plan auditFaults catalog).1 = .ok returned →
        returned = (key, call.draw.token) := by
  unfold AccessKeyService.rotate
  split
  · exact .inl ⟨⟨_, rfl⟩, rfl⟩
  rename_i owned
  split
  · exact .inl ⟨⟨_, rfl⟩, rfl⟩
  split
  · exact .inl ⟨⟨_, rfl⟩, rfl⟩
  have transaction := transact_ensures driverFault (yields_rotateTx service call owned catalog) plan
  rcases transaction with
    ⟨failure, failed⟩ | ⟨rotation, committed, succeeded, old, stored,
      extended, sameID, sameOwner, live, issued, fresh, keys⟩
  · rw [failed]
    exact .inl ⟨⟨_, rfl⟩, rfl⟩
  · rw [succeeded]
    obtain ⟨unchanged, returned⟩ := (ensures_recordRotation service call
      rotation committed).run auditFaults
    exact .inr ⟨old, stored, rotation.created, extended, sameID,
      sameOwner, live, issued, fresh, unchanged.trans keys, returned⟩

theorem ensures_revokeCall (call : RevokeCall) (catalog : Catalog) :
    (service.revoke call).Ensures accessKeyInterpreter
      (fun _ final => Retires catalog.accessKeys final.accessKeys)
      catalog := by
  unfold revoke
  split
  · exact Retires.refl _
  split
  · exact Retires.refl _
  refine (ensures_get _ _).bind ?_
  rintro result _ ⟨rfl, _⟩
  cases result with
  | error failure => exact Retires.refl _
  | ok key =>
    simp only [revokeKey]
    split
    · exact Retires.refl _
    split
    · exact Retires.refl _
    refine (ensures_revoke _ _ _).bind ?_
    intro revoked middle retired
    cases revoked with
    | error failure => exact retired
    | ok _ =>
      refine (ensures_emit_accessKeys _ _ _ _).mono ?_
      intro _ final same
      exact same ▸ retired

/-- The sweep revokes listed keys, one after another. -/
theorem ensures_retire (now : Int) (auditID : Nat → AuditRecordID)
    (listed : List AccessKey) (retired : Nat) (catalog : Catalog) :
    (service.retire now auditID listed retired).Ensures accessKeyInterpreter
      (fun _ final => Retires catalog.accessKeys final.accessKeys)
      catalog := by
  induction listed generalizing retired catalog with
  | nil => exact Retires.refl _
  | cons key rest induction =>
    unfold retire
    split
    · exact Retires.refl _
    refine (ensures_revoke _ _ _).bind ?_
    intro revoked middle first
    have continued := fun count state (same : state.accessKeys =
        middle.accessKeys) => (induction count state).mono
      fun _ final (later : Retires state.accessKeys final.accessKeys) =>
        first.trans (same ▸ later)
    cases revoked with
    | error failure =>
      simp only
      split
      · exact continued retired middle rfl
      · exact first
    | ok _ =>
      refine (ensures_emit_accessKeys _ _ _ _).bind ?_
      intro recorded final same
      cases recorded with
      | error failure =>
        change Retires _ final.accessKeys
        exact same ▸ first
      | ok _ => exact continued (retired + 1) final same

theorem ensures_expireGrace (limit now : Int) (auditID : Nat → AuditRecordID) (catalog : Catalog) :
    (service.expireGrace limit now auditID).Ensures accessKeyInterpreter
      (fun _ final => Retires catalog.accessKeys final.accessKeys)
      catalog := by
  unfold expireGrace
  split
  · exact Retires.refl _
  unfold AccessKeyRepository.listExpiredGrace
  split
  · exact Retires.refl _
  · exact ⟨Retires.refl _, ensures_retire service now auditID _ 0 catalog⟩

/-! ## Verification -/

/-- `Verify`, undisturbed, accepts a token exactly if its identifier names a
usable key of the set whose hash is the hash of its secret. -/
theorem verify_ok_iff {ownerID : OwnerID} {setID : KeySetID}
    {presented : GoString} {now : Int} {key : AccessKey} :
    ((service.verify ownerID setID presented now).run accessKeyInterpreter [] catalog).1 = .ok key ↔
      ownerID ≠ [] ∧ setID ≠ [] ∧
      ∃ id secret, parseToken presented = some (id, secret) ∧
        key ∈ catalog.accessKeys ∧ key.id = id ∧ key.ownerID = ownerID ∧
        key.keySetID = setID ∧ usable now key = true ∧
        key.secretHash = service.hash id secret := by
  unfold AccessKeyService.verify
  split
  · rename_i missing
    simp only [pure_eq_done, run_done]
    constructor
    · intro impossible
      cases impossible
    · rintro ⟨owned, addressed, _⟩
      exact (missing.elim owned addressed).elim
  · rename_i given
    rw [not_or] at given
    cases parsed : parseToken presented with
    | none =>
      simp only [pure_eq_done, run_done]
      constructor
      · intro impossible
        cases impossible
      · rintro ⟨_, _, _, _, impossible, _⟩
        cases impossible
    | some parts =>
      obtain ⟨id, secret⟩ := parts
      simp only [AccessKeyRepository.get, ask_bind,
        issue_bind, run_issue, List.headD_nil, reply_false]
      simp only [accessKeyInterpreter, AccessKeyStatement.execute]
      cases found : catalog.findAccessKey ownerID id with
      | none =>
        simp only [pure_eq_done, done_bind, run_done]
        constructor
        · intro impossible
          cases impossible
        · rintro ⟨_, _, _, _, same, stored, sameID, sameOwner, _⟩
          cases same
          have present := Catalog.findAccessKey_eq_some.mpr ⟨stored, sameID, sameOwner⟩
          rw [found] at present
          cases present
      | some stored =>
        have located := Catalog.findAccessKey_eq_some.mp found
        simp only [pure_eq_done, done_bind, run_done, admits]
        constructor
        · intro admitted
          split at admitted
          · cases admitted
          split at admitted
          · cases admitted
          split at admitted
          · cases admitted
          rename_i set usable hash
          cases admitted
          exact ⟨given.1, given.2, id, secret, rfl, located.1,
            located.2.1, located.2.2, not_not.mp set,
            by simpa using usable, not_not.mp hash⟩
        · rintro ⟨_, _, _, _, same, keyStored, sameID, _, set, usable, hash⟩
          cases same
          have unique : stored = key := Table.eq_of_key_eq located.1
            keyStored (located.2.1.trans sameID.symm)
          subst unique
          simp [set, usable, hash]

end Vallet.Publishing
