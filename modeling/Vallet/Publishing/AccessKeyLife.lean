import Vallet.Publishing.AccessKeyEffects
import Mathlib.Logic.Relation

/-!
# The life of an access key

A key is issued active, may be replaced once, and may be revoked for good.  The
book of keys keeps, beside the stored rows, which tokens were made and which
key replaced which; what follows about tokens is read off the book.
-/

namespace Vallet.AccessKey

/-- What a later version of a key may be. -/
structure Follows (key later : AccessKey) : Prop where
  same : SameCredential key later
  revoked : key.status = .revoked → later.status = .revoked
  grace : key.status = .grace → later.status = .revoked ∨
    (later.status = .grace ∧ later.graceUntil = key.graceUntil)

theorem Follows.refl (key : AccessKey) : Follows key key :=
  ⟨.refl key, fun revoked => revoked, fun grace => .inr ⟨grace, rfl⟩⟩

theorem Follows.trans {first second third : AccessKey}
    (left : Follows first second) (right : Follows second third) :
    Follows first third where
  same := left.same.trans right.same
  revoked revoked := right.revoked (left.revoked revoked)
  grace grace := by
    rcases left.grace grace with revoked | ⟨middle, deadline⟩
    · exact .inl (right.revoked revoked)
    · rcases right.grace middle with revoked | ⟨last, same⟩
      · exact .inl revoked
      · exact .inr ⟨last, same.trans deadline⟩

theorem follows_of_retired {key later : AccessKey}
    (retired : Retired key later) : Follows key later := by
  rcases retired with rfl | ⟨same, revoked⟩
  · exact .refl _
  · exact ⟨same, fun _ => revoked, fun _ => .inl revoked⟩

end Vallet.AccessKey

namespace Vallet.Publishing

open Audit Auth Effects Relational AccessKeyService Table

/-! ## The book of keys -/

/-- A token that opens a stored key, and whether a caller was given it. -/
structure Issuance where
  draw : TokenDraw
  ownerID : OwnerID
  keySetID : KeySetID
  returned : Bool

/-- A rotation that was committed. -/
structure Succession where
  key : AccessKeyID
  successor : AccessKeyID
  rotatedAt : Int
deriving DecidableEq, Repr

/-- The keys, with what was issued and what was rotated. -/
structure KeyBook where
  keys : Table AccessKey.id
  issued : List Issuance
  successions : List Succession

/-- The key an issuance speaks of. -/
structure Issuance.Opens (service : AccessKeyService) (issuance : Issuance)
    (key : AccessKey) : Prop where
  id : key.id = issuance.draw.id.text
  secretHash : key.secretHash =
    service.hash issuance.draw.id.text issuance.draw.secret
  ownerID : key.ownerID = issuance.ownerID
  keySetID : key.keySetID = issuance.keySetID

theorem Issuance.Opens.follow {service : AccessKeyService}
    {issuance : Issuance} {key later : AccessKey} (opens : issuance.Opens service key)
    (same : AccessKey.SameCredential key later) :
    issuance.Opens service later where
  id := same.id.trans opens.id
  secretHash := same.secretHash.trans opens.secretHash
  ownerID := same.ownerID.trans opens.ownerID
  keySetID := same.keySetID.trans opens.keySetID

namespace KeyBook

/-- What can happen to the book. -/
inductive Move (service : AccessKeyService) : KeyBook → KeyBook → Prop where
  | issue {book : KeyBook} {key : AccessKey} {draw : TokenDraw}
      {extended : Table AccessKey.id} (returned : Bool) (issued : Issued service draw key)
      (fresh : book.keys.insert? key = some extended) :
      Move service book {
        keys := extended
        issued := ⟨draw, key.ownerID, key.keySetID, returned⟩ :: book.issued
        successions := book.successions }
  | rotate {book : KeyBook} {old : AccessKey} (successor : AccessKeyID)
      (rotatedAt : Int) (stored : old ∈ book.keys) (live : old.status = .active) :
      Move service book {
        keys := book.keys.update (AccessKey.rotatable old.ownerID old.id)
          (AccessKey.rotated successor (rotatedAt + service.graceWindow)) (AccessKey.id_rotated _ _)
        issued := book.issued
        successions := ⟨old.id, successor, rotatedAt⟩ :: book.successions }
  | retire {book : KeyBook} {keys : Table AccessKey.id}
      (retired : Retires book.keys keys) :
      Move service book { book with keys := keys }

/-- The state of a key that was replaced. -/
def Replaced (service : AccessKeyService) (succession : Succession)
    (key : AccessKey) : Prop :=
  key.status = .revoked ∨
    (key.status = .grace ∧
      key.graceUntil = some (succession.rotatedAt + service.graceWindow))

/-- The keys agree with the ledgers. -/
structure Sound (service : AccessKeyService) (book : KeyBook) : Prop where
  opened : ∀ issuance ∈ book.issued, issuance.ownerID ≠ [] ∧
    issuance.keySetID ≠ [] ∧ ∃ key ∈ book.keys, issuance.Opens service key
  issued : ∀ key ∈ book.keys, ∃ issuance ∈ book.issued, issuance.Opens service key
  replaced : ∀ succession ∈ book.successions, ∃ key ∈ book.keys,
    key.id = succession.key ∧ Replaced service succession key
  once : ∀ first ∈ book.successions, ∀ second ∈ book.successions,
    first.key = second.key → first = second
  grace : ∀ key ∈ book.keys, key.status = .grace →
    ∃ succession ∈ book.successions, succession.key = key.id ∧
      key.graceUntil = some (succession.rotatedAt + service.graceWindow)

/-! ## What moves preserve -/

section Moves

variable {service : AccessKeyService} {book next : KeyBook} {succession : Succession}

theorem rotated_version {old : AccessKey} (stored : old ∈ book.keys)
    (live : old.status = .active) (successor : AccessKeyID) (graceUntil : Int)
    {key : AccessKey} (keyStored : key ∈ book.keys) :
    (key = old ∧ (if AccessKey.rotatable old.ownerID old.id key then
        key.rotated successor graceUntil else key) =
      old.rotated successor graceUntil) ∨
    (key.id ≠ old.id ∧ (if AccessKey.rotatable old.ownerID old.id key then
        key.rotated successor graceUntil else key) = key) := by
  by_cases same : key.id = old.id
  · have identical := eq_of_key_eq keyStored stored same
    subst identical
    exact .inl ⟨rfl, by simp [AccessKey.rotatable, AccessKey.ownedBy, live]⟩
  · exact .inr ⟨same, by
      simp [AccessKey.rotatable, AccessKey.ownedBy, same]⟩

/-- No key is lost, and every later version is one its key may have. -/
theorem Move.follows (move : Move service book next) {key : AccessKey} (stored : key ∈ book.keys) :
    ∃ later ∈ next.keys, AccessKey.Follows key later := by
  cases move with
  | issue returned issued fresh =>
    exact ⟨key, (mem_insert fresh).mpr (.inl stored), .refl key⟩
  | @rotate old successor rotatedAt oldStored live =>
    refine ⟨_, mem_update_of_mem _ _ (AccessKey.id_rotated _ _) stored, ?_⟩
    rcases rotated_version oldStored live successor (rotatedAt + service.graceWindow) stored with
      ⟨rfl, version⟩ | ⟨_, version⟩
    · rw [version]
      exact ⟨⟨rfl, rfl, rfl, rfl⟩, by rw [live]; nofun, by rw [live]; nofun⟩
    · rw [version]
      exact .refl key
  | retire retired =>
    obtain ⟨later, laterStored, retirement⟩ := retired.kept key stored
    exact ⟨later, laterStored, AccessKey.follows_of_retired retirement⟩

theorem Replaced.not_active {key : AccessKey}
    (replaced : Replaced service succession key) : key.status ≠ .active := by
  rintro active
  rcases replaced with revoked | ⟨grace, _⟩
  · rw [active] at revoked
    cases revoked
  · rw [active] at grace
    cases grace

theorem Replaced.follow {key later : AccessKey} (replaced : Replaced service succession key)
    (follows : AccessKey.Follows key later) : Replaced service succession later := by
  rcases replaced with revoked | ⟨grace, deadline⟩
  · exact .inl (follows.revoked revoked)
  · rcases follows.grace grace with revoked | ⟨later, same⟩
    · exact .inl revoked
    · exact .inr ⟨later, same.trans deadline⟩

section

variable (sound : Sound service book)

include sound

/-- What the book says of its keys is kept while the rows follow. -/
theorem Sound.opened_after
    (move : Move service book next) {issuance : Issuance} (member : issuance ∈ book.issued) :
    issuance.ownerID ≠ [] ∧ issuance.keySetID ≠ [] ∧
      ∃ key ∈ next.keys, issuance.Opens service key := by
  obtain ⟨owned, addressed, key, stored, opens⟩ := sound.opened _ member
  obtain ⟨later, laterStored, follows⟩ := move.follows stored
  exact ⟨owned, addressed, later, laterStored, opens.follow follows.same⟩

theorem Sound.replaced_after
    (move : Move service book next) (member : succession ∈ book.successions) :
    ∃ key ∈ next.keys, key.id = succession.key ∧
      Replaced service succession key := by
  obtain ⟨key, stored, same, replaced⟩ := sound.replaced _ member
  obtain ⟨later, laterStored, follows⟩ := move.follows stored
  exact ⟨later, laterStored, follows.same.id.trans same, replaced.follow follows⟩

theorem Sound.after_issue {key : AccessKey} {draw : TokenDraw} {extended : Table AccessKey.id}
    (returned : Bool) (issued : Issued service draw key)
    (fresh : book.keys.insert? key = some extended) :
    Sound service {
      keys := extended
      issued := ⟨draw, key.ownerID, key.keySetID, returned⟩ :: book.issued
      successions := book.successions } := by
  have move : Move service book _ := .issue returned issued fresh
  have opens : Issuance.Opens service
      ⟨draw, key.ownerID, key.keySetID, returned⟩ key :=
    ⟨issued.id, issued.secretHash, rfl, rfl⟩
  constructor
  · intro issuance member
    rcases List.mem_cons.mp member with rfl | old
    · exact ⟨issued.owned, issued.addressed, key, (mem_insert fresh).mpr (.inr rfl), opens⟩
    · exact sound.opened_after move old
  · intro other stored
    rcases (mem_insert fresh).mp stored with old | rfl
    · obtain ⟨issuance, member, otherOpens⟩ := sound.issued other old
      exact ⟨issuance, List.mem_cons_of_mem _ member, otherOpens⟩
    · exact ⟨_, List.mem_cons_self, opens⟩
  · exact fun succession member => sound.replaced_after move member
  · exact sound.once
  · intro other stored grace
    rcases (mem_insert fresh).mp stored with old | rfl
    · exact sound.grace other old grace
    · rw [issued.active] at grace
      cases grace

theorem Sound.after_rotate {old : AccessKey}
    (successor : AccessKeyID) (rotatedAt : Int) (stored : old ∈ book.keys)
    (live : old.status = .active) :
    Sound service {
      keys := book.keys.update (AccessKey.rotatable old.ownerID old.id)
        (AccessKey.rotated successor (rotatedAt + service.graceWindow)) (AccessKey.id_rotated _ _)
      issued := book.issued
      successions := ⟨old.id, successor, rotatedAt⟩ :: book.successions } := by
  have move : Move service book _ := .rotate successor rotatedAt stored live
  have version := fun {key} => @rotated_version book old stored live successor
    (rotatedAt + service.graceWindow) key
  have notReplaced : ∀ succession ∈ book.successions,
      succession.key ≠ old.id := by
    intro succession member same
    obtain ⟨key, keyStored, sameKey, replaced⟩ := sound.replaced succession member
    have identical := eq_of_key_eq keyStored stored (sameKey.trans same)
    exact replaced.not_active (identical ▸ live)
  constructor
  · exact fun issuance member => sound.opened_after move member
  · intro later laterStored
    simp only [mem_update] at laterStored
    obtain ⟨key, keyStored, rfl⟩ := laterStored
    obtain ⟨issuance, member, opens⟩ := sound.issued key keyStored
    refine ⟨issuance, member, ?_⟩
    rcases version keyStored with ⟨rfl, same⟩ | ⟨_, same⟩
    · rw [same]
      exact opens.follow ⟨rfl, rfl, rfl, rfl⟩
    · rw [same]
      exact opens
  · intro succession member
    rcases List.mem_cons.mp member with rfl | earlier
    · refine ⟨_, mem_update_of_mem _ _ (AccessKey.id_rotated _ _) stored, ?_⟩
      rcases version stored with ⟨_, same⟩ | ⟨different, _⟩
      · rw [same]
        exact ⟨rfl, .inr ⟨rfl, rfl⟩⟩
      · exact (different rfl).elim
    · exact sound.replaced_after move earlier
  · intro first firstMember second secondMember same
    rcases List.mem_cons.mp firstMember with rfl | firstEarlier
    · rcases List.mem_cons.mp secondMember with rfl | secondEarlier
      · rfl
      · exact (notReplaced second secondEarlier same.symm).elim
    · rcases List.mem_cons.mp secondMember with rfl | secondEarlier
      · exact (notReplaced first firstEarlier same).elim
      · exact sound.once first firstEarlier second secondEarlier same
  · intro later laterStored grace
    simp only [mem_update] at laterStored
    obtain ⟨key, keyStored, rfl⟩ := laterStored
    rcases version keyStored with ⟨rfl, same⟩ | ⟨_, same⟩
    · rw [same]
      exact ⟨_, List.mem_cons_self, rfl, rfl⟩
    · rw [same] at grace ⊢
      obtain ⟨succession, member, of, deadline⟩ := sound.grace key keyStored grace
      exact ⟨succession, List.mem_cons_of_mem _ member, of, deadline⟩

theorem Sound.after_retire {keys : Table AccessKey.id} (retired : Retires book.keys keys) :
    Sound service { book with keys := keys } := by
  have move : Move service book _ := .retire retired
  constructor
  · exact fun issuance member => sound.opened_after move member
  · intro later stored
    obtain ⟨key, keyStored, retirement⟩ := retired.origin later stored
    obtain ⟨issuance, member, opens⟩ := sound.issued key keyStored
    exact ⟨issuance, member, opens.follow retirement.sameCredential⟩
  · exact fun succession member => sound.replaced_after move member
  · exact sound.once
  · intro later stored grace
    obtain ⟨key, keyStored, rfl | ⟨_, revoked⟩⟩ := retired.origin later stored
    · exact sound.grace _ keyStored grace
    · rw [revoked] at grace
      cases grace

theorem Sound.after_move (move : Move service book next) : Sound service next := by
  cases move with
  | issue returned issued fresh => exact sound.after_issue returned issued fresh
  | rotate successor rotatedAt stored live =>
    exact sound.after_rotate successor rotatedAt stored live
  | retire retired => exact sound.after_retire retired

/-- Any number of moves. -/
def Moves (service : AccessKeyService) : KeyBook → KeyBook → Prop :=
  Relation.ReflTransGen (Move service)

end

theorem Moves.follows (moves : Moves service book next) {key : AccessKey}
    (stored : key ∈ book.keys) : ∃ later ∈ next.keys, AccessKey.Follows key later := by
  induction moves with
  | refl => exact ⟨key, stored, .refl key⟩
  | tail _ move induction =>
    obtain ⟨middle, middleStored, first⟩ := induction
    obtain ⟨later, laterStored, second⟩ := move.follows middleStored
    exact ⟨later, laterStored, first.trans second⟩

end Moves

end KeyBook

/-! ## Runs of the service -/

/-- The store and the clock, with a record of the tokens that open stored keys
and of the keys that replaced others. -/
structure AccessKeySystem where
  catalog : Catalog
  clock : Int
  issued : List Issuance
  successions : List Succession

namespace AccessKeySystem

def book (system : AccessKeySystem) : KeyBook where
  keys := system.catalog.accessKeys
  issued := system.issued
  successions := system.successions

/-- The key a call has stored for its draw, if it has stored one. -/
def stored? (before after : Catalog) (draw : TokenDraw) : Option AccessKey :=
  match before.accessKeys.find? draw.id.text with
  | some _ => none
  | none => after.accessKeys.find? draw.id.text

def issuances (stored : Option AccessKey) (draw : TokenDraw)
    (returned : Bool) : List Issuance :=
  stored.toList.map fun key => ⟨draw, key.ownerID, key.keySetID, returned⟩

section Calls

variable (service : AccessKeyService)

def mint (system : AccessKeySystem) (call : AccessKeyService.MintCall)
    (faults : List Bool) : AccessKeySystem :=
  let outcome := (service.mint call).run accessKeyInterpreter faults
    system.catalog
  let stored := stored? system.catalog outcome.2 call.draw
  { catalog := outcome.2
    clock := call.now
    issued := issuances stored call.draw outcome.1.isOk ++ system.issued
    successions := system.successions }

def rotate (system : AccessKeySystem) (call : RotateCall)
    (plan : FaultPlan) (auditFaults : List Bool) : AccessKeySystem :=
  let outcome := service.rotate call plan auditFaults system.catalog
  let stored := stored? system.catalog outcome.2 call.draw
  { catalog := outcome.2
    clock := call.now
    issued := issuances stored call.draw outcome.1.isOk ++ system.issued
    successions := stored.toList.map (fun key =>
      ⟨call.id, key.id, call.now⟩) ++ system.successions }

def revoke (system : AccessKeySystem) (call : RevokeCall)
    (faults : List Bool) : AccessKeySystem :=
  { system with
    catalog := ((service.revoke call).run accessKeyInterpreter faults system.catalog).2
    clock := call.now }

def expireGrace (system : AccessKeySystem) (limit now : Int)
    (auditID : Nat → AuditRecordID) (faults : List Bool) : AccessKeySystem :=
  { system with
    catalog := ((service.expireGrace limit now auditID).run
      accessKeyInterpreter faults system.catalog).2
    clock := now }

/-- One call of the service with the faults it meets, or anything that other
services do, which leaves the keys alone. -/
inductive Step : AccessKeySystem → AccessKeySystem → Prop where
  | mint {system : AccessKeySystem} (call : AccessKeyService.MintCall)
      (faults : List Bool) (later : system.clock ≤ call.now) :
      Step system (system.mint service call faults)
  | rotate {system : AccessKeySystem} (call : RotateCall)
      (plan : FaultPlan) (auditFaults : List Bool) (later : system.clock ≤ call.now) :
      Step system (system.rotate service call plan auditFaults)
  | revoke {system : AccessKeySystem} (call : RevokeCall)
      (faults : List Bool) (later : system.clock ≤ call.now) :
      Step system (system.revoke service call faults)
  | expireGrace {system : AccessKeySystem} (limit now : Int)
      (auditID : Nat → AuditRecordID) (faults : List Bool) (later : system.clock ≤ now) :
      Step system (system.expireGrace service limit now auditID faults)
  | elsewhere {system : AccessKeySystem} (catalog : Catalog) (now : Int)
      (kept : catalog.accessKeys = system.catalog.accessKeys) (later : system.clock ≤ now) :
      Step system { system with catalog, clock := now }

def Runs : AccessKeySystem → AccessKeySystem → Prop :=
  Relation.ReflTransGen (Step service)

/-- No key has been issued yet. -/
def fresh (catalog : Catalog) (clock : Int) : AccessKeySystem where
  catalog := { catalog with accessKeys := .empty }
  clock := clock
  issued := []
  successions := []

variable {service} {now : Int} {system : AccessKeySystem} {ownerID : OwnerID}
  {setID : KeySetID} {presented : GoString}

theorem stored?_self (catalog : Catalog) (draw : TokenDraw) :
    stored? catalog catalog draw = none := by
  unfold stored?
  cases found : catalog.accessKeys.find? draw.id.text with
  | none | some => rfl

/-- A key inserted for a draw is found under its identifier, also after the
row of another key was updated. -/
theorem stored?_of_insert {before after : Catalog} {draw : TokenDraw}
    {key version : AccessKey} {extended : Table AccessKey.id} (issued : Issued service draw key)
    (fresh : before.accessKeys.insert? key = some extended)
    (stored : version ∈ after.accessKeys) (same : version.id = key.id) :
    stored? before after draw = some version := by
  have absent : before.accessKeys.find? draw.id.text = none := by
    rw [find?_eq_none_iff, ← issued.id]
    exact (insert?_eq_some_iff.mp fresh).1
  rw [stored?, absent]
  exact find?_eq_some_iff.mpr ⟨stored, same.trans issued.id⟩

theorem mint_moves (system : AccessKeySystem) (call : AccessKeyService.MintCall)
    (faults : List Bool) :
    KeyBook.Moves service system.book (system.mint service call faults).book := by
  have outcome := (ensures_mint service call system.catalog).run faults
  rcases outcome with ⟨_, unchanged⟩ | ⟨key, issued, fresh, _⟩
  · have same : (system.mint service call faults).book = system.book := by
      simp only [mint, book, unchanged, stored?_self, issuances,
        Option.toList_none, List.map_nil, List.nil_append]
    rw [same]
    exact .refl
  · have found := stored?_of_insert issued fresh ((mem_insert fresh).mpr (.inr rfl)) rfl
    simp only [mint, book, found, issuances, Option.toList_some,
      List.map_cons, List.map_nil, List.singleton_append]
    exact .single (.issue _ issued fresh)

theorem rotate_moves (system : AccessKeySystem)
    (call : RotateCall) (plan : FaultPlan) (auditFaults : List Bool) :
    KeyBook.Moves service system.book
      (system.rotate service call plan auditFaults).book := by
  rcases rotate_cases service call plan auditFaults system.catalog with
    ⟨_, unchanged⟩ |
    ⟨old, stored, key, extended, sameID, sameOwner, live, issued, fresh, keys, _⟩
  · have same : (system.rotate service call plan auditFaults).book =
        system.book := by
      simp only [rotate, book, unchanged, stored?_self, issuances,
        Option.toList_none, List.map_nil, List.nil_append]
    rw [same]
    exact .refl
  · have inserted : key ∈ extended := (mem_insert fresh).mpr (.inr rfl)
    have kept : old ∈ extended := (mem_insert fresh).mpr (.inl stored)
    have different : key.id ≠ old.id := fun same =>
      (insert?_eq_some_iff.mp fresh).1 old stored same.symm
    have keyStored : key ∈
        (service.rotate call plan auditFaults system.catalog).2.accessKeys := by
      rw [keys, mem_update]
      refine ⟨key, inserted, ?_⟩
      rw [if_neg]
      simp [AccessKey.rotatable, AccessKey.ownedBy, ← sameID, different]
    have found := stored?_of_insert issued fresh keyStored rfl
    have final : (system.rotate service call plan auditFaults).book = {
        keys := extended.update (AccessKey.rotatable old.ownerID old.id)
          (AccessKey.rotated key.id (call.now + service.graceWindow)) (AccessKey.id_rotated _ _)
        issued := ⟨call.draw, key.ownerID, key.keySetID,
          (service.rotate call plan auditFaults system.catalog).1.isOk⟩ ::
          system.issued
        successions := ⟨old.id, key.id, call.now⟩ :: system.successions } := by
      simp only [rotate, book, found, issuances, Option.toList_some,
        List.map_cons, List.map_nil, List.singleton_append, keys, sameID, sameOwner]
    rw [final]
    have first : KeyBook.Move service system.book _ := .issue
      (service.rotate call plan auditFaults system.catalog).1.isOk issued fresh
    exact (Relation.ReflTransGen.single first).tail (.rotate key.id call.now kept live)

variable {before after : AccessKeySystem}

theorem Step.moves (step : Step service before after) :
    KeyBook.Moves service before.book after.book := by
  cases step with
  | mint call faults => exact mint_moves before call faults
  | rotate call plan auditFaults => exact rotate_moves before call plan auditFaults
  | revoke call faults =>
    exact .single (.retire ((ensures_revokeCall service call before.catalog).run faults))
  | expireGrace limit now auditID faults =>
    exact .single (.retire ((ensures_expireGrace service limit now auditID
      before.catalog).run faults))
  | elsewhere catalog now kept =>
    simp only [book, kept]
    exact .refl

theorem Runs.moves (runs : Runs service before after) :
    KeyBook.Moves service before.book after.book := by
  induction runs with
  | refl => exact .refl
  | tail _ step induction => exact induction.trans step.moves

theorem sound_fresh (catalog : Catalog) (clock : Int) :
    KeyBook.Sound service (fresh catalog clock).book where
  opened issuance member := by cases member
  issued key stored := by cases stored
  replaced succession member := by cases member
  once first member := by cases member
  grace key stored := by cases stored

/-! ## What holders of tokens can rely on -/

/-- An issuance whose token is the presented one, for the owner and the set,
and whose key is active or within its grace window. -/
def Admits (system : AccessKeySystem) (ownerID : OwnerID) (setID : KeySetID)
    (presented : GoString) (now : Int) (issuance : Issuance) : Prop :=
  issuance.draw.token = presented ∧ issuance.ownerID = ownerID ∧
    issuance.keySetID = setID ∧
    ∃ key ∈ system.catalog.accessKeys, key.id = issuance.draw.id.text ∧
      (key.status = .active ∨ (key.status = .grace ∧
        ∃ deadline, key.graceUntil = some deadline ∧ now ≤ deadline))

/-- The keyed hash of the presented secret is the hash of an issued secret only
if the secrets are the same. -/
def Distinguishes (service : AccessKeyService) (system : AccessKeySystem)
    (presented : GoString) : Prop :=
  ∀ id secret, parseToken presented = some (id, secret) →
    ∀ issuance ∈ system.issued, issuance.draw.id.text = id →
      service.hash id secret = service.hash id issuance.draw.secret →
      secret = issuance.draw.secret

/-- No call stored a key and then failed. -/
def AllReturned (system : AccessKeySystem) : Prop :=
  ∀ issuance ∈ system.issued, issuance.returned = true

/-- The undisturbed answer of `Verify`. -/
def verify (service : AccessKeyService) (system : AccessKeySystem)
    (ownerID : OwnerID) (setID : KeySetID) (presented : GoString)
    (now : Int) : Except Err AccessKey :=
  ((service.verify ownerID setID presented now).run accessKeyInterpreter []
    system.catalog).1

end Calls

/-- The contract of access keys between two moments of a run. -/
structure Contract (service : AccessKeyService) (before after : AccessKeySystem) : Prop where
  revoked : ∀ key ∈ before.catalog.accessKeys, key.status = .revoked →
    ∃ later ∈ after.catalog.accessKeys, later.id = key.id ∧
      later.status = .revoked
  successor : ∀ first ∈ after.successions, ∀ second ∈ after.successions,
    first.key = second.key → first = second
  deadline : ∀ key ∈ before.catalog.accessKeys,
    ∀ later ∈ after.catalog.accessKeys, later.id = key.id →
      key.status = .grace → later.status = .grace →
      later.graceUntil = key.graceUntil ∧ key.graceUntil.isSome
  verifies : ∀ ownerID setID presented now, after.Distinguishes service presented →
    ((∃ key, after.verify service ownerID setID presented now = .ok key) ↔
      ∃ issuance ∈ after.issued, after.Admits ownerID setID presented now issuance)
  returned : after.AllReturned → ∀ ownerID setID presented now,
    after.Distinguishes service presented →
    ((∃ key, after.verify service ownerID setID presented now = .ok key) ↔
      ∃ issuance ∈ after.issued, issuance.returned = true ∧
        after.Admits ownerID setID presented now issuance)
  expired : ∀ succession ∈ before.successions, ∀ ownerID setID presented secret now,
      parseToken presented = some (succession.key, secret) →
      succession.rotatedAt + service.graceWindow < now →
      ∀ key, after.verify service ownerID setID presented now ≠ .ok key
  mintFails : ∀ call faults, (∀ set clean,
      ((keySetIn call.ownerID call.setID).run accessKeyInterpreter faults
        after.catalog).1 = .ok set →
      cleanName call.name = .ok clean → ∃ failure,
        ((AccessKeyRepository.create (service.mintedKey call set clean)).run
          accessKeyInterpreter faults.tail after.catalog).1 = .error failure) →
    ((service.mint call).run accessKeyInterpreter faults after.catalog).2 =
      after.catalog
  rotateFails : ∀ call plan auditFaults failure,
    (transact accessKeyInterpreter driverFault (service.rotateTx call) plan
      after.catalog).1 = .error failure →
    (service.rotate call plan auditFaults after.catalog).2 = after.catalog

end AccessKeySystem

namespace Sample

def mintCall : AccessKeyService.MintCall where
  ownerID := utf8 "olive"
  setID := utf8 "work"
  name := utf8 "laptop"
  requestID := []
  now := 10
  draw := draw 65 a_known
  auditID := utf8 "a1"

def rotateCall : RotateCall where
  ownerID := utf8 "olive"
  id := List.replicate 26 65
  requestID := []
  now := 20
  draw := draw 66 b_known
  createdAuditID := utf8 "a2"
  rotatedAuditID := utf8 "a3"

def minted : AccessKeySystem :=
  (AccessKeySystem.fresh catalog 0).mint accessKeyService mintCall []

def rotated : AccessKeySystem := minted.rotate accessKeyService rotateCall {} []

end Sample

namespace AccessKeySystem

end AccessKeySystem

end Vallet.Publishing
