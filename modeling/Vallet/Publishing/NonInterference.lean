import Vallet.Publishing.AccessKeyLife
import Vallet.Publishing.HandleLife
import Vallet.Publishing.Publish

/-!
# Publishing does not interfere

Two stores that agree on what is servable under a handle and a set name give
the same answer, whatever else they hold.  A public set is answered alike with
every token, and a body is the lines of the active members and nothing else.
Over runs of the services that write what it reads, a protected set is served
only for an issued token, and a name in quarantine only for who vacated it.
-/

namespace Vallet.Publishing

open Auth Relational Effects Catalog Table

namespace Catalog

/-- The unique indexes of `handles` and `key_sets`. -/
structure Indexed (catalog : Catalog) : Prop where
  handles : catalog.handles.Unique Handle.clashes
  keySets : catalog.keySets.Unique KeySet.clashes

namespace Indexed

variable {catalog : Catalog} {name : GoString}

variable (indexed : catalog.Indexed)

include indexed

theorem handle_eq {handle other : Handle}
    (stored : handle ∈ catalog.handles) (otherStored : other ∈ catalog.handles)
    (named : handle.name = other.name) : handle = other := by
  by_contra different
  have unlike : handle.id ≠ other.id := fun same =>
    different (eq_of_key_eq stored otherStored same)
  have free := indexed.handles handle stored other otherStored unlike
  simp [Handle.clashes, named] at free

theorem keySet_eq {set other : KeySet}
    (stored : set ∈ catalog.keySets) (otherStored : other ∈ catalog.keySets)
    (owned : set.ownerID = other.ownerID) (selected : selects name set = true)
    (otherSelected : selects name other = true) : set = other := by
  by_contra different
  have unlike : set.id ≠ other.id := fun same =>
    different (eq_of_key_eq stored otherStored same)
  have free := indexed.keySets set stored other otherStored unlike
  unfold selects at selected otherSelected
  split at selected
  · rename_i unnamed
    rw [if_pos unnamed] at otherSelected
    simp [KeySet.clashes, owned, selected, otherSelected] at free
  · rename_i named
    rw [if_neg named] at otherSelected
    simp only [decide_eq_true_eq] at selected otherSelected
    simp [KeySet.clashes, owned, selected, otherSelected] at free

theorem servedHandle_iff {handle : Handle} : catalog.servedHandle name = some handle ↔
      handle ∈ catalog.handles ∧ handle.name = name ∧ handle.state = .active := by
  constructor
  · exact mem_of_servedHandle
  rintro ⟨stored, named, active⟩
  apply Option.filter_eq_some_iff.mpr
  refine ⟨(head?_select_eq_some_iff ?_).mpr ⟨stored, by simp [named]⟩, by simp [active]⟩
  intro row rowStored other otherStored rowNamed otherNamed
  simp only [decide_eq_true_eq] at rowNamed otherNamed
  exact indexed.handle_eq rowStored otherStored (rowNamed.trans otherNamed.symm)

theorem servedSet_iff {ownerID : OwnerID} {set : KeySet} :
    catalog.servedSet ownerID name = some set ↔
      set ∈ catalog.keySets ∧ set.ownerID = ownerID ∧
        selects name set = true ∧ set.state = .active := by
  constructor
  · exact mem_of_servedSet
  rintro ⟨stored, owned, selected, active⟩
  rw [servedSet_eq, Option.filter_eq_some_iff]
  refine ⟨(head?_select_eq_some_iff ?_).mpr ⟨stored, by simp [owned, selected]⟩, by simp [active]⟩
  intro row rowStored other otherStored chosen otherChosen
  simp only [Bool.and_eq_true, decide_eq_true_eq] at chosen otherChosen
  exact indexed.keySet_eq rowStored otherStored
    (chosen.1.trans otherChosen.1.symm) chosen.2 otherChosen.2

end Indexed

variable {owner : Owner} {catalog : Catalog}

theorem servedOwner_iff {id : OwnerID} : catalog.servedOwner id = some owner ↔
      owner ∈ catalog.owners ∧ owner.id = id ∧ owner.inGoodStanding = true := by
  rw [servedOwner, Option.filter_eq_some_iff, find?_eq_some_iff, and_assoc]

/-- The way that is served, by the lookups and by the rows. -/
theorem Indexed.served_of_serves
    (indexed : catalog.Indexed) {name setName : GoString} {handle : Handle}
    {set : KeySet} (serves : catalog.Serves name setName handle owner set) :
    catalog.servedHandle name = some handle ∧ catalog.servedOwner handle.ownerID = some owner ∧
      catalog.servedSet owner.id setName = some set :=
  ⟨indexed.servedHandle_iff.mpr ⟨serves.handleStored, serves.handleNamed, serves.handleActive⟩,
    servedOwner_iff.mpr ⟨serves.ownerStored, serves.ownerOf, serves.ownerStanding⟩,
    indexed.servedSet_iff.mpr ⟨serves.setStored, serves.setOf,
      serves.setSelected, serves.setActive⟩⟩

theorem findAccessKey_eq_some_iff {ownerID : OwnerID} {id : AccessKeyID} {key : AccessKey} :
    catalog.findAccessKey ownerID id = some key ↔
      key ∈ catalog.accessKeys ∧ key.id = id ∧ key.ownerID = ownerID := by
  rw [findAccessKey, head?_select_eq_some_iff]
  · simp [AccessKey.ownedBy]
  · intro row stored other otherStored chosen otherChosen
    simp only [AccessKey.ownedBy, Bool.and_eq_true, decide_eq_true_eq] at chosen otherChosen
    exact eq_of_key_eq stored otherStored (chosen.1.trans otherChosen.1.symm)

end Catalog

variable {verifier : AccessKeyService} {setID : KeySetID} {now : Int} {ownerID : OwnerID}

/-- Two stores agree on what is servable under a handle and a set name.  The
members of a protected set count only when the token opens it. -/
structure Agree (service : PublishService) (name setName presented : GoString)
    (now : Int) (left right : Catalog) : Prop where
  handles : ∀ handle : Handle, handle.name = name → handle.state = .active →
    (handle ∈ left.handles ↔ handle ∈ right.handles)
  owners : ∀ handle ∈ left.handles, handle.name = name →
    handle.state = .active → ∀ owner : Owner, owner.id = handle.ownerID →
      owner.inGoodStanding = true →
      (owner ∈ left.owners ↔ owner ∈ right.owners)
  keySets : ∀ handle ∈ left.handles, handle.name = name →
    handle.state = .active → ∀ owner ∈ left.owners,
      owner.id = handle.ownerID → owner.inGoodStanding = true →
      ∀ set : KeySet, set.ownerID = owner.id → set.state = .active → selects setName set = true →
        (set ∈ left.keySets ↔ set ∈ right.keySets)
  accessKeys : ∀ handle owner set, left.Serves name setName handle owner set → ∀ key : AccessKey,
      key.ownerID = owner.id → key.keySetID = set.id →
      (key ∈ left.accessKeys ↔ key ∈ right.accessKeys)
  members : ∀ handle owner set, left.Serves name setName handle owner set →
    service.shows left owner.id set presented now = true →
    ∀ key : PublicKey, key.ownerID = owner.id → key.status = .active →
      ((key ∈ left.publicKeys ∧ left.isMember set.id key = true) ↔
        (key ∈ right.publicKeys ∧ right.isMember set.id key = true))

/-- The access keys of an owner and a set decide which tokens open it. -/
theorem AccessKeyService.opens_of_accessKeys {left right : Catalog} {presented : GoString}
    (known : ∀ key : AccessKey, key.ownerID = ownerID → key.keySetID = setID →
      key ∈ left.accessKeys → key ∈ right.accessKeys)
    (opened : verifier.opens left ownerID setID presented now = true) :
    verifier.opens right ownerID setID presented now = true := by
  simp only [opens, Bool.and_eq_true, Option.any_eq_true] at opened ⊢
  obtain ⟨filled, token, parsed, key, found, admitted⟩ := opened
  obtain ⟨stored, sameID, owned⟩ := findAccessKey_eq_some_iff.mp found
  have named : key.keySetID = setID := by
    by_contra different
    simp [AccessKeyService.admits, different, Except.toOption] at admitted
  have kept := known key owned named stored
  exact ⟨filled, token, parsed, key, findAccessKey_eq_some_iff.mpr ⟨kept, sameID, owned⟩, admitted⟩

namespace PublishService

theorem shows_eq {service : PublishService} {left right : Catalog}
    {ownerID : OwnerID} {set : KeySet} {presented : GoString} {now : Int}
    (same : ∀ key : AccessKey, key.ownerID = ownerID → key.keySetID = set.id →
      (key ∈ left.accessKeys ↔ key ∈ right.accessKeys)) :
    service.shows left ownerID set presented now =
      service.shows right ownerID set presented now := by
  unfold shows
  cases set.visibility with
  | visibilityPublic => rfl
  | visibilityProtected =>
    cases service.verifier with
    | none => rfl
    | some verifier =>
      rw [Option.any_some, Option.any_some, Bool.eq_iff_iff]
      constructor
      · apply AccessKeyService.opens_of_accessKeys
        exact fun key owned ofSet => (same key owned ofSet).mp
      · apply AccessKeyService.opens_of_accessKeys
        exact fun key owned ofSet => (same key owned ofSet).mpr

end PublishService

theorem Catalog.activeMembers_eq {left right : Catalog}
    (same : ∀ key : PublicKey, key.ownerID = ownerID → key.status = .active →
      ((key ∈ left.publicKeys ∧ left.isMember setID key = true) ↔
        (key ∈ right.publicKeys ∧ right.isMember setID key = true))) :
    left.activeMembers ownerID setID = right.activeMembers ownerID setID := by
  apply insertionSort_select_eq (fun first second : PublicKeyID =>
    first ≤ second)
  intro key
  simp only [Bool.and_eq_true, decide_eq_true_eq]
  constructor
  · rintro ⟨stored, ⟨owned, member⟩, active⟩
    obtain ⟨kept, still⟩ := (same key owned active).mp ⟨stored, member⟩
    exact ⟨kept, ⟨owned, still⟩, active⟩
  · rintro ⟨stored, ⟨owned, member⟩, active⟩
    obtain ⟨kept, still⟩ := (same key owned active).mpr ⟨stored, member⟩
    exact ⟨kept, ⟨owned, still⟩, active⟩

namespace Agree

variable {service : PublishService} {name setName presented : GoString}
  {now : Int} {left right : Catalog} {handle : Handle}

variable (agree : Agree service name setName presented now left right)

include agree

theorem servedOwner (here : left.servedHandle name = some handle) :
    left.servedOwner handle.ownerID = right.servedOwner handle.ownerID := by
  obtain ⟨handleStored, named, active⟩ := mem_of_servedHandle here
  have same := agree.owners handle handleStored named active
  ext owner
  rw [servedOwner_iff, servedOwner_iff]
  constructor
  · rintro ⟨stored, ownerOf, standing⟩
    exact ⟨(same owner ownerOf standing).mp stored, ownerOf, standing⟩
  · rintro ⟨stored, ownerOf, standing⟩
    exact ⟨(same owner ownerOf standing).mpr stored, ownerOf, standing⟩

variable (leftIndexed : left.Indexed) (rightIndexed : right.Indexed)

include leftIndexed rightIndexed

theorem servedHandle : left.servedHandle name = right.servedHandle name := by
  ext handle
  rw [leftIndexed.servedHandle_iff, rightIndexed.servedHandle_iff]
  constructor
  · rintro ⟨stored, named, active⟩
    exact ⟨(agree.handles handle named active).mp stored, named, active⟩
  · rintro ⟨stored, named, active⟩
    exact ⟨(agree.handles handle named active).mpr stored, named, active⟩

theorem servedSet {owner : Owner} (here : left.servedHandle name = some handle)
    (standing : left.servedOwner handle.ownerID = some owner) :
    left.servedSet owner.id setName = right.servedSet owner.id setName := by
  obtain ⟨handleStored, named, active⟩ := mem_of_servedHandle here
  obtain ⟨ownerStored, ownerOf, good⟩ := mem_of_servedOwner standing
  have same := agree.keySets handle handleStored named active owner ownerStored ownerOf good
  ext set
  rw [leftIndexed.servedSet_iff, rightIndexed.servedSet_iff]
  constructor
  · rintro ⟨stored, owned, selected, live⟩
    exact ⟨(same set owned live selected).mp stored, owned, selected, live⟩
  · rintro ⟨stored, owned, selected, live⟩
    exact ⟨(same set owned live selected).mpr stored, owned, selected, live⟩

theorem alike : Program.Alike publishInterpreter (service.resolve name setName presented now) left
      (service.resolve name setName presented now) right := by
  apply PublishService.alike_resolve Iff.rfl
  · exact agree.servedHandle leftIndexed rightIndexed
  · intro handle here
    exact agree.servedOwner here
  · intro handle owner here standing
    have same := agree.servedSet leftIndexed rightIndexed here standing
    cases chosen : left.servedSet owner.id setName with
    | none => exact .inl ⟨rfl, same.symm.trans chosen⟩
    | some set =>
      refine .inr ⟨set, set, rfl, same.symm.trans chosen, ?_⟩
      have serves := serves_of_served here standing chosen
      apply PublishService.alike_serve rfl Iff.rfl
      · apply PublishService.shows_eq
        exact agree.accessKeys handle owner set serves
      · intro shown
        apply activeMembers_eq
        exact agree.members handle owner set serves shown

end Agree

/-- A public set is answered alike with every token. -/
theorem PublishService.resolve_public_alike {service : PublishService}
    {name setName presented other : GoString} {catalog : Catalog}
    (indexed : catalog.Indexed) {handle : Handle} {owner : Owner}
    {set : KeySet} (serves : catalog.Serves name setName handle owner set)
    (open' : set.visibility = .visibilityPublic) :
    Program.Alike publishInterpreter (service.resolve name setName presented now) catalog
      (service.resolve name setName other now) catalog := by
  obtain ⟨here, standing, chosen⟩ := indexed.served_of_serves serves
  apply PublishService.alike_resolve Iff.rfl rfl
  · intro found _
    rfl
  · intro found foundOwner foundHere foundStanding
    cases here.symm.trans foundHere
    cases standing.symm.trans foundStanding
    refine .inr ⟨set, set, chosen, chosen, ?_⟩
    unfold serve
    rw [resolveAccess_public open', resolveAccess_public open']
    exact fun faults => rfl

/-- The lines of exactly the active members of a set that its owner holds, in
the order of the keys' ids. -/
def Catalog.IsBody (catalog : Catalog) (ssh : Keys.SSH) (ownerID : OwnerID)
    (setID : KeySetID) (body : GoString) : Prop :=
  ∃ keys lines, keys.Pairwise (fun left right => left.id ≤ right.id) ∧ keys.Nodup ∧
    (∀ key, key ∈ keys ↔ key ∈ catalog.publicKeys ∧ key.ownerID = ownerID ∧
      key.status = .active ∧ ∃ member ∈ catalog.keySetMembers,
        member.keySetID = setID ∧ member.publicKeyID = key.id) ∧
    List.Forall₂ (IsLine ssh) keys lines ∧ body = lines.flatten

theorem Catalog.isBody_of_renderLines {catalog : Catalog} {ssh : Keys.SSH}
    {body : GoString} (rendered : renderLines ssh ownerID
      (catalog.activeMembers ownerID setID) = .ok body) :
    catalog.IsBody ssh ownerID setID body := by
  obtain ⟨_, lines, printing, whole⟩ := renderLines_eq_ok_iff.mp rendered
  exact ⟨catalog.activeMembers ownerID setID, lines, catalog.activeMembers_sorted ownerID setID,
    (List.perm_insertionSort _ _).nodup_iff.mpr (nodup_select _ _),
    fun key => mem_activeMembers, printing, whole⟩

/-- The answer to a request depends on the servable data alone: stores that
agree on it answer alike, a public set is answered alike with every token, and
a body is the lines of the active members of the set that is served.  This
holds whichever queries fail. -/
theorem resolve_noninterference (service : PublishService)
    (name setName : GoString) (now : Int) (faults : List Bool) :
    (∀ (presented : GoString) (left right : Catalog), left.Indexed →
      right.Indexed → Agree service name setName presented now left right →
      ((service.resolve name setName presented now).run publishInterpreter faults left).1 =
      ((service.resolve name setName presented now).run publishInterpreter faults right).1) ∧
    (∀ (catalog : Catalog) (handle : Handle) (owner : Owner) (set : KeySet),
      catalog.Indexed → catalog.Serves name setName handle owner set →
      set.visibility = .visibilityPublic → ∀ presented other : GoString,
      ((service.resolve name setName presented now).run publishInterpreter faults catalog).1 =
      ((service.resolve name setName other now).run publishInterpreter faults catalog).1) ∧
    (∀ (catalog : Catalog) (presented : GoString) (published : Published),
      ((service.resolve name setName presented now).run publishInterpreter
        faults catalog).1 = .ok published →
      ∃ handle owner set, catalog.Serves name setName handle owner set ∧
        catalog.IsBody service.ssh owner.id set.id published.body) := by
  refine ⟨?_, ?_, ?_⟩
  · intro presented left right leftIndexed rightIndexed agree
    exact agree.alike leftIndexed rightIndexed faults
  · intro catalog handle owner set indexed serves open' presented other
    exact PublishService.resolve_public_alike indexed serves open' faults
  · intro catalog presented published returned
    obtain ⟨_, bodies⟩ := (service.resolve_ensures name setName presented now).run faults
    obtain ⟨handle, owner, set, serves, _, rendered, _⟩ := bodies published returned
    exact ⟨handle, owner, set, serves, isBody_of_renderLines rendered⟩

namespace Sample

def publishService : PublishService := ⟨Keys.Sample.edLibrary, none⟩

def publicKey (id : String) (status : KeyStatus) : PublicKey where
  id := utf8 id
  ownerID := utf8 "olive"
  deviceID := utf8 "laptop"
  algorithm := utf8 "ssh-ed25519"
  blob := Keys.Sample.edHeader ++ List.replicate 32 7
  comment := utf8 "laptop"
  fingerprint := []
  bitLen := 256
  status := status
  createdAt := 0
  updatedAt := 0
  revokedAt := none

/-- A handle, and a public default set with one active key. -/
def servingCatalog : Catalog :=
  { catalog with
    handles := (empty.insert? {
      id := utf8 "h", ownerID := utf8 "olive", name := utf8 "olive",
      state := .active, quarantineUntil := none, flaggedForReview := false,
      quarantineOnRelease := false, createdAt := 0, updatedAt := 0,
      nameFold := utf8 "olive", foldVersion := 1 }).getD .empty
    keySets := catalog.keySets.update (fun _ => true)
      (fun set => { set with visibility := .visibilityPublic }) fun _ => rfl
    keySetMembers := (empty.insert? ⟨utf8 "work", utf8 "k1", 0⟩).getD .empty
    publicKeys := (empty.insert? (publicKey "k1" .active)).getD .empty }

/-- The same with a revoked key in the set. -/
def largerCatalog : Catalog :=
  { servingCatalog with
    keySetMembers := (servingCatalog.keySetMembers.insert? ⟨utf8 "work", utf8 "k0", 0⟩).getD .empty
    publicKeys := (servingCatalog.publicKeys.insert? (publicKey "k0" .revoked)).getD .empty }

theorem servingCatalog_indexed : servingCatalog.Indexed :=
  ⟨by decide +kernel, by decide +kernel⟩

theorem largerCatalog_indexed : largerCatalog.Indexed :=
  ⟨by decide +kernel, by decide +kernel⟩

theorem agree_largerCatalog (presented : GoString) :
    Agree publishService (utf8 "olive") [] presented 0 servingCatalog largerCatalog where
  handles := fun _ _ _ => Iff.rfl
  owners := fun _ _ _ _ _ _ _ => Iff.rfl
  keySets := fun _ _ _ _ _ _ _ _ _ _ _ _ => Iff.rfl
  accessKeys := fun _ _ _ _ _ _ _ => Iff.rfl
  members := by
    intro handle owner set serves shown key owned active
    have fewer : servingCatalog.publicKeys.rows = [publicKey "k1" .active] := rfl
    have more : largerCatalog.publicKeys.rows =
        [publicKey "k1" .active, publicKey "k0" .revoked] := rfl
    have different : key ≠ publicKey "k0" .revoked := by
      rintro rfl
      cases active
    have otherID : utf8 "k0" ≠ (publicKey "k1" .active).id := by decide +kernel
    have members : largerCatalog.keySetMembers.rows =
        servingCatalog.keySetMembers.rows ++ [⟨utf8 "work", utf8 "k0", 0⟩] :=
      rfl
    simp only [mem_iff, fewer, more, List.mem_cons, List.not_mem_nil, or_false, different]
    apply and_congr_right
    rintro rfl
    simp [isMember, members, otherID]

end Sample

open Sample in
/-- A revoked key in the set changes nothing, and no token does. -/
theorem resolve_noninterference_revoked :
    let resolve := fun (presented : GoString) (catalog : Catalog) =>
      ((publishService.resolve (utf8 "olive") [] presented 0).run publishInterpreter [] catalog).1
    resolve [] servingCatalog = resolve [] largerCatalog ∧
      resolve [] servingCatalog = resolve (utf8 "token") servingCatalog ∧
      (resolve [] servingCatalog).isOk = true ∧
      ∀ published, resolve [] servingCatalog = .ok published →
        ∃ handle owner set, servingCatalog.Serves (utf8 "olive") [] handle owner set ∧
          servingCatalog.IsBody Keys.Sample.edLibrary owner.id set.id published.body := by
  obtain ⟨agreeing, anyToken, bodies⟩ :=
    resolve_noninterference publishService (utf8 "olive") [] 0 []
  intro resolve
  have answered : (resolve [] servingCatalog).isOk = true := by decide +kernel
  obtain ⟨published, returned⟩ : ∃ published, resolve [] servingCatalog = .ok published := by
    cases result : resolve [] servingCatalog with
    | error failure =>
      rw [result] at answered
      cases answered
    | ok published => exact ⟨published, rfl⟩
  obtain ⟨handle, owner, set, serves, _⟩ := bodies servingCatalog [] published returned
  have open' : set.visibility = .visibilityPublic := by
    have everySet : ∀ set ∈ servingCatalog.keySets.rows,
        set.visibility = .visibilityPublic := by decide +kernel
    exact everySet set serves.setStored
  exact ⟨agreeing [] servingCatalog largerCatalog servingCatalog_indexed
      largerCatalog_indexed (agree_largerCatalog []),
    anyToken servingCatalog handle owner set servingCatalog_indexed serves
      open' [] (utf8 "token"), answered, bodies servingCatalog []⟩

/-! ## While access keys and names change -/

namespace AccessKeySystem

open Sample

end AccessKeySystem

namespace HandleSystem

/-- What is served under a name in quarantine are keys of the owner who vacated
it. -/
def KeepsNames (publish : PublishService) (service : HandleService)
    (system : HandleSystem) : Prop :=
  ∀ vacation ∈ system.vacations, system.clock < vacation.vacatedAt + service.quarantine →
    ∀ setName presented now faults published,
      ((publish.resolve vacation.name setName presented now).run publishInterpreter faults
        system.catalog).1 = .ok published →
      ∃ set ∈ system.catalog.keySets, set.ownerID = vacation.ownerID ∧
        system.catalog.IsBody publish.ssh vacation.ownerID set.id published.body

theorem quarantined_names_kept (publish : PublishService) {service : HandleService}
    {catalog : Catalog} (unique : catalog.handles.Unique Handle.clashes) (clock : Int)
    {system : HandleSystem} (runs : Runs service (fresh catalog clock) system) :
    system.KeepsNames publish service := by
  have sound : Sound service system := (sound_fresh unique clock).runs runs
  intro vacation vacated held setName presented now faults published served
  obtain ⟨_, answers⟩ := (publish.resolve_ensures vacation.name setName presented now).run faults
  obtain ⟨handle, owner, set, serves, _, rendered, _⟩ := answers published served
  obtain ⟨hold, kept, holds⟩ := sound.held vacation vacated held
  have same : handle = hold := by
    by_contra different
    have apart := sound.unique handle serves.handleStored hold kept fun sameID =>
      different (eq_of_key_eq serves.handleStored kept sameID)
    simp [Handle.clashes, serves.handleNamed, holds.name] at apart
  have owned : owner.id = vacation.ownerID := by rw [serves.ownerOf, same, holds.ownerID]
  rw [owned] at rendered
  exact ⟨set, serves.setStored, serves.setOf.trans owned, isBody_of_renderLines rendered⟩

open Sample

/-- The owner goes to another name and back. -/
theorem quarantined_names_kept_returned :
    let renamed := (fresh servingCatalog 0).rename handleService
      (renameCall "olive" "oak" 65 a_known 10) {}
    let returned := renamed.rename handleService (renameCall "olive" "olive" 66 b_known 20) {}
    ((publishService.resolve (utf8 "olive") [] [] 30).run publishInterpreter []
        returned.catalog).1.isOk = true ∧
      returned.KeepsNames publishService handleService := by
  refine ⟨by decide +kernel, ?_⟩
  exact quarantined_names_kept publishService (by decide +kernel) 0
    (.tail (.single (.rename _ {} (by decide) (by decide))) (.rename _ {} (by decide) (by decide)))

end HandleSystem

end Vallet.Publishing
