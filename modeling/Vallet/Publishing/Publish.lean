import Vallet.Keys.Canonical
import Vallet.Publishing.AccessKeys
import Vallet.Publishing.Handles
import Vallet.Publishing.KeySets

/-!
# Publishing

`Resolve` follows a handle to its owner, a name to one of the owner's sets,
checks the presented token if the set is protected, and renders the active
members.  Everything that is not served is answered alike.
-/

namespace Vallet.Publishing

open Auth Relational Effects Program AccessKeyService

/-! ## Queries -/

inductive PublishQuery : Type → Type where
  | selectHandle (name : GoString) : PublishQuery (Option Handle)
  | selectOwner (id : OwnerID) : PublishQuery (Option Owner)
  | selectDefault (ownerID : OwnerID) : PublishQuery (Option KeySet)
  | selectByName (ownerID : OwnerID) (name : GoString) : PublishQuery (Option KeySet)
  | selectActiveByKeySet (ownerID : OwnerID) (setID : KeySetID) : PublishQuery (List PublicKey)

namespace Catalog

def isNamed (ownerID : OwnerID) (name : GoString) (set : KeySet) : Bool :=
  decide (set.ownerID = ownerID) && decide (set.name = name)

def keySetNamed (catalog : Catalog) (ownerID : OwnerID) (name : GoString) : Option KeySet :=
  (catalog.keySets.select (isNamed ownerID name)).head?

/-- A key with a membership in the set. -/
def isMember (catalog : Catalog) (setID : KeySetID) (key : PublicKey) : Bool :=
  catalog.keySetMembers.rows.any fun member =>
    decide (member.publicKeyID = key.id) && decide (member.keySetID = setID)

/-- `JOIN key_set_members … WHERE pk.owner_id = ? AND m.key_set_id = ? AND
pk.status = 'active' ORDER BY pk.id`. -/
def activeMembers (catalog : Catalog) (ownerID : OwnerID) (setID : KeySetID) : List PublicKey :=
  (catalog.publicKeys.select fun key =>
    decide (key.ownerID = ownerID) && catalog.isMember setID key &&
      decide (key.status = .active)).insertionSort
    fun left right => left.id ≤ right.id

end Catalog

def PublishQuery.execute {β : Type} : PublishQuery β → Catalog → β × Catalog
  | .selectHandle name, catalog => (catalog.handleNamed name, catalog)
  | .selectOwner id, catalog => (catalog.owners.find? id, catalog)
  | .selectDefault ownerID, catalog => (catalog.defaultKeySet ownerID, catalog)
  | .selectByName ownerID name, catalog => (catalog.keySetNamed ownerID name, catalog)
  | .selectActiveByKeySet ownerID setID, catalog => (catalog.activeMembers ownerID setID, catalog)

/-- The queries of the publisher and the statements of the verifier. -/
abbrev PublishStatement := Either PublishQuery AccessKeyStatement

def publishInterpreter : Interpreter PublishStatement Catalog where
  execute
    | .left query, catalog => query.execute catalog
    | .right statement, catalog => statement.execute catalog

/-! ## The service -/

structure PublishService where
  ssh : Keys.SSH
  verifier : Option AccessKeyService

structure Published where
  body : GoString
  isProtected : Bool
deriving DecidableEq, Repr

def publishNotFound : Err := .of .publishNotFound

def notFoundOr (context : String) (failure : Err) : Err :=
  if failure.is .notFound then publishNotFound else failure.wrap context

/-- An error about one key that wraps nothing. -/
def keyComplaint (id : PublicKeyID) (complaint : String) : Err where
  contexts := [s!"publish: key \"{textOf id}\" {complaint}"]
  wraps := []

/-- The lines of the keys in turn. -/
def renderLines (ssh : Keys.SSH) (ownerID : OwnerID) : List PublicKey → Except Err GoString
  | [] => .ok []
  | key :: others =>
    if key.ownerID ≠ ownerID then
      .error (keyComplaint key.id "crosses owner boundary")
    else if key.status ≠ .active then
      .error (keyComplaint key.id "is not active")
    else
      match Keys.authorizedKeyLineFrom ssh key.algorithm key.blob key.comment with
      | .error failure => .error (failure.wrap s!"publish: render key \"{textOf key.id}\"")
      | .ok line =>
        match renderLines ssh ownerID others with
        | .error failure => .error failure
        | .ok following => .ok (line ++ following)

def render (ssh : Keys.SSH) (ownerID : OwnerID) (active : List PublicKey) : Except Err GoString :=
  renderLines ssh ownerID (active.insertionSort fun left right => left.id ≤ right.id)

/-- One lookup on the way: an error other than "not found" is wrapped, and a
row that is not served is answered like one that is not there. -/
def serving {α β : Type} (context : String) (served : α → Bool) (reply : Except Fault (Option α))
    (next : α → Program PublishStatement (Except Err β)) :
    Program PublishStatement (Except Err β) :=
  match singleRow reply with
  | .error failure => pure (.error (notFoundOr context failure))
  | .ok row => if served row = false then pure (.error publishNotFound) else next row

namespace PublishService

def resolveOwner (handle : GoString) : Program PublishStatement (Except Err OwnerID) := do
  serving "publish: get handle" (fun found => decide (found.state = .active))
    (← ask (.left (.selectHandle handle))) fun found => do
      serving "publish: get owner" Owner.inGoodStanding
        (← ask (.left (.selectOwner found.ownerID))) fun owner =>
          pure (.ok owner.id)

def resolveSet (ownerID : OwnerID) (name : GoString) :
    Program PublishStatement (Except Err KeySet) := do
  serving "publish: get key set" (fun set => decide (set.state = .active))
    (← ask (.left (if name = [] then .selectDefault ownerID
      else .selectByName ownerID name))) fun set => pure (.ok set)

def resolveAccess (service : PublishService) (ownerID : OwnerID)
    (set : KeySet) (presented : GoString) (now : Int) :
    Program PublishStatement (Except Err Bool) :=
  match set.visibility with
  | .visibilityPublic => pure (.ok false)
  | .visibilityProtected =>
    match service.verifier with
    | none => pure (.error publishNotFound)
    | some verifier => do
        match ← (verifier.verify ownerID set.id presented now).translate .right with
        | .error failure => pure (.error (notFoundOr "publish: verify access key" failure))
        | .ok _ => pure (.ok true)

/-- What is served once access is granted. -/
def listAndRender (service : PublishService) (ownerID : OwnerID)
    (set : KeySet) (isProtected : Bool) :
    Program PublishStatement (Except Err Published) := do
  match allRows (← ask (.left (.selectActiveByKeySet ownerID set.id))) with
  | .error failure => pure (.error (failure.wrap "publish: list active keys"))
  | .ok active =>
    match render service.ssh ownerID active with
    | .error failure => pure (.error failure)
    | .ok body => pure (.ok ⟨body, isProtected⟩)

/-- The last two steps of `Resolve`. -/
def serve (service : PublishService) (ownerID : OwnerID) (set : KeySet)
    (presented : GoString) (now : Int) :
    Program PublishStatement (Except Err Published) := do
  match ← service.resolveAccess ownerID set presented now with
  | .error failure => pure (.error failure)
  | .ok isProtected => service.listAndRender ownerID set isProtected

def resolve (service : PublishService) (handle setName presented : GoString)
    (now : Int) : Program PublishStatement (Except Err Published) :=
  if (validateHandle handle).toOption.isNone then
    pure (.error publishNotFound)
  else if setName ≠ [] ∧ (validateSetName setName).toOption.isNone then
    pure (.error publishNotFound)
  else do
    match ← resolveOwner handle with
    | .error failure => pure (.error failure)
    | .ok ownerID =>
      match ← resolveSet ownerID setName with
      | .error failure => pure (.error failure)
      | .ok set => service.serve ownerID set presented now

end PublishService

/-! ## What is served -/

namespace Catalog

/-- The row of an active handle. -/
def servedHandle (catalog : Catalog) (name : GoString) : Option Handle :=
  (catalog.handleNamed name).filter fun handle =>
    decide (handle.state = .active)

/-- The row of an owner in good standing. -/
def servedOwner (catalog : Catalog) (id : OwnerID) : Option Owner :=
  (catalog.owners.find? id).filter Owner.inGoodStanding

/-- The active set of the name, or the active default set. -/
def servedSet (catalog : Catalog) (ownerID : OwnerID) (name : GoString) : Option KeySet :=
  (if name = [] then catalog.defaultKeySet ownerID
    else catalog.keySetNamed ownerID name).filter fun set =>
      decide (set.state = .active)

/-- Whether a name, or its absence, selects a set. -/
def selects (name : GoString) (set : KeySet) : Bool :=
  if name = [] then set.isDefault else decide (set.name = name)

/-- The rows on the way from a handle to the set that is served. -/
structure Serves (catalog : Catalog) (name setName : GoString)
    (handle : Handle) (owner : Owner) (set : KeySet) : Prop where
  handleStored : handle ∈ catalog.handles
  handleNamed : handle.name = name
  handleActive : handle.state = .active
  ownerStored : owner ∈ catalog.owners
  ownerOf : owner.id = handle.ownerID
  ownerStanding : owner.inGoodStanding = true
  setStored : set ∈ catalog.keySets
  setOf : set.ownerID = owner.id
  setSelected : selects setName set = true
  setActive : set.state = .active

variable {catalog : Catalog} {name : GoString} {handle : Handle} {owner : Owner}

theorem mem_of_servedHandle (served : catalog.servedHandle name = some handle) :
    handle ∈ catalog.handles ∧ handle.name = name ∧ handle.state = .active := by
  obtain ⟨found, active⟩ := Option.filter_eq_some_iff.mp served
  obtain ⟨stored, named⟩ := Table.mem_of_head?_select found
  exact ⟨stored, by simpa using named, by simpa using active⟩

theorem mem_of_servedOwner {id : OwnerID} (served : catalog.servedOwner id = some owner) :
    owner ∈ catalog.owners ∧ owner.id = id ∧ owner.inGoodStanding = true := by
  obtain ⟨found, standing⟩ := Option.filter_eq_some_iff.mp served
  obtain ⟨stored, same⟩ := Table.find?_eq_some_iff.mp found
  exact ⟨stored, same, standing⟩

/-- One query for both ways to name a set. -/
theorem servedSet_eq (catalog : Catalog) (ownerID : OwnerID) (name : GoString) :
    catalog.servedSet ownerID name =
      (catalog.keySets.select fun set =>
        decide (set.ownerID = ownerID) && selects name set).head?.filter
          fun set => decide (set.state = .active) := by
  unfold servedSet defaultKeySet keySetNamed selects
  split
  · rfl
  · rfl

theorem mem_of_servedSet {ownerID : OwnerID} {set : KeySet}
    (served : catalog.servedSet ownerID name = some set) :
    set ∈ catalog.keySets ∧ set.ownerID = ownerID ∧
      selects name set = true ∧ set.state = .active := by
  rw [servedSet_eq] at served
  obtain ⟨found, active⟩ := Option.filter_eq_some_iff.mp served
  obtain ⟨stored, chosen⟩ := Table.mem_of_head?_select found
  simp only [Bool.and_eq_true, decide_eq_true_eq] at chosen active
  exact ⟨stored, chosen.1, chosen.2, active⟩

theorem serves_of_served {setName : GoString} {set : KeySet}
    (here : catalog.servedHandle name = some handle)
    (standing : catalog.servedOwner handle.ownerID = some owner)
    (chosen : catalog.servedSet owner.id setName = some set) :
    catalog.Serves name setName handle owner set := by
  obtain ⟨handleStored, handleNamed, handleActive⟩ := mem_of_servedHandle here
  obtain ⟨ownerStored, ownerOf, ownerStanding⟩ := mem_of_servedOwner standing
  obtain ⟨setStored, setOf, setSelected, setActive⟩ := mem_of_servedSet chosen
  exact ⟨handleStored, handleNamed, handleActive, ownerStored, ownerOf,
    ownerStanding, setStored, setOf, setSelected, setActive⟩

end Catalog

/-- The verifier's answer about a token, from the store alone. -/
def AccessKeyService.opens (verifier : AccessKeyService) (catalog : Catalog)
    (ownerID : OwnerID) (setID : KeySetID) (presented : GoString) (now : Int) : Bool :=
  decide (ownerID ≠ []) && decide (setID ≠ []) &&
    (parseToken presented).any fun token =>
      (catalog.findAccessKey ownerID token.1).any fun key =>
        (verifier.admits setID token.1 token.2 now key).toOption.isSome

/-- Whether the members of a set are shown to whoever presents the token. -/
def PublishService.shows (service : PublishService) (catalog : Catalog)
    (ownerID : OwnerID) (set : KeySet) (presented : GoString) (now : Int) : Bool :=
  match set.visibility with
  | .visibilityPublic => true
  | .visibilityProtected => service.verifier.any fun verifier =>
    verifier.opens catalog ownerID set.id presented now

variable {context : String} {ownerID : OwnerID} {setID : KeySetID}
  {verifier : AccessKeyService} {id : AccessKeyID} {secret : GoString}

/-- A lookup whose row is served goes on with it. -/
theorem serving_of_served {α β : Type} {served : α → Bool} {found : Option α}
    {row : α} (here : found.filter served = some row)
    (next : α → Program PublishStatement (Except Err β)) :
    serving context served (.ok found) next = next row := by
  obtain ⟨rfl, holds⟩ := Option.filter_eq_some_iff.mp here
  simp [serving, singleRow, holds]

theorem serving_of_unserved {α β : Type} {served : α → Bool} {found : Option α}
    (absent : found.filter served = none) (next : α → Program PublishStatement (Except Err β)) :
    serving context served (.ok found) next = pure (.error publishNotFound) := by
  cases found with
  | none => simp [serving, singleRow, notFoundOr]
  | some row =>
    have unserved : served row = false := by
      simpa using Option.filter_eq_none_iff.mp absent row rfl
    simp [serving, singleRow, unserved]

/-! ## Rendering -/

/-- The canonical line of a stored key. -/
def IsLine (ssh : Keys.SSH) (key : PublicKey) (line : GoString) : Prop :=
  Keys.authorizedKeyLineFrom ssh key.algorithm key.blob key.comment = .ok line

/-- The body is the lines of the keys in turn; keys that are not active or not
the owner's are not rendered. -/
theorem renderLines_eq_ok_iff {ssh : Keys.SSH} {keys : List PublicKey} {body : GoString} :
    renderLines ssh ownerID keys = .ok body ↔
      (∀ key ∈ keys, key.ownerID = ownerID ∧ key.status = .active) ∧
        ∃ lines, List.Forall₂ (IsLine ssh) keys lines ∧ body = lines.flatten := by
  induction keys generalizing body with
  | nil =>
    simp only [renderLines, List.not_mem_nil, IsEmpty.forall_iff,
      implies_true, true_and, List.forall₂_nil_left_iff, exists_eq_left,
      List.flatten_nil, Except.ok.injEq, eq_comm]
  | cons key others induction =>
    rw [renderLines, List.forall_mem_cons]
    split
    · rename_i foreign
      simp [foreign]
    · rename_i owned
      split
      · rename_i inactive
        simp [inactive]
      · rename_i active
        simp only [ne_eq, not_not] at owned active
        cases printed : Keys.authorizedKeyLineFrom ssh key.algorithm key.blob key.comment with
        | error failure =>
          simp only [reduceCtorEq, false_iff]
          rintro ⟨_, lines, printing, _⟩
          obtain ⟨line, _, isLine, _, _⟩ := List.forall₂_cons_left_iff.mp printing
          cases printed.symm.trans isLine
        | ok line =>
          constructor
          · intro rendered
            cases rest : renderLines ssh ownerID others with
            | error failure => simp [rest] at rendered
            | ok following =>
              obtain ⟨sound, lines, printing, rfl⟩ := induction.mp rest
              simp only [rest, Except.ok.injEq] at rendered
              refine ⟨⟨⟨owned, active⟩, sound⟩, line :: lines, .cons printed printing, ?_⟩
              rw [← rendered, List.flatten_cons]
          · rintro ⟨⟨_, sound⟩, lines, printing, rfl⟩
            obtain ⟨first, rest, isLine, others, rfl⟩ := List.forall₂_cons_left_iff.mp printing
            have same : line = first := by
              simpa using printed.symm.trans isLine
            rw [induction.mpr ⟨sound, rest, others, rfl⟩, same]
            simp

theorem Catalog.activeMembers_sorted (catalog : Catalog) (ownerID : OwnerID) (setID : KeySetID) :
    (catalog.activeMembers ownerID setID).Pairwise
      fun left right => left.id ≤ right.id := by
  have total : Std.Total fun left right : PublicKey => left.id ≤ right.id :=
    ⟨fun left right => Std.Total.total left.id right.id⟩
  have transitive : IsTrans PublicKey fun left right => left.id ≤ right.id :=
    ⟨fun first second third => IsTrans.trans first.id second.id third.id⟩
  exact List.pairwise_insertionSort _ _

theorem Catalog.mem_activeMembers {catalog : Catalog} {key : PublicKey} :
    key ∈ catalog.activeMembers ownerID setID ↔
      key ∈ catalog.publicKeys ∧ key.ownerID = ownerID ∧
        key.status = .active ∧ ∃ member ∈ catalog.keySetMembers,
          member.keySetID = setID ∧ member.publicKeyID = key.id := by
  simp only [activeMembers, List.mem_insertionSort, Table.mem_select,
    Bool.and_eq_true, decide_eq_true_eq, isMember, List.any_eq_true, Table.mem_iff]
  constructor
  · rintro ⟨stored, ⟨owned, member, listed, sameKey, sameSet⟩, active⟩
    exact ⟨stored, owned, active, member, listed, sameSet, sameKey⟩
  · rintro ⟨stored, owned, active, member, listed, sameSet, sameKey⟩
    exact ⟨stored, ⟨owned, member, listed, sameKey, sameSet⟩, active⟩

theorem render_activeMembers (ssh : Keys.SSH) (catalog : Catalog)
    (ownerID : OwnerID) (setID : KeySetID) :
    render ssh ownerID (catalog.activeMembers ownerID setID) =
      renderLines ssh ownerID (catalog.activeMembers ownerID setID) := by
  rw [render, (catalog.activeMembers_sorted ownerID setID).insertionSort_eq]

/-! ## Access -/

/-- What the verifier makes of the reply to its one query. -/
def AccessKeyService.judge (verifier : AccessKeyService) (setID : KeySetID)
    (id : AccessKeyID) (secret : GoString) (now : Int)
    (reply : Except Fault (Option AccessKey)) : Except Err AccessKey :=
  match singleRow reply with
  | .error failure => .error (hideNotFound failure)
  | .ok key => verifier.admits setID id secret now key

theorem AccessKeyService.verify_eq {presented : GoString} {now : Int}
    (filled : ¬ (ownerID = [] ∨ setID = [])) (parsed : parseToken presented = some (id, secret)) :
    verifier.verify ownerID setID presented now =
      ask (.selectKey ownerID id) >>= fun reply =>
        pure (verifier.judge setID id secret now reply) := by
  rw [verify, if_neg filled, parsed]
  change Program.issue _ _ = Program.issue _ _
  congr 1
  funext reply
  rcases reply with fault | (_ | key)
  all_goals rfl

/-- How `resolveAccess` reports the verifier's answer. -/
def reportAccess : Except Err AccessKey → Except Err Bool
  | .error failure => .error (notFoundOr "publish: verify access key" failure)
  | .ok _ => .ok true

/-- Every refusal is answered alike. -/
theorem reportAccess_judge {now : Int} (found : Option AccessKey) :
    reportAccess (verifier.judge setID id secret now (.ok found)) =
      if found.any fun key =>
          (verifier.admits setID id secret now key).toOption.isSome then
        .ok true
      else .error publishNotFound := by
  cases found with
  | none => rfl
  | some key =>
    simp only [judge, singleRow, Option.any_some, admits]
    split
    · rfl
    split
    · rfl
    · split
      all_goals rfl

namespace PublishService

variable {service : PublishService} {ownerID : OwnerID} {set : KeySet}
  {presented : GoString} {now : Int}

theorem resolveAccess_public (open' : set.visibility = .visibilityPublic) :
    service.resolveAccess ownerID set presented now = pure (.ok false) := by
  rw [resolveAccess, open']

/-- Without a query: no verifier, no names, or no token. -/
theorem resolveAccess_refused (closed : set.visibility = .visibilityProtected)
    (refused : service.verifier = none ∨ ownerID = [] ∨ set.id = [] ∨ parseToken presented = none) :
    service.resolveAccess ownerID set presented now = pure (.error publishNotFound) := by
  unfold resolveAccess
  rw [closed]
  cases present : service.verifier with
  | none => rfl
  | some verifier =>
    rcases refused with absent | noOwner | noSet | noToken
    · cases present.symm.trans absent
    · simp only [AccessKeyService.verify, if_pos (Or.inl noOwner)]
      rfl
    · simp only [AccessKeyService.verify, if_pos (Or.inr noSet)]
      rfl
    · simp only [AccessKeyService.verify, noToken]
      split
      all_goals rfl

theorem resolveAccess_asked {verifier : AccessKeyService} {id : AccessKeyID}
    {secret : GoString} (closed : set.visibility = .visibilityProtected)
    (present : service.verifier = some verifier) (filled : ¬ (ownerID = [] ∨ set.id = []))
    (parsed : parseToken presented = some (id, secret)) :
    service.resolveAccess ownerID set presented now =
      .issue (.right (.selectKey ownerID id)) fun reply =>
        pure (reportAccess (verifier.judge set.id id secret now reply)) := by
  unfold resolveAccess
  rw [closed, present]
  simp only [verify_eq filled parsed]
  change Program.issue _ _ = Program.issue _ _
  congr 1
  funext reply
  change (match verifier.judge set.id id secret now reply with
    | .error failure => _ | .ok key => _) = _
  cases verifier.judge set.id id secret now reply with
  | error | ok => rfl

theorem execute_selectSet (ownerID : OwnerID) (name : GoString) (catalog : Catalog) :
    publishInterpreter.execute (.left (if name = [] then .selectDefault ownerID
        else .selectByName ownerID name)) catalog =
      (if name = [] then catalog.defaultKeySet ownerID
        else catalog.keySetNamed ownerID name, catalog) := by
  split
  · rfl
  · rfl

/-- What a run returns from the rows of the last query. -/
def finish (service : PublishService) (ownerID : OwnerID) (isProtected : Bool)
    (active : List PublicKey) : Except Err Published :=
  match render service.ssh ownerID active with
  | .error failure => .error failure
  | .ok body => .ok ⟨body, isProtected⟩

theorem listAndRender_eq (service : PublishService) (ownerID : OwnerID)
    (set : KeySet) (isProtected : Bool) :
    service.listAndRender ownerID set isProtected =
      .issue (.left (.selectActiveByKeySet ownerID set.id)) fun reply =>
        pure (match reply with
          | .error _ => .error (driverFault.wrap "publish: list active keys")
          | .ok active => service.finish ownerID isProtected active) := by
  change Program.issue _ _ = Program.issue _ _
  congr 1
  funext reply
  cases reply with
  | error fault => rfl
  | ok active =>
    change (match render service.ssh ownerID active with
      | .error failure => _ | .ok body => _) = pure (service.finish ownerID isProtected active)
    unfold finish
    cases render service.ssh ownerID active with
    | error | ok => rfl

theorem finish_eq_ok {isProtected : Bool} {active : List PublicKey} {published : Published}
    (finished : service.finish ownerID isProtected active = .ok published) :
    ∃ body, render service.ssh ownerID active = .ok body ∧ published = ⟨body, isProtected⟩ := by
  unfold finish at finished
  cases rendered : render service.ssh ownerID active with
  | error failure => simp [rendered] at finished
  | ok body =>
    simp only [rendered, Except.ok.injEq] at finished
    exact ⟨body, rfl, finished.symm⟩

section OneRun

variable {catalog : Catalog} {γ δ : Type}

theorem ensures_serving {asked : PublishStatement (Option γ)}
    {found : Option γ} {context : String} {served : γ → Bool}
    {next : γ → Program PublishStatement (Except Err δ)} {post : Except Err δ → Catalog → Prop}
    (answer : publishInterpreter.execute asked catalog = (found, catalog))
    (failed : ∀ failure, post (.error failure) catalog)
    (here : ∀ row, found.filter served = some row →
      (next row).Ensures publishInterpreter post catalog) :
    (ask asked >>= fun reply =>
      serving context served reply next).Ensures publishInterpreter post catalog := by
  apply ensures_issue.mpr
  constructor
  · exact failed _
  rw [answer]
  change (serving context served (.ok found) next).Ensures _ _ _
  cases row : found.filter served with
  | none =>
    rw [serving_of_unserved row]
    exact failed _
  | some row' =>
    rw [serving_of_served row]
    exact here row' row

theorem resolveAccess_ensures (service : PublishService) (ownerID : OwnerID)
    (set : KeySet) (presented : GoString) (now : Int) :
    (service.resolveAccess ownerID set presented now).Ensures
      publishInterpreter (fun result final => final = catalog ∧
        ∀ isProtected, result = .ok isProtected →
          service.shows catalog ownerID set presented now = true ∧
            isProtected = decide (set.visibility = .visibilityProtected))
      catalog := by
  cases seen : set.visibility with
  | visibilityPublic =>
    rw [resolveAccess_public seen]
    refine ⟨rfl, fun isProtected granted => ?_⟩
    cases granted
    simp [shows, seen]
  | visibilityProtected =>
    by_cases refused : service.verifier = none ∨ ownerID = [] ∨
        set.id = [] ∨ parseToken presented = none
    · rw [resolveAccess_refused seen refused]
      exact ⟨rfl, by simp⟩
    · simp only [not_or] at refused
      obtain ⟨some', owned, filled, token⟩ := refused
      obtain ⟨verifier, present⟩ := Option.ne_none_iff_exists'.mp some'
      obtain ⟨⟨id, secret⟩, parsed⟩ := Option.ne_none_iff_exists'.mp token
      rw [resolveAccess_asked seen present (by simp [owned, filled]) parsed]
      apply ensures_issue.mpr
      constructor
      · exact ⟨rfl, by simp [judge, singleRow, reportAccess]⟩
      refine ⟨rfl, ?_⟩
      change ∀ isProtected, reportAccess (verifier.judge set.id id secret
        now (.ok (catalog.findAccessKey ownerID id))) = .ok isProtected → _
      rw [reportAccess_judge]
      intro isProtected granted
      split at granted
      · rename_i admitted
        cases granted
        simp [shows, seen, present, opens, owned, filled, parsed, admitted]
      · cases granted

/-- A body is the lines of the active members of the set that is served. -/
theorem resolve_ensures (service : PublishService)
    (handle setName presented : GoString) (now : Int) :
    (service.resolve handle setName presented now).Ensures publishInterpreter
      (fun result final => final = catalog ∧
        ∀ published, result = .ok published →
          ∃ found owner set, catalog.Serves handle setName found owner set ∧
            service.shows catalog owner.id set presented now = true ∧
            renderLines service.ssh owner.id
              (catalog.activeMembers owner.id set.id) = .ok published.body ∧
            published.isProtected = decide (set.visibility = .visibilityProtected)) catalog := by
  unfold resolve
  split
  · exact ⟨rfl, by simp⟩
  split
  · exact ⟨rfl, by simp⟩
  rw [ensures_bind]
  refine ensures_serving rfl (fun failure => ⟨rfl, by simp⟩) ?_
  intro found here
  refine ensures_serving rfl (fun failure => ⟨rfl, by simp⟩) ?_
  intro owner standing
  change Ensures _ _ (resolveSet owner.id setName >>= _) _
  rw [ensures_bind]
  refine ensures_serving (execute_selectSet owner.id setName catalog)
    (fun failure => ⟨rfl, by simp⟩) ?_
  intro set chosen
  change (service.serve owner.id set presented now).Ensures _ _ _
  apply Ensures.bind (service.resolveAccess_ensures owner.id set presented now)
  rintro access _ ⟨rfl, granted⟩
  cases access with
  | error failure => exact ⟨rfl, by simp⟩
  | ok isProtected =>
    obtain ⟨shown, rfl⟩ := granted isProtected rfl
    change (service.listAndRender owner.id set _).Ensures _ _ _
    rw [listAndRender_eq]
    apply ensures_issue.mpr
    constructor
    · exact ⟨rfl, by simp⟩
    refine ⟨rfl, ?_⟩
    intro published finished
    obtain ⟨body, rendered, rfl⟩ := finish_eq_ok finished
    exact ⟨found, owner, set, Catalog.serves_of_served here standing chosen,
      shown, by rwa [← render_activeMembers], rfl⟩

end OneRun

section TwoRuns

variable {α β γ : Type} {left right : Catalog} {service : PublishService}
  {ownerID : OwnerID} {set otherSet : KeySet} {presented : GoString} {now : Int}

/-- Two lookups go on alike when both find nothing to serve, or rows with
which they go on alike. -/
theorem alike_serving {asked other : PublishStatement (Option α)}
    {first second : Option α} {context : String} {served : α → Bool}
    {next otherNext : α → Program PublishStatement (Except Err γ)}
    {rest otherRest : Except Err γ → Program PublishStatement β}
    (answer : publishInterpreter.execute asked left = (first, left))
    (otherAnswer : publishInterpreter.execute other right = (second, right))
    (failed : ∀ failure, Alike publishInterpreter
      (rest (.error failure)) left (otherRest (.error failure)) right)
    (found : (first.filter served = none ∧ second.filter served = none) ∨
      ∃ row otherRow, first.filter served = some row ∧ second.filter served = some otherRow ∧
        Alike publishInterpreter (next row >>= rest) left
          (otherNext otherRow >>= otherRest) right) :
    Alike publishInterpreter
      ((ask asked >>= fun reply =>
        serving context served reply next) >>= rest) left
      ((ask other >>= fun reply =>
        serving context served reply otherNext) >>= otherRest) right := by
  apply alike_issue
  · exact failed _
  rw [answer, otherAnswer]
  rcases found with ⟨none, otherNone⟩ | ⟨row, otherRow, here, there, alike⟩
  · change Alike _ (serving context served (.ok first) next >>= rest)
      left (serving context served (.ok second) otherNext >>= otherRest) right
    rw [serving_of_unserved none, serving_of_unserved otherNone]
    exact failed _
  · change Alike _ (serving context served (.ok first) next >>= rest)
      left (serving context served (.ok second) otherNext >>= otherRest) right
    rw [serving_of_served here, serving_of_served there]
    exact alike

theorem alike_resolveAccess {rest otherRest : Except Err Bool → Program PublishStatement β}
    (visibility : set.visibility = otherSet.visibility) (named : set.id = [] ↔ otherSet.id = [])
    (shown : service.shows left ownerID set presented now =
      service.shows right ownerID otherSet presented now)
    (failed : ∀ failure, Alike publishInterpreter
      (rest (.error failure)) left (otherRest (.error failure)) right)
    (granted : service.shows left ownerID set presented now = true →
      ∀ isProtected, Alike publishInterpreter
        (rest (.ok isProtected)) left (otherRest (.ok isProtected)) right) :
    Alike publishInterpreter (service.resolveAccess ownerID set presented now >>= rest) left
      (service.resolveAccess ownerID otherSet presented now >>= otherRest)
      right := by
  cases seen : set.visibility with
  | visibilityPublic =>
    have otherSeen := visibility.symm.trans seen
    rw [resolveAccess_public seen, resolveAccess_public otherSeen]
    exact granted (by simp [shows, seen]) false
  | visibilityProtected =>
    have otherSeen := visibility.symm.trans seen
    by_cases refused : service.verifier = none ∨ ownerID = [] ∨
        set.id = [] ∨ parseToken presented = none
    · have otherRefused : service.verifier = none ∨ ownerID = [] ∨
          otherSet.id = [] ∨ parseToken presented = none := by
        rwa [← named]
      rw [resolveAccess_refused seen refused, resolveAccess_refused otherSeen otherRefused]
      exact failed _
    · simp only [not_or] at refused
      obtain ⟨some', owned, filled, token⟩ := refused
      obtain ⟨verifier, present⟩ := Option.ne_none_iff_exists'.mp some'
      obtain ⟨⟨id, secret⟩, parsed⟩ := Option.ne_none_iff_exists'.mp token
      have otherFilled : otherSet.id ≠ [] := fun empty =>
        filled (named.mpr empty)
      simp only [shows, seen, otherSeen, present, Option.any_some,
        opens, parsed, owned, filled, otherFilled, ne_eq,
        not_false_eq_true, decide_true, Bool.true_and] at shown granted
      rw [resolveAccess_asked seen present (by simp [owned, filled]) parsed,
        resolveAccess_asked otherSeen present (by simp [owned, otherFilled]) parsed]
      apply alike_issue
      · exact failed _
      change Alike _ (rest (reportAccess (verifier.judge set.id id
        secret now (.ok (left.findAccessKey ownerID id))))) left
        (otherRest (reportAccess (verifier.judge otherSet.id id secret now
          (.ok (right.findAccessKey ownerID id))))) right
      rw [reportAccess_judge, reportAccess_judge, ← shown]
      split
      · rename_i admitted
        exact granted admitted true
      · exact failed _

theorem alike_listAndRender {isProtected : Bool} (members : left.activeMembers ownerID set.id =
      right.activeMembers ownerID otherSet.id) :
    Alike publishInterpreter (service.listAndRender ownerID set isProtected) left
      (service.listAndRender ownerID otherSet isProtected) right := by
  rw [listAndRender_eq, listAndRender_eq]
  apply alike_issue
  · exact alike_pure _ _ _
  intro faults
  change service.finish ownerID isProtected (left.activeMembers ownerID set.id) =
    service.finish ownerID isProtected (right.activeMembers ownerID otherSet.id)
  rw [members]

/-- Access and rendering, for two sets that are shown alike. -/
theorem alike_serve (visibility : set.visibility = otherSet.visibility)
    (named : set.id = [] ↔ otherSet.id = []) (shown : service.shows left ownerID set presented now =
      service.shows right ownerID otherSet presented now)
    (members : service.shows left ownerID set presented now = true →
      left.activeMembers ownerID set.id = right.activeMembers ownerID otherSet.id) :
    Alike publishInterpreter (service.serve ownerID set presented now) left
      (service.serve ownerID otherSet presented now) right := by
  refine alike_resolveAccess visibility named shown ?_ ?_
  · intro failure
    exact alike_pure _ _ _
  · intro granted isProtected
    exact alike_listAndRender (members granted)

/-- Two runs that follow the same handle to the same owner answer alike when
what they serve of the owner's sets is alike. -/
theorem alike_resolve {handle setName otherName otherPresented : GoString}
    (wellFormed : (setName ≠ [] ∧ (validateSetName setName).toOption.isNone) ↔
      (otherName ≠ [] ∧ (validateSetName otherName).toOption.isNone))
    (handles : left.servedHandle handle = right.servedHandle handle)
    (owners : ∀ found, left.servedHandle handle = some found →
      left.servedOwner found.ownerID = right.servedOwner found.ownerID)
    (sets : ∀ found owner, left.servedHandle handle = some found →
      left.servedOwner found.ownerID = some owner →
      (left.servedSet owner.id setName = none ∧ right.servedSet owner.id otherName = none) ∨
      ∃ set otherSet, left.servedSet owner.id setName = some set ∧
        right.servedSet owner.id otherName = some otherSet ∧
        Alike publishInterpreter (service.serve owner.id set presented now) left
          (service.serve owner.id otherSet otherPresented now) right) :
    Alike publishInterpreter (service.resolve handle setName presented now) left
      (service.resolve handle otherName otherPresented now) right := by
  have failed : ∀ failure : Err, Alike publishInterpreter
      (pure (.error failure) : Program PublishStatement (Except Err Published))
      left (pure (.error failure)) right := fun failure =>
    alike_pure _ _ _
  unfold resolve
  simp only [wellFormed]
  split
  · exact failed _
  split
  · exact failed _
  refine alike_serving rfl rfl (fun failure => failed failure) ?_
  cases here : left.servedHandle handle with
  | none => exact .inl ⟨here, handles.symm.trans here⟩
  | some found =>
    refine .inr ⟨found, found, here, handles.symm.trans here, ?_⟩
    refine alike_serving rfl rfl (fun failure => failed failure) ?_
    have same := owners found here
    cases standing : left.servedOwner found.ownerID with
    | none => exact .inl ⟨standing, same.symm.trans standing⟩
    | some owner =>
      refine .inr ⟨owner, owner, standing, same.symm.trans standing, ?_⟩
      exact alike_serving (execute_selectSet owner.id setName left)
        (execute_selectSet owner.id otherName right)
        (fun failure => failed failure) (sets found owner here standing)

end TwoRuns

end PublishService

end Vallet.Publishing
