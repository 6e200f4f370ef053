import Vallet.Auth.TokenService

/-!
# Authorizing a request

The guard verifies a bearer token, consults the denylist, and then compares
the grant of the token with what the request tries to do: first the owner the
request names, then the scopes.
-/

namespace Vallet.Auth

open Counter

inductive ResourceKind where
  | none
  | keySet
  | device
  | unknown (text : String)
deriving DecidableEq, Repr

def ResourceKind.isValid : ResourceKind → Bool
  | .unknown _ => false
  | _ => true

def ResourceKind.text : ResourceKind → String
  | .none => ""
  | .keySet => "key-set"
  | .device => "device"
  | .unknown text => text

/-- What a request is trying to do. -/
structure Access where
  owner : OwnerID := []
  resource : ResourceKind := .none
  resourceID : GoString := []
  mutating : Bool := false
deriving DecidableEq, Repr

def Access.validate (access : Access) : Except Err Unit :=
  if !access.resource.isValid then
    .error (.errorf ("auth: unknown resource kind \"" ++
      access.resource.text ++ "\"") .invalidInput)
  else if decide (access.resource = .none) != access.resourceID.isEmpty then
    .error (.errorf "auth: resource kind and id must be set together" .invalidInput)
  else
    .ok ()

structure Authorization where
  owner : OwnerID
  tokenID : GoString
  credential : RefreshCredentialID
  scopes : List Scope
deriving DecidableEq, Repr

/-- The rule the resource-bound kinds share. -/
def boundScopePermits (scope : Scope) (access : Access) (want : ResourceKind) : Bool :=
  if access.resource ≠ want || access.resourceID.isEmpty ||
      scope.resourceID.isEmpty then
    false
  else
    decide (scope.resourceID = access.resourceID)

def scopePermits (scope : Scope) (access : Access) : Bool :=
  match scope.kind with
  | .fullOwner => true
  | .singleSet => boundScopePermits scope access .keySet
  | .singleDevice => boundScopePermits scope access .device
  | _ => false

def permitsAccess (scopes : List Scope) (access : Access) : Bool :=
  let readOnly := scopes.any fun scope => decide (scope.kind = .readOnly)
  let grants := scopes.filter fun scope => decide (scope.kind ≠ .readOnly)
  if readOnly && access.mutating then false
  else if readOnly && grants.isEmpty then true
  else grants.any fun scope => scopePermits scope access

namespace Guard

variable {σ : Type} [CounterStore σ]

/-- Revocation first, then the owner boundary, then the scopes. -/
def decide (store : σ) (call : StoreCall) (token : AccessToken)
    (access : Access) : Except Err Unit × σ :=
  if token.ownerID.isEmpty then (.error .authFailed, store)
  else
    match Denylist.check store call (some token) with
    | (.error _, after) => (.error .authFailed, after)
    | (.ok _, after) =>
      if !access.owner.isEmpty && access.owner != token.ownerID then
        (.error (.of .forbidden), after)
      else if !permitsAccess token.scopes access then
        (.error (.of .forbidden), after)
      else
        (.ok (), after)

def authorize (signer : AccessTokenSigner) (store : σ) (call : StoreCall)
    (presented : GoString) (access : Access) (now : Int) : Except Err Authorization × σ :=
  match access.validate with
  | .error _ => (.error .authFailed, store)
  | .ok () =>
    match signer.verify presented now with
    | .error _ => (.error .authFailed, store)
    | .ok token =>
      match decide store call token access with
      | (.error failure, after) => (.error failure, after)
      | (.ok _, after) =>
        (.ok {
          owner := token.ownerID
          tokenID := token.id
          credential := token.refreshCredentialID
          scopes := token.scopes }, after)

/-- An authorization names the credential its token was minted from. -/
theorem authorize_ok {signer : AccessTokenSigner} {store after : σ}
    {call : StoreCall} {presented : GoString} {access : Access} {now : Int}
    {authorization : Authorization} (authorized : authorize signer store call presented access now =
      (.ok authorization, after)) :
    ∃ token, signer.verify presented now = .ok token ∧
      authorization.credential = token.refreshCredentialID := by
  unfold authorize at authorized
  split at authorized
  · cases authorized
  split at authorized
  · cases authorized
  rename_i token verified
  split at authorized
  · cases authorized
  · cases authorized
    exact ⟨token, verified, rfl⟩

end Guard

section Scopes

variable {scopes : List Scope} {access : Access}

/-- The kind of resource that a scope kind binds a token to. -/
def boundResource : ScopeKind → ResourceKind
  | .singleSet => .keySet
  | .singleDevice => .device
  | _ => .none

/-- What a scope set is meant to permit: everything, every read, or the one
resource it binds, and of that only reads under the modifier. -/
def Grants (scopes : List Scope) (access : Access) : Prop :=
  scopes = [⟨.fullOwner, []⟩] ∨ scopes = [⟨.readOnly, []⟩] ∧ access.mutating = false ∨
    ∃ binding, scopes.filter (·.kind.bindsResource) = [binding] ∧
      access.resource = boundResource binding.kind ∧ access.resourceID = binding.resourceID ∧
      ((∃ scope ∈ scopes, scope.kind = .readOnly) → access.mutating = false)

theorem scopePermits_iff {scope : Scope} (formed : scope.validate = .ok ()) :
    scopePermits scope access = true ↔ scope = ⟨.fullOwner, []⟩ ∨
      scope.kind.bindsResource ∧ access.resource = boundResource scope.kind ∧
        access.resourceID = scope.resourceID := by
  obtain ⟨kind, id⟩ := scope
  cases kind
  all_goals
    simp [scopePermits, Scope.validate, ScopeKind.bindsResource, ScopeKind.isValid,
      boundScopePermits, boundResource] at formed ⊢
  all_goals grind

theorem permitsAccess_eq_true : permitsAccess scopes access = true ↔
    ((∃ scope ∈ scopes, scope.kind = .readOnly) → access.mutating = false) ∧
      ((∃ scope ∈ scopes, scope.kind = .readOnly) ∧ (∀ scope ∈ scopes, scope.kind = .readOnly) ∨
        ∃ scope ∈ scopes, scope.kind ≠ .readOnly ∧ scopePermits scope access = true) := by
  have reads : (scopes.any fun scope => decide (scope.kind = .readOnly)) = true ↔
      ∃ scope ∈ scopes, scope.kind = .readOnly := by simp
  have bare : (scopes.filter fun scope => decide (scope.kind ≠ .readOnly)).isEmpty = true ↔
      ∀ scope ∈ scopes, scope.kind = .readOnly := by simp
  have granted : ((scopes.filter fun scope => decide (scope.kind ≠ .readOnly)).any
      fun scope => scopePermits scope access) = true ↔
        ∃ scope ∈ scopes, scope.kind ≠ .readOnly ∧ scopePermits scope access = true := by simp
  unfold permitsAccess
  rw [← reads, ← bare, ← granted]
  grind

theorem permitsAccess_iff (valid : validateScopes scopes = .ok ()) :
    permitsAccess scopes access = true ↔ Grants scopes access := by
  obtain ⟨filled, formed, distinct, single⟩ := validateScopes_ok valid
  rw [permitsAccess_eq_true]
  constructor
  · rintro ⟨still, ⟨-, bare⟩ | ⟨scope, member, -, permitted⟩⟩
    · have same : ∀ scope ∈ scopes, scope = ⟨.readOnly, []⟩ := by
        rintro ⟨kind, id⟩ member
        obtain rfl : kind = .readOnly := bare _ member
        simpa [Scope.validate, ScopeKind.bindsResource, ScopeKind.isValid] using (formed _ member).1
      obtain ⟨scope, member⟩ := List.exists_mem_of_ne_nil _ filled
      have whole := List.eq_replicate_of_mem same
      rw [whole, List.nodup_replicate] at distinct
      rw [Nat.le_antisymm distinct (List.length_pos_of_mem member)] at whole
      exact .inr (.inl ⟨whole, still ⟨scope, member, bare scope member⟩⟩)
    · rcases (scopePermits_iff (formed scope member).1).mp permitted with
        rfl | ⟨binds, sameKind, sameID⟩
      · obtain ⟨only, rfl⟩ := List.length_eq_one_iff.mp (Nat.le_antisymm
          ((formed _ member).2 rfl) (List.length_pos_of_mem member))
        exact .inl (by rw [List.mem_singleton.mp member])
      · have listed : scope ∈ scopes.filter (·.kind.bindsResource) :=
          List.mem_filter.mpr ⟨member, binds⟩
        obtain ⟨only, whole⟩ := List.length_eq_one_iff.mp (Nat.le_antisymm
          single (List.length_pos_of_mem listed))
        rw [whole, List.mem_singleton] at listed
        exact .inr (.inr ⟨scope, by rw [whole, listed], sameKind, sameID, still⟩)
  · rintro (rfl | ⟨rfl, still⟩ | ⟨binding, whole, sameKind, sameID, still⟩)
    · simp [scopePermits]
    · simp [still]
    · obtain ⟨member, binds⟩ : binding ∈ scopes ∧ binding.kind.bindsResource = true :=
        List.mem_filter.mp (whole ▸ List.mem_singleton_self binding)
      refine ⟨still, .inr ⟨binding, member, ?_, ?_⟩⟩
      · rintro same
        rw [same] at binds
        cases binds
      · exact (scopePermits_iff (formed binding member).1).mpr
          (.inr ⟨binds, sameKind, sameID⟩)

end Scopes

theorem Guard.decide_owner {σ : Type} [CounterStore σ] {store : σ} {call : StoreCall}
    {token : AccessToken} {access : Access} (named : access.owner ≠ [])
    (permitted : (Guard.decide store call token access).1 = .ok ()) :
    access.owner = token.ownerID := by
  unfold Guard.decide at permitted
  split at permitted
  · cases permitted
  split at permitted
  · cases permitted
  split at permitted
  · cases permitted
  · rename_i own
    simpa [named] using own

/-- An accepted scope set permits what it is meant to, whatever its order; the
modifier takes authority away, and no token reaches another owner. -/
theorem accepted_scopes_permit_iff {scopes : List Scope} (valid : validateScopes scopes = .ok ()) :
    (∀ access, permitsAccess scopes access = true ↔ Grants scopes access) ∧
    (∀ access reordered, scopes.Perm reordered →
      permitsAccess reordered access = permitsAccess scopes access) ∧
    (∀ access extended, (⟨.readOnly, []⟩ :: scopes).Perm extended →
      validateScopes extended = .ok () → permitsAccess extended access = true →
      permitsAccess scopes access = true) ∧
    ∀ (σ : Type) [CounterStore σ] (store : σ) call (token : AccessToken) access,
      (Guard.decide store call token access).1 = .ok () →
      access.owner = [] ∨ access.owner = token.ownerID := by
  refine ⟨fun access => permitsAccess_iff valid, fun access reordered order => ?_,
    fun access extended order _ permitted => ?_, fun σ _ store call token access permitted => ?_⟩
  · rw [Bool.eq_iff_iff, permitsAccess_eq_true, permitsAccess_eq_true]
    simp only [order.mem_iff]
  · rw [permitsAccess_eq_true] at permitted ⊢
    simp only [← order.mem_iff, List.mem_cons] at permitted
    obtain ⟨still, ⟨-, bare⟩ | ⟨scope, listed, other, permits⟩⟩ := permitted
    · obtain ⟨scope, member⟩ := List.exists_mem_of_ne_nil _ (validateScopes_ok valid).1
      exact ⟨fun _ => still ⟨_, .inl rfl, rfl⟩, .inl ⟨⟨scope, member, bare scope (.inr member)⟩,
        fun other member => bare other (.inr member)⟩⟩
    · rcases listed with rfl | member
      · exact absurd rfl other
      · exact ⟨fun _ => still ⟨_, .inl rfl, rfl⟩, .inr ⟨scope, member, other, permits⟩⟩
  · exact or_iff_not_imp_left.mpr fun named => Guard.decide_owner named permitted

/-- A token for the reads of one key set. -/
theorem accepted_scopes_permit_iff_reader :
    let scopes : List Scope := [⟨.readOnly, []⟩, ⟨.singleSet, utf8 "set-1"⟩]
    let access : Access := { resource := .keySet, resourceID := utf8 "set-1" }
    permitsAccess scopes access = true ∧
      permitsAccess scopes { access with mutating := true } = false := by
  have permits := (@accepted_scopes_permit_iff [⟨.readOnly, []⟩,
    ⟨.singleSet, utf8 "set-1"⟩] (by decide)).1
  exact ⟨(permits _).mpr (.inr (.inr ⟨_, rfl, rfl, rfl, fun _ => rfl⟩)), by decide⟩

end Vallet.Auth
