import Vallet.Auth.Denylist
import Vallet.Counter.Failover
import Mathlib.Logic.Relation

/-!
# The denylist over the shared store

With a shared counter store, `valletd` hands the denylist the same failover
store that serves the rate limiters.  An outage of the primary then answers a
revocation check from the fallback, which knows nothing of what the primary
has listed.
-/

namespace Vallet.Auth

open Counter FixedWindow RemoteStore

abbrev SharedStore := FailoverStore RemoteStore MemoryStore

/-- `primary` is the server that is dialled, whatever it holds. -/
def newSharedCounterStore (enabled : Bool) (store : String)
    (primary : RemoteStore) : Option SharedStore :=
  if !enabled || store != "shared" then none
  else some (.new primary .new)

/-- The store `mountOwnerManagement` hands to `NewDenylist`. -/
def denylistStore (counterStore : Option SharedStore) : SharedStore ⊕ MemoryStore :=
  match counterStore with
  | some store => .inl store
  | none => .inr .new

/-- The store behind the denylist, and every revocation that returned nil with
its time. -/
structure SharedDenylist where
  store : SharedStore
  clock : Int
  listed : List (RefreshCredentialID × Int)

/-- A call on the denylist, a probe, or a change of the server. -/
inductive DenylistEvent where
  | revokeCredential (call : StoreCall) (id : RefreshCredentialID)
  | check (call : StoreCall) (token : Option AccessToken)
  | reprobe
  | setHealth (health : Health)

namespace SharedDenylist

def initial (store : SharedStore) (clock : Int) : SharedDenylist where
  store := store
  clock := clock
  listed := []

def revokeCredential (system : SharedDenylist) (call : StoreCall)
    (id : RefreshCredentialID) : SharedDenylist :=
  let revoked := Denylist.revokeCredential system.store call id
  { store := revoked.2
    clock := call.now
    listed :=
      if revoked.1.toOption.isSome then (id, call.now) :: system.listed
      else system.listed }

def check (system : SharedDenylist) (call : StoreCall)
    (token : Option AccessToken) : SharedDenylist :=
  { system with
    store := (Denylist.check system.store call token).2
    clock := call.now }

inductive Step : SharedDenylist → DenylistEvent → SharedDenylist → Prop where
  | revokeCredential {system : SharedDenylist} {call : StoreCall}
      {id : RefreshCredentialID} (order : system.clock ≤ call.now) :
      Step system (.revokeCredential call id) (system.revokeCredential call id)
  | check {system : SharedDenylist} {call : StoreCall}
      {token : Option AccessToken} (order : system.clock ≤ call.now) :
      Step system (.check call token) (system.check call token)
  | reprobe {system : SharedDenylist} :
      Step system .reprobe { system with store := system.store.reprobe }
  | setHealth {system : SharedDenylist} {health : Health} :
      Step system (.setHealth health) { system with
          store := { system.store with
            primary := { system.store.primary with health } } }

def RunsWhere (condition : SharedDenylist → DenylistEvent → Prop) :
    SharedDenylist → SharedDenylist → Prop :=
  Relation.ReflTransGen fun before after =>
    ∃ event, condition before event ∧ Step before event after

/-- The primary is asked and answers. -/
def Consulted (system : SharedDenylist) (call : StoreCall) : Prop :=
  system.store.degraded = false ∧ system.store.primary.health = .answers ∧ call.ctx = .live

/-- A revocation of the credential returned nil and has not run out. -/
def Listed (system : SharedDenylist) (id : RefreshCredentialID) (now : Int) : Prop :=
  ∃ listing ∈ system.listed, listing.1 = id ∧ listing.2 ≤ now ∧ now < listing.2 + denylistEntryTTL

/-- A check of a listed credential is denied, and so is one for which the
primary could not be consulted. -/
def FailsClosed (system : SharedDenylist) (call : StoreCall) (token : AccessToken) : Prop :=
  Listed system token.refreshCredentialID call.now ∨ ¬ Consulted system call →
    ∃ failure, (Denylist.check system.store call (some token)).1 = .error failure

/-- Calls that are not cancelled are answered by the primary, and a revocation
finds no entry of the credential that is still live. -/
def PrimaryServes (system : SharedDenylist) : DenylistEvent → Prop
  | .revokeCredential call id => call.ctx = .live →
      Consulted system call ∧ system.store.primary.redis.find call.now (credentialKey id) = none
  | .check call _ => call.ctx = .live → Consulted system call
  | .reprobe => True
  | .setHealth _ => True

/-- The primary covers every credential whose revocation returned nil. -/
def Upheld (system : SharedDenylist) : Prop :=
  ∀ listing ∈ system.listed,
    Covered (system.store.primary.redis.windows (credentialKey listing.1))
      system.clock (listing.2 + denylistEntryTTL)

section Calls

variable {store : SharedStore} {call : StoreCall}

theorem get_canceled (store : SharedStore) (now : Int) (key : GoString) :
    ∃ failure, (store.get .canceled now key).1 = .error failure := by
  rcases store.route_cases (fun primary : RemoteStore => primary.get .canceled now key)
      (fun fallback : MemoryStore => fallback.get .canceled now key) with
    ⟨_, _, served⟩ | ⟨_, served, _⟩
  · obtain ⟨failure, failed⟩ := store.primary.get_canceled now key
    exact ⟨failure, (congrArg Prod.fst served).trans failed⟩
  · obtain ⟨failure, failed⟩ := store.fallback.get_canceled now key
    exact ⟨failure, served.trans failed⟩

theorem increment_canceled (store : SharedStore) (now : Int) (key : GoString) (delta ttl : Int) :
    ∃ failure, (store.increment .canceled now key delta ttl).1 = .error failure := by
  rcases store.route_cases (fun primary : RemoteStore => primary.increment .canceled now key delta
        ttl) (fun fallback : MemoryStore => fallback.increment .canceled now key delta ttl) with
    ⟨_, _, served⟩ | ⟨_, served, _⟩
  · obtain ⟨failure, failed⟩ := store.primary.increment_canceled now key delta ttl
    exact ⟨failure, (congrArg Prod.fst served).trans failed⟩
  · obtain ⟨failure, failed⟩ := store.fallback.increment_canceled now key delta ttl
    exact ⟨failure, served.trans failed⟩

/-- A primary that is asked and answers decides. -/
theorem get_consulted (fresh : store.degraded = false)
    (answers : store.primary.health = .answers) (now : Int) (key : GoString) :
    (store.get .live now key).1 = (store.primary.get .live now key).1 :=
  congrArg Prod.fst (FailoverStore.route_served fresh (fun _ => get_answers answers) _)

theorem get_redis (store : SharedStore) (ctx : Ctx) (now : Int) (key : GoString) :
    (store.get ctx now key).2.primary = store.primary := by
  rcases store.route_cases (fun primary : RemoteStore => primary.get ctx now key)
      (fun fallback : MemoryStore => fallback.get ctx now key) with
    ⟨_, _, served⟩ | ⟨_, _, _, primary | primary⟩
  · exact (congrArg (fun served => served.2.primary) served).trans (get_snd _ _ _ _)
  · exact primary
  · exact primary.trans (get_snd _ _ _ _)

/-- Whoever answers it, a count at the primary survives an increment. -/
theorem increment_covered {now till delta : Int} {other : GoString} (added : 0 < delta)
    (covered : Covered (store.primary.redis.windows other) now till) (ctx : Ctx)
    (key : GoString) (ttl : Int) :
    Covered ((store.increment ctx now key delta ttl).2.primary.redis.windows other) now till := by
  have tried := increment_covers added covered ctx key ttl
  rcases store.route_cases (fun primary : RemoteStore => primary.increment ctx now key delta ttl)
      (fun fallback : MemoryStore => fallback.increment ctx now key delta ttl) with
    ⟨_, _, served⟩ | ⟨_, _, _, primary | primary⟩
  · have primary := congrArg (fun served => served.2.primary) served
    exact primary ▸ tried
  · exact primary ▸ covered
  · exact primary ▸ tried

end Calls

/-! ## Runs in which the primary serves -/

variable {before after : SharedDenylist}

theorem revokeCredential_covered (system : SharedDenylist) (call : StoreCall)
    (id : RefreshCredentialID) {key : GoString} {till : Int}
    (covered : Covered (system.store.primary.redis.windows key) call.now till) :
    Covered ((system.revokeCredential call id).store.primary.redis.windows key) call.now till := by
  by_cases named : id = []
  · subst id
    exact covered
  · simp only [revokeCredential, Denylist.revokeCredential_eq _ _ named]
    exact increment_covered Int.one_pos covered _ _ _

/-- A revocation that returned nil has opened a window at the primary. -/
theorem revokeCredential_covers {system : SharedDenylist} {call : StoreCall}
    {id : RefreshCredentialID} (served : PrimaryServes system (.revokeCredential call id))
    (returned : (Denylist.revokeCredential system.store call id).1 = .ok ()) :
    Covered ((system.revokeCredential call id).store.primary.redis.windows
      (credentialKey id)) call.now (call.now + denylistEntryTTL) := by
  by_cases named : id = []
  · subst id
    cases returned
  simp only [revokeCredential]
  rw [Denylist.revokeCredential_eq _ _ named] at returned ⊢
  simp only [CounterStore.increment] at returned ⊢
  cases ctx : call.ctx with
  | canceled =>
    obtain ⟨failure, failed⟩ := increment_canceled system.store call.now
      (credentialKey id) 1 denylistEntryTTL
    rw [ctx, failed] at returned
    cases returned
  | live =>
    obtain ⟨⟨fresh, answers, _⟩, absent⟩ := served ctx
    have room : system.store.primary.redis.value call.now (credentialKey id) + 1 ≤ maxInt64 := by
      rw [Redis.value, absent]
      decide
    have decides : system.store.increment .live call.now (credentialKey id) 1
        denylistEntryTTL = _ :=
      FailoverStore.route_served fresh (fun _ => increment_answers answers room) _
    rw [ctx, decides] at returned
    rw [decides]
    simp only [CounterStore.increment, RemoteStore.increment, refusal_live] at returned ⊢
    split at returned
    · cases returned
    rename_i accepted
    rw [Redis.incrementScript_absent absent (by decide) (by decide),
      receive_answers answers, Redis.windows_update, Function.update_self]
    exact covered_of_closesAt Int.one_pos (le_refl _)

theorem check_primary (system : SharedDenylist) (call : StoreCall) (token : Option AccessToken) :
    (system.check call token).store.primary = system.store.primary := by
  cases token with
  | none => rfl
  | some token =>
    by_cases named : token.refreshCredentialID = []
    · rw [check, Denylist.check_unnamed _ _ named]
    · simp only [check, Denylist.check_eq _ _ named]
      exact get_redis system.store call.ctx call.now (credentialKey token.refreshCredentialID)

theorem Step.upheld {event : DenylistEvent} (step : Step before event after)
    (served : PrimaryServes before event) (upheld : Upheld before) : Upheld after := by
  cases step with
  | @revokeCredential call id order =>
    intro listing member
    have kept : listing ∈ before.listed → Covered _ call.now _ := fun known =>
      before.revokeCredential_covered call id ((upheld listing known).mono order)
    simp only [SharedDenylist.revokeCredential] at member
    cases returned : (Denylist.revokeCredential before.store call id).1 with
    | error failure =>
      rw [returned] at member
      exact kept member
    | ok nothing =>
      rw [returned] at member
      rcases List.mem_cons.mp member with rfl | member
      · exact revokeCredential_covers served returned
      · exact kept member
  | @check call token order =>
    intro listing member
    rw [before.check_primary call token]
    exact (upheld listing member).mono order
  | reprobe =>
    intro listing member
    have covered := upheld listing member
    rw [← before.store.reprobe_primary] at covered
    exact covered
  | setHealth => exact upheld

/-- A check that the primary serves is denied when the primary covers the
credential. -/
theorem failsClosed_of_upheld {system : SharedDenylist}
    (upheld : Upheld system) {call : StoreCall} {token : AccessToken}
    (order : system.clock ≤ call.now) (served : PrimaryServes system (.check call (some token))) :
    FailsClosed system call token := by
  intro demanded
  by_cases named : token.refreshCredentialID = []
  · rw [Denylist.check_unnamed _ _ named]
    exact ⟨_, rfl⟩
  rw [Denylist.check_eq _ _ named]
  simp only [CounterStore.get]
  cases ctx : call.ctx with
  | canceled =>
    obtain ⟨failure, failed⟩ := get_canceled system.store call.now
      (credentialKey token.refreshCredentialID)
    rw [failed]
    exact ⟨_, rfl⟩
  | live =>
    have consulted := served ctx
    have fresh := consulted.1
    have answers := consulted.2.1
    rcases demanded with ⟨listing, member, id, _, unexpired⟩ | unconsulted
    · obtain ⟨window, visible, counted⟩ := upheld listing member call.now order unexpired
      rw [id] at visible
      rw [get_consulted fresh answers]
      cases answered : (system.store.primary.get .live call.now
          (credentialKey token.refreshCredentialID)).1 with
      | error failure => exact ⟨_, rfl⟩
      | ok count =>
        simp only [gt_iff_lt, get_positive answered visible counted, if_true]
        exact ⟨_, rfl⟩
    · exact (unconsulted consulted).elim

theorem RunsWhere.upheld (runs : RunsWhere PrimaryServes before after)
    (upheld : Upheld before) : Upheld after := by
  induction runs with
  | refl => exact upheld
  | tail _ step induction =>
    obtain ⟨event, served, step⟩ := step
    exact step.upheld served induction

/-- The denylist fails closed in every run, from whatever store it is given,
in which the primary answers each call that is not cancelled and no revocation
finds an open entry. -/
theorem failsClosed_of_primaryServes (store : SharedStore) (clock : Int) {system : SharedDenylist}
    (runs : RunsWhere PrimaryServes (initial store clock) system)
    (call : StoreCall) (token : AccessToken) (order : system.clock ≤ call.now)
    (served : PrimaryServes system (.check call (some token))) : FailsClosed system call token := by
  have start : Upheld (initial store clock) := by
    intro listing member
    cases member
  exact failsClosed_of_upheld (runs.upheld start) order served

end SharedDenylist

/-! ## An outage of the primary -/

namespace Outage

/-- A server without counters. -/
def primary : RemoteStore where
  redis _ := none
  health := .answers

def store : SharedStore := .new primary .new

def credentialID : RefreshCredentialID := utf8 "stolen"

/-- A token of the revoked credential. -/
def token : AccessToken where
  id := utf8 "token"
  ownerID := utf8 "alice"
  refreshCredentialID := credentialID
  scopes := []
  issuedAt := 0
  expiresAt := accessTokenLifetime

/-- The credential is revoked while the primary answers. -/
def revoked : SharedDenylist :=
  (SharedDenylist.initial store 0).revokeCredential { now := 0 } credentialID

/-- Then the primary falls silent. -/
def silenced : SharedDenylist :=
  { revoked with
    store := { revoked.store with
      primary := { revoked.store.primary with health := .silent false } } }

theorem revoked_listed {system : SharedDenylist} (same : system.listed = revoked.listed) :
    system.Listed token.refreshCredentialID 1 := by
  refine ⟨(credentialID, 0), ?_, rfl, by decide, by decide⟩
  rw [same]
  decide +kernel

end Outage

/-- A token of a credential that was revoked a moment ago passes the check
once the primary has fallen silent. -/
theorem revoked_credential_passes_in_outage :
    denylistStore (newSharedCounterStore true "shared" Outage.primary) = .inl Outage.store ∧
    SharedDenylist.RunsWhere (fun _ _ => True)
      (SharedDenylist.initial Outage.store 0) Outage.silenced ∧
    Outage.silenced.clock ≤ 1 ∧
    Outage.silenced.Listed Outage.token.refreshCredentialID 1 ∧
    ¬ Outage.silenced.Consulted { now := 1 } ∧
    ¬ Outage.silenced.FailsClosed { now := 1 } Outage.token := by
  have listed : Outage.silenced.Listed Outage.token.refreshCredentialID 1 :=
    Outage.revoked_listed (by rw [Outage.silenced])
  have passes : (Denylist.check Outage.silenced.store { now := 1 }
      (some Outage.token)).1 = .ok () := by
    decide +kernel
  refine ⟨rfl, ?_, by decide, listed, ?_, ?_⟩
  · have revocation : SharedDenylist.Step (.initial Outage.store 0)
        (.revokeCredential { now := 0 } Outage.credentialID) Outage.revoked :=
      .revokeCredential (le_refl _)
    exact .tail (.tail .refl ⟨_, trivial, revocation⟩)
      ⟨.setHealth (.silent false), trivial, .setHealth⟩
  · rintro ⟨_, answers, _⟩
    cases answers
  · intro failsClosed
    obtain ⟨failure, failed⟩ := failsClosed (.inl listed)
    rw [passes] at failed
    cases failed

/-- While the primary answers, the same check is denied. -/
theorem failsClosed_revoked : Outage.revoked.Listed Outage.token.refreshCredentialID 1 ∧
      Outage.revoked.FailsClosed { now := 1 } Outage.token := by
  refine ⟨Outage.revoked_listed rfl, ?_⟩
  refine SharedDenylist.failsClosed_of_primaryServes Outage.store 0 (.tail .refl
    ⟨.revokeCredential { now := 0 } Outage.credentialID, ?_,
      .revokeCredential (le_refl _)⟩) _ _ (by decide) ?_
  · intro _
    exact ⟨⟨rfl, rfl, rfl⟩, by simp [Outage.store, Outage.primary, Redis.find,
      SharedDenylist.initial, FailoverStore.new]⟩
  · intro _
    exact ⟨by decide +kernel, by decide +kernel, rfl⟩

end Vallet.Auth
