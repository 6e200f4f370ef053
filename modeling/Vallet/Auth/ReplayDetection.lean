import Vallet.Auth.LineageSafety

/-!
# Detecting replays

The correct secret of a credential that is no longer active is proof of theft,
and `Exchange` answers it by burning the lineage.  The owner's standing is
checked first, so a replay made while the owner is suspended is denied without
a trace: the lineage works again as soon as the owner is reinstated.
-/

namespace Vallet.Auth

open Counter Effects Relational

/-- No statement of a step faults. -/
def TokenEvent.FaultFree : TokenEvent → Prop
  | .issue call => call.faults = []
  | .exchange call => call.plan = {}
  | .revokeLineage call => call.faults = []
  | .setOwners _ => True

/-- The presented token carries the secret of a stored credential that is no
longer active. -/
structure ExchangeCall.Replays (call : ExchangeCall)
    (tables : CredentialTables) (credential : RefreshCredential) : Prop where
  stored : credential ∈ tables.refreshCredentials
  presented : ∃ secret, parseRefreshToken call.presented = .ok (credential.id, secret) ∧
      secretMatches credential.secretHash secret = true
  inactive : credential.status ≠ .active

namespace TokenSystem

variable {σ : Type} [CounterStore σ] {signer : AccessTokenSigner}

/-- From the end of a call on, no exchange on a lineage returns tokens. -/
def EndsLineage (signer : AccessTokenSigner) (system : TokenSystem σ)
    (call : ExchangeCall) (lineageID : LineageID) : Prop :=
  ∀ later, RunsWhere signer (fun _ event => event.FaultFree) (system.exchange signer call).2 later →
    ∀ next : ExchangeCall, next.plan = {} → later.clock ≤ next.now →
      later.state.tables.PresentsLineage next.presented lineageID →
      ∃ failure, (later.exchange signer next).1 = .error failure

/-- The owner of a credential is known, active and not deleted. -/
def OwnerStands (system : TokenSystem σ) (credential : RefreshCredential) : Prop :=
  ∃ owner, system.state.tables.owners.find? credential.ownerID = some owner ∧
    owner.inGoodStanding = true

theorem endsLineage_of_ended {system : TokenSystem σ} {call : ExchangeCall}
    {lineageID : LineageID} (sound : system.state.tables.Sound)
    (ended : (system.exchange signer call).2.state.tables.Ended lineageID) :
    EndsLineage signer system call lineageID := by
  intro later runs next _ _ presents
  have afterSound := (exchange_tableEffect signer call system).sound sound
  have laterEnded := RunsWhere.ended runs afterSound ended
  exact exchange_error_of_inactive laterEnded.2 presents

/-- A lineage past its deadline issues nothing, whatever happens to it. -/
theorem endsLineage_of_deadline {system : TokenSystem σ} {call : ExchangeCall}
    {credential : RefreshCredential} (sound : system.state.tables.Sound)
    (stored : credential ∈ system.state.tables.refreshCredentials)
    (ends : call.now ≤ call.finished) (late : credential.expiresAt ≤ call.now) :
    EndsLineage signer system call credential.lineageID := by
  intro later runs next _ order presents
  have effect := exchange_tableEffect signer call system
  have formed := sound.wellFormed stored
  obtain ⟨root, head, rootID, _⟩ := formed.started
  have rootMember := List.mem_of_head? head
  obtain ⟨rootStored, rootLineage⟩ := CredentialTables.mem_lineage.mp rootMember
  have deadline := formed.deadline head (CredentialTables.mem_lineage.mpr ⟨stored, rfl⟩)
  obtain ⟨heir, heirStored, heirID, heirLineage, heirIssued, _⟩ :=
    (effect.progress.trans (RunsWhere.progress runs)) root rootStored
  have clock := RunsWhere.clock_le runs
  have started : (system.exchange signer call).2.clock = call.finished := rfl
  refine exchange_error_of_deadline (RunsWhere.sound runs (effect.sound sound)) heirStored ?_ ?_ ?_
  · rw [heirID, heirLineage, rootID, rootLineage]
  · rw [heirLineage, rootLineage]
    exact presents
  · rw [heirIssued]
    omega

/-- A replay ends its lineage when the owner stands, when the lineage has no
active credential left, or when its deadline has passed. -/
theorem replay_endsLineage (system : TokenSystem σ)
    (reachable : Reachable signer system) (call : ExchangeCall)
    (credential : RefreshCredential) (faultFree : call.plan = {}) (ends : call.now ≤ call.finished)
    (replays : call.Replays system.state.tables credential)
    (detectable : OwnerStands system credential ∨ system.state.tables.Ended credential.lineageID ∨
      credential.expiresAt ≤ call.now) :
    EndsLineage signer system call credential.lineageID := by
  have sound := reachable.sound
  rcases detectable with stands | ended | late
  · apply endsLineage_of_ended sound
    obtain ⟨owner, found, standing⟩ := stands
    obtain ⟨secret, parsed, authentic⟩ := replays.presented
    obtain ⟨ownerNamed, lineageNamed, _⟩ := reachable.populated credential replays.stored
    have burned := exchange_replay signer call.now call.draws call.calls
      parsed replays.stored authentic replays.inactive ownerNamed lineageNamed found standing
    have after : (system.exchange signer call).2.state.tables =
        system.state.tables.revokeLineageRows credential.ownerID credential.lineageID call.now := by
      rw [exchange, faultFree, burned]
    rw [after]
    refine ⟨?_, fun other member active => ?_⟩
    · rw [CredentialTables.lineage_revokeLineageRows, ne_eq, List.map_eq_nil_iff]
      exact (sound.wellFormed replays.stored).ne_nil
    · have revoked := sound.all_revoked_of_burn replays.stored call.now other member
      rw [active] at revoked
      cases revoked
  · exact endsLineage_of_ended sound ((exchange_tableEffect signer call system).ended sound ended)
  · exact endsLineage_of_deadline sound replays.stored ends late

end TokenSystem

/-! ## A replay that is forgotten -/

namespace Sample

def suspended : Table Owner.id where
  rows := [{ alice with status := .suspended }]
  distinct := by simp

/-- The credential that was issued first, after its rotation. -/
def consumed : RefreshCredential :=
  (rootCredential alice.id issueCall.scopes issueCall.clientLabel 0 (draws 1)).rotated

/-- The rotated lineage while its owner is suspended. -/
def paused (signer : AccessTokenSigner) : TokenSystem MemoryStore :=
  { rotated signer with
    state := { (rotated signer).state with
      tables := { (rotated signer).state.tables with owners := suspended } } }

/-- The state after the first token was replayed and the owner reinstated. -/
def reinstated (signer : AccessTokenSigner) : TokenSystem MemoryStore :=
  let replayed := ((paused signer).exchange signer (exchangeCall 1 3 2)).2
  { replayed with
    state := { replayed.state with
      tables := { replayed.state.tables with owners } } }

theorem paused_runs (signer : AccessTokenSigner) :
    TokenSystem.RunsWhere signer (fun _ event => event.FaultFree)
      (TokenSystem.initial owners MemoryStore.new 0) (paused signer) := by
  have suspension : TokenSystem.Step signer (rotated signer)
      (.setOwners suspended) (paused signer) := .setOwners
  refine Relation.ReflTransGen.tail (.tail (.tail .refl ⟨.issue issueCall, rfl, .issue (le_refl _)⟩)
    ⟨.exchange (exchangeCall 1 2 1), rfl, .exchange ?_ (le_refl _)⟩)
    ⟨.setOwners suspended, trivial, suspension⟩
  exact (by decide : (0 : Int) ≤ 1)

theorem consumed_replayed {tables : CredentialTables}
    (stored : consumed ∈ tables.refreshCredentials) :
    (exchangeCall 1 3 2).Replays tables consumed where
  stored := stored
  presented := ⟨(draws 1).secret.val, by decide +kernel, by decide +kernel⟩
  inactive := by decide

end Sample

open Sample

/-- A lineage survives a replay of its consumed token that comes while the
owner is suspended: its active credential is exchanged after the owner was
reinstated. -/
theorem replay_forgotten_under_suspension : let signer := signer []
    TokenSystem.RunsWhere signer (fun _ event => event.FaultFree)
      (TokenSystem.initial owners MemoryStore.new 0) (paused signer) ∧
    (exchangeCall 1 3 2).plan = {} ∧
    (exchangeCall 1 3 2).Replays (paused signer).state.tables consumed ∧
    ¬ TokenSystem.EndsLineage signer (paused signer) (exchangeCall 1 3 2) consumed.lineageID := by
  refine ⟨paused_runs _, rfl, consumed_replayed (by decide +kernel), ?_⟩
  intro ends
  have fails := ends (reinstated (signer [])) (.tail .refl ⟨.setOwners owners, trivial, .setOwners⟩)
    (exchangeCall 2 4 3) rfl (by decide) (by
      refine ⟨newCredentialID (draws 2).credentialID,
        (draws 2).secret.val, successor consumed 1 (draws 2), ?_⟩
      decide +kernel)
  have succeeds : ((reinstated (signer [])).exchange
      (signer []) (exchangeCall 2 4 3)).1.toOption.isSome := by
    decide +kernel
  obtain ⟨failure, failed⟩ := fails
  rw [failed] at succeeds
  cases succeeds

/-- With the owner in good standing the same replay ends the lineage. -/
theorem replay_endsLineage_sample : (exchangeCall 1 3 2).Replays
        (rotated (signer [])).state.tables consumed ∧
      TokenSystem.EndsLineage (signer []) (rotated (signer [])) (exchangeCall 1 3 2)
        consumed.lineageID := by
  have replays : (exchangeCall 1 3 2).Replays (rotated (signer [])).state.tables consumed :=
    consumed_replayed (by decide +kernel)
  refine ⟨replays, TokenSystem.replay_endsLineage _
    (rotated_reachable _) _ _ rfl (le_refl _) replays (.inl ?_)⟩
  exact ⟨alice, by decide +kernel, by decide⟩

end Vallet.Auth
