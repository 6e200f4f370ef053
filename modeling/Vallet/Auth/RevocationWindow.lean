import Vallet.Auth.ReplayDetection

/-!
# Revoked lineages and their access tokens

A burned lineage is listed on the denylist with a fixed window that may have
been opened by an earlier revocation.  The entry of a credential is never
opened before the credential is issued, so it outlives every access token
minted from it; credentials that are too old to be listed only have tokens
that have expired.
-/

namespace Vallet.Auth

open Counter Effects FixedWindow Relational CredentialTables TokenSystem MemoryStore

/-- Store calls are served in order, between the start and the end of the
request that makes them. -/
structure Timely (now finished : Int) (calls : Nat → StoreCall) : Prop where
  afterStart : ∀ index, now ≤ (calls index).now
  beforeEnd : ∀ index, (calls index).now ≤ finished
  ordered : ∀ index, (calls index).now ≤ (calls (index + 1)).now

theorem Timely.tail {now finished : Int} {calls : Nat → StoreCall}
    (timely : Timely now finished calls) :
    Timely (calls 0).now finished fun index => calls (index + 1) where
  afterStart index := by
    induction index with
    | zero => exact timely.ordered 0
    | succ index induction => exact Int.le_trans induction (timely.ordered (index + 1))
  beforeEnd index := timely.beforeEnd (index + 1)
  ordered index := timely.ordered (index + 1)

/-- Every entry that can still be read belongs to a stored credential and was
opened no earlier than the credential was issued. -/
def CredentialTables.Justifies (tables : CredentialTables)
    (store : MemoryStore) (clock : Int) : Prop :=
  ∀ key time window, clock ≤ time → stillOpen time (store.windows key) = some window →
    ∃ credential ∈ tables.refreshCredentials, credentialKey credential.id = key ∧
      credential.issuedAt + denylistEntryTTL ≤ window.closesAt ∧
      0 < window.value

/-- The digests of the stored identifiers do not collide. -/
def CredentialTables.CollisionFree (tables : CredentialTables) : Prop :=
  ∀ credential ∈ tables.refreshCredentials,
    ∀ other ∈ tables.refreshCredentials, credentialKey credential.id = credentialKey other.id →
      credential.id = other.id

namespace Denylist

variable {clock now : Int} {credential : RefreshCredential}
  {rows : List RefreshCredential} {calls : Nat → StoreCall}

/-- Listing a credential fails without effect, or grows the window of its
key. -/
theorem revokeCredential_cases (store : MemoryStore) (call : StoreCall) (id : RefreshCredentialID) :
    (∃ failure, revokeCredential store call id = (.error failure, store)) ∨
    ∃ after, revokeCredential store call id = (.ok (), after) ∧
      ∀ time, call.now ≤ time → ∀ key,
        stillOpen time (after.windows key) =
          stillOpen time (store.windows.increment call.now (credentialKey id)
            1 denylistEntryTTL key) := by
  unfold revokeCredential
  split
  · exact .inl ⟨_, rfl⟩
  cases refusal : incrementRefusal call.ctx (credentialKey id) 1 denylistEntryTTL with
  | some failure =>
    refine .inl ⟨.wrap "auth: listing refresh credential" failure, ?_⟩
    simp [CounterStore.increment, increment_refused refusal]
  | none =>
    refine .inr ⟨(store.increment call.ctx call.now (credentialKey id) 1
      denylistEntryTTL).2, ?_, ?_⟩
    · have count := increment_count store call.now refusal
      simp only [CounterStore.increment]
      rw [← Prod.eta (store.increment call.ctx call.now (credentialKey id)
        1 denylistEntryTTL), count]
    · intro time afterCall key
      exact stillOpen_windows_increment refusal afterCall key

variable {tables : CredentialTables} {store after : MemoryStore}

theorem justifies_of_later {later : Int}
    (justified : tables.Justifies store clock) (order : clock ≤ later) :
    tables.Justifies store later :=
  fun key time window afterLater =>
    justified key time window (Int.le_trans order afterLater)

/-- Growing the window of a credential that has been issued keeps every entry
justified. -/
theorem justifies_grown (justified : tables.Justifies store clock)
    (order : clock ≤ now) (stored : credential ∈ tables.refreshCredentials)
    (issued : credential.issuedAt ≤ now) (effect : ∀ time, now ≤ time → ∀ key,
      stillOpen time (after.windows key) =
        stillOpen time (store.windows.increment now
          (credentialKey credential.id) 1 denylistEntryTTL key)) :
    tables.Justifies after now := by
  intro key time window afterNow visible
  rw [effect time afterNow] at visible
  by_cases same : key = credentialKey credential.id
  · subst key
    rw [Windows.increment_self] at visible
    obtain ⟨grownEq, unclosed⟩ := stillOpen_eq_some_iff.mp visible
    cases grownEq
    cases current : stillOpen now (store.windows (credentialKey credential.id)) with
    | none =>
      rw [grown_of_closed current]
      exact ⟨credential, stored, rfl, by simpa using issued, by simp⟩
    | some open_ =>
      obtain ⟨opener, openerStored, openerKey, longEnough, counted⟩ :=
        justified _ now open_ order current
      rw [grown_of_open current]
      refine ⟨opener, openerStored, openerKey, longEnough, ?_⟩
      change 0 < open_.value + 1
      omega
  · rw [Windows.increment_of_ne _ _ same] at visible
    exact justified key time window (Int.le_trans order afterNow) visible

/-- Listing rows of the table keeps every entry justified. -/
theorem justifies_revokeLineage {start finished : Int} (timely : Timely start finished calls)
    (justified : tables.Justifies store clock) (order : clock ≤ start)
    (stored : ∀ row ∈ rows, row ∈ tables.refreshCredentials ∧ row.issuedAt ≤ start) :
    tables.Justifies (revokeLineage store calls now rows).2 finished := by
  induction rows generalizing store clock start calls with
  | nil =>
    apply justifies_of_later justified
    exact Int.le_trans order (Int.le_trans (timely.afterStart 0) (timely.beforeEnd 0))
  | cons row rest induction =>
    have finishedAfter : clock ≤ finished := Int.le_trans order
      (Int.le_trans (timely.afterStart 0) (timely.beforeEnd 0))
    have restStored := fun other member =>
      stored other (List.mem_cons_of_mem row member)
    obtain ⟨rowStored, rowIssued⟩ := stored row List.mem_cons_self
    unfold revokeLineage
    split
    · exact induction timely justified order restStored
    split
    · exact justifies_of_later justified finishedAfter
    rcases revokeCredential_cases store (calls 0) row.id with
      ⟨failure, failed⟩ | ⟨listed, succeeded, effect⟩
    · rw [failed]
      exact justifies_of_later justified finishedAfter
    · rw [succeeded]
      have firstOrder := timely.afterStart 0
      have grownJustified := justifies_grown justified (Int.le_trans order firstOrder) rowStored
        (Int.le_trans rowIssued firstOrder) effect
      refine induction timely.tail grownJustified (le_refl _) ?_
      intro other member
      obtain ⟨otherStored, otherIssued⟩ := restStored other member
      exact ⟨otherStored, Int.le_trans otherIssued firstOrder⟩

theorem covered_revokeLineage {start finished till : Int} {key : GoString}
    (timely : Timely start finished calls) (covered : Covered (store.windows key) start till) :
    Covered ((revokeLineage store calls now rows).2.windows key) finished till := by
  induction rows generalizing store start calls with
  | nil => exact covered.mono (Int.le_trans (timely.afterStart 0) (timely.beforeEnd 0))
  | cons row rest induction =>
    have finishedAfter : start ≤ finished := Int.le_trans (timely.afterStart 0) (timely.beforeEnd 0)
    unfold revokeLineage
    split
    · exact induction timely covered
    split
    · exact covered.mono finishedAfter
    rcases revokeCredential_cases store (calls 0) row.id with
      ⟨failure, failed⟩ | ⟨listed, succeeded, effect⟩
    · rw [failed]
      exact covered.mono finishedAfter
    · rw [succeeded]
      apply induction timely.tail
      have later := covered.mono (timely.afterStart 0)
      apply (later.increment (credentialKey row.id) denylistEntryTTL Int.one_pos).congr
      intro time afterCall
      exact effect time afterCall key

/-- A credential that was just listed is covered for as long as a token minted
from it can live, even when its window was opened earlier. -/
theorem covered_of_listed (justified : tables.Justifies after now)
    (stored : credential ∈ tables.refreshCredentials)
    (collisionFree : tables.CollisionFree) (effect : ∀ time, now ≤ time → ∀ key,
      stillOpen time (after.windows key) =
        stillOpen time (store.windows.increment now
          (credentialKey credential.id) 1 denylistEntryTTL key)) :
    Covered (after.windows (credentialKey credential.id)) now
      (credential.issuedAt + denylistEntryTTL) := by
  have visible : stillOpen now (after.windows (credentialKey credential.id)) =
      some (grown now (store.windows (credentialKey credential.id)) 1 denylistEntryTTL) := by
    rw [effect now (le_refl now), Windows.increment_self]
    exact stillOpen_some_of_open (lt_grown_closesAt (by decide))
  obtain ⟨opener, openerStored, openerKey, longEnough, counted⟩ :=
    justified _ now _ (le_refl now) visible
  have same : opener = credential := Table.eq_of_key_eq openerStored stored
    (collisionFree opener openerStored credential stored openerKey)
  subst opener
  apply (covered_of_closesAt counted longEnough).congr
  intro time afterNow
  rw [effect time afterNow, Windows.increment_self]

/-- Once every write has succeeded, each listed credential is covered for as
long as a token minted from it can live. -/
theorem revokeLineage_covers {start finished : Int} (timely : Timely start finished calls)
    (justified : tables.Justifies store clock) (order : clock ≤ start)
    (stored : ∀ row ∈ rows, row ∈ tables.refreshCredentials ∧
      row.issuedAt ≤ start) (collisionFree : tables.CollisionFree)
    (succeeded : (revokeLineage store calls now rows).1 = .ok ())
    {row : RefreshCredential} (member : row ∈ rows)
    (young : now - denylistEntryTTL < row.issuedAt) :
    Covered ((revokeLineage store calls now rows).2.windows
      (credentialKey row.id)) finished (row.issuedAt + denylistEntryTTL) := by
  induction rows generalizing store clock start calls with
  | nil => cases member
  | cons first rest induction =>
    have restStored := fun other member =>
      stored other (List.mem_cons_of_mem first member)
    obtain ⟨firstStored, firstIssued⟩ := stored first List.mem_cons_self
    have firstOrder := timely.afterStart 0
    unfold revokeLineage at succeeded ⊢
    split at succeeded
    · rename_i old
      rw [if_pos old]
      rcases List.mem_cons.mp member with rfl | inRest
      · exact (old young).elim
      · exact induction timely justified order restStored succeeded inRest
    rename_i recent
    rw [if_neg recent]
    split at succeeded
    · cases succeeded
    rename_i filled
    rw [if_neg filled]
    rcases revokeCredential_cases store (calls 0) first.id with
      ⟨failure, failed⟩ | ⟨listed, listing, effect⟩
    · rw [failed] at succeeded
      cases succeeded
    · rw [listing] at succeeded ⊢
      have grownJustified := justifies_grown justified (Int.le_trans order firstOrder) firstStored
        (Int.le_trans firstIssued firstOrder) effect
      rcases List.mem_cons.mp member with rfl | inRest
      · exact covered_revokeLineage timely.tail
          (covered_of_listed grownJustified firstStored collisionFree effect)
      · refine induction timely.tail grownJustified (le_refl _) ?_ succeeded inRest
        intro other otherMember
        obtain ⟨otherStored, otherIssued⟩ := restStored other otherMember
        exact ⟨otherStored, Int.le_trans otherIssued firstOrder⟩

/-- While a credential is covered, every check of a token of it fails. -/
theorem check_covered {call : StoreCall} {token : AccessToken} {since till : Int} (covered : Covered
      (store.windows (credentialKey token.refreshCredentialID)) since till)
    (afterSince : since ≤ call.now) (beforeTill : call.now < till) :
    ∃ failure, (check store call (some token)).1 = .error failure := by
  obtain ⟨window, visible, counted⟩ := covered call.now afterSince beforeTill
  unfold check
  simp only
  split
  · exact ⟨_, rfl⟩
  simp only [CounterStore.get]
  rw [← Prod.eta (store.get call.ctx call.now (credentialKey token.refreshCredentialID))]
  cases refusal : accessRefusal call.ctx (credentialKey token.refreshCredentialID) with
  | some failure =>
    simp only [MemoryStore.get, refusal]
    exact ⟨_, rfl⟩
  | none =>
    rw [get_count refusal, visible]
    simp only [gt_iff_lt, counted, if_true]
    exact ⟨_, rfl⟩

end Denylist

/-- An exchange takes the reuse branch, commits, and reads the lineage back
as `rows`. -/
def ExchangeCall.Burns (signer : AccessTokenSigner) (call : ExchangeCall)
    (tables : CredentialTables) (rows : List RefreshCredential) : Prop :=
  rows ≠ [] ∧ ∃ id secret committed, parseRefreshToken call.presented = .ok (id, secret) ∧
    transact credentialInterpreter commitFault
        (exchangeTx signer id secret call.now call.draws) call.plan tables =
      (.ok { issued := none, revoked := rows }, committed)

/-! ## Runs over a memory store -/

theorem CredentialTables.Justifies.progress {before after : CredentialTables}
    {store : MemoryStore} {clock : Int} (justified : before.Justifies store clock)
    (progress : before.Progress after) : after.Justifies store clock := by
  intro key time window afterClock visible
  obtain ⟨credential, stored, sameKey, longEnough, counted⟩ :=
    justified key time window afterClock visible
  obtain ⟨later, laterStored, id, _, issuedAt, _⟩ := progress credential stored
  exact ⟨later, laterStored, id ▸ sameKey, issuedAt ▸ longEnough, counted⟩

/-- The store calls a step makes are served while it runs. -/
def TokenEvent.Timely : TokenEvent → Prop
  | .exchange call => Auth.Timely call.now call.finished call.calls
  | .revokeLineage call => Auth.Timely call.now call.finished call.calls
  | .issue _ => True
  | .setOwners _ => True

namespace TokenSystem

variable {signer : AccessTokenSigner} {before after : TokenSystem MemoryStore}

/-- Rows were issued in the past and entries are justified by rows. -/
structure DenylistSound (system : TokenSystem MemoryStore) : Prop where
  issued : ∀ credential ∈ system.state.tables.refreshCredentials, credential.issuedAt ≤ system.clock
  justified : system.state.tables.Justifies system.state.denylist system.clock

variable {tables : CredentialTables} {store : MemoryStore}
  {rows : List RefreshCredential} {event : TokenEvent} {key : GoString}
  {credential : RefreshCredential} {issued : Issued} {token : AccessToken} {call : ExchangeCall}

theorem denylistSound_initial (owners : Table Owner.id) (clock : Int) :
    DenylistSound (initial owners new clock) where
  issued credential stored := (Table.not_mem_empty credential stored).elim
  justified := by
    intro key time window _ visible
    cases visible

/-- The rows that an exchange lists are stored. -/
theorem denyRevoked_justified {clock now finished : Int}
    {calls : Nat → StoreCall} (timely : Auth.Timely now finished calls)
    (justified : tables.Justifies store clock) (order : clock ≤ now)
    (stored : ∀ row ∈ rows, row ∈ tables.refreshCredentials ∧ row.issuedAt ≤ now) :
    tables.Justifies (denyRevoked store calls now rows) finished := by
  unfold denyRevoked
  split
  · apply Denylist.justifies_of_later justified
    exact Int.le_trans order (Int.le_trans (timely.afterStart 0) (timely.beforeEnd 0))
  · exact Denylist.justifies_revokeLineage timely justified order stored

theorem exchange_justified (call : ExchangeCall)
    (sound : DenylistSound before) (order : before.clock ≤ call.now)
    (timely : Auth.Timely call.now call.finished call.calls) :
    (before.exchange signer call).2.state.tables.Justifies
      (before.exchange signer call).2.state.denylist call.finished := by
  have ends : call.now ≤ call.finished := Int.le_trans (timely.afterStart 0) (timely.beforeEnd 0)
  have effect := exchange_tableEffect signer call before
  have issued := effect.issuedBy call.now
    (fun credential stored => (sound.issued credential stored).trans order) (le_refl _)
  have justified := sound.justified.progress effect.progress
  rcases exchange_cases signer call.presented call.now call.draws call.plan
      call.calls before.state with
    ⟨_, unchanged⟩ | ⟨id, secret, outcome, tables, _, outcomeEffect, ran⟩
  · simp only [exchange, unchanged] at justified ⊢
    exact Denylist.justifies_of_later justified (order.trans ends)
  · simp only [exchange, ran] at justified issued ⊢
    apply denyRevoked_justified timely justified order
    intro row member
    cases outcomeEffect with
    | denied => cases member
    | burned stored named authentic inactive listed =>
      rcases listed with rfl | rfl
      · cases member
      · have rowStored := (mem_lineageRows.mp member).1
        exact ⟨rowStored, issued row rowStored⟩
    | rotated => cases member

theorem revokeLineage_justified (call : RevokeLineageCall)
    (sound : DenylistSound before) (order : before.clock ≤ call.now)
    (timely : Auth.Timely call.now call.finished call.calls) :
    (before.revokeLineage call).state.tables.Justifies
      (before.revokeLineage call).state.denylist call.finished := by
  have effect := revokeLineage_tableEffect call before
  have issued := effect.issuedBy call.now
    (fun credential stored => (sound.issued credential stored).trans order) (le_refl _)
  have justified := sound.justified.progress effect.progress
  rcases revokeIssuedLineage_effect call.ownerID call.lineageID call.now
      call.faults before.state.tables with ran | ⟨rows, ran, listed⟩
  · simp only [revokeLineage, ran] at justified ⊢
    exact Denylist.justifies_revokeLineage timely justified order (by simp)
  · simp only [revokeLineage, ran] at justified issued ⊢
    apply Denylist.justifies_revokeLineage timely justified order
    intro row member
    exact ⟨listed row member, issued row (listed row member)⟩

theorem Step.denylistSound (step : Step signer before event after)
    (timely : event.Timely) (sound : DenylistSound before) : DenylistSound after := by
  have clock := step.clock_le
  obtain ⟨now, inTime, effect⟩ := step.tableEffect
  have issued := effect.issuedBy after.clock (fun credential stored =>
    (sound.issued credential stored).trans clock) inTime
  refine ⟨issued, ?_⟩
  have justified := sound.justified.progress effect.progress
  cases step with
  | issue order => exact Denylist.justifies_of_later justified clock
  | exchange order ends => exact exchange_justified _ sound order timely
  | revokeLineage order ends => exact revokeLineage_justified _ sound order timely
  | setOwners => exact Denylist.justifies_of_later justified clock

theorem RunsWhere.denylistSound (runs : RunsWhere signer (fun _ event => event.Timely) before after)
    (sound : DenylistSound before) : DenylistSound after := by
  induction runs with
  | refl => exact sound
  | tail _ step induction =>
    obtain ⟨event, timely, step⟩ := step
    exact step.denylistSound timely induction

theorem Step.covered (step : Step signer before event after) (timely : event.Timely) {till : Int}
    (covered : Covered (before.state.denylist.windows key) before.clock till) :
    Covered (after.state.denylist.windows key) after.clock till := by
  cases step with
  | issue order => exact covered.mono order
  | @exchange call order ends =>
    have started := covered.mono order
    rcases exchange_cases signer call.presented call.now call.draws call.plan
        call.calls before.state with
      ⟨_, unchanged⟩ | ⟨id, secret, outcome, tables, _, _, ran⟩
    · simp only [TokenSystem.exchange, unchanged]
      exact started.mono ends
    · simp only [TokenSystem.exchange, ran, denyRevoked]
      split
      · exact started.mono ends
      · exact Denylist.covered_revokeLineage timely started
  | revokeLineage order ends => exact Denylist.covered_revokeLineage timely (covered.mono order)
  | setOwners => exact covered

theorem RunsWhere.covered (runs : RunsWhere signer (fun _ event => event.Timely) before after)
    {till : Int} (covered : Covered (before.state.denylist.windows key) before.clock till) :
    Covered (after.state.denylist.windows key) after.clock till := by
  induction runs with
  | refl => exact covered
  | tail _ step induction =>
    obtain ⟨event, timely, step⟩ := step
    exact step.covered timely induction

/-! ## Access tokens -/

/-- A step returns a pair whose access token is the signed form of `token`. -/
inductive Mints (signer : AccessTokenSigner) (system : TokenSystem MemoryStore) :
    TokenEvent → AccessToken → Issued → Prop where
  | issue {call : IssueCall} {issued : Issued}
      (returned : (system.issue signer call).1 = .ok issued) :
      Mints signer system (.issue call) (accessTokenFor (rootCredential call.ownerID call.scopes
          call.clientLabel call.now call.draws) call.draws.accessTokenID call.now) issued
  | exchange {call : ExchangeCall} {issued : Issued}
      {credential : RefreshCredential} {secret : List UInt8}
      (parsed : parseRefreshToken call.presented = .ok (credential.id, secret))
      (stored : credential ∈ system.state.tables.refreshCredentials)
      (returned : (system.exchange signer call).1 = .ok issued) :
      Mints signer system (.exchange call)
        (accessTokenFor (successor credential call.now call.draws)
          call.draws.accessTokenID call.now) issued

/-- The credential behind an access token is stored when the token is
returned, and the token lives for `accessTokenLifetime` from its issue. -/
structure MintedFrom (signer : AccessTokenSigner)
    (tables : CredentialTables) (token : AccessToken) (issued : Issued)
    (credential : RefreshCredential) : Prop where
  stored : credential ∈ tables.refreshCredentials
  id : credential.id = token.refreshCredentialID
  lineage : credential.lineageID = issued.lineageID
  issuedAt : credential.issuedAt = token.issuedAt
  expires : token.expiresAt = token.issuedAt + accessTokenLifetime
  signed : signer.issue token = .ok issued.accessToken

theorem mintedFrom_of_inserted {extended : CredentialTables} {draws : Draws}
    (insertion : tables.insertCredential credential = (.inserted, extended))
    (minted : mint signer credential draws credential.issuedAt = .ok issued) :
    ∃ source, MintedFrom signer extended
      (accessTokenFor credential draws.accessTokenID credential.issuedAt)
      issued source := by
  obtain ⟨_, _, _, rows⟩ := insertCredential_eq_inserted_iff.mp insertion
  obtain ⟨signed, _, _, lineage, _⟩ := mint_ok minted
  refine ⟨credential, ?_, rfl, lineage.symm, rfl, rfl, signed⟩
  rw [Table.mem_iff, rows]
  exact List.mem_append_right _ (List.mem_singleton.mpr rfl)

theorem Mints.mintedFrom (mints : Mints signer before event token issued)
    (step : Step signer before event after) :
    ∃ credential, MintedFrom signer after.state.tables token issued credential := by
  cases mints with
  | @issue call _ returned =>
    cases step
    obtain ⟨insertion, minted⟩ := issue_ok returned
    exact mintedFrom_of_inserted insertion minted
  | @exchange call _ credential secret parsed stored returned =>
    cases step
    obtain ⟨insertion, minted⟩ := exchange_ok_of_stored parsed stored returned
    exact mintedFrom_of_inserted insertion minted

theorem MintedFrom.progress {later : CredentialTables}
    (minted : MintedFrom signer tables token issued credential) (progress : tables.Progress later) :
    ∃ heir, MintedFrom signer later token issued heir := by
  obtain ⟨heir, stored, id, lineage, issuedAt, _⟩ := progress credential minted.stored
  exact ⟨heir, stored, id.trans minted.id, lineage.trans minted.lineage,
    issuedAt.trans minted.issuedAt, minted.expires, minted.signed⟩

theorem lt_expiresAt_of_verify {verified : AccessToken} {raw : GoString}
    {now : Int} (faithful : signer.codec.Faithful (claimsOf token))
    (signed : signer.issue token = .ok raw) (accepted : signer.verify raw now = .ok verified) :
    verified.refreshCredentialID = token.refreshCredentialID ∧ now < token.expiresAt := by
  obtain ⟨decoded, read, claims⟩ := AccessTokenSigner.verify_issued signed accepted
  obtain ⟨refresh, expires⟩ := faithful decoded read
  obtain ⟨id, inTime⟩ := AccessTokenSigner.acceptClaims_ok claims
  refine ⟨id.trans refresh, lt_of_lt_of_le inTime ?_⟩
  rw [expires]
  exact ofUnixSeconds_unixSeconds_le token.expiresAt

/-- The reuse branch lists every stored row of the lineage it burns. -/
theorem exchange_burns (sound : before.state.tables.Sound)
    (burns : call.Burns signer before.state.tables rows) :
    (before.exchange signer call).2.state.denylist =
        (Denylist.revokeLineage before.state.denylist call.calls call.now rows).2 ∧
      ∀ row ∈ rows, row ∈ (before.exchange signer call).2.state.tables.refreshCredentials ∧
        ∀ other ∈ (before.exchange signer call).2.state.tables.refreshCredentials,
          other.lineageID = row.lineageID → other ∈ rows := by
  obtain ⟨listedAny, id, secret, committed, parsed, ran⟩ := burns
  have effect := exchange_tableEffect signer call before
  have afterSound := effect.sound sound
  have returned : (before.exchange signer call).2.state =
      { tables := committed
        denylist := denyRevoked before.state.denylist call.calls call.now rows } := by
    simp only [exchange, Auth.exchange, parsed, ran]
  rw [returned] at afterSound ⊢
  refine ⟨by simp [denyRevoked, listedAny], ?_⟩
  have committedEffect : ExchangeEffect signer id secret call.now call.draws
      before.state.tables { issued := none, revoked := rows } committed := by
    rcases transact_cases credentialInterpreter commitFault
        (exchangeTx signer id secret call.now call.draws) call.plan before.state.tables with
      ⟨failure, failed⟩ | ⟨outcome, changed, body, succeeded⟩
    · rw [ran] at failed
      cases failed
    · rw [ran] at succeeded
      cases succeeded
      exact exchangeTx_effect body
  generalize outcomeEq : ({ issued := none, revoked := rows } :
    ExchangeOutcome) = outcome at committedEffect
  cases committedEffect with
  | denied => exact (listedAny (congrArg ExchangeOutcome.revoked outcomeEq)).elim
  | rotated => cases congrArg ExchangeOutcome.issued outcomeEq
  | @burned credential revoked stored named authentic inactive listed =>
    cases outcomeEq
    rcases listed with rfl | rfl
    · exact (listedAny rfl).elim
    intro row member
    obtain ⟨rowStored, rowOwner, rowLineage⟩ := mem_lineageRows.mp member
    refine ⟨rowStored, fun other otherStored sameLineage => ?_⟩
    have uniform := (afterSound.wellFormed rowStored).uniform other
      (mem_lineage.mpr ⟨otherStored, sameLineage⟩) row (mem_lineage.mpr ⟨rowStored, rfl⟩)
    exact mem_lineageRows.mpr ⟨otherStored, uniform.1.trans rowOwner, sameLineage.trans rowLineage⟩

/-- A token no longer passes `Verify` once an exchange has burned its
lineage: a credential that the age filter skips only has expired tokens, and
the entry of a listed one outlives the token. -/
structure TokenDies (signer : AccessTokenSigner)
    (system : TokenSystem MemoryStore) (call : ExchangeCall)
    (token : AccessToken) (issued : Issued) : Prop where
  skipped : ¬ call.now - denylistEntryTTL < token.issuedAt → token.expiresAt ≤ call.now
  listed : call.now - denylistEntryTTL < token.issuedAt →
    Covered ((system.exchange signer call).2.state.denylist.windows
      (credentialKey token.refreshCredentialID)) call.finished token.expiresAt
  verifyFails : ∀ later, RunsWhere signer (fun _ event => event.Timely)
      (system.exchange signer call).2 later →
    ∀ check : StoreCall, later.clock ≤ check.now →
      ∃ failure, (verify signer issued.accessToken check later.state.denylist).1 = .error failure

/-- Coverage up to the expiry of a token, or an expiry that has passed, is
all that `Verify` needs to fail. -/
theorem verify_error_of_covered {since : Int} (faithful : signer.codec.Faithful (claimsOf token))
    (signed : signer.issue token = .ok issued.accessToken) (covered : token.expiresAt ≤ since ∨
      Covered (store.windows (credentialKey token.refreshCredentialID)) since
        token.expiresAt) {check : StoreCall} (afterSince : since ≤ check.now) :
    ∃ failure, (verify signer issued.accessToken check store).1 = .error failure := by
  unfold verify
  cases accepted : signer.verify issued.accessToken check.now with
  | error failure => exact ⟨failure, rfl⟩
  | ok verified =>
    obtain ⟨sameID, unexpired⟩ := lt_expiresAt_of_verify faithful signed accepted
    rcases covered with expired | covered
    · omega
    rw [← sameID] at covered
    obtain ⟨failure, failed⟩ := Denylist.check_covered covered afterSince unexpired
    simp only
    rw [← Prod.eta (Denylist.check store check (some verified)), failed]
    exact ⟨_, rfl⟩

/-- Every access token minted from a lineage before an exchange burned it is
refused from then on. -/
theorem tokenDies_of_burns {owners : Table Owner.id} {clock : Int}
    {minting minted system : TokenSystem MemoryStore} {event : TokenEvent}
    {token : AccessToken} {issued : Issued}
    (started : RunsWhere signer (fun _ event => event.Timely) (initial owners new clock) minting)
    (timelyMint : event.Timely) (step : Step signer minting event minted)
    (mints : Mints signer minting event token issued)
    (between : RunsWhere signer (fun _ event => event.Timely) minted system)
    {call : ExchangeCall} {rows : List RefreshCredential} (order : system.clock ≤ call.now)
    (timely : Auth.Timely call.now call.finished call.calls)
    (burns : call.Burns signer system.state.tables rows)
    (sameLineage : ∃ row ∈ rows, row.lineageID = issued.lineageID)
    (written : (Denylist.revokeLineage system.state.denylist call.calls
      call.now rows).1 = .ok ()) (collisionFree :
      (system.exchange signer call).2.state.tables.CollisionFree)
    (faithful : signer.codec.Faithful (claimsOf token)) :
    TokenDies signer system call token issued := by
  have ends : call.now ≤ call.finished := Int.le_trans (timely.afterStart 0) (timely.beforeEnd 0)
  have systemSound : DenylistSound system := between.denylistSound (step.denylistSound timelyMint
      (started.denylistSound (denylistSound_initial owners clock)))
  have tablesSound : system.state.tables.Sound := between.sound
    (step.tableEffect.elim fun _ effect => effect.2.sound (started.sound sound_empty))
  have effect := exchange_tableEffect signer call system
  obtain ⟨denylist, listed⟩ := exchange_burns tablesSound burns
  obtain ⟨source, sourceMinted⟩ := mints.mintedFrom step
  obtain ⟨credential, origin⟩ := sourceMinted.progress (between.progress.trans effect.progress)
  obtain ⟨row, member, lineage⟩ := sameLineage
  have credentialListed : credential ∈ rows :=
    (listed row member).2 credential origin.stored (origin.lineage.trans lineage.symm)
  have issuedBefore := effect.issuedBy call.now
    (fun other stored => (systemSound.issued other stored).trans order) (le_refl _)
  have lifetimes : accessTokenLifetime ≤ denylistEntryTTL := by decide
  have expires := origin.expires
  have skipped : ¬ call.now - denylistEntryTTL < token.issuedAt → token.expiresAt ≤ call.now := by
    intro old
    omega
  have coveredAfter : call.now - denylistEntryTTL < token.issuedAt →
      Covered ((system.exchange signer call).2.state.denylist.windows
        (credentialKey token.refreshCredentialID)) call.finished
        token.expiresAt := by
    intro young
    have covers := Denylist.revokeLineage_covers timely
      (systemSound.justified.progress effect.progress) order
      (fun other otherMember => ⟨(listed other otherMember).1,
        issuedBefore other (listed other otherMember).1⟩)
      collisionFree written credentialListed (origin.issuedAt ▸ young)
    rw [denylist, ← origin.id]
    intro time afterEnd beforeExpiry
    have issuedAt := origin.issuedAt
    exact covers time afterEnd (by omega)
  refine ⟨skipped, coveredAfter, ?_⟩
  intro later runs check afterLater
  have clockOrder := runs.clock_le
  apply verify_error_of_covered faithful origin.signed _ afterLater
  by_cases young : call.now - denylistEntryTTL < token.issuedAt
  · exact .inr (runs.covered (coveredAfter young))
  · refine .inl ((skipped young).trans (ends.trans clockOrder))

/-- A replay by an owner in good standing takes the reuse branch. -/
theorem burns_of_replays {system : TokenSystem MemoryStore}
    (populated : system.state.tables.Populated) (faultFree : call.plan = {})
    (replays : call.Replays system.state.tables credential)
    (stands : OwnerStands system credential) :
    call.Burns signer system.state.tables
      ((system.state.tables.revokeLineageRows credential.ownerID
        credential.lineageID call.now).lineageRows credential.ownerID credential.lineageID) := by
  obtain ⟨owner, found, standing⟩ := stands
  obtain ⟨secret, parsed, authentic⟩ := replays.presented
  obtain ⟨ownerNamed, lineageNamed, _⟩ := populated credential replays.stored
  have ran := exchangeTx_replay signer call.now call.draws replays.stored
    authentic replays.inactive ownerNamed lineageNamed found standing
  refine ⟨?_, credential.id, secret, system.state.tables.revokeLineageRows
    credential.ownerID credential.lineageID call.now, parsed, ?_⟩
  · have statusOnly := statusChange_revoked credential.ownerID credential.lineageID call.now
    refine List.ne_nil_of_mem (mem_lineageRows.mpr
      ⟨?_, statusOnly.ownerID credential, statusOnly.lineageID credential⟩)
    rw [Table.mem_iff, rows_revokeLineageRows]
    exact List.mem_map_of_mem replays.stored
  · rw [faultFree]
    exact transact_commits ran

end TokenSystem

/-! ## A token of a replayed lineage -/

namespace Sample

/-- The credential that was issued first, before its rotation. -/
def fresh : RefreshCredential :=
  rootCredential alice.id issueCall.scopes issueCall.clientLabel 0 (draws 1)

/-- The access token that the rotation signs. -/
def accessToken : AccessToken :=
  accessTokenFor (successor fresh 1 (draws 2)) (draws 2).accessTokenID 1

/-- A signer whose decoder knows the claims of that token. -/
def knowing : AccessTokenSigner := signer [claimsOf accessToken]

/-- The state after the first `Issue`. -/
def issued : TokenSystem MemoryStore :=
  ((initial owners new 0).issue knowing issueCall).2

theorem exchangeCall_timely (token child : UInt8) (now : Int) :
    (TokenEvent.exchange (exchangeCall token child now)).Timely where
  afterStart _ := le_refl now
  beforeEnd _ := le_refl now
  ordered _ := le_refl now

theorem rotation_mints : ∃ pair, pair.lineageID = fresh.lineageID ∧
      Mints knowing issued (.exchange (exchangeCall 1 2 1)) accessToken pair := by
  have returned : (issued.exchange knowing (exchangeCall 1 2 1)).1.toOption.map
      (·.lineageID) = some fresh.lineageID := by
    decide +kernel
  cases outcome : (issued.exchange knowing (exchangeCall 1 2 1)).1 with
  | error failure =>
    rw [outcome] at returned
    cases returned
  | ok pair =>
    rw [outcome] at returned
    refine ⟨pair, Option.some.inj returned, ?_⟩
    have parsed : parseRefreshToken (exchangeCall 1 2 1).presented =
        .ok (fresh.id, (draws 1).secret.val) := by
      decide +kernel
    have stored : fresh ∈ issued.state.tables.refreshCredentials := by
      decide +kernel
    exact .exchange parsed stored outcome

theorem accessToken_faithful : knowing.codec.Faithful (claimsOf accessToken) := by
  have known : knowing.codec.unmarshal? (knowing.codec.marshal
      (claimsOf accessToken)) = some (claimsOf accessToken) := by
    decide +kernel
  intro decoded read
  rw [known] at read
  cases read
  exact ⟨rfl, rfl⟩

/-- The rows the replay of the first token reads back. -/
def burnedRows : List RefreshCredential :=
  ((rotated knowing).state.tables.revokeLineageRows consumed.ownerID
    consumed.lineageID 2).lineageRows consumed.ownerID consumed.lineageID

theorem consumed_burns : (exchangeCall 1 3 2).Burns knowing
    (rotated knowing).state.tables burnedRows :=
  burns_of_replays (rotated_reachable _).populated rfl (consumed_replayed (by decide +kernel))
    ⟨alice, by decide +kernel, by decide⟩

end Sample

open Sample AccessTokenSigner

/-- The access token a rotation returned dies when the token it consumed is
replayed. -/
theorem tokenDies_sample : ∃ pair,
    Mints knowing issued (.exchange (exchangeCall 1 2 1)) accessToken pair ∧
    TokenDies knowing (rotated knowing) (exchangeCall 1 3 2) accessToken pair := by
  obtain ⟨pair, lineage, mints⟩ := rotation_mints
  refine ⟨pair, mints, ?_⟩
  have rotation : Step knowing issued (.exchange (exchangeCall 1 2 1)) (rotated knowing) :=
    .exchange (by decide : (0 : Int) ≤ 1) (le_refl _)
  refine tokenDies_of_burns (.tail .refl ⟨.issue issueCall, trivial, .issue (le_refl _)⟩)
    (exchangeCall_timely 1 2 1) rotation mints .refl
    (by decide : (1 : Int) ≤ 2) (exchangeCall_timely 1 3 2)
    consumed_burns ?_ ?_ ?_ accessToken_faithful
  · rw [lineage]
    decide +kernel
  · decide +kernel
  · have distinct : ∀ credential ∈ (((rotated knowing).exchange
          knowing (exchangeCall 1 3 2)).2.state.tables.refreshCredentials).rows,
        ∀ other ∈ (((rotated knowing).exchange knowing
          (exchangeCall 1 3 2)).2.state.tables.refreshCredentials).rows,
        credentialKey credential.id = credentialKey other.id →
        credential.id = other.id := by
      decide +kernel
    exact distinct

/-- What is accepted is what was signed, within its times in whole seconds. -/
theorem verify_ok_iff_issued {signer : AccessTokenSigner} (calls : Set AccessToken)
    (presented : GoString) (now : Int)
    (roundTrips : ∀ token, signer.Issued calls token →
      signer.codec.unmarshal? (signer.codec.marshal (claimsOf token)) = some (claimsOf token))
    (unforgeable : ∀ encoded, signer.Carries presented encoded →
      ∃ token, signer.Issued calls token ∧ encoded = signer.encodedClaims token) :
    (∀ verified, signer.verify presented now = .ok verified ↔
      ∃ token, signer.Issued calls token ∧ signer.Carries presented (signer.encodedClaims token) ∧
        (floored token).issuedAt ≤ now ∧ now < (floored token).expiresAt ∧
        verified = floored token) ∧
    ∀ token, signer.Issued calls token → signer.Carries presented (signer.encodedClaims token) →
      (token.expiresAt ≤ now → ∀ verified, signer.verify presented now ≠ .ok verified) ∧
      (token.issuedAt ≤ now → now ≤ token.expiresAt - Duration.second →
        signer.verify presented now = .ok (floored token)) := by
  have verdict : ∀ token, signer.Issued calls token →
      signer.Carries presented (signer.encodedClaims token) →
      signer.verify presented now =
        if now < (floored token).issuedAt ∨ ¬ now < (floored token).expiresAt then
          .error .authFailed
        else .ok (floored token) := by
    intro token called carries
    obtain ⟨raw, signed⟩ := called.2
    simp only [verify_of_carries now carries, roundTrips token called,
      acceptClaims_claimsOf now signed]
  refine ⟨fun verified => ⟨fun accepted => ?_, ?_⟩, fun token called carries => ⟨?_, ?_⟩⟩
  · obtain ⟨encoded, carries⟩ := carries_of_verify accepted
    obtain ⟨token, called, rfl⟩ := unforgeable encoded carries
    rw [verdict token called carries] at accepted
    split at accepted
    · cases accepted
    · rename_i inTime
      cases accepted
      exact ⟨token, called, carries, by omega, by omega, rfl⟩
  · rintro ⟨token, called, carries, begun, unexpired, rfl⟩
    rw [verdict token called carries, if_neg (by omega)]
  · intro expired verified accepted
    have late := ofUnixSeconds_unixSeconds_le token.expiresAt
    rw [verdict token called carries, if_pos (.inr (by simp only [floored]; omega))] at accepted
    cases accepted
  · intro begun early
    have late := ofUnixSeconds_unixSeconds_le token.issuedAt
    have within := Int.lt_ediv_add_one_mul_self token.expiresAt
      (by decide : (0 : Int) < Duration.second)
    rw [Int.add_mul, Int.one_mul] at within
    rw [verdict token called carries, if_neg]
    simp only [floored, ofUnixSeconds, unixSeconds] at late ⊢
    omega

theorem verify_ok_iff_issued_sample : ∃ raw, knowing.issue accessToken = .ok raw ∧
    knowing.verify raw 2 = .ok (floored accessToken) := by
  have returned : (knowing.issue accessToken).toOption.isSome := by decide +kernel
  cases signed : knowing.issue accessToken with
  | error failure =>
    rw [signed] at returned
    cases returned
  | ok raw =>
    have called : knowing.Issued {accessToken} accessToken := ⟨rfl, raw, signed⟩
    refine ⟨raw, rfl, ((verify_ok_iff_issued {accessToken} raw 2 ?_ ?_).2 _ called
      (AccessTokenSigner.issue_ok signed).2.2).2 (by decide +kernel) (by decide +kernel)⟩
    · rintro token ⟨rfl, _⟩
      decide +kernel
    · exact fun encoded carries =>
        ⟨_, called, carries.unique (AccessTokenSigner.issue_ok signed).2.2⟩

end Vallet.Auth
