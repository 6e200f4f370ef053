import Vallet.Auth.EnrollmentProtocol

/-!
# What enrollment programs do

Each program is followed statement by statement.  A failed attempt leaves no
trace but that of a fault, which is what makes the answer of a `Redeem` tell
whether it consumed its pairing or took its lineage back.
-/

namespace Vallet.Auth

open Counter Effects Relational DevicePairingRepository

/-- The program performs only acts the call permits, and ends as described. -/
def EnrollmentCall.Follows {α : Type} (call : EnrollmentCall) (reaches : PairingTrail → α → Prop)
    (program : Program EnrollmentStatement α) (trail : PairingTrail) : Prop :=
  program.Obeys enrollmentLabelling call.Permits reaches trail

/-- A failure leaves at most the mark of a fault; a success is described. -/
def Attempts {ε α : Type} (trail : PairingTrail)
    (success : PairingTrail → α → Prop) (reached : PairingTrail) :
    Except ε α → Prop
  | .ok value => success reached value
  | .error _ => reached = trail ∨ reached = trail.record .faulted

/-- A success leaves no mark at all. -/
abbrev Silent {ε α : Type} (trail : PairingTrail) : PairingTrail → Except ε α → Prop :=
  Attempts trail fun reached _ => reached = trail

namespace EnrollmentCall

variable {call : EnrollmentCall} {trail : PairingTrail} {ε ε' α β γ : Type}

/-! ## Rules -/

variable {reaches : PairingTrail → α → Prop}
  {program : Program EnrollmentStatement α} {act : PairingAct}
  {pairing : DevicePairing} {redemption : RedeemCall}

theorem Follows.bind {concludes : PairingTrail → β → Prop}
    {continuation : α → Program EnrollmentStatement β} (first : call.Follows reaches program trail)
    (second : ∀ reached value, reaches reached value →
      call.Follows concludes (continuation value) reached) :
    call.Follows concludes (program >>= continuation) trail :=
  Program.Obeys.bind first second

/-- A program whose end is of no interest. -/
def Lawful (call : EnrollmentCall) (program : Program EnrollmentStatement α)
    (trail : PairingTrail) : Prop :=
  call.Follows (fun _ _ => True) program trail

theorem Follows.lawful (follows : call.Follows reaches program trail) : call.Lawful program trail :=
  Program.Obeys.mono follows fun _ _ _ => trivial

/-- An attempt after an attempt that passes failures on. -/
theorem Follows.andThen {success : PairingTrail → α → Prop} {success' : PairingTrail → β → Prop}
    {program : Program EnrollmentStatement (Except ε α)}
    {continuation : Except ε α → Program EnrollmentStatement (Except ε' β)}
    (first : call.Follows (Attempts trail success) program trail)
    [fails : ∀ failure, Program.Fails (continuation (.error failure))]
    (succeeds : ∀ reached value, success reached value →
      call.Follows (Attempts trail success') (continuation (.ok value)) reached) :
    call.Follows (Attempts trail success') (program >>= continuation) trail := by
  refine first.bind fun reached value reaches => ?_
  cases value with
  | error failure =>
    obtain ⟨passed, stops⟩ := (fails failure).reports
    rw [stops]
    exact reaches
  | ok value => exact succeeds reached value reaches

theorem lawful_done {value : α} : call.Lawful (.done value) trail := trivial

/-- A call that gives up when an attempt fails. -/
theorem Follows.andThenLawful {success : PairingTrail → α → Prop}
    {program : Program EnrollmentStatement (Except ε α)}
    {continuation : Except ε α → Program EnrollmentStatement (Except ε' β)}
    (first : call.Follows (Attempts trail success) program trail)
    [fails : ∀ failure, Program.Fails (continuation (.error failure))]
    (succeeds : ∀ reached value, success reached value →
      call.Lawful (continuation (.ok value)) reached) :
    call.Lawful (program >>= continuation) trail := by
  refine first.bind fun reached value reaches => ?_
  cases value with
  | error failure =>
    obtain ⟨passed, stops⟩ := (fails failure).reports
    rw [stops]
    exact lawful_done
  | ok value => exact succeeds reached value reaches

theorem follows_done {value : α} (ends : reaches trail value) :
    call.Follows reaches (.done value) trail :=
  ends

/-- A statement, and what follows each of its replies. -/
theorem follows_answer (statement : EnrollmentStatement β)
    {next : Except Fault β → Program EnrollmentStatement α}
    (onFault : ∀ fault, call.Follows reaches (next (.error fault)) (trail.record .faulted))
    (onAnswer : ∀ answer, call.Permits trail (statement.act (.ok answer)) ∧
      call.Follows reaches (next (.ok answer)) (trail.record (statement.act (.ok answer)))) :
    call.Follows reaches (Program.ask statement >>= next) trail := by
  intro reply
  cases reply with
  | error fault => cases statement <;> exact ⟨trivial, onFault fault⟩
  | ok answer => exact onAnswer answer

/-- A statement that performs the same permitted act whatever its answer. -/
theorem follows_ask (statement : EnrollmentStatement β)
    (acts : ∀ answer, statement.act (.ok answer) = act) (permitted : call.Permits trail act) :
    call.Follows (Attempts trail fun reached _ => reached = trail.record act)
      (Program.ask statement) trail := by
  intro reply
  cases reply with
  | error fault => cases statement <;> exact ⟨trivial, Or.inr rfl⟩
  | ok answer =>
    refine ⟨?_, ?_⟩
    · simpa only [enrollmentLabelling, acts] using permitted
    · simp only [enrollmentLabelling, acts]
      rfl

theorem follows_silent (statement : PairingStatement β)
    (quiet : ∀ answer, statement.act answer = .quiet) :
    call.Follows (Silent trail) (askPairing statement) trail :=
  follows_ask (.right statement) quiet trivial

theorem follows_row {statement : PairingStatement (Option γ)}
    (quiet : ∀ answer, statement.act answer = .quiet) :
    call.Follows (Silent trail) (do
      return rowOrNotFound (← askPairing statement)) trail := by
  refine (follows_silent statement quiet).bind
    fun reached reply reaches => follows_done ?_
  cases reply with
  | error fault => exact reaches
  | ok answer =>
    cases answer with
    | none => exact .inl reaches
    | some row => exact reaches

/-! ## Repositories -/

theorem follows_insertLink (link : LinkedIdentity) :
    call.Follows (Silent trail) (LinkedIdentityRepository.create link) trail := by
  refine (follows_silent (.insertLink link) fun _ => rfl).bind
    fun reached reply reaches => follows_done ?_
  cases reply with
  | error fault => exact reaches
  | ok answer =>
    cases answer with
    | inserted => exact reaches
    | duplicateKey | constraintFailed => exact .inl reaches

theorem follows_link (id : PairingID) (ownerID : OwnerID) (now : Int) :
    call.Follows (Silent trail) (link id ownerID now) trail := by
  refine (follows_insertLink _).andThen ?_
  rintro reached value rfl
  exact follows_done rfl

/-- A conditional update performs its act when it succeeds and nothing when
it fails. -/
theorem follows_conditional {statement : PairingStatement Nat}
    {statusOf : PairingStatement (Option PairingStatus)}
    (acts : ∀ affected, statement.act affected =
      if affected > 0 then act else .quiet) (quiet : ∀ answer, statusOf.act answer = .quiet)
    (permitted : call.Permits trail act) :
    call.Follows (Attempts trail fun reached _ => reached = trail.record act) (do
        classify (← askPairing statement) statusOf)
      trail := by
  refine follows_answer (.right statement) (fun fault => follows_done (.inr rfl)) ?_
  intro affected
  rw [EnrollmentStatement.act, acts]
  by_cases changed : affected > 0
  · rw [if_pos changed, classify, if_pos changed]
    exact ⟨permitted, follows_done rfl⟩
  · rw [if_neg changed, classify, if_neg changed]
    refine ⟨trivial, ?_⟩
    refine (follows_silent statusOf quiet).andThen ?_
    rintro reached value rfl
    cases value with
    | none | some => exact follows_done (.inl rfl)

/-! ## Calls -/

/-- A created pairing is marked; a refused insert leaves nothing. -/
theorem follows_create {userCode : GoString} {now : Int} {draws : PairingDraws}
    (permitted : call.Permits trail (.created (newPairing pairing now draws))) :
    call.Follows
      (Attempts trail fun reached grant => reached =
        trail.record (.created (newPairing pairing now draws)) ∧
          grant.pairingID = newPairingID draws.id)
      (create pairing userCode now draws) trail := by
  refine follows_answer (.right (.insertPairing _))
    (fun fault => follows_done (.inr rfl)) fun answer => ?_
  cases answer with
  | inserted => exact ⟨permitted, follows_done ⟨rfl, rfl⟩⟩
  | duplicateKey | constraintFailed => exact ⟨trivial, follows_done (.inl rfl)⟩

theorem lawful_startDeviceGrant (start : StartDeviceGrantCall) :
    (startDeviceGrant start).Lawful (Auth.startDeviceGrant start) {} := by
  unfold Auth.startDeviceGrant
  split
  · exact lawful_done
  · exact lawful_done
  · refine (follows_create ?_).lawful
    exact ⟨rfl, rfl, rfl, rfl, .inl ⟨rfl, rfl⟩⟩

theorem lawful_mint (minting : MintCall) : (mint minting).Lawful (mintPairing minting) {} := by
  unfold mintPairing
  split
  · exact lawful_done
  rename_i named
  split
  · exact lawful_done
  · exact lawful_done
  · have nonempty : minting.ownerID ≠ [] := by simpa using named
    have permitted : (mint minting).Permits {} (.created (newPairing
        (mintedPairing minting.ownerID minting.clientLabel minting.scopes
          minting.approved) minting.now minting.draws)) :=
      ⟨rfl, rfl, rfl, rfl, .inr ⟨rfl, nonempty, .inl ⟨minting, rfl, rfl⟩⟩⟩
    exact (follows_create permitted).andThenLawful fun _ _ _ =>
      (follows_link _ _ _).andThenLawful fun _ _ _ => lawful_done

theorem follows_checkApprovalLimit (ownerID : OwnerID) (limiter : StoreCall) :
    call.Follows (Silent trail) (checkApprovalLimit ownerID limiter) trail := by
  refine (follows_silent (.increment _ _ _ limiter) fun _ => rfl).andThen ?_
  rintro reached counted rfl
  cases counted with
  | error failure => exact follows_done (.inl rfl)
  | ok count =>
    simp only
    split
    · exact follows_done (.inl rfl)
    · exact follows_done rfl

theorem follows_getByUserCodeHash (hash : List UInt8) :
    call.Follows (Silent trail) (getByUserCodeHash hash) trail := by
  unfold getByUserCodeHash
  split
  · exact follows_done (.inl rfl)
  · exact follows_row fun _ => rfl

theorem lawful_approve (approval : ApproveCall) :
    (approve approval).Lawful (Auth.approve approval) {} := by
  unfold Auth.approve
  split
  · exact lawful_done
  rename_i named
  refine (follows_checkApprovalLimit _ _).andThenLawful ?_
  rintro _ _ rfl
  simp only
  split
  · exact lawful_done
  refine (follows_getByUserCodeHash _).andThenLawful ?_
  rintro _ pairing rfl
  simp only [approveRead]
  split
  · exact lawful_done
  split
  · exact lawful_done
  have permitted : (approve approval).Permits {}
      (.approved pairing.id approval.ownerID approval.now) :=
    ⟨rfl, by simpa using named, .inr ⟨approval, rfl, rfl⟩⟩
  exact (follows_conditional (fun _ => rfl) (fun _ => rfl) permitted).andThenLawful
    fun _ _ _ => (follows_link _ _ _).andThenLawful fun _ _ _ => lawful_done

theorem follows_touch (id : PairingID) (nextPollAt : Int) :
    call.Follows (Silent trail) (touch id nextPollAt) trail := by
  refine (follows_silent (.updateNextPollAt id nextPollAt)
    fun _ => rfl).andThen ?_
  rintro reached affected rfl
  simp only
  split
  · exact follows_done (.inl rfl)
  · exact follows_done rfl

theorem lawful_poll (polling : PollCall) : call.Lawful (Auth.poll polling) trail := by
  unfold Auth.poll
  split
  · exact lawful_done
  refine (follows_row fun _ => rfl).andThenLawful fun _ pairing _ => ?_
  simp only [pollMatched]
  split
  · exact lawful_done
  split
  · exact lawful_done
  split
  · exact lawful_done
  split
  · exact (follows_touch _ _).bind fun _ _ _ => lawful_done
  refine (follows_touch _ _).andThenLawful fun _ _ _ => ?_
  simp only
  split
  · exact lawful_done
  split <;> exact lawful_done

theorem lawful_deleteExpired (cutoff limit : Int) :
    call.Lawful (DevicePairingRepository.deleteExpired cutoff limit) trail := by
  unfold DevicePairingRepository.deleteExpired
  split
  · exact lawful_done
  exact (follows_silent _ fun _ => rfl).andThenLawful fun _ _ _ => lawful_done

theorem follows_providerAuthenticate (deviceCode : GoString) (now : Int) :
    call.Follows (Silent trail) (providerAuthenticate deviceCode now) trail := by
  unfold providerAuthenticate
  split
  · exact follows_done (.inl rfl)
  rename_i id secret parsed
  refine (follows_row fun _ => rfl).bind fun reached reply reaches => ?_
  cases reply with
  | error failure =>
    simp only
    split <;> exact follows_done reaches
  | ok pairing =>
    simp only
    iterate 5
      split
      · exact follows_done (.inl reaches)
    exact follows_done reaches

theorem follows_getOwner (id : OwnerID) :
    call.Follows (Silent trail) (onCredentials (OwnerRepository.get id)) trail := by
  refine follows_answer (.left (.selectOwner id))
    (fun fault => follows_done (.inr rfl)) fun answer => ⟨trivial, ?_⟩
  cases answer with
  | none => exact follows_done (.inl rfl)
  | some owner => exact follows_done rfl

theorem follows_resolveIdentity (principal : GoString) :
    call.Follows (Silent trail) (resolveIdentity principal) trail := by
  refine (follows_row fun _ => rfl).andThen ?_
  rintro reached identity rfl
  simp only
  split
  · exact follows_done (.inl rfl)
  split
  · exact follows_done (.inl rfl)
  refine (follows_getOwner _).andThen ?_
  rintro reached owner rfl
  simp only
  split
  · exact follows_done (.inl rfl)
  split
  · exact follows_done (.inl rfl)
  · exact follows_done rfl

theorem follows_authenticate (deviceCode : GoString) (now : Int) :
    call.Follows (Silent trail) (authenticate deviceCode now) trail := by
  refine (follows_providerAuthenticate _ _).andThen ?_
  rintro reached principal rfl
  simp only
  split
  · exact follows_done (.inl rfl)
  · exact follows_resolveIdentity principal

theorem follows_get (ownerID : OwnerID) (id : PairingID) (unread : trail.read = none) :
    call.Follows
      (Attempts trail fun reached pairing =>
        reached = trail.record (.read pairing))
      (get ownerID id) trail := by
  refine follows_answer (.right (.select ownerID id))
    (fun fault => follows_done (.inr rfl)) fun answer => ?_
  cases answer with
  | none => exact ⟨trivial, follows_done (.inl rfl)⟩
  | some pairing => exact ⟨unread, follows_done rfl⟩

/-- A new lineage has been started for the pair that was issued. -/
def IssuedFrom (trail : PairingTrail) (ownerID : OwnerID)
    (scopes : List Scope) (reached : PairingTrail) (issued : Issued) : Prop :=
  ∃ root, reached = trail.record (.minted root) ∧ root.ownerID = ownerID ∧
    issued.ownerID = ownerID ∧ issued.scopes = scopes ∧
    issued.lineageID = root.lineageID

variable (signer : AccessTokenSigner)

/-- A failed `Issue` creates nothing, since what it has checked is all that
minting could fail on. -/
theorem follows_issue (ownerID : OwnerID) (scopes : List Scope) (clientLabel : GoString) (now : Int)
    (draws : Draws) (unminted : trail.minted = none) (unburned : trail.burned = none) :
    call.Follows (Attempts trail (IssuedFrom trail ownerID scopes))
      (onCredentials (issue signer ownerID scopes clientLabel now draws))
      trail := by
  unfold issue
  split
  · exact follows_done (.inl rfl)
  rename_i named
  split
  · exact follows_done (.inl rfl)
  · exact follows_done (.inl rfl)
  rename_i validScopes _
  have nonempty : ownerID ≠ [] := by simpa using named
  have returns : Attempts trail (IssuedFrom trail ownerID scopes)
      (trail.record (.minted (rootCredential ownerID scopes clientLabel now draws)))
      (Auth.mint signer (rootCredential ownerID scopes clientLabel now draws) draws now) := by
    obtain ⟨issued, minted⟩ := mint_rootCredential signer clientLabel now draws nonempty validScopes
    obtain ⟨_, _, owner, lineage, sameScopes⟩ := mint_ok minted
    rw [minted]
    exact ⟨_, rfl, rfl, owner, sameScopes, lineage⟩
  refine follows_answer (.left (.insert _)) (fun fault => follows_done (.inr rfl)) fun answer => ?_
  cases answer with
  | duplicateKey | constraintFailed => exact ⟨trivial, follows_done (.inl rfl)⟩
  | inserted =>
    exact ⟨⟨unminted, unburned, _, _, _, _, _, rfl, nonempty, validScopes⟩, follows_done returns⟩

/-- The compensation marks the lineage, unless a fault is marked. -/
theorem follows_revokePairingLineage (ownerID : OwnerID)
    (lineageID : LineageID) (now : Int) (calls : Nat → StoreCall) (unburned : trail.burned = none) :
    call.Follows
      (fun reached _ => reached.redeemed = trail.redeemed ∧ reached.minted = trail.minted ∧
        (reached.faulted = false → reached.burned = some (ownerID, lineageID)))
      (revokePairingLineage ownerID lineageID now calls) trail := by
  have listing : ∀ (reached : PairingTrail) (rows : List RefreshCredential),
      reached.redeemed = trail.redeemed → reached.minted = trail.minted →
      (reached.faulted = false → reached.burned = some (ownerID, lineageID)) →
      call.Follows (fun reached _ => reached.redeemed = trail.redeemed ∧
          reached.minted = trail.minted ∧
          (reached.faulted = false → reached.burned = some (ownerID, lineageID))) (do
          let _ ← askPairing (.listRevoked rows now calls)
          return ()) reached := by
    intro reached rows redeemed minted burned
    exact follows_answer (.right (.listRevoked rows now calls))
      (fun fault => follows_done ⟨redeemed, minted, by
        simp [PairingTrail.record]⟩)
      fun answer => ⟨trivial, follows_done ⟨redeemed, minted, burned⟩⟩
  refine follows_answer (.left (.updateLineageRevoked ownerID lineageID now))
    (fun fault => listing _ [] rfl rfl (by simp [PairingTrail.record]))
    fun affected => ⟨unburned, ?_⟩
  refine follows_answer (.left (.selectLineage ownerID lineageID))
    (fun fault => listing _ [] rfl rfl (by simp [PairingTrail.record]))
    fun rows => ⟨trivial, ?_⟩
  exact listing _ rows rfl rfl fun _ => rfl

/-- After a failure that left at most a fault behind, nothing was minted. -/
theorem concludes_failure {reached : PairingTrail} {failure : Err}
    (unminted : trail.minted = none) (unredeemed : trail.redeemed = none)
    (reaches : reached = trail ∨ reached = trail.record .faulted) :
    (redeem redemption).Concludes reached (.error failure) := by
  refine ⟨by rcases reaches with rfl | rfl <;> exact unredeemed, ?_⟩
  intro _ root minted
  have same : reached.minted = trail.minted := by
    rcases reaches with rfl | rfl <;> rfl
  rw [same, unminted] at minted
  cases minted

theorem follows_consume {ownerID : OwnerID} {id : PairingID}
    {root : RefreshCredential} {issued : Issued}
    (redeems : (redeem redemption).Redeems id) (pairingID : pairing.id = id)
    (pairingOwner : pairing.ownerID = ownerID) (rootOwner : root.ownerID = ownerID)
    (lineage : issued.lineageID = root.lineageID) (owner : issued.ownerID = ownerID)
    (scopes : issued.scopes = pairing.scopes) :
    (redeem redemption).Follows
      (fun reached answer => (redeem redemption).Concludes reached
        (answer.map .tokens)) (consume redemption ownerID id issued)
      { read := some pairing, minted := some root } := by
  have permitted : (redeem redemption).Permits { read := some pairing, minted := some root }
      (.redeemed id ownerID issued.lineageID redemption.now) :=
    ⟨rfl, redeems, root, rfl, rootOwner, lineage.symm⟩
  refine (follows_conditional (fun _ => rfl) (fun _ => rfl) permitted).bind
    fun reached consumed reaches => ?_
  cases consumed with
  | ok _ =>
    cases reaches
    subst pairingID pairingOwner
    exact follows_done ⟨pairing, rfl, rfl, owner, scopes⟩
  | error failure =>
    have unburned : reached.burned = none := by
      rcases reaches with rfl | rfl <;> rfl
    have minted : reached.minted = some root := by
      rcases reaches with rfl | rfl <;> rfl
    have unredeemed : reached.redeemed = none := by
      rcases reaches with rfl | rfl <;> rfl
    refine (follows_revokePairingLineage ownerID issued.lineageID _ _
      unburned).bind fun compensated _ ⟨sameRedeemed, sameMinted, burned⟩ =>
        follows_done ⟨sameRedeemed.trans unredeemed, ?_⟩
    intro unfaulted other otherMinted
    rw [sameMinted, minted] at otherMinted
    cases otherMinted
    rw [burned unfaulted, rootOwner, lineage]

theorem follows_redeem (redemption : RedeemCall) :
    (redeem redemption).Follows
      (fun reached answer => (redeem redemption).Concludes reached (answer.map .tokens))
      (Auth.redeem signer redemption) {} := by
  unfold Auth.redeem
  split
  · exact follows_done (concludes_failure rfl rfl (.inl rfl))
  rename_i id secret parsed
  refine (follows_authenticate _ _).bind fun reached authenticated reaches => ?_
  cases authenticated with
  | error failure => exact follows_done (concludes_failure rfl rfl reaches)
  | ok ownerID =>
    cases reaches
    refine (follows_get ownerID id rfl).bind fun reached read reaches => ?_
    cases read with
    | error failure => exact follows_done (concludes_failure rfl rfl reaches)
    | ok pairing =>
      cases reaches
      simp only
      split
      · exact follows_done (concludes_failure rfl rfl (.inl rfl))
      rename_i same
      split
      · exact follows_done (concludes_failure rfl rfl (.inl rfl))
      refine (follows_issue signer ownerID _ _ _ _ rfl rfl).bind
        fun reached answer reaches => ?_
      cases answer with
      | error failure => exact follows_done (concludes_failure rfl rfl reaches)
      | ok issued =>
        obtain ⟨root, rfl, rootOwner, owner, scopes, lineage⟩ := reaches
        simp only [not_or, Decidable.not_not] at same
        exact follows_consume ⟨redemption, secret, rfl, parsed⟩ same.1
          same.2 rootOwner lineage owner scopes

theorem lawful_revoke (revocation : RevokePairingCall) :
    (revoke revocation).Lawful (revokePairing revocation) {} := by
  unfold revokePairing
  split
  · exact lawful_done
  refine (follows_get _ _ rfl).andThenLawful ?_
  rintro _ pairing rfl
  simp only
  split
  · exact lawful_done
  have permitted : (revoke revocation).Permits { read := some pairing }
      (.revoked revocation.id revocation.ownerID revocation.now) :=
    trivial
  refine (follows_conditional (fun _ => rfl) (fun _ => rfl) permitted).andThenLawful ?_
  rintro _ _ rfl
  simp only
  split
  · exact (follows_revokePairingLineage _ _ _ _ rfl).bind fun _ _ _ => lawful_done
  · exact lawful_done

/-- Every call performs only what it permits, and its answer fits. -/
theorem follows_program (call : EnrollmentCall) :
    call.Follows call.Concludes (call.program signer) {} := by
  cases call with
  | startDeviceGrant start =>
    exact (lawful_startDeviceGrant start).bind fun _ _ _ =>
      follows_done trivial
  | mint minting => exact (lawful_mint minting).bind fun _ _ _ => follows_done trivial
  | approve approval => exact (lawful_approve approval).bind fun _ _ _ => follows_done trivial
  | redeem redemption =>
    exact (follows_redeem signer redemption).bind
      fun _ _ concludes => follows_done concludes
  | revoke revocation => exact (lawful_revoke revocation).bind fun _ _ _ => follows_done trivial
  | poll polling => exact (lawful_poll polling).bind fun _ _ _ => follows_done trivial
  | deleteExpired sweep => exact (lawful_deleteExpired _ _).bind fun _ _ _ => follows_done trivial

end EnrollmentCall

end Vallet.Auth
