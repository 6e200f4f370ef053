import Vallet.Auth.Authorization
import Vallet.Auth.LineageSafety
import Vallet.RateLimit.Limiter

/-!
# The budget of the management routes

A management request is authorized first and then counted against the refresh
credential its access token was minted from.  Every rotation of a lineage
creates a credential with a budget of its own, so the bound of two limits for
each window holds for a lineage only as long as its requests stick to one
credential.
-/

namespace Vallet.Transport

open Auth Counter FixedWindow RateLimit Relational MemoryStore TokenSystem

/-! ## The middleware -/

/-- A tier of the configuration file. -/
structure ConfigTier where
  requests : Int
  window : Int

/-- A value that is not positive leaves the default in place. -/
def applyTier (default : Tier) (configured : ConfigTier) : Tier :=
  { default with
    limit :=
      if 0 < configured.requests then configured.requests else default.limit
    window :=
      if 0 < configured.window then configured.window else default.window }

def defaultManagementTier : Tier where
  limit := 120
  window := Duration.minute
  failOpen := false

def tierManagement : String := "mgmt"

/-- `enabled` is the switch of all tiers; without it nothing is mounted. -/
def newManagementLimiter (enabled : Bool) (configured : ConfigTier) : Option Limiter :=
  if enabled then
    (newLimiter tierManagement (applyTier defaultManagementTier configured)).toOption
  else none

/-- The outage policy is not configurable. -/
theorem newManagementLimiter_failsClosed {enabled : Bool}
    {configured : ConfigTier} {limiter : Limiter}
    (built : newManagementLimiter enabled configured = some limiter) :
    limiter.tier.failOpen = false := by
  unfold newManagementLimiter at built
  split at built
  · unfold newLimiter at built
    split at built
    · cases built
    split at built
    · cases built
    · cases built
      rfl
  · cases built

/-- What the middleware does with an authorized request. -/
inductive Admission where
  | next
  | rateLimited (decision : Decision)
deriving DecidableEq, Repr

def managementRateLimit {σ : Type} [CounterStore σ] (limiter : Option Limiter)
    (store : σ) (call : StoreCall) (authorization : Authorization) : Admission × σ :=
  match limiter with
  | none => (.next, store)
  | some limiter =>
    if authorization.credential.isEmpty then
      (.rateLimited
        { allowed := false, retryAfter := limiter.tier.window }, store)
    else
      let decided := limiter.allow store call authorization.credential
      if !decided.1.1.allowed then
        (.rateLimited decided.1.1, decided.2)
      else
        (.next, decided.2)

/-! ## Runs -/

/-- A request and the clock readings it sees on its way to the handler. -/
structure ManagementRequest where
  presented : GoString
  access : Access
  now : Int
  denylistCall : StoreCall
  limiterCall : StoreCall

/-- A request that reached its handler. -/
structure Served where
  credentialID : RefreshCredentialID
  lineage : Option LineageID
  time : Int
deriving DecidableEq, Repr

/-- The token service, the store behind the limiters, and what was served. -/
structure ManagementSystem where
  tokens : TokenSystem MemoryStore
  limits : MemoryStore
  served : List Served

/-- The lineage of a stored credential. -/
def lineageOf? (tables : CredentialTables) (id : RefreshCredentialID) : Option LineageID :=
  (tables.refreshCredentials.find? id).map (·.lineageID)

/-- An event of the token service, or a request. -/
inductive ManagementEvent where
  | token (event : TokenEvent)
  | request (request : ManagementRequest)

namespace ManagementSystem

/-- `Protect` around the management tier. -/
def request (signer : AccessTokenSigner) (limiter : Limiter)
    (request : ManagementRequest) (system : ManagementSystem) : ManagementSystem :=
  let authorized := Guard.authorize signer system.tokens.state.denylist
    request.denylistCall request.presented request.access request.now
  let tokens : TokenSystem MemoryStore :=
    { state := { system.tokens.state with denylist := authorized.2 }
      clock := request.limiterCall.now }
  match authorized.1 with
  | .error _ => { system with tokens }
  | .ok authorization =>
    let admission := managementRateLimit (some limiter) system.limits
      request.limiterCall authorization
    match admission.1 with
    | .rateLimited _ => { system with tokens, limits := admission.2 }
    | .next =>
      { tokens
        limits := admission.2
        served :=
          { credentialID := authorization.credential
            lineage := lineageOf? system.tokens.state.tables authorization.credential
            time := request.limiterCall.now } :: system.served }

inductive Step (signer : AccessTokenSigner) (limiter : Limiter) :
    ManagementSystem → ManagementEvent → ManagementSystem → Prop where
  | token {system : ManagementSystem} {event : TokenEvent}
      {tokens : TokenSystem MemoryStore}
      (step : TokenSystem.Step signer system.tokens event tokens) :
      Step signer limiter system (.token event) { system with tokens }
  | request {system : ManagementSystem} {request : ManagementRequest}
      (order : system.tokens.clock ≤ request.now)
      (denylistOrder : request.now ≤ request.denylistCall.now)
      (limiterOrder : request.denylistCall.now ≤ request.limiterCall.now) :
      Step signer limiter system (.request request) (system.request signer limiter request)

def RunsWhere (signer : AccessTokenSigner) (limiter : Limiter)
    (condition : ManagementSystem → ManagementEvent → Prop) :
    ManagementSystem → ManagementSystem → Prop :=
  Relation.ReflTransGen fun before after =>
    ∃ event, condition before event ∧ Step signer limiter before event after

def initial (owners : Table Owner.id) (denylist : MemoryStore) (clock : Int) :
    ManagementSystem where
  tokens := .initial owners denylist clock
  limits := .new
  served := []

/-- When requests of a lineage were served. -/
def servedAt (system : ManagementSystem) (lineageID : LineageID) : List Int :=
  (system.served.filter fun record =>
    decide (record.lineage = some lineageID)).map (·.time)

/-- No lineage was served more than two limits in any stretch as long as a
window. -/
def WithinBudget (limiter : Limiter) (system : ManagementSystem) : Prop :=
  ∀ lineageID since,
    between since (since + limiter.tier.window) (system.servedAt lineageID) ≤
      2 * limiter.tier.limit

/-- A request carries a token of the credential that every request of the same
lineage carried that was served during the window before it. -/
def SameCredential (signer : AccessTokenSigner) (limiter : Limiter)
    (system : ManagementSystem) : ManagementEvent → Prop
  | .token _ => True
  | .request request =>
    ∀ token, signer.verify request.presented request.now = .ok token →
      ∀ record ∈ system.served, record.lineage ≠ none →
        record.lineage = lineageOf? system.tokens.state.tables token.refreshCredentialID →
        request.limiterCall.now ≤ record.time + limiter.tier.window →
        record.credentialID = token.refreshCredentialID

/-- When requests with tokens of a credential were served. -/
def servedFor (system : ManagementSystem) (id : RefreshCredentialID) : List Int :=
  (system.served.filter fun record =>
    decide (record.credentialID = id)).map (·.time)

variable {signer : AccessTokenSigner} {limiter : Limiter} {before after : ManagementSystem}

/-- A request that is not authorized touches neither the limiter nor the
record; one that is authorized is counted, and recorded when it is allowed. -/
theorem request_cases (signer : AccessTokenSigner) (limiter : Limiter)
    (call : ManagementRequest) (system : ManagementSystem) :
    ((system.request signer limiter call).limits = system.limits ∧
      (system.request signer limiter call).served = system.served) ∨
    ∃ token, signer.verify call.presented call.now = .ok token ∧
      let decided := limiter.allow system.limits call.limiterCall
        token.refreshCredentialID
      (system.request signer limiter call).limits = decided.2 ∧
      (system.request signer limiter call).served =
        if decided.1.1.allowed then
          { credentialID := token.refreshCredentialID
            lineage := lineageOf? system.tokens.state.tables token.refreshCredentialID
            time := call.limiterCall.now } :: system.served
        else system.served := by
  unfold request
  cases authorized : Guard.authorize signer system.tokens.state.denylist
      call.denylistCall call.presented call.access call.now with
  | mk verdict denylist =>
    cases verdict with
    | error failure => exact .inl ⟨rfl, rfl⟩
    | ok authorization =>
      obtain ⟨token, verified, named⟩ := Guard.authorize_ok authorized
      simp only [managementRateLimit, named]
      by_cases unnamed : token.refreshCredentialID.isEmpty = true
      · simp only [unnamed, if_true]
        exact .inl ⟨trivial, trivial⟩
      · simp only [unnamed]
        refine .inr ⟨token, verified, ?_⟩
        cases (limiter.allow system.limits call.limiterCall
          token.refreshCredentialID).1.1.allowed <;> exact ⟨rfl, rfl⟩

theorem request_served {signer : AccessTokenSigner} (limiter : Limiter)
    (call : ManagementRequest) (system : ManagementSystem)
    {token : AccessToken} (valid : call.access.validate = .ok ())
    (verified : signer.verify call.presented call.now = .ok token)
    (permitted : Guard.decide system.tokens.state.denylist call.denylistCall
      token call.access = (.ok (), system.tokens.state.denylist))
    (filled : token.refreshCredentialID ≠ [])
    (allowed : (limiter.allow system.limits call.limiterCall
      token.refreshCredentialID).1.1.allowed = true) :
    system.request signer limiter call =
      { tokens := { system.tokens with clock := call.limiterCall.now }
        limits := (limiter.allow system.limits call.limiterCall
          token.refreshCredentialID).2
        served :=
          { credentialID := token.refreshCredentialID
            lineage := lineageOf? system.tokens.state.tables
              token.refreshCredentialID
            time := call.limiterCall.now } :: system.served } := by
  have authorized : Guard.authorize signer system.tokens.state.denylist
      call.denylistCall call.presented call.access call.now =
      (.ok {
        owner := token.ownerID
        tokenID := token.id
        credential := token.refreshCredentialID
        scopes := token.scopes }, system.tokens.state.denylist) := by
    simp only [Guard.authorize, valid, verified, permitted]
  have named : token.refreshCredentialID.isEmpty = false := by
    simpa using filled
  simp only [request, authorized, managementRateLimit, named, allowed,
    Bool.false_eq_true, if_false, Bool.not_true]

@[simp] theorem request_clock (signer : AccessTokenSigner) (limiter : Limiter)
    (call : ManagementRequest) (system : ManagementSystem) :
    (system.request signer limiter call).tokens.clock =
      call.limiterCall.now := by
  unfold request
  simp only
  split
  · rfl
  · split <;> rfl

/-- The limiter's store accounts for what was served, and requests of one
lineage that were served within a window of each other share a credential. -/
structure Accounted (limiter : Limiter) (system : ManagementSystem) :
    Prop where
  recorded : ∀ record ∈ system.served, record.time ≤ system.tokens.clock
  metered : ∀ id, limiter.Metered system.limits system.tokens.clock id (system.servedFor id)
  aligned : ∀ first ∈ system.served, ∀ second ∈ system.served,
    first.lineage ≠ none → first.lineage = second.lineage →
    first.time ≤ second.time + limiter.tier.window →
    second.time ≤ first.time + limiter.tier.window →
    first.credentialID = second.credentialID

theorem Accounted.later (accounted : Accounted limiter before)
    (limits : after.limits = before.limits) (served : after.served = before.served)
    (order : before.tokens.clock ≤ after.tokens.clock) :
    Accounted limiter after where
  recorded := by
    rw [served]
    exact fun record member => (accounted.recorded record member).trans order
  metered id := by
    rw [limits, servedFor, served]
    exact (accounted.metered id).later order
  aligned := by
    rw [served]
    exact accounted.aligned

theorem Accounted.allow (accounted : Accounted limiter before)
    {call : StoreCall} {id : RefreshCredentialID} {lineage : Option LineageID}
    (failsClosed : limiter.tier.failOpen = false) (order : before.tokens.clock ≤ call.now)
    (sameCredential : ∀ record ∈ before.served, record.lineage ≠ none →
      record.lineage = lineage →
      call.now ≤ record.time + limiter.tier.window → record.credentialID = id)
    (clock : after.tokens.clock = call.now)
    (limits : after.limits = (limiter.allow before.limits call id).2) (served : after.served =
      if (limiter.allow before.limits call id).1.1.allowed then
        { credentialID := id, lineage := lineage, time := call.now } ::
          before.served
      else before.served) : Accounted limiter after := by
  have past : ∀ record ∈ before.served, record.time ≤ call.now :=
    fun record member => (accounted.recorded record member).trans order
  have members : ∀ record ∈ after.served, record ∈ before.served ∨
      record = { credentialID := id, lineage := lineage, time := call.now } := by
    intro record member
    rw [served] at member
    split at member
    · exact (List.mem_cons.mp member).symm
    · exact .inl member
  constructor
  case recorded =>
    intro record member
    rw [clock]
    rcases members record member with member | rfl
    · exact past record member
    · exact le_refl _
  case metered =>
    intro other
    have metered := (accounted.metered other).later order
    rw [clock, limits, servedFor, served]
    by_cases same : other = id
    · subst other
      have counted := metered.allow failsClosed
      split
      · rename_i allowed
        simpa [allowed, servedFor] using counted
      · rename_i refused
        simpa [refused, servedFor] using counted
    · have untouched := metered.allow_of_ne same
      have elsewhere : id ≠ other := fun equal => same equal.symm
      split
      · simpa [elsewhere, servedFor] using untouched
      · exact untouched
  case aligned =>
    intro first firstMember second secondMember known sameLineage firstNear secondNear
    rcases members first firstMember with firstMember | rfl
    · rcases members second secondMember with secondMember | rfl
      · exact accounted.aligned first firstMember second secondMember known
          sameLineage firstNear secondNear
      · exact sameCredential first firstMember known sameLineage secondNear
    · rcases members second secondMember with secondMember | rfl
      · exact (sameCredential second secondMember
          (fun unknown => known (sameLineage.trans unknown)) sameLineage.symm firstNear).symm
      · rfl

theorem Step.accounted {event : ManagementEvent} (step : Step signer limiter before event after)
    (failsClosed : limiter.tier.failOpen = false)
    (sameCredential : SameCredential signer limiter before event)
    (accounted : Accounted limiter before) : Accounted limiter after := by
  cases step with
  | token step => exact accounted.later rfl rfl step.clock_le
  | @request call order denylistOrder limiterOrder =>
    have clockOrder : before.tokens.clock ≤ call.limiterCall.now :=
      order.trans (denylistOrder.trans limiterOrder)
    rcases request_cases signer limiter call before with
      ⟨limits, served⟩ | ⟨token, verified, limits, served⟩
    · refine accounted.later limits served ?_
      rw [request_clock]
      exact clockOrder
    · exact accounted.allow failsClosed clockOrder
        (sameCredential token verified) (request_clock _ _ _ _) limits served

/-- Of a lineage whose requests in a stretch share a credential, no more are
served in it than of the credential. -/
theorem Accounted.withinBudget (accounted : Accounted limiter before) :
    WithinBudget limiter before := by
  intro lineageID since
  by_cases any : ∃ record ∈ before.served, record.lineage = some lineageID ∧
      since ≤ record.time ∧ record.time ≤ since + limiter.tier.window
  · obtain ⟨chosen, member, lineage, afterSince, beforeEnd⟩ := any
    obtain ⟨_, _, budget⟩ := accounted.metered chosen.credentialID
    refine (between_filter_le ?_).trans (budget.total since)
    intro record recordMember sameLineage recordSince recordEnd
    simp only [decide_eq_true_eq] at sameLineage ⊢
    exact accounted.aligned record recordMember chosen member
      (by simp [sameLineage]) (sameLineage.trans lineage.symm) (by omega) (by omega)
  · have positive := (Tier.validate_eq_ok_iff.mp limiter.valid).1
    have nothing : between since (since + limiter.tier.window)
        (before.servedAt lineageID) = 0 := by
      apply between_eq_zero
      intro time member afterSince beforeEnd
      obtain ⟨record, selected, rfl⟩ := List.mem_map.mp member
      obtain ⟨recordMember, lineage⟩ := List.mem_filter.mp selected
      exact any ⟨record, recordMember, by simpa using lineage, afterSince, beforeEnd⟩
    omega

/-- As long as every request sticks to the credential its lineage used during
the window before it, rotations buy no budget. -/
theorem withinBudget_of_sameCredential {enabled : Bool} {configured : ConfigTier}
    (built : newManagementLimiter enabled configured = some limiter)
    (owners : Table Owner.id) (denylist : MemoryStore) (clock : Int)
    (runs : RunsWhere signer limiter (SameCredential signer limiter)
      (initial owners denylist clock) after) :
    WithinBudget limiter after := by
  have failsClosed := newManagementLimiter_failsClosed built
  suffices accounted : Accounted limiter after from accounted.withinBudget
  induction runs with
  | refl => exact ⟨by simp [initial], limiter.metered_new clock, by simp [initial]⟩
  | tail _ step induction =>
    obtain ⟨event, sameCredential, step⟩ := step
    exact step.accounted failsClosed sameCredential induction

end ManagementSystem

/-! ## Three budgets for one lineage -/

namespace Refreshing

open Auth.Sample

/-- The credentials of the lineage, in the order they are created. -/
def first : RefreshCredential :=
  rootCredential alice.id issueCall.scopes issueCall.clientLabel 0 (draws 1)

def second : RefreshCredential := successor first 1 (draws 2)

def third : RefreshCredential := successor second 2 (draws 3)

def tokenOf (credential : RefreshCredential) (byte : UInt8) (now : Int) : AccessToken :=
  accessTokenFor credential (draws byte).accessTokenID now

/-- A signer whose decoder knows the three access tokens. -/
def knowing : AccessTokenSigner :=
  signer [claimsOf (tokenOf first 1 0), claimsOf (tokenOf second 2 1),
    claimsOf (tokenOf third 3 2)]

/-- The token service after `Issue` and after each of two exchanges. -/
def issued : TokenSystem MemoryStore :=
  ((initial owners new 0).issue knowing issueCall).2

def exchanged : TokenSystem MemoryStore :=
  (issued.exchange knowing (exchangeCall 1 2 1)).2

def exchangedAgain : TokenSystem MemoryStore :=
  (exchanged.exchange knowing (exchangeCall 2 3 2)).2

/-- One request for each minute and credential. -/
def limiter : Limiter where
  name := tierManagement
  tier := applyTier defaultManagementTier { requests := 1, window := 0 }
  named := by decide
  valid := by decide

def requestWith (presented : GoString) (now : Int) : ManagementRequest where
  presented := presented
  access := {}
  now := now
  denylistCall := { now }
  limiterCall := { now }

/-- The record of a request with a token of a credential. -/
def record (credential : RefreshCredential) (time : Int) : Served where
  credentialID := credential.id
  lineage := some first.id
  time := time

def limits1 : MemoryStore :=
  (limiter.allow new { now := 0 } first.id).2

def limits2 : MemoryStore :=
  (limiter.allow limits1 { now := 1 } second.id).2

def limits3 : MemoryStore :=
  (limiter.allow limits2 { now := 2 } third.id).2

/-- Each step of the token service is followed by one request. -/
def served (presented : GoString) (now : Int) (tokens : TokenSystem MemoryStore)
    (system : ManagementSystem) : ManagementSystem :=
  ManagementSystem.request knowing limiter (requestWith presented now) { system with tokens }

def afterFirst (a : GoString) : ManagementSystem :=
  served a 0 issued (.initial owners new 0)

def afterSecond (a b : GoString) : ManagementSystem :=
  served b 1 ((afterFirst a).tokens.exchange knowing (exchangeCall 1 2 1)).2
    (afterFirst a)

def afterThird (a b c : GoString) : ManagementSystem :=
  served c 2 ((afterSecond a b).tokens.exchange knowing (exchangeCall 2 3 2)).2
    (afterSecond a b)

/-- What `Verify` makes of a token of the lineage: times in whole seconds. -/
def verified (credential : RefreshCredential) (byte : UInt8) (now : Int) : AccessToken :=
  { tokenOf credential byte now with
    issuedAt := 0
    expiresAt := accessTokenLifetime }

variable {credential : RefreshCredential}

theorem verifies_of_signed {byte : UInt8}
    {presented : GoString} {now : Int}
    (signed : knowing.issue (tokenOf credential byte now) = .ok presented)
    (known : knowing.codec.unmarshal? (knowing.codec.marshal
      (claimsOf (tokenOf credential byte now))) =
        some (claimsOf (tokenOf credential byte now))) (accepted : AccessTokenSigner.acceptClaims
      (claimsOf (tokenOf credential byte now)) now =
        .ok (verified credential byte now)) :
    knowing.verify presented now = .ok (verified credential byte now) := by
  rw [AccessTokenSigner.verify_of_carries now (AccessTokenSigner.issue_ok signed).2.2, known]
  exact accepted

/-- The first request with the token of a credential is served. -/
theorem served_eq {byte : UInt8}
    {presented : GoString} {now : Int} {tokens : TokenSystem MemoryStore}
    {system : ManagementSystem} (verifies : knowing.verify presented now =
      .ok (verified credential byte now)) (permitted : Guard.decide new { now }
      (verified credential byte now) {} = (.ok (), new))
    (filled : credential.id ≠ []) (clock : tokens.clock = now) (clear : tokens.state.denylist = new)
    (lineage : lineageOf? tokens.state.tables credential.id = some first.id)
    (allowed : (limiter.allow system.limits { now } credential.id).1.1.allowed =
      true) :
    served presented now tokens system =
      { tokens
        limits := (limiter.allow system.limits { now } credential.id).2
        served := record credential now :: system.served } := by
  have permittedNow : Guard.decide tokens.state.denylist { now }
      (verified credential byte now) {} = (.ok (), tokens.state.denylist) := by
    rw [clear]
    exact permitted
  have step := ManagementSystem.request_served limiter
    (requestWith presented now) { system with tokens } rfl verifies permittedNow filled allowed
  have named : (verified credential byte now).refreshCredentialID =
      credential.id := rfl
  rw [served, step]
  simp only [named, lineage, record]
  subst clock
  rfl

section Calls

variable {a b : Issued} (returned : ((initial owners new 0).issue knowing
  issueCall).1 = .ok a)

include returned

theorem first_verifies : knowing.verify a.accessToken 0 = .ok (verified first 1 0) := by
  have signed := (mint_ok (issue_ok returned).2).1
  exact verifies_of_signed signed (by decide +kernel) (by decide +kernel)

theorem first_served : afterFirst a.accessToken =
      { tokens := issued, limits := limits1, served := [record first 0] } := by
  exact served_eq (first_verifies returned) (by decide +kernel)
    (newCredentialID_ne_nil _) rfl rfl (by decide +kernel) (by decide +kernel)

variable (rotated : (issued.exchange knowing (exchangeCall 1 2 1)).1 = .ok b)

include rotated

theorem second_served : afterSecond a.accessToken b.accessToken =
      { tokens := exchanged
        limits := limits2
        served := [record second 1, record first 0] } := by
  have parsed : parseRefreshToken (exchangeCall 1 2 1).presented =
      .ok (first.id, (draws 1).secret.val) := by decide +kernel
  have stored : first ∈ issued.state.tables.refreshCredentials := by
    decide +kernel
  have signed := (mint_ok (exchange_ok_of_stored parsed stored rotated).2).1
  rw [afterSecond, first_served returned]
  have verifies : knowing.verify b.accessToken 1 =
      .ok (verified second 2 1) :=
    verifies_of_signed signed (by decide +kernel) (by decide +kernel)
  exact served_eq verifies (by decide +kernel) (newCredentialID_ne_nil _) rfl
    (by decide +kernel) (by decide +kernel) (by decide +kernel)

theorem third_served {c : Issued}
    (rotatedAgain : (exchanged.exchange knowing (exchangeCall 2 3 2)).1 =
      .ok c) :
    afterThird a.accessToken b.accessToken c.accessToken =
      { tokens := exchangedAgain
        limits := limits3
        served := [record third 2, record second 1, record first 0] } := by
  have parsed : parseRefreshToken (exchangeCall 2 3 2).presented =
      .ok (second.id, (draws 2).secret.val) := by decide +kernel
  have stored : second ∈ exchanged.state.tables.refreshCredentials := by
    decide +kernel
  have signed := (mint_ok (exchange_ok_of_stored parsed stored rotatedAgain).2).1
  rw [afterThird, second_served returned rotated]
  have verifies : knowing.verify c.accessToken 2 =
      .ok (verified third 3 2) :=
    verifies_of_signed signed (by decide +kernel) (by decide +kernel)
  exact served_eq verifies (by decide +kernel) (newCredentialID_ne_nil _) rfl
    (by decide +kernel) (by decide +kernel) (by decide +kernel)

end Calls

theorem exists_ok {result : Except Err Issued}
    (succeeds : result.toOption.isSome = true) : ∃ pair, result = .ok pair := by
  cases result with
  | error failure => cases succeeds
  | ok pair => exact ⟨pair, rfl⟩

theorem issue_returns : ∃ a, ((initial owners new
    0).issue knowing issueCall).1 = .ok a :=
  exists_ok (by decide +kernel)

theorem exchange_returns : ∃ b, (issued.exchange knowing (exchangeCall 1 2 1)).1 = .ok b :=
  exists_ok (by decide +kernel)

theorem exchangeAgain_returns : ∃ c, (exchanged.exchange knowing (exchangeCall 2 3 2)).1 = .ok c :=
  exists_ok (by decide +kernel)

theorem afterFirst_runs (a : GoString) (condition : ManagementSystem → ManagementEvent → Prop)
    (onIssue : condition (.initial owners new 0) (.token (.issue issueCall))) (onRequest : condition
      { ManagementSystem.initial owners new 0 with
        tokens := issued } (.request (requestWith a 0))) :
    ManagementSystem.RunsWhere knowing limiter condition
      (.initial owners new 0) (afterFirst a) :=
  .tail (.tail .refl ⟨.token (.issue issueCall), onIssue,
      .token (.issue (le_refl _))⟩) ⟨.request (requestWith a 0), onRequest,
      .request (le_refl _) (le_refl _) (le_refl _)⟩

/-- A rotation and a request after it. -/
theorem served_runs (presented : GoString) (call : ExchangeCall) {system start : ManagementSystem}
    (runs : ManagementSystem.RunsWhere knowing limiter (fun _ _ => True) start
      system) (order : system.tokens.clock ≤ call.now) (ends : call.now = call.finished) :
    ManagementSystem.RunsWhere knowing limiter (fun _ _ => True) start
      (served presented call.now (system.tokens.exchange knowing call).2
        system) := by
  have exchange : ManagementSystem.Step knowing limiter system
      (.token (.exchange call)) { system with
        tokens := (system.tokens.exchange knowing call).2 } :=
    .token (.exchange order (ends ▸ le_refl _))
  refine .tail (.tail runs ⟨_, trivial, exchange⟩)
    ⟨.request (requestWith presented call.now), trivial, .request ?_ (le_refl _) (le_refl _)⟩
  exact (le_of_eq ends.symm : call.finished ≤ call.now)

end Refreshing

/-- With one request a minute, two refreshes within the minute buy a third
request for the same lineage. -/
theorem refreshing_buys_budget : newManagementLimiter true { requests := 1, window := 0 } =
      some Refreshing.limiter ∧
    ∃ a b c,
      ((initial Sample.owners new 0).issue
        Refreshing.knowing Sample.issueCall).1 = .ok a ∧
      (Refreshing.issued.exchange Refreshing.knowing
        (Sample.exchangeCall 1 2 1)).1 = .ok b ∧
      (Refreshing.exchanged.exchange Refreshing.knowing
        (Sample.exchangeCall 2 3 2)).1 = .ok c ∧
      ManagementSystem.RunsWhere Refreshing.knowing Refreshing.limiter
        (fun _ _ => True) (ManagementSystem.initial Sample.owners new 0)
        (Refreshing.afterThird a.accessToken b.accessToken c.accessToken) ∧
      ¬ ManagementSystem.WithinBudget Refreshing.limiter
        (Refreshing.afterThird a.accessToken b.accessToken c.accessToken) := by
  refine ⟨rfl, ?_⟩
  obtain ⟨a, returned⟩ := Refreshing.issue_returns
  obtain ⟨b, rotated⟩ := Refreshing.exchange_returns
  obtain ⟨c, rotatedAgain⟩ := Refreshing.exchangeAgain_returns
  refine ⟨a, b, c, returned, rotated, rotatedAgain, ?_, ?_⟩
  · have firstRun := Refreshing.afterFirst_runs a.accessToken (fun _ _ => True) trivial trivial
    have secondRun : ManagementSystem.RunsWhere Refreshing.knowing
        Refreshing.limiter (fun _ _ => True) (.initial Sample.owners new 0)
        (Refreshing.afterSecond a.accessToken b.accessToken) := by
      refine Refreshing.served_runs b.accessToken (Sample.exchangeCall 1 2 1) firstRun ?_ rfl
      rw [Refreshing.first_served returned]
      exact (by decide : (0 : Int) ≤ 1)
    refine Refreshing.served_runs c.accessToken (Sample.exchangeCall 2 3 2) secondRun ?_ rfl
    rw [Refreshing.second_served returned rotated]
    exact (by decide : (1 : Int) ≤ 2)
  · rw [Refreshing.third_served returned rotated rotatedAgain]
    intro within
    exact absurd (within Refreshing.first.id 0) (by decide +kernel)

/-- A second request with the same token meets the condition, and the budget
holds. -/
theorem withinBudget_repeated : ∃ a, ((initial Sample.owners new 0).issue
        Refreshing.knowing Sample.issueCall).1 = .ok a ∧
      (Refreshing.afterFirst a.accessToken).served =
        [Refreshing.record Refreshing.first 0] ∧
      ManagementSystem.WithinBudget Refreshing.limiter
        ((Refreshing.afterFirst a.accessToken).request Refreshing.knowing
          Refreshing.limiter (Refreshing.requestWith a.accessToken 0)) := by
  obtain ⟨a, returned⟩ := Refreshing.issue_returns
  have firstServed := Refreshing.first_served returned
  refine ⟨a, returned, by rw [firstServed], ?_⟩
  have firstRun := Refreshing.afterFirst_runs a.accessToken
    (ManagementSystem.SameCredential Refreshing.knowing Refreshing.limiter)
    trivial (by intro token _ record member; cases member)
  have built : newManagementLimiter true { requests := 1, window := 0 } =
      some Refreshing.limiter := rfl
  refine ManagementSystem.withinBudget_of_sameCredential built Sample.owners new 0 (.tail firstRun
      ⟨.request (Refreshing.requestWith a.accessToken 0), ?_, .request ?_ (le_refl _) (le_refl _)⟩)
  · intro token verified record member _ _ _
    rw [firstServed, List.mem_singleton] at member
    have same : token = Refreshing.verified Refreshing.first 1 0 :=
      Except.ok.inj (verified.symm.trans (Refreshing.first_verifies returned))
    rw [member, same]
    rfl
  · rw [firstServed]
    exact le_refl _

end Vallet.Transport
