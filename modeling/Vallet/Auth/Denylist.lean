import Vallet.Auth.Token
import Vallet.Counter.Memory

/-!
# The access-token denylist

Entries are counters in a `CounterStore`, keyed by a digest of the refresh
credential a token was minted from.  Every call names the state of its context
and the time the clock of the store shows when it is served.
-/

namespace Vallet.Auth

open Counter Encoding CounterStore

def denylistSkew : Int := Duration.minute

def denylistEntryTTL : Int := accessTokenLifetime + denylistSkew

/-- The key of a credential's entry. -/
def credentialKey (id : RefreshCredentialID) : GoString :=
  base64Encode (sha256 (utf8 "vallet.auth.denylist.v1" ++ [0] ++ utf8 "cred" ++ [0] ++ id))

/-- The context a store call is made with and the clock reading it sees. -/
structure StoreCall where
  ctx : Ctx := .live
  now : Int
deriving DecidableEq, Repr

namespace Denylist

variable {σ : Type} [CounterStore σ]

def check (store : σ) (call : StoreCall) (token : Option AccessToken) : Except Err Unit × σ :=
  match token with
  | none => (.error .authFailed, store)
  | some token =>
    if token.refreshCredentialID.isEmpty then
      (.error .authFailed, store)
    else
      match get store call.ctx call.now (credentialKey token.refreshCredentialID) with
      | (.error failure, after) => (.error (.wrap "auth: denylist unavailable" failure), after)
      | (.ok count, after) =>
        if count.value > 0 then (.error .authFailed, after)
        else (.ok (), after)

def revokeCredential (store : σ) (call : StoreCall)
    (id : RefreshCredentialID) : Except Err Unit × σ :=
  if id.isEmpty then
    (.error (.errorf "auth: empty refresh credential id" .invalidInput), store)
  else
    match increment store call.ctx call.now (credentialKey id) 1 denylistEntryTTL with
    | (.error failure, after) => (.error (.wrap "auth: listing refresh credential" failure), after)
    | (.ok _, after) => (.ok (), after)

/-- List every credential whose access tokens may still be live at `now`, up
to the first write that fails.  `calls` gives the store calls in order. -/
def revokeLineage (store : σ) (calls : Nat → StoreCall) (now : Int) :
    List RefreshCredential → Except Err Unit × σ
  | [] => (.ok (), store)
  | credential :: rest =>
    if ¬ now - denylistEntryTTL < credential.issuedAt then
      revokeLineage store calls now rest
    else if credential.id.isEmpty then
      (.error (.errorf "auth: refresh credential with an empty id in lineage" .invalidInput), store)
    else
      match revokeCredential store (calls 0) credential.id with
      | (.error failure, after) => (.error failure, after)
      | (.ok _, after) => revokeLineage after (fun index => calls (index + 1)) now rest

theorem check_eq (store : σ) (call : StoreCall) {token : AccessToken}
    (named : token.refreshCredentialID ≠ []) :
    check store call (some token) =
      (match (get store call.ctx call.now
          (credentialKey token.refreshCredentialID)).1 with
        | .error failure => .error (.wrap "auth: denylist unavailable" failure)
        | .ok count => if count.value > 0 then .error .authFailed else .ok (),
        (get store call.ctx call.now (credentialKey token.refreshCredentialID)).2) := by
  have filled : token.refreshCredentialID.isEmpty = false := by
    simpa using named
  simp only [check, filled, Bool.false_eq_true, if_false]
  rcases get store call.ctx call.now
    (credentialKey token.refreshCredentialID) with ⟨failure | count, after⟩
  · rfl
  · simp only
    split <;> rfl

theorem check_unnamed (store : σ) (call : StoreCall) {token : AccessToken}
    (unnamed : token.refreshCredentialID = []) :
    check store call (some token) = (.error .authFailed, store) := by
  simp [check, unnamed]

theorem revokeCredential_eq (store : σ) (call : StoreCall)
    {id : RefreshCredentialID} (named : id ≠ []) :
    revokeCredential store call id =
      ((increment store call.ctx call.now (credentialKey id) 1
          denylistEntryTTL).1.map (fun _ => ()) |>.mapError
            (Err.wrap "auth: listing refresh credential"),
        (increment store call.ctx call.now (credentialKey id) 1 denylistEntryTTL).2) := by
  have filled : id.isEmpty = false := by simpa using named
  simp only [revokeCredential, filled, Bool.false_eq_true, if_false]
  rcases increment store call.ctx call.now (credentialKey id) 1
    denylistEntryTTL with ⟨failure | count, after⟩ <;> rfl

end Denylist

end Vallet.Auth
