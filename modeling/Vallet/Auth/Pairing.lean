import Vallet.Auth.Denylist
import Vallet.Auth.Credentials

/-!
# Device pairings

Codes, tables and repositories of enrollment.  A pairing is created pending or
already approved, and every later transition is a conditional `UPDATE` whose
`WHERE` clause names the states it may start from.
-/

namespace Vallet.Auth

open Counter Effects Encoding Relational

/-! ## Codes -/

def pairingLifetime : Int := 10 * Duration.minute
def pairingPollInterval : Int := 5 * Duration.second

def pairingSecretBytes : Nat := 32
def userCodeLen : Nat := 8
def userCodeGroup : Nat := 4

def userCodeAlphabet : List Char := "23456789ABCDEFGHJKLMNPQRSTUVWXYZ".toList

def userCodeMask : UInt8 := 0x1f

def deviceCodePrefix : GoString := utf8 "svd_"

def pairingDeviceTag : GoString := utf8 "vallet.auth.pairing.device.v1" ++ [0]
def pairingUserTag : GoString := utf8 "vallet.auth.pairing.user.v1" ++ [0]

def newPairingID (random : RandomBytes credentialIDBytes) : PairingID :=
  base64Encode random.val

def hashDeviceSecret (secret : List UInt8) : List UInt8 :=
  sha256 (pairingDeviceTag ++ secret)

def deviceSecretMatches (stored secret : List UInt8) : Bool :=
  decide (stored = hashDeviceSecret secret)

def hashUserCode (code : GoString) : List UInt8 :=
  sha256 (pairingUserTag ++ code)

/-- The symbol a random byte selects. -/
def userCodeSymbol (byte : UInt8) : Char :=
  userCodeAlphabet.getD (byte &&& userCodeMask).toNat '2'

/-- The grouped code that is shown and the canonical one that is hashed. -/
def newUserCode (random : RandomBytes userCodeLen) : GoString × GoString :=
  let symbols := random.val.map userCodeSymbol
  let plain (characters : List Char) := utf8 (String.ofList characters)
  (plain (symbols.take userCodeGroup) ++ utf8 "-" ++
    plain (symbols.drop userCodeGroup), plain symbols)

/-- `unicode.ToUpper` where the result can be a symbol of a code: the two
runes outside ASCII are the dotless i and the long s. -/
def toUpperRune (rune : Char) : Char :=
  if rune = Char.ofNat 0x131 then 'I'
  else if rune = Char.ofNat 0x17f then 'S'
  else rune.toUpper

/-- The loop of `normalizeUserCode` over the symbols written so far. -/
def normalizeRunes : List Char → List Char → Option (List Char)
  | [], written => if written.length = userCodeLen then some written else none
  | rune :: rest, written =>
    if rune = '-' ∨ rune = ' ' then normalizeRunes rest written
    else
      let symbol := if rune = '1' ∨ rune = 'I' then 'L' else rune
      if symbol ∉ userCodeAlphabet then none
      else if written.length = userCodeLen then none
      else normalizeRunes rest (written ++ [symbol])

def normalizeUserCode (code : GoString) : Except Err GoString :=
  match code.runes with
  | none => .error .authFailed
  | some runes =>
    match normalizeRunes (runes.map toUpperRune) [] with
    | none => .error .authFailed
    | some symbols => .ok (utf8 (String.ofList symbols))

theorem runes_utf8 (text : String) : (utf8 text).runes = some text.toList := by
  rw [GoString.runes, utf8, String.fromUTF8?, dif_pos text.isValidUTF8]
  rfl

theorem utf8_append (left right : String) : utf8 (left ++ right) = utf8 left ++ utf8 right := by
  simp only [utf8, String.toByteArray_append, ByteArray.data_append, Array.toList_append]

/-- What a symbol may be typed as. -/
def spellings (symbol : Char) : List Char :=
  symbol :: symbol.toLower :: if symbol = 'L' then ['1', 'I', 'i'] else []

def isGrouping (rune : Char) : Bool := rune = '-' || rune = ' '

/-- A code as it may be typed after it was shown. -/
inductive Transcribes : List Char → List Char → Prop where
  | nil : Transcribes [] []
  | omits {shown typed rune} (grouping : isGrouping rune) :
    Transcribes shown typed → Transcribes (rune :: shown) typed
  | inserts {shown typed rune} (grouping : isGrouping rune) :
    Transcribes shown typed → Transcribes shown (rune :: typed)
  | copies {shown typed symbol rune} (plain : isGrouping symbol = false)
    (spelled : rune ∈ spellings symbol) :
    Transcribes shown typed → Transcribes (symbol :: shown) (rune :: typed)

theorem normalizeRunes_some {runes written symbols : List Char}
    (normalized : normalizeRunes runes written = some symbols)
    (listed : ∀ symbol ∈ written, symbol ∈ userCodeAlphabet) :
    symbols.length = userCodeLen ∧ ∀ symbol ∈ symbols, symbol ∈ userCodeAlphabet := by
  induction runes generalizing written with
  | nil =>
    rw [normalizeRunes] at normalized
    split at normalized
    · cases normalized
      exact ⟨‹_›, listed⟩
    · cases normalized
  | cons rune rest induction =>
    simp only [normalizeRunes] at normalized
    generalize (if rune = '1' ∨ rune = 'I' then 'L' else rune) = symbol at normalized
    split at normalized
    · exact induction normalized listed
    split at normalized
    · cases normalized
    rename_i known
    split at normalized
    · cases normalized
    · refine induction normalized fun other member => ?_
      rcases List.mem_append.mp member with member | member
      · exact listed other member
      · rw [List.mem_singleton.mp member]
        exact not_not.mp known

theorem normalizeRunes_transcribed {shown typed : List Char} (written : List Char)
    (transcribed : Transcribes shown typed)
    (listed : ∀ rune ∈ shown, isGrouping rune = false → rune ∈ userCodeAlphabet)
    (short : written.length + (shown.filter (!isGrouping ·)).length = userCodeLen) :
    normalizeRunes (typed.map toUpperRune) written =
      some (written ++ shown.filter (!isGrouping ·)) := by
  have reads : (userCodeAlphabet.all fun symbol => (spellings symbol).all fun rune =>
      ¬ (toUpperRune rune = '-' ∨ toUpperRune rune = ' ') ∧
        (if toUpperRune rune = '1' ∨ toUpperRune rune = 'I' then 'L' else toUpperRune rune) =
          symbol) = true := by
    decide
  simp only [List.all_eq_true, decide_eq_true_eq] at reads
  induction transcribed generalizing written with
  | nil => simpa [normalizeRunes] using short
  | omits grouping _ induction =>
    rw [List.filter_cons_of_neg (by simp [grouping])] at short ⊢
    exact induction written (fun rune member => listed rune (List.mem_cons_of_mem _ member)) short
  | @inserts shown typed rune grouping _ induction =>
    have skipped : toUpperRune rune = '-' ∨ toUpperRune rune = ' ' := by
      simp only [isGrouping, Bool.or_eq_true, decide_eq_true_eq] at grouping
      rcases grouping with rfl | rfl <;> decide
    rw [List.map_cons, normalizeRunes, if_pos skipped]
    exact induction written listed short
  | @copies shown typed symbol rune plain spelled _ induction =>
    have known := listed symbol List.mem_cons_self plain
    obtain ⟨symbolic, folded⟩ := reads symbol known rune spelled
    rw [List.filter_cons_of_pos (by simp [plain])] at short ⊢
    rw [List.length_cons] at short
    rw [List.map_cons, normalizeRunes, if_neg symbolic, folded, if_neg (not_not.mpr known),
      if_neg (by omega), induction _ (fun other member =>
        listed other (List.mem_cons_of_mem symbol member)) (by simp; omega),
      List.append_assoc, List.singleton_append]

/-- A code that is typed in another case, grouped in another way or with a bar
read for another one is the code that was shown; what is typed is at most one
code, and a code of eight symbols. -/
theorem user_codes_survive_transcription :
    (∀ random shown typed, (newUserCode random).1.runes = some shown → Transcribes shown typed →
      normalizeUserCode (utf8 (String.ofList typed)) = .ok (newUserCode random).2) ∧
    (∀ code left right, normalizeUserCode code = .ok left →
      normalizeUserCode code = .ok right → left = right) ∧
    ∀ code result, normalizeUserCode code = .ok result → ∃ symbols : List Char,
      result = utf8 (String.ofList symbols) ∧ symbols.length = userCodeLen ∧
        ∀ symbol ∈ symbols, symbol ∈ userCodeAlphabet := by
  refine ⟨fun random shown typed display transcribed => ?_, fun code left right first second => ?_,
    fun code result normalized => ?_⟩
  · have checked : ∀ code : Fin 256, userCodeSymbol (UInt8.ofFin code) ∈ userCodeAlphabet := by
      decide +kernel
    have plain : userCodeAlphabet.all (!isGrouping ·) = true := by decide
    simp only [List.all_eq_true, Bool.not_eq_true'] at plain
    have known : ∀ symbol ∈ random.val.map userCodeSymbol, symbol ∈ userCodeAlphabet := by
      intro symbol member
      obtain ⟨byte, _, rfl⟩ := List.mem_map.mp member
      exact checked byte.toFin
    have length : (random.val.map userCodeSymbol).length = userCodeLen := by
      rw [List.length_map, random.property]
    rw [newUserCode, ← utf8_append, ← utf8_append, runes_utf8] at display
    simp only [String.toList_append, String.toList_ofList, Option.some.injEq] at display
    rw [newUserCode, normalizeUserCode, runes_utf8]
    generalize random.val.map userCodeSymbol = symbols at display known length ⊢
    subst display
    have stripped : (symbols.take userCodeGroup ++ "-".toList ++
        symbols.drop userCodeGroup).filter (!isGrouping ·) = symbols := by
      have all : symbols.filter (!isGrouping ·) = symbols :=
        List.filter_eq_self.mpr fun symbol member => by simp [plain symbol (known symbol member)]
      rw [List.filter_append, List.filter_append,
        show "-".toList.filter (!isGrouping ·) = [] from rfl,
        List.append_nil, ← List.filter_append, List.take_append_drop, all]
    have normalized := normalizeRunes_transcribed [] transcribed
      (fun rune member shows => known rune
        (stripped ▸ List.mem_filter.mpr ⟨member, by simp [shows]⟩)) (by rw [stripped, length]; rfl)
    simp only [String.toList_ofList, normalized, stripped, List.nil_append]
  · rw [first] at second
    exact Except.ok.inj second
  · unfold normalizeUserCode at normalized
    split at normalized
    · cases normalized
    split at normalized
    · cases normalized
    · rename_i symbols done
      cases normalized
      exact ⟨symbols, rfl, normalizeRunes_some done nofun⟩

/-- A code that is typed with its bars as `1` and `i`, in lower case up to its
last group, and with spaces and a dash elsewhere. -/
theorem user_codes_survive_transcription_typed :
    let code := newUserCode ⟨[18, 18, 9, 10, 11, 12, 13, 14], rfl⟩
    code.1.runes = some ['L', 'L', 'B', 'C', '-', 'D', 'E', 'F', 'G'] ∧
      normalizeUserCode (utf8 (String.ofList
        ['1', 'i', ' ', 'b', 'c', 'd', ' ', 'e', '-', 'F', 'G'])) = .ok code.2 := by
  have display : (newUserCode ⟨[18, 18, 9, 10, 11, 12, 13, 14], rfl⟩).1.runes =
      some ['L', 'L', 'B', 'C', '-', 'D', 'E', 'F', 'G'] := by
    decide +kernel
  refine ⟨display, user_codes_survive_transcription.1 _ _ _ display ?_⟩
  refine .copies rfl (by decide) (.copies rfl (by decide) (.inserts rfl ?_))
  refine .copies rfl (by decide) (.copies rfl (by decide) (.omits rfl ?_))
  refine .copies rfl (by decide) (.inserts rfl (.copies rfl (by decide) (.inserts rfl ?_)))
  exact .copies rfl (by decide) (.copies rfl (by decide) .nil)

def formatDeviceCode (id : PairingID) (secret : List UInt8) : GoString :=
  deviceCodePrefix ++ (id ++ tokenSeparator :: base64Encode secret)

def parseDeviceCode (presented : GoString) : Except Err (PairingID × List UInt8) :=
  parseCredentialText deviceCodePrefix pairingSecretBytes presented

/-- A presented text is accepted exactly as it was issued unless its start, its
separator and the lengths of its parts are right and one of them has line breaks
or spare bits. -/
theorem presented_text_exact_iff (presented : GoString) :
    (Exact parseRefreshToken formatRefreshToken refreshSecretBytes presented ↔
      Strict refreshTokenPrefix presented ∨
        ¬ WellSized refreshTokenPrefix refreshSecretBytes presented) ∧
    (Exact parseDeviceCode formatDeviceCode pairingSecretBytes presented ↔
      Strict deviceCodePrefix presented ∨
        ¬ WellSized deviceCodePrefix pairingSecretBytes presented) :=
  ⟨exact_iff _ _ presented, exact_iff _ _ presented⟩

/-- An identifier with a spare bit set is accepted and handed on, and so is a
secret with a line break in it. -/
theorem parseRefreshToken_loose :
    let id := List.replicate 21 65
    let text := List.replicate 43 65
    parseRefreshToken (refreshTokenPrefix ++ (id ++ 66 :: tokenSeparator :: text)) =
        .ok (id ++ [66], List.replicate 32 0) ∧
      (∀ random : List UInt8, base64Encode random ≠ id ++ [66]) ∧
      parseRefreshToken (refreshTokenPrefix ++ (id ++ 65 :: tokenSeparator :: text)) =
        parseRefreshToken (refreshTokenPrefix ++ (id ++ 65 :: tokenSeparator :: (text ++ [10]))) ∧
      parseDeviceCode (deviceCodePrefix ++ (id ++ 66 :: tokenSeparator :: text)) =
        .ok (id ++ [66], List.replicate 32 0) := by
  refine ⟨by decide +kernel, fun random same => ?_, by decide +kernel, by decide +kernel⟩
  have plain := (base64Canonical_encode random).2
  rw [same] at plain
  exact absurd plain (by decide +kernel)

end Vallet.Auth

namespace Vallet.DevicePairing

/-! ## Conditions and changes of the statements -/

/-- `WHERE id = ? AND owner_id = ?`; a pending row has no owner at all. -/
def ownedBy (ownerID : OwnerID) (id : PairingID) (pairing : DevicePairing) : Bool :=
  decide (pairing.id = id) && decide (pairing.ownerID ≠ []) && decide (pairing.ownerID = ownerID)

/-- `WHERE id = ? AND status = 'pending'`. -/
def approvable (id : PairingID) (pairing : DevicePairing) : Bool :=
  decide (pairing.id = id) && decide (pairing.status = .pending)

/-- `WHERE id = ? AND owner_id = ? AND status = 'approved'`. -/
def redeemable (ownerID : OwnerID) (id : PairingID) (pairing : DevicePairing) : Bool :=
  ownedBy ownerID id pairing && decide (pairing.status = .approved)

/-- `WHERE id = ? AND owner_id = ? AND status IN ('pending', 'approved')`. -/
def revocable (ownerID : OwnerID) (id : PairingID) (pairing : DevicePairing) : Bool :=
  ownedBy ownerID id pairing &&
    (decide (pairing.status = .pending) || decide (pairing.status = .approved))

variable {ownerID : OwnerID} {id : PairingID} {pairing : DevicePairing}

theorem ownedBy_iff : pairing.ownedBy ownerID id = true ↔
      pairing.id = id ∧ pairing.ownerID ≠ [] ∧ pairing.ownerID = ownerID := by
  simp [ownedBy, and_assoc]

theorem approvable_iff : pairing.approvable id = true ↔
      pairing.id = id ∧ pairing.status = .pending := by
  simp [approvable]

theorem redeemable_iff : pairing.redeemable ownerID id = true ↔
      pairing.ownedBy ownerID id = true ∧ pairing.status = .approved := by
  simp [redeemable]

theorem revocable_iff : pairing.revocable ownerID id = true ↔
      pairing.ownedBy ownerID id = true ∧
        (pairing.status = .pending ∨ pairing.status = .approved) := by
  simp [revocable]

def approved (ownerID : OwnerID) (now : Int) (pairing : DevicePairing) : DevicePairing :=
  { pairing with
    status := .approved, ownerID := ownerID, approvedAt := some now }

def redeemed (lineageID : LineageID) (now : Int) (pairing : DevicePairing) : DevicePairing :=
  { pairing with
    status := .redeemed, lineageID := lineageID, redeemedAt := some now }

def revoked (now : Int) (pairing : DevicePairing) : DevicePairing :=
  { pairing with status := .revoked, revokedAt := some now }

def touched (nextPollAt : Int) (pairing : DevicePairing) : DevicePairing :=
  { pairing with nextPollAt := nextPollAt }

@[simp] theorem id_approved (ownerID : OwnerID) (now : Int) (pairing : DevicePairing) :
    (pairing.approved ownerID now).id = pairing.id := rfl

@[simp] theorem id_redeemed (lineageID : LineageID) (now : Int) (pairing : DevicePairing) :
    (pairing.redeemed lineageID now).id = pairing.id := rfl

@[simp] theorem id_revoked (now : Int) (pairing : DevicePairing) :
    (pairing.revoked now).id = pairing.id := rfl

@[simp] theorem id_touched (nextPollAt : Int) (pairing : DevicePairing) :
    (pairing.touched nextPollAt).id = pairing.id := rfl

/-- `ORDER BY expires_at, id`. -/
def expiresNoLater (left right : DevicePairing) : Prop :=
  left.expiresAt < right.expiresAt ∨ (left.expiresAt = right.expiresAt ∧ left.id ≤ right.id)

instance : DecidableRel expiresNoLater := fun _ _ =>
  inferInstanceAs (Decidable (_ ∨ _))

end Vallet.DevicePairing

namespace Vallet.Auth

open Counter Effects Encoding Relational

/-! ## Statements -/

structure EnrollmentState (σ : Type) where
  credentials : CredentialTables
  pairings : Table DevicePairing.id
  links : Table LinkedIdentity.id
  store : σ

inductive PairingStatement : Type → Type where
  | insertPairing (pairing : DevicePairing) : PairingStatement Inserted
  | selectByID (id : PairingID) : PairingStatement (Option DevicePairing)
  | selectByUserCodeHash (hash : List UInt8) : PairingStatement (Option DevicePairing)
  | select (ownerID : OwnerID) (id : PairingID) : PairingStatement (Option DevicePairing)
  | selectStatusByID (id : PairingID) : PairingStatement (Option PairingStatus)
  | selectStatus (ownerID : OwnerID) (id : PairingID) : PairingStatement (Option PairingStatus)
  | updateApproved (id : PairingID) (ownerID : OwnerID) (now : Int) : PairingStatement Nat
  | updateRedeemed (ownerID : OwnerID) (id : PairingID)
      (lineageID : LineageID) (now : Int) : PairingStatement Nat
  | updateRevoked (ownerID : OwnerID) (id : PairingID) (now : Int) : PairingStatement Nat
  | updateNextPollAt (id : PairingID) (nextPollAt : Int) : PairingStatement Nat
  | deleteExpired (cutoff : Int) (limit : Nat) : PairingStatement Nat
  | insertLink (link : LinkedIdentity) : PairingStatement Inserted
  | selectLink (provider subject : GoString) : PairingStatement (Option LinkedIdentity)
  | increment (key : GoString) (delta ttl : Int) (call : StoreCall) :
      PairingStatement (Except Err Count)
  | listRevoked (rows : List RefreshCredential) (now : Int)
      (calls : Nat → StoreCall) : PairingStatement (Except Err Unit)

/-- What enrollment executes: its own statements, store calls included, and
those on owners and credentials. -/
abbrev EnrollmentStatement := Either CredentialStatement PairingStatement

namespace EnrollmentState

variable {σ : Type}

def insertPairing (state : EnrollmentState σ) (pairing : DevicePairing) :
    Inserted × EnrollmentState σ :=
  match state.pairings.insert? pairing with
  | none => (.duplicateKey, state)
  | some pairings => (.inserted, { state with pairings })

/-- One pairing subject is linked once, and only to a known owner. -/
def insertLink (state : EnrollmentState σ) (link : LinkedIdentity) : Inserted × EnrollmentState σ :=
  if state.links.rows.any fun other =>
      decide (other.provider = link.provider) && decide (other.subject = link.subject) then
    (.duplicateKey, state)
  else
    match state.links.insert? link with
    | none => (.duplicateKey, state)
    | some links =>
      if (state.credentials.owners.find? link.ownerID).isNone then
        (.constraintFailed, state)
      else (.inserted, { state with links })

/-- A conditional `UPDATE` and the number of rows it affected. -/
def updatePairings (state : EnrollmentState σ)
    (chosen : DevicePairing → Bool) (change : DevicePairing → DevicePairing)
    (keepsID : ∀ pairing, (change pairing).id = pairing.id) : Nat × EnrollmentState σ :=
  ((state.pairings.select chosen).length,
    { state with pairings := state.pairings.update chosen change keepsID })

variable {state : EnrollmentState σ} {chosen : DevicePairing → Bool}
  {change : DevicePairing → DevicePairing}

variable {keepsID : ∀ pairing, (change pairing).id = pairing.id}

theorem mem_updatePairings {pairing : DevicePairing} :
    pairing ∈ (state.updatePairings chosen change keepsID).2.pairings ↔
      ∃ previous ∈ state.pairings,
        pairing =
          if chosen previous then change previous else previous := by
  rw [updatePairings, Table.mem_update]

theorem updatePairings_of_none (none : ∀ pairing ∈ state.pairings, ¬ chosen pairing = true) :
    state.updatePairings chosen change keepsID = (0, state) := by
  have skipped : state.pairings.select chosen = [] := List.filter_eq_nil_iff.mpr none
  have same : state.pairings.update chosen change keepsID = state.pairings := by
    apply Table.ext
    rw [Table.rows_update]
    conv_rhs => rw [← List.map_id state.pairings.rows]
    exact List.map_congr_left fun pairing stored => if_neg (none pairing stored)
  rw [updatePairings, skipped, same, List.length_nil]

/-- The rows one sweep removes: the first to expire, up to the limit. -/
def expiredPairings (state : EnrollmentState σ) (cutoff : Int) (limit : Nat) : List DevicePairing :=
  ((state.pairings.select fun pairing =>
    decide (pairing.expiresAt ≤ cutoff)).insertionSort DevicePairing.expiresNoLater).take limit

def deleteExpired (state : EnrollmentState σ) (cutoff : Int) (limit : Nat) :
    Nat × EnrollmentState σ :=
  let expired := state.expiredPairings cutoff limit
  (expired.length,
    { state with
      pairings := state.pairings.delete fun pairing =>
        decide (pairing.id ∈ expired.map DevicePairing.id) })

end EnrollmentState

section Interpreter

variable {σ : Type} [CounterStore σ]

def PairingStatement.execute {β : Type} :
    PairingStatement β → EnrollmentState σ → β × EnrollmentState σ
  | .insertPairing pairing, state => state.insertPairing pairing
  | .selectByID id, state => (state.pairings.find? id, state)
  | .selectByUserCodeHash hash, state =>
    ((state.pairings.select fun pairing =>
      decide (pairing.userCodeHash = hash)).head?, state)
  | .select ownerID id, state =>
    ((state.pairings.select (DevicePairing.ownedBy ownerID id)).head?, state)
  | .selectStatusByID id, state => ((state.pairings.find? id).map (·.status), state)
  | .selectStatus ownerID id, state =>
    ((state.pairings.select (DevicePairing.ownedBy ownerID id)).head?.map (·.status), state)
  | .updateApproved id ownerID now, state =>
    state.updatePairings (DevicePairing.approvable id) (DevicePairing.approved ownerID now)
      (DevicePairing.id_approved ownerID now)
  | .updateRedeemed ownerID id lineageID now, state =>
    state.updatePairings (DevicePairing.redeemable ownerID id)
      (DevicePairing.redeemed lineageID now) (DevicePairing.id_redeemed lineageID now)
  | .updateRevoked ownerID id now, state =>
    state.updatePairings (DevicePairing.revocable ownerID id)
      (DevicePairing.revoked now) (DevicePairing.id_revoked now)
  | .updateNextPollAt id nextPollAt, state =>
    state.updatePairings (fun pairing => decide (pairing.id = id))
      (DevicePairing.touched nextPollAt) (DevicePairing.id_touched nextPollAt)
  | .deleteExpired cutoff limit, state => state.deleteExpired cutoff limit
  | .insertLink link, state => state.insertLink link
  | .selectLink provider subject, state =>
    ((state.links.select fun link =>
      decide (link.provider = provider) && decide (link.subject = subject)).head?, state)
  | .increment key delta ttl call, state =>
    let counted := CounterStore.increment state.store call.ctx call.now key delta ttl
    (counted.1, { state with store := counted.2 })
  | .listRevoked rows now calls, state =>
    let listed := Denylist.revokeLineage state.store calls now rows
    (listed.1, { state with store := listed.2 })

def EnrollmentStatement.execute {β : Type} :
    EnrollmentStatement β → EnrollmentState σ → β × EnrollmentState σ
  | .left statement, state =>
    let ran := statement.execute state.credentials
    (ran.1, { state with credentials := ran.2 })
  | .right statement, state => statement.execute state

def enrollmentInterpreter : Interpreter EnrollmentStatement (EnrollmentState σ) where
  execute := EnrollmentStatement.execute

end Interpreter

/-! ## Repositories -/

/-- A statement of the pairing family as one step of a program. -/
def askPairing {β : Type} (statement : PairingStatement β) :
    Program EnrollmentStatement (Except Fault β) :=
  Program.ask (.right statement)

/-- A program of the credential repositories as a part of enrollment. -/
def onCredentials {α : Type} (program : Program CredentialStatement α) :
    Program EnrollmentStatement α :=
  program.translate .left

/-- What a repository makes of the reply to an `INSERT`. -/
def insertionError : Except Fault Inserted → Except Err Unit
  | .error _ => .error driverFault
  | .ok .duplicateKey => .error (.of .conflict)
  | .ok .constraintFailed => .error driverFault
  | .ok .inserted => .ok ()

/-- What a repository makes of the reply to a `SELECT` of one row. -/
def rowOrNotFound {ρ : Type} : Except Fault (Option ρ) → Except Err ρ
  | .error _ => .error driverFault
  | .ok none => .error (.of .notFound)
  | .ok (some row) => .ok row

namespace DevicePairingRepository

def create (pairing : DevicePairing) : Program EnrollmentStatement (Except Err Unit) := do
  return insertionError (← askPairing (.insertPairing pairing))

def getByID (id : PairingID) : Program EnrollmentStatement (Except Err DevicePairing) := do
  return rowOrNotFound (← askPairing (.selectByID id))

def getByUserCodeHash (hash : List UInt8) :
    Program EnrollmentStatement (Except Err DevicePairing) := do
  if hash.isEmpty then return .error (.of .notFound)
  else return rowOrNotFound (← askPairing (.selectByUserCodeHash hash))

def get (ownerID : OwnerID) (id : PairingID) :
    Program EnrollmentStatement (Except Err DevicePairing) := do
  return rowOrNotFound (← askPairing (.select ownerID id))

/-- The error of a conditional update: none when it changed a row, and
otherwise what reading the status of the row says. -/
def classify (updated : Except Fault Nat) (statusOf : PairingStatement (Option PairingStatus)) :
    Program EnrollmentStatement (Except Err Unit) := do
  match updated with
  | .error _ => return .error driverFault
  | .ok affected =>
    if affected > 0 then
      return .ok ()
    else
      match ← askPairing statusOf with
      | .error _ => return .error driverFault
      | .ok none => return .error (.of .notFound)
      | .ok (some _) => return .error (.of .conflict)

def approve (id : PairingID) (ownerID : OwnerID) (now : Int) :
    Program EnrollmentStatement (Except Err Unit) := do
  classify (← askPairing (.updateApproved id ownerID now)) (.selectStatusByID id)

def markRedeemed (ownerID : OwnerID) (id : PairingID) (lineageID : LineageID)
    (now : Int) : Program EnrollmentStatement (Except Err Unit) := do
  classify (← askPairing (.updateRedeemed ownerID id lineageID now)) (.selectStatus ownerID id)

def revoke (ownerID : OwnerID) (id : PairingID) (now : Int) :
    Program EnrollmentStatement (Except Err Unit) := do
  classify (← askPairing (.updateRevoked ownerID id now)) (.selectStatus ownerID id)

def touch (id : PairingID) (nextPollAt : Int) : Program EnrollmentStatement (Except Err Unit) := do
  match ← askPairing (.updateNextPollAt id nextPollAt) with
  | .error _ => return .error driverFault
  | .ok affected => if affected = 0 then return .error (.of .notFound) else return .ok ()

def deleteExpired (cutoff : Int) (limit : Int) : Program EnrollmentStatement (Except Err Nat) := do
  if limit ≤ 0 then
    return .error (.errorf "sqlite: delete limit must be positive" .invalidInput)
  else
    match ← askPairing (.deleteExpired cutoff limit.toNat) with
    | .error _ => return .error driverFault
    | .ok removed => return .ok removed

end DevicePairingRepository

namespace LinkedIdentityRepository

def create (link : LinkedIdentity) : Program EnrollmentStatement (Except Err Unit) := do
  return insertionError (← askPairing (.insertLink link))

def getByProviderSubject (provider subject : GoString) :
    Program EnrollmentStatement (Except Err LinkedIdentity) := do
  return rowOrNotFound (← askPairing (.selectLink provider subject))

end LinkedIdentityRepository

end Vallet.Auth
