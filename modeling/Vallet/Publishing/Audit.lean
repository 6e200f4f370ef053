import Vallet.Auth.Credentials
import Vallet.Domain.Publishing
import Vallet.Foundation.Hoare

/-!
# Audit records

Every change of a published name or credential is recorded.  Details are
screened as they are set, so a service learns before it writes whether what it
is about to do can be recorded; the record itself is built and appended when
the change has been made.
-/

namespace Vallet.Audit

open Auth Effects

/-- The emitter, with the screen that keeps credentials and unprintable text
out of the trail.  The screen gives the reason for which it refuses a text; it
has nothing against the empty one. -/
structure Emitter where
  screenValue : GoString → Option String
  screenValue_nil : screenValue [] = none

/-- Pairs in the order they were set, or the first refusal. -/
abbrev Details := Except Err (List (DetailKey × GoString))

def maxDetailValueLen : Nat := 256

def maxIDLen : Nat := 256

/-- `^SHA256:[A-Za-z0-9+/]{43}$`. -/
def validFingerprint (text : GoString) : Bool :=
  match text.cutPrefix? (utf8 "SHA256:") with
  | none => false
  | some digest => digest.length = 43 && digest.all fun byte =>
    (65 ≤ byte && byte ≤ 90) || (97 ≤ byte && byte ≤ 122) ||
      (48 ≤ byte && byte ≤ 57) || byte = 43 || byte = 47

namespace Emitter

def screen (emitter : Emitter) (field : String) (value : GoString) : Except Err Unit :=
  match emitter.screenValue value with
  | some reason => .error (.errorf ("audit: " ++ field ++ " " ++ reason) .invalidInput)
  | none => .ok ()

def screenDetailValue (emitter : Emitter) (key : DetailKey)
    (value : GoString) : Except Err Unit := do
  if value = [] then
    throw (.errorf "audit: empty detail value" .invalidInput)
  if value.length > maxDetailValueLen then
    throw (.errorf "audit: detail value too long" .invalidInput)
  emitter.screen "detail value" value
  if key = .fingerprint ∧ validFingerprint value = false then
    throw (.errorf "audit: malformed fingerprint detail" .invalidInput)

/-- `Details.Set`. -/
def set (emitter : Emitter) (key : DetailKey) (value : GoString)
    (details : Details) : Details := do
  let pairs ← details
  emitter.screenDetailValue key value
  return pairs.filter (·.1 ≠ key) ++ [(key, value)]

/-- `Details.Set`, skipped for an empty text. -/
def setUnlessEmpty (emitter : Emitter) (key : DetailKey) (value : GoString)
    (details : Details) : Details :=
  if value = [] then details else emitter.set key value details

end Emitter

structure Event where
  actorType : ActorType
  actorID : GoString
  action : AuditAction
  targetType : TargetType
  targetID : GoString
  details : List (DetailKey × GoString)

namespace Emitter

def validate (emitter : Emitter) (event : Event) : Except Err Unit := do
  match event.actorType with
  | .system =>
    if event.actorID ≠ [] ∧ event.actorID.length > maxIDLen then
      throw (.errorf "audit: actor id too long" .invalidInput)
  | .owner | .administrator =>
    if event.actorID = [] then
      throw (.errorf "audit: missing actor id" .invalidInput)
    if event.actorID.length > maxIDLen then
      throw (.errorf "audit: actor id too long" .invalidInput)
  if event.targetID = [] then
    throw (.errorf "audit: missing target id" .invalidInput)
  if event.targetID.length > maxIDLen then
    throw (.errorf "audit: target id too long" .invalidInput)
  emitter.screen "actor id" event.actorID
  emitter.screen "target id" event.targetID

def record (emitter : Emitter) (event : Event) (id : AuditRecordID)
    (now : Int) : Except Err AuditRecord := do
  emitter.validate event
  return {
    id
    actorType := event.actorType
    actorID := event.actorID
    action := event.action
    targetType := event.targetType
    targetID := event.targetID
    occurredAt := now
    metadata := event.details }

/-- `Emit` and `EmitTo`: build the record and append it with one statement. -/
def emit {Statement : Type → Type} (emitter : Emitter)
    (append : AuditRecord → Statement Inserted) (event : Event) (id : AuditRecordID) (now : Int) :
    Program Statement (Except Err Unit) :=
  match emitter.record event id now with
  | .error failure => .done (.error failure)
  | .ok record => do
      match ← Program.ask (append record) with
      | .error _ => return .error driverFault
      | .ok .duplicateKey => return .error (.of .conflict)
      | .ok .constraintFailed => return .error driverFault
      | .ok .inserted => return .ok ()

variable {emitter : Emitter} {event : Event} {id : AuditRecordID} {now : Int} {record : AuditRecord}

theorem record_eq (recorded : emitter.record event id now = .ok record) :
    record = ⟨id, event.actorType, event.actorID, event.action,
      event.targetType, event.targetID, now, event.details, false⟩ := by
  unfold Emitter.record at recorded
  cases valid : emitter.validate event with
  | error failure =>
    rw [valid] at recorded
    cases recorded
  | ok _ =>
    rw [valid] at recorded
    cases recorded
    exact rfl

theorem record_ok (recorded : emitter.record event id now = .ok record) :
    record.id = id ∧ record.action = event.action ∧
      record.targetType = event.targetType ∧
      record.targetID = event.targetID := by
  simp [record_eq recorded]

theorem record_origin (recorded : emitter.record event id now = .ok record) :
    record.actorType = event.actorType ∧ record.actorID = event.actorID ∧
      record.metadata = event.details := by
  simp [record_eq recorded]

/-- An emission fails without an effect, or appends the record of its
event. -/
theorem ensures_emit {Statement : Type → Type} {σ : Type} {interpreter : Interpreter Statement σ}
    {append : AuditRecord → Statement Inserted} {state : σ}
    (refused : ∀ record, (interpreter.execute (append record) state).1 ≠
      .inserted → (interpreter.execute (append record) state).2 = state) :
    (emitter.emit append event id now).Ensures interpreter
      (fun result final =>
        (∃ failure, result = .error failure ∧ final = state) ∨
        ∃ record, emitter.record event id now = .ok record ∧
          result = .ok () ∧
          interpreter.execute (append record) state = (.inserted, final))
      state := by
  unfold emit
  split
  · rename_i failure _
    exact .inl ⟨failure, rfl, rfl⟩
  · rename_i record recorded
    refine ⟨.inl ⟨_, rfl, rfl⟩, ?_⟩
    have unchanged := refused record
    rcases answer : interpreter.execute (append record) state with
      ⟨outcome, final⟩
    rw [answer] at unchanged
    cases outcome with
    | inserted => exact .inr ⟨record, recorded, rfl, answer⟩
    | duplicateKey | constraintFailed => exact .inl ⟨_, rfl, unchanged (by simp)⟩

end Emitter

/-- An emitter that refuses no text. -/
def Sample.silentEmitter : Emitter := ⟨fun _ => none, rfl⟩

end Vallet.Audit
