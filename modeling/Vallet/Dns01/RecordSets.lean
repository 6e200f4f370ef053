import Vallet.Domain.Values

/-!
# Challenge values in a shared record set

Route 53, Cloud DNS and Azure hold all TXT values of a name in one record set
with one lifetime.  A provider adds its challenge value by reading the set,
decoding each value, and writing all of them back in its own spelling, and
withdraws it the same way.  What others have stored there is left as found
exactly if it was spelled that way before.
-/

namespace Vallet.Dns01

/-- `strings.NewReplacer` over a backslash and a quote. -/
def escape (byte : UInt8) : GoString :=
  if byte = 92 then [92, 92] else if byte = 34 then [92, 34] else [byte]

def unescape : GoString → GoString
  | 92 :: 92 :: rest => 92 :: unescape rest
  | 92 :: 34 :: rest => 34 :: unescape rest
  | byte :: rest => byte :: unescape rest
  | [] => []

def quoteTXT (v : GoString) : GoString := 34 :: (v.flatMap escape ++ [34])

def unquoteTXT (v : GoString) : GoString :=
  unescape (if 2 ≤ v.length ∧ v.head? = some 34 ∧ v.getLast? = some 34 then
    v.tail.dropLast else v)

theorem unescape_escape (byte : UInt8) (rest : GoString) :
    unescape (escape byte ++ rest) = byte :: unescape rest := by
  unfold escape
  split
  · rename_i backslash
    rw [backslash]
    rfl
  split
  · rename_i quote
    rw [quote]
    rfl
  · rename_i plain _
    cases rest with
    | nil => simp [unescape]
    | cons next rest => simp [unescape, plain]

theorem unquoteTXT_quoteTXT (v : GoString) : unquoteTXT (quoteTXT v) = v := by
  have body : unescape (v.flatMap escape) = v := by
    induction v with
    | nil => rfl
    | cons byte rest induction => rw [List.flatMap_cons, unescape_escape, induction]
  have ends : (quoteTXT v).getLast? = some 34 := by
    rw [quoteTXT, ← List.cons_append, List.getLast?_concat]
  rw [unquoteTXT, if_pos ⟨by simp [quoteTXT], rfl, ends⟩]
  simpa [quoteTXT] using body

inductive Provider where
  | route53
  | gcp
  | azure
deriving DecidableEq

namespace Provider

/-- A stored value: a text of quoted strings, or a list of strings. -/
def Rdata : Provider → Type
  | route53 | gcp => GoString
  | azure => List GoString

instance : (provider : Provider) → DecidableEq provider.Rdata
  | route53 | gcp => inferInstanceAs (DecidableEq GoString)
  | azure => inferInstanceAs (DecidableEq (List GoString))

structure RecordSet (provider : Provider) where
  ttl : Int
  rdata : List provider.Rdata
deriving DecidableEq

def decode : (provider : Provider) → provider.Rdata → GoString
  | route53, stored => unquoteTXT stored
  | gcp, stored => unquoteTXT stored
  | azure, stored => stored.flatten

def encode : (provider : Provider) → GoString → provider.Rdata
  | route53, value => quoteTXT value
  | gcp, value => quoteTXT value
  | azure, value => [value]

def challengeTTL : Provider → Int
  | _ => 60

/-- The values at the name and their lifetime; nothing if there is no set. -/
def currentTXT (provider : Provider) : Option provider.RecordSet → List GoString × Int
  | some stored => (stored.rdata.map provider.decode, stored.ttl)
  | none => ([], 0)

/-- Whether a change names the set it replaces, which must then be as stored:
a `DELETE` of Route 53, and every change of Cloud DNS to a set. -/
def namesCurrent (existing desired : List GoString) : Provider → Bool
  | route53 => desired = []
  | gcp => existing ≠ []
  | azure => false

/-- One change of the set, if the service takes it.  `accepts` stands for what
the service demands of a set it is to store. -/
def submit (provider : Provider) (accepts : provider.RecordSet → Bool)
    (current : Option provider.RecordSet) (ttl : Int)
    (existing desired : List GoString) : Option (Option provider.RecordSet) :=
  if provider.namesCurrent existing desired = true ∧
      current ≠ some ⟨ttl, existing.map provider.encode⟩ then none
  else if desired = [] then some none
  else if accepts ⟨ttl, desired.map provider.encode⟩ then
    some (some ⟨ttl, desired.map provider.encode⟩)
  else none

def present (provider : Provider) (accepts : provider.RecordSet → Bool)
    (value : GoString) (current : Option provider.RecordSet) :
    Option (Option provider.RecordSet) :=
  let existing := provider.currentTXT current
  provider.submit accepts current
    (if existing.2 ≤ 0 then provider.challengeTTL else existing.2) existing.1
    (if value ∈ existing.1 then existing.1 else existing.1 ++ [value])

def removeValue (provider : Provider) (accepts : provider.RecordSet → Bool)
    (value : GoString) (current : Option provider.RecordSet) :
    Option (Option provider.RecordSet) :=
  let existing := provider.currentTXT current
  if value ∉ existing.1 then some current
  else
    provider.submit accepts current
      (if existing.2 ≤ 0 ∧ provider ≠ route53 then provider.challengeTTL
        else existing.2) existing.1 (existing.1.filter (· ≠ value))

theorem decode_encode (provider : Provider) (value : GoString) :
    provider.decode (provider.encode value) = value := by
  cases provider with
  | route53 | gcp => exact unquoteTXT_quoteTXT value
  | azure => exact List.append_nil value

/-- The stored values, none without a set. -/
def stored {provider : Provider} : Option provider.RecordSet → List provider.Rdata
  | some set => set.rdata
  | none => []

/-- The sets a service holds: some value, for a positive time. -/
def Sound {provider : Provider} (current : Option provider.RecordSet) : Prop :=
  ∀ set, current = some set → 0 < set.ttl ∧ set.rdata ≠ []

variable {provider : Provider} {accepts : provider.RecordSet → Bool}
  {current shown : Option provider.RecordSet} {value : GoString}

variable {existing desired : List GoString}

theorem submit_eq_some {ttl : Int}
    (submitted : provider.submit accepts current ttl existing desired = some shown) :
    shown = if desired = [] then none
      else some ⟨ttl, desired.map provider.encode⟩ := by
  unfold submit at submitted
  split at submitted
  · cases submitted
  split at submitted
  · rename_i nothing
    cases submitted
    rw [if_pos nothing]
  · rename_i something
    rw [if_neg something]
    split at submitted
    · exact (Option.some.inj submitted).symm
    · cases submitted

theorem stored_submit {ttl : Int}
    (submitted : provider.submit accepts current ttl existing desired = some shown) :
    stored shown = desired.map provider.encode := by
  rw [submit_eq_some submitted]
  split
  · rename_i nothing
    rw [nothing]
    rfl
  · rfl

/-- A withdrawn value leaves the others as the provider has written them. -/
theorem removeValue_written {existing : List GoString} {ttl : Int}
    {final : Option provider.RecordSet} (positive : 0 < ttl) (fresh : value ∉ existing)
    (removed : provider.removeValue accepts value
      (some ⟨ttl, (existing ++ [value]).map provider.encode⟩) = some final) :
    final = if existing = [] then none
      else some ⟨ttl, existing.map provider.encode⟩ := by
  have read : ((existing ++ [value]).map provider.encode).map provider.decode =
      existing ++ [value] := by
    rw [List.map_map]
    exact (List.map_congr_left fun text _ => provider.decode_encode text).trans (List.map_id _)
  have others : (existing ++ [value]).filter (· ≠ value) = existing := by
    rw [List.filter_append, List.filter_eq_self.mpr]
    · simp
    · intro text member
      exact decide_eq_true (ne_of_mem_of_not_mem member fresh)
  have unexpired : ¬ (ttl ≤ 0 ∧ provider ≠ route53) := fun lapsed =>
    Int.not_le.mpr positive lapsed.1
  simp only [removeValue, currentTXT, read, others, if_neg unexpired] at removed
  rw [if_neg (not_not.mpr (List.mem_append_right _ List.mem_cons_self))] at removed
  exact submit_eq_some removed

/-- Present and its cleanup leave a shared record set as found exactly if every
value in it was in the spelling in which the provider writes. -/
theorem shared_set_kept_iff (provider : Provider) {accepts : provider.RecordSet → Bool}
    {current shown : Option provider.RecordSet} {value : GoString}
    (sound : Sound current) (fresh : provider.encode value ∉ stored current)
    (presented : provider.present accepts value current = some shown) :
    ((∀ rdata ∈ stored current, rdata ∈ stored shown) ∧ provider.encode value ∈ stored shown ∧
        ∀ final, provider.removeValue accepts value shown = some final → final = current) ↔
      ∀ rdata ∈ stored current, ∃ text, rdata = provider.encode text := by
  have written := stored_submit presented
  constructor
  · rintro ⟨kept, _, _⟩ rdata member
    have held := kept rdata member
    rw [written] at held
    obtain ⟨text, _, same⟩ := List.mem_map.mp held
    exact ⟨text, same.symm⟩
  · intro spelled
    have same : ((stored current).map provider.decode).map provider.encode = stored current := by
      rw [List.map_map]
      refine (List.map_congr_left fun rdata member => ?_).trans (List.map_id _)
      obtain ⟨text, rfl⟩ := spelled rdata member
      exact congrArg provider.encode (provider.decode_encode text)
    have absent : value ∉ (stored current).map provider.decode := fun member =>
      fresh (same ▸ List.mem_map_of_mem member)
    have read : (provider.currentTXT current).1 = (stored current).map provider.decode := by
      cases current <;> rfl
    rw [read, if_neg absent] at written
    have added := submit_eq_some presented
    rw [read, if_neg absent, if_neg (by simp)] at added
    refine ⟨fun rdata member => ?_, ?_, fun final removed => ?_⟩
    · rw [written, List.map_append, same]
      exact List.mem_append_left _ member
    · rw [written]
      exact List.mem_map_of_mem (List.mem_append_right _ List.mem_cons_self)
    · rw [added] at removed
      cases current with
      | none => exact removeValue_written (show 0 < (60 : Int) by decide) absent removed
      | some set =>
        obtain ⟨positive, filled⟩ := sound set rfl
        have lasting : ¬ (provider.currentTXT (some set)).2 ≤ 0 := Int.not_le.mpr positive
        rw [if_neg lasting] at removed
        have left := removeValue_written positive absent removed
        rw [if_neg (by simpa [stored] using filled), same] at left
        exact left

end Provider

/-- A challenge value. -/
def Sample.challenge : GoString := List.replicate 43 65

namespace Provider

/-- An operator's value of one string is there before and after. -/
theorem shared_set_kept_iff_single :
    let current : Option (RecordSet .route53) := some ⟨300, [quoteTXT (utf8 "site=a")]⟩
    ∃ shown, route53.present (fun _ => true) Sample.challenge current = some shown ∧
      ∀ final, route53.removeValue (fun _ => true) Sample.challenge shown = some final →
        final = current := by
  refine ⟨_, rfl, ((shared_set_kept_iff .route53 ?_ ?_ rfl).mpr ?_).2.2⟩
  · intro set same
    cases same
    exact ⟨by decide, List.cons_ne_nil _ _⟩
  · decide +kernel
  · intro rdata member
    exact ⟨_, List.mem_singleton.mp member⟩

/-- A value of two strings is stored as another one once a challenge value was
added beside it, with Route 53 and with Azure. -/
theorem two_strings_respelled :
    route53.present (fun _ => true) Sample.challenge (some ⟨300, [utf8 "\"a\" \"b\""]⟩) =
        some (some ⟨300, [utf8 "\"a\\\" \\\"b\"", quoteTXT Sample.challenge]⟩) ∧
      azure.present (fun _ => true) Sample.challenge (some ⟨300, [[utf8 "a", utf8 "b"]]⟩) =
        some (some ⟨300, [[utf8 "ab"], [Sample.challenge]]⟩) := by
  decide +kernel

end Provider

end Vallet.Dns01
