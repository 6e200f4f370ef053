import Vallet.ManagedBlock.Block
import Vallet.Publishing.Publish

/-!
# From the server to the helper

The body that the server publishes is split into lines by the helper and read
again, key by key, before it goes into the managed block.  The submission was
read with whatever type word and blanks it had; the canonical line has its own,
so it can be longer, and its one space can complete a marker that the
submission did not contain.
-/

namespace Vallet.Helper

open Keys (SSH ParsedKey)

/-! ## The helper -/

def maxResponseBytes : Nat := 2 ^ 20

def splitLines (body : GoString) : List GoString :=
  (body.splitOn 10).filterMap fun line =>
    if Text.trimSpace (ManagedBlock.trimSuffix line 13) = [] then none
    else some (ManagedBlock.trimSuffix line 13)

/-- What `Fetch` makes of a response with status 200. -/
def fetch (body : GoString) : Except Err (List GoString) :=
  if body.length > maxResponseBytes then
    .error (ManagedBlock.plainError "read key set: response exceeds the maximum permitted size")
  else .ok (splitLines body)

theorem trimSuffix_of_not_mem {line : GoString} {byte : UInt8}
    (absent : byte ∉ line) : ManagedBlock.trimSuffix line byte = line := by
  rw [ManagedBlock.trimSuffix, if_neg]
  intro last
  exact absent (List.mem_of_getLast? last)

theorem splitLines_flatten {lines : List GoString}
    (unbroken : ∀ line ∈ lines, 10 ∉ line ∧ 13 ∉ line)
    (filled : ∀ line ∈ lines, Text.trimSpace line ≠ []) :
    splitLines (lines.map fun line => line ++ [10]).flatten = lines := by
  have kept : ∀ rows : List GoString, (∀ line ∈ rows, line ∈ lines) →
      rows.filterMap (fun line =>
        if Text.trimSpace (ManagedBlock.trimSuffix line 13) = [] then none
        else some (ManagedBlock.trimSuffix line 13)) = rows := by
    intro rows among
    induction rows with
    | nil => rfl
    | cons line others induction =>
      have member := among line List.mem_cons_self
      have rest := induction fun other listed =>
        among other (List.mem_cons_of_mem _ listed)
      rw [List.filterMap_cons, rest, trimSuffix_of_not_mem (unbroken line member).2,
        if_neg (filled line member)]
  rw [splitLines, Text.splitOn_flatten fun line member => (unbroken line member).1,
    List.filterMap_append, kept lines fun _ member => member]
  simp [ManagedBlock.trimSuffix, Text.trimSpace, Text.trim, Text.trimEnd,
    Text.trimStart, Text.cutMany]

/-! ## What the block takes -/

theorem lineContent_cons {first : UInt8} (visible : 32 < first) (rest : GoString) :
    ∃ more, ManagedBlock.lineContent (first :: rest) = first :: more := by
  have different : ∀ other : UInt8, other ≤ 32 → first ≠ other := by
    rintro other small rfl
    exact absurd visible (UInt8.not_lt.mpr small)
  have trimmed : ∀ (byte : UInt8) (rest : GoString), byte ≤ 32 →
      ∃ more, ManagedBlock.trimSuffix (first :: rest) byte = first :: more := by
    intro byte rest small
    unfold ManagedBlock.trimSuffix
    split
    · rename_i last
      cases rest with
      | nil => exact (different byte small (by simpa using last)).elim
      | cons second rest => exact ⟨_, rfl⟩
    · exact ⟨rest, rfl⟩
  have kept : (first = 32 || first = 9 : Bool) = false := by
    simp [different 32 (by decide), different 9 (by decide)]
  obtain ⟨once, cut⟩ := trimmed 10 rest (by decide)
  obtain ⟨twice, cutAgain⟩ := trimmed 13 once (by decide)
  rw [ManagedBlock.lineContent, cut, cutAgain, ManagedBlock.trimBlanks,
    List.dropWhile_cons_of_neg (by simp [kept]), List.reverse_cons, List.dropWhile_append]
  split
  · rw [List.dropWhile_cons_of_neg (by simp [kept])]
    exact ⟨[], rfl⟩
  · rw [List.reverse_append]
    exact ⟨_, rfl⟩

section Emitting

variable {ssh : SSH} {raw comment : GoString} {key : ParsedKey} {pub : ssh.Key}

section

variable (accepted : Keys.Accepted ssh raw key pub comment)

include accepted

theorem checkEmitted_line : ManagedBlock.checkEmitted (key.line ++ [10]) = .ok () := by
  obtain ⟨noFeed, noReturn, noZero⟩ := accepted.keeps.line_unbroken
  obtain ⟨first, rest, line, letter⟩ := key.line_cons
  have unbroken : (key.line.any fun byte =>
      byte = 10 || byte = 13 || byte = 0) = false := by
    rw [List.any_eq_false]
    intro byte member broken
    simp only [Bool.or_eq_true, decide_eq_true_eq] at broken
    rcases broken with (rfl | rfl) | rfl
    · exact noFeed member
    · exact noReturn member
    · exact noZero member
  have visible : 32 < first ∧ first ≠ 35 := by
    rcases letter with rfl | rfl <;> decide
  obtain ⟨more, content⟩ := lineContent_cons visible.1 (rest ++ [10])
  have markers : ∀ marker : GoString, marker.head? = some 35 →
      ManagedBlock.isMarker (key.line ++ [10]) marker = false := by
    intro marker hash
    rw [ManagedBlock.isMarker, line, List.cons_append, content]
    apply decide_eq_false
    rintro rfl
    exact visible.2 (by simpa using hash)
  rw [ManagedBlock.checkEmitted, if_neg (by simp [unbroken]),
    markers ManagedBlock.beginMarker (by decide +kernel),
    markers ManagedBlock.endMarker (by decide +kernel)]
  rfl

/-- A canonical line that can be read again is taken as it is. -/
theorem emit_line (lawful : ssh.Lawful) (relayable : key.Relayable) :
    ManagedBlock.emit ssh key.line = .ok (key.line ++ [10]) := by
  obtain ⟨read, parsed⟩ := (accepted.parse_line_ok lawful).mpr relayable
  have same : read = key := by
    rw [accepted.keeps.parse_line lawful] at parsed
    split at parsed
    · cases parsed
    · split at parsed
      · cases parsed
      · exact (Except.ok.inj parsed).symm
  subst same
  have line : Keys.lineText read.algorithm.text read.blob read.comment = read.line := rfl
  simp only [ManagedBlock.emit, parsed, accepted.keeps.authorizedKeyLine_ok lawful,
    line, checkEmitted_line accepted]

theorem relayable_of_emit (lawful : ssh.Lawful) {line : GoString}
    (emitted : ManagedBlock.emit ssh key.line = .ok line) : key.Relayable := by
  rw [← accepted.parse_line_ok lawful]
  cases parsed : Keys.parse ssh key.line with
  | error failure => simp [ManagedBlock.emit, parsed] at emitted
  | ok read => exact ⟨read, rfl⟩

end

end Emitting

/-! ## What the server publishes -/

/-- A row that holds what a submission left, as an active key of the owner. -/
structure Stores (ssh : SSH) (ownerID : OwnerID) (raw : GoString) (row : PublicKey) : Prop where
  parsed : ∃ key, Keys.parse ssh raw = .ok key ∧
    row.algorithm = key.algorithm.text ∧ row.blob = key.blob ∧ row.comment = key.comment
  owned : row.ownerID = ownerID
  active : row.status = .active

/-- The line of a stored key without its end. -/
def rowLine (row : PublicKey) : GoString :=
  Keys.lineText row.algorithm row.blob row.comment

theorem Stores.rowLine_eq {ssh : SSH} {ownerID : OwnerID} {raw : GoString}
    {row : PublicKey} (stores : Stores ssh ownerID raw row) :
    ∃ key, Keys.parse ssh raw = .ok key ∧ rowLine row = key.line := by
  obtain ⟨key, parsed, algorithm, blob, comment⟩ := stores.parsed
  exact ⟨key, parsed, by
    rw [rowLine, algorithm, blob, comment, Keys.ParsedKey.line]⟩

theorem Stores.isLine {ssh : SSH} (lawful : ssh.Lawful) {ownerID : OwnerID}
    {raw : GoString} {row : PublicKey} (stores : Stores ssh ownerID raw row) :
    Publishing.IsLine ssh row (rowLine row ++ [10]) := by
  obtain ⟨key, parsed, algorithm, blob, comment⟩ := stores.parsed
  obtain ⟨pub, given, accepted⟩ := Keys.parse_ok parsed
  rw [Publishing.IsLine, rowLine, algorithm, blob, comment]
  exact accepted.keeps.authorizedKeyLine_ok lawful

section Relaying

variable {ssh : SSH} {ownerID : OwnerID} {rows : List PublicKey}

theorem renderLines_rows (lawful : ssh.Lawful)
    (stored : ∀ row ∈ rows, ∃ raw, Stores ssh ownerID raw row) :
    Publishing.renderLines ssh ownerID rows =
      .ok ((rows.map rowLine).map fun line => line ++ [10]).flatten := by
  rw [Publishing.renderLines_eq_ok_iff]
  constructor
  · intro row member
    obtain ⟨raw, stores⟩ := stored row member
    exact ⟨stores.owned, stores.active⟩
  · refine ⟨_, ?_, rfl⟩
    induction rows with
    | nil => exact .nil
    | cons row others induction =>
      obtain ⟨raw, stores⟩ := stored row List.mem_cons_self
      apply List.Forall₂.cons (stores.isLine lawful)
      exact induction fun other member =>
        stored other (List.mem_cons_of_mem _ member)

/-- The block takes the lines as they are when each can be read again. -/
theorem emitFrom_rows (lawful : ssh.Lawful)
    (relayed : ∀ row ∈ rows, ∃ raw key, Keys.parse ssh raw = .ok key ∧
      rowLine row = key.line ∧ key.Relayable) (index : Nat) :
    ManagedBlock.emitFrom ssh index (rows.map rowLine) =
      .ok ((rows.map rowLine).map fun line => line ++ [10]).flatten := by
  induction rows generalizing index with
  | nil => rfl
  | cons row others induction =>
    obtain ⟨raw, key, parsed, line, relayable⟩ := relayed row List.mem_cons_self
    obtain ⟨pub, comment, accepted⟩ := Keys.parse_ok parsed
    have rest := induction (fun other member =>
      relayed other (List.mem_cons_of_mem _ member)) (index + 1)
    rw [List.map_cons, List.map_cons, List.flatten_cons,
      ManagedBlock.emitFrom, line, emit_line accepted lawful relayable, rest]

theorem emit_of_emitFrom {index : Nat} {pubkeys : List GoString} {body : GoString}
    (emitted : ManagedBlock.emitFrom ssh index pubkeys = .ok body) :
    ∀ raw ∈ pubkeys, ∃ line, ManagedBlock.emit ssh raw = .ok line := by
  induction pubkeys generalizing index body with
  | nil => simp
  | cons raw others induction =>
    unfold ManagedBlock.emitFrom at emitted
    split at emitted
    · cases emitted
    rename_i line first
    split at emitted
    · cases emitted
    · rename_i following rest
      rw [List.forall_mem_cons]
      exact ⟨⟨line, first⟩, induction rest⟩

/-- The helper takes the lines of the server exactly when each key's canonical
line is within what a submission may be. -/
theorem render_rows_iff (lawful : ssh.Lawful)
    (stored : ∀ row ∈ rows, ∃ raw, Stores ssh ownerID raw row) :
    ManagedBlock.render ssh (rows.map rowLine) =
        .ok (ManagedBlock.beginMarker ++ 10 ::
          (((rows.map rowLine).map fun line => line ++ [10]).flatten ++
            (ManagedBlock.endMarker ++ [10]))) ↔
      ∀ row ∈ rows, ∀ raw key, Stores ssh ownerID raw row →
        Keys.parse ssh raw = .ok key → key.Relayable := by
  constructor
  · intro rendered row member raw key stores parsed
    obtain ⟨same, again, line⟩ := stores.rowLine_eq
    cases parsed.symm.trans again
    obtain ⟨pub, comment, accepted⟩ := Keys.parse_ok parsed
    unfold ManagedBlock.render at rendered
    split at rendered
    · cases rendered
    rename_i body emitted
    obtain ⟨out, taken⟩ := emit_of_emitFrom emitted (rowLine row) (List.mem_map_of_mem member)
    rw [line] at taken
    exact relayable_of_emit accepted lawful taken
  · intro relayable
    have relayed : ∀ row ∈ rows, ∃ raw key, Keys.parse ssh raw = .ok key ∧
        rowLine row = key.line ∧ key.Relayable := by
      intro row member
      obtain ⟨raw, stores⟩ := stored row member
      obtain ⟨key, parsed, line⟩ := stores.rowLine_eq
      exact ⟨raw, key, parsed, line, relayable row member raw key stores parsed⟩
    simp only [ManagedBlock.render, emitFrom_rows lawful relayed 0]

theorem fetch_rows (stored : ∀ row ∈ rows, ∃ raw, Stores ssh ownerID raw row)
    (short : ((rows.map rowLine).map fun line => line ++ [10]).flatten.length ≤ maxResponseBytes) :
    fetch ((rows.map rowLine).map fun line => line ++ [10]).flatten = .ok (rows.map rowLine) := by
  have known : ∀ line ∈ rows.map rowLine, ∃ raw key,
      Keys.parse ssh raw = .ok key ∧ line = key.line := by
    intro line member
    obtain ⟨row, listed, rfl⟩ := List.mem_map.mp member
    obtain ⟨raw, stores⟩ := stored row listed
    obtain ⟨key, parsed, same⟩ := stores.rowLine_eq
    exact ⟨raw, key, parsed, same⟩
  rw [fetch, if_neg (Nat.not_lt.mpr short), splitLines_flatten]
  · intro line member
    obtain ⟨raw, key, parsed, rfl⟩ := known line member
    obtain ⟨pub, comment, accepted⟩ := Keys.parse_ok parsed
    exact ⟨accepted.keeps.line_unbroken.1, accepted.keeps.line_unbroken.2.1⟩
  · intro line member
    obtain ⟨raw, key, parsed, rfl⟩ := known line member
    simpa using key.trimSpace_line []

end Relaying

/-- The server's lines make up the block exactly when each key's canonical
line is no longer than a submission may be and does not spell a private-key
marker across the space before its comment. -/
theorem helper_takes_published_iff {ssh : SSH} (lawful : ssh.Lawful)
    {ownerID : OwnerID} {submissions : List (GoString × PublicKey)}
    (stored : ∀ submission ∈ submissions, Stores ssh ownerID submission.1 submission.2) :
    ∃ body, Publishing.render ssh ownerID (submissions.map Prod.snd) = .ok body ∧
      (body.length ≤ maxResponseBytes →
        ((∃ pieces, fetch body = .ok pieces ∧
          ManagedBlock.render ssh pieces = .ok (ManagedBlock.beginMarker ++
            10 :: (body ++ (ManagedBlock.endMarker ++ [10])))) ↔
        ∀ submission ∈ submissions, ∀ key,
          Keys.parse ssh submission.1 = .ok key → key.Relayable)) := by
  let sorted := (submissions.map Prod.snd).insertionSort
    fun left right => left.id ≤ right.id
  have listed : ∀ row ∈ sorted, ∃ raw, (raw, row) ∈ submissions := by
    intro row member
    obtain ⟨⟨raw, _⟩, submitted, rfl⟩ := List.mem_map.mp ((List.mem_insertionSort _).mp member)
    exact ⟨raw, submitted⟩
  have storedSorted : ∀ row ∈ sorted, ∃ raw, Stores ssh ownerID raw row := by
    intro row member
    obtain ⟨raw, submitted⟩ := listed row member
    exact ⟨raw, stored _ submitted⟩
  refine ⟨_, renderLines_rows lawful storedSorted, fun short => ?_⟩
  have fetched := fetch_rows storedSorted short
  have taken := render_rows_iff lawful storedSorted
  constructor
  · rintro ⟨pieces, same, rendered⟩
    cases fetched.symm.trans same
    rintro ⟨raw, row⟩ submitted key parsed
    have member : row ∈ sorted := (List.mem_insertionSort _).mpr (List.mem_map_of_mem submitted)
    exact taken.mp rendered row member raw key (stored _ submitted) parsed
  · intro relayable
    refine ⟨_, fetched, taken.mpr ?_⟩
    intro row member raw key stores parsed
    obtain ⟨otherRaw, submitted⟩ := listed row member
    obtain ⟨same, sameParsed, sameLine⟩ := (stored _ submitted).rowLine_eq
    obtain ⟨again, parsedAgain, line⟩ := stores.rowLine_eq
    cases parsed.symm.trans parsedAgain
    obtain ⟨pub, comment, accepted⟩ := Keys.parse_ok parsed
    obtain ⟨otherPub, otherComment, otherAccepted⟩ := Keys.parse_ok sameParsed
    rw [← accepted.parse_line_ok lawful, ← line, sameLine, otherAccepted.parse_line_ok lawful]
    exact relayable _ submitted same sameParsed

namespace Sample

/-- A row as `Add` stores it. -/
def row (key : ParsedKey) : PublicKey where
  id := utf8 "k1"
  ownerID := utf8 "olive"
  deviceID := utf8 "laptop"
  algorithm := key.algorithm.text
  blob := key.blob
  comment := key.comment
  fingerprint := key.fingerprint
  bitLen := key.bitLen
  status := .active
  createdAt := 0
  updatedAt := 0
  revokedAt := none

theorem stores_row {ssh : SSH} {raw : GoString} {key : ParsedKey}
    (parsed : Keys.parse ssh raw = .ok key) : Stores ssh (utf8 "olive") raw (row key) :=
  ⟨⟨key, parsed, rfl, rfl, rfl⟩, rfl, rfl⟩

/-- A key whose base64 form ends in "private". -/
def edBlob : List UInt8 :=
  Keys.Sample.edHeader ++ [1, 2, 3, 4, 5, 6, 7, 8, 9, 10, 11, 12, 13, 14, 15,
    16, 17, 18, 19, 20, 21, 22, 23, 24, 25, 26, 2, 154, 226, 189, 171, 94]

def edKey (comment : String) : ParsedKey where
  algorithm := .ed25519
  blob := edBlob
  comment := utf8 comment
  fingerprint := utf8 "SHA256:" ++
    ((Encoding.base64Values (Encoding.sha256 edBlob)).map Encoding.base64StdDigit)
  bitLen := 256

def submitted (ending : String) : GoString :=
  utf8 ("ssh-ed25519 AAAAC3NzaC1lZDI1NTE5AAAAIAECAwQFBgcICQoLDA0ODxAREhMUFRYXG"
    ++ "BkaAprivate" ++ ending)

def edBody (comment : String) : GoString :=
  (edKey comment).line ++ [10]

end Sample

open Sample in
/-- Behind a tab the comment is accepted; behind the one space of the
canonical line it is refused as a private key. -/
theorem helper_refuses_published_line : Keys.Sample.edLibrary.Lawful ∧
      Stores Keys.Sample.edLibrary (utf8 "olive")
        (submitted "\tkey of olive") (row (edKey "key of olive")) ∧
      Publishing.render Keys.Sample.edLibrary (utf8 "olive")
        [row (edKey "key of olive")] = .ok (edBody "key of olive") ∧
      (edBody "key of olive").length ≤ maxResponseBytes ∧
      fetch (edBody "key of olive") = .ok [(edKey "key of olive").line] ∧
      ManagedBlock.render Keys.Sample.edLibrary [(edKey "key of olive").line] =
        .error (Keys.errPrivateKey.wrap "managedblock: key 1") := by
  have parsed : Keys.parse Keys.Sample.edLibrary (submitted "\tkey of olive") =
      .ok (edKey "key of olive") := by decide +kernel
  refine ⟨Keys.Sample.edLibrary_lawful, stores_row parsed, ?_, ?_, ?_, ?_⟩
  all_goals decide +kernel

open Sample in
/-- With another comment the same key arrives. -/
theorem helper_takes_published_laptop : ∃ pieces, fetch (edBody "laptop") = .ok pieces ∧
      ManagedBlock.render Keys.Sample.edLibrary pieces =
        .ok (ManagedBlock.beginMarker ++ 10 ::
          (edBody "laptop" ++ (ManagedBlock.endMarker ++ [10]))) := by
  have parsed : Keys.parse Keys.Sample.edLibrary (submitted "\tlaptop") =
      .ok (edKey "laptop") := by decide +kernel
  have rendered : Publishing.render Keys.Sample.edLibrary (utf8 "olive")
      [row (edKey "laptop")] = .ok (edBody "laptop") := by decide +kernel
  have relayable : (edKey "laptop").Relayable := ⟨by decide +kernel, by decide +kernel⟩
  have stored : ∀ submission ∈ [(submitted "\tlaptop", row (edKey "laptop"))],
      Stores Keys.Sample.edLibrary (utf8 "olive") submission.1 submission.2 := by
    intro submission member
    rw [List.mem_singleton.mp member]
    exact stores_row parsed
  obtain ⟨body, published, taken⟩ := helper_takes_published_iff Keys.Sample.edLibrary_lawful stored
  cases rendered.symm.trans published
  apply (taken (by decide +kernel)).mpr
  intro submission member key again
  rw [List.mem_singleton.mp member] at again
  cases parsed.symm.trans again
  exact relayable

end Vallet.Helper
