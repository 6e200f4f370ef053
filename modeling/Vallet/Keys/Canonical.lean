import Vallet.Keys.Parse

/-!
# Reading a published line back

A canonical line parses to the key it was built from unless it is longer than
a submission may be, or the end of its base64 field and the start of its
comment together read as a private-key marker.
-/

namespace Vallet.Keys

open Encoding

variable {ssh : SSH} {raw : GoString} {key : ParsedKey} {pub : ssh.Key} {comment : GoString}

/-- The line as published, without its end. -/
def ParsedKey.line (key : ParsedKey) : GoString :=
  lineText key.algorithm.text key.blob key.comment

/-- The base64 field ends and the comment starts so that the one space of the
canonical line makes a private-key marker of them. -/
def ParsedKey.SpellsMarker (key : ParsedKey) : Prop :=
  utf8 "private" <:+ toLower (base64StdEncode key.blob) ∧ utf8 "key" <+: toLower key.comment

instance (key : ParsedKey) : Decidable key.SpellsMarker :=
  inferInstanceAs (Decidable (_ ∧ _))

/-- The canonical line is within what a submission may be. -/
structure ParsedKey.Relayable (key : ParsedKey) : Prop where
  short : key.line.length ≤ maxLineBytes
  unmarked : ¬ key.SpellsMarker

variable {byte : UInt8}

theorem base64StdText_lowerByte (text : base64StdText byte) : base64StdText (lowerByte byte) := by
  have checked : ∀ code : Fin 256, base64StdText (UInt8.ofFin code) →
      base64StdText (lowerByte (UInt8.ofFin code)) := by
    decide +kernel
  exact checked byte.toFin text

theorem base64StdText_ascii (text : base64StdText byte) :
    byte < 128 ∧ byte ≠ 32 ∧ byte ≠ 9 ∧ byte ≠ 45 ∧ byte ≠ 10 ∧ byte ≠ 13 ∧ byte ≠ 0 := by
  have checked : ∀ code : Fin 256, base64StdText (UInt8.ofFin code) →
      UInt8.ofFin code < 128 ∧ UInt8.ofFin code ≠ 32 ∧
        UInt8.ofFin code ≠ 9 ∧ UInt8.ofFin code ≠ 45 ∧
        UInt8.ofFin code ≠ 10 ∧ UInt8.ofFin code ≠ 13 ∧
        UInt8.ofFin code ≠ 0 := by
    decide +kernel
  exact checked byte.toFin text

theorem toLower_base64 (blob : List UInt8) (rest : GoString) :
    toLower (base64StdEncode blob ++ rest) = toLower (base64StdEncode blob) ++ toLower rest := by
  have ascii : ∀ byte ∈ base64StdEncode blob, byte < 128 := fun byte member =>
    (base64StdText_ascii (base64StdText_of_mem member)).1
  have alone := toLower_ascii_append ascii []
  rw [List.append_nil, toLower, List.append_nil] at alone
  rw [toLower_ascii_append ascii rest, alone]

theorem mem_toLower_base64 {blob : List UInt8}
    (member : byte ∈ toLower (base64StdEncode blob)) : base64StdText byte := by
  have ascii : ∀ byte ∈ base64StdEncode blob, byte < 128 := fun byte member =>
    (base64StdText_ascii (base64StdText_of_mem member)).1
  have alone := toLower_ascii_append ascii []
  rw [List.append_nil, toLower, List.append_nil] at alone
  rw [alone] at member
  obtain ⟨digit, listed, rfl⟩ := List.mem_map.mp member
  exact base64StdText_lowerByte (base64StdText_of_mem listed)

theorem toLower_line (key : ParsedKey) :
    toLower key.line = key.algorithm.text ++ 32 ::
      (toLower (base64StdEncode key.blob) ++
        if key.comment = [] then [] else 32 :: toLower key.comment) := by
  have lower : ∀ algorithm : Algorithm, (∀ byte ∈ algorithm.text, byte < 128) ∧
        algorithm.text.map lowerByte = algorithm.text := by
    intro algorithm
    cases algorithm <;> decide +kernel
  rw [ParsedKey.line, lineText, toLower_ascii_append (lower key.algorithm).1,
    (lower key.algorithm).2, toLower_cons (by decide), toLower_base64]
  split
  · rfl
  · rw [toLower_cons (by decide)]
    rfl

/-- Neither marker lies inside the algorithm or the base64 field. -/
theorem containsPrivateKeyMaterial_line (clean : containsPrivateKeyMaterial key.comment = false) :
    containsPrivateKeyMaterial key.line ↔ key.SpellsMarker := by
  have fieldSpace : 32 ∉ toLower (base64StdEncode key.blob) := fun member =>
    (base64StdText_ascii (mem_toLower_base64 member)).2.1 rfl
  have fieldHyphen : 45 ∉ toLower (base64StdEncode key.blob) := fun member =>
    (base64StdText_ascii (mem_toLower_base64 member)).2.2.2.1 rfl
  have algorithm : 32 ∉ key.algorithm.text ∧ ¬ utf8 "private" <:+ key.algorithm.text ∧
      ¬ utf8 "putty-user-key-file" <:+: key.algorithm.text := by
    cases key.algorithm <;> decide +kernel
  have commentClean : ¬ utf8 "private key" <:+: toLower key.comment ∧
      ¬ utf8 "putty-user-key-file" <:+: toLower key.comment := by
    simpa [containsPrivateKeyMaterial, privateKeyMarkers] using clean
  have spaced : utf8 "private key" = utf8 "private" ++ 32 :: utf8 "key" := by
    decide
  have phrase : utf8 "private key" <:+: toLower key.line ↔
      key.SpellsMarker := by
    rw [toLower_line, spaced, Text.infix_pair_append_cons (by decide) algorithm.1]
    constructor
    · rintro (atAlgorithm | behind)
      · exact absurd atAlgorithm.1 algorithm.2.1
      split at behind
      · rw [List.append_nil] at behind
        exact absurd (behind.subset (by decide)) fieldSpace
      · rw [Text.infix_pair_append_cons (by decide) fieldSpace, ← spaced] at behind
        exact behind.resolve_right commentClean.1
    · intro spelled
      right
      split
      · rename_i empty
        have impossible := spelled.2
        rw [empty] at impossible
        exact absurd impossible (by decide)
      · rw [Text.infix_pair_append_cons (by decide) fieldSpace]
        exact .inl spelled
  have word : ¬ utf8 "putty-user-key-file" <:+: toLower key.line := by
    rw [toLower_line, Text.infix_append_cons (by decide)]
    rintro (atAlgorithm | behind)
    · exact algorithm.2.2 atAlgorithm
    have inField : ¬ utf8 "putty-user-key-file" <:+:
        toLower (base64StdEncode key.blob) := fun within =>
      fieldHyphen (within.subset (by decide))
    split at behind
    · rw [List.append_nil] at behind
      exact inField behind
    · rcases (Text.infix_append_cons (by decide)).mp behind with
        within | within
      · exact inField within
      · exact commentClean.2 within
  simp only [containsPrivateKeyMaterial, privateKeyMarkers, List.any_cons,
    List.any_nil, Bool.or_false, Bool.or_eq_true, decide_eq_true_eq, phrase, word, or_false]

namespace Kept

theorem line_visible (kept : Kept ssh key pub) : ∀ byte ∈ key.line, 32 ≤ byte := by
  intro byte member
  rcases List.mem_append.mp member with inAlgorithm | behind
  · have visible := List.all_eq_true.mp key.algorithm.text_visible byte inAlgorithm
    simp only [isVisible, Bool.and_eq_true, decide_eq_true_eq] at visible
    exact UInt8.le_trans (by decide) visible.1
  · rcases List.mem_cons.mp behind with rfl | behind
    · decide
    rcases List.mem_append.mp behind with inField | inComment
    · have text := base64StdText_of_mem inField
      have checked : ∀ code : Fin 256, base64StdText (UInt8.ofFin code) →
          32 ≤ UInt8.ofFin code := by decide +kernel
      exact checked byte.toFin text
    · split at inComment
      · cases inComment
      · rcases List.mem_cons.mp inComment with rfl | inComment
        · decide
        · exact kept.comment_visible byte inComment

theorem line_unbroken (kept : Kept ssh key pub) : 10 ∉ key.line ∧ 13 ∉ key.line ∧ 0 ∉ key.line := by
  refine ⟨?_, ?_, ?_⟩
  all_goals
    intro member
    exact absurd (kept.line_visible _ member) (by decide)

end Kept

theorem ParsedKey.line_cons (key : ParsedKey) :
    ∃ first rest, key.line = first :: rest ∧ (first = 115 ∨ first = 101) := by
  obtain ⟨first, rest, text, letter⟩ := key.algorithm.text_cons
  exact ⟨first, _, by rw [ParsedKey.line, lineText, text, List.cons_append], letter⟩

theorem ParsedKey.trimSpace_line (key : ParsedKey) (more : GoString) :
    Text.trimSpace (key.line ++ more) ≠ [] := by
  obtain ⟨first, rest, line, letter⟩ := key.line_cons
  intro empty
  rw [line, List.cons_append] at empty
  obtain ⟨token, member, head⟩ := Text.exists_of_trim_eq_nil (by decide) empty
  have starts : ∀ token ∈ Text.whiteSpace,
      token.head? ≠ some 115 ∧ token.head? ≠ some 101 := by decide
  rcases letter with rfl | rfl
  · exact (starts token member).1 head
  · exact (starts token member).2 head

theorem trimSpace_cons_space (text : GoString) :
    Text.trimSpace (32 :: text) = Text.trimSpace text := by
  have cut : Text.cutAny? Text.whiteSpace (32 :: text) = some text := by
    simp [Text.cutAny?, Text.whiteSpace]
  rw [Text.trimSpace, Text.trim, Text.trimStart_append cut]
  rfl

variable {line : GoString}

theorem stripLineEnd_of_not_mem (unbroken : 10 ∉ line) : stripLineEnd line = line := by
  rw [stripLineEnd, if_neg]
  intro last
  exact unbroken (List.mem_of_getLast? last)

namespace Kept

theorem parseAuthorizedKey_line (kept : Kept ssh key pub) (lawful : ssh.Lawful) :
    ssh.parseAuthorizedKey key.line = some ⟨pub, key.comment, [], []⟩ := by
  obtain ⟨first, rest, text, letter⟩ := key.algorithm.text_cons
  have field : (base64StdEncode key.blob).all isVisible := by
    rw [List.all_eq_true]
    intro byte member
    have checked : ∀ code : Fin 256, base64StdText (UInt8.ofFin code) →
        isVisible (UInt8.ofFin code) := by decide +kernel
    exact checked byte.toFin (base64StdText_of_mem member)
  have commentUnbroken : 10 ∉ key.comment ∧ 13 ∉ key.comment := by
    constructor
    all_goals
      intro member
      exact absurd (kept.comment_visible _ member) (by decide)
  have decoded : ssh.parsePublicKey key.blob = some pub := by
    rw [kept.blob, lawful.parse_marshal]
  have read := lawful.reads_line key.algorithm.text (base64StdEncode key.blob)
    (if key.comment = [] then [] else 32 :: key.comment) key.blob pub kept.type.symm
    (by rw [text]; exact List.cons_ne_nil _ _) key.algorithm.text_visible
    (by rw [text]; rcases letter with rfl | rfl <;> simp) field (by split <;> simp)
    (by split <;> simp [commentUnbroken.1]) (by split <;> simp [commentUnbroken.2])
    (base64StdDecode?_encode key.blob) decoded
  have trimmed : Text.trimSpace
      (if key.comment = [] then [] else 32 :: key.comment) = key.comment := by
    split
    · rename_i empty
      rw [empty]
      rfl
    · rw [trimSpace_cons_space, kept.trimmed]
  rw [trimmed] at read
  exact read

/-- A submission that strips to the line of a key is read as the key, or is
refused for its length or for a marker. -/
theorem parse_of_line (kept : Kept ssh key pub) (lawful : ssh.Lawful)
    (stripped : stripLineEnd raw = key.line) (filled : Text.trimSpace raw ≠ []) :
    parse ssh raw =
      if raw.length > maxLineBytes then .error errTooLarge
      else if containsPrivateKeyMaterial raw then .error errPrivateKey
      else .ok key := by
  obtain ⟨noFeed, noReturn, _⟩ := kept.line_unbroken
  have unbroken : key.line.any (fun byte => byte = 10 || byte = 13) = false := by
    rw [List.any_eq_false]
    intro byte member broken
    simp only [Bool.or_eq_true, decide_eq_true_eq] at broken
    rcases broken with rfl | rfl
    · exact noFeed member
    · exact noReturn member
  have visible : (key.line.dropWhile
      fun byte => byte = 32 || byte = 9).head? ≠ some 35 := by
    obtain ⟨first, rest, line, letter⟩ := key.line_cons
    rw [line]
    rcases letter with rfl | rfl <;> simp
  have finished : parseKeyLine ssh key.line = .ok key := by
    simp only [parseKeyLine, kept.parseAuthorizedKey_line lawful]
    rw [if_neg (by simp), if_neg (by simp [Text.trimSpace, Text.trim,
      Text.trimEnd, Text.trimStart, Text.cutMany]), kept.finalize_again]
  simp only [parse, filled, if_false, stripped, unbroken, Bool.false_eq_true, visible, finished]

theorem parse_line (kept : Kept ssh key pub) (lawful : ssh.Lawful) :
    parse ssh key.line =
      if key.line.length > maxLineBytes then .error errTooLarge
      else if containsPrivateKeyMaterial key.line then .error errPrivateKey
      else .ok key :=
  kept.parse_of_line lawful (stripLineEnd_of_not_mem kept.line_unbroken.1)
    (by simpa using key.trimSpace_line [])

end Kept

namespace Accepted

theorem parse_line_ok (accepted : Accepted ssh raw key pub comment) (lawful : ssh.Lawful) :
    (∃ read, parse ssh key.line = .ok read) ↔ key.Relayable := by
  have marked := containsPrivateKeyMaterial_line (accepted.comment_notPrivate lawful)
  rw [accepted.keeps.parse_line lawful]
  constructor
  · rintro ⟨read, parsed⟩
    split at parsed
    · cases parsed
    rename_i short
    split at parsed
    · cases parsed
    · rename_i unmarked
      exact ⟨Nat.not_lt.mp short, fun spelled => unmarked (marked.mpr spelled)⟩
  · intro relayable
    refine ⟨key, ?_⟩
    rw [if_neg (Nat.not_lt.mpr relayable.short),
      if_neg fun found => relayable.unmarked (marked.mp found)]

end Accepted

theorem stripLineEnd_append_feed (unbroken : 13 ∉ line) : stripLineEnd (line ++ [10]) = line := by
  rw [stripLineEnd, if_pos (by simp), List.dropLast_concat, if_neg]
  intro last
  exact unbroken (List.mem_of_getLast? last)

/-- What is written from stored data is the line of a key in the form in which
one is kept. -/
theorem authorizedKeyLineFrom_ok {algorithm : GoString} {blob : List UInt8}
    (printed : ∀ pub, ssh.parsePublicKey blob = some pub →
      validateFingerprint (ssh.fingerprintSHA256 pub) = .ok ())
    (written : authorizedKeyLineFrom ssh algorithm blob comment = .ok line) :
    ∃ key pub, Kept ssh key pub ∧ ssh.parsePublicKey blob = some pub ∧
      key.algorithm.text = algorithm ∧ key.comment = Text.trimSpace comment ∧
      line = key.line ++ [10] := by
  unfold authorizedKeyLineFrom at written
  split at written
  · cases written
  rename_i known found
  split at written
  · cases written
  rename_i pub parsed
  split at written
  · cases written
  rename_i type
  split at written
  · cases written
  rename_i bitLen strong
  split at written
  · cases written
  simp only at written
  split at written
  · cases written
  rename_i valid
  cases written
  have text := Algorithm.text_of_ofText? found
  refine ⟨⟨known, ssh.marshal pub, Text.trimSpace comment, ssh.fingerprintSHA256 pub, bitLen⟩,
    pub, ⟨?_, strong, rfl, rfl, Text.trimSpace_trimSpace _, ?_⟩, parsed, text, rfl, ?_⟩
  · exact (not_not.mp type).trans text.symm
  · simp only [checkInvariants, printed pub parsed, valid]
    rfl
  · rw [ParsedKey.line, text]

/-- Whatever is stored, a line that is written is one line of one key without
options; it is read back as the key it was written from, and written again as
it is. -/
theorem authorizedKeyLineFrom_reads_back (lawful : ssh.Lawful) {algorithm : GoString}
    {blob : List UInt8} {line : GoString}
    (printed : ∀ pub, ssh.parsePublicKey blob = some pub →
      validateFingerprint (ssh.fingerprintSHA256 pub) = .ok ())
    (written : authorizedKeyLineFrom ssh algorithm blob comment = .ok line) :
    (∃ body, line = body ++ [10] ∧ 10 ∉ body) ∧ 13 ∉ line ∧ 0 ∉ line ∧
      ∃ pub, ssh.parsePublicKey blob = some pub ∧
        algorithm ++ 32 :: base64StdEncode (ssh.marshal pub) <+: line ∧
        (line.length ≤ maxLineBytes → containsPrivateKeyMaterial line = false →
          ∃ key, parse ssh line = .ok key ∧ key.algorithm.text = algorithm ∧
            key.blob = ssh.marshal pub ∧ key.comment = Text.trimSpace comment ∧
            authorizedKeyLine ssh key = .ok line) := by
  obtain ⟨key, pub, kept, parsed, text, same, rfl⟩ := authorizedKeyLineFrom_ok printed written
  obtain ⟨noFeed, noReturn, noZero⟩ := kept.line_unbroken
  refine ⟨⟨key.line, rfl, noFeed⟩, by simpa using noReturn, by simpa using noZero,
    pub, parsed, ?_, fun short clean => ⟨key, ?_, text, kept.blob, same, ?_⟩⟩
  · rw [ParsedKey.line, lineText, text, kept.blob]
    exact ⟨(if key.comment = [] then [] else 32 :: key.comment) ++ [10], by simp⟩
  · rw [kept.parse_of_line lawful (stripLineEnd_append_feed noReturn) (key.trimSpace_line [10]),
      if_neg (Nat.not_lt.mpr short), clean, if_neg Bool.false_ne_true]
  · exact kept.authorizedKeyLine_ok lawful

namespace Sample

/-- An Ed25519 key. -/
structure EdKey where
  bytes : List UInt8
  sized : bytes.length = 32

/-- The wire form before the 32 bytes of the key. -/
def edHeader : List UInt8 :=
  [0, 0, 0, 11] ++ utf8 "ssh-ed25519" ++ [0, 0, 0, 32]

def parseEd (blob : List UInt8) : Option EdKey :=
  match GoString.cutPrefix? blob edHeader with
  | none => none
  | some bytes => if sized : bytes.length = 32 then some ⟨bytes, sized⟩ else none

def isBlank (byte : UInt8) : Bool := byte = 32 || byte = 9

/-- A line is refused unless it starts with the type of its key. -/
def readLine (line : GoString) : Option (AuthorizedKey EdKey) :=
  let word := line.takeWhile fun byte => !isBlank byte
  let behind := (line.dropWhile fun byte => !isBlank byte).dropWhile isBlank
  let field := behind.takeWhile fun byte => !isBlank byte
  let rest := behind.dropWhile fun byte => !isBlank byte
  if word = utf8 "ssh-ed25519" then
    ((base64StdDecode? field).bind parseEd).map fun key =>
      ⟨key, Text.trimSpace rest, [], []⟩
  else none

/-- The library as far as Ed25519 keys go. -/
def edLibrary : SSH where
  Key := EdKey
  parsePublicKey := parseEd
  marshal := fun key => edHeader ++ key.bytes
  type := fun _ => utf8 "ssh-ed25519"
  rsaBits := fun _ => none
  fingerprintSHA256 := fun key =>
    utf8 "SHA256:" ++ ((base64Values (sha256 (edHeader ++ key.bytes))).map base64StdDigit)
  parseAuthorizedKey := readLine

theorem isBlank_of_isVisible {byte : UInt8} (visible : isVisible byte) : isBlank byte = false := by
  simp only [isVisible, Bool.and_eq_true, decide_eq_true_eq] at visible
  have different : ∀ other : UInt8, other ≤ 32 → byte ≠ other := by
    rintro other small rfl
    exact absurd (UInt8.le_trans visible.1 small) (by decide)
  simp [isBlank, different 32 (by decide), different 9 (by decide)]

theorem edLibrary_lawful : edLibrary.Lawful where
  parse_marshal := by
    rintro ⟨bytes, sized⟩
    change parseEd (edHeader ++ bytes) = _
    simp only [parseEd, GoString.cutPrefix?_append, sized, dif_pos]
    rfl
  comment_within := by
    intro line parsed read
    change readLine line = _ at read
    simp only [readLine] at read
    split at read
    swap
    · cases read
    obtain ⟨key, _, rfl⟩ := Option.map_eq_some_iff.mp read
    exact (Text.trim_infix _ _).trans (((List.dropWhile_suffix _).trans
      ((List.dropWhile_suffix _).trans (List.dropWhile_suffix _))).isInfix)
  reads_line := by
    intro word field rest blob key typed _ visibleWord _ visibleField blankRest _ _ decoded parsed
    have plain : ∀ text : GoString, text.all isVisible → ∀ byte ∈ text, (!isBlank byte) = true := by
      intro text visible byte member
      rw [isBlank_of_isVisible (List.all_eq_true.mp visible byte member)]
      rfl
    have filled : field ≠ [] := by
      rintro rfl
      cases decoded
      have nothing : parseEd [] = none := by decide
      cases nothing.symm.trans parsed
    have skipped : (32 :: (field ++ rest)).dropWhile isBlank = field ++ rest := by
      obtain ⟨first, others, rfl⟩ := List.exists_cons_of_ne_nil filled
      have visible := plain _ visibleField first List.mem_cons_self
      have space : isBlank 32 = true := by decide
      simp only [Bool.not_eq_true'] at visible
      simp [space, visible]
    have ended : rest.takeWhile (fun byte => !isBlank byte) = [] ∧
        rest.dropWhile (fun byte => !isBlank byte) = rest := by
      rcases blankRest with rfl | head | head
      · exact ⟨rfl, rfl⟩
      all_goals
        obtain ⟨others, rfl⟩ := List.head?_eq_some_iff.mp head
        exact ⟨by simp [isBlank], by simp [isBlank]⟩
    change readLine _ = _
    simp only [readLine, List.dropWhile_append_of_pos (plain word visibleWord),
      List.takeWhile_append_of_pos (plain word visibleWord)]
    have stop : (32 :: (field ++ rest)).dropWhile (fun byte => !isBlank byte) =
        32 :: (field ++ rest) := by simp [isBlank]
    have firstWord : word ++ (32 :: (field ++ rest)).takeWhile (fun byte => !isBlank byte) =
        utf8 "ssh-ed25519" := by
      simp only [List.takeWhile_cons, isBlank, decide_true, Bool.true_or, Bool.not_true,
        Bool.false_eq_true, if_false, List.append_nil]
      exact typed
    rw [if_pos firstWord, stop, skipped, List.takeWhile_append_of_pos (plain field visibleField),
      List.dropWhile_append_of_pos (plain field visibleField), ended.1,
      ended.2, List.append_nil, decoded]
    change (parseEd blob).map _ = _
    rw [show parseEd blob = some key from parsed]
    rfl

def storedBlob : List UInt8 := edHeader ++ List.replicate 32 7

end Sample

open Sample in
/-- A stored key whose comment has spaces around it. -/
theorem authorizedKeyLineFrom_reads_back_laptop :
    ∃ line, authorizedKeyLineFrom edLibrary (utf8 "ssh-ed25519") storedBlob
        (utf8 " laptop ") = .ok line ∧
      ∃ key, parse edLibrary line = .ok key ∧ key.comment = utf8 "laptop" := by
  obtain ⟨line, written⟩ : ∃ line, authorizedKeyLineFrom edLibrary (utf8 "ssh-ed25519")
      storedBlob (utf8 " laptop ") = .ok line := ⟨_, rfl⟩
  have printed : ∀ pub, edLibrary.parsePublicKey storedBlob = some pub →
      validateFingerprint (edLibrary.fingerprintSHA256 pub) = .ok () := by
    intro pub parsed
    cases parsed
    decide +kernel
  obtain ⟨_, _, _, pub, _, _, reads⟩ :=
    authorizedKeyLineFrom_reads_back edLibrary_lawful printed written
  cases written
  obtain ⟨key, parsed, _, _, comment, _⟩ := reads (by decide +kernel) (by decide +kernel)
  exact ⟨_, rfl, key, parsed, comment.trans (by decide +kernel)⟩

end Vallet.Keys
