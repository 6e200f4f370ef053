import Vallet.Domain.Validate
import Vallet.Domain.Publishing

/-!
# SSH public keys and their canonical lines

A submission is one line; what is kept of it is the algorithm, the wire form
and the trimmed comment.  The line that is published is built from these three
and never from the submission.  The SSH library is a parameter: it reads a
line, reads and writes the wire form, and knows the type of a key.
-/

namespace Vallet.Keys

open Encoding

def maxLineBytes : Nat := 16 * 1024
def maxFileBytes : Nat := 1048576
def minRSABits : Nat := 3072

def errMalformed : Err := .errorf "keys: malformed public key" .invalidInput

def errOptionsPresent : Err :=
  .errorf "keys: authorized_keys options are not permitted" .invalidInput

def errUnsupportedAlgorithm : Err :=
  .errorf "keys: unsupported key algorithm" .invalidInput

def errWeakKey : Err := .errorf "keys: key is too weak" .invalidInput

def errMultipleKeys : Err :=
  .errorf "keys: exactly one key is required" .invalidInput

def errBadComment : Err := .errorf "keys: invalid key comment" .invalidInput

def errTooLarge : Err :=
  .errorf "keys: input exceeds the maximum permitted size" .invalidInput

def errPrivateKey : Err :=
  .errorf ("keys: private key material detected; submit only the .pub file " ++
    "— the pasted content was not stored") .invalidInput

inductive Algorithm where
  | ed25519
  | ecdsa256
  | ecdsa384
  | ecdsa521
  | rsa
  | skEd25519
  | skECDSA256
deriving DecidableEq, Repr

def Algorithm.text : Algorithm → GoString
  | .ed25519 => utf8 "ssh-ed25519"
  | .ecdsa256 => utf8 "ecdsa-sha2-nistp256"
  | .ecdsa384 => utf8 "ecdsa-sha2-nistp384"
  | .ecdsa521 => utf8 "ecdsa-sha2-nistp521"
  | .rsa => utf8 "ssh-rsa"
  | .skEd25519 => utf8 "sk-ssh-ed25519@openssh.com"
  | .skECDSA256 => utf8 "sk-ecdsa-sha2-nistp256@openssh.com"

def Algorithm.all : List Algorithm :=
  [.ed25519, .ecdsa256, .ecdsa384, .ecdsa521, .rsa, .skEd25519, .skECDSA256]

/-- The allowlisted algorithm of a name; `IsValid` is that there is one. -/
def Algorithm.ofText? (name : GoString) : Option Algorithm :=
  Algorithm.all.find? fun algorithm => algorithm.text = name

/-- What the library reads on a line. -/
structure AuthorizedKey (Key : Type) where
  key : Key
  comment : GoString
  options : List GoString
  rest : GoString

structure SSH where
  Key : Type
  parsePublicKey : List UInt8 → Option Key
  marshal : Key → List UInt8
  type : Key → GoString
  /-- The size of the modulus, for a key that has one. -/
  rsaBits : Key → Option Nat
  fingerprintSHA256 : Key → GoString
  parseAuthorizedKey : GoString → Option (AuthorizedKey Key)

structure ParsedKey where
  algorithm : Algorithm
  blob : List UInt8
  comment : GoString
  fingerprint : GoString
  bitLen : Nat
deriving DecidableEq, Repr

def lowerByte (byte : UInt8) : UInt8 :=
  if 65 ≤ byte && byte ≤ 90 then byte + 32 else byte

/-- `bytes.ToLower`, as far as the result is ASCII: two letters outside ASCII
have an ASCII lower case, all others keep their bytes here. -/
def toLower : GoString → GoString
  | 0xc4 :: 0xb0 :: rest => 105 :: toLower rest
  | 0xe2 :: 0x84 :: 0xaa :: rest => 107 :: toLower rest
  | byte :: rest => lowerByte byte :: toLower rest
  | [] => []

def privateKeyMarkers : List GoString :=
  [utf8 "private key", utf8 "putty-user-key-file"]

def containsPrivateKeyMaterial (raw : GoString) : Bool :=
  privateKeyMarkers.any fun marker => decide (marker <:+: toLower raw)

/-- Without one line end. -/
def stripLineEnd (raw : GoString) : GoString :=
  if raw.getLast? = some 10 then
    if raw.dropLast.getLast? = some 13 then raw.dropLast.dropLast
    else raw.dropLast
  else raw

def strength (ssh : SSH) (algorithm : Algorithm) (key : ssh.Key) : Except Err Nat :=
  match algorithm with
  | .rsa =>
    match ssh.rsaBits key with
    | none => .error errMalformed
    | some bits => if bits < minRSABits then .error errWeakKey else .ok bits
  | .ecdsa384 => .ok 384
  | .ecdsa521 => .ok 521
  | .ed25519 | .ecdsa256 | .skEd25519 | .skECDSA256 => .ok 256

def checkInvariants (key : ParsedKey) : Except Err Unit :=
  if (validateFingerprint key.fingerprint).toOption.isNone then
    .error errMalformed
  else if (validateKeyComment key.comment).toOption.isNone then
    .error errBadComment
  else .ok ()

def finalize (ssh : SSH) (pub : ssh.Key) (comment : GoString) : Except Err ParsedKey :=
  match Algorithm.ofText? (ssh.type pub) with
  | none => .error errUnsupportedAlgorithm
  | some algorithm =>
    match strength ssh algorithm pub with
    | .error failure => .error failure
    | .ok bitLen =>
      let key : ParsedKey :=
        { algorithm
          blob := ssh.marshal pub
          comment := Text.trimSpace comment
          fingerprint := ssh.fingerprintSHA256 pub
          bitLen }
      match checkInvariants key with
      | .error failure => .error failure
      | .ok () => .ok key

def parseKeyLine (ssh : SSH) (line : GoString) : Except Err ParsedKey :=
  match ssh.parseAuthorizedKey line with
  | none => .error errMalformed
  | some parsed =>
    if parsed.options ≠ [] then .error errOptionsPresent
    else if Text.trimSpace parsed.rest ≠ [] then .error errMultipleKeys
    else finalize ssh parsed.key parsed.comment

def parse (ssh : SSH) (raw : GoString) : Except Err ParsedKey :=
  if raw.length > maxLineBytes then .error errTooLarge
  else if containsPrivateKeyMaterial raw then .error errPrivateKey
  else if Text.trimSpace raw = [] then .error errMalformed
  else
    let line := stripLineEnd raw
    if line.any (fun byte => byte = 10 || byte = 13) then
      .error errMultipleKeys
    else if (line.dropWhile fun byte => byte = 32 || byte = 9).head? =
        some 35 then
      .error errMalformed
    else parseKeyLine ssh line

/-- The line of a key without its end. -/
def lineText (algorithm : GoString) (blob : List UInt8) (comment : GoString) : GoString :=
  algorithm ++ 32 :: (base64StdEncode blob ++
    if comment = [] then [] else 32 :: comment)

def authorizedKeyLineFrom (ssh : SSH) (algorithm : GoString)
    (blob : List UInt8) (comment : GoString) : Except Err GoString :=
  match Algorithm.ofText? algorithm with
  | none => .error errUnsupportedAlgorithm
  | some known =>
    match ssh.parsePublicKey blob with
    | none => .error errMalformed
    | some pub =>
      if ssh.type pub ≠ algorithm then .error errMalformed
      else
        match strength ssh known pub with
        | .error failure => .error failure
        | .ok _ =>
          if comment.any (fun byte => byte = 10 || byte = 13) then
            .error errBadComment
          else
            let comment := Text.trimSpace comment
            if (validateKeyComment comment).toOption.isNone then
              .error errBadComment
            else
              .ok (lineText algorithm (ssh.marshal pub) comment ++ [10])

def authorizedKeyLine (ssh : SSH) (key : ParsedKey) : Except Err GoString :=
  authorizedKeyLineFrom ssh key.algorithm.text key.blob key.comment

/-- A visible ASCII character. -/
def isVisible (byte : UInt8) : Bool := 33 ≤ byte && byte ≤ 126

/-- What is assumed of the library: the wire form of a key reads back as the
key; on a line that starts with the type of its key the base64 field goes up to
the first space or tab, and the trimmed rest is the comment. -/
structure SSH.Lawful (ssh : SSH) : Prop where
  parse_marshal : ∀ key, ssh.parsePublicKey (ssh.marshal key) = some key
  comment_within : ∀ line parsed,
    ssh.parseAuthorizedKey line = some parsed → parsed.comment <:+: line
  reads_line : ∀ word field rest blob key, word = ssh.type key →
    word ≠ [] → word.all isVisible → word.head? ≠ some 35 →
    field.all isVisible →
    (rest = [] ∨ rest.head? = some 32 ∨ rest.head? = some 9) →
    10 ∉ rest → 13 ∉ rest →
    base64StdDecode? field = some blob → ssh.parsePublicKey blob = some key →
    ssh.parseAuthorizedKey (word ++ 32 :: (field ++ rest)) =
      some ⟨key, Text.trimSpace rest, [], []⟩

/-! ## Lower case -/

variable {byte : UInt8}

theorem lowerByte_lt (ascii : lowerByte byte < 128) : byte < 128 := by
  unfold lowerByte at ascii
  split at ascii
  · rename_i upper
    simp only [Bool.and_eq_true, decide_eq_true_eq] at upper
    exact UInt8.lt_of_le_of_lt upper.2 (by decide)
  · exact ascii

theorem toLower_cons (plain : byte ≠ 0xc4 ∧ byte ≠ 0xe2)
    (rest : GoString) : toLower (byte :: rest) = lowerByte byte :: toLower rest := by
  rw [toLower]
  · rintro tail rfl
    exact absurd rfl plain.1
  · rintro tail rfl
    exact absurd rfl plain.2

theorem plain_of_ascii (ascii : byte < 128) : byte ≠ 0xc4 ∧ byte ≠ 0xe2 := by
  constructor
  all_goals
    rintro rfl
    exact absurd ascii (by decide)

theorem toLower_ascii_append {word : GoString}
    (ascii : ∀ byte ∈ word, byte < 128) (rest : GoString) :
    toLower (word ++ rest) = word.map lowerByte ++ toLower rest := by
  induction word with
  | nil => rfl
  | cons byte word induction =>
    rw [List.cons_append,
      toLower_cons (plain_of_ascii (ascii byte List.mem_cons_self)), induction fun other member =>
        ascii other (List.mem_cons_of_mem byte member),
      List.map_cons, List.cons_append]

/-- A byte that can start the encoding of a letter with an ASCII lower
case. -/
def IsLead (byte : UInt8) : Prop := byte < 128 ∨ byte = 0xc4 ∨ byte = 0xe2

theorem toLower_append {rest : GoString}
    (lead : ∀ byte tail, rest = byte :: tail → IsLead byte)
    (text : GoString) : toLower (text ++ rest) = toLower text ++ toLower rest := by
  have notInside : ∀ inside tail, rest = inside :: tail →
      inside ≠ 0xb0 ∧ inside ≠ 0x84 ∧ inside ≠ 0xaa := by
    intro inside tail same
    rcases lead inside tail same with ascii | rfl | rfl
    · refine ⟨?_, ?_, ?_⟩
      all_goals
        rintro rfl
        exact absurd ascii (by decide)
    · decide
    · decide
  fun_induction toLower text with
  | case1 text induction => rw [List.cons_append, List.cons_append, toLower,
      induction, List.cons_append]
  | case2 text induction => rw [List.cons_append, List.cons_append,
      List.cons_append, toLower, induction, List.cons_append]
  | case3 byte text notDotted notKelvin induction =>
    rw [List.cons_append, List.cons_append, toLower, induction]
    · rintro tail rfl whole
      cases text with
      | nil => exact (notInside _ _ whole).1 rfl
      | cons second text =>
        rw [List.cons_append, List.cons.injEq] at whole
        exact notDotted text rfl (by rw [whole.1])
    · rintro tail rfl whole
      cases text with
      | nil => exact (notInside _ _ whole).2.1 rfl
      | cons second text =>
        rw [List.cons_append, List.cons.injEq] at whole
        cases text with
        | nil => exact (notInside _ _ whole.2).2.2 rfl
        | cons third text =>
          rw [List.cons_append, List.cons.injEq] at whole
          exact notKelvin text rfl (by rw [whole.1, whole.2.1])
  | case4 => rfl

theorem suffix_toLower {text ending : GoString}
    (suffix : ending <:+ toLower text) : ∃ tail, tail <:+ text ∧ ending = toLower tail := by
  fun_induction toLower text with
  | case1 rest induction =>
    rcases List.suffix_cons_iff.mp suffix with rfl | shorter
    · exact ⟨_, List.suffix_refl _, by rw [toLower]⟩
    · obtain ⟨tail, within, same⟩ := induction shorter
      exact ⟨tail, within.trans (List.suffix_append [0xc4, 0xb0] rest), same⟩
  | case2 rest induction =>
    rcases List.suffix_cons_iff.mp suffix with rfl | shorter
    · exact ⟨_, List.suffix_refl _, by rw [toLower]⟩
    · obtain ⟨tail, within, same⟩ := induction shorter
      exact ⟨tail,
        within.trans (List.suffix_append [0xe2, 0x84, 0xaa] rest), same⟩
  | case3 byte rest notDotted notKelvin induction =>
    rcases List.suffix_cons_iff.mp suffix with rfl | shorter
    · refine ⟨_, List.suffix_refl _, ?_⟩
      rw [toLower]
      · exact notDotted
      · exact notKelvin
    · obtain ⟨tail, within, same⟩ := induction shorter
      exact ⟨tail, within.trans (List.suffix_cons byte rest), same⟩
  | case4 => exact ⟨[], List.suffix_refl _, List.suffix_nil.mp suffix⟩

/-- An ASCII text that the lower case starts with does not depend on what
follows it. -/
theorem starts_toLower_append {marker text : GoString}
    (ascii : ∀ byte ∈ marker, byte < 128) (starts : marker <+: toLower text)
    (more : GoString) : marker <+: toLower (text ++ more) := by
  fun_induction toLower text generalizing marker with
  | case1 text induction =>
    rw [List.cons_append, List.cons_append, toLower]
    rcases List.prefix_cons_iff.mp starts with rfl | ⟨tail, rfl, shorter⟩
    · exact List.nil_prefix
    · exact List.cons_prefix_cons.mpr ⟨rfl, induction
        (fun byte member => ascii byte (List.mem_cons_of_mem _ member))
        shorter⟩
  | case2 text induction =>
    rw [List.cons_append, List.cons_append, List.cons_append, toLower]
    rcases List.prefix_cons_iff.mp starts with rfl | ⟨tail, rfl, shorter⟩
    · exact List.nil_prefix
    · exact List.cons_prefix_cons.mpr ⟨rfl, induction
        (fun byte member => ascii byte (List.mem_cons_of_mem _ member))
        shorter⟩
  | case3 byte text notDotted notKelvin induction =>
    rcases List.prefix_cons_iff.mp starts with rfl | ⟨tail, rfl, shorter⟩
    · exact List.nil_prefix
    have small := lowerByte_lt (ascii _ List.mem_cons_self)
    rw [List.cons_append, toLower_cons (plain_of_ascii small)]
    exact List.cons_prefix_cons.mpr ⟨rfl, induction
      (fun byte member => ascii byte (List.mem_cons_of_mem _ member))
      shorter⟩
  | case4 =>
    rw [List.prefix_nil.mp starts]
    exact List.nil_prefix

/-- Lower case is read the same way wherever a part of a text stands. -/
theorem infix_toLower {marker part text : GoString} (filled : marker ≠ [])
    (ascii : ∀ byte ∈ marker, byte < 128)
    (found : marker <:+: toLower part) (within : part <:+: text) : marker <:+: toLower text := by
  obtain ⟨ending, starts, suffix⟩ := List.infix_iff_prefix_suffix.mp found
  obtain ⟨tail, ⟨before, rfl⟩, rfl⟩ := suffix_toLower suffix
  obtain ⟨left, right, rfl⟩ := within
  have extended := starts_toLower_append ascii starts right
  have lead : ∀ byte rest, tail ++ right = byte :: rest → IsLead byte := by
    intro byte rest same
    by_contra notLead
    have plain : byte ≠ 0xc4 ∧ byte ≠ 0xe2 :=
      ⟨fun same => notLead (.inr (.inl same)),
        fun same => notLead (.inr (.inr same))⟩
    obtain ⟨first, others, rfl⟩ := List.exists_cons_of_ne_nil filled
    rw [same, toLower_cons plain, List.cons_prefix_cons] at extended
    have small : first < 128 := ascii first List.mem_cons_self
    rw [extended.1] at small
    exact notLead (.inl (lowerByte_lt small))
  have whole := toLower_append lead (left ++ before)
  have regrouped : left ++ (before ++ tail) ++ right =
      left ++ before ++ (tail ++ right) := by simp
  rw [regrouped, whole]
  exact extended.isInfix.trans (List.suffix_append _ _).isInfix

/-! ## Algorithm names -/

variable (algorithm : Algorithm)

@[simp] theorem Algorithm.ofText?_text :
    Algorithm.ofText? algorithm.text = some algorithm := by
  cases algorithm <;> decide

theorem Algorithm.text_of_ofText? {name : GoString} {algorithm : Algorithm}
    (known : Algorithm.ofText? name = some algorithm) : algorithm.text = name := by
  simpa using List.find?_some known

theorem Algorithm.text_visible : algorithm.text.all isVisible := by
  cases algorithm <;> decide

theorem Algorithm.text_cons :
    ∃ first rest, algorithm.text = first :: rest ∧
      (first = 115 ∨ first = 101) := by
  cases algorithm
  all_goals exact ⟨_, _, rfl, by decide⟩

/-! ## What a submission leaves -/

/-- The submission was read as a key with a comment, and this is what is kept
of it. -/
structure Accepted (ssh : SSH) (raw : GoString) (key : ParsedKey)
    (pub : ssh.Key) (comment : GoString) : Prop where
  notPrivate : containsPrivateKeyMaterial raw = false
  read : ∃ rest, ssh.parseAuthorizedKey (stripLineEnd raw) =
    some ⟨pub, comment, [], rest⟩
  type : ssh.type pub = key.algorithm.text
  strong : strength ssh key.algorithm pub = .ok key.bitLen
  kept : key =
    { algorithm := key.algorithm
      blob := ssh.marshal pub
      comment := Text.trimSpace comment
      fingerprint := ssh.fingerprintSHA256 pub
      bitLen := key.bitLen }
  checked : checkInvariants key = .ok ()

variable {key : ParsedKey}

theorem finalize_ok {ssh : SSH} {pub : ssh.Key} {comment : GoString}
    (done : finalize ssh pub comment = .ok key) :
    ssh.type pub = key.algorithm.text ∧
      strength ssh key.algorithm pub = .ok key.bitLen ∧
      key =
        { algorithm := key.algorithm
          blob := ssh.marshal pub
          comment := Text.trimSpace comment
          fingerprint := ssh.fingerprintSHA256 pub
          bitLen := key.bitLen } ∧
      checkInvariants key = .ok () := by
  unfold finalize at done
  split at done
  · cases done
  rename_i algorithm known
  split at done
  · cases done
  rename_i bitLen strong
  simp only at done
  split at done
  · cases done
  · rename_i checked
    cases done
    exact ⟨(Algorithm.text_of_ofText? known).symm, strong, rfl, checked⟩

theorem parse_ok {ssh : SSH} {raw : GoString}
    (parsed : parse ssh raw = .ok key) : ∃ pub comment, Accepted ssh raw key pub comment := by
  unfold parse at parsed
  split at parsed
  · cases parsed
  split at parsed
  · cases parsed
  rename_i notPrivate
  split at parsed
  · cases parsed
  simp only at parsed
  split at parsed
  · cases parsed
  split at parsed
  · cases parsed
  unfold parseKeyLine at parsed
  split at parsed
  · cases parsed
  rename_i line read
  split at parsed
  · cases parsed
  rename_i noOptions
  split at parsed
  · cases parsed
  obtain ⟨type, strong, kept, checked⟩ := finalize_ok parsed
  obtain ⟨pub, comment, options, rest⟩ := line
  have empty : options = [] := not_not.mp noOptions
  rw [empty] at read
  exact ⟨pub, comment, by simpa using notPrivate,
    ⟨rest, read⟩, type, strong, kept, checked⟩

theorem stripLineEnd_within (raw : GoString) : stripLineEnd raw <:+: raw := by
  unfold stripLineEnd
  split
  · split
    · exact ((List.dropLast_prefix _).trans (List.dropLast_prefix raw)).isInfix
    · exact (List.dropLast_prefix raw).isInfix
  · exact List.infix_refl raw

theorem containsPrivateKeyMaterial_of_infix {part text : GoString}
    (within : part <:+: text) (found : containsPrivateKeyMaterial part) :
    containsPrivateKeyMaterial text := by
  obtain ⟨marker, listed, contained⟩ := List.any_eq_true.mp found
  have shapes : ∀ marker ∈ privateKeyMarkers,
      marker ≠ [] ∧ ∀ byte ∈ marker, byte < 128 := by decide +kernel
  have shape := shapes marker listed
  exact List.any_eq_true.mpr ⟨marker, listed, decide_eq_true
    (infix_toLower shape.1 shape.2 (of_decide_eq_true contained) within)⟩

theorem checkInvariants_ok
    (checked : checkInvariants key = .ok ()) : validateKeyComment key.comment = .ok () := by
  unfold checkInvariants at checked
  split at checked
  · cases checked
  split at checked
  · cases checked
  rename_i valid
  cases outcome : validateKeyComment key.comment with
  | ok => rfl
  | error failure =>
    rw [outcome] at valid
    exact absurd rfl valid

/-- A key in the form in which one is kept, with the library's own key. -/
structure Kept (ssh : SSH) (key : ParsedKey) (pub : ssh.Key) : Prop where
  type : ssh.type pub = key.algorithm.text
  strong : strength ssh key.algorithm pub = .ok key.bitLen
  blob : key.blob = ssh.marshal pub
  fingerprint : key.fingerprint = ssh.fingerprintSHA256 pub
  trimmed : Text.trimSpace key.comment = key.comment
  checked : checkInvariants key = .ok ()

namespace Accepted

variable {ssh : SSH} {raw : GoString} {key : ParsedKey} {pub : ssh.Key}
  {comment : GoString}

variable (accepted : Accepted ssh raw key pub comment)

include accepted

theorem comment_eq : key.comment = Text.trimSpace comment :=
  congrArg ParsedKey.comment accepted.kept

theorem keeps : Kept ssh key pub where
  type := accepted.type
  strong := accepted.strong
  blob := congrArg ParsedKey.blob accepted.kept
  fingerprint := congrArg ParsedKey.fingerprint accepted.kept
  trimmed := by rw [accepted.comment_eq, Text.trimSpace_trimSpace]
  checked := accepted.checked

/-- The comment was part of the submission, so it carries no marker either. -/
theorem comment_notPrivate
    (lawful : ssh.Lawful) : containsPrivateKeyMaterial key.comment = false := by
  obtain ⟨rest, read⟩ := accepted.read
  have within : key.comment <:+: raw := by
    rw [accepted.comment_eq]
    exact (Text.trim_infix _ _).trans
      ((lawful.comment_within _ _ read).trans (stripLineEnd_within raw))
  cases found : containsPrivateKeyMaterial key.comment with
  | false => rfl
  | true =>
    have everywhere := containsPrivateKeyMaterial_of_infix within found
    rw [accepted.notPrivate] at everywhere
    cases everywhere

end Accepted

namespace Kept

variable {ssh : SSH} {key : ParsedKey} {pub : ssh.Key} (kept : Kept ssh key pub)

include kept

theorem comment_visible : ∀ byte ∈ key.comment, 32 ≤ byte :=
  validateKeyComment_ok (checkInvariants_ok kept.checked)

theorem finalize_again : finalize ssh pub key.comment = .ok key := by
  have known : Algorithm.ofText? (ssh.type pub) = some key.algorithm := by
    rw [kept.type, Algorithm.ofText?_text]
  have same :
      { algorithm := key.algorithm
        blob := ssh.marshal pub
        comment := Text.trimSpace key.comment
        fingerprint := ssh.fingerprintSHA256 pub
        bitLen := key.bitLen : ParsedKey } = key := by
    rw [kept.trimmed, ← kept.blob, ← kept.fingerprint]
  simp only [finalize, known, kept.strong, same, kept.checked]

/-- What is kept is published as its canonical line. -/
theorem authorizedKeyLine_ok (lawful : ssh.Lawful) :
    authorizedKeyLine ssh key =
      .ok (lineText key.algorithm.text key.blob key.comment ++ [10]) := by
  have unbroken : key.comment.any
      (fun byte => byte = 10 || byte = 13) = false := by
    rw [List.any_eq_false]
    intro byte member broken
    have visible := kept.comment_visible byte member
    simp only [Bool.or_eq_true, decide_eq_true_eq] at broken
    rcases broken with rfl | rfl
    all_goals exact absurd visible (by decide)
  simp only [authorizedKeyLine, authorizedKeyLineFrom,
    Algorithm.ofText?_text, kept.blob, lawful.parse_marshal,
    kept.type, kept.strong, unbroken, kept.trimmed,
    checkInvariants_ok kept.checked]
  simp [Except.toOption]

end Kept

end Vallet.Keys
