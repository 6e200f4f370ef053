import Vallet.Auth.Token
import Vallet.Foundation.Text

/-!
# Validation of names, comments and fingerprints

Handles and set names are slugs.  Free text is valid UTF-8 without control
characters and without invisible formatting characters; in a key comment this
is what keeps the published file one key a line.
-/

namespace Vallet

open Auth (isControl)

def maxSlugLen : Nat := 64
def maxCommentLen : Nat := 256

/-- `[a-z0-9]`. -/
def isSlugByte (byte : UInt8) : Bool :=
  (97 ≤ byte && byte ≤ 122) || (48 ≤ byte && byte ≤ 57)

/-- `^[a-z0-9]([a-z0-9-]*[a-z0-9])?$`. -/
def isSlug (name : GoString) : Bool :=
  name.all (fun byte => isSlugByte byte || byte = 45) &&
    name.head?.any isSlugByte && name.getLast?.any isSlugByte

def validateSlug (field : String) (name : GoString) : Except Err Unit :=
  if name = [] then
    .error (.errorf s!"domain: {field} must not be empty" .invalidInput)
  else if name.length > maxSlugLen then
    .error (.errorf s!"domain: {field} exceeds 64 characters" .invalidInput)
  else if !isSlug name then
    .error (.errorf (s!"domain: {field} must be lowercase [a-z0-9-] with no " ++
      "leading or trailing hyphen") .invalidInput)
  else .ok ()

def validateSetName (name : GoString) : Except Err Unit :=
  validateSlug "set name" name

def validateHandle (name : GoString) : Except Err Unit :=
  validateSlug "handle" name

/-- The code points of category Cf. -/
def formatRanges : List (Nat × Nat) :=
  [(0xad, 0xad), (0x600, 0x605), (0x61c, 0x61c), (0x6dd, 0x6dd),
    (0x70f, 0x70f), (0x890, 0x891), (0x8e2, 0x8e2), (0x180e, 0x180e),
    (0x200b, 0x200f), (0x202a, 0x202e), (0x2060, 0x2064), (0x2066, 0x206f),
    (0xfeff, 0xfeff), (0xfff9, 0xfffb), (0x110bd, 0x110bd),
    (0x110cd, 0x110cd), (0x13430, 0x1343f), (0x1bca0, 0x1bca3),
    (0x1d173, 0x1d17a), (0xe0001, 0xe0001), (0xe0020, 0xe007f)]

/-- Invisible formatting characters apart from the two joiners, and the line
and paragraph separators. -/
def isDisallowedFormatRune (rune : Char) : Bool :=
  if formatRanges.any fun range =>
      range.1 ≤ rune.toNat && rune.toNat ≤ range.2 then
    rune.toNat ≠ 0x200c && rune.toNat ≠ 0x200d
  else
    rune.toNat = 0x2028 || rune.toNat = 0x2029

/-- `%U`. -/
def codePointText (rune : Char) : String :=
  let digits := (Nat.toDigits 16 rune.toNat).map Char.toUpper
  "U+" ++ String.ofList (List.replicate (4 - digits.length) '0' ++ digits)

/-- The complaint about the first character that may not stand in free
text. -/
def checkRunes (field : String) : List Char → Except Err Unit
  | [] => .ok ()
  | rune :: rest =>
    if isControl rune then
      .error (.errorf s!"domain: {field} must not contain control characters" .invalidInput)
    else if isDisallowedFormatRune rune then
      .error (.errorf (s!"domain: {field} must not contain the disallowed formatting " ++
          "or invisible character " ++ codePointText rune) .invalidInput)
    else checkRunes field rest

def validateKeyComment (comment : GoString) : Except Err Unit :=
  if comment = [] then .ok ()
  else
    match comment.runes with
    | none =>
      .error (.errorf "domain: key comment must be valid UTF-8" .invalidInput)
    | some runes =>
      match checkRunes "key comment" runes with
      | .error failure => .error failure
      | .ok () =>
        if runes.length > maxCommentLen then
          .error (.errorf "domain: key comment exceeds 256 characters" .invalidInput)
        else .ok ()

/-- `^SHA256:[A-Za-z0-9+/]{43}$`. -/
def validateFingerprint (fingerprint : GoString) : Except Err Unit :=
  match fingerprint.cutPrefix? (utf8 "SHA256:") with
  | some digest =>
    if digest.length = 43 ∧ digest.all (fun byte =>
        Encoding.base64StdText byte && byte ≠ 61) then .ok ()
    else .error malformed
  | none => .error malformed
where
  malformed : Err := .errorf ("domain: fingerprint must be \"SHA256:\" " ++
    "followed by 43 unpadded base64 characters") .invalidInput

/-- The bytes of a valid string are the encodings of its characters. -/
theorem GoString.eq_encode_of_runes {text : GoString} {runes : List Char}
    (valid : text.runes = some runes) : text = Text.encode runes := by
  obtain ⟨string, decoded, rfl⟩ := Option.map_eq_some_iff.mp valid
  have bytes : string.toByteArray = ⟨text.toArray⟩ := by
    unfold String.fromUTF8? at decoded
    split at decoded
    · cases decoded
      rfl
    · cases decoded
  have encoded : string.toByteArray = string.toList.utf8Encode := by
    rw [← String.toByteArray_ofList, String.ofList_toList]
  have same : (⟨text.toArray⟩ : ByteArray) =
      (string.toList.flatMap String.utf8EncodeChar).toByteArray := by
    rw [← bytes, encoded, List.utf8Encode]
  have data := congrArg (fun array => array.data.toList) same
  simpa [Text.encode] using data

theorem checkRunes_ok {field : String} {runes : List Char}
    (passed : checkRunes field runes = .ok ()) : ∀ rune ∈ runes, isControl rune = false := by
  induction runes with
  | nil => simp
  | cons rune rest induction =>
    unfold checkRunes at passed
    split at passed
    · cases passed
    rename_i visible
    split at passed
    · cases passed
    intro other member
    rcases List.mem_cons.mp member with rfl | member
    · simpa using visible
    · exact induction passed other member

/-- A valid comment has no control character, so no line break. -/
theorem validateKeyComment_ok {comment : GoString} (passed : validateKeyComment comment = .ok ()) :
    ∀ byte ∈ comment, 32 ≤ byte := by
  intro byte member
  unfold validateKeyComment at passed
  split at passed
  · rename_i empty
    simp [empty] at member
  · split at passed
    · cases passed
    rename_i runes valid
    split at passed
    · cases passed
    rename_i checked
    by_contra small
    have below : byte.toNat < 32 := by
      simpa [UInt8.le_iff_toNat_le] using small
    obtain ⟨rune, listed, same⟩ := Text.exists_of_mem_encode
      (UInt8.lt_iff_toNat_lt.mpr (by simp; omega)) (GoString.eq_encode_of_runes valid ▸ member)
    have visible := checkRunes_ok checked rune listed
    simp [isControl, same, below] at visible

end Vallet
