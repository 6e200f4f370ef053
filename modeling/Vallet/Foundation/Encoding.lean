import Mathlib.Data.List.Basic
import Mathlib.Tactic.IntervalCases

/-!
# Base64 and SHA-256

Both follow the published definitions: base64 unpadded in the URL-safe
alphabet and padded in the standard one.  Decoding skips line breaks and
accepts non-zero trailing bits, as the non-strict Go decoder does.
-/

namespace Encoding

/-- The digit of a six-bit value. -/
def base64Digit (value : Nat) : UInt8 :=
  if value < 26 then UInt8.ofNat (65 + value)
  else if value < 52 then UInt8.ofNat (97 + (value - 26))
  else if value < 62 then UInt8.ofNat (48 + (value - 52))
  else if value = 62 then 45
  else 95

/-- The six-bit value of a digit. -/
def base64Value? (digit : UInt8) : Option Nat :=
  let code := digit.toNat
  if 65 ≤ code ∧ code ≤ 90 then some (code - 65)
  else if 97 ≤ code ∧ code ≤ 122 then some (code - 97 + 26)
  else if 48 ≤ code ∧ code ≤ 57 then some (code - 48 + 52)
  else if code = 45 then some 62
  else if code = 95 then some 63
  else none

/-- The six-bit values of a byte sequence, the last one filled with zeros. -/
def base64Values : List UInt8 → List Nat
  | first :: second :: third :: rest =>
    let block := first.toNat * 65536 + second.toNat * 256 + third.toNat
    block / 262144 :: block / 4096 % 64 :: block / 64 % 64 :: block % 64 ::
      base64Values rest
  | [first, second] =>
    let block := first.toNat * 65536 + second.toNat * 256
    [block / 262144, block / 4096 % 64, block / 64 % 64]
  | [first] =>
    let block := first.toNat * 65536
    [block / 262144, block / 4096 % 64]
  | [] => []

def base64Encode (bytes : List UInt8) : List UInt8 :=
  (base64Values bytes).map base64Digit

/-- Bytes of a sequence of six-bit values; a lone last value is corrupt. -/
def base64Blocks? : List Nat → Option (List UInt8)
  | first :: second :: third :: fourth :: rest =>
    let block := first * 262144 + second * 4096 + third * 64 + fourth
    (base64Blocks? rest).map fun decoded =>
      UInt8.ofNat (block / 65536) :: UInt8.ofNat (block / 256 % 256) ::
        UInt8.ofNat (block % 256) :: decoded
  | [first, second, third] =>
    let block := first * 262144 + second * 4096 + third * 64
    some [UInt8.ofNat (block / 65536), UInt8.ofNat (block / 256 % 256)]
  | [first, second] => some [UInt8.ofNat ((first * 262144 + second * 4096) / 65536)]
  | [_] => none
  | [] => some []

def base64Decode? (text : List UInt8) : Option (List UInt8) :=
  ((text.filter fun byte => byte ≠ 10 ∧ byte ≠ 13).mapM base64Value?).bind
    base64Blocks?

variable {value : Nat}

theorem base64Value?_digit (bounded : value < 64) :
    base64Value? (base64Digit value) = some value := by
  revert value
  decide

/-- Digits are ASCII and neither a line break nor a dot. -/
theorem base64Digit_range (bounded : value < 64) :
    base64Digit value ≠ 10 ∧ base64Digit value ≠ 13 ∧
      base64Digit value ≠ 46 := by
  revert value
  decide

variable (bytes : List UInt8)

theorem base64Values_lt : ∀ value ∈ base64Values bytes, value < 64 := by
  fun_induction base64Values bytes with
  | case1 first second third rest block induction =>
    have firstBound := first.toNat_lt
    have secondBound := second.toNat_lt
    have thirdBound := third.toNat_lt
    simp only [List.mem_cons, forall_eq_or_imp]
    refine ⟨?_, ?_, ?_, ?_, induction⟩ <;> omega
  | case2 first second block =>
    have firstBound := first.toNat_lt
    have secondBound := second.toNat_lt
    simp only [List.mem_cons, List.not_mem_nil, or_false, forall_eq_or_imp, forall_eq]
    refine ⟨?_, ?_, ?_⟩ <;> omega
  | case3 first block =>
    have firstBound := first.toNat_lt
    simp only [List.mem_cons, List.not_mem_nil, or_false, forall_eq_or_imp, forall_eq]
    refine ⟨?_, ?_⟩ <;> omega
  | case4 => simp

theorem base64Blocks?_values :
    base64Blocks? (base64Values bytes) = some bytes := by
  fun_induction base64Values bytes with
  | case1 first second third rest block induction =>
    have firstBound := first.toNat_lt
    have secondBound := second.toNat_lt
    have thirdBound := third.toNat_lt
    have whole : block / 262144 * 262144 + block / 4096 % 64 * 4096 +
        block / 64 % 64 * 64 + block % 64 = block := by omega
    have firstByte : block / 65536 = first.toNat := by omega
    have secondByte : block / 256 % 256 = second.toNat := by omega
    have thirdByte : block % 256 = third.toNat := by omega
    simp [base64Blocks?, induction, whole, firstByte, secondByte, thirdByte]
  | case2 first second block =>
    have firstBound := first.toNat_lt
    have secondBound := second.toNat_lt
    have whole : block / 262144 * 262144 + block / 4096 % 64 * 4096 +
        block / 64 % 64 * 64 = block := by omega
    have firstByte : block / 65536 = first.toNat := by omega
    have secondByte : block / 256 % 256 = second.toNat := by omega
    simp [base64Blocks?, whole, firstByte, secondByte]
  | case3 first block =>
    have firstBound := first.toNat_lt
    have whole : block / 262144 * 262144 + block / 4096 % 64 * 4096 =
        block := by omega
    have firstByte : block / 65536 = first.toNat := by omega
    simp [base64Blocks?, whole, firstByte]
  | case4 => rfl

variable {values : List Nat}

theorem mapM_digits {digit : Nat → UInt8} {value? : UInt8 → Option Nat}
    (readBack : ∀ {value : Nat}, value < 64 → value? (digit value) = some value)
    (bounded : ∀ value ∈ values, value < 64) :
    (values.map digit).mapM value? = some values := by
  induction values with
  | nil => rfl
  | cons value values induction =>
    have head : value < 64 := bounded value (by simp)
    have tail := induction fun other member => bounded other (by simp [member])
    simp [List.mapM_cons, readBack head, tail]

theorem base64Encode_range {bytes : List UInt8} {byte : UInt8}
    (member : byte ∈ base64Encode bytes) : byte ≠ 10 ∧ byte ≠ 13 ∧ byte ≠ 46 := by
  obtain ⟨value, valueMember, rfl⟩ := List.mem_map.mp member
  exact base64Digit_range (base64Values_lt bytes value valueMember)

theorem base64Decode?_encode :
    base64Decode? (base64Encode bytes) = some bytes := by
  have unbroken : (base64Encode bytes).filter
      (fun byte => byte ≠ 10 ∧ byte ≠ 13) = base64Encode bytes := by
    rw [List.filter_eq_self]
    intro byte member
    have range := base64Encode_range member
    simp [range.1, range.2.1]
  rw [base64Decode?, unbroken, base64Encode, mapM_digits base64Value?_digit (base64Values_lt bytes)]
  exact base64Blocks?_values bytes

theorem dot_not_mem_base64Encode : 46 ∉ base64Encode bytes :=
  fun member => (base64Encode_range member).2.2 rfl

/-- Three bytes make four digits; one or two more make two or three. -/
theorem length_base64Values : (base64Values bytes).length = (bytes.length * 4 + 2) / 3 := by
  fun_induction base64Values bytes with
  | case1 first second third rest block induction =>
    simp only [List.length_cons, induction]
    omega
  | case2 | case3 | case4 => simp

theorem length_base64Encode : (base64Encode bytes).length = (bytes.length * 4 + 2) / 3 := by
  rw [base64Encode, List.length_map, length_base64Values]

theorem base64Encode_ne_nil {bytes : List UInt8} (filled : bytes ≠ []) :
    base64Encode bytes ≠ [] := by
  unfold base64Encode
  fun_cases base64Values bytes <;> simp_all

/-- No bit of the last value is left over when the bytes are full. -/
def base64Flush : List Nat → Bool
  | _ :: _ :: _ :: _ :: rest => base64Flush rest
  | [_, _, third] => third % 4 = 0
  | [_, second] => second % 16 = 0
  | _ => true

/-- What the decoder skips or ignores is not there. -/
def base64Canonical (text : List UInt8) : Prop :=
  (∀ byte ∈ text, byte ≠ 10 ∧ byte ≠ 13) ∧ base64Flush (text.filterMap base64Value?)

theorem base64Flush_values : base64Flush (base64Values bytes) := by
  fun_induction base64Values bytes with
  | case1 first second third rest block induction => exact induction
  | case2 first second block | case3 first block =>
    simp only [base64Flush, decide_eq_true_eq]
    omega
  | case4 => rfl

theorem base64Values_blocks (bounded : ∀ value ∈ values, value < 64)
    {bytes : List UInt8} (decoded : base64Blocks? values = some bytes)
    (flush : base64Flush values) : base64Values bytes = values := by
  fun_induction base64Blocks? values generalizing bytes with
  | case1 first second third fourth rest block induction =>
    obtain ⟨others, read, rfl⟩ := Option.map_eq_some_iff.mp decoded
    simp only [List.mem_cons, forall_eq_or_imp] at bounded
    obtain ⟨one, two, three, four, more⟩ := bounded
    simp only [base64Values, UInt8.toNat_ofNat', induction more read flush, List.cons.injEq,
      and_true]
    omega
  | case2 | case3 =>
    cases decoded
    simp only [List.mem_cons, forall_eq_or_imp, base64Flush, decide_eq_true_eq] at bounded flush
    simp only [base64Values, UInt8.toNat_ofNat', List.cons.injEq, and_true]
    omega
  | case4 => cases decoded
  | case5 =>
    cases decoded
    rfl

theorem base64Digit_value {digit : UInt8} (read : base64Value? digit = some value) :
    value < 64 ∧ base64Digit value = digit := by
  have checked : ∀ code : Fin 256, ∀ value ∈ base64Value? (UInt8.ofFin code),
      value < 64 ∧ base64Digit value = UInt8.ofFin code := by decide +kernel
  exact checked digit.toFin value read

theorem map_base64Digit {text : List UInt8}
    (read : text.mapM base64Value? = some values) :
    (∀ value ∈ values, value < 64) ∧ values.map base64Digit = text ∧
      text.filterMap base64Value? = values := by
  induction text generalizing values with
  | nil =>
    cases read
    simp
  | cons digit text induction =>
    simp only [List.mapM_cons, Option.bind_eq_bind, Option.bind_eq_some_iff] at read
    obtain ⟨value, first, others, rest, same⟩ := read
    cases same
    obtain ⟨bounded, digits, kept⟩ := induction rest
    obtain ⟨small, same⟩ := base64Digit_value first
    simp only [List.mem_cons, forall_eq_or_imp, List.map_cons, same, digits,
      List.filterMap_cons_some first, kept, and_true]
    exact ⟨small, bounded⟩

/-- An encoding is the only text the decoder reads without skipping or ignoring
anything. -/
theorem base64Encode_decode {text bytes : List UInt8} (canonical : base64Canonical text)
    (decoded : base64Decode? text = some bytes) : base64Encode bytes = text := by
  have unbroken : text.filter (fun byte => byte ≠ 10 ∧ byte ≠ 13) = text :=
    List.filter_eq_self.mpr fun byte member => by simpa using canonical.1 byte member
  rw [base64Decode?, unbroken, Option.bind_eq_some_iff] at decoded
  obtain ⟨values, read, blocks⟩ := decoded
  obtain ⟨bounded, digits, kept⟩ := map_base64Digit read
  rw [base64Encode, base64Values_blocks bounded blocks (kept ▸ canonical.2), digits]

theorem base64Canonical_encode : base64Canonical (base64Encode bytes) := by
  constructor
  · intro byte member
    have range := base64Encode_range member
    exact ⟨range.1, range.2.1⟩
  · rw [base64Encode,
      (map_base64Digit (mapM_digits base64Value?_digit (base64Values_lt bytes))).2.2]
    exact base64Flush_values bytes

/-- The digit of a six-bit value in the standard alphabet. -/
def base64StdDigit (value : Nat) : UInt8 :=
  if value = 62 then 43 else if value = 63 then 47 else base64Digit value

def base64StdValue? (digit : UInt8) : Option Nat :=
  if digit = 43 then some 62
  else if digit = 47 then some 63
  else if digit = 45 ∨ digit = 95 then none
  else base64Value? digit

/-- The standard encoding, filled up with `=` to a multiple of four. -/
def base64StdEncode (bytes : List UInt8) : List UInt8 :=
  (base64Values bytes).map base64StdDigit ++
    List.replicate ((3 - bytes.length % 3) % 3) 61

/-- The digits before at most two signs of padding. -/
def base64Unpad (text : List UInt8) : List UInt8 :=
  match text.reverse with
  | 61 :: 61 :: digits => digits.reverse
  | 61 :: digits => digits.reverse
  | _ => text

def base64StdDecode? (text : List UInt8) : Option (List UInt8) :=
  let unbroken := text.filter fun byte => byte ≠ 10 ∧ byte ≠ 13
  if unbroken.length % 4 ≠ 0 then none
  else ((base64Unpad unbroken).mapM base64StdValue?).bind base64Blocks?

/-- A byte of the standard alphabet or of its padding. -/
def base64StdText (byte : UInt8) : Bool :=
  (65 ≤ byte && byte ≤ 90) || (97 ≤ byte && byte ≤ 122) ||
    (48 ≤ byte && byte ≤ 57) || byte = 43 || byte = 47 || byte = 61

theorem base64StdValue?_digit (bounded : value < 64) :
    base64StdValue? (base64StdDigit value) = some value := by
  revert value
  decide

theorem base64StdDigit_range (bounded : value < 64) :
    base64StdText (base64StdDigit value) ∧ base64StdDigit value ≠ 61 := by
  revert value
  decide

theorem base64StdText_of_mem {bytes : List UInt8} {byte : UInt8}
    (member : byte ∈ base64StdEncode bytes) : base64StdText byte := by
  rcases List.mem_append.mp member with digit | padding
  · obtain ⟨value, valueMember, rfl⟩ := List.mem_map.mp digit
    exact (base64StdDigit_range (base64Values_lt bytes value valueMember)).1
  · rw [(List.mem_replicate.mp padding).2]
    decide

theorem length_base64StdEncode : (base64StdEncode bytes).length % 4 = 0 := by
  rw [base64StdEncode, List.length_append, List.length_map,
    List.length_replicate, length_base64Values]
  obtain ⟨blocks, remainder, few, same⟩ : ∃ blocks remainder,
      remainder < 3 ∧ bytes.length = 3 * blocks + remainder :=
    ⟨bytes.length / 3, bytes.length % 3, by omega, by omega⟩
  interval_cases remainder <;> omega

theorem base64Unpad_append {digits : List UInt8} (plain : 61 ∉ digits)
    {padding : Nat} (few : padding ≤ 2) :
    base64Unpad (digits ++ List.replicate padding 61) = digits := by
  have last : ∀ rest, digits.reverse ≠ 61 :: rest := fun rest same =>
    plain (List.mem_reverse.mp (same ▸ List.mem_cons_self))
  have reversed : (digits ++ List.replicate padding 61).reverse =
      List.replicate padding 61 ++ digits.reverse := by simp
  unfold base64Unpad
  rw [reversed]
  match padding, few with
  | 0, _ =>
    split
    · rename_i same
      exact absurd same (last _)
    · rename_i same
      exact absurd same (last _)
    · simp
  | 1, _ =>
    cases equation : digits.reverse with
    | nil => simpa using equation.symm
    | cons item rest => simp [List.replicate, ← equation]
  | 2, _ => simp [List.replicate]

theorem base64StdDecode?_encode :
    base64StdDecode? (base64StdEncode bytes) = some bytes := by
  have breaks : ∀ byte, base64StdText byte → byte ≠ 10 ∧ byte ≠ 13 := by
    intro byte text
    constructor
    all_goals
      rintro rfl
      exact absurd text (by decide)
  have unbroken : (base64StdEncode bytes).filter
      (fun byte => byte ≠ 10 ∧ byte ≠ 13) = base64StdEncode bytes := by
    apply List.filter_eq_self.mpr
    intro byte member
    simpa using breaks byte (base64StdText_of_mem member)
  have plain : 61 ∉ (base64Values bytes).map base64StdDigit := by
    intro member
    obtain ⟨value, valueMember, digit⟩ := List.mem_map.mp member
    exact (base64StdDigit_range (base64Values_lt bytes value valueMember)).2 digit
  have unpadded : base64Unpad (base64StdEncode bytes) =
      (base64Values bytes).map base64StdDigit :=
    base64Unpad_append plain (by omega)
  have values : ((base64Values bytes).map base64StdDigit).mapM
      base64StdValue? = some (base64Values bytes) :=
    mapM_digits base64StdValue?_digit (base64Values_lt bytes)
  simp only [base64StdDecode?, unbroken, length_base64StdEncode, ne_eq,
    not_true_eq_false, if_false, unpadded, values, Option.bind_some, base64Blocks?_values]

namespace Sha256

def rotateRight (word : UInt32) (count : UInt32) : UInt32 :=
  (word >>> count) ||| (word <<< (32 - count))

def initial : List UInt32 :=
  [0x6a09e667, 0xbb67ae85, 0x3c6ef372, 0xa54ff53a,
    0x510e527f, 0x9b05688c, 0x1f83d9ab, 0x5be0cd19]

def roundConstants : List UInt32 :=
  [0x428a2f98, 0x71374491, 0xb5c0fbcf, 0xe9b5dba5,
    0x3956c25b, 0x59f111f1, 0x923f82a4, 0xab1c5ed5,
    0xd807aa98, 0x12835b01, 0x243185be, 0x550c7dc3,
    0x72be5d74, 0x80deb1fe, 0x9bdc06a7, 0xc19bf174,
    0xe49b69c1, 0xefbe4786, 0x0fc19dc6, 0x240ca1cc,
    0x2de92c6f, 0x4a7484aa, 0x5cb0a9dc, 0x76f988da,
    0x983e5152, 0xa831c66d, 0xb00327c8, 0xbf597fc7,
    0xc6e00bf3, 0xd5a79147, 0x06ca6351, 0x14292967,
    0x27b70a85, 0x2e1b2138, 0x4d2c6dfc, 0x53380d13,
    0x650a7354, 0x766a0abb, 0x81c2c92e, 0x92722c85,
    0xa2bfe8a1, 0xa81a664b, 0xc24b8b70, 0xc76c51a3,
    0xd192e819, 0xd6990624, 0xf40e3585, 0x106aa070,
    0x19a4c116, 0x1e376c08, 0x2748774c, 0x34b0bcb5,
    0x391c0cb3, 0x4ed8aa4a, 0x5b9cca4f, 0x682e6ff3,
    0x748f82ee, 0x78a5636f, 0x84c87814, 0x8cc70208,
    0x90befffa, 0xa4506ceb, 0xbef9a3f7, 0xc67178f2]

/-- The big-endian bytes of a number. -/
def bigEndian (width : Nat) (value : Nat) : List UInt8 :=
  (List.range width).map fun index =>
    UInt8.ofNat (value / 256 ^ (width - 1 - index))

def pad (message : List UInt8) : List UInt8 :=
  message ++ [0x80] ++
    List.replicate ((119 - message.length % 64) % 64) 0 ++
    bigEndian 8 (message.length * 8)

def wordsOf : List UInt8 → List UInt32
  | first :: second :: third :: fourth :: rest =>
    UInt32.ofNat (first.toNat * 16777216 + second.toNat * 65536 +
      third.toNat * 256 + fourth.toNat) :: wordsOf rest
  | _ => []

/-- The message schedule, newest word first. -/
def schedule : Nat → List UInt32 → List UInt32
  | 0, words => words
  | rounds + 1, words =>
    let small0 := words.getD 14 0
    let small1 := words.getD 1 0
    let word := words.getD 15 0 +
      (rotateRight small0 7 ^^^ rotateRight small0 18 ^^^ (small0 >>> 3)) +
      words.getD 6 0 +
      (rotateRight small1 17 ^^^ rotateRight small1 19 ^^^ (small1 >>> 10))
    schedule rounds (word :: words)

def round : List UInt32 → UInt32 × UInt32 → List UInt32
  | [a, b, c, d, e, f, g, h], (constant, word) =>
    let sum1 := rotateRight e 6 ^^^ rotateRight e 11 ^^^ rotateRight e 25
    let choose := (e &&& f) ^^^ ((~~~e) &&& g)
    let first := h + sum1 + choose + constant + word
    let sum0 := rotateRight a 2 ^^^ rotateRight a 13 ^^^ rotateRight a 22
    let majority := (a &&& b) ^^^ (a &&& c) ^^^ (b &&& c)
    [first + (sum0 + majority), a, b, c, d + first, e, f, g]
  | registers, _ => registers

def compress (registers : List UInt32) (block : List UInt32) : List UInt32 :=
  let words := (schedule 48 block.reverse).reverse
  let mixed := (roundConstants.zip words).foldl round registers
  List.zipWith (· + ·) registers mixed

/-- Fold the compression function over sixteen-word blocks. -/
def digest : Nat → List UInt32 → List UInt32 → List UInt32
  | 0, registers, _ => registers
  | blocks + 1, registers, words =>
    digest blocks (compress registers (words.take 16)) (words.drop 16)

end Sha256

def sha256 (message : List UInt8) : List UInt8 :=
  let padded := Sha256.pad message
  (Sha256.digest (padded.length / 64) Sha256.initial
    (Sha256.wordsOf padded)).flatMap fun word =>
      Sha256.bigEndian 4 word.toNat

example :
    (sha256 [97, 98, 99]).take 8 =
      [0xba, 0x78, 0x16, 0xbf, 0x8f, 0x01, 0xcf, 0xea] := by
  decide +kernel

namespace Sha256

variable {registers : List UInt32}

theorem length_round
    (eight : registers.length = 8) (input : UInt32 × UInt32) :
    (round registers input).length = 8 := by
  match registers, eight with
  | [_, _, _, _, _, _, _, _], _ => rfl

theorem length_compress
    (eight : registers.length = 8) (block : List UInt32) :
    (compress registers block).length = 8 := by
  have rounds : ∀ (inputs : List (UInt32 × UInt32)) (mixed : List UInt32), mixed.length = 8 →
        (inputs.foldl round mixed).length = 8 := by
    intro inputs
    induction inputs with
    | nil => exact fun _ kept => kept
    | cons input rest induction =>
      intro mixed kept
      exact induction _ (length_round kept input)
  simp [compress, eight, rounds]

theorem length_digest (blocks : Nat)
    (eight : registers.length = 8) (words : List UInt32) :
    (digest blocks registers words).length = 8 := by
  induction blocks generalizing registers words with
  | zero => exact eight
  | succ blocks induction =>
    apply induction
    exact length_compress eight _

end Sha256

theorem length_sha256 (message : List UInt8) : (sha256 message).length = 32 := by
  have words := Sha256.length_digest ((Sha256.pad message).length / 64)
    (show Sha256.initial.length = 8 from rfl) (Sha256.wordsOf (Sha256.pad message))
  simp [sha256, List.length_flatMap, Sha256.bigEndian, words]

/-- A key as long as a block, the digest of it when it is longer. -/
def hmacKey (key : List UInt8) : List UInt8 :=
  let short := if key.length > 64 then sha256 key else key
  short ++ List.replicate (64 - short.length) 0

def hmacSha256 (key message : List UInt8) : List UInt8 :=
  sha256 ((hmacKey key).map (· ^^^ 0x5c) ++
    sha256 ((hmacKey key).map (· ^^^ 0x36) ++ message))

end Encoding
