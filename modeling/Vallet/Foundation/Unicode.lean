import Vallet.Foundation.Text

/-!
# Decoding and canonical ordering of characters

A byte sequence is read as characters, with the replacement character in the
place of every byte that starts no encoding; what was encoded is read back.  A
normalization form decomposes each character on its own and then puts the
marks of each run, those of non-zero combining class, into the order of their
classes.  A starter is never crossed, so the order can be computed on both
sides of it.
-/

namespace Text

/-- The characters of a byte sequence, as long as the number allows. -/
def decodeMany : Nat → List UInt8 → List Char
  | 0, _ => []
  | _ + 1, [] => []
  | count + 1, byte :: rest =>
    match ByteArray.utf8DecodeChar? ⟨(byte :: rest).toArray⟩ 0 with
    | some character => character :: decodeMany count ((byte :: rest).drop character.utf8Size)
    | none => '\uFFFD' :: decodeMany count rest

def decode (bytes : List UInt8) : List Char := decodeMany bytes.length bytes

theorem encode_cons (character : Char) (rest : List Char) :
    encode (character :: rest) = String.utf8EncodeChar character ++ encode rest :=
  List.flatMap_cons

@[simp] theorem encode_append (left right : List Char) :
    encode (left ++ right) = encode left ++ encode right :=
  List.flatMap_append

theorem exists_utf8EncodeChar (character : Char) :
    ∃ byte others, String.utf8EncodeChar character = byte :: others := by
  have size := String.length_utf8EncodeChar character
  have positive := character.utf8Size_pos
  cases encoded : String.utf8EncodeChar character with
  | nil =>
    rw [encoded, List.length_nil] at size
    omega
  | cons byte others => exact ⟨byte, others, rfl⟩

theorem decodeMany_encode {count : Nat} {characters : List Char}
    (enough : (encode characters).length ≤ count) :
    decodeMany count (encode characters) = characters := by
  induction characters generalizing count with
  | nil => cases count <;> rfl
  | cons character rest induction =>
    have size := String.length_utf8EncodeChar character
    have positive := character.utf8Size_pos
    rw [encode_cons] at enough ⊢
    obtain ⟨byte, others, encoded⟩ := exists_utf8EncodeChar character
    have bytes : (⟨(String.utf8EncodeChar character ++ encode rest).toArray⟩ : ByteArray) =
        (String.utf8EncodeChar character).toByteArray ++ (encode rest).toByteArray := by
      ext1
      simp
    have first : ByteArray.utf8DecodeChar?
        ⟨(String.utf8EncodeChar character ++ encode rest).toArray⟩ 0 = some character := by
      rw [bytes]
      exact ByteArray.utf8DecodeChar?_utf8EncodeChar_append
    cases count with
    | zero => simp [encoded] at enough
    | succ count =>
      rw [encoded, List.cons_append] at first ⊢
      rw [decodeMany, first]
      simp only
      rw [← List.cons_append, ← encoded, ← size, List.drop_left, induction]
      rw [List.length_append, size] at enough
      omega

theorem decode_encode (characters : List Char) : decode (encode characters) = characters :=
  decodeMany_encode (Nat.le_refl _)

end Text

namespace Normalization

variable {α β : Type} {combiningClass : α → Nat}

/-- Put a mark in front of ordered text, behind the marks of smaller class. -/
def insertMark (combiningClass : α → Nat) (mark : α) : List α → List α
  | [] => [mark]
  | next :: rest =>
    if combiningClass next ≠ 0 ∧ combiningClass next < combiningClass mark then
      next :: insertMark combiningClass mark rest
    else mark :: next :: rest

def canonicalOrder (combiningClass : α → Nat) : List α → List α
  | [] => []
  | item :: rest =>
    if combiningClass item = 0 then
      item :: canonicalOrder combiningClass rest
    else
      insertMark combiningClass item (canonicalOrder combiningClass rest)

theorem perm_insertMark (mark : α) (text : List α) :
    (insertMark combiningClass mark text).Perm (mark :: text) := by
  induction text with
  | nil => exact List.Perm.refl _
  | cons next rest induction =>
    rw [insertMark]
    split
    · exact (induction.cons next).trans (List.Perm.swap mark next rest)
    · exact List.Perm.refl _

theorem perm_canonicalOrder (text : List α) : (canonicalOrder combiningClass text).Perm text := by
  induction text with
  | nil => exact List.Perm.refl _
  | cons item rest induction =>
    rw [canonicalOrder]
    split
    · exact induction.cons item
    · exact (perm_insertMark item _).trans (induction.cons item)

theorem insertMark_append {starter : α}
    (starts : combiningClass starter = 0) (mark : α) (left right : List α) :
    insertMark combiningClass mark (left ++ starter :: right) =
      insertMark combiningClass mark left ++ starter :: right := by
  induction left with
  | nil => simp [insertMark, starts]
  | cons next rest induction =>
    rw [List.cons_append, insertMark, insertMark]
    split
    · rw [induction, List.cons_append]
    · rfl

/-- A starter is never crossed. -/
theorem canonicalOrder_append {starter : α}
    (starts : combiningClass starter = 0) (left right : List α) :
    canonicalOrder combiningClass (left ++ starter :: right) =
      canonicalOrder combiningClass left ++ starter :: canonicalOrder combiningClass right := by
  induction left with
  | nil => simp [canonicalOrder, starts]
  | cons item rest induction =>
    rw [List.cons_append, canonicalOrder, canonicalOrder, induction]
    split
    · rfl
    · rw [insertMark_append starts]

variable {image : α → List β}

theorem flatMap_insertMark {mark : α} (dropped : image mark = []) (text : List α) :
    (insertMark combiningClass mark text).flatMap image = text.flatMap image := by
  induction text with
  | nil => simp [insertMark, dropped]
  | cons next rest induction =>
    rw [insertMark]
    split
    · rw [List.flatMap_cons, induction, List.flatMap_cons]
    · rw [List.flatMap_cons, dropped, List.nil_append]

variable {text : List α}

section

variable (dropped : ∀ item ∈ text, combiningClass item ≠ 0 → image item = [])

include dropped

/-- The order of marks does not matter to an image that drops them, whatever
follows. -/
theorem flatMap_canonicalOrder_append (rest : List α) :
    (canonicalOrder combiningClass (text ++ rest)).flatMap image =
      text.flatMap image ++ (canonicalOrder combiningClass rest).flatMap image := by
  induction text with
  | nil => rfl
  | cons item others induction =>
    have later := induction fun other member =>
      dropped other (List.mem_cons_of_mem item member)
    rw [List.cons_append, canonicalOrder]
    split
    · rw [List.flatMap_cons, later, List.flatMap_cons, List.append_assoc]
    · rename_i marks
      have none := dropped item List.mem_cons_self marks
      rw [flatMap_insertMark none, later, List.flatMap_cons, none, List.nil_append]

theorem flatMap_canonicalOrder :
    (canonicalOrder combiningClass text).flatMap image = text.flatMap image := by
  have alone := flatMap_canonicalOrder_append dropped []
  rw [List.append_nil, canonicalOrder, List.flatMap_nil, List.append_nil] at alone
  exact alone

/-- Text of which something is kept, and whose marks are dropped, keeps it
together wherever it stands. -/
theorem infix_flatMap_canonicalOrder (kept : text.flatMap image ≠ []) (before after : List α) :
    ∃ left right, (canonicalOrder combiningClass
      (before ++ (text ++ after))).flatMap image = left ++ (text.flatMap image ++ right) := by
  obtain ⟨item, member, filled⟩ : ∃ item ∈ text, image item ≠ [] := by
    by_contra none
    apply kept
    rw [List.flatMap_eq_nil_iff]
    intro item member
    by_contra filled
    exact none ⟨item, member, filled⟩
  obtain ⟨leading, starter, rest, rfl, front, first⟩ :
      ∃ leading starter rest, text = leading ++ starter :: rest ∧
        (∀ other ∈ leading, image other = []) ∧ image starter ≠ [] := by
    clear dropped kept
    induction text with
    | nil => cases member
    | cons head tail induction =>
      by_cases empty : image head = []
      · have inside : item ∈ tail := by
          rcases List.mem_cons.mp member with rfl | inside
          · exact absurd empty filled
          · exact inside
        obtain ⟨leading, starter, rest, rfl, front, first⟩ := induction inside
        refine ⟨head :: leading, starter, rest, rfl, ?_, first⟩
        intro other listed
        rcases List.mem_cons.mp listed with rfl | listed
        · exact empty
        · exact front other listed
      · exact ⟨[], head, tail, rfl, by simp, empty⟩
  have starts : combiningClass starter = 0 := by
    by_contra marks
    exact first (dropped starter (by simp) marks)
  have later := flatMap_canonicalOrder_append (fun other listed =>
    dropped other (List.mem_append_right leading (List.mem_cons_of_mem starter listed))) after
  have none : leading.flatMap image = [] := List.flatMap_eq_nil_iff.mpr front
  refine ⟨(canonicalOrder combiningClass (before ++ leading)).flatMap image,
    (canonicalOrder combiningClass after).flatMap image, ?_⟩
  have split : before ++ (leading ++ starter :: rest ++ after) =
      before ++ leading ++ starter :: (rest ++ after) := by simp
  rw [split, canonicalOrder_append starts, List.flatMap_append,
    List.flatMap_cons, later, List.flatMap_append, none, List.flatMap_cons]
  simp

end

end Normalization
