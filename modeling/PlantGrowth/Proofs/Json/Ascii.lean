import PlantGrowth.Json.Encoding

/-!
# JSON of one byte per character

Text of the characters from U+0001 to U+007F has one byte for each of them, and none of these bytes is
part of a byte order mark, a zero, or the start of a half of a character. So the bytes of such a text are
read as the text itself (`ofBytes_bytesOf`).
-/

set_option autoImplicit false

namespace PlantGrowth.Json

open Text (CodePoint)

/-- The bytes of a text, in units of eight bits. -/
def bytesOf (text : List Char) : List UInt8 := text.flatMap String.utf8EncodeChar

/-- The characters of a text have one byte each, and none is zero. -/
def IsAscii (text : List Char) : Prop := ∀ c ∈ text, 0 < c.toNat ∧ c.toNat < 0x80

instance (text : List Char) : Decidable (IsAscii text) :=
  List.decidableBAll _ text

/-- The bytes of a text without a zero are not zero, and they are below 128. -/
theorem IsAscii.bounds {text : List Char} (h : IsAscii text) :
    ∀ b ∈ bytesOf text, 0 < b.toNat ∧ b.toNat < 0x80 := by
  intro b hb
  obtain ⟨c, hc, hb⟩ := List.mem_flatMap.1 hb
  obtain ⟨hpos, hlt⟩ := h c hc
  have hone : c.utf8Size = 1 := Char.utf8Size_eq_one_iff.2 (UInt32.le_iff_toNat_le.2 (by
    show c.toNat ≤ 127
    omega))
  rw [String.utf8EncodeChar_eq_singleton hone, List.mem_singleton] at hb
  have hbyte : b.toNat = c.toNat % 256 := by
    rw [hb, UInt32.toNat_toUInt8]
    rfl
  omega

namespace Encoding

/-- Bytes of this kind start with no byte order mark. -/
theorem find?_marks_eq_none {bytes : List UInt8} (h : ∀ b ∈ bytes, 0 < b.toNat ∧ b.toNat < 0x80) :
    (marks.find? fun entry => entry.1.isPrefixOf bytes) = none := by
  cases bytes with
  | nil => rfl
  | cons b rest =>
    have hb := h b (List.mem_cons_self ..)
    have hne (mark : UInt8) (hmark : mark.toNat = 0 ∨ 0x80 ≤ mark.toNat) : (mark == b) = false := by
      refine beq_eq_false_iff_ne.2 fun heq => ?_
      rw [heq] at hmark
      omega
    simp [marks, List.find?, List.isPrefixOf, hne]

/-- Bytes without a zero look like units of eight bits. -/
theorem guess_eq {bytes : List UInt8} (h : ∀ b ∈ bytes, 0 < b.toNat ∧ b.toNat < 0x80) :
    guess bytes = .utf8 := by
  have hne {b : UInt8} (hb : b ∈ bytes) : b ≠ 0 := by
    rintro rfl
    exact absurd (h 0 hb).1 (by decide)
  unfold guess
  split
  · rw [if_neg (hne (by simp)), if_neg (hne (by simp))]
  · rw [if_neg (hne (by simp)), if_neg (hne (by simp))]
  · rfl

/-- Bytes of this kind are in units of eight bits, and have no mark. -/
theorem detect_eq {bytes : List UInt8} (h : ∀ b ∈ bytes, 0 < b.toNat ∧ b.toNat < 0x80) :
    detect bytes = (.utf8, bytes) := by
  rw [detect, find?_marks_eq_none h, guess_eq h]

/-- No half of a character stands among bytes of this kind. -/
theorem utf8Points?_eq (front : List UInt8) {bytes : List UInt8} (h : ∀ b ∈ bytes, b.toNat < 0x80) :
    utf8Points? front bytes = points8? (front.reverse ++ bytes) := by
  induction front, bytes using utf8Points?.induct with
  | case1 front a b c rest half hhalf _ =>
    have ha : a.toNat < 0x80 := h a (List.mem_cons_self ..)
    rw [half?, if_neg] at hhalf
    · cases hhalf
    · rintro ⟨rfl, -⟩
      exact absurd ha (by decide)
  | case2 front a b c rest hhalf ih =>
    rw [utf8Points?, hhalf]
    dsimp only
    rw [ih fun b hb => h b (List.mem_cons_of_mem _ hb), List.reverse_cons, List.append_assoc]
    rfl
  | case3 front short hshort =>
    rw [utf8Points?.eq_def]
    split
    · next a b c rest => exact absurd rfl (hshort a b c rest)
    · rfl

/-- The code points of the bytes of a text. -/
theorem points8?_bytesOf (text : List Char) : points8? (bytesOf text) = some (Text.points text) := by
  have hbytes : (⟨(bytesOf text).toArray⟩ : ByteArray) = (String.ofList text).toByteArray := by
    rw [String.toByteArray_ofList, List.utf8Encode]
    apply ByteArray.ext
    apply Array.toList_inj.1
    rw [List.toList_data_toByteArray]
    rfl
  have htext : String.fromUTF8? (String.ofList text).toByteArray = some (String.ofList text) := by
    unfold String.fromUTF8?
    rw [dif_pos (String.ofList text).isValidUTF8]
    rfl
  rw [points8?, hbytes, htext, Option.map_some, String.toList_ofList]

end Encoding

/-- The bytes of a text of this kind are read as the text. -/
theorem ofBytes_bytesOf (limits : Limits) {text : List Char} (h : IsAscii text) :
    ofBytes limits (bytesOf text) = read limits text := by
  have hbounds := h.bounds
  have hpoints : Encoding.utf8.decode (bytesOf text) = some (Text.points text) := by
    show Encoding.utf8Points? [] (bytesOf text) = _
    rw [Encoding.utf8Points?_eq [] fun b hb => (hbounds b hb).2, List.reverse_nil, List.nil_append,
      Encoding.points8?_bytesOf]
  rw [ofBytes, Encoding.detect_eq hbounds]
  dsimp only
  rw [hpoints]
  rfl

/-- A text of which more is found than that it is not JSON has bytes. -/
theorem bytesOf_ne_nil {limits : Limits} {text : List Char}
    (h : read limits text ≠ .error .malformed) : bytesOf text ≠ [] := by
  cases text with
  | nil => exact absurd rfl h
  | cons c rest => simp [bytesOf]

end PlantGrowth.Json
