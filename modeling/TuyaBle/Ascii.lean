import TuyaBle.Python

/-!
# ASCII bytes

What `bytes` says of its ASCII content, and how such bytes decode. Decoding is the
inverse of encoding in both directions (`decodeUtf8_eq_some`), and reads ASCII bytes as
the characters they number.
-/

namespace TuyaBle

/-- `data.isascii()`. -/
def isAscii (data : Bytes) : Bool := data.all (·.toNat < 128)

/-- An ASCII letter or digit. -/
def isAlnumByte (b : UInt8) : Bool :=
  (48 ≤ b.toNat ∧ b.toNat ≤ 57) ∨ (65 ≤ b.toNat ∧ b.toNat ≤ 90) ∨ (97 ≤ b.toNat ∧ b.toNat ≤ 122)

/-- `data.isalnum()`. -/
def isAlnum (data : Bytes) : Bool := data ≠ [] ∧ data.all isAlnumByte

/-- The text of ASCII bytes. -/
def asciiText (data : Bytes) : String := String.ofList (data.map fun b => Char.ofNat b.toNat)

theorem isAscii_iff {data : Bytes} : isAscii data ↔ ∀ b ∈ data, b.toNat < 128 := by
  simp [isAscii]

theorem isAlnum_iff {data : Bytes} : isAlnum data ↔ data ≠ [] ∧ ∀ b ∈ data, isAlnumByte b := by
  simp [isAlnum]

theorem lt_of_isAlnumByte {b : UInt8} (h : isAlnumByte b) : b.toNat < 128 := by
  simp only [isAlnumByte, decide_eq_true_eq] at h
  omega

theorem encodeUtf8_ofList (cs : List Char) :
    encodeUtf8 (String.ofList cs) = cs.flatMap String.utf8EncodeChar := by
  rw [encodeUtf8, String.toByteArray_ofList, List.utf8Encode, List.data_toByteArray]

/-- **What decodes is the encoding of the text.** -/
theorem decodeUtf8_eq_some {data : Bytes} {text : String} :
    decodeUtf8 data = some text ↔ encodeUtf8 text = data := by
  constructor
  · intro h
    unfold decodeUtf8 at h
    rw [String.fromUTF8?] at h
    split at h
    · obtain rfl := Option.some.inj h
      rfl
    · cases h
  · rintro rfl
    exact decodeUtf8_encodeUtf8 text

theorem toNat_ofNat_of_lt {n : Nat} (h : n < 128) : (Char.ofNat n).toNat = n := by
  have hvalid : n.isValidChar := .inl (by omega)
  rw [Char.ofNat, dif_pos hvalid]
  rfl

theorem utf8EncodeChar_ascii {b : UInt8} (h : b.toNat < 128) :
    String.utf8EncodeChar (Char.ofNat b.toNat) = [b] := by
  have hv : (Char.ofNat b.toNat).val.toNat = b.toNat := toNat_ofNat_of_lt h
  rw [String.utf8EncodeChar]
  simp only [hv]
  rw [if_pos (by omega), UInt8.ofNat_toNat]

theorem encodeUtf8_asciiText {data : Bytes} (h : ∀ b ∈ data, b.toNat < 128) :
    encodeUtf8 (asciiText data) = data := by
  rw [asciiText, encodeUtf8_ofList]
  induction data with
  | nil => rfl
  | cons b data ih =>
    rw [List.map_cons, List.flatMap_cons, utf8EncodeChar_ascii (h b (List.mem_cons_self ..)),
      ih fun c hc => h c (List.mem_cons_of_mem _ hc)]
    rfl

/-- **ASCII bytes decode to the characters they number.** -/
theorem decodeUtf8_ascii {data : Bytes} (h : ∀ b ∈ data, b.toNat < 128) :
    decodeUtf8 data = some (asciiText data) := decodeUtf8_eq_some.2 (encodeUtf8_asciiText h)

end TuyaBle
