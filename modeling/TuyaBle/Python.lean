import TuyaBle.Exceptions
import TuyaBle.Lib.BigEndian
import TuyaBle.Lib.Strip

/-!
# Byte strings, text and `struct`

What the SDK uses of Python's built-in types: indexing and slicing of `bytes`, UTF-8
in both directions, `struct.pack` of unsigned and signed fields, and `int(text)`.
-/

namespace TuyaBle

abbrev Bytes := List UInt8

/-- `data[position]`. -/
def byteAt (data : Bytes) (position : Nat) : Except PyException Nat :=
  match data[position]? with
  | some b => .ok b.toNat
  | none => raise .indexError "index out of range"

/-- `data[start:stop]`. -/
def slice (data : Bytes) (start stop : Nat) : Bytes := (data.drop start).take (stop - start)

theorem byteAt_eq_ok {data : Bytes} {position b : Nat} :
    byteAt data position = .ok b ↔ ∃ c, data[position]? = some c ∧ c.toNat = b := by
  unfold byteAt raise
  cases data[position]? <;> simp

theorem byteAt_append_right (p s : Bytes) (i : Nat) :
    byteAt (p ++ s) (p.length + i) = byteAt s i := by
  simp [byteAt, List.getElem?_append_right]

@[simp] theorem byteAt_cons_zero (b : UInt8) (data : Bytes) :
    byteAt (b :: data) 0 = .ok b.toNat := rfl

@[simp] theorem byteAt_cons_succ (b : UInt8) (data : Bytes) (i : Nat) :
    byteAt (b :: data) (i + 1) = byteAt data i := by simp [byteAt]

theorem byteAt_isOk (data : Bytes) (position : Nat) (h : position < data.length) :
    ∃ b, byteAt data position = .ok b ∧ b < 256 :=
  ⟨_, byteAt_eq_ok.2 ⟨_, List.getElem?_eq_getElem h, rfl⟩, UInt8.toNat_lt _⟩

@[simp] theorem length_slice (data : Bytes) (start stop : Nat) :
    (slice data start stop).length = min (stop - start) (data.length - start) := by
  simp [slice]

/-! ## Text -/

/-- `text.encode()`. -/
def encodeUtf8 (text : String) : Bytes := text.toByteArray.data.toList

/-- `data.decode()`, `none` for a `UnicodeDecodeError`. -/
def decodeUtf8 (data : Bytes) : Option String := String.fromUTF8? ⟨data.toArray⟩

theorem decodeUtf8_encodeUtf8 (text : String) : decodeUtf8 (encodeUtf8 text) = some text := by
  have hdata : (⟨(encodeUtf8 text).toArray⟩ : ByteArray) = text.toByteArray := by
    simp [encodeUtf8]
  unfold decodeUtf8
  rw [hdata]
  simp only [String.fromUTF8?, String.fromUTF8]
  exact dif_pos text.isValidUTF8

/-! ## `struct.pack` -/

/-- What `struct.error` says of a value out of the range of `B`, `H` or `I`. -/
def rangeText (width value : Nat) : String :=
  if width = 1 then "ubyte format requires 0 <= number <= 255"
  else if 2 ^ 64 ≤ value then "argument out of range"
  else if width = 2 then "'H' format requires 0 <= number <= 65535"
  else "'I' format requires 0 <= number <= 4294967295"

/-- An unsigned big-endian field of `width` bytes. -/
def packUnsigned (width value : Nat) : Except PyException Bytes :=
  if value < 256 ^ width then .ok (BigEndian.toBytes width value)
  else raise .structError (rangeText width value)

/-- The `h` format: a signed big-endian field of two bytes. -/
def packShort (value : Int) : Except PyException Bytes :=
  if -32768 ≤ value ∧ value ≤ 32767 then .ok (BigEndian.toBytes 2 (value % 65536).toNat)
  else raise .structError "'h' format requires -32768 <= number <= 32767"

theorem packUnsigned_ok {width value : Nat} (h : value < 256 ^ width) :
    packUnsigned width value = .ok (BigEndian.toBytes width value) := if_pos h

theorem packUnsigned_eq_ok {width value : Nat} {b : Bytes} :
    packUnsigned width value = .ok b ↔
      value < 256 ^ width ∧ BigEndian.toBytes width value = b := by
  unfold packUnsigned raise
  split <;> simp [*]

theorem packUnsigned_fails (width value : Nat) : Fails (packUnsigned width value) .structError := by
  intro e he
  unfold packUnsigned at he
  split at he <;> cases he
  rfl

/-! ## `int(text)` -/

/-- The code points of the digits zero outside ASCII; each starts a run of ten digits. -/
def decimalZeros : List Nat :=
  [0x660, 0x6f0, 0x7c0, 0x966, 0x9e6, 0xa66, 0xae6, 0xb66, 0xbe6, 0xc66, 0xce6, 0xd66, 0xde6,
   0xe50, 0xed0, 0xf20, 0x1040, 0x1090, 0x17e0, 0x1810, 0x1946, 0x19d0, 0x1a80, 0x1a90, 0x1b50,
   0x1bb0, 0x1c40, 0x1c50, 0xa620, 0xa8d0, 0xa900, 0xa9d0, 0xa9f0, 0xaa50, 0xabf0, 0xff10,
   0x104a0, 0x10d30, 0x11066, 0x110f0, 0x11136, 0x111d0, 0x112f0, 0x11450, 0x114d0, 0x11650,
   0x116c0, 0x11730, 0x118e0, 0x11950, 0x11c50, 0x11d50, 0x11da0, 0x11f50, 0x16a60, 0x16ac0,
   0x16b50, 0x1d7ce, 0x1d7d8, 0x1d7e2, 0x1d7ec, 0x1d7f6, 0x1e140, 0x1e2f0, 0x1e4f0, 0x1e950,
   0x1fbf0]

/-- The space characters outside ASCII. -/
def wideSpaces : List Nat :=
  [0x85, 0xa0, 0x1680, 0x2000, 0x2001, 0x2002, 0x2003, 0x2004, 0x2005, 0x2006, 0x2007, 0x2008,
   0x2009, 0x200a, 0x2028, 0x2029, 0x202f, 0x205f, 0x3000]

/-- A character as the integer parser sees it: digits and spaces outside ASCII become
their ASCII counterparts, anything else outside ASCII a question mark. -/
def toAsciiDigit (c : Char) : Char :=
  if c.toNat < 127 then c
  else if c.toNat ∈ wideSpaces then ' '
  else
    match decimalZeros.find? fun z => z ≤ c.toNat ∧ c.toNat < z + 10 with
    | some z => Char.ofNat (48 + (c.toNat - z))
    | none => '?'

def isAsciiSpace (c : Char) : Bool := c.toNat = 32 ∨ (9 ≤ c.toNat ∧ c.toNat ≤ 13)

def isAsciiDigit (c : Char) : Bool := 48 ≤ c.toNat ∧ c.toNat ≤ 57

/-- Digits with single underscores between them; `afterDigit` is whether a digit was last. -/
def digitsValue : Bool → Nat → List Char → Option Nat
  | afterDigit, value, [] => if afterDigit then some value else none
  | afterDigit, value, c :: cs =>
    if isAsciiDigit c then digitsValue true (value * 10 + (c.toNat - 48)) cs
    else if c = '_' ∧ afterDigit then digitsValue false value cs
    else none

/-- `int(text)`, `none` for a `ValueError`: surrounding spaces, a sign, then digits. -/
def parseInt (text : String) : Option Int :=
  match Strip.strip isAsciiSpace (text.toList.map toAsciiDigit) with
  | '-' :: cs => (digitsValue false 0 cs).map fun n => -(n : Int)
  | '+' :: cs => (digitsValue false 0 cs).map fun n => (n : Int)
  | cs => (digitsValue false 0 cs).map fun n => (n : Int)

theorem toAsciiDigit_of_isAsciiDigit {c : Char} (h : isAsciiDigit c) : toAsciiDigit c = c := by
  simp only [isAsciiDigit, decide_eq_true_eq] at h
  exact if_pos (by omega)

theorem not_isAsciiSpace_of_isAsciiDigit {c : Char} (h : isAsciiDigit c) :
    isAsciiSpace c = false := by
  simp only [isAsciiDigit, decide_eq_true_eq] at h
  simp only [isAsciiSpace, decide_eq_false_iff_not]
  omega

/-- Text made of ASCII digits is the number they write. -/
theorem parseInt_digits {text : String} (h : ∀ c ∈ text.toList, isAsciiDigit c) :
    parseInt text = (digitsValue false 0 text.toList).map fun n => (n : Int) := by
  have hmap : text.toList.map toAsciiDigit = text.toList := by
    rw [List.map_congr_left fun c hc => toAsciiDigit_of_isAsciiDigit (h c hc), List.map_id']
  have hstrip : Strip.strip isAsciiSpace text.toList = text.toList :=
    Strip.strip_eq_self fun c hc => not_isAsciiSpace_of_isAsciiDigit (h c hc)
  unfold parseInt
  rw [hmap, hstrip]
  generalize text.toList = cs at h
  split
  · cases h '-' (List.mem_cons_self ..)
  · cases h '+' (List.mem_cons_self ..)
  · rfl

theorem isAsciiDigit_of_isDigit {c : Char} (h : c.isDigit) : isAsciiDigit c := by
  simp only [Char.isDigit, Bool.and_eq_true, decide_eq_true_eq, UInt32.le_iff_toNat_le] at h
  simp only [isAsciiDigit, decide_eq_true_eq]
  exact ⟨h.1, h.2⟩

theorem digitsValue_digits {cs : List Char} (h : ∀ c ∈ cs, isAsciiDigit c) (value : Nat) :
    digitsValue true value cs = some (Nat.ofDigitChars 10 cs value) := by
  induction cs generalizing value with
  | nil => rw [digitsValue, if_pos rfl, Nat.ofDigitChars_nil]
  | cons c cs ih =>
    rw [digitsValue, if_pos (h c (List.mem_cons_self ..)),
      ih fun c hc => h c (List.mem_cons_of_mem _ hc), Nat.ofDigitChars_cons, Nat.mul_comm]
    rfl

/-- `int(str(n))` is `n`. -/
theorem parseInt_toString (n : Nat) : parseInt (toString n) = some (n : Int) := by
  have htext : (toString n).toList = Nat.toDigits 10 n := Nat.toList_repr
  have hdigits : ∀ c ∈ (toString n).toList, isAsciiDigit c := by
    rw [htext]
    exact fun c hc =>
      isAsciiDigit_of_isDigit (Nat.isDigit_of_mem_toDigits (by decide) (by decide) hc)
  rw [parseInt_digits hdigits, htext]
  rw [htext] at hdigits
  cases hcs : Nat.toDigits 10 n with
  | nil => exact absurd hcs Nat.toDigits_ne_nil
  | cons c cs =>
    have hvalue := digitsValue_digits hdigits 0
    rw [Nat.ofDigitChars_ten_toDigits, hcs] at hvalue
    rw [hcs] at hdigits
    have hc := hdigits c (List.mem_cons_self ..)
    rw [digitsValue, if_pos hc] at hvalue ⊢
    rw [hvalue]
    rfl

theorem toString_ne_empty (n : Nat) : toString n ≠ "" := by
  intro h
  have hempty : parseInt "" = none := by decide
  have hparse := parseInt_toString n
  rw [h, hempty] at hparse
  cases hparse

end TuyaBle
