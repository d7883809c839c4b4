import Mathlib.Data.Nat.Notation

/-!
# Base64

Three bytes are four digits of six bits each; a last group of one or two bytes is
padded with `=` to four characters. `decode` is strict: only the alphabet, whole
groups, and padding at the very end. It does not look at the bits a padded group
leaves over. `decode` undoes `encode` (`decode_encode_eq`).
-/

namespace Base64

/-- The character of a digit below 64. -/
def digit (n : Nat) : Char :=
  if n < 26 then Char.ofNat (65 + n)
  else if n < 52 then Char.ofNat (97 + (n - 26))
  else if n < 62 then Char.ofNat (48 + (n - 52))
  else if n = 62 then '+' else '/'

def value? (c : Char) : Option Nat :=
  if 65 ≤ c.toNat ∧ c.toNat ≤ 90 then some (c.toNat - 65)
  else if 97 ≤ c.toNat ∧ c.toNat ≤ 122 then some (c.toNat - 97 + 26)
  else if 48 ≤ c.toNat ∧ c.toNat ≤ 57 then some (c.toNat - 48 + 52)
  else if c = '+' then some 62
  else if c = '/' then some 63
  else none

def first (a : UInt8) : Nat := a.toNat / 4
def second (a b : UInt8) : Nat := a.toNat % 4 * 16 + b.toNat / 16
def third (b c : UInt8) : Nat := b.toNat % 16 * 4 + c.toNat / 64
def fourth (c : UInt8) : Nat := c.toNat % 64

def encode : List UInt8 → List Char
  | [] => []
  | [a] => [digit (first a), digit (second a 0), '=', '=']
  | [a, b] => [digit (first a), digit (second a b), digit (third b 0), '=']
  | a :: b :: c :: data =>
    digit (first a) :: digit (second a b) :: digit (third b c) :: digit (fourth c) :: encode data

/-- The bytes that start in the first, the second and the third of four digits. -/
def byte₁ (w x : Nat) : UInt8 := UInt8.ofNat (w * 4 + x / 16)
def byte₂ (x y : Nat) : UInt8 := UInt8.ofNat (x % 16 * 16 + y / 4)
def byte₃ (y z : Nat) : UInt8 := UInt8.ofNat (y % 4 * 64 + z)

def decode : List Char → Option (List UInt8)
  | [] => some []
  | cw :: cx :: cy :: cz :: text => do
    let w ← value? cw
    let x ← value? cx
    if cz = '=' then
      if text ≠ [] then none
      else if cy = '=' then some [byte₁ w x]
      else do
        let y ← value? cy
        some [byte₁ w x, byte₂ x y]
    else do
      let y ← value? cy
      let z ← value? cz
      let data ← decode text
      some (byte₁ w x :: byte₂ x y :: byte₃ y z :: data)
  | _ => none

/-! ## Digits -/

theorem value?_digit_fin : ∀ n : Fin 64, value? (digit n) = some n.val := by decide

theorem digit_ne_pad_fin : ∀ n : Fin 64, digit n ≠ '=' := by decide

theorem value?_digit {n : Nat} (h : n < 64) : value? (digit n) = some n :=
  value?_digit_fin ⟨n, h⟩

theorem digit_ne_pad {n : Nat} (h : n < 64) : digit n ≠ '=' := digit_ne_pad_fin ⟨n, h⟩

theorem first_lt (a : UInt8) : first a < 64 := by
  have := a.toNat_lt
  simp only [first]
  omega

theorem second_lt (a b : UInt8) : second a b < 64 := by
  have := b.toNat_lt
  simp only [second]
  omega

theorem third_lt (b c : UInt8) : third b c < 64 := by
  have := c.toNat_lt
  simp only [third]
  omega

theorem fourth_lt (c : UInt8) : fourth c < 64 := Nat.mod_lt _ (by decide)

theorem ofNat_eq {n : Nat} {a : UInt8} (h : n = a.toNat) : UInt8.ofNat n = a := by
  rw [h, UInt8.ofNat_toNat]

theorem byte₁_digits (a b : UInt8) : byte₁ (first a) (second a b) = a := by
  apply ofNat_eq
  have := b.toNat_lt
  simp only [first, second]
  omega

theorem byte₂_digits (a b c : UInt8) : byte₂ (second a b) (third b c) = b := by
  apply ofNat_eq
  have := b.toNat_lt
  have := c.toNat_lt
  simp only [second, third]
  omega

theorem byte₃_digits (b c : UInt8) : byte₃ (third b c) (fourth c) = c := by
  apply ofNat_eq
  have := c.toNat_lt
  simp only [third, fourth]
  omega

/-- The alphabet of an encoded text. -/
theorem mem_encode {data : List UInt8} {c : Char} (h : c ∈ encode data) :
    c = '=' ∨ ∃ n : Fin 64, c = digit n := by
  have hdigit : ∀ {n : Nat}, n < 64 → c = digit n → c = '=' ∨ ∃ n : Fin 64, c = digit n :=
    fun hn hc => .inr ⟨⟨_, hn⟩, hc⟩
  induction data using encode.induct with
  | case1 => cases h
  | case2 a =>
    simp only [encode, List.mem_cons, List.not_mem_nil, or_false] at h
    rcases h with h | h | h | h
    · exact hdigit (first_lt a) h
    · exact hdigit (second_lt a 0) h
    · exact .inl h
    · exact .inl h
  | case3 a b =>
    simp only [encode, List.mem_cons, List.not_mem_nil, or_false] at h
    rcases h with h | h | h | h
    · exact hdigit (first_lt a) h
    · exact hdigit (second_lt a b) h
    · exact hdigit (third_lt b 0) h
    · exact .inl h
  | case4 a b c' data ih =>
    simp only [encode, List.mem_cons] at h
    rcases h with h | h | h | h | h
    · exact hdigit (first_lt a) h
    · exact hdigit (second_lt a b) h
    · exact hdigit (third_lt b c') h
    · exact hdigit (fourth_lt c') h
    · exact ih h

/-! ## The round trip -/

/-- **Decoding undoes encoding.** -/
theorem decode_encode_eq (data : List UInt8) : decode (encode data) = some data := by
  induction data using encode.induct with
  | case1 => rfl
  | case2 a =>
    simp [encode, decode, value?_digit, first_lt, second_lt, byte₁_digits]
  | case3 a b =>
    simp [encode, decode, value?_digit, digit_ne_pad, first_lt, second_lt, third_lt, byte₁_digits,
      byte₂_digits]
  | case4 a b c data ih =>
    simp [encode, decode, value?_digit, digit_ne_pad, first_lt, second_lt, third_lt, fourth_lt,
      byte₁_digits, byte₂_digits, byte₃_digits, ih]

end Base64
