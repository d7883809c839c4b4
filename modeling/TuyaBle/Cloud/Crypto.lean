import TuyaBle.Crypto
import TuyaBle.Cloud.JsonValues

/-!
# Digests, sealed bodies and the password

The digests, AES-GCM and RSA come from outside the SDK and are the parameter
`CloudPrimitives`: opening a sealed text undoes the sealing, the seal adds a tag, and a
number pair or a message RSA does not take is a `ValueError`. Digests are written in
lowercase hexadecimal.
-/

namespace TuyaBle

def nonceLength : Nat := 12
def tagLength : Nat := 16

abbrev Nonce := { nonce : Bytes // nonce.length = nonceLength }

structure CloudPrimitives extends JsonText where
  md5 : Bytes → Block
  /-- HMAC-SHA256 of a key and a message. -/
  hmacSha256 : Bytes → Bytes → { digest : Bytes // digest.length = 32 }
  /-- `AESGCM(key).encrypt`: the ciphertext and its tag. -/
  gcmEncrypt : AesKey → Nonce → Bytes → Bytes
  /-- `AESGCM(key).decrypt`, `none` for an `InvalidTag`. -/
  gcmDecrypt : AesKey → Nonce → Bytes → Option Bytes
  /-- Exponent, modulus and message under PKCS#1 v1.5. -/
  encryptRsa : Int → Int → Bytes → Except PyException Bytes
  length_gcmEncrypt : ∀ key nonce data,
    (gcmEncrypt key nonce data).length = data.length + tagLength
  gcmDecrypt_encrypt : ∀ key nonce data,
    gcmDecrypt key nonce (gcmEncrypt key nonce data) = some data
  encryptRsa_fails : ∀ exponent modulus data,
    Fails (encryptRsa exponent modulus data) .valueError

/-! ## Hexadecimal -/

def hexDigit (n : Nat) : Char := if n < 10 then Char.ofNat (48 + n) else Char.ofNat (87 + n)

def hexChars (data : Bytes) : List Char :=
  data.flatMap fun b => [hexDigit (b.toNat / 16), hexDigit (b.toNat % 16)]

/-- `data.hex()`. -/
def hex (data : Bytes) : String := String.ofList (hexChars data)

theorem length_hexChars (data : Bytes) : (hexChars data).length = 2 * data.length := by
  induction data with
  | nil => rfl
  | cons b data ih =>
    rw [hexChars, List.flatMap_cons, List.length_append, ← hexChars, ih, List.length_cons]
    simp only [List.length_cons, List.length_nil]
    omega

theorem utf8Size_hexDigit_fin : ∀ n : Fin 16, (hexDigit n).utf8Size = 1 := by decide

theorem utf8Size_hexDigit {n : Nat} (h : n < 16) : (hexDigit n).utf8Size = 1 :=
  utf8Size_hexDigit_fin ⟨n, h⟩

theorem utf8Size_of_mem_hexChars {data : Bytes} {c : Char} (h : c ∈ hexChars data) :
    c.utf8Size = 1 := by
  obtain ⟨b, -, hc⟩ := List.mem_flatMap.1 h
  have hb := b.toNat_lt
  rcases List.mem_cons.1 hc with rfl | hc
  · exact utf8Size_hexDigit (by omega)
  · rw [List.mem_singleton.1 hc]
    exact utf8Size_hexDigit (by omega)

/-- Text of one-byte characters takes one byte a character. -/
theorem length_encodeUtf8 {cs : List Char} (h : ∀ c ∈ cs, c.utf8Size = 1) :
    (encodeUtf8 (String.ofList cs)).length = cs.length := by
  show (String.ofList cs).toByteArray.size = cs.length
  rw [String.toByteArray_ofList]
  induction cs with
  | nil => rfl
  | cons c cs ih =>
    rw [List.utf8Encode_cons, ByteArray.size_append, List.utf8Encode_singleton,
      List.size_toByteArray, String.length_utf8EncodeChar, h c (List.mem_cons_self ..),
      ih fun c hc => h c (List.mem_cons_of_mem _ hc), List.length_cons, Nat.add_comm]

/-! ## Digests -/

variable (P : CloudPrimitives)

def md5Hex (value : String) : String := hex (P.md5 (encodeUtf8 value)).val

def hmacSha256Hex (key message : String) : String :=
  hex (P.hmacSha256 (encodeUtf8 key) (encodeUtf8 message)).val

/-! ## The password -/

/-- The digits of a number `int` takes at most. -/
def maxStrDigits : Nat := 4300

/-- `int(text)`, in the words of its `ValueError`s short of the text it refuses. -/
def intOfText (text : String) : Except PyException Int :=
  match parseInt text with
  | none => raise .valueError "invalid literal for int() with base 10: "
  | some value =>
    let digits := (text.toList.map toAsciiDigit).countP isAsciiDigit
    if maxStrDigits < digits then
      raise .valueError
        s!"Exceeds the limit ({maxStrDigits} digits) for integer string conversion: value has {digits} digits; use sys.set_int_max_str_digits() to increase the limit"
    else .ok value

def encryptPassword (modulusDecimal exponent passwordMd5 : String) :
    Except PyException String := do
  let e ← intOfText exponent
  let n ← intOfText modulusDecimal
  let encrypted ← P.encryptRsa e n (encodeUtf8 passwordMd5)
  return hex encrypted

theorem intOfText_fails (text : String) : Fails (intOfText text) .valueError := by
  intro e he
  unfold intOfText raise at he
  split at he
  · cases he; rfl
  · dsimp only at he
    split at he <;> cases he
    rfl

theorem intOfText_toString {n : Nat} (h : n < 10 ^ maxStrDigits) :
    intOfText (toString n) = .ok n := by
  have hlen : (toString n).toList.length ≤ maxStrDigits := by
    have htext : (toString n).toList = Nat.toDigits 10 n := Nat.toList_repr
    rw [htext]
    exact (Nat.length_toDigits_le_iff (by decide) (by decide)).2 h
  have hcount : ((toString n).toList.map toAsciiDigit).countP isAsciiDigit ≤ maxStrDigits :=
    Nat.le_trans List.countP_le_length (by rw [List.length_map]; exact hlen)
  unfold intOfText
  rw [parseInt_toString]
  exact if_neg (Nat.not_lt.2 hcount)

theorem encryptPassword_fails (modulusDecimal exponent passwordMd5 : String) :
    Fails (encryptPassword P modulusDecimal exponent passwordMd5) .valueError :=
  (intOfText_fails exponent).bind fun e _ =>
    (intOfText_fails modulusDecimal).bind fun n _ =>
      (P.encryptRsa_fails e n _).bind fun _ _ => fails_ok _ _

end TuyaBle
