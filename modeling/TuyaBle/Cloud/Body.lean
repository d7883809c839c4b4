import TuyaBle.Cloud.Signing
import TuyaBle.Lib.Base64

/-!
# The `et=3` body

On the wire a body is the base64 of nonce, ciphertext and tag. Decrypting a body
undoes encrypting it (`decryptPostData_encryptPostData`); a body that does not decode,
is too short or fails its tag is a protocol error.
-/

namespace TuyaBle

variable (P : CloudPrimitives)

def encryptPostData (key : BodyKey) (nonce : Nonce) (postJson : Bytes) : String :=
  String.ofList (Base64.encode (nonce.val ++ P.gcmEncrypt key.toAesKey nonce postJson))

def decryptPostData (key : BodyKey) (encrypted : String) : Except PyException Bytes :=
  match Base64.decode encrypted.toList with
  | none => raise .tuyaBleProtocolError "Failed to decode the gateway body: " (some .valueError)
  | some raw =>
    if h : raw.length < nonceLength + tagLength then
      raise .tuyaBleProtocolError
        "Failed to decode the gateway body: shorter than nonce and tag"
    else
      let nonce : Nonce := ⟨raw.take nonceLength, by rw [List.length_take]; omega⟩
      match P.gcmDecrypt key.toAesKey nonce (raw.drop nonceLength) with
      | some postJson => .ok postJson
      | none =>
        raise .tuyaBleProtocolError "Failed to decrypt the gateway body: authentication tag"

variable {P}

/-- **Whoever has the key reads what was encrypted.** -/
theorem decryptPostData_encryptPostData (key : BodyKey) (nonce : Nonce) (postJson : Bytes) :
    decryptPostData P key (encryptPostData P key nonce postJson) = .ok postJson := by
  have hlen := P.length_gcmEncrypt key.toAesKey nonce postJson
  have htake : (nonce.val ++ P.gcmEncrypt key.toAesKey nonce postJson).take nonceLength =
      nonce.val := List.take_left' nonce.property
  have hdrop : (nonce.val ++ P.gcmEncrypt key.toAesKey nonce postJson).drop nonceLength =
      P.gcmEncrypt key.toAesKey nonce postJson := List.drop_left' nonce.property
  have hlong : ¬ (nonce.val ++ P.gcmEncrypt key.toAesKey nonce postJson).length <
      nonceLength + tagLength := by
    rw [List.length_append, nonce.property, hlen]
    omega
  unfold decryptPostData encryptPostData
  rw [String.toList_ofList, Base64.decode_encode_eq]
  simp only [dif_neg hlong, htake, hdrop, P.gcmDecrypt_encrypt]

theorem encryptPostData_ne_empty (key : BodyKey) (nonce : Nonce) (postJson : Bytes) :
    encryptPostData P key nonce postJson ≠ "" := by
  intro h
  have hd := decryptPostData_encryptPostData (P := P) key nonce postJson
  rw [h] at hd
  cases hd

end TuyaBle
