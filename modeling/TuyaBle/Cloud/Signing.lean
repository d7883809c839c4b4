import Mathlib.Data.String.Basic
import TuyaBle.Cloud.Crypto
import TuyaBle.Lib.Sorted

/-!
# The request signature

The signature of a call is a digest of its whitelisted, non-empty parameters, sorted by
name and joined. The sign string of a dictionary depends on those parameters alone
(`buildSignString_congr`). A `BodyKey` is one AES takes.
-/

namespace TuyaBle

/-! ## Constants of the app build -/

def packageName : String := "com.tuya.smartlife"
def certSha256 : String :=
  "0F:C3:61:99:9C:C0:C3:5B:A8:AC:A5:7D:AA:55:93:A2" ++
  ":0C:F5:57:27:70:2E:A8:5A:D7:B3:22:89:49:F8:88:FE"
def derivedKey : String := "jfg5rs5kkmrj5mxahugvucrsvw43t48x"
def appSecret : String := "r3me7ghmxjevrvnpemwmhw3fxtacphyg"

def defaultCompositeKey : String := s!"{packageName}_{certSha256}_{derivedKey}_{appSecret}"

def bodyKeyLength : Nat := 16
def md5HexLength : Nat := 32

def signWhitelist : List String :=
  ["a", "v", "lat", "lon", "lang", "deviceId", "appVersion", "ttid", "isH5", "h5Token", "os",
   "clientId", "postData", "time", "requestId", "et", "n4h5", "sid", "chKey", "sp"]

/-! ## The sign string -/

/-- What the parameter `key` adds to the sign string. -/
def signField (params : Dict String String) (key : String) : Option String :=
  match params.get? key with
  | some value => if value ≠ "" ∧ key ∈ signWhitelist then some s!"{key}={value}" else none
  | none => none

def buildSignString (params : Dict String String) : String :=
  "||".intercalate ((Sorted.sort params.keys).filterMap (signField params))

theorem mem_keys_of_signField {params : Dict String String} {key : String}
    (h : (signField params key).isSome) : key ∈ params.keys := by
  rw [Dict.mem_keys_iff]
  unfold signField at h
  split at h
  · rename_i heq
    rw [heq]
    rfl
  · cases h

theorem signField_of_not_mem {key : String} (h : key ∉ signWhitelist)
    (params : Dict String String) : signField params key = none := by
  unfold signField
  split
  · exact if_neg fun hk => h hk.2
  · rfl

theorem signField_congr {d e : Dict String String} {key : String} (h : d.get? key = e.get? key) :
    signField d key = signField e key := by
  unfold signField
  rw [h]

/-- **The sign string depends on the whitelisted parameters alone**, not on their order. -/
theorem buildSignString_congr {d e : Dict String String} (hd : d.keys.Nodup) (he : e.keys.Nodup)
    (h : ∀ key ∈ signWhitelist, signField d key = signField e key) :
    buildSignString d = buildSignString e := by
  have hfield : signField d = signField e := by
    funext key
    by_cases hk : key ∈ signWhitelist
    · exact h key hk
    · rw [signField_of_not_mem hk, signField_of_not_mem hk]
  have hkeys : ∀ key, (signField d key).isSome → (key ∈ d.keys ↔ key ∈ e.keys) := by
    intro key hs
    exact iff_of_true (mem_keys_of_signField hs) (mem_keys_of_signField (hfield ▸ hs))
  unfold buildSignString
  rw [Sorted.filterMap_sort_congr hd he hkeys, hfield]

/-- The whitelist leaves out what is not signed, and the empty parameters too. -/
example : buildSignString [("v", "1.0"), ("a", "api"), ("sdkVersion", "5.2.0"), ("sid", "")] =
    "a=api||v=1.0" := by decide +kernel

/-! ## Signatures and keys -/

/-- `value[8:16] + value[0:8] + value[24:32] + value[16:24]`. -/
def swapSignString (value : String) : String :=
  let cs := value.toList
  if cs.length ≠ md5HexLength then value
  else
    String.ofList ((cs.drop 8).take 8 ++ cs.take 8 ++ (cs.drop 24).take 8 ++ (cs.drop 16).take 8)

variable (P : CloudPrimitives)

def sign (signString : String) (key : String := defaultCompositeKey) : String :=
  hmacSha256Hex P key signString

def postDataSignField (encryptedPostData : String) : String :=
  swapSignString (md5Hex P encryptedPostData)

/-- A key made of the first hexadecimal digits of a digest. -/
abbrev BodyKey := { key : String // (encodeUtf8 key).length = bodyKeyLength }

def BodyKey.toAesKey (key : BodyKey) : AesKey := ⟨encodeUtf8 key.val, .inl key.property⟩

/-- `hmac_sha256_hex(requestId, message)[:16]`. -/
def keyOfDigest (requestId message : String) : BodyKey :=
  let digest := P.hmacSha256 (encodeUtf8 requestId) (encodeUtf8 message)
  ⟨String.ofList ((hexChars digest.val).take bodyKeyLength), by
    rw [length_encodeUtf8 fun c hc => utf8Size_of_mem_hexChars (List.mem_of_mem_take hc),
      List.length_take, length_hexChars, digest.property]
    rfl⟩

def bodyKey (requestId ecode : String) (key : String := defaultCompositeKey) : BodyKey :=
  keyOfDigest P requestId s!"{key}_{ecode}"

def preLoginBodyKey (requestId : String) (key : String := defaultCompositeKey) : BodyKey :=
  keyOfDigest P requestId key

end TuyaBle
