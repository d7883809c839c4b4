import TuyaBle.Cloud.Gateway

/-!
# Recorded gateway primitives

The values of HMAC, MD5, AES-GCM, RSA and JSON on what is exchanged with the tests' fake
gateway. Off the recorded bodies the cipher leaves the plaintext as it is under a tag of
zeros, so that it stays invertible.
-/

namespace TuyaBle

namespace FakeGateway

/-! ## Bodies -/

/-- A body of the recording. -/
structure SealedBody where
  key : BodyKey
  nonce : Nonce
  plaintext : String
  ciphertext : Bytes

def zeroTag : Bytes := List.replicate tagLength 0

/-- A tag is recorded, and it is not the one of zeros. -/
def SealedBody.Tagged (body : SealedBody) : Prop :=
  body.ciphertext.length = (encodeUtf8 body.plaintext).length + tagLength ∧
    body.ciphertext.drop (encodeUtf8 body.plaintext).length ≠ zeroTag

instance (body : SealedBody) : Decidable body.Tagged := inferInstanceAs (Decidable (_ ∧ _))

abbrev Recording := { body : SealedBody // body.Tagged }

/-- The body as it goes over the wire. -/
def encrypted (body : Recording) : String :=
  String.ofList (Base64.encode (body.val.nonce.val ++ body.val.ciphertext))

def sealWith : Option Recording → Bytes → Bytes
  | some body, data =>
    if data = encodeUtf8 body.val.plaintext then body.val.ciphertext else data ++ zeroTag
  | none, data => data ++ zeroTag

def openZeroTag (data : Bytes) : Option Bytes :=
  if data.drop (data.length - tagLength) = zeroTag then some (data.take (data.length - tagLength))
  else none

def openWith : Option Recording → Bytes → Option Bytes
  | some body, data =>
    if data = body.val.ciphertext then some (encodeUtf8 body.val.plaintext) else openZeroTag data
  | none, data => openZeroTag data

theorem length_sealWith (body : Option Recording) (data : Bytes) :
    (sealWith body data).length = data.length + tagLength := by
  unfold sealWith zeroTag
  split
  · split
    · rename_i body h
      rw [h, body.property.1]
    · rw [List.length_append, List.length_replicate]
  · rw [List.length_append, List.length_replicate]

theorem openZeroTag_append (data : Bytes) : openZeroTag (data ++ zeroTag) = some data := by
  have hlen : (data ++ zeroTag).length - tagLength = data.length := by
    rw [List.length_append, zeroTag, List.length_replicate, Nat.add_sub_cancel]
  unfold openZeroTag
  rw [hlen, List.drop_left, if_pos rfl, List.take_left]

theorem openWith_sealWith (body : Option Recording) (data : Bytes) :
    openWith body (sealWith body data) = some data := by
  cases body with
  | none => exact openZeroTag_append data
  | some body =>
    by_cases h : data = encodeUtf8 body.val.plaintext
    · simp only [sealWith, openWith, ↓reduceIte, h]
    · have hne : data ++ zeroTag ≠ body.val.ciphertext := by
        intro heq
        have hlen := congrArg List.length heq
        rw [List.length_append, zeroTag, List.length_replicate, body.property.1] at hlen
        apply body.property.2
        rw [← heq, ← Nat.add_right_cancel hlen, List.drop_left]
      simp only [sealWith, openWith, if_neg h, if_neg hne, openZeroTag_append]

/-- Twelve bytes in a row. -/
def nonceFrom (first : Nat) : Nonce :=
  ⟨(List.range nonceLength).map fun n => UInt8.ofNat (first + n), by simp⟩

/-! ## The account -/

def accountSession : AccountSession := ⟨"sid-1234", "ecode-5678", "uid-9012"⟩
def password : String := "correct horse"

/-- The modulus of the key the token call hands out. -/
@[irreducible] def modulus : Nat :=
  0xed5818b54aac6c31aa426070e204f40c918b69547f8963fcde151edff4008889 * 2 ^ 768 +
  0x91186d5280bc240f9a5efc9fb56d96585f8ffffd03d8a44a5df11f54cdb74bcc * 2 ^ 512 +
  0x07bfe26313fd7db7c2b36217ba482600add5173a1d432c18041f57856ade06f5 * 2 ^ 256 +
  0x01ebe2637859b38ecbf15da42dccf24e04a9c75bad141758803da9f9aa1066a5

def publicKey : String := toString modulus

def exponent : String := "65537"

theorem intOfText_publicKey : intOfText publicKey = .ok modulus :=
  intOfText_toString (by decide +kernel)

/-- The MD5 of the password under that key. -/
def encryptedPassword : Bytes :=
  [0xc9f229e35bdb27bfc881438c1e7b106229672f4550f003cb10858d89d61d7de0,
   0xf3c9ba98e0049fd9e8267b905927a02a16190c084a6618ae356775c713c44fe7,
   0xfee731297b121f1bfccf6db622ea71135e766d28a9728a83ee01ead70f230c59,
   0x9525d79ee5172982172eff5d514b181d1f32472b3693311000607a55823f7159].flatMap
    (BigEndian.toBytes 32)

def passwd : String :=
  "c9f229e35bdb27bfc881438c1e7b106229672f4550f003cb10858d89d61d7de0f3c9ba98e0049fd9e826" ++
  "7b905927a02a16190c084a6618ae356775c713c44fe7fee731297b121f1bfccf6db622ea71135e766d28" ++
  "a9728a83ee01ead70f230c599525d79ee5172982172eff5d514b181d1f32472b3693311000607a55823f" ++
  "7159"

/-! ## The calls -/

def deviceListRequestId : String := "3f2b8c1e-5a7d-4e90-9b6f-1c2d3e4f5a6b"
def tokenRequestId : String := "8a90c2d4-17be-4f35-a6c1-0d2e4f6a8b9c"
def loginRequestId : String := "c41d7e02-93af-4b58-8e26-5f7a9b1c3d4e"

def deviceListBodyKey : BodyKey := ⟨"211d7fad5666fda6", by decide⟩
def tokenBodyKey : BodyKey := ⟨"6170ed80f2f405d7", by decide⟩
def loginBodyKey : BodyKey := ⟨"0d15a39202ff633e", by decide⟩

/-- The sign string of a call of the recording. -/
def signString (api version requestId postData sid : String) : String :=
  s!"a={api}||appVersion=7.10.3||chKey=ec9709a4||clientId=ekmnwp9f5pnh3trdtpgy" ++
  s!"||deviceId={defaultDeviceFingerprint}||et=3||lang=en_US||os=Android||postData={postData}" ++
  s!"||requestId={requestId}{sid}||time=1700000000" ++
  s!"||ttid=sdk_international@ekmnwp9f5pnh3trdtpgy||v={version}"

def deviceListRequest : Recording where
  val.key := deviceListBodyKey
  val.nonce := nonceFrom 0
  val.plaintext :=
    "\x7b\x7d"
  val.ciphertext :=
    BigEndian.toBytes 18 0xb9e1f13550e06df292b8c780de1140a1aedf
  property := by decide +kernel

def tokenRequest : Recording where
  val.key := tokenBodyKey
  val.nonce := nonceFrom 48
  val.plaintext :=
    "\x7b\"countryCode\":\"55\",\"username\":\"someone@example.com\",\"isUid\":false\x7d"
  val.ciphertext :=
    [0x87ea20ff16349069649cd31c4c4bfb79176b208a2b10d05dcccdbcba9288e994,
     0xa7ff492b460110260b0a10de650530eae2f8ffcbd92589ec3eb36e4f40b1482f].flatMap
      (BigEndian.toBytes 32) ++
    BigEndian.toBytes 19 0x0c1752cf71376ef4cdbef5273e50ff1ff275e7
  property := by decide +kernel

def loginRequest : Recording where
  val.key := loginBodyKey
  val.nonce := nonceFrom 96
  val.plaintext :=
    "\x7b\"countryCode\":\"55\",\"email\":\"someone@example.com\"," ++
    "\"ifencrypt\":1,\"options\":\"\x7b\\\"group\\\": 1\x7d\",\"passwd\":\"" ++
    passwd ++ "\",\"token\":\"token-3456\"\x7d"
  val.ciphertext :=
    [0x7554a9b9ff03aa0cfaee38b7c7f169553450fec9545d9a80cffc27f33ab57046,
     0x4c4df8631d24bc16c28c0466d630ad55cd6f71eb0249fc6b90c9885a423de3ca,
     0xa957c2a00952c914b0fc4c9ea02d8700c7d76f73f4da71bcc2e1d087c99f5dad,
     0xb39915e760f2cbc6b7bb516c45c734497548b484e9185f9a0939f19801f7a135,
     0x6d44828cba8fc992e435792665825e86b79f7a49006d0159b20176edc529512c,
     0xed5385bedd981e2ca6ddd0017c7d68458c3b3fdf443a8ee7b876142af60a9e32,
     0xf7823e1a5700c47d0e19dfc331c971ff671a033ea29ad01236a1d0a3a4470a00,
     0x628aabbf1a3a151a66ab6a02cf3f6fe421c1b80a0ca8851970a8712def7c7419,
     0x08e96e25cd627c76ba28a5fa484094f2ba832697da68253f1771dd56ca5e03f5,
     0x432cff1acc666d831964259f9381b46d3ef1fd02db64e07d84d0acf86ee50bd3,
     0x826180518aa5ed0f416b6ab1501888f9ce0c2b1129237e3c389348b73e1cde1c,
     0x2918c2bc11ce81a331636a69d27e29797394ce0de6b7d8efba93135748c9d15c].flatMap
      (BigEndian.toBytes 32) ++
    BigEndian.toBytes 12 0x0e6ad5cbeffb5ca75f5ff024
  property := by decide +kernel

def deviceListAnswer : Recording where
  val.key := deviceListBodyKey
  val.nonce := nonceFrom 16
  val.plaintext :=
    "\x7b\"result\": [\x7b\"devId\": \"ebc0496t9ektfzip\"\x7d]\x7d"
  val.ciphertext :=
    BigEndian.toBytes 32
      0x6c57319fd440dbd43c0a4c321953611b349a92a5c19fa95de94b9a1c3d6f8fed ++
    BigEndian.toBytes 27 0xff629ece9bfb0d47b0cca5a10c2bf02cf3266da404ecafdd44ba83
  property := by decide +kernel

def successAnswer : Recording where
  val.key := deviceListBodyKey
  val.nonce := nonceFrom 32
  val.plaintext :=
    "\x7b\"success\": true, \"result\": \x7b\x7d\x7d"
  val.ciphertext :=
    BigEndian.toBytes 32
      0x9ec67a2bc4ba46a6fe19dcb618546fb217c02f52bb2bee6225dd136d74e407f0 ++
    BigEndian.toBytes 15 0x267c4b85613ab645624b877ccec691
  property := by decide +kernel

def tokenAnswer : Recording where
  val.key := tokenBodyKey
  val.nonce := nonceFrom 64
  val.plaintext :=
    "\x7b\"result\": \x7b\"publicKey\": \"" ++ publicKey ++
    "\", \"exponent\": \"65537\", \"token\": \"token-3456\"\x7d\x7d"
  val.ciphertext :=
    [0x7cced00db7b030774f0e433f771fe7d290fd22c57bd04099fe3509869cca59de,
     0xbe4c49d7a4992b3b11eb4abb047eace29e37cab451f69d1a076d937131fc4e85,
     0x3a0f020f0ded5546b7f49ff7a1d880c0058798221b962cca1c28b754a0247d0d,
     0xeae4f1048f47ad8fd7c9d46ed80c28a62efeb341a71b522b5cf8d589a466d319,
     0x5c7ef58acc8c41c0dc43d22149932c8be711401137861d9222b78b72d21703a5,
     0x161258ac2f5281e9af7a2b5f0d258f6d35be3daa51951b1b7fba0acfaf220249,
     0xae6ef2a2ce4200c059f66dd835835d42799cad14bc5897683b0431b60eaaf5ef,
     0xb2b253ff9bed57483cefecdfacaaf284be21f04d07ed28a0c805cc51f7d9c5c5,
     0xcfd9604c244d72c594677b981f263dd6357a9ca933a8bc958127afcea3638045,
     0x5b447b3a34dd421435a754dd687ad02f56aeb4ba30ea5bf8299a163774aaa43e,
     0xd922c938f63ef2a712438a403e7377ad90d94d5c4f08357e50c2984707845809,
     0x48adbbcd7e1163fb60a339286198e0011698eee89fdc891bfcef1f50ed507b43].flatMap
      (BigEndian.toBytes 32) ++
    BigEndian.toBytes 14 0x91025d1fb7a724ca779d3c08010c
  property := by decide +kernel

def malformedTokenAnswer : Recording where
  val.key := tokenBodyKey
  val.nonce := nonceFrom 80
  val.plaintext :=
    "\x7b\"result\": \x7b\"publicKey\": \"abc\", \"exponent\": \"65537\", " ++
    "\"token\": \"token-3456\"\x7d\x7d"
  val.ciphertext :=
    [0x7c4bfed1ff095841d1dff868ece66af442f9c50025ed6af40fc12e41350437f9,
     0xa32cb769e57691c04e68fcd994e44fc893304e339136fc9679f0de3077ea8063].flatMap
      (BigEndian.toBytes 32) ++
    BigEndian.toBytes 28 0xe851980b81d63d97165cfdbf3dd670ecb0fdfd3f77131a2db0865471
  property := by decide +kernel

def loginAnswer : Recording where
  val.key := loginBodyKey
  val.nonce := nonceFrom 112
  val.plaintext :=
    "\x7b\"result\": \x7b\"sid\": \"sid-1234\", \"ecode\": \"ecode-5678\", " ++
    "\"uid\": \"uid-9012\"\x7d\x7d"
  val.ciphertext :=
    [0x812ba39ca42f999c6553e7e1969820951ef755d55812d11800c50c425d2a0884,
     0x12a3d75578e086652b033876b9a13a269bab03eee9bceaf21c1286849d2721c5].flatMap
      (BigEndian.toBytes 32) ++
    BigEndian.toBytes 25 0x9a5d1f7448c4b1c53cc687655c785a70aab314e46dd83f351a
  property := by decide +kernel

def recordings : List Recording :=
  [deviceListRequest, tokenRequest, loginRequest, deviceListAnswer,
   successAnswer, tokenAnswer, malformedTokenAnswer, loginAnswer]

def recordingsOf : Dict (AesKey × Nonce) Recording :=
  recordings.map fun body => ((body.val.key.toAesKey, body.val.nonce), body)

def recordingOf (key : AesKey) (nonce : Nonce) : Option Recording :=
  recordingsOf.get? (key, nonce)

theorem recordingOf_of_mem {body : Recording} (h : body ∈ recordings) :
    recordingOf body.val.key.toAesKey body.val.nonce = some body :=
  have hn : recordingsOf.keys.Nodup := by decide +kernel
  Dict.get?_of_mem hn (List.mem_map_of_mem h)

/-! ## Digests -/

/-- HMAC-SHA256: key, message and digest. -/
def hmacs : List (String × String × Nat) :=
  [(deviceListRequestId, defaultCompositeKey ++ "_" ++ accountSession.ecode,
    0x211d7fad5666fda66376f69798b965d2fd5dd5b695d53fe937004dbf7dc18afc),
   (tokenRequestId, defaultCompositeKey,
    0x6170ed80f2f405d74c9fedb8e0facb5f4035cde4c935d4045ea84cb297f44a0a),
   (loginRequestId, defaultCompositeKey,
    0x0d15a39202ff633e3cf9d6e8d6098b5ad7fdb3151744c1c31b18bec34dd04c6c),
   (defaultCompositeKey, signString "tuya.m.my.group.device.list" "1.0"
      deviceListRequestId "4995d9370539e9d12b4743c0dfcd0b1e" "||sid=sid-1234",
    0x522abdcd5eea2b961cc1d854bb3344fc3fdbfc1b15764494f8adc11bd3306d66),
   (defaultCompositeKey, signString "smartlife.m.user.username.token.get" "2.0"
      tokenRequestId "c0a2693c941a18f35ef1374958eac9e2" "",
    0xedb77cb18ee7c4d3ebe99a950f898b7de36acfde14db5b90be0478a4f20ae6f6),
   (defaultCompositeKey, signString "smartlife.m.user.email.password.login" "3.0"
      loginRequestId "4a3d3096c5c25a3dd2fdac46c451f607" "",
    0xb3aba11ffadb126e456228d85371ea9dd361c063c1d67715e085bad2a341e949)]

def md5s : List (String × Nat) :=
  [(encrypted deviceListRequest, 0x0539e9d14995d937dfcd0b1e2b4743c0),
   (encrypted tokenRequest, 0x941a18f3c0a2693c58eac9e25ef13749),
   (encrypted loginRequest, 0xc5c25a3d4a3d3096c451f607d2fdac46),
   (password, 0x3cb4e732631f47e6eb961f34554b7cde)]

def bytesOfNat (width n : Nat) : { data : Bytes // data.length = width } :=
  ⟨BigEndian.toBytes width n, BigEndian.length_toBytes _ _⟩

def encryptRsa (e n : Int) (data : Bytes) : Except PyException Bytes :=
  if e = 65537 ∧ n = modulus ∧ data = encodeUtf8 "3cb4e732631f47e6eb961f34554b7cde" then
    .ok encryptedPassword
  else raise .valueError "Invalid RSA public key"

theorem encryptRsa_fails (e n : Int) (data : Bytes) : Fails (encryptRsa e n data) .valueError := by
  intro exception h
  unfold encryptRsa raise at h
  split at h <;> cases h
  rfl

theorem encryptRsa_modulus {data : Bytes}
    (h : data = encodeUtf8 "3cb4e732631f47e6eb961f34554b7cde") :
    encryptRsa 65537 modulus data = .ok encryptedPassword := if_pos ⟨rfl, rfl, h⟩

/-! ## Documents -/

/-- The text of an answer with an encrypted result. -/
def envelopeText (body : Recording) : String :=
  "\x7b\"result\": \"" ++ encrypted body ++ "\"\x7d"

def deviceList : JsonValue := .array [.object [("devId", .str "ebc0496t9ektfzip")]]

def loginToken : JsonObject :=
  [("publicKey", .str publicKey), ("exponent", .str exponent), ("token", .str "token-3456")]

/-- A token whose modulus is not a number. -/
def malformedToken : JsonObject :=
  [("publicKey", .str "abc"), ("exponent", .str exponent), ("token", .str "token-3456")]

def accountObject : JsonObject :=
  [("sid", .str accountSession.sid), ("ecode", .str accountSession.ecode),
   ("uid", .str accountSession.uid)]

def rejectionText : String := "\x7b\"success\": false, \"errorCode\": \"USER_SESSION_INVALID\"\x7d"
def rejection : JsonObject := [("success", .bool false), ("errorCode", .str "USER_SESSION_INVALID")]

/-- A rejection with a body that reports a success. -/
def contradictedText : String :=
  "\x7b\"success\": false, \"result\": \"" ++ encrypted successAnswer ++ "\"\x7d"
def contradicted : JsonObject :=
  [("success", .bool false), ("result", .str (encrypted successAnswer))]
def success : JsonObject := [("success", .bool true), ("result", .object [])]

def envelope (body : Recording) : String × JsonValue :=
  (envelopeText body, .object [("result", .str (encrypted body))])

/-- The documents of the recording, each with its value. -/
def documents : Dict String JsonValue :=
  [("\x7b\x7d", .object []),
   (deviceListAnswer.val.plaintext, .object [("result", deviceList)]),
   (successAnswer.val.plaintext, .object success),
   (tokenAnswer.val.plaintext, .object [("result", .object loginToken)]),
   (malformedTokenAnswer.val.plaintext, .object [("result", .object malformedToken)]),
   (loginAnswer.val.plaintext, .object [("result", .object accountObject)]),
   (rejectionText, .object rejection),
   (contradictedText, .object contradicted),
   envelope deviceListAnswer, envelope tokenAnswer, envelope malformedTokenAnswer,
   envelope loginAnswer]

def loadText (raw : String) : Except PyException JsonValue :=
  match documents.get? raw with
  | some value => .ok value
  | none => raise .valueError "Expecting value: line 1 column 1 (char 0)"

def dumpText : JsonValue → String
  | .object [] => deviceListRequest.val.plaintext
  | .object [_, _, _] => tokenRequest.val.plaintext
  | _ => loginRequest.val.plaintext

/-! ## The primitives -/

def primitives : CloudPrimitives where
  loads raw :=
    match raw with
    | .text raw => loadText raw
    | .bytes raw =>
      match decodeUtf8 raw with
      | some raw => loadText raw
      | none => raise .unicodeDecodeError "invalid start byte"
  dumps value := .ok (dumpText value)
  md5 data :=
    match md5s.find? fun r => encodeUtf8 r.1 = data with
    | some r => bytesOfNat 16 r.2
    | none => bytesOfNat 16 0
  hmacSha256 key message :=
    match hmacs.find? fun r => encodeUtf8 r.1 = key ∧ encodeUtf8 r.2.1 = message with
    | some r => bytesOfNat 32 r.2.2
    | none => bytesOfNat 32 0
  gcmEncrypt key nonce := sealWith (recordingOf key nonce)
  gcmDecrypt key nonce := openWith (recordingOf key nonce)
  encryptRsa := encryptRsa
  length_gcmEncrypt key nonce := length_sealWith (recordingOf key nonce)
  gcmDecrypt_encrypt key nonce := openWith_sealWith (recordingOf key nonce)
  encryptRsa_fails := encryptRsa_fails

/-- A recorded body is encrypted to what was recorded. -/
theorem encryptPostData_recorded {body : Recording} (h : body ∈ recordings) :
    encryptPostData primitives body.val.key body.val.nonce (encodeUtf8 body.val.plaintext) =
      encrypted body := by
  unfold encryptPostData encrypted
  show String.ofList (Base64.encode (_ ++ sealWith (recordingOf _ _) _)) = _
  rw [recordingOf_of_mem h, sealWith, if_pos rfl]

theorem decryptPostData_recorded (body : Recording) (h : body ∈ recordings) :
    decryptPostData primitives body.val.key (encrypted body) =
      .ok (encodeUtf8 body.val.plaintext) := by
  rw [← encryptPostData_recorded h, decryptPostData_encryptPostData]

theorem nodup_documents : documents.keys.Nodup := by decide +kernel

theorem loads_text {raw : String} {value : JsonValue} (h : (raw, value) ∈ documents) :
    primitives.loads (.text raw) = .ok value := by
  show loadText raw = _
  rw [loadText, Dict.get?_of_mem nodup_documents h]

theorem loads_bytes {raw : String} {value : JsonValue} (h : (raw, value) ∈ documents) :
    primitives.loads (.bytes (encodeUtf8 raw)) = .ok value := by
  rw [← loads_text h]
  show (match decodeUtf8 (encodeUtf8 raw) with | some raw => loadText raw | none => _) = _
  rw [decodeUtf8_encodeUtf8]
  rfl

/-! ## Exchanges -/

def exchangeOf (requestId : String) (nonce : Nonce) (answer : Recording) : Exchange where
  requestId := requestId
  nonce := nonce
  time := 1700000000
  post := fun _ => .ok (envelopeText answer)

def deviceListExchange : Exchange :=
  exchangeOf deviceListRequestId (nonceFrom 0) deviceListAnswer
def recordedTokenExchange : Exchange := exchangeOf tokenRequestId (nonceFrom 48) tokenAnswer
def recordedMalformedExchange : Exchange :=
  exchangeOf tokenRequestId (nonceFrom 48) malformedTokenAnswer
def recordedLoginExchange : Exchange := exchangeOf loginRequestId (nonceFrom 96) loginAnswer

def deviceListCall : GatewayCall where
  api := "tuya.m.my.group.device.list"
  version := "1.0"
  post := .object []
  account := some accountSession
  extraParams := some [("gid", "41441017")]

end FakeGateway

end TuyaBle
