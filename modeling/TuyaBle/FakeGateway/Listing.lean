import TuyaBle.FakeGateway

/-!
# A recorded device listing

The calls of a listing of an account whose one home is listed twice, beside a home without
an id. The first answer for the home has a record without a local key, the second the same
record with it.
-/

namespace TuyaBle

namespace FakeGateway

def homeListRequestId : String := "5d90e7a3-2c1b-4f68-8d35-7e6f8091a2b3"
def secondListRequestId : String := "b7c8d9ea-f0b1-42c3-94d5-e6f70819203a"

def homeListBodyKey : BodyKey := ⟨"7753b4885668df79", by decide⟩
def secondListBodyKey : BodyKey := ⟨"6ac943ca3bf466b7", by decide⟩

/-! ## Bodies -/

def homeListRequest : Recording where
  val.key := homeListBodyKey
  val.nonce := nonceFrom 128
  val.plaintext :=
    "\x7b\x7d"
  val.ciphertext :=
    BigEndian.toBytes 18 0x160d31595781f8b387897ecb2753a830a2e0
  property := by decide +kernel

def secondListRequest : Recording where
  val.key := secondListBodyKey
  val.nonce := nonceFrom 176
  val.plaintext :=
    "\x7b\x7d"
  val.ciphertext :=
    BigEndian.toBytes 18 0x7ab429b6f302af87a15ee1d84ebcd9cedcdb
  property := by decide +kernel

def homeListAnswer : Recording where
  val.key := homeListBodyKey
  val.nonce := nonceFrom 144
  val.plaintext :=
    "\x7b\"result\": [\x7b\"gid\": 41441017\x7d, \x7b\"name\": \"no gid\"\x7d, " ++
    "\x7b\"gid\": 41441017\x7d]\x7d"
  val.ciphertext :=
    [0xc5df67fce8fb7e7e00f8fa71f43681adafec0f5c30122c8ebe750143e83bc176,
     0xe7732b7122f6b1804a213904ff22894e6180477f0b5795b715fce0159471f0ae].flatMap
      (BigEndian.toBytes 32) ++
    BigEndian.toBytes 22 0x9db883792e7e63c5ed8028407c03be1c1287aa068a8e
  property := by decide +kernel

def firstListAnswer : Recording where
  val.key := deviceListBodyKey
  val.nonce := nonceFrom 160
  val.plaintext :=
    "\x7b\"result\": [\x7b\"devId\": \"ebc0496t9ektfzip\", \"localKey\": \"\", " ++
    "\"uuid\": \"792e1bd35df2d02e\", \"mac\": \"DC2351E5D13A\", " ++
    "\"productId\": \"gvygg3m8\", \"name\": \"Soil sensor\"\x7d, " ++
    "\x7b\"devId\": \"ebe1f9b8f5d0732236bsli\", \"localKey\": \"CtN[u^c4j\x7d@=uf-Q\", " ++
    "\"uuid\": \"c4a5ce0d553e28fa\", \"mac\": \"4ca919c0af72\", " ++
    "\"productId\": \"4tjsokgxfdetovsd\", \"name\": \"Living room light\"\x7d]\x7d"
  val.ciphertext :=
    [0xb75643ac820a75f68b615102f7e342bb4d32e3cbcd7b38bebac6439a3c2be662,
     0x3c3c2c2ec044fb6eb67c9f1b5d31086ae9868b37810582ebe742b29ab6142cb3,
     0x091de8bc3270a34bdef6462a64877cfaeaa16ee2f5284ec481c939c0b825af95,
     0x81fa48e97604784c632f8670a117b30886ce81f9e7ede1a5cb36617919ad13d2,
     0xc5b2d19e519af06d486cf9b2bbacf056ba4e7ea9e4fbe004e995abc591ab3495,
     0x317b8efaeefbce217818f3bfe5f59e69918064e3914db35c856736094523f469,
     0x8849f89dbdd48490e5fee9e99c067c608dc9ffd4b0e8892a85c00262a41ba0fd,
     0x85ce50b82a8fa6e913690b7f6fa366dd861acedc557b34f5f13a8fedb82666c9,
     0x498354681807afc4468c584eb2b8f53fb70113aa149db71ec3d59690a2ad3ff0,
     0x6d98e9a1d79fb8d45a52ed57c4c6c649d8c27340710162374c49b6f0b6d579e1,
     0x523fbb104f1fb1d3f57b6d5ec06f1ca2728aa7394e085e7191ab883b88f4e0c2].flatMap
      (BigEndian.toBytes 32) ++
    BigEndian.toBytes 4 0x98e68134
  property := by decide +kernel

def secondListAnswer : Recording where
  val.key := secondListBodyKey
  val.nonce := nonceFrom 192
  val.plaintext :=
    "\x7b\"result\": [\x7b\"devId\": \"ebe1f9b8f5d0732236bsli\", " ++
    "\"localKey\": \"CtN[u^c4j\x7d@=uf-Q\", \"uuid\": \"c4a5ce0d553e28fa\", " ++
    "\"mac\": \"4ca919c0af72\", \"productId\": \"4tjsokgxfdetovsd\", " ++
    "\"name\": \"Living room light\"\x7d, \x7b\"devId\": \"ebc0496t9ektfzip\", " ++
    "\"localKey\": \"-xGE=f(253=Zziu-\", \"uuid\": \"792e1bd35df2d02e\", " ++
    "\"mac\": \"DC2351E5D13A\", \"productId\": \"gvygg3m8\", " ++
    "\"name\": \"Soil sensor\"\x7d]\x7d"
  val.ciphertext :=
    [0xc7aa18a083480ce8731762d03853a10ce015fcee20d30cbb0216f5e8be240baf,
     0xe97d84e87e5142c8b050e5459521341748414ab72a727c2cf07e6281d334edca,
     0x3c3e111cb143ffb828ad409299f251448dde10311ec554cef7090edcd2a7409f,
     0x81b128406d4c0aa770d511e70bd9ae0502b0b4d6d2dded34a8027e99c4213c93,
     0x7a66753a48b4bbcb596d981b374e3c95c0b6a10c1530e02b140aee1ba65053fe,
     0xc0c062b4187105836f438a0f6e129833ffe749e6486fffd97bee93d67e7e3c34,
     0x5cbf2977fe6ac6e31f6a804568c5ac0d9ba8491f305a442fa8760cee5db90cf8,
     0xa9098d7d6d299614b37d4c485f61d649870e02e95567530a10af20516a1ec477,
     0x3da6a33c875c6a3993e34aecb141873ea00153880372f2d3ec2fb213c05957b6,
     0x9bc62f8804f13518ea0775c5010fd4bff5a017e94b384bcfa2a0e9972b41c93f,
     0xf75cd02c35b6dd07e3d632c44667c79e2335fe7ff96d8f1cb994f45073472f8e].flatMap
      (BigEndian.toBytes 32) ++
    BigEndian.toBytes 20 0x1b9907293154abe2c9c67691be0d55e6f836271a
  property := by decide +kernel

def listingRecordings : List Recording :=
  [homeListRequest, secondListRequest, homeListAnswer, firstListAnswer, secondListAnswer] ++
    recordings

def listingRecordingsOf : Dict (AesKey × Nonce) Recording :=
  listingRecordings.map fun body => ((body.val.key.toAesKey, body.val.nonce), body)

def listingRecordingOf (key : AesKey) (nonce : Nonce) : Option Recording :=
  listingRecordingsOf.get? (key, nonce)

theorem listingRecordingOf_of_mem {body : Recording} (h : body ∈ listingRecordings) :
    listingRecordingOf body.val.key.toAesKey body.val.nonce = some body :=
  have hn : listingRecordingsOf.keys.Nodup := by decide +kernel
  Dict.get?_of_mem hn (List.mem_map_of_mem h)

/-! ## Digests -/

def listingHmacs : List (String × String × Nat) :=
  [(homeListRequestId, defaultCompositeKey ++ "_" ++ accountSession.ecode,
    0x7753b4885668df79b78b6e4fea30eb8fc41de1fbab2dc596b11b200d000791aa),
   (secondListRequestId, defaultCompositeKey ++ "_" ++ accountSession.ecode,
    0x6ac943ca3bf466b7a206f303107fe541859d866d25a1b104523c579e3c7c0147),
   (defaultCompositeKey, signString "tuya.m.location.list" "2.1"
      homeListRequestId "ec6291cf80cf23a05b098d0e959a103a" "||sid=sid-1234",
    0xd78eb38429c809409c1b359d8d298c260f55b3d9e8a952dad49f8f87d13a9e12),
   (defaultCompositeKey, signString "tuya.m.my.group.device.list" "1.0"
      secondListRequestId "9ff038f0fd848be45a67a78c7bd7d8e1" "||sid=sid-1234",
    0x739d3e429d19f7a657a767a34c8d795ac54975ac25707489bc13919ceb9bd15d)] ++ hmacs

def listingMd5s : List (String × Nat) :=
  [(encrypted homeListRequest, 0x80cf23a0ec6291cf959a103a5b098d0e),
   (encrypted secondListRequest, 0xfd848be49ff038f07bd7d8e15a67a78c)] ++ md5s

/-! ## Documents -/

def homeList : List JsonValue :=
  [.object [("gid", .int 41441017)], .object [("name", .str "no gid")],
   .object [("gid", .int 41441017)]]

def bleDevice (localKey : String) : JsonValue :=
  .object [("devId", .str "ebc0496t9ektfzip"), ("localKey", .str localKey),
    ("uuid", .str "792e1bd35df2d02e"), ("mac", .str "DC2351E5D13A"),
    ("productId", .str "gvygg3m8"), ("name", .str "Soil sensor")]

def wifiDevice : JsonValue :=
  .object [("devId", .str "ebe1f9b8f5d0732236bsli"), ("localKey", .str "CtN[u^c4j\x7d@=uf-Q"),
    ("uuid", .str "c4a5ce0d553e28fa"), ("mac", .str "4ca919c0af72"),
    ("productId", .str "4tjsokgxfdetovsd"), ("name", .str "Living room light")]

def firstList : List JsonValue := [bleDevice "", wifiDevice]

def secondList : List JsonValue := [wifiDevice, bleDevice "-xGE=f(253=Zziu-"]

def listingDocuments : Dict String JsonValue :=
  [(homeListAnswer.val.plaintext, .object [("result", .array homeList)]),
   (firstListAnswer.val.plaintext, .object [("result", .array firstList)]),
   (secondListAnswer.val.plaintext, .object [("result", .array secondList)]),
   envelope homeListAnswer, envelope firstListAnswer, envelope secondListAnswer] ++ documents

def loadListing (raw : String) : Except PyException JsonValue :=
  match listingDocuments.get? raw with
  | some value => .ok value
  | none => raise .valueError "Expecting value: line 1 column 1 (char 0)"

/-! ## The primitives -/

def listingPrimitives : CloudPrimitives where
  loads raw :=
    match raw with
    | .text raw => loadListing raw
    | .bytes raw =>
      match decodeUtf8 raw with
      | some raw => loadListing raw
      | none => raise .unicodeDecodeError "invalid start byte"
  dumps := primitives.dumps
  md5 data :=
    match listingMd5s.find? fun r => encodeUtf8 r.1 = data with
    | some r => bytesOfNat 16 r.2
    | none => bytesOfNat 16 0
  hmacSha256 key message :=
    match listingHmacs.find? fun r => encodeUtf8 r.1 = key ∧ encodeUtf8 r.2.1 = message with
    | some r => bytesOfNat 32 r.2.2
    | none => bytesOfNat 32 0
  gcmEncrypt key nonce := sealWith (listingRecordingOf key nonce)
  gcmDecrypt key nonce := openWith (listingRecordingOf key nonce)
  encryptRsa := encryptRsa
  length_gcmEncrypt key nonce := length_sealWith (listingRecordingOf key nonce)
  gcmDecrypt_encrypt key nonce := openWith_sealWith (listingRecordingOf key nonce)
  encryptRsa_fails := encryptRsa_fails

theorem nodup_listingDocuments : listingDocuments.keys.Nodup := by decide +kernel

theorem loadListing_of_mem {raw : String} {value : JsonValue}
    (h : (raw, value) ∈ listingDocuments) : loadListing raw = .ok value := by
  rw [loadListing, Dict.get?_of_mem nodup_listingDocuments h]

theorem loads_text_listing (raw : String) :
    listingPrimitives.loads (.text raw) = loadListing raw := rfl

theorem loads_bytes_listing (raw : String) :
    listingPrimitives.loads (.bytes (encodeUtf8 raw)) = loadListing raw := by
  show (match decodeUtf8 (encodeUtf8 raw) with | some raw => loadListing raw | none => _) = _
  rw [decodeUtf8_encodeUtf8]

theorem answers_listing (body : Recording) {result : JsonValue} (h : body ∈ listingRecordings)
    (hbody : (body.val.plaintext, .object [("result", result)]) ∈ listingDocuments)
    (henvelope : envelope body ∈ listingDocuments) :
    Answers listingPrimitives body.val.key (envelopeText body) result := by
  have hsealed : encryptPostData listingPrimitives body.val.key body.val.nonce
      (encodeUtf8 body.val.plaintext) = encrypted body := by
    unfold encryptPostData encrypted
    show String.ofList (Base64.encode (_ ++ sealWith (listingRecordingOf _ _) _)) = _
    rw [listingRecordingOf_of_mem h, sealWith, if_pos rfl]
  refine ⟨body.val.nonce, encodeUtf8 body.val.plaintext, ?_, ?_⟩
  · rw [loads_bytes_listing]
    exact loadListing_of_mem hbody
  · rw [hsealed, loads_text_listing]
    exact loadListing_of_mem henvelope

/-! ## Exchanges -/

def homeListExchange : Exchange := exchangeOf homeListRequestId (nonceFrom 128) homeListAnswer
def firstListExchange : Exchange := exchangeOf deviceListRequestId (nonceFrom 0) firstListAnswer
def secondListExchange : Exchange :=
  exchangeOf secondListRequestId (nonceFrom 176) secondListAnswer

end FakeGateway

end TuyaBle
