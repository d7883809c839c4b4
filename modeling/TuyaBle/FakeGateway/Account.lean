import TuyaBle.FakeGateway.Session

/-!
# The account of the tests

The primitives of both sides on a login and a listing of the account that a
`FakeGatewaySession` has by default: one home with a Bluetooth and a Wi-Fi device.
-/

namespace TuyaBle

namespace FakeGateway

/-! ## Bodies -/

def accountHomes : List JsonValue := [.object [("gid", .int FakeGatewaySession.homeId)]]

def accountDevices : List JsonValue := [bleDevice "-xGE=f(253=Zziu-", wifiDevice]

def homesAnswer : Recording where
  val.key := homeListBodyKey
  val.nonce := nonceFrom 208
  val.plaintext :=
    "\x7b\"result\": [\x7b\"gid\": 41441017\x7d]\x7d"
  val.ciphertext :=
    BigEndian.toBytes 32
      0x658e60a212748836bf3531f2f8798082a47d1e258a6a6483a31d8ee7ebd67e6e ++
    BigEndian.toBytes 15 0xccd4f330dd876c1a61ba06388d778b
  property := by decide +kernel

def devicesAnswer : Recording where
  val.key := deviceListBodyKey
  val.nonce := nonceFrom 224
  val.plaintext :=
    "\x7b\"result\": [\x7b\"devId\": \"ebc0496t9ektfzip\", " ++
    "\"localKey\": \"-xGE=f(253=Zziu-\", \"uuid\": \"792e1bd35df2d02e\", " ++
    "\"mac\": \"DC2351E5D13A\", \"productId\": \"gvygg3m8\", " ++
    "\"name\": \"Soil sensor\"\x7d, \x7b\"devId\": \"ebe1f9b8f5d0732236bsli\", " ++
    "\"localKey\": \"CtN[u^c4j\x7d@=uf-Q\", \"uuid\": \"c4a5ce0d553e28fa\", " ++
    "\"mac\": \"4ca919c0af72\", \"productId\": \"4tjsokgxfdetovsd\", " ++
    "\"name\": \"Living room light\"\x7d]\x7d"
  val.ciphertext :=
    [0x743a14e26e207f3cce140a17421b064a48f0fef4488e198676ab6c04ebfe35e2,
     0x2c991dfb566960be18f52fda1e0787b6433a64d8ff2cc9672b74e2dfbd17a0fc,
     0x3b186714613ee5c191d3ada4edbcf43b66ac399fcf388e48e94b102d24fd79f9,
     0x8cd327cb73c7a8019483b7e9c26b1568cedcee0849218df2f8c74a768c82e060,
     0xef7af50c5257405e8c38b0dfeb9cc4d369c63f12563a34ee875ef99cb6aa114a,
     0x0bf42f9a0c06e82181ff54341226e47711b572ac644f0a5876a82c48d9ec0421,
     0x278e89ecfedc32ad6d5a3d86e5f5a376a5d9007f0b14bce2043f70e7e7a8b99d,
     0x93edf1ba46aebe1831eecfce66629d16541baa72c8abf0a778caccfdab1f9c8f,
     0x2fcfa1154cd7b7da19bb29f45e4cabfdd316567346663ccc7fc86ef79d78970a,
     0x7e532f6ed5e9a38ecbf80c5baa96708d6b78e5329ca587f59067a211fd42946d,
     0x1c0fc8e9be8e30ebcbd85c39711a822f8935252b0d501fabc014dc10f0800fa3].flatMap
      (BigEndian.toBytes 32) ++
    BigEndian.toBytes 20 0xbc60aa20d0e0c5601d3378f28f02295b8749eae2
  property := by decide +kernel

def accountRecordingsOf : Dict (AesKey × Nonce) Recording :=
  (homesAnswer :: devicesAnswer :: listingRecordings).map fun body =>
    ((body.val.key.toAesKey, body.val.nonce), body)

def accountRecordingOf (key : AesKey) (nonce : Nonce) : Option Recording :=
  accountRecordingsOf.get? (key, nonce)

/-! ## The gateway -/

def encodedPassword : Bytes := encodeUtf8 "3cb4e732631f47e6eb961f34554b7cde"

/-- What the gateway dumps for this account. -/
def serverDumpText : JsonValue → String
  | .object [(_, .str text)] => "\x7b\"result\": \"" ++ text ++ "\"\x7d"
  | .object [(_, .object (("publicKey", _) :: _))] => tokenAnswer.val.plaintext
  | .object [(_, .object _)] => loginAnswer.val.plaintext
  | .object [(_, .array [_])] => homesAnswer.val.plaintext
  | _ => devicesAnswer.val.plaintext

def decryptRsa (data : Bytes) : Except PyException Bytes :=
  if data = encryptedPassword then .ok encodedPassword
  else raise .valueError "Decryption failed"

def serverPrimitives : ServerPrimitives where
  dumps value := .ok (serverDumpText value)
  modulus := modulus
  exponent := 65537
  decryptRsa := decryptRsa

/-! ## Documents -/

/-- What a JSON string holds as it is. -/
def plain (c : Char) : Bool := 32 ≤ c.toNat ∧ c.toNat ≠ 34 ∧ c.toNat ≠ 92

def envelopeHead : List Char := "\x7b\"result\": \"".toList
def envelopeTail : List Char := "\"\x7d".toList

/-- The text in an envelope without escapes. -/
def envelopeOf (raw : String) : Option String :=
  let cs := raw.toList
  let text := (cs.drop envelopeHead.length).take
    (cs.length - (envelopeHead.length + envelopeTail.length))
  if cs = envelopeHead ++ text ++ envelopeTail ∧ text.all plain then some (String.ofList text)
  else none

def loginPost : JsonValue :=
  .object [("countryCode", .str "55"), ("email", .str "someone@example.com"),
    ("ifencrypt", .int 1), ("options", .str "\x7b\"group\": 1\x7d"),
    ("passwd", .str (hex encryptedPassword)), ("token", .str "token-3456")]

/-- The documents of the account but for the envelopes, each with its value. -/
def accountDocuments : Dict String JsonValue :=
  [("\x7b\x7d", .object []),
   (tokenRequest.val.plaintext, (tokenCall recordedClient).post),
   (loginRequest.val.plaintext, loginPost),
   (tokenAnswer.val.plaintext,
    .object [("result", .object (FakeGatewaySession.tokenResult serverPrimitives))]),
   (loginAnswer.val.plaintext, .object [("result", .object accountObject)]),
   (homesAnswer.val.plaintext, .object [("result", .array accountHomes)]),
   (devicesAnswer.val.plaintext, .object [("result", .array accountDevices)])]

def loadAccount (raw : String) : Except PyException JsonValue :=
  match accountDocuments.get? raw with
  | some value => .ok value
  | none => raise .valueError "Expecting value: line 1 column 1 (char 0)"

def loadEnvelope (raw : String) : Except PyException JsonValue :=
  match envelopeOf raw with
  | some text => .ok (.object [("result", .str text)])
  | none => loadAccount raw

/-! ## The primitives -/

def accountPrimitives : CloudPrimitives where
  loads raw :=
    match raw with
    | .text raw => loadEnvelope raw
    | .bytes raw =>
      match decodeUtf8 raw with
      | some raw => loadAccount raw
      | none => raise .unicodeDecodeError "invalid start byte"
  dumps := primitives.dumps
  md5 := listingPrimitives.md5
  hmacSha256 := listingPrimitives.hmacSha256
  gcmEncrypt key nonce := sealWith (accountRecordingOf key nonce)
  gcmDecrypt key nonce := openWith (accountRecordingOf key nonce)
  encryptRsa := encryptRsa
  length_gcmEncrypt key nonce := length_sealWith (accountRecordingOf key nonce)
  gcmDecrypt_encrypt key nonce := openWith_sealWith (accountRecordingOf key nonce)
  encryptRsa_fails := encryptRsa_fails

theorem nodup_accountDocuments : accountDocuments.keys.Nodup := by decide +kernel

theorem loads_account {raw : String} {value : JsonValue} (h : (raw, value) ∈ accountDocuments) :
    accountPrimitives.loads (.bytes (encodeUtf8 raw)) = .ok value := by
  have hload : loadAccount raw = .ok value := by
    rw [loadAccount, Dict.get?_of_mem nodup_accountDocuments h]
  rw [← hload]
  show (match decodeUtf8 (encodeUtf8 raw) with | some raw => loadAccount raw | none => _) = _
  rw [decodeUtf8_encodeUtf8]

theorem plain_digit : ∀ n : Fin 64, plain (Base64.digit n) := by decide

theorem plain_encode {data : Bytes} {c : Char} (h : c ∈ Base64.encode data) : plain c := by
  rcases Base64.mem_encode h with rfl | ⟨n, rfl⟩
  · decide
  · exact plain_digit n

theorem envelopeOf_encode (data : Bytes) :
    envelopeOf ("\x7b\"result\": \"" ++ String.ofList (Base64.encode data) ++ "\"\x7d") =
      some (String.ofList (Base64.encode data)) := by
  have hcs : ("\x7b\"result\": \"" ++ String.ofList (Base64.encode data) ++ "\"\x7d").toList =
      envelopeHead ++ Base64.encode data ++ envelopeTail := by
    simp only [String.toList_append, String.toList_ofList]
    rfl
  have htext : ((envelopeHead ++ Base64.encode data ++ envelopeTail).drop envelopeHead.length).take
      ((envelopeHead ++ Base64.encode data ++ envelopeTail).length -
        (envelopeHead.length + envelopeTail.length)) = Base64.encode data := by
    rw [List.append_assoc, List.drop_left]
    refine List.take_left' ?_
    rw [List.length_append, List.length_append]
    omega
  unfold envelopeOf
  simp only [hcs, htext, true_and]
  exact if_pos (List.all_eq_true.2 fun c hc => plain_encode hc)

theorem md5Hex_password :
    encodeUtf8 (md5Hex accountPrimitives recordedClient.password) = encodedPassword := by
  decide +kernel

theorem encryptRsa_password : accountPrimitives.encryptRsa serverPrimitives.exponent
    serverPrimitives.modulus (encodeUtf8 (md5Hex accountPrimitives recordedClient.password)) =
      .ok encryptedPassword := encryptRsa_modulus md5Hex_password

theorem encryptPassword_account :
    encryptPassword accountPrimitives publicKey (toString serverPrimitives.exponent)
      (md5Hex accountPrimitives recordedClient.password) = .ok (hex encryptedPassword) := by
  have hencrypt : accountPrimitives.encryptRsa serverPrimitives.exponent modulus
      (encodeUtf8 (md5Hex accountPrimitives recordedClient.password)) = .ok encryptedPassword :=
    encryptRsa_password
  unfold encryptPassword
  rw [intOfText_toString (by decide +kernel), intOfText_publicKey]
  simp only [bind, Except.bind, hencrypt]
  rfl

theorem loginPost_eq {call : GatewayCall}
    (h : loginCall accountPrimitives recordedClient
      (.ofPairs (FakeGatewaySession.tokenResult serverPrimitives)) = .ok call) :
    call.post = loginPost := by
  obtain ⟨modulusText, hmodulus, h⟩ := Except.bind_eq_ok.1 h
  obtain ⟨exponentText, hexponent, h⟩ := Except.bind_eq_ok.1 h
  obtain ⟨passwd, hpasswd, h⟩ := Except.bind_eq_ok.1 h
  obtain ⟨text, htext, h⟩ := Except.bind_eq_ok.1 h
  obtain rfl := Except.ok.inj h
  obtain rfl : publicKey = modulusText :=
    JsonValue.str.inj (Option.some.inj (optionalStr_eq_some.1 (requireStr_eq_ok.1 hmodulus)).1)
  obtain rfl : toString serverPrimitives.exponent = exponentText :=
    JsonValue.str.inj (Option.some.inj (optionalStr_eq_some.1 (requireStr_eq_ok.1 hexponent)).1)
  obtain rfl : "token-3456" = text :=
    JsonValue.str.inj (Option.some.inj (optionalStr_eq_some.1 (requireStr_eq_ok.1 htext)).1)
  obtain rfl := Except.ok.inj (encryptPassword_account.symm.trans hpasswd)
  rfl

theorem understood_account :
    Understood accountPrimitives serverPrimitives recordedClient accountHomes accountDevices where
  empty := ⟨_, rfl, loads_account (List.mem_of_getElem? (i := 0) rfl)⟩
  token := ⟨_, rfl, loads_account (List.mem_of_getElem? (i := 1) rfl)⟩
  login call hcall := by
    rw [loginPost_eq hcall]
    exact ⟨_, rfl, loads_account (List.mem_of_getElem? (i := 2) rfl)⟩
  results result hresult := by
    simp only [List.mem_cons, List.not_mem_nil, or_false] at hresult
    rcases hresult with rfl | rfl | rfl | rfl
    · exact ⟨_, rfl, loads_account (List.mem_of_getElem? (i := 3) rfl)⟩
    · exact ⟨_, rfl, loads_account (List.mem_of_getElem? (i := 4) rfl)⟩
    · exact ⟨_, rfl, loads_account (List.mem_of_getElem? (i := 5) rfl)⟩
    · exact ⟨_, rfl, loads_account (List.mem_of_getElem? (i := 6) rfl)⟩
  envelopes key nonce body := ⟨_, rfl, by
    show loadEnvelope _ = _
    unfold loadEnvelope
    rw [serverDumpText, encryptPostData, envelopeOf_encode]⟩
  modulus := by decide +kernel
  exponent := by decide +kernel
  password := by
    have hdecrypt : decryptRsa encryptedPassword = .ok encodedPassword := if_pos rfl
    refine ⟨encryptedPassword, encryptRsa_password, ?_⟩
    rw [md5Hex_password]
    exact hdecrypt

end FakeGateway

end TuyaBle
