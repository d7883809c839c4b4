import TuyaBle.Cloud.Devices

/-!
# The fake gateway's session

`FakeGatewaySession` stands for the HTTP session of a client, and for the gateway behind it.
`post` sees the form alone: it checks the signature, opens the body and answers by the api
of the form. What a client of this account posts it answers under the key of the call
(`post_callForm`).
-/

namespace TuyaBle

/-! ## Python -/

/-- `data[key]`. -/
def item {α : Type} (data : Dict String α) (key : String) : Except PyException α :=
  match data.get? key with
  | some value => .ok value
  | none => raise (.other "KeyError") s!"'{key}'"

theorem item_eq_ok {α : Type} {data : Dict String α} {key : String} {value : α} :
    item data key = .ok value ↔ data.get? key = some value := by
  unfold item raise
  cases data.get? key <;> simp

def JsonValue.typeName : JsonValue → String
  | .null => "NoneType"
  | .bool _ => "bool"
  | .int _ => "int"
  | .float _ => "float"
  | .str _ => "str"
  | .array _ => "list"
  | .object _ => "dict"

/-- `value[key]`. -/
def JsonValue.item (value : JsonValue) (key : String) : Except PyException JsonValue :=
  match value with
  | .object members => TuyaBle.item (.ofPairs members) key
  | .array _ => raise (.other "TypeError") "list indices must be integers or slices, not str"
  | .str _ => raise (.other "TypeError") "string indices must be integers, not 'str'"
  | value => raise (.other "TypeError") s!"'{value.typeName}' object is not subscriptable"

/-- `bool(value)`; the two zeros of a `float` differ in the sign bit. -/
def JsonValue.truthy : JsonValue → Bool
  | .null => false
  | .bool value => value
  | .int value => value ≠ 0
  | .float bits => bits ≠ 0 ∧ bits ≠ 0x8000000000000000
  | .str value => value ≠ ""
  | .array items => !items.isEmpty
  | .object members => !members.isEmpty

def hexValue? (c : Char) : Option Nat :=
  if 48 ≤ c.toNat ∧ c.toNat ≤ 57 then some (c.toNat - 48)
  else if 97 ≤ c.toNat ∧ c.toNat ≤ 102 then some (c.toNat - 87)
  else if 65 ≤ c.toNat ∧ c.toNat ≤ 70 then some (c.toNat - 55)
  else none

def fromHexChars : List Char → Option Bytes
  | [] => some []
  | [c] => if isAsciiSpace c then some [] else none
  | c :: d :: cs =>
    if isAsciiSpace c then fromHexChars (d :: cs)
    else do
      let high ← hexValue? c
      let low ← hexValue? d
      let rest ← fromHexChars cs
      return UInt8.ofNat (16 * high + low) :: rest

/-- `bytes.fromhex(value)`, in the words of its `ValueError` short of the position. -/
def fromHex : JsonValue → Except PyException Bytes
  | .str text =>
    match fromHexChars text.toList with
    | some data => .ok data
    | none =>
      raise .valueError "non-hexadecimal number found in fromhex() arg at position "
  | value => raise (.other "TypeError") s!"fromhex() argument must be str, not {value.typeName}"

theorem hexDigit_fin : ∀ n : Fin 16,
    isAsciiSpace (hexDigit n) = false ∧ hexValue? (hexDigit n) = some n.val := by decide

theorem fromHexChars_hexChars (data : Bytes) : fromHexChars (hexChars data) = some data := by
  induction data with
  | nil => rfl
  | cons b data ih =>
    have hb := b.toNat_lt
    obtain ⟨hspace, hhigh⟩ := hexDigit_fin ⟨b.toNat / 16, by omega⟩
    obtain ⟨-, hlow⟩ := hexDigit_fin ⟨b.toNat % 16, by omega⟩
    have hbyte : UInt8.ofNat (16 * (b.toNat / 16) + b.toNat % 16) = b := by
      rw [Nat.div_add_mod, UInt8.ofNat_toNat]
    show fromHexChars (hexDigit (b.toNat / 16) :: hexDigit (b.toNat % 16) :: hexChars data) = _
    simp only [fromHexChars, hspace, hhigh, hlow, ih, Bool.false_eq_true, ↓reduceIte, bind,
      Option.bind, hbyte]
    rfl

theorem fromHex_hex (data : Bytes) : fromHex (.str (hex data)) = .ok data := by
  simp only [fromHex, hex, String.toList_ofList, fromHexChars_hexChars]

/-! ## The session -/

/-- What the tests' gateway takes from elsewhere: the text of a document, and its RSA key. -/
structure ServerPrimitives where
  /-- `json.dumps`, padded. -/
  dumps : JsonValue → Except PyException String
  modulus : Nat
  exponent : Nat
  /-- `SERVER_KEY.decrypt` under PKCS#1 v1.5. -/
  decryptRsa : Bytes → Except PyException Bytes

structure FakeGatewaySession where
  homes : JsonValue
  devices : JsonValue
  errors : Dict String JsonValue
  calls : List String := []
  closed : Bool := false
  receivedPassword : Option String := none

namespace FakeGatewaySession

def homeId : Int := 41441017

def new (homes : Option JsonValue := none) (devices : Option JsonValue := none)
    (errors : Option (Dict String JsonValue) := none) : FakeGatewaySession where
  homes := homes.getD (.array [.object [("gid", .int homeId)]])
  devices := devices.getD (.array [FakeGateway.bleDevice "-xGE=f(253=Zziu-",
    FakeGateway.wifiDevice])
  errors := errors.getD []

def close (self : FakeGatewaySession) : FakeGatewaySession := { self with closed := true }

variable (P : CloudPrimitives) (S : ServerPrimitives)

def verifySignature (data : Dict String String) : Except PyException Unit := do
  let postData ← item data "postData"
  let signed := data.set "postData" (postDataSignField P postData)
  let signature ← item data "sign"
  if signature = sign P (buildSignString (signed.erase "sign")) then .ok ()
  else raise (.other "AssertionError") ""

/-- The key of a form. -/
def keyOf (data : Dict String String) : Except PyException BodyKey := do
  let requestId ← item data "requestId"
  return if (data.get? "sid").isSome then bodyKey P requestId FakeGateway.accountSession.ecode
    else preLoginBodyKey P requestId

/-- The key and the body of a form that passes the checks. -/
def openForm (data : Dict String String) : Except PyException (BodyKey × JsonValue) := do
  let key ← keyOf P data
  verifySignature P data
  let postData ← item data "postData"
  let body ← decryptPostData P key postData
  let post ← P.loads (.bytes body)
  return (key, post)

def tokenResult : List (String × JsonValue) :=
  [("publicKey", .str (toString S.modulus)), ("exponent", .str (toString S.exponent)),
    ("token", .str "token-3456")]

/-- The password in the body of a login call. -/
def passwordIn (post : JsonValue) : Except PyException String := do
  let passwd ← post.item "passwd"
  let encrypted ← fromHex passwd
  let decrypted ← S.decryptRsa encrypted
  match decodeUtf8 decrypted with
  | some text => return text
  | none => raise .unicodeDecodeError "invalid start byte"

/-- `_result`. -/
def result (self : FakeGatewaySession) (api : String) (post : JsonValue)
    (data : Dict String String) : FakeGatewaySession × Except PyException JsonValue :=
  if api = loginTokenApi then (self, .ok (.object (tokenResult S)))
  else if api = loginApi then
    match passwordIn S post with
    | .error exception => (self, .error exception)
    | .ok password => ({ self with receivedPassword := some password },
        .ok (.object FakeGateway.accountObject))
  else if api = homeListApi then (self, .ok self.homes)
  else if api = deviceListApi then
    (self, do
      let groupId ← item data "gid"
      if groupId = toString homeId then .ok self.devices else raise (.other "AssertionError") "")
  else (self, raise (.other "AssertionError") s!"unexpected api {api}")

/-- The text of an answer with a result. -/
def answerText (key : BodyKey) (nonce : Nonce) (result : JsonValue) :
    Except PyException String := do
  let body ← S.dumps (.object [("result", result)])
  S.dumps (.object [("result", .str (encryptPostData P key nonce (encodeUtf8 body)))])

/-- The text of the answer to a form, encrypted with `nonce`. -/
def post (self : FakeGatewaySession) (nonce : Nonce) (data : Dict String String) :
    FakeGatewaySession × Except PyException String :=
  match item data "a" with
  | .error exception => (self, .error exception)
  | .ok api =>
    let self := { self with calls := self.calls ++ [api] }
    match openForm P data with
    | .error exception => (self, .error exception)
    | .ok (key, post) =>
      match (self.errors.get? api).filter JsonValue.truthy with
      | some error => (self, S.dumps error)
      | none =>
        let (self, result) := self.result S api post data
        (self, result.bind (answerText P S key nonce))

/-! ## What a client posts -/

variable {P S}

/-- `_verify_signature` is the check of the form. -/
theorem verifySignature_eq_ok {data : Dict String String}
    (h : TuyaBle.verifySignature P defaultCompositeKey data) : verifySignature P data = .ok () := by
  obtain ⟨postData, hpost, hsign⟩ := h
  unfold verifySignature
  rw [item_eq_ok.2 hpost, item_eq_ok.2 hsign]
  exact if_pos rfl

theorem keyOf_eq_ok {data : Dict String String} {key : BodyKey}
    (h : serverKey P defaultCompositeKey FakeGateway.accountSession.ecode data = some key) :
    keyOf P data = .ok key := by
  obtain ⟨requestId, hid, rfl⟩ := Option.map_eq_some_iff.1 h
  unfold keyOf
  rw [item_eq_ok.2 hid]
  rfl

/-- The form of a call opens to the key and the value of the call. -/
theorem openForm_eq_ok {data : Dict String String} {key : BodyKey} {value : JsonValue}
    (hsignature : TuyaBle.verifySignature P defaultCompositeKey data)
    (hkey : serverKey P defaultCompositeKey FakeGateway.accountSession.ecode data = some key)
    (hpost : serverPost P key data = .ok value) : openForm P data = .ok (key, value) := by
  unfold serverPost at hpost
  cases hdata : data.get? "postData" with
  | none =>
    rw [hdata] at hpost
    cases hpost
  | some postData =>
    rw [hdata] at hpost
    obtain ⟨body, hbody, hloads⟩ := Except.bind_eq_ok.1 hpost
    unfold openForm
    rw [keyOf_eq_ok hkey, verifySignature_eq_ok hsignature, item_eq_ok.2 hdata]
    simp only [bind, Except.bind, hbody, hloads]
    rfl

variable {self server : FakeGatewaySession} {gateway : Gateway} {call : GatewayCall}

/-- **A posted call reaches `_result`**, and what that returns is the result of the answer. -/
theorem post_callForm (exchange : Exchange) (nonce : Nonce)
    (hcomposite : gateway.compositeKey = defaultCompositeKey)
    (hpost : P.RoundTrips call.post)
    (haccount : ∀ account ∈ call.account, account.ecode = FakeGateway.accountSession.ecode)
    (hextra : ∀ extra ∈ call.extraParams,
      ∀ key ∈ ["a", "postData", "requestId", "sid"], key ∉ extra.keys)
    (herrors : self.errors = []) :
    ∃ form, callForm P gateway exchange call = .ok form ∧
      (∀ extra ∈ call.extraParams, extra.keys.Nodup →
        ∀ key ∈ extra.keys, key ≠ "sign" → form.get? key = extra.get? key) ∧
      ∀ result, ({ self with calls := self.calls ++ [call.api] } : FakeGatewaySession).result S
          call.api call.post form = (server, .ok result) →
        self.post P S nonce form =
          (server, answerText P S (callKey P gateway exchange call) nonce result) := by
  obtain ⟨post, hdump, hloads⟩ := dumpJson_roundTrips hpost
  have hnamed : ∀ key ∈ ["a", "postData", "requestId", "sid"],
      ∀ extra ∈ call.extraParams, key ∉ extra.keys :=
    fun key hk extra he => hextra extra he key hk
  refine ⟨_, callForm_of_dumpJson gateway exchange hdump, ?_, fun result hresult => ?_⟩
  · intro extra he hnodup key hk hne
    rw [get?_buildParams hne, Option.mem_def.1 he]
    unfold unsignedParams
    simp only
    obtain ⟨value, hvalue⟩ := Option.isSome_iff_exists.1 (Dict.mem_keys_iff.1 hk)
    rw [Dict.get?_update hnodup, hvalue, Option.some_or]
  · have hapi : item (buildParams P gateway exchange.time
        ⟨call.api, call.version, exchange.requestId,
          encryptPostData P (callKey P gateway exchange call) exchange.nonce post⟩
        call.account call.extraParams) "a" = .ok call.api := by
      rw [item_eq_ok, get?_buildParams (by decide), get?_unsignedParams (hnamed _ (by decide))]
      cases call.account <;> rfl
    have hopen : openForm P (buildParams P gateway exchange.time
        ⟨call.api, call.version, exchange.requestId,
          encryptPostData P (callKey P gateway exchange call) exchange.nonce post⟩
        call.account call.extraParams) = .ok (callKey P gateway exchange call, call.post) := by
      refine openForm_eq_ok ?_ ?_ ?_
      · rw [← hcomposite]
        exact verifySignature_buildParams (hnamed _ (by decide))
      · rw [← hcomposite]
        exact serverKey_buildParams rfl haccount (hnamed _ (by decide)) (hnamed _ (by decide))
      · unfold serverPost
        rw [get?_buildParams (by decide), get?_postData (hnamed _ (by decide))]
        simp only [decryptPostData_encryptPostData, bind, Except.bind]
        exact hloads
    have herror : (self.errors.get? call.api).filter JsonValue.truthy = none := by
      rw [herrors]
      rfl
    unfold FakeGatewaySession.post
    simp only [hapi, hopen, herror, hresult, Except.bind]

end FakeGatewaySession

/-! ## What the two sides share -/

/-- What one side writes the other reads: the documents of an account, and the password under
the key of the gateway. -/
structure Understood (P : CloudPrimitives) (S : ServerPrimitives) (client : TuyaBleCloudClient)
    (homes devices : List JsonValue) : Prop where
  empty : P.RoundTrips (.object [])
  token : P.RoundTrips (tokenCall client).post
  login : ∀ call, loginCall P client (.ofPairs (FakeGatewaySession.tokenResult S)) = .ok call →
    P.RoundTrips call.post
  results : ∀ result ∈ [.object (FakeGatewaySession.tokenResult S),
      .object FakeGateway.accountObject, .array homes, .array devices],
    ∃ text, S.dumps (.object [("result", result)]) = .ok text ∧
      P.loads (.bytes (encodeUtf8 text)) = .ok (.object [("result", result)])
  envelopes : ∀ key nonce body,
    ∃ text, S.dumps (.object [("result", .str (encryptPostData P key nonce body))]) = .ok text ∧
      P.loads (.text text) = .ok (.object [("result", .str (encryptPostData P key nonce body))])
  modulus : S.modulus < 10 ^ maxStrDigits
  exponent : S.exponent < 10 ^ maxStrDigits
  password : ∃ encrypted,
    P.encryptRsa S.exponent S.modulus (encodeUtf8 (md5Hex P client.password)) = .ok encrypted ∧
      S.decryptRsa encrypted = .ok (encodeUtf8 (md5Hex P client.password))

namespace Understood

variable {P : CloudPrimitives} {S : ServerPrimitives} {client : TuyaBleCloudClient}
  {homes devices : List JsonValue}

theorem answers (h : Understood P S client homes devices) {result : JsonValue}
    (hresult : result ∈ [.object (FakeGatewaySession.tokenResult S),
      .object FakeGateway.accountObject, .array homes, .array devices])
    (key : BodyKey) (nonce : Nonce) :
    ∃ raw, FakeGatewaySession.answerText P S key nonce result = .ok raw ∧
      Answers P key raw result := by
  obtain ⟨text, hdumps, hloads⟩ := h.results result hresult
  obtain ⟨raw, hraw, henvelope⟩ := h.envelopes key nonce (encodeUtf8 text)
  refine ⟨raw, ?_, nonce, encodeUtf8 text, hloads, henvelope⟩
  unfold FakeGatewaySession.answerText
  simp only [hdumps, bind, Except.bind, hraw]

/-- The login call that the token of the gateway leads to hands over the password. -/
theorem loginCall_token (h : Understood P S client homes devices) :
    ∃ call, loginCall P client (.ofPairs (FakeGatewaySession.tokenResult S)) = .ok call ∧
      call.api = loginApi ∧ call.account = none ∧ call.extraParams = none ∧
      FakeGatewaySession.passwordIn S call.post = .ok (md5Hex P client.password) := by
  obtain ⟨encrypted, hencrypt, hdecrypt⟩ := h.password
  have hkey : requireStr (.ofPairs (FakeGatewaySession.tokenResult S)) "publicKey" =
      .ok (toString S.modulus) :=
    requireStr_eq_ok.2 (optionalStr_eq_some.2 ⟨rfl, toString_ne_empty _⟩)
  have hexponent : requireStr (.ofPairs (FakeGatewaySession.tokenResult S)) "exponent" =
      .ok (toString S.exponent) :=
    requireStr_eq_ok.2 (optionalStr_eq_some.2 ⟨rfl, toString_ne_empty _⟩)
  have htoken : requireStr (.ofPairs (FakeGatewaySession.tokenResult S)) "token" =
      .ok "token-3456" := rfl
  have hpasswd : encryptPassword P (toString S.modulus) (toString S.exponent)
      (md5Hex P client.password) = .ok (hex encrypted) := by
    unfold encryptPassword
    rw [intOfText_toString h.exponent, intOfText_toString h.modulus]
    simp only [bind, Except.bind, hencrypt]
    rfl
  have hcall : loginCall P client (.ofPairs (FakeGatewaySession.tokenResult S)) = .ok {
      api := loginApi
      version := "3.0"
      post := .object [
        ("countryCode", .str client.countryCode),
        ("email", .str client.email),
        ("ifencrypt", .int 1),
        ("options", .str "\x7b\"group\": 1\x7d"),
        ("passwd", .str (hex encrypted)),
        ("token", .str "token-3456")] } := by
    unfold loginCall
    rw [hkey, hexponent]
    simp only [bind, Except.bind, hpasswd, htoken]
    rfl
  refine ⟨_, hcall, rfl, rfl, rfl, Except.bind_eq_ok.2 ⟨.str (hex encrypted), rfl, ?_⟩⟩
  simp only [fromHex_hex, bind, Except.bind, hdecrypt, decodeUtf8_encodeUtf8]
  rfl

end Understood

end TuyaBle
