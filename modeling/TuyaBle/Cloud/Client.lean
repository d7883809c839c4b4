import TuyaBle.Cloud.Agreement

/-!
# Logging in

`asyncLogin` makes two calls: the token call hands out the key the password is encrypted
under, the login call answers with the session. A login that fails leaves the client as
it was (`asyncLogin_error`). Its failures are the SDK's own but for one: a key that
`int` or RSA refuses escapes as a `ValueError`.
-/

namespace TuyaBle

def loginTokenApi : String := "smartlife.m.user.username.token.get"
def loginApi : String := "smartlife.m.user.email.password.login"
def rateLimited : String := "REQUEST_TOO_FREQUENTLY_PLEASE_TRY_AGAIN_LATER"

structure TuyaBleCloudClient where
  email : String
  password : String
  countryCode : String
  gateway : Gateway := {}
  account : Option AccountSession := none

variable (P : CloudPrimitives)

def tokenCall (client : TuyaBleCloudClient) : GatewayCall where
  api := loginTokenApi
  version := "2.0"
  post := .object [
    ("countryCode", .str client.countryCode),
    ("username", .str client.email),
    ("isUid", .bool false)]

/-- The login call that a token leads to. -/
def loginCall (client : TuyaBleCloudClient) (token : JsonObject) :
    Except PyException GatewayCall := do
  let publicKey ← requireStr token "publicKey"
  let exponent ← requireStr token "exponent"
  let passwd ← encryptPassword P publicKey exponent (md5Hex P client.password)
  let text ← requireStr token "token"
  return {
    api := loginApi
    version := "3.0"
    post := .object [
      ("countryCode", .str client.countryCode),
      ("email", .str client.email),
      ("ifencrypt", .int 1),
      ("options", .str "\x7b\"group\": 1\x7d"),
      ("passwd", .str passwd),
      ("token", .str text)] }

/-- The two calls, each at its exchange. -/
def loginAnswer (client : TuyaBleCloudClient) (tokenExchange loginExchange : Exchange) :
    Except GatewayError JsonObject := do
  let token ← asyncCallObject P client.gateway tokenExchange (tokenCall client)
  let call ← raising (loginCall P client token)
  asyncCallObject P client.gateway loginExchange call

/-- What the `except` clause makes of an error of the two calls. -/
def loginError : GatewayError → GatewayError
  | .rejected exception =>
    if exception.code = rateLimited then .rejected exception
    else .raised ⟨.tuyaBleAuthenticationError, s!"Failed to log in: {exception.text}", none⟩
  | .raised exception => .raised exception

def readSession (account : JsonObject) : Except PyException AccountSession := do
  let sid ← requireStr account "sid"
  let ecode ← requireStr account "ecode"
  let uid ← requireStr account "uid"
  return ⟨sid, ecode, uid⟩

/-- The outcome, and the client after it. -/
def asyncLogin (client : TuyaBleCloudClient) (tokenExchange loginExchange : Exchange) :
    Except GatewayError AccountSession × TuyaBleCloudClient :=
  match loginAnswer P client tokenExchange loginExchange with
  | .error exception => (.error (loginError exception), client)
  | .ok account =>
    match readSession account with
    | .error exception => (.error (.raised exception), client)
    | .ok session => (.ok session, { client with account := some session })

/-! ## What a login does -/

/-- The login returned the session of `account`, which the client holds now. -/
def Stores (client : TuyaBleCloudClient) (account : JsonObject)
    (outcome : Except GatewayError AccountSession × TuyaBleCloudClient) : Prop :=
  ∃ session : AccountSession, optionalStr account "sid" = some session.sid ∧
    optionalStr account "ecode" = some session.ecode ∧
    optionalStr account "uid" = some session.uid ∧
    outcome = (.ok session, { client with account := some session })

/-- The login raised an error of the SDK, and the client is as it was. -/
def FailsTyped (client : TuyaBleCloudClient)
    (outcome : Except GatewayError AccountSession × TuyaBleCloudClient) : Prop :=
  ∃ exception, exception.isTuyaBleError ∧ outcome = (.error exception, client)

/-- `int` reads the two numbers of the key, and RSA encrypts the message under it. -/
def AcceptsKey (modulusDecimal exponent message : String) : Prop :=
  ∃ e n encrypted, intOfText exponent = .ok e ∧ intOfText modulusDecimal = .ok n ∧
    P.encryptRsa e n (encodeUtf8 message) = .ok encrypted

/-- The key in a token is accepted, unless there is none. -/
def TokenAccepted (token : JsonObject) (message : String) : Prop :=
  ∀ publicKey exponent, optionalStr token "publicKey" = some publicKey →
    optionalStr token "exponent" = some exponent → AcceptsKey P publicKey exponent message

/-! ## The key -/

variable {P} {client : TuyaBleCloudClient} {token account : JsonObject}

theorem encryptPassword_eq_ok {modulusDecimal exponent message passwd : String}
    (h : encryptPassword P modulusDecimal exponent message = .ok passwd) :
    AcceptsKey P modulusDecimal exponent message := by
  obtain ⟨e, he, h⟩ := Except.bind_eq_ok.1 h
  obtain ⟨n, hn, h⟩ := Except.bind_eq_ok.1 h
  obtain ⟨encrypted, henc, -⟩ := Except.bind_eq_ok.1 h
  exact ⟨e, n, encrypted, he, hn, henc⟩

theorem encryptPassword_of_acceptsKey {modulusDecimal exponent message : String}
    (h : AcceptsKey P modulusDecimal exponent message) :
    ∃ passwd, encryptPassword P modulusDecimal exponent message = .ok passwd := by
  obtain ⟨e, n, encrypted, he, hn, henc⟩ := h
  refine ⟨hex encrypted, ?_⟩
  unfold encryptPassword
  rw [he, hn]
  simp only [bind, Except.bind, henc]
  rfl

/-- A token whose key is refused raises a `ValueError`. -/
theorem loginCall_refused (h : ¬ TokenAccepted P token (md5Hex P client.password)) :
    ∃ exception, loginCall P client token = .error exception ∧ exception.type = .valueError := by
  unfold TokenAccepted at h
  push Not at h
  obtain ⟨publicKey, exponent, hkey, hexp, hrefused⟩ := h
  cases henc : encryptPassword P publicKey exponent (md5Hex P client.password) with
  | ok passwd => exact absurd (encryptPassword_eq_ok henc) hrefused
  | error exception =>
    refine ⟨exception, ?_, encryptPassword_fails P publicKey exponent _ _ henc⟩
    unfold loginCall
    rw [requireStr_eq_ok.2 hkey, requireStr_eq_ok.2 hexp]
    simp only [bind, Except.bind, henc]

/-- A token whose key is accepted, or that has none, raises the SDK's own error at most. -/
theorem loginCall_accepted (h : TokenAccepted P token (md5Hex P client.password)) :
    Fails (loginCall P client token) .tuyaBleProtocolError := by
  refine (requireStr_fails token _).bind fun publicKey hkey => ?_
  refine (requireStr_fails token _).bind fun exponent hexp => ?_
  obtain ⟨passwd, henc⟩ := encryptPassword_of_acceptsKey
    (h publicKey exponent (requireStr_eq_ok.1 hkey) (requireStr_eq_ok.1 hexp))
  rw [henc]
  refine (fails_ok passwd _).bind fun _ _ => ?_
  exact (requireStr_fails token _).bind fun _ _ => fails_ok _ _

theorem readSession_fails (account : JsonObject) :
    Fails (readSession account) .tuyaBleProtocolError :=
  (requireStr_fails account _).bind fun _ _ =>
    (requireStr_fails account _).bind fun _ _ =>
      (requireStr_fails account _).bind fun _ _ => fails_ok _ _

theorem readSession_eq_ok {session : AccountSession} (h : readSession account = .ok session) :
    optionalStr account "sid" = some session.sid ∧
      optionalStr account "ecode" = some session.ecode ∧
      optionalStr account "uid" = some session.uid := by
  obtain ⟨sid, hsid, h⟩ := Except.bind_eq_ok.1 h
  obtain ⟨ecode, hecode, h⟩ := Except.bind_eq_ok.1 h
  obtain ⟨uid, huid, h⟩ := Except.bind_eq_ok.1 h
  obtain rfl := Except.ok.inj h
  exact ⟨requireStr_eq_ok.1 hsid, requireStr_eq_ok.1 hecode, requireStr_eq_ok.1 huid⟩

/-! ## The login -/

variable {tokenExchange loginExchange : Exchange}

/-- **A login that fails leaves the client as it was**, whatever made it fail. -/
theorem asyncLogin_error {exception : GatewayError}
    (h : (asyncLogin P client tokenExchange loginExchange).1 = .error exception) :
    (asyncLogin P client tokenExchange loginExchange).2 = client := by
  unfold asyncLogin at h ⊢
  cases ha : loginAnswer P client tokenExchange loginExchange with
  | error exception => rfl
  | ok account =>
    simp only [ha] at h ⊢
    cases hs : readSession account with
    | error exception => rfl
    | ok session =>
      rw [hs] at h
      cases h

theorem asyncLogin_raised {exception : PyException}
    (htoken : asyncCallObject P client.gateway tokenExchange (tokenCall client) = .ok token)
    (hcall : loginCall P client token = .error exception) :
    asyncLogin P client tokenExchange loginExchange = (.error (.raised exception), client) := by
  have hanswer : loginAnswer P client tokenExchange loginExchange =
      .error (.raised exception) := by
    unfold loginAnswer
    rw [htoken]
    simp only [bind, Except.bind, hcall, raising_error]
  unfold asyncLogin
  rw [hanswer]
  rfl

theorem asyncLogin_answered {call : GatewayCall}
    (htoken : asyncCallObject P client.gateway tokenExchange (tokenCall client) = .ok token)
    (hcall : loginCall P client token = .ok call)
    (hlogin : asyncCallObject P client.gateway loginExchange call = .ok account) :
    Stores client account (asyncLogin P client tokenExchange loginExchange) ∨
      FailsTyped client (asyncLogin P client tokenExchange loginExchange) := by
  have hanswer : loginAnswer P client tokenExchange loginExchange = .ok account := by
    unfold loginAnswer
    rw [htoken]
    simp only [bind, Except.bind, hcall, raising_ok, hlogin]
  unfold asyncLogin
  rw [hanswer]
  simp only
  cases hs : readSession account with
  | error exception =>
    refine .inr ⟨.raised exception, ?_, rfl⟩
    rw [GatewayError.isTuyaBleError, PyException.isTuyaBleError, readSession_fails account _ hs]
    rfl
  | ok session =>
    obtain ⟨hsid, hecode, huid⟩ := readSession_eq_ok hs
    exact .inl ⟨session, hsid, hecode, huid, rfl⟩

namespace FakeGateway

def recordedClient : TuyaBleCloudClient where
  email := "someone@example.com"
  password := password
  countryCode := "55"

/-- A call made before there is a session returns the recorded result. -/
theorem asyncCallObject_recorded (body : Recording) (members : List (String × JsonValue))
    {call : GatewayCall} {requestId : String} {nonce : Nonce} (h : body ∈ recordings)
    (haccount : call.account = none)
    (hkey : preLoginBodyKey primitives requestId = body.val.key)
    (hbody : (body.val.plaintext, .object [("result", .object members)]) ∈ documents)
    (henvelope : envelope body ∈ documents) :
    asyncCallObject primitives {} (exchangeOf requestId nonce body) call =
      .ok (.ofPairs members) := by
  have hdump : dumpJson primitives.toJsonText call.post =
      .ok (encodeUtf8 (dumpText call.post)) := rfl
  have hcall : callKey primitives {} (exchangeOf requestId nonce body) call = body.val.key := by
    rw [callKey, haccount]
    exact hkey
  have hanswers := answers_recorded body h hbody henvelope
  rw [← hcall] at hanswers
  have hresult : asyncCall primitives {} (exchangeOf requestId nonce body) call =
      .ok (.object members) :=
    asyncCall_answer (callForm_of_dumpJson _ _ hdump) rfl hanswers (by rintro ⟨⟩)
  rw [asyncCallObject, hresult]
  rfl

theorem tokenAccepted_recorded :
    TokenAccepted primitives (.ofPairs loginToken)
      (md5Hex primitives recordedClient.password) := by
  intro modulusText exponentText hmodulus hexponent
  obtain rfl : publicKey = modulusText :=
    JsonValue.str.inj (Option.some.inj (optionalStr_eq_some.1 hmodulus).1)
  obtain rfl : exponent = exponentText :=
    JsonValue.str.inj (Option.some.inj (optionalStr_eq_some.1 hexponent).1)
  have hpassword : encodeUtf8 (md5Hex primitives recordedClient.password) =
      encodeUtf8 "3cb4e732631f47e6eb961f34554b7cde" := by decide +kernel
  exact ⟨65537, modulus, encryptedPassword, by decide +kernel, intOfText_publicKey,
    encryptRsa_modulus hpassword⟩

theorem account_of_loginCall {P : CloudPrimitives} {token : JsonObject} {call : GatewayCall}
    (h : loginCall P recordedClient token = .ok call) : call.account = none := by
  obtain ⟨_, -, h⟩ := Except.bind_eq_ok.1 h
  obtain ⟨_, -, h⟩ := Except.bind_eq_ok.1 h
  obtain ⟨_, -, h⟩ := Except.bind_eq_ok.1 h
  obtain ⟨_, -, h⟩ := Except.bind_eq_ok.1 h
  obtain rfl := Except.ok.inj h
  rfl

theorem asyncCallObject_token :
    asyncCallObject primitives {} recordedTokenExchange (tokenCall recordedClient) =
      .ok (.ofPairs loginToken) :=
  asyncCallObject_recorded tokenAnswer loginToken (by simp [recordings]) rfl (by decide +kernel)
    (List.mem_of_getElem? (i := 3) rfl) (List.mem_of_getElem? (i := 9) rfl)

theorem asyncCallObject_malformedToken :
    asyncCallObject primitives {} recordedMalformedExchange (tokenCall recordedClient) =
      .ok (.ofPairs malformedToken) :=
  asyncCallObject_recorded malformedTokenAnswer malformedToken (by simp [recordings]) rfl
    (by decide +kernel) (List.mem_of_getElem? (i := 4) rfl) (List.mem_of_getElem? (i := 10) rfl)

theorem asyncCallObject_login {call : GatewayCall} (h : call.account = none) :
    asyncCallObject primitives {} recordedLoginExchange call = .ok (.ofPairs accountObject) :=
  asyncCallObject_recorded loginAnswer accountObject (by simp [recordings]) h (by decide +kernel)
    (List.mem_of_getElem? (i := 5) rfl) (List.mem_of_getElem? (i := 11) rfl)

end FakeGateway

/-- **A login stores the session of its answer or fails as the SDK's errors do**, exactly when
the key in the token is accepted or missing. -/
theorem asyncLogin_iff (P : CloudPrimitives) (client : TuyaBleCloudClient)
    (tokenExchange loginExchange : Exchange) (token account : JsonObject)
    (htoken : asyncCallObject P client.gateway tokenExchange (tokenCall client) = .ok token)
    (hlogin : ∀ call, loginCall P client token = .ok call →
      asyncCallObject P client.gateway loginExchange call = .ok account) :
    Stores client account (asyncLogin P client tokenExchange loginExchange) ∨
        FailsTyped client (asyncLogin P client tokenExchange loginExchange) ↔
      TokenAccepted P token (md5Hex P client.password) := by
  constructor
  · intro h
    by_contra hrefused
    obtain ⟨exception, hcall, htype⟩ := loginCall_refused hrefused
    rw [asyncLogin_raised htoken hcall] at h
    rcases h with ⟨session, -, -, -, he⟩ | ⟨exception', htyped, he⟩
    · cases he
    · cases he
      rw [GatewayError.isTuyaBleError, PyException.isTuyaBleError, htype] at htyped
      cases htyped
  · intro haccepted
    cases hcall : loginCall P client token with
    | ok call => exact asyncLogin_answered htoken hcall (hlogin call hcall)
    | error exception =>
      rw [asyncLogin_raised htoken hcall]
      refine .inr ⟨.raised exception, ?_, rfl⟩
      rw [GatewayError.isTuyaBleError, PyException.isTuyaBleError,
        loginCall_accepted haccepted _ hcall]
      rfl

open FakeGateway in
/-- The login the tests' fake gateway answers. -/
theorem asyncLogin_iff_recorded :
    Stores recordedClient (.ofPairs accountObject)
        (asyncLogin primitives recordedClient recordedTokenExchange recordedLoginExchange) ∨
      FailsTyped recordedClient
        (asyncLogin primitives recordedClient recordedTokenExchange recordedLoginExchange) :=
  (asyncLogin_iff primitives recordedClient recordedTokenExchange recordedLoginExchange
    (.ofPairs loginToken) (.ofPairs accountObject) asyncCallObject_token
    fun _ h => asyncCallObject_login (account_of_loginCall h)).2 tokenAccepted_recorded

open FakeGateway in
/-- A modulus that is not a number escapes as the `ValueError` of `int`. -/
theorem malformed_key_escapes :
    asyncCallObject primitives {} recordedMalformedExchange (tokenCall recordedClient) =
        .ok (.ofPairs malformedToken) ∧
      asyncLogin primitives recordedClient recordedMalformedExchange recordedLoginExchange =
        (.error (.raised ⟨.valueError, "invalid literal for int() with base 10: ", none⟩),
          recordedClient) ∧
      ∀ account,
        ¬ (Stores recordedClient account
            (asyncLogin primitives recordedClient recordedMalformedExchange recordedLoginExchange) ∨
          FailsTyped recordedClient
            (asyncLogin primitives recordedClient recordedMalformedExchange
              recordedLoginExchange)) := by
  have hexponent : intOfText exponent = .ok 65537 := by decide +kernel
  have hmodulus : intOfText "abc" =
      .error ⟨.valueError, "invalid literal for int() with base 10: ", none⟩ := by decide +kernel
  have hpassword : encryptPassword primitives "abc" exponent
      (md5Hex primitives recordedClient.password) =
        .error ⟨.valueError, "invalid literal for int() with base 10: ", none⟩ := by
    unfold encryptPassword
    rw [hexponent, hmodulus]
    rfl
  have hcall : loginCall primitives recordedClient (.ofPairs malformedToken) =
      .error ⟨.valueError, "invalid literal for int() with base 10: ", none⟩ := by
    have hkey : requireStr (.ofPairs malformedToken) "publicKey" = .ok "abc" := rfl
    have hexp : requireStr (.ofPairs malformedToken) "exponent" = .ok exponent := rfl
    unfold loginCall
    rw [hkey, hexp]
    simp only [bind, Except.bind, hpassword]
  have hlogin : asyncLogin primitives recordedClient recordedMalformedExchange
      recordedLoginExchange = _ := asyncLogin_raised asyncCallObject_malformedToken hcall
  refine ⟨asyncCallObject_malformedToken, hlogin, ?_⟩
  rw [hlogin]
  rintro account (⟨session, -, -, -, he⟩ | ⟨exception, htyped, he⟩)
  · cases he
  · cases he
    cases htyped

end TuyaBle
