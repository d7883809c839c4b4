import TuyaBle.Cloud.Body

/-!
# The gateway

A call is signed, its body is encrypted, and its answer is an envelope whose result is
encrypted the same way. What the outside gives one call, the fresh request id and nonce,
the time and the HTTP exchange, is an `Exchange`; `asyncCall` is a function of it.
-/

namespace TuyaBle

def clientId : String := "ekmnwp9f5pnh3trdtpgy"
def chKey : String := "ec9709a4"
def appVersion : String := "7.10.3"
def sdkVersion : String := "5.2.0"
def language : String := "en_US"
def ttid : String := s!"sdk_international@{clientId}"
def defaultDeviceFingerprint : String := String.ofList (List.replicate 44 'a')
def defaultRegion : String := "us"

def gatewayUrl (region : String := defaultRegion) : String :=
  s!"https://a1-{region}.lifeaiot.com/api.json"

/-! ## Errors -/

structure TuyaBleCloudError where
  api : String
  code : String
  message : String
  deriving DecidableEq, Repr

/-- `str(exception)`. -/
def TuyaBleCloudError.text (exception : TuyaBleCloudError) : String :=
  s!"Failed to call {exception.api}: {exception.message} ({exception.code})"

/-- What a call raises: the gateway's rejection with its code, or another exception. -/
inductive GatewayError where
  | rejected (exception : TuyaBleCloudError)
  | raised (exception : PyException)
  deriving DecidableEq, Repr

def GatewayError.isTuyaBleError : GatewayError → Bool
  | .rejected _ => true
  | .raised exception => exception.isTuyaBleError

def raising {α : Type} : Except PyException α → Except GatewayError α
  | .ok a => .ok a
  | .error exception => .error (.raised exception)

@[simp] theorem raising_ok {α : Type} (a : α) : raising (.ok a) = .ok a := rfl

@[simp] theorem raising_error {α : Type} (exception : PyException) :
    raising (.error exception : Except PyException α) = .error (.raised exception) := rfl

/-! ## Requests -/

structure AccountSession where
  sid : String
  ecode : String
  uid : String
  deriving DecidableEq, Repr

structure GatewayRequest where
  api : String
  version : String
  requestId : String
  encryptedBody : String

structure Gateway where
  url : String := gatewayUrl
  deviceFingerprint : String := defaultDeviceFingerprint
  compositeKey : String := defaultCompositeKey

structure HttpRequest where
  url : String
  data : Dict String String
  headers : Dict String String

/-- The arguments of `async_call`. -/
structure GatewayCall where
  api : String
  version : String
  post : JsonValue
  account : Option AccountSession := none
  extraParams : Option (Dict String String) := none

/-- What the outside gives one call. -/
structure Exchange where
  requestId : String
  nonce : Nonce
  time : Int
  post : HttpRequest → Except PyException String

variable (P : CloudPrimitives)

def requestParams (gateway : Gateway) (time : Int) (request : GatewayRequest) :
    Dict String String :=
  [("a", request.api),
   ("v", request.version),
   ("clientId", clientId),
   ("time", toString time),
   ("requestId", request.requestId),
   ("lang", language),
   ("deviceId", gateway.deviceFingerprint),
   ("appVersion", appVersion),
   ("ttid", ttid),
   ("os", "Android"),
   ("sdkVersion", sdkVersion),
   ("chKey", chKey),
   ("et", "3"),
   ("postData", request.encryptedBody)]

/-- The form parameters before they are signed. -/
def unsignedParams (gateway : Gateway) (time : Int) (request : GatewayRequest)
    (account : Option AccountSession) (extraParams : Option (Dict String String)) :
    Dict String String :=
  let params := requestParams gateway time request
  let params :=
    match account with
    | some account => params.set "sid" account.sid
    | none => params
  match extraParams with
  | some extra => params.update extra
  | none => params

def buildParams (gateway : Gateway) (time : Int) (request : GatewayRequest)
    (account : Option AccountSession) (extraParams : Option (Dict String String)) :
    Dict String String :=
  let params := unsignedParams gateway time request account extraParams
  let signed := params.set "postData" (postDataSignField P request.encryptedBody)
  params.set "sign" (sign P (buildSignString signed) gateway.compositeKey)

/-! ## Calls -/

def httpRequest (gateway : Gateway) (params : Dict String String) : HttpRequest where
  url := gateway.url
  data := params
  headers := [("Content-Type", "application/x-www-form-urlencoded"),
    ("User-Agent", s!"TY/{appVersion}")]

def asyncPost (gateway : Gateway) (post : HttpRequest → Except PyException String) (api : String)
    (params : Dict String String) : Except PyException String :=
  match post (httpRequest gateway params) with
  | .ok raw => .ok raw
  | .error exception =>
    match exception.type with
    | .timeoutError => raise .tuyaBleConnectionError s!"Failed to call {api}: timed out"
    | .clientError =>
      raise .tuyaBleConnectionError s!"Failed to call {api}: {exception.message}"
    | _ => .error exception

/-- The object in an encrypted body. -/
def parseBody (key : BodyKey) (encrypted : String) : Except PyException JsonObject := do
  let body ← decryptPostData P key encrypted
  parseJsonObject P.toJsonText (.bytes body)

/-- The envelope of an answer, merged with the body it carries, and the result. -/
def openEnvelope (key : BodyKey) (raw : String) :
    Except PyException (JsonObject × Option JsonValue) := do
  let envelope ← parseJsonObject P.toJsonText (.text raw)
  match envelope.get? "result" with
  | some (.str result) =>
    if result ≠ "" then do
      let inner ← parseBody P key result
      return (envelope.update inner, inner.get? "result")
    else return (envelope, some (.str result))
  | result => return (envelope, result)

/-- `value is False`. -/
def isFalse : Option JsonValue → Bool
  | some (.bool false) => true
  | _ => false

/-- What `_unwrap` makes of the merged envelope and the result. -/
def checkEnvelope (api : String) (envelope : JsonObject) (result : Option JsonValue) :
    Except GatewayError JsonValue :=
  let errorCode := optionalStr envelope "errorCode"
  if errorCode.isSome ∨ isFalse (envelope.get? "success") then
    let message := (optionalStr envelope "errorMsg").getD "the request was rejected"
    .error (.rejected ⟨api, errorCode.getD "", message⟩)
  else
    match result with
    | none | some .null =>
      raising (raise .tuyaBleProtocolError s!"Failed to call {api}: the result is empty")
    | some result => .ok result

def unwrap (api : String) (key : BodyKey) (raw : String) : Except GatewayError JsonValue := do
  let (envelope, result) ← raising (openEnvelope P key raw)
  checkEnvelope api envelope result

/-- The body key of a call. -/
def callKey (gateway : Gateway) (exchange : Exchange) (call : GatewayCall) : BodyKey :=
  match call.account with
  | some account => bodyKey P exchange.requestId account.ecode gateway.compositeKey
  | none => preLoginBodyKey P exchange.requestId gateway.compositeKey

/-- The form of a call. -/
def callForm (gateway : Gateway) (exchange : Exchange) (call : GatewayCall) :
    Except PyException (Dict String String) := do
  let post ← dumpJson P.toJsonText call.post
  let encryptedBody := encryptPostData P (callKey P gateway exchange call) exchange.nonce post
  let request := ⟨call.api, call.version, exchange.requestId, encryptedBody⟩
  return buildParams P gateway exchange.time request call.account call.extraParams

def asyncCall (gateway : Gateway) (exchange : Exchange) (call : GatewayCall) :
    Except GatewayError JsonValue := do
  let params ← raising (callForm P gateway exchange call)
  let raw ← raising (asyncPost gateway exchange.post call.api params)
  unwrap P call.api (callKey P gateway exchange call) raw

/-- The object that a call must return. -/
def objectResult (api : String) : JsonValue → Except PyException JsonObject
  | .object members => .ok (.ofPairs members)
  | _ => raise .tuyaBleProtocolError s!"Failed to call {api}: the result is not an object"

def asyncCallObject (gateway : Gateway) (exchange : Exchange) (call : GatewayCall) :
    Except GatewayError JsonObject := do
  let result ← asyncCall P gateway exchange call
  raising (objectResult call.api result)

/-- The objects among the items of a list. -/
def objects (items : List JsonValue) : List JsonObject :=
  items.filterMap fun
    | .object members => some (.ofPairs members)
    | _ => none

/-- The objects of the list that a call must return. -/
def objectListResult (api : String) : JsonValue → Except PyException (List JsonObject)
  | .array items => .ok (objects items)
  | _ => raise .tuyaBleProtocolError s!"Failed to call {api}: the result is not a list"

def asyncCallObjectList (gateway : Gateway) (exchange : Exchange) (call : GatewayCall) :
    Except GatewayError (List JsonObject) := do
  let result ← asyncCall P gateway exchange call
  raising (objectListResult call.api result)

variable {P} in
theorem asyncCallObjectList_array {gateway : Gateway} {exchange : Exchange} {call : GatewayCall}
    {items : List JsonValue} (h : asyncCall P gateway exchange call = .ok (.array items)) :
    asyncCallObjectList P gateway exchange call = .ok (objects items) := by
  rw [asyncCallObjectList, h]
  rfl

end TuyaBle
