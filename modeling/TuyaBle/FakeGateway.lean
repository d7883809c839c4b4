import TuyaBle.FakeGateway.Recording

/-!
# The fake gateway

The gateway the test suite fakes, in place of the real one. It recomputes the signature
over the form it got and takes the body key from the form's `requestId` and `sid`.
-/

namespace TuyaBle

variable (P : CloudPrimitives)

/-! ## The server -/

/-- The signature of a form fits its other parameters. -/
def verifySignature (compositeKey : String) (data : Dict String String) : Prop :=
  ∃ postData, data.get? "postData" = some postData ∧
    data.get? "sign" = some (sign P (buildSignString
      ((data.set "postData" (postDataSignField P postData)).erase "sign")) compositeKey)

/-- The key of a form, `none` when it has no request id. -/
def serverKey (compositeKey ecode : String) (data : Dict String String) : Option BodyKey :=
  (data.get? "requestId").map fun requestId =>
    if (data.get? "sid").isSome then bodyKey P requestId ecode compositeKey
    else preLoginBodyKey P requestId compositeKey

/-- The body of a form under a key. -/
def serverPost (key : BodyKey) (data : Dict String String) : Except PyException JsonValue :=
  match data.get? "postData" with
  | some postData => do
    let body ← decryptPostData P key postData
    P.loads (.bytes body)
  | none => raise (.other "KeyError") "'postData'"

/-- An answer with `result` in a body encrypted under `key`. -/
def Answers (key : BodyKey) (raw : String) (result : JsonValue) : Prop :=
  ∃ nonce body, P.loads (.bytes body) = .ok (.object [("result", result)]) ∧
    P.loads (.text raw) = .ok (.object [("result", .str (encryptPostData P key nonce body))])

namespace FakeGateway

theorem answers_recorded (body : Recording) {result : JsonValue} (h : body ∈ recordings)
    (hbody : (body.val.plaintext, .object [("result", result)]) ∈ documents)
    (henvelope : envelope body ∈ documents) :
    Answers primitives body.val.key (envelopeText body) result := by
  refine ⟨body.val.nonce, encodeUtf8 body.val.plaintext, loads_bytes hbody, ?_⟩
  rw [encryptPostData_recorded h]
  exact loads_text henvelope

end FakeGateway

end TuyaBle
