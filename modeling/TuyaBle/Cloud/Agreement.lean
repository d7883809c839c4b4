import TuyaBle.FakeGateway

/-!
# Agreement of client and gateway

The server reads a form without knowing how it was built. Every form of `asyncCall`
passes its signature check and opens under the key it derives, whatever the extra
parameters are and in whatever order; an answer under that key comes back as the result
of the call.
-/

namespace TuyaBle

/-! ## The form -/

variable {P : CloudPrimitives} {gateway : Gateway} {time : Int} {request : GatewayRequest}
  {account : Option AccountSession} {extraParams : Option (Dict String String)}

theorem nodup_keys_unsignedParams :
    (unsignedParams gateway time request account extraParams).keys.Nodup := by
  have hbase : (requestParams gateway time request).keys.Nodup := by
    unfold requestParams
    simp only [Dict.keys_cons, Dict.keys_nil]
    decide
  have haccount : ∀ sid, ((requestParams gateway time request).set "sid" sid).keys.Nodup :=
    fun sid => Dict.nodup_keys_set hbase "sid" sid
  unfold unsignedParams
  cases account <;> cases extraParams
  · exact hbase
  · exact Dict.nodup_keys_update hbase _
  · exact haccount _
  · exact Dict.nodup_keys_update (haccount _) _

/-- A parameter that the extra ones do not name. -/
theorem get?_unsignedParams {key : String} (h : ∀ extra ∈ extraParams, key ∉ extra.keys) :
    (unsignedParams gateway time request account extraParams).get? key =
      (unsignedParams gateway time request account none).get? key := by
  cases extraParams with
  | none => rfl
  | some extra => exact Dict.get?_update_of_not_mem (h extra rfl) _

theorem get?_postData (h : ∀ extra ∈ extraParams, "postData" ∉ extra.keys) :
    (unsignedParams gateway time request account extraParams).get? "postData" =
      some request.encryptedBody := by
  rw [get?_unsignedParams h]
  cases account <;> rfl

theorem get?_requestId (h : ∀ extra ∈ extraParams, "requestId" ∉ extra.keys) :
    (unsignedParams gateway time request account extraParams).get? "requestId" =
      some request.requestId := by
  rw [get?_unsignedParams h]
  cases account <;> rfl

theorem get?_sid (h : ∀ extra ∈ extraParams, "sid" ∉ extra.keys) :
    (unsignedParams gateway time request account extraParams).get? "sid" =
      account.map AccountSession.sid := by
  rw [get?_unsignedParams h]
  cases account <;> rfl

theorem get?_buildParams {key : String} (h : key ≠ "sign") :
    (buildParams P gateway time request account extraParams).get? key =
      (unsignedParams gateway time request account extraParams).get? key := by
  rw [buildParams, Dict.get?_set, if_neg h.symm]

/-- **What the server signs again is what the client signed.** -/
theorem buildSignString_server (field signature : String) {params : Dict String String}
    (h : params.keys.Nodup) :
    buildSignString (((params.set "sign" signature).set "postData" field).erase "sign") =
      buildSignString (params.set "postData" field) := by
  have hsigned : ((params.set "sign" signature).set "postData" field).keys.Nodup :=
    Dict.nodup_keys_set (Dict.nodup_keys_set h "sign" signature) "postData" field
  apply buildSignString_congr (Dict.nodup_keys_erase hsigned "sign")
    (Dict.nodup_keys_set h "postData" field)
  intro key hk
  have hsign : "sign" ≠ key := by
    rintro rfl
    exact absurd hk (by decide)
  apply signField_congr
  rw [Dict.get?_erase, if_neg hsign, Dict.get?_set, Dict.get?_set, Dict.get?_set, if_neg hsign]

theorem verifySignature_buildParams (h : ∀ extra ∈ extraParams, "postData" ∉ extra.keys) :
    verifySignature P gateway.compositeKey
      (buildParams P gateway time request account extraParams) := by
  refine ⟨request.encryptedBody, ?_, ?_⟩
  · rw [get?_buildParams (by decide), get?_postData h]
  · simp only [buildParams]
    rw [buildSignString_server _ _ nodup_keys_unsignedParams, Dict.get?_set, if_pos rfl]

/-! ## The call -/

variable {exchange : Exchange} {call : GatewayCall}

theorem serverKey_buildParams {ecode : String} (hrequest : request.requestId = exchange.requestId)
    (haccount : ∀ account ∈ call.account, account.ecode = ecode)
    (hid : ∀ extra ∈ extraParams, "requestId" ∉ extra.keys)
    (hsid : ∀ extra ∈ extraParams, "sid" ∉ extra.keys) :
    serverKey P gateway.compositeKey ecode
      (buildParams P gateway time request call.account extraParams) =
        some (callKey P gateway exchange call) := by
  unfold serverKey callKey
  rw [get?_buildParams (by decide), get?_buildParams (by decide), get?_requestId hid, get?_sid hsid,
    hrequest]
  cases h : call.account with
  | none => rfl
  | some account =>
    rw [← haccount account h]
    rfl

/-- An answer under the key of the call opens to its result. -/
theorem unwrap_answer {api raw : String} {key : BodyKey} {result : JsonValue}
    (h : Answers P key raw result) (hresult : result ≠ .null) :
    unwrap P api key raw = .ok result := by
  obtain ⟨nonce, body, hbody, hraw⟩ := h
  have henvelope := parseJsonObject_object hraw
  have hinner : parseBody P key (encryptPostData P key nonce body) =
      .ok (.ofPairs [("result", result)]) := by
    unfold parseBody
    rw [decryptPostData_encryptPostData]
    exact parseJsonObject_object hbody
  have hopen : openEnvelope P key raw = .ok ([("result", result)], some result) := by
    unfold openEnvelope
    rw [henvelope]
    simp only [bind, Except.bind, Dict.ofPairs, Dict.update_cons, Dict.update_nil, Dict.set_nil,
      Dict.get?, ↓reduceIte, ne_eq, encryptPostData_ne_empty, not_false_eq_true] at hinner ⊢
    rw [hinner]
    rfl
  unfold unwrap
  rw [hopen]
  cases result with
  | null => exact absurd rfl hresult
  | _ => rfl

/-- A call whose form gets an answer under its key returns the result of the answer. -/
theorem asyncCall_answer {form : Dict String String} {raw : String} {result : JsonValue}
    (hform : callForm P gateway exchange call = .ok form)
    (hraw : exchange.post (httpRequest gateway form) = .ok raw)
    (h : Answers P (callKey P gateway exchange call) raw result) (hresult : result ≠ .null) :
    asyncCall P gateway exchange call = .ok result := by
  have hposted : asyncPost gateway exchange.post call.api form = .ok raw := by
    unfold asyncPost
    rw [hraw]
  unfold asyncCall
  rw [hform]
  simp only [raising_ok, bind, Except.bind, hposted]
  exact unwrap_answer h hresult

theorem callForm_of_dumpJson (gateway : Gateway) (exchange : Exchange) {post : Bytes}
    (h : dumpJson P.toJsonText call.post = .ok post) :
    callForm P gateway exchange call = .ok (buildParams P gateway exchange.time
      ⟨call.api, call.version, exchange.requestId,
        encryptPostData P (callKey P gateway exchange call) exchange.nonce post⟩
      call.account call.extraParams) := by
  unfold callForm
  rw [h]
  rfl

/-- **Client and gateway agree.** The form of a call passes the signature check of a server
that sees the form alone, opens to the posted value under the key that server derives, and an
answer under that key is what the call returns. -/
theorem asyncCall_agreement (gateway : Gateway) (exchange : Exchange) (call : GatewayCall)
    (ecode : String) (hpost : P.RoundTrips call.post)
    (haccount : ∀ account ∈ call.account, account.ecode = ecode)
    (hextra : ∀ extra ∈ call.extraParams,
      ∀ key ∈ ["postData", "requestId", "sid"], key ∉ extra.keys) :
    ∃ form, callForm P gateway exchange call = .ok form ∧
      verifySignature P gateway.compositeKey form ∧
      serverKey P gateway.compositeKey ecode form = some (callKey P gateway exchange call) ∧
      serverPost P (callKey P gateway exchange call) form = .ok call.post ∧
      ∀ raw result, exchange.post (httpRequest gateway form) = .ok raw →
        Answers P (callKey P gateway exchange call) raw result → result ≠ .null →
        asyncCall P gateway exchange call = .ok result := by
  obtain ⟨post, hdump, hloads⟩ := dumpJson_roundTrips hpost
  have hform := callForm_of_dumpJson gateway exchange hdump
  have hnamed : ∀ key ∈ ["postData", "requestId", "sid"],
      ∀ extra ∈ call.extraParams, key ∉ extra.keys :=
    fun key hk extra he => hextra extra he key hk
  refine ⟨_, hform, verifySignature_buildParams (hnamed _ (by decide)),
    serverKey_buildParams rfl haccount (hnamed _ (by decide)) (hnamed _ (by decide)), ?_, ?_⟩
  · unfold serverPost
    rw [get?_buildParams (by decide), get?_postData (hnamed _ (by decide))]
    simp only [decryptPostData_encryptPostData, bind, Except.bind]
    exact hloads
  · intro raw result hraw hanswers hresult
    exact asyncCall_answer hform hraw hanswers hresult

open FakeGateway in
/-- The device list of a home, as the tests' fake gateway answers it. -/
theorem asyncCall_agreement_deviceList :
    ∃ form, callForm primitives {} deviceListExchange deviceListCall = .ok form ∧
      verifySignature primitives defaultCompositeKey form ∧
      serverKey primitives defaultCompositeKey accountSession.ecode form =
        some (callKey primitives {} deviceListExchange deviceListCall) ∧
      serverPost primitives (callKey primitives {} deviceListExchange deviceListCall) form =
        .ok (.object []) ∧
      asyncCall primitives {} deviceListExchange deviceListCall = .ok deviceList := by
  have hpost : primitives.RoundTrips (.object []) :=
    ⟨_, rfl, loads_bytes (List.mem_cons_self ..)⟩
  have hkey : callKey primitives {} deviceListExchange deviceListCall = deviceListBodyKey := by
    decide +kernel
  have hanswers : Answers primitives (callKey primitives {} deviceListExchange deviceListCall)
      (envelopeText deviceListAnswer) deviceList := by
    rw [hkey]
    exact answers_recorded deviceListAnswer (by simp [recordings])
      (by simp [documents]) (by simp [documents])
  obtain ⟨form, hform, hsignature, hserver, hbody, hcall⟩ :=
    asyncCall_agreement {} deviceListExchange deviceListCall accountSession.ecode hpost
      (by rintro _ ⟨⟩; rfl) (by rintro _ ⟨⟩; decide)
  refine ⟨form, hform, hsignature, hserver, hbody, hcall _ _ rfl hanswers ?_⟩
  rintro ⟨⟩

end TuyaBle
