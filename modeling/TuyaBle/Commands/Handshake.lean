import TuyaBle.Crypto

/-!
# The commands of the handshake

The device-information record the device answers first, and the pairing request with
the device's verdict on it. A `DeviceInfo` carries the lengths of its two secrets, so
the key made of `authKey` is one AES takes.
-/

namespace TuyaBle

structure TuyaBleCredentials where
  uuid : String
  deviceId : String
  localKey : String
  deriving DecidableEq, Repr

structure DeviceInfo where
  deviceVersion : String
  protocolVersion : Nat
  protocolVersionName : String
  hardwareVersion : String
  flags : Nat
  isBound : Bool
  srand : Bytes
  authKey : Bytes
  length_srand : srand.length = 6
  length_authKey : authKey.length = 32
  deriving DecidableEq

def DeviceInfo.authenticationKey (info : DeviceInfo) : AesKey :=
  ⟨info.authKey, .inr (.inr info.length_authKey)⟩

def parseDeviceInfo (data : Bytes) : Except PyException DeviceInfo :=
  if h : data.length < deviceInfoResponseLength then
    let arrived := data.length
    raise .tuyaBleProtocolError
      s!"Failed to read the device information: {arrived} bytes arrived, {deviceInfoResponseLength} expected"
  else do
    let b0 ← byteAt data 0
    let b1 ← byteAt data 1
    let b2 ← byteAt data 2
    let b3 ← byteAt data 3
    let b4 ← byteAt data 4
    let b5 ← byteAt data 5
    let b12 ← byteAt data 12
    let b13 ← byteAt data 13
    return {
      deviceVersion := s!"{b0}.{b1}"
      protocolVersion := b2
      protocolVersionName := s!"{b2}.{b3}"
      hardwareVersion := s!"{b12}.{b13}"
      flags := b4
      isBound := b5 ≠ 0
      srand := slice data 6 12
      authKey := slice data 14 deviceInfoResponseLength
      length_srand := by simp [deviceInfoResponseLength] at h ⊢; omega
      length_authKey := by simp [deviceInfoResponseLength] at h ⊢; omega }

/-! ## Pairing -/

def pairingAccepted : Nat := 0
def pairingAlreadyPaired : Nat := 2

def buildPairingRequest (credentials : TuyaBleCredentials) : Except PyException Bytes :=
  let request := encodeUtf8 credentials.uuid ++ keyMaterial credentials.localKey ++
    encodeUtf8 credentials.deviceId
  let taken := request.length
  if pairingRequestLength < taken then
    raise .tuyaBleProtocolError
      s!"Failed to build the pairing request: the credentials take {taken} bytes, {pairingRequestLength} is the maximum"
  else .ok (request ++ List.replicate (pairingRequestLength - taken) 0)

def verifyPairingResult (data : Bytes) : Except PyException Unit :=
  let arrived := data.length
  if arrived ≠ 1 then
    raise .tuyaBleProtocolError
      s!"Failed to read the pairing result: {arrived} bytes arrived, 1 expected"
  else do
    let code ← byteAt data 0
    if code ≠ pairingAccepted ∧ code ≠ pairingAlreadyPaired then
      raise .tuyaBleAuthenticationError
        s!"Failed to pair with the device: it rejected the credentials with code {code}"
    else return ()

/-! ## What they accept and raise -/

theorem parseDeviceInfo_fails (data : Bytes) :
    Fails (parseDeviceInfo data) .tuyaBleProtocolError := by
  intro e he
  unfold parseDeviceInfo at he
  split at he
  · cases he; rfl
  · rename_i h
    have hb : ∀ i < 46, ∃ b, byteAt data i = .ok b := fun i hi =>
      have ⟨b, hb, _⟩ := byteAt_isOk data i
        (by simp only [deviceInfoResponseLength] at h; omega)
      ⟨b, hb⟩
    obtain ⟨_, h0⟩ := hb 0 (by omega)
    obtain ⟨_, h1⟩ := hb 1 (by omega)
    obtain ⟨_, h2⟩ := hb 2 (by omega)
    obtain ⟨_, h3⟩ := hb 3 (by omega)
    obtain ⟨_, h4⟩ := hb 4 (by omega)
    obtain ⟨_, h5⟩ := hb 5 (by omega)
    obtain ⟨_, h12⟩ := hb 12 (by omega)
    obtain ⟨_, h13⟩ := hb 13 (by omega)
    simp only [h0, h1, h2, h3, h4, h5, h12, h13, bind, Except.bind] at he
    cases he

theorem buildPairingRequest_fails (credentials : TuyaBleCredentials) :
    Fails (buildPairingRequest credentials) .tuyaBleProtocolError := by
  intro e he
  simp only [buildPairingRequest] at he
  split at he <;> cases he
  rfl

theorem length_buildPairingRequest {credentials : TuyaBleCredentials} {data : Bytes}
    (h : buildPairingRequest credentials = .ok data) : data.length = pairingRequestLength := by
  simp only [buildPairingRequest] at h
  split at h
  · cases h
  · rename_i hle
    obtain rfl := Except.ok.inj h
    simp only [List.length_append, List.length_replicate] at hle ⊢
    omega

/-- **The two replies `verifyPairingResult` accepts.** -/
theorem verifyPairingResult_eq_ok {data : Bytes} :
    verifyPairingResult data = .ok () ↔ data = [0] ∨ data = [2] := by
  have key : ∀ b : UInt8, verifyPairingResult [b] = .ok () ↔ b = 0 ∨ b = 2 := by
    intro b
    have h0 : b.toNat = 0 ↔ b = 0 := UInt8.toNat_inj (b := 0)
    have h2 : b.toNat = 2 ↔ b = 2 := UInt8.toNat_inj (b := 2)
    simp only [verifyPairingResult, List.length_singleton, ne_eq, not_true_eq_false, ↓reduceIte,
      byteAt_cons_zero, bind, Except.bind, pairingAccepted, pairingAlreadyPaired, h0, h2]
    by_cases e0 : b = 0
    · simp [e0, pure, Except.pure]
    · by_cases e2 : b = 2
      · simp [e2, pure, Except.pure]
      · simp [e0, e2, raise]
  match data with
  | [] => simp [verifyPairingResult, raise]
  | [b] => simpa using key b
  | _ :: _ :: _ => simp [verifyPairingResult, raise]

theorem type_of_verifyPairingResult {data : Bytes} {e : PyException}
    (h : verifyPairingResult data = .error e) :
    e.type = .tuyaBleProtocolError ∨ e.type = .tuyaBleAuthenticationError := by
  match data, h with
  | [], h => simp only [verifyPairingResult, raise] at h; cases h; exact .inl rfl
  | [b], h =>
    simp only [verifyPairingResult, List.length_singleton, ne_eq, not_true_eq_false, ↓reduceIte,
      byteAt_cons_zero, bind, Except.bind] at h
    split at h <;> cases h
    exact .inr rfl
  | _ :: _ :: _, h =>
    simp only [verifyPairingResult, List.length_cons] at h
    split at h
    · cases h; exact .inl rfl
    · rename_i hlen; simp at hlen

end TuyaBle
