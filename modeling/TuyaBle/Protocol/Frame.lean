import TuyaBle.Crypto
import TuyaBle.Protocol.Varint

/-!
# Frames

One frame: its header, its CRC and its trip through AES, and the fragments an
encrypted payload is split into. The initialization vector `encode` draws is an
argument here.
-/

namespace TuyaBle

def initializationVectorEnd : Nat := 1 + blockSize
def minimumPayloadLength : Nat := initializationVectorEnd + blockSize
def protocolVersionShift : Nat := 4

/-- The flag that says which key a received payload was encrypted with. -/
def securityFlagOf (payload : Bytes) : Except PyException Nat :=
  if payload = [] then
    raise .tuyaBleProtocolError "Failed to read a frame: the payload is empty"
  else byteAt payload 0

/-! ## Fragments -/

def fragmentHeader (payload : Bytes) (protocolVersion index : Nat) : Except PyException Bytes :=
  if index = 0 then do
    let version ← packUnsigned 1 (protocolVersion <<< protocolVersionShift)
    return packVarint index ++ packVarint payload.length ++ version
  else .ok (packVarint index)

/-- The loop of `buildPackets`; `none` when the turns allowed are used up. -/
def buildPacketsLoop (payload : Bytes) (protocolVersion : Nat) :
    Nat → Nat → Nat → List Bytes → Option (Except PyException (List Bytes))
  | 0, _, _, _ => none
  | fuel + 1, position, index, packets =>
    if position < payload.length then
      match fragmentHeader payload protocolVersion index with
      | .error e => some (.error e)
      | .ok header =>
        let chunk := slice payload position (position + gattMtu - header.length)
        buildPacketsLoop payload protocolVersion fuel (position + chunk.length) (index + 1)
          (packets ++ [header ++ chunk])
    else some (.ok packets)

/-- `none` when the loop never ends: a turn that takes no byte of the payload is
followed by turns that take none either. -/
def buildPackets (payload : Bytes) (protocolVersion : Nat) :
    Option (Except PyException (List Bytes)) :=
  buildPacketsLoop payload protocolVersion (payload.length + 1) 0 0 []

/-- Splitting fails only for a version that does not fit. -/
theorem type_of_buildPackets {payload : Bytes} {protocolVersion : Nat} {e : PyException}
    (h : buildPackets payload protocolVersion = some (.error e)) : e.type = .structError := by
  have loop : ∀ fuel position index packets,
      buildPacketsLoop payload protocolVersion fuel position index packets = some (.error e) →
        e.type = .structError := by
    intro fuel
    induction fuel with
    | zero => exact fun _ _ _ h => nomatch h
    | succ fuel ih =>
      intro position index packets h
      unfold buildPacketsLoop at h
      split at h
      · split at h
        · rename_i e' he
          cases h
          unfold fragmentHeader at he
          split at he
          · exact Fails.bind (packUnsigned_fails _ _) (fun _ _ => fails_ok _ _) e he
          · cases he
        · exact ih _ _ _ h
      · cases h
  exact loop _ _ _ _ h

/-! ## Frames -/

structure Frame where
  sequenceNumber : Nat
  responseTo : Nat
  code : Nat
  data : Bytes
  deriving DecidableEq, Repr

/-- `f"{value:#06x}"`. -/
def hex06 (value : Nat) : String :=
  "0x" ++ String.ofList ((Nat.toDigits 16 value).leftpad 4 '0')

/-- `bytes(-length % BLOCK_SIZE)`. -/
def padding (length : Nat) : Bytes :=
  List.replicate ((blockSize - length % blockSize) % blockSize) 0

/-- `unpack(">IIHH", data)`. -/
def unpackHeader (data : Bytes) : Except PyException (Nat × Nat × Nat × Nat) :=
  if data.length = frameHeaderLength then
    .ok (BigEndian.ofBytes (slice data 0 4), BigEndian.ofBytes (slice data 4 8),
      BigEndian.ofBytes (slice data 8 10), BigEndian.ofBytes (slice data 10 12))
  else raise .structError "unpack requires a buffer of 12 bytes"

/-- Check the checksum that follows the data, when the padding left room for it. -/
def verifyCrcOrRaise (plaintext : Bytes) (stop : Nat) : Except PyException Unit :=
  if plaintext.length < stop + crcLength then .ok ()
  else
    let declared := BigEndian.ofBytes (slice plaintext stop (stop + crcLength))
    let computed := crc16 (plaintext.take stop)
    if declared = computed then .ok ()
    else
      let shown := hex06 declared
      let expected := hex06 computed
      raise .tuyaBleProtocolError
        s!"Failed to verify a frame: CRC {shown} does not match the computed {expected}"

namespace Frame

variable (P : Primitives)

/-- The header and the data, before the checksum. -/
def body (frame : Frame) : Except PyException Bytes := do
  let sequenceNumber ← packUnsigned 4 frame.sequenceNumber
  let responseTo ← packUnsigned 4 frame.responseTo
  let code ← packUnsigned 2 frame.code
  let length ← packUnsigned 2 frame.data.length
  return sequenceNumber ++ responseTo ++ code ++ length ++ frame.data

def encode (frame : Frame) (key : AesKey) (securityFlag : Nat) (iv : InitializationVector) :
    Except PyException Bytes := do
  let body ← frame.body
  let crc ← packUnsigned crcLength (crc16 body)
  let plaintext := body ++ crc
  let plaintext := plaintext ++ padding plaintext.length
  let flag ← packUnsigned 1 securityFlag
  let ciphertext ← encrypt P key iv plaintext
  return flag ++ iv.val ++ ciphertext

/-- The second half of `decode`: read the header of the plaintext and check its CRC. -/
def ofPlaintext (plaintext : Bytes) : Except PyException Frame :=
  match unpackHeader (plaintext.take frameHeaderLength) with
  | .error e =>
    let text := e.message
    raise .tuyaBleProtocolError s!"Failed to read a frame header: {text}"
  | .ok (sequenceNumber, responseTo, code, length) =>
    let stop := frameHeaderLength + length
    if plaintext.length < stop then
      let arrived := plaintext.length - frameHeaderLength
      raise .tuyaBleProtocolError
        s!"Failed to read a frame: it declares {length} bytes of data but only {arrived} arrived"
    else do
      verifyCrcOrRaise plaintext stop
      return ⟨sequenceNumber, responseTo, code, slice plaintext frameHeaderLength stop⟩

/-- What `decode` decrypts: the payload behind the flag and the initialization vector. -/
def plaintextOf (payload : Bytes) (key : AesKey) : Except PyException Bytes :=
  decrypt P key (blockOf (slice payload 1 initializationVectorEnd))
    (payload.drop initializationVectorEnd)

def decode (payload : Bytes) (key : AesKey) : Except PyException Frame :=
  let received := payload.length
  let encrypted := (payload.drop initializationVectorEnd).length
  if received < minimumPayloadLength then
    raise .tuyaBleProtocolError
      s!"Failed to read a frame: {received} bytes is shorter than the initialization vector plus one block"
  else if encrypted % blockSize ≠ 0 then
    raise .tuyaBleProtocolError
      s!"Failed to read a frame: {encrypted} bytes is not a whole number of AES blocks"
  else do
    let plaintext ← plaintextOf P payload key
    ofPlaintext plaintext

/-! ## What `encode` can do -/

variable {P} {frame : Frame} {key : AesKey} {flag : Nat} {iv : InitializationVector}

theorem body_eq_ok {b : Bytes} : frame.body = .ok b ↔
    (frame.sequenceNumber < 256 ^ 4 ∧ frame.responseTo < 256 ^ 4 ∧ frame.code < 256 ^ 2 ∧
      frame.data.length < 256 ^ 2) ∧
    b = BigEndian.toBytes 4 frame.sequenceNumber ++ BigEndian.toBytes 4 frame.responseTo ++
      BigEndian.toBytes 2 frame.code ++ BigEndian.toBytes 2 frame.data.length ++ frame.data := by
  unfold body
  simp only [Except.bind_eq_ok, packUnsigned_eq_ok, pure, Except.pure, Except.ok.injEq]
  constructor
  · rintro ⟨_, ⟨h1, rfl⟩, _, ⟨h2, rfl⟩, _, ⟨h3, rfl⟩, _, ⟨h4, rfl⟩, rfl⟩
    exact ⟨⟨h1, h2, h3, h4⟩, rfl⟩
  · rintro ⟨⟨h1, h2, h3, h4⟩, rfl⟩
    exact ⟨_, ⟨h1, rfl⟩, _, ⟨h2, rfl⟩, _, ⟨h3, rfl⟩, _, ⟨h4, rfl⟩, rfl⟩

theorem length_body {b : Bytes} (h : frame.body = .ok b) :
    b.length = frameHeaderLength + frame.data.length := by
  rw [(body_eq_ok.1 h).2]
  simp [frameHeaderLength]
  omega

theorem length_padding (n : Nat) :
    (n + (padding n).length) % blockSize = 0 ∧ (padding n).length < blockSize := by
  simp only [padding, List.length_replicate, blockSize]
  omega

/-- The plaintext `encode` encrypts. -/
def plaintext (body : Bytes) : Bytes :=
  body ++ BigEndian.toBytes crcLength (crc16 body) ++
    padding (body ++ BigEndian.toBytes crcLength (crc16 body)).length

theorem length_plaintext (b : Bytes) :
    (plaintext b).length % blockSize = 0 ∧
      b.length + crcLength ≤ (plaintext b).length ∧
      (plaintext b).length < b.length + crcLength + blockSize := by
  have h := length_padding (b ++ BigEndian.toBytes crcLength (crc16 b)).length
  have hlen : (plaintext b).length = b.length + crcLength +
      (padding (b ++ BigEndian.toBytes crcLength (crc16 b)).length).length := by
    simp [plaintext, Nat.add_assoc]
  simp only [List.length_append, BigEndian.length_toBytes] at h hlen ⊢
  rw [hlen]
  exact ⟨h.1, by omega, by omega⟩

/-- **`encode` succeeds on in-range frames**, with the flag, the vector and a
ciphertext that decrypts to the padded plaintext. -/
theorem encode_spec {b : Bytes} (hb : frame.body = .ok b) (hflag : flag < 256)
    (key : AesKey) (iv : InitializationVector) :
    ∃ c, frame.encode P key flag iv = .ok ([UInt8.ofNat flag] ++ iv.val ++ c) ∧
      c.length = (plaintext b).length ∧ decrypt P key iv c = .ok (plaintext b) := by
  obtain ⟨c, hc, hlen, hd⟩ := encrypt_spec (P := P) key iv (length_plaintext b).1
  refine ⟨c, ?_, hlen, hd⟩
  have hcrc : packUnsigned crcLength (crc16 b) = .ok (BigEndian.toBytes crcLength (crc16 b)) :=
    packUnsigned_ok (crc16_lt b)
  have hf : packUnsigned 1 flag = .ok [UInt8.ofNat flag] := by
    rw [packUnsigned_ok (by simpa using hflag)]
    simp [BigEndian.toBytes]
  rw [plaintext] at hc
  simp only [encode, hb, bind, Except.bind, hcrc, hf, hc, pure, Except.pure]

/-- Encoding fails only for a field that does not fit. -/
theorem encode_fails (frame : Frame) (key : AesKey) (flag : Nat) (iv : InitializationVector) :
    Fails (frame.encode P key flag iv) .structError := by
  have hbody : Fails frame.body .structError :=
    .bind (packUnsigned_fails _ _) fun _ _ => .bind (packUnsigned_fails _ _) fun _ _ =>
      .bind (packUnsigned_fails _ _) fun _ _ => .bind (packUnsigned_fails _ _) fun _ _ =>
        fails_ok _ _
  intro e he
  cases hb : frame.body with
  | error e' =>
    simp only [encode, hb, bind, Except.bind] at he
    cases he
    exact hbody e hb
  | ok b =>
    by_cases hf : flag < 256
    · obtain ⟨c, hc, -⟩ := encode_spec (P := P) hb hf key iv
      rw [hc] at he
      cases he
    · -- the flag is packed before the cipher runs
      have hcrc : packUnsigned crcLength (crc16 b) = .ok (BigEndian.toBytes crcLength (crc16 b)) :=
        packUnsigned_ok (crc16_lt b)
      have hflag : packUnsigned 1 flag = raise .structError (rangeText 1 flag) :=
        if_neg (by simpa using hf)
      simp only [encode, hb, bind, Except.bind, hcrc, hflag, raise] at he
      cases he
      rfl

theorem encode_eq_ok {payload : Bytes} (h : frame.encode P key flag iv = .ok payload) :
    ∃ b, frame.body = .ok b ∧ flag < 256 := by
  unfold encode at h
  simp only [Except.bind_eq_ok, packUnsigned_eq_ok] at h
  obtain ⟨b, hb, -, -, -, ⟨hf, -⟩, -⟩ := h
  exact ⟨b, hb, by simpa using hf⟩

theorem length_encode {payload : Bytes} (h : frame.encode P key flag iv = .ok payload) :
    payload.length % blockSize = 1 ∧ minimumPayloadLength ≤ payload.length ∧
      payload.length < 256 ^ 2 + 64 := by
  obtain ⟨b, hb, hf⟩ := encode_eq_ok h
  obtain ⟨c, hc, hlen, -⟩ := encode_spec (P := P) hb hf key iv
  obtain rfl := Except.ok.inj (h.symm.trans hc)
  have hp := length_plaintext b
  have hbl := length_body hb
  have hd := (body_eq_ok.1 hb).1.2.2.2
  have hiv := iv.property
  simp only [List.length_append, List.length_singleton, hlen, hiv, minimumPayloadLength,
    initializationVectorEnd, blockSize, frameHeaderLength, crcLength] at *
  omega

/-- `decode` raises protocol errors only. -/
theorem decode_fails (payload : Bytes) (key : AesKey) :
    Fails (decode P payload key) .tuyaBleProtocolError := by
  intro e he
  simp only [decode] at he
  split at he
  · cases he; rfl
  · split at he
    · cases he; rfl
    · rename_i hb
      obtain ⟨p, hp, -⟩ := decrypt_ok (P := P) key
        (blockOf (slice payload 1 initializationVectorEnd)) (Decidable.not_not.1 hb)
      simp only [plaintextOf, hp, bind, Except.bind, ofPlaintext] at he
      split at he
      · cases he; rfl
      · split at he
        · cases he; rfl
        · split at he
          · rename_i hcrc
            cases he
            simp only [verifyCrcOrRaise] at hcrc
            split at hcrc
            · cases hcrc
            · split at hcrc <;> cases hcrc
              rfl
          · cases he

end Frame

end TuyaBle
