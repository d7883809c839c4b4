import TuyaBle.Protocol.Frame
import TuyaBle.FakeDevice.Recording

/-!
# Frame round trip

`decode` reads back what `encode` wrote. The padding follows the checksum, so the decoder
always finds the checksum in the plaintext and compares it.
-/

namespace TuyaBle

namespace Frame

/-- The four fields of a header. -/
theorem unpackHeader_append {sequenceNumber responseTo code length : Bytes}
    (hs : sequenceNumber.length = 4) (hr : responseTo.length = 4) (hc : code.length = 2)
    (hl : length.length = 2) :
    unpackHeader (sequenceNumber ++ responseTo ++ code ++ length) =
      .ok (BigEndian.ofBytes sequenceNumber, BigEndian.ofBytes responseTo, BigEndian.ofBytes code,
        BigEndian.ofBytes length) := by
  have h12 : (sequenceNumber ++ responseTo ++ code ++ length).length = frameHeaderLength := by
    simp [hs, hr, hc, hl, frameHeaderLength]
  have h0 : slice (sequenceNumber ++ responseTo ++ code ++ length) 0 4 = sequenceNumber := by
    simp [slice, List.append_assoc, ← hs]
  have h4 : slice (sequenceNumber ++ responseTo ++ code ++ length) 4 8 = responseTo := by
    rw [slice, List.append_assoc, List.append_assoc, List.drop_left' hs, List.take_left' (by omega)]
  have h8 : slice (sequenceNumber ++ responseTo ++ code ++ length) 8 10 = code := by
    rw [slice, List.append_assoc, List.drop_left' (by simp [hs, hr]), List.take_left' (by omega)]
  have h10 : slice (sequenceNumber ++ responseTo ++ code ++ length) 10 12 = length := by
    rw [slice, List.drop_left' (by simp [hs, hr, hc]), List.take_of_length_le (by omega)]
  rw [unpackHeader, if_pos h12, h0, h4, h8, h10]

variable {frame : Frame} {b : Bytes}

theorem ofBytes_crc (b : Bytes) :
    BigEndian.ofBytes (BigEndian.toBytes crcLength (crc16 b)) = crc16 b :=
  BigEndian.ofBytes_toBytes (crc16_lt b)

theorem take_plaintext (b : Bytes) : (plaintext b).take b.length = b := by
  rw [plaintext, List.append_assoc, List.take_left]

/-- The checksum of a plaintext, where the decoder looks for it. -/
theorem slice_plaintext (b : Bytes) :
    slice (plaintext b) b.length (b.length + crcLength) =
      BigEndian.toBytes crcLength (crc16 b) := by
  rw [slice, plaintext, List.append_assoc, List.drop_left,
    List.take_left' (by rw [BigEndian.length_toBytes]; omega)]

/-- There is room for a header, so there is a block. -/
theorem blockSize_le_plaintext (h : frame.body = .ok b) : blockSize ≤ (plaintext b).length := by
  obtain ⟨hblocks, hroom, -⟩ := length_plaintext b
  have hlen := length_body h
  unfold blockSize frameHeaderLength crcLength at *
  omega

/-- Reading the plaintext back. -/
theorem ofPlaintext_plaintext (h : frame.body = .ok b) : ofPlaintext (plaintext b) = .ok frame := by
  obtain ⟨⟨hs, hr, hc, hl⟩, hb⟩ := body_eq_ok.1 h
  have hlen := length_body h
  obtain ⟨-, hroom, -⟩ := length_plaintext b
  let header := BigEndian.toBytes 4 frame.sequenceNumber ++ BigEndian.toBytes 4 frame.responseTo ++
    BigEndian.toBytes 2 frame.code ++ BigEndian.toBytes 2 frame.data.length
  have hh : header.length = frameHeaderLength := by simp [header, frameHeaderLength]
  have hbody : b = header ++ frame.data := hb
  have htake : (plaintext b).take frameHeaderLength = header := by
    rw [plaintext, hbody, List.append_assoc, List.append_assoc, List.take_left' hh]
  have hdata : slice (plaintext b) frameHeaderLength (frameHeaderLength + frame.data.length) =
      frame.data := by
    rw [slice, plaintext, hbody, List.append_assoc, List.append_assoc, List.drop_left' hh,
      Nat.add_sub_cancel_left, List.take_left]
  have hcrc : verifyCrcOrRaise (plaintext b) (frameHeaderLength + frame.data.length) = .ok () := by
    simp only [verifyCrcOrRaise, ← hlen]
    rw [if_neg (by omega), take_plaintext, slice_plaintext, ofBytes_crc, if_pos rfl]
  simp only [ofPlaintext, htake, header,
    unpackHeader_append (BigEndian.length_toBytes ..) (BigEndian.length_toBytes ..)
      (BigEndian.length_toBytes ..) (BigEndian.length_toBytes ..),
    BigEndian.ofBytes_toBytes hs, BigEndian.ofBytes_toBytes hr, BigEndian.ofBytes_toBytes hc,
    BigEndian.ofBytes_toBytes hl]
  rw [if_neg (by omega), hcrc, hdata]
  rfl

section
variable {P : Primitives} {key : AesKey} {iv : InitializationVector} {c text : Bytes}

/-- What a payload of a flag, a vector and a ciphertext decrypts to. -/
theorem plaintextOf_eq (flag : UInt8) (h : decrypt P key iv c = .ok text) :
    plaintextOf P ([flag] ++ iv.val ++ c) key = .ok text := by
  have hiv := iv.property
  have hrest : ([flag] ++ iv.val ++ c).drop initializationVectorEnd = c :=
    List.drop_left' (by simp [hiv, initializationVectorEnd, Nat.add_comm])
  have hslice : slice ([flag] ++ iv.val ++ c) 1 initializationVectorEnd = iv.val := by
    have hone : [flag].length = 1 := rfl
    rw [slice, List.append_assoc, List.drop_left' hone, List.take_left' (by rw [hiv]; rfl)]
  have hvec : blockOf (slice ([flag] ++ iv.val ++ c) 1 initializationVectorEnd) = iv := by
    rw [hslice]
    exact Subtype.ext
      ((blockOf_val (Nat.le_of_eq hiv.symm)).trans (List.take_of_length_le (by omega)))
  rw [plaintextOf, hvec, hrest, h]

/-- A payload of whole blocks is decrypted and read. -/
theorem decode_eq (flag : UInt8) (hblocks : c.length % blockSize = 0) (hc : blockSize ≤ c.length)
    (h : decrypt P key iv c = .ok text) :
    decode P ([flag] ++ iv.val ++ c) key = ofPlaintext text := by
  have hiv := iv.property
  have hrest : ([flag] ++ iv.val ++ c).drop initializationVectorEnd = c :=
    List.drop_left' (by simp [hiv, initializationVectorEnd, Nat.add_comm])
  have hmin : ¬ ([flag] ++ iv.val ++ c).length < minimumPayloadLength := by
    simp only [List.length_append, List.length_singleton, hiv, minimumPayloadLength,
      initializationVectorEnd]
    omega
  simp only [decode, hrest, hblocks, plaintextOf_eq flag h, if_neg hmin, ne_eq, not_true_eq_false,
    ↓reduceIte]
  rfl

end

/-- **Frame round trip**: an in-range frame is encoded, and decoded to itself by a decoder
that compares its checksum. -/
theorem decode_encode (P : Primitives) (frame : Frame) (hs : frame.sequenceNumber < 2 ^ 32)
    (hr : frame.responseTo < 2 ^ 32) (hc : frame.code < 2 ^ 16) (hd : frame.data.length ≤ 65535)
    (key : AesKey) (iv : InitializationVector) (flag : Nat) (hf : flag ≤ 255) :
    ∃ payload text, frame.encode P key flag iv = .ok payload ∧
      securityFlagOf payload = .ok flag ∧ payload.length % 16 = 1 ∧ 33 ≤ payload.length ∧
      plaintextOf P payload key = .ok text ∧
      frameHeaderLength + frame.data.length + crcLength ≤ text.length ∧
      BigEndian.ofBytes (slice text (frameHeaderLength + frame.data.length)
        (frameHeaderLength + frame.data.length + crcLength)) =
          crc16 (text.take (frameHeaderLength + frame.data.length)) ∧
      decode P payload key = .ok frame := by
  obtain ⟨b, hb⟩ : ∃ b, frame.body = .ok b :=
    ⟨_, body_eq_ok.2 ⟨⟨hs, hr, hc, Nat.lt_succ_of_le hd⟩, rfl⟩⟩
  obtain ⟨c, he, hlen, hdec⟩ := encode_spec (P := P) hb (Nat.lt_succ_of_le hf) key iv
  obtain ⟨hmod, hmin, -⟩ := length_encode he
  have hiv := iv.property
  have hflag : securityFlagOf ([UInt8.ofNat flag] ++ iv.val ++ c) = .ok flag := by
    simp [securityFlagOf, Nat.mod_eq_of_lt (Nat.lt_succ_of_le hf)]
  have hplain := plaintextOf_eq (UInt8.ofNat flag) hdec
  obtain ⟨hblocks, hroom, -⟩ := length_plaintext b
  have hb' := length_body hb
  refine ⟨_, plaintext b, he, hflag, hmod, hmin, hplain, ?_, ?_, ?_⟩
  · rw [← hb']; exact hroom
  · rw [← hb', slice_plaintext, take_plaintext, ofBytes_crc]
  · rw [decode_eq (UInt8.ofNat flag) (hlen ▸ hblocks) (hlen ▸ blockSize_le_plaintext hb) hdec]
    exact ofPlaintext_plaintext hb

open FakeDevice in
/-- A report of three bytes: a block boundary lies between the two bytes of its checksum. -/
theorem decode_encode_across_blocks :
    let frame : Frame := ⟨101, 0, 0x8001, [1, 0, 0]⟩
    let key := sessionKey primitives localKey srand
    ∃ payload text, frame.encode primitives key 5 initializationVector = .ok payload ∧
      securityFlagOf payload = .ok 5 ∧ payload.length % 16 = 1 ∧ 33 ≤ payload.length ∧
      plaintextOf primitives payload key = .ok text ∧
      frameHeaderLength + frame.data.length + crcLength ≤ text.length ∧
      BigEndian.ofBytes (slice text (frameHeaderLength + frame.data.length)
        (frameHeaderLength + frame.data.length + crcLength)) =
          crc16 (text.take (frameHeaderLength + frame.data.length)) ∧
      decode primitives payload key = .ok frame :=
  decode_encode primitives ⟨101, 0, 0x8001, [1, 0, 0]⟩ (by decide) (by decide) (by decide)
    (by decide) _ _ 5 (by decide)

open FakeDevice in
/-- The packets of the device information request are the frozen wire bytes of the tests. -/
example : (Frame.encode primitives ⟨1, 0, 0, []⟩ (loginKey primitives localKey) 4
      initializationVector).toOption.bind (buildPackets · 3) =
    some (.ok [BigEndian.toBytes 20 0x00213004000102030405060708090a0b0c0d0e0f,
      BigEndian.toBytes 17 0x01f8bc69d43b1f0e3bf28ac34ec4aa2723]) := by decide +kernel

end Frame

end TuyaBle
