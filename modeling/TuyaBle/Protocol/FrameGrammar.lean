import Mathlib.Data.Finite.Prod
import TuyaBle.Protocol.FrameRoundTrip

/-!
# The payloads `decode` accepts

A payload conveys a frame when its text opens with the body of the frame and, where the
text has room for it, the checksum follows. `decode` accepts these and no others. It does
not look at what follows the checksum, so it accepts more than `encode` writes: the
payloads `encode` writes are those whose text goes on with the least padding, all zeros.
-/

namespace TuyaBle

namespace Frame

/-- What may follow the body of a frame: too little for a checksum, or the checksum. -/
def Closes (body rest : Bytes) : Prop :=
  rest.length < crcLength ∨ BigEndian.toBytes crcLength (crc16 body) <+: rest

/-- The text is one of the frame. -/
def IsText (frame : Frame) (text : Bytes) : Prop :=
  ∃ body rest, frame.body = .ok body ∧ text = body ++ rest ∧ Closes body rest

/-- The payload is a flag, a vector and whole blocks that decrypt to a text of the frame. -/
def Conveys (P : Primitives) (key : AesKey) (payload : Bytes) (frame : Frame) : Prop :=
  ∃ (flag : UInt8) (iv : InitializationVector) (ciphertext text : Bytes),
    payload = [flag] ++ iv.val ++ ciphertext ∧ ciphertext ≠ [] ∧
      ciphertext.length % blockSize = 0 ∧ decrypt P key iv ciphertext = .ok text ∧
      frame.IsText text

/-! ## The text -/

variable {frame : Frame} {text body rest : Bytes}

/-- A checksum is checked where the body ends. -/
theorem verifyCrcOrRaise_append :
    verifyCrcOrRaise (body ++ rest) body.length = .ok () ↔ Closes body rest := by
  unfold verifyCrcOrRaise Closes
  rw [List.length_append, List.take_left]
  have hslice : slice (body ++ rest) body.length (body.length + crcLength) =
      rest.take crcLength := by
    rw [slice, List.drop_left, Nat.add_sub_cancel_left]
  rw [hslice]
  by_cases hroom : rest.length < crcLength
  · rw [if_pos (by omega)]
    exact iff_of_true rfl (.inl hroom)
  · have hlen : (rest.take crcLength).length = crcLength := by
      rw [List.length_take]
      omega
    have hprefix : BigEndian.toBytes crcLength (crc16 body) <+: rest ↔
        BigEndian.ofBytes (rest.take crcLength) = crc16 body := by
      rw [List.prefix_iff_eq_take, BigEndian.length_toBytes]
      constructor
      · intro h
        rw [← h, ofBytes_crc]
      · intro h
        rw [← h]
        exact BigEndian.toBytes_ofBytes hlen
    rw [if_neg (by omega), hprefix, or_iff_right hroom]
    dsimp only
    split
    · exact iff_of_true rfl ‹_›
    · rename_i hne
      refine iff_of_false (fun h => ?_) hne
      cases h

/-- The fields of twelve bytes. -/
theorem exists_fields {header : Bytes} (h : header.length = frameHeaderLength) :
    ∃ sequenceNumber responseTo code length : Bytes, sequenceNumber.length = 4 ∧
      responseTo.length = 4 ∧ code.length = 2 ∧ length.length = 2 ∧
      header = sequenceNumber ++ responseTo ++ code ++ length := by
  unfold frameHeaderLength at h
  refine ⟨header.take 4, (header.drop 4).take 4, (header.drop 8).take 2, header.drop 10, ?_, ?_,
    ?_, ?_, ?_⟩
  · rw [List.length_take]; omega
  · rw [List.length_take, List.length_drop]; omega
  · rw [List.length_take, List.length_drop]; omega
  · rw [List.length_drop]; omega
  · have h8 : header.drop 8 = (header.drop 4).drop 4 := by rw [List.drop_drop]
    have h10 : header.drop 10 = (header.drop 8).drop 2 := by rw [List.drop_drop]
    rw [List.append_assoc, h10, List.take_append_drop, h8, List.append_assoc,
      List.take_append_drop, List.take_append_drop]

/-- Twelve bytes are a header, and are its fields written back. -/
theorem unpackHeader_eq_ok {header : Bytes} {sequenceNumber responseTo code length : Nat} :
    unpackHeader header = .ok (sequenceNumber, responseTo, code, length) ↔
      (sequenceNumber < 256 ^ 4 ∧ responseTo < 256 ^ 4 ∧ code < 256 ^ 2 ∧ length < 256 ^ 2) ∧
        header = BigEndian.toBytes 4 sequenceNumber ++ BigEndian.toBytes 4 responseTo ++
          BigEndian.toBytes 2 code ++ BigEndian.toBytes 2 length := by
  constructor
  · intro h
    have hlen : header.length = frameHeaderLength := by
      unfold unpackHeader raise at h
      split at h
      · assumption
      · cases h
    obtain ⟨a, b, c, d, ha, hb, hc, hd, rfl⟩ := exists_fields hlen
    rw [unpackHeader_append ha hb hc hd] at h
    obtain ⟨rfl, rfl, rfl, rfl⟩ : BigEndian.ofBytes a = sequenceNumber ∧
        BigEndian.ofBytes b = responseTo ∧ BigEndian.ofBytes c = code ∧
        BigEndian.ofBytes d = length := by
      simpa only [Except.ok.injEq, Prod.mk.injEq] using h
    rw [BigEndian.toBytes_ofBytes ha, BigEndian.toBytes_ofBytes hb, BigEndian.toBytes_ofBytes hc,
      BigEndian.toBytes_ofBytes hd]
    exact ⟨⟨BigEndian.ofBytes_lt ha, BigEndian.ofBytes_lt hb, BigEndian.ofBytes_lt hc,
      BigEndian.ofBytes_lt hd⟩, rfl⟩
  · rintro ⟨⟨hs, hr, hc, hl⟩, rfl⟩
    rw [unpackHeader_append (BigEndian.length_toBytes ..) (BigEndian.length_toBytes ..)
      (BigEndian.length_toBytes ..) (BigEndian.length_toBytes ..), BigEndian.ofBytes_toBytes hs,
      BigEndian.ofBytes_toBytes hr, BigEndian.ofBytes_toBytes hc, BigEndian.ofBytes_toBytes hl]

/-- **The texts `decode` reads a frame from.** -/
theorem ofPlaintext_eq_ok : ofPlaintext text = .ok frame ↔ frame.IsText text := by
  constructor
  · intro h
    unfold ofPlaintext raise at h
    split at h
    · cases h
    · rename_i sequenceNumber responseTo code length hheader
      obtain ⟨⟨hs, hr, hc, hl⟩, hheader⟩ := unpackHeader_eq_ok.1 hheader
      dsimp only at h
      split at h
      · cases h
      · rename_i hroom
        obtain ⟨_, hcrc, hframe⟩ := Except.bind_eq_ok.1 h
        obtain rfl := Except.ok.inj hframe
        have hdata : (slice text frameHeaderLength (frameHeaderLength + length)).length =
            length := by
          rw [length_slice]
          omega
        have hbody : text.take (frameHeaderLength + length) =
            text.take frameHeaderLength ++
              slice text frameHeaderLength (frameHeaderLength + length) := by
          rw [List.take_add, slice, Nat.add_sub_cancel_left]
        have hlen : (text.take (frameHeaderLength + length)).length =
            frameHeaderLength + length := by
          rw [List.length_take]
          omega
        refine ⟨text.take (frameHeaderLength + length), text.drop (frameHeaderLength + length),
          body_eq_ok.2 ⟨⟨hs, hr, hc, by rw [hdata]; exact hl⟩, ?_⟩, (List.take_append_drop ..).symm,
          verifyCrcOrRaise_append.1 ?_⟩
        · rw [hbody, hheader, hdata]
        · rw [List.take_append_drop, hlen]
          exact hcrc
  · rintro ⟨body, rest, hbody, rfl, hcloses⟩
    have hlen := length_body hbody
    obtain ⟨⟨hs, hr, hc, hl⟩, heq⟩ := body_eq_ok.1 hbody
    have hheader := unpackHeader_eq_ok.2 ⟨⟨hs, hr, hc, hl⟩, rfl⟩
    have htake : (body ++ rest).take frameHeaderLength =
        BigEndian.toBytes 4 frame.sequenceNumber ++ BigEndian.toBytes 4 frame.responseTo ++
          BigEndian.toBytes 2 frame.code ++ BigEndian.toBytes 2 frame.data.length := by
      rw [heq, List.append_assoc, List.take_left' (by simp [frameHeaderLength])]
    have hdata : slice (body ++ rest) frameHeaderLength
        (frameHeaderLength + frame.data.length) = frame.data := by
      rw [slice, heq, List.append_assoc, List.drop_left' (by simp [frameHeaderLength]),
        Nat.add_sub_cancel_left, List.take_left]
    have hcrc := verifyCrcOrRaise_append.2 hcloses
    rw [hlen] at hcrc
    unfold ofPlaintext
    rw [htake, hheader]
    dsimp only
    rw [if_neg (by rw [List.length_append]; omega), hcrc, hdata]
    rfl

theorem frameHeaderLength_le_of_isText (h : frame.IsText text) :
    frameHeaderLength ≤ text.length := by
  obtain ⟨body, rest, hbody, rfl, -⟩ := h
  have hlen := length_body hbody
  rw [List.length_append]
  omega

/-! ## The payload -/

section
variable {P : Primitives} {key : AesKey} {payload : Bytes}

theorem exists_parts (h : minimumPayloadLength ≤ payload.length) :
    ∃ (flag : UInt8) (iv : InitializationVector) (ciphertext : Bytes),
      payload = [flag] ++ iv.val ++ ciphertext := by
  unfold minimumPayloadLength initializationVectorEnd blockSize at h
  match payload, h with
  | flag :: rest, h =>
    rw [List.length_cons] at h
    refine ⟨flag, ⟨rest.take blockSize, ?_⟩, rest.drop blockSize, ?_⟩
    · rw [List.length_take, blockSize]
      omega
    · rw [List.append_assoc, List.take_append_drop]
      rfl

/-- **What `decode` accepts**: the payloads that convey the frame, and no others. -/
theorem decode_iff (P : Primitives) (key : AesKey) (payload : Bytes) (frame : Frame) :
    decode P payload key = .ok frame ↔ frame.Conveys P key payload := by
  constructor
  · intro h
    have hmin : minimumPayloadLength ≤ payload.length := by
      by_contra hmin
      unfold decode raise at h
      rw [if_pos (by omega)] at h
      cases h
    obtain ⟨flag, iv, ciphertext, rfl⟩ := exists_parts hmin
    have hlen : blockSize ≤ ciphertext.length := by
      simp only [List.length_append, List.length_singleton, iv.property, minimumPayloadLength,
        initializationVectorEnd] at hmin
      omega
    have hblocks : ciphertext.length % blockSize = 0 := by
      by_contra hblocks
      have hdrop : ([flag] ++ iv.val ++ ciphertext).drop initializationVectorEnd = ciphertext :=
        List.drop_left' (by simp [iv.property, initializationVectorEnd, Nat.add_comm])
      unfold decode raise at h
      rw [if_neg (by omega), hdrop, if_pos hblocks] at h
      cases h
    obtain ⟨text, htext, -⟩ := decrypt_ok (P := P) key iv hblocks
    rw [decode_eq flag hblocks hlen htext] at h
    refine ⟨flag, iv, ciphertext, text, rfl, ?_, hblocks, htext, ofPlaintext_eq_ok.1 h⟩
    rintro rfl
    exact absurd hlen (by decide)
  · rintro ⟨flag, iv, ciphertext, text, rfl, hne, hblocks, htext, hframe⟩
    have hpos := List.length_pos_iff.2 hne
    have hlen : blockSize ≤ ciphertext.length :=
      Nat.le_of_dvd hpos (Nat.dvd_of_mod_eq_zero hblocks)
    rw [decode_eq flag hblocks hlen htext]
    exact ofPlaintext_eq_ok.2 hframe

/-! ## What `encode` writes -/

/-- A cipher that can be undone on the blocks, of which there are finitely many, undoes its
inverse. -/
theorem encryptBlock_decryptBlock (P : Primitives) (key : AesKey) (b : Block) :
    P.encryptBlock key (P.decryptBlock key b) = b := by
  have hfinite : Finite Block := by
    refine Finite.of_injective (β := Fin blockSize → Fin 256)
      (fun b i => ⟨(b.val.get (i.cast b.property.symm)).toNat, UInt8.toNat_lt _⟩) fun b b' h => ?_
    refine Subtype.ext (List.ext_get (b.property.trans b'.property.symm) fun i hi hi' => ?_)
    have hi := congrFun h ⟨i, by rw [← b.property]; exact hi⟩
    exact UInt8.toNat_inj.1 (Fin.val_eq_of_eq hi)
  have hinjective : Function.Injective (P.encryptBlock key) :=
    Function.LeftInverse.injective (P.decrypt_encrypt key)
  obtain ⟨b, rfl⟩ := Finite.surjective_of_injective hinjective b
  rw [P.decrypt_encrypt]

/-- **Decrypted blocks are encrypted again to what they were.** -/
theorem encrypt_decrypt {iv : InitializationVector} {ciphertext : Bytes}
    (hblocks : ciphertext.length % blockSize = 0) (h : decrypt P key iv ciphertext = .ok text) :
    encrypt P key iv text = .ok ciphertext := by
  have hlen : ciphertext.length = blockSize * (ciphertext.length / blockSize) :=
    (Nat.mul_div_cancel' (Nat.dvd_of_mod_eq_zero hblocks)).symm
  rw [decrypt, if_pos hblocks] at h
  obtain rfl := Except.ok.inj h
  let blocks := Cbc.decrypt xorBlock (P.decryptBlock key) iv
    (toBlocks (ciphertext.length / blockSize) ciphertext)
  have hn : blocks.length = ciphertext.length / blockSize := by
    simp only [blocks, Cbc.length_decrypt, length_toBlocks]
  have htext : (ofBlocks blocks).length = ciphertext.length := by
    rw [length_ofBlocks, hn, ← hlen]
  have hblocks' : Cbc.encrypt xorBlock (P.encryptBlock key) iv blocks =
      toBlocks (ciphertext.length / blockSize) ciphertext :=
    Cbc.encrypt_decrypt xorBlock_cancels (encryptBlock_decryptBlock P key) iv _
  change encrypt P key iv (ofBlocks blocks) = _
  rw [encrypt, htext, if_pos hblocks, ← hn, toBlocks_ofBlocks, hblocks', ofBlocks_toBlocks hlen]

/-- The ciphertext of a payload `encode` wrote. -/
theorem encode_parts {flag : Nat} {iv : InitializationVector}
    (h : frame.encode P key flag iv = .ok payload) :
    ∃ body ciphertext, frame.body = .ok body ∧ flag < 256 ∧
      payload = [UInt8.ofNat flag] ++ iv.val ++ ciphertext ∧
      ciphertext.length = (plaintext body).length ∧
      decrypt P key iv ciphertext = .ok (plaintext body) := by
  obtain ⟨body, hbody, hflag⟩ := encode_eq_ok h
  obtain ⟨ciphertext, hencode, hlen, htext⟩ := encode_spec (P := P) hbody hflag key iv
  exact ⟨body, ciphertext, hbody, hflag, Except.ok.inj (h.symm.trans hencode), hlen, htext⟩

/-- The least padding makes a text of the frame. -/
theorem isText_plaintext (h : frame.body = .ok body) : frame.IsText (plaintext body) :=
  ⟨body, _, h, by rw [plaintext, List.append_assoc], .inr (List.prefix_append ..)⟩

/-- Every text of the frame in whole blocks is conveyed by a payload. -/
theorem exists_conveys (P : Primitives) (key : AesKey) (flag : UInt8) (iv : InitializationVector)
    (h : frame.IsText text) (hblocks : text.length % blockSize = 0) :
    ∃ ciphertext, frame.Conveys P key ([flag] ++ iv.val ++ ciphertext) ∧
      decrypt P key iv ciphertext = .ok text := by
  obtain ⟨ciphertext, -, hlen, htext⟩ := encrypt_spec (P := P) key iv hblocks
  refine ⟨ciphertext, ⟨flag, iv, ciphertext, text, rfl, ?_, hlen ▸ hblocks, htext, h⟩, htext⟩
  have hheader := frameHeaderLength_le_of_isText h
  rintro rfl
  rw [← hlen] at hheader
  exact absurd hheader (by decide)

/-- **What `encode` writes**: the payloads that decode to the frame and whose text is padded
least. Under every flag and vector each other text of the frame in whole blocks is decoded to
it as well. -/
theorem encode_iff (P : Primitives) (key : AesKey) (frame : Frame) :
    (∀ payload, (∃ flag iv, frame.encode P key flag iv = .ok payload) ↔
      decode P payload key = .ok frame ∧
        ∃ body, frame.body = .ok body ∧ plaintextOf P payload key = .ok (plaintext body)) ∧
    ∀ (flag : UInt8) (iv : InitializationVector) (text : Bytes),
      (∃ ciphertext, decode P ([flag] ++ iv.val ++ ciphertext) key = .ok frame ∧
        plaintextOf P ([flag] ++ iv.val ++ ciphertext) key = .ok text) ↔
      frame.IsText text ∧ text.length % blockSize = 0 := by
  refine ⟨fun payload => ⟨?_, ?_⟩, fun flag iv text => ⟨?_, ?_⟩⟩
  · rintro ⟨flag, iv, h⟩
    obtain ⟨body, ciphertext, hbody, -, rfl, hlen, htext⟩ := encode_parts h
    have hblocks := (length_plaintext body).1
    have hroom := blockSize_le_plaintext hbody
    refine ⟨?_, body, hbody, plaintextOf_eq _ htext⟩
    rw [decode_eq _ (hlen ▸ hblocks) (hlen ▸ hroom) htext]
    exact ofPlaintext_eq_ok.2 (isText_plaintext hbody)
  · rintro ⟨hdecode, body, hbody, hplain⟩
    obtain ⟨flag, iv, ciphertext, text, rfl, -, hblocks, htext, -⟩ :=
      (decode_iff P key payload frame).1 hdecode
    obtain rfl := Except.ok.inj ((plaintextOf_eq flag htext).symm.trans hplain)
    obtain ⟨written, hencode, hlen, hwritten⟩ :=
      encode_spec (P := P) hbody flag.toNat_lt key iv
    have hsame : written = ciphertext := by
      have h := encrypt_decrypt (hlen ▸ (length_plaintext body).1) hwritten
      exact Except.ok.inj (h.symm.trans (encrypt_decrypt hblocks htext))
    rw [hsame, UInt8.ofNat_toNat] at hencode
    exact ⟨flag.toNat, iv, hencode⟩
  · rintro ⟨ciphertext, hdecode, hplain⟩
    obtain ⟨flag', iv', ciphertext', text', heq, -, hblocks, htext, hframe⟩ :=
      (decode_iff P key _ frame).1 hdecode
    rw [heq, plaintextOf_eq flag' htext] at hplain
    obtain rfl := Except.ok.inj hplain
    obtain ⟨_, h, hlen⟩ := decrypt_ok (P := P) key iv' hblocks
    obtain rfl := Except.ok.inj (htext.symm.trans h)
    exact ⟨hframe, hlen ▸ hblocks⟩
  · rintro ⟨hframe, hblocks⟩
    obtain ⟨ciphertext, hconveys, htext⟩ := exists_conveys P key flag iv hframe hblocks
    exact ⟨ciphertext, (decode_iff P key _ frame).2 hconveys, plaintextOf_eq flag htext⟩

end

end Frame

end TuyaBle
