import TuyaBle.Lib.Crc
import TuyaBle.Protocol.FrameRoundTrip

/-!
# What the checksum detects

`crc16` is the cyclic redundancy check of the library over the bits of the data, so no burst
of at most 16 bits leaves it as it was. The decoder looks for the checksum behind the data
the length field declares: a burst outside that field is found (`burst_detected`), and one
bit flipped within it may declare a length that leaves no room for a checksum, which the
decoder then does not ask for.
-/

namespace TuyaBle

/-- Bit `i` of a byte string: bytes in order, the least significant bit of each first. -/
def bitAt (data : Bytes) (i : Nat) : Bool := (data[i / 8]?.getD 0).toNat.testBit (i % 8)

/-- `altered` differs from `data`, within a window of 16 bits only. -/
structure Burst (data altered : Bytes) : Prop where
  length : altered.length = data.length
  ne : altered ≠ data
  window : ∃ start, ∀ i, bitAt altered i ≠ bitAt data i → start ≤ i ∧ i < start + 16

/-! ## The checksum as a register -/

/-- The bytes as the values the register takes in. -/
def values (data : Bytes) : List Nat := data.map UInt8.toNat

theorem values_lt (data : Bytes) : ∀ value ∈ values data, value < 2 ^ 8 := by
  intro value hv
  obtain ⟨byte, -, rfl⟩ := List.mem_map.1 hv
  exact byte.toNat_lt

theorem crc16_eq (data : Bytes) :
    crc16 data = Crc.absorb crc16Polynomial 8 crc16Initial (values data) := by
  rw [crc16, Crc.absorb, values, List.foldl_map]
  rfl

theorem testBit_values (data : Bytes) (i : Nat) :
    (Crc.pack 8 (values data)).testBit i = bitAt data i := by
  rw [Crc.testBit_pack (by decide) (values_lt data), bitAt, values, List.getElem?_map]
  cases data[i / 8]? <;> rfl

/-- **A burst changes the checksum.** -/
theorem Burst.crc16_ne {data altered : Bytes} (h : Burst data altered) :
    crc16 altered ≠ crc16 data := by
  obtain ⟨start, hwindow⟩ := h.window
  rw [crc16_eq, crc16_eq]
  have hlen : (values data).length = (values altered).length := by simp [values, h.length]
  have hne : values altered ≠ values data := fun he =>
    h.ne ((List.map_inj_right fun _ _ => UInt8.toNat_inj.1).1 he)
  have hburst : ∀ i,
      (Crc.pack 8 (values altered)).testBit i ≠ (Crc.pack 8 (values data)).testBit i →
      start ≤ i ∧ i < start + (15 + 1) := fun i hi => by
    rw [testBit_values, testBit_values] at hi
    exact hwindow i hi
  exact Crc.absorb_ne (w := 15) (by decide) (by decide) (by decide) crc16Initial
    (values_lt altered) (values_lt data) hlen hne hburst

/-! ## Reading a plaintext -/

/-- The length field of a header. -/
def declaredLength (plaintext : Bytes) : Nat := BigEndian.ofBytes (slice plaintext 10 12)

theorem slice_take (data : Bytes) {start stop n : Nat} (h : stop ≤ n) :
    slice (data.take n) start stop = slice data start stop := by
  rw [slice, slice, List.drop_take, List.take_take, Nat.min_eq_left (by omega)]

/-- Byte strings that agree on a range have the same slice there. -/
theorem slice_congr {data data' : Bytes} {start stop : Nat}
    (h : ∀ j, start ≤ j → j < stop → data'[j]? = data[j]?) :
    slice data' start stop = slice data start stop := by
  apply List.ext_getElem?
  intro i
  simp only [slice, List.getElem?_take, List.getElem?_drop]
  split
  · exact h _ (by omega) (by omega)
  · rfl

theorem unpackHeader_take {text : Bytes} (h : frameHeaderLength ≤ text.length) :
    unpackHeader (text.take frameHeaderLength) =
      .ok (BigEndian.ofBytes (slice text 0 4), BigEndian.ofBytes (slice text 4 8),
        BigEndian.ofBytes (slice text 8 10), declaredLength text) := by
  have hlen : (text.take frameHeaderLength).length = frameHeaderLength := by
    rw [List.length_take]
    omega
  rw [unpackHeader, if_pos hlen]
  simp only [declaredLength, frameHeaderLength, slice_take text (show 4 ≤ 12 by decide),
    slice_take text (show 8 ≤ 12 by decide), slice_take text (show 10 ≤ 12 by decide),
    slice_take text (Nat.le_refl 12)]

namespace Frame

/-- The checksum behind the data of the frame is there and is right. -/
def Checked (plaintext : Bytes) (frame : Frame) : Prop :=
  frameHeaderLength + frame.data.length + crcLength ≤ plaintext.length ∧
    BigEndian.ofBytes (slice plaintext (frameHeaderLength + frame.data.length)
      (frameHeaderLength + frame.data.length + crcLength)) =
        crc16 (plaintext.take (frameHeaderLength + frame.data.length))

/-- The length field declares data that ends at the end of the plaintext, or one byte
before it. -/
def Unchecked (plaintext : Bytes) : Prop :=
  frameHeaderLength + declaredLength plaintext ≤ plaintext.length ∧
    plaintext.length < frameHeaderLength + declaredLength plaintext + crcLength

/-- What a plaintext that is read looked like. -/
theorem of_ofPlaintext {text : Bytes} {frame : Frame} (h : frameHeaderLength ≤ text.length)
    (ho : ofPlaintext text = .ok frame) :
    frame.data.length = declaredLength text ∧
      frameHeaderLength + declaredLength text ≤ text.length ∧
      verifyCrcOrRaise text (frameHeaderLength + declaredLength text) = .ok () := by
  simp only [ofPlaintext, unpackHeader_take h] at ho
  split at ho
  · cases ho
  · obtain ⟨u, hv, ho⟩ := Except.bind_eq_ok.1 ho
    cases ho
    refine ⟨?_, by omega, hv⟩
    rw [length_slice]
    omega

theorem ofPlaintext_isOk {text : Bytes} (h : frameHeaderLength + declaredLength text ≤ text.length)
    (hv : verifyCrcOrRaise text (frameHeaderLength + declaredLength text) = .ok ()) :
    ∃ frame, ofPlaintext text = .ok frame := by
  simp only [ofPlaintext, unpackHeader_take (show frameHeaderLength ≤ text.length by omega)]
  rw [if_neg (by omega), hv]
  exact ⟨_, rfl⟩

theorem verifyCrcOrRaise_eq_ok {text : Bytes} {stop : Nat} {u : Unit} :
    verifyCrcOrRaise text stop = .ok u ↔
      (stop + crcLength ≤ text.length →
        BigEndian.ofBytes (slice text stop (stop + crcLength)) = crc16 (text.take stop)) := by
  simp only [verifyCrcOrRaise, raise]
  split
  · exact ⟨fun _ hge => by omega, fun _ => rfl⟩
  · rename_i hroom
    have hge : stop + crcLength ≤ text.length := by omega
    split
    · rename_i heq
      exact ⟨fun _ _ => heq, fun _ => rfl⟩
    · rename_i hne
      constructor
      · intro h
        cases h
      · intro h
        exact absurd (h hge) hne

/-- **When a frame read from a plaintext is checked**: unless the length field leaves no room
for a checksum. -/
theorem checked_iff {text : Bytes} (h : frameHeaderLength ≤ text.length) :
    (∀ frame, ofPlaintext text = .ok frame → Checked text frame) ↔ ¬ Unchecked text := by
  constructor
  · rintro hall ⟨hle, hlt⟩
    obtain ⟨frame, ho⟩ := ofPlaintext_isOk hle (verifyCrcOrRaise_eq_ok.2 fun hge => by omega)
    have hc := (hall frame ho).1
    rw [(of_ofPlaintext h ho).1] at hc
    omega
  · intro hroom frame ho
    obtain ⟨hlen, hle, hv⟩ := of_ofPlaintext h ho
    have hge : frameHeaderLength + declaredLength text + crcLength ≤ text.length := by
      apply Nat.le_of_not_lt
      exact fun hlt => hroom ⟨hle, hlt⟩
    unfold Checked
    rw [hlen]
    exact ⟨hge, verifyCrcOrRaise_eq_ok.1 hv hge⟩

/-! ## Bursts -/

section
variable {P : Primitives} {frame : Frame} {key : AesKey} {flag : Nat} {iv : InitializationVector}
  {payload text : Bytes}

/-- What `encode` has encrypted. -/
theorem of_encode (he : frame.encode P key flag iv = .ok payload)
    (ht : plaintextOf P payload key = .ok text) :
    ∃ b, frame.body = .ok b ∧ text = plaintext b := by
  obtain ⟨b, hb, hf⟩ := encode_eq_ok he
  obtain ⟨c, hc, -, hd⟩ := encode_spec (P := P) hb hf key iv
  obtain rfl := Except.ok.inj (he.symm.trans hc)
  have := plaintextOf_eq (UInt8.ofNat flag) hd
  exact ⟨b, hb, Except.ok.inj (ht.symm.trans this)⟩

theorem declaredLength_plaintext {b : Bytes} (h : frame.body = .ok b) :
    declaredLength (plaintext b) = frame.data.length := by
  have hroom := (length_plaintext b).2.1
  have hlen := length_body h
  exact ((of_ofPlaintext (by omega) (ofPlaintext_plaintext h)).1).symm

/-- A burst within the first bytes of two plaintexts is one of these bytes alone. -/
theorem burst_take {altered : Bytes} {stop : Nat} (h : Burst text altered)
    (hrest : ∀ j, stop ≤ j → altered[j]? = text[j]?) :
    Burst (text.take stop) (altered.take stop) where
  length := by simp [h.length]
  ne := by
    intro he
    apply h.ne
    apply List.ext_getElem?
    intro j
    by_cases hj : j < stop
    · rw [← List.getElem?_take_of_lt hj, he, List.getElem?_take_of_lt hj]
    · exact hrest j (by omega)
  window := by
    obtain ⟨start, hwindow⟩ := h.window
    refine ⟨start, fun i hi => hwindow i fun heq => hi ?_⟩
    simp only [bitAt, List.getElem?_take]
    split
    · exact heq
    · rfl

/-- A plaintext with a burst outside the length field and the checksum is refused. -/
theorem ofPlaintext_burst {b altered : Bytes} (hb : frame.body = .ok b)
    (h : Burst (plaintext b) altered)
    (hbytes : ∀ j, altered[j]? ≠ (plaintext b)[j]? →
      j < 10 ∨ 12 ≤ j ∧ j < frameHeaderLength + frame.data.length) :
    ∃ e, ofPlaintext altered = .error e := by
  cases ho : ofPlaintext altered with
  | error e => exact ⟨e, rfl⟩
  | ok frame' =>
    have hroom := (length_plaintext b).2.1
    have hlen := length_body hb
    have hsame : ∀ j, 10 ≤ j → j < 12 ∨ b.length ≤ j → altered[j]? = (plaintext b)[j]? := by
      intro j hj hout
      refine Decidable.byContradiction fun hne => ?_
      rcases hbytes j hne with hlt | ⟨hge, hlt⟩ <;> omega
    have hfield : declaredLength altered = frame.data.length := by
      rw [← declaredLength_plaintext hb, declaredLength, declaredLength,
        slice_congr fun j hge hlt => hsame j hge (.inl hlt)]
    have hread : frameHeaderLength ≤ altered.length := by rw [h.length]; omega
    obtain ⟨-, -, hv⟩ := of_ofPlaintext hread ho
    rw [hfield, ← hlen, verifyCrcOrRaise_eq_ok] at hv
    have hcrc := hv (by rw [h.length]; exact hroom)
    rw [slice_congr fun j hge _ => hsame j (by unfold frameHeaderLength at hlen; omega)
      (.inr hge), slice_plaintext, ofBytes_crc] at hcrc
    have hburst : Burst ((plaintext b).take b.length) (altered.take b.length) :=
      burst_take h fun j hj => hsame j (by unfold frameHeaderLength at hlen; omega) (.inr hj)
    rw [take_plaintext] at hburst
    exact absurd hcrc.symm hburst.crc16_ne

end

/-- **Burst detection**: a burst changes the checksum of any byte string, so a frame whose
plaintext has one outside the length field and the checksum is refused, whatever it is
encrypted again with. -/
theorem bursts_detected :
    (∀ data altered, Burst data altered → crc16 altered ≠ crc16 data) ∧
    ∀ (P : Primitives) (frame : Frame) (key : AesKey) (flag : Nat) (iv iv' : InitializationVector)
      (flag' : UInt8) (payload text altered : Bytes),
      frame.encode P key flag iv = .ok payload → plaintextOf P payload key = .ok text →
      Burst text altered →
      (∀ j, altered[j]? ≠ text[j]? → j < 10 ∨ 12 ≤ j ∧ j < frameHeaderLength + frame.data.length) →
      ∃ c e, encrypt P key iv' altered = .ok c ∧
        decode P ([flag'] ++ iv'.val ++ c) key = .error e ∧ e.type = .tuyaBleProtocolError := by
  refine ⟨fun data altered h => h.crc16_ne, ?_⟩
  intro P frame key flag iv iv' flag' payload text altered he ht h hbytes
  obtain ⟨b, hb, rfl⟩ := of_encode he ht
  obtain ⟨e, ho⟩ := ofPlaintext_burst hb h hbytes
  have hblocks : altered.length % blockSize = 0 := h.length ▸ (length_plaintext b).1
  obtain ⟨c, hc, hlen, hd⟩ := encrypt_spec (P := P) key iv' hblocks
  have hdecode := decode_eq flag' (hlen ▸ hblocks)
    (by rw [hlen, h.length]; exact blockSize_le_plaintext hb) hd
  rw [ho] at hdecode
  exact ⟨c, e, hc, hdecode, decode_fails _ _ e hdecode⟩

end Frame

/-! ## A bit flipped on the air -/

/-- `data` with its bit `k` inverted. -/
def flipBit (data : Bytes) (k : Nat) : Bytes :=
  data.modify (k / 8) (· ^^^ UInt8.ofNat (2 ^ (k % 8)))

@[simp] theorem length_flipBit (data : Bytes) (k : Nat) : (flipBit data k).length = data.length :=
  List.length_modify ..

theorem getElem?_flipBit_ne {data : Bytes} {k j : Nat} (h : k / 8 ≠ j) :
    (flipBit data k)[j]? = data[j]? := List.getElem?_modify_ne _ _ h

theorem flipBit_append_left {data rest : Bytes} {k : Nat} (h : k < 8 * data.length) :
    flipBit (data ++ rest) k = flipBit data k ++ rest := by
  have hk : k / 8 < data.length := by omega
  unfold flipBit
  rw [List.modify_eq_take_cons_drop (by rw [List.length_append]; omega),
    List.modify_eq_take_cons_drop hk, List.take_append_of_le_length (by omega),
    List.drop_append_of_le_length (by omega), List.getElem_append_left hk, List.append_assoc,
    List.cons_append]

theorem flipBit_cons (b : UInt8) (data : Bytes) (k : Nat) :
    flipBit (b :: data) (8 + k) = b :: flipBit data k := by
  have hdiv : (8 + k) / 8 = k / 8 + 1 := by omega
  have hmod : (8 + k) % 8 = k % 8 := by omega
  rw [flipBit, hdiv, hmod, List.modify_succ_cons]
  rfl

theorem bitAt_flipBit {data : Bytes} {k i : Nat} (hk : k / 8 < data.length) :
    bitAt (flipBit data k) i = (bitAt data i ^^ decide (k = i)) := by
  unfold bitAt flipBit
  rw [List.getElem?_modify]
  by_cases hj : k / 8 = i / 8
  · have hlow : 2 ^ (k % 8) < 256 :=
      Nat.lt_of_lt_of_le (Nat.pow_lt_pow_right (by decide) (Nat.mod_lt k (by decide))) (by decide)
    have hki : (k % 8 = i % 8) = (k = i) := by
      apply propext
      omega
    rw [← hj, List.getElem?_eq_getElem hk]
    simp only [↓reduceIte, Option.map_eq_map, Option.map_some, Option.getD_some, UInt8.toNat_xor,
      Nat.testBit_xor, UInt8.toNat_ofNat', Nat.mod_eq_of_lt hlow, Nat.testBit_two_pow, hki]
  · have hne : k ≠ i := fun h => hj (by rw [h])
    simp [hj, hne]

/-- One flipped bit is a burst. -/
theorem burst_flipBit {data : Bytes} {k : Nat} (hk : k / 8 < data.length) :
    Burst data (flipBit data k) where
  length := length_flipBit data k
  ne := by
    intro he
    have hbit := bitAt_flipBit (i := k) hk
    rw [he] at hbit
    cases hb : bitAt data k <;> simp [hb] at hbit
  window := by
    refine ⟨k, fun i hi => ?_⟩
    rw [bitAt_flipBit hk] at hi
    by_cases hki : k = i
    · omega
    · simp [hki] at hi

/-- Flipping a bit commutes with adding a mask. -/
theorem zipWith_flipBit (mask data : Bytes) (k : Nat) :
    List.zipWith (· ^^^ ·) mask (flipBit data k) =
      flipBit (List.zipWith (· ^^^ ·) mask data) k := by
  apply List.ext_getElem?
  intro j
  simp only [flipBit, List.getElem?_modify, List.getElem?_zipWith]
  by_cases hj : k / 8 = j <;> cases mask[j]? <;> cases data[j]? <;> simp [hj, UInt8.xor_assoc]

def flipVector (iv : InitializationVector) (k : Nat) : InitializationVector :=
  ⟨flipBit iv.val k, by rw [length_flipBit]; exact iv.property⟩

theorem flipBit_payload {flag : UInt8} {iv : InitializationVector} (c : Bytes) {k : Nat}
    (hk : k < 128) :
    flipBit ([flag] ++ iv.val ++ c) (8 + k) = [flag] ++ (flipVector iv k).val ++ c := by
  have hiv := iv.property
  rw [List.append_assoc, List.singleton_append, flipBit_cons,
    flipBit_append_left (by unfold blockSize at hiv; omega)]
  rfl

/-- In CBC mode the bit of the vector is the bit of the first block. -/
theorem decrypt_flipVector {P : Primitives} {key : AesKey} {iv : InitializationVector}
    {c text : Bytes} (h : decrypt P key iv c = .ok text) (hc : blockSize ≤ c.length) {k : Nat}
    (hk : k < 128) : decrypt P key (flipVector iv k) c = .ok (flipBit text k) := by
  obtain ⟨n, hn⟩ : ∃ n, c.length / blockSize = n + 1 :=
    ⟨c.length / blockSize - 1, by unfold blockSize at *; omega⟩
  unfold decrypt at h ⊢
  split at h
  · rw [if_pos ‹_›]
    rw [hn, toBlocks, Cbc.decrypt] at h
    rw [hn, toBlocks, Cbc.decrypt]
    cases h
    have hcons : ∀ (b : Block) (bs : List Block), ofBlocks (b :: bs) = b.val ++ ofBlocks bs :=
      fun _ _ => rfl
    have hfirst : (xorBlock (P.decryptBlock key (blockOf c)) (flipVector iv k)).val =
        flipBit (xorBlock (P.decryptBlock key (blockOf c)) iv).val k :=
      zipWith_flipBit ..
    have hlen := (xorBlock (P.decryptBlock key (blockOf c)) iv).property
    rw [hcons, hcons, hfirst, flipBit_append_left (by unfold blockSize at hlen; omega)]
  · cases h

namespace Frame

variable {P : Primitives} {frame : Frame} {key : AesKey} {flag : Nat} {iv : InitializationVector}
  {payload text : Bytes}

/-- Outside the length field a flipped bit leaves room for the checksum. -/
theorem not_unchecked_flipBit {b : Bytes} (hb : frame.body = .ok b) {k : Nat} (h10 : k / 8 ≠ 10)
    (h11 : k / 8 ≠ 11) : ¬ Unchecked (flipBit (plaintext b) k) := by
  have hroom := (length_plaintext b).2.1
  have hlen := length_body hb
  have hfield : declaredLength (flipBit (plaintext b) k) = frame.data.length := by
    rw [← declaredLength_plaintext hb, declaredLength, declaredLength,
      slice_congr fun j hge hlt => getElem?_flipBit_ne (by omega)]
  rintro ⟨-, hlt⟩
  rw [hfield, length_flipBit] at hlt
  omega

/-- **A bit flipped on the air** is the same bit of the plaintext flipped. The frame that is
then read is checked exactly when the length field leaves room for a checksum or declares
more data than there is, as it does whenever the bit lies elsewhere. -/
theorem flipped_bit_checked (he : frame.encode P key flag iv = .ok payload)
    (ht : plaintextOf P payload key = .ok text) {k : Nat} (hk : k < 128) :
    plaintextOf P (flipBit payload (8 + k)) key = .ok (flipBit text k) ∧
      ((∀ frame', decode P (flipBit payload (8 + k)) key = .ok frame' →
        Checked (flipBit text k) frame') ↔ ¬ Unchecked (flipBit text k)) ∧
      (k / 8 ≠ 10 → k / 8 ≠ 11 → ¬ Unchecked (flipBit text k)) := by
  obtain ⟨b, hb, rfl⟩ := of_encode he ht
  obtain ⟨hblocks, hroom, -⟩ := length_plaintext b
  obtain ⟨-, -, hf⟩ := encode_eq_ok he
  obtain ⟨c, hc, hlen, hd⟩ := encode_spec (P := P) hb hf key iv
  obtain rfl := Except.ok.inj (he.symm.trans hc)
  have hmin : blockSize ≤ c.length := hlen ▸ blockSize_le_plaintext hb
  have hd' := decrypt_flipVector hd hmin hk
  rw [flipBit_payload c hk]
  refine ⟨plaintextOf_eq _ hd', ?_, not_unchecked_flipBit hb⟩
  rw [decode_eq _ (hlen ▸ hblocks) hmin hd']
  apply checked_iff
  rw [length_flipBit]
  have := length_body hb
  omega

/-- The payload of a frame that can be written, and what it decrypts to. -/
theorem exists_payload {b : Bytes} (hb : frame.body = .ok b) (hflag : flag < 256)
    (P : Primitives) (key : AesKey) (iv : InitializationVector) :
    ∃ payload, frame.encode P key flag iv = .ok payload ∧
      plaintextOf P payload key = .ok (plaintext b) := by
  obtain ⟨c, hc, -, hd⟩ := encode_spec (P := P) hb hflag key iv
  exact ⟨_, hc, plaintextOf_eq _ hd⟩

open FakeDevice in
/-- The device information request with one bit of its number inverted in the plaintext. -/
theorem request_burst_refused :
    let key := loginKey primitives localKey
    ∃ payload text c e, encode primitives ⟨1, 0, 0, []⟩ key 4 initializationVector = .ok payload ∧
      plaintextOf primitives payload key = .ok text ∧
      encrypt primitives key initializationVector (flipBit text 24) = .ok c ∧
      decode primitives ([4] ++ initializationVector.val ++ c) key = .error e ∧
      e.type = .tuyaBleProtocolError := by
  obtain ⟨payload, he, ht⟩ := exists_payload (show Frame.body ⟨1, 0, 0, []⟩ = .ok _ from rfl)
    (show 4 < 256 by decide) primitives (loginKey primitives localKey) initializationVector
  obtain ⟨c, e, h⟩ := bursts_detected.2 primitives ⟨1, 0, 0, []⟩ _ 4 initializationVector
    initializationVector 4 payload _ _ he ht (burst_flipBit (k := 24) (by decide +kernel))
    fun j hj => .inl (Decidable.byContradiction fun hge =>
      hj (getElem?_flipBit_ne (by omega)))
  exact ⟨payload, _, c, e, he, ht, h⟩

open FakeDevice in
/-- The device information request with the lowest bit of its number flipped. -/
theorem request_bit_flipped :
    let key := loginKey primitives localKey
    ∃ payload text, encode primitives ⟨1, 0, 0, []⟩ key 4 initializationVector = .ok payload ∧
      plaintextOf primitives (flipBit payload (8 + 24)) key = .ok (flipBit text 24) ∧
      ((∀ frame', decode primitives (flipBit payload (8 + 24)) key = .ok frame' →
        Checked (flipBit text 24) frame') ↔ ¬ Unchecked (flipBit text 24)) ∧
      (24 / 8 ≠ 10 → 24 / 8 ≠ 11 → ¬ Unchecked (flipBit text 24)) := by
  obtain ⟨payload, he, ht⟩ := exists_payload (show Frame.body ⟨1, 0, 0, []⟩ = .ok _ from rfl)
    (show 4 < 256 by decide) primitives (loginKey primitives localKey) initializationVector
  exact ⟨payload, _, he, flipped_bit_checked he ht (by decide)⟩

open FakeDevice in
/-- Bit 2 of its length field makes the checksum data: the frame is read with nothing left
to compare. -/
theorem checksum_switched_off :
    ∃ payload text frame',
      encode primitives ⟨1, 0, 0, []⟩ (loginKey primitives localKey) 4 initializationVector =
        .ok payload ∧
      plaintextOf primitives (flipBit payload (8 + 90)) (loginKey primitives localKey) = .ok text ∧
      decode primitives (flipBit payload (8 + 90)) (loginKey primitives localKey) = .ok frame' ∧
      ¬ Checked text frame' := by
  refine ⟨[4] ++ initializationVector.val ++
      BigEndian.toBytes 16 0xf8bc69d43b1f0e3bf28ac34ec4aa2723,
    BigEndian.toBytes 16 0x00000001000000000000000492690000, ⟨1, 0, 0, [0x92, 0x69, 0, 0]⟩,
    by decide +kernel, ?_, ?_, ?_⟩
  · decide +kernel
  · decide +kernel
  · exact fun h => absurd h.1 (by decide)

end Frame

end TuyaBle
