import TuyaBle.Python
import TuyaBle.Lib.Cbc
import TuyaBle.Protocol.Constants

/-!
# AES, CRC and key derivation

MD5 and the AES block cipher come from outside the SDK and are the parameter
`Primitives`: a digest of 16 bytes, and for each key a cipher on blocks that its
inverse undoes. CBC mode over them is the library's (`Cbc`). A key is an `AesKey`
by construction, so the cipher never refuses one.
-/

namespace TuyaBle

def crc16Initial : Nat := 0xffff
def crc16Polynomial : Nat := 0xa001
def localKeyPrefixLength : Nat := 6

/-- One turn of the inner loop of `crc16`. -/
def crc16Bit (crc : Nat) : Nat :=
  let carry := crc &&& 1
  let crc := crc >>> 1
  if carry = 0 then crc else crc ^^^ crc16Polynomial

def crc16Byte (crc : Nat) (byte : UInt8) : Nat := Nat.repeat crc16Bit 8 (crc ^^^ byte.toNat)

def crc16 (data : Bytes) : Nat := data.foldl crc16Byte crc16Initial

theorem crc16Bit_lt {crc : Nat} (h : crc < 2 ^ 16) : crc16Bit crc < 2 ^ 16 := by
  have hs : crc >>> 1 < 2 ^ 16 := by rw [Nat.shiftRight_eq_div_pow]; omega
  simp only [crc16Bit]
  split
  · exact hs
  · exact Nat.xor_lt_two_pow hs (by decide)

theorem crc16Byte_lt {crc : Nat} (h : crc < 2 ^ 16) (byte : UInt8) :
    crc16Byte crc byte < 2 ^ 16 := by
  have hb : byte.toNat < 2 ^ 16 := Nat.lt_trans byte.toNat_lt (by decide)
  have hx : crc ^^^ byte.toNat < 2 ^ 16 := Nat.xor_lt_two_pow h hb
  unfold crc16Byte
  generalize 8 = n
  induction n with
  | zero => exact hx
  | succ n ih => exact crc16Bit_lt ih

theorem crc16_lt (data : Bytes) : crc16 data < 256 ^ 2 := by
  suffices h : ∀ crc, crc < 2 ^ 16 → data.foldl crc16Byte crc < 2 ^ 16 from h _ (by decide)
  induction data with
  | nil => exact fun _ h => h
  | cons b data ih => exact fun crc h => ih _ (crc16Byte_lt h b)

/-- The reference vector of the MODBUS variant. -/
example : crc16 ((List.range 9).map fun n => UInt8.ofNat (49 + n)) = 0x4b37 := by decide +kernel

/-! ## Blocks -/

abbrev Block := { b : Bytes // b.length = blockSize }

abbrev InitializationVector := Block

def xorBlock (a b : Block) : Block :=
  ⟨List.zipWith (· ^^^ ·) a.val b.val, by simp [a.property, b.property]⟩

theorem zipWith_xor_cancel : ∀ {a b : Bytes}, a.length = b.length →
    List.zipWith (· ^^^ ·) (List.zipWith (· ^^^ ·) a b) b = a
  | [], _, _ => by simp
  | x :: a, y :: b, h => by
    have hx : x ^^^ y ^^^ y = x := by rw [UInt8.xor_assoc, UInt8.xor_self, UInt8.xor_zero]
    simp [hx, zipWith_xor_cancel (show a.length = b.length by simpa using h)]

theorem xorBlock_cancels : Cbc.Cancels xorBlock := fun a b =>
  Subtype.ext (zipWith_xor_cancel (a.property.trans b.property.symm))

/-- The first block of `data`, which has one. -/
def blockOf (data : Bytes) : Block :=
  ⟨(data ++ List.replicate blockSize 0).take blockSize, by simp⟩

def toBlocks : Nat → Bytes → List Block
  | 0, _ => []
  | n + 1, data => blockOf data :: toBlocks n (data.drop blockSize)

def ofBlocks (blocks : List Block) : Bytes := (blocks.map Subtype.val).flatten

@[simp] theorem length_toBlocks (n : Nat) (data : Bytes) : (toBlocks n data).length = n := by
  induction n generalizing data with
  | zero => rfl
  | succ n ih => simp [toBlocks, ih]

@[simp] theorem length_ofBlocks (blocks : List Block) :
    (ofBlocks blocks).length = blockSize * blocks.length := by
  induction blocks with
  | nil => rfl
  | cons b blocks ih =>
    have : ofBlocks (b :: blocks) = b.val ++ ofBlocks blocks := rfl
    rw [this, List.length_append, ih, b.property, List.length_cons, Nat.mul_succ, Nat.add_comm]

theorem blockOf_val {data : Bytes} (h : blockSize ≤ data.length) :
    (blockOf data).val = data.take blockSize := by
  simp [blockOf, List.take_append_of_le_length h]

theorem ofBlocks_toBlocks {n : Nat} {data : Bytes} (h : data.length = blockSize * n) :
    ofBlocks (toBlocks n data) = data := by
  induction n generalizing data with
  | zero => simp [toBlocks, ofBlocks, List.eq_nil_of_length_eq_zero h]
  | succ n ih =>
    rw [Nat.mul_succ] at h
    have hd : ofBlocks (toBlocks (n + 1) data) =
        (blockOf data).val ++ ofBlocks (toBlocks n (data.drop blockSize)) := rfl
    rw [hd, blockOf_val (by omega), ih (by simp; omega), List.take_append_drop]

theorem toBlocks_ofBlocks (blocks : List Block) :
    toBlocks blocks.length (ofBlocks blocks) = blocks := by
  induction blocks with
  | nil => rfl
  | cons b blocks ih =>
    have hd : ofBlocks (b :: blocks) = b.val ++ ofBlocks blocks := rfl
    have hb := b.property
    rw [List.length_cons, toBlocks, hd, List.drop_left' hb, ih]
    congr 1
    exact Subtype.ext ((blockOf_val (by simp [hb])).trans (List.take_left' hb))

/-! ## The cipher -/

/-- A key of a length AES has. -/
abbrev AesKey := { key : Bytes // key.length = 16 ∨ key.length = 24 ∨ key.length = 32 }

structure Primitives where
  md5 : Bytes → Block
  encryptBlock : AesKey → Block → Block
  decryptBlock : AesKey → Block → Block
  decrypt_encrypt : ∀ key b, decryptBlock key (encryptBlock key b) = b

/-- A digest used as a key. -/
def digestKey (digest : Block) : AesKey := ⟨digest.val, .inl digest.property⟩

variable (P : Primitives)

def keyMaterial (localKey : String) : Bytes :=
  encodeUtf8 (String.ofList (localKey.toList.take localKeyPrefixLength))

def loginKey (localKey : String) : AesKey := digestKey (P.md5 (keyMaterial localKey))

def sessionKey (localKey : String) (srand : Bytes) : AesKey :=
  digestKey (P.md5 (keyMaterial localKey ++ srand))

def encrypt (key : AesKey) (iv : InitializationVector) (data : Bytes) : Except PyException Bytes :=
  if data.length % blockSize = 0 then
    .ok (ofBlocks (Cbc.encrypt xorBlock (P.encryptBlock key) iv
      (toBlocks (data.length / blockSize) data)))
  else
    raise .valueError "The length of the provided data is not a multiple of the block length."

def decrypt (key : AesKey) (iv : InitializationVector) (data : Bytes) : Except PyException Bytes :=
  if data.length % blockSize = 0 then
    .ok (ofBlocks (Cbc.decrypt xorBlock (P.decryptBlock key) iv
      (toBlocks (data.length / blockSize) data)))
  else
    raise .valueError "The length of the provided data is not a multiple of the block length."

variable {P}

/-- **Encryption keeps the length, and decryption undoes it.** -/
theorem encrypt_spec (key : AesKey) (iv : InitializationVector) {data : Bytes}
    (h : data.length % blockSize = 0) :
    ∃ c, encrypt P key iv data = .ok c ∧ c.length = data.length ∧
      decrypt P key iv c = .ok data := by
  have hlen : data.length = blockSize * (data.length / blockSize) := by
    rw [Nat.mul_comm]; exact (Nat.div_mul_cancel (Nat.dvd_of_mod_eq_zero h)).symm
  let blocks :=
    Cbc.encrypt xorBlock (P.encryptBlock key) iv (toBlocks (data.length / blockSize) data)
  have hn : blocks.length = data.length / blockSize := by simp [blocks]
  have hc : (ofBlocks blocks).length = data.length := by rw [length_ofBlocks, hn, ← hlen]
  refine ⟨ofBlocks blocks, if_pos h, hc, ?_⟩
  rw [decrypt, if_pos (hc ▸ h), hc, ← hn, toBlocks_ofBlocks,
    Cbc.decrypt_encrypt xorBlock_cancels (P.decrypt_encrypt key), ofBlocks_toBlocks hlen]

theorem decrypt_ok (key : AesKey) (iv : InitializationVector) {data : Bytes}
    (h : data.length % blockSize = 0) :
    ∃ p, decrypt P key iv data = .ok p ∧ p.length = data.length := by
  refine ⟨_, if_pos h, ?_⟩
  rw [length_ofBlocks, Cbc.length_decrypt, length_toBlocks, Nat.mul_comm]
  exact Nat.div_mul_cancel (Nat.dvd_of_mod_eq_zero h)

/-! ## The advertised uuid -/

variable (P)

/-- The product-id record is the whole secret: its digest is the key and the vector. -/
def decryptAdvertisedUuid (rawProductId encryptedUuid : Bytes) : Except PyException String :=
  let key := P.md5 rawProductId
  if encryptedUuid.length % blockSize ≠ 0 then
    let length := encryptedUuid.length
    raise .tuyaBleProtocolError
      s!"Failed to decrypt the advertised uuid: {length} bytes is not a whole number of AES blocks"
  else do
    let decrypted ← decrypt P (digestKey key) key encryptedUuid
    match decodeUtf8 decrypted with
    | some uuid => return uuid
    | none =>
      raise .tuyaBleProtocolError "Failed to decode the advertised uuid: "
        (some .unicodeDecodeError)

variable {P}

theorem decryptAdvertisedUuid_eq_ok {rawProductId encryptedUuid : Bytes} {uuid : String} :
    decryptAdvertisedUuid P rawProductId encryptedUuid = .ok uuid ↔
      encryptedUuid.length % blockSize = 0 ∧
        ∃ decrypted, decrypt P (digestKey (P.md5 rawProductId)) (P.md5 rawProductId)
          encryptedUuid = .ok decrypted ∧ decodeUtf8 decrypted = some uuid := by
  unfold decryptAdvertisedUuid raise
  by_cases hlen : encryptedUuid.length % blockSize = 0
  · rw [if_neg (not_not_intro hlen), Except.bind_eq_ok, and_iff_right hlen]
    refine exists_congr fun decrypted => and_congr_right fun _ => ?_
    cases decodeUtf8 decrypted with
    | none => exact iff_of_false (by rintro ⟨⟩) (by rintro ⟨⟩)
    | some text =>
      exact ⟨fun h => congrArg some (Except.ok.inj h), fun h => congrArg _ (Option.some.inj h)⟩
  · rw [if_pos hlen]
    exact iff_of_false (by rintro ⟨⟩) fun h => hlen h.1

theorem decryptAdvertisedUuid_fails (rawProductId encryptedUuid : Bytes) :
    Fails (decryptAdvertisedUuid P rawProductId encryptedUuid) .tuyaBleProtocolError := by
  intro e he
  unfold decryptAdvertisedUuid raise at he
  split at he
  · cases he
    rfl
  · rename_i hlen
    obtain ⟨decrypted, hok, -⟩ := decrypt_ok (P := P) (digestKey (P.md5 rawProductId))
      (P.md5 rawProductId) (Decidable.not_not.1 hlen)
    simp only [hok, bind, Except.bind] at he
    split at he <;> cases he
    rfl

end TuyaBle
