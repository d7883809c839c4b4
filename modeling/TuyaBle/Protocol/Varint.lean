import TuyaBle.Python

/-!
# Variable-length integers

The little-endian base-128 integers that prefix every BLE fragment.
-/

namespace TuyaBle

def continuationBit : Nat := 0x80
def valueMask : Nat := 0x7f
def bitsPerByte : Nat := 7
def maxBytes : Nat := 4

/-- The loop of `packVarint`; a value has at most as many digits as its own size. -/
def packVarintLoop : Nat → Nat → Bytes
  | 0, _ => []
  | fuel + 1, value =>
    let current := value &&& valueMask
    let value := value >>> bitsPerByte
    if value = 0 then [UInt8.ofNat current]
    else UInt8.ofNat (current ||| continuationBit) :: packVarintLoop fuel value

def packVarint (value : Nat) : Bytes := packVarintLoop (value + 1) value

/-- The loop of `unpackVarint` over the offsets still to be read. -/
def unpackVarintLoop (data : Bytes) (start : Nat) :
    List Nat → Nat → Except PyException (Nat × Nat)
  | [], _ =>
    raise .tuyaBleProtocolError "Failed to parse a fragment header: the integer never terminates"
  | offset :: offsets, value =>
    let position := start + offset
    if data.length ≤ position then
      raise .tuyaBleProtocolError "Failed to parse a fragment header: it ends mid-integer"
    else do
      let current ← byteAt data position
      let value := value ||| ((current &&& valueMask) <<< (offset * bitsPerByte))
      if current &&& continuationBit = 0 then return (value, position + 1)
      unpackVarintLoop data start offsets value

def unpackVarint (data : Bytes) (start : Nat) : Except PyException (Nat × Nat) :=
  unpackVarintLoop data start (List.range maxBytes) 0

/-! ## The writer -/

theorem and_valueMask (n : Nat) : n &&& valueMask = n % 128 :=
  Nat.and_two_pow_sub_one_eq_mod n 7

theorem shiftRight_bitsPerByte (n : Nat) : n >>> bitsPerByte = n / 128 :=
  Nat.shiftRight_eq_div_pow n 7

theorem or_continuationBit {n : Nat} (h : n < 128) : n ||| continuationBit = n + 128 := by
  have := Nat.two_pow_add_eq_or_of_lt (i := 7) h 1
  rw [continuationBit, Nat.or_comm, show 0x80 = 2 ^ 7 * 1 by rfl, ← this, Nat.add_comm]

theorem packVarintLoop_fuel (fuel fuel' value : Nat) (h : value < fuel) (h' : value < fuel') :
    packVarintLoop fuel value = packVarintLoop fuel' value := by
  induction value using Nat.strongRecOn generalizing fuel fuel' with
  | ind value ih =>
    obtain ⟨k, rfl⟩ := Nat.exists_eq_add_of_lt (Nat.zero_lt_of_lt h)
    obtain ⟨k', rfl⟩ := Nat.exists_eq_add_of_lt (Nat.zero_lt_of_lt h')
    simp only [packVarintLoop, shiftRight_bitsPerByte]
    split
    · rfl
    · rw [ih (value / 128) (by omega) (0 + k) (0 + k') (by omega) (by omega)]

/-- One turn of the writer's loop. -/
theorem packVarint_eq (value : Nat) :
    packVarint value =
      if value < 128 then [UInt8.ofNat value]
      else UInt8.ofNat (value % 128 + 128) :: packVarint (value / 128) := by
  unfold packVarint
  rw [packVarintLoop]
  simp only [and_valueMask, shiftRight_bitsPerByte]
  by_cases h : value < 128
  · rw [if_pos (by omega), if_pos h, Nat.mod_eq_of_lt h]
  · rw [if_neg (by omega), if_neg h, or_continuationBit (by omega),
      packVarintLoop_fuel _ _ _ (by omega) (Nat.lt_succ_self (value / 128))]

theorem length_packVarint_pos (value : Nat) : 0 < (packVarint value).length := by
  rw [packVarint_eq]
  split <;> simp

theorem length_packVarint_le (k value : Nat) (h : value < 128 ^ (k + 1)) :
    (packVarint value).length ≤ k + 1 := by
  induction k generalizing value with
  | zero => rw [packVarint_eq, if_pos (by simpa using h)]; simp
  | succ k ih =>
    rw [packVarint_eq]
    split
    · simp
    · have : value / 128 < 128 ^ (k + 1) := by
        rw [Nat.div_lt_iff_lt_mul (by decide)]
        rwa [Nat.pow_succ] at h
      have := ih _ this
      simp only [List.length_cons]
      omega

/-! ## The reader on the writer's output -/

theorem and_continuationBit {n : Nat} (h : n < 256) : n &&& continuationBit = n / 128 * 128 := by
  have key : ∀ m : Fin 256, m.val &&& continuationBit = m.val / 128 * 128 := by decide +kernel
  exact key ⟨n, h⟩

theorem or_shiftLeft {value k n : Nat} (h : value < 2 ^ k) :
    value ||| n <<< k = value + n * 2 ^ k := by
  rw [Nat.or_comm, ← Nat.shiftLeft_add_eq_or_of_lt h, Nat.shiftLeft_eq, Nat.add_comm]

/-- One turn of the reader's loop at a byte that is there. -/
theorem unpackVarintLoop_cons (pre s : Bytes) (b : UInt8) {start offset acc : Nat}
    {offsets : List Nat} (hpre : pre.length = start + offset)
    (hacc : acc < 2 ^ (offset * bitsPerByte)) :
    unpackVarintLoop (pre ++ b :: s) start (offset :: offsets) acc =
      if b.toNat < 128 then
        .ok (acc + b.toNat * 2 ^ (offset * bitsPerByte), start + offset + 1)
      else
        unpackVarintLoop (pre ++ b :: s) start offsets
          (acc + b.toNat % 128 * 2 ^ (offset * bitsPerByte)) := by
  have hbyte : byteAt (pre ++ b :: s) (start + offset) = .ok b.toNat := by
    simpa [hpre] using byteAt_append_right pre (b :: s) 0
  have hb := b.toNat_lt
  rw [unpackVarintLoop, if_neg (by simp; omega), hbyte]
  simp only [bind, Except.bind, and_valueMask, or_shiftLeft hacc, and_continuationBit hb]
  by_cases h : b.toNat < 128
  · rw [if_pos (by omega), if_pos h, Nat.mod_eq_of_lt h]
    rfl
  · rw [if_neg (by omega), if_neg h]

/-- **Reading back a varint** at any offset of a larger buffer. -/
theorem unpackVarintLoop_packVarint (pre s : Bytes) (k value acc offset : Nat) {start : Nat}
    (hpre : pre.length = start + offset) (hk : value < 128 ^ (k + 1))
    (hacc : acc < 2 ^ (offset * bitsPerByte)) :
    unpackVarintLoop (pre ++ (packVarint value ++ s)) start (List.range' offset (k + 1)) acc =
      .ok (acc + value * 2 ^ (offset * bitsPerByte), pre.length + (packVarint value).length) := by
  induction k generalizing value acc offset pre with
  | zero =>
    have hv : value < 128 := by simpa using hk
    have ht : (UInt8.ofNat value).toNat = value := by simp; omega
    rw [packVarint_eq, if_pos hv, List.range'_succ, List.singleton_append,
      unpackVarintLoop_cons pre s _ hpre hacc, ht, if_pos hv, hpre]
    rfl
  | succ k ih =>
    rw [packVarint_eq, List.range'_succ]
    by_cases hv : value < 128
    · have ht : (UInt8.ofNat value).toNat = value := by simp; omega
      rw [if_pos hv, List.singleton_append, unpackVarintLoop_cons pre s _ hpre hacc, ht,
        if_pos hv, hpre]
      rfl
    · have ht : (UInt8.ofNat (value % 128 + 128)).toNat = value % 128 + 128 := by simp; omega
      have hpow : 2 ^ ((offset + 1) * bitsPerByte) = 2 ^ (offset * bitsPerByte) * 128 := by
        rw [Nat.add_mul, Nat.pow_add]; rfl
      have hlt : value / 128 < 128 ^ (k + 1) := by
        rw [Nat.div_lt_iff_lt_mul (by decide)]
        rwa [Nat.pow_succ] at hk
      have hdm := Nat.div_add_mod value 128
      rw [if_neg hv, List.cons_append, unpackVarintLoop_cons pre _ _ hpre hacc, ht,
        if_neg (by omega), List.append_cons]
      have hmod : (value % 128 + 128) % 128 = value % 128 := by omega
      rw [hmod, ih _ _ _ _ (by simp; omega) hlt]
      · congr 2
        · rw [hpow]
          generalize 2 ^ (offset * bitsPerByte) = m
          calc acc + value % 128 * m + value / 128 * (m * 128)
              = acc + (128 * (value / 128) + value % 128) * m := by
                rw [Nat.add_mul, Nat.mul_comm m, ← Nat.mul_assoc, Nat.mul_comm (value / 128)]; omega
            _ = acc + value * m := by rw [hdm]
        · simp; omega
      · have : value % 128 * 2 ^ (offset * bitsPerByte) ≤ 127 * 2 ^ (offset * bitsPerByte) :=
          Nat.mul_le_mul_right _ (by omega)
        rw [hpow]
        omega

theorem unpackVarint_packVarint {value : Nat} (h : value < 2 ^ 28) (p s : Bytes) :
    unpackVarint (p ++ (packVarint value ++ s)) p.length =
      .ok (value, p.length + (packVarint value).length) := by
  have := unpackVarintLoop_packVarint p s 3 value 0 0 rfl h (by simp)
  simpa [unpackVarint, maxBytes, List.range_eq_range'] using this

example : packVarint 300 = [0xac, 0x02] := by decide

/-! ## The reader in general -/

theorem unpackVarint_fails (data : Bytes) (start : Nat) :
    Fails (unpackVarint data start) .tuyaBleProtocolError := by
  suffices h : ∀ offsets value,
      Fails (unpackVarintLoop data start offsets value) .tuyaBleProtocolError from h _ _
  intro offsets
  induction offsets with
  | nil => intro value e he; cases he; rfl
  | cons offset offsets ih =>
    intro value e he
    rw [unpackVarintLoop] at he
    split at he
    · cases he; rfl
    · obtain ⟨b, hb, -⟩ := byteAt_isOk data (start + offset) (by omega)
      simp only [hb, bind, Except.bind] at he
      split at he
      · cases he
      · exact ih _ e he

end TuyaBle
