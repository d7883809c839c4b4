import Mathlib.Algebra.Group.Nat.Defs

/-!
# Big-endian integers

`toBytes n v` writes the low `8 * n` bits of `v`, most significant byte first;
`ofBytes` reads an unsigned value and `ofBytesSigned` a two's complement one.
-/

namespace BigEndian

def toBytes : Nat → Nat → List UInt8
  | 0, _ => []
  | n + 1, v => UInt8.ofNat (v / 256 ^ n) :: toBytes n v

def ofBytes (l : List UInt8) : Nat := l.foldl (fun v b => v * 256 + b.toNat) 0

def ofBytesSigned (l : List UInt8) : Int :=
  if l.headD 0 < 128 then (ofBytes l : Int) else (ofBytes l : Int) - (256 ^ l.length : Nat)

@[simp] theorem length_toBytes (n v : Nat) : (toBytes n v).length = n := by
  induction n with
  | zero => rfl
  | succ n ih => simp [toBytes, ih]

theorem foldl_toBytes (n v acc : Nat) :
    (toBytes n v).foldl (fun v b => v * 256 + b.toNat) acc = acc * 256 ^ n + v % 256 ^ n := by
  induction n generalizing acc with
  | zero => simp [toBytes, Nat.mod_one]
  | succ n ih =>
    have hd : v % 256 ^ (n + 1) = v / 256 ^ n % 256 * 256 ^ n + v % 256 ^ n := by
      rw [Nat.pow_succ, Nat.mod_mul, Nat.add_comm, Nat.mul_comm]
    have hb : (UInt8.ofNat (v / 256 ^ n)).toNat = v / 256 ^ n % 256 := UInt8.toNat_ofNat'
    rw [toBytes, List.foldl_cons, ih, hb, hd, Nat.add_mul, Nat.mul_assoc, Nat.pow_succ',
      Nat.add_assoc]

/-- **Reading back what was written.** -/
theorem ofBytes_toBytes {n v : Nat} (h : v < 256 ^ n) : ofBytes (toBytes n v) = v := by
  rw [ofBytes, foldl_toBytes, Nat.zero_mul, Nat.zero_add, Nat.mod_eq_of_lt h]

theorem foldl_ofBytes (l : List UInt8) (acc : Nat) :
    l.foldl (fun v b => v * 256 + b.toNat) acc = acc * 256 ^ l.length + ofBytes l := by
  induction l generalizing acc with
  | nil => simp [ofBytes]
  | cons b l ih =>
    rw [ofBytes, List.foldl_cons, List.foldl_cons, ih, ih (0 * 256 + b.toNat), List.length_cons,
      Nat.pow_succ']
    grind

theorem ofBytes_cons (b : UInt8) (l : List UInt8) :
    ofBytes (b :: l) = b.toNat * 256 ^ l.length + ofBytes l := by
  rw [ofBytes, List.foldl_cons, foldl_ofBytes, Nat.zero_mul, Nat.zero_add]

theorem ofBytes_lt {n : Nat} {l : List UInt8} (h : l.length = n) : ofBytes l < 256 ^ n := by
  subst h
  induction l with
  | nil => decide
  | cons b l ih =>
    have hb := b.toNat_lt
    rw [ofBytes_cons, List.length_cons, Nat.pow_succ]
    have : (b.toNat + 1) * 256 ^ l.length ≤ 256 * 256 ^ l.length := Nat.mul_le_mul_right _ hb
    grind

theorem toBytes_add (n v k : Nat) : toBytes n (k * 256 ^ n + v) = toBytes n v := by
  induction n generalizing k with
  | zero => rfl
  | succ n ih =>
    have hk : k * 256 ^ (n + 1) + v = k * 256 * 256 ^ n + v := by rw [Nat.pow_succ']; grind
    have hdiv : (k * 256 * 256 ^ n + v) / 256 ^ n = k * 256 + v / 256 ^ n := by
      rw [Nat.add_comm, Nat.add_mul_div_right _ _ (Nat.pow_pos (by decide)), Nat.add_comm]
    rw [toBytes, hk, hdiv, ih, toBytes]
    congr 1
    apply UInt8.toNat_inj.1
    rw [UInt8.toNat_ofNat', UInt8.toNat_ofNat']
    omega

/-- **Writing back what was read.** -/
theorem toBytes_ofBytes {n : Nat} {l : List UInt8} (h : l.length = n) :
    toBytes n (ofBytes l) = l := by
  subst h
  induction l with
  | nil => rfl
  | cons b l ih =>
    have hpos : 0 < 256 ^ l.length := Nat.pow_pos (by decide)
    have hdiv : (b.toNat * 256 ^ l.length + ofBytes l) / 256 ^ l.length = b.toNat := by
      rw [Nat.add_comm, Nat.add_mul_div_right _ _ hpos, Nat.div_eq_of_lt (ofBytes_lt rfl),
        Nat.zero_add]
    rw [List.length_cons, ofBytes_cons, toBytes, hdiv, toBytes_add, ih, UInt8.ofNat_toNat]

/-- **Reading back a signed value**, written as its remainder. -/
theorem ofBytesSigned_toBytes {k : Nat} {v : Int} (hlo : -((128 * 256 ^ k : Nat) : Int) ≤ v)
    (hhi : v < (128 * 256 ^ k : Nat)) :
    ofBytesSigned (toBytes (k + 1) (v % (256 ^ (k + 1) : Nat)).toNat) = v := by
  have hpos : 0 < 256 ^ k := Nat.pow_pos (by decide)
  have hpow : 256 ^ (k + 1) = 256 * 256 ^ k := Nat.pow_succ'
  have hlt : (v % (256 ^ (k + 1) : Nat)).toNat < 256 ^ (k + 1) := by
    have := Int.emod_lt_of_pos v (b := (256 ^ (k + 1) : Nat)) (by omega)
    omega
  have hhead : ((toBytes (k + 1) (v % (256 ^ (k + 1) : Nat)).toNat).headD 0 < 128) ↔
      (v % (256 ^ (k + 1) : Nat)).toNat < 128 * 256 ^ k := by
    have hdiv : (v % (256 ^ (k + 1) : Nat)).toNat / 256 ^ k < 256 := by
      rw [Nat.div_lt_iff_lt_mul hpos, ← hpow]
      exact hlt
    rw [toBytes, List.headD_cons, UInt8.lt_iff_toNat_lt, UInt8.toNat_ofNat', Nat.mod_eq_of_lt hdiv,
      ← Nat.div_lt_iff_lt_mul hpos]
    rfl
  unfold ofBytesSigned
  rw [ofBytes_toBytes hlt, length_toBytes]
  by_cases hv : 0 ≤ v
  · have hmod : v % (256 ^ (k + 1) : Nat) = v := Int.emod_eq_of_lt hv (by omega)
    rw [if_pos (hhead.2 (by omega)), hmod]
    omega
  · have hmod : v % (256 ^ (k + 1) : Nat) = v + (256 ^ (k + 1) : Nat) := by
      rw [← Int.add_emod_right, Int.emod_eq_of_lt (by omega) (by omega)]
    rw [if_neg (fun h => by have := hhead.1 h; omega), hmod]
    omega

end BigEndian
