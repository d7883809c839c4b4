import Mathlib.Data.Nat.Bitwise

/-!
# Cyclic redundancy checks, least significant bit first

A register is shifted down one place at a time, `poly` being added when a one falls out;
each value of a message is added at the low end before as many shifts as it has bits.
Shifting is linear in exclusive or, so a message as a whole is one number shifted once for
each of its bits (`absorb_eq`), and two messages of one length leave registers that differ
by their difference alone. `shifts_ne_zero` says which differences no shifting hides.
-/

namespace Crc

/-- One shift of the register. -/
def shift (poly register : Nat) : Nat :=
  if register &&& 1 = 0 then register >>> 1 else register >>> 1 ^^^ poly

def shifts (poly n register : Nat) : Nat := Nat.repeat (shift poly) n register

/-- The register after a message of values of `k` bits. -/
def absorb (poly k register : Nat) (message : List Nat) : Nat :=
  message.foldl (fun register value => shifts poly k (register ^^^ value)) register

/-- The message as one number, its first value lowest. -/
def pack (k : Nat) : List Nat → Nat
  | [] => 0
  | value :: message => value ^^^ pack k message <<< k

variable {poly : Nat}

theorem and_one_eq_zero {x : Nat} : x &&& 1 = 0 ↔ x.testBit 0 = false := by
  rw [Nat.and_one_is_mod, Nat.testBit_zero]
  simp

@[simp] theorem shift_zero : shift poly 0 = 0 := rfl

/-- **Shifting is linear.** -/
theorem shift_xor (x y : Nat) : shift poly (x ^^^ y) = shift poly x ^^^ shift poly y := by
  simp only [shift, and_one_eq_zero, Nat.testBit_xor, Nat.shiftRight_xor_distrib]
  cases hx : x.testBit 0 <;> cases hy : y.testBit 0 <;> simp
  · rw [Nat.xor_assoc]
  · rw [Nat.xor_assoc, Nat.xor_assoc, Nat.xor_comm poly]
  · rw [Nat.xor_assoc, Nat.xor_left_comm poly, Nat.xor_self, Nat.xor_zero]

theorem shift_shiftLeft_one (x : Nat) : shift poly (x <<< 1) = x := by
  have h : x <<< 1 &&& 1 = 0 := and_one_eq_zero.2 (by simp)
  rw [shift, if_pos h, Nat.shiftLeft_shiftRight]

theorem shifts_succ (n x : Nat) : shifts poly (n + 1) x = shift poly (shifts poly n x) := rfl

theorem shifts_add (m n x : Nat) : shifts poly (m + n) x = shifts poly m (shifts poly n x) := by
  induction m with
  | zero => rw [Nat.zero_add]; rfl
  | succ m ih => rw [Nat.succ_add, shifts_succ, ih, shifts_succ]

theorem shifts_xor (n x y : Nat) :
    shifts poly n (x ^^^ y) = shifts poly n x ^^^ shifts poly n y := by
  induction n with
  | zero => rfl
  | succ n ih => rw [shifts_succ, ih, shift_xor, shifts_succ, shifts_succ]

/-- A number that stands `n` places up comes down unchanged. -/
theorem shifts_shiftLeft (n x : Nat) : shifts poly n (x <<< n) = x := by
  induction n generalizing x with
  | zero => rfl
  | succ n ih =>
    rw [Nat.add_comm, Nat.shiftLeft_add, shifts_add, ih, shifts_succ]
    exact shift_shiftLeft_one x

/-- **A message is one number**, shifted once for each of its bits. -/
theorem absorb_eq (k register : Nat) (message : List Nat) :
    absorb poly k register message =
      shifts poly (message.length * k) (register ^^^ pack k message) := by
  induction message generalizing register with
  | nil => simp [absorb, pack, shifts, Nat.repeat]
  | cons value message ih =>
    have hstep : absorb poly k register (value :: message) =
        absorb poly k (shifts poly k (register ^^^ value)) message := rfl
    rw [hstep, ih, List.length_cons, Nat.succ_mul, shifts_add, pack, ← Nat.xor_assoc,
      shifts_xor k (register ^^^ value), shifts_shiftLeft]

/-- Two messages of one length leave registers that differ by their difference, shifted. -/
theorem absorb_xor (k register : Nat) {message message' : List Nat}
    (hlen : message'.length = message.length) :
    absorb poly k register message ^^^ absorb poly k register message' =
      shifts poly (message.length * k) (pack k message ^^^ pack k message') := by
  rw [absorb_eq, absorb_eq, hlen, ← shifts_xor]
  congr 1
  rw [Nat.xor_assoc, Nat.xor_left_comm (pack k message), ← Nat.xor_assoc, Nat.xor_self,
    Nat.zero_xor]

/-! ## The bits of a message -/

theorem testBit_pack_cons {k value : Nat} (hv : value < 2 ^ k) (message : List Nat) (i : Nat) :
    (pack k (value :: message)).testBit i =
      if i < k then value.testBit i else (pack k message).testBit (i - k) := by
  rw [pack, Nat.testBit_xor, Nat.testBit_shiftLeft]
  split
  · have hge : ¬ k ≤ i := by omega
    simp [hge]
  · rename_i hi
    have hge : k ≤ i := by omega
    have hhigh : value.testBit i = false :=
      Nat.testBit_lt_two_pow (Nat.lt_of_lt_of_le hv (Nat.pow_le_pow_right (by decide) hge))
    simp [hge, hhigh]

/-- Bit `i` of a message is bit `i % k` of its value `i / k`. -/
theorem testBit_pack {k : Nat} (hk : 0 < k) {message : List Nat}
    (hm : ∀ value ∈ message, value < 2 ^ k) (i : Nat) :
    (pack k message).testBit i = (message[i / k]?.getD 0).testBit (i % k) := by
  induction message generalizing i with
  | nil => simp [pack]
  | cons value message ih =>
    rw [testBit_pack_cons (hm value List.mem_cons_self)]
    split
    · rename_i hi
      rw [Nat.div_eq_of_lt hi, Nat.mod_eq_of_lt hi]
      rfl
    · rename_i hi
      have hge : k ≤ i := by omega
      rw [ih fun v hv => hm v (List.mem_cons_of_mem _ hv), Nat.div_eq_sub_div hk hge,
        Nat.mod_eq_sub_mod hge]
      rfl

theorem pack_inj {k : Nat} (hk : 0 < k) {message message' : List Nat}
    (hm : ∀ value ∈ message, value < 2 ^ k) (hm' : ∀ value ∈ message', value < 2 ^ k)
    (hlen : message'.length = message.length) (h : pack k message = pack k message') :
    message = message' := by
  apply List.ext_getElem hlen.symm
  intro j hj hj'
  apply Nat.eq_of_testBit_eq
  intro i
  by_cases hi : i < k
  · have hbit := congrArg (fun n => n.testBit (k * j + i)) h
    simp only [testBit_pack hk hm, testBit_pack hk hm', Nat.mul_add_div hk, Nat.div_eq_of_lt hi,
      Nat.mul_add_mod, Nat.mod_eq_of_lt hi, Nat.add_zero, List.getElem?_eq_getElem hj,
      List.getElem?_eq_getElem hj', Option.getD_some] at hbit
    exact hbit
  · have hpow : 2 ^ k ≤ 2 ^ i := Nat.pow_le_pow_right (by decide) (by omega)
    rw [Nat.testBit_lt_two_pow (Nat.lt_of_lt_of_le (hm _ (List.getElem_mem hj)) hpow),
      Nat.testBit_lt_two_pow (Nat.lt_of_lt_of_le (hm' _ (List.getElem_mem hj')) hpow)]

/-! ## Bursts -/

variable {w : Nat}

theorem shift_lt (hpoly : poly < 2 ^ (w + 1)) {x : Nat} (hx : x < 2 ^ (w + 1)) :
    shift poly x < 2 ^ (w + 1) := by
  have hs : x >>> 1 < 2 ^ (w + 1) := by rw [Nat.shiftRight_eq_div_pow]; omega
  unfold shift
  split
  · exact hs
  · exact Nat.xor_lt_two_pow hs hpoly

/-- A register is not shifted to zero: what falls out puts in the top bit. -/
theorem shift_ne_zero (htop : poly.testBit w = true) {x : Nat} (hx : x < 2 ^ (w + 1))
    (h0 : x ≠ 0) : shift poly x ≠ 0 := by
  unfold shift
  split
  · rename_i heven
    rw [Nat.and_one_is_mod] at heven
    rw [Nat.shiftRight_eq_div_pow]
    omega
  · intro hz
    have hlow : (x >>> 1).testBit w = false := by
      apply Nat.testBit_lt_two_pow
      rw [Nat.shiftRight_eq_div_pow, Nat.pow_one]
      rw [Nat.pow_succ] at hx
      omega
    have hbit := congrArg (fun n => n.testBit w) hz
    simp [Nat.testBit_xor, hlow, htop] at hbit

section
variable (hpoly : poly < 2 ^ (w + 1)) (htop : poly.testBit w = true)
include hpoly htop

theorem shifts_ne_zero_of_lt (n : Nat) {x : Nat} (hx : x < 2 ^ (w + 1)) (h0 : x ≠ 0) :
    shifts poly n x < 2 ^ (w + 1) ∧ shifts poly n x ≠ 0 := by
  induction n with
  | zero => exact ⟨hx, h0⟩
  | succ n ih => exact ⟨shift_lt hpoly ih.1, shift_ne_zero htop ih.1 ih.2⟩

/-- A burst no longer than the register is not shifted to zero. -/
theorem shifts_ne_zero {n start d : Nat} (hstart : start ≤ n) (h0 : d ≠ 0)
    (hd : ∀ i, d.testBit i = true → start ≤ i ∧ i < start + (w + 1)) :
    shifts poly n d ≠ 0 := by
  have hsplit : (d >>> start) <<< start = d := by
    apply Nat.eq_of_testBit_eq
    intro i
    rw [Nat.testBit_shiftLeft, Nat.testBit_shiftRight]
    by_cases hi : start ≤ i
    · simp [hi, Nat.add_sub_cancel' hi]
    · cases hb : d.testBit i with
      | false => simp [hi]
      | true => exact absurd (hd i hb).1 hi
  have hlt : d >>> start < 2 ^ (w + 1) := by
    apply Nat.lt_pow_two_of_testBit
    intro i hi
    rw [Nat.testBit_shiftRight]
    cases hb : d.testBit (start + i) with
    | false => rfl
    | true => have := (hd _ hb).2; omega
  have hne : d >>> start ≠ 0 := by
    intro hz
    rw [hz, Nat.zero_shiftLeft] at hsplit
    exact h0 hsplit.symm
  have hn : shifts poly n d = shifts poly (n - start) (d >>> start) := by
    conv => lhs; rw [← hsplit, ← Nat.sub_add_cancel hstart, shifts_add, shifts_shiftLeft]
  rw [hn]
  exact (shifts_ne_zero_of_lt hpoly htop _ hlt hne).2

/-- **Burst detection**: two messages of one length whose difference is not longer than the
register leave different registers. -/
theorem absorb_ne {k : Nat} (hk : 0 < k) (register : Nat) {message message' : List Nat}
    (hm : ∀ value ∈ message, value < 2 ^ k) (hm' : ∀ value ∈ message', value < 2 ^ k)
    (hlen : message'.length = message.length) (hne : message ≠ message') {start : Nat}
    (hburst : ∀ i, (pack k message).testBit i ≠ (pack k message').testBit i →
      start ≤ i ∧ i < start + (w + 1)) :
    absorb poly k register message ≠ absorb poly k register message' := by
  intro he
  have hzero : shifts poly (message.length * k) (pack k message ^^^ pack k message') = 0 := by
    rw [← absorb_xor k register hlen, he, Nat.xor_self]
  have hd : pack k message ^^^ pack k message' ≠ 0 := fun hz =>
    hne (pack_inj hk hm hm' hlen (Nat.xor_eq_zero_iff.1 hz))
  have hbits : ∀ i, (pack k message ^^^ pack k message').testBit i = true →
      start ≤ i ∧ i < start + (w + 1) := by
    intro i hi
    apply hburst
    rw [Nat.testBit_xor] at hi
    exact fun heq => by simp [heq] at hi
  have hstart : start ≤ message.length * k := by
    obtain ⟨i, hi⟩ := Nat.exists_testBit_of_ne_zero hd
    have hrange : i / k < message.length := by
      apply Nat.lt_of_not_le
      intro hge
      rw [Nat.testBit_xor, testBit_pack hk hm, testBit_pack hk hm', List.getElem?_eq_none hge,
        List.getElem?_eq_none (hlen ▸ hge)] at hi
      simp at hi
    exact Nat.le_trans (hbits i hi).1 (Nat.le_of_lt ((Nat.div_lt_iff_lt_mul hk).1 hrange))
  exact shifts_ne_zero hpoly htop hstart hd hbits hzero

end

end Crc
