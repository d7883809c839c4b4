import TuyaBle.Protocol.Varint

/-!
# What the varint reader accepts

A varint is a list of bytes whose last one alone has its top bit clear (`IsVarint`).
`unpackVarint` accepts exactly the varints of at most four bytes, wherever they stand
(`unpackVarint_eq_ok`); the writer gives back those that are not padded with a zero
(`packVarint_groupsValue`).
-/

namespace TuyaBle

inductive IsVarint : Bytes → Prop where
  | last {b : UInt8} (h : b.toNat < 128) : IsVarint [b]
  | more {b : UInt8} {l : Bytes} (h : 128 ≤ b.toNat) (hl : IsVarint l) : IsVarint (b :: l)

/-- The number the low seven bits of the bytes write, least significant first. -/
def groupsValue : Bytes → Nat
  | [] => 0
  | b :: l => b.toNat % 128 + 128 * groupsValue l

namespace IsVarint

theorem length_pos {l : Bytes} (h : IsVarint l) : 0 < l.length := by
  cases h <;> simp

/-- A varint is no proper beginning of another. -/
theorem eq_of_prefix {l m data : Bytes} (hl : IsVarint l) (hm : IsVarint m) (hld : l <+: data)
    (hmd : m <+: data) : l = m := by
  induction hl generalizing m data with
  | last hb =>
    obtain ⟨_, rfl⟩ := hld
    cases hm with
    | last _ => rw [(List.cons_prefix_cons.1 hmd).1]
    | more hc _ =>
      have heq := (List.cons_prefix_cons.1 hmd).1
      subst heq
      omega
  | more hb _ ih =>
    obtain ⟨_, rfl⟩ := hld
    cases hm with
    | last hc =>
      have heq := (List.cons_prefix_cons.1 hmd).1
      subst heq
      omega
    | more _ hm =>
      obtain ⟨rfl, htail⟩ := List.cons_prefix_cons.1 hmd
      rw [ih hm (List.prefix_append ..) htail]

/-- The varints at the beginning of a byte and what follows it. -/
theorem exists_prefix_cons {b : UInt8} {data : Bytes} {Q : Bytes → Prop} :
    (∃ l, IsVarint l ∧ l <+: b :: data ∧ Q l) ↔
      if b.toNat < 128 then Q [b] else ∃ l, IsVarint l ∧ l <+: data ∧ Q (b :: l) := by
  split
  · rename_i hlt
    constructor
    · rintro ⟨l, hl, hp, h⟩
      obtain rfl := hl.eq_of_prefix (.last hlt) hp (List.prefix_append [b] data)
      exact h
    · exact fun h => ⟨[b], .last hlt, List.prefix_append [b] data, h⟩
  · rename_i hge
    constructor
    · rintro ⟨l, hl, hp, h⟩
      cases hl with
      | last hb => exact absurd ((List.cons_prefix_cons.1 hp).1 ▸ hb) hge
      | more _ hl =>
        obtain ⟨rfl, htail⟩ := List.cons_prefix_cons.1 hp
        exact ⟨_, hl, htail, h⟩
    · rintro ⟨l, hl, hp, h⟩
      exact ⟨b :: l, .more (by omega) hl, List.cons_prefix_cons.2 ⟨rfl, hp⟩, h⟩

theorem groupsValue_lt {l : Bytes} (h : IsVarint l) : groupsValue l < 128 ^ l.length := by
  induction h with
  | last hb =>
    simp only [groupsValue, List.length_singleton]
    omega
  | more _ _ ih =>
    simp only [groupsValue, List.length_cons, Nat.pow_succ]
    omega

/-- The reader accepts a varint where the first byte with a clear top bit ends it. -/
theorem exists_of_getElem? {data : Bytes} {k : Nat} {b : UInt8} (hk : data[k]? = some b)
    (hb : b.toNat < 128) : ∃ l, IsVarint l ∧ l <+: data ∧ l.length ≤ k + 1 := by
  induction k generalizing data with
  | zero =>
    cases data with
    | nil => cases hk
    | cons c data =>
      obtain rfl := Option.some.inj hk
      exact ⟨[c], .last hb, List.prefix_append [c] data, Nat.le_refl _⟩
  | succ k ih =>
    cases data with
    | nil => cases hk
    | cons c data =>
      by_cases hc : c.toNat < 128
      · exact ⟨[c], .last hc, List.prefix_append [c] data, by simp⟩
      · obtain ⟨l, hl, hp, hlen⟩ := ih (by simpa using hk)
        exact ⟨c :: l, .more (by omega) hl, List.cons_prefix_cons.2 ⟨rfl, hp⟩, by simpa using hlen⟩

/-- The bytes before the last continue, and the last does not. -/
theorem getElem? {l : Bytes} (h : IsVarint l) :
    (∀ j, j + 1 < l.length → ∃ b, l[j]? = some b ∧ 128 ≤ b.toNat) ∧
      ∃ b, l[l.length - 1]? = some b ∧ b.toNat < 128 := by
  induction h with
  | last hb => exact ⟨fun j hj => by simp at hj, _, rfl, hb⟩
  | @more b l hb hl ih =>
    have hpos := hl.length_pos
    constructor
    · intro j hj
      cases j with
      | zero => exact ⟨b, rfl, hb⟩
      | succ j => simpa using ih.1 j (by simpa using hj)
    · obtain ⟨c, hc, hlt⟩ := ih.2
      refine ⟨c, ?_, hlt⟩
      rw [List.length_cons, Nat.add_sub_cancel, show l.length = l.length - 1 + 1 by omega,
        List.getElem?_cons_succ]
      exact hc

end IsVarint

/-! ## The writer -/

theorem isVarint_packVarint (value : Nat) : IsVarint (packVarint value) := by
  induction value using Nat.strongRecOn with
  | ind value ih =>
    rw [packVarint_eq]
    split
    · exact .last (by simp; omega)
    · exact .more (by simp; omega) (ih _ (by omega))

theorem groupsValue_packVarint (value : Nat) : groupsValue (packVarint value) = value := by
  induction value using Nat.strongRecOn with
  | ind value ih =>
    rw [packVarint_eq]
    split
    · simp only [groupsValue, UInt8.toNat_ofNat']
      omega
    · simp only [groupsValue, UInt8.toNat_ofNat', ih (value / 128) (by omega)]
      omega

/-- A varint of value zero ends in a zero. -/
theorem IsVarint.getLast?_of_eq_zero {l : Bytes} (h : IsVarint l) (hv : groupsValue l = 0) :
    l.getLast? = some 0 := by
  induction h with
  | @last b hb =>
    have hzero : b.toNat = (0 : UInt8).toNat := by
      simp only [groupsValue] at hv
      simp
      omega
    rw [UInt8.toNat_inj.1 hzero]
    rfl
  | @more b l _ hl ih =>
    simp only [groupsValue] at hv
    have hne : l ≠ [] := List.ne_nil_of_length_pos hl.length_pos
    rw [List.getLast?_cons_of_ne_nil hne, ih (by omega)]

/-- **Writing back what was read** gives the same bytes unless they are padded. -/
theorem packVarint_groupsValue {l : Bytes} (h : IsVarint l) :
    packVarint (groupsValue l) = l ↔ l.length = 1 ∨ l.getLast? ≠ some 0 := by
  induction h with
  | @last b hb =>
    have hv : groupsValue [b] = b.toNat := by
      simp only [groupsValue]
      omega
    rw [hv, packVarint_eq, if_pos hb]
    simp
  | @more b l hb hl ih =>
    have hpos := hl.length_pos
    have hlt := b.toNat_lt
    have hlast : (b :: l).getLast? = l.getLast? :=
      List.getLast?_cons_of_ne_nil (List.ne_nil_of_length_pos hpos)
    have hlen : (b :: l).length ≠ 1 := by
      rw [List.length_cons]
      omega
    rw [groupsValue, packVarint_eq, hlast]
    by_cases hzero : groupsValue l = 0
    · -- nothing but padding follows: the writer stops at the first byte
      rw [if_pos (by omega), hl.getLast?_of_eq_zero hzero]
      constructor
      · intro heq
        exact absurd (congrArg List.length heq).symm hlen
      · rintro (h | h)
        · exact absurd h hlen
        · exact absurd rfl h
    · have hbyte : UInt8.ofNat ((b.toNat % 128 + 128 * groupsValue l) % 128 + 128) = b := by
        apply UInt8.toNat_inj.1
        rw [UInt8.toNat_ofNat']
        omega
      have hdiv : (b.toNat % 128 + 128 * groupsValue l) / 128 = groupsValue l := by omega
      rw [if_neg (by omega), hbyte, hdiv, List.cons.injEq, ih]
      constructor
      · rintro ⟨-, hone | hne⟩
        · right
          intro hend
          obtain ⟨c, rfl⟩ := List.length_eq_one_iff.1 hone
          obtain rfl : c = 0 := by simpa using hend
          exact hzero rfl
        · exact .inr hne
      · rintro (h | h)
        · exact absurd h hlen
        · exact ⟨rfl, .inr h⟩

/-! ## The reader -/

/-- One turn of the reader's loop. -/
theorem unpackVarintLoop_of_getElem? {data : Bytes} {start offset acc : Nat} {b : UInt8}
    (offsets : List Nat) (hb : data[start + offset]? = some b)
    (hacc : acc < 2 ^ (offset * bitsPerByte)) :
    unpackVarintLoop data start (offset :: offsets) acc =
      if b.toNat < 128 then
        .ok (acc + b.toNat * 2 ^ (offset * bitsPerByte), start + offset + 1)
      else
        unpackVarintLoop data start offsets
          (acc + b.toNat % 128 * 2 ^ (offset * bitsPerByte)) := by
  obtain ⟨hlt, hget⟩ := List.getElem?_eq_some_iff.1 hb
  have hsplit : data = data.take (start + offset) ++ b :: data.drop (start + offset + 1) := by
    rw [← hget, List.getElem_cons_drop, List.take_append_drop]
  have hlength : (data.take (start + offset)).length = start + offset := by
    rw [List.length_take]
    omega
  rw [hsplit]
  exact unpackVarintLoop_cons _ _ _ hlength hacc

theorem unpackVarintLoop_eq_ok {data : Bytes} {start value stop : Nat} (n offset acc : Nat)
    (hacc : acc < 2 ^ (offset * bitsPerByte)) :
    unpackVarintLoop data start (List.range' offset n) acc = .ok (value, stop) ↔
      ∃ l, IsVarint l ∧ l <+: data.drop (start + offset) ∧ l.length ≤ n ∧
        value = acc + groupsValue l * 2 ^ (offset * bitsPerByte) ∧
        stop = start + offset + l.length := by
  induction n generalizing offset acc with
  | zero =>
    constructor
    · intro h
      cases h
    · rintro ⟨l, hl, -, hlen, -⟩
      exact absurd hl.length_pos (by omega)
  | succ n ih =>
    rw [List.range'_succ]
    cases hb : data[start + offset]? with
    | none =>
      have hle := List.getElem?_eq_none_iff.1 hb
      constructor
      · intro h
        rw [unpackVarintLoop, if_pos hle] at h
        cases h
      · rintro ⟨l, hl, hp, -⟩
        rw [List.drop_eq_nil_of_le hle] at hp
        rw [List.prefix_nil.1 hp] at hl
        cases hl
    | some b =>
      have hdrop : data.drop (start + offset) = b :: data.drop (start + (offset + 1)) := by
        obtain ⟨hlt, rfl⟩ := List.getElem?_eq_some_iff.1 hb
        exact (List.getElem_cons_drop ..).symm
      have hpow : 2 ^ ((offset + 1) * bitsPerByte) = 2 ^ (offset * bitsPerByte) * 128 := by
        rw [Nat.add_mul, Nat.pow_add]
        rfl
      rw [unpackVarintLoop_of_getElem? _ hb hacc, hdrop, IsVarint.exists_prefix_cons]
      split
      · rename_i hlt
        have hone : groupsValue [b] = b.toNat := by
          simp only [groupsValue]
          omega
        rw [hone]
        constructor
        · intro h
          cases h
          exact ⟨by simp, rfl, rfl⟩
        · rintro ⟨-, rfl, rfl⟩
          rfl
      · have hmul : b.toNat % 128 * 2 ^ (offset * bitsPerByte) ≤
            127 * 2 ^ (offset * bitsPerByte) := Nat.mul_le_mul_right _ (by omega)
        rw [ih (offset + 1) _ (by rw [hpow]; omega)]
        refine exists_congr fun l => and_congr_right fun _ => and_congr_right fun _ => ?_
        have hvalue : acc + b.toNat % 128 * 2 ^ (offset * bitsPerByte) +
            groupsValue l * 2 ^ ((offset + 1) * bitsPerByte) =
              acc + groupsValue (b :: l) * 2 ^ (offset * bitsPerByte) := by
          rw [hpow, groupsValue, Nat.add_mul, Nat.add_assoc, Nat.mul_comm 128, Nat.mul_assoc,
            Nat.mul_comm 128]
        rw [hvalue, List.length_cons]
        omega

/-- **The reader accepts exactly the varints of at most four bytes.** -/
theorem unpackVarint_eq_ok {data : Bytes} {start value stop : Nat} :
    unpackVarint data start = .ok (value, stop) ↔
      ∃ l, IsVarint l ∧ l <+: data.drop start ∧ l.length ≤ maxBytes ∧ value = groupsValue l ∧
        stop = start + l.length := by
  rw [unpackVarint, List.range_eq_range', unpackVarintLoop_eq_ok maxBytes 0 0 (by decide)]
  simp only [Nat.add_zero, Nat.zero_mul, Nat.pow_zero, Nat.mul_one, Nat.zero_add]

/-- The reader on the writer's output, a number of any size. -/
theorem unpackVarint_packVarint_eq_ok {p s : Bytes} {v value stop : Nat} :
    unpackVarint (p ++ packVarint v ++ s) p.length = .ok (value, stop) ↔
      v < 2 ^ 28 ∧ value = v ∧ stop = p.length + (packVarint v).length := by
  have hdrop : (p ++ packVarint v ++ s).drop p.length = packVarint v ++ s := by
    rw [List.append_assoc, List.drop_left]
  rw [unpackVarint_eq_ok, hdrop]
  constructor
  · rintro ⟨l, hl, hp, hlen, rfl, rfl⟩
    obtain rfl := hl.eq_of_prefix (isVarint_packVarint v) hp (List.prefix_append ..)
    have hlt := hl.groupsValue_lt
    rw [groupsValue_packVarint] at hlt ⊢
    exact ⟨Nat.lt_of_lt_of_le hlt (Nat.pow_le_pow_right (by decide) hlen), rfl, rfl⟩
  · rintro ⟨hlt, rfl, rfl⟩
    exact ⟨packVarint value, isVarint_packVarint value, List.prefix_append ..,
      length_packVarint_le 3 value hlt, (groupsValue_packVarint value).symm, rfl⟩

/-! ## Positions -/

/-- The bytes at `start` to `start + k` are there, and the last of them alone has its top bit
clear. -/
def EndsAfter (data : Bytes) (start k : Nat) : Prop :=
  (∀ j < k, ∃ b, data[start + j]? = some b ∧ 128 ≤ b.toNat) ∧
    ∃ b, data[start + k]? = some b ∧ b.toNat < 128

section
variable {data l : Bytes} {start : Nat}

theorem getElem?_of_prefix_drop (h : l <+: data.drop start) {j : Nat} (hj : j < l.length) :
    data[start + j]? = l[j]? := by
  obtain ⟨rest, hrest⟩ := h
  rw [← List.getElem?_drop, ← hrest, List.getElem?_append_left hj]

theorem slice_of_prefix_drop (h : l <+: data.drop start) :
    slice data start (start + l.length) = l := by
  rw [slice, Nat.add_sub_cancel_left]
  exact (List.prefix_iff_eq_take.1 h).symm

theorem IsVarint.endsAfter (hl : IsVarint l) (h : l <+: data.drop start) :
    EndsAfter data start (l.length - 1) := by
  have hpos := hl.length_pos
  obtain ⟨hmore, hlast⟩ := hl.getElem?
  constructor
  · intro j hj
    rw [getElem?_of_prefix_drop h (by omega)]
    exact hmore j (by omega)
  · rw [getElem?_of_prefix_drop h (by omega)]
    exact hlast

/-- The writer gives back the bytes that were read unless they are padded. -/
theorem packVarint_eq_slice_iff (hl : IsVarint l) (hp : l <+: data.drop start) :
    packVarint (groupsValue l) = slice data start (start + l.length) ↔
      start + l.length = start + 1 ∨ ∃ b, data[start + l.length - 1]? = some b ∧ b ≠ 0 := by
  have hpos := hl.length_pos
  have hlast : data[start + l.length - 1]? = l.getLast? := by
    rw [Nat.add_sub_assoc hpos, getElem?_of_prefix_drop hp (by omega), List.getLast?_eq_getElem?]
  obtain ⟨c, hc, -⟩ := hl.getElem?.2
  rw [slice_of_prefix_drop hp, packVarint_groupsValue hl, hlast, List.getLast?_eq_getElem?, hc]
  constructor
  · rintro (hone | hne)
    · exact .inl (by omega)
    · exact .inr ⟨c, rfl, fun h => hne (h ▸ rfl)⟩
  · rintro (hone | ⟨b, hb, hne⟩)
    · exact .inl (by omega)
    · exact .inr (hb ▸ fun h => hne (Option.some.inj h))

theorem unpackVarint_isOk_iff :
    (∃ value stop, unpackVarint data start = .ok (value, stop)) ↔
      ∃ k < maxBytes, ∃ b, data[start + k]? = some b ∧ b.toNat < 128 := by
  constructor
  · rintro ⟨value, stop, h⟩
    obtain ⟨l, hl, hp, hlen, -, -⟩ := unpackVarint_eq_ok.1 h
    have hpos := hl.length_pos
    exact ⟨l.length - 1, by omega, (hl.endsAfter hp).2⟩
  · rintro ⟨k, hk, b, hb, hlt⟩
    obtain ⟨l, hl, hp, hlen⟩ := IsVarint.exists_of_getElem? (List.getElem?_drop ▸ hb) hlt
    exact ⟨_, _, unpackVarint_eq_ok.2 ⟨l, hl, hp, by omega, rfl, rfl⟩⟩

end

/-- **The codec of variable-length integers**: the reader inverts the writer below `2 ^ 28` and
refuses what is larger; it reads any varint of at most four bytes, and the writer gives back
the bytes of the unpadded ones. -/
theorem varint_codec :
    (∀ value p s,
      if value < 2 ^ 28 then
        unpackVarint (p ++ packVarint value ++ s) p.length =
          .ok (value, p.length + (packVarint value).length)
      else
        ∃ e, unpackVarint (p ++ packVarint value ++ s) p.length = .error e ∧
          e.type = .tuyaBleProtocolError) ∧
    ∀ data start,
      ((∃ value stop, unpackVarint data start = .ok (value, stop)) ↔
        ∃ k < maxBytes, ∃ b, data[start + k]? = some b ∧ b.toNat < 128) ∧
      (∀ value stop, unpackVarint data start = .ok (value, stop) →
        value < 2 ^ 28 ∧
        (∃ k < maxBytes, EndsAfter data start k ∧ stop = start + k + 1) ∧
        (packVarint value = slice data start stop ↔
          stop = start + 1 ∨ ∃ b, data[stop - 1]? = some b ∧ b ≠ 0)) ∧
      Fails (unpackVarint data start) .tuyaBleProtocolError := by
  constructor
  · intro value p s
    split
    · rename_i hlt
      exact unpackVarint_packVarint_eq_ok.2 ⟨hlt, rfl, rfl⟩
    · rename_i hge
      cases hread : unpackVarint (p ++ packVarint value ++ s) p.length with
      | error e => exact ⟨e, rfl, unpackVarint_fails _ _ e hread⟩
      | ok result => exact absurd (unpackVarint_packVarint_eq_ok.1 hread).1 hge
  · intro data start
    refine ⟨unpackVarint_isOk_iff, fun value stop h => ?_, unpackVarint_fails data start⟩
    obtain ⟨l, hl, hp, hlen, rfl, rfl⟩ := unpackVarint_eq_ok.1 h
    have hpos := hl.length_pos
    have hvalue : groupsValue l < 2 ^ 28 :=
      Nat.lt_of_lt_of_le hl.groupsValue_lt (Nat.pow_le_pow_right (by decide) hlen)
    exact ⟨hvalue, ⟨l.length - 1, by omega, hl.endsAfter hp, by omega⟩,
      packVarint_eq_slice_iff hl hp⟩

end TuyaBle
