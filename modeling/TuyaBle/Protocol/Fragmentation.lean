import TuyaBle.Protocol.Frame
import TuyaBle.Protocol.Reassembler
import TuyaBle.Lib.Receiver

/-!
# Fragmentation round trip

`buildPackets` cuts a payload into chunks behind headers the reassembler reads back: from
any state, an abandoned or refused frame included, the packets yield the payload.
-/

namespace TuyaBle

/-- The header of the fragment `index`. -/
def headerOf (length protocolVersion index : Nat) : Bytes :=
  if index = 0 then
    packVarint 0 ++ packVarint length ++ [UInt8.ofNat (protocolVersion <<< protocolVersionShift)]
  else packVarint index

/-- Fragments that carry `chunks`, numbered from `index`. -/
def fragments (length protocolVersion : Nat) : Nat → List Bytes → List Bytes
  | _, [] => []
  | index, chunk :: chunks =>
    (headerOf length protocolVersion index ++ chunk) ::
      fragments length protocolVersion (index + 1) chunks

theorem length_fragments (length protocolVersion index : Nat) (chunks : List Bytes) :
    (fragments length protocolVersion index chunks).length = chunks.length := by
  induction chunks generalizing index with
  | nil => rfl
  | cons chunk chunks ih => simp [fragments, ih]

/-- The number of bytes a header takes, an index or a length being below `2 ^ 28`. -/
theorem length_headerOf (length protocolVersion index : Nat) (hl : length < 2 ^ 28)
    (hi : index < 2 ^ 28) :
    0 < (headerOf length protocolVersion index).length ∧
      (headerOf length protocolVersion index).length ≤ 6 := by
  have h0 := length_packVarint_le 0 0 (by decide)
  have hl' := length_packVarint_le 3 length hl
  have hi' := length_packVarint_le 3 index hi
  have hip := length_packVarint_pos index
  unfold headerOf
  split
  · simp only [List.length_append, List.length_singleton]; omega
  · omega

theorem fragmentHeader_eq {payload : Bytes} {protocolVersion : Nat} (hv : protocolVersion < 16)
    (index : Nat) :
    fragmentHeader payload protocolVersion index =
      .ok (headerOf payload.length protocolVersion index) := by
  have hs : protocolVersion <<< protocolVersionShift < 256 ^ 1 := by
    rw [Nat.shiftLeft_eq]; unfold protocolVersionShift; omega
  unfold fragmentHeader headerOf
  split
  · rename_i h
    subst h
    simp only [packUnsigned_ok hs, bind, Except.bind, pure, Except.pure, BigEndian.toBytes]
    simp
  · rfl

/-- The first version too wide for its byte. -/
theorem fragmentHeader_fails (payload : Bytes) {protocolVersion : Nat} (hv : 16 ≤ protocolVersion) :
    ∃ e, fragmentHeader payload protocolVersion 0 = .error e := by
  have hs : ¬ protocolVersion <<< protocolVersionShift < 256 ^ 1 := by
    rw [Nat.shiftLeft_eq]; unfold protocolVersionShift; omega
  simp only [fragmentHeader, packUnsigned, if_neg hs, raise, bind, Except.bind, ↓reduceIte]
  exact ⟨_, rfl⟩

/-- A protocol version that does not fit its half byte fails the first fragment. -/
theorem buildPackets_fails {payload : Bytes} {protocolVersion : Nat} (hv : 16 ≤ protocolVersion)
    (hpos : 1 ≤ payload.length) : ∃ e, buildPackets payload protocolVersion = some (.error e) := by
  obtain ⟨e, he⟩ := fragmentHeader_fails payload hv
  exact ⟨e, by rw [buildPackets, buildPacketsLoop, if_pos (Nat.lt_of_succ_le hpos), he]⟩

/-- What the loop emits from any position on. -/
theorem buildPacketsLoop_eq {payload : Bytes} {protocolVersion : Nat} (hv : protocolVersion < 16)
    (hl : payload.length < 2 ^ 28) (fuel position index : Nat)
    (hf : payload.length < fuel + position) (hp : position ≤ payload.length) (hi : index ≤ position)
    (packets : List Bytes) :
    ∃ chunks, buildPacketsLoop payload protocolVersion fuel position index packets =
        some (.ok (packets ++ fragments payload.length protocolVersion index chunks)) ∧
      chunks.flatten = payload.drop position ∧ (∀ chunk ∈ chunks, chunk ≠ []) ∧
      ∀ packet ∈ fragments payload.length protocolVersion index chunks,
        packet.length ≤ gattMtu := by
  induction fuel generalizing position index packets with
  | zero => omega
  | succ fuel ih =>
    by_cases hlt : position < payload.length
    · obtain ⟨hh0, hh⟩ := length_headerOf payload.length protocolVersion index hl (by omega)
      simp only [buildPacketsLoop, if_pos hlt, fragmentHeader_eq hv]
      generalize hheader : headerOf payload.length protocolVersion index = header at hh0 hh ⊢
      have hstop : position + gattMtu - header.length - position = gattMtu - header.length := by
        unfold gattMtu; omega
      have hchunk : slice payload position (position + gattMtu - header.length) <+:
          payload.drop position := List.take_prefix ..
      have hlen : (slice payload position (position + gattMtu - header.length)).length =
          min (gattMtu - header.length) (payload.length - position) := by
        rw [length_slice, hstop]
      generalize slice payload position (position + gattMtu - header.length) = chunk
        at hchunk hlen ⊢
      have hmtu : gattMtu = 20 := rfl
      obtain ⟨chunks, he, hflat, hne, hle⟩ := ih (position + chunk.length) (index + 1)
        (by omega) (by omega) (by omega) (packets ++ [header ++ chunk])
      refine ⟨chunk :: chunks, ?_, ?_, ?_, ?_⟩
      · rw [he, fragments, hheader]
        simp
      · rw [List.flatten_cons, hflat, ← List.drop_drop]
        exact (List.prefix_iff_eq_append.1 hchunk)
      · intro c hc
        rcases List.mem_cons.1 hc with rfl | hc
        · exact List.length_pos_iff.1 (by omega)
        · exact hne c hc
      · intro packet hc
        rcases List.mem_cons.1 hc with rfl | hc
        · rw [hheader, List.length_append]; omega
        · exact hle packet hc
    · refine ⟨[], ?_, ?_, by simp, by simp [fragments]⟩
      · simp [buildPacketsLoop, if_neg hlt, fragments]
      · simp [List.drop_eq_nil_of_le (Nat.le_of_not_lt hlt)]

/-- **What `buildPackets` makes of a payload.** -/
theorem buildPackets_eq {payload : Bytes} {protocolVersion : Nat} (hv : protocolVersion < 16)
    (hl : payload.length < 2 ^ 28) :
    ∃ chunks, buildPackets payload protocolVersion =
        some (.ok (fragments payload.length protocolVersion 0 chunks)) ∧
      chunks.flatten = payload ∧ (∀ chunk ∈ chunks, chunk ≠ []) ∧
      ∀ packet ∈ fragments payload.length protocolVersion 0 chunks, packet.length ≤ gattMtu := by
  have h := buildPacketsLoop_eq hv hl (payload.length + 1) 0 0 (by omega) (by omega) (by omega) []
  rw [List.drop_zero] at h
  exact h

/-! ## Reassembling -/

namespace PacketReassembler

/-- Appending what is still missing, or some of it. -/
theorem append_eq {self : PacketReassembler} {chunk : Bytes} {position : Nat}
    (h : self.buffer.length + (chunk.drop position).length ≤ self.expectedLength) :
    self.append chunk position =
      if self.buffer.length + (chunk.drop position).length < self.expectedLength then
        ({ self with buffer := self.buffer ++ chunk.drop position
                     nextIndex := self.nextIndex + 1 }, .ok none)
      else (new, .ok (some (self.buffer ++ chunk.drop position))) := by
  simp only [append, List.length_append]
  rw [if_neg (by omega)]

/-- A continuation fragment, as `feed` reads it. -/
theorem feed_fragment (self : PacketReassembler) (length protocolVersion : Nat) {index : Nat}
    {chunk : Bytes} (h0 : index ≠ 0) (hi : index < 2 ^ 28) (hn : self.nextIndex = index)
    (h : self.buffer.length + chunk.length ≤ self.expectedLength) :
    self.feed (headerOf length protocolVersion index ++ chunk) =
      if self.buffer.length + chunk.length < self.expectedLength then
        ({ self with buffer := self.buffer ++ chunk, nextIndex := index + 1 }, .ok none)
      else (new, .ok (some (self.buffer ++ chunk))) := by
  have hu : unpackVarint (packVarint index ++ chunk) 0 =
      .ok (index, (packVarint index).length) := by
    simpa using unpackVarint_packVarint hi [] chunk
  have hd : (packVarint index ++ chunk).drop (packVarint index).length = chunk := List.drop_left
  rw [headerOf, if_neg h0, feed_next hu h0 hn.symm, append_eq (by rw [hd]; exact h), hd, hn]

/-- The first fragment starts over, whatever the state. -/
theorem feed_first (self : PacketReassembler) {length : Nat} (protocolVersion : Nat) {chunk : Bytes}
    (hl : length < 2 ^ 28) (h : chunk.length ≤ length) :
    self.feed (headerOf length protocolVersion 0 ++ chunk) =
      if chunk.length < length then (⟨chunk, length, 1⟩, .ok none)
      else (new, .ok (some chunk)) := by
  let version := [UInt8.ofNat (protocolVersion <<< protocolVersionShift)]
  have he : headerOf length protocolVersion 0 ++ chunk =
      packVarint 0 ++ (packVarint length ++ (version ++ chunk)) := by simp [headerOf, version]
  have hu : unpackVarint (headerOf length protocolVersion 0 ++ chunk) 0 =
      .ok (0, (packVarint 0).length) := by
    rw [he]; simpa using unpackVarint_packVarint (show 0 < 2 ^ 28 by decide) [] _
  have hul : unpackVarint (headerOf length protocolVersion 0 ++ chunk) (packVarint 0).length =
      .ok (length, (packVarint 0).length + (packVarint length).length) := by
    rw [he]; exact unpackVarint_packVarint hl (packVarint 0) (version ++ chunk)
  have hd : (headerOf length protocolVersion 0 ++ chunk).drop
      ((packVarint 0).length + (packVarint length).length + 1) = chunk := by
    have : (packVarint 0).length + (packVarint length).length + 1 =
        (packVarint 0 ++ packVarint length ++ version).length := by simp [version, Nat.add_assoc]
    rw [this, he, ← List.append_assoc, ← List.append_assoc]
    exact List.drop_left
  rw [feed_start hu hul (by rw [he]; simp [version]), append_eq (by rw [hd]; simpa using h), hd]
  simp

/-- The fragments behind a buffer that is the beginning of the payload. -/
theorem run_fragments {length protocolVersion index : Nat} {buffer : Bytes} {chunks : List Bytes}
    (h0 : index ≠ 0) (hi : index + chunks.length < 2 ^ 28) (hne : ∀ chunk ∈ chunks, chunk ≠ [])
    (hnil : chunks ≠ []) (hlen : buffer.length + chunks.flatten.length = length) :
    Receiver.run feed ⟨buffer, length, index⟩ (fragments length protocolVersion index chunks) =
      (new, List.replicate (chunks.length - 1) (.ok none) ++
        [.ok (some (buffer ++ chunks.flatten))]) := by
  induction chunks generalizing index buffer with
  | nil => exact absurd rfl hnil
  | cons chunk chunks ih =>
    rw [List.flatten_cons, List.length_append] at hlen
    have hfeed := feed_fragment ⟨buffer, length, index⟩ length protocolVersion h0
      (by simp at hi; omega) rfl (show buffer.length + chunk.length ≤ length by omega)
    simp only [fragments, Receiver.run, hfeed]
    cases chunks with
    | nil =>
      rw [if_neg (by simp at hlen ⊢; omega)]
      simp [fragments, Receiver.run]
    | cons next chunks =>
      have hnext : 0 < next.length := List.length_pos_iff.2 (hne next (by simp))
      rw [if_pos (by simp at hlen ⊢; omega)]
      rw [ih (by omega) (by simp at hi ⊢; omega)
        (fun c hc => hne c (List.mem_cons_of_mem _ hc)) (by simp) (by simp at hlen ⊢; omega)]
      simp [List.replicate_succ]

end PacketReassembler

/-- **The packets of a payload carry it**, from any state of the reassembler. -/
theorem carries_buildPackets {payload : Bytes} {protocolVersion : Nat} (hv : protocolVersion < 16)
    (hpos : 1 ≤ payload.length) (hl : payload.length < 2 ^ 28) {packets : List Bytes}
    (h : buildPackets payload protocolVersion = some (.ok packets)) :
    Receiver.Carries PacketReassembler.feed .new packets payload := by
  obtain ⟨chunks, he, hflat, hne, -⟩ := buildPackets_eq hv hl
  obtain rfl : packets = fragments payload.length protocolVersion 0 chunks := by
    rw [he] at h
    simpa using h.symm
  have hcount : chunks.length ≤ chunks.flatten.length := by
    clear hflat he h
    induction chunks with
    | nil => exact Nat.zero_le _
    | cons chunk chunks ih =>
      have := List.length_pos_iff.2 (hne chunk (by simp))
      have := ih fun c hc => hne c (List.mem_cons_of_mem _ hc)
      simp only [List.length_cons, List.flatten_cons, List.length_append]
      omega
  intro self
  rw [length_fragments]
  cases chunks with
  | nil => rw [← hflat] at hpos; simp at hpos
  | cons chunk chunks =>
    have hsum : chunk.length + chunks.flatten.length = payload.length := by
      rw [← hflat]; simp
    have hfirst := self.feed_first protocolVersion hl (show chunk.length ≤ _ by omega)
    simp only [fragments, Receiver.run, hfirst]
    cases chunks with
    | nil =>
      rw [if_neg (by simp at hsum; omega)]
      simp only [fragments, Receiver.run, List.length_singleton]
      simpa using hflat
    | cons next chunks =>
      have hnext : 0 < next.length := List.length_pos_iff.2 (hne next (by simp))
      rw [if_pos (by simp at hsum; omega)]
      rw [PacketReassembler.run_fragments (by decide)
        (by rw [hflat] at hcount; simp at hcount ⊢; omega)
        (fun c hc => hne c (List.mem_cons_of_mem _ hc)) (by simp) hsum]
      rw [List.flatten_cons] at hflat
      rw [hflat]
      simp [List.replicate_succ]

/-- The same of packets that were built. -/
theorem carries_of_buildPackets {payload : Bytes} {protocolVersion : Nat} {packets : List Bytes}
    (hpos : 1 ≤ payload.length) (hl : payload.length < 2 ^ 28)
    (h : buildPackets payload protocolVersion = some (.ok packets)) :
    packets ≠ [] ∧ Receiver.Carries PacketReassembler.feed .new packets payload := by
  by_cases hv : protocolVersion < 16
  · refine ⟨?_, carries_buildPackets hv hpos hl h⟩
    rintro rfl
    obtain ⟨chunks, he, hflat, -⟩ := buildPackets_eq hv hl
    have hlen := congrArg List.length (Except.ok.inj (Option.some.inj (he.symm.trans h)))
    rw [length_fragments] at hlen
    rw [List.eq_nil_of_length_eq_zero hlen] at hflat
    rw [← hflat] at hpos
    exact absurd hpos (by decide)
  · obtain ⟨e, he⟩ := buildPackets_fails (Nat.not_lt.1 hv) hpos
    rw [he] at h
    cases h

/-- The packets of a payload, or the error, are there after finitely many turns. -/
theorem buildPackets_isSome {payload : Bytes} (protocolVersion : Nat) (hpos : 1 ≤ payload.length)
    (hl : payload.length < 2 ^ 28) : (buildPackets payload protocolVersion).isSome = true := by
  by_cases hv : protocolVersion < 16
  · obtain ⟨chunks, he, -⟩ := buildPackets_eq hv hl
    rw [he]; rfl
  · obtain ⟨e, he⟩ := buildPackets_fails (Nat.not_lt.1 hv) hpos
    rw [he]; rfl

/-- **Fragmentation round trip**: after any sequence of chunks, whatever each call returned
or raised, the packets of a payload are small, all carry some of it, and yield it. -/
theorem fragmentation_round_trip (payload : Bytes) (hpos : 1 ≤ payload.length)
    (hl : payload.length < 2 ^ 28) (protocolVersion : Nat) (hv : protocolVersion ≤ 15)
    (fed : List Bytes) :
    ∃ packets, buildPackets payload protocolVersion = some (.ok packets) ∧
      (∀ packet ∈ packets, packet.length ≤ gattMtu) ∧
      (∃ chunks, packets = fragments payload.length protocolVersion 0 chunks ∧
        (∀ chunk ∈ chunks, 1 ≤ chunk.length) ∧ chunks.flatten = payload) ∧
      Receiver.run PacketReassembler.feed (PacketReassembler.new.feedMany fed) packets =
        (.new, List.replicate (packets.length - 1) (.ok none) ++ [.ok (some payload)]) := by
  obtain ⟨chunks, he, hflat, hne, hmtu⟩ := buildPackets_eq (Nat.lt_succ_of_le hv) hl
  refine ⟨_, he, hmtu, ⟨chunks, rfl, fun chunk hc => ?_, hflat⟩, ?_⟩
  · exact List.length_pos_iff.2 (hne chunk hc)
  · exact carries_buildPackets (Nat.lt_succ_of_le hv) hpos hl he _

/-- An encrypted pairing request, after a truncated and an abandoned frame. -/
theorem fragmentation_round_trip_pairing :
    ∃ packets, buildPackets (List.replicate 81 5) 3 = some (.ok packets) ∧
      (∀ packet ∈ packets, packet.length ≤ gattMtu) ∧
      (∃ chunks, packets = fragments (List.replicate 81 5).length 3 0 chunks ∧
        (∀ chunk ∈ chunks, 1 ≤ chunk.length) ∧ chunks.flatten = List.replicate 81 5) ∧
      Receiver.run PacketReassembler.feed (PacketReassembler.new.feedMany [[0, 2], [0, 9, 48, 4]])
          packets =
        (.new, List.replicate (packets.length - 1) (.ok none) ++
          [.ok (some (List.replicate 81 5))]) :=
  fragmentation_round_trip (List.replicate 81 5) (by decide) (by decide) 3 (by decide) _

end TuyaBle
