import Mathlib.Algebra.BigOperators.Group.List.Basic
import Mathlib.Data.List.Basic
import TuyaBle.Protocol.Fragmentation

/-!
# A lossy link

Packets are written without a response and may get lost. As long as a frame does not lose
its first fragment alone, the reassembler yields the frames that lost nothing, in order, and
nothing else: a gap refuses what is left of its frame, and the next first fragment starts
over.
-/

namespace TuyaBle

namespace PacketReassembler

/-- There are as many bytes as chunks at least. -/
theorem length_le_length_flatten {chunks : List Bytes} (h : ∀ chunk ∈ chunks, chunk ≠ []) :
    chunks.length ≤ chunks.flatten.length := by
  have hlen : chunks.length = (chunks.map List.length).length := by rw [List.length_map]
  rw [List.length_flatten, hlen]
  refine List.length_le_sum_of_one_le _ fun n hn => ?_
  obtain ⟨chunk, hc, rfl⟩ := List.mem_map.1 hn
  exact List.length_pos_iff.2 (h chunk hc)

/-- A fragment that is not a first one, nor the one `self` waits for. -/
theorem feed_gap (self : PacketReassembler) (length protocolVersion : Nat) {index : Nat}
    (chunk : Bytes) (h0 : index ≠ 0) (hi : index < 2 ^ 28) (hn : index ≠ self.nextIndex) :
    (self.feed (headerOf length protocolVersion index ++ chunk)).1 = new ∧
      ∃ e, (self.feed (headerOf length protocolVersion index ++ chunk)).2 = .error e := by
  have hu : unpackVarint (packVarint index ++ chunk) 0 =
      .ok (index, (packVarint index).length) := by
    simpa using unpackVarint_packVarint hi [] chunk
  rw [headerOf, if_neg h0, feed_out_of_order hu h0 hn]
  exact ⟨rfl, _, rfl⟩

variable {length protocolVersion index : Nat} {chunks : List Bytes} {arrived : List Bytes}

/-- A new reassembler takes no later fragment. -/
theorem run_headless (h0 : index ≠ 0) (hi : index + chunks.length < 2 ^ 28)
    (h : arrived.Sublist (fragments length protocolVersion index chunks)) :
    Receiver.messages (Receiver.run feed new arrived).2 = [] := by
  induction chunks generalizing index arrived with
  | nil =>
    obtain rfl := List.sublist_nil.1 h
    rfl
  | cons chunk chunks ih =>
    rw [List.length_cons] at hi
    cases h with
    | cons _ h => exact ih (Nat.succ_ne_zero _) (by omega) h
    | cons_cons _ h =>
      obtain ⟨hnew, e, he⟩ := new.feed_gap length protocolVersion chunk h0 (by omega)
        (show index ≠ new.nextIndex from h0)
      simp only [Receiver.run, Receiver.messages, List.filterMap_cons, he, hnew]
      exact ih (Nat.succ_ne_zero _) (by omega) h

/-- What comes behind a gap is refused. -/
theorem run_behind_gap {self : PacketReassembler} (h0 : index ≠ 0)
    (hi : index + chunks.length < 2 ^ 28) (hn : self.nextIndex < index)
    (h : arrived.Sublist (fragments length protocolVersion index chunks)) :
    Receiver.messages (Receiver.run feed self arrived).2 = [] := by
  induction chunks generalizing index arrived with
  | nil =>
    obtain rfl := List.sublist_nil.1 h
    rfl
  | cons chunk chunks ih =>
    rw [List.length_cons] at hi
    cases h with
    | cons _ h => exact ih (Nat.succ_ne_zero _) (by omega) (by omega) h
    | cons_cons _ h =>
      obtain ⟨hnew, e, he⟩ := self.feed_gap length protocolVersion chunk h0 (by omega) (by omega)
      simp only [Receiver.run, Receiver.messages, List.filterMap_cons, he, hnew]
      exact run_headless (Nat.succ_ne_zero _) (by omega) h

/-- Behind the beginning of a payload, some of the fragments left yield nothing. -/
theorem run_incomplete {buffer : Bytes} (h0 : index ≠ 0) (hi : index + chunks.length < 2 ^ 28)
    (hne : ∀ chunk ∈ chunks, chunk ≠ []) (hlen : buffer.length + chunks.flatten.length = length)
    (h : arrived.Sublist (fragments length protocolVersion index chunks))
    (hlost : arrived ≠ fragments length protocolVersion index chunks) :
    Receiver.messages (Receiver.run feed ⟨buffer, length, index⟩ arrived).2 = [] := by
  induction chunks generalizing index buffer arrived with
  | nil => exact absurd (List.sublist_nil.1 h) hlost
  | cons chunk chunks ih =>
    rw [List.length_cons] at hi
    rw [List.flatten_cons, List.length_append] at hlen
    cases h with
    | cons _ h =>
      have hgap : (⟨buffer, length, index⟩ : PacketReassembler).nextIndex < index + 1 :=
        Nat.lt_succ_self _
      exact run_behind_gap (Nat.succ_ne_zero _) (show index + 1 + chunks.length < 2 ^ 28 by omega)
        hgap h
    | cons_cons _ h =>
      rename_i rest
      have hrest : rest ≠ fragments length protocolVersion (index + 1) chunks := fun he =>
        hlost (by rw [he]; rfl)
      have hcount := length_le_length_flatten fun c hc => hne c (List.mem_cons_of_mem _ hc)
      have hmore : chunks ≠ [] := by
        rintro rfl
        exact hrest (List.sublist_nil.1 h)
      have hmore := List.length_pos_iff.2 hmore
      have hfeed := feed_fragment ⟨buffer, length, index⟩ length protocolVersion h0
        (show index < 2 ^ 28 by omega) rfl
        (show buffer.length + chunk.length ≤ length by omega)
      rw [if_pos (show buffer.length + chunk.length < length by omega)] at hfeed
      simp only [Receiver.run, hfeed, Receiver.messages, List.filterMap_cons]
      exact ih (Nat.succ_ne_zero _) (by omega)
        (fun chunk hm => hne chunk (List.mem_cons_of_mem _ hm))
        (by rw [List.length_append]; omega) h hrest

end PacketReassembler

/-- A payload on its way: the packets it was split into, and those that arrive. Either all of
them are lost or the first is not. -/
structure Transmission where
  payload : Bytes
  protocolVersion : Nat
  packets : List Bytes
  arrived : List Bytes
  built : buildPackets payload protocolVersion = some (.ok packets)
  nonempty : 1 ≤ payload.length
  short : payload.length < 2 ^ 28
  sublist : arrived.Sublist packets
  spared : arrived = [] ∨ arrived.head? = packets.head?

namespace Transmission

/-- The payload, when nothing of it is lost. -/
def delivered? (t : Transmission) : Option Bytes :=
  if t.arrived = t.packets then some t.payload else none

theorem messages_arrived (t : Transmission) (self : PacketReassembler) :
    Receiver.messages (Receiver.run PacketReassembler.feed self t.arrived).2 =
      t.delivered?.toList := by
  obtain ⟨hne, hcarries⟩ := carries_of_buildPackets t.nonempty t.short t.built
  by_cases hall : t.arrived = t.packets
  · rw [delivered?, if_pos hall, hall, hcarries self]
    simp [Receiver.messages, List.filterMap_append]
  rw [delivered?, if_neg hall]
  rcases t.spared with hnone | hhead
  · rw [hnone]
    rfl
  have hv : t.protocolVersion < 16 := by
    by_contra hv
    obtain ⟨e, he⟩ := buildPackets_fails (Nat.not_lt.1 hv) t.nonempty
    cases he.symm.trans t.built
  obtain ⟨chunks, he, hflat, hchunks, -⟩ := buildPackets_eq hv t.short
  have hpackets : t.packets = fragments t.payload.length t.protocolVersion 0 chunks :=
    Except.ok.inj (Option.some.inj (t.built.symm.trans he))
  have hsublist := t.sublist
  have hshort := t.short
  cases chunks with
  | nil => exact absurd hpackets hne
  | cons chunk chunks =>
    rw [hpackets] at hall hhead hsublist
    cases harrived : t.arrived with
    | nil => rw [harrived] at hhead; cases hhead
    | cons first rest =>
      rw [harrived] at hall hhead hsublist
      obtain rfl : first = headerOf t.payload.length t.protocolVersion 0 ++ chunk :=
        Option.some.inj hhead
      have hrest : rest.Sublist (fragments t.payload.length t.protocolVersion 1 chunks) :=
        List.cons_sublist_cons.1 hsublist
      have hlost : rest ≠ fragments t.payload.length t.protocolVersion 1 chunks := fun he =>
        hall (by rw [he]; rfl)
      have hsum : chunk.length + chunks.flatten.length = t.payload.length := by
        rw [← hflat, List.flatten_cons, List.length_append]
      have hcount := PacketReassembler.length_le_length_flatten fun c hc =>
        hchunks c (List.mem_cons_of_mem _ hc)
      have hmore : chunks ≠ [] := by
        rintro rfl
        exact hlost (List.sublist_nil.1 hrest)
      have hmore := List.length_pos_iff.2 hmore
      have hfirstChunk := List.length_pos_iff.2 (hchunks chunk (List.mem_cons_self ..))
      have hfirst := self.feed_first t.protocolVersion hshort (show chunk.length ≤ _ by omega)
      rw [if_pos (show chunk.length < t.payload.length by omega)] at hfirst
      simp only [Receiver.run, hfirst, Receiver.messages, List.filterMap_cons]
      exact PacketReassembler.run_incomplete Nat.one_ne_zero (by omega)
        (fun chunk hm => hchunks chunk (List.mem_cons_of_mem _ hm)) hsum hrest hlost

end Transmission

/-- **What a lossy link yields**: from any state, the payloads that lost nothing, in order. -/
theorem lossy_link (transmissions : List Transmission) (self : PacketReassembler) :
    Receiver.messages (Receiver.run PacketReassembler.feed self
      (transmissions.flatMap Transmission.arrived)).2 =
        transmissions.filterMap Transmission.delivered? := by
  rw [Receiver.messages_flatMap (fun t _ => t.messages_arrived) self,
    List.filterMap_eq_flatMap_toList]

/-- Two packets, of which the second is lost. -/
def Transmission.cut : Transmission where
  payload := List.replicate 30 7
  protocolVersion := 3
  packets := [[0, 30, 48] ++ List.replicate 17 7, [1] ++ List.replicate 13 7]
  arrived := [[0, 30, 48] ++ List.replicate 17 7]
  built := by decide
  nonempty := by decide
  short := by decide
  sublist := by simp
  spared := .inr rfl

/-- Two packets that arrive. -/
def Transmission.whole : Transmission where
  payload := List.replicate 20 9
  protocolVersion := 3
  packets := [[0, 20, 48] ++ List.replicate 17 9, [1] ++ List.replicate 3 9]
  arrived := [[0, 20, 48] ++ List.replicate 17 9, [1] ++ List.replicate 3 9]
  built := by decide
  nonempty := by decide
  short := by decide
  sublist := .refl _
  spared := .inr rfl

/-- A payload loses its end, and the next one starts over. -/
theorem lossy_link_starts_over :
    Receiver.messages (Receiver.run PacketReassembler.feed .new
      ([Transmission.cut, .whole].flatMap Transmission.arrived)).2 = [List.replicate 20 9] :=
  (lossy_link [.cut, .whole] .new).trans (by decide)

end TuyaBle
