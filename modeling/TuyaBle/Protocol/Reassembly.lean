import TuyaBle.Lib.Collector
import TuyaBle.Protocol.Reassembler

/-!
# The reassembler refines the collector

`pieceOf` is what a chunk says on its own. Fed with chunks, the reassembler answers as
`Collector.feed` answers their pieces. Between payloads `expected_length` may be left over
from an abandoned one: it is not read before the next first fragment has set it.
-/

namespace TuyaBle

namespace PacketReassembler

def refusals : Collector.Refusals PyException where
  outOfOrder index expected :=
    { type := .tuyaBleProtocolError
      message := s!"Failed to reassemble a frame: fragment {index} arrived where {expected} was expected" }
  overrun received declared :=
    { type := .tuyaBleProtocolError
      message := s!"Failed to reassemble a frame: {received} bytes arrived for a declared length of {declared}" }

/-- The index of a chunk, in a first fragment the declared length and the protocol version
byte, and the body after them. -/
def pieceOf (chunk : Bytes) : Collector.Piece UInt8 PyException :=
  match unpackVarint chunk 0 with
  | .error e => .unreadable e
  | .ok (0, position) =>
    match unpackVarint chunk position with
    | .error e => .broken e
    | .ok (length, position) =>
      if position < chunk.length then .first length (chunk.drop (position + 1))
      else .broken { type := .tuyaBleProtocolError
                     message := "Failed to reassemble a frame: the first fragment is truncated" }
  | .ok (index, position) => .later index (chunk.drop position)

/-- The state of the reassembler stands for one of the collector. -/
def Represents (self : PacketReassembler) : Collector.State UInt8 → Prop
  | .idle => self.nextIndex = 0 ∧ self.buffer = []
  | .collecting declared next bytes _ _ =>
    self.expectedLength = declared ∧ self.nextIndex = next ∧ self.buffer = bytes

theorem represents_new : new.Represents .idle := ⟨rfl, rfl⟩

/-- `append` holds one body more. -/
theorem append_hold (self : PacketReassembler) (chunk : Bytes) (position : Nat)
    (started : 0 < self.nextIndex + 1) :
    (self.append chunk position).2 =
        (Collector.hold refusals self.expectedLength (self.nextIndex + 1)
          (self.buffer ++ chunk.drop position) started).2 ∧
      (self.append chunk position).1.Represents
        (Collector.hold refusals self.expectedLength (self.nextIndex + 1)
          (self.buffer ++ chunk.drop position) started).1 := by
  unfold append Collector.hold
  by_cases hover : self.expectedLength < (self.buffer ++ chunk.drop position).length
  · rw [if_pos hover, dif_neg (by omega), if_neg (by omega)]
    exact ⟨rfl, represents_new⟩
  · rw [if_neg hover]
    by_cases hroom : (self.buffer ++ chunk.drop position).length < self.expectedLength
    · rw [if_pos hroom, dif_pos hroom]
      exact ⟨rfl, rfl, rfl, rfl⟩
    · rw [if_neg hroom, dif_neg hroom, if_pos (by omega)]
      exact ⟨rfl, represents_new⟩

/-- **One chunk**: `feed` answers as the collector does, and its state goes on standing for
the collector's. -/
theorem feed_refines (self : PacketReassembler) (s : Collector.State UInt8) (chunk : Bytes)
    (h : self.Represents s) :
    (self.feed chunk).2 = (Collector.feed refusals s (pieceOf chunk)).2 ∧
      (self.feed chunk).1.Represents (Collector.feed refusals s (pieceOf chunk)).1 := by
  cases hv : unpackVarint chunk 0 with
  | error e =>
    rw [feed_unreadable hv]
    simp only [pieceOf, hv]
    exact ⟨rfl, h⟩
  | ok r =>
    obtain ⟨index, p⟩ := r
    cases index with
    | zero =>
      cases hl : unpackVarint chunk p with
      | error e =>
        rw [feed_start_unreadable hv hl]
        simp only [pieceOf, hv, hl]
        -- the length of the frame before is left in `expectedLength`
        exact ⟨rfl, rfl, rfl⟩
      | ok r =>
        obtain ⟨length, q⟩ := r
        by_cases hq : q < chunk.length
        · rw [feed_start hv hl hq]
          simp only [pieceOf, hv, hl, if_pos hq]
          exact append_hold { buffer := [], expectedLength := length, nextIndex := 0 } chunk
            (q + 1) Nat.one_pos
        · rw [feed_start_truncated hv hl (by omega)]
          simp only [pieceOf, hv, hl, if_neg hq]
          exact ⟨rfl, represents_new⟩
    | succ index =>
      have hpiece : pieceOf chunk = .later (index + 1) (chunk.drop p) := by
        simp only [pieceOf, hv]
      rw [hpiece]
      cases s with
      | idle =>
        rw [feed_out_of_order hv (by omega) (by rw [h.1]; omega), h.1]
        exact ⟨rfl, represents_new⟩
      | collecting declared next bytes started room =>
        obtain ⟨rfl, rfl, rfl⟩ := h
        by_cases hi : index + 1 = self.nextIndex
        · rw [feed_next hv (by omega) hi]
          simp only [Collector.feed, if_pos hi]
          exact append_hold self chunk p _
        · rw [feed_out_of_order hv (by omega) hi]
          simp only [Collector.feed, if_neg hi]
          exact ⟨rfl, represents_new⟩

/-- **The reassembler is sound**: fed with any chunks it answers as the collector, whose
state its own stands for. A payload it returns is made of the bodies of the fragments
0, 1, 2, … in order, from the latest chunk with index 0 on, whose declared length it has; no
fragment goes into two payloads; and an unfinished one is short of its length. -/
theorem reassembles_soundly (chunks : List Bytes) :
    let pieces := chunks.map pieceOf
    let self := Receiver.run feed new chunks
    let abstract := Receiver.run (Collector.feed refusals) .idle pieces
    self.2 = abstract.2 ∧ self.1.Represents abstract.1 ∧
      (∀ j payload, self.2[j]? = some (.ok (some payload)) →
        Collector.Fragments (pieces.take (j + 1)) (Collector.used (pieces.take (j + 1)))
          payload.length payload) ∧
      (∀ i j payload payload', i ≠ j → self.2[i]? = some (.ok (some payload)) →
        self.2[j]? = some (.ok (some payload')) →
        (Collector.used (pieces.take (i + 1))).Disjoint (Collector.used (pieces.take (j + 1)))) ∧
      (abstract.1 ≠ .idle → self.1.buffer.length < self.1.expectedLength) := by
  obtain ⟨hanswers, hstate⟩ :=
    Receiver.run_simulates feed_refines represents_new chunks
  refine ⟨hanswers, hstate, fun j payload hj => ?_, fun i j payload payload' hne hi hj => ?_,
    fun hne => ?_⟩
  · rw [hanswers] at hj
    exact Collector.messages_sound hj
  · rw [hanswers] at hi hj
    exact Collector.messages_disjoint hne hi hj
  · cases hs : (Receiver.run (Collector.feed refusals) .idle (chunks.map pieceOf)).1 with
    | idle => exact absurd hs hne
    | collecting declared next bytes started room =>
      rw [hs] at hstate
      obtain ⟨rfl, rfl, rfl⟩ := hstate
      exact room

end PacketReassembler

end TuyaBle
