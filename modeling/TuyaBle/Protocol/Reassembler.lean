import TuyaBle.Protocol.Varint

/-!
# Packet reassembly

`feed` adds one notification to the buffered ones. A call that raises leaves the
reassembler in the state it had reached, so every operation returns the state
beside its result.
-/

namespace TuyaBle

def protocolVersionLength : Nat := 1

structure PacketReassembler where
  buffer : Bytes := []
  expectedLength : Nat := 0
  nextIndex : Nat := 0
  deriving DecidableEq, Repr

namespace PacketReassembler

/-- A new reassembler, and the state `_reset` restores. -/
def new : PacketReassembler := {}

/-- `_start`: begin a new frame, reading the length the first fragment declares. -/
def start (self : PacketReassembler) (chunk : Bytes) (position : Nat) :
    PacketReassembler × Except PyException Unit :=
  let self := { self with buffer := [], nextIndex := 0 }
  match unpackVarint chunk position with
  | .error e => (self, .error e)
  | .ok (length, _) => ({ self with expectedLength := length }, .ok ())

/-- `_payload_start`: skip the declared length and the protocol version byte after it. -/
def payloadStart (self : PacketReassembler) (chunk : Bytes) (position : Nat) :
    PacketReassembler × Except PyException Nat :=
  match unpackVarint chunk position with
  | .error e => (self, .error e)
  | .ok (_, position) =>
    if chunk.length < position + protocolVersionLength then
      (new, raise .tuyaBleProtocolError
        "Failed to reassemble a frame: the first fragment is truncated")
    else (self, .ok (position + protocolVersionLength))

/-- The second half of `feed`, once `position` is where the body of the chunk starts. -/
def append (self : PacketReassembler) (chunk : Bytes) (position : Nat) :
    PacketReassembler × Except PyException (Option Bytes) :=
  let self := { self with buffer := self.buffer ++ chunk.drop position
                          nextIndex := self.nextIndex + 1 }
  if self.expectedLength < self.buffer.length then
    let received := self.buffer.length
    let expectedLength := self.expectedLength
    (new, raise .tuyaBleProtocolError
      s!"Failed to reassemble a frame: {received} bytes arrived for a declared length of {expectedLength}")
  else if self.buffer.length < self.expectedLength then (self, .ok none)
  else (new, .ok (some self.buffer))

def feed (self : PacketReassembler) (chunk : Bytes) :
    PacketReassembler × Except PyException (Option Bytes) :=
  match unpackVarint chunk 0 with
  | .error e => (self, .error e)
  | .ok (index, position) =>
    if index = 0 then
      match self.start chunk position with
      | (self, .error e) => (self, .error e)
      | (self, .ok ()) =>
        match self.payloadStart chunk position with
        | (self, .error e) => (self, .error e)
        | (self, .ok position) => self.append chunk position
    else if index ≠ self.nextIndex then
      let expected := self.nextIndex
      (new, raise .tuyaBleProtocolError
        s!"Failed to reassemble a frame: fragment {index} arrived where {expected} was expected")
    else self.append chunk position

/-- The state after feeding some chunks, whatever each call returned or raised. -/
def feedMany (self : PacketReassembler) (chunks : List Bytes) : PacketReassembler :=
  chunks.foldl (fun self chunk => (self.feed chunk).1) self

theorem append_fails (self : PacketReassembler) (chunk : Bytes) (position : Nat) :
    Fails (self.append chunk position).2 .tuyaBleProtocolError := by
  intro e he
  simp only [append] at he
  split at he
  · cases he; rfl
  · split at he <;> cases he

/-! ## `feed`, path by path -/

section
variable {self : PacketReassembler} {chunk : Bytes} {index length p q : Nat} {e : PyException}

theorem feed_unreadable (h : unpackVarint chunk 0 = .error e) :
    self.feed chunk = (self, .error e) := by
  simp only [feed, h]

theorem feed_start (h : unpackVarint chunk 0 = .ok (0, p))
    (hl : unpackVarint chunk p = .ok (length, q))
    (hq : q < chunk.length) :
    self.feed chunk =
      append { buffer := [], expectedLength := length, nextIndex := 0 } chunk (q + 1) := by
  have hlt : ¬ chunk.length < q + protocolVersionLength := by unfold protocolVersionLength; omega
  simp only [feed, h, start, payloadStart, hl, if_neg hlt, ↓reduceIte]
  rfl

theorem feed_start_unreadable (h : unpackVarint chunk 0 = .ok (0, p))
    (hl : unpackVarint chunk p = .error e) :
    self.feed chunk = ({ self with buffer := [], nextIndex := 0 }, .error e) := by
  simp only [feed, h, start, hl, ↓reduceIte]

theorem feed_start_truncated (h : unpackVarint chunk 0 = .ok (0, p))
    (hl : unpackVarint chunk p = .ok (length, q)) (hq : chunk.length ≤ q) :
    self.feed chunk = (new, raise .tuyaBleProtocolError
      "Failed to reassemble a frame: the first fragment is truncated") := by
  have hlt : chunk.length < q + protocolVersionLength := by unfold protocolVersionLength; omega
  simp only [feed, h, start, payloadStart, hl, if_pos hlt, ↓reduceIte]
  rfl

theorem feed_next (h : unpackVarint chunk 0 = .ok (index, p)) (h0 : index ≠ 0)
    (hi : index = self.nextIndex) : self.feed chunk = self.append chunk p := by
  simp only [feed, h, h0, ← hi, ↓reduceIte, ne_eq, not_true_eq_false]

theorem feed_out_of_order (h : unpackVarint chunk 0 = .ok (index, p)) (h0 : index ≠ 0)
    (hi : index ≠ self.nextIndex) :
    self.feed chunk = (new, raise .tuyaBleProtocolError
      s!"Failed to reassemble a frame: fragment {index} arrived where {self.nextIndex} was expected") := by
  simp only [feed, h, h0, hi, ↓reduceIte, ne_eq, not_false_eq_true]

end

/-- `feed` raises protocol errors only. -/
theorem feed_fails (self : PacketReassembler) (chunk : Bytes) :
    Fails (self.feed chunk).2 .tuyaBleProtocolError := by
  intro e he
  have hv := unpackVarint_fails chunk
  cases h : unpackVarint chunk 0 with
  | error e0 => rw [feed_unreadable h] at he; cases he; exact hv 0 _ h
  | ok r =>
    obtain ⟨index, p⟩ := r
    by_cases h0 : index = 0
    · subst h0
      cases hl : unpackVarint chunk p with
      | error e1 => rw [feed_start_unreadable h hl] at he; cases he; exact hv p _ hl
      | ok r =>
        obtain ⟨length, q⟩ := r
        by_cases hq : q < chunk.length
        · rw [feed_start h hl hq] at he; exact append_fails _ _ _ _ he
        · rw [feed_start_truncated h hl (by omega)] at he; cases he; rfl
    · by_cases hi : index = self.nextIndex
      · rw [feed_next h h0 hi] at he; exact append_fails _ _ _ _ he
      · rw [feed_out_of_order h h0 hi] at he; cases he; rfl

/-! ## Payloads left unfinished -/

/-- The chunk is the fragment `self` waits for inside a payload. -/
def continues (self : PacketReassembler) (chunk : Bytes) : Bool :=
  match unpackVarint chunk 0 with
  | .ok (index, _) => index ≠ 0 ∧ index = self.nextIndex
  | .error _ => false

/-- The chunk has a fragment index. -/
def readable (chunk : Bytes) : Bool :=
  match unpackVarint chunk 0 with
  | .ok _ => true
  | .error _ => false

theorem continues_eq_false (self : PacketReassembler) {chunk : Bytes} (h : readable chunk = false) :
    self.continues chunk = false := by
  unfold readable at h
  unfold continues
  split at h
  · cases h
  · rename_i hv
    rw [hv]

theorem continues_of_nextIndex {self : PacketReassembler} (h : self.nextIndex = 0) (chunk : Bytes) :
    self.continues chunk = false := by
  unfold continues
  split
  · simp [h]
  · rfl

/-- A chunk that continues nothing is answered as by a new reassembler. What was left
unfinished is then gone, or the chunk had no index. -/
theorem feed_anew {self : PacketReassembler} {chunk : Bytes} (h : self.continues chunk = false) :
    (∀ result, (self.feed chunk).2 = .ok result ↔ (new.feed chunk).2 = .ok result) ∧
      ((self.feed chunk).1 = (new.feed chunk).1 ∨ (new.feed chunk).1 = new ∧
        ((self.feed chunk).1.nextIndex = 0 ∨
          (self.feed chunk).1 = self ∧ readable chunk = false)) := by
  cases hv : unpackVarint chunk 0 with
  | error e =>
    rw [feed_unreadable hv, feed_unreadable hv]
    exact ⟨by simp, .inr ⟨rfl, .inr ⟨rfl, by simp only [readable, hv]⟩⟩⟩
  | ok r =>
    obtain ⟨index, p⟩ := r
    by_cases h0 : index = 0
    · subst h0
      cases hl : unpackVarint chunk p with
      | error e =>
        rw [feed_start_unreadable hv hl, feed_start_unreadable hv hl]
        exact ⟨by simp, .inr ⟨rfl, .inl rfl⟩⟩
      | ok r =>
        obtain ⟨length, q⟩ := r
        by_cases hq : q < chunk.length
        · rw [feed_start hv hl hq, feed_start hv hl hq]
          exact ⟨fun _ => Iff.rfl, .inl rfl⟩
        · rw [feed_start_truncated hv hl (by omega), feed_start_truncated hv hl (by omega)]
          exact ⟨fun _ => Iff.rfl, .inl rfl⟩
    · have hi : index ≠ self.nextIndex := by
        simp only [continues, hv] at h
        simpa [h0] using h
      rw [feed_out_of_order hv h0 hi, feed_out_of_order hv h0 (show index ≠ new.nextIndex from h0)]
      exact ⟨by simp [raise], .inl rfl⟩

end PacketReassembler

end TuyaBle
