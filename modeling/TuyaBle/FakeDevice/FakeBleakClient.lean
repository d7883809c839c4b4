import Mathlib.Data.List.Forall2
import TuyaBle.Protocol.Fragmentation
import TuyaBle.Protocol.FrameRoundTrip
import TuyaBle.Commands.Handshake

/-!
# The peripheral as a program

The tests' fake device for any credentials and records: it reassembles what is written to
it, decrypts it, and answers a request with the frames `answers` lists. What it has handed
to the notification callback and the event loop has not delivered yet are `notifications`.
-/

namespace TuyaBle

/-- What a fake device is set up with. -/
structure Peripheral where
  localKey : String
  srand : Bytes
  protocolVersion : Nat
  deviceInfo : Bytes
  pairingResult : Bytes
  statusResult : Bytes
  reports : List Bytes
  timeRequest : Option TuyaBleCommandCode

structure FakeBleakClient where
  received : List Frame := []
  reassembler : PacketReassembler := .new
  sequenceNumber : Nat := 100
  notifications : List Bytes := []

/-- The arguments of `_send`. -/
structure Answer where
  code : Nat
  data : Bytes
  responseTo : Nat
  login : Bool := false

namespace FakeBleakClient

variable (P : Primitives) (D : Peripheral) (random : Nat → InitializationVector)

def keyOf (login : Bool) : AesKey :=
  if login then loginKey P D.localKey else sessionKey P D.localKey D.srand

def flagOf (login : Bool) : Nat := if login then securityFlagLoginKey else securityFlagSessionKey

def frameOf (self : FakeBleakClient) (answer : Answer) : Frame where
  sequenceNumber := self.sequenceNumber + 1
  responseTo := answer.responseTo
  code := answer.code
  data := answer.data

/-- `_send`; `none` when splitting the payload never ends. -/
def send (self : FakeBleakClient) (answer : Answer) :
    Option (FakeBleakClient × Except PyException Unit) :=
  let frame := self.frameOf answer
  let self := { self with sequenceNumber := self.sequenceNumber + 1 }
  match frame.encode P (keyOf P D answer.login) (flagOf answer.login)
      (random self.sequenceNumber) with
  | .error e => some (self, .error e)
  | .ok payload =>
    match buildPackets payload D.protocolVersion with
    | none => none
    | some (.error e) => some (self, .error e)
    | some (.ok packets) =>
      some ({ self with notifications := self.notifications ++ packets }, .ok ())

/-- One `_send` after the other, up to the first that raises. -/
def sendAll (self : FakeBleakClient) :
    List Answer → Option (FakeBleakClient × Except PyException Unit)
  | [] => some (self, .ok ())
  | answer :: answers =>
    match self.send P D random answer with
    | none => none
    | some (self, .error e) => some (self, .error e)
    | some (self, .ok ()) => sendAll self answers

/-- What the device sends on its own initiative once its status has been asked for. -/
def pushes : List Answer :=
  D.timeRequest.toList.map (fun code => ⟨code.value, [], 0, false⟩) ++
    D.reports.map fun report => ⟨TuyaBleCommandCode.receiveDataPoint.value, report, 0, false⟩

/-- The calls of `_send` that `_answer` makes for a request. -/
def answersTo (frame : Frame) : List Answer :=
  match TuyaBleCommandCode.fromValue frame.code with
  | some .senderDeviceInfo => [⟨frame.code, D.deviceInfo, frame.sequenceNumber, true⟩]
  | some .senderPair => [⟨frame.code, D.pairingResult, frame.sequenceNumber, false⟩]
  | some .senderDeviceStatus =>
    ⟨frame.code, D.statusResult, frame.sequenceNumber, false⟩ :: pushes D
  | _ => []

/-- Decrypt what the client wrote. -/
def read (payload : Bytes) : Except PyException Frame := do
  let flag ← securityFlagOf payload
  Frame.decode P payload (keyOf P D (decide (flag = securityFlagLoginKey)))

/-- The end of `write_gatt_char`, once a frame is decoded. -/
def accept (self : FakeBleakClient) (frame : Frame) :
    Option (FakeBleakClient × Except PyException Unit) :=
  let self := { self with received := self.received ++ [frame] }
  if frame.responseTo = 0 then self.sendAll P D random (answersTo D frame) else some (self, .ok ())

def writeGattChar (self : FakeBleakClient) (packet : Bytes) :
    Option (FakeBleakClient × Except PyException Unit) :=
  match self.reassembler.feed packet with
  | (reassembler, .error e) => some ({ self with reassembler }, .error e)
  | (reassembler, .ok none) => some ({ self with reassembler }, .ok ())
  | (reassembler, .ok (some payload)) =>
    let self := { self with reassembler }
    match read P D payload with
    | .error e => some (self, .error e)
    | .ok frame => self.accept P D random frame

end FakeBleakClient

/-! ## Frames under way -/

/-- A frame with the key it is under, as a payload. -/
def Sealed (P : Primitives) (key : AesKey) (flag : Nat) (frame : Frame) (payload : Bytes) : Prop :=
  securityFlagOf payload = .ok flag ∧ Frame.decode P payload key = .ok frame

theorem sealed_of_encode {P : Primitives} {key : AesKey} {flag : Nat} {frame : Frame}
    {iv : InitializationVector} {payload : Bytes} (h : frame.encode P key flag iv = .ok payload) :
    Sealed P key flag frame payload := by
  obtain ⟨b, hb, hf⟩ := Frame.encode_eq_ok h
  obtain ⟨c, hc, hlen, hd⟩ := Frame.encode_spec (P := P) hb hf key iv
  obtain rfl := Except.ok.inj (h.symm.trans hc)
  obtain ⟨hblocks, -⟩ := Frame.length_plaintext b
  constructor
  · simp [securityFlagOf, Nat.mod_eq_of_lt hf]
  · rw [Frame.decode_eq (UInt8.ofNat flag) (hlen ▸ hblocks)
      (hlen ▸ Frame.blockSize_le_plaintext hb) hd]
    exact Frame.ofPlaintext_plaintext hb

/-- An in-range frame is encoded and split, and its packets carry it. -/
theorem packets_of_frame (P : Primitives) (frame : Frame) (key : AesKey) {flag : Nat}
    (iv : InitializationVector) {protocolVersion : Nat} (hs : frame.sequenceNumber < 2 ^ 32)
    (hr : frame.responseTo < 2 ^ 32) (hc : frame.code < 2 ^ 16) (hd : frame.data.length ≤ 65535)
    (hf : flag < 256) (hv : protocolVersion < 16) :
    ∃ payload packets, frame.encode P key flag iv = .ok payload ∧
      buildPackets payload protocolVersion = some (.ok packets) ∧
      Receiver.Carries PacketReassembler.feed .new packets payload := by
  have hb : ∃ b, frame.body = .ok b :=
    ⟨_, Frame.body_eq_ok.2 ⟨⟨hs, hr, hc, Nat.lt_succ_of_le hd⟩, rfl⟩⟩
  obtain ⟨b, hb⟩ := hb
  obtain ⟨c, he, -⟩ := Frame.encode_spec (P := P) hb hf key iv
  obtain ⟨-, hmin, hmax⟩ := Frame.length_encode he
  have hpos : 1 ≤ ([UInt8.ofNat flag] ++ iv.val ++ c).length := by simp
  have hlong : ([UInt8.ofNat flag] ++ iv.val ++ c).length < 2 ^ 28 := by omega
  obtain ⟨chunks, hp, -⟩ := buildPackets_eq hv hlong
  exact ⟨_, _, he, hp, carries_buildPackets hv hpos (by omega) hp⟩

namespace FakeBleakClient

variable {P : Primitives} {D : Peripheral} {random : Nat → InitializationVector}

/-- A frame of the device, with the key it is under. -/
abbrev SentFrame := Frame × Bool

/-- What the packets under way to a reassembler carry. -/
def Underway (P : Primitives) (D : Peripheral) (reassembler : PacketReassembler)
    (packets : List Bytes) (frames : List SentFrame) : Prop :=
  ∃ payloads, Receiver.Yields PacketReassembler.feed reassembler packets payloads ∧
    List.Forall₂ (fun sent payload => Sealed P (keyOf P D sent.2) (flagOf sent.2) sent.1 payload)
      frames payloads

/-- The frames of `sendAll`. -/
def framesOf : Nat → List Answer → List SentFrame
  | _, [] => []
  | sequenceNumber, answer :: answers =>
    (⟨sequenceNumber + 1, answer.responseTo, answer.code, answer.data⟩, answer.login) ::
      framesOf (sequenceNumber + 1) answers

/-- The answers that fit a frame. -/
def Packable (answer : Answer) : Prop :=
  answer.responseTo < 2 ^ 32 ∧ answer.code < 2 ^ 16 ∧ answer.data.length ≤ 65535

theorem underway_nil (reassembler : PacketReassembler) : Underway P D reassembler [] [] :=
  ⟨[], Receiver.yields_nil, .nil⟩

variable (random) in
/-- **What the device sends comes behind what is under way.** -/
theorem sendAll_underway (hv : D.protocolVersion < 16) {answers : List Answer}
    (hfits : ∀ answer ∈ answers, Packable answer) {self : FakeBleakClient}
    (hseq : self.sequenceNumber + answers.length < 2 ^ 32) {reassembler : PacketReassembler}
    {frames : List SentFrame} (h : Underway P D reassembler self.notifications frames) :
    ∃ notifications, self.sendAll P D random answers =
        some ({ self with sequenceNumber := self.sequenceNumber + answers.length, notifications },
          .ok ()) ∧
      Underway P D reassembler notifications
        (frames ++ framesOf self.sequenceNumber answers) := by
  induction answers generalizing self frames with
  | nil => exact ⟨self.notifications, rfl, by rwa [framesOf, List.append_nil]⟩
  | cons answer answers ih =>
    obtain ⟨hr, hc, hd⟩ := hfits answer (List.mem_cons_self ..)
    have hflag : flagOf answer.login < 256 := by cases answer.login <;> decide
    obtain ⟨payload, packets, he, hp, hcarries⟩ := packets_of_frame P (self.frameOf answer)
      (keyOf P D answer.login) (random (self.sequenceNumber + 1))
      (show self.sequenceNumber + 1 < 2 ^ 32 by simp at hseq; omega) hr hc hd hflag hv
    have hsend : self.send P D random answer =
        some ({ self with sequenceNumber := self.sequenceNumber + 1
                          notifications := self.notifications ++ packets }, .ok ()) := by
      simp only [send, he, hp]
    obtain ⟨payloads, hyields, hsealed⟩ := h
    have hnext : Underway P D reassembler
        ({ self with sequenceNumber := self.sequenceNumber + 1
                     notifications := self.notifications ++ packets } :
          FakeBleakClient).notifications (frames ++ [(self.frameOf answer, answer.login)]) :=
      ⟨payloads ++ [payload], hyields.append hcarries,
        List.rel_append hsealed (.cons (sealed_of_encode he) .nil)⟩
    obtain ⟨notifications, hall, hunder⟩ :=
      ih (fun answer ha => hfits answer (List.mem_cons_of_mem _ ha))
        (by simp at hseq ⊢; omega) hnext
    refine ⟨notifications, ?_, ?_⟩
    · rw [sendAll, hsend]
      simp only [hall, List.length_cons]
      congr 3
      omega
    · rwa [List.append_assoc] at hunder

/-- The next packet completes no frame, or the first of those under way. -/
theorem Underway.cons {reassembler : PacketReassembler} {packet : Bytes} {packets : List Bytes}
    {frames : List SentFrame} (h : Underway P D reassembler (packet :: packets) frames) :
    (reassembler.feed packet).2 = .ok none ∧
        Underway P D (reassembler.feed packet).1 packets frames ∨
      ∃ sent frames' payload, frames = sent :: frames' ∧
        (reassembler.feed packet).2 = .ok (some payload) ∧
        Sealed P (keyOf P D sent.2) (flagOf sent.2) sent.1 payload ∧
        Underway P D (reassembler.feed packet).1 packets frames' := by
  obtain ⟨payloads, hyields, hsealed⟩ := h
  rcases hyields.cons with ⟨hnone, hrest⟩ | ⟨payload, payloads', rfl, hsome, hrest⟩
  · exact .inl ⟨hnone, payloads, hrest, hsealed⟩
  · cases hsealed with
    | cons hfirst hsealed =>
      exact .inr ⟨_, _, payload, rfl, hsome, hfirst, payloads', hrest, hsealed⟩

/-- There are packets under way as long as there are frames. -/
theorem Underway.nil_iff {reassembler : PacketReassembler} {packets : List Bytes}
    {frames : List SentFrame} (h : Underway P D reassembler packets frames) :
    packets = [] ↔ frames = [] := by
  obtain ⟨payloads, hyields, hsealed⟩ := h
  constructor
  · rintro rfl
    obtain rfl := hyields.eq_nil
    exact List.forall₂_nil_right_iff.1 hsealed
  · rintro rfl
    obtain rfl := List.forall₂_nil_left_iff.1 hsealed
    exact hyields.packets_nil

end FakeBleakClient

end TuyaBle
