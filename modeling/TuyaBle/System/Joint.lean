import TuyaBle.Client.Writes
import TuyaBle.System.Stages

/-!
# The joint invariant

`Inv` ties the client to the device at every point of a read whose deadlines only expire
once nothing is under way (`Calm`). One lemma for each kind of step of the client keeps it,
the writes of the step included.
-/

namespace TuyaBle

open FakeBleakClient

namespace System

/-- A reply that has begun to be written goes on only where no other task has written since,
the deadline of a wait expires only when nothing is under way and nothing has come that the
task does not know of, and neither the session's deadline nor its caller ends the read. -/
def Calm (s : System) : SystemEvent → Prop
  | .startRead => False
  | .resume _ | .deliver _ => True
  | .fire i =>
    i = .deadline ∧ s.device.notifications = [] ∧
      match s.client.session with
      | .waiting request => s.client.futures[request.pending]? = some .pending
      | .collecting _ => s.client.self.reports = []
      | .disconnecting _ => True
      | _ => False
  | .reply number _ =>
    match (s.client.task? number).bind ReplyTask.send with
    | some send => send.rest = [] ∨ s.lastWriter = some (.reply number)
    | none => True

instance (s : System) : (e : SystemEvent) → Decidable (Calm s e)
  | .startRead => .isFalse id
  | .resume _ | .deliver _ => .isTrue trivial
  | .fire i => by
    unfold Calm
    cases s.client.session <;> infer_instance
  | .reply number _ => by
    unfold Calm
    dsimp only
    split <;> infer_instance

variable (P : Primitives) (D : Peripheral) (credentials : TuyaBleCredentials) (data : Bytes)
  (T : Clock → Prop)

/-- A reply task answers what the device has sent, and the device has got a part of its
frame at most. -/
structure Task (device : FakeBleakClient) (lastWriter : Option Sender) (task : ReplyTask) :
    Prop where
  answers : ∃ sent ∈ deviceStatusTurn.pushed D,
    task.frame.responseTo = sent.1.sequenceNumber ∧ task.frame.code = sent.1.code
  payload : ∀ send, task.send = some send →
    Sealed P (keyOf P D false) (flagOf false) task.frame send.payload
  carries : ∀ send, task.send = some send → send.rest ≠ [] →
    lastWriter = some (.reply task.frame.sequenceNumber) →
    Receiver.CarriesFrom PacketReassembler.feed .new device.reassembler send.rest send.payload

/-- The frame answers one the device has sent. -/
def Acknowledges (frame : Frame) : Prop :=
  ∃ sent ∈ deviceStatusTurn.pushed D,
    frame.responseTo = sent.1.sequenceNumber ∧ frame.code = sent.1.code

structure Inv (s : System) : Prop where
  numbered : s.client.Numbered
  credentials : s.client.self.credentials = credentials
  loginKey : s.client.self.loginKey = keyOf P D true
  version : s.client.self.protocolVersion < 16
  linked : s.client.session ≠ .connecting → ¬ s.client.session.over → s.client.self.client ≠ none
  writes : ∀ p ∈ s.writes, p.2 = .ok ()
  calm : s.client.interrupt ≠ none → s.client.interrupt = some .deadline ∧
    (s.client.session.over ∨ ∃ collected, s.client.session = .collecting collected ∧
      s.client.self.reports = [] ∧ s.device.notifications = [])
  tasks : ∀ task ∈ s.client.self.background, Task P D s.device s.lastWriter task
  keyed : s.client.self.background ≠ [] → s.client.self.sessionKey = some (keyOf P D false)
  received : ∀ frame ∈ s.device.received, frame.responseTo ≠ 0 → Acknowledges D frame
  stage : Stage P D data T s.client.session s.client.self s.client.futures s.device

variable {P D credentials data T} {random : Nat → InitializationVector} {info : DeviceInfo}
  {s : System} {w' : World} {os : List Obs}

/-! ## Writes -/

/-- A step that writes nothing leaves the device alone. -/
theorem transmit_silent (h : ∀ sender send packet, .wrote sender send packet ∉ os) :
    s.transmit P D random os = some s := by
  induction os with
  | nil => rfl
  | cons o os ih =>
    have hos := ih fun sender send packet hm => h sender send packet (List.mem_cons_of_mem _ hm)
    cases o with
    | wrote sender send packet => exact absurd (List.mem_cons_self ..) (h sender send packet)
    | _ => exact hos

/-- One write. -/
theorem transmit_wrote {sender : Sender} {send : Send} {packet : Bytes} {device : FakeBleakClient}
    {result : Except PyException Unit}
    (before after : List Obs) (h : s.device.writeGattChar P D random packet = some (device, result))
    (hb : ∀ sender send packet, .wrote sender send packet ∉ before)
    (ha : ∀ sender send packet, .wrote sender send packet ∉ after) :
    s.transmit P D random (before ++ .wrote sender send packet :: after) =
      some { s with device, writes := s.writes ++ [(sender, result)] } := by
  induction before with
  | nil =>
    rw [List.nil_append, transmit, h]
    exact transmit_silent ha
  | cons o before ih =>
    have hrest := ih fun sender send packet hm => hb sender send packet (List.mem_cons_of_mem _ hm)
    cases o with
    | wrote sender send packet => exact absurd (List.mem_cons_self ..) (hb sender send packet)
    | _ => exact hrest

/-- In two parts. -/
theorem transmit_append {s1 s2 : System} {os1 os2 : List Obs}
    (h1 : s.transmit P D random os1 = some s1) (h2 : s1.transmit P D random os2 = some s2) :
    s.transmit P D random (os1 ++ os2) = some s2 := by
  induction os1 generalizing s with
  | nil =>
    cases h1
    exact h2
  | cons o os1 ih =>
    cases o with
    | wrote sender send packet =>
      rw [List.cons_append, transmit]
      rw [transmit] at h1
      split at h1
      · cases h1
      · exact ih h1
    | _ => exact ih h1

/-- The client is not touched by its writes. -/
theorem transmit_client {s' : System} (h : s.transmit P D random os = some s') (w : World) :
    { s with client := w }.transmit P D random os = some { s' with client := w } ∧
      s'.client = s.client := by
  induction os generalizing s with
  | nil =>
    cases h
    exact ⟨rfl, rfl⟩
  | cons o os ih =>
    cases o with
    | wrote sender send packet =>
      rw [transmit] at h ⊢
      split at h
      · cases h
      · rename_i hw
        simp only [hw]
        exact ih h
    | _ => exact ih h

theorem resultOf_ok (h : ∀ p ∈ s.writes, p.2 = .ok ()) (sender : Sender) :
    s.resultOf sender = .ok () := by
  unfold resultOf
  split
  · rename_i hl
    exact h _ (List.mem_filter.1 (List.mem_of_getLast? hl)).1
  · rfl

end System

namespace FakeBleakClient

variable {P : Primitives} {D : Peripheral} {random : Nat → InitializationVector}
  {self : FakeBleakClient} {packet : Bytes}

variable (random) in
/-- A packet that completes no frame. -/
theorem writeGattChar_part (h : (self.reassembler.feed packet).2 = .ok none) :
    self.writeGattChar P D random packet =
      some ({ self with reassembler := (self.reassembler.feed packet).1 }, .ok ()) := by
  unfold writeGattChar
  split <;> rename_i hf <;> rw [hf] at h <;> cases h
  rw [hf]

variable (random) in
/-- The last packet of a frame. -/
theorem writeGattChar_last {login : Bool} {frame : Frame} {payload : Bytes}
    (h : self.reassembler.feed packet = (.new, .ok (some payload)))
    (hs : Sealed P (keyOf P D login) (flagOf login) frame payload) :
    self.writeGattChar P D random packet =
      { self with reassembler := .new }.accept P D random frame := by
  have hkey : decide (flagOf login = securityFlagLoginKey) = login := by cases login <;> rfl
  have hread : read P D payload = .ok frame := by
    simp only [read, hs.1, bind, Except.bind, hkey]
    exact hs.2
  unfold writeGattChar
  simp only [h, hread]

/-- An acknowledgement is taken and not answered. -/
theorem accept_reply {frame : Frame} (h : frame.responseTo ≠ 0) :
    self.accept P D random frame =
      some ({ self with received := self.received ++ [frame] }, .ok ()) := by
  simp only [accept, if_neg h]

variable (P random) in
/-- A request is answered. -/
theorem accept_request {credentials : TuyaBleCredentials} {info : DeviceInfo} {data : Bytes}
    (hD : D.Serves credentials info data) {t : Turn} (ht : t ∈ turns data)
    (hseq : self.sequenceNumber = 100 + t.index) (hquiet : self.notifications = [])
    (reassembler : PacketReassembler) :
    ∃ notifications, self.accept P D random t.frame =
        some ({ self with received := self.received ++ [t.frame]
                          sequenceNumber := 101 + t.index + (t.pushed D).length
                          notifications }, .ok ()) ∧
      Underway P D reassembler notifications ((t.reply D, t.login) :: t.pushed D) := by
  have hcount : (t.pushes D).length ≤ D.reports.length + 1 := by
    rw [Turn.pushes]
    split
    · have htime : D.timeRequest.toList.length ≤ 1 := by cases D.timeRequest <;> simp
      rw [pushes, List.length_append, List.length_map, List.length_map]
      omega
    · exact Nat.zero_le _
  have hlength : (answersTo D t.frame).length = (t.pushes D).length + 1 := by
    rw [Turn.answers_frame ht, List.length_cons]
  have hindex := Turn.index_lt ht
  have hbound := hD.count
  obtain ⟨notifications, hsend, hunder⟩ :=
    @sendAll_underway P D random hD.protocolVersion _ (hD.fits ht)
      { self with received := self.received ++ [t.frame] } (by simp only [hseq]; omega) reassembler
      [] (by rw [hquiet]; exact underway_nil _)
  refine ⟨notifications, ?_, ?_⟩
  · have haccept : self.accept P D random t.frame =
        { self with received := self.received ++ [t.frame] }.sendAll P D random
          (answersTo D t.frame) := by
      have hzero : t.frame.responseTo = 0 := rfl
      rw [accept]
      exact if_pos hzero
    have hnext : self.sequenceNumber + (answersTo D t.frame).length =
        101 + t.index + (t.pushed D).length := by
      rw [hlength, hseq, Turn.pushed, length_framesOf]
      omega
    rw [haccept, hsend]
    simp only [hnext]
  · rw [Turn.answers_frame ht, framesOf, List.nil_append] at hunder
    simp only [hseq] at hunder
    have hnext : 100 + t.index + 1 = 101 + t.index := by omega
    rw [hnext] at hunder
    exact hunder

end FakeBleakClient

end TuyaBle
