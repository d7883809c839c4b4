import TuyaBle.Client.Reports
import TuyaBle.System

/-!
# The stages of a read

A device `Serves` a client when it knows the same secrets and its records are ones the
client accepts. `Stage` says, for every await of the session task, which frames have been
exchanged and which are under way.
-/

namespace TuyaBle

open FakeBleakClient

/-- What a device must be like to be read. -/
structure Peripheral.Serves (D : Peripheral) (credentials : TuyaBleCredentials) (info : DeviceInfo)
    (data : Bytes) : Prop where
  localKey : D.localKey = credentials.localKey
  deviceInfo : parseDeviceInfo D.deviceInfo = .ok info
  srand : info.srand = D.srand
  version : info.protocolVersion < 16
  protocolVersion : D.protocolVersion < 16
  pairing : verifyPairingResult D.pairingResult = .ok ()
  request : buildPairingRequest credentials = .ok data
  sizes : ∀ bytes ∈ D.deviceInfo :: D.statusResult :: D.reports, bytes.length ≤ 65535
  count : D.reports.length + 104 < 2 ^ 32

/-! ## Requests and answers -/

/-- A request of the session: `index` others come before it. -/
structure Turn where
  code : TuyaBleCommandCode
  index : Nat
  data : Bytes
  login : Bool
  unansweredError : ExceptionType

def deviceInfoTurn : Turn := ⟨.senderDeviceInfo, 0, [], true, .tuyaBleHandshakeTimeoutError⟩

def pairTurn (data : Bytes) : Turn := ⟨.senderPair, 1, data, false, .tuyaBleConnectionError⟩

def deviceStatusTurn : Turn := ⟨.senderDeviceStatus, 2, [], false, .tuyaBleConnectionError⟩

/-- The requests of a session, in order; `data` is the pairing record. -/
def turns (data : Bytes) : List Turn := [deviceInfoTurn, pairTurn data, deviceStatusTurn]

namespace Turn

def frame (t : Turn) : Frame := ⟨t.index + 1, 0, t.code.value, t.data⟩

def request (t : Turn) : Request := ⟨t.code, t.index + 1, t.index, t.unansweredError⟩

def call (P : Primitives) (D : Peripheral) (t : Turn) : Call where
  code := t.code
  data := t.data
  key := if t.login then some (keyOf P D true) else none
  securityFlag := flagOf t.login
  unansweredError := t.unansweredError

/-- What the device answers the request with. -/
def replyData (D : Peripheral) (t : Turn) : Bytes :=
  match t.code with
  | .senderDeviceInfo => D.deviceInfo
  | .senderPair => D.pairingResult
  | _ => D.statusResult

def reply (D : Peripheral) (t : Turn) : Frame :=
  ⟨101 + t.index, t.index + 1, t.code.value, t.replyData D⟩

/-- What it sends behind the answer. -/
def pushes (D : Peripheral) (t : Turn) : List Answer :=
  if t.code = .senderDeviceStatus then FakeBleakClient.pushes D else []

def pushed (D : Peripheral) (t : Turn) : List SentFrame := framesOf (101 + t.index) (t.pushes D)

variable {D : Peripheral} {data : Bytes} {t : Turn}

theorem answers_frame (ht : t ∈ turns data) :
    answersTo D t.frame = ⟨t.code.value, t.replyData D, t.index + 1, t.login⟩ :: t.pushes D := by
  simp only [turns, List.mem_cons, List.not_mem_nil, or_false] at ht
  rcases ht with rfl | rfl | rfl <;> rfl

theorem index_lt (ht : t ∈ turns data) : t.index < 3 := by
  simp only [turns, List.mem_cons, List.not_mem_nil, or_false] at ht
  rcases ht with rfl | rfl | rfl <;> simp [deviceInfoTurn, pairTurn, deviceStatusTurn]

theorem value_lt (code : TuyaBleCommandCode) : code.value < 2 ^ 16 := by cases code <;> decide

end Turn

theorem mem_framesOf {answers : List Answer} {sequenceNumber : Nat} {sent : SentFrame}
    (h : sent ∈ framesOf sequenceNumber answers) : sequenceNumber < sent.1.sequenceNumber ∧
      ∃ answer ∈ answers, sent.2 = answer.login ∧ sent.1.responseTo = answer.responseTo ∧
        sent.1.code = answer.code ∧ sent.1.data = answer.data := by
  induction answers generalizing sequenceNumber with
  | nil => cases h
  | cons answer answers ih =>
    rcases List.mem_cons.1 h with rfl | h
    · exact ⟨Nat.lt_succ_self _, answer, List.mem_cons_self .., rfl, rfl, rfl, rfl⟩
    · obtain ⟨hn, answer', hm, he⟩ := ih h
      exact ⟨by omega, answer', List.mem_cons_of_mem _ hm, he⟩

theorem length_framesOf (sequenceNumber : Nat) (answers : List Answer) :
    (framesOf sequenceNumber answers).length = answers.length := by
  induction answers generalizing sequenceNumber with
  | nil => rfl
  | cons answer answers ih => simp [framesOf, ih]

/-- What the device sends on its own initiative answers nothing. -/
theorem mem_pushed {D : Peripheral} {t : Turn} {sent : SentFrame} (h : sent ∈ t.pushed D) :
    sent.1.sequenceNumber ≠ 0 ∧ sent.1.responseTo = 0 ∧ sent.2 = false := by
  obtain ⟨hn, answer, hm, hlogin, hresponse, -⟩ := mem_framesOf h
  rw [Turn.pushes] at hm
  split at hm
  · have hpush : answer.login = false ∧ answer.responseTo = 0 := by
      rcases List.mem_append.1 hm with hm | hm <;> obtain ⟨_, -, rfl⟩ := List.mem_map.1 hm <;>
        exact ⟨rfl, rfl⟩
    exact ⟨by omega, hresponse.trans hpush.2, hlogin.trans hpush.1⟩
  · cases hm

/-- The answers of the device fit a frame. -/
theorem Peripheral.Serves.fits {D : Peripheral} {credentials : TuyaBleCredentials}
    {info : DeviceInfo} {data : Bytes} (h : D.Serves credentials info data) {t : Turn}
    (ht : t ∈ turns data) : ∀ answer ∈ answersTo D t.frame, Packable answer := by
  have hsize := h.sizes
  have hpair : D.pairingResult.length ≤ 65535 := by
    rcases verifyPairingResult_eq_ok.1 h.pairing with he | he <;> rw [he] <;> decide
  have hreply : (t.replyData D).length ≤ 65535 := by
    unfold Turn.replyData
    split
    · exact hsize _ (by simp)
    · exact hpair
    · exact hsize _ (by simp)
  intro answer hm
  rw [Turn.answers_frame ht] at hm
  have hindex := Turn.index_lt ht
  rcases List.mem_cons.1 hm with rfl | hm
  · exact ⟨by simp only; omega, Turn.value_lt _, hreply⟩
  · rw [Turn.pushes] at hm
    split at hm
    · rcases List.mem_append.1 hm with hm | hm
      · obtain ⟨code, -, rfl⟩ := List.mem_map.1 hm
        exact ⟨Nat.two_pow_pos 32, Turn.value_lt _, Nat.zero_le _⟩
      · obtain ⟨report, hr, rfl⟩ := List.mem_map.1 hm
        exact ⟨Nat.two_pow_pos 32, Turn.value_lt .receiveDataPoint, hsize _ (by simp [hr])⟩
    · cases hm

/-! ## Where a read stands -/

/-- The datapoints of what has been delivered, the last of each identifier. -/
def gatherPast (past : List (Frame × Clock)) : Dict Nat DataPoint :=
  (past.filterMap fun p => reportOf p.1 p.2).foldl (fun d r => d.setAll DataPoint.identifier r) []

/-- The frames the device has got that answer nothing. -/
def FakeBleakClient.requested (device : FakeBleakClient) : List Frame :=
  device.received.filter fun frame => frame.responseTo = 0

namespace System

variable (P : Primitives) (D : Peripheral) (data : Bytes) (T : Clock → Prop)

/-- The key of the request is known, and `received` requests have been received. -/
structure Known (t : Turn) (received : Nat) (client : TuyaBleClient) (device : FakeBleakClient) :
    Prop where
  key : t.login = false → client.sessionKey = some (keyOf P D false)
  received : device.requested = ((turns data).take received).map Turn.frame

/-- The request is the next thing to do. -/
structure Before (t : Turn) (client : TuyaBleClient) (futures : List Future)
    (device : FakeBleakClient) : Prop extends Known P D data t t.index client device where
  number : client.sequenceNumber = t.index + 1
  requests : futures.length = t.index
  background : client.background = []
  reports : client.reports = []
  sent : device.sequenceNumber = 100 + t.index
  quiet : device.notifications = []

/-- The request waits for its answer. -/
structure Unanswered (t : Turn) (client : TuyaBleClient) (futures : List Future) : Prop where
  number : client.sequenceNumber = t.index + 2
  requests : futures.length = t.index + 1
  future : futures[t.index]? = some .pending
  pending : client.pending = [(t.index + 1, t.index)]
  background : client.background = []
  reports : client.reports = []

/-- The device has got a part of the request. -/
structure Writing (t : Turn) (send : Send) (client : TuyaBleClient) (futures : List Future)
    (device : FakeBleakClient) : Prop extends
    Known P D data t t.index client device, Unanswered t client futures where
  payload : Sealed P (keyOf P D t.login) (flagOf t.login) t.frame send.payload
  carries : Receiver.CarriesFrom PacketReassembler.feed .new device.reassembler send.rest
    send.payload
  sent : device.sequenceNumber = 100 + t.index
  quiet : device.notifications = []

/-- The device has answered, and the answer is under way. -/
structure Asked (t : Turn) (client : TuyaBleClient) (futures : List Future)
    (device : FakeBleakClient) : Prop extends
    Known P D data t (t.index + 1) client device, Unanswered t client futures where
  underway : Underway P D client.reassembler device.notifications
    ((t.reply D, t.login) :: t.pushed D)
  sent : device.sequenceNumber = 101 + t.index + (t.pushed D).length

/-- The answer has been delivered, and `past` of what comes behind it. -/
structure Answered (t : Turn) (collected : Dict Nat DataPoint) (past : List (Frame × Clock))
    (flight : List SentFrame) (client : TuyaBleClient) (futures : List Future)
    (device : FakeBleakClient) : Prop extends Known P D data t (t.index + 1) client device where
  pushed : t.pushed D = past.map (fun p => (p.1, false)) ++ flight
  underway : Underway P D client.reassembler device.notifications flight
  gathered : client.reports.foldl (fun d r => d.setAll DataPoint.identifier r) collected =
    gatherPast past
  requests : futures.length = t.index + 1
  sent : device.sequenceNumber = 101 + t.index + (t.pushed D).length
  fresh : past = [] →
    client.sequenceNumber = t.index + 2 ∧ client.background = [] ∧ client.reports = []
  clocks : ∀ p ∈ past, T p.2

/-- The whole request has been written. -/
def Written (t : Turn) (request : Request) (client : TuyaBleClient) (futures : List Future)
    (device : FakeBleakClient) : Prop :=
  request = t.request ∧ (Asked P D data t client futures device ∨
    futures[t.index]? = some (.done (t.reply D)) ∧ client.pending = [] ∧
      ∃ past flight, Answered P D data T t [] past flight client futures device)

/-- All the device had to say has been delivered, and this is what it comes to. -/
def Complete (outcome : Outcome) : Prop :=
  ∃ past : List (Frame × Clock), deviceStatusTurn.pushed D = past.map (fun p => (p.1, false)) ∧
    (∀ p ∈ past, T p.2) ∧ outcome = .ok (gatherPast past)

/-- Where the read stands, by what its task awaits. -/
def Stage (session : Session) (client : TuyaBleClient) (futures : List Future)
    (device : FakeBleakClient) : Prop :=
  match session with
  | .idle => device.notifications = [] ∧ device.requested = (turns data).map Turn.frame
  | .connecting | .subscribing => Before P D data deviceInfoTurn client futures device
  | .requesting call =>
    ∃ t ∈ turns data, call = t.call P D ∧ Before P D data t client futures device
  | .sending request send | .writing request send =>
    ∃ t ∈ turns data, request = t.request ∧ Writing P D data t send client futures device ∨
      send.rest = [] ∧ Written P D data T t request client futures device
  | .replyDue request | .waiting request =>
    ∃ t ∈ turns data, Written P D data T t request client futures device
  | .replied code reply => ∃ t ∈ turns data, code = t.code ∧ reply = t.reply D ∧
      ∃ past flight, Answered P D data T t [] past flight client futures device
  | .failed .. => False
  | .draining collected | .collecting collected =>
    ∃ past flight, Answered P D data T deviceStatusTurn collected past flight client futures device
  | .leaving outcome | .disconnecting outcome =>
    device.notifications = [] ∧ device.requested = (turns data).map Turn.frame ∧
      Complete D T outcome

end System

end TuyaBle
