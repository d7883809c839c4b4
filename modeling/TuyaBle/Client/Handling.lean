import TuyaBle.Client.Machine
import TuyaBle.Commands.TimedReport
import TuyaBle.FakeDevice

/-!
# Frames are handled whole or not at all

The callback never raises, and a notification whose frame is dropped leaves behind no more
than the reassembler's buffer. A timed report is handled as the plain one that holds its
records.
-/

namespace TuyaBle

/-- The frame is a report whose timestamp or records cannot be read. -/
def Unparsable (frame : Frame) (clock : Clock) : Prop :=
  (TuyaBleCommandCode.fromValue frame.code = some .receiveDataPoint ∧
    ∃ e, parseDataPoints frame.data 0 clock.time = .error e) ∨
  (TuyaBleCommandCode.fromValue frame.code = some .receiveTimeDataPoint ∧
    ((∃ e, parseTimestamp frame.data 0 = .error e) ∨
      ∃ timestamp position e, parseTimestamp frame.data 0 = .ok (timestamp, position) ∧
        parseDataPoints frame.data position timestamp = .error e))

theorem commandOf_unparsable {frame : Frame} {clock : Clock} (h : Unparsable frame clock) :
    commandOf frame clock = none := by
  rcases h with ⟨hc, e, hp⟩ | ⟨hc, ⟨e, ht⟩ | ⟨timestamp, position, e, ht, hp⟩⟩
  · simp only [commandOf, hc, hp]
  · simp only [commandOf, hc, ht]
  · simp only [commandOf, hc, ht, hp]

namespace World

/-- The ways a chunk ends in a dropped frame. -/
inductive Dropped (P : Primitives) (w : World) (chunk : Bytes) (clock : Clock) : Prop where
  | incomplete : (w.self.reassembler.feed chunk).2 = .ok none → Dropped P w chunk clock
  | unreadable (e : PyException) : (w.self.reassembler.feed chunk).2 = .error e →
      Dropped P w chunk clock
  | unflagged (payload : Bytes) (e : PyException) :
      (w.self.reassembler.feed chunk).2 = .ok (some payload) →
      securityFlagOf payload = .error e → Dropped P w chunk clock
  | keyless (payload : Bytes) (flag : Nat) :
      (w.self.reassembler.feed chunk).2 = .ok (some payload) → securityFlagOf payload = .ok flag →
      w.self.keyFor flag = none → Dropped P w chunk clock
  | undecodable (payload : Bytes) (flag : Nat) (key : AesKey) (e : PyException) :
      (w.self.reassembler.feed chunk).2 = .ok (some payload) → securityFlagOf payload = .ok flag →
      w.self.keyFor flag = some key → Frame.decode P payload key = .error e →
      Dropped P w chunk clock
  | unparsable (payload : Bytes) (flag : Nat) (key : AesKey) (frame : Frame) :
      (w.self.reassembler.feed chunk).2 = .ok (some payload) → securityFlagOf payload = .ok flag →
      w.self.keyFor flag = some key → Frame.decode P payload key = .ok frame →
      w.awaited frame = none → Unparsable frame clock → Dropped P w chunk clock

/-- What a dropped frame does not change. -/
structure Untouched (w w' : World) : Prop where
  reports : w'.self.reports = w.self.reports
  sequenceNumber : w'.self.sequenceNumber = w.self.sequenceNumber
  background : w'.self.background = w.self.background
  loginKey : w'.self.loginKey = w.self.loginKey
  sessionKey : w'.self.sessionKey = w.self.sessionKey
  authenticationKey : w'.self.authenticationKey = w.self.authenticationKey
  protocolVersion : w'.self.protocolVersion = w.self.protocolVersion
  client : w'.self.client = w.self.client
  session : w'.session = w.session
  interrupt : w'.interrupt = w.interrupt
  futures : w'.futures = w.futures
  /-- A request still waiting is found under its number as before. -/
  waiting : ∀ number future, w.futures[future]? = some .pending →
    (w'.self.pending.get? number = some future ↔ w.self.pending.get? number = some future)

theorem untouched_fed (w : World) (chunk : Bytes) : Untouched w (w.fed chunk) :=
  ⟨rfl, rfl, rfl, rfl, rfl, rfl, rfl, rfl, rfl, rfl, rfl, fun _ _ _ => Iff.rfl⟩

/-- Popping the entry of a frame no request waits for is not seen by those that wait. -/
theorem untouched_popped {w : World} {frame : Frame} (h : w.awaited frame = none) (chunk : Bytes) :
    Untouched w ((w.fed chunk).popped frame.responseTo) where
  reports := rfl
  sequenceNumber := rfl
  background := rfl
  loginKey := rfl
  sessionKey := rfl
  authenticationKey := rfl
  protocolVersion := rfl
  client := rfl
  session := rfl
  interrupt := rfl
  futures := rfl
  waiting := by
    intro number future hf
    simp only [popped, fed, Dict.get?_erase]
    split
    · rename_i hn
      subst hn
      constructor
      · intro he
        cases he
      · intro hp
        simp [awaited, hp, hf] at h
    · rfl

theorem receive_payload {P : Primitives} {w : World} {chunk payload : Bytes}
    (h : (w.self.reassembler.feed chunk).2 = .ok (some payload)) :
    (w.self.receive P chunk).2 = w.self.readPayload P payload := by
  unfold TuyaBleClient.receive
  split <;> rename_i hf <;> rw [hf] at h <;> cases h
  rfl

/-- A dropped frame is not there at all, or is a report that cannot be read. -/
theorem Dropped.not_handled {P : Primitives} {w : World} {chunk : Bytes} {clock : Clock}
    {frame : Frame} (h : Dropped P w chunk clock)
    (hr : (w.self.receive P chunk).2 = .ok (some frame)) :
    w.awaited frame = none ∧ commandOf frame clock = none := by
  cases h with
  | incomplete hf =>
    unfold TuyaBleClient.receive at hr
    split at hr <;> rename_i hs <;> rw [hs] at hf <;> cases hf
    cases hr
  | unreadable e hf =>
    unfold TuyaBleClient.receive at hr
    split at hr <;> rename_i hs <;> rw [hs] at hf <;> cases hf
    cases hr
  | unflagged payload e hf hflag =>
    rw [receive_payload hf] at hr
    simp only [TuyaBleClient.readPayload, hflag, bind, Except.bind] at hr
    cases hr
  | keyless payload flag hf hflag hkey =>
    rw [receive_payload hf] at hr
    simp only [TuyaBleClient.readPayload, hflag, hkey, bind, Except.bind] at hr
    cases hr
  | undecodable payload flag key e hf hflag hkey hd =>
    rw [receive_payload hf] at hr
    simp only [TuyaBleClient.readPayload, hflag, hkey, hd, bind, Except.bind] at hr
    cases hr
  | unparsable payload flag key frame' hf hflag hkey hd ha hp =>
    rw [receive_payload hf] at hr
    simp only [TuyaBleClient.readPayload, hflag, hkey, hd, bind, Except.bind] at hr
    cases hr
    exact ⟨ha, commandOf_unparsable hp⟩

/-- **Notification handling is total and atomic**: the callback returns without raising in
every state and for every chunk; and when the frame is dropped, nothing is published, nothing
is answered, and no part of the session is touched. -/
theorem notification_atomic (P : Primitives) (w : World) (chunk : Bytes) (clock : Clock) :
    ∃ w' os, (machine P).step w (.notify chunk clock) = some (w', os) ∧
      (∀ e, .callbackRaised e ∉ os) ∧
      (Dropped P w chunk clock → Untouched w w' ∧ ∀ o ∈ os, ∃ frame, o = .received frame) := by
  refine ⟨(w.onNotification P chunk clock).1, (w.onNotification P chunk clock).2, rfl, ?_⟩
  have hn := onNotification_notified P w chunk clock
  generalize (w.onNotification P chunk clock).1 = w' at hn
  generalize (w.onNotification P chunk clock).2 = os at hn
  cases hn with
  | quiet hnone =>
    exact ⟨by simp, fun _ => ⟨untouched_fed w chunk, by simp⟩⟩
  | completed frame future hr ha =>
    refine ⟨by simp, fun hd => ?_⟩
    rw [(hd.not_handled hr).1] at ha
    cases ha
  | ignored frame hr ha hc =>
    exact ⟨by simp, fun _ => ⟨untouched_popped ha chunk, by simp⟩⟩
  | handled frame dataPoints data hr ha hc =>
    refine ⟨by simp [TuyaBleClient.handledObs], fun hd => ?_⟩
    rw [(hd.not_handled hr).2] at hc
    cases hc

end World

/-! ## Timed and plain reports -/

/-- **Timed and plain reports agree**: behind a timestamp that is read as a whole, the datapoints
the records hold are published as in a plain report, in the same order and with the moment of
the timestamp for that of reception; or neither report can be read, and nothing happens. A
report that is read is published whole, if it holds any datapoint, and one answer is
scheduled. -/
theorem timed_reports_agree (w : World) (clock : Clock) {header records : Bytes} {moment : Rat}
    (hheader : parseTimestamp header 0 = .ok (moment, header.length)) {timed plain : Frame}
    (htimed : timed.code = TuyaBleCommandCode.receiveTimeDataPoint.value)
    (hplain : plain.code = TuyaBleCommandCode.receiveDataPoint.value)
    (hdt : timed.data = header ++ records) (hdp : plain.data = records) :
    (∃ points, parseDataPoints records 0 clock.time = .ok points ∧
      (∀ point ∈ points, point.timestamp = clock.time) ∧
      w.self.handleDeviceCommand .receiveDataPoint plain clock =
        .ok (w.self.handled plain points [], w.self.handledObs plain points []) ∧
      w.self.handleDeviceCommand .receiveTimeDataPoint timed clock =
        .ok (w.self.handled timed (points.map (.retimed moment)) [],
          w.self.handledObs timed (points.map (.retimed moment)) [])) ∨
    ((∃ e, w.self.handleDeviceCommand .receiveDataPoint plain clock = .error e) ∧
      (∃ e, w.self.handleDeviceCommand .receiveTimeDataPoint timed clock = .error e) ∧
      w.route plain clock = (w, []) ∧ w.route timed clock = (w, [])) := by
  have htc : TuyaBleCommandCode.fromValue timed.code = some .receiveTimeDataPoint := by
    rw [htimed, TuyaBleCommandCode.fromValue_value]
  have hpc : TuyaBleCommandCode.fromValue plain.code = some .receiveDataPoint := by
    rw [hplain, TuyaBleCommandCode.fromValue_value]
  have hstamp : parseTimestamp timed.data 0 = .ok (moment, header.length) := by
    rw [hdt]
    exact parseTimestamp_append hheader records
  have happend : (parseDataPoints timed.data header.length moment).toOption =
      (parseDataPoints plain.data 0 clock.time).toOption.map (List.map (.retimed moment)) := by
    rw [hdt, hdp]
    exact parseDataPoints_append header records moment clock.time
  cases hp : parseDataPoints plain.data 0 clock.time with
  | ok points =>
    left
    rw [hp] at happend
    cases ht : parseDataPoints timed.data header.length moment with
    | error e => rw [ht] at happend; cases happend
    | ok points' =>
      rw [ht] at happend
      cases happend
      refine ⟨points, hdp ▸ hp, timestamps_of_parseDataPoints hp, ?_, ?_⟩
      · simp only [TuyaBleClient.handleDeviceCommand, hp, bind, Except.bind, pure, Except.pure,
          TuyaBleClient.acknowledge_eq]
      · simp only [TuyaBleClient.handleDeviceCommand, hstamp, ht, bind, Except.bind, pure,
          Except.pure, TuyaBleClient.acknowledge_eq]
  | error e =>
    right
    rw [hp] at happend
    cases ht : parseDataPoints timed.data header.length moment with
    | ok points => rw [ht] at happend; cases happend
    | error e' =>
      refine ⟨⟨e, ?_⟩, ⟨e', ?_⟩, ?_, ?_⟩
      · simp only [TuyaBleClient.handleDeviceCommand, hp, bind, Except.bind]
      · simp only [TuyaBleClient.handleDeviceCommand, hstamp, ht, bind, Except.bind]
      · rw [World.route_eq, commandOf_unparsable (.inl ⟨hpc, e, hp⟩)]
      · rw [World.route_eq, commandOf_unparsable (.inr ⟨htc, .inr ⟨_, _, e', hstamp, ht⟩⟩)]

open FakeDevice in
/-- The soil moisture of the fake device, behind a timestamp five seconds before the report
is received. -/
theorem timed_soil_moisture :
    let timed : Frame := ⟨104, 0, 0x8003, [1, 0x65, 0x53, 0xf0, 0xfb] ++ report⟩
    let moisture : DataPoint := ⟨3, .value, .int 42, 1699999995⟩
    client.self.handleDeviceCommand .receiveTimeDataPoint timed clock =
      .ok (client.self.handled timed [moisture] [],
        client.self.handledObs timed [moisture] []) := by
  have hheader : parseTimestamp [1, 0x65, 0x53, 0xf0, 0xfb] 0 = .ok (1699999995, 5) := by
    decide +kernel
  have hread : parseDataPoints report 0 clock.time = .ok [⟨3, .value, .int 42, clock.time⟩] := rfl
  have htimed : Frame.code ⟨104, 0, 0x8003, [1, 0x65, 0x53, 0xf0, 0xfb] ++ report⟩ =
      TuyaBleCommandCode.receiveTimeDataPoint.value := rfl
  have hplain : Frame.code ⟨104, 0, 0x8001, report⟩ =
      TuyaBleCommandCode.receiveDataPoint.value := rfl
  rcases timed_reports_agree client clock hheader htimed hplain rfl rfl with
    ⟨points, hpoints, -, -, htimed⟩ | ⟨⟨e, he⟩, -⟩
  · obtain rfl := Except.ok.inj (hread.symm.trans hpoints)
    exact htimed
  · simp only [TuyaBleClient.handleDeviceCommand, hread, bind, Except.bind] at he
    cases he

end TuyaBle
