import TuyaBle.Client.State
import TuyaBle.Commands.TimeReply

/-!
# Notifications

The callback bleak calls for every notification: reassemble, decrypt, dispatch, and act
on the frames the device sends on its own initiative.
-/

namespace TuyaBle

namespace TuyaBleClient

/-- The key a received payload announces it was encrypted with. -/
def keyFor (self : TuyaBleClient) (securityFlag : Nat) : Option AesKey :=
  if securityFlag = securityFlagAuthenticationKey then self.authenticationKey
  else if securityFlag = securityFlagLoginKey then some self.loginKey
  else if securityFlag = securityFlagSessionKey then self.sessionKey
  else none

/-- Read one completed payload; `none` when no key is usable. -/
def readPayload (P : Primitives) (self : TuyaBleClient) (payload : Bytes) :
    Except PyException (Option Frame) := do
  let flag ← securityFlagOf payload
  match self.keyFor flag with
  | none => return none
  | some key =>
    let frame ← Frame.decode P payload key
    return some frame

/-- The part of `_on_notification` before `_dispatch`: the frame `chunk` completes, if any. -/
def receive (P : Primitives) (self : TuyaBleClient) (chunk : Bytes) :
    TuyaBleClient × Except PyException (Option Frame) :=
  match self.reassembler.feed chunk with
  | (reassembler, .error e) => ({ self with reassembler }, .error e)
  | (reassembler, .ok none) => ({ self with reassembler }, .ok none)
  | (reassembler, .ok (some payload)) =>
    ({ self with reassembler }, self.readPayload P payload)

/-- Hand a parsed report to the read that is waiting for one. -/
def publish (self : TuyaBleClient) (dataPoints : List DataPoint) : TuyaBleClient × List Obs :=
  if dataPoints = [] then (self, [])
  else ({ self with reports := self.reports ++ [dataPoints] }, [.published dataPoints])

/-- Schedule the answer to a device-initiated frame. -/
def reply (self : TuyaBleClient) (frame : Frame) (data : Bytes) : TuyaBleClient × List Obs :=
  let response : Frame := ⟨self.sequenceNumber, frame.sequenceNumber, frame.code, data⟩
  ({ self with sequenceNumber := self.sequenceNumber + 1
               background := self.background ++ [⟨response, none⟩] },
    [.built response, .scheduled response])

/-- Publish a report and acknowledge it. -/
def acknowledge (self : TuyaBleClient) (frame : Frame) (dataPoints : List DataPoint) :
    TuyaBleClient × List Obs :=
  let (self, published) := self.publish dataPoints
  let (self, replied) := self.reply frame []
  (self, published ++ replied)

def handleDeviceCommand (self : TuyaBleClient) (code : TuyaBleCommandCode) (frame : Frame)
    (clock : Clock) : Except PyException (TuyaBleClient × List Obs) :=
  match code with
  | .receiveDataPoint => do
    let dataPoints ← parseDataPoints frame.data 0 clock.time
    return self.acknowledge frame dataPoints
  | .receiveTimeDataPoint => do
    let (timestamp, position) ← parseTimestamp frame.data 0
    let dataPoints ← parseDataPoints frame.data position timestamp
    return self.acknowledge frame dataPoints
  | .receiveUnixTimeRequest => do
    let data ← buildUnixTimeReply clock
    return self.reply frame data
  | .receiveLocalTimeRequest => do
    let data ← buildLocalTimeReply clock
    return self.reply frame data
  | _ => .ok (self, [])

end TuyaBleClient

/-- What the `except` clause of `_on_notification` lets through. -/
def escaping (e : PyException) : List Obs := if e.isTuyaBleError then [] else [.callbackRaised e]

namespace World

/-- Route a frame no request is waiting for. -/
def route (w : World) (frame : Frame) (clock : Clock) : World × List Obs :=
  match TuyaBleCommandCode.fromValue frame.code with
  | none => (w, [])
  | some code =>
    match w.self.handleDeviceCommand code frame clock with
    | .error e => (w, escaping e)
    | .ok (self, os) => ({ w with self }, os)

/-- Pop the entry of `_pending` the frame answers, and complete its future or route the frame. -/
def dispatch (w : World) (frame : Frame) (clock : Clock) : World × List Obs :=
  let popped := { w with self := { w.self with pending := w.self.pending.erase frame.responseTo } }
  match w.self.pending.get? frame.responseTo with
  | none => popped.route frame clock
  | some future =>
    if w.futures[future]? = some .pending then
      ({ popped with futures := w.futures.set future (.done frame) },
        [.completed frame.responseTo frame])
    else popped.route frame clock

def onNotification (P : Primitives) (w : World) (chunk : Bytes) (clock : Clock) :
    World × List Obs :=
  match w.self.receive P chunk with
  | (self, .error e) => ({ w with self }, escaping e)
  | (self, .ok none) => ({ w with self }, [])
  | (self, .ok (some frame)) =>
    let (w, os) := { w with self }.dispatch frame clock
    (w, .received frame :: os)

end World

/-! ## What a notification can do -/

/-- The report and the answer of a command the device sends on its own initiative;
`none` for any other frame and for one that cannot be read. -/
def commandOf (frame : Frame) (clock : Clock) : Option (List DataPoint × Bytes) :=
  match TuyaBleCommandCode.fromValue frame.code with
  | some .receiveDataPoint =>
    match parseDataPoints frame.data 0 clock.time with
    | .ok dataPoints => some (dataPoints, [])
    | .error _ => none
  | some .receiveTimeDataPoint =>
    match parseTimestamp frame.data 0 with
    | .ok (timestamp, position) =>
      match parseDataPoints frame.data position timestamp with
      | .ok dataPoints => some (dataPoints, [])
      | .error _ => none
    | .error _ => none
  | some .receiveUnixTimeRequest =>
    match buildUnixTimeReply clock with
    | .ok data => some ([], data)
    | .error _ => none
  | some .receiveLocalTimeRequest =>
    match buildLocalTimeReply clock with
    | .ok data => some ([], data)
    | .error _ => none
  | _ => none

/-- The queue entries of a report. -/
def queued (dataPoints : List DataPoint) : List (List DataPoint) :=
  if dataPoints = [] then [] else [dataPoints]

namespace TuyaBleClient

/-- The frame `_reply` builds. -/
def responseTo (self : TuyaBleClient) (frame : Frame) (data : Bytes) : Frame :=
  ⟨self.sequenceNumber, frame.sequenceNumber, frame.code, data⟩

/-- The client after a device command. -/
def handled (self : TuyaBleClient) (frame : Frame) (dataPoints : List DataPoint) (data : Bytes) :
    TuyaBleClient :=
  { self with reports := self.reports ++ queued dataPoints
              sequenceNumber := self.sequenceNumber + 1
              background := self.background ++ [⟨self.responseTo frame data, none⟩] }

/-- What it does is seen as. -/
def handledObs (self : TuyaBleClient) (frame : Frame) (dataPoints : List DataPoint) (data : Bytes) :
    List Obs :=
  (queued dataPoints).map .published ++
    [.built (self.responseTo frame data), .scheduled (self.responseTo frame data)]

theorem acknowledge_eq (self : TuyaBleClient) (frame : Frame) (dataPoints : List DataPoint) :
    self.acknowledge frame dataPoints =
      (self.handled frame dataPoints [], self.handledObs frame dataPoints []) := by
  simp only [acknowledge, publish, reply, handled, handledObs, queued, responseTo]
  split <;> simp

theorem reply_eq (self : TuyaBleClient) (frame : Frame) (data : Bytes) :
    self.reply frame data = (self.handled frame [] data, self.handledObs frame [] data) := by
  simp [reply, handled, handledObs, queued, responseTo]

/-- A device command raises protocol errors only. -/
theorem handleDeviceCommand_fails (self : TuyaBleClient) (code : TuyaBleCommandCode)
    (frame : Frame) (clock : Clock) :
    Fails (self.handleDeviceCommand code frame clock) .tuyaBleProtocolError := by
  intro e he
  obtain ⟨⟨unix, hunix⟩, localTime, hlocal⟩ := buildTimeReplies_ok clock
  cases code with
  | receiveDataPoint =>
    simp only [handleDeviceCommand, bind, Except.bind] at he
    split at he
    · rename_i h; cases he; exact parseDataPoints_fails _ _ _ _ h
    · cases he
  | receiveTimeDataPoint =>
    simp only [handleDeviceCommand, bind, Except.bind] at he
    split at he
    · rename_i h; cases he; exact parseTimestamp_fails _ _ _ h
    · split at he
      · rename_i h; cases he; exact parseDataPoints_fails _ _ _ _ h
      · cases he
  | receiveUnixTimeRequest =>
    simp only [handleDeviceCommand, hunix, bind, Except.bind] at he
    cases he
  | receiveLocalTimeRequest =>
    simp only [handleDeviceCommand, hlocal, bind, Except.bind] at he
    cases he
  | _ => cases he

theorem readPayload_fails (P : Primitives) (self : TuyaBleClient) (payload : Bytes) :
    Fails (self.readPayload P payload) .tuyaBleProtocolError := by
  intro e he
  unfold readPayload at he
  rcases Except.bind_eq_error.1 he with hf | ⟨flag, -, hk⟩
  · simp only [securityFlagOf] at hf
    split at hf
    · cases hf; rfl
    · rename_i hne
      obtain ⟨b, hb, -⟩ := byteAt_isOk _ _ (List.length_pos_iff.2 hne)
      rw [hb] at hf
      cases hf
  · split at hk
    · cases hk
    · rcases Except.bind_eq_error.1 hk with hd | ⟨_, -, h⟩
      · exact Frame.decode_fails _ _ _ hd
      · cases h

theorem receive_fails (P : Primitives) (self : TuyaBleClient) (chunk : Bytes) :
    Fails (self.receive P chunk).2 .tuyaBleProtocolError := by
  intro e he
  unfold receive at he
  split at he
  · rename_i h
    have hf := PacketReassembler.feed_fails self.reassembler chunk
    rw [h] at hf
    cases he
    exact hf e rfl
  · cases he
  · exact readPayload_fails P self _ e he

/-- Reading a notification changes the reassembler only. -/
theorem receive_fst (P : Primitives) (self : TuyaBleClient) (chunk : Bytes) :
    (self.receive P chunk).1 = { self with reassembler := (self.reassembler.feed chunk).1 } := by
  unfold receive
  split <;> rename_i h <;> rw [h]

end TuyaBleClient

namespace World

/-- The world once the reassembler has taken a chunk. -/
def fed (w : World) (chunk : Bytes) : World :=
  { w with self := { w.self with reassembler := (w.self.reassembler.feed chunk).1 } }

/-- The world once the entry of `_pending` a frame answers is popped. -/
def popped (w : World) (number : Nat) : World :=
  { w with self := { w.self with pending := w.self.pending.erase number } }

theorem route_eq (w : World) (frame : Frame) (clock : Clock) :
    w.route frame clock =
      match commandOf frame clock with
      | none => (w, [])
      | some (dataPoints, data) =>
        ({ w with self := w.self.handled frame dataPoints data },
          w.self.handledObs frame dataPoints data) := by
  have hesc : ∀ {code e}, w.self.handleDeviceCommand code frame clock = .error e →
      escaping e = [] := fun {code e} h => by
    have := TuyaBleClient.handleDeviceCommand_fails w.self code frame clock e h
    simp [escaping, PyException.isTuyaBleError, this, ExceptionType.isTuyaBleError]
  obtain ⟨⟨unix, hunix⟩, localTime, hlocal⟩ := buildTimeReplies_ok clock
  unfold route
  cases hc : TuyaBleCommandCode.fromValue frame.code with
  | none => simp only [commandOf, hc]
  | some code =>
    cases code with
    | receiveDataPoint =>
      simp only [commandOf, hc]
      cases hp : parseDataPoints frame.data 0 clock.time with
      | error e =>
        have : w.self.handleDeviceCommand .receiveDataPoint frame clock = .error e := by
          simp only [TuyaBleClient.handleDeviceCommand, hp, bind, Except.bind]
        simp only [this, hesc this]
      | ok dataPoints =>
        simp only [TuyaBleClient.handleDeviceCommand, hp, bind, Except.bind, pure, Except.pure,
          TuyaBleClient.acknowledge_eq]
    | receiveTimeDataPoint =>
      simp only [commandOf, hc]
      cases ht : parseTimestamp frame.data 0 with
      | error e =>
        have : w.self.handleDeviceCommand .receiveTimeDataPoint frame clock = .error e := by
          simp only [TuyaBleClient.handleDeviceCommand, ht, bind, Except.bind]
        simp only [this, hesc this]
      | ok r =>
        obtain ⟨timestamp, position⟩ := r
        cases hp : parseDataPoints frame.data position timestamp with
        | error e =>
          have : w.self.handleDeviceCommand .receiveTimeDataPoint frame clock = .error e := by
            simp only [TuyaBleClient.handleDeviceCommand, ht, hp, bind, Except.bind]
          simp only [this, hesc this, hp]
        | ok dataPoints =>
          simp only [TuyaBleClient.handleDeviceCommand, ht, hp, bind, Except.bind, pure,
            Except.pure, TuyaBleClient.acknowledge_eq]
    | receiveUnixTimeRequest =>
      simp only [commandOf, hc, TuyaBleClient.handleDeviceCommand, hunix, bind, Except.bind, pure,
        Except.pure, TuyaBleClient.reply_eq]
    | receiveLocalTimeRequest =>
      simp only [commandOf, hc, TuyaBleClient.handleDeviceCommand, hlocal, bind, Except.bind, pure,
        Except.pure, TuyaBleClient.reply_eq]
    | _ => simp only [commandOf, hc, TuyaBleClient.handleDeviceCommand]

/-- The request waiting for `frame`. -/
def awaited (w : World) (frame : Frame) : Option FutureId :=
  (w.self.pending.get? frame.responseTo).filter fun future => w.futures[future]? = some .pending

/-- What a notification can do: the frame it completes, if any, answers a request, is a
command of the device or is ignored. -/
inductive Notified (P : Primitives) (w : World) (chunk : Bytes) (clock : Clock) :
    World → List Obs → Prop where
  | quiet : (∀ frame, (w.self.receive P chunk).2 ≠ .ok (some frame)) →
      Notified P w chunk clock (w.fed chunk) []
  | completed (frame : Frame) (future : FutureId) :
      (w.self.receive P chunk).2 = .ok (some frame) → w.awaited frame = some future →
      Notified P w chunk clock
        { (w.fed chunk).popped frame.responseTo with
          futures := w.futures.set future (.done frame) }
        [.received frame, .completed frame.responseTo frame]
  | ignored (frame : Frame) :
      (w.self.receive P chunk).2 = .ok (some frame) → w.awaited frame = none →
      commandOf frame clock = none →
      Notified P w chunk clock ((w.fed chunk).popped frame.responseTo) [.received frame]
  | handled (frame : Frame) (dataPoints : List DataPoint) (data : Bytes) :
      (w.self.receive P chunk).2 = .ok (some frame) → w.awaited frame = none →
      commandOf frame clock = some (dataPoints, data) →
      Notified P w chunk clock
        { (w.fed chunk).popped frame.responseTo with
          self := ((w.fed chunk).popped frame.responseTo).self.handled frame dataPoints data }
        (.received frame :: w.self.handledObs frame dataPoints data)

theorem onNotification_notified (P : Primitives) (w : World) (chunk : Bytes) (clock : Clock) :
    Notified P w chunk clock (w.onNotification P chunk clock).1
      (w.onNotification P chunk clock).2 := by
  have hfst := w.self.receive_fst P chunk
  unfold onNotification
  split
  · rename_i self e h
    have hesc : escaping e = [] := by
      have := w.self.receive_fails P chunk e (by rw [h])
      simp [escaping, PyException.isTuyaBleError, this, ExceptionType.isTuyaBleError]
    rw [h] at hfst
    rw [hesc, show self = _ from hfst]
    exact .quiet (by rw [h]; simp)
  · rename_i self h
    rw [h] at hfst
    rw [show self = _ from hfst]
    exact .quiet (by rw [h]; simp)
  · rename_i self frame h
    rw [h] at hfst
    have hr : (w.self.receive P chunk).2 = .ok (some frame) := by rw [h]
    rw [show self = _ from hfst]
    unfold dispatch
    cases hp : w.self.pending.get? frame.responseTo with
    | none =>
      have ha : w.awaited frame = none := by simp [awaited, hp]
      simp only [route_eq]
      cases hc : commandOf frame clock with
      | none => exact .ignored frame hr ha hc
      | some p => exact .handled frame p.1 p.2 hr ha hc
    | some future =>
      by_cases hf : w.futures[future]? = some .pending
      · simp only [hf, ↓reduceIte]
        exact .completed frame future hr (by simp [awaited, hp, hf])
      · have ha : w.awaited frame = none := by simp [awaited, hp, hf]
        simp only [hf, ↓reduceIte, route_eq]
        cases hc : commandOf frame clock with
        | none => exact .ignored frame hr ha hc
        | some p => exact .handled frame p.1 p.2 hr ha hc

end World

end TuyaBle
