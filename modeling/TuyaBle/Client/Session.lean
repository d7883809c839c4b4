import TuyaBle.Client.State

/-!
# The session task

`async_read_data_points` from await to await. `wakeUp` delivers to the suspended task
what it waited for, or the cancellation requested meanwhile; `advance` is one turn of the
running task and `settle` runs it to its next await.
-/

namespace TuyaBle

namespace TuyaBleClient

def requireSessionKey (self : TuyaBleClient) : Except PyException AesKey :=
  match self.sessionKey with
  | none =>
    raise .tuyaBleError s!"Failed to talk to {self.address}: the handshake has not run"
  | some key => .ok key

/-- `_async_send` up to its write loop; `none` when splitting the payload never ends. -/
def startSend (P : Primitives) (self : TuyaBleClient) (frame : Frame) (key : AesKey)
    (securityFlag : Nat) (iv : InitializationVector) : Option (Except PyException Send) :=
  match self.client with
  | none =>
    some (raise .tuyaBleConnectionError s!"Failed to write to {self.address}: the link is closed")
  | some client =>
    match frame.encode P key securityFlag iv with
    | .error e => some (.error e)
    | .ok payload =>
      match buildPackets payload self.protocolVersion with
      | none => none
      | some (.error e) => some (.error e)
      | some (.ok packets) => some (.ok ⟨frame, key, securityFlag, client, payload, packets⟩)

/-- What an exception of `write_gatt_char` becomes in `_async_send`. -/
def writeFailure (self : TuyaBleClient) (e : PyException) : PyException :=
  if e.type = .bleakError then
    let text := e.message
    ⟨.tuyaBleConnectionError, s!"Failed to write to {self.address}: {text}", some .bleakError⟩
  else e

/-- What an exception raised in `_async_connect` becomes. -/
def connectFailure (self : TuyaBleClient) (e : PyException) : PyException :=
  if e.isTuyaBleError ∨ ¬ e.type.isException then e
  else
    let text := e.message
    ⟨.tuyaBleConnectionError, s!"Failed to connect to {self.address}: {text}", some e.type⟩

/-- Take the session parameters the device just disclosed. -/
def adoptDeviceInfo (P : Primitives) (self : TuyaBleClient) (info : DeviceInfo) : TuyaBleClient :=
  { self with protocolVersion := info.protocolVersion
              authenticationKey := some info.authenticationKey
              sessionKey := some (TuyaBle.sessionKey P self.credentials.localKey info.srand) }

/-- The session state as `_async_disconnect` leaves it. -/
def reset (self : TuyaBleClient) : TuyaBleClient :=
  { self with background := []
              pending := []
              client := none
              sessionKey := none
              sequenceNumber := 1
              reassembler := .new
              reports := [] }

/-- The requests of `_async_handshake` and `_async_collect_report`. -/
def deviceInfoCall (self : TuyaBleClient) : Call where
  code := .senderDeviceInfo
  data := []
  key := some self.loginKey
  securityFlag := securityFlagLoginKey
  unansweredError := .tuyaBleHandshakeTimeoutError

end TuyaBleClient

def pairCall (data : Bytes) : Call where
  code := .senderPair
  data := data

def deviceStatusCall : Call where
  code := .senderDeviceStatus
  data := []

def sessionTimeoutText : String := "60"

/-- What a cancellation raises where it is delivered, past the deadline that asked for it. -/
def Interrupt.raised : Interrupt → PyException
  | .deadline => ⟨.timeoutError, "", some .cancelledError⟩
  | .session | .caller => ⟨.cancelledError, "", none⟩

/-- What is left of the request once it is delivered. -/
def Interrupt.left : Interrupt → Option Interrupt
  | .deadline => none
  | i => some i

/-- What a suspended task is resumed with. -/
inductive Resumption where
  | connected (result : Except PyException Link)
  | subscribed (result : Except PyException Unit)
  | written (result : Except PyException Unit)
  | disconnected (result : Except PyException Unit)
  /-- By its future, its queue or a cancellation. -/
  | woken
  deriving DecidableEq

namespace World

/-- The local variables of a request made now. -/
def requestFor (w : World) (call : Call) : Request where
  code := call.code
  sequenceNumber := w.self.sequenceNumber
  pending := w.futures.length
  unansweredError := call.unansweredError

def frameFor (w : World) (call : Call) : Frame where
  sequenceNumber := w.self.sequenceNumber
  responseTo := 0
  code := call.code.value
  data := call.data

/-- Hand out a number and store a new future under it. -/
def register (w : World) : World :=
  let pending := w.self.pending.set w.self.sequenceNumber w.futures.length
  { w with self := { w.self with sequenceNumber := w.self.sequenceNumber + 1, pending }
           futures := w.futures ++ [Future.pending] }

/-- The key of a call: `key or self._require_session_key()`. -/
def keyFor (w : World) (call : Call) : Except PyException AesKey :=
  match call.key with
  | some key => .ok key
  | none => w.self.requireSessionKey

/-- `_async_request` up to the write loop of its frame. -/
def request (P : Primitives) (w : World) (call : Call) (iv : InitializationVector) :
    Option (World × List Obs) :=
  let os : List Obs := [.registered w.self.sequenceNumber, .built (w.frameFor call)]
  match w.keyFor call with
  | .error e => some ({ w.register with session := .failed (w.requestFor call) e }, os)
  | .ok key =>
    match w.self.startSend P (w.frameFor call) key call.securityFlag iv with
    | none => none
    | some (.error e) => some ({ w.register with session := .failed (w.requestFor call) e }, os)
    | some (.ok send) =>
      some ({ w.register with session := .sending (w.requestFor call) send },
        os ++ [.sending .session send])

/-- One turn of the write loop. -/
def write (w : World) (request : Request) (send : Send) : World × List Obs :=
  match send.rest with
  | [] => ({ w with session := .replyDue request }, [.sent .session send])
  | packet :: rest =>
    let send := { send with rest }
    ({ w with session := .writing request send }, [.wrote .session send packet])

/-- `wait_for` on the future of the request, which returns at once when it is done. -/
def awaitReply (w : World) (request : Request) : World × List Obs :=
  match w.futures[request.pending]? with
  | some (.done reply) =>
    let self := { w.self with pending := w.self.pending.erase request.sequenceNumber }
    ({ w with self, session := .replied request.code reply },
      [.returned request.code request.sequenceNumber reply])
  | some .cancelled => ({ w with session := .failed request Interrupt.caller.raised }, [])
  | _ => ({ w with session := .waiting request }, [])

/-- What the `except` clause of `_async_request` makes of an exception. -/
def requestFailure (w : World) (request : Request) (e : PyException) : PyException :=
  if e.type = .timeoutError then
    let name := request.code.name
    ⟨request.unansweredError, s!"Failed to read {w.self.address}: {name} was not answered",
      some .timeoutError⟩
  else e

/-- The `except` and `finally` clauses of `_async_request`. -/
def fail (w : World) (request : Request) (e : PyException) : World × List Obs :=
  let e := w.requestFailure request e
  let self := { w.self with pending := w.self.pending.erase request.sequenceNumber }
  ({ w with self, session := .leaving (.error e) }, [.raised request.sequenceNumber e])

/-- What `_async_handshake` and `_async_collect_report` do with a reply. -/
def proceed (P : Primitives) (w : World) (code : TuyaBleCommandCode) (reply : Frame) :
    World × List Obs :=
  match code with
  | .senderDeviceInfo =>
    match parseDeviceInfo reply.data with
    | .error e => ({ w with session := .leaving (.error e) }, [])
    | .ok info =>
      let self := w.self.adoptDeviceInfo P info
      match buildPairingRequest self.credentials with
      | .error e => ({ w with self, session := .leaving (.error e) }, [.adopted info])
      | .ok data => ({ w with self, session := .requesting (pairCall data) }, [.adopted info])
  | .senderPair =>
    match verifyPairingResult reply.data with
    | .error e => ({ w with session := .leaving (.error e) }, [])
    | .ok () => ({ w with session := .requesting deviceStatusCall }, [])
  | _ => ({ w with session := .draining [] }, [])

/-- The loop of `_async_collect_report` up to an empty queue. -/
def drain (w : World) (collected : Dict Nat DataPoint) : World × List Obs :=
  let collected := w.self.reports.foldl (fun d r => d.setAll DataPoint.identifier r) collected
  ({ w with self := { w.self with reports := [] }, session := .collecting collected }, [])

/-- Past the session's deadline: what the `except TimeoutError` clause makes of the outcome. -/
def outcomeOf (w : World) (outcome : Outcome) : Outcome :=
  match outcome with
  | .ok collected => .ok collected
  | .error e =>
    let type := if w.interrupt = some .session ∧ e.type = .cancelledError then .timeoutError
      else e.type
    if type = .timeoutError then
      raise .tuyaBleConnectionError
        s!"Failed to read {w.self.address}: the session outlasted {sessionTimeoutText}s"
        (some .timeoutError)
    else .error e

/-- The sends the teardown cancels. -/
def cancelled (background : List ReplyTask) : List Obs :=
  background.filterMap fun task =>
    task.send.map fun send => .aborted (.reply task.frame.sequenceNumber) send

/-- The read is over. -/
def finish (w : World) (outcome : Outcome) : World × List Obs :=
  ({ w with session := .idle, interrupt := none }, [.ended outcome])

/-- `_async_disconnect` up to its await. No task waits for the futures it cancels, so they
are forgotten with the table. -/
def teardown (w : World) (outcome : Outcome) : World × List Obs :=
  let outcome := w.outcomeOf outcome
  let os := cancelled w.self.background ++ [.reset]
  let w' : World := { w with self := w.self.reset, interrupt := none, futures := [] }
  match w.self.client with
  | none =>
    let (w', ended) := w'.finish outcome
    (w', os ++ ended)
  | some _ => ({ w' with session := .disconnecting outcome }, os)

/-- One turn of the running task. -/
def advance (P : Primitives) (w : World) (iv : InitializationVector) : Option (World × List Obs) :=
  match w.session with
  | .requesting call => w.request P call iv
  | .sending request send => some (w.write request send)
  | .replyDue request => some (w.awaitReply request)
  | .replied code reply => some (w.proceed P code reply)
  | .failed request e => some (w.fail request e)
  | .draining collected => some (w.drain collected)
  | .leaving outcome => some (w.teardown outcome)
  | _ => none

/-- Run the task to its next await, for at most `fuel` turns. -/
def settle (P : Primitives) (w : World) (iv : InitializationVector) :
    Nat → Option (World × List Obs)
  | 0 => if w.session.running then none else some (w, [])
  | fuel + 1 =>
    if w.session.running then
      match w.advance P iv with
      | none => none
      | some (w', os) =>
        match settle P w' iv fuel with
        | none => none
        | some (w'', os') => some (w'', os ++ os')
    else some (w, [])

/-- Raise in the task suspended in the block under the session's deadline. -/
def interruptSession (w : World) (i : Interrupt) : Option (World × List Obs) :=
  let w := { w with interrupt := i.left }
  match w.session with
  | .connecting =>
    some ({ w with session := .leaving (.error (w.self.connectFailure i.raised)) }, [])
  | .subscribing => some ({ w with session := .leaving (.error i.raised) }, [])
  | .writing request send =>
    some ({ w with session := .failed request i.raised }, [.aborted .session send])
  | .waiting request => some ({ w with session := .failed request i.raised }, [])
  | .collecting collected =>
    let outcome : Outcome := if i = .deadline then .ok collected else .error i.raised
    some ({ w with session := .leaving outcome }, [])
  | .disconnecting outcome =>
    let outcome : Outcome := if i = .deadline then outcome else .error i.raised
    some (w.finish outcome)
  | _ => none

/-- Deliver to the suspended task what it waited for. -/
def wakeUp (w : World) (r : Resumption) : Option (World × List Obs) :=
  match w.interrupt, w.session, r with
  | some i, _, .woken => w.interruptSession i
  | none, .connecting, .connected (.ok link) =>
    some ({ w with self := { w.self with client := some link }, session := .subscribing }, [])
  | none, .connecting, .connected (.error e) | none, .subscribing, .subscribed (.error e) =>
    if e.type.isException then
      some ({ w with session := .leaving (.error (w.self.connectFailure e)) }, [])
    else none
  | none, .subscribing, .subscribed (.ok ()) =>
    some ({ w with session := .requesting w.self.deviceInfoCall }, [])
  | none, .writing request send, .written (.ok ()) =>
    some ({ w with session := .sending request send }, [])
  | none, .writing request send, .written (.error e) =>
    if e.type.isException then
      some ({ w with session := .failed request (w.self.writeFailure e) },
        [.aborted .session send])
    else none
  | none, .waiting request, .woken =>
    if w.futures[request.pending]? = some .pending then none
    else some ({ w with session := .replyDue request }, [])
  | none, .collecting collected, .woken =>
    if w.self.reports = [] then none
    else some ({ w with session := .draining collected }, [])
  | none, .disconnecting outcome, .disconnected (.ok ()) => some (w.finish outcome)
  | none, .disconnecting outcome, .disconnected (.error e) =>
    if e.type.isException then some (w.finish outcome) else none
  | _, _, _ => none

/-! ## What a turn and a wake-up can do -/

theorem aborted_of_mem_cancelled {background : List ReplyTask} {o : Obs}
    (h : o ∈ cancelled background) : ∃ sender send, o = .aborted sender send := by
  obtain ⟨task, -, h⟩ := List.mem_filterMap.1 h
  obtain ⟨send, -, rfl⟩ := Option.map_eq_some_iff.1 h
  exact ⟨_, _, rfl⟩

theorem startSend_eq_ok {P : Primitives} {self : TuyaBleClient} {frame : Frame} {key : AesKey}
    {flag : Nat} {iv : InitializationVector} {send : Send}
    (h : self.startSend P frame key flag iv = some (.ok send)) :
    ∃ client payload packets, self.client = some client ∧
      frame.encode P key flag iv = .ok payload ∧
      buildPackets payload self.protocolVersion = some (.ok packets) ∧
      send = ⟨frame, key, flag, client, payload, packets⟩ := by
  unfold TuyaBleClient.startSend at h
  split at h
  · cases h
  · rename_i client hc
    split at h
    · cases h
    · rename_i payload he
      split at h
      · cases h
      · cases h
      · rename_i packets hp
        cases h
        exact ⟨client, payload, packets, hc, he, hp, rfl⟩

theorem sessionKey_of_requireSessionKey {self : TuyaBleClient} {key : AesKey}
    (h : self.requireSessionKey = .ok key) : self.sessionKey = some key := by
  unfold TuyaBleClient.requireSessionKey raise at h
  split at h
  · cases h
  · rename_i hs
    rw [hs, Except.ok.inj h]

theorem sessionKey_of_keyFor {w : World} {call : Call} {key : AesKey} (hc : call.key = none)
    (h : w.keyFor call = .ok key) : w.self.sessionKey = some key := by
  simp only [keyFor, hc] at h
  exact sessionKey_of_requireSessionKey h

/-- The payload of a send is its frame encrypted, and what it has yet to write are the
last fragments of it. -/
def Encrypted (P : Primitives) (send : Send) : Prop :=
  ∃ iv version packets, send.frame.encode P send.key send.securityFlag iv = .ok send.payload ∧
    buildPackets send.payload version = some (.ok packets) ∧ send.rest <:+ packets

theorem encrypted_of_startSend {P : Primitives} {self : TuyaBleClient} {frame : Frame}
    {key : AesKey} {flag : Nat} {iv : InitializationVector} {send : Send}
    (h : self.startSend P frame key flag iv = some (.ok send)) : Encrypted P send := by
  obtain ⟨client, payload, packets, -, he, hp, rfl⟩ := startSend_eq_ok h
  exact ⟨iv, _, packets, he, hp, List.suffix_refl _⟩

/-- What one turn of the running task can do, stage by stage. -/
inductive Advanced (P : Primitives) (w : World) (iv : InitializationVector) :
    World → List Obs → Prop where
  | requestFailed (call : Call) (e : PyException) : w.session = .requesting call →
      (w.keyFor call = .error e ∨ ∃ key, w.keyFor call = .ok key ∧
        w.self.startSend P (w.frameFor call) key call.securityFlag iv = some (.error e)) →
      Advanced P w iv { w.register with session := .failed (w.requestFor call) e }
        [.registered w.self.sequenceNumber, .built (w.frameFor call)]
  | requestSending (call : Call) (key : AesKey) (send : Send) : w.session = .requesting call →
      w.keyFor call = .ok key →
      w.self.startSend P (w.frameFor call) key call.securityFlag iv = some (.ok send) →
      Advanced P w iv { w.register with session := .sending (w.requestFor call) send }
        [.registered w.self.sequenceNumber, .built (w.frameFor call), .sending .session send]
  | sent (request : Request) (send : Send) : w.session = .sending request send → send.rest = [] →
      Advanced P w iv { w with session := .replyDue request } [.sent .session send]
  | wrote (request : Request) (send : Send) (packet : Bytes) (rest : List Bytes) :
      w.session = .sending request send → send.rest = packet :: rest →
      Advanced P w iv { w with session := .writing request { send with rest } }
        [.wrote .session { send with rest } packet]
  | returned (request : Request) (reply : Frame) : w.session = .replyDue request →
      w.futures[request.pending]? = some (.done reply) →
      Advanced P w iv
        { w with self := { w.self with pending := w.self.pending.erase request.sequenceNumber }
                 session := .replied request.code reply }
        [.returned request.code request.sequenceNumber reply]
  | replyCancelled (request : Request) : w.session = .replyDue request →
      w.futures[request.pending]? = some .cancelled →
      Advanced P w iv { w with session := .failed request Interrupt.caller.raised } []
  | waiting (request : Request) : w.session = .replyDue request →
      (∀ reply, w.futures[request.pending]? ≠ some (.done reply)) →
      Advanced P w iv { w with session := .waiting request } []
  | failed (request : Request) (e : PyException) : w.session = .failed request e →
      Advanced P w iv
        { w with self := { w.self with pending := w.self.pending.erase request.sequenceNumber }
                 session := .leaving (.error (w.requestFailure request e)) }
        [.raised request.sequenceNumber (w.requestFailure request e)]
  | refused (code : TuyaBleCommandCode) (reply : Frame) (e : PyException) :
      w.session = .replied code reply →
      (code = .senderDeviceInfo ∧ parseDeviceInfo reply.data = .error e ∨
        code = .senderPair ∧ verifyPairingResult reply.data = .error e) →
      Advanced P w iv { w with session := .leaving (.error e) } []
  | adopted (reply : Frame) (info : DeviceInfo) (data : Bytes) :
      w.session = .replied .senderDeviceInfo reply → parseDeviceInfo reply.data = .ok info →
      buildPairingRequest w.self.credentials = .ok data →
      Advanced P w iv
        { w with self := w.self.adoptDeviceInfo P info, session := .requesting (pairCall data) }
        [.adopted info]
  | adoptedOnly (reply : Frame) (info : DeviceInfo) (e : PyException) :
      w.session = .replied .senderDeviceInfo reply → parseDeviceInfo reply.data = .ok info →
      buildPairingRequest w.self.credentials = .error e →
      Advanced P w iv
        { w with self := w.self.adoptDeviceInfo P info, session := .leaving (.error e) }
        [.adopted info]
  | paired (reply : Frame) : w.session = .replied .senderPair reply →
      verifyPairingResult reply.data = .ok () →
      Advanced P w iv { w with session := .requesting deviceStatusCall } []
  | acknowledged (code : TuyaBleCommandCode) (reply : Frame) : w.session = .replied code reply →
      code ≠ .senderDeviceInfo → code ≠ .senderPair →
      Advanced P w iv { w with session := .draining [] } []
  | drained (collected : Dict Nat DataPoint) : w.session = .draining collected →
      Advanced P w iv (w.drain collected).1 []
  | reset (outcome : Outcome) (link : Link) : w.session = .leaving outcome →
      w.self.client = some link →
      Advanced P w iv
        { self := w.self.reset, session := .disconnecting (w.outcomeOf outcome)
          interrupt := none, futures := [] }
        (cancelled w.self.background ++ [.reset])
  | ended (outcome : Outcome) : w.session = .leaving outcome → w.self.client = none →
      Advanced P w iv
        { self := w.self.reset, session := .idle, interrupt := none, futures := [] }
        (cancelled w.self.background ++ [.reset, .ended (w.outcomeOf outcome)])

theorem advance_advanced {P : Primitives} {w w' : World} {iv : InitializationVector}
    {os : List Obs} (h : w.advance P iv = some (w', os)) : Advanced P w iv w' os := by
  unfold advance at h
  split at h
  · rename_i call hs
    simp only [request] at h
    split at h
    · rename_i e hk
      cases h
      exact .requestFailed call e hs (.inl hk)
    · rename_i key hk
      split at h
      · cases h
      · rename_i e hsend
        cases h
        exact .requestFailed call e hs (.inr ⟨key, hk, hsend⟩)
      · rename_i send hsend
        cases h
        exact .requestSending call key send hs hk hsend
  · rename_i request send hs
    simp only [write, Option.some.injEq] at h
    split at h
    · rename_i hr; cases h; exact .sent request send hs hr
    · rename_i packet rest hr; cases h; exact .wrote request send packet rest hs hr
  · rename_i request hs
    simp only [awaitReply, Option.some.injEq] at h
    split at h
    · rename_i reply hf; cases h; exact .returned request reply hs hf
    · rename_i hf; cases h; exact .replyCancelled request hs hf
    · rename_i hd hc; cases h; exact .waiting request hs hd
  · rename_i code reply hs
    simp only [proceed, Option.some.injEq] at h
    split at h
    · split at h
      · rename_i e hp; cases h; exact .refused _ reply e hs (.inl ⟨rfl, hp⟩)
      · rename_i info hp
        split at h
        · rename_i e hb; cases h; exact .adoptedOnly reply info e hs hp hb
        · rename_i data hb; cases h; exact .adopted reply info data hs hp hb
    · split at h
      · rename_i e hp; cases h; exact .refused _ reply e hs (.inr ⟨rfl, hp⟩)
      · rename_i hp; cases h; exact .paired reply hs hp
    · rename_i hi hp; cases h; exact .acknowledged code reply hs hi hp
  · rename_i request e hs
    cases h
    exact .failed request e hs
  · rename_i collected hs
    cases h
    exact .drained collected hs
  · rename_i outcome hs
    simp only [teardown, Option.some.injEq] at h
    split at h
    · rename_i hc
      simp only [finish, List.append_assoc] at h
      cases h
      exact .ended outcome hs hc
    · rename_i link hc
      cases h
      exact .reset outcome link hs hc
  · cases h

/-- Only a running task takes a turn. -/
theorem Advanced.running {P : Primitives} {w w' : World} {iv : InitializationVector}
    {os : List Obs} (h : Advanced P w iv w' os) : w.session.running = true := by
  cases h <;> rw [‹w.session = _›] <;> rfl

theorem Advanced.ne_idle {P : Primitives} {w w' : World} {iv : InitializationVector}
    {os : List Obs} (h : Advanced P w iv w' os) : w.session ≠ .idle := by
  intro hs
  have := h.running
  rw [hs] at this
  cases this

/-- What delivering to the suspended task can do, await by await. -/
inductive Woken (w : World) (r : Resumption) : World → List Obs → Prop where
  | connected (link : Link) : w.interrupt = none → w.session = .connecting →
      r = .connected (.ok link) →
      Woken w r { w with self := { w.self with client := some link }, session := .subscribing } []
  | subscribed : w.interrupt = none → w.session = .subscribing → r = .subscribed (.ok ()) →
      Woken w r { w with session := .requesting w.self.deviceInfoCall } []
  | connectFailed (e : PyException) : w.interrupt = none →
      w.session = .connecting ∨ w.session = .subscribing → e.type.isException = true →
      r = .connected (.error e) ∨ r = .subscribed (.error e) →
      Woken w r { w with session := .leaving (.error (w.self.connectFailure e)) } []
  | connectTimedOut : w.interrupt = some .deadline → w.session = .connecting →
      Woken w r
        { w with session := .leaving (.error (w.self.connectFailure Interrupt.deadline.raised))
                 interrupt := none } []
  | connectCancelled (i : Interrupt) : w.interrupt = some i →
      w.session = .connecting ∧ i ≠ .deadline ∨ w.session = .subscribing →
      Woken w r { w with session := .leaving (.error i.raised), interrupt := i.left } []
  | written (request : Request) (send : Send) : w.interrupt = none →
      w.session = .writing request send → r = .written (.ok ()) →
      Woken w r { w with session := .sending request send } []
  | writeFailed (request : Request) (send : Send) (e : PyException) : w.interrupt = none →
      w.session = .writing request send → r = .written (.error e) → e.type.isException = true →
      Woken w r { w with session := .failed request (w.self.writeFailure e) }
        [.aborted .session send]
  | writeCancelled (i : Interrupt) (request : Request) (send : Send) : w.interrupt = some i →
      w.session = .writing request send →
      Woken w r { w with session := .failed request i.raised, interrupt := i.left }
        [.aborted .session send]
  | replied (request : Request) : w.interrupt = none → w.session = .waiting request →
      w.futures[request.pending]? ≠ some .pending → r = .woken →
      Woken w r { w with session := .replyDue request } []
  | waitEnded (i : Interrupt) (request : Request) : w.interrupt = some i →
      w.session = .waiting request →
      Woken w r { w with session := .failed request i.raised, interrupt := i.left } []
  | reported (collected : Dict Nat DataPoint) : w.interrupt = none →
      w.session = .collecting collected → w.self.reports ≠ [] →
      Woken w r { w with session := .draining collected } []
  | quiet (collected : Dict Nat DataPoint) : w.interrupt = some .deadline →
      w.session = .collecting collected →
      Woken w r { w with session := .leaving (.ok collected), interrupt := none } []
  | collectCancelled (i : Interrupt) (collected : Dict Nat DataPoint) : w.interrupt = some i →
      i ≠ .deadline → w.session = .collecting collected →
      Woken w r { w with session := .leaving (.error i.raised), interrupt := i.left } []
  | disconnected (outcome : Outcome) : w.interrupt = none ∨ w.interrupt = some .deadline →
      w.session = .disconnecting outcome →
      Woken w r { w with session := .idle, interrupt := none } [.ended outcome]
  | disconnectCancelled (i : Interrupt) (outcome : Outcome) : w.interrupt = some i →
      i ≠ .deadline → w.session = .disconnecting outcome →
      Woken w r { w with session := .idle, interrupt := none } [.ended (.error i.raised)]

/-- Only the task of a read is woken. -/
theorem Woken.ne_idle {w w' : World} {r : Resumption} {os : List Obs} (h : Woken w r w' os) :
    w.session ≠ .idle := by
  cases h with
  | connectFailed e hi hs he => rcases hs with hs | hs <;> rw [hs] <;> exact nofun
  | connectCancelled i hi hs => rcases hs with ⟨hs, -⟩ | hs <;> rw [hs] <;> exact nofun
  | _ => rw [‹w.session = _›]; exact nofun

theorem wakeUp_woken {w w' : World} {r : Resumption} {os : List Obs}
    (h : w.wakeUp r = some (w', os)) : Woken w r w' os := by
  unfold wakeUp at h
  split at h
  · rename_i i hi
    simp only [interruptSession] at h
    split at h
    · rename_i hs
      cases h
      cases i with
      | deadline => exact .connectTimedOut hi hs
      | session => exact .connectCancelled .session hi (.inl ⟨hs, by decide⟩)
      | caller => exact .connectCancelled .caller hi (.inl ⟨hs, by decide⟩)
    · rename_i hs
      cases h
      exact .connectCancelled i hi (.inr hs)
    · rename_i request send hs
      cases h
      exact .writeCancelled i request send hi hs
    · rename_i request hs
      cases h
      exact .waitEnded i request hi hs
    · rename_i collected hs
      cases h
      by_cases hd : i = .deadline
      · subst hd; exact .quiet collected hi hs
      · rw [if_neg hd]; exact .collectCancelled i collected hi hd hs
    · rename_i outcome hs
      cases h
      by_cases hd : i = .deadline
      · subst hd; exact .disconnected outcome (.inr hi) hs
      · rw [if_neg hd]; exact .disconnectCancelled i outcome hi hd hs
    · cases h
  · rename_i link hi hs
    cases h
    exact .connected link hi hs rfl
  · rename_i e hi hs
    split at h <;> cases h
    exact .connectFailed e hi (.inl hs) ‹_› (.inl rfl)
  · rename_i e hi hs
    split at h <;> cases h
    exact .connectFailed e hi (.inr hs) ‹_› (.inr rfl)
  · rename_i hi hs
    cases h
    exact .subscribed hi hs rfl
  · rename_i request send hi hs
    cases h
    exact .written request send hi hs rfl
  · rename_i request send e hi hs
    split at h <;> cases h
    exact .writeFailed request send e hi hs rfl ‹_›
  · rename_i request hi hs
    split at h <;> cases h
    exact .replied request hi hs ‹_› rfl
  · rename_i collected hi hs
    split at h <;> cases h
    exact .reported collected hi hs ‹_›
  · rename_i outcome hi hs
    cases h
    exact .disconnected outcome (.inl hi) hs
  · rename_i outcome e hi hs
    split at h <;> cases h
    exact .disconnected outcome (.inl hi) hs
  · cases h

end World

end TuyaBle
