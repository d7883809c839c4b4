import TuyaBle.Client.Teardown
import TuyaBle.Client.Progress
import TuyaBle.Commands.Handshake

/-!
# What a read raises

Whatever the device and the link do, a read ends in a mapping, in one of the SDK's own
errors or in the cancellation its caller asked for, as long as what the device names as its
protocol version fits the half byte of a packet header and the numbers fit their field.
-/

namespace TuyaBle

/-- What `write_gatt_char` raises in the session task. -/
def Event.writeError? : Event → Option PyException
  | .resume (.written (.error e)) _ => some e
  | _ => none

/-- `write_gatt_char` raises nothing but bleak's error and the timeout. -/
def BleErrors (event : Event) : Prop :=
  ∀ e ∈ event.writeError?, e.type = .bleakError ∨ e.type = .timeoutError

namespace World

/-- The request that follows a reply the client accepts fits its formats: the version the
device names fits a packet header, and the next number its field. -/
def RequestFits (w : World) (code : TuyaBleCommandCode) (reply : Frame) : Prop :=
  (code = .senderDeviceInfo → ∀ info ∈ (parseDeviceInfo reply.data).toOption,
    info.protocolVersion < 16 ∧ w.self.sequenceNumber < 2 ^ 32) ∧
  (code = .senderPair → verifyPairingResult reply.data = .ok () →
    w.self.sequenceNumber < 2 ^ 32)

/-- The reply to the request, once it is there. -/
def reply? (w : World) (request : Request) : Option Frame :=
  match w.futures[request.pending]? with
  | some (.done reply) => some reply
  | _ => none

def ReplyFits (w : World) (request : Request) : Prop :=
  ∀ reply ∈ w.reply? request, w.RequestFits request.code reply

end World

/-- The request whose reply the suspended task looks for when it is resumed. -/
def Session.nearReply? : Session → Option Request
  | .writing request send => if send.rest = [] then some request else none
  | .waiting request => some request
  | _ => none

/-- The request the task makes when the event resumes it, if any, fits its formats: the first
one once the client has subscribed, and the one after the reply that is there once the last
packet of its request is written or the wait for it is over. -/
def Fits (w : World) : Event → Prop
  | .resume r _ => w.interrupt = none →
    (r = .subscribed (.ok ()) → w.session = .subscribing →
      w.self.sequenceNumber < 2 ^ 32 ∧ w.self.protocolVersion < 16) ∧
    (r = .written (.ok ()) ∨ r = .woken → ∀ request ∈ w.session.nearReply?, w.ReplyFits request)
  | _ => True

instance (e : Event) : Decidable (BleErrors e) :=
  inferInstanceAs (Decidable (∀ error ∈ e.writeError?, _))

instance (w : World) (code : TuyaBleCommandCode) (reply : Frame) :
    Decidable (w.RequestFits code reply) := inferInstanceAs (Decidable (_ ∧ _))

instance (w : World) (request : Request) : Decidable (w.ReplyFits request) :=
  inferInstanceAs (Decidable (∀ reply ∈ w.reply? request, _))

instance (w : World) : (e : Event) → Decidable (Fits w e)
  | .resume _ _ => inferInstanceAs (Decidable (_ → _))
  | .startRead | .fire _ | .notify _ _ | .replyStart _ _ | .replyWritten _ _ => .isTrue trivial

/-- The caller has cancelled the read. -/
def Called (tr : List (World × Event)) : Prop := ∃ w, (w, .fire .caller) ∈ tr

/-- What may leave the read. -/
def Answered (tr : List (World × Event)) : Outcome → Prop
  | .ok _ => True
  | .error e => e.isTuyaBleError = true ∨ e.type = .cancelledError ∧ Called tr

namespace Failures

/-- What may be raised under the deadline of the session. -/
def Raisable (tr : List (World × Event)) (interrupt : Option Interrupt) (e : PyException) : Prop :=
  e.isTuyaBleError = true ∨ e.type = .timeoutError ∨
    e.type = .cancelledError ∧ (interrupt = some .session ∨ Called tr)

/-- The error the stage is about to hand on. -/
def error? : Session → Option PyException
  | .failed _ e | .leaving (.error e) => some e
  | _ => none

/-- The request whose reply may still come. -/
def awaited? : Session → Option Request
  | .sending request _ | .writing request _ | .replyDue request | .waiting request => some request
  | _ => none

/-- The stages no cancellation has reached. -/
def calm : Session → Prop
  | .requesting _ | .sending .. | .replyDue _ | .replied .. | .draining _ => True
  | _ => False

/-- What the next request of the running task needs. -/
def Due (w : World) : Prop :=
  match w.session with
  | .requesting _ => w.self.sequenceNumber < 2 ^ 32
  | .sending request send => send.rest = [] → w.ReplyFits request
  | .replyDue request => w.ReplyFits request
  | .replied code reply => w.RequestFits code reply
  | _ => True

/-- A request whose own fields fit its frame. -/
structure Callable (call : Call) : Prop where
  unanswered : call.unansweredError.isTuyaBleError = true
  flag : call.securityFlag < 256
  data : call.data.length < 256 ^ 2

structure Inv (tr : List (World × Event)) (w : World) : Prop where
  version : w.session.command? ≠ none → w.self.protocolVersion < 16
  due : Due w
  call : ∀ call, w.session.call? = some call → Callable call
  request : ∀ request, w.session.request? = some request →
    request.unansweredError.isTuyaBleError = true
  calm : calm w.session → w.interrupt = none
  error : ∀ e, error? w.session = some e → Raisable tr w.interrupt e
  closing : ∀ outcome, w.session = .disconnecting outcome →
    Answered tr outcome ∧ w.interrupt ≠ some .session
  future : ∀ request, awaited? w.session = some request → w.interrupt = none →
    w.futures[request.pending]? ≠ some .cancelled
  caller : w.interrupt = some .caller → Called tr

variable {P : Primitives} {tr : List (World × Event)} {os os' : List Obs} {w w' : World}

theorem Called.append (h : Called tr) (tr' : List (World × Event)) : Called (tr ++ tr') :=
  h.imp fun _ hm => List.mem_append_left _ hm

theorem Raisable.append {interrupt : Option Interrupt} {e : PyException}
    (h : Raisable tr interrupt e) (tr' : List (World × Event)) : Raisable (tr ++ tr') interrupt e :=
  h.imp_right (Or.imp_right (And.imp_right (Or.imp_right fun h => Called.append h tr')))

theorem answered_append {outcome : Outcome} (h : Answered tr outcome) (tr' : List (World × Event)) :
    Answered (tr ++ tr') outcome := by
  cases outcome with
  | ok collected => trivial
  | error e => exact h.imp_right (And.imp_right fun h => Called.append h tr')

theorem called_snoc {i : Interrupt} (hi : i = .caller) : Called (tr ++ [(w, .fire i)]) :=
  ⟨w, by simp [hi]⟩

theorem Inv.append (h : Inv tr w) (tr' : List (World × Event)) : Inv (tr ++ tr') w :=
  { h with
    error := fun e he => (h.error e he).append tr'
    closing := fun outcome hs =>
      ⟨answered_append (h.closing outcome hs).1 tr', (h.closing outcome hs).2⟩
    caller := fun hi => Called.append (h.caller hi) tr' }

/-! ## The errors of the parts -/

theorem connectFailure_isTuyaBleError (self : TuyaBleClient) {e : PyException}
    (he : e.type.isException = true) : (self.connectFailure e).isTuyaBleError = true := by
  unfold TuyaBleClient.connectFailure
  split
  · rename_i h
    exact h.resolve_right (not_not_intro he)
  · rfl

theorem requireSessionKey_isTuyaBleError {self : TuyaBleClient} {e : PyException}
    (h : self.requireSessionKey = .error e) : e.isTuyaBleError = true := by
  unfold TuyaBleClient.requireSessionKey at h
  split at h <;> cases h
  rfl

/-- A frame that fits is refused for want of a link only. -/
theorem startSend_isTuyaBleError {self : TuyaBleClient} (hv : self.protocolVersion < 16)
    {frame : Frame} (hs : frame.sequenceNumber < 2 ^ 32) (hr : frame.responseTo < 2 ^ 32)
    (hc : frame.code < 2 ^ 16) (hd : frame.data.length < 256 ^ 2) {key : AesKey} {flag : Nat}
    (hf : flag < 256) {iv : InitializationVector} {e : PyException}
    (h : self.startSend P frame key flag iv = some (.error e)) : e.isTuyaBleError = true := by
  obtain ⟨b, hb⟩ : ∃ b, frame.body = .ok b := ⟨_, Frame.body_eq_ok.2 ⟨⟨hs, hr, hc, hd⟩, rfl⟩⟩
  obtain ⟨c, he, -⟩ := Frame.encode_spec (P := P) hb hf key iv
  obtain ⟨-, -, hmax⟩ := Frame.length_encode he
  obtain ⟨chunks, hp, -⟩ := buildPackets_eq hv (Nat.lt_trans hmax (by decide))
  unfold TuyaBleClient.startSend at h
  split at h
  · cases h
    rfl
  · rw [he] at h
    simp only [hp] at h
    cases h

/-! ## What each step leaves -/

/-- Outside of a request only the outcome matters. -/
theorem inv_outside (hc : w.session.command? = none) (hcalm : calm w.session → w.interrupt = none)
    (herror : ∀ e, error? w.session = some e → Raisable tr w.interrupt e)
    (hclosing : ∀ outcome, w.session = .disconnecting outcome →
      Answered tr outcome ∧ w.interrupt ≠ some .session)
    (hcaller : w.interrupt = some .caller → Called tr) : Inv tr w := by
  have hnone : w.session.call? = none ∧ w.session.request? = none ∧ awaited? w.session = none ∧
      Due w := by
    unfold Due
    cases hs : w.session with
    | requesting call => rw [hs] at hc; cases hc
    | sending request send => rw [hs] at hc; cases hc
    | writing request send => rw [hs] at hc; cases hc
    | replyDue request => rw [hs] at hc; cases hc
    | waiting request => rw [hs] at hc; cases hc
    | replied code reply => rw [hs] at hc; cases hc
    | failed request e => rw [hs] at hc; cases hc
    | _ => exact ⟨rfl, rfl, rfl, trivial⟩
  obtain ⟨hcall, hrequest, hawaited, hdue⟩ := hnone
  exact
    { version := fun h => absurd hc h
      due := hdue
      call := fun _ h => nomatch hcall.symm.trans h
      request := fun _ h => nomatch hrequest.symm.trans h
      calm := hcalm
      error := herror
      closing := hclosing
      future := fun _ h => nomatch hawaited.symm.trans h
      caller := hcaller }

theorem inv_leaving {outcome : Outcome} (hs : w.session = .leaving outcome)
    (herror : ∀ e, outcome = .error e → Raisable tr w.interrupt e)
    (hcaller : w.interrupt = some .caller → Called tr) : Inv tr w := by
  refine inv_outside (by rw [hs]; rfl) (by rw [hs]; exact False.elim) (fun e he => ?_)
    (by rw [hs]; exact fun _ h => nomatch h) hcaller
  rw [hs] at he
  cases outcome with
  | ok collected => cases he
  | error e' => exact Option.some.inj he ▸ herror e' rfl

theorem inv_failed {request : Request} {e : PyException} (hs : w.session = .failed request e)
    (hv : w.self.protocolVersion < 16) (hu : request.unansweredError.isTuyaBleError = true)
    (herror : Raisable tr w.interrupt e) (hcaller : w.interrupt = some .caller → Called tr) :
    Inv tr w where
  version _ := hv
  due := by rw [Due, hs]; trivial
  call _ h := by rw [hs] at h; cases h
  request _ h := by rw [hs] at h; cases h; exact hu
  calm h := by rw [hs] at h; exact h.elim
  error _ h := by rw [hs] at h; cases h; exact herror
  closing _ h := by rw [hs] at h; cases h
  future _ h := by rw [hs] at h; cases h
  caller := hcaller

theorem inv_requesting {call : Call} (hs : w.session = .requesting call)
    (hv : w.self.protocolVersion < 16) (hn : w.self.sequenceNumber < 2 ^ 32) (hc : Callable call)
    (hi : w.interrupt = none) : Inv tr w where
  version _ := hv
  due := by rw [Due, hs]; exact hn
  call _ h := by rw [hs] at h; cases h; exact hc
  request _ h := by rw [hs] at h; cases h
  calm _ := hi
  error _ h := by rw [hs] at h; cases h
  closing _ h := by rw [hs] at h; cases h
  future _ h := by rw [hs] at h; cases h
  caller h := nomatch hi.symm.trans h

/-- The stages of a request that is sent or waits for its reply. -/
theorem awaited_stage {s : Session} {request : Request} (h : awaited? s = some request) :
    s.request? = some request ∧ s.command? ≠ none ∧ s.call? = none ∧ error? s = none ∧
      ∀ outcome, s ≠ .disconnecting outcome := by
  cases s with
  | sending r send => exact ⟨h, (nomatch ·), rfl, rfl, fun _ => (nomatch ·)⟩
  | writing r send => exact ⟨h, (nomatch ·), rfl, rfl, fun _ => (nomatch ·)⟩
  | replyDue r => exact ⟨h, (nomatch ·), rfl, rfl, fun _ => (nomatch ·)⟩
  | waiting r => exact ⟨h, (nomatch ·), rfl, rfl, fun _ => (nomatch ·)⟩
  | _ => cases h

/-- From one stage of a request to the next. -/
theorem Inv.of_request (h : Inv tr w) {request : Request} (ha : awaited? w.session = some request)
    (ha' : awaited? w'.session = some request) (hself : w'.self = w.self)
    (hfutures : w'.futures = w.futures) (hi : w.interrupt = none) (hi' : w'.interrupt = none)
    (hdue : Due w') : Inv tr w' := by
  obtain ⟨hr, hcommand, -⟩ := awaited_stage ha
  obtain ⟨hr', -, hcall, herror, hclosing⟩ := awaited_stage ha'
  exact
    { version := fun _ => by rw [hself]; exact h.version hcommand
      due := hdue
      call := fun _ h => nomatch hcall.symm.trans h
      request := fun _ hq => h.request _ (hr.trans (hr'.symm.trans hq))
      calm := fun _ => hi'
      error := fun _ h => nomatch herror.symm.trans h
      closing := fun outcome h => absurd h (hclosing outcome)
      future := fun _ hq _ => by
        rw [hfutures]
        exact h.future _ (ha.trans (ha'.symm.trans hq)) hi
      caller := fun h => nomatch hi'.symm.trans h }

/-- A suspended task is about to do nothing. -/
theorem suspended_stage (hr : w.session.running = false) :
    Due w ∧ ¬ calm w.session ∧ error? w.session = none := by
  unfold Due
  cases hw : w.session with
  | requesting call => rw [hw] at hr; cases hr
  | sending request send => rw [hw] at hr; cases hr
  | replyDue request => rw [hw] at hr; cases hr
  | replied code reply => rw [hw] at hr; cases hr
  | draining collected => rw [hw] at hr; cases hr
  | failed request e => rw [hw] at hr; cases hr
  | leaving outcome => rw [hw] at hr; cases hr
  | _ => exact ⟨trivial, id, rfl⟩

/-- Steps while the session task is suspended. -/
theorem Inv.of_kept (h : Inv tr w) (hr : w.session.running = false)
    (hs : w'.session = w.session) (hv : w'.self.protocolVersion = w.self.protocolVersion)
    (hclosing : ∀ outcome, w.session = .disconnecting outcome → w'.interrupt ≠ some .session)
    (hfuture : ∀ n : FutureId, w'.interrupt = none → w'.futures[n]? = some Future.cancelled →
      w.interrupt = none ∧ w.futures[n]? = some Future.cancelled)
    (hcaller : w'.interrupt = some .caller → Called tr) : Inv tr w' := by
  obtain ⟨hdue, hcalm, herror⟩ := suspended_stage (w := w') (hs ▸ hr)
  exact
    { version := fun hc => by rw [hv]; exact h.version (hs ▸ hc)
      due := hdue
      call := fun call hc => h.call call (hs ▸ hc)
      request := fun request hq => h.request request (hs ▸ hq)
      calm := fun hc => absurd hc hcalm
      error := fun _ he => nomatch herror.symm.trans he
      closing := fun outcome hc =>
        ⟨(h.closing outcome (hs ▸ hc)).1, hclosing outcome (hs ▸ hc)⟩
      future := fun request ha hi hf => by
        obtain ⟨hi, hf⟩ := hfuture request.pending hi hf
        exact h.future request (hs ▸ ha) hi hf
      caller := hcaller }

/-- A cancellation raises what may be raised, and stays recorded unless it was a deadline. -/
theorem raisable_raised {i : Interrupt} (hcaller : i = .caller → Called tr) :
    Raisable tr i.left i.raised := by
  cases i with
  | deadline => exact .inr (.inl rfl)
  | session => exact .inr (.inr ⟨rfl, .inl rfl⟩)
  | caller => exact .inr (.inr ⟨rfl, .inr (hcaller rfl)⟩)

theorem left_eq_caller {i : Interrupt} (h : i.left = some .caller) : i = .caller := by
  cases i with
  | deadline => cases h
  | session => cases h
  | caller => rfl

/-- The deadline of the session leaves the SDK's own errors and the caller's cancellation. -/
theorem answered_outcomeOf {outcome : Outcome}
    (h : ∀ e, outcome = .error e → Raisable tr w.interrupt e) :
    Answered tr (w.outcomeOf outcome) := by
  cases outcome with
  | ok collected => trivial
  | error e =>
    have hr := h e rfl
    simp only [World.outcomeOf]
    by_cases hs : w.interrupt = some .session ∧ e.type = .cancelledError
    · rw [if_pos hs, if_pos rfl]
      exact .inl rfl
    · rw [if_neg hs]
      split
      · exact .inl rfl
      · rename_i ht
        rcases hr with hr | hr | ⟨hc, hi | hr⟩
        · exact .inl hr
        · exact absurd hr ht
        · exact absurd ⟨hi, hc⟩ hs
        · exact .inr ⟨hc, hr⟩

theorem raisable_requestFailure {request : Request} {e : PyException}
    (hu : request.unansweredError.isTuyaBleError = true) (h : Raisable tr w.interrupt e) :
    Raisable tr w.interrupt (w.requestFailure request e) := by
  unfold World.requestFailure
  split
  · exact .inl hu
  · exact h

theorem raisable_writeFailure {self : TuyaBleClient} {interrupt : Option Interrupt}
    {e : PyException} (h : e.type = .bleakError ∨ e.type = .timeoutError) :
    Raisable tr interrupt (self.writeFailure e) := by
  unfold TuyaBleClient.writeFailure
  split
  · exact .inl rfl
  · exact .inr (.inl (h.resolve_left ‹_›))

theorem callable_deviceInfoCall (self : TuyaBleClient) : Callable self.deviceInfoCall :=
  ⟨rfl, (by decide : securityFlagLoginKey < 256), (by decide : 0 < 256 ^ 2)⟩

theorem callable_pairCall {credentials : TuyaBleCredentials} {data : Bytes}
    (h : buildPairingRequest credentials = .ok data) : Callable (pairCall data) :=
  ⟨rfl, (by decide : securityFlagSessionKey < 256), by
    show data.length < 256 ^ 2
    rw [length_buildPairingRequest h]
    decide⟩

theorem callable_deviceStatusCall : Callable deviceStatusCall := ⟨rfl, by decide, by decide⟩

theorem value_lt (code : TuyaBleCommandCode) : code.value < 2 ^ 16 := by
  cases code <;> decide

theorem command?_ne_none_of_request? {s : Session} {request : Request}
    (h : s.request? = some request) : s.command? ≠ none := by
  cases s with
  | sending r send => exact fun hc => nomatch hc
  | writing r send => exact fun hc => nomatch hc
  | replyDue r => exact fun hc => nomatch hc
  | waiting r => exact fun hc => nomatch hc
  | failed r e => exact fun hc => nomatch hc
  | _ => cases h

theorem Inv.of_woken {r : Resumption} {iv : InitializationVector} (h : Inv tr w)
    (hb : BleErrors (.resume r iv)) (hf : Fits w (.resume r iv)) (hw : World.Woken w r w' os) :
    Inv tr w' ∧ ∀ outcome, .ended outcome ∈ os → Answered tr outcome := by
  have hcaller : ∀ {i}, w.interrupt = some i → i = .caller → Called tr :=
    fun hi hc => h.caller (hc ▸ hi)
  have hleft : ∀ {i}, w.interrupt = some i → i.left = some .caller → Called tr :=
    fun hi hl => hcaller hi (left_eq_caller hl)
  have hraised : ∀ {i}, w.interrupt = some i → Raisable tr i.left i.raised :=
    fun hi => raisable_raised (hcaller hi)
  have hfailed : ∀ {w' : World} {request : Request} {e : PyException},
      w.session.request? = some request → w'.session = .failed request e →
      w'.self = w.self → Raisable tr w'.interrupt e →
      (w'.interrupt = some .caller → Called tr) → Inv tr w' := by
    intro w' request e hs hs' hself he hc
    exact inv_failed hs' (hself ▸ h.version (command?_ne_none_of_request? hs)) (h.request _ hs)
      he hc
  cases hw with
  | connected link hi hs =>
    exact ⟨inv_outside rfl False.elim (fun _ h => nomatch h) (fun _ h => nomatch h)
      (fun hc => nomatch hi.symm.trans hc), by simp⟩
  | subscribed hi hs hr =>
    obtain ⟨hn, hv⟩ := (hf hi).1 hr hs
    exact ⟨inv_requesting rfl hv hn (callable_deviceInfoCall _) hi, by simp⟩
  | connectFailed e hi hs he =>
    refine ⟨inv_leaving rfl (fun e' h' => ?_) (fun hc => nomatch hi.symm.trans hc), by simp⟩
    cases h'
    exact .inl (connectFailure_isTuyaBleError _ he)
  | connectTimedOut hi hs =>
    refine ⟨inv_leaving rfl (fun e' h' => ?_) (fun hc => nomatch hc), by simp⟩
    cases h'
    exact .inl (connectFailure_isTuyaBleError _ rfl)
  | connectCancelled i hi hs =>
    refine ⟨inv_leaving rfl (fun e' h' => ?_) (hleft hi), by simp⟩
    cases h'
    exact hraised hi
  | written request send hi hs hr =>
    have hdue : send.rest = [] → w.ReplyFits request := fun hrest =>
      (hf hi).2 (.inl hr) request (by rw [hs]; exact if_pos hrest)
    refine ⟨h.of_request ?_ rfl rfl rfl hi hi hdue, by simp⟩
    rw [hs]
    rfl
  | writeFailed request send e hi hs hr he =>
    subst hr
    exact ⟨hfailed (by rw [hs]; rfl) rfl rfl (raisable_writeFailure (hb e rfl))
      (fun hc => nomatch hi.symm.trans hc), by simp⟩
  | writeCancelled i request send hi hs =>
    exact ⟨hfailed (by rw [hs]; rfl) rfl rfl (hraised hi) (hleft hi), by simp⟩
  | replied request hi hs hd hr =>
    have hdue : w.ReplyFits request := (hf hi).2 (.inr hr) request (by rw [hs]; rfl)
    refine ⟨h.of_request ?_ rfl rfl rfl hi hi hdue, by simp⟩
    rw [hs]
    rfl
  | waitEnded i request hi hs =>
    exact ⟨hfailed (by rw [hs]; rfl) rfl rfl (hraised hi) (hleft hi), by simp⟩
  | reported collected hi hs hd =>
    exact ⟨inv_outside rfl (fun _ => hi) (fun _ h => nomatch h) (fun _ h => nomatch h)
      (fun hc => nomatch hi.symm.trans hc), by simp⟩
  | quiet collected hi hs =>
    exact ⟨inv_leaving rfl (fun _ h' => nomatch h') (fun hc => nomatch hc), by simp⟩
  | collectCancelled i collected hi hd hs =>
    refine ⟨inv_leaving rfl (fun e' h' => ?_) (hleft hi), by simp⟩
    cases h'
    exact hraised hi
  | disconnected outcome hi hs =>
    refine ⟨inv_outside rfl False.elim (fun _ h => nomatch h) (fun _ h => nomatch h)
      (fun hc => nomatch hc), fun outcome' hm => ?_⟩
    cases List.mem_singleton.1 hm
    exact (h.closing outcome hs).1
  | disconnectCancelled i outcome hi hd hs =>
    refine ⟨inv_outside rfl False.elim (fun _ h => nomatch h) (fun _ h => nomatch h)
      (fun hc => nomatch hc), fun outcome' hm => ?_⟩
    cases List.mem_singleton.1 hm
    cases i with
    | deadline => exact absurd rfl hd
    | session => exact absurd hi (h.closing outcome hs).2
    | caller => exact .inr ⟨rfl, hcaller hi rfl⟩

/-- A request is refused for want of a key or a link, as its fields fit. -/
theorem Inv.of_requestFailed (h : Inv tr w) {call : Call} {e : PyException}
    {iv : InitializationVector} (hs : w.session = .requesting call)
    (he : w.keyFor call = .error e ∨ ∃ key, w.keyFor call = .ok key ∧
      w.self.startSend P (w.frameFor call) key call.securityFlag iv = some (.error e)) :
    Inv tr { w.register with session := .failed (w.requestFor call) e } := by
  have hc := h.call call (by rw [hs]; rfl)
  have hv := h.version (by rw [hs]; exact fun hc => nomatch hc)
  have hdue := h.due
  simp only [Due, hs] at hdue
  refine inv_failed rfl hv hc.unanswered (.inl ?_) h.caller
  rcases he with he | ⟨key, -, he⟩
  · unfold World.keyFor at he
    split at he
    · cases he
    · exact requireSessionKey_isTuyaBleError he
  · exact startSend_isTuyaBleError hv hdue (by simp only [World.frameFor]; omega) (value_lt _)
      hc.data hc.flag he

theorem Inv.of_requestSending (h : Inv tr w) {call : Call} {key : AesKey} {send : Send}
    {iv : InitializationVector} (hs : w.session = .requesting call)
    (hf : w.self.startSend P (w.frameFor call) key call.securityFlag iv = some (.ok send)) :
    Inv tr { w.register with session := .sending (w.requestFor call) send } := by
  have hi := h.calm (by rw [hs]; trivial)
  exact
    { version := fun _ => h.version (by rw [hs]; exact fun hc => nomatch hc)
      due := fun hr => absurd hr (World.startSend_rest_ne hf)
      call := fun _ hc => nomatch hc
      request := fun _ hr => Option.some.inj hr ▸ (h.call call (by rw [hs]; rfl)).unanswered
      calm := fun _ => hi
      error := fun _ he => nomatch he
      closing := fun _ hc => nomatch hc
      future := fun request hr _ => by
        obtain rfl := Option.some.inj hr
        simp [World.register, World.requestFor]
      caller := fun hc => nomatch hi.symm.trans hc }

theorem Inv.of_returned (h : Inv tr w) {request : Request} {reply : Frame}
    {pending : Dict Nat FutureId} (hs : w.session = .replyDue request)
    (hf : w.futures[request.pending]? = some (.done reply)) :
    Inv tr { w with self := { w.self with pending }, session := .replied request.code reply } := by
  have hi := h.calm (by rw [hs]; trivial)
  have hdue := h.due
  simp only [Due, hs] at hdue
  have hfits : w.RequestFits request.code reply := hdue reply (by simp only [World.reply?, hf]; rfl)
  exact
    { version := fun _ => h.version (by rw [hs]; exact fun hc => nomatch hc)
      due := hfits
      call := fun _ hc => nomatch hc
      request := fun _ hr => nomatch hr
      calm := fun _ => hi
      error := fun _ he => nomatch he
      closing := fun _ hc => nomatch hc
      future := fun _ hr => nomatch hr
      caller := fun hc => nomatch hi.symm.trans hc }

/-- **No turn of the task raises anything else.** -/
theorem Inv.of_advanced {iv : InitializationVector} (h : Inv tr w)
    (ha : World.Advanced P w iv w' os) :
    Inv tr w' ∧ ∀ outcome, .ended outcome ∈ os → Answered tr outcome := by
  cases ha with
  | requestFailed call e hs he => exact ⟨h.of_requestFailed hs he, by simp⟩
  | requestSending call key send hs hk hf => exact ⟨h.of_requestSending hs hf, by simp⟩
  | sent request send hs hr =>
    have hi := h.calm (by rw [hs]; trivial)
    have hdue := h.due
    simp only [Due, hs] at hdue
    refine ⟨h.of_request ?_ rfl rfl rfl hi hi (hdue hr), by simp⟩
    rw [hs]
    rfl
  | wrote request send packet rest hs hr =>
    have hi := h.calm (by rw [hs]; trivial)
    refine ⟨h.of_request ?_ rfl rfl rfl hi hi trivial, by simp⟩
    rw [hs]
    rfl
  | returned request reply hs hf => exact ⟨h.of_returned hs hf, by simp⟩
  | replyCancelled request hs hf =>
    exact absurd hf (h.future request (by rw [hs]; rfl) (h.calm (by rw [hs]; trivial)))
  | waiting request hs hf =>
    have hi := h.calm (by rw [hs]; trivial)
    refine ⟨h.of_request ?_ rfl rfl rfl hi hi trivial, by simp⟩
    rw [hs]
    rfl
  | failed request e hs =>
    refine ⟨inv_leaving rfl (fun e' he => ?_) h.caller, by simp⟩
    cases he
    exact raisable_requestFailure (h.request request (by rw [hs]; rfl))
      (h.error e (by rw [hs]; rfl))
  | refused code reply e hs hr =>
    refine ⟨inv_leaving rfl (fun e' he => .inl ?_) h.caller, by simp⟩
    cases he
    rcases hr with ⟨-, hp⟩ | ⟨-, hp⟩
    · have := parseDeviceInfo_fails _ _ hp
      rw [PyException.isTuyaBleError, this]
      rfl
    · rcases type_of_verifyPairingResult hp with ht | ht <;> rw [PyException.isTuyaBleError, ht] <;>
        rfl
  | adopted reply info data hs hp hb =>
    have hdue := h.due
    simp only [Due, hs] at hdue
    obtain ⟨hv, hn⟩ : info.protocolVersion < 16 ∧ w.self.sequenceNumber < 2 ^ 32 :=
      hdue.1 rfl info (by rw [hp]; rfl)
    exact ⟨inv_requesting rfl hv hn (callable_pairCall hb) (h.calm (by rw [hs]; trivial)),
      by simp⟩
  | adoptedOnly reply info e hs hp hb =>
    refine ⟨inv_leaving rfl (fun e' he => .inl ?_) h.caller, by simp⟩
    cases he
    have := buildPairingRequest_fails _ _ hb
    rw [PyException.isTuyaBleError, this]
    rfl
  | paired reply hs hp =>
    have hdue := h.due
    simp only [Due, hs] at hdue
    exact ⟨inv_requesting rfl (h.version (by rw [hs]; exact fun hc => nomatch hc))
      (hdue.2 rfl hp) callable_deviceStatusCall (h.calm (by rw [hs]; trivial)), by simp⟩
  | acknowledged code reply hs hi hp =>
    have hn := h.calm (by rw [hs]; trivial)
    exact ⟨inv_outside rfl (fun _ => hn) (fun _ h => nomatch h) (fun _ h => nomatch h)
      (fun hc => nomatch hn.symm.trans hc), by simp⟩
  | drained collected hs =>
    have hn := h.calm (by rw [hs]; trivial)
    exact ⟨inv_outside rfl (fun _ => hn) (fun _ h => nomatch h) (fun _ h => nomatch h)
      (fun hc => nomatch hn.symm.trans hc), by simp⟩
  | reset outcome link hs hc =>
    have hanswered : Answered tr (w.outcomeOf outcome) := answered_outcomeOf fun e he =>
      h.error e (by rw [hs, he]; rfl)
    refine ⟨inv_outside rfl False.elim (fun _ h => nomatch h) (fun outcome' ho => ?_)
      (fun hc => nomatch hc), by simp [World.cancelled]⟩
    cases ho
    exact ⟨hanswered, fun hc => nomatch hc⟩
  | ended outcome hs hc =>
    have hanswered : Answered tr (w.outcomeOf outcome) := answered_outcomeOf fun e he =>
      h.error e (by rw [hs, he]; rfl)
    refine ⟨inv_outside rfl False.elim (fun _ h => nomatch h) (fun _ h => nomatch h)
      (fun hc => nomatch hc), fun outcome' ho => ?_⟩
    obtain rfl : outcome' = w.outcomeOf outcome := by simpa [World.cancelled] using ho
    exact hanswered

theorem Inv.of_fire {i : Interrupt} (h : Inv tr w) (hr : w.session.running = false)
    (hcalled : i = .caller → Called tr) (hf : w.fire i = some (w', os)) :
    Inv tr w' ∧ os = [] := by
  obtain ⟨hreaches, rfl, futures, rfl, -⟩ := World.fire_eq hf
  refine ⟨h.of_kept hr rfl rfl (fun outcome hs => ?_) (fun _ hi => nomatch hi) fun hc => ?_, rfl⟩
  · -- the session's deadline does not cover the disconnect
    have hne := (h.closing outcome hs).2
    rw [hs] at hreaches
    show some (Interrupt.outermost w.interrupt i) ≠ some .session
    generalize w.interrupt = interrupt at hne
    cases i with
    | deadline => rcases interrupt with _ | _ | _ | _ <;> simp [Interrupt.outermost] at hne ⊢
    | session => cases hreaches
    | caller => rcases interrupt with _ | _ | _ | _ <;> simp [Interrupt.outermost]
  · have hc : some (Interrupt.outermost w.interrupt i) = some .caller := hc
    by_cases hi : i = .caller
    · exact hcalled hi
    · apply h.caller
      generalize w.interrupt = interrupt at hc
      cases i with
      | caller => exact absurd rfl hi
      | deadline => rcases interrupt with _ | _ | _ | _ <;> simp [Interrupt.outermost] at hc ⊢
      | session => rcases interrupt with _ | _ | _ | _ <;> simp [Interrupt.outermost] at hc ⊢

theorem Inv.of_notified {chunk : Bytes} {clock : Clock} (h : Inv tr w)
    (hr : w.session.running = false) (hn : World.Notified P w chunk clock w' os) : Inv tr w' := by
  have hclosing : ∀ outcome, w.session = .disconnecting outcome → w.interrupt ≠ some .session :=
    fun outcome hs => (h.closing outcome hs).2
  cases hn with
  | completed frame future hreceive ha =>
    refine h.of_kept hr rfl rfl hclosing (fun n hi hf => ⟨hi, ?_⟩) h.caller
    have hf : (w.futures.set future (.done frame))[n]? = some Future.cancelled := hf
    rw [List.getElem?_set] at hf
    split at hf
    · split at hf <;> cases hf
    · exact hf
  | _ => exact h.of_kept hr rfl rfl hclosing (fun _ hi hf => ⟨hi, hf⟩) h.caller

theorem Inv.of_replied {e : Event} (h : Inv tr w) (hr : w.session.running = false)
    (hw : World.Replied P w e w' os) : Inv tr w' := by
  obtain ⟨background, rfl, -⟩ := hw.frame
  exact h.of_kept hr rfl rfl (fun outcome hs => (h.closing outcome hs).2)
    (fun _ hi hf => ⟨hi, hf⟩) h.caller

theorem inv_keeps : Keeps P (fun _ w e => (BleErrors e ∧ Fits w e) ∧ w.session.running = false)
    fun tr os w => Inv tr w ∧ ∀ outcome, .ended outcome ∈ os → Answered tr outcome := by
  have hsnoc : ∀ {tr : List (World × Event)} {os os' : List Obs} {x : World × Event},
      (∀ outcome, .ended outcome ∈ os → Answered tr outcome) →
      (∀ outcome, .ended outcome ∈ os' → Answered (tr ++ [x]) outcome) →
      ∀ outcome, .ended outcome ∈ os ++ os' → Answered (tr ++ [x]) outcome :=
    fun h h' outcome hm => (List.mem_append.1 hm).elim
      (fun hm => answered_append (h outcome hm) _) (h' outcome)
  exact
    { wakeUp := fun h hc hw => by
        obtain ⟨hinv, hended⟩ := (h.1.append _).of_woken hc.1.1 hc.1.2 hw
        exact ⟨hinv, hsnoc h.2 hended⟩
      advance := fun h ha => by
        obtain ⟨hinv, hended⟩ := h.1.of_advanced ha
        exact ⟨hinv, fun outcome hm =>
          (List.mem_append.1 hm).elim (h.2 outcome) (hended outcome)⟩
      fire := fun h hc hf => by
        obtain ⟨hinv, rfl⟩ := (h.1.append _).of_fire hc.2 called_snoc hf
        exact ⟨hinv, hsnoc h.2 (by simp)⟩
      notify := fun h hc hn =>
        ⟨(h.1.append _).of_notified hc.2 hn, hsnoc h.2 fun outcome hm => by
          cases hn <;> simp [TuyaBleClient.handledObs] at hm⟩
      reply := fun h hc hr =>
        ⟨(h.1.append _).of_replied hc.2 hr, hsnoc h.2 fun outcome hm =>
          absurd (hr.ofSend _ hm) id⟩ }

end Failures

variable {P : Primitives} {address : String} {credentials : TuyaBleCredentials}

/-- No cancellation outlives the read it was asked of. -/
theorem interrupt_of_reachable {w : World}
    (h : (machine P).Reachable (.new P address credentials) w) (hs : w.session = .idle) :
    w.interrupt = none := by
  have keeps : Keeps P Machine.Free fun _ _ w => w.session = .idle → w.interrupt = none :=
    { wakeUp := fun _ _ hw hs => by
        cases hw with
        | disconnected outcome hi hs => rfl
        | disconnectCancelled i outcome hi hd hs => rfl
        | _ => cases hs
      advance := fun _ ha hs => by
        cases ha with
        | ended outcome hs hc => rfl
        | _ => cases hs
      fire := fun {_ _ w i _ _} _ _ hf hs => by
        obtain ⟨hr, -, _, rfl, -⟩ := World.fire_eq hf
        rw [show w.session = .idle from hs] at hr
        cases i <;> cases hr
      notify := fun h _ hn hs => by cases hn <;> exact h hs
      reply := fun h _ hr hs => by
        obtain ⟨_, rfl, -⟩ := hr.frame
        exact h hs }
  exact keeps.reachable h (fun _ => rfl) (fun _ _ _ hs => nomatch hs) hs

/-- **A read is answered**, whatever the device and the link do: as long as every request
the session makes fits its formats, a mapping, an error of the SDK or the cancellation the
caller asked for leaves it. What the task waits for takes it to its next await, and its
deadlines end it from wherever it stands. -/
theorem read_is_answered {w0 w : World} {tr : List (World × Event)} {os : List Obs}
    (h0 : (machine P).Reachable (.new P address credentials) w0) (hidle : w0.session = .idle)
    (h : (machine P).Runs (WithinRead fun _ w e => BleErrors e ∧ Fits w e) w0.reading tr os w) :
    (∀ outcome, .ended outcome ∈ os → Answered tr outcome) ∧
      (∀ r iv, (w.wakeUp r).isSome = true → (w.resume P r iv).isSome = true) ∧
      ∀ iv, ∃ es w' os', (∀ e ∈ es, World.TimedOut iv e) ∧
        (machine P).exec w es = some (w', os') ∧ w'.session = .idle := by
  have hinterrupt := interrupt_of_reachable h0 hidle
  have hstart : Failures.Inv [] w0.reading := Failures.inv_outside rfl False.elim
    (fun _ he => nomatch he) (fun _ hc => nomatch hc) (fun hc => nomatch hinterrupt.symm.trans hc)
  have hrunning : w.session.running = false :=
    h.preserves (I := fun w => w.session.running = false) rfl
      fun _ _ _ _ hr hs => World.step_suspended hr hs
  exact ⟨(Failures.inv_keeps.runs (Keeps.runs_suspended h rfl) ⟨hstart, by simp⟩).2,
    fun _ iv hw => World.resume_isSome hw iv, World.deadlines_end hrunning⟩

open FakeDevice in
theorem read_is_answered_session : ∃ tr os w,
    (machine primitives).execWhere (WithinRead fun _ w e => BleErrors e ∧ Fits w e) [] []
      client.reading session = some (tr, os, w) ∧
    (∀ outcome, .ended outcome ∈ os → Answered tr outcome) ∧
      (∀ r iv, (w.wakeUp r).isSome = true → (w.resume primitives r iv).isSome = true) ∧
      ∀ iv, ∃ es w' os', (∀ e ∈ es, World.TimedOut iv e) ∧
        (machine primitives).exec w es = some (w', os') ∧ w'.session = .idle := by
  have hx : ((machine primitives).execWhere (WithinRead fun _ w e => BleErrors e ∧ Fits w e) [] []
      client.reading session).isSome = true := by decide +kernel
  obtain ⟨⟨tr, os, w⟩, he⟩ := Option.isSome_iff_exists.1 hx
  exact ⟨tr, os, w, he, read_is_answered (.refl _) rfl (Machine.runs_of_execWhere he)⟩

open FakeDevice in
/-- A device information that names version 16 is accepted, and the pairing request fails to
pack it. -/
theorem version_does_not_fit : ¬ ∀ tr os w,
    (machine primitives).Runs (WithinRead fun _ _ e => BleErrors e) client.reading tr os w →
    ∀ outcome, .ended outcome ∈ os → Answered tr outcome := by
  intro h
  have hx : ((machine primitives).execWhere (WithinRead fun _ _ e => BleErrors e) [] []
      client.reading (deviceInfoExchange 16 ++ [disconnected])).map (fun r => outcomes r.2.1) =
        some [raise .structError "ubyte format requires 0 <= number <= 255"] := by decide +kernel
  obtain ⟨⟨tr, os, w⟩, he, houtcomes⟩ := Option.map_eq_some_iff.1 hx
  have hended : .ended (raise .structError "ubyte format requires 0 <= number <= 255") ∈ os :=
    mem_outcomes.1 (houtcomes ▸ List.mem_singleton_self _)
  rcases h tr os w (Machine.runs_of_execWhere he) _ hended with herror | ⟨herror, -⟩
  · cases herror
  · cases herror

end TuyaBle
