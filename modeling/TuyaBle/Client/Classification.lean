import TuyaBle.Client.Failures
import TuyaBle.Client.Numbering
import TuyaBle.FakeDevice

/-!
# Silent handshakes

When a read raises `TuyaBleHandshakeTimeoutError`. The error is to say that the device
ignored the device information request; the clause that raises it also sees what
`write_gatt_char` raises, and then a link too slow for the request passes for a device that
could not read it.
-/

namespace TuyaBle

open Machine (Took TookBefore took_nil took_snoc tookBefore_snoc)

/-! ## What becomes of a request -/

/-- Its last fragment is written. -/
def Writes (request : Request) (w : World) (e : Event) : Prop :=
  ∃ send iv, e = .resume (.written (.ok ())) iv ∧ w.session = .writing request send ∧
    send.rest = []

/-- A write of the session fails. -/
def Breaks (w : World) (e : Event) : Prop :=
  ∃ request send error iv, e = .resume (.written (.error error)) iv ∧
    w.session = .writing request send

/-- The deadline of the wait for its reply expires. -/
def Expires (request : Request) (w : World) (e : Event) : Prop :=
  e = .fire .deadline ∧ w.session = .waiting request

/-- A readable frame that quotes its number is dispatched. -/
def Hears (P : Primitives) (request : Request) (w : World) (e : Event) : Prop :=
  ∃ chunk clock frame, e = .notify chunk clock ∧ w.session.request? = some request ∧
    (w.self.receive P chunk).2 = .ok (some frame) ∧ frame.responseTo = request.sequenceNumber

/-- Every fragment is written: one follows the other, and the first error ends the request. -/
def Sent (request : Request) (tr : List (World × Event)) : Prop := Took (Writes request) tr

/-- It is answered within the time it has. -/
def Heard (P : Primitives) (request : Request) (tr : List (World × Event)) : Prop :=
  TookBefore (Hears P request) (Expires request) tr

def Ignored (P : Primitives) (request : Request) (tr : List (World × Event)) : Prop :=
  Sent request tr ∧ ¬ Heard P request tr

/-- The outcome is an exception of exactly that type. -/
def Raises (type : ExceptionType) : Outcome → Prop
  | .ok _ => False
  | .error e => e.type = type

/-- The errors say what happened to the requests. -/
structure Classified (P : Primitives) (tr : List (World × Event)) (outcome : Outcome) : Prop where
  silent : Raises .tuyaBleHandshakeTimeoutError outcome ↔
    ∃ request, request.code = .senderDeviceInfo ∧ Ignored P request tr
  broken : Took Breaks tr → Raises .tuyaBleConnectionError outcome
  unanswered : ∀ request, request.code ≠ .senderDeviceInfo → Ignored P request tr →
    Raises .tuyaBleConnectionError outcome

/-! ## The runs considered -/

/-- What bleak raises instead of connecting or subscribing. -/
def Event.linkError? : Event → Option PyException
  | .resume (.connected (.error e)) _ | .resume (.subscribed (.error e)) _ => some e
  | _ => none

def LinkUp (w : World) (e : Event) : Prop :=
  e.linkError? = none ∧ (e = .fire .deadline → w.session ≠ .connecting)

/-- No write of the device information request times out, and its deadline does not expire
between the dispatch of its reply and the turn of the task that takes it. -/
def Discerned (w : World) (e : Event) : Prop :=
  ∀ request ∈ w.session.request?, request.code = .senderDeviceInfo →
    (∀ error ∈ e.writeError?, error.type ≠ .timeoutError) ∧
      (e = .fire .deadline → w.reply? request = none)

instance (w : World) (e : Event) : Decidable (LinkUp w e) := inferInstanceAs (Decidable (_ ∧ _))

instance (w : World) (e : Event) : Decidable (Discerned w e) :=
  inferInstanceAs (Decidable (∀ request ∈ w.session.request?, _ → _))

namespace Classification

variable {P : Primitives} {tr tr' : List (World × Event)} {os : List Obs} {w w' : World}
  {e : Event} {request : Request} {outcome : Outcome}

/-! ## Steps that concern no request -/

/-- The error of a request no frame answers. -/
def unansweredFor (code : TuyaBleCommandCode) : ExceptionType :=
  if code = .senderDeviceInfo then .tuyaBleHandshakeTimeoutError else .tuyaBleConnectionError

theorem sent_snoc : Sent request (tr ++ [(w, e)]) ↔ Sent request tr ∨ Writes request w e :=
  took_snoc

theorem heard_snoc : Heard P request (tr ++ [(w, e)]) ↔
    Heard P request tr ∨ Hears P request w e ∧ ¬ Took (Expires request) tr := tookBefore_snoc

theorem not_writes (h : e.isResume = false) : ¬ Writes request w e := by
  rintro ⟨send, iv, rfl, -⟩
  cases h

theorem not_breaks (h : e.isResume = false) : ¬ Breaks w e := by
  rintro ⟨request, send, error, iv, rfl, -⟩
  cases h

theorem not_expires (h : e ≠ .fire .deadline) : ¬ Expires request w e := fun he => h he.1

theorem not_hears (h : e.isNotify = false) : ¬ Hears P request w e := by
  rintro ⟨chunk, clock, frame, rfl, -⟩
  cases h

/-- Nothing of what the outcome depends on. -/
structure Aside (P : Primitives) (w : World) (e : Event) : Prop where
  writes : ∀ request, ¬ Writes request w e
  breaks : ¬ Breaks w e
  expires : ∀ request, ¬ Expires request w e
  hears : ∀ request, ¬ Hears P request w e

/-- Two traces that say the same of every request. -/
structure Same (P : Primitives) (tr tr' : List (World × Event)) : Prop where
  sent : ∀ request, Sent request tr' ↔ Sent request tr
  broken : Took Breaks tr' ↔ Took Breaks tr
  expired : ∀ request, Took (Expires request) tr' ↔ Took (Expires request) tr
  heard : ∀ request, Heard P request tr' ↔ Heard P request tr
  called : Called tr → Called tr'

theorem Same.refl (P : Primitives) (tr : List (World × Event)) : Same P tr tr :=
  ⟨fun _ => .rfl, .rfl, fun _ => .rfl, fun _ => .rfl, id⟩

theorem Aside.same (h : Aside P w e) (tr : List (World × Event)) : Same P tr (tr ++ [(w, e)]) where
  sent request := by rw [sent_snoc, or_iff_left (h.writes request)]
  broken := by rw [took_snoc, or_iff_left h.breaks]
  expired request := by rw [took_snoc, or_iff_left (h.expires request)]
  heard request := by rw [heard_snoc, or_iff_left fun hh => h.hears request hh.1]
  called hc := Failures.Called.append hc _

theorem aside_of_request (h : w.session.request? = none) (e : Event) : Aside P w e where
  writes request := by
    rintro ⟨send, iv, -, hs, -⟩
    rw [hs] at h
    cases h
  breaks := by
    rintro ⟨request, send, error, iv, -, hs⟩
    rw [hs] at h
    cases h
  expires request := by
    rintro ⟨-, hs⟩
    rw [hs] at h
    cases h
  hears request := by
    rintro ⟨chunk, clock, frame, -, hs, -⟩
    rw [hs] at h
    cases h

theorem aside_of_resume (h : ∀ request send, w.session ≠ .writing request send) (r : Resumption)
    (iv : InitializationVector) : Aside P w (.resume r iv) where
  writes request := by
    rintro ⟨send, iv, -, hs, -⟩
    exact h request send hs
  breaks := by
    rintro ⟨request, send, error, iv, -, hs⟩
    exact h request send hs
  expires request := not_expires nofun
  hears request := not_hears rfl

theorem aside_of_replied (h : World.Replied P w e w' os) : Aside P w e := by
  cases h <;>
    exact ⟨fun _ => not_writes rfl, not_breaks rfl, fun _ => not_expires nofun,
      fun _ => not_hears rfl⟩

theorem aside_of_notify {chunk : Bytes} {clock : Clock}
    (h : ∀ request, ¬ Hears P request w (.notify chunk clock)) :
    Aside P w (.notify chunk clock) :=
  ⟨fun _ => not_writes rfl, not_breaks rfl, fun _ => not_expires nofun, h⟩

theorem Classified.of_same (h : Classified P tr outcome) (hs : Same P tr tr') :
    Classified P tr' outcome := by
  have hignored : ∀ request, Ignored P request tr' ↔ Ignored P request tr := fun request => by
    unfold Ignored
    rw [hs.sent, hs.heard]
  exact
    { silent := by simp only [h.silent, hignored]
      broken := fun hb => h.broken (hs.broken.1 hb)
      unanswered := fun request hc hi => h.unanswered request hc ((hignored request).1 hi) }

/-- How a read may end: the caller cancelled it, or the error says what happened. -/
def Settled (P : Primitives) (tr : List (World × Event)) (outcome : Outcome) : Prop :=
  Raises .cancelledError outcome ∧ Called tr ∨ Classified P tr outcome

theorem Settled.of_same (h : Settled P tr outcome) (hs : Same P tr tr') :
    Settled P tr' outcome :=
  h.imp (And.imp_right hs.called) fun h => Classified.of_same h hs

/-! ## What holds while nothing has failed -/

/-- Every fragment of the request is written. -/
def finished : Session → Prop
  | .sending _ send => send.rest = []
  | .replyDue _ | .waiting _ => True
  | _ => False

/-- The stages before the first failure. -/
def going : Session → Prop
  | .idle | .failed .. | .leaving _ | .disconnecting _ => False
  | _ => True

/-- The request being made: a frame that quotes its number has completed its future, or its
entry still waits for one. -/
structure Current (P : Primitives) (tr : List (World × Event)) (w : World) (request : Request) :
    Prop where
  named : request.unansweredError = unansweredFor request.code
  sent : Sent request tr ↔ finished w.session
  reply : w.self.pending.get? request.sequenceNumber = some request.pending ∧
      w.futures[request.pending]? = some .pending ∧ ¬ Heard P request tr ∨
    (w.reply? request).isSome = true ∧ Heard P request tr

structure Unharmed (P : Primitives) (tr : List (World × Event)) (w : World) : Prop where
  unbroken : ¬ Took Breaks tr
  unexpired : ∀ request, ¬ Took (Expires request) tr
  past : ∀ request, Sent request tr → w.session.request? = some request ∨ Heard P request tr
  current : ∀ request, w.session.request? = some request → Current P tr w request
  call : ∀ call, w.session.call? = some call → call.unansweredError = unansweredFor call.code

/-- The deadline of the wait has expired, and the task is about to learn it. -/
structure Late (P : Primitives) (tr : List (World × Event)) (request : Request) : Prop where
  named : request.unansweredError = unansweredFor request.code
  unbroken : ¬ Took Breaks tr
  expired : Took (Expires request) tr
  sent : Sent request tr
  past : ∀ other, Sent other tr → other = request ∨ Heard P other tr
  silent : request.code = .senderDeviceInfo → ¬ Heard P request tr

/-- The outcome the task is bound for. -/
def final? (w : World) : Option Outcome :=
  match w.session with
  | .failed request e => some (w.outcomeOf (.error (w.requestFailure request e)))
  | .leaving outcome => some (w.outcomeOf outcome)
  | .disconnecting outcome => some outcome
  | _ => none

/-- Where the deadline an await has to itself can have expired. -/
def bounded : Session → Prop
  | .waiting _ | .collecting _ | .disconnecting _ => True
  | _ => False

structure Inv (P : Primitives) (tr : List (World × Event)) (w : World) : Prop where
  fresh : ¬ w.session.over → ∀ t e request, (t, e) ∈ tr → t.session.request? = some request →
    request.pending < w.futures.length
  calm : Failures.calm w.session → w.interrupt = none
  interrupt : w.interrupt = none ∨ w.interrupt = some .caller ∧ Called tr ∨
    w.interrupt = some .deadline ∧ bounded w.session
  unharmed : going w.session → (w.interrupt = none ∨ ∃ collected,
    w.interrupt = some .deadline ∧ w.session = .collecting collected) → Unharmed P tr w
  late : ∀ request, w.interrupt = some .deadline → w.session = .waiting request →
    Late P tr request
  final : ∀ outcome, final? w = some outcome → Settled P tr outcome

theorem Unharmed.of_same (h : Unharmed P tr w) (hs : Same P tr tr')
    (hsession : w'.session = w.session) (hpending : ∀ request, w.session.request? = some request →
      w'.self.pending.get? request.sequenceNumber = w.self.pending.get? request.sequenceNumber)
    (hfutures : w'.futures = w.futures) : Unharmed P tr' w' where
  unbroken hb := h.unbroken (hs.broken.1 hb)
  unexpired request he := h.unexpired request ((hs.expired request).1 he)
  past request hr := by
    rw [hsession, hs.heard]
    exact h.past request ((hs.sent request).1 hr)
  current request hr := by
    rw [hsession] at hr
    have hc := h.current request hr
    refine ⟨hc.named, by rw [hs.sent, hsession]; exact hc.sent, ?_⟩
    unfold World.reply?
    rw [hpending request hr, hfutures, hs.heard]
    exact hc.reply
  call call hc := h.call call (hsession ▸ hc)

theorem Late.of_same (h : Late P tr request) (hs : Same P tr tr') : Late P tr' request where
  named := h.named
  unbroken hb := h.unbroken (hs.broken.1 hb)
  expired := (hs.expired request).2 h.expired
  sent := (hs.sent request).2 h.sent
  past other ho := by
    rw [hs.heard]
    exact h.past other ((hs.sent other).1 ho)
  silent hc := by
    rw [hs.heard]
    exact h.silent hc

/-! ## From the failure to the outcome -/

/-- The deadline of the session has not expired, so only a timeout is renamed. -/
theorem raises_outcomeOf {type : ExceptionType} {e : PyException} (hi : w.interrupt ≠ some .session)
    (ht : e.type = type) (hne : type ≠ .timeoutError) :
    Raises type (w.outcomeOf (.error e)) := by
  subst ht
  have hn : ¬ (w.interrupt = some .session ∧ e.type = .cancelledError) := fun h => hi h.1
  simp only [World.outcomeOf, if_neg hn, if_neg hne]
  rfl

theorem type_of_raises {type type' : ExceptionType} (h : Raises type outcome)
    (h' : Raises type' outcome) : type = type' := by
  cases outcome with
  | ok collected => exact h.elim
  | error e => exact h.symm.trans h'

/-- An error that is not the handshake's, while no request waits for its answer. -/
theorem classified_of_heard (hb : ¬ Took Breaks tr) (hpast : ∀ request, Sent request tr →
      Heard P request tr) (hne : ¬ Raises .tuyaBleHandshakeTimeoutError outcome) :
    Classified P tr outcome where
  silent := by
    constructor
    · exact fun h => absurd h hne
    · rintro ⟨request, -, hsent, hheard⟩
      exact absurd (hpast request hsent) hheard
  broken h := absurd h hb
  unanswered request _ hi := absurd (hpast request hi.1) hi.2

/-- A failed write is a connection error, as long as the request it belongs to is not sent. -/
theorem classified_of_broken (hpast : ∀ request, Sent request tr → Heard P request tr)
    (hr : Raises .tuyaBleConnectionError outcome) : Classified P tr outcome where
  silent := by
    constructor
    · intro h
      cases type_of_raises h hr
    · rintro ⟨request, -, hsent, hheard⟩
      exact absurd (hpast request hsent) hheard
  broken _ := hr
  unanswered _ _ _ := hr

/-- **A late request is classified.** -/
theorem Late.classified (h : Late P tr request)
    (hr : Raises (unansweredFor request.code) outcome) : Classified P tr outcome := by
  unfold unansweredFor at hr
  have honly : ∀ other, Ignored P other tr → other = request := fun other hi =>
    (h.past other hi.1).resolve_right hi.2
  split at hr
  · rename_i hc
    refine ⟨⟨fun _ => ⟨request, hc, h.sent, h.silent hc⟩, fun _ => hr⟩,
      fun hb => absurd hb h.unbroken, fun other hne hi => ?_⟩
    exact absurd (honly other hi ▸ hc) hne
  · rename_i hc
    refine ⟨⟨fun hh => ?_, ?_⟩, fun _ => hr, fun _ _ _ => hr⟩
    · cases type_of_raises hh hr
    · rintro ⟨other, hd, hi⟩
      exact absurd (honly other hi ▸ hd) hc

/-! ## What each step leaves -/

theorem final?_of_going (h : going w.session) : final? w = none := by
  unfold final?
  cases hs : w.session with
  | failed request e => rw [hs] at h; exact h.elim
  | leaving outcome => rw [hs] at h; exact h.elim
  | disconnecting outcome => rw [hs] at h; exact h.elim
  | _ => rfl

theorem going_of_calm {s : Session} (h : Failures.calm s) : going s := by
  cases s <;> trivial

theorem not_over_of_going {s : Session} (h : going s) : ¬ s.over := by
  cases s <;> first | exact h.elim | exact id

theorem fresh_snoc (h : Inv P tr w) (hn : w.Numbered) (ho : w.session.over → w'.session.over)
    (hl : w.futures.length ≤ w'.futures.length) : ¬ w'.session.over →
    ∀ t e' request, (t, e') ∈ tr ++ [(w, e)] → t.session.request? = some request →
      request.pending < w'.futures.length := by
  intro hover t e' request hm hr
  rcases List.mem_append.1 hm with hm | hm
  · exact Nat.lt_of_lt_of_le (h.fresh (fun h => hover (ho h)) t e' request hm hr) hl
  · cases List.mem_singleton.1 hm
    exact Nat.lt_of_lt_of_le (hn.request request hr).2.2 hl

/-- No failure yet. -/
theorem inv_going (hg : going w.session) (hi : w.interrupt = none) (hfresh : ∀ t e request,
      (t, e) ∈ tr → t.session.request? = some request → request.pending < w.futures.length)
    (h : Unharmed P tr w) : Inv P tr w where
  fresh _ := hfresh
  calm _ := hi
  interrupt := .inl hi
  unharmed _ _ := h
  late _ hl := by rw [hi] at hl; cases hl
  final _ ho := by rw [final?_of_going hg] at ho; cases ho

/-- The task is bound for its outcome. -/
theorem inv_final (hg : ¬ going w.session) (hfresh : ¬ w.session.over → ∀ t e request,
      (t, e) ∈ tr → t.session.request? = some request → request.pending < w.futures.length)
    (hi : w.interrupt = none ∨ w.interrupt = some .caller ∧ Called tr ∨
      w.interrupt = some .deadline ∧ bounded w.session)
    (h : ∀ outcome, final? w = some outcome → Settled P tr outcome) : Inv P tr w where
  fresh := hfresh
  calm hc := absurd (going_of_calm hc) hg
  interrupt := hi
  unharmed hg' := absurd hg' hg
  late _ _ hs := by rw [hs] at hg; exact absurd trivial hg
  final := h

theorem Inv.ne_session (h : Inv P tr w) : w.interrupt ≠ some .session := by
  intro hs
  rcases h.interrupt with hi | ⟨hi, -⟩ | ⟨hi, -⟩ <;> rw [hs] at hi <;> cases hi

/-- Off the awaits that have a deadline of their own, only the caller interrupts. -/
theorem Inv.eq_caller (h : Inv P tr w) {i : Interrupt} (hi : w.interrupt = some i)
    (hb : i = .deadline → ¬ bounded w.session) : i = .caller ∧ Called tr := by
  rcases h.interrupt with hn | ⟨hc, hcalled⟩ | ⟨hd, hbounded⟩
  · rw [hi] at hn
    cases hn
  · rw [hi] at hc
    exact ⟨Option.some.inj hc, hcalled⟩
  · rw [hi] at hd
    exact absurd hbounded (hb (Option.some.inj hd))

theorem settled_cancelled {e : PyException} (hc : Called tr) (hi : w.interrupt ≠ some .session)
    (he : e.type = .cancelledError) : Settled P tr (w.outcomeOf (.error e)) := by
  exact .inl ⟨raises_outcomeOf hi he (by decide), hc⟩

theorem requestFailure_of_ne {e : PyException} (h : e.type ≠ .timeoutError) :
    w.requestFailure request e = e := if_neg h

theorem type_of_requestFailure {e : PyException} (h : e.type = .timeoutError) :
    (w.requestFailure request e).type = request.unansweredError := by
  unfold World.requestFailure
  rw [if_pos h]

theorem unansweredFor_ne (code : TuyaBleCommandCode) : unansweredFor code ≠ .timeoutError := by
  unfold unansweredFor
  split <;> decide

/-- Outside of a request every request that was sent is answered. -/
theorem Unharmed.heard (h : Unharmed P tr w) (hr : w.session.request? = none)
    (hsent : Sent request tr) : Heard P request tr := by
  refine (h.past request hsent).resolve_left fun hcurrent => ?_
  rw [hr] at hcurrent
  cases hcurrent

/-- From a stage outside of a request to the next. -/
theorem Unharmed.of_none (h : Unharmed P tr w) (hs : Same P tr tr')
    (hr : w.session.request? = none) (hr' : w'.session.request? = none)
    (hc : ∀ call, w'.session.call? = some call → call.unansweredError = unansweredFor call.code) :
    Unharmed P tr' w' where
  unbroken hb := h.unbroken (hs.broken.1 hb)
  unexpired request he := h.unexpired request ((hs.expired request).1 he)
  past request hsent := by
    right
    exact (hs.heard request).2 (h.heard hr ((hs.sent request).1 hsent))
  current request hcurrent := by rw [hr'] at hcurrent; cases hcurrent
  call := hc

/-- From a stage of a request to the next. -/
theorem Unharmed.of_request (h : Unharmed P tr w) (hs : Same P tr tr')
    (hr : w.session.request? = some request) (hr' : w'.session.request? = some request)
    (hc : w'.session.call? = none) (hself : w'.self.pending = w.self.pending)
    (hfutures : w'.futures = w.futures) (hfin : finished w'.session ↔ finished w.session) :
    Unharmed P tr' w' where
  unbroken hb := h.unbroken (hs.broken.1 hb)
  unexpired request he := h.unexpired request ((hs.expired request).1 he)
  past other hsent := by
    rw [hr', ← hr, hs.heard]
    exact h.past other ((hs.sent other).1 hsent)
  current other ho := by
    obtain rfl := Option.some.inj (hr'.symm.trans ho)
    have hcur := h.current request hr
    refine ⟨hcur.named, by rw [hs.sent, hfin]; exact hcur.sent, ?_⟩
    unfold World.reply?
    rw [hself, hfutures, hs.heard]
    exact hcur.reply
  call call hcall := by rw [hc] at hcall; cases hcall

theorem Inv.of_written (h : Inv P tr w) (hn : w.Numbered) {send : Send}
    {iv : InitializationVector} (hi : w.interrupt = none)
    (hs : w.session = .writing request send) :
    Inv P (tr ++ [(w, .resume (.written (.ok ())) iv)])
      { w with session := .sending request send } := by
  have hu := h.unharmed (by rw [hs]; trivial) (.inl hi)
  have hcur := hu.current request (by rw [hs]; rfl)
  have hwrites : ∀ other, Writes other w (.resume (.written (.ok ())) iv) ↔
      other = request ∧ send.rest = [] := fun other => by
    constructor
    · rintro ⟨send', iv', -, hs', hrest⟩
      rw [hs] at hs'
      cases hs'
      exact ⟨rfl, hrest⟩
    · rintro ⟨rfl, hrest⟩
      exact ⟨send, iv, rfl, hs, hrest⟩
  have hheard : ∀ other, Heard P other (tr ++ [(w, .resume (.written (.ok ())) iv)]) ↔
      Heard P other tr := fun other => by
    rw [heard_snoc, or_iff_left fun hh => not_hears rfl hh.1]
  have hunsent : ¬ Sent request tr := fun hsent => by
    have := hcur.sent.1 hsent
    rw [hs] at this
    exact this
  refine inv_going trivial hi (fresh_snoc h hn (by rw [hs]; exact id) (Nat.le_refl _) id) ?_
  refine ⟨?_, fun other => ?_, fun other hsent => ?_, fun other ho => ?_, by rintro _ ⟨⟩⟩
  · rw [took_snoc]
    rintro (hb | ⟨_, _, _, _, he, -⟩)
    · exact hu.unbroken hb
    · cases he
  · rw [took_snoc]
    rintro (he | ⟨he, -⟩)
    · exact hu.unexpired other he
    · cases he
  · rw [hheard]
    rcases sent_snoc.1 hsent with hsent | hw
    · have hpast := hu.past other hsent
      rw [hs] at hpast
      exact hpast
    · exact .inl (congrArg some ((hwrites other).1 hw).1.symm)
  · obtain rfl := Option.some.inj ho
    refine ⟨hcur.named, ?_, ?_⟩
    · rw [sent_snoc, hwrites, or_iff_right hunsent]
      exact ⟨And.right, fun hrest => ⟨rfl, hrest⟩⟩
    · rw [hheard]
      exact hcur.reply

theorem Inv.of_writeFailed (h : Inv P tr w) (hn : w.Numbered) {send : Send} {error : PyException}
    {iv : InitializationVector} (hi : w.interrupt = none)
    (hs : w.session = .writing request send)
    (hb : error.type = .bleakError ∨ error.type = .timeoutError)
    (hd : request.code = .senderDeviceInfo → error.type ≠ .timeoutError) :
    Inv P (tr ++ [(w, .resume (.written (.error error)) iv)])
      { w with session := .failed request (w.self.writeFailure error) } := by
  have hu := h.unharmed (by rw [hs]; trivial) (.inl hi)
  have hcur := hu.current request (by rw [hs]; rfl)
  have hpast : ∀ other, Sent other (tr ++ [(w, .resume (.written (.error error)) iv)]) →
      Heard P other (tr ++ [(w, .resume (.written (.error error)) iv)]) := fun other hsent => by
    rcases sent_snoc.1 hsent with hsent | ⟨_, _, he, -⟩
    · rcases hu.past other hsent with ho | hheard
      · rw [hs] at ho
        cases ho
        have hfin := hcur.sent.1 hsent
        rw [hs] at hfin
        exact hfin.elim
      · exact heard_snoc.2 (.inl hheard)
    · cases he
  refine inv_final id (fresh_snoc h hn (by rw [hs]; exact id) (Nat.le_refl _)) (.inl hi) ?_
  intro outcome ho
  cases ho
  refine .inr (classified_of_broken hpast ?_)
  have hne : w.interrupt ≠ some .session := h.ne_session
  rcases hb with ht | ht
  · have hf : (w.self.writeFailure error).type = .tuyaBleConnectionError := by
      unfold TuyaBleClient.writeFailure
      rw [if_pos ht]
    rw [requestFailure_of_ne (by rw [hf]; decide)]
    exact raises_outcomeOf hne hf (by decide)
  · have hf : w.self.writeFailure error = error := if_neg (by rw [ht]; decide)
    refine raises_outcomeOf hne ?_ (by decide)
    rw [hf]
    refine (type_of_requestFailure ht).trans ?_
    rw [hcur.named, unansweredFor, if_neg fun hc => hd hc ht]

/-- The caller's cancellation reaches the task. -/
theorem Inv.of_cancelled (h : Inv P tr w) (hn : w.Numbered) {i : Interrupt}
    (hi : w.interrupt = some i) (hb : i = .deadline → ¬ bounded w.session) {r : Resumption}
    {iv : InitializationVector} (ho : ¬ w.session.over) (hf : w'.futures = w.futures)
    (hi' : w'.interrupt = i.left) (hs' : w'.session = .leaving (.error i.raised) ∨
      ∃ request, w'.session = .failed request i.raised) :
    Inv P (tr ++ [(w, .resume r iv)]) w' := by
  obtain ⟨rfl, hcalled⟩ := h.eq_caller hi hb
  have hcalled := Failures.Called.append hcalled [(w, .resume r iv)]
  have hg : ¬ going w'.session := by
    rcases hs' with hs' | ⟨request, hs'⟩ <;> rw [hs'] <;> exact id
  refine inv_final hg (fresh_snoc h hn (fun hover => absurd hover ho) (Nat.le_of_eq (by rw [hf])))
    (.inr (.inl ⟨hi', hcalled⟩)) fun outcome hm => ?_
  have hfinal : outcome = w'.outcomeOf (.error Interrupt.caller.raised) := by
    unfold final? at hm
    rcases hs' with hs' | ⟨request, hs'⟩ <;> rw [hs'] at hm <;> exact (Option.some.inj hm).symm
  subst hfinal
  refine settled_cancelled hcalled ?_ rfl
  rw [hi']
  decide

/-- An event outside of a request that the read goes on after. -/
theorem Inv.of_outside {e : Event} (h : Inv P tr w) (hn : w.Numbered) (hg : going w.session)
    (hi : w.interrupt = none) (hr : w.session.request? = none) (hg' : going w'.session)
    (hi' : w'.interrupt = none) (hr' : w'.session.request? = none)
    (hf : w'.futures = w.futures) (hc : ∀ call, w'.session.call? = some call →
      call.unansweredError = unansweredFor call.code) : Inv P (tr ++ [(w, e)]) w' := by
  have hu := h.unharmed hg (.inl hi)
  have hfresh := fresh_snoc (e := e) h hn (fun hover => absurd hover (not_over_of_going hg))
    (Nat.le_of_eq (congrArg List.length hf.symm)) (not_over_of_going hg')
  exact inv_going hg' hi' hfresh (hu.of_none ((aside_of_request hr e).same tr) hr hr' hc)

theorem Inv.of_woken {r : Resumption} {iv : InitializationVector} (h : Inv P tr w)
    (hn : w.Numbered) (hup : LinkUp w (.resume r iv)) (hb : BleErrors (.resume r iv))
    (hd : Discerned w (.resume r iv)) (hw : World.Woken w r w' os) :
    Inv P (tr ++ [(w, .resume r iv)]) w' ∧ ∀ outcome, .ended outcome ∈ os →
      Settled P (tr ++ [(w, .resume r iv)]) outcome ∧ w'.session = .idle := by
  cases hw with
  | connected link hi hs hr =>
    exact ⟨h.of_outside hn (by rw [hs]; trivial) hi (by rw [hs]; rfl) trivial hi rfl rfl
      (by rintro _ ⟨⟩), by simp⟩
  | subscribed hi hs =>
    refine ⟨h.of_outside hn (by rw [hs]; trivial) hi (by rw [hs]; rfl) trivial hi rfl rfl
      (fun call hc => ?_), by simp⟩
    cases hc
    rfl
  | connectFailed e hi hs he hr =>
    have hnone := hup.1
    rcases hr with rfl | rfl <;> cases hnone
  | connectTimedOut hi hs =>
    have hcaller := h.eq_caller hi fun _ => by rw [hs]; exact id
    cases hcaller.1
  | connectCancelled i hi hs =>
    have hs : w.session = .connecting ∨ w.session = .subscribing := hs.imp_left And.left
    refine ⟨h.of_cancelled hn hi (fun _ => ?_) ?_ rfl rfl (.inl rfl), by simp⟩
    · rcases hs with hs | hs <;> rw [hs] <;> exact id
    · rcases hs with hs | hs <;> rw [hs] <;> exact id
  | written request send hi hs hr =>
    subst hr
    exact ⟨h.of_written hn hi hs, by simp⟩
  | writeFailed request send e hi hs hr he =>
    subst hr
    exact ⟨h.of_writeFailed hn hi hs (hb e rfl)
      fun hc => (hd request (by rw [hs]; rfl) hc).1 e rfl, by simp⟩
  | writeCancelled i request send hi hs =>
    exact ⟨h.of_cancelled hn hi (fun _ => by rw [hs]; exact id) (by rw [hs]; exact id) rfl rfl
      (.inr ⟨request, rfl⟩), by simp⟩
  | replied request hi hs hf =>
    have hu := h.unharmed (by rw [hs]; trivial) (.inl hi)
    have hsame : Same P tr (tr ++ [(w, .resume r iv)]) :=
      (aside_of_resume (fun _ _ hw => by rw [hs] at hw; cases hw) r iv).same tr
    have hr : w.session.request? = some request := by rw [hs]; rfl
    refine ⟨inv_going trivial hi (fresh_snoc h hn (by rw [hs]; exact id) (Nat.le_refl _) id)
      (hu.of_request hsame hr rfl rfl rfl rfl ?_), by simp⟩
    rw [hs]
    rfl
  | waitEnded i request hi hs =>
    have hsame : Same P tr (tr ++ [(w, .resume r iv)]) :=
      (aside_of_resume (fun _ _ hw => by rw [hs] at hw; cases hw) r iv).same tr
    cases i with
    | deadline =>
      have hlate := (h.late request hi hs).of_same hsame
      refine ⟨inv_final id (fresh_snoc h hn (by rw [hs]; exact id) (Nat.le_refl _)) (.inl rfl)
        fun outcome ho => ?_, by simp⟩
      cases ho
      refine .inr (hlate.classified (raises_outcomeOf nofun ?_
        (unansweredFor_ne _)))
      exact (type_of_requestFailure rfl).trans hlate.named
    | session => exact absurd hi h.ne_session
    | caller =>
      exact ⟨h.of_cancelled hn hi nofun (by rw [hs]; exact id) rfl rfl
        (.inr ⟨request, rfl⟩), by simp⟩
  | reported collected hi hs hr =>
    exact ⟨h.of_outside hn (by rw [hs]; trivial) hi (by rw [hs]; rfl) trivial hi rfl rfl
      (by rintro _ ⟨⟩), by simp⟩
  | quiet collected hi hs =>
    have hu := h.unharmed (by rw [hs]; trivial) (.inr ⟨collected, hi, hs⟩)
    have hnone : w.session.request? = none := by rw [hs]; rfl
    have hsame := (aside_of_request (P := P) hnone (.resume r iv)).same tr
    refine ⟨inv_final id (fresh_snoc h hn (by rw [hs]; exact id) (Nat.le_refl _)) (.inl rfl)
      fun outcome ho => ?_, by simp⟩
    cases ho
    exact .inr (Classified.of_same (classified_of_heard hu.unbroken (fun _ => hu.heard hnone) id)
      hsame)
  | collectCancelled i collected hi hne hs =>
    exact ⟨h.of_cancelled hn hi (fun h => absurd h hne) (by rw [hs]; exact id) rfl rfl (.inl rfl),
      by simp⟩
  | disconnected outcome hi hs =>
    have hnone : w.session.request? = none := by rw [hs]; rfl
    refine ⟨inv_final id (fun hover => absurd trivial hover) (.inl rfl) (by rintro _ ⟨⟩),
      fun outcome' hm => ?_⟩
    cases List.mem_singleton.1 hm
    exact ⟨(h.final outcome (by rw [final?, hs])).of_same ((aside_of_request hnone _).same tr), rfl⟩
  | disconnectCancelled i outcome hi hne hs =>
    obtain ⟨rfl, hcalled⟩ := h.eq_caller hi fun h => absurd h hne
    refine ⟨inv_final id (fun hover => absurd trivial hover) (.inl rfl) (by rintro _ ⟨⟩),
      fun outcome' hm => ?_⟩
    cases List.mem_singleton.1 hm
    exact ⟨.inl ⟨rfl, Failures.Called.append hcalled _⟩, rfl⟩

theorem not_raises_outcomeOf {e : PyException} (hi : w.interrupt ≠ some .session)
    (hne : e.type ≠ .tuyaBleHandshakeTimeoutError) :
    ¬ Raises .tuyaBleHandshakeTimeoutError (w.outcomeOf (.error e)) := by
  by_cases ht : e.type = .timeoutError
  · have hn : ¬ (w.interrupt = some .session ∧ e.type = .cancelledError) := fun h => hi h.1
    simp only [World.outcomeOf, if_neg hn, if_pos ht]
    intro hr
    cases hr
  · intro hr
    exact hne (type_of_raises (raises_outcomeOf hi rfl ht) hr)

/-- The errors a request is refused with before anything is written. -/
theorem type_of_refused {call : Call} {error : PyException} {iv : InitializationVector}
    (he : w.keyFor call = .error error ∨ ∃ key, w.keyFor call = .ok key ∧
      w.self.startSend P (w.frameFor call) key call.securityFlag iv = some (.error error)) :
    error.type ≠ .timeoutError ∧ error.type ≠ .tuyaBleHandshakeTimeoutError := by
  have htype : error.type = .tuyaBleError ∨ error.type = .tuyaBleConnectionError ∨
      error.type = .structError := by
    rcases he with he | ⟨key, -, he⟩
    · unfold World.keyFor TuyaBleClient.requireSessionKey raise at he
      split at he
      · cases he
      · split at he <;> cases he
        exact .inl rfl
    · unfold TuyaBleClient.startSend at he
      split at he
      · cases he
        exact .inr (.inl rfl)
      · split at he
        · rename_i hencode
          cases he
          exact .inr (.inr (Frame.encode_fails _ _ _ _ _ hencode))
        · split at he
          · cases he
          · rename_i hpackets
            cases he
            exact .inr (.inr (type_of_buildPackets hpackets))
          · cases he
  rcases htype with ht | ht | ht <;> rw [ht] <;> exact ⟨by decide, by decide⟩

/-- An error that is not the handshake's, between two requests. -/
theorem Inv.of_refused (h : Inv P tr w) (hc : Failures.calm w.session)
    (hr : w.session.request? = none) (hg' : ¬ going w'.session) (hi' : w'.interrupt = none)
    (hf : w.futures.length ≤ w'.futures.length) {error : PyException}
    (hfinal : final? w' = some (w'.outcomeOf (.error error)))
    (hne : error.type ≠ .tuyaBleHandshakeTimeoutError) : Inv P tr w' := by
  have hu := h.unharmed (going_of_calm hc) (.inl (h.calm hc))
  refine inv_final hg' (fun _ t e request hm hr => ?_) (.inl hi') fun outcome hm => ?_
  · exact Nat.lt_of_lt_of_le (h.fresh (not_over_of_going (going_of_calm hc)) t e request hm hr) hf
  · obtain rfl := Option.some.inj (hfinal.symm.trans hm)
    exact .inr (classified_of_heard hu.unbroken (fun _ => hu.heard hr)
      (not_raises_outcomeOf (by rw [hi']; decide) hne))

/-- A request is new: no step of the trace was about it. -/
theorem Inv.of_requestSending (h : Inv P tr w) {call : Call} {send : Send}
    (hs : w.session = .requesting call) (hrest : send.rest ≠ []) :
    Inv P tr { w.register with session := .sending (w.requestFor call) send } := by
  have hi := h.calm (by rw [hs]; trivial)
  have hu := h.unharmed (by rw [hs]; trivial) (.inl hi)
  have hfresh := h.fresh (by rw [hs]; exact id)
  have hnew : ∀ t e, (t, e) ∈ tr → t.session.request? ≠ some (w.requestFor call) :=
    fun t e hm hr => Nat.lt_irrefl _ (hfresh t e _ hm hr)
  have hunsent : ¬ Sent (w.requestFor call) tr := by
    rintro ⟨t, e, hm, send, iv, -, ht, -⟩
    exact hnew t e hm (by rw [ht]; rfl)
  have hunheard : ¬ Heard P (w.requestFor call) tr := by
    rintro ⟨before, t, e, after, rfl, ⟨_, _, _, -, hr, -⟩, -⟩
    exact hnew t e (by simp) hr
  refine inv_going trivial hi (fun t e request hm hr => ?_) ?_
  · exact Nat.lt_of_lt_of_le (hfresh t e request hm hr) (by simp [World.register])
  · refine ⟨hu.unbroken, hu.unexpired, fun request hsent => ?_, fun request hr => ?_,
      by rintro _ ⟨⟩⟩
    · exact .inr (hu.heard (by rw [hs]; rfl) hsent)
    · obtain rfl := Option.some.inj hr
      refine ⟨hu.call call (by rw [hs]; rfl), ?_, .inl ⟨?_, ?_, hunheard⟩⟩
      · exact ⟨fun hsent => absurd hsent hunsent, fun hfin => absurd hfin hrest⟩
      · show (w.self.pending.set w.self.sequenceNumber w.futures.length).get?
          w.self.sequenceNumber = some w.futures.length
        rw [Dict.get?_set, if_pos rfl]
      · simp [World.register, World.requestFor]

theorem Inv.of_returned (h : Inv P tr w) {reply : Frame} {pending : Dict Nat FutureId}
    (hs : w.session = .replyDue request) (hf : w.futures[request.pending]? = some (.done reply)) :
    Inv P tr
      { w with self := { w.self with pending }, session := .replied request.code reply } := by
  have hi := h.calm (by rw [hs]; trivial)
  have hu := h.unharmed (by rw [hs]; trivial) (.inl hi)
  refine inv_going trivial hi (h.fresh (by rw [hs]; exact id)) ⟨hu.unbroken, hu.unexpired,
    fun other hsent => ?_, by rintro _ ⟨⟩, by rintro _ ⟨⟩⟩
  right
  rcases hu.past other hsent with hr | hheard
  · rw [hs] at hr
    cases hr
    rcases (hu.current _ (by rw [hs]; rfl)).reply with ⟨-, hp, -⟩ | ⟨-, hheard⟩
    · rw [hf] at hp
      cases hp
    · exact hheard
  · exact hheard

theorem final?_failed {e : PyException} (hs : w.session = .failed request e)
    (ht : e.type ≠ .timeoutError) : final? w = some (w.outcomeOf (.error e)) := by
  unfold final?
  rw [hs]
  exact congrArg (fun e => some (w.outcomeOf (.error e))) (requestFailure_of_ne ht)

/-- A turn of the task within a request. -/
theorem Inv.of_turn (h : Inv P tr w) (hc : Failures.calm w.session)
    (hr : w.session.request? = some request) (hr' : w'.session.request? = some request)
    (hg : going w'.session) (hcall : w'.session.call? = none) (hself : w'.self = w.self)
    (hfutures : w'.futures = w.futures) (hi : w'.interrupt = w.interrupt)
    (hfin : finished w'.session ↔ finished w.session) : Inv P tr w' := by
  have hi' := h.calm hc
  have hu := h.unharmed (going_of_calm hc) (.inl hi')
  refine inv_going hg (hi.trans hi') ?_
    (hu.of_request (.refl P tr) hr hr' hcall (by rw [hself]) hfutures hfin)
  rw [hfutures]
  exact h.fresh (not_over_of_going (going_of_calm hc))

/-- A turn of the task outside of a request. -/
theorem Inv.of_progress (h : Inv P tr w) (hc : Failures.calm w.session)
    (hr : w.session.request? = none) (hr' : w'.session.request? = none) (hg : going w'.session)
    (hcall : ∀ call, w'.session.call? = some call →
      call.unansweredError = unansweredFor call.code)
    (hfutures : w'.futures = w.futures) (hi : w'.interrupt = w.interrupt) : Inv P tr w' := by
  have hi' := h.calm hc
  have hu := h.unharmed (going_of_calm hc) (.inl hi')
  refine inv_going hg (hi.trans hi') ?_ (hu.of_none (.refl P tr) hr hr' hcall)
  rw [hfutures]
  exact h.fresh (not_over_of_going (going_of_calm hc))

theorem Inv.of_advanced {iv : InitializationVector} (h : Inv P tr w)
    (ha : World.Advanced P w iv w' os) :
    Inv P tr w' ∧ ∀ outcome, .ended outcome ∈ os → Settled P tr outcome ∧ w'.session = .idle := by
  cases ha with
  | requestFailed call e hs he =>
    obtain ⟨ht, hne⟩ := type_of_refused he
    exact ⟨h.of_refused (by rw [hs]; trivial) (by rw [hs]; rfl) id (h.calm (by rw [hs]; trivial))
      (by simp [World.register]) (final?_failed rfl ht) hne, by simp⟩
  | requestSending call key send hs hk hf =>
    exact ⟨h.of_requestSending hs (World.startSend_rest_ne hf), by simp⟩
  | sent request send hs hr =>
    have hrequest : w.session.request? = some request := by rw [hs]; rfl
    refine ⟨h.of_turn (by rw [hs]; trivial) hrequest rfl trivial rfl rfl rfl rfl ?_, by simp⟩
    rw [hs]
    exact ⟨fun _ => hr, fun _ => trivial⟩
  | wrote request send packet rest hs hr =>
    have hrequest : w.session.request? = some request := by rw [hs]; rfl
    refine ⟨h.of_turn (by rw [hs]; trivial) hrequest rfl trivial rfl rfl rfl rfl ?_, by simp⟩
    rw [hs]
    refine ⟨False.elim, fun hrest => ?_⟩
    cases hr.symm.trans hrest
  | returned request reply hs hf => exact ⟨h.of_returned hs hf, by simp⟩
  | replyCancelled request hs hf =>
    have hu := h.unharmed (by rw [hs]; trivial) (.inl (h.calm (by rw [hs]; trivial)))
    rcases (hu.current request (by rw [hs]; rfl)).reply with ⟨-, hp, -⟩ | ⟨hd, -⟩
    · rw [hf] at hp
      cases hp
    · unfold World.reply? at hd
      rw [hf] at hd
      cases hd
  | waiting request hs hf =>
    have hrequest : w.session.request? = some request := by rw [hs]; rfl
    refine ⟨h.of_turn (by rw [hs]; trivial) hrequest rfl trivial rfl rfl rfl rfl ?_, by simp⟩
    rw [hs]
    rfl
  | failed request e hs =>
    refine ⟨inv_final id (fun _ => h.fresh (by rw [hs]; exact id)) ?_ fun outcome ho => ?_,
      by simp⟩
    · refine h.interrupt.imp_right (Or.imp_right fun hd => ?_)
      rw [hs] at hd
      exact hd.2.elim
    · exact h.final outcome (by rw [← ho, final?, hs]; rfl)
  | refused code reply e hs hr =>
    refine ⟨h.of_refused (by rw [hs]; trivial) (by rw [hs]; rfl) id (h.calm (by rw [hs]; trivial))
      (Nat.le_refl _) rfl ?_, by simp⟩
    rcases hr with ⟨-, hp⟩ | ⟨-, hp⟩
    · rw [parseDeviceInfo_fails _ _ hp]
      decide
    · rcases type_of_verifyPairingResult hp with ht | ht <;> rw [ht] <;> decide
  | adopted reply info data hs hp hb =>
    refine ⟨h.of_progress (by rw [hs]; trivial) (by rw [hs]; rfl) rfl trivial (fun call hc => ?_)
      rfl rfl, by simp⟩
    cases hc
    rfl
  | adoptedOnly reply info e hs hp hb =>
    refine ⟨h.of_refused (by rw [hs]; trivial) (by rw [hs]; rfl) id (h.calm (by rw [hs]; trivial))
      (Nat.le_refl _) rfl ?_, by simp⟩
    rw [buildPairingRequest_fails _ _ hb]
    decide
  | paired reply hs hp =>
    refine ⟨h.of_progress (by rw [hs]; trivial) (by rw [hs]; rfl) rfl trivial (fun call hc => ?_)
      rfl rfl, by simp⟩
    cases hc
    rfl
  | acknowledged code reply hs hne hne' =>
    exact ⟨h.of_progress (by rw [hs]; trivial) (by rw [hs]; rfl) rfl trivial
      (by rintro _ ⟨⟩) rfl rfl, by simp⟩
  | drained collected hs =>
    exact ⟨h.of_progress (by rw [hs]; trivial) (by rw [hs]; rfl) rfl trivial
      (by rintro _ ⟨⟩) rfl rfl, by simp⟩
  | reset outcome link hs hc =>
    refine ⟨inv_final id (fun hover => absurd trivial hover) (.inl rfl) fun outcome' ho => ?_,
      by simp [World.cancelled]⟩
    cases ho
    exact h.final _ (by rw [final?, hs])
  | ended outcome hs hc =>
    refine ⟨inv_final id (fun hover => absurd trivial hover) (.inl rfl) (by rintro _ ⟨⟩),
      fun outcome' ho => ?_⟩
    obtain rfl : outcome' = w.outcomeOf outcome := by simpa [World.cancelled] using ho
    exact ⟨h.final _ (by rw [final?, hs]), rfl⟩

/-- A suspended task whose read is not over has an outcome only while it disconnects. -/
theorem final_of_suspended (h : Inv P tr w) (hr : w.session.running = false)
    (ho : final? w' = some outcome) (hs : w'.session = w.session) (e : Event) :
    Settled P (tr ++ [(w, e)]) outcome := by
  unfold final? at ho
  rw [hs] at ho
  cases hw : w.session with
  | failed request e => rw [hw] at hr; cases hr
  | leaving outcome => rw [hw] at hr; cases hr
  | disconnecting outcome =>
    rw [hw] at ho
    cases ho
    exact (h.final _ (by rw [final?, hw])).of_same
      ((aside_of_request (by rw [hw]; rfl) e).same tr)
  | _ => rw [hw] at ho; cases ho

/-- A step that concerns no request, while the task is suspended. -/
theorem Inv.of_aside (h : Inv P tr w) (hn : w.Numbered) (hr : w.session.running = false)
    (ha : Aside P w e) (hsession : w'.session = w.session) (hinterrupt : w'.interrupt = w.interrupt)
    (hpending : ∀ request, w.session.request? = some request →
      w'.self.pending.get? request.sequenceNumber = w.self.pending.get? request.sequenceNumber)
    (hfutures : w'.futures = w.futures) : Inv P (tr ++ [(w, e)]) w' := by
  have hsame := ha.same tr
  obtain ⟨-, hcalm, -⟩ := Failures.suspended_stage (w := w') (hsession ▸ hr)
  refine ⟨fresh_snoc h hn (hsession ▸ id) (Nat.le_of_eq (by rw [hfutures])),
    fun hc => absurd hc hcalm, ?_, fun hg hi => ?_, fun request hi hs => ?_, fun outcome ho => ?_⟩
  · rw [hinterrupt, hsession]
    exact h.interrupt.imp_right (Or.imp_left (And.imp_right hsame.called))
  · rw [hinterrupt, hsession] at hi
    exact (h.unharmed (hsession ▸ hg) hi).of_same hsame hsession hpending hfutures
  · exact (h.late request (hinterrupt ▸ hi) (hsession ▸ hs)).of_same hsame
  · exact final_of_suspended h hr ho hsession e

/-- The deadline of the wait expires. -/
theorem Inv.late_of_fire (h : Inv P tr w) (hs : w.session = .waiting request)
    (hi : w.interrupt ≠ some .caller)
    (hd : request.code = .senderDeviceInfo → w.reply? request = none) :
    Late P (tr ++ [(w, .fire .deadline)]) request := by
  have hexpires : Expires request w (.fire .deadline) := ⟨rfl, hs⟩
  have hsent : ∀ other, Sent other (tr ++ [(w, .fire .deadline)]) ↔ Sent other tr := fun other => by
    rw [sent_snoc, or_iff_left (not_writes rfl)]
  have hheard : ∀ other, Heard P other (tr ++ [(w, .fire .deadline)]) ↔ Heard P other tr :=
    fun other => by rw [heard_snoc, or_iff_left fun hh => not_hears rfl hh.1]
  have hbroken : Took Breaks (tr ++ [(w, .fire .deadline)]) ↔ Took Breaks tr := by
    rw [took_snoc, or_iff_left (not_breaks rfl)]
  rcases h.interrupt with hn | ⟨hc, -⟩ | ⟨hl, -⟩
  · have hu := h.unharmed (by rw [hs]; trivial) (.inl hn)
    have hcur := hu.current request (by rw [hs]; rfl)
    refine ⟨hcur.named, mt hbroken.1 hu.unbroken, took_snoc.2 (.inr hexpires),
      (hsent request).2 (hcur.sent.2 (by rw [hs]; trivial)), fun other ho => ?_, fun hc => ?_⟩
    · rw [hheard]
      refine (hu.past other ((hsent other).1 ho)).imp_left fun hr => ?_
      rw [hs] at hr
      exact (Option.some.inj hr).symm
    · rw [hheard]
      rcases hcur.reply with ⟨-, -, hunheard⟩ | ⟨hreply, -⟩
      · exact hunheard
      · rw [hd hc] at hreply
        cases hreply
  · exact absurd hc hi
  · have hlate := h.late request hl hs
    refine ⟨hlate.named, mt hbroken.1 hlate.unbroken, took_snoc.2 (.inr hexpires),
      (hsent request).2 hlate.sent, fun other ho => ?_, fun hc => ?_⟩
    · rw [hheard]
      exact hlate.past other ((hsent other).1 ho)
    · rw [hheard]
      exact hlate.silent hc

theorem outermost_eq {interrupt : Option Interrupt} {i : Interrupt}
    (hi : interrupt ≠ some .session) (hne : i ≠ .session) :
    Interrupt.outermost interrupt i = .caller ∧ (interrupt = some .caller ∨ i = .caller) ∨
      Interrupt.outermost interrupt i = .deadline ∧ i = .deadline ∧ interrupt ≠ some .caller := by
  rcases interrupt with _ | _ | _ | _ <;> cases i <;> simp_all [Interrupt.outermost]

theorem Inv.of_fire {i : Interrupt} (h : Inv P tr w) (hn : w.Numbered)
    (hr : w.session.running = false) (hup : LinkUp w (.fire i)) (hne : i ≠ .session)
    (hd : Discerned w (.fire i)) (hf : w.fire i = some (w', os)) :
    Inv P (tr ++ [(w, .fire i)]) w' ∧ os = [] := by
  obtain ⟨hreaches, rfl, futures, rfl, hfutures⟩ := World.fire_eq hf
  obtain ⟨-, hcalm, -⟩ := Failures.suspended_stage hr
  have hlength : w.futures.length ≤ futures.length := by
    rcases hfutures with rfl | ⟨request, -, -, rfl⟩ <;> simp
  refine ⟨⟨fresh_snoc h hn id hlength, fun hc => absurd hc hcalm, ?_, fun hg hi => ?_,
    fun request hi hs => ?_, fun outcome ho => final_of_suspended h hr ho rfl _⟩, rfl⟩
  all_goals
    rcases outermost_eq h.ne_session hne with ⟨hout, hcaller⟩ | ⟨hout, rfl, hcaller⟩
  · -- the caller's request stays, or is the step itself
    refine .inr (.inl ⟨congrArg some hout, ?_⟩)
    rcases hcaller with hcaller | rfl
    · rcases h.interrupt with hi | ⟨-, hcalled⟩ | ⟨hi, -⟩
      · rw [hcaller] at hi
        cases hi
      · exact Failures.Called.append hcalled _
      · rw [hcaller] at hi
        cases hi
    · exact Failures.called_snoc rfl
  · refine .inr (.inr ⟨congrArg some hout, ?_⟩)
    have hconnecting := hup.2 rfl
    cases hs : w.session with
    | connecting => exact absurd hs hconnecting
    | waiting request => trivial
    | collecting collected => trivial
    | disconnecting outcome => trivial
    | _ => rw [hs] at hreaches; cases hreaches
  · rcases hi with hi | ⟨collected, hi, -⟩
    · cases hi
    · rw [hout] at hi
      cases hi
  · rcases hi with hi | ⟨collected, -, hs⟩
    · cases hi
    · -- reports that stay away are no failure
      have hs : w.session = .collecting collected := hs
      have hnone : w.session.request? = none := by rw [hs]; rfl
      have hi : w.interrupt = none ∨ ∃ collected,
          w.interrupt = some .deadline ∧ w.session = .collecting collected := by
        rcases h.interrupt with hi | ⟨hi, -⟩ | ⟨hi, -⟩
        · exact .inl hi
        · exact absurd hi hcaller
        · exact .inr ⟨collected, hi, hs⟩
      refine (h.unharmed (by rw [hs]; trivial) hi).of_none ((aside_of_request hnone _).same tr)
        hnone hnone fun call hc => ?_
      rw [show w.session = _ from hs] at hc
      cases hc
  · rw [hout] at hi
    cases hi
  · have hs : w.session = .waiting request := hs
    exact h.late_of_fire hs hcaller fun hc => (hd request (by rw [hs]; rfl) hc).2 rfl

/-- A frame that quotes the number of the request is dispatched. -/
theorem Inv.of_heard (h : Inv P tr w) (hn : w.Numbered) (hr : w.session.running = false)
    (hrequest : w.session.request? = some request) {chunk : Bytes} {clock : Clock}
    (hears : Hears P request w (.notify chunk clock)) (hsession : w'.session = w.session)
    (hinterrupt : w'.interrupt = w.interrupt) (hlength : w'.futures.length = w.futures.length)
    (hreply : Unharmed P tr w → (w'.reply? request).isSome = true) :
    Inv P (tr ++ [(w, .notify chunk clock)]) w' := by
  have honly : ∀ other, Hears P other w (.notify chunk clock) → other = request := by
    rintro other ⟨_, _, _, -, ho, -⟩
    exact (Option.some.inj (hrequest.symm.trans ho)).symm
  have hsent : ∀ other, Sent other (tr ++ [(w, .notify chunk clock)]) ↔ Sent other tr :=
    fun other => by rw [sent_snoc, or_iff_left (not_writes rfl)]
  have hbroken : Took Breaks (tr ++ [(w, .notify chunk clock)]) ↔ Took Breaks tr := by
    rw [took_snoc, or_iff_left (not_breaks rfl)]
  have hexpired : ∀ other, Took (Expires other) (tr ++ [(w, .notify chunk clock)]) ↔
      Took (Expires other) tr := fun other => by
    have hne : ¬ Expires other w (.notify chunk clock) := not_expires nofun
    rw [took_snoc, or_iff_left hne]
  obtain ⟨-, hcalm, -⟩ := Failures.suspended_stage (w := w') (hsession ▸ hr)
  refine ⟨fresh_snoc h hn (hsession ▸ id) (Nat.le_of_eq hlength.symm),
    fun hc => absurd hc hcalm, ?_, fun hg hi => ?_, fun late hi hs => ?_,
    fun outcome ho => final_of_suspended h hr ho hsession _⟩
  · rw [hinterrupt, hsession]
    exact h.interrupt.imp_right (Or.imp_left (And.imp_right fun hc => Failures.Called.append hc _))
  · rw [hinterrupt, hsession] at hi
    have hu := h.unharmed (hsession ▸ hg) hi
    refine ⟨mt hbroken.1 hu.unbroken, fun other he => hu.unexpired other ((hexpired other).1 he),
      fun other ho => ?_, fun other ho => ?_, fun call hc => hu.call call (hsession ▸ hc)⟩
    · rw [hsession]
      exact (hu.past other ((hsent other).1 ho)).imp_right fun hh => heard_snoc.2 (.inl hh)
    · rw [hsession] at ho
      obtain rfl := Option.some.inj (hrequest.symm.trans ho)
      have hcur := hu.current request ho
      exact ⟨hcur.named, by rw [hsent, hsession]; exact hcur.sent,
        .inr ⟨hreply hu, heard_snoc.2 (.inr ⟨hears, hu.unexpired request⟩)⟩⟩
  · rw [hsession] at hs
    have hlate := h.late late (hinterrupt ▸ hi) hs
    have hheard : ∀ other, Heard P other (tr ++ [(w, .notify chunk clock)]) ↔ Heard P other tr :=
      fun other => by
        rw [heard_snoc, or_iff_left]
        rintro ⟨ho, hunexpired⟩
        -- the frame comes after the deadline of its request
        obtain rfl := honly other ho
        rw [hs] at hrequest
        cases hrequest
        exact hunexpired hlate.expired
    refine ⟨hlate.named, mt hbroken.1 hlate.unbroken, (hexpired late).2 hlate.expired,
      (hsent late).2 hlate.sent, fun other ho => ?_, fun hc => ?_⟩
    · rw [hheard]
      exact hlate.past other ((hsent other).1 ho)
    · rw [hheard]
      exact hlate.silent hc

/-- Only the request being made has an entry. -/
theorem of_awaited (hn : w.Numbered) {frame : Frame} {future : FutureId}
    (ha : w.awaited frame = some future) : ∃ request, w.session.request? = some request ∧
      frame.responseTo = request.sequenceNumber ∧ future = request.pending := by
  obtain ⟨hget, -⟩ := Option.filter_eq_some_iff.1 ha
  obtain ⟨request, hrequest, heq⟩ := hn.pending _ (Dict.mem_of_get? hget)
  obtain ⟨hto, hfuture⟩ := Prod.mk.inj heq
  exact ⟨request, hrequest, hto, hfuture⟩

theorem awaited_of_current {frame : Frame} (hr : frame.responseTo = request.sequenceNumber)
    (hget : w.self.pending.get? request.sequenceNumber = some request.pending)
    (hp : w.futures[request.pending]? = some .pending) :
    w.awaited frame = some request.pending := by
  unfold World.awaited
  rw [hr, hget]
  simp [hp]

/-- A frame no request waits for. -/
theorem Inv.of_unawaited (h : Inv P tr w) (hn : w.Numbered) (hr : w.session.running = false)
    {chunk : Bytes} {clock : Clock} {frame : Frame}
    (hreceive : (w.self.receive P chunk).2 = .ok (some frame)) (ha : w.awaited frame = none)
    (hsession : w'.session = w.session) (hinterrupt : w'.interrupt = w.interrupt)
    (hpending : w'.self.pending = w.self.pending.erase frame.responseTo)
    (hfutures : w'.futures = w.futures) : Inv P (tr ++ [(w, .notify chunk clock)]) w' := by
  by_cases hquotes : ∃ request, w.session.request? = some request ∧
      frame.responseTo = request.sequenceNumber
  · obtain ⟨request, hrequest, hto⟩ := hquotes
    refine h.of_heard hn hr hrequest ⟨chunk, clock, frame, rfl, hrequest, hreceive, hto⟩ hsession
      hinterrupt (by rw [hfutures]) fun hu => ?_
    unfold World.reply?
    rw [hfutures]
    rcases (hu.current request hrequest).reply with ⟨hget, hp, -⟩ | ⟨hdone, -⟩
    · rw [awaited_of_current hto hget hp] at ha
      cases ha
    · exact hdone
  · refine h.of_aside hn hr (aside_of_notify ?_) hsession hinterrupt (fun request hrequest => ?_)
      hfutures
    · rintro request ⟨_, _, frame', he, hrequest, hreceive', hto⟩
      cases he
      rw [hreceive] at hreceive'
      cases hreceive'
      exact hquotes ⟨request, hrequest, hto⟩
    · rw [hpending, Dict.get?_erase, if_neg fun hto => hquotes ⟨request, hrequest, hto⟩]

theorem Inv.of_notified {chunk : Bytes} {clock : Clock} (h : Inv P tr w) (hn : w.Numbered)
    (hr : w.session.running = false) (hw : World.Notified P w chunk clock w' os) :
    Inv P (tr ++ [(w, .notify chunk clock)]) w' ∧ ∀ outcome, .ended outcome ∉ os := by
  cases hw with
  | quiet hq =>
    refine ⟨h.of_aside hn hr (aside_of_notify ?_) rfl rfl (fun _ _ => rfl) rfl, by simp⟩
    rintro request ⟨_, _, frame, he, -, hreceive, -⟩
    cases he
    exact hq frame hreceive
  | completed frame future hreceive ha =>
    obtain ⟨request, hrequest, hto, rfl⟩ := of_awaited hn ha
    refine ⟨h.of_heard hn hr hrequest ⟨chunk, clock, frame, rfl, hrequest, hreceive, hto⟩ rfl rfl
      (List.length_set ..) fun _ => ?_, by simp⟩
    unfold World.reply?
    rw [List.getElem?_set_self (hn.request request hrequest).2.2]
    rfl
  | ignored frame hreceive ha hc =>
    exact ⟨h.of_unawaited hn hr hreceive ha rfl rfl rfl rfl, by simp⟩
  | handled frame dataPoints data hreceive ha hc =>
    exact ⟨h.of_unawaited hn hr hreceive ha rfl rfl rfl rfl, by simp [TuyaBleClient.handledObs]⟩

theorem Inv.of_replied (h : Inv P tr w) (hn : w.Numbered) (hr : w.session.running = false)
    (hw : World.Replied P w e w' os) : Inv P (tr ++ [(w, e)]) w' := by
  obtain ⟨background, rfl, -⟩ := hw.frame
  exact h.of_aside hn hr (aside_of_replied hw) rfl rfl (fun _ _ => rfl) rfl

/-- A step that ends nothing keeps what has ended. -/
theorem settled_snoc (h : ∀ outcome, .ended outcome ∈ os → Settled P tr outcome ∧ w.session = .idle)
    {os' : List Obs} (hos' : ∀ outcome, .ended outcome ∉ os')
    (hidle : w.session = .idle → w'.session = .idle) (e : Event) :
    ∀ outcome, .ended outcome ∈ os ++ os' →
      Settled P (tr ++ [(w, e)]) outcome ∧ w'.session = .idle := by
  intro outcome hm
  obtain ⟨hsettled, hs⟩ := h outcome ((List.mem_append.1 hm).resolve_right (hos' outcome))
  exact ⟨hsettled.of_same ((aside_of_request (by rw [hs]; rfl) e).same _), hidle hs⟩

theorem inv_keeps : Keeps P
    (fun _ w e => (LinkUp w e ∧ e ≠ .fire .session ∧ BleErrors e ∧ Discerned w e) ∧
      w.session.running = false)
    fun tr os w => Inv P tr w ∧ w.Numbered ∧
      ∀ outcome, .ended outcome ∈ os → Settled P tr outcome ∧ w.session = .idle where
  wakeUp := fun {_ _ _ _ _ _ _} ⟨h, hn, hended⟩ ⟨⟨hup, _, hb, hd⟩, _⟩ hw => by
    obtain ⟨hinv, hended'⟩ := h.of_woken hn hup hb hd hw
    refine ⟨hinv, hn.of_woken hw, fun outcome hm => ?_⟩
    rcases List.mem_append.1 hm with hm | hm
    · exact absurd (hended outcome hm).2 hw.ne_idle
    · exact hended' outcome hm
  advance := fun {_ _ _ _ _ _} ⟨h, hn, hended⟩ ha => by
    obtain ⟨hinv, hended'⟩ := h.of_advanced ha
    refine ⟨hinv, hn.of_advanced ha, fun outcome hm => ?_⟩
    rcases List.mem_append.1 hm with hm | hm
    · exact absurd (hended outcome hm).2 ha.ne_idle
    · exact hended' outcome hm
  fire := fun {_ _ _ _ _ _} ⟨h, hn, hended⟩ ⟨⟨hup, hne, _, hd⟩, hr⟩ hf => by
    obtain ⟨hinv, rfl⟩ := h.of_fire hn hr hup (fun hi => hne (by rw [hi])) hd hf
    refine ⟨hinv, hn.of_fire hf, settled_snoc hended (by simp) ?_ _⟩
    obtain ⟨-, -, futures, rfl, -⟩ := World.fire_eq hf
    exact id
  notify := fun {_ _ _ _ _ _ _} ⟨h, hn, hended⟩ ⟨_, hr⟩ hw => by
    obtain ⟨hinv, hos⟩ := h.of_notified hn hr hw
    exact ⟨hinv, hn.of_notified hw, settled_snoc hended hos (by cases hw <;> exact id) _⟩
  reply := fun {_ _ _ _ _ _} ⟨h, hn, hended⟩ ⟨_, hr⟩ hw => by
    refine ⟨h.of_replied hn hr hw, hn.of_replied hw,
      settled_snoc hended (fun outcome hm => hw.ofSend _ hm) ?_ _⟩
    obtain ⟨background, rfl, -⟩ := hw.frame
    exact id

end Classification

variable {P : Primitives} {address : String} {credentials : TuyaBleCredentials}

/-- **Silent handshakes are classified** in a read whose link comes up and that the deadline of
the session leaves alone, with writes that return or raise bleak's error or the timeout: the
handshake error is raised exactly when every fragment of the device information request was
written and no readable frame quoted its number in time, and a write that fails or a later
request left unanswered is a plain connection error, unless the caller cancelled the read. It
takes that no write of the device information request times out. -/
theorem silent_handshakes_classified {w0 w : World} {tr : List (World × Event)} {os : List Obs}
    (h0 : (machine P).Reachable (.new P address credentials) w0) (hidle : w0.session = .idle)
    (h : (machine P).Runs (WithinRead fun _ w e =>
      LinkUp w e ∧ e ≠ .fire .session ∧ BleErrors e ∧ Discerned w e) w0.reading tr os w)
    {outcome : Outcome} (hm : .ended outcome ∈ os) :
    Raises .cancelledError outcome ∧ Called tr ∨ Classified P tr outcome := by
  have hinterrupt : w0.interrupt = none := interrupt_of_reachable h0 hidle
  have hquiet : Classification.Unharmed P [] w0.reading :=
    { unbroken := took_nil
      unexpired := fun _ => took_nil
      past := fun _ hs => absurd hs took_nil
      current := by rintro _ ⟨⟩
      call := by rintro _ ⟨⟩ }
  have hstart : Classification.Inv P [] w0.reading :=
    Classification.inv_going trivial hinterrupt (by rintro _ _ _ ⟨⟩) hquiet
  have hnumbered : w0.reading.Numbered := (World.Numbered.of_reachable h0).of_reading hidle
  have hkeeps := Classification.inv_keeps.runs (Keeps.runs_suspended h rfl)
    ⟨hstart, hnumbered, by simp⟩
  exact (hkeeps.2.2 outcome hm).1

open FakeDevice in
/-- The device answers nothing. -/
theorem silent_handshakes_classified_session : ∃ tr os w outcome,
    (machine primitives).execWhere (WithinRead fun _ w e =>
      LinkUp w e ∧ e ≠ .fire .session ∧ BleErrors e ∧ Discerned w e) [] [] client.reading
      [connected, subscribed, written, written, .fire .deadline, woken, disconnected] =
        some (tr, os, w) ∧ .ended outcome ∈ os ∧
    Raises .tuyaBleHandshakeTimeoutError outcome ∧
    (Raises .cancelledError outcome ∧ Called tr ∨ Classified primitives tr outcome) := by
  let outcome : Outcome := raise .tuyaBleHandshakeTimeoutError
    "Failed to read AA:BB:CC:DD:EE:FF: SENDER_DEVICE_INFO was not answered" (some .timeoutError)
  have hx : ((machine primitives).execWhere (WithinRead fun _ w e =>
      LinkUp w e ∧ e ≠ .fire .session ∧ BleErrors e ∧ Discerned w e) [] [] client.reading
      [connected, subscribed, written, written, .fire .deadline, woken, disconnected]).map
        (fun r => outcomes r.2.1) = some [outcome] := by decide +kernel
  obtain ⟨⟨tr, os, w⟩, he, houtcomes⟩ := Option.map_eq_some_iff.1 hx
  have hended : .ended outcome ∈ os := mem_outcomes.1 (houtcomes ▸ List.mem_singleton_self _)
  exact ⟨tr, os, w, outcome, he, hended, rfl,
    silent_handshakes_classified (.refl _) rfl (Machine.runs_of_execWhere he) hended⟩

/-- The event says that a write has ended well. -/
def Event.isWritten : Event → Bool
  | .resume (.written (.ok ())) _ => true
  | _ => false

open FakeDevice in
/-- The first write of the device information request times out: nothing of the request was
sent, and the device is said to have ignored it. -/
theorem slow_write_passes_for_silence : ¬ ∀ tr os w outcome,
    (machine primitives).Runs (WithinRead fun _ w e =>
      LinkUp w e ∧ e ≠ .fire .session ∧ BleErrors e) client.reading tr os w →
    .ended outcome ∈ os →
    Raises .cancelledError outcome ∧ Called tr ∨ Classified primitives tr outcome := by
  intro h
  let timedOut : PyException := ⟨.timeoutError, "", none⟩
  let outcome : Outcome := raise .tuyaBleHandshakeTimeoutError
    "Failed to read AA:BB:CC:DD:EE:FF: SENDER_DEVICE_INFO was not answered" (some .timeoutError)
  have hx : ((machine primitives).execWhere (WithinRead fun _ w e =>
      LinkUp w e ∧ e ≠ .fire .session ∧ BleErrors e) [] [] client.reading [connected, subscribed,
        .resume (.written (.error timedOut)) initializationVector, disconnected]).map
        (fun r => (outcomes r.2.1, r.1.any fun p => p.2.isWritten)) = some ([outcome], false) := by
    decide +kernel
  obtain ⟨⟨tr, os, w⟩, he, hr⟩ := Option.map_eq_some_iff.1 hx
  obtain ⟨houtcomes, hunwritten⟩ := Prod.mk.inj hr
  have hended : .ended outcome ∈ os := mem_outcomes.1 (houtcomes ▸ List.mem_singleton_self _)
  rcases h tr os w outcome (Machine.runs_of_execWhere he) hended with ⟨hc, -⟩ | hc
  · cases hc
  · obtain ⟨request, -, ⟨t, e, hm, send, iv, rfl, -⟩, -⟩ := hc.silent.1 rfl
    exact absurd (List.any_eq_false.1 hunwritten _ hm) (not_not_intro rfl)

end TuyaBle
