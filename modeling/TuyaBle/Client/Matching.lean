import TuyaBle.Client.Numbering
import TuyaBle.Lib.History
import TuyaBle.FakeDevice

/-!
# Requests and their replies

Along one read every frame has a number of its own, every request is answered by a frame
that quotes it, and no entry outlives its request. The numbers start over at the teardown
while the notification handler is still registered, so the first of these needs that no
command of the device is read after it (`Quiescent`).
-/

namespace TuyaBle

/-- A notification completes a frame that is a command of the device. -/
def deviceCommands (P : Primitives) (w : World) : Event → Bool
  | .notify chunk clock =>
    match (w.self.receive P chunk).2 with
    | .ok (some frame) => (commandOf frame clock).isSome
    | _ => false
  | _ => false

/-- Once the teardown has reset the session state, no command of the device is read. -/
def Quiescent (P : Primitives) (os : List Obs) (w : World) (e : Event) : Prop :=
  .reset ∈ os → deviceCommands P w e = false

instance (P : Primitives) (os : List Obs) (w : World) (e : Event) :
    Decidable (Quiescent P os w e) := inferInstanceAs (Decidable (_ → _))

/-- The numbers of the frames built. -/
def builtNumbers (os : List Obs) : List Nat :=
  os.filterMap fun | .built frame => some frame.sequenceNumber | _ => none

/-- What an observation says about the ones before it. -/
def Matched (past : List Obs) : Obs → Prop
  | .built frame => ∀ other, .built other ∈ past → other.sequenceNumber ≠ frame.sequenceNumber
  | .completed number frame =>
    number ≠ 0 ∧ frame.responseTo = number ∧
      (∃ before, past = before ++ [.received frame] ∧ .registered number ∈ before) ∧
      ∀ other, .completed number other ∉ past
  | .returned _ number reply =>
    reply.responseTo = number ∧
      ∃ before after, past = before ++ .received reply :: after ∧ .registered number ∈ before
  | _ => True

/-- The request of that number has been left. -/
def Exited (number : Nat) (os : List Obs) : Prop :=
  (∃ code reply, .returned code number reply ∈ os) ∨ ∃ e, .raised number e ∈ os

namespace Matching

/-- The request of that number takes no reply any more. -/
def Closed (number : Nat) (os : List Obs) : Prop :=
  (∃ frame, .completed number frame ∈ os) ∨ Exited number os

structure Inv (os : List Obs) (w : World) : Prop where
  numbered : w.Numbered
  along : Along Matched [] os
  built : .reset ∉ os → ∀ frame, .built frame ∈ os → frame.sequenceNumber < w.self.sequenceNumber
  stage_over : .reset ∈ os → w.session.over
  registered : ∀ number, .registered number ∈ os →
    ∃ frame, .built frame ∈ os ∧ frame.sequenceNumber = number
  request : ∀ request, w.session.request? = some request →
    .registered request.sequenceNumber ∈ os ∧
      ∀ reply, w.futures[request.pending]? = some (.done reply) →
        reply.responseTo = request.sequenceNumber ∧
          ∃ before after, os = before ++ .received reply :: after ∧
            .registered request.sequenceNumber ∈ before
  closed : ∀ number, Closed number os → .registered number ∈ os ∧
    ∀ p ∈ w.self.pending, p.1 ≠ number

/-- Observations that say nothing about numbers. -/
def Plain : Obs → Prop
  | .built _ | .registered _ | .completed .. | .returned .. | .raised .. | .reset => False
  | _ => True

theorem mem_append_plain {os os' : List Obs} {o : Obs} (hp : ∀ o ∈ os', Plain o) (ho : ¬ Plain o) :
    o ∈ os ++ os' ↔ o ∈ os := by
  rw [List.mem_append]
  exact ⟨fun h => h.elim id fun h => absurd (hp o h) ho, .inl⟩

/-- Neither the teardown nor a frame built closes a request. -/
theorem closed_of_mem {os os' : List Obs} {number : Nat} (hc : Closed number os')
    (h : ∀ o ∈ os', ¬ Plain o → o ∈ os ∨ o = .reset ∨ ∃ frame, o = .built frame) :
    Closed number os := by
  rcases hc with ⟨frame, ho⟩ | ⟨code, reply, ho⟩ | ⟨e, ho⟩
  · exact .inl ⟨frame, (h _ ho id).resolve_right (by simp)⟩
  · exact .inr (.inl ⟨code, reply, (h _ ho id).resolve_right (by simp)⟩)
  · exact .inr (.inr ⟨e, (h _ ho id).resolve_right (by simp)⟩)

theorem matched_of_plain {past : List Obs} {o : Obs} (h : Plain o) : Matched past o := by
  cases o <;> first | exact trivial | exact h.elim

variable {P : Primitives} {os os' : List Obs} {w w' : World}

/-- Steps that say nothing about numbers, and keep the request or leave it. -/
theorem Inv.of_plain (h : Inv os w) (hn : w'.Numbered) (hp : ∀ o ∈ os', Plain o)
    (hseq : w'.self.sequenceNumber = w.self.sequenceNumber)
    (hover : w.session.over → w'.session.over)
    (hr : ∀ request, w'.session.request? = some request → w.session.request? = some request ∧
      ∀ reply, w'.futures[request.pending]? = some (.done reply) →
        w.futures[request.pending]? = some (.done reply))
    (hpend : ∀ p ∈ w'.self.pending, p ∈ w.self.pending) : Inv (os ++ os') w' where
  numbered := hn
  along := Along.append.2 ⟨h.along, .of_forall fun _ o ho => matched_of_plain (hp o ho)⟩
  built := by
    rw [mem_append_plain hp id, hseq]
    intro hreset frame
    rw [mem_append_plain hp id]
    exact h.built hreset frame
  stage_over := by
    rw [mem_append_plain hp id]
    exact fun hreset => hover (h.stage_over hreset)
  registered number := by
    rw [mem_append_plain hp id]
    intro hm
    obtain ⟨frame, hf, he⟩ := h.registered number hm
    exact ⟨frame, List.mem_append_left _ hf, he⟩
  request request hreq := by
    obtain ⟨hreq, hfut⟩ := hr request hreq
    obtain ⟨hm, hdone⟩ := h.request request hreq
    refine ⟨List.mem_append_left _ hm, fun reply hf => ?_⟩
    obtain ⟨hto, before, after, rfl, hb⟩ := hdone reply (hfut reply hf)
    exact ⟨hto, before, after ++ os', by simp, hb⟩
  closed number hc := by
    have hc : Closed number os :=
      closed_of_mem hc fun o ho hplain => .inl ((mem_append_plain hp hplain).1 ho)
    obtain ⟨hm, hne⟩ := h.closed number hc
    exact ⟨List.mem_append_left _ hm, fun p hm => hne p (hpend p hm)⟩

/-- A stage that keeps the request of the stage before. -/
theorem Inv.of_stage (h : Inv os w) (hn : w'.Numbered) (hp : ∀ o ∈ os', Plain o)
    (hself : w'.self = w.self) (hfut : w'.futures = w.futures)
    (hover : w.session.over → w'.session.over)
    (hr : w'.session.request? = w.session.request? ∨ w'.session.request? = none) :
    Inv (os ++ os') w' := by
  refine h.of_plain hn hp (by rw [hself]) hover (fun request hreq => ?_) (by simp [hself])
  rcases hr with hr | hr
  · exact ⟨hr ▸ hreq, by simp [hfut]⟩
  · rw [hr] at hreq
    cases hreq

/-- A new request takes a number no frame has. -/
theorem Inv.of_register (h : Inv os w) {call : Call} (hs : w.session = .requesting call)
    {s : Session} (hr : s.request? = some (w.requestFor call))
    (hn : ({ w.register with session := s }).Numbered) :
    Inv (os ++ [.registered w.self.sequenceNumber, .built (w.frameFor call)])
      { w.register with session := s } := by
  have hreset : .reset ∉ os := fun hm => by
    have := h.stage_over hm
    rw [hs] at this
    exact this
  have hnil : w.self.pending = [] := h.numbered.pending_nil (by rw [hs]; rfl)
  have hlt := h.built hreset
  refine ⟨hn, Along.append.2 ⟨h.along, trivial, ?_, trivial⟩, ?_, ?_, ?_, ?_, ?_⟩
  · intro other hm
    have hm : .built other ∈ os := by simpa using hm
    exact Nat.ne_of_lt (hlt other hm)
  · intro _ frame hm
    rcases List.mem_append.1 hm with hm | hm
    · exact Nat.lt_succ_of_lt (hlt frame hm)
    · obtain rfl : frame = w.frameFor call := by simpa using hm
      exact Nat.lt_succ_self _
  · intro hm
    exact absurd (by simpa using hm) hreset
  · intro number hm
    rcases List.mem_append.1 hm with hm | hm
    · obtain ⟨frame, hf, he⟩ := h.registered number hm
      exact ⟨frame, List.mem_append_left _ hf, he⟩
    · obtain rfl : number = w.self.sequenceNumber := by simpa using hm
      exact ⟨w.frameFor call, by simp, rfl⟩
  · intro request hreq
    obtain rfl := Option.some.inj (hr.symm.trans hreq)
    refine ⟨by simp [World.requestFor], fun reply hf => ?_⟩
    simp [World.requestFor, World.register] at hf
  · intro number hc
    have hc : Closed number os := by simpa [Closed, Exited] using hc
    obtain ⟨hm, -⟩ := h.closed number hc
    refine ⟨List.mem_append_left _ hm, fun p hp => ?_⟩
    obtain ⟨frame, hf, rfl⟩ := h.registered number hm
    have hp : p ∈ [(w.self.sequenceNumber, w.futures.length)] := by
      simpa [World.register, hnil] using hp
    rw [List.mem_singleton.1 hp]
    exact (Nat.ne_of_lt (hlt frame hf)).symm

/-- Leaving the request takes its entry away. -/
theorem Inv.of_exit (h : Inv os w) {request : Request} (hr : w.session.request? = some request)
    {s : Session} {o : Obs} (hs : s.request? = none) (hover : ¬ w.session.over)
    (ho : (∃ code reply, o = .returned code request.sequenceNumber reply) ∨
      ∃ e, o = .raised request.sequenceNumber e)
    (hm : Matched os o)
    (hn : ({ w with self := { w.self with pending := w.self.pending.erase request.sequenceNumber }
                    session := s }).Numbered) :
    Inv (os ++ [o])
      { w with self := { w.self with pending := w.self.pending.erase request.sequenceNumber }
               session := s } := by
  have hreset : .reset ∉ os := fun hm => hover (h.stage_over hm)
  have hold : ∀ {x : Obs}, x ∈ os ++ [o] → x ∈ os ∨ x = o := fun hx => by simpa using hx
  refine ⟨hn, Along.append.2 ⟨h.along, hm, trivial⟩, ?_, ?_, ?_, ?_, ?_⟩
  · intro _ frame hf
    refine h.built hreset frame ((hold hf).resolve_right ?_)
    rcases ho with ⟨_, _, rfl⟩ | ⟨_, rfl⟩ <;> exact Obs.noConfusion
  · intro hx
    refine absurd ((hold hx).resolve_right ?_) hreset
    rcases ho with ⟨_, _, rfl⟩ | ⟨_, rfl⟩ <;> exact Obs.noConfusion
  · intro number hx
    have hx : .registered number ∈ os := by
      apply (hold hx).resolve_right
      rcases ho with ⟨_, _, rfl⟩ | ⟨_, rfl⟩ <;> exact Obs.noConfusion
    obtain ⟨frame, hf, he⟩ := h.registered number hx
    exact ⟨frame, List.mem_append_left _ hf, he⟩
  · intro request' hreq
    rw [hs] at hreq
    cases hreq
  · intro number hc
    have hc : Closed number os ∨ number = request.sequenceNumber := by
      rcases ho with ⟨_, _, rfl⟩ | ⟨_, rfl⟩ <;>
        · simp only [Closed, Exited, List.mem_append, List.mem_singleton, reduceCtorEq, or_false,
            Obs.returned.injEq, Obs.raised.injEq] at hc ⊢
          grind
    have hnil := h.numbered.erase_pending hr
    refine ⟨List.mem_append_left _ ?_, by simp [hnil]⟩
    rcases hc with hc | rfl
    · exact (h.closed number hc).1
    · exact (h.request request hr).1

/-- The teardown leaves no request. -/
theorem Inv.of_reset (h : Inv os w) (hn : w'.Numbered) (hp : w'.self.pending = [])
    (hs : w'.session.request? = none) (hover : w'.session.over) {after : List Obs}
    (ha : ∀ o ∈ after, Plain o) :
    Inv (os ++ (World.cancelled w.self.background ++ .reset :: after)) w' := by
  have hc : ∀ o ∈ World.cancelled w.self.background, Plain o := by
    intro o ho
    obtain ⟨_, _, rfl⟩ := World.aborted_of_mem_cancelled ho
    trivial
  have hmem : ∀ {o : Obs}, o ∈ os ++ (World.cancelled w.self.background ++ .reset :: after) →
      ¬ Plain o → o = .reset ∨ o ∈ os := by
    intro o ho hpl
    rcases List.mem_append.1 ho with ho | ho
    · exact .inr ho
    · rcases List.mem_append.1 ho with ho | ho
      · exact absurd (hc o ho) hpl
      · exact (List.mem_cons.1 ho).imp_right fun ho => absurd (ha o ho) hpl
  refine ⟨hn, ?_, fun hr => absurd (by simp) hr, fun _ => hover, ?_, ?_, ?_⟩
  · refine Along.append.2 ⟨h.along, Along.append.2 ⟨.of_forall fun _ o ho => ?_, trivial, ?_⟩⟩
    · exact matched_of_plain (hc o ho)
    · exact .of_forall fun _ o ho => matched_of_plain (ha o ho)
  · intro number ho
    obtain ⟨frame, hf, he⟩ := h.registered number ((hmem ho id).resolve_left Obs.noConfusion)
    exact ⟨frame, List.mem_append_left _ hf, he⟩
  · intro request hr
    rw [hs] at hr
    cases hr
  · intro number ho
    have hc := closed_of_mem ho fun o ho hplain => (hmem ho hplain).symm.imp_right .inl
    exact ⟨List.mem_append_left _ (h.closed number hc).1, by simp [hp]⟩

theorem Inv.of_woken {r : Resumption} (h : Inv os w) (hw : World.Woken w r w' os') :
    Inv (os ++ os') w' := by
  have hn := h.numbered.of_woken hw
  cases hw with
  | connected link hi hs =>
    exact h.of_plain hn (by simp) rfl (by rw [hs]; exact id) nofun fun _ hp => hp
  | subscribed hi hs => exact h.of_stage hn (by simp) rfl rfl (by rw [hs]; exact id) (.inr rfl)
  | connectFailed e hi hs he =>
    refine h.of_stage hn (by simp) rfl rfl ?_ (.inr rfl)
    rcases hs with hs | hs <;> rw [hs] <;> exact id
  | connectTimedOut hi hs =>
    exact h.of_stage hn (by simp) rfl rfl (by rw [hs]; exact id) (.inr rfl)
  | connectCancelled i hi hs =>
    refine h.of_stage hn (by simp) rfl rfl ?_ (.inr rfl)
    rcases hs with ⟨hs, -⟩ | hs <;> rw [hs] <;> exact id
  | written request send hi hs hr =>
    exact h.of_stage hn (by simp) rfl rfl (by rw [hs]; exact id) (.inl (by rw [hs]; rfl))
  | writeFailed request send e hi hs hr he =>
    exact h.of_stage hn (by simp [Plain]) rfl rfl (by rw [hs]; exact id) (.inl (by rw [hs]; rfl))
  | writeCancelled i request send hi hs =>
    exact h.of_stage hn (by simp [Plain]) rfl rfl (by rw [hs]; exact id) (.inl (by rw [hs]; rfl))
  | replied request hi hs hf =>
    exact h.of_stage hn (by simp) rfl rfl (by rw [hs]; exact id) (.inl (by rw [hs]; rfl))
  | waitEnded i request hi hs =>
    exact h.of_stage hn (by simp) rfl rfl (by rw [hs]; exact id) (.inl (by rw [hs]; rfl))
  | reported collected hi hs hr =>
    exact h.of_stage hn (by simp) rfl rfl (by rw [hs]; exact id) (.inr rfl)
  | quiet collected hi hs => exact h.of_stage hn (by simp) rfl rfl (by rw [hs]; exact id) (.inr rfl)
  | collectCancelled i collected hi hd hs =>
    exact h.of_stage hn (by simp) rfl rfl (by rw [hs]; exact id) (.inr rfl)
  | disconnected outcome hi hs =>
    exact h.of_stage hn (by simp [Plain]) rfl rfl (fun _ => trivial) (.inr rfl)
  | disconnectCancelled i outcome hi hd hs =>
    exact h.of_stage hn (by simp [Plain]) rfl rfl (fun _ => trivial) (.inr rfl)

theorem Inv.of_advanced {iv : InitializationVector} (h : Inv os w)
    (ha : World.Advanced P w iv w' os') : Inv (os ++ os') w' := by
  have hn := h.numbered.of_advanced ha
  cases ha with
  | requestFailed call e hs hf => exact h.of_register hs rfl hn
  | requestSending call key send hs hk hf =>
    have hr := h.of_register hs (s := .sending (w.requestFor call) send) rfl hn
    have hos : ∀ o ∈ [Obs.sending .session send], Plain o := by simp [Plain]
    simpa using hr.of_stage hn hos rfl rfl id (.inl rfl)
  | sent request send hs hr =>
    exact h.of_stage hn (by simp [Plain]) rfl rfl (by rw [hs]; exact id) (.inl (by rw [hs]; rfl))
  | wrote request send packet rest hs hr =>
    exact h.of_stage hn (by simp [Plain]) rfl rfl (by rw [hs]; exact id) (.inl (by rw [hs]; rfl))
  | returned request reply hs hf =>
    have hreq : w.session.request? = some request := by rw [hs]; rfl
    refine h.of_exit hreq rfl (by rw [hs]; exact id) (.inl ⟨_, _, rfl⟩) ?_ hn
    exact (h.request request hreq).2 reply hf
  | replyCancelled request hs hf =>
    exact h.of_stage hn (by simp) rfl rfl (by rw [hs]; exact id) (.inl (by rw [hs]; rfl))
  | waiting request hs hf =>
    exact h.of_stage hn (by simp) rfl rfl (by rw [hs]; exact id) (.inl (by rw [hs]; rfl))
  | failed request e hs =>
    exact h.of_exit (by rw [hs]; rfl) rfl (by rw [hs]; exact id) (.inr ⟨_, rfl⟩) trivial hn
  | refused code reply e hs hr =>
    exact h.of_stage hn (by simp) rfl rfl (by rw [hs]; exact id) (.inr rfl)
  | adopted reply info data hs hp hb =>
    exact h.of_plain hn (by simp [Plain]) rfl (by rw [hs]; exact id) nofun fun _ hp => hp
  | adoptedOnly reply info e hs hp hb =>
    exact h.of_plain hn (by simp [Plain]) rfl (by rw [hs]; exact id) nofun fun _ hp => hp
  | paired reply hs hv => exact h.of_stage hn (by simp) rfl rfl (by rw [hs]; exact id) (.inr rfl)
  | acknowledged code reply hs hi hp =>
    exact h.of_stage hn (by simp) rfl rfl (by rw [hs]; exact id) (.inr rfl)
  | drained collected hs =>
    exact h.of_plain hn (by simp) rfl (by rw [hs]; exact id) nofun fun _ hp => hp
  | reset outcome link hs hc => exact h.of_reset hn rfl rfl trivial (by simp)
  | ended outcome hs hc => exact h.of_reset hn rfl rfl trivial (by simp [Plain])

theorem Inv.of_fire {i : Interrupt} (h : Inv os w) (hf : w.fire i = some (w', os')) :
    Inv (os ++ os') w' := by
  have hn := h.numbered.of_fire hf
  obtain ⟨-, rfl, futures, rfl, hfut⟩ := World.fire_eq hf
  refine h.of_plain hn (by simp) rfl id (fun request hreq => ⟨hreq, fun reply hr => ?_⟩)
    fun _ hp => hp
  rcases hfut with rfl | ⟨request', -, -, rfl⟩
  · exact hr
  · by_cases he : request'.pending = request.pending
    · rw [he, List.getElem?_set] at hr
      grind
    · rwa [List.getElem?_set_ne he] at hr

/-- **A frame completes the request it quotes**, and no other. -/
theorem Inv.of_completed (h : Inv os w) {frame : Frame} {future : FutureId} {chunk : Bytes}
    (ha : w.awaited frame = some future)
    (hn : ({ (w.fed chunk).popped frame.responseTo with
      futures := w.futures.set future (.done frame) } : World).Numbered) :
    Inv (os ++ [.received frame, .completed frame.responseTo frame])
      { (w.fed chunk).popped frame.responseTo with
        futures := w.futures.set future (.done frame) } := by
  obtain ⟨hp, -⟩ := Option.filter_eq_some_iff.1 ha
  have hmem := Dict.mem_of_get? hp
  obtain ⟨request, hreq, he⟩ := h.numbered.pending _ hmem
  obtain ⟨hto, rfl⟩ : frame.responseTo = request.sequenceNumber ∧ future = request.pending := by
    simpa using he
  obtain ⟨hreg, -⟩ := h.request request hreq
  obtain ⟨hpos, -, hlt⟩ := h.numbered.request request hreq
  have hnot : ∀ other, .completed frame.responseTo other ∉ os := fun other hm =>
    (h.closed _ (.inl ⟨other, hm⟩)).2 _ hmem rfl
  refine ⟨hn, Along.append.2 ⟨h.along, trivial, ?_, trivial⟩, ?_, ?_, ?_, ?_, ?_⟩
  · refine ⟨by omega, rfl, ⟨os, rfl, hto ▸ hreg⟩, fun other hm => hnot other ?_⟩
    simpa using hm
  · intro hr other hm
    exact h.built (by simpa using hr) other (by simpa using hm)
  · intro hr
    exact h.stage_over (by simpa using hr)
  · intro number hm
    obtain ⟨other, hf, he⟩ := h.registered number (by simpa using hm)
    exact ⟨other, List.mem_append_left _ hf, he⟩
  · intro request' hreq'
    obtain rfl := Option.some.inj (hreq.symm.trans hreq')
    refine ⟨List.mem_append_left _ hreg, fun reply hf => ?_⟩
    obtain rfl : frame = reply := by simpa [List.getElem?_set_self hlt] using hf
    exact ⟨hto, os, _, rfl, hreg⟩
  · intro number hc
    have hc : Closed number os ∨ number = frame.responseTo := by
      simp only [Closed, Exited, List.mem_append, List.mem_cons, List.not_mem_nil, reduceCtorEq,
        or_false, false_or, Obs.completed.injEq] at hc ⊢
      grind
    rcases hc with hc | rfl
    · obtain ⟨hm, hne⟩ := h.closed number hc
      exact ⟨List.mem_append_left _ hm, fun p hm => hne p (Dict.mem_of_mem_erase hm)⟩
    · exact ⟨List.mem_append_left _ (hto ▸ hreg), Dict.not_mem_erase⟩

/-- A device command takes a number no frame has, unless it comes after the teardown. -/
theorem Inv.of_handled (h : Inv os w) (hreset : .reset ∉ os) {chunk : Bytes} {frame : Frame}
    {dataPoints : List DataPoint} {data : Bytes} :
    Inv (os ++ .received frame :: w.self.handledObs frame dataPoints data)
      { (w.fed chunk).popped frame.responseTo with
        self := ((w.fed chunk).popped frame.responseTo).self.handled frame dataPoints data } := by
  have hq : ∀ o ∈ (queued dataPoints).map Obs.published, Plain o := by
    intro o ho
    obtain ⟨_, -, rfl⟩ := List.mem_map.1 ho
    trivial
  have hmem : ∀ {o : Obs}, o ∈ os ++ .received frame :: w.self.handledObs frame dataPoints data →
      ¬ Plain o → o = .built (w.self.responseTo frame data) ∨ o ∈ os := by
    intro o ho hp
    rcases List.mem_append.1 ho with ho | ho
    · exact .inr ho
    · rcases List.mem_cons.1 ho with rfl | ho
      · exact absurd trivial hp
      · rcases List.mem_append.1 ho with ho | ho
        · exact absurd (hq o ho) hp
        · rcases List.mem_cons.1 ho with ho | ho
          · exact .inl ho
          · rw [List.mem_singleton.1 ho] at hp
            exact absurd trivial hp
  have hlt := h.built hreset
  refine ⟨h.numbered.of_handled chunk frame dataPoints data,
    Along.append.2 ⟨h.along, trivial, Along.append.2 ⟨?_, ?_, trivial, trivial⟩⟩,
    ?_, ?_, ?_, ?_, ?_⟩
  · exact .of_forall fun _ o ho => matched_of_plain (hq o ho)
  · intro other hm
    have hm : .built other ∈ os := by
      rcases List.mem_append.1 hm with hm | hm
      · simpa using hm
      · exact absurd (hq _ hm) id
    exact Nat.ne_of_lt (hlt other hm)
  · intro _ other hm
    rcases hmem hm id with hm | hm
    · rw [Obs.built.inj hm]
      exact Nat.lt_succ_self _
    · exact Nat.lt_succ_of_lt (hlt other hm)
  · intro hm
    exact absurd ((hmem hm id).resolve_left Obs.noConfusion) hreset
  · intro number hm
    obtain ⟨other, hf, he⟩ := h.registered number ((hmem hm id).resolve_left Obs.noConfusion)
    exact ⟨other, List.mem_append_left _ hf, he⟩
  · intro request hreq
    obtain ⟨hreg, hdone⟩ := h.request request hreq
    refine ⟨List.mem_append_left _ hreg, fun reply hf => ?_⟩
    obtain ⟨hto, before, after, rfl, hb⟩ := hdone reply hf
    exact ⟨hto, before, _, List.append_assoc .., hb⟩
  · intro number hc
    have hc : Closed number os :=
      closed_of_mem hc fun o ho hplain => (hmem ho hplain).symm.imp_right fun he => .inr ⟨_, he⟩
    obtain ⟨hm, hne⟩ := h.closed number hc
    exact ⟨List.mem_append_left _ hm, fun p hm => hne p (Dict.mem_of_mem_erase hm)⟩

theorem Inv.of_notified {chunk : Bytes} {clock : Clock} (h : Inv os w)
    (hc : Quiescent P os w (.notify chunk clock)) (hw : World.Notified P w chunk clock w' os') :
    Inv (os ++ os') w' := by
  have hn := h.numbered.of_notified hw
  cases hw with
  | quiet hr => exact h.of_plain hn (by simp) rfl id (fun _ hr => ⟨hr, fun _ h => h⟩) fun _ hp => hp
  | completed frame future hr ha => exact h.of_completed ha hn
  | ignored frame hr ha hcmd =>
    exact h.of_plain hn (by simp [Plain]) rfl id (fun _ hr => ⟨hr, fun _ h => h⟩)
      fun _ hp => Dict.mem_of_mem_erase hp
  | handled frame dataPoints data hr ha hcmd =>
    refine h.of_handled fun hm => ?_
    have := hc hm
    simp [deviceCommands, hr, hcmd] at this

theorem Inv.of_replied {e : Event} (h : Inv os w) (hr : World.Replied P w e w' os') :
    Inv (os ++ os') w' := by
  have hn := h.numbered.of_replied hr
  have hp : ∀ o ∈ os', Plain o := fun o ho => by
    have := hr.ofSend o ho
    cases o <;> trivial
  obtain ⟨background, rfl, -⟩ := hr.frame
  exact h.of_plain hn hp rfl id (fun _ hr => ⟨hr, fun _ h => h⟩) fun _ hp => hp

theorem keeps : Keeps P (Quiescent P) fun _ os w => Inv os w where
  wakeUp h _ hw := h.of_woken hw
  advance h ha := h.of_advanced ha
  fire h _ hf := h.of_fire hf
  notify h hc hn := h.of_notified hc hn
  reply h _ hr := h.of_replied hr

theorem mem_builtNumbers {number : Nat} :
    number ∈ builtNumbers os ↔ ∃ frame, .built frame ∈ os ∧ frame.sequenceNumber = number := by
  simp only [builtNumbers, List.mem_filterMap]
  constructor
  · rintro ⟨o, ho, h⟩
    split at h
    · exact ⟨_, ho, Option.some.inj h⟩
    · cases h
  · rintro ⟨frame, hf, rfl⟩
    exact ⟨_, hf, rfl⟩

theorem nodup_builtNumbers {past : List Obs} (hp : (builtNumbers past).Nodup)
    (h : Along Matched past os) : (builtNumbers (past ++ os)).Nodup := by
  induction os generalizing past with
  | nil => simpa using hp
  | cons o os ih =>
    rw [List.append_cons]
    refine ih ?_ h.2
    rw [builtNumbers, List.filterMap_append]
    refine List.nodup_append.2 ⟨hp, ?_, fun a ha b hb => ?_⟩
    · cases o <;> simp
    · cases o with
      | built frame =>
        obtain ⟨other, hm, rfl⟩ := mem_builtNumbers.1 ha
        obtain rfl : b = frame.sequenceNumber := List.mem_singleton.1 hb
        exact h.1 other hm
      | _ => simp at hb

end Matching

variable {P : Primitives} {address : String} {credentials : TuyaBleCredentials}

/-- **Requests and replies match** in every read of a client, over all that is delivered
and in any order, as long as no command of the device comes after the teardown. -/
theorem requests_match_replies {w0 w : World} {tr : List (World × Event)} {os : List Obs}
    (h0 : (machine P).Reachable (.new P address credentials) w0) (hidle : w0.session = .idle)
    (h : (machine P).Runs (WithinRead (Quiescent P)) w0.reading tr os w) :
    (builtNumbers os).Nodup ∧ (∀ past o rest, os = past ++ o :: rest → Matched past o) ∧
      ∀ number, Exited number os → w.self.pending.get? number = none := by
  have hn := (World.Numbered.of_reachable h0).of_reading hidle
  have hi : Matching.Inv os w := Matching.keeps.runs h
    ⟨hn, trivial, by simp, by simp, by simp, nofun, by simp [Matching.Closed, Exited]⟩
  refine ⟨?_, fun past o rest he => hi.along.at he, fun number he => ?_⟩
  · simpa using Matching.nodup_builtNumbers (show (builtNumbers []).Nodup from .nil) hi.along
  · exact Dict.get?_eq_none (hi.closed number (.inr he)).2

open FakeDevice in
theorem requests_match_replies_session : ∃ tr os w,
    (machine primitives).execWhere (WithinRead (Quiescent primitives)) [] [] client.reading
      session = some (tr, os, w) ∧
    (builtNumbers os).Nodup ∧ (∀ past o rest, os = past ++ o :: rest → Matched past o) ∧
      ∀ number, Exited number os → w.self.pending.get? number = none := by
  obtain ⟨⟨tr, os, w⟩, he⟩ := Option.isSome_iff_exists.1
    (show ((machine primitives).execWhere (WithinRead (Quiescent primitives)) [] [] client.reading
      session).isSome = true by decide +kernel)
  exact ⟨tr, os, w, he, requests_match_replies (.refl _) rfl (Machine.runs_of_execWhere he)⟩

/-- A cancelled read, and a report under the login key while its link is being closed. -/
def lateReport : List Event :=
  [FakeDevice.connected, FakeDevice.subscribed, .fire .caller, FakeDevice.woken,
   FakeDevice.send ⟨104, 0, 0x8001, FakeDevice.report⟩ true]

open FakeDevice in
/-- The reply to it has the number of the request. -/
theorem late_reply_reuses_number : ¬ ∀ tr os w,
    (machine primitives).Runs (WithinRead Machine.Free) client.reading tr os w →
    (builtNumbers os).Nodup ∧ (∀ past o rest, os = past ++ o :: rest → Matched past o) ∧
      ∀ number, Exited number os → w.self.pending.get? number = none := by
  intro h
  have hn : ((machine primitives).execWhere (WithinRead Machine.Free) [] [] client.reading
      lateReport).map (fun r => builtNumbers r.2.1) = some [1, 1] := by decide +kernel
  obtain ⟨⟨tr, os, w⟩, he, hb⟩ := Option.map_eq_some_iff.1 hn
  have := (h tr os w (Machine.runs_of_execWhere he)).1
  rw [hb] at this
  exact absurd this (by decide)

end TuyaBle
