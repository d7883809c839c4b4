import TuyaBle.Protocol.Fragmentation
import TuyaBle.Client.Keying
import TuyaBle.Client.Numbering
import TuyaBle.FakeDevice

/-!
# Packets on the characteristic

Every `_async_send` awaits its own writes, and nothing keeps two of them apart. What has
been written is a sequence of groups, each a beginning of the packets of one send, as long
as a send goes on only where it wrote last (`Unmixed`). The device then reads the payload of
every send whose last packet was written, and no other.
-/

namespace TuyaBle

/-! ## What has been written -/

/-- The packets, in the order the writes were issued. -/
def written (os : List Obs) : List Bytes :=
  os.filterMap fun | .wrote _ _ packet => some packet | _ => none

/-- Who issued the last write. -/
def lastWriter (os : List Obs) : Option Sender :=
  (os.filterMap fun | .wrote sender _ _ => some sender | _ => none).getLast?

/-- The payload of a send that has no packet left to write. -/
def Send.last? (send : Send) : Option Bytes := if send.rest = [] then some send.payload else none

/-- The payloads whose last packet has been written. -/
def finishedPayloads (os : List Obs) : List Bytes :=
  os.filterMap fun | .wrote _ send _ => send.last? | _ => none

/-- The payloads of the sends that have completed. -/
def sentPayloads (os : List Obs) : List Bytes :=
  os.filterMap fun | .sent _ send => some send.payload | _ => none

/-- The payloads of the sends that were left in their last write. -/
def abandonedPayloads (os : List Obs) : List Bytes :=
  os.filterMap fun | .aborted _ send => send.last? | _ => none

/-- The sends under way. -/
def World.sends (w : World) : List Send :=
  w.session.send?.toList ++ w.self.background.filterMap ReplyTask.send

/-- The payloads of those in their last write. -/
def World.outstanding (w : World) : List Bytes := w.sends.filterMap Send.last?

/-! ## The account of the sends -/

/-- The payload of a send is its frame under its key. -/
def Ciphertext (P : Primitives) (send : Send) : Prop :=
  ∃ iv, send.frame.encode P send.key send.securityFlag iv = .ok send.payload

/-- The send a step goes on with. -/
def World.continued (w : World) : Event → Option (Sender × Send)
  | .resume (.written (.ok ())) _ => w.session.send?.map fun send => (.session, send)
  | .replyWritten number (.ok ()) =>
    (w.task? number).bind fun task => task.send.map fun send => (.reply number, send)
  | _ => none

/-- A send writes another packet only where it wrote last. -/
def Unmixed (os : List Obs) (w : World) (e : Event) : Prop :=
  match w.continued e with
  | none => True
  | some (sender, send) => send.rest = [] ∨ lastWriter os = some sender

instance (os : List Obs) (w : World) (e : Event) : Decidable (Unmixed os w e) := by
  unfold Unmixed
  split <;> infer_instance

namespace Writes

variable {P : Primitives} {os os' : List Obs} {w w' : World} {send : Send}

@[simp] theorem finishedPayloads_append :
    finishedPayloads (os ++ os') = finishedPayloads os ++ finishedPayloads os' :=
  List.filterMap_append ..

@[simp] theorem sentPayloads_append :
    sentPayloads (os ++ os') = sentPayloads os ++ sentPayloads os' := List.filterMap_append ..

@[simp] theorem abandonedPayloads_append :
    abandonedPayloads (os ++ os') = abandonedPayloads os ++ abandonedPayloads os' :=
  List.filterMap_append ..

@[simp] theorem written_append : written (os ++ os') = written os ++ written os' :=
  List.filterMap_append ..

theorem outstanding_eq (w : World) : w.outstanding =
    w.session.send?.toList.filterMap Send.last? ++
      (w.self.background.filterMap ReplyTask.send).filterMap Send.last? := by
  rw [World.outstanding, World.sends, List.filterMap_append]

/-- A step moves payloads between the columns and loses none. -/
def Balanced (w : World) (os' : List Obs) (w' : World) : Prop :=
  (finishedPayloads os' ++ w.outstanding).Perm
    (sentPayloads os' ++ abandonedPayloads os' ++ w'.outstanding)

/-- What a new send starts with. -/
structure Fresh (send : Send) : Prop where
  rest_ne : send.rest ≠ []
  carries : Receiver.Carries PacketReassembler.feed .new send.rest send.payload

theorem fresh_of_startSend {self : TuyaBleClient} {frame : Frame} {key : AesKey} {flag : Nat}
    {iv : InitializationVector} (h : self.startSend P frame key flag iv = some (.ok send)) :
    Fresh send ∧ Ciphertext P send := by
  obtain ⟨client, payload, packets, -, he, hp, rfl⟩ := World.startSend_eq_ok h
  obtain ⟨-, hmin, hmax⟩ := Frame.length_encode he
  obtain ⟨hne, hc⟩ := carries_of_buildPackets
    (by simp only [minimumPayloadLength, initializationVectorEnd, blockSize] at hmin; omega)
    (by omega) hp
  exact ⟨⟨hne, hc⟩, iv, he⟩

structure Account (P : Primitives) (os : List Obs) (w : World) : Prop where
  numbered : w.Numbered
  balance : (finishedPayloads os).Perm
    (sentPayloads os ++ abandonedPayloads os ++ w.outstanding)
  ciphertext : ∀ send ∈ w.sends, Ciphertext P send
  sent : ∀ sender send, .sent sender send ∈ os → Ciphertext P send

theorem Account.of_step (h : Account P os w) (hn : w'.Numbered) (hb : Balanced w os' w')
    (hc : ∀ send ∈ w'.sends, Ciphertext P send)
    (hs : ∀ sender send, .sent sender send ∈ os' → Ciphertext P send) :
    Account P (os ++ os') w' where
  numbered := hn
  balance := by
    refine List.perm_iff_count.2 fun b => ?_
    have h1 := List.perm_iff_count.1 h.balance b
    have h2 := List.perm_iff_count.1 hb b
    simp only [finishedPayloads_append, sentPayloads_append, abandonedPayloads_append,
      List.count_append] at h1 h2 ⊢
    omega
  ciphertext := hc
  sent sender send hm := (List.mem_append.1 hm).elim (h.sent sender send) (hs sender send)

/-- Steps of the session task that leave the other tasks alone. -/
theorem Account.of_session (h : Account P os w) (hn : w'.Numbered)
    (hb : w'.self.background = w.self.background)
    (hbal : finishedPayloads os' ++ w.session.send?.toList.filterMap Send.last? =
      sentPayloads os' ++ abandonedPayloads os' ++ w'.session.send?.toList.filterMap Send.last?)
    (hc : ∀ send, w'.session.send? = some send → Ciphertext P send)
    (hs : ∀ sender send, .sent sender send ∈ os' → w.session.send? = some send) :
    Account P (os ++ os') w' := by
  refine h.of_step hn ?_ ?_ fun sender send hm => ?_
  · rw [Balanced, outstanding_eq, outstanding_eq, hb, ← List.append_assoc, hbal]
    simp only [List.append_assoc]
    exact .refl _
  · intro send hm
    rw [World.sends, hb] at hm
    rcases List.mem_append.1 hm with hm | hm
    · exact hc send (by simpa using hm)
    · exact h.ciphertext send (List.mem_append_right _ hm)
  · exact h.ciphertext send (List.mem_append_left _ (by rw [hs sender send hm]; simp))

theorem Account.of_woken {r : Resumption} (h : Account P os w) (hw : World.Woken w r w' os') :
    Account P (os ++ os') w' := by
  have hn := h.numbered.of_woken hw
  have hsend : ∀ {send}, w.session.send? = some send → Ciphertext P send := fun hs =>
    h.ciphertext _ (List.mem_append_left _ (by rw [hs]; simp))
  cases hw with
  | connected link hi hs =>
    exact h.of_session hn rfl (by rw [hs]; rfl) (fun _ hc => nomatch hc) (by simp)
  | subscribed hi hs =>
    exact h.of_session hn rfl (by rw [hs]; rfl) (fun _ hc => nomatch hc) (by simp)
  | connectFailed e hi hs he =>
    refine h.of_session hn rfl ?_ (fun _ hc => nomatch hc) (by simp)
    rcases hs with hs | hs <;> rw [hs] <;> rfl
  | connectTimedOut hi hs =>
    exact h.of_session hn rfl (by rw [hs]; rfl) (fun _ hc => nomatch hc) (by simp)
  | connectCancelled i hi hs =>
    refine h.of_session hn rfl ?_ (fun _ hc => nomatch hc) (by simp)
    rcases hs with ⟨hs, -⟩ | hs <;> rw [hs] <;> rfl
  | written request send hi hs hr =>
    have hsame : w.session.send? = some send := by rw [hs]; rfl
    exact h.of_session hn rfl (by rw [hs]; rfl) (fun _ hc => hsend (hsame.trans hc)) (by simp)
  | writeFailed request send e hi hs hr he =>
    refine h.of_session hn rfl ?_ (fun _ hc => nomatch hc) (by simp)
    rw [hs]
    exact (List.append_nil _).symm
  | writeCancelled i request send hi hs =>
    refine h.of_session hn rfl ?_ (fun _ hc => nomatch hc) (by simp)
    rw [hs]
    exact (List.append_nil _).symm
  | replied request hi hs hf =>
    exact h.of_session hn rfl (by rw [hs]; rfl) (fun _ hc => nomatch hc) (by simp)
  | waitEnded i request hi hs =>
    exact h.of_session hn rfl (by rw [hs]; rfl) (fun _ hc => nomatch hc) (by simp)
  | reported collected hi hs hr =>
    exact h.of_session hn rfl (by rw [hs]; rfl) (fun _ hc => nomatch hc) (by simp)
  | quiet collected hi hs =>
    exact h.of_session hn rfl (by rw [hs]; rfl) (fun _ hc => nomatch hc) (by simp)
  | collectCancelled i collected hi hd hs =>
    exact h.of_session hn rfl (by rw [hs]; rfl) (fun _ hc => nomatch hc) (by simp)
  | disconnected outcome hi hs =>
    exact h.of_session hn rfl (by rw [hs]; rfl) (fun _ hc => nomatch hc) (by simp)
  | disconnectCancelled i outcome hi hd hs =>
    exact h.of_session hn rfl (by rw [hs]; rfl) (fun _ hc => nomatch hc) (by simp)

theorem abandonedPayloads_cancelled (background : List ReplyTask) :
    abandonedPayloads (World.cancelled background) =
      (background.filterMap ReplyTask.send).filterMap Send.last? := by
  induction background with
  | nil => rfl
  | cons task background ih =>
    obtain ⟨frame, send⟩ := task
    cases send with
    | none => simpa [World.cancelled] using ih
    | some send =>
      rw [World.cancelled, List.filterMap_cons] at *
      simp only [Option.map_some, abandonedPayloads, List.filterMap_cons] at ih ⊢
      rw [ih]

theorem filterMap_cancelled (background : List ReplyTask) {f : Obs → Option Bytes}
    (hf : ∀ sender send, f (.aborted sender send) = none) :
    (World.cancelled background).filterMap f = [] := by
  refine List.filterMap_eq_nil_iff.2 fun o ho => ?_
  obtain ⟨_, _, rfl⟩ := World.aborted_of_mem_cancelled ho
  exact hf _ _

theorem sent_not_mem_cancelled (background : List ReplyTask) (sender : Sender) (send : Send) :
    .sent sender send ∉ World.cancelled background := by
  simp [World.cancelled]

/-- The teardown abandons what the other tasks have under way. -/
theorem Account.of_reset (h : Account P os w) {outcome : Outcome}
    (hs : w.session = .leaving outcome)
    (hn : w'.Numbered) (hsends : w'.sends = []) {after : List Obs}
    (ha : ∀ o ∈ after, ∃ outcome, o = .ended outcome) :
    Account P (os ++ (World.cancelled w.self.background ++ .reset :: after)) w' := by
  have hnone : ∀ f : Obs → Option Bytes, f .reset = none → (∀ outcome, f (.ended outcome) = none) →
      (Obs.reset :: after).filterMap f = [] := fun f hreset hended =>
    List.filterMap_eq_nil_iff.2 fun o ho => by
      rcases List.mem_cons.1 ho with rfl | ho
      · exact hreset
      · obtain ⟨_, rfl⟩ := ha o ho
        exact hended _
  refine h.of_step hn ?_ (by simp [hsends]) fun sender send hm => ?_
  · have ho : w.outstanding = abandonedPayloads (World.cancelled w.self.background) := by
      rw [outstanding_eq, hs, abandonedPayloads_cancelled]
      rfl
    have hf : finishedPayloads (World.cancelled w.self.background) = [] :=
      filterMap_cancelled _ fun _ _ => rfl
    have hse : sentPayloads (World.cancelled w.self.background) = [] :=
      filterMap_cancelled _ fun _ _ => rfl
    rw [Balanced, ho, World.outstanding, hsends, finishedPayloads_append, sentPayloads_append,
      abandonedPayloads_append, hf, hse, finishedPayloads, hnone _ rfl fun _ => rfl, sentPayloads,
      hnone _ rfl fun _ => rfl, abandonedPayloads.eq_def (.reset :: after),
      hnone _ rfl fun _ => rfl]
    simp
  · rcases List.mem_append.1 hm with hm | hm
    · exact absurd hm (sent_not_mem_cancelled _ _ _)
    · rcases List.mem_cons.1 hm with hm | hm
      · cases hm
      · obtain ⟨_, he⟩ := ha _ hm
        cases he

theorem Account.of_advanced {iv : InitializationVector} (h : Account P os w)
    (ha : World.Advanced P w iv w' os') : Account P (os ++ os') w' := by
  have hn := h.numbered.of_advanced ha
  have hsend : ∀ {send}, w.session.send? = some send → Ciphertext P send := fun hs =>
    h.ciphertext _ (List.mem_append_left _ (by rw [hs]; simp))
  cases ha with
  | requestFailed call e hs hf =>
    exact h.of_session hn rfl (by rw [hs]; rfl) (fun _ hc => nomatch hc) (by simp)
  | requestSending call key send hs hk hf =>
    obtain ⟨hfresh, hcipher⟩ := fresh_of_startSend hf
    refine h.of_session hn rfl ?_ (fun _ hc => ?_) (by simp)
    · rw [hs]
      simp [Session.send?, Send.last?, hfresh.rest_ne, finishedPayloads, sentPayloads,
        abandonedPayloads]
    · cases hc
      exact hcipher
  | sent request send hs hr =>
    refine h.of_session hn rfl ?_ (fun _ hc => nomatch hc) (by simp [hs, Session.send?])
    rw [hs]
    simp [Session.send?, Send.last?, hr, finishedPayloads, sentPayloads, abandonedPayloads]
  | wrote request send packet rest hs hr =>
    refine h.of_session hn rfl ?_ (fun _ hc => ?_) (by simp)
    · have hbefore : [send].filterMap Send.last? = [] := by simp [Send.last?, hr]
      rw [hs]
      exact (congrArg _ hbefore).trans (List.append_nil _)
    · cases hc
      have : Ciphertext P send := hsend (by rw [hs]; rfl)
      exact this
  | returned request reply hs hf =>
    exact h.of_session hn rfl (by rw [hs]; rfl) (fun _ hc => nomatch hc) (by simp)
  | replyCancelled request hs hf =>
    exact h.of_session hn rfl (by rw [hs]; rfl) (fun _ hc => nomatch hc) (by simp)
  | waiting request hs hf =>
    exact h.of_session hn rfl (by rw [hs]; rfl) (fun _ hc => nomatch hc) (by simp)
  | failed request e hs =>
    exact h.of_session hn rfl (by rw [hs]; rfl) (fun _ hc => nomatch hc) (by simp)
  | refused code reply e hs hr =>
    exact h.of_session hn rfl (by rw [hs]; rfl) (fun _ hc => nomatch hc) (by simp)
  | adopted reply info data hs hp hb =>
    exact h.of_session hn rfl (by rw [hs]; rfl) (fun _ hc => nomatch hc) (by simp)
  | adoptedOnly reply info e hs hp hb =>
    exact h.of_session hn rfl (by rw [hs]; rfl) (fun _ hc => nomatch hc) (by simp)
  | paired reply hs hv =>
    exact h.of_session hn rfl (by rw [hs]; rfl) (fun _ hc => nomatch hc) (by simp)
  | acknowledged code reply hs hi hp =>
    exact h.of_session hn rfl (by rw [hs]; rfl) (fun _ hc => nomatch hc) (by simp)
  | drained collected hs =>
    exact h.of_session hn rfl (by rw [hs]; rfl) (fun _ hc => nomatch hc) (by simp)
  | reset outcome link hs hc => exact h.of_reset hs hn rfl fun _ ho => nomatch ho
  | ended outcome hs hc => exact h.of_reset hs hn rfl fun _ ho => ⟨_, List.mem_singleton.1 ho⟩

/-- Observations that are not about a send. -/
def Unsent : Obs → Prop
  | .wrote .. | .sent .. | .aborted .. => False
  | _ => True

theorem filterMap_unsent (hos : ∀ o ∈ os', Unsent o) {f : Obs → Option Bytes}
    (hf : ∀ o, Unsent o → f o = none) : os'.filterMap f = [] :=
  List.filterMap_eq_nil_iff.2 fun o ho => hf o (hos o ho)

/-- Steps that are not about a send. -/
theorem Account.of_unsent (h : Account P os w) (hn : w'.Numbered) (hsends : w'.sends = w.sends)
    (hos : ∀ o ∈ os', Unsent o) : Account P (os ++ os') w' := by
  refine h.of_step hn ?_ (hsends ▸ h.ciphertext) fun sender send hm => absurd (hos _ hm) id
  have hf : finishedPayloads os' = [] := filterMap_unsent hos fun o ho => by
    cases o <;> first | rfl | exact absurd ho id
  have hs : sentPayloads os' = [] := filterMap_unsent hos fun o ho => by
    cases o <;> first | rfl | exact absurd ho id
  have ha : abandonedPayloads os' = [] := filterMap_unsent hos fun o ho => by
    cases o <;> first | rfl | exact absurd ho id
  rw [Balanced, World.outstanding, World.outstanding, hsends, hf, hs, ha]
  exact .refl _

theorem unsent_handledObs (self : TuyaBleClient) (frame : Frame) (dataPoints : List DataPoint)
    (data : Bytes) :
    ∀ o ∈ Obs.received frame :: self.handledObs frame dataPoints data, Unsent o := by
  intro o ho
  simp only [TuyaBleClient.handledObs, List.mem_cons, List.mem_append, List.mem_map,
    List.not_mem_nil, or_false] at ho
  rcases ho with rfl | ⟨_, -, rfl⟩ | rfl | rfl <;> trivial

theorem Account.of_notified {chunk : Bytes} {clock : Clock} (h : Account P os w)
    (hw : World.Notified P w chunk clock w' os') : Account P (os ++ os') w' := by
  have hn := h.numbered.of_notified hw
  cases hw with
  | quiet hr => exact h.of_unsent hn rfl (by simp)
  | completed frame future hr ha => exact h.of_unsent hn rfl (by simp [Unsent])
  | ignored frame hr ha hc => exact h.of_unsent hn rfl (by simp [Unsent])
  | handled frame dataPoints data hr ha hc =>
    refine h.of_unsent hn ?_ fun o ho => unsent_handledObs _ _ _ _ o ho
    simp [World.sends, TuyaBleClient.handled, World.popped, World.fed]

/-- The one task of a number among the others. -/
theorem split_task {number : Nat} {task : ReplyTask} (hn : w.Numbered)
    (ht : w.task? number = some task) :
    ∃ before after, w.self.background = before ++ task :: after ∧
      ∀ other ∈ before ++ after, other.frame.sequenceNumber ≠ number := by
  obtain ⟨hp, before, after, he, hb⟩ := List.find?_eq_some_iff_append.1 ht
  have hnum : task.frame.sequenceNumber = number := by simpa using hp
  refine ⟨before, after, he, fun other hm => ?_⟩
  rcases List.mem_append.1 hm with hm | hm
  · simpa using hb other hm
  · have hd := hn.distinct
    rw [he, List.map_append, List.map_cons] at hd
    have := (List.nodup_cons.1 (List.nodup_append.1 hd).2.1).1
    intro heq
    exact this (List.mem_map.2 ⟨other, hm, heq.trans hnum.symm⟩)

theorem discard_background {number : Nat} {task : ReplyTask} {before after : List ReplyTask}
    (he : w.self.background = before ++ task :: after) (ht : task.frame.sequenceNumber = number)
    (hne : ∀ other ∈ before ++ after, other.frame.sequenceNumber ≠ number) :
    (w.discard number).self.background = before ++ after := by
  have hkeep : (before ++ after).filter (fun t => decide (t.frame.sequenceNumber ≠ number)) =
      before ++ after := List.filter_eq_self.2 fun t ht => by simpa using hne t ht
  rw [List.filter_append] at hkeep
  simpa [World.discard, he, ht] using hkeep

theorem suspend_background {number : Nat} {task : ReplyTask} {before after : List ReplyTask}
    (he : w.self.background = before ++ task :: after) (ht : task.frame.sequenceNumber = number)
    (hne : ∀ other ∈ before ++ after, other.frame.sequenceNumber ≠ number) (send : Send) :
    (w.suspend number send).self.background =
      before ++ { task with send := some send } :: after := by
  have hkeep : ∀ l : List ReplyTask, (∀ t ∈ l, t ∈ before ++ after) → l.map (fun t =>
      if t.frame.sequenceNumber = number then { t with send := some send } else t) = l := by
    intro l hl
    refine (List.map_congr_left fun t ht => ?_).trans (List.map_id _)
    rw [if_neg (hne t (hl t ht))]
    rfl
  simp only [World.suspend, he, List.map_append, List.map_cons, if_pos ht]
  rw [hkeep before fun t ht => List.mem_append_left _ ht,
    hkeep after fun t ht => List.mem_append_right _ ht]

/-- A step of one reply task. -/
theorem Account.of_task (h : Account P os w) (next : Option Send) (hn : w'.Numbered)
    {task : ReplyTask} {before after : List ReplyTask}
    (he : w.self.background = before ++ task :: after) (hsession : w'.session = w.session)
    (hb : w'.self.background.filterMap ReplyTask.send =
      before.filterMap ReplyTask.send ++ (next.toList ++ after.filterMap ReplyTask.send))
    (hbal : finishedPayloads os' ++ task.send.toList.filterMap Send.last? =
      sentPayloads os' ++ abandonedPayloads os' ++ next.toList.filterMap Send.last?)
    (hc : ∀ send, next = some send → Ciphertext P send)
    (hs : ∀ sender send, .sent sender send ∈ os' → Ciphertext P send) :
    Account P (os ++ os') w' := by
  have hw : w.self.background.filterMap ReplyTask.send =
      before.filterMap ReplyTask.send ++ (task.send.toList ++ after.filterMap ReplyTask.send) := by
    rw [he, List.filterMap_append, List.filterMap_cons]
    cases task.send <;> rfl
  refine h.of_step hn (List.perm_iff_count.2 fun b => ?_) (fun send hm => ?_) hs
  · have := congrArg (List.count b) hbal
    simp only [outstanding_eq, hsession, hw, hb, List.filterMap_append, List.count_append] at this ⊢
    omega
  · rw [World.sends, hsession, hb] at hm
    have hold : ∀ {send}, send ∈ w.session.send?.toList ∨
        send ∈ before.filterMap ReplyTask.send ∨ send ∈ after.filterMap ReplyTask.send →
          Ciphertext P send := fun {send} ho => h.ciphertext send (by
      rw [World.sends, hw]
      simp only [List.mem_append]
      exact ho.imp_right (Or.imp_right .inr))
    rcases List.mem_append.1 hm with hm | hm
    · exact hold (.inl hm)
    · rcases List.mem_append.1 hm with hm | hm
      · exact hold (.inr (.inl hm))
      · rcases List.mem_append.1 hm with hm | hm
        · exact hc send (by simpa using hm)
        · exact hold (.inr (.inr hm))

theorem Account.of_discard (h : Account P os w) {number : Nat} {task : ReplyTask}
    (hn : (w.discard number).Numbered) (ht : w.task? number = some task)
    (hbal : finishedPayloads os' ++ task.send.toList.filterMap Send.last? =
      sentPayloads os' ++ abandonedPayloads os')
    (hs : ∀ sender send, .sent sender send ∈ os' → Ciphertext P send) :
    Account P (os ++ os') (w.discard number) := by
  obtain ⟨before, after, he, hne⟩ := split_task h.numbered ht
  refine h.of_task none hn he rfl ?_ (hbal.trans (List.append_nil _).symm)
    (fun _ hc => nomatch hc) hs
  rw [discard_background he (World.task?_mem ht).2 hne, List.filterMap_append]
  rfl

/-- One turn of the write loop of a reply task. -/
theorem Account.of_writeReply (h : Account P os w) {number : Nat} {task : ReplyTask}
    (hn : (w.writeReply number send).1.Numbered) (ht : w.task? number = some task)
    (hlast : task.send.toList.filterMap Send.last? = [send].filterMap Send.last?)
    (hc : Ciphertext P send) :
    Account P (os ++ (w.writeReply number send).2) (w.writeReply number send).1 := by
  unfold World.writeReply at hn ⊢
  split
  · rename_i hr
    rw [hr] at hn
    refine h.of_discard hn ht ?_ fun sender send' hm => ?_
    · rw [hlast]
      simp [Send.last?, hr, finishedPayloads, sentPayloads, abandonedPayloads]
    · cases List.mem_singleton.1 hm
      exact hc
  · rename_i packet rest hr
    rw [hr] at hn
    obtain ⟨before, after, he, hne⟩ := split_task h.numbered ht
    refine h.of_task (some { send with rest }) hn he rfl ?_ ?_ (fun send' hs => ?_) (by simp)
    · rw [suspend_background he (World.task?_mem ht).2 hne, List.filterMap_append]
      rfl
    · have hbefore : [send].filterMap Send.last? = [] := by simp [Send.last?, hr]
      rw [hlast]
      exact (congrArg _ hbefore).trans (List.append_nil _)
    · cases hs
      exact hc

theorem Account.of_replied {e : Event} (h : Account P os w) (hr : World.Replied P w e w' os') :
    Account P (os ++ os') w' := by
  have hn := h.numbered.of_replied hr
  cases hr with
  | ended number iv task ht hs => exact h.of_discard hn ht (by rw [hs]; rfl) (by simp)
  | aborted number e frame send ht => exact h.of_discard hn ht rfl (by simp)
  | started number iv frame key send ht hkey hs =>
    obtain ⟨hfresh, hcipher⟩ := fresh_of_startSend hs
    have hstart : Account P (os ++ [.sending (.reply number) send]) w :=
      h.of_unsent h.numbered rfl (by simp [Unsent])
    have hlast :
        (none : Option Send).toList.filterMap Send.last? = [send].filterMap Send.last? := by
      simp [Send.last?, hfresh.rest_ne]
    have := hstart.of_writeReply hn ht hlast hcipher
    rwa [List.append_assoc] at this
  | resumed number frame send ht =>
    refine h.of_writeReply hn ht rfl (h.ciphertext send (List.mem_append_right _ ?_))
    exact List.mem_filterMap.2 ⟨_, (World.task?_mem ht).1, rfl⟩

theorem account_keeps (C : List Obs → World → Event → Prop) :
    Keeps P C fun _ os w => Account P os w where
  wakeUp h _ hw := h.of_woken hw
  advance h ha := h.of_advanced ha
  fire h _ hf := by
    have hn := h.numbered.of_fire hf
    obtain ⟨-, rfl, _, rfl, -⟩ := World.fire_eq hf
    exact h.of_unsent hn rfl (by simp)
  notify h _ hn := h.of_notified hn
  reply h _ hr := h.of_replied hr

/-! ## The groups on the wire -/

/-- A group: packets of one send, in the order it wrote them. -/
abbrev Group := Receiver.Group PacketReassembler.new PacketReassembler.feed

variable {gs : List Group}

/-- The last group is the send's, up to the packets it has yet to write. -/
def Last (gs : List Group) (send : Send) : Prop :=
  ∃ before g, gs = before ++ [g] ∧ g.message = send.payload ∧ g.taken ++ send.rest = g.packets

/-- The next packet of the send can follow the groups. -/
def Ready (gs : List Group) (send : Send) : Prop := send.rest = [] ∨ Last gs send ∨ Fresh send

theorem lastWriter_wrote {sender : Sender} {packet : Bytes} :
    lastWriter (os ++ [.wrote sender send packet]) = some sender := by
  simp [lastWriter, List.filterMap_append]

theorem lastWriter_append (hos : ∀ sender send packet, .wrote sender send packet ∉ os') :
    lastWriter (os ++ os') = lastWriter os := by
  have : os'.filterMap (fun | .wrote sender _ _ => some sender | _ => none) = [] :=
    List.filterMap_eq_nil_iff.2 fun o ho => by
      cases o with
      | wrote sender send packet => exact absurd ho (hos sender send packet)
      | _ => rfl
  rw [lastWriter, List.filterMap_append, this, List.append_nil]
  rfl

/-- The groups make up what has been written. -/
structure Written (os : List Obs) (gs : List Group) : Prop where
  written : written os = gs.flatMap Receiver.Group.taken
  finished : gs.filterMap Receiver.Group.message? = finishedPayloads os

theorem Written.append (h : Written os gs)
    (hos : ∀ sender send packet, .wrote sender send packet ∉ os') :
    Written (os ++ os') gs := by
  have hw : TuyaBle.written os' = [] := List.filterMap_eq_nil_iff.2 fun o ho => by
    cases o with
    | wrote sender send packet => exact absurd ho (hos sender send packet)
    | _ => rfl
  have hf : finishedPayloads os' = [] := List.filterMap_eq_nil_iff.2 fun o ho => by
    cases o with
    | wrote sender send packet => exact absurd ho (hos sender send packet)
    | _ => rfl
  exact ⟨by rw [written_append, hw, List.append_nil, h.written],
    by rw [finishedPayloads_append, hf, List.append_nil, h.finished]⟩

/-- **A packet in its place** extends the last group, or starts one. -/
theorem Written.wrote (h : Written os gs) (hr : Ready gs send) {packet : Bytes}
    {rest : List Bytes} (hrest : send.rest = packet :: rest) (sender : Sender) :
    ∃ gs', Written (os ++ [.wrote sender { send with rest } packet]) gs' ∧
      Last gs' { send with rest } := by
  have hcols : ∀ gs' : List Group, gs'.flatMap Receiver.Group.taken =
      gs.flatMap Receiver.Group.taken ++ [packet] →
      gs'.filterMap Receiver.Group.message? = gs.filterMap Receiver.Group.message? ++
        (if rest = [] then [send.payload] else []) →
      Written (os ++ [.wrote sender { send with rest } packet]) gs' := fun gs' ht hm => by
    refine ⟨by rw [ht, written_append, h.written]; rfl, ?_⟩
    rw [hm, finishedPayloads_append, h.finished]
    by_cases he : rest = [] <;> simp [he, finishedPayloads, Send.last?]
  rcases hr with hnil | ⟨before, g, rfl, hmsg, htaken⟩ | hfresh
  · rw [hrest] at hnil
    cases hnil
  · rw [hrest] at htaken
    let g' : Group := { g with taken := g.taken ++ [packet]
                               taken_prefix := ⟨rest, by rw [List.append_assoc]; exact htaken⟩ }
    refine ⟨before ++ [g'], hcols _ (by simp [g']) ?_, before, g', rfl, hmsg,
      by simpa [g'] using htaken⟩
    have hg : g.message? = none := by rw [g.message?_eq htaken, if_neg (List.cons_ne_nil _ _)]
    have hg' : g'.message? = if rest = [] then some send.payload else none := by
      rw [g'.message?_eq (by simpa [g'] using htaken), show g'.message = send.payload from hmsg]
    rw [List.filterMap_append, List.filterMap_append]
    by_cases he : rest = [] <;> simp [hg, hg', he]
  · let g' : Group := ⟨send.rest, send.payload, hfresh.carries, [packet], ⟨rest, hrest.symm⟩⟩
    refine ⟨gs ++ [g'], hcols _ (by simp [g']) ?_, gs, g', rfl, rfl, hrest.symm⟩
    have hg' : g'.message? = if rest = [] then some send.payload else none :=
      g'.message?_eq hrest.symm
    rw [List.filterMap_append]
    by_cases he : rest = [] <;> simp [hg', he]

/-- Where the groups stand with the sends under way. -/
structure Wire (os : List Obs) (w : World) (gs : List Group) : Prop where
  written : Written os gs
  next : ∀ request send, w.session = .sending request send → Ready gs send
  session : ∀ request send, w.session = .writing request send → lastWriter os = some .session →
    Last gs send
  replies : ∀ task ∈ w.self.background, ∀ send, task.send = some send →
    lastWriter os = some (.reply task.frame.sequenceNumber) → Last gs send

theorem Wire.of_step (h : Wire os w gs)
    (hos : ∀ sender send packet, .wrote sender send packet ∉ os')
    (hnext : ∀ request send, w'.session = .sending request send → Ready gs send)
    (hs : ∀ request send, w'.session = .writing request send → w.session = .writing request send)
    (hb : ∀ task ∈ w'.self.background, ∀ send, task.send = some send → task ∈ w.self.background) :
    Wire (os ++ os') w' gs where
  written := h.written.append hos
  next := hnext
  session request send hw := by
    rw [lastWriter_append hos]
    exact h.session request send (hs request send hw)
  replies task ht send hsend := by
    rw [lastWriter_append hos]
    exact h.replies task (hb task ht send hsend) send hsend

/-- Steps of the session task after which it does not write. -/
theorem Wire.of_stage (h : Wire os w gs)
    (hos : ∀ sender send packet, .wrote sender send packet ∉ os')
    (hs : w'.session.send? = none)
    (hb : ∀ task ∈ w'.self.background, ∀ send, task.send = some send → task ∈ w.self.background) :
    Wire (os ++ os') w' gs :=
  h.of_step hos (fun _ _ hw => by rw [hw] at hs; cases hs)
    (fun _ _ hw => by rw [hw] at hs; cases hs) hb

theorem Wire.of_woken {r : Resumption} {iv : InitializationVector} (h : Wire os w gs)
    (hc : Unmixed os w (.resume r iv)) (hw : World.Woken w r w' os') : Wire (os ++ os') w' gs := by
  cases hw with
  | written request send hi hs hr =>
    subst hr
    refine h.of_step (by simp) (fun request' send' he => ?_) (fun _ _ he => nomatch he)
      fun _ ht _ _ => ht
    obtain ⟨rfl, rfl⟩ := Session.sending.inj he
    have hc : send.rest = [] ∨ lastWriter os = some .session := by
      simpa [Unmixed, World.continued, hs, Session.send?] using hc
    exact hc.imp_right fun hl => .inl (h.session request send hs hl)
  | _ => exact h.of_stage (by simp) rfl fun _ ht _ _ => ht

theorem Wire.of_wrote (h : Wire os w gs) {request : Request}
    (hs : w.session = .sending request send) {packet : Bytes} {rest : List Bytes}
    (hr : send.rest = packet :: rest) :
    ∃ gs', Wire (os ++ [.wrote .session { send with rest } packet])
      { w with session := .writing request { send with rest } } gs' := by
  obtain ⟨gs', hwritten, hlast⟩ := h.written.wrote (h.next request send hs) hr .session
  refine ⟨gs', hwritten, fun _ _ he => (nomatch he), fun request' send' he _ => ?_,
    fun task _ send' _ hl => ?_⟩
  · obtain ⟨rfl, rfl⟩ := Session.writing.inj he
    exact hlast
  · rw [lastWriter_wrote] at hl
    cases hl

theorem Wire.of_advanced {iv : InitializationVector} (h : Wire os w gs)
    (ha : World.Advanced P w iv w' os') : ∃ gs', Wire (os ++ os') w' gs' := by
  cases ha with
  | requestSending call key send hs hk hf =>
    refine ⟨gs, h.of_step (by simp) (fun _ _ he => ?_) (fun _ _ he => nomatch he)
      fun _ ht _ _ => ht⟩
    obtain ⟨-, rfl⟩ := Session.sending.inj he
    exact .inr (.inr (fresh_of_startSend hf).1)
  | wrote request send packet rest hs hr => exact h.of_wrote hs hr
  | reset outcome link hs hc =>
    exact ⟨gs, h.of_stage (by simp [World.cancelled]) rfl fun _ ht => nomatch ht⟩
  | ended outcome hs hc =>
    exact ⟨gs, h.of_stage (by simp [World.cancelled]) rfl fun _ ht => nomatch ht⟩
  | _ => exact ⟨gs, h.of_stage (by simp) rfl fun _ ht _ _ => ht⟩

theorem Wire.of_notified {chunk : Bytes} {clock : Clock} (h : Wire os w gs)
    (hn : World.Notified P w chunk clock w' os') : Wire (os ++ os') w' gs := by
  cases hn with
  | handled frame dataPoints data hr ha hc =>
    refine h.of_step (by simp [TuyaBleClient.handledObs]) h.next (fun _ _ => id)
      fun task ht send hs => ?_
    rcases List.mem_append.1 ht with ht | ht
    · exact ht
    · rw [List.mem_singleton.1 ht] at hs
      cases hs
  | _ => exact h.of_step (by simp) h.next (fun _ _ => id) fun _ ht _ _ => ht

theorem Wire.of_discard (h : Wire os w gs) (number : Nat)
    (hos : ∀ sender send packet, .wrote sender send packet ∉ os') :
    Wire (os ++ os') (w.discard number) gs :=
  h.of_step hos h.next (fun _ _ => id) fun _ ht _ _ => (List.mem_filter.1 ht).1

theorem Wire.of_writeReply (h : Wire os w gs) (hw : w.session.running = false) (number : Nat)
    (hr : Ready gs send) :
    ∃ gs', Wire (os ++ (w.writeReply number send).2) (w.writeReply number send).1 gs' := by
  unfold World.writeReply
  split
  · exact ⟨gs, h.of_discard number (by simp)⟩
  · rename_i packet rest hrest
    obtain ⟨gs', hwritten, hlast⟩ := h.written.wrote hr hrest (.reply number)
    refine ⟨gs', hwritten, fun request send' hs => ?_, fun _ _ _ hl => ?_, ?_⟩
    · rw [show w.session = .sending request send' from hs] at hw
      cases hw
    · rw [lastWriter_wrote] at hl
      cases hl
    · intro task ht send' hs hl
      obtain ⟨old, hold, rfl⟩ := List.mem_map.1 ht
      rw [lastWriter_wrote] at hl
      by_cases hn : old.frame.sequenceNumber = number
      · rw [if_pos hn] at hs
        obtain rfl := Option.some.inj hs
        exact hlast
      · rw [if_neg hn] at hl
        exact absurd (Sender.reply.inj (Option.some.inj hl)).symm hn

theorem Wire.of_replied {e : Event} (h : Wire os w gs) (hc : Unmixed os w e)
    (hw : w.session.running = false) (hr : World.Replied P w e w' os') :
    ∃ gs', Wire (os ++ os') w' gs' := by
  cases hr with
  | ended number iv task ht hs => exact ⟨gs, h.of_discard number (by simp)⟩
  | aborted number e frame send ht => exact ⟨gs, h.of_discard number (by simp)⟩
  | started number iv frame key send ht hkey hs =>
    have hstart : Wire (os ++ [.sending (.reply number) send]) w gs :=
      h.of_step (by simp) h.next (fun _ _ => id) fun _ ht _ _ => ht
    obtain ⟨gs', hwire⟩ := hstart.of_writeReply hw number
      (.inr (.inr (fresh_of_startSend hs).1))
    exact ⟨gs', by rwa [List.append_assoc] at hwire⟩
  | resumed number frame send ht =>
    have hc : send.rest = [] ∨ lastWriter os = some (.reply number) := by
      simpa [Unmixed, World.continued, ht] using hc
    refine h.of_writeReply hw number (hc.imp_right fun hl => .inl ?_)
    obtain ⟨hm, rfl⟩ := World.task?_mem ht
    exact h.replies _ hm send rfl hl

theorem wire_keeps : Keeps P (fun os w e => Unmixed os w e ∧ w.session.running = false)
    fun _ os w => ∃ gs, Wire os w gs where
  wakeUp h hc hw := h.imp fun _ h => h.of_woken hc.1 hw
  advance h ha := h.elim fun _ h => h.of_advanced ha
  fire h _ hf := h.imp fun gs h => by
    obtain ⟨-, rfl, _, rfl, -⟩ := World.fire_eq hf
    exact h.of_step (by simp) h.next (fun _ _ => id) fun _ ht _ _ => ht
  notify h _ hn := h.imp fun _ h => h.of_notified hn
  reply h hc hr := h.elim fun _ h => h.of_replied hc.1 hc.2 hr

end Writes

/-- What the device's reassembler answers to what has been written. -/
def answers (os : List Obs) : List (Except PyException (Option Bytes)) :=
  (Receiver.run PacketReassembler.feed .new (written os)).2

variable {P : Primitives} {address : String} {credentials : TuyaBleCredentials}

theorem World.Keying.outstanding_eq {w : World} (h : w.Keying P credentials)
    (hs : w.session = .idle) : w.outstanding = [] := by
  have hquiet := h.quiet (h.unkeyed (by rw [hs]; trivial))
  have hnone : w.self.background.filterMap ReplyTask.send = [] :=
    List.filterMap_eq_nil_iff.2 hquiet
  rw [Writes.outstanding_eq, hs, hnone]
  rfl

/-- **No two frames mix on the characteristic** in any read in which a send goes on only
where it wrote last and none is left in its last write: the device refuses no packet and
reads the payload of every send that has completed, besides those of the sends that await
the end of their last write. None does once the read is over. -/
theorem packets_reassemble {w0 w : World} {tr : List (World × Event)} {os : List Obs}
    (h0 : (machine P).Reachable (.new P address credentials) w0) (hidle : w0.session = .idle)
    (h : (machine P).Runs (WithinRead Unmixed) w0.reading tr os w)
    (hlast : ∀ sender send, .aborted sender send ∈ os → send.rest ≠ []) :
    (∀ answer ∈ answers os, ∃ r, answer = .ok r) ∧
      (Receiver.messages (answers os)).Perm (sentPayloads os ++ w.outstanding) ∧
      (w.session = .idle → w.outstanding = []) ∧
      ∀ sender send, .sent sender send ∈ os → Ciphertext P send := by
  have hkeying := World.Keying.of_reachable h0
  have hnone : w0.reading.outstanding = [] := by
    have := hkeying.outstanding_eq hidle
    rw [Writes.outstanding_eq, hidle] at this
    exact this
  have hsends : ∀ send ∈ w0.reading.sends, Ciphertext P send := by
    have hquiet := hkeying.quiet (hkeying.unkeyed (by rw [hidle]; trivial))
    intro send hm
    obtain ⟨task, ht, hs⟩ := List.mem_filterMap.1
      ((List.mem_append.1 hm).resolve_left (by simp [World.reading, Session.send?]))
    rw [hquiet task ht] at hs
    cases hs
  have haccount := (Writes.account_keeps (Unmixed)).runs h
    ⟨(World.Numbered.of_reachable h0).of_reading hidle, by rw [hnone]; exact .refl _, hsends,
      by simp⟩
  obtain ⟨gs, hwire⟩ := Writes.wire_keeps.runs (Keeps.runs_suspended h rfl)
    ⟨[], ⟨⟨rfl, rfl⟩, fun _ _ hs => (nomatch hs), fun _ _ hs => (nomatch hs),
      fun _ _ _ _ hl => nomatch hl⟩⟩
  obtain ⟨hok, hmessages⟩ := Receiver.run_groups gs (.new : PacketReassembler)
  rw [← hwire.written.written] at hok hmessages
  have habandoned : abandonedPayloads os = [] := List.filterMap_eq_nil_iff.2 fun o ho => by
    cases o with
    | aborted sender send => exact if_neg (hlast sender send ho)
    | _ => rfl
  refine ⟨hok, ?_, fun hs => ?_, haccount.sent⟩
  · have hbalance := haccount.balance
    rw [habandoned, List.append_nil, ← hwire.written.finished, ← hmessages] at hbalance
    exact hbalance
  · exact ((World.Keying.keeps _).runs h (hkeying.of_reading hidle)).outstanding_eq hs

open FakeDevice in
theorem packets_reassemble_session : ∃ tr os w,
    (machine primitives).execWhere (WithinRead Unmixed) [] [] client.reading session =
      some (tr, os, w) ∧
    (∀ answer ∈ answers os, ∃ r, answer = .ok r) ∧
      (Receiver.messages (answers os)).Perm (sentPayloads os ++ w.outstanding) ∧
      (w.session = .idle → w.outstanding = []) ∧
      ∀ sender send, .sent sender send ∈ os → Ciphertext primitives send := by
  have hx : ((machine primitives).execWhere (WithinRead Unmixed) [] [] client.reading session).map
      (fun r => r.2.1.all fun | .aborted _ send => decide (send.rest ≠ []) | _ => true) =
        some true := by decide +kernel
  obtain ⟨⟨tr, os, w⟩, he, hall⟩ := Option.map_eq_some_iff.1 hx
  exact ⟨tr, os, w, he, packets_reassemble (.refl _) rfl (Machine.runs_of_execWhere he)
    fun sender send hm => by simpa using List.all_eq_true.1 hall _ hm⟩

/-- A report while the pairing request is written, and the first packet of its
acknowledgement between the first two of the request. -/
def mixedWrites : List Event :=
  FakeDevice.deviceInfoExchange ++ [FakeDevice.send ⟨104, 0, 0x8001, FakeDevice.report⟩,
    .replyStart 3 FakeDevice.initializationVector, FakeDevice.written]

open FakeDevice in
/-- The device takes the second packet of the request for one of the acknowledgement, and
refuses it. -/
theorem acknowledgement_mixes_with_request : ¬ ∀ tr os w,
    (machine primitives).Runs (WithinRead Machine.Free) client.reading tr os w →
    (∀ answer ∈ answers os, ∃ r, answer = .ok r) ∧
      (Receiver.messages (answers os)).Perm (sentPayloads os ++ w.outstanding) ∧
      (w.session = .idle → w.outstanding = []) ∧
      ∀ sender send, .sent sender send ∈ os → Ciphertext primitives send := by
  intro h
  have hx : ((machine primitives).execWhere (WithinRead Machine.Free) [] [] client.reading
      mixedWrites).map (fun r => (answers r.2.1).getLast?.map fun answer => answer.toOption) =
        some (some none) := by decide +kernel
  obtain ⟨⟨tr, os, w⟩, he, hlast⟩ := Option.map_eq_some_iff.1 hx
  obtain ⟨answer, hmem, herror⟩ := Option.map_eq_some_iff.1 hlast
  obtain ⟨r, rfl⟩ := (h tr os w (Machine.runs_of_execWhere he)).1 answer
    (List.mem_of_getLast? hmem)
  cases herror

end TuyaBle
