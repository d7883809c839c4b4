import TuyaBle.Client.Machine

/-!
# Sequence numbers and the pending table

`Numbered` is what holds in every reachable world, whatever has been delivered: the only
entry `_pending` can have is the one of the request being made, and no number the client
has handed out since the last teardown is ahead of its counter.
-/

namespace TuyaBle

structure World.Numbered (w : World) : Prop where
  one_le : 1 ≤ w.self.sequenceNumber
  pending : ∀ p ∈ w.self.pending, ∃ request, w.session.request? = some request ∧
    p = (request.sequenceNumber, request.pending)
  request : ∀ request, w.session.request? = some request → 1 ≤ request.sequenceNumber ∧
    request.sequenceNumber < w.self.sequenceNumber ∧ request.pending < w.futures.length
  background : ∀ task ∈ w.self.background, task.frame.sequenceNumber < w.self.sequenceNumber
  distinct : (w.self.background.map fun task => task.frame.sequenceNumber).Nodup

namespace World.Numbered

variable {P : Primitives} {w w' : World}

/-- Once the request is left, its entry is gone. -/
theorem erase_pending (h : w.Numbered) {request : Request}
    (hr : w.session.request? = some request) :
    w.self.pending.erase request.sequenceNumber = [] := by
  refine Dict.erase_eq_nil fun p hp => ?_
  obtain ⟨request', hr', rfl⟩ := h.pending p hp
  rw [Option.some.inj (hr.symm.trans hr')]

theorem pending_nil (h : w.Numbered) (hr : w.session.request? = none) : w.self.pending = [] := by
  refine List.eq_nil_iff_forall_not_mem.2 fun p hp => ?_
  obtain ⟨request, hr', -⟩ := h.pending p hp
  rw [hr] at hr'
  cases hr'

/-- Steps that hand out no number and start no request. -/
theorem of_same (h : w.Numbered) (hn : w'.self.sequenceNumber = w.self.sequenceNumber)
    (hb : w'.self.background = w.self.background) (hf : w'.futures.length = w.futures.length)
    (hp : ∀ p ∈ w'.self.pending, p ∈ w.self.pending)
    (hr : w'.session.request? = w.session.request?) : w'.Numbered where
  one_le := hn ▸ h.one_le
  pending p hm := hr ▸ h.pending p (hp p hm)
  request := by rw [hr, hn, hf]; exact h.request
  background := by rw [hb, hn]; exact h.background
  distinct := by rw [hb]; exact h.distinct

/-- Steps that leave the request, if one is made. -/
theorem of_left (h : w.Numbered) (hn : w'.self.sequenceNumber = w.self.sequenceNumber)
    (hb : w'.self.background = w.self.background) (hp : w'.self.pending = [])
    (hr : w'.session.request? = none) : w'.Numbered where
  one_le := hn ▸ h.one_le
  pending := by simp [hp]
  request := by simp [hr]
  background := by rw [hb, hn]; exact h.background
  distinct := by rw [hb]; exact h.distinct

/-- The teardown starts the numbers over. -/
theorem of_reset (hn : w'.self.sequenceNumber = 1) (hb : w'.self.background = [])
    (hp : w'.self.pending = []) (hr : w'.session.request? = none) : w'.Numbered where
  one_le := Nat.le_of_eq hn.symm
  pending := by simp [hp]
  request := by simp [hr]
  background := by simp [hb]
  distinct := by simp [hb]

/-- A new request. -/
theorem of_register (h : w.Numbered) (hs : w.session.request? = none) {call : Call} {s : Session}
    (hr : s.request? = some (w.requestFor call)) : ({ w.register with session := s }).Numbered where
  one_le := Nat.le_add_left ..
  pending p hp := by
    have hnil : w.self.pending = [] := h.pending_nil hs
    have hp : p ∈ [(w.self.sequenceNumber, w.futures.length)] := by
      simpa [register, hnil] using hp
    exact ⟨_, hr, List.mem_singleton.1 hp⟩
  request request hr' := by
    obtain rfl := Option.some.inj (hr.symm.trans hr')
    simp [requestFor, register, h.one_le]
  background task ht := Nat.lt_succ_of_lt (h.background task ht)
  distinct := h.distinct

/-- A device command schedules a reply under the next number. -/
theorem of_handled (h : w.Numbered) (chunk : Bytes) (frame : Frame) (dataPoints : List DataPoint)
    (data : Bytes) :
    ({ (w.fed chunk).popped frame.responseTo with
        self := ((w.fed chunk).popped frame.responseTo).self.handled frame dataPoints data
      } : World).Numbered where
  one_le := Nat.le_add_left ..
  pending p hp := h.pending p (Dict.mem_of_mem_erase hp)
  request request hr := by
    obtain ⟨h1, h2, h3⟩ := h.request request hr
    exact ⟨h1, Nat.lt_succ_of_lt h2, h3⟩
  background task ht := by
    rcases List.mem_append.1 ht with ht | ht
    · exact Nat.lt_succ_of_lt (h.background task ht)
    · rw [List.mem_singleton.1 ht]
      exact Nat.lt_succ_self _
  distinct := by
    simp only [TuyaBleClient.handled, popped, fed, List.map_append, List.map_cons, List.map_nil]
    refine List.nodup_append.2 ⟨h.distinct, by simp, fun a ha b hb => ?_⟩
    obtain ⟨task, ht, rfl⟩ := List.mem_map.1 ha
    rw [List.mem_singleton.1 hb]
    exact Nat.ne_of_lt (h.background task ht)

theorem of_woken {r : Resumption} {os : List Obs} (h : w.Numbered) (hw : Woken w r w' os) :
    w'.Numbered := by
  cases hw with
  | connected link hi hs => exact h.of_left rfl rfl (h.pending_nil (by rw [hs]; rfl)) rfl
  | subscribed hi hs => exact h.of_left rfl rfl (h.pending_nil (by rw [hs]; rfl)) rfl
  | connectFailed e hi hs he =>
    exact h.of_left rfl rfl (h.pending_nil (by rcases hs with hs | hs <;> rw [hs] <;> rfl)) rfl
  | connectTimedOut hi hs => exact h.of_left rfl rfl (h.pending_nil (by rw [hs]; rfl)) rfl
  | connectCancelled i hi hs =>
    refine h.of_left rfl rfl (h.pending_nil ?_) rfl
    rcases hs with ⟨hs, -⟩ | hs <;> rw [hs] <;> rfl
  | written request send hi hs hr => exact h.of_same rfl rfl rfl (fun _ hp => hp) (by rw [hs]; rfl)
  | writeFailed request send e hi hs hr he =>
    exact h.of_same rfl rfl rfl (fun _ hp => hp) (by rw [hs]; rfl)
  | writeCancelled i request send hi hs =>
    exact h.of_same rfl rfl rfl (fun _ hp => hp) (by rw [hs]; rfl)
  | replied request hi hs hf => exact h.of_same rfl rfl rfl (fun _ hp => hp) (by rw [hs]; rfl)
  | waitEnded i request hi hs => exact h.of_same rfl rfl rfl (fun _ hp => hp) (by rw [hs]; rfl)
  | reported collected hi hs hr => exact h.of_left rfl rfl (h.pending_nil (by rw [hs]; rfl)) rfl
  | quiet collected hi hs => exact h.of_left rfl rfl (h.pending_nil (by rw [hs]; rfl)) rfl
  | collectCancelled i collected hi hd hs =>
    exact h.of_left rfl rfl (h.pending_nil (by rw [hs]; rfl)) rfl
  | disconnected outcome hi hs => exact h.of_left rfl rfl (h.pending_nil (by rw [hs]; rfl)) rfl
  | disconnectCancelled i outcome hi hd hs =>
    exact h.of_left rfl rfl (h.pending_nil (by rw [hs]; rfl)) rfl

theorem of_advanced {iv : InitializationVector} {os : List Obs} (h : w.Numbered)
    (ha : Advanced P w iv w' os) : w'.Numbered := by
  cases ha with
  | requestFailed call e hs hf => exact h.of_register (by rw [hs]; rfl) rfl
  | requestSending call key send hs hk hf => exact h.of_register (by rw [hs]; rfl) rfl
  | sent request send hs hr => exact h.of_same rfl rfl rfl (fun _ hp => hp) (by rw [hs]; rfl)
  | wrote request send packet rest hs hr =>
    exact h.of_same rfl rfl rfl (fun _ hp => hp) (by rw [hs]; rfl)
  | returned request reply hs hf => exact h.of_left rfl rfl (h.erase_pending (by rw [hs]; rfl)) rfl
  | replyCancelled request hs hf => exact h.of_same rfl rfl rfl (fun _ hp => hp) (by rw [hs]; rfl)
  | waiting request hs hf => exact h.of_same rfl rfl rfl (fun _ hp => hp) (by rw [hs]; rfl)
  | failed request e hs => exact h.of_left rfl rfl (h.erase_pending (by rw [hs]; rfl)) rfl
  | refused code reply e hs hr => exact h.of_left rfl rfl (h.pending_nil (by rw [hs]; rfl)) rfl
  | adopted reply info data hs hp hb =>
    exact h.of_left rfl rfl (h.pending_nil (by rw [hs]; rfl)) rfl
  | adoptedOnly reply info e hs hp hb =>
    exact h.of_left rfl rfl (h.pending_nil (by rw [hs]; rfl)) rfl
  | paired reply hs hv => exact h.of_left rfl rfl (h.pending_nil (by rw [hs]; rfl)) rfl
  | acknowledged code reply hs hi hp =>
    exact h.of_left rfl rfl (h.pending_nil (by rw [hs]; rfl)) rfl
  | drained collected hs => exact h.of_left rfl rfl (h.pending_nil (by rw [hs]; rfl)) rfl
  | reset outcome link hs hc => exact of_reset rfl rfl rfl rfl
  | ended outcome hs hc => exact of_reset rfl rfl rfl rfl

theorem of_notified {chunk : Bytes} {clock : Clock} {os : List Obs} (h : w.Numbered)
    (hn : Notified P w chunk clock w' os) : w'.Numbered := by
  cases hn with
  | quiet hr => exact h.of_same rfl rfl rfl (fun _ hp => hp) rfl
  | completed frame future hr ha =>
    exact h.of_same rfl rfl (List.length_set ..) (fun _ hp => Dict.mem_of_mem_erase hp) rfl
  | ignored frame hr ha hc =>
    exact h.of_same rfl rfl rfl (fun _ hp => Dict.mem_of_mem_erase hp) rfl
  | handled frame dataPoints data hr ha hc => exact h.of_handled chunk frame dataPoints data

theorem of_replied {e : Event} {os : List Obs} (h : w.Numbered)
    (hr : Replied P w e w' os) : w'.Numbered := by
  obtain ⟨background, rfl, hsub⟩ := hr.frame
  refine ⟨h.one_le, h.pending, h.request, fun task ht => ?_, ?_⟩
  · obtain ⟨task', ht', he⟩ := List.mem_map.1 (hsub.subset (List.mem_map_of_mem ht))
    rw [← he]
    exact h.background task' ht'
  · have hm := hsub.map Frame.sequenceNumber
    rw [List.map_map, List.map_map] at hm
    exact h.distinct.sublist hm

theorem of_fire {i : Interrupt} {os : List Obs} (h : w.Numbered)
    (hf : w.fire i = some (w', os)) : w'.Numbered := by
  obtain ⟨-, -, futures, rfl, hfut⟩ := fire_eq hf
  refine h.of_same rfl rfl ?_ (fun _ hp => hp) rfl
  rcases hfut with rfl | ⟨request, -, -, rfl⟩
  · rfl
  · exact List.length_set ..

theorem keeps (C : List Obs → World → Event → Prop) :
    Keeps P C fun _ _ w => w.Numbered where
  wakeUp h _ hw := h.of_woken hw
  advance h ha := h.of_advanced ha
  fire h _ hf := h.of_fire hf
  notify h _ hn := h.of_notified hn
  reply h _ hr := h.of_replied hr

theorem of_reading (h : w.Numbered) (hs : w.session = .idle) : w.reading.Numbered :=
  h.of_left rfl rfl (h.pending_nil (by rw [hs]; rfl)) rfl

theorem of_new (P : Primitives) (address : String) (credentials : TuyaBleCredentials) :
    (World.new P address credentials).Numbered := of_reset rfl rfl rfl rfl

/-- **Every reachable world is numbered.** -/
theorem of_reachable {address : String} {credentials : TuyaBleCredentials}
    (h : (machine P).Reachable (.new P address credentials) w) : w.Numbered :=
  (keeps _).reachable h (of_new P address credentials) fun _ h hs => h.of_reading hs

end World.Numbered

end TuyaBle
