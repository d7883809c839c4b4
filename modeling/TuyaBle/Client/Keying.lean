import TuyaBle.Client.Machine

/-!
# The session key over the life of a client

`Keying` holds in every reachable world: the keys that depend on the credentials alone
never change, there is no session key before the device information is used nor after
the teardown, and without one no reply task is writing.
-/

namespace TuyaBle

structure World.Keying (P : Primitives) (credentials : TuyaBleCredentials) (w : World) : Prop where
  credentials_eq : w.self.credentials = credentials
  loginKey_eq : w.self.loginKey = TuyaBle.loginKey P credentials.localKey
  unkeyed : w.session.unkeyed → w.self.sessionKey = none
  quiet : w.self.sessionKey = none → ∀ task ∈ w.self.background, task.send = none
  call : ∀ call, w.session.call? = some call →
    call = w.self.deviceInfoCall ∨ (∃ data, call = pairCall data) ∨ call = deviceStatusCall

namespace Session

theorem leaving_keyed {outcome : Outcome} : ¬ (leaving outcome).unkeyed := by
  rintro ⟨⟩

theorem draining_keyed {collected : Dict Nat DataPoint} : ¬ (draining collected).unkeyed := by
  rintro ⟨⟩

theorem collecting_keyed {collected : Dict Nat DataPoint} : ¬ (collecting collected).unkeyed := by
  rintro ⟨⟩

theorem pairing_keyed {data : Bytes} : ¬ (requesting (pairCall data)).unkeyed := by
  rintro ⟨⟩

theorem status_keyed : ¬ (requesting deviceStatusCall).unkeyed := by
  rintro ⟨⟩

end Session

namespace World.Keying

variable {P : Primitives} {credentials : TuyaBleCredentials} {w w' : World}

/-- Steps that touch neither the keys nor the tasks. -/
theorem of_same (h : w.Keying P credentials) (hc : w'.self.credentials = w.self.credentials)
    (hl : w'.self.loginKey = w.self.loginKey) (hk : w'.self.sessionKey = w.self.sessionKey)
    (hb : w'.self.background = w.self.background) (hu : w'.session.unkeyed → w.session.unkeyed)
    (hr : ∀ call, w'.session.call? = some call →
      call = w.self.deviceInfoCall ∨ (∃ data, call = pairCall data) ∨ call = deviceStatusCall) :
    w'.Keying P credentials where
  credentials_eq := hc.trans h.credentials_eq
  loginKey_eq := hl.trans h.loginKey_eq
  unkeyed hs := hk.trans (h.unkeyed (hu hs))
  quiet := by rw [hk, hb]; exact h.quiet
  call call hs := by
    have : w'.self.deviceInfoCall = w.self.deviceInfoCall := by
      simp only [TuyaBleClient.deviceInfoCall, hl]
    rw [this]
    exact hr call hs

/-- Steps after which no request is about to be made. -/
theorem of_kept (h : w.Keying P credentials) (hc : w'.self.credentials = w.self.credentials)
    (hl : w'.self.loginKey = w.self.loginKey) (hk : w'.self.sessionKey = w.self.sessionKey)
    (hb : w'.self.background = w.self.background) (hu : w'.session.unkeyed → w.session.unkeyed)
    (hr : w'.session.call? = none) : w'.Keying P credentials :=
  h.of_same hc hl hk hb hu fun _ hs => nomatch hr.symm.trans hs

/-- Steps of the session task that keep the client. -/
theorem of_stage (h : w.Keying P credentials) (hself : w'.self = w.self)
    (hu : w'.session.unkeyed → w.session.unkeyed)
    (hr : w'.session.call? = none) : w'.Keying P credentials :=
  h.of_kept (by rw [hself]) (by rw [hself]) (by rw [hself]) (by rw [hself]) hu hr

theorem of_reset (h : w.Keying P credentials) (hself : w'.self = w.self.reset)
    (hr : w'.session.call? = none) : w'.Keying P credentials where
  credentials_eq := by rw [hself]; exact h.credentials_eq
  loginKey_eq := by rw [hself]; exact h.loginKey_eq
  unkeyed _ := by rw [hself]; rfl
  quiet _ := by rw [hself]; simp [TuyaBleClient.reset]
  call call hs := nomatch hr.symm.trans hs

theorem of_adopted (h : w.Keying P credentials) {info : DeviceInfo} {s : Session}
    (hs : ¬ s.unkeyed) (hr : ∀ call, s.call? = some call → ∃ data, call = pairCall data) :
    ({ w with self := w.self.adoptDeviceInfo P info, session := s }).Keying P credentials where
  credentials_eq := h.credentials_eq
  loginKey_eq := h.loginKey_eq
  unkeyed hu := absurd hu hs
  quiet hn := nomatch hn
  call call hc := .inr (.inl (hr call hc))

theorem of_woken {r : Resumption} {os : List Obs} (h : w.Keying P credentials)
    (hw : Woken w r w' os) : w'.Keying P credentials := by
  cases hw with
  | connected link hi hs =>
    exact h.of_kept rfl rfl rfl rfl (fun _ => by rw [hs]; trivial) rfl
  | subscribed hi hs =>
    exact h.of_same rfl rfl rfl rfl (fun _ => by rw [hs]; trivial) fun call hc => by
      cases hc
      exact .inl rfl
  | connectFailed e hi hs he => exact h.of_stage rfl Session.leaving_keyed.elim rfl
  | connectTimedOut hi hs => exact h.of_stage rfl Session.leaving_keyed.elim rfl
  | connectCancelled i hi hs => exact h.of_stage rfl Session.leaving_keyed.elim rfl
  | written request send hi hs hr => exact h.of_stage rfl (by rw [hs]; exact id) rfl
  | writeFailed request send e hi hs hr he => exact h.of_stage rfl (by rw [hs]; exact id) rfl
  | writeCancelled i request send hi hs => exact h.of_stage rfl (by rw [hs]; exact id) rfl
  | replied request hi hs hf => exact h.of_stage rfl (by rw [hs]; exact id) rfl
  | waitEnded i request hi hs => exact h.of_stage rfl (by rw [hs]; exact id) rfl
  | reported collected hi hs hr => exact h.of_stage rfl Session.draining_keyed.elim rfl
  | quiet collected hi hs => exact h.of_stage rfl Session.leaving_keyed.elim rfl
  | collectCancelled i collected hi hd hs => exact h.of_stage rfl Session.leaving_keyed.elim rfl
  | disconnected outcome hi hs => exact h.of_stage rfl (fun _ => by rw [hs]; trivial) rfl
  | disconnectCancelled i outcome hi hd hs =>
    exact h.of_stage rfl (fun _ => by rw [hs]; trivial) rfl

theorem of_advanced {iv : InitializationVector} {os : List Obs} (h : w.Keying P credentials)
    (ha : Advanced P w iv w' os) : w'.Keying P credentials := by
  cases ha with
  | requestFailed call e hs hf => exact h.of_kept rfl rfl rfl rfl (by rw [hs]; exact id) rfl
  | requestSending call key send hs hk hf =>
    exact h.of_kept rfl rfl rfl rfl (by rw [hs]; exact id) rfl
  | sent request send hs hr => exact h.of_stage rfl (by rw [hs]; exact id) rfl
  | wrote request send packet rest hs hr => exact h.of_stage rfl (by rw [hs]; exact id) rfl
  | returned request reply hs hf =>
    exact h.of_kept rfl rfl rfl rfl (by rw [hs]; exact id) rfl
  | replyCancelled request hs hf => exact h.of_stage rfl (by rw [hs]; exact id) rfl
  | waiting request hs hf => exact h.of_stage rfl (by rw [hs]; exact id) rfl
  | failed request e hs =>
    exact h.of_kept rfl rfl rfl rfl Session.leaving_keyed.elim rfl
  | refused code reply e hs hr => exact h.of_stage rfl Session.leaving_keyed.elim rfl
  | adopted reply info data hs hp hb =>
    exact h.of_adopted Session.pairing_keyed fun call hc => by
      cases hc
      exact ⟨data, rfl⟩
  | adoptedOnly reply info e hs hp hb =>
    exact h.of_adopted Session.leaving_keyed fun _ hc => nomatch hc
  | paired reply hs hv =>
    exact h.of_same rfl rfl rfl rfl
      Session.status_keyed.elim fun call hc => by
        cases hc
        exact .inr (.inr rfl)
  | acknowledged code reply hs hi hp => exact h.of_stage rfl Session.draining_keyed.elim rfl
  | drained collected hs =>
    exact h.of_kept rfl rfl rfl rfl Session.collecting_keyed.elim rfl
  | reset outcome link hs hc => exact h.of_reset rfl rfl
  | ended outcome hs hc => exact h.of_reset rfl rfl

theorem of_notified {chunk : Bytes} {clock : Clock} {os : List Obs} (h : w.Keying P credentials)
    (hn : Notified P w chunk clock w' os) : w'.Keying P credentials := by
  cases hn with
  | quiet hr => exact h.of_same rfl rfl rfl rfl id h.call
  | completed frame future hr ha => exact h.of_same rfl rfl rfl rfl id h.call
  | ignored frame hr ha hc => exact h.of_same rfl rfl rfl rfl id h.call
  | handled frame dataPoints data hr ha hc =>
    refine ⟨h.credentials_eq, h.loginKey_eq, h.unkeyed, fun hn task ht => ?_, h.call⟩
    rcases List.mem_append.1 ht with ht | ht
    · exact h.quiet hn task ht
    · rw [List.mem_singleton.1 ht]

theorem of_replied {e : Event} {os : List Obs} (h : w.Keying P credentials)
    (hr : Replied P w e w' os) : w'.Keying P credentials := by
  have hd : ∀ number, (w.discard number).Keying P credentials := fun _ =>
    ⟨h.credentials_eq, h.loginKey_eq, h.unkeyed,
      fun hn task ht => h.quiet hn task ((List.mem_filter.1 ht).1), h.call⟩
  have hw : ∀ number send, w.self.sessionKey ≠ none →
      (w.writeReply number send).1.Keying P credentials := by
    intro number send hk
    unfold writeReply
    split
    · exact hd number
    · exact ⟨h.credentials_eq, h.loginKey_eq, h.unkeyed, fun hn => absurd hn hk, h.call⟩
  cases hr with
  | ended number iv task ht hs => exact hd number
  | aborted number e frame send ht => exact hd number
  | started number iv frame key send ht hk hs => exact hw number send (by rw [hk]; nofun)
  | resumed number frame send ht =>
    exact hw number send fun hn => nomatch h.quiet hn _ (task?_mem ht).1

theorem of_fire {i : Interrupt} {os : List Obs} (h : w.Keying P credentials)
    (hf : w.fire i = some (w', os)) : w'.Keying P credentials := by
  obtain ⟨-, -, futures, rfl, -⟩ := fire_eq hf
  exact h.of_same rfl rfl rfl rfl id h.call

theorem keeps (C : List Obs → World → Event → Prop) :
    Keeps P C fun _ _ w => w.Keying P credentials where
  wakeUp h _ hw := h.of_woken hw
  advance h ha := h.of_advanced ha
  fire h _ hf := h.of_fire hf
  notify h _ hn := h.of_notified hn
  reply h _ hr := h.of_replied hr

theorem of_reading (h : w.Keying P credentials) (hs : w.session = .idle) :
    w.reading.Keying P credentials :=
  h.of_stage rfl (fun _ => by rw [hs]; trivial) rfl

/-- **The keys of every reachable world.** -/
theorem of_reachable {address : String}
    (h : (machine P).Reachable (.new P address credentials) w) : w.Keying P credentials :=
  (keeps _).reachable h ⟨rfl, rfl, fun _ => rfl, fun _ => by simp [World.new, TuyaBleClient.new],
    fun _ hc => nomatch hc⟩ fun _ h hs => h.of_reading hs

end World.Keying

end TuyaBle
