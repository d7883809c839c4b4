import TuyaBle.FakeDevice
import TuyaBle.System.Steps

/-!
# A read of the device

A calm read of a device that serves the client asks for the three things the protocol
requires, in order, and returns what the device reports, whatever the order in which the
event loop runs the session task, the reply tasks and the callbacks.
-/

namespace TuyaBle

open FakeBleakClient

namespace System

variable {P : Primitives} {D : Peripheral} {credentials : TuyaBleCredentials} {data : Bytes}
  {T : Clock → Prop} {random : Nat → InitializationVector} {info : DeviceInfo}
  {s s' : System} {w w' : World} {os os' : List Obs}

/-- One step of the client after another. -/
theorem Kept.trans {s1 : System} (h1 : { s with client := w }.transmit P D random os = some s1)
    (he : ∀ outcome, .ended outcome ∈ os → Complete D T outcome)
    (h2 : Kept P D credentials data T random s1 w' os') :
    Kept P D credentials data T random s w' (os ++ os') := by
  obtain ⟨s2, ht, hc2, hinv, he2⟩ := h2
  refine ⟨s2, transmit_append (transmit_client h1 w').1 ht, hc2, hinv, fun outcome hm => ?_⟩
  rcases List.mem_append.1 hm with hm | hm
  · exact he outcome hm
  · exact he2 outcome hm

theorem Inv.settle (hD : D.Serves credentials info data) (h : Inv P D credentials data T s)
    {iv : InitializationVector} {fuel : Nat}
    (hs : s.client.settle P iv fuel = some (w', os)) :
    Kept P D credentials data T random s w' os := by
  induction fuel generalizing s os with
  | zero =>
    simp only [World.settle] at hs
    split at hs <;> cases hs
    exact .of_silent (by simp) h (by simp)
  | succ fuel ih =>
    simp only [World.settle] at hs
    split at hs
    · split at hs
      · cases hs
      · rename_i w1 os1 ha
        split at hs
        · cases hs
        · rename_i w2 os2 hs2
          cases hs
          obtain ⟨s1, ht, rfl, hinv, he⟩ := h.of_advanced hD (World.advance_advanced ha)
          exact .trans ht he (ih hinv hs2)
    · cases hs
      exact .of_silent (by simp) h (by simp)

/-- A step of the client that keeps the invariant is a step of the system that does. -/
theorem Kept.stepClient {e : Event} (hs : s.stepClient P D random e = some (s', os))
    (h : ∀ w' os, s.client.step P e = some (w', os) → Kept P D credentials data T random s w' os) :
    Inv P D credentials data T s' ∧ ∀ outcome, .ended outcome ∈ os → Complete D T outcome := by
  unfold System.stepClient at hs
  split at hs
  · cases hs
  · rename_i w1 os1 hw
    obtain ⟨s1, ht, -, hinv, he⟩ := h w1 os1 hw
    rw [ht] at hs
    cases hs
    exact ⟨hinv, he⟩

theorem Inv.of_resumed (hD : D.Serves credentials info data) (h : Inv P D credentials data T s)
    {iv : InitializationVector} (hw : s.client.resume P s.resumption iv = some (w', os)) :
    Kept P D credentials data T random s w' os := by
  simp only [World.resume] at hw
  split at hw
  · cases hw
  · rename_i w1 os1 hwake
    split at hw
    · cases hw
    · rename_i w2 os2 hsettle
      cases hw
      have hwoken := World.wakeUp_woken hwake
      obtain ⟨hinv, he⟩ := h.of_woken hwoken
      have hsilent : ∀ sender send packet, .wrote sender send packet ∉ os1 := by
        cases hwoken <;> simp
      exact .trans (transmit_silent hsilent) he (hinv.settle hD hsettle)

theorem Inv.of_fired (h : Inv P D credentials data T s) {i : Interrupt} (hc : Calm s (.fire i))
    (hw : s.client.fire i = some (w', os)) : Kept P D credentials data T random s w' os := by
  obtain ⟨-, rfl, -⟩ := World.fire_eq hw
  exact .of_silent (by simp) (h.of_fire hc hw) (by simp)

theorem Inv.of_delivered (h : Inv P D credentials data T s) {packet : Bytes}
    {notifications : List Bytes} {clock : Clock}
    (hd : s.device.notifications = packet :: notifications) (hT : T clock)
    (hw : s.client.onNotification P packet clock = (w', os)) :
    Kept P D credentials data T random { s with device := { s.device with notifications } } w'
      os := by
  have hn := World.onNotification_notified P s.client packet clock
  rw [hw] at hn
  obtain ⟨hsilent, hended⟩ := notified_silent hn
  exact .of_silent hsilent (h.of_notified hd hn hT) fun outcome hm => absurd hm (hended outcome)

theorem replyEvent_replied {number : Nat} {iv : InitializationVector}
    (hw : s.client.step P (s.replyEvent number iv) = some (w', os)) :
    World.Replied P s.client (s.replyEvent number iv) w' os := by
  generalize hev : s.replyEvent number iv = e at hw
  rw [replyEvent] at hev
  split at hev <;> subst hev
  · exact World.resumeReply_replied hw
  · exact World.startReply_replied hw

/-- **The step lemma.** -/
theorem Inv.step (hD : D.Serves credentials info data) (h : Inv P D credentials data T s)
    {e : SystemEvent} (hc : Calm s e) (hT : ∀ clock, e = .deliver clock → T clock)
    (hs : s.step P D random e = some (s', os)) :
    Inv P D credentials data T s' ∧ ∀ outcome, .ended outcome ∈ os → Complete D T outcome := by
  cases e with
  | startRead => exact hc.elim
  | resume iv => exact Kept.stepClient hs fun w' os hw => h.of_resumed hD hw
  | fire i => exact Kept.stepClient hs fun w' os hw => h.of_fired hc hw
  | deliver clock =>
    simp only [System.step] at hs
    split at hs
    · cases hs
    · rename_i packet notifications hd
      exact Kept.stepClient hs fun w' os hw => h.of_delivered hd (hT clock rfl) (Option.some.inj hw)
  | reply number iv =>
    exact Kept.stepClient hs fun w' os hw => h.of_replied hc (replyEvent_replied hw)

theorem inv_new (hD : D.Serves credentials info data) (address : String) :
    Inv P D credentials data T (new P address credentials) where
  numbered := (World.Numbered.of_new P address credentials).of_reading rfl
  credentials := rfl
  loginKey := by
    show loginKey P credentials.localKey = loginKey P D.localKey
    rw [hD.localKey]
  version := by show defaultProtocolVersion < 16; decide
  linked h := absurd rfl h
  writes _ hp := nomatch hp
  calm h := absurd rfl h
  tasks _ hm := nomatch hm
  keyed h := absurd rfl h
  received _ hm := nomatch hm
  stage := ⟨⟨fun h => (nomatch h), rfl⟩, rfl, rfl, rfl, rfl, rfl, rfl⟩

/-- **The run lemma.** -/
theorem inv_runs (hD : D.Serves credentials info data) {address : String}
    {tr : List (System × SystemEvent)}
    (h : (system P D random).Runs (fun _ s e => Calm s e ∧ ∀ clock, e = .deliver clock → T clock)
      (new P address credentials) tr os s) :
    Inv P D credentials data T s ∧ ∀ outcome ∈ outcomes os, Complete D T outcome := by
  refine h.invariant (I := fun _ os s => Inv P D credentials data T s ∧
    ∀ outcome ∈ outcomes os, Complete D T outcome) ⟨inv_new hD address, fun _ hm => nomatch hm⟩ ?_
  rintro tr os s e s' os' ⟨hinv, hout⟩ ⟨hc, hT⟩ hs
  obtain ⟨hinv', he⟩ := hinv.step hD hc hT hs
  refine ⟨hinv', fun outcome hm => ?_⟩
  rcases List.mem_append.1 (mem_outcomes.1 hm) with hm | hm
  · exact hout outcome (mem_outcomes.2 hm)
  · exact he outcome hm

/-! ## The client of a system -/

/-- The client only does what a client does. -/
theorem step_client {e : SystemEvent} (h : s.step P D random e = some (s', os)) :
    ∃ e', (e ≠ .startRead → e' ≠ .startRead) ∧ s.client.step P e' = some (s'.client, os) := by
  have hclient : ∀ (s : System) {e' : Event}, s.stepClient P D random e' = some (s', os) →
      s.client.step P e' = some (s'.client, os) := by
    intro s e' h
    unfold System.stepClient at h
    split at h
    · cases h
    · rename_i w1 os1 hw
      split at h
      · cases h
      · rename_i s1 ht
        cases h
        rw [hw, (transmit_client ht s.client).2]
  cases e with
  | startRead => exact ⟨.startRead, fun h => absurd rfl h, hclient s h⟩
  | resume iv => exact ⟨.resume s.resumption iv, fun _ => by simp, hclient s h⟩
  | fire i => exact ⟨.fire i, fun _ => by simp, hclient s h⟩
  | deliver clock =>
    simp only [System.step] at h
    split at h
    · cases h
    · have hnotify := hclient _ h
      exact ⟨.notify _ clock, fun _ => by simp, hnotify⟩
  | reply number iv =>
    refine ⟨s.replyEvent number iv, fun _ => ?_, hclient s h⟩
    rw [replyEvent]
    split <;> simp

/-- A run of the system within a read is one of its client, with the same observations. -/
theorem runs_client {C : List Obs → System → SystemEvent → Prop} {tr : List (System × SystemEvent)}
    (h : (system P D random).Runs C s tr os s') (hC : ∀ os s, ¬ C os s .startRead) :
    ∃ tr', (machine P).Runs (WithinRead Machine.Free) s.client tr' os s'.client := by
  refine h.simulates System.client fun os s e t os' hc hs => ?_
  obtain ⟨e', hne, hs'⟩ := step_client hs
  exact ⟨e', ⟨hne fun he => hC os s (he ▸ hc), trivial⟩, hs'⟩

/-- A read that has ended is over. -/
theorem keeps_ended : Keeps P Machine.Free fun _ os w =>
    ∀ outcome : Outcome, .ended outcome ∈ os → w.session = .idle where
  wakeUp := by
    intro tr os w r iv w' os' hi _ hw outcome hm
    rcases List.mem_append.1 hm with hm | hm
    · exact absurd (hi outcome hm) hw.ne_idle
    · cases hw <;> first | rfl | simp at hm
  advance := by
    intro tr os w iv w' os' hi ha outcome hm
    rcases List.mem_append.1 hm with hm | hm
    · exact absurd (hi outcome hm) ha.ne_idle
    · cases ha <;> first | rfl | simp [World.cancelled] at hm
  fire := by
    intro tr os w i w' os' hi _ hf outcome hm
    obtain ⟨-, rfl, futures, rfl, -⟩ := World.fire_eq hf
    rw [List.append_nil] at hm
    exact hi outcome hm
  notify := by
    intro tr os w chunk clock w' os' hi _ hn outcome hm
    rcases List.mem_append.1 hm with hm | hm
    · exact (notified_same hn).1.trans (hi outcome hm)
    · exact absurd hm ((notified_silent hn).2 outcome)
  reply := by
    intro tr os w e w' os' hi _ hr outcome hm
    have hsend := hr.ofSend
    obtain ⟨background, rfl, -⟩ := hr.frame
    rcases List.mem_append.1 hm with hm | hm
    · exact hi outcome hm
    · exact (hsend _ hm).elim

/-! ## What is reported -/

/-- The datapoints of reports that are delivered at `times`, the last of each identifier. A
report that cannot be parsed reports nothing. -/
def reported (reports : List Bytes) (times : List Rat) : Dict Nat DataPoint :=
  ((reports.zip times).filterMap fun p => (parseDataPoints p.1 0 p.2).toOption).foldl
    (fun d r => d.setAll DataPoint.identifier r) []

/-- A frame without data reports nothing. -/
theorem reportOf_nil {frame : Frame} (h : frame.data = []) (clock : Clock) :
    reportOf frame clock = none := by
  have htime : (parseTimestamp [] 0).toOption = none := by decide
  have hempty : parseDataPoints [] 0 clock.time = .ok [] := rfl
  simp only [reportOf, h, hempty]
  cases TuyaBleCommandCode.fromValue frame.code with
  | none => rfl
  | some code =>
    cases code with
    | receiveTimeDataPoint =>
      cases ht : parseTimestamp [] 0 with
      | error e => rfl
      | ok p =>
        rw [ht] at htime
        cases htime
    | _ => rfl

/-- What the frames of reports come to. -/
theorem gathered_reports {reports : List Bytes} {sequenceNumber : Nat}
    {past : List (Frame × Clock)} (d : Dict Nat DataPoint)
    (h : framesOf sequenceNumber (reports.map fun report =>
        ⟨TuyaBleCommandCode.receiveDataPoint.value, report, 0, false⟩) =
      past.map fun p => (p.1, false)) :
    (past.filterMap fun p => reportOf p.1 p.2).foldl
        (fun d r => d.setAll DataPoint.identifier r) d =
      ((reports.zip (past.map fun p => p.2.time)).filterMap fun p =>
        (parseDataPoints p.1 0 p.2).toOption).foldl
        (fun d r => d.setAll DataPoint.identifier r) d := by
  induction reports generalizing sequenceNumber past d with
  | nil =>
    obtain rfl := List.map_eq_nil_iff.1 h.symm
    rfl
  | cons report reports ih =>
    cases past with
    | nil => cases h
    | cons p past =>
      obtain ⟨hp, hrest⟩ := List.cons.inj h
      obtain ⟨frame, clock⟩ := p
      obtain rfl := (Prod.mk.inj hp).1
      have hcode : TuyaBleCommandCode.fromValue TuyaBleCommandCode.receiveDataPoint.value =
          some .receiveDataPoint := by decide
      simp only [List.map_cons, List.zip_cons_cons, List.filterMap_cons, reportOf, hcode]
      cases parseDataPoints report 0 clock.time with
      | error e => exact ih d hrest
      | ok dataPoints =>
        cases dataPoints with
        | nil => exact ih d hrest
        | cons dataPoint dataPoints => exact ih _ hrest

/-- The reports of the device, each as of when it was delivered. -/
theorem Complete.eq_reported {outcome : Outcome} (h : Complete D T outcome) :
    ∃ times : List Rat, times.length = D.reports.length ∧
      (∀ time ∈ times, ∃ clock, T clock ∧ clock.time = time) ∧
      outcome = .ok (reported D.reports times) := by
  obtain ⟨past, hpushed, hclocks, rfl⟩ := h
  have hframes : ∀ {n : Nat} {past : List (Frame × Clock)}, framesOf n (D.reports.map fun report =>
        ⟨TuyaBleCommandCode.receiveDataPoint.value, report, 0, false⟩) =
      past.map (fun p => (p.1, false)) → (∀ p ∈ past, T p.2) →
      ∃ times : List Rat, times.length = D.reports.length ∧
        (∀ time ∈ times, ∃ clock, T clock ∧ clock.time = time) ∧
        gatherPast past = reported D.reports times := fun {n past} h hclocks => by
    refine ⟨past.map fun p : Frame × Clock => p.2.time, ?_, fun time hm => ?_,
      gathered_reports [] h⟩
    · have hlength := congrArg List.length h
      rw [length_framesOf, List.length_map, List.length_map] at hlength
      rw [List.length_map, hlength]
    · obtain ⟨p, hp, rfl⟩ := List.mem_map.1 hm
      exact ⟨p.2, hclocks p hp, rfl⟩
  have hpushes : deviceStatusTurn.pushes D = pushes D := rfl
  rw [Turn.pushed, hpushes, pushes] at hpushed
  cases htime : D.timeRequest with
  | none =>
    rw [htime] at hpushed
    obtain ⟨times, hlength, htimes, he⟩ := hframes hpushed hclocks
    exact ⟨times, hlength, htimes, congrArg Except.ok he⟩
  | some code =>
    rw [htime] at hpushed
    cases past with
    | nil => cases hpushed
    | cons p past =>
      obtain ⟨hp, hrest⟩ := List.cons.inj hpushed
      obtain ⟨times, hlength, htimes, he⟩ := hframes hrest fun p hm =>
        hclocks p (List.mem_cons_of_mem _ hm)
      refine ⟨times, hlength, htimes, congrArg Except.ok ?_⟩
      rw [← he, gatherPast, List.filterMap_cons, reportOf_nil (by rw [← (Prod.mk.inj hp).1])]
      rfl

/-- The requests come in order. -/
theorem Stage.requested_prefix {session : Session} {client : TuyaBleClient} {futures : List Future}
    {device : FakeBleakClient} (h : Stage P D data T session client futures device) :
    device.requested <+: (turns data).map Turn.frame := by
  have hknown : ∀ {t : Turn} {n : Nat}, Known P D data t n client device →
      device.requested <+: (turns data).map Turn.frame := fun hk => by
    rw [hk.received]
    exact (List.take_prefix _ _).map _
  have hwritten : ∀ {t : Turn} {request : Request},
      Written P D data T t request client futures device →
      device.requested <+: (turns data).map Turn.frame := by
    rintro t request ⟨-, hasked | ⟨-, -, past, flight, ha⟩⟩
    · exact hknown hasked.toKnown
    · exact hknown ha.toKnown
  cases session with
  | idle => exact h.2 ▸ List.prefix_rfl
  | connecting | subscribing => exact hknown h.toKnown
  | requesting call => obtain ⟨t, -, -, hb⟩ := h; exact hknown hb.toKnown
  | sending request send | writing request send =>
    obtain ⟨t, -, ⟨-, hw⟩ | ⟨-, hw⟩⟩ := h
    · exact hknown hw.toKnown
    · exact hwritten hw
  | replyDue request | waiting request => obtain ⟨t, -, hw⟩ := h; exact hwritten hw
  | replied code reply => obtain ⟨t, -, -, -, past, flight, ha⟩ := h; exact hknown ha.toKnown
  | failed => exact h.elim
  | draining collected | collecting collected =>
    obtain ⟨past, flight, ha⟩ := h
    exact hknown ha.toKnown
  | leaving outcome | disconnecting outcome => exact h.2.1 ▸ List.prefix_rfl

/-- **A read of a device that serves the client.** In every calm run (no other task writes
between the packets of a reply, no deadline cuts a wait short, and neither the session's
deadline nor a cancellation ends the read) the device gets the three requests in order and
once each, and nothing else but answers to what it sends on its own initiative; and a read
that ends returns what the device reports. -/
theorem served_read (hD : D.Serves credentials info data) {address : String}
    {tr : List (System × SystemEvent)}
    (h : (system P D random).Runs (fun _ => Calm) (new P address credentials) tr os s) :
    s.device.requested <+: (turns data).map Turn.frame ∧
      (∀ frame ∈ s.device.received, frame.responseTo ≠ 0 → Acknowledges D frame) ∧
      ∀ outcome ∈ outcomes os, s.device.requested = (turns data).map Turn.frame ∧
        ∃ times : List Rat, times.length = D.reports.length ∧
          (∀ time ∈ times, ∃ s clock, (s, .deliver clock) ∈ tr ∧ clock.time = time) ∧
          outcome = .ok (reported D.reports times) := by
  obtain ⟨hinv, hcomplete⟩ := inv_runs (T := fun clock => ∃ s, (s, .deliver clock) ∈ tr) hD
    (h.traced.mono fun _ s e hc => ⟨hc.1, fun clock he => ⟨s, he ▸ hc.2⟩⟩)
  refine ⟨hinv.stage.requested_prefix, hinv.received, fun outcome hm => ⟨?_, ?_⟩⟩
  · obtain ⟨tr', hclient⟩ := runs_client h fun _ _ hc => hc
    have hidle := keeps_ended.runs hclient (fun _ hm => nomatch hm) outcome (mem_outcomes.1 hm)
    have hstage := hinv.stage
    rw [hidle] at hstage
    exact hstage.2
  · obtain ⟨times, hlength, htimes, he⟩ := (hcomplete outcome hm).eq_reported
    refine ⟨times, hlength, fun time ht => ?_, he⟩
    obtain ⟨clock, ⟨s, hs⟩, rfl⟩ := htimes time ht
    exact ⟨s, clock, hs, rfl⟩

end System

namespace FakeDevice

/-- The tests' device, with one report and no question for the time. -/
def peripheral : Peripheral where
  localKey := localKey
  srand := srand
  protocolVersion := 3
  deviceInfo := buildDeviceInfo 3
  pairingResult := [2]
  statusResult := [0]
  reports := [report]
  timeRequest := none

def deviceInfo : DeviceInfo where
  deviceVersion := "1.2"
  protocolVersion := 3
  protocolVersionName := "3.0"
  hardwareVersion := "9.3"
  flags := 0
  isBound := true
  srand := srand
  authKey := authKey
  length_srand := by decide
  length_authKey := by decide

def pairingRequest : Bytes :=
  encodeUtf8 uuid ++ keyMaterial localKey ++ encodeUtf8 deviceId ++ List.replicate 6 0

theorem peripheral_serves : peripheral.Serves credentials deviceInfo pairingRequest where
  localKey := rfl
  deviceInfo := by decide +kernel
  srand := rfl
  version := by decide
  protocolVersion := by decide
  pairing := by decide +kernel
  request := by decide +kernel
  sizes := by decide +kernel
  count := by decide

/-- A read of it: the exchanges, the acknowledgement of the report, and the quiet period. -/
def read : List SystemEvent :=
  let resume : SystemEvent := .resume initializationVector
  let deliver : SystemEvent := .deliver clock
  let reply : SystemEvent := .reply 4 initializationVector
  List.replicate 4 resume ++ List.replicate 5 deliver ++ List.replicate 6 resume ++
    List.replicate 2 deliver ++ List.replicate 3 resume ++ List.replicate 5 deliver ++
    [reply, reply, resume, reply, .fire .deadline, resume, resume]

end FakeDevice

open FakeDevice in
/-- A read of the tests' device up to its outcome, the report and the time of its delivery. -/
theorem System.served_read_recorded : ∃ tr os s,
    (system primitives peripheral fun _ => initializationVector).Runs (fun _ => Calm)
      (new primitives address credentials) tr os s ∧
    ∃ outcome ∈ outcomes os, s.device.requested = (turns pairingRequest).map Turn.frame ∧
      ∃ times : List Rat, times.length = 1 ∧ outcome = .ok (reported [report] times) := by
  have hx : ((system primitives peripheral fun _ => initializationVector).execWhere
      (fun _ => Calm) [] [] (new primitives address credentials) read).map
        (fun r => (outcomes r.2.1).length) = some 1 := by decide +kernel
  obtain ⟨⟨tr, os, s⟩, he, hlength⟩ := Option.map_eq_some_iff.1 hx
  obtain ⟨outcome, houtcome⟩ := List.length_eq_one_iff.1 hlength
  have hm : outcome ∈ outcomes os := houtcome ▸ List.mem_singleton_self _
  have hruns := Machine.runs_of_execWhere he
  obtain ⟨-, -, hread⟩ := served_read peripheral_serves hruns
  obtain ⟨hrequested, times, htimes, -, hreported⟩ := hread outcome hm
  exact ⟨tr, os, s, hruns, outcome, hm, hrequested, times, htimes, hreported⟩

end TuyaBle
