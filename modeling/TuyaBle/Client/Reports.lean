import TuyaBle.Client.Keying
import TuyaBle.FakeDevice

/-!
# The reports of a read

What a read returns is what has been reported under its session key, and every such
report is acknowledged: as long as none comes before the task has adopted the key or in
the place of a reply, none comes under another key, and the final timeout finds the queue
empty.
-/

namespace TuyaBle

/-- The datapoints of a report; `none` for any other frame and for an empty report. -/
def reportOf (frame : Frame) (clock : Clock) : Option (List DataPoint) :=
  let parsed : Except PyException (List DataPoint) :=
    match TuyaBleCommandCode.fromValue frame.code with
    | some .receiveDataPoint => parseDataPoints frame.data 0 clock.time
    | some .receiveTimeDataPoint => do
      let (timestamp, position) ← parseTimestamp frame.data 0
      parseDataPoints frame.data position timestamp
    | _ => .ok []
  match parsed with
  | .ok [] | .error _ => none
  | .ok dataPoints => some dataPoints

namespace World

/-- The session key, from the delivery of the device information on. -/
def sessionKeyDue (P : Primitives) (w : World) : Option AesKey :=
  match w.self.sessionKey, w.session.request? with
  | some key, _ => some key
  | none, none => none
  | none, some request =>
    match request.code, w.futures[request.pending]? with
    | .senderDeviceInfo, some (.done reply) =>
      match parseDeviceInfo reply.data with
      | .ok info => some (sessionKey P w.self.credentials.localKey info.srand)
      | .error _ => none
    | _, _ => none

/-- The frame a notification completes, if it is encrypted with the session key `key`. -/
def frameUnder (P : Primitives) (w : World) (key : AesKey) (chunk : Bytes) : Option Frame :=
  match (w.self.reassembler.feed chunk).2 with
  | .ok (some payload) =>
    if securityFlagOf payload = .ok securityFlagSessionKey then
      (Frame.decode P payload key).toOption
    else none
  | _ => none

/-- The report a notification completes under the session key, before the final timeout. -/
def report (P : Primitives) (w : World) (chunk : Bytes) (clock : Clock) :
    Option (Frame × List DataPoint) :=
  if w.interrupt = some .deadline then none
  else do
    let key ← w.sessionKeyDue P
    let frame ← w.frameUnder P key chunk
    let dataPoints ← reportOf frame clock
    return (frame, dataPoints)

/-- The report the client takes from a notification. -/
def taken (P : Primitives) (w : World) (chunk : Bytes) (clock : Clock) :
    Option (List DataPoint) :=
  match (w.self.receive P chunk).2 with
  | .ok (some frame) => if w.awaited frame = none then reportOf frame clock else none
  | _ => none

/-- The report an event delivers. -/
def delivers (P : Primitives) (w : World) : Event → Option (List DataPoint)
  | .notify chunk clock => (w.report P chunk clock).map Prod.snd
  | _ => none

end World

/-- The reports delivered along a run, in order. -/
def delivered (P : Primitives) (tr : List (World × Event)) : List (List DataPoint) :=
  tr.filterMap fun p => p.1.delivers P p.2

/-- The mapping of the read that waits for its reports. -/
def Session.collected? : Session → Option (Dict Nat DataPoint)
  | .collecting collected => some collected
  | _ => none

/-- A report comes under the key the client uses by then and answers no request, nothing
else is taken for one while the read collects, and the final timeout finds none left. -/
def Collected (P : Primitives) (w : World) : Event → Prop
  | .notify chunk clock =>
    (∀ r ∈ w.report P chunk clock, w.self.sessionKey ≠ none ∧ w.awaited r.1 = none) ∧
      (w.report P chunk clock = none →
        w.interrupt ≠ none ∨ w.session.over ∨ w.taken P chunk clock = none)
  | .fire .deadline => w.session.collected? ≠ none → w.self.reports = []
  | _ => True

instance : (s : Session) → Decidable s.over
  | .idle | .disconnecting _ => .isTrue trivial
  | .connecting | .subscribing | .requesting _ | .sending .. | .writing .. | .replyDue _
  | .waiting _ | .replied .. | .failed .. | .draining _ | .collecting _ | .leaving _ => .isFalse id

instance (P : Primitives) (w : World) : (e : Event) → Decidable (Collected P w e)
  | .notify chunk clock => inferInstanceAs (Decidable ((∀ r ∈ w.report P chunk clock, _) ∧ _))
  | .fire .deadline => inferInstanceAs (Decidable (_ → _))
  | .startRead | .resume .. | .fire .session | .fire .caller | .replyStart .. | .replyWritten .. =>
    .isTrue trivial

namespace Reports

variable {P : Primitives} {tr : List (World × Event)} {os os' : List Obs} {w w' : World}
  {chunk : Bytes} {clock : Clock} {frame : Frame} {dataPoints : List DataPoint}

/-! ## What a notification adds to the queue -/

theorem reportOf_eq_none (h : commandOf frame clock = none) : reportOf frame clock = none := by
  unfold commandOf at h
  unfold reportOf
  cases hc : TuyaBleCommandCode.fromValue frame.code with
  | none => rfl
  | some code =>
    cases code with
    | receiveDataPoint =>
      simp only [hc] at h ⊢
      cases hp : parseDataPoints frame.data 0 clock.time with
      | error e => rfl
      | ok dataPoints => simp [hp] at h
    | receiveTimeDataPoint =>
      simp only [hc] at h ⊢
      cases ht : parseTimestamp frame.data 0 with
      | error e => rfl
      | ok r =>
        obtain ⟨timestamp, position⟩ := r
        simp only [ht] at h
        simp only [bind, Except.bind]
        cases hp : parseDataPoints frame.data position timestamp with
        | error e => rfl
        | ok dataPoints => simp [hp] at h
    | _ => rfl

/-- The queue entries of a command are its report, which is answered with no data. -/
theorem queued_of_commandOf {data : Bytes} (h : commandOf frame clock = some (dataPoints, data)) :
    (reportOf frame clock).toList = queued dataPoints ∧ (dataPoints ≠ [] → data = []) := by
  unfold commandOf at h
  unfold reportOf
  split at h
  · rename_i hc
    split at h
    · rename_i hp
      cases h
      simp only [hc, hp]
      cases dataPoints <;> simp [queued]
    · cases h
  · rename_i hc
    split at h
    · rename_i timestamp position ht
      split at h
      · rename_i hp
        cases h
        simp only [hc, ht, hp, bind, Except.bind]
        cases dataPoints <;> simp [queued]
      · cases h
    · cases h
  · rename_i hc
    split at h <;> cases h
    simp [hc, queued]
  · rename_i hc
    split at h <;> cases h
    simp [hc, queued]
  · cases h

/-- **What a notification adds to the queue** is the report it is taken for. -/
theorem reports_of_notified (h : World.Notified P w chunk clock w' os) :
    w'.self.reports = w.self.reports ++ (w.taken P chunk clock).toList := by
  cases h with
  | quiet hr =>
    have : w.taken P chunk clock = none := by
      unfold World.taken
      split
      · exact absurd ‹_› (hr _)
      · rfl
    rw [this]
    exact (List.append_nil _).symm
  | completed frame future hr ha =>
    simp only [World.taken, hr, ha]
    exact (List.append_nil _).symm
  | ignored frame hr ha hc =>
    simp only [World.taken, hr, ha, reportOf_eq_none hc]
    exact (List.append_nil _).symm
  | handled frame dataPoints data hr ha hc =>
    simp only [World.taken, hr, ha, ↓reduceIte, (queued_of_commandOf hc).1]
    rfl

theorem report_eq_some :
    w.report P chunk clock = some (frame, dataPoints) ↔
      w.interrupt ≠ some .deadline ∧ (∃ key, w.sessionKeyDue P = some key ∧
        w.frameUnder P key chunk = some frame) ∧ reportOf frame clock = some dataPoints := by
  unfold World.report
  split
  · rename_i h
    simp [h]
  · rename_i h
    simp only [Option.bind_eq_bind, Option.bind_eq_some_iff, Option.pure_def, Option.some.injEq,
      Prod.mk.injEq]
    constructor
    · rintro ⟨key, hk, _, hf, _, hr, rfl, rfl⟩
      exact ⟨h, ⟨key, hk, hf⟩, hr⟩
    · rintro ⟨-, ⟨key, hk, hf⟩, hr⟩
      exact ⟨key, hk, _, hf, _, hr, rfl, rfl⟩

/-- A frame under the session key is read once the client has the key. -/
theorem receive_of_frameUnder {key : AesKey} (hk : w.self.sessionKey = some key)
    (h : w.frameUnder P key chunk = some frame) :
    (w.self.receive P chunk).2 = .ok (some frame) := by
  unfold World.frameUnder at h
  unfold TuyaBleClient.receive
  split at h
  · rename_i payload hf
    split at h
    · rename_i hflag
      split
      · rename_i hf'
        rw [hf'] at hf
        cases hf
      · rename_i hf'
        rw [hf'] at hf
        cases hf
      · rename_i reassembler payload' hf'
        rw [hf'] at hf
        cases hf
        have hkey : w.self.keyFor securityFlagSessionKey = some key := hk
        cases hd : Frame.decode P payload key with
        | error e => simp [hd, Except.toOption] at h
        | ok frame' =>
          obtain rfl : frame' = frame := by simpa [hd, Except.toOption] using h
          simp only [TuyaBleClient.readPayload, hflag, hkey, hd, bind, Except.bind]
          rfl
    · cases h
  · cases h

/-- A report is read under the key it came with, and is handed to no request. -/
theorem receive_of_report (hc : Collected P w (.notify chunk clock))
    (hr : w.report P chunk clock = some (frame, dataPoints)) :
    (w.self.receive P chunk).2 = .ok (some frame) ∧ w.awaited frame = none ∧
      reportOf frame clock = some dataPoints := by
  obtain ⟨-, ⟨key, hdue, hframe⟩, hreport⟩ := report_eq_some.1 hr
  obtain ⟨hne, hawaited⟩ := hc.1 _ hr
  obtain ⟨key', hkey⟩ := Option.ne_none_iff_exists'.1 hne
  have : World.sessionKeyDue P w = some key' := by simp only [World.sessionKeyDue, hkey]
  obtain rfl : key' = key := Option.some.inj (this.symm.trans hdue)
  exact ⟨receive_of_frameUnder hkey hframe, hawaited, hreport⟩

/-- The two notions of a report agree while the read collects. -/
theorem taken_of_collected (hc : Collected P w (.notify chunk clock)) (hi : w.interrupt = none)
    (ho : ¬ w.session.over) : w.taken P chunk clock = w.delivers P (.notify chunk clock) := by
  simp only [World.delivers]
  cases hr : w.report P chunk clock with
  | some r =>
    obtain ⟨frame, dataPoints⟩ := r
    obtain ⟨hreceive, hawaited, hreport⟩ := receive_of_report hc hr
    simp only [World.taken, hreceive, hawaited, ↓reduceIte, hreport, Option.map_some]
  | none => exact (((hc.2 hr).resolve_left (not_not_intro hi)).resolve_left ho).trans rfl

/-- No session key is due before the device information nor after the teardown. -/
theorem delivers_of_over {credentials : TuyaBleCredentials} (h : w.Keying P credentials)
    (ho : w.session.over) (e : Event) : w.delivers P e = none := by
  have hnone : w.self.sessionKey = none ∧ w.session.request? = none := by
    cases hs : w.session with
    | idle => exact ⟨h.unkeyed (by rw [hs]; trivial), rfl⟩
    | disconnecting outcome => exact ⟨h.unkeyed (by rw [hs]; trivial), rfl⟩
    | _ => rw [hs] at ho; exact ho.elim
  cases e with
  | notify chunk clock =>
    have hdue : w.sessionKeyDue P = none := by simp only [World.sessionKeyDue, hnone]
    simp only [World.delivers, World.report, hdue]
    split <;> rfl
  | _ => rfl

theorem delivers_of_deadline (hi : w.interrupt = some .deadline) (e : Event) :
    w.delivers P e = none := by
  cases e with
  | notify chunk clock => simp [World.delivers, World.report, hi]
  | _ => rfl

/-! ## What the read has gathered -/

/-- The mapping of everything delivered. -/
def gathered (P : Primitives) (tr : List (World × Event)) : Dict Nat DataPoint :=
  Dict.setAll DataPoint.identifier [] (delivered P tr).flatten

theorem delivered_snoc (tr : List (World × Event)) (w : World) (e : Event) :
    delivered P (tr ++ [(w, e)]) = delivered P tr ++ (w.delivers P e).toList := by
  simp only [delivered, List.filterMap_append, List.filterMap_cons, List.filterMap_nil]
  cases w.delivers P e <;> rfl

theorem gathered_snoc (tr : List (World × Event)) (w : World) (e : Event) :
    gathered P (tr ++ [(w, e)]) =
      Dict.setAll DataPoint.identifier (gathered P tr) (w.delivers P e).toList.flatten := by
  rw [gathered, delivered_snoc, List.flatten_append, Dict.setAll_append, gathered]

/-- What has been delivered is what the task has collected and what is queued. -/
def Stage (P : Primitives) (tr : List (World × Event)) (w : World) : Prop :=
  match w.session with
  | .connecting | .subscribing | .writing .. | .waiting _ =>
    w.interrupt = none → w.self.reports = delivered P tr
  | .requesting _ | .sending .. | .replyDue _ | .replied .. =>
    w.interrupt = none ∧ w.self.reports = delivered P tr
  | .draining collected =>
    w.interrupt = none ∧
      Dict.setAll DataPoint.identifier collected w.self.reports.flatten = gathered P tr
  | .collecting collected =>
    (w.interrupt = none →
      Dict.setAll DataPoint.identifier collected w.self.reports.flatten = gathered P tr) ∧
    (w.interrupt = some .deadline → collected = gathered P tr)
  | .leaving (.ok collected) | .disconnecting (.ok collected) => collected = gathered P tr
  | _ => True

structure Inv (P : Primitives) (credentials : TuyaBleCredentials) (tr : List (World × Event))
    (os : List Obs) (w : World) : Prop where
  keying : w.Keying P credentials
  stage : Stage P tr w
  ended : ∀ outcome, .ended outcome ∈ os → w.session = .idle ∧
    ∀ collected, outcome = .ok collected → collected = gathered P tr

/-! ## The steps -/

variable {credentials : TuyaBleCredentials}

/-- Steps that deliver no report. -/
theorem Inv.silent (h : Inv P credentials tr os w) {e : Event} (he : w.delivers P e = none) :
    Inv P credentials (tr ++ [(w, e)]) os w := by
  have hd : delivered P (tr ++ [(w, e)]) = delivered P tr := by
    rw [delivered_snoc, he]
    exact List.append_nil _
  have hg : gathered P (tr ++ [(w, e)]) = gathered P tr := by rw [gathered, hd, gathered]
  refine ⟨h.keying, ?_, by rw [hg]; exact h.ended⟩
  have := h.stage
  unfold Stage at this ⊢
  rw [hd, hg]
  exact this

/-- Steps of a read that goes on. -/
theorem Inv.of_stage (h : Inv P credentials tr os w) (hk : w'.Keying P credentials)
    (hs : Stage P tr w') (hne : w.session ≠ .idle) (hos : ∀ outcome, .ended outcome ∉ os') :
    Inv P credentials tr (os ++ os') w' :=
  ⟨hk, hs, fun outcome hm => (List.mem_append.1 hm).elim
    (fun hm => absurd (h.ended outcome hm).1 hne) (fun hm => absurd hm (hos outcome))⟩

/-- The step that ends the read. -/
theorem Inv.of_end (h : Inv P credentials tr os w) (hk : w'.Keying P credentials)
    (hs : w'.session = .idle) (hne : w.session ≠ .idle)
    (hos : ∀ outcome collected, .ended outcome ∈ os' → outcome = .ok collected →
      collected = gathered P tr) : Inv P credentials tr (os ++ os') w' :=
  ⟨hk, by unfold Stage; rw [hs]; trivial, fun outcome hm => ⟨hs, fun collected ho =>
    (List.mem_append.1 hm).elim (fun hm => absurd (h.ended outcome hm).1 hne)
      (fun hm => hos outcome collected hm ho)⟩⟩

theorem Inv.of_woken {r : Resumption} (h : Inv P credentials tr os w)
    (hw : World.Woken w r w' os') : Inv P credentials tr (os ++ os') w' := by
  have hk := h.keying.of_woken hw
  have hstage := h.stage
  have hne := hw.ne_idle
  cases hw with
  | connected link hi hs =>
    simp only [Stage, hs] at hstage
    exact h.of_stage hk hstage hne (by simp)
  | subscribed hi hs =>
    simp only [Stage, hs] at hstage
    exact h.of_stage hk ⟨hi, hstage hi⟩ hne (by simp)
  | connectFailed e hi hs he =>
    exact h.of_stage hk trivial hne (by simp)
  | connectTimedOut hi hs => exact h.of_stage hk trivial hne (by simp)
  | connectCancelled i hi hs =>
    exact h.of_stage hk trivial hne (by simp)
  | written request send hi hs hr =>
    simp only [Stage, hs] at hstage
    exact h.of_stage hk ⟨hi, hstage hi⟩ hne (by simp)
  | writeFailed request send e hi hs hr he =>
    exact h.of_stage hk trivial hne (by simp)
  | writeCancelled i request send hi hs =>
    exact h.of_stage hk trivial hne (by simp)
  | replied request hi hs hf =>
    simp only [Stage, hs] at hstage
    exact h.of_stage hk ⟨hi, hstage hi⟩ hne (by simp)
  | waitEnded i request hi hs => exact h.of_stage hk trivial hne (by simp)
  | reported collected hi hs hr =>
    simp only [Stage, hs] at hstage
    exact h.of_stage hk ⟨hi, hstage.1 hi⟩ hne (by simp)
  | quiet collected hi hs =>
    simp only [Stage, hs] at hstage
    exact h.of_stage hk (hstage.2 hi) hne (by simp)
  | collectCancelled i collected hi hd hs =>
    exact h.of_stage hk trivial hne (by simp)
  | disconnected outcome hi hs =>
    refine h.of_end hk rfl hne fun outcome' collected hm ho => ?_
    obtain rfl := Obs.ended.inj (List.mem_singleton.1 hm)
    subst ho
    simp only [Stage, hs] at hstage
    exact hstage
  | disconnectCancelled i outcome hi hd hs =>
    refine h.of_end hk rfl hne fun outcome' collected hm ho => ?_
    rw [Obs.ended.inj (List.mem_singleton.1 hm)] at ho
    cases ho

theorem drain_eq (w : World) (collected : Dict Nat DataPoint) :
    w.drain collected = ({ w with
      self := { w.self with reports := [] }
      session := .collecting
        (Dict.setAll DataPoint.identifier collected w.self.reports.flatten) }, []) := by
  simp only [World.drain, Dict.foldl_setAll]

/-- The deadline of the session makes no mapping of an error. -/
theorem ok_of_outcomeOf {outcome : Outcome} {collected : Dict Nat DataPoint}
    (h : w.outcomeOf outcome = .ok collected) : outcome = .ok collected := by
  cases outcome with
  | ok c => exact h
  | error e =>
    simp only [World.outcomeOf] at h
    split at h <;> split at h <;> cases h

theorem Inv.of_advanced {iv : InitializationVector} (h : Inv P credentials tr os w)
    (ha : World.Advanced P w iv w' os') : Inv P credentials tr (os ++ os') w' := by
  have hk := h.keying.of_advanced ha
  have hstage := h.stage
  have hne := ha.ne_idle
  cases ha with
  | requestFailed call e hs hf => exact h.of_stage hk trivial hne (by simp)
  | requestSending call key send hs _ hf =>
    simp only [Stage, hs] at hstage
    exact h.of_stage hk hstage hne (by simp)
  | sent request send hs hr =>
    simp only [Stage, hs] at hstage
    exact h.of_stage hk hstage hne (by simp)
  | wrote request send packet rest hs hr =>
    simp only [Stage, hs] at hstage
    exact h.of_stage hk (fun _ => hstage.2) hne (by simp)
  | returned request reply hs hf =>
    simp only [Stage, hs] at hstage
    exact h.of_stage hk hstage hne (by simp)
  | replyCancelled request hs hf => exact h.of_stage hk trivial hne (by simp)
  | waiting request hs hf =>
    simp only [Stage, hs] at hstage
    exact h.of_stage hk (fun _ => hstage.2) hne (by simp)
  | failed request e hs => exact h.of_stage hk trivial hne (by simp)
  | refused code reply e hs hr => exact h.of_stage hk trivial hne (by simp)
  | adopted reply info data hs hp hb =>
    simp only [Stage, hs] at hstage
    exact h.of_stage hk hstage hne (by simp)
  | adoptedOnly reply info e hs hp hb => exact h.of_stage hk trivial hne (by simp)
  | paired reply hs hp =>
    simp only [Stage, hs] at hstage
    exact h.of_stage hk hstage hne (by simp)
  | acknowledged code reply hs hi hp =>
    simp only [Stage, hs] at hstage
    exact h.of_stage hk ⟨hstage.1, congrArg (fun r => Dict.setAll _ [] (List.flatten r)) hstage.2⟩
      hne (by simp)
  | drained collected hs =>
    simp only [Stage, hs] at hstage
    rw [drain_eq] at hk ⊢
    exact h.of_stage hk ⟨fun _ => hstage.2, fun hi => nomatch hstage.1.symm.trans hi⟩ hne
      (by simp)
  | reset outcome link hs hc =>
    refine h.of_stage hk ?_ hne (by simp [World.cancelled])
    simp only [Stage]
    cases ho : w.outcomeOf outcome with
    | error e => trivial
    | ok collected =>
      simp only [Stage, hs, ok_of_outcomeOf ho] at hstage
      exact hstage
  | ended outcome hs hc =>
    refine h.of_end hk rfl hne fun outcome' collected hm ho => ?_
    obtain rfl : outcome' = w.outcomeOf outcome := by simpa [World.cancelled] using hm
    simp only [Stage, hs, ok_of_outcomeOf ho] at hstage
    exact hstage

theorem Inv.of_fire {i : Interrupt} (h : Inv P credentials tr os w)
    (hc : Collected P w (.fire i)) (hr : w.session.running = false)
    (hf : w.fire i = some (w', os')) : Inv P credentials tr (os ++ os') w' := by
  have hk := h.keying.of_fire hf
  obtain ⟨hreaches, rfl, futures, rfl, -⟩ := World.fire_eq hf
  have hne : w.session ≠ .idle := by
    intro hs
    rw [hs] at hreaches
    cases i <;> cases hreaches
  refine h.of_stage hk ?_ hne (by simp)
  have hstage := h.stage
  unfold Stage at hstage ⊢
  cases hs : w.session with
  | collecting collected =>
    rw [hs] at hstage
    refine ⟨fun hi => (nomatch hi), fun hi => ?_⟩
    -- only the final timeout itself leaves a deadline on record
    cases hw : w.interrupt with
    | none =>
      obtain rfl : i = .deadline := by
        rw [hw] at hi
        cases i with
        | deadline => rfl
        | session => cases hi
        | caller => cases hi
      have hempty : w.self.reports = [] := hc (by rw [hs]; exact Option.some_ne_none _)
      have hgathered := hstage.1 hw
      rw [hempty] at hgathered
      exact hgathered
    | some j =>
      rw [hw] at hi
      cases j with
      | deadline => exact hstage.2 hw
      | session => cases i <;> cases hi
      | caller => cases i <;> cases hi
  | requesting call => rw [hs] at hr; cases hr
  | sending request send => rw [hs] at hr; cases hr
  | replyDue request => rw [hs] at hr; cases hr
  | replied code reply => rw [hs] at hr; cases hr
  | draining collected => rw [hs] at hr; cases hr
  | leaving outcome => rw [hs] at hr; cases hr
  | disconnecting outcome =>
    rw [hs] at hstage
    cases outcome <;> exact hstage
  | connecting => exact fun hi => nomatch hi
  | subscribing => exact fun hi => nomatch hi
  | writing request send => exact fun hi => nomatch hi
  | waiting request => exact fun hi => nomatch hi
  | _ => trivial

theorem Inv.of_notified (h : Inv P credentials tr os w) (hc : Collected P w (.notify chunk clock))
    (hr : w.session.running = false) (hn : World.Notified P w chunk clock w' os') :
    Inv P credentials (tr ++ [(w, .notify chunk clock)]) (os ++ os') w' := by
  have hk := h.keying.of_notified hn
  have hq := reports_of_notified hn
  have hsame : w'.session = w.session ∧ w'.interrupt = w.interrupt ∧
      ∀ outcome, .ended outcome ∉ os' := by
    cases hn <;> exact ⟨rfl, rfl, by simp [TuyaBleClient.handledObs]⟩
  obtain ⟨hs, hi, hos⟩ := hsame
  by_cases ho : w.session.over
  · have hsilent := h.silent (delivers_of_over h.keying ho (.notify chunk clock))
    have hstage := hsilent.stage
    refine ⟨hk, ?_, fun outcome hm => ?_⟩
    · unfold Stage at hstage ⊢
      rw [hs]
      cases hw : w.session with
      | idle => trivial
      | disconnecting outcome => rw [hw] at hstage; cases outcome <;> exact hstage
      | _ => rw [hw] at ho; exact ho.elim
    · rw [hs]
      exact hsilent.ended outcome ((List.mem_append.1 hm).resolve_right (hos outcome))
  · have hne : w.session ≠ .idle := fun hs => ho (by rw [hs]; trivial)
    have hnone : ∀ outcome, .ended outcome ∉ os ++ os' := fun outcome hm =>
      (List.mem_append.1 hm).elim (fun hm => hne (h.ended outcome hm).1) (hos outcome)
    refine ⟨hk, ?_, fun outcome hm => absurd hm (hnone outcome)⟩
    have hstage := h.stage
    have hqueue : w.interrupt = none → w.self.reports = delivered P tr →
        w'.self.reports = delivered P (tr ++ [(w, .notify chunk clock)]) := fun hi hd => by
      rw [hq, taken_of_collected hc hi ho, delivered_snoc, hd]
    unfold Stage at hstage ⊢
    rw [hs]
    cases hw : w.session with
    | connecting => rw [hw] at hstage; exact fun h => hqueue (hi ▸ h) (hstage (hi ▸ h))
    | subscribing => rw [hw] at hstage; exact fun h => hqueue (hi ▸ h) (hstage (hi ▸ h))
    | writing request send => rw [hw] at hstage; exact fun h => hqueue (hi ▸ h) (hstage (hi ▸ h))
    | waiting request => rw [hw] at hstage; exact fun h => hqueue (hi ▸ h) (hstage (hi ▸ h))
    | collecting collected =>
      rw [hw] at hstage
      refine ⟨fun h => ?_, fun h => ?_⟩
      · have h : w.interrupt = none := hi ▸ h
        rw [hq, taken_of_collected hc h ho, List.flatten_append, Dict.setAll_append, gathered_snoc]
        exact congrArg (fun d => Dict.setAll _ d _) (hstage.1 h)
      · have h : w.interrupt = some .deadline := hi ▸ h
        rw [gathered_snoc, delivers_of_deadline h]
        exact hstage.2 h
    | idle => exact absurd hw hne
    | disconnecting outcome => rw [hw] at ho; exact absurd trivial ho
    | requesting call => rw [hw] at hr; cases hr
    | sending request send => rw [hw] at hr; cases hr
    | replyDue request => rw [hw] at hr; cases hr
    | replied code reply => rw [hw] at hr; cases hr
    | draining collected => rw [hw] at hr; cases hr
    | failed request e => rw [hw] at hr; cases hr
    | leaving outcome => rw [hw] at hr; cases hr

theorem Inv.of_replied {e : Event} (h : Inv P credentials tr os w)
    (hr : World.Replied P w e w' os') : Inv P credentials (tr ++ [(w, e)]) (os ++ os') w' := by
  have hk := h.keying.of_replied hr
  have hsilent := h.silent (e := e) (by cases hr <;> rfl)
  have hos : ∀ outcome, .ended outcome ∉ os' := fun outcome hm => hr.ofSend _ hm
  obtain ⟨background, rfl, -⟩ := hr.frame
  exact ⟨hk, hsilent.stage, fun outcome hm =>
    hsilent.ended outcome ((List.mem_append.1 hm).resolve_right (hos outcome))⟩

theorem inv_keeps : Keeps P (fun _ w e => Collected P w e ∧ w.session.running = false)
    fun tr os w => Inv P credentials tr os w where
  wakeUp h _ hw := (h.silent rfl).of_woken hw
  advance h ha := h.of_advanced ha
  fire h hc hf := (h.silent rfl).of_fire hc.1 hc.2 hf
  notify h hc hn := h.of_notified hc.1 hc.2 hn
  reply h _ hr := h.of_replied hr

/-- **A report is published and acknowledged** in the step that delivers it. -/
theorem notify_report (hc : Collected P w (.notify chunk clock))
    (hr : w.report P chunk clock = some (frame, dataPoints)) : ∃ w' reply,
    (machine P).step w (.notify chunk clock) = some (w', [.received frame, .published dataPoints,
      .built reply, .scheduled reply]) ∧ reply.responseTo = frame.sequenceNumber := by
  obtain ⟨hreceive, hawaited, hreport⟩ := receive_of_report hc hr
  have hn := World.onNotification_notified P w chunk clock
  refine ⟨(w.onNotification P chunk clock).1, w.self.responseTo frame [], ?_, rfl⟩
  have hobs : (w.onNotification P chunk clock).2 = [.received frame, .published dataPoints,
      .built (w.self.responseTo frame []), .scheduled (w.self.responseTo frame [])] := by
    generalize (w.onNotification P chunk clock).1 = w',
      (w.onNotification P chunk clock).2 = os at hn ⊢
    cases hn with
    | quiet hq => exact absurd hreceive (hq frame)
    | completed frame' future hr' ha =>
      cases hreceive.symm.trans hr'
      exact nomatch hawaited.symm.trans ha
    | ignored frame' hr' ha hcmd =>
      cases hreceive.symm.trans hr'
      exact nomatch hreport.symm.trans (reportOf_eq_none hcmd)
    | handled frame' dataPoints' data hr' ha hcmd =>
      cases hreceive.symm.trans hr'
      obtain ⟨hqueued, hdata⟩ := queued_of_commandOf hcmd
      rw [hreport] at hqueued
      unfold queued at hqueued
      split at hqueued
      · cases hqueued
      · rename_i hne
        cases hqueued
        simp [TuyaBleClient.handledObs, queued, hne, hdata hne]
  exact congrArg some (Prod.ext rfl hobs)

end Reports

variable {P : Primitives} {address : String} {credentials : TuyaBleCredentials}

/-- **No report is lost** in a read that starts with an empty queue and returns: each report
delivered is acknowledged once, quoting its number, and the mapping holds the last datapoint
of each identifier over all of them. -/
theorem reports_collected {w0 w : World} {tr : List (World × Event)} {os : List Obs}
    (h0 : (machine P).Reachable (.new P address credentials) w0) (hidle : w0.session = .idle)
    (hempty : w0.self.reports = [])
    (h : (machine P).Runs (WithinRead fun _ w e => Collected P w e) w0.reading tr os w)
    {collected : Dict Nat DataPoint} (hended : .ended (.ok collected) ∈ os) :
    (∀ w chunk clock frame dataPoints, (w, .notify chunk clock) ∈ tr →
      w.report P chunk clock = some (frame, dataPoints) → ∃ w' reply,
        (machine P).step w (.notify chunk clock) = some (w', [.received frame,
          .published dataPoints, .built reply, .scheduled reply]) ∧
        reply.responseTo = frame.sequenceNumber) ∧
      ∀ identifier, collected.get? identifier =
        (delivered P tr).flatten.reverse.find? fun d => d.identifier = identifier := by
  have hsuspended := Keeps.runs_suspended h rfl
  have hstart : Reports.Inv P credentials [] [] w0.reading :=
    ⟨(World.Keying.of_reachable h0).of_reading hidle, fun _ => hempty, by simp⟩
  have hinv := Reports.inv_keeps.runs hsuspended hstart
  refine ⟨fun w chunk clock frame dataPoints hm hr =>
    Reports.notify_report (h.of_mem hm).2 hr, fun identifier => ?_⟩
  rw [(hinv.ended _ hended).2 collected rfl, Reports.gathered, Dict.get?_setAll]
  exact Option.or_none

open FakeDevice in
theorem reports_collected_session : ∃ tr os w collected,
    (machine primitives).execWhere (WithinRead fun _ w e => Collected primitives w e) [] []
      client.reading session = some (tr, os, w) ∧ .ended (.ok collected) ∈ os ∧
    (∀ w chunk clock frame dataPoints, (w, .notify chunk clock) ∈ tr →
      w.report primitives chunk clock = some (frame, dataPoints) → ∃ w' reply,
        (machine primitives).step w (.notify chunk clock) = some (w', [.received frame,
          .published dataPoints, .built reply, .scheduled reply]) ∧
        reply.responseTo = frame.sequenceNumber) ∧
      ∀ identifier, collected.get? identifier =
        (delivered primitives tr).flatten.reverse.find? fun d => d.identifier = identifier := by
  have hx : ((machine primitives).execWhere (WithinRead fun _ w e => Collected primitives w e) [] []
      client.reading session).map (fun r => (outcomes r.2.1).map Except.isOk) = some [true] := by
    decide +kernel
  obtain ⟨⟨tr, os, w⟩, he, hok⟩ := Option.map_eq_some_iff.1 hx
  obtain ⟨outcome, hm, hok⟩ := List.mem_map.1
    (show true ∈ (outcomes os).map Except.isOk from hok ▸ List.mem_singleton_self _)
  cases outcome with
  | error e => cases hok
  | ok collected =>
    have hended := mem_outcomes.1 hm
    exact ⟨tr, os, w, collected, he, hended,
      reports_collected (.refl _) rfl rfl (Machine.runs_of_execWhere he) hended⟩

/-- A session in which the report comes after the device information and before the task
has used it. -/
def earlyReport : List Event :=
  [FakeDevice.connected, FakeDevice.subscribed, FakeDevice.written, FakeDevice.written,
   FakeDevice.send ⟨101, 1, 0, FakeDevice.buildDeviceInfo 3⟩ true,
   FakeDevice.send ⟨104, 0, 0x8001, FakeDevice.report⟩, FakeDevice.woken,
   FakeDevice.written, FakeDevice.written, FakeDevice.written, FakeDevice.written,
   FakeDevice.written, FakeDevice.send ⟨102, 2, 1, [2]⟩, FakeDevice.woken, FakeDevice.written,
   FakeDevice.written, FakeDevice.send ⟨103, 3, 3, [0]⟩, FakeDevice.woken,
   .fire .deadline, FakeDevice.woken, FakeDevice.disconnected]

open FakeDevice in
/-- It is dropped, and the read returns an empty mapping. -/
theorem early_report_is_dropped : ¬ ∀ tr os w collected,
    (machine primitives).Runs (WithinRead Machine.Free) client.reading tr os w →
    .ended (.ok collected) ∈ os →
    ∀ identifier, collected.get? identifier =
      (delivered primitives tr).flatten.reverse.find? fun d => d.identifier = identifier := by
  intro h
  have hx : ((machine primitives).execWhere (WithinRead Machine.Free) [] [] client.reading
      earlyReport).map (fun r => (outcomes r.2.1,
        ((delivered primitives r.1).flatten.reverse.find? fun d => d.identifier = 3).isSome)) =
      some ([.ok []], true) := by decide +kernel
  obtain ⟨⟨tr, os, w⟩, he, hlost⟩ := Option.map_eq_some_iff.1 hx
  obtain ⟨houtcomes, hdelivered⟩ := Prod.mk.inj hlost
  have hended : .ended (.ok []) ∈ os := mem_outcomes.1 (houtcomes ▸ List.mem_singleton_self _)
  have hcollected := h tr os w [] (Machine.runs_of_execWhere he) hended 3
  simp only [← hcollected] at hdelivered
  cases hdelivered

end TuyaBle
