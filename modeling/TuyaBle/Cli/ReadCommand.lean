import TuyaBle.Cli
import TuyaBle.Client.Machine
import TuyaBle.Cloud.Devices
import TuyaBle.FakeDevice
import TuyaBle.Lib.History

/-!
# Reading by address

The `read` command looks for the device before it reads it: the scanner runs until the
device advertises, and the client is made from that very advertisement. `wait_for` cancels
the future it waits for when the window ends, so an advertisement may still come too late
while the scanner is being stopped, or in time and be lost to the deadline.
-/

namespace TuyaBle

open Machine (Happened happened_now)

/-- What the command reads of the scanner's device. -/
structure BleDevice where
  address : String

/-- A device, with the advertisement it was detected by. -/
structure Sighting where
  device : BleDevice
  advertisement : AdvertisementData

/-- The arguments of `_async_read`. -/
structure ReadOptions where
  address : String
  deviceId : String
  localKey : String
  uuid : Option String
  /-- `seconds`, rounded as the message has it. -/
  window : String
  /-- `seconds` is not positive. -/
  immediate : Bool

/-- The future of `_async_first_advertisement`. -/
inductive Sought where
  | pending
  | sighted (sighting : Sighting)
  | cancelled

/-- Where `_async_first_advertisement` is suspended. -/
inductive ScanStage where
  /-- Await: `scanner.start()`. -/
  | starting
  /-- Await: `wait_for(found, seconds)`. -/
  | waiting
  /-- Await: the end of the future that `wait_for` cancels when there is no time to wait. -/
  | expiring
  /-- Await: `scanner.stop()`. -/
  | stopping (outcome : Except PyException Sighting)

structure Scan where
  stage : ScanStage
  found : Sought
  interrupt : Option Interrupt

inductive ReadCommand where
  | scanning (scan : Scan)
  | reading (world : World)
  | finished

inductive CommandEvent where
  | scanStarted (result : Except PyException Unit)
  /-- The scanner calls `_detected`. -/
  | detected (sighting : Sighting)
  /-- The window ends. -/
  | deadline
  /-- The command is cancelled before it reads. -/
  | cancel
  /-- The task goes on after its wait. -/
  | resume
  | scanStopped (result : Except PyException Unit)
  | client (e : Event)

inductive CommandObs where
  /-- `scanner.start()` has returned. -/
  | scans
  /-- `scanner.stop()` is called. -/
  | stops
  /-- `scanner.stop()` has returned. -/
  | stopped
  | client (o : Obs)
  | ended (outcome : Outcome)

/-! ## The commands' exceptions -/

def badParameter (message : String) (cause : Option ExceptionType := none) : PyException :=
  ⟨.other "BadParameter", message, cause⟩

def unseen (options : ReadOptions) : PyException :=
  badParameter s!"{options.address} did not advertise within {options.window}s"
    (some .timeoutError)

section
variable (wideUpper : Char → List Char) (P : Primitives) (options : ReadOptions)

/-- The device is the one to read. -/
def Wanted (sighting : Sighting) : Prop :=
  upper wideUpper sighting.device.address = upper wideUpper options.address

instance (sighting : Sighting) : Decidable (Wanted wideUpper options sighting) :=
  inferInstanceAs (Decidable (_ = _))

/-- `uuid or parse_advertisement(...).uuid`. -/
def uuidOrAdvertised (sighting : Sighting) : Except PyException (Option String) := do
  match options.uuid.filter (· ≠ "") with
  | some uuid => return some uuid
  | none =>
    let info ← parseAdvertisement P sighting.advertisement.serviceData
      sighting.advertisement.manufacturerData
    return info.uuid

/-- The uuid to read with. -/
def resolveUuid (sighting : Sighting) : Except PyException String := do
  let resolved ← uuidOrAdvertised P options sighting
  match resolved.filter (· ≠ "") with
  | some uuid => return uuid
  | none => .error (badParameter s!"{options.address} advertised no uuid; pass --uuid")

/-- The client of a command, when its read has just been started. -/
def clientFor (sighting : Sighting) (uuid : String) : World :=
  (World.new P sighting.device.address ⟨uuid, options.deviceId, options.localKey⟩).reading

namespace Scan

/-- The `finally` clause, up to its await. -/
def leave (scan : Scan) (outcome : Except PyException Sighting) :
    ReadCommand × List CommandObs :=
  (.scanning { scan with stage := .stopping outcome, interrupt := none }, [.stops])

/-- `wait_for`, up to its await if there is one. -/
def await (scan : Scan) : ReadCommand × List CommandObs :=
  match scan.found with
  | .sighted sighting => scan.leave (.ok sighting)
  | _ =>
    if options.immediate then (.scanning { scan with stage := .expiring, found := .cancelled }, [])
    else (.scanning { scan with stage := .waiting }, [])

def started (scan : Scan) (result : Except PyException Unit) :
    Option (ReadCommand × List CommandObs) :=
  match scan.stage with
  | .starting =>
    if scan.interrupt.isSome then some (.finished, [.ended (.error Interrupt.caller.raised)])
    else
      match result with
      | .error e => some (.finished, [.ended (.error e)])
      | .ok () =>
        let (command, os) := scan.await options
        some (command, .scans :: os)
  | _ => none

/-- `_detected`. -/
def detect (scan : Scan) (sighting : Sighting) : Scan :=
  match scan.found with
  | .pending => if Wanted wideUpper options sighting then { scan with found := .sighted sighting }
    else scan
  | _ => scan

/-- A cancellation of the task, which cancels the future it waits for if there is still one. -/
def fire (scan : Scan) (i : Interrupt) : Scan :=
  let found := match scan.stage, scan.found with
    | .waiting, .pending => .cancelled
    | _, found => found
  { scan with found, interrupt := some (Interrupt.outermost scan.interrupt i) }

/-- The wait ends, with the cancellation if there was one. -/
def resume (scan : Scan) : Option (ReadCommand × List CommandObs) :=
  match scan.stage, scan.interrupt with
  | .waiting, some .deadline | .expiring, none => some (scan.leave (.error (unseen options)))
  | .waiting, some _ | .expiring, some _ => some (scan.leave (.error Interrupt.caller.raised))
  | .waiting, none =>
    match scan.found with
    | .sighted sighting => some (scan.leave (.ok sighting))
    | _ => none
  | _, _ => none

/-- The scanner is off: the rest of `_async_read` up to its first await. -/
def connect (sighting : Sighting) : ReadCommand × List CommandObs :=
  match resolveUuid P options sighting with
  | .error e => (.finished, [.stopped, .ended (.error e)])
  | .ok uuid => (.reading (clientFor P options sighting uuid), [.stopped])

def stopped (scan : Scan) (result : Except PyException Unit) :
    Option (ReadCommand × List CommandObs) :=
  match scan.stage with
  | .stopping outcome =>
    if scan.interrupt.isSome then some (.finished, [.ended (.error Interrupt.caller.raised)])
    else
      match result, outcome with
      | .error e, _ => some (.finished, [.ended (.error e)])
      | .ok (), .error e => some (.finished, [.stopped, .ended (.error e)])
      | .ok (), .ok sighting => some (connect P options sighting)
  | _ => none

end Scan

namespace ReadCommand

def new : ReadCommand := .scanning ⟨.starting, .pending, none⟩

/-- What the client's outcome makes of the command. -/
def ofClient (w : World) (os : List Obs) : ReadCommand × List CommandObs :=
  match outcomes os with
  | [] => (.reading w, os.map .client)
  | outcome :: _ => (.finished, os.map .client ++ [.ended outcome])

def step : ReadCommand → CommandEvent → Option (ReadCommand × List CommandObs)
  | .scanning scan, .scanStarted result => scan.started options result
  | .scanning scan, .detected sighting =>
    some (.scanning (scan.detect wideUpper options sighting), [])
  | .reading w, .detected _ => some (.reading w, [])
  | .scanning scan, .deadline =>
    match scan.stage with
    | .waiting => some (.scanning (scan.fire .deadline), [])
    | _ => none
  | .scanning scan, .cancel => some (.scanning (scan.fire .caller), [])
  | .scanning scan, .resume => scan.resume options
  | .scanning scan, .scanStopped result => scan.stopped P options result
  | .reading w, .client e =>
    if e = .startRead then none
    else
      match w.step P e with
      | none => none
      | some (w', os) => some (ofClient w' os)
  | _, _ => none

end ReadCommand

def readCommand : Machine ReadCommand CommandEvent CommandObs where
  step := ReadCommand.step wideUpper P options

/-! ## What a command is held to -/

/-- The search is decided. -/
def EndsSearch (_ : ReadCommand) (e : CommandEvent) : Prop :=
  e = .deadline ∨ e = .cancel ∨
    ∃ sighting, e = .detected sighting ∧ Wanted wideUpper options sighting

/-- The first advertisement of the device, and nothing ended the search before it. -/
def Chosen (sighting : Sighting) (tr : List (ReadCommand × CommandEvent)) : Prop :=
  Machine.TookBefore (fun _ e => e = .detected sighting ∧ Wanted wideUpper options sighting)
    (EndsSearch wideUpper options) tr

/-- Why a command ends that has not read the device. -/
inductive Refused (tr : List (ReadCommand × CommandEvent)) : PyException → Prop where
  | cancelled : Happened .cancel tr → Refused tr Interrupt.caller.raised
  | unseen : options.immediate = true ∨ Happened .deadline tr → Refused tr (unseen options)
  | scanner (e : PyException) :
      Happened (.scanStarted (.error e)) tr ∨ Happened (.scanStopped (.error e)) tr → Refused tr e
  | unresolved (sighting : Sighting) (e : PyException) : Chosen wideUpper options sighting tr →
      resolveUuid P options sighting = .error e → Refused tr e

end

/-- What is seen of the client. -/
def clientPart (os : List CommandObs) : List Obs :=
  os.filterMap fun
    | .client o => some o
    | _ => none

/-- What may be observed after `past`: a scanner that has started is stopped once, before the
command ends, and has stopped before the client takes its first step; and nothing follows the
end of the command. -/
def Scanned (past : List CommandObs) (o : CommandObs) : Prop :=
  (∀ outcome, .ended outcome ∉ past) ∧
    match o with
    | .scans => past = []
    | .stops => .scans ∈ past ∧ .stops ∉ past
    | .stopped => .stops ∈ past ∧ .stopped ∉ past
    | .client _ => .stopped ∈ past
    | .ended _ => .scans ∈ past → .stops ∈ past

/-! ## The invariant -/

section
variable (wideUpper : Char → List Char) (P : Primitives) (options : ReadOptions)

/-- The outcome of a search. -/
def Searched (tr : List (ReadCommand × CommandEvent)) : Except PyException Sighting → Prop
  | .ok sighting => Chosen wideUpper options sighting tr
  | .error e => Refused wideUpper P options tr e

/-- Before the scanner is stopped, the future says whether the search is decided. -/
structure Scan.Inv (tr : List (ReadCommand × CommandEvent)) (scan : Scan) : Prop where
  pending : (∀ outcome, scan.stage ≠ .stopping outcome) → scan.interrupt = none →
    scan.found = .pending → ¬ Machine.Took (EndsSearch wideUpper options) tr
  sighted : (∀ outcome, scan.stage ≠ .stopping outcome) → scan.interrupt = none →
    ∀ sighting, scan.found = .sighted sighting → Chosen wideUpper options sighting tr
  deadline : scan.interrupt = some .deadline → scan.stage = .waiting ∧ Happened .deadline tr
  cancelled : ∀ i, scan.interrupt = some i → i ≠ .deadline → Happened .cancel tr
  expiring : scan.stage = .expiring → options.immediate = true
  stopping : ∀ outcome, scan.stage = .stopping outcome → Searched wideUpper P options tr outcome

/-- What is seen up to a stage. -/
def ScanStage.seen : ScanStage → List CommandObs
  | .starting => []
  | .waiting | .expiring => [.scans]
  | .stopping _ => [.scans, .stops]

/-- The observations of a command, by where it stands. -/
inductive ReadCommand.Inv (tr : List (ReadCommand × CommandEvent)) :
    ReadCommand → List CommandObs → Prop where
  | scanning (scan : Scan) : scan.Inv wideUpper P options tr →
      Inv tr (.scanning scan) scan.stage.seen
  | reading (sighting : Sighting) (uuid : String) (tr' : List (World × Event)) (cos : List Obs)
      (w : World) : Chosen wideUpper options sighting tr →
      resolveUuid P options sighting = .ok uuid →
      (machine P).Runs (WithinRead Machine.Free) (clientFor P options sighting uuid) tr' cos w →
      Inv tr (.reading w) ([.scans, .stops, .stopped] ++ cos.map .client)
  | read (sighting : Sighting) (uuid : String) (tr' : List (World × Event)) (cos : List Obs)
      (w : World) (outcome : Outcome) : Chosen wideUpper options sighting tr →
      resolveUuid P options sighting = .ok uuid →
      (machine P).Runs (WithinRead Machine.Free) (clientFor P options sighting uuid) tr' cos w →
      outcome ∈ outcomes cos →
      Inv tr .finished ([.scans, .stops, .stopped] ++ cos.map .client ++ [.ended outcome])
  | refused (past : List CommandObs) (e : PyException) :
      past ∈ [[], [.scans, .stops], [.scans, .stops, .stopped]] →
      Refused wideUpper P options tr e → Inv tr .finished (past ++ [.ended (.error e)])

end

section
variable {wideUpper : Char → List Char} {P : Primitives} {options : ReadOptions}
  {tr : List (ReadCommand × CommandEvent)} {c c' : ReadCommand} {e : CommandEvent}
  {os os' : List CommandObs}

theorem Chosen.snoc {sighting : Sighting} (h : Chosen wideUpper options sighting tr) :
    Chosen wideUpper options sighting (tr ++ [(c, e)]) :=
  Machine.tookBefore_snoc.2 (.inl h)

theorem Refused.snoc {exception : PyException} (h : Refused wideUpper P options tr exception) :
    Refused wideUpper P options (tr ++ [(c, e)]) exception := by
  cases h with
  | cancelled h => exact .cancelled h.snoc
  | unseen h => exact .unseen (h.imp_right Machine.Happened.snoc)
  | scanner _ h => exact .scanner _ (h.imp Machine.Happened.snoc Machine.Happened.snoc)
  | unresolved sighting _ h hr => exact .unresolved sighting _ h.snoc hr

theorem Searched.snoc {outcome : Except PyException Sighting}
    (h : Searched wideUpper P options tr outcome) :
    Searched wideUpper P options (tr ++ [(c, e)]) outcome := by
  cases outcome with
  | ok sighting => exact Chosen.snoc h
  | error exception => exact Refused.snoc h

namespace Scan

variable {scan : Scan}

/-- A step that decides nothing keeps the invariant. -/
theorem Inv.snoc (h : scan.Inv wideUpper P options tr) (he : ¬ EndsSearch wideUpper options c e) :
    scan.Inv wideUpper P options (tr ++ [(c, e)]) where
  pending hs hi hf ht := (Machine.took_snoc.1 ht).elim (h.pending hs hi hf) he
  sighted hs hi sighting hf := (h.sighted hs hi sighting hf).snoc
  deadline hi := ⟨(h.deadline hi).1, (h.deadline hi).2.snoc⟩
  cancelled i hi hne := (h.cancelled i hi hne).snoc
  expiring := h.expiring
  stopping outcome hs := (h.stopping outcome hs).snoc

theorem inv_new : (⟨.starting, .pending, none⟩ : Scan).Inv wideUpper P options [] := by
  refine ⟨fun _ _ _ => Machine.took_nil, fun _ _ _ hf => ?_, fun hi => ?_, fun _ hi => ?_,
    fun hs => ?_, fun _ hs => ?_⟩
  · cases hf
  · cases hi
  · cases hi
  · cases hs
  · cases hs

/-- The scanner is being stopped, with an outcome that is accounted for. -/
theorem inv_leave {outcome : Except PyException Sighting} (scan : Scan)
    (h : Searched wideUpper P options tr outcome) :
    ReadCommand.Inv wideUpper P options tr (scan.leave outcome).1
      ([.scans] ++ (scan.leave outcome).2) := by
  refine .scanning _ ⟨fun hs => absurd rfl (hs outcome), fun hs => absurd rfl (hs outcome),
    fun hi => ?_, fun i hi => ?_, fun hs => ?_, fun outcome' hs => ?_⟩
  · cases hi
  · cases hi
  · cases hs
  · cases hs
    exact h

theorem Inv.interrupted (h : scan.Inv wideUpper P options tr) {i : Interrupt}
    (hi : scan.interrupt = some i) (hs : scan.stage ≠ .waiting) : Happened .cancel tr := by
  refine h.cancelled i hi ?_
  rintro rfl
  exact hs (h.deadline hi).1

/-- The scanner is on. -/
theorem Inv.of_await (h : scan.Inv wideUpper P options tr) (hs : scan.stage = .starting)
    (hi : scan.interrupt = none) :
    ReadCommand.Inv wideUpper P options tr (scan.await options).1
      ([.scans] ++ (scan.await options).2) := by
  have hstage : ∀ outcome, scan.stage ≠ .stopping outcome := fun outcome hs' => by
    rw [hs] at hs'
    cases hs'
  unfold await
  split
  · rename_i sighting hf
    exact inv_leave scan (h.sighted hstage hi sighting hf)
  · rename_i hf
    split
    · rename_i himmediate
      refine .scanning _ ⟨fun _ _ hf => ?_, fun _ _ _ hf => ?_, fun hi' => ?_, fun i hi' => ?_,
        fun _ => himmediate, fun _ hs => ?_⟩
      · cases hf
      · cases hf
      · exact absurd (hi.symm.trans hi') (by simp)
      · exact absurd (hi.symm.trans hi') (by simp)
      · cases hs
    · refine .scanning _ ⟨fun _ => h.pending hstage, fun _ => h.sighted hstage, fun hi' => ?_,
        fun i hi' => ?_, fun hs => ?_, fun _ hs => ?_⟩
      · exact absurd (hi.symm.trans hi') (by simp)
      · exact absurd (hi.symm.trans hi') (by simp)
      · cases hs
      · cases hs

theorem Inv.of_started {result : Except PyException Unit} (h : scan.Inv wideUpper P options tr)
    (hs : scan.started options result = some (c', os')) :
    ReadCommand.Inv wideUpper P options (tr ++ [(c, .scanStarted result)]) c'
      (scan.stage.seen ++ os') := by
  have h : scan.Inv wideUpper P options (tr ++ [(c, .scanStarted result)]) :=
    h.snoc (by simp [EndsSearch])
  unfold started at hs
  split at hs
  · rename_i hstage
    rw [hstage]
    split at hs
    · rename_i hi
      obtain ⟨i, hi⟩ := Option.isSome_iff_exists.1 hi
      cases hs
      exact .refused [] _ (List.mem_cons_self ..)
        (.cancelled (h.interrupted hi (by rw [hstage]; exact nofun)))
    · rename_i hi
      split at hs
      · cases hs
        exact .refused [] _ (List.mem_cons_self ..) (.scanner _ (.inl happened_now))
      · obtain ⟨rfl, rfl⟩ := Prod.mk.inj (Option.some.inj hs)
        exact h.of_await hstage (Option.not_isSome_iff_eq_none.1 hi)
  · cases hs

variable (wideUpper options) in
theorem detect_eq (scan : Scan) (sighting : Sighting) :
    scan.detect wideUpper options sighting = scan ∧
        (scan.found = .pending → ¬ Wanted wideUpper options sighting) ∨
      scan.found = .pending ∧ Wanted wideUpper options sighting ∧
        scan.detect wideUpper options sighting = { scan with found := .sighted sighting } := by
  unfold detect
  split
  · rename_i hf
    split
    · rename_i hw
      exact .inr ⟨hf, hw, rfl⟩
    · rename_i hw
      exact .inl ⟨rfl, fun _ => hw⟩
  · rename_i hf
    exact .inl ⟨rfl, fun hf' => absurd hf' hf⟩

theorem Inv.of_detect (h : scan.Inv wideUpper P options tr) (sighting : Sighting) :
    (scan.detect wideUpper options sighting).Inv wideUpper P options
      (tr ++ [(c, .detected sighting)]) := by
  rcases detect_eq wideUpper options scan sighting with
    ⟨heq, hw⟩ | ⟨hf, hw, heq⟩
  · rw [heq]
    refine ⟨fun hs hi hf ht => ?_, fun hs hi other hf => (h.sighted hs hi other hf).snoc,
      fun hi => ⟨(h.deadline hi).1, (h.deadline hi).2.snoc⟩,
      fun i hi hne => (h.cancelled i hi hne).snoc, h.expiring,
      fun outcome hs => (h.stopping outcome hs).snoc⟩
    rcases Machine.took_snoc.1 ht with ht | he
    · exact h.pending hs hi hf ht
    · rcases he with he | he | ⟨other, he, hother⟩ <;> cases he
      exact hw hf hother
  · rw [heq]
    refine ⟨fun _ _ hf => ?_, fun hs hi other hother => ?_,
      fun hi => ⟨(h.deadline hi).1, (h.deadline hi).2.snoc⟩,
      fun i hi hne => (h.cancelled i hi hne).snoc, h.expiring,
      fun outcome hs => (h.stopping outcome hs).snoc⟩
    · cases hf
    · cases hother
      exact Machine.tookBefore_snoc.2 (.inr ⟨⟨rfl, hw⟩, h.pending hs hi hf⟩)

/-- The task is to be cancelled, by the deadline of its wait or by the caller. -/
theorem Inv.of_fire {i : Interrupt} (h : scan.Inv wideUpper P options tr)
    (he : i = .deadline ∧ scan.stage = .waiting ∧ e = .deadline ∨ i = .caller ∧ e = .cancel) :
    (scan.fire i).Inv wideUpper P options (tr ++ [(c, e)]) := by
  refine ⟨fun _ hi => ?_, fun _ hi => ?_, fun hi => ?_, fun j hi hne => ?_, h.expiring,
    fun outcome hs => (h.stopping outcome hs).snoc⟩
  · cases hi
  · cases hi
  · rcases he with ⟨rfl, hs, rfl⟩ | ⟨rfl, rfl⟩
    · exact ⟨hs, happened_now⟩
    · have hcaller : Interrupt.outermost scan.interrupt .caller = .caller := by
        rcases scan.interrupt with - | _ | _ | _ <;> rfl
      exact absurd (hcaller.symm.trans (Option.some.inj hi)) (by decide)
  · rcases he with ⟨rfl, hs, rfl⟩ | ⟨rfl, rfl⟩
    · have hj := Option.some.inj hi
      cases hinterrupt : scan.interrupt with
      | none =>
        rw [hinterrupt] at hj
        exact absurd hj.symm hne
      | some k =>
        refine (h.cancelled k hinterrupt ?_).snoc
        rintro rfl
        rw [hinterrupt] at hj
        exact hne hj.symm
    · exact happened_now

theorem Inv.of_resume (h : scan.Inv wideUpper P options tr)
    (hs : scan.resume options = some (c', os')) :
    ReadCommand.Inv wideUpper P options (tr ++ [(c, .resume)]) c' (scan.stage.seen ++ os') := by
  have h : scan.Inv wideUpper P options (tr ++ [(c, .resume)]) := h.snoc (by simp [EndsSearch])
  unfold resume at hs
  split at hs
  · rename_i hstage hi
    rw [hstage]
    cases hs
    exact inv_leave scan (.unseen (.inr (h.deadline hi).2))
  · rename_i hstage hi
    rw [hstage]
    cases hs
    exact inv_leave scan (.unseen (.inl (h.expiring hstage)))
  · rename_i i hdeadline hstage hi
    rw [hstage]
    cases hs
    exact inv_leave scan (.cancelled (h.cancelled i hi hdeadline))
  · rename_i i hstage hi
    rw [hstage]
    cases hs
    exact inv_leave scan (.cancelled (h.interrupted hi (by rw [hstage]; exact nofun)))
  · rename_i hstage hi
    split at hs
    · rename_i sighting hf
      have hne : ∀ outcome, scan.stage ≠ .stopping outcome := fun outcome hs' => by
        rw [hstage] at hs'
        cases hs'
      rw [hstage]
      cases hs
      exact inv_leave scan (h.sighted hne hi sighting hf)
    · cases hs
  · cases hs

theorem Inv.of_stopped {result : Except PyException Unit} (h : scan.Inv wideUpper P options tr)
    (hs : scan.stopped P options result = some (c', os')) :
    ReadCommand.Inv wideUpper P options (tr ++ [(c, .scanStopped result)]) c'
      (scan.stage.seen ++ os') := by
  have h : scan.Inv wideUpper P options (tr ++ [(c, .scanStopped result)]) :=
    h.snoc (by simp [EndsSearch])
  unfold stopped at hs
  split at hs
  · rename_i outcome hstage
    have houtcome := h.stopping outcome hstage
    rw [hstage]
    split at hs
    · rename_i hi
      obtain ⟨i, hi⟩ := Option.isSome_iff_exists.1 hi
      cases hs
      exact .refused [.scans, .stops] _ (by simp)
        (.cancelled (h.interrupted hi (by rw [hstage]; exact nofun)))
    · split at hs
      · cases hs
        exact .refused [.scans, .stops] _ (by simp) (.scanner _ (.inr happened_now))
      · cases hs
        exact .refused [.scans, .stops, .stopped] _ (by simp) houtcome
      · rename_i sighting
        unfold connect at hs
        split at hs
        · rename_i e hresolve
          cases hs
          exact .refused [.scans, .stops, .stopped] _ (by simp)
            (.unresolved sighting e houtcome hresolve)
        · rename_i uuid hresolve
          cases hs
          exact .reading sighting uuid [] [] _ houtcome hresolve .refl
  · cases hs

end Scan

namespace ReadCommand

/-- A step of the client is one of the client of the sighting. -/
theorem Inv.of_client {sighting : Sighting} {uuid : String} {tr' : List (World × Event)}
    {cos cos' : List Obs} {w w' : World} {event : Event}
    (hchosen : Chosen wideUpper options sighting tr)
    (huuid : resolveUuid P options sighting = .ok uuid)
    (hruns : (machine P).Runs (WithinRead Machine.Free) (clientFor P options sighting uuid) tr'
      cos w) (he : event ≠ .startRead) (hs : w.step P event = some (w', cos')) :
    Inv wideUpper P options (tr ++ [(c, e)]) (ofClient w' cos').1
      ([.scans, .stops, .stopped] ++ cos.map .client ++ (ofClient w' cos').2) := by
  have hruns := hruns.snoc ⟨he, trivial⟩ hs
  unfold ofClient
  split
  · rw [List.append_assoc, ← List.map_append]
    exact .reading sighting uuid _ _ w' hchosen.snoc huuid hruns
  · rename_i outcome rest houtcomes
    rw [← List.append_assoc, List.append_assoc [_, _, _], ← List.map_append]
    refine .read sighting uuid _ _ w' outcome hchosen.snoc huuid hruns ?_
    rw [mem_outcomes]
    refine List.mem_append_right _ (mem_outcomes.1 ?_)
    rw [houtcomes]
    exact List.mem_cons_self ..

theorem Inv.step (h : Inv wideUpper P options tr c os)
    (hs : c.step wideUpper P options e = some (c', os')) :
    Inv wideUpper P options (tr ++ [(c, e)]) c' (os ++ os') := by
  cases h with
  | scanning scan h =>
    cases e with
    | scanStarted result => exact h.of_started hs
    | detected sighting =>
      cases hs
      rw [List.append_nil]
      have hstage : (scan.detect wideUpper options sighting).stage = scan.stage := by
        rcases scan.detect_eq wideUpper options sighting with ⟨heq, -⟩ | ⟨-, -, heq⟩ <;> rw [heq]
      rw [← hstage]
      exact .scanning _ (h.of_detect sighting)
    | deadline =>
      simp only [ReadCommand.step] at hs
      split at hs
      · rename_i hstage
        cases hs
        rw [List.append_nil]
        exact .scanning (scan.fire .deadline) (h.of_fire (.inl ⟨rfl, hstage, rfl⟩))
      · cases hs
    | cancel =>
      cases hs
      rw [List.append_nil]
      exact .scanning (scan.fire .caller) (h.of_fire (.inr ⟨rfl, rfl⟩))
    | resume => exact h.of_resume hs
    | scanStopped result => exact h.of_stopped hs
    | client event => cases hs
  | reading sighting uuid tr' cos w hchosen huuid hruns =>
    cases e with
    | detected other =>
      cases hs
      rw [List.append_nil]
      exact .reading sighting uuid tr' cos w hchosen.snoc huuid hruns
    | client event =>
      simp only [ReadCommand.step] at hs
      split at hs
      · cases hs
      · rename_i he
        split at hs
        · cases hs
        · rename_i w' cos' hw
          obtain ⟨rfl, rfl⟩ := Prod.mk.inj (Option.some.inj hs)
          exact Inv.of_client hchosen huuid hruns he hw
    | _ => cases hs
  | read => cases e <;> cases hs
  | refused => cases e <;> cases hs

end ReadCommand

/-! ## What was observed -/

theorem clientPart_map (cos : List Obs) : clientPart (cos.map .client) = cos := by
  unfold clientPart
  rw [List.filterMap_map]
  exact List.filterMap_some

theorem clientPart_append : clientPart (os ++ os') = clientPart os ++ clientPart os' :=
  List.filterMap_append ..

/-- The client takes its steps with the scanner off. -/
theorem scanned_client (cos : List Obs) :
    Along Scanned [] ([.scans, .stops, .stopped] ++ cos.map .client) := by
  refine Along.append.2 ⟨by simp [Scanned], ?_⟩
  induction cos using List.reverseRecOn with
  | nil => trivial
  | append_singleton cos o ih =>
    rw [List.map_append]
    refine Along.append.2 ⟨ih, ⟨?_, ?_⟩, trivial⟩
    · simp
    · simp

theorem ReadCommand.Inv.along (h : Inv wideUpper P options tr c os) : Along Scanned [] os := by
  cases h with
  | scanning scan =>
    cases scan.stage <;> simp [ScanStage.seen, Scanned]
  | reading sighting uuid tr' cos w => exact scanned_client cos
  | read sighting uuid tr' cos w outcome =>
    exact Along.append.2 ⟨scanned_client cos, ⟨by simp, by simp⟩, trivial⟩
  | refused past e hpast =>
    simp only [List.mem_cons, List.not_mem_nil, or_false] at hpast
    rcases hpast with rfl | rfl | rfl <;> simp [Scanned]

/-- **A read follows the first sighting of its device.** The client is made from the first
advertisement of the wanted address, seen before the window ended and before any
cancellation, runs with the scanner off, and does what any client does; its outcome is the
command's. A command that never makes one says why: it was cancelled, its window ended, the
scanner failed, or that advertisement told it no uuid. -/
theorem read_follows_sighting
    (h : (readCommand wideUpper P options).Runs Machine.Free .new tr os c) :
    Along Scanned [] os ∧
      (clientPart os ≠ [] → ∃ sighting uuid tr' w, Chosen wideUpper options sighting tr ∧
        resolveUuid P options sighting = .ok uuid ∧
        (machine P).Runs (WithinRead Machine.Free) (clientFor P options sighting uuid) tr'
          (clientPart os) w) ∧
      ∀ outcome, .ended outcome ∈ os → outcome ∈ outcomes (clientPart os) ∨
        clientPart os = [] ∧ ∃ e, outcome = .error e ∧ Refused wideUpper P options tr e := by
  have hinv : ReadCommand.Inv wideUpper P options tr c os := by
    refine h.invariant (I := fun tr os c => ReadCommand.Inv wideUpper P options tr c os) ?_
      fun _ _ _ _ _ _ hi _ hs => hi.step hs
    exact .scanning ⟨.starting, .pending, none⟩ Scan.inv_new
  refine ⟨hinv.along, fun hne => ?_, fun outcome hm => ?_⟩
  · cases hinv with
    | scanning scan => exact absurd (by cases scan.stage <;> rfl) hne
    | reading sighting uuid tr' cos w hchosen huuid hruns =>
      refine ⟨sighting, uuid, tr', w, hchosen, huuid, ?_⟩
      rw [clientPart_append, clientPart_map]
      exact hruns
    | read sighting uuid tr' cos w outcome hchosen huuid hruns =>
      refine ⟨sighting, uuid, tr', w, hchosen, huuid, ?_⟩
      rw [clientPart_append, clientPart_append, clientPart_map]
      exact (List.append_nil cos).symm ▸ hruns
    | refused past e hpast =>
      refine absurd ?_ hne
      simp only [List.mem_cons, List.not_mem_nil, or_false] at hpast
      rcases hpast with rfl | rfl | rfl <;> rfl
  · cases hinv with
    | scanning scan => cases hstage : scan.stage <;> simp [hstage, ScanStage.seen] at hm
    | reading sighting uuid tr' cos w => simp at hm
    | read sighting uuid tr' cos w outcome' hchosen huuid hruns hmem =>
      obtain rfl : outcome = outcome' := by simpa using hm
      left
      rw [clientPart_append, clientPart_append, clientPart_map]
      exact (List.append_nil cos).symm ▸ hmem
    | refused past e hpast hrefused =>
      simp only [List.mem_cons, List.not_mem_nil, or_false] at hpast
      rcases hpast with rfl | rfl | rfl
      all_goals
        obtain rfl : outcome = .error e := by simpa using hm
        exact .inr ⟨rfl, e, rfl, hrefused⟩

end

namespace FakeRead

/-- MD5 and AES on what the tests' device broadcasts and on what is exchanged with it. -/
def recordingOf (key : AesKey) : FakeDevice.Recording :=
  if key.val = BigEndian.toBytes blockSize FakeAdvertisement.productDigest then
    FakeAdvertisement.productRecording
  else FakeDevice.recordingOf key

def primitives : Primitives where
  md5 data :=
    if data = FakeAdvertisement.productRecord then
      FakeDevice.blockOfNat FakeAdvertisement.productDigest
    else FakeDevice.primitives.md5 data
  encryptBlock key := FakeDevice.replay (recordingOf key)
  decryptBlock key := FakeDevice.unreplay (recordingOf key)
  decrypt_encrypt key := FakeDevice.unreplay_replay (recordingOf key)

def options : ReadOptions where
  address := "aa:bb:cc:dd:ee:ff"
  deviceId := FakeDevice.deviceId
  localKey := FakeDevice.localKey
  uuid := none
  window := "20"
  immediate := false

def sighting : Sighting := ⟨⟨FakeDevice.address⟩, FakeAdvertisement.advertisement⟩

/-- The device advertises while the scanner is being started. -/
def events : List CommandEvent :=
  [.detected sighting, .scanStarted (.ok ()), .scanStopped (.ok ())] ++
    FakeDevice.session.map .client

end FakeRead

open FakeRead in
/-- The tests' device is found by the lower-case spelling of its address, and read. -/
theorem read_follows_sighting_recorded : ∃ tr os c,
    (readCommand (fun c => [c]) primitives options).Runs Machine.Free .new tr os c ∧
      ∃ sighting uuid, Chosen (fun c => [c]) options sighting tr ∧
        resolveUuid primitives options sighting = .ok uuid := by
  have hx : ((readCommand (fun c => [c]) primitives options).execWhere Machine.Free [] [] .new
      events).map (fun r => (clientPart r.2.1).isEmpty) = some false := by decide +kernel
  obtain ⟨⟨tr, os, c⟩, he, hpart⟩ := Option.map_eq_some_iff.1 hx
  have hruns := Machine.runs_of_execWhere he
  have hne : clientPart os ≠ [] := fun hnil => by
    rw [hnil] at hpart
    cases hpart
  obtain ⟨sighting, uuid, -, -, hchosen, huuid, -⟩ := (read_follows_sighting hruns).2.1 hne
  exact ⟨tr, os, c, hruns, sighting, uuid, hchosen, huuid⟩

end TuyaBle
