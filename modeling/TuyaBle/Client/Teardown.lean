import TuyaBle.Client.Machine
import TuyaBle.FakeDevice

/-!
# What the teardown leaves

`_async_disconnect` restores the session state and leaves alone what `lasting` collects.
Of that a read changes the protocol version and the authentication key, both when it adopts
the device information. So a read that adopted none leaves a new client, and no other does.
-/

namespace TuyaBle

/-- The fields `reset` does not touch. -/
structure Lasting where
  address : String
  credentials : TuyaBleCredentials
  loginKey : AesKey
  authenticationKey : Option AesKey
  protocolVersion : Nat

namespace Lasting

/-- What an observation adds to them. -/
def adopt (l : Lasting) : Obs → Lasting
  | .adopted info => { l with authenticationKey := some info.authenticationKey
                              protocolVersion := info.protocolVersion }
  | _ => l

def after (l : Lasting) (os : List Obs) : Lasting := os.foldl adopt l

variable {l : Lasting} {os : List Obs}

theorem after_append (os' : List Obs) : l.after (os ++ os') = (l.after os).after os' :=
  List.foldl_append ..

theorem adopt_plain {o : Obs} (h : ∀ info, o ≠ .adopted info) : l.adopt o = l := by
  cases o with
  | adopted info => exact absurd rfl (h info)
  | _ => rfl

theorem after_plain (h : ∀ info, .adopted info ∉ os) : l.after os = l := by
  induction os generalizing l with
  | nil => rfl
  | cons o os ih =>
    have ho : l.adopt o = l := adopt_plain fun info he => h info (he ▸ List.mem_cons_self ..)
    rw [after, List.foldl_cons, ho]
    exact ih fun info hm => h info (List.mem_cons_of_mem _ hm)

/-- An adoption is never undone. -/
theorem authenticationKey_after (h : ∃ info, .adopted info ∈ os) :
    (l.after os).authenticationKey ≠ none := by
  induction os generalizing l with
  | nil => obtain ⟨_, h⟩ := h; cases h
  | cons o os ih =>
    by_cases hlater : ∃ info, .adopted info ∈ os
    · exact ih hlater
    · obtain ⟨info, hm⟩ := h
      have ho : o = .adopted info :=
        ((List.mem_cons.1 hm).resolve_right fun hm => hlater ⟨info, hm⟩).symm
      have hrest : (l.adopt o).after os = l.adopt o :=
        after_plain fun info hm => hlater ⟨info, hm⟩
      rw [after, List.foldl_cons]
      rw [after] at hrest
      rw [hrest, ho]
      exact Option.some_ne_none _

end Lasting

def TuyaBleClient.lasting (self : TuyaBleClient) : Lasting :=
  ⟨self.address, self.credentials, self.loginKey, self.authenticationKey, self.protocolVersion⟩

theorem TuyaBleClient.reset_congr {self other : TuyaBleClient} (h : self.lasting = other.lasting) :
    self.reset = other.reset := by
  obtain ⟨ha, hc, hl, hk, hv⟩ := Lasting.mk.inj h
  simp only [reset, ha, hc, hl, hk, hv]

namespace World

variable {P : Primitives} {w w' : World} {os os' : List Obs}

/-! ## The lasting fields along a run -/

theorem Woken.lasting {r : Resumption} (h : Woken w r w' os) :
    w'.self.lasting = w.self.lasting.after os := by
  cases h <;> rfl

theorem lasting_cancelled (l : Lasting) (background : List ReplyTask) :
    l.after (cancelled background) = l := by
  refine Lasting.after_plain fun info hm => ?_
  obtain ⟨_, _, he⟩ := aborted_of_mem_cancelled hm
  cases he

theorem Advanced.lasting {iv : InitializationVector} (h : Advanced P w iv w' os) :
    w'.self.lasting = w.self.lasting.after os := by
  cases h with
  | reset outcome link hs hc => rw [Lasting.after_append, lasting_cancelled]; rfl
  | ended outcome hs hc => rw [Lasting.after_append, lasting_cancelled]; rfl
  | _ => rfl

theorem Notified.lasting {chunk : Bytes} {clock : Clock} (h : Notified P w chunk clock w' os) :
    w'.self.lasting = w.self.lasting.after os := by
  cases h with
  | handled frame dataPoints data hr ha hc =>
    refine (Lasting.after_plain fun info hm => ?_).symm
    simp [TuyaBleClient.handledObs] at hm
  | _ => rfl

theorem Replied.lasting {e : Event} (h : Replied P w e w' os) :
    w'.self.lasting = w.self.lasting.after os := by
  rw [Lasting.after_plain fun info hm => ?_]
  · obtain ⟨background, rfl, -⟩ := h.frame
    rfl
  · exact h.ofSend _ hm

theorem lasting_keeps (C : List Obs → World → Event → Prop) (l : Lasting) :
    Keeps P C fun _ os w => w.self.lasting = l.after os where
  wakeUp h _ hw := by rw [hw.lasting, h, Lasting.after_append]
  advance h ha := by rw [ha.lasting, h, Lasting.after_append]
  fire h _ hf := by
    obtain ⟨-, rfl, futures, rfl, -⟩ := fire_eq hf
    rw [List.append_nil]
    exact h
  notify h _ hn := by rw [hn.lasting, h, Lasting.after_append]
  reply h _ hr := by rw [hr.lasting, h, Lasting.after_append]

/-! ## The session state after the teardown -/

structure Cleared (w : World) : Prop where
  stage_over : w.session.over
  self_eq : w.self = w.self.reset
  futures_eq : w.futures = []
  interrupt_eq : w.session = .idle → w.interrupt = none

theorem Cleared.background_eq (h : w.Cleared) : w.self.background = [] := by
  rw [h.self_eq]; rfl

theorem Cleared.task?_eq (h : w.Cleared) (number : Nat) : w.task? number = none := by
  rw [task?, h.background_eq]; rfl

end World

/-- No notification is delivered once the teardown has reset the session state. -/
def SilentTeardown (os : List Obs) (_ : World) (e : Event) : Prop :=
  .reset ∈ os → e.isNotify = false

instance (os : List Obs) (w : World) (e : Event) : Decidable (SilentTeardown os w e) :=
  inferInstanceAs (Decidable (_ → _))

namespace World

variable {P : Primitives} {w w' : World} {os os' : List Obs}

theorem Cleared.of_woken {r : Resumption} (h : w.Cleared) (hw : Woken w r w' os) : w'.Cleared := by
  have hout : ∀ {s}, w.session = s → ¬ s.over → w'.Cleared := fun hs ho =>
    absurd (hs ▸ h.stage_over) ho
  cases hw with
  | connected link hi hs => exact hout hs id
  | subscribed hi hs => exact hout hs id
  | connectFailed e hi hs he => exact hs.elim (hout · id) (hout · id)
  | connectTimedOut hi hs => exact hout hs id
  | connectCancelled i hi hs => exact hs.elim (hout ·.1 id) (hout · id)
  | written request send hi hs hr => exact hout hs id
  | writeFailed request send e hi hs hr he => exact hout hs id
  | writeCancelled i request send hi hs => exact hout hs id
  | replied request hi hs hf => exact hout hs id
  | waitEnded i request hi hs => exact hout hs id
  | reported collected hi hs hr => exact hout hs id
  | quiet collected hi hs => exact hout hs id
  | collectCancelled i collected hi hd hs => exact hout hs id
  | disconnected outcome hi hs => exact ⟨trivial, h.self_eq, h.futures_eq, fun _ => rfl⟩
  | disconnectCancelled i outcome hi hd hs =>
    exact ⟨trivial, h.self_eq, h.futures_eq, fun _ => rfl⟩

theorem Cleared.of_fire {i : Interrupt} (h : w.Cleared) (hf : w.fire i = some (w', os)) :
    w'.Cleared := by
  obtain ⟨hr, -, futures, rfl, hfut⟩ := fire_eq hf
  refine ⟨h.stage_over, h.self_eq, ?_, fun hs => ?_⟩
  · rcases hfut with rfl | ⟨request, hs, -⟩
    · exact h.futures_eq
    · have := h.stage_over
      rw [hs] at this
      exact absurd this id
  · rw [show w.session = .idle from hs] at hr
    cases i <;> exact absurd hr (by decide)

theorem Woken.reset_not_mem {r : Resumption} (h : Woken w r w' os) : .reset ∉ os := by
  cases h <;> simp

theorem Advanced.cleared {iv : InitializationVector} (h : Advanced P w iv w' os)
    (hm : .reset ∈ os) : w'.Cleared := by
  cases h with
  | reset outcome link hs hc => exact ⟨trivial, rfl, rfl, fun _ => rfl⟩
  | ended outcome hs hc => exact ⟨trivial, rfl, rfl, fun _ => rfl⟩
  | _ => simp at hm

/-- Once the teardown has reset the session state it stays so, if nothing is delivered. -/
theorem cleared_keeps : Keeps P SilentTeardown fun _ os w => .reset ∈ os → w.Cleared where
  wakeUp h _ hw := fun hm =>
    (h ((List.mem_append.1 hm).resolve_right hw.reset_not_mem)).of_woken hw
  advance h ha := fun hm => by
    rcases List.mem_append.1 hm with hm | hm
    · cases ha.running.symm.trans (Session.running_of_over (h hm).stage_over)
    · exact ha.cleared hm
  fire h _ hf := fun hm => by
    obtain ⟨-, rfl, -⟩ := fire_eq hf
    exact (h (by simpa using hm)).of_fire hf
  notify h hc hn := fun hm => by
    rcases List.mem_append.1 hm with hm | hm
    · exact absurd (hc hm) Bool.noConfusion
    · cases hn <;> simp [TuyaBleClient.handledObs] at hm
  reply {tr os w e w' os'} h _ hr := fun hm => by
    rcases List.mem_append.1 hm with hm | hm
    · have ht := (h hm).task?_eq
      cases hr with
      | ended number iv task h1 h2 => cases (ht number).symm.trans h1
      | aborted number e frame send h1 => cases (ht number).symm.trans h1
      | started number iv frame key send h1 h2 h3 => cases (ht number).symm.trans h1
      | resumed number frame send h1 => cases (ht number).symm.trans h1
    · exact absurd (hr.ofSend _ hm) id

/-- A read is not over before its teardown. -/
theorem over_keeps (C : List Obs → World → Event → Prop) :
    Keeps P C fun _ os w => w.session.over → .reset ∈ os where
  wakeUp {tr os w r iv w' os'} h _ hw := fun ho => by
    refine List.mem_append_left _ (h ?_)
    cases hw with
    | disconnected outcome hi hs => rw [hs]; trivial
    | disconnectCancelled i outcome hi hd hs => rw [hs]; trivial
    | _ => exact absurd ho id
  advance {tr os w iv w' os'} h ha := fun ho => by
    cases ha with
    | reset outcome link hs hc => simp
    | ended outcome hs hc => simp
    | _ => exact absurd ho id
  fire h _ hf := fun ho => by
    obtain ⟨-, rfl, futures, rfl, -⟩ := fire_eq hf
    exact List.mem_append_left _ (h ho)
  notify {tr os w chunk clock w' os'} h _ hn := fun ho => by
    refine List.mem_append_left _ (h ?_)
    cases hn <;> exact ho
  reply h _ hr := fun ho => by
    obtain ⟨background, rfl, -⟩ := hr.frame
    exact List.mem_append_left _ (h ho)

end World

variable {P : Primitives} {address : String} {credentials : TuyaBleCredentials}

/-- **When the teardown restores a new client**: a first read, however it ends, leaves the
client it was given, from which any events lead to the same observations, exactly when it
adopted no device information. -/
theorem teardown_restores_new {w : World} {tr : List (World × Event)} {os : List Obs}
    (h : (machine P).Runs (WithinRead SilentTeardown) (World.new P address credentials).reading
      tr os w) (hidle : w.session = .idle) :
    (w = .new P address credentials ∧
      ∀ es, (machine P).exec w es = (machine P).exec (.new P address credentials) es) ↔
      ∀ info, .adopted info ∉ os := by
  have hlast := (World.lasting_keeps SilentTeardown
    (World.new P address credentials).reading.self.lasting).runs h rfl
  have hreset := (World.over_keeps SilentTeardown).runs h (fun ho => absurd ho id)
    (by rw [hidle]; trivial)
  have hclear := World.cleared_keeps.runs h nofun hreset
  constructor
  · rintro ⟨rfl, -⟩ info hm
    have := Lasting.authenticationKey_after
      (l := (World.new P address credentials).reading.self.lasting) ⟨info, hm⟩
    rw [← hlast] at this
    exact this rfl
  · intro hnone
    rw [Lasting.after_plain hnone] at hlast
    have hself : w.self = (World.new P address credentials).self :=
      hclear.self_eq.trans (TuyaBleClient.reset_congr hlast)
    have hw : w = .new P address credentials := by
      obtain ⟨self, session, interrupt, futures⟩ := w
      obtain rfl : session = .idle := hidle
      obtain rfl : interrupt = none := hclear.interrupt_eq rfl
      obtain rfl : futures = [] := hclear.futures_eq
      obtain rfl : self = _ := hself
      rfl
    exact ⟨hw, fun es => by rw [hw]⟩

/-- A device that never answers. -/
def unansweredRead : List Event :=
  [FakeDevice.connected, FakeDevice.subscribed, FakeDevice.written, FakeDevice.written,
   .fire .deadline, FakeDevice.woken, FakeDevice.disconnected]

open FakeDevice in
theorem teardown_restores_new_unanswered : ∃ tr os w,
    (machine primitives).execWhere (WithinRead SilentTeardown) [] [] client.reading unansweredRead =
      some (tr, os, w) ∧
    ((w = client ∧ ∀ es, (machine primitives).exec w es = (machine primitives).exec client es) ↔
      ∀ info, .adopted info ∉ os) := by
  have hidle : ((machine primitives).execWhere (WithinRead SilentTeardown) [] [] client.reading
      unansweredRead).map (fun r => r.2.2.session) = some .idle := by decide +kernel
  obtain ⟨⟨tr, os, w⟩, he, hs⟩ := Option.map_eq_some_iff.1 hidle
  exact ⟨tr, os, w, he, teardown_restores_new (Machine.runs_of_execWhere he) hs⟩

/-- A device of protocol version 4, and a read cancelled while it pairs. -/
def olderDevice : List Event :=
  FakeDevice.deviceInfoExchange 4 ++ [.fire .caller, FakeDevice.woken, FakeDevice.disconnected]

open FakeDevice in
/-- The first packet of the next read carries version 4 where a new client's carries 3. -/
theorem protocol_version_survives : ¬ ∀ tr os w,
    (machine primitives).Runs (WithinRead SilentTeardown) client.reading tr os w →
    w.session = .idle →
    w = client ∧ ∀ es, (machine primitives).exec w es = (machine primitives).exec client es := by
  intro h
  let next : List Event := [.startRead, connected, subscribed]
  have hx : ((machine primitives).execWhere (WithinRead SilentTeardown) [] [] client.reading
      olderDevice).map (fun r => (r.2.2.session, decide (((machine primitives).exec r.2.2 next).map
        Prod.snd = ((machine primitives).exec client next).map Prod.snd))) =
      some (.idle, false) := by decide +kernel
  obtain ⟨⟨tr, os, w⟩, he, hw⟩ := Option.map_eq_some_iff.1 hx
  obtain ⟨hs, hne⟩ := Prod.mk.inj hw
  have heq := (h tr os w (Machine.runs_of_execWhere he) hs).2 next
  exact of_decide_eq_false hne (congrArg (Option.map Prod.snd) heq)

end TuyaBle
