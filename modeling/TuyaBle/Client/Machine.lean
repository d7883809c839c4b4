import TuyaBle.Lib.Run
import TuyaBle.Client.Notification
import TuyaBle.Client.Session

/-!
# The client as a machine

Between two steps every task is suspended or done, and the event loop may take any step
that is enabled: resume the session task, fire a deadline or the caller's cancellation,
deliver a notification, run a reply task. What bleak answers is part of the event. A
cancellation supersedes the answer the task waits for.
-/

namespace TuyaBle

/-- The awaits a cancellation of each kind reaches. -/
def Interrupt.reaches : Interrupt → Session → Bool
  | .deadline, .connecting | .deadline, .waiting _ | .deadline, .collecting _
  | .deadline, .disconnecting _ => true
  | .session, .connecting | .session, .subscribing | .session, .writing ..
  | .session, .waiting _ | .session, .collecting _ => true
  | .caller, s => s ≠ .idle
  | _, _ => false

inductive Event where
  /-- `async_read_data_points` is called. -/
  | startRead
  | resume (r : Resumption) (iv : InitializationVector)
  /-- A deadline expires, or the caller cancels the read. -/
  | fire (i : Interrupt)
  | notify (chunk : Bytes) (clock : Clock)
  /-- A reply task takes its first step. -/
  | replyStart (number : Nat) (iv : InitializationVector)
  /-- The write a reply task is suspended in ends. -/
  | replyWritten (number : Nat) (result : Except PyException Unit)
  deriving DecidableEq

def Event.isResume : Event → Bool
  | .resume .. => true
  | _ => false

def Event.isNotify : Event → Bool
  | .notify .. => true
  | _ => false

namespace World

/-! ## Reply tasks -/

/-- The reply task whose frame has that number. -/
def task? (w : World) (number : Nat) : Option ReplyTask :=
  w.self.background.find? fun task => task.frame.sequenceNumber = number

/-- The reply task is done. -/
def discard (w : World) (number : Nat) : World :=
  let background := w.self.background.filter fun task => task.frame.sequenceNumber ≠ number
  { w with self := { w.self with background } }

def suspend (w : World) (number : Nat) (send : Send) : World :=
  let background := w.self.background.map fun task =>
    if task.frame.sequenceNumber = number then { task with send := some send } else task
  { w with self := { w.self with background } }

/-- One turn of the write loop of a reply task. -/
def writeReply (w : World) (number : Nat) (send : Send) : World × List Obs :=
  match send.rest with
  | [] => (w.discard number, [.sent (.reply number) send])
  | packet :: rest =>
    let send := { send with rest }
    (w.suspend number send, [.wrote (.reply number) send packet])

/-- `_async_reply` up to its first await; a failure ends the task. -/
def startReply (P : Primitives) (w : World) (number : Nat) (iv : InitializationVector) :
    Option (World × List Obs) :=
  match w.task? number with
  | some ⟨frame, none⟩ =>
    match w.self.requireSessionKey with
    | .error _ => some (w.discard number, [])
    | .ok key =>
      match w.self.startSend P frame key securityFlagSessionKey iv with
      | none => none
      | some (.error _) => some (w.discard number, [])
      | some (.ok send) =>
        let (w, os) := w.writeReply number send
        some (w, .sending (.reply number) send :: os)
  | _ => none

def resumeReply (w : World) (number : Nat) (result : Except PyException Unit) :
    Option (World × List Obs) :=
  match w.task? number with
  | some ⟨_, some send⟩ =>
    match result with
    | .ok () => some (w.writeReply number send)
    | .error e =>
      if e.type.isException then some (w.discard number, [.aborted (.reply number) send])
      else none
  | _ => none

/-! ## Steps -/

/-- Ask the session task to be cancelled; a future it waits for is cancelled at once. -/
def fire (w : World) (i : Interrupt) : Option (World × List Obs) :=
  if i.reaches w.session then
    let futures :=
      match w.session with
      | .waiting request =>
        if w.futures[request.pending]? = some .pending then
          w.futures.set request.pending .cancelled
        else w.futures
      | _ => w.futures
    some ({ w with interrupt := some (Interrupt.outermost w.interrupt i), futures }, [])
  else none

/-- The turns the task takes between two awaits at most (`settle_isSome`). -/
def maxTurns : Nat := 8

def resume (P : Primitives) (w : World) (r : Resumption) (iv : InitializationVector) :
    Option (World × List Obs) :=
  match w.wakeUp r with
  | none => none
  | some (w, os) =>
    match w.settle P iv maxTurns with
    | none => none
    | some (w', os') => some (w', os ++ os')

/-- The world in which a read has just been started. -/
def reading (w : World) : World := { w with session := .connecting }

def step (P : Primitives) (w : World) : Event → Option (World × List Obs)
  | .startRead => if w.session = .idle then some (w.reading, []) else none
  | .resume r iv => w.resume P r iv
  | .fire i => w.fire i
  | .notify chunk clock => some (w.onNotification P chunk clock)
  | .replyStart number iv => w.startReply P number iv
  | .replyWritten number result => w.resumeReply number result

end World

def machine (P : Primitives) : Machine World Event Obs where
  step := World.step P

/-- Steps of one read: no other is started. -/
def WithinRead (C : List Obs → World → Event → Prop) (os : List Obs) (w : World) (e : Event) :
    Prop := e ≠ .startRead ∧ C os w e

instance (C : List Obs → World → Event → Prop) [∀ os w e, Decidable (C os w e)] (os : List Obs)
    (w : World) (e : Event) : Decidable (WithinRead C os w e) :=
  inferInstanceAs (Decidable (_ ∧ _))

/-! ## What the steps can do -/

namespace World

/-- What a step of a reply task can do. -/
inductive Replied (P : Primitives) (w : World) : Event → World → List Obs → Prop where
  | ended (number : Nat) (iv : InitializationVector) (task : ReplyTask) :
      w.task? number = some task → task.send = none →
      Replied P w (.replyStart number iv) (w.discard number) []
  | aborted (number : Nat) (e : PyException) (frame : Frame) (send : Send) :
      w.task? number = some ⟨frame, some send⟩ →
      Replied P w (.replyWritten number (.error e)) (w.discard number)
        [.aborted (.reply number) send]
  | started (number : Nat) (iv : InitializationVector) (frame : Frame) (key : AesKey)
      (send : Send) : w.task? number = some ⟨frame, none⟩ → w.self.sessionKey = some key →
      w.self.startSend P frame key securityFlagSessionKey iv = some (.ok send) →
      Replied P w (.replyStart number iv) (w.writeReply number send).1
        (.sending (.reply number) send :: (w.writeReply number send).2)
  | resumed (number : Nat) (frame : Frame) (send : Send) :
      w.task? number = some ⟨frame, some send⟩ →
      Replied P w (.replyWritten number (.ok ())) (w.writeReply number send).1
        (w.writeReply number send).2

variable {P : Primitives} {w w' : World} {os : List Obs} {number : Nat} {e : Event}

theorem task?_mem {task : ReplyTask} (h : w.task? number = some task) :
    task ∈ w.self.background ∧ task.frame.sequenceNumber = number :=
  ⟨List.mem_of_find?_eq_some h, by simpa using List.find?_some h⟩

/-- A step of a reply task touches the tasks only, and keeps the frames of those left. -/
theorem Replied.frame (h : Replied P w e w' os) :
    ∃ background, w' = { w with self := { w.self with background } } ∧
      (background.map ReplyTask.frame).Sublist (w.self.background.map ReplyTask.frame) := by
  have hd : ∀ number, ((w.discard number).self.background.map ReplyTask.frame).Sublist
      (w.self.background.map ReplyTask.frame) := fun _ => List.filter_sublist.map _
  have hw : ∀ number send, ∃ background,
      (w.writeReply number send).1 = { w with self := { w.self with background } } ∧
        (background.map ReplyTask.frame).Sublist (w.self.background.map ReplyTask.frame) := by
    intro number send
    unfold writeReply
    split
    · exact ⟨_, rfl, hd number⟩
    · rename_i packet rest hrest
      refine ⟨_, rfl, ?_⟩
      have : (w.suspend number { send with rest }).self.background.map ReplyTask.frame =
          w.self.background.map ReplyTask.frame := by
        simp only [suspend, List.map_map]
        refine List.map_congr_left fun task _ => ?_
        simp only [Function.comp_apply]
        split <;> rfl
      exact this ▸ List.Sublist.refl _
  cases h with
  | ended number _ _ _ _ => exact ⟨_, rfl, hd number⟩
  | aborted number _ _ _ _ => exact ⟨_, rfl, hd number⟩
  | started number _ _ _ send _ _ _ => exact hw number send
  | resumed number _ send _ => exact hw number send

/-- A step of a reply task is seen at its send only. -/
theorem Replied.ofSend (h : Replied P w e w' os) : ∀ o ∈ os, o.ofSend := by
  have hw : ∀ number send, ∀ o ∈ (w.writeReply number send).2, o.ofSend := by
    intro number send o hm
    unfold writeReply at hm
    split at hm <;> cases List.mem_singleton.1 hm <;> trivial
  intro o ho
  cases h with
  | ended _ _ _ _ _ => cases ho
  | aborted _ _ _ send _ => cases List.mem_singleton.1 ho; trivial
  | started number _ _ _ send _ _ _ =>
    rcases List.mem_cons.1 ho with rfl | ho
    · trivial
    · exact hw number send o ho
  | resumed number _ send _ => exact hw number send o ho

/-- A cancellation is recorded, and cancels the future the task waits for. -/
theorem fire_eq {i : Interrupt} (h : w.fire i = some (w', os)) :
    i.reaches w.session = true ∧ os = [] ∧ ∃ futures,
      w' = { w with interrupt := some (Interrupt.outermost w.interrupt i), futures } ∧
      (futures = w.futures ∨ ∃ request, w.session = .waiting request ∧
        w.futures[request.pending]? = some .pending ∧
        futures = w.futures.set request.pending .cancelled) := by
  unfold fire at h
  split at h
  · rename_i hr
    cases h
    refine ⟨hr, rfl, _, rfl, ?_⟩
    split
    · rename_i request hs
      split
      · exact .inr ⟨request, hs, ‹_›, rfl⟩
      · exact .inl rfl
    · exact .inl rfl
  · cases h

theorem startReply_replied {iv : InitializationVector}
    (h : w.startReply P number iv = some (w', os)) :
    Replied P w (.replyStart number iv) w' os := by
  unfold startReply at h
  split at h
  · rename_i frame ht
    split at h
    · obtain ⟨rfl, rfl⟩ : w.discard number = w' ∧ [] = os := by simpa using h
      exact .ended number iv _ ht rfl
    · rename_i key hk
      have hkey := sessionKey_of_requireSessionKey hk
      split at h
      · cases h
      · obtain ⟨rfl, rfl⟩ : w.discard number = w' ∧ [] = os := by simpa using h
        exact .ended number iv _ ht rfl
      · rename_i send hs
        simp only [Option.some.injEq, Prod.mk.injEq] at h
        obtain ⟨rfl, rfl⟩ := h
        exact .started number iv frame key send ht hkey hs
  · cases h

theorem resumeReply_replied {result : Except PyException Unit}
    (h : w.resumeReply number result = some (w', os)) :
    Replied P w (.replyWritten number result) w' os := by
  unfold resumeReply at h
  split at h
  · rename_i frame send ht
    split at h
    · obtain ⟨rfl, rfl⟩ : (w.writeReply number send).1 = w' ∧
          (w.writeReply number send).2 = os := by
        simpa [Prod.ext_iff] using h
      exact .resumed number frame send ht
    · rename_i e
      split at h
      · obtain ⟨rfl, rfl⟩ : w.discard number = w' ∧ [.aborted (.reply number) send] = os := by
          simpa using h
        exact .aborted number e frame send ht
      · cases h
  · cases h

end World

namespace World

variable {P : Primitives} {w w' : World} {os : List Obs} {e : Event}

theorem settle_suspended {iv : InitializationVector} {fuel : Nat}
    (h : w.settle P iv fuel = some (w', os)) : w'.session.running = false := by
  induction fuel generalizing w os with
  | zero =>
    simp only [settle] at h
    split at h
    · cases h
    · rename_i hr
      cases h
      simpa using hr
  | succ fuel ih =>
    simp only [settle] at h
    split at h
    · split at h
      · cases h
      · split at h
        · cases h
        · rename_i hs
          cases h
          exact ih hs
    · rename_i hr
      cases h
      simpa using hr

/-- Between two steps the session task is suspended or not there. -/
theorem step_suspended (hr : w.session.running = false) (h : w.step P e = some (w', os)) :
    w'.session.running = false := by
  cases e with
  | startRead =>
    simp only [step] at h
    split at h <;> cases h
    rfl
  | resume r iv =>
    simp only [step, resume] at h
    split at h
    · cases h
    · split at h
      · cases h
      · rename_i hs
        cases h
        exact settle_suspended hs
  | fire i =>
    obtain ⟨-, -, _, rfl, -⟩ := fire_eq h
    exact hr
  | notify chunk clock =>
    have hn := onNotification_notified P w chunk clock
    rw [show w.onNotification P chunk clock = (w', os) from Option.some.inj h] at hn
    cases hn <;> exact hr
  | replyStart number iv =>
    obtain ⟨_, rfl, -⟩ := (startReply_replied h).frame
    exact hr
  | replyWritten number result =>
    obtain ⟨_, rfl, -⟩ := (resumeReply_replied (P := P) h).frame
    exact hr

end World

/-- **The step lemmas of a property of histories.** Along a run it may use the condition
`C` its steps meet; `advance` happens inside the step that resumed the task. -/
structure Keeps (P : Primitives) (C : List Obs → World → Event → Prop)
    (I : List (World × Event) → List Obs → World → Prop) : Prop where
  wakeUp : ∀ {tr os w r iv w' os'}, I tr os w → C os w (.resume r iv) →
    World.Woken w r w' os' → I (tr ++ [(w, .resume r iv)]) (os ++ os') w'
  advance : ∀ {tr os w iv w' os'}, I tr os w → World.Advanced P w iv w' os' →
    I tr (os ++ os') w'
  fire : ∀ {tr os w i w' os'}, I tr os w → C os w (.fire i) → w.fire i = some (w', os') →
    I (tr ++ [(w, .fire i)]) (os ++ os') w'
  notify : ∀ {tr os w chunk clock w' os'}, I tr os w → C os w (.notify chunk clock) →
    World.Notified P w chunk clock w' os' → I (tr ++ [(w, .notify chunk clock)]) (os ++ os') w'
  reply : ∀ {tr os w e w' os'}, I tr os w → C os w e → World.Replied P w e w' os' →
    I (tr ++ [(w, e)]) (os ++ os') w'

namespace Keeps

variable {P : Primitives} {C : List Obs → World → Event → Prop}
  {I : List (World × Event) → List Obs → World → Prop}

theorem settle (h : Keeps P C I) {tr : List (World × Event)} {iv : InitializationVector}
    {fuel : Nat} {os os' : List Obs} {w w' : World} (hi : I tr os w)
    (hs : w.settle P iv fuel = some (w', os')) : I tr (os ++ os') w' := by
  induction fuel generalizing os os' w with
  | zero =>
    simp only [World.settle] at hs
    split at hs
    · cases hs
    · obtain ⟨rfl, rfl⟩ : w = w' ∧ [] = os' := by simpa using hs
      simpa using hi
  | succ fuel ih =>
    simp only [World.settle] at hs
    split at hs
    · split at hs
      · cases hs
      · rename_i w1 os1 ha
        split at hs
        · cases hs
        · rename_i w2 os2 hs2
          obtain ⟨rfl, rfl⟩ : w2 = w' ∧ os1 ++ os2 = os' := by simpa using hs
          rw [← List.append_assoc]
          exact ih (h.advance hi (World.advance_advanced ha)) hs2
    · obtain ⟨rfl, rfl⟩ : w = w' ∧ [] = os' := by simpa using hs
      simpa using hi

theorem step (h : Keeps P C I) (tr : List (World × Event)) (os : List Obs) {os' : List Obs}
    {w w' : World} {e : Event} (hi : I tr os w) (hc : WithinRead C os w e)
    (hs : (machine P).step w e = some (w', os')) : I (tr ++ [(w, e)]) (os ++ os') w' := by
  obtain ⟨hne, hc⟩ := hc
  cases e with
  | startRead => exact absurd rfl hne
  | resume r iv =>
    simp only [machine, World.step, World.resume] at hs
    split at hs
    · cases hs
    · rename_i w1 os1 hw
      split at hs
      · cases hs
      · rename_i w2 os2 hs2
        obtain ⟨rfl, rfl⟩ : w2 = w' ∧ os1 ++ os2 = os' := by simpa using hs
        rw [← List.append_assoc]
        exact h.settle (h.wakeUp hi hc (World.wakeUp_woken hw)) hs2
  | fire i => exact h.fire hi hc hs
  | notify chunk clock =>
    have hn := World.onNotification_notified P w chunk clock
    have hs : w.onNotification P chunk clock = (w', os') := Option.some.inj hs
    rw [hs] at hn
    exact h.notify hi hc hn
  | replyStart number iv => exact h.reply hi hc (World.startReply_replied hs)
  | replyWritten number result => exact h.reply hi hc (World.resumeReply_replied hs)

/-- **The run lemma**: what the steps keep, every read keeps. -/
theorem runs (h : Keeps P C I) {w0 w : World} {tr : List (World × Event)} {os : List Obs}
    (hr : (machine P).Runs (WithinRead C) w0 tr os w) (h0 : I [] [] w0) : I tr os w :=
  hr.invariant h0 fun tr os _ _ _ _ hi hc hs => h.step tr os hi hc hs

/-- The task is suspended before every step of a read. -/
theorem runs_suspended {w0 w : World} {tr : List (World × Event)} {os : List Obs}
    (hr : (machine P).Runs (WithinRead C) w0 tr os w) (h0 : w0.session.running = false) :
    (machine P).Runs (WithinRead fun os w e => C os w e ∧ w.session.running = false) w0 tr os w :=
  (hr.strengthen h0 fun _ _ _ _ hr hs => World.step_suspended hr hs).mono
    fun _ _ _ hc => ⟨hc.1.1, hc.1.2, hc.2⟩

/-- What the steps keep of the state alone holds over any number of reads. -/
theorem reachable {J : World → Prop} (h : Keeps P Machine.Free fun _ _ w => J w) {w0 w : World}
    (hr : (machine P).Reachable w0 w) (h0 : J w0)
    (hstart : ∀ w, J w → w.session = .idle → J w.reading) : J w := by
  refine hr.preserves h0 fun w e w' os' hj hs => ?_
  by_cases he : e = .startRead
  · subst he
    simp only [machine, World.step] at hs
    split at hs <;> cases hs
    exact hstart w hj ‹_›
  · exact h.step [] [] hj ⟨he, trivial⟩ hs

end Keeps

end TuyaBle
