import TuyaBle.Client.Matching
import TuyaBle.Client.Teardown

/-!
# Notifications of a closing link

Between the teardown and the next connection the notification handler may still be called.
What it is given then changes the reassembler alone unless it is a command of the device,
and the reassembler answers the next session as a new one does unless that session begins
in the middle of a payload. Under both conditions the next session is the one that follows
the same events without those notifications.
-/

namespace TuyaBle

namespace World

variable {P : Primitives}

def withReassembler (w : World) (reassembler : PacketReassembler) : World :=
  { w with self := { w.self with reassembler } }

/-! ## Steps do not look at the reassembler -/

/-- The step of the other world, with its reassembler. -/
def carrying (reassembler : PacketReassembler) (p : World × List Obs) : World × List Obs :=
  (p.1.withReassembler reassembler, p.2)

theorem wakeUp_withReassembler (w : World) (reassembler : PacketReassembler) (r : Resumption) :
    (w.withReassembler reassembler).wakeUp r = (w.wakeUp r).map (carrying reassembler) := by
  have hmap : ∀ {c : Prop} [Decidable c] {x y : Option (World × List Obs)},
      (if c then x else y).map (carrying reassembler) =
        if c then x.map (carrying reassembler) else y.map (carrying reassembler) := apply_ite ..
  obtain ⟨self, session, interrupt, futures⟩ := w
  cases interrupt with
  | some i =>
    cases r with
    | woken => cases session <;> rfl
    | _ => rfl
  | none =>
    cases session with
    | connecting =>
      cases r with
      | connected result =>
        cases result with
        | ok link => rfl
        | error e => simp only [withReassembler, wakeUp, hmap]; rfl
      | _ => rfl
    | subscribing =>
      cases r with
      | subscribed result =>
        cases result with
        | ok u => rfl
        | error e => simp only [withReassembler, wakeUp, hmap]; rfl
      | _ => rfl
    | writing request send =>
      cases r with
      | written result =>
        cases result with
        | ok u => rfl
        | error e => simp only [withReassembler, wakeUp, hmap]; rfl
      | _ => rfl
    | waiting request =>
      cases r with
      | woken => simp only [withReassembler, wakeUp, hmap]; rfl
      | _ => rfl
    | collecting collected =>
      cases r with
      | woken => simp only [withReassembler, wakeUp, hmap]; rfl
      | _ => rfl
    | disconnecting outcome =>
      cases r with
      | disconnected result =>
        cases result with
        | ok u => rfl
        | error e => simp only [withReassembler, wakeUp, hmap]; rfl
      | _ => rfl
    | _ => rfl

theorem request_withReassembler (w : World) (reassembler : PacketReassembler) (call : Call)
    (iv : InitializationVector) :
    (w.withReassembler reassembler).request P call iv =
      (w.request P call iv).map (carrying reassembler) := by
  have hk : (w.withReassembler reassembler).keyFor call = w.keyFor call := rfl
  have hs : ∀ key, (w.withReassembler reassembler).self.startSend P
      ((w.withReassembler reassembler).frameFor call) key call.securityFlag iv =
        w.self.startSend P (w.frameFor call) key call.securityFlag iv := fun _ => rfl
  simp only [request, hk, hs]
  cases w.keyFor call with
  | error e => rfl
  | ok key =>
    dsimp only
    cases w.self.startSend P (w.frameFor call) key call.securityFlag iv with
    | none => rfl
    | some result => cases result <;> rfl

theorem proceed_withReassembler (w : World) (reassembler : PacketReassembler)
    (code : TuyaBleCommandCode) (reply : Frame) :
    (w.withReassembler reassembler).proceed P code reply =
      carrying reassembler (w.proceed P code reply) := by
  have hb : ∀ info, buildPairingRequest
      ((w.withReassembler reassembler).self.adoptDeviceInfo P info).credentials =
        buildPairingRequest (w.self.adoptDeviceInfo P info).credentials := fun _ => rfl
  cases code with
  | senderDeviceInfo =>
    cases hp : parseDeviceInfo reply.data with
    | error e => simp only [proceed, hp]; rfl
    | ok info =>
      simp only [proceed, hp, hb]
      cases buildPairingRequest (w.self.adoptDeviceInfo P info).credentials <;> rfl
  | senderPair =>
    unfold proceed
    cases verifyPairingResult reply.data <;> rfl
  | _ => rfl

/-- A turn of the task carries the reassembler along, or drops it with the session state. -/
theorem advance_withReassembler (w : World) (reassembler : PacketReassembler)
    (iv : InitializationVector) :
    (w.withReassembler reassembler).advance P iv = (w.advance P iv).map (carrying reassembler) ∨
      (w.withReassembler reassembler).advance P iv = w.advance P iv := by
  obtain ⟨self, session, interrupt, futures⟩ := w
  cases session with
  | requesting call => exact .inl (request_withReassembler ..)
  | sending request send =>
    apply Or.inl
    cases hr : send.rest <;> simp only [advance, write, withReassembler, hr] <;> rfl
  | replyDue request =>
    apply Or.inl
    simp only [advance, awaitReply, withReassembler]
    split <;> rfl
  | replied code reply => exact .inl (congrArg some (proceed_withReassembler ..))
  | leaving outcome =>
    apply Or.inr
    cases h : self.client <;> simp only [advance, teardown, withReassembler, h] <;> rfl
  | _ => exact .inl rfl

theorem settle_withReassembler (w : World) (reassembler : PacketReassembler)
    (iv : InitializationVector) (fuel : Nat) :
    (w.withReassembler reassembler).settle P iv fuel =
        (w.settle P iv fuel).map (carrying reassembler) ∨
      (w.withReassembler reassembler).settle P iv fuel = w.settle P iv fuel := by
  have hr : (w.withReassembler reassembler).session.running = w.session.running := rfl
  induction fuel generalizing w with
  | zero =>
    simp only [settle, hr]
    cases w.session.running <;> exact .inl rfl
  | succ fuel ih =>
    simp only [settle, hr]
    cases w.session.running with
    | false => exact .inl rfl
    | true =>
      rcases advance_withReassembler (P := P) w reassembler iv with ha | ha
      · rw [ha]
        cases w.advance P iv with
        | none => exact .inl rfl
        | some p =>
          obtain ⟨w', os⟩ := p
          rcases ih w' rfl with hs | hs
          · apply Or.inl
            simp only [Option.map_some, carrying, ↓reduceIte, hs]
            cases w'.settle P iv fuel <;> rfl
          · apply Or.inr
            simp only [Option.map_some, carrying, ↓reduceIte, hs]
      · rw [ha]
        exact .inr rfl

theorem writeReply_withReassembler (w : World) (reassembler : PacketReassembler) (number : Nat)
    (send : Send) :
    (w.withReassembler reassembler).writeReply number send =
      carrying reassembler (w.writeReply number send) := by
  cases hr : send.rest <;> simp only [writeReply, hr] <;> rfl

theorem startReply_withReassembler (w : World) (reassembler : PacketReassembler) (number : Nat)
    (iv : InitializationVector) :
    (w.withReassembler reassembler).startReply P number iv =
      (w.startReply P number iv).map (carrying reassembler) := by
  have ht : (w.withReassembler reassembler).task? number = w.task? number := rfl
  have hk : (w.withReassembler reassembler).self.requireSessionKey = w.self.requireSessionKey := rfl
  have hs : ∀ frame key, (w.withReassembler reassembler).self.startSend P frame key
      securityFlagSessionKey iv = w.self.startSend P frame key securityFlagSessionKey iv :=
    fun _ _ => rfl
  simp only [startReply, ht, hk, hs, writeReply_withReassembler]
  cases w.task? number with
  | none => rfl
  | some task =>
    obtain ⟨frame, send⟩ := task
    cases send with
    | some send => rfl
    | none =>
      dsimp only
      cases w.self.requireSessionKey with
      | error e => rfl
      | ok key =>
        dsimp only
        cases w.self.startSend P frame key securityFlagSessionKey iv with
        | none => rfl
        | some result => cases result <;> rfl

theorem resumeReply_withReassembler (w : World) (reassembler : PacketReassembler) (number : Nat)
    (result : Except PyException Unit) :
    (w.withReassembler reassembler).resumeReply number result =
      (w.resumeReply number result).map (carrying reassembler) := by
  have ht : (w.withReassembler reassembler).task? number = w.task? number := rfl
  simp only [resumeReply, ht, writeReply_withReassembler]
  cases w.task? number with
  | none => rfl
  | some task =>
    obtain ⟨frame, send⟩ := task
    cases send with
    | none => rfl
    | some send =>
      cases result with
      | ok u => rfl
      | error e =>
        dsimp only
        cases e.type.isException <;> rfl

/-- **The lockstep of two worlds that differ in their reassembler**, but for notifications:
they answer alike, and differ no more than before. -/
theorem step_withReassembler (w : World) (reassembler : PacketReassembler) {e : Event}
    (he : e.isNotify = false) :
    (w.withReassembler reassembler).step P e = (w.step P e).map (carrying reassembler) ∨
      (w.withReassembler reassembler).step P e = w.step P e := by
  cases e with
  | startRead =>
    apply Or.inl
    have hs : (w.withReassembler reassembler).session = w.session := rfl
    simp only [step, hs]
    split <;> rfl
  | resume r iv =>
    simp only [step, resume, wakeUp_withReassembler]
    cases w.wakeUp r with
    | none => exact .inl rfl
    | some p =>
      obtain ⟨w', os⟩ := p
      rcases settle_withReassembler (P := P) w' reassembler iv maxTurns with hs | hs
      · apply Or.inl
        simp only [Option.map_some, carrying, hs]
        cases w'.settle P iv maxTurns <;> rfl
      · apply Or.inr
        simp only [Option.map_some, carrying, hs]
  | fire i =>
    apply Or.inl
    have hs : (w.withReassembler reassembler).session = w.session := rfl
    simp only [step, fire, hs]
    cases i.reaches w.session <;> rfl
  | notify chunk clock => cases he
  | replyStart number iv => exact .inl (startReply_withReassembler ..)
  | replyWritten number result => exact .inl (resumeReply_withReassembler ..)

/-! ## Notifications look at it once -/

theorem dispatch_withReassembler (w : World) (reassembler : PacketReassembler) (frame : Frame)
    (clock : Clock) :
    (w.withReassembler reassembler).dispatch frame clock =
      carrying reassembler (w.dispatch frame clock) := by
  have hp : (w.withReassembler reassembler).self.pending = w.self.pending := rfl
  have hf : (w.withReassembler reassembler).futures = w.futures := rfl
  simp only [dispatch, hp, hf, route_eq]
  cases w.self.pending.get? frame.responseTo with
  | none => cases commandOf frame clock <;> rfl
  | some future =>
    dsimp only
    by_cases h : w.futures[future]? = some .pending
    · rw [if_pos h, if_pos h]
      rfl
    · rw [if_neg h, if_neg h]
      cases commandOf frame clock <;> rfl

/-- Reassemblers that answer a chunk alike make the notification do the same. -/
theorem onNotification_withReassembler (w : World) {reassembler : PacketReassembler} {chunk : Bytes}
    (h : ∀ result, (reassembler.feed chunk).2 = .ok result ↔
      (w.self.reassembler.feed chunk).2 = .ok result) (clock : Clock) :
    (w.withReassembler reassembler).onNotification P chunk clock =
      carrying (reassembler.feed chunk).1 (w.onNotification P chunk clock) := by
  have hr : (w.withReassembler reassembler).self.reassembler = reassembler := rfl
  have hread : (w.withReassembler reassembler).self.readPayload P = w.self.readPayload P := rfl
  have hfails := PacketReassembler.feed_fails reassembler chunk
  have hfails' := PacketReassembler.feed_fails w.self.reassembler chunk
  simp only [onNotification, TuyaBleClient.receive, hr, hread]
  generalize hs : reassembler.feed chunk = s at h hfails ⊢
  generalize hs' : w.self.reassembler.feed chunk = s' at h hfails' ⊢
  obtain ⟨state, result⟩ := s
  obtain ⟨state', result'⟩ := s'
  cases result' with
  | error e' =>
    cases result with
    | error e =>
      have he := hfails e rfl
      have he' := hfails' e' rfl
      simp only [escaping, PyException.isTuyaBleError, he, he']
      rfl
    | ok result => cases (h result).1 rfl
  | ok result' =>
    obtain rfl : result = .ok result' := (h result').2 rfl
    cases result' with
    | none => rfl
    | some payload =>
      dsimp only
      cases w.self.readPayload P payload with
      | error e => rfl
      | ok frame =>
        cases frame with
        | none => rfl
        | some frame =>
          have := dispatch_withReassembler
            { w with self := { w.self with reassembler := state' } } state frame clock
          exact congrArg (fun p : World × List Obs => (p.1, Obs.received frame :: p.2)) this

theorem Notified.reassembler_eq {w w' : World} {chunk : Bytes} {clock : Clock} {os : List Obs}
    (h : Notified P w chunk clock w' os) :
    w'.self.reassembler = (w.self.reassembler.feed chunk).1 := by
  cases h <;> rfl

/-- Without notifications a new reassembler stays one. -/
theorem new_keeps : Keeps P (fun _ _ e => e.isNotify = false)
    fun _ _ w => w.self.reassembler = .new where
  wakeUp h _ hw := by cases hw <;> exact h
  advance h ha := by cases ha <;> first | exact h | rfl
  fire h _ hf := by
    obtain ⟨-, -, _, rfl, -⟩ := fire_eq hf
    exact h
  notify _ hc _ := nomatch hc
  reply h _ hr := by
    obtain ⟨_, rfl, -⟩ := hr.frame
    exact h

end World

/-! ## The session after a closing link -/

/-- The first fragment with an index, and the reassembler it is fed to. -/
def firstFragment (tr : List (World × Event)) : Option (PacketReassembler × Bytes) :=
  tr.findSome? fun
    | (w, .notify chunk _) =>
      if PacketReassembler.readable chunk then some (w.self.reassembler, chunk) else none
    | _ => none

/-- The first fragment of a session does not continue what was left unfinished before. -/
def StartsAnew (tr : List (World × Event)) : Prop :=
  ∀ p, firstFragment tr = some p → p.1.continues p.2 = false

theorem firstFragment_append (tr tr' : List (World × Event)) :
    firstFragment (tr ++ tr') = (firstFragment tr).or (firstFragment tr') :=
  List.findSome?_append

theorem StartsAnew.of_append {tr tr' : List (World × Event)} (h : StartsAnew (tr ++ tr')) :
    StartsAnew tr := fun p hp => h p (by rw [firstFragment_append, hp]; rfl)

namespace ClosingLink

variable {P : Primitives} {C : List Obs → World → Event → Prop}

/-- `b` is `a` but for a payload `a` was left with, until the first fragment. -/
def Alike (tr : List (World × Event)) (a b : World) : Prop :=
  a = b ∨ ∃ reassembler, a = b.withReassembler reassembler ∧ b.self.reassembler = .new ∧
    (reassembler.nextIndex = 0 ∨ firstFragment tr = none)

theorem alike_notify {tr : List (World × Event)} {a b a' : World} {chunk : Bytes} {clock : Clock}
    {os : List Obs} (h : Alike tr a b) (hanew : StartsAnew (tr ++ [(a, .notify chunk clock)]))
    (hs : a.onNotification P chunk clock = (a', os)) :
    ∃ b', b.onNotification P chunk clock = (b', os) ∧
      Alike (tr ++ [(a, .notify chunk clock)]) a' b' := by
  rcases h with rfl | ⟨reassembler, rfl, hb, hleft⟩
  · exact ⟨a', hs, .inl rfl⟩
  · have hcont : reassembler.continues chunk = false := by
      rcases hleft with hidle | hnone
      · exact PacketReassembler.continues_of_nextIndex hidle chunk
      · cases hread : PacketReassembler.readable chunk with
        | false => exact PacketReassembler.continues_eq_false _ hread
        | true =>
          exact hanew (reassembler, chunk) (by
            rw [firstFragment_append, hnone]
            simp [firstFragment, hread, World.withReassembler])
    obtain ⟨hresult, hstate⟩ := PacketReassembler.feed_anew hcont
    have hn := World.onNotification_withReassembler (P := P) b (by rw [hb]; exact hresult) clock
    have hfed := (World.onNotification_notified P b chunk clock).reassembler_eq
    rw [hb] at hfed
    rw [hs] at hn
    obtain ⟨rfl, rfl⟩ := Prod.mk.inj hn
    refine ⟨_, rfl, ?_⟩
    rcases hstate with heq | ⟨hnew, hleft'⟩
    · left
      rw [heq, ← hfed]
      rfl
    · refine .inr ⟨_, rfl, hfed.trans hnew, ?_⟩
      rcases hleft' with hidle | ⟨hsame, hread⟩
      · exact .inl hidle
      · rw [hsame]
        refine hleft.imp_right fun hnone => ?_
        rw [firstFragment_append, hnone]
        simp [firstFragment, hread]

theorem alike_step {tr : List (World × Event)} {a b a' : World} {e : Event} {os : List Obs}
    (h : Alike tr a b) (hne : e ≠ .startRead) (hanew : StartsAnew (tr ++ [(a, e)]))
    (hs : a.step P e = some (a', os)) :
    ∃ b', b.step P e = some (b', os) ∧ Alike (tr ++ [(a, e)]) a' b' := by
  cases he : e.isNotify with
  | true =>
    cases e with
    | notify chunk clock =>
      obtain ⟨b', hb, hal⟩ := alike_notify h hanew (Option.some.inj hs)
      exact ⟨b', congrArg some hb, hal⟩
    | _ => cases he
  | false =>
    rcases h with rfl | ⟨reassembler, rfl, hb, hleft⟩
    · exact ⟨a', hs, .inl rfl⟩
    · rcases World.step_withReassembler (P := P) b reassembler he with hstep | hstep
      · rw [hstep] at hs
        obtain ⟨⟨b', os'⟩, hbs, hmap⟩ := Option.map_eq_some_iff.1 hs
        obtain ⟨rfl, rfl⟩ := Prod.mk.inj hmap
        refine ⟨b', hbs, .inr ⟨reassembler, rfl, ?_, hleft.imp_right fun hnone => ?_⟩⟩
        · exact World.new_keeps.step [] [] hb ⟨hne, he⟩ hbs
        · rw [firstFragment_append, hnone]
          cases e with
          | notify chunk clock => cases he
          | _ => rfl
      · rw [hstep] at hs
        exact ⟨a', hs, .inl rfl⟩

/-- A session alike is the same session. -/
theorem follow {a0 b0 a : World} {tr : List (World × Event)} {os : List Obs}
    (h : (machine P).Runs (WithinRead C) a0 tr os a) (h0 : Alike [] a0 b0) (hanew : StartsAnew tr) :
    ∃ b, (machine P).exec b0 (tr.map Prod.snd) = some (b, os) ∧ Alike tr a b := by
  induction h with
  | refl => exact ⟨b0, rfl, h0⟩
  | snoc _ hc hs ih =>
    obtain ⟨b, he, hal⟩ := ih hanew.of_append
    obtain ⟨b', hs', hal'⟩ := alike_step hal hc.1 hanew hs
    exact ⟨b', by rw [List.map_append]; exact Machine.exec_snoc he hs', hal'⟩

/-! ### The window -/

/-- The client between the teardown and the next connection. -/
structure Window (w : World) : Prop where
  stage : w.session.over ∨ w.session = .connecting
  reassembler_eq : w.self.reassembler = .new
  pending_eq : w.self.pending = []
  sequenceNumber_eq : w.self.sequenceNumber = 1

theorem Window.of_cleared {w : World} (h : w.Cleared) : Window w :=
  ⟨.inl h.stage_over, by rw [h.self_eq]; rfl, by rw [h.self_eq]; rfl, by rw [h.self_eq]; rfl⟩

end ClosingLink

/-- Up to the answer to `establish_connection`. -/
def Unconnected (_ : List Obs) (w : World) (e : Event) : Prop :=
  w.session = .connecting → e.isResume = false

instance (os : List Obs) (w : World) (e : Event) : Decidable (Unconnected os w e) :=
  inferInstanceAs (Decidable (_ → _))

/-- Up to there, and no command of the device is read. -/
def Closing (P : Primitives) (os : List Obs) (w : World) (e : Event) : Prop :=
  Unconnected os w e ∧ deviceCommands P w e = false

instance (P : Primitives) (os : List Obs) (w : World) (e : Event) : Decidable (Closing P os w e) :=
  inferInstanceAs (Decidable (_ ∧ _))

/-- The events but the notifications. -/
def undelivered (tr : List (World × Event)) : List Event :=
  (tr.map Prod.snd).filter fun e => ¬ e.isNotify

namespace ClosingLink

variable {P : Primitives}

theorem window_keeps : Keeps P (fun os w e => e.isNotify = false ∧ Unconnected os w e)
    fun _ _ w => Window w where
  wakeUp {tr os w r iv w' os'} h hc hw := by
    have hover : w.session.over := h.stage.resolve_right fun hs => nomatch hc.2 hs
    have hout : ∀ {s}, w.session = s → ¬ s.over → Window w' :=
      fun hs ho => absurd (hs ▸ hover) ho
    cases hw with
    | connected link hi hs => exact hout hs id
    | subscribed hi hs => exact hout hs id
    | connectFailed e hi hs he => exact hs.elim (hout · id) (hout · id)
    | connectTimedOut hi hs => exact hout hs id
    | connectCancelled i hi hs => exact hs.elim (hout ·.1 id) (hout · id)
    | written request send hi hs hr => exact hout hs id
    | writeFailed request send e hi hs hr he => exact hout hs id
    | writeCancelled i request send hi hs => exact hout hs id
    | replied request hi hs hf => exact hout hs id
    | waitEnded i request hi hs => exact hout hs id
    | reported collected hi hs hr => exact hout hs id
    | quiet collected hi hs => exact hout hs id
    | collectCancelled i collected hi hd hs => exact hout hs id
    | disconnected outcome hi hs => exact { h with stage := .inl trivial }
    | disconnectCancelled i outcome hi hd hs => exact { h with stage := .inl trivial }
  advance {tr os w iv w' os'} h ha := by
    rcases h.stage with hover | hs
    · exact nomatch ha.running.symm.trans (Session.running_of_over hover)
    · have := ha.running
      rw [hs] at this
      cases this
  fire h _ hf := by
    obtain ⟨-, -, _, rfl, -⟩ := World.fire_eq hf
    exact ⟨h.stage, h.reassembler_eq, h.pending_eq, h.sequenceNumber_eq⟩
  notify _ hc _ := nomatch hc.1
  reply h _ hr := by
    obtain ⟨_, rfl, -⟩ := hr.frame
    exact ⟨h.stage, h.reassembler_eq, h.pending_eq, h.sequenceNumber_eq⟩

/-- What is delivered in the window changes the reassembler alone. -/
theorem window_notified {w w' : World} {reassembler : PacketReassembler} {chunk : Bytes}
    {clock : Clock} {os : List Obs} (h : Window w)
    (hc : deviceCommands P (w.withReassembler reassembler) (.notify chunk clock) = false)
    (hn : World.Notified P (w.withReassembler reassembler) chunk clock w' os) :
    ∃ reassembler', w' = w.withReassembler reassembler' := by
  have hp : (w.withReassembler reassembler).self.pending = [] := h.pending_eq
  cases hn with
  | quiet hr => exact ⟨_, rfl⟩
  | completed frame future hr ha => simp [World.awaited, hp] at ha
  | ignored frame hr ha hcmd =>
    refine ⟨(reassembler.feed chunk).1, ?_⟩
    have := h.pending_eq
    simp only [World.popped, World.fed, World.withReassembler, this, Dict.erase_nil]
  | handled frame dataPoints data hr ha hcmd => simp [deviceCommands, hr, hcmd] at hc

theorem follow_window {w0 a : World} {tr : List (World × Event)} {os : List Obs}
    (h : (machine P).Runs (Closing P) w0 tr os a) (h0 : Window w0) :
    ∃ b os' reassembler, (machine P).exec w0 (undelivered tr) = some (b, os') ∧ Window b ∧
      a = b.withReassembler reassembler := by
  induction h with
  | refl => exact ⟨w0, [], w0.self.reassembler, rfl, h0, rfl⟩
  | @snoc tr os os' a a' e _ hc hs ih =>
    obtain ⟨b, os1, reassembler, hb, hw, rfl⟩ := ih
    cases he : e.isNotify with
    | true =>
      cases e with
      | notify chunk clock =>
        have hn := World.onNotification_notified P (b.withReassembler reassembler) chunk clock
        rw [show World.onNotification P (b.withReassembler reassembler) chunk clock = (a', os') from
          Option.some.inj hs] at hn
        obtain ⟨reassembler', rfl⟩ := window_notified hw hc.2 hn
        refine ⟨b, os1, reassembler', ?_, hw, rfl⟩
        simpa [undelivered, Event.isNotify] using hb
      | _ => cases he
    | false =>
      have hu : undelivered (tr ++ [(b.withReassembler reassembler, e)]) =
          undelivered tr ++ [e] := by
        simp [undelivered, he]
      have hkeep : ∀ {b' os2}, b.step P e = some (b', os2) → Window b' := fun {b' os2} hbs => by
        by_cases hstart : e = .startRead
        · subst hstart
          simp only [World.step] at hbs
          split at hbs <;> cases hbs
          exact { hw with stage := .inr rfl }
        · exact window_keeps.step [] [] hw ⟨hstart, he, hc.1⟩ hbs
      rw [hu]
      rcases World.step_withReassembler (P := P) b reassembler he with hstep | hstep
      · rw [show (machine P).step _ e = _ from hstep] at hs
        obtain ⟨⟨b', os2⟩, hbs, hmap⟩ := Option.map_eq_some_iff.1 hs
        obtain ⟨rfl, rfl⟩ := Prod.mk.inj hmap
        exact ⟨b', _, reassembler, Machine.exec_snoc hb hbs, hkeep hbs, rfl⟩
      · rw [show (machine P).step _ e = _ from hstep] at hs
        exact ⟨a', _, a'.self.reassembler, Machine.exec_snoc hb hs, hkeep hs, rfl⟩

/-! ### The first number -/

/-- The first frame of a session has the number 1 if it is a request. -/
def NumberedFromOne (past : List Obs) : Obs → Prop
  | .registered number => (∀ frame, .built frame ∉ past) → number = 1
  | _ => True

structure Counting (os : List Obs) (w : World) : Prop where
  along : Along NumberedFromOne [] os
  first : (∀ frame, .built frame ∉ os) → w.self.sequenceNumber = 1

theorem Counting.of_step {os os' : List Obs} {w w' : World} (h : Counting os w)
    (hr : ∀ number, .registered number ∉ os')
    (hn : (∀ frame, .built frame ∉ os') → w'.self.sequenceNumber = w.self.sequenceNumber ∨
      w'.self.sequenceNumber = 1) : Counting (os ++ os') w' where
  along := Along.append.2 ⟨h.along, .of_forall fun _ o ho => by
    cases o with
    | registered number => exact absurd ho (hr number)
    | _ => trivial⟩
  first hb := by
    rcases hn fun frame hm => hb frame (List.mem_append_right _ hm) with he | he
    · rw [he]
      exact h.first fun frame hm => hb frame (List.mem_append_left _ hm)
    · exact he

theorem Counting.of_request {os os' : List Obs} {w w' : World} (h : Counting os w) {frame : Frame}
    (hr : ∀ number, .registered number ∉ os') :
    Counting (os ++ .registered w.self.sequenceNumber :: .built frame :: os') w' where
  along := Along.append.2 ⟨h.along, h.first, trivial, .of_forall fun _ o ho => by
    cases o with
    | registered number => exact absurd ho (hr number)
    | _ => trivial⟩
  first hb := absurd (by simp) (hb frame)

theorem counting_keeps : Keeps P C fun _ os w => Counting os w where
  wakeUp h _ hw := h.of_step (by cases hw <;> simp) fun _ => .inl (by cases hw <;> rfl)
  advance h ha := by
    cases ha with
    | requestFailed call e hs hf => exact h.of_request (by simp)
    | requestSending call key send hs hk hf => exact h.of_request (by simp)
    | reset outcome link hs hc =>
      exact h.of_step (by simp [World.cancelled]) fun _ => .inr rfl
    | ended outcome hs hc => exact h.of_step (by simp [World.cancelled]) fun _ => .inr rfl
    | _ => exact h.of_step (by simp) fun _ => .inl rfl
  fire h _ hf := by
    obtain ⟨-, rfl, _, rfl, -⟩ := World.fire_eq hf
    exact h.of_step (by simp) fun _ => .inl rfl
  notify {tr os w chunk clock w' os'} h _ hn := by
    cases hn with
    | handled frame dataPoints data hr ha hc =>
      exact h.of_step (by simp [TuyaBleClient.handledObs]) fun hb =>
        absurd (by simp [TuyaBleClient.handledObs]) (hb (w.self.responseTo frame data))
    | _ => exact h.of_step (by simp) fun _ => .inl rfl
  reply h _ hr := by
    refine h.of_step (fun number hm => ?_) fun _ => .inl ?_
    · exact absurd (hr.ofSend _ hm) id
    · obtain ⟨_, rfl, -⟩ := hr.frame
      rfl

end ClosingLink

variable {P : Primitives}

/-- **Nothing a closing link delivers reaches the next session** if no command of the device
is read before the connection and the first fragment after it continues no payload: without
those notifications the session is the same, and its first request has the number 1. -/
theorem closing_link_leaks_nothing {z w0 w1 w2 : World} {e : Event} {os0 os1 os2 : List Obs}
    {tr1 tr2 : List (World × Event)} (hreset : (machine P).step z e = some (w0, os0))
    (hm : .reset ∈ os0) (h1 : (machine P).Runs (Closing P) w0 tr1 os1 w1)
    (h2 : (machine P).Runs (WithinRead Machine.Free) w1 tr2 os2 w2) (hanew : StartsAnew tr2) :
    (∃ b os b2, (machine P).exec w0 (undelivered tr1) = some (b, os) ∧
      (machine P).exec b (tr2.map Prod.snd) = some (b2, os2)) ∧
      ∀ past number rest, os2 = past ++ .registered number :: rest →
        (∀ frame, .built frame ∉ past) → number = 1 := by
  have hne : e ≠ .startRead := by
    rintro rfl
    simp only [machine, World.step] at hreset
    split at hreset <;> cases hreset
    cases hm
  have hcleared : w0.Cleared := World.cleared_keeps.step [] []
    (fun hm => absurd hm List.not_mem_nil) ⟨hne, fun hm => absurd hm List.not_mem_nil⟩ hreset hm
  obtain ⟨b, os, reassembler, hb, hw, rfl⟩ :=
    ClosingLink.follow_window h1 (.of_cleared hcleared)
  obtain ⟨b2, hb2, -⟩ := ClosingLink.follow h2
    (.inr ⟨reassembler, rfl, hw.reassembler_eq, .inr rfl⟩) hanew
  have hcount := ClosingLink.counting_keeps.runs h2 ⟨trivial, fun _ => hw.sequenceNumber_eq⟩
  exact ⟨⟨b, os, b2, hb, hb2⟩, fun past number rest he => hcount.along.at he⟩

namespace ClosingLink

open FakeDevice

/-- A read up to the cancellation its teardown follows. -/
def cancelledRead : List Event := [.startRead, connected, subscribed, .fire .caller]

/-- A frame that answers nothing any more, the beginning of another, and the next read. -/
def harmlessWindow : List Event :=
  [send ⟨101, 1, 0, buildDeviceInfo 3⟩ true, disconnected, .notify [0, 33, 0x30, 4] clock,
   .startRead]

/-- A report under the login key, and the next read. -/
def reportWindow : List Event :=
  [send ⟨104, 0, 0x8001, report⟩ true, disconnected, .startRead]

end ClosingLink

open FakeDevice ClosingLink in
theorem closing_link_leaks_nothing_session : ∃ z w0 w1 w2 os0 os1 os2 tr1 tr2,
    (machine primitives).step z woken = some (w0, os0) ∧ .reset ∈ os0 ∧
    (machine primitives).execWhere (Closing primitives) [] [] w0 harmlessWindow =
      some (tr1, os1, w1) ∧
    (machine primitives).execWhere (WithinRead Machine.Free) [] [] w1 session =
      some (tr2, os2, w2) ∧
    (∃ b os b2, (machine primitives).exec w0 (undelivered tr1) = some (b, os) ∧
      (machine primitives).exec b (tr2.map Prod.snd) = some (b2, os2)) ∧
      ∀ past number rest, os2 = past ++ .registered number :: rest →
        (∀ frame, .built frame ∉ past) → number = 1 := by
  have hx : (((machine primitives).exec client cancelledRead).bind fun z =>
      ((machine primitives).step z.1 woken).bind fun reset =>
      ((machine primitives).execWhere (Closing primitives) [] [] reset.1 harmlessWindow).bind
        fun window =>
      ((machine primitives).execWhere (WithinRead Machine.Free) [] [] window.2.2 session).map
        fun read => (decide (.reset ∈ reset.2),
          (firstFragment read.1).map fun p => p.1.continues p.2)) =
      some (true, some false) := by decide +kernel
  obtain ⟨⟨z, _⟩, -, hx⟩ := Option.bind_eq_some_iff.1 hx
  obtain ⟨⟨w0, os0⟩, hreset, hx⟩ := Option.bind_eq_some_iff.1 hx
  obtain ⟨⟨tr1, os1, w1⟩, h1, hx⟩ := Option.bind_eq_some_iff.1 hx
  obtain ⟨⟨tr2, os2, w2⟩, h2, hx⟩ := Option.map_eq_some_iff.1 hx
  obtain ⟨hm, hfirst⟩ := Prod.mk.inj hx
  have hm : Obs.reset ∈ os0 := of_decide_eq_true hm
  have hanew : StartsAnew tr2 := fun p hp => by simpa [hp] using hfirst
  exact ⟨z, w0, w1, w2, os0, os1, os2, tr1, tr2, hreset, hm, h1, h2,
    closing_link_leaks_nothing hreset hm (Machine.runs_of_execWhere h1)
      (Machine.runs_of_execWhere h2) hanew⟩

open FakeDevice ClosingLink in
/-- The acknowledgement of a report takes the number of the next session's first request. -/
theorem late_report_takes_first_number : ¬ ∀ z w0 w1 w2 e os0 os1 os2 tr1 tr2,
    (machine primitives).Reachable client z → (machine primitives).step z e = some (w0, os0) →
    .reset ∈ os0 → (machine primitives).Runs Unconnected w0 tr1 os1 w1 →
    (machine primitives).Runs (WithinRead Machine.Free) w1 tr2 os2 w2 →
    (∃ b os b2, (machine primitives).exec w0 (undelivered tr1) = some (b, os) ∧
      (machine primitives).exec b (tr2.map Prod.snd) = some (b2, os2)) ∧
      ∀ past number rest, os2 = past ++ .registered number :: rest →
        (∀ frame, .built frame ∉ past) → number = 1 := by
  intro h
  have hx : (((machine primitives).execWhere Machine.Free [] [] client cancelledRead).bind
      fun z => ((machine primitives).step z.2.2 woken).bind fun reset =>
      ((machine primitives).execWhere Unconnected [] [] reset.1 reportWindow).bind fun window =>
      ((machine primitives).execWhere (WithinRead Machine.Free) [] [] window.2.2
        [connected, subscribed]).map fun read =>
          (decide (.reset ∈ reset.2), read.2.1.head?)) = some (true, some (.registered 2)) := by
    decide +kernel
  obtain ⟨⟨_, _, z⟩, h0, hx⟩ := Option.bind_eq_some_iff.1 hx
  obtain ⟨⟨w0, os0⟩, hreset, hx⟩ := Option.bind_eq_some_iff.1 hx
  obtain ⟨⟨tr1, os1, w1⟩, h1, hx⟩ := Option.bind_eq_some_iff.1 hx
  obtain ⟨⟨tr2, os2, w2⟩, h2, hx⟩ := Option.map_eq_some_iff.1 hx
  obtain ⟨hm, hhead⟩ := Prod.mk.inj hx
  have hfirst := (h z w0 w1 w2 woken os0 os1 os2 tr1 tr2 ⟨_, _, Machine.runs_of_execWhere h0⟩ hreset
    (of_decide_eq_true hm) (Machine.runs_of_execWhere h1) (Machine.runs_of_execWhere h2)).2
  obtain ⟨rest, rfl⟩ := List.head?_eq_some_iff.1 hhead
  exact absurd (hfirst [] 2 rest rfl (by simp)) (by decide)

end TuyaBle
