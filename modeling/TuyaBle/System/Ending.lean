import Mathlib.Algebra.GroupWithZero.Nat
import TuyaBle.Lib.Ranking
import TuyaBle.Client.Progress
import TuyaBle.System.Outcome

/-!
# A read ends

Every step of a read lowers a rank: first the requests the device has yet to get, then the
packets under way, what the session task has yet to do, whether a deadline may expire, and
what the reply tasks have yet to do. So a read that is never stuck ends.
-/

namespace TuyaBle

open FakeBleakClient

/-! ## What is left of a read -/

/-- The requests from this one on. -/
def TuyaBleCommandCode.turnsLeft : TuyaBleCommandCode → Nat
  | .senderDeviceInfo => 3
  | .senderPair => 2
  | _ => 1

namespace World

/-- The future has a result. -/
def answered (w : World) (request : Request) : Bool :=
  match w.futures[request.pending]? with
  | some (.done _) => true
  | _ => false

/-- The stages the session task has yet to go through. -/
def stagesLeft (w : World) : Nat :=
  match w.session with
  | .connecting => 25
  | .subscribing => 24
  | .requesting call => 6 * call.code.turnsLeft + 5
  | .sending request _ | .writing request _ => 6 * request.code.turnsLeft + 4
  | .waiting request => 6 * request.code.turnsLeft + if w.answered request then 3 else 1
  | .replyDue request => 6 * request.code.turnsLeft + 2
  | .replied code _ => 6 * code.turnsLeft
  | .draining _ | .collecting _ => 4
  | .failed .. => 3
  | .leaving _ => 2
  | .disconnecting _ => 1
  | .idle => 0

/-- What it has yet to do in a stage it goes round in. -/
def turnsLeft (w : World) : Nat :=
  match w.session with
  | .sending _ send => 2 * send.rest.length + 1
  | .writing _ send => 2 * send.rest.length + 2
  | .draining _ => 1
  | .collecting _ => if w.self.reports = [] then 0 else 2
  | _ => 0

def sessionRank (w : World) : ℕ ×ₗ ℕ := toLex (w.stagesLeft, w.turnsLeft)

/-- The reply tasks that have not started, and the packets the others have yet to write. -/
def replyRank (w : World) : ℕ ×ₗ ℕ :=
  toLex (w.self.background.countP fun task => task.send.isNone,
    (w.self.background.map fun task =>
      (task.send.map fun send => send.rest.length + 1).getD 0).sum)

variable {P : Primitives} {w w' : World} {os : List Obs}

theorem turnsLeft_pos (code : TuyaBleCommandCode) : 1 ≤ code.turnsLeft := by
  cases code <;> decide

theorem turnsLeft_le (code : TuyaBleCommandCode) : code.turnsLeft ≤ 3 := by
  cases code <;> decide

/-- **Every turn of the task lowers its rank.** -/
theorem Advanced.sessionRank_lt {iv : InitializationVector} (h : Advanced P w iv w' os) :
    w'.sessionRank < w.sessionRank := by
  have hpos := turnsLeft_pos
  cases h with
  | requestFailed call e hs =>
    have := hpos call.code
    exact toLex_lt_of_left (by simp only [stagesLeft, hs]; omega)
  | requestSending call key send hs =>
    exact toLex_lt_of_left (by simp only [stagesLeft, hs, requestFor]; omega)
  | sent request send hs hr =>
    exact toLex_lt_of_left (by simp only [stagesLeft, hs]; omega)
  | wrote request send packet rest hs hr =>
    exact toLex_lt_of_right (by simp only [stagesLeft, hs])
      (by simp only [turnsLeft, hs, hr, List.length_cons]; omega)
  | returned request reply hs hf =>
    exact toLex_lt_of_left (by simp only [stagesLeft, hs]; omega)
  | replyCancelled request hs hf =>
    have := hpos request.code
    exact toLex_lt_of_left (by simp only [stagesLeft, hs]; omega)
  | waiting request hs hd =>
    have hanswered : answered { w with session := .waiting request } request = false := by
      unfold answered
      split
      · exact absurd ‹_› (hd _)
      · rfl
    exact toLex_lt_of_left (by simp only [stagesLeft, hs, hanswered]; simp)
  | failed request e hs =>
    exact toLex_lt_of_left (by simp only [stagesLeft, hs]; omega)
  | refused code reply e hs hr =>
    have := hpos code
    exact toLex_lt_of_left (by simp only [stagesLeft, hs]; omega)
  | adopted reply info data hs hp hb =>
    exact toLex_lt_of_left (by simp [stagesLeft, hs, pairCall, TuyaBleCommandCode.turnsLeft])
  | adoptedOnly reply info e hs hp hb =>
    exact toLex_lt_of_left (by simp [stagesLeft, hs, TuyaBleCommandCode.turnsLeft])
  | paired reply hs hp =>
    exact toLex_lt_of_left
      (by simp [stagesLeft, hs, deviceStatusCall, TuyaBleCommandCode.turnsLeft])
  | acknowledged code reply hs hi hp =>
    have := hpos code
    exact toLex_lt_of_left (by simp only [stagesLeft, hs]; omega)
  | drained collected hs =>
    exact toLex_lt_of_right (by simp only [stagesLeft, hs, drain])
      (by simp [turnsLeft, hs, drain])
  | reset outcome link hs hc => exact toLex_lt_of_left (by simp only [stagesLeft, hs]; omega)
  | ended outcome hs hc => exact toLex_lt_of_left (by simp only [stagesLeft, hs]; omega)

theorem settle_sessionRank_le {iv : InitializationVector} {fuel : Nat}
    (h : w.settle P iv fuel = some (w', os)) : w'.sessionRank ≤ w.sessionRank := by
  induction fuel generalizing w os with
  | zero =>
    simp only [settle] at h
    split at h <;> cases h
    exact le_rfl
  | succ fuel ih =>
    simp only [settle] at h
    split at h
    · split at h
      · cases h
      · rename_i ha
        split at h
        · cases h
        · rename_i hs
          cases h
          exact (ih hs).trans (advance_advanced ha).sessionRank_lt.le
    · cases h
      exact le_rfl

/-- So does what wakes it, when a request is woken by its answer only. -/
theorem Woken.sessionRank_lt {r : Resumption} (h : Woken w r w' os)
    (hanswered : ∀ request, w.session = .waiting request →
      w.futures[request.pending]? ≠ some .pending → w.answered request = true) :
    w'.sessionRank < w.sessionRank := by
  have hpos := turnsLeft_pos
  cases h with
  | connected link hi hs =>
    exact toLex_lt_of_left (by simp only [stagesLeft, hs]; omega)
  | subscribed hi hs =>
    have := turnsLeft_le w.self.deviceInfoCall.code
    exact toLex_lt_of_left (by simp only [stagesLeft, hs]; omega)
  | connectFailed e hi hs =>
    rcases hs with hs | hs <;> exact toLex_lt_of_left (by simp only [stagesLeft, hs]; omega)
  | connectTimedOut hi hs => exact toLex_lt_of_left (by simp only [stagesLeft, hs]; omega)
  | connectCancelled i hi hs =>
    rcases hs with ⟨hs, -⟩ | hs <;> exact toLex_lt_of_left (by simp only [stagesLeft, hs]; omega)
  | written request send hi hs =>
    exact toLex_lt_of_right (by simp only [stagesLeft, hs]) (by simp only [turnsLeft, hs]; omega)
  | writeFailed request send e hi hs =>
    have := hpos request.code
    exact toLex_lt_of_left (by simp only [stagesLeft, hs]; omega)
  | writeCancelled i request send hi hs =>
    have := hpos request.code
    exact toLex_lt_of_left (by simp only [stagesLeft, hs]; omega)
  | replied request hi hs hf =>
    exact toLex_lt_of_left (by simp only [stagesLeft, hs, hanswered request hs hf]; simp)
  | waitEnded i request hi hs =>
    have := hpos request.code
    exact toLex_lt_of_left (by simp only [stagesLeft, hs]; omega)
  | reported collected hi hs hr =>
    exact toLex_lt_of_right (by simp only [stagesLeft, hs])
      (by simp only [turnsLeft, hs, if_neg hr]; omega)
  | quiet collected hi hs => exact toLex_lt_of_left (by simp only [stagesLeft, hs]; omega)
  | collectCancelled i collected hi hd hs =>
    exact toLex_lt_of_left (by simp only [stagesLeft, hs]; omega)
  | disconnected outcome hi hs => exact toLex_lt_of_left (by simp only [stagesLeft, hs]; omega)
  | disconnectCancelled i outcome hi hd hs =>
    exact toLex_lt_of_left (by simp only [stagesLeft, hs]; omega)

/-- A deadline that expires leaves it alone. -/
theorem fire_sessionRank {i : Interrupt} (h : w.fire i = some (w', os)) :
    w'.sessionRank = w.sessionRank ∧ w'.interrupt ≠ none ∧ w'.self = w.self := by
  obtain ⟨-, -, futures, rfl, hf⟩ := fire_eq h
  refine ⟨?_, by simp, rfl⟩
  rcases hf with rfl | ⟨request, hs, hp, rfl⟩
  · rfl
  · have hbefore : w.answered request = false := by simp only [answered, hp]
    have hafter : answered { w with
        session := .waiting request
        interrupt := some (Interrupt.outermost w.interrupt i)
        futures := w.futures.set request.pending .cancelled } request = false := by
      unfold answered
      rw [List.getElem?_set_self (List.getElem?_eq_some_iff.1 hp).1]
    simp only [sessionRank, stagesLeft, turnsLeft, hs, hbefore, hafter]

/-- Every step of a reply task lowers the rank of the tasks. -/
theorem Replied.replyRank_lt {e : Event} (hn : w.Numbered) (h : Replied P w e w' os) :
    w'.replyRank < w.replyRank := by
  have hdiscard : ∀ {number : Nat} {task : ReplyTask}, w.task? number = some task →
      (w.discard number).replyRank < w.replyRank := by
    intro number task ht
    obtain ⟨before, after, he, hne⟩ := Writes.split_task hn ht
    have hnumber := (task?_mem ht).2
    simp only [replyRank, Writes.discard_background he hnumber hne, he]
    cases hsend : task.send with
    | none => exact toLex_lt_of_left (by simp [hsend])
    | some send =>
      exact toLex_lt_of_right (by simp [List.countP_append, hsend])
        (by simp [hsend])
  have hsuspend : ∀ {number : Nat} {task : ReplyTask} {send : Send},
      w.task? number = some task →
      (∀ old, task.send = some old → send.rest.length < old.rest.length) →
      (w.suspend number send).replyRank < w.replyRank := by
    intro number task send ht hlt
    obtain ⟨before, after, he, hne⟩ := Writes.split_task hn ht
    have hnumber := (task?_mem ht).2
    simp only [replyRank, Writes.suspend_background he hnumber hne, he]
    cases hsend : task.send with
    | none => exact toLex_lt_of_left (by simp [hsend])
    | some old =>
      have := hlt old hsend
      exact toLex_lt_of_right (by simp [hsend]) (by simp [hsend]; omega)
  cases h with
  | ended number iv task ht hs => exact hdiscard ht
  | aborted number e frame send ht => exact hdiscard ht
  | started number iv frame key send ht hk hs =>
    unfold writeReply
    split
    · exact hdiscard ht
    · exact hsuspend ht fun old ho => nomatch ho
  | resumed number frame send ht =>
    unfold writeReply
    split
    · exact hdiscard ht
    · rename_i packet rest hr
      refine hsuspend ht fun old ho => ?_
      cases ho
      simp [hr]

end World

namespace FakeBleakClient

variable {P : Primitives} {D : Peripheral} {random : Nat → InitializationVector}
  {self self' : FakeBleakClient} {result : Except PyException Unit}

theorem send_received {answer : Answer} (h : self.send P D random answer = some (self', result)) :
    self'.received = self.received := by
  unfold send at h
  dsimp only at h
  split at h
  · cases h
    rfl
  · split at h <;> cases h <;> rfl

theorem sendAll_received {answers : List Answer}
    (h : self.sendAll P D random answers = some (self', result)) :
    self'.received = self.received := by
  induction answers generalizing self with
  | nil =>
    cases h
    rfl
  | cons answer answers ih =>
    rw [sendAll] at h
    split at h
    · cases h
    · rename_i hs
      cases h
      exact send_received hs
    · rename_i hs
      exact (ih h).trans (send_received hs)

/-- A packet leaves what is under way alone, or it is the last of a request. -/
theorem writeGattChar_requested {packet : Bytes}
    (h : self.writeGattChar P D random packet = some (self', result)) :
    self'.requested = self.requested ∧ self'.notifications = self.notifications ∨
      self'.requested.length = self.requested.length + 1 := by
  unfold writeGattChar at h
  split at h
  · cases h
    exact .inl ⟨rfl, rfl⟩
  · cases h
    exact .inl ⟨rfl, rfl⟩
  · dsimp only at h
    split at h
    · cases h
      exact .inl ⟨rfl, rfl⟩
    · rename_i frame hread
      rw [accept] at h
      dsimp only at h
      split at h
      · rename_i hzero
        refine .inr ?_
        rw [requested, sendAll_received h, List.filter_append, List.length_append]
        simp [requested, hzero]
      · rename_i hne
        cases h
        exact .inl ⟨by simp [requested, List.filter_append, hne], rfl⟩

end FakeBleakClient

namespace System

variable {P : Primitives} {D : Peripheral} {credentials : TuyaBleCredentials} {data : Bytes}
  {random : Nat → InitializationVector} {info : DeviceInfo} {s s' : System} {w' : World}
  {os : List Obs}

theorem transmit_requested (h : s.transmit P D random os = some s') :
    s'.device.requested = s.device.requested ∧
        s'.device.notifications = s.device.notifications ∨
      s.device.requested.length < s'.device.requested.length := by
  induction os generalizing s with
  | nil =>
    cases h
    exact .inl ⟨rfl, rfl⟩
  | cons o os ih =>
    cases o with
    | wrote sender send packet =>
      rw [transmit] at h
      split at h
      · cases h
      · rename_i device result hw
        rcases writeGattChar_requested hw with ⟨hr, hn⟩ | hr <;> rcases ih h with ⟨hr', hn'⟩ | hr'
        · exact .inl ⟨hr'.trans hr, hn'.trans hn⟩
        · exact .inr (hr ▸ hr')
        · exact .inr (by rw [hr']; exact hr ▸ Nat.lt_succ_self _)
        · exact .inr (by simp only at hr'; omega)
    | _ => exact ih h

/-- The requests the device has yet to get, the packets under way, what the session task and
the reply tasks have yet to do, and whether a deadline may expire. -/
def rank (s : System) : (ℕ ×ₗ ℕ) ×ₗ (ℕ ×ₗ ℕ) ×ₗ ℕ ×ₗ (ℕ ×ₗ ℕ) :=
  toLex (toLex (3 - s.device.requested.length, s.device.notifications.length),
    toLex (s.client.sessionRank,
      toLex (if s.client.interrupt = none then 1 else 0, s.client.replyRank)))

/-- A deadline expires once. -/
def Prompt (s : System) (e : SystemEvent) : Prop :=
  Calm s e ∧ ∀ i, e = .fire i → s.client.interrupt = none

/-- A step that lowers what its client has yet to do. -/
theorem rank_lt_of_transmit (h : { s with client := w' }.transmit P D random os = some s')
    (hc : s'.client = w') (hlen : s'.device.requested.length ≤ 3)
    (hlt : toLex (w'.sessionRank, toLex (if w'.interrupt = none then 1 else 0, w'.replyRank)) <
      toLex (s.client.sessionRank,
        toLex (if s.client.interrupt = none then 1 else 0, s.client.replyRank))) :
    s'.rank < s.rank := by
  rcases transmit_requested h with ⟨hr, hn⟩ | hr
  · refine toLex_lt_of_right ?_ ?_
    · rw [hr, hn]
    · rw [hc]
      exact hlt
  · exact toLex_lt_of_left (toLex_lt_of_left (by simp only at hr; omega))

variable {T : Clock → Prop}

/-- Where the answer to a request is due, it is not anything else that has come. -/
theorem Inv.answered (h : Inv P D credentials data T s) {request : Request}
    (hs : s.client.session = .waiting request)
    (hf : s.client.futures[request.pending]? ≠ some .pending) :
    s.client.answered request = true := by
  have hstage := h.stage
  rw [hs] at hstage
  obtain ⟨t, -, rfl, hasked | ⟨hdone, -⟩⟩ := hstage
  · exact absurd hasked.future hf
  · have hdone : s.client.futures[t.request.pending]? = some (.done (t.reply D)) := hdone
    simp only [World.answered, hdone]

/-- **Every step lowers the rank.** -/
theorem Inv.rank_lt (hD : D.Serves credentials info data) (h : Inv P D credentials data T s)
    {e : SystemEvent} (hc : Prompt s e) (hT : ∀ clock, e = .deliver clock → T clock)
    (hs : s.step P D random e = some (s', os)) : s'.rank < s.rank := by
  have hlen : s'.device.requested.length ≤ 3 :=
    (h.step hD hc.1 hT hs).1.stage.requested_prefix.length_le
  have hclient : ∀ {s1 : System} {e : Event}, s1.stepClient P D random e = some (s', os) →
      ∃ w', s1.client.step P e = some (w', os) ∧
        { s1 with client := w' }.transmit P D random os = some s' ∧ s'.client = w' := by
    intro s1 e hs
    unfold System.stepClient at hs
    split at hs
    · cases hs
    · rename_i w1 os1 hw
      split at hs
      · cases hs
      · rename_i s2 ht
        cases hs
        exact ⟨w1, hw, ht, (transmit_client ht w1).2⟩
  cases e with
  | startRead => exact hc.1.elim
  | resume iv =>
    obtain ⟨w', hw, ht, hcl⟩ := hclient hs
    refine rank_lt_of_transmit ht hcl hlen (toLex_lt_of_left ?_)
    simp only [World.step, World.resume] at hw
    split at hw
    · cases hw
    · rename_i hwake
      split at hw
      · cases hw
      · rename_i hsettle
        cases hw
        exact (World.settle_sessionRank_le hsettle).trans_lt
          ((World.wakeUp_woken hwake).sessionRank_lt fun request => h.answered)
  | fire i =>
    obtain ⟨w', hw, ht, hcl⟩ := hclient hs
    obtain ⟨hsession, hinterrupt, hself⟩ := World.fire_sessionRank hw
    refine rank_lt_of_transmit ht hcl hlen (toLex_lt_of_right hsession (toLex_lt_of_left ?_))
    rw [if_pos (hc.2 i rfl), if_neg hinterrupt]
    exact Nat.one_pos
  | deliver clock =>
    simp only [System.step] at hs
    split at hs
    · cases hs
    · rename_i packet notifications hd
      obtain ⟨w', hw, ht, -⟩ := hclient hs
      have hn := World.onNotification_notified P s.client packet clock
      have hw : s.client.onNotification P packet clock = (w', os) := Option.some.inj hw
      rw [hw] at hn
      cases (transmit_silent (notified_silent hn).1).symm.trans ht
      exact toLex_lt_of_left (toLex_lt_of_right rfl (by rw [hd]; exact Nat.lt_succ_self _))
  | reply number iv =>
    obtain ⟨w', hw, ht, hcl⟩ := hclient hs
    have hr := replyEvent_replied hw
    have hlt := hr.replyRank_lt h.numbered
    obtain ⟨background, rfl, -⟩ := hr.frame
    exact rank_lt_of_transmit ht hcl hlen (toLex_lt_of_right rfl (toLex_lt_of_right rfl hlt))

/-- The task goes on once what it waits for has come. -/
theorem Inv.resumable (hD : D.Serves credentials info data) (h : Inv P D credentials data T s)
    (hw : (s.client.wakeUp s.resumption).isSome = true) (iv : InitializationVector) :
    (s.step P D random (.resume iv)).isSome = true := by
  obtain ⟨⟨w', os⟩, hresume⟩ := Option.isSome_iff_exists.1 (World.resume_isSome (P := P) hw iv)
  obtain ⟨s', ht, -⟩ : Kept P D credentials data T random s w' os := h.of_resumed hD hresume
  have hstep : s.client.step P (.resume s.resumption iv) = some (w', os) := hresume
  simp only [System.step, System.stepClient, hstep, ht]
  rfl

/-- **A read is never stuck.** -/
theorem Inv.enabled (hD : D.Serves credentials info data)
    (h : Inv P D credentials data (fun _ => True) s) (hr : s.client.session.running = false)
    (hidle : s.client.session ≠ .idle) (iv : InitializationVector) (clock : Clock) :
    ∃ e ∈ [.resume iv, .deliver clock, .fire .deadline],
      Prompt s e ∧ (s.step P D random e).isSome = true := by
  have hresume : (s.client.wakeUp s.resumption).isSome = true →
      ∃ e ∈ [.resume iv, .deliver clock, .fire .deadline],
        Prompt s e ∧ (s.step P D random e).isSome = true := fun hw =>
    ⟨.resume iv, by simp, ⟨trivial, fun i he => nomatch he⟩, h.resumable hD hw iv⟩
  have hdeliver : s.device.notifications ≠ [] →
      ∃ e ∈ [.resume iv, .deliver clock, .fire .deadline],
        Prompt s e ∧ (s.step P D random e).isSome = true := by
    intro hne
    obtain ⟨packet, notifications, hd⟩ := List.exists_cons_of_ne_nil hne
    obtain ⟨s', ht, -⟩ : Kept P D credentials data (fun _ => True) random
        { s with device := { s.device with notifications } }
        (s.client.onNotification P packet clock).1 (s.client.onNotification P packet clock).2 :=
      h.of_delivered hd trivial rfl
    refine ⟨.deliver clock, by simp, ⟨trivial, fun i he => nomatch he⟩, ?_⟩
    simp only [System.step, hd, System.stepClient, World.step, ht]
    rfl
  cases hi : s.client.interrupt with
  | some i =>
    obtain ⟨-, hover | ⟨collected, hs, -⟩⟩ := h.calm (by rw [hi]; simp)
    · cases hs : s.client.session with
      | idle => exact absurd hs hidle
      | disconnecting outcome =>
        refine hresume ?_
        simp only [resumption, hi, World.wakeUp, World.interruptSession, hs]
        rfl
      | _ => rw [hs] at hover; exact hover.elim
    · refine hresume ?_
      simp only [resumption, hi, World.wakeUp, World.interruptSession, hs]
      rfl
  | none =>
    cases hs : s.client.session with
    | idle => exact absurd hs hidle
    | connecting => exact hresume (by simp only [resumption, hi, hs, World.wakeUp]; rfl)
    | subscribing => exact hresume (by simp only [resumption, hi, hs, World.wakeUp]; rfl)
    | writing request send =>
      refine hresume ?_
      simp only [resumption, hi, hs, World.wakeUp, resultOf_ok h.writes]
      rfl
    | waiting request =>
      by_cases hf : s.client.futures[request.pending]? = some .pending
      · have hstage := h.stage
        rw [hs] at hstage
        obtain ⟨t, -, rfl, hasked | ⟨hdone, -⟩⟩ := hstage
        · exact hdeliver fun hq => absurd (hasked.underway.nil_iff.1 hq) (List.cons_ne_nil _ _)
        · exact absurd (hf.symm.trans hdone) (by simp)
      · refine hresume ?_
        simp only [resumption, hi, hs, World.wakeUp, if_neg hf]
        rfl
    | collecting collected =>
      by_cases hreports : s.client.self.reports = []
      · by_cases hquiet : s.device.notifications = []
        · refine ⟨.fire .deadline, by simp, ⟨⟨rfl, hquiet, ?_⟩, fun _ _ => hi⟩, ?_⟩
          · rw [hs]
            exact hreports
          · have hf : s.client.step P (.fire .deadline) = some
                ({ s.client with
                    interrupt := some (Interrupt.outermost s.client.interrupt .deadline) },
                  []) := by
              simp only [World.step, World.fire, hs, Interrupt.reaches, ↓reduceIte]
            simp only [System.step, System.stepClient, hf, transmit]
            rfl
        · exact hdeliver hquiet
      · refine hresume ?_
        simp only [resumption, hi, hs, World.wakeUp, if_neg hreports]
        rfl
    | disconnecting outcome => exact hresume (by simp only [resumption, hi, hs, World.wakeUp]; rfl)
    | _ => rw [hs] at hr; cases hr

/-- A read that is over has ended. -/
theorem keeps_over : Keeps P Machine.Free fun _ os w =>
    w.session = .idle → ∃ outcome : Outcome, .ended outcome ∈ os where
  wakeUp := by
    intro tr os w r iv w' os' _ _ hw hidle
    cases hw with
    | disconnected outcome => exact ⟨outcome, by simp⟩
    | disconnectCancelled i outcome => exact ⟨.error i.raised, by simp⟩
    | _ => cases hidle
  advance := by
    intro tr os w iv w' os' _ ha hidle
    cases ha with
    | ended outcome => exact ⟨w.outcomeOf outcome, by simp⟩
    | _ => cases hidle
  fire := by
    intro tr os w i w' os' hi _ hf hidle
    obtain ⟨-, rfl, futures, rfl, -⟩ := World.fire_eq hf
    simpa using hi hidle
  notify := by
    intro tr os w chunk clock w' os' hi _ hn hidle
    obtain ⟨outcome, hm⟩ := hi ((notified_same hn).1.symm.trans hidle)
    exact ⟨outcome, List.mem_append_left _ hm⟩
  reply := by
    intro tr os w e w' os' hi _ hr hidle
    obtain ⟨background, rfl, -⟩ := hr.frame
    obtain ⟨outcome, hm⟩ := hi hidle
    exact ⟨outcome, List.mem_append_left _ hm⟩

/-- **A read of a device that serves the client ends.** Over the calm runs, whose replies are
each written without a break and which no session deadline or cancellation cuts short, and in
which no deadline expires twice, it does not go on for ever; and as long as it has no outcome
the task goes on, or a packet is delivered, or the quiet period is over. -/
theorem served_read_ends (hD : D.Serves credentials info data) (address : String)
    (iv : InitializationVector) (clock : Clock) :
    ¬ (system P D random).Endless Prompt (new P address credentials) ∧
      ∀ tr os s, (system P D random).Runs (fun _ => Prompt) (new P address credentials) tr os s →
        outcomes os = [] → ∃ e ∈ [.resume iv, .deliver clock, .fire .deadline],
          Prompt s e ∧ (s.step P D random e).isSome = true := by
  constructor
  · refine Machine.not_endless (I := Inv P D credentials data fun _ => True) rank
      (inv_new hD address) fun s e s' os hinv hc hs => ⟨?_, ?_⟩
    · exact (hinv.step hD hc.1 (fun _ _ => trivial) hs).1
    · exact hinv.rank_lt hD hc (fun _ _ => trivial) hs
  · intro tr os s h hnone
    have hcalm : (system P D random).Runs (fun _ s e => Calm s e ∧ ∀ clock,
        e = .deliver clock → True) (new P address credentials) tr os s :=
      h.mono fun _ _ _ hc => ⟨hc.1, fun _ _ => trivial⟩
    obtain ⟨tr', hclient⟩ := runs_client h fun _ _ hc => hc.1
    have hsuspended : s.client.session.running = false :=
      hclient.preserves (I := fun w => w.session.running = false) rfl
        fun _ _ _ _ hr hs => World.step_suspended hr hs
    refine (inv_runs hD hcalm).1.enabled hD hsuspended (fun hidle => ?_) iv clock
    obtain ⟨outcome, hm⟩ := keeps_over.runs hclient (fun hs => nomatch hs) hidle
    have hm := mem_outcomes.2 hm
    rw [hnone] at hm
    cases hm

end System

open FakeDevice in
/-- A read of the tests' device ends. -/
theorem System.served_read_ends_recorded :
    ¬ (system primitives peripheral fun _ => initializationVector).Endless Prompt
        (new primitives address credentials) ∧
      ∀ tr os s, (system primitives peripheral fun _ => initializationVector).Runs
          (fun _ => Prompt) (new primitives address credentials) tr os s → outcomes os = [] →
        ∃ e ∈ [.resume initializationVector, .deliver clock, .fire .deadline],
          Prompt s e ∧ (s.step primitives peripheral (fun _ => initializationVector) e).isSome :=
  served_read_ends peripheral_serves address initializationVector clock

end TuyaBle
