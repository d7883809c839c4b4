import TuyaBle.Protocol.Fragmentation
import TuyaBle.Client.Machine

/-!
# The session task gets on

Every turn of the running task lowers its `rank`, so it reaches its next await, and the
deadlines of a read end it from wherever it stands.
-/

namespace TuyaBle

/-- More than the turns left before the next await. -/
def Session.rank : Session → Nat
  | .leaving _ | .draining _ => 1
  | .failed .. => 2
  | .requesting _ => 3
  | .replied .. => 4
  | .replyDue _ => 5
  | .sending _ send => if send.rest = [] then 6 else 1
  | _ => 0

theorem Session.rank_lt_maxTurns (s : Session) : s.rank < World.maxTurns := by
  cases s with
  | sending request send => simp only [rank]; split <;> decide
  | _ => simp only [rank]; decide

theorem Session.rank_pos {s : Session} (h : s.running = true) : 0 < s.rank := by
  cases s with
  | sending request send => simp only [rank]; split <;> decide
  | _ => first | exact Nat.succ_pos _ | cases h

namespace World

variable {P : Primitives} {w w' : World} {os : List Obs} {iv : InitializationVector}

/-- A frame is encrypted and split, or refused. -/
theorem startSend_isSome (self : TuyaBleClient) (frame : Frame) (key : AesKey) (flag : Nat)
    (iv : InitializationVector) : (self.startSend P frame key flag iv).isSome = true := by
  unfold TuyaBleClient.startSend
  split
  · rfl
  · cases he : frame.encode P key flag iv with
    | error e => rfl
    | ok payload =>
      obtain ⟨-, hmin, hmax⟩ := Frame.length_encode he
      have hpos : 1 ≤ payload.length := by
        simp only [minimumPayloadLength, initializationVectorEnd, blockSize] at hmin; omega
      obtain ⟨packets, hp⟩ := Option.isSome_iff_exists.1
        (buildPackets_isSome self.protocolVersion hpos (by omega))
      simp only [hp]
      cases packets <;> rfl

/-- A send starts with a packet to write. -/
theorem startSend_rest_ne {self : TuyaBleClient} {frame : Frame} {key : AesKey} {flag : Nat}
    {send : Send} (h : self.startSend P frame key flag iv = some (.ok send)) : send.rest ≠ [] := by
  obtain ⟨client, payload, packets, -, he, hp, rfl⟩ := startSend_eq_ok h
  obtain ⟨-, hmin, hmax⟩ := Frame.length_encode he
  exact (carries_of_buildPackets
    (by simp only [minimumPayloadLength, initializationVectorEnd, blockSize] at hmin; omega)
    (by omega) hp).1

theorem advance_isSome (P : Primitives) (iv : InitializationVector)
    (hr : w.session.running = true) : (w.advance P iv).isSome = true := by
  unfold advance
  cases hs : w.session with
  | requesting call =>
    simp only [request]
    cases w.keyFor call with
    | error e => rfl
    | ok key =>
      dsimp only
      obtain ⟨result, h⟩ := Option.isSome_iff_exists.1
        (startSend_isSome (P := P) w.self (w.frameFor call) key call.securityFlag iv)
      rw [h]
      cases result <;> rfl
  | idle => rw [hs] at hr; cases hr
  | connecting => rw [hs] at hr; cases hr
  | subscribing => rw [hs] at hr; cases hr
  | writing request send => rw [hs] at hr; cases hr
  | waiting request => rw [hs] at hr; cases hr
  | collecting collected => rw [hs] at hr; cases hr
  | disconnecting outcome => rw [hs] at hr; cases hr
  | _ => rfl

/-- **Every turn lowers the rank.** -/
theorem Advanced.rank_lt (h : Advanced P w iv w' os) : w'.session.rank < w.session.rank := by
  cases h with
  | requestSending call key send hs hk hf =>
    rw [hs]
    simp [Session.rank, startSend_rest_ne hf]
  | sent request send hs hr =>
    rw [hs]
    simp [Session.rank, hr]
  | wrote request send packet rest hs hr =>
    rw [hs]
    simp [Session.rank, hr]
  | _ => rw [‹w.session = _›]; simp [Session.rank, World.drain]

theorem settle_isSome (P : Primitives) (iv : InitializationVector) {fuel : Nat}
    (h : w.session.rank ≤ fuel) :
    (w.settle P iv fuel).isSome = true := by
  induction fuel generalizing w with
  | zero =>
    rw [settle]
    split
    · exact absurd (Session.rank_pos ‹_›) (Nat.not_lt.2 h)
    · rfl
  | succ fuel ih =>
    rw [settle]
    split
    · obtain ⟨⟨w', os⟩, ha⟩ := Option.isSome_iff_exists.1 (advance_isSome P iv ‹_›)
      have hlt := (advance_advanced ha).rank_lt
      obtain ⟨⟨w'', os'⟩, hs⟩ := Option.isSome_iff_exists.1 (ih (w := w') (by omega))
      simp only [ha, hs]
      rfl
    · rfl

/-- **Whatever wakes the task takes it to its next await.** -/
theorem resume_isSome {r : Resumption} (h : (w.wakeUp r).isSome = true)
    (iv : InitializationVector) : (w.resume P r iv).isSome = true := by
  obtain ⟨⟨w', os⟩, hw⟩ := Option.isSome_iff_exists.1 h
  obtain ⟨⟨w'', os'⟩, hs⟩ := Option.isSome_iff_exists.1
    (settle_isSome P iv (Nat.le_of_lt w'.session.rank_lt_maxTurns))
  simp only [resume, hw, hs]
  rfl

/-! ## The deadlines of a read -/

/-- The stages a read leaves by its teardown only. -/
def doomed : Session → Bool
  | .failed .. | .leaving _ => true
  | _ => false

theorem Advanced.doomed_or_over (h : Advanced P w iv w' os) (hd : doomed w.session = true) :
    doomed w'.session = true ∨ w'.session.over := by
  cases h with
  | failed request e hs => exact .inl rfl
  | reset outcome link hs hc => exact .inr trivial
  | ended outcome hs hc => exact .inr trivial
  | refused code reply e hs hr => rw [hs] at hd; cases hd
  | _ => rw [‹w.session = _›] at hd; cases hd

theorem over_of_suspended {s : Session} (h : doomed s = true ∨ s.over) (hr : s.running = false) :
    s.over := by
  rcases h with hd | ho
  · cases s with
    | failed request e => cases hr
    | leaving outcome => cases hr
    | _ => cases hd
  · exact ho

theorem settle_over {fuel : Nat} (hd : doomed w.session = true ∨ w.session.over)
    (h : w.settle P iv fuel = some (w', os)) : w'.session.over := by
  have hsusp := settle_suspended h
  induction fuel generalizing w os with
  | zero =>
    simp only [settle] at h
    split at h
    · cases h
    · cases h
      exact over_of_suspended hd hsusp
  | succ fuel ih =>
    simp only [settle] at h
    split at h
    · rename_i hr
      split at h
      · cases h
      · rename_i ha
        split at h
        · cases h
        · rename_i hs
          cases h
          refine ih ?_ hs
          rcases hd with hd | hover
          · exact (advance_advanced ha).doomed_or_over hd
          · cases hr.symm.trans (Session.running_of_over hover)
    · cases h
      exact over_of_suspended hd hsusp

/-- A cancellation of the session dooms the read. -/
theorem wakeUp_doomed {i : Interrupt} (hi : w.interrupt = some i) (hr : w.session.running = false)
    (ho : ¬ w.session.over) :
    ∃ w' os, w.wakeUp .woken = some (w', os) ∧ doomed w'.session = true := by
  simp only [wakeUp, hi, interruptSession]
  cases hs : w.session with
  | connecting => exact ⟨_, _, rfl, rfl⟩
  | subscribing => exact ⟨_, _, rfl, rfl⟩
  | writing request send => exact ⟨_, _, rfl, rfl⟩
  | waiting request => exact ⟨_, _, rfl, rfl⟩
  | collecting collected => exact ⟨_, _, rfl, rfl⟩
  | idle => rw [hs] at ho; exact absurd trivial ho
  | disconnecting outcome => rw [hs] at ho; exact absurd trivial ho
  | _ => rw [hs] at hr; cases hr

/-- The steps the event loop takes of itself. -/
def TimedOut (iv : InitializationVector) (e : Event) : Prop :=
  e = .fire .session ∨ e = .fire .deadline ∨ e = .resume .woken iv

theorem disconnect_ends {outcome : Outcome} (hs : w.session = .disconnecting outcome)
    (iv : InitializationVector) : ∃ w' os,
    (machine P).exec w [.fire .deadline, .resume .woken iv] = some (w', os) ∧
      w'.session = .idle := by
  have hf : w.fire .deadline = some
      ({ w with interrupt := some (Interrupt.outermost w.interrupt .deadline) }, []) := by
    simp only [fire, hs, Interrupt.reaches, ↓reduceIte]
  simp only [Machine.exec, machine, step, hf, resume, wakeUp, interruptSession, hs]
  exact ⟨_, _, rfl, rfl⟩

/-- **The deadlines end a read** wherever it is suspended, whatever has been delivered. -/
theorem deadlines_end (hr : w.session.running = false) (iv : InitializationVector) :
    ∃ es w' os, (∀ e ∈ es, TimedOut iv e) ∧ (machine P).exec w es = some (w', os) ∧
      w'.session = .idle := by
  have hover : ∀ w : World, w.session.over → ∃ es w' os, (∀ e ∈ es, TimedOut iv e) ∧
      (machine P).exec w es = some (w', os) ∧ w'.session = .idle := by
    intro w ho
    cases hs : w.session with
    | idle => exact ⟨[], w, [], by simp, rfl, hs⟩
    | disconnecting outcome =>
      obtain ⟨w', os, he, hi⟩ := disconnect_ends (P := P) hs iv
      exact ⟨_, w', os, by simp [TimedOut], he, hi⟩
    | _ => rw [hs] at ho; exact ho.elim
  by_cases ho : w.session.over
  · exact hover w ho
  · have hreaches : Interrupt.session.reaches w.session = true := by
      cases hs : w.session with
      | idle => rw [hs] at ho; exact absurd trivial ho
      | disconnecting outcome => rw [hs] at ho; exact absurd trivial ho
      | _ => first | rfl | (rw [hs] at hr; cases hr)
    obtain ⟨w1, hfire, hs1, hi1⟩ : ∃ w1, w.fire .session = some (w1, []) ∧
        w1.session = w.session ∧ w1.interrupt = some (Interrupt.outermost w.interrupt .session) :=
      ⟨_, if_pos hreaches, rfl, rfl⟩
    obtain ⟨w2, os2, hwake, hdoomed⟩ := wakeUp_doomed hi1 (hs1 ▸ hr) (hs1 ▸ ho)
    obtain ⟨⟨w3, os3⟩, hsettle⟩ := Option.isSome_iff_exists.1
      (settle_isSome P iv (Nat.le_of_lt w2.session.rank_lt_maxTurns))
    obtain ⟨es, w', os, hes, hexec, hidle⟩ := hover w3 (settle_over (.inl hdoomed) hsettle)
    refine ⟨.fire .session :: .resume .woken iv :: es, w', os2 ++ os3 ++ os, ?_, ?_, hidle⟩
    · intro e he
      rcases List.mem_cons.1 he with rfl | he
      · exact .inl rfl
      · rcases List.mem_cons.1 he with rfl | he
        · exact .inr (.inr rfl)
        · exact hes e he
    · simp only [Machine.exec, machine, step, hfire, resume, hwake, hsettle] at hexec ⊢
      rw [hexec]
      simp

end World

end TuyaBle
