import TuyaBle.Client.Teardown
import TuyaBle.Client.Keying
import TuyaBle.Lib.History
import TuyaBle.FakeDevice

/-!
# The connection is given back

A read that was given a connection calls `disconnect` on it once, after which nothing is
written; and how that call ends does not matter. `Linked` says what one step can do with the
connection.
-/

namespace TuyaBle

/-- The link the event brings, if it is the return of `establish_connection`. -/
def Event.link? : Event → Option Link
  | .resume (.connected (.ok link)) _ => some link
  | _ => none

/-- The links `establish_connection` has returned. -/
def established (tr : List (World × Event)) : List Link := tr.filterMap fun s => s.2.link?

/-- The task is suspended in `client.disconnect()`. -/
def Session.closing : Session → Bool
  | .disconnecting _ => true
  | _ => false

/-- The link a step calls `disconnect` on: the one it finds, when it leaves the task
suspended in that call. -/
def called (w w' : World) : Option Link :=
  if w.session.closing = false ∧ w'.session.closing = true then w.self.client else none

/-- The links the steps between some worlds call `disconnect` on. -/
def calls : List World → List Link
  | w :: w' :: ws => (called w w').toList ++ calls (w' :: ws)
  | _ => []

/-- The links `disconnect` has been called on, once a run has led to `w`. -/
def disconnects (tr : List (World × Event)) (w : World) : List Link :=
  calls (tr.map Prod.fst ++ [w])

theorem established_concat (tr : List (World × Event)) (w : World) (e : Event) :
    established (tr ++ [(w, e)]) = established tr ++ e.link?.toList := by
  unfold established
  rw [List.filterMap_append]
  cases h : e.link? <;> simp [h]

theorem calls_concat (ws : List World) (w w' : World) :
    calls (ws ++ [w] ++ [w']) = calls (ws ++ [w]) ++ (called w w').toList := by
  induction ws with
  | nil => simp [calls]
  | cons t ws ih =>
    cases ws with
    | nil => simp [calls]
    | cons t' ws =>
      simp only [List.cons_append, calls, List.append_assoc] at ih ⊢
      rw [ih]

theorem disconnects_concat (tr : List (World × Event)) (w w' : World) (e : Event) :
    disconnects (tr ++ [(w, e)]) w' = disconnects tr w ++ (called w w').toList := by
  rw [disconnects, List.map_append]
  exact calls_concat _ w w'

/-! ## The connection, step by step -/

namespace World

variable {P : Primitives} {w w' : World} {os : List Obs} {e : Event}

/-- What one step does with the connection. -/
inductive Linked (w : World) (e : Event) (w' : World) : Prop where
  | connected (link : Link) : e.link? = some link → w.session = .connecting →
      w'.session = .subscribing → w'.self.client = some link → Linked w e w'
  | kept : e.link? = none → w'.self.client = w.self.client →
      (w'.session.over ↔ w.session.over) → (w'.session.closing = true → w.session.closing = true) →
      (w'.session = .connecting → w.session = .connecting) → Linked w e w'
  | released : e.link? = none → ¬ w.session.over → w'.session.over → w'.self.client = none →
      w'.session.closing = w.self.client.isSome → Linked w e w'

/-- What a turn of the task does with it. -/
theorem Advanced.linked {iv : InitializationVector} (h : Advanced P w iv w' os) :
    (w'.self.client = w.self.client ∧ ¬ w'.session.over ∧ w'.session ≠ .connecting) ∨
      (w'.self.client = none ∧ w'.session.over ∧
        w'.session.closing = w.self.client.isSome) := by
  cases h with
  | reset outcome link hs hc => exact .inr ⟨rfl, trivial, by rw [hc]; rfl⟩
  | ended outcome hs hc => exact .inr ⟨rfl, trivial, by rw [hc]; rfl⟩
  | _ => exact .inl ⟨rfl, id, nofun⟩

/-- A suspended task takes no turn. -/
theorem settle_eq (hr : w.session.running = false) (iv : InitializationVector) (fuel : Nat) :
    w.settle P iv fuel = some (w, []) := by
  cases fuel <;> simp [settle, hr]

theorem settle_linked {iv : InitializationVector} {fuel : Nat}
    (h : w.settle P iv fuel = some (w', os)) (ho : ¬ w.session.over)
    (hc : w.session ≠ .connecting) :
    (w'.self.client = w.self.client ∧ ¬ w'.session.over ∧ w'.session ≠ .connecting) ∨
      (w'.self.client = none ∧ w'.session.over ∧
        w'.session.closing = w.self.client.isSome) := by
  induction fuel generalizing w os with
  | zero =>
    simp only [settle] at h
    split at h <;> cases h
    exact .inl ⟨rfl, ho, hc⟩
  | succ fuel ih =>
    simp only [settle] at h
    split at h
    · split at h
      · cases h
      · rename_i w1 os1 ha
        split at h
        · cases h
        · rename_i w2 os2 hs
          cases h
          rcases (advance_advanced ha).linked with ⟨hcl, ho1, hc1⟩ | ⟨hcl, ho1, hclosing⟩
          · rw [← hcl]
            exact ih hs ho1 hc1
          · -- a task that is over takes no further turn
            rw [settle_eq (Session.running_of_over ho1)] at hs
            cases hs
            exact .inr ⟨hcl, ho1, hclosing⟩
    · cases h
      exact .inl ⟨rfl, ho, hc⟩

theorem wakeUp_connected {link : Link}
    (h : w.wakeUp (.connected (.ok link)) = some (w', os)) : w.session = .connecting ∧
      w' = { w with self := { w.self with client := some link }, session := .subscribing } := by
  unfold wakeUp at h
  split at h <;> simp_all

theorem closing_of_not_over {s : Session} (h : ¬ s.over) : s.closing = false := by
  cases s with
  | disconnecting outcome => exact absurd trivial h
  | _ => rfl

/-- Resuming the task connects, or keeps the connection, or gives it back. -/
theorem resume_linked {r : Resumption} {iv : InitializationVector}
    (h : w.resume P r iv = some (w', os)) : Linked w (.resume r iv) w' := by
  unfold resume at h
  split at h
  · cases h
  · rename_i w1 os1 hw
    split at h
    · cases h
    · rename_i hs
      cases h
      by_cases hr : ∃ link, r = .connected (.ok link)
      · obtain ⟨link, rfl⟩ := hr
        obtain ⟨hconnecting, rfl⟩ := wakeUp_connected hw
        rw [settle_eq rfl] at hs
        cases hs
        exact .connected link rfl hconnecting rfl rfl
      · have hlink : Event.link? (.resume r iv) = none := by
          unfold Event.link?
          split
          · rename_i he
            cases he
            exact absurd ⟨_, rfl⟩ hr
          · rfl
        -- woken before its teardown the task goes on, to its next await or through it
        have hgo : ¬ w.session.over → w1.self.client = w.self.client → ¬ w1.session.over →
            w1.session ≠ .connecting → Linked w (.resume r iv) w' := by
          intro ho hcl ho1 hc1
          rcases settle_linked hs ho1 hc1 with ⟨hcl2, ho2, hc2⟩ | ⟨hcl2, ho2, hclosing⟩
          · refine .kept hlink (hcl2.trans hcl) ⟨fun h => absurd h ho2, fun h => absurd h ho⟩
              (fun h => ?_) (fun h => absurd h hc2)
            rw [closing_of_not_over ho2] at h
            cases h
          · exact .released hlink ho ho2 hcl2 (by rw [hclosing, hcl])
        cases wakeUp_woken hw with
        | connected link hi hs hr' => exact absurd ⟨link, hr'⟩ hr
        | connectFailed e hi hsess he =>
          exact hgo (by rcases hsess with h | h <;> rw [h] <;> exact id) rfl id nofun
        | connectCancelled i hi hsess =>
          exact hgo (by rcases hsess with ⟨h, -⟩ | h <;> rw [h] <;> exact id) rfl id nofun
        | disconnected outcome hi hsess =>
          rw [settle_eq rfl] at hs
          cases hs
          exact .kept hlink rfl ⟨fun _ => by rw [hsess]; trivial, fun _ => trivial⟩ nofun nofun
        | disconnectCancelled i outcome hi hd hsess =>
          rw [settle_eq rfl] at hs
          cases hs
          exact .kept hlink rfl ⟨fun _ => by rw [hsess]; trivial, fun _ => trivial⟩ nofun nofun
        | _ => exact hgo (by rw [‹w.session = _›]; exact id) rfl id nofun

/-- **The step lemma**: every step but the start of a read. -/
theorem step_linked (he : e ≠ .startRead) (h : (machine P).step w e = some (w', os)) :
    Linked w e w' := by
  cases e with
  | startRead => exact absurd rfl he
  | resume r iv => exact resume_linked h
  | fire i =>
    obtain ⟨-, -, futures, rfl, -⟩ := fire_eq h
    exact .kept rfl rfl Iff.rfl id id
  | notify chunk clock =>
    have hn := onNotification_notified P w chunk clock
    rw [show w.onNotification P chunk clock = (w', os) from Option.some.inj h] at hn
    cases hn <;> exact .kept rfl rfl Iff.rfl id id
  | replyStart number iv =>
    obtain ⟨background, rfl, -⟩ := (startReply_replied h).frame
    exact .kept rfl rfl Iff.rfl id id
  | replyWritten number result =>
    obtain ⟨background, rfl, -⟩ := (resumeReply_replied (P := P) h).frame
    exact .kept rfl rfl Iff.rfl id id

/-- Where the connection is at each point of a read. -/
structure Given (tr : List (World × Event)) (w : World) : Prop where
  connecting : w.session = .connecting → w.self.client = none
  single : (established tr).length ≤ 1
  held : ¬ w.session.over → established tr = w.self.client.toList ∧ disconnects tr w = []
  released : w.session.over → w.self.client = none ∧ disconnects tr w = established tr

theorem Given.of_linked {tr : List (World × Event)} (h : Given tr w) (hl : Linked w e w') :
    Given (tr ++ [(w, e)]) w' := by
  cases hl with
  | connected link hlink hs hs' hc =>
    obtain ⟨hest, hdis⟩ := h.held (by rw [hs]; exact id)
    rw [h.connecting hs] at hest
    have hcalled : called w w' = none := by simp [called, hs', Session.closing]
    have hnew : established (tr ++ [(w, e)]) = [link] := by
      rw [established_concat, hest, hlink]
      rfl
    refine ⟨fun h => ?_, by simp [hnew], fun _ => ⟨by rw [hnew, hc]; rfl, ?_⟩, fun ho => ?_⟩
    · rw [hs'] at h
      cases h
    · rw [disconnects_concat, hdis, hcalled]
      rfl
    · rw [hs'] at ho
      exact ho.elim
  | kept hlink hc ho hclosing hconnecting =>
    have hcalled : called w w' = none := by
      unfold called
      split
      · rename_i hboth
        rw [hclosing hboth.2] at hboth
        cases hboth.1
      · rfl
    have hest : established (tr ++ [(w, e)]) = established tr := by
      rw [established_concat, hlink, Option.toList_none, List.append_nil]
    have hdis : disconnects (tr ++ [(w, e)]) w' = disconnects tr w := by
      rw [disconnects_concat, hcalled, Option.toList_none, List.append_nil]
    refine ⟨fun h' => hc.trans (h.connecting (hconnecting h')), by rw [hest]; exact h.single,
      fun ho' => ?_, fun ho' => ?_⟩
    · rw [hest, hdis, hc]
      exact h.held fun h => ho' (ho.2 h)
    · rw [hest, hdis, hc]
      exact h.released (ho.1 ho')
  | released hlink ho ho' hc hclosing =>
    have hest : established (tr ++ [(w, e)]) = established tr := by
      rw [established_concat, hlink, Option.toList_none, List.append_nil]
    obtain ⟨hheld, hdis⟩ := h.held ho
    refine ⟨fun _ => hc, by rw [hest]; exact h.single, fun hn => absurd ho' hn,
      fun _ => ⟨hc, ?_⟩⟩
    rw [disconnects_concat, hdis, hest, hheld, called, closing_of_not_over ho, hclosing]
    cases w.self.client <;> rfl

/-- Between two reads the client has no connection. -/
theorem client_of_reachable {address : String} {credentials : TuyaBleCredentials}
    (h : (machine P).Reachable (.new P address credentials) w) :
    w.session.over ∨ w.session = .connecting → w.self.client = none := by
  refine h.preserves (I := fun w => w.session.over ∨ w.session = .connecting → w.self.client = none)
    (fun _ => rfl) fun w e w' os hi hs => ?_
  by_cases he : e = .startRead
  · subst he
    simp only [machine, step] at hs
    split at hs <;> cases hs
    exact fun _ => hi (.inl (by rw [‹w.session = _›]; trivial))
  · cases step_linked he hs with
    | connected link hlink hses hs' hc =>
      rw [hs']
      rintro (ho | ho) <;> cases ho
    | kept hlink hc ho hclosing hconnecting =>
      rw [hc]
      exact fun h => hi (h.imp ho.1 hconnecting)
    | released hlink ho ho' hc hclosing => exact fun _ => hc

end World

/-! ## Nothing is written afterwards -/

/-- Once the teardown has begun no packet is written. -/
def Unwritten (past : List Obs) (o : Obs) : Prop :=
  .reset ∈ past → ∀ sender send packet, o ≠ .wrote sender send packet

section
variable {os os' : List Obs}

theorem unwritten_of_quiet (h : ∀ sender send packet, .wrote sender send packet ∉ os') :
    Along Unwritten os os' :=
  .of_forall fun _ _ ho _ sender send packet he => h sender send packet (he ▸ ho)

theorem unwritten_of_open (h : .reset ∉ os ++ os') : Along Unwritten os os' := by
  induction os' generalizing os with
  | nil => trivial
  | cons _ os' ih =>
    refine ⟨fun hm => absurd (List.mem_append_left _ hm) h, ih ?_⟩
    rwa [List.append_assoc, List.singleton_append]

end

variable {P : Primitives} {address : String} {credentials : TuyaBleCredentials}

theorem Session.unkeyed_of_over {s : Session} (h : s.over) : s.unkeyed := by
  cases s <;> first | exact h | exact h.elim

/-- The turn that begins the teardown writes nothing. -/
theorem World.Advanced.not_wrote {w w' : World} {iv : InitializationVector} {os : List Obs}
    (h : World.Advanced P w iv w' os) (hm : .reset ∈ os) (sender : Sender) (send : Send)
    (packet : Bytes) : .wrote sender send packet ∉ os := by
  have hcancelled : .wrote sender send packet ∉ World.cancelled w.self.background := fun hw => by
    obtain ⟨_, _, he⟩ := World.aborted_of_mem_cancelled hw
    cases he
  cases h with
  | reset outcome link hs hc => simp [hcancelled]
  | ended outcome hs hc => simp [hcancelled]
  | _ => simp at hm

/-- A read whose teardown has begun is over, and has written nothing since. -/
def Shut (os : List Obs) (w : World) : Prop :=
  (.reset ∈ os → w.session.over) ∧ Along Unwritten [] os

section
variable {os os' : List Obs} {w w' : World}

/-- Steps that write nothing. -/
theorem Shut.of_quiet (h : Shut os w) (hover : w.session.over → w'.session.over)
    (hreset : .reset ∈ os' → w'.session.over)
    (hquiet : ∀ sender send packet, .wrote sender send packet ∉ os') : Shut (os ++ os') w' := by
  refine ⟨fun hm => ?_, Along.append.2 ⟨h.2, unwritten_of_quiet hquiet⟩⟩
  rcases List.mem_append.1 hm with hm | hm
  · exact hover (h.1 hm)
  · exact hreset hm

/-- Steps taken before the teardown. -/
theorem Shut.of_open (h : Shut os w) (ho : ¬ w.session.over) (hreset : .reset ∉ os') :
    Shut (os ++ os') w' := by
  have hm : .reset ∉ os ++ os' := fun hm =>
    (List.mem_append.1 hm).elim (fun hm => ho (h.1 hm)) hreset
  exact ⟨fun h => absurd h hm, Along.append.2 ⟨h.2, unwritten_of_open (by simpa using hm)⟩⟩

end

theorem shut_keeps (C : List Obs → World → Event → Prop) :
    Keeps P C fun _ os w => w.Keying P credentials ∧ Shut os w where
  wakeUp {tr os w r iv w' os'} h _ hw := by
    refine ⟨h.1.of_woken hw, ?_⟩
    by_cases ho : w.session.over
    · cases hw with
      | disconnected outcome hi hs => exact h.2.of_quiet (fun _ => trivial) (by simp) (by simp)
      | disconnectCancelled i outcome hi hd hs =>
        exact h.2.of_quiet (fun _ => trivial) (by simp) (by simp)
      | connectFailed e hi hs he => rcases hs with hs | hs <;> rw [hs] at ho <;> exact ho.elim
      | connectCancelled i hi hs => rcases hs with ⟨hs, -⟩ | hs <;> rw [hs] at ho <;> exact ho.elim
      | _ => rw [‹w.session = _›] at ho; exact ho.elim
    · exact h.2.of_open ho hw.reset_not_mem
  advance {tr os w iv w' os'} h ha := by
    refine ⟨h.1.of_advanced ha, ?_⟩
    have ho : ¬ w.session.over := fun ho => by
      cases ha.running.symm.trans (Session.running_of_over ho)
    by_cases hm : .reset ∈ os'
    · exact h.2.of_quiet (fun h => absurd h ho) (fun _ => (ha.cleared hm).stage_over)
        (ha.not_wrote hm)
    · exact h.2.of_open ho hm
  fire {tr os w i w' os'} h _ hf := by
    refine ⟨h.1.of_fire hf, ?_⟩
    obtain ⟨-, rfl, futures, rfl, -⟩ := World.fire_eq hf
    exact h.2.of_quiet id (by simp) (by simp)
  notify {tr os w chunk clock w' os'} h _ hn := by
    refine ⟨h.1.of_notified hn, ?_⟩
    have hsession : w'.session = w.session := by cases hn <;> rfl
    refine h.2.of_quiet (fun ho => hsession ▸ ho) (fun hm => ?_) (fun sender send packet hm => ?_)
    · cases hn <;> simp [TuyaBleClient.handledObs] at hm
    · cases hn <;> simp [TuyaBleClient.handledObs] at hm
  reply {tr os w e w' os'} h _ hr := by
    refine ⟨h.1.of_replied hr, ?_⟩
    obtain ⟨background, hw', -⟩ := hr.frame
    have hsession : w'.session = w.session := by rw [hw']
    have hreset : .reset ∉ os' := fun hm => hr.ofSend _ hm
    by_cases ho : w.session.over
    · have hnone := h.1.unkeyed (Session.unkeyed_of_over ho)
      -- without a session key no task is writing, and none can start to
      cases hr with
      | ended number iv task ht hs => exact h.2.of_quiet (fun _ => ho) (by simp) (by simp)
      | aborted number e frame send ht =>
        cases h.1.quiet hnone _ (World.task?_mem ht).1
      | started number iv frame key send ht hkey hs => cases hnone.symm.trans hkey
      | resumed number frame send ht => cases h.1.quiet hnone _ (World.task?_mem ht).1
    · exact h.2.of_open ho hreset

/-! ## However `disconnect` ends -/

/-- The read is over. -/
def World.ended (w : World) : World := { w with session := .idle, interrupt := none }

/-- Suspended in `disconnect`, the read ends with `outcome` when the call returns, when it
raises and when it outlasts its deadline, and with nothing else unless the caller cancels. -/
structure Unaffected (P : Primitives) (w : World) (outcome : Outcome) : Prop where
  returns : w.interrupt = none → ∀ iv, (machine P).step w
    (.resume (.disconnected (.ok ())) iv) = some (w.ended, [.ended outcome])
  raises : w.interrupt = none → ∀ e iv, e.type.isException = true → (machine P).step w
    (.resume (.disconnected (.error e)) iv) = some (w.ended, [.ended outcome])
  outlasts : ∀ iv, (machine P).exec w [.fire .deadline, .resume .woken iv] =
    some (w.ended, [.ended outcome])
  always : ∀ tr os w', (machine P).Runs (WithinRead fun _ _ e => e ≠ .fire .caller) w tr os w' →
    ∀ outcome', .ended outcome' ∈ os → outcome' = outcome

/-- The read is ending with `outcome`, or has. -/
def Ending (outcome : Outcome) (os : List Obs) (w : World) : Prop :=
  w.session = .disconnecting outcome ∧ (w.interrupt = none ∨ w.interrupt = some .deadline) ∧
      (∀ outcome', .ended outcome' ∉ os) ∨
    w.session = .idle ∧ ∀ outcome', .ended outcome' ∈ os → outcome' = outcome

/-- Woken in `disconnect` the task ends the read. -/
theorem World.Woken.ends {w w' : World} {r : Resumption} {os : List Obs} {outcome : Outcome}
    (h : World.Woken w r w' os) (hs : w.session = .disconnecting outcome)
    (hi : w.interrupt = none ∨ w.interrupt = some .deadline) :
    w' = w.ended ∧ os = [.ended outcome] := by
  cases h with
  | disconnected outcome' hi' hs' =>
    cases hs.symm.trans hs'
    exact ⟨rfl, rfl⟩
  | disconnectCancelled i outcome' hi' hd hs' =>
    rcases hi with hi | hi <;> cases hi.symm.trans hi'
    exact absurd rfl hd
  | connectFailed e hi' hs' he => rcases hs' with hs' | hs' <;> cases hs.symm.trans hs'
  | connectCancelled i hi' hs' => rcases hs' with ⟨hs', -⟩ | hs' <;> cases hs.symm.trans hs'
  | connected link hi' hs' hr => cases hs.symm.trans hs'
  | subscribed hi' hs' => cases hs.symm.trans hs'
  | connectTimedOut hi' hs' => cases hs.symm.trans hs'
  | written request send hi' hs' hr => cases hs.symm.trans hs'
  | writeFailed request send e hi' hs' hr he => cases hs.symm.trans hs'
  | writeCancelled i request send hi' hs' => cases hs.symm.trans hs'
  | replied request hi' hs' hf => cases hs.symm.trans hs'
  | waitEnded i request hi' hs' => cases hs.symm.trans hs'
  | reported collected hi' hs' hr => cases hs.symm.trans hs'
  | quiet collected hi' hs' => cases hs.symm.trans hs'
  | collectCancelled i collected hi' hd hs' => cases hs.symm.trans hs'

/-- Steps that neither end the read nor touch the session task. -/
theorem Ending.of_other {outcome : Outcome} {os os' : List Obs} {w w' : World}
    (h : Ending outcome os w) (hs : w'.session = w.session) (hi : w'.interrupt = w.interrupt)
    (hos : ∀ outcome', .ended outcome' ∉ os') : Ending outcome (os ++ os') w' := by
  rcases h with ⟨hs', hi', hno⟩ | ⟨hs', hall⟩
  · refine .inl ⟨hs.trans hs', hi ▸ hi', fun outcome' hm => ?_⟩
    exact (List.mem_append.1 hm).elim (hno outcome') (hos outcome')
  · refine .inr ⟨hs.trans hs', fun outcome' hm => ?_⟩
    exact hall outcome' ((List.mem_append.1 hm).resolve_right (hos outcome'))

theorem ending_keeps (outcome : Outcome) :
    Keeps P (fun _ _ e => e ≠ .fire .caller) fun _ os w => Ending outcome os w where
  wakeUp {tr os w r iv w' os'} h _ hw := by
    rcases h with ⟨hs, hi, hno⟩ | ⟨hs, -⟩
    · obtain ⟨rfl, rfl⟩ := hw.ends hs hi
      refine .inr ⟨rfl, fun outcome' hm => ?_⟩
      cases List.mem_singleton.1 ((List.mem_append.1 hm).resolve_left (hno outcome'))
      rfl
    · exact absurd hs hw.ne_idle
  advance {tr os w iv w' os'} h ha := by
    have hr := ha.running
    rcases h with ⟨hs, -⟩ | ⟨hs, -⟩ <;> rw [hs] at hr <;> cases hr
  fire {tr os w i w' os'} h hc hf := by
    obtain ⟨hreaches, rfl, futures, rfl, -⟩ := World.fire_eq hf
    rw [List.append_nil]
    rcases h with ⟨hs, hi, hno⟩ | ⟨hs, -⟩
    · rw [hs] at hreaches
      refine .inl ⟨hs, .inr ?_, hno⟩
      cases i with
      | deadline => rcases hi with hi | hi <;> simp only [hi, Interrupt.outermost]
      | session => cases hreaches
      | caller => exact absurd rfl hc
    · rw [hs] at hreaches
      cases i <;> exact absurd hreaches (by decide)
  notify {tr os w chunk clock w' os'} h _ hn := by
    refine h.of_other ?_ ?_ fun outcome' hm => ?_
    · cases hn <;> rfl
    · cases hn <;> rfl
    · cases hn <;> simp [TuyaBleClient.handledObs] at hm
  reply {tr os w e w' os'} h _ hr := by
    obtain ⟨background, rfl, -⟩ := hr.frame
    exact h.of_other rfl rfl fun outcome' hm => hr.ofSend _ hm

theorem unaffected {w : World} {outcome : Outcome} (hs : w.session = .disconnecting outcome)
    (hi : w.interrupt = none ∨ w.interrupt = some .deadline) : Unaffected P w outcome where
  returns hnone iv := by
    simp only [machine, World.step, World.resume, World.wakeUp, hnone, hs, World.finish]
    rw [World.settle_eq rfl]
    rfl
  raises hnone e iv he := by
    simp only [machine, World.step, World.resume, World.wakeUp, hnone, hs, he, World.finish,
      ↓reduceIte]
    rw [World.settle_eq rfl]
    rfl
  outlasts iv := by
    have hfire : (machine P).step w (.fire .deadline) =
        some ({ w with interrupt := some .deadline }, []) := by
      simp only [machine, World.step, World.fire, hs, Interrupt.reaches, ↓reduceIte]
      rcases hi with hi | hi <;> simp only [hi, Interrupt.outermost]
    simp only [Machine.exec, hfire]
    simp only [machine, World.step, World.resume, World.wakeUp, World.interruptSession, hs,
      World.finish, ↓reduceIte]
    rw [World.settle_eq rfl]
    rfl
  always tr os w' h outcome' hm := by
    rcases (ending_keeps outcome).runs h (.inl ⟨hs, hi, fun _ => List.not_mem_nil⟩) with
      ⟨-, -, hno⟩ | ⟨-, hall⟩
    · exact absurd hm (hno outcome')
    · exact hall outcome' hm

/-- The deadline of the session is not in force once the teardown has begun. -/
theorem session_deadline_keeps (C : List Obs → World → Event → Prop) :
    Keeps P C fun _ _ w => w.session.over → w.interrupt ≠ some .session where
  wakeUp {tr os w r iv w' os'} h _ hw := fun ho => by
    cases hw with
    | disconnected outcome hi hs => exact nofun
    | disconnectCancelled i outcome hi hd hs => exact nofun
    | _ => exact ho.elim
  advance {tr os w iv w' os'} h ha := fun ho => by
    cases ha with
    | reset outcome link hs hc => exact nofun
    | ended outcome hs hc => exact nofun
    | _ => exact ho.elim
  fire {tr os w i w' os'} h _ hf := fun ho => by
    obtain ⟨hreaches, rfl, futures, rfl, -⟩ := World.fire_eq hf
    have hne := h ho
    cases hs : w.session with
    | disconnecting outcome =>
      rw [hs] at hreaches
      cases i with
      | session => cases hreaches
      | deadline =>
        cases hi : w.interrupt with
        | none => simp only [Interrupt.outermost]; exact nofun
        | some j => cases j <;> simp_all [Interrupt.outermost]
      | caller =>
        cases hi : w.interrupt with
        | none => simp only [Interrupt.outermost]; exact nofun
        | some j => cases j <;> simp [Interrupt.outermost]
    | idle => rw [hs] at hreaches; cases i <;> exact absurd hreaches (by decide)
    | _ => rw [hs] at ho; exact ho.elim
  notify {tr os w chunk clock w' os'} h _ hn := by
    cases hn <;> exact h
  reply {tr os w e w' os'} h _ hr := by
    obtain ⟨background, rfl, -⟩ := hr.frame
    exact h

/-- **The connection is given back**: over every schedule and whatever fails, a read that
was given a connection has called `disconnect` on it, once, when it ends; once it has begun
to, nothing is written; and the read ends with what it ended with before, however the call
ends. -/
theorem connection_given_back {w0 w : World} {tr : List (World × Event)} {os : List Obs}
    (h0 : (machine P).Reachable (.new P address credentials) w0) (hidle : w0.session = .idle)
    (h : (machine P).Runs (WithinRead Machine.Free) w0.reading tr os w) :
    (established tr).length ≤ 1 ∧
      (w.session = .idle → disconnects tr w = established tr) ∧
      (w.session.closing = true → .reset ∈ os ∧ disconnects tr w = established tr) ∧
      (∀ past o rest, os = past ++ o :: rest → .reset ∈ past →
        ∀ sender send packet, o ≠ .wrote sender send packet) ∧
      ∀ outcome, w.session = .disconnecting outcome → w.interrupt ≠ some .caller →
        Unaffected P w outcome := by
  have hgiven : World.Given tr w := by
    refine h.invariant (I := fun tr _ w => World.Given tr w) ?_ fun tr _ _ _ _ _ hi hc hs =>
      hi.of_linked (World.step_linked hc.1 hs)
    have hnone : w0.self.client = none :=
      World.client_of_reachable h0 (.inl (by rw [hidle]; trivial))
    change w0.reading.self.client = none at hnone
    exact ⟨fun _ => hnone, Nat.zero_le 1, fun _ => ⟨by rw [hnone]; rfl, rfl⟩, fun ho => ho.elim⟩
  have hshut : Shut os w := ((shut_keeps _).runs h
    ⟨(World.Keying.of_reachable h0).of_reading hidle, fun hm => (nomatch hm), trivial⟩).2
  have hover : ∀ {outcome}, w.session = .disconnecting outcome → w.session.over :=
    fun hs => by rw [hs]; trivial
  refine ⟨hgiven.single, fun hs => (hgiven.released (by rw [hs]; trivial)).2, fun hc => ?_,
    fun past o rest he => hshut.2.at he, fun outcome hs hcaller => unaffected hs ?_⟩
  · cases hs : w.session with
    | disconnecting outcome =>
      exact ⟨(World.over_keeps _).runs h (fun ho => ho.elim) (hover hs),
        (hgiven.released (hover hs)).2⟩
    | _ => rw [hs] at hc; cases hc
  · have hsession := (session_deadline_keeps _).runs h (fun ho => ho.elim) (hover hs)
    cases hi : w.interrupt with
    | none => exact .inl rfl
    | some i =>
      cases i with
      | deadline => exact .inr rfl
      | session => exact absurd hi hsession
      | caller => exact absurd hi hcaller

open FakeDevice in
theorem connection_given_back_session : ∃ tr os w,
    (machine primitives).execWhere (WithinRead Machine.Free) [] [] client.reading session =
      some (tr, os, w) ∧
    established tr = [0] ∧ disconnects tr w = [0] := by
  have hx : ((machine primitives).execWhere (WithinRead Machine.Free) [] [] client.reading
      session).map (fun r => (established r.1, r.2.2.session)) = some ([0], .idle) := by
    decide +kernel
  obtain ⟨⟨tr, os, w⟩, he, hend⟩ := Option.map_eq_some_iff.1 hx
  obtain ⟨hest, hs⟩ := Prod.mk.inj hend
  refine ⟨tr, os, w, he, hest, ?_⟩
  rw [← hest]
  exact (connection_given_back (.refl _) rfl (Machine.runs_of_execWhere he)).2.1 hs

end TuyaBle
