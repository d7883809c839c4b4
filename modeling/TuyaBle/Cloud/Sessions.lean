import TuyaBle.Cloud.Tasks

/-!
# The HTTP session of a client

The gateway opens an HTTP session when a call needs one, and closes the ones it opened. A
session it was given is never touched. One it opened is closed in the end unless two closes
overlap: the one that finishes last then drops whatever the gateway holds.
-/

namespace TuyaBle

namespace Cloud

def opensOf (os : List CloudObs) : List HttpSession :=
  os.filterMap fun
    | .opens session => some session
    | _ => none

def closesOf (os : List CloudObs) : List HttpSession :=
  os.filterMap fun
    | .closes session => some session
    | _ => none

def isClosing : Coroutine → Bool
  | .closing _ => true
  | _ => false

/-- A close is under way. -/
def closing (w : Cloud) : Bool := w.tasks.any isClosing

/-- A close begins when none is under way, and is not cancelled. -/
def Orderly (w : Cloud) : CloudEvent → Prop
  | .close => w.closing = false
  | .cancel task => w.tasks[task]?.any isClosing = false
  | _ => True

instance (w : Cloud) : (e : CloudEvent) → Decidable (Orderly w e)
  | .close => inferInstanceAs (Decidable (w.closing = false))
  | .cancel task => inferInstanceAs (Decidable (w.tasks[task]?.any isClosing = false))
  | .start .. | .answer .. | .closed _ => .isTrue trivial

/-- A close ends while the gateway holds `session`. -/
def Drops (session : HttpSession) (w : Cloud) (e : CloudEvent) : Prop :=
  w.session = some session ∧ ∃ task, e = .closed task

variable {wideUpper : Char → List Char} {P : CloudPrimitives} {w w' : Cloud} {task : Nat}
  {os os' : List CloudObs}

theorem opensOf_append : opensOf (os ++ os') = opensOf os ++ opensOf os' :=
  List.filterMap_append ..

theorem closesOf_append : closesOf (os ++ os') = closesOf os ++ closesOf os' :=
  List.filterMap_append ..

/-- The task is closing the session. -/
abbrev Closes (w : Cloud) (task : Nat) (session : HttpSession) : Prop :=
  w.tasks[task]? = some (.closing session)

theorem closing_iff : w.closing ↔ ∃ task session, w.Closes task session := by
  unfold closing
  rw [List.any_eq_true]
  constructor
  · rintro ⟨coroutine, hm, hc⟩
    obtain ⟨task, htask⟩ := List.mem_iff_getElem?.1 hm
    cases coroutine with
    | closing session => exact ⟨task, session, htask⟩
    | _ => cases hc
  · rintro ⟨task, session, htask⟩
    exact ⟨_, List.mem_of_getElem? htask, rfl⟩

/-! ## What a step does to the session -/

/-- What a task does to the HTTP session from one await to the next: it opens one at most. -/
structure Uses (w : Cloud) (task : Nat) (result : Cloud × List CloudObs) : Prop where
  owns : result.1.ownsSession = w.ownsSession
  session : opensOf result.2 = [] ∧ result.1.session = w.session ∧ result.1.opened = w.opened ∨
    w.session = none ∧ opensOf result.2 = [.opened w.opened] ∧
      result.1.session = some (.opened w.opened) ∧ result.1.opened = w.opened + 1
  closes : closesOf result.2 = []
  tasks : ∃ coroutine, isClosing coroutine = false ∧
    result.1.tasks = (w.suspend task coroutine).tasks

theorem Uses.of_finish (w : Cloud) (task : Nat) (outcome : CloudOutcome) :
    Uses w task (w.finish task outcome) :=
  ⟨suspend_ownsSession .., .inl ⟨rfl, suspend_session .., suspend_opened ..⟩, rfl, .ended, rfl, rfl⟩

theorem Uses.of_post {place : CallPlace} {call : GatewayCall} {exchange : Exchange}
    {awaits : PostedCall → Coroutine} {fails : GatewayError → CloudOutcome}
    (h : ∀ posted, isClosing (awaits posted) = false) :
    Uses w task (w.post P task place call exchange awaits fails) := by
  rcases w.post_cases task place call exchange awaits fails with
    ⟨exception, -, hpost⟩ | ⟨posted, -, -, hpost⟩
  · rw [hpost]
    exact ⟨suspend_ownsSession .., .inl ⟨rfl, suspend_session .., suspend_opened ..⟩, rfl, .ended,
      rfl, rfl⟩
  · rw [hpost]
    rcases w.openSession_cases with ⟨hopen, -⟩ | ⟨hnone, hopen⟩
    · rw [hopen]
      exact ⟨suspend_ownsSession .., .inl ⟨rfl, suspend_session .., suspend_opened ..⟩, rfl, _,
        h posted, rfl⟩
    · rw [hopen]
      exact ⟨suspend_ownsSession .., .inr ⟨hnone, rfl, suspend_session .., suspend_opened ..⟩, rfl,
        _, h posted, tasks_suspend (by rfl) _⟩

theorem Uses.of_nextHome {account : AccountSession} {next : Exchange}
    (rest : List (JsonObject × Nat)) (listed : Listed) :
    Uses w task (w.nextHome P task account next rest listed) := by
  induction rest with
  | nil => exact .of_finish ..
  | cons home rest ih =>
    obtain ⟨home, position⟩ := home
    rw [nextHome]
    split
    · exact ih
    · exact .of_post fun _ => rfl

theorem Uses.of_loggedIn {job : CloudJob} {session : AccountSession} {next : Exchange} :
    Uses w task (w.loggedIn P task job session next) := by
  cases job with
  | login =>
    obtain ⟨howns, hsession, hcloses, coroutine, hc, htasks⟩ := Uses.of_finish
      { w with client := { w.client with account := some session } } task (.loggedIn (.ok session))
    exact ⟨howns, hsession, hcloses, coroutine, hc, htasks.trans (tasks_suspend (by rfl) _)⟩
  | listDevices =>
    have huses : Uses { w with client := { w.client with account := some session } } task
        ({ w with client := { w.client with account := some session } }.listWith P task session
          next) := .of_post fun _ => rfl
    obtain ⟨howns, hsession, hcloses, coroutine, hc, htasks⟩ := huses
    exact ⟨howns, hsession, hcloses, coroutine, hc, htasks.trans (tasks_suspend (by rfl) _)⟩

theorem Uses.of_resume {coroutine : Coroutine} {next : Exchange} {result : Cloud × List CloudObs}
    (h : w.resume wideUpper P task next coroutine = some result) : Uses w task result := by
  cases coroutine with
  | token job posted =>
    simp only [resume] at h
    split at h <;> obtain rfl := Option.some.inj h
    · exact .of_finish ..
    · exact .of_post fun _ => rfl
  | login job posted =>
    simp only [resume] at h
    split at h
    · obtain rfl := Option.some.inj h
      exact .of_finish ..
    · split at h <;> obtain rfl := Option.some.inj h
      · exact .of_finish ..
      · exact .of_loggedIn
  | homes account posted =>
    simp only [resume] at h
    split at h <;> obtain rfl := Option.some.inj h
    · exact .of_finish ..
    · exact .of_nextHome ..
  | devices account posted rest listed =>
    simp only [resume] at h
    split at h <;> obtain rfl := Option.some.inj h
    · exact .of_finish ..
    · exact .of_nextHome ..
  | closing session => cases h
  | ended => cases h

theorem Uses.of_start {job : CloudJob} {exchange : Exchange} :
    Uses w w.tasks.length (w.start P job exchange) := by
  unfold start
  split <;> exact .of_post fun _ => rfl

variable (wideUpper P) in
/-- What a step does to the HTTP session. -/
inductive Touches (w : Cloud) : CloudEvent → Cloud → List CloudObs → Prop
  | uses {e : CloudEvent} {task : Nat} {w' : Cloud} {os : List CloudObs}
      (htask : task ≤ w.tasks.length)
      (hrest : ∀ coroutine, w.tasks[task]? = some coroutine → isClosing coroutine = false)
      (hne : ∀ task, e ≠ .closed task) (h : Uses w task (w', os)) : Touches w e w' os
  | closes (session : HttpSession) (howns : w.ownsSession = true)
      (hsession : w.session = some session) :
      Touches w .close (w.suspend w.tasks.length (.closing session)) [.closes session]
  | closed (task : Nat) (session : HttpSession) (htask : w.tasks[task]? = some (.closing session)) :
      Touches w (.closed task) ({ w with session := none }.suspend task .ended) []
  | cancelled (task : Nat) (session : HttpSession)
      (htask : w.tasks[task]? = some (.closing session)) :
      Touches w (.cancel task) (w.suspend task .ended) []

theorem touches_of_step {e : CloudEvent} (hs : w.step wideUpper P e = some (w', os')) :
    Touches w e w' os' := by
  cases e with
  | start job exchange =>
    obtain hs := Option.some.inj hs
    refine .uses (Nat.le_refl _) (fun coroutine hc => ?_) (by simp) (hs ▸ .of_start)
    rw [List.getElem?_eq_none (Nat.le_refl _)] at hc
    cases hc
  | answer task next =>
    simp only [Cloud.step] at hs
    split at hs
    · rename_i coroutine htask
      refine .uses (List.getElem?_eq_some_iff.1 htask).1.le (fun coroutine' hc => ?_) (by simp)
        (.of_resume hs)
      obtain rfl := Option.some.inj (hc.symm.trans htask)
      cases coroutine' with
      | closing session => cases hs
      | _ => rfl
    · cases hs
  | close =>
    have hs : w.close = (w', os') := Option.some.inj hs
    unfold close at hs
    split at hs
    · rename_i session howns hsession
      cases hs
      exact .closes session howns hsession
    · cases hs
      refine .uses (Nat.le_refl _) (fun coroutine hc => ?_) (by simp) ⟨suspend_ownsSession ..,
        .inl ⟨rfl, suspend_session .., suspend_opened ..⟩, rfl, .ended, rfl, rfl⟩
      rw [List.getElem?_eq_none (Nat.le_refl _)] at hc
      cases hc
  | closed task =>
    simp only [Cloud.step] at hs
    split at hs
    · rename_i session htask
      cases hs
      exact .closed task session htask
    · cases hs
  | cancel task =>
    simp only [Cloud.step] at hs
    split at hs
    · cases hs
    · cases hs
    · rename_i coroutine _ htask
      cases hs
      cases coroutine with
      | closing session => exact .cancelled task session htask
      | _ =>
        refine .uses (List.getElem?_eq_some_iff.1 htask).1.le (fun coroutine' hc => ?_) (by simp)
          ⟨suspend_ownsSession .., .inl ⟨rfl, suspend_session .., suspend_opened ..⟩, rfl, .ended,
            rfl, rfl⟩
        cases hc.symm.trans htask
        rfl

theorem Uses.closes_other {result : Cloud × List CloudObs} (h : Uses w task result)
    (htask : task ≤ w.tasks.length) {other : Nat} {session : HttpSession}
    (hc : result.1.Closes other session) : other ≠ task ∧ w.Closes other session := by
  obtain ⟨coroutine, hcoroutine, htasks⟩ := h.tasks
  rw [Closes, htasks, getElem?_suspend htask] at hc
  split at hc
  · cases hc
    cases hcoroutine
  · rename_i hne
    exact ⟨hne, hc⟩

theorem ended_closing (htask : task < w.tasks.length) {other : Nat} {session : HttpSession}
    (hc : (w.suspend task .ended).Closes other session) :
    other ≠ task ∧ w.Closes other session := by
  rw [Closes, getElem?_suspend htask.le] at hc
  split at hc
  · cases hc
  · rename_i hne
    exact ⟨hne, hc⟩

/-! ## Sessions that are lost -/

/-- A session that was opened and never closed is held, unless a close that ended dropped it. -/
structure Held (tr : List (Cloud × CloudEvent)) (os : List CloudObs) (w : Cloud) : Prop where
  owns : w.ownsSession = true
  opened : opensOf os = (List.range w.opened).map .opened
  held : ∀ session, w.session = some session → session ∈ opensOf os
  dropped : ∀ session, Machine.Took (Drops session) tr → session ∈ opensOf os
  lost : ∀ session ∈ opensOf os, session ∉ closesOf os →
    (w.session = some session ↔ ¬ Machine.Took (Drops session) tr)

theorem Held.step {tr : List (Cloud × CloudEvent)} {e : CloudEvent} (h : Held tr os w)
    (hs : Touches w e w' os') : Held (tr ++ [(w, e)]) (os ++ os') w' := by
  have htook : ∀ {session}, (∀ task, e ≠ .closed task) →
      (Machine.Took (Drops session) (tr ++ [(w, e)]) ↔ Machine.Took (Drops session) tr) :=
    fun hne => Machine.took_snoc.trans (or_iff_left fun hd => by
      obtain ⟨-, task, he⟩ := hd
      exact hne task he)
  cases hs with
  | @uses _ task _ _ htask hrest hne huses =>
    have hcloses : closesOf (os ++ os') = closesOf os := by
      rw [closesOf_append, huses.closes, List.append_nil]
    rcases huses.session with ⟨hopens, hsession, hopened⟩ | ⟨hnone, hopens, hsession, hopened⟩
    · have hall : opensOf (os ++ os') = opensOf os := by
        rw [opensOf_append, hopens, List.append_nil]
      simp only at hsession hopened
      refine ⟨huses.owns.trans h.owns, by rw [hall, hopened, h.opened], ?_, ?_, ?_⟩
      · rw [hall, hsession]
        exact h.held
      · intro session hd
        rw [hall]
        exact h.dropped session ((htook hne).1 hd)
      · rw [hall, hcloses, hsession]
        intro session hm hn
        rw [htook hne]
        exact h.lost session hm hn
    · have hall : opensOf (os ++ os') = opensOf os ++ [.opened w.opened] := by
        rw [opensOf_append, hopens]
      have hnew : .opened w.opened ∉ opensOf os := by
        rw [h.opened]
        simp
      simp only at hsession hopened
      refine ⟨huses.owns.trans h.owns, ?_, ?_, ?_, ?_⟩
      · rw [hall, hopened, List.range_succ, List.map_append, h.opened]
        rfl
      · rw [hall, hsession]
        rintro session ⟨⟩
        exact List.mem_append_right _ (List.mem_singleton_self _)
      · intro session hd
        rw [hall]
        exact List.mem_append_left _ (h.dropped session ((htook hne).1 hd))
      · rw [hall, hcloses, hsession]
        intro session hm hn
        rw [htook hne]
        rcases List.mem_append.1 hm with hm | hm
        · have hlost := h.lost session hm hn
          rw [hnone] at hlost
          refine ⟨?_, fun hd => absurd (hlost.2 hd) (by simp)⟩
          rintro ⟨⟩
          exact absurd hm hnew
        · rw [List.mem_singleton.1 hm]
          exact ⟨fun _ hd => hnew (h.dropped _ hd), fun _ => rfl⟩
  | closes session howns hsession =>
    have hne : ∀ task, CloudEvent.close ≠ .closed task := fun _ he => by cases he
    have hall : opensOf (os ++ [.closes session]) = opensOf os := by
      rw [opensOf_append]
      exact List.append_nil _
    refine ⟨by simpa using h.owns, by simpa [hall] using h.opened, ?_, ?_, ?_⟩
    · rw [hall, suspend_session]
      exact h.held
    · intro session' hd
      rw [hall]
      exact h.dropped session' ((htook hne).1 hd)
    · rw [hall, suspend_session, closesOf_append]
      intro session' hm hn
      rw [htook hne]
      exact h.lost session' hm fun hc => hn (List.mem_append_left _ hc)
  | closed task session htask =>
    rw [List.append_nil]
    refine ⟨by simpa using h.owns, by simpa using h.opened, by simp, ?_, ?_⟩
    · intro session' hd
      rcases Machine.took_snoc.1 hd with hd | hd
      · exact h.dropped session' hd
      · exact h.held session' hd.1
    · intro session' hm hn
      rw [suspend_session, Machine.took_snoc, not_or]
      refine ⟨fun hc => (nomatch hc), fun ⟨hd, hnow⟩ => ?_⟩
      exact absurd ⟨(h.lost session' hm hn).2 hd, task, rfl⟩ hnow
  | cancelled task session htask =>
    have hne : ∀ other, CloudEvent.cancel task ≠ .closed other := fun _ he => by cases he
    rw [List.append_nil]
    refine ⟨by simpa using h.owns, by simpa using h.opened, by simpa using h.held, ?_, ?_⟩
    · exact fun session' hd => h.dropped session' ((htook hne).1 hd)
    · intro session' hm hn
      rw [suspend_session, htook hne]
      exact h.lost session' hm hn

/-! ## Closes that do not overlap -/

/-- The sessions opened are the ones closed, in order, and the one held unless it is being
closed. -/
structure Balanced (os : List CloudObs) (w : Cloud) : Prop where
  single : ∀ task task' session session', w.Closes task session → w.Closes task' session' →
    task = task'
  held : ∀ task session, w.Closes task session → w.session = some session
  balance : opensOf os = closesOf os ++ if w.closing then [] else w.session.toList

theorem closing_congr (h : ∀ task session, w'.Closes task session ↔ w.Closes task session) :
    w'.closing = w.closing := by
  rw [Bool.eq_iff_iff, closing_iff, closing_iff]
  exact exists_congr fun task => exists_congr fun session => h task session

theorem Balanced.step {e : CloudEvent} (h : Balanced os w) (ho : Orderly w e)
    (hs : Touches w e w' os') : Balanced (os ++ os') w' := by
  cases hs with
  | @uses _ task _ _ htask hrest hne huses =>
    have hiff : ∀ other session, w'.Closes other session ↔ w.Closes other session := by
      intro other session
      refine ⟨fun hc => (huses.closes_other htask hc).2, fun hc => ?_⟩
      obtain ⟨coroutine, -, htasks⟩ := huses.tasks
      have hother : other ≠ task := by
        rintro rfl
        cases hrest _ hc
      rw [Closes, htasks, getElem?_suspend htask, if_neg hother]
      exact hc
    have hclosing := closing_congr hiff
    have hcloses : closesOf (os ++ os') = closesOf os := by
      rw [closesOf_append, huses.closes, List.append_nil]
    refine ⟨fun i j s s' hi hj => h.single i j s s' ((hiff i s).1 hi) ((hiff j s').1 hj), ?_, ?_⟩
    · intro other session hc
      have hheld := h.held other session ((hiff other session).1 hc)
      rcases huses.session with ⟨-, hsession, -⟩ | ⟨hnone, -⟩
      · exact hsession.trans hheld
      · rw [hnone] at hheld
        cases hheld
    · rw [hclosing, hcloses, opensOf_append, h.balance]
      rcases huses.session with ⟨hopens, hsession, -⟩ | ⟨hnone, hopens, hsession, -⟩
      · rw [hopens, List.append_nil, ← hsession]
      · have hidle : w.closing = false := by
          rw [← Bool.not_eq_true, closing_iff]
          rintro ⟨other, session, hc⟩
          cases hnone.symm.trans (h.held other session hc)
        simp only at hsession
        rw [hopens, hidle, hsession, hnone]
        simp
  | closes session howns hsession =>
    have hidle : w.closing = false := ho
    have hnone : ∀ task session, ¬ w.Closes task session := fun task session hc => by
      rw [closing_iff.2 ⟨task, session, hc⟩] at hidle
      cases hidle
    have hget : ∀ task session',
        (w.suspend w.tasks.length (.closing session)).Closes task session' →
        task = w.tasks.length ∧ session' = session := by
      intro task session' hc
      rw [Closes, getElem?_suspend (Nat.le_refl _)] at hc
      split at hc
      · rename_i heq
        cases hc
        exact ⟨heq, rfl⟩
      · exact absurd hc (hnone task session')
    have hclosing : (w.suspend w.tasks.length (.closing session)).closing = true := by
      refine closing_iff.2 ⟨w.tasks.length, session, ?_⟩
      rw [Closes, getElem?_suspend (Nat.le_refl _), if_pos rfl]
    refine ⟨fun i j s s' hi hj => (hget i s hi).1.trans (hget j s' hj).1.symm, ?_, ?_⟩
    · intro task session' hc
      rw [suspend_session, (hget task session' hc).2]
      exact hsession
    · rw [hclosing, opensOf_append, closesOf_append, h.balance, hidle, hsession]
      simp [opensOf, closesOf]
  | closed task session htask =>
    have hnone : ({ w with session := none }.suspend task .ended).closing = false := by
      rw [← Bool.not_eq_true, closing_iff]
      rintro ⟨other, session', hc⟩
      obtain ⟨hne, hc⟩ := ended_closing (w := { w with session := none })
        (List.getElem?_eq_some_iff.1 htask).1 hc
      exact hne (h.single other task session' session hc htask)
    have hclosing : w.closing = true := closing_iff.2 ⟨task, session, htask⟩
    refine ⟨fun i j s s' hi hj => ?_, fun other session' hc => ?_, ?_⟩
    · exact absurd (closing_iff.2 ⟨i, s, hi⟩) (by simp [hnone])
    · exact absurd (closing_iff.2 ⟨other, session', hc⟩) (by simp [hnone])
    · rw [hnone, List.append_nil, h.balance, hclosing, suspend_session]
      rfl
  | cancelled task session htask =>
    have ho : (w.tasks[task]?).any isClosing = false := ho
    rw [htask] at ho
    cases ho

/-! ## A session of the caller's -/

/-- The gateway holds the session it was given, and has neither opened nor closed any. -/
structure Adopted (os : List CloudObs) (w : Cloud) : Prop where
  owns : w.ownsSession = false
  session : w.session = some .adopted
  opens : opensOf os = []
  closes : closesOf os = []
  idle : ∀ task session, ¬ w.Closes task session

theorem Adopted.step {e : CloudEvent} (h : Adopted os w) (hs : Touches w e w' os') :
    Adopted (os ++ os') w' := by
  cases hs with
  | @uses _ task _ _ htask hrest hne huses =>
    rcases huses.session with ⟨hopens, hsession, -⟩ | ⟨hnone, -⟩
    · refine ⟨huses.owns.trans h.owns, hsession.trans h.session, ?_, ?_, ?_⟩
      · rw [opensOf_append, h.opens, hopens]
        rfl
      · rw [closesOf_append, h.closes, huses.closes]
        rfl
      · exact fun other session hc => h.idle other session (huses.closes_other htask hc).2
    · cases hnone.symm.trans h.session
  | closes session howns => cases howns.symm.trans h.owns
  | closed task session htask => exact absurd htask (h.idle task session)
  | cancelled task session htask => exact absurd htask (h.idle task session)

/-- **The HTTP sessions of a client.** In every run: a session of the caller's stays in use and
is never closed. Of the sessions the gateway opens, one that was never closed is still held,
unless a close that ended dropped it; when closes neither overlap nor are cancelled, the
sessions opened are the ones closed, in order and once each, and then the one held, unless it
is being closed. -/
theorem sessions_accounted {wideUpper : Char → List Char} {P : CloudPrimitives}
    {client : TuyaBleCloudClient} {adopts : Bool} {w : Cloud} {tr : List (Cloud × CloudEvent)}
    {os : List CloudObs}
    (h : (cloud wideUpper P).Runs Machine.Free (new client adopts) tr os w) :
    (adopts = true → w.session = some .adopted ∧ opensOf os = [] ∧ closesOf os = []) ∧
    (adopts = false → (opensOf os).Nodup ∧
      (∀ session ∈ opensOf os, session ∉ closesOf os →
        (w.session = some session ↔ ¬ Machine.Took (Drops session) tr)) ∧
      ((∀ p ∈ tr, Orderly p.1 p.2) →
        opensOf os = closesOf os ++ if w.closing then [] else w.session.toList)) := by
  constructor
  · rintro rfl
    have hadopted : Adopted os w := h.invariant (I := fun _ os w => Adopted os w)
      ⟨rfl, rfl, rfl, rfl, fun _ _ hc => (nomatch hc)⟩
      fun _ _ _ _ _ _ hi _ hs => hi.step (touches_of_step hs)
    exact ⟨hadopted.session, hadopted.opens, hadopted.closes⟩
  · rintro rfl
    have hheld : Held tr os w := h.invariant (I := fun tr os w => Held tr os w)
      ⟨rfl, rfl, fun _ hc => (nomatch hc), fun _ ⟨_, _, hm, _⟩ => (nomatch hm),
        fun _ hm => (nomatch hm)⟩
      fun _ _ _ _ _ _ hi _ hs => hi.step (touches_of_step hs)
    refine ⟨?_, hheld.lost, fun horderly => ?_⟩
    · rw [hheld.opened]
      exact List.Nodup.map (fun _ _ he => HttpSession.opened.inj he) List.nodup_range
    · have hruns := h.traced.mono (D := fun _ w e => Orderly w e)
        fun _ w e hc => horderly (w, e) hc.2
      have hbalanced : Balanced os w := hruns.invariant (I := fun _ os w => Balanced os w)
        ⟨fun _ _ _ _ hi => (nomatch hi), fun _ _ hi => (nomatch hi), rfl⟩
        fun _ _ _ _ _ _ hi ho hs => hi.step ho (touches_of_step hs)
      exact hbalanced.balance

open FakeGateway in
/-- The HTTP session is closed under a listing, and a login opens another. -/
theorem sessions_accounted_reopened : ∃ tr os w,
    (cloud (fun c => [c]) primitives).Runs Machine.Free (new listingClient false) tr os w ∧
    opensOf os = [.opened 0, .opened 1] ∧ (opensOf os).Nodup ∧
    opensOf os = closesOf os ++ if w.closing then [] else w.session.toList := by
  have hx : ((cloud (fun c => [c]) primitives).execWhere (fun _ w e => Orderly w e) [] []
      (new listingClient false) [.start .listDevices silentExchange, .close, .closed 1,
        .start .login silentExchange, .cancel 0]).map (fun r => opensOf r.2.1) =
      some [.opened 0, .opened 1] := by decide +kernel
  obtain ⟨⟨tr, os, w⟩, he, hopens⟩ := Option.map_eq_some_iff.1 hx
  have hruns := Machine.runs_of_execWhere he
  obtain ⟨hnodup, -, hbalance⟩ := (sessions_accounted hruns.free).2 rfl
  exact ⟨tr, os, w, hruns.free, hopens, hnodup, hbalance fun p hm => hruns.of_mem hm⟩

end Cloud

end TuyaBle
