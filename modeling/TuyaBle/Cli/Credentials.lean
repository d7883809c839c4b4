import TuyaBle.Cloud.Isolation
import TuyaBle.Cloud.Sessions

/-!
# Looking up credentials

The `credentials` command lists the devices of an account, and its `async with` closes the
client whatever became of the listing: it returned, it raised, or the command was cancelled
in one of its calls. The close is an await of its own, and may fail or be cancelled too.
-/

namespace TuyaBle

open Machine (Happened happened_now)

/-- Where `_async_credentials` stands, and the client it made. -/
inductive CredentialsCommand where
  | created (cloud : Cloud)
  /-- Await: a call of `async_list_devices`. -/
  | listing (cloud : Cloud)
  /-- Await: `async_close`, with the outcome of the block. -/
  | closing (cloud : Cloud) (outcome : Except GatewayError (List CloudDevice))
  | finished (cloud : Cloud)

inductive CredentialsEvent where
  | start (exchange : Exchange)
  /-- The call is answered; `next` is the exchange of the call after it. -/
  | answer (next : Exchange)
  | cancel
  /-- The HTTP session is closed, or could not be. -/
  | closed (result : Except PyException Unit)

inductive CredentialsObs where
  | cloud (o : CloudObs)
  | ended (outcome : Except GatewayError (List CloudDevice))

namespace CredentialsCommand

def cloud : CredentialsCommand → Cloud
  | .created w | .listing w | .closing w _ | .finished w => w

def cancelled : Except GatewayError (List CloudDevice) :=
  .error (.raised ⟨.cancelledError, "", none⟩)

/-- How the listing has ended. -/
def listedIn (os : List CloudObs) : Option (Except GatewayError (List CloudDevice)) :=
  os.findSome? fun
    | .ended _ (.listed outcome) => some outcome
    | _ => none

/-- `__aexit__`, up to its await if there is one. -/
def exit (w : Cloud) (outcome : Except GatewayError (List CloudDevice)) :
    CredentialsCommand × List CredentialsObs :=
  let (w', os) := w.close
  match w.ownsSession, w.session with
  | true, some _ => (.closing w' outcome, os.map .cloud)
  | _, _ => (.finished w', os.map .cloud ++ [.ended outcome])

/-- The listing has run to its next await, or out of the block. -/
def advance (result : Cloud × List CloudObs) : CredentialsCommand × List CredentialsObs :=
  match listedIn result.2 with
  | none => (.listing result.1, result.2.map .cloud)
  | some outcome =>
    let (command, os) := exit result.1 outcome
    (command, result.2.map .cloud ++ os)

/-- The close is over, and the command with it. -/
def finish (outcome : Except GatewayError (List CloudDevice)) (result : Cloud × List CloudObs) :
    CredentialsCommand × List CredentialsObs :=
  (.finished result.1, result.2.map .cloud ++ [.ended outcome])

variable (wideUpper : Char → List Char) (P : CloudPrimitives)

/-- The command's task is the first of the client; closing counts as the second. -/
def step : CredentialsCommand → CredentialsEvent →
    Option (CredentialsCommand × List CredentialsObs)
  | .created w, .start exchange =>
    (w.step wideUpper P (.start .listDevices exchange)).map advance
  | .listing w, .answer next => (w.step wideUpper P (.answer 0 next)).map advance
  | .listing w, .cancel =>
    (w.step wideUpper P (.cancel 0)).map fun result => exit result.1 cancelled
  | .closing w outcome, .closed (.ok ()) => (w.step wideUpper P (.closed 1)).map (finish outcome)
  | .closing w _, .closed (.error exception) =>
    (w.step wideUpper P (.cancel 1)).map (finish (.error (.raised exception)))
  | .closing w _, .cancel => (w.step wideUpper P (.cancel 1)).map (finish cancelled)
  | _, _ => none

end CredentialsCommand

def credentialsCommand (wideUpper : Char → List Char) (P : CloudPrimitives) :
    Machine CredentialsCommand CredentialsEvent CredentialsObs where
  step := CredentialsCommand.step wideUpper P

/-- What is seen of the client. -/
def cloudPart (os : List CredentialsObs) : List CloudObs :=
  os.filterMap fun
    | .cloud o => some o
    | .ended _ => none

namespace CredentialsCommand

variable {wideUpper : Char → List Char} {P : CloudPrimitives} {client : TuyaBleCloudClient}
  {tr : List (CredentialsCommand × CredentialsEvent)} {os os' : List CredentialsObs}
  {c c' : CredentialsCommand} {e : CredentialsEvent}

/-- The close failed, or was cancelled. -/
def Interrupted (tr : List (CredentialsCommand × CredentialsEvent)) : Prop :=
  Happened .cancel tr ∨ ∃ exception, Happened (.closed (.error exception)) tr

/-- Where an outcome comes from. -/
def Explained (tr : List (CredentialsCommand × CredentialsEvent)) (cos : List CloudObs)
    (outcome : Except GatewayError (List CloudDevice)) : Prop :=
  (Happened .cancel tr ∧ outcome = cancelled) ∨
    (∃ exception, Happened (.closed (.error exception)) tr ∧
      outcome = .error (.raised exception)) ∨
    ∃ task, .ended task (.listed outcome) ∈ cos

/-- The HTTP sessions of a command, by where it stands. -/
inductive Stage (client : TuyaBleCloudClient) (tr : List (CredentialsCommand × CredentialsEvent)) :
    List CloudObs → CredentialsCommand → List CredentialsObs → Prop where
  | created : Stage client tr [] (.created (.new client false)) []
  | listing (cos : List CloudObs) (w : Cloud) : w.ownsSession = true →
      Cloud.opensOf cos = w.session.toList → Cloud.closesOf cos = [] →
      Stage client tr cos (.listing w) (cos.map .cloud)
  | closing (cos : List CloudObs) (w : Cloud)
      (outcome : Except GatewayError (List CloudDevice)) : (Cloud.opensOf cos).length ≤ 1 →
      Cloud.closesOf cos = Cloud.opensOf cos → Explained tr cos outcome →
      Stage client tr cos (.closing w outcome) (cos.map .cloud)
  | finished (cos : List CloudObs) (w : Cloud) (outcome : Except GatewayError (List CloudDevice)) :
      (Cloud.opensOf cos).length ≤ 1 → Cloud.closesOf cos = Cloud.opensOf cos →
      w.session = none ∨ Interrupted tr → Explained tr cos outcome →
      Stage client tr cos (.finished w) (cos.map .cloud ++ [.ended outcome])

/-- The only task that was started lists the devices of a new client. -/
def OnlyListing (client : TuyaBleCloudClient) (tr : List (Cloud × CloudEvent)) : Prop :=
  ∀ w job exchange, (w, .start job exchange) ∈ tr → job = .listDevices ∧ w = .new client false

variable (wideUpper P) in
/-- A command is a run of its client. -/
def Inv (client : TuyaBleCloudClient) (tr : List (CredentialsCommand × CredentialsEvent))
    (os : List CredentialsObs) (c : CredentialsCommand) : Prop :=
  ∃ tr' cos, (TuyaBle.cloud wideUpper P).Runs Machine.Free (.new client false) tr' cos c.cloud ∧
    OnlyListing client tr' ∧ Stage client tr cos c os

theorem OnlyListing.snoc {tr : List (Cloud × CloudEvent)} {w : Cloud} {e : CloudEvent}
    (h : OnlyListing client tr)
    (he : ∀ job exchange, e = .start job exchange → job = .listDevices ∧ w = .new client false) :
    OnlyListing client (tr ++ [(w, e)]) := by
  intro w' job exchange hm
  rcases List.mem_append.1 hm with hm | hm
  · exact h w' job exchange hm
  · cases List.mem_singleton.1 hm
    exact he job exchange rfl

/-! ## The block is left -/

section
variable {tr' : List (Cloud × CloudEvent)} {cos cos' : List CloudObs} {w w' : Cloud}
  {outcome : Except GatewayError (List CloudDevice)}

theorem listedIn_eq_some (h : listedIn cos = some outcome) :
    ∃ task, .ended task (.listed outcome) ∈ cos := by
  obtain ⟨o, hm, ho⟩ := List.exists_of_findSome?_eq_some h
  cases o with
  | ended task outcome' =>
    cases outcome' with
    | loggedIn => cases ho
    | listed outcome' =>
      obtain rfl := Option.some.inj ho
      exact ⟨task, hm⟩
  | _ => cases ho

/-- The client is closed, if it holds an HTTP session. -/
theorem inv_exit
    (hrun : (TuyaBle.cloud wideUpper P).Runs Machine.Free (.new client false) tr' cos w)
    (honly : OnlyListing client tr') (howns : w.ownsSession = true)
    (hopens : Cloud.opensOf cos = w.session.toList) (hcloses : Cloud.closesOf cos = [])
    (houtcome : Explained tr cos outcome) :
    Inv wideUpper P client tr (cos.map .cloud ++ (exit w outcome).2) (exit w outcome).1 := by
  have hstep : (TuyaBle.cloud wideUpper P).step w .close = some w.close := rfl
  have honly := honly.snoc (w := w) (e := .close) (fun _ _ he => by cases he)
  cases hsession : w.session with
  | none =>
    have hw : w.close = (w.suspend w.tasks.length .ended, []) := by
      unfold Cloud.close
      rw [howns, hsession]
    have hexit : exit w outcome =
        (.finished (w.suspend w.tasks.length .ended), [.ended outcome]) := by
      unfold exit
      rw [howns, hsession, hw]
      rfl
    rw [hsession] at hopens
    rw [hw] at hstep
    have hrun := hrun.snoc trivial hstep
    rw [List.append_nil] at hrun
    rw [hexit]
    refine ⟨_, cos, hrun, honly, .finished cos _ outcome ?_ ?_ (.inl ?_) houtcome⟩
    · rw [hopens]
      exact Nat.zero_le 1
    · rw [hopens, hcloses]
      rfl
    · rw [Cloud.suspend_session, hsession]
  | some session =>
    have hw : w.close = (w.suspend w.tasks.length (.closing session), [.closes session]) := by
      unfold Cloud.close
      rw [howns, hsession]
    have hexit : exit w outcome =
        (.closing (w.suspend w.tasks.length (.closing session)) outcome,
          [.cloud (.closes session)]) := by
      unfold exit
      rw [howns, hsession, hw]
      rfl
    rw [hsession] at hopens
    rw [hw] at hstep
    rw [hexit]
    refine ⟨_, _, hrun.snoc trivial hstep, honly, ?_⟩
    have hstage : Stage client tr (cos ++ [.closes session])
        (.closing (w.suspend w.tasks.length (.closing session)) outcome)
        ((cos ++ [CloudObs.closes session]).map .cloud) := by
      refine .closing _ _ outcome ?_ ?_ ?_
      · rw [Cloud.opensOf_append, hopens]
        exact Nat.le_refl 1
      · rw [Cloud.opensOf_append, Cloud.closesOf_append, hopens, hcloses]
        rfl
      · exact houtcome.imp_right (.imp_right fun ⟨task, hm⟩ =>
          ⟨task, List.mem_append_left _ hm⟩)
    rw [List.map_append] at hstage
    exact hstage

/-- A step of the listing. -/
theorem inv_advance
    (hrun : (TuyaBle.cloud wideUpper P).Runs Machine.Free (.new client false) tr' (cos ++ cos') w')
    (honly : OnlyListing client tr') {task : Nat} (huses : Cloud.Uses w task (w', cos'))
    (howns : w.ownsSession = true) (hopens : Cloud.opensOf cos = w.session.toList)
    (hcloses : Cloud.closesOf cos = []) :
    Inv wideUpper P client tr (cos.map .cloud ++ (advance (w', cos')).2)
      (advance (w', cos')).1 := by
  have howns : w'.ownsSession = true := huses.owns.trans howns
  have hcloses : Cloud.closesOf (cos ++ cos') = [] := by
    rw [Cloud.closesOf_append, hcloses, huses.closes]
    rfl
  have hopens : Cloud.opensOf (cos ++ cos') = w'.session.toList := by
    rw [Cloud.opensOf_append, hopens]
    rcases huses.session with ⟨hnone, hsession, -⟩ | ⟨hnone, hopened, hsession, -⟩
    · rw [hnone, hsession, List.append_nil]
    · rw [hnone, hopened, hsession]
      rfl
  unfold advance
  split
  · rw [← List.map_append]
    exact ⟨_, _, hrun, honly, .listing _ w' howns hopens hcloses⟩
  · rename_i outcome hlisted
    obtain ⟨task, hm⟩ := listedIn_eq_some hlisted
    have houtcome : Explained tr (cos ++ cos') outcome :=
      .inr (.inr ⟨task, List.mem_append_right _ hm⟩)
    have h := inv_exit hrun honly howns hopens hcloses houtcome
    rw [List.map_append, List.append_assoc] at h
    exact h

theorem Explained.snoc (h : Explained tr cos outcome) : Explained (tr ++ [(c, e)]) cos outcome :=
  h.imp (.imp_left Happened.snoc) (.imp_left fun ⟨exception, hm, ho⟩ => ⟨exception, hm.snoc, ho⟩)

theorem uses_of_answer {task : Nat} {next : Exchange} {result : Cloud × List CloudObs}
    (hs : w.step wideUpper P (.answer task next) = some result) : Cloud.Uses w task result := by
  simp only [Cloud.step] at hs
  split at hs
  · exact .of_resume hs
  · cases hs

/-- A task that is cancelled leaves the HTTP session and its observations alone. -/
theorem cancel_eq {task : Nat} {result : Cloud × List CloudObs}
    (hs : w.step wideUpper P (.cancel task) = some result) :
    result = (w.suspend task .ended, []) := by
  simp only [Cloud.step] at hs
  split at hs
  · cases hs
  · cases hs
  · exact (Option.some.inj hs).symm

theorem closed_eq {task : Nat} {result : Cloud × List CloudObs}
    (hs : w.step wideUpper P (.closed task) = some result) :
    result = ({ w with session := none }.suspend task .ended, []) := by
  simp only [Cloud.step] at hs
  split at hs
  · exact (Option.some.inj hs).symm
  · cases hs

/-- Another step of the client. -/
theorem extend {event : CloudEvent}
    (hrun : (TuyaBle.cloud wideUpper P).Runs Machine.Free (.new client false) tr' cos w)
    (honly : OnlyListing client tr') (hs : w.step wideUpper P event = some (w', cos'))
    (he : ∀ job exchange, event = .start job exchange →
      job = .listDevices ∧ w = .new client false) :
    (TuyaBle.cloud wideUpper P).Runs Machine.Free (.new client false) (tr' ++ [(w, event)])
        (cos ++ cos') w' ∧
      OnlyListing client (tr' ++ [(w, event)]) :=
  ⟨hrun.snoc trivial hs, honly.snoc he⟩

/-- The close ends without another word of the client. -/
theorem inv_finish {outcome' : Except GatewayError (List CloudDevice)}
    (hrun : (TuyaBle.cloud wideUpper P).Runs Machine.Free (.new client false) tr' (cos ++ []) w')
    (honly : OnlyListing client tr') (hlength : (Cloud.opensOf cos).length ≤ 1)
    (hcloses : Cloud.closesOf cos = Cloud.opensOf cos)
    (hsession : w'.session = none ∨ Interrupted tr) (houtcome : Explained tr cos outcome') :
    Inv wideUpper P client tr (cos.map .cloud ++ (finish outcome' (w', [])).2)
      (finish outcome' (w', [])).1 := by
  rw [List.append_nil] at hrun
  exact ⟨_, cos, hrun, honly, .finished cos w' outcome' hlength hcloses hsession houtcome⟩

theorem Inv.step (h : Inv wideUpper P client tr os c)
    (hs : c.step wideUpper P e = some (c', os')) :
    Inv wideUpper P client (tr ++ [(c, e)]) (os ++ os') c' := by
  obtain ⟨tr', cos, hrun, honly, hstage⟩ := h
  cases hstage with
  | created =>
    cases e with
    | start exchange =>
      simp only [CredentialsCommand.step, Option.map_eq_some_iff] at hs
      obtain ⟨⟨w', cos'⟩, hstep, hc⟩ := hs
      obtain ⟨rfl, rfl⟩ := Prod.mk.inj hc
      have huses : Cloud.Uses (Cloud.new client false) 0 (w', cos') :=
        Option.some.inj hstep ▸ .of_start
      obtain ⟨hrun, honly⟩ := extend hrun honly hstep fun job exchange he => by
        cases he
        exact ⟨rfl, rfl⟩
      exact inv_advance hrun honly huses rfl rfl rfl
    | _ => cases hs
  | listing cos w howns hopens hcloses =>
    cases e with
    | answer next =>
      obtain ⟨⟨w', cos'⟩, hstep, hc⟩ := Option.map_eq_some_iff.1 hs
      obtain ⟨rfl, rfl⟩ := Prod.mk.inj hc
      obtain ⟨hrun, honly⟩ := extend hrun honly hstep nofun
      exact inv_advance hrun honly (uses_of_answer hstep) howns hopens hcloses
    | cancel =>
      obtain ⟨result, hstep, hc⟩ := Option.map_eq_some_iff.1 hs
      obtain rfl := cancel_eq hstep
      obtain ⟨rfl, rfl⟩ := Prod.mk.inj hc
      obtain ⟨hrun, honly⟩ := extend hrun honly hstep nofun
      rw [List.append_nil] at hrun
      refine inv_exit hrun honly ?_ ?_ hcloses (.inl ⟨happened_now, rfl⟩)
      · rw [Cloud.suspend_ownsSession, howns]
      · rw [Cloud.suspend_session, hopens]
    | _ => cases hs
  | closing cos w outcome hlength hcloses houtcome =>
    cases e with
    | closed result =>
      cases result with
      | ok =>
        obtain ⟨result, hstep, hc⟩ := Option.map_eq_some_iff.1 hs
        obtain rfl := closed_eq hstep
        obtain ⟨rfl, rfl⟩ := Prod.mk.inj hc
        obtain ⟨hrun, honly⟩ := extend hrun honly hstep nofun
        refine inv_finish hrun honly hlength hcloses (.inl ?_) houtcome.snoc
        rw [Cloud.suspend_session]
      | error exception =>
        obtain ⟨result, hstep, hc⟩ := Option.map_eq_some_iff.1 hs
        obtain rfl := cancel_eq hstep
        obtain ⟨rfl, rfl⟩ := Prod.mk.inj hc
        obtain ⟨hrun, honly⟩ := extend hrun honly hstep nofun
        exact inv_finish hrun honly hlength hcloses (.inr (.inr ⟨exception, happened_now⟩))
          (.inr (.inl ⟨exception, happened_now, rfl⟩))
    | cancel =>
      obtain ⟨result, hstep, hc⟩ := Option.map_eq_some_iff.1 hs
      obtain rfl := cancel_eq hstep
      obtain ⟨rfl, rfl⟩ := Prod.mk.inj hc
      obtain ⟨hrun, honly⟩ := extend hrun honly hstep nofun
      exact inv_finish hrun honly hlength hcloses (.inr (.inl happened_now))
        (.inl ⟨happened_now, rfl⟩)
    | _ => cases hs
  | finished cos w outcome => cases e <;> cases hs

end

theorem cloudPart_map (cos : List CloudObs) : cloudPart (cos.map .cloud) = cos := by
  unfold cloudPart
  rw [List.filterMap_map]
  exact List.filterMap_some

theorem Stage.cloudPart {cos : List CloudObs} (h : Stage client tr cos c os) :
    cloudPart os = cos := by
  cases h with
  | created => rfl
  | listing | closing => exact cloudPart_map cos
  | finished =>
    rw [TuyaBle.cloudPart, List.filterMap_append]
    exact (List.append_nil _).trans (cloudPart_map cos)

/-- **The credentials command closes what it opens.** In every run it opens one HTTP session at
most and closes no other; when it ends it has closed that session, which the client no longer
holds unless the close failed or the command was cancelled. Its outcome is that of a listing
alone with the exchanges of its calls, unless it was cancelled or the close failed. -/
theorem credentials_released
    (h : (credentialsCommand wideUpper P).Runs Machine.Free
      (.created (.new client false)) tr os c) :
    (Cloud.opensOf (cloudPart os)).length ≤ 1 ∧
      (Cloud.closesOf (cloudPart os) = [] ∨
        Cloud.closesOf (cloudPart os) = Cloud.opensOf (cloudPart os)) ∧
      (∀ w, c = .finished w → Cloud.closesOf (cloudPart os) = Cloud.opensOf (cloudPart os) ∧
        (w.session = none ∨ Interrupted tr)) ∧
      ∀ outcome, .ended outcome ∈ os →
        (Happened .cancel tr ∧ outcome = cancelled) ∨
        (∃ exception, Happened (.closed (.error exception)) tr ∧
          outcome = .error (.raised exception)) ∨
        (∃ exchanges, Cloud.Agrees exchanges 0 (cloudPart os)) ∧
          ∀ exchanges, Cloud.Agrees exchanges 0 (cloudPart os) →
            (asyncListDevices wideUpper P client exchanges).1 = outcome := by
  have hinv : Inv wideUpper P client tr os c := by
    refine h.invariant (I := fun tr os c => Inv wideUpper P client tr os c) ?_
      fun _ _ _ _ _ _ hi _ hs => hi.step hs
    exact ⟨[], [], .refl, fun _ _ _ hm => absurd hm List.not_mem_nil, .created⟩
  obtain ⟨tr', cos, hrun, honly, hstage⟩ := hinv
  rw [hstage.cloudPart]
  refine ⟨?_, ?_, ?_, fun outcome hm => ?_⟩
  · cases hstage with
    | created => exact Nat.zero_le 1
    | listing cos w _ hopens =>
      rw [hopens]
      exact Option.length_toList_le
    | closing _ _ _ hlength => exact hlength
    | finished _ _ _ hlength => exact hlength
  · cases hstage with
    | created => exact .inl rfl
    | listing _ _ _ _ hcloses => exact .inl hcloses
    | closing _ _ _ _ hcloses => exact .inr hcloses
    | finished _ _ _ _ hcloses => exact .inr hcloses
  · rintro w rfl
    cases hstage with
    | finished _ _ _ _ hcloses hsession => exact ⟨hcloses, hsession⟩
  · have hexplained : Explained tr cos outcome := by
      cases hstage with
      | created => cases hm
      | listing | closing => simp at hm
      | finished cos w outcome' _ _ _ houtcome =>
        obtain rfl : outcome = outcome' := by simpa using hm
        exact houtcome
    refine hexplained.imp_right (.imp_right fun ⟨task, hended⟩ => ?_)
    have hcloud : Cloud.Inv wideUpper P client tr' cos c.cloud :=
      hrun.invariant (I := fun tr os w => Cloud.Inv wideUpper P client tr os w)
        (Cloud.inv_new false) fun _ _ _ _ _ _ hi _ hs => hi.step hs
    obtain ⟨job, held, ⟨w, exchange, hbegan, htask, hclient⟩, hall⟩ :=
      hcloud.ended task (.listed outcome) hended
    obtain ⟨rfl, rfl⟩ := honly w job exchange hbegan
    obtain rfl : 0 = task := htask
    rw [← hclient] at hall
    refine ⟨?_, fun exchanges ha => ?_⟩
    · cases hfirst : c.cloud.tasks[0]? with
      | none =>
        refine ⟨⟨default, default, default, fun _ => default⟩, fun place exchange hm => ?_⟩
        have hm := Cloud.mem_callsOf.2 hm
        rw [hcloud.fresh 0 (List.getElem?_eq_none_iff.1 hfirst)] at hm
        cases hm
      | some coroutine => exact (hcloud.ordered 0 coroutine hfirst).exists_agrees
    · have halone := hall exchanges ha
      simp only [Cloud.alone, CloudOutcome.listed.injEq] at halone
      exact halone

theorem step_answer {w : Cloud} {next : Exchange} {result : Cloud × List CloudObs}
    (h : (TuyaBle.cloud wideUpper P).step w (.answer 0 next) = some result) :
    (credentialsCommand wideUpper P).step (.listing w) (.answer next) = some (advance result) :=
  congrArg (Option.map advance) h

open FakeGateway in
/-- The login and the calls of the listing are answered, and the HTTP session they used is
closed. -/
theorem credentials_released_recorded : ∃ tr os w,
    (credentialsCommand (fun c => [c]) listingPrimitives).Runs Machine.Free
        (.created (.new recordedClient false)) tr os (.finished w) ∧
      .ended (.ok [livingRoomLight, soilSensor]) ∈ os ∧
      Cloud.opensOf (cloudPart os) = [.opened 0] ∧
      Cloud.closesOf (cloudPart os) = Cloud.opensOf (cloudPart os) ∧
      (w.session = none ∨ Interrupted tr) ∧
      (∃ exchanges, Cloud.Agrees exchanges 0 (cloudPart os)) ∧
      ∀ exchanges, Cloud.Agrees exchanges 0 (cloudPart os) →
        (asyncListDevices (fun c => [c]) listingPrimitives recordedClient exchanges).1 =
          .ok [livingRoomLight, soilSensor] := by
  obtain ⟨token, htoken, hstart⟩ := step_start
  obtain ⟨login, hlogin, htokenStep⟩ := step_token htoken []
  obtain ⟨homes, hhomes, hloginStep⟩ := step_login hlogin []
  obtain ⟨first, hfirst, hhomesStep⟩ := step_homes hhomes []
  obtain ⟨second, hsecond, hfirstStep⟩ := step_firstList hfirst []
  have hsecondStep := step_secondList hsecond [] silentExchange
  have hstarted : (credentialsCommand (fun c => [c]) listingPrimitives).step
      (.created (.new recordedClient false)) (.start recordedTokenExchange) = some (advance _) :=
    congrArg (Option.map advance) hstart
  have hclosed : (credentialsCommand (fun c => [c]) listingPrimitives).step
      (.closing (working listingClient [.ended, .closing (.opened 0)])
        (.ok [livingRoomLight, soilSensor])) (.closed (.ok ())) =
      some (.finished _, [.ended (.ok [livingRoomLight, soilSensor])]) := rfl
  have hruns : (credentialsCommand (fun c => [c]) listingPrimitives).Runs Machine.Free
      (.created (.new recordedClient false)) _ _ (.finished _) :=
    .snoc (.snoc (.snoc (.snoc (.snoc (.snoc (.snoc .refl trivial hstarted)
      trivial (step_answer htokenStep)) trivial (step_answer hloginStep))
      trivial (step_answer hhomesStep)) trivial (step_answer hfirstStep))
      trivial (step_answer hsecondStep)) trivial hclosed
  obtain ⟨-, -, hfinished, houtcome⟩ := credentials_released hruns
  obtain ⟨hcloses, hsession⟩ := hfinished _ rfl
  have hended : ∀ os, CredentialsObs.ended (.ok [livingRoomLight, soilSensor]) ∈
      os ++ [.ended (.ok [livingRoomLight, soilSensor])] :=
    fun os => List.mem_append_right os (List.mem_singleton_self _)
  refine ⟨_, _, _, hruns, hended _, rfl, hcloses, hsession, ?_⟩
  rcases houtcome _ (hended _) with ⟨hcancelled, -⟩ | ⟨exception, hfailed, -⟩ | halone
  · simp [Happened, Machine.Took] at hcancelled
  · simp [Happened, Machine.Took] at hfailed
  · exact halone

end CredentialsCommand

end TuyaBle
