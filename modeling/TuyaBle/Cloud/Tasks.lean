import TuyaBle.Cloud.Devices
import TuyaBle.Lib.Run

/-!
# Tasks that share a client

The coroutines of a `TuyaBleCloudClient` run in the tasks of one event loop. A task runs on
its own from one await to the next: the posts of its calls, and the close of the HTTP
session. The `Exchange` of a call is given when the call begins; its answer arrives whenever
the event loop says.
-/

namespace TuyaBle

/-- An HTTP session of aiohttp. -/
inductive HttpSession where
  /-- The one the client was given. -/
  | adopted
  /-- The gateway opened it. -/
  | opened (number : Nat)
  deriving DecidableEq, Repr

/-- What a task is started to run. -/
inductive CloudJob where
  | login
  | listDevices
  deriving DecidableEq, Repr

/-- A call of a coroutine. -/
inductive CallPlace where
  | token
  | login
  | homes
  /-- The records of the home at a position. -/
  | devices (position : Nat)
  deriving DecidableEq, Repr

/-- The exchange a listing has at a call. -/
def ListExchanges.at (exchanges : ListExchanges) : CallPlace → Exchange
  | .token => exchanges.token
  | .login => exchanges.login
  | .homes => exchanges.homes
  | .devices position => exchanges.devices position

/-- A call that awaits its answer. -/
structure PostedCall where
  call : GatewayCall
  exchange : Exchange
  form : Dict String String

/-- Where a coroutine is suspended. -/
inductive Coroutine where
  | token (job : CloudJob) (posted : PostedCall)
  | login (job : CloudJob) (posted : PostedCall)
  | homes (account : AccountSession) (posted : PostedCall)
  | devices (account : AccountSession) (posted : PostedCall) (rest : List (JsonObject × Nat))
      (listed : Listed)
  | closing (session : HttpSession)
  | ended

inductive CloudOutcome where
  | loggedIn (outcome : Except GatewayError AccountSession)
  | listed (outcome : Except GatewayError (List CloudDevice))

inductive CloudObs where
  /-- A call begins. -/
  | called (task : Nat) (place : CallPlace) (exchange : Exchange)
  /-- An HTTP session is opened, or closed. -/
  | opens (session : HttpSession)
  | closes (session : HttpSession)
  /-- A login replaces the account of the client. -/
  | stored (task : Nat) (session : AccountSession)
  | ended (task : Nat) (outcome : CloudOutcome)

inductive CloudEvent where
  | start (job : CloudJob) (exchange : Exchange)
  /-- The call a task awaits is answered; `next` is the exchange of the call after it. -/
  | answer (task : Nat) (next : Exchange)
  /-- `async_close` is called, by a task of its own. -/
  | close
  | closed (task : Nat)
  | cancel (task : Nat)

/-- The client, its gateway's HTTP session and the tasks, by their numbers. -/
structure Cloud where
  client : TuyaBleCloudClient
  ownsSession : Bool
  session : Option HttpSession
  /-- The sessions opened so far. -/
  opened : Nat := 0
  tasks : List Coroutine := []

namespace Cloud

/-- A client that has just been made, with an HTTP session of the caller's or without. -/
def new (client : TuyaBleCloudClient) (adopts : Bool) : Cloud where
  client := client
  ownsSession := !adopts
  session := if adopts then some .adopted else none

/-- A task that has just been created is suspended like any other. -/
def suspend (w : Cloud) (task : Nat) (coroutine : Coroutine) : Cloud :=
  if task < w.tasks.length then { w with tasks := w.tasks.set task coroutine }
  else { w with tasks := w.tasks ++ [coroutine] }

/-! ## Calls -/

variable (wideUpper : Char → List Char) (P : CloudPrimitives)

/-- The HTTP session a call is posted on. -/
def openSession (w : Cloud) : Cloud × List CloudObs :=
  match w.session with
  | some _ => (w, [])
  | none =>
    let session := .opened w.opened
    ({ w with session := some session, opened := w.opened + 1 }, [.opens session])

/-- A call up to its await. -/
def post (w : Cloud) (task : Nat) (place : CallPlace) (call : GatewayCall) (exchange : Exchange)
    (awaits : PostedCall → Coroutine) (fails : GatewayError → CloudOutcome) :
    Cloud × List CloudObs :=
  match callForm P w.client.gateway exchange call with
  | .error exception =>
    (w.suspend task .ended,
      [.called task place exchange, .ended task (fails (.raised exception))])
  | .ok form =>
    let (w, os) := w.openSession
    (w.suspend task (awaits ⟨call, exchange, form⟩), .called task place exchange :: os)

/-- The call once its answer is there. -/
def answered (gateway : Gateway) (posted : PostedCall) : Except GatewayError JsonValue := do
  let raw ← raising (asyncPost gateway posted.exchange.post posted.call.api posted.form)
  unwrap P posted.call.api (callKey P gateway posted.exchange posted.call) raw

def answeredObject (gateway : Gateway) (posted : PostedCall) : Except GatewayError JsonObject := do
  let result ← answered P gateway posted
  raising (objectResult posted.call.api result)

def answeredObjectList (gateway : Gateway) (posted : PostedCall) :
    Except GatewayError (List JsonObject) := do
  let result ← answered P gateway posted
  raising (objectListResult posted.call.api result)

/-! ## Coroutines -/

def finish (w : Cloud) (task : Nat) (outcome : CloudOutcome) : Cloud × List CloudObs :=
  (w.suspend task .ended, [.ended task outcome])

/-- An error of the login, in a task that runs it for itself or before a listing. -/
def loginFails (job : CloudJob) (exception : GatewayError) : CloudOutcome :=
  match job with
  | .login => .loggedIn (.error exception)
  | .listDevices => .listed (.error exception)

def listFails (exception : GatewayError) : CloudOutcome := .listed (.error exception)

/-- The listing, once there is an account. -/
def listWith (w : Cloud) (task : Nat) (account : AccountSession) (next : Exchange) :
    Cloud × List CloudObs :=
  w.post P task .homes (homesCall account) next (.homes account) listFails

/-- The loop over the homes, up to its next await. -/
def nextHome (w : Cloud) (task : Nat) (account : AccountSession) (next : Exchange) :
    List (JsonObject × Nat) → Listed → Cloud × List CloudObs
  | [], listed => w.finish task (.listed (.ok listed.devices))
  | (home, position) :: rest, listed =>
    match groupIdText home with
    | none => nextHome w task account next rest listed
    | some groupId =>
      w.post P task (.devices position) (devicesCall account groupId) next
        (fun posted => .devices account posted rest listed) listFails

/-- The login call that the answer to the token call leads to. -/
def tokenAnswered (client : TuyaBleCloudClient) (posted : PostedCall) :
    Except GatewayError GatewayCall := do
  let token ← answeredObject P client.gateway posted
  raising (loginCall P client token)

/-- The session is stored, and a listing goes on with it. -/
def loggedIn (w : Cloud) (task : Nat) (job : CloudJob) (session : AccountSession)
    (next : Exchange) : Cloud × List CloudObs :=
  let w := { w with client := { w.client with account := some session } }
  match job with
  | .login =>
    let (w, os) := w.finish task (.loggedIn (.ok session))
    (w, .stored task session :: os)
  | .listDevices =>
    let (w, os) := w.listWith P task session next
    (w, .stored task session :: os)

/-- A task goes on with the answer to its call. -/
def resume (w : Cloud) (task : Nat) (next : Exchange) :
    Coroutine → Option (Cloud × List CloudObs)
  | .token job posted =>
    match tokenAnswered P w.client posted with
    | .error exception => some (w.finish task (loginFails job (loginError exception)))
    | .ok call => some (w.post P task .login call next (.login job) (loginFails job))
  | .login job posted =>
    match answeredObject P w.client.gateway posted with
    | .error exception => some (w.finish task (loginFails job (loginError exception)))
    | .ok account =>
      match readSession account with
      | .error exception => some (w.finish task (loginFails job (.raised exception)))
      | .ok session => some (w.loggedIn P task job session next)
  | .homes account posted =>
    match answeredObjectList P w.client.gateway posted with
    | .error exception => some (w.finish task (listFails exception))
    | .ok homes => some (w.nextHome P task account next homes.zipIdx {})
  | .devices account posted rest listed =>
    match answeredObjectList P w.client.gateway posted with
    | .error exception => some (w.finish task (listFails exception))
    | .ok records =>
      some (w.nextHome P task account next rest (records.foldl (addDevice wideUpper) listed))
  | .closing _ | .ended => none

/-- A task runs up to its first await. -/
def start (w : Cloud) (job : CloudJob) (exchange : Exchange) : Cloud × List CloudObs :=
  let login :=
    w.post P w.tasks.length .token (tokenCall w.client) exchange (.token job) (loginFails job)
  match job, w.client.account with
  | .listDevices, some account => w.listWith P w.tasks.length account exchange
  | _, _ => login

/-- `async_close`, up to its await if there is one. -/
def close (w : Cloud) : Cloud × List CloudObs :=
  match w.ownsSession, w.session with
  | true, some session => (w.suspend w.tasks.length (.closing session), [.closes session])
  | _, _ => (w.suspend w.tasks.length .ended, [])

def step (w : Cloud) : CloudEvent → Option (Cloud × List CloudObs)
  | .start job exchange => some (w.start P job exchange)
  | .answer task next =>
    match w.tasks[task]? with
    | some coroutine => w.resume wideUpper P task next coroutine
    | none => none
  | .close => some w.close
  | .closed task =>
    match w.tasks[task]? with
    | some (.closing _) => some ({ w with session := none }.suspend task .ended, [])
    | _ => none
  | .cancel task =>
    match w.tasks[task]? with
    | none | some .ended => none
    | some _ => some (w.suspend task .ended, [])

/-! ## What suspending and posting do -/

section
variable {P} {w : Cloud} {task : Nat}

@[simp] theorem suspend_client (w : Cloud) (task : Nat) (coroutine : Coroutine) :
    (w.suspend task coroutine).client = w.client := by
  unfold suspend
  split <;> rfl

@[simp] theorem suspend_ownsSession (w : Cloud) (task : Nat) (coroutine : Coroutine) :
    (w.suspend task coroutine).ownsSession = w.ownsSession := by
  unfold suspend
  split <;> rfl

@[simp] theorem suspend_session (w : Cloud) (task : Nat) (coroutine : Coroutine) :
    (w.suspend task coroutine).session = w.session := by
  unfold suspend
  split <;> rfl

@[simp] theorem suspend_opened (w : Cloud) (task : Nat) (coroutine : Coroutine) :
    (w.suspend task coroutine).opened = w.opened := by
  unfold suspend
  split <;> rfl

theorem tasks_suspend {w w' : Cloud} (h : w.tasks = w'.tasks) (coroutine : Coroutine) :
    (w.suspend task coroutine).tasks = (w'.suspend task coroutine).tasks := by
  unfold suspend
  rw [h]
  split <;> rfl

theorem getElem?_suspend (htask : task ≤ w.tasks.length) (coroutine : Coroutine) (other : Nat) :
    (w.suspend task coroutine).tasks[other]? =
      if other = task then some coroutine else w.tasks[other]? := by
  unfold suspend
  split
  · rename_i hlt
    rw [List.getElem?_set]
    simp only [hlt, ↓reduceIte, eq_comm]
  · rename_i hge
    obtain rfl : task = w.tasks.length := by omega
    split
    · rename_i heq
      rw [heq, List.getElem?_concat_length]
    · rename_i hne
      rcases Nat.lt_or_ge other w.tasks.length with hlt | hge
      · exact List.getElem?_append_left hlt
      · rw [List.getElem?_eq_none hge, List.getElem?_eq_none]
        rw [List.length_append, List.length_singleton]
        omega

theorem length_suspend (htask : task ≤ w.tasks.length) (coroutine : Coroutine) :
    w.tasks.length ≤ (w.suspend task coroutine).tasks.length ∧
      task < (w.suspend task coroutine).tasks.length := by
  unfold suspend
  split
  · rename_i hlt
    rw [List.length_set]
    exact ⟨Nat.le_refl _, hlt⟩
  · rw [List.length_append, List.length_singleton]
    omega

theorem openSession_cases (w : Cloud) :
    w.openSession = (w, []) ∧ w.session ≠ none ∨
    w.session = none ∧ w.openSession =
      ({ w with session := some (.opened w.opened), opened := w.opened + 1 },
        [.opens (.opened w.opened)]) := by
  unfold openSession
  cases w.session with
  | some session => exact .inl ⟨rfl, by simp⟩
  | none => exact .inr ⟨rfl, rfl⟩

@[simp] theorem openSession_client (w : Cloud) : w.openSession.1.client = w.client := by
  rcases w.openSession_cases with ⟨h, -⟩ | ⟨-, h⟩ <;> rw [h]

@[simp] theorem openSession_tasks (w : Cloud) : w.openSession.1.tasks = w.tasks := by
  rcases w.openSession_cases with ⟨h, -⟩ | ⟨-, h⟩ <;> rw [h]

/-- A call is made, or fails before it is. -/
theorem post_cases (w : Cloud) (task : Nat) (place : CallPlace) (call : GatewayCall)
    (exchange : Exchange) (awaits : PostedCall → Coroutine) (fails : GatewayError → CloudOutcome) :
    (∃ exception, asyncCall P w.client.gateway exchange call = .error (.raised exception) ∧
      w.post P task place call exchange awaits fails = (w.suspend task .ended,
        [.called task place exchange, .ended task (fails (.raised exception))])) ∨
    ∃ posted, answered P w.client.gateway posted = asyncCall P w.client.gateway exchange call ∧
      posted.call = call ∧ w.post P task place call exchange awaits fails =
        (w.openSession.1.suspend task (awaits posted),
          .called task place exchange :: w.openSession.2) := by
  unfold post asyncCall
  cases callForm P w.client.gateway exchange call with
  | error exception => exact .inl ⟨_, rfl, rfl⟩
  | ok form => exact .inr ⟨⟨call, exchange, form⟩, rfl, rfl, rfl⟩

/-- A call that will be answered is made. -/
theorem post_answered {call : GatewayCall} {exchange : Exchange} {result : JsonValue}
    (h : asyncCall P w.client.gateway exchange call = .ok result) (task : Nat) (place : CallPlace)
    (awaits : PostedCall → Coroutine) (fails : GatewayError → CloudOutcome) :
    ∃ posted, answered P w.client.gateway posted = .ok result ∧
      w.post P task place call exchange awaits fails =
        (w.openSession.1.suspend task (awaits posted),
          .called task place exchange :: w.openSession.2) := by
  rcases w.post_cases task place call exchange awaits fails with
    ⟨exception, hcall, -⟩ | ⟨posted, hcall, -, hpost⟩
  · cases h.symm.trans hcall
  · exact ⟨posted, hcall.trans h, hpost⟩

end

/-! ## What an answer leads to -/

section
variable {P} {w : Cloud} {task : Nat} {next : Exchange} {posted : PostedCall}
  {members : List (String × JsonValue)} {items : List JsonValue}

theorem answeredObject_object {gateway : Gateway}
    (h : answered P gateway posted = .ok (.object members)) :
    answeredObject P gateway posted = .ok (.ofPairs members) := by
  unfold answeredObject
  rw [h]
  rfl

theorem answeredObjectList_array {gateway : Gateway}
    (h : answered P gateway posted = .ok (.array items)) :
    answeredObjectList P gateway posted = .ok (objects items) := by
  unfold answeredObjectList
  rw [h]
  rfl

theorem resume_token {job : CloudJob} {call : GatewayCall}
    (h : answered P w.client.gateway posted = .ok (.object members))
    (hcall : loginCall P w.client (.ofPairs members) = .ok call) :
    w.resume wideUpper P task next (.token job posted) =
      some (w.post P task .login call next (.login job) (loginFails job)) := by
  have htoken : tokenAnswered P w.client posted = .ok call :=
    Except.bind_eq_ok.2 ⟨_, answeredObject_object h, by rw [hcall, raising_ok]⟩
  simp only [resume, htoken]

theorem resume_login {job : CloudJob} {session : AccountSession}
    (h : answered P w.client.gateway posted = .ok (.object members))
    (hread : readSession (.ofPairs members) = .ok session) :
    w.resume wideUpper P task next (.login job posted) =
      some (w.loggedIn P task job session next) := by
  simp only [resume, answeredObject_object h, hread]

theorem resume_homes {account : AccountSession}
    (h : answered P w.client.gateway posted = .ok (.array items)) :
    w.resume wideUpper P task next (.homes account posted) =
      some (w.nextHome P task account next (objects items).zipIdx {}) := by
  simp only [resume, answeredObjectList_array h]

theorem resume_devices {account : AccountSession} {rest : List (JsonObject × Nat)}
    {listed : Listed} (h : answered P w.client.gateway posted = .ok (.array items)) :
    w.resume wideUpper P task next (.devices account posted rest listed) =
      some (w.nextHome P task account next rest
        ((objects items).foldl (addDevice wideUpper) listed)) := by
  simp only [resume, answeredObjectList_array h]

end

end Cloud

def cloud (wideUpper : Char → List Char) (P : CloudPrimitives) :
    Machine Cloud CloudEvent CloudObs where
  step := Cloud.step wideUpper P

namespace FakeGateway

/-- A call that times out. -/
def silentExchange : Exchange :=
  { recordedTokenExchange with post := fun _ => .error ⟨.timeoutError, "", none⟩ }

/-! ## The recorded listing, call by call -/

/-- A client with its HTTP session open. -/
def working (client : TuyaBleCloudClient) (tasks : List Coroutine) : Cloud where
  client := client
  ownsSession := true
  session := some (.opened 0)
  opened := 1
  tasks := tasks

/-- The homes after the first. -/
def homesAfter : List (JsonObject × Nat) := (objects homeList).zipIdx.tail

/-- What the records of the first home add. -/
def firstListed : Listed := (objects firstList).foldl (addDevice fun c => [c]) {}

variable {posted : PostedCall}

/-- The client logs in first; then come the homes, and the records of the first and the
third of them. -/
theorem step_start : ∃ posted,
    Cloud.answered listingPrimitives {} posted = .ok (.object loginToken) ∧
      (cloud (fun c => [c]) listingPrimitives).step (.new recordedClient false)
        (.start .listDevices recordedTokenExchange) =
      some (working recordedClient [.token .listDevices posted],
        [.called 0 .token recordedTokenExchange, .opens (.opened 0)]) := by
  obtain ⟨posted, hanswered, hpost⟩ := Cloud.post_answered
    (w := .new recordedClient false) asyncCall_token 0 .token (.token .listDevices)
    (Cloud.loginFails .listDevices)
  exact ⟨posted, hanswered, congrArg some hpost⟩

theorem step_token (h : Cloud.answered listingPrimitives {} posted = .ok (.object loginToken))
    (others : List Coroutine) : ∃ next,
    Cloud.answered listingPrimitives {} next = .ok (.object accountObject) ∧
      (cloud (fun c => [c]) listingPrimitives).step
        (working recordedClient (.token .listDevices posted :: others))
        (.answer 0 recordedLoginExchange) =
      some (working recordedClient (.login .listDevices next :: others),
        [.called 0 .login recordedLoginExchange]) := by
  let w := working recordedClient (.token .listDevices posted :: others)
  obtain ⟨call, hcall, haccount⟩ := loginCall_listing
  obtain ⟨next, hanswered, hpost⟩ := Cloud.post_answered (w := w) (asyncCall_login haccount) 0
    .login (.login .listDevices) (Cloud.loginFails .listDevices)
  exact ⟨next, hanswered, (Cloud.resume_token (w := w) (fun c => [c]) h hcall).trans (congrArg some hpost)⟩

theorem step_login (h : Cloud.answered listingPrimitives {} posted = .ok (.object accountObject))
    (others : List Coroutine) : ∃ next,
    Cloud.answered listingPrimitives {} next = .ok (.array homeList) ∧
      (cloud (fun c => [c]) listingPrimitives).step
        (working recordedClient (.login .listDevices posted :: others))
        (.answer 0 homeListExchange) =
      some (working listingClient (.homes accountSession next :: others),
        [.stored 0 accountSession, .called 0 .homes homeListExchange]) := by
  let w := working recordedClient (.login .listDevices posted :: others)
  obtain ⟨next, hanswered, hpost⟩ := Cloud.post_answered
    (w := working listingClient (.login .listDevices posted :: others)) asyncCall_homeList 0
    .homes (.homes accountSession) Cloud.listFails
  have hread : readSession (.ofPairs accountObject) = .ok accountSession := rfl
  refine ⟨next, hanswered, (Cloud.resume_login (w := w) (fun c => [c]) h hread).trans ?_⟩
  exact congrArg (fun result => some (result.1, _ :: result.2)) hpost

theorem step_homes (h : Cloud.answered listingPrimitives {} posted = .ok (.array homeList))
    (others : List Coroutine) : ∃ next,
    Cloud.answered listingPrimitives {} next = .ok (.array firstList) ∧
      (cloud (fun c => [c]) listingPrimitives).step
        (working listingClient (.homes accountSession posted :: others))
        (.answer 0 firstListExchange) =
      some (working listingClient (.devices accountSession next homesAfter {} :: others),
        [.called 0 (.devices 0) firstListExchange]) := by
  let w := working listingClient (.homes accountSession posted :: others)
  obtain ⟨next, hanswered, hpost⟩ := Cloud.post_answered (w := w)
    (asyncCall_firstList (toString 41441017)) 0 (.devices 0)
    (fun posted => .devices accountSession posted homesAfter {}) Cloud.listFails
  exact ⟨next, hanswered, (Cloud.resume_homes (w := w) (fun c => [c]) h).trans (congrArg some hpost)⟩

theorem step_firstList (h : Cloud.answered listingPrimitives {} posted = .ok (.array firstList))
    (others : List Coroutine) : ∃ next,
    Cloud.answered listingPrimitives {} next = .ok (.array secondList) ∧
      (cloud (fun c => [c]) listingPrimitives).step
        (working listingClient (.devices accountSession posted homesAfter {} :: others))
        (.answer 0 secondListExchange) =
      some (working listingClient (.devices accountSession next [] firstListed :: others),
        [.called 0 (.devices 2) secondListExchange]) := by
  let w := working listingClient (.devices accountSession posted homesAfter {} :: others)
  obtain ⟨next, hanswered, hpost⟩ := Cloud.post_answered (w := w)
    (asyncCall_secondList (toString 41441017)) 0 (.devices 2)
    (fun posted => .devices accountSession posted [] firstListed) Cloud.listFails
  exact ⟨next, hanswered, (Cloud.resume_devices (w := w) (fun c => [c]) h).trans (congrArg some hpost)⟩

theorem step_secondList (h : Cloud.answered listingPrimitives {} posted = .ok (.array secondList))
    (others : List Coroutine) (next : Exchange) :
    (cloud (fun c => [c]) listingPrimitives).step
        (working listingClient (.devices accountSession posted [] firstListed :: others))
        (.answer 0 next) =
      some (working listingClient (.ended :: others),
        [.ended 0 (.listed (.ok [livingRoomLight, soilSensor]))]) := by
  let w := working listingClient (.devices accountSession posted [] firstListed :: others)
  have hlisted : ((objects secondList).foldl (addDevice fun c => [c]) firstListed).devices =
      [livingRoomLight, soilSensor] := by decide +kernel
  refine (Cloud.resume_devices (w := w) (fun c => [c]) h).trans ?_
  rw [Cloud.nextHome, hlisted]
  rfl

end FakeGateway

end TuyaBle
