import TuyaBle.Cloud.Sessions
import TuyaBle.FakeGateway.Account

/-!
# A client and its gateway

A `TuyaBleCloudClient` that was given a `FakeGatewaySession`. The gateway sees a call when it
is posted, and the task that posted it goes on with the answer whenever the event loop says;
in between, other tasks make calls of their own.
-/

namespace TuyaBle

/-- What the outside gives one call: the client's fresh values, and the nonce of the answer. -/
structure Fresh where
  requestId : String
  nonce : Nonce
  time : Int
  serverNonce : Nonce

structure Served where
  cloud : Cloud
  server : FakeGatewaySession

inductive ServedEvent where
  | start (job : CloudJob) (fresh : Fresh)
  | answer (task : Nat) (next : Fresh)
  | close
  | closed (task : Nat)
  | cancel (task : Nat)

def Coroutine.posted? : Coroutine → Option PostedCall
  | .token _ posted | .login _ posted | .homes _ posted | .devices _ posted _ _ => some posted
  | .closing _ | .ended => none

namespace Served

def new (client : TuyaBleCloudClient) (server : FakeGatewaySession) : Served :=
  ⟨.new client true, server⟩

/-- The call that was posted. -/
def calledIn (result : Cloud × List CloudObs) : Option PostedCall :=
  result.2.findSome? fun
    | .called task _ _ => result.1.tasks[task]?.bind Coroutine.posted?
    | _ => none

/-- The session of the caller is closed. -/
def closesLent (os : List CloudObs) : Bool :=
  os.any fun
    | .closes .adopted => true
    | _ => false

variable (wideUpper : Char → List Char) (P : CloudPrimitives) (S : ServerPrimitives)

/-- The answer of the gateway as it is now. -/
def exchange (w : Served) (fresh : Fresh) : Exchange where
  requestId := fresh.requestId
  nonce := fresh.nonce
  time := fresh.time
  post request := (w.server.post P S fresh.serverNonce request.data).2

/-- The gateway handles what was posted. -/
def handle (w : Served) (fresh : Fresh) (result : Cloud × List CloudObs) :
    Served × List CloudObs :=
  let server :=
    match calledIn result with
    | some posted => (w.server.post P S fresh.serverNonce posted.form).1
    | none => w.server
  (⟨result.1, server⟩, result.2)

def step (w : Served) : ServedEvent → Option (Served × List CloudObs)
  | .start job fresh =>
    (w.cloud.step wideUpper P (.start job (w.exchange P S fresh))).map (w.handle P S fresh)
  | .answer task next =>
    (w.cloud.step wideUpper P (.answer task (w.exchange P S next))).map (w.handle P S next)
  | .close => (w.cloud.step wideUpper P .close).map fun result =>
    (⟨result.1, if closesLent result.2 then w.server.close else w.server⟩, result.2)
  | .closed task => (w.cloud.step wideUpper P (.closed task)).map fun result =>
    (⟨result.1, w.server⟩, result.2)
  | .cancel task => (w.cloud.step wideUpper P (.cancel task)).map fun result =>
    (⟨result.1, w.server⟩, result.2)

end Served

def served (wideUpper : Char → List Char) (P : CloudPrimitives) (S : ServerPrimitives) :
    Machine Served ServedEvent CloudObs where
  step := Served.step wideUpper P S

/-! ## What the gateway sees -/

def CallPlace.api : CallPlace → String
  | .token => loginTokenApi
  | .login => loginApi
  | .homes => homeListApi
  | .devices _ => deviceListApi

/-- The apis of the calls that were made, in their order. -/
def apisOf (os : List CloudObs) : List String :=
  os.filterMap fun
    | .called _ place _ => some place.api
    | _ => none

namespace Served

/-- The task was started on `job`. -/
def Began (tr : List (Served × ServedEvent)) (task : Nat) (job : CloudJob) : Prop :=
  ∃ w fresh, (w, .start job fresh) ∈ tr ∧ w.cloud.tasks.length = task

/-- The client signs with the key of the app, its account is one of the gateway's, and the
gateway knows the records of each home. -/
structure Configured (client : TuyaBleCloudClient) (homes : List JsonValue) : Prop where
  compositeKey : client.gateway.compositeKey = defaultCompositeKey
  account : ∀ account ∈ client.account, account.ecode = FakeGateway.accountSession.ecode
  homes : ∀ home ∈ homes, ∀ groupId, IsHome home groupId →
    groupId = toString FakeGatewaySession.homeId

/-- What a job of an account ends with. -/
def Fulfils (wideUpper : Char → List Char) (homes devices : List JsonValue) :
    CloudJob → CloudOutcome → Prop
  | .login, .loggedIn outcome => outcome = .ok FakeGateway.accountSession
  | .listDevices, .listed outcome => ∃ listed, outcome = .ok listed ∧
    LosslessUnion wideUpper homes (fun _ => devices) listed
  | _, _ => False

/-- The records that are still to be listed. -/
def restRecords (devices : List JsonValue) (rest : List (JsonObject × Nat)) : List JsonObject :=
  rest.flatMap fun home => if (groupIdText home.1).isSome then objects devices else []

/-- What is still to be listed makes the listing the whole one. -/
def Completes (wideUpper : Char → List Char) (homes devices : List JsonValue)
    (rest : List (JsonObject × Nat)) (listed : Listed) : Prop :=
  (∀ home ∈ rest, home.1 ∈ objects homes) ∧
    (restRecords devices rest).foldl (addDevice wideUpper) listed =
      (restRecords devices (objects homes).zipIdx).foldl (addDevice wideUpper) {}

variable (wideUpper : Char → List Char) (P : CloudPrimitives) (S : ServerPrimitives)

/-- The call is posted and answered with `result`; the gateway holds `received` then. -/
def Takes (w : Served) (gateway : Gateway) (fresh : Fresh) (call : GatewayCall)
    (result : JsonValue) (received : Option String) : Prop :=
  ∃ form, callForm P gateway (w.exchange P S fresh) call = .ok form ∧
    (w.server.post P S fresh.serverNonce form).1 =
      { w.server with calls := w.server.calls ++ [call.api], receivedPassword := received } ∧
    Cloud.answered P gateway ⟨call, w.exchange P S fresh, form⟩ = .ok result

variable {wideUpper P S} {client : TuyaBleCloudClient} {homes devices : List JsonValue}
  {w : Served} {gateway : Gateway} {fresh : Fresh}

/-- A call that `_result` has an answer to. -/
theorem takes_of_result (h : Understood P S client homes devices)
    (hcomposite : gateway.compositeKey = defaultCompositeKey) {call : GatewayCall}
    {result : JsonValue} {received : Option String} (hpost : P.RoundTrips call.post)
    (haccount : ∀ account ∈ call.account, account.ecode = FakeGateway.accountSession.ecode)
    (hextra : ∀ extra ∈ call.extraParams, extra.keys = ["gid"])
    (herrors : w.server.errors = [])
    (hknown : result ∈ [.object (FakeGatewaySession.tokenResult S),
      .object FakeGateway.accountObject, .array homes, .array devices])
    (hresult : ∀ form : Dict String String,
      (∀ extra ∈ call.extraParams, form.get? "gid" = extra.get? "gid") →
      ({ w.server with calls := w.server.calls ++ [call.api] } : FakeGatewaySession).result S
          call.api call.post form =
        ({ w.server with calls := w.server.calls ++ [call.api], receivedPassword := received },
          .ok result)) :
    Takes P S w gateway fresh call result received := by
  have hnamed : ∀ extra ∈ call.extraParams,
      ∀ key ∈ ["a", "postData", "requestId", "sid"], key ∉ extra.keys := by
    intro extra he key hk hm
    rw [hextra extra he] at hm
    obtain rfl := List.mem_singleton.1 hm
    exact absurd hk (by decide)
  obtain ⟨form, hform, hparams, hposted⟩ := FakeGatewaySession.post_callForm (S := S)
    (w.exchange P S fresh) fresh.serverNonce hcomposite hpost haccount hnamed herrors
  have hgid : ∀ extra ∈ call.extraParams, form.get? "gid" = extra.get? "gid" := by
    intro extra he
    have hkeys := hextra extra he
    exact hparams extra he (by rw [hkeys]; decide) "gid" (by rw [hkeys]; decide) (by decide)
  obtain ⟨raw, hraw, hanswers⟩ := h.answers hknown
    (callKey P gateway (w.exchange P S fresh) call) fresh.serverNonce
  have hpost := hposted result (hresult form hgid)
  rw [hraw] at hpost
  refine ⟨form, hform, by rw [hpost], ?_⟩
  have hnull : result ≠ .null := by
    rintro rfl
    simp at hknown
  have hcall := asyncCall_answer hform (congrArg Prod.snd hpost) hanswers hnull
  unfold asyncCall at hcall
  rw [hform] at hcall
  exact hcall

/-- What a gateway without errors offers. -/
structure Offers (homes devices : List JsonValue) (server : FakeGatewaySession) : Prop where
  homes : server.homes = .array homes
  devices : server.devices = .array devices
  errors : server.errors = []

theorem takes_token (h : Understood P S client homes devices)
    (hcomposite : gateway.compositeKey = defaultCompositeKey)
    (ho : Offers homes devices w.server) :
    Takes P S w gateway fresh (tokenCall client) (.object (FakeGatewaySession.tokenResult S))
      w.server.receivedPassword :=
  takes_of_result h hcomposite h.token nofun nofun ho.errors (by simp) fun _ _ => if_pos rfl

theorem takes_login (h : Understood P S client homes devices)
    (hcomposite : gateway.compositeKey = defaultCompositeKey)
    (ho : Offers homes devices w.server) {call : GatewayCall}
    (hcall : loginCall P client (.ofPairs (FakeGatewaySession.tokenResult S)) = .ok call) :
    call.api = loginApi ∧ Takes P S w gateway fresh call (.object FakeGateway.accountObject)
      (some (md5Hex P client.password)) := by
  obtain ⟨call', hcall', hapi, haccount, hextra, hpassword⟩ := h.loginCall_token
  obtain rfl := Except.ok.inj (hcall'.symm.trans hcall)
  refine ⟨hapi, takes_of_result h hcomposite (h.login _ hcall) ?_ ?_ ho.errors (by simp)
    fun form _ => ?_⟩
  · rw [haccount]
    exact nofun
  · rw [hextra]
    exact nofun
  · unfold FakeGatewaySession.result
    rw [hapi, if_neg (by decide), if_pos rfl, hpassword]

variable {account : AccountSession}

theorem takes_homes (h : Understood P S client homes devices)
    (hcomposite : gateway.compositeKey = defaultCompositeKey)
    (ho : Offers homes devices w.server)
    (haccount : account.ecode = FakeGateway.accountSession.ecode) :
    Takes P S w gateway fresh (homesCall account) (.array homes) w.server.receivedPassword := by
  refine takes_of_result h hcomposite h.empty ?_ nofun ho.errors (by simp) fun form _ => ?_
  · rintro _ ⟨⟩
    exact haccount
  · show (if homeListApi = loginTokenApi then _ else if homeListApi = loginApi then _
      else if homeListApi = homeListApi then _ else _) = _
    rw [if_neg (by decide), if_neg (by decide), if_pos rfl, ho.homes]

theorem takes_devices (h : Understood P S client homes devices)
    (hcomposite : gateway.compositeKey = defaultCompositeKey)
    (ho : Offers homes devices w.server)
    (haccount : account.ecode = FakeGateway.accountSession.ecode) :
    Takes P S w gateway fresh (devicesCall account (toString FakeGatewaySession.homeId))
      (.array devices) w.server.receivedPassword := by
  refine takes_of_result h hcomposite h.empty ?_ ?_ ho.errors (by simp) fun form hform => ?_
  · rintro _ ⟨⟩
    exact haccount
  · rintro _ ⟨⟩
    rfl
  · have hgid : item form "gid" = .ok (toString FakeGatewaySession.homeId) :=
      item_eq_ok.2 (hform _ rfl)
    show (if deviceListApi = loginTokenApi then _ else if deviceListApi = loginApi then _
      else if deviceListApi = homeListApi then _ else if deviceListApi = deviceListApi then _
      else _) = _
    rw [if_neg (by decide), if_neg (by decide), if_neg (by decide), if_pos rfl, hgid, ho.devices]
    rfl

/-! ## One turn of a task -/

variable (wideUpper P S client homes devices) in
/-- The coroutine is on its way to what its job ends with. -/
def OnTrack (job : CloudJob) (received : Option String) : Coroutine → Prop
  | .token job' posted => job' = job ∧ Cloud.answered P client.gateway posted =
      .ok (.object (FakeGatewaySession.tokenResult S))
  | .login job' posted => job' = job ∧ Cloud.answered P client.gateway posted =
      .ok (.object FakeGateway.accountObject) ∧ received = some (md5Hex P client.password)
  | .homes account posted => job = .listDevices ∧
    account.ecode = FakeGateway.accountSession.ecode ∧
    Cloud.answered P client.gateway posted = .ok (.array homes)
  | .devices account posted rest listed => job = .listDevices ∧
    account.ecode = FakeGateway.accountSession.ecode ∧
    Cloud.answered P client.gateway posted = .ok (.array devices) ∧
    Completes wideUpper homes devices rest ((objects devices).foldl (addDevice wideUpper) listed)
  | .closing _ => False
  | .ended => True

/-- The homes that have an id. -/
def asked (rest : List (JsonObject × Nat)) : Nat :=
  rest.countP fun home => (groupIdText home.1).isSome

/-- The answers a job waits for once it has an account. -/
def listingLeft (homes : List JsonValue) : CloudJob → Nat
  | .login => 0
  | .listDevices => 1 + asked (objects homes).zipIdx

/-- The answers a coroutine waits for. -/
def answersLeft (homes : List JsonValue) : Coroutine → Nat
  | .token job _ => 2 + listingLeft homes job
  | .login job _ => 1 + listingLeft homes job
  | .homes .. => listingLeft homes .listDevices
  | .devices _ _ rest _ => 1 + asked rest
  | .closing _ | .ended => 0

variable (wideUpper P S client homes devices) in
/-- What a task does from one await to the next, and the gateway with what it posts. The task
ends, or waits for fewer than `n` answers. -/
structure Turn (job : CloudJob) (n : Nat) (w : Served) (task : Nat) (fresh : Fresh)
    (result : Cloud × List CloudObs) : Prop where
  settings : result.1.client = { w.cloud.client with account := result.1.client.account }
  account : ∀ account ∈ result.1.client.account,
    account ∈ w.cloud.client.account ∨ account = FakeGateway.accountSession
  server : ∃ received coroutine,
    (received = w.server.receivedPassword ∨ received = some (md5Hex P client.password)) ∧
    (w.handle P S fresh result).1.server = { w.server with
      calls := w.server.calls ++ apisOf result.2, receivedPassword := received } ∧
    result.1.tasks = (w.cloud.suspend task coroutine).tasks ∧
    OnTrack wideUpper P S client homes devices job received coroutine ∧
    ((∃ outcome, .ended task outcome ∈ result.2) ∨
      coroutine ≠ .ended ∧ answersLeft homes coroutine < n) ∧
    ∀ task' session, .stored task' session ∈ result.2 →
      session = FakeGateway.accountSession ∧ received = some (md5Hex P client.password)
  ended : ∀ task' outcome, .ended task' outcome ∈ result.2 →
    task' = task ∧ Fulfils wideUpper homes devices job outcome

variable {job : CloudJob} {n task : Nat}

theorem Turn.of_finish {outcome : CloudOutcome} (h : Fulfils wideUpper homes devices job outcome) :
    Turn wideUpper P S client homes devices job n w task fresh (w.cloud.finish task outcome) where
  settings := by simp [Cloud.finish]
  account account ha := .inl (by simpa [Cloud.finish] using ha)
  server := by
    refine ⟨w.server.receivedPassword, .ended, .inl rfl, ?_, rfl, trivial,
      .inl ⟨outcome, List.mem_singleton_self _⟩, fun _ _ hm => ?_⟩
    · show w.server = { w.server with calls := w.server.calls ++ [] }
      rw [List.append_nil]
    · cases List.mem_singleton.1 hm
  ended task' outcome' hm := by
    cases List.mem_singleton.1 hm
    exact ⟨rfl, h⟩

theorem Turn.of_post {place : CallPlace} {call : GatewayCall} {result : JsonValue}
    {received : Option String} {awaits : PostedCall → Coroutine}
    {fails : GatewayError → CloudOutcome} (htask : task ≤ w.cloud.tasks.length)
    (hlent : w.cloud.session = some .adopted)
    (htakes : Takes P S w w.cloud.client.gateway fresh call result received)
    (hapi : call.api = place.api)
    (hreceived : received = w.server.receivedPassword ∨
      received = some (md5Hex P client.password))
    (hposted : ∀ posted, (awaits posted).posted? = some posted)
    (hleft : ∀ posted, answersLeft homes (awaits posted) < n)
    (htrack : ∀ posted, Cloud.answered P w.cloud.client.gateway posted = .ok result →
      OnTrack wideUpper P S client homes devices job received (awaits posted)) :
    Turn wideUpper P S client homes devices job n w task fresh
      (w.cloud.post P task place call (w.exchange P S fresh) awaits fails) := by
  obtain ⟨form, hform, hserver, hanswered⟩ := htakes
  have hpost : w.cloud.post P task place call (w.exchange P S fresh) awaits fails =
      (w.cloud.suspend task (awaits ⟨call, w.exchange P S fresh, form⟩),
        [.called task place (w.exchange P S fresh)]) := by
    unfold Cloud.post Cloud.openSession
    rw [hform, hlent]
  have hcalled : calledIn (w.cloud.suspend task (awaits ⟨call, w.exchange P S fresh, form⟩),
      [.called task place (w.exchange P S fresh)]) = some ⟨call, w.exchange P S fresh, form⟩ := by
    simp only [calledIn, List.findSome?_cons, Cloud.getElem?_suspend htask, ↓reduceIte,
      Option.bind_some, hposted]
  have hawaits : awaits ⟨call, w.exchange P S fresh, form⟩ ≠ .ended := by
    intro he
    have hsome := hposted ⟨call, w.exchange P S fresh, form⟩
    rw [he] at hsome
    cases hsome
  rw [hpost]
  refine ⟨by simp, fun account ha => .inl (by simpa using ha), ⟨received, _, hreceived, ?_, rfl,
    htrack _ hanswered, .inr ⟨hawaits, hleft _⟩, ?_⟩, ?_⟩
  · simp only [handle, hcalled, hserver, hapi]
    rfl
  · intro task' session hm
    cases List.mem_singleton.1 hm
  · intro task' outcome hm
    cases List.mem_singleton.1 hm

/-- The client holds the account of the gateway. -/
def loggedIn (w : Served) : Served := { w with cloud := { w.cloud with client :=
  { w.cloud.client with account := some FakeGateway.accountSession } } }

/-- A login stores the account before the task goes on. -/
theorem Turn.after_store (hreceived : w.server.receivedPassword = some (md5Hex P client.password))
    {result : Cloud × List CloudObs}
    (ht : Turn wideUpper P S client homes devices job n w.loggedIn task fresh result) :
    Turn wideUpper P S client homes devices job n w task fresh
      (result.1, .stored task FakeGateway.accountSession :: result.2) := by
  obtain ⟨received, coroutine, hlater, hserver, htasks, htrack, hleft, hstored⟩ := ht.server
  have hlater : received = some (md5Hex P client.password) :=
    hlater.elim (fun h => h.trans hreceived) id
  refine ⟨ht.settings, fun account ha => ?_, ⟨received, coroutine, .inr hlater, hserver,
    htasks.trans (Cloud.tasks_suspend (by rfl) _), htrack,
    hleft.imp_left fun ⟨outcome, hm⟩ => ⟨outcome, List.mem_cons_of_mem _ hm⟩,
    fun task' session hm => ?_⟩, fun task' outcome hm => ?_⟩
  · rcases ht.account account ha with ha | ha
    · exact .inr (Option.some.inj ha).symm
    · exact .inr ha
  · rcases List.mem_cons.1 hm with he | hm
    · cases he
      exact ⟨rfl, hlater⟩
    · exact hstored task' session hm
  · rcases List.mem_cons.1 hm with he | hm
    · cases he
    · exact ht.ended task' outcome hm

theorem restRecords_cons (home : JsonObject × Nat) (rest : List (JsonObject × Nat)) :
    restRecords devices (home :: rest) =
      (if (groupIdText home.1).isSome then objects devices else []) ++ restRecords devices rest :=
  List.flatMap_cons

section
variable (h : Understood P S client homes devices) (hconfigured : Configured client homes)
  (hsettings : w.cloud.client = { client with account := w.cloud.client.account })
  (ho : Offers homes devices w.server) (hlent : w.cloud.session = some .adopted)
  (htask : task ≤ w.cloud.tasks.length)

include hsettings in
theorem gateway_eq : w.cloud.client.gateway = client.gateway := by rw [hsettings]

include h hconfigured hsettings ho hlent htask in
/-- A listing asks for the homes. -/
theorem Turn.of_listWith {account : AccountSession}
    (haccount : account.ecode = FakeGateway.accountSession.ecode)
    (hn : listingLeft homes .listDevices < n) :
    Turn wideUpper P S client homes devices .listDevices n w task fresh
      (w.cloud.listWith P task account (w.exchange P S fresh)) := by
  have hgateway := gateway_eq hsettings
  refine .of_post htask hlent (takes_homes h ?_ ho haccount) rfl (.inl rfl) (fun _ => rfl)
    (fun _ => hn) ?_
  · rw [hgateway]
    exact hconfigured.compositeKey
  · intro posted hanswered
    exact ⟨rfl, haccount, hgateway ▸ hanswered⟩

include h hconfigured hsettings ho hlent htask in
/-- The loop over the homes goes on, or ends with the whole listing. -/
theorem Turn.of_nextHome {account : AccountSession}
    (haccount : account.ecode = FakeGateway.accountSession.ecode)
    {rest : List (JsonObject × Nat)} {listed : Listed}
    (hc : Completes wideUpper homes devices rest listed) (hn : asked rest < n) :
    Turn wideUpper P S client homes devices .listDevices n w task fresh
      (w.cloud.nextHome P task account (w.exchange P S fresh) rest listed) := by
  have hgateway := gateway_eq hsettings
  induction rest with
  | nil =>
    have hcollects := collects_entriesOf wideUpper homes fun _ => devices
    rw [map_snd_entriesOf] at hcollects
    replace hcollects := hc.2 ▸ hcollects
    exact .of_finish ⟨_, rfl, hcollects.losslessUnion⟩
  | cons home rest ih =>
    obtain ⟨home, position⟩ := home
    have hrest : ∀ home ∈ rest, home.1 ∈ objects homes :=
      fun home hm => hc.1 home (List.mem_cons_of_mem _ hm)
    have hlist := hc.2
    rw [Cloud.nextHome]
    rw [restRecords_cons] at hlist
    cases hgroup : groupIdText home with
    | none =>
      rw [hgroup] at hlist
      refine ih ⟨hrest, hlist⟩ (Nat.lt_of_le_of_lt ?_ hn)
      exact (List.sublist_cons_self _ rest).countP_le
    | some groupId =>
      obtain ⟨item, hitem, hhome⟩ := isHome_of_mem_objects (hc.1 _ (List.mem_cons_self ..)) hgroup
      obtain rfl := hconfigured.homes item hitem groupId hhome
      rw [hgroup, Option.isSome_some, if_pos rfl, List.foldl_append] at hlist
      have hleft : 1 + asked rest < n := by
        rw [asked, List.countP_cons_of_pos (by rw [hgroup]; rfl), Nat.add_comm] at hn
        exact hn
      refine .of_post htask hlent (takes_devices h ?_ ho haccount) rfl (.inl rfl)
        (fun _ => rfl) (fun _ => hleft) ?_
      · rw [hgateway]
        exact hconfigured.compositeKey
      · intro posted hanswered
        exact ⟨rfl, haccount, hgateway ▸ hanswered, hrest, hlist⟩

include h hconfigured hsettings ho hlent htask in
/-- A login answered with the account is stored, and a listing goes on with it. -/
theorem Turn.of_loggedIn
    (hreceived : w.server.receivedPassword = some (md5Hex P client.password))
    (hn : listingLeft homes job < n) :
    Turn wideUpper P S client homes devices job n w task fresh
      (w.cloud.loggedIn P task job FakeGateway.accountSession (w.exchange P S fresh)) := by
  have hstored : w.loggedIn.cloud.client =
      { client with account := w.loggedIn.cloud.client.account } := by
    unfold loggedIn
    rw [hsettings]
  cases job with
  | login =>
    have hfinish : Turn wideUpper P S client homes devices .login n w.loggedIn task fresh
        (w.loggedIn.cloud.finish task (.loggedIn (.ok FakeGateway.accountSession))) :=
      .of_finish rfl
    exact hfinish.after_store hreceived
  | listDevices =>
    have hlist : Turn wideUpper P S client homes devices .listDevices n w.loggedIn task fresh _ :=
      .of_listWith h hconfigured hstored ho hlent htask rfl hn
    exact hlist.after_store hreceived

include h hconfigured hsettings ho hlent htask in
/-- A task goes on with the answer to its call. -/
theorem Turn.of_resume {coroutine : Coroutine} {result : Cloud × List CloudObs}
    (htrack : OnTrack wideUpper P S client homes devices job w.server.receivedPassword coroutine)
    (hs : w.cloud.resume wideUpper P task (w.exchange P S fresh) coroutine = some result) :
    Turn wideUpper P S client homes devices job (answersLeft homes coroutine) w task fresh
      result := by
  have hgateway := gateway_eq hsettings
  cases coroutine with
  | token job' posted =>
    obtain ⟨rfl, hanswered⟩ := htrack
    obtain ⟨call, hcall, -⟩ := h.loginCall_token
    have hlogin : loginCall P w.cloud.client (.ofPairs (FakeGatewaySession.tokenResult S)) =
        .ok call := by
      rw [hsettings]
      exact hcall
    rw [← hgateway] at hanswered
    rw [Cloud.resume_token wideUpper hanswered hlogin] at hs
    obtain rfl := Option.some.inj hs
    obtain ⟨hapi, htakes⟩ : call.api = loginApi ∧ Takes P S w w.cloud.client.gateway fresh call
        (.object FakeGateway.accountObject) (some (md5Hex P client.password)) :=
      takes_login h (hgateway ▸ hconfigured.compositeKey) ho hcall
    refine .of_post htask hlent htakes hapi (.inr rfl) (fun _ => rfl)
      (fun _ => Nat.add_lt_add_right (by decide) _) ?_
    intro posted hanswered
    exact ⟨rfl, hgateway ▸ hanswered, rfl⟩
  | login job' posted =>
    obtain ⟨rfl, hanswered, hreceived⟩ := htrack
    rw [← hgateway] at hanswered
    have hread : readSession (.ofPairs FakeGateway.accountObject) =
        .ok FakeGateway.accountSession := rfl
    rw [Cloud.resume_login wideUpper hanswered hread] at hs
    obtain rfl := Option.some.inj hs
    exact .of_loggedIn h hconfigured hsettings ho hlent htask hreceived
      (Nat.lt_add_of_pos_left Nat.one_pos)
  | homes account posted =>
    obtain ⟨rfl, haccount, hanswered⟩ := htrack
    rw [← hgateway] at hanswered
    rw [Cloud.resume_homes wideUpper hanswered] at hs
    obtain rfl := Option.some.inj hs
    refine .of_nextHome h hconfigured hsettings ho hlent htask haccount ⟨fun home hm => ?_, rfl⟩
      (Nat.lt_add_of_pos_left Nat.one_pos)
    exact List.mem_of_getElem? (List.mem_zipIdx_iff_getElem?.1 hm)
  | devices account posted rest listed =>
    obtain ⟨rfl, haccount, hanswered, hc⟩ := htrack
    rw [← hgateway] at hanswered
    rw [Cloud.resume_devices wideUpper hanswered] at hs
    obtain rfl := Option.some.inj hs
    exact .of_nextHome h hconfigured hsettings ho hlent htask haccount hc
      (Nat.lt_add_of_pos_left Nat.one_pos)
  | closing session => cases hs
  | ended => cases hs

include h hconfigured hsettings ho hlent in
/-- A task runs up to its first await. -/
theorem Turn.of_start
    (haccount : ∀ account ∈ w.cloud.client.account,
      account.ecode = FakeGateway.accountSession.ecode) :
    Turn wideUpper P S client homes devices job (3 + listingLeft homes job) w
      w.cloud.tasks.length fresh (w.cloud.start P job (w.exchange P S fresh)) := by
  have hgateway := gateway_eq hsettings
  unfold Cloud.start
  split
  · rename_i account hheld
    exact .of_listWith h hconfigured hsettings ho hlent (Nat.le_refl _) (haccount account hheld)
      (Nat.lt_add_of_pos_left (by decide))
  · have hcall : tokenCall w.cloud.client = tokenCall client := by
      rw [hsettings]
      rfl
    rw [hcall]
    refine .of_post (Nat.le_refl _) hlent (takes_token h ?_ ho) rfl (.inl rfl) (fun _ => rfl)
      (fun _ => Nat.add_lt_add_right (by decide) _) ?_
    · rw [hgateway]
      exact hconfigured.compositeKey
    · intro posted hanswered
      exact ⟨rfl, hgateway ▸ hanswered⟩

end

/-! ## All the tasks -/

variable (wideUpper P S client homes devices) in
structure Inv (tr : List (Served × ServedEvent)) (os : List CloudObs) (w : Served) : Prop where
  settings : w.cloud.client = { client with account := w.cloud.client.account }
  account : ∀ account ∈ w.cloud.client.account,
    account.ecode = FakeGateway.accountSession.ecode
  owns : w.cloud.ownsSession = false
  lent : w.cloud.session = some .adopted
  offers : Offers homes devices w.server
  calls : w.server.calls = apisOf os
  opened : w.server.closed = false
  received : ∀ password ∈ w.server.receivedPassword, password = md5Hex P client.password
  tasks : ∀ task coroutine, w.cloud.tasks[task]? = some coroutine → coroutine = .ended ∨
    ∃ job, Began tr task job ∧
      OnTrack wideUpper P S client homes devices job w.server.receivedPassword coroutine
  ended : ∀ task outcome, .ended task outcome ∈ os →
    ∃ job, Began tr task job ∧ Fulfils wideUpper homes devices job outcome
  stored : ∀ task session, .stored task session ∈ os →
    session = FakeGateway.accountSession ∧
      w.server.receivedPassword = some (md5Hex P client.password)

theorem OnTrack.later {received received' : Option String} {coroutine : Coroutine}
    (h : OnTrack wideUpper P S client homes devices job received coroutine)
    (hlater : received' = received ∨ received' = some (md5Hex P client.password)) :
    OnTrack wideUpper P S client homes devices job received' coroutine := by
  cases coroutine with
  | login job' posted => exact ⟨h.1, h.2.1, hlater.elim (fun he => he.trans h.2.2) id⟩
  | _ => exact h

section
variable {tr : List (Served × ServedEvent)} {os : List CloudObs} {e : ServedEvent}

theorem Began.mono {tr' : List (Served × ServedEvent)} (h : Began tr task job) :
    Began (tr ++ tr') task job := by
  obtain ⟨w, fresh, hm, hlength⟩ := h
  exact ⟨w, fresh, List.mem_append_left _ hm, hlength⟩

theorem apisOf_append {os' : List CloudObs} : apisOf (os ++ os') = apisOf os ++ apisOf os' :=
  List.filterMap_append ..

theorem Inv.of_turn (h : Inv wideUpper P S client homes devices tr os w)
    (htask : task ≤ w.cloud.tasks.length) {result : Cloud × List CloudObs}
    (hbegan : Began (tr ++ [(w, e)]) task job) (huses : Cloud.Uses w.cloud task result)
    (ht : Turn wideUpper P S client homes devices job n w task fresh result) :
    Inv wideUpper P S client homes devices (tr ++ [(w, e)]) (os ++ result.2)
      (w.handle P S fresh result).1 := by
  obtain ⟨received, coroutine, hlater, hserver, htasks, htrack, -, hstored⟩ := ht.server
  have hcloud : (w.handle P S fresh result).1.cloud = result.1 := rfl
  have hlent : result.1.session = some .adopted := by
    rcases huses.session with ⟨-, hsession, -⟩ | ⟨hnone, -⟩
    · exact hsession.trans h.lent
    · rw [h.lent] at hnone
      cases hnone
  refine ⟨?_, ?_, huses.owns.trans h.owns, hlent, ?_, ?_, ?_, ?_, ?_, ?_, ?_⟩
  · rw [hcloud, ht.settings, h.settings]
  · intro account ha
    rcases ht.account account ha with ha | rfl
    · exact h.account account ha
    · rfl
  · rw [hserver]
    exact ⟨h.offers.homes, h.offers.devices, h.offers.errors⟩
  · rw [hserver, apisOf_append, ← h.calls]
  · rw [hserver]
    exact h.opened
  · intro password hp
    rw [hserver] at hp
    rcases hlater with rfl | rfl
    · exact h.received password hp
    · exact (Option.some.inj hp).symm
  · intro other coroutine' hc
    rw [hcloud, htasks, Cloud.getElem?_suspend htask] at hc
    rw [hserver]
    split at hc
    · rename_i heq
      obtain rfl := Option.some.inj hc
      exact .inr ⟨job, heq ▸ hbegan, htrack⟩
    · exact (h.tasks other coroutine' hc).imp_right fun ⟨job', hbegan', htrack'⟩ =>
        ⟨job', hbegan'.mono, htrack'.later hlater⟩
  · intro other outcome hm
    rcases List.mem_append.1 hm with hm | hm
    · obtain ⟨job', hbegan', hfulfils⟩ := h.ended other outcome hm
      exact ⟨job', hbegan'.mono, hfulfils⟩
    · obtain ⟨rfl, hfulfils⟩ := ht.ended other outcome hm
      exact ⟨job, hbegan, hfulfils⟩
  · intro other session hm
    rw [hserver]
    rcases List.mem_append.1 hm with hm | hm
    · obtain ⟨hsession, hreceived⟩ := h.stored other session hm
      exact ⟨hsession, hlater.elim (fun he => he.trans hreceived) id⟩
    · exact hstored other session hm

/-- A task ends without another word. -/
theorem Inv.of_aside (h : Inv wideUpper P S client homes devices tr os w)
    (htask : task ≤ w.cloud.tasks.length) :
    Inv wideUpper P S client homes devices (tr ++ [(w, e)]) (os ++ [])
      ⟨w.cloud.suspend task .ended, w.server⟩ := by
  rw [List.append_nil]
  refine ⟨?_, ?_, ?_, ?_, h.offers, h.calls, h.opened, h.received, ?_, ?_, h.stored⟩
  · rw [Cloud.suspend_client, h.settings]
  · rw [Cloud.suspend_client]
    exact h.account
  · rw [Cloud.suspend_ownsSession, h.owns]
  · rw [Cloud.suspend_session, h.lent]
  · intro other coroutine hc
    rw [Cloud.getElem?_suspend htask] at hc
    split at hc
    · exact .inl (Option.some.inj hc).symm
    · exact (h.tasks other coroutine hc).imp_right fun ⟨job, hbegan, htrack⟩ =>
        ⟨job, hbegan.mono, htrack⟩
  · intro other outcome hm
    obtain ⟨job, hbegan, hfulfils⟩ := h.ended other outcome hm
    exact ⟨job, hbegan.mono, hfulfils⟩

theorem Inv.step (hu : Understood P S client homes devices) (hconfigured : Configured client homes)
    (h : Inv wideUpper P S client homes devices tr os w) {w' : Served} {os' : List CloudObs}
    (hs : w.step wideUpper P S e = some (w', os')) :
    Inv wideUpper P S client homes devices (tr ++ [(w, e)]) (os ++ os') w' := by
  cases e with
  | start job fresh =>
    have hs : w.handle P S fresh (w.cloud.start P job (w.exchange P S fresh)) = (w', os') :=
      Option.some.inj hs
    have hbegan : Began (tr ++ [(w, .start job fresh)]) w.cloud.tasks.length job :=
      ⟨w, fresh, List.mem_append_right _ (List.mem_singleton_self _), rfl⟩
    have hturn : Turn wideUpper P S client homes devices job _ w _ fresh _ :=
      .of_start hu hconfigured h.settings h.offers h.lent h.account
    have hinv := h.of_turn (Nat.le_refl _) hbegan .of_start hturn
    obtain ⟨rfl, rfl⟩ := Prod.mk.inj hs
    exact hinv
  | answer task next =>
    obtain ⟨result, hresult, hs⟩ := Option.map_eq_some_iff.1 hs
    simp only [Cloud.step] at hresult
    split at hresult
    · rename_i coroutine htask
      have hlt := (List.getElem?_eq_some_iff.1 htask).1
      rcases h.tasks task coroutine htask with rfl | ⟨job, hbegan, htrack⟩
      · cases hresult
      · have hturn : Turn wideUpper P S client homes devices job _ w task next result :=
          .of_resume hu hconfigured h.settings h.offers h.lent hlt.le htrack hresult
        have hinv := h.of_turn (e := .answer task next) hlt.le hbegan.mono (.of_resume hresult)
          hturn
        obtain ⟨rfl, rfl⟩ := Prod.mk.inj hs
        exact hinv
    · cases hresult
  | close =>
    have hclose : w.cloud.close = (w.cloud.suspend w.cloud.tasks.length .ended, []) := by
      unfold Cloud.close
      rw [h.owns, h.lent]
    simp only [Served.step, Cloud.step, hclose, Option.map_some, Option.some.injEq] at hs
    obtain ⟨rfl, rfl⟩ := Prod.mk.inj hs
    exact h.of_aside (Nat.le_refl _)
  | closed task =>
    obtain ⟨result, hresult, -⟩ := Option.map_eq_some_iff.1 hs
    simp only [Cloud.step] at hresult
    split at hresult
    · rename_i session htask
      rcases h.tasks task _ htask with he | ⟨job, -, htrack⟩
      · cases he
      · exact htrack.elim
    · cases hresult
  | cancel task =>
    obtain ⟨result, hresult, hs⟩ := Option.map_eq_some_iff.1 hs
    simp only [Cloud.step] at hresult
    split at hresult
    · cases hresult
    · cases hresult
    · rename_i coroutine _ htask
      obtain rfl := Option.some.inj hresult
      obtain ⟨rfl, rfl⟩ := Prod.mk.inj hs
      exact h.of_aside (List.getElem?_eq_some_iff.1 htask).1.le

/-- A task under way goes on with any answer to its call. -/
theorem resume_of_onTrack (c : Cloud) (task : Nat) (next : Exchange) {coroutine : Coroutine}
    {received : Option String}
    (htrack : OnTrack wideUpper P S client homes devices job received coroutine)
    (hne : coroutine ≠ .ended) :
    0 < answersLeft homes coroutine ∧
      ∃ result, c.resume wideUpper P task next coroutine = some result := by
  cases coroutine with
  | token job' posted =>
    refine ⟨Nat.add_pos_left Nat.two_pos _, ?_⟩
    simp only [Cloud.resume]
    split <;> exact ⟨_, rfl⟩
  | login job' posted =>
    refine ⟨Nat.add_pos_left Nat.one_pos _, ?_⟩
    simp only [Cloud.resume]
    split
    · exact ⟨_, rfl⟩
    · split <;> exact ⟨_, rfl⟩
  | homes account posted =>
    refine ⟨Nat.add_pos_left Nat.one_pos _, ?_⟩
    simp only [Cloud.resume]
    split <;> exact ⟨_, rfl⟩
  | devices account posted rest listed =>
    refine ⟨Nat.add_pos_left Nat.one_pos _, ?_⟩
    simp only [Cloud.resume]
    split <;> exact ⟨_, rfl⟩
  | closing session => exact htrack.elim
  | ended => exact absurd rfl hne

/-- Answers alone end a task, whatever else is under way. -/
theorem Inv.finishes (hu : Understood P S client homes devices)
    (hconfigured : Configured client homes)
    (h : Inv wideUpper P S client homes devices tr os w) {coroutine : Coroutine}
    (htask : w.cloud.tasks[task]? = some coroutine) (hne : coroutine ≠ .ended)
    (htrack : OnTrack wideUpper P S client homes devices job w.server.receivedPassword coroutine)
    (fresh : Nat → Fresh) :
    ∃ count tr' os' w' outcome, count ≤ answersLeft homes coroutine ∧
      (served wideUpper P S).Runs Machine.Free w tr' os' w' ∧
      tr'.map Prod.snd = (List.range count).map (fun i => .answer task (fresh i)) ∧
      .ended task outcome ∈ os' ∧ Fulfils wideUpper homes devices job outcome := by
  induction hleft : answersLeft homes coroutine using Nat.strongRecOn
    generalizing tr os w coroutine fresh with
  | ind left ih =>
    subst hleft
    obtain ⟨hpos, result, hresult⟩ :=
      resume_of_onTrack w.cloud task (w.exchange P S (fresh 0)) htrack hne
    have hlt := (List.getElem?_eq_some_iff.1 htask).1
    have hturn : Turn wideUpper P S client homes devices job _ w task (fresh 0) result :=
      .of_resume hu hconfigured h.settings h.offers h.lent hlt.le htrack hresult
    have hs : (served wideUpper P S).step w (.answer task (fresh 0)) =
        some (w.handle P S (fresh 0) result) := by
      have hcloud : w.cloud.step wideUpper P (.answer task (w.exchange P S (fresh 0))) =
          some result := by
        simp only [Cloud.step, htask, hresult]
      exact Option.map_eq_some_iff.2 ⟨result, hcloud, rfl⟩
    have hone : (served wideUpper P S).Runs Machine.Free w
        ([] ++ [(w, .answer task (fresh 0))]) ([] ++ result.2) (w.handle P S (fresh 0) result).1 :=
      .snoc .refl trivial hs
    obtain ⟨received, coroutine', -, hserver, htasks, htrack', hprogress, -⟩ := hturn.server
    rcases hprogress with ⟨outcome, hended⟩ | ⟨hne', hless⟩
    · exact ⟨1, _, _, _, outcome, hpos, hone, rfl, hended, (hturn.ended task outcome hended).2⟩
    · have hinv : Inv wideUpper P S client homes devices (tr ++ [(w, .answer task (fresh 0))])
          (os ++ result.2) (w.handle P S (fresh 0) result).1 := h.step hu hconfigured hs
      have htask' : (w.handle P S (fresh 0) result).1.cloud.tasks[task]? = some coroutine' := by
        show result.1.tasks[task]? = _
        rw [htasks, Cloud.getElem?_suspend hlt.le, if_pos rfl]
      have hreceived : (w.handle P S (fresh 0) result).1.server.receivedPassword = received := by
        rw [hserver]
      obtain ⟨count, tr', os', w', outcome, hcount, hrun, htr, hended⟩ :=
        ih _ hless hinv htask' hne' (hreceived ▸ htrack') (fun i => fresh (i + 1)) rfl
      refine ⟨count + 1, _, _, w', outcome, Nat.lt_of_le_of_lt hcount hless, hone.trans hrun, ?_,
        List.mem_append_right _ hended.1, hended.2⟩
      rw [List.map_append, htr, List.range_succ_eq_map, List.map_cons, List.map_map]
      rfl

theorem inv_new (hconfigured : Configured client homes) :
    Inv wideUpper P S client homes devices [] []
      (new client (.new (some (.array homes)) (some (.array devices)))) where
  settings := rfl
  account := hconfigured.account
  owns := rfl
  lent := rfl
  offers := ⟨rfl, rfl, rfl⟩
  calls := rfl
  opened := rfl
  received := nofun
  tasks _ _ h := by cases h
  ended _ _ h := by cases h
  stored _ _ h := by cases h

theorem inv_of_runs (hu : Understood P S client homes devices)
    (hconfigured : Configured client homes)
    (h : (served wideUpper P S).Runs Machine.Free
      (new client (.new (some (.array homes)) (some (.array devices)))) tr os w) :
    Inv wideUpper P S client homes devices tr os w :=
  h.invariant (I := fun tr os w => Inv wideUpper P S client homes devices tr os w)
    (inv_new hconfigured) fun _ _ _ _ _ _ hi _ hs => hi.step hu hconfigured hs

end

end Served

namespace FakeGateway

def tokenFresh : Fresh := ⟨tokenRequestId, nonceFrom 48, 1700000000, nonceFrom 64⟩

/-- What the calls after the first are made with. -/
def accountFresh : Nat → Fresh
  | 0 => ⟨loginRequestId, nonceFrom 96, 1700000000, nonceFrom 112⟩
  | 1 => ⟨homeListRequestId, nonceFrom 128, 1700000000, nonceFrom 208⟩
  | _ => ⟨deviceListRequestId, nonceFrom 0, 1700000000, nonceFrom 224⟩

def servedAccount : Served :=
  .new recordedClient (.new (some (.array accountHomes)) (some (.array accountDevices)))

theorem configured_account : Served.Configured recordedClient accountHomes where
  compositeKey := rfl
  account := nofun
  homes home hm groupId hhome := by
    obtain rfl : home = .object [("gid", .int FakeGatewaySession.homeId)] :=
      List.mem_singleton.1 hm
    obtain ⟨raw, hraw, hgroup⟩ := isHome_iff.1 hhome
    obtain rfl := Option.some.inj hraw
    exact (Option.some.inj hgroup).symm

/-- A listing has been started. -/
theorem listing_started : ∃ tr os w coroutine,
    (served (fun c => [c]) accountPrimitives serverPrimitives).Runs Machine.Free servedAccount
      tr os w ∧ w.cloud.tasks[0]? = some coroutine ∧ coroutine ≠ .ended := by
  have hx : ((served (fun c => [c]) accountPrimitives serverPrimitives).execWhere Machine.Free
      [] [] servedAccount [.start .listDevices tokenFresh]).map (fun r =>
        (r.2.2.cloud.tasks[0]?.bind Coroutine.posted?).isSome) = some true := by decide +kernel
  obtain ⟨⟨tr, os, w⟩, he, hposted⟩ := Option.map_eq_some_iff.1 hx
  obtain ⟨posted, hposted⟩ := Option.isSome_iff_exists.1 hposted
  obtain ⟨coroutine, htask, hposted⟩ := Option.bind_eq_some_iff.1 hposted
  refine ⟨tr, os, w, coroutine, Machine.runs_of_execWhere he, htask, ?_⟩
  rintro rfl
  cases hposted

end FakeGateway

namespace Served

/-- **A client and its gateway get along.** In every run, whatever the order in which the tasks
of a client go on: every task that ends without being cancelled ends with what its job is
for, a login with the session of the account, a listing with the lossless union of the homes.
The gateway sees each call once, in the order they are made; it gets no password but the digest
of the client's, and has it before a login is stored; and its session is left open. -/
theorem tasks_served (hu : Understood P S client homes devices)
    (hconfigured : Configured client homes) {tr : List (Served × ServedEvent)} {os : List CloudObs}
    (h : (served wideUpper P S).Runs Machine.Free
      (new client (.new (some (.array homes)) (some (.array devices)))) tr os w) :
    (∀ task outcome, .ended task outcome ∈ os →
      ∃ job, Began tr task job ∧ Fulfils wideUpper homes devices job outcome) ∧
    w.server.calls = apisOf os ∧
    (∀ password ∈ w.server.receivedPassword, password = md5Hex P client.password) ∧
    (∀ task session, .stored task session ∈ os → session = FakeGateway.accountSession ∧
      w.server.receivedPassword = some (md5Hex P client.password)) ∧
    w.server.closed = false := by
  have hinv := inv_of_runs hu hconfigured h
  exact ⟨hinv.ended, hinv.calls, hinv.received, hinv.stored, hinv.opened⟩

open FakeGateway in
/-- A listing that logs in first, on the account of the tests. -/
theorem tasks_served_account : ∃ tr os w outcome,
    (served (fun c => [c]) accountPrimitives serverPrimitives).Runs Machine.Free servedAccount
      tr os w ∧
    .ended 0 outcome ∈ os ∧
    (∃ job, Began tr 0 job ∧ Fulfils (fun c => [c]) accountHomes accountDevices job outcome) ∧
    w.server.calls = apisOf os := by
  obtain ⟨tr, os, w, coroutine, hrun, htask, hne⟩ := listing_started
  have hinv := inv_of_runs understood_account configured_account hrun
  obtain ⟨job, -, htrack⟩ := (hinv.tasks 0 coroutine htask).resolve_left hne
  obtain ⟨count, tr', os', w', outcome, -, hrun', -, hended, -⟩ :=
    hinv.finishes understood_account configured_account htask hne htrack accountFresh
  have hruns := hrun.trans hrun'
  have hended := List.mem_append_right os hended
  have hserved := tasks_served understood_account configured_account hruns
  exact ⟨_, _, w', outcome, hruns, hended, hserved.1 0 outcome hended, hserved.2.1⟩

/-- **Every task can finish.** Whatever tasks are under way and wherever they stand, the
answers to its own calls end a task as its job should end: two at most after the start of a
login, and for a listing one more for the homes and one for each home with an id. -/
theorem task_finishes (hu : Understood P S client homes devices)
    (hconfigured : Configured client homes) {tr : List (Served × ServedEvent)} {os : List CloudObs}
    (h : (served wideUpper P S).Runs Machine.Free
      (new client (.new (some (.array homes)) (some (.array devices)))) tr os w)
    {coroutine : Coroutine} (htask : w.cloud.tasks[task]? = some coroutine)
    (hne : coroutine ≠ .ended) (fresh : Nat → Fresh) :
    ∃ job count tr' os' w' outcome, Began tr task job ∧ count ≤ answersLeft homes coroutine ∧
      (served wideUpper P S).Runs Machine.Free w tr' os' w' ∧
      tr'.map Prod.snd = (List.range count).map (fun i => .answer task (fresh i)) ∧
      .ended task outcome ∈ os' ∧ Fulfils wideUpper homes devices job outcome := by
  have hinv := inv_of_runs hu hconfigured h
  obtain ⟨job, hbegan, htrack⟩ := (hinv.tasks task coroutine htask).resolve_left hne
  obtain ⟨count, tr', os', w', outcome, hfinishes⟩ :=
    hinv.finishes hu hconfigured htask hne htrack fresh
  exact ⟨job, count, tr', os', w', outcome, hbegan, hfinishes⟩

open FakeGateway in
/-- The same listing, from its first call on. -/
theorem task_finishes_account : ∃ tr os w job count tr' os' w' outcome,
    (served (fun c => [c]) accountPrimitives serverPrimitives).Runs Machine.Free servedAccount
      tr os w ∧ Began tr 0 job ∧
    (served (fun c => [c]) accountPrimitives serverPrimitives).Runs Machine.Free w tr' os' w' ∧
    tr'.map Prod.snd = (List.range count).map (fun i => .answer 0 (accountFresh i)) ∧
    .ended 0 outcome ∈ os' ∧ Fulfils (fun c => [c]) accountHomes accountDevices job outcome := by
  obtain ⟨tr, os, w, coroutine, hrun, htask, hne⟩ := listing_started
  obtain ⟨job, count, tr', os', w', outcome, hbegan, -, hfinishes⟩ :=
    task_finishes understood_account configured_account hrun htask hne accountFresh
  exact ⟨tr, os, w, job, count, tr', os', w', outcome, hrun, hbegan, hfinishes⟩

end Served

end TuyaBle
