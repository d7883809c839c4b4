import TuyaBle.Cloud.Tasks

/-!
# Tasks do not disturb each other

Each task that ends does so as its coroutine would have ended alone, from the client as it
was when the task began, with the exchanges of its own calls; the other tasks of the client
make no difference, whatever the order of the steps. What is shared is the account: it is
the one the last login stored.
-/

namespace TuyaBle

namespace Cloud

/-! ## A task alone -/

/-- The task was started on `job` when the client was `client`. -/
def Began (tr : List (Cloud × CloudEvent)) (task : Nat) (job : CloudJob)
    (client : TuyaBleCloudClient) : Prop :=
  ∃ w exchange, (w, .start job exchange) ∈ tr ∧ w.tasks.length = task ∧ w.client = client

/-- Each call of the task was made with the exchange it has in `exchanges`. -/
def Agrees (exchanges : ListExchanges) (task : Nat) (os : List CloudObs) : Prop :=
  ∀ place exchange, .called task place exchange ∈ os → exchanges.at place = exchange

variable (wideUpper : Char → List Char) (P : CloudPrimitives)

/-- What the coroutine of a job ends with when nothing else runs. -/
def alone (job : CloudJob) (client : TuyaBleCloudClient) (exchanges : ListExchanges) :
    CloudOutcome :=
  match job with
  | .login => .loggedIn (asyncLogin P client exchanges.token exchanges.login).1
  | .listDevices => .listed (asyncListDevices wideUpper P client exchanges).1

/-! ## What is left of a coroutine -/

/-- The session in the answer to a login. -/
def sessionIn : Except GatewayError JsonObject → Except GatewayError AccountSession
  | .error exception => .error (loginError exception)
  | .ok account => raising (readSession account)

theorem asyncLogin_fst {P : CloudPrimitives} {client : TuyaBleCloudClient}
    {tokenExchange loginExchange : Exchange} :
    (asyncLogin P client tokenExchange loginExchange).1 =
      sessionIn (loginAnswer P client tokenExchange loginExchange) := by
  unfold asyncLogin sessionIn
  cases loginAnswer P client tokenExchange loginExchange with
  | error exception => rfl
  | ok account =>
    cases h : readSession account with
    | error exception => simp only [h, raising_error]
    | ok session => simp only [h, raising_ok]

/-- The loop over the homes. -/
def restOfHomes (gateway : Gateway) (account : AccountSession) (exchanges : ListExchanges)
    (rest : List (JsonObject × Nat)) (listed : Listed) :
    Except GatewayError (List CloudDevice) := do
  let listed ← listHomes wideUpper P gateway account exchanges.devices rest listed
  return listed.devices

/-- The listing, from the answer to the call for the homes. -/
def restOfListing (gateway : Gateway) (account : AccountSession) (exchanges : ListExchanges)
    (homes : Except GatewayError (List JsonObject)) : Except GatewayError (List CloudDevice) := do
  let homes ← homes
  restOfHomes wideUpper P gateway account exchanges homes.zipIdx {}

/-- The outcome of a job, from that of its login. -/
def afterLogin (job : CloudJob) (gateway : Gateway) (exchanges : ListExchanges)
    (held : Except GatewayError AccountSession) : CloudOutcome :=
  match job with
  | .login => .loggedIn held
  | .listDevices => .listed do
    let account ← held
    restOfListing wideUpper P gateway account exchanges
      (asyncCallObjectList P gateway exchanges.homes (homesCall account))

/-- A job that logs in. -/
def LogsIn (job : CloudJob) (client : TuyaBleCloudClient) : Prop :=
  job = .listDevices → client.account = none

theorem alone_logsIn {job : CloudJob} {client : TuyaBleCloudClient} (h : LogsIn job client)
    (exchanges : ListExchanges) :
    alone wideUpper P job client exchanges = afterLogin wideUpper P job client.gateway exchanges
      (asyncLogin P client exchanges.token exchanges.login).1 := by
  cases job with
  | login => rfl
  | listDevices =>
    have hnone := h rfl
    have hheld : heldAccount P client exchanges =
        asyncLogin P client exchanges.token exchanges.login := by
      unfold heldAccount
      rw [hnone]
    simp only [alone, afterLogin, asyncListDevices, hheld, asyncLogin_gateway]
    rfl

theorem alone_held {client : TuyaBleCloudClient} {account : AccountSession}
    (h : client.account = some account) (exchanges : ListExchanges) :
    alone wideUpper P .listDevices client exchanges =
      .listed (restOfListing wideUpper P client.gateway account exchanges
        (asyncCallObjectList P client.gateway exchanges.homes (homesCall account))) := by
  have hheld : heldAccount P client exchanges = (.ok account, client) := by
    unfold heldAccount
    rw [h]
  simp only [alone, asyncListDevices, hheld]
  rfl

/-- The coroutine will end as the job does alone. -/
def Follows (job : CloudJob) (client : TuyaBleCloudClient) (exchanges : ListExchanges) :
    Coroutine → Prop
  | .token job' posted => job' = job ∧ LogsIn job client ∧
    (asyncLogin P client exchanges.token exchanges.login).1 = sessionIn do
      let call ← tokenAnswered P client posted
      asyncCallObject P client.gateway exchanges.login call
  | .login job' posted => job' = job ∧ LogsIn job client ∧
    (asyncLogin P client exchanges.token exchanges.login).1 =
      sessionIn (answeredObject P client.gateway posted)
  | .homes account posted =>
    alone wideUpper P job client exchanges = .listed (restOfListing wideUpper P client.gateway
      account exchanges (answeredObjectList P client.gateway posted))
  | .devices account posted rest listed =>
    alone wideUpper P job client exchanges = .listed do
      let records ← answeredObjectList P client.gateway posted
      restOfHomes wideUpper P client.gateway account exchanges rest
        (records.foldl (addDevice wideUpper) listed)
  | .closing _ | .ended => True

/-! ## The order of the calls -/

/-- The order in which a task makes its calls. -/
def rank : CallPlace → Nat
  | .token => 0
  | .login => 1
  | .homes => 2
  | .devices position => 3 + position

/-- A call that a suspended coroutine may still make. -/
def Next : Coroutine → CallPlace → Prop
  | .token .., place => 1 ≤ rank place
  | .login .., place => 2 ≤ rank place
  | .homes .., place => 3 ≤ rank place
  | .devices _ _ rest _, place => ∃ home ∈ rest, place = .devices home.2
  | .closing _, _ | .ended, _ => False

/-- The homes a coroutine still has to ask for. -/
def homesLeft : Coroutine → List (JsonObject × Nat)
  | .devices _ _ rest _ => rest
  | _ => []

/-- The calls of a task, each with its exchange. -/
def callsOf (task : Nat) (os : List CloudObs) : List (CallPlace × Exchange) :=
  os.filterMap fun
    | .called task' place exchange => if task' = task then some (place, exchange) else none
    | _ => none

structure Ordered (calls : List (CallPlace × Exchange)) (coroutine : Coroutine) : Prop where
  increasing : calls.Pairwise (rank ·.1 < rank ·.1)
  next : ∀ call ∈ calls, ∀ place, Next coroutine place → rank call.1 < rank place
  homes : (homesLeft coroutine).Pairwise (·.2 < ·.2)

variable {wideUpper P} {task : Nat} {os os' : List CloudObs} {exchanges : ListExchanges}

theorem mem_callsOf {place : CallPlace} {exchange : Exchange} :
    (place, exchange) ∈ callsOf task os ↔ .called task place exchange ∈ os := by
  rw [callsOf, List.mem_filterMap]
  constructor
  · rintro ⟨o, ho, h⟩
    cases o with
    | called task' place' exchange' =>
      simp only at h
      split at h
      · rename_i heq
        cases h
        exact heq ▸ ho
      · cases h
    | _ => cases h
  · exact fun h => ⟨_, h, if_pos rfl⟩

theorem callsOf_append : callsOf task (os ++ os') = callsOf task os ++ callsOf task os' :=
  List.filterMap_append ..

theorem Agrees.left (h : Agrees exchanges task (os ++ os')) : Agrees exchanges task os :=
  fun place exchange hm => h place exchange (List.mem_append_left _ hm)

instance : Inhabited Exchange := ⟨⟨"", ⟨List.replicate nonceLength 0, rfl⟩, 0, fun _ => .ok ""⟩⟩

/-- Calls made in order are made with the exchanges of one listing. -/
theorem Ordered.exists_agrees {coroutine : Coroutine} (h : Ordered (callsOf task os) coroutine) :
    ∃ exchanges, Agrees exchanges task os := by
  let find (place : CallPlace) : Exchange :=
    (((callsOf task os).find? fun call => call.1 = place).map Prod.snd).getD default
  have hat : ∀ place, (⟨find .token, find .login, find .homes, fun position =>
      find (.devices position)⟩ : ListExchanges).at place = find place := by
    intro place
    cases place <;> rfl
  refine ⟨_, fun place exchange hm => (hat place).trans ?_⟩
  have hm := mem_callsOf.2 hm
  have hcalls := h.increasing
  simp only [find]
  generalize callsOf task os = calls at hm hcalls
  induction calls with
  | nil => cases hm
  | cons call calls ih =>
    obtain ⟨hfirst, hcalls⟩ := List.pairwise_cons.1 hcalls
    rcases List.mem_cons.1 hm with rfl | hm
    · simp
    · have hne : call.1 ≠ place := by
        rintro rfl
        exact absurd (hfirst _ hm) (Nat.lt_irrefl _)
      rw [List.find?_cons_of_neg (by simpa using hne)]
      exact ih hm hcalls

/-! ## One turn of a task -/

/-- The sessions that logins have stored. -/
def sessionsOf (os : List CloudObs) : List AccountSession :=
  os.filterMap fun
    | .stored _ session => some session
    | _ => none

variable (wideUpper P) in
/-- What a task does from one await to the next: it makes its own calls, in order, and is on
its way to end as its job does alone. -/
structure Turn (job : CloudJob) (client : TuyaBleCloudClient) (w : Cloud) (task : Nat)
    (os : List CloudObs) (w' : Cloud) (os' : List CloudObs) : Prop where
  settings : w'.client = { w.client with account := w'.client.account }
  account : w'.client.account = (sessionsOf os').getLast?.or w.client.account
  tasks : ∃ coroutine, w'.tasks = (w.suspend task coroutine).tasks ∧
    Ordered (callsOf task (os ++ os')) coroutine ∧
    ∀ exchanges, Agrees exchanges task (os ++ os') →
      Follows wideUpper P job client exchanges coroutine
  others : ∀ other, other ≠ task → callsOf other os' = []
  ended : ∀ task' outcome, .ended task' outcome ∈ os' → task' = task ∧
    ∀ exchanges, Agrees exchanges task (os ++ os') →
      alone wideUpper P job client exchanges = outcome
  stored : ∀ task' session, .stored task' session ∈ os' → task' = task ∧
    ∀ exchanges, Agrees exchanges task (os ++ os') →
      (asyncLogin P client exchanges.token exchanges.login).1 = .ok session

/-- The observation is about the HTTP session. -/
def Http : CloudObs → Prop
  | .opens _ | .closes _ => True
  | _ => False

theorem http_openSession (w : Cloud) : ∀ o ∈ w.openSession.2, Http o := by
  rcases w.openSession_cases with ⟨h, -⟩ | ⟨-, h⟩ <;> rw [h] <;> simp [Http]

theorem callsOf_http (h : ∀ o ∈ os, Http o) : callsOf task os = [] := by
  refine List.filterMap_eq_nil_iff.2 fun o ho => ?_
  have := h o ho
  cases o with
  | opens | closes => rfl
  | _ => exact this.elim

theorem sessionsOf_http (h : ∀ o ∈ os, Http o) : sessionsOf os = [] := by
  refine List.filterMap_eq_nil_iff.2 fun o ho => ?_
  have := h o ho
  cases o with
  | opens | closes => rfl
  | _ => exact this.elim

variable {job : CloudJob} {client : TuyaBleCloudClient} {w w' : Cloud}

/-- No call is left. -/
theorem Ordered.ended {calls : List (CallPlace × Exchange)}
    (h : calls.Pairwise (rank ·.1 < rank ·.1)) : Ordered calls .ended :=
  ⟨h, fun _ _ _ hn => hn.elim, .nil⟩

theorem Turn.of_finish (hcalls : (callsOf task os).Pairwise (rank ·.1 < rank ·.1))
    {outcome : CloudOutcome}
    (h : ∀ exchanges, Agrees exchanges task os →
      alone wideUpper P job client exchanges = outcome) :
    Turn wideUpper P job client w task os (w.finish task outcome).1 (w.finish task outcome).2 := by
  refine ⟨by simp [finish], by simp [finish, sessionsOf], ⟨.ended, rfl, ?_, fun _ _ => trivial⟩,
    fun _ _ => rfl, ?_, fun _ _ hm => ?_⟩
  · rw [callsOf_append]
    exact .ended (by simpa [callsOf, finish] using hcalls)
  · rintro task' outcome' hm
    cases List.mem_singleton.1 hm
    exact ⟨rfl, fun exchanges ha => h exchanges ha.left⟩
  · cases List.mem_singleton.1 hm

theorem Turn.of_post {place : CallPlace} {call : GatewayCall} {exchange : Exchange}
    {awaits : PostedCall → Coroutine} {fails : GatewayError → CloudOutcome}
    (hcalls : (callsOf task os).Pairwise (rank ·.1 < rank ·.1))
    (hplace : ∀ call ∈ callsOf task os, rank call.1 < rank place)
    (hnext : ∀ posted next, Next (awaits posted) next → rank place < rank next)
    (hhomes : ∀ posted, (homesLeft (awaits posted)).Pairwise (·.2 < ·.2))
    (hawaits : ∀ exchanges, Agrees exchanges task os → exchanges.at place = exchange →
      ∀ posted, answered P w.client.gateway posted =
        asyncCall P w.client.gateway exchange call → posted.call = call →
      Follows wideUpper P job client exchanges (awaits posted))
    (hfails : ∀ exchanges, Agrees exchanges task os → exchanges.at place = exchange →
      ∀ exception, asyncCall P w.client.gateway exchange call = .error (.raised exception) →
      alone wideUpper P job client exchanges = fails (.raised exception)) :
    Turn wideUpper P job client w task os
      (w.post P task place call exchange awaits fails).1
      (w.post P task place call exchange awaits fails).2 := by
  have hincreasing : (callsOf task os ++ [(place, exchange)]).Pairwise (rank ·.1 < rank ·.1) :=
    List.pairwise_append.2 ⟨hcalls, List.pairwise_singleton _ _, fun call hm _ hp =>
      List.mem_singleton.1 hp ▸ hplace call hm⟩
  rcases w.post_cases task place call exchange awaits fails with
    ⟨exception, hcall, hpost⟩ | ⟨posted, hcall, rfl, hpost⟩
  · rw [hpost]
    refine ⟨by simp, by simp [sessionsOf], ⟨.ended, rfl, ?_, fun _ _ => trivial⟩, ?_, ?_, ?_⟩
    · rw [callsOf_append]
      exact .ended (by simpa [callsOf] using hincreasing)
    · intro other hne
      simp [callsOf, hne.symm]
    · intro task' outcome hm
      rcases List.mem_cons.1 hm with he | hm
      · cases he
      · cases List.mem_singleton.1 hm
        exact ⟨rfl, fun exchanges ha => hfails exchanges ha.left
          (ha _ _ (List.mem_append_right _ (List.mem_cons_self ..))) exception hcall⟩
    · intro task' session hm
      simp at hm
  · have hhttp := http_openSession w
    have hadded : ∀ other, callsOf other (.called task place exchange :: w.openSession.2) =
        callsOf other [.called task place exchange] := fun other => by
      rw [← List.singleton_append, callsOf_append, callsOf_http hhttp, List.append_nil]
    rw [hpost]
    refine ⟨by simp, ?_, ⟨awaits posted, tasks_suspend (openSession_tasks w) _, ?_, ?_⟩, ?_, ?_, ?_⟩
    · show _ = Option.or (sessionsOf w.openSession.2).getLast? _
      rw [sessionsOf_http hhttp]
      simp
    · rw [callsOf_append, hadded]
      have hown : callsOf task [.called task place exchange] = [(place, exchange)] := by
        simp [callsOf]
      rw [hown]
      refine ⟨hincreasing, fun call hm next hn => ?_, hhomes posted⟩
      rcases List.mem_append.1 hm with hm | hm
      · exact Nat.lt_trans (hplace call hm) (hnext posted next hn)
      · rw [List.mem_singleton.1 hm]
        exact hnext posted next hn
    · exact fun exchanges ha => hawaits exchanges ha.left
        (ha _ _ (List.mem_append_right _ (List.mem_cons_self ..))) posted hcall rfl
    · intro other hne
      rw [hadded]
      simp [callsOf, hne.symm]
    · intro task' outcome hm
      rcases List.mem_cons.1 hm with he | hm
      · cases he
      · exact (hhttp _ hm).elim
    · intro task' session hm
      rcases List.mem_cons.1 hm with he | hm
      · cases he
      · exact (hhttp _ hm).elim

/-! ## The turns of the coroutines -/

section
variable {account : AccountSession} {next : Exchange}

theorem answeredObject_eq {gateway : Gateway} {posted : PostedCall} {exchange : Exchange}
    (h : answered P gateway posted = asyncCall P gateway exchange posted.call) :
    answeredObject P gateway posted = asyncCallObject P gateway exchange posted.call := by
  unfold answeredObject asyncCallObject
  rw [h]

theorem answeredObjectList_eq {gateway : Gateway} {posted : PostedCall} {exchange : Exchange}
    (h : answered P gateway posted = asyncCall P gateway exchange posted.call) :
    answeredObjectList P gateway posted = asyncCallObjectList P gateway exchange posted.call := by
  unfold answeredObjectList asyncCallObjectList
  rw [h]

theorem asyncCallObject_error {gateway : Gateway} {exchange : Exchange} {call : GatewayCall}
    {exception : GatewayError} (h : asyncCall P gateway exchange call = .error exception) :
    asyncCallObject P gateway exchange call = .error exception := by
  rw [asyncCallObject, h]
  rfl

theorem asyncCallObjectList_error {gateway : Gateway} {exchange : Exchange} {call : GatewayCall}
    {exception : GatewayError} (h : asyncCall P gateway exchange call = .error exception) :
    asyncCallObjectList P gateway exchange call = .error exception := by
  rw [asyncCallObjectList, h]
  rfl

/-- The listing asks for the homes. -/
theorem Turn.of_listWith (hgateway : w.client.gateway = client.gateway)
    (hcalls : (callsOf task os).Pairwise (rank ·.1 < rank ·.1))
    (hlt : ∀ call ∈ callsOf task os, rank call.1 < 2)
    (h : ∀ exchanges, Agrees exchanges task os → alone wideUpper P job client exchanges =
      .listed (restOfListing wideUpper P client.gateway account exchanges
        (asyncCallObjectList P client.gateway exchanges.homes (homesCall account)))) :
    Turn wideUpper P job client w task os (w.listWith P task account next).1
      (w.listWith P task account next).2 := by
  refine .of_post hcalls hlt (fun _ _ hn => hn) (fun _ => .nil) ?_ ?_
  · intro exchanges ha hat posted hposted hcall
    obtain rfl : exchanges.homes = next := hat
    rw [hgateway, ← hcall] at hposted
    show alone _ _ _ _ _ = _
    rw [h exchanges ha, answeredObjectList_eq hposted, hcall]
  · intro exchanges ha hat exception hposted
    obtain rfl : exchanges.homes = next := hat
    rw [hgateway] at hposted
    rw [h exchanges ha, asyncCallObjectList_error hposted]
    rfl

theorem restOfHomes_cons {gateway : Gateway} {exchanges : ListExchanges} {home : JsonObject}
    {groupId : String} (h : groupIdText home = some groupId) (position : Nat)
    (rest : List (JsonObject × Nat)) (listed : Listed) :
    restOfHomes wideUpper P gateway account exchanges ((home, position) :: rest) listed =
      (do
        let records ← asyncCallObjectList P gateway (exchanges.devices position)
          (devicesCall account groupId)
        restOfHomes wideUpper P gateway account exchanges rest
          (records.foldl (addDevice wideUpper) listed)) := by
  rw [restOfHomes, listHomes, h]
  cases hrecords : asyncCallObjectList P gateway (exchanges.devices position)
    (devicesCall account groupId) <;> simp only [hrecords] <;> rfl

/-- The loop goes on to the next home that has an id, or ends. -/
theorem Turn.of_nextHome (hgateway : w.client.gateway = client.gateway)
    (hcalls : (callsOf task os).Pairwise (rank ·.1 < rank ·.1)) {rest : List (JsonObject × Nat)}
    {listed : Listed} (hrest : rest.Pairwise (·.2 < ·.2))
    (hlt : ∀ call ∈ callsOf task os, ∀ home ∈ rest, rank call.1 < rank (.devices home.2))
    (h : ∀ exchanges, Agrees exchanges task os → alone wideUpper P job client exchanges =
      .listed (restOfHomes wideUpper P client.gateway account exchanges rest listed)) :
    Turn wideUpper P job client w task os (w.nextHome P task account next rest listed).1
      (w.nextHome P task account next rest listed).2 := by
  induction rest with
  | nil => exact .of_finish hcalls h
  | cons home rest ih =>
    obtain ⟨home, position⟩ := home
    obtain ⟨hfirst, hrest⟩ := List.pairwise_cons.1 hrest
    rw [nextHome]
    cases hgroup : groupIdText home with
    | none =>
      refine ih hrest (fun call hm home hh => hlt call hm home (List.mem_cons_of_mem _ hh)) ?_
      intro exchanges ha
      rw [h exchanges ha, restOfHomes, listHomes, hgroup]
      rfl
    | some groupId =>
      refine .of_post hcalls (fun call hm => hlt call hm _ (List.mem_cons_self ..)) ?_
        (fun _ => hrest) ?_ ?_
      · rintro posted next ⟨home', hm, rfl⟩
        exact Nat.add_lt_add_left (hfirst home' hm) 3
      · intro exchanges ha hat posted hposted hcall
        obtain rfl : exchanges.devices position = next := hat
        rw [hgateway, ← hcall] at hposted
        show alone _ _ _ _ _ = _
        rw [h exchanges ha, restOfHomes_cons hgroup, answeredObjectList_eq hposted, hcall]
      · intro exchanges ha hat exception hposted
        obtain rfl : exchanges.devices position = next := hat
        rw [hgateway] at hposted
        rw [h exchanges ha, restOfHomes_cons hgroup, asyncCallObjectList_error hposted]
        rfl

/-- A login stores its session before the task goes on. -/
theorem Turn.after_store {session : AccountSession}
    (hsession : ∀ exchanges, Agrees exchanges task os →
      (asyncLogin P client exchanges.token exchanges.login).1 = .ok session)
    (h : Turn wideUpper P job client { w with client := { w.client with account := some session } }
      task os w' os') :
    Turn wideUpper P job client w task os w' (.stored task session :: os') := by
  have hcallsOf : ∀ task', callsOf task' (.stored task session :: os') = callsOf task' os' :=
    fun _ => rfl
  have hagrees : ∀ {exchanges}, Agrees exchanges task (os ++ .stored task session :: os') →
      Agrees exchanges task (os ++ os') := by
    intro exchanges ha place exchange hm
    refine ha place exchange ?_
    rcases List.mem_append.1 hm with hm | hm
    · exact List.mem_append_left _ hm
    · exact List.mem_append_right _ (List.mem_cons_of_mem _ hm)
  obtain ⟨coroutine, htasks, hordered, hfollows⟩ := h.tasks
  refine ⟨h.settings, ?_, ⟨coroutine, ?_, ?_, fun exchanges ha => hfollows exchanges (hagrees ha)⟩,
    fun other hne => h.others other hne, ?_, ?_⟩
  · rw [h.account]
    show _ = Option.or (session :: sessionsOf os').getLast? _
    rw [List.getLast?_cons]
    cases (sessionsOf os').getLast? <;> rfl
  · rw [htasks]
    unfold suspend
    simp only
    split <;> rfl
  · rw [callsOf_append, hcallsOf, ← callsOf_append]
    exact hordered
  · intro task' outcome hm
    rcases List.mem_cons.1 hm with he | hm
    · cases he
    · obtain ⟨rfl, hended⟩ := h.ended task' outcome hm
      exact ⟨rfl, fun exchanges ha => hended exchanges (hagrees ha)⟩
  · intro task' session' hm
    rcases List.mem_cons.1 hm with he | hm
    · cases he
      exact ⟨rfl, fun exchanges ha => hsession exchanges ha.left⟩
    · obtain ⟨rfl, hstored⟩ := h.stored task' session' hm
      exact ⟨rfl, fun exchanges ha => hstored exchanges (hagrees ha)⟩

theorem Turn.of_loggedIn (hgateway : w.client.gateway = client.gateway)
    (hcalls : (callsOf task os).Pairwise (rank ·.1 < rank ·.1))
    (hlt : ∀ call ∈ callsOf task os, rank call.1 < 2) (hlogs : LogsIn job client)
    {session : AccountSession} (hsession : ∀ exchanges, Agrees exchanges task os →
      (asyncLogin P client exchanges.token exchanges.login).1 = .ok session) :
    Turn wideUpper P job client w task os (w.loggedIn P task job session next).1
      (w.loggedIn P task job session next).2 := by
  cases job with
  | login =>
    refine .after_store hsession (.of_finish hcalls fun exchanges ha => ?_)
    rw [alone, hsession exchanges ha]
  | listDevices =>
    refine .after_store hsession (.of_listWith hgateway hcalls hlt fun exchanges ha => ?_)
    rw [alone_logsIn wideUpper P hlogs, hsession exchanges ha]
    rfl

/-- A task goes on with the answer to its call. -/
theorem Turn.of_resume (hsettings : w.client = { client with account := w.client.account })
    {coroutine : Coroutine} (hordered : Ordered (callsOf task os) coroutine)
    (hfollows : ∀ exchanges, Agrees exchanges task os →
      Follows wideUpper P job client exchanges coroutine)
    {result : Cloud × List CloudObs} (h : w.resume wideUpper P task next coroutine = some result) :
    Turn wideUpper P job client w task os result.1 result.2 := by
  have hgateway : w.client.gateway = client.gateway := by rw [hsettings]
  have hcalls := hordered.increasing
  obtain ⟨exchanges, ha⟩ := hordered.exists_agrees
  cases coroutine with
  | token job' posted =>
    obtain ⟨rfl, hlogs, -⟩ := hfollows exchanges ha
    have hanswer : tokenAnswered P w.client posted = tokenAnswered P client posted := by
      rw [hsettings]
      rfl
    have hlogin := fun exchanges ha => (hfollows exchanges ha).2.2
    rw [resume, hanswer] at h
    cases htoken : tokenAnswered P client posted with
    | error exception =>
      rw [htoken] at h hlogin
      obtain rfl := Option.some.inj h
      refine .of_finish hcalls fun exchanges ha => ?_
      rw [alone_logsIn wideUpper P hlogs, hlogin exchanges ha]
      cases job' <;> rfl
    | ok call =>
      rw [htoken] at h hlogin
      obtain rfl := Option.some.inj h
      refine .of_post hcalls (fun call hm => hordered.next call hm .login (Nat.le_refl 1))
        (fun _ _ hn => hn) (fun _ => .nil) ?_ ?_
      · intro exchanges ha hat posted hposted hcall
        obtain rfl : exchanges.login = next := hat
        rw [hgateway, ← hcall] at hposted
        refine ⟨rfl, hlogs, (hlogin exchanges ha).trans ?_⟩
        rw [answeredObject_eq hposted, hcall]
        rfl
      · intro exchanges ha hat exception hposted
        obtain rfl : exchanges.login = next := hat
        rw [hgateway] at hposted
        have hraised : sessionIn (asyncCallObject P client.gateway exchanges.login call) =
            .error (.raised exception) := by
          rw [asyncCallObject_error hposted]
          rfl
        rw [alone_logsIn wideUpper P hlogs, (hlogin exchanges ha).trans hraised]
        cases job' <;> rfl
  | login job' posted =>
    obtain ⟨rfl, hlogs, -⟩ := hfollows exchanges ha
    have hlogin := fun exchanges ha => (hfollows exchanges ha).2.2
    rw [resume, hgateway] at h
    have hfail : ∀ exception, sessionIn (answeredObject P client.gateway posted) =
        .error exception → Turn wideUpper P job' client w task os
          (w.finish task (loginFails job' exception)).1
          (w.finish task (loginFails job' exception)).2 := by
      intro exception hread
      refine .of_finish hcalls fun exchanges ha => ?_
      rw [alone_logsIn wideUpper P hlogs, (hlogin exchanges ha).trans hread]
      cases job' <;> rfl
    cases hanswer : answeredObject P client.gateway posted with
    | error exception =>
      rw [hanswer] at h hfail
      obtain rfl := Option.some.inj h
      exact hfail _ rfl
    | ok answer =>
      rw [hanswer] at h hfail
      cases hread : readSession answer with
      | error exception =>
        simp only [hread] at h
        obtain rfl := Option.some.inj h
        exact hfail _ (by rw [sessionIn, hread]; rfl)
      | ok session =>
        simp only [hread] at h
        obtain rfl := Option.some.inj h
        refine .of_loggedIn hgateway hcalls (fun call hm =>
          hordered.next call hm .homes (Nat.le_refl 2)) hlogs fun exchanges ha => ?_
        rw [hlogin exchanges ha, hanswer, sessionIn, hread]
        rfl
  | homes account posted =>
    rw [resume, hgateway] at h
    cases hhomes : answeredObjectList P client.gateway posted with
    | error exception =>
      rw [hhomes] at h
      obtain rfl := Option.some.inj h
      refine .of_finish hcalls fun exchanges ha => (hfollows exchanges ha).trans ?_
      rw [hhomes]
      rfl
    | ok homes =>
      rw [hhomes] at h
      obtain rfl := Option.some.inj h
      refine .of_nextHome hgateway hcalls (pairwise_zipIdx homes) (fun call hm home _ =>
        hordered.next call hm (.devices home.2) (Nat.le_add_right 3 home.2))
        fun exchanges ha => (hfollows exchanges ha).trans ?_
      rw [hhomes]
      rfl
  | devices account posted rest listed =>
    rw [resume, hgateway] at h
    cases hrecords : answeredObjectList P client.gateway posted with
    | error exception =>
      rw [hrecords] at h
      obtain rfl := Option.some.inj h
      refine .of_finish hcalls fun exchanges ha => (hfollows exchanges ha).trans ?_
      rw [hrecords]
      rfl
    | ok records =>
      rw [hrecords] at h
      obtain rfl := Option.some.inj h
      refine .of_nextHome hgateway hcalls hordered.homes (fun call hm home hh =>
        hordered.next call hm (.devices home.2) ⟨home, hh, rfl⟩)
        fun exchanges ha => (hfollows exchanges ha).trans ?_
      rw [hrecords]
      rfl
  | closing session => cases h
  | ended => cases h

/-- A task that logs in begins with the token call. -/
theorem Turn.of_login {exchange : Exchange} (hcalls : callsOf task os = [])
    (hlogs : LogsIn job w.client) :
    Turn wideUpper P job w.client w task os
      (w.post P task .token (tokenCall w.client) exchange (.token job) (loginFails job)).1
      (w.post P task .token (tokenCall w.client) exchange (.token job) (loginFails job)).2 := by
  refine .of_post (hcalls ▸ .nil) (hcalls ▸ List.forall_mem_nil _) (fun _ _ hn => hn)
    (fun _ => .nil) ?_ ?_
  · intro exchanges ha hat posted hposted hcall
    obtain rfl : exchanges.token = exchange := hat
    rw [← hcall] at hposted
    refine ⟨rfl, hlogs, ?_⟩
    rw [asyncLogin_fst, loginAnswer, tokenAnswered, answeredObject_eq hposted, hcall]
    cases asyncCallObject P w.client.gateway exchanges.token (tokenCall w.client) <;> rfl
  · intro exchanges ha hat exception hposted
    obtain rfl : exchanges.token = exchange := hat
    have hlogin : (asyncLogin P w.client exchanges.token exchanges.login).1 =
        .error (.raised exception) := by
      rw [asyncLogin_fst, loginAnswer, asyncCallObject_error hposted]
      rfl
    rw [alone_logsIn wideUpper P hlogs, hlogin]
    cases job <;> rfl

theorem Turn.of_start (exchange : Exchange) (hcalls : callsOf w.tasks.length os = []) :
    Turn wideUpper P job w.client w w.tasks.length os (w.start P job exchange).1
      (w.start P job exchange).2 := by
  unfold start
  split
  · rename_i account haccount
    exact .of_listWith rfl (hcalls ▸ .nil) (hcalls ▸ List.forall_mem_nil _)
      fun exchanges _ => alone_held wideUpper P haccount exchanges
  · rename_i hne
    refine .of_login hcalls fun hjob => ?_
    cases haccount : w.client.account with
    | none => rfl
    | some account => exact absurd haccount (hne account hjob)

end

/-! ## All the tasks -/

/-- The coroutine of a job, suspended in a call. -/
def Calling : Coroutine → Prop
  | .closing _ | .ended => False
  | _ => True

variable (wideUpper P) in
structure Inv (client : TuyaBleCloudClient) (tr : List (Cloud × CloudEvent)) (os : List CloudObs)
    (w : Cloud) : Prop where
  settings : w.client = { client with account := w.client.account }
  account : w.client.account = (sessionsOf os).getLast?.or client.account
  fresh : ∀ task, w.tasks.length ≤ task → callsOf task os = []
  ordered : ∀ task coroutine, w.tasks[task]? = some coroutine → Ordered (callsOf task os) coroutine
  follows : ∀ task coroutine, w.tasks[task]? = some coroutine → Calling coroutine →
    ∃ job held, Began tr task job { client with account := held } ∧
      ∀ exchanges, Agrees exchanges task os →
        Follows wideUpper P job { client with account := held } exchanges coroutine
  ended : ∀ task outcome, .ended task outcome ∈ os →
    ∃ job held, Began tr task job { client with account := held } ∧
      ∀ exchanges, Agrees exchanges task os →
        alone wideUpper P job { client with account := held } exchanges = outcome
  stored : ∀ task session, .stored task session ∈ os →
    ∃ job held, Began tr task job { client with account := held } ∧
      ∀ exchanges, Agrees exchanges task os →
        (asyncLogin P { client with account := held } exchanges.token exchanges.login).1 =
          .ok session

theorem Began.mono {tr tr' : List (Cloud × CloudEvent)} (h : Began tr task job client) :
    Began (tr ++ tr') task job client := by
  obtain ⟨w, exchange, hm, hlength, hclient⟩ := h
  exact ⟨w, exchange, List.mem_append_left _ hm, hlength, hclient⟩

section
variable {tr : List (Cloud × CloudEvent)} {e : CloudEvent}

/-- A step of one task. -/
theorem Inv.of_suspend (h : Inv wideUpper P client tr os w) (htask : task ≤ w.tasks.length)
    {coroutine : Coroutine} (hsettings : w'.client = { w.client with account := w'.client.account })
    (haccount : w'.client.account = (sessionsOf os').getLast?.or w.client.account)
    (htasks : w'.tasks = (w.suspend task coroutine).tasks)
    (hordered : Ordered (callsOf task (os ++ os')) coroutine)
    (hothers : ∀ other, other ≠ task → callsOf other os' = [])
    (hfollows : Calling coroutine →
      ∃ job held, Began (tr ++ [(w, e)]) task job { client with account := held } ∧
        ∀ exchanges, Agrees exchanges task (os ++ os') →
          Follows wideUpper P job { client with account := held } exchanges coroutine)
    (hended : ∀ task outcome, .ended task outcome ∈ os' →
      ∃ job held, Began (tr ++ [(w, e)]) task job { client with account := held } ∧
        ∀ exchanges, Agrees exchanges task (os ++ os') →
          alone wideUpper P job { client with account := held } exchanges = outcome)
    (hstored : ∀ task session, .stored task session ∈ os' →
      ∃ job held, Began (tr ++ [(w, e)]) task job { client with account := held } ∧
        ∀ exchanges, Agrees exchanges task (os ++ os') →
          (asyncLogin P { client with account := held } exchanges.token exchanges.login).1 =
            .ok session) :
    Inv wideUpper P client (tr ++ [(w, e)]) (os ++ os') w' := by
  have hget : ∀ other, w'.tasks[other]? =
      if other = task then some coroutine else w.tasks[other]? := fun other => by
    rw [htasks, getElem?_suspend htask]
  have hlength := length_suspend htask coroutine
  rw [← htasks] at hlength
  have hcalls : ∀ other, other ≠ task → callsOf other (os ++ os') = callsOf other os :=
    fun other hne => by rw [callsOf_append, hothers other hne, List.append_nil]
  refine ⟨by rw [hsettings, h.settings], ?_, ?_, ?_, ?_, ?_, ?_⟩
  · rw [haccount, h.account, sessionsOf, sessionsOf, sessionsOf, List.filterMap_append,
      List.getLast?_append, Option.or_assoc]
  · intro other hle
    rw [hcalls other (by omega)]
    exact h.fresh other (by omega)
  · intro other coroutine' hc
    rw [hget] at hc
    split at hc
    · rename_i heq
      rw [heq, ← Option.some.inj hc]
      exact hordered
    · rename_i hne
      rw [hcalls other hne]
      exact h.ordered other coroutine' hc
  · intro other coroutine' hc hcalling
    rw [hget] at hc
    split at hc
    · rename_i heq
      rw [heq]
      rw [← Option.some.inj hc] at hcalling ⊢
      exact hfollows hcalling
    · obtain ⟨job, held, hbegan, hall⟩ := h.follows other coroutine' hc hcalling
      exact ⟨job, held, hbegan.mono, fun exchanges ha => hall exchanges ha.left⟩
  · intro other outcome hm
    rcases List.mem_append.1 hm with hm | hm
    · obtain ⟨job, held, hbegan, hall⟩ := h.ended other outcome hm
      exact ⟨job, held, hbegan.mono, fun exchanges ha => hall exchanges ha.left⟩
    · exact hended other outcome hm
  · intro other session hm
    rcases List.mem_append.1 hm with hm | hm
    · obtain ⟨job, held, hbegan, hall⟩ := h.stored other session hm
      exact ⟨job, held, hbegan.mono, fun exchanges ha => hall exchanges ha.left⟩
    · exact hstored other session hm

theorem Inv.of_turn (h : Inv wideUpper P client tr os w) (htask : task ≤ w.tasks.length)
    {held : Option AccountSession}
    (hbegan : Began (tr ++ [(w, e)]) task job { client with account := held })
    (ht : Turn wideUpper P job { client with account := held } w task os w' os') :
    Inv wideUpper P client (tr ++ [(w, e)]) (os ++ os') w' := by
  obtain ⟨coroutine, htasks, hordered, hfollows⟩ := ht.tasks
  refine h.of_suspend htask ht.settings ht.account htasks hordered ht.others
    (fun _ => ⟨job, held, hbegan, hfollows⟩) ?_ ?_
  · intro task' outcome hm
    obtain ⟨rfl, hended⟩ := ht.ended task' outcome hm
    exact ⟨job, held, hbegan, hended⟩
  · intro task' session hm
    obtain ⟨rfl, hstored⟩ := ht.stored task' session hm
    exact ⟨job, held, hbegan, hstored⟩

/-- A task begins to close the HTTP session, or ends. -/
theorem Inv.of_aside (h : Inv wideUpper P client tr os w) (htask : task ≤ w.tasks.length)
    {coroutine : Coroutine} {session : Option HttpSession}
    (hc : coroutine = .ended ∨ ∃ session, coroutine = .closing session)
    (hos : ∀ o ∈ os', Http o) :
    Inv wideUpper P client (tr ++ [(w, e)]) (os ++ os')
      ({ w with session }.suspend task coroutine) := by
  have hold : (callsOf task os).Pairwise (rank ·.1 < rank ·.1) := by
    rcases Nat.lt_or_ge task w.tasks.length with hlt | hge
    · exact (h.ordered task _ (List.getElem?_eq_getElem hlt)).increasing
    · rw [h.fresh task hge]
      exact .nil
  have htasks : ({ w with session }.suspend task coroutine).tasks =
      (w.suspend task coroutine).tasks := tasks_suspend (by rfl) coroutine
  refine h.of_suspend htask (by simp) ?_ htasks ?_ (fun _ _ => callsOf_http hos) ?_
    (fun _ _ hm => (hos _ hm).elim) fun _ _ hm => (hos _ hm).elim
  · rw [sessionsOf_http hos, suspend_client]
    rfl
  · rw [callsOf_append, callsOf_http hos, List.append_nil]
    rcases hc with rfl | ⟨session, rfl⟩
    · exact .ended hold
    · exact ⟨hold, fun _ _ _ hn => hn.elim, .nil⟩
  · rcases hc with rfl | ⟨session, rfl⟩ <;> exact fun hcalling => hcalling.elim

theorem Inv.step (h : Inv wideUpper P client tr os w) (hs : w.step wideUpper P e = some (w', os')) :
    Inv wideUpper P client (tr ++ [(w, e)]) (os ++ os') w' := by
  cases e with
  | start job exchange =>
    obtain rfl : (w.start P job exchange).1 = w' := congrArg Prod.fst (Option.some.inj hs)
    obtain rfl : (w.start P job exchange).2 = os' := congrArg Prod.snd (Option.some.inj hs)
    have hturn : Turn wideUpper P job w.client w w.tasks.length os _ _ :=
      .of_start exchange (h.fresh _ (Nat.le_refl _))
    rw [h.settings] at hturn
    refine h.of_turn (Nat.le_refl _) ⟨w, exchange, ?_, rfl, h.settings⟩ hturn
    exact List.mem_append_right _ (List.mem_singleton_self _)
  | answer task next =>
    simp only [Cloud.step] at hs
    split at hs
    · rename_i coroutine htask
      have hcalling : Calling coroutine := by
        cases coroutine with
        | closing session => cases hs
        | ended => cases hs
        | _ => trivial
      obtain ⟨job, held, hbegan, hfollows⟩ := h.follows task coroutine htask hcalling
      have hlt := (List.getElem?_eq_some_iff.1 htask).1
      have hsettings : w.client =
          { { client with account := held } with account := w.client.account } := h.settings
      exact h.of_turn hlt.le hbegan.mono
        (.of_resume hsettings (h.ordered task coroutine htask) hfollows hs)
    · cases hs
  | close =>
    obtain rfl : w.close.1 = w' := congrArg Prod.fst (Option.some.inj hs)
    obtain rfl : w.close.2 = os' := congrArg Prod.snd (Option.some.inj hs)
    unfold close
    split
    · rename_i session _ _
      exact h.of_aside (Nat.le_refl _) (.inr ⟨session, rfl⟩) (by simp [Http])
    · exact h.of_aside (Nat.le_refl _) (.inl rfl) (by simp)
  | closed task =>
    simp only [Cloud.step] at hs
    split at hs
    · rename_i session htask
      cases hs
      have hlt := (List.getElem?_eq_some_iff.1 htask).1
      exact h.of_aside hlt.le (.inl rfl) (by simp)
    · cases hs
  | cancel task =>
    simp only [Cloud.step] at hs
    split at hs
    · cases hs
    · cases hs
    · rename_i coroutine _ htask
      cases hs
      have hlt := (List.getElem?_eq_some_iff.1 htask).1
      exact h.of_aside hlt.le (.inl rfl) (by simp)

theorem inv_new (adopts : Bool) : Inv wideUpper P client [] [] (new client adopts) where
  settings := rfl
  account := rfl
  fresh _ _ := rfl
  ordered _ _ h := by cases h
  follows _ _ h := by cases h
  ended _ _ h := by cases h
  stored _ _ h := by cases h

end

/-- **Tasks do not disturb each other.** In every run, whatever the order of its steps: a task
ends as its job does alone, from the client as it was when the task began, with the exchanges
of its own calls; what it stores is the session that its login returns alone; and the account
the client holds is the one stored last, nothing else of it having changed. -/
theorem tasks_isolated {wideUpper : Char → List Char} {P : CloudPrimitives}
    {client : TuyaBleCloudClient} {adopts : Bool} {w : Cloud} {tr : List (Cloud × CloudEvent)}
    {os : List CloudObs}
    (h : (cloud wideUpper P).Runs Machine.Free (new client adopts) tr os w) :
    w.client = { client with account := (sessionsOf os).getLast?.or client.account } ∧
    (∀ task outcome, .ended task outcome ∈ os →
      ∃ job held, Began tr task job { client with account := held } ∧
        (∃ exchanges, Agrees exchanges task os) ∧
        ∀ exchanges, Agrees exchanges task os →
          alone wideUpper P job { client with account := held } exchanges = outcome) ∧
    ∀ task session, .stored task session ∈ os →
      ∃ job held, Began tr task job { client with account := held } ∧
        (∃ exchanges, Agrees exchanges task os) ∧
        ∀ exchanges, Agrees exchanges task os →
          (asyncLogin P { client with account := held } exchanges.token exchanges.login).1 =
            .ok session := by
  have hinv : Inv wideUpper P client tr os w :=
    h.invariant (I := fun tr os w => Inv wideUpper P client tr os w) (inv_new adopts)
      fun tr os w e w' os' hi _ hs => hi.step hs
  have hagrees : ∀ task, ∃ exchanges, Agrees exchanges task os := by
    intro task
    cases htask : w.tasks[task]? with
    | none =>
      refine ⟨⟨default, default, default, fun _ => default⟩, fun place exchange hm => ?_⟩
      have hm := mem_callsOf.2 hm
      rw [hinv.fresh task (List.getElem?_eq_none_iff.1 htask)] at hm
      cases hm
    | some coroutine => exact (hinv.ordered task coroutine htask).exists_agrees
  refine ⟨?_, fun task outcome hm => ?_, fun task session hm => ?_⟩
  · rw [hinv.settings, hinv.account]
  · obtain ⟨job, held, hbegan, hall⟩ := hinv.ended task outcome hm
    exact ⟨job, held, hbegan, hagrees task, hall⟩
  · obtain ⟨job, held, hbegan, hall⟩ := hinv.stored task session hm
    exact ⟨job, held, hbegan, hagrees task, hall⟩

open FakeGateway in
/-- A listing that logs in and is answered call by call, while a login of another task times
out. -/
theorem tasks_isolated_overlapping : ∃ tr os w,
    (cloud (fun c => [c]) listingPrimitives).Runs Machine.Free (new recordedClient false) tr os w ∧
    .stored 0 accountSession ∈ os ∧
    .ended 0 (.listed (.ok [livingRoomLight, soilSensor])) ∈ os ∧
    w.client = { recordedClient with account := some accountSession } ∧
    ∃ job held, Began tr 0 job { recordedClient with account := held } ∧
      (∃ exchanges, Agrees exchanges 0 os) ∧
      ∀ exchanges, Agrees exchanges 0 os →
        alone (fun c => [c]) listingPrimitives job { recordedClient with account := held }
          exchanges = .listed (.ok [livingRoomLight, soilSensor]) := by
  obtain ⟨token, htoken, hstart⟩ := step_start
  have hdump : dumpJson listingPrimitives.toJsonText (tokenCall recordedClient).post =
      .ok (encodeUtf8 (dumpText (tokenCall recordedClient).post)) := rfl
  obtain ⟨form, hform⟩ : ∃ form,
      callForm listingPrimitives {} silentExchange (tokenCall recordedClient) = .ok form :=
    ⟨_, callForm_of_dumpJson {} silentExchange hdump⟩
  let silent : Coroutine := .token .login ⟨tokenCall recordedClient, silentExchange, form⟩
  have hlogin : (cloud (fun c => [c]) listingPrimitives).step
      (working recordedClient [.token .listDevices token]) (.start .login silentExchange) =
        some (working recordedClient [.token .listDevices token, silent],
          [.called 1 .token silentExchange]) := by
    show some (post listingPrimitives (working recordedClient _) 1 .token
      (tokenCall recordedClient) silentExchange (.token .login) (loginFails .login)) = _
    unfold post
    rw [show (working recordedClient _).client.gateway = {} from rfl, hform]
    rfl
  obtain ⟨login, hlogin', htokenStep⟩ := step_token htoken [silent]
  obtain ⟨homes, hhomes, hloginStep⟩ := step_login hlogin' [silent]
  obtain ⟨first, hfirst, hhomesStep⟩ := step_homes hhomes [silent]
  have htimeout : ∃ exception, (cloud (fun c => [c]) listingPrimitives).step
      (working listingClient [.devices accountSession first homesAfter {}, silent])
      (.answer 1 silentExchange) =
        some (working listingClient [.devices accountSession first homesAfter {}, .ended],
          [.ended 1 (.loggedIn (.error exception))]) := ⟨_, rfl⟩
  obtain ⟨exception, htimeout⟩ := htimeout
  obtain ⟨second, hsecond, hfirstStep⟩ := step_firstList hfirst [.ended]
  have hsecondStep := step_secondList hsecond [.ended] silentExchange
  have hruns : (cloud (fun c => [c]) listingPrimitives).Runs Machine.Free
      (new recordedClient false) _ _ _ :=
    .snoc (.snoc (.snoc (.snoc (.snoc (.snoc (.snoc (.snoc .refl trivial hstart) trivial hlogin)
      trivial htokenStep) trivial hloginStep) trivial hhomesStep) trivial htimeout)
      trivial hfirstStep) trivial hsecondStep
  obtain ⟨hclient, hended, -⟩ := tasks_isolated hruns
  exact ⟨_, _, _, hruns, by simp, by simp, hclient, hended 0 _ (by simp)⟩

end Cloud

end TuyaBle
