import Mathlib.Data.List.Nodup
import TuyaBle.System.Joint

/-!
# The steps of a read with the device

What the session task, the callbacks and the reply tasks do keeps the joint invariant.
-/

namespace TuyaBle

open FakeBleakClient

namespace System

variable {P : Primitives} {D : Peripheral} {credentials : TuyaBleCredentials} {data : Bytes}
  {T : Clock → Prop} {random : Nat → InitializationVector} {info : DeviceInfo}
  {s : System} {w' : World} {os : List Obs}

/-! ## The session task is resumed -/

/-- Steps that change where the session task stands and nothing else. -/
theorem Inv.of_session (h : Inv P D credentials data T s) (hself : w'.self = s.client.self)
    (hn : w'.Numbered) (hi : w'.interrupt = none)
    (hl : w'.session ≠ .connecting → ¬ w'.session.over → s.client.self.client ≠ none)
    (hstage : Stage P D data T w'.session w'.self w'.futures s.device) :
    Inv P D credentials data T { s with client := w' } where
  numbered := hn
  credentials := by rw [hself]; exact h.credentials
  loginKey := by rw [hself]; exact h.loginKey
  version := by rw [hself]; exact h.version
  linked := by rw [hself]; exact hl
  writes := h.writes
  calm hne := absurd hi hne
  tasks := by rw [hself]; exact h.tasks
  keyed := by rw [hself]; exact h.keyed
  received := h.received
  stage := hstage

/-- No interrupt outside the collection and the teardown. -/
theorem Inv.interrupt_none (h : Inv P D credentials data T s)
    (ho : ¬ s.client.session.over) (hc : s.client.session.collected? = none) :
    s.client.interrupt = none := by
  cases hi : s.client.interrupt with
  | none => rfl
  | some i =>
    obtain ⟨-, hover | ⟨collected, hs, -⟩⟩ := h.calm (by rw [hi]; simp)
    · exact absurd hover ho
    · rw [hs] at hc
      cases hc

theorem Inv.interrupt_deadline (h : Inv P D credentials data T s) {i : Interrupt}
    (hi : s.client.interrupt = some i) : i = .deadline := by
  obtain ⟨hd, -⟩ := h.calm (by rw [hi]; simp)
  rw [hi] at hd
  exact Option.some.inj hd

/-- Before the first request. -/
theorem Before.of_connected {t : Turn} {self : TuyaBleClient} {futures : List Future}
    {device : FakeBleakClient} (h : Before P D data t self futures device)
    (client : Option TuyaBle.Link) :
    Before P D data t { self with client } futures device :=
  ⟨⟨h.key, h.received⟩, h.number, h.requests, h.background, h.reports, h.sent, h.quiet⟩

theorem Inv.of_woken (h : Inv P D credentials data T s)
    (hw : World.Woken s.client s.resumption w' os) :
    Inv P D credentials data T { s with client := w' } ∧
      ∀ outcome, .ended outcome ∈ os → Complete D T outcome := by
  have hn := h.numbered.of_woken hw
  have hstage := h.stage
  have hnone : ∀ {i : Interrupt}, s.client.interrupt = some i → ¬ s.client.session.over →
      s.client.session.collected? = none → False := fun hi ho hc => by
    rw [h.interrupt_none ho hc] at hi
    cases hi
  cases hw with
  | connected link hi hs hr =>
    rw [hs] at hstage
    refine ⟨⟨hn, h.credentials, h.loginKey, h.version, fun _ _ => nofun, h.writes,
      fun hne => absurd hi hne, h.tasks, h.keyed, h.received, ?_⟩, by simp⟩
    exact Before.of_connected hstage (some link)
  | subscribed hi hs =>
    rw [hs] at hstage
    have hlink := h.linked (by rw [hs]; simp) (by rw [hs]; exact id)
    refine ⟨h.of_session rfl hn hi (fun _ _ => hlink) ⟨deviceInfoTurn, by simp [turns], ?_, hstage⟩,
      by simp⟩
    simp only [TuyaBleClient.deviceInfoCall, h.loginKey]
    rfl
  | connectFailed e hi hs he hr =>
    rcases hs with hs | hs <;> simp [resumption, hi, hs] at hr
  | connectTimedOut hi hs =>
    exact (hnone hi (by rw [hs]; exact id) (by rw [hs]; rfl)).elim
  | connectCancelled i hi hs =>
    rcases hs with ⟨hs, -⟩ | hs <;>
      exact (hnone hi (by rw [hs]; exact id) (by rw [hs]; rfl)).elim
  | written request send hi hs hr =>
    rw [hs] at hstage
    have hlink := h.linked (by rw [hs]; simp) (by rw [hs]; exact id)
    exact ⟨h.of_session rfl hn hi (fun _ _ => hlink) hstage, by simp⟩
  | writeFailed request send e hi hs hr =>
    simp only [resumption, hi, hs, resultOf_ok h.writes] at hr
    cases hr
  | writeCancelled i request send hi hs =>
    exact (hnone hi (by rw [hs]; exact id) (by rw [hs]; rfl)).elim
  | replied request hi hs hf =>
    rw [hs] at hstage
    have hlink := h.linked (by rw [hs]; simp) (by rw [hs]; exact id)
    exact ⟨h.of_session rfl hn hi (fun _ _ => hlink) hstage, by simp⟩
  | waitEnded i request hi hs =>
    exact (hnone hi (by rw [hs]; exact id) (by rw [hs]; rfl)).elim
  | reported collected hi hs hr =>
    rw [hs] at hstage
    have hlink := h.linked (by rw [hs]; simp) (by rw [hs]; exact id)
    exact ⟨h.of_session rfl hn hi (fun _ _ => hlink) hstage, by simp⟩
  | quiet collected hi hs =>
    obtain ⟨-, hover | ⟨collected', hs', hreports, hquiet⟩⟩ := h.calm (by rw [hi]; simp)
    · rw [hs] at hover
      exact hover.elim
    · rw [hs] at hstage
      obtain ⟨past, flight, ha⟩ := hstage
      have hflight : flight = [] := ha.underway.nil_iff.1 hquiet
      have hpushed := ha.pushed
      have hgathered := ha.gathered
      rw [hflight, List.append_nil] at hpushed
      rw [hreports, List.foldl_nil] at hgathered
      have hlink := h.linked (by rw [hs]; simp) (by rw [hs]; exact id)
      exact ⟨h.of_session rfl hn rfl (fun _ _ => hlink)
        ⟨hquiet, ha.received, past, hpushed, ha.clocks, by rw [hgathered]⟩, by simp⟩
  | collectCancelled i collected hi hd hs => exact absurd (h.interrupt_deadline hi) hd
  | disconnected outcome hi hs =>
    rw [hs] at hstage
    obtain ⟨hquiet, hreceived, hcomplete⟩ := hstage
    refine ⟨h.of_session rfl hn rfl (fun _ ho => absurd trivial ho) ⟨hquiet, hreceived⟩,
      fun outcome' hm => ?_⟩
    cases List.mem_singleton.1 hm
    exact hcomplete
  | disconnectCancelled i outcome hi hd hs => exact absurd (h.interrupt_deadline hi) hd

/-! ## The session task runs -/

/-- What a step of the client comes to, its writes included. -/
def Kept (P : Primitives) (D : Peripheral) (credentials : TuyaBleCredentials) (data : Bytes)
    (T : Clock → Prop) (random : Nat → InitializationVector) (s : System) (w' : World)
    (os : List Obs) : Prop :=
  ∃ s', { s with client := w' }.transmit P D random os = some s' ∧ s'.client = w' ∧
    Inv P D credentials data T s' ∧ ∀ outcome, .ended outcome ∈ os → Complete D T outcome

theorem Kept.of_silent (hos : ∀ sender send packet, .wrote sender send packet ∉ os)
    (h : Inv P D credentials data T { s with client := w' })
    (he : ∀ outcome, .ended outcome ∈ os → Complete D T outcome) :
    Kept P D credentials data T random s w' os :=
  ⟨_, transmit_silent hos, rfl, h, he⟩

/-- A step that writes one packet, which the device takes. -/
theorem Kept.of_write {sender : Sender} {send : Send} {packet : Bytes} {device : FakeBleakClient}
    (before after : List Obs)
    (hw : s.device.writeGattChar P D random packet = some (device, .ok ()))
    (hb : ∀ sender send packet, .wrote sender send packet ∉ before)
    (ha : ∀ sender send packet, .wrote sender send packet ∉ after)
    (h : Inv P D credentials data T ⟨w', device, s.writes ++ [(sender, .ok ())]⟩)
    (he : ∀ outcome, .ended outcome ∈ before ++ .wrote sender send packet :: after →
      Complete D T outcome) :
    Kept P D credentials data T random s w' (before ++ .wrote sender send packet :: after) :=
  ⟨_, transmit_wrote (s := { s with client := w' }) before after hw hb ha, rfl, h, he⟩

theorem writes_concat {writes : List (Sender × Except PyException Unit)}
    (h : ∀ p ∈ writes, p.2 = .ok ()) (sender : Sender) :
    ∀ p ∈ writes ++ [(sender, .ok ())], p.2 = .ok () := by
  intro p hp
  rcases List.mem_append.1 hp with hp | hp
  · exact h p hp
  · rw [List.mem_singleton.1 hp]

/-- The key of a request is at hand. -/
theorem keyFor_call {w : World} {t : Turn}
    (hk : t.login = false → w.self.sessionKey = some (keyOf P D false)) :
    w.keyFor (t.call P D) = .ok (keyOf P D t.login) := by
  cases hl : t.login with
  | true => simp [World.keyFor, Turn.call, hl]
  | false => simp [World.keyFor, Turn.call, hl, TuyaBleClient.requireSessionKey, hk hl]

theorem length_data (hD : D.Serves credentials info data) {t : Turn} (ht : t ∈ turns data) :
    t.data.length ≤ 65535 := by
  have hrequest := length_buildPairingRequest hD.request
  simp only [turns, List.mem_cons, List.not_mem_nil, or_false] at ht
  rcases ht with rfl | rfl | rfl
  · exact Nat.zero_le _
  · show data.length ≤ 65535
    rw [hrequest]
    decide
  · exact Nat.zero_le _

/-- The frame of a request can be sent. -/
theorem startSend_request (hD : D.Serves credentials info data) {t : Turn} (ht : t ∈ turns data)
    {self : TuyaBleClient} (hv : self.protocolVersion < 16) (hc : self.client ≠ none)
    (iv : InitializationVector) :
    ∃ send, self.startSend P t.frame (keyOf P D t.login) (flagOf t.login) iv = some (.ok send) := by
  obtain ⟨client, hc⟩ := Option.ne_none_iff_exists'.1 hc
  have hindex := Turn.index_lt ht
  have hflag : flagOf t.login < 256 := by cases t.login <;> decide
  obtain ⟨payload, packets, he, hp, -⟩ := packets_of_frame P t.frame
    (keyOf P D t.login) iv (by simp only [Turn.frame]; omega) (Nat.two_pow_pos 32)
    (Turn.value_lt t.code) (length_data hD ht) hflag hv
  exact ⟨⟨t.frame, keyOf P D t.login, flagOf t.login, client, payload, packets⟩,
    by simp only [TuyaBleClient.startSend, hc, he, hp]⟩

theorem frameFor_call {w : World} {t : Turn} (hn : w.self.sequenceNumber = t.index + 1) :
    w.frameFor (t.call P D) = t.frame := by
  simp only [World.frameFor, Turn.call, Turn.frame, hn]

theorem Kept.of_requestSending (h : Inv P D credentials data T s) {call : Call} {key : AesKey}
    {send : Send} {iv : InitializationVector} (hs : s.client.session = .requesting call)
    (hk : s.client.keyFor call = .ok key)
    (hf : s.client.self.startSend P (s.client.frameFor call) key call.securityFlag iv =
      some (.ok send))
    (hn : ({ s.client.register with
      session := .sending (s.client.requestFor call) send } : World).Numbered) :
    Kept P D credentials data T random s
      { s.client.register with session := .sending (s.client.requestFor call) send }
      [.registered s.client.self.sequenceNumber, .built (s.client.frameFor call),
        .sending .session send] := by
  have hstage := h.stage
  rw [hs] at hstage
  obtain ⟨t, ht, rfl, hb⟩ := hstage
  have hlink := h.linked (by rw [hs]; simp) (by rw [hs]; exact id)
  have hpending : s.client.self.pending = [] := h.numbered.pending_nil (by rw [hs]; rfl)
  obtain rfl := Except.ok.inj ((keyFor_call hb.key).symm.trans hk)
  rw [frameFor_call hb.number] at hf
  obtain ⟨client, payload, packets, -, he, -, rfl⟩ := World.startSend_eq_ok hf
  obtain ⟨⟨-, hcarries⟩, -⟩ := Writes.fresh_of_startSend hf
  refine .of_silent (by simp) ⟨hn, h.credentials, h.loginKey, h.version, fun _ _ => hlink, h.writes,
    fun hne => absurd (h.interrupt_none (by rw [hs]; exact id) (by rw [hs]; rfl)) hne, ?_,
    h.keyed, h.received, ?_⟩ (by simp)
  · intro task hm
    have hm : task ∈ s.client.self.background := hm
    rw [hb.background] at hm
    cases hm
  · refine ⟨t, ht, .inl ⟨?_, ⟨hb.key, hb.received⟩, ⟨?_, ?_, ?_, ?_, hb.background, hb.reports⟩,
      sealed_of_encode he, hcarries s.device.reassembler, hb.sent, hb.quiet⟩⟩
    · simp only [World.requestFor, Turn.call, Turn.request, hb.number, hb.requests]
    · simp only [World.register, hb.number]
    · simp only [World.register, List.length_append, hb.requests, List.length_singleton]
    · simp [World.register, ← hb.requests]
    · simp only [World.register, hpending, hb.number, hb.requests]
      rfl

/-- The requests the device has got once it has the whole of one. -/
theorem requested_concat {device : FakeBleakClient} {t : Turn} (ht : t ∈ turns data)
    (h : device.requested = ((turns data).take t.index).map Turn.frame) :
    ({ device with received := device.received ++ [t.frame] } : FakeBleakClient).requested =
      ((turns data).take (t.index + 1)).map Turn.frame := by
  have hone : [t.frame].filter (fun frame => frame.responseTo = 0) = [t.frame] := rfl
  have hnext : (turns data).take (t.index + 1) = (turns data).take t.index ++ [t] := by
    simp only [turns, List.mem_cons, List.not_mem_nil, or_false] at ht
    rcases ht with rfl | rfl | rfl <;> rfl
  rw [requested] at h ⊢
  rw [List.filter_append, h, hone, hnext, List.map_append]
  rfl

theorem Kept.of_wrote (hD : D.Serves credentials info data) (h : Inv P D credentials data T s)
    {request : Request} {send : Send} {packet : Bytes} {rest : List Bytes}
    (hs : s.client.session = .sending request send) (hr : send.rest = packet :: rest)
    (hn : ({ s.client with session := .writing request { send with rest } } : World).Numbered) :
    Kept P D credentials data T random s
      { s.client with session := .writing request { send with rest } }
      [.wrote .session { send with rest } packet] := by
  have hstage := h.stage
  rw [hs] at hstage
  have hlink := h.linked (by rw [hs]; simp) (by rw [hs]; exact id)
  have hi := h.interrupt_none (by rw [hs]; exact id) (by rw [hs]; rfl)
  obtain ⟨t, ht, ⟨rfl, hwriting⟩ | ⟨hnil, -⟩⟩ := hstage
  · have hcarries := hwriting.carries
    rw [hr] at hcarries
    have htasks : ∀ device lastWriter, ∀ task ∈ s.client.self.background,
        Task P D device lastWriter task := by
      intro device lastWriter task hm
      rw [hwriting.background] at hm
      cases hm
    rcases hcarries.cons with ⟨rfl, hfeed⟩ | ⟨hne, hfeed, hcarries⟩
    · -- the device has the whole request, and answers it
      have hsent : ({ s.device with reassembler := .new } : FakeBleakClient).sequenceNumber =
          100 + t.index := hwriting.sent
      obtain ⟨notifications, haccept, hunder⟩ := accept_request P random hD ht hsent hwriting.quiet
        s.client.self.reassembler
      have hwrite := (writeGattChar_last random hfeed hwriting.payload).trans haccept
      refine .of_write [] [] hwrite (by simp) (by simp)
        ⟨hn, h.credentials, h.loginKey, h.version, fun _ _ => hlink, writes_concat h.writes _,
          fun hne => absurd hi hne, htasks _ _, h.keyed, fun frame hm hne => ?_,
          t, ht, .inr ⟨rfl, rfl, .inl ⟨⟨hwriting.key, ?_⟩, hwriting.toUnanswered, hunder, rfl⟩⟩⟩
        (by simp)
      · rcases List.mem_append.1 hm with hm | hm
        · exact h.received frame hm hne
        · rw [List.mem_singleton.1 hm] at hne
          exact absurd rfl hne
      · exact requested_concat ht hwriting.received
    · exact .of_write [] [] (writeGattChar_part random hfeed) (by simp) (by simp)
        ⟨hn, h.credentials, h.loginKey, h.version, fun _ _ => hlink, writes_concat h.writes _,
          fun hne => absurd hi hne, htasks _ _, h.keyed, h.received,
          t, ht, .inl ⟨rfl, ⟨hwriting.key, hwriting.received⟩, hwriting.toUnanswered,
            hwriting.payload, hcarries, hwriting.sent, hwriting.quiet⟩⟩
        (by simp)
  · rw [hr] at hnil
    cases hnil

/-- The request after one the device answers with nothing else. -/
theorem Answered.next {t t' : Turn} {collected : Dict Nat DataPoint}
    {past : List (Frame × Clock)} {flight : List SentFrame} {client client' : TuyaBleClient}
    {futures : List Future} {device : FakeBleakClient}
    (h : Answered P D data T t collected past flight client futures device)
    (hp : t.pushed D = []) (hindex : t'.index = t.index + 1)
    (hn : client'.sequenceNumber = client.sequenceNumber)
    (hb : client'.background = client.background) (hr : client'.reports = client.reports)
    (hk : t'.login = false → client'.sessionKey = some (keyOf P D false)) :
    Before P D data t' client' futures device := by
  have hpushed := h.pushed
  rw [hp] at hpushed
  obtain ⟨hpast, hflight⟩ := List.append_eq_nil_iff.1 hpushed.symm
  obtain ⟨hnumber, hbackground, hreports⟩ := h.fresh (List.map_eq_nil_iff.1 hpast)
  have hsent := h.sent
  rw [hp, List.length_nil] at hsent
  refine ⟨⟨hk, ?_⟩, ?_, ?_, hb.trans hbackground, hr.trans hreports, ?_,
    h.underway.nil_iff.2 hflight⟩
  · rw [hindex]
    exact h.received
  · rw [hn, hnumber, hindex]
  · rw [h.requests, hindex]
  · rw [hsent, hindex]
    omega

theorem Inv.of_adopted (hD : D.Serves credentials info data) (h : Inv P D credentials data T s)
    {reply : Frame} {info' : DeviceInfo} {data' : Bytes}
    (hs : s.client.session = .replied .senderDeviceInfo reply)
    (hp : parseDeviceInfo reply.data = .ok info')
    (hb : buildPairingRequest s.client.self.credentials = .ok data')
    (hn : ({ s.client with self := s.client.self.adoptDeviceInfo P info'
                           session := .requesting (pairCall data') } : World).Numbered) :
    Inv P D credentials data T
      { s with client := { s.client with self := s.client.self.adoptDeviceInfo P info'
                                         session := .requesting (pairCall data') } } := by
  have hstage := h.stage
  rw [hs] at hstage
  have hlink := h.linked (by rw [hs]; simp) (by rw [hs]; exact id)
  have hi := h.interrupt_none (by rw [hs]; exact id) (by rw [hs]; rfl)
  obtain ⟨t, ht, hcode, rfl, past, flight, ha⟩ := hstage
  obtain rfl : t = deviceInfoTurn := by
    simp only [turns, List.mem_cons, List.not_mem_nil, or_false] at ht
    rcases ht with rfl | rfl | rfl
    · rfl
    · cases hcode
    · cases hcode
  obtain rfl := Except.ok.inj (hD.deviceInfo.symm.trans hp)
  rw [h.credentials] at hb
  obtain rfl := Except.ok.inj (hD.request.symm.trans hb)
  have hkey : some (sessionKey P s.client.self.credentials.localKey info.srand) =
      some (keyOf P D false) := by
    rw [h.credentials, hD.srand, ← hD.localKey]
    rfl
  exact ⟨hn, h.credentials, h.loginKey, hD.version, fun _ _ => hlink, h.writes,
    fun hne => absurd hi hne, h.tasks, fun _ => hkey, h.received, pairTurn data, by simp [turns],
    rfl, ha.next rfl rfl rfl rfl rfl fun _ => hkey⟩

/-- What is answered stays so while the task goes on. -/
theorem Answered.of_same {t : Turn} {collected : Dict Nat DataPoint}
    {past : List (Frame × Clock)} {flight : List SentFrame} {client : TuyaBleClient}
    {futures : List Future} {device : FakeBleakClient}
    (h : Answered P D data T t collected past flight client futures device)
    (pending : Dict Nat FutureId) :
    Answered P D data T t collected past flight { client with pending } futures device :=
  ⟨⟨h.key, h.received⟩, h.pushed, h.underway, h.gathered, h.requests, h.sent, h.fresh, h.clocks⟩

theorem Inv.of_advanced (hD : D.Serves credentials info data) (h : Inv P D credentials data T s)
    {iv : InitializationVector} (ha : World.Advanced P s.client iv w' os) :
    Kept P D credentials data T random s w' os := by
  have hn := h.numbered.of_advanced ha
  have hstage := h.stage
  have hi : ∀ {session : Session}, s.client.session = session → ¬ session.over →
      session.collected? = none → s.client.interrupt = none := fun hs ho hc =>
    h.interrupt_none (by rw [hs]; exact ho) (by rw [hs]; exact hc)
  have hlink : ∀ {session : Session}, s.client.session = session → ¬ session.over →
      session ≠ .connecting → s.client.self.client ≠ none := fun hs ho hc =>
    h.linked (by rw [hs]; exact hc) (by rw [hs]; exact ho)
  cases ha with
  | requestFailed call e hs hf =>
    rw [hs] at hstage
    obtain ⟨t, ht, rfl, hb⟩ := hstage
    have hkey := keyFor_call hb.key
    obtain ⟨send, hsend⟩ := startSend_request hD ht h.version (hlink hs id (by simp)) iv
    rcases hf with hf | ⟨key, hk, hf⟩
    · rw [hkey] at hf
      cases hf
    · rw [hkey] at hk
      obtain rfl := Except.ok.inj hk
      rw [frameFor_call hb.number] at hf
      cases hsend.symm.trans hf
  | requestSending call key send hs hk hf => exact .of_requestSending h hs hk hf hn
  | sent request send hs hr =>
    rw [hs] at hstage
    obtain ⟨t, ht, ⟨rfl, hwriting⟩ | ⟨-, hwritten⟩⟩ := hstage
    · have hcarries := hwriting.carries
      rw [hr] at hcarries
      cases congrArg Prod.snd hcarries
    · exact .of_silent (by simp) (h.of_session rfl hn (hi hs id rfl)
        (fun _ _ => hlink hs id (by simp)) ⟨t, ht, hwritten⟩) (by simp)
  | wrote request send packet rest hs hr => exact .of_wrote hD h hs hr hn
  | returned request reply hs hf =>
    rw [hs] at hstage
    obtain ⟨t, ht, rfl, hasked | ⟨hdone, -, past, flight, hanswered⟩⟩ := hstage
    · have hpending : s.client.futures[t.index]? = some .pending := hasked.future
      have hf : s.client.futures[t.index]? = some (.done reply) := hf
      rw [hpending] at hf
      cases hf
    · have hf : s.client.futures[t.index]? = some (.done reply) := hf
      rw [hdone] at hf
      cases hf
      exact .of_silent (by simp) ⟨hn, h.credentials, h.loginKey, h.version,
        fun _ _ => hlink hs id (by simp), h.writes, fun hne => absurd (hi hs id rfl) hne, h.tasks,
        h.keyed, h.received, t, ht, rfl, rfl, past, flight, hanswered.of_same _⟩ (by simp)
  | replyCancelled request hs hf =>
    rw [hs] at hstage
    obtain ⟨t, ht, rfl, hasked | ⟨hdone, -⟩⟩ := hstage
    · have hpending : s.client.futures[t.index]? = some .pending := hasked.future
      have hf : s.client.futures[t.index]? = some .cancelled := hf
      rw [hpending] at hf
      cases hf
    · have hf : s.client.futures[t.index]? = some .cancelled := hf
      rw [hdone] at hf
      cases hf
  | waiting request hs hf =>
    rw [hs] at hstage
    exact .of_silent (by simp) (h.of_session rfl hn (hi hs id rfl)
      (fun _ _ => hlink hs id (by simp)) hstage) (by simp)
  | failed request e hs =>
    rw [hs] at hstage
    exact hstage.elim
  | refused code reply e hs hr =>
    rw [hs] at hstage
    obtain ⟨t, ht, rfl, rfl, -⟩ := hstage
    rcases hr with ⟨hcode, hp⟩ | ⟨hcode, hp⟩
    · simp only [Turn.reply, Turn.replyData, hcode, hD.deviceInfo] at hp
      cases hp
    · simp only [Turn.reply, Turn.replyData, hcode, hD.pairing] at hp
      cases hp
  | adopted reply info' data' hs hp hb =>
    exact .of_silent (by simp) (h.of_adopted hD hs hp hb hn) (by simp)
  | adoptedOnly reply info' e hs hp hb =>
    rw [h.credentials, hD.request] at hb
    cases hb
  | paired reply hs hv =>
    rw [hs] at hstage
    obtain ⟨t, ht, hcode, rfl, past, flight, hanswered⟩ := hstage
    obtain rfl : t = pairTurn data := by
      simp only [turns, List.mem_cons, List.not_mem_nil, or_false] at ht
      rcases ht with rfl | rfl | rfl
      · cases hcode
      · rfl
      · cases hcode
    exact .of_silent (by simp) (h.of_session rfl hn (hi hs id rfl)
      (fun _ _ => hlink hs id (by simp)) ⟨deviceStatusTurn, by simp [turns], rfl,
        hanswered.next rfl rfl rfl rfl rfl fun _ => hanswered.key rfl⟩) (by simp)
  | acknowledged code reply hs hinfo hpair =>
    rw [hs] at hstage
    obtain ⟨t, ht, hcode, rfl, past, flight, hanswered⟩ := hstage
    obtain rfl : t = deviceStatusTurn := by
      simp only [turns, List.mem_cons, List.not_mem_nil, or_false] at ht
      rcases ht with rfl | rfl | rfl
      · exact absurd hcode hinfo
      · exact absurd hcode hpair
      · rfl
    exact .of_silent (by simp) (h.of_session rfl hn (hi hs id rfl)
      (fun _ _ => hlink hs id (by simp)) ⟨past, flight, hanswered⟩) (by simp)
  | drained collected hs =>
    rw [hs] at hstage
    obtain ⟨past, flight, hanswered⟩ := hstage
    refine .of_silent (by simp) ⟨hn, h.credentials, h.loginKey, h.version,
      fun _ _ => hlink hs id (by simp), h.writes, fun hne => absurd (hi hs id rfl) hne, h.tasks,
      h.keyed, h.received, past, flight, ⟨hanswered.key, hanswered.received⟩, hanswered.pushed,
      hanswered.underway, hanswered.gathered, hanswered.requests, hanswered.sent, fun hpast => ?_,
      hanswered.clocks⟩ (by simp)
    obtain ⟨hnumber, hbackground, -⟩ := hanswered.fresh hpast
    exact ⟨hnumber, hbackground, rfl⟩
  | reset outcome link hs hc =>
    rw [hs] at hstage
    obtain ⟨hquiet, hreceived, past, hpushed, hclocks, rfl⟩ := hstage
    exact .of_silent (by simp [World.cancelled]) ⟨hn, h.credentials, h.loginKey, h.version,
      fun _ ho => absurd trivial ho, h.writes, fun hne => absurd rfl hne,
      fun _ hm => absurd hm List.not_mem_nil, fun hne => absurd rfl hne, h.received, hquiet,
      hreceived, past, hpushed, hclocks, rfl⟩
      (by simp [World.cancelled])
  | ended outcome hs hc => exact absurd hc (hlink hs id (by simp))

/-! ## A packet of the device is delivered -/

section Deliver

variable {packet : Bytes} {rest : List Bytes} {clock : Clock} {t : Turn}
  {client : TuyaBleClient} {flight : List SentFrame}

theorem eq_deviceStatusTurn (ht : t ∈ turns data) {sent : SentFrame} (h : sent ∈ t.pushed D) :
    t = deviceStatusTurn := by
  simp only [turns, List.mem_cons, List.not_mem_nil, or_false] at ht
  rcases ht with rfl | rfl | rfl
  · cases h
  · cases h
  · rfl

/-- The next packet completes no frame, or the first of those under way, which the client
can read. -/
theorem receive_underway (hu : Underway P D client.reassembler (packet :: rest) flight)
    (hlogin : client.loginKey = keyOf P D true)
    (hkey : ∀ sent ∈ flight, sent.2 = false → client.sessionKey = some (keyOf P D false)) :
    (client.receive P packet).2 = .ok none ∧
        Underway P D (client.reassembler.feed packet).1 rest flight ∨
      ∃ sent flight', flight = sent :: flight' ∧ (client.receive P packet).2 = .ok (some sent.1) ∧
        Underway P D (client.reassembler.feed packet).1 rest flight' := by
  rcases hu.cons with ⟨hnone, hrest⟩ | ⟨sent, flight', payload, rfl, hsome, ⟨hflag, hdecode⟩, hrest⟩
  · refine .inl ⟨?_, hrest⟩
    unfold TuyaBleClient.receive
    split <;> rename_i hf <;> rw [hf] at hnone <;> cases hnone
  · refine .inr ⟨sent, flight', rfl, ?_, hrest⟩
    have hread : client.readPayload P payload = .ok (some sent.1) := by
      have hfor : client.keyFor (flagOf sent.2) = some (keyOf P D sent.2) := by
        cases hl : sent.2 with
        | true => rw [← hlogin]; rfl
        | false => rw [← hkey sent (List.mem_cons_self ..) hl]; rfl
      simp only [TuyaBleClient.readPayload, hflag, bind, Except.bind, hfor, hdecode]
      rfl
    unfold TuyaBleClient.receive
    split <;> rename_i hf <;> rw [hf] at hsome <;> cases hsome
    exact hread

/-- The answer to a request reaches it. -/
theorem Asked.of_notified {w : World} {device : FakeBleakClient}
    (h : Asked P D data t w.self w.futures device) (ht : t ∈ turns data)
    (hlogin : w.self.loginKey = keyOf P D true) (hd : device.notifications = packet :: rest)
    (hn : World.Notified P w packet clock w' os) :
    Written P D data T t t.request w'.self w'.futures { device with notifications := rest } ∧
      w'.self.background = w.self.background := by
  have hkey : ∀ sent ∈ (t.reply D, t.login) :: t.pushed D, sent.2 = false →
      w.self.sessionKey = some (keyOf P D false) := by
    intro sent hm hfalse
    rcases List.mem_cons.1 hm with rfl | hm
    · exact h.key hfalse
    · exact h.key (by rw [eq_deviceStatusTurn ht hm]; rfl)
  have hunder := h.underway
  rw [hd] at hunder
  have hget : w.self.pending.get? (t.reply D).responseTo = some t.index := by
    rw [h.pending]
    exact if_pos rfl
  have hawaited : w.awaited (t.reply D) = some t.index := by
    rw [World.awaited, hget, Option.filter_some, h.future]
    rfl
  rcases receive_underway hunder hlogin hkey with ⟨hnone, hrest⟩ | ⟨sent, flight', he, hsome, hrest⟩
  · cases hn with
    | quiet => exact ⟨⟨rfl, .inl ⟨⟨h.key, h.received⟩, ⟨h.number, h.requests, h.future, h.pending,
        h.background, h.reports⟩, hrest, h.sent⟩⟩, rfl⟩
    | completed frame future hr => rw [hnone] at hr; cases hr
    | ignored frame hr => rw [hnone] at hr; cases hr
    | handled frame dataPoints data hr => rw [hnone] at hr; cases hr
  · obtain ⟨rfl, rfl⟩ := List.cons.inj he
    cases hn with
    | quiet hq => exact absurd hsome (hq _)
    | completed frame future hr ha =>
      rw [hsome] at hr
      obtain rfl := Option.some.inj (Except.ok.inj hr)
      rw [hawaited] at ha
      obtain rfl := Option.some.inj ha
      have hlt : t.index < w.futures.length := by rw [h.requests]; exact Nat.lt_succ_self _
      refine ⟨⟨rfl, .inr ⟨?_, ?_, [], t.pushed D, ⟨h.key, h.received⟩, rfl, hrest, ?_, ?_, h.sent,
        fun _ => ⟨h.number, h.background, h.reports⟩, fun _ hm => absurd hm List.not_mem_nil⟩⟩, rfl⟩
      · exact List.getElem?_set_self hlt
      · show w.self.pending.erase (t.index + 1) = []
        rw [h.pending]
        exact if_pos rfl
      · show w.self.reports.foldl _ _ = _
        rw [h.reports]
        rfl
      · rw [List.length_set, h.requests]
    | ignored frame hr ha =>
      rw [hsome] at hr
      obtain rfl := Option.some.inj (Except.ok.inj hr)
      rw [hawaited] at ha
      cases ha
    | handled frame dataPoints data hr ha =>
      rw [hsome] at hr
      obtain rfl := Option.some.inj (Except.ok.inj hr)
      rw [hawaited] at ha
      cases ha

/-- One frame more in the past. -/
theorem gatherPast_concat (past : List (Frame × Clock)) (frame : Frame) (clock : Clock) :
    gatherPast (past ++ [(frame, clock)]) =
      (reportOf frame clock).toList.foldl (fun d r => d.setAll DataPoint.identifier r)
        (gatherPast past) := by
  rw [gatherPast, List.filterMap_append, List.foldl_append, gatherPast]
  cases h : reportOf frame clock with
  | none => simp [h]
  | some dataPoints => simp [h]

/-- What comes behind the answer is taken one frame after the other, and answered. -/
theorem Answered.of_notified {w : World} {device : FakeBleakClient}
    {collected : Dict Nat DataPoint} {past : List (Frame × Clock)}
    (h : Answered P D data T t collected past flight w.self w.futures device) (ht : t ∈ turns data)
    (hlogin : w.self.loginKey = keyOf P D true) (hpending : w.self.pending = [])
    (hd : device.notifications = packet :: rest) (hn : World.Notified P w packet clock w' os)
    (hT : T clock) :
    (∃ past' flight', Answered P D data T t collected past' flight' w'.self w'.futures
        { device with notifications := rest }) ∧
      w'.futures = w.futures ∧ w'.self.pending = [] ∧
      ∀ task ∈ w'.self.background, task ∈ w.self.background ∨
        task.send = none ∧ Acknowledges D task.frame ∧
          w.self.sessionKey = some (keyOf P D false) := by
  have hpushed := h.pushed
  have hmem : ∀ sent ∈ flight, sent ∈ t.pushed D := fun sent hm => by
    rw [hpushed]
    exact List.mem_append_right _ hm
  have hkey : ∀ sent ∈ flight, sent.2 = false →
      w.self.sessionKey = some (keyOf P D false) := fun sent hm _ =>
    h.key (by rw [eq_deviceStatusTurn ht (hmem sent hm)]; rfl)
  have hawaited : ∀ frame, w.awaited frame = none := fun frame => by
    rw [World.awaited, hpending]
    rfl
  have hunder := h.underway
  rw [hd] at hunder
  rcases receive_underway hunder hlogin hkey with
    ⟨hnone, hrest⟩ | ⟨sent, flight', rfl, hsome, hrest⟩
  · cases hn with
    | quiet =>
      exact ⟨⟨past, flight, ⟨h.key, h.received⟩, hpushed, hrest, h.gathered, h.requests, h.sent,
        h.fresh, h.clocks⟩, rfl, hpending, fun _ hm => .inl hm⟩
    | completed frame future hr => rw [hnone] at hr; cases hr
    | ignored frame hr => rw [hnone] at hr; cases hr
    | handled frame dataPoints data hr => rw [hnone] at hr; cases hr
  · obtain ⟨-, -, hfalse⟩ := mem_pushed (hmem sent (List.mem_cons_self ..))
    have hsplit : t.pushed D =
        (past ++ [(sent.1, clock)]).map (fun p => (p.1, false)) ++ flight' := by
      rw [hpushed, List.map_append, List.append_assoc, ← hfalse]
      rfl
    have hfresh : ∀ {q : Prop}, past ++ [(sent.1, clock)] = [] → q := fun he =>
      absurd he (List.append_ne_nil_of_right_ne_nil _ (List.cons_ne_nil _ _))
    have hclocks : ∀ p ∈ past ++ [(sent.1, clock)], T p.2 := fun p hm => by
      rcases List.mem_append.1 hm with hm | hm
      · exact h.clocks p hm
      · rw [List.mem_singleton.1 hm]
        exact hT
    cases hn with
    | quiet hq => exact absurd hsome (hq _)
    | completed frame future hr ha =>
      rw [hawaited] at ha
      cases ha
    | ignored frame hr ha hc =>
      rw [hsome] at hr
      obtain rfl := Option.some.inj (Except.ok.inj hr)
      refine ⟨⟨past ++ [(sent.1, clock)], flight', ⟨h.key, h.received⟩, hsplit, hrest, ?_,
        h.requests, h.sent, hfresh, hclocks⟩, rfl, ?_, fun _ hm => .inl hm⟩
      · rw [gatherPast_concat, Reports.reportOf_eq_none hc]
        exact h.gathered
      · show w.self.pending.erase _ = []
        rw [hpending]
        rfl
    | handled frame dataPoints data hr ha hc =>
      rw [hsome] at hr
      obtain rfl := Option.some.inj (Except.ok.inj hr)
      refine ⟨⟨past ++ [(sent.1, clock)], flight', ⟨h.key, h.received⟩, hsplit, hrest, ?_,
        h.requests, h.sent, hfresh, hclocks⟩, rfl, ?_, fun task hm => ?_⟩
      · rw [gatherPast_concat, (Reports.queued_of_commandOf hc).1, ← h.gathered,
          ← List.foldl_append]
        rfl
      · show w.self.pending.erase _ = []
        rw [hpending]
        rfl
      · rcases List.mem_append.1 hm with hm | hm
        · exact .inl hm
        · rw [List.mem_singleton.1 hm]
          have hin := hmem sent (List.mem_cons_self ..)
          exact .inr ⟨rfl, ⟨sent, eq_deviceStatusTurn ht hin ▸ hin, rfl, rfl⟩,
            hkey sent (List.mem_cons_self ..) hfalse⟩

/-- What a notification leaves alone. -/
theorem notified_same {w : World} (hn : World.Notified P w packet clock w' os) :
    w'.session = w.session ∧ w'.interrupt = w.interrupt ∧
      w'.self.credentials = w.self.credentials ∧ w'.self.loginKey = w.self.loginKey ∧
      w'.self.protocolVersion = w.self.protocolVersion ∧ w'.self.client = w.self.client ∧
      w'.self.sessionKey = w.self.sessionKey := by
  cases hn <;> exact ⟨rfl, rfl, rfl, rfl, rfl, rfl, rfl⟩

theorem notified_silent {w : World} (hn : World.Notified P w packet clock w' os) :
    (∀ sender send packet, .wrote sender send packet ∉ os) ∧
      ∀ outcome : Outcome, .ended outcome ∉ os := by
  cases hn <;> simp [TuyaBleClient.handledObs]

/-- What a delivery makes of a stage in which something is under way. -/
theorem Stage.of_notified {w : World} {device : FakeBleakClient} (hnumbered : w.Numbered)
    (h : Stage P D data T w.session w.self w.futures device)
    (hlogin : w.self.loginKey = keyOf P D true) (hd : device.notifications = packet :: rest)
    (hn : World.Notified P w packet clock w' os) (hT : T clock) :
    Stage P D data T w.session w'.self w'.futures { device with notifications := rest } ∧
      ∀ task ∈ w'.self.background, task ∈ w.self.background ∨
        task.send = none ∧ Acknowledges D task.frame ∧
          w.self.sessionKey = some (keyOf P D false) := by
  have hquiet : device.notifications ≠ [] := by rw [hd]; exact List.cons_ne_nil _ _
  have hwritten : ∀ {t : Turn} {request : Request}, t ∈ turns data →
      Written P D data T t request w.self w.futures device →
      Written P D data T t request w'.self w'.futures { device with notifications := rest } ∧
        ∀ task ∈ w'.self.background, task ∈ w.self.background ∨
          task.send = none ∧ Acknowledges D task.frame ∧
          w.self.sessionKey = some (keyOf P D false) := by
    rintro t request ht ⟨rfl, hasked | ⟨hdone, hpending, past, flight, hanswered⟩⟩
    · obtain ⟨hw, hb⟩ := hasked.of_notified ht hlogin hd hn
      exact ⟨hw, fun task hm => .inl (hb ▸ hm)⟩
    · obtain ⟨⟨past', flight', ha⟩, hfutures, hp, hb⟩ :=
        hanswered.of_notified ht hlogin hpending hd hn hT
      exact ⟨⟨rfl, .inr ⟨hfutures ▸ hdone, hp, past', flight', ha⟩⟩, hb⟩
  have hanswered : ∀ {t : Turn} {collected : Dict Nat DataPoint}, t ∈ turns data →
      w.self.pending = [] →
      (∃ past flight, Answered P D data T t collected past flight w.self w.futures device) →
      (∃ past flight, Answered P D data T t collected past flight w'.self w'.futures
        { device with notifications := rest }) ∧
        ∀ task ∈ w'.self.background, task ∈ w.self.background ∨
          task.send = none ∧ Acknowledges D task.frame ∧
          w.self.sessionKey = some (keyOf P D false) := by
    rintro t collected ht hpending ⟨past, flight, ha⟩
    obtain ⟨hnext, -, -, hb⟩ := ha.of_notified ht hlogin hpending hd hn hT
    exact ⟨hnext, hb⟩
  have hpending : w.session.request? = none → w.self.pending = [] := hnumbered.pending_nil
  cases hs : w.session with
  | idle => rw [hs] at h; exact absurd h.1 hquiet
  | connecting => rw [hs] at h; exact absurd h.quiet hquiet
  | subscribing => rw [hs] at h; exact absurd h.quiet hquiet
  | requesting call =>
    rw [hs] at h
    obtain ⟨t, -, -, hb⟩ := h
    exact absurd hb.quiet hquiet
  | sending request send =>
    rw [hs] at h
    obtain ⟨t, ht, ⟨-, hwriting⟩ | ⟨hr, hw⟩⟩ := h
    · exact absurd hwriting.quiet hquiet
    · obtain ⟨hw, hb⟩ := hwritten ht hw
      exact ⟨⟨t, ht, .inr ⟨hr, hw⟩⟩, hb⟩
  | writing request send =>
    rw [hs] at h
    obtain ⟨t, ht, ⟨-, hwriting⟩ | ⟨hr, hw⟩⟩ := h
    · exact absurd hwriting.quiet hquiet
    · obtain ⟨hw, hb⟩ := hwritten ht hw
      exact ⟨⟨t, ht, .inr ⟨hr, hw⟩⟩, hb⟩
  | replyDue request =>
    rw [hs] at h
    obtain ⟨t, ht, hw⟩ := h
    obtain ⟨hw, hb⟩ := hwritten ht hw
    exact ⟨⟨t, ht, hw⟩, hb⟩
  | waiting request =>
    rw [hs] at h
    obtain ⟨t, ht, hw⟩ := h
    obtain ⟨hw, hb⟩ := hwritten ht hw
    exact ⟨⟨t, ht, hw⟩, hb⟩
  | replied code reply =>
    rw [hs] at h
    obtain ⟨t, ht, hc, hr, ha⟩ := h
    obtain ⟨ha, hb⟩ := hanswered ht (hpending (by rw [hs]; rfl)) ha
    exact ⟨⟨t, ht, hc, hr, ha⟩, hb⟩
  | failed request e => rw [hs] at h; exact h.elim
  | draining collected =>
    rw [hs] at h
    exact hanswered (by simp [turns]) (hpending (by rw [hs]; rfl)) h
  | collecting collected =>
    rw [hs] at h
    exact hanswered (by simp [turns]) (hpending (by rw [hs]; rfl)) h
  | leaving outcome => rw [hs] at h; exact absurd h.1 hquiet
  | disconnecting outcome => rw [hs] at h; exact absurd h.1 hquiet

theorem Inv.of_notified (h : Inv P D credentials data T s)
    (hd : s.device.notifications = packet :: rest)
    (hn : World.Notified P s.client packet clock w' os) (hT : T clock) :
    Inv P D credentials data T ⟨w', { s.device with notifications := rest }, s.writes⟩ := by
  obtain ⟨hsession, hinterrupt, hc, hl, hv, hclient, hkey⟩ := notified_same hn
  obtain ⟨hstage, htasks⟩ := h.stage.of_notified h.numbered h.loginKey hd hn hT
  refine ⟨h.numbered.of_notified hn, hc.trans h.credentials, hl.trans h.loginKey, hv ▸ h.version,
    by rw [hsession, hclient]; exact h.linked, h.writes, fun hne => ?_, fun task hm => ?_,
    fun hne => ?_, h.received, by rw [hsession]; exact hstage⟩
  · rw [hinterrupt] at hne ⊢
    obtain ⟨hdeadline, hover | ⟨-, -, -, hquiet⟩⟩ := h.calm hne
    · exact ⟨hdeadline, .inl (by rw [hsession]; exact hover)⟩
    · rw [hd] at hquiet
      cases hquiet
  · rcases htasks task hm with hm | ⟨hnone, hacknowledges, -⟩
    · exact ⟨(h.tasks task hm).answers, (h.tasks task hm).payload, (h.tasks task hm).carries⟩
    · exact ⟨hacknowledges, fun send hs => (by rw [hnone] at hs; cases hs),
        fun send hs => (by rw [hnone] at hs; cases hs)⟩
  · obtain ⟨task, hm⟩ := List.exists_mem_of_ne_nil _ hne
    rw [hkey]
    rcases htasks task hm with hm | ⟨-, -, hkey⟩
    · exact h.keyed (List.ne_nil_of_mem hm)
    · exact hkey

end Deliver

/-! ## A deadline expires -/

theorem Inv.of_fire (h : Inv P D credentials data T s) {i : Interrupt} (hc : Calm s (.fire i))
    (hf : s.client.fire i = some (w', os)) :
    Inv P D credentials data T { s with client := w' } := by
  have hn := h.numbered.of_fire hf
  have hstage := h.stage
  obtain ⟨hr, rfl, futures, rfl, hfutures⟩ := World.fire_eq hf
  obtain ⟨rfl, hquiet, hawait⟩ := hc
  have hnotWaiting : ∀ request, s.client.session ≠ .waiting request := by
    intro request hs
    rw [hs] at hstage hawait
    obtain ⟨t, ht, rfl, hasked | ⟨hdone, -⟩⟩ := hstage
    · exact absurd (hasked.underway.nil_iff.1 hquiet) (List.cons_ne_nil _ _)
    · have hpending : s.client.futures[t.index]? = some .pending := hawait
      rw [hdone] at hpending
      cases hpending
  obtain rfl : futures = s.client.futures := by
    rcases hfutures with rfl | ⟨request, hs, -⟩
    · rfl
    · exact absurd hs (hnotWaiting request)
  have hinterrupt : Interrupt.outermost s.client.interrupt .deadline = .deadline := by
    cases hi : s.client.interrupt with
    | none => rfl
    | some i =>
      obtain rfl := h.interrupt_deadline hi
      rfl
  refine ⟨hn, h.credentials, h.loginKey, h.version, h.linked, h.writes, fun _ => ⟨?_, ?_⟩, h.tasks,
    h.keyed, h.received, hstage⟩
  · exact congrArg some hinterrupt
  · cases hs : s.client.session with
    | waiting request => exact absurd hs (hnotWaiting request)
    | collecting collected =>
      rw [hs] at hawait
      exact .inr ⟨collected, rfl, hawait, hquiet⟩
    | disconnecting outcome => exact .inl trivial
    | _ => rw [hs] at hawait; exact hawait.elim

/-! ## A reply task goes on -/

section Reply

variable {number : Nat} {task : ReplyTask} {send : Send}

/-- Where there are reply tasks, what becomes of them does not matter to the session. -/
theorem Stage.of_tasks {session : Session} {client : TuyaBleClient} {futures : List Future}
    {device device' : FakeBleakClient} (h : Stage P D data T session client futures device)
    (hne : client.background ≠ []) (background : List ReplyTask)
    (hs : device'.sequenceNumber = device.sequenceNumber)
    (hn : device'.notifications = device.notifications)
    (hr : device'.requested = device.requested) :
    Stage P D data T session { client with background } futures device' := by
  have hanswered : ∀ {t : Turn} {collected : Dict Nat DataPoint} {past : List (Frame × Clock)}
      {flight : List SentFrame}, Answered P D data T t collected past flight client futures device →
      Answered P D data T t collected past flight { client with background } futures device' :=
    fun ha => ⟨⟨ha.key, hr.trans ha.received⟩, ha.pushed, hn ▸ ha.underway, ha.gathered,
      ha.requests, hs.trans ha.sent, fun hp => absurd (ha.fresh hp).2.1 hne, ha.clocks⟩
  have hwritten : ∀ {t : Turn} {request : Request},
      Written P D data T t request client futures device →
      Written P D data T t request { client with background } futures device' := by
    rintro t request ⟨he, hasked | ⟨hdone, hpending, past, flight, ha⟩⟩
    · exact absurd hasked.background hne
    · exact ⟨he, .inr ⟨hdone, hpending, past, flight, hanswered ha⟩⟩
  have hsend : ∀ {request : Request} {send : Send},
      (∃ t ∈ turns data, request = t.request ∧ Writing P D data t send client futures device ∨
        send.rest = [] ∧ Written P D data T t request client futures device) →
      ∃ t ∈ turns data, request = t.request ∧
          Writing P D data t send { client with background } futures device' ∨
        send.rest = [] ∧
          Written P D data T t request { client with background } futures device' := by
    rintro request send ⟨t, ht, ⟨-, hwriting⟩ | ⟨hrest, hw⟩⟩
    · exact absurd hwriting.background hne
    · exact ⟨t, ht, .inr ⟨hrest, hwritten hw⟩⟩
  cases session with
  | idle => exact ⟨hn.trans h.1, hr.trans h.2⟩
  | connecting => exact absurd h.background hne
  | subscribing => exact absurd h.background hne
  | requesting call =>
    obtain ⟨t, -, -, hb⟩ := h
    exact absurd hb.background hne
  | sending request send => exact hsend h
  | writing request send => exact hsend h
  | replyDue request => exact h.imp fun t h => ⟨h.1, hwritten h.2⟩
  | waiting request => exact h.imp fun t h => ⟨h.1, hwritten h.2⟩
  | replied code reply =>
    obtain ⟨t, ht, hc, hreply, past, flight, ha⟩ := h
    exact ⟨t, ht, hc, hreply, past, flight, hanswered ha⟩
  | failed request e => exact h
  | draining collected => exact h.imp fun past h => h.imp fun flight ha => hanswered ha
  | collecting collected => exact h.imp fun past h => h.imp fun flight ha => hanswered ha
  | leaving outcome => exact ⟨hn.trans h.1, hr.trans h.2.1, h.2.2⟩
  | disconnecting outcome => exact ⟨hn.trans h.1, hr.trans h.2.1, h.2.2⟩

/-- Steps that change the reply tasks and what the device has got of them. -/
theorem Inv.of_tasks (h : Inv P D credentials data T s) (hne : s.client.self.background ≠ [])
    {background : List ReplyTask} {device : FakeBleakClient}
    {writes : List (Sender × Except PyException Unit)}
    (hn : ({ s.client with self := { s.client.self with background } } : World).Numbered)
    (hs : device.sequenceNumber = s.device.sequenceNumber)
    (hnot : device.notifications = s.device.notifications)
    (hr : device.requested = s.device.requested) (hw : ∀ p ∈ writes, p.2 = .ok ())
    (ht : ∀ task ∈ background, Task P D device (writes.getLast?.map Prod.fst) task)
    (hrec : ∀ frame ∈ device.received, frame.responseTo ≠ 0 → Acknowledges D frame) :
    Inv P D credentials data T
      ⟨{ s.client with self := { s.client.self with background } }, device, writes⟩ where
  numbered := hn
  credentials := h.credentials
  loginKey := h.loginKey
  version := h.version
  linked := h.linked
  writes := hw
  calm hi := by
    obtain ⟨hd, hover | ⟨collected, hc, hreports, hquiet⟩⟩ := h.calm hi
    · exact ⟨hd, .inl hover⟩
    · exact ⟨hd, .inr ⟨collected, hc, hreports, hnot.trans hquiet⟩⟩
  tasks := ht
  keyed _ := h.keyed hne
  received := hrec
  stage := h.stage.of_tasks hne background hs hnot hr

theorem Task.responseTo_ne {device : FakeBleakClient} {lastWriter : Option Sender}
    (h : Task P D device lastWriter task) : task.frame.responseTo ≠ 0 := by
  obtain ⟨sent, hm, hr, -⟩ := h.answers
  rw [hr]
  exact (mem_pushed hm).1

/-- A reply task is done. -/
theorem Inv.of_discard (h : Inv P D credentials data T s) (ht : s.client.task? number = some task)
    (hn : (s.client.discard number).Numbered) :
    Inv P D credentials data T { s with client := s.client.discard number } := by
  obtain ⟨hm, -⟩ := World.task?_mem ht
  exact h.of_tasks (List.ne_nil_of_mem hm) hn rfl rfl rfl h.writes
    (fun task hm => h.tasks task (List.mem_filter.1 hm).1) h.received

/-- A reply task writes its next packet. -/
theorem Kept.of_reply (before : List Obs) (h : Inv P D credentials data T s)
    (ht : s.client.task? number = some task)
    (hp : Sealed P (keyOf P D false) (flagOf false) task.frame send.payload)
    (hcarries : Receiver.CarriesFrom PacketReassembler.feed .new s.device.reassembler send.rest
      send.payload)
    {packet : Bytes} {rest : List Bytes} (hr : send.rest = packet :: rest)
    (hn : (s.client.suspend number { send with rest }).Numbered)
    (hb : ∀ sender send packet, .wrote sender send packet ∉ before)
    (he : ∀ outcome : Outcome, .ended outcome ∉ before) :
    Kept P D credentials data T random s (s.client.suspend number { send with rest })
      (before ++ [.wrote (.reply number) { send with rest } packet]) := by
  obtain ⟨hm, hnumber⟩ := World.task?_mem ht
  have hne := List.ne_nil_of_mem hm
  have hresponse := (h.tasks task hm).responseTo_ne
  have hended : ∀ outcome, Obs.ended outcome ∈
      before ++ [.wrote (.reply number) { send with rest } packet] → Complete D T outcome := by
    intro outcome ho
    rcases List.mem_append.1 ho with ho | ho
    · exact absurd ho (he outcome)
    · cases List.mem_singleton.1 ho
  -- what the tasks know of the device afterwards
  have htasks : ∀ device : FakeBleakClient,
      (rest ≠ [] → Receiver.CarriesFrom PacketReassembler.feed .new device.reassembler rest
        send.payload) →
      ∀ task' ∈ (s.client.suspend number { send with rest }).self.background,
        Task P D device ((s.writes ++ [(Sender.reply number, Except.ok ())]).getLast?.map Prod.fst)
          task' := by
    intro device hrest task' hm'
    obtain ⟨old, hold, rfl⟩ := List.mem_map.1 hm'
    rw [List.getLast?_concat]
    by_cases hold' : old.frame.sequenceNumber = number
    · have hsame : old = task := List.inj_on_of_nodup_map h.numbered.distinct hold hm
        (hold'.trans hnumber.symm)
      rw [if_pos hold', hsame]
      refine ⟨(h.tasks task hm).answers, fun send' hs => ?_, fun send' hs hne' _ => ?_⟩
      · cases hs
        exact hp
      · cases hs
        exact hrest hne'
    · rw [if_neg hold']
      refine ⟨(h.tasks old hold).answers, (h.tasks old hold).payload, fun _ _ _ hl => ?_⟩
      exact absurd (Sender.reply.inj (Option.some.inj hl)).symm hold'
  rw [hr] at hcarries
  rcases hcarries.cons with ⟨rfl, hfeed⟩ | ⟨-, hfeed, hcarries⟩
  · have hwrite := (writeGattChar_last random hfeed hp).trans
      (accept_reply hresponse)
    refine .of_write before [] hwrite hb (by simp) (h.of_tasks hne hn rfl rfl ?_
      (writes_concat h.writes _) (htasks _ fun hne => absurd rfl hne)
      fun frame hm' hne' => ?_) hended
    · simp [requested, List.filter_append, hresponse]
    · rcases List.mem_append.1 hm' with hm' | hm'
      · exact h.received frame hm' hne'
      · rw [List.mem_singleton.1 hm']
        exact (h.tasks task hm).answers
  · exact .of_write before [] (writeGattChar_part random hfeed) hb (by simp)
      (h.of_tasks hne hn rfl rfl rfl (writes_concat h.writes _) (htasks _ fun _ => hcarries)
        h.received) hended

theorem Inv.of_replied (h : Inv P D credentials data T s) {iv : InitializationVector}
    (hc : Calm s (.reply number iv))
    (hr : World.Replied P s.client (s.replyEvent number iv) w' os) :
    Kept P D credentials data T random s w' os := by
  have hn := h.numbered.of_replied hr
  generalize hev : s.replyEvent number iv = e at hr
  cases hr with
  | ended number' iv' task ht hs =>
    exact .of_silent (by simp) (h.of_discard ht hn) (by simp)
  | aborted number' e frame send ht =>
    rw [replyEvent] at hev
    split at hev
    · rw [resultOf_ok h.writes] at hev
      cases hev
    · cases hev
  | started number' iv' frame key send ht hkey hs =>
    obtain ⟨hm, -⟩ := World.task?_mem ht
    rw [h.keyed (List.ne_nil_of_mem hm)] at hkey
    obtain rfl := Option.some.inj hkey
    obtain ⟨client, payload, packets, -, he, -, rfl⟩ := World.startSend_eq_ok hs
    obtain ⟨⟨hne, hcarries⟩, -⟩ := Writes.fresh_of_startSend hs
    obtain ⟨packet, rest, hrest⟩ := List.exists_cons_of_ne_nil hne
    have hstep : ∀ send : Send, send.rest = packet :: rest → s.client.writeReply number' send =
        (s.client.suspend number' { send with rest },
          [.wrote (.reply number') { send with rest } packet]) := fun send hr => by
      simp only [World.writeReply, hr]
    have hsealed : Sealed P (keyOf P D false) (flagOf false) frame payload := sealed_of_encode he
    rw [hstep _ hrest] at hn ⊢
    exact .of_reply [_] h ht hsealed (hcarries s.device.reassembler) hrest hn (by simp)
      (by simp)
  | resumed number' frame send ht =>
    obtain rfl : number' = number := by
      rw [replyEvent] at hev
      split at hev
      · exact (Event.replyWritten.inj hev).1.symm
      · cases hev
    obtain ⟨hm, hnumber⟩ := World.task?_mem ht
    cases hrest : send.rest with
    | nil =>
      have hstep : s.client.writeReply number' send =
          (s.client.discard number', [.sent (.reply number') send]) := by
        simp only [World.writeReply, hrest]
      rw [hstep] at hn ⊢
      exact .of_silent (by simp) (h.of_discard ht hn) (by simp)
    | cons packet rest =>
      have hstep : s.client.writeReply number' send =
          (s.client.suspend number' { send with rest },
            [.wrote (.reply number') { send with rest } packet]) := by
        simp only [World.writeReply, hrest]
      have hlast : s.lastWriter = some (.reply number') := by
        have hc : send.rest = [] ∨ s.lastWriter = some (.reply number') := by
          simpa [Calm, ht] using hc
        exact hc.resolve_left (by rw [hrest]; exact List.cons_ne_nil _ _)
      rw [hstep] at hn ⊢
      have htask := h.tasks _ hm
      exact .of_reply [] h ht (htask.payload send rfl)
        (htask.carries send rfl (by rw [hrest]; exact List.cons_ne_nil _ _) (hnumber ▸ hlast))
        hrest hn (by simp) (by simp)

end Reply

end System

end TuyaBle
