import TuyaBle.Client.Keying
import TuyaBle.Lib.History
import TuyaBle.FakeDevice

/-!
# The order of the handshake and the keys of its frames

Along one read the requests are sent in the order of the handshake. The first is the only
frame under the login key; every other frame, of the session or of a reply task, is under
the key derived from the device information this read has adopted (`Licensed`).
-/

namespace TuyaBle

/-- The codes of the requests sent, in order. -/
def requestCodes (os : List Obs) : List Nat :=
  os.filterMap fun | .sending .session send => some send.frame.code | _ => none

/-- The requests made before the one of that code. -/
def codesBefore : TuyaBleCommandCode → List Nat
  | .senderDeviceInfo => []
  | .senderPair => [TuyaBleCommandCode.senderDeviceInfo.value]
  | _ => [TuyaBleCommandCode.senderDeviceInfo.value, TuyaBleCommandCode.senderPair.value]

def handshakeCodes : List Nat :=
  codesBefore .senderDeviceStatus ++ [TuyaBleCommandCode.senderDeviceStatus.value]

/-- The key a frame may be under, given what has been observed. -/
def Licensed (P : Primitives) (credentials : TuyaBleCredentials) (past : List Obs)
    (sender : Sender) (send : Send) : Prop :=
  (sender = .session ∧ send.frame.code = TuyaBleCommandCode.senderDeviceInfo.value ∧
    send.securityFlag = securityFlagLoginKey ∧ send.key = loginKey P credentials.localKey) ∨
  (send.securityFlag = securityFlagSessionKey ∧
    (sender = .session → send.frame.code ≠ TuyaBleCommandCode.senderDeviceInfo.value) ∧
    ∃ info, .adopted info ∈ past ∧ send.key = sessionKey P credentials.localKey info.srand)

/-- `packet` is a fragment of the frame under the key of its send. -/
def FragmentOf (P : Primitives) (send : Send) (packet : Bytes) : Prop :=
  ∃ iv version packets, send.frame.encode P send.key send.securityFlag iv = .ok send.payload ∧
    buildPackets send.payload version = some (.ok packets) ∧ packet ∈ packets

/-- What an observation says about the ones before it. -/
def Disciplined (P : Primitives) (credentials : TuyaBleCredentials) (past : List Obs) : Obs → Prop
  | .wrote sender send packet => Licensed P credentials past sender send ∧ FragmentOf P send packet
  | .sending .session send =>
    send.frame.code = TuyaBleCommandCode.senderDeviceStatus.value →
      ∃ number reply, .returned .senderPair number reply ∈ past ∧
        (reply.data = [pairingAccepted.toUInt8] ∨ reply.data = [pairingAlreadyPaired.toUInt8])
  | .adopted info =>
    (∃ number reply, .returned .senderDeviceInfo number reply ∈ past ∧
      parseDeviceInfo reply.data = .ok info) ∧ ∀ other, .adopted other ∉ past
  | _ => True

namespace Discipline

/-- The requests sent when the session stands there. -/
def Progress : Session → List Nat → Prop
  | .connecting, codes | .subscribing, codes => codes = []
  | .requesting call, codes => codes = codesBefore call.code
  | .sending request _, codes | .writing request _, codes | .replyDue request, codes
  | .waiting request, codes =>
    codes = codesBefore request.code ++ [request.code.value] ∧ codes <+: handshakeCodes
  | .replied code _, codes => codes = codesBefore code ++ [code.value] ∧ codes <+: handshakeCodes
  | _, codes => codes <+: handshakeCodes

variable (P : Primitives) (credentials : TuyaBleCredentials)

structure Inv (os : List Obs) (w : World) : Prop where
  keying : w.Keying P credentials
  along : Along (Disciplined P credentials) [] os
  progress : Progress w.session (requestCodes os)
  early : w.session.unkeyed → ¬ w.session.over → ∀ info, .adopted info ∉ os
  sessionKey : ∀ key, w.self.sessionKey = some key →
    ∃ info, .adopted info ∈ os ∧ key = TuyaBle.sessionKey P credentials.localKey info.srand
  session : ∀ send, w.session.send? = some send →
    Licensed P credentials os .session send ∧ World.Encrypted P send
  replies : ∀ task ∈ w.self.background, ∀ send, task.send = some send →
    Licensed P credentials os (.reply task.frame.sequenceNumber) send ∧ World.Encrypted P send
  replied : ∀ code reply, w.session.reply? = some (code, reply) →
    ∃ number, .returned code number reply ∈ os
  paired : w.session.call? = some deviceStatusCall →
    ∃ number reply, .returned .senderPair number reply ∈ os ∧
      (reply.data = [pairingAccepted.toUInt8] ∨ reply.data = [pairingAlreadyPaired.toUInt8])

variable {P credentials} {os os' : List Obs} {w w' : World}

theorem licensed_append {sender : Sender} {send : Send}
    (h : Licensed P credentials os sender send) :
    Licensed P credentials (os ++ os') sender send := by
  rcases h with h | ⟨hf, hc, info, hm, hk⟩
  · exact .inl h
  · exact .inr ⟨hf, hc, info, List.mem_append_left _ hm, hk⟩

/-- Observations the discipline is not about. -/
def Plain : Obs → Prop
  | .wrote .. | .sending .. | .adopted _ => False
  | _ => True

theorem disciplined_of_plain {past : List Obs} {o : Obs} (h : Plain o) :
    Disciplined P credentials past o := by
  cases o <;> first | exact trivial | exact h.elim

theorem requestCodes_append : requestCodes (os ++ os') = requestCodes os ++ requestCodes os' :=
  List.filterMap_append ..

theorem requestCodes_plain (hp : ∀ o ∈ os', Plain o) : requestCodes os' = [] := by
  refine List.filterMap_eq_nil_iff.2 fun o ho => ?_
  have := hp o ho
  cases o <;> first | rfl | exact this.elim

theorem adopted_plain (hp : ∀ o ∈ os', Plain o) (info : DeviceInfo) : .adopted info ∉ os' :=
  fun hm => hp _ hm

theorem plain_cancelled (background : List ReplyTask) (hp : ∀ o ∈ os', Plain o) :
    ∀ o ∈ World.cancelled background ++ os', Plain o := by
  intro o ho
  rcases List.mem_append.1 ho with ho | ho
  · obtain ⟨_, _, rfl⟩ := World.aborted_of_mem_cancelled ho
    trivial
  · exact hp o ho

/-- Steps that send no request and adopt nothing. -/
theorem Inv.of_step (h : Inv P credentials os w) (hk : w'.Keying P credentials)
    (halong : Along (Disciplined P credentials) os os') (hcodes : requestCodes os' = [])
    (hadopted : ∀ info, .adopted info ∉ os')
    (hprog : ∀ codes, Progress w.session codes → Progress w'.session codes)
    (hearly : w'.session.unkeyed → ¬ w'.session.over → w.session.unkeyed ∧ ¬ w.session.over)
    (hkey : ∀ key, w'.self.sessionKey = some key → w.self.sessionKey = some key)
    (hsend : ∀ send, w'.session.send? = some send →
      Licensed P credentials os .session send ∧ World.Encrypted P send)
    (htasks : ∀ task ∈ w'.self.background, ∀ send, task.send = some send →
      Licensed P credentials os (.reply task.frame.sequenceNumber) send ∧ World.Encrypted P send)
    (hreplied : ∀ code reply, w'.session.reply? = some (code, reply) →
      ∃ number, .returned code number reply ∈ os ++ os')
    (hpaired : w'.session.call? = some deviceStatusCall →
      ∃ number reply, .returned .senderPair number reply ∈ os ∧
        (reply.data = [pairingAccepted.toUInt8] ∨ reply.data = [pairingAlreadyPaired.toUInt8])) :
    Inv P credentials (os ++ os') w' where
  keying := hk
  along := Along.append.2 ⟨h.along, halong⟩
  progress := by
    rw [requestCodes_append, hcodes, List.append_nil]
    exact hprog _ h.progress
  early hu ho info hm := by
    obtain ⟨hu, ho⟩ := hearly hu ho
    rcases List.mem_append.1 hm with hm | hm
    · exact h.early hu ho info hm
    · exact hadopted info hm
  sessionKey key hs := by
    obtain ⟨info, hm, he⟩ := h.sessionKey key (hkey key hs)
    exact ⟨info, List.mem_append_left _ hm, he⟩
  session send hs := (hsend send hs).imp_left licensed_append
  replies task ht send hs := (htasks task ht send hs).imp_left licensed_append
  replied := hreplied
  paired hc := by
    obtain ⟨number, reply, hm, hd⟩ := hpaired hc
    exact ⟨number, reply, List.mem_append_left _ hm, hd⟩

/-- A stage of the session task that observes nothing the discipline is about, and after
which no request is about to be made. -/
theorem Inv.of_stage (h : Inv P credentials os w) (hk : w'.Keying P credentials)
    (hp : ∀ o ∈ os', Plain o) (hkey : w'.self.sessionKey = w.self.sessionKey)
    (hb : w'.self.background = w.self.background)
    (hprog : ∀ codes, Progress w.session codes → Progress w'.session codes)
    (hearly : w'.session.unkeyed → ¬ w'.session.over → w.session.unkeyed ∧ ¬ w.session.over)
    (hsend : w'.session.send? = w.session.send? ∨ w'.session.send? = none)
    (hreplied : w'.session.reply? = none) (hcall : w'.session.call? = none) :
    Inv P credentials (os ++ os') w' := by
  refine h.of_step hk (.of_forall fun _ o ho => disciplined_of_plain (hp o ho))
    (requestCodes_plain hp) (adopted_plain hp) hprog hearly (fun _ => hkey ▸ id) ?_
    (hb ▸ h.replies) (fun _ _ hr => nomatch hreplied.symm.trans hr)
    (fun hc => nomatch hcall.symm.trans hc)
  rcases hsend with hs | hs
  · rw [hs]; exact h.session
  · rw [hs]; exact fun _ he => nomatch he

theorem initial_codesBefore (code : TuyaBleCommandCode) : codesBefore code <+: handshakeCodes := by
  cases code <;> decide

theorem initial_codesUpTo {code : TuyaBleCommandCode}
    (h : code = .senderDeviceInfo ∨ code = .senderPair ∨ code = .senderDeviceStatus) :
    codesBefore code ++ [code.value] <+: handshakeCodes := by
  rcases h with rfl | rfl | rfl <;> decide

theorem Inv.of_woken {r : Resumption} (h : Inv P credentials os w) (hw : World.Woken w r w' os') :
    Inv P credentials (os ++ os') w' := by
  have hk := h.keying.of_woken hw
  cases hw with
  | connected link hi hs =>
    exact h.of_stage hk (by simp) rfl rfl (by rw [hs]; exact fun _ => id)
      (fun _ _ => by rw [hs]; exact ⟨trivial, id⟩) (.inr rfl) rfl rfl
  | subscribed hi hs =>
    refine h.of_step hk (by simp) rfl (by simp) ?_ (fun _ _ => by rw [hs]; exact ⟨trivial, id⟩)
      (fun _ => id) (fun _ he => nomatch he) h.replies (fun _ _ he => nomatch he) ?_
    · rw [hs]; exact fun _ => id
    · exact fun hc => nomatch congrArg Call.code (Option.some.inj hc)
  | connectFailed e hi hs he =>
    refine h.of_stage hk (by simp) rfl rfl ?_ Session.leaving_keyed.elim (.inr rfl) rfl rfl
    rcases hs with hs | hs <;> rw [hs] <;> exact fun _ hc => hc ▸ List.nil_prefix
  | connectTimedOut hi hs =>
    exact h.of_stage hk (by simp) rfl rfl (by rw [hs]; exact fun _ hc => hc ▸ List.nil_prefix)
      Session.leaving_keyed.elim (.inr rfl) rfl rfl
  | connectCancelled i hi hs =>
    refine h.of_stage hk (by simp) rfl rfl ?_ Session.leaving_keyed.elim (.inr rfl) rfl rfl
    rcases hs with ⟨hs, -⟩ | hs <;> rw [hs] <;> exact fun _ hc => hc ▸ List.nil_prefix
  | written request send hi hs hr =>
    exact h.of_stage hk (by simp) rfl rfl (by rw [hs]; exact fun _ => id)
      (by rw [hs]; exact fun hu _ => ⟨hu, id⟩) (.inl (by rw [hs]; rfl)) rfl rfl
  | writeFailed request send e hi hs hr he =>
    exact h.of_stage hk (by simp [Plain]) rfl rfl (by rw [hs]; exact fun _ => And.right)
      (by rw [hs]; exact fun hu _ => ⟨hu, id⟩) (.inr rfl) rfl rfl
  | writeCancelled i request send hi hs =>
    exact h.of_stage hk (by simp [Plain]) rfl rfl (by rw [hs]; exact fun _ => And.right)
      (by rw [hs]; exact fun hu _ => ⟨hu, id⟩) (.inr rfl) rfl rfl
  | replied request hi hs hf =>
    exact h.of_stage hk (by simp) rfl rfl (by rw [hs]; exact fun _ => id)
      (by rw [hs]; exact fun hu _ => ⟨hu, id⟩) (.inr rfl) rfl rfl
  | waitEnded i request hi hs =>
    exact h.of_stage hk (by simp) rfl rfl (by rw [hs]; exact fun _ => And.right)
      (by rw [hs]; exact fun hu _ => ⟨hu, id⟩) (.inr rfl) rfl rfl
  | reported collected hi hs hr =>
    exact h.of_stage hk (by simp) rfl rfl (by rw [hs]; exact fun _ => id)
      Session.draining_keyed.elim (.inr rfl) rfl rfl
  | quiet collected hi hs =>
    exact h.of_stage hk (by simp) rfl rfl (by rw [hs]; exact fun _ => id)
      Session.leaving_keyed.elim (.inr rfl) rfl rfl
  | collectCancelled i collected hi hd hs =>
    exact h.of_stage hk (by simp) rfl rfl (by rw [hs]; exact fun _ => id)
      Session.leaving_keyed.elim (.inr rfl) rfl rfl
  | disconnected outcome hi hs =>
    exact h.of_stage hk (by simp [Plain]) rfl rfl (by rw [hs]; exact fun _ => id)
      (fun _ ho => absurd trivial ho) (.inr rfl) rfl rfl
  | disconnectCancelled i outcome hi hd hs =>
    exact h.of_stage hk (by simp [Plain]) rfl rfl (by rw [hs]; exact fun _ => id)
      (fun _ ho => absurd trivial ho) (.inr rfl) rfl rfl

/-- The session key in use is the one this read has derived. -/
theorem Inv.licensed_of_sessionKey (h : Inv P credentials os w) {key : AesKey}
    (hk : w.self.sessionKey = some key) {sender : Sender} {send : Send}
    (hf : send.securityFlag = securityFlagSessionKey) (he : send.key = key)
    (hc : sender = .session → send.frame.code ≠ TuyaBleCommandCode.senderDeviceInfo.value) :
    Licensed P credentials os sender send := by
  obtain ⟨info, hm, hki⟩ := h.sessionKey key hk
  exact .inr ⟨hf, hc, info, hm, he.trans hki⟩

/-- The request a session makes next, under the key it may have. -/
theorem Inv.of_requestSending {iv : InitializationVector} (h : Inv P credentials os w) {call : Call}
    {key : AesKey} {send : Send} (hs : w.session = .requesting call)
    (hkey : w.keyFor call = .ok key)
    (hsend : w.self.startSend P (w.frameFor call) key call.securityFlag iv = some (.ok send))
    (hk : ({ w.register with session := .sending (w.requestFor call) send }).Keying P credentials) :
    Inv P credentials
      (os ++ [.registered w.self.sequenceNumber, .built (w.frameFor call), .sending .session send])
      { w.register with session := .sending (w.requestFor call) send } := by
  have hcall := h.keying.call call (by rw [hs]; rfl)
  obtain ⟨client, payload, packets, -, -, -, rfl⟩ := World.startSend_eq_ok hsend
  have hprog : requestCodes os = codesBefore call.code := by
    have := h.progress
    rwa [hs] at this
  have hlic : Licensed P credentials os .session
      ⟨w.frameFor call, key, call.securityFlag, client, payload, packets⟩ := by
    rcases hcall with rfl | ⟨data, rfl⟩ | rfl
    · obtain rfl : w.self.loginKey = key := Except.ok.inj hkey
      exact .inl ⟨rfl, rfl, rfl, h.keying.loginKey_eq⟩
    · have hne : TuyaBleCommandCode.senderPair.value ≠
          TuyaBleCommandCode.senderDeviceInfo.value := by
        decide
      exact h.licensed_of_sessionKey (World.sessionKey_of_keyFor rfl hkey) rfl rfl fun _ => hne
    · have hne : TuyaBleCommandCode.senderDeviceStatus.value ≠
          TuyaBleCommandCode.senderDeviceInfo.value := by decide
      exact h.licensed_of_sessionKey (World.sessionKey_of_keyFor rfl hkey) rfl rfl fun _ => hne
  refine ⟨hk, Along.append.2 ⟨h.along, trivial, trivial, fun hc => ?_, trivial⟩, ?_, ?_, ?_, ?_, ?_,
    fun _ _ he => (nomatch he), fun he => nomatch he⟩
  · have hcode : call = deviceStatusCall := by
      rcases hcall with rfl | ⟨data, rfl⟩ | rfl
      · exact absurd (show TuyaBleCommandCode.senderDeviceInfo.value = _ from hc) (by decide)
      · exact absurd (show TuyaBleCommandCode.senderPair.value = _ from hc) (by decide)
      · rfl
    obtain ⟨number, reply, hm, hd⟩ := h.paired (by rw [hs, hcode]; rfl)
    exact ⟨number, reply, by simp [hm], hd⟩
  · rw [requestCodes_append, hprog]
    refine ⟨rfl, ?_⟩
    rcases hcall with rfl | ⟨data, rfl⟩ | rfl
    · exact initial_codesUpTo (.inl rfl)
    · exact initial_codesUpTo (.inr (.inl rfl))
    · exact initial_codesUpTo (.inr (.inr rfl))
  · intro hu _ info hm
    apply h.early (by rw [hs]; exact hu) (by rw [hs]; exact id) info
    simpa using hm
  · intro key' hk'
    obtain ⟨info, hm, he⟩ := h.sessionKey key' hk'
    exact ⟨info, List.mem_append_left _ hm, he⟩
  · intro send hsend'
    obtain rfl := Option.some.inj hsend'
    exact ⟨licensed_append hlic, World.encrypted_of_startSend hsend⟩
  · intro task ht send hs'
    exact (h.replies task ht send hs').imp_left licensed_append

/-- One fragment of a send on the wire. -/
theorem disciplined_wrote {sender : Sender} {send : Send} {packet : Bytes} {rest : List Bytes}
    (hl : Licensed P credentials os sender send) (he : World.Encrypted P send)
    (hr : send.rest = packet :: rest) :
    Disciplined P credentials os (.wrote sender { send with rest } packet) ∧
      Licensed P credentials os sender { send with rest } ∧
      World.Encrypted P { send with rest } := by
  obtain ⟨iv, version, packets, hp, hb, hsuf⟩ := he
  rw [hr] at hsuf
  refine ⟨⟨hl, iv, version, packets, hp, hb, hsuf.subset (List.mem_cons_self ..)⟩, hl,
    iv, version, packets, hp, hb, (List.suffix_cons ..).trans hsuf⟩

/-- Adopting the device information, whatever comes next. -/
theorem Inv.of_adopted (h : Inv P credentials os w) {reply : Frame} {info : DeviceInfo}
    {s : Session}
    (hs : w.session = .replied .senderDeviceInfo reply)
    (hp : parseDeviceInfo reply.data = .ok info)
    (hk : ({ w with self := w.self.adoptDeviceInfo P info, session := s }).Keying P credentials)
    (hprog : Progress s [TuyaBleCommandCode.senderDeviceInfo.value]) (hkeyed : ¬ s.unkeyed)
    (hsend : s.send? = none) (hreplied : s.reply? = none)
    (hcall : s.call? ≠ some deviceStatusCall) :
    Inv P credentials (os ++ [.adopted info])
      { w with self := w.self.adoptDeviceInfo P info, session := s } where
  keying := hk
  along := by
    refine Along.append.2 ⟨h.along, ⟨?_, ?_⟩, trivial⟩
    · obtain ⟨number, hm⟩ := h.replied .senderDeviceInfo reply (by rw [hs]; rfl)
      exact ⟨number, reply, hm, hp⟩
    · exact h.early (by rw [hs]; rfl) (by rw [hs]; exact id)
  progress := by
    have := h.progress
    rw [hs] at this
    rw [requestCodes_append, this.1]
    exact hprog
  early hu := absurd hu hkeyed
  sessionKey key he := by
    refine ⟨info, by simp, ?_⟩
    rw [← h.keying.credentials_eq]
    exact (Option.some.inj he).symm
  session send he := nomatch hsend.symm.trans he
  replies task ht send he := (h.replies task ht send he).imp_left licensed_append
  replied _ _ he := nomatch hreplied.symm.trans he
  paired hc := absurd hc hcall

/-- The teardown leaves neither a key nor a send. -/
theorem Inv.of_reset (h : Inv P credentials os w) {outcome : Outcome}
    (hs : w.session = .leaving outcome) {session : Session} {after : List Obs}
    (hk : World.Keying P credentials
      { self := w.self.reset, session, interrupt := none, futures := [] })
    (hover : session.over) (ha : ∀ o ∈ after, Plain o) :
    Inv P credentials (os ++ (World.cancelled w.self.background ++ after))
      { self := w.self.reset, session, interrupt := none, futures := [] } := by
  have hp := plain_cancelled w.self.background ha
  have hnone : session.send? = none ∧ session.reply? = none ∧ session.call? = none ∧
      ∀ codes, codes <+: handshakeCodes → Progress session codes := by
    cases session with
    | idle => exact ⟨rfl, rfl, rfl, fun _ => id⟩
    | disconnecting outcome => exact ⟨rfl, rfl, rfl, fun _ => id⟩
    | _ => exact hover.elim
  obtain ⟨hsend, hreply, hcall, hprog⟩ := hnone
  exact h.of_step hk (.of_forall fun _ o ho => disciplined_of_plain (hp o ho))
    (requestCodes_plain hp) (adopted_plain hp) (by rw [hs]; exact hprog)
    (fun _ ho => absurd hover ho) (fun _ he => nomatch he)
    (fun _ he => nomatch hsend.symm.trans he) (by simp [TuyaBleClient.reset])
    (fun _ _ he => nomatch hreply.symm.trans he) (fun he => nomatch hcall.symm.trans he)

theorem Inv.of_advanced {iv : InitializationVector} (h : Inv P credentials os w)
    (ha : World.Advanced P w iv w' os') : Inv P credentials (os ++ os') w' := by
  have hk := h.keying.of_advanced ha
  cases ha with
  | requestFailed call e hs hf =>
    exact h.of_stage hk (by simp [Plain]) rfl rfl
      (by rw [hs]; exact fun _ hc => hc ▸ initial_codesBefore _)
      (by rw [hs]; exact fun hu _ => ⟨hu, id⟩) (.inr rfl) rfl rfl
  | requestSending call key send hs hkey hsend => exact h.of_requestSending hs hkey hsend hk
  | sent request send hs hr =>
    exact h.of_stage hk (by simp [Plain]) rfl rfl (by rw [hs]; exact fun _ => id)
      (by rw [hs]; exact fun hu _ => ⟨hu, id⟩) (.inr rfl) rfl rfl
  | wrote request send packet rest hs hr =>
    obtain ⟨hl, he⟩ := h.session send (by rw [hs]; rfl)
    obtain ⟨hd, hl, he⟩ := disciplined_wrote hl he hr
    refine h.of_step hk ⟨hd, trivial⟩ rfl (by simp) (by rw [hs]; exact fun _ => id)
      (by rw [hs]; exact fun hu _ => ⟨hu, id⟩) (fun _ => id) ?_ h.replies
      (fun _ _ he => by cases he) (fun he => by cases he)
    intro send' he'
    obtain rfl := Option.some.inj he'
    exact ⟨hl, he⟩
  | returned request reply hs hf =>
    refine h.of_step hk ⟨trivial, trivial⟩ rfl (by simp) (by rw [hs]; exact fun _ => id)
      (by rw [hs]; exact fun hu _ => ⟨hu, id⟩) (fun _ => id) (fun _ he => by cases he) h.replies
      (fun code reply' he => ?_) (fun he => by cases he)
    obtain ⟨rfl, rfl⟩ := Prod.mk.inj (Option.some.inj he)
    exact ⟨request.sequenceNumber, by simp⟩
  | replyCancelled request hs hf =>
    exact h.of_stage hk (by simp) rfl rfl (by rw [hs]; exact fun _ => And.right)
      (by rw [hs]; exact fun hu _ => ⟨hu, id⟩) (.inr rfl) rfl rfl
  | waiting request hs hf =>
    exact h.of_stage hk (by simp) rfl rfl (by rw [hs]; exact fun _ => id)
      (by rw [hs]; exact fun hu _ => ⟨hu, id⟩) (.inr rfl) rfl rfl
  | failed request e hs =>
    exact h.of_stage hk (by simp [Plain]) rfl rfl (by rw [hs]; exact fun _ => id)
      Session.leaving_keyed.elim (.inr rfl) rfl rfl
  | refused code reply e hs hr =>
    exact h.of_stage hk (by simp) rfl rfl (by rw [hs]; exact fun _ => And.right)
      Session.leaving_keyed.elim (.inr rfl) rfl rfl
  | adopted reply info data hs hp hb =>
    exact h.of_adopted hs hp hk rfl Session.pairing_keyed rfl rfl
      fun hc => absurd (congrArg Call.code (Option.some.inj hc))
        (by simp [pairCall, deviceStatusCall])
  | adoptedOnly reply info e hs hp hb =>
    exact h.of_adopted hs hp hk (initial_codesUpTo (.inl rfl)) Session.leaving_keyed rfl rfl
      (fun hc => by cases hc)
  | paired reply hs hv =>
    obtain ⟨number, hm⟩ := h.replied .senderPair reply (by rw [hs]; rfl)
    exact h.of_step hk (by simp) rfl (by simp) (by rw [hs]; exact fun _ => And.left)
      Session.status_keyed.elim (fun _ => id) (fun _ he => by cases he) h.replies
      (fun _ _ he => by cases he) fun _ => ⟨number, reply, hm, verifyPairingResult_eq_ok.1 hv⟩
  | acknowledged code reply hs hi hp =>
    exact h.of_stage hk (by simp) rfl rfl (by rw [hs]; exact fun _ => And.right)
      Session.draining_keyed.elim (.inr rfl) rfl rfl
  | drained collected hs =>
    exact h.of_stage hk (by simp) rfl rfl (by rw [hs]; exact fun _ => id)
      Session.collecting_keyed.elim (.inr rfl) rfl rfl
  | reset outcome link hs hc => exact h.of_reset hs hk trivial (by simp [Plain])
  | ended outcome hs hc => exact h.of_reset hs hk trivial (by simp [Plain])

theorem Inv.of_notified {chunk : Bytes} {clock : Clock} (h : Inv P credentials os w)
    (hn : World.Notified P w chunk clock w' os') : Inv P credentials (os ++ os') w' := by
  have hk := h.keying.of_notified hn
  have same : w'.session = w.session → w'.self.sessionKey = w.self.sessionKey →
      (∀ task ∈ w'.self.background, task ∈ w.self.background ∨ task.send = none) →
      (∀ o ∈ os', Plain o) → Inv P credentials (os ++ os') w' := by
    intro hs hkey ht hp
    refine h.of_step hk (.of_forall fun _ o ho => disciplined_of_plain (hp o ho))
      (requestCodes_plain hp) (adopted_plain hp) (by rw [hs]; exact fun _ => id)
      (by rw [hs]; exact fun hu ho => ⟨hu, ho⟩) (fun _ => hkey ▸ id) (by rw [hs]; exact h.session)
      ?_ ?_ (by rw [hs]; exact h.paired)
    · intro task hm send he
      rcases ht task hm with hm | hn
      · exact h.replies task hm send he
      · exact nomatch hn.symm.trans he
    · rw [hs]
      intro code reply he
      obtain ⟨number, hm⟩ := h.replied code reply he
      exact ⟨number, List.mem_append_left _ hm⟩
  cases hn with
  | quiet hr => exact same rfl rfl (fun _ => .inl) (by simp)
  | completed frame future hr ha => exact same rfl rfl (fun _ => .inl) (by simp [Plain])
  | ignored frame hr ha hc => exact same rfl rfl (fun _ => .inl) (by simp [Plain])
  | handled frame dataPoints data hr ha hc =>
    refine same rfl rfl (fun task ht => ?_) fun o ho => ?_
    · exact (List.mem_append.1 ht).imp_right fun ht => by rw [List.mem_singleton.1 ht]
    · rcases List.mem_cons.1 ho with rfl | ho
      · trivial
      · rcases List.mem_append.1 ho with ho | ho
        · obtain ⟨_, -, rfl⟩ := List.mem_map.1 ho
          trivial
        · rcases List.mem_cons.1 ho with rfl | ho
          · trivial
          · rw [List.mem_singleton.1 ho]
            trivial

/-- Steps of the other tasks. -/
theorem Inv.of_tasks (h : Inv P credentials os w) {background : List ReplyTask}
    (hk : ({ w with self := { w.self with background } } : World).Keying P credentials)
    (halong : Along (Disciplined P credentials) os os') (hcodes : requestCodes os' = [])
    (hadopted : ∀ info, .adopted info ∉ os')
    (htasks : ∀ task ∈ background, ∀ send, task.send = some send →
      Licensed P credentials os (.reply task.frame.sequenceNumber) send ∧ World.Encrypted P send) :
    Inv P credentials (os ++ os') { w with self := { w.self with background } } := by
  refine h.of_step hk halong hcodes hadopted (fun _ => id) (fun hu ho => ⟨hu, ho⟩) (fun _ => id)
    h.session htasks (fun code reply he => ?_) h.paired
  obtain ⟨number, hm⟩ := h.replied code reply he
  exact ⟨number, List.mem_append_left _ hm⟩

theorem Inv.of_discard (h : Inv P credentials os w) {number : Nat}
    (hk : (w.discard number).Keying P credentials) (hp : ∀ o ∈ os', Plain o) :
    Inv P credentials (os ++ os') (w.discard number) :=
  h.of_tasks hk (.of_forall fun _ o ho => disciplined_of_plain (hp o ho)) (requestCodes_plain hp)
    (adopted_plain hp) fun task ht => h.replies task (List.mem_filter.1 ht).1

/-- One turn of the write loop of a reply task whose send is licensed. -/
theorem Inv.of_writeReply (h : Inv P credentials os w) {number : Nat} {send : Send}
    (hk : (w.writeReply number send).1.Keying P credentials)
    (hl : Licensed P credentials os (.reply number) send) (he : World.Encrypted P send) :
    Inv P credentials (os ++ (w.writeReply number send).2) (w.writeReply number send).1 := by
  unfold World.writeReply at hk ⊢
  split
  · rename_i hr
    rw [hr] at hk
    exact h.of_discard hk (by simp [Plain])
  · rename_i packet rest hr
    rw [hr] at hk
    obtain ⟨hd, hl, he⟩ := disciplined_wrote hl he hr
    refine h.of_tasks hk ⟨hd, trivial⟩ rfl (by simp) fun task ht send' hs => ?_
    obtain ⟨old, hold, rfl⟩ := List.mem_map.1 ht
    by_cases hn : old.frame.sequenceNumber = number
    · rw [if_pos hn] at hs ⊢
      obtain rfl := Option.some.inj hs
      exact ⟨hn ▸ hl, he⟩
    · rw [if_neg hn] at hs ⊢
      exact h.replies old hold send' hs

theorem Inv.of_replied {e : Event} (h : Inv P credentials os w)
    (hr : World.Replied P w e w' os') : Inv P credentials (os ++ os') w' := by
  have hk := h.keying.of_replied hr
  cases hr with
  | ended number iv task ht hs => exact h.of_discard hk (by simp)
  | aborted number e frame send ht => exact h.of_discard hk (by simp [Plain])
  | started number iv frame key send ht hkey hs =>
    obtain ⟨client, payload, packets, -, -, -, rfl⟩ := World.startSend_eq_ok hs
    have hl : Licensed P credentials os (.reply number)
        ⟨frame, key, securityFlagSessionKey, client, payload, packets⟩ :=
      h.licensed_of_sessionKey hkey rfl rfl fun he => nomatch he
    have hstart : Inv P credentials (os ++ [.sending (.reply number)
        ⟨frame, key, securityFlagSessionKey, client, payload, packets⟩]) w :=
      h.of_tasks h.keying ⟨trivial, trivial⟩ rfl (by simp) h.replies
    have := hstart.of_writeReply hk (licensed_append hl) (World.encrypted_of_startSend hs)
    rwa [List.append_assoc] at this
  | resumed number frame send ht =>
    obtain ⟨hm, rfl⟩ := World.task?_mem ht
    obtain ⟨hl, he⟩ := h.replies _ hm send rfl
    exact h.of_writeReply hk hl he

theorem Inv.of_fire {i : Interrupt} (h : Inv P credentials os w) (hf : w.fire i = some (w', os')) :
    Inv P credentials (os ++ os') w' := by
  have hk := h.keying.of_fire hf
  obtain ⟨-, rfl, futures, rfl, -⟩ := World.fire_eq hf
  refine h.of_step hk trivial rfl (by simp) (fun _ => id) (fun hu ho => ⟨hu, ho⟩) (fun _ => id)
    h.session h.replies (fun code reply he => ?_) h.paired
  obtain ⟨number, hm⟩ := h.replied code reply he
  exact ⟨number, by simpa using hm⟩

theorem keeps (C : List Obs → World → Event → Prop) :
    Keeps P C fun _ os w => Inv P credentials os w where
  wakeUp h _ hw := h.of_woken hw
  advance h ha := h.of_advanced ha
  fire h _ hf := h.of_fire hf
  notify h _ hn := h.of_notified hn
  reply h _ hr := h.of_replied hr

end Discipline

variable {P : Primitives} {address : String} {credentials : TuyaBleCredentials}

/-- **The handshake goes in order, and no frame is under a key it may not have**, in every
read of a client and over every schedule. -/
theorem handshake_in_order {w0 w : World} {tr : List (World × Event)} {os : List Obs}
    (h0 : (machine P).Reachable (.new P address credentials) w0) (hidle : w0.session = .idle)
    (h : (machine P).Runs (WithinRead Machine.Free) w0.reading tr os w) :
    requestCodes os <+: handshakeCodes ∧
      ∀ past o rest, os = past ++ o :: rest → Disciplined P credentials past o := by
  have hk := World.Keying.of_reachable h0
  have hnone : w0.self.sessionKey = none := hk.unkeyed (by rw [hidle]; trivial)
  have hi : Discipline.Inv P credentials os w := (Discipline.keeps _).runs h
    ⟨hk.of_reading hidle, trivial, rfl, fun _ _ _ => List.not_mem_nil,
      fun key he => (nomatch hnone.symm.trans he), fun _ he => (nomatch he),
      fun task ht send he => (nomatch (hk.quiet hnone task ht).symm.trans he),
      fun _ _ he => (nomatch he), fun he => nomatch he⟩
  refine ⟨?_, fun past o rest he => hi.along.at he⟩
  have := hi.progress
  unfold Discipline.Progress at this
  split at this
  · rw [this]; exact List.nil_prefix
  · rw [this]; exact List.nil_prefix
  · rw [this]; exact Discipline.initial_codesBefore _
  · exact this.2
  · exact this.2
  · exact this.2
  · exact this.2
  · exact this.2
  · exact this

open FakeDevice in
theorem handshake_in_order_session : ∃ tr os w,
    (machine primitives).execWhere (WithinRead Machine.Free) [] [] client.reading session =
      some (tr, os, w) ∧
    requestCodes os <+: handshakeCodes ∧
      ∀ past o rest, os = past ++ o :: rest →
        Disciplined primitives FakeDevice.credentials past o := by
  obtain ⟨⟨tr, os, w⟩, he⟩ := Option.isSome_iff_exists.1
    (show ((machine primitives).execWhere (WithinRead Machine.Free) [] [] client.reading
      session).isSome = true by decide +kernel)
  exact ⟨tr, os, w, he, handshake_in_order (.refl _) rfl (Machine.runs_of_execWhere he)⟩

end TuyaBle
