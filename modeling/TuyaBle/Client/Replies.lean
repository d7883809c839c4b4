import TuyaBle.Client.Writes
import TuyaBle.Lib.History
import TuyaBle.FakeDevice

/-!
# Answers to the device

A command of the device is answered by a task of its own, which may run at any later time.
Over the whole life of a client, through any number of reads, every answer that is sent was
owed: a command received since the last teardown asked for it, and it has not been sent yet.
-/

namespace TuyaBle

/-- What is left to answer, after one observation more. -/
def owe (frames : List Frame) : Obs → List Frame
  | .scheduled reply => frames ++ [reply]
  | .sending (.reply _) send => frames.erase send.frame
  | .reset => []
  | _ => frames

/-- The answers that are owed: scheduled, not sent since, and not dropped by a teardown. -/
def owed (os : List Obs) : List Frame := os.foldl owe []

/-- `reply` is what a command calls for that has just been received. -/
def Prescribed (past : List Obs) (reply : Frame) : Prop :=
  ∃ before frame clock dataPoints data,
    past = before ++ .received frame ::
      ((queued dataPoints).map .published ++ [.built reply]) ∧
    commandOf frame clock = some (dataPoints, data) ∧
    reply.responseTo = frame.sequenceNumber ∧ reply.code = frame.code ∧ reply.data = data

/-- What an observation says about the ones before it. -/
def Owing (past : List Obs) : Obs → Prop
  | .scheduled reply => Prescribed past reply
  | .sending (.reply number) send =>
    send.frame ∈ owed past ∧ send.frame.sequenceNumber = number ∧
      send.securityFlag = securityFlagSessionKey
  | _ => True

namespace Replies

/-- The frames of the tasks that have not started. -/
def unstarted (background : List ReplyTask) : List Frame :=
  (background.filter fun task => task.send = none).map ReplyTask.frame

structure Inv (os : List Obs) (w : World) : Prop where
  numbered : w.Numbered
  along : Along Owing [] os
  distinct : ((owed os).map Frame.sequenceNumber).Nodup
  bounded : ∀ reply ∈ owed os, reply.sequenceNumber < w.self.sequenceNumber
  unstarted : (unstarted w.self.background).Sublist (owed os)

variable {P : Primitives} {os os' : List Obs} {w w' : World}

/-! ## Steps that answer nothing -/

/-- Observations that neither owe nor send an answer. -/
def Plain : Obs → Prop
  | .scheduled _ | .sending (.reply _) _ | .reset => False
  | _ => True

theorem owe_plain {o : Obs} (h : Plain o) (frames : List Frame) : owe frames o = frames := by
  cases o with
  | sending sender send =>
    cases sender with
    | session => rfl
    | reply number => exact h.elim
  | scheduled reply => exact h.elim
  | reset => exact h.elim
  | _ => rfl

theorem owing_plain {o : Obs} (h : Plain o) (past : List Obs) : Owing past o := by
  cases o with
  | sending sender send =>
    cases sender with
    | session => trivial
    | reply number => exact h.elim
  | scheduled reply => exact h.elim
  | _ => trivial

theorem foldl_owe_plain (h : ∀ o ∈ os', Plain o) (frames : List Frame) :
    os'.foldl owe frames = frames := by
  induction os' with
  | nil => rfl
  | cons o os' ih =>
    rw [List.foldl_cons, owe_plain (h o (List.mem_cons_self ..))]
    exact ih fun o ho => h o (List.mem_cons_of_mem _ ho)

theorem owed_append (os os' : List Obs) : owed (os ++ os') = os'.foldl owe (owed os) := by
  rw [owed, List.foldl_append, ← owed]

theorem owed_plain (h : ∀ o ∈ os', Plain o) : owed (os ++ os') = owed os := by
  rw [owed_append, foldl_owe_plain h]

theorem plain_cancelled (background : List ReplyTask) :
    ∀ o ∈ World.cancelled background, Plain o := by
  intro o ho
  obtain ⟨_, _, rfl⟩ := World.aborted_of_mem_cancelled ho
  trivial

/-- Steps that hand out numbers at most. -/
theorem Inv.of_plain (h : Inv os w) (hn : w'.Numbered) (hp : ∀ o ∈ os', Plain o)
    (hs : w.self.sequenceNumber ≤ w'.self.sequenceNumber)
    (hu : (Replies.unstarted w'.self.background).Sublist (Replies.unstarted w.self.background)) :
    Inv (os ++ os') w' where
  numbered := hn
  along := Along.append.2 ⟨h.along, .of_forall fun past o ho => owing_plain (hp o ho) past⟩
  distinct := by rw [owed_plain hp]; exact h.distinct
  bounded := by
    rw [owed_plain hp]
    exact fun reply hm => Nat.lt_of_lt_of_le (h.bounded reply hm) hs
  unstarted := by rw [owed_plain hp]; exact hu.trans h.unstarted

/-- The teardown drops what is owed. -/
theorem Inv.of_reset (h : Inv os w) (hn : w'.Numbered) {before after : List Obs}
    (hb : ∀ o ∈ before, Plain o) (ha : ∀ o ∈ after, Plain o) (hw : w'.self.background = []) :
    Inv (os ++ (before ++ .reset :: after)) w' := by
  have howed : owed (os ++ (before ++ .reset :: after)) = [] := by
    rw [owed_append, List.foldl_append, List.foldl_cons]
    exact foldl_owe_plain ha []
  refine ⟨hn, Along.append.2 ⟨h.along, .of_forall fun past o ho => ?_⟩, ?_, ?_, ?_⟩
  · rcases List.mem_append.1 ho with ho | ho
    · exact owing_plain (hb o ho) past
    · rcases List.mem_cons.1 ho with rfl | ho
      · trivial
      · exact owing_plain (ha o ho) past
  · rw [howed]
    exact .nil
  · rw [howed]
    exact fun _ hm => nomatch hm
  · rw [howed, hw]
    exact .slnil

theorem Inv.of_advanced (h : Inv os w) {iv : InitializationVector}
    (ha : World.Advanced P w iv w' os') : Inv (os ++ os') w' := by
  have hn := h.numbered.of_advanced ha
  cases ha with
  | reset outcome link hs hc =>
    exact h.of_reset hn (plain_cancelled _) (fun _ hm => nomatch hm) rfl
  | ended outcome hs hc =>
    refine h.of_reset hn (plain_cancelled _) (fun o ho => ?_) rfl
    rw [List.mem_singleton.1 ho]
    trivial
  | requestFailed call e hs hf =>
    exact h.of_plain hn (by simp [Plain]) (Nat.le_succ _) (List.Sublist.refl _)
  | requestSending call key send hs hk hf =>
    exact h.of_plain hn (by simp [Plain]) (Nat.le_succ _) (List.Sublist.refl _)
  | _ => exact h.of_plain hn (by simp [Plain]) (Nat.le_refl _) (List.Sublist.refl _)

theorem Inv.of_woken (h : Inv os w) {r : Resumption} (hw : World.Woken w r w' os') :
    Inv (os ++ os') w' := by
  have hn := h.numbered.of_woken hw
  cases hw <;> exact h.of_plain hn (by simp [Plain]) (Nat.le_refl _) (List.Sublist.refl _)

/-! ## A command of the device -/

theorem Inv.of_notified (h : Inv os w) {chunk : Bytes} {clock : Clock}
    (hn : World.Notified P w chunk clock w' os') : Inv (os ++ os') w' := by
  have hnumbered := h.numbered.of_notified hn
  cases hn with
  | quiet hr => exact h.of_plain hnumbered (by simp) (Nat.le_refl _) (List.Sublist.refl _)
  | completed frame future hr ha =>
    exact h.of_plain hnumbered (by simp [Plain]) (Nat.le_refl _) (List.Sublist.refl _)
  | ignored frame hr ha hc =>
    exact h.of_plain hnumbered (by simp [Plain]) (Nat.le_refl _) (List.Sublist.refl _)
  | handled frame dataPoints data hr ha hc =>
    have hpublished : ∀ o ∈ (queued dataPoints).map Obs.published, Plain o := fun o ho => by
      obtain ⟨_, -, rfl⟩ := List.mem_map.1 ho
      trivial
    have hsplit : os ++ .received frame :: w.self.handledObs frame dataPoints data =
        (os ++ .received frame ::
          ((queued dataPoints).map .published ++ [.built (w.self.responseTo frame data)])) ++
        [.scheduled (w.self.responseTo frame data)] := by
      simp [TuyaBleClient.handledObs]
    have hplain : ∀ o ∈ Obs.received frame ::
        ((queued dataPoints).map .published ++ [.built (w.self.responseTo frame data)]),
        Plain o := fun o ho => by
      rcases List.mem_cons.1 ho with rfl | ho
      · trivial
      · rcases List.mem_append.1 ho with ho | ho
        · exact hpublished o ho
        · rw [List.mem_singleton.1 ho]
          trivial
    have howed : owed (os ++ .received frame :: w.self.handledObs frame dataPoints data) =
        owed os ++ [w.self.responseTo frame data] := by
      rw [hsplit, owed_append, owed_plain hplain]
      rfl
    refine ⟨hnumbered, ?_, ?_, ?_, ?_⟩
    · rw [hsplit]
      refine Along.append.2 ⟨Along.append.2 ⟨h.along, .of_forall fun past o ho =>
        owing_plain (hplain o ho) past⟩, ⟨os, frame, clock, dataPoints, data, ?_, hc, rfl, rfl,
          rfl⟩, trivial⟩
      rw [List.nil_append]
    · rw [howed, List.map_append]
      refine List.nodup_append.2 ⟨h.distinct, List.pairwise_singleton _ _, fun a ha b hb => ?_⟩
      obtain ⟨reply, hm, rfl⟩ := List.mem_map.1 ha
      rw [List.mem_singleton.1 hb]
      exact Nat.ne_of_lt (h.bounded reply hm)
    · rw [howed]
      intro reply hm
      show reply.sequenceNumber < w.self.sequenceNumber + 1
      rcases List.mem_append.1 hm with hm | hm
      · exact Nat.lt_succ_of_lt (h.bounded reply hm)
      · rw [List.mem_singleton.1 hm]
        exact Nat.lt_succ_self _
    · rw [howed]
      show (Replies.unstarted (w.self.background ++
        [⟨w.self.responseTo frame data, none⟩])).Sublist _
      rw [Replies.unstarted, List.filter_append, List.map_append]
      exact h.unstarted.append (List.Sublist.refl _)

/-! ## A reply task goes on -/

section Task

variable {number : Nat} {task : ReplyTask}

/-- Once its task has started or is gone, a frame is no longer waiting. -/
theorem unstarted_split (hn : w.Numbered) (ht : w.task? number = some task) :
    ∃ before after, w.self.background = before ++ task :: after ∧
      Replies.unstarted (w.discard number).self.background =
        Replies.unstarted before ++ Replies.unstarted after ∧
      (∀ send, Replies.unstarted (w.suspend number send).self.background =
        Replies.unstarted before ++ Replies.unstarted after) ∧
      ∀ other ∈ Replies.unstarted before, other ≠ task.frame := by
  obtain ⟨before, after, he, hne⟩ := Writes.split_task hn ht
  have hnumber := (World.task?_mem ht).2
  refine ⟨before, after, he, ?_, fun send => ?_, fun other hm => ?_⟩
  · rw [Writes.discard_background he hnumber hne, unstarted, List.filter_append, List.map_append]
    rfl
  · rw [Writes.suspend_background he hnumber hne, unstarted, List.filter_append, List.map_append,
      List.filter_cons_of_neg (by simp)]
    rfl
  · obtain ⟨task', hm', rfl⟩ := List.mem_map.1 hm
    intro heq
    refine hne task' (List.mem_append_left _ (List.mem_filter.1 hm').1) ?_
    rw [heq, hnumber]

theorem unstarted_background {background before after : List ReplyTask}
    (he : background = before ++ task :: after) :
    Replies.unstarted background = Replies.unstarted before ++
      ((if task.send = none then [task.frame] else []) ++ Replies.unstarted after) := by
  rw [he, unstarted, List.filter_append, List.map_append, List.filter_cons]
  split <;> rename_i hs
  · rw [if_pos (by simpa using hs)]
    rfl
  · rw [if_neg (by simpa using hs)]
    rfl

/-- A task that does not start takes its frame with it at most. -/
theorem unstarted_sublist (hn : w.Numbered) (ht : w.task? number = some task) :
    (Replies.unstarted (w.discard number).self.background).Sublist
        (Replies.unstarted w.self.background) ∧
      ∀ send, (Replies.unstarted (w.suspend number send).self.background).Sublist
        (Replies.unstarted w.self.background) := by
  obtain ⟨before, after, he, hd, hs, -⟩ := unstarted_split hn ht
  have hsub : (Replies.unstarted before ++ Replies.unstarted after).Sublist
      (Replies.unstarted w.self.background) := by
    rw [unstarted_background he]
    exact (List.Sublist.refl _).append (List.sublist_append_right _ _)
  exact ⟨hd ▸ hsub, fun send => hs send ▸ hsub⟩

theorem Inv.of_started (h : Inv os w) {frame : Frame} {key : AesKey} {send : Send}
    {iv : InitializationVector} (ht : w.task? number = some ⟨frame, none⟩)
    (hs : w.self.startSend P frame key securityFlagSessionKey iv = some (.ok send))
    (hn : w'.Numbered) (hp : ∀ o ∈ os', Plain o)
    (hw : w' = w.discard number ∨ ∃ send, w' = w.suspend number send) :
    Inv (os ++ .sending (.reply number) send :: os') w' := by
  obtain ⟨client, payload, packets, -, -, -, rfl⟩ := World.startSend_eq_ok hs
  obtain ⟨before, after, he, hd, hsuspend, hne⟩ := unstarted_split h.numbered ht
  have hall := unstarted_background he
  rw [if_pos rfl] at hall
  have hunstarted : Replies.unstarted w'.self.background =
      (Replies.unstarted w.self.background).erase frame := by
    have hbefore : frame ∉ Replies.unstarted before := fun hm => hne frame hm rfl
    rw [hall, List.erase_append_right _ hbefore, List.singleton_append, List.erase_cons_head]
    rcases hw with rfl | ⟨send, rfl⟩
    · exact hd
    · exact hsuspend send
  have hmem : frame ∈ owed os := by
    refine h.unstarted.subset ?_
    rw [hall]
    simp
  have hnumber : w'.self.sequenceNumber = w.self.sequenceNumber := by
    rcases hw with rfl | ⟨send, rfl⟩ <;> rfl
  have howed : owed (os ++ .sending (.reply number)
      ⟨frame, key, securityFlagSessionKey, client, payload, packets⟩ :: os') =
        (owed os).erase frame := by
    rw [owed_append, List.foldl_cons]
    exact foldl_owe_plain hp _
  refine ⟨hn, Along.append.2 ⟨h.along, ⟨hmem, (World.task?_mem ht).2, rfl⟩,
    .of_forall fun past o ho => owing_plain (hp o ho) past⟩, ?_, ?_, ?_⟩
  · rw [howed]
    exact h.distinct.sublist (List.erase_sublist.map _)
  · rw [howed, hnumber]
    exact fun reply hm => h.bounded reply (List.mem_of_mem_erase hm)
  · rw [howed, hunstarted]
    exact h.unstarted.erase frame

theorem Inv.of_replied (h : Inv os w) {e : Event} (hr : World.Replied P w e w' os') :
    Inv (os ++ os') w' := by
  have hn := h.numbered.of_replied hr
  have hwrite : ∀ number send, (w.writeReply number send).1 = w.discard number ∨
      ∃ send', (w.writeReply number send).1 = w.suspend number send' := by
    intro number send
    unfold World.writeReply
    split
    · exact .inl rfl
    · exact .inr ⟨_, rfl⟩
  have hplain : ∀ number send, ∀ o ∈ (w.writeReply number send).2, Plain o := by
    intro number send o ho
    unfold World.writeReply at ho
    split at ho <;> cases List.mem_singleton.1 ho <;> trivial
  cases hr with
  | ended number iv task ht hs =>
    exact h.of_plain hn (by simp) (Nat.le_refl _) (unstarted_sublist h.numbered ht).1
  | aborted number e frame send ht =>
    exact h.of_plain hn (by simp [Plain]) (Nat.le_refl _) (unstarted_sublist h.numbered ht).1
  | started number iv frame key send ht hk hs =>
    exact h.of_started ht hs hn (hplain number send) (hwrite number send)
  | resumed number frame send ht =>
    obtain ⟨hdiscard, hsuspend⟩ := unstarted_sublist h.numbered ht
    rcases hwrite number send with he | ⟨send', he⟩
    · exact h.of_plain hn (hplain number send) (by rw [he]; exact Nat.le_refl _) (he ▸ hdiscard)
    · exact h.of_plain hn (hplain number send) (by rw [he]; exact Nat.le_refl _)
        (he ▸ hsuspend send')

end Task

theorem keeps : Keeps P Machine.Free fun _ os w => Inv os w where
  wakeUp h _ hw := h.of_woken hw
  advance h ha := h.of_advanced ha
  fire := by
    intro tr os w i w' os' h _ hf
    have hn := h.numbered.of_fire hf
    obtain ⟨-, rfl, futures, rfl, -⟩ := World.fire_eq hf
    exact h.of_plain hn (by simp) (Nat.le_refl _) (List.Sublist.refl _)
  notify h _ hn := h.of_notified hn
  reply h _ hr := h.of_replied hr

theorem inv_new (P : Primitives) (address : String) (credentials : TuyaBleCredentials) :
    Inv [] (World.new P address credentials) where
  numbered := .of_new P address credentials
  along := trivial
  distinct := .nil
  bounded _ hm := nomatch hm
  unstarted := .slnil

end Replies

/-- **Every answer is owed.** Over any number of reads: an answer is scheduled right when a
command of the device has been received and is what that command calls for, and every answer
sent was scheduled since the last teardown and has not been sent yet. -/
theorem answers_owed {P : Primitives} {address : String} {credentials : TuyaBleCredentials}
    {w : World} {tr : List (World × Event)} {os : List Obs}
    (h : (machine P).Runs Machine.Free (.new P address credentials) tr os w) :
    Along Owing [] os := by
  suffices hinv : Replies.Inv os w from hinv.along
  refine h.invariant (I := fun _ os w => Replies.Inv os w) (Replies.inv_new P address credentials)
    fun tr os w e w' os' hi _ hs => ?_
  by_cases he : e = .startRead
  · subst he
    simp only [machine, World.step] at hs
    split at hs
    · rename_i hidle
      cases hs
      exact hi.of_plain (hi.numbered.of_reading hidle) (by simp) (Nat.le_refl _)
        (List.Sublist.refl _)
    · cases hs
  · exact Replies.keeps.step tr os hi ⟨he, trivial⟩ hs

/-- The answer with that number is sent. -/
def Obs.sendsReply (number : Nat) : Obs → Bool
  | .sending (.reply other) _ => other = number
  | _ => false

open FakeDevice in
/-- The one report of the tests' device is acknowledged. -/
theorem answers_owed_session : ∃ tr os w,
    (machine primitives).Runs Machine.Free client tr os w ∧
      (∃ send, .sending (.reply 4) send ∈ os) ∧ Along Owing [] os := by
  have hx : ((machine primitives).execWhere Machine.Free [] [] client
      (.startRead :: session)).map (fun r => r.2.1.any (Obs.sendsReply 4)) = some true := by
    decide +kernel
  obtain ⟨⟨tr, os, w⟩, he, hany⟩ := Option.map_eq_some_iff.1 hx
  obtain ⟨o, hm, ho⟩ := List.any_eq_true.1 hany
  have hruns := Machine.runs_of_execWhere he
  refine ⟨tr, os, w, hruns, ?_, answers_owed hruns⟩
  unfold Obs.sendsReply at ho
  split at ho
  · obtain rfl := of_decide_eq_true ho
    exact ⟨_, hm⟩
  · cases ho

end TuyaBle
