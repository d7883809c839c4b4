/-!
# Receivers that resynchronise

A receiver takes one packet after another and answers each with an error, with nothing,
or with a message. A list of packets `Carries` a message when the receiver, from whatever
state, answers the last packet with the message and the others with nothing. A wire that
is a sequence of groups, each the beginning of such a list, then yields the messages of
the complete groups in order, whatever the incomplete ones left behind (`run_groups`).
-/

universe u v w x y

namespace Receiver

variable {σ : Type u} {α : Type v} {ε : Type w} {β : Type x}
  (feed : σ → α → σ × Except ε (Option β))

/-- Feed packets in order: the last state, and the answer to each. -/
def run (s : σ) : List α → σ × List (Except ε (Option β))
  | [] => (s, [])
  | a :: as => ((run (feed s a).1 as).1, (feed s a).2 :: (run (feed s a).1 as).2)

/-- The messages among the answers. -/
def messages (answers : List (Except ε (Option β))) : List β :=
  answers.filterMap fun | .ok (some b) => some b | _ => none

/-- From any state `ps` yields `b` at its last packet and nothing before, and leaves the
receiver in `idle`. -/
def Carries (idle : σ) (ps : List α) (b : β) : Prop :=
  ∀ s, run feed s ps = (idle, List.replicate (ps.length - 1) (.ok none) ++ [.ok (some b)])

variable {feed}

theorem run_append (s : σ) (as bs : List α) :
    run feed s (as ++ bs) =
      ((run feed (run feed s as).1 bs).1,
        (run feed s as).2 ++ (run feed (run feed s as).1 bs).2) := by
  induction as generalizing s with
  | nil => rfl
  | cons a as ih => simp [run, ih]

@[simp] theorem length_run (s : σ) (as : List α) : (run feed s as).2.length = as.length := by
  induction as generalizing s with
  | nil => rfl
  | cons a as ih => simp [run, ih]

theorem run_concat (s : σ) (as : List α) (a : α) :
    run feed s (as ++ [a]) =
      ((feed (run feed s as).1 a).1, (run feed s as).2 ++ [(feed (run feed s as).1 a).2]) := by
  rw [run_append]
  rfl

/-- The answers to the first packets do not depend on the rest. -/
theorem run_take (s : σ) (as : List α) (n : Nat) :
    (run feed s (as.take n)).2 = (run feed s as).2.take n := by
  induction as generalizing s n with
  | nil => simp [run]
  | cons a as ih =>
    cases n with
    | zero => rfl
    | succ n => simp [run, ih]

/-- The answer to a packet is that of the state the packets before it lead to. -/
theorem getElem?_run {s : σ} {as : List α} {j : Nat} {answer : Except ε (Option β)}
    (h : (run feed s as).2[j]? = some answer) :
    ∃ a, as.take (j + 1) = as.take j ++ [a] ∧ as[j]? = some a ∧
      (feed (run feed s (as.take j)).1 a).2 = answer := by
  obtain ⟨hj, h⟩ := List.getElem?_eq_some_iff.1 h
  rw [length_run] at hj
  refine ⟨as[j], List.take_succ_eq_append_getElem hj, List.getElem?_eq_getElem hj, ?_⟩
  have hsplit : run feed s as = run feed s (as.take j ++ ([as[j]] ++ as.drop (j + 1))) := by
    simp
  rw [← h]
  simp only [hsplit, run_append, run]
  have hlen : (run feed s (as.take j)).2.length = j := by simp; omega
  rw [List.getElem_append_right (by omega)]
  simp [hlen]

/-- **Simulation**: two receivers whose answers and states agree at each packet agree on
every list of packets. -/
theorem run_simulates {τ : Type u} {γ : Type v} {feed' : τ → γ → τ × Except ε (Option β)}
    {R : σ → τ → Prop} {f : α → γ}
    (h : ∀ s t a, R s t → (feed s a).2 = (feed' t (f a)).2 ∧ R (feed s a).1 (feed' t (f a)).1)
    {s : σ} {t : τ} (hst : R s t) (as : List α) :
    (run feed s as).2 = (run feed' t (as.map f)).2 ∧
      R (run feed s as).1 (run feed' t (as.map f)).1 := by
  induction as generalizing s t with
  | nil => exact ⟨rfl, hst⟩
  | cons a as ih =>
    obtain ⟨ha, hr⟩ := h s t a hst
    obtain ⟨hanswers, hlast⟩ := ih hr
    simp only [run, List.map_cons]
    exact ⟨by rw [ha, hanswers], hlast⟩

/-- Before its last packet a message is not there yet. -/
theorem Carries.beginning {idle : σ} {ps qs : List α} {b : β} (h : Carries feed idle ps b)
    (hq : qs <+: ps) (hne : qs ≠ ps) (s : σ) :
    (run feed s qs).2 = List.replicate qs.length (.ok none) := by
  obtain ⟨rest, rfl⟩ := hq
  have hrest : rest ≠ [] := fun he => hne (by simp [he])
  have hpos := List.length_pos_iff.2 hrest
  have hs := congrArg Prod.snd (h s)
  rw [run_append] at hs
  have ht := congrArg (List.take qs.length) hs
  simp only [List.length_append] at ht
  rwa [List.take_left' (length_run s qs),
    List.take_append_of_le_length (by simp; omega), List.take_replicate,
    Nat.min_eq_left (by omega)] at ht

/-- One group: the beginning of a list that carries a message. -/
structure Group (idle : σ) (feed : σ → α → σ × Except ε (Option β)) where
  packets : List α
  message : β
  carries : Carries feed idle packets message
  taken : List α
  taken_prefix : taken <+: packets

namespace Group

variable {idle : σ} [DecidableEq α]

/-- The message, once the group is complete. -/
def message? (g : Group idle feed) : Option β :=
  if g.taken = g.packets then some g.message else none

/-- What is left of a group tells whether it is complete. -/
theorem message?_eq (g : Group idle feed) {rest : List α} (h : g.taken ++ rest = g.packets) :
    g.message? = if rest = [] then some g.message else none := by
  rw [message?, ← h]
  by_cases hr : rest = [] <;> simp [hr]

theorem run_taken (g : Group idle feed) (s : σ) :
    (∀ answer ∈ (run feed s g.taken).2, ∃ r, answer = .ok r) ∧
      messages (run feed s g.taken).2 = g.message?.toList := by
  unfold message?
  by_cases he : g.taken = g.packets
  · rw [if_pos he, he, g.carries s]
    constructor
    · intro answer ha
      rcases List.mem_append.1 ha with ha | ha
      · exact ⟨none, List.eq_of_mem_replicate ha⟩
      · exact ⟨_, List.mem_singleton.1 ha⟩
    · simp [messages, List.filterMap_append]
  · rw [if_neg he, g.carries.beginning g.taken_prefix he s]
    constructor
    · exact fun answer ha => ⟨none, List.eq_of_mem_replicate ha⟩
    · simp [messages]

end Group

/-- **Groups on a wire** are received one by one: no packet is refused, and the messages
are those of the complete groups. -/
theorem run_groups {idle : σ} [DecidableEq α] (gs : List (Group idle feed)) (s : σ) :
    (∀ answer ∈ (run feed s (gs.flatMap Group.taken)).2, ∃ r, answer = .ok r) ∧
      messages (run feed s (gs.flatMap Group.taken)).2 = gs.filterMap Group.message? := by
  induction gs generalizing s with
  | nil => exact ⟨fun _ h => (nomatch h), rfl⟩
  | cons g gs ih =>
    obtain ⟨hok, hm⟩ := g.run_taken s
    obtain ⟨hok', hm'⟩ := ih (run feed s g.taken).1
    rw [List.flatMap_cons, run_append]
    constructor
    · intro answer ha
      exact (List.mem_append.1 ha).elim (hok answer) (hok' answer)
    · rw [messages, List.filterMap_append]
      rw [messages] at hm hm'
      rw [hm, hm', List.filterMap_cons]
      cases g.message? <;> rfl

/-- **A wire in parts**: where what each part yields does not depend on the state it finds,
the wire yields what its parts do. -/
theorem messages_flatMap {γ : Type y} {packets : γ → List α} {yielded : γ → List β} {parts : List γ}
    (h : ∀ part ∈ parts, ∀ s, messages (run feed s (packets part)).2 = yielded part) (s : σ) :
    messages (run feed s (parts.flatMap packets)).2 = parts.flatMap yielded := by
  induction parts generalizing s with
  | nil => rfl
  | cons part parts ih =>
    have hpart := h part (List.mem_cons_self ..) s
    have hrest := ih (fun part hm => h part (List.mem_cons_of_mem _ hm))
      (run feed s (packets part)).1
    rw [messages] at hpart hrest
    rw [List.flatMap_cons, List.flatMap_cons, run_append, messages, List.filterMap_append, hpart,
      hrest]

/-! ## Packets under way -/

variable (feed) in
/-- From `s` on `ps` yields `b` at its last packet and nothing before. -/
def CarriesFrom (idle s : σ) (ps : List α) (b : β) : Prop :=
  run feed s ps = (idle, List.replicate (ps.length - 1) (.ok none) ++ [.ok (some b)])

variable (feed) in
/-- From `s` on no packet of `ps` is refused, they yield `bs`, and the last of them is the
last of a message. -/
structure Yields (s : σ) (ps : List α) (bs : List β) : Prop where
  accepted : ∀ answer ∈ (run feed s ps).2, ∃ r, answer = .ok r
  yielded : messages (run feed s ps).2 = bs
  ended : (run feed s ps).2.getLast? ≠ some (.ok none)

variable {idle s : σ} {p : α} {ps qs : List α} {b : β} {bs : List β}

/-- The next packet is the last and yields the message, or yields nothing. -/
theorem CarriesFrom.cons (h : CarriesFrom feed idle s (p :: ps) b) :
    ps = [] ∧ feed s p = (idle, .ok (some b)) ∨
      ps ≠ [] ∧ (feed s p).2 = .ok none ∧ CarriesFrom feed idle (feed s p).1 ps b := by
  unfold CarriesFrom at h
  simp only [run, List.length_cons, Nat.add_sub_cancel, Prod.mk.injEq] at h
  obtain ⟨hstate, hanswers⟩ := h
  cases ps with
  | nil =>
    obtain ⟨hfirst, -⟩ := List.cons.inj hanswers
    exact .inl ⟨rfl, Prod.ext hstate hfirst⟩
  | cons q ps =>
    rw [List.length_cons, List.replicate_succ, List.cons_append] at hanswers
    obtain ⟨hfirst, hrest⟩ := List.cons.inj hanswers
    exact .inr ⟨List.cons_ne_nil _ _, hfirst, Prod.ext hstate hrest⟩

theorem yields_nil : Yields feed s [] [] := ⟨fun _ h => (nomatch h), rfl, nofun⟩

/-- What yields nothing is nothing. -/
theorem Yields.packets_nil (h : Yields feed s ps []) : ps = [] := by
  rcases List.eq_nil_or_concat ps with rfl | ⟨ps, p, rfl⟩
  · rfl
  · have hlast := h.ended
    obtain ⟨r, hr⟩ := h.accepted (feed (run feed s ps).1 p).2 (by simp [run_concat])
    have hm := h.yielded
    simp only [List.concat_eq_append, run_concat, messages, List.filterMap_append] at hlast hm
    cases r with
    | none => simp [hr] at hlast
    | some b => simp [hr] at hm

/-- The next packet yields nothing, or the first message. -/
theorem Yields.cons (h : Yields feed s (p :: ps) bs) :
    (feed s p).2 = .ok none ∧ Yields feed (feed s p).1 ps bs ∨
      ∃ b bs', bs = b :: bs' ∧ (feed s p).2 = .ok (some b) ∧ Yields feed (feed s p).1 ps bs' := by
  obtain ⟨r, hr⟩ := h.accepted (feed s p).2 (List.mem_cons_self ..)
  have hrest : ∀ answer ∈ (run feed (feed s p).1 ps).2, ∃ r, answer = .ok r :=
    fun answer ha => h.accepted answer (List.mem_cons_of_mem _ ha)
  have hm := h.yielded
  have hlast : (run feed (feed s p).1 ps).2.getLast? ≠ some (.ok none) := by
    intro he
    refine h.ended ?_
    rw [run, List.getLast?_cons, he]
    rfl
  simp only [run, messages, List.filterMap_cons, hr] at hm
  cases r with
  | none => exact .inl ⟨hr, hrest, hm, hlast⟩
  | some b => exact .inr ⟨b, _, hm.symm, hr, hrest, rfl, hlast⟩

/-- Behind what is under way comes another message. -/
theorem Yields.append (h : Yields feed s ps bs) (hc : Carries feed idle qs b) :
    Yields feed s (ps ++ qs) (bs ++ [b]) := by
  have hq := congrArg Prod.snd (hc (run feed s ps).1)
  have hrun : (run feed s (ps ++ qs)).2 =
      (run feed s ps).2 ++ (List.replicate (qs.length - 1) (.ok none) ++ [.ok (some b)]) := by
    rw [run_append]
    dsimp only
    rw [hq]
  refine ⟨fun answer ha => ?_, ?_, ?_⟩
  · rw [hrun] at ha
    rcases List.mem_append.1 ha with ha | ha
    · exact h.accepted answer ha
    · rcases List.mem_append.1 ha with ha | ha
      · exact ⟨none, (List.mem_replicate.1 ha).2⟩
      · exact ⟨some b, List.mem_singleton.1 ha⟩
  · have hm := h.yielded
    rw [messages] at hm
    simp [hrun, messages, hm]
  · rw [hrun, ← List.append_assoc, List.getLast?_concat]
    exact nofun

/-- Nothing under way yields nothing. -/
theorem Yields.eq_nil (h : Yields feed s [] bs) : bs = [] := h.yielded.symm

end Receiver
