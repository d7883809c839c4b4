import Mathlib.Data.List.Induction
import TuyaBle.Lib.Receiver

/-!
# Collecting numbered fragments

The receiver of messages sent in fragments numbered from 0, the first of which declares the
length of the message. It is `idle`, or `collecting` with fewer elements held than declared.
`messages_sound` says what its answers are made of, in terms of the packets alone.
-/

universe u w

namespace Collector

/-- What a packet says, whatever the state of the receiver. -/
inductive Piece (α : Type u) (ε : Type w) where
  /-- It has no index that can be read. -/
  | unreadable (e : ε)
  /-- It has index 0, and lacks what a first fragment starts with. -/
  | broken (e : ε)
  | first (declared : Nat) (body : List α)
  | later (index : Nat) (body : List α)

inductive State (α : Type u) where
  | idle
  | collecting (declared next : Nat) (bytes : List α) (started : 0 < next)
      (room : bytes.length < declared)

/-- The errors of the receiver's own. -/
structure Refusals (ε : Type w) where
  outOfOrder : (index expected : Nat) → ε
  overrun : (received declared : Nat) → ε

variable {α : Type u} {ε : Type w}

namespace Piece

def index? : Piece α ε → Option Nat
  | unreadable _ => none
  | broken _ => some 0
  | first _ _ => some 0
  | later index _ => some index

def body : Piece α ε → List α
  | first _ body => body
  | later _ body => body
  | _ => []

end Piece

variable (refusals : Refusals ε)

/-- Hold `bytes`, the bodies of the first `next` fragments. -/
def hold (declared next : Nat) (bytes : List α) (started : 0 < next) :
    State α × Except ε (Option (List α)) :=
  if room : bytes.length < declared then
    (.collecting declared next bytes started room, .ok none)
  else if bytes.length = declared then (.idle, .ok (some bytes))
  else (.idle, .error (refusals.overrun bytes.length declared))

def feed : State α → Piece α ε → State α × Except ε (Option (List α))
  | s, .unreadable e => (s, .error e)
  | _, .broken e => (.idle, .error e)
  | _, .first declared body => hold refusals declared 1 body Nat.one_pos
  | .idle, .later index _ => (.idle, .error (refusals.outOfOrder index 0))
  | .collecting declared next bytes _ _, .later index body =>
    if index = next then hold refusals declared (next + 1) (bytes ++ body) next.succ_pos
    else (.idle, .error (refusals.outOfOrder index next))

/-! ## The fragments of a message -/

/-- Which positions are used once the packet at the position `j` has come: a first fragment
starts anew, a later one is added. -/
def extend (positions : List Nat) : Piece α ε × Nat → List Nat
  | (.unreadable _, _) => positions
  | (.broken _, j) => [j]
  | (.first _ _, j) => [j]
  | (.later _ _, j) => positions ++ [j]

/-- The positions of the packets from the latest one with index 0 on, those without an
index left out. -/
def used (ps : List (Piece α ε)) : List Nat := ps.zipIdx.foldl extend []

theorem used_concat (ps : List (Piece α ε)) (p : Piece α ε) :
    used (ps ++ [p]) = extend (used ps) (p, ps.length) := by
  simp [used, List.zipIdx_append]

/-- The packets at `positions` are the fragments 0, 1, 2, … of one message, each once and in
this order, the first of them being the latest packet with index 0. -/
structure Fragments (ps : List (Piece α ε)) (positions : List Nat) (declared : Nat)
    (bytes : List α) : Prop where
  first : ∃ i rest body, positions = i :: rest ∧ ps[i]? = some (.first declared body) ∧
    ∀ j (p : Piece α ε), i < j → ps[j]? = some p → p.index? ≠ some 0
  ordered : positions.Pairwise (· < ·)
  numbered : ∀ n j, positions[n]? = some j → ∃ p : Piece α ε, ps[j]? = some p ∧ p.index? = some n
  contents : positions.flatMap (fun j => (ps[j]?.map Piece.body).getD []) = bytes

namespace Fragments

variable {ps : List (Piece α ε)} {positions : List Nat} {declared : Nat} {bytes : List α}

theorem lt_length (h : Fragments ps positions declared bytes) {j : Nat} (hj : j ∈ positions) :
    j < ps.length := by
  obtain ⟨n, hn⟩ := List.mem_iff_getElem?.1 hj
  obtain ⟨p, hp, -⟩ := h.numbered n j hn
  exact (List.getElem?_eq_some_iff.1 hp).1

/-- One packet more does not change what the positions point to. -/
theorem flatMap_concat (h : ∀ j ∈ positions, j < ps.length) (p : Piece α ε) :
    positions.flatMap (fun j => ((ps ++ [p])[j]?.map Piece.body).getD []) =
      positions.flatMap (fun j => (ps[j]?.map Piece.body).getD []) := by
  rw [List.flatMap_def, List.flatMap_def]
  congr 1
  apply List.map_congr_left
  intro j hj
  rw [List.getElem?_append_left (h j hj)]

theorem numbered_concat (h : Fragments ps positions declared bytes) (p : Piece α ε) {n j : Nat}
    (hn : positions[n]? = some j) : ∃ q, (ps ++ [p])[j]? = some q ∧ q.index? = some n := by
  rw [List.getElem?_append_left (h.lt_length (List.mem_of_getElem? hn))]
  exact h.numbered n j hn

theorem first_concat (h : Fragments ps positions declared bytes) {p : Piece α ε}
    (hp : p.index? ≠ some 0) :
    ∃ i rest body, positions = i :: rest ∧ (ps ++ [p])[i]? = some (.first declared body) ∧
      ∀ j q, i < j → (ps ++ [p])[j]? = some q → q.index? ≠ some 0 := by
  obtain ⟨i, rest, body, rfl, hi, hlast⟩ := h.first
  refine ⟨i, rest, body, rfl, ?_, fun j q hj hq => ?_⟩
  · rw [List.getElem?_append_left (h.lt_length List.mem_cons_self)]
    exact hi
  · rw [List.getElem?_append] at hq
    split at hq
    · exact hlast j q hj hq
    · rw [List.getElem?_singleton] at hq
      split at hq
      · cases hq; exact hp
      · cases hq

theorem unreadable (h : Fragments ps positions declared bytes) (e : ε) :
    Fragments (ps ++ [.unreadable e]) positions declared bytes where
  first := h.first_concat (by simp [Piece.index?])
  ordered := h.ordered
  numbered := fun _ _ => h.numbered_concat _
  contents := by rw [flatMap_concat (fun _ => h.lt_length), h.contents]

theorem start (ps : List (Piece α ε)) (declared : Nat) (body : List α) :
    Fragments (ps ++ [.first declared body]) [ps.length] declared body where
  first := by
    refine ⟨ps.length, [], body, rfl, by simp, fun j q hj hq => ?_⟩
    have := (List.getElem?_eq_some_iff.1 hq).1
    simp only [List.length_append, List.length_singleton] at this
    omega
  ordered := List.pairwise_singleton _ _
  numbered := by
    intro n j hn
    rw [List.getElem?_singleton] at hn
    split at hn
    · cases hn
      exact ⟨.first declared body, by simp, by simp_all [Piece.index?]⟩
    · cases hn
  contents := by simp [Piece.body]

theorem later (h : Fragments ps positions declared bytes) (body : List α)
    (hpos : 0 < positions.length) :
    Fragments (ps ++ [.later positions.length body]) (positions ++ [ps.length]) declared
      (bytes ++ body) where
  first := by
    obtain ⟨i, rest, b, he, hi, hlast⟩ :=
      h.first_concat (p := .later positions.length body)
        (fun hz => by simp only [Piece.index?, Option.some.injEq] at hz; omega)
    exact ⟨i, rest ++ [ps.length], b, by rw [he, List.cons_append], hi, hlast⟩
  ordered := by
    rw [List.pairwise_append]
    refine ⟨h.ordered, List.pairwise_singleton _ _, fun a ha b hb => ?_⟩
    rw [List.mem_singleton.1 hb]
    exact h.lt_length ha
  numbered := by
    intro n j hn
    rw [List.getElem?_append] at hn
    split at hn
    · exact h.numbered_concat _ hn
    · rw [List.getElem?_singleton] at hn
      split at hn
      · cases hn
        exact ⟨.later positions.length body, by simp, by simp only [Piece.index?]; congr 1; omega⟩
      · cases hn
  contents := by
    rw [List.flatMap_append, flatMap_concat (fun _ => h.lt_length), h.contents]
    simp [Piece.body]

end Fragments

/-! ## Runs -/

/-- What the state holds is the fragments since the last start. -/
def Held (ps : List (Piece α ε)) : State α → Prop
  | .idle => True
  | .collecting declared next bytes _ _ =>
    Fragments ps (used ps) declared bytes ∧ (used ps).length = next

variable {refusals}

theorem hold_spec {ps : List (Piece α ε)} {declared next : Nat} {bytes : List α}
    {started : 0 < next} (h : Fragments ps (used ps) declared bytes)
    (hlen : (used ps).length = next) :
    Held ps (hold refusals declared next bytes started).1 ∧
      ∀ message, (hold refusals declared next bytes started).2 = .ok (some message) →
        (hold refusals declared next bytes started).1 = .idle ∧
          Fragments ps (used ps) message.length message := by
  unfold hold
  split
  · exact ⟨⟨h, hlen⟩, fun _ he => (nomatch he)⟩
  · split
    · rename_i he
      refine ⟨trivial, fun message hm => ?_⟩
      cases hm
      exact ⟨rfl, he ▸ h⟩
    · exact ⟨trivial, fun _ he => (nomatch he)⟩

/-- What one packet does: the state holds the fragments since the last start, and a message
is these fragments. -/
theorem feed_spec {ps : List (Piece α ε)} {s : State α} (h : Held ps s) (p : Piece α ε) :
    Held (ps ++ [p]) (feed refusals s p).1 ∧
      ∀ message, (feed refusals s p).2 = .ok (some message) →
        (feed refusals s p).1 = .idle ∧
          Fragments (ps ++ [p]) (used (ps ++ [p])) message.length message := by
  cases p with
  | unreadable e =>
    refine ⟨?_, fun _ he => (nomatch he)⟩
    cases s with
    | idle => trivial
    | collecting =>
      refine ⟨?_, ?_⟩
      · rw [used_concat]
        exact h.1.unreadable e
      · rw [used_concat]
        exact h.2
  | broken e =>
    exact ⟨trivial, fun _ he => (nomatch he)⟩
  | first declared body =>
    apply hold_spec
    · rw [used_concat]
      exact .start ps declared body
    · rw [used_concat]
      rfl
  | later index body =>
    cases s with
    | idle => exact ⟨trivial, fun _ he => (nomatch he)⟩
    | collecting declared next bytes started room =>
      obtain ⟨hf, rfl⟩ := h
      simp only [feed]
      split
      · rename_i hi
        subst hi
        apply hold_spec
        · rw [used_concat]
          exact hf.later body started
        · rw [used_concat, extend, List.length_append, List.length_singleton]
      · exact ⟨trivial, fun _ he => (nomatch he)⟩

theorem held_run (ps : List (Piece α ε)) : Held ps (Receiver.run (feed refusals) .idle ps).1 := by
  induction ps using List.reverseRecOn with
  | nil => trivial
  | append_singleton ps p ih =>
    rw [Receiver.run_concat]
    exact (feed_spec ih p).1

/-- A message comes of a first fragment, or of a later one while collecting. -/
theorem feed_message {s : State α} {p : Piece α ε} {message : List α}
    (h : (feed refusals s p).2 = .ok (some message)) :
    (∃ declared body, p = .first declared body) ∨
      ∃ declared next bytes started room body,
        s = .collecting declared next bytes started room ∧ p = .later next body := by
  cases p with
  | unreadable e => cases h
  | broken e => cases h
  | first declared body => exact .inl ⟨declared, body, rfl⟩
  | later index body =>
    cases s with
    | idle => cases h
    | collecting declared next bytes started room =>
      simp only [feed] at h
      split at h
      · rename_i hi
        exact .inr ⟨declared, next, bytes, started, room, body, rfl, by rw [hi]⟩
      · cases h

/-- The answer at a position of a longer run is an earlier one or the last. -/
theorem getElem?_run_concat {ps : List (Piece α ε)} {p : Piece α ε} {s : State α} {j : Nat}
    {answer : Except ε (Option (List α))}
    (h : (Receiver.run (feed refusals) s (ps ++ [p])).2[j]? = some answer) :
    j < ps.length ∧ (Receiver.run (feed refusals) s ps).2[j]? = some answer ∨
      j = ps.length ∧ (feed refusals (Receiver.run (feed refusals) s ps).1 p).2 = answer := by
  rw [Receiver.run_concat, List.getElem?_append, Receiver.length_run] at h
  split at h
  · exact .inl ⟨‹_›, h⟩
  · rw [List.getElem?_singleton] at h
    split at h
    · exact .inr ⟨by omega, Option.some.inj h⟩
    · cases h

/-- While collecting, what is held came after every message. -/
theorem used_after_messages (ps : List (Piece α ε)) {declared next : Nat} {bytes : List α}
    {started : 0 < next} {room : bytes.length < declared}
    (h : (Receiver.run (feed refusals) .idle ps).1 = .collecting declared next bytes started room)
    {j : Nat} {message : List α}
    (hj : (Receiver.run (feed refusals) .idle ps).2[j]? = some (.ok (some message))) :
    ∀ i ∈ used ps, j < i := by
  induction ps using List.reverseRecOn generalizing declared next bytes with
  | nil => cases h
  | append_singleton ps p ih =>
    intro i hi
    rcases getElem?_run_concat hj with ⟨hlt, hearlier⟩ | ⟨-, hlast⟩
    · rw [Receiver.run_concat] at h
      rw [used_concat] at hi
      cases p with
      | unreadable e => exact ih h hearlier i hi
      | broken e => cases h
      | first declared body =>
        rw [List.mem_singleton.1 hi]
        exact hlt
      | later index body =>
        cases hs : (Receiver.run (feed refusals) .idle ps).1 with
        | idle => rw [hs] at h; cases h
        | collecting =>
          rcases List.mem_append.1 hi with hi | hi
          · exact ih hs hearlier i hi
          · rw [List.mem_singleton.1 hi]
            exact hlt
    · -- a message leaves the receiver idle
      rw [Receiver.run_concat, ((feed_spec (held_run ps) p).2 message hlast).1] at h
      cases h

variable {ps : List (Piece α ε)} {j : Nat} {message : List α}

/-- **What a message is**: the fragments 0, 1, 2, … in order, from the latest packet with
index 0 on, which declared the length the message has. -/
theorem messages_sound
    (h : (Receiver.run (feed refusals) .idle ps).2[j]? = some (.ok (some message))) :
    Fragments (ps.take (j + 1)) (used (ps.take (j + 1))) message.length message := by
  obtain ⟨p, htake, -, hp⟩ := Receiver.getElem?_run h
  rw [htake]
  exact ((feed_spec (held_run _) p).2 message hp).2

/-- What a message is made of came after the messages before it. -/
theorem used_after {i : Nat} {earlier : List α} (hij : i < j)
    (hi : (Receiver.run (feed refusals) .idle ps).2[i]? = some (.ok (some earlier)))
    (hj : (Receiver.run (feed refusals) .idle ps).2[j]? = some (.ok (some message))) :
    ∀ k ∈ used (ps.take (j + 1)), i < k := by
  obtain ⟨p, htake, hp, hfeed⟩ := Receiver.getElem?_run hj
  have hlen : (ps.take j).length = j := by
    have := (List.getElem?_eq_some_iff.1 hp).1
    rw [List.length_take]
    omega
  intro k hk
  rw [htake, used_concat, hlen] at hk
  rcases feed_message hfeed with ⟨declared, body, rfl⟩ |
    ⟨declared, next, bytes, started, room, body, hs, rfl⟩
  · rw [List.mem_singleton.1 hk]
    exact hij
  · rcases List.mem_append.1 hk with hk | hk
    · have hearlier : (Receiver.run (feed refusals) .idle (ps.take j)).2[i]? =
          some (.ok (some earlier)) := by
        rw [Receiver.run_take, List.getElem?_take_of_lt hij]
        exact hi
      exact used_after_messages (ps.take j) hs hearlier k hk
    · rw [List.mem_singleton.1 hk]
      exact hij

/-- No packet is used for two messages. -/
theorem messages_disjoint {i : Nat} {other : List α} (hne : i ≠ j)
    (hi : (Receiver.run (feed refusals) .idle ps).2[i]? = some (.ok (some other)))
    (hj : (Receiver.run (feed refusals) .idle ps).2[j]? = some (.ok (some message))) :
    (used (ps.take (i + 1))).Disjoint (used (ps.take (j + 1))) := by
  intro k hki hkj
  have hbi := (messages_sound hi).lt_length hki
  have hbj := (messages_sound hj).lt_length hkj
  rw [List.length_take] at hbi hbj
  rcases Nat.lt_or_gt_of_ne hne with hlt | hgt
  · have := used_after hlt hi hj k hkj
    omega
  · have := used_after hgt hj hi k hki
    omega

end Collector
