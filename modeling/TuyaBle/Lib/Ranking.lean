import Mathlib.Data.Prod.Lex
import Mathlib.Order.WellFounded
import TuyaBle.Lib.Run

/-!
# Machines that come to an end

A run is `Endless` when every step of it meets a condition and none is the last. The rule
proofs use is `not_endless`: the steps lower a rank in a well-founded order, in the states an
invariant of theirs allows. Ranks with parts are compared lexicographically.
-/

universe u v w x

namespace Machine

variable {σ : Type u} {ε : Type v} {ο : Type w} {M : Machine σ ε ο}

variable (M) in
/-- Some run from `s` whose every step meets `C` goes on for ever. -/
def Endless (C : σ → ε → Prop) (s : σ) : Prop :=
  ∃ (states : Nat → σ) (events : Nat → ε), states 0 = s ∧
    ∀ n, C (states n) (events n) ∧ ∃ os, M.step (states n) (events n) = some (states (n + 1), os)

/-- **The ranking rule.** -/
theorem not_endless {α : Type x} [Preorder α] [WellFoundedLT α] {C : σ → ε → Prop} {I : σ → Prop}
    (rank : σ → α) {s : σ} (h0 : I s)
    (hstep : ∀ s e t os, I s → C s e → M.step s e = some (t, os) → I t ∧ rank t < rank s) :
    ¬ M.Endless C s := by
  rintro ⟨states, events, rfl, h⟩
  have hinv : ∀ n, I (states n) := by
    intro n
    induction n with
    | zero => exact h0
    | succ n ih =>
      obtain ⟨hc, os, hs⟩ := h n
      exact (hstep _ _ _ _ ih hc hs).1
  obtain ⟨n, hn⟩ := WellFounded.not_rel_apply_succ (r := (· < ·)) fun n => rank (states n)
  obtain ⟨hc, os, hs⟩ := h n
  exact hn (hstep _ _ _ _ (hinv n) hc hs).2

end Machine

/-! ## Ranks with parts -/

section Lex

variable {α : Type u} {β : Type v} [LT α] [LT β] {a a' : α} {b b' : β}

theorem toLex_lt_of_left (h : a' < a) : toLex (a', b') < toLex (a, b) :=
  Prod.Lex.toLex_lt_toLex.2 (.inl h)

theorem toLex_lt_of_right (ha : a' = a) (h : b' < b) : toLex (a', b') < toLex (a, b) :=
  Prod.Lex.toLex_lt_toLex.2 (.inr ⟨ha, h⟩)

end Lex
