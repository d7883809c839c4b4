/-!
# Lists joined by a doubled mark

Parts that hold no two marks in a row and do not begin with one can be told apart after
they are joined by two marks, even when a part ends in a mark (`intercalate_injective`).
A single mark divides a list in one way where it comes first (`append_mark_inj`).
-/

namespace Delimited

universe u

variable {α : Type u} {a : α}

/-- Two marks in a row. -/
abbrev HasPair (a : α) (l : List α) : Prop := [a, a] <:+: l

structure IsPart (a : α) (l : List α) : Prop where
  ne_nil : l ≠ []
  head_ne : l.head? ≠ some a
  no_pair : ¬ HasPair a l

/-- What follows a part in a joined list. -/
def IsTail (a : α) (s : List α) : Prop := s = [] ∨ ∃ rest, s = a :: a :: rest ∧ rest.head? ≠ some a

theorem hasPair_cons {x : α} {l : List α} (h : HasPair a l) : HasPair a (x :: l) :=
  List.infix_cons_iff.2 (.inr h)

/-- Marks do not occur in what is put before. -/
theorem not_hasPair_append {l m : List α} (hl : a ∉ l) (hm : ¬ HasPair a m) :
    ¬ HasPair a (l ++ m) := by
  induction l with
  | nil => exact hm
  | cons x l ih =>
    rw [List.mem_cons, not_or] at hl
    intro h
    rcases List.infix_cons_iff.1 h with hp | hi
    · exact hl.1 (List.cons_prefix_cons.1 hp).1
    · exact ih hl.2 hi

/-- A tail does not begin with a part and another tail. -/
theorem IsTail.eq_nil {s m s' : List α} (hs : IsTail a s) (hs' : IsTail a s')
    (hm : ¬ HasPair a m) (h : s = m ++ s') : m = [] := by
  rcases hs with rfl | ⟨rest, rfl, hrest⟩
  · exact (List.append_eq_nil_iff.1 h.symm).1
  · match m, hm, h with
    | [], _, _ => rfl
    | [x], _, h =>
      -- the pair of the tail cannot straddle the end of the part
      have hcut : a :: rest = s' := (List.cons.inj h).2
      rcases hs' with rfl | ⟨rest', rfl, -⟩
      · cases hcut
      · rw [(List.cons.inj hcut).2] at hrest
        exact absurd rfl hrest
    | x :: y :: m, hm, h =>
      obtain ⟨hx, hcut⟩ := List.cons.inj h
      obtain ⟨hy, -⟩ := List.cons.inj hcut
      subst hx hy
      exact absurd ⟨[], m, rfl⟩ hm

/-- A part ends where its tail begins. -/
theorem append_tail_inj {l m s s' : List α} (hl : ¬ HasPair a l) (hm : ¬ HasPair a m)
    (hs : IsTail a s) (hs' : IsTail a s') (h : l ++ s = m ++ s') : l = m ∧ s = s' := by
  induction l generalizing m with
  | nil =>
    obtain rfl := hs.eq_nil hs' hm h
    exact ⟨rfl, h⟩
  | cons x l ih =>
    cases m with
    | nil => exact absurd (hs'.eq_nil hs hl h.symm) (List.cons_ne_nil _ _)
    | cons y m =>
      obtain ⟨rfl, htail⟩ := List.cons.inj h
      obtain ⟨rfl, hss⟩ := ih (fun h => hl (hasPair_cons h)) (fun h => hm (hasPair_cons h)) htail
      exact ⟨rfl, hss⟩

/-- What is joined behind the first part. -/
def tailOf (a : α) : List (List α) → List α
  | [] => []
  | ls => [a, a] ++ [a, a].intercalate ls

theorem intercalate_cons (l : List α) (ls : List (List α)) :
    [a, a].intercalate (l :: ls) = l ++ tailOf a ls := by
  cases ls with
  | nil => rw [List.intercalate_singleton, tailOf, List.append_nil]
  | cons m ls =>
    rw [List.intercalate_cons_cons, List.append_assoc]
    rfl

theorem head?_intercalate {l : List α} (hl : l ≠ []) (ls : List (List α)) :
    ([a, a].intercalate (l :: ls)).head? = l.head? := by
  rw [intercalate_cons]
  cases l with
  | nil => exact absurd rfl hl
  | cons x l => rfl

theorem isTail_tailOf {ls : List (List α)} (h : ∀ l ∈ ls, IsPart a l) : IsTail a (tailOf a ls) := by
  cases ls with
  | nil => exact .inl rfl
  | cons l ls =>
    have hl := h l (List.mem_cons_self ..)
    have hhead : ([a, a].intercalate (l :: ls)).head? ≠ some a := by
      rw [head?_intercalate hl.ne_nil]
      exact hl.head_ne
    exact .inr ⟨_, rfl, hhead⟩

/-- **Joined parts can be told apart.** -/
theorem intercalate_injective {ls ms : List (List α)} (hl : ∀ l ∈ ls, IsPart a l)
    (hm : ∀ m ∈ ms, IsPart a m) (h : [a, a].intercalate ls = [a, a].intercalate ms) : ls = ms := by
  induction ls generalizing ms with
  | nil =>
    cases ms with
    | nil => rfl
    | cons m ms =>
      rw [intercalate_cons] at h
      exact absurd (List.append_eq_nil_iff.1 h.symm).1 (hm m (List.mem_cons_self ..)).ne_nil
  | cons l ls ih =>
    cases ms with
    | nil =>
      rw [intercalate_cons] at h
      exact absurd (List.append_eq_nil_iff.1 h).1 (hl l (List.mem_cons_self ..)).ne_nil
    | cons m ms =>
      have hls : ∀ l ∈ ls, IsPart a l := fun x hx => hl x (List.mem_cons_of_mem _ hx)
      have hms : ∀ m ∈ ms, IsPart a m := fun x hx => hm x (List.mem_cons_of_mem _ hx)
      rw [intercalate_cons, intercalate_cons] at h
      obtain ⟨rfl, htail⟩ := append_tail_inj (hl l (List.mem_cons_self ..)).no_pair
        (hm m (List.mem_cons_self ..)).no_pair (isTail_tailOf hls) (isTail_tailOf hms) h
      congr 1
      cases ls with
      | nil =>
        cases ms with
        | nil => rfl
        | cons m ms => cases htail
      | cons l ls =>
        cases ms with
        | nil => cases htail
        | cons m ms => exact ih hls hms (List.append_cancel_left htail)

/-- **The first mark divides a list in one way.** -/
theorem append_mark_inj {l m s t : List α} (hl : a ∉ l) (hm : a ∉ m)
    (h : l ++ a :: s = m ++ a :: t) : l = m ∧ s = t := by
  induction l generalizing m with
  | nil =>
    cases m with
    | nil => exact ⟨rfl, (List.cons.inj h).2⟩
    | cons y m =>
      obtain ⟨rfl, -⟩ := List.cons.inj h
      exact absurd (List.mem_cons_self ..) hm
  | cons x l ih =>
    rw [List.mem_cons, not_or] at hl
    cases m with
    | nil =>
      obtain ⟨rfl, -⟩ := List.cons.inj h
      exact absurd rfl hl.1
    | cons y m =>
      rw [List.mem_cons, not_or] at hm
      obtain ⟨rfl, htail⟩ := List.cons.inj h
      obtain ⟨rfl, hst⟩ := ih hl.2 hm.2 htail
      exact ⟨rfl, hst⟩

end Delimited
