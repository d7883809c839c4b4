/-!
# Stripping both ends of a list

`strip p l` is `l` without the elements at its two ends that satisfy `p`: what is taken
off does (`strip_spec`), and nothing more is taken off than that (`strip_append`).
-/

namespace Strip

universe u

variable {α : Type u} {p : α → Bool}

def strip (p : α → Bool) (l : List α) : List α := ((l.dropWhile p).reverse.dropWhile p).reverse

theorem dropWhile_spec (p : α → Bool) (l : List α) :
    ∃ lead, l = lead ++ l.dropWhile p ∧ ∀ a ∈ lead, p a := by
  induction l with
  | nil => exact ⟨[], rfl, fun _ h => absurd h List.not_mem_nil⟩
  | cons a l ih =>
    rw [List.dropWhile_cons]
    split
    · rename_i ha
      obtain ⟨lead, heq, hlead⟩ := ih
      refine ⟨a :: lead, congrArg (a :: ·) heq, fun b hb => ?_⟩
      rcases List.mem_cons.1 hb with rfl | hb
      · exact ha
      · exact hlead b hb
    · exact ⟨[], rfl, fun _ h => absurd h List.not_mem_nil⟩

/-- What `strip` takes off satisfies `p`. -/
theorem strip_spec (p : α → Bool) (l : List α) :
    ∃ lead trail, l = lead ++ strip p l ++ trail ∧ (∀ a ∈ lead, p a) ∧ ∀ a ∈ trail, p a := by
  obtain ⟨lead, hl, hlead⟩ := dropWhile_spec p l
  obtain ⟨trail, hr, htrail⟩ := dropWhile_spec p (l.dropWhile p).reverse
  refine ⟨lead, trail.reverse, ?_, hlead, fun a ha => htrail a (List.mem_reverse.1 ha)⟩
  have hcore : l.dropWhile p = strip p l ++ trail.reverse := by
    rw [strip, ← List.reverse_append, ← hr, List.reverse_reverse]
  rw [List.append_assoc, ← hcore]
  exact hl

theorem dropWhile_append {lead l : List α} (hlead : ∀ a ∈ lead, p a)
    (hl : ∀ a, l.head? = some a → p a = false) : (lead ++ l).dropWhile p = l := by
  induction lead with
  | nil =>
    cases l with
    | nil => rfl
    | cons a l => exact List.dropWhile_cons_of_neg (by simp [hl a rfl])
  | cons a lead ih =>
    rw [List.cons_append, List.dropWhile_cons_of_pos (hlead a (List.mem_cons_self ..))]
    exact ih fun b hb => hlead b (List.mem_cons_of_mem _ hb)

/-- A list without an element that satisfies `p` is left alone. -/
theorem strip_eq_self {l : List α} (h : ∀ a ∈ l, p a = false) : strip p l = l := by
  have hdrop : ∀ l : List α, (∀ a ∈ l, p a = false) → l.dropWhile p = l := fun l h => by
    have happend : ([] ++ l).dropWhile p = l := dropWhile_append
      (fun _ ha => absurd ha List.not_mem_nil) fun a ha => h a (List.mem_of_head? ha)
    exact happend
  rw [strip, hdrop l h, hdrop l.reverse fun a ha => h a (List.mem_reverse.1 ha),
    List.reverse_reverse]

/-- **A list whose ends do not satisfy `p` is what `strip` leaves of it.** -/
theorem strip_append {lead core trail : List α} (hlead : ∀ a ∈ lead, p a)
    (htrail : ∀ a ∈ trail, p a) (hhead : ∀ a, core.head? = some a → p a = false)
    (hlast : ∀ a, core.getLast? = some a → p a = false) (hne : core ≠ []) :
    strip p (lead ++ core ++ trail) = core := by
  have hfirst : ∀ a, (core ++ trail).head? = some a → p a = false := by
    cases core with
    | nil => exact absurd rfl hne
    | cons b core => exact hhead
  have hrev : ∀ a, core.reverse.head? = some a → p a = false := by
    intro a ha
    rw [List.head?_reverse] at ha
    exact hlast a ha
  have htrail' : ∀ a ∈ trail.reverse, p a := fun a ha => htrail a (List.mem_reverse.1 ha)
  rw [strip, List.append_assoc, dropWhile_append hlead hfirst, List.reverse_append,
    dropWhile_append htrail' hrev, List.reverse_reverse]

end Strip
