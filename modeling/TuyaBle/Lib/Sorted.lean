import Mathlib.Data.List.Sort

/-!
# What a sorted list keeps

The part of a sorted list that a partial function keeps depends on the elements it
keeps alone: not on the order they came in, nor on the others
(`filterMap_sort_congr`).
-/

namespace Sorted

universe u v

variable {α : Type u} {β : Type v} [LinearOrder α]

def sort (l : List α) : List α := l.insertionSort (· ≤ ·)

theorem mem_sort {l : List α} {x : α} : x ∈ sort l ↔ x ∈ l := List.mem_insertionSort _

theorem nodup_sort {l : List α} (h : l.Nodup) : (sort l).Nodup :=
  (List.perm_insertionSort _ l).nodup_iff.2 h

theorem filter_sort_congr {p : α → Bool} {l m : List α} (hl : l.Nodup) (hm : m.Nodup)
    (h : ∀ x, p x → (x ∈ l ↔ x ∈ m)) : (sort l).filter p = (sort m).filter p := by
  have hsorted : ∀ k : List α, ((sort k).filter p).Pairwise (· ≤ ·) := fun k =>
    (List.pairwise_insertionSort _ k).filter p
  apply List.Perm.eq_of_pairwise' (hsorted l) (hsorted m)
  apply (List.perm_ext_iff_of_nodup ((nodup_sort hl).filter p) ((nodup_sort hm).filter p)).2
  intro x
  rw [List.mem_filter, List.mem_filter, mem_sort, mem_sort]
  exact and_congr_left (h x)

omit [LinearOrder α] in
theorem filterMap_eq_filter (f : α → Option β) (l : List α) :
    l.filterMap f = (l.filter fun x => (f x).isSome).filterMap f := by
  rw [List.filterMap_filter]
  congr 1
  funext x
  cases f x <;> rfl

/-- **The order of the list and what is left out of it do not show.** -/
theorem filterMap_sort_congr {f : α → Option β} {l m : List α} (hl : l.Nodup) (hm : m.Nodup)
    (h : ∀ x, (f x).isSome → (x ∈ l ↔ x ∈ m)) : (sort l).filterMap f = (sort m).filterMap f := by
  rw [filterMap_eq_filter, filter_sort_congr hl hm h, ← filterMap_eq_filter]

end Sorted
