import Mathlib.Order.Defs.PartialOrder

/-!
# The first value of each key

Entries stand at places of an order, and a partial function reads their values. `Firsts`
says that a list keeps, in the order of the places, the first value of each key. It grows
with the entries, one place at a time: an entry that has no value is skipped, one whose key
has a value already is hidden behind it, any other is kept.
-/

universe u v w x

section
variable {ι : Type u} {α : Type v} {β : Type w} {κ : Type x} [Preorder ι]

/-- `b` is read at `place`, and no value of its key is read before. -/
structure IsFirst (read : α → Option β) (key : β → κ) (entries : List (ι × α)) (place : ι)
    (b : β) : Prop where
  reads : ∃ a, (place, a) ∈ entries ∧ read a = some b
  earlier : ∀ e ∈ entries, e.1 < place → ∀ c, read e.2 = some c → key c ≠ key b

structure Firsts (read : α → Option β) (key : β → κ) (entries : List (ι × α))
    (kept : List (ι × β)) : Prop where
  ordered : kept.Pairwise (·.1 < ·.1)
  first : ∀ p ∈ kept, IsFirst read key entries p.1 p.2
  complete : ∀ e ∈ entries, ∀ b, read e.2 = some b → ∃ p ∈ kept, key p.2 = key b

variable {read : α → Option β} {key : β → κ} {entries : List (ι × α)} {kept : List (ι × β)}
  {last : ι} {a : α} {b : β}

/-- What comes after all entries does not make a value later. -/
theorem IsFirst.append {place : ι} (h : IsFirst read key entries place b)
    (hlast : ∀ e ∈ entries, e.1 < last) : IsFirst read key (entries ++ [(last, a)]) place b := by
  obtain ⟨a', hmem, hread⟩ := h.reads
  refine ⟨⟨a', List.mem_append_left _ hmem, hread⟩, fun e he hlt => ?_⟩
  rcases List.mem_append.1 he with he | he
  · exact h.earlier e he hlt
  · obtain rfl := List.mem_singleton.1 he
    exact absurd hlt (lt_asymm (hlast _ hmem))

namespace Firsts

theorem nil : Firsts read key ([] : List (ι × α)) [] :=
  ⟨.nil, fun _ h => absurd h List.not_mem_nil, fun _ h => absurd h List.not_mem_nil⟩

theorem skip (h : Firsts read key entries kept) (hlast : ∀ e ∈ entries, e.1 < last)
    (hread : read a = none) : Firsts read key (entries ++ [(last, a)]) kept := by
  refine ⟨h.ordered, fun p hp => (h.first p hp).append hlast, fun e he b hb => ?_⟩
  rcases List.mem_append.1 he with he | he
  · exact h.complete e he b hb
  · obtain rfl := List.mem_singleton.1 he
    cases hread.symm.trans hb

theorem hide (h : Firsts read key entries kept) (hlast : ∀ e ∈ entries, e.1 < last)
    (hread : read a = some b) (hkey : key b ∈ kept.map fun p => key p.2) :
    Firsts read key (entries ++ [(last, a)]) kept := by
  refine ⟨h.ordered, fun p hp => (h.first p hp).append hlast, fun e he c hc => ?_⟩
  rcases List.mem_append.1 he with he | he
  · exact h.complete e he c hc
  · obtain rfl := List.mem_singleton.1 he
    obtain rfl := Option.some.inj (hread.symm.trans hc)
    exact List.mem_map.1 hkey

theorem keep (h : Firsts read key entries kept) (hlast : ∀ e ∈ entries, e.1 < last)
    (hread : read a = some b) (hkey : key b ∉ kept.map fun p => key p.2) :
    Firsts read key (entries ++ [(last, a)]) (kept ++ [(last, b)]) := by
  have hfirst : IsFirst read key (entries ++ [(last, a)]) last b := by
    refine ⟨⟨a, List.mem_append_right _ (List.mem_singleton_self _), hread⟩, ?_⟩
    intro e he hlt c hc
    rcases List.mem_append.1 he with he | he
    · obtain ⟨p, hp, hpc⟩ := h.complete e he c hc
      exact fun hcb => hkey (List.mem_map.2 ⟨p, hp, hpc.trans hcb⟩)
    · obtain rfl := List.mem_singleton.1 he
      exact absurd hlt (lt_irrefl _)
  refine ⟨List.pairwise_append.2 ⟨h.ordered, List.pairwise_singleton _ _, ?_⟩, ?_, ?_⟩
  · intro p hp q hq
    obtain rfl := List.mem_singleton.1 hq
    obtain ⟨a', hmem, -⟩ := (h.first p hp).reads
    exact hlast _ hmem
  · intro p hp
    rcases List.mem_append.1 hp with hp | hp
    · exact (h.first p hp).append hlast
    · obtain rfl := List.mem_singleton.1 hp
      exact hfirst
  · intro e he c hc
    rcases List.mem_append.1 he with he | he
    · obtain ⟨p, hp, hpc⟩ := h.complete e he c hc
      exact ⟨p, List.mem_append_left _ hp, hpc⟩
    · obtain rfl := List.mem_singleton.1 he
      obtain rfl := Option.some.inj (hread.symm.trans hc)
      exact ⟨_, List.mem_append_right _ (List.mem_singleton_self _), rfl⟩

/-- **No key is kept twice.** -/
theorem nodup (h : Firsts read key entries kept) : (kept.map fun p => key p.2).Nodup := by
  rw [List.Nodup, List.pairwise_map]
  refine h.ordered.imp_of_mem fun {p q} hp hq hlt => ?_
  obtain ⟨a, hmem, hread⟩ := (h.first p hp).reads
  exact (h.first q hq).earlier _ hmem hlt _ hread

/-- **The keys kept are the keys read.** -/
theorem mem_keys_iff (h : Firsts read key entries kept) {k : κ} :
    k ∈ kept.map (fun p => key p.2) ↔ ∃ e ∈ entries, ∃ b, read e.2 = some b ∧ key b = k := by
  rw [List.mem_map]
  constructor
  · rintro ⟨p, hp, rfl⟩
    obtain ⟨a, hmem, hread⟩ := (h.first p hp).reads
    exact ⟨_, hmem, _, hread, rfl⟩
  · rintro ⟨e, he, b, hread, rfl⟩
    exact h.complete e he b hread

end Firsts

end
