/-!
# Insertion-ordered dictionaries

A `Dict` lists its entries in insertion order: `set` replaces the value of a key in
place or appends a new entry, `erase` drops the entry. `setAll` stores a list of
values one after the other, each under its own key; the last value stored under a
key is the one `get?` returns (`get?_setAll`). `update` stores the entries of another
dictionary; no operation makes a key occur twice (`nodup_keys_set`, `nodup_keys_erase`,
`nodup_keys_update`).
-/

universe u v

abbrev Dict (κ : Type u) (α : Type v) := List (κ × α)

namespace Dict

variable {κ : Type u} {α : Type v} [DecidableEq κ]

def get? : Dict κ α → κ → Option α
  | [], _ => none
  | (k, v) :: d, x => if k = x then some v else get? d x

def set : Dict κ α → κ → α → Dict κ α
  | [], x, a => [(x, a)]
  | (k, v) :: d, x, a => if k = x then (x, a) :: d else (k, v) :: set d x a

def erase : Dict κ α → κ → Dict κ α
  | [], _ => []
  | (k, v) :: d, x => if k = x then erase d x else (k, v) :: erase d x

@[simp] theorem get?_nil (x : κ) : get? ([] : Dict κ α) x = none := rfl

@[simp] theorem erase_nil (x : κ) : erase ([] : Dict κ α) x = [] := rfl

@[simp] theorem set_nil (x : κ) (a : α) : set ([] : Dict κ α) x a = [(x, a)] := rfl

theorem get?_set (d : Dict κ α) (x y : κ) (a : α) :
    (d.set x a).get? y = if x = y then some a else d.get? y := by
  induction d with
  | nil => simp [set, get?]
  | cons p d ih =>
    obtain ⟨k, v⟩ := p
    by_cases hk : k = x
    · subst hk; simp only [set, get?, ↓reduceIte]; split <;> rfl
    · simp only [set, get?, hk, ↓reduceIte, ih]
      by_cases hy : k = y
      · subst hy; simp [Ne.symm hk]
      · simp [hy]

theorem get?_erase (d : Dict κ α) (x y : κ) :
    (d.erase x).get? y = if x = y then none else d.get? y := by
  induction d with
  | nil => simp
  | cons p d ih =>
    obtain ⟨k, v⟩ := p
    by_cases hk : k = x
    · subst hk
      simp only [erase, get?, ↓reduceIte, ih]
      split <;> rfl
    · simp only [erase, get?, hk, ↓reduceIte, ih]
      by_cases hy : k = y
      · subst hy; simp [Ne.symm hk]
      · simp [hy]

theorem mem_of_get? {d : Dict κ α} {x : κ} {a : α} (h : d.get? x = some a) : (x, a) ∈ d := by
  induction d with
  | nil => cases h
  | cons p d ih =>
    obtain ⟨k, v⟩ := p
    rw [get?] at h
    split at h
    · rename_i hk
      cases h
      exact hk ▸ List.mem_cons_self ..
    · exact List.mem_cons_of_mem _ (ih h)

theorem not_mem_erase {d : Dict κ α} {x : κ} : ∀ p ∈ d.erase x, p.1 ≠ x := by
  induction d with
  | nil => simp
  | cons q d ih =>
    obtain ⟨k, v⟩ := q
    rw [erase]
    split
    · exact ih
    · rename_i hk
      intro p hp
      rcases List.mem_cons.1 hp with rfl | hp
      · exact hk
      · exact ih p hp

theorem get?_eq_none {d : Dict κ α} {x : κ} (h : ∀ p ∈ d, p.1 ≠ x) : d.get? x = none := by
  cases hg : d.get? x with
  | none => rfl
  | some a => exact absurd rfl (h _ (mem_of_get? hg))

theorem erase_eq_nil {d : Dict κ α} {x : κ}
    (h : ∀ p ∈ d, p.1 = x) : d.erase x = [] := by
  induction d with
  | nil => rfl
  | cons p d ih =>
    obtain ⟨k, v⟩ := p
    have hk : k = x := h (k, v) (List.mem_cons_self ..)
    rw [erase, if_pos hk]
    exact ih fun p hp => h p (List.mem_cons_of_mem _ hp)

theorem mem_of_mem_erase {d : Dict κ α} {x : κ} {p : κ × α}
    (h : p ∈ d.erase x) : p ∈ d := by
  induction d with
  | nil => exact h
  | cons q d ih =>
    obtain ⟨k, v⟩ := q
    rw [erase] at h
    split at h
    · exact List.mem_cons_of_mem _ (ih h)
    · rcases List.mem_cons.1 h with rfl | h
      · exact List.mem_cons_self ..
      · exact List.mem_cons_of_mem _ (ih h)

/-- Store every value of the list under its own key. -/
def setAll (key : α → κ) (d : Dict κ α) (l : List α) : Dict κ α :=
  l.foldl (fun d a => d.set (key a) a) d

@[simp] theorem setAll_nil (key : α → κ) (d : Dict κ α) : setAll key d [] = d := rfl

theorem setAll_append (key : α → κ) (d : Dict κ α) (l m : List α) :
    setAll key d (l ++ m) = setAll key (setAll key d l) m := List.foldl_append ..

theorem foldl_setAll (key : α → κ) (d : Dict κ α) (l : List (List α)) :
    l.foldl (fun d m => setAll key d m) d = setAll key d l.flatten := by
  induction l generalizing d with
  | nil => rfl
  | cons m l ih => rw [List.foldl_cons, ih, List.flatten_cons, setAll_append]

/-- **The last value stored under a key wins.** -/
theorem get?_setAll (key : α → κ) (d : Dict κ α) (l : List α) (x : κ) :
    (setAll key d l).get? x = (l.reverse.find? fun a => key a = x).or (d.get? x) := by
  induction l generalizing d with
  | nil => simp
  | cons a l ih =>
    rw [show setAll key d (a :: l) = setAll key (d.set (key a) a) l from rfl, ih, get?_set,
      List.reverse_cons, List.find?_append, Option.or_assoc]
    by_cases h : key a = x
    · simp [h]
    · simp [h]

/-! ## Keys and updates -/

def keys (d : Dict κ α) : List κ := d.map Prod.fst

omit [DecidableEq κ] in
@[simp] theorem keys_nil : keys ([] : Dict κ α) = [] := rfl

omit [DecidableEq κ] in
@[simp] theorem keys_cons (p : κ × α) (d : Dict κ α) : keys (p :: d) = p.1 :: keys d := rfl

theorem mem_keys_iff {d : Dict κ α} {x : κ} : x ∈ d.keys ↔ (d.get? x).isSome := by
  induction d with
  | nil => simp [get?]
  | cons p d ih =>
    obtain ⟨k, v⟩ := p
    rw [keys_cons, List.mem_cons, ih, get?]
    by_cases hk : k = x
    · simp [hk]
    · simp [hk, Ne.symm hk]

theorem get?_of_mem {d : Dict κ α} (hn : d.keys.Nodup) {x : κ} {a : α} (h : (x, a) ∈ d) :
    d.get? x = some a := by
  induction d with
  | nil => cases h
  | cons p d ih =>
    obtain ⟨k, v⟩ := p
    rw [keys_cons, List.nodup_cons] at hn
    rw [get?]
    rcases List.mem_cons.1 h with heq | h
    · cases heq
      exact if_pos rfl
    · have hk : k ≠ x := by
        rintro rfl
        exact hn.1 (List.mem_map.2 ⟨_, h, rfl⟩)
      rw [if_neg hk, ih hn.2 h]

theorem mem_keys_set {d : Dict κ α} {x y : κ} {a : α} :
    y ∈ (d.set x a).keys ↔ x = y ∨ y ∈ d.keys := by
  rw [mem_keys_iff, mem_keys_iff, get?_set]
  by_cases h : x = y
  · simp [h]
  · simp [h]

theorem nodup_keys_set {d : Dict κ α} (h : d.keys.Nodup) (x : κ) (a : α) :
    (d.set x a).keys.Nodup := by
  induction d with
  | nil => simp
  | cons p d ih =>
    obtain ⟨k, v⟩ := p
    rw [keys_cons, List.nodup_cons] at h
    rw [set]
    split
    · rename_i hk
      exact List.nodup_cons.2 ⟨hk ▸ h.1, h.2⟩
    · rename_i hk
      refine List.nodup_cons.2 ⟨fun hm => ?_, ih h.2⟩
      rcases mem_keys_set.1 hm with hx | hm
      · exact hk hx.symm
      · exact h.1 hm

theorem nodup_keys_erase {d : Dict κ α} (h : d.keys.Nodup) (x : κ) : (d.erase x).keys.Nodup := by
  induction d with
  | nil => exact h
  | cons p d ih =>
    obtain ⟨k, v⟩ := p
    rw [keys_cons, List.nodup_cons] at h
    rw [erase]
    split
    · exact ih h.2
    · refine List.nodup_cons.2 ⟨fun hm => h.1 ?_, ih h.2⟩
      obtain ⟨q, hq, hk⟩ := List.mem_map.1 hm
      exact List.mem_map.2 ⟨q, mem_of_mem_erase hq, hk⟩

/-- Store every entry of `e`. -/
def update (d e : Dict κ α) : Dict κ α := e.foldl (fun d p => d.set p.1 p.2) d

/-- The dictionary of a list of entries. -/
def ofPairs (entries : List (κ × α)) : Dict κ α := update [] entries

@[simp] theorem update_nil (d : Dict κ α) : update d [] = d := rfl

@[simp] theorem update_cons (d : Dict κ α) (p : κ × α) (e : Dict κ α) :
    update d (p :: e) = update (d.set p.1 p.2) e := rfl

theorem nodup_keys_update {d : Dict κ α} (h : d.keys.Nodup) (e : Dict κ α) :
    (d.update e).keys.Nodup := by
  induction e generalizing d with
  | nil => exact h
  | cons p e ih => exact ih (nodup_keys_set h p.1 p.2)

theorem nodup_keys_ofPairs (entries : List (κ × α)) : (ofPairs entries).keys.Nodup :=
  nodup_keys_update (d := []) List.nodup_nil entries

theorem get?_update_of_not_mem {e : Dict κ α} {x : κ} (h : x ∉ e.keys) (d : Dict κ α) :
    (d.update e).get? x = d.get? x := by
  induction e generalizing d with
  | nil => rfl
  | cons p e ih =>
    rw [keys_cons, List.mem_cons, not_or] at h
    rw [update_cons, ih h.2, get?_set, if_neg (Ne.symm h.1)]

/-- **An entry of `e` hides the one `d` has under its key.** -/
theorem get?_update {e : Dict κ α} (h : e.keys.Nodup) (d : Dict κ α) (x : κ) :
    (d.update e).get? x = (e.get? x).or (d.get? x) := by
  induction e generalizing d with
  | nil => rfl
  | cons p e ih =>
    obtain ⟨k, v⟩ := p
    rw [keys_cons, List.nodup_cons] at h
    rw [update_cons, get?]
    by_cases hk : k = x
    · subst hk
      rw [get?_update_of_not_mem h.1, get?_set, if_pos rfl, if_pos rfl, Option.some_or]
    · rw [ih h.2, get?_set, if_neg hk, if_neg hk]

end Dict
