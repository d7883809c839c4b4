/-!
# Histories

`Along Q past os`: every observation of `os` meets `Q` with respect to what was observed
before it, starting from `past`. `along_append` lets a run be followed step by step and
`Along.at` reads the property off at one observation.
-/

universe u

variable {ο : Type u}

def Along (Q : List ο → ο → Prop) : List ο → List ο → Prop
  | _, [] => True
  | past, o :: os => Q past o ∧ Along Q (past ++ [o]) os

namespace Along

variable {Q R : List ο → ο → Prop} {past os os' : List ο}

@[simp] theorem nil : Along Q past [] := trivial

@[simp] theorem cons {o : ο} :
    Along Q past (o :: os) ↔ Q past o ∧ Along Q (past ++ [o]) os := Iff.rfl

theorem append : Along Q past (os ++ os') ↔ Along Q past os ∧ Along Q (past ++ os) os' := by
  induction os generalizing past with
  | nil => simp
  | cons o os ih => simp [ih, and_assoc]

/-- Observations that meet `Q` whatever came before them. -/
theorem of_forall (h : ∀ past, ∀ o ∈ os, Q past o) : Along Q past os := by
  induction os generalizing past with
  | nil => trivial
  | cons o os ih =>
    exact ⟨h past o (List.mem_cons_self ..),
      ih fun past o ho => h past o (List.mem_cons_of_mem _ ho)⟩

theorem mono (h : Along Q past os) (hQR : ∀ past o, Q past o → R past o) : Along R past os := by
  induction os generalizing past with
  | nil => trivial
  | cons o os ih => exact ⟨hQR _ _ h.1, ih h.2⟩

/-- The property at one observation. -/
theorem «at» {before after : List ο} {o : ο} (h : Along Q [] os) (he : os = before ++ o :: after) :
    Q before o := by
  subst he
  exact (append.1 h).2.1

end Along
