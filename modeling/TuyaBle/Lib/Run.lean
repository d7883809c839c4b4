/-!
# Deterministic labelled machines and their runs

A `Machine` takes one step per event and emits observations. `Runs C s tr os t`
is a run from `s` to `t`: `tr` pairs every event with the state it was taken in,
`os` is what the run emitted, and every step met the condition `C` on the
observations so far, the state and the event. `exec` computes the same run.

The rule proofs use is `Runs.invariant` (what one step preserves, a run preserves), with
`Runs.strengthen` to use one invariant in the proof of the next.
-/

universe u v w

structure Machine (σ : Type u) (ε : Type v) (ο : Type w) where
  /-- `none` when the event cannot happen in the state. -/
  step : σ → ε → Option (σ × List ο)

namespace Machine

variable {σ : Type u} {ε : Type v} {ο : Type w} {M : Machine σ ε ο}

variable (M) in
inductive Runs (C : List ο → σ → ε → Prop) (s : σ) : List (σ × ε) → List ο → σ → Prop where
  | refl : Runs C s [] [] s
  | snoc {tr : List (σ × ε)} {os os' : List ο} {t t' : σ} {e : ε} : Runs C s tr os t →
      C os t e → M.step t e = some (t', os') → Runs C s (tr ++ [(t, e)]) (os ++ os') t'

/-- The condition every step meets. -/
def Free : List ο → σ → ε → Prop := fun _ _ _ => True

instance (os : List ο) (s : σ) (e : ε) : Decidable (Free os s e) := .isTrue trivial

theorem Runs.mono {C D : List ο → σ → ε → Prop} {s t : σ} {tr : List (σ × ε)} {os : List ο}
    (h : M.Runs C s tr os t) (hCD : ∀ os t e, C os t e → D os t e) : M.Runs D s tr os t := by
  induction h with
  | refl => exact .refl
  | snoc _ hc hs ih => exact .snoc ih (hCD _ _ _ hc) hs

theorem Runs.free {C : List ο → σ → ε → Prop} {s t : σ} {tr : List (σ × ε)} {os : List ο}
    (h : M.Runs C s tr os t) : M.Runs Free s tr os t := h.mono fun _ _ _ _ => trivial

theorem Runs.trans {s t u : σ} {tr tr' : List (σ × ε)} {os os' : List ο}
    (h : M.Runs Free s tr os t) (h' : M.Runs Free t tr' os' u) :
    M.Runs Free s (tr ++ tr') (os ++ os') u := by
  induction h' with
  | refl => simpa using h
  | snoc _ _ hs ih =>
    rw [← List.append_assoc, ← List.append_assoc]
    exact .snoc ih trivial hs

/-- **The invariant rule**: what holds of the empty run and survives every step
holds of every run. -/
theorem Runs.invariant {C : List ο → σ → ε → Prop} {I : List (σ × ε) → List ο → σ → Prop}
    {s t : σ} {tr : List (σ × ε)} {os : List ο} (h : M.Runs C s tr os t) (h0 : I [] [] s)
    (hstep : ∀ tr os t e t' os', I tr os t → C os t e → M.step t e = some (t', os') →
      I (tr ++ [(t, e)]) (os ++ os') t') : I tr os t := by
  induction h with
  | refl => exact h0
  | snoc _ hc hs ih => exact hstep _ _ _ _ _ _ ih hc hs

/-- The invariant rule for a property of the state alone. -/
theorem Runs.preserves {C : List ο → σ → ε → Prop} {I : σ → Prop} {s t : σ}
    {tr : List (σ × ε)} {os : List ο} (h : M.Runs C s tr os t) (h0 : I s)
    (hstep : ∀ t e t' os', I t → M.step t e = some (t', os') → I t') : I t :=
  h.invariant (I := fun _ _ t => I t) h0 fun _ _ _ _ _ _ hi _ hs => hstep _ _ _ _ hi hs

/-- What every step preserves may be used as a condition of every step. -/
theorem Runs.strengthen {C : List ο → σ → ε → Prop} {I : σ → Prop} {s t : σ}
    {tr : List (σ × ε)} {os : List ο} (h : M.Runs C s tr os t) (h0 : I s)
    (hstep : ∀ t e t' os', I t → M.step t e = some (t', os') → I t') :
    M.Runs (fun os t e => C os t e ∧ I t) s tr os t := by
  induction h with
  | refl => exact .refl
  | snoc hr hc hs ih => exact .snoc ih ⟨hc, hr.preserves h0 hstep⟩ hs

/-- A condition on states and events held whenever a step was taken. -/
theorem Runs.of_mem {D : σ → ε → Prop} {s t t' : σ} {tr : List (σ × ε)} {os : List ο} {e : ε}
    (h : M.Runs (fun _ => D) s tr os t) (hm : (t', e) ∈ tr) : D t' e := by
  induction h with
  | refl => cases hm
  | snoc _ hc _ ih =>
    rcases List.mem_append.1 hm with hm | hm
    · exact ih hm
    · cases List.mem_singleton.1 hm
      exact hc

/-- A run whose every step is on its trace. -/
theorem Runs.traced {C : List ο → σ → ε → Prop} {s t : σ} {tr : List (σ × ε)} {os : List ο}
    (h : M.Runs C s tr os t) : M.Runs (fun os t e => C os t e ∧ (t, e) ∈ tr) s tr os t := by
  induction h with
  | refl => exact .refl
  | snoc _ hc hs ih =>
    refine .snoc (ih.mono fun _ _ _ hd => ⟨hd.1, List.mem_append_left _ hd.2⟩) ⟨hc, ?_⟩ hs
    exact List.mem_append_right _ (List.mem_singleton_self _)

/-- **The simulation rule**: when every step of `M` is one of `N` between the images of its
states, with the same observations, so is every run. -/
theorem Runs.simulates {σ' : Type u} {ε' : Type v} {N : Machine σ' ε' ο}
    {C : List ο → σ → ε → Prop} {D : List ο → σ' → ε' → Prop} (f : σ → σ')
    (hstep : ∀ os s e t os', C os s e → M.step s e = some (t, os') →
      ∃ e', D os (f s) e' ∧ N.step (f s) e' = some (f t, os'))
    {s t : σ} {tr : List (σ × ε)} {os : List ο} (h : M.Runs C s tr os t) :
    ∃ tr', N.Runs D (f s) tr' os (f t) := by
  induction h with
  | refl => exact ⟨[], .refl⟩
  | snoc _ hc hs ih =>
    obtain ⟨tr', ih⟩ := ih
    obtain ⟨e', hd, hs'⟩ := hstep _ _ _ _ _ hc hs
    exact ⟨_, .snoc ih hd hs'⟩

variable (M) in
/-- The states some run from `s` reaches. -/
def Reachable (s t : σ) : Prop := ∃ tr os, M.Runs Free s tr os t

theorem Reachable.refl (s : σ) : M.Reachable s s := ⟨[], [], .refl⟩

theorem Reachable.runs {s t u : σ} (h : M.Reachable s t) {C : List ο → σ → ε → Prop}
    {tr : List (σ × ε)} {os : List ο} (h' : M.Runs C t tr os u) : M.Reachable s u := by
  obtain ⟨tr0, os0, h0⟩ := h
  exact ⟨_, _, h0.trans h'.free⟩

theorem Reachable.step {s t t' : σ} {e : ε} {os : List ο} (h : M.Reachable s t)
    (hs : M.step t e = some (t', os)) : M.Reachable s t' :=
  h.runs (C := Free) (.snoc .refl trivial hs)

theorem Reachable.preserves {I : σ → Prop} {s t : σ} (h : M.Reachable s t) (h0 : I s)
    (hstep : ∀ t e t' os', I t → M.step t e = some (t', os') → I t') : I t := by
  obtain ⟨_, _, h⟩ := h
  exact h.preserves h0 hstep

/-! ## What a trace has seen -/

/-- Some step met `D`. -/
def Took (D : σ → ε → Prop) (tr : List (σ × ε)) : Prop := ∃ s e, (s, e) ∈ tr ∧ D s e

/-- Some step met `D`, and none before it met `E`. -/
def TookBefore (D E : σ → ε → Prop) (tr : List (σ × ε)) : Prop :=
  ∃ before s e after, tr = before ++ (s, e) :: after ∧ D s e ∧ ¬ Took E before

theorem took_nil {D : σ → ε → Prop} : ¬ Took D [] := by
  rintro ⟨s, e, hm, -⟩
  cases hm

theorem took_snoc {D : σ → ε → Prop} {tr : List (σ × ε)} {s : σ} {e : ε} :
    Took D (tr ++ [(s, e)]) ↔ Took D tr ∨ D s e := by
  constructor
  · rintro ⟨t, e', hm, hd⟩
    rcases List.mem_append.1 hm with hm | hm
    · exact .inl ⟨t, e', hm, hd⟩
    · cases List.mem_singleton.1 hm
      exact .inr hd
  · rintro (⟨t, e', hm, hd⟩ | hd)
    · exact ⟨t, e', List.mem_append_left _ hm, hd⟩
    · exact ⟨s, e, List.mem_append_right _ (List.mem_singleton_self _), hd⟩

theorem tookBefore_snoc {D E : σ → ε → Prop} {tr : List (σ × ε)} {s : σ} {e : ε} :
    TookBefore D E (tr ++ [(s, e)]) ↔ TookBefore D E tr ∨ D s e ∧ ¬ Took E tr := by
  constructor
  · rintro ⟨before, t, e', after, htr, hd, hn⟩
    rcases List.eq_nil_or_concat after with rfl | ⟨after', p, rfl⟩
    · obtain ⟨rfl, hp⟩ := List.append_inj' htr rfl
      cases hp
      exact .inr ⟨hd, hn⟩
    · rw [List.concat_eq_append, ← List.cons_append, ← List.append_assoc] at htr
      exact .inl ⟨before, t, e', after', (List.append_inj' htr rfl).1, hd, hn⟩
  · rintro (⟨before, t, e', after, rfl, hd, hn⟩ | ⟨hd, hn⟩)
    · exact ⟨before, t, e', after ++ [(s, e)], by simp, hd, hn⟩
    · exact ⟨tr, s, e, [], rfl, hd, hn⟩

/-- The event was taken. -/
def Happened (e : ε) (tr : List (σ × ε)) : Prop := Took (fun _ e' => e' = e) tr

theorem Happened.snoc {tr : List (σ × ε)} {s : σ} {e e' : ε} (h : Happened e' tr) :
    Happened e' (tr ++ [(s, e)]) := took_snoc.2 (.inl h)

theorem happened_now {tr : List (σ × ε)} {s : σ} {e : ε} : Happened e (tr ++ [(s, e)]) :=
  took_snoc.2 (.inr rfl)

/-! ## Computing a run -/

variable (M) in
def exec (s : σ) : List ε → Option (σ × List ο)
  | [] => some (s, [])
  | e :: es =>
    match M.step s e with
    | none => none
    | some (t, os) =>
      match exec t es with
      | none => none
      | some (u, os') => some (u, os ++ os')

theorem exec_snoc {s t t' : σ} {es : List ε} {e : ε} {os os' : List ο}
    (h : M.exec s es = some (t, os)) (hs : M.step t e = some (t', os')) :
    M.exec s (es ++ [e]) = some (t', os ++ os') := by
  induction es generalizing s os with
  | nil =>
    obtain ⟨rfl, rfl⟩ : s = t ∧ [] = os := by simpa [exec] using h
    simp [exec, hs]
  | cons e' es ih =>
    simp only [exec] at h
    split at h
    · cases h
    · rename_i t1 os1 h1
      split at h
      · cases h
      · rename_i u os2 h2
        obtain ⟨rfl, rfl⟩ : u = t ∧ os1 ++ os2 = os := by simpa using h
        simp [exec, h1, ih h2]

theorem Runs.exec {C : List ο → σ → ε → Prop} {s t : σ} {tr : List (σ × ε)} {os : List ο}
    (h : M.Runs C s tr os t) : M.exec s (tr.map Prod.snd) = some (t, os) := by
  induction h with
  | refl => rfl
  | snoc _ _ hs ih => rw [List.map_append]; exact exec_snoc ih hs

/-- `es` is a run from `s` whose every step meets `C`. -/
def execWhere (M : Machine σ ε ο) (C : List ο → σ → ε → Prop) [∀ os t e, Decidable (C os t e)]
    (tr : List (σ × ε)) (os : List ο) (s : σ) : List ε → Option (List (σ × ε) × List ο × σ)
  | [] => some (tr, os, s)
  | e :: es =>
    if C os s e then
      match M.step s e with
      | none => none
      | some (t, os') => execWhere M C (tr ++ [(s, e)]) (os ++ os') t es
    else none

theorem execWhere_extends {C : List ο → σ → ε → Prop} [∀ os t e, Decidable (C os t e)]
    {s0 s t : σ} {tr tr' : List (σ × ε)} {os os' : List ο} {es : List ε}
    (h : M.Runs C s0 tr os s) (he : M.execWhere C tr os s es = some (tr', os', t)) :
    M.Runs C s0 tr' os' t := by
  induction es generalizing tr os s with
  | nil =>
    obtain ⟨rfl, rfl, rfl⟩ : tr = tr' ∧ os = os' ∧ s = t := by simpa [execWhere] using he
    exact h
  | cons e es ih =>
    simp only [execWhere] at he
    split at he
    · rename_i hc
      split at he
      · cases he
      · rename_i t1 os1 hs
        exact ih (.snoc h hc hs) he
    · cases he

/-- A computed run is a run. -/
theorem runs_of_execWhere {C : List ο → σ → ε → Prop} [∀ os t e, Decidable (C os t e)]
    {s t : σ} {tr : List (σ × ε)} {os : List ο} {es : List ε}
    (he : M.execWhere C [] [] s es = some (tr, os, t)) : M.Runs C s tr os t :=
  execWhere_extends .refl he

end Machine
