import TuyaBle.Ascii
import TuyaBle.Lib.Strip

/-!
# What `int` reads

The texts `int(text)` accepts, as a grammar over characters: spaces on both sides, at
most one sign, then decimal digits of any script with single underscores between them.
`isSome_parseInt` is the agreement of the parser with it.
-/

namespace TuyaBle

/-- A decimal digit, in ASCII or another script. -/
def IsDecimal (c : Char) : Prop :=
  isAsciiDigit c ∨ ∃ z ∈ decimalZeros, z ≤ c.toNat ∧ c.toNat < z + 10

/-- A space character. -/
def IsSpace (c : Char) : Prop := isAsciiSpace c ∨ c.toNat ∈ wideSpaces

/-- Digits, with single underscores between them. -/
inductive DigitRun : List Char → Prop where
  | single {c : Char} (h : IsDecimal c) : DigitRun [c]
  | cons {c : Char} {l : List Char} (h : IsDecimal c) (hl : DigitRun l) : DigitRun (c :: l)
  | underscore {c : Char} {l : List Char} (h : IsDecimal c) (hl : DigitRun l) :
      DigitRun (c :: '_' :: l)

/-- The text of an integer. -/
def IntLiteral (text : String) : Prop :=
  ∃ lead mark run trail, text.toList = lead ++ (mark ++ run) ++ trail ∧
    (∀ c ∈ lead, IsSpace c) ∧ mark ∈ [[], ['-'], ['+']] ∧ DigitRun run ∧ ∀ c ∈ trail, IsSpace c

/-! ## Characters -/

theorem le_of_mem_decimalZeros : ∀ z ∈ decimalZeros, 1632 ≤ z := by decide

theorem le_of_mem_wideSpaces : ∀ n ∈ wideSpaces, 127 ≤ n := by decide

theorem wideSpaces_disjoint :
    ∀ n ∈ wideSpaces, ∀ z ∈ decimalZeros, ¬ (z ≤ n ∧ n < z + 10) := by decide +kernel

/-- The four things `toAsciiDigit` makes of a character. -/
theorem toAsciiDigit_cases (c : Char) :
    (c.toNat < 127 ∧ toAsciiDigit c = c) ∨
    (127 ≤ c.toNat ∧ c.toNat ∈ wideSpaces ∧ toAsciiDigit c = ' ') ∨
    (127 ≤ c.toNat ∧ c.toNat ∉ wideSpaces ∧ IsDecimal c ∧ isAsciiDigit (toAsciiDigit c)) ∨
    (127 ≤ c.toNat ∧ c.toNat ∉ wideSpaces ∧ ¬ IsDecimal c ∧ toAsciiDigit c = '?') := by
  unfold toAsciiDigit
  split
  · rename_i hlt
    exact .inl ⟨hlt, rfl⟩
  · rename_i hge
    split
    · rename_i hs
      exact .inr (.inl ⟨by omega, hs, rfl⟩)
    · rename_i hs
      split
      · rename_i z hz
        have hmem := List.mem_of_find?_eq_some hz
        have hrange := List.find?_some hz
        simp only [decide_eq_true_eq] at hrange
        refine .inr (.inr (.inl ⟨by omega, hs, .inr ⟨z, hmem, hrange⟩, ?_⟩))
        simp only [isAsciiDigit, decide_eq_true_eq]
        rw [toNat_ofNat_of_lt (by omega)]
        omega
      · rename_i hz
        refine .inr (.inr (.inr ⟨by omega, hs, ?_, rfl⟩))
        rintro (hd | ⟨z, hmem, hrange⟩)
        · simp only [isAsciiDigit, decide_eq_true_eq] at hd
          omega
        · exact absurd hrange (by simpa using List.find?_eq_none.1 hz z hmem)

theorem isAsciiDigit_toAsciiDigit {c : Char} : isAsciiDigit (toAsciiDigit c) ↔ IsDecimal c := by
  rcases toAsciiDigit_cases c with ⟨hlt, he⟩ | ⟨hge, hs, he⟩ | ⟨-, -, hd, he⟩ | ⟨-, -, hd, he⟩
  · rw [he]
    refine ⟨.inl, ?_⟩
    rintro (hd | ⟨z, hmem, hrange⟩)
    · exact hd
    · have := le_of_mem_decimalZeros z hmem
      omega
  · rw [he]
    refine iff_of_false (by decide) ?_
    rintro (hd | ⟨z, hmem, hrange⟩)
    · simp only [isAsciiDigit, decide_eq_true_eq] at hd
      omega
    · exact wideSpaces_disjoint _ hs z hmem hrange
  · exact iff_of_true he hd
  · rw [he]
    exact iff_of_false (by decide) hd

theorem isAsciiSpace_toAsciiDigit {c : Char} : isAsciiSpace (toAsciiDigit c) ↔ IsSpace c := by
  rcases toAsciiDigit_cases c with ⟨hlt, he⟩ | ⟨hge, hs, he⟩ | ⟨hge, hs, -, he⟩ | ⟨hge, hs, -, he⟩
  · rw [he]
    refine ⟨.inl, ?_⟩
    rintro (h | hmem)
    · exact h
    · have := le_of_mem_wideSpaces _ hmem
      omega
  · rw [he]
    exact iff_of_true (by decide) (.inr hs)
  · refine iff_of_false ?_ ?_
    · rw [not_isAsciiSpace_of_isAsciiDigit he]
      decide
    · rintro (h | hmem)
      · simp only [isAsciiSpace, decide_eq_true_eq] at h
        omega
      · exact hs hmem
  · rw [he]
    refine iff_of_false (by decide) ?_
    rintro (h | hmem)
    · simp only [isAsciiSpace, decide_eq_true_eq] at h
      omega
    · exact hs hmem

theorem forall_isAsciiSpace_map {l : List Char} :
    (∀ a ∈ l.map toAsciiDigit, isAsciiSpace a) ↔ ∀ c ∈ l, IsSpace c := by
  simp only [List.forall_mem_map, isAsciiSpace_toAsciiDigit]

/-- A punctuation mark other than the question mark stands for itself alone. -/
theorem toAsciiDigit_eq_iff {c d : Char} (hlt : d.toNat < 127) (hd : isAsciiDigit d = false)
    (hs : d ≠ ' ') (hq : d ≠ '?') : toAsciiDigit c = d ↔ c = d := by
  constructor
  · intro h
    rcases toAsciiDigit_cases c with ⟨-, he⟩ | ⟨-, -, he⟩ | ⟨-, -, -, he⟩ | ⟨-, -, -, he⟩
    · exact he ▸ h
    · exact absurd (h ▸ he) hs
    · rw [h, hd] at he
      cases he
    · exact absurd (h ▸ he) hq
  · rintro rfl
    exact if_pos hlt

theorem not_isDecimal_underscore : ¬ IsDecimal '_' := by
  rw [← isAsciiDigit_toAsciiDigit]
  decide

/-! ## Runs of digits -/

theorem digitRun_cons {c : Char} {l : List Char} :
    DigitRun (c :: l) ↔
      IsDecimal c ∧ (l = [] ∨ DigitRun l ∨ ∃ m, l = '_' :: m ∧ DigitRun m) := by
  constructor
  · intro h
    cases h with
    | single h => exact ⟨h, .inl rfl⟩
    | cons h hl => exact ⟨h, .inr (.inl hl)⟩
    | underscore h hl => exact ⟨h, .inr (.inr ⟨_, rfl, hl⟩)⟩
  · rintro ⟨h, rfl | hl | ⟨m, rfl, hm⟩⟩
    · exact .single h
    · exact .cons h hl
    · exact .underscore h hm

namespace DigitRun

theorem ne_nil {l : List Char} (h : DigitRun l) : l ≠ [] := by
  cases h <;> exact List.cons_ne_nil _ _

theorem head {l : List Char} (h : DigitRun l) {c : Char} (hc : l.head? = some c) :
    IsDecimal c := by
  cases h <;> cases hc <;> assumption

theorem last {l : List Char} (h : DigitRun l) {c : Char} (hc : l.getLast? = some c) :
    IsDecimal c := by
  induction h with
  | single h =>
    cases hc
    exact h
  | cons _ hl ih =>
    rw [List.getLast?_cons_of_ne_nil hl.ne_nil] at hc
    exact ih hc
  | underscore _ hl ih =>
    rw [List.getLast?_cons_cons, List.getLast?_cons_of_ne_nil hl.ne_nil] at hc
    exact ih hc

end DigitRun

/-- The digit loop accepts the runs, and behind a digit also their continuations. -/
theorem isSome_digitsValue (l : List Char) : ∀ value,
    ((digitsValue false value (l.map toAsciiDigit)).isSome ↔ DigitRun l) ∧
    ((digitsValue true value (l.map toAsciiDigit)).isSome ↔
      l = [] ∨ DigitRun l ∨ ∃ m, l = '_' :: m ∧ DigitRun m) := by
  induction l with
  | nil =>
    intro value
    constructor
    · exact iff_of_false (by simp [digitsValue]) fun h => h.ne_nil rfl
    · exact iff_of_true rfl (.inl rfl)
  | cons c l ih =>
    intro value
    rw [List.map_cons, digitsValue, digitsValue]
    by_cases hd : isAsciiDigit (toAsciiDigit c)
    · have hc := isAsciiDigit_toAsciiDigit.1 hd
      rw [if_pos hd, if_pos hd, (ih _).2, digitRun_cons]
      refine ⟨(and_iff_right hc).symm, ?_⟩
      constructor
      · exact fun h => .inr (.inl ⟨hc, h⟩)
      · rintro (h | ⟨-, h⟩ | ⟨m, heq, -⟩)
        · cases h
        · exact h
        · cases heq
          exact absurd hc not_isDecimal_underscore
    · have hc : ¬ IsDecimal c := fun h => hd (isAsciiDigit_toAsciiDigit.2 h)
      have hrun : ¬ DigitRun (c :: l) := fun h => hc (digitRun_cons.1 h).1
      rw [if_neg hd, if_neg hd, if_neg (by simp)]
      refine ⟨iff_of_false (by simp) hrun, ?_⟩
      by_cases hu : c = '_'
      · subst hu
        rw [if_pos ⟨by decide, rfl⟩, (ih _).1]
        constructor
        · exact fun h => .inr (.inr ⟨l, rfl, h⟩)
        · rintro (h | h | ⟨m, heq, hm⟩)
          · cases h
          · exact absurd h hrun
          · cases heq
            exact hm
      · have hne : toAsciiDigit c ≠ '_' := fun h =>
          hu ((toAsciiDigit_eq_iff (by decide) (by decide) (by decide) (by decide)).1 h)
        rw [if_neg fun h => hne h.1]
        refine iff_of_false (by simp) ?_
        rintro (h | h | ⟨m, heq, -⟩)
        · cases h
        · exact hrun h
        · cases heq
          exact hu rfl

/-! ## The parser -/

/-- A sign and digits. -/
def parseSigned : List Char → Option Int
  | '-' :: cs => (digitsValue false 0 cs).map fun n => -(n : Int)
  | '+' :: cs => (digitsValue false 0 cs).map fun n => (n : Int)
  | cs => (digitsValue false 0 cs).map fun n => (n : Int)

theorem parseInt_eq (text : String) :
    parseInt text = parseSigned (Strip.strip isAsciiSpace (text.toList.map toAsciiDigit)) := rfl

theorem isSome_toInt (x : Option Nat) : (do let n ← x; pure (n : Int)).isSome = x.isSome := by
  cases x <;> rfl

/-- What a sign and digits begin with. -/
theorem signedRun_cons {c : Char} {l : List Char} :
    (∃ mark run, c :: l = mark ++ run ∧ mark ∈ [[], ['-'], ['+']] ∧ DigitRun run) ↔
      DigitRun (c :: l) ∨ (c = '-' ∨ c = '+') ∧ DigitRun l := by
  constructor
  · rintro ⟨mark, run, heq, hmark, hrun⟩
    simp only [List.mem_cons, List.not_mem_nil, or_false] at hmark
    rcases hmark with rfl | rfl | rfl
    · exact .inl (heq ▸ hrun)
    · cases heq
      exact .inr ⟨.inl rfl, hrun⟩
    · cases heq
      exact .inr ⟨.inr rfl, hrun⟩
  · rintro (h | ⟨rfl | rfl, h⟩)
    · exact ⟨[], _, rfl, by simp, h⟩
    · exact ⟨['-'], _, rfl, by simp, h⟩
    · exact ⟨['+'], _, rfl, by simp, h⟩

theorem not_isDecimal_of_sign {c : Char} (h : c = '-' ∨ c = '+') : ¬ IsDecimal c := by
  rw [← isAsciiDigit_toAsciiDigit]
  rcases h with rfl | rfl
  · decide
  · decide

theorem isSome_parseSigned_sign {c : Char} (h : c = '-' ∨ c = '+') (l : List Char) :
    (parseSigned (toAsciiDigit c :: l)).isSome = (digitsValue false 0 l).isSome := by
  rcases h with rfl | rfl
  · show (parseSigned ('-' :: l)).isSome = _
    rw [parseSigned, Option.isSome_map, isSome_toInt]
  · show (parseSigned ('+' :: l)).isSome = _
    rw [parseSigned, Option.isSome_map, isSome_toInt]

theorem isSome_parseSigned_unsigned {c : Char} (h : ¬ (c = '-' ∨ c = '+')) (l : List Char) :
    (parseSigned (toAsciiDigit c :: l)).isSome =
      (digitsValue false 0 (toAsciiDigit c :: l)).isSome := by
  have hminus : toAsciiDigit c ≠ '-' := fun hc =>
    h (.inl ((toAsciiDigit_eq_iff (by decide) (by decide) (by decide) (by decide)).1 hc))
  have hplus : toAsciiDigit c ≠ '+' := fun hc =>
    h (.inr ((toAsciiDigit_eq_iff (by decide) (by decide) (by decide) (by decide)).1 hc))
  rw [parseSigned, Option.isSome_map, isSome_toInt]
  · exact fun cs heq => hminus (List.cons.inj heq).1
  · exact fun cs heq => hplus (List.cons.inj heq).1

theorem isSome_parseSigned {l : List Char} :
    (parseSigned (l.map toAsciiDigit)).isSome ↔
      ∃ mark run, l = mark ++ run ∧ mark ∈ [[], ['-'], ['+']] ∧ DigitRun run := by
  cases l with
  | nil =>
    refine iff_of_false (by simp [parseSigned, digitsValue]) ?_
    rintro ⟨mark, run, heq, -, h⟩
    exact h.ne_nil (List.append_eq_nil_iff.1 heq.symm).2
  | cons c l =>
    rw [signedRun_cons, List.map_cons]
    by_cases hsign : c = '-' ∨ c = '+'
    · rw [isSome_parseSigned_sign hsign, (isSome_digitsValue l 0).1]
      refine ⟨fun h => .inr ⟨hsign, h⟩, ?_⟩
      rintro (h | ⟨-, h⟩)
      · exact absurd (digitRun_cons.1 h).1 (not_isDecimal_of_sign hsign)
      · exact h
    · rw [isSome_parseSigned_unsigned hsign, ← List.map_cons, (isSome_digitsValue (c :: l) 0).1]
      refine ⟨.inl, ?_⟩
      rintro (h | ⟨h, -⟩)
      · exact h
      · exact absurd h hsign

/-- **`int` reads exactly the integer literals.** -/
theorem isSome_parseInt {text : String} : (parseInt text).isSome ↔ IntLiteral text := by
  rw [parseInt_eq]
  constructor
  · intro h
    obtain ⟨lead, trail, heq, hlead, htrail⟩ :=
      Strip.strip_spec isAsciiSpace (text.toList.map toAsciiDigit)
    obtain ⟨rest, trail, htext, hrest, rfl⟩ := List.map_eq_append_iff.1 heq
    obtain ⟨lead, core, rfl, rfl, hcore⟩ := List.map_eq_append_iff.1 hrest
    rw [← hcore] at h
    obtain ⟨mark, run, rfl, hmark, hrun⟩ := isSome_parseSigned.1 h
    exact ⟨lead, mark, run, trail, htext, forall_isAsciiSpace_map.1 hlead, hmark, hrun,
      forall_isAsciiSpace_map.1 htrail⟩
  · rintro ⟨lead, mark, run, trail, htext, hlead, hmark, hrun, htrail⟩
    have hspace : ∀ {c}, IsDecimal c → isAsciiSpace (toAsciiDigit c) = false := fun hc =>
      not_isAsciiSpace_of_isAsciiDigit (isAsciiDigit_toAsciiDigit.2 hc)
    have hne : (mark ++ run).map toAsciiDigit ≠ [] := by
      rw [ne_eq, List.map_eq_nil_iff]
      exact List.append_ne_nil_of_right_ne_nil _ hrun.ne_nil
    have hhead : ∀ a, ((mark ++ run).map toAsciiDigit).head? = some a → isAsciiSpace a = false := by
      intro a ha
      rw [List.head?_map, Option.map_eq_some_iff] at ha
      obtain ⟨c, hc, rfl⟩ := ha
      simp only [List.mem_cons, List.not_mem_nil, or_false] at hmark
      rcases hmark with rfl | rfl | rfl
      · exact hspace (hrun.head hc)
      · obtain rfl := Option.some.inj hc
        rfl
      · obtain rfl := Option.some.inj hc
        rfl
    have hlast : ∀ a, ((mark ++ run).map toAsciiDigit).getLast? = some a →
        isAsciiSpace a = false := by
      intro a ha
      rw [List.getLast?_map, Option.map_eq_some_iff] at ha
      obtain ⟨c, hc, rfl⟩ := ha
      rw [List.getLast?_append, List.getLast?_eq_some_getLast hrun.ne_nil, Option.some_or] at hc
      exact hspace (hrun.last (hc ▸ List.getLast?_eq_some_getLast hrun.ne_nil))
    rw [htext, List.map_append, List.map_append, Strip.strip_append
      (forall_isAsciiSpace_map.2 hlead) (forall_isAsciiSpace_map.2 htrail) hhead hlast hne]
    exact isSome_parseSigned.2 ⟨mark, run, rfl, hmark, hrun⟩

end TuyaBle
