import TuyaBle.Cloud.Signing
import TuyaBle.Lib.Delimited

/-!
# What a sign string binds

Two dictionaries with the same sign string have the same signed parameters, as long as no
value holds the delimiter: a field begins with the letter of its name, so that the bars
before it end with the delimiter, and its name ends at the first equals sign.
-/

namespace TuyaBle

/-- `"||" in value`. -/
def HasDelimiter (value : String) : Prop := Delimited.HasPair '|' value.toList

/-- The values of the dictionary do not hold the delimiter. -/
def NoDelimiter (params : Dict String String) : Prop := ∀ p ∈ params, ¬ HasDelimiter p.2

/-- The whitelisted parameters that are not empty, and their values, are the same. -/
def SameSigned (d e : Dict String String) : Prop :=
  ∀ key ∈ signWhitelist, ∀ value, value ≠ "" → (d.get? key = some value ↔ e.get? key = some value)

/-! ## Fields -/

theorem signWhitelist_keys : ∀ key ∈ signWhitelist,
    key.toList ≠ [] ∧ '|' ∉ key.toList ∧ '=' ∉ key.toList := by decide

theorem signField_eq_some {params : Dict String String} {key field : String} :
    signField params key = some field ↔
      key ∈ signWhitelist ∧
        ∃ value, params.get? key = some value ∧ value ≠ "" ∧ s!"{key}={value}" = field := by
  unfold signField
  cases params.get? key with
  | none => simp
  | some value =>
    by_cases h : value ≠ "" ∧ key ∈ signWhitelist
    · simp [h]
    · simp only [h, ↓reduceIte, reduceCtorEq, Option.some.injEq, exists_eq_left', false_iff]
      rintro ⟨hk, hv, -⟩
      exact h ⟨hv, hk⟩

theorem toList_field (key value : String) :
    (s!"{key}={value}" : String).toList = key.toList ++ '=' :: value.toList := by
  show (key ++ "=" ++ value).toList = _
  rw [String.toList_append, String.toList_append, List.append_assoc]
  rfl

/-- A field tells its name and value. -/
theorem field_inj {key other value content : String} (hk : key ∈ signWhitelist)
    (ho : other ∈ signWhitelist) (h : (s!"{key}={value}" : String) = s!"{other}={content}") :
    key = other ∧ value = content := by
  have hlist := congrArg String.toList h
  rw [toList_field, toList_field] at hlist
  obtain ⟨hkey, hvalue⟩ := Delimited.append_mark_inj (signWhitelist_keys key hk).2.2
    (signWhitelist_keys other ho).2.2 hlist
  exact ⟨String.toList_inj.1 hkey, String.toList_inj.1 hvalue⟩

theorem isPart_signField {params : Dict String String} (hn : NoDelimiter params)
    {key field : String} (h : signField params key = some field) :
    Delimited.IsPart '|' field.toList := by
  obtain ⟨hk, value, hget, -, rfl⟩ := signField_eq_some.1 h
  obtain ⟨hne, hbar, -⟩ := signWhitelist_keys key hk
  have hvalue : ¬ HasDelimiter value := hn _ (Dict.mem_of_get? hget)
  rw [toList_field]
  refine ⟨?_, ?_, ?_⟩
  · exact List.append_ne_nil_of_left_ne_nil hne _
  · cases hcs : key.toList with
    | nil => exact absurd hcs hne
    | cons c cs =>
      rw [hcs] at hbar
      intro hc
      exact hbar (Option.some.inj hc ▸ List.mem_cons_self ..)
  · refine Delimited.not_hasPair_append hbar fun hpair => ?_
    rcases List.infix_cons_iff.1 hpair with hp | hi
    · exact absurd (List.cons_prefix_cons.1 hp).1 (by decide)
    · exact hvalue hi

/-! ## The sign string -/

theorem toList_buildSignString (params : Dict String String) :
    (buildSignString params).toList = ['|', '|'].intercalate
      (((Sorted.sort params.keys).filterMap (signField params)).map String.toList) := by
  rw [buildSignString, String.toList_intercalate]
  rfl

theorem isPart_fields {params : Dict String String} (hn : NoDelimiter params) :
    ∀ l ∈ ((Sorted.sort params.keys).filterMap (signField params)).map String.toList,
      Delimited.IsPart '|' l := by
  intro l hl
  obtain ⟨field, hfield, rfl⟩ := List.mem_map.1 hl
  obtain ⟨key, -, hkey⟩ := List.mem_filterMap.1 hfield
  exact isPart_signField hn hkey

/-- The fields of a sign string can be told apart. -/
theorem fields_of_buildSignString {d e : Dict String String} (hd : NoDelimiter d)
    (he : NoDelimiter e) (h : buildSignString d = buildSignString e) :
    (Sorted.sort d.keys).filterMap (signField d) =
      (Sorted.sort e.keys).filterMap (signField e) := by
  have hlist := congrArg String.toList h
  rw [toList_buildSignString, toList_buildSignString] at hlist
  have hmap := Delimited.intercalate_injective (isPart_fields hd) (isPart_fields he) hlist
  exact List.map_injective_iff.2 (fun _ _ => String.toList_inj.1) hmap

/-- A signed parameter is read off the fields. -/
theorem get?_of_fields {d e : Dict String String}
    (h : (Sorted.sort d.keys).filterMap (signField d) =
      (Sorted.sort e.keys).filterMap (signField e))
    {key value : String} (hk : key ∈ signWhitelist) (hv : value ≠ "")
    (hget : d.get? key = some value) : e.get? key = some value := by
  have hfield : signField d key = some s!"{key}={value}" :=
    signField_eq_some.2 ⟨hk, value, hget, hv, rfl⟩
  have hkey : key ∈ Sorted.sort d.keys :=
    Sorted.mem_sort.2 (mem_keys_of_signField (hfield ▸ rfl))
  have hmem := List.mem_filterMap.2 ⟨key, hkey, hfield⟩
  rw [h] at hmem
  obtain ⟨key', -, hfield'⟩ := List.mem_filterMap.1 hmem
  obtain ⟨hk', value', hget', -, heq⟩ := signField_eq_some.1 hfield'
  obtain ⟨rfl, rfl⟩ := field_inj hk' hk heq
  exact hget'

/-- **A sign string is canonical and binding**: it is the same exactly when the signed
parameters are. -/
theorem buildSignString_eq_iff {d e : Dict String String} (hd : d.keys.Nodup)
    (he : e.keys.Nodup) (hdn : NoDelimiter d) (hen : NoDelimiter e) :
    buildSignString d = buildSignString e ↔ SameSigned d e := by
  constructor
  · intro h key hk value hv
    have hfields := fields_of_buildSignString hdn hen h
    exact ⟨get?_of_fields hfields hk hv, get?_of_fields hfields.symm hk hv⟩
  · intro h
    refine buildSignString_congr hd he fun key hk => ?_
    refine Option.ext fun field => ?_
    rw [signField_eq_some, signField_eq_some]
    refine and_congr_right fun _ => exists_congr fun value => ?_
    constructor
    · rintro ⟨hget, hv, hfield⟩
      exact ⟨(h key hk value hv).1 hget, hv, hfield⟩
    · rintro ⟨hget, hv, hfield⟩
      exact ⟨(h key hk value hv).2 hget, hv, hfield⟩

/-- A value that ends in a bar, an empty one and one that is not signed. -/
theorem sameSigned_reordered :
    SameSigned [("v", "1.0"), ("a", "=api|"), ("sdkVersion", "5.2.0")]
      [("sid", ""), ("a", "=api|"), ("v", "1.0")] := by
  refine (buildSignString_eq_iff (by decide) (by decide) ?_ ?_).1 (by decide +kernel)
  · unfold NoDelimiter HasDelimiter
    decide
  · unfold NoDelimiter HasDelimiter
    decide

end TuyaBle
