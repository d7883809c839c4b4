import TuyaBle.FakeGateway.Recording

/-!
# Rejections

An answer has one layer or two: the envelope, and the body it carries encrypted. Either
may report a rejection. `unwrap` merges the two before it looks, so the body can hide
what the envelope reports: by not reading, or by naming the field the envelope rejects
with. These are all the answers `unwrap` misreports.
-/

namespace TuyaBle

/-! ## Layers -/

/-- A layer reports a rejection. -/
def Rejects (layer : JsonObject) : Prop :=
  (optionalStr layer "errorCode").isSome ∨ isFalse (layer.get? "success")

/-- The error code of a layer, empty when it has none. -/
def errorCodeOf (layer : JsonObject) : String := (optionalStr layer "errorCode").getD ""

/-- The field a rejecting layer rejects with. -/
def rejectingField (layer : JsonObject) : String :=
  if (optionalStr layer "errorCode").isSome then "errorCode" else "success"

variable (P : CloudPrimitives)

/-- The object in an encrypted body, when there is one. -/
def readBody (key : BodyKey) (encrypted : String) : Option JsonObject :=
  (parseBody P key encrypted).toOption

/-- The envelope, and the body it carries when it reads. -/
def layers (key : BodyKey) (envelope : JsonObject) : List JsonObject :=
  envelope :: ((optionalStr envelope "result").bind (readBody P key)).toList

/-- The result of the body when the envelope carries one, else of the envelope. -/
def innermostResult (key : BodyKey) (envelope : JsonObject) : Option JsonValue :=
  match optionalStr envelope "result" with
  | some encrypted => (readBody P key encrypted).bind fun inner => inner.get? "result"
  | none => envelope.get? "result"

/-- `unwrap` reports an answer as its layers have it. -/
structure Reported (api : String) (key : BodyKey) (raw : String) (envelope : JsonObject) :
    Prop where
  rejected : (∃ layer ∈ layers P key envelope, Rejects layer) →
    ∃ layer ∈ layers P key envelope, Rejects layer ∧ ∃ message,
      unwrap P api key raw = .error (.rejected ⟨api, errorCodeOf layer, message⟩)
  returned : (∀ layer ∈ layers P key envelope, ¬ Rejects layer) →
    ∀ result, innermostResult P key envelope = some result → result ≠ .null →
      unwrap P api key raw = .ok result

/-- The envelope reports a rejection and carries a body that does not read, or that reports
none and names the field the envelope rejects with. -/
def Masked (key : BodyKey) (envelope : JsonObject) : Prop :=
  Rejects envelope ∧ ∃ encrypted, optionalStr envelope "result" = some encrypted ∧
    ∀ inner, readBody P key encrypted = some inner →
      ¬ Rejects inner ∧ rejectingField envelope ∈ inner.keys

/-! ## What a layer rejects with -/

theorem Rejects.of_code {layer : JsonObject} {code : String}
    (h : optionalStr layer "errorCode" = some code) : Rejects layer := by
  left
  rw [h]
  rfl

theorem errorCodeOf_eq {layer : JsonObject} {code : String}
    (h : optionalStr layer "errorCode" = some code) : errorCodeOf layer = code := by
  rw [errorCodeOf, h]
  rfl

theorem errorCodeOf_none {layer : JsonObject} (h : optionalStr layer "errorCode" = none) :
    errorCodeOf layer = "" := by
  rw [errorCodeOf, h]
  rfl

/-- A layer rejects with a code, or without one by its `success`. -/
theorem Rejects.cases {layer : JsonObject} (h : Rejects layer) :
    (∃ code, optionalStr layer "errorCode" = some code ∧ rejectingField layer = "errorCode") ∨
    (optionalStr layer "errorCode" = none ∧ isFalse (layer.get? "success") ∧
      rejectingField layer = "success") := by
  unfold rejectingField
  cases hc : optionalStr layer "errorCode" with
  | some code => exact .inl ⟨code, rfl, rfl⟩
  | none =>
    rcases h with h | h
    · rw [hc] at h
      cases h
    · exact .inr ⟨rfl, h, rfl⟩

theorem not_rejects {layer : JsonObject} :
    ¬ Rejects layer ↔
      optionalStr layer "errorCode" = none ∧ isFalse (layer.get? "success") = false := by
  unfold Rejects
  cases optionalStr layer "errorCode" <;> cases isFalse (layer.get? "success") <;> simp

theorem mem_keys_of_optionalStr {layer : JsonObject} {field value : String}
    (h : optionalStr layer field = some value) : field ∈ layer.keys := by
  rw [Dict.mem_keys_iff, (optionalStr_eq_some.1 h).1]
  rfl

theorem mem_keys_of_isFalse {layer : JsonObject} {field : String}
    (h : isFalse (layer.get? field)) : field ∈ layer.keys := by
  rw [Dict.mem_keys_iff]
  cases hg : layer.get? field with
  | none =>
    rw [hg] at h
    cases h
  | some value => rfl

/-! ## Merging two layers -/

variable {outer inner : JsonObject}

theorem get?_merged_of_mem (hn : inner.keys.Nodup) {field : String} (h : field ∈ inner.keys) :
    (outer.update inner).get? field = inner.get? field := by
  rw [Dict.mem_keys_iff] at h
  rw [Dict.get?_update hn, Option.or_of_isSome h]

theorem get?_merged_of_not_mem {field : String} (h : field ∉ inner.keys) :
    (outer.update inner).get? field = outer.get? field :=
  Dict.get?_update_of_not_mem h outer

theorem optionalStr_merged_eq_none (hn : inner.keys.Nodup) {field : String}
    (hi : optionalStr inner field = none)
    (ho : field ∈ inner.keys ∨ optionalStr outer field = none) :
    optionalStr (outer.update inner) field = none := by
  by_cases h : field ∈ inner.keys
  · rw [optionalStr_congr (get?_merged_of_mem hn h), hi]
  · rw [optionalStr_congr (get?_merged_of_not_mem h), ho.resolve_left h]

theorem isFalse_merged_eq_false (hn : inner.keys.Nodup) {field : String}
    (hi : isFalse (inner.get? field) = false)
    (ho : field ∈ inner.keys ∨ isFalse (outer.get? field) = false) :
    isFalse ((outer.update inner).get? field) = false := by
  by_cases h : field ∈ inner.keys
  · rw [get?_merged_of_mem hn h, hi]
  · rw [get?_merged_of_not_mem h, ho.resolve_left h]

/-- The merged layers reject, with the code of a layer that does. -/
def ReportsOne (outer inner : JsonObject) : Prop :=
  Rejects (outer.update inner) ∧ ∃ layer ∈ [outer, inner], Rejects layer ∧
    errorCodeOf (outer.update inner) = errorCodeOf layer

theorem reportsOne_of_inner (hn : inner.keys.Nodup) (h : Rejects inner) :
    ReportsOne outer inner := by
  rcases h.cases with ⟨code, hc, -⟩ | ⟨hc, hs, -⟩
  · have hm : optionalStr (outer.update inner) "errorCode" = some code := by
      rw [optionalStr_congr (get?_merged_of_mem hn (mem_keys_of_optionalStr hc)), hc]
    refine ⟨.of_code hm, inner, by simp, h, ?_⟩
    rw [errorCodeOf_eq hm, errorCodeOf_eq hc]
  · have hm : Rejects (outer.update inner) := by
      right
      rw [get?_merged_of_mem hn (mem_keys_of_isFalse hs)]
      exact hs
    cases hmc : optionalStr (outer.update inner) "errorCode" with
    | none =>
      refine ⟨hm, inner, by simp, h, ?_⟩
      rw [errorCodeOf_none hmc, errorCodeOf_none hc]
    | some code =>
      -- The body has no code of its own, so the one that shows is the envelope's.
      have hk : "errorCode" ∉ inner.keys := by
        intro hk
        rw [optionalStr_merged_eq_none hn hc (.inl hk)] at hmc
        cases hmc
      have ho : optionalStr outer "errorCode" = some code := by
        rw [← hmc, optionalStr_congr (get?_merged_of_not_mem hk)]
      refine ⟨hm, outer, by simp, .of_code ho, ?_⟩
      rw [errorCodeOf_eq hmc, errorCodeOf_eq ho]

theorem reportsOne_of_outer (hn : inner.keys.Nodup) (hi : ¬ Rejects inner) (h : Rejects outer)
    (hfield : rejectingField outer ∉ inner.keys) : ReportsOne outer inner := by
  rcases h.cases with ⟨code, hc, hf⟩ | ⟨hc, hs, hf⟩ <;> rw [hf] at hfield
  · have hm : optionalStr (outer.update inner) "errorCode" = some code := by
      rw [optionalStr_congr (get?_merged_of_not_mem hfield), hc]
    refine ⟨.of_code hm, outer, by simp, h, ?_⟩
    rw [errorCodeOf_eq hm, errorCodeOf_eq hc]
  · have hmc := optionalStr_merged_eq_none hn (not_rejects.1 hi).1 (.inr hc)
    refine ⟨.inr ?_, outer, by simp, h, ?_⟩
    · rw [get?_merged_of_not_mem hfield]
      exact hs
    · rw [errorCodeOf_none hmc, errorCodeOf_none hc]

/-- A body that reports nothing hides the rejection whose field it names. -/
theorem not_reportsOne (hn : inner.keys.Nodup) (hi : ¬ Rejects inner)
    (hfield : Rejects outer → rejectingField outer ∈ inner.keys) : ¬ ReportsOne outer inner := by
  rintro ⟨hm, layer, hmem, hlayer, hcode⟩
  have ho : layer = outer := by
    rcases List.mem_cons.1 hmem with h | h
    · exact h
    · rw [List.mem_singleton.1 h] at hlayer
      exact absurd hlayer hi
  subst ho
  obtain ⟨hic, his⟩ := not_rejects.1 hi
  have hf := hfield hlayer
  rcases hlayer.cases with ⟨code, hc, hr⟩ | ⟨hc, hs, hr⟩ <;> rw [hr] at hf
  · rw [errorCodeOf_none (optionalStr_merged_eq_none hn hic (.inl hf)), errorCodeOf_eq hc] at hcode
    exact (optionalStr_eq_some.1 hc).2 hcode.symm
  · exact not_rejects.2 ⟨optionalStr_merged_eq_none hn hic (.inr hc),
      isFalse_merged_eq_false hn his (.inl hf)⟩ hm

theorem not_rejects_merged (hn : inner.keys.Nodup) (ho : ¬ Rejects outer) (hi : ¬ Rejects inner) :
    ¬ Rejects (outer.update inner) := by
  obtain ⟨hoc, hos⟩ := not_rejects.1 ho
  obtain ⟨hic, his⟩ := not_rejects.1 hi
  exact not_rejects.2 ⟨optionalStr_merged_eq_none hn hic (.inr hoc),
    isFalse_merged_eq_false hn his (.inr hos)⟩

/-! ## What `unwrap` reads -/

variable {P} {api : String} {key : BodyKey} {raw : String} {envelope : JsonObject}

theorem readBody_ok {encrypted : String} (h : parseBody P key encrypted = .ok inner) :
    readBody P key encrypted = some inner := by
  rw [readBody, h]
  rfl

theorem readBody_error {encrypted : String} {e : PyException}
    (h : parseBody P key encrypted = .error e) : readBody P key encrypted = none := by
  rw [readBody, h]
  rfl

theorem nodup_keys_parseBody {encrypted : String} (h : parseBody P key encrypted = .ok inner) :
    inner.keys.Nodup := by
  obtain ⟨body, -, hp⟩ := Except.bind_eq_ok.1 h
  exact nodup_keys_parseJsonObject hp

theorem openEnvelope_plain (h : parseJsonObject P.toJsonText (.text raw) = .ok envelope)
    (hr : optionalStr envelope "result" = none) :
    openEnvelope P key raw = .ok (envelope, envelope.get? "result") := by
  unfold openEnvelope
  rw [h]
  simp only [bind, Except.bind]
  split
  · rename_i result hg
    by_cases hne : result ≠ ""
    · rw [optionalStr_eq_some.2 ⟨hg, hne⟩] at hr
      cases hr
    · rw [if_neg hne, hg]
      rfl
  · rfl

theorem openEnvelope_body (h : parseJsonObject P.toJsonText (.text raw) = .ok envelope)
    {encrypted : String} (hr : optionalStr envelope "result" = some encrypted)
    (hi : parseBody P key encrypted = .ok inner) :
    openEnvelope P key raw = .ok (envelope.update inner, inner.get? "result") := by
  obtain ⟨hg, hne⟩ := optionalStr_eq_some.1 hr
  unfold openEnvelope
  rw [h]
  simp only [bind, Except.bind, hg, if_pos hne, hi]
  rfl

theorem openEnvelope_unreadable (h : parseJsonObject P.toJsonText (.text raw) = .ok envelope)
    {encrypted : String} (hr : optionalStr envelope "result" = some encrypted) {e : PyException}
    (hi : parseBody P key encrypted = .error e) : openEnvelope P key raw = .error e := by
  obtain ⟨hg, hne⟩ := optionalStr_eq_some.1 hr
  unfold openEnvelope
  rw [h]
  simp only [bind, Except.bind, hg, if_pos hne, hi]

theorem unwrap_of_open {opened : JsonObject × Option JsonValue}
    (h : openEnvelope P key raw = .ok opened) :
    unwrap P api key raw = checkEnvelope api opened.1 opened.2 := by
  unfold unwrap
  rw [h]
  rfl

theorem checkEnvelope_rejected (api : String) (result : Option JsonValue) (h : Rejects envelope) :
    ∃ message, checkEnvelope api envelope result =
      .error (.rejected ⟨api, errorCodeOf envelope, message⟩) := ⟨_, if_pos h⟩

theorem checkEnvelope_returned {result : JsonValue} (h : ¬ Rejects envelope)
    (hresult : result ≠ .null) : checkEnvelope api envelope (some result) = .ok result := by
  unfold checkEnvelope
  refine (if_neg h).trans ?_
  cases result with
  | null => exact absurd rfl hresult
  | _ => rfl

theorem rejects_of_checkEnvelope {result : Option JsonValue} {e : TuyaBleCloudError}
    (h : checkEnvelope api envelope result = .error (.rejected e)) :
    Rejects envelope ∧ e.code = errorCodeOf envelope := by
  by_cases hr : Rejects envelope
  · obtain ⟨message, he⟩ := checkEnvelope_rejected api result hr
    rw [he] at h
    cases h
    exact ⟨hr, rfl⟩
  · replace h := (if_neg hr).symm.trans h
    split at h <;> cases h

/-! ## What `unwrap` reports -/

theorem reported_of_open {merged : JsonObject}
    (hopen : openEnvelope P key raw = .ok (merged, innermostResult P key envelope))
    (hyes : (∃ layer ∈ layers P key envelope, Rejects layer) → Rejects merged ∧
      ∃ layer ∈ layers P key envelope, Rejects layer ∧ errorCodeOf merged = errorCodeOf layer)
    (hno : (∀ layer ∈ layers P key envelope, ¬ Rejects layer) → ¬ Rejects merged) :
    Reported P api key raw envelope where
  rejected h := by
    obtain ⟨hm, layer, hmem, hlayer, hcode⟩ := hyes h
    obtain ⟨message, he⟩ := checkEnvelope_rejected api
      (innermostResult P key envelope) hm
    refine ⟨layer, hmem, hlayer, message, ?_⟩
    rw [unwrap_of_open hopen, he, hcode]
  returned h result hresult hne := by
    rw [unwrap_of_open hopen, hresult]
    exact checkEnvelope_returned (hno h) hne

theorem reported_plain (h : parseJsonObject P.toJsonText (.text raw) = .ok envelope)
    (hr : optionalStr envelope "result" = none) : Reported P api key raw envelope := by
  have hlayers : layers P key envelope = [envelope] := by simp [layers, hr]
  have hinner : innermostResult P key envelope = envelope.get? "result" := by
    simp [innermostResult, hr]
  refine reported_of_open (hinner ▸ openEnvelope_plain h hr) ?_ ?_ <;> rw [hlayers]
  · rintro ⟨layer, hmem, hlayer⟩
    obtain rfl := List.mem_singleton.1 hmem
    exact ⟨hlayer, layer, hmem, hlayer, rfl⟩
  · exact fun hno => hno envelope (List.mem_singleton_self _)

theorem reported_body_iff (h : parseJsonObject P.toJsonText (.text raw) = .ok envelope)
    {encrypted : String} (hr : optionalStr envelope "result" = some encrypted)
    (hi : parseBody P key encrypted = .ok inner) :
    Reported P api key raw envelope ↔
      ((∃ layer ∈ [envelope, inner], Rejects layer) → ReportsOne envelope inner) := by
  have hlayers : layers P key envelope = [envelope, inner] := by
    simp [layers, hr, readBody_ok hi]
  have hinner : innermostResult P key envelope = inner.get? "result" := by
    simp [innermostResult, hr, readBody_ok hi]
  have hopen := openEnvelope_body h hr hi
  constructor
  · intro hrep hyes
    obtain ⟨layer, hmem, hlayer, message, he⟩ := hrep.rejected (hlayers ▸ hyes)
    rw [unwrap_of_open hopen] at he
    obtain ⟨hm, hcode⟩ := rejects_of_checkEnvelope he
    exact ⟨hm, layer, hlayers ▸ hmem, hlayer, hcode.symm⟩
  · intro hone
    refine reported_of_open (hinner ▸ hopen) (hlayers ▸ hone) ?_
    rw [hlayers]
    intro hno
    exact not_rejects_merged (nodup_keys_parseBody hi) (hno _ (by simp)) (hno _ (by simp))

theorem reported_unreadable_iff (h : parseJsonObject P.toJsonText (.text raw) = .ok envelope)
    {encrypted : String} (hr : optionalStr envelope "result" = some encrypted) {e : PyException}
    (hi : parseBody P key encrypted = .error e) :
    Reported P api key raw envelope ↔ ¬ Rejects envelope := by
  have hlayers : layers P key envelope = [envelope] := by simp [layers, hr, readBody_error hi]
  have hinner : innermostResult P key envelope = none := by
    simp [innermostResult, hr, readBody_error hi]
  have hunwrap : unwrap P api key raw = .error (.raised e) := by
    unfold unwrap
    rw [openEnvelope_unreadable h hr hi]
    rfl
  constructor
  · intro hrep hrejects
    obtain ⟨layer, -, -, message, he⟩ :=
      hrep.rejected ⟨envelope, hlayers ▸ List.mem_singleton_self _, hrejects⟩
    rw [hunwrap] at he
    cases he
  · intro hno
    refine ⟨?_, ?_⟩
    · rw [hlayers]
      rintro ⟨layer, hmem, hlayer⟩
      exact absurd (List.mem_singleton.1 hmem ▸ hlayer) hno
    · rw [hinner]
      rintro - result ⟨⟩

/-- **The answers that `unwrap` reports as they are** are those whose body does not mask a
rejection of the envelope. -/
theorem reported_iff (P : CloudPrimitives) (api : String) (key : BodyKey) (raw : String)
    (members : List (String × JsonValue)) (h : P.loads (.text raw) = .ok (.object members)) :
    Reported P api key raw (.ofPairs members) ↔ ¬ Masked P key (.ofPairs members) := by
  have hparse := parseJsonObject_object h
  generalize Dict.ofPairs members = envelope at hparse ⊢
  cases hr : optionalStr envelope "result" with
  | none =>
    refine iff_of_true (reported_plain hparse hr) ?_
    rintro ⟨-, encrypted, he, -⟩
    rw [hr] at he
    cases he
  | some encrypted =>
    cases hi : parseBody P key encrypted with
    | error e =>
      rw [reported_unreadable_iff hparse hr hi]
      refine not_congr ⟨fun hrejects => ⟨hrejects, encrypted, hr, ?_⟩, And.left⟩
      rw [readBody_error hi]
      rintro inner ⟨⟩
    | ok inner =>
      have hn := nodup_keys_parseBody hi
      rw [reported_body_iff hparse hr hi]
      constructor
      · rintro hone ⟨hrejects, encrypted', hr', hmask⟩
        obtain rfl := Option.some.inj (hr.symm.trans hr')
        obtain ⟨hrejects', hfield⟩ := hmask inner (readBody_ok hi)
        exact not_reportsOne hn hrejects' (fun _ => hfield) (hone ⟨envelope, by simp, hrejects⟩)
      · rintro hmask ⟨layer, hmem, hlayer⟩
        by_cases hinner : Rejects inner
        · exact reportsOne_of_inner hn hinner
        · have hrejects : Rejects envelope := by
            rcases List.mem_cons.1 hmem with rfl | hmem
            · exact hlayer
            · exact absurd (List.mem_singleton.1 hmem ▸ hlayer) hinner
          refine reportsOne_of_outer hn hinner hrejects fun hfield => hmask ?_
          refine ⟨hrejects, encrypted, hr, fun inner' hi' => ?_⟩
          obtain rfl := Option.some.inj ((readBody_ok hi).symm.trans hi')
          exact ⟨hinner, hfield⟩

open FakeGateway in
/-- An envelope that carries no body masks nothing. -/
theorem reported_iff_plain :
    Reported primitives "tuya.m.location.list" deviceListBodyKey rejectionText
        (.ofPairs rejection) ↔
      ¬ Masked primitives deviceListBodyKey (.ofPairs rejection) :=
  reported_iff primitives "tuya.m.location.list" deviceListBodyKey rejectionText rejection
    (loads_text (by simp [documents]))

open FakeGateway in
/-- The envelope says `"success": false`, its body `"success": true`, and the call returns the
result of the body. -/
theorem success_hides_rejection :
    primitives.loads (.text contradictedText) = .ok (.object contradicted) ∧
      Rejects (.ofPairs contradicted) ∧
      unwrap primitives "tuya.m.location.list" deviceListBodyKey contradictedText =
        .ok (.object []) ∧
      ¬ Reported primitives "tuya.m.location.list" deviceListBodyKey contradictedText
        (.ofPairs contradicted) := by
  have hloads : primitives.loads (.text contradictedText) = .ok (.object contradicted) :=
    loads_text (by simp [documents])
  have hbody : parseBody primitives deviceListBodyKey (encrypted successAnswer) =
      .ok (.ofPairs success) := by
    have hdecrypt : decryptPostData primitives deviceListBodyKey (encrypted successAnswer) =
        .ok (encodeUtf8 successAnswer.val.plaintext) :=
      decryptPostData_recorded successAnswer (by simp [recordings])
    have hsuccess : primitives.loads (.bytes (encodeUtf8 successAnswer.val.plaintext)) =
        .ok (.object success) := loads_bytes (by simp [documents])
    unfold parseBody
    rw [hdecrypt]
    exact parseJsonObject_object hsuccess
  have hcarries : optionalStr (.ofPairs contradicted) "result" = some (encrypted successAnswer) :=
    optionalStr_eq_some.2 ⟨rfl, by decide⟩
  have hopen := openEnvelope_body (parseJsonObject_object hloads) hcarries hbody
  have hreturned : unwrap primitives "tuya.m.location.list" deviceListBodyKey contradictedText =
      .ok (.object []) := (unwrap_of_open hopen).trans rfl
  have hrejects : Rejects (.ofPairs contradicted) := .inr rfl
  refine ⟨hloads, hrejects, hreturned, fun hrep => ?_⟩
  obtain ⟨_, _, _, message, he⟩ := hrep.rejected ⟨_, List.mem_cons_self .., hrejects⟩
  rw [hreturned] at he
  cases he

end TuyaBle
