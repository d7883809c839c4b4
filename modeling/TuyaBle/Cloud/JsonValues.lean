import TuyaBle.Python
import TuyaBle.Lib.Dict

/-!
# JSON values

What the gateway answers with, and the accessors that narrow it. Reading and writing
the text of a document is the parameter `JsonText`. An object lists its members in the
order of the document; the dictionary made of it keeps the last one of each name.
-/

namespace TuyaBle

/-- A JSON value; a `float` is given by the bits of its double. -/
inductive JsonValue where
  | null
  | bool (value : Bool)
  | int (value : Int)
  | float (bits : UInt64)
  | str (value : String)
  | array (items : List JsonValue)
  | object (members : List (String × JsonValue))

abbrev JsonObject := Dict String JsonValue

inductive JsonDocument where
  | text (raw : String)
  | bytes (raw : Bytes)

/-- `json.loads`, and `json.dumps` without padding. -/
structure JsonText where
  loads : JsonDocument → Except PyException JsonValue
  dumps : JsonValue → Except PyException String

/-- What `dumps` writes of `value` reads back as `value`. -/
def JsonText.RoundTrips (J : JsonText) (value : JsonValue) : Prop :=
  ∃ text, J.dumps value = .ok text ∧ J.loads (.bytes (encodeUtf8 text)) = .ok value

variable (J : JsonText)

def parseJsonObject (raw : JsonDocument) : Except PyException JsonObject :=
  match J.loads raw with
  | .error exception =>
    if exception.type.isValueError then
      raise .tuyaBleProtocolError s!"Failed to parse the gateway answer: {exception.message}"
    else .error exception
  | .ok (.object members) => .ok (.ofPairs members)
  | .ok _ =>
    raise .tuyaBleProtocolError "Failed to parse the gateway answer: top level is not an object"

def dumpJson (value : JsonValue) : Except PyException Bytes := do
  let text ← J.dumps value
  return encodeUtf8 text

def optionalStr (source : JsonObject) (key : String) : Option String :=
  match source.get? key with
  | some (.str value) => if value ≠ "" then some value else none
  | _ => none

def requireStr (source : JsonObject) (key : String) : Except PyException String :=
  match optionalStr source key with
  | some value => .ok value
  | none => raise .tuyaBleProtocolError s!"Failed to read {key}: not a non-empty string"

variable {J}

theorem dumpJson_roundTrips {value : JsonValue} (h : J.RoundTrips value) :
    ∃ data, dumpJson J value = .ok data ∧ J.loads (.bytes data) = .ok value := by
  obtain ⟨text, hd, hl⟩ := h
  refine ⟨encodeUtf8 text, ?_, hl⟩
  rw [dumpJson, hd]
  rfl

theorem parseJsonObject_object {raw : JsonDocument} {members : List (String × JsonValue)}
    (h : J.loads raw = .ok (.object members)) :
    parseJsonObject J raw = .ok (.ofPairs members) := by
  rw [parseJsonObject, h]

theorem nodup_keys_parseJsonObject {raw : JsonDocument} {object : JsonObject}
    (h : parseJsonObject J raw = .ok object) : object.keys.Nodup := by
  unfold parseJsonObject raise at h
  split at h
  · split at h <;> cases h
  · obtain rfl := Except.ok.inj h
    exact Dict.nodup_keys_ofPairs _
  · cases h

theorem optionalStr_eq_some {source : JsonObject} {key value : String} :
    optionalStr source key = some value ↔ source.get? key = some (.str value) ∧ value ≠ "" := by
  unfold optionalStr
  split
  · rename_i text heq
    by_cases h : text = ""
    · subst h
      simp only [heq, ne_eq, not_true_eq_false, ↓reduceIte, reduceCtorEq, Option.some.injEq,
        JsonValue.str.injEq, false_iff, not_and, not_not]
      exact fun h => h.symm
    · simp only [heq, ne_eq, h, not_false_eq_true, ↓reduceIte, Option.some.injEq,
        JsonValue.str.injEq, iff_self_and]
      rintro rfl
      exact h
  · rename_i hne
    constructor
    · rintro ⟨⟩
    · rintro ⟨h, -⟩
      exact absurd h (hne value)

theorem optionalStr_congr {source other : JsonObject} {key : String}
    (h : source.get? key = other.get? key) : optionalStr source key = optionalStr other key := by
  unfold optionalStr
  rw [h]

theorem requireStr_eq_ok {source : JsonObject} {key value : String} :
    requireStr source key = .ok value ↔ optionalStr source key = some value := by
  unfold requireStr raise
  cases optionalStr source key <;> simp

theorem requireStr_fails (source : JsonObject) (key : String) :
    Fails (requireStr source key) .tuyaBleProtocolError := by
  intro e he
  unfold requireStr raise at he
  split at he <;> cases he
  rfl

end TuyaBle
