import TuyaBle.Commands.DataPoints

/-!
# The grammar of a report

A `Record` is one `identifier | type | length | value`; its fields carry that it can be
written and read. `parseDataPoints` reads the concatenation of records up to its last
three bytes: there it neither reads a record nor refuses what is none.
-/

namespace TuyaBle

structure Record where
  identifier : UInt8
  dataType : DataPointType
  value : Bytes
  length_value : value.length ≤ 255
  decodable : dataType = .string → ∃ text, decodeUtf8 value = some text

namespace Record

def encode (r : Record) : Bytes :=
  [r.identifier, UInt8.ofNat r.dataType.toNat, UInt8.ofNat r.value.length] ++ r.value

def encodeAll (rs : List Record) : Bytes := rs.flatMap encode

/-- The value of a record, decoded for its type. -/
def decoded (r : Record) : DataPointValue :=
  match r.dataType with
  | .raw | .bitmap => .bytes r.value
  | .boolean => .bool (BigEndian.ofBytes r.value ≠ 0)
  | .value | .enum => .int (BigEndian.ofBytesSigned r.value)
  | .string => .str ((decodeUtf8 r.value).getD "")

def point (timestamp : Rat) (r : Record) : DataPoint :=
  ⟨r.identifier.toNat, r.dataType, r.decoded, timestamp⟩

@[simp] theorem length_encode (r : Record) :
    r.encode.length = recordHeaderLength + r.value.length := by
  simp [encode, recordHeaderLength]
  omega

@[simp] theorem encodeAll_nil : encodeAll [] = [] := rfl

@[simp] theorem encodeAll_cons (r : Record) (rs : List Record) :
    encodeAll (r :: rs) = r.encode ++ encodeAll rs := rfl

theorem encodeAll_append (rs rs' : List Record) :
    encodeAll (rs ++ rs') = encodeAll rs ++ encodeAll rs' := List.flatMap_append ..

theorem decodeValue_eq (r : Record) : decodeValue r.dataType r.value = .ok r.decoded := by
  unfold decodeValue decoded
  cases h : r.dataType with
  | string =>
    obtain ⟨text, ht⟩ := r.decodable h
    simp only [decodeString, ht, Option.getD_some]
    rfl
  | _ => rfl

/-- Reading one record where it stands. -/
theorem parseRecord_encode (r : Record) (pre rest : Bytes) (timestamp : Rat) :
    parseRecord (pre ++ (r.encode ++ rest)) pre.length timestamp =
      .ok (r.point timestamp, pre.length + r.encode.length) := by
  have ht : (UInt8.ofNat r.dataType.toNat).toNat = r.dataType.toNat := by
    have := r.dataType.toNat_lt
    simp; omega
  have hl : (UInt8.ofNat r.value.length).toNat = r.value.length := by
    have := r.length_value
    simp; omega
  have h0 : byteAt (pre ++ (r.encode ++ rest)) pre.length = .ok r.identifier.toNat := by
    simpa [encode] using byteAt_append_right pre (r.encode ++ rest) 0
  have h1 : byteAt (pre ++ (r.encode ++ rest)) (pre.length + 1) = .ok r.dataType.toNat := by
    rw [byteAt_append_right]; simp [encode, ht]
  have h2 : byteAt (pre ++ (r.encode ++ rest)) (pre.length + 2) = .ok r.value.length := by
    rw [byteAt_append_right]; simp [encode, hl]
  have htype : dataPointType r.dataType.toNat = .ok r.dataType := by
    simp [dataPointType]
  have hstop : verifyLengthOrRaise (pre ++ (r.encode ++ rest))
      (pre.length + recordHeaderLength + r.value.length) = .ok () :=
    verifyLengthOrRaise_eq_ok.2 (by simp; omega)
  have hvalue : slice (pre ++ (r.encode ++ rest)) (pre.length + recordHeaderLength)
      (pre.length + recordHeaderLength + r.value.length) = r.value := by
    have he : pre ++ (r.encode ++ rest) =
        (pre ++ [r.identifier, UInt8.ofNat r.dataType.toNat, UInt8.ofNat r.value.length]) ++
          (r.value ++ rest) := by simp [encode]
    rw [slice, Nat.add_sub_cancel_left, he,
      List.drop_left' (by simp [recordHeaderLength]), List.take_left]
  rw [length_encode, ← Nat.add_assoc]
  simp only [parseRecord, h0, h1, h2, htype, hstop, hvalue, decodeValue_eq, bind,
    Except.bind, pure, Except.pure, point]

/-- What a record read anywhere looked like. -/
theorem of_parseRecord {data : Bytes} {position stop : Nat} {timestamp : Rat}
    {dataPoint : DataPoint} (h : parseRecord data position timestamp = .ok (dataPoint, stop)) :
    ∃ r : Record, data.drop position = r.encode ++ data.drop stop ∧
      stop = position + r.encode.length ∧ stop ≤ data.length := by
  unfold parseRecord at h
  obtain ⟨identifier, h0, h⟩ := Except.bind_eq_ok.1 h
  obtain ⟨typeByte, h1, h⟩ := Except.bind_eq_ok.1 h
  obtain ⟨dataType, ht, h⟩ := Except.bind_eq_ok.1 h
  obtain ⟨length, h2, h⟩ := Except.bind_eq_ok.1 h
  obtain ⟨_, hv, h⟩ := Except.bind_eq_ok.1 h
  obtain ⟨value, hd, h⟩ := Except.bind_eq_ok.1 h
  obtain ⟨rfl, rfl⟩ : _ ∧ position + recordHeaderLength + length = stop := by
    simpa [pure, Except.pure] using h
  obtain ⟨b0, hb0, rfl⟩ := byteAt_eq_ok.1 h0
  obtain ⟨b1, hb1, rfl⟩ := byteAt_eq_ok.1 h1
  obtain ⟨b2, hb2, rfl⟩ := byteAt_eq_ok.1 h2
  have hstop := verifyLengthOrRaise_eq_ok.1 hv
  have hdrop : data.drop position =
      b0 :: b1 :: b2 :: data.drop (position + recordHeaderLength) := by
    rw [List.drop_eq_getElem_cons (List.getElem?_eq_some_iff.1 hb0).1,
      List.drop_eq_getElem_cons (List.getElem?_eq_some_iff.1 hb1).1,
      List.drop_eq_getElem_cons (List.getElem?_eq_some_iff.1 hb2).1,
      (List.getElem?_eq_some_iff.1 hb0).2, (List.getElem?_eq_some_iff.1 hb1).2,
      (List.getElem?_eq_some_iff.1 hb2).2]
    rfl
  generalize hval : slice data (position + recordHeaderLength)
    (position + recordHeaderLength + b2.toNat) = raw at hd
  have hlen : raw.length = b2.toNat := by
    rw [← hval, length_slice]; omega
  have htype : DataPointType.toNat dataType = b1.toNat := by
    unfold dataPointType at ht
    split at ht
    · rename_i t hof
      cases ht
      exact DataPointType.toNat_of_ofNat? hof
    · cases ht
  have hb2 := b2.toNat_lt
  refine ⟨⟨b0, dataType, raw, by omega, fun hs => ?_⟩, ?_, ?_, hstop⟩
  · subst hs
    simp only [decodeValue, decodeString, bind, Except.bind] at hd
    cases hu : decodeUtf8 raw with
    | some text => exact ⟨text, rfl⟩
    | none => rw [hu] at hd; cases hd
  · have hrest : raw ++ data.drop (position + recordHeaderLength + b2.toNat) =
        data.drop (position + recordHeaderLength) := by
      rw [← hval, slice, Nat.add_sub_cancel_left,
        ← List.drop_drop (j := position + recordHeaderLength), List.take_append_drop]
    simp only [encode, htype, hlen, UInt8.ofNat_toNat, List.append_assoc, hrest, hdrop]
    rfl
  · rw [length_encode]
    simp only [hlen]
    omega

/-- Two beginnings of records in one byte string agree as far as both go. -/
theorem encode_inj {r r' : Record} {rest rest' : Bytes}
    (h : r.encode ++ rest = r'.encode ++ rest') : r = r' ∧ rest = rest' := by
  obtain ⟨identifier, dataType, value, hl, hd⟩ := r
  obtain ⟨identifier', dataType', value', hl', hd'⟩ := r'
  simp only [encode, List.cons_append, List.nil_append, List.cons.injEq] at h
  obtain ⟨rfl, ht, hn, hv⟩ := h
  have hlen : value.length = value'.length := by
    have := congrArg UInt8.toNat hn
    simp at this
    omega
  have htype : dataType = dataType' := by
    have := congrArg UInt8.toNat ht
    cases dataType <;> cases dataType' <;> first | rfl | exact absurd this (by decide)
  obtain ⟨rfl, rfl⟩ := List.append_inj hv hlen
  subst htype
  exact ⟨rfl, rfl⟩

/-- A list of records whose bytes begin with those of `rs` begins with `rs`. -/
theorem initial_of_encodeAll {rs rs' : List Record} {rest : Bytes}
    (h : encodeAll rs ++ rest = encodeAll rs') :
    ∃ more, rs' = rs ++ more ∧ rest = encodeAll more := by
  induction rs generalizing rs' with
  | nil => exact ⟨rs', rfl, h⟩
  | cons r rs ih =>
    cases rs' with
    | nil => simp [encode] at h
    | cons r' rs' =>
      rw [encodeAll_cons, encodeAll_cons, List.append_assoc] at h
      obtain ⟨rfl, hrest⟩ := encode_inj h
      obtain ⟨more, rfl, rfl⟩ := ih hrest
      exact ⟨more, rfl, rfl⟩

/-- Bytes behind a record, or its own value, keep the loop going. -/
def Read (rs : List Record) (rest : Bytes) : Prop :=
  rest.length ≤ recordHeaderLength ∧
    ∀ front r back, rs = front ++ r :: back → r.value ++ encodeAll back ++ rest ≠ []

/-- The loop reads every record that is not just the last three bytes. -/
theorem parseDataPointsLoop_encodeAll (pre : Bytes) {rs : List Record} {rest : Bytes}
    (h : Read rs rest) (timestamp : Rat) (fuel : Nat) (hf : (encodeAll rs).length < fuel)
    (dataPoints : List DataPoint) :
    parseDataPointsLoop (pre ++ (encodeAll rs ++ rest)) timestamp fuel pre.length dataPoints =
      .ok (dataPoints ++ rs.map (point timestamp)) := by
  induction rs generalizing pre fuel dataPoints with
  | nil =>
    cases fuel with
    | zero => simp at hf
    | succ fuel =>
      rw [parseDataPointsLoop, if_neg]
      · simp
      · have := h.1
        simp
        omega
  | cons r rs ih =>
    cases fuel with
    | zero => simp at hf
    | succ fuel =>
      have hlong := List.length_pos_iff.2 (h.2 [] r rs rfl)
      have hread : Read rs rest :=
        ⟨h.1, fun front r' back he => h.2 (r :: front) r' back (by rw [he]; rfl)⟩
      have hpre : pre ++ (r.encode ++ (encodeAll rs ++ rest)) =
          (pre ++ r.encode) ++ (encodeAll rs ++ rest) := by simp
      rw [encodeAll_cons, List.append_assoc, parseDataPointsLoop, if_pos, parseRecord_encode, hpre,
        ← List.length_append]
      · have := ih (pre ++ r.encode) hread fuel (by simp [recordHeaderLength] at hf; omega)
          (dataPoints ++ [r.point timestamp])
        simpa [bind, Except.bind] using this
      · simp only [List.length_append, length_encode] at hlong ⊢
        omega

/-- Whatever the loop accepts is a list of records and at most three bytes. -/
theorem of_parseDataPointsLoop {data : Bytes} {timestamp : Rat} {fuel position : Nat}
    {dataPoints result : List DataPoint} (hf : data.length < fuel + position)
    (h : parseDataPointsLoop data timestamp fuel position dataPoints = .ok result) :
    ∃ rs rest, data.drop position = encodeAll rs ++ rest ∧ rest.length ≤ recordHeaderLength := by
  induction fuel generalizing position dataPoints with
  | zero =>
    refine ⟨[], [], ?_, by decide⟩
    simpa using Nat.le_of_lt hf
  | succ fuel ih =>
    rw [parseDataPointsLoop] at h
    split at h
    · obtain ⟨⟨dataPoint, stop⟩, hr, hl⟩ := Except.bind_eq_ok.1 h
      obtain ⟨r, hdrop, hstop, -⟩ := of_parseRecord hr
      have hpos : stop = position + (recordHeaderLength + r.value.length) := by
        rw [hstop, length_encode]
      obtain ⟨rs, rest, he, hle⟩ := ih (by unfold recordHeaderLength at hpos; omega) hl
      exact ⟨r :: rs, rest, by rw [hdrop, he, encodeAll_cons, List.append_assoc], hle⟩
    · exact ⟨[], data.drop position, rfl, by rw [List.length_drop]; omega⟩

end Record

open Record

/-- The grammar, as a report at `start` should meet it: every record is returned, and
what is no list of records is refused. -/
def Lossless (data : Bytes) (start : Nat) (timestamp : Rat) : Prop :=
  (∀ rs, data.drop start = encodeAll rs →
    parseDataPoints data start timestamp = .ok (rs.map (point timestamp))) ∧
  ((∀ rs, data.drop start ≠ encodeAll rs) →
    ∃ e, parseDataPoints data start timestamp = .error e ∧ e.type = .tuyaBleProtocolError)

/-- Behind some records stand one to three bytes: a record header at most. -/
def ShortTail (data : Bytes) (start : Nat) : Prop :=
  ∃ rs rest, data.drop start = encodeAll rs ++ rest ∧ 1 ≤ rest.length ∧
    rest.length ≤ recordHeaderLength

theorem parseDataPoints_read {data : Bytes} {start : Nat} {rs : List Record} {rest : Bytes}
    (he : data.drop start = encodeAll rs ++ rest) (h : Read rs rest) (timestamp : Rat) :
    parseDataPoints data start timestamp = .ok (rs.map (point timestamp)) := by
  by_cases hs : start ≤ data.length
  · have hlen : (data.take start).length = start := by simp [hs]
    have hdata : data.take start ++ (encodeAll rs ++ rest) = data := by
      rw [← he, List.take_append_drop]
    have hfuel : (encodeAll rs).length < data.length + 1 := by
      have := congrArg List.length he
      simp only [List.length_drop, List.length_append] at this
      omega
    have := parseDataPointsLoop_encodeAll (data.take start) h timestamp _ hfuel []
    rw [hdata, hlen] at this
    exact this
  · have hnil : encodeAll rs ++ rest = [] := by rw [← he]; simp; omega
    obtain rfl : rs = [] := by
      cases rs with
      | nil => rfl
      | cons r rs => simp [encode] at hnil
    rw [parseDataPoints, parseDataPointsLoop, if_neg (by omega)]
    rfl

/-- **When `parseDataPoints` meets its grammar**: exactly when no header or part of one
stands last. -/
theorem lossless_iff (data : Bytes) (start : Nat) (timestamp : Rat) :
    Lossless data start timestamp ↔ ¬ ShortTail data start := by
  constructor
  · rintro ⟨haccept, hrefuse⟩ ⟨rs, rest, he, hpos, hle⟩
    have hread : Read rs rest := ⟨hle, fun front r back _ hn => by
      rw [List.append_eq_nil_iff.1 hn |>.2] at hpos
      exact absurd hpos (by decide)⟩
    have hok := parseDataPoints_read he hread timestamp
    by_cases hg : ∃ rs', data.drop start = encodeAll rs'
    · obtain ⟨rs', he'⟩ := hg
      obtain ⟨more, rfl, rfl⟩ := initial_of_encodeAll (he.symm.trans he')
      have := Except.ok.inj (hok.symm.trans (haccept _ he'))
      rw [List.map_append, List.self_eq_append_right, List.map_eq_nil_iff] at this
      rw [this] at hpos
      exact absurd hpos (by decide)
    · obtain ⟨e, herr, -⟩ := hrefuse fun rs' he' => hg ⟨rs', he'⟩
      rw [hok] at herr
      cases herr
  · intro htail
    constructor
    · intro rs he
      refine parseDataPoints_read (he.trans (List.append_nil _).symm) ⟨by decide, ?_⟩ timestamp
      rintro front r back rfl hn
      have hval := (List.append_eq_nil_iff.1 (List.append_eq_nil_iff.1 hn).1)
      refine htail ⟨front, encodeAll (r :: back), by rw [he, encodeAll_append], ?_, ?_⟩
      · rw [encodeAll_cons, hval.2, List.append_nil, length_encode, hval.1]; decide
      · rw [encodeAll_cons, hval.2, List.append_nil, length_encode, hval.1]; decide
    · intro hg
      cases hp : parseDataPoints data start timestamp with
      | error e => exact ⟨e, rfl, parseDataPoints_fails _ _ _ e hp⟩
      | ok result =>
        obtain ⟨rs, rest, he, hle⟩ := of_parseDataPointsLoop (by omega) hp
        cases rest with
        | nil => exact absurd (by simpa using he) (hg rs)
        | cons b rest => exact absurd ⟨rs, b :: rest, he, by simp, hle⟩ htail

/-- A raw record of no bytes. -/
def emptyRecord : Record := ⟨1, .raw, [], by decide, nofun⟩

/-- It is lost where it is the last of the report. -/
theorem empty_record_lost : ¬ Lossless emptyRecord.encode 0 0 := by
  intro h
  have hok := h.1 [emptyRecord] (by decide)
  have hnone : parseDataPoints emptyRecord.encode 0 0 = .ok [] := by decide
  rw [hnone] at hok
  cases hok

end TuyaBle
