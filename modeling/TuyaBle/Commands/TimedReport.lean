import TuyaBle.Commands.DataPointGrammar

/-!
# Reports behind a timestamp

The loop of `parseDataPoints` reads the records behind a timestamp as it reads them from
the start of a report, but for the moment it stamps them with. Errors tell where they
occurred, so the comparison is of what is read and whether it is.
-/

namespace TuyaBle

/-- The datapoint with another moment. -/
def DataPoint.retimed (timestamp : Rat) (dataPoint : DataPoint) : DataPoint :=
  { dataPoint with timestamp }

theorem slice_append_right (p s : Bytes) (start stop : Nat) :
    slice (p ++ s) (p.length + start) (p.length + stop) = slice s start stop := by
  rw [slice, slice, List.drop_append, List.drop_eq_nil_of_le (by omega), List.nil_append]
  congr 1
  · omega
  · congr 1
    omega

theorem slice_append_left {p : Bytes} (s : Bytes) {start stop : Nat} (h : stop ≤ p.length) :
    slice (p ++ s) start stop = slice p start stop := by
  by_cases hs : start ≤ p.length
  · rw [slice, slice, List.drop_append_of_le_length hs, List.take_append_of_le_length]
    rw [List.length_drop]
    omega
  · rw [slice, slice, Nat.sub_eq_zero_of_le (by omega), List.take_zero, List.take_zero]

theorem byteAt_append_left {p : Bytes} (s : Bytes) {i : Nat} (h : i < p.length) :
    byteAt (p ++ s) i = byteAt p i := by
  unfold byteAt
  rw [List.getElem?_append_left h]

theorem verifyLengthOrRaise_append (p s : Bytes) (stop : Nat) :
    (verifyLengthOrRaise (p ++ s) (p.length + stop)).toOption =
      (verifyLengthOrRaise s stop).toOption := by
  unfold verifyLengthOrRaise
  by_cases h : s.length < stop
  · rw [if_pos h, if_pos (by rw [List.length_append]; omega)]
    rfl
  · rw [if_neg h, if_neg (by rw [List.length_append]; omega)]

section
variable {ε α β : Type}

theorem toOption_bind (x : Except ε α) (f : α → Except ε β) :
    (x >>= f).toOption = x.toOption.bind fun a => (f a).toOption := by
  cases x <;> rfl

end

/-- One record behind `p`. -/
theorem parseRecord_append (p s : Bytes) (position : Nat) (moment timestamp : Rat) :
    (parseRecord (p ++ s) (p.length + position) moment).toOption =
      (parseRecord s position timestamp).toOption.map
        fun r => (r.1.retimed moment, p.length + r.2) := by
  have h1 : byteAt (p ++ s) (p.length + position + 1) = byteAt s (position + 1) := by
    rw [Nat.add_assoc, byteAt_append_right]
  have h2 : byteAt (p ++ s) (p.length + position + 2) = byteAt s (position + 2) := by
    rw [Nat.add_assoc, byteAt_append_right]
  unfold parseRecord
  rw [byteAt_append_right, h1, h2]
  simp only [toOption_bind, Option.map_bind, Function.comp_def]
  refine Option.bind_congr fun identifier _ => Option.bind_congr fun typeByte _ =>
    Option.bind_congr fun dataType _ => Option.bind_congr fun length _ => ?_
  have hstop : p.length + position + recordHeaderLength + length =
      p.length + (position + recordHeaderLength + length) := by omega
  have hstart : p.length + position + recordHeaderLength =
      p.length + (position + recordHeaderLength) := by omega
  rw [hstop, hstart, verifyLengthOrRaise_append, slice_append_right]
  rfl

theorem lt_of_parseRecord {data : Bytes} {position stop : Nat} {timestamp : Rat}
    {dataPoint : DataPoint} (h : parseRecord data position timestamp = .ok (dataPoint, stop)) :
    position < stop := by
  obtain ⟨r, -, hstop, -⟩ := Record.of_parseRecord h
  rw [hstop, Record.length_encode, recordHeaderLength]
  omega

theorem timestamp_of_parseRecord {data : Bytes} {position stop : Nat} {timestamp : Rat}
    {dataPoint : DataPoint} (h : parseRecord data position timestamp = .ok (dataPoint, stop)) :
    dataPoint.timestamp = timestamp := by
  simp only [parseRecord, Except.bind_eq_ok] at h
  obtain ⟨_, _, _, _, _, _, _, _, _, _, _, _, hok⟩ := h
  cases hok
  rfl

/-- The loop with more turns to spare reads the same. -/
theorem parseDataPointsLoop_fuel {data : Bytes} {timestamp : Rat} {fuel fuel' position : Nat}
    (h : data.length < fuel + position) (h' : data.length < fuel' + position)
    (dataPoints : List DataPoint) :
    parseDataPointsLoop data timestamp fuel position dataPoints =
      parseDataPointsLoop data timestamp fuel' position dataPoints := by
  induction fuel generalizing fuel' position dataPoints with
  | zero =>
    cases fuel' with
    | zero => rfl
    | succ fuel' => rw [parseDataPointsLoop, parseDataPointsLoop, if_neg (by omega)]
  | succ fuel ih =>
    cases fuel' with
    | zero => rw [parseDataPointsLoop, parseDataPointsLoop, if_neg (by omega)]
    | succ fuel' =>
      rw [parseDataPointsLoop, parseDataPointsLoop]
      split
      · cases hr : parseRecord data position timestamp with
        | error e => rfl
        | ok r =>
          have hlt := lt_of_parseRecord hr
          exact ih (by omega) (by omega) _
      · rfl

theorem parseDataPointsLoop_append (p s : Bytes) (moment timestamp : Rat)
    (fuel position : Nat) (dataPoints : List DataPoint) :
    (parseDataPointsLoop (p ++ s) moment fuel (p.length + position)
        (dataPoints.map (.retimed moment))).toOption =
      (parseDataPointsLoop s timestamp fuel position dataPoints).toOption.map
        (List.map (.retimed moment)) := by
  induction fuel generalizing position dataPoints with
  | zero => rfl
  | succ fuel ih =>
    have hlen : (p ++ s).length - (p.length + position) = s.length - position := by
      rw [List.length_append]
      omega
    rw [parseDataPointsLoop, parseDataPointsLoop, hlen]
    split
    · rw [toOption_bind, toOption_bind, parseRecord_append p s position moment timestamp]
      cases (parseRecord s position timestamp).toOption with
      | none => rfl
      | some r =>
        have := ih r.2 (dataPoints ++ [r.1])
        rw [List.map_append] at this
        exact this
    · rfl

/-- **Offset independence**: the records behind `p` are read as if they stood alone. -/
theorem parseDataPoints_append (p s : Bytes) (moment timestamp : Rat) :
    (parseDataPoints (p ++ s) p.length moment).toOption =
      (parseDataPoints s 0 timestamp).toOption.map (List.map (.retimed moment)) := by
  have hlen : (p ++ s).length = p.length + s.length := List.length_append
  have hfuel : (p ++ s).length < s.length + 1 + p.length := by omega
  unfold parseDataPoints
  rw [parseDataPointsLoop_fuel (by omega) hfuel]
  exact parseDataPointsLoop_append p s moment timestamp (s.length + 1) 0 []

theorem timestamps_of_parseDataPointsLoop {data : Bytes} {timestamp : Rat} {fuel position : Nat}
    {dataPoints result : List DataPoint} (h0 : ∀ d ∈ dataPoints, d.timestamp = timestamp)
    (h : parseDataPointsLoop data timestamp fuel position dataPoints = .ok result) :
    ∀ d ∈ result, d.timestamp = timestamp := by
  induction fuel generalizing position dataPoints with
  | zero => cases h; exact h0
  | succ fuel ih =>
    rw [parseDataPointsLoop] at h
    split at h
    · obtain ⟨r, hr, hl⟩ := Except.bind_eq_ok.1 h
      refine ih (fun d hd => ?_) hl
      rcases List.mem_append.1 hd with hd | hd
      · exact h0 d hd
      · rw [List.mem_singleton.1 hd]
        exact timestamp_of_parseRecord hr
    · cases h
      exact h0

/-- Every datapoint of a report bears its moment. -/
theorem timestamps_of_parseDataPoints {data : Bytes} {start : Nat} {timestamp : Rat}
    {dataPoints : List DataPoint} (h : parseDataPoints data start timestamp = .ok dataPoints) :
    ∀ d ∈ dataPoints, d.timestamp = timestamp :=
  timestamps_of_parseDataPointsLoop (fun _ hd => absurd hd List.not_mem_nil) h

/-- A field is read the same with records behind it. -/
theorem checkedSlice_append {α : Type} {data : Bytes} {start stop : Nat}
    (f : Bytes → Except PyException α) {a : α}
    (h : (do verifyLengthOrRaise data stop; f (slice data start stop)) = .ok a) (rest : Bytes) :
    (do verifyLengthOrRaise (data ++ rest) stop; f (slice (data ++ rest) start stop)) = .ok a := by
  obtain ⟨_, hv, h⟩ := Except.bind_eq_ok.1 h
  have hle := verifyLengthOrRaise_eq_ok.1 hv
  have hlen : (data ++ rest).length = data.length + rest.length := List.length_append
  refine Except.bind_eq_ok.2 ⟨(), verifyLengthOrRaise_eq_ok.2 (by omega), ?_⟩
  rw [slice_append_left rest hle]
  exact h

/-- A timestamp is read the same with records behind it. -/
theorem parseTimestamp_append {data : Bytes} {timestamp : Rat} {stop : Nat}
    (h : parseTimestamp data 0 = .ok (timestamp, stop)) (rest : Bytes) :
    parseTimestamp (data ++ rest) 0 = .ok (timestamp, stop) := by
  unfold parseTimestamp at h ⊢
  split at h
  · cases h
  · have hlen : (data ++ rest).length = data.length + rest.length := List.length_append
    rw [if_neg (by omega), byteAt_append_left rest (by omega)]
    obtain ⟨encoding, hb, h⟩ := Except.bind_eq_ok.1 h
    refine Except.bind_eq_ok.2 ⟨encoding, hb, ?_⟩
    split at h
    · rw [if_pos ‹_›]
      exact checkedSlice_append (fun raw => do
        let moment ← decodeMillisecondTimestamp raw
        return (moment, 0 + 1 + millisecondTimestampLength)) h rest
    · rw [if_neg ‹_›]
      split at h
      · rw [if_pos ‹_›]
        exact checkedSlice_append (fun raw =>
          return ((BigEndian.ofBytes raw : Rat), 0 + 1 + secondTimestampLength)) h rest
      · cases h

end TuyaBle
