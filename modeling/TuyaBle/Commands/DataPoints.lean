import TuyaBle.Python
import TuyaBle.Protocol.Constants

/-!
# Datapoint records

The records a device pushes as notifications, and the timestamp a timed report opens
with. A moment in Unix seconds is a rational: the value the code's float rounds.
-/

namespace TuyaBle

inductive DataPointValue where
  | bytes (value : Bytes)
  | bool (value : Bool)
  | int (value : Int)
  | str (value : String)
  deriving DecidableEq

structure DataPoint where
  identifier : Nat
  dataType : DataPointType
  value : DataPointValue
  timestamp : Rat
  deriving DecidableEq

def recordHeaderLength : Nat := 3
def millisecondTimestamp : Nat := 0
def secondTimestamp : Nat := 1
def millisecondTimestampLength : Nat := 13
def secondTimestampLength : Nat := 4
def millisecondsPerSecond : Nat := 1000

/-- Refuse a record that declares more bytes than the report carries. -/
def verifyLengthOrRaise (data : Bytes) (stop : Nat) : Except PyException Unit :=
  if data.length < stop then
    let arrived := data.length
    raise .tuyaBleProtocolError
      s!"Failed to read a datapoint report: it declares {stop} bytes but only {arrived} arrived"
  else .ok ()

def decodeMillisecondTimestamp (rawValue : Bytes) : Except PyException Rat :=
  match decodeUtf8 rawValue with
  | none =>
    raise .tuyaBleProtocolError "Failed to read a datapoint timestamp: " (some .unicodeDecodeError)
  | some text =>
    match parseInt text with
    | none =>
      raise .tuyaBleProtocolError "Failed to read a datapoint timestamp: " (some .valueError)
    | some n => .ok ((n : Rat) / (millisecondsPerSecond : Rat))

/-- The moment prefixing a timed report, and the position its records begin at. -/
def parseTimestamp (data : Bytes) (start : Nat) : Except PyException (Rat × Nat) :=
  if data.length ≤ start then
    raise .tuyaBleProtocolError "Failed to read a datapoint timestamp: the report is truncated"
  else do
    let encoding ← byteAt data start
    let position := start + 1
    if encoding = millisecondTimestamp then
      let stop := position + millisecondTimestampLength
      verifyLengthOrRaise data stop
      let moment ← decodeMillisecondTimestamp (slice data position stop)
      return (moment, stop)
    else if encoding = secondTimestamp then
      let stop := position + secondTimestampLength
      verifyLengthOrRaise data stop
      return ((BigEndian.ofBytes (slice data position stop) : Rat), stop)
    else
      raise .tuyaBleProtocolError
        s!"Failed to read a datapoint timestamp: unknown encoding {encoding}"

/-- `_data_point_type`. -/
def dataPointType (value : Nat) : Except PyException DataPointType :=
  match DataPointType.ofNat? value with
  | some t => .ok t
  | none =>
    raise .tuyaBleProtocolError s!"Failed to read a datapoint: unknown value type {value}"
      (some .valueError)

def decodeString (rawValue : Bytes) : Except PyException String :=
  match decodeUtf8 rawValue with
  | some text => .ok text
  | none =>
    raise .tuyaBleProtocolError "Failed to read a string datapoint: " (some .unicodeDecodeError)

def decodeValue (dataType : DataPointType) (rawValue : Bytes) : Except PyException DataPointValue :=
  match dataType with
  | .raw | .bitmap => .ok (.bytes rawValue)
  | .boolean => .ok (.bool (BigEndian.ofBytes rawValue ≠ 0))
  | .value | .enum => .ok (.int (BigEndian.ofBytesSigned rawValue))
  | .string => do
    let text ← decodeString rawValue
    return .str text

/-- One turn of the loop of `parseDataPoints`: the record at `position` and where it ends. -/
def parseRecord (data : Bytes) (position : Nat) (timestamp : Rat) :
    Except PyException (DataPoint × Nat) := do
  let identifier ← byteAt data position
  let typeByte ← byteAt data (position + 1)
  let dataType ← dataPointType typeByte
  let length ← byteAt data (position + 2)
  let stop := position + recordHeaderLength + length
  verifyLengthOrRaise data stop
  let value ← decodeValue dataType (slice data (position + recordHeaderLength) stop)
  return (⟨identifier, dataType, value, timestamp⟩, stop)

/-- The loop of `parseDataPoints`; every turn takes at least a record header. -/
def parseDataPointsLoop (data : Bytes) (timestamp : Rat) :
    Nat → Nat → List DataPoint → Except PyException (List DataPoint)
  | 0, _, dataPoints => .ok dataPoints
  | fuel + 1, position, dataPoints =>
    if recordHeaderLength < data.length - position then do
      let (dataPoint, stop) ← parseRecord data position timestamp
      parseDataPointsLoop data timestamp fuel stop (dataPoints ++ [dataPoint])
    else .ok dataPoints

def parseDataPoints (data : Bytes) (start : Nat) (timestamp : Rat) :
    Except PyException (List DataPoint) :=
  parseDataPointsLoop data timestamp (data.length + 1) start []

/-! ## What they raise -/

theorem verifyLengthOrRaise_eq_ok {data : Bytes} {stop : Nat} {u : Unit} :
    verifyLengthOrRaise data stop = .ok u ↔ stop ≤ data.length := by
  simp only [verifyLengthOrRaise, raise]
  split <;> simp <;> omega

theorem verifyLengthOrRaise_fails (data : Bytes) (stop : Nat) :
    Fails (verifyLengthOrRaise data stop) .tuyaBleProtocolError := by
  intro e he
  unfold verifyLengthOrRaise at he
  split at he <;> cases he
  rfl

theorem decodeMillisecondTimestamp_fails (rawValue : Bytes) :
    Fails (decodeMillisecondTimestamp rawValue) .tuyaBleProtocolError := by
  intro e he
  unfold decodeMillisecondTimestamp at he
  split at he
  · cases he; rfl
  · split at he <;> cases he
    rfl

theorem parseTimestamp_fails (data : Bytes) (start : Nat) :
    Fails (parseTimestamp data start) .tuyaBleProtocolError := by
  intro e he
  unfold parseTimestamp at he
  split at he
  · cases he; rfl
  · obtain ⟨encoding, hb, -⟩ := byteAt_isOk data start (by omega)
    simp only [hb] at he
    simp only [bind, Except.bind] at he
    split at he
    · split at he
      · rename_i h; cases he; exact verifyLengthOrRaise_fails _ _ _ h
      · split at he
        · rename_i h; cases he; exact decodeMillisecondTimestamp_fails _ _ h
        · cases he
    · split at he
      · split at he
        · rename_i h; cases he; exact verifyLengthOrRaise_fails _ _ _ h
        · cases he
      · cases he; rfl

theorem decodeValue_fails (dataType : DataPointType) (rawValue : Bytes) :
    Fails (decodeValue dataType rawValue) .tuyaBleProtocolError := by
  intro e he
  cases dataType with
  | string =>
    simp only [decodeValue, decodeString, bind, Except.bind] at he
    split at he
    · rename_i h
      split at h <;> cases h
      cases he
      rfl
    · cases he
  | _ => cases he

theorem dataPointType_fails (value : Nat) : Fails (dataPointType value) .tuyaBleProtocolError := by
  intro e he
  unfold dataPointType at he
  split at he <;> cases he
  rfl

/-- A record whose header is there fails with protocol errors only. -/
theorem parseRecord_fails {data : Bytes} {position : Nat}
    (h : recordHeaderLength < data.length - position) (timestamp : Rat) :
    Fails (parseRecord data position timestamp) .tuyaBleProtocolError := by
  unfold recordHeaderLength at h
  intro e he
  obtain ⟨b0, h0, -⟩ := byteAt_isOk data position (by omega)
  obtain ⟨b1, h1, -⟩ := byteAt_isOk data (position + 1) (by omega)
  obtain ⟨b2, h2, -⟩ := byteAt_isOk data (position + 2) (by omega)
  simp only [parseRecord, h0, h1, h2, bind, Except.bind] at he
  split at he
  · rename_i ht; cases he; exact dataPointType_fails _ _ ht
  · split at he
    · rename_i hv; cases he; exact verifyLengthOrRaise_fails _ _ _ hv
    · split at he
      · rename_i hd; cases he; exact decodeValue_fails _ _ _ hd
      · cases he

theorem parseDataPoints_fails (data : Bytes) (start : Nat) (timestamp : Rat) :
    Fails (parseDataPoints data start timestamp) .tuyaBleProtocolError := by
  suffices h : ∀ fuel position dataPoints,
      Fails (parseDataPointsLoop data timestamp fuel position dataPoints) .tuyaBleProtocolError
    from h _ _ _
  intro fuel
  induction fuel with
  | zero => intro _ _ e he; cases he
  | succ fuel ih =>
    intro position dataPoints e he
    rw [parseDataPointsLoop] at he
    split at he
    · rename_i hlt
      rcases Except.bind_eq_error.1 he with hr | ⟨⟨dataPoint, stop⟩, -, hl⟩
      · exact parseRecord_fails hlt timestamp _ hr
      · exact ih _ _ _ hl
    · cases he

end TuyaBle
