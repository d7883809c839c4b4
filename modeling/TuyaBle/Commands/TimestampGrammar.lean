import TuyaBle.Commands.DataPoints
import TuyaBle.IntLiteral

/-!
# The grammar of a timestamp

The protocol writes a moment as thirteen ASCII digits of milliseconds or as four bytes of
seconds, each behind its own encoding byte (`IsTimestamp`). The millisecond field goes
through `int`, which reads more texts than that (`LooseMilliseconds`).
-/

namespace TuyaBle

/-- An ASCII decimal digit. -/
def isDigitByte (b : UInt8) : Bool := 48 ≤ b.toNat ∧ b.toNat ≤ 57

/-- The number that ASCII digits write. -/
def decimalValue (digits : Bytes) : Nat := digits.foldl (fun n b => n * 10 + (b.toNat - 48)) 0

/-- The bytes behind a millisecond encoding byte at `start`. -/
def millisecondField (data : Bytes) (start : Nat) : Bytes :=
  slice data (start + 1) (start + 1 + millisecondTimestampLength)

/-- The bytes behind a second encoding byte at `start`. -/
def secondField (data : Bytes) (start : Nat) : Bytes :=
  slice data (start + 1) (start + 1 + secondTimestampLength)

/-- The protocol's timestamp at `start`, the moment it denotes and where it ends. -/
def IsTimestamp (data : Bytes) (start : Nat) (moment : Rat) (stop : Nat) : Prop :=
  (data[start]? = some 0 ∧ start + 14 ≤ data.length ∧
      (∀ b ∈ millisecondField data start, isDigitByte b) ∧
      moment = (decimalValue (millisecondField data start) : Rat) / 1000 ∧ stop = start + 14) ∨
    (data[start]? = some 1 ∧ start + 5 ≤ data.length ∧
      moment = (BigEndian.ofBytes (secondField data start) : Rat) ∧ stop = start + 5)

/-- The code accepts the protocol's timestamps alone, as what they denote, and fails on
anything else with its own error. -/
def FollowsGrammar (data : Bytes) (start : Nat) : Prop :=
  (∀ moment stop,
    parseTimestamp data start = .ok (moment, stop) ↔ IsTimestamp data start moment stop) ∧
  Fails (parseTimestamp data start) .tuyaBleProtocolError

/-- A millisecond field that is the text of an integer, but not of plain digits. -/
def LooseMilliseconds (data : Bytes) (start : Nat) : Prop :=
  data[start]? = some 0 ∧ start + 14 ≤ data.length ∧
    (∃ b ∈ millisecondField data start, ¬ isDigitByte b) ∧
    ∃ text, encodeUtf8 text = millisecondField data start ∧ IntLiteral text

/-! ## The millisecond field -/

theorem decodeMillisecondTimestamp_eq_ok {rawValue : Bytes} {moment : Rat} :
    decodeMillisecondTimestamp rawValue = .ok moment ↔
      ∃ text n, encodeUtf8 text = rawValue ∧ parseInt text = some n ∧
        moment = (n : Rat) / 1000 := by
  unfold decodeMillisecondTimestamp raise
  constructor
  · intro h
    split at h
    · cases h
    · rename_i text htext
      split at h
      · cases h
      · rename_i n hn
        obtain rfl := Except.ok.inj h
        exact ⟨text, n, decodeUtf8_eq_some.1 htext, hn, rfl⟩
  · rintro ⟨text, n, htext, hn, rfl⟩
    rw [decodeUtf8_eq_some.2 htext]
    simp only [hn]
    rfl

theorem toNat_of_isDigitByte {b : UInt8} (h : isDigitByte b) :
    isAsciiDigit (Char.ofNat b.toNat) ∧ (Char.ofNat b.toNat).toNat = b.toNat := by
  simp only [isDigitByte, decide_eq_true_eq] at h
  have htoNat : (Char.ofNat b.toNat).toNat = b.toNat := toNat_ofNat_of_lt (by omega)
  refine ⟨?_, htoNat⟩
  simp only [isAsciiDigit, decide_eq_true_eq, htoNat]
  exact h

theorem digitsValue_ascii {digits : Bytes} (h : ∀ b ∈ digits, isDigitByte b) (value : Nat) :
    digitsValue true value (digits.map fun b => Char.ofNat b.toNat) =
      some (digits.foldl (fun n b => n * 10 + (b.toNat - 48)) value) := by
  induction digits generalizing value with
  | nil => rfl
  | cons b digits ih =>
    obtain ⟨hdigit, htoNat⟩ := toNat_of_isDigitByte (h b (List.mem_cons_self ..))
    rw [List.map_cons, digitsValue, if_pos hdigit, htoNat,
      ih fun c hc => h c (List.mem_cons_of_mem _ hc), List.foldl_cons]

/-- Plain digits are read as the number they write. -/
theorem parseInt_asciiText {digits : Bytes} (h : ∀ b ∈ digits, isDigitByte b)
    (hne : digits ≠ []) : parseInt (asciiText digits) = some (decimalValue digits : Int) := by
  have htext : (asciiText digits).toList = digits.map fun b => Char.ofNat b.toNat :=
    String.toList_ofList
  have hdigits : ∀ c ∈ (asciiText digits).toList, isAsciiDigit c := by
    rw [htext]
    intro c hc
    obtain ⟨b, hb, rfl⟩ := List.mem_map.1 hc
    exact (toNat_of_isDigitByte (h b hb)).1
  rw [parseInt_digits hdigits, htext]
  cases digits with
  | nil => exact absurd rfl hne
  | cons b digits =>
    have hvalue := digitsValue_ascii h 0
    have hb := (toNat_of_isDigitByte (h b (List.mem_cons_self ..))).1
    rw [List.map_cons, digitsValue, if_pos hb] at hvalue ⊢
    rw [hvalue]
    rfl

theorem decodeMillisecondTimestamp_digits {digits : Bytes} (h : ∀ b ∈ digits, isDigitByte b)
    (hne : digits ≠ []) :
    decodeMillisecondTimestamp digits = .ok ((decimalValue digits : Rat) / 1000) := by
  have hascii : ∀ b ∈ digits, b.toNat < 128 := by
    intro b hb
    have := h b hb
    simp only [isDigitByte, decide_eq_true_eq] at this
    omega
  exact decodeMillisecondTimestamp_eq_ok.2 ⟨asciiText digits, decimalValue digits,
    encodeUtf8_asciiText hascii, parseInt_asciiText h hne, rfl⟩

/-! ## The parser -/

theorem parseTimestamp_eq_ok {data : Bytes} {start stop : Nat} {moment : Rat} :
    parseTimestamp data start = .ok (moment, stop) ↔
      (data[start]? = some 0 ∧ start + 14 ≤ data.length ∧
          decodeMillisecondTimestamp (millisecondField data start) = .ok moment ∧
          stop = start + 14) ∨
        (data[start]? = some 1 ∧ start + 5 ≤ data.length ∧
          moment = (BigEndian.ofBytes (secondField data start) : Rat) ∧ stop = start + 5) := by
  cases hb : data[start]? with
  | none =>
    rw [parseTimestamp, if_pos (List.getElem?_eq_none_iff.1 hb)]
    refine iff_of_false (by rintro ⟨⟩) ?_
    rintro (⟨⟨⟩, -⟩ | ⟨⟨⟩, -⟩)
  | some b =>
    have hlt := (List.getElem?_eq_some_iff.1 hb).1
    have hbyte : byteAt data start = .ok b.toNat := byteAt_eq_ok.2 ⟨b, hb, rfl⟩
    rw [parseTimestamp, if_neg (by omega), hbyte]
    simp only [bind, Except.bind, Option.some.injEq]
    split
    · rename_i hms
      obtain rfl : b = 0 := UInt8.toNat_inj.1 hms
      constructor
      · intro h
        obtain ⟨_, hv, h⟩ := Except.bind_eq_ok.1 h
        obtain ⟨m, hm, h⟩ := Except.bind_eq_ok.1 h
        cases h
        exact .inl ⟨rfl, verifyLengthOrRaise_eq_ok.1 hv, hm, rfl⟩
      · rintro (⟨-, hlen, hm, rfl⟩ | ⟨⟨⟩, -⟩)
        refine Except.bind_eq_ok.2 ⟨(), verifyLengthOrRaise_eq_ok.2 hlen, ?_⟩
        exact Except.bind_eq_ok.2 ⟨moment, hm, rfl⟩
    · rename_i hms
      have hne : b ≠ 0 := by
        rintro rfl
        exact hms rfl
      split
      · rename_i hs
        obtain rfl : b = 1 := UInt8.toNat_inj.1 hs
        constructor
        · intro h
          obtain ⟨_, hv, h⟩ := Except.bind_eq_ok.1 h
          cases h
          exact .inr ⟨rfl, verifyLengthOrRaise_eq_ok.1 hv, rfl, rfl⟩
        · rintro (⟨⟨⟩, -⟩ | ⟨-, hlen, rfl, rfl⟩)
          exact Except.bind_eq_ok.2 ⟨(), verifyLengthOrRaise_eq_ok.2 hlen, rfl⟩
      · rename_i hs
        refine iff_of_false (by rintro ⟨⟩) ?_
        rintro (⟨rfl, -⟩ | ⟨rfl, -⟩)
        · exact hne rfl
        · exact hs rfl

theorem millisecondField_ne_nil {data : Bytes} {start : Nat} (h : start + 14 ≤ data.length) :
    millisecondField data start ≠ [] := by
  apply List.ne_nil_of_length_pos
  rw [millisecondField, length_slice, millisecondTimestampLength]
  omega

/-- The protocol's timestamps are read as what they denote. -/
theorem parseTimestamp_of_isTimestamp {data : Bytes} {start stop : Nat} {moment : Rat}
    (h : IsTimestamp data start moment stop) :
    parseTimestamp data start = .ok (moment, stop) := by
  refine parseTimestamp_eq_ok.2 (h.imp ?_ id)
  rintro ⟨h0, hlen, hdigits, rfl, rfl⟩
  exact ⟨h0, hlen, decodeMillisecondTimestamp_digits hdigits (millisecondField_ne_nil hlen), rfl⟩

/-- What is read beyond the protocol's timestamps is a loose millisecond field. -/
theorem isTimestamp_of_parseTimestamp {data : Bytes} {start stop : Nat} {moment : Rat}
    (hloose : ¬ LooseMilliseconds data start)
    (h : parseTimestamp data start = .ok (moment, stop)) :
    IsTimestamp data start moment stop := by
  rcases parseTimestamp_eq_ok.1 h with ⟨h0, hlen, hm, rfl⟩ | hs
  · obtain ⟨text, n, htext, hn, -⟩ := decodeMillisecondTimestamp_eq_ok.1 hm
    have hliteral : IntLiteral text := isSome_parseInt.1 (hn ▸ rfl)
    have hdigits : ∀ b ∈ millisecondField data start, isDigitByte b := fun b hb =>
      Classical.byContradiction fun hbad =>
        hloose ⟨h0, hlen, ⟨b, hb, hbad⟩, text, htext, hliteral⟩
    rw [decodeMillisecondTimestamp_digits hdigits (millisecondField_ne_nil hlen)] at hm
    exact .inl ⟨h0, hlen, hdigits, (Except.ok.inj hm).symm, rfl⟩
  · exact .inr hs

/-- A loose millisecond field is read, though it is no timestamp of the protocol. -/
theorem parseTimestamp_of_looseMilliseconds {data : Bytes} {start : Nat}
    (h : LooseMilliseconds data start) :
    ∃ moment stop, parseTimestamp data start = .ok (moment, stop) ∧
      ¬ IsTimestamp data start moment stop := by
  obtain ⟨h0, hlen, ⟨b, hb, hbad⟩, text, htext, hliteral⟩ := h
  obtain ⟨n, hn⟩ := Option.isSome_iff_exists.1 (isSome_parseInt.2 hliteral)
  refine ⟨(n : Rat) / 1000, start + 14, parseTimestamp_eq_ok.2 (.inl ⟨h0, hlen, ?_, rfl⟩), ?_⟩
  · exact decodeMillisecondTimestamp_eq_ok.2 ⟨text, n, htext, hn, rfl⟩
  · rintro (⟨-, -, hdigits, -⟩ | ⟨h1, -⟩)
    · exact hbad (hdigits b hb)
    · rw [h0] at h1
      cases h1

/-- **`parseTimestamp` follows the protocol's grammar except on loose millisecond fields.** -/
theorem followsGrammar_iff (data : Bytes) (start : Nat) :
    FollowsGrammar data start ↔ ¬ LooseMilliseconds data start := by
  constructor
  · rintro ⟨hiff, -⟩ hloose
    obtain ⟨moment, stop, hread, hnot⟩ := parseTimestamp_of_looseMilliseconds hloose
    exact hnot ((hiff moment stop).1 hread)
  · intro hloose
    exact ⟨fun _ _ => ⟨isTimestamp_of_parseTimestamp hloose, parseTimestamp_of_isTimestamp⟩,
      parseTimestamp_fails data start⟩

/-- The bytes of `"-000000000001"` behind a millisecond encoding byte. -/
def negativeTimestamp : Bytes := [0, 45, 48, 48, 48, 48, 48, 48, 48, 48, 48, 48, 48, 49]

/-- A minus sign is read as part of the number. -/
theorem negative_timestamp_accepted :
    parseTimestamp negativeTimestamp 0 = .ok (-1 / 1000, 14) ∧
      ¬ FollowsGrammar negativeTimestamp 0 := by
  have hfield : encodeUtf8 (asciiText negativeTimestamp.tail) =
      millisecondField negativeTimestamp 0 := encodeUtf8_asciiText (by decide +kernel)
  have hparse : parseInt (asciiText negativeTimestamp.tail) = some (-1) := by decide +kernel
  have hread : decodeMillisecondTimestamp (millisecondField negativeTimestamp 0) =
      .ok (-1 / 1000) := decodeMillisecondTimestamp_eq_ok.2 ⟨_, -1, hfield, hparse, rfl⟩
  have hloose : LooseMilliseconds negativeTimestamp 0 :=
    ⟨rfl, by decide +kernel, by decide +kernel, _, hfield, isSome_parseInt.1 (hparse ▸ rfl)⟩
  obtain ⟨moment, stop, hok, hnot⟩ := parseTimestamp_of_looseMilliseconds hloose
  refine ⟨parseTimestamp_eq_ok.2 (.inl ⟨rfl, by decide +kernel, hread, rfl⟩), ?_⟩
  rintro ⟨hiff, -⟩
  exact hnot ((hiff moment stop).1 hok)

end TuyaBle
