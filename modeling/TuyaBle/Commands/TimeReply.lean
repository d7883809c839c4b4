import TuyaBle.Python

/-!
# Clock replies

A `Clock` is what the `time` module answers at one instant. The broken-down local time
carries the ranges of its fields.
-/

namespace TuyaBle

structure LocalTime where
  tmYear : Nat
  tmMon : Nat
  tmMday : Nat
  tmHour : Nat
  tmMin : Nat
  tmSec : Nat
  tmWday : Nat
  mon_le : tmMon ≤ 12 := by decide
  mday_le : tmMday ≤ 31 := by decide
  hour_lt : tmHour < 24 := by decide
  min_lt : tmMin < 60 := by decide
  sec_le : tmSec ≤ 61 := by decide
  wday_lt : tmWday < 7 := by decide
  deriving DecidableEq

structure Clock where
  /-- `time.time()`. -/
  time : Rat
  /-- `time.time_ns()`. -/
  timeNs : Nat
  /-- `time.timezone`, in seconds west of UTC. -/
  timezone : Int
  /-- `time.localtime()`. -/
  localtime : LocalTime
  timezone_range : -86400 < timezone ∧ timezone < 86400 := by decide
  deriving DecidableEq

def nanosecondsPerMillisecond : Nat := 1000000
def secondsPerTimezoneUnit : Int := 36
def century : Nat := 100

/-- The local offset in hundredths of an hour; `int` drops the fraction of the quotient. -/
def timezoneOffset (clock : Clock) : Int := -(clock.timezone.tdiv secondsPerTimezoneUnit)

def buildUnixTimeReply (clock : Clock) : Except PyException Bytes := do
  let milliseconds := clock.timeNs / nanosecondsPerMillisecond
  let offset ← packShort (timezoneOffset clock)
  return encodeUtf8 (toString milliseconds) ++ offset

def buildLocalTimeReply (clock : Clock) : Except PyException Bytes := do
  let now := clock.localtime
  let year ← packUnsigned 1 (now.tmYear % century)
  let mon ← packUnsigned 1 now.tmMon
  let mday ← packUnsigned 1 now.tmMday
  let hour ← packUnsigned 1 now.tmHour
  let min ← packUnsigned 1 now.tmMin
  let sec ← packUnsigned 1 now.tmSec
  let wday ← packUnsigned 1 now.tmWday
  let offset ← packShort (timezoneOffset clock)
  return year ++ mon ++ mday ++ hour ++ min ++ sec ++ wday ++ offset

theorem timezoneOffset_range (clock : Clock) :
    -2400 ≤ timezoneOffset clock ∧ timezoneOffset clock ≤ 2400 := by
  have h := clock.timezone_range
  unfold timezoneOffset secondsPerTimezoneUnit
  rcases Int.le_total 0 clock.timezone with h0 | h0
  · rw [Int.tdiv_eq_ediv_of_nonneg h0]; omega
  · have : clock.timezone.tdiv 36 = -((-clock.timezone).tdiv 36) := by
      rw [Int.neg_tdiv, Int.neg_neg]
    rw [this, Int.tdiv_eq_ediv_of_nonneg (by omega)]
    omega

theorem packShort_timezoneOffset (clock : Clock) :
    packShort (timezoneOffset clock) =
      .ok (BigEndian.toBytes 2 (timezoneOffset clock % 65536).toNat) := by
  have h := timezoneOffset_range clock
  exact if_pos (by omega)

theorem buildUnixTimeReply_eq (clock : Clock) :
    buildUnixTimeReply clock =
      .ok (encodeUtf8 (toString (clock.timeNs / nanosecondsPerMillisecond)) ++
        BigEndian.toBytes 2 (timezoneOffset clock % 65536).toNat) := by
  simp only [buildUnixTimeReply, packShort_timezoneOffset, bind, Except.bind, pure, Except.pure]

/-- Every field of the broken-down time fits its byte. -/
theorem buildLocalTimeReply_eq (clock : Clock) :
    buildLocalTimeReply clock =
      .ok ([UInt8.ofNat (clock.localtime.tmYear % century), UInt8.ofNat clock.localtime.tmMon,
        UInt8.ofNat clock.localtime.tmMday, UInt8.ofNat clock.localtime.tmHour,
        UInt8.ofNat clock.localtime.tmMin, UInt8.ofNat clock.localtime.tmSec,
        UInt8.ofNat clock.localtime.tmWday] ++
          BigEndian.toBytes 2 (timezoneOffset clock % 65536).toNat) := by
  have hb : ∀ {v : Nat}, v < 256 → packUnsigned 1 v = .ok [UInt8.ofNat v] := by
    intro v hv
    rw [packUnsigned_ok (by simpa using hv), BigEndian.toBytes, BigEndian.toBytes, Nat.pow_zero,
      Nat.div_one]
  have h0 : clock.localtime.tmYear % century < 256 :=
    Nat.lt_trans (Nat.mod_lt _ (by decide)) (by decide)
  have h1 := clock.localtime.mon_le
  have h2 := clock.localtime.mday_le
  have h3 := clock.localtime.hour_lt
  have h4 := clock.localtime.min_lt
  have h5 := clock.localtime.sec_le
  have h6 := clock.localtime.wday_lt
  simp only [buildLocalTimeReply, packShort_timezoneOffset, hb h0,
    hb (show clock.localtime.tmMon < 256 by omega),
    hb (show clock.localtime.tmMday < 256 by omega),
    hb (show clock.localtime.tmHour < 256 by omega),
    hb (show clock.localtime.tmMin < 256 by omega),
    hb (show clock.localtime.tmSec < 256 by omega),
    hb (show clock.localtime.tmWday < 256 by omega), bind, Except.bind, pure, Except.pure]
  rfl

/-- **Both clock replies can always be built.** -/
theorem buildTimeReplies_ok (clock : Clock) :
    (∃ data, buildUnixTimeReply clock = .ok data) ∧
      ∃ data, buildLocalTimeReply clock = .ok data :=
  ⟨⟨_, buildUnixTimeReply_eq clock⟩, ⟨_, buildLocalTimeReply_eq clock⟩⟩

end TuyaBle
