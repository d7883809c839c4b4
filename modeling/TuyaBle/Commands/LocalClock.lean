import TuyaBle.Commands.TimeReply
import TuyaBle.Lib.Calendar

/-!
# Clock replies and the local clock

A clock reply puts an offset beside a moment, and the device puts the two together. The
offset is that of the zone's standard time, whatever the zone's clocks show.
-/

namespace TuyaBle

/-- The broken-down time as an instant, read as if in UTC. -/
def LocalTime.seconds (now : LocalTime) : Int :=
  Calendar.secondsFromEpoch now.tmYear now.tmMon now.tmMday now.tmHour now.tmMin now.tmSec

/-- The offset field of a reply, in seconds. -/
def offsetSeconds (field : Bytes) : Int := BigEndian.ofBytesSigned field * 36

/-- The Unix-time reply sends the offset of local time. -/
def UnixReplyConsistent (clock : Clock) (offset : Int) : Prop :=
  ∃ data, buildUnixTimeReply clock = .ok data ∧
    offsetSeconds (data.drop (data.length - 2)) = offset

/-- The fields of the local-time reply, less the offset beside them, are the instant. -/
def LocalReplyConsistent (clock : Clock) (instant : Int) : Prop :=
  ∃ (year mon mday hour min sec wday : UInt8) (field : Bytes),
    buildLocalTimeReply clock = .ok ([year, mon, mday, hour, min, sec, wday] ++ field) ∧
    field.length = 2 ∧
    ∃ fullYear, fullYear % 100 = year.toNat ∧
      Calendar.secondsFromEpoch fullYear mon.toNat mday.toNat hour.toNat min.toNat sec.toNat -
        offsetSeconds field = instant

/-- Local time is the zone's standard time, but for a remainder the unit cannot carry. -/
def KeepsStandardTime (clock : Clock) (offset : Int) : Prop :=
  (offset + clock.timezone).natAbs < 36 ∧ offset.natAbs ≤ clock.timezone.natAbs

theorem offsetSeconds_sent (clock : Clock) :
    offsetSeconds (BigEndian.toBytes 2 (timezoneOffset clock % 65536).toNat) =
      timezoneOffset clock * 36 := by
  have h := timezoneOffset_range clock
  have hread := BigEndian.ofBytesSigned_toBytes (k := 1) (v := timezoneOffset clock)
    (by omega) (by omega)
  exact congrArg (· * 36) hread

/-- The offset sent is that of standard time. -/
theorem timezoneOffset_eq_iff {clock : Clock} {offset : Int} (hunit : offset % 36 = 0) :
    timezoneOffset clock * 36 = offset ↔ KeepsStandardTime clock offset := by
  unfold timezoneOffset secondsPerTimezoneUnit KeepsStandardTime
  rcases Int.le_total 0 clock.timezone with h | h
  · rw [Int.tdiv_eq_ediv_of_nonneg h]
    omega
  · have hneg : clock.timezone.tdiv 36 = -((-clock.timezone).tdiv 36) := by
      rw [Int.neg_tdiv, Int.neg_neg]
    rw [hneg, Int.tdiv_eq_ediv_of_nonneg (by omega)]
    omega

theorem unixReplyConsistent_iff {clock : Clock} {offset : Int} :
    UnixReplyConsistent clock offset ↔ timezoneOffset clock * 36 = offset := by
  have hfield : ∀ digits : Bytes,
      (digits ++ BigEndian.toBytes 2 (timezoneOffset clock % 65536).toNat).drop
        ((digits ++ BigEndian.toBytes 2 (timezoneOffset clock % 65536).toNat).length - 2) =
      BigEndian.toBytes 2 (timezoneOffset clock % 65536).toNat := by
    intro digits
    rw [List.length_append, BigEndian.length_toBytes, Nat.add_sub_cancel, List.drop_left]
  unfold UnixReplyConsistent
  rw [buildUnixTimeReply_eq]
  constructor
  · rintro ⟨data, hdata, h⟩
    obtain rfl := Except.ok.inj hdata
    rwa [hfield, offsetSeconds_sent] at h
  · intro h
    exact ⟨_, rfl, by rw [hfield, offsetSeconds_sent, h]⟩

/-- What the device reads off the local-time reply, for a choice of the century. -/
theorem localReplyConsistent_iff_exists {clock : Clock} {instant : Int} :
    LocalReplyConsistent clock instant ↔
      ∃ fullYear, fullYear % 100 = clock.localtime.tmYear % 100 ∧
        Calendar.secondsFromEpoch fullYear clock.localtime.tmMon clock.localtime.tmMday
          clock.localtime.tmHour clock.localtime.tmMin clock.localtime.tmSec -
            timezoneOffset clock * 36 = instant := by
  have hbyte : ∀ {v : Nat}, v < 256 → (UInt8.ofNat v).toNat = v := by
    intro v hv
    rw [UInt8.toNat_ofNat', Nat.mod_eq_of_lt hv]
  have hmon := clock.localtime.mon_le
  have hmday := clock.localtime.mday_le
  have hhour := clock.localtime.hour_lt
  have hmin := clock.localtime.min_lt
  have hsec := clock.localtime.sec_le
  have hyear : clock.localtime.tmYear % century < 256 :=
    Nat.lt_trans (Nat.mod_lt _ (by decide)) (by decide)
  unfold LocalReplyConsistent
  rw [buildLocalTimeReply_eq]
  constructor
  · rintro ⟨year, mon, mday, hour, min, sec, wday, field, hdata, -, fullYear, hcentury, h⟩
    obtain ⟨hfields, rfl⟩ := List.append_inj (Except.ok.inj hdata) rfl
    cases hfields
    rw [hbyte hyear] at hcentury
    rw [hbyte (by omega), hbyte (by omega), hbyte (by omega), hbyte (by omega), hbyte (by omega),
      offsetSeconds_sent] at h
    exact ⟨fullYear, hcentury, h⟩
  · rintro ⟨fullYear, hcentury, h⟩
    refine ⟨_, _, _, _, _, _, _, _, rfl, BigEndian.length_toBytes _ _, fullYear, ?_, ?_⟩
    · rw [hbyte hyear]
      exact hcentury
    · rw [hbyte (by omega), hbyte (by omega), hbyte (by omega), hbyte (by omega),
        hbyte (by omega), offsetSeconds_sent]
      exact h

theorem localReplyConsistent_iff {clock : Clock} {instant offset : Int}
    (hlocal : clock.localtime.seconds = instant + offset) (hlo : -86400 < offset)
    (hhi : offset < 86400) :
    LocalReplyConsistent clock instant ↔ timezoneOffset clock * 36 = offset := by
  have hrange := timezoneOffset_range clock
  rw [localReplyConsistent_iff_exists]
  unfold LocalTime.seconds at hlocal
  constructor
  · rintro ⟨fullYear, hcentury, h⟩
    -- the two offsets are less than two days apart, so the century is the clock's own
    obtain rfl := Calendar.year_eq_of_near clock.localtime.tmMon clock.localtime.tmMday
      clock.localtime.tmHour clock.localtime.tmMin clock.localtime.tmSec hcentury
      (by omega) (by omega)
    omega
  · intro h
    exact ⟨clock.localtime.tmYear, rfl, by omega⟩

/-- **The clock replies are consistent exactly while local time is standard time.** -/
theorem clockReplies_consistent_iff (clock : Clock) (instant offset : Int)
    (hlocal : clock.localtime.seconds = instant + offset) (hunit : offset % 36 = 0)
    (hday : -86400 < offset ∧ offset < 86400) :
    (UnixReplyConsistent clock offset ↔ KeepsStandardTime clock offset) ∧
      (LocalReplyConsistent clock instant ↔ KeepsStandardTime clock offset) := by
  rw [← timezoneOffset_eq_iff hunit]
  exact ⟨unixReplyConsistent_iff, localReplyConsistent_iff hlocal hday.1 hday.2⟩

namespace LocalClock

/-- Noon UTC on 1 July 2024 in a zone two hours east of UTC, with an hour of daylight saving. -/
def summer : Clock where
  time := 1719835200
  timeNs := 1719835200000000000
  timezone := -7200
  localtime := { tmYear := 2024, tmMon := 7, tmMday := 1, tmHour := 15, tmMin := 0, tmSec := 0,
                 tmWday := 0 }

/-- Noon UTC on 1 January 2024 there. -/
def winter : Clock where
  time := 1704110400
  timeNs := 1704110400000000000
  timezone := -7200
  localtime := { tmYear := 2024, tmMon := 1, tmMday := 1, tmHour := 14, tmMin := 0, tmSec := 0,
                 tmWday := 0 }

end LocalClock

/-- In winter both replies are consistent. -/
theorem winter_replies_consistent :
    UnixReplyConsistent LocalClock.winter 7200 ∧
      LocalReplyConsistent LocalClock.winter 1704110400 := by
  have hstandard : KeepsStandardTime LocalClock.winter 7200 := by
    unfold KeepsStandardTime
    decide
  have h := clockReplies_consistent_iff LocalClock.winter 1704110400 7200 (by decide) (by decide)
    (by decide)
  exact ⟨h.1.2 hstandard, h.2.2 hstandard⟩

/-- In summer the offset sent is an hour short of the local time beside it. -/
theorem summer_replies_inconsistent :
    LocalClock.summer.localtime.seconds = 1719835200 + 10800 ∧
      timezoneOffset LocalClock.summer * 36 = 7200 ∧
      ¬ UnixReplyConsistent LocalClock.summer 10800 ∧
      ¬ LocalReplyConsistent LocalClock.summer 1719835200 := by
  have hlocal : LocalClock.summer.localtime.seconds = 1719835200 + 10800 := by decide
  have hoffset : timezoneOffset LocalClock.summer * 36 = 7200 := by decide
  refine ⟨hlocal, hoffset, ?_, ?_⟩
  · rw [unixReplyConsistent_iff, hoffset]
    decide
  · rw [localReplyConsistent_iff hlocal (by decide) (by decide), hoffset]
    decide

end TuyaBle
