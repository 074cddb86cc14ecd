import KhdfLinux.Lib.Calendar
import KhdfLinux.Lib.Machine
import Mathlib.Algebra.Ring.Nat

/-!
# The times of the RTC

`HdfTimeToLinuxTime` and `LinuxTimeToHdfTime` convert between the times of the HDF and those of the
kernel, which count the months from zero and the years from 1900.  `rtcTime_iff` tells which times
are converted with the right day of the year, and come back.
-/

namespace Rtc

/-- `MONTH_DIFF`. -/
def monthDiff : Int := 1

/-- `YEAR_BASE`. -/
def yearBase : Int := 1900

/-- `struct RtcTime`.  The year has `w` bits and the other fields have `v`. -/
@[ext]
structure RtcTime (v w : ℕ) where
  second : BitVec v
  minute : BitVec v
  hour : BitVec v
  day : BitVec v
  weekday : BitVec v
  month : BitVec v
  year : BitVec w
  deriving DecidableEq, Repr

/-- `struct rtc_time`. -/
@[ext]
structure LinuxTime where
  tmSec : Int
  tmMin : Int
  tmHour : Int
  tmMday : Int
  tmMon : Int
  tmYear : Int
  tmWday : Int
  tmYday : Int
  tmIsdst : Int
  deriving DecidableEq, Repr

variable {v w : ℕ}

/-- `HdfTimeToLinuxTime`.  The kernel's `rtc_year_days` takes unsigned arguments. -/
def hdfTimeToLinuxTime (rtcYearDays : ℕ → ℕ → ℕ → Int) (hdfTime : RtcTime v w)
    (linuxTime : LinuxTime) : LinuxTime :=
  let mday : Int := hdfTime.day.toNat
  let mon : Int := hdfTime.month.toNat - monthDiff
  let year : Int := hdfTime.year.toNat - yearBase
  { linuxTime with
    tmSec := hdfTime.second.toNat
    tmMin := hdfTime.minute.toNat
    tmHour := hdfTime.hour.toNat
    tmMday := mday
    tmMon := mon
    tmYear := year
    tmWday := hdfTime.weekday.toNat
    tmYday := rtcYearDays (u32 mday) (u32 mon) (u32 year) }

/-- `LinuxTimeToHdfTime`. -/
def linuxTimeToHdfTime (linuxTime : LinuxTime) : RtcTime v w where
  second := BitVec.ofInt v linuxTime.tmSec
  minute := BitVec.ofInt v linuxTime.tmMin
  hour := BitVec.ofInt v linuxTime.tmHour
  day := BitVec.ofInt v linuxTime.tmMday
  month := BitVec.ofInt v (linuxTime.tmMon + monthDiff)
  year := BitVec.ofInt w (linuxTime.tmYear + yearBase)
  weekday := BitVec.ofInt v linuxTime.tmWday

/-- The time exists, from 1900 on. -/
structure RtcTime.Valid (t : RtcTime v w) : Prop where
  second : t.second.toNat < 60
  minute : t.minute.toNat < 60
  hour : t.hour.toNat < 24
  month_pos : 1 ≤ t.month.toNat
  date : Calendar.IsDate t.year.toNat (t.month.toNat - 1) t.day.toNat
  year : 1900 ≤ t.year.toNat

/-- The time exists, with the day of the week and of the year. -/
structure LinuxTime.Valid (t : LinuxTime) : Prop where
  second : 0 ≤ t.tmSec ∧ t.tmSec < 60
  minute : 0 ≤ t.tmMin ∧ t.tmMin < 60
  hour : 0 ≤ t.tmHour ∧ t.tmHour < 24
  nonneg : 0 ≤ t.tmMday ∧ 0 ≤ t.tmMon
  date : Calendar.IsDate (t.tmYear + 1900).toNat t.tmMon.toNat t.tmMday.toNat
  year : 0 ≤ t.tmYear ∧ t.tmYear ≤ 2147483647 - 1900
  weekday : 0 ≤ t.tmWday ∧ t.tmWday < 7
  yday : t.tmYday = Calendar.dayOfYear (t.tmYear + 1900).toNat t.tmMon.toNat t.tmMday.toNat

/-- The fields denote the same date and time. -/
structure LinuxTime.Denotes (t : LinuxTime) (hdfTime : RtcTime v w) : Prop where
  second : t.tmSec = hdfTime.second.toNat
  minute : t.tmMin = hdfTime.minute.toNat
  hour : t.tmHour = hdfTime.hour.toNat
  day : t.tmMday = hdfTime.day.toNat
  month : t.tmMon + 1 = hdfTime.month.toNat
  year : t.tmYear + 1900 = hdfTime.year.toNat
  weekday : t.tmWday = hdfTime.weekday.toNat

/-- The time is converted, with the day of the year, and comes back. -/
structure RtcTime.Converts (rtcYearDays : ℕ → ℕ → ℕ → Int) (t : RtcTime v w) (old : LinuxTime) :
    Prop where
  yday : (hdfTimeToLinuxTime rtcYearDays t old).tmYday
    = Calendar.dayOfYear t.year.toNat (t.month.toNat - 1) t.day.toNat
  denotes : (hdfTimeToLinuxTime rtcYearDays t old).Denotes t
  back : linuxTimeToHdfTime (hdfTimeToLinuxTime rtcYearDays t old) = t

/-- The kernel's `rtc_year_days` counts the days of the Gregorian year. -/
def Counts (rtcYearDays : ℕ → ℕ → ℕ → Int) : Prop :=
  ∀ day month year, month < 12 → 1 ≤ day → day ≤ 31 →
    rtcYearDays day month year = Calendar.dayOfYear year month day

/-- The date is in January or February, which are the months 0 and 1, or its year is not 1900 or
2000, up to 400 years. -/
def Regular (year month : ℕ) : Prop := month ≤ 1 ∨ year % 400 ≠ 0 ∧ year % 400 ≠ 300

/-! ### Leap years -/

/-- A year is a leap year together with the one 1900 years before, but for those two. -/
theorem leap_sub_iff {year : ℕ} (h : 1900 ≤ year) :
  (Calendar.Leap year ↔ Calendar.Leap (year - 1900)) ↔ year % 400 ≠ 0 ∧ year % 400 ≠ 300
  := by
  unfold Calendar.Leap
  constructor
  · intro hleap
    omega
  · rintro ⟨h0, h3⟩
    omega

/-- The day that is counted in the year that is passed. -/
theorem dayOfYear_sub_iff {year month : ℕ} (day : ℕ) (h : 1900 ≤ year) :
  Calendar.dayOfYear (year - 1900) month day = Calendar.dayOfYear year month day
    ↔ Regular year month
  := by
  rw [eq_comm, Calendar.dayOfYear_eq_iff, leap_sub_iff h]
  rfl

/-! ### Fields -/

variable {days : ℕ → ℕ → ℕ → Int} {t : RtcTime v w} {lt old : LinuxTime}

/-- A field that is read as an int and stored again. -/
theorem ofInt_toNat (x : BitVec v) :
  BitVec.ofInt v (x.toNat : Int) = x
  := by
  rw [BitVec.ofInt_natCast, BitVec.ofNat_toNat, BitVec.setWidth_eq]

/-- An int that is stored in a field. -/
theorem toNat_ofInt {n : Int} (hn : 0 ≤ n) (hlt : n.toNat < 2 ^ v) :
  ((BitVec.ofInt v n).toNat : Int) = n
  := by
  obtain ⟨k, rfl⟩ := Int.eq_ofNat_of_zero_le hn
  rw [Int.toNat_natCast] at hlt
  rw [BitVec.ofInt_natCast, BitVec.toNat_ofNat, Nat.mod_eq_of_lt hlt]

/-- The day of the year that is computed. -/
theorem tmYday_eq (hdays : Counts days) (hw : w ≤ 31) (h : t.Valid) :
  (hdfTimeToLinuxTime days t old).tmYday
    = Calendar.dayOfYear (t.year.toNat - 1900) (t.month.toNat - 1) t.day.toNat
  := by
  have hmonth := h.date.month_lt
  have hpos := h.month_pos
  have hday := Nat.le_trans h.date.day_le (Calendar.monthDays_le _ _)
  have hyear := h.year
  have hlt : t.year.toNat < 2147483648 :=
    Nat.lt_of_lt_of_le t.year.isLt (Nat.pow_le_pow_right (by decide) hw)
  have hmonth' : u32 ((t.month.toNat : Int) - monthDiff) = t.month.toNat - 1 :=
    u32_sub (k := 1) hpos (by omega)
  have hyear' : u32 ((t.year.toNat : Int) - yearBase) = t.year.toNat - 1900 :=
    u32_sub (k := 1900) hyear (by omega)
  show days (u32 t.day.toNat) (u32 (t.month.toNat - monthDiff)) (u32 (t.year.toNat - yearBase)) = _
  rw [hmonth', hyear', u32_of_lt (by omega)]
  exact hdays _ _ _ hmonth h.date.day_pos hday

/-- The fields that are copied, or moved to another origin. -/
theorem hdfTimeToLinuxTime_denotes (days : ℕ → ℕ → ℕ → Int) (t : RtcTime v w) (old : LinuxTime) :
  (hdfTimeToLinuxTime days t old).Denotes t
  where
  second := rfl
  minute := rfl
  hour := rfl
  day := rfl
  month := Int.sub_add_cancel _ _
  year := Int.sub_add_cancel _ _
  weekday := rfl

/-- A time comes back from the kernel's fields that denote it. -/
theorem linuxTimeToHdfTime_of_denotes (h : lt.Denotes t) :
  linuxTimeToHdfTime lt = t
  := by
  have hmonth : lt.tmMon + monthDiff = t.month.toNat := h.month
  have hyear : lt.tmYear + yearBase = t.year.toNat := h.year
  ext1
  · exact (congrArg _ h.second).trans (ofInt_toNat _)
  · exact (congrArg _ h.minute).trans (ofInt_toNat _)
  · exact (congrArg _ h.hour).trans (ofInt_toNat _)
  · exact (congrArg _ h.day).trans (ofInt_toNat _)
  · exact (congrArg _ h.weekday).trans (ofInt_toNat _)
  · exact (congrArg _ hmonth).trans (ofInt_toNat _)
  · exact (congrArg _ hyear).trans (ofInt_toNat _)

/-- A time of the HDF is converted exactly if its date is regular. -/
theorem converts_iff (hdays : Counts days) (hw : w ≤ 31) (h : t.Valid) :
  t.Converts days old ↔ Regular t.year.toNat (t.month.toNat - 1)
  := by
  have hdenotes := hdfTimeToLinuxTime_denotes days t old
  rw [← dayOfYear_sub_iff t.day.toNat h.year]
  constructor
  · intro hconverts
    have hyday := hconverts.yday
    rw [tmYday_eq hdays hw h] at hyday
    exact Int.ofNat.inj hyday
  · intro hday
    refine ⟨?_, hdenotes, linuxTimeToHdfTime_of_denotes hdenotes⟩
    rw [tmYday_eq hdays hw h, hday]

/-! ### Times of the kernel -/

/-- The fields of a valid time fit, but for the year. -/
theorem LinuxTime.Valid.denotes (h : lt.Valid) (hv : 6 ≤ v)
    (hyear : (lt.tmYear + 1900).toNat < 2 ^ w) :
  lt.Denotes (linuxTimeToHdfTime lt : RtcTime v w)
  := by
  have hfits : 64 ≤ 2 ^ v := Nat.pow_le_pow_right (n := 2) (by decide) hv
  have hday := Nat.le_trans h.date.day_le (Calendar.monthDays_le _ _)
  have hmonth := h.date.month_lt
  obtain ⟨hmday, hmon⟩ := h.nonneg
  constructor
  · exact (toNat_ofInt h.second.1 (by have hlt := h.second.2; omega)).symm
  · exact (toNat_ofInt h.minute.1 (by have hlt := h.minute.2; omega)).symm
  · exact (toNat_ofInt h.hour.1 (by have hlt := h.hour.2; omega)).symm
  · exact (toNat_ofInt hmday (by omega)).symm
  · exact (toNat_ofInt (n := lt.tmMon + 1) (by omega) (by omega)).symm
  · exact (toNat_ofInt (n := lt.tmYear + 1900) (by have hlow := h.year.1; omega) hyear).symm
  · exact (toNat_ofInt h.weekday.1 (by have hlt := h.weekday.2; omega)).symm

/-- The date of the kernel's fields is that of the HDF time that they denote. -/
theorem LinuxTime.Denotes.date_eq (h : lt.Denotes t) :
  (lt.tmYear + 1900).toNat = t.year.toNat ∧ lt.tmMon.toNat = t.month.toNat - 1
    ∧ lt.tmMday.toNat = t.day.toNat
  := by
  have hday := h.day
  have hmonth := h.month
  have hyear := h.year
  omega

/-- What a valid time denotes is valid. -/
theorem LinuxTime.Valid.valid_of_denotes (h : lt.Valid) (hdenotes : lt.Denotes t) :
  t.Valid
  := by
  obtain ⟨hyear, hmonth, hday⟩ := hdenotes.date_eq
  have hdate := h.date
  rw [hyear, hmonth, hday] at hdate
  constructor
  · have hlt := h.second.2
    have heq := hdenotes.second
    omega
  · have hlt := h.minute.2
    have heq := hdenotes.minute
    omega
  · have hlt := h.hour.2
    have heq := hdenotes.hour
    omega
  · have hnonneg := h.nonneg.2
    have heq := hdenotes.month
    omega
  · exact hdate
  · have hlow := h.year.1
    have heq := hdenotes.year
    omega

/-- The day of the year that is computed for a valid time of the kernel is its own exactly if its
date is regular. -/
theorem tmYday_iff (hdays : Counts days) (hw : w ≤ 31) (h : lt.Valid) (hdenotes : lt.Denotes t) :
  (hdfTimeToLinuxTime days t old).tmYday = lt.tmYday
    ↔ Regular (lt.tmYear + 1900).toNat lt.tmMon.toNat
  := by
  have hvalid := h.valid_of_denotes hdenotes
  obtain ⟨hyear, hmonth, hday⟩ := hdenotes.date_eq
  rw [tmYday_eq hdays hw hvalid, h.yday, hyear, hmonth, hday,
    ← dayOfYear_sub_iff t.day.toNat hvalid.year]
  exact Int.ofNat_inj

/-- A time of the kernel comes back exactly if its year fits and its date is regular. -/
theorem back_iff (hdays : Counts days) (hv : 6 ≤ v) (hw : w ≤ 31) (h : lt.Valid)
    (hold : old.tmIsdst = lt.tmIsdst) :
  hdfTimeToLinuxTime days (linuxTimeToHdfTime lt : RtcTime v w) old = lt
    ↔ (lt.tmYear + 1900).toNat < 2 ^ w ∧ Regular (lt.tmYear + 1900).toNat lt.tmMon.toNat
  := by
  constructor
  · intro hback
    have hyear : ((linuxTimeToHdfTime lt : RtcTime v w).year.toNat : Int) - 1900 = lt.tmYear :=
      congrArg LinuxTime.tmYear hback
    have hfits : (lt.tmYear + 1900).toNat < 2 ^ w := by
      have hlt := (linuxTimeToHdfTime lt : RtcTime v w).year.isLt
      omega
    have hyday := congrArg LinuxTime.tmYday hback
    exact ⟨hfits, (tmYday_iff hdays hw h (h.denotes hv hfits)).mp hyday⟩
  · rintro ⟨hfits, hregular⟩
    have hdenotes : lt.Denotes (linuxTimeToHdfTime lt : RtcTime v w) := h.denotes hv hfits
    have hnew := hdfTimeToLinuxTime_denotes days (linuxTimeToHdfTime lt : RtcTime v w) old
    ext1
    · exact hnew.second.trans hdenotes.second.symm
    · exact hnew.minute.trans hdenotes.minute.symm
    · exact hnew.hour.trans hdenotes.hour.symm
    · exact hnew.day.trans hdenotes.day.symm
    · exact (Int.add_left_inj 1).mp (hnew.month.trans hdenotes.month.symm)
    · exact (Int.add_left_inj 1900).mp (hnew.year.trans hdenotes.year.symm)
    · exact hnew.weekday.trans hdenotes.weekday.symm
    · exact (tmYday_iff hdays hw h hdenotes).mpr hregular
    · exact hold

/-- The times of both sides that are converted and come back, for fields of the HDF that are
unsigned, hold the values of a time, and are narrower than an int. -/
theorem rtcTime_iff (hdays : Counts days) (hv : 6 ≤ v) (hw : w ≤ 31) :
  (∀ (t : RtcTime v w) (old : LinuxTime), t.Valid →
    (t.Converts days old ↔ Regular t.year.toNat (t.month.toNat - 1)))
  ∧ ∀ lt old : LinuxTime, lt.Valid → old.tmIsdst = lt.tmIsdst →
    (hdfTimeToLinuxTime days (linuxTimeToHdfTime lt : RtcTime v w) old = lt
      ↔ (lt.tmYear + 1900).toNat < 2 ^ w ∧ Regular (lt.tmYear + 1900).toNat lt.tmMon.toNat)
  := ⟨fun _ _ h => converts_iff hdays hw h, fun _ _ h hold => back_iff hdays hv hw h hold⟩

/-- A function that counts the days. -/
def gregorianDays (day month year : ℕ) : Int := Calendar.dayOfYear year month day

/-- The second of March 2021, in fields of 8 bits and of 16. -/
theorem rtcTime_march :
  RtcTime.Converts gregorianDays (⟨59, 59, 23, 2, 2, 3, 2021⟩ : RtcTime 8 16)
    ⟨0, 0, 0, 0, 0, 0, 0, 0, 0⟩
  := by
  have hcounts : Counts gregorianDays := fun _ _ _ _ _ _ => rfl
  have hvalid : (⟨59, 59, 23, 2, 2, 3, 2021⟩ : RtcTime 8 16).Valid :=
    ⟨by decide, by decide, by decide, by decide, ⟨by decide, by decide, by decide⟩, by decide⟩
  exact ((rtcTime_iff hcounts (by decide) (by decide)).1 _ _ hvalid).mpr (.inr (by decide))

/-- The first of March 2000 is the day 60, and is converted with the day 59. -/
theorem not_rtcTime_march :
  (⟨0, 0, 0, 1, 3, 3, 2000⟩ : RtcTime 8 16).Valid
    ∧ (hdfTimeToLinuxTime gregorianDays (⟨0, 0, 0, 1, 3, 3, 2000⟩ : RtcTime 8 16)
      ⟨0, 0, 0, 0, 0, 0, 0, 0, 0⟩).tmYday = 59
    ∧ Calendar.dayOfYear 2000 2 1 = 60
    ∧ ¬RtcTime.Converts gregorianDays (⟨0, 0, 0, 1, 3, 3, 2000⟩ : RtcTime 8 16)
      ⟨0, 0, 0, 0, 0, 0, 0, 0, 0⟩
  := by
  refine ⟨?_, by decide, by decide, fun h => absurd h.yday (by decide)⟩
  exact ⟨by decide, by decide, by decide, by decide, ⟨by decide, by decide, by decide⟩, by decide⟩

end Rtc
