import KhdfLinux.Hdf.Base
import Mathlib.Algebra.BigOperators.Intervals
import Mathlib.Order.Monotone.Basic

/-!
# Elapsed time

`OsalGetTime` and `OsalGetSysTimeMs`, which sample the clock of the kernel, and `OsalDiffTime`, the
difference of two samples.  `elapsed_iff`: the difference of any two samples of a clock is what it
should be exactly as long as no two samples are in the same second, but not in the same
microsecond.
-/

namespace Osal.Time

/-- `struct timespec64`, as a reading of the monotonic clock, of which the nanoseconds are a
`ktime_t`. -/
structure Timespec64 where
  tvSec : Nat
  tvNsec : Nat
  nsec_lt : tvNsec < 1000000000
  ktime_lt : tvSec * 1000000000 + tvNsec < 9223372036854775808

/-- The nanoseconds of a reading. -/
def Timespec64.ktime (ts : Timespec64) : Nat := ts.tvSec * 1000000000 + ts.tvNsec

/-- `OsalTimespec`. -/
structure OsalTimespec where
  sec : UInt64
  usec : UInt64
  deriving DecidableEq, Repr

namespace OsalTimespec

/-- The microseconds of a time. -/
def instant (time : OsalTimespec) : Nat := time.sec.toNat * 1000000 + time.usec.toNat

/-- The microseconds are less than a second. -/
def Normalised (time : OsalTimespec) : Prop := time.usec.toNat < 1000000

end OsalTimespec

/-- What `OsalGetTime` writes for a reading. -/
def sample (ts : Timespec64) : OsalTimespec :=
  ⟨UInt64.ofNat ts.tvSec, UInt64.ofNat (ts.tvNsec / 1000)⟩

/-- `OsalGetTime`, with what `time` points to. -/
def osalGetTime (ts : Timespec64) : Option OsalTimespec → Int × Option OsalTimespec
  | none => (Hdf.errInvalidParam, none)
  | some _ => (Hdf.success, some (sample ts))

/-- `OsalDivS64`, of a dividend that is not negative. -/
def osalDivS64 (dividend : UInt64) (divisor : UInt64) : UInt64 := dividend / divisor

/-- `OsalGetSysTimeMs`. -/
def osalGetSysTimeMs (ts : Timespec64) : UInt64 :=
  let time := ((osalGetTime ts (some ⟨0, 0⟩)).2).getD ⟨0, 0⟩
  time.sec * 1000 + osalDivS64 time.usec 1000

/-- `OsalDiffTime`, with what `diff` points to. -/
def osalDiffTime (start stop diff : Option OsalTimespec) : Int × Option OsalTimespec :=
  match start, stop, diff with
  | some start, some stop, some diff =>
      if stop.sec < start.sec then
        (Hdf.errInvalidParam, some diff)
      else
        let usec : UInt32 := if stop.usec < start.usec then 1000 * 1000 else 0
        let sec : UInt32 := if stop.usec < start.usec then 1 else 0
        (Hdf.success, some ⟨stop.sec - start.sec - sec.toUInt64,
          usec.toUInt64 + stop.usec - start.usec⟩)
  | _, _, _ => (Hdf.errInvalidParam, diff)

/-! ### Two samples -/

/-- The difference of two times is what it should be: there is one exactly if they are in order, and
it is the only normalised one, of which neither field has wrapped. -/
structure Elapsed (start stop : OsalTimespec) : Prop where
  success_iff : ∀ diff, (osalDiffTime (some start) (some stop) (some diff)).1 = Hdf.success
    ↔ start.instant ≤ stop.instant
  result : ∀ diff, start.instant ≤ stop.instant → ∃ d,
    (osalDiffTime (some start) (some stop) (some diff)).2 = some d ∧ d.Normalised
      ∧ start.instant + d.instant = stop.instant
  unique : ∀ d d' : OsalTimespec, d.Normalised → d'.Normalised →
    start.instant + d.instant = stop.instant → start.instant + d'.instant = stop.instant → d = d'
  no_wrap : ∀ diff d, start.instant ≤ stop.instant →
    (osalDiffTime (some start) (some stop) (some diff)).2 = some d → ∃ borrow : Nat,
      d.sec.toNat + start.sec.toNat + borrow = stop.sec.toNat
        ∧ d.usec.toNat + start.usec.toNat = 1000000 * borrow + stop.usec.toNat

section Pairs

variable {start stop diff d : OsalTimespec}

theorem osalDiffTime_of_lt (h : stop.sec < start.sec) :
  osalDiffTime (some start) (some stop) (some diff) = (Hdf.errInvalidParam, some diff)
  := if_pos h

/-- The result if the microseconds are in order. -/
theorem osalDiffTime_of_le (hsec : start.sec ≤ stop.sec) (husec : start.usec ≤ stop.usec) :
  osalDiffTime (some start) (some stop) (some diff)
    = (Hdf.success, some ⟨stop.sec - start.sec, stop.usec - start.usec⟩)
  := by
  simp [osalDiffTime, UInt64.not_lt.mpr hsec, UInt64.not_lt.mpr husec]

/-- The result if a second is borrowed. -/
theorem osalDiffTime_of_borrow (hsec : start.sec ≤ stop.sec) (husec : stop.usec < start.usec) :
  osalDiffTime (some start) (some stop) (some diff)
    = (Hdf.success, some ⟨stop.sec - start.sec - 1, 1000000 + stop.usec - start.usec⟩)
  := by
  simp [osalDiffTime, UInt64.not_lt.mpr hsec, husec]

/-- A normalised time is told by its microseconds. -/
theorem OsalTimespec.Normalised.eq {d' : OsalTimespec} (h : d.Normalised) (h' : d'.Normalised)
    (heq : d.instant = d'.instant) :
  d = d'
  := by
  obtain ⟨sec, usec⟩ := d
  obtain ⟨sec', usec'⟩ := d'
  unfold OsalTimespec.Normalised at h h'
  unfold OsalTimespec.instant at heq
  dsimp only at h h' heq
  have hsec : sec = sec' := UInt64.toNat_inj.mp (by omega)
  have husec : usec = usec' := UInt64.toNat_inj.mp (by omega)
  rw [hsec, husec]

theorem elapsed_unique (start stop : OsalTimespec) {d d' : OsalTimespec} (h : d.Normalised)
    (h' : d'.Normalised) (hd : start.instant + d.instant = stop.instant)
    (hd' : start.instant + d'.instant = stop.instant) :
  d = d'
  := h.eq h' (by omega)

/-- A difference whose fields are those of the times, but for a second that is borrowed, is what it
should be. -/
theorem Elapsed.of_fields
    (hrun : ∀ diff, osalDiffTime (some start) (some stop) (some diff) = (Hdf.success, some d))
    (borrow : Nat) (hd : d.Normalised)
    (hsec : d.sec.toNat + start.sec.toNat + borrow = stop.sec.toNat)
    (husec : d.usec.toNat + start.usec.toNat = 1000000 * borrow + stop.usec.toNat) :
  Elapsed start stop
  := by
  have hsum : start.instant + d.instant = stop.instant := by
    unfold OsalTimespec.instant
    omega
  have hle : start.instant ≤ stop.instant := by omega
  refine ⟨fun diff => ?_, fun diff _ => ⟨d, ?_, hd, hsum⟩, fun _ _ => elapsed_unique start stop,
    fun diff d' _ hd' => ⟨borrow, ?_⟩⟩
  · rw [hrun]
    exact iff_of_true rfl hle
  · rw [hrun]
  · rw [hrun] at hd'
    obtain rfl := Option.some.inj hd'
    exact ⟨hsec, husec⟩

/-- The difference if a second is borrowed. -/
theorem elapsed_of_borrow (hstop : stop.Normalised) (hstart : start.Normalised)
    (hlt : start.sec < stop.sec) (hborrow : stop.usec < start.usec) :
  Elapsed start stop
  := by
  unfold OsalTimespec.Normalised at hstart hstop
  have hle : start.sec ≤ stop.sec := UInt64.le_of_lt hlt
  rw [UInt64.lt_iff_toNat_lt] at hlt
  have hone : (1 : UInt64) ≤ stop.sec - start.sec := by
    rw [UInt64.le_iff_toNat_le, UInt64.toNat_sub_of_le _ _ hle]
    show 1 ≤ _
    omega
  have hsecond : (stop.sec - start.sec - 1).toNat = stop.sec.toNat - start.sec.toNat - 1 := by
    rw [UInt64.toNat_sub_of_le _ _ hone, UInt64.toNat_sub_of_le _ _ hle]
    rfl
  have hmillion : (1000000 + stop.usec).toNat = 1000000 + stop.usec.toNat := by
    rw [UInt64.toNat_add]
    show (1000000 + stop.usec.toNat) % 18446744073709551616 = _
    omega
  have hmicro : (1000000 + stop.usec - start.usec).toNat
      = 1000000 + stop.usec.toNat - start.usec.toNat := by
    rw [UInt64.toNat_sub_of_le, hmillion]
    rw [UInt64.le_iff_toNat_le, hmillion]
    omega
  have hborrowNat := UInt64.lt_iff_toNat_lt.mp hborrow
  apply Elapsed.of_fields (fun diff => osalDiffTime_of_borrow hle hborrow) 1
  · show (1000000 + stop.usec - start.usec).toNat < 1000000
    omega
  · dsimp only
    omega
  · dsimp only
    omega

/-- The difference if the microseconds are in order. -/
theorem elapsed_of_le (hstop : stop.Normalised) (hsec : start.sec ≤ stop.sec)
    (husec : start.usec ≤ stop.usec) :
  Elapsed start stop
  := by
  unfold OsalTimespec.Normalised at hstop
  have hsecond := UInt64.toNat_sub_of_le _ _ hsec
  have hmicro := UInt64.toNat_sub_of_le _ _ husec
  rw [UInt64.le_iff_toNat_le] at hsec husec
  apply Elapsed.of_fields
    (fun diff => osalDiffTime_of_le (UInt64.le_iff_toNat_le.mpr hsec)
      (UInt64.le_iff_toNat_le.mpr husec)) 0
  · show (stop.usec - start.usec).toNat < 1000000
    omega
  · dsimp only
    omega
  · dsimp only
    omega

/-- There is no difference if the seconds are in the wrong order. -/
theorem elapsed_of_reversed (hstop : stop.Normalised) (hlt : stop.sec < start.sec) :
  Elapsed start stop
  := by
  unfold OsalTimespec.Normalised at hstop
  have hnot : ¬start.instant ≤ stop.instant := by
    rw [UInt64.lt_iff_toNat_lt] at hlt
    unfold OsalTimespec.instant
    omega
  refine ⟨fun diff => ?_, fun _ hle => absurd hle hnot, fun _ _ => elapsed_unique start stop,
    fun _ _ hle => absurd hle hnot⟩
  rw [osalDiffTime_of_lt hlt]
  exact iff_of_false (show Hdf.errInvalidParam ≠ Hdf.success by decide) hnot

/-- The difference of two times is what it should be unless they are in the wrong order within a
second. -/
theorem elapsed_pair_iff (hstart : start.Normalised) (hstop : stop.Normalised) :
  Elapsed start stop ↔ ¬(start.sec = stop.sec ∧ stop.usec < start.usec)
  := by
  constructor
  · rintro h ⟨hsec, husec⟩
    have hcode := (h.success_iff ⟨0, 0⟩).mp
      (by rw [osalDiffTime_of_borrow (UInt64.le_of_eq hsec) husec])
    rw [UInt64.lt_iff_toNat_lt] at husec
    unfold OsalTimespec.instant at hcode
    rw [hsec] at hcode
    omega
  intro h
  by_cases hlt : stop.sec < start.sec
  · exact elapsed_of_reversed hstop hlt
  have hle : start.sec ≤ stop.sec := UInt64.not_lt.mp hlt
  by_cases hborrow : stop.usec < start.usec
  · have hne : start.sec ≠ stop.sec := fun heq => h ⟨heq, hborrow⟩
    exact elapsed_of_borrow hstop hstart (UInt64.lt_of_le_of_ne hle hne) hborrow
  · exact elapsed_of_le hstop hle (UInt64.not_lt.mp hborrow)

end Pairs

/-! ### The samples of a clock -/

section Clock

variable {ts ts' : Timespec64}

theorem sample_sec (ts : Timespec64) :
  (sample ts).sec.toNat = ts.tvSec
  := by
  have hlt := ts.ktime_lt
  unfold sample
  rw [UInt64.toNat_ofNat']
  omega

theorem sample_usec (ts : Timespec64) :
  (sample ts).usec.toNat = ts.tvNsec / 1000
  := by
  have hlt := ts.nsec_lt
  unfold sample
  rw [UInt64.toNat_ofNat']
  omega

theorem sample_normalised (ts : Timespec64) :
  (sample ts).Normalised
  := by
  have hlt := ts.nsec_lt
  unfold OsalTimespec.Normalised
  rw [sample_usec]
  omega

/-- The microseconds of a sample. -/
theorem sample_instant (ts : Timespec64) :
  (sample ts).instant = ts.ktime / 1000
  := by
  unfold OsalTimespec.instant Timespec64.ktime
  rw [sample_sec, sample_usec]
  omega

/-- The milliseconds of a reading. -/
theorem osalGetSysTimeMs_toNat (ts : Timespec64) :
  (osalGetSysTimeMs ts).toNat = ts.ktime / 1000000
  := by
  have hlt := ts.ktime_lt
  have hmilli : (osalDivS64 (sample ts).usec 1000).toNat = ts.tvNsec / 1000 / 1000 := by
    unfold osalDivS64
    rw [UInt64.toNat_div, sample_usec]
    rfl
  have hsecond : ((sample ts).sec * 1000).toNat = ts.tvSec * 1000 := by
    rw [UInt64.toNat_mul, sample_sec]
    show ts.tvSec * 1000 % 18446744073709551616 = _
    omega
  show ((sample ts).sec * 1000 + osalDivS64 (sample ts).usec 1000).toNat = _
  rw [UInt64.toNat_add, hmilli, hsecond]
  unfold Timespec64.ktime
  omega

/-- The difference of two samples, as `OsalDiffTime` leaves it. -/
def sampleDiff (ts ts' : Timespec64) : OsalTimespec :=
  ((osalDiffTime (some (sample ts)) (some (sample ts')) (some ⟨0, 0⟩)).2).getD ⟨0, 0⟩

/-- Samples that are in order are not in the wrong order within a second. -/
theorem elapsed_of_ordered (h : ts.ktime ≤ ts'.ktime) :
  Elapsed (sample ts) (sample ts')
  := by
  have hnsec := ts'.nsec_lt
  apply (elapsed_pair_iff (sample_normalised ts) (sample_normalised ts')).mpr
  rintro ⟨hsec, husec⟩
  have hsecNat := congrArg UInt64.toNat hsec
  rw [UInt64.lt_iff_toNat_lt, sample_usec, sample_usec] at husec
  rw [sample_sec, sample_sec] at hsecNat
  unfold Timespec64.ktime at h
  omega

/-- The difference of samples that are in order leads from one to the other. -/
theorem sampleDiff_instant (h : ts.ktime ≤ ts'.ktime) :
  ts.ktime / 1000 + (sampleDiff ts ts').instant = ts'.ktime / 1000
  := by
  have hle : (sample ts).instant ≤ (sample ts').instant := by
    rw [sample_instant, sample_instant]
    exact Nat.div_le_div_right h
  obtain ⟨d, hd, -, hsum⟩ := (elapsed_of_ordered h).result ⟨0, 0⟩ hle
  unfold sampleDiff
  rw [hd, Option.getD_some, ← sample_instant, ← sample_instant]
  exact hsum

end Clock

/-- The samples of a clock: the differences of all pairs are what they should be, those of samples
that follow on each other add up, and the milliseconds do not decrease. -/
structure Consistent (clock : ℕ → Timespec64) : Prop where
  pair : ∀ i j, Elapsed (sample (clock i)) (sample (clock j))
  sum : ∀ i n, ∑ k ∈ Finset.range n, (sampleDiff (clock (i + k)) (clock (i + k + 1))).instant
    = (sampleDiff (clock i) (clock (i + n))).instant
  ms : ∀ i j, i ≤ j → osalGetSysTimeMs (clock i) ≤ osalGetSysTimeMs (clock j)

/-- For a clock that does not run backwards, all this holds exactly if no two samples are in the
same second, but not in the same microsecond. -/
theorem elapsed_iff {clock : ℕ → Timespec64} (h : Monotone fun i => (clock i).ktime) :
  Consistent clock
    ↔ ∀ i j, (clock i).tvSec = (clock j).tvSec →
      (clock i).tvNsec / 1000 = (clock j).tvNsec / 1000
  := by
  have hpair : ∀ i j, Elapsed (sample (clock i)) (sample (clock j))
      ↔ ¬((clock i).tvSec = (clock j).tvSec
        ∧ (clock j).tvNsec / 1000 < (clock i).tvNsec / 1000) := by
    intro i j
    rw [elapsed_pair_iff (sample_normalised _) (sample_normalised _), ← UInt64.toNat_inj,
      UInt64.lt_iff_toNat_lt, sample_sec, sample_sec, sample_usec, sample_usec]
  constructor
  · intro hall i j hsec
    have hij := (hpair i j).mp (hall.pair i j)
    have hji := (hpair j i).mp (hall.pair j i)
    omega
  intro hsame
  refine ⟨fun i j => (hpair i j).mpr ?_, fun i n => ?_, fun i j hij => ?_⟩
  · rintro ⟨hsec, hlt⟩
    have husec := hsame i j hsec
    omega
  · have hwhole := sampleDiff_instant (h (Nat.le_add_right i n))
    induction n with
    | zero =>
        rw [Finset.sum_range_zero]
        rw [Nat.add_zero] at hwhole ⊢
        omega
    | succ n ih =>
        rw [Finset.sum_range_succ, ih (sampleDiff_instant (h (Nat.le_add_right i n)))]
        have hbefore := sampleDiff_instant (h (Nat.le_add_right i n))
        have hlast := sampleDiff_instant (h (Nat.le_add_right (i + n) 1))
        rw [Nat.add_assoc] at hlast
        rw [Nat.add_assoc]
        omega
  · rw [UInt64.le_iff_toNat_le, osalGetSysTimeMs_toNat, osalGetSysTimeMs_toNat]
    exact Nat.div_le_div_right (h hij)

/-- A clock that is read once in each of ten seconds. -/
def secondClock (i : ℕ) : Timespec64 :=
  ⟨min i 10, 0, by decide, by omega⟩

/-- The differences of its samples. -/
theorem elapsed_secondClock :
  Consistent secondClock
  := by
  have hclock : Monotone fun i => (secondClock i).ktime := by
    intro i j hij
    show min i 10 * 1000000000 + 0 ≤ min j 10 * 1000000000 + 0
    omega
  exact (elapsed_iff hclock).mpr fun _ _ _ => rfl

/-- A clock that is read twice in a second. -/
def twiceClock (i : ℕ) : Timespec64 :=
  if i = 0 then ⟨5, 400000000, by decide, by decide⟩ else ⟨5, 600000000, by decide, by decide⟩

/-- The difference from the second sample to the first one is said to be there, and has wrapped. -/
theorem elapsed_reversed :
  osalDiffTime (some (sample (twiceClock 1))) (some (sample (twiceClock 0))) (some ⟨0, 0⟩)
      = (Hdf.success, some ⟨18446744073709551615, 800000⟩)
    ∧ (Monotone fun i => (twiceClock i).ktime) ∧ ¬Consistent twiceClock
  := by
  have hclock : Monotone fun i => (twiceClock i).ktime := by
    intro i j hij
    dsimp only
    unfold twiceClock
    split_ifs
    · exact Nat.le_refl _
    · decide
    · omega
    · exact Nat.le_refl _
  refine ⟨by decide, hclock, fun h => ?_⟩
  have hpair := (h.pair 1 0).success_iff ⟨0, 0⟩
  revert hpair
  decide

end Osal.Time
