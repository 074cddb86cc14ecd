import KhdfLinux.MipiDsi.PhyPll

/-!
# The timing of the phy

`MipiTxDrvGetPhyTimingParam` computes nine times in unsigned arithmetic of 32 bits and stores them
in bytes.  `phyTiming_iff` tells for which data rates they are what the same expressions are over
the integers.
-/

namespace MipiDsi

open Registers

/-! ### The expressions over the integers -/

/-- The periods of a time, rounded up. -/
def periods (rate time : Int) : Int := (rate * time + 7999) / 8000

/-- The first value of a prepare time. -/
def prepareExact (time rate : Int) : Int :=
  periods rate time - 1 + periods rate 10
    - ((periods rate time + periods rate 10) * 8000 - 10 * rate - time * rate) / 8000

/-- The prepare time of the clock, or nothing where the calculation fails. -/
def clkPrepareExact (rate : Int) : Option Int :=
  let temp0 := prepareExact 60 rate
  if (max temp0 0 + 1) * 8000 - 10 * rate > 94 * rate then
    if 0 < temp0 then some (temp0 - 1) else none
  else some (max temp0 0)

/-- The prepare time of the data, or nothing where the calculation fails. -/
def dataPrepareExact (rate : Int) : Option Int :=
  let temp0 := prepareExact 80 rate
  if 105 < rate ∧ (max temp0 0 + 1) * 8000 - 10 * rate > 85 * rate + 6 * 1000 then
    if 0 < temp0 then some (temp0 - 1) else none
  else some (max temp0 0)

/-- A time less its compensation, or zero. -/
def zeroExact (rate time : Int) : Int := if 4 < periods rate time then periods rate time - 4 else 0

/-- A byte as an integer. -/
def byteInt (value : UInt8) : Int := value.toNat

/-- The nine times are those of the expressions over the integers. -/
structure PhyTimingParam.Exact (tp : PhyTimingParam) (rate : Int) : Prop where
  dataTpreDelay : byteInt tp.dataTpreDelay = periods rate 100 - 1
  clkTlpx : byteInt tp.clkTlpx = periods rate 60 - 1
  clkTclkPrepare : clkPrepareExact rate = some (byteInt tp.clkTclkPrepare)
  clkTclkZero : byteInt tp.clkTclkZero = zeroExact rate 250
  clkTclkTrail : byteInt tp.clkTclkTrail = periods rate 80
  dataTlpx : byteInt tp.dataTlpx = periods rate 60 - 1
  dataThsPrepare : dataPrepareExact rate = some (byteInt tp.dataThsPrepare)
  dataThsZero : byteInt tp.dataThsZero = zeroExact rate 180
  dataThsTrail : byteInt tp.dataThsTrail = periods rate 110 + 1

/-- `MipiTxDrvGetPhyClkPrepare` reports an error. -/
def ClkPrepareErr (rate : UInt32) : Prop :=
  ((prepareTime 60 rate).toUInt32 + 1) * innerPeroid - prepareCompensate * rate > 94 * rate
    ∧ ¬0 < prepareTime 60 rate

/-- `MipiTxDrvGetPhyDataPrepare` reports an error. -/
def DataPrepareErr (rate : UInt32) : Prop :=
  (105 < rate ∧ ((prepareTime 80 rate).toUInt32 + 1) * innerPeroid - prepareCompensate * rate
      > 85 * rate + 6 * 1000)
    ∧ ¬0 < prepareTime 80 rate

/-- The value is composed of two fields of 16 bits. -/
def Composed (value : UInt32) (high low : Int) : Prop :=
  (value.toNat : Int) = high * 65536 + low ∧ (0 ≤ high ∧ high < 65536) ∧ 0 ≤ low ∧ low < 65536

/-- The times to switch are composed of their fields. -/
def PhyTimingParam.Composes (tp : PhyTimingParam) : Prop :=
  ∃ tmrCfg tmrLpclkCfg, mipiTxDrvSetPhyHsLpSwitchTime tp
      = [(.phyTmrCfg, tmrCfg), (.phyTmrLpclkCfg, tmrLpclkCfg)]
    ∧ Composed tmrCfg (byteInt tp.dataThsTrail - 1)
      (byteInt tp.dataTpreDelay + byteInt tp.dataTlpx + byteInt tp.dataThsPrepare
        + byteInt tp.dataThsZero + 7)
    ∧ Composed tmrLpclkCfg (31 + byteInt tp.dataThsTrail)
      (byteInt tp.clkTlpx + byteInt tp.clkTclkPrepare + byteInt tp.clkTclkZero + 6)

/-- The data rate rounded up to a multiple of the reference clock. -/
def ComboDevCfg.roundedRate (cfg : ComboDevCfg) : Int := clockUnits cfg.phyDataRate * 27

/-- The times of a configuration are exact, without an error, and its registers are composed of
them. -/
structure ComboDevCfg.Timed (cfg : ComboDevCfg) : Prop where
  exact : (mipiTxDrvGetPhyTimingParam (actualRate cfg)).Exact cfg.roundedRate
  clk : ¬ClkPrepareErr (actualRate cfg)
  data : ¬DataPrepareErr (actualRate cfg)
  composes : (mipiTxDrvGetPhyTimingParam (actualRate cfg)).Composes

section Timing

variable {rate time : UInt32}

/-! ### Unsigned arithmetic -/

/-- A product with a small factor does not wrap. -/
theorem times_toNat (hrate : rate.toNat ≤ 8262) (htime : time.toNat ≤ 250) :
  (time * rate).toNat = time.toNat * rate.toNat
  := by
  have hproduct : time.toNat * rate.toNat ≤ 250 * 8262 := Nat.mul_le_mul htime hrate
  rw [UInt32.toNat_mul]
  exact Nat.mod_eq_of_lt (Nat.lt_of_le_of_lt hproduct (by decide))

/-- The periods, where the product does not wrap. -/
theorem phyPeriods_nat (hrate : rate.toNat ≤ 8262) (htime : time.toNat ≤ 250) :
  (phyPeriods rate time).toNat = (rate.toNat * time.toNat + 7999) / 8000
  := by
  have hproduct : rate.toNat * time.toNat ≤ 8262 * 250 := Nat.mul_le_mul hrate htime
  unfold phyPeriods
  rw [UInt32.toNat_div, UInt32.toNat_add, UInt32.toNat_mul]
  show (rate.toNat * time.toNat % 4294967296 + 7999) % 4294967296 / 8000 = _
  omega

/-- The periods are those over the integers. -/
theorem phyPeriods_toNat (hrate : rate.toNat ≤ 8262) (htime : time.toNat ≤ 250) :
  ((phyPeriods rate time).toNat : Int) = periods rate.toNat time.toNat
  := by
  rw [phyPeriods_nat hrate htime]
  rfl

/-- What two roundings add is less than two periods. -/
theorem prepareTime_rest (hrate : rate.toNat ≤ 8262) (htime : time.toNat ≤ 80) :
  (((phyPeriods rate time + phyPeriods rate 10) * innerPeroid - prepareCompensate * rate
      - time * rate) / innerPeroid).toNat
    = (((phyPeriods rate time).toNat + (phyPeriods rate 10).toNat) * 8000 - 10 * rate.toNat
      - rate.toNat * time.toNat) / 8000
  := by
  have hp := phyPeriods_nat hrate (Nat.le_trans htime (by decide))
  have hc : (phyPeriods rate 10).toNat = (rate.toNat * 10 + 7999) / 8000 :=
    phyPeriods_nat hrate (by decide)
  have hproduct : rate.toNat * time.toNat ≤ 8262 * 80 := Nat.mul_le_mul hrate htime
  have hsum : ((phyPeriods rate time + phyPeriods rate 10) * innerPeroid).toNat
      = ((phyPeriods rate time).toNat + (phyPeriods rate 10).toNat) * 8000 := by
    rw [UInt32.toNat_mul, UInt32.toNat_add]
    show _ % 4294967296 * 8000 % 4294967296 = _
    omega
  have hten : (prepareCompensate * rate).toNat = 10 * rate.toNat :=
    times_toNat hrate (by decide)
  have htimes : (time * rate).toNat = rate.toNat * time.toNat :=
    (times_toNat hrate (Nat.le_trans htime (by decide))).trans (Nat.mul_comm ..)
  rw [UInt32.toNat_div, UInt32.toNat_sub_of_le, UInt32.toNat_sub_of_le, hsum, hten, htimes]
  · rfl
  · rw [UInt32.le_iff_toNat_le, hsum, hten]
    omega
  · rw [UInt32.le_iff_toNat_le, UInt32.toNat_sub_of_le, hsum, hten, htimes]
    · omega
    · rw [UInt32.le_iff_toNat_le, hsum, hten]
      omega

/-- The first value of a prepare time is computed without a wrap. -/
theorem prepareTime_eq (hlow : 1 ≤ rate.toNat) (hhigh : rate.toNat ≤ 8262)
  (htime : 1 ≤ time.toNat) (htime' : time.toNat ≤ 80) :
  byteInt (prepareTime time rate) = prepareExact time.toNat rate.toNat
  := by
  have hp := phyPeriods_nat hhigh (Nat.le_trans htime' (by decide))
  have hc : (phyPeriods rate 10).toNat = (rate.toNat * 10 + 7999) / 8000 :=
    phyPeriods_nat hhigh (by decide)
  have hproduct : rate.toNat * time.toNat ≤ 8262 * 80 := Nat.mul_le_mul hhigh htime'
  have hpos : 1 ≤ rate.toNat * time.toNat := Nat.mul_pos hlow htime
  have hcommute : (time.toNat : Int) * rate.toNat = rate.toNat * time.toNat := Int.mul_comm ..
  obtain ⟨rest, hdef⟩ : ∃ rest, (((phyPeriods rate time + phyPeriods rate 10) * innerPeroid
      - prepareCompensate * rate - time * rate) / innerPeroid) = rest := ⟨_, rfl⟩
  have hrest := prepareTime_rest hhigh htime'
  rw [hdef] at hrest
  have hfirst : (phyPeriods rate time - 1 + phyPeriods rate 10).toNat
      = (phyPeriods rate time).toNat - 1 + (phyPeriods rate 10).toNat := by
    rw [UInt32.toNat_add, UInt32.toNat_sub_of_le]
    · exact Nat.mod_eq_of_lt (show (phyPeriods rate time).toNat - 1 + _ < 4294967296 by omega)
    · exact UInt32.le_iff_toNat_le.mpr (show 1 ≤ (phyPeriods rate time).toNat by omega)
  have hbyte : (prepareTime time rate).toNat
      = (phyPeriods rate time).toNat - 1 + (phyPeriods rate 10).toNat - rest.toNat := by
    have heq : prepareTime time rate
        = (phyPeriods rate time - 1 + phyPeriods rate 10 - rest).toUInt8 := hdef ▸ rfl
    rw [heq, UInt32.toNat_toUInt8, UInt32.toNat_sub_of_le, hfirst]
    · exact Nat.mod_eq_of_lt (by omega)
    · rw [UInt32.le_iff_toNat_le, hfirst]
      omega
  unfold byteInt prepareExact periods
  rw [hbyte, hcommute]
  omega

/-- The first value of a prepare time, as one rounding. -/
theorem prepareExact_eq (time rate : Int) :
  prepareExact time rate = (10 * rate + time * rate + 7999) / 8000 - 1
  := by
  have hcommute : rate * time = time * rate := Int.mul_comm ..
  unfold prepareExact periods
  rw [hcommute]
  omega

/-- The next period is computed without a wrap. -/
theorem nextPeriod_toNat (hlow : 1 ≤ rate.toNat) (hhigh : rate.toNat ≤ 8262)
  (htime : 1 ≤ time.toNat) (htime' : time.toNat ≤ 80) :
  ((((prepareTime time rate).toUInt32 + 1) * innerPeroid - prepareCompensate * rate).toNat : Int)
    = (max (prepareExact time.toNat rate.toNat) 0 + 1) * 8000 - 10 * rate.toNat
  := by
  have htemp := prepareTime_eq hlow hhigh htime htime'
  have hbyte := (prepareTime time rate).toNat_lt
  have hproduct : (0 : Int) ≤ time.toNat * rate.toNat := Int.mul_nonneg (by omega) (by omega)
  have hten : (prepareCompensate * rate).toNat = 10 * rate.toNat :=
    times_toNat hhigh (by decide)
  have hnext : (((prepareTime time rate).toUInt32 + 1) * innerPeroid).toNat
      = ((prepareTime time rate).toNat + 1) * 8000 := by
    rw [UInt32.toNat_mul, UInt32.toNat_add, UInt8.toNat_toUInt32]
    show ((prepareTime time rate).toNat + 1) % 4294967296 * 8000 % 4294967296 = _
    omega
  unfold byteInt at htemp
  rw [prepareExact_eq] at htemp ⊢
  rw [UInt32.toNat_sub_of_le, hnext, hten]
  · omega
  · rw [UInt32.le_iff_toNat_le, hnext, hten]
    omega

/-- A prepare time less one period. -/
theorem prepareTime_pred (h : 0 < prepareTime time rate) :
  byteInt (prepareTime time rate - 1) = byteInt (prepareTime time rate) - 1
  := by
  have hpos : 1 ≤ (prepareTime time rate).toNat := UInt8.lt_iff_toNat_lt.mp h
  unfold byteInt
  rw [UInt8.toNat_sub_of_le _ _ hpos]
  exact Int.ofNat_sub hpos

/-- A first value is positive where that over the integers is. -/
theorem prepareTime_pos {temp0 : Int} (htemp : byteInt (prepareTime time rate) = temp0) :
  0 < prepareTime time rate ↔ 0 < temp0
  := by
  rw [UInt8.lt_iff_toNat_lt, ← htemp]
  exact Int.natCast_pos.symm

/-- The prepare time that is chosen from a first value. -/
theorem prepare_chosen {cond condExact : Prop} [Decidable cond] [Decidable condExact] {temp0 : Int}
  (hcond : cond ↔ condExact) (herr : condExact → 0 < temp0)
  (htemp : byteInt (prepareTime time rate) = temp0) :
  (if condExact then if 0 < temp0 then some (temp0 - 1) else none else some (max temp0 0))
    = some (byteInt (if cond then
      if 0 < prepareTime time rate then prepareTime time rate - 1 else 255
      else prepareTime time rate))
  := by
  by_cases h : condExact
  · have hpos := (prepareTime_pos htemp).mpr (herr h)
    rw [if_pos h, if_pos (herr h), if_pos (hcond.mpr h), if_pos hpos, prepareTime_pred hpos, htemp]
  · have hnonneg : 0 ≤ byteInt (prepareTime time rate) := Int.natCast_nonneg _
    rw [if_neg h, if_neg fun hc => h (hcond.mp hc), htemp, Int.max_eq_left (htemp ▸ hnonneg)]

/-- The prepare time of the clock is exact, and no error is reported. -/
theorem clkPrepare_exact (hlow : 81 ≤ rate.toNat) (hhigh : rate.toNat ≤ 8262) :
  clkPrepareExact rate.toNat = some (byteInt (mipiTxDrvGetPhyClkPrepare rate))
    ∧ ¬ClkPrepareErr rate
  := by
  have htemp : byteInt (prepareTime 60 rate) = prepareExact 60 rate.toNat :=
    prepareTime_eq (by omega) hhigh (by decide) (by decide)
  have hnext : ((((prepareTime 60 rate).toUInt32 + 1) * innerPeroid
      - prepareCompensate * rate).toNat : Int)
      = (max (prepareExact 60 rate.toNat) 0 + 1) * 8000 - 10 * rate.toNat :=
    nextPeriod_toNat (by omega) hhigh (by decide) (by decide)
  have hmax : (94 * rate).toNat = 94 * rate.toNat := times_toNat hhigh (by decide)
  have hcond : ((prepareTime 60 rate).toUInt32 + 1) * innerPeroid - prepareCompensate * rate
        > 94 * rate
      ↔ (max (prepareExact 60 rate.toNat) 0 + 1) * 8000 - 10 * rate.toNat
        > 94 * (rate.toNat : Int) := by
    rw [gt_iff_lt, UInt32.lt_iff_toNat_lt, hmax]
    omega
  -- a value of zero leaves a period, which is more than the maximum only below the rate of 77
  have herr : (max (prepareExact 60 rate.toNat) 0 + 1) * 8000 - 10 * rate.toNat
      > 94 * (rate.toNat : Int) → 0 < prepareExact 60 rate.toNat := by
    intro h
    omega
  refine ⟨prepare_chosen hcond herr htemp, fun h => ?_⟩
  exact h.2 ((prepareTime_pos htemp).mpr (herr (hcond.mp h.1)))

/-- The prepare time of the data is exact, and no error is reported. -/
theorem dataPrepare_exact (hlow : 81 ≤ rate.toNat) (hhigh : rate.toNat ≤ 8262) :
  dataPrepareExact rate.toNat = some (byteInt (mipiTxDrvGetPhyDataPrepare rate))
    ∧ ¬DataPrepareErr rate
  := by
  have htemp : byteInt (prepareTime 80 rate) = prepareExact 80 rate.toNat :=
    prepareTime_eq (by omega) hhigh (by decide) (by decide)
  have hnext : ((((prepareTime 80 rate).toUInt32 + 1) * innerPeroid
      - prepareCompensate * rate).toNat : Int)
      = (max (prepareExact 80 rate.toNat) 0 + 1) * 8000 - 10 * rate.toNat :=
    nextPeriod_toNat (by omega) hhigh (by decide) (by decide)
  have hmax : (85 * rate + 6 * 1000).toNat = 85 * rate.toNat + 6000 := by
    have htimes : (85 * rate).toNat = 85 * rate.toNat := times_toNat hhigh (by decide)
    rw [UInt32.toNat_add, htimes]
    exact Nat.mod_eq_of_lt (show 85 * rate.toNat + 6000 < 4294967296 by omega)
  have hcond : (105 < rate ∧ ((prepareTime 80 rate).toUInt32 + 1) * innerPeroid
        - prepareCompensate * rate > 85 * rate + 6 * 1000)
      ↔ 105 < (rate.toNat : Int) ∧ (max (prepareExact 80 rate.toNat) 0 + 1) * 8000
        - 10 * rate.toNat > 85 * (rate.toNat : Int) + 6 * 1000 := by
    have hrate : 105 < rate ↔ 105 < rate.toNat := UInt32.lt_iff_toNat_lt
    rw [hrate, gt_iff_lt, UInt32.lt_iff_toNat_lt, hmax]
    omega
  have herr : (105 < (rate.toNat : Int) ∧ (max (prepareExact 80 rate.toNat) 0 + 1) * 8000
      - 10 * rate.toNat > 85 * (rate.toNat : Int) + 6 * 1000) → 0 < prepareExact 80 rate.toNat := by
    intro h
    omega
  refine ⟨prepare_chosen hcond herr htemp, fun h => ?_⟩
  exact h.2 ((prepareTime_pos htemp).mpr (herr (hcond.mp h.1)))

/-! ### The nine times -/

/-- A number of periods that fits a byte. -/
theorem byteInt_eq {value : UInt32} {n : Int} (h : (value.toNat : Int) = n) (hn : n < 256) :
  byteInt value.toUInt8 = n
  := by
  unfold byteInt
  rw [UInt32.toNat_toUInt8]
  omega

/-- The periods less one. -/
theorem pred_exact (hlow : 1 ≤ rate.toNat) (hhigh : rate.toNat ≤ 8262) (htime : 1 ≤ time.toNat)
  (htime' : time.toNat ≤ 100) :
  byteInt (phyPeriods rate time - 1).toUInt8 = periods rate.toNat time.toNat - 1
  := by
  have hp := phyPeriods_nat hhigh (Nat.le_trans htime' (by decide))
  have hproduct : rate.toNat * time.toNat ≤ 8262 * 100 := Nat.mul_le_mul hhigh htime'
  have hpos : 1 ≤ rate.toNat * time.toNat := Nat.mul_pos hlow htime
  have hint := phyPeriods_toNat hhigh (Nat.le_trans htime' (by decide))
  refine byteInt_eq ?_ (by omega)
  rw [UInt32.toNat_sub_of_le, ← hint]
  · exact Int.ofNat_sub (show 1 ≤ (phyPeriods rate time).toNat by omega)
  · exact UInt32.le_iff_toNat_le.mpr (show 1 ≤ (phyPeriods rate time).toNat by omega)

/-- The periods less the compensation. -/
theorem zero_exact (hhigh : rate.toNat ≤ 8262) (htime : time.toNat ≤ 250) :
  byteInt (if 4 < phyPeriods rate time then (phyPeriods rate time - 4).toUInt8 else 0)
    = zeroExact rate.toNat time.toNat
  := by
  have hp := phyPeriods_nat hhigh htime
  have hproduct : rate.toNat * time.toNat ≤ 8262 * 250 := Nat.mul_le_mul hhigh htime
  have hcond : 4 < phyPeriods rate time ↔ (4 : Int) < periods rate.toNat time.toNat := by
    rw [UInt32.lt_iff_toNat_lt, ← phyPeriods_toNat hhigh htime]
    exact Int.ofNat_lt.symm
  have hint := phyPeriods_toNat hhigh htime
  unfold zeroExact
  split
  · next hlt =>
      rw [if_pos (hcond.mp hlt)]
      refine byteInt_eq ?_ (by omega)
      rw [UInt32.toNat_sub_of_le _ _ (UInt32.le_of_lt hlt), ← hint]
      exact Int.ofNat_sub (UInt32.le_iff_toNat_le.mp (UInt32.le_of_lt hlt))
  · next hnot =>
      rw [if_neg fun hlt => hnot (hcond.mpr hlt)]
      rfl

/-- The nine times are exact for the rates in the range. -/
theorem timingParam_exact (hlow : 81 ≤ rate.toNat) (hhigh : rate.toNat ≤ 8262) :
  (mipiTxDrvGetPhyTimingParam rate).Exact rate.toNat
  := by
  have htrail : ((phyPeriods rate 80).toNat : Int) = periods rate.toNat 80 :=
    phyPeriods_toNat hhigh (by decide)
  have hths : ((phyPeriods rate 110).toNat : Int) = periods rate.toNat 110 :=
    phyPeriods_toNat hhigh (by decide)
  have hsum : ((phyPeriods rate 110 + 1).toNat : Int) = periods rate.toNat 110 + 1 := by
    rw [UInt32.toNat_add, Nat.mod_eq_of_lt, ← hths]
    · rfl
    · show (phyPeriods rate 110).toNat + 1 < 4294967296
      unfold periods at hths
      omega
  constructor
  · exact pred_exact (by omega) hhigh (by decide) (by decide)
  · exact pred_exact (by omega) hhigh (by decide) (by decide)
  · exact (clkPrepare_exact hlow hhigh).1
  · exact zero_exact hhigh (by decide)
  · exact byteInt_eq htrail (by unfold periods; omega)
  · exact pred_exact (by omega) hhigh (by decide) (by decide)
  · exact (dataPrepare_exact hlow hhigh).1
  · exact zero_exact hhigh (by decide)
  · exact byteInt_eq hsum (by unfold periods; omega)

/-! ### The times to switch -/

/-- Two fields of 16 bits that are added do not touch each other. -/
theorem composed {high low : UInt32} {high' low' : Int} (hhigh : (high.toNat : Int) = high')
  (hlow : (low.toNat : Int) = low') (hhigh' : high' < 65536) (hlow' : low' < 65536) :
  Composed ((high <<< 16) + low) high' low'
  := by
  have hshift : (high <<< 16).toNat = high.toNat * 65536 := by
    rw [UInt32.toNat_shiftLeft, Nat.shiftLeft_eq]
    exact Nat.mod_eq_of_lt (show high.toNat * 65536 < 4294967296 by omega)
  have hsum : ((high <<< 16) + low).toNat = high.toNat * 65536 + low.toNat := by
    rw [UInt32.toNat_add, hshift]
    exact Nat.mod_eq_of_lt (show high.toNat * 65536 + low.toNat < 4294967296 by omega)
  refine ⟨?_, ⟨?_, hhigh'⟩, ?_, hlow'⟩ <;> omega

/-- The times to switch are composed of their fields where the trail time is not zero. -/
theorem PhyTimingParam.composes {tp : PhyTimingParam} (h : 1 ≤ tp.dataThsTrail.toNat) :
  tp.Composes
  := by
  have htpre := tp.dataTpreDelay.toNat_lt
  have htlpx := tp.dataTlpx.toNat_lt
  have hprepare := tp.dataThsPrepare.toNat_lt
  have hzero := tp.dataThsZero.toNat_lt
  have htrail := tp.dataThsTrail.toNat_lt
  have hclkTlpx := tp.clkTlpx.toNat_lt
  have hclkPrepare := tp.clkTclkPrepare.toNat_lt
  have hclkZero := tp.clkTclkZero.toNat_lt
  refine ⟨_, _, rfl, ?_, ?_⟩
  · simp only [UInt32.add_assoc]
    refine composed ?_ ?_ ?_ ?_ <;> unfold byteInt
    · rw [UInt32.toNat_sub_of_le _ _ h]
      exact Int.ofNat_sub h
    · simp only [UInt32.toNat_add, UInt8.toNat_toUInt32, UInt32.reduceToNat]
      omega
    · omega
    · omega
  · simp only [UInt32.add_assoc]
    refine composed ?_ ?_ ?_ ?_ <;> unfold byteInt
    · simp only [UInt32.toNat_add, UInt8.toNat_toUInt32, UInt32.reduceToNat]
      omega
    · simp only [UInt32.toNat_add, UInt8.toNat_toUInt32, UInt32.reduceToNat]
      omega
    · omega
    · omega

/-! ### The rates -/

/-- The calculation of the prepare time of the clock fails for low rates. -/
theorem clkPrepareExact_none {rate : Int} (hlow : 0 ≤ rate) (hhigh : rate < 77) :
  clkPrepareExact rate = none
  := by
  have htemp := prepareExact_eq 60 rate
  have hcond : (max (prepareExact 60 rate) 0 + 1) * 8000 - 10 * rate > 94 * rate := by omega
  exact (if_pos hcond).trans (if_neg (by omega))

/-- A time that fits a byte bounds the rate. -/
theorem rate_le_of_zeroExact {value : UInt8} {rate : Int} (h : byteInt value = zeroExact rate 250) :
  rate ≤ 8288
  := by
  have hlt := value.toNat_lt
  unfold byteInt zeroExact periods at h
  omega

variable {cfg : ComboDevCfg}

/-- The rounded rate of a configuration. -/
theorem roundedRate_eq : cfg.roundedRate = (cfg.phyDataRate.toNat + 26) / 27 * 27
  := rfl

/-- A configuration whose times are exact has a rate in the range. -/
theorem ComboDevCfg.Timed.range (h : cfg.Timed) :
  55 ≤ cfg.phyDataRate.toNat ∧ cfg.phyDataRate.toNat ≤ 8262
  := by
  have hmax := rate_le_of_zeroExact h.exact.clkTclkZero
  have hmin : 77 ≤ cfg.roundedRate := by
    by_contra hlt
    have hnone : clkPrepareExact cfg.roundedRate = none :=
      clkPrepareExact_none (by rw [roundedRate_eq]; omega) (Int.not_le.mp hlt)
    exact Option.some_ne_none _ (h.exact.clkTclkPrepare.symm.trans hnone)
  rw [roundedRate_eq] at hmin hmax
  omega

/-- The times of a configuration are exact, without an error, exactly for the rates from 55 to
8262. -/
theorem phyTiming_iff (cfg : ComboDevCfg) :
  cfg.Timed ↔ 55 ≤ cfg.phyDataRate.toNat ∧ cfg.phyDataRate.toNat ≤ 8262
  := by
  refine ⟨ComboDevCfg.Timed.range, fun ⟨hmin, hmax⟩ => ?_⟩
  have hrate := actualRate_toNat cfg
  have hrounded : cfg.roundedRate = ((actualRate cfg).toNat : Int) := by
    rw [roundedRate_eq, hrate]
    omega
  have hlow : 81 ≤ (actualRate cfg).toNat := by omega
  have hhigh : (actualRate cfg).toNat ≤ 8262 := by omega
  have hexact := timingParam_exact hlow hhigh
  refine ⟨hrounded ▸ hexact, (clkPrepare_exact hlow hhigh).2, (dataPrepare_exact hlow hhigh).2,
    PhyTimingParam.composes ?_⟩
  have htrail := hexact.dataThsTrail
  unfold byteInt periods at htrail
  omega

/-- Configurations with the data rates 27 and 8263 are accepted; for one the error is reported and
the prepare time of the clock is 255, for the other the time of the clock at zero is 0 where 256
periods are meant. -/
theorem not_phyTiming :
  (mipiTxCheckCombDevCfg false (videoCfg 27) = Hdf.success
    ∧ ClkPrepareErr (actualRate (videoCfg 27))
    ∧ (mipiTxDrvGetPhyTimingParam (actualRate (videoCfg 27))).clkTclkPrepare = 255
    ∧ ¬(videoCfg 27).Timed)
  ∧ mipiTxCheckCombDevCfg false (videoCfg 8263) = Hdf.success
    ∧ (mipiTxDrvGetPhyTimingParam (actualRate (videoCfg 8263))).clkTclkZero = 0
    ∧ zeroExact (videoCfg 8263).roundedRate 250 = 256 ∧ ¬(videoCfg 8263).Timed
  := by
  refine ⟨⟨videoCfg_accepted 27, by unfold ClkPrepareErr; decide, by decide, fun h => ?_⟩,
    videoCfg_accepted 8263, by decide, by decide, fun h => ?_⟩
  · exact absurd h.range.1 (by decide)
  · exact absurd h.range.2 (by decide)

end Timing

end MipiDsi
