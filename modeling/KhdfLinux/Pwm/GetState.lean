import KhdfLinux.Pwm.Hi35xx

/-!
# What is read back from the PWM of the Hi35xx

`Hi35xxPwmApply` checks a period and a duty cycle of 64 bits, while the registers are written from
32 bits and hold multiples of `PWM_CLK_PERIOD`.  `getState_iff` tells which states
`Hi35xxGetState` gives back up to the clock period.
-/

namespace Pwm

/-- The states agree in the polarity and the enable flag, and the period and the duty cycle are
rounded down by less than `PWM_CLK_PERIOD`, the duty cycle to one clock period at least. -/
structure PwmState.ReadsBack (state got : PwmState) : Prop where
  period_gt : state.period.toNat < got.period.toNat + pwmClkPeriod.toNat
  period_le : got.period.toNat ≤ state.period.toNat
  duty_gt : state.dutyCycle.toNat < got.dutyCycle.toNat + pwmClkPeriod.toNat
  duty_le : got.dutyCycle.toNat ≤ state.dutyCycle.toNat
  clock_le : pwmClkPeriod.toNat ≤ got.dutyCycle.toNat
  ordered : got.dutyCycle.toNat ≤ got.period.toNat
  polarity : got.polarity = state.polarity
  enabled : got.enabled = state.enabled

/-- The registers hold the state: nothing is taken modulo 2^32, the duty count is not zero, and the
state is read back. -/
structure HiPwmRegs.Holds (reg : HiPwmRegs) (state : PwmState) : Prop where
  cfg0 : reg.cfg0.toNat = state.period.toNat / pwmClkPeriod.toNat
  cfg1 : reg.cfg1.toNat = state.dutyCycle.toNat / pwmClkPeriod.toNat
  duty_pos : 0 < reg.cfg1.toNat
  back : state.ReadsBack reg.hi35xxGetState

variable {reg : HiPwmRegs} {pwm state : PwmState}

/-! ### Values -/

/-- The count that is written for a value of 64 bits. -/
theorem count_toNat (value : BitVec 64) :
  (value.setWidth 32 / pwmClkPeriod).toNat = value.toNat % 4294967296 / 333
  := by
  rw [BitVec.toNat_udiv, BitVec.toNat_setWidth]
  rfl

/-- What is read back for a count that was written. -/
theorem back_toNat (value : BitVec 64) :
  ((value.setWidth 32 / pwmClkPeriod * pwmClkPeriod).setWidth 64).toNat
    = value.toNat % 4294967296 / 333 * 333
  := by
  have hfits : (value.setWidth 32 / pwmClkPeriod).toNat * pwmClkPeriod.toNat < 2 ^ 32 :=
    fits_div _
  rw [BitVec.toNat_setWidth, BitVec.toNat_mul, Nat.mod_eq_of_lt hfits, count_toNat]
  apply Nat.mod_eq_of_lt
  show value.toNat % 4294967296 / 333 * 333 < 18446744073709551616
  omega

/-- A polarity that is accepted is its lowest bit. -/
theorem polarity_of_bit (hpolarity : state.polarity = 0 ∨ state.polarity = 1)
    (hbit : reg.ctrl.getLsbD 1 = state.polarity.getLsbD 0) :
  reg.hi35xxGetState.polarity = state.polarity
  := by
  show (reg.ctrl &&& BitVec.twoPow 32 1) >>> 1 = state.polarity
  rw [BitVec.and_twoPow, hbit]
  obtain heq | heq := hpolarity
  · rw [heq]
    rfl
  · rw [heq]
    rfl

/-- The enable flag is read from the lowest bit. -/
theorem enabled_of_bit (hbit : reg.ctrl.getLsbD 0 = state.enabled) :
  reg.hi35xxGetState.enabled = state.enabled
  := by
  show decide (reg.ctrl &&& BitVec.twoPow 32 0 ≠ 0#32) = state.enabled
  rw [BitVec.and_twoPow, hbit]
  cases state.enabled with
  | false => rfl
  | true => rfl

/-! ### States -/

/-- The code of a call tells whether the state passes the checks. -/
theorem accepted_of_apply (h : (hi35xxPwmApply reg pwm state).1 = 0) :
  Chip.Accepted state
  := by
  by_contra hnot
  rw [hi35xxPwmApply_of_not reg pwm hnot] at h
  cases h

/-- A core that keeps another period, duty cycle and polarity has all registers written. -/
theorem apply_full (h : Chip.Accepted state) (hperiod : pwm.period ≠ state.period)
    (hduty : pwm.dutyCycle ≠ state.dutyCycle) (hpolarity : pwm.polarity ≠ state.polarity) :
  (hi35xxPwmApply reg pwm state).2.Agrees (reg.full state)
  := by
  obtain ⟨reg', happly, hcfg0, hcfg1, hbit, henable⟩ := hi35xxPwmApply_of_accepted reg pwm h
  obtain ⟨hfull0, hfull1, hfullpol, hfullen⟩ := full_eq reg state
  rw [happly]
  rw [if_pos hperiod] at hcfg0
  rw [if_pos hduty] at hcfg1
  rw [if_pos hpolarity] at hbit
  exact ⟨hcfg0.trans hfull0.symm, hcfg1.trans hfull1.symm, hbit.trans hfullpol.symm,
    henable.trans hfullen.symm⟩

/-- Of the states that are accepted and written in full, those are held whose period is below 2^32
and whose duty cycle is one clock period at least. -/
theorem getState_iff (happly : (hi35xxPwmApply reg pwm state).1 = 0)
    (hfull : (hi35xxPwmApply reg pwm state).2.Agrees (reg.full state)) :
  (hi35xxPwmApply reg pwm state).2.Holds state
    ↔ state.period.toNat < 4294967296 ∧ 333 ≤ state.dutyCycle.toNat
  := by
  obtain ⟨hpolarity, -, -, hle⟩ := accepted_of_apply happly
  have hle' : state.dutyCycle.toNat ≤ state.period.toNat := hle
  obtain ⟨hfull0, hfull1, hfullpol, hfullen⟩ := full_eq reg state
  revert hfull
  generalize (hi35xxPwmApply reg pwm state).2 = reg'
  intro hfull
  have hcfg0 : reg'.cfg0 = state.period.setWidth 32 / pwmClkPeriod := hfull.cfg0.trans hfull0
  have hcfg1 : reg'.cfg1 = state.dutyCycle.setWidth 32 / pwmClkPeriod := hfull.cfg1.trans hfull1
  have hperiod : reg'.hi35xxGetState.period.toNat
      = state.period.toNat % 4294967296 / 333 * 333 := by
    rw [← back_toNat, ← hcfg0]
    rfl
  have hduty : reg'.hi35xxGetState.dutyCycle.toNat
      = state.dutyCycle.toNat % 4294967296 / 333 * 333 := by
    rw [← back_toNat, ← hcfg1]
    rfl
  have hclock : pwmClkPeriod.toNat = 333 := rfl
  constructor
  · rintro ⟨-, -, -, hback⟩
    have hgt := hback.period_gt
    have hge := hback.clock_le
    have hlow := hback.duty_le
    rw [hperiod, hclock] at hgt
    rw [hclock] at hge
    -- a period of 2^32 or more would lose that much
    exact ⟨by omega, Nat.le_trans hge hlow⟩
  · rintro ⟨hlt, hmin⟩
    have hmod : state.period.toNat % 4294967296 = state.period.toNat := Nat.mod_eq_of_lt hlt
    have hmod' : state.dutyCycle.toNat % 4294967296 = state.dutyCycle.toNat :=
      Nat.mod_eq_of_lt (Nat.lt_of_le_of_lt hle' hlt)
    rw [hmod] at hperiod
    rw [hmod'] at hduty
    have hcount : reg'.cfg1.toNat = state.dutyCycle.toNat / 333 := by
      rw [hcfg1, count_toNat, hmod']
    constructor
    · rw [hcfg0, count_toNat, hmod, hclock]
    · exact hcount
    · omega
    · constructor
      · omega
      · omega
      · omega
      · omega
      · omega
      · omega
      · exact polarity_of_bit hpolarity (hfull.polarity.trans hfullpol)
      · exact enabled_of_bit (hfull.enable.trans hfullen)

/-- The registers and the state of a PWM with the default period. -/
def defaultPwm : Chip := ⟨⟨3, 1, 0⟩, ⟨999, 333, 0, false⟩⟩

/-- A period of one millisecond, inverted and enabled. -/
def millisecond : PwmState := ⟨1000000, 500000, 1, true⟩

/-- The period and the duty cycle are read back as 999999 ns and 499833 ns. -/
theorem getState_iff_millisecond :
  (defaultPwm.next millisecond).reg.Holds millisecond
  := by
  have haccepted : Chip.Accepted millisecond := ⟨by decide, by decide, by decide, by decide⟩
  have hfull : (defaultPwm.next millisecond).reg.Agrees (defaultPwm.reg.full millisecond) := by
    apply apply_full haccepted (by decide) (by decide) (by decide)
  exact (getState_iff (by decide) hfull).mpr ⟨by decide, by decide⟩

/-- The period is 2^32 + 1000 ns. -/
def longPeriod : PwmState := ⟨4294968296, 500000, 1, true⟩

/-- The duty cycle is 1 ns. -/
def shortDuty : PwmState := ⟨1000000, 1, 1, true⟩

/-- A period of 2^32 + 1000 ns is accepted and read back as 999 ns, and a duty cycle of 1 ns is
accepted and programs a count of zero. -/
theorem not_getState :
  (Chip.Accepted longPeriod
    ∧ (defaultPwm.next longPeriod).reg.Agrees (defaultPwm.reg.full longPeriod)
    ∧ (defaultPwm.next longPeriod).reg.hi35xxGetState.period = 999
    ∧ ¬(defaultPwm.next longPeriod).reg.Holds longPeriod)
  ∧ Chip.Accepted shortDuty
    ∧ (defaultPwm.next shortDuty).reg.Agrees (defaultPwm.reg.full shortDuty)
    ∧ (defaultPwm.next shortDuty).reg.cfg1 = 0
    ∧ ¬(defaultPwm.next shortDuty).reg.Holds shortDuty
  := by
  have hlong : Chip.Accepted longPeriod := ⟨by decide, by decide, by decide, by decide⟩
  have hshort : Chip.Accepted shortDuty := ⟨by decide, by decide, by decide, by decide⟩
  refine ⟨⟨hlong, ?_, by decide, fun h => ?_⟩, hshort, ?_, by decide, fun h => ?_⟩
  · apply apply_full hlong (by decide) (by decide) (by decide)
  · exact absurd h.back.period_gt (by decide)
  · apply apply_full hshort (by decide) (by decide) (by decide)
  · exact absurd h.duty_pos (by decide)

end Pwm
