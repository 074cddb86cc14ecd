import KhdfLinux.Lib.Run
import Mathlib.Data.BitVec

/-!
# The PWM of the Hi35xx

`Hi35xxPwmApply` writes the period, the duty cycle and the polarity only where they differ from the
state that the PWM core keeps, which `Hi35xxGetState` read from the registers at first.
`full_iff`: over any states, the registers are those that are written unconditionally exactly as
long as no period or duty cycle is applied that the core holds while the product of its register
with `PWM_CLK_PERIOD` does not fit in 32 bits.
-/

namespace Pwm

/-- `PWM_CLK_PERIOD`. -/
def pwmClkPeriod : BitVec 32 := 333

/-- `PWM_MIN_PERIOD`. -/
def pwmMinPeriod : BitVec 64 := 666

/-- `-EINVAL`. -/
def einval : Int := -22

/-- `struct HiPwmRegs`, as far as it is written. -/
@[ext]
structure HiPwmRegs where
  cfg0 : BitVec 32
  cfg1 : BitVec 32
  ctrl : BitVec 32
  deriving DecidableEq, Repr

/-- `struct pwm_state`. -/
@[ext]
structure PwmState where
  period : BitVec 64
  dutyCycle : BitVec 64
  polarity : BitVec 32
  enabled : Bool
  deriving DecidableEq, Repr

/-! ### The registers -/

namespace HiPwmRegs

variable (reg : HiPwmRegs)

/-- `HiPwmDisable`. -/
def hiPwmDisable : HiPwmRegs := { reg with ctrl := reg.ctrl &&& ~~~1#32 }

/-- `HiPwmAlwaysOutput`. -/
def hiPwmAlwaysOutput : HiPwmRegs := { reg with ctrl := reg.ctrl ||| (1#32 <<< 2 ||| 1#32) }

/-- `HiPwmSetPolarity`. -/
def hiPwmSetPolarity (polarity : BitVec 8) : HiPwmRegs :=
  { reg with ctrl := (reg.ctrl &&& ~~~(1#32 <<< 1)) ||| (polarity.setWidth 32 <<< 1) }

/-- `HiPwmSetPeriod`. -/
def hiPwmSetPeriod (period : BitVec 32) : HiPwmRegs := { reg with cfg0 := period / pwmClkPeriod }

/-- `HiPwmSetDuty`. -/
def hiPwmSetDuty (duty : BitVec 32) : HiPwmRegs := { reg with cfg1 := duty / pwmClkPeriod }

/-- `Hi35xxGetState`: the products are computed in 32 bits. -/
def hi35xxGetState : PwmState where
  period := (reg.cfg0 * pwmClkPeriod).setWidth 64
  dutyCycle := (reg.cfg1 * pwmClkPeriod).setWidth 64
  polarity := (reg.ctrl &&& (1#32 <<< 1)) >>> 1
  enabled := reg.ctrl &&& 1#32 ≠ 0#32

end HiPwmRegs

/-- `Hi35xxPwmApply`, with the state that the core keeps. -/
def hi35xxPwmApply (reg : HiPwmRegs) (pwm state : PwmState) : Int × HiPwmRegs :=
  if state.polarity ≠ 0 ∧ state.polarity ≠ 1 then (einval, reg)
  else if state.period < pwmMinPeriod then (einval, reg)
  else if state.dutyCycle < 1 ∨ state.dutyCycle > state.period then (einval, reg)
  else
    let reg := reg.hiPwmDisable
    let reg :=
      if pwm.polarity ≠ state.polarity then reg.hiPwmSetPolarity (state.polarity.setWidth 8)
      else reg
    let reg :=
      if pwm.period ≠ state.period then reg.hiPwmSetPeriod (state.period.setWidth 32) else reg
    let reg :=
      if pwm.dutyCycle ≠ state.dutyCycle then reg.hiPwmSetDuty (state.dutyCycle.setWidth 32)
      else reg
    let reg := if state.enabled then reg.hiPwmAlwaysOutput else reg
    (0, reg)

/-- The registers where the period, the duty cycle and the polarity are written unconditionally. -/
def HiPwmRegs.full (reg : HiPwmRegs) (state : PwmState) : HiPwmRegs :=
  let reg := (reg.hiPwmDisable.hiPwmSetPolarity (state.polarity.setWidth 8)).hiPwmSetPeriod
    (state.period.setWidth 32)
  let reg := reg.hiPwmSetDuty (state.dutyCycle.setWidth 32)
  if state.enabled then reg.hiPwmAlwaysOutput else reg

/-- The registers agree in the period, the duty cycle, and the polarity and enable bits. -/
structure HiPwmRegs.Agrees (reg reg' : HiPwmRegs) : Prop where
  cfg0 : reg.cfg0 = reg'.cfg0
  cfg1 : reg.cfg1 = reg'.cfg1
  polarity : reg.ctrl.getLsbD 1 = reg'.ctrl.getLsbD 1
  enable : reg.ctrl.getLsbD 0 = reg'.ctrl.getLsbD 0

/-! ### Calls of the core -/

/-- The registers, and the state that the core keeps. -/
structure Chip where
  reg : HiPwmRegs
  state : PwmState

namespace Chip

/-- The core reads the state from the registers. -/
def init (reg : HiPwmRegs) : Chip := ⟨reg, reg.hi35xxGetState⟩

variable (s : Chip)

/-- The core keeps the state that was applied, and its own one after a failure. -/
def next (state : PwmState) : Chip :=
  ⟨(hi35xxPwmApply s.reg s.state state).2,
    if (hi35xxPwmApply s.reg s.state state).1 = 0 then state else s.state⟩

/-- After a state that is accepted the registers are those that are written unconditionally, and
after one that is rejected they are unchanged. -/
def Full (state : PwmState) : Prop :=
  if (hi35xxPwmApply s.reg s.state state).1 = 0 then (s.next state).reg.Agrees (s.reg.full state)
  else (s.next state).reg = s.reg

/-- The product of a register with `PWM_CLK_PERIOD` fits in 32 bits. -/
def Fits (cfg : BitVec 32) : Prop := cfg.toNat * pwmClkPeriod.toNat < 2 ^ 32

/-- The checks of `Hi35xxPwmApply`. -/
def Accepted (state : PwmState) : Prop :=
  (state.polarity = 0 ∨ state.polarity = 1) ∧ pwmMinPeriod ≤ state.period
    ∧ 1 ≤ state.dutyCycle ∧ state.dutyCycle ≤ state.period

/-- The period or the duty cycle of a state that is accepted is another one than the core keeps, or
its register holds what it can. -/
def Written (state : PwmState) : Prop :=
  Accepted state →
    (s.state.period = state.period → Fits s.reg.cfg0)
      ∧ (s.state.dutyCycle = state.dutyCycle → Fits s.reg.cfg1)

/-- The registers hold the state that the core keeps, unless their products do not fit. -/
structure Inv : Prop where
  period : Fits s.reg.cfg0 → s.state.period.setWidth 32 / pwmClkPeriod = s.reg.cfg0
  dutyCycle : Fits s.reg.cfg1 → s.state.dutyCycle.setWidth 32 / pwmClkPeriod = s.reg.cfg1
  polarity : s.state.polarity.getLsbD 0 = s.reg.ctrl.getLsbD 1

end Chip

variable {reg : HiPwmRegs} {pwm state : PwmState}

/-! ### The writes -/

/-- The polarity bit, after it is set. -/
theorem polarity_hiPwmSetPolarity (reg : HiPwmRegs) (polarity : BitVec 32) :
  (reg.hiPwmSetPolarity (polarity.setWidth 8)).ctrl.getLsbD 1 = polarity.getLsbD 0
  := by
  simp [HiPwmRegs.hiPwmSetPolarity]

/-- Setting the polarity leaves the enable bit. -/
theorem enable_hiPwmSetPolarity (reg : HiPwmRegs) (polarity : BitVec 8) :
  (reg.hiPwmSetPolarity polarity).ctrl.getLsbD 0 = reg.ctrl.getLsbD 0
  := by
  simp [HiPwmRegs.hiPwmSetPolarity]

/-- The two bits, after the output is enabled where it is. -/
theorem enabled_bits (reg : HiPwmRegs) (enabled : Bool) (h : reg.ctrl.getLsbD 0 = false) :
  (if enabled then reg.hiPwmAlwaysOutput else reg).ctrl.getLsbD 1 = reg.ctrl.getLsbD 1
    ∧ (if enabled then reg.hiPwmAlwaysOutput else reg).ctrl.getLsbD 0 = enabled
  := by
  cases enabled with
  | true => simp [HiPwmRegs.hiPwmAlwaysOutput]
  | false => exact ⟨rfl, h⟩

/-- The two bits after the output is disabled and the polarity is set where it changes. -/
theorem bits_of_set {set : HiPwmRegs}
    (h : (if pwm.polarity ≠ state.polarity then
      reg.hiPwmDisable.hiPwmSetPolarity (state.polarity.setWidth 8) else reg.hiPwmDisable) = set) :
  set.ctrl.getLsbD 1
      = (if pwm.polarity ≠ state.polarity then state.polarity.getLsbD 0 else reg.ctrl.getLsbD 1)
    ∧ set.ctrl.getLsbD 0 = false
  := by
  have hdisabled : reg.hiPwmDisable.ctrl.getLsbD 1 = reg.ctrl.getLsbD 1
      ∧ reg.hiPwmDisable.ctrl.getLsbD 0 = false := by
    simp [HiPwmRegs.hiPwmDisable]
  rw [← h]
  split
  · rw [polarity_hiPwmSetPolarity, enable_hiPwmSetPolarity]
    exact ⟨rfl, hdisabled.2⟩
  · apply hdisabled

/-- A state that does not pass the checks changes nothing. -/
theorem hi35xxPwmApply_of_not (reg : HiPwmRegs) (pwm : PwmState) (h : ¬Chip.Accepted state) :
  hi35xxPwmApply reg pwm state = (einval, reg)
  := by
  unfold hi35xxPwmApply
  split
  · rfl
  split
  · rfl
  split
  · rfl
  next hpolarity hperiod hduty =>
    rw [not_or] at hduty
    refine absurd ⟨?_, BitVec.not_lt.mp hperiod, BitVec.not_lt.mp hduty.1, ?_⟩ h
    · rw [not_and_or, not_not, not_not] at hpolarity
      apply hpolarity
    · exact BitVec.not_lt.mp hduty.2

/-- A state that passes the checks is applied. -/
theorem hi35xxPwmApply_of_accepted (reg : HiPwmRegs) (pwm : PwmState) (h : Chip.Accepted state) :
  ∃ reg', hi35xxPwmApply reg pwm state = (0, reg')
    ∧ reg'.cfg0
      = (if pwm.period ≠ state.period then state.period.setWidth 32 / pwmClkPeriod else reg.cfg0)
    ∧ reg'.cfg1
      = (if pwm.dutyCycle ≠ state.dutyCycle then state.dutyCycle.setWidth 32 / pwmClkPeriod
        else reg.cfg1)
    ∧ reg'.ctrl.getLsbD 1
      = (if pwm.polarity ≠ state.polarity then state.polarity.getLsbD 0 else reg.ctrl.getLsbD 1)
    ∧ reg'.ctrl.getLsbD 0 = state.enabled
  := by
  obtain ⟨hpolarity, hperiod, hlow, hhigh⟩ := h
  unfold hi35xxPwmApply
  rw [if_neg, if_neg (BitVec.not_lt.mpr hperiod), if_neg]
  · dsimp only
    generalize hset : (if pwm.polarity ≠ state.polarity then
      reg.hiPwmDisable.hiPwmSetPolarity (state.polarity.setWidth 8) else reg.hiPwmDisable) = set
    obtain ⟨hbit, henable⟩ := bits_of_set hset
    -- the period and the duty cycle are in registers of their own
    have hctrl (period duty : BitVec 32) :
        (if pwm.dutyCycle ≠ state.dutyCycle then
          (if pwm.period ≠ state.period then set.hiPwmSetPeriod period else set).hiPwmSetDuty duty
        else if pwm.period ≠ state.period then set.hiPwmSetPeriod period else set).ctrl
          = set.ctrl := by
      split_ifs <;> rfl
    have hcfg : set.cfg0 = reg.cfg0 ∧ set.cfg1 = reg.cfg1 := by
      rw [← hset]
      split_ifs <;> exact ⟨rfl, rfl⟩
    refine ⟨_, rfl, ?_, ?_, ?_, ?_⟩
    · rw [← hcfg.1]
      split_ifs <;> rfl
    · rw [← hcfg.2]
      split_ifs <;> rfl
    · rw [(enabled_bits _ _ (by rw [hctrl, henable])).1, hctrl, hbit]
    · apply (enabled_bits _ _ (by rw [hctrl, henable])).2
  · rw [not_or]
    exact ⟨BitVec.not_lt.mpr hlow, BitVec.not_lt.mpr hhigh⟩
  · rw [not_and_or, not_not, not_not]
    apply hpolarity

/-- The registers where all is written. -/
theorem full_eq (reg : HiPwmRegs) (state : PwmState) :
  (reg.full state).cfg0 = state.period.setWidth 32 / pwmClkPeriod
    ∧ (reg.full state).cfg1 = state.dutyCycle.setWidth 32 / pwmClkPeriod
    ∧ (reg.full state).ctrl.getLsbD 1 = state.polarity.getLsbD 0
    ∧ (reg.full state).ctrl.getLsbD 0 = state.enabled
  := by
  have hdisabled : (reg.hiPwmDisable.hiPwmSetPolarity (state.polarity.setWidth 8)).ctrl.getLsbD 0
      = false := by
    rw [enable_hiPwmSetPolarity]
    simp [HiPwmRegs.hiPwmDisable]
  have hbits := enabled_bits
    (((reg.hiPwmDisable.hiPwmSetPolarity (state.polarity.setWidth 8)).hiPwmSetPeriod
      (state.period.setWidth 32)).hiPwmSetDuty (state.dutyCycle.setWidth 32)) state.enabled
    hdisabled
  unfold HiPwmRegs.full
  dsimp only
  rw [hbits.1, hbits.2]
  refine ⟨?_, ?_, polarity_hiPwmSetPolarity _ _, rfl⟩
  · split <;> rfl
  · split <;> rfl

/-! ### Products that fit -/

/-- The quotient of a period by `PWM_CLK_PERIOD` fits. -/
theorem fits_div (period : BitVec 32) :
  Chip.Fits (period / pwmClkPeriod)
  := by
  unfold Chip.Fits
  rw [BitVec.toNat_udiv]
  exact Nat.lt_of_le_of_lt (Nat.div_mul_le_self _ _) period.isLt

/-- The period that is read back from a register whose product fits. -/
theorem div_mul_of_fits {cfg : BitVec 32} (h : Chip.Fits cfg) :
  ((cfg * pwmClkPeriod).setWidth 64).setWidth 32 / pwmClkPeriod = cfg
  := by
  apply BitVec.eq_of_toNat_eq
  rw [BitVec.toNat_udiv, BitVec.setWidth_setWidth_of_le _ (by decide), BitVec.setWidth_eq,
    BitVec.toNat_mul, Nat.mod_eq_of_lt h]
  apply Nat.mul_div_cancel _ (by decide)

/-- The core starts with the state that is in the registers, if the products fit. -/
theorem Chip.inv_init (reg : HiPwmRegs) :
  (Chip.init reg).Inv
  where
  period h := div_mul_of_fits h
  dutyCycle h := div_mul_of_fits h
  polarity := by
    show ((reg.ctrl &&& (1#32 <<< 1)) >>> 1).getLsbD 0 = reg.ctrl.getLsbD 1
    simp

/-! ### Runs -/

variable {s : Chip}

/-- A register that is written only where the core keeps another value is the one that is written
unconditionally, exactly if its product fits where the core keeps the same value. -/
theorem skipped_iff {value value' : BitVec 64} {cfg : BitVec 32}
    (h : Chip.Fits cfg → value.setWidth 32 / pwmClkPeriod = cfg) :
  (if value ≠ value' then value'.setWidth 32 / pwmClkPeriod else cfg)
      = value'.setWidth 32 / pwmClkPeriod
    ↔ (value = value' → Chip.Fits cfg)
  := by
  by_cases heq : value = value'
  · subst heq
    rw [if_neg (not_not.mpr rfl)]
    constructor
    · intro hcfg _
      rw [hcfg]
      apply fits_div
    · exact fun hfits => (h (hfits rfl)).symm
  · rw [if_pos heq]
    exact ⟨fun _ h => absurd h heq, fun _ => rfl⟩

/-- The registers are those that are written unconditionally, exactly if no period or duty cycle is
skipped whose register holds more than fits. -/
theorem Chip.Inv.full_call_iff (h : s.Inv) :
  s.Full state ↔ s.Written state
  := by
  unfold Chip.Full Chip.Written
  by_cases haccepted : Chip.Accepted state
  · obtain ⟨reg', happly, hcfg0, hcfg1, hpolarity, henable⟩ :=
      hi35xxPwmApply_of_accepted s.reg s.state haccepted
    obtain ⟨hfull0, hfull1, hfullpol, hfullen⟩ := full_eq s.reg state
    have hnext : (s.next state).reg = reg' := by
      unfold Chip.next
      rw [happly]
    rw [happly, if_pos rfl, hnext]
    have hbit : reg'.ctrl.getLsbD 1 = state.polarity.getLsbD 0 := by
      rw [hpolarity]
      split
      · rfl
      · next heq => rw [← not_not.mp heq, h.polarity]
    constructor
    · intro hagrees _
      rw [← skipped_iff h.period, ← skipped_iff h.dutyCycle, ← hcfg0, ← hcfg1, ← hfull0, ← hfull1]
      exact ⟨hagrees.cfg0, hagrees.cfg1⟩
    · intro hwritten
      obtain ⟨hperiod, hduty⟩ := hwritten haccepted
      rw [← skipped_iff h.period, ← hcfg0, ← hfull0] at hperiod
      rw [← skipped_iff h.dutyCycle, ← hcfg1, ← hfull1] at hduty
      exact ⟨hperiod, hduty, hbit.trans hfullpol.symm, henable.trans hfullen.symm⟩
  · have happly := hi35xxPwmApply_of_not s.reg s.state haccepted
    have hnext : (s.next state).reg = s.reg := by
      unfold Chip.next
      rw [happly]
    rw [happly, if_neg (show ¬einval = 0 by decide), hnext]
    exact ⟨fun _ h => absurd h haccepted, fun _ => rfl⟩

/-- The registers hold the state that the core keeps after any state, as far as the products
fit. -/
theorem Chip.Inv.next (h : s.Inv) :
  (s.next state).Inv
  := by
  by_cases haccepted : Chip.Accepted state
  · obtain ⟨reg', happly, hcfg0, hcfg1, hpolarity, -⟩ :=
      hi35xxPwmApply_of_accepted s.reg s.state haccepted
    have hnext : s.next state = ⟨reg', state⟩ := by
      unfold Chip.next
      rw [happly]
      rfl
    rw [hnext]
    constructor
    · intro hfits
      show state.period.setWidth 32 / pwmClkPeriod = reg'.cfg0
      change Chip.Fits reg'.cfg0 at hfits
      rw [hcfg0] at hfits ⊢
      split at hfits
      · next hne => rw [if_pos hne]
      · next heq => rw [if_neg heq, ← h.period hfits, not_not.mp heq]
    · intro hfits
      show state.dutyCycle.setWidth 32 / pwmClkPeriod = reg'.cfg1
      change Chip.Fits reg'.cfg1 at hfits
      rw [hcfg1] at hfits ⊢
      split at hfits
      · next hne => rw [if_pos hne]
      · next heq => rw [if_neg heq, ← h.dutyCycle hfits, not_not.mp heq]
    · show state.polarity.getLsbD 0 = reg'.ctrl.getLsbD 1
      rw [hpolarity]
      split
      · rfl
      · next heq => rw [← not_not.mp heq, h.polarity]
  · have happly := hi35xxPwmApply_of_not s.reg s.state haccepted
    have hnext : s.next state = s := by
      unfold Chip.next
      rw [happly]
      rfl
    rw [hnext]
    apply h

/-- For all registers at first and all states, the incremental update is the full one exactly as
long as no period or duty cycle that is accepted is the one that the core keeps, while the product
of its register does not fit in 32 bits. -/
theorem full_iff (reg : HiPwmRegs) (states : List PwmState) :
  Along Chip.next Chip.Full (.init reg) states ↔ Along Chip.next Chip.Written (.init reg) states
  := by
  have hiff : ∀ (s : Chip) state, s.Inv → (s.Full state ↔ s.Written state) :=
    fun s state h => h.full_call_iff
  have hkeep : ∀ (s : Chip) state, s.Inv → s.Written state → (s.next state).Inv :=
    fun s state h _ => h.next
  apply along_iff hiff hkeep (Chip.inv_init reg)

/-- The register holds 12897872, whose product with 333 is 24080 in 32 bits: this period is applied
without being written. -/
theorem not_full :
  ∃ (reg : HiPwmRegs) (state : PwmState),
    ¬Along Chip.next Chip.Full (.init reg) [state]
      ∧ reg.hi35xxGetState.period = state.period
      ∧ ((Chip.init reg).next state).reg.cfg0 = 12897872
      ∧ (reg.full state).cfg0 = 72
  := by
  refine ⟨⟨12897872, 1, 0⟩, ⟨24080, 666, 0, true⟩, ?_, by decide, by decide, by decide⟩
  rintro ⟨hfull, -⟩
  have hcfg0 : ((Chip.init ⟨12897872, 1, 0⟩).next ⟨24080, 666, 0, true⟩).reg.cfg0
      = (HiPwmRegs.full ⟨12897872, 1, 0⟩ ⟨24080, 666, 0, true⟩).cfg0 := hfull.cfg0
  exact absurd hcfg0 (by decide)

end Pwm
