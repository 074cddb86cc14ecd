import KhdfLinux.Hdf.Base
import KhdfLinux.Pwm.GetState

/-!
# The PWM adapter

The adapter opens, configures and closes the lines of the PWM chips through the core of the kernel,
which keeps a state for each of them.  `configs_in_force_iff`: over any calls a configuration that
is set, and one that an open reports, is the one the registers hold, exactly as long as no register
is left as it was first that holds more than 32 bits of nanoseconds.
-/

namespace Pwm

/-! ### The adapter -/

/-- `PWM_ENABLE_STATUS`. -/
def pwmEnableStatus : BitVec 8 := 1

/-- `PWM_DISABLE_STATUS`. -/
def pwmDisableStatus : BitVec 8 := 0

/-- `struct PwmConfig`. -/
structure PwmConfig where
  duty : BitVec 32
  period : BitVec 32
  number : BitVec 32
  polarity : BitVec 8
  status : BitVec 8
  deriving DecidableEq, Repr

/-- `struct PwmDev`, where `priv` is the number of the `pwm_device`. -/
structure PwmDev where
  num : BitVec 32
  cfg : PwmConfig
  priv : Option (BitVec 32)
  deriving DecidableEq, Repr

/-- `HdfPwmInit`. -/
def hdfPwmInit (num : BitVec 32) : PwmDev := ⟨num, ⟨0, 0, 0, 0, 0⟩, none⟩

/-- The state that `HdfPwmSetConfig` applies. -/
def PwmConfig.state (config : PwmConfig) : PwmState where
  period := config.period.setWidth 64
  dutyCycle := config.duty.setWidth 64
  polarity := config.polarity.setWidth 32
  enabled := config.status = pwmEnableStatus

/-- What `HdfPwmOpen` stores of the state. -/
def PwmConfig.load (config : PwmConfig) (state : PwmState) : PwmConfig :=
  { config with
    period := state.period.setWidth 32
    duty := state.dutyCycle.setWidth 32
    polarity := state.polarity.setWidth 8
    status := if state.enabled then pwmEnableStatus else pwmDisableStatus }

/-- A `pwm_device` of the kernel: whether there is one of this number, and whether it is
requested. -/
structure Line where
  chip : Chip
  present : Bool
  requested : Bool

/-- `pwm_request`, for a line of a chip whose module is there; the core may read the state. -/
def Line.pwmRequest (line : Line) (granted reread : Bool) : Option Line :=
  if line.present ∧ ¬line.requested ∧ granted then
    some { line with
      chip := if reread then .init line.chip.reg else line.chip
      requested := true }
  else none

/-- `pwm_apply_state`, which may return at once for the state that is kept. -/
def Chip.pwmApplyState (chip : Chip) (state : PwmState) (shortcut : Bool) : Int × Chip :=
  if state.period = 0 ∨ state.dutyCycle > state.period then (einval, chip)
  else if shortcut ∧ state = chip.state then (0, chip)
  else ((hi35xxPwmApply chip.reg chip.state state).1, chip.next state)

/-- The lines of the kernel, and the devices of the adapter. -/
structure Pwms where
  lines : BitVec 32 → Line
  devs : List PwmDev

/-- The calls on the device at an index, where one that is not there is `NULL`. -/
inductive PwmAct where
  | openDev (i : Nat) (granted reread : Bool)
  | setConfig (i : Nat) (config : Option PwmConfig) (shortcut : Bool)
  | close (i : Nat)
  deriving DecidableEq, Repr

namespace Pwms

/-- The lines with the registers they have at first, and the devices for the numbers. -/
def init (regs : BitVec 32 → Option HiPwmRegs) (nums : List (BitVec 32)) : Pwms where
  lines num := ⟨.init ((regs num).getD ⟨0, 0, 0⟩), (regs num).isSome, false⟩
  devs := nums.map hdfPwmInit

variable (s : Pwms)

/-- A line is stored. -/
def put (num : BitVec 32) (line : Line) : Pwms :=
  { s with lines := fun n => if n = num then line else s.lines n }

/-- `HdfPwmOpen`. -/
def hdfPwmOpen (i : Nat) (granted reread : Bool) : Int × Pwms :=
  match s.devs[i]? with
  | none => (Hdf.errInvalidParam, s)
  | some pwm =>
      match (s.lines pwm.num).pwmRequest granted reread with
      | none => (Hdf.failure, s)
      | some device =>
          (Hdf.success, { s.put pwm.num device with
            devs := s.devs.set i { pwm with
              cfg := pwm.cfg.load device.chip.state
              priv := some pwm.num } })

/-- `HdfPwmSetConfig`. -/
def hdfPwmSetConfig (i : Nat) (config : Option PwmConfig) (shortcut : Bool) : Int × Pwms :=
  match s.devs[i]?.bind PwmDev.priv, config with
  | some num, some config =>
      let result := (s.lines num).chip.pwmApplyState config.state shortcut
      (if result.1 < 0 then Hdf.failure else Hdf.success,
        s.put num { s.lines num with chip := result.2 })
  | _, _ => (Hdf.errInvalidParam, s)

/-- `HdfPwmClose`, with `pwm_free`. -/
def hdfPwmClose (i : Nat) : Int × Pwms :=
  match s.devs[i]? with
  | none => (Hdf.errInvalidParam, s)
  | some pwm =>
      match pwm.priv with
      | none => (Hdf.success, s)
      | some num => (Hdf.success, s.put num { s.lines num with requested := false })

/-- A call with what it returns. -/
def call : PwmAct → Int × Pwms
  | .openDev i granted reread => s.hdfPwmOpen i granted reread
  | .setConfig i config shortcut => s.hdfPwmSetConfig i config shortcut
  | .close i => s.hdfPwmClose i

/-- The state after a call. -/
def next (a : PwmAct) : Pwms := (s.call a).2

end Pwms

/-! ### What is in force -/

/-- The registers hold the configuration, in periods of the clock. -/
structure PwmConfig.Denotes (config : PwmConfig) (reg : HiPwmRegs) : Prop where
  period : config.period / pwmClkPeriod = reg.cfg0
  duty : config.duty / pwmClkPeriod = reg.cfg1
  polarity : config.polarity = (BitVec.ofBool (reg.ctrl.getLsbD 1)).setWidth 8
  status : config.status = pwmEnableStatus ↔ reg.ctrl.getLsbD 0

namespace Pwms

variable (s : Pwms)

/-- No register is changed. -/
def SameRegs (t : Pwms) : Prop := ∀ num, (t.lines num).chip.reg = (s.lines num).chip.reg

/-- An open that succeeds reports what the registers hold.  A configuration that is set is then held
by the registers of its line, and no other line is changed; one that is not set changes nothing. -/
def InForce : PwmAct → Prop
  | .openDev i granted reread => s.SameRegs (s.next (.openDev i granted reread))
      ∧ ((s.hdfPwmOpen i granted reread).1 = Hdf.success →
        ∃ pwm, (s.next (.openDev i granted reread)).devs[i]? = some pwm ∧ pwm.priv = some pwm.num
          ∧ pwm.cfg.Denotes (s.lines pwm.num).chip.reg)
  | .setConfig i config shortcut =>
      if (s.hdfPwmSetConfig i config shortcut).1 = Hdf.success then
        ∃ num c, s.devs[i]?.bind PwmDev.priv = some num ∧ config = some c
          ∧ c.Denotes ((s.next (.setConfig i config shortcut)).lines num).chip.reg
          ∧ ∀ n ≠ num, (s.next (.setConfig i config shortcut)).lines n = s.lines n
      else s.SameRegs (s.next (.setConfig i config shortcut))
  | .close i => s.SameRegs (s.next (.close i))

/-- The registers are read only where they fit, and none that does not fit is left as it is. -/
def Fitting : PwmAct → Prop
  | .openDev i granted reread => (s.hdfPwmOpen i granted reread).1 = Hdf.success →
      ∀ pwm, s.devs[i]? = some pwm → Chip.Fits (s.lines pwm.num).chip.reg.cfg0
        ∧ Chip.Fits (s.lines pwm.num).chip.reg.cfg1
  | .setConfig i config shortcut => (s.hdfPwmSetConfig i config shortcut).1 = Hdf.success →
      ∀ num c, s.devs[i]?.bind PwmDev.priv = some num → config = some c →
        ((s.lines num).chip.state.period = c.state.period → Chip.Fits (s.lines num).chip.reg.cfg0)
          ∧ ((s.lines num).chip.state.dutyCycle = c.state.dutyCycle →
            Chip.Fits (s.lines num).chip.reg.cfg1)
  | .close _ => True

end Pwms

/-! ### The state that is kept -/

variable {config : PwmConfig} {reg : HiPwmRegs} {chip : Chip}

@[simp]
theorem PwmConfig.state_period (config : PwmConfig) :
  config.state.period.setWidth 32 = config.period
  := by
  simp [PwmConfig.state]

@[simp]
theorem PwmConfig.state_dutyCycle (config : PwmConfig) :
  config.state.dutyCycle.setWidth 32 = config.duty
  := by
  simp [PwmConfig.state]

/-- The state that is kept, and the registers, if what they hold fits. -/
structure Chip.Kept (chip : Chip) : Prop where
  inv : chip.Inv
  polarity : chip.state.polarity = 0 ∨ chip.state.polarity = 1
  enabled : chip.state.enabled = chip.reg.ctrl.getLsbD 0

theorem Chip.kept_init (reg : HiPwmRegs) :
  (Chip.init reg).Kept
  where
  inv := Chip.inv_init reg
  polarity := by
    have hpolarity (polarity : BitVec 32) (h : polarity = 0 ∨ polarity = 1)
        (hbit : reg.ctrl.getLsbD 1 = polarity.getLsbD 0) :
        reg.hi35xxGetState.polarity = polarity := by
      let state : PwmState := ⟨0, 0, polarity, false⟩
      have heq : reg.hi35xxGetState.polarity = state.polarity := polarity_of_bit h hbit
      exact heq
    cases hbit : reg.ctrl.getLsbD 1 with
    | true => exact .inr (hpolarity 1 (.inr rfl) hbit)
    | false => exact .inl (hpolarity 0 (.inl rfl) hbit)
  enabled := by
    let state : PwmState := ⟨0, 0, 0, reg.ctrl.getLsbD 0⟩
    have heq : reg.hi35xxGetState.enabled = state.enabled := enabled_of_bit rfl
    exact heq

theorem Chip.Kept.next (h : chip.Kept) (state : PwmState) :
  (chip.next state).Kept
  := by
  refine ⟨h.inv.next, ?_, ?_⟩
  · by_cases haccepted : Chip.Accepted state
    · obtain ⟨reg', happly, -⟩ := hi35xxPwmApply_of_accepted chip.reg chip.state haccepted
      unfold Chip.next
      rw [happly]
      exact haccepted.1
    · unfold Chip.next
      rw [hi35xxPwmApply_of_not chip.reg chip.state haccepted]
      exact h.polarity
  · by_cases haccepted : Chip.Accepted state
    · obtain ⟨reg', happly, -, -, -, henable⟩ :=
        hi35xxPwmApply_of_accepted chip.reg chip.state haccepted
      unfold Chip.next
      rw [happly]
      exact henable.symm
    · unfold Chip.next
      rw [hi35xxPwmApply_of_not chip.reg chip.state haccepted]
      exact h.enabled

/-- A value that is kept is the one in its register exactly if the register fits. -/
theorem kept_iff {value : BitVec 64} {cfg : BitVec 32}
    (h : Chip.Fits cfg → value.setWidth 32 / pwmClkPeriod = cfg) :
  value.setWidth 32 / pwmClkPeriod = cfg ↔ Chip.Fits cfg
  := by
  constructor
  · intro heq
    rw [← heq]
    apply fits_div
  · exact h

/-- A configuration whose polarity and status are in the registers. -/
theorem PwmConfig.denotes_iff
    (hpolarity : config.state.polarity = 0 ∨ config.state.polarity = 1)
    (hbit : reg.ctrl.getLsbD 1 = config.state.polarity.getLsbD 0)
    (henable : reg.ctrl.getLsbD 0 = config.state.enabled) :
  config.Denotes reg
    ↔ config.period / pwmClkPeriod = reg.cfg0 ∧ config.duty / pwmClkPeriod = reg.cfg1
  := by
  constructor
  · exact fun h => ⟨h.period, h.duty⟩
  · rintro ⟨hperiod, hduty⟩
    refine ⟨hperiod, hduty, ?_, ?_⟩
    · have hlow : config.polarity = config.state.polarity.setWidth 8 := by simp [PwmConfig.state]
      rw [hlow, hbit]
      obtain heq | heq := hpolarity
      · rw [heq]
        rfl
      · rw [heq]
        rfl
    · rw [henable]
      simp [PwmConfig.state]

/-- The configuration that is loaded for an open. -/
theorem Chip.Kept.load_iff (h : chip.Kept) (config : PwmConfig) :
  (config.load chip.state).Denotes chip.reg
    ↔ Chip.Fits chip.reg.cfg0 ∧ Chip.Fits chip.reg.cfg1
  := by
  rw [← kept_iff h.inv.period, ← kept_iff h.inv.dutyCycle]
  constructor
  · exact fun h => ⟨h.period, h.duty⟩
  · rintro ⟨hperiod, hduty⟩
    refine ⟨hperiod, hduty, ?_, ?_⟩
    · show chip.state.polarity.setWidth 8 = _
      rw [← h.inv.polarity]
      obtain heq | heq := h.polarity
      · rw [heq]
        rfl
      · rw [heq]
        rfl
    · rw [← h.enabled]
      unfold PwmConfig.load
      cases chip.state.enabled with
      | true => simp
      | false => simp [pwmEnableStatus, pwmDisableStatus]

/-- What `pwm_apply_state` leaves: nothing is changed by a failure, and after a success the
registers hold the configuration exactly if each one fits that holds what is kept already. -/
theorem Chip.Kept.pwmApplyState (h : chip.Kept) (config : PwmConfig) (shortcut : Bool) :
  (chip.pwmApplyState config.state shortcut).2.Kept
    ∧ if (chip.pwmApplyState config.state shortcut).1 < 0 then
        (chip.pwmApplyState config.state shortcut).2.reg = chip.reg
      else config.Denotes (chip.pwmApplyState config.state shortcut).2.reg
        ↔ (chip.state.period = config.state.period → Chip.Fits chip.reg.cfg0)
          ∧ (chip.state.dutyCycle = config.state.dutyCycle → Chip.Fits chip.reg.cfg1)
  := by
  unfold Chip.pwmApplyState
  split
  · exact ⟨h, by simp [einval]⟩
  split
  · next hshort =>
    obtain ⟨-, hstate⟩ := hshort
    refine ⟨h, ?_⟩
    dsimp only
    rw [if_neg (Int.lt_irrefl 0), PwmConfig.denotes_iff, ← kept_iff h.inv.period,
      ← kept_iff h.inv.dutyCycle, ← hstate]
    · simp [← PwmConfig.state_period, ← PwmConfig.state_dutyCycle, hstate]
    · rw [hstate]
      exact h.polarity
    · rw [hstate, h.inv.polarity]
    · rw [hstate, h.enabled]
  · refine ⟨h.next config.state, ?_⟩
    dsimp only
    by_cases haccepted : Chip.Accepted config.state
    · obtain ⟨reg', happly, hcfg0, hcfg1, hbit, henable⟩ :=
        hi35xxPwmApply_of_accepted chip.reg chip.state haccepted
      have hnext : (chip.next config.state).reg = reg' := by
        unfold Chip.next
        rw [happly]
      have hpolarity : reg'.ctrl.getLsbD 1 = config.state.polarity.getLsbD 0 := by
        rw [hbit]
        split
        · rfl
        · next heq => rw [← not_not.mp heq, h.inv.polarity]
      rw [happly, hnext]
      dsimp only
      rw [if_neg (Int.lt_irrefl 0), PwmConfig.denotes_iff haccepted.1 hpolarity henable,
        ← skipped_iff h.inv.period, ← skipped_iff h.inv.dutyCycle, ← hcfg0, ← hcfg1,
        PwmConfig.state_period, PwmConfig.state_dutyCycle, eq_comm, @eq_comm _ (config.duty / _)]
    · unfold Chip.next
      rw [hi35xxPwmApply_of_not chip.reg chip.state haccepted]
      dsimp only
      rw [if_pos (by decide)]

/-! ### The calls -/

theorem Line.pwmRequest_kept {line device : Line} {granted reread : Bool} (h : line.chip.Kept)
    (hdevice : line.pwmRequest granted reread = some device) :
  device.chip.Kept ∧ device.chip.reg = line.chip.reg
  := by
  obtain ⟨-, hsome⟩ := Option.ite_none_right_eq_some.mp hdevice
  cases hsome
  cases reread with
  | true => exact ⟨Chip.kept_init line.chip.reg, rfl⟩
  | false => exact ⟨h, rfl⟩

namespace Pwms

/-- Each line keeps the state that its registers hold, if they fit. -/
def Kept (s : Pwms) : Prop := ∀ num, (s.lines num).chip.Kept

variable {s : Pwms}

theorem kept_init (regs : BitVec 32 → Option HiPwmRegs) (nums : List (BitVec 32)) :
  (init regs nums).Kept
  := fun _ => Chip.kept_init _

theorem put_lines (s : Pwms) (num n : BitVec 32) (line : Line) :
  (s.put num line).lines n = if n = num then line else s.lines n
  := rfl

theorem Kept.put (h : s.Kept) (num : BitVec 32) {line : Line} (hline : line.chip.Kept) :
  (s.put num line).Kept
  := by
  intro n
  rw [put_lines]
  split
  · exact hline
  · exact h n

theorem sameRegs_put {num : BitVec 32} {line : Line}
    (h : line.chip.reg = (s.lines num).chip.reg) :
  s.SameRegs (s.put num line)
  := by
  intro n
  rw [put_lines]
  split
  · next heq => rw [h, heq]
  · rfl

/-- An open fails and changes nothing, or stores what it requested. -/
theorem hdfPwmOpen_cases (s : Pwms) (i : Nat) (granted reread : Bool) :
  ((s.hdfPwmOpen i granted reread).1 ≠ Hdf.success ∧ (s.hdfPwmOpen i granted reread).2 = s)
    ∨ ∃ pwm device, s.devs[i]? = some pwm
      ∧ (s.lines pwm.num).pwmRequest granted reread = some device
      ∧ s.hdfPwmOpen i granted reread = (Hdf.success, { s.put pwm.num device with
        devs := s.devs.set i { pwm with
          cfg := pwm.cfg.load device.chip.state
          priv := some pwm.num } })
  := by
  unfold hdfPwmOpen
  split
  · exact .inl ⟨show Hdf.errInvalidParam ≠ Hdf.success by decide, rfl⟩
  · next pwm hpwm =>
    split
    · exact .inl ⟨show Hdf.failure ≠ Hdf.success by decide, rfl⟩
    · next device hdevice => exact .inr ⟨pwm, device, hpwm, hdevice, rfl⟩

/-- A configuration is for no device, or is handed to the core. -/
theorem hdfPwmSetConfig_cases (s : Pwms) (i : Nat) (config : Option PwmConfig) (shortcut : Bool) :
  ((s.hdfPwmSetConfig i config shortcut).1 ≠ Hdf.success
      ∧ (s.hdfPwmSetConfig i config shortcut).2 = s)
    ∨ ∃ num c, s.devs[i]?.bind PwmDev.priv = some num ∧ config = some c
      ∧ s.hdfPwmSetConfig i config shortcut
        = (if ((s.lines num).chip.pwmApplyState c.state shortcut).1 < 0 then Hdf.failure
          else Hdf.success, s.put num { s.lines num with
            chip := ((s.lines num).chip.pwmApplyState c.state shortcut).2 })
  := by
  unfold hdfPwmSetConfig
  split
  · next num c hnum => exact .inr ⟨num, c, hnum, rfl, rfl⟩
  · exact .inl ⟨show Hdf.errInvalidParam ≠ Hdf.success by decide, rfl⟩

theorem hdfPwmClose_cases (s : Pwms) (i : Nat) :
  (s.hdfPwmClose i).2 = s
    ∨ ∃ num, (s.hdfPwmClose i).2 = s.put num { s.lines num with requested := false }
  := by
  unfold hdfPwmClose
  split
  · exact .inl rfl
  · split
    · exact .inl rfl
    · next num _ => exact .inr ⟨num, rfl⟩

theorem sameRegs_close (s : Pwms) (i : Nat) :
  s.SameRegs (s.next (.close i))
  := by
  show s.SameRegs (s.hdfPwmClose i).2
  obtain hsame | ⟨num, heq⟩ := s.hdfPwmClose_cases i
  · rw [hsame]
    exact fun _ => rfl
  · rw [heq]
    exact sameRegs_put rfl

theorem Kept.next (h : s.Kept) (a : PwmAct) :
  (s.next a).Kept
  := by
  cases a with
  | openDev i granted reread =>
      show (s.hdfPwmOpen i granted reread).2.Kept
      obtain ⟨-, hsame⟩ | ⟨pwm, device, -, hdevice, heq⟩ := s.hdfPwmOpen_cases i granted reread
      · rw [hsame]
        exact h
      · rw [heq]
        exact h.put pwm.num (Line.pwmRequest_kept (h pwm.num) hdevice).1
  | setConfig i config shortcut =>
      show (s.hdfPwmSetConfig i config shortcut).2.Kept
      obtain ⟨-, hsame⟩ | ⟨num, c, -, -, heq⟩ := s.hdfPwmSetConfig_cases i config shortcut
      · rw [hsame]
        exact h
      · rw [heq]
        exact h.put num ((h num).pwmApplyState c shortcut).1
  | close i =>
      show (s.hdfPwmClose i).2.Kept
      obtain hsame | ⟨num, heq⟩ := s.hdfPwmClose_cases i
      · rw [hsame]
        exact h
      · rw [heq]
        exact h.put num (h num)

theorem Kept.open_iff (h : s.Kept) (i : Nat) (granted reread : Bool) :
  s.InForce (.openDev i granted reread) ↔ s.Fitting (.openDev i granted reread)
  := by
  dsimp only [InForce, Fitting, Pwms.next, call]
  obtain ⟨hret, hsame⟩ | ⟨pwm, device, hpwm, hdevice, heq⟩ := s.hdfPwmOpen_cases i granted reread
  · rw [hsame]
    exact ⟨fun _ hsuccess => absurd hsuccess hret,
      fun _ => ⟨fun _ => rfl, fun hsuccess => absurd hsuccess hret⟩⟩
  · obtain ⟨hkept, hreg⟩ := Line.pwmRequest_kept (h pwm.num) hdevice
    have hload := hkept.load_iff pwm.cfg
    rw [hreg] at hload
    have hstored : (s.devs.set i { pwm with
        cfg := pwm.cfg.load device.chip.state
        priv := some pwm.num })[i]? = some { pwm with
          cfg := pwm.cfg.load device.chip.state
          priv := some pwm.num } :=
      List.getElem?_set_self (List.getElem?_eq_some_iff.mp hpwm).1
    rw [heq]
    constructor
    · rintro ⟨-, hreports⟩ - pwm' hpwm'
      obtain rfl := Option.some.inj (hpwm.symm.trans hpwm')
      obtain ⟨stored, hget, -, hdenotes⟩ := hreports rfl
      obtain rfl := Option.some.inj (hstored.symm.trans hget)
      exact hload.mp hdenotes
    · exact fun hfits => ⟨sameRegs_put hreg, fun _ =>
        ⟨_, hstored, rfl, hload.mpr (hfits rfl pwm hpwm)⟩⟩

theorem Kept.setConfig_iff (h : s.Kept) (i : Nat) (config : Option PwmConfig) (shortcut : Bool) :
  s.InForce (.setConfig i config shortcut) ↔ s.Fitting (.setConfig i config shortcut)
  := by
  dsimp only [InForce, Fitting, Pwms.next, call]
  obtain ⟨hret, hsame⟩ | ⟨num, c, hnum, rfl, heq⟩ := s.hdfPwmSetConfig_cases i config shortcut
  · rw [if_neg hret, hsame]
    exact ⟨fun _ hsuccess => absurd hsuccess hret, fun _ _ => rfl⟩
  · obtain ⟨-, happly⟩ := (h num).pwmApplyState c shortcut
    rw [heq]
    by_cases hret : ((s.lines num).chip.pwmApplyState c.state shortcut).1 < 0
    · rw [if_pos hret] at happly ⊢
      have hfailure : Hdf.failure ≠ Hdf.success := by decide
      rw [if_neg hfailure]
      exact ⟨fun _ hsuccess => absurd hsuccess hfailure, fun _ => sameRegs_put happly⟩
    · rw [if_neg hret] at happly ⊢
      rw [if_pos rfl]
      constructor
      · rintro ⟨num', c', hnum', hc', hdenotes, -⟩ - num'' c'' hnum'' hc''
        obtain rfl := Option.some.inj (hnum.symm.trans hnum')
        obtain rfl := Option.some.inj (hnum.symm.trans hnum'')
        obtain rfl := Option.some.inj hc'
        obtain rfl := Option.some.inj hc''
        rw [put_lines, if_pos rfl] at hdenotes
        exact happly.mp hdenotes
      · intro hfits
        refine ⟨num, c, hnum, rfl, ?_, fun n hne => ?_⟩
        · rw [put_lines, if_pos rfl]
          exact happly.mpr (hfits rfl num c hnum rfl)
        · rw [put_lines, if_neg hne]

end Pwms

theorem Pwms.Kept.call_iff {s : Pwms} (h : s.Kept) (a : PwmAct) :
  s.InForce a ↔ s.Fitting a
  := by
  cases a with
  | openDev i granted reread => exact h.open_iff i granted reread
  | setConfig i config shortcut => exact h.setConfig_iff i config shortcut
  | close i => exact ⟨fun _ => trivial, fun _ => s.sameRegs_close i⟩

/-- For all registers at first, all devices and all calls, what is set and what an open reports is
in force exactly as long as no register that does not fit is read or left as it is. -/
theorem configs_in_force_iff (regs : BitVec 32 → Option HiPwmRegs) (nums : List (BitVec 32))
    (acts : List PwmAct) :
  Along Pwms.next Pwms.InForce (.init regs nums) acts
    ↔ Along Pwms.next Pwms.Fitting (.init regs nums) acts
  := by
  have hkeep : ∀ (s : Pwms) a, s.Kept → s.Fitting a → (s.next a).Kept :=
    fun s a h _ => h.next a
  exact along_iff (fun s a h => h.call_iff a) hkeep (Pwms.kept_init regs nums)

/-! ### Registers that fit -/

namespace Pwms

/-- All periods and duty cycles in the registers fit. -/
def FitsClock (s : Pwms) : Prop :=
  ∀ num, Chip.Fits (s.lines num).chip.reg.cfg0 ∧ Chip.Fits (s.lines num).chip.reg.cfg1

variable {s t : Pwms}

theorem FitsClock.sameRegs (h : s.FitsClock) (hsame : s.SameRegs t) :
  t.FitsClock
  := by
  intro num
  rw [hsame num]
  exact h num

theorem FitsClock.fitting (h : s.FitsClock) (a : PwmAct) :
  s.Fitting a
  := by
  cases a with
  | openDev i granted reread => exact fun _ pwm _ => h pwm.num
  | setConfig i config shortcut => exact fun _ num c _ _ => ⟨fun _ => (h num).1, fun _ => (h num).2⟩
  | close i => trivial

/-- What is in force fits. -/
theorem FitsClock.next (h : s.FitsClock) {a : PwmAct} (hforce : s.InForce a) :
  (s.next a).FitsClock
  := by
  cases a with
  | openDev i granted reread => exact h.sameRegs hforce.1
  | close i => exact h.sameRegs hforce
  | setConfig i config shortcut =>
      dsimp only [InForce] at hforce
      split at hforce
      · obtain ⟨num, c, -, -, hdenotes, hothers⟩ := hforce
        intro n
        by_cases heq : n = num
        · rw [heq, ← hdenotes.period, ← hdenotes.duty]
          exact ⟨fits_div _, fits_div _⟩
        · rw [hothers n heq]
          exact h n
      · exact h.sameRegs hforce

end Pwms

/-- Where all registers fit at first, what is set and what an open reports is in force in every
run. -/
theorem configs_in_force {regs : BitVec 32 → Option HiPwmRegs} {nums : List (BitVec 32)}
    (h : (Pwms.init regs nums).FitsClock) (acts : List PwmAct) :
  Along Pwms.next Pwms.InForce (.init regs nums) acts
  := by
  have hiff : ∀ (s : Pwms) a, s.Kept ∧ s.FitsClock → (s.InForce a ↔ True) :=
    fun s a hs => iff_true_intro ((hs.1.call_iff a).mpr (hs.2.fitting a))
  have hkeep : ∀ (s : Pwms) a, s.Kept ∧ s.FitsClock → True →
      (s.next a).Kept ∧ (s.next a).FitsClock :=
    fun s a hs _ => ⟨hs.1.next a, hs.2.next ((hs.1.call_iff a).mpr (hs.2.fitting a))⟩
  exact (along_iff hiff hkeep ⟨Pwms.kept_init regs nums, h⟩).mpr (along_true _ acts)

/-- After a reopen that reads the registers a period of 1000 nanoseconds is one of 999. -/
example :
  ([.openDev 0 true true, .setConfig 0 (some ⟨500, 1000, 0, 1, 1⟩) false, .close 0,
      .openDev 0 true true].foldl Pwms.next (.init (fun _ => some ⟨3, 1, 0⟩) [0])).devs
    = [⟨0, ⟨333, 999, 0, 1, 1⟩, some 0⟩]
  := by decide

end Pwm
