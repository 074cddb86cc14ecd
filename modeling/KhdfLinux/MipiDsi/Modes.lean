import KhdfLinux.Lib.Run
import KhdfLinux.MipiDsi.Command

/-!
# The modes of the controller

`Hi35xxToHs` enters the high-speed mode and `Hi35xxToLp` leaves it.  `modes_iff`: over any
requests, input is enabled, registers are written and `MODE_CFG` and `CMD_MODE_CFG` are set in
agreement with the configuration that was accepted, exactly as long as the high-speed mode is
entered after a configuration was accepted, with an output mode of its kind, and no request has
more lanes than `LANE_MAX_NUM`.
-/

namespace MipiDsi

open Exec Registers

/-! ### The requests -/

/-- What `MipiTxDrvEnableInput` writes before it resets the controller. -/
def enableInput (outputMode : UInt32) : RegWrites :=
  (if outputMode = outputModeDsiVideo ∨ outputMode = outputModeCsi then [(.modeCfg, 0x0)] else [])
    ++ (if outputMode = outputModeDsiCmd then [(.cmdModeCfg, 0x0)] else [])
    ++ [(.operationMode, 0x80150000), (.lpclkCtrl, 0x1)]

/-- `MipiTxDrvEnableInput`. -/
def mipiTxDrvEnableInput (outputMode : UInt32) : Exec MipiTx Unit := do
  onDevice (writeAll (enableInput outputMode ++ mipiTxReset))
  modify fun s => { s with enHsMode := true }

/-- What `MipiTxDrvDisableInput` writes before it resets the controller. -/
def disableInput : RegWrites :=
  [(.operationMode, 0x0), (.cmdModeCfg, 0xffffff00), (.modeCfg, 0x1), (.lpclkCtrl, 0x0)]

/-- `MipiTxDrvDisableInput`. -/
def mipiTxDrvDisableInput : Exec MipiTx Unit := do
  onDevice (writeAll (disableInput ++ mipiTxReset))
  modify fun s => { s with enHsMode := false }

/-- `Hi35xxToLp`. -/
def hi35xxToLp (_cntlr : Option MipiDsiCntlr) : Exec MipiTx Unit := mipiTxDrvDisableInput

/-- `Hi35xxToHs`. -/
def hi35xxToHs (cntlr : Option MipiDsiCntlr) : Exec MipiTx Unit := do
  match ← getDevCfg cntlr with
  | none => pure ()
  | some dev => mipiTxDrvEnableInput dev.outputMode

/-- The requests of `g_method`, with what they are called with. -/
inductive Request where
  | setCntlrCfg (cntlr : Option MipiDsiCntlr)
  | setCmd (cmd : Option DsiCmdDesc) (env : Surroundings)
  | getCmd (cmd : Option DsiCmdDesc) (readLen : UInt32) (out : Bool) (env : Surroundings)
  | toHs (cntlr : Option MipiDsiCntlr)
  | toLp (cntlr : Option MipiDsiCntlr)

/-- The request, and its code where it has one. -/
def Request.perform : Request → Exec MipiTx (Option Int)
  | setCntlrCfg cntlr => do
      let ret ← hi35xxSetCntlrCfg cntlr
      pure (some ret)
  | setCmd cmd env => do
      let ret ← hi35xxSetCmd cmd env
      pure (some ret)
  | getCmd cmd readLen out env => do
      let ret ← hi35xxGetCmd cmd readLen out env
      pure (some ret.1)
  | toHs cntlr => do
      hi35xxToHs cntlr
      pure none
  | toLp cntlr => do
      hi35xxToLp cntlr
      pure none

/-- The driver, and the output mode of the configuration that was accepted last. -/
structure Driver where
  tx : MipiTx
  accepted : Option UInt32

/-- The output mode that was accepted last, after a request. -/
def Request.accepted (accepted : Option UInt32) : Request → Option Int → Option UInt32
  | setCntlrCfg (some cntlr), some ret =>
    if ret = Hdf.success then some cntlr.cfg.mode else accepted
  | _, _ => accepted

namespace Driver

/-- The driver after it is loaded. -/
def init (device : Device Reg UInt32) : Driver := ⟨⟨device, false, false, 0⟩, none⟩

variable (s : Driver)

/-- The driver after a request. -/
def next (r : Request) : Driver :=
  match r.perform.run s.tx with
  | .ok ret t => ⟨t, r.accepted s.accepted ret⟩
  | .error _ t => ⟨t, s.accepted⟩

end Driver

/-! ### The discipline -/

/-- The registers of the mode agree with the flag and with the output mode. -/
@[mk_iff]
structure Agrees (regs : Reg → UInt32) (enHsMode : Bool) (outputMode : UInt32) : Prop where
  modeCfg : regs .modeCfg = if enHsMode ∧ outputMode ≠ outputModeDsiCmd then 0x0 else 0x1
  cmdModeCfg : regs .cmdModeCfg
    = if enHsMode ∧ outputMode = outputModeDsiCmd then 0x0 else 0xffffff00

/-- The requests that configure the driver or send a command. -/
def Request.Sends : Request → Prop
  | setCntlrCfg _ => True
  | setCmd _ _ => True
  | getCmd _ _ _ _ => True
  | toHs _ => False
  | toLp _ => False

/-- A request stays inside the array of lanes; input is enabled only after a configuration was
accepted; nothing is written by a configuration or a command in the high-speed mode or before a
configuration is accepted; and the registers of the mode agree with what was accepted last. -/
structure Driver.Disciplined (s : Driver) (r : Request) : Prop where
  inside : stopOf (r.perform.run s.tx) ≠ some (.fault .outOfBounds)
  enabled : (s.next r).tx.enHsMode → (s.next r).accepted.isSome
  silent : r.Sends → s.tx.enHsMode ∨ (s.next r).accepted = none →
    (s.next r).tx.device.writes = s.tx.device.writes
  agrees : ∀ outputMode, (s.next r).accepted = some outputMode →
    Agrees (s.next r).tx.device.regs (s.next r).tx.enHsMode outputMode

/-- The output modes of the driver. -/
def KnownMode (outputMode : UInt32) : Prop :=
  outputMode = outputModeCsi ∨ outputMode = outputModeDsiVideo ∨ outputMode = outputModeDsiCmd

/-- Two output modes of one kind: command mode, or one of the others. -/
def SameKind (outputMode outputMode' : UInt32) : Prop :=
  KnownMode outputMode ∧ (outputMode = outputModeDsiCmd ↔ outputMode' = outputModeDsiCmd)

/-- The lanes fit; and the high-speed mode is entered after a configuration was accepted, with an
output mode of the same kind, or entered again with none that is known. -/
def Driver.Allowed (s : Driver) : Request → Prop
  | .setCntlrCfg (some cntlr) => cntlr.cfg.lane.toNat ≤ laneMaxNum
  | .toHs (some cntlr) =>
      cntlr.cfg.lane.toNat ≤ laneMaxNum ∧ ∃ outputMode, s.accepted = some outputMode
        ∧ (SameKind cntlr.cfg.mode outputMode ∨ s.tx.enHsMode ∧ ¬KnownMode cntlr.cfg.mode)
  | _ => True

/-! ### The invariant -/

/-- The flags tell whether a configuration was accepted, and the registers agree with it. -/
structure Driver.Inv (s : Driver) : Prop where
  enCfg : s.tx.enCfg = s.accepted.isSome
  enabled : s.tx.enHsMode → s.accepted.isSome
  known : ∀ outputMode, s.accepted = some outputMode → KnownMode outputMode
  agrees : ∀ outputMode, s.accepted = some outputMode →
    Agrees s.tx.device.regs s.tx.enHsMode outputMode

/-- The driver after it is loaded. -/
theorem Driver.Inv.init (device : Device Reg UInt32) :
  (Driver.init device).Inv
  where
  enCfg := rfl
  enabled h := nomatch h
  known _ h := nomatch h
  agrees _ h := nomatch h

variable {s : Driver}

/-- A request that returns. -/
theorem Driver.next_of_ok {r : Request} {ret : Option Int} {t : MipiTx}
    (h : r.perform.run s.tx = .ok ret t) :
  s.next r = ⟨t, r.accepted s.accepted ret⟩
  := by
  unfold Driver.next
  rw [h]

/-- A request that faults. -/
theorem Driver.next_of_error {r : Request} {e : Stop} {t : MipiTx}
    (h : r.perform.run s.tx = .error e t) :
  s.next r = ⟨t, s.accepted⟩
  := by
  unfold Driver.next
  rw [h]

/-- A request after which the mode, what was accepted and the registers of the mode are as before
meets the discipline, if it did nothing where it must not. -/
theorem Driver.Inv.sent {r : Request} (h : s.Inv)
    (hinside : stopOf (r.perform.run s.tx) ≠ some (.fault .outOfBounds))
    (ht : Sent s.tx (s.next r).tx) (haccepted : (s.next r).accepted = s.accepted) :
  s.Disciplined r ∧ (s.next r).Inv
  := by
  have hagrees : ∀ outputMode, (s.next r).accepted = some outputMode →
      Agrees (s.next r).tx.device.regs (s.next r).tx.enHsMode outputMode := by
    intro outputMode houtput
    rw [haccepted] at houtput
    rw [ht.enHsMode]
    obtain ⟨hmode, hcmd⟩ := h.agrees outputMode houtput
    exact ⟨(ht.kept .modeCfg (by decide)).trans hmode, (ht.kept .cmdModeCfg (by decide)).trans hcmd⟩
  constructor
  · constructor
    · apply hinside
    · rw [ht.enHsMode, haccepted]
      apply h.enabled
    · rw [haccepted]
      rintro - (hhs | hnone)
      · rw [ht.refused (.inl hhs)]
      · have hcfg := h.enCfg
        rw [hnone] at hcfg
        rw [ht.refused (.inr (by rw [hcfg]; exact Bool.false_ne_true))]
    · apply hagrees
  · constructor
    · rw [ht.enCfg, haccepted]
      apply h.enCfg
    · rw [ht.enHsMode, haccepted]
      apply h.enabled
    · rw [haccepted]
      apply h.known
    · apply hagrees

/-- A command. -/
theorem Driver.Inv.command {r : Request} (h : s.Inv)
    (hr : Meets r.perform s.tx (fun _ t => Sent s.tx t)
      (fun e t => e = .fault .nullDeref ∧ t = s.tx))
    (haccepted : ∀ ret, r.accepted s.accepted ret = s.accepted) :
  s.Disciplined r ∧ (s.next r).Inv
  := by
  unfold Meets at hr
  cases hrun : r.perform.run s.tx with
  | ok ret t =>
      rw [hrun] at hr
      have hnext := s.next_of_ok hrun
      apply h.sent
      · rw [hrun]
        exact Option.some_ne_none _ |>.symm
      · rw [hnext]
        apply hr
      · rw [hnext]
        apply haccepted ret
  | error e t =>
      rw [hrun] at hr
      obtain ⟨rfl, rfl⟩ := hr
      have hnext := s.next_of_error hrun
      apply h.sent
      · rw [hrun]
        simp [stopOf]
      · rw [hnext]
        apply Sent.refl s.tx
      · rw [hnext]

/-! ### Configurations -/

/-- What `MipiTxDrvSetControllerCfg` leaves in the registers of the mode. -/
theorem after_modes (regs : Reg → UInt32) (dev : ComboDevCfg) (rate : UInt32) {r : Reg}
    (hr : r = .modeCfg ∨ r = .cmdModeCfg) :
  after regs (mipiTxDrvSetControllerCfg dev rate ++ mipiTxDrvSetPhyCfg dev rate) r
    = if r = .modeCfg then 0x1 else 0xffffff00
  := by
  have hrest (rest : RegWrites) (h : Within (fun r => ¬(r = .modeCfg ∨ r = .cmdModeCfg)) rest)
      (regs : Reg → UInt32) : after regs rest r = regs r := h.after_eq (not_not.mpr hr)
  have hphy : r ∉ phyRegs := by
    obtain rfl | rfl := hr <;> decide
  rw [after_append, setPhyCfg_regs.after_eq hphy]
  unfold mipiTxDrvSetControllerCfg setLaneConfig setVideoModeCfg setTimingConfig
  rw [after_append, hrest _ (by simp), after_append, hrest _ (by simp),
    after_append, hrest _ (by simp), after_append, hrest _ (by simp [within_ite]),
    after_append, hrest _ (by simp), after_append, hrest _ (by simp [within_ite]),
    after_append, hrest _ (by simp), after_append]
  obtain rfl | rfl := hr <;> simp

/-- An accepted configuration leaves the registers of the low-power mode. -/
theorem configured_agrees (tx : MipiTx) (dev : ComboDevCfg) (outputMode : UInt32) :
  Agrees (tx.configured dev).device.regs false outputMode
  where
  modeCfg := by
    rw [configured_regs, after_modes _ dev _ (.inl rfl)]
    simp
  cmdModeCfg := by
    rw [configured_regs, after_modes _ dev _ (.inr rfl)]
    simp

/-- A configuration is accepted, refused or outside the array of lanes. -/
theorem Driver.Inv.setCntlrCfg (h : s.Inv) (cntlr : Option MipiDsiCntlr) :
  (s.Disciplined (.setCntlrCfg cntlr) → s.Allowed (.setCntlrCfg cntlr))
    ∧ (s.Allowed (.setCntlrCfg cntlr) →
      s.Disciplined (.setCntlrCfg cntlr) ∧ (s.next (.setCntlrCfg cntlr)).Inv)
  := by
  cases cntlr with
  | none =>
      refine ⟨fun _ => trivial, fun _ => ?_⟩
      exact h.sent (Option.some_ne_none _).symm (Sent.refl s.tx) rfl
  | some cntlr =>
      obtain hlane | hlane := Nat.lt_or_ge laneMaxNum cntlr.cfg.lane.toNat
      · have hrun : (Request.setCntlrCfg (some cntlr)).perform.run s.tx
            = .error (.fault .outOfBounds) s.tx := by
          unfold Request.perform
          rw [EStateM.run_bind, setCntlrCfg_fault hlane]
        constructor
        · intro hd
          apply absurd hd.inside
          rw [hrun]
          apply not_not.mpr rfl
        · exact fun ha => absurd ha (Nat.not_le.mpr hlane)
      refine ⟨fun _ => hlane, fun _ => ?_⟩
      by_cases haccepts : s.tx.enHsMode = false ∧ cntlr.devNo = 0 ∧ cntlr.cfg.Known
      · obtain ⟨hhs, hdev, hknown⟩ := haccepts
        have hrun : (Request.setCntlrCfg (some cntlr)).perform.run s.tx
            = .ok (some Hdf.success)
              (s.tx.configured (cntlr.dev (lanes cntlr.cfg.lane.toNat))) := by
          unfold Request.perform
          rw [EStateM.run_bind, setCntlrCfg_run hlane hhs hdev hknown]
          rfl
        have hnext : s.next (.setCntlrCfg (some cntlr))
            = ⟨s.tx.configured (cntlr.dev (lanes cntlr.cfg.lane.toNat)), some cntlr.cfg.mode⟩ := by
          rw [s.next_of_ok hrun]
          rfl
        have hconfigured := configured_agrees s.tx (cntlr.dev (lanes cntlr.cfg.lane.toNat))
        constructor
        · constructor
          · rw [hrun]
            exact (Option.some_ne_none _).symm
          · rw [hnext]
            exact fun _ => rfl
          · rw [hnext, hhs]
            rintro - (hfalse | hnone)
            · cases hfalse
            · cases hnone
          · rw [hnext]
            intro outputMode _
            show Agrees _ s.tx.enHsMode outputMode
            rw [hhs]
            apply hconfigured outputMode
        · rw [hnext]
          constructor
          · rfl
          · exact fun _ => rfl
          · intro outputMode houtput
            cases houtput
            apply hknown.mode
          · intro outputMode _
            show Agrees _ s.tx.enHsMode outputMode
            rw [hhs]
            apply hconfigured outputMode
      · obtain ⟨code, hcode, hcall⟩ := setCntlrCfg_refused hlane haccepts
        have hrun : (Request.setCntlrCfg (some cntlr)).perform.run s.tx = .ok (some code) s.tx := by
          unfold Request.perform
          rw [EStateM.run_bind, hcall]
          rfl
        have hnext : s.next (.setCntlrCfg (some cntlr)) = s := by
          rw [s.next_of_ok hrun]
          unfold Request.accepted
          dsimp only
          rw [if_neg hcode]
        apply h.sent
        · rw [hrun]
          exact (Option.some_ne_none _).symm
        · rw [hnext]
          apply Sent.refl s.tx
        · rw [hnext]

/-! ### Modes -/

section

variable {regs : Reg → UInt32} {enHsMode : Bool} {outputMode accepted : UInt32}

/-- `MODE_CFG` after input is enabled. -/
theorem enableInput_modeCfg :
  after regs (enableInput outputMode ++ mipiTxReset) .modeCfg
    = if outputMode = outputModeDsiVideo ∨ outputMode = outputModeCsi then 0x0
      else regs .modeCfg
  := by
  unfold enableInput mipiTxReset
  split_ifs <;> simp

/-- `CMD_MODE_CFG` after input is enabled. -/
theorem enableInput_cmdModeCfg :
  after regs (enableInput outputMode ++ mipiTxReset) .cmdModeCfg
    = if outputMode = outputModeDsiCmd then 0x0 else regs .cmdModeCfg
  := by
  unfold enableInput mipiTxReset
  split_ifs <;> simp

/-- Input is enabled in agreement with what was accepted. -/
theorem enableInput_agrees_iff (h : Agrees regs enHsMode accepted) :
  Agrees (after regs (enableInput outputMode ++ mipiTxReset)) true accepted
    ↔ SameKind outputMode accepted ∨ enHsMode ∧ ¬KnownMode outputMode
  := by
  rw [agrees_iff, enableInput_modeCfg, enableInput_cmdModeCfg, h.modeCfg, h.cmdModeCfg]
  unfold SameKind KnownMode
  by_cases houtput : outputMode = outputModeDsiCmd
  · subst houtput
    by_cases haccepted : accepted = outputModeDsiCmd
    · simp [haccepted, outputModeDsiCmd, outputModeDsiVideo, outputModeCsi]
    · simp [haccepted, outputModeDsiVideo, outputModeCsi]
  by_cases hvideo : outputMode = outputModeDsiVideo ∨ outputMode = outputModeCsi
  · by_cases haccepted : accepted = outputModeDsiCmd
    · simp [haccepted, houtput, hvideo, hvideo.symm]
    · simp [haccepted, houtput, hvideo, hvideo.symm]
  · -- a mode that is not known: the registers are not written
    obtain ⟨hdsi, hcsi⟩ := not_or.mp hvideo
    by_cases haccepted : accepted = outputModeDsiCmd
    · cases enHsMode
      all_goals simp [haccepted, houtput, hdsi, hcsi]
    · simp [haccepted, houtput, hdsi, hcsi]

end

/-- Input is enabled, in agreement with what was accepted or not, or the request is outside the
array of lanes. -/
theorem Driver.Inv.toHs (h : s.Inv) (cntlr : Option MipiDsiCntlr) :
  (s.Disciplined (.toHs cntlr) → s.Allowed (.toHs cntlr))
    ∧ (s.Allowed (.toHs cntlr) →
      s.Disciplined (.toHs cntlr) ∧ (s.next (.toHs cntlr)).Inv)
  := by
  cases cntlr with
  | none =>
      refine ⟨fun _ => trivial, fun _ => ?_⟩
      exact h.sent (Option.some_ne_none _).symm (Sent.refl s.tx) rfl
  | some cntlr =>
      obtain hlane | hlane := Nat.lt_or_ge laneMaxNum cntlr.cfg.lane.toNat
      · have hrun : (Request.toHs (some cntlr)).perform.run s.tx
            = .error (.fault .outOfBounds) s.tx := by
          unfold Request.perform hi35xxToHs
          rw [EStateM.run_bind, EStateM.run_bind, getDevCfg_fault hlane]
        constructor
        · intro hd
          apply absurd hd.inside
          rw [hrun]
          apply not_not.mpr rfl
        · exact fun ha => absurd ha.1 (Nat.not_le.mpr hlane)
      have hrun : (Request.toHs (some cntlr)).perform.run s.tx
          = .ok none { s.tx with
            device := { s.tx.device with
              regs := after s.tx.device.regs (enableInput cntlr.cfg.mode ++ mipiTxReset)
              writes := s.tx.device.writes ++ (enableInput cntlr.cfg.mode ++ mipiTxReset) }
            enHsMode := true } := by
        unfold Request.perform hi35xxToHs
        rw [EStateM.run_bind, EStateM.run_bind, getDevCfg_run hlane]
        rfl
      have hnext := s.next_of_ok hrun
      constructor
      · intro hd
        have hsome := hd.enabled
        rw [hnext] at hsome
        obtain ⟨outputMode, haccepted⟩ := Option.isSome_iff_exists.mp (hsome rfl)
        have hagrees := hd.agrees
        rw [hnext] at hagrees
        exact ⟨hlane, outputMode, haccepted, (enableInput_agrees_iff
          (h.agrees outputMode haccepted)).mp (hagrees outputMode haccepted)⟩
      · rintro ⟨-, outputMode, haccepted, hallowed⟩
        have hagrees : ∀ outputMode', s.accepted = some outputMode' →
            Agrees (after s.tx.device.regs (enableInput cntlr.cfg.mode ++ mipiTxReset)) true
              outputMode' := by
          intro outputMode' haccepted'
          rw [haccepted] at haccepted'
          cases haccepted'
          exact (enableInput_agrees_iff (h.agrees outputMode haccepted)).mpr hallowed
        have hsome : s.accepted.isSome := by
          rw [haccepted]
          rfl
        constructor
        · constructor
          · rw [hrun]
            exact (Option.some_ne_none _).symm
          · rw [hnext]
            exact fun _ => hsome
          · exact fun hsends => False.elim hsends
          · rw [hnext]
            apply hagrees
        · rw [hnext]
          exact ⟨h.enCfg, fun _ => hsome, h.known, hagrees⟩

/-- Input is disabled. -/
theorem Driver.Inv.toLp (h : s.Inv) (cntlr : Option MipiDsiCntlr) :
  s.Disciplined (.toLp cntlr) ∧ (s.next (.toLp cntlr)).Inv
  := by
  have hrun : (Request.toLp cntlr).perform.run s.tx
      = .ok none { s.tx with
        device := { s.tx.device with
          regs := after s.tx.device.regs (disableInput ++ mipiTxReset)
          writes := s.tx.device.writes ++ (disableInput ++ mipiTxReset) }
        enHsMode := false } := rfl
  have hnext := s.next_of_ok hrun
  have hagrees : ∀ outputMode,
      Agrees (after s.tx.device.regs (disableInput ++ mipiTxReset)) false outputMode := by
    intro outputMode
    constructor
    · simp [disableInput, mipiTxReset]
    · simp [disableInput, mipiTxReset]
  constructor
  · constructor
    · rw [hrun]
      exact (Option.some_ne_none _).symm
    · rw [hnext]
      exact fun hfalse => absurd hfalse Bool.false_ne_true
    · exact fun hsends => False.elim hsends
    · rw [hnext]
      exact fun outputMode _ => hagrees outputMode
  · rw [hnext]
    exact ⟨h.enCfg, fun hfalse => absurd hfalse Bool.false_ne_true, h.known, fun outputMode _ =>
      hagrees outputMode⟩

/-! ### Runs -/

/-- A request meets the discipline exactly if it is allowed, and then keeps the invariant. -/
theorem Driver.Inv.next_iff (h : s.Inv) (r : Request) :
  (s.Disciplined r → s.Allowed r) ∧ (s.Allowed r → s.Disciplined r ∧ (s.next r).Inv)
  := by
  cases r with
  | setCntlrCfg cntlr => exact h.setCntlrCfg cntlr
  | setCmd cmd env =>
      refine ⟨fun _ => trivial, fun _ => h.command (meets_bind ?_) fun _ => rfl⟩
      apply hi35xxSetCmd_meets cmd env
  | getCmd cmd readLen out env =>
      refine ⟨fun _ => trivial, fun _ => h.command (meets_bind ?_) fun _ => rfl⟩
      apply hi35xxGetCmd_meets cmd readLen out env
  | toHs cntlr => exact h.toHs cntlr
  | toLp cntlr => exact ⟨fun _ => trivial, fun _ => h.toLp cntlr⟩

/-- The discipline holds of all requests exactly if they are all allowed. -/
theorem modes_iff (device : Device Reg UInt32) (rs : List Request) :
  Along Driver.next Driver.Disciplined (Driver.init device) rs
    ↔ Along Driver.next Driver.Allowed (Driver.init device) rs
  := by
  have hiff : ∀ (s : Driver) r, s.Inv → (s.Disciplined r ↔ s.Allowed r) :=
    fun s r h => ⟨(h.next_iff r).1, fun ha => ((h.next_iff r).2 ha).1⟩
  have hkeep : ∀ (s : Driver) r, s.Inv → s.Allowed r → (s.next r).Inv :=
    fun s r h ha => ((h.next_iff r).2 ha).2
  apply along_iff hiff hkeep (Driver.Inv.init device)

/-- Input is enabled in the driver as it is loaded; and a configuration that is refused decides
the mode in which input is enabled after one that was accepted. -/
theorem modes_not_disciplined :
  let device : Device Reg UInt32 := ⟨fun _ => 0, [], fun _ _ => 0⟩
  let cfg : MipiCfg := ⟨1, outputModeDsiVideo, 0, 0, 27, 27, ⟨0, 0, 0, 0, 0, 0, 0, 0, 0⟩⟩
  let refused : MipiCfg := { cfg with mode := outputModeDsiCmd, format := 9 }
  ¬Along Driver.next Driver.Disciplined (Driver.init device) [.toHs (some ⟨0, cfg⟩)]
    ∧ ¬Along Driver.next Driver.Disciplined (Driver.init device)
      [.setCntlrCfg (some ⟨0, cfg⟩), .setCntlrCfg (some ⟨0, refused⟩),
        .toHs (some ⟨0, refused⟩)]
  := by
  intro device cfg refused
  constructor
  · rintro ⟨hd, -⟩
    exact absurd (hd.enabled rfl) (by decide)
  · rintro ⟨-, -, hd, -⟩
    have hmode := (hd.agrees outputModeDsiVideo rfl).modeCfg
    revert hmode
    decide +kernel

end MipiDsi
