import KhdfLinux.Lib.Exec
import KhdfLinux.Lib.Registers
import KhdfLinux.Hdf.Base
import Mathlib.Tactic.IntervalCases

/-!
# The configuration of the MIPI TX controller

`Hi35xxSetCntlrCfg` converts the configuration of the controller, checks it, and writes it to the
registers of the controller and of its phy.  `setCntlrCfg_image_iff`: the registers hold the
configuration that was accepted just where it has lanes and a pixel clock, the products of its
times stay below `2 ^ 32`, and in command mode its `edpiCmdSize` is the one that is written last.
-/

namespace MipiDsi

open Exec Registers

/-! ### Registers -/

/-- The registers of `MipiTxRegsTypeTag` that the driver uses. -/
inductive Reg where
  | pwrUp
  | clkmgrCfg
  | vcid
  | colorCoding
  | lpCmdTim
  | pckhdlCfg
  | genVcid
  | modeCfg
  | vidModeCfg
  | vidPktSize
  | vidNumChunks
  | vidNullSize
  | vidHsaTime
  | vidHbpTime
  | vidHlineTime
  | vidVsaLines
  | vidVbpLines
  | vidVfpLines
  | vidVactiveLines
  | edpiCmdSize
  | cmdModeCfg
  | genHdr
  | genPldData
  | cmdPktStatus
  | lpWrToCnt
  | btaToCnt
  | lpclkCtrl
  | phyTmrLpclkCfg
  | phyTmrCfg
  | phyRstz
  | phyIfCfg
  | phyUlpsCtrl
  | phyTstCtrl0
  | phyTstCtrl1
  | intSt0
  | intSt1
  | intMsk0
  | operationMode
  | datatype0
  | csiCtrl
  deriving DecidableEq, Repr

/-- The writes of registers, in order. -/
abbrev RegWrites := List (Reg × UInt32)

/-! ### Configurations -/

/-- `struct DsiTimingInfo`. -/
structure DsiTimingInfo where
  xPixels : UInt16
  hsaPixels : UInt16
  hbpPixels : UInt16
  hlinePixels : UInt16
  ylines : UInt16
  vsaLines : UInt16
  vbpLines : UInt16
  vfpLines : UInt16
  edpiCmdSize : UInt16
  deriving DecidableEq, Repr

/-- `struct MipiCfg`. -/
structure MipiCfg where
  lane : UInt8
  mode : UInt32
  burstMode : UInt32
  format : UInt32
  phyDataRate : UInt32
  pixelClk : UInt32
  timing : DsiTimingInfo
  deriving DecidableEq, Repr

/-- `struct MipiDsiCntlr`. -/
structure MipiDsiCntlr where
  devNo : UInt32
  cfg : MipiCfg
  deriving DecidableEq, Repr

/-- `OUTPUT_MODE_CSI`. -/
def outputModeCsi : UInt32 := 0

/-- `OUTPUT_MODE_DSI_VIDEO`. -/
def outputModeDsiVideo : UInt32 := 1

/-- `OUTPUT_MODE_DSI_CMD`. -/
def outputModeDsiCmd : UInt32 := 2

/-- `BURST_MODE`. -/
def burstMode : UInt32 := 0

/-- `NON_BURST_MODE_SYNC_PULSES`. -/
def nonBurstModeSyncPulses : UInt32 := 1

/-- `NON_BURST_MODE_SYNC_EVENTS`. -/
def nonBurstModeSyncEvents : UInt32 := 2

/-- `OUT_FORMAT_RGB_16_BIT`. -/
def outFormatRgb16Bit : UInt32 := 0

/-- `OUT_FORMAT_RGB_18_BIT`. -/
def outFormatRgb18Bit : UInt32 := 1

/-- `OUT_FORMAT_RGB_24_BIT`. -/
def outFormatRgb24Bit : UInt32 := 2

/-- `OUT_FORMAT_YUV420_8_BIT_NORMAL`. -/
def outFormatYuv420Normal : UInt32 := 3

/-- `OUT_FORMAT_YUV420_8_BIT_LEGACY`. -/
def outFormatYuv420Legacy : UInt32 := 4

/-- `OUT_FORMAT_YUV422_8_BIT`. -/
def outFormatYuv422 : UInt32 := 5

/-- `LANE_MAX_NUM`. -/
def laneMaxNum : Nat := 4

/-- `MIPI_TX_DISABLE_LANE_ID`. -/
def mipiTxDisableLaneId : Int := -1

/-- `SyncInfoTag`. -/
structure SyncInfo where
  vidPktSize : UInt16
  vidHsaPixels : UInt16
  vidHbpPixels : UInt16
  vidHlinePixels : UInt16
  vidVsaLines : UInt16
  vidVbpLines : UInt16
  vidVfpLines : UInt16
  vidActiveLines : UInt16
  edpiCmdSize : UInt16
  deriving DecidableEq, Repr

/-- `ComboDevCfgTag`. -/
structure ComboDevCfg where
  devno : UInt32
  laneId : List Int
  outputMode : UInt32
  videoMode : UInt32
  outputFormat : UInt32
  syncInfo : SyncInfo
  phyDataRate : UInt32
  pixelClk : UInt32
  deriving DecidableEq, Repr

/-- The driver: the device, `g_enCfg`, `g_enHsMode` and `g_actualPhyDataRate`. -/
structure MipiTx where
  device : Device Reg UInt32
  enCfg : Bool
  enHsMode : Bool
  actualPhyDataRate : UInt32

/-- A program of the device. -/
def onDevice {α : Type} (x : DeviceM Reg UInt32 α) : Exec MipiTx α := fun s =>
  .ok (x s.device).1 { s with device := (x s.device).2 }

/-- `laneId[i] = i` for the lanes from `i` on: an access outside the array has no meaning. -/
def setLaneId : Nat → Nat → List Int → Option (List Int)
  | 0, _, laneId => some laneId
  | n + 1, i, laneId => if i < laneId.length then setLaneId n (i + 1) (laneId.set i i) else none

/-- The fields that `GetDevCfg` copies, with the lanes. -/
def MipiDsiCntlr.dev (cntlr : MipiDsiCntlr) (laneId : List Int) : ComboDevCfg where
  devno := cntlr.devNo
  laneId
  outputMode := cntlr.cfg.mode
  videoMode := cntlr.cfg.burstMode
  outputFormat := cntlr.cfg.format
  syncInfo :=
    { vidPktSize := cntlr.cfg.timing.xPixels
      vidHsaPixels := cntlr.cfg.timing.hsaPixels
      vidHbpPixels := cntlr.cfg.timing.hbpPixels
      vidHlinePixels := cntlr.cfg.timing.hlinePixels
      vidVsaLines := cntlr.cfg.timing.vsaLines
      vidVbpLines := cntlr.cfg.timing.vbpLines
      vidVfpLines := cntlr.cfg.timing.vfpLines
      vidActiveLines := cntlr.cfg.timing.ylines
      edpiCmdSize := cntlr.cfg.timing.edpiCmdSize }
  phyDataRate := cntlr.cfg.phyDataRate
  pixelClk := cntlr.cfg.pixelClk

/-- `GetDevCfg`. -/
def getDevCfg : Option MipiDsiCntlr → Exec MipiTx (Option ComboDevCfg)
  | none => pure none
  | some cntlr =>
      match setLaneId cntlr.cfg.lane.toNat 0 (List.replicate laneMaxNum mipiTxDisableLaneId) with
      | none => stop (.fault .outOfBounds)
      | some laneId => pure (some (cntlr.dev laneId))

/-! ### The phy -/

/-- `MIPI_TX_REF_CLK`. -/
def mipiTxRefClk : UInt32 := 27

/-- `ROUNDUP_VALUE`. -/
def roundupValue : UInt32 := 7999

/-- `INNER_PEROID`. -/
def innerPeroid : UInt32 := 8000

/-- `PREPARE_COMPENSATE`. -/
def prepareCompensate : UInt32 := 10

/-- `SetPhyReg`. -/
def setPhyReg (addr : UInt32) (value : UInt8) : RegWrites :=
  [(.phyTstCtrl1, 0x10000 + addr), (.phyTstCtrl0, 0x2), (.phyTstCtrl0, 0x0),
    (.phyTstCtrl1, value.toUInt32), (.phyTstCtrl0, 0x2), (.phyTstCtrl0, 0x0)]

/-- `MipiTxDrvGetPhyPllSet0`. -/
def mipiTxDrvGetPhyPllSet0 (phyDataRate : UInt32) : UInt8 :=
  if 750 < phyDataRate then 0x0
  else if 375 < phyDataRate then 0x8
  else if 188 < phyDataRate then 0xa
  else if 94 < phyDataRate then 0xc
  else 0xe

/-- The `dataRateClk * pllRef` of `MipiTxDrvGetPhyPllSet1Set5`. -/
def pllMultiplication (phyDataRate : UInt32) (pllSet0 : UInt8) : UInt32 :=
  let dataRateClk := (phyDataRate + mipiTxRefClk - 1) / mipiTxRefClk
  let pllRef :=
    if pllSet0 / 2 = 4 then 2
    else if pllSet0 / 2 = 5 then 4
    else if pllSet0 / 2 = 6 then 8
    else if pllSet0 / 2 = 7 then 16
    else 1
  dataRateClk * pllRef

/-- `MipiTxDrvGetPhyPllSet1Set5`, the two bytes.  The product is never above `INT_MAX_VALUE`
(`pllMultiplication_le`). -/
def mipiTxDrvGetPhyPllSet1Set5 (phyDataRate : UInt32) (pllSet0 : UInt8) : UInt8 × UInt8 :=
  let n := pllMultiplication phyDataRate pllSet0
  if n % 2 ≠ 0 then (0x10, ((n - 1) / 2).toUInt8) else (0x20, (n / 2 - 1).toUInt8)

/-- `MipiTxDrvSetPhyPllSetX`. -/
def mipiTxDrvSetPhyPllSetX (phyDataRate : UInt32) : RegWrites :=
  let pllSet0 := mipiTxDrvGetPhyPllSet0 phyDataRate
  let pllSet1Set5 := mipiTxDrvGetPhyPllSet1Set5 phyDataRate pllSet0
  setPhyReg 0x60 pllSet0 ++ setPhyReg 0x64 pllSet1Set5.1 ++ setPhyReg 0x65 0x2
    ++ setPhyReg 0x66 0x0 ++ setPhyReg 0x67 pllSet1Set5.2

/-- The first value of a prepare time, for `TCLK_PREPARE` and for `THS_PREPARE`. -/
def prepareTime (time rate : UInt32) : UInt8 :=
  let periods := (rate * time + roundupValue) / innerPeroid
  let compensate := (rate * prepareCompensate + roundupValue) / innerPeroid
  (periods - 1 + compensate
    - ((periods + compensate) * innerPeroid - prepareCompensate * rate - time * rate)
      / innerPeroid).toUInt8

/-- `MipiTxDrvGetPhyClkPrepare`. -/
def mipiTxDrvGetPhyClkPrepare (rate : UInt32) : UInt8 :=
  let temp0 := prepareTime 60 rate
  if (temp0.toUInt32 + 1) * innerPeroid - prepareCompensate * rate > 94 * rate then
    if 0 < temp0 then temp0 - 1 else 255
  else
    temp0

/-- `MipiTxDrvGetPhyDataPrepare`. -/
def mipiTxDrvGetPhyDataPrepare (rate : UInt32) : UInt8 :=
  let temp0 := prepareTime 80 rate
  if 105 < rate
      ∧ (temp0.toUInt32 + 1) * innerPeroid - prepareCompensate * rate > 85 * rate + 6 * 1000 then
    if 0 < temp0 then temp0 - 1 else 255
  else
    temp0

/-- `MipiTxPhyTimingParamTag`. -/
structure PhyTimingParam where
  dataTpreDelay : UInt8
  clkTlpx : UInt8
  clkTclkPrepare : UInt8
  clkTclkZero : UInt8
  clkTclkTrail : UInt8
  dataTlpx : UInt8
  dataThsPrepare : UInt8
  dataThsZero : UInt8
  dataThsTrail : UInt8

/-- The periods of a time, rounded up. -/
def phyPeriods (rate time : UInt32) : UInt32 := (rate * time + roundupValue) / innerPeroid

/-- `MipiTxDrvGetPhyTimingParam`. -/
def mipiTxDrvGetPhyTimingParam (rate : UInt32) : PhyTimingParam where
  dataTpreDelay := (phyPeriods rate 100 - 1).toUInt8
  clkTlpx := (phyPeriods rate 60 - 1).toUInt8
  clkTclkPrepare := mipiTxDrvGetPhyClkPrepare rate
  clkTclkZero := if 4 < phyPeriods rate 250 then (phyPeriods rate 250 - 4).toUInt8 else 0
  clkTclkTrail := (phyPeriods rate 80).toUInt8
  dataTlpx := (phyPeriods rate 60 - 1).toUInt8
  dataThsPrepare := mipiTxDrvGetPhyDataPrepare rate
  dataThsZero := if 4 < phyPeriods rate 180 then (phyPeriods rate 180 - 4).toUInt8 else 0
  dataThsTrail := (phyPeriods rate 110 + 1).toUInt8

/-- `MipiTxDrvSetPhyTimingParam`. -/
def mipiTxDrvSetPhyTimingParam (tp : PhyTimingParam) : RegWrites :=
  [0x28, 0x38, 0x48, 0x58].flatMap (setPhyReg · tp.dataTpreDelay)
    ++ setPhyReg 0x10 tp.clkTlpx ++ setPhyReg 0x11 tp.clkTclkPrepare
    ++ setPhyReg 0x12 tp.clkTclkZero ++ setPhyReg 0x13 tp.clkTclkTrail
    ++ [0x20, 0x30, 0x40, 0x50].flatMap fun lane =>
      setPhyReg lane tp.dataTlpx ++ setPhyReg (lane + 1) tp.dataThsPrepare
        ++ setPhyReg (lane + 2) tp.dataThsZero ++ setPhyReg (lane + 3) tp.dataThsTrail

/-- `MipiTxDrvSetPhyHsLpSwitchTime`. -/
def mipiTxDrvSetPhyHsLpSwitchTime (tp : PhyTimingParam) : RegWrites :=
  [(.phyTmrCfg, ((tp.dataThsTrail.toUInt32 - 1) <<< 16) + tp.dataTpreDelay.toUInt32
      + tp.dataTlpx.toUInt32 + tp.dataThsPrepare.toUInt32 + tp.dataThsZero.toUInt32 + 7),
    (.phyTmrLpclkCfg, ((31 + tp.dataThsTrail.toUInt32) <<< 16) + tp.clkTlpx.toUInt32
      + tp.clkTclkPrepare.toUInt32 + tp.clkTclkZero.toUInt32 + 6)]

/-- The data types that `MipiTxDrvSetPhyCfg` sets. -/
def setDatatype (cfg : ComboDevCfg) : RegWrites :=
  if cfg.outputMode = outputModeCsi then
    if cfg.outputFormat = outFormatYuv420Normal then [(.datatype0, 0x10218), (.csiCtrl, 0x1111)]
    else if cfg.outputFormat = outFormatYuv422 then [(.datatype0, 0x1021E), (.csiCtrl, 0x1111)]
    else []
  else if cfg.outputFormat = outFormatRgb16Bit ∨ cfg.outputFormat = outFormatRgb18Bit
      ∨ cfg.outputFormat = outFormatRgb24Bit then
    [(.datatype0, 0x111213D), (.csiCtrl, 0x10100)]
  else []

/-- `MipiTxDrvSetPhyCfg`. -/
def mipiTxDrvSetPhyCfg (cfg : ComboDevCfg) (rate : UInt32) : RegWrites :=
  let tp := mipiTxDrvGetPhyTimingParam rate
  mipiTxDrvSetPhyPllSetX cfg.phyDataRate
    ++ mipiTxDrvSetPhyTimingParam tp
    ++ mipiTxDrvSetPhyHsLpSwitchTime tp
    ++ [(.edpiCmdSize, 0xF0), (.phyRstz, 0xf)]
    ++ setDatatype cfg
    ++ [(.phyRstz, 0xf), (.lpclkCtrl, 0x0)]

/-! ### The controller -/

/-- `SetOutputFormat`. -/
def setOutputFormat (cfg : ComboDevCfg) : RegWrites :=
  let colorCoding :=
    if cfg.outputMode = outputModeCsi then
      if cfg.outputFormat = outFormatYuv420Normal then 0xd
      else if cfg.outputFormat = outFormatYuv422 then 0x1
      else 0
    else
      if cfg.outputFormat = outFormatRgb16Bit then 0x0
      else if cfg.outputFormat = outFormatRgb18Bit then 0x3
      else if cfg.outputFormat = outFormatRgb24Bit then 0x5
      else 0
  [(.colorCoding, colorCoding)]

/-- `SetVideoModeCfg`. -/
def setVideoModeCfg (cfg : ComboDevCfg) : RegWrites :=
  let videoMode :=
    if cfg.outputMode = outputModeCsi ∨ cfg.outputMode = outputModeDsiCmd then 2
    else if cfg.videoMode = nonBurstModeSyncPulses then 0
    else if cfg.videoMode = nonBurstModeSyncEvents then 1
    else 2
  [(.vidModeCfg, 0x3f00 + videoMode)]

/-- A time of `SetTimingConfig`. -/
def timing (rate : UInt32) (pixels : UInt16) (pixelClk : UInt32) : UInt32 :=
  rate * pixels.toUInt32 * 125 / pixelClk

/-- `SetTimingConfig`. -/
def setTimingConfig (cfg : ComboDevCfg) (rate : UInt32) : RegWrites :=
  if cfg.pixelClk = 0 then []
  else
    [(.vidHsaTime, timing rate cfg.syncInfo.vidHsaPixels cfg.pixelClk),
      (.vidHbpTime, timing rate cfg.syncInfo.vidHbpPixels cfg.pixelClk),
      (.vidHlineTime, timing rate cfg.syncInfo.vidHlinePixels cfg.pixelClk),
      (.vidVsaLines, cfg.syncInfo.vidVsaLines.toUInt32),
      (.vidVbpLines, cfg.syncInfo.vidVbpLines.toUInt32),
      (.vidVfpLines, cfg.syncInfo.vidVfpLines.toUInt32),
      (.vidVactiveLines, cfg.syncInfo.vidActiveLines.toUInt32)]

/-- `SetLaneConfig`. -/
def setLaneConfig (laneId : List Int) : RegWrites :=
  [(.phyIfCfg, UInt32.ofNat (laneId.countP (· ≠ -1)) - 1)]

/-- `MipiTxDrvSetClkMgrCfg`. -/
def mipiTxDrvSetClkMgrCfg (rate : UInt32) : RegWrites :=
  if rate / 160 < 2 then [(.clkmgrCfg, 0x102)] else [(.clkmgrCfg, 0x100 + (rate + 159) / 160)]

/-- The `g_actualPhyDataRate` that `MipiTxDrvSetControllerCfg` sets. -/
def actualRate (cfg : ComboDevCfg) : UInt32 :=
  ((cfg.phyDataRate + mipiTxRefClk - 1) / mipiTxRefClk) * mipiTxRefClk

/-- `MipiTxDrvSetControllerCfg`, for the data rate that it sets. -/
def mipiTxDrvSetControllerCfg (cfg : ComboDevCfg) (rate : UInt32) : RegWrites :=
  [(.operationMode, 0x0), (.vcid, 0x0)]
    ++ setOutputFormat cfg
    ++ mipiTxDrvSetClkMgrCfg rate
    ++ [(.cmdModeCfg, 0xffffff00), (.pckhdlCfg, 0x1c), (.genVcid, 0x0), (.modeCfg, 0x1)]
    ++ setVideoModeCfg cfg
    ++ (if cfg.outputMode = outputModeDsiVideo ∨ cfg.outputMode = outputModeCsi then
        [(.vidPktSize, cfg.syncInfo.vidPktSize.toUInt32)]
      else
        [(.edpiCmdSize, cfg.syncInfo.edpiCmdSize.toUInt32)])
    ++ [(.vidNumChunks, 0x0), (.vidNullSize, 0x0)]
    ++ setTimingConfig cfg rate
    ++ [(.lpCmdTim, 0x0), (.phyTmrCfg, 0x9002D), (.phyTmrLpclkCfg, 0x29002E),
      (.edpiCmdSize, 0xF0), (.lpWrToCnt, 0x0), (.btaToCnt, 0x0)]
    ++ setLaneConfig cfg.laneId
    ++ [(.phyUlpsCtrl, 0x0), (.intMsk0, 0x0), (.pwrUp, 0x0), (.pwrUp, 0xf)]

/-! ### The request -/

/-- The tests of `MipiTxCheckCombDevCfg`: the code that is returned. -/
def mipiTxCheckCombDevCfg (enHsMode : Bool) (devCfg : ComboDevCfg) : Int :=
  if enHsMode then Hdf.failure
  else if devCfg.devno ≠ 0 then Hdf.errInvalidParam
  else if ∃ i, i < laneMaxNum ∧ devCfg.laneId[i]? ≠ some (i : Int)
      ∧ devCfg.laneId[i]? ≠ some mipiTxDisableLaneId then
    Hdf.errInvalidParam
  else if devCfg.outputMode ≠ outputModeCsi ∧ devCfg.outputMode ≠ outputModeDsiVideo
      ∧ devCfg.outputMode ≠ outputModeDsiCmd then
    Hdf.errInvalidParam
  else if devCfg.videoMode ≠ burstMode ∧ devCfg.videoMode ≠ nonBurstModeSyncPulses
      ∧ devCfg.videoMode ≠ nonBurstModeSyncEvents then
    Hdf.errInvalidParam
  else if devCfg.outputFormat ≠ outFormatRgb16Bit ∧ devCfg.outputFormat ≠ outFormatRgb18Bit
      ∧ devCfg.outputFormat ≠ outFormatRgb24Bit ∧ devCfg.outputFormat ≠ outFormatYuv420Normal
      ∧ devCfg.outputFormat ≠ outFormatYuv420Legacy ∧ devCfg.outputFormat ≠ outFormatYuv422 then
    Hdf.errInvalidParam
  else Hdf.success

/-- `MipiTxSetComboDevCfg`. -/
def mipiTxSetComboDevCfg (devCfg : ComboDevCfg) : Exec MipiTx Int := do
  let s ← get
  let ret := mipiTxCheckCombDevCfg s.enHsMode devCfg
  if ret ≠ Hdf.success then
    pure ret
  else
    let rate := actualRate devCfg
    modify fun s => { s with actualPhyDataRate := rate }
    onDevice (writeAll (mipiTxDrvSetControllerCfg devCfg rate))
    onDevice (writeAll (mipiTxDrvSetPhyCfg devCfg rate))
    modify fun s => { s with enCfg := true }
    pure ret

/-- `Hi35xxSetCntlrCfg`. -/
def hi35xxSetCntlrCfg (cntlr : Option MipiDsiCntlr) : Exec MipiTx Int := do
  match ← getDevCfg cntlr with
  | none => pure Hdf.errInvalidObject
  | some dev => mipiTxSetComboDevCfg dev

/-! ### Arithmetic -/

/-- The dividend of a division by `MIPI_TX_REF_CLK` that rounds up. -/
theorem roundUp_toNat (phyDataRate : UInt32) :
  (phyDataRate + mipiTxRefClk - 1).toNat = (phyDataRate.toNat + 26) % 2 ^ 32
  := by
  rw [UInt32.toNat_sub, UInt32.toNat_add]
  show (2 ^ 32 - 1 + (phyDataRate.toNat + 27) % 2 ^ 32) % 2 ^ 32 = _
  omega

/-- The product of `MipiTxDrvGetPhyPllSet1Set5` is never refused. -/
theorem pllMultiplication_le (phyDataRate : UInt32) :
  pllMultiplication phyDataRate (mipiTxDrvGetPhyPllSet0 phyDataRate) ≤ 0x7fffffff
  := by
  have hmul (pllRef : UInt32)
      (h : (phyDataRate.toNat + 26) % 2 ^ 32 / 27 * pllRef.toNat ≤ 0x7fffffff) :
      (phyDataRate + mipiTxRefClk - 1) / mipiTxRefClk * pllRef ≤ 0x7fffffff := by
    rw [UInt32.le_iff_toNat_le, UInt32.toNat_mul, UInt32.toNat_div, roundUp_toNat]
    exact (Nat.mod_le _ _).trans h
  unfold pllMultiplication mipiTxDrvGetPhyPllSet0
  apply hmul
  simp only [UInt32.lt_iff_toNat_lt]
  split
  · show _ * 1 ≤ _
    omega
  · next h => 
    have : phyDataRate.toNat ≤ 750 := Nat.le_of_not_lt h
    split 
    · show _ * 2 ≤ _
      omega
    split
    · show _ * 4 ≤ _
      omega
    split
    · show _ * 8 ≤ _
      omega
    · show _ * 16 ≤ _
      omega

/-- The data rate that the driver computes: its sum wraps. -/
theorem actualRate_toNat (cfg : ComboDevCfg) :
  (actualRate cfg).toNat = (cfg.phyDataRate.toNat + 26) % 2 ^ 32 / 27 * 27
  := by
  unfold actualRate
  rw [UInt32.toNat_mul, UInt32.toNat_div, roundUp_toNat]
  show _ / 27 * 27 % 2 ^ 32 = _
  omega

/-- The time that the driver computes: its products wrap. -/
theorem timing_toNat (rate : UInt32) (pixels : UInt16) (pixelClk : UInt32) :
  (timing rate pixels pixelClk).toNat = rate.toNat * pixels.toNat * 125 % 2 ^ 32 / pixelClk.toNat
  := by
  simp [timing, UInt32.toNat_div, UInt32.toNat_mul]

/-- The quotients of two numbers that differ by the divisor. -/
theorem div_ne_div {a b n : Nat} (hn : 0 < n) (h : a + n ≤ b) :
  a / n ≠ b / n
  := by
  have := Nat.div_le_div_right (c := n) h
  rw [Nat.add_div_right a hn] at this
  omega

/-- The data rate, rounded up to a multiple of `MIPI_TX_REF_CLK`. -/
def MipiCfg.rate (cfg : MipiCfg) : Nat := (cfg.phyDataRate.toNat + 26) / 27 * 27

/-- A time is exact just where its product is less than `2 ^ 32`. -/
theorem timing_exact_iff {cfg : MipiCfg} {rate : UInt32} {pixels : UInt16}
    (hrate : rate.toNat = (cfg.phyDataRate.toNat + 26) % 2 ^ 32 / 27 * 27)
    (hclk : cfg.pixelClk ≠ 0) :
  (timing rate pixels cfg.pixelClk).toNat
      = cfg.rate * pixels.toNat * 125 / cfg.pixelClk.toNat
    ↔ cfg.rate * pixels.toNat * 125 < 2 ^ 32
  := by
  have hpos : 0 < cfg.pixelClk.toNat := by
    apply Nat.pos_of_ne_zero
    intro h
    apply hclk
    apply UInt32.toNat_inj.mp h
  have hlt : cfg.pixelClk.toNat < 2 ^ 32 := cfg.pixelClk.toNat_lt
  unfold MipiCfg.rate
  rw [timing_toNat]
  constructor
  · intro heq
    by_contra hge
    revert heq
    apply div_ne_div hpos
    obtain hsmall | hwrap := Nat.lt_or_ge (cfg.phyDataRate.toNat + 26) (2 ^ 32)
    · rw [hrate, Nat.mod_eq_of_lt hsmall]
      have := Nat.mod_lt ((cfg.phyDataRate.toNat + 26) / 27 * 27 * pixels.toNat * 125)
        (Nat.two_pow_pos 32)
      omega
    · -- the sum wraps, and the rate is zero
      have hzero : rate.toNat = 0 := by
        have := cfg.phyDataRate.toNat_lt
        omega
      rw [hzero, Nat.zero_mul, Nat.zero_mul]
      omega
  · intro hbound
    obtain hpixels | hpixels := Nat.eq_zero_or_pos pixels.toNat
    · rw [hpixels, Nat.mul_zero, Nat.mul_zero, Nat.zero_mul, Nat.zero_mod]
    · have hle : (cfg.phyDataRate.toNat + 26) / 27 * 27
          ≤ (cfg.phyDataRate.toNat + 26) / 27 * 27 * pixels.toNat :=
        Nat.le_mul_of_pos_right _ hpixels
      have hsum : cfg.phyDataRate.toNat + 26 < 2 ^ 32 := by omega
      rw [hrate, Nat.mod_eq_of_lt hsum, Nat.mod_eq_of_lt hbound]

/-! ### Lanes -/

/-- The lanes that are written are entries of the array. -/
theorem le_of_setLaneId {n i : Nat} {laneId laneId' : List Int} (hn : 0 < n)
    (h : setLaneId n i laneId = some laneId') :
  i + n ≤ laneId.length
  := by
  induction n generalizing i laneId with
  | zero => cases hn
  | succ n ih =>
      rw [setLaneId] at h
      split at h
      · rename_i hi
        obtain rfl | hn' := Nat.eq_zero_or_pos n
        · apply hi
        · have hle := ih hn' h
          rw [List.length_set] at hle
          omega
      · cases h

/-- The array of `n` lanes. -/
def lanes (n : Nat) : List Int :=
  (List.range n).map Int.ofNat ++ List.replicate (laneMaxNum - n) mipiTxDisableLaneId

/-- The array after the lanes are written. -/
theorem setLaneId_eq {n : Nat} (hn : n ≤ laneMaxNum) :
  setLaneId n 0 (List.replicate laneMaxNum mipiTxDisableLaneId) = some (lanes n)
  := by
  unfold laneMaxNum at hn
  interval_cases n <;> rfl

/-- `MipiTxCheckCombDevCfg` finds nothing wrong with the lanes. -/
theorem lanes_valid {n : Nat} (hn : n ≤ laneMaxNum) :
  ¬∃ i, i < laneMaxNum ∧ (lanes n)[i]? ≠ some (i : Int)
    ∧ (lanes n)[i]? ≠ some mipiTxDisableLaneId
  := by
  unfold laneMaxNum at hn
  interval_cases n <;> decide

/-- `SetLaneConfig` counts the lanes. -/
theorem countP_lanes {n : Nat} (hn : n ≤ laneMaxNum) :
  (lanes n).countP (· ≠ -1) = n
  := by
  unfold laneMaxNum at hn
  interval_cases n <;> rfl

/-- A lane count that fits. -/
theorem getDevCfg_run {cntlr : MipiDsiCntlr} {s : MipiTx}
    (hlane : cntlr.cfg.lane.toNat ≤ laneMaxNum) :
  (getDevCfg (some cntlr)).run s = .ok (some (cntlr.dev (lanes cntlr.cfg.lane.toNat))) s
  := by
  unfold getDevCfg
  dsimp only
  rw [setLaneId_eq hlane]
  rfl

/-- A lane count above the length of the array is written outside it. -/
theorem getDevCfg_fault {cntlr : MipiDsiCntlr} {s : MipiTx}
    (hlane : laneMaxNum < cntlr.cfg.lane.toNat) :
  (getDevCfg (some cntlr)).run s = .error (.fault .outOfBounds) s
  := by
  unfold getDevCfg
  dsimp only
  cases h : setLaneId cntlr.cfg.lane.toNat 0 (List.replicate laneMaxNum mipiTxDisableLaneId) with
  | none => rfl
  | some laneId =>
      have hle := le_of_setLaneId (Nat.zero_lt_of_lt hlane) h
      rw [List.length_replicate] at hle
      omega

/-! ### The image -/

/-- The output mode, the burst mode and the format are among those of the driver. -/
structure MipiCfg.Known (cfg : MipiCfg) : Prop where
  mode : cfg.mode = outputModeCsi ∨ cfg.mode = outputModeDsiVideo ∨ cfg.mode = outputModeDsiCmd
  burstMode : cfg.burstMode = MipiDsi.burstMode ∨ cfg.burstMode = nonBurstModeSyncPulses
    ∨ cfg.burstMode = nonBurstModeSyncEvents
  format : cfg.format = outFormatRgb16Bit ∨ cfg.format = outFormatRgb18Bit
    ∨ cfg.format = outFormatRgb24Bit ∨ cfg.format = outFormatYuv420Normal
    ∨ cfg.format = outFormatYuv420Legacy ∨ cfg.format = outFormatYuv422

/-- A test whose code is an error. -/
theorem ite_eq_success {c : Prop} [Decidable c] {code ret : Int} (h : code ≠ Hdf.success) :
  (if c then code else ret) = Hdf.success ↔ ¬c ∧ ret = Hdf.success
  := by
  split
  · next hc => exact iff_of_false h fun hand => hand.1 hc
  · next hc => exact (and_iff_right hc).symm

/-- The configurations that are accepted. -/
theorem check_dev_iff {cntlr : MipiDsiCntlr} {enHsMode : Bool} {n : Nat} (hn : n ≤ laneMaxNum) :
  mipiTxCheckCombDevCfg enHsMode (cntlr.dev (lanes n)) = Hdf.success
    ↔ enHsMode = false ∧ cntlr.devNo = 0 ∧ cntlr.cfg.Known
  := by
  have hfailure : Hdf.failure ≠ Hdf.success := by decide
  have hparam : Hdf.errInvalidParam ≠ Hdf.success := by decide
  have hlanes := lanes_valid hn
  unfold mipiTxCheckCombDevCfg
  rw [ite_eq_success hfailure]
  simp only [ite_eq_success hparam]
  simp only [ne_eq, not_and_or, not_not]
  constructor
  · rintro ⟨hhs, hdev, -, hmode, hburst, hformat, -⟩
    exact ⟨Bool.eq_false_of_not_eq_true hhs, hdev, hmode, hburst, hformat⟩
  · rintro ⟨rfl, hdev, hmode, hburst, hformat⟩
    exact ⟨Bool.false_ne_true, hdev, hlanes, hmode, hburst, hformat, trivial⟩

/-- The registers hold the configuration. -/
structure Image (cfg : MipiCfg) (regs : Reg → UInt32) : Prop where
  lane : 1 ≤ cfg.lane.toNat ∧ cfg.lane.toNat ≤ laneMaxNum
  phyIfCfg : (regs .phyIfCfg).toNat = cfg.lane.toNat - 1
  pixelClk : cfg.pixelClk ≠ 0
  vidHsaTime : (regs .vidHsaTime).toNat
    = cfg.rate * cfg.timing.hsaPixels.toNat * 125 / cfg.pixelClk.toNat
  vidHbpTime : (regs .vidHbpTime).toNat
    = cfg.rate * cfg.timing.hbpPixels.toNat * 125 / cfg.pixelClk.toNat
  vidHlineTime : (regs .vidHlineTime).toNat
    = cfg.rate * cfg.timing.hlinePixels.toNat * 125 / cfg.pixelClk.toNat
  vidVsaLines : (regs .vidVsaLines).toNat = cfg.timing.vsaLines.toNat
  vidVbpLines : (regs .vidVbpLines).toNat = cfg.timing.vbpLines.toNat
  vidVfpLines : (regs .vidVfpLines).toNat = cfg.timing.vfpLines.toNat
  vidVactiveLines : (regs .vidVactiveLines).toNat = cfg.timing.ylines.toNat
  edpiCmdSize : cfg.mode = outputModeDsiCmd
    → (regs .edpiCmdSize).toNat = cfg.timing.edpiCmdSize.toNat

/-! ### The registers after a configuration -/

section

variable {cfg : ComboDevCfg} {rate : UInt32} {regs : Reg → UInt32}

/-- The registers that `MipiTxDrvSetPhyCfg` writes. -/
def phyRegs : List Reg :=
  [.phyTstCtrl0, .phyTstCtrl1, .phyTmrCfg, .phyTmrLpclkCfg, .edpiCmdSize, .phyRstz, .datatype0,
    .csiCtrl, .lpclkCtrl]

/-- `SetPhyReg` writes the test registers. -/
theorem setPhyReg_regs (addr : UInt32) (value : UInt8) :
  Within (· ∈ phyRegs) (setPhyReg addr value)
  := by
  simp [setPhyReg, phyRegs]

/-- The data types are in registers of the phy. -/
theorem setDatatype_regs :
  Within (· ∈ phyRegs) (setDatatype cfg)
  := by
  simp [setDatatype, within_ite, phyRegs]

/-- `MipiTxDrvSetPhyCfg` writes no register of a time, of the lines or of the lanes. -/
theorem setPhyCfg_regs :
  Within (· ∈ phyRegs) (mipiTxDrvSetPhyCfg cfg rate)
  := by
  simp only [mipiTxDrvSetPhyCfg, mipiTxDrvSetPhyPllSetX, mipiTxDrvSetPhyTimingParam, within_append,
    within_flatMap, setPhyReg_regs, setDatatype_regs]
  simp [mipiTxDrvSetPhyHsLpSwitchTime, phyRegs]

/-- The registers that `SetTimingConfig` writes. -/
def timingRegs : List Reg :=
  [.vidHsaTime, .vidHbpTime, .vidHlineTime, .vidVsaLines, .vidVbpLines, .vidVfpLines,
    .vidVactiveLines]

/-- The phy does not share them. -/
theorem timingRegs_notMem {r : Reg} (h : r ∈ timingRegs) :
  r ∉ phyRegs
  := by
  revert r
  decide

/-- `SetTimingConfig` writes each of them once. -/
theorem setTimingConfig_regs (hclk : cfg.pixelClk ≠ 0) :
  (setTimingConfig cfg rate).map Prod.fst = timingRegs
  := by
  unfold setTimingConfig
  rw [if_neg hclk]
  rfl

/-- What `SetTimingConfig` writes stays. -/
theorem after_timing (hclk : cfg.pixelClk ≠ 0) {w : Reg × UInt32}
    (hw : w ∈ setTimingConfig cfg rate) :
  after regs (mipiTxDrvSetControllerCfg cfg rate ++ mipiTxDrvSetPhyCfg cfg rate) w.1 = w.2
  := by
  have hmem : w.1 ∈ timingRegs := by
    rw [← setTimingConfig_regs hclk]
    apply List.mem_map_of_mem hw
  have hnodup : ((setTimingConfig cfg rate).map Prod.fst).Nodup := by
    rw [setTimingConfig_regs hclk]
    decide
  have hrest (rest : RegWrites) (h : Within (· ∉ timingRegs) rest) (regs : Reg → UInt32) :
      after regs rest w.1 = regs w.1 := h.after_eq (not_not.mpr hmem)
  rw [after_append, setPhyCfg_regs.after_eq (timingRegs_notMem hmem)]
  unfold mipiTxDrvSetControllerCfg setLaneConfig
  rw [after_append, hrest _ (by simp [timingRegs]), after_append, hrest _ (by simp [timingRegs]),
    after_append, hrest _ (by simp [timingRegs]), after_append]
  apply after_of_mem hnodup hw

/-- The times and the lines that an accepted configuration leaves. -/
theorem timing_registers {regs' : Reg → UInt32} (hclk : cfg.pixelClk ≠ 0)
    (hregs : after regs (mipiTxDrvSetControllerCfg cfg rate ++ mipiTxDrvSetPhyCfg cfg rate)
      = regs') :
  regs' .vidHsaTime = timing rate cfg.syncInfo.vidHsaPixels cfg.pixelClk
    ∧ regs' .vidHbpTime = timing rate cfg.syncInfo.vidHbpPixels cfg.pixelClk
    ∧ regs' .vidHlineTime = timing rate cfg.syncInfo.vidHlinePixels cfg.pixelClk
    ∧ regs' .vidVsaLines = cfg.syncInfo.vidVsaLines.toUInt32
    ∧ regs' .vidVbpLines = cfg.syncInfo.vidVbpLines.toUInt32
    ∧ regs' .vidVfpLines = cfg.syncInfo.vidVfpLines.toUInt32
    ∧ regs' .vidVactiveLines = cfg.syncInfo.vidActiveLines.toUInt32
  := by
  have h : ∀ w ∈ setTimingConfig cfg rate, regs' w.1 = w.2 := by
    rw [← hregs]
    exact fun w hw => after_timing hclk hw
  rw [setTimingConfig, if_neg hclk] at h
  simp only [List.forall_mem_cons] at h
  obtain ⟨hhsa, hhbp, hhline, hvsa, hvbp, hvfp, hactive, -⟩ := h
  exact ⟨hhsa, hhbp, hhline, hvsa, hvbp, hvfp, hactive⟩

/-- `PHY_IF_CFG` holds the number of lanes less one, in 32 bits. -/
theorem after_phyIfCfg :
  after regs (mipiTxDrvSetControllerCfg cfg rate ++ mipiTxDrvSetPhyCfg cfg rate) .phyIfCfg
    = UInt32.ofNat (cfg.laneId.countP (· ≠ -1)) - 1
  := by
  rw [after_append, setPhyCfg_regs.after_eq (by decide)]
  simp [mipiTxDrvSetControllerCfg, setLaneConfig]

/-- `EDPI_CMD_SIZE` is overwritten, by the phy too. -/
theorem after_edpiCmdSize :
  after regs (mipiTxDrvSetControllerCfg cfg rate ++ mipiTxDrvSetPhyCfg cfg rate) .edpiCmdSize
    = 0xF0
  := by
  unfold mipiTxDrvSetPhyCfg
  have hdata : Within (· ≠ .edpiCmdSize) (setDatatype cfg) := by
    simp [setDatatype, within_ite]
  simp only [after_append, after_cons, after_nil]
  rw [Function.update_of_ne (by decide), Function.update_of_ne (by decide),
    hdata.after_eq (not_not.mpr rfl), Function.update_of_ne (by decide)]
  apply Function.update_self _ _ _

end

/-! ### The call -/

section

variable {cntlr : MipiDsiCntlr} {s : MipiTx}

/-- The state that an accepted configuration leaves. -/
def MipiTx.configured (s : MipiTx) (dev : ComboDevCfg) : MipiTx :=
  let ws := mipiTxDrvSetControllerCfg dev (actualRate dev)
    ++ mipiTxDrvSetPhyCfg dev (actualRate dev)
  { s with
    device := { s.device with
      regs := after s.device.regs ws
      writes := s.device.writes ++ ws }
    enCfg := true
    actualPhyDataRate := actualRate dev }

/-- The registers of a configured driver. -/
theorem configured_regs {dev : ComboDevCfg} :
  (s.configured dev).device.regs
    = after s.device.regs (mipiTxDrvSetControllerCfg dev (actualRate dev)
      ++ mipiTxDrvSetPhyCfg dev (actualRate dev))
  := rfl

/-- `MipiTxSetComboDevCfg` writes everything, or nothing. -/
theorem setComboDevCfg_run {dev : ComboDevCfg} :
  (mipiTxSetComboDevCfg dev).run s
    = if mipiTxCheckCombDevCfg s.enHsMode dev = Hdf.success then
        .ok Hdf.success (s.configured dev)
      else .ok (mipiTxCheckCombDevCfg s.enHsMode dev) s
  := by
  have hrun : (mipiTxSetComboDevCfg dev).run s
      = if mipiTxCheckCombDevCfg s.enHsMode dev ≠ Hdf.success then
          .ok (mipiTxCheckCombDevCfg s.enHsMode dev) s
        else .ok (mipiTxCheckCombDevCfg s.enHsMode dev) (s.configured dev) := by
    unfold mipiTxSetComboDevCfg
    rw [EStateM.run_bind]
    show (ite _ _ _ : Exec MipiTx Int).run s = _
    split
    · rfl
    · unfold MipiTx.configured
      dsimp only
      rw [after_append, ← List.append_assoc]
      rfl
  rw [hrun, ite_not]
  split
  · next h => rw [h]
  · rfl

/-- A configuration is accepted, and written. -/
theorem setCntlrCfg_run (hlane : cntlr.cfg.lane.toNat ≤ laneMaxNum) (hs : s.enHsMode = false)
    (hdev : cntlr.devNo = 0) (hknown : cntlr.cfg.Known) :
  (hi35xxSetCntlrCfg (some cntlr)).run s
    = .ok Hdf.success (s.configured (cntlr.dev (lanes cntlr.cfg.lane.toNat)))
  := by
  unfold hi35xxSetCntlrCfg
  rw [EStateM.run_bind, getDevCfg_run hlane]
  dsimp only
  rw [setComboDevCfg_run, if_pos ((check_dev_iff hlane).mpr ⟨hs, hdev, hknown⟩)]

/-- A configuration is refused, and nothing is written. -/
theorem setCntlrCfg_refused (hlane : cntlr.cfg.lane.toNat ≤ laneMaxNum)
    (h : ¬(s.enHsMode = false ∧ cntlr.devNo = 0 ∧ cntlr.cfg.Known)) :
  ∃ code, code ≠ Hdf.success ∧ (hi35xxSetCntlrCfg (some cntlr)).run s = .ok code s
  := by
  refine ⟨mipiTxCheckCombDevCfg s.enHsMode (cntlr.dev (lanes cntlr.cfg.lane.toNat)), ?_, ?_⟩
  · rw [ne_eq, check_dev_iff hlane]
    apply h
  · unfold hi35xxSetCntlrCfg
    rw [EStateM.run_bind, getDevCfg_run hlane]
    dsimp only
    rw [setComboDevCfg_run, if_neg ((check_dev_iff hlane).not.mpr h)]

/-- A lane count above `LANE_MAX_NUM` is not refused: lanes are written outside the array. -/
theorem setCntlrCfg_fault (hlane : laneMaxNum < cntlr.cfg.lane.toNat) :
  (hi35xxSetCntlrCfg (some cntlr)).run s = .error (.fault .outOfBounds) s
  := by
  unfold hi35xxSetCntlrCfg
  rw [EStateM.run_bind, getDevCfg_fault hlane]

/-- The configurations that the registers can hold, and for which the writes are exact. -/
structure MipiCfg.Exact (cfg : MipiCfg) : Prop where
  lane : 1 ≤ cfg.lane.toNat
  pixelClk : cfg.pixelClk ≠ 0
  hsaPixels : cfg.rate * cfg.timing.hsaPixels.toNat * 125 < 2 ^ 32
  hbpPixels : cfg.rate * cfg.timing.hbpPixels.toNat * 125 < 2 ^ 32
  hlinePixels : cfg.rate * cfg.timing.hlinePixels.toNat * 125 < 2 ^ 32
  edpiCmdSize : cfg.mode = outputModeDsiCmd → cfg.timing.edpiCmdSize = 0xF0

/-- The registers of an accepted configuration hold it just where it is exact. -/
theorem image_configured_iff (hlane : cntlr.cfg.lane.toNat ≤ laneMaxNum) :
  Image cntlr.cfg (s.configured (cntlr.dev (lanes cntlr.cfg.lane.toNat))).device.regs
    ↔ cntlr.cfg.Exact
  := by
  generalize hdev : cntlr.dev (lanes cntlr.cfg.lane.toNat) = dev
  have hlanes : dev.laneId.countP (· ≠ -1) = cntlr.cfg.lane.toNat := by
    rw [← hdev]
    apply countP_lanes hlane
  rw [configured_regs]
  generalize hregs : after s.device.regs (mipiTxDrvSetControllerCfg dev (actualRate dev)
    ++ mipiTxDrvSetPhyCfg dev (actualRate dev)) = regs
  have hphy : regs .phyIfCfg = UInt32.ofNat cntlr.cfg.lane.toNat - 1 := by
    rw [← hregs, after_phyIfCfg, hlanes]
  have hedpi : regs .edpiCmdSize = 0xF0 := by
    rw [← hregs, after_edpiCmdSize]
  have hrate := actualRate_toNat dev
  have htiming (hclk : dev.pixelClk ≠ 0) := timing_registers hclk hregs
  clear hregs
  generalize actualRate dev = rate at hrate htiming
  subst hdev
  constructor
  · intro h
    obtain ⟨hhsa, hhbp, hhline, -⟩ := htiming h.pixelClk
    constructor
    · exact h.lane.1
    · apply h.pixelClk
    · apply (timing_exact_iff hrate h.pixelClk).mp
      exact (congrArg UInt32.toNat hhsa).symm.trans h.vidHsaTime
    · apply (timing_exact_iff hrate h.pixelClk).mp
      exact (congrArg UInt32.toNat hhbp).symm.trans h.vidHbpTime
    · apply (timing_exact_iff hrate h.pixelClk).mp
      exact (congrArg UInt32.toNat hhline).symm.trans h.vidHlineTime
    · intro hmode
      apply UInt16.toNat_inj.mp
      rw [← h.edpiCmdSize hmode, hedpi]
      rfl
  · intro h
    obtain ⟨hhsa, hhbp, hhline, hvsa, hvbp, hvfp, hactive⟩ := htiming h.pixelClk
    constructor
    · exact ⟨h.lane, hlane⟩
    · rw [hphy]
      have := h.lane
      unfold laneMaxNum at hlane
      interval_cases cntlr.cfg.lane.toNat <;> rfl
    · apply h.pixelClk
    · rw [hhsa]
      exact (timing_exact_iff hrate h.pixelClk).mpr h.hsaPixels
    · rw [hhbp]
      exact (timing_exact_iff hrate h.pixelClk).mpr h.hbpPixels
    · rw [hhline]
      exact (timing_exact_iff hrate h.pixelClk).mpr h.hlinePixels
    · rw [hvsa]
      rfl
    · rw [hvbp]
      rfl
    · rw [hvfp]
      rfl
    · rw [hactive]
      rfl
    · intro hmode
      rw [hedpi, h.edpiCmdSize hmode]
      rfl

/-- `Hi35xxSetCntlrCfg` returns an error, or the registers hold the configuration. -/
def MeetsImage (cntlr : MipiDsiCntlr) (s : MipiTx) : Prop :=
  ∃ code t, (hi35xxSetCntlrCfg (some cntlr)).run s = .ok code t
    ∧ (code = Hdf.success → Image cntlr.cfg t.device.regs)

/-- The image fails for lane counts above `LANE_MAX_NUM`, and for accepted configurations that are
not exact: without a lane or a pixel clock, with a product that wraps, or, in command mode, with
another size than the 0xF0 that is written over it. -/
theorem setCntlrCfg_image_iff (cntlr : MipiDsiCntlr) (s : MipiTx) :
  MeetsImage cntlr s
    ↔ cntlr.cfg.lane.toNat ≤ laneMaxNum
      ∧ (s.enHsMode = false → cntlr.devNo = 0 → cntlr.cfg.Known → cntlr.cfg.Exact)
  := by
  obtain hlane | hlane := Nat.lt_or_ge laneMaxNum cntlr.cfg.lane.toNat
  · apply iff_of_false
    · rintro ⟨code, t, hrun, -⟩
      rw [setCntlrCfg_fault hlane] at hrun
      cases hrun
    · exact fun h => absurd h.1 (Nat.not_le.mpr hlane)
  · rw [and_iff_right hlane]
    by_cases h : s.enHsMode = false ∧ cntlr.devNo = 0 ∧ cntlr.cfg.Known
    · have hrun := setCntlrCfg_run hlane h.1 h.2.1 h.2.2
      have himage := image_configured_iff (s := s) hlane
      constructor
      · rintro ⟨code, t, hrun', ht⟩ - - -
        rw [hrun] at hrun'
        cases hrun'
        apply himage.mp (ht rfl)
      · intro hexact
        exact ⟨_, _, hrun, fun _ => himage.mpr (hexact h.1 h.2.1 h.2.2)⟩
    · obtain ⟨code, hcode, hrun⟩ := setCntlrCfg_refused hlane h
      apply iff_of_true
      · exact ⟨code, s, hrun, fun heq => absurd heq hcode⟩
      · intro hs hdev hknown
        exact absurd ⟨hs, hdev, hknown⟩ h

end

/-- Without lanes, `PHY_IF_CFG` holds `0xffffffff` and the call succeeds. -/
theorem setCntlrCfg_not_image :
  ¬MeetsImage
    { devNo := 0
      cfg :=
        { lane := 0
          mode := outputModeDsiVideo
          burstMode := burstMode
          format := outFormatRgb24Bit
          phyDataRate := 459
          pixelClk := 59400
          timing := ⟨480, 10, 50, 590, 800, 4, 20, 20, 480⟩ } }
    { device := ⟨fun _ => 0, [], fun _ _ => 0⟩
      enCfg := false
      enHsMode := false
      actualPhyDataRate := 0 }
  := by
  rintro ⟨code, t, hrun, himage⟩
  rw [setCntlrCfg_run (by decide) rfl rfl ⟨by decide, by decide, by decide⟩] at hrun
  cases hrun
  exact absurd (himage rfl).lane.1 (by decide)

end MipiDsi
