import KhdfLinux.MipiDsi.Config

/-!
# Commands to the panel

`Hi35xxSetCmd` sends a command, `Hi35xxGetCmd` reads a reply.  What the status registers hold is
the input of the device; the waits for them end after `MIPI_TX_READ_TIMEOUT_CNT` rounds.  Both
write registers of commands only, and nothing unless the driver is configured and in low-power
mode.
-/

namespace MipiDsi

open Exec Registers

/-- `struct DsiCmdDesc`: its payload may be `NULL`. -/
structure DsiCmdDesc where
  dataType : UInt16
  dataLen : UInt16
  payload : Option (Nat → UInt8)

/-- `CmdInfoTag`. -/
structure CmdInfo where
  devno : UInt32
  dataType : UInt16
  cmdSize : UInt16
  cmd : Option (Nat → UInt8)

/-- `GetCmdInfoTag`, without the address of the data, which is not `NULL` where it is tested. -/
structure GetCmdInfo where
  devno : UInt32
  dataType : UInt16
  dataParam : UInt16
  getDataSize : UInt16

/-- What a request meets: whether its buffer is allocated and copied, and what its local header
held before. -/
structure Surroundings where
  allocated : Bool
  copied : Bool
  genHdr : UInt32

/-- `MIPI_TX_READ_TIMEOUT_CNT`. -/
def mipiTxReadTimeoutCnt : Nat := 1000

/-- `MIPI_TX_SET_DATA_SIZE`. -/
def mipiTxSetDataSize : UInt16 := 800

/-- `MIPI_TX_GET_DATA_SIZE`. -/
def mipiTxGetDataSize : UInt16 := 160

/-! ### Waits -/

/-- The bit `n` of a register. -/
def bit (value : UInt32) (n : UInt32) : Bool := (value >>> n) &&& 1 = 1

/-- Read `CMD_PKT_STATUS` while it is `busy`, for as many rounds; the read after the last of them
is a timeout. -/
def waitStatus (busy : UInt32 → Bool) : Nat → DeviceM Reg UInt32 Int
  | 0 => do
      let _ ← read .cmdPktStatus
      pure Hdf.errTimeout
  | rounds + 1 => do
      let cmdPktStatus ← read .cmdPktStatus
      if busy cmdPktStatus then waitStatus busy rounds else pure Hdf.success

/-- `MipiTxWaitCmdFifoEmpty`. -/
def mipiTxWaitCmdFifoEmpty : DeviceM Reg UInt32 Int :=
  waitStatus (fun status => !bit status 0) mipiTxReadTimeoutCnt

/-- `MipiTxWaitWriteFifoEmpty`. -/
def mipiTxWaitWriteFifoEmpty : DeviceM Reg UInt32 Int :=
  waitStatus (fun status => !bit status 2) mipiTxReadTimeoutCnt

/-- `MipiTxWaitWriteFifoNotFull`: its count is tested before it goes up. -/
def mipiTxWaitWriteFifoNotFull : DeviceM Reg UInt32 Int :=
  waitStatus (fun status => bit status 3) (mipiTxReadTimeoutCnt + 1)

/-- The rounds of `MipiTxWaitReadFifoNotEmpty`. -/
def waitReadFifoNotEmpty : Nat → DeviceM Reg UInt32 Int
  | 0 => do
      let intSt1 ← read .intSt1
      let _ ← read .intSt0
      if intSt1 &&& 0x3e ≠ 0 then pure Hdf.failure else pure Hdf.errTimeout
  | rounds + 1 => do
      let intSt1 ← read .intSt1
      let _ ← read .intSt0
      if intSt1 &&& 0x3e ≠ 0 then pure Hdf.failure
      else do
        let cmdPktStatus ← read .cmdPktStatus
        if bit cmdPktStatus 4 then waitReadFifoNotEmpty rounds else pure Hdf.success

/-- `MipiTxWaitReadFifoNotEmpty`. -/
def mipiTxWaitReadFifoNotEmpty : DeviceM Reg UInt32 Int :=
  waitReadFifoNotEmpty (mipiTxReadTimeoutCnt + 1)

/-- Read the payload away, unless there was an error. -/
def clearPayload (intSt1 : UInt32) : DeviceM Reg UInt32 Unit :=
  if bit intSt1 11 then pure () else do
    let _ ← read .genPldData
    pure ()

/-- The rounds of `MipiTxWaitReadFifoEmpty`. -/
def waitReadFifoEmpty : Nat → DeviceM Reg UInt32 Int
  | 0 => do
      let intSt1 ← read .intSt1
      clearPayload intSt1
      pure Hdf.errTimeout
  | rounds + 1 => do
      let intSt1 ← read .intSt1
      clearPayload intSt1
      if bit intSt1 11 then pure Hdf.success else waitReadFifoEmpty rounds

/-- `MipiTxWaitReadFifoEmpty`. -/
def mipiTxWaitReadFifoEmpty : DeviceM Reg UInt32 Int :=
  waitReadFifoEmpty mipiTxReadTimeoutCnt

/-! ### The set command -/

/-- Replace a byte of a register. -/
def setByte (value : UInt32) (n : UInt32) (byte : UInt8) : UInt32 :=
  (value &&& ~~~((0xff : UInt32) <<< (8 * n))) ||| (byte.toUInt32 <<< (8 * n))

/-- The first `j` bytes of a register from a word of the command. -/
def setBytes (value : UInt32) (cmd : Nat → UInt8) (i : Nat) (j : Nat) : UInt32 :=
  (List.range j).foldl (fun value n => setByte value (UInt32.ofNat n) (cmd (4 * i + n))) value

/-- The loop of `MipiTxDrvSetPayloadData`, over the words from `i` on: what `genPldData` holds, or
nothing if a wait failed. -/
def setPayloadWords (cmd : Nat → UInt8) : Nat → Nat → UInt32 → DeviceM Reg UInt32 (Option UInt32)
  | 0, _, genPldData => pure (some genPldData)
  | words + 1, i, genPldData => do
      let genPldData := setBytes genPldData cmd i 4
      let ret ← mipiTxWaitWriteFifoNotFull
      if ret ≠ Hdf.success then pure none
      else do
        write .genPldData genPldData
        setPayloadWords cmd words (i + 1) genPldData

/-- The bytes after the last word. -/
def setPayloadRest (cmd : Nat → UInt8) (i j : Nat) (genPldData : UInt32) :
    DeviceM Reg UInt32 Unit :=
  if j = 0 then pure ()
  else do
    let ret ← mipiTxWaitWriteFifoNotFull
    if ret ≠ Hdf.success then pure () else write .genPldData (setBytes genPldData cmd i j)

/-- `MipiTxDrvSetPayloadData`. -/
def mipiTxDrvSetPayloadData (cmd : Nat → UInt8) (cmdSize : Nat) : DeviceM Reg UInt32 Unit := do
  let genPldData ← read .genPldData
  match ← setPayloadWords cmd (cmdSize / 4) 0 genPldData with
  | none => pure ()
  | some genPldData => setPayloadRest cmd (cmdSize / 4) (cmdSize % 4) genPldData

/-- The data type in a header. -/
def setGenDt (genHdr : UInt32) (dataType : UInt16) : UInt32 :=
  (genHdr &&& ~~~(0x3f : UInt32)) ||| (dataType.toUInt32 &&& 0x3f)

/-- The virtual channel in a header. -/
def setGenVc (genHdr : UInt32) (virtualChannel : UInt8) : UInt32 :=
  (genHdr &&& ~~~(0xc0 : UInt32)) ||| ((virtualChannel.toUInt32 &&& 0x3) <<< 6)

/-- The word count, or the parameter, in a header. -/
def setGenWc (genHdr : UInt32) (count : UInt16) : UInt32 :=
  setByte (setByte genHdr 1 count.toUInt8) 2 (count >>> 8).toUInt8

/-- The header of `MipiTxDrvSetCmdInfo`, and the waits after it. -/
def sendHeader (cmdInfo : CmdInfo) (genHdr : UInt32) : DeviceM Reg UInt32 Int := do
  write .genHdr (setGenWc (setGenDt genHdr cmdInfo.dataType) cmdInfo.cmdSize)
  let ret ← mipiTxWaitCmdFifoEmpty
  if ret ≠ Hdf.success then pure Hdf.failure
  else do
    let ret ← mipiTxWaitWriteFifoEmpty
    if ret ≠ Hdf.success then pure Hdf.failure else pure Hdf.success

/-- `MipiTxDrvSetCmdInfo`. -/
def mipiTxDrvSetCmdInfo (cmdInfo : CmdInfo) (env : Surroundings) : DeviceM Reg UInt32 Int := do
  let genHdr ← read .genHdr
  match cmdInfo.cmd with
  | none => sendHeader cmdInfo genHdr
  | some cmd =>
      if 200 < cmdInfo.cmdSize ∨ cmdInfo.cmdSize = 0 then pure Hdf.errInvalidParam
      else if ¬env.allocated then pure Hdf.errMallocFail
      else if ¬env.copied then pure Hdf.errIo
      else do
        mipiTxDrvSetPayloadData cmd cmdInfo.cmdSize.toNat
        sendHeader cmdInfo genHdr

/-- `MipiTxCheckSetCmdInfo`. -/
def mipiTxCheckSetCmdInfo (enHsMode enCfg : Bool) (cmdInfo : CmdInfo) : Int :=
  if enHsMode then Hdf.failure
  else if ¬enCfg then Hdf.failure
  else if cmdInfo.devno ≠ 0 then Hdf.errInvalidParam
  else if cmdInfo.cmd.isSome ∧ mipiTxSetDataSize < cmdInfo.cmdSize then Hdf.errInvalidParam
  else Hdf.success

/-- `MipiTxSetCmd`. -/
def mipiTxSetCmd (cmdInfo : CmdInfo) (env : Surroundings) : Exec MipiTx Int := do
  let s ← get
  let ret := mipiTxCheckSetCmdInfo s.enHsMode s.enCfg cmdInfo
  if ret ≠ Hdf.success then pure ret else onDevice (mipiTxDrvSetCmdInfo cmdInfo env)

/-- The payload, which is read. -/
def readPayload (cmd : DsiCmdDesc) : Exec MipiTx (Nat → UInt8) :=
  match cmd.payload with
  | none => stop (.fault .nullDeref)
  | some payload => pure payload

/-- `Hi35xxSetCmd`. -/
def hi35xxSetCmd (cmd : Option DsiCmdDesc) (env : Surroundings) : Exec MipiTx Int :=
  match cmd with
  | none => pure Hdf.errInvalidObject
  | some cmd =>
      if 2 < cmd.dataLen then
        mipiTxSetCmd ⟨0, cmd.dataType, cmd.dataLen, cmd.payload⟩ env
      else if cmd.dataLen = 2 then do
        let payload ← readPayload cmd
        let tmp := ((payload 1).toUInt16 <<< 8) ||| (payload 0).toUInt16
        mipiTxSetCmd ⟨0, cmd.dataType, tmp, none⟩ env
      else if cmd.dataLen = 1 then do
        let payload ← readPayload cmd
        mipiTxSetCmd ⟨0, cmd.dataType, (payload 0).toUInt16, none⟩ env
      else pure Hdf.errInvalidParam

/-! ### The get command -/

/-- `MipiTxReset`. -/
def mipiTxReset : RegWrites :=
  [(.pwrUp, 0x0), (.phyRstz, 0xd), (.pwrUp, 0x1), (.phyRstz, 0xf)]

/-- `MipiTxSendShortPacket`. -/
def mipiTxSendShortPacket (virtualChannel : UInt8) (dataType dataParam : UInt16)
    (env : Surroundings) : DeviceM Reg UInt32 Int := do
  write .genHdr (setGenWc (setGenDt (setGenVc env.genHdr virtualChannel) dataType) dataParam)
  let ret ← mipiTxWaitCmdFifoEmpty
  if ret ≠ Hdf.success then pure Hdf.failure else pure Hdf.success

/-- The first `j` bytes of a register. -/
def bytes (pldData : UInt32) (j : Nat) : List UInt8 :=
  (List.range j).map fun n => (pldData >>> (8 * UInt32.ofNat n)).toUInt8

/-- `MipiTxGetReadFifoData`, by its words: what is in `dataBuf`, or nothing if a wait failed. -/
def getReadFifoWords : Nat → Nat → List UInt8 → DeviceM Reg UInt32 (Option (List UInt8))
  | 0, 0, dataBuf => pure (some dataBuf)
  | 0, j + 1, dataBuf => do
      let ret ← mipiTxWaitReadFifoNotEmpty
      if ret ≠ Hdf.success then pure none
      else do
        let pldData ← read .genPldData
        pure (some (dataBuf ++ bytes pldData (j + 1)))
  | words + 1, j, dataBuf => do
      let ret ← mipiTxWaitReadFifoNotEmpty
      if ret ≠ Hdf.success then pure none
      else do
        let pldData ← read .genPldData
        getReadFifoWords words j (dataBuf ++ bytes pldData 4)

/-- `MipiTxGetReadFifoData`. -/
def mipiTxGetReadFifoData (getDataSize : Nat) : DeviceM Reg UInt32 (Option (List UInt8)) :=
  getReadFifoWords (getDataSize / 4) (getDataSize % 4) []

/-- `MipiTxDrvGetCmdInfo`: the code, and the data that is copied. -/
def mipiTxDrvGetCmdInfo (getCmdInfo : GetCmdInfo) (env : Surroundings) :
    DeviceM Reg UInt32 (Int × List UInt8) :=
  if ¬env.allocated then pure (Hdf.errMallocFail, [])
  else do
    let ret ← mipiTxWaitReadFifoEmpty
    if ret ≠ Hdf.success then pure (Hdf.failure, [])
    else do
      let ret ← mipiTxSendShortPacket 0 getCmdInfo.dataType getCmdInfo.dataParam env
      if ret ≠ Hdf.success then pure (Hdf.failure, [])
      else do
        match ← mipiTxGetReadFifoData getCmdInfo.getDataSize.toNat with
        | none => do
            -- a failure blocks the data lane, hence the reset
            writeAll mipiTxReset
            pure (Hdf.failure, [])
        | some dataBuf =>
            if env.copied then pure (Hdf.success, dataBuf) else pure (Hdf.failure, [])

/-- `MipiTxCheckGetCmdInfo`. -/
def mipiTxCheckGetCmdInfo (enHsMode enCfg : Bool) (getCmdInfo : GetCmdInfo) : Int :=
  if enHsMode then Hdf.failure
  else if ¬enCfg then Hdf.failure
  else if getCmdInfo.devno ≠ 0 then Hdf.errInvalidParam
  else if getCmdInfo.getDataSize = 0 ∨ mipiTxGetDataSize < getCmdInfo.getDataSize then
    Hdf.errInvalidParam
  else Hdf.success

/-- `MipiTxGetCmd`. -/
def mipiTxGetCmd (getCmdInfo : GetCmdInfo) (env : Surroundings) :
    Exec MipiTx (Int × List UInt8) := do
  let s ← get
  let ret := mipiTxCheckGetCmdInfo s.enHsMode s.enCfg getCmdInfo
  if ret ≠ Hdf.success then pure (ret, []) else onDevice (mipiTxDrvGetCmdInfo getCmdInfo env)

/-- `Hi35xxGetCmd`, with a buffer or not. -/
def hi35xxGetCmd (cmd : Option DsiCmdDesc) (readLen : UInt32) (out : Bool) (env : Surroundings) :
    Exec MipiTx (Int × List UInt8) :=
  match cmd, out with
  | some cmd, true => do
      let payload ← readPayload cmd
      mipiTxGetCmd ⟨0, cmd.dataType, (payload 0).toUInt16, readLen.toUInt16⟩ env
  | _, _ => pure (Hdf.errInvalidObject, [])

/-! ### What a command writes -/

/-- The registers of commands, and of the reset. -/
def commandRegs : List Reg := [.genPldData, .genHdr, .pwrUp, .phyRstz]

/-- The program writes registers of commands only. -/
abbrev Commands {α : Type} (x : DeviceM Reg UInt32 α) : Prop := Writes (· ∈ commandRegs) x

/-- A wait for `CMD_PKT_STATUS` writes nothing. -/
theorem commands_waitStatus {S : Reg → Prop} (busy : UInt32 → Bool) (rounds : Nat) :
  Writes S (waitStatus busy rounds)
  := by
  induction rounds with
  | zero => exact Writes.bind (Writes.read _) fun _ => Writes.pure _
  | succ rounds ih => exact Writes.bind (Writes.read _) fun _ => Writes.ite ih (Writes.pure _)

/-- A wait for data writes nothing. -/
theorem commands_waitReadFifoNotEmpty {S : Reg → Prop} (rounds : Nat) :
  Writes S (waitReadFifoNotEmpty rounds)
  := by
  induction rounds with
  | zero =>
      apply Writes.bind (Writes.read _)
      intro intSt1
      apply Writes.bind (Writes.read _)
      intro _
      apply Writes.ite (Writes.pure _) (Writes.pure _)
  | succ rounds ih =>
      apply Writes.bind (Writes.read _)
      intro intSt1
      apply Writes.bind (Writes.read _)
      intro _
      apply Writes.ite (Writes.pure _)
      apply Writes.bind (Writes.read _)
      intro cmdPktStatus
      apply Writes.ite ih (Writes.pure _)

/-- Reading the payload away writes nothing. -/
theorem commands_clearPayload {S : Reg → Prop} (intSt1 : UInt32) :
  Writes S (clearPayload intSt1)
  := Writes.ite (Writes.pure _) (Writes.bind (Writes.read _) fun _ => Writes.pure _)

/-- A wait for the end of the data writes nothing. -/
theorem commands_waitReadFifoEmpty {S : Reg → Prop} (rounds : Nat) :
  Writes S (waitReadFifoEmpty rounds)
  := by
  induction rounds with
  | zero =>
      apply Writes.bind (Writes.read _)
      intro intSt1
      apply Writes.bind (commands_clearPayload intSt1) fun _ => Writes.pure _
  | succ rounds ih =>
      apply Writes.bind (Writes.read _)
      intro intSt1
      apply Writes.bind (commands_clearPayload intSt1)
      intro _
      apply Writes.ite (Writes.pure _) ih

/-- The words of a payload are written to `GEN_PLD_DATA`. -/
theorem commands_setPayloadWords (cmd : Nat → UInt8) (words i : Nat) (genPldData : UInt32) :
  Commands (setPayloadWords cmd words i genPldData)
  := by
  induction words generalizing i genPldData with
  | zero => exact Writes.pure _
  | succ words ih =>
      apply Writes.bind (commands_waitStatus _ _)
      intro ret
      apply Writes.ite (Writes.pure _)
      apply Writes.bind (Writes.write _ (by decide))
      intro _
      apply ih (i + 1) _

/-- So are the bytes after them. -/
theorem commands_setPayloadRest (cmd : Nat → UInt8) (i j : Nat) (genPldData : UInt32) :
  Commands (setPayloadRest cmd i j genPldData)
  := by
  apply Writes.ite (Writes.pure _)
  apply Writes.bind (commands_waitStatus _ _)
  intro ret
  exact Writes.ite (Writes.pure _) (Writes.write _ (by decide))

/-- `MipiTxDrvSetPayloadData` writes `GEN_PLD_DATA`. -/
theorem commands_setPayloadData (cmd : Nat → UInt8) (cmdSize : Nat) :
  Commands (mipiTxDrvSetPayloadData cmd cmdSize)
  := by
  apply Writes.bind (Writes.read _)
  intro genPldData
  apply Writes.bind (commands_setPayloadWords cmd _ _ _)
  rintro (_ | genPldData)
  · apply Writes.pure _
  · apply commands_setPayloadRest cmd _ _ _

/-- The header is written to `GEN_HDR`. -/
theorem commands_sendHeader (cmdInfo : CmdInfo) (genHdr : UInt32) :
  Commands (sendHeader cmdInfo genHdr)
  := by
  apply Writes.bind (Writes.write _ (by decide))
  intro _
  apply Writes.bind (commands_waitStatus _ _)
  intro ret
  apply Writes.ite (Writes.pure _)
  apply Writes.bind (commands_waitStatus _ _)
  intro ret
  apply Writes.ite (Writes.pure _) (Writes.pure _)

/-- `MipiTxDrvSetCmdInfo` writes the payload and the header. -/
theorem commands_setCmdInfo (cmdInfo : CmdInfo) (env : Surroundings) :
  Commands (mipiTxDrvSetCmdInfo cmdInfo env)
  := by
  apply Writes.bind (Writes.read _)
  intro genHdr
  cases cmdInfo.cmd with
  | none => exact commands_sendHeader cmdInfo genHdr
  | some cmd =>
      apply Writes.ite (Writes.pure _)
      apply Writes.ite (Writes.pure _)
      apply Writes.ite (Writes.pure _)
      apply Writes.bind (commands_setPayloadData cmd _)
      intro _
      apply commands_sendHeader cmdInfo genHdr

/-- `MipiTxGetReadFifoData` writes nothing. -/
theorem commands_getReadFifoWords {S : Reg → Prop} (words j : Nat) (dataBuf : List UInt8) :
  Writes S (getReadFifoWords words j dataBuf)
  := by
  induction words generalizing dataBuf with
  | zero =>
      cases j with
      | zero => exact Writes.pure _
      | succ j =>
          apply Writes.bind (commands_waitReadFifoNotEmpty _)
          intro ret
          apply Writes.ite (Writes.pure _)
          apply Writes.bind (Writes.read _) fun _ => Writes.pure _
  | succ words ih =>
      apply Writes.bind (commands_waitReadFifoNotEmpty _)
      intro ret
      apply Writes.ite (Writes.pure _)
      apply Writes.bind (Writes.read _)
      intro pldData
      apply ih _

/-- `MipiTxSendShortPacket` writes `GEN_HDR`. -/
theorem commands_sendShortPacket (virtualChannel : UInt8) (dataType dataParam : UInt16)
    (env : Surroundings) :
  Commands (mipiTxSendShortPacket virtualChannel dataType dataParam env)
  := by
  apply Writes.bind (Writes.write _ (by decide))
  intro _
  apply Writes.bind (commands_waitStatus _ _)
  intro ret
  apply Writes.ite (Writes.pure _) (Writes.pure _)

/-- `MipiTxDrvGetCmdInfo` writes the header, and what resets the controller. -/
theorem commands_getCmdInfo (getCmdInfo : GetCmdInfo) (env : Surroundings) :
  Commands (mipiTxDrvGetCmdInfo getCmdInfo env)
  := by
  apply Writes.ite (Writes.pure _)
  apply Writes.bind (commands_waitReadFifoEmpty _)
  intro ret
  apply Writes.ite (Writes.pure _)
  apply Writes.bind (commands_sendShortPacket _ _ _ env)
  intro ret
  apply Writes.ite (Writes.pure _)
  apply Writes.bind (commands_getReadFifoWords _ _ _)
  rintro (_ | dataBuf)
  · apply Writes.bind (Writes.writeAll (by simp [mipiTxReset, commandRegs]))
    intro _
    apply Writes.pure _
  · apply Writes.ite (Writes.pure _) (Writes.pure _)

/-! ### The requests -/

/-- What a command leaves: the mode and the configuration, and nothing at all where the driver is
in high-speed mode or not configured. -/
structure Sent (s t : MipiTx) : Prop where
  enHsMode : t.enHsMode = s.enHsMode
  enCfg : t.enCfg = s.enCfg
  kept : ∀ r, r ∉ commandRegs → t.device.regs r = s.device.regs r
  refused : s.enHsMode ∨ ¬s.enCfg → t = s

/-- A request that does nothing. -/
theorem Sent.refl (s : MipiTx) :
  Sent s s
  := ⟨rfl, rfl, fun _ _ => rfl, fun _ => rfl⟩

variable {s : MipiTx}

/-- A program of commands, for a driver that is configured and in low-power mode. -/
theorem meets_commands {α : Type} {x : DeviceM Reg UInt32 α} (hx : Commands x)
    (hs : ¬(s.enHsMode ∨ ¬s.enCfg)) :
  Meets (onDevice x) s (fun _ t => Sent s t) (fun e t => e = .fault .nullDeref ∧ t = s)
  := by
  show Sent s { s with device := (x s.device).2 }
  exact ⟨rfl, rfl, fun r hr => hx.kept hr s.device, fun h => absurd h hs⟩

/-- A test of the two flags, before the others. -/
theorem flags_of_success {enHsMode enCfg : Bool} {ret : Int}
    (h : (if enHsMode then Hdf.failure else if ¬enCfg then Hdf.failure else ret) = Hdf.success) :
  ¬(enHsMode ∨ ¬enCfg)
  := by
  have hfailure : Hdf.failure ≠ Hdf.success := by decide
  rw [ite_eq_success hfailure, ite_eq_success hfailure] at h
  exact fun hor => hor.elim h.1 h.2.1

/-- `MipiTxSetCmd` sends nothing unless both flags allow it. -/
theorem setCmd_meets (cmdInfo : CmdInfo) (env : Surroundings) :
  Meets (mipiTxSetCmd cmdInfo env) s (fun _ t => Sent s t)
    (fun e t => e = .fault .nullDeref ∧ t = s)
  := by
  show Meets (if mipiTxCheckSetCmdInfo s.enHsMode s.enCfg cmdInfo ≠ Hdf.success then _ else _) s _ _
  split
  · exact meets_pure (Sent.refl s)
  · next hret =>
      apply meets_commands (commands_setCmdInfo cmdInfo env)
      apply flags_of_success (not_not.mp hret)

/-- `MipiTxGetCmd` sends nothing unless both flags allow it. -/
theorem getCmd_meets (getCmdInfo : GetCmdInfo) (env : Surroundings) :
  Meets (mipiTxGetCmd getCmdInfo env) s (fun _ t => Sent s t)
    (fun e t => e = .fault .nullDeref ∧ t = s)
  := by
  show Meets (if mipiTxCheckGetCmdInfo s.enHsMode s.enCfg getCmdInfo ≠ Hdf.success then _ else _)
    s _ _
  split
  · exact meets_pure (Sent.refl s)
  · next hret =>
      apply meets_commands (commands_getCmdInfo getCmdInfo env)
      apply flags_of_success (not_not.mp hret)

/-- What follows the payload. -/
theorem meets_readPayload {α : Type} {cmd : DsiCmdDesc} {f : (Nat → UInt8) → Exec MipiTx α}
    (hf : ∀ payload, Meets (f payload) s (fun _ t => Sent s t)
      (fun e t => e = .fault .nullDeref ∧ t = s)) :
  Meets (readPayload cmd >>= f) s (fun _ t => Sent s t) (fun e t => e = .fault .nullDeref ∧ t = s)
  := by
  apply meets_bind
  unfold readPayload
  cases cmd.payload with
  | none => exact meets_stop ⟨rfl, rfl⟩
  | some payload => exact meets_pure (hf payload)

/-- A set command. -/
theorem hi35xxSetCmd_meets (cmd : Option DsiCmdDesc) (env : Surroundings) :
  Meets (hi35xxSetCmd cmd env) s (fun _ t => Sent s t)
    (fun e t => e = .fault .nullDeref ∧ t = s)
  := by
  unfold hi35xxSetCmd
  cases cmd with
  | none => exact meets_pure (Sent.refl s)
  | some cmd =>
      dsimp only
      split
      · apply setCmd_meets _ env
      split
      · apply meets_readPayload fun payload => setCmd_meets _ env
      split
      · apply meets_readPayload fun payload => setCmd_meets _ env
      · exact meets_pure (Sent.refl s)

/-- A get command. -/
theorem hi35xxGetCmd_meets (cmd : Option DsiCmdDesc) (readLen : UInt32) (out : Bool)
    (env : Surroundings) :
  Meets (hi35xxGetCmd cmd readLen out env) s (fun _ t => Sent s t)
    (fun e t => e = .fault .nullDeref ∧ t = s)
  := by
  unfold hi35xxGetCmd
  split
  · apply meets_readPayload fun payload => getCmd_meets _ env
  · exact meets_pure (Sent.refl s)

end MipiDsi
