import KhdfLinux.Lib.Run
import KhdfLinux.MipiDsi.Packets

/-!
# The link to the panel

The controller makes packets of what is written to `GEN_PLD_DATA` and `GEN_HDR`: a header of a long
type takes as many words of the FIFO as its word count needs.  `panel_receives_iff`: over any
commands, sent with or without success, the FIFO is left empty and the panel receives exactly the
packets that were commanded, as long as each command that is sent has a type that fits its length,
and the FIFO drains.
-/

namespace MipiDsi

open Exec Registers

/-! ### Packets -/

/-- What a packet carries. -/
inductive Body where
  | short (first second : UInt8)
  | long (payload : List UInt8)
  deriving DecidableEq, Repr

/-- A packet on the link. -/
structure Packet where
  channel : UInt32
  dataType : UInt32
  body : Body
  deriving DecidableEq, Repr

/-- The data type of a header. -/
def dataTypeOf (genHdr : UInt32) : UInt32 := genHdr &&& 0x3f

/-- The virtual channel of a header. -/
def channelOf (genHdr : UInt32) : UInt32 := genHdr &&& 0xc0

/-- The FIFO of the payload, and the packets that the panel has received. -/
structure Link where
  fifo : List UInt32
  packets : List Packet
  deriving DecidableEq, Repr

/-- The controller after a write; `long` are the data types of long packets. -/
def Link.write (long : UInt32 → Bool) (l : Link) : Reg × UInt32 → Link
  | (.genPldData, word) => { l with fifo := l.fifo ++ [word] }
  | (.genHdr, genHdr) =>
      if long (dataTypeOf genHdr) then
        let words := (wordCount genHdr + 3) / 4
        { fifo := l.fifo.drop words
          packets := l.packets ++ [⟨channelOf genHdr, dataTypeOf genHdr,
            .long ((unpack (l.fifo.take words)).take (wordCount genHdr))⟩] }
      else
        { l with packets := l.packets ++ [⟨channelOf genHdr, dataTypeOf genHdr,
            .short (byteAt genHdr 1) (byteAt genHdr 2)⟩] }
  | _ => l

/-- The controller after writes. -/
def Link.receive (long : UInt32 → Bool) (l : Link) (ws : RegWrites) : Link :=
  ws.foldl (Link.write long) l

/-! ### Commands -/

/-- A command for the panel, that sets something or asks for a reply. -/
inductive Transfer where
  | set (cmd : DsiCmdDesc) (env : Surroundings)
  | get (cmd : DsiCmdDesc) (readLen : UInt32) (env : Surroundings)

namespace Transfer

/-- The call of the driver. -/
def perform : Transfer → Exec MipiTx Int
  | set cmd env => hi35xxSetCmd (some cmd) env
  | get cmd readLen env => do
      let ret ← hi35xxGetCmd (some cmd) readLen true env
      pure ret.1

/-- The driver after the call. -/
def after (c : Transfer) (tx : MipiTx) : MipiTx :=
  match c.perform.run tx with
  | .ok _ t => t
  | .error _ t => t

/-- What the call writes. -/
def writes (c : Transfer) (tx : MipiTx) : RegWrites :=
  (c.after tx).device.writes.drop tx.device.writes.length

/-- The call sends something. -/
def Sends (c : Transfer) (tx : MipiTx) : Prop := c.writes tx ≠ []

/-- The packet that is commanded: a command of one or two bytes is its parameters, and a longer one
is a payload.  The channel is that of the header register, or the first one for a reply. -/
def packet? (tx : MipiTx) : Transfer → Option Packet
  | set cmd _ => cmd.payload.map fun payload =>
      { channel := channelOf (tx.device.input 0 .genHdr)
        dataType := dataTypeOf cmd.dataType.toUInt32
        body :=
          if 2 < cmd.dataLen then .long ((List.range cmd.dataLen.toNat).map payload)
          else if cmd.dataLen = 2 then .short (payload 0) (payload 1)
          else .short (payload 0) 0 }
  | get cmd _ _ => cmd.payload.map fun payload =>
      { channel := 0, dataType := dataTypeOf cmd.dataType.toUInt32, body := .short (payload 0) 0 }

/-- The type of the command fits its length, and for each word of a payload the FIFO is seen not
full in time. -/
def Fits (long : UInt32 → Bool) (tx : MipiTx) : Transfer → Prop
  | set cmd _ => cmd.payload.isSome ∧ (long (dataTypeOf cmd.dataType.toUInt32) ↔ 2 < cmd.dataLen)
      ∧ (2 < cmd.dataLen → Drains ((cmd.dataLen.toNat + 3) / 4) fun k => tx.device.input (k + 2))
  | get cmd _ _ => ¬long (dataTypeOf cmd.dataType.toUInt32)

end Transfer

/-- The driver, the link and the packets that were commanded. -/
structure Bus where
  tx : MipiTx
  link : Link
  commanded : List Packet

namespace Bus

/-- Nothing was commanded. -/
def start (tx : MipiTx) : Bus := ⟨tx, ⟨[], []⟩, []⟩

/-- After a command. -/
def next (long : UInt32 → Bool) (b : Bus) (c : Transfer) : Bus where
  tx := c.after b.tx
  link := b.link.receive long (c.writes b.tx)
  commanded := b.commanded ++ if c.writes b.tx = [] then [] else (c.packet? b.tx).toList

/-- The panel has received what was commanded, and nothing is left over. -/
def InSync (b : Bus) : Prop := b.link = ⟨[], b.commanded⟩

end Bus

/-! ### Headers -/

section Headers

variable {genHdr : UInt32} {dataType count : UInt16}

theorem dataTypeOf_setGenDt :
  dataTypeOf (setGenDt genHdr dataType) = dataTypeOf dataType.toUInt32
  := by
  unfold dataTypeOf setGenDt
  apply UInt32.toBitVec_inj.mp
  apply BitVec.eq_of_getLsbD_eq
  intro i hi
  interval_cases i <;> simp

theorem channelOf_setGenDt :
  channelOf (setGenDt genHdr dataType) = channelOf genHdr
  := by
  unfold channelOf setGenDt
  apply UInt32.toBitVec_inj.mp
  apply BitVec.eq_of_getLsbD_eq
  intro i hi
  interval_cases i <;> simp

/-- The bytes of the word count are not part of the first byte. -/
theorem dataTypeOf_setGenWc :
  dataTypeOf (setGenWc genHdr count) = dataTypeOf genHdr
  := by
  unfold dataTypeOf setGenWc setByte
  apply UInt32.toBitVec_inj.mp
  apply BitVec.eq_of_getLsbD_eq
  intro i hi
  interval_cases i <;> simp

theorem channelOf_setGenWc :
  channelOf (setGenWc genHdr count) = channelOf genHdr
  := by
  unfold channelOf setGenWc setByte
  apply UInt32.toBitVec_inj.mp
  apply BitVec.eq_of_getLsbD_eq
  intro i hi
  interval_cases i <;> simp

theorem channelOf_setGenVc :
  channelOf (setGenVc genHdr 0) = 0
  := by
  unfold channelOf setGenVc
  apply UInt32.toBitVec_inj.mp
  apply BitVec.eq_of_getLsbD_eq
  intro i hi
  interval_cases i <;> simp

theorem byteAt_setGenWc :
  byteAt (setGenWc genHdr count) 1 = count.toUInt8
    ∧ byteAt (setGenWc genHdr count) 2 = (count >>> 8).toUInt8
  := by
  constructor
  · refine (byteAt_setByte (n := 2) (by decide) (by decide)).trans ?_
    rw [if_neg (by decide)]
    exact (byteAt_setByte (n := 1) (by decide) (by decide)).trans (if_pos rfl)
  · exact (byteAt_setByte (n := 2) (by decide) (by decide)).trans (if_pos rfl)

/-- The parameters of a short packet, out of the word that is made of them. -/
theorem parameters (first second : UInt8) :
  (((second.toUInt16 <<< 8) ||| first.toUInt16) : UInt16).toUInt8 = first
    ∧ ((((second.toUInt16 <<< 8) ||| first.toUInt16) : UInt16) >>> 8).toUInt8 = second
  := by
  constructor
  · apply UInt8.toBitVec_inj.mp
    apply BitVec.eq_of_getLsbD_eq
    intro i hi
    interval_cases i <;> simp
  · apply UInt8.toBitVec_inj.mp
    apply BitVec.eq_of_getLsbD_eq
    intro i hi
    interval_cases i <;> simp

/-- The parameter of a short packet that has one. -/
theorem parameter (first : UInt8) :
  first.toUInt16.toUInt8 = first ∧ (first.toUInt16 >>> 8).toUInt8 = 0
  := by
  have hzero : ((0 : UInt8).toUInt16 <<< 8) ||| first.toUInt16 = first.toUInt16 := UInt16.zero_or
  have hboth := parameters first 0
  rw [hzero] at hboth
  exact hboth

end Headers

/-! ### What the link does with the writes -/

section Receiving

variable {long : UInt32 → Bool} {l : Link} {ws vs : RegWrites} {words : List UInt32}
variable {genHdr : UInt32}

theorem receive_append :
  l.receive long (ws ++ vs) = (l.receive long ws).receive long vs
  := List.foldl_append

theorem receive_words (words : List UInt32) :
  l.receive long (words.map (Prod.mk .genPldData)) = { l with fifo := l.fifo ++ words }
  := by
  induction words generalizing l with
  | nil => simp [Link.receive]
  | cons word words ih =>
      have hstep : l.receive long ((word :: words).map (Prod.mk .genPldData))
          = Link.receive long { l with fifo := l.fifo ++ [word] }
            (words.map (Prod.mk .genPldData)) := rfl
      rw [hstep, ih]
      simp

/-- A payload and its header, for a link that is in sync. -/
theorem receive_packet (packets : List Packet) (words : List UInt32) (genHdr : UInt32) :
  Link.receive long ⟨[], packets⟩ (words.map (Prod.mk .genPldData) ++ [(.genHdr, genHdr)])
    = Link.write long ⟨words, packets⟩ (.genHdr, genHdr)
  := by
  rw [receive_append, receive_words]
  rfl

variable {packets : List Packet} {payload : Nat → UInt8} {n : Nat} {drains : Prop}

/-- A payload that is short of words does not give its packet. -/
theorem take_unpack_ne (hlt : words.length < (n + 3) / 4) (k : Nat) :
  (unpack (words.take k)).take n ≠ (List.range n).map payload
  := by
  intro heq
  have hlength := congrArg List.length heq
  have hunpack : (unpack (words.take k)).length = 4 * (words.take k).length := by
    unfold unpack
    rw [List.length_flatMap]
    simp [length_bytes, List.map_const', Nat.mul_comm]
  rw [List.length_take, hunpack, List.length_take, List.length_map, List.length_range] at hlength
  omega

/-- A long packet arrives exactly if its type is a long one and the FIFO drains. -/
theorem write_long_iff (hcount : wordCount genHdr = n)
    (hsent : drains ∧ Packed payload n words ∨ ¬drains ∧ words.length < (n + 3) / 4) :
  Link.write long ⟨words, packets⟩ (.genHdr, genHdr)
      = ⟨[], packets ++ [⟨channelOf genHdr, dataTypeOf genHdr,
        .long ((List.range n).map payload)⟩]⟩
    ↔ long (dataTypeOf genHdr) ∧ drains
  := by
  unfold Link.write
  dsimp only
  by_cases hlong : long (dataTypeOf genHdr)
  · rw [if_pos hlong, hcount]
    obtain ⟨hdrains, hlength, hunpack⟩ | ⟨hdrains, hlt⟩ := hsent
    · refine iff_of_true ?_ ⟨hlong, hdrains⟩
      rw [← hlength, List.take_length, List.drop_length, hunpack]
    · refine iff_of_false ?_ fun h => hdrains h.2
      intro h
      have hpackets := congrArg Link.packets h
      have hbody := congrArg Packet.body (List.singleton_inj.mp (List.append_cancel_left hpackets))
      exact take_unpack_ne hlt _ (Body.long.inj hbody)
  · rw [if_neg hlong]
    refine iff_of_false ?_ fun h => hlong h.1
    intro h
    have hpackets := congrArg Link.packets h
    have hbody := congrArg Packet.body (List.singleton_inj.mp (List.append_cancel_left hpackets))
    cases hbody

/-- A short packet arrives exactly if its type is not a long one. -/
theorem write_short_iff :
  Link.write long ⟨[], packets⟩ (.genHdr, genHdr)
      = ⟨[], packets ++ [⟨channelOf genHdr, dataTypeOf genHdr,
        .short (byteAt genHdr 1) (byteAt genHdr 2)⟩]⟩
    ↔ ¬long (dataTypeOf genHdr)
  := by
  unfold Link.write
  dsimp only
  by_cases hlong : long (dataTypeOf genHdr)
  · rw [if_pos hlong]
    refine iff_of_false ?_ fun h => h hlong
    intro h
    have hpackets := congrArg Link.packets h
    have hbody := congrArg Packet.body (List.singleton_inj.mp (List.append_cancel_left hpackets))
    cases hbody
  · rw [if_neg hlong]
    exact iff_of_true rfl hlong

/-- A header that was not commanded. -/
theorem write_uncommanded_ne :
  Link.write long ⟨[], packets⟩ (.genHdr, genHdr) ≠ ⟨[], packets⟩
  := by
  intro h
  have hlength := congrArg (fun l : Link => l.packets.length) h
  unfold Link.write at hlength
  dsimp only at hlength
  split at hlength <;> simp at hlength

end Receiving

/-! ### What the calls write -/

section Calls

variable {cmdInfo : CmdInfo} {getCmdInfo : GetCmdInfo} {env : Surroundings} {tx : MipiTx}
variable {d : Device Reg UInt32} {c : Transfer} {ws : RegWrites}

/-- `MipiTxDrvSetCmdInfo` writes nothing, or a header after what it writes of a payload. -/
theorem setCmdInfo_sends (cmdInfo : CmdInfo) (env : Surroundings) (d : Device Reg UInt32) :
  (mipiTxDrvSetCmdInfo cmdInfo env d).2.writes = d.writes
    ∨ ∃ words : List UInt32, (mipiTxDrvSetCmdInfo cmdInfo env d).2.writes
        = d.writes ++ (words.map (Prod.mk .genPldData)
          ++ [(.genHdr, packetHeader cmdInfo (d.input 0 .genHdr))])
      ∧ (cmdInfo.cmd = none → words = [])
      ∧ ∀ payload, cmdInfo.cmd = some payload →
        Drains ((cmdInfo.cmdSize.toNat + 3) / 4) (d.skip 2).input
            ∧ Packed payload cmdInfo.cmdSize.toNat words
          ∨ ¬Drains ((cmdInfo.cmdSize.toNat + 3) / 4) (d.skip 2).input
            ∧ words.length < (cmdInfo.cmdSize.toNat + 3) / 4
  := by
  cases hcmd : cmdInfo.cmd with
  | none =>
      refine .inr ⟨[], ?_, fun _ => rfl, nofun⟩
      unfold mipiTxDrvSetCmdInfo
      rw [bind_apply, hcmd]
      exact sendHeader_writes cmdInfo _ _
  | some payload =>
      by_cases hchecks : ¬(200 < cmdInfo.cmdSize ∨ cmdInfo.cmdSize = 0) ∧ env.allocated ∧ env.copied
      · obtain ⟨hsize, hallocated, hcopied⟩ := hchecks
        obtain ⟨words, hwrites, hsent⟩ := payloadSent payload cmdInfo.cmdSize.toNat (d.skip 1)
        rw [Device.skip_skip] at hwrites hsent
        refine .inr ⟨words, ?_, nofun, ?_⟩
        · rw [setCmdInfo_eq hcmd hsize hallocated hcopied, sendHeader_writes, ← List.append_assoc]
          exact congrArg (· ++ _) hwrites
        · intro payload' h
          cases h
          exact hsent
      · left
        unfold mipiTxDrvSetCmdInfo
        rw [bind_apply, hcmd]
        dsimp only
        split
        · rfl
        split
        · rfl
        split
        · rfl
        next hsize hallocated hcopied =>
          exact absurd ⟨hsize, not_not.mp hallocated, not_not.mp hcopied⟩ hchecks

/-- `MipiTxSendShortPacket` writes a header. -/
theorem sendShortPacket_writes (virtualChannel : UInt8) (dataType dataParam : UInt16)
    (env : Surroundings) (d : Device Reg UInt32) :
  (mipiTxSendShortPacket virtualChannel dataType dataParam env d).2.writes
    = d.writes
      ++ [(.genHdr, setGenWc (setGenDt (setGenVc env.genHdr virtualChannel) dataType) dataParam)]
  := by
  have hwait (d : Device Reg UInt32) : (mipiTxWaitCmdFifoEmpty d).2.writes = d.writes :=
    waitStatus_writes _ _ d
  unfold mipiTxSendShortPacket
  rw [bind_apply, bind_apply]
  split
  · exact hwait _
  · exact hwait _

/-- `MipiTxDrvGetCmdInfo` writes nothing, or a header and maybe the reset. -/
theorem getCmdInfo_sends (getCmdInfo : GetCmdInfo) (env : Surroundings) (d : Device Reg UInt32) :
  (mipiTxDrvGetCmdInfo getCmdInfo env d).2.writes = d.writes
    ∨ ∃ resets, (resets = [] ∨ resets = mipiTxReset)
      ∧ (mipiTxDrvGetCmdInfo getCmdInfo env d).2.writes = d.writes
        ++ (.genHdr, setGenWc (setGenDt (setGenVc env.genHdr 0) getCmdInfo.dataType)
          getCmdInfo.dataParam) :: resets
  := by
  have hempty := (commands_waitReadFifoEmpty mipiTxReadTimeoutCnt).writes_eq d
  unfold mipiTxDrvGetCmdInfo
  split
  · exact .inl rfl
  rw [bind_apply]
  split
  · exact .inl hempty
  right
  rw [bind_apply]
  have hheader := sendShortPacket_writes 0 getCmdInfo.dataType getCmdInfo.dataParam env
    (mipiTxWaitReadFifoEmpty d).2
  rw [show (mipiTxWaitReadFifoEmpty d).2.writes = d.writes from hempty] at hheader
  split
  · exact ⟨[], .inl rfl, hheader⟩
  rw [bind_apply]
  generalize (mipiTxSendShortPacket 0 getCmdInfo.dataType getCmdInfo.dataParam env
    (mipiTxWaitReadFifoEmpty d).2).2 = d' at hheader ⊢
  have hwords : (mipiTxGetReadFifoData getCmdInfo.getDataSize.toNat d').2.writes = d'.writes :=
    (commands_getReadFifoWords _ _ _).writes_eq d'
  rw [hheader] at hwords
  cases (mipiTxGetReadFifoData getCmdInfo.getDataSize.toNat d').1 with
  | none =>
      refine ⟨mipiTxReset, .inr rfl, ?_⟩
      show (mipiTxGetReadFifoData getCmdInfo.getDataSize.toNat d').2.writes ++ mipiTxReset = _
      rw [hwords, List.append_assoc]
      rfl
  | some dataBuf =>
      refine ⟨[], .inl rfl, ?_⟩
      dsimp only
      split
      · exact hwords
      · exact hwords

/-- What a request does, if it passes its checks. -/
theorem setCmd_device (cmdInfo : CmdInfo) (env : Surroundings) (tx : MipiTx) :
  ∃ ret d, (mipiTxSetCmd cmdInfo env).run tx = .ok ret { tx with device := d }
    ∧ (d = tx.device ∨ d = (mipiTxDrvSetCmdInfo cmdInfo env tx.device).2)
  := by
  have hrun : (mipiTxSetCmd cmdInfo env).run tx
      = (if mipiTxCheckSetCmdInfo tx.enHsMode tx.enCfg cmdInfo ≠ Hdf.success
        then pure (mipiTxCheckSetCmdInfo tx.enHsMode tx.enCfg cmdInfo)
        else onDevice (mipiTxDrvSetCmdInfo cmdInfo env) : Exec MipiTx Int).run tx := rfl
  rw [hrun]
  split
  · exact ⟨_, _, rfl, .inl rfl⟩
  · exact ⟨_, _, rfl, .inr rfl⟩

theorem getCmd_device (getCmdInfo : GetCmdInfo) (env : Surroundings) (tx : MipiTx) :
  ∃ ret d, (mipiTxGetCmd getCmdInfo env).run tx = .ok ret { tx with device := d }
    ∧ (d = tx.device ∨ d = (mipiTxDrvGetCmdInfo getCmdInfo env tx.device).2)
  := by
  have hrun : (mipiTxGetCmd getCmdInfo env).run tx
      = (if mipiTxCheckGetCmdInfo tx.enHsMode tx.enCfg getCmdInfo ≠ Hdf.success
        then pure (mipiTxCheckGetCmdInfo tx.enHsMode tx.enCfg getCmdInfo, [])
        else onDevice (mipiTxDrvGetCmdInfo getCmdInfo env) : Exec MipiTx (Int × List UInt8)).run tx
      := rfl
  rw [hrun]
  split
  · exact ⟨_, _, rfl, .inl rfl⟩
  · exact ⟨_, _, rfl, .inr rfl⟩

/-- The writes of a call are what it adds. -/
theorem writes_eq (h : (c.after tx).device.writes = tx.device.writes ++ ws) :
  c.writes tx = ws
  := by
  unfold Transfer.writes
  rw [h, List.drop_left]

/-- A call that leaves the device sends nothing. -/
theorem not_sends (h : (c.after tx).device.writes = tx.device.writes) :
  ¬c.Sends tx
  := fun hsends => hsends (writes_eq (h.trans (List.append_nil _).symm))

/-- A call that is a set request and sends something. -/
theorem setCmd_sends (hperform : c.perform = mipiTxSetCmd cmdInfo env) (hsends : c.Sends tx) :
  ∃ words : List UInt32, c.writes tx = words.map (Prod.mk .genPldData)
        ++ [(.genHdr, packetHeader cmdInfo (tx.device.input 0 .genHdr))]
      ∧ (cmdInfo.cmd = none → words = [])
      ∧ ∀ payload, cmdInfo.cmd = some payload →
        Drains ((cmdInfo.cmdSize.toNat + 3) / 4) (tx.device.skip 2).input
            ∧ Packed payload cmdInfo.cmdSize.toNat words
          ∨ ¬Drains ((cmdInfo.cmdSize.toNat + 3) / 4) (tx.device.skip 2).input
            ∧ words.length < (cmdInfo.cmdSize.toNat + 3) / 4
  := by
  obtain ⟨ret, d, hrun, hd⟩ := setCmd_device cmdInfo env tx
  have hafter : (c.after tx).device = d := by
    unfold Transfer.after
    rw [hperform, hrun]
  obtain rfl | rfl := hd
  · exact absurd hsends (not_sends (congrArg Device.writes hafter))
  obtain hsame | ⟨words, hwrites, hwords⟩ := setCmdInfo_sends cmdInfo env tx.device
  · exact absurd hsends (not_sends ((congrArg Device.writes hafter).trans hsame))
  · exact ⟨words, writes_eq ((congrArg Device.writes hafter).trans hwrites), hwords⟩

/-- The parameters of a short command. -/
def shortParam (cmd : DsiCmdDesc) (payload : Nat → UInt8) : UInt16 :=
  if cmd.dataLen = 2 then ((payload 1).toUInt16 <<< 8) ||| (payload 0).toUInt16
  else (payload 0).toUInt16

variable {cmd : DsiCmdDesc}

/-- A command of more than two bytes that is sent. -/
theorem set_long_sends (hlong : 2 < cmd.dataLen) (hsends : (Transfer.set cmd env).Sends tx) :
  ∃ words : List UInt32, (Transfer.set cmd env).writes tx = words.map (Prod.mk .genPldData)
        ++ [(.genHdr, packetHeader ⟨0, cmd.dataType, cmd.dataLen, cmd.payload⟩
          (tx.device.input 0 .genHdr))]
      ∧ (cmd.payload = none → words = [])
      ∧ ∀ payload, cmd.payload = some payload →
        Drains ((cmd.dataLen.toNat + 3) / 4) (tx.device.skip 2).input
            ∧ Packed payload cmd.dataLen.toNat words
          ∨ ¬Drains ((cmd.dataLen.toNat + 3) / 4) (tx.device.skip 2).input
            ∧ words.length < (cmd.dataLen.toNat + 3) / 4
  := setCmd_sends (if_pos hlong) hsends

/-- A command of one or two bytes that is sent. -/
theorem set_short_sends (hshort : ¬2 < cmd.dataLen) (hsends : (Transfer.set cmd env).Sends tx) :
  ∃ payload, cmd.payload = some payload ∧ (Transfer.set cmd env).writes tx
    = [(.genHdr, packetHeader ⟨0, cmd.dataType, shortParam cmd payload, none⟩
      (tx.device.input 0 .genHdr))]
  := by
  by_cases hnone : cmd.dataLen ≠ 2 ∧ cmd.dataLen ≠ 1
  · refine absurd hsends (not_sends ?_)
    unfold Transfer.after Transfer.perform hi35xxSetCmd
    dsimp only
    rw [if_neg hshort, if_neg hnone.1, if_neg hnone.2]
    rfl
  cases hpayload : cmd.payload with
  | none =>
      refine absurd hsends (not_sends ?_)
      unfold Transfer.after Transfer.perform hi35xxSetCmd readPayload
      dsimp only
      rw [if_neg hshort, hpayload]
      split_ifs
      · rfl
      · rfl
      · rfl
  | some payload =>
      have hperform : (Transfer.set cmd env).perform
          = mipiTxSetCmd ⟨0, cmd.dataType, shortParam cmd payload, none⟩ env := by
        unfold Transfer.perform hi35xxSetCmd readPayload shortParam
        dsimp only
        rw [if_neg hshort, hpayload]
        split_ifs with htwo hone
        · rfl
        · rfl
        · exact absurd ⟨htwo, hone⟩ hnone
      obtain ⟨words, hwrites, hwords, -⟩ := setCmd_sends hperform hsends
      rw [hwords rfl] at hwrites
      exact ⟨payload, rfl, hwrites⟩

/-- A read that is sent. -/
theorem get_sends {readLen : UInt32} (hsends : (Transfer.get cmd readLen env).Sends tx) :
  ∃ payload, cmd.payload = some payload ∧ ∃ resets, (resets = [] ∨ resets = mipiTxReset)
    ∧ (Transfer.get cmd readLen env).writes tx
      = (.genHdr, setGenWc (setGenDt (setGenVc env.genHdr 0) cmd.dataType)
        (payload 0).toUInt16) :: resets
  := by
  cases hpayload : cmd.payload with
  | none =>
      refine absurd hsends (not_sends ?_)
      unfold Transfer.after Transfer.perform hi35xxGetCmd readPayload
      dsimp only
      rw [hpayload]
      rfl
  | some payload =>
      let getCmdInfo : GetCmdInfo := ⟨0, cmd.dataType, (payload 0).toUInt16, readLen.toUInt16⟩
      obtain ⟨ret, d, hrun, hd⟩ := getCmd_device getCmdInfo env tx
      have hperform : (Transfer.get cmd readLen env).perform
          = mipiTxGetCmd getCmdInfo env >>= fun ret => pure ret.1 := by
        unfold Transfer.perform hi35xxGetCmd readPayload
        dsimp only
        rw [hpayload]
        rfl
      have hafter : ((Transfer.get cmd readLen env).after tx).device = d := by
        unfold Transfer.after
        rw [hperform, EStateM.run_bind, hrun]
        rfl
      obtain rfl | rfl := hd
      · exact absurd hsends (not_sends (congrArg Device.writes hafter))
      obtain hsame | ⟨resets, hresets, hwrites⟩ := getCmdInfo_sends getCmdInfo env tx.device
      · exact absurd hsends (not_sends ((congrArg Device.writes hafter).trans hsame))
      · exact ⟨payload, rfl, resets, hresets,
          writes_eq ((congrArg Device.writes hafter).trans hwrites)⟩

end Calls

/-! ### Runs -/

section Runs

variable {long : UInt32 → Bool} {b : Bus} {cmd : DsiCmdDesc} {env : Surroundings}
variable {packets : List Packet} {tx : MipiTx}

theorem parts_packetHeader (cmdInfo : CmdInfo) (genHdr : UInt32) :
  dataTypeOf (packetHeader cmdInfo genHdr) = dataTypeOf cmdInfo.dataType.toUInt32
    ∧ channelOf (packetHeader cmdInfo genHdr) = channelOf genHdr
  := by
  unfold packetHeader
  exact ⟨dataTypeOf_setGenWc.trans dataTypeOf_setGenDt,
    channelOf_setGenWc.trans channelOf_setGenDt⟩

/-- A command of more than two bytes, once it is sent. -/
theorem receive_long_iff (hlong : 2 < cmd.dataLen) (hsends : (Transfer.set cmd env).Sends tx) :
  Link.receive long ⟨[], packets⟩ ((Transfer.set cmd env).writes tx)
      = ⟨[], packets ++ ((Transfer.set cmd env).packet? tx).toList⟩
    ↔ (Transfer.set cmd env).Fits long tx
  := by
  obtain ⟨words, hwrites, hnone, hsome⟩ := set_long_sends hlong hsends
  obtain ⟨htype, hchannel⟩ := parts_packetHeader ⟨0, cmd.dataType, cmd.dataLen, cmd.payload⟩
    (tx.device.input 0 .genHdr)
  rw [hwrites, receive_packet]
  unfold Transfer.packet? Transfer.Fits
  dsimp only
  cases hpayload : cmd.payload with
  | none =>
      -- a header without its payload
      rw [hnone hpayload]
      refine iff_of_false ?_ fun h => Bool.noConfusion h.1
      rw [Option.map_none, Option.toList_none, List.append_nil]
      exact write_uncommanded_ne
  | some payload =>
      rw [hpayload] at htype hchannel
      rw [Option.map_some, Option.toList_some, if_pos hlong, ← htype, ← hchannel,
        write_long_iff (wordCount_packetHeader _ _) (hsome payload hpayload)]
      constructor
      · rintro ⟨hfits, hdrains⟩
        exact ⟨rfl, iff_of_true hfits hlong, fun _ => hdrains⟩
      · rintro ⟨-, hfits, hdrains⟩
        exact ⟨hfits.mpr hlong, hdrains hlong⟩

/-- The bytes of a short command are in its header. -/
theorem body_short (cmd : DsiCmdDesc) (payload : Nat → UInt8) (genHdr : UInt32) :
  Body.short (byteAt (packetHeader ⟨0, cmd.dataType, shortParam cmd payload, none⟩ genHdr) 1)
      (byteAt (packetHeader ⟨0, cmd.dataType, shortParam cmd payload, none⟩ genHdr) 2)
    = if cmd.dataLen = 2 then .short (payload 0) (payload 1) else .short (payload 0) 0
  := by
  unfold packetHeader
  rw [byteAt_setGenWc.1, byteAt_setGenWc.2]
  unfold shortParam
  dsimp only
  split
  · rw [(parameters (payload 0) (payload 1)).1, (parameters (payload 0) (payload 1)).2]
  · rw [(parameter (payload 0)).1, (parameter (payload 0)).2]

/-- A command of one or two bytes, once it is sent. -/
theorem receive_short_iff (hshort : ¬2 < cmd.dataLen)
    (hsends : (Transfer.set cmd env).Sends tx) :
  Link.receive long ⟨[], packets⟩ ((Transfer.set cmd env).writes tx)
      = ⟨[], packets ++ ((Transfer.set cmd env).packet? tx).toList⟩
    ↔ (Transfer.set cmd env).Fits long tx
  := by
  obtain ⟨payload, hpayload, hwrites⟩ := set_short_sends hshort hsends
  obtain ⟨htype, hchannel⟩ := parts_packetHeader
    ⟨0, cmd.dataType, shortParam cmd payload, none⟩ (tx.device.input 0 .genHdr)
  rw [hwrites]
  unfold Transfer.packet? Transfer.Fits
  dsimp only
  rw [hpayload, Option.map_some, Option.toList_some, if_neg hshort, ← htype, ← hchannel,
    ← body_short cmd payload (tx.device.input 0 .genHdr)]
  refine write_short_iff.trans ?_
  constructor
  · intro hfits
    exact ⟨rfl, iff_of_false hfits hshort, fun h => absurd h hshort⟩
  · rintro ⟨-, hfits, -⟩
    exact fun h => hshort (hfits.mp h)

/-- The reset is nothing to the link. -/
theorem receive_reset {l : Link} {resets : RegWrites}
    (h : resets = [] ∨ resets = mipiTxReset) :
  l.receive long resets = l
  := by
  obtain rfl | rfl := h
  · rfl
  · rfl

/-- A read, once it is sent. -/
theorem receive_get_iff {readLen : UInt32} (hsends : (Transfer.get cmd readLen env).Sends tx) :
  Link.receive long ⟨[], packets⟩ ((Transfer.get cmd readLen env).writes tx)
      = ⟨[], packets ++ ((Transfer.get cmd readLen env).packet? tx).toList⟩
    ↔ (Transfer.get cmd readLen env).Fits long tx
  := by
  obtain ⟨payload, hpayload, resets, hresets, hwrites⟩ := get_sends hsends
  let genHdr := setGenWc (setGenDt (setGenVc env.genHdr 0) cmd.dataType) (payload 0).toUInt16
  have htype : dataTypeOf genHdr = dataTypeOf cmd.dataType.toUInt32 :=
    dataTypeOf_setGenWc.trans dataTypeOf_setGenDt
  have hchannel : channelOf genHdr = 0 :=
    channelOf_setGenWc.trans (channelOf_setGenDt.trans channelOf_setGenVc)
  have hfirst : byteAt genHdr 1 = payload 0 := byteAt_setGenWc.1.trans (parameter (payload 0)).1
  have hsecond : byteAt genHdr 2 = 0 := byteAt_setGenWc.2.trans (parameter (payload 0)).2
  have hreceive : Link.receive long ⟨[], packets⟩ ((.genHdr, genHdr) :: resets)
      = Link.write long ⟨[], packets⟩ (.genHdr, genHdr) := receive_reset hresets
  rw [hwrites, hreceive]
  unfold Transfer.packet? Transfer.Fits
  dsimp only
  rw [hpayload, Option.map_some, Option.toList_some, ← htype, ← hfirst, ← hsecond, ← hchannel]
  exact write_short_iff

/-- One call. -/
theorem next_inSync_iff (c : Transfer) (hb : b.InSync) :
  (b.next long c).InSync ↔ (c.Sends b.tx → c.Fits long b.tx)
  := by
  unfold Bus.InSync at hb ⊢
  unfold Bus.next
  dsimp only
  by_cases hsends : c.Sends b.tx
  · rw [if_neg hsends, hb, imp_iff_right hsends]
    cases c with
    | set cmd env =>
        by_cases hlong : 2 < cmd.dataLen
        · exact receive_long_iff hlong hsends
        · exact receive_short_iff hlong hsends
    | get cmd readLen env => exact receive_get_iff hsends
  · rw [not_not.mp hsends, if_pos rfl, hb, List.append_nil]
    exact iff_of_true rfl fun h => absurd h hsends

/-- Over any commands, the panel receives exactly the packets that are commanded, with nothing left
in the FIFO, as long as each command that is sent has a type that fits its length, and the FIFO
drains for it. -/
theorem panel_receives_iff (long : UInt32 → Bool) (tx : MipiTx) (cs : List Transfer) :
  Along (Bus.next long) (fun b c => (b.next long c).InSync) (Bus.start tx) cs
    ↔ Along (Bus.next long) (fun b c => c.Sends b.tx → c.Fits long b.tx) (Bus.start tx) cs
  := by
  have hstep : ∀ (b : Bus) (c : Transfer), b.InSync →
      ((b.next long c).InSync ↔ (c.Sends b.tx → c.Fits long b.tx)) :=
    fun b c hb => next_inSync_iff c hb
  have hstart : (Bus.start tx).InSync := rfl
  exact along_iff hstep (fun b c hb hc => (hstep b c hb).mpr hc) hstart

/-- A command of five bytes, with FIFOs that are empty. -/
example : ((Bus.start ⟨⟨fun _ => 0, [], fun _ _ => 5⟩, true, false, 0⟩).next (· = 0x29)
    (.set ⟨0x29, 5, some UInt8.ofNat⟩ ⟨true, true, 0⟩)).link
  = ⟨[], [⟨0, 0x29, .long [0, 1, 2, 3, 4]⟩]⟩
  := rfl

end Runs

end MipiDsi
