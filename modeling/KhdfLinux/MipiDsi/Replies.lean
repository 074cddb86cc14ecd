import KhdfLinux.MipiDsi.Packets
import KhdfLinux.Lib.Ledger

/-!
# Replies of the panel

`Hi35xxGetCmd` with the buffer that it allocates and the memory that it copies the reply to.
`getCmd_reads_iff` tells for which lengths every call reads as many bytes as it was asked for, or
fails.
-/

namespace MipiDsi.Reply

open Exec Registers

/-- The driver, the temporary buffers, and the memory from `out` on. -/
structure Reader where
  tx : MipiTx
  heap : Ledger
  out : Nat → UInt8

/-- What a request meets: whether its buffer is allocated, what its local header held before,
whether `out` is in user space, and what `copy_to_user` leaves there. -/
structure Surroundings where
  allocated : Bool
  genHdr : UInt32
  userSpace : Bool
  left : Nat

/-- The memory with the data at its start. -/
def overwrite (out : Nat → UInt8) (data : List UInt8) : Nat → UInt8 := fun i =>
  data[i]?.getD (out i)

/-- A program of the device. -/
def device {α : Type} (x : DeviceM Reg UInt32 α) : Exec Reader α := fun s =>
  .ok (x s.tx.device).1 { s with tx := { s.tx with device := (x s.tx.device).2 } }

/-- `OsalMemAlloc`, where it succeeds. -/
def osalMemAlloc : Exec Reader Nat := fun s =>
  .ok s.heap.allocated { s with heap := s.heap.alloc }

/-- `OsalMemFree`. -/
def osalMemFree (dataBuf : Nat) : Exec Reader Unit := fun s =>
  .ok () { s with heap := s.heap.free dataBuf }

/-- Write to `out`. -/
def writeOut (data : List UInt8) : Exec Reader Unit := fun s =>
  .ok () { s with out := overwrite s.out data }

/-- Copy the data to `out`, in user space or in the kernel: whether that succeeds. -/
def copyOut (env : Surroundings) (data : List UInt8) : Exec Reader Bool :=
  if env.userSpace then do
    writeOut (data.take (data.length - env.left))
    pure (env.left = 0)
  else if data.length = 0 then pure false -- `memcpy_s` refuses a destination of no bytes
  else do
    writeOut data
    pure true

/-- The label `fail0`. -/
def fail0 (dataBuf : Nat) : Exec Reader Int := do
  osalMemFree dataBuf
  pure Hdf.failure

/-- `MipiTxDrvGetCmdInfo`, after the allocation. -/
def readReply (getCmdInfo : GetCmdInfo) (env : Surroundings) (dataBuf : Nat) :
    Exec Reader Int := do
  let ret ← device mipiTxWaitReadFifoEmpty
  if ret ≠ Hdf.success then fail0 dataBuf
  else do
    let ret ← device (mipiTxSendShortPacket 0 getCmdInfo.dataType getCmdInfo.dataParam
      ⟨true, true, env.genHdr⟩)
    if ret ≠ Hdf.success then fail0 dataBuf
    else do
      match ← device (mipiTxGetReadFifoData getCmdInfo.getDataSize.toNat) with
      | none => do
          device (writeAll mipiTxReset)
          fail0 dataBuf
      | some data => do
          let copied ← copyOut env data
          if ¬copied then fail0 dataBuf
          else do
            osalMemFree dataBuf
            pure Hdf.success

/-- `MipiTxDrvGetCmdInfo`. -/
def mipiTxDrvGetCmdInfo (getCmdInfo : GetCmdInfo) (env : Surroundings) : Exec Reader Int :=
  if ¬env.allocated then pure Hdf.errMallocFail
  else do
    let dataBuf ← osalMemAlloc
    readReply getCmdInfo env dataBuf

/-- `MipiTxGetCmd`. -/
def mipiTxGetCmd (getCmdInfo : GetCmdInfo) (env : Surroundings) : Exec Reader Int := do
  let s ← get
  let ret := mipiTxCheckGetCmdInfo s.tx.enHsMode s.tx.enCfg getCmdInfo
  if ret ≠ Hdf.success then pure ret else mipiTxDrvGetCmdInfo getCmdInfo env

/-- `Hi35xxGetCmd`, with an `out` or not. -/
def hi35xxGetCmd (cmd : Option DsiCmdDesc) (readLen : UInt32) (out : Bool) (env : Surroundings) :
    Exec Reader Int :=
  match cmd, out with
  | some cmd, true =>
      match cmd.payload with
      | none => stop (.fault .nullDeref)
      | some payload =>
          mipiTxGetCmd ⟨0, cmd.dataType, (payload 0).toUInt16, readLen.toUInt16⟩ env
  | _, _ => pure Hdf.errInvalidObject

/-! ### Reads of the FIFO -/

/-- The device after the FIFO is cleared and the request is sent. -/
def requested (getCmdInfo : GetCmdInfo) (genHdr : UInt32) (d : Device Reg UInt32) :
    Int × Device Reg UInt32 :=
  mipiTxSendShortPacket 0 getCmdInfo.dataType getCmdInfo.dataParam ⟨true, true, genHdr⟩
    (mipiTxWaitReadFifoEmpty d).2

/-- The request is sent, and the FIFO gives the data: as many bytes of its words. -/
structure Reads (getCmdInfo : GetCmdInfo) (genHdr : UInt32) (d : Device Reg UInt32)
    (data : List UInt8) : Prop where
  cleared : (mipiTxWaitReadFifoEmpty d).1 = Hdf.success
  sent : (requested getCmdInfo genHdr d).1 = Hdf.success
  fed : ∃ words, Feeds words (requested getCmdInfo genHdr d).2
    ∧ words.length = (getCmdInfo.getDataSize.toNat + 3) / 4
    ∧ data = (unpack words).take getCmdInfo.getDataSize.toNat

/-- A call leaves the buffers, or frees the one that it allocated. -/
def Released (s t : Reader) : Prop :=
  t.heap = s.heap ∨ t.heap = s.heap.alloc.free s.heap.allocated

/-- What a request does: with success the data are in `out`, and otherwise `out` is unchanged,
unless the copy to user space fails. -/
structure Answers (getCmdInfo : GetCmdInfo) (env : Surroundings) (s : Reader) (ret : Int)
    (t : Reader) : Prop where
  done : ret = Hdf.success → ∃ data, Reads getCmdInfo env.genHdr s.tx.device data
    ∧ t.out = overwrite s.out data
  failed : ret ≠ Hdf.success → t.out = s.out
    ∨ env.userSpace ∧ env.left ≠ 0 ∧ ∃ data, Reads getCmdInfo env.genHdr s.tx.device data
  released : Released s t

/-- What is asked of a call: with success the length is one that can be read, and as many bytes of
the FIFO are in `out`; with any other length it fails and leaves `out`. -/
structure ReadsExactly (getCmdInfo : GetCmdInfo) (readLen : UInt32) (env : Surroundings)
    (s : Reader) (ret : Int) (t : Reader) : Prop where
  done : ret = Hdf.success → (1 ≤ readLen.toNat ∧ readLen.toNat ≤ mipiTxGetDataSize.toNat)
    ∧ ∃ data, data.length = readLen.toNat ∧ Reads getCmdInfo env.genHdr s.tx.device data
      ∧ t.out = overwrite s.out data
  refused : ¬(1 ≤ readLen.toNat ∧ readLen.toNat ≤ mipiTxGetDataSize.toNat) →
    ret ≠ Hdf.success ∧ t.out = s.out
  failed : ret ≠ Hdf.success → t.out = s.out
    ∨ env.userSpace ∧ env.left ≠ 0 ∧ ∃ data, Reads getCmdInfo env.genHdr s.tx.device data
  released : Released s t

section Calls

variable {getCmdInfo : GetCmdInfo} {env : Surroundings} {s t : Reader} {data : List UInt8}
variable {words : List UInt32}

theorem length_unpack (words : List UInt32) :
  (unpack words).length = 4 * words.length
  := by
  induction words with
  | nil => rfl
  | cons word rest ih =>
      rw [unpack_cons, List.length_append, length_bytes, ih, List.length_cons]
      omega

/-- As many bytes are read as there were asked for. -/
theorem Reads.length_eq {d : Device Reg UInt32} {genHdr : UInt32}
    (h : Reads getCmdInfo genHdr d data) :
  data.length = getCmdInfo.getDataSize.toNat
  := by
  obtain ⟨words, -, hlength, rfl⟩ := h.fed
  rw [List.length_take, length_unpack, hlength]
  omega

theorem failure_ne : Hdf.failure ≠ Hdf.success := by decide

/-- A request that fails after the allocation, with `out` unchanged. -/
theorem answers_fail0 {tx : MipiTx} :
  Meets (fail0 s.heap.allocated) { s with tx, heap := s.heap.alloc } (Answers getCmdInfo env s)
    fun _ _ => False
  := ⟨fun h => absurd h failure_ne, fun _ => .inl rfl, .inr rfl⟩

/-- The copy, and what follows. -/
theorem answers_copy {tx : MipiTx} (h : Reads getCmdInfo env.genHdr s.tx.device data)
    (hpos : 0 < data.length) :
  Meets (do
      let copied ← copyOut env data
      if ¬copied then fail0 s.heap.allocated
      else do
        osalMemFree s.heap.allocated
        pure Hdf.success : Exec Reader Int)
    { s with tx, heap := s.heap.alloc } (Answers getCmdInfo env s) fun _ _ => False
  := by
  unfold copyOut
  by_cases huser : env.userSpace
  · rw [if_pos huser, bind_assoc]
    by_cases hleft : env.left = 0
    · rw [hleft, Nat.sub_zero, List.take_length]
      exact ⟨fun _ => ⟨data, h, rfl⟩, fun hne => absurd rfl hne, .inr rfl⟩
    · have hcopied : decide (env.left = 0) = false := decide_eq_false hleft
      rw [hcopied]
      exact ⟨fun heq => absurd heq failure_ne, fun _ => .inr ⟨huser, hleft, data, h⟩, .inr rfl⟩
  · rw [if_neg huser, if_neg (Nat.ne_of_gt hpos)]
    exact ⟨fun _ => ⟨data, h, rfl⟩, fun hne => absurd rfl hne, .inr rfl⟩

/-- A program of the device, and what follows. -/
theorem meets_device {α β : Type} {x : DeviceM Reg UInt32 α} {f : α → Exec Reader β} {u : Reader}
    {Q : β → Reader → Prop} {E : Stop → Reader → Prop}
    (h : Meets (f (x u.tx.device).1)
      { u with tx := { u.tx with device := (x u.tx.device).2 } } Q E) :
  Meets (device x >>= f) u Q E
  := meets_bind h

/-- The reply after the allocation. -/
theorem answers_readReply (hpos : 0 < getCmdInfo.getDataSize.toNat) :
  Meets (readReply getCmdInfo env s.heap.allocated) { s with heap := s.heap.alloc }
    (Answers getCmdInfo env s) fun _ _ => False
  := by
  unfold readReply
  apply meets_device
  split
  · exact answers_fail0
  next hcleared =>
    apply meets_device
    split
    · exact answers_fail0
    next hsent =>
      apply meets_device
      split
      · apply meets_device
        exact answers_fail0
      next data hdata =>
        obtain ⟨words, hfeeds, hlength, heq⟩ := (getReadFifoData_iff _ _).mp hdata
        have hreads : Reads getCmdInfo env.genHdr s.tx.device data :=
          ⟨not_not.mp hcleared, not_not.mp hsent, words, hfeeds, hlength, heq⟩
        apply answers_copy hreads
        rw [hreads.length_eq]
        exact hpos

/-- `MipiTxDrvGetCmdInfo`, for a length that was checked. -/
theorem answers_drvGetCmdInfo (hpos : 0 < getCmdInfo.getDataSize.toNat) :
  Meets (mipiTxDrvGetCmdInfo getCmdInfo env) s (Answers getCmdInfo env s) fun _ _ => False
  := by
  unfold mipiTxDrvGetCmdInfo
  split
  · apply meets_pure
    exact ⟨fun h => absurd h (by decide), fun _ => .inl rfl, .inl rfl⟩
  · apply meets_bind
    exact answers_readReply hpos

/-- The lengths that pass the check. -/
theorem size_of_check {enHsMode enCfg : Bool}
    (h : mipiTxCheckGetCmdInfo enHsMode enCfg getCmdInfo = Hdf.success) :
  1 ≤ getCmdInfo.getDataSize.toNat ∧ getCmdInfo.getDataSize.toNat ≤ mipiTxGetDataSize.toNat
  := by
  unfold mipiTxCheckGetCmdInfo at h
  split at h
  · cases h
  split at h
  · cases h
  split at h
  · cases h
  split at h
  · cases h
  next hsize =>
    obtain ⟨hzero, hle⟩ := not_or.mp hsize
    refine ⟨Nat.pos_of_ne_zero fun hnat => hzero (UInt16.toNat_inj.mp hnat), ?_⟩
    exact UInt16.le_iff_toNat_le.mp (UInt16.not_lt.mp hle)

/-- `MipiTxGetCmd`: a request of a length outside the bounds is refused, and others are passed to
the driver. -/
theorem answers_getCmd (getCmdInfo : GetCmdInfo) (env : Surroundings) (s : Reader) :
  Meets (mipiTxGetCmd getCmdInfo env) s
    (fun ret t => Answers getCmdInfo env s ret t
      ∧ (¬(1 ≤ getCmdInfo.getDataSize.toNat
          ∧ getCmdInfo.getDataSize.toNat ≤ mipiTxGetDataSize.toNat) →
        ret ≠ Hdf.success ∧ t.out = s.out))
    fun _ _ => False
  := by
  show Meets (if mipiTxCheckGetCmdInfo s.tx.enHsMode s.tx.enCfg getCmdInfo ≠ Hdf.success
    then pure _ else _) s _ _
  split
  · next hfails =>
      apply meets_pure
      exact ⟨⟨fun h => absurd h hfails, fun _ => .inl rfl, .inl rfl⟩, fun _ => ⟨hfails, rfl⟩⟩
  · next hcheck =>
      have hsize := size_of_check (not_not.mp hcheck)
      apply (answers_drvGetCmdInfo hsize.1).mono
      · exact fun ret t h => ⟨h, fun hnot => absurd hsize hnot⟩
      · exact fun _ _ h => h

/-- A request whose data are read succeeds, if its buffer is allocated and `out` is in the
kernel. -/
theorem success_of_reads (h : Reads getCmdInfo env.genHdr s.tx.device data)
    (hcheck : mipiTxCheckGetCmdInfo s.tx.enHsMode s.tx.enCfg getCmdInfo = Hdf.success)
    (hallocated : env.allocated) (hkernel : ¬env.userSpace) :
  Meets (mipiTxGetCmd getCmdInfo env) s (fun ret _ => ret = Hdf.success) fun _ _ => False
  := by
  have hpos : data.length ≠ 0 := by
    rw [h.length_eq]
    exact Nat.ne_of_gt (size_of_check hcheck).1
  have hdata := (getReadFifoData_iff _ _).mpr h.fed
  show Meets (if mipiTxCheckGetCmdInfo s.tx.enHsMode s.tx.enCfg getCmdInfo ≠ Hdf.success
    then pure _ else mipiTxDrvGetCmdInfo getCmdInfo env) s _ _
  rw [if_neg (not_not.mpr hcheck)]
  unfold mipiTxDrvGetCmdInfo
  rw [if_neg (not_not.mpr hallocated)]
  apply meets_bind
  show Meets (readReply getCmdInfo env s.heap.allocated) { s with heap := s.heap.alloc } _ _
  unfold readReply
  apply meets_device
  split
  · next hne => exact absurd h.cleared hne
  apply meets_device
  split
  · next hne => exact absurd h.sent hne
  apply meets_device
  split
  · next hnone => cases hnone.symm.trans hdata
  · next data' hdata' =>
      obtain rfl : data' = data := Option.some.inj (hdata'.symm.trans hdata)
      unfold copyOut
      rw [if_neg hkernel, if_neg hpos]
      show Hdf.success = Hdf.success
      rfl

/-! ### A panel that answers -/

/-- The registers of a panel that answers at once: reads of the empty FIFO are an error, the
command FIFO is empty, and there are data to read. -/
def answering : Reg → UInt32
  | .intSt1 => 0x800
  | .cmdPktStatus => 1
  | _ => 0

/-- The wait for data ends at once. -/
theorem waitReadFifoNotEmpty_answering {d : Device Reg UInt32} (h : ∀ k, d.input k = answering) :
  mipiTxWaitReadFifoNotEmpty d = (Hdf.success, d.skip 3)
  := by
  show (if d.input 0 .intSt1 &&& 0x3e ≠ 0 then pure Hdf.failure
    else do
      let cmdPktStatus ← read .cmdPktStatus
      if bit cmdPktStatus 4 then waitReadFifoNotEmpty 1000 else pure Hdf.success :
      DeviceM Reg UInt32 Int) (d.skip 2) = _
  rw [h 0, if_neg (by decide), bind_apply, read_eq]
  show (if bit (d.input (0 + 2) .cmdPktStatus) 4 then waitReadFifoNotEmpty 1000
    else pure Hdf.success : DeviceM Reg UInt32 Int) ((d.skip 2).skip 1) = _
  rw [h, if_neg (by decide), Device.skip_skip]
  rfl

/-- All words are read as zero. -/
theorem feeds_answering (n : Nat) {d : Device Reg UInt32} (h : ∀ k, d.input k = answering) :
  Feeds (List.replicate n 0) d
  := by
  induction n generalizing d with
  | zero => trivial
  | succ n ih =>
      have hwait := waitReadFifoNotEmpty_answering h
      refine ⟨?_, ?_, ?_⟩
      · rw [hwait]
      · rw [hwait]
        show d.input (0 + 3) .genPldData = 0
        rw [h]
        rfl
      · rw [hwait]
        exact ih fun k => h _

/-- A reply of any length is read from such a panel. -/
theorem reads_answering (getCmdInfo : GetCmdInfo) (genHdr : UInt32) {d : Device Reg UInt32}
    (h : ∀ k, d.input k = answering) :
  ∃ data, Reads getCmdInfo genHdr d data
  := by
  have hclear : mipiTxWaitReadFifoEmpty d = (Hdf.success, d.skip 1) := by
    show (do
      clearPayload (d.input 0 .intSt1)
      if bit (d.input 0 .intSt1) 11 then pure Hdf.success
      else waitReadFifoEmpty 999 : DeviceM Reg UInt32 Int) (d.skip 1) = _
    rw [h 0]
    rfl
  have hsent : requested getCmdInfo genHdr d = (Hdf.success,
      ((write .genHdr (setGenWc (setGenDt (setGenVc genHdr 0) getCmdInfo.dataType)
        getCmdInfo.dataParam) : DeviceM Reg UInt32 Unit) (d.skip 1)).2.skip 1) := by
    have hturns : TurnsAfter (fun status => !bit status 0) (d.skip 1).input 0 := by
      refine ⟨nofun, ?_⟩
      show ¬(!bit (d.input (0 + 1) .cmdPktStatus) 0) = true
      rw [h]
      decide
    unfold requested mipiTxSendShortPacket
    rw [hclear, bind_apply, bind_apply]
    have hwait : mipiTxWaitCmdFifoEmpty
        ((write .genHdr (setGenWc (setGenDt (setGenVc genHdr 0) getCmdInfo.dataType)
          getCmdInfo.dataParam) : DeviceM Reg UInt32 Unit) (d.skip 1)).2 = (Hdf.success, _) :=
      waitStatus_of_turnsAfter hturns (by decide)
    rw [hwait, if_neg (not_not.mpr rfl)]
    rfl
  refine ⟨_, by rw [hclear], by rw [hsent], List.replicate _ 0, ?_, List.length_replicate, rfl⟩
  rw [hsent]
  exact feeds_answering _ fun k => h _

/-! ### Lengths -/

/-- The low 16 bits of the length are those of a length that can be read only if it is one. -/
def FitsLength (readLen : UInt32) : Prop :=
  1 ≤ readLen.toNat % 65536 → readLen.toNat % 65536 ≤ 160 → readLen.toNat ≤ 160

/-- The length after it was stored in `getDataSize`. -/
theorem getDataSize_toNat (readLen : UInt32) :
  readLen.toUInt16.toNat = readLen.toNat % 65536
  := UInt32.toNat_toUInt16 readLen

/-- A length that can be read passes the check of a driver that is configured. -/
theorem check_of_size {dataType dataParam getDataSize : UInt16}
    (h : 1 ≤ getDataSize.toNat ∧ getDataSize.toNat ≤ 160) :
  mipiTxCheckGetCmdInfo false true ⟨0, dataType, dataParam, getDataSize⟩ = Hdf.success
  := by
  have hsize : ¬(getDataSize = 0 ∨ mipiTxGetDataSize < getDataSize) := by
    rintro (rfl | hlt)
    · exact Nat.lt_irrefl 0 h.1
    · exact Nat.not_lt.mpr h.2 (UInt16.lt_iff_toNat_lt.mp hlt)
  unfold mipiTxCheckGetCmdInfo
  rw [if_neg (by decide), if_neg (by decide), if_neg (not_not.mpr rfl), if_neg hsize]

/-- A driver that is configured, with a panel that answers. -/
def answeringReader : Reader :=
  ⟨⟨⟨fun _ => 0, [], fun _ => answering⟩, true, false, 0⟩, .empty, fun _ => 0⟩

/-- A length whose low 16 bits can be read is read from such a panel with success. -/
theorem success_answering {readLen : UInt32} (hlow : 1 ≤ readLen.toNat % 65536)
    (hhigh : readLen.toNat % 65536 ≤ 160) :
  ∃ t, (hi35xxGetCmd (some ⟨0, 0, some fun _ => 0⟩) readLen true ⟨true, 0, false, 0⟩).run
    answeringReader = .ok Hdf.success t
  := by
  obtain ⟨data, hreads⟩ := reads_answering ⟨0, 0, 0, readLen.toUInt16⟩ 0
    (d := answeringReader.tx.device) fun _ => rfl
  have hcheck : mipiTxCheckGetCmdInfo false true ⟨0, 0, 0, readLen.toUInt16⟩ = Hdf.success := by
    apply check_of_size
    rw [getDataSize_toNat]
    exact ⟨hlow, hhigh⟩
  have hsuccess : Meets (mipiTxGetCmd ⟨0, 0, 0, readLen.toUInt16⟩ ⟨true, 0, false, 0⟩)
      answeringReader _ _ := success_of_reads hreads hcheck rfl nofun
  obtain ⟨ret, t, hrun, rfl⟩ := hsuccess.ends
  exact ⟨t, hrun⟩

/-- A call whose length is not changed by the narrowing, or is refused after it. -/
theorem readsExactly_of_fits {readLen : UInt32} {ret : Int} {dataType dataParam : UInt16}
    (hfits : FitsLength readLen)
    (h : Answers ⟨0, dataType, dataParam, readLen.toUInt16⟩ env s ret t
      ∧ (¬(1 ≤ readLen.toUInt16.toNat ∧ readLen.toUInt16.toNat ≤ mipiTxGetDataSize.toNat) →
        ret ≠ Hdf.success ∧ t.out = s.out)) :
  ReadsExactly ⟨0, dataType, dataParam, readLen.toUInt16⟩ readLen env s ret t
  := by
  obtain ⟨⟨hdone, hfailed, hreleased⟩, hrefused⟩ := h
  have hmax : mipiTxGetDataSize.toNat = 160 := rfl
  rw [getDataSize_toNat, hmax] at hrefused
  have hsame (hlow : 1 ≤ readLen.toNat % 65536 ∧ readLen.toNat % 65536 ≤ 160) :
      readLen.toNat % 65536 = readLen.toNat ∧ readLen.toNat ≤ 160 := by
    have hle := hfits hlow.1 hlow.2
    omega
  refine ⟨fun hret => ?_, fun hnot => hrefused fun hlow => ?_, hfailed, hreleased⟩
  · have hlow : 1 ≤ readLen.toNat % 65536 ∧ readLen.toNat % 65536 ≤ 160 := by
      by_contra hnot
      exact (hrefused hnot).1 hret
    obtain ⟨heq, hle⟩ := hsame hlow
    obtain ⟨data, hreads, hout⟩ := hdone hret
    refine ⟨⟨heq ▸ hlow.1, hle⟩, data, ?_, hreads, hout⟩
    rw [hreads.length_eq]
    exact (getDataSize_toNat readLen).trans heq
  · obtain ⟨heq, hle⟩ := hsame hlow
    exact hnot ⟨heq ▸ hlow.1, hle⟩

/-- Every call with the length reads exactly as many bytes or fails, exactly if the low 16 bits of
the length are those of a length that can be read only if it is one. -/
theorem getCmd_reads_iff (readLen : UInt32) :
  (∀ (dataType dataLen : UInt16) (payload : Nat → UInt8) (env : Surroundings) (s : Reader),
    Meets (hi35xxGetCmd (some ⟨dataType, dataLen, some payload⟩) readLen true env) s
      (ReadsExactly ⟨0, dataType, (payload 0).toUInt16, readLen.toUInt16⟩ readLen env s)
      fun _ _ => False)
    ↔ FitsLength readLen
  := by
  constructor
  · intro hall hlow hhigh
    obtain ⟨t, hrun⟩ := success_answering hlow hhigh
    exact (((hall 0 0 (fun _ => 0) _ _).of_ok hrun).done rfl).1.2
  · intro hfits dataType dataLen payload env s
    apply (answers_getCmd _ env s).mono
    · exact fun ret t h => readsExactly_of_fits hfits h
    · exact fun _ _ h => h

/-- The length 65540 is taken for 4: the call succeeds, and does not read as many bytes as it was
asked for. -/
theorem getCmd_not_reads :
  ∃ t, (hi35xxGetCmd (some ⟨0, 0, some fun _ => 0⟩) 65540 true ⟨true, 0, false, 0⟩).run
      answeringReader = .ok Hdf.success t
    ∧ (65540 : UInt32).toUInt16 = 4
    ∧ ¬ReadsExactly ⟨0, 0, 0, (65540 : UInt32).toUInt16⟩ 65540 ⟨true, 0, false, 0⟩
      answeringReader Hdf.success t
  := by
  obtain ⟨t, hrun⟩ : ∃ t, (hi35xxGetCmd (some ⟨0, 0, some fun _ => 0⟩) 65540 true
      ⟨true, 0, false, 0⟩).run answeringReader = .ok Hdf.success t :=
    success_answering (by decide) (by decide)
  refine ⟨t, hrun, by decide, fun h => ?_⟩
  exact absurd (h.done rfl).1.2 (by decide)

end Calls

/-! ### Requests without their buffers -/

/-- The execution has the code and the device of the program. -/
def Follows (x : Exec Reader Int) (y : DeviceM Reg UInt32 (Int × List UInt8)) : Prop :=
  ∀ s, Meets x s
    (fun ret t => (y s.tx.device).1.1 = ret ∧ (y s.tx.device).2 = t.tx.device) fun _ _ => False

/-- The surroundings of a request without its buffer. -/
def Surroundings.plain (env : Surroundings) : MipiDsi.Surroundings :=
  ⟨env.allocated, !env.userSpace || env.left == 0, env.genHdr⟩

section Follows

variable {getCmdInfo : GetCmdInfo} {env : Surroundings} {data : List UInt8} {α : Type}
variable {x x' : Exec Reader Int} {y y' : DeviceM Reg UInt32 (Int × List UInt8)}

theorem follows_device {z : DeviceM Reg UInt32 α} {f : α → Exec Reader Int}
    {g : α → DeviceM Reg UInt32 (Int × List UInt8)}
    (h : ∀ d, Follows (f (z d).1) (g (z d).1)) :
  Follows (device z >>= f) (z >>= g)
  := fun s => meets_device (h s.tx.device _)

theorem follows_ite {c : Prop} [Decidable c] (h : Follows x y) (h' : Follows x' y') :
  Follows (if c then x else x') (if c then y else y')
  := by
  split
  · exact h
  · exact h'

theorem follows_fail0 (dataBuf : Nat) :
  Follows (fail0 dataBuf) (pure (Hdf.failure, []))
  := fun _ => ⟨rfl, rfl⟩

/-- The copy of a reply that is not empty. -/
theorem follows_copy (hpos : 0 < data.length) (dataBuf : Nat) :
  Follows (do
      let copied ← copyOut env data
      if ¬copied then fail0 dataBuf
      else do
        osalMemFree dataBuf
        pure Hdf.success)
    (if env.plain.copied then pure (Hdf.success, data) else pure (Hdf.failure, []))
  := by
  intro s
  unfold copyOut Surroundings.plain
  cases huser : env.userSpace with
  | false =>
      rw [if_neg Bool.false_ne_true, if_neg (Nat.ne_of_gt hpos)]
      exact ⟨rfl, rfl⟩
  | true =>
      by_cases hleft : env.left = 0
      · rw [hleft]
        exact ⟨rfl, rfl⟩
      · have hcopied : (env.left == 0) = false := beq_false_of_ne hleft
        have hcopied' : decide (env.left = 0) = false := decide_eq_false hleft
        rw [if_pos rfl, hcopied, hcopied']
        exact ⟨rfl, rfl⟩

/-- `MipiTxDrvGetCmdInfo` reads and writes the device as without its buffer. -/
theorem drvGetCmdInfo_follows (hpos : 0 < getCmdInfo.getDataSize.toNat) :
  Follows (mipiTxDrvGetCmdInfo getCmdInfo env)
    (MipiDsi.mipiTxDrvGetCmdInfo getCmdInfo env.plain)
  := by
  apply follows_ite
  · exact fun _ => ⟨rfl, rfl⟩
  intro s
  apply meets_bind
  show Meets (readReply getCmdInfo env s.heap.allocated) _ _ _
  have hreply : ∀ dataBuf, Follows (readReply getCmdInfo env dataBuf) (do
      let ret ← mipiTxWaitReadFifoEmpty
      if ret ≠ Hdf.success then pure (Hdf.failure, [])
      else do
        let ret ← mipiTxSendShortPacket 0 getCmdInfo.dataType getCmdInfo.dataParam env.plain
        if ret ≠ Hdf.success then pure (Hdf.failure, [])
        else do
          match ← mipiTxGetReadFifoData getCmdInfo.getDataSize.toNat with
          | none => do
              writeAll mipiTxReset
              pure (Hdf.failure, [])
          | some dataBuf =>
              if env.plain.copied then pure (Hdf.success, dataBuf)
              else pure (Hdf.failure, [])) := by
    intro dataBuf
    apply follows_device
    intro d
    apply follows_ite (follows_fail0 dataBuf)
    apply follows_device
    intro d
    apply follows_ite (follows_fail0 dataBuf)
    apply follows_device
    intro d
    cases hdata : (mipiTxGetReadFifoData getCmdInfo.getDataSize.toNat d).1 with
    | none =>
        apply follows_device
        exact fun _ => follows_fail0 dataBuf
    | some data =>
        apply follows_copy
        obtain ⟨words, -, hlength, rfl⟩ := (getReadFifoData_iff _ _).mp hdata
        rw [List.length_take, length_unpack, hlength]
        omega
  exact hreply s.heap.allocated _

end Follows

end MipiDsi.Reply
