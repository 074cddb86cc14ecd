import KhdfLinux.Hdf.Base
import Mathlib.Data.BitVec
import Mathlib.Logic.Function.Basic

/-!
# The SPI adapter

The driver keeps a node for each chip select that was opened, and finds it by the chip select in the
calls that follow.  `State.next_openDev_some`, `State.next_setCfg_some`, `State.next_transfer` and
`State.next_close_some` say what each call does: an open binds the node of the current chip select
to the device it finds on the bus, and the others use the device of that node.
-/

namespace Spi

/-! ### The modes -/

/-- `SPI_CLK_PHASE`. -/
def spiClkPhase : BitVec 16 := 0x01

/-- `SPI_CLK_POLARITY`. -/
def spiClkPolarity : BitVec 16 := 0x02

/-- `SPI_MODE_3WIRE`. -/
def spiMode3wire : BitVec 16 := 0x04

/-- `SPI_MODE_LOOP`. -/
def spiModeLoop : BitVec 16 := 0x08

/-- `SPI_MODE_LSBFE`. -/
def spiModeLsbfe : BitVec 16 := 0x10

/-- `SPI_MODE_NOCS`. -/
def spiModeNocs : BitVec 16 := 0x20

/-- `SPI_MODE_CS_HIGH`. -/
def spiModeCsHigh : BitVec 16 := 0x40

/-- `SPI_MODE_READY`. -/
def spiModeReady : BitVec 16 := 0x80

/-- `SPI_CPHA`. -/
def spiCpha : BitVec 16 := 0x01

/-- `SPI_CPOL`. -/
def spiCpol : BitVec 16 := 0x02

/-- `SPI_CS_HIGH`. -/
def spiCsHigh : BitVec 16 := 0x04

/-- `SPI_LSB_FIRST`. -/
def spiLsbFirst : BitVec 16 := 0x08

/-- `SPI_3WIRE`. -/
def spi3wire : BitVec 16 := 0x10

/-- `SPI_LOOP`. -/
def spiLoop : BitVec 16 := 0x20

/-- `SPI_NO_CS`. -/
def spiNoCs : BitVec 16 := 0x40

/-- `SPI_READY`. -/
def spiReady : BitVec 16 := 0x80

/-- The bit `image` if the mode has the bit `bit`. -/
def modeBit (mode bit image : BitVec 16) : BitVec 16 := if mode &&& bit ≠ 0 then image else 0

/-- `HdfSpiModeToLinuxMode`. -/
def hdfSpiModeToLinuxMode (mode : BitVec 16) : BitVec 16 :=
  modeBit mode spiClkPhase spiCpha
    ||| modeBit mode spiClkPolarity spiCpol
    ||| modeBit mode spiModeCsHigh spiCsHigh
    ||| modeBit mode spiModeLsbfe spiLsbFirst
    ||| modeBit mode spiMode3wire spi3wire
    ||| modeBit mode spiModeLoop spiLoop
    ||| modeBit mode spiModeNocs spiNoCs
    ||| modeBit mode spiModeReady spiReady

/-- `LinuxSpiModeToHdfMode`. -/
def linuxSpiModeToHdfMode (mode : BitVec 16) : BitVec 16 :=
  modeBit mode spiCpha spiClkPhase
    ||| modeBit mode spiCpol spiClkPolarity
    ||| modeBit mode spiCsHigh spiModeCsHigh
    ||| modeBit mode spiLsbFirst spiModeLsbfe
    ||| modeBit mode spi3wire spiMode3wire
    ||| modeBit mode spiLoop spiModeLoop
    ||| modeBit mode spiNoCs spiModeNocs
    ||| modeBit mode spiReady spiModeReady

/-- Only the low bits of a mode are known. -/
theorem hdfSpiModeToLinuxMode_and (mode : BitVec 16) :
  hdfSpiModeToLinuxMode (mode &&& 0xff) = hdfSpiModeToLinuxMode mode
  := by
  unfold hdfSpiModeToLinuxMode modeBit
  simp only [BitVec.and_assoc]
  rfl

/-- The low bits of a mode come back. -/
theorem linuxSpiModeToHdfMode_hdfSpiModeToLinuxMode (mode : BitVec 16) :
  linuxSpiModeToHdfMode (hdfSpiModeToLinuxMode mode) = mode &&& 0xff
  := by
  have hlow : ∀ low : BitVec 8,
      linuxSpiModeToHdfMode (hdfSpiModeToLinuxMode (low.setWidth 16)) = low.setWidth 16 := by
    decide +kernel
  have hmode : mode &&& 0xff = (mode.setWidth 8).setWidth 16 := by
    have hmod := Nat.and_two_pow_sub_one_eq_mod mode.toNat 8
    apply BitVec.eq_of_toNat_eq
    simp at hmod ⊢
    omega
  rw [← hdfSpiModeToLinuxMode_and, hmode, hlow]

/-! ### The controller -/

/-- A `struct spi_device` of the bus: the number of its master's bus, if it has a master, and its
chip select. -/
structure SpiDevice where
  master : Option (BitVec 16)
  chipSelect : Nat
  deriving DecidableEq, Repr

/-- What of a `struct spi_device` is set up. -/
structure Settings where
  bitsPerWord : BitVec 8
  maxSpeedHz : BitVec 32
  mode : BitVec 16
  deriving DecidableEq, Repr

/-- `SPI_INTERRUPT_TRANSFER`, and any other value. -/
inductive TransferMode where
  | interrupt
  | other (value : Nat)
  deriving DecidableEq, Repr

/-- `struct SpiCfg`. -/
structure SpiCfg where
  maxSpeedHz : BitVec 32
  mode : BitVec 16
  transferMode : TransferMode
  bitsPerWord : BitVec 8
  deriving DecidableEq, Repr

/-- What is written to a device for a configuration. -/
def SpiCfg.written (cfg : SpiCfg) : Settings :=
  ⟨cfg.bitsPerWord, cfg.maxSpeedHz, hdfSpiModeToLinuxMode cfg.mode⟩

/-- `struct SpiDev`, the device of a node by its place on the bus. -/
structure SpiDev where
  csNum : Nat
  cfg : SpiCfg
  priv : Option Nat
  deriving DecidableEq, Repr

/-- `SpiDevInit`. -/
def SpiDev.spiDevInit (dev : SpiDev) (i : Nat) (spidev : Settings) : SpiDev :=
  { dev with
    cfg := ⟨spidev.maxSpeedHz, linuxSpiModeToHdfMode spidev.mode, .interrupt, spidev.bitsPerWord⟩
    priv := some i }

/-- `struct SpiCntlr`. -/
structure SpiCntlr where
  busNum : BitVec 32
  numCs : Nat
  curCs : Nat
  list : List SpiDev
  deriving DecidableEq, Repr

/-- `struct SpiMsg`, its buffers by their addresses. -/
structure SpiMsg where
  wbuf : Option Nat
  rbuf : Option Nat
  len : Nat
  speed : Nat
  delayUs : Nat
  keepCs : Nat
  deriving DecidableEq, Repr

/-- `struct spi_transfer`. -/
structure SpiTransfer where
  txBuf : Option Nat
  rxBuf : Option Nat
  len : Nat
  speedHz : Nat
  csChange : Nat
  delayUsecs : Nat
  deriving DecidableEq, Repr

/-- What a device is used for. -/
inductive Op where
  | setup (written : Settings)
  | sync (transfer : SpiTransfer)
  | put
  deriving DecidableEq, Repr

/-- A use of a device, with the chip select that was current and the references that were held. -/
structure Use where
  device : Nat
  cs : Nat
  refs : Int
  op : Op
  deriving DecidableEq, Repr

/-- The controller while the driver is bound, the settings of the devices and the references the
driver holds on them; and, for the statements, the uses of the devices, the chip selects that were
opened and the devices that are open. -/
structure State where
  cntlr : Option SpiCntlr
  settings : Nat → Settings
  refs : Nat → Int
  uses : List Use
  opened : List Nat
  isOpen : Nat → Bool

/-- A message, whether its transfer could be allocated, and what `spi_sync` returns. -/
structure Sent where
  msg : SpiMsg
  alloced : Bool
  ret : Int
  deriving DecidableEq, Repr

/-- The calls, with what the kernel answers; `select` is the core that sets `curCs`. -/
inductive Act where
  | select (cs : Nat)
  | openDev (alloced : Bool)
  | close
  | setCfg (cfg : Option SpiCfg) (spiSetup : Settings → Int × Settings)
  | getCfg (cfg : Bool)
  | transfer (msgs : Option (List Sent))
  | release

/-- `SPI_DEV_NEED_FIND_NEXT`. -/
def spiDevNeedFindNext : Int := 0

/-- `SPI_DEV_CREAT_FAILURE`. -/
def spiDevCreatFailure : Int := 1

/-- `SPI_DEV_FIND_SUCCESS`. -/
def spiDevFindSuccess : Int := 2

/-- The device is on the bus of that number and has that chip select. -/
def SpiDevice.Matches (d : SpiDevice) (busNum : BitVec 32) (cs : Nat) : Prop :=
  d.master.map (BitVec.signExtend 32) = some busNum ∧ d.chipSelect = cs

instance (d : SpiDevice) (busNum : BitVec 32) (cs : Nat) : Decidable (d.Matches busNum cs) :=
  inferInstanceAs (Decidable (_ ∧ _))

namespace SpiCntlr

variable (cntlr : SpiCntlr)

/-- `SpiFindDeviceByCsNum`. -/
def spiFindDeviceByCsNum (cs : Nat) : Option SpiDev :=
  if cntlr.numCs ≤ cs then none else cntlr.list.find? fun dev => dev.csNum = cs

/-- The device of the node of the current chip select. -/
def device : Option Nat := (cntlr.spiFindDeviceByCsNum cntlr.curCs).bind SpiDev.priv

/-- The node of the current chip select is changed. -/
def modifyDev (f : SpiDev → SpiDev) : SpiCntlr :=
  { cntlr with
    list := cntlr.list.modify (cntlr.list.findIdx fun dev => dev.csNum = cntlr.curCs) f }

/-- `SpiDevCreat`: `csNum` is left at zero. -/
def spiDevCreat : SpiDev := ⟨0, ⟨0, 0, .interrupt, 0⟩, none⟩

/-- The first device on the bus of the controller and with its current chip select, if it is ahead
of those without a master. -/
def findOn : Nat → List SpiDevice → Option Nat
  | _, [] => none
  | i, d :: ds =>
      if d.master = none then none
      else if d.Matches cntlr.busNum cntlr.curCs then some i
      else findOn (i + 1) ds

/-- The node of the current chip select, which is created if there is none, is bound to a device. -/
def bound (i : Nat) (spidev : Settings) : SpiCntlr :=
  match cntlr.spiFindDeviceByCsNum cntlr.curCs with
  | some _ => cntlr.modifyDev fun dev => dev.spiDevInit i spidev
  | none => { cntlr with list := cntlr.list ++ [spiDevCreat.spiDevInit i spidev] }

end SpiCntlr

/-- `bus_for_each_dev`: the devices are passed to `fn` until it does not return zero. -/
def busForEachDev {σ : Type} (fn : Nat → SpiDevice → σ → Int × σ) :
    Nat → List SpiDevice → σ → Int × σ
  | _, [], s => (0, s)
  | i, d :: ds, s =>
      match fn i d s with
      | (0, s) => busForEachDev fn (i + 1) ds s
      | (ret, s) => (ret, s)

namespace State

/-- The driver is bound, with a controller that has no nodes. -/
def init (busNum : BitVec 32) (numCs curCs : Nat) (settings : Nat → Settings) : State :=
  ⟨some ⟨busNum, numCs, curCs, []⟩, settings, fun _ => 0, [], [], fun _ => false⟩

variable (bus : List SpiDevice) (s : State)

/-- `get_device`. -/
def getDevice (i : Nat) : State := { s with refs := Function.update s.refs i (s.refs i + 1) }

/-- `put_device`. -/
def putDevice (i : Nat) : State := { s with refs := Function.update s.refs i (s.refs i - 1) }

/-- More uses. -/
def withUses (new : List Use) : State := { s with uses := new ++ s.uses }

/-- The device is used. -/
def use (cs i : Nat) (op : Op) : State := { s with uses := ⟨i, cs, s.refs i, op⟩ :: s.uses }

/-- `SpiFindDeviceFromBus`. -/
def spiFindDeviceFromBus (cntlr : SpiCntlr) (alloced : Bool) (i : Nat) (d : SpiDevice)
    (s : State) : Int × State :=
  let s := s.getDevice i
  if d.master = none then (Hdf.errInvalidParam, s.putDevice i)
  else if d.Matches cntlr.busNum cntlr.curCs then
    match cntlr.spiFindDeviceByCsNum cntlr.curCs with
    | some _ =>
        (spiDevFindSuccess,
          { s with cntlr := some (cntlr.modifyDev fun dev => dev.spiDevInit i (s.settings i)) })
    | none =>
        if alloced then
          let dev := SpiCntlr.spiDevCreat.spiDevInit i (s.settings i)
          (spiDevFindSuccess, { s with cntlr := some { cntlr with list := cntlr.list ++ [dev] } })
        else (spiDevCreatFailure, s.putDevice i)
  else (spiDevNeedFindNext, s.putDevice i)

/-- `SpiAdatperOpen`. -/
def spiAdatperOpen (alloced : Bool) : Int × State :=
  match s.cntlr with
  | none => (Hdf.errInvalidParam, s)
  | some cntlr =>
      match busForEachDev (spiFindDeviceFromBus cntlr alloced) 0 bus s with
      | (2, s) => (Hdf.success, s)
      | (_, s) => (Hdf.failure, s)

/-- `SpiAdatperClose`: the device of the node is kept. -/
def spiAdatperClose : Int × State :=
  match s.cntlr with
  | none => (Hdf.failure, s)
  | some cntlr =>
      match cntlr.device with
      | none => (Hdf.failure, s)
      | some i => (Hdf.success, (s.use cntlr.curCs i .put).putDevice i)

/-- `SpiAdatperSetCfg`, with what `spi_setup` returns and leaves in the device. -/
def spiAdatperSetCfg (cfg : Option SpiCfg) (spiSetup : Settings → Int × Settings) : Int × State :=
  match s.cntlr, cfg with
  | some cntlr, some cfg =>
      match cntlr.device with
      | none => (Hdf.failure, s)
      | some i =>
          let s := { s.use cntlr.curCs i (.setup cfg.written) with
            settings := Function.update s.settings i (spiSetup cfg.written).2 }
          if (spiSetup cfg.written).1 ≠ 0 then (Hdf.failure, s)
          else
            (Hdf.success,
              { s with cntlr := some (cntlr.modifyDev fun dev => { dev with cfg := cfg }) })
  | _, _ => (Hdf.errInvalidParam, s)

/-- `SpiAdatperGetCfg`, and what it writes if there is a place for it. -/
def spiAdatperGetCfg (cfg : Bool) : Int × Option SpiCfg :=
  match s.cntlr, cfg with
  | some cntlr, true =>
      match cntlr.spiFindDeviceByCsNum cntlr.curCs with
      | none => (Hdf.failure, none)
      | some dev => if dev.priv = none then (Hdf.failure, none) else (Hdf.success, some dev.cfg)
  | _, _ => (Hdf.errInvalidParam, none)

/-- `SpiAdatperTransferOneMsg`. -/
def spiAdatperTransferOneMsg (cntlr : SpiCntlr) (sent : Sent) : Int × State :=
  match cntlr.device with
  | none => (Hdf.failure, s)
  | some i =>
      if ¬sent.alloced then (Hdf.errMallocFail, s)
      else
        let msg := sent.msg
        let transfer := ⟨msg.wbuf, msg.rbuf, msg.len, msg.speed, msg.keepCs, msg.delayUs⟩
        (sent.ret, s.use cntlr.curCs i (.sync transfer))

/-- The loop of `SpiAdatperTransfer`: whether all were sent. -/
def transferAll (cntlr : SpiCntlr) : List Sent → State → Bool × State
  | [], s => (true, s)
  | sent :: rest, s =>
      match s.spiAdatperTransferOneMsg cntlr sent with
      | (0, s) => transferAll cntlr rest s
      | (_, s) => (false, s)

/-- `SpiAdatperTransfer`, with the value of `HDF_PLT_ERR_OS_API`; without messages or with none of
them it fails. -/
def spiAdatperTransfer (errOsApi : Int) (msgs : Option (List Sent)) : Int × State :=
  match s.cntlr, msgs with
  | some cntlr, some (sent :: rest) =>
      match transferAll cntlr (sent :: rest) s with
      | (true, s) => (Hdf.success, s)
      | (false, s) => (errOsApi, s)
  | _, _ => (Hdf.errInvalidParam, s)

/-- `HdfSpiDeviceRelease`: the nodes and the controller are freed, and the references are kept. -/
def hdfSpiDeviceRelease : State := { s with cntlr := none }

/-- The core makes a chip select the current one. -/
def select (cs : Nat) : State :=
  { s with cntlr := s.cntlr.map fun cntlr => { cntlr with curCs := cs } }

/-- The device of the node of the current chip select. -/
def device : Option Nat := s.cntlr.bind SpiCntlr.device

/-- The device that is found on the bus. -/
def found : Option Nat := s.cntlr.bind fun cntlr => cntlr.findOn 0 bus

/-- The device that an open binds: the one that is found, if the current chip select has a node or a
new one could be allocated. -/
def opens (alloced : Bool) : Option Nat :=
  (s.found bus).filter fun _ =>
    alloced || (s.cntlr.bind fun cntlr => cntlr.spiFindDeviceByCsNum cntlr.curCs).isSome

/-- An open succeeded: of the current chip select, and of its device. -/
def noteOpen : State :=
  { s with
    opened := (s.cntlr.map SpiCntlr.curCs).toList ++ s.opened
    isOpen i := s.isOpen i || s.found bus = some i }

/-- A close of the device of the current chip select succeeded. -/
def noteClose : State := { s with isOpen i := s.isOpen i && s.found bus ≠ some i }

/-- The state after a call; it does not depend on the value of `HDF_PLT_ERR_OS_API`. -/
def next : Act → State
  | .select cs => s.select cs
  | .openDev alloced =>
      match s.spiAdatperOpen bus alloced with
      | (0, s) => s.noteOpen bus
      | (_, s) => s
  | .close =>
      match s.spiAdatperClose with
      | (0, s) => s.noteClose bus
      | (_, s) => s
  | .setCfg cfg spiSetup => (s.spiAdatperSetCfg cfg spiSetup).2
  | .getCfg _ => s
  | .transfer msgs => (s.spiAdatperTransfer 0 msgs).2
  | .release => { s.hdfSpiDeviceRelease with opened := [], isOpen := fun _ => false }

end State

variable {bus : List SpiDevice} {s : State} {cntlr : SpiCntlr} {alloced : Bool} {i : Nat}

/-- A reference that was taken is given back. -/
theorem State.putDevice_getDevice (s : State) (i : Nat) :
  (s.getDevice i).putDevice i = s
  := by
  unfold State.getDevice State.putDevice
  simp

/-- The device that is found is on the bus of the controller and has its current chip select. -/
theorem SpiCntlr.matches_of_findOn {ds : List SpiDevice} {n : Nat}
    (h : cntlr.findOn n ds = some i) :
  n ≤ i ∧ ∃ d, ds[i - n]? = some d ∧ d.Matches cntlr.busNum cntlr.curCs
  := by
  induction ds generalizing n with
  | nil => cases h
  | cons d ds ih =>
      unfold SpiCntlr.findOn at h
      split at h
      · cases h
      split at h
      · next hmatches =>
          obtain rfl := Option.some.inj h
          refine ⟨Nat.le_refl n, d, ?_, hmatches⟩
          rw [Nat.sub_self]
          rfl
      · obtain ⟨hle, d', hd', hmatches⟩ := ih h
        refine ⟨Nat.le_of_succ_le hle, d', ?_, hmatches⟩
        obtain ⟨k, rfl⟩ := Nat.exists_eq_add_of_le hle
        rw [Nat.add_sub_cancel_left] at hd'
        rw [Nat.add_assoc, Nat.add_sub_cancel_left, Nat.add_comm]
        apply hd'

/-- The state with the device bound. -/
def State.bindsTo (s : State) (cntlr : SpiCntlr) (i : Nat) : State :=
  { s.getDevice i with cntlr := some (cntlr.bound i (s.settings i)) }

/-- A device that matches is bound, if there is a node for it. -/
theorem State.spiFindDeviceFromBus_matches {d : SpiDevice}
    (hmatches : d.Matches cntlr.busNum cntlr.curCs) :
  State.spiFindDeviceFromBus cntlr alloced i d s
    = if alloced || (cntlr.spiFindDeviceByCsNum cntlr.curCs).isSome then (2, s.bindsTo cntlr i)
      else (1, s)
  := by
  have hmaster : d.master ≠ none := by
    intro hnone
    rw [SpiDevice.Matches, hnone] at hmatches
    cases hmatches.1
  unfold State.spiFindDeviceFromBus State.bindsTo SpiCntlr.bound
  dsimp only
  rw [if_neg hmaster, if_pos hmatches, State.putDevice_getDevice]
  cases cntlr.spiFindDeviceByCsNum cntlr.curCs with
  | some dev =>
      rw [Option.isSome_some, Bool.or_true, if_pos rfl]
      rfl
  | none => cases alloced <;> rfl

/-- A device without a master changes nothing. -/
theorem State.spiFindDeviceFromBus_master {d : SpiDevice} (hmaster : d.master = none) :
  State.spiFindDeviceFromBus cntlr alloced i d s = (Hdf.errInvalidParam, s)
  := by
  unfold State.spiFindDeviceFromBus
  dsimp only
  rw [if_pos hmaster, State.putDevice_getDevice]

/-- A device that does not match changes nothing. -/
theorem State.spiFindDeviceFromBus_other {d : SpiDevice} (hmaster : d.master ≠ none)
    (hmatches : ¬d.Matches cntlr.busNum cntlr.curCs) :
  State.spiFindDeviceFromBus cntlr alloced i d s = (0, s)
  := by
  unfold State.spiFindDeviceFromBus
  dsimp only
  rw [if_neg hmaster, if_neg hmatches, State.putDevice_getDevice]
  rfl

/-- The devices are passed over up to the first one without a master, or the first one that matches,
which is bound if there is a node for it. -/
theorem State.busForEachDev_eq (cntlr : SpiCntlr) (alloced : Bool) (s : State)
    (ds : List SpiDevice) (n : Nat) :
  ∃ ret, ret ≠ 2
    ∧ busForEachDev (State.spiFindDeviceFromBus cntlr alloced) n ds s
      = match (cntlr.findOn n ds).filter fun _ =>
            alloced || (cntlr.spiFindDeviceByCsNum cntlr.curCs).isSome with
        | some i => (2, s.bindsTo cntlr i)
        | none => (ret, s)
  := by
  induction ds generalizing n with
  | nil => exact ⟨0, by decide, rfl⟩
  | cons d ds ih =>
      rw [busForEachDev, SpiCntlr.findOn]
      by_cases hmaster : d.master = none
      · rw [State.spiFindDeviceFromBus_master hmaster, if_pos hmaster]
        exact ⟨Hdf.errInvalidParam, by decide, rfl⟩
      rw [if_neg hmaster]
      by_cases hmatches : d.Matches cntlr.busNum cntlr.curCs
      · rw [State.spiFindDeviceFromBus_matches hmatches, if_pos hmatches]
        refine ⟨1, by decide, ?_⟩
        cases hbinds : (alloced || (cntlr.spiFindDeviceByCsNum cntlr.curCs).isSome)
        · rw [Option.filter_some_neg (by simp)]
          rfl
        · rw [Option.filter_some_pos rfl]
          rfl
      · rw [State.spiFindDeviceFromBus_other hmaster hmatches, if_neg hmatches]
        apply ih (n + 1)

/-- What an open opens is found on the bus, for a node there is or that is created. -/
theorem State.opens_eq (hcntlr : s.cntlr = some cntlr) :
  s.opens bus alloced
    = (cntlr.findOn 0 bus).filter fun _ =>
        alloced || (cntlr.spiFindDeviceByCsNum cntlr.curCs).isSome
  := by
  unfold State.opens State.found
  rw [hcntlr]
  rfl

/-- A controller whose node is bound keeps the number of its bus. -/
@[simp]
theorem SpiCntlr.bound_busNum (cntlr : SpiCntlr) (i : Nat) (spidev : Settings) :
  (cntlr.bound i spidev).busNum = cntlr.busNum
  := by
  unfold SpiCntlr.bound
  split <;> rfl

/-- A controller whose node is bound keeps its number of chip selects. -/
@[simp]
theorem SpiCntlr.bound_numCs (cntlr : SpiCntlr) (i : Nat) (spidev : Settings) :
  (cntlr.bound i spidev).numCs = cntlr.numCs
  := by
  unfold SpiCntlr.bound
  split <;> rfl

/-- A controller whose node is bound keeps its current chip select. -/
@[simp]
theorem SpiCntlr.bound_curCs (cntlr : SpiCntlr) (i : Nat) (spidev : Settings) :
  (cntlr.bound i spidev).curCs = cntlr.curCs
  := by
  unfold SpiCntlr.bound
  split <;> rfl

/-- What is found does not depend on the nodes. -/
@[simp]
theorem SpiCntlr.bound_findOn (cntlr : SpiCntlr) (i : Nat) (spidev : Settings) (n : Nat)
    (ds : List SpiDevice) :
  (cntlr.bound i spidev).findOn n ds = cntlr.findOn n ds
  := by
  induction ds generalizing n with
  | nil => rfl
  | cons d ds ih =>
      unfold SpiCntlr.findOn
      rw [SpiCntlr.bound_busNum, SpiCntlr.bound_curCs, ih]

/-- An open binds the node of the current chip select to the device that is found. -/
theorem State.spiAdatperOpen_some (h : s.opens bus alloced = some i) :
  ∃ cntlr, s.cntlr = some cntlr ∧ cntlr.findOn 0 bus = some i
    ∧ s.spiAdatperOpen bus alloced = (Hdf.success, s.bindsTo cntlr i)
  := by
  cases hcntlr : s.cntlr with
  | none =>
      unfold State.opens State.found at h
      rw [hcntlr] at h
      cases h
  | some cntlr =>
      rw [State.opens_eq hcntlr] at h
      obtain ⟨ret, -, heq⟩ := State.busForEachDev_eq cntlr alloced s bus 0
      refine ⟨cntlr, rfl, Option.eq_some_of_filter_eq_some h, ?_⟩
      unfold State.spiAdatperOpen
      rw [hcntlr]
      dsimp only
      rw [heq, h]
      rfl

/-- An open that binds no device fails and changes nothing. -/
theorem State.spiAdatperOpen_none (h : s.opens bus alloced = none) :
  ∃ ret, ret ≠ 0 ∧ s.spiAdatperOpen bus alloced = (ret, s)
  := by
  cases hcntlr : s.cntlr with
  | none =>
      refine ⟨Hdf.errInvalidParam, by decide, ?_⟩
      unfold State.spiAdatperOpen
      rw [hcntlr]
  | some cntlr =>
      rw [State.opens_eq hcntlr] at h
      obtain ⟨ret, hret, heq⟩ := State.busForEachDev_eq cntlr alloced s bus 0
      refine ⟨Hdf.failure, by decide, ?_⟩
      unfold State.spiAdatperOpen
      rw [hcntlr]
      dsimp only
      rw [heq, h]
      dsimp only
      split
      · next heq' => exact absurd (Prod.mk.inj heq').1 hret
      · next heq' => rw [← (Prod.mk.inj heq').2]

/-- An open of a device. -/
theorem State.next_openDev_some (h : s.opens bus alloced = some i) :
  ∃ cntlr, s.cntlr = some cntlr ∧ cntlr.findOn 0 bus = some i
    ∧ s.next bus (.openDev alloced)
      = { s.bindsTo cntlr i with
          opened := cntlr.curCs :: s.opened
          isOpen := fun j => s.isOpen j || some i = some j }
  := by
  obtain ⟨cntlr, hcntlr, hfound, heq⟩ := State.spiAdatperOpen_some h
  refine ⟨cntlr, hcntlr, hfound, ?_⟩
  have hnext : s.next bus (.openDev alloced) = (s.bindsTo cntlr i).noteOpen bus := by
    unfold State.next
    dsimp only
    rw [heq]
    rfl
  have hfound' : (s.bindsTo cntlr i).found bus = some i := by
    show (cntlr.bound i (s.settings i)).findOn 0 bus = some i
    rw [SpiCntlr.bound_findOn, hfound]
  rw [hnext]
  unfold State.noteOpen
  rw [hfound', ← cntlr.bound_curCs i (s.settings i)]
  rfl

/-- An open that fails. -/
theorem State.next_openDev_none (h : s.opens bus alloced = none) :
  s.next bus (.openDev alloced) = s
  := by
  obtain ⟨ret, hret, heq⟩ := State.spiAdatperOpen_none h
  unfold State.next
  dsimp only
  rw [heq]
  split
  · next heq' => exact absurd (Prod.mk.inj heq').1 hret
  · next heq' => rw [← (Prod.mk.inj heq').2]

/-! ### Uses -/

/-- A use of the device of the current chip select, with the references held. -/
structure Use.Of (u : Use) (s : State) (cntlr : SpiCntlr) : Prop where
  device : cntlr.device = some u.device
  cs : u.cs = cntlr.curCs
  refs : u.refs = s.refs u.device

/-- A message is sent to the device of the current chip select. -/
theorem State.spiAdatperTransferOneMsg_some {sent : Sent} (hdevice : cntlr.device = some i)
    (halloced : sent.alloced) :
  ∃ u : Use, u.Of s cntlr
    ∧ s.spiAdatperTransferOneMsg cntlr sent = (sent.ret, s.withUses [u])
  := by
  unfold State.spiAdatperTransferOneMsg
  rw [hdevice]
  dsimp only
  rw [if_neg (not_not_intro halloced)]
  exact ⟨⟨i, cntlr.curCs, s.refs i, _⟩, ⟨hdevice, rfl, rfl⟩, rfl⟩

/-- A message without a device or a transfer fails. -/
theorem State.spiAdatperTransferOneMsg_none {sent : Sent}
    (h : ¬(sent.alloced ∧ cntlr.device.isSome)) :
  ∃ ret, ret ≠ 0 ∧ s.spiAdatperTransferOneMsg cntlr sent = (ret, s)
  := by
  unfold State.spiAdatperTransferOneMsg
  cases hdevice : cntlr.device with
  | none => exact ⟨Hdf.failure, by decide, rfl⟩
  | some i =>
      rw [hdevice] at h
      refine ⟨Hdf.errMallocFail, by decide, ?_⟩
      dsimp only
      rw [if_pos fun halloced => h ⟨halloced, rfl⟩]

/-- The messages use the device of the current chip select, if the transfer of the first one is
allocated. -/
theorem State.transferAll_uses (cntlr : SpiCntlr) (sents : List Sent) (s : State) :
  ∃ new, (State.transferAll cntlr sents s).2 = s.withUses new ∧ (∀ u ∈ new, u.Of s cntlr)
    ∧ (new ≠ [] ↔ sents.head?.any Sent.alloced ∧ cntlr.device.isSome)
  := by
  induction sents generalizing s with
  | nil =>
      refine ⟨[], rfl, fun _ hu => (nomatch hu), ?_⟩
      exact iff_of_false (fun hne => hne rfl) fun h => nomatch h.1
  | cons sent sents ih =>
      unfold State.transferAll
      by_cases h : sent.alloced ∧ cntlr.device.isSome
      · obtain ⟨i, hi⟩ := Option.isSome_iff_exists.mp h.2
        obtain ⟨u, hu, heq⟩ := State.spiAdatperTransferOneMsg_some (s := s) hi h.1
        rw [heq]
        split
        · next t ht =>
            obtain rfl := (Prod.mk.inj ht).2
            obtain ⟨more, heq', hof, -⟩ := ih (s.withUses [u])
            refine ⟨more ++ [u], ?_, fun v hv => ?_, ?_⟩
            · rw [heq']
              unfold State.withUses
              rw [List.append_assoc]
            · obtain hv | hv := List.mem_append.mp hv
              · obtain ⟨hdevice, hcs, hrefs⟩ := hof v hv
                exact ⟨hdevice, hcs, hrefs⟩
              · obtain rfl := List.mem_singleton.mp hv
                apply hu
            · exact iff_of_true (by simp) h
        · next ht =>
            obtain rfl := (Prod.mk.inj ht).2
            refine ⟨[u], rfl, fun v hv => ?_, iff_of_true (List.cons_ne_nil _ _) h⟩
            obtain rfl := List.mem_singleton.mp hv
            apply hu
      · obtain ⟨ret, hret, heq⟩ := State.spiAdatperTransferOneMsg_none (s := s) h
        rw [heq]
        refine ⟨[], ?_, fun _ hu => (nomatch hu), iff_of_false (fun hne => hne rfl) h⟩
        split
        · next ht => exact absurd (Prod.mk.inj ht).1 hret
        · next ht => rw [← (Prod.mk.inj ht).2]; rfl

/-- A transfer uses the device of the current chip select, if the transfer of its first message is
allocated. -/
theorem State.next_transfer (bus : List SpiDevice) (s : State) (msgs : Option (List Sent)) :
  ∃ new, s.next bus (.transfer msgs) = s.withUses new
    ∧ (∀ u ∈ new, ∃ cntlr, s.cntlr = some cntlr ∧ u.Of s cntlr)
    ∧ (new ≠ [] ↔ (msgs.bind List.head?).any Sent.alloced ∧ s.device.isSome)
  := by
  have hnil : ∀ p : Prop, ¬p → (([] : List Use) ≠ [] ↔ p) :=
    fun p hp => iff_of_false (fun hne => hne rfl) hp
  unfold State.next State.spiAdatperTransfer State.device
  dsimp only
  cases s.cntlr with
  | none => exact ⟨[], rfl, fun _ hu => (nomatch hu), hnil _ fun h => nomatch h.2⟩
  | some cntlr =>
      match msgs with
      | none => exact ⟨[], rfl, fun _ hu => (nomatch hu), hnil _ fun h => nomatch h.1⟩
      | some [] => exact ⟨[], rfl, fun _ hu => (nomatch hu), hnil _ fun h => nomatch h.1⟩
      | some (sent :: rest) =>
          obtain ⟨new, heq, hof, hne⟩ := State.transferAll_uses cntlr (sent :: rest) s
          refine ⟨new, ?_, fun u hu => ⟨cntlr, rfl, hof u hu⟩, hne⟩
          rw [← heq]
          dsimp only
          split <;> next ht => rw [ht]

/-- The state after a configuration was set up in a device. -/
def State.configured (s : State) (cntlr : SpiCntlr) (i : Nat) (cfg : SpiCfg)
    (setup : Int × Settings) : State :=
  { s.withUses [⟨i, cntlr.curCs, s.refs i, .setup cfg.written⟩] with
    settings := Function.update s.settings i setup.2
    cntlr := some
      (if setup.1 = 0 then cntlr.modifyDev fun dev => { dev with cfg := cfg } else cntlr) }

/-- A configuration is set up in the device of the current chip select. -/
theorem State.next_setCfg_some {cfg : SpiCfg} (spiSetup : Settings → Int × Settings)
    (hcntlr : s.cntlr = some cntlr) (hdevice : cntlr.device = some i) :
  s.next bus (.setCfg (some cfg) spiSetup) = s.configured cntlr i cfg (spiSetup cfg.written)
  := by
  unfold State.next State.spiAdatperSetCfg State.configured
  dsimp only
  rw [hcntlr]
  dsimp only
  rw [hdevice]
  dsimp only
  split
  · rw [← hcntlr]
    rfl
  · next hret =>
      rw [if_pos (not_not.mp hret)]
      rfl

/-- A configuration for which there is no device. -/
theorem State.next_setCfg_none {cfg : Option SpiCfg} (spiSetup : Settings → Int × Settings)
    (h : cfg = none ∨ s.device = none) :
  s.next bus (.setCfg cfg spiSetup) = s
  := by
  unfold State.next State.spiAdatperSetCfg
  unfold State.device at h
  dsimp only
  cases cfg with
  | none => cases s.cntlr <;> rfl
  | some cfg =>
      cases hcntlr : s.cntlr with
      | none => rfl
      | some cntlr =>
          rw [hcntlr] at h
          dsimp only
          have hdevice : cntlr.device = none := h.resolve_left fun hcfg => nomatch hcfg
          rw [hdevice]

/-- A close puts the device of the current chip select. -/
theorem State.next_close_some (hcntlr : s.cntlr = some cntlr) (hdevice : cntlr.device = some i) :
  s.next bus .close = ((s.use cntlr.curCs i .put).putDevice i).noteClose bus
  := by
  unfold State.next State.spiAdatperClose
  dsimp only
  rw [hcntlr]
  dsimp only
  rw [hdevice]
  rfl

/-- A close for which there is no device. -/
theorem State.next_close_none (h : s.device = none) :
  s.next bus .close = s
  := by
  unfold State.next State.spiAdatperClose
  unfold State.device at h
  dsimp only
  cases hcntlr : s.cntlr with
  | none => rfl
  | some cntlr =>
      rw [hcntlr] at h
      have hdevice : cntlr.device = none := h
      dsimp only
      rw [hdevice]
      rfl

end Spi
