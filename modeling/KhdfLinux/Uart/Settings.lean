import KhdfLinux.Hdf.Base
import KhdfLinux.Lib.Run
import Mathlib.Data.BitVec

/-!
# The settings of the UART

`UartAdapterSetBaud` and `UartAdapterSetAttribute` change the `c_cflag` of the terminal, which
`UartAdapterGetBaud` and `UartAdapterGetAttribute` read back.  `readBack_iff`: over any calls, what
was set is read back, the other setting is left alone and a setting that could not be applied fails,
exactly as long as the rate is 9600, the attributes are eight data bits without flow control and
with no parity or an odd one, and `TCSETS` fails only in calls that fail for another reason.
-/

namespace Uart

/-! ### The bits of `c_cflag` -/

/-- `CBAUD`, with its extended bit. -/
def cbaud : BitVec 32 := 0x100f

/-- `CSIZE`. -/
def csize : BitVec 32 := 0x30

/-- `CSTOPB`. -/
def cstopb : BitVec 32 := 0x40

/-- `CREAD`. -/
def cread : BitVec 32 := 0x80

/-- `PARENB`. -/
def parenb : BitVec 32 := 0x100

/-- `PARODD`. -/
def parodd : BitVec 32 := 0x200

/-- `CLOCAL`. -/
def clocal : BitVec 32 := 0x800

/-- `CRTSCTS`. -/
def crtscts : BitVec 32 := 0x80000000

/-- `CS5`. -/
def cs5 : BitVec 16 := 0x00

/-- `CS6`. -/
def cs6 : BitVec 16 := 0x10

/-- `CS7`. -/
def cs7 : BitVec 16 := 0x20

/-- `CS8`. -/
def cs8 : BitVec 16 := 0x30

/-- `B9600`. -/
def b9600 : BitVec 16 := 0xd

/-- The cases of the rates, `B1800` to `B921600`, with the rate of each. -/
def bauds : List (BitVec 16 × Nat) :=
  [(0xa, 1800), (0xb, 2400), (0xc, 4800), (b9600, 9600), (0xe, 19200), (0xf, 38400),
    (0x1001, 57600), (0x1002, 115200), (0x1003, 230400), (0x1004, 460800), (0x1005, 500000),
    (0x1006, 576000), (0x1007, 921600)]

/-- `CflagToBaudRate`. -/
def cflagToBaudRate (flag : BitVec 16) : Nat :=
  match bauds.find? fun b => b.1.setWidth 32 = flag.setWidth 32 ||| cbaud with
  | some b => b.2
  | none => 9600

/-- `BaudRateToCflag`. -/
def baudRateToCflag (baudRate : Nat) : BitVec 16 :=
  match bauds.find? fun b => b.2 = baudRate with
  | some b => b.1
  | none => b9600

/-! ### The attributes -/

/-- `UART_ATTR_DATABIT_5` to `UART_ATTR_DATABIT_8`, and any other value. -/
inductive DataBits where
  | databit5
  | databit6
  | databit7
  | databit8
  | other
  deriving DecidableEq, Repr

/-- `UART_ATTR_PARITY_NONE`, `UART_ATTR_PARITY_ODD`, `UART_ATTR_PARITY_EVEN`, and any other
value. -/
inductive Parity where
  | none
  | odd
  | even
  | other
  deriving DecidableEq, Repr

/-- `UART_ATTR_STOPBIT_1`, `UART_ATTR_STOPBIT_2`, and any other value. -/
inductive StopBits where
  | stopbit1
  | stopbit2
  | other
  deriving DecidableEq, Repr

/-- `struct UartAttribute`. -/
@[ext]
structure UartAttribute where
  dataBits : DataBits
  parity : Parity
  stopBits : StopBits
  cts : Bool
  rts : Bool
  deriving DecidableEq, Repr

/-- `CSToAttr`. -/
def csToAttr (cs : BitVec 16) : DataBits :=
  let t := cs &&& ~~~csize.setWidth 16
  if t = cs7 then .databit7
  else if t = cs8 then .databit8
  else if t = cs6 then .databit6
  else if t = cs5 then .databit5
  else .databit8

/-- `AttrToCs`. -/
def attrToCs : DataBits → BitVec 16
  | .databit7 => cs7
  | .databit8 => cs8
  | .databit6 => cs6
  | .databit5 => cs5
  | .other => cs8

/-- `PariTyToAttr`. -/
def pariTyToAttr (ps : BitVec 16) : Parity :=
  if ps.setWidth 32 &&& (parenb ||| parodd) ≠ 0 then .odd
  else if ps.setWidth 32 &&& parodd = 0 ∧ ps.setWidth 32 &&& parenb ≠ 0 then .even
  else if ps.setWidth 32 &&& (parenb ||| parodd) = 0 then .none
  else .none

/-- `StopBitToAttr`. -/
def stopBitToAttr (st : BitVec 16) : StopBits :=
  if st.setWidth 32 &&& cstopb = 0 then .stopbit1
  else if st.setWidth 32 &&& cstopb ≠ 0 then .stopbit2
  else .stopbit1

/-- `CtsRtsToAttr`. -/
def ctsRtsToAttr (cr : BitVec 16) : Bool := cr.setWidth 32 &&& crtscts ≠ 0

/-! ### The calls -/

/-- An ioctl that fails returns a negative number. -/
def ioctlRet (ok : Bool) : Int := if ok then Hdf.success else Hdf.failure

/-- `UartAdapterGetBaud`: whether `TCGETS` succeeds. -/
def uartAdapterGetBaud (cflag : BitVec 32) (tcgets : Bool) : Int × Option Nat :=
  if ¬tcgets then (Hdf.failure, none)
  else (Hdf.success, some (cflagToBaudRate (cflag.setWidth 16)))

/-- The rate in `c_cflag`, as `UartAdapterSetBaud` sets it. -/
def setRate (cflag : BitVec 32) (baudRate : Nat) : BitVec 32 :=
  (cflag &&& ~~~cbaud) ||| (baudRateToCflag baudRate).setWidth 32

/-- `UartAdapterSetBaud`: which ioctls succeed.  The result of `TCSETS` is overwritten. -/
def uartAdapterSetBaud (cflag : BitVec 32) (baudRate : Nat)
    (tcgets tcsets tiocgserial tiocsserial : Bool) : Int × BitVec 32 :=
  if ¬tcgets then (Hdf.failure, cflag)
  else
    let cflag := if tcsets then setRate cflag baudRate else cflag
    if ¬tiocgserial then (Hdf.failure, cflag)
    else (ioctlRet tiocsserial, cflag)

/-- `UartAdapterGetAttribute`: whether `TCGETS` succeeds. -/
def uartAdapterGetAttribute (cflag : BitVec 32) (tcgets : Bool) : Int × Option UartAttribute :=
  if ¬tcgets then (Hdf.failure, none)
  else
    (Hdf.success, some
      { dataBits := csToAttr (cflag.setWidth 16)
        parity := pariTyToAttr (cflag.setWidth 16)
        stopBits := stopBitToAttr (cflag.setWidth 16)
        cts := ctsRtsToAttr (cflag.setWidth 16)
        rts := ctsRtsToAttr (cflag.setWidth 16) })

/-- The data bits in `c_cflag`. -/
def setDataBits (cflag : BitVec 32) (dataBits : DataBits) : BitVec 32 :=
  ((cflag ||| (clocal ||| cread)) &&& ~~~csize) ||| (attrToCs dataBits).setWidth 32

/-- The flow control in `c_cflag`. -/
def setFlow (cflag : BitVec 32) (cts rts : Bool) : BitVec 32 :=
  if cts ∨ rts then cflag ||| crtscts else cflag &&& ~~~crtscts

/-- The parity in `c_cflag`. -/
def setParity (cflag : BitVec 32) : Parity → BitVec 32
  | .odd => cflag ||| (parodd ||| parenb)
  | .even => (cflag ||| parenb) &&& ~~~parodd
  | .none => cflag &&& ~~~(parenb ||| parodd)
  | .other => cflag &&& ~~~(parenb ||| parodd)

/-- The stop bits in `c_cflag`. -/
def setStopBits (cflag : BitVec 32) : StopBits → BitVec 32
  | .stopbit1 => cflag &&& ~~~cstopb
  | .stopbit2 => cflag ||| cstopb
  | .other => cflag &&& ~~~cstopb

/-- The attributes in `c_cflag`, as `UartAdapterSetAttribute` sets them. -/
def setAttributes (cflag : BitVec 32) (attr : UartAttribute) : BitVec 32 :=
  let cflag := setDataBits cflag attr.dataBits
  let cflag := setFlow cflag attr.cts attr.rts
  let cflag := setParity cflag attr.parity
  setStopBits cflag attr.stopBits

/-- `UartAdapterSetAttribute`: which ioctls succeed. -/
def uartAdapterSetAttribute (cflag : BitVec 32) (attr : UartAttribute)
    (tcgets tcsets : Bool) : Int × BitVec 32 :=
  if ¬tcgets then (Hdf.failure, cflag)
  else (ioctlRet tcsets, if tcsets then setAttributes cflag attr else cflag)

/-- The calls that set, with the ioctls that succeed. -/
inductive Act where
  | setBaud (baudRate : Nat) (tcgets tcsets tiocgserial tiocsserial : Bool)
  | setAttribute (attr : UartAttribute) (tcgets tcsets : Bool)

/-- The value returned and the `c_cflag` after a call. -/
def Act.perform (cflag : BitVec 32) : Act → Int × BitVec 32
  | setBaud baudRate tcgets tcsets tiocgserial tiocsserial =>
      uartAdapterSetBaud cflag baudRate tcgets tcsets tiocgserial tiocsserial
  | setAttribute attr tcgets tcsets => uartAdapterSetAttribute cflag attr tcgets tcsets

/-- Whether `TCSETS` succeeds. -/
def Act.tcsets : Act → Bool
  | setBaud _ _ tcsets _ _ => tcsets
  | setAttribute _ _ tcsets => tcsets

/-- The `c_cflag` of the terminal, and what was set last by a call that succeeded. -/
structure State where
  cflag : BitVec 32
  baud : Option Nat
  attr : Option UartAttribute

namespace State

/-- Nothing was set. -/
def init (cflag : BitVec 32) : State := ⟨cflag, none, none⟩

variable (s : State)

/-- The state after a call. -/
def next (a : Act) : State :=
  let r := a.perform s.cflag
  if r.1 = Hdf.success then
    match a with
    | .setBaud baudRate _ _ _ _ => { s with cflag := r.2, baud := some baudRate }
    | .setAttribute attr _ _ => { s with cflag := r.2, attr := some attr }
  else { s with cflag := r.2 }

/-- What is read back of the rate and of the attributes. -/
def getBaud : Option Nat := (uartAdapterGetBaud s.cflag true).2

/-- What is read back of the attributes. -/
def getAttribute : Option UartAttribute := (uartAdapterGetAttribute s.cflag true).2

/-- Of the setting that it does not set, the same is read back after a call. -/
def LeavesOther : Act → Prop
  | .setBaud baudRate tcgets tcsets tiocgserial tiocsserial =>
      (s.next (.setBaud baudRate tcgets tcsets tiocgserial tiocsserial)).getAttribute
        = s.getAttribute
  | .setAttribute attr tcgets tcsets =>
      (s.next (.setAttribute attr tcgets tcsets)).getBaud = s.getBaud

/-- After a call that succeeds, what was set last is read back; a call leaves the other setting
alone; and it fails if `TCSETS` fails. -/
structure ReadBack (a : Act) : Prop where
  baud : (a.perform s.cflag).1 = Hdf.success → ∀ b, (s.next a).baud = some b →
    (s.next a).getBaud = some b
  attr : (a.perform s.cflag).1 = Hdf.success → ∀ t, (s.next a).attr = some t →
    (s.next a).getAttribute = some t
  other : s.LeavesOther a
  applied : ¬a.tcsets → (a.perform s.cflag).1 ≠ Hdf.success

/-- The attributes that are read back as they are set. -/
def Plain (attr : UartAttribute) : Prop :=
  attr.dataBits = .databit8 ∧ (attr.parity = .none ∨ attr.parity = .odd)
    ∧ attr.stopBits ≠ .other ∧ ¬attr.cts ∧ ¬attr.rts

/-- A rate that is set is 9600, and `TCSETS` succeeds if the other ioctls do; some bit other than
those of `CSIZE` is set in the low half of `c_cflag` where a rate is applied; and attributes that
are set are plain. -/
def Fit : Act → Prop
  | .setBaud baudRate tcgets tcsets tiocgserial tiocsserial =>
      (tcgets ∧ tiocgserial ∧ tiocsserial → tcsets ∧ baudRate = 9600)
        ∧ (tcgets ∧ tcsets → s.cflag.setWidth 16 &&& ~~~csize.setWidth 16 ≠ 0)
  | .setAttribute attr tcgets tcsets => tcgets ∧ tcsets → Plain attr

/-- What was set last is what is read back. -/
structure Inv : Prop where
  baud : ∀ b, s.baud = some b → b = 9600
  attr : ∀ t, s.attr = some t → s.getAttribute = some t

end State

/-! ### What is read back -/

/-- A value has none of the bits of a mask exactly if it is zero at each of them. -/
theorem and_mask_eq_zero_iff {m : BitVec 32} (bits : List Nat)
    (hmask : ∀ i < 32, m.getLsbD i = decide (i ∈ bits)) (hlt : ∀ i ∈ bits, i < 32)
    (x : BitVec 32) :
  x &&& m = 0 ↔ ∀ i ∈ bits, x.getLsbD i = false
  := by
  constructor
  · intro h i hi
    have hbit := congrArg (fun y => y.getLsbD i) h
    simpa [hmask i (hlt i hi), hi] using hbit
  · intro h
    apply BitVec.eq_of_getLsbD_eq
    intro i hi
    rw [BitVec.getLsbD_and, hmask i hi]
    by_cases hmem : i ∈ bits
    · simp [h i hmem]
    · simp [hmem]

/-- No rate has all the bits of `CBAUD`: the rate that is read back is the default one. -/
theorem cflagToBaudRate_eq (flag : BitVec 16) :
  cflagToBaudRate flag = 9600
  := by
  have hall : ∀ b ∈ bauds, b.1.setWidth 32 &&& cbaud ≠ cbaud := by decide
  have hself : (flag.setWidth 32 ||| cbaud) &&& cbaud = cbaud := by
    apply BitVec.eq_of_getLsbD_eq
    intro i _
    rw [BitVec.getLsbD_and, BitVec.getLsbD_or]
    cases cbaud.getLsbD i <;> simp
  have hnone : (bauds.find? fun b => b.1.setWidth 32 = flag.setWidth 32 ||| cbaud) = none := by
    rw [List.find?_eq_none]
    intro b hb heq
    apply hall b hb
    rw [of_decide_eq_true heq, hself]
  unfold cflagToBaudRate
  rw [hnone]

/-- The parity that is read back is odd or none. -/
theorem pariTyToAttr_eq (ps : BitVec 16) :
  pariTyToAttr ps = if ps.getLsbD 8 ∨ ps.getLsbD 9 then .odd else .none
  := by
  have hmask : ps.setWidth 32 &&& (parenb ||| parodd) = 0 ↔ ¬(ps.getLsbD 8 ∨ ps.getLsbD 9) := by
    rw [and_mask_eq_zero_iff [8, 9] (by decide) (by decide)]
    simp
  unfold pariTyToAttr
  by_cases hbits : ps.getLsbD 8 ∨ ps.getLsbD 9
  · rw [if_pos hbits, if_pos fun hzero => hmask.mp hzero hbits]
  · have hparenb : ps.setWidth 32 &&& parenb = 0 := by
      rw [and_mask_eq_zero_iff [8] (by decide) (by decide)]
      simp only [not_or] at hbits
      simpa using hbits.1
    rw [if_neg hbits, if_neg (not_not.mpr (hmask.mpr hbits)), if_neg fun h => h.2 hparenb]
    split <;> rfl

/-- The stop bits that are read back. -/
theorem stopBitToAttr_eq (st : BitVec 16) :
  stopBitToAttr st = if st.getLsbD 6 then .stopbit2 else .stopbit1
  := by
  have hmask : st.setWidth 32 &&& cstopb = 0 ↔ ¬st.getLsbD 6 := by
    rw [and_mask_eq_zero_iff [6] (by decide) (by decide)]
    simp
  unfold stopBitToAttr
  by_cases hbit : st.getLsbD 6
  · have hne : st.setWidth 32 &&& cstopb ≠ 0 := fun hzero => hmask.mp hzero hbit
    rw [if_pos hbit, if_neg hne, if_pos hne]
  · rw [if_neg hbit, if_pos (hmask.mpr hbit)]

/-- `CRTSCTS` is not in the low half of `c_cflag`: no flow control is read back. -/
theorem ctsRtsToAttr_eq (cr : BitVec 16) :
  ctsRtsToAttr cr = false
  := by
  apply decide_eq_false
  rw [not_not, and_mask_eq_zero_iff [31] (by decide) (by decide)]
  simp

/-- The bits of `CSIZE` are cleared before they are compared. -/
theorem csToAttr_eq (cs : BitVec 16) :
  csToAttr cs = if cs &&& ~~~csize.setWidth 16 = 0 then .databit5 else .databit8
  := by
  have hbit (i : Nat) (h : (csize.setWidth 16).getLsbD i = true) :
      (cs &&& ~~~csize.setWidth 16).getLsbD i = false := by
    simp [h]
  have hne (v : BitVec 16) (i : Nat) (h : (csize.setWidth 16).getLsbD i = true)
      (hv : v.getLsbD i = true) : cs &&& ~~~csize.setWidth 16 ≠ v := by
    intro heq
    rw [← heq, hbit i h] at hv
    cases hv
  unfold csToAttr
  dsimp only
  rw [if_neg (hne cs7 5 (by decide) (by decide)), if_neg (hne cs8 4 (by decide) (by decide)),
    if_neg (hne cs6 4 (by decide) (by decide))]
  rfl

/-! ### What is set -/

/-- The bits of a rate are those of a case. -/
theorem baudRateToCflag_mem (baudRate : Nat) :
  ∃ b ∈ bauds, baudRateToCflag baudRate = b.1
  := by
  unfold baudRateToCflag
  cases hfind : bauds.find? fun b => b.2 = baudRate with
  | none => exact ⟨(b9600, 9600), by decide, rfl⟩
  | some b => exact ⟨b, List.mem_of_find?_eq_some hfind, rfl⟩

/-- A rate leaves the bits of the attributes. -/
theorem getLsbD_setRate (cflag : BitVec 32) (baudRate : Nat) {i : Nat} (h : i ∈ [6, 8, 9]) :
  (setRate cflag baudRate).getLsbD i = cflag.getLsbD i
  := by
  obtain ⟨b, hb, heq⟩ := baudRateToCflag_mem baudRate
  have hclear : ∀ i ∈ [6, 8, 9], ∀ b ∈ bauds, b.1.getLsbD i = false := by decide
  have hcbaud : ∀ i ∈ [6, 8, 9], i < 32 ∧ cbaud.getLsbD i = false := by decide
  unfold setRate
  rw [heq]
  rw [BitVec.getLsbD_or, BitVec.getLsbD_and, BitVec.getLsbD_not, BitVec.getLsbD_setWidth,
    hclear i h b hb, (hcbaud i h).2, decide_eq_true (hcbaud i h).1]
  simp

/-- A bit in the low half that is not of `CSIZE`. -/
theorem low_ne_zero {cflag : BitVec 32} {i : Nat} (hi : i < 16) (hcsize : csize.getLsbD i = false)
    (hbit : cflag.getLsbD i = true) :
  cflag.setWidth 16 &&& ~~~csize.setWidth 16 ≠ 0
  := by
  intro hzero
  have hnot := congrArg (fun v => v.getLsbD i) hzero
  rw [BitVec.getLsbD_and, BitVec.getLsbD_not, BitVec.getLsbD_setWidth, BitVec.getLsbD_setWidth,
    hbit, hcsize, decide_eq_true hi] at hnot
  simp at hnot

/-- The stop bits are one bit. -/
theorem getLsbD_setStopBits (cflag : BitVec 32) (stopBits : StopBits) :
  (setStopBits cflag stopBits).getLsbD 6 = decide (stopBits = .stopbit2)
    ∧ ∀ i ∈ [7, 8, 9], (setStopBits cflag stopBits).getLsbD i = cflag.getLsbD i
  := by
  cases stopBits <;> simp [setStopBits, cstopb]

/-- The parity is two bits. -/
theorem getLsbD_setParity (cflag : BitVec 32) (parity : Parity) :
  (setParity cflag parity).getLsbD 8 = decide (parity = .odd ∨ parity = .even)
    ∧ (setParity cflag parity).getLsbD 9 = decide (parity = .odd)
    ∧ (setParity cflag parity).getLsbD 7 = cflag.getLsbD 7
  := by
  cases parity <;> simp [setParity, parenb, parodd]

/-- The flow control is outside the low half. -/
theorem getLsbD_setFlow (cflag : BitVec 32) (cts rts : Bool) :
  (setFlow cflag cts rts).getLsbD 7 = cflag.getLsbD 7
  := by
  unfold setFlow
  split <;> simp [crtscts]

/-- The data bits come with `CREAD`. -/
theorem getLsbD_setDataBits (cflag : BitVec 32) (dataBits : DataBits) :
  (setDataBits cflag dataBits).getLsbD 7 = true
  := by
  simp [setDataBits, clocal, cread, csize]

/-- A rate sets a bit other than those of `CSIZE`. -/
theorem setRate_ne_zero (cflag : BitVec 32) (baudRate : Nat) :
  (setRate cflag baudRate).setWidth 16 &&& ~~~csize.setWidth 16 ≠ 0
  := by
  obtain ⟨b, hb, heq⟩ := baudRateToCflag_mem baudRate
  have hset : ∀ b ∈ bauds, ∃ i < 16, b.1.getLsbD i = true ∧ csize.getLsbD i = false := by decide
  obtain ⟨i, hi, hbit, hcsize⟩ := hset b hb
  intro hzero
  have hrate : (setRate cflag baudRate).getLsbD i = true := by
    unfold setRate
    rw [heq, BitVec.getLsbD_or, BitVec.getLsbD_setWidth, hbit,
      decide_eq_true (Nat.lt_trans hi (by decide))]
    simp
  apply low_ne_zero hi hcsize hrate hzero

/-- The bits of the attributes after they are set. -/
theorem getLsbD_setAttributes (cflag : BitVec 32) (attr : UartAttribute) :
  (setAttributes cflag attr).getLsbD 7 = true
    ∧ (setAttributes cflag attr).getLsbD 8 = decide (attr.parity = .odd ∨ attr.parity = .even)
    ∧ (setAttributes cflag attr).getLsbD 9 = decide (attr.parity = .odd)
    ∧ (setAttributes cflag attr).getLsbD 6 = decide (attr.stopBits = .stopbit2)
  := by
  unfold setAttributes
  obtain ⟨hstop, hrest⟩ := getLsbD_setStopBits
    (setParity (setFlow (setDataBits cflag attr.dataBits) attr.cts attr.rts) attr.parity)
    attr.stopBits
  obtain ⟨h8, h9, h7⟩ := getLsbD_setParity
    (setFlow (setDataBits cflag attr.dataBits) attr.cts attr.rts) attr.parity
  refine ⟨?_, ?_, ?_, hstop⟩
  · rw [hrest 7 (by decide), h7, getLsbD_setFlow, getLsbD_setDataBits]
  · rw [hrest 8 (by decide), h8]
  · rw [hrest 9 (by decide), h9]

/-- The attributes that are read back from `c_cflag`. -/
def readAttribute (cflag : BitVec 32) : UartAttribute where
  dataBits :=
    if cflag.setWidth 16 &&& ~~~csize.setWidth 16 = 0 then .databit5 else .databit8
  parity := if cflag.getLsbD 8 ∨ cflag.getLsbD 9 then .odd else .none
  stopBits := if cflag.getLsbD 6 then .stopbit2 else .stopbit1
  cts := false
  rts := false

/-- The attributes that are got are those read off the bits of the word. -/
theorem uartAdapterGetAttribute_eq (cflag : BitVec 32) :
  uartAdapterGetAttribute cflag true = (Hdf.success, some (readAttribute cflag))
  := by
  have hbit (i : Nat) (hi : i < 16) : (cflag.setWidth 16).getLsbD i = cflag.getLsbD i := by
    rw [BitVec.getLsbD_setWidth, decide_eq_true hi, Bool.true_and]
  unfold uartAdapterGetAttribute readAttribute
  rw [csToAttr_eq, pariTyToAttr_eq, stopBitToAttr_eq, ctsRtsToAttr_eq, hbit 8 (by decide),
    hbit 9 (by decide), hbit 6 (by decide)]
  rfl

/-- A rate leaves the attributes that are read back, exactly if there is a bit other than those of
`CSIZE` before. -/
theorem readAttribute_setRate_iff (cflag : BitVec 32) (baudRate : Nat) :
  readAttribute (setRate cflag baudRate) = readAttribute cflag
    ↔ cflag.setWidth 16 &&& ~~~csize.setWidth 16 ≠ 0
  := by
  unfold readAttribute
  rw [if_neg (setRate_ne_zero cflag baudRate), getLsbD_setRate cflag baudRate (by decide),
    getLsbD_setRate cflag baudRate (by decide), getLsbD_setRate cflag baudRate (by decide)]
  by_cases hzero : cflag.setWidth 16 &&& ~~~csize.setWidth 16 = 0
  · rw [if_pos hzero]
    exact ⟨fun heq => absurd (congrArg UartAttribute.dataBits heq) (by simp),
      fun hne => absurd hzero hne⟩
  · rw [if_neg hzero]
    exact ⟨fun _ => hzero, fun _ => rfl⟩

/-- Attributes are read back as they are set exactly if they are plain. -/
theorem readAttribute_setAttributes_iff (cflag : BitVec 32) (attr : UartAttribute) :
  readAttribute (setAttributes cflag attr) = attr ↔ State.Plain attr
  := by
  obtain ⟨h7, h8, h9, h6⟩ := getLsbD_setAttributes cflag attr
  have hne := low_ne_zero (show 7 < 16 by decide) (by decide) h7
  obtain ⟨dataBits, parity, stopBits, cts, rts⟩ := attr
  unfold readAttribute State.Plain
  rw [if_neg hne, h8, h9, h6, UartAttribute.mk.injEq]
  refine and_congr eq_comm (and_congr ?_ (and_congr ?_ (and_congr ?_ ?_)))
  · cases parity <;> simp
  · cases stopBits <;> simp
  · cases cts <;> simp
  · cases rts <;> simp

/-! ### Runs -/

variable {s : State} {a : Act}

/-- The rate that is got is always 9600. -/
theorem State.getBaud_eq :
  s.getBaud = some 9600
  := by
  unfold State.getBaud uartAdapterGetBaud
  rw [cflagToBaudRate_eq]
  rfl

/-- The attributes that are got are those of the word. -/
theorem State.getAttribute_eq :
  s.getAttribute = some (readAttribute s.cflag)
  := by
  unfold State.getAttribute
  rw [uartAdapterGetAttribute_eq]

/-- When a call that sets a rate succeeds, and what it leaves. -/
theorem uartAdapterSetBaud_eq (cflag : BitVec 32) (baudRate : Nat)
    (tcgets tcsets tiocgserial tiocsserial : Bool) :
  ((uartAdapterSetBaud cflag baudRate tcgets tcsets tiocgserial tiocsserial).1 = Hdf.success
      ↔ tcgets ∧ tiocgserial ∧ tiocsserial)
    ∧ (uartAdapterSetBaud cflag baudRate tcgets tcsets tiocgserial tiocsserial).2
      = if tcgets ∧ tcsets then setRate cflag baudRate else cflag
  := by
  cases tcgets <;> cases tcsets <;> cases tiocgserial <;> cases tiocsserial
    <;> simp [uartAdapterSetBaud, ioctlRet, Hdf.failure, Hdf.success]

/-- When a call that sets attributes succeeds, and what it leaves. -/
theorem uartAdapterSetAttribute_eq (cflag : BitVec 32) (attr : UartAttribute)
    (tcgets tcsets : Bool) :
  ((uartAdapterSetAttribute cflag attr tcgets tcsets).1 = Hdf.success ↔ tcgets ∧ tcsets)
    ∧ (uartAdapterSetAttribute cflag attr tcgets tcsets).2
      = if tcgets ∧ tcsets then setAttributes cflag attr else cflag
  := by
  cases tcgets <;> cases tcsets
    <;> simp [uartAdapterSetAttribute, ioctlRet, Hdf.failure, Hdf.success]

/-- The word after a call is the one the call leaves. -/
theorem State.next_cflag :
  (s.next a).cflag = (a.perform s.cflag).2
  := by
  unfold State.next
  cases a <;> dsimp only <;> split <;> rfl

/-- What was set last, after a call. -/
theorem State.next_setBaud {baudRate : Nat} {tcgets tcsets tiocgserial tiocsserial : Bool}
    (ha : a = .setBaud baudRate tcgets tcsets tiocgserial tiocsserial) :
  (s.next a).attr = s.attr
    ∧ (s.next a).baud
      = if (a.perform s.cflag).1 = Hdf.success then some baudRate else s.baud
  := by
  subst ha
  unfold State.next
  dsimp only
  split <;> exact ⟨rfl, rfl⟩

/-- The attributes that were set last, after a call. -/
theorem State.next_setAttribute {attr : UartAttribute} {tcgets tcsets : Bool}
    (ha : a = .setAttribute attr tcgets tcsets) :
  (s.next a).baud = s.baud
    ∧ (s.next a).attr = if (a.perform s.cflag).1 = Hdf.success then some attr else s.attr
  := by
  subst ha
  unfold State.next
  dsimp only
  split <;> exact ⟨rfl, rfl⟩

/-- A rate leaves the attributes that are read back, exactly if there is a bit other than those of
`CSIZE` where it is applied. -/
theorem State.getAttribute_setBaud_iff (s : State) (baudRate : Nat)
    (tcgets tcsets tiocgserial tiocsserial : Bool) :
  (s.next (.setBaud baudRate tcgets tcsets tiocgserial tiocsserial)).getAttribute = s.getAttribute
    ↔ (tcgets ∧ tcsets → s.cflag.setWidth 16 &&& ~~~csize.setWidth 16 ≠ 0)
  := by
  have hcflag := (uartAdapterSetBaud_eq s.cflag baudRate tcgets tcsets tiocgserial tiocsserial).2
  rw [State.getAttribute_eq, State.getAttribute_eq, State.next_cflag, Option.some_inj]
  change readAttribute (uartAdapterSetBaud _ _ _ _ _ _).2 = _ ↔ _
  rw [hcflag]
  split
  · next happlied =>
      rw [readAttribute_setRate_iff]
      exact ⟨fun hne _ => hne, fun hne => hne happlied⟩
  · next happlied => exact ⟨fun _ h => absurd h happlied, fun _ => rfl⟩

/-- Attributes that a call sets are read back exactly if they are plain. -/
theorem State.getAttribute_setAttribute_iff (s : State) (attr : UartAttribute)
    {tcgets tcsets : Bool} (h : tcgets ∧ tcsets) :
  (s.next (.setAttribute attr tcgets tcsets)).getAttribute = some attr ↔ State.Plain attr
  := by
  have hcflag := (uartAdapterSetAttribute_eq s.cflag attr tcgets tcsets).2
  rw [State.getAttribute_eq, State.next_cflag, Option.some_inj]
  change readAttribute (uartAdapterSetAttribute _ _ _ _).2 = _ ↔ _
  rw [hcflag, if_pos h, readAttribute_setAttributes_iff]

/-- A call that fits keeps what is read back. -/
theorem State.Inv.next (h : s.Inv) (ha : s.Fit a) :
  (s.next a).Inv
  := by
  cases a with
  | setBaud baudRate tcgets tcsets tiocgserial tiocsserial =>
      obtain ⟨hsuccess, hset⟩ := ha
      obtain ⟨hattr, hbaud⟩ := State.next_setBaud (s := s) rfl
      constructor
      · intro b hb
        rw [hbaud] at hb
        split at hb
        · next hret =>
            cases hb
            exact (hsuccess ((uartAdapterSetBaud_eq _ _ _ _ _ _).1.mp hret)).2
        · exact h.baud b hb
      · intro t ht
        rw [hattr] at ht
        rw [(s.getAttribute_setBaud_iff _ _ _ _ _).mpr hset]
        apply h.attr t ht
  | setAttribute attr tcgets tcsets =>
      obtain ⟨hbaud, hattr⟩ := State.next_setAttribute (s := s) rfl
      obtain ⟨hret, hcflag⟩ := uartAdapterSetAttribute_eq s.cflag attr tcgets tcsets
      constructor
      · intro b hb
        rw [hbaud] at hb
        apply h.baud b hb
      · intro t ht
        rw [hattr] at ht
        split at ht
        · next hsuccess =>
            cases ht
            have happlied := hret.mp hsuccess
            exact (s.getAttribute_setAttribute_iff attr happlied).mpr (ha happlied)
        · next hfailed =>
            have hsame : (s.next (.setAttribute attr tcgets tcsets)).cflag = s.cflag := by
              rw [State.next_cflag]
              show (uartAdapterSetAttribute _ _ _ _).2 = _
              rw [hcflag, if_neg fun happlied => hfailed (hret.mpr happlied)]
            rw [State.getAttribute_eq, hsame, ← State.getAttribute_eq]
            apply h.attr t ht

/-- What is set is read back, exactly if the call fits. -/
theorem State.Inv.readBack_call_iff (h : s.Inv) :
  s.ReadBack a ↔ s.Fit a
  := by
  constructor
  · intro hread
    cases a with
    | setBaud baudRate tcgets tcsets tiocgserial tiocsserial =>
        have hret := (uartAdapterSetBaud_eq s.cflag baudRate tcgets tcsets tiocgserial
          tiocsserial).1
        refine ⟨fun hsuccess => ⟨?_, ?_⟩, (s.getAttribute_setBaud_iff _ _ _ _ _).mp hread.other⟩
        · by_contra htcsets
          apply hread.applied htcsets (hret.mpr hsuccess)
        · have hbaud := hread.baud (hret.mpr hsuccess) baudRate (by
            rw [(State.next_setBaud rfl).2]
            exact if_pos (hret.mpr hsuccess))
          rw [State.getBaud_eq] at hbaud
          exact (Option.some.inj hbaud).symm
    | setAttribute attr tcgets tcsets =>
        have hret := (uartAdapterSetAttribute_eq s.cflag attr tcgets tcsets).1
        intro happlied
        rw [← s.getAttribute_setAttribute_iff attr happlied]
        apply hread.attr (hret.mpr happlied)
        rw [(State.next_setAttribute rfl).2]
        exact if_pos (hret.mpr happlied)
  · intro ha
    have hnext := h.next ha
    refine ⟨fun _ b hb => ?_, fun _ t ht => hnext.attr t ht, ?_, ?_⟩
    · rw [State.getBaud_eq, hnext.baud b hb]
    · cases a with
      | setBaud baudRate tcgets tcsets tiocgserial tiocsserial =>
          exact (s.getAttribute_setBaud_iff _ _ _ _ _).mpr ha.2
      | setAttribute attr tcgets tcsets => exact State.getBaud_eq.trans State.getBaud_eq.symm
    · intro htcsets hsuccess
      cases a with
      | setBaud baudRate tcgets tcsets tiocgserial tiocsserial =>
          exact htcsets (ha.1 ((uartAdapterSetBaud_eq _ _ _ _ _ _).1.mp hsuccess)).1
      | setAttribute attr tcgets tcsets =>
          exact htcsets ((uartAdapterSetAttribute_eq _ _ _ _).1.mp hsuccess).2

/-- For every `c_cflag` at first and all calls, what is set is read back and a setting that is not
applied fails, exactly as long as each call fits. -/
theorem readBack_iff (cflag : BitVec 32) (acts : List Act) :
  Along State.next State.ReadBack (.init cflag) acts ↔ Along State.next State.Fit (.init cflag) acts
  := by
  have hiff : ∀ (s : State) a, s.Inv → (s.ReadBack a ↔ s.Fit a) := fun s a h => h.readBack_call_iff
  have hkeep : ∀ (s : State) a, s.Inv → s.Fit a → (s.next a).Inv := fun s a h ha => h.next ha
  apply along_iff hiff hkeep
  exact ⟨fun b hb => (nomatch hb), fun t ht => (nomatch ht)⟩

/-- A rate of 115200 is read back as 9600, and a rate whose `TCSETS` fails is reported as set; seven
data bits, an even parity and flow control are read back as eight, odd and none. -/
theorem not_readBack :
  ∃ rate failed attrs : List Act,
    ¬Along State.next State.ReadBack (.init 0xcb0) rate
      ∧ (rate.foldl State.next (.init 0xcb0)).getBaud = some 9600
      ∧ ¬Along State.next State.ReadBack (.init 0xcb0) failed
      ∧ ¬Along State.next State.ReadBack (.init 0xcb0) attrs
      ∧ (attrs.foldl State.next (.init 0xcb0)).getAttribute
        = some ⟨.databit8, .odd, .stopbit1, false, false⟩
  := by
  refine ⟨[.setBaud 115200 true true true true], [.setBaud 9600 true false true true],
    [.setAttribute ⟨.databit7, .even, .stopbit1, true, true⟩ true true], ?_, by decide, ?_, ?_,
    by decide⟩
  · rintro ⟨hread, -⟩
    exact absurd (hread.baud rfl 115200 rfl) (by decide)
  · rintro ⟨hread, -⟩
    exact hread.applied Bool.false_ne_true rfl
  · rintro ⟨hread, -⟩
    exact absurd (hread.attr rfl ⟨.databit7, .even, .stopbit1, true, true⟩ rfl) (by decide)

end Uart
