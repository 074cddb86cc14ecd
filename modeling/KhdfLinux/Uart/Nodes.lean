import KhdfLinux.Hdf.Base
import KhdfLinux.Lib.Names
import Mathlib.Data.Nat.Digits.Defs

/-!
# The nodes of UART hosts and ADC devices

`HdfUartInit` and `AdcIioReadDrs` copy the name of the driver, without its end, to a buffer that all
hosts, or devices, share; the path that is opened later is made of what is in the buffer then.
`nodes_iff`: after any initialisations, each host and each device opens its own node exactly if all
names are the same and the numbers are printed as they are and fit in the path.
-/

namespace Nodes

open Bytes

/-- The digits of a number. -/
def decimal (n : Nat) : Bytes :=
  if n = 0 then [48] else (Nat.digits 10 n).reverse.map fun d => UInt8.ofNat (48 + d)

/-! ### UART -/

/-- `UART_NAME_LEN`. -/
def uartNameLen : Nat := 20

/-- `UART_PATHNAME_LEN`. -/
def uartPathnameLen : Nat := uartNameLen + 15

/-- `"/dev/"`. -/
def dev : Bytes := [47, 100, 101, 118, 47]

/-- The configuration of a host. -/
structure UartConfig where
  driverName : CString
  num : BitVec 32

/-- `HdfUartInit`, with `g_driverName`. -/
def hdfUartInit (driverName : Bytes) (drName : CString) : Int × Bytes :=
  let driverName := driverName.set (uartNameLen - 1) 0
  if drName.bytes.length > uartNameLen - 1 then (Hdf.failure, driverName)
  else (Hdf.success, memcpy driverName drName.bytes)

/-- What `"%d"` prints of a number of 32 bits. -/
def printed (num : BitVec 32) : Bytes :=
  if num.toInt < 0 then 45 :: decimal num.toInt.natAbs else decimal num.toNat

/-- The path that `UartAdapterInit` opens, if it fits. -/
def uartPath (driverName : Bytes) (num : BitVec 32) : Option Bytes :=
  let name := dev ++ cstr driverName ++ printed num
  if name.length < uartPathnameLen - 1 then some name else none

/-- The path of the configuration. -/
def UartConfig.path (c : UartConfig) : Bytes := dev ++ c.driverName.bytes ++ decimal c.num.toNat

/-- `g_driverName`, and the configurations of the hosts that were initialised. -/
structure UartHosts where
  driverName : Bytes
  hosts : List UartConfig

/-- No host was initialised. -/
def UartHosts.init : UartHosts := ⟨List.replicate uartNameLen 0, []⟩

/-- A host is initialised, if its name is accepted. -/
def UartHosts.initialise (s : UartHosts) (c : UartConfig) : UartHosts :=
  let r := hdfUartInit s.driverName c.driverName
  ⟨r.2, if r.1 = Hdf.success then s.hosts ++ [c] else s.hosts⟩

/-! ### ADC -/

/-- `ADC_DRIVER_PATHNAME_LEN`. -/
def adcDriverPathnameLen : Nat := 128

/-- `AdcIioReadDrs`, as far as it reads the name of the driver, with `g_driverPathname`. -/
def adcIioReadDrs (driverPathname : Bytes) (drName : CString) : Int × Bytes :=
  if drName.bytes.length > adcDriverPathnameLen - 1 then (Hdf.failure, driverPathname)
  else (Hdf.success, memcpy driverPathname drName.bytes)

/-- `g_driverPathname`, and the names of the devices that were initialised. -/
structure AdcDevices where
  driverPathname : Bytes
  devices : List CString

/-- No device was initialised. -/
def AdcDevices.init : AdcDevices := ⟨List.replicate adcDriverPathnameLen 0, []⟩

/-- A device is initialised, if its name is accepted. -/
def AdcDevices.initialise (s : AdcDevices) (drName : CString) : AdcDevices :=
  let r := adcIioReadDrs s.driverPathname drName
  ⟨r.2, if r.1 = Hdf.success then s.devices ++ [drName] else s.devices⟩

/-- The path that `AdcIioStart` opens. -/
def AdcDevices.path (s : AdcDevices) : Bytes := cstr s.driverPathname

/-! ### The buffers -/

/-- The buffer is that of the names that were accepted. -/
structure UartHosts.Inv (s : UartHosts) : Prop where
  driverName : s.driverName = shared uartNameLen (s.hosts.map fun c => c.driverName.bytes)
  length : ∀ c ∈ s.hosts, c.driverName.bytes.length ≤ uartNameLen - 1

/-- The buffer is that of the names that were accepted. -/
structure AdcDevices.Inv (s : AdcDevices) : Prop where
  driverPathname :
    s.driverPathname = shared adcDriverPathnameLen (s.devices.map CString.bytes)
  length : ∀ d ∈ s.devices, d.bytes.length ≤ adcDriverPathnameLen - 1

/-- No host was initialised. -/
theorem UartHosts.inv_init :
  UartHosts.init.Inv
  where
  driverName := rfl
  length _ hc := nomatch hc

/-- A host is initialised. -/
theorem UartHosts.Inv.initialise {s : UartHosts} (h : s.Inv) (c : UartConfig) :
  (s.initialise c).Inv
  := by
  -- the last byte of the buffer is zero already
  have hset : s.driverName.set (uartNameLen - 1) 0 = s.driverName := by
    have hlast : s.driverName[uartNameLen - 1]? = some 0 := by
      rw [h.driverName]
      apply getElem?_shared (by decide)
      intro n hn
      obtain ⟨c', hc', rfl⟩ := List.mem_map.mp hn
      apply h.length c' hc'
    obtain ⟨hlt, hget⟩ := List.getElem?_eq_some_iff.mp hlast
    have hself := List.set_getElem_self hlt
    rwa [hget] at hself
  unfold UartHosts.initialise hdfUartInit
  dsimp only
  rw [hset]
  split
  · exact h
  · next hlength =>
      rw [if_pos rfl]
      constructor
      · show memcpy s.driverName c.driverName.bytes = shared uartNameLen ((s.hosts ++ [c]).map _)
        unfold shared
        rw [List.map_append, List.foldl_append, h.driverName]
        rfl
      · intro c' hc'
        obtain hc' | hc' := List.mem_append.mp hc'
        · apply h.length c' hc'
        · rw [List.mem_singleton.mp hc']
          apply Nat.le_of_not_lt hlength

/-- No device was initialised. -/
theorem AdcDevices.inv_init :
  AdcDevices.init.Inv
  where
  driverPathname := rfl
  length _ hd := nomatch hd

/-- A device is initialised. -/
theorem AdcDevices.Inv.initialise {s : AdcDevices} (h : s.Inv) (drName : CString) :
  (s.initialise drName).Inv
  := by
  unfold AdcDevices.initialise adcIioReadDrs
  dsimp only
  split
  · exact h
  · next hlength =>
      rw [if_pos rfl]
      constructor
      · show memcpy s.driverPathname drName.bytes
          = shared adcDriverPathnameLen ((s.devices ++ [drName]).map _)
        unfold shared
        rw [List.map_append, List.foldl_append, h.driverPathname]
        rfl
      · intro d hd
        obtain hd | hd := List.mem_append.mp hd
        · apply h.length d hd
        · rw [List.mem_singleton.mp hd]
          apply Nat.le_of_not_lt hlength

/-! ### The numbers -/

/-- The digits of a number have no sign. -/
theorem not_mem_decimal (n : Nat) :
  45 ∉ decimal n
  := by
  unfold decimal
  split
  · decide
  · intro hmem
    obtain ⟨d, hd, heq⟩ := List.mem_map.mp hmem
    have hlt : d < 10 := Nat.digits_lt_base (by decide) (List.mem_reverse.mp hd)
    have hall : ∀ d < 10, UInt8.ofNat (48 + d) ≠ 45 := by decide
    apply hall d hlt heq

/-- A number that is printed with its sign is not printed as it is, behind a name that is not
shorter. -/
theorem printed_iff {t name : Bytes} {num : BitVec 32} (h : name.length ≤ t.length) :
  t ++ printed num = name ++ decimal num.toNat ↔ t = name ∧ num.toNat < 2 ^ 31
  := by
  have hneg : num.toInt < 0 ↔ ¬num.toNat < 2 ^ 31 := by
    rw [BitVec.toInt_eq_toNat_cond]
    have hlt := num.isLt
    split <;> omega
  unfold printed
  by_cases hnum : num.toNat < 2 ^ 31
  · rw [if_neg fun hlt => hneg.mp hlt hnum, List.append_cancel_right_eq]
    exact ⟨fun heq => ⟨heq, hnum⟩, fun heq => heq.1⟩
  · rw [if_pos (hneg.mpr hnum)]
    constructor
    · intro heq
      exfalso
      apply not_mem_decimal num.toNat
      obtain ⟨u, hu, hdecimal⟩ | ⟨u, hu, hdecimal⟩ := List.append_eq_append_iff.mp heq
      · have hnil : u = [] := by
          apply List.eq_nil_of_length_eq_zero
          rw [hu, List.length_append] at h
          omega
        subst hnil
        rw [List.nil_append] at hdecimal
        rw [← hdecimal]
        apply List.mem_cons_self
      · rw [hdecimal]
        apply List.mem_append_right _ List.mem_cons_self
    · exact fun heq => absurd heq.2 hnum

/-! ### The paths -/

/-- Each host opens its own node exactly if all have the same name, and the path of each fits with
its number as it is. -/
theorem UartHosts.Inv.own_iff {s : UartHosts} (h : s.Inv) :
  (∀ c ∈ s.hosts, uartPath s.driverName c.num = some c.path)
    ↔ (∀ c ∈ s.hosts, ∀ c' ∈ s.hosts, c.driverName.bytes = c'.driverName.bytes)
      ∧ ∀ c ∈ s.hosts, c.num.toNat < 2 ^ 31 ∧ c.path.length < uartPathnameLen - 1
  := by
  have hshared := cstr_shared_iff (f := UartConfig.driverName) fun c hc =>
    Nat.lt_of_le_of_lt (h.length c hc) (show uartNameLen - 1 < uartNameLen by decide)
  rw [← h.driverName] at hshared
  -- what the path of one host is
  have hpath : ∀ c ∈ s.hosts, uartPath s.driverName c.num = some c.path
      ↔ cstr s.driverName = c.driverName.bytes ∧ c.num.toNat < 2 ^ 31
        ∧ c.path.length < uartPathnameLen - 1 := by
    intro c hc
    have hle : c.driverName.bytes.length ≤ (cstr s.driverName).length := by
      rw [h.driverName]
      apply le_length_cstr_shared zero_names (List.mem_map_of_mem hc)
    have heq : dev ++ cstr s.driverName ++ printed c.num = c.path
        ↔ cstr s.driverName = c.driverName.bytes ∧ c.num.toNat < 2 ^ 31 := by
      unfold UartConfig.path
      rw [List.append_assoc, List.append_assoc, List.append_cancel_left_eq, printed_iff hle]
    unfold uartPath
    dsimp only
    rw [Option.ite_none_right_eq_some, Option.some_inj, and_comm, heq, and_assoc]
    apply and_congr_right
    intro hname
    apply and_congr_right
    intro hnum
    rw [heq.mpr ⟨hname, hnum⟩]
  rw [forall₂_congr hpath, ← hshared, ← forall₂_and]

/-- Each device opens its own file exactly if all have the same name. -/
theorem AdcDevices.Inv.own_iff {s : AdcDevices} (h : s.Inv) :
  (∀ d ∈ s.devices, s.path = d.bytes) ↔ ∀ d ∈ s.devices, ∀ d' ∈ s.devices, d.bytes = d'.bytes
  := by
  have hshared := cstr_shared_iff (f := id) fun d hd =>
    Nat.lt_of_le_of_lt (h.length d hd)
      (show adcDriverPathnameLen - 1 < adcDriverPathnameLen by decide)
  unfold AdcDevices.path
  rw [h.driverPathname]
  apply hshared

end Nodes
