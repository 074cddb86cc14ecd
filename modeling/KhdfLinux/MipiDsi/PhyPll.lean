import KhdfLinux.MipiDsi.Config

/-!
# The PLL of the phy

`MipiTxDrvGetPhyPllSet1Set5` multiplies the data rate, in units of the reference clock, with a
divider, and stores a half of the product in a byte.  `pll_encodes_iff` tells from which rates the
settings decode to the product.
-/

namespace MipiDsi

/-- The outputs of `MipiTxDrvGetPhyPllSet1Set5`, which stay unset where the product exceeds
`INT_MAX_VALUE`. -/
def pllOutputs (phyDataRate : UInt32) (pllSet0 : UInt8) : Option (UInt8 × UInt8) :=
  if 0x7fffffff < pllMultiplication phyDataRate pllSet0 then none
  else some (mipiTxDrvGetPhyPllSet1Set5 phyDataRate pllSet0)

/-- The reference divider that a setting stands for. -/
def pllDivider (pllSet0 : UInt8) : Option Nat :=
  if pllSet0 = 0x0 then some 1
  else if pllSet0 = 0x8 then some 2
  else if pllSet0 = 0xa then some 4
  else if pllSet0 = 0xc then some 8
  else if pllSet0 = 0xe then some 16
  else none

/-- The multiplication that two settings stand for. -/
def pllDecode (pllSet1 pllSet5 : UInt8) : Option Nat :=
  if pllSet1 = 0x10 then some (2 * pllSet5.toNat + 1)
  else if pllSet1 = 0x20 then some (2 * (pllSet5.toNat + 1))
  else none

/-- The data rate in units of the reference clock, rounded up. -/
def clockUnits (phyDataRate : UInt32) : Nat := (phyDataRate.toNat + 26) / 27

/-- The settings are written, and decode to the data rate times the divider, which the driver
computes without a loss. -/
structure PllEncodes (phyDataRate : UInt32) : Prop where
  exact : ∃ divider, pllDivider (mipiTxDrvGetPhyPllSet0 phyDataRate) = some divider
    ∧ (pllMultiplication phyDataRate (mipiTxDrvGetPhyPllSet0 phyDataRate)).toNat
      = clockUnits phyDataRate * divider
  decodes : ∃ pllSet1 pllSet5 divider,
    pllOutputs phyDataRate (mipiTxDrvGetPhyPllSet0 phyDataRate) = some (pllSet1, pllSet5)
    ∧ mipiTxDrvSetPhyPllSetX phyDataRate
      = setPhyReg 0x60 (mipiTxDrvGetPhyPllSet0 phyDataRate) ++ setPhyReg 0x64 pllSet1
        ++ setPhyReg 0x65 0x2 ++ setPhyReg 0x66 0x0 ++ setPhyReg 0x67 pllSet5
    ∧ pllDivider (mipiTxDrvGetPhyPllSet0 phyDataRate) = some divider
    ∧ pllDecode pllSet1 pllSet5 = some (clockUnits phyDataRate * divider)

section Pll

variable {phyDataRate : UInt32} {pllSet0 : UInt8} {n : UInt32}

/-- The outputs are set. -/
theorem pllOutputs_eq (phyDataRate : UInt32) :
  pllOutputs phyDataRate (mipiTxDrvGetPhyPllSet0 phyDataRate)
    = some (mipiTxDrvGetPhyPllSet1Set5 phyDataRate (mipiTxDrvGetPhyPllSet0 phyDataRate))
  := if_neg (UInt32.not_lt.mpr (pllMultiplication_le phyDataRate))

/-- The divider of a rate, which is one for large rates and makes the product small for others. -/
theorem divider_cases (phyDataRate : UInt32) :
  ∃ divider, pllDivider (mipiTxDrvGetPhyPllSet0 phyDataRate) = some divider
    ∧ (pllMultiplication phyDataRate (mipiTxDrvGetPhyPllSet0 phyDataRate)).toNat
      = (phyDataRate.toNat + 26) % 4294967296 / 27 * divider
    ∧ 1 ≤ divider ∧ (750 < phyDataRate.toNat → divider = 1)
    ∧ (phyDataRate.toNat ≤ 750 → clockUnits phyDataRate * divider ≤ 64)
  := by
  have hmul (pllRef : UInt32)
      (hle : (phyDataRate.toNat + 26) % 2 ^ 32 / 27 * pllRef.toNat < 2 ^ 32) :
      ((phyDataRate + mipiTxRefClk - 1) / mipiTxRefClk * pllRef).toNat
        = (phyDataRate.toNat + 26) % 4294967296 / 27 * pllRef.toNat := by
    rw [UInt32.toNat_mul, UInt32.toNat_div, roundUp_toNat]
    exact Nat.mod_eq_of_lt hle
  unfold mipiTxDrvGetPhyPllSet0 clockUnits
  simp only [UInt32.lt_iff_toNat_lt]
  split
  · next hlt =>
      have hlarge : 750 < phyDataRate.toNat := hlt
      refine ⟨1, rfl, hmul 1 ?_, Nat.le_refl 1, fun _ => rfl, fun hle => ?_⟩
      · show _ * 1 < _
        omega
      · omega
  next hsmall =>
  have hsmall : phyDataRate.toNat ≤ 750 := Nat.le_of_not_lt hsmall
  split
  · refine ⟨2, rfl, hmul 2 ?_, by decide, fun hlt => by omega, fun _ => by omega⟩
    show _ * 2 < _
    omega
  next hsmall =>
  have hsmall : phyDataRate.toNat ≤ 375 := Nat.le_of_not_lt hsmall
  split
  · refine ⟨4, rfl, hmul 4 ?_, by decide, fun hlt => by omega, fun _ => by omega⟩
    show _ * 4 < _
    omega
  next hsmall =>
  have hsmall : phyDataRate.toNat ≤ 188 := Nat.le_of_not_lt hsmall
  split
  · refine ⟨8, rfl, hmul 8 ?_, by decide, fun hlt => by omega, fun _ => by omega⟩
    show _ * 8 < _
    omega
  next hsmall =>
  have hsmall : phyDataRate.toNat ≤ 94 := Nat.le_of_not_lt hsmall
  refine ⟨16, rfl, hmul 16 ?_, by decide, fun hlt => by omega, fun _ => by omega⟩
  show _ * 16 < _
  omega

/-- The settings for a product decode to it exactly if it is a positive number up to 512. -/
theorem decode_iff (hn : pllMultiplication phyDataRate pllSet0 = n) :
  pllDecode (mipiTxDrvGetPhyPllSet1Set5 phyDataRate pllSet0).1
      (mipiTxDrvGetPhyPllSet1Set5 phyDataRate pllSet0).2 = some n.toNat
    ↔ 1 ≤ n.toNat ∧ n.toNat ≤ 512
  := by
  have hlt := n.toNat_lt
  unfold mipiTxDrvGetPhyPllSet1Set5
  dsimp only
  rw [hn]
  by_cases hodd : n % 2 ≠ 0
  · have hmod : n.toNat % 2 = 1 := by
      have hne : n.toNat % 2 ≠ 0 := fun h => hodd (UInt32.toNat_inj.mp h)
      omega
    have hpos : (1 : UInt32) ≤ n := UInt32.le_iff_toNat_le.mpr (show 1 ≤ n.toNat by omega)
    rw [if_pos hodd]
    show some (2 * ((n - 1) / 2).toUInt8.toNat + 1) = some n.toNat ↔ _
    rw [Option.some_inj, UInt32.toNat_toUInt8, UInt32.toNat_div, UInt32.toNat_sub_of_le _ _ hpos]
    show 2 * ((n.toNat - 1) / 2 % 256) + 1 = n.toNat ↔ _
    omega
  · have hmod : n.toNat % 2 = 0 := congrArg UInt32.toNat (not_not.mp hodd)
    rw [if_neg hodd]
    show some (2 * ((n / 2 - 1).toUInt8.toNat + 1)) = some n.toNat ↔ _
    rw [Option.some_inj, UInt32.toNat_toUInt8, UInt32.toNat_sub, UInt32.toNat_div]
    show 2 * ((4294967296 - 1 + n.toNat / 2) % 4294967296 % 256 + 1) = n.toNat ↔ _
    omega

/-- A rate whose settings decode to it is in the range. -/
theorem PllEncodes.range (h : PllEncodes phyDataRate) :
  1 ≤ phyDataRate.toNat ∧ phyDataRate.toNat ≤ 13824
  := by
  obtain ⟨divider, hdivider, -, -, hlarge, -⟩ := divider_cases phyDataRate
  obtain ⟨⟨divider', hdivider', hexact⟩, pllSet1, pllSet5, divider'', houtputs, -, hdivider'',
    hdecodes⟩ := h
  obtain rfl : divider' = divider := Option.some.inj (hdivider'.symm.trans hdivider)
  obtain rfl : divider'' = divider' := Option.some.inj (hdivider''.symm.trans hdivider)
  rw [pllOutputs_eq] at houtputs
  obtain ⟨rfl, rfl⟩ := Prod.ext_iff.mp (Option.some.inj houtputs)
  rw [← hexact] at hdecodes
  obtain ⟨hone, hmax⟩ := (decode_iff rfl).mp hdecodes
  rw [hexact] at hone hmax
  have hunits : clockUnits phyDataRate = (phyDataRate.toNat + 26) / 27 := rfl
  constructor
  · by_contra hzero
    have hzero' : clockUnits phyDataRate = 0 := by omega
    rw [hzero', Nat.zero_mul] at hone
    omega
  · by_contra hgt
    obtain rfl := hlarge (by omega)
    omega

/-- A rate in the range has a product that fits. -/
theorem product_of_range (h : 1 ≤ phyDataRate.toNat ∧ phyDataRate.toNat ≤ 13824) :
  ∃ divider, pllDivider (mipiTxDrvGetPhyPllSet0 phyDataRate) = some divider
    ∧ (pllMultiplication phyDataRate (mipiTxDrvGetPhyPllSet0 phyDataRate)).toNat
      = clockUnits phyDataRate * divider
    ∧ 1 ≤ clockUnits phyDataRate * divider ∧ clockUnits phyDataRate * divider ≤ 512
  := by
  obtain ⟨divider, hdivider, hproduct, hpos, hlarge, hsmall⟩ := divider_cases phyDataRate
  have hunits : clockUnits phyDataRate = (phyDataRate.toNat + 26) / 27 := rfl
  refine ⟨divider, hdivider, ?_, Nat.mul_pos (by omega) hpos, ?_⟩
  · rw [hproduct, Nat.mod_eq_of_lt (by omega)]
    rfl
  · by_cases hle : phyDataRate.toNat ≤ 750
    · exact Nat.le_trans (hsmall hle) (by decide)
    · rw [hlarge (Nat.lt_of_not_le hle)]
      omega

/-- The settings are those of the data rate exactly for the rates from 1 to 13824. -/
theorem pll_encodes_iff (phyDataRate : UInt32) :
  PllEncodes phyDataRate ↔ 1 ≤ phyDataRate.toNat ∧ phyDataRate.toNat ≤ 13824
  := by
  refine ⟨PllEncodes.range, fun h => ?_⟩
  obtain ⟨divider, hdivider, hexact, hrange⟩ := product_of_range h
  refine ⟨⟨divider, hdivider, hexact⟩, _, _, divider, pllOutputs_eq phyDataRate, rfl, hdivider,
    ?_⟩
  rw [← hexact] at hrange ⊢
  exact (decode_iff rfl).mpr hrange

/-- A configuration in video mode with four lanes. -/
def videoCfg (phyDataRate : UInt32) : ComboDevCfg where
  devno := 0
  laneId := [0, 1, 2, 3]
  outputMode := outputModeDsiVideo
  videoMode := burstMode
  outputFormat := outFormatRgb24Bit
  syncInfo := ⟨1080, 8, 20, 1238, 1920, 10, 26, 16, 0⟩
  phyDataRate
  pixelClk := 148500

/-- The checks do not look at the data rate. -/
theorem videoCfg_accepted (phyDataRate : UInt32) :
  mipiTxCheckCombDevCfg false (videoCfg phyDataRate) = Hdf.success
  := rfl

/-- Configurations with the data rates 0 and 13825 are accepted; their settings decode to 512 and
to 1, for 0 and 513. -/
theorem not_pll_encodes :
  (mipiTxCheckCombDevCfg false (videoCfg 0) = Hdf.success
    ∧ pllDecode (mipiTxDrvGetPhyPllSet1Set5 0 (mipiTxDrvGetPhyPllSet0 0)).1
      (mipiTxDrvGetPhyPllSet1Set5 0 (mipiTxDrvGetPhyPllSet0 0)).2 = some 512
    ∧ ¬PllEncodes (videoCfg 0).phyDataRate)
  ∧ mipiTxCheckCombDevCfg false (videoCfg 13825) = Hdf.success
    ∧ pllDecode (mipiTxDrvGetPhyPllSet1Set5 13825 (mipiTxDrvGetPhyPllSet0 13825)).1
      (mipiTxDrvGetPhyPllSet1Set5 13825 (mipiTxDrvGetPhyPllSet0 13825)).2 = some 1
    ∧ clockUnits 13825 = 513 ∧ ¬PllEncodes (videoCfg 13825).phyDataRate
  := by
  refine ⟨⟨videoCfg_accepted 0, by decide, fun h => ?_⟩, videoCfg_accepted 13825, by decide,
    by decide, fun h => ?_⟩
  · exact absurd h.range.1 (by decide)
  · exact absurd h.range.2 (by decide)

end Pll

end MipiDsi
