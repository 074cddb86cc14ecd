import KhdfLinux.Lib.Run
import KhdfLinux.Spi.Adapter

/-!
# The nodes of the SPI

A node is found by its chip select and bound to the device that an open found, whose configuration
it keeps.  `bound_iff`: over any calls, the nodes that are found are those of the chip selects
that were opened, each bound to the device of its chip select with the configuration in force there,
exactly as long as only chip select zero is opened, on a controller that has one, and what
`spi_setup` leaves in a device is the configuration that was asked for, or that was kept if it
failed.
-/

namespace Spi

/-- The configuration is the one in force on a device with these settings. -/
structure Settings.InForce (spidev : Settings) (cfg : SpiCfg) : Prop where
  bitsPerWord : cfg.bitsPerWord = spidev.bitsPerWord
  maxSpeedHz : cfg.maxSpeedHz = spidev.maxSpeedHz
  mode : cfg.mode = linuxSpiModeToHdfMode spidev.mode

/-- What is written for a configuration is that configuration, unless its mode has other bits than
those both know. -/
theorem SpiCfg.written_inForce_iff (cfg : SpiCfg) :
  cfg.written.InForce cfg ↔ cfg.mode = cfg.mode &&& 0xff
  := by
  rw [← linuxSpiModeToHdfMode_hdfSpiModeToLinuxMode]
  exact ⟨fun h => h.mode, fun h => ⟨rfl, rfl, h⟩⟩

namespace State

variable (bus : List SpiDevice) (busNum : BitVec 32) (s : State)

/-- The node that is found. -/
def find (cs : Nat) : Option SpiDev := s.cntlr.bind fun cntlr => cntlr.spiFindDeviceByCsNum cs

/-- The nodes of the controller. -/
def nodes : List SpiDev := (s.cntlr.map SpiCntlr.list).getD []

/-- The device has that place on the bus, and that chip select. -/
def AtCs (i cs : Nat) : Prop := ∃ d, bus[i]? = some d ∧ d.Matches busNum cs

/-- A node is found exactly for a chip select that was opened, bound to the device of the chip
select; each chip select has one node at most; the device that is used is the one of the current
chip select; and what is got is the configuration in force on the device. -/
structure Bound : Prop where
  found : ∀ cs, (s.find cs).isSome ↔ cs ∈ s.opened
  device : ∀ cs dev, s.find cs = some dev → ∃ i, dev.priv = some i ∧ AtCs bus busNum i cs
  nodup : (s.nodes.map SpiDev.csNum).Nodup
  uses : ∀ u ∈ s.uses, AtCs bus busNum u.device u.cs
  getCfg : ∀ cs cfg, ((s.select cs).spiAdatperGetCfg true).2 = some cfg →
    ∃ i, (s.select cs).device = some i ∧ (s.settings i).InForce cfg

/-- Chip select zero is opened, on a controller that has one; and what is left in a device that is
set up is the configuration that was asked for if it succeeds, and the one that was kept if not. -/
def Plain : Act → Prop
  | .openDev alloced =>
      ∀ i cntlr, s.opens bus alloced = some i → s.cntlr = some cntlr →
        cntlr.curCs = 0 ∧ 0 < cntlr.numCs
  | .setCfg cfg spiSetup =>
      ∀ cntlr dev cfg', s.cntlr = some cntlr → s.find cntlr.curCs = some dev → dev.priv.isSome →
        cfg = some cfg' →
          (spiSetup cfg'.written).2.InForce
            (if (spiSetup cfg'.written).1 = 0 then cfg' else dev.cfg)
  | _ => True

/-- One node, of chip select zero and bound to its device. -/
structure One (cntlr : SpiCntlr) (dev : SpiDev) (i : Nat) : Prop where
  owner : s.cntlr = some cntlr
  list : cntlr.list = [dev]
  numCs : 0 < cntlr.numCs
  csNum : dev.csNum = 0
  priv : dev.priv = some i
  device : AtCs bus busNum i 0
  opened : ∀ cs, cs ∈ s.opened ↔ cs = 0

/-- There is no node and nothing was opened, or one node that has the configuration in force. -/
structure Inv : Prop where
  sameBus : ∀ cntlr, s.cntlr = some cntlr → cntlr.busNum = busNum
  nodes : s.nodes = [] ∧ s.opened = []
    ∨ ∃ cntlr dev i, s.One bus busNum cntlr dev i ∧ (s.settings i).InForce dev.cfg
  uses : ∀ u ∈ s.uses, AtCs bus busNum u.device u.cs

end State

variable {bus : List SpiDevice} {busNum : BitVec 32} {s : State} {cntlr : SpiCntlr} {dev : SpiDev}
  {i : Nat}

/-- Nothing was opened. -/
theorem State.inv_init (busNum : BitVec 32) (numCs curCs : Nat) (settings : Nat → Settings) :
  (State.init busNum numCs curCs settings).Inv bus busNum
  where
  sameBus cntlr hcntlr := by
    obtain rfl := Option.some.inj hcntlr
    rfl
  nodes := .inl ⟨rfl, rfl⟩
  uses _ hu := nomatch hu

/-- What is got is the configuration of the node that is found, which has a device. -/
theorem State.spiAdatperGetCfg_select {cs : Nat} {cfg : SpiCfg} :
  ((s.select cs).spiAdatperGetCfg true).2 = some cfg
    ↔ ∃ dev, s.find cs = some dev ∧ dev.priv.isSome ∧ dev.cfg = cfg
  := by
  unfold State.spiAdatperGetCfg State.select State.find
  cases s.cntlr with
  | none => exact iff_of_false (fun h => nomatch h) fun ⟨_, h, _⟩ => nomatch h
  | some cntlr =>
      dsimp only [Option.map_some, Option.bind_some]
      have hselect : SpiCntlr.spiFindDeviceByCsNum { cntlr with curCs := cs } cs
          = cntlr.spiFindDeviceByCsNum cs := rfl
      rw [hselect]
      cases cntlr.spiFindDeviceByCsNum cs with
      | none => exact iff_of_false (fun h => nomatch h) fun ⟨_, h, _⟩ => nomatch h
      | some dev => cases hpriv : dev.priv <;> simp [hpriv]

/-- The device of the chip select that is made the current one. -/
theorem State.select_device (cs : Nat) :
  (s.select cs).device = (s.find cs).bind SpiDev.priv
  := by
  unfold State.device State.select State.find
  cases s.cntlr <;> rfl

/-- The only node is found for chip select zero. -/
theorem State.One.find (h : s.One bus busNum cntlr dev i) (cs : Nat) :
  s.find cs = if cs = 0 then some dev else none
  := by
  unfold State.find SpiCntlr.spiFindDeviceByCsNum
  rw [h.owner]
  show (if cntlr.numCs ≤ cs then none else cntlr.list.find? fun dev => dev.csNum = cs) = _
  rw [h.list, List.find?_singleton, h.csNum]
  by_cases hcs : cs = 0
  · subst hcs
    simp [Nat.not_le.mpr h.numCs]
  · simp [hcs, Ne.symm hcs]

/-- Without nodes none is found. -/
theorem State.find_of_nodes (h : s.nodes = []) (cs : Nat) :
  s.find cs = none
  := by
  unfold State.find SpiCntlr.spiFindDeviceByCsNum
  unfold State.nodes at h
  cases hcntlr : s.cntlr with
  | none => rfl
  | some cntlr =>
      rw [hcntlr] at h
      have hlist : cntlr.list = [] := h
      show (if cntlr.numCs ≤ cs then none else cntlr.list.find? fun dev => dev.csNum = cs) = none
      rw [hlist]
      split <;> rfl

/-- A state with the invariant is bound. -/
theorem State.Inv.bound (h : s.Inv bus busNum) :
  s.Bound bus busNum
  := by
  obtain ⟨hnodes, hopened⟩ | ⟨cntlr, dev, i, hone, hinForce⟩ := h.nodes
  · have hfind := State.find_of_nodes hnodes
    constructor
    · intro cs
      rw [hfind, hopened]
      exact iff_of_false (fun h => nomatch h) List.not_mem_nil
    · intro cs dev hdev
      rw [hfind] at hdev
      cases hdev
    · rw [hnodes]
      apply List.nodup_nil
    · apply h.uses
    · intro cs cfg hcfg
      obtain ⟨dev, hdev, -⟩ := State.spiAdatperGetCfg_select.mp hcfg
      rw [hfind] at hdev
      cases hdev
  · have hfind := hone.find
    have hdev : ∀ cs dev', s.find cs = some dev' → cs = 0 ∧ dev' = dev := by
      intro cs dev' hdev'
      rw [hfind] at hdev'
      split at hdev'
      · next hcs => exact ⟨hcs, (Option.some.inj hdev').symm⟩
      · cases hdev'
    constructor
    · intro cs
      rw [hfind, hone.opened]
      split <;> simp [*]
    · intro cs dev' hdev'
      obtain ⟨rfl, rfl⟩ := hdev cs dev' hdev'
      exact ⟨i, hone.priv, hone.device⟩
    · unfold State.nodes
      rw [hone.owner]
      show (cntlr.list.map SpiDev.csNum).Nodup
      rw [hone.list]
      apply List.nodup_singleton
    · apply h.uses
    · intro cs cfg hcfg
      obtain ⟨dev', hdev', -, rfl⟩ := State.spiAdatperGetCfg_select.mp hcfg
      obtain ⟨rfl, rfl⟩ := hdev cs dev' hdev'
      refine ⟨i, ?_, hinForce⟩
      rw [State.select_device, hdev']
      apply hone.priv

/-- Only chip select zero has a node. -/
theorem State.Inv.cs_of_find {cs : Nat} (h : s.Inv bus busNum) (hfind : s.find cs = some dev) :
  cs = 0
  := by
  obtain ⟨hnodes, -⟩ | ⟨cntlr, dev', i, hone, -⟩ := h.nodes
  · rw [State.find_of_nodes hnodes] at hfind
    cases hfind
  · rw [hone.find] at hfind
    by_contra hcs
    rw [if_neg hcs] at hfind
    cases hfind

/-- All nodes are of chip select zero. -/
theorem State.Inv.csNum (h : s.Inv bus busNum) (hdev : dev ∈ s.nodes) :
  dev.csNum = 0
  := by
  obtain ⟨hnodes, -⟩ | ⟨cntlr, dev', i, hone, -⟩ := h.nodes
  · rw [hnodes] at hdev
    cases hdev
  · unfold State.nodes at hdev
    rw [hone.owner] at hdev
    have hdev : dev ∈ cntlr.list := hdev
    rw [hone.list] at hdev
    rw [List.mem_singleton.mp hdev, hone.csNum]

/-- The device that a call uses is that of the only node. -/
theorem State.Inv.one_of_device (h : s.Inv bus busNum) (hcntlr : s.cntlr = some cntlr)
    (hdevice : cntlr.device = some i) :
  cntlr.curCs = 0 ∧ ∃ dev, s.One bus busNum cntlr dev i ∧ (s.settings i).InForce dev.cfg
  := by
  obtain ⟨dev, hdev, hpriv⟩ := Option.bind_eq_some_iff.mp hdevice
  have hfind : s.find cntlr.curCs = some dev := by
    unfold State.find
    rw [hcntlr, ← hdev]
    rfl
  obtain ⟨hnodes, -⟩ | ⟨cntlr', dev', i', hone, hinForce⟩ := h.nodes
  · rw [State.find_of_nodes hnodes] at hfind
    cases hfind
  · obtain rfl := Option.some.inj (hcntlr.symm.trans hone.owner)
    rw [hone.find] at hfind
    split at hfind
    · next hcurCs =>
        obtain rfl := Option.some.inj hfind
        obtain rfl := Option.some.inj (hpriv.symm.trans hone.priv)
        exact ⟨hcurCs, _, hone, hinForce⟩
    · cases hfind

/-- The node depends on the controller and on what was opened. -/
theorem State.One.congr {t : State} (h : s.One bus busNum cntlr dev i) (hcntlr : t.cntlr = s.cntlr)
    (hopened : t.opened = s.opened) :
  t.One bus busNum cntlr dev i
  where
  owner := hcntlr.trans h.owner
  list := h.list
  numCs := h.numCs
  csNum := h.csNum
  priv := h.priv
  device := h.device
  opened := by
    rw [hopened]
    apply h.opened

/-- A device is used that is bound to the node of the current chip select. -/
theorem State.Inv.used {t : State} {new : List Use} (h : s.Inv bus busNum)
    (hcntlr : t.cntlr = s.cntlr) (hopened : t.opened = s.opened)
    (hsettings : t.settings = s.settings) (huses : t.uses = new ++ s.uses)
    (hnew : ∀ u ∈ new, ∃ cntlr, s.cntlr = some cntlr ∧ u.Of s cntlr) :
  t.Inv bus busNum
  where
  sameBus cntlr h' := h.sameBus cntlr (hcntlr ▸ h')
  nodes := by
    unfold State.nodes
    rw [hcntlr, hopened, hsettings]
    apply h.nodes.imp_right
    rintro ⟨cntlr, dev, i, hone, hinForce⟩
    exact ⟨cntlr, dev, i, hone.congr hcntlr hopened, hinForce⟩
  uses u hu := by
    rw [huses] at hu
    obtain hu | hu := List.mem_append.mp hu
    · obtain ⟨cntlr, hcntlr, hof⟩ := hnew u hu
      obtain ⟨hcurCs, dev, hone, -⟩ := h.one_of_device hcntlr hof.device
      rw [hof.cs, hcurCs]
      apply hone.device
    · apply h.uses u hu

/-- The only node is changed, and stays the only one. -/
theorem State.One.modifyDev {t : State} {f : SpiDev → SpiDev} {j : Nat}
    (h : s.One bus busNum cntlr dev i) (hcurCs : cntlr.curCs = 0)
    (hcntlr : t.cntlr = some (cntlr.modifyDev f)) (hcsNum : (f dev).csNum = dev.csNum)
    (hpriv : (f dev).priv = some j) (hdevice : AtCs bus busNum j 0)
    (hopened : ∀ cs, cs ∈ t.opened ↔ cs = 0) :
  t.One bus busNum (cntlr.modifyDev f) (f dev) j
  where
  owner := hcntlr
  list := by
    unfold SpiCntlr.modifyDev
    rw [h.list, hcurCs]
    simp [List.findIdx_cons, h.csNum]
  numCs := h.numCs
  csNum := hcsNum.trans h.csNum
  priv := hpriv
  device := hdevice
  opened := hopened

/-- The only node is configured, if its device could be set up. -/
theorem State.One.configured {cfg : SpiCfg} {setup : Int × Settings}
    (h : s.One bus busNum cntlr dev i) (hcurCs : cntlr.curCs = 0) :
  ∃ cntlr', cntlr'.busNum = cntlr.busNum ∧ (s.configured cntlr i cfg setup).One bus busNum cntlr'
    { dev with cfg := if setup.1 = 0 then cfg else dev.cfg } i
  := by
  by_cases hret : setup.1 = 0
  · have howner : (s.configured cntlr i cfg setup).cntlr
        = some (cntlr.modifyDev fun dev => { dev with cfg := cfg }) := by
      unfold State.configured
      rw [if_pos hret]
    rw [if_pos hret]
    exact ⟨cntlr.modifyDev _, rfl,
      h.modifyDev hcurCs howner rfl h.priv h.device h.opened⟩
  · have howner : (s.configured cntlr i cfg setup).cntlr = s.cntlr := by
      unfold State.configured
      rw [if_neg hret, h.owner]
    rw [if_neg hret]
    exact ⟨cntlr, rfl, h.congr howner rfl⟩

/-- Chip select zero is opened: the only node is bound, or created. -/
theorem State.Inv.openDev {alloced : Bool} (h : s.Inv bus busNum)
    (hplain : s.Plain bus (.openDev alloced)) :
  (s.next bus (.openDev alloced)).Inv bus busNum
  := by
  cases hopens : s.opens bus alloced with
  | none =>
      rw [State.next_openDev_none hopens]
      apply h
  | some i =>
      obtain ⟨cntlr, hcntlr, hfound, hnext⟩ := State.next_openDev_some hopens
      obtain ⟨hcurCs, hnumCs⟩ := hplain i cntlr hopens hcntlr
      have hbusNum := h.sameBus cntlr hcntlr
      have hdevice : State.AtCs bus busNum i 0 := by
        obtain ⟨-, d, hd, hmatches⟩ := SpiCntlr.matches_of_findOn hfound
        rw [hbusNum, hcurCs] at hmatches
        exact ⟨d, hd, hmatches⟩
      rw [hnext, hcurCs]
      refine ⟨fun cntlr' hcntlr' => ?_, .inr ?_, h.uses⟩
      · obtain rfl := Option.some.inj hcntlr'
        rw [SpiCntlr.bound_busNum, hbusNum]
      have hfind : cntlr.spiFindDeviceByCsNum cntlr.curCs = s.find cntlr.curCs := by
        unfold State.find
        rw [hcntlr]
        rfl
      obtain ⟨hnodes, hopened⟩ | ⟨cntlr', dev, j, hone, -⟩ := h.nodes
      · have hlist : cntlr.list = [] := by
          unfold State.nodes at hnodes
          rw [hcntlr] at hnodes
          apply hnodes
        rw [State.find_of_nodes hnodes] at hfind
        have hbound : cntlr.bound i (s.settings i)
            = { cntlr with list := [SpiCntlr.spiDevCreat.spiDevInit i (s.settings i)] } := by
          unfold SpiCntlr.bound
          rw [hfind, hlist]
          rfl
        refine ⟨_, _, i, ⟨rfl, by rw [hbound], ?_, rfl, rfl, hdevice, fun cs => ?_⟩, rfl, rfl, rfl⟩
        · rw [SpiCntlr.bound_numCs]
          apply hnumCs
        · show cs ∈ 0 :: s.opened ↔ cs = 0
          rw [hopened, List.mem_singleton]
      · obtain rfl := Option.some.inj (hcntlr.symm.trans hone.owner)
        rw [hone.find, if_pos hcurCs] at hfind
        have hbound : cntlr.bound i (s.settings i)
            = cntlr.modifyDev fun dev => dev.spiDevInit i (s.settings i) := by
          unfold SpiCntlr.bound
          rw [hfind]
        refine ⟨_, _, i, hone.modifyDev hcurCs (congrArg some hbound) rfl rfl hdevice fun cs => ?_,
          rfl, rfl, rfl⟩
        show cs ∈ 0 :: s.opened ↔ cs = 0
        rw [List.mem_cons, hone.opened, or_self]

/-- Another chip select is the current one. -/
theorem State.Inv.select (h : s.Inv bus busNum) (cs : Nat) :
  (s.select cs).Inv bus busNum
  := by
  refine ⟨fun cntlr hcntlr => ?_, ?_, h.uses⟩
  · obtain ⟨cntlr', hcntlr', rfl⟩ := Option.map_eq_some_iff.mp hcntlr
    apply h.sameBus cntlr' hcntlr'
  · have hnodes : (s.select cs).nodes = s.nodes := by
      unfold State.nodes State.select
      cases s.cntlr <;> rfl
    rw [hnodes]
    apply h.nodes.imp_right
    rintro ⟨cntlr, dev, i, hone, hinForce⟩
    refine ⟨{ cntlr with curCs := cs }, dev, i, ⟨?_, hone.list, hone.numCs, hone.csNum, hone.priv,
      hone.device, hone.opened⟩, hinForce⟩
    unfold State.select
    rw [hone.owner]
    rfl

/-- A configuration is set up: the only node has the one that is left in the device. -/
theorem State.Inv.setCfg {cfg : Option SpiCfg} {spiSetup : Settings → Int × Settings}
    (h : s.Inv bus busNum) (hplain : s.Plain bus (.setCfg cfg spiSetup)) :
  (s.next bus (.setCfg cfg spiSetup)).Inv bus busNum
  := by
  cases hdevice : s.device with
  | none =>
      rw [State.next_setCfg_none spiSetup (.inr hdevice)]
      apply h
  | some i =>
      cases cfg with
      | none =>
          rw [State.next_setCfg_none spiSetup (.inl rfl)]
          apply h
      | some cfg =>
          obtain ⟨cntlr, hcntlr, hi⟩ := Option.bind_eq_some_iff.mp hdevice
          obtain ⟨hcurCs, dev, hone, -⟩ := h.one_of_device hcntlr hi
          have hfind : s.find cntlr.curCs = some dev := by rw [hone.find, if_pos hcurCs]
          have hcfg := hplain cntlr dev cfg hcntlr hfind (Option.isSome_of_mem hone.priv) rfl
          obtain ⟨cntlr', hbusNum, hone'⟩ := hone.configured hcurCs
          rw [State.next_setCfg_some spiSetup hcntlr hi]
          refine ⟨fun cntlr'' hcntlr'' => ?_, .inr ⟨cntlr', _, i, hone', ?_⟩, fun u hu => ?_⟩
          · obtain rfl := Option.some.inj (hone'.owner.symm.trans hcntlr'')
            rw [hbusNum, h.sameBus cntlr hcntlr]
          · have hleft : (s.configured cntlr i cfg (spiSetup cfg.written)).settings i
                = (spiSetup cfg.written).2 := Function.update_self i _ _
            rw [hleft]
            apply hcfg
          · obtain rfl | hu := List.mem_cons.mp hu
            · show State.AtCs bus busNum i cntlr.curCs
              rw [hcurCs]
              apply hone.device
            · apply h.uses u hu

/-- A call that is plain keeps the invariant. -/
theorem State.Inv.next {a : Act} (h : s.Inv bus busNum) (ha : s.Plain bus a) :
  (s.next bus a).Inv bus busNum
  := by
  cases a with
  | select cs => apply h.select
  | getCfg cfg => apply h
  | openDev alloced => apply h.openDev ha
  | setCfg cfg spiSetup => apply h.setCfg ha
  | transfer msgs =>
      obtain ⟨new, hnext, hof, -⟩ := State.next_transfer bus s msgs
      rw [hnext]
      exact h.used rfl rfl rfl rfl hof
  | close =>
      cases hdevice : s.device with
      | none =>
          rw [State.next_close_none hdevice]
          apply h
      | some i =>
          obtain ⟨cntlr, hcntlr, hi⟩ := Option.bind_eq_some_iff.mp hdevice
          rw [State.next_close_some hcntlr hi]
          let u : Use := ⟨i, cntlr.curCs, s.refs i, .put⟩
          have hnew : ∀ v ∈ [u], ∃ cntlr, s.cntlr = some cntlr ∧ v.Of s cntlr := by
            intro v hv
            rw [List.mem_singleton.mp hv]
            exact ⟨cntlr, hcntlr, hi, rfl, rfl⟩
          exact h.used rfl rfl rfl rfl hnew
  | release => exact ⟨fun _ hcntlr => (nomatch hcntlr), .inl ⟨rfl, rfl⟩, h.uses⟩

/-- An open after which the state is bound is of chip select zero. -/
theorem State.Bound.openDev {alloced : Bool} (h : s.Inv bus busNum)
    (ht : (s.next bus (.openDev alloced)).Bound bus busNum) :
  s.Plain bus (.openDev alloced)
  := by
  intro i cntlr hopens hcntlr
  obtain ⟨cntlr', hcntlr', -, hnext⟩ := State.next_openDev_some hopens
  obtain rfl := Option.some.inj (hcntlr.symm.trans hcntlr')
  rw [hnext] at ht
  have hsome := (ht.found cntlr.curCs).mpr List.mem_cons_self
  obtain ⟨dev, hdev⟩ := Option.isSome_iff_exists.mp hsome
  have hdev : (cntlr.bound i (s.settings i)).spiFindDeviceByCsNum cntlr.curCs = some dev := hdev
  unfold SpiCntlr.spiFindDeviceByCsNum at hdev
  rw [SpiCntlr.bound_numCs] at hdev
  split at hdev
  · cases hdev
  · next hnumCs =>
      have hcsNum : dev.csNum = cntlr.curCs := by simpa using List.find?_some hdev
      have hmem := List.mem_of_find?_eq_some hdev
      have hcurCs : cntlr.curCs = 0 := by
        unfold SpiCntlr.bound at hmem
        split at hmem
        · next hfind =>
            apply h.cs_of_find
            unfold State.find
            rw [hcntlr]
            apply hfind
        · obtain hmem | hmem := List.mem_append.mp hmem
          · rw [← hcsNum]
            apply h.csNum
            unfold State.nodes
            rw [hcntlr]
            apply hmem
          · rw [← hcsNum, List.mem_singleton.mp hmem]
            rfl
      exact ⟨hcurCs, hcurCs ▸ Nat.not_le.mp hnumCs⟩

/-- A configuration after which the state is bound is the one that is left in the device. -/
theorem State.Bound.setCfg {cfg : Option SpiCfg} {spiSetup : Settings → Int × Settings}
    (h : s.Inv bus busNum) (ht : (s.next bus (.setCfg cfg spiSetup)).Bound bus busNum) :
  s.Plain bus (.setCfg cfg spiSetup)
  := by
  rintro cntlr dev cfg' hcntlr hfind hpriv rfl
  obtain ⟨i, hi⟩ := Option.isSome_iff_exists.mp hpriv
  have hdevice : cntlr.device = some i := by
    unfold State.find at hfind
    rw [hcntlr] at hfind
    exact Option.bind_eq_some_iff.mpr ⟨dev, hfind, hi⟩
  obtain ⟨hcurCs, dev', hone, -⟩ := h.one_of_device hcntlr hdevice
  obtain rfl : dev' = dev := by
    rw [hone.find, if_pos hcurCs] at hfind
    exact Option.some.inj hfind
  obtain ⟨cntlr', -, hone'⟩ := hone.configured hcurCs
  rw [State.next_setCfg_some spiSetup hcntlr hdevice] at ht
  have hfind' := (hone'.find 0).trans (if_pos rfl)
  obtain ⟨j, hj, hinForce⟩ := ht.getCfg 0 _ (State.spiAdatperGetCfg_select.mpr
    ⟨_, hfind', Option.isSome_of_mem hone'.priv, rfl⟩)
  rw [State.select_device, hfind'] at hj
  obtain rfl := Option.some.inj (hone.priv.symm.trans hj)
  have hleft : (s.configured cntlr i cfg' (spiSetup cfg'.written)).settings i
      = (spiSetup cfg'.written).2 := Function.update_self i _ _
  rw [hleft] at hinForce
  apply hinForce

/-- Over any calls the state is bound, exactly as long as they are plain. -/
theorem bound_iff (bus : List SpiDevice) (busNum : BitVec 32) (numCs curCs : Nat)
    (settings : Nat → Settings) (acts : List Act) :
  Along (State.next bus) (fun s a => (s.next bus a).Bound bus busNum)
      (.init busNum numCs curCs settings) acts
    ↔ Along (State.next bus) (State.Plain bus) (.init busNum numCs curCs settings) acts
  := by
  have hiff : ∀ (s : State) a, s.Inv bus busNum →
      ((s.next bus a).Bound bus busNum ↔ s.Plain bus a) := by
    intro s a h
    refine ⟨fun ht => ?_, fun ha => (h.next ha).bound⟩
    cases a with
    | openDev alloced => apply State.Bound.openDev h ht
    | setCfg cfg spiSetup => apply State.Bound.setCfg h ht
    | _ => trivial
  have hkeep : ∀ (s : State) a, s.Inv bus busNum → s.Plain bus a → (s.next bus a).Inv bus busNum :=
    fun s a h ha => h.next ha
  apply along_iff hiff hkeep (State.inv_init busNum numCs curCs settings)

/-- A chip select other than zero is opened and has no node; and a configuration that could not be
set up stays in the device, while the one before is got. -/
theorem not_bound :
  ∃ (bus : List SpiDevice) (s t : State) (other failed : List Act),
    s = .init 0 2 1 (fun _ => ⟨8, 0, 0⟩) ∧ t = .init 0 2 0 (fun _ => ⟨8, 0, 0⟩)
      ∧ bus.map SpiDevice.chipSelect = [0, 1]
      ∧ ¬Along (State.next bus) (fun s a => (s.next bus a).Bound bus 0) s other
      ∧ 1 ∈ (other.foldl (State.next bus) s).opened
      ∧ (other.foldl (State.next bus) s).find 1 = none
      ∧ ((other.foldl (State.next bus) s).find 0).bind SpiDev.priv = some 1
      ∧ ¬Along (State.next bus) (fun s a => (s.next bus a).Bound bus 0) t failed
      ∧ ((failed.foldl (State.next bus) t).settings 0).bitsPerWord = 16
      ∧ ((failed.foldl (State.next bus) t).spiAdatperGetCfg true).2
        = some ⟨0, 0, .interrupt, 8⟩
  := by
  refine ⟨[⟨some 0, 0⟩, ⟨some 0, 1⟩], _, _, [.openDev true],
    [.openDev true, .setCfg (some ⟨0, 0, .interrupt, 16⟩) fun written => (-22, written)],
    rfl, rfl, rfl, ?_, List.mem_cons_self, rfl, rfl, ?_, rfl, rfl⟩
  · rintro ⟨hopen, -⟩
    exact absurd ((hopen.found 1).mpr List.mem_cons_self) (by decide)
  · rintro ⟨-, hsetCfg, -⟩
    obtain ⟨i, hi, hinForce⟩ := hsetCfg.getCfg 0 ⟨0, 0, .interrupt, 8⟩ rfl
    obtain rfl := Option.some.inj hi
    exact absurd hinForce.bitsPerWord (by decide)

end Spi
