import KhdfLinux.Usb.BoundEndpoints

/-!
# The reverse map of the endpoints

`eps_revmap` tells for the number of a physical endpoint which endpoint of the function it is.
`ffsFuncSetup` and `ffsFuncReqMatch` ask it about the endpoint a control request is directed to.

A bind writes the map when it claims an endpoint, at the number of the endpoint without its
direction, and no call clears it: `Mapped` says what the cells hold after a bind.
-/

namespace Ffs

open Bytes Exec Heap Walk

/-! ### Control requests -/

namespace UsbCtrlrequest

/-- The recipient of the request. -/
def recipient (creq : UsbCtrlrequest) : UInt8 := creq.bRequestType &&& usbRecipMask

/-- The request is directed to the endpoint with the address. -/
def ToEndpoint (creq : UsbCtrlrequest) (addr : UInt8) : Prop :=
  creq.recipient = usbRecipEndpoint ∧ creq.wIndex = addr.toUInt16

end UsbCtrlrequest

namespace BindState

/-- `ffs_func_revmap_ep`. -/
def ffsFuncRevmapEp (func : BindState) (num : UInt8) : Int :=
  if func.epsRevmap (num &&& usbEndpointNumberMask).toNat ≠ 0 then
    func.epsRevmap (num &&& usbEndpointNumberMask).toNat
  else
    -edom

/-- What `ffs_func_setup` puts in the place of `wIndex`. -/
def setupIndex (func : BindState) (creq : UsbCtrlrequest) : Exec FfsEv Int :=
  if creq.recipient = usbRecipInterface then
    let ret := EpsState.ffsFuncRevmapIntf func.function creq.wIndex.toUInt8
    if ret < 0 then stop (.ret ret) else pure ret
  else if creq.recipient = usbRecipEndpoint then
    let ret := func.ffsFuncRevmapEp creq.wIndex.toUInt8
    if ret < 0 then
      stop (.ret ret)
    else if hasFlag func.ffs.userFlags functionfsVirtualAddr then
      if ret < ffsMaxEpsCount then pure (func.ffs.addrAt ret.toNat).toNat
      else stop (.fault .outOfBounds)
    else
      pure ret
  else if hasFlag func.ffs.userFlags functionfsAllCtrlRecip then
    pure creq.wIndex.toNat
  else
    stop (.ret (-eopnotsupp))

/-- `ffs_func_setup`. -/
def ffsFuncSetup (func : BindState) (state : FfsState) (creq : UsbCtrlrequest) :
    Exec FfsEv Int := do
  if state ≠ .active then
    stop (.ret (-enodev))
  else
    let ret ← func.setupIndex creq
    modify fun ev => { ev with setup := { creq with wIndex := UInt16.ofNat (u16 ret) } }
    ffsEventAdd .setup
    pure (if creq.wLength = 0 then usbGadgetDelayedStatus else 0)

/-- `ffs_func_req_match`. -/
def ffsFuncReqMatch (func : BindState) (creq : UsbCtrlrequest) (config0 : Bool) : Bool :=
  if config0 ∧ ¬hasFlag func.ffs.userFlags functionfsConfig0Setup then
    false
  else if creq.recipient = usbRecipInterface then
    0 ≤ EpsState.ffsFuncRevmapIntf func.function creq.wIndex.toUInt8
  else if creq.recipient = usbRecipEndpoint then
    0 ≤ func.ffsFuncRevmapEp creq.wIndex.toUInt8
  else
    hasFlag func.ffs.userFlags functionfsAllCtrlRecip

/-- `ffs_func_unbind`: the chunk is freed, and what points to it is cleared. -/
def ffsFuncUnbind (func : BindState) : BindState :=
  { func with
    live := func.live.erase (func.next - 1)
    descriptors := fun _ => none
    eps := []
    interfacesNums := fun _ => 0
    bound := false }

end BindState

/-! ### Binds and unbinds -/

/-- What is in `ffs` comes from a blob that was accepted. -/
def FfsData.Accepted (ffs : FfsData) : Prop :=
  ∃ (fdget : EventfdCtxFdget) (m : Bytes) (ffs₀ : FfsData) (t : Heap FfsData),
    12 ≤ m.length ∧ m.length < 2147483648
      ∧ (ffsDataGotDescs fdget m.length).run ⟨m, ffs₀⟩ = .ok () t ∧ t.priv = ffs

/-- The gadget writes the addresses of the endpoints it finds. -/
def UsbConfig.Addresses (c : UsbConfig) (address : Nat → UInt8) : Prop :=
  ∀ claimed bytes config, c.autoconfig claimed bytes = some config →
    config.bEndpointAddress = address config.ep

/-- What happens to a function. -/
inductive FuncAct where
  /-- `_ffs_func_bind`, for what was read into an `ffs_data`. -/
  | bind (ffs : FfsData) (c : UsbConfig)
  /-- `_ffs_func_bind` returns a code. -/
  | bindFails (ffs : FfsData) (c : UsbConfig)
  | unbind

/-- The steps of a function, of a gadget whose endpoints have the addresses.  A bind that fails may
be tried again. -/
def FuncStep (address : Nat → UInt8) (s : Heap BindState) : FuncAct → Heap BindState → Prop
  | .bind ffs c, t =>
      s.priv.bound = false ∧ ffs.Accepted ∧ c.Addresses address
        ∧ (ffsFuncBind c).run ⟨s.mem, { s.priv with ffs }⟩ = .ok () t
  | .bindFails ffs c, t =>
      s.priv.bound = false ∧ ffs.Accepted ∧ c.Addresses address
        ∧ ∃ code, (ffsFuncBind c).run ⟨s.mem, { s.priv with ffs }⟩ = .error (.ret code) t
  | .unbind, t => s.priv.bound = true ∧ t = ⟨s.mem, s.priv.ffsFuncUnbind⟩

/-! ### What the map is for -/

namespace BindState

/-- An endpoint of the function has the address. -/
def HasAddress (func : BindState) (address : Nat → UInt8) (addr : UInt8) : Prop :=
  ∃ i e, func.function.eps i = some e ∧ address e = addr

/-- The index, or the virtual address, of the endpoint `i`. -/
def reportedIndex (func : BindState) (i : Nat) : UInt16 :=
  if hasFlag func.ffs.userFlags functionfsVirtualAddr then (func.ffs.addrAt (i + 1)).toUInt16
  else UInt16.ofNat (i + 1)

/-- A request to the address is taken to be for the endpoint `i`: it is reported with the index
of the endpoint, or with its virtual address, and it is matched. -/
structure Reports (func : BindState) (addr : UInt8) (i : Nat) : Prop where
  revmap : func.ffsFuncRevmapEp addr = i + 1
  setup : ∀ creq ev, creq.ToEndpoint addr → ev.Valid →
    ∃ ev', (func.ffsFuncSetup .active creq).run ev
        = .ok (if creq.wLength = 0 then usbGadgetDelayedStatus else 0) ev'
      ∧ ev'.queue = arrive .setup ev.queue
      ∧ ev'.setup = { creq with wIndex := func.reportedIndex i }
  reqMatch : ∀ creq (config0 : Bool), creq.ToEndpoint addr →
    (config0 → hasFlag func.ffs.userFlags functionfsConfig0Setup) →
    func.ffsFuncReqMatch creq config0

/-- A request to the address is refused, and not matched. -/
structure Refuses (func : BindState) (addr : UInt8) : Prop where
  revmap : func.ffsFuncRevmapEp addr = -edom
  setup : ∀ creq ev, creq.ToEndpoint addr →
    (func.ffsFuncSetup .active creq).run ev = .error (.ret (-edom)) ev
  reqMatch : ∀ creq (config0 : Bool), creq.ToEndpoint addr → ¬func.ffsFuncReqMatch creq config0

/-- The map is right: requests are reported for the endpoints that have their addresses, and those
to other addresses are refused. -/
structure MapRight (func : BindState) (address : Nat → UInt8) : Prop where
  reports : ∀ i e, func.function.eps i = some e → func.Reports (address e) i
  refuses : ∀ addr, addr &&& 0x70 = 0 → ¬func.HasAddress address addr → func.Refuses addr

end BindState

section Requests

variable {func : BindState} {addr : UInt8} {creq : UsbCtrlrequest} {i : Nat}

theorem UsbCtrlrequest.ToEndpoint.address (h : creq.ToEndpoint addr) :
  creq.wIndex.toUInt8 = addr
  := by
  rw [h.2]
  apply UInt8.toUInt8_toUInt16 addr

theorem UsbCtrlrequest.ToEndpoint.not_interface (h : creq.ToEndpoint addr) :
  creq.recipient ≠ usbRecipInterface
  := by
  rw [h.1]
  decide

/-- What the map says of an address decides what is reported. -/
theorem setupIndex_toEndpoint (h : creq.ToEndpoint addr) :
  func.setupIndex creq
    = if func.ffsFuncRevmapEp addr < 0 then
        stop (.ret (func.ffsFuncRevmapEp addr))
      else if hasFlag func.ffs.userFlags functionfsVirtualAddr then
        if func.ffsFuncRevmapEp addr < ffsMaxEpsCount then
          pure ((func.ffs.addrAt (func.ffsFuncRevmapEp addr).toNat).toNat : Int)
        else stop (.fault .outOfBounds)
      else
        pure (func.ffsFuncRevmapEp addr)
  := by
  unfold BindState.setupIndex
  rw [if_neg h.not_interface, if_pos h.1, h.address]

/-- What the map says of an address decides what is matched. -/
theorem ffsFuncReqMatch_toEndpoint {config0 : Bool} (h : creq.ToEndpoint addr) :
  func.ffsFuncReqMatch creq config0
    = (!(config0 && !hasFlag func.ffs.userFlags functionfsConfig0Setup)
      && decide (0 ≤ func.ffsFuncRevmapEp addr))
  := by
  unfold BindState.ffsFuncReqMatch
  rw [if_neg h.not_interface, if_pos h.1, h.address]
  cases config0 with
  | false => simp
  | true => cases hasFlag func.ffs.userFlags functionfsConfig0Setup <;> simp

/-- An address that the map has. -/
theorem BindState.reports_of_revmap (h : func.ffsFuncRevmapEp addr = i + 1)
    (hi : i + 1 < ffsMaxEpsCount) :
  func.Reports addr i
  := by
  have hmax : ffsMaxEpsCount = 31 := rfl
  refine ⟨h, ?_, ?_⟩
  · intro creq ev hto hev
    have hindex : ∃ ret : Int, (func.setupIndex creq).run ev = .ok ret ev
        ∧ UInt16.ofNat (u16 ret) = func.reportedIndex i := by
      rw [setupIndex_toEndpoint hto, h, if_neg (by omega)]
      unfold reportedIndex
      by_cases hvirt : hasFlag func.ffs.userFlags functionfsVirtualAddr
      · rw [if_pos hvirt, if_pos hvirt, if_pos (by omega)]
        refine ⟨_, rfl, ?_⟩
        have hlt := (func.ffs.addrAt (i + 1)).toNat_lt
        rw [show ((i : Int) + 1).toNat = i + 1 by omega, u16_of_lt (by omega)]
        apply UInt16.toNat_inj.mp
        simp
      · rw [if_neg hvirt, if_neg hvirt]
        refine ⟨_, rfl, ?_⟩
        rw [show (i : Int) + 1 = (i + 1 : Nat) by omega, u16_of_lt (by omega)]
    obtain ⟨ret, hret, hreported⟩ := hindex
    have hvalid : FfsEv.Valid { ev with setup := { creq with wIndex := func.reportedIndex i } } :=
      ⟨hev.count_le, hev.distinct⟩
    obtain ⟨ev', hadd, hqueue, -, -, hsetup, -⟩ := ffsEventAdd_spec hvalid .setup
    refine ⟨ev', ?_, hqueue, hsetup⟩
    unfold ffsFuncSetup
    rw [if_neg (by simp), EStateM.run_bind, hret]
    dsimp only
    rw [EStateM.run_bind, EStateM.run_modify, hreported]
    dsimp only
    rw [EStateM.run_bind, hadd]
    rfl
  · intro creq config0 hto hconfig0
    rw [ffsFuncReqMatch_toEndpoint hto, h]
    cases config0 with
    | false => simp; omega
    | true => simp [hconfig0 rfl]; omega

/-- An address that the map does not have. -/
theorem BindState.refuses_of_revmap (h : func.ffsFuncRevmapEp addr = -edom) :
  func.Refuses addr
  := by
  refine ⟨h, ?_, ?_⟩
  · intro creq ev hto
    unfold ffsFuncSetup
    rw [if_neg (by simp), EStateM.run_bind, setupIndex_toEndpoint hto, h, if_pos (by decide)]
    rfl
  · intro creq config0 hto
    rw [ffsFuncReqMatch_toEndpoint hto, h]
    simp [edom]

end Requests

/-! ### What a bind writes into the map -/

/-- The number of an endpoint, without its direction. -/
def epNumber (addr : UInt8) : Nat := (addr &&& usbEndpointNumberMask).toNat

/-- Each cell of the map holds the index of an endpoint with that number, or what it held before,
if there is none. -/
structure Mapped (address : Nat → UInt8) (before : Nat → Nat) (ffs : FfsData) (func : BindState) :
    Prop where
  ffs_eq : func.ffs = ffs
  length : func.eps.length = ffs.epsCount
  cells : ∀ n,
    (∃ i e, func.function.eps i = some e ∧ epNumber (address e) = n ∧ func.epsRevmap n = i + 1)
      ∨ (∀ i e, func.function.eps i = some e → epNumber (address e) ≠ n)
        ∧ func.epsRevmap n = before n

section Claim

variable {address : Nat → UInt8} {before : Nat → Nat} {ffs : FfsData} {func func' : BindState}
  {idx : Nat}

/-- To change an endpoint leaves the others. -/
theorem function_eps_setEp (f : FfsEp → FfsEp) (i : Nat) :
  (func.setEp idx f).function.eps i
    = if i = idx then (func.eps[idx]?.map f).bind FfsEp.ep else func.function.eps i
  := by
  show ((func.eps.modify idx f)[i]?).bind FfsEp.ep = _
  by_cases hi : i = idx
  · subst hi
    rw [List.getElem?_modify_eq, if_pos rfl]
    rfl
  · rw [List.getElem?_modify_ne _ _ (Ne.symm hi), if_neg hi]
    rfl

/-- A change that does not claim the endpoint. -/
theorem function_eps_setEp_of_same {f : FfsEp → FfsEp} (hf : ∀ ep, (f ep).ep = ep.ep) :
  (func.setEp idx f).function.eps = func.function.eps
  := by
  funext i
  rw [function_eps_setEp]
  split
  · rename_i hi
    subst hi
    show _ = func.eps[i]?.bind FfsEp.ep
    cases func.eps[i]? with
    | none => rfl
    | some ep => exact hf ep
  · rfl

/-- Only what `Mapped` speaks of matters. -/
theorem Mapped.congr (h : Mapped address before ffs func) (hffs : func'.ffs = func.ffs)
    (hlength : func'.eps.length = func.eps.length)
    (heps : func'.function.eps = func.function.eps) (hmap : func'.epsRevmap = func.epsRevmap) :
  Mapped address before ffs func'
  := by
  refine ⟨hffs.trans h.ffs_eq, hlength.trans h.length, ?_⟩
  rw [heps, hmap]
  apply h.cells

/-- An endpoint is claimed. -/
theorem Mapped.claim (h : Mapped address before ffs func) {e : Nat} (req : Bool)
    (hidx : idx < func.eps.length) (hnone : func.function.eps idx = none) :
  Mapped address before ffs
    ((func.setEp idx fun ep => { ep with ep := some e, req }).setRevmap (address e) (idx + 1))
  := by
  have heps : ∀ i, ((func.setEp idx fun ep => { ep with ep := some e, req }).setRevmap
      (address e) (idx + 1)).function.eps i = if i = idx then some e else func.function.eps i := by
    intro i
    refine (function_eps_setEp (fun ep => { ep with ep := some e, req }) i).trans ?_
    rw [List.getElem?_eq_getElem hidx]
    rfl
  refine ⟨h.ffs_eq, (List.length_modify _ _ _).trans h.length, fun n => ?_⟩
  by_cases hn : n = epNumber (address e)
  · subst hn
    refine .inl ⟨idx, e, ?_, rfl, ?_⟩
    · rw [heps, if_pos rfl]
    · apply Function.update_self _ _ _
  have hcell : ((func.setEp idx fun ep => { ep with ep := some e, req }).setRevmap
      (address e) (idx + 1)).epsRevmap n = func.epsRevmap n :=
    Function.update_of_ne hn _ _
  rw [hcell]
  obtain ⟨i, e', hi, hnum, hval⟩ | ⟨hno, hval⟩ := h.cells n
  · refine .inl ⟨i, e', ?_, hnum, hval⟩
    rw [heps, if_neg, hi]
    rintro rfl
    rw [hnone] at hi
    cases hi
  · refine .inr ⟨fun i e' hi => ?_, hval⟩
    rw [heps] at hi
    split at hi
    · obtain rfl := Option.some.inj hi
      apply Ne.symm hn
    · apply hno i e' hi

end Claim

/-- An endpoint of the function is claimed. -/
def BindState.HasClaimed (func : BindState) : Prop := ∃ i e, func.function.eps i = some e

/-- A property of the endpoints and the map that is kept when an endpoint is claimed. -/
structure ClaimInvariant (address : Nat → UInt8) (P : BindState → Prop) : Prop where
  same : ∀ func func' : BindState, func'.ffs = func.ffs → func'.eps.length = func.eps.length →
    func'.function.eps = func.function.eps → func'.epsRevmap = func.epsRevmap → P func → P func'
  claim : ∀ (func : BindState) idx e req, idx < func.eps.length → func.function.eps idx = none →
    P func →
    P ((func.setEp idx fun ep => { ep with ep := some e, req }).setRevmap (address e) (idx + 1))

theorem claimInvariant_mapped (address : Nat → UInt8) (before : Nat → Nat) (ffs : FfsData) :
  ClaimInvariant address (Mapped address before ffs)
  := by
  constructor
  · intro func func' hffs hlength heps hmap h
    apply h.congr hffs hlength heps hmap
  · intro func idx e req hidx hnone h
    apply h.claim req hidx hnone

theorem claimInvariant_hasClaimed (address : Nat → UInt8) :
  ClaimInvariant address BindState.HasClaimed
  := by
  constructor
  · rintro func func' - - heps - ⟨i, e, hi⟩
    refine ⟨i, e, ?_⟩
    rw [heps]
    apply hi
  · rintro func idx e req - hnone ⟨i, e', hi⟩
    refine ⟨i, e', ?_⟩
    refine (function_eps_setEp (fun ep => { ep with ep := some e, req }) i).trans ?_
    rw [if_neg, hi]
    rintro rfl
    rw [hnone] at hi
    cases hi

section Walks

variable {address : Nat → UInt8} {P : BindState → Prop} {c : UsbConfig} {s : Heap BindState}
  {idx ds : Nat}

/-- What is settled decides the property. -/
theorem ClaimInvariant.of_settled (hP : ClaimInvariant address P) {func func' : BindState}
    (h : func'.settled = func.settled) (hfunc : P func) :
  P func'
  := by
  have heps : func'.eps = func.eps := congrArg (fun d => d.1.2.2.2) h
  have hffs : func'.ffs = func.ffs := congrArg (fun d => d.1.1.1) h
  apply hP.same func func' hffs _ _ (congrArg (fun d => d.2.1) h) hfunc
  · rw [heps]
  · funext i
    show func'.eps[i]?.bind FfsEp.ep = func.eps[i]?.bind FfsEp.ep
    rw [heps]

theorem ClaimInvariant.preserves (hP : ClaimInvariant address P) {α : Type} {x : BindExec α}
    (h : KeepsSettled x) :
  Preserves (fun s => P s.priv) x
  := by
  intro s hs
  apply (h s).mono
  · intro a t ht
    apply hP.of_settled ht hs
  · intro e t ht
    apply hP.of_settled ht hs

/-- To claim an endpoint keeps the property, and leaves an endpoint that is claimed. -/
theorem claimEp_invariant (hP : ClaimInvariant address P) (hc : c.Addresses address)
    (hidx : idx < s.priv.eps.length) (hnone : s.priv.function.eps idx = none) (hs : P s.priv) :
  (claimEp c idx ds).Meets s
    (fun _ t => P t.priv ∧ t.priv.HasClaimed) (fun _ t => P t.priv)
  := by
  have hsame : ∀ t : Heap BindState, t.priv = s.priv → P t.priv := by
    intro t ht
    rw [ht]
    apply hs
  have hpriv : ∀ {α : Type} {x : BindExec α}, Keeps (fun s => s.priv) x → ∀ t : Heap BindState,
      t.priv = s.priv → x.Meets t (fun _ u => u.priv = s.priv) fun _ u => P u.priv := by
    intro α x hx t ht
    refine (hx t).mono (fun _ u hu => hu.trans ht) fun _ u hu => hsame u (hu.trans ht)
  have hwrite : ∀ p v, Keeps (fun s : Heap BindState => s.priv) (write8 p v) :=
    fun p v => keeps_write8 (f := fun func => func) p v
  unfold claimEp
  refine meets_bind ((hpriv (keeps_read8 _) s rfl).mono ?_ fun _ _ he => he)
  intro addr t ht
  refine meets_bind ((hpriv ((keeps_read8 _).map _) t ht).mono ?_ fun _ _ he => he)
  intro length t ht
  refine meets_bind ((hpriv (keeps_readBytes _ _) t ht).mono ?_ fun _ _ he => he)
  intro bytes t ht
  refine meets_step (run_look t) ?_
  cases hauto : c.autoconfig t.priv.claimed bytes with
  | none => exact meets_stop (hsame t ht)
  | some config =>
      refine meets_bind ((hpriv (hwrite _ _) t ht).mono ?_ fun _ _ he => he)
      intro _ u hu
      refine meets_bind ((hpriv ((hwrite _ _).bind fun _ => hwrite _ _) u hu).mono ?_
        fun _ _ he => he)
      intro _ u hu
      refine meets_step (run_update _ u) ?_
      have hclaimed : P { u.priv with claimed := config.ep :: u.priv.claimed } :=
        hP.same u.priv _ rfl rfl rfl rfl (hsame u hu)
      refine meets_guard (fun _ => hclaimed) fun _ => ?_
      refine meets_step (run_update _ _) (meets_step (run_update _ _) ?_)
      rw [hc _ _ _ hauto]
      have hdone : P (({ u.priv with claimed := config.ep :: u.priv.claimed }.setEp idx
          fun ep => { ep with ep := some config.ep, req := true }).setRevmap
            (address config.ep) (idx + 1)) := by
        apply hP.claim _ _ _ _ _ _ hclaimed
        · rw [hu]
          apply hidx
        · rw [hu]
          apply hnone
      have hhas : (({ u.priv with claimed := config.ep :: u.priv.claimed }.setEp idx
          fun ep => { ep with ep := some config.ep, req := true }).setRevmap
            (address config.ep) (idx + 1)).HasClaimed := by
        refine ⟨idx, config.ep, ?_⟩
        apply (function_eps_setEp (fun ep => { ep with ep := some config.ep, req := true })
          idx).trans
        rw [if_pos rfl, hu, List.getElem?_eq_getElem hidx]
        rfl
      have hrest : Preserves (fun s : Heap BindState => P s.priv ∧ s.priv.HasClaimed)
          (if hasFlag t.priv.ffs.userFlags functionfsVirtualAddr then write8 (ds + 2) addr
            else pure ()) :=
        preserves_ite ((hwrite _ _).preserves fun func => P func ∧ func.HasClaimed)
          (preserves_pure _)
      exact (hrest _ ⟨hdone, hhas⟩).mono (fun _ _ hu => hu) fun _ _ hu => hu.1

/-- A descriptor of an endpoint keeps the property, and leaves an endpoint that is claimed. -/
theorem bindEpDesc_invariant (hP : ClaimInvariant address P) (hc : c.Addresses address)
    (speed : Speed) (hs : P s.priv) :
  (bindEpDesc c speed ds).Meets s
    (fun _ t => P t.priv ∧ t.priv.HasClaimed) (fun _ t => P t.priv)
  := by
  unfold bindEpDesc
  refine meets_step (run_look s) ?_
  have hread : (read8 (ds + 2)).Meets s (fun _ t => t = s) fun _ t => P t.priv := by
    apply Meets.mono (keeps_read8 (F := fun s : Heap BindState => s) (ds + 2) s)
    · exact fun _ _ ht => ht
    · rintro _ t (rfl : t = s)
      apply hs
  refine meets_bind (hread.mono ?_ fun _ _ he => he)
  rintro addr t rfl
  cases ffsEpAddr2idx t.priv.ffs addr with
  | none => exact meets_stop hs
  | some i =>
      dsimp only
      by_cases hidx : i - 1 < t.priv.eps.length
      case neg =>
        refine meets_bind ?_
        rw [checkIndex, if_neg hidx]
        apply meets_stop hs
      refine meets_step (run_checkIndex hidx t) ?_
      rw [List.getElem?_eq_getElem hidx]
      refine meets_step rfl (meets_guard (fun _ => hs) fun _ => ?_)
      refine meets_step (run_update _ t) ?_
      have hfunction : (t.priv.setEp (i - 1) fun ep =>
          { ep with descs := Function.update ep.descs speed (some ds) }).function.eps
            = t.priv.function.eps :=
        function_eps_setEp_of_same fun _ => rfl
      have hnext : P (t.priv.setEp (i - 1) fun ep =>
          { ep with descs := Function.update ep.descs speed (some ds) }) :=
        hP.same t.priv _ rfl (List.length_modify _ _ _) hfunction rfl hs
      have hep : t.priv.function.eps (i - 1) = t.priv.eps[i - 1].ep := by
        show t.priv.eps[i - 1]?.bind FfsEp.ep = _
        rw [List.getElem?_eq_getElem hidx]
        rfl
      by_cases hclaimed : t.priv.eps[i - 1].ep.isSome
      · rw [if_pos hclaimed]
        obtain ⟨e, he⟩ := Option.isSome_iff_exists.mp hclaimed
        have hhas : (t.priv.setEp (i - 1) fun ep =>
            { ep with descs := Function.update ep.descs speed (some ds) }).HasClaimed := by
          refine ⟨i - 1, e, ?_⟩
          rw [hfunction, hep, he]
        have hboth := (keeps_shareEp BindState.settled
          { t.priv.eps[i - 1] with
            descs := Function.update t.priv.eps[i - 1].descs speed (some ds) } ds)
          ⟨t.mem, t.priv.setEp (i - 1) fun ep =>
            { ep with descs := Function.update ep.descs speed (some ds) }⟩
        refine hboth.mono ?_ fun _ u hu => hP.of_settled hu hnext
        intro _ u hu
        exact ⟨hP.of_settled hu hnext, (claimInvariant_hasClaimed address).of_settled hu hhas⟩
      · rw [if_neg hclaimed]
        apply claimEp_invariant hP hc
        · show i - 1 < (t.priv.eps.modify _ _).length
          rw [List.length_modify]
          apply hidx
        · rw [hfunction, hep]
          simpa using hclaimed
        · apply hnext

/-- The callback for the descriptors keeps the property. -/
theorem preserves_ffsFuncBindDoDescs (hP : ClaimInvariant address P) (hc : c.Addresses address)
    (e : Entity) :
  Preserves (fun s => P s.priv) (ffsFuncBindDoDescs c e)
  := by
  cases e with
  | interface valuep desc => exact preserves_pure _
  | string valuep desc => exact preserves_pure _
  | endpoint valuep desc => exact preserves_pure _
  | descriptor num desc =>
      refine (hP.preserves keeps_look).bind fun func => ?_
      refine (hP.preserves (keeps_deref _)).bind fun chunk => ?_
      refine (hP.preserves (keeps_checkIndex _ _)).bind fun _ => ?_
      have hset : Preserves (fun s => P s.priv)
          (update (BindState.setDesc chunk func.readingSpeed num desc)) :=
        fun s hs => hP.same s.priv _ rfl rfl rfl rfl hs
      refine hset.bind fun _ => ?_
      cases desc with
      | none => exact preserves_pure _
      | some ds =>
          refine (hP.preserves (keeps_read8 _)).bind fun type => ?_
          refine preserves_ite ?_ (preserves_pure _)
          intro s hs
          exact (bindEpDesc_invariant hP hc _ hs).mono (fun _ _ ht => ht.1) fun _ _ ht => ht

theorem preserves_bindSpeed (hP : ClaimInvariant address P) (hc : c.Addresses address)
    (speed : Speed) (count data : Nat) :
  Preserves (fun s => P s.priv) (bindSpeed c speed count data)
  := by
  have hset : Preserves (fun s => P s.priv) (update (BindState.setDescriptors speed)) :=
    fun s hs => hP.same s.priv _ rfl rfl rfl rfl hs
  refine preserves_ite (preserves_pure _) (hset.bind fun _ => ?_)
  refine (hP.preserves keeps_look).bind fun func => ?_
  apply preserves_ffsDoDescs (preserves_ffsFuncBindDoDescs hP hc) _ _ _

end Walks

end Ffs
