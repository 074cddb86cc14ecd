import KhdfLinux.Usb.BindPasses
import KhdfLinux.Usb.Endpoints

/-!
# The endpoints of a bound function

`bind_endpoints_safe`: a bind never follows a missing descriptor of an endpoint, and leaves every
endpoint ready to be enabled, if each speed that has descriptors has all the endpoints, and the
high and the super speed have endpoints only if the full speed has.  Otherwise it goes wrong with
some gadget.
-/

namespace Ffs

open Bytes Exec Heap Walk

/-- The function as the calls that enable its endpoints see it. -/
def BindState.function (func : BindState) : FfsFunction where
  eps i := func.eps[i]?.bind FfsEp.ep
  interfacesNums := (List.range func.ffs.interfacesCount).map func.interfacesNums

/-- Every endpoint is claimed, and has a request and a descriptor for each speed that has
descriptors; to enable the endpoints follows no null pointer. -/
structure BindState.EndpointsReady (func : BindState) : Prop where
  length : func.eps.length = func.ffs.epsCount
  ready : ∀ ep ∈ func.eps, ep.ep.isSome ∧ ep.req
    ∧ ∀ speed, func.ffs.descsCount speed ≠ 0 → (ep.descs speed).isSome
  enable : ∀ (s : EpsState) id codes e, s.epsCount = func.ffs.epsCount → s.epfiles.isSome →
    s.ffsFuncEpsEnable id func.function codes ≠ .error e

/-- A bind of a new function follows no missing descriptor of an endpoint, and leaves the
endpoints ready if it succeeds. -/
structure BindSafe (c : UsbConfig) (ffs : FfsData) : Prop where
  descs : ∀ u, (bindStart c >>= fun _ => bindDescs c).run (bindNew ffs)
    ≠ .error (.fault .nullDeref) u
  ready : ∀ u, (ffsFuncBind c).run (bindNew ffs) = .ok () u → u.priv.EndpointsReady

/-- Nothing else stops the walks over the descriptors: there are interfaces, and each speed has
less than the greatest number of descriptors there is, with endpoints of different addresses. -/
structure RawDescs.Bindable (raw : RawDescs) (ffs : FfsData) : Prop where
  descs : ∃ speed, ffs.descsCount speed ≠ 0
  interfaces : ffs.interfacesCount ≠ 0
  counts : ∀ speed, ffs.descsCount speed ≠ 4294967295
  nodup : ∀ speed, (raw.endpoints speed).Nodup

/-- Each speed that has descriptors has all the endpoints, and there are endpoints of the full
speed if the high and the super speed have any. -/
structure RawDescs.FullEndpoints (raw : RawDescs) (ffs : FfsData) : Prop where
  all : ∀ speed, ffs.descsCount speed ≠ 0 → (raw.endpoints speed).length = ffs.epsCount
  full : raw.endpoints .high ≠ [] → raw.endpoints .super ≠ [] → raw.endpoints .full ≠ []

/-! ### Enabling -/

/-- To enable endpoints that are claimed follows no null pointer. -/
theorem epsEnableLoop_ne_error
    {id : Nat} {func : FfsFunction} {codes : EnableCodes} {count i : Nat} {s : EpsState}
    (heps : ∀ j, j < i + count → (func.eps j).isSome) (hfiles : s.epfiles.isSome) (e : Oops) :
  EpsState.epsEnableLoop id func codes count i s ≠ .error e
  := by
  induction count generalizing i s with
  | zero => exact fun h => by cases h
  | succ count ih =>
      obtain ⟨ep, hep⟩ := Option.isSome_iff_exists.mp (heps i (by omega))
      obtain ⟨files, hf⟩ := Option.isSome_iff_exists.mp hfiles
      unfold EpsState.epsEnableLoop
      rw [hep, hf]
      dsimp only
      split
      · exact fun h => by cases h
      split
      · exact fun h => by cases h
      · apply ih fun j hj => heps j (by omega)
        simp [EpsState.setEp, EpsState.usbEpEnable, hf]

section Endpoints

variable {c : UsbConfig} {raw : RawDescs} {ffs : FfsData} {t u : Heap BindState}

/-- Each endpoint is that of an address, if there are endpoints at all. -/
theorem FfsData.Agrees.addr2idx_of_lt
    {as : List UInt8} {i idx : Nat} (h : ffs.Agrees as i) (hne : as.length = ffs.epsCount)
    (hnodup : as.Nodup) (hidx : idx < ffs.epsCount) :
  ∃ a ∈ as, ffsEpAddr2idx ffs a = some (idx + 1)
  := by
  obtain ⟨rfl, -⟩ | ⟨hmatch, -, hlt, -⟩ := h
  · simp at hne
    omega
  have hlen : idx < as.length := by omega
  have haddr : ∀ k (hk : k < as.length), ffs.addrAt (k + 1) = as[k] := by
    intro k hk
    rw [Nat.add_comm]
    exact hmatch.addrAt_eq (List.getElem?_eq_getElem hk)
  refine ⟨as[idx], List.getElem_mem hlen, ffsEpAddr2idx_eq_some.mpr ⟨by omega, by omega, ?_, ?_⟩⟩
  · apply haddr idx hlen
  · intro j h1 hj heq
    obtain ⟨k, rfl⟩ := Nat.exists_eq_add_of_le' h1
    rw [haddr k (by omega)] at heq
    have := (List.Nodup.getElem_inj_iff hnodup).mp heq
    omega

/-- What the endpoints have is enough to enable them. -/
theorem BindState.endpointsReady
    {func : BindState} (hlength : func.eps.length = func.ffs.epsCount)
    (hready : ∀ ep ∈ func.eps, ep.ep.isSome ∧ ep.req
      ∧ ∀ speed, func.ffs.descsCount speed ≠ 0 → (ep.descs speed).isSome) :
  func.EndpointsReady
  := by
  refine ⟨hlength, hready, fun e id codes stop hcount hfiles => ?_⟩
  refine epsEnableLoop_ne_error (fun j hj => ?_) hfiles stop
  rw [Nat.zero_add, hcount, ← hlength] at hj
  show (func.eps[j]?.bind FfsEp.ep).isSome
  rw [List.getElem?_eq_getElem hj]
  exact (hready _ (List.getElem_mem hj)).1

/-- The numbers of interfaces do not matter for the endpoints. -/
theorem DescsBound.walked (ht : DescsBound raw ffs t)
    (hkept : u.priv.descState = t.priv.descState) :
  ∃ chunk s, SpeedsWalked raw ffs chunk 3 raw.descs s ∧ u.priv.eps = s.priv.eps ∧ u.priv.ffs = ffs
  := by
  obtain ⟨chunk, s, hs, hst⟩ := ht
  obtain ⟨ids, nums, hpriv⟩ := hst.priv
  refine ⟨chunk, s, hs, ?_, ?_⟩
  · rw [show u.priv.eps = t.priv.eps from congrArg (fun d => d.2.2.2) hkept, hpriv]
  · rw [show u.priv.ffs = t.priv.ffs from congrArg (fun d => d.1.1) hkept, hpriv]
    apply hs.ffs_eq

/-- The endpoints of a state that comes from the walks over the descriptors. -/
theorem DescsBound.ready (ht : DescsBound raw ffs t) (hraw : raw.Valid ffs)
    (hfull : raw.FullEndpoints ffs) (hdescs : ∃ speed, ffs.descsCount speed ≠ 0)
    (hkept : u.priv.descState = t.priv.descState) :
  u.priv.EndpointsReady
  := by
  obtain ⟨_, s, hs, heps, hffs⟩ := ht.walked hkept
  have hready : ∀ ep ∈ s.priv.eps, ep.ep.isSome ∧ ep.req
      ∧ ∀ speed, ffs.descsCount speed ≠ 0 → (ep.descs speed).isSome := by
    intro ep hep
    obtain ⟨idx, hidx⟩ := List.getElem?_of_mem hep
    have hwalked := hs.eps idx ep hidx
    have hlt : idx < ffs.epsCount := by
      rw [← hs.length]
      exact (List.getElem?_eq_some_iff.mp hidx).1
    have hsome : ∀ speed, ffs.descsCount speed ≠ 0 → (ep.descs speed).isSome := fun speed hc =>
      (hwalked.seen_iff speed).mpr
        ((hraw.agree speed hc).addr2idx_of_lt (hfull.all speed hc) (hs.nodup speed) hlt)
    obtain ⟨speed, hc⟩ := hdescs
    have hclaimed := hwalked.claimed.mpr ⟨speed, hsome speed hc⟩
    exact ⟨hclaimed, hwalked.req hclaimed, hsome⟩
  apply BindState.endpointsReady
  · rw [heps, hffs, hs.length]
  · rw [heps, hffs]
    apply hready

/-- A speed with descriptors that lacks the endpoints leaves an endpoint without a descriptor. -/
theorem DescsBound.not_ready (ht : DescsBound raw ffs t) (hraw : raw.Valid ffs)
    (hfull : ¬raw.FullEndpoints ffs) (hkept : u.priv.descState = t.priv.descState) :
  ¬u.priv.EndpointsReady
  := by
  obtain ⟨_, s, hs, heps, hffs⟩ := ht.walked hkept
  intro hready
  refine hfull ⟨fun speed hc => ?_, fun hhigh hsuper hempty => ?_⟩
  · by_contra hne
    obtain ⟨hnil, -⟩ | ⟨-, hlen, -⟩ := hraw.agree speed hc
    case inr => exact hne hlen
    have hpos : 0 < s.priv.eps.length := by
      rw [hs.length]
      rw [hnil] at hne
      apply Nat.pos_of_ne_zero (Ne.symm hne)
    have hfirst := hready.ready
    rw [heps, hffs] at hfirst
    have hsome := (hfirst _ (List.getElem_mem hpos)).2.2 speed hc
    obtain ⟨a, ha, -⟩ :=
      ((hs.eps 0 _ (List.getElem?_eq_getElem hpos)).seen_iff speed).mp hsome
    rw [show speedEndpoints raw.bytes (raw.descs speed) = [] from hnil] at ha
    cases ha
  · exact hs.full_endpoints hraw hhigh hsuper hempty

end Endpoints

/-! ### Safety -/

section Safety

variable {raw : RawDescs} {ffs : FfsData}

/-- Where each speed has the endpoints, every bind is safe. -/
theorem bindSafe_of_fullEndpoints
    (hraw : raw.Valid ffs) (h : raw.Bindable ffs → raw.FullEndpoints ffs) (c : UsbConfig) :
  BindSafe c ffs
  := by
  constructor
  · intro u hu
    have hmeets : (bindStart c >>= fun _ => bindDescs c).Meets (bindNew ffs) (fun _ _ => True)
        (fun e _ => e ≠ .fault .nullDeref) := by
      refine meets_bind ((bindStart_meets hraw rfl (noneAhead_bindNew ffs)).mono ?_ ?_)
      · rintro _ t ⟨hsome, ht⟩
        refine (bindDescs_meets hraw ht.1 ht.2).mono (fun _ _ _ => trivial) ?_
        rintro e v hstop rfl
        obtain ⟨hfull, hhigh, hsuper, hall⟩ := hstop
        have hbindable : raw.Bindable ffs :=
          ⟨not_forall.mp fun hno => hsome (.inl hno), fun hno => hsome (.inr (.inr hno)),
            fun speed => (hall speed).2, fun speed => (hall speed).1⟩
        exact (h hbindable).full hhigh hsuper hfull
      · rintro e t ⟨⟨code, rfl⟩, -⟩ hfault
        cases hfault
    apply hmeets.of_error hu rfl
  · intro u hu
    unfold ffsFuncBind at hu
    obtain ⟨_, t, hpasses, hu⟩ := run_bind_ok.mp hu
    obtain ⟨_, v, hpatch, hu⟩ := run_bind_ok.mp hu
    obtain rfl : _ = u := (EStateM.Result.ok.inj hu).2
    obtain ⟨hsome, hcounts, s, hs, hsame⟩ :=
      bindPasses_ok hraw rfl (noneAhead_bindNew ffs) hpasses
    have hkept : t.priv.descState = s.priv.descState :=
      hsame (F := fun s => s.priv.descState) fun _ _ _ _ _ _ _ _ => rfl
    have hdescs : ∃ speed, ffs.descsCount speed ≠ 0 := not_forall.mp fun hno => hsome (.inl hno)
    have hbindable : raw.Bindable ffs := by
      obtain ⟨_, w, hw, -⟩ := hs
      exact ⟨hdescs, fun hno => hsome (.inr (.inr hno)), hcounts, hw.nodup⟩
    have hpatched : v.priv.descState = t.priv.descState := (keepsDescs_patchFunc t).of_ok hpatch
    exact hs.ready hraw (h hbindable) hdescs (hpatched.trans hkept)

/-- Where a speed lacks endpoints, a bind for a gadget that has all it needs goes wrong, unless
the patches stop it. -/
theorem not_bindSafe_of_not_fullEndpoints
    (hraw : raw.Valid ffs) (hbindable : raw.Bindable ffs) (h : ¬raw.FullEndpoints ffs)
    {c : UsbConfig} (hc : c.Obliging) (halloc : c.kzalloc) (hos : ¬c.useOsString) :
  ¬BindSafe c ffs ∨ ∃ lens u e v, (bindPasses c).run (bindNew ffs) = .ok lens u
    ∧ patchFunc.run u = .error e v
  := by
  have hnostart : ¬StartStop c ffs := by
    rintro (hno | hno | hno)
    · obtain ⟨speed, hcount⟩ := hbindable.descs
      apply hcount (hno speed)
    · apply hno halloc
    · apply hbindable.interfaces hno
  cases hstart : (bindStart c).run (bindNew ffs) with
  | error e s =>
      apply absurd ((bindStart_meets hraw rfl (noneAhead_bindNew ffs)).of_error hstart).2 hnostart
  | ok _ s =>
      have hs := ((bindStart_meets hraw rfl (noneAhead_bindNew ffs)).of_ok hstart).2
      cases hdescs : (bindDescs c).run s with
      | error e t =>
          have hstop := (bindDescs_meets hraw hs.1 hs.2).of_error hdescs
          have hrun : (bindStart c >>= fun _ => bindDescs c).run (bindNew ffs) = .error e t := by
            rw [EStateM.run_bind, hstart]
            apply hdescs
          cases e with
          | ret code =>
              obtain ⟨speed, hno⟩ := hstop hc
              apply absurd (hbindable.nodup speed) hno
          | fault f =>
              cases f with
              | nullDeref => exact .inl fun hsafe => hsafe.descs t hrun
              | outOfBounds =>
                  obtain ⟨speed, hcount⟩ := hstop
                  apply absurd hcount (hbindable.counts speed)
              | deadlock => exact hstop.elim
              | notHeld => exact hstop.elim
      | ok lens t =>
          obtain ⟨-, -, ht⟩ := (bindDescs_meets hraw hs.1 hs.2).of_ok hdescs
          obtain ⟨u, hu⟩ : ∃ u,
              (bindOsDescs c (lens.1 + lens.2.1 + lens.2.2)).run t = .ok () u := by
            unfold bindOsDescs
            rw [EStateM.run_bind, run_look]
            dsimp only
            rw [if_neg hos]
            exact ⟨_, rfl⟩
          have hkept := (onlyReads_bindOsDescs c _ t).of_ok hu
          have hpasses : (bindPasses c).run (bindNew ffs) = .ok lens u := by
            unfold bindPasses
            rw [EStateM.run_bind, hstart]
            dsimp only
            rw [EStateM.run_bind, hdescs]
            dsimp only
            rw [EStateM.run_bind, hu]
            rfl
          cases hpatch : patchFunc.run u with
          | error e v => exact .inr ⟨lens, u, e, v, hpasses, hpatch⟩
          | ok _ v =>
              refine .inl fun hsafe => ?_
              have hrun : (ffsFuncBind c).run (bindNew ffs)
                  = .ok () ⟨v.mem, { v.priv with bound := true }⟩ := by
                unfold ffsFuncBind
                rw [EStateM.run_bind, hpasses]
                dsimp only
                rw [EStateM.run_bind, hpatch]
                rfl
              have hpatched : v.priv.descState = u.priv.descState :=
                (keepsDescs_patchFunc u).of_ok hpatch
              have hnot : ¬({ v.priv with bound := true } : BindState).EndpointsReady :=
                ht.not_ready (u := ⟨v.mem, _⟩) hraw h (hpatched.trans (Prod.mk.inj hkept).2)
              apply hnot (hsafe.ready _ hrun)

/-- A bind of an accepted blob is safe with every gadget, if each speed has the endpoints wherever
nothing else stops the bind; otherwise it goes wrong with some gadget, unless the patches stop
it. -/
theorem bind_endpoints_safe
    {fdget : EventfdCtxFdget} {m : Bytes} {ffs : FfsData} {t : Heap FfsData} {lay : DescLayout}
    (hm : 12 ≤ m.length) (hmax : m.length < 2147483648)
    (hacc : (ffsDataGotDescs fdget m.length).run ⟨m, ffs⟩ = .ok () t)
    (hlay : Parses m t.priv.interfacesCount lay) :
  (((lay.raw m).Bindable t.priv → (lay.raw m).FullEndpoints t.priv) → ∀ c, BindSafe c t.priv)
    ∧ (¬((lay.raw m).Bindable t.priv → (lay.raw m).FullEndpoints t.priv) →
      ∃ c, ¬BindSafe c t.priv ∨ ∃ lens u e v, (bindPasses c).run (bindNew t.priv) = .ok lens u
        ∧ patchFunc.run u = .error e v)
  := by
  have hraw := hlay.valid hm hmax hacc
  constructor
  · exact fun h c => bindSafe_of_fullEndpoints hraw h c
  · intro h
    obtain ⟨hbindable, hfull⟩ := Classical.not_imp.mp h
    refine ⟨plainConfig, not_bindSafe_of_not_fullEndpoints hraw hbindable hfull ⟨?_, ?_, ?_⟩ rfl ?_⟩
    · exact fun _ _ => ⟨_, rfl, by decide⟩
    · exact fun _ => rfl
    · exact fun n => Int.natCast_nonneg n
    · decide

end Safety

/-- The bind of a blob in which both speeds have the endpoints. -/
theorem bind_endpoints_safe_twoSpeeds :
  BindSafe plainConfig (newFunction twoSpeedDescs).priv.ffs
  := by
  have hacc : (ffsDataGotDescs (fun _ => .ok 0) twoSpeedDescs.length).run
      ⟨twoSpeedDescs, ffsDataNew⟩ = .ok () ⟨twoSpeedDescs, (newFunction twoSpeedDescs).priv.ffs⟩ :=
    rfl
  have hlay : Parses twoSpeedDescs (newFunction twoSpeedDescs).priv.ffs.interfacesCount
      ⟨⟨3, 2, 2, 0, 0, 20⟩, [⟨20, 9⟩, ⟨29, 7⟩], [⟨36, 9⟩, ⟨45, 7⟩], [], []⟩ :=
    ⟨by decide +kernel, by decide +kernel, by decide +kernel, by decide +kernel, by decide +kernel,
      by decide, by decide⟩
  refine (bind_endpoints_safe (by decide) (by decide) hacc hlay).1 (fun _ => ⟨?_, ?_⟩) plainConfig
  · intro speed hc
    cases speed with
    | full => decide +kernel
    | high => decide +kernel
    | super => exact absurd (by decide +kernel) hc
  · intro _ hsuper
    exact absurd (by decide +kernel) hsuper

/-- A V2 blob with an interface and an endpoint, of the high and of the super speed. -/
def highSuperDescs : Bytes :=
  [3, 0, 0, 0, 52, 0, 0, 0, 6, 0, 0, 0, 2, 0, 0, 0, 2, 0, 0, 0,
    9, 4, 0, 0, 1, 255, 0, 0, 0, 7, 5, 0x81, 2, 0, 2, 0,
    9, 4, 0, 0, 1, 255, 0, 0, 0, 7, 5, 0x81, 2, 0, 4, 0]

/-- A V2 blob with one class descriptor of the full speed, and an interface and an endpoint of the
high speed. -/
def blankFullDescs : Bytes :=
  [3, 0, 0, 0, 39, 0, 0, 0, 3, 0, 0, 0, 1, 0, 0, 0, 2, 0, 0, 0,
    3, 0x41, 0,
    9, 4, 0, 0, 1, 255, 0, 0, 0, 7, 5, 0x81, 2, 0, 2, 0]

/-- Both blobs are accepted.  The bind of the first one follows the missing full-speed descriptor
of the endpoint; that of the second one succeeds, and leaves the endpoint without a full-speed
descriptor. -/
theorem bind_endpoints_unsafe :
  AcceptedBlob highSuperDescs ∧ AcceptedBlob blankFullDescs
    ∧ ¬BindSafe plainConfig (newFunction highSuperDescs).priv.ffs
    ∧ ¬BindSafe plainConfig (newFunction blankFullDescs).priv.ffs
  := by
  refine ⟨⟨_, rfl⟩, ⟨_, rfl⟩, fun hsafe => ?_, fun hsafe => ?_⟩
  · have hstop : stopOf ((bindStart plainConfig >>= fun _ => bindDescs plainConfig).run
        (bindNew (newFunction highSuperDescs).priv.ffs)) = some (.fault .nullDeref) := by
      decide +kernel
    obtain ⟨u, hu⟩ := stopOf_eq_some.mp hstop
    apply hsafe.descs u hu
  · have hstop : stopOf ((ffsFuncBind plainConfig).run
        (bindNew (newFunction blankFullDescs).priv.ffs)) = none := by
      decide +kernel
    have hmissing : ¬∀ ep ∈ (bindState ((ffsFuncBind plainConfig).run
        (bindNew (newFunction blankFullDescs).priv.ffs))).priv.eps, (ep.descs .full).isSome := by
      decide +kernel
    have hcount : (bindState ((ffsFuncBind plainConfig).run
        (bindNew (newFunction blankFullDescs).priv.ffs))).priv.ffs.descsCount .full ≠ 0 := by
      decide +kernel
    obtain ⟨_, u, hu⟩ := stopOf_eq_none.mp hstop
    rw [hu] at hmissing hcount
    apply hmissing fun ep hep => ((hsafe.ready u hu).ready ep hep).2.2 .full hcount

end Ffs
