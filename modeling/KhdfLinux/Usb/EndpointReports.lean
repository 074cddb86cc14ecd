import KhdfLinux.Usb.EndpointMap

/-!
# What the map of the endpoints reports

`endpointMap_right_iff`: in every run of binds and unbinds of a function, after a bind that
succeeds, requests to endpoints are reported and refused as they should be exactly if there are no
endpoints to claim, and the map was empty before.
-/

namespace Ffs

open Bytes Exec Heap Walk

/-! ### Binds that claim an endpoint -/

section Claims

variable {address : Nat → UInt8} {c : UsbConfig} {raw : RawDescs} {ffs : FfsData} {speed : Speed}
  {v : Visit} {s : Heap BindState}

/-- The bytes of a descriptor in the copy. -/
theorem RawDescs.Valid.copy_eq (hraw : raw.Valid ffs) (hv : v ∈ raw.descs speed) {j : Nat}
    (hj : j < 2 ∨ j < v.size) :
  byteAt ffs.rawDescsBytes (v.offset + j) = byteAt raw.bytes (v.offset + j)
  := by
  refine (hraw.copy.2 _ fun hres => ?_).symm
  have hle := hraw.le_of_reserved hres
  have hstop := (hraw.mem hv).2.1
  have hosAt := hraw.stop_le speed
  omega

/-- The copy, while no endpoint is claimed. -/
structure Untouched (ffs : FfsData) (s : Heap BindState) : Prop where
  mem : s.mem = ffs.rawDescsBytes
  ffs_eq : s.priv.ffs = ffs

/-- The callback for a descriptor of the copy claims an endpoint, if it is one. -/
theorem ffsFuncBindDoDescs_claims (hc : c.Addresses address) (hraw : raw.Valid ffs)
    (hv : v ∈ raw.descs speed) (hs : Untouched ffs s) (num : Nat) :
  (ffsFuncBindDoDescs c (.descriptor num (some v.offset))).Meets s
    (fun _ t => t.priv.HasClaimed
      ∨ descEndpoint raw.bytes v.offset = none ∧ Untouched ffs t)
    fun _ _ => True
  := by
  have hstop := hraw.stop_le speed
  have hin := (hraw.mem hv).2.1
  have hsize := (hraw.mem hv).2.2
  have htype : byteAt s.mem (v.offset + 1) = byteAt raw.bytes (v.offset + 1) := by
    rw [hs.mem]
    exact hraw.copy_eq hv (.inl (by decide))
  have hlt : v.offset + 1 < s.mem.length := by
    rw [hs.mem, ← hraw.copy.1]
    unfold descSize at hsize
    split_ifs at hsize with hcond
    omega
  have hnone : ¬byteAt s.mem (v.offset + 1) = usbDtEndpoint →
      descEndpoint raw.bytes v.offset = none := by
    rw [htype]
    exact fun hother => if_neg fun hclass => hother (descClass_endpoint.mp hclass)
  have hno : ClaimInvariant address fun _ => True :=
    ⟨fun _ _ _ _ _ _ _ => trivial, fun _ _ _ _ _ _ _ => trivial⟩
  unfold ffsFuncBindDoDescs
  refine meets_step (run_look s) ?_
  dsimp only
  cases s.priv.descriptors s.priv.readingSpeed with
  | none => exact meets_bind (meets_stop trivial)
  | some chunk =>
      refine meets_step rfl ?_
      by_cases hnum : num < (s.priv.descArrays chunk s.priv.readingSpeed).size
      case neg =>
        refine meets_bind ?_
        rw [checkIndex, if_neg hnum]
        apply meets_stop trivial
      refine meets_step (run_checkIndex hnum s) (meets_step (run_update _ s) ?_)
      refine meets_step (run_read8 hlt) ?_
      split
      · exact (bindEpDesc_invariant hno hc _ trivial).mono (fun _ _ ht => .inl ht.2)
          fun _ _ he => he
      · rename_i hother
        exact meets_pure (.inr ⟨hnone hother, hs.mem, hs.ffs_eq⟩)

/-- A turn of the walk over the copy claims an endpoint, or leaves the copy. -/
theorem ffsDoDesc_claims (hc : c.Addresses address) (hraw : raw.Valid ffs)
    (hv : v ∈ raw.descs speed) (hs : Untouched ffs s) (num : Nat) :
  (ffsDoDesc (ffsFuncBindDoDescs c) num v.offset (raw.bytes.length - v.offset)).Meets s
    (fun k t => t.priv.HasClaimed
      ∨ k = v.size ∧ descEndpoint raw.bytes v.offset = none ∧ Untouched ffs t)
    fun _ _ => True
  := by
  refine meets_bind ((ffsFuncBindDoDescs_claims hc hraw hv hs num).mono ?_ fun _ _ he => he)
  have hcallback := preserves_ffsFuncBindDoDescs (claimInvariant_hasClaimed address) hc
  rintro _ t (ht | ⟨hnone, ht⟩)
  · apply (preserves_ffsDoSingleDesc hcallback v.offset _ t ht).mono
    · exact fun _ _ hu => .inl hu
    · exact fun _ _ _ => trivial
  have hsize := (hraw.mem hv).2.2
  have hsame : descSize t.mem v.offset (raw.bytes.length - v.offset) = some v.size := by
    rw [ht.mem]
    have hlength := hraw.copy_eq (j := 0) hv (.inl (by decide))
    have htype := hraw.copy_eq (j := 1) hv (.inl (by decide))
    refine descSize_of_same hsize hlength.symm htype.symm fun hclass => ?_
    simp [descEndpoint, hclass] at hnone
  have hlen : v.offset + (raw.bytes.length - v.offset) ≤ t.mem.length := by
    rw [ht.mem, ← hraw.copy.1]
    have hstop := hraw.stop_le speed
    have hin := (hraw.mem hv).2.1
    omega
  have hkeep : ∀ s', (ffsFuncBindDoDescs c (.interface (v.offset + 2) v.offset)).run t = .ok () s' →
      byteAt s'.mem (v.offset + 8) = byteAt t.mem (v.offset + 8)
        ∧ s'.mem.length = t.mem.length := by
    intro s' hs'
    cases hs'
    exact ⟨rfl, rfl⟩
  unfold Meets
  rw [ffsDoSingleDesc_run hlen hkeep, hsame]
  dsimp only
  rw [EStateM.run_bind, run_report_doDescs]
  exact .inr ⟨rfl, hnone, ht⟩

/-- The walk over a speed of the copy claims an endpoint, or there is none. -/
theorem bindSpeed_claims (hc : c.Addresses address) (hraw : raw.Valid ffs) (speed : Speed)
    (hs : Untouched ffs s) :
  (bindSpeed c speed (ffs.descsCount speed) (raw.startAt speed)).Meets s
    (fun n t => t.priv.HasClaimed
      ∨ n = total (raw.descs speed) ∧ raw.endpoints speed = [] ∧ Untouched ffs t)
    fun _ _ => True
  := by
  unfold bindSpeed
  by_cases hcount : ffs.descsCount speed = 0
  · rw [if_pos hcount]
    have hnil := List.length_eq_zero_iff.mp ((hraw.length_descs speed).trans hcount)
    exact meets_pure (.inr ⟨by rw [hnil]; rfl, by simp [RawDescs.endpoints, speedEndpoints, hnil],
      hs⟩)
  rw [if_neg hcount]
  refine meets_step (run_update _ s) (meets_step (run_look _) ?_)
  have hle := hraw.stop_le speed
  have hsmall := hraw.small
  have hlen : u32 (((s.priv.setDescriptors speed).ffs.rawDescsLength : Int) - raw.startAt speed)
      = raw.bytes.length - raw.startAt speed := by
    rw [show (s.priv.setDescriptors speed).ffs = ffs from hs.ffs_eq, ← hraw.length]
    exact u32_sub (by omega) (by omega)
  dsimp only
  rw [hlen]
  have hcallback := preserves_ffsFuncBindDoDescs (claimInvariant_hasClaimed address) hc
  have hturn : ∀ us v ws t, raw.descs speed = us ++ v :: ws →
      speedEndpoints raw.bytes us = [] ∧ Untouched ffs t →
      (ffsDoDesc (ffsFuncBindDoDescs c) us.length v.offset
          (raw.startAt speed + (raw.bytes.length - raw.startAt speed) - v.offset)).Meets t
        (fun k u => u.priv.HasClaimed
          ∨ k = v.size ∧ speedEndpoints raw.bytes (us ++ [v]) = [] ∧ Untouched ffs u)
        fun _ _ => True := by
    rintro us v ws t hsplit ⟨hnone, ht⟩
    have hv : v ∈ raw.descs speed := by simp [hsplit]
    rw [show raw.startAt speed + (raw.bytes.length - raw.startAt speed) = raw.bytes.length by omega]
    apply (ffsDoDesc_claims hc hraw hv ht us.length).mono
    · rintro k u (hu | ⟨hk, hother, hu⟩)
      · exact .inl hu
      · refine .inr ⟨hk, ?_, hu⟩
        rw [speedEndpoints_append, hnone, hother]
        rfl
    · exact fun _ _ he => he
  have hend : ∀ t, speedEndpoints raw.bytes (raw.descs speed) = [] ∧ Untouched ffs t →
      (ffsFuncBindDoDescs c (.descriptor (ffs.descsCount speed) none)).Meets t
        (fun _ u => raw.endpoints speed = [] ∧ Untouched ffs u) fun _ _ => True := by
    rintro t ⟨hnone, ht⟩
    have hkeeps : Keeps (fun s : Heap BindState => (s.mem, s.priv.ffs))
        (ffsFuncBindDoDescs c (.descriptor (ffs.descsCount speed) none)) :=
      keeps_look.bind fun func => (keeps_deref _).bind fun chunk =>
        (keeps_checkIndex _ _).bind fun _ => (keeps_update fun _ => rfl).bind fun _ => keeps_pure _
    apply (hkeeps t).mono
    · intro _ u hu
      obtain ⟨hmem, hffs⟩ := Prod.mk.inj hu
      exact ⟨hnone, hmem.trans ht.mem, hffs.trans ht.ffs_eq⟩
    · exact fun _ _ _ => trivial
  exact ffsDoDescs_visits_or hcallback
    (fun us t => speedEndpoints raw.bytes us = [] ∧ Untouched ffs t) (hraw.descs speed)
    (by omega) hturn hend ⟨rfl, hs.mem, hs.ffs_eq⟩

theorem preserves_doNums {P : BindState → Prop} (hP : ClaimInvariant address P)
    (count data len : Nat) :
  Preserves (fun s => P s.priv) (ffsDoDescs count data len (ffsFuncBindDoNums c))
  := preserves_ffsDoDescs (fun e => hP.preserves (keepsSettled_ffsFuncBindDoNums c e)) _ _ _

theorem preserves_bindDescs {P : BindState → Prop} (hP : ClaimInvariant address P)
    (hc : c.Addresses address) :
  Preserves (fun s => P s.priv) (bindDescs c)
  := by
  refine (hP.preserves keeps_look).bind fun func => ?_
  refine (preserves_bindSpeed hP hc .full _ _).bind fun fsLen => ?_
  refine (preserves_bindSpeed hP hc .high _ _).bind fun hsLen => ?_
  refine (preserves_bindSpeed hP hc .super _ _).bind fun ssLen => ?_
  exact (preserves_doNums hP _ _ _).bind fun _ => preserves_pure _

/-- The walks over the copy claim an endpoint, if there is one in some speed. -/
theorem bindDescs_claims (hc : c.Addresses address) (hraw : raw.Valid ffs)
    (hspeed : ∃ speed, raw.endpoints speed ≠ []) (hs : Untouched ffs s) :
  (bindDescs c).Meets s (fun _ t => t.priv.HasClaimed) fun _ _ => True
  := by
  have hP := claimInvariant_hasClaimed address
  unfold bindDescs
  refine meets_step (run_look s) ?_
  dsimp only
  rw [hs.ffs_eq]
  have hnums : ∀ (lens : Nat × Nat × Nat), Preserves (fun s : Heap BindState => s.priv.HasClaimed)
      (do
        let _ ← ffsDoDescs (u32 (ffs.fsDescsCount + ffs.hsDescsCount + ffs.ssDescsCount)) 0
          ffs.rawDescsLength (ffsFuncBindDoNums c)
        pure lens) := fun lens =>
    (preserves_doNums hP _ _ _).bind fun _ => preserves_pure _
  refine meets_bind ((bindSpeed_claims hc hraw .full hs).mono ?_ fun _ _ he => he)
  rintro fsLen t (ht | ⟨rfl, hfull, ht⟩)
  · have hrest := (preserves_bindSpeed hP hc .high ffs.hsDescsCount fsLen).bind fun hsLen =>
      (preserves_bindSpeed hP hc .super ffs.ssDescsCount (fsLen + hsLen)).bind fun ssLen =>
        hnums (fsLen, hsLen, ssLen)
    exact (hrest t ht).mono (fun _ _ hu => hu) fun _ _ _ => trivial
  refine meets_bind ((bindSpeed_claims hc hraw .high ht).mono ?_ fun _ _ he => he)
  rintro hsLen u (hu | ⟨rfl, hhigh, hu⟩)
  · have hrest := (preserves_bindSpeed hP hc .super ffs.ssDescsCount
      (total (raw.descs .full) + hsLen)).bind fun ssLen =>
        hnums (total (raw.descs .full), hsLen, ssLen)
    exact (hrest u hu).mono (fun _ _ hv => hv) fun _ _ _ => trivial
  refine meets_bind ((bindSpeed_claims hc hraw .super hu).mono ?_ fun _ _ he => he)
  rintro ssLen v (hv | ⟨rfl, hsuper, -⟩)
  · exact (hnums _ v hv).mono (fun _ _ hw => hw) fun _ _ _ => trivial
  obtain ⟨speed, hne⟩ := hspeed
  cases speed with
  | full => exact absurd hfull hne
  | high => exact absurd hhigh hne
  | super => exact absurd hsuper hne

/-- The start of a bind gives a function without endpoints that are claimed. -/
theorem bindStart_untouched (address : Nat → UInt8) (hffs : s.priv.ffs = ffs) :
  (bindStart c).Meets s
    (fun _ t => (∃ speed, ffs.descsCount speed ≠ 0) ∧ Untouched ffs t
      ∧ Mapped address s.priv.epsRevmap ffs t.priv)
    (fun _ t => t.priv.epsRevmap = s.priv.epsRevmap)
  := by
  unfold bindStart
  refine meets_step (run_look s) ?_
  dsimp only
  rw [hffs]
  refine meets_guard (fun _ => rfl) fun hsome => ?_
  refine meets_guard (fun _ => rfl) fun _ => ?_
  refine meets_step (run_update _ s) ?_
  refine meets_guard (fun _ => rfl) fun _ => ?_
  refine meets_step rfl ?_
  refine meets_guard (fun _ => rfl) fun _ => ?_
  refine ⟨?_, ⟨rfl, hffs⟩, hffs, ?_, fun n => .inr ⟨fun i e hi => ?_, rfl⟩⟩
  · by_contra hno
    apply hsome
    simp only [not_exists, not_not] at hno
    exact ⟨hno .full, hno .high, hno .super⟩
  · rw [← hffs]
    apply List.length_replicate
  · have hep : ((List.replicate s.priv.ffs.epsCount
        (⟨none, false, fun _ => none, 255⟩ : FfsEp))[i]?.bind FfsEp.ep) = some e := hi
    rw [List.getElem?_replicate] at hep
    split at hep
    · cases hep
    · cases hep

/-- The raw descriptors of a blob that was accepted.  There are fewer endpoints than addresses in
the address map, and some speed has the endpoints that are recorded, if there are descriptors. -/
theorem FfsData.Accepted.exists_raw (hacc : ffs.Accepted) :
  ∃ raw : RawDescs, raw.Valid ffs
    ∧ ((∃ speed, ffs.descsCount speed ≠ 0) → ffs.epsCount < ffsMaxEpsCount)
    ∧ ((∃ speed, ffs.descsCount speed ≠ 0) → ffs.epsCount ≠ 0 →
      ∃ speed, raw.endpoints speed ≠ [])
  := by
  obtain ⟨fdget, m, ffs₀, t, hm, hmax, hrun, rfl⟩ := hacc
  obtain ⟨lay, hlay⟩ := exists_parses hm hmax hrun
  have hraw := hlay.valid hm hmax hrun
  refine ⟨lay.raw m, hraw, fun hdescs => ?_, fun hdescs heps => ?_⟩
  · obtain ⟨speed, hlength⟩ := hlay.recorded hm hmax hrun hdescs
    by_cases hcount : t.priv.descsCount speed = 0
    · have hnil := List.length_eq_zero_iff.mp ((hraw.length_descs speed).trans hcount)
      rw [← hlength, RawDescs.endpoints, hnil]
      apply Nat.zero_lt_succ _
    · obtain ⟨hnil, -⟩ | ⟨-, -, hlt, -⟩ := hraw.agree speed hcount
      · rw [← hlength, hnil]
        decide
      · rw [← hlength]
        apply hlt
  · obtain ⟨speed, hlength⟩ := hlay.recorded hm hmax hrun hdescs
    refine ⟨speed, fun hnil => heps ?_⟩
    rw [← hlength, hnil]
    rfl

/-- What a bind writes into the map, and that it claims an endpoint, if there are any. -/
theorem ffsFuncBind_mapped (hc : c.Addresses address) (hacc : ffs.Accepted)
    (hffs : s.priv.ffs = ffs) :
  (ffsFuncBind c).Meets s
    (fun _ t => Mapped address s.priv.epsRevmap ffs t.priv
      ∧ (ffs.epsCount ≠ 0 → t.priv.HasClaimed) ∧ ffs.epsCount < ffsMaxEpsCount)
    (fun _ t => t.priv.epsRevmap = s.priv.epsRevmap ∨ Mapped address s.priv.epsRevmap ffs t.priv)
  := by
  obtain ⟨raw, hraw, hmax, hsome⟩ := hacc.exists_raw
  have hP := claimInvariant_mapped address s.priv.epsRevmap ffs
  have hQ := claimInvariant_hasClaimed address
  have hboth : ClaimInvariant address fun func =>
      Mapped address s.priv.epsRevmap ffs func ∧ (ffs.epsCount ≠ 0 → func.HasClaimed) := by
    constructor
    · intro func func' hffs hlength heps hmap h
      exact ⟨hP.same _ _ hffs hlength heps hmap h.1,
        fun hne => hQ.same _ _ hffs hlength heps hmap (h.2 hne)⟩
    · intro func idx e req hidx hnone h
      exact ⟨hP.claim _ _ _ _ hidx hnone h.1, fun hne => hQ.claim _ _ _ _ hidx hnone (h.2 hne)⟩
  have hlater : Preserves (fun s => Mapped address _ ffs s.priv ∧ (_ → s.priv.HasClaimed)) (do
      patchFunc
      update fun func => { func with bound := true }) :=
    (hboth.preserves keepsSettled_patchFunc).bind fun _ =>
      hboth.preserves (keepsSettled_update fun _ => by rfl)
  have hos : ∀ (lens : Nat × Nat × Nat),
      Preserves (fun s => Mapped address _ ffs s.priv ∧ (_ → s.priv.HasClaimed)) (do
        bindOsDescs c (lens.1 + lens.2.1 + lens.2.2)
        pure lens) := fun lens =>
    (hboth.preserves ((readsSettled_bindOsDescs c _).comp fun kept => kept.2)).bind fun _ =>
      preserves_pure _
  -- the start of the bind, the walks over the descriptors, and what comes after them
  refine meets_bind (meets_bind ((bindStart_untouched address hffs).mono ?_ fun _ _ he => .inl he))
  rintro _ t ⟨hdescs, hfresh, ht⟩
  have hmapped := preserves_bindDescs hP hc t ht
  have hclaims : (bindDescs c).Meets t
      (fun _ u => ffs.epsCount ≠ 0 → u.priv.HasClaimed) fun _ _ => True := by
    by_cases heps : ffs.epsCount = 0
    · apply hmapped.mono (fun _ _ _ hne => absurd heps hne) fun _ _ _ => trivial
    · exact (bindDescs_claims hc hraw (hsome hdescs heps) hfresh).mono (fun _ _ hu _ => hu)
        fun _ _ he => he
  refine meets_bind ((hmapped.and hclaims).mono ?_ fun _ _ he => .inr he.1)
  intro lens u hu
  refine (hos lens u hu).mono (fun _ v hv => ?_) fun _ _ he => .inr he.1
  exact (hlater v hv).mono (fun _ _ hw => ⟨hw.1, hw.2, hmax hdescs⟩) fun _ _ he => .inr he.1

end Claims

/-! ### When the map is right -/

section Right

variable {address : Nat → UInt8} {before : Nat → Nat} {ffs : FfsData} {func : BindState}

theorem epNumber_lt (addr : UInt8) :
  epNumber addr < 16
  := by
  obtain ⟨addr⟩ := addr
  revert addr
  decide +kernel

/-- Another address with the same number. -/
theorem exists_sameNumber (addr : UInt8) :
  ∃ addr' : UInt8, addr' &&& 0x70 = 0 ∧ epNumber addr' = epNumber addr ∧ addr' ≠ addr
  := by
  have hother : ∀ a : BitVec 8, (if (⟨a⟩ : UInt8) &&& 0x80 = 0 then (⟨a⟩ &&& 0x0f) ||| 0x80
      else ⟨a⟩ &&& 0x0f : UInt8) &&& 0x70 = 0
      ∧ epNumber (if (⟨a⟩ : UInt8) &&& 0x80 = 0 then (⟨a⟩ &&& 0x0f) ||| 0x80
        else ⟨a⟩ &&& 0x0f) = epNumber ⟨a⟩
      ∧ (if (⟨a⟩ : UInt8) &&& 0x80 = 0 then (⟨a⟩ &&& 0x0f) ||| 0x80
        else ⟨a⟩ &&& 0x0f) ≠ (⟨a⟩ : UInt8) := by
    decide +kernel
  exact ⟨_, hother addr.toBitVec⟩

theorem ffsFuncRevmapEp_eq_index {addr : UInt8} {i : Nat} :
  func.ffsFuncRevmapEp addr = i + 1 ↔ func.epsRevmap (epNumber addr) = i + 1
  := by
  unfold BindState.ffsFuncRevmapEp
  change (if func.epsRevmap (epNumber addr) ≠ 0 then (func.epsRevmap (epNumber addr) : Int)
    else -edom) = _ ↔ _
  split
  · omega
  · simp only [edom]
    omega

theorem ffsFuncRevmapEp_eq_edom {addr : UInt8} :
  func.ffsFuncRevmapEp addr = -edom ↔ func.epsRevmap (epNumber addr) = 0
  := by
  unfold BindState.ffsFuncRevmapEp
  change (if func.epsRevmap (epNumber addr) ≠ 0 then (func.epsRevmap (epNumber addr) : Int)
    else -edom) = _ ↔ _
  split
  · simp only [edom]
    omega
  · rename_i hzero
    simpa using hzero

theorem not_hasClaimed_of_length (h : func.eps.length = 0) :
  ¬func.HasClaimed
  := by
  rintro ⟨i, e, hi⟩
  have hnone : func.eps[i]?.bind FfsEp.ep = some e := hi
  rw [List.length_eq_zero_iff.mp h] at hnone
  cases hnone

theorem BindState.HasAddress.hasClaimed {addr : UInt8} (h : func.HasAddress address addr) :
  func.HasClaimed
  := by
  obtain ⟨i, e, hi, -⟩ := h
  exact ⟨i, e, hi⟩

/-- The map cannot be right for an endpoint and for the address with the other direction. -/
theorem BindState.MapRight.not_hasClaimed (h : func.MapRight address) :
  ¬func.HasClaimed
  := by
  rintro ⟨i, e, hi⟩
  obtain ⟨addr, hvalid, hnumber, hne⟩ := exists_sameNumber (address e)
  have hcell := ffsFuncRevmapEp_eq_index.mp (h.reports i e hi).revmap
  rw [← hnumber] at hcell
  by_cases hhas : func.HasAddress address addr
  · obtain ⟨j, e', hj, rfl⟩ := hhas
    have hcell' := ffsFuncRevmapEp_eq_index.mp (h.reports j e' hj).revmap
    obtain rfl : i = j := by omega
    obtain rfl := Option.some.inj (hi.symm.trans hj)
    apply hne rfl
  · have hzero := ffsFuncRevmapEp_eq_edom.mp (h.refuses addr hvalid hhas).revmap
    omega

/-- The map is right exactly if there was nothing to write, and nothing written before. -/
theorem Mapped.mapRight_iff (h : Mapped address before ffs func) :
  func.MapRight address ↔ ¬func.HasClaimed ∧ ∀ n < 16, before n = 0
  := by
  have hbefore : ¬func.HasClaimed → ∀ n, func.epsRevmap n = before n := by
    intro hno n
    obtain ⟨i, e, hi, -⟩ | ⟨-, hval⟩ := h.cells n
    · exact absurd ⟨i, e, hi⟩ hno
    · apply hval
  constructor
  · intro hright
    have hno := hright.not_hasClaimed
    refine ⟨hno, fun n hn => ?_⟩
    have hnumber : (UInt8.ofNat n) &&& 0x70 = 0 ∧ epNumber (UInt8.ofNat n) = n := by
      revert n
      decide +kernel
    have hrefuses := hright.refuses (UInt8.ofNat n) hnumber.1 fun h => hno h.hasClaimed
    have hzero := ffsFuncRevmapEp_eq_edom.mp hrefuses.revmap
    rw [← hbefore hno, ← hnumber.2]
    apply hzero
  · rintro ⟨hno, hzero⟩
    constructor
    · intro i e hi
      exact absurd ⟨i, e, hi⟩ hno
    · intro addr _ _
      apply BindState.refuses_of_revmap
      rw [ffsFuncRevmapEp_eq_edom, hbefore hno]
      apply hzero _ (epNumber_lt addr)

/-- No two endpoints of the function have the same number. -/
def BindState.DistinctNumbers (func : BindState) (address : Nat → UInt8) : Prop :=
  ∀ i j e e', func.function.eps i = some e → func.function.eps j = some e' →
    epNumber (address e) = epNumber (address e') → i = j

/-- The endpoints are reported right exactly if they have different numbers. -/
theorem Mapped.reports_iff (h : Mapped address before ffs func)
    (hmax : ffs.epsCount < ffsMaxEpsCount) :
  (∀ i e, func.function.eps i = some e → func.Reports (address e) i)
    ↔ func.DistinctNumbers address
  := by
  constructor
  · intro hreports i j e e' hi hj hnumber
    have hcell := ffsFuncRevmapEp_eq_index.mp (hreports i e hi).revmap
    have hcell' := ffsFuncRevmapEp_eq_index.mp (hreports j e' hj).revmap
    rw [hnumber] at hcell
    omega
  · intro hdistinct i e hi
    have hlt : i < ffs.epsCount := by
      rw [← h.length]
      by_contra hge
      have hnone : func.function.eps i = none := by
        show func.eps[i]?.bind FfsEp.ep = none
        rw [List.getElem?_eq_none (Nat.not_lt.mp hge)]
        rfl
      rw [hnone] at hi
      cases hi
    apply BindState.reports_of_revmap _ (by omega)
    rw [ffsFuncRevmapEp_eq_index]
    obtain ⟨j, e', hj, hnumber, hval⟩ | ⟨hno, -⟩ := h.cells (epNumber (address e))
    · rw [hdistinct i j e e' hi hj hnumber.symm]
      apply hval
    · apply absurd rfl (hno i e hi)

/-- A bind without endpoints leaves the map. -/
theorem Mapped.epsRevmap_of_zero (h : Mapped address before ffs func) (hzero : ffs.epsCount = 0) :
  func.epsRevmap = before
  := by
  funext n
  obtain ⟨i, e, hi, -⟩ | ⟨-, hval⟩ := h.cells n
  · exact absurd ⟨i, e, hi⟩ (not_hasClaimed_of_length (h.length.trans hzero))
  · apply hval

end Right

section Runs

variable {address : Nat → UInt8} {acts : List FuncAct} {s t : Heap BindState} {ffs : FfsData}
  {c : UsbConfig}

/-- A function that was never bound. -/
def funcNew : Heap BindState := bindNew ffsDataNew

/-- What is bound has no endpoints. -/
def FuncAct.NoEndpoints : FuncAct → Prop
  | .bind ffs _ => ffs.epsCount = 0
  | .bindFails ffs _ => ffs.epsCount = 0
  | .unbind => True

/-- Without endpoints a step leaves the map. -/
theorem FuncStep.epsRevmap_eq {a : FuncAct} (h : FuncStep address s a t) (ha : a.NoEndpoints) :
  t.priv.epsRevmap = s.priv.epsRevmap
  := by
  cases a with
  | bind ffs c =>
      obtain ⟨-, hacc, hc, hrun⟩ := h
      have hmapped := (ffsFuncBind_mapped hc hacc rfl).of_ok hrun
      exact hmapped.1.epsRevmap_of_zero ha
  | bindFails ffs c =>
      obtain ⟨-, hacc, hc, code, hrun⟩ := h
      obtain heq | hmapped := (ffsFuncBind_mapped hc hacc rfl).of_error hrun
      · apply heq
      · apply hmapped.epsRevmap_of_zero ha
  | unbind =>
      obtain ⟨-, rfl⟩ := h
      rfl

/-- Without endpoints a run leaves the map. -/
theorem epsRevmap_of_run (h : Run (FuncStep address) s acts t)
    (hacts : ∀ a ∈ acts, a.NoEndpoints) :
  t.priv.epsRevmap = s.priv.epsRevmap
  := by
  induction h with
  | nil s => rfl
  | cons head tail ih =>
      refine (ih fun a ha => hacts a (List.mem_cons_of_mem _ ha)).trans ?_
      apply head.epsRevmap_eq (hacts _ List.mem_cons_self)

/-- After a bind that succeeds, in every run of binds and unbinds, the map is right exactly if
there are no endpoints, and it was empty before, as it is as long as nothing with endpoints was
bound.  The endpoints of the function alone are reported right exactly if their numbers, without
the directions, are different. -/
theorem endpointMap_right_iff (hrun : Run (FuncStep address) funcNew acts s)
    (hbind : FuncStep address s (.bind ffs c) t) :
  (t.priv.MapRight address ↔ ffs.epsCount = 0 ∧ ∀ n < 16, s.priv.epsRevmap n = 0)
    ∧ ((∀ a ∈ acts, a.NoEndpoints) → ∀ n, s.priv.epsRevmap n = 0)
    ∧ ((∀ i e, t.priv.function.eps i = some e → t.priv.Reports (address e) i)
      ↔ t.priv.DistinctNumbers address)
  := by
  obtain ⟨-, hacc, hc, hok⟩ := hbind
  obtain ⟨hmapped, hclaimed, hmax⟩ := (ffsFuncBind_mapped hc hacc rfl).of_ok hok
  refine ⟨?_, ?_, hmapped.reports_iff hmax⟩
  · rw [hmapped.mapRight_iff]
    refine and_congr_left fun _ => ⟨fun hno => ?_, fun hzero => ?_⟩
    · by_contra hne
      apply hno (hclaimed hne)
    · apply not_hasClaimed_of_length (hmapped.length.trans hzero)
  · intro hacts n
    rw [epsRevmap_of_run hrun hacts]
    rfl

end Runs

/-- A V2 blob with an interface without endpoints, of the full speed. -/
def bareInterfaceDescs : Bytes :=
  [3, 0, 0, 0, 25, 0, 0, 0, 1, 0, 0, 0, 1, 0, 0, 0, 9, 4, 0, 0, 0, 255, 0, 0, 0]

/-- A V2 blob with an interface with two endpoints, of the full speed. -/
def twoEndpointDescs : Bytes :=
  [3, 0, 0, 0, 39, 0, 0, 0, 1, 0, 0, 0, 3, 0, 0, 0,
    9, 4, 0, 0, 2, 255, 0, 0, 0, 7, 5, 0x81, 2, 64, 0, 0, 7, 5, 0x02, 2, 64, 0, 0]

/-- The addresses of a gadget: endpoint 1 is the first one in, endpoint 2 the first one out. -/
def firstAddress (e : Nat) : UInt8 := if e = 1 then 0x81 else 0x01

/-- A gadget with the endpoints 1 and 2. -/
def firstConfig : UsbConfig :=
  { plainConfig with
    autoconfig := fun claimed _ =>
      if 1 ∈ claimed then some ⟨2, firstAddress 2, 64⟩ else some ⟨1, firstAddress 1, 64⟩ }

theorem firstConfig_addresses :
  firstConfig.Addresses firstAddress
  := by
  intro claimed bytes config h
  have hauto : (if 1 ∈ claimed then some (⟨2, firstAddress 2, 64⟩ : EpConfig)
      else some ⟨1, firstAddress 1, 64⟩) = some config := h
  split at hauto
  · cases hauto
    rfl
  · cases hauto
    rfl

theorem AcceptedBlob.accepted {m : Bytes} (h : AcceptedBlob m) (hm : 12 ≤ m.length)
    (hmax : m.length < 2147483648) :
  (newFunction m).priv.ffs.Accepted
  := by
  obtain ⟨t, ht⟩ := h
  refine ⟨_, m, ffsDataNew, t, hm, hmax, ht, ?_⟩
  unfold newFunction
  rw [ht]
  rfl

/-- What a bind of the blob leaves. -/
def bindBlob (m : Bytes) (s : Heap BindState) : EStateM.Result Stop (Heap BindState) Unit :=
  (ffsFuncBind firstConfig).run ⟨s.mem, { s.priv with ffs := (newFunction m).priv.ffs }⟩

theorem funcStep_bindBlob {m : Bytes} {s : Heap BindState} (hm : 12 ≤ m.length)
    (hmax : m.length < 2147483648) (hacc : AcceptedBlob m) (hbound : s.priv.bound = false)
    (hstop : stopOf (bindBlob m s) = none) :
  FuncStep firstAddress s (.bind (newFunction m).priv.ffs firstConfig) (bindState (bindBlob m s))
  := by
  refine ⟨hbound, hacc.accepted hm hmax, firstConfig_addresses, ?_⟩
  obtain ⟨_, t, ht⟩ := stopOf_eq_none.mp hstop
  show bindBlob m s = _
  rw [ht]
  rfl

/-- A bind of a function that has no endpoints. -/
theorem endpointMap_right_iff_bareInterface :
  FuncStep firstAddress funcNew (.bind (newFunction bareInterfaceDescs).priv.ffs firstConfig)
      (bindState (bindBlob bareInterfaceDescs funcNew))
    ∧ (bindState (bindBlob bareInterfaceDescs funcNew)).priv.MapRight firstAddress
  := by
  have hbind := funcStep_bindBlob (m := bareInterfaceDescs) (s := funcNew) (by decide) (by decide)
    ⟨_, rfl⟩ rfl (by decide +kernel)
  refine ⟨hbind, (endpointMap_right_iff (.nil _) hbind).1.mpr ⟨?_, fun n _ => rfl⟩⟩
  decide +kernel

/-- A function with two endpoints that is bound. -/
def twoEndpointsBound : Heap BindState := bindState (bindBlob twoEndpointDescs funcNew)

/-- It is unbound. -/
def twoEndpointsUnbound : Heap BindState :=
  ⟨twoEndpointsBound.mem, twoEndpointsBound.priv.ffsFuncUnbind⟩

/-- It is bound again, without endpoints. -/
def bareBoundAfter : Heap BindState := bindState (bindBlob bareInterfaceDescs twoEndpointsUnbound)

/-- Two endpoints with different addresses get one cell of the map: a request to the first one is
reported for the second one.  After an unbind the cell is still there, and a function without
endpoints takes the request. -/
theorem endpointMap_not_right :
  AcceptedBlob twoEndpointDescs ∧ AcceptedBlob bareInterfaceDescs
    ∧ Run (FuncStep firstAddress) funcNew
      [.bind (newFunction twoEndpointDescs).priv.ffs firstConfig, .unbind,
        .bind (newFunction bareInterfaceDescs).priv.ffs firstConfig] bareBoundAfter
    ∧ twoEndpointsBound.priv.function.eps 0 = some 1
    ∧ twoEndpointsBound.priv.ffsFuncRevmapEp (firstAddress 1) = 2
    ∧ ¬twoEndpointsBound.priv.MapRight firstAddress
    ∧ bareBoundAfter.priv.eps.length = 0
    ∧ bareBoundAfter.priv.ffsFuncRevmapEp (firstAddress 1) = 2
    ∧ ¬bareBoundAfter.priv.MapRight firstAddress
  := by
  have hacc : AcceptedBlob twoEndpointDescs := ⟨_, rfl⟩
  have hbare : AcceptedBlob bareInterfaceDescs := ⟨_, rfl⟩
  have hfirst : FuncStep firstAddress funcNew _ twoEndpointsBound :=
    funcStep_bindBlob (m := twoEndpointDescs) (s := funcNew) (by decide) (by decide) hacc rfl
      (by decide +kernel)
  have hunbind : FuncStep firstAddress twoEndpointsBound .unbind twoEndpointsUnbound :=
    ⟨by decide +kernel, rfl⟩
  have hagain : FuncStep firstAddress twoEndpointsUnbound _ bareBoundAfter :=
    funcStep_bindBlob (m := bareInterfaceDescs) (s := twoEndpointsUnbound) (by decide)
      (by decide) hbare (by decide +kernel) (by decide +kernel)
  have hep : twoEndpointsBound.priv.function.eps 0 = some 1 := by decide +kernel
  have hnone : bareBoundAfter.priv.eps.length = 0 := by decide +kernel
  have hindex : twoEndpointsBound.priv.ffsFuncRevmapEp (firstAddress 1) = 2 := by decide +kernel
  have hstale : bareBoundAfter.priv.ffsFuncRevmapEp (firstAddress 1) = 2 := by decide +kernel
  have hno : ¬bareBoundAfter.priv.HasAddress firstAddress (firstAddress 1) :=
    fun h => not_hasClaimed_of_length hnone h.hasClaimed
  refine ⟨hacc, hbare, .cons hfirst (.cons hunbind (.cons hagain (.nil _))), hep, hindex, ?_, hnone,
    hstale, ?_⟩
  · intro hright
    have hreported := (hright.reports 0 1 hep).revmap
    rw [hindex] at hreported
    cases hreported
  · intro hright
    have hrefused := (hright.refuses (firstAddress 1) (by decide) hno).revmap
    rw [hstale] at hrefused
    cases hrefused

end Ffs
