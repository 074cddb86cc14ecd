import KhdfLinux.Usb.BoundEndpoints
import KhdfLinux.Usb.Overwritten
import KhdfLinux.Usb.References

/-!
# New numbers of interfaces and endpoints

A bind gives new numbers to the interfaces of a blob, addresses to its endpoints, and ids to its
strings.  `renumbering_consistent_iff`: after a bind, all descriptors have them, unless the patches
at its end take one of an interface or of an endpoint for an interface association.
-/

namespace Ffs

open Bytes Exec Heap Walk

/-! ### Consistent numbers -/

namespace RawDescs

variable (raw : RawDescs)

/-- The condition, if the number of `intf_data` is the type of interface associations: the
interfaces that are struck are `intf_ctl`, and of an endpoint all descriptors are struck or none,
unless it is given the number of `intf_ctl` for its address. -/
structure Spared (c : UsbConfig) (userFlags : Nat) : Prop where
  interface : ∀ i v, raw.all[i]? = some v → raw.Struck i → raw.type v = usbDtInterface →
    raw.intfs[0]?.map raw.number = some (raw.number v)
  endpoint : ∀ i j v w a, raw.all[i]? = some v → raw.all[j]? = some w →
    descEndpoint raw.bytes v.offset = some a → descEndpoint raw.bytes w.offset = some a →
    raw.Struck i → ¬raw.Struck j →
    raw.intfNumber c 0 = some (raw.givenAddress c userFlags raw.all a)

/-- The interfaces have the ids their numbers were given, different ones for different numbers, and
are found under them; the descriptors of an endpoint have the same address, and the strings of
interfaces and interface associations have their ids. -/
structure ConsistentlyNumbered (c : UsbConfig) (u : Heap BindState) : Prop where
  number : ∀ v ∈ raw.all, raw.type v = usbDtInterface →
    byteAt u.mem (v.offset + 2) = c.newNumber (raw.numbers raw.all) (raw.number v)
  distinct : ∀ v ∈ raw.all, ∀ w ∈ raw.all, raw.type v = usbDtInterface →
    raw.type w = usbDtInterface →
    (byteAt u.mem (v.offset + 2) = byteAt u.mem (w.offset + 2) ↔ raw.number v = raw.number w)
  revmap : ∀ v ∈ raw.all, raw.type v = usbDtInterface →
    EpsState.ffsFuncRevmapIntf u.priv.function (byteAt u.mem (v.offset + 2)) = (raw.number v).toNat
  endpoint : ∀ v ∈ raw.all, ∀ w ∈ raw.all, ∀ a, descEndpoint raw.bytes v.offset = some a →
    descEndpoint raw.bytes w.offset = some a →
    byteAt u.mem (v.offset + 2) = byteAt u.mem (w.offset + 2)
  string : ∀ v ∈ raw.all, raw.type v = usbDtInterface →
    byteAt u.mem (v.offset + 8) = c.newString (byteAt raw.bytes (v.offset + 8))
  function : ∀ v ∈ raw.all, raw.type v = usbDtInterfaceAssociation →
    byteAt u.mem (v.offset + 7) = c.newString (byteAt raw.bytes (v.offset + 7))

end RawDescs

/-! ### The numbers that are left -/

section Bind

variable {raw : RawDescs} {ffs : FfsData} {c : UsbConfig} {m₀ m : Bytes} {u : Heap BindState}
  {keys : List UInt8} {n a : UInt8} {v : Visit}

/-- The id of an interface is found at its number. -/
theorem BindState.Gave.revmapIntf {func : BindState} (hg : func.Gave c keys) (hc : c.FreshIds)
    (hn : n ∈ keys) (hlt : n.toNat < func.ffs.interfacesCount) :
  EpsState.ffsFuncRevmapIntf func.function (c.newNumber keys n) = n.toNat
  := by
  have hbyte : ((c.newNumber keys n).toNat : Int) = c.entry keys n := by
    have hle := hg.entry_nonneg hn
    have hbound : c.entry keys n < 256 := by
      unfold UsbConfig.entry Numbering.numberOf
      rw [if_pos hn]
      apply hc.byte
    unfold UsbConfig.newNumber u8
    rw [UInt8.toNat_ofNat']
    omega
  have hentry : ∀ j (hj : j < func.function.interfacesNums.length),
      func.function.interfacesNums[j] = func.interfacesNums j := by
    intro j hj
    simp [BindState.function]
  have hfind : func.function.interfacesNums.findIdx?
      (fun num => 0 ≤ num ∧ num = ((c.newNumber keys n).toNat : Int)) = some n.toNat := by
    rw [List.findIdx?_eq_some_iff_getElem]
    refine ⟨by simpa [BindState.function] using hlt, ?_, fun j hj => ?_⟩
    · rw [hentry, hg.nums, hbyte]
      simpa using hg.entry_nonneg hn
    · -- a number before has another entry, or none
      have hsmall := n.toNat_lt
      obtain ⟨k, rfl⟩ : ∃ k : UInt8, k.toNat = j :=
        ⟨UInt8.ofNat j, by rw [UInt8.toNat_ofNat']; omega⟩
      rw [hentry, hg.nums, hbyte]
      have hne : ¬(0 ≤ c.entry keys k ∧ c.entry keys k = c.entry keys n) := by
        rintro ⟨hle, heq⟩
        by_cases hk : k ∈ keys
        · have hsame : c.newNumber keys k = c.newNumber keys n := by
            unfold UsbConfig.newNumber
            rw [heq]
          obtain rfl := (hc.newNumber_inj hg hk hn).mp hsame
          exact absurd hj (Nat.lt_irrefl _)
        · rw [BindState.Gave.entry_of_notMem hk] at hle
          exact absurd hle (by decide)
      simpa using hne
  unfold EpsState.ffsFuncRevmapIntf
  rw [hfind]

/-- The numbers of interfaces are those the function has cells for. -/
theorem RawDescs.Valid.number_lt (hraw : raw.Valid ffs) (hv : v ∈ raw.all)
    (htype : raw.type v = usbDtInterface) :
  (raw.number v).toNat < ffs.interfacesCount
  := by
  obtain ⟨speed, hvs⟩ := RawDescs.mem_all.mp hv
  have hle := hraw.descInterfaces_le hvs
  have hclass : descClass (byteAt raw.bytes (v.offset + 1)) = .interface :=
    descClass_interface.mpr htype
  unfold descInterfaces at hle
  rw [if_pos hclass] at hle
  exact hle

/-- The address of an endpoint when the patches begin. -/
theorem Numbered.endpoint_given {s t : Heap BindState} (ht : Numbered raw c raw.all s t)
    (hraw : raw.Valid ffs) (hgiven : AddressesGiven raw c raw.descs s) (hv : v ∈ raw.all)
    (ha : descEndpoint raw.bytes v.offset = some a) :
  byteAt t.mem (v.offset + 2) = raw.givenAddress c s.priv.ffs.userFlags raw.all a
  := by
  obtain ⟨speed, hvs⟩ := RawDescs.mem_all.mp hv
  rw [← show seenAll raw.descs = raw.all from rfl, ← hgiven.given speed v hvs a ha]
  refine (ht.mem.2 _ ?_).symm
  rintro ⟨w, hw, hfield⟩
  have hseven := (descSize_endpoint (hraw.mem hvs).2.2 ha).2.2.1
  obtain rfl := hraw.numField_own hvs (.inr (by omega)) hw hfield
  unfold NumField at hfield
  unfold descEndpoint at ha
  split_ifs at ha with hclass
  rw [hclass] at hfield
  simp at hfield

/-- An endpoint has one address exactly if all descriptors of it are struck or none, or it is given
the number of `intf_ctl`. -/
theorem RawDescs.Overwritten.endpoint_iff (h : raw.Overwritten c m₀ raw.all [] m)
    (hr : raw.Prepared ffs c m₀) {flags : Nat}
    (hgiven : ∀ v ∈ raw.all, ∀ a, descEndpoint raw.bytes v.offset = some a →
      byteAt m₀ (v.offset + 2) = raw.givenAddress c flags raw.all a) :
  (∀ v ∈ raw.all, ∀ w ∈ raw.all, ∀ a, descEndpoint raw.bytes v.offset = some a →
      descEndpoint raw.bytes w.offset = some a →
      byteAt m (v.offset + 2) = byteAt m (w.offset + 2))
    ↔ (raw.TypeNumbered c → ∀ i j v w a, raw.all[i]? = some v → raw.all[j]? = some w →
      descEndpoint raw.bytes v.offset = some a → descEndpoint raw.bytes w.offset = some a →
      raw.Struck i → ¬raw.Struck j →
      raw.intfNumber c 0 = some (raw.givenAddress c flags raw.all a))
  := by
  have hbyte : ∀ i v a, raw.all[i]? = some v → descEndpoint raw.bytes v.offset = some a →
      byteAt m (v.offset + 2) = if raw.TypeNumbered c ∧ raw.Struck i then
        byteAt m₀ (raw.intfAt 0 + 2) else raw.givenAddress c flags raw.all a := by
    intro i v a hv ha
    rw [h.endpoint i v (List.getElem?_eq_some_iff.mp hv).1 hv (by simp [ha]),
      hgiven v (List.mem_of_getElem? hv) a ha]
  constructor
  · intro hsame hnumber i j v w a hv hw ha hb hstruck hnot
    have heq := hsame v (List.mem_of_getElem? hv) w (List.mem_of_getElem? hw) a ha hb
    rw [hbyte i v a hv ha, hbyte j w a hw hb, if_pos ⟨hnumber, hstruck⟩,
      if_neg fun hyes => hnot hyes.2] at heq
    rw [hr.intfNumber_zero hnumber, heq]
  · intro hcond v hv w hw a ha hb
    obtain ⟨i, hi⟩ := List.getElem?_of_mem hv
    obtain ⟨j, hj⟩ := List.getElem?_of_mem hw
    rw [hbyte i v a hi ha, hbyte j w a hj hb]
    by_cases hnumber : raw.TypeNumbered c
    case neg => simp [hnumber]
    have hctl := hr.intfNumber_zero hnumber
    by_cases hstruck : raw.Struck i
    · by_cases hother : raw.Struck j
      · simp [hstruck, hother]
      · have hgot := hcond hnumber i j v w a hi hj ha hb hstruck hother
        rw [if_pos ⟨hnumber, hstruck⟩, if_neg fun hyes => hother hyes.2]
        exact Option.some.inj (hctl.symm.trans hgot)
    · by_cases hother : raw.Struck j
      · have hgot := hcond hnumber j i w v a hj hi hb ha hother hstruck
        rw [if_neg fun hyes => hstruck hyes.2, if_pos ⟨hnumber, hother⟩]
        exact Option.some.inj (hgot.symm.trans hctl)
      · simp [hstruck, hother]

/-- What is not taken for something else has its numbers. -/
theorem RawDescs.Overwritten.consistent_iff (h : raw.Overwritten c m₀ raw.all [] u.mem)
    (hr : raw.Prepared ffs c m₀) (hc : c.FreshIds) (hg : u.priv.Gave c (raw.numbers raw.all))
    (hffs : u.priv.ffs = ffs)
    (hgiven : ∀ v ∈ raw.all, ∀ a, descEndpoint raw.bytes v.offset = some a →
      byteAt m₀ (v.offset + 2) = raw.givenAddress c ffs.userFlags raw.all a) :
  raw.ConsistentlyNumbered c u ↔ (raw.TypeNumbered c → raw.Spared c ffs.userFlags)
  := by
  have hendpoint := h.endpoint_iff hr hgiven
  constructor
  · intro hu hnumber
    refine ⟨fun i v hv hstruck htype => ?_, hendpoint.mp hu.endpoint hnumber⟩
    exact h.spared hnumber i v (List.getElem?_eq_some_iff.mp hv).1 hv hstruck htype
  intro hcond
  have hnumber : ∀ v ∈ raw.all, raw.type v = usbDtInterface →
      byteAt u.mem (v.offset + 2) = c.newNumber (raw.numbers raw.all) (raw.number v) := by
    intro v hv htype
    rw [h.interface v hv htype, (hr.settled.written v hv).number htype]
  refine ⟨hnumber, fun v hv w hw htype htype' => ?_, fun v hv htype => ?_,
    hendpoint.mpr fun hyes => (hcond hyes).endpoint, fun v hv htype => ?_, fun v hv htype => ?_⟩
  · rw [hnumber v hv htype, hnumber w hw htype']
    exact hc.newNumber_inj hg (RawDescs.number_mem_numbers hv htype)
      (RawDescs.number_mem_numbers hw htype')
  · rw [hnumber v hv htype]
    exact hg.revmapIntf hc (RawDescs.number_mem_numbers hv htype)
      (hffs ▸ hr.valid.number_lt hv htype)
  · have hnine := hr.size_interface hv htype
    rw [h.tail v hv 8 (by decide) (by omega), (hr.settled.written v hv).string htype]
  · obtain ⟨speed, hvs⟩ := RawDescs.mem_all.mp hv
    have height := hr.valid.size_association hvs htype
    rw [h.tail v hv 7 (by decide) (by omega), (hr.settled.written v hv).function htype]

/-- An interface with the number of another one has lost its own. -/
theorem RawDescs.Broken.consistent_iff (h : raw.Broken c m₀ raw.all u.mem)
    (hr : raw.Prepared ffs c m₀) (hc : c.FreshIds) (hg : u.priv.Gave c (raw.numbers raw.all)) :
  raw.ConsistentlyNumbered c u ↔ (raw.TypeNumbered c → raw.Spared c ffs.userFlags)
  := by
  obtain ⟨hnumber, i, w, -, hw, hstruck, htype, hother, hbyte⟩ := h
  refine iff_of_false (fun hu => hother ?_) fun hcond => hother ?_
  · obtain ⟨ctl, hctl, hctlNumber⟩ := Option.map_eq_some_iff.mp (hr.intfNumber_zero hnumber)
    obtain ⟨hmem, hctlType⟩ := mem_all_of_intfs (List.mem_of_getElem? hctl)
    have hwall := List.mem_of_getElem? hw
    rw [hctl, Option.map_some, Option.some_inj]
    apply (hc.newNumber_inj hg (RawDescs.number_mem_numbers hmem hctlType)
      (RawDescs.number_mem_numbers hwall htype)).mp
    rw [← hu.number w hwall htype, hbyte, hctlNumber]
  · exact (hcond hnumber).interface i w hw hstruck htype

end Bind

/-! ### After a bind -/

section Bound

/-- After a bind of a function with a blob that was accepted, whose descriptors have two bytes at
least, its interfaces, endpoints and strings have consistent numbers exactly if the number of
`intf_data` is not `USB_DT_INTERFACE_ASSOCIATION`, or nothing else than `intf_ctl` is struck for it,
but whole endpoints. -/
theorem renumbering_consistent_iff
    {fdget : EventfdCtxFdget} {m : Bytes} {ffs : FfsData} {t : Heap FfsData} {lay : DescLayout}
    {c : UsbConfig} {s u : Heap BindState}
    (hm : 12 ≤ m.length) (hmax : m.length < 2147483648)
    (hacc : (ffsDataGotDescs fdget m.length).run ⟨m, ffs⟩ = .ok () t)
    (hlay : Parses m t.priv.interfacesCount lay) (hffs : s.priv.ffs = t.priv)
    (hserves : c.Serves t.priv) (hids : c.FreshIds) (hlong : ∀ v ∈ (lay.raw m).all, 2 ≤ v.size)
    (hbind : (ffsFuncBind c).run s = .ok () u) :
  (lay.raw m).ConsistentlyNumbered c u
    ↔ ((lay.raw m).TypeNumbered c → (lay.raw m).Spared c t.priv.userFlags)
  := by
  obtain ⟨lens, v, w, hpasses, hpatch, hmem, hpriv⟩ := ffsFuncBind_ok hbind
  have hraw := hlay.valid hm hmax hacc
  have hahead := noneAhead_of_patched hpasses hpatch
  have hbefore := bindPasses_beforePatches hraw hffs hahead hpasses
  obtain ⟨x, y, hx, hgiven, hy, hsame⟩ := bindPasses_numbered hserves hraw hffs hahead hpasses
  have hvy : v.mem = y.mem := hsame (F := Heap.mem) fun _ _ _ _ _ _ _ _ => rfl
  have hsettled := hy.settled hraw hx (hvy ▸ hbefore.heads)
  rw [← hvy] at hsettled
  have hprepared : (lay.raw m).Prepared t.priv c v.mem := ⟨hraw, hbefore.heads, hsettled, hlong⟩
  -- the patches leave the table of numbers
  have hkept : (u.priv.ids, u.priv.interfacesNums, u.priv.ffs)
      = (v.priv.ids, v.priv.interfacesNums, v.priv.ffs) := by
    rw [hpriv]
    exact ((PatchBlind.invariant
      (f := fun func => (func.ids, func.interfacesNums, func.ffs)) (fun _ _ => rfl) _).patchFunc
      v rfl).of_ok hpatch
  obtain ⟨hcount, hnums, hfunc⟩ := Prod.ext_iff.mp hkept |>.imp_right Prod.ext_iff.mp
  have htable : (v.priv.ids, v.priv.interfacesNums) = (y.priv.ids, y.priv.interfacesNums) :=
    hsame (F := fun s => (s.priv.ids, s.priv.interfacesNums)) fun _ _ _ _ _ _ _ _ => rfl
  obtain ⟨hcounty, hnumsy⟩ := Prod.ext_iff.mp htable
  have hg : u.priv.Gave c ((lay.raw m).numbers (lay.raw m).all) :=
    ⟨(hcount.trans hcounty).trans hy.gave.ids,
      fun n => (congrFun (hnums.trans hnumsy) n.toNat).trans (hy.gave.nums n), hy.gave.given⟩
  have haddress : ∀ d ∈ (lay.raw m).all, ∀ a,
      descEndpoint (lay.raw m).bytes d.offset = some a →
      byteAt v.mem (d.offset + 2)
        = (lay.raw m).givenAddress c t.priv.userFlags (lay.raw m).all a := by
    intro d hd a ha
    rw [hvy, hy.endpoint_given hraw hgiven hd ha, hx.ffs_eq]
  rcases (patchFunc_overwritten hbefore hprepared).of_ok hpatch with h | h
  · rw [← hmem] at h
    exact h.consistent_iff hprepared hids hg (hfunc.trans hbefore.ffs_eq) haddress
  · rw [← hmem] at h
    exact h.consistent_iff hprepared hids hg

/-- The numbers of the function with one CDC group are consistent. -/
theorem renumbering_consistent_cdc :
  ∃ u, (ffsFuncBind thirdIdConfig).run (newFunction cdcDescs) = .ok () u
    ∧ (cdcLayout.raw cdcDescs).ConsistentlyNumbered thirdIdConfig u
  := by
  have hacc : (ffsDataGotDescs (fun _ => .ok 0) cdcDescs.length).run ⟨cdcDescs, ffsDataNew⟩
      = .ok () ⟨cdcDescs, (newFunction cdcDescs).priv.ffs⟩ :=
    rfl
  have hlay : Parses cdcDescs (newFunction cdcDescs).priv.ffs.interfacesCount cdcLayout :=
    ⟨by decide +kernel, by decide +kernel, by decide +kernel, by decide +kernel, by decide +kernel,
      by decide, by decide⟩
  have hstop : stopOf ((ffsFuncBind thirdIdConfig).run (newFunction cdcDescs)) = none := by
    decide +kernel
  obtain ⟨_, u, hbind⟩ := stopOf_eq_none.mp hstop
  refine ⟨u, hbind, ?_⟩
  apply (renumbering_consistent_iff (by decide) (by decide) hacc hlay rfl (fun _ => by decide)
    freshIds_thirdIdConfig (by decide +kernel) hbind).mpr
  have hother : ¬(cdcLayout.raw cdcDescs).TypeNumbered thirdIdConfig := by decide +kernel
  exact fun hnumber => absurd hnumber hother

/-- A gadget with sixteen interface ids, of which ten are taken. -/
def tenthIdConfig : UsbConfig :=
  { plainConfig with interfaceId := fun n => if n < 6 then n + 10 else -enodev }

/-- A V2 blob of the full speed with two interfaces with an endpoint each, a class descriptor of
three bytes, and another alternate setting of the second interface. -/
def shortClassDescs : Bytes :=
  [3, 0, 0, 0, 60, 0, 0, 0, 1, 0, 0, 0, 6, 0, 0, 0,
    9, 4, 0, 0, 1, 255, 0, 0, 0, 7, 5, 0x81, 2, 64, 0, 0,
    9, 4, 1, 0, 1, 255, 0, 0, 0, 7, 5, 0x02, 2, 64, 0, 0,
    3, 0x24, 1, 9, 4, 1, 1, 0, 255, 0, 0, 0]

/-- The descriptors of the function with another alternate setting. -/
def shortClassLayout : DescLayout :=
  ⟨⟨1, 6, 0, 0, 0, 16⟩, [⟨16, 9⟩, ⟨25, 7⟩, ⟨32, 9⟩, ⟨41, 7⟩, ⟨48, 3⟩, ⟨51, 9⟩], [], [], []⟩

/-- The other alternate setting gets the number of the first interface. -/
theorem renumbering_broken :
  AcceptedBlob shortClassDescs
    ∧ Parses shortClassDescs (newFunction shortClassDescs).priv.ffs.interfacesCount shortClassLayout
    ∧ (∀ v ∈ (shortClassLayout.raw shortClassDescs).all, 2 ≤ v.size)
    ∧ tenthIdConfig.FreshIds
    ∧ ∃ u, (ffsFuncBind tenthIdConfig).run (newFunction shortClassDescs) = .ok () u
      ∧ byteAt u.mem 2 = 10 ∧ byteAt u.mem 18 = 11 ∧ byteAt u.mem 37 = 10
      ∧ ¬(shortClassLayout.raw shortClassDescs).ConsistentlyNumbered tenthIdConfig u
  := by
  have hstop : stopOf ((ffsFuncBind tenthIdConfig).run (newFunction shortClassDescs)) = none := by
    decide +kernel
  obtain ⟨_, u, hbind⟩ := stopOf_eq_none.mp hstop
  have hbytes : byteAt u.mem 2 = 10 ∧ byteAt u.mem 18 = 11 ∧ byteAt u.mem 37 = 10 := by
    have hstate :
        u = bindState ((ffsFuncBind tenthIdConfig).run (newFunction shortClassDescs)) := by
      rw [hbind]
      rfl
    rw [hstate]
    decide +kernel
  refine ⟨⟨_, rfl⟩, ?_, by decide +kernel, freshIds_of_range (by decide) fun _ => rfl, u, hbind,
    hbytes.1, hbytes.2.1, hbytes.2.2, fun h => ?_⟩
  · exact ⟨by decide +kernel, by decide +kernel, by decide +kernel, by decide +kernel,
      by decide +kernel, by decide, by decide⟩
  · -- the two settings of the second interface have different numbers
    have hsame := (h.distinct ⟨16, 9⟩ (by decide +kernel) ⟨35, 9⟩ (by decide +kernel)
      (by decide +kernel) (by decide +kernel)).mpr (by decide +kernel)
    rw [show (⟨16, 9⟩ : Visit).offset + 2 = 18 from rfl, hbytes.2.1,
      show (⟨35, 9⟩ : Visit).offset + 2 = 37 from rfl, hbytes.2.2] at hsame
    revert hsame
    decide

end Bound

end Ffs
