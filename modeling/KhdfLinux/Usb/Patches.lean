import KhdfLinux.Usb.BoundEndpoints

/-!
# The patches

At its end a bind patches class descriptors: it writes the numbers of the first two full-speed
interfaces that have endpoints into interface associations and into three kinds of CDC
descriptors.  The validation asks nothing of CDC descriptors, nor that there are such interfaces.

`BeforePatches.patchSafe_iff` says when the patches are safe: each descriptor is long enough for
what is read and written of it, and there are as many interfaces as it takes.
-/

namespace Ffs

open Bytes Exec Heap Walk

/-! ### The pieces of a patch -/

/-- The patch of a class descriptor, of which the subtype was read. -/
def patchCdc (ctl data : Option Nat) (desc : Nat) (bDescriptorSubType : UInt8) : BindExec Unit := do
  if bDescriptorSubType = usbCdcCallManagementType then
    let bInterfaceNumber ← getField (← deref data) 2
    setField desc 4 bInterfaceNumber
  else if bDescriptorSubType = usbCdcUnionType then
    let bInterfaceNumber ← getField (← deref ctl) 2
    setField desc 3 bInterfaceNumber
    let bInterfaceNumber ← getField (← deref data) 2
    setField desc 4 bInterfaceNumber
  else if bDescriptorSubType = usbCdcEthernetType then
    let iInterface ← getField (← deref ctl) 8
    setField desc 3 (iInterface + 1)

/-- The patch of a descriptor, of which the type was read. -/
def patchTyped (ctl data : Option Nat) (desc : Nat) (bDescriptorType : UInt8) : BindExec Unit := do
  if bDescriptorType = usbDtInterfaceAssociation then
    let bInterfaceNumber ← getField (← deref ctl) 2
    setField desc 2 bInterfaceNumber
  else if bDescriptorType = usbDtCsInterface then
    getField desc 2 >>= patchCdc ctl data desc

theorem patchDesc_eq (ctl data : Option Nat) (desc : Nat) :
  patchDesc ctl data desc = getField desc 1 >>= patchTyped ctl data desc
  := rfl

/-- The search for interfaces at a descriptor, of which the type was read. -/
def findTyped (n i : Nat) (ctl : Option Nat) (desc : Nat) (bDescriptorType : UInt8) :
    BindExec (Option Nat × Option Nat) := do
  if bDescriptorType = usbDtInterface then
    let bNumEndpoints ← getField desc 4
    if 0 < bNumEndpoints then
      match ctl with
      | none => findIntfs n (i + 1) (some desc)
      | some ctl => pure (some ctl, some desc)
    else
      findIntfs n (i + 1) ctl
  else
    findIntfs n (i + 1) ctl

theorem findIntfs_succ (n i : Nat) (ctl : Option Nat) :
  findIntfs (n + 1) i ctl
    = descHead .full i >>= fun desc => getField desc 1 >>= findTyped n i ctl desc
  := rfl

/-! ### What a patch needs -/

namespace RawDescs

/-- The type of a descriptor. -/
def type (raw : RawDescs) (v : Visit) : UInt8 := byteAt raw.bytes (v.offset + 1)

/-- The subtype of a class descriptor. -/
def subType (raw : RawDescs) (v : Visit) : UInt8 := byteAt raw.bytes (v.offset + 2)

/-- The interfaces that have endpoints. -/
def intfsOf (raw : RawDescs) (vs : List Visit) : List Visit :=
  vs.filter fun v => raw.type v = usbDtInterface ∧ 0 < byteAt raw.bytes (v.offset + 4)

/-- The interfaces of the full speed that have endpoints.  The first is `intf_ctl`, and the second
is `intf_data`. -/
def intfs (raw : RawDescs) : List Visit := raw.intfsOf (raw.descs .full)

end RawDescs

/-- How many interfaces with endpoints are used, and how many bytes are read and written, when the
loops come to a descriptor. -/
def patchNeeds (type subType : UInt8) : Nat × Nat :=
  if type = usbDtInterfaceAssociation then
    (1, 3)
  else if type = usbDtCsInterface then
    if subType = usbCdcCallManagementType ∨ subType = usbCdcUnionType then (2, 5)
    else if subType = usbCdcEthernetType then (1, 4)
    else (0, 3)
  else
    (0, 2)

/-- There is what the loops need when they come to the descriptor. -/
def RawDescs.Fits (raw : RawDescs) (v : Visit) : Prop :=
  (patchNeeds (raw.type v) (raw.subType v)).1 ≤ raw.intfs.length
    ∧ (patchNeeds (raw.type v) (raw.subType v)).2 ≤ v.size

/-- There is what the loops need, for all descriptors. -/
def RawDescs.Patchable (raw : RawDescs) : Prop := ∀ speed, ∀ v ∈ raw.descs speed, raw.Fits v

/-- The bytes touched lie inside their descriptors. -/
def BindState.Inside (m : Bytes) (func : BindState) : Prop :=
  ∀ p ∈ func.patched, p.2 < (byteAt m p.1).toNat

/-- From `u` on the patches come to their end, and touch no byte outside the descriptors. -/
def PatchSafe (u : Heap BindState) : Prop :=
  ∃ v, patchFunc.run u = .ok () v ∧ v.priv.Inside u.mem

/-! ### What the loops read -/

/-- The bytes of a descriptor the loops decide by. -/
def RawDescs.Fixed (raw : RawDescs) (v : Visit) (j : Nat) : Prop :=
  j < 2 ∨ raw.type v = usbDtInterface ∧ j = 4 ∨ raw.type v = usbDtCsInterface ∧ j = 2 ∧ j < v.size

/-- The bytes of a descriptor the loops write. -/
def RawDescs.PatchField (raw : RawDescs) (v : Visit) (j : Nat) : Prop :=
  raw.type v = usbDtInterfaceAssociation ∧ j = 2
    ∨ raw.type v = usbDtCsInterface ∧ (j = 3 ∨ j = 4)

/-- The bytes the loops decide by are those of the blob. -/
structure RawDescs.Heads (raw : RawDescs) (m : Bytes) : Prop where
  length : m.length = raw.bytes.length
  fixed : ∀ speed, ∀ v ∈ raw.descs speed, ∀ j, raw.Fixed v j →
    byteAt m (v.offset + j) = byteAt raw.bytes (v.offset + j)

section Heads

variable {raw : RawDescs} {ffs : FfsData} {speed : Speed} {v w : Visit} {m : Bytes} {j k : Nat}

theorem RawDescs.Valid.size_eq (hraw : raw.Valid ffs) (hv : v ∈ raw.descs speed) :
  (byteAt raw.bytes v.offset).toNat = v.size ∧ v.offset + 2 ≤ raw.bytes.length
    ∧ (descClass (raw.type v)).lengthRule v.size
  := by
  obtain ⟨-, -, hsize⟩ := hraw.mem hv
  unfold descSize at hsize
  split_ifs at hsize with hcond
  obtain ⟨h2, -, hrule, -⟩ := hcond
  obtain hk := Option.some.inj hsize
  rw [hk] at hrule
  exact ⟨hk, by omega, hrule⟩

/-- An interface has nine bytes. -/
theorem RawDescs.Valid.size_interface (hraw : raw.Valid ffs) (hv : v ∈ raw.descs speed)
    (htype : raw.type v = usbDtInterface) :
  v.size = 9
  := by
  have hrule := (hraw.size_eq hv).2.2
  rw [htype] at hrule
  exact hrule

/-- An interface association has eight bytes. -/
theorem RawDescs.Valid.size_association (hraw : raw.Valid ffs) (hv : v ∈ raw.descs speed)
    (htype : raw.type v = usbDtInterfaceAssociation) :
  v.size = 8
  := by
  have hrule := (hraw.size_eq hv).2.2
  rw [htype] at hrule
  exact hrule

theorem RawDescs.Fixed.lt (h : raw.Fixed v j) (hraw : raw.Valid ffs) (hv : v ∈ raw.descs speed) :
  j < 2 ∨ j < v.size
  := by
  obtain h | ⟨htype, rfl⟩ | ⟨-, -, h⟩ := h
  · exact .inl h
  · have hsize := hraw.size_interface hv htype
    omega
  · exact .inr h

/-- What a patch writes is nothing the loops decide by. -/
theorem RawDescs.PatchField.not_fixed (h : raw.PatchField v j) :
  2 ≤ j ∧ ¬raw.Fixed v j
  := by
  unfold Fixed
  obtain ⟨htype, rfl⟩ | ⟨htype, hj⟩ := h
  · rw [htype]
    refine ⟨Nat.le_refl _, ?_⟩
    rintro (h | ⟨-, h⟩ | ⟨h, -⟩)
    · omega
    · omega
    · cases h
  · rw [htype]
    refine ⟨by omega, ?_⟩
    rintro (h | ⟨h, -⟩ | ⟨-, h, -⟩)
    · omega
    · cases h
    · omega

/-- A patch inside its descriptor. -/
theorem RawDescs.Heads.set (h : raw.Heads m) (hraw : raw.Valid ffs) (hv : v ∈ raw.descs speed)
    (hfield : raw.PatchField v k) (hk : k < v.size) (b : UInt8) :
  raw.Heads (m.set (v.offset + k) b)
  := by
  constructor
  · rw [List.length_set]
    apply h.length
  · intro sp w hw j hfixed
    rw [byteAt_set_ne]
    · apply h.fixed sp w hw j hfixed
    · intro heq
      obtain ⟨h2, hnot⟩ := hfield.not_fixed
      have hj := hfixed.lt hraw hw
      obtain rfl | hapart := hraw.apart hv hw
      · obtain rfl : k = j := Nat.add_left_cancel heq
        apply hnot hfixed
      · omega

/-- The walks over the descriptors leave what the loops decide by. -/
theorem DescsBound.heads {t : Heap BindState} (ht : DescsBound raw ffs t) (hraw : raw.Valid ffs) :
  raw.Heads t.mem
  := by
  obtain ⟨chunk, s, hs, hst⟩ := ht
  refine ⟨hst.mem.1.symm.trans hs.mem.1.symm, fun speed v hv j hfixed => ?_⟩
  have hlt := hfixed.lt hraw hv
  have hall : v ∈ raw.all := RawDescs.mem_all.mpr ⟨speed, hv⟩
  have hclaimed : byteAt s.mem (v.offset + j) = byteAt raw.bytes (v.offset + j) := by
    apply hs.fresh_head hraw hall
    obtain h | ⟨htype, rfl⟩ | ⟨htype, -, h⟩ := hfixed
    · exact .inl h
    · have hsize := hraw.size_interface hv htype
      have hclass : ¬descClass (raw.type v) = .endpoint := by
        rw [htype]
        decide
      exact .inr ⟨by omega, if_neg hclass⟩
    · have hclass : ¬descClass (raw.type v) = .endpoint := by
        rw [htype]
        decide
      exact .inr ⟨h, if_neg hclass⟩
  rw [← hclaimed]
  refine (hst.mem.2 _ ?_).symm
  rintro ⟨w, hw, hfield⟩
  obtain rfl := hraw.numField_own hv hlt hw hfield
  have hnumber : 2 ≤ j ∧ j ≠ 4 ∧ raw.type v ≠ usbDtCsInterface := by
    unfold NumField at hfield
    refine ⟨by omega, by omega, fun htype => ?_⟩
    rw [show byteAt raw.bytes (v.offset + 1) = usbDtCsInterface from htype] at hfield
    obtain ⟨hclass, -⟩ | ⟨hclass, -⟩ := hfield
    · exact absurd hclass (by decide)
    · exact absurd hclass (by decide)
  obtain h | ⟨-, h⟩ | ⟨htype, -⟩ := hfixed
  · omega
  · exact hnumber.2.1 h
  · exact hnumber.2.2 htype

end Heads

/-! ### The state before the patches -/

/-- What is known when the patches begin: the loops find the descriptors of the blob. -/
structure BeforePatches (raw : RawDescs) (ffs : FfsData) (u : Heap BindState) : Prop where
  valid : raw.Valid ffs
  ffs_eq : u.priv.ffs = ffs
  heads : raw.Heads u.mem
  untouched : u.priv.patched = []
  descHead : ∀ speed i v s, (raw.descs speed)[i]? = some v →
    s.priv.descState = u.priv.descState → (descHead speed i).run s = .ok v.offset s

/-- The arrays hold the positions of the descriptors. -/
theorem DescsBound.run_descHead
    {raw : RawDescs} {ffs : FfsData} {s t : Heap BindState} {speed : Speed} {i : Nat} {v : Visit}
    (ht : DescsBound raw ffs t) (hraw : raw.Valid ffs)
    (hcounts : ∀ speed, ffs.descsCount speed ≠ 4294967295)
    (hs : s.priv.descState = t.priv.descState) (hv : (raw.descs speed)[i]? = some v) :
  (descHead speed i).run s = .ok v.offset s
  := by
  obtain ⟨chunk, w, hw, hwt⟩ := ht
  obtain ⟨ids, nums, hpriv⟩ := hwt.priv
  have harrays : s.priv.descArrays = w.priv.descArrays := by
    rw [show s.priv.descArrays = t.priv.descArrays from congrArg (fun d => d.2.1) hs, hpriv]
  have hpointers : s.priv.descriptors = w.priv.descriptors := by
    rw [show s.priv.descriptors = t.priv.descriptors from congrArg (fun d => d.2.2.1) hs, hpriv]
  have hlt : i < ffs.descsCount speed := by
    rw [← hraw.length_descs]
    exact (List.getElem?_eq_some_iff.mp hv).1
  have hreached : w.priv.descriptors speed = some chunk :=
    hw.reached speed (by cases speed <;> decide) (by omega)
  have hsize := hw.arrays.size speed
  rw [if_neg (by omega)] at hsize
  have hcount := hcounts speed
  have hmax := hraw.counts speed
  unfold u32 at hsize
  unfold Ffs.descHead
  rw [EStateM.run_bind, run_look]
  dsimp only
  rw [hpointers, harrays, hreached, EStateM.run_bind]
  dsimp only [deref]
  rw [EStateM.run_pure]
  dsimp only
  rw [EStateM.run_bind, run_checkIndex (by omega)]
  dsimp only
  rw [hw.arrays.entry speed i v hv]
  rfl

/-- The passes of a bind come to such a state. -/
theorem bindPasses_beforePatches
    {c : UsbConfig} {raw : RawDescs} {ffs : FfsData} {s u : Heap BindState} {lens : Nat × Nat × Nat}
    (hraw : raw.Valid ffs) (hffs : s.priv.ffs = ffs) (hahead : s.priv.NoneAhead)
    (h : (bindPasses c).run s = .ok lens u) :
  BeforePatches raw ffs u
  := by
  obtain ⟨-, hcounts, t, ht, hsame⟩ := bindPasses_ok hraw hffs hahead h
  have hmem : u.mem = t.mem := hsame (F := Heap.mem) fun _ _ _ _ _ _ _ _ => rfl
  have hstate : u.priv.descState = t.priv.descState :=
    hsame (F := fun s => s.priv.descState) fun _ _ _ _ _ _ _ _ => rfl
  have hpatched : u.priv.patched = t.priv.patched :=
    hsame (F := fun s => s.priv.patched) fun _ _ _ _ _ _ _ _ => rfl
  have hheads := ht.heads hraw
  refine ⟨hraw, ?_, hmem ▸ hheads, ?_, fun speed i v s hv hs => ?_⟩
  · obtain ⟨_, _, _, _, hffs⟩ := ht.walked hstate
    apply hffs
  · obtain ⟨chunk, w, hw, hwt⟩ := ht
    obtain ⟨ids, nums, hpriv⟩ := hwt.priv
    rw [hpatched, hpriv]
    exact hw.unused.2.2.2.2.2
  · exact ht.run_descHead hraw hcounts (hs.trans hstate) hv

/-- The state of the loops: all bytes touched lie inside their descriptors, and the bytes the loops
decide by are still those of the blob. -/
structure Patching (raw : RawDescs) (u s : Heap BindState) : Prop where
  descs : s.priv.descState = u.priv.descState
  heads : raw.Heads s.mem
  inside : s.priv.Inside u.mem

theorem BeforePatches.patching {raw : RawDescs} {ffs : FfsData} {u : Heap BindState}
    (hu : BeforePatches raw ffs u) :
  Patching raw u u
  := by
  refine ⟨rfl, hu.heads, ?_⟩
  unfold BindState.Inside
  rw [hu.untouched]
  apply List.forall_mem_nil

section Loops

variable {raw : RawDescs} {ffs : FfsData} {u s : Heap BindState} {speed : Speed} {v w : Visit}
  {i j k : Nat}

theorem BeforePatches.length (hu : BeforePatches raw ffs u) (hv : v ∈ raw.descs speed) :
  (byteAt u.mem v.offset).toNat = v.size
  := by
  rw [← (hu.valid.size_eq hv).1]
  exact congrArg UInt8.toNat (hu.heads.fixed speed v hv 0 (.inl (by decide)))

/-- The descriptors lie in the copy. -/
theorem BeforePatches.lt {m : Bytes} (hu : BeforePatches raw ffs u) (hm : raw.Heads m)
    (hv : v ∈ raw.descs speed) (hk : k < v.size) :
  v.offset + k < m.length
  := by
  have hstop := (hu.valid.mem hv).2.1
  have hle := hu.valid.stop_le speed
  have hlength := hm.length
  omega

/-! ### One descriptor -/

/-- A byte inside a descriptor is touched. -/
theorem Patching.touch (hu : BeforePatches raw ffs u) (hs : Patching raw u s)
    (hv : v ∈ raw.descs speed) (hk : k < v.size) :
  Patching raw u ⟨s.mem, { s.priv with patched := (v.offset, k) :: s.priv.patched }⟩
  := by
  refine ⟨hs.descs, hs.heads, ?_⟩
  intro p hp
  obtain rfl | hp := List.mem_cons.mp hp
  · rw [hu.length hv]
    apply hk
  · apply hs.inside p hp

theorem getField_meets (hu : BeforePatches raw ffs u) (hs : Patching raw u s)
    (hv : v ∈ raw.descs speed) (hk : k < v.size) :
  (getField v.offset k).Meets s
    (fun b t => b = byteAt s.mem (v.offset + k) ∧ Patching raw u t) (fun _ _ => False)
  := by
  unfold getField touch
  have ht := hs.touch hu hv hk
  refine meets_step (run_update _ s) ?_
  unfold Meets
  rw [run_read8 (hu.lt ht.heads hv hk)]
  exact ⟨rfl, ht⟩

theorem getType_meets (hu : BeforePatches raw ffs u) (hs : Patching raw u s)
    (hv : v ∈ raw.descs speed) (h2 : 2 ≤ v.size) :
  (getField v.offset 1).Meets s (fun b t => b = raw.type v ∧ Patching raw u t) (fun _ _ => False)
  := by
  refine (getField_meets hu hs hv h2).mono ?_ fun _ _ he => he
  rintro _ t ⟨rfl, ht⟩
  exact ⟨hs.heads.fixed speed v hv 1 (.inl (by decide)), ht⟩

theorem getSubType_meets (hu : BeforePatches raw ffs u) (hs : Patching raw u s)
    (hv : v ∈ raw.descs speed) (h3 : 3 ≤ v.size) (hcs : raw.type v = usbDtCsInterface) :
  (getField v.offset 2).Meets s
    (fun b t => b = raw.subType v ∧ Patching raw u t) (fun _ _ => False)
  := by
  refine (getField_meets hu hs hv h3).mono ?_ fun _ _ he => he
  rintro _ t ⟨rfl, ht⟩
  exact ⟨hs.heads.fixed speed v hv 2 (.inr (.inr ⟨hcs, rfl, h3⟩)), ht⟩

theorem setField_meets (hu : BeforePatches raw ffs u) (hs : Patching raw u s)
    (hv : v ∈ raw.descs speed) (hk : k < v.size) (hfield : raw.PatchField v k) (b : UInt8) :
  (setField v.offset k b).Meets s (fun _ t => Patching raw u t) (fun _ _ => False)
  := by
  unfold setField Ffs.touch
  have ht := hs.touch hu hv hk
  refine meets_step (run_update _ s) ?_
  apply meets_write8 (hu.lt ht.heads hv hk)
  exact ⟨ht.descs, ht.heads.set hu.valid hv hfield hk b, ht.inside⟩

/-- An interface with endpoints. -/
theorem mem_intfs (hu : BeforePatches raw ffs u) (hw : raw.intfs[j]? = some w) :
  w ∈ raw.descs .full ∧ w.size = 9
  := by
  have hmem := List.mem_filter.mp (List.mem_of_getElem? hw)
  have htype := of_decide_eq_true hmem.2
  exact ⟨hmem.1, hu.valid.size_interface hmem.1 htype.1⟩

/-- A byte of an interface with endpoints is read. -/
theorem intfField_meets
    {f : UInt8 → BindExec Unit} {Q : Unit → Heap BindState → Prop}
    {E : Stop → Heap BindState → Prop}
    (hu : BeforePatches raw ffs u) (hs : Patching raw u s)
    (hi : i < raw.intfs.length) (hj : j < 9)
    (hf : ∀ b t, Patching raw u t → (f b).Meets t Q E) :
  (deref (raw.intfs[i]?.map Visit.offset) >>= fun d => getField d j >>= f).Meets s Q E
  := by
  have hw : raw.intfs[i]? = some raw.intfs[i] := List.getElem?_eq_getElem hi
  obtain ⟨hmem, hsize⟩ := mem_intfs hu hw
  rw [hw]
  refine meets_step rfl (meets_bind ?_)
  refine (getField_meets hu hs hmem (by omega)).mono ?_ fun _ _ he => he.elim
  exact fun b t ht => hf b t ht.2

theorem RawDescs.Fits.two_le (h : raw.Fits v) :
  2 ≤ v.size
  := by
  refine Nat.le_trans ?_ h.2
  unfold patchNeeds
  split_ifs <;> decide

/-- The CDC descriptors for which there is what the loop needs. -/
theorem patchCdc_meets (hu : BeforePatches raw ffs u) (hs : Patching raw u s)
    (hv : v ∈ raw.descs speed) (hcs : raw.type v = usbDtCsInterface) (hfits : raw.Fits v) :
  (patchCdc (raw.intfs[0]?.map Visit.offset) (raw.intfs[1]?.map Visit.offset) v.offset
      (raw.subType v)).Meets s (fun _ t => Patching raw u t) (fun _ _ => False)
  := by
  obtain ⟨hintfs, hsize⟩ := hfits
  have hassoc : ¬raw.type v = usbDtInterfaceAssociation := by
    rw [hcs]
    decide
  unfold patchNeeds at hintfs hsize
  rw [if_neg hassoc, if_pos hcs] at hintfs hsize
  unfold patchCdc
  have hthird : raw.PatchField v 3 := .inr ⟨hcs, .inl rfl⟩
  have hfourth : raw.PatchField v 4 := .inr ⟨hcs, .inr rfl⟩
  by_cases hcall : raw.subType v = usbCdcCallManagementType
  · rw [if_pos (.inl hcall)] at hintfs hsize
    rw [if_pos hcall]
    refine intfField_meets hu hs hintfs (by decide) fun b t ht => ?_
    exact setField_meets hu ht hv hsize hfourth b
  rw [if_neg hcall]
  by_cases hunion : raw.subType v = usbCdcUnionType
  · rw [if_pos (.inr hunion)] at hintfs hsize
    rw [if_pos hunion]
    refine intfField_meets hu hs (Nat.lt_of_succ_lt hintfs) (by decide) fun b t ht => ?_
    refine meets_bind ((setField_meets hu ht hv (by omega) hthird b).mono ?_ fun _ _ he => he)
    intro _ t ht
    refine intfField_meets hu ht hintfs (by decide) fun b t ht => ?_
    exact setField_meets hu ht hv hsize hfourth b
  rw [if_neg hunion]
  by_cases hether : raw.subType v = usbCdcEthernetType
  · rw [if_neg (not_or.mpr ⟨hcall, hunion⟩), if_pos hether] at hintfs hsize
    rw [if_pos hether]
    refine intfField_meets hu hs hintfs (by decide) fun b t ht => ?_
    exact setField_meets hu ht hv hsize hthird (b + 1)
  · rw [if_neg hether]
    exact meets_pure hs

/-- A descriptor for which there is what the loop needs. -/
theorem patchDesc_meets (hu : BeforePatches raw ffs u) (hs : Patching raw u s)
    (hv : v ∈ raw.descs speed) (hfits : raw.Fits v) :
  (patchDesc (raw.intfs[0]?.map Visit.offset) (raw.intfs[1]?.map Visit.offset) v.offset).Meets s
    (fun _ t => Patching raw u t) (fun _ _ => False)
  := by
  have h2 := hfits.two_le
  rw [patchDesc_eq]
  refine meets_bind ((getType_meets hu hs hv h2).mono ?_ fun _ _ he => he)
  rintro _ t ⟨rfl, ht⟩
  unfold patchTyped
  by_cases hassoc : raw.type v = usbDtInterfaceAssociation
  · obtain ⟨hintfs, hsize⟩ := hfits
    rw [hassoc] at hintfs hsize
    rw [if_pos hassoc]
    refine intfField_meets hu ht hintfs (by decide) fun b t ht => ?_
    exact setField_meets hu ht hv hsize (.inl ⟨hassoc, rfl⟩) b
  rw [if_neg hassoc]
  by_cases hcs : raw.type v = usbDtCsInterface
  · rw [if_pos hcs]
    have h3 : 3 ≤ v.size := by
      refine Nat.le_trans ?_ hfits.2
      unfold patchNeeds
      rw [if_neg hassoc, if_pos hcs]
      split_ifs <;> decide
    refine meets_bind ((getSubType_meets hu ht hv h3 hcs).mono ?_ fun _ _ he => he)
    rintro _ t ⟨rfl, ht⟩
    exact patchCdc_meets hu ht hv hcs hfits
  · rw [if_neg hcs]
    exact meets_pure ht

/-! ### Descriptors that do not fit -/

/-- A byte outside that was touched stays touched. -/
abbrev KeepsOutside {α : Type} (m : Bytes) (x : BindExec α) : Prop :=
  Preserves (fun s : Heap BindState => ¬s.priv.Inside m) x

theorem patchInvariant_outside (m : Bytes) :
  PatchInvariant fun s => ¬s.priv.Inside m
  where
  touch _ _ := by
    intro s hs hinside
    apply hs
    exact fun p hp => hinside p (List.mem_cons_of_mem _ hp)
  write8 p v :=
    (keeps_write8 (f := BindState.patched) p v).preserves fun patched =>
      ¬∀ p ∈ patched, p.2 < (byteAt m p.1).toNat

theorem PatchInvariant.patchCdc {P : Heap BindState → Prop} (hP : PatchInvariant P)
    (ctl data : Option Nat) (d : Nat) (subType : UInt8) :
  Preserves P (patchCdc ctl data d subType)
  := by
  have hset := hP.setField d
  have hdata := hP.intfField data 2 (hset 4)
  refine preserves_ite hdata (preserves_ite ?_ (preserves_ite ?_ (preserves_pure _)))
  · exact hP.intfField ctl 2 fun b => (hset 3 b).bind fun _ => hdata
  · exact hP.intfField ctl 8 fun b => hset 3 (b + 1)

theorem PatchInvariant.patchTyped {P : Heap BindState → Prop} (hP : PatchInvariant P)
    (ctl data : Option Nat) (d : Nat) (type : UInt8) :
  Preserves P (patchTyped ctl data d type)
  := by
  refine preserves_ite ?_ (preserves_ite ?_ (preserves_pure _))
  · exact hP.intfField ctl 2 (hP.setField d 2)
  · exact (hP.getField d 2).bind (hP.patchCdc ctl data d)

/-- The execution goes wrong: it stops, or has touched a byte outside its descriptor. -/
abbrev Strays {α : Type} (m : Bytes) (x : BindExec α) (s : Heap BindState) : Prop :=
  x.Meets s (fun _ t => ¬t.priv.Inside m) fun _ _ => True

/-- What goes wrong at its end. -/
theorem Strays.of_last {α β : Type} {m : Bytes} {x : BindExec α} {f : α → BindExec β}
    (h : ∀ a t, Strays m (f a) t) (s : Heap BindState) :
  Strays m (x >>= f) s
  := by
  have hany : x.Meets s (fun _ _ => True) fun _ _ => True := by
    unfold Meets
    split <;> trivial
  exact meets_bind (hany.mono (fun a t _ => h a t) fun _ _ he => he)

/-- What goes wrong at its beginning. -/
theorem Strays.of_first {α β : Type} {m : Bytes} {x : BindExec α} {f : α → BindExec β}
    (h : Strays m x s) (hf : ∀ a, KeepsOutside m (f a)) :
  Strays m (x >>= f) s
  := meets_bind (h.mono (fun a t ht => (hf a t ht).mono (fun _ _ hu => hu) fun _ _ _ => trivial)
    fun _ _ he => he)

theorem strays_stop {α : Type} (m : Bytes) (e : Stop) (s : Heap BindState) :
  Strays m (stop e : BindExec α) s
  := meets_stop trivial

theorem Strays.of_touch {α : Type} {x : BindExec α}
    (hu : BeforePatches raw ffs u) (hv : v ∈ raw.descs speed) (hk : v.size ≤ k)
    (hx : KeepsOutside u.mem x) (s : Heap BindState) :
  Strays u.mem (touch v.offset k >>= fun _ => x) s
  := by
  have htouch : Strays u.mem (touch v.offset k) s := by
    intro hinside
    have hlt := hinside (v.offset, k) List.mem_cons_self
    rw [hu.length hv] at hlt
    omega
  exact htouch.of_first fun _ => hx

theorem getField_strays (hu : BeforePatches raw ffs u) (hv : v ∈ raw.descs speed)
    (hk : v.size ≤ k) (s : Heap BindState) :
  Strays u.mem (getField v.offset k) s
  := Strays.of_touch hu hv hk ((patchInvariant_outside _).of_keeps (keeps_read8 _)) s

theorem setField_strays (hu : BeforePatches raw ffs u) (hv : v ∈ raw.descs speed)
    (hk : v.size ≤ k) (b : UInt8) (s : Heap BindState) :
  Strays u.mem (setField v.offset k b) s
  := Strays.of_touch hu hv hk ((patchInvariant_outside _).write8 _ _) s

/-- An interface is missing, or the byte that is written lies outside. -/
theorem intfField_strays {f : UInt8 → BindExec Unit}
    (h : raw.intfs.length ≤ i ∨ ∀ b t, Strays u.mem (f b) t) (s : Heap BindState) :
  Strays u.mem (deref (raw.intfs[i]?.map Visit.offset) >>= fun d => getField d j >>= f) s
  := by
  obtain h | h := h
  · rw [List.getElem?_eq_none h]
    exact meets_bind (strays_stop (α := Nat) u.mem (.fault .nullDeref) s)
  · exact Strays.of_last (fun d t => Strays.of_last h t) s

/-- A class descriptor for which there is not what the loop needs. -/
theorem patchCdc_strays (hu : BeforePatches raw ffs u) (hv : v ∈ raw.descs speed)
    (hcs : raw.type v = usbDtCsInterface) (h3 : 3 ≤ v.size) (hfits : ¬raw.Fits v)
    (s : Heap BindState) :
  Strays u.mem
    (patchCdc (raw.intfs[0]?.map Visit.offset) (raw.intfs[1]?.map Visit.offset) v.offset
      (raw.subType v)) s
  := by
  have hassoc : ¬raw.type v = usbDtInterfaceAssociation := by
    rw [hcs]
    decide
  unfold RawDescs.Fits patchNeeds at hfits
  rw [if_neg hassoc, if_pos hcs] at hfits
  -- where a byte is written outside, it is the last one
  have hlast : ∀ {i k : Nat}, ¬(i + 1 ≤ raw.intfs.length ∧ k + 1 ≤ v.size) → ∀ b : UInt8 → UInt8,
      raw.intfs.length ≤ i ∨ ∀ n t, Strays u.mem (setField v.offset k (b n)) t := by
    intro i k hneeds b
    by_cases hi : raw.intfs.length ≤ i
    · exact .inl hi
    · exact .inr fun n t => setField_strays hu hv (by omega) (b n) t
  unfold patchCdc
  by_cases hcall : raw.subType v = usbCdcCallManagementType
  · rw [if_pos (.inl hcall)] at hfits
    rw [if_pos hcall]
    exact intfField_strays (hlast hfits id) s
  rw [if_neg hcall]
  by_cases hunion : raw.subType v = usbCdcUnionType
  · rw [if_pos (.inr hunion)] at hfits
    rw [if_pos hunion]
    refine intfField_strays (.inr fun b t => ?_) s
    exact Strays.of_last (fun _ t => intfField_strays (hlast hfits id) t) t
  rw [if_neg hunion]
  by_cases hether : raw.subType v = usbCdcEthernetType
  · rw [if_neg (not_or.mpr ⟨hcall, hunion⟩), if_pos hether] at hfits
    rw [if_pos hether]
    exact intfField_strays (hlast hfits (· + 1)) s
  · rw [if_neg (not_or.mpr ⟨hcall, hunion⟩), if_neg hether] at hfits
    exact absurd ⟨Nat.zero_le _, h3⟩ hfits

/-- A descriptor for which there is not what the loop needs. -/
theorem patchDesc_strays (hu : BeforePatches raw ffs u) (hs : Patching raw u s)
    (hv : v ∈ raw.descs speed) (hfits : ¬raw.Fits v) :
  Strays u.mem
    (patchDesc (raw.intfs[0]?.map Visit.offset) (raw.intfs[1]?.map Visit.offset) v.offset) s
  := by
  rw [patchDesc_eq]
  by_cases h2 : 2 ≤ v.size
  case neg =>
    exact Strays.of_first (getField_strays hu hv (by omega) s)
      ((patchInvariant_outside _).patchTyped _ _ _)
  refine meets_bind ((getType_meets hu hs hv h2).mono ?_ fun _ _ he => he.elim)
  rintro _ t ⟨rfl, ht⟩
  unfold patchTyped
  by_cases hassoc : raw.type v = usbDtInterfaceAssociation
  · have hsize := hu.valid.size_association hv hassoc
    rw [if_pos hassoc]
    refine intfField_strays (.inl ?_) t
    by_contra hintfs
    apply hfits
    have hthree : 3 ≤ v.size := by omega
    rw [RawDescs.Fits, hassoc]
    exact ⟨Nat.not_le.mp hintfs, hthree⟩
  rw [if_neg hassoc]
  by_cases hcs : raw.type v = usbDtCsInterface
  · rw [if_pos hcs]
    by_cases h3 : 3 ≤ v.size
    case neg =>
      exact Strays.of_first (getField_strays hu hv (by omega) t)
        ((patchInvariant_outside _).patchCdc _ _ _)
    refine meets_bind ((getSubType_meets hu ht hv h3 hcs).mono ?_ fun _ _ he => he.elim)
    rintro _ w ⟨rfl, -⟩
    exact patchCdc_strays hu hv hcs h3 hfits w
  · apply absurd _ hfits
    unfold RawDescs.Fits patchNeeds
    rw [if_neg hassoc, if_neg hcs]
    exact ⟨Nat.zero_le _, h2⟩

/-! ### All descriptors -/

/-- The descriptors of a speed, from one on, for which there is what the loop needs. -/
theorem patchDescs_meets
    (us : List Visit) {vs : List Visit} (hu : BeforePatches raw ffs u) (hs : Patching raw u s)
    (hsplit : raw.descs speed = us ++ vs) (hfits : ∀ v ∈ vs, raw.Fits v) :
  (patchDescs speed (raw.intfs[0]?.map Visit.offset) (raw.intfs[1]?.map Visit.offset) vs.length
      us.length).Meets s
    (fun _ t => Patching raw u t) (fun _ _ => False)
  := by
  induction vs generalizing us s with
  | nil => exact meets_pure hs
  | cons v vs ih =>
      have hv : (raw.descs speed)[us.length]? = some v := by simp [hsplit]
      refine meets_step (hu.descHead speed _ v s hv hs.descs) (meets_bind ?_)
      refine (patchDesc_meets hu hs (List.mem_of_getElem? hv) (hfits v (by simp))).mono ?_
        fun _ _ he => he
      intro _ t ht
      have hrest := ih (us ++ [v]) ht (by simp [hsplit]) fun w hw => hfits w (by simp [hw])
      rw [List.length_append] at hrest
      apply hrest

/-- The descriptors of a speed, from one on, when there is not what the loop needs for one. -/
theorem patchDescs_strays
    (us : List Visit) {vs : List Visit} (hu : BeforePatches raw ffs u) (hs : Patching raw u s)
    (hsplit : raw.descs speed = us ++ vs) (hfits : ¬∀ v ∈ vs, raw.Fits v) :
  Strays u.mem (patchDescs speed (raw.intfs[0]?.map Visit.offset) (raw.intfs[1]?.map Visit.offset)
    vs.length us.length) s
  := by
  induction vs generalizing us s with
  | nil => exact absurd (List.forall_mem_nil _) hfits
  | cons v vs ih =>
      have hv : (raw.descs speed)[us.length]? = some v := by simp [hsplit]
      have hmem := List.mem_of_getElem? hv
      refine meets_step (hu.descHead speed _ v s hv hs.descs) ?_
      by_cases hhead : raw.Fits v
      case neg =>
        refine Strays.of_first (patchDesc_strays hu hs hmem hhead) fun _ => ?_
        exact (patchInvariant_outside _).patchDescs _ _ _ _ _
      refine meets_bind ((patchDesc_meets hu hs hmem hhead).mono ?_ fun _ _ he => he.elim)
      intro _ t ht
      have hrest := ih (us ++ [v]) ht (by simp [hsplit]) fun hall =>
        hfits (List.forall_mem_cons.mpr ⟨hhead, hall⟩)
      rw [List.length_append] at hrest
      apply hrest

/-! ### The interfaces with endpoints -/

/-- `intf_ctl` and `intf_data`, if `ctl` is what was found before, and the interfaces with
endpoints come that are given. -/
def foundIntfs (ctl : Option Nat) (intfs : List Visit) : Option Nat × Option Nat :=
  match ctl with
  | none => (intfs[0]?.map Visit.offset, intfs[1]?.map Visit.offset)
  | some ctl => (some ctl, intfs[0]?.map Visit.offset)

theorem PatchInvariant.findTyped {P : Heap BindState → Prop} (hP : PatchInvariant P) (n i : Nat)
    (ctl : Option Nat) (d : Nat) (type : UInt8) :
  Preserves P (findTyped n i ctl d type)
  := by
  refine preserves_ite ?_ (hP.findIntfs _ _ _)
  refine (hP.getField d 4).bind fun num => preserves_ite ?_ (hP.findIntfs _ _ _)
  cases ctl with
  | none => exact hP.findIntfs _ _ _
  | some ctl => exact preserves_pure _

/-- The interfaces are found, or a byte outside a descriptor is touched. -/
theorem findIntfs_meets
    (us : List Visit) {vs : List Visit} (ctl : Option Nat) (hu : BeforePatches raw ffs u)
    (hs : Patching raw u s) (hsplit : raw.descs .full = us ++ vs) :
  (findIntfs vs.length us.length ctl).Meets s
    (fun r t => r = foundIntfs ctl (raw.intfsOf vs) ∧ Patching raw u t
      ∨ ¬t.priv.Inside u.mem ∧ ¬∀ v ∈ vs, 2 ≤ v.size)
    (fun _ _ => ¬∀ v ∈ vs, 2 ≤ v.size)
  := by
  induction vs generalizing us s ctl with
  | nil =>
      refine meets_pure (.inl ⟨?_, hs⟩)
      cases ctl <;> rfl
  | cons v vs ih =>
      have hv : (raw.descs .full)[us.length]? = some v := by simp [hsplit]
      have hmem := List.mem_of_getElem? hv
      rw [List.length_cons, findIntfs_succ]
      refine meets_step (hu.descHead .full _ v s hv hs.descs) ?_
      by_cases h2 : 2 ≤ v.size
      case neg =>
        have hshort : ¬∀ w ∈ v :: vs, 2 ≤ w.size := fun hall => h2 (hall v (by simp))
        have hfirst := getField_strays hu hmem (k := 1) (by omega) s
        have hkeep := (patchInvariant_outside u.mem).findTyped
        refine (hfirst.of_first (hkeep _ _ _ _)).mono ?_ fun _ _ _ => hshort
        exact fun r t ht => .inr ⟨ht, hshort⟩
      refine meets_bind ((getType_meets hu hs hmem h2).mono ?_ fun _ _ he => he.elim)
      rintro _ t ⟨rfl, ht⟩
      have hnext : ∀ t ctl, Patching raw u t →
          (findIntfs vs.length (us.length + 1) ctl).Meets t
            (fun r t => r = foundIntfs ctl (raw.intfsOf vs) ∧ Patching raw u t
              ∨ ¬t.priv.Inside u.mem ∧ ¬∀ w ∈ v :: vs, 2 ≤ w.size)
            (fun _ _ => ¬∀ w ∈ v :: vs, 2 ≤ w.size) := by
        intro t ctl ht
        have hrest := ih (us ++ [v]) ctl ht (by simp [hsplit])
        rw [List.length_append] at hrest
        have hall : (¬∀ w ∈ vs, 2 ≤ w.size) → ¬∀ w ∈ v :: vs, 2 ≤ w.size :=
          fun hno hall => hno (List.forall_mem_cons.mp hall).2
        exact hrest.mono (fun r t h => h.imp_right fun h => ⟨h.1, hall h.2⟩) fun _ _ => hall
      unfold findTyped
      by_cases htype : raw.type v = usbDtInterface
      case neg =>
        rw [if_neg htype]
        have hskip : raw.intfsOf (v :: vs) = raw.intfsOf vs :=
          List.filter_cons_of_neg (by simp [htype])
        rw [hskip]
        exact hnext t ctl ht
      rw [if_pos htype]
      have h9 := hu.valid.size_interface hmem htype
      refine meets_bind ((getField_meets hu ht hmem (k := 4) (by omega)).mono ?_
        fun _ _ he => he.elim)
      rintro _ w ⟨rfl, hw⟩
      rw [ht.heads.fixed .full v hmem 4 (.inr (.inl ⟨htype, rfl⟩))]
      by_cases hnum : 0 < byteAt raw.bytes (v.offset + 4)
      case neg =>
        rw [if_neg hnum]
        have hskip : raw.intfsOf (v :: vs) = raw.intfsOf vs :=
          List.filter_cons_of_neg (by simp [hnum])
        rw [hskip]
        exact hnext w ctl hw
      rw [if_pos hnum]
      have htake : raw.intfsOf (v :: vs) = v :: raw.intfsOf vs :=
        List.filter_cons_of_pos (by simp [htype, hnum])
      rw [htake]
      cases ctl with
      | none => exact hnext w (some v.offset) hw
      | some ctl => exact meets_pure (.inl ⟨rfl, hw⟩)

/-! ### The loops -/

/-- The loop over the descriptors of a speed. -/
theorem patchSpeed_meets (speed : Speed) (hu : BeforePatches raw ffs u) (hs : Patching raw u s) :
  (patchDescs speed (raw.intfs[0]?.map Visit.offset) (raw.intfs[1]?.map Visit.offset)
      (ffs.descsCount speed) 0).Meets s
    (fun _ t => Patching raw u t ∧ (∀ v ∈ raw.descs speed, raw.Fits v)
      ∨ ¬t.priv.Inside u.mem ∧ ¬raw.Patchable)
    (fun _ _ => ¬raw.Patchable)
  := by
  rw [← hu.valid.length_descs speed]
  by_cases hfits : ∀ v ∈ raw.descs speed, raw.Fits v
  · have hall := patchDescs_meets [] hu hs (List.nil_append _).symm hfits
    exact hall.mono (fun _ t ht => .inl ⟨ht, hfits⟩) fun _ _ he => he.elim
  · have hnot : ¬raw.Patchable := fun hall => hfits (hall speed)
    have hstrays := patchDescs_strays [] hu hs (List.nil_append _).symm hfits
    exact hstrays.mono (fun _ t ht => .inr ⟨ht, hnot⟩) fun _ _ _ => hnot

/-- What comes after a loop that has gone wrong. -/
theorem Strays.rest {α : Type} {x : BindExec α} {Q : α → Heap BindState → Prop}
    (hx : KeepsOutside u.mem x) (hs : ¬s.priv.Inside u.mem) (hnot : ¬raw.Patchable) :
  x.Meets s (fun a t => Q a t ∨ ¬t.priv.Inside u.mem ∧ ¬raw.Patchable) fun _ _ => ¬raw.Patchable
  := (hx s hs).mono (fun _ _ ht => .inr ⟨ht, hnot⟩) fun _ _ _ => hnot

/-- All loops. -/
theorem patchFunc_meets (hu : BeforePatches raw ffs u) :
  patchFunc.Meets u
    (fun _ t => Patching raw u t ∧ raw.Patchable ∨ ¬t.priv.Inside u.mem ∧ ¬raw.Patchable)
    (fun _ _ => ¬raw.Patchable)
  := by
  have hloops := (patchInvariant_outside u.mem).patchDescs
  unfold patchFunc
  refine meets_step (run_look u) ?_
  dsimp only
  rw [hu.ffs_eq]
  have hfind := findIntfs_meets [] none hu hu.patching (List.nil_append _).symm
  rw [hu.valid.length_descs .full] at hfind
  have hshort : (¬∀ v ∈ raw.descs .full, 2 ≤ v.size) → ¬raw.Patchable :=
    fun hno hall => hno fun v hv => (hall .full v hv).two_le
  refine meets_bind (hfind.mono ?_ fun _ _ => hshort)
  rintro _ s (⟨rfl, hs⟩ | ⟨hout, hno⟩)
  case inr =>
    exact Strays.rest ((hloops _ _ _ _ _).bind fun _ => (hloops _ _ _ _ _).bind fun _ =>
      hloops _ _ _ _ _) hout (hshort hno)
  refine meets_bind ((patchSpeed_meets .full hu hs).mono ?_ fun _ _ he => he)
  rintro _ t (⟨ht, hfull⟩ | ⟨hout, hno⟩)
  case inr =>
    exact Strays.rest ((hloops _ _ _ _ _).bind fun _ => hloops _ _ _ _ _) hout hno
  refine meets_bind ((patchSpeed_meets .high hu ht).mono ?_ fun _ _ he => he)
  rintro _ v (⟨hv, hhigh⟩ | ⟨hout, hno⟩)
  case inr => exact Strays.rest (hloops _ _ _ _ _) hout hno
  refine (patchSpeed_meets .super hu hv).mono ?_ fun _ _ he => he
  intro _ w hw
  refine hw.imp_left fun ⟨hw, hsuper⟩ => ⟨hw, fun speed => ?_⟩
  cases speed with
  | full => exact hfull
  | high => exact hhigh
  | super => exact hsuper

/-- The patches are safe exactly if there is what they need. -/
theorem BeforePatches.patchSafe_iff (hu : BeforePatches raw ffs u) :
  PatchSafe u ↔ raw.Patchable
  := by
  unfold PatchSafe
  have hloops := patchFunc_meets hu
  constructor
  · rintro ⟨v, hv, hinside⟩
    obtain ⟨-, h⟩ | ⟨hout, -⟩ := hloops.of_ok hv
    · exact h
    · exact absurd hinside hout
  · intro h
    cases hrun : patchFunc.run u with
    | ok _ v =>
        obtain ⟨hv, -⟩ | ⟨-, hno⟩ := hloops.of_ok hrun
        · exact ⟨v, rfl, hv.inside⟩
        · exact absurd h hno
    | error e v => exact absurd h (hloops.of_error hrun)

end Loops

end Ffs
