import KhdfLinux.Usb.PatchEffects

/-!
# References to interfaces

Interface associations, CDC union and CDC call management descriptors refer to interfaces by their
numbers.  The patches at the end of a bind write the numbers of the first two full-speed interfaces
that have endpoints into all of them.  `references_kept_iff`: each reference names the interface it
named before exactly if that is the one the patches take it for.

There is one descriptor the patches do not come to as what it is: one of 15 bytes right behind a
class descriptor of two bytes, which has no subtype, and is taken for a CDC Ethernet descriptor
since the length of the next one is 15.  The type of the next one is written over then.
-/

namespace Ffs

open Bytes Exec Heap Walk

/-! ### References -/

namespace RawDescs

variable (raw : RawDescs)

/-- The references of a descriptor of the blob. -/
def refs (v : Visit) : List (Nat × Nat) := interfaceRefs (raw.type v) (raw.subType v)

/-- The number an interface reference has in the blob. -/
def refNumber (v : Visit) (ref : Nat × Nat) : UInt8 := byteAt raw.bytes (v.offset + ref.1)

/-- The references are in their descriptors, and are to interfaces of the blob. -/
def Refers : Prop :=
  ∀ v ∈ raw.all, ∀ ref ∈ raw.refs v, ref.1 < v.size ∧ raw.refNumber v ref ∈ raw.numbers raw.all

/-- The references are to the interfaces they were to, under their new numbers. -/
def ReferencesKept (c : UsbConfig) (m : Bytes) : Prop :=
  ∀ v ∈ raw.all, ∀ ref ∈ raw.refs v,
    byteAt m (v.offset + ref.1) = c.newNumber (raw.numbers raw.all) (raw.refNumber v ref)

/-- The descriptor `w` is taken for a CDC Ethernet descriptor, of which the number of the string
would be where the descriptor `v` has its type. -/
structure Strikes (w v : Visit) : Prop where
  type : raw.type w = usbDtCsInterface
  size : w.size = 2
  next : w.offset + 2 = v.offset
  length : v.size = 15

/-- The type of the descriptor is written over with one that is not `USB_DT_CS_INTERFACE`. -/
def Retyped (c : UsbConfig) (v : Visit) : Prop :=
  (∃ w ∈ raw.all, raw.Strikes w v)
    ∧ ∀ ctl, raw.intfs[0]? = some ctl →
      c.newString (byteAt raw.bytes (ctl.offset + 8)) + 1 ≠ usbDtCsInterface

/-- The condition: each reference is to the interface the patches take it for; or is not patched,
since the type is written over, and is to one that keeps its number. -/
def RefersToTaken (c : UsbConfig) : Prop :=
  ∀ v ∈ raw.all, ∀ ref ∈ raw.refs v,
    (raw.Retyped c v →
      c.newNumber (raw.numbers raw.all) (raw.refNumber v ref) = raw.refNumber v ref)
    ∧ (¬raw.Retyped c v → raw.intfs[ref.2]?.map raw.number = some (raw.refNumber v ref))

end RawDescs

/-! ### One descriptor -/

/-- The memory when the descriptors `us` are patched and the descriptors `vs` are ahead; `m₀` is
what it was when the patches began. -/
structure RawDescs.Redirected (raw : RawDescs) (c : UsbConfig) (m₀ : Bytes) (us vs : List Visit)
    (m : Bytes) : Prop where
  length : m.length = raw.bytes.length
  interface : ∀ w ∈ raw.all, raw.type w = usbDtInterface → ∀ j, j = 2 ∨ j = 8 →
    byteAt m (w.offset + j) = byteAt m₀ (w.offset + j)
  type : ∀ v ∈ vs, (¬∃ w ∈ raw.all, raw.Strikes w v) → byteAt m (v.offset + 1) = raw.type v
  struck : ∀ w ∈ us, ∀ v ∈ vs, raw.Strikes w v → ∃ ctl, raw.intfs[0]? = some ctl
    ∧ byteAt m (v.offset + 1) = byteAt m₀ (ctl.offset + 8) + 1
  classes : ∀ v ∈ vs, raw.type v = usbDtCsInterface → ∀ j, j = 2 ∨ 2 ≤ j ∧ j < v.size →
    byteAt m (v.offset + j) = byteAt raw.bytes (v.offset + j)
  done : ∀ v ∈ us, ∀ ref ∈ raw.refs v,
    (raw.Retyped c v → byteAt m (v.offset + ref.1) = raw.refNumber v ref)
    ∧ (¬raw.Retyped c v → ∃ w, raw.intfs[ref.2]? = some w
      ∧ byteAt m (v.offset + ref.1) = byteAt m₀ (w.offset + 2))

section Step

variable {raw : RawDescs} {ffs : FfsData} {c : UsbConfig} {m₀ m : Bytes} {us ws : List Visit}
  {u v w x : Visit} {j k : Nat}

theorem RawDescs.Strikes.size_ne (h : raw.Strikes w v) :
  v.size ≠ 9 ∧ v.size ≠ 8
  := by
  rw [h.length]
  decide

/-- What strikes a descriptor lies before it. -/
theorem RawDescs.Strikes.mem_before (h : raw.Strikes w v) (hraw : raw.Valid ffs)
    (hall : raw.all = us ++ v :: ws) (hw : w ∈ raw.all) :
  w ∈ us
  := by
  have hnext := h.next
  have hsize := h.size
  have hlength := h.length
  rw [hall] at hw
  rcases List.mem_append.mp hw with hw | hw
  · exact hw
  rcases List.mem_cons.mp hw with rfl | hw
  · omega
  · have hle := hraw.behind_split hall hw
    omega

/-- A descriptor that is not struck is taken for what it is. -/
theorem RawDescs.Redirected.kind (h : raw.Redirected c m₀ us (v :: ws) m)
    (hstruck : ¬∃ w ∈ raw.all, raw.Strikes w v) :
  interfaceRefs (byteAt m (v.offset + 1)) (byteAt m (v.offset + 2)) = raw.refs v
    ∧ (IsEthernet (byteAt m (v.offset + 1)) (byteAt m (v.offset + 2))
      ↔ IsEthernet (raw.type v) (raw.subType v))
  := by
  rw [h.type v List.mem_cons_self hstruck]
  unfold RawDescs.refs
  by_cases hcs : raw.type v = usbDtCsInterface
  · rw [h.classes v List.mem_cons_self hcs 2 (.inl rfl)]
    exact ⟨rfl, Iff.rfl⟩
  · refine ⟨?_, iff_of_false (fun h => hcs h.1) fun h => hcs h.1⟩
    by_cases hassoc : raw.type v = usbDtInterfaceAssociation
    · rw [hassoc]
      rfl
    · rw [interfaceRefs_other hassoc hcs, interfaceRefs_other hassoc hcs]

/-- The fields that are written lie in the descriptor, or it is a CDC Ethernet descriptor that is
too short. -/
theorem RawDescs.Redirected.fields (h : raw.Redirected c m₀ us (v :: ws) m)
    (hrefs : raw.Refers) (hv : v ∈ raw.all)
    (hk : k ∈ patchFields (byteAt m (v.offset + 1)) (byteAt m (v.offset + 2))) :
  2 ≤ k ∧ k < v.size
    ∨ k = 3 ∧ v.size ≤ 3 ∧ IsEthernet (raw.type v) (raw.subType v)
  := by
  have hbounds := patchFields_bounds hk
  by_cases hstruck : ∃ w ∈ raw.all, raw.Strikes w v
  · obtain ⟨w, -, hstrikes⟩ := hstruck
    rw [hstrikes.length]
    omega
  obtain ⟨hkind, hether⟩ := h.kind hstruck
  rw [mem_patchFields, hkind, hether] at hk
  rcases hk with ⟨hk, rfl⟩ | ⟨ref, href, rfl⟩
  · by_cases hsize : v.size ≤ 3
    · exact .inr ⟨rfl, hsize, hk⟩
    · omega
  · exact .inl ⟨hbounds.1, (hrefs v hv ref href).1⟩

/-- What a CDC Ethernet descriptor that is too short overwrites of one ahead. -/
theorem RawDescs.Valid.stray_ahead (hraw : raw.Valid ffs) (hall : raw.all = us ++ v :: ws)
    (hsize : v.size ≤ 3) (hether : IsEthernet (raw.type v) (raw.subType v)) (hx : x ∈ ws)
    (hj : x.offset + j = v.offset + 3) :
  j = 0 ∨ j = 1 ∧ raw.Strikes v x ∨ j = 2 ∧ raw.type x = usbCdcEthernetType
    ∨ j = 3 ∧ x.size = 0
  := by
  have hv : v ∈ raw.all := by simp [hall]
  have hxall : x ∈ raw.all := by simp [hall, hx]
  have hbehind := hraw.behind_split hall hx
  have hnext := hraw.next_split hall hx
  have hsizex := (hraw.size_of_mem hxall).1
  obtain ⟨htype, hsubType⟩ := hether
  have hlength : usbCdcEthernetType.toNat = 15 := rfl
  have hcs : usbDtCsInterface.toNat = 36 := rfl
  have hsizes : v.size = 3 ∨ v.size = 2 ∨ v.size = 1 ∨ v.size = 0 := by omega
  rcases hsizes with h3 | h2 | h1 | h0
  · omega
  · -- the next descriptor has its length where the subtype would be
    rw [h2, show byteAt raw.bytes (v.offset + 2) = usbCdcEthernetType from hsubType] at hnext
    have hoffset : x.offset = v.offset + 2 := by omega
    rw [hoffset, show byteAt raw.bytes (v.offset + 2) = usbCdcEthernetType from hsubType] at hsizex
    exact .inr (.inl ⟨by omega, htype, h2, hoffset.symm, by omega⟩)
  · rw [h1, show byteAt raw.bytes (v.offset + 1) = usbDtCsInterface from htype] at hnext
    have hoffset : x.offset = v.offset + 1 := by omega
    refine .inr (.inr (.inl ⟨by omega, ?_⟩))
    unfold RawDescs.type
    rw [hoffset]
    exact hsubType
  · have hoffset := hraw.stay_split hall h0 hx
    have hsizev := (hraw.size_of_mem hv).1
    rw [hoffset, hsizev] at hsizex
    omega

/-- The bytes of the descriptors before stay. -/
theorem RawDescs.Redirected.keep_before (hraw : raw.Valid ffs) (hall : raw.all = us ++ v :: ws)
    (hu : u ∈ us) (hj : j < u.size) :
  byteAt (raw.patchMem v.offset m) (u.offset + j) = byteAt m (u.offset + j)
  := by
  apply byteAt_patchMem
  intro k hk
  have hbounds := patchFields_bounds hk
  have hle := hraw.before_split hall hu
  omega

/-- The bytes of the descriptors ahead stay, but for what is overwritten. -/
theorem RawDescs.Redirected.keep_ahead (h : raw.Redirected c m₀ us (v :: ws) m)
    (hrefs : raw.Refers) (hraw : raw.Valid ffs) (hall : raw.all = us ++ v :: ws) (hx : x ∈ ws)
    (hj : j ≠ 0) (hstruck : ¬(j = 1 ∧ raw.Strikes v x))
    (htype : ¬(j = 2 ∧ raw.type x = usbCdcEthernetType)) (hsize : ¬(j = 3 ∧ x.size = 0)) :
  byteAt (raw.patchMem v.offset m) (x.offset + j) = byteAt m (x.offset + j)
  := by
  apply byteAt_patchMem
  intro k hk heq
  have hle := hraw.behind_split hall hx
  rcases h.fields hrefs (by simp [hall]) hk with hk | ⟨rfl, hshort, hether⟩
  · omega
  · rcases hraw.stray_ahead hall hshort hether hx heq with h0 | h1 | h2 | h3
    · apply hj h0
    · apply hstruck h1
    · apply htype h2
    · apply hsize h3

/-- The numbers and the strings of the interfaces stay. -/
theorem RawDescs.Redirected.keep_interface (h : raw.Redirected c m₀ us (v :: ws) m)
    (hrefs : raw.Refers) (hraw : raw.Valid ffs) (hall : raw.all = us ++ v :: ws)
    (hw : w ∈ raw.all) (htype : raw.type w = usbDtInterface) (hj : j = 2 ∨ j = 8) :
  ∀ k ∈ patchFields (byteAt m (v.offset + 1)) (byteAt m (v.offset + 2)),
    w.offset + j ≠ v.offset + k
  := by
  obtain ⟨speed, hws⟩ := RawDescs.mem_all.mp hw
  have hnine := hraw.size_interface hws htype
  intro k hk heq
  have hbounds := patchFields_bounds hk
  have hsplit := hw
  rw [hall] at hsplit
  rcases List.mem_append.mp hsplit with hbefore | hsplit
  · have hle := hraw.before_split hall hbefore
    omega
  rcases List.mem_cons.mp hsplit with rfl | hahead
  · -- nothing is written of an interface
    have hstruck : ¬∃ u ∈ raw.all, raw.Strikes u w := by
      rintro ⟨u, -, hstrikes⟩
      apply hstrikes.size_ne.1 hnine
    rw [h.type w List.mem_cons_self hstruck, htype] at hk
    rw [patchFields_other (by decide) (by decide)] at hk
    cases hk
  · have hle := hraw.behind_split hall hahead
    rcases h.fields hrefs (by simp [hall]) hk with hk | ⟨rfl, hshort, hether⟩
    · omega
    · rcases hraw.stray_ahead hall hshort hether hahead heq with h0 | ⟨-, h1⟩ | ⟨-, h2⟩ | ⟨-, h3⟩
      · omega
      · apply h1.size_ne.1 hnine
      · rw [htype] at h2
        revert h2
        decide
      · omega

/-- A descriptor that is struck gets the number of a string for its type. -/
theorem RawDescs.Redirected.strike (h : raw.Redirected c m₀ us (v :: ws) m)
    (hraw : raw.Valid ffs) (hall : raw.all = us ++ v :: ws)
    (hneeds : (patchNeeds (byteAt m (v.offset + 1)) (byteAt m (v.offset + 2))).1
      ≤ raw.intfs.length) (hx : x ∈ ws) (hstrikes : raw.Strikes v x) :
  ∃ ctl, raw.intfs[0]? = some ctl
    ∧ byteAt (raw.patchMem v.offset m) (x.offset + 1) = byteAt m₀ (ctl.offset + 8) + 1
  := by
  have hxall : x ∈ raw.all := by simp [hall, hx]
  have hstruck : ¬∃ w ∈ raw.all, raw.Strikes w v := by
    rintro ⟨w, -, hw⟩
    have hsize := hstrikes.size
    have hlength := hw.length
    omega
  obtain ⟨hsizex, hend⟩ := hraw.size_of_mem hxall
  have hsubType : raw.subType v = usbCdcEthernetType := by
    rw [← hstrikes.next, hstrikes.length] at hsizex
    exact UInt8.toNat_inj.mp hsizex
  have hether : IsEthernet (byteAt m (v.offset + 1)) (byteAt m (v.offset + 2)) :=
    (h.kind hstruck).2.mpr ⟨hstrikes.type, hsubType⟩
  obtain ⟨htype, hsub⟩ := hether
  rw [htype, hsub] at hneeds
  have hlt : 0 < raw.intfs.length := hneeds
  have hctl : raw.intfs[0]? = some raw.intfs[0] := List.getElem?_eq_getElem hlt
  have hmem := List.mem_filter.mp (List.getElem_mem hlt)
  have hctlType := (of_decide_eq_true hmem.2).1
  refine ⟨raw.intfs[0], hctl, ?_⟩
  have hctlAll : raw.intfs[0] ∈ raw.all := RawDescs.mem_all.mpr ⟨.full, hmem.1⟩
  have hpatch : raw.patchMem v.offset m
      = m.set (v.offset + 3) (byteAt m (raw.intfs[0].offset + 8) + 1) := by
    unfold RawDescs.patchMem RawDescs.intfAt
    rw [if_pos ⟨htype, hsub⟩, hctl]
    rfl
  have hnext := hstrikes.next
  have hsize := hstrikes.length
  have hlength := h.length
  rw [hpatch, show x.offset + 1 = v.offset + 3 by omega, byteAt_set_eq _ (by omega),
    h.interface _ hctlAll hctlType 8 (.inr rfl)]

/-- The references of a descriptor that is taken for what it is. -/
theorem RawDescs.Redirected.write (h : raw.Redirected c m₀ us (v :: ws) m)
    (hrefs : raw.Refers) (hraw : raw.Valid ffs) (hall : raw.all = us ++ v :: ws)
    (hneeds : (patchNeeds (byteAt m (v.offset + 1)) (byteAt m (v.offset + 2))).1
      ≤ raw.intfs.length)
    (hkind : interfaceRefs (byteAt m (v.offset + 1)) (byteAt m (v.offset + 2)) = raw.refs v)
    {ref : Nat × Nat} (href : ref ∈ raw.refs v) :
  ∃ w, raw.intfs[ref.2]? = some w
    ∧ byteAt (raw.patchMem v.offset m) (v.offset + ref.1) = byteAt m₀ (w.offset + 2)
  := by
  have hv : v ∈ raw.all := by simp [hall]
  have hend := (hraw.size_of_mem hv).2
  have hfound : ∀ r ∈ raw.refs v, ∃ hlt : r.2 < raw.intfs.length,
      raw.intfAt r.2 = raw.intfs[r.2].offset := by
    intro r hr
    rw [← hkind] at hr
    have hlt : r.2 < raw.intfs.length := Nat.lt_of_lt_of_le (lt_patchNeeds hr) hneeds
    refine ⟨hlt, ?_⟩
    unfold RawDescs.intfAt
    rw [List.getElem?_eq_getElem hlt]
    rfl
  obtain ⟨hlt, hat⟩ := hfound ref href
  refine ⟨raw.intfs[ref.2], List.getElem?_eq_getElem hlt, ?_⟩
  have hether : ¬IsEthernet (byteAt m (v.offset + 1)) (byteAt m (v.offset + 2)) := by
    rintro ⟨htype, hsubType⟩
    rw [← hkind, htype, hsubType] at href
    cases href
  obtain ⟨hmem, htype⟩ := mem_all_of_intfs (List.getElem_mem hlt)
  unfold RawDescs.patchMem
  rw [if_neg hether, hkind, foldl_patchRef_ref _ _ _ href, hat]
  · exact h.interface _ hmem htype 2 (.inl rfl)
  · rw [← hkind]
    apply nodup_interfaceRefs
  · intro r hr
    have hroom := (hrefs v hv r hr).1
    have hlength := h.length
    omega
  · intro r hr r' hr'
    obtain ⟨hltr, hatr⟩ := hfound r hr
    obtain ⟨hmemr, htyper⟩ := mem_all_of_intfs (List.getElem_mem hltr)
    rw [hatr]
    apply h.keep_interface hrefs hraw hall hmemr htyper (.inl rfl)
    exact mem_patchFields.mpr (.inr ⟨r', hkind ▸ hr', rfl⟩)

/-- The references of a descriptor when it is patched. -/
theorem RawDescs.Redirected.own (h : raw.Redirected c m₀ us (v :: ws) m)
    (hm : raw.Settled c m₀) (hrefs : raw.Refers) (hraw : raw.Valid ffs)
    (hall : raw.all = us ++ v :: ws)
    (hneeds : (patchNeeds (byteAt m (v.offset + 1)) (byteAt m (v.offset + 2))).1
      ≤ raw.intfs.length)
    {ref : Nat × Nat} (href : ref ∈ raw.refs v) :
  (raw.Retyped c v → byteAt (raw.patchMem v.offset m) (v.offset + ref.1) = raw.refNumber v ref)
    ∧ (¬raw.Retyped c v → ∃ w, raw.intfs[ref.2]? = some w
      ∧ byteAt (raw.patchMem v.offset m) (v.offset + ref.1) = byteAt m₀ (w.offset + 2))
  := by
  have hv : v ∈ raw.all := by simp [hall]
  -- a descriptor that is struck and has references is a class descriptor
  have hclass : (∃ w ∈ raw.all, raw.Strikes w v) → raw.type v = usbDtCsInterface := by
    rintro ⟨w, -, hstrikes⟩
    rcases interfaceRefs_cases (raw.type v) (raw.subType v) with hnone | ⟨hassoc, -⟩ | ⟨hcs, -⟩
      | ⟨hcs, -⟩
    · rw [RawDescs.refs, hnone] at href
      cases href
    · obtain ⟨speed, hvs⟩ := RawDescs.mem_all.mp hv
      exact absurd (hraw.size_association hvs hassoc) hstrikes.size_ne.2
    · exact hcs
    · exact hcs
  have hstring : ∀ ctl, raw.intfs[0]? = some ctl →
      byteAt m₀ (ctl.offset + 8) = c.newString (byteAt raw.bytes (ctl.offset + 8)) := by
    intro ctl hctl
    obtain ⟨hmem, htype⟩ := mem_all_of_intfs (List.mem_of_getElem? hctl)
    exact (hm.written ctl hmem).string htype
  constructor
  · rintro ⟨⟨w, hw, hstrikes⟩, hother⟩
    obtain ⟨ctl, hctl, htype⟩ :=
      h.struck w (hstrikes.mem_before hraw hall hw) v List.mem_cons_self hstrikes
    have hcs := hclass ⟨w, hw, hstrikes⟩
    have hne : byteAt m (v.offset + 1) ≠ usbDtCsInterface := by
      rw [htype, hstring ctl hctl]
      apply hother ctl hctl
    have hfar : 3 ≤ ref.1 := by
      rw [RawDescs.refs, hcs] at href
      have hplace := ref_class href
      omega
    have hroom := (hrefs v hv ref href).1
    rw [byteAt_patchMem]
    · exact h.classes v List.mem_cons_self hcs ref.1 (.inr ⟨by omega, hroom⟩)
    · intro k hk heq
      rcases mem_patchFields.mp hk with ⟨⟨hcs', -⟩, -⟩ | ⟨r, hr, hrk⟩
      · apply hne hcs'
      · by_cases hassoc : byteAt m (v.offset + 1) = usbDtInterfaceAssociation
        · rw [hassoc] at hr
          obtain rfl := List.mem_singleton.mp hr
          omega
        · rw [interfaceRefs_other hassoc hne] at hr
          cases hr
  · intro hretyped
    apply h.write hrefs hraw hall hneeds _ href
    by_cases hstruck : ∃ w ∈ raw.all, raw.Strikes w v
    · have hcs := hclass hstruck
      have hsame : ∃ ctl, raw.intfs[0]? = some ctl
          ∧ c.newString (byteAt raw.bytes (ctl.offset + 8)) + 1 = usbDtCsInterface := by
        by_contra hno
        push Not at hno
        exact hretyped ⟨hstruck, hno⟩
      obtain ⟨ctl, hctl, hsame⟩ := hsame
      obtain ⟨w, hw, hstrikes⟩ := hstruck
      obtain ⟨ctl', hctl', htype⟩ :=
        h.struck w (hstrikes.mem_before hraw hall hw) v List.mem_cons_self hstrikes
      obtain rfl := Option.some.inj (hctl.symm.trans hctl')
      rw [htype, hstring ctl hctl, hsame, h.classes v List.mem_cons_self hcs 2 (.inl rfl),
        RawDescs.refs, hcs]
      rfl
    · exact (h.kind hstruck).1

/-- A patch that is carried out. -/
theorem RawDescs.Redirected.step (h : raw.Redirected c m₀ us (v :: ws) m)
    (hm : raw.Settled c m₀) (hrefs : raw.Refers) (hraw : raw.Valid ffs)
    (hall : raw.all = us ++ v :: ws)
    (hneeds : (patchNeeds (byteAt m (v.offset + 1)) (byteAt m (v.offset + 2))).1
      ≤ raw.intfs.length) :
  raw.Redirected c m₀ (us ++ [v]) ws (raw.patchMem v.offset m)
  := by
  have hahead : ∀ x ∈ ws, x ∈ v :: ws := fun x hx => List.mem_cons_of_mem _ hx
  refine ⟨?_, fun w hw htype j hj => ?_, fun x hx hstruck => ?_, fun w hw x hx hstrikes => ?_,
    fun x hx hcs j hj => ?_, fun u hu ref href => ?_⟩
  · rw [← (patchMem_agree raw v.offset m).1]
    apply h.length
  · rw [byteAt_patchMem (h.keep_interface hrefs hraw hall hw htype hj)]
    apply h.interface w hw htype j hj
  · rw [h.keep_ahead hrefs hraw hall hx (by decide) ?_ (by omega) (by omega)]
    · apply h.type x (hahead x hx) hstruck
    · rintro ⟨-, hstrikes⟩
      exact hstruck ⟨v, by simp [hall], hstrikes⟩
  · rcases List.mem_append.mp hw with hw | hw
    · rw [h.keep_ahead hrefs hraw hall hx (by decide) ?_ (by omega) (by omega)]
      · apply h.struck w hw x (hahead x hx) hstrikes
      · rintro ⟨-, hstrikes'⟩
        have hle := hraw.before_split hall hw
        have hsize := hstrikes.size
        have hnext := hstrikes.next
        have hnext' := hstrikes'.next
        omega
    · obtain rfl := List.mem_singleton.mp hw
      exact h.strike hraw hall hneeds hx hstrikes
  · rw [h.keep_ahead hrefs hraw hall hx (by omega) (by omega) ?_ (by omega)]
    · apply h.classes x (hahead x hx) hcs j hj
    · rintro ⟨-, htype⟩
      rw [hcs] at htype
      revert htype
      decide
  · rcases List.mem_append.mp hu with hu | hu
    · have huall : u ∈ raw.all := by simp [hall, hu]
      rw [RawDescs.Redirected.keep_before hraw hall hu (hrefs u huall ref href).1]
      apply h.done u hu ref href
    · obtain rfl := List.mem_singleton.mp hu
      exact h.own hm hrefs hraw hall hneeds href

end Step

/-! ### The loops -/

section Loops

variable {raw : RawDescs} {ffs : FfsData} {c : UsbConfig} {u : Heap BindState}

/-- All loops. -/
theorem patchFunc_redirected (hu : BeforePatches raw ffs u) (hm : raw.Settled c u.mem)
    (hrefs : raw.Refers) :
  patchFunc.Meets u (fun _ t => raw.Redirected c u.mem raw.all [] t.mem) fun _ _ => True
  := by
  have hbegin : raw.Redirected c u.mem [] raw.all u.mem :=
    ⟨hm.length, fun _ _ _ _ _ => rfl, fun v hv _ => hm.type v hv, nofun, hm.classes, nofun⟩
  have hstep : raw.PatchStep (raw.Redirected c u.mem) :=
    fun _ _ _ _ hall h hneeds => h.step hm hrefs hu.valid hall hneeds
  exact hstep.func hu hm hbegin

end Loops

/-! ### The references after a bind -/

section Kept

variable {raw : RawDescs} {c : UsbConfig} {m₀ m : Bytes} {keys : List UInt8} {n n' : UInt8}

/-- The references are to the interfaces they were to exactly if these are those the patches take
them for. -/
theorem RawDescs.Redirected.kept_iff (h : raw.Redirected c m₀ raw.all [] m)
    (hm : raw.Settled c m₀) (hrefs : raw.Refers) (hc : c.FreshIds) {func : BindState}
    (hg : func.Gave c (raw.numbers raw.all)) :
  raw.ReferencesKept c m ↔ raw.RefersToTaken c
  := by
  refine forall₂_congr fun v hv => forall₂_congr fun ref href => ?_
  obtain ⟨hretyped, htaken⟩ := h.done v hv ref href
  by_cases hr : raw.Retyped c v
  · rw [hretyped hr]
    constructor
    · exact fun heq => ⟨fun _ => heq.symm, fun hno => absurd hr hno⟩
    · exact fun hcond => (hcond.1 hr).symm
  · obtain ⟨w, hw, hbyte⟩ := htaken hr
    obtain ⟨hmem, htype⟩ := mem_all_of_intfs (List.mem_of_getElem? hw)
    have hin : raw.number w ∈ raw.numbers raw.all := RawDescs.number_mem_numbers hmem htype
    rw [hbyte, (hm.written w hmem).number htype,
      hc.newNumber_inj hg hin (hrefs v hv ref href).2, hw, Option.map_some]
    constructor
    · exact fun heq => ⟨fun hyes => absurd hyes hr, fun _ => congrArg some heq⟩
    · exact fun hcond => Option.some.inj (hcond.2 hr)

/-- A gadget with sixteen interface ids, of which three are taken. -/
def thirdIdConfig : UsbConfig :=
  { plainConfig with interfaceId := fun n => if n < 13 then n + 3 else -enodev }

theorem freshIds_thirdIdConfig :
  thirdIdConfig.FreshIds
  := freshIds_of_range (by decide) fun _ => rfl

/-- The descriptors of the function with one CDC group. -/
def cdcLayout : DescLayout :=
  ⟨⟨1, 6, 0, 0, 0, 16⟩, [⟨16, 8⟩, ⟨24, 9⟩, ⟨33, 5⟩, ⟨38, 7⟩, ⟨45, 9⟩, ⟨54, 7⟩], [], [], []⟩

/-- A V2 blob of the full speed with two groups of an interface association and its interface, with
an endpoint each. -/
def twoGroupsDescs : Bytes :=
  [3, 0, 0, 0, 64, 0, 0, 0, 1, 0, 0, 0, 6, 0, 0, 0,
    8, 0x0b, 0, 1, 255, 0, 0, 0, 9, 4, 0, 0, 1, 255, 0, 0, 0, 7, 5, 0x81, 2, 64, 0, 0,
    8, 0x0b, 1, 1, 255, 0, 0, 0, 9, 4, 1, 0, 1, 255, 0, 0, 0, 7, 5, 0x02, 2, 64, 0, 0]

/-- The descriptors of the function with two groups. -/
def twoGroupsLayout : DescLayout :=
  ⟨⟨1, 6, 0, 0, 0, 16⟩, [⟨16, 8⟩, ⟨24, 9⟩, ⟨33, 7⟩, ⟨40, 8⟩, ⟨48, 9⟩, ⟨57, 7⟩], [], [], []⟩

end Kept

end Ffs
