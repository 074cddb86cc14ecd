import KhdfLinux.Usb.PatchEffects

/-!
# Descriptors that are overwritten

A class descriptor of three bytes can be taken for a CDC call management or a CDC union descriptor.
The number of `intf_data` is then written where the next descriptor has its type, and if this number
is `USB_DT_INTERFACE_ASSOCIATION`, the number of `intf_ctl` is written into the next descriptor.
`patchFunc_overwritten` tells which bytes the patches leave of a blob whose descriptors have two
bytes at least.
-/

namespace Ffs

open Bytes Exec Heap Walk

/-! ### Descriptors that are struck -/

namespace RawDescs

variable (raw : RawDescs)

/-- A class descriptor of three bytes that is taken for a CDC call management or union
descriptor. -/
def ShortClass (v : Visit) : Prop :=
  v.size = 3 ∧ raw.type v = usbDtCsInterface
    ∧ (raw.subType v = usbCdcCallManagementType ∨ raw.subType v = usbCdcUnionType)

instance : DecidablePred raw.ShortClass := by
  unfold ShortClass
  infer_instance

/-- The type of descriptor number `i` is written over: it is behind an odd number of short class
descriptors, since each of them that is taken for what it is takes the next one out. -/
def Struck (i : Nat) : Prop :=
  ((raw.all.take i).reverse.takeWhile fun v => raw.ShortClass v).length % 2 = 1

instance : DecidablePred raw.Struck := by
  unfold Struck
  infer_instance

/-- The new number of one of the interfaces with endpoints, 0 for `intf_ctl` and 1 for
`intf_data`. -/
def intfNumber (c : UsbConfig) (i : Nat) : Option UInt8 :=
  raw.intfs[i]?.map fun v => c.newNumber (raw.numbers raw.all) (raw.number v)

/-- The number of `intf_data` is the type of interface associations. -/
def TypeNumbered (c : UsbConfig) : Prop := raw.intfNumber c 1 = some usbDtInterfaceAssociation

instance (c : UsbConfig) : Decidable (raw.TypeNumbered c) := by
  unfold TypeNumbered
  infer_instance

variable {raw}

theorem not_struck_zero :
  ¬raw.Struck 0
  := by
  unfold Struck
  simp

/-- What comes behind a short class descriptor is struck, unless that is struck itself. -/
theorem struck_succ {i : Nat} {v : Visit} (hv : raw.all[i]? = some v) :
  raw.Struck (i + 1) ↔ raw.ShortClass v ∧ ¬raw.Struck i
  := by
  unfold Struck
  rw [List.take_add_one, hv, Option.toList_some, List.reverse_append, List.reverse_singleton,
    List.singleton_append]
  by_cases hshort : raw.ShortClass v
  · rw [List.takeWhile_cons_of_pos (by simpa using hshort), List.length_cons]
    simp only [hshort, true_and]
    omega
  · rw [List.takeWhile_cons_of_neg (by simpa using hshort)]
    simp [hshort]

end RawDescs

/-! ### Which fields are written -/

/-- The fields that are written of each kind of descriptor. -/
theorem patchFields_cases (type subType : UInt8) :
  type ≠ usbDtInterfaceAssociation ∧ type ≠ usbDtCsInterface ∧ patchFields type subType = []
    ∨ type = usbDtInterfaceAssociation ∧ patchFields type subType = [2]
    ∨ type = usbDtCsInterface ∧ subType = usbCdcCallManagementType
      ∧ patchFields type subType = [4]
    ∨ type = usbDtCsInterface ∧ subType = usbCdcUnionType ∧ patchFields type subType = [3, 4]
    ∨ type = usbDtCsInterface ∧ subType = usbCdcEthernetType ∧ patchFields type subType = [3]
    ∨ type = usbDtCsInterface ∧ subType ≠ usbCdcCallManagementType ∧ subType ≠ usbCdcUnionType
      ∧ patchFields type subType = []
  := by
  by_cases hassoc : type = usbDtInterfaceAssociation
  · rw [hassoc]
    exact .inr (.inl ⟨rfl, rfl⟩)
  by_cases hcs : type = usbDtCsInterface
  case neg => exact .inl ⟨hassoc, hcs, patchFields_other hassoc hcs subType⟩
  rw [hcs]
  by_cases hcall : subType = usbCdcCallManagementType
  · rw [hcall]
    exact .inr (.inr (.inl ⟨rfl, rfl, rfl⟩))
  by_cases hunion : subType = usbCdcUnionType
  · rw [hunion]
    exact .inr (.inr (.inr (.inl ⟨rfl, rfl, rfl⟩)))
  by_cases hether : subType = usbCdcEthernetType
  · rw [hether]
    exact .inr (.inr (.inr (.inr (.inl ⟨rfl, rfl, rfl⟩))))
  · refine .inr (.inr (.inr (.inr (.inr ⟨rfl, hcall, hunion, ?_⟩))))
    unfold patchFields
    rw [if_neg fun h => hether h.2, interfaceRefs_class, if_neg hcall, if_neg hunion]
    rfl

theorem two_mem_patchFields {type subType : UInt8} :
  2 ∈ patchFields type subType ↔ type = usbDtInterfaceAssociation
  := by
  have hne : usbDtCsInterface ≠ usbDtInterfaceAssociation := by decide
  rcases patchFields_cases type subType with ⟨hassoc, -, h⟩ | ⟨rfl, h⟩ | ⟨rfl, -, h⟩ | ⟨rfl, -, h⟩
    | ⟨rfl, -, h⟩ | ⟨rfl, -, -, h⟩
  · simp [h, hassoc]
  · simp [h]
  all_goals simp [h, hne]

theorem four_mem_patchFields {type subType : UInt8} :
  4 ∈ patchFields type subType
    ↔ type = usbDtCsInterface ∧ (subType = usbCdcCallManagementType ∨ subType = usbCdcUnionType)
  := by
  have hne : usbDtInterfaceAssociation ≠ usbDtCsInterface := by decide
  have hcall : usbCdcEthernetType ≠ usbCdcCallManagementType := by decide
  have hunion : usbCdcEthernetType ≠ usbCdcUnionType := by decide
  rcases patchFields_cases type subType with ⟨-, hcs, h⟩ | ⟨rfl, h⟩ | ⟨rfl, rfl, h⟩ | ⟨rfl, rfl, h⟩
    | ⟨rfl, rfl, h⟩ | ⟨rfl, hcall, hunion, h⟩
  · simp [h, hcs]
  · simp [h, hne]
  · simp [h]
  · simp [h]
  · simp [h, hcall, hunion]
  · simp [h, hcall, hunion]

theorem three_mem_patchFields {type subType : UInt8} (hthree : 3 ∈ patchFields type subType) :
  subType = usbCdcUnionType ∨ subType = usbCdcEthernetType
  := by
  rcases patchFields_cases type subType with ⟨-, -, h⟩ | ⟨-, h⟩ | ⟨-, -, h⟩ | ⟨-, hsub, -⟩
    | ⟨-, hsub, -⟩ | ⟨-, -, -, h⟩
  · simp [h] at hthree
  · simp [h] at hthree
  · simp [h] at hthree
  · exact .inl hsub
  · exact .inr hsub
  · simp [h] at hthree

/-! ### One descriptor -/

/-- The memory when the descriptors `us` are patched and the descriptors `vs` are ahead; `m₀` is
what it was when the patches began.  Of the next descriptor, the bytes before the third one may be
overwritten, and the third one if it is taken for a CDC union descriptor because of its length. -/
structure RawDescs.Overwritten (raw : RawDescs) (c : UsbConfig) (m₀ : Bytes) (us vs : List Visit)
    (m : Bytes) : Prop where
  length : m.length = raw.bytes.length
  ahead : ∀ v ∈ vs.head?, ∀ p, v.offset + 2 ≤ p → (p = v.offset + 2 → v.size ≠ 6) →
    byteAt m p = byteAt m₀ p
  tail : ∀ w ∈ raw.all, ∀ j, 5 ≤ j → j < w.size →
    byteAt m (w.offset + j) = byteAt m₀ (w.offset + j)
  interface : ∀ w ∈ raw.all, raw.type w = usbDtInterface →
    byteAt m (w.offset + 2) = byteAt m₀ (w.offset + 2)
  endpoint : ∀ i w, i < us.length → raw.all[i]? = some w →
    (descEndpoint raw.bytes w.offset).isSome →
    byteAt m (w.offset + 2) = if raw.TypeNumbered c ∧ raw.Struck i then
      byteAt m₀ (raw.intfAt 0 + 2) else byteAt m₀ (w.offset + 2)
  spared : raw.TypeNumbered c → ∀ i w, i < us.length → raw.all[i]? = some w → raw.Struck i →
    raw.type w = usbDtInterface → raw.intfs[0]?.map raw.number = some (raw.number w)
  typed : raw.TypeNumbered c → ∀ v ∈ vs.head?, v.size ≠ 6 → v.size ≠ 15 →
    byteAt m (v.offset + 1) = if raw.Struck us.length then usbDtInterfaceAssociation
      else raw.type v
  other : ¬raw.TypeNumbered c → ∀ v ∈ vs.head?, v.size ≠ 6 → v.size ≠ 15 →
    raw.type v ≠ usbDtInterfaceAssociation → byteAt m (v.offset + 1) ≠ usbDtInterfaceAssociation

/-- An interface other than `intf_ctl` has got the number of `intf_ctl`. -/
def RawDescs.Broken (raw : RawDescs) (c : UsbConfig) (m₀ : Bytes) (us : List Visit) (m : Bytes) :
    Prop :=
  raw.TypeNumbered c ∧ ∃ i w, i < us.length ∧ raw.all[i]? = some w ∧ raw.Struck i
    ∧ raw.type w = usbDtInterface ∧ raw.intfs[0]?.map raw.number ≠ some (raw.number w)
    ∧ byteAt m (w.offset + 2) = byteAt m₀ (raw.intfAt 0 + 2)

/-- What is known when the patches begin, of a blob whose descriptors have two bytes at least. -/
structure RawDescs.Prepared (raw : RawDescs) (ffs : FfsData) (c : UsbConfig) (m₀ : Bytes) : Prop
    where
  valid : raw.Valid ffs
  heads : raw.Heads m₀
  settled : raw.Settled c m₀
  long : ∀ v ∈ raw.all, 2 ≤ v.size

section Step

variable {raw : RawDescs} {ffs : FfsData} {c : UsbConfig} {m₀ m : Bytes} {us ws : List Visit}
  {v w x : Visit} {a : UInt8} {i j p : Nat}

theorem RawDescs.Prepared.length_byte (hr : raw.Prepared ffs c m₀) (hw : w ∈ raw.all) :
  (byteAt m₀ w.offset).toNat = w.size
  := by
  obtain ⟨speed, hws⟩ := RawDescs.mem_all.mp hw
  have hbyte := hr.heads.fixed speed w hws 0 (.inl (by decide))
  rw [Nat.add_zero] at hbyte
  rw [hbyte]
  exact (hr.valid.size_of_mem hw).1

/-- An interface or an endpoint is not of a size at which its type could be taken for a subtype. -/
theorem RawDescs.Prepared.size_interface (hr : raw.Prepared ffs c m₀) (hw : w ∈ raw.all)
    (htype : raw.type w = usbDtInterface) :
  w.size = 9
  := by
  obtain ⟨speed, hws⟩ := RawDescs.mem_all.mp hw
  exact hr.valid.size_interface hws htype

theorem RawDescs.Prepared.size_endpoint (hr : raw.Prepared ffs c m₀) (hw : w ∈ raw.all)
    (ha : (descEndpoint raw.bytes w.offset).isSome) :
  raw.type w = usbDtEndpoint ∧ (w.size = 7 ∨ w.size = 9)
  := by
  obtain ⟨speed, hws⟩ := RawDescs.mem_all.mp hw
  obtain ⟨b, hb⟩ := Option.isSome_iff_exists.mp ha
  have htype := (descSize_endpoint (hr.valid.mem hws).2.2 hb).1
  have hrule := (hr.valid.size_eq hws).2.2
  rw [show raw.type w = usbDtEndpoint from htype] at hrule
  exact ⟨htype, hrule⟩

/-- The number of an interface with endpoints when the patches begin. -/
theorem RawDescs.Prepared.intfNumber_eq (hr : raw.Prepared ffs c m₀) (hw : raw.intfs[i]? = some w) :
  raw.intfNumber c i = some (byteAt m₀ (w.offset + 2))
  := by
  obtain ⟨hmem, htype⟩ := mem_all_of_intfs (List.mem_of_getElem? hw)
  unfold RawDescs.intfNumber
  rw [hw, Option.map_some, (hr.settled.written w hmem).number htype]

/-- The number of `intf_ctl`, if that of `intf_data` is the type of interface associations. -/
theorem RawDescs.Prepared.intfNumber_zero (hr : raw.Prepared ffs c m₀)
    (hnumber : raw.TypeNumbered c) :
  raw.intfNumber c 0 = some (byteAt m₀ (raw.intfAt 0 + 2))
  := by
  obtain ⟨data, hdata, -⟩ := Option.map_eq_some_iff.mp hnumber
  have hlt := (List.getElem?_eq_some_iff.mp hdata).1
  have hctl : raw.intfs[0]? = some raw.intfs[0] := List.getElem?_eq_getElem (by omega)
  rw [hr.intfNumber_eq hctl]
  unfold RawDescs.intfAt
  rw [hctl]
  rfl

namespace RawDescs.Overwritten

/-- The bytes of the descriptors ahead stay, from the third one on. -/
theorem keep_ahead (h : raw.Overwritten c m₀ us (v :: ws) m) (hr : raw.Prepared ffs c m₀)
    (hall : raw.all = us ++ v :: ws) (hw : w ∈ ws) (hp : w.offset + 2 ≤ p)
    (hsize : p = w.offset + 2 → w.size ≠ 6) :
  byteAt (raw.patchMem v.offset m) p = byteAt m p
  := by
  have hwall : w ∈ raw.all := by simp [hall, hw]
  have hlong := hr.long v (by simp [hall])
  have hbehind := hr.valid.behind_split hall hw
  apply byteAt_patchMem
  intro k hk heq
  have hbounds := patchFields_bounds hk
  obtain ⟨rfl, hv2⟩ : k = 4 ∧ v.size = 2 := by omega
  -- the length of the next descriptor is taken for the subtype
  have hsub := h.ahead v rfl (v.offset + 2) (Nat.le_refl _) fun _ => by omega
  have hoffset : w.offset = v.offset + 2 := by omega
  have hlength := hr.length_byte hwall
  rw [hoffset, ← hsub] at hlength
  rcases (four_mem_patchFields.mp hk).2 with hcall | hunion
  · rw [hcall] at hlength
    have hlongw := hr.long w hwall
    rw [← hlength] at hlongw
    revert hlongw
    decide
  · rw [hunion] at hlength
    apply hsize (by omega)
    exact hlength.symm

/-- The bytes of the descriptors that are patched stay. -/
theorem keep_behind (hr : raw.Prepared ffs c m₀) (hall : raw.all = us ++ v :: ws)
    (hi : i < us.length) (hw : raw.all[i]? = some w) (hj : j < w.size) :
  byteAt (raw.patchMem v.offset m) (w.offset + j) = byteAt m (w.offset + j)
  := by
  rw [hall, List.getElem?_append_left hi] at hw
  have hle := hr.valid.before_split hall (List.mem_of_getElem? hw)
  apply byteAt_patchMem
  intro k hk
  have hbounds := patchFields_bounds hk
  omega

/-- The numbers of the other interfaces stay. -/
theorem keep_interface (h : raw.Overwritten c m₀ us (v :: ws) m) (hr : raw.Prepared ffs c m₀)
    (hall : raw.all = us ++ v :: ws) (hw : w ∈ raw.all) (htype : raw.type w = usbDtInterface)
    (hne : w ≠ v) :
  ∀ k ∈ patchFields (byteAt m (v.offset + 1)) (byteAt m (v.offset + 2)),
    w.offset + 2 ≠ v.offset + k
  := by
  have hnine := hr.size_interface hw htype
  intro k hk heq
  have hbounds := patchFields_bounds hk
  have hwall := hw
  rw [hall] at hw
  rcases List.mem_append.mp hw with hw | hw
  · have hle := hr.valid.before_split hall hw
    omega
  rcases List.mem_cons.mp hw with rfl | hw
  · exact hne rfl
  · have hbehind := hr.valid.behind_split hall hw
    have hlong := hr.long v (by simp [hall])
    obtain ⟨rfl, hv2⟩ : k = 4 ∧ v.size = 2 := by omega
    have hsub := h.ahead v rfl (v.offset + 2) (Nat.le_refl _) fun _ => by omega
    have hoffset : w.offset = v.offset + 2 := by omega
    have hlength := hr.length_byte hwall
    rw [hoffset, ← hsub, hnine] at hlength
    rcases (four_mem_patchFields.mp hk).2 with hcall | hunion
    · rw [hcall] at hlength
      revert hlength
      decide
    · rw [hunion] at hlength
      revert hlength
      decide

/-- What is written into the fifth byte of a descriptor of three bytes. -/
theorem patched_four (h : raw.Overwritten c m₀ us (v :: ws) m) (hr : raw.Prepared ffs c m₀)
    (hall : raw.all = us ++ v :: ws) (hsize : v.size = 3)
    (hlt : v.offset + 4 < raw.bytes.length)
    (hneeds : (patchNeeds (byteAt m (v.offset + 1)) (byteAt m (v.offset + 2))).1
      ≤ raw.intfs.length)
    (hfour : 4 ∈ patchFields (byteAt m (v.offset + 1)) (byteAt m (v.offset + 2))) :
  ∃ data, raw.intfs[1]? = some data
    ∧ byteAt (raw.patchMem v.offset m) (v.offset + 4) = byteAt m₀ (data.offset + 2)
  := by
  obtain ⟨htype, hsub⟩ := four_mem_patchFields.mp hfour
  have href : (4, 1) ∈ interfaceRefs (byteAt m (v.offset + 1)) (byteAt m (v.offset + 2)) := by
    rw [htype]
    rcases hsub with hsub | hsub
    · rw [hsub]
      decide
    · rw [hsub]
      decide
  have hether : ¬IsEthernet (byteAt m (v.offset + 1)) (byteAt m (v.offset + 2)) := by
    rintro ⟨-, hether⟩
    rw [hether] at hsub
    revert hsub
    decide
  have hfound : ∀ r ∈ interfaceRefs (byteAt m (v.offset + 1)) (byteAt m (v.offset + 2)),
      ∃ w, raw.intfs[r.2]? = some w ∧ raw.intfAt r.2 = w.offset := by
    intro r hrefs
    have hltr : r.2 < raw.intfs.length := Nat.lt_of_lt_of_le (lt_patchNeeds hrefs) hneeds
    refine ⟨raw.intfs[r.2], List.getElem?_eq_getElem hltr, ?_⟩
    unfold RawDescs.intfAt
    rw [List.getElem?_eq_getElem hltr]
    rfl
  obtain ⟨data, hdata, hat⟩ := hfound _ href
  obtain ⟨hmem, hdataType⟩ := mem_all_of_intfs (List.mem_of_getElem? hdata)
  refine ⟨data, hdata, ?_⟩
  have hlength := h.length
  unfold RawDescs.patchMem
  rw [if_neg hether, foldl_patchRef_ref (nodup_interfaceRefs _ _) _ _ href, hat]
  · exact h.interface data hmem hdataType
  · intro r hrefs
    have hfields : r.1 ∈ patchFields (byteAt m (v.offset + 1)) (byteAt m (v.offset + 2)) :=
      mem_patchFields.mpr (.inr ⟨r, hrefs, rfl⟩)
    have hbounds := patchFields_bounds hfields
    omega
  · intro r hrefs r' hrefs'
    obtain ⟨w, hw, hatw⟩ := hfound r hrefs
    obtain ⟨hwmem, hwtype⟩ := mem_all_of_intfs (List.mem_of_getElem? hw)
    rw [hatw]
    apply h.keep_interface hr hall hwmem hwtype
    · rintro rfl
      have hnine := hr.size_interface hwmem hwtype
      omega
    · exact mem_patchFields.mpr (.inr ⟨r', hrefs', rfl⟩)

/-- The type of the next descriptor is written over with the number of `intf_data`, or stays. -/
theorem next_type (h : raw.Overwritten c m₀ us (v :: x :: ws) m) (hr : raw.Prepared ffs c m₀)
    (hall : raw.all = us ++ v :: x :: ws)
    (hneeds : (patchNeeds (byteAt m (v.offset + 1)) (byteAt m (v.offset + 2))).1
      ≤ raw.intfs.length) (hsix : x.size ≠ 6) (hfifteen : x.size ≠ 15) :
  if v.size = 3 ∧ 4 ∈ patchFields (byteAt m (v.offset + 1)) (byteAt m (v.offset + 2)) then
    ∃ data, raw.intfs[1]? = some data
      ∧ byteAt (raw.patchMem v.offset m) (x.offset + 1) = byteAt m₀ (data.offset + 2)
  else byteAt (raw.patchMem v.offset m) (x.offset + 1) = raw.type x
  := by
  have hx : x ∈ raw.all := by simp [hall]
  have hlong := hr.long v (by simp [hall])
  have hlongx := hr.long x hx
  have hnext := hr.valid.head_split hall
  have hend := (hr.valid.size_of_mem hx).2
  split
  · next hthree =>
      obtain ⟨hsize, hfour⟩ := hthree
      rw [show x.offset + 1 = v.offset + 4 by omega]
      apply h.patched_four hr hall hsize (by omega) hneeds hfour
  · next hthree =>
      have hkept : byteAt m (x.offset + 1) = raw.type x := by
        rw [h.ahead v rfl _ (by omega) fun _ => by omega]
        exact hr.settled.type x hx
      rw [← hkept]
      apply byteAt_patchMem
      intro k hk heq
      have hbounds := patchFields_bounds hk
      have hcases : v.size = 2 ∧ k = 3 ∨ v.size = 3 ∧ k = 4 := by omega
      rcases hcases with ⟨hsize, rfl⟩ | ⟨hsize, rfl⟩
      · -- the length of the next descriptor is taken for the subtype
        have hsub := h.ahead v rfl (v.offset + 2) (Nat.le_refl _) fun _ => by omega
        have hlength := hr.length_byte hx
        rw [show x.offset = v.offset + 2 by omega, ← hsub] at hlength
        rcases three_mem_patchFields hk with hunion | hether
        · rw [hunion] at hlength
          exact hsix hlength.symm
        · rw [hether] at hlength
          exact hfifteen hlength.symm
      · exact hthree ⟨hsize, hk⟩

/-- A descriptor that is not of an interface association is not taken for one, unless it is
struck. -/
theorem type_ne (h : raw.Overwritten c m₀ us (v :: ws) m) (hsix : v.size ≠ 6)
    (hfifteen : v.size ≠ 15) (htype : raw.type v ≠ usbDtInterfaceAssociation)
    (hnot : ¬(raw.TypeNumbered c ∧ raw.Struck us.length)) :
  byteAt m (v.offset + 1) ≠ usbDtInterfaceAssociation
  := by
  by_cases hnumber : raw.TypeNumbered c
  · rw [h.typed hnumber v rfl hsix hfifteen, if_neg fun hstruck => hnot ⟨hnumber, hstruck⟩]
    exact htype
  · exact h.other hnumber v rfl hsix hfifteen htype

/-- The third byte of a descriptor that is not taken for an interface association stays. -/
theorem third_kept (hne : byteAt m (v.offset + 1) ≠ usbDtInterfaceAssociation) :
  byteAt (raw.patchMem v.offset m) (v.offset + 2) = byteAt m (v.offset + 2)
  := by
  apply byteAt_patchMem
  intro k hk heq
  obtain rfl := Nat.add_left_cancel heq
  exact hne (two_mem_patchFields.mp hk)

/-- The third byte of a descriptor that is struck becomes the number of `intf_ctl`. -/
theorem third_struck (h : raw.Overwritten c m₀ us (v :: ws) m) (hr : raw.Prepared ffs c m₀)
    (hall : raw.all = us ++ v :: ws) (hnumber : raw.TypeNumbered c)
    (hstruck : raw.Struck us.length) (hsix : v.size ≠ 6) (hfifteen : v.size ≠ 15)
    (hsize : 2 < v.size)
    (hneeds : (patchNeeds (byteAt m (v.offset + 1)) (byteAt m (v.offset + 2))).1
      ≤ raw.intfs.length) :
  ∃ ctl, raw.intfs[0]? = some ctl
    ∧ byteAt (raw.patchMem v.offset m) (v.offset + 2) = byteAt m₀ (ctl.offset + 2)
  := by
  have htype := h.typed hnumber v rfl hsix hfifteen
  rw [if_pos hstruck] at htype
  rw [htype] at hneeds
  have hlt : 0 < raw.intfs.length := hneeds
  have hctl : raw.intfs[0]? = some raw.intfs[0] := List.getElem?_eq_getElem hlt
  obtain ⟨hmem, hctlType⟩ := mem_all_of_intfs (List.getElem_mem hlt)
  have hend := (hr.valid.size_of_mem (v := v) (by simp [hall])).2
  have hlength := h.length
  have hether : ¬IsEthernet usbDtInterfaceAssociation (byteAt m (v.offset + 2)) := by
    rintro ⟨hcs, -⟩
    revert hcs
    decide
  have hpatch : raw.patchMem v.offset m
      = m.set (v.offset + 2) (byteAt m (raw.intfs[0].offset + 2)) := by
    unfold RawDescs.patchMem
    rw [htype, if_neg hether]
    show m.set (v.offset + 2) (byteAt m (raw.intfAt 0 + 2)) = _
    unfold RawDescs.intfAt
    rw [hctl]
    rfl
  refine ⟨raw.intfs[0], hctl, ?_⟩
  rw [hpatch, byteAt_set_eq _ (by omega)]
  exact h.interface _ hmem hctlType

/-- The number of an interface that is patched stays, unless it is struck and not that of
`intf_ctl`. -/
theorem own_interface (h : raw.Overwritten c m₀ us (v :: ws) m) (hr : raw.Prepared ffs c m₀)
    (hall : raw.all = us ++ v :: ws)
    (hneeds : (patchNeeds (byteAt m (v.offset + 1)) (byteAt m (v.offset + 2))).1
      ≤ raw.intfs.length) (htype : raw.type v = usbDtInterface)
    (hsame : raw.TypeNumbered c → raw.Struck us.length →
      raw.intfs[0]?.map raw.number = some (raw.number v)) :
  byteAt (raw.patchMem v.offset m) (v.offset + 2) = byteAt m₀ (v.offset + 2)
  := by
  have hv : v ∈ raw.all := by simp [hall]
  have hnine := hr.size_interface hv htype
  by_cases hstruck : raw.TypeNumbered c ∧ raw.Struck us.length
  · obtain ⟨ctl, hctl, hbyte⟩ := h.third_struck hr hall hstruck.1 hstruck.2 (by omega) (by omega)
      (by omega) hneeds
    obtain ⟨hmem, hctlType⟩ := mem_all_of_intfs (List.mem_of_getElem? hctl)
    have hnumber := hsame hstruck.1 hstruck.2
    rw [hctl] at hnumber
    rw [hbyte, (hr.settled.written ctl hmem).number hctlType,
      (hr.settled.written v hv).number htype, Option.some.inj hnumber]
  · have hne := h.type_ne (by omega) (by omega) (by rw [htype]; decide) hstruck
    rw [third_kept hne]
    exact h.interface v hv htype

/-- The address of an endpoint that is patched stays, unless it is struck. -/
theorem own_endpoint (h : raw.Overwritten c m₀ us (v :: ws) m) (hr : raw.Prepared ffs c m₀)
    (hall : raw.all = us ++ v :: ws)
    (hneeds : (patchNeeds (byteAt m (v.offset + 1)) (byteAt m (v.offset + 2))).1
      ≤ raw.intfs.length) (ha : (descEndpoint raw.bytes v.offset).isSome) :
  byteAt (raw.patchMem v.offset m) (v.offset + 2)
    = if raw.TypeNumbered c ∧ raw.Struck us.length then byteAt m₀ (raw.intfAt 0 + 2)
      else byteAt m₀ (v.offset + 2)
  := by
  have hv : v ∈ raw.all := by simp [hall]
  obtain ⟨htype, hsize⟩ := hr.size_endpoint hv ha
  split
  · next hstruck =>
      obtain ⟨ctl, hctl, hbyte⟩ := h.third_struck hr hall hstruck.1 hstruck.2 (by omega)
        (by omega) (by omega) hneeds
      rw [hbyte]
      unfold RawDescs.intfAt
      rw [hctl]
      rfl
  · next hstruck =>
      have hne := h.type_ne (by omega) (by omega) (by rw [htype]; decide) hstruck
      rw [third_kept hne]
      exact h.ahead v rfl _ (Nat.le_refl _) fun _ => by omega

/-- A short class descriptor is taken for what it is unless it is struck, and then writes the type
of the next one. -/
theorem short_iff (h : raw.Overwritten c m₀ us (v :: ws) m) (hr : raw.Prepared ffs c m₀)
    (hall : raw.all = us ++ v :: ws) (hnumber : raw.TypeNumbered c) :
  (v.size = 3 ∧ 4 ∈ patchFields (byteAt m (v.offset + 1)) (byteAt m (v.offset + 2)))
    ↔ raw.ShortClass v ∧ ¬raw.Struck us.length
  := by
  have hv : v ∈ raw.all := by simp [hall]
  unfold RawDescs.ShortClass
  rw [and_assoc]
  apply and_congr_right
  intro hsize
  have htype := h.typed hnumber v rfl (by omega) (by omega)
  have hsub : byteAt m (v.offset + 2) = byteAt m₀ (v.offset + 2) :=
    h.ahead v rfl _ (Nat.le_refl _) fun _ => by omega
  rw [four_mem_patchFields, htype, hsub]
  by_cases hstruck : raw.Struck us.length
  · rw [if_pos hstruck]
    refine iff_of_false (fun hcs => absurd hcs.1 (by decide)) fun hno => hno.2 hstruck
  · rw [if_neg hstruck, and_iff_left hstruck]
    apply and_congr_right
    intro hcs
    rw [hr.settled.classes v hv hcs 2 (.inl rfl)]
    rfl

/-- A patch that is carried out, which breaks no number. -/
theorem step (h : raw.Overwritten c m₀ us (v :: ws) m) (hr : raw.Prepared ffs c m₀)
    (hall : raw.all = us ++ v :: ws)
    (hneeds : (patchNeeds (byteAt m (v.offset + 1)) (byteAt m (v.offset + 2))).1
      ≤ raw.intfs.length)
    (hsame : raw.TypeNumbered c → raw.Struck us.length → raw.type v = usbDtInterface →
      raw.intfs[0]?.map raw.number = some (raw.number v)) :
  raw.Overwritten c m₀ (us ++ [v]) ws (raw.patchMem v.offset m)
  := by
  have hv : v ∈ raw.all := by simp [hall]
  have hat : raw.all[us.length]? = some v := by simp [hall]
  have hlong := hr.long v hv
  have hlast {i : Nat} (hi : i < (us ++ [v]).length) : i < us.length ∨ i = us.length := by
    rw [List.length_append, List.length_singleton] at hi
    omega
  refine ⟨?_, ?_, ?_, ?_, ?_, ?_, ?_, ?_⟩
  · rw [← (patchMem_agree raw v.offset m).1]
    exact h.length
  · intro x hx p hp hsix
    obtain ⟨ws', rfl⟩ := List.head?_eq_some_iff.mp hx
    rw [h.keep_ahead hr hall List.mem_cons_self hp hsix]
    have hnext := hr.valid.head_split hall
    exact h.ahead v rfl p (by omega) fun _ => by omega
  · intro w hw j hj hlt
    rw [byteAt_patchMem, h.tail w hw j hj hlt]
    intro k hk heq
    have hbounds := patchFields_bounds hk
    rw [hall] at hw
    rcases List.mem_append.mp hw with hw | hw
    · have hle := hr.valid.before_split hall hw
      omega
    rcases List.mem_cons.mp hw with rfl | hw
    · omega
    · have hle := hr.valid.behind_split hall hw
      omega
  · intro w hw htype
    by_cases hwv : w = v
    · subst hwv
      exact h.own_interface hr hall hneeds htype fun hnumber hstruck => hsame hnumber hstruck htype
    · rw [byteAt_patchMem (h.keep_interface hr hall hw htype hwv)]
      exact h.interface w hw htype
  · intro i w hi hw ha
    rcases hlast hi with hi | rfl
    · have hsize := (hr.size_endpoint (List.mem_of_getElem? hw) ha).2
      rw [keep_behind hr hall hi hw (by omega)]
      exact h.endpoint i w hi hw ha
    · obtain rfl := Option.some.inj (hat.symm.trans hw)
      exact h.own_endpoint hr hall hneeds ha
  · intro hnumber i w hi hw hstruck htype
    rcases hlast hi with hi | rfl
    · exact h.spared hnumber i w hi hw hstruck htype
    · obtain rfl := Option.some.inj (hat.symm.trans hw)
      exact hsame hnumber hstruck htype
  · intro hnumber x hx hsix hfifteen
    obtain ⟨ws', rfl⟩ := List.head?_eq_some_iff.mp hx
    have hnext := h.next_type hr hall hneeds hsix hfifteen
    rw [List.length_append, List.length_singleton]
    by_cases hshort : raw.ShortClass v ∧ ¬raw.Struck us.length
    · rw [if_pos ((h.short_iff hr hall hnumber).mpr hshort)] at hnext
      obtain ⟨data, hdata, hbyte⟩ := hnext
      rw [if_pos ((RawDescs.struck_succ hat).mpr hshort), hbyte]
      exact Option.some.inj ((hr.intfNumber_eq hdata).symm.trans hnumber)
    · rw [if_neg fun hyes => hshort ((h.short_iff hr hall hnumber).mp hyes)] at hnext
      rw [if_neg fun hyes => hshort ((RawDescs.struck_succ hat).mp hyes), hnext]
  · intro hnumber x hx hsix hfifteen htype
    obtain ⟨ws', rfl⟩ := List.head?_eq_some_iff.mp hx
    have hnext := h.next_type hr hall hneeds hsix hfifteen
    split at hnext
    · obtain ⟨data, hdata, hbyte⟩ := hnext
      rw [hbyte]
      exact fun heq => hnumber ((hr.intfNumber_eq hdata).trans (congrArg some heq))
    · rw [hnext]
      exact htype

end RawDescs.Overwritten

/-- A number that is broken stays so. -/
theorem RawDescs.Broken.step (h : raw.Broken c m₀ us m) (hr : raw.Prepared ffs c m₀)
    (hall : raw.all = us ++ v :: ws) :
  raw.Broken c m₀ (us ++ [v]) (raw.patchMem v.offset m)
  := by
  obtain ⟨hnumber, i, w, hi, hw, hstruck, htype, hother, hbyte⟩ := h
  refine ⟨hnumber, i, w, ?_, hw, hstruck, htype, hother, ?_⟩
  · rw [List.length_append]
    omega
  · have hnine := hr.size_interface (List.mem_of_getElem? hw) htype
    rw [RawDescs.Overwritten.keep_behind hr hall hi hw (by omega), hbyte]

/-- A patch that is carried out. -/
theorem RawDescs.Prepared.patchStep (hr : raw.Prepared ffs c m₀) :
  raw.PatchStep fun us vs m => raw.Overwritten c m₀ us vs m ∨ raw.Broken c m₀ us m
  := by
  rintro us v ws m hall (h | h) hneeds
  case inr => exact .inr (h.step hr hall)
  by_cases hsame : raw.TypeNumbered c → raw.Struck us.length → raw.type v = usbDtInterface →
      raw.intfs[0]?.map raw.number = some (raw.number v)
  · exact .inl (h.step hr hall hneeds hsame)
  · push Not at hsame
    obtain ⟨hnumber, hstruck, htype, hother⟩ := hsame
    have hnine := hr.size_interface (w := v) (by simp [hall]) htype
    obtain ⟨ctl, hctl, hbyte⟩ := h.third_struck hr hall hnumber hstruck (by omega) (by omega)
      (by omega) hneeds
    refine .inr ⟨hnumber, us.length, v, by simp, by simp [hall], hstruck, htype, hother, ?_⟩
    rw [hbyte]
    unfold RawDescs.intfAt
    rw [hctl]
    rfl

/-- The memory when the patches begin. -/
theorem RawDescs.Prepared.overwritten (hr : raw.Prepared ffs c m₀) :
  raw.Overwritten c m₀ [] raw.all m₀
  := by
  refine ⟨hr.settled.length, fun _ _ _ _ _ => rfl, fun _ _ _ _ _ => rfl, fun _ _ _ => rfl, ?_, ?_,
    ?_, ?_⟩
  · exact fun i w hi => absurd hi (Nat.not_lt_zero i)
  · exact fun _ i w hi => absurd hi (Nat.not_lt_zero i)
  · intro _ v hv _ _
    rw [List.length_nil, if_neg RawDescs.not_struck_zero]
    exact hr.settled.type v (List.mem_of_mem_head? hv)
  · intro _ v hv _ _ htype
    rw [hr.settled.type v (List.mem_of_mem_head? hv)]
    exact htype

end Step

/-! ### The loops -/

/-- All loops. -/
theorem patchFunc_overwritten
    {raw : RawDescs} {ffs : FfsData} {c : UsbConfig} {u : Heap BindState}
    (hu : BeforePatches raw ffs u) (hr : raw.Prepared ffs c u.mem) :
  patchFunc.Meets u
    (fun _ t => raw.Overwritten c u.mem raw.all [] t.mem ∨ raw.Broken c u.mem raw.all t.mem)
    fun _ _ => True
  := hr.patchStep.func hu hr.settled (.inl hr.overwritten)

end Ffs
