import KhdfLinux.Usb.BindPasses
import KhdfLinux.Usb.OsWalk

/-!
# The pass over OS descriptors

At the end of a bind the OS descriptors are walked over again: compatibility ids and properties are
stored for the interfaces.  `ffsDoOsDescs_taken`: the pass takes each of them as the validation has,
and links each property once, if all properties have a name and data, and are counted.  A property
without a name or data is not linked, and the code of `memcpy_s` is taken for its length.
-/

namespace Ffs

open Bytes Exec Heap Walk

/-! ### What the pass is to do -/

/-- The extended property descriptors. -/
def propEntries (es : List OsEntry) : List OsEntry := es.filter fun e => e.type = .extProp

namespace RawDescs

variable (raw : RawDescs)

/-- The length of the name of a property. -/
def nameLength (e : OsEntry) : Nat := propNameLength raw.bytes e.offset

/-- The length of the data of a property. -/
def dataLength (e : OsEntry) : Nat := propDataLength raw.bytes e.offset

/-- What is to be linked of a property. -/
def prop (e : OsEntry) : ExtProp where
  interface := (byteAt raw.bytes e.h).toNat
  type := le32At raw.bytes (e.offset + 4)
  nameLen := raw.nameLength e * 2
  name := (raw.bytes.drop (e.offset + 10)).take (raw.nameLength e)
  dataLen :=
    if isUnicodeProp (le32At raw.bytes (e.offset + 4)) then raw.dataLength e * 2
    else raw.dataLength e
  data := (raw.bytes.drop (e.offset + 14 + raw.nameLength e)).take (raw.dataLength e)

/-- The call of the callback for an extended descriptor. -/
def osCall (e : OsEntry) : OsCall :=
  ⟨e.type, e.h, e.offset, raw.bytes.length - e.offset, e.size⟩

/-- The properties have a name and data. -/
def PropsFilled (interfaces : Nat) : Prop :=
  ∀ e ∈ propEntries (raw.entries interfaces), raw.nameLength e ≠ 0 ∧ raw.dataLength e ≠ 0

/-- There is room for the properties that are recorded. -/
structure PropsCounted (ffs : FfsData) : Prop where
  count : (propEntries (raw.entries ffs.interfacesCount)).length ≤ ffs.msOsDescsExtPropCount
  name : ((propEntries (raw.entries ffs.interfacesCount)).map raw.nameLength).sum
    ≤ ffs.msOsDescsExtPropNameLen
  data : ((propEntries (raw.entries ffs.interfacesCount)).map raw.dataLength).sum
    ≤ ffs.msOsDescsExtPropDataLen

end RawDescs

/-! ### One call -/

/-- The property at `data` has a name and data. -/
def PropFilled (m : Bytes) (data : Nat) : Prop :=
  propNameLength m data ≠ 0 ∧ propDataLength m data ≠ 0

instance (m : Bytes) (data : Nat) : Decidable (PropFilled m data) := by
  unfold PropFilled
  infer_instance

/-- What is linked of the property at `data`, in the feature at `h`. -/
def linkedProp (m : Bytes) (h data : Nat) : ExtProp where
  interface := (byteAt m h).toNat
  type := le32At m (data + 4) % 256
  nameLen := propNameLength m data * 2
  name := (m.drop (data + 10)).take (propNameLength m data)
  dataLen :=
    if isUnicodeProp (le32At m (data + 4) % 256) then propDataLength m data * 2
    else propDataLength m data
  data := (m.drop (data + 14 + propNameLength m data)).take (propDataLength m data)

/-- The property at `data`, in the feature at `h`, can be read, and there is room for it. -/
structure PropFits (s : Heap BindState) (h data : Nat) : Prop where
  header : h < s.mem.length
  interface : (byteAt s.mem h).toNat < s.priv.ffs.interfacesCount
  stop : data + 14 + propNameLength s.mem data + propDataLength s.mem data ≤ s.mem.length
  count : s.priv.extPropAvail < s.priv.ffs.msOsDescsExtPropCount
  name : s.priv.nameAvail + propNameLength s.mem data ≤ s.priv.ffs.msOsDescsExtPropNameLen
  data : s.priv.dataAvail + propDataLength s.mem data ≤ s.priv.ffs.msOsDescsExtPropDataLen

/-- A read of bytes that are not there stops. -/
theorem readBytes_stops {n p : Nat} {s : Heap BindState} (hn : n ≠ 0) (hp : ¬p + n ≤ s.mem.length) :
  (readBytes n p).run s = .error (.fault .outOfBounds) s
  := by
  induction n generalizing p with
  | zero => exact absurd rfl hn
  | succ n ih =>
      unfold readBytes
      rw [EStateM.run_bind]
      by_cases hlt : p < s.mem.length
      · rw [run_read8 hlt]
        dsimp only
        rw [EStateM.run_bind, ih (by omega) (by omega)]
      · rw [run_read8_of_le (Nat.le_of_not_lt hlt)]

section Reads

variable {α : Type} {s : Heap BindState} {Q : α → Heap BindState → Prop} {F : Prop} {p n : Nat}

/-- A step that stops only outside the bounds. -/
theorem meets_inside {β : Type} {x : BindExec β} {f : β → BindExec α} {P : Prop} {a : β}
    (hfits : F → P) (hok : P → x.run s = .ok a s)
    (hno : ¬P → x.run s = .error (.fault .outOfBounds) s)
    (h : P → (f a).Meets s Q fun e _ => e = .fault .outOfBounds ∧ ¬F) :
  (x >>= f).Meets s Q fun e _ => e = .fault .outOfBounds ∧ ¬F
  := by
  by_cases hp : P
  · exact meets_step (hok hp) (h hp)
  · apply meets_bind
    rw [meets_iff_of_error (hno hp)]
    exact ⟨rfl, mt hfits hp⟩

theorem meets_read8_toNat {f : Nat → BindExec α} (hfits : F → p < s.mem.length)
    (h : (f (byteAt s.mem p).toNat).Meets s Q fun e _ => e = .fault .outOfBounds ∧ ¬F) :
  (UInt8.toNat <$> read8 p >>= f).Meets s Q fun e _ => e = .fault .outOfBounds ∧ ¬F
  := by
  refine meets_inside hfits (fun hp => ?_) (fun hp => ?_) fun _ => h
  · rw [run_map, run_read8 hp]
  · rw [run_map, run_read8_of_le (Nat.le_of_not_lt hp)]

theorem meets_read16 {f : Nat → BindExec α} (hfits : F → p + 2 ≤ s.mem.length)
    (h : (f (le16At s.mem p)).Meets s Q fun e _ => e = .fault .outOfBounds ∧ ¬F) :
  (read16 p >>= f).Meets s Q fun e _ => e = .fault .outOfBounds ∧ ¬F
  := meets_inside hfits run_read16 (fun hp => if_neg hp) fun _ => h

theorem meets_read32 {f : Nat → BindExec α} (hfits : F → p + 4 ≤ s.mem.length)
    (h : (f (le32At s.mem p)).Meets s Q fun e _ => e = .fault .outOfBounds ∧ ¬F) :
  (read32 p >>= f).Meets s Q fun e _ => e = .fault .outOfBounds ∧ ¬F
  := meets_inside hfits run_read32 (fun hp => if_neg hp) fun _ => h

theorem meets_checkIndex {f : Unit → BindExec α} {size : Nat} (hfits : F → p < size)
    (h : p < size → (f ()).Meets s Q fun e _ => e = .fault .outOfBounds ∧ ¬F) :
  (checkIndex p size >>= f).Meets s Q fun e _ => e = .fault .outOfBounds ∧ ¬F
  := by
  refine meets_inside hfits (fun hp => run_checkIndex hp s) (fun hp => ?_) h
  rw [checkIndex, if_neg hp]
  rfl

theorem meets_readBytes {f : Bytes → BindExec α} (hn : n ≠ 0) (hfits : F → p + n ≤ s.mem.length)
    (h : (f ((s.mem.drop p).take n)).Meets s Q fun e _ => e = .fault .outOfBounds ∧ ¬F) :
  (readBytes n p >>= f).Meets s Q fun e _ => e = .fault .outOfBounds ∧ ¬F
  := meets_inside hfits run_readBytes (readBytes_stops hn) fun _ => h

end Reads

/-- What a call for a property does. -/
structure PropCalled (s : Heap BindState) (h data k : Nat) (t : Heap BindState) : Prop where
  mem : t.mem = s.mem
  ffs_eq : t.priv.ffs = s.priv.ffs
  calls : t.priv.osCalls = s.priv.osCalls
  count : s.priv.extPropAvail < s.priv.ffs.msOsDescsExtPropCount
  propAvail : t.priv.extPropAvail = s.priv.extPropAvail + 1
  nameAvail : t.priv.nameAvail = s.priv.nameAvail + propNameLength s.mem data
  dataAvail : t.priv.dataAvail = s.priv.dataAvail + propDataLength s.mem data
  filled : PropFilled s.mem data →
    k = u8 (propNameLength s.mem data + propDataLength s.mem data + 14)
      ∧ t.priv.extProps = s.priv.extProps ++ [linkedProp s.mem h data]
      ∧ t.priv.nameAvail ≤ s.priv.ffs.msOsDescsExtPropNameLen
      ∧ t.priv.dataAvail ≤ s.priv.ffs.msOsDescsExtPropDataLen
  empty : ¬PropFilled s.mem data → t.priv.extProps = s.priv.extProps

/-- A call for a property. -/
theorem ffsFuncBindDoOsDesc_extProp (h data len : Nat) (s : Heap BindState) :
  (ffsFuncBindDoOsDesc .extProp h data len).Meets s
    (fun k t => PropCalled s h data k t)
    fun e _ => e = .fault .outOfBounds ∧ ¬PropFits s h data
  := by
  unfold ffsFuncBindDoOsDesc
  refine meets_read8_toNat (fun hfits => hfits.header) (meets_step (run_look s) ?_)
  refine meets_checkIndex (fun hfits => hfits.interface) fun _ => ?_
  refine meets_step (run_update _ s) (meets_checkIndex (fun hfits => hfits.count) fun hcount => ?_)
  refine meets_step (run_update _ _) ?_
  refine meets_read32 (fun hfits => ?_) (meets_read16 (fun hfits => ?_) ?_)
  · have hstop := hfits.stop
    dsimp only
    omega
  · have hstop := hfits.stop
    dsimp only
    omega
  rw [show le16At s.mem (data + 8) = propNameLength s.mem data from rfl]
  refine meets_read32 (fun hfits => ?_) ?_
  · have hstop := hfits.stop
    dsimp only
    omega
  rw [show le32At s.mem (data + 10 + propNameLength s.mem data) = propDataLength s.mem data
    from rfl]
  refine meets_step (run_update _ _) ?_
  rw [memS_self]
  by_cases hdata : propDataLength s.mem data = 0
  · rw [if_pos hdata, if_pos (by decide)]
    refine meets_pure ⟨rfl, rfl, rfl, hcount, rfl, rfl, rfl, fun hfilled => ?_, fun _ => rfl⟩
    exact absurd hdata hfilled.2
  rw [if_neg hdata, if_neg (not_not.mpr rfl)]
  refine meets_checkIndex (fun hfits => ?_) fun hdataRoom => ?_
  · have hroom := hfits.data
    omega
  refine meets_readBytes hdata (fun hfits => ?_) ?_
  · have hstop := hfits.stop
    dsimp only
    omega
  rw [memS_self]
  by_cases hname : propNameLength s.mem data = 0
  · rw [if_pos hname, if_pos (by decide)]
    refine meets_pure ⟨rfl, rfl, rfl, hcount, rfl, rfl, rfl, fun hfilled => ?_, fun _ => rfl⟩
    exact absurd hname hfilled.1
  rw [if_neg hname, if_neg (not_not.mpr rfl)]
  refine meets_checkIndex (fun hfits => ?_) fun hnameRoom => ?_
  · have hroom := hfits.name
    omega
  refine meets_readBytes hname (fun hfits => ?_) ?_
  · have hstop := hfits.stop
    dsimp only
    omega
  refine meets_step (run_update _ _) (meets_pure ⟨rfl, rfl, rfl, hcount, rfl, rfl, rfl,
    fun _ => ⟨?_, rfl, ?_, ?_⟩, fun hempty => absurd ⟨hname, hdata⟩ hempty⟩)
  · rfl
  · show s.priv.nameAvail + _ ≤ _
    omega
  · show s.priv.dataAvail + _ ≤ _
    omega

/-! ### The calls that are noted -/

/-- The calls for properties. -/
def propCalls (calls : List OsCall) : List OsCall := calls.filter fun call => call.type = .extProp

theorem propCalls_concat_prop {calls : List OsCall} {call : OsCall} (h : call.type = .extProp) :
  propCalls (calls ++ [call]) = propCalls calls ++ [call]
  := by
  simp [propCalls, h]

theorem propCalls_concat_other {calls : List OsCall} {call : OsCall} (h : call.type ≠ .extProp) :
  propCalls (calls ++ [call]) = propCalls calls
  := by
  simp [propCalls, h]

/-- What the pass has stored for the calls `calls`, in whatever places they were.  The memory is
`m`. -/
structure OsNoted (ffs : FfsData) (m : Bytes) (calls : List OsCall) (t : Heap BindState) : Prop
    where
  mem : t.mem = m
  ffs_eq : t.priv.ffs = ffs
  osCalls : t.priv.osCalls = calls
  propAvail : t.priv.extPropAvail = (propCalls calls).length
  nameAvail : t.priv.nameAvail
    = ((propCalls calls).map fun call => propNameLength m call.data).sum
  dataAvail : t.priv.dataAvail
    = ((propCalls calls).map fun call => propDataLength m call.data).sum
  props : t.priv.extProps = ((propCalls calls).filter fun call => PropFilled m call.data).map
    fun call => linkedProp m call.h call.data
  count : (propCalls calls).length ≤ ffs.msOsDescsExtPropCount
  room : (∀ call ∈ propCalls calls, PropFilled m call.data) →
    t.priv.nameAvail ≤ ffs.msOsDescsExtPropNameLen ∧ t.priv.dataAvail ≤ ffs.msOsDescsExtPropDataLen

/-- The descriptor at `data`, in the feature at `h`, can be read, and there is room for what is
stored of it. -/
def CallFits (s : Heap BindState) (h data : Nat) : OsDescType → Prop
  | .extCompat =>
      data + 18 ≤ s.mem.length ∧ (byteAt s.mem data).toNat < s.priv.ffs.interfacesCount
  | .extProp => PropFits s h data

section Noted

variable {ffs : FfsData} {m : Bytes} {calls : List OsCall} {t : Heap BindState} {h data len k : Nat}

/-- A call for a compatibility descriptor. -/
theorem OsNoted.compat (ht : OsNoted ffs m calls t) :
  (noteOsCalls ffsFuncBindDoOsDesc .extCompat h data len).Meets t
    (fun k t' => k = usbExtCompatDescSize
      ∧ OsNoted ffs m (calls ++ [⟨.extCompat, h, data, len, k⟩]) t')
    (fun e _ => e = .fault .outOfBounds ∧ ¬CallFits t h data .extCompat)
  := by
  unfold noteOsCalls ffsFuncBindDoOsDesc
  refine meets_bind ?_
  refine meets_read8_toNat (fun hfits => ?_) (meets_step (run_look t) ?_)
  · have hstop := hfits.1
    omega
  refine meets_checkIndex (fun hfits => hfits.2) fun _ => meets_step (run_update _ t) ?_
  refine meets_readBytes (by decide) (fun hfits => ?_) (meets_step (run_update _ _) (meets_pure ?_))
  · have hstop := hfits.1
    dsimp only
    omega
  refine meets_step (run_update _ _) (meets_pure ⟨rfl, ?_⟩)
  have hother : propCalls (calls ++ [⟨.extCompat, h, data, len, usbExtCompatDescSize⟩])
      = propCalls calls := propCalls_concat_other (by simp)
  refine ⟨ht.mem, ht.ffs_eq, congrArg (· ++ _) ht.osCalls, ?_, ?_, ?_, ?_, ?_, ?_⟩
  all_goals rw [hother]
  · exact ht.propAvail
  · exact ht.nameAvail
  · exact ht.dataAvail
  · exact ht.props
  · exact ht.count
  · exact ht.room

/-- A call for a property. -/
theorem OsNoted.prop (ht : OsNoted ffs m calls t) :
  (noteOsCalls ffsFuncBindDoOsDesc .extProp h data len).Meets t
    (fun k t' => (PropFilled m data →
        k = u8 (propNameLength m data + propDataLength m data + 14))
      ∧ OsNoted ffs m (calls ++ [⟨.extProp, h, data, len, k⟩]) t')
    (fun e _ => e = .fault .outOfBounds ∧ ¬CallFits t h data .extProp)
  := by
  unfold noteOsCalls
  refine meets_bind ((ffsFuncBindDoOsDesc_extProp h data len t).mono ?_ fun _ _ he => he)
  intro k s hs
  have hmem : s.mem = m := hs.mem.trans ht.mem
  have hone : propCalls (calls ++ [⟨.extProp, h, data, len, k⟩])
      = propCalls calls ++ [⟨.extProp, h, data, len, k⟩] := propCalls_concat_prop rfl
  have hfilled := hs.filled
  have hempty := hs.empty
  have hcount := hs.count
  have hname := hs.nameAvail
  have hdata := hs.dataAvail
  rw [ht.mem] at hfilled hempty hname hdata
  rw [ht.ffs_eq] at hfilled hcount
  rw [ht.propAvail] at hcount
  refine meets_step (run_update _ s) (meets_pure ⟨fun hf => (hfilled hf).1, ?_⟩)
  refine ⟨hmem, hs.ffs_eq.trans ht.ffs_eq, ?_, ?_, ?_, ?_, ?_, ?_, ?_⟩
  · exact congrArg (· ++ _) (hs.calls.trans ht.osCalls)
  all_goals rw [hone]
  · rw [List.length_append, List.length_singleton, ← ht.propAvail]
    exact hs.propAvail
  · rw [List.map_append, List.sum_append, List.map_singleton, List.sum_singleton, ← ht.nameAvail]
    exact hname
  · rw [List.map_append, List.sum_append, List.map_singleton, List.sum_singleton, ← ht.dataAvail]
    exact hdata
  · rw [List.filter_append, List.map_append, ← ht.props]
    by_cases hf : PropFilled m data
    · simpa [hf] using (hfilled hf).2.1
    · simpa [hf] using hempty hf
  · rw [List.length_append, List.length_singleton]
    exact hcount
  · intro hall
    exact (hfilled (hall _ (List.mem_append_right _ (List.mem_singleton_self _)))).2.2

end Noted

/-! ### The pass over a blob that was accepted -/

section Entry

variable {raw : RawDescs} {ffs : FfsData} {m : Bytes} {e : OsEntry} {t : Heap BindState}

/-- What is known of a property. -/
structure RawDescs.GoodProp (raw : RawDescs) (interfaces : Nat) (e : OsEntry) : Prop where
  interface : (byteAt raw.bytes e.h).toNat < interfaces
  type : usbExtPropUnicode ≤ le32At raw.bytes (e.offset + 4)
    ∧ le32At raw.bytes (e.offset + 4) ≤ usbExtPropUnicodeMulti
  size : e.size = 14 + raw.nameLength e + raw.dataLength e
  small : e.size < 256
  stop : e.offset + e.size ≤ raw.bytes.length

theorem RawDescs.Valid.goodProp (hraw : raw.Valid ffs)
    (he : e ∈ raw.entries ffs.interfacesCount) (htype : e.type = .extProp) :
  raw.GoodProp ffs.interfacesCount e
  := by
  obtain ⟨-, -, hsize⟩ := hraw.mem_entries he
  have hle := osEntrySize_le hsize
  rw [htype] at hsize
  change propSize raw.bytes _ e.h e.offset _ = _ at hsize
  unfold propSize at hsize
  split_ifs at hsize with hcond
  obtain ⟨-, hinterface, -, hlow, hhigh, hsum⟩ := hcond
  have hk := Option.some.inj hsize
  exact ⟨hinterface, ⟨hlow, hhigh⟩, hk ▸ hsum, hk ▸ u8_lt _, by omega⟩

theorem RawDescs.Valid.goodCompat (hraw : raw.Valid ffs)
    (he : e ∈ raw.entries ffs.interfacesCount) (htype : e.type = .extCompat) :
  (byteAt raw.bytes e.offset).toNat < ffs.interfacesCount ∧ e.size = usbExtCompatDescSize
    ∧ e.offset + e.size ≤ raw.bytes.length
  := by
  obtain ⟨-, -, hsize⟩ := hraw.mem_entries he
  have hle := osEntrySize_le hsize
  rw [htype] at hsize
  change compatSize raw.bytes _ e.offset _ = _ at hsize
  unfold compatSize at hsize
  split_ifs at hsize with hcond
  have hk := Option.some.inj hsize
  exact ⟨hcond.2.1, hk.symm, by omega⟩

/-- The fields of a property are those of the blob. -/
theorem RawDescs.OsCopied.prop_eq (hm : raw.OsCopied ffs.interfacesCount m) (hraw : raw.Valid ffs)
    (he : e ∈ raw.entries ffs.interfacesCount) (htype : e.type = .extProp) :
  propNameLength m e.offset = raw.nameLength e ∧ propDataLength m e.offset = raw.dataLength e
    ∧ linkedProp m e.h e.offset = raw.prop e
  := by
  have hgood := hraw.goodProp he htype
  have hsum := hgood.size
  have hbyte : ∀ j, j < e.size → byteAt m (e.offset + j) = byteAt raw.bytes (e.offset + j) :=
    fun j hj => hm.entry hraw he hj fun hc => absurd (hc.symm.trans htype) (by decide)
  have hfar : ∀ i j, i + j < e.size →
      byteAt m (e.offset + i + j) = byteAt raw.bytes (e.offset + i + j) := by
    intro i j hj
    rw [Nat.add_assoc]
    exact hbyte (i + j) hj
  have hname : propNameLength m e.offset = raw.nameLength e :=
    le16At_of_same fun j hj => hfar 8 j (by omega)
  have hdata : propDataLength m e.offset = raw.dataLength e := by
    unfold propDataLength
    rw [hname, Nat.add_assoc]
    refine (le32At_of_same fun j hj => hfar (10 + raw.nameLength e) j (by omega)).trans ?_
    rw [← Nat.add_assoc]
    rfl
  have htypeWord : le32At m (e.offset + 4) = le32At raw.bytes (e.offset + 4) :=
    le32At_of_same fun j hj => hfar 4 j (by omega)
  have hsmall : le32At raw.bytes (e.offset + 4) % 256 = le32At raw.bytes (e.offset + 4) := by
    have hhigh := hgood.type.2
    simp only [usbExtPropUnicodeMulti] at hhigh
    omega
  have hheader : byteAt m e.h = byteAt raw.bytes e.h := by
    obtain ⟨v, hv, hh, -⟩ := hraw.exists_feature he
    rw [hh]
    exact hm.header hraw hv (j := 0) (by decide)
  have hlength := hm.length
  have hstop := hgood.stop
  refine ⟨hname, hdata, ?_⟩
  unfold linkedProp RawDescs.prop
  rw [hname, hdata, htypeWord, hsmall, hheader]
  congr 1
  · apply take_drop_congr (by omega) (by omega)
    intro p hp hlt
    obtain ⟨j, rfl⟩ := Nat.exists_eq_add_of_le hp
    exact hfar 10 j (by omega)
  · apply take_drop_congr (by omega) (by omega)
    intro p hp hlt
    obtain ⟨j, rfl⟩ := Nat.exists_eq_add_of_le hp
    rw [Nat.add_assoc e.offset]
    exact hfar (14 + raw.nameLength e) j (by omega)

end Entry

section Pass

variable {raw : RawDescs} {ffs : FfsData} {m : Bytes} {es ws : List OsEntry} {e : OsEntry}
  {t : Heap BindState}

theorem propCalls_map :
  propCalls (es.map raw.osCall) = (propEntries es).map raw.osCall
  := by
  unfold propCalls propEntries
  rw [List.filter_map]
  rfl

theorem mem_propEntries :
  e ∈ propEntries es ↔ e ∈ es ∧ e.type = .extProp
  := by
  simp [propEntries]

/-- The sums over calls for properties. -/
theorem sum_propCalls
    (es : List OsEntry) (hm : raw.OsCopied ffs.interfacesCount m) (hraw : raw.Valid ffs)
    (hes : ∀ e ∈ es, e ∈ raw.entries ffs.interfacesCount) :
  ((propCalls (es.map raw.osCall)).map fun call => propNameLength m call.data).sum
      = ((propEntries es).map raw.nameLength).sum
    ∧ ((propCalls (es.map raw.osCall)).map fun call => propDataLength m call.data).sum
      = ((propEntries es).map raw.dataLength).sum
  := by
  rw [propCalls_map, List.map_map, List.map_map]
  constructor
  · congr 1
    apply List.map_congr_left
    intro e he
    obtain ⟨he, htype⟩ := mem_propEntries.mp he
    exact (hm.prop_eq hraw (hes e he) htype).1
  · congr 1
    apply List.map_congr_left
    intro e he
    obtain ⟨he, htype⟩ := mem_propEntries.mp he
    exact (hm.prop_eq hraw (hes e he) htype).2.1

/-- What comes first takes no more room than all. -/
theorem sum_le_of_append (f : OsEntry → Nat) (us : List OsEntry) (e : OsEntry) (ws : List OsEntry)
    (h : e.type = .extProp) :
  ((propEntries us).map f).sum + f e ≤ ((propEntries (us ++ e :: ws)).map f).sum
  := by
  simp [propEntries, h]

/-- A descriptor can be read, and there is room for what is stored of it. -/
theorem OsNoted.fits (h : OsNoted ffs m (es.map raw.osCall) t)
    (hm : raw.OsCopied ffs.interfacesCount m) (hraw : raw.Valid ffs)
    (hcounted : raw.PropsCounted ffs) (hall : raw.entries ffs.interfacesCount = es ++ e :: ws) :
  CallFits t e.h e.offset e.type
  := by
  have he : e ∈ raw.entries ffs.interfacesCount := by simp [hall]
  have hlength := hm.length
  cases htype : e.type with
  | extCompat =>
      obtain ⟨hinterface, hsize, hstop⟩ := hraw.goodCompat he htype
      have h24 : usbExtCompatDescSize = 24 := rfl
      have hbyte : byteAt m e.offset = byteAt raw.bytes e.offset :=
        hm.entry hraw he (j := 0) (by omega) fun _ => by decide
      refine ⟨?_, ?_⟩
      · rw [h.mem]
        omega
      · rw [h.mem, h.ffs_eq, hbyte]
        exact hinterface
  | extProp =>
      have hgood := hraw.goodProp he htype
      obtain ⟨hname, hdata, hlinked⟩ := hm.prop_eq hraw he htype
      obtain ⟨hnames, hdatas⟩ := sum_propCalls es hm hraw fun e' he' => by simp [hall, he']
      have hcount := hcounted.count
      have hnameRoom := hcounted.name
      have hdataRoom := hcounted.data
      have hnameSum := sum_le_of_append raw.nameLength es e ws htype
      have hdataSum := sum_le_of_append raw.dataLength es e ws htype
      rw [← hall] at hnameSum hdataSum
      obtain ⟨-, hstop⟩ := osEntrySize_le (hraw.mem_entries he).2.2
      have hsum := hgood.size
      have hoffset := (hraw.mem_entries he).2.1
      refine ⟨?_, ?_, ?_, ?_, ?_, ?_⟩
      · rw [h.mem]
        omega
      · have hh : byteAt m e.h = byteAt raw.bytes e.h := by
          obtain ⟨v, hv, hh, -⟩ := hraw.exists_feature he
          rw [hh]
          exact hm.header hraw hv (j := 0) (by decide)
        rw [h.mem, h.ffs_eq, hh]
        exact hgood.interface
      · rw [h.mem, hname, hdata]
        omega
      · rw [h.propAvail, h.ffs_eq, propCalls_map, List.length_map]
        rw [hall, propEntries, List.filter_append, List.length_append,
          List.filter_cons_of_pos (by simpa using htype), List.length_cons] at hcount
        unfold propEntries
        omega
      · rw [h.nameAvail, h.mem, h.ffs_eq, hnames, hname]
        omega
      · rw [h.dataAvail, h.mem, h.ffs_eq, hdatas, hdata]
        omega

/-- The walk over the OS descriptors takes all of them, if the properties have names and data; it is
stopped only where there is no room for them. -/
theorem ffsDoOsDescs_taken (ht : OsNoted ffs m [] t) (hm : raw.OsCopied ffs.interfacesCount m)
    (hraw : raw.Valid ffs) (hfilled : raw.PropsFilled ffs.interfacesCount) :
  (ffsDoOsDescs ffs.msOsDescsCount raw.osAt (raw.bytes.length - raw.osAt)
      (noteOsCalls ffsFuncBindDoOsDesc)).Meets t
    (fun k u => k = total raw.features
      ∧ OsNoted ffs m ((raw.entries ffs.interfacesCount).map raw.osCall) u)
    fun e _ => e = .fault .outOfBounds ∧ ¬raw.PropsCounted ffs
  := by
  refine ffsDoOsDescs_entries (fun es u => OsNoted ffs m (es.map raw.osCall) u)
    (hraw.stop_le .full).2 hraw.features hraw.small ?_ ?_ ht
  · intro es u hu
    rw [hu.mem]
    exact ⟨hm.length, fun v hv j hj => hm.header hraw hv hj⟩
  · intro us e ws u hall hu
    have he : e ∈ raw.entries ffs.interfacesCount := by
      rw [show raw.entries ffs.interfacesCount = us ++ e :: ws from hall]
      simp
    have hfits : raw.PropsCounted ffs → CallFits u e.h e.offset e.type := fun hcounted =>
      hu.fits hm hraw hcounted hall
    rw [List.map_append, List.map_singleton]
    cases htype : e.type with
    | extCompat =>
        rw [htype] at hfits
        have hsize := (hraw.goodCompat he htype).2.1
        refine hu.compat.mono ?_ fun _ _ ⟨he, hno⟩ => ⟨he, mt hfits hno⟩
        rintro _ w ⟨rfl, hw⟩
        refine ⟨hsize.symm, ?_⟩
        rw [RawDescs.osCall, htype, hsize]
        exact hw
    | extProp =>
        rw [htype] at hfits
        have hgood := hraw.goodProp he htype
        obtain ⟨hname, hdata, -⟩ := hm.prop_eq hraw he htype
        have hne := hfilled e (mem_propEntries.mpr ⟨he, htype⟩)
        refine hu.prop.mono ?_ fun _ _ ⟨he, hno⟩ => ⟨he, mt hfits hno⟩
        rintro k w ⟨hk, hw⟩
        have hsize : k = e.size := by
          rw [hk ⟨hname ▸ hne.1, hdata ▸ hne.2⟩, hname, hdata]
          have hsum := hgood.size
          have hsmall := hgood.small
          unfold u8
          omega
        rw [hsize] at hw
        refine ⟨hsize, ?_⟩
        rw [RawDescs.osCall, htype]
        exact hw

/-- What any walk over OS descriptors has stored. -/
theorem ffsDoOsDescs_noted (count data len : Nat) (ht : OsNoted ffs m [] t) :
  (ffsDoOsDescs count data len (noteOsCalls ffsFuncBindDoOsDesc)).Meets t
    (fun _ u => OsNoted ffs m u.priv.osCalls u) fun _ _ => True
  := by
  have hstart : OsNoted ffs m t.priv.osCalls t := by
    rw [ht.osCalls]
    exact ht
  refine ffsDoOsDescs_preserves (P := fun u => OsNoted ffs m u.priv.osCalls u) ?_ count data len
    hstart
  intro type header data len u hu
  cases type with
  | extCompat =>
      refine hu.compat.mono ?_ fun _ _ _ => trivial
      rintro k w ⟨-, hw⟩
      exact hw.osCalls ▸ hw
  | extProp =>
      refine hu.prop.mono ?_ fun _ _ _ => trivial
      rintro k w ⟨-, hw⟩
      exact hw.osCalls ▸ hw

/-- If each descriptor was handed to the callback, the properties are linked exactly if they have
names and data. -/
theorem OsNoted.linked_iff
    (h : OsNoted ffs m ((raw.entries ffs.interfacesCount).map raw.osCall) t)
    (hm : raw.OsCopied ffs.interfacesCount m) (hraw : raw.Valid ffs) :
  t.priv.extProps = (propEntries (raw.entries ffs.interfacesCount)).map raw.prop
    ↔ raw.PropsFilled ffs.interfacesCount
  := by
  have hfields : ∀ e ∈ propEntries (raw.entries ffs.interfacesCount),
      (PropFilled m (raw.osCall e).data ↔ raw.nameLength e ≠ 0 ∧ raw.dataLength e ≠ 0)
        ∧ linkedProp m (raw.osCall e).h (raw.osCall e).data = raw.prop e := by
    intro e he
    obtain ⟨he, htype⟩ := mem_propEntries.mp he
    obtain ⟨hname, hdata, hprop⟩ := hm.prop_eq hraw he htype
    refine ⟨?_, hprop⟩
    unfold PropFilled
    rw [show (raw.osCall e).data = e.offset from rfl, hname, hdata]
  rw [h.props, propCalls_map]
  constructor
  · intro heq e he
    have hlength := congrArg List.length heq
    rw [List.length_map, List.length_map, ← List.length_map (f := raw.osCall),
      List.length_filter_eq_length_iff] at hlength
    have hfilled := hlength _ (List.mem_map_of_mem he)
    exact (hfields e he).1.mp (of_decide_eq_true hfilled)
  · intro hfilled
    rw [List.filter_eq_self.mpr, List.map_map]
    · exact List.map_congr_left fun e he => (hfields e he).2
    · intro call hcall
      obtain ⟨e, he, rfl⟩ := List.mem_map.mp hcall
      exact decide_eq_true ((hfields e he).1.mpr (hfilled e he))

/-- The properties that were handed to the callback have names and data, if those of the blob
have. -/
theorem RawDescs.OsCopied.filled_calls (hm : raw.OsCopied ffs.interfacesCount m)
    (hraw : raw.Valid ffs) (hfilled : raw.PropsFilled ffs.interfacesCount) :
  ∀ call ∈ propCalls ((raw.entries ffs.interfacesCount).map raw.osCall), PropFilled m call.data
  := by
  intro call hcall
  rw [propCalls_map] at hcall
  obtain ⟨e, he, rfl⟩ := List.mem_map.mp hcall
  obtain ⟨hmem, htype⟩ := mem_propEntries.mp he
  obtain ⟨hname, hdata, -⟩ := hm.prop_eq hraw hmem htype
  unfold PropFilled
  rw [show (raw.osCall e).data = e.offset from rfl, hname, hdata]
  exact hfilled e he

/-- If each descriptor was handed to the callback, there was room for the properties. -/
theorem OsNoted.counted
    (h : OsNoted ffs m ((raw.entries ffs.interfacesCount).map raw.osCall) t)
    (hm : raw.OsCopied ffs.interfacesCount m) (hraw : raw.Valid ffs)
    (hfilled : raw.PropsFilled ffs.interfacesCount) :
  raw.PropsCounted ffs
  := by
  obtain ⟨hnames, hdatas⟩ := sum_propCalls _ hm hraw fun _ he => he
  obtain ⟨hname, hdata⟩ := h.room (hm.filled_calls hraw hfilled)
  rw [h.nameAvail, hnames] at hname
  rw [h.dataAvail, hdatas] at hdata
  have hcount := h.count
  rw [propCalls_map, List.length_map] at hcount
  exact ⟨hcount, hname, hdata⟩

end Pass

end Ffs
