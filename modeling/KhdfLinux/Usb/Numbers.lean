import KhdfLinux.Lib.Numbering
import KhdfLinux.Usb.Patches

/-!
# The numbers of interfaces and strings

What the walk that numbers interfaces writes: each interface gets the number that was given to its
original number, in the order in which the original numbers appear, and each string its id.
-/

namespace Ffs

open Bytes Exec Heap Walk Numbering

/-! ### What is given -/

namespace RawDescs

/-- The number an interface has in the blob. -/
def number (raw : RawDescs) (v : Visit) : UInt8 := byteAt raw.bytes (v.offset + 2)

/-- The numbers of the interfaces among the descriptors. -/
def numbers (raw : RawDescs) (vs : List Visit) : List UInt8 :=
  (vs.filter fun v => raw.type v = usbDtInterface).map raw.number

theorem numbers_concat_interface {raw : RawDescs} {vs : List Visit} {v : Visit}
    (h : raw.type v = usbDtInterface) :
  raw.numbers (vs ++ [v]) = raw.numbers vs ++ [raw.number v]
  := by
  simp [numbers, h]

theorem numbers_concat_other {raw : RawDescs} {vs : List Visit} {v : Visit}
    (h : raw.type v ≠ usbDtInterface) :
  raw.numbers (vs ++ [v]) = raw.numbers vs
  := by
  simp [numbers, h]

theorem number_mem_numbers {raw : RawDescs} {vs : List Visit} {v : Visit} (hv : v ∈ vs)
    (h : raw.type v = usbDtInterface) :
  raw.number v ∈ raw.numbers vs
  := List.mem_map_of_mem (List.mem_filter.mpr ⟨hv, by simp [h]⟩)

end RawDescs

namespace UsbConfig

/-- The entry of the table of interface numbers, after the numbers given. -/
def entry (c : UsbConfig) (keys : List UInt8) (n : UInt8) : Int :=
  (numberOf c.interfaceId keys n).getD (-1)

/-- The byte that is written for an interface number. -/
def newNumber (c : UsbConfig) (keys : List UInt8) (n : UInt8) : UInt8 :=
  UInt8.ofNat (u8 (c.entry keys n))

/-- The byte that is written for a string. -/
def newString (c : UsbConfig) (i : UInt8) : UInt8 := if i = 0 then 0 else c.stringId (i.toNat - 1)

theorem entry_append {c : UsbConfig} {keys more : List UInt8} {n : UInt8} (h : n ∈ keys) :
  c.entry (keys ++ more) n = c.entry keys n
  := congrArg (Option.getD · (-1)) (numberOf_append h)

end UsbConfig

/-- The table of interface numbers after the numbers given. -/
structure BindState.Gave (c : UsbConfig) (keys : List UInt8) (func : BindState) : Prop where
  ids : func.ids = (firsts keys).length
  nums : ∀ n : UInt8, func.interfacesNums n.toNat = c.entry keys n
  given : ∀ k, k < (firsts keys).length → 0 ≤ c.interfaceId k

namespace BindState.Gave

variable {c : UsbConfig} {keys : List UInt8} {func : BindState} {n : UInt8}

/-- A number that has an entry has one that is not negative. -/
theorem entry_nonneg (h : func.Gave c keys) (hn : n ∈ keys) :
  0 ≤ c.entry keys n
  := by
  have hlt := List.idxOf_lt_length_of_mem (mem_firsts.mpr hn)
  unfold UsbConfig.entry numberOf
  rw [if_pos hn]
  apply h.given _ hlt

theorem entry_of_notMem (hn : n ∉ keys) :
  c.entry keys n = -1
  := by
  unfold UsbConfig.entry numberOf
  rw [if_neg hn]
  rfl

/-- A number that has an entry comes again. -/
theorem again (h : func.Gave c keys) (hn : n ∈ keys) :
  func.Gave c (keys ++ [n])
  := by
  have hfirsts := firsts_concat_of_mem hn
  refine ⟨hfirsts ▸ h.ids, fun m => ?_, hfirsts ▸ h.given⟩
  rw [h.nums m]
  by_cases hm : m = n
  · rw [hm, UsbConfig.entry_append hn]
  · unfold UsbConfig.entry
    rw [numberOf_concat_of_ne hm]

/-- A number gets an entry. -/
theorem next (h : func.Gave c keys) (hn : n ∉ keys) (hid : 0 ≤ c.interfaceId func.ids) :
  BindState.Gave c (keys ++ [n])
    { func with
      ids := func.ids + 1
      interfacesNums := Function.update func.interfacesNums n.toNat (c.interfaceId func.ids) }
  := by
  have hfirsts := firsts_concat_of_notMem hn
  refine ⟨?_, fun m => ?_, fun k hk => ?_⟩
  · simp [hfirsts, h.ids]
  · by_cases hm : m = n
    · subst hm
      dsimp only
      rw [Function.update_self, h.ids, UsbConfig.entry, numberOf_concat_self hn]
      rfl
    · have hne : m.toNat ≠ n.toNat := mt UInt8.toNat_inj.mp hm
      dsimp only
      rw [Function.update_of_ne hne, h.nums m, UsbConfig.entry, UsbConfig.entry,
        numberOf_concat_of_ne hm]
  · rw [hfirsts, List.length_append, List.length_singleton] at hk
    by_cases hlast : k = (firsts keys).length
    · rw [hlast, ← h.ids]
      apply hid
    · apply h.given k (by omega)

end BindState.Gave

/-! ### The callback -/

section Callback

variable {c : UsbConfig} {keys : List UInt8} {valuep desc : Nat} {t : Heap BindState}

/-- An interface gets the number that is given to its original number. -/
theorem interfaceNum_numbers (hp : valuep < t.mem.length) (hg : t.priv.Gave c keys) :
  (ffsFuncBindDoNums c (.interface valuep desc)).Meets t
    (fun _ u => u.mem = t.mem.set valuep
        (c.newNumber (keys ++ [byteAt t.mem valuep]) (byteAt t.mem valuep))
      ∧ u.priv.Gave c (keys ++ [byteAt t.mem valuep]))
    (fun _ _ => True)
  := by
  unfold ffsFuncBindDoNums
  refine meets_step (by rw [run_map, run_read8 hp]) (meets_step (run_look t) ?_)
  by_cases hidx : (byteAt t.mem valuep).toNat < t.priv.ffs.interfacesCount
  case neg =>
    refine meets_bind ?_
    rw [checkIndex, if_neg hidx]
    exact meets_stop trivial
  refine meets_step (run_checkIndex hidx t) ?_
  rw [hg.nums]
  have hwrite : ∀ u : Heap BindState, u.mem = t.mem →
      u.priv.Gave c (keys ++ [byteAt t.mem valuep]) →
      (do
        let func ← look
        write8 valuep (UInt8.ofNat (u8 (func.interfacesNums (byteAt t.mem valuep).toNat))) :
          BindExec Unit).Meets u
        (fun _ w => w.mem = t.mem.set valuep
            (c.newNumber (keys ++ [byteAt t.mem valuep]) (byteAt t.mem valuep))
          ∧ w.priv.Gave c (keys ++ [byteAt t.mem valuep])) (fun _ _ => True) := by
    intro u hmem hu
    refine meets_step (run_look u) (meets_write8 (hmem ▸ hp) ⟨?_, hu⟩)
    rw [hu.nums, hmem]
    rfl
  by_cases hn : byteAt t.mem valuep ∈ keys
  · rw [if_neg (Int.not_lt.mpr (hg.entry_nonneg hn))]
    exact hwrite t rfl (hg.again hn)
  · rw [if_pos (by rw [BindState.Gave.entry_of_notMem hn]; decide)]
    refine meets_guard (fun _ => trivial) fun hid => ?_
    refine meets_step (run_update _ t) ?_
    exact hwrite _ rfl (hg.next hn (Int.not_lt.mp hid))

/-- A string gets its id. -/
theorem stringNum_run (hp : valuep < t.mem.length) (hne : byteAt t.mem valuep ≠ 0) :
  (ffsFuncBindDoNums c (.string valuep desc)).run t
    = .ok () ⟨t.mem.set valuep (c.newString (byteAt t.mem valuep)), t.priv⟩
  := by
  unfold ffsFuncBindDoNums UsbConfig.newString
  rw [if_neg hne, EStateM.run_bind, run_map, run_read8 hp]
  exact run_write8 _ hp

end Callback

theorem descClass_interface {type : UInt8} :
  descClass type = .interface ↔ type = usbDtInterface
  := by
  constructor
  · intro h
    unfold descClass at h
    split_ifs at h with h1 h2
    apply h2
  · rintro rfl
    rfl

theorem descClass_association {type : UInt8} :
  descClass type = .association ↔ type = usbDtInterfaceAssociation
  := by
  constructor
  · intro h
    unfold descClass at h
    split_ifs at h with h1 h2 h3 h4 h5 h6
    apply h6
  · rintro rfl
    rfl

/-! ### The walk -/

/-- The numbers of a descriptor, when the interface numbers given are those of `keys`. -/
structure RawDescs.Written (raw : RawDescs) (c : UsbConfig) (keys : List UInt8) (m : Bytes)
    (v : Visit) : Prop where
  number : raw.type v = usbDtInterface → byteAt m (v.offset + 2) = c.newNumber keys (raw.number v)
  string : raw.type v = usbDtInterface →
    byteAt m (v.offset + 8) = c.newString (byteAt raw.bytes (v.offset + 8))
  function : raw.type v = usbDtInterfaceAssociation →
    byteAt m (v.offset + 7) = c.newString (byteAt raw.bytes (v.offset + 7))

/-- The state after the walk has numbered the descriptors `us`. -/
structure Numbered (raw : RawDescs) (c : UsbConfig) (us : List Visit) (s t : Heap BindState) : Prop
    extends Renumbered (NumFields raw.bytes us) s t where
  gave : t.priv.Gave c (raw.numbers us)
  written : ∀ v ∈ us, raw.Written c (raw.numbers us) t.mem v

section Walk

variable {c : UsbConfig} {raw : RawDescs} {ffs : FfsData} {s t u : Heap BindState}
  {us ws : List Visit} {v : Visit}

/-- The entities of the next descriptor. -/
theorem report_numbers (hturn : NumberTurn raw v t) (hg : t.priv.Gave c (raw.numbers us))
    (hfresh : ∀ j, 2 ≤ j → j < v.size → NumField raw.bytes v.offset (v.offset + j) →
      byteAt t.mem (v.offset + j) = byteAt raw.bytes (v.offset + j)) :
  (report (ffsFuncBindDoNums c) (descEntities t.mem v.offset)).Meets t
    (fun _ u => u.priv.Gave c (raw.numbers (us ++ [v]))
      ∧ raw.Written c (raw.numbers (us ++ [v])) u.mem v)
    (fun _ _ => True)
  := by
  have hsize := hturn.size
  have hlength := hturn.length
  have htype : byteAt t.mem (v.offset + 1) = raw.type v := hturn.type.symm
  unfold descSize at hsize
  split_ifs at hsize with hcond
  obtain ⟨h2, hle, hrule, -⟩ := hcond
  have hk := Option.some.inj hsize
  rw [hk] at hrule hle
  rw [htype] at hrule
  have hother : raw.type v ≠ usbDtInterface → raw.type v ≠ usbDtInterfaceAssociation →
      t.priv.Gave c (raw.numbers (us ++ [v]))
        ∧ raw.Written c (raw.numbers (us ++ [v])) t.mem v := by
    intro hintf hassoc
    rw [RawDescs.numbers_concat_other hintf]
    exact ⟨hg, fun h => absurd h hintf, fun h => absurd h hintf, fun h => absurd h hassoc⟩
  have hclasses : ∀ {d : DescClass}, descClass (raw.type v) = d → d ≠ .interface →
      d ≠ .association → raw.type v ≠ usbDtInterface ∧ raw.type v ≠ usbDtInterfaceAssociation := by
    rintro _ rfl hintf hassoc
    exact ⟨mt descClass_interface.mpr hintf, mt descClass_association.mpr hassoc⟩
  unfold descEntities
  rw [htype]
  cases hclass : descClass (raw.type v) with
  | interface =>
      have hintf := descClass_interface.mp hclass
      rw [hclass] at hrule
      have hnine : v.size = 9 := hrule
      have hnumber : byteAt t.mem (v.offset + 2) = raw.number v :=
        hfresh 2 (by omega) (by omega) (.inl ⟨hclass, .inl rfl⟩)
      have hstring : byteAt t.mem (v.offset + 8) = byteAt raw.bytes (v.offset + 8) :=
        hfresh 8 (by omega) (by omega) (.inl ⟨hclass, .inr rfl⟩)
      have hassoc : raw.type v ≠ usbDtInterfaceAssociation := by
        rw [hintf]
        decide
      rw [RawDescs.numbers_concat_interface hintf]
      refine meets_bind ((interfaceNum_numbers (by omega) hg).mono ?_ fun _ _ he => he)
      rintro _ w ⟨hmem, hgave⟩
      rw [hnumber] at hmem hgave
      have hkept : byteAt w.mem (v.offset + 8) = byteAt raw.bytes (v.offset + 8) := by
        rw [hmem, byteAt_set_ne _ (by omega), hstring]
      have hgiven : byteAt w.mem (v.offset + 2)
          = c.newNumber (raw.numbers us ++ [raw.number v]) (raw.number v) := by
        rw [hmem, byteAt_set_eq _ (by omega)]
      by_cases hzero : byteAt t.mem (v.offset + 8) = 0
      · rw [if_neg (not_not.mpr hzero)]
        refine meets_pure ⟨hgave, fun _ => hgiven, fun _ => ?_, fun h => absurd h hassoc⟩
        rw [hkept, ← hstring, hzero]
        rfl
      · rw [if_pos hzero]
        have hne : byteAt w.mem (v.offset + 8) ≠ 0 := by
          rw [hkept, ← hstring]
          apply hzero
        have hlt : v.offset + 8 < w.mem.length := by
          rw [hmem, List.length_set]
          omega
        refine meets_step (stringNum_run hlt hne) (meets_pure ⟨hgave, fun _ => ?_, fun _ => ?_,
          fun h => absurd h hassoc⟩)
        · rw [byteAt_set_ne _ (by omega), hgiven]
        · rw [byteAt_set_eq _ hlt, hkept]
  | association =>
      have hassoc := descClass_association.mp hclass
      rw [hclass] at hrule
      have height : v.size = 8 := hrule
      have hintf : raw.type v ≠ usbDtInterface := by
        rw [hassoc]
        decide
      have hfunction : byteAt t.mem (v.offset + 7) = byteAt raw.bytes (v.offset + 7) :=
        hfresh 7 (by omega) (by omega) (.inr ⟨hclass, rfl⟩)
      rw [RawDescs.numbers_concat_other hintf]
      dsimp only
      by_cases hzero : byteAt t.mem (v.offset + 7) = 0
      · rw [if_neg (not_not.mpr hzero)]
        refine meets_pure ⟨hg, fun h => absurd h hintf, fun h => absurd h hintf, fun _ => ?_⟩
        rw [← hfunction, hzero]
        rfl
      · rw [if_pos hzero]
        refine meets_step (stringNum_run (by omega) hzero) (meets_pure ⟨hg,
          fun h => absurd h hintf, fun h => absurd h hintf, fun _ => ?_⟩)
        rw [byteAt_set_eq _ (by omega), hfunction]
  | endpoint =>
      obtain ⟨hintf, hassoc⟩ := hclasses hclass (by decide) (by decide)
      have hep : byteAt t.mem (v.offset + 1) = usbDtEndpoint := by
        rw [htype]
        apply descClass_endpoint.mp hclass
      exact meets_step (endpointNum_run (by omega) hep) (meets_pure (hother hintf hassoc))
  | reserved =>
      obtain ⟨hintf, hassoc⟩ := hclasses hclass (by decide) (by decide)
      exact meets_pure (hother hintf hassoc)
  | sized size =>
      obtain ⟨hintf, hassoc⟩ := hclasses hclass (by simp) (by simp)
      exact meets_pure (hother hintf hassoc)
  | other =>
      obtain ⟨hintf, hassoc⟩ := hclasses hclass (by decide) (by decide)
      exact meets_pure (hother hintf hassoc)

/-- The numbers of a descriptor stay when others are written. -/
theorem RawDescs.Written.stay {keys more : List UInt8} {m m' : Bytes} {w : Visit}
    (h : raw.Written c keys m w) (hkey : raw.type w = usbDtInterface → raw.number w ∈ keys)
    (hmem : ∀ p, NumField raw.bytes w.offset p → byteAt m p = byteAt m' p) :
  raw.Written c (keys ++ more) m' w
  := by
  refine ⟨fun hintf => ?_, fun hintf => ?_, fun hassoc => ?_⟩
  · have hclass := descClass_interface.mpr hintf
    rw [← hmem _ (.inl ⟨hclass, .inl rfl⟩), h.number hintf, UsbConfig.newNumber,
      UsbConfig.newNumber, UsbConfig.entry_append (hkey hintf)]
  · have hclass := descClass_interface.mpr hintf
    rw [← hmem _ (.inl ⟨hclass, .inr rfl⟩), h.string hintf]
  · have hclass := descClass_association.mpr hassoc
    rw [← hmem _ (.inr ⟨hclass, rfl⟩), h.function hassoc]

theorem RawDescs.numbers_concat (raw : RawDescs) (us : List Visit) (v : Visit) :
  ∃ more, raw.numbers (us ++ [v]) = raw.numbers us ++ more
  := by
  by_cases h : raw.type v = usbDtInterface
  · exact ⟨_, numbers_concat_interface h⟩
  · exact ⟨[], by rw [numbers_concat_other h, List.append_nil]⟩

/-- One turn of the walk. -/
theorem ffsDoDesc_numbers
    (hs : EndpointsWalked raw ffs raw.descs s) (hraw : raw.Valid ffs)
    (ht : Numbered raw c us s t) (hall : raw.all = us ++ v :: ws) (num : Nat) :
  (ffsDoDesc (ffsFuncBindDoNums c) num v.offset (raw.bytes.length - v.offset)).Meets t
    (fun k u => k = v.size ∧ Numbered raw c (us ++ [v]) s u) (fun _ _ => True)
  := by
  have hv : v ∈ raw.all := by simp [hall]
  obtain ⟨speed, hvs⟩ := RawDescs.mem_all.mp hv
  have hturn := ht.turn hs hraw hall
  have hfresh : ∀ j, 2 ≤ j → j < v.size → NumField raw.bytes v.offset (v.offset + j) →
      byteAt t.mem (v.offset + j) = byteAt raw.bytes (v.offset + j) := by
    intro j _ hj hfield
    have hnone : descEndpoint raw.bytes v.offset = none := by
      obtain ⟨hclass, -⟩ | ⟨hclass, -⟩ := hfield <;> simp [descEndpoint, hclass]
    rw [ht.fresh hraw hall (.inr hj), hs.fresh_head hraw hv (.inr ⟨hj, hnone⟩)]
  have hown := report_doNums_meets (c := c) hturn.size (Nat.le_of_eq hturn.length) hturn.interfaces
  unfold Meets
  rw [ffsDoDesc_doNums_run hturn]
  refine meets_bind ((hown.and (report_numbers hturn ht.gave hfresh)).mono ?_ fun _ _ _ => trivial)
  rintro _ u ⟨hu, hgave, hwritten⟩
  refine meets_pure ⟨rfl, ht.toRenumbered.next hturn hu, hgave, fun w hw => ?_⟩
  obtain hw | hw := List.mem_append.mp hw
  case inr => exact List.mem_singleton.mp hw ▸ hwritten
  obtain ⟨more, hmore⟩ := raw.numbers_concat us v
  rw [hmore]
  refine (ht.written w hw).stay (RawDescs.number_mem_numbers hw) fun p hp => ?_
  refine hu.mem.2 p fun hown => ?_
  -- the numbers of an earlier descriptor lie before this one
  obtain ⟨sp, hws⟩ := RawDescs.mem_all.mp (show w ∈ raw.all by simp [hall, hw])
  have hlt := hraw.numField_lt hws hp
  have hvisits := hraw.all
  rw [hall] at hvisits
  have hle := le_of_visits_append (fun _ _ _ => descSize_le) hvisits hw
  unfold NumField at hown
  omega

/-- Before the walk nothing is given. -/
theorem numbered_nil (hs : s.priv.Unnumbered) :
  Numbered raw c [] s s
  := by
  obtain ⟨hids, hnums⟩ := hs
  refine ⟨Renumbered.refl _ s, ⟨hids, fun n => ?_, fun k hk => ?_⟩, fun v hv => ?_⟩
  · rw [hnums]
    rfl
  · cases hk
  · cases hv

/-- The walk over all descriptors. -/
theorem doNums_numbered
    (hraw : raw.Valid ffs) (hs : EndpointsWalked raw ffs raw.descs s)
    (hnone : s.priv.Unnumbered)
    (hcount : ffs.fsDescsCount + ffs.hsDescsCount + ffs.ssDescsCount < 4294967296) :
  (ffsDoDescs (u32 (ffs.fsDescsCount + ffs.hsDescsCount + ffs.ssDescsCount)) 0 ffs.rawDescsLength
      (ffsFuncBindDoNums c)).Meets s
    (fun _ t => Numbered raw c raw.all s t) (fun _ _ => True)
  := by
  have hvisits := hraw.all
  rw [← Nat.add_assoc, hraw.length] at hvisits
  have hall : u32 ((ffs.fsDescsCount + ffs.hsDescsCount + ffs.ssDescsCount : Nat) : Int)
      = ffs.fsDescsCount + ffs.hsDescsCount + ffs.ssDescsCount := u32_of_lt hcount
  push_cast at hall
  rw [hall]
  refine (ffsDoDescs_visits (fun us t => Numbered raw c us s t) hvisits
    (hraw.length ▸ hraw.small) ?_ ?_ (numbered_nil hnone)).mono (fun _ _ ht => ht.2)
    fun _ _ he => he
  · intro us v ws t hsplit ht
    rw [Nat.zero_add, ← hraw.length]
    exact ffsDoDesc_numbers hs hraw ht hsplit _
  · exact fun t ht => meets_pure ht

/-- `kzalloc` serves no request of `2 ^ 32` bytes, and the chunk has a pointer of eight bytes for
each descriptor. -/
def UsbConfig.Serves (c : UsbConfig) (ffs : FfsData) : Prop :=
  c.kzalloc → 8 * (ffs.fsDescsCount + ffs.hsDescsCount + ffs.ssDescsCount) < 4294967296

/-- The walks that come before the patches number the interfaces. -/
theorem bindPasses_numbered
    {lens : Nat × Nat × Nat} (hserves : c.Serves ffs) (hraw : raw.Valid ffs)
    (hffs : s.priv.ffs = ffs) (hahead : s.priv.NoneAhead)
    (h : (bindPasses c).run s = .ok lens u) :
  ∃ v t, EndpointsWalked raw ffs raw.descs v ∧ AddressesGiven raw c raw.descs v
    ∧ Numbered raw c raw.all v t
    ∧ ∀ {τ : Type} {F : Heap BindState → τ}, OsBlind F → F u = F t
  := by
  obtain ⟨hstart, r, t, hr, hgiven, hdescs, -, hsame⟩ := bindPasses_split hraw hffs hahead h
  have hkzalloc : c.kzalloc := by
    by_contra hno
    exact hstart (.inr (.inl hno))
  have hcount := hserves hkzalloc
  have hnums : ∀ v, SpeedsWalked raw ffs s.priv.next 3 raw.descs v →
      (ffsDoDescs (u32 (ffs.fsDescsCount + ffs.hsDescsCount + ffs.ssDescsCount)) 0
        ffs.rawDescsLength (ffsFuncBindDoNums c)).Meets v
        (fun _ t => Numbered raw c raw.all v t) fun _ _ => True :=
    fun v hv => doNums_numbered hraw hv.toEndpointsWalked hv.unnumbered (by omega)
  have hmeets := bindDescs_meets_of hraw hr hgiven (fun _ _ => trivial) hnums
  obtain ⟨-, -, v, hv, hvgiven, ht⟩ := hmeets.of_ok hdescs
  exact ⟨v, t, hv.toEndpointsWalked, hvgiven, ht, hsame⟩

end Walk

end Ffs
