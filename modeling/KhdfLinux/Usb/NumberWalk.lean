import KhdfLinux.Usb.SpeedWalks

/-!
# The walk that numbers interfaces

After the endpoints are claimed, a bind walks once more over the descriptors of all speeds, to
write the numbers of interfaces and of strings.  `ffsFuncBindDoNums_walk`: the walk comes to its
end unless the gadget refuses an interface id, and rewrites nothing else.
-/

namespace Ffs

open Bytes Exec Heap Walk

/-- The positions of the numbers of the descriptor at `d`: those of an interface and its string,
and the string of an association. -/
def NumField (m : Bytes) (d p : Nat) : Prop :=
  descClass (byteAt m (d + 1)) = .interface ∧ (p = d + 2 ∨ p = d + 8)
    ∨ descClass (byteAt m (d + 1)) = .association ∧ p = d + 7

/-- The descriptors of all speeds. -/
def RawDescs.all (raw : RawDescs) : List Visit :=
  raw.descs .full ++ (raw.descs .high ++ raw.descs .super)

namespace RawDescs

variable {raw : RawDescs} {ffs : FfsData} {speed : Speed} {v : Visit} {j : Nat}

theorem mem_all :
  v ∈ raw.all ↔ ∃ speed, v ∈ raw.descs speed
  := by
  unfold all
  rw [List.mem_append, List.mem_append]
  constructor
  · rintro (h | h | h)
    · exact ⟨_, h⟩
    · exact ⟨_, h⟩
    · exact ⟨_, h⟩
  · rintro ⟨speed, h⟩
    cases speed with
    | full => exact .inl h
    | high => exact .inr (.inl h)
    | super => exact .inr (.inr h)

/-- The speeds are one list of descriptors. -/
theorem Valid.all (hraw : raw.Valid ffs) :
  visits (descSize raw.bytes)
      (ffs.fsDescsCount + (ffs.hsDescsCount + ffs.ssDescsCount)) 0 raw.bytes.length
    = some raw.all
  := by
  have hfull := hraw.descs .full
  have hhigh := hraw.descs .high
  have hsuper := hraw.descs .super
  simp only [startAt, Nat.sub_zero] at hfull hhigh hsuper
  refine visits_add.mpr ⟨_, _, hfull, ?_, rfl⟩
  rw [Nat.zero_add]
  refine visits_add.mpr ⟨_, _, hhigh, ?_, rfl⟩
  rw [← Nat.sub_add_eq]
  apply hsuper

/-- The interfaces of a descriptor are among those that are recorded. -/
theorem Valid.descInterfaces_le (hraw : raw.Valid ffs) (hv : v ∈ raw.descs speed) :
  descInterfaces raw.bytes v.offset ≤ ffs.interfacesCount
  := by
  have hcount : ffs.descsCount speed ≠ 0 := by
    rw [← hraw.length_descs]
    apply Nat.ne_of_gt (List.length_pos_of_mem hv)
  have hle : ∀ vs : List Visit, v ∈ vs →
      descInterfaces raw.bytes v.offset ≤ speedInterfaces raw.bytes vs := by
    intro vs hvs
    induction vs with
    | nil => cases hvs
    | cons w vs ih =>
        obtain rfl | hvs := List.mem_cons.mp hvs
        · apply Nat.le_max_left _ _
        · apply Nat.le_trans (ih hvs) (Nat.le_max_right _ _)
  obtain ⟨-, hi⟩ | ⟨-, -, -, hi⟩ := hraw.agree speed hcount
  · have := hle _ hv
    omega
  · exact hi ▸ hle _ hv

/-- A descriptor with numbers has room for them. -/
theorem Valid.numField_lt (hraw : raw.Valid ffs) (hv : v ∈ raw.descs speed)
    {p : Nat} (hp : NumField raw.bytes v.offset p) :
  v.offset + 2 ≤ p ∧ p < v.offset + v.size
  := by
  have hsize := (hraw.mem hv).2.2
  unfold descSize at hsize
  split_ifs at hsize with hcond
  obtain ⟨-, -, hrule, -⟩ := hcond
  have hk := Option.some.inj hsize
  obtain ⟨hclass, hp⟩ | ⟨hclass, hp⟩ := hp
  · rw [hclass] at hrule
    simp only [DescClass.lengthRule, usbDtInterfaceSize] at hrule
    omega
  · rw [hclass] at hrule
    simp only [DescClass.lengthRule, usbInterfaceAssocSize] at hrule
    omega

/-- Of the bytes of a descriptor, the address and the packet size of an endpoint are rewritten
when the endpoints are claimed. -/
theorem Valid.epField_of_claimed
    (hraw : raw.Valid ffs) (hv : v ∈ raw.descs speed) (hj : j < 2 ∨ j < v.size)
    (hp : raw.Claimed ffs.interfacesCount raw.descs (v.offset + j)) :
  (descEndpoint raw.bytes v.offset).isSome ∧ EpField v.offset (v.offset + j)
  := by
  obtain hres | ⟨sp, w, hw, hep, hfield⟩ := hp
  · have hle := hraw.le_of_reserved hres
    have hstop := (hraw.mem hv).2.1
    have hosAt := hraw.stop_le speed
    omega
  · obtain ⟨a, ha⟩ := Option.isSome_iff_exists.mp hep
    obtain ⟨-, -, h7, -⟩ := descSize_endpoint (hraw.mem hw).2.2 ha
    obtain rfl | hlt := hraw.apart hv hw
    · exact ⟨hep, hfield⟩
    · unfold EpField at hfield
      omega

/-- Of the bytes of a descriptor, its numbers are rewritten when they are written. -/
theorem Valid.numField_own
    (hraw : raw.Valid ffs) (hv : v ∈ raw.descs speed) (hj : j < 2 ∨ j < v.size) {w : Visit}
    (hw : w ∈ raw.all) (hp : NumField raw.bytes w.offset (v.offset + j)) :
  v = w
  := by
  obtain ⟨sp, hw⟩ := mem_all.mp hw
  have hlt := hraw.numField_lt hw hp
  obtain rfl | hlt' := hraw.apart hv hw
  · rfl
  · omega

end RawDescs

/-- The state `t` comes from `s` by numbers written at the positions `R`. -/
structure Renumbered (R : Nat → Prop) (s t : Heap BindState) : Prop where
  mem : AgreeOff R s.mem t.mem
  priv : ∃ ids nums, t.priv = { s.priv with ids := ids, interfacesNums := nums }

namespace Renumbered

variable {R R' : Nat → Prop} {s t u : Heap BindState}

theorem refl (R : Nat → Prop) (s : Heap BindState) :
  Renumbered R s s
  := ⟨⟨rfl, fun _ _ => rfl⟩, _, _, rfl⟩

theorem mono (h : Renumbered R s t) (hR : ∀ p, R p → R' p) :
  Renumbered R' s t
  := ⟨h.mem.mono hR, h.priv⟩

theorem trans (h : Renumbered R s t) (h' : Renumbered R t u) :
  Renumbered R s u
  := by
  obtain ⟨ids, nums, ht⟩ := h.priv
  obtain ⟨ids', nums', hu⟩ := h'.priv
  exact ⟨h.mem.trans h'.mem, ids', nums', by rw [hu, ht]⟩

/-- One number more. -/
theorem set (h : Renumbered R s t) {p : Nat} (v : UInt8) (hp : R p) :
  Renumbered R s ⟨t.mem.set p v, t.priv⟩
  := ⟨h.mem.set v hp, h.priv⟩

end Renumbered

/-! ### The callback -/

section Callback

variable {c : UsbConfig} {R : Nat → Prop} {valuep desc : Nat} {s : Heap BindState}

/-- Why an interface gets no number: it is not there, it is not among those that are recorded, or
the gadget refuses the number. -/
def NumberStop (c : UsbConfig) (valuep : Nat) (s : Heap BindState) (e : Stop) : Prop :=
  s.mem.length ≤ valuep ∨ s.priv.ffs.interfacesCount ≤ (byteAt s.mem valuep).toNat
    ∨ (∃ code, e = .ret code) ∧ ¬c.Obliging

/-- An interface gets a number. -/
theorem bindInterfaceNum_meets (hR : R valuep) :
  (ffsFuncBindDoNums c (.interface valuep desc)).Meets s
    (fun _ t => Renumbered R s t)
    (fun e _ => NumberStop c valuep s e)
  := by
  unfold ffsFuncBindDoNums
  by_cases hp : valuep < s.mem.length
  case neg =>
    unfold Meets
    rw [EStateM.run_bind, run_map, run_read8_of_le (Nat.not_lt.mp hp)]
    exact .inl (Nat.not_lt.mp hp)
  have hwrite : ∀ t : Heap BindState, Renumbered R s t →
      (do
        let func ← look
        write8 valuep (UInt8.ofNat (u8 (func.interfacesNums (byteAt s.mem valuep).toNat))) :
          BindExec Unit).Meets t (fun _ u => Renumbered R s u)
        (fun e _ => NumberStop c valuep s e) := by
    intro t ht
    refine meets_step (run_look t) (meets_write8 ?_ (ht.set _ hR))
    rw [← ht.mem.1]
    apply hp
  refine meets_step (by rw [run_map, run_read8 hp]) (meets_step (run_look s) ?_)
  by_cases hidx : (byteAt s.mem valuep).toNat < s.priv.ffs.interfacesCount
  case neg =>
    refine meets_bind ?_
    rw [checkIndex, if_neg hidx]
    apply meets_stop (.inr (.inl (Nat.not_lt.mp hidx)))
  refine meets_step (run_checkIndex hidx s) ?_
  split
  · refine meets_guard (fun hneg => ?_) fun _ => ?_
    · exact .inr (.inr ⟨⟨_, rfl⟩, fun hc => Int.not_lt.mpr (hc.interfaceId _) hneg⟩)
    · exact meets_step (run_update _ s) (hwrite _ ⟨⟨rfl, fun _ _ => rfl⟩, _, _, rfl⟩)
  · apply hwrite s (Renumbered.refl R s)

/-- A string gets the number the gadget has for it. -/
theorem bindStringNum_meets (hp : valuep < s.mem.length) (hR : R valuep) :
  (ffsFuncBindDoNums c (.string valuep desc)).Meets s
    (fun _ t => Renumbered R s t) (fun _ _ => False)
  := by
  unfold ffsFuncBindDoNums
  refine meets_step (by rw [run_map, run_read8 hp]) ?_
  apply meets_write8 hp ((Renumbered.refl R s).set _ hR)

/-- The address of an endpoint was written before. -/
theorem endpointNum_run (hp : desc + 1 < s.mem.length)
    (htype : byteAt s.mem (desc + 1) = usbDtEndpoint) :
  (ffsFuncBindDoNums c (.endpoint valuep desc)).run s = .ok () s
  := by
  unfold ffsFuncBindDoNums
  rw [EStateM.run_bind, run_read8 hp]
  dsimp only
  rw [if_neg (not_not.mpr htype)]
  rfl

/-- The entities of a descriptor that passes the checks. -/
theorem report_doNums_meets {d len k : Nat} (hsize : descSize s.mem d len = some k)
    (hlen : d + len ≤ s.mem.length)
    (hidx : descInterfaces s.mem d ≤ s.priv.ffs.interfacesCount) :
  (report (ffsFuncBindDoNums c) (descEntities s.mem d)).Meets s
    (fun _ t => Renumbered (NumField s.mem d) s t)
    (fun e _ => (∃ code, e = .ret code) ∧ ¬c.Obliging)
  := by
  unfold descSize at hsize
  split_ifs at hsize with hcond
  obtain ⟨h2, hle, hrule, -⟩ := hcond
  unfold descEntities
  unfold descInterfaces at hidx
  cases hclass : descClass (byteAt s.mem (d + 1)) with
  | interface =>
      rw [hclass] at hrule hidx
      simp only [DescClass.lengthRule, usbDtInterfaceSize] at hrule
      rw [if_pos rfl] at hidx
      have hnumber : NumField s.mem d (d + 2) := .inl ⟨hclass, .inl rfl⟩
      have hstring : NumField s.mem d (d + 8) := .inl ⟨hclass, .inr rfl⟩
      refine meets_bind ((bindInterfaceNum_meets hnumber).mono ?_ ?_)
      rotate_left
      · rintro e t (hp | hi | he)
        · omega
        · omega
        · apply he
      intro _ t ht
      split
      · refine meets_bind ((bindStringNum_meets ?_ hstring).mono ?_ fun _ _ he => he.elim)
        · rw [← ht.mem.1]
          omega
        · exact fun _ u hu => ht.trans hu
      · exact meets_pure ht
  | association =>
      rw [hclass] at hrule
      simp only [DescClass.lengthRule, usbInterfaceAssocSize] at hrule
      have hstring : NumField s.mem d (d + 7) := .inr ⟨hclass, rfl⟩
      dsimp only
      split
      · refine meets_bind ((bindStringNum_meets (by omega) hstring).mono ?_ fun _ _ he => he.elim)
        exact fun _ t ht => meets_pure ht
      · exact meets_pure (Renumbered.refl _ s)
  | endpoint =>
      have htype := descClass_endpoint.mp hclass
      exact meets_step (endpointNum_run (by omega) htype) (meets_pure (Renumbered.refl _ s))
  | reserved => exact meets_pure (Renumbered.refl _ s)
  | sized size => exact meets_pure (Renumbered.refl _ s)
  | other => exact meets_pure (Renumbered.refl _ s)

end Callback

/-! ### The walk -/

section Walk

variable {c : UsbConfig} {raw : RawDescs} {ffs : FfsData} {s t u : Heap BindState}
  {us ws : List Visit} {v : Visit}

/-- The numbers of the descriptors `us`. -/
def NumFields (m : Bytes) (us : List Visit) (p : Nat) : Prop := ∃ u ∈ us, NumField m u.offset p

/-- The next descriptor is as it was when the walk began. -/
theorem Renumbered.fresh
    (ht : Renumbered (NumFields raw.bytes us) s t) (hraw : raw.Valid ffs)
    (hall : raw.all = us ++ v :: ws) {j : Nat} (hj : j < 2 ∨ j < v.size) :
  byteAt t.mem (v.offset + j) = byteAt s.mem (v.offset + j)
  := by
  refine (ht.mem.2 _ ?_).symm
  rintro ⟨u, hu, hfield⟩
  obtain ⟨speed, hv⟩ := RawDescs.mem_all.mp (show v ∈ raw.all by simp [hall])
  have hmem : u ∈ raw.all := by simp [hall, hu]
  obtain rfl := hraw.numField_own hv hj hmem hfield
  have hvisits := hraw.all
  rw [hall] at hvisits
  have hle := le_of_visits_append (fun _ _ _ => descSize_le) hvisits hu
  have hlt := hraw.numField_lt hv hfield
  omega

/-- The type and the length of a descriptor stay. -/
theorem EndpointsWalked.fresh_head
    (hs : EndpointsWalked raw ffs raw.descs s) (hraw : raw.Valid ffs) (hv : v ∈ raw.all) {j : Nat}
    (hj : j < 2 ∨ j < v.size ∧ (descEndpoint raw.bytes v.offset = none)) :
  byteAt s.mem (v.offset + j) = byteAt raw.bytes (v.offset + j)
  := by
  obtain ⟨speed, hv⟩ := RawDescs.mem_all.mp hv
  refine (hs.mem.2 _ fun hclaimed => ?_).symm
  obtain ⟨hep, hfield⟩ := hraw.epField_of_claimed hv (hj.imp_right And.left) hclaimed
  obtain hj | ⟨-, hnone⟩ := hj
  · unfold EpField at hfield
    omega
  · simp [hnone] at hep

/-- What is known of the next descriptor: it passes the checks again, and the interfaces are
recorded. -/
structure NumberTurn (raw : RawDescs) (v : Visit) (t : Heap BindState) : Prop where
  size : descSize t.mem v.offset (raw.bytes.length - v.offset) = some v.size
  type : byteAt raw.bytes (v.offset + 1) = byteAt t.mem (v.offset + 1)
  interfaces : descInterfaces t.mem v.offset ≤ t.priv.ffs.interfacesCount
  length : v.offset + (raw.bytes.length - v.offset) = t.mem.length

theorem Renumbered.turn
    (ht : Renumbered (NumFields raw.bytes us) s t) (hs : EndpointsWalked raw ffs raw.descs s)
    (hraw : raw.Valid ffs) (hall : raw.all = us ++ v :: ws) :
  NumberTurn raw v t
  := by
  have hv : v ∈ raw.all := by simp [hall]
  obtain ⟨speed, hvs⟩ := RawDescs.mem_all.mp hv
  have hsize := (hraw.mem hvs).2.2
  have hmemlen : t.mem.length = raw.bytes.length := ht.mem.1.symm.trans hs.mem.1.symm
  have hlength : byteAt raw.bytes v.offset = byteAt t.mem v.offset :=
    ((ht.fresh hraw hall (j := 0) (.inl (by decide))).trans
      (hs.fresh_head hraw hv (j := 0) (.inl (by decide)))).symm
  have htype : byteAt raw.bytes (v.offset + 1) = byteAt t.mem (v.offset + 1) :=
    ((ht.fresh hraw hall (.inl (by decide))).trans
      (hs.fresh_head hraw hv (.inl (by decide)))).symm
  refine ⟨?_, htype, ?_, ?_⟩
  · refine descSize_of_same hsize hlength htype fun hclass => ?_
    have hep : descEndpoint raw.bytes v.offset = some (byteAt raw.bytes (v.offset + 2)) :=
      if_pos hclass
    obtain ⟨-, -, h7, -⟩ := descSize_endpoint hsize hep
    rw [ht.fresh hraw hall (.inr (by omega))]
    exact hs.numbered speed v hvs (by simp [hep])
  · have hle := hraw.descInterfaces_le hvs
    obtain ⟨ids, nums, hpriv⟩ := ht.priv
    rw [hpriv, show s.priv.ffs = ffs from hs.ffs_eq]
    unfold descInterfaces at hle ⊢
    rw [← htype]
    split_ifs at hle ⊢ with hclass
    · have hnone : descEndpoint raw.bytes v.offset = none := by
        simp [descEndpoint, hclass]
      have h9 := hraw.numField_lt hvs (.inl ⟨hclass, .inr rfl⟩)
      rw [ht.fresh hraw hall (.inr (by omega)), hs.fresh_head hraw hv (.inr ⟨by omega, hnone⟩)]
      apply hle
    · apply Nat.zero_le _
  · have hstop := (hraw.mem hvs).2.1
    have hosAt := hraw.stop_le speed
    omega

/-- One descriptor more. -/
theorem Renumbered.next
    (ht : Renumbered (NumFields raw.bytes us) s t) (hturn : NumberTurn raw v t)
    (hu : Renumbered (NumField t.mem v.offset) t u) :
  Renumbered (NumFields raw.bytes (us ++ [v])) s u
  := by
  refine Renumbered.trans (ht.mono ?_) (hu.mono ?_)
  · rintro p ⟨w, hw, hp⟩
    exact ⟨w, by simp [hw], hp⟩
  · intro p hp
    refine ⟨v, by simp, ?_⟩
    unfold NumField at hp ⊢
    rwa [hturn.type]

/-- One turn of the walk reports the entities of the descriptor. -/
theorem ffsDoDesc_doNums_run (h : NumberTurn raw v t) (num : Nat) :
  (ffsDoDesc (ffsFuncBindDoNums c) num v.offset (raw.bytes.length - v.offset)).run t
    = (do report (ffsFuncBindDoNums c) (descEntities t.mem v.offset); pure v.size).run t
  := by
  have hkeep : ∀ u, (ffsFuncBindDoNums c (.interface (v.offset + 2) v.offset)).run t = .ok () u →
      byteAt u.mem (v.offset + 8) = byteAt t.mem (v.offset + 8)
        ∧ u.mem.length = t.mem.length := by
    intro u hu
    have hagree : Renumbered (Eq (v.offset + 2)) t u := (bindInterfaceNum_meets rfl).of_ok hu
    exact ⟨(hagree.mem.2 _ (by omega)).symm, hagree.mem.1.symm⟩
  have hrun := ffsDoSingleDesc_run (Nat.le_of_eq h.length) hkeep
  rw [h.size] at hrun
  exact hrun

/-- One turn of the walk. -/
theorem ffsDoDesc_doNums_meets
    (hs : EndpointsWalked raw ffs raw.descs s) (hraw : raw.Valid ffs)
    (ht : Renumbered (NumFields raw.bytes us) s t) (hall : raw.all = us ++ v :: ws) (num : Nat) :
  (ffsDoDesc (ffsFuncBindDoNums c) num v.offset (raw.bytes.length - v.offset)).Meets t
    (fun k u => k = v.size ∧ Renumbered (NumFields raw.bytes (us ++ [v])) s u)
    (fun e _ => (∃ code, e = .ret code) ∧ ¬c.Obliging)
  := by
  have hturn := ht.turn hs hraw hall
  unfold Meets
  rw [ffsDoDesc_doNums_run hturn]
  refine meets_bind ((report_doNums_meets hturn.size (Nat.le_of_eq hturn.length)
    hturn.interfaces).mono ?_ fun _ _ he => he)
  exact fun _ u hu => meets_pure ⟨rfl, ht.next hturn hu⟩

/-- The walk comes to its end, unless the gadget refuses an interface id.  It may be shorter than
the list of all descriptors, as the number of these is a word of 32 bits. -/
theorem ffsFuncBindDoNums_walk (hraw : raw.Valid ffs) (hs : EndpointsWalked raw ffs raw.descs s) :
  (ffsDoDescs (u32 (ffs.fsDescsCount + ffs.hsDescsCount + ffs.ssDescsCount)) 0 ffs.rawDescsLength
      (ffsFuncBindDoNums c)).Meets s
    (fun _ t => Renumbered (NumFields raw.bytes raw.all) s t)
    (fun e _ => (∃ code, e = .ret code) ∧ ¬c.Obliging)
  := by
  have hle : u32 (ffs.fsDescsCount + ffs.hsDescsCount + ffs.ssDescsCount)
      ≤ ffs.fsDescsCount + (ffs.hsDescsCount + ffs.ssDescsCount) := by
    unfold u32
    omega
  obtain ⟨more, hmore⟩ := Nat.exists_eq_add_of_le hle
  have hvisits := hraw.all
  rw [hmore, hraw.length] at hvisits
  obtain ⟨us, ws, hus, -, hall⟩ := visits_add.mp hvisits
  refine (ffsDoDescs_visits (fun us' => Renumbered (NumFields raw.bytes us') s) hus
    (hraw.length ▸ hraw.small) ?_ ?_ (Renumbered.refl _ s)).mono (fun _ _ ht => ht.2)
      fun _ _ he => he
  · intro us' v ws' t hsplit ht
    rw [Nat.zero_add, ← hraw.length]
    have hnext : raw.all = us' ++ v :: (ws' ++ ws) := by simp [hall, hsplit]
    apply ffsDoDesc_doNums_meets hs hraw ht hnext _
  · intro t ht
    refine meets_pure (ht.mono ?_)
    rintro p ⟨u, hu, hp⟩
    exact ⟨u, by simp [hall, hu], hp⟩

end Walk

end Ffs
