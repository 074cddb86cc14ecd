import KhdfLinux.Usb.Numbers
import KhdfLinux.Usb.PatchSafety

/-!
# What the patches write

The memory after the descriptor at a position is patched is a function of the memory before, as far
as the patch is carried out.  `PatchStep.func` puts the patches of all descriptors together: what
each patch preserves holds after all of them.
-/

namespace Ffs

open Bytes Exec Heap Walk

/-! ### The references of a descriptor -/

/-- The references of a descriptor: the bytes they are in, and which of the interfaces with
endpoints the patches take them for, 0 for `intf_ctl` and 1 for `intf_data`. -/
def interfaceRefs (type subType : UInt8) : List (Nat × Nat) :=
  if type = usbDtInterfaceAssociation then
    [(2, 0)]
  else if type = usbDtCsInterface then
    if subType = usbCdcCallManagementType then [(4, 1)]
    else if subType = usbCdcUnionType then [(3, 0), (4, 1)]
    else []
  else
    []

theorem interfaceRefs_class (subType : UInt8) :
  interfaceRefs usbDtCsInterface subType
    = if subType = usbCdcCallManagementType then [(4, 1)]
      else if subType = usbCdcUnionType then [(3, 0), (4, 1)]
      else []
  := rfl

theorem patchNeeds_class (subType : UInt8) :
  patchNeeds usbDtCsInterface subType
    = if subType = usbCdcCallManagementType ∨ subType = usbCdcUnionType then (2, 5)
      else if subType = usbCdcEthernetType then (1, 4)
      else (0, 3)
  := rfl

/-- The descriptor is taken for a CDC Ethernet descriptor. -/
def IsEthernet (type subType : UInt8) : Prop :=
  type = usbDtCsInterface ∧ subType = usbCdcEthernetType

instance (type subType : UInt8) : Decidable (IsEthernet type subType) := by
  unfold IsEthernet
  infer_instance

/-! ### What a patch does to the memory -/

/-- The bytes of a descriptor that are written. -/
def patchFields (type subType : UInt8) : List Nat :=
  if IsEthernet type subType then [3] else (interfaceRefs type subType).map Prod.fst

namespace RawDescs

/-- Where one of the interfaces with endpoints is. -/
def intfAt (raw : RawDescs) (i : Nat) : Nat := (raw.intfs[i]?.map Visit.offset).getD 0

/-- The memory after a reference at `d` is written. -/
def patchRef (raw : RawDescs) (d : Nat) (m : Bytes) (ref : Nat × Nat) : Bytes :=
  m.set (d + ref.1) (byteAt m (raw.intfAt ref.2 + 2))

/-- The memory after the descriptor at `d` is patched. -/
def patchMem (raw : RawDescs) (d : Nat) (m : Bytes) : Bytes :=
  if IsEthernet (byteAt m (d + 1)) (byteAt m (d + 2)) then
    m.set (d + 3) (byteAt m (raw.intfAt 0 + 8) + 1)
  else
    (interfaceRefs (byteAt m (d + 1)) (byteAt m (d + 2))).foldl (raw.patchRef d) m

end RawDescs

/-- The memory is `m`, and the pointers to the descriptors are as they were. -/
structure Patched (m : Bytes) (s t : Heap BindState) : Prop where
  mem : t.mem = m
  descs : t.priv.descState = s.priv.descState

section Effect

variable {raw : RawDescs} {m : Bytes} {s t u : Heap BindState} {d i k : Nat}

theorem Patched.trans (h : Patched m s t) {m' : Bytes} (h' : Patched m' t u) :
  Patched m' s u
  := ⟨h'.mem, h'.descs.trans h.descs⟩

theorem read8_effect (p : Nat) (s : Heap BindState) :
  (read8 p).Meets s (fun b t => b = byteAt s.mem p ∧ t = s) fun _ _ => True
  := by
  by_cases hlt : p < s.mem.length
  · rw [meets_iff_of_ok (run_read8 hlt)]
    exact ⟨rfl, rfl⟩
  · rw [meets_iff_of_error (run_read8_of_le (Nat.le_of_not_lt hlt))]
    trivial

theorem getField_effect (d k : Nat) (s : Heap BindState) :
  (getField d k).Meets s (fun b t => b = byteAt s.mem (d + k) ∧ Patched s.mem s t)
    fun _ _ => True
  := by
  refine meets_step (run_update _ s) ((read8_effect _ _).mono ?_ fun _ _ he => he)
  rintro b _ ⟨rfl, rfl⟩
  exact ⟨rfl, rfl, rfl⟩

theorem write8_effect (p : Nat) (b : UInt8) (s : Heap BindState) :
  (write8 p b).Meets s (fun _ t => t = { s with mem := s.mem.set p b }) fun _ _ => True
  := by
  by_cases hlt : p < s.mem.length
  · exact meets_write8 hlt rfl
  · have hrun : (write8 p b).run s = .error (.fault .outOfBounds) s := if_neg hlt
    rw [meets_iff_of_error hrun]
    trivial

theorem setField_effect (d k : Nat) (b : UInt8) (s : Heap BindState) :
  (setField d k b).Meets s (fun _ t => Patched (s.mem.set (d + k) b) s t) fun _ _ => True
  := by
  refine meets_step (run_update _ s) ((write8_effect _ _ _).mono ?_ fun _ _ he => he)
  rintro _ _ rfl
  exact ⟨rfl, rfl⟩

/-- A byte of an interface with endpoints is read, if there is such an interface. -/
theorem intfField_effect
    {f : UInt8 → BindExec Unit} {Q : Unit → Heap BindState → Prop} (i j : Nat)
    (hf : i < raw.intfs.length → ∀ t, Patched s.mem s t →
      (f (byteAt s.mem (raw.intfAt i + j))).Meets t Q fun _ _ => True) :
  (deref (raw.intfs[i]?.map Visit.offset) >>= fun d => getField d j >>= f).Meets s Q
    fun _ _ => True
  := by
  unfold RawDescs.intfAt at hf
  rcases hi : raw.intfs[i]? with _ | w
  · exact meets_bind trivial
  · rw [hi] at hf
    have hlt : i < raw.intfs.length := (List.getElem?_eq_some_iff.mp hi).1
    refine meets_step rfl (meets_bind ((getField_effect _ j s).mono ?_ fun _ _ he => he))
    rintro _ t ⟨rfl, ht⟩
    apply hf hlt t ht

/-- A byte of an interface with endpoints is read and written. -/
theorem intfField_setField
    {Q : Unit → Heap BindState → Prop} (i j k : Nat) (f : UInt8 → UInt8)
    (hQ : i < raw.intfs.length → ∀ t,
      Patched (s.mem.set (d + k) (f (byteAt s.mem (raw.intfAt i + j)))) s t → Q () t) :
  (deref (raw.intfs[i]?.map Visit.offset) >>= fun p => getField p j >>= fun b =>
    setField d k (f b)).Meets s Q fun _ _ => True
  := by
  refine intfField_effect i j fun hi t ht => ?_
  refine (setField_effect d k _ t).mono ?_ fun _ _ he => he
  intro _ w hw
  rw [ht.mem] at hw
  apply hQ hi w (ht.trans hw)

/-- What comes of a patch that is carried out: the interfaces that are used are there, and the
references are written. -/
theorem patchDesc_effect (d : Nat) (s : Heap BindState) :
  (patchDesc (raw.intfs[0]?.map Visit.offset) (raw.intfs[1]?.map Visit.offset) d).Meets s
    (fun _ t => (patchNeeds (byteAt s.mem (d + 1)) (byteAt s.mem (d + 2))).1 ≤ raw.intfs.length
      ∧ Patched (raw.patchMem d s.mem) s t)
    fun _ _ => True
  := by
  rw [patchDesc_eq]
  refine meets_bind ((getField_effect d 1 s).mono ?_ fun _ _ he => he)
  rintro _ t ⟨rfl, ht⟩
  unfold patchTyped RawDescs.patchMem
  by_cases hassoc : byteAt s.mem (d + 1) = usbDtInterfaceAssociation
  · have hno : ¬IsEthernet usbDtInterfaceAssociation (byteAt s.mem (d + 2)) := by
      rintro ⟨htype, -⟩
      revert htype
      decide
    rw [if_pos hassoc, hassoc, if_neg hno]
    refine intfField_setField 0 2 2 id fun hi w hw => ?_
    rw [ht.mem] at hw
    exact ⟨hi, ht.trans hw⟩
  rw [if_neg hassoc]
  by_cases hcs : byteAt s.mem (d + 1) = usbDtCsInterface
  case neg =>
    have hno : ¬IsEthernet (byteAt s.mem (d + 1)) (byteAt s.mem (d + 2)) := fun h => hcs h.1
    rw [if_neg hcs, if_neg hno]
    unfold interfaceRefs patchNeeds
    rw [if_neg hassoc, if_neg hcs, if_neg hassoc, if_neg hcs]
    exact meets_pure ⟨Nat.zero_le _, ht⟩
  rw [if_pos hcs, hcs]
  refine meets_bind ((getField_effect d 2 t).mono ?_ fun _ _ he => he)
  rintro _ w ⟨rfl, hw⟩
  replace hw := ht.trans hw
  rw [ht.mem] at hw ⊢
  unfold patchCdc
  by_cases hcall : byteAt s.mem (d + 2) = usbCdcCallManagementType
  · rw [if_pos hcall, hcall]
    refine intfField_setField 1 2 4 id fun hi x hx => ?_
    rw [hw.mem] at hx
    exact ⟨hi, hw.trans hx⟩
  rw [if_neg hcall]
  by_cases hunion : byteAt s.mem (d + 2) = usbCdcUnionType
  · rw [if_pos hunion, hunion]
    refine intfField_effect 0 2 fun _ x hx => meets_bind ?_
    replace hx := hw.trans hx
    refine (setField_effect d 3 _ x).mono ?_ fun _ _ he => he
    intro _ y hy
    rw [hx.mem, hw.mem] at hy
    replace hy := hx.trans hy
    refine intfField_setField 1 2 4 id fun hi z hz => ?_
    rw [hy.mem] at hz
    exact ⟨hi, hy.trans hz⟩
  rw [if_neg hunion]
  by_cases hether : byteAt s.mem (d + 2) = usbCdcEthernetType
  · rw [if_pos hether, hether]
    refine intfField_setField 0 8 3 (· + 1) fun hi x hx => ?_
    rw [hw.mem] at hx
    exact ⟨hi, hw.trans hx⟩
  · have hno : ¬IsEthernet usbDtCsInterface (byteAt s.mem (d + 2)) := fun h => hether h.2
    rw [if_neg hether, if_neg hno]
    rw [interfaceRefs_class, if_neg hcall, if_neg hunion, patchNeeds_class,
      if_neg (not_or.mpr ⟨hcall, hunion⟩), if_neg hether]
    exact meets_pure ⟨Nat.zero_le _, hw⟩

/-! ### What is written -/

theorem foldl_patchRef_agree (raw : RawDescs) (refs : List (Nat × Nat)) (d : Nat) (m : Bytes) :
  AgreeOff (fun p => ∃ ref ∈ refs, p = d + ref.1) m (refs.foldl (raw.patchRef d) m)
  := by
  induction refs generalizing m with
  | nil => exact ⟨rfl, fun _ _ => rfl⟩
  | cons ref refs ih =>
      have hrest := ih (raw.patchRef d m ref)
      have hfirst : AgreeOff (fun p => ∃ r ∈ ref :: refs, p = d + r.1) m
          (raw.patchRef d m ref) :=
        AgreeOff.set ⟨rfl, fun _ _ => rfl⟩ _ ⟨ref, List.mem_cons_self, rfl⟩
      apply hfirst.trans
      apply hrest.mono
      rintro p ⟨r, hr, hp⟩
      exact ⟨r, List.mem_cons_of_mem _ hr, hp⟩

/-- What is written are the fields of the descriptor. -/
theorem patchMem_agree (raw : RawDescs) (d : Nat) (m : Bytes) :
  AgreeOff (fun p => ∃ k ∈ patchFields (byteAt m (d + 1)) (byteAt m (d + 2)), p = d + k) m
    (raw.patchMem d m)
  := by
  unfold RawDescs.patchMem patchFields
  split
  · exact AgreeOff.set ⟨rfl, fun _ _ => rfl⟩ _ ⟨3, List.mem_singleton_self _, rfl⟩
  · apply (foldl_patchRef_agree raw _ d m).mono
    rintro p ⟨ref, href, hp⟩
    exact ⟨ref.1, List.mem_map_of_mem href, hp⟩

/-- A byte that is not written. -/
theorem byteAt_patchMem {p : Nat}
    (h : ∀ k ∈ patchFields (byteAt m (d + 1)) (byteAt m (d + 2)), p ≠ d + k) :
  byteAt (raw.patchMem d m) p = byteAt m p
  := by
  refine ((patchMem_agree raw d m).2 p ?_).symm
  rintro ⟨k, hk, hp⟩
  apply h k hk hp

/-- A reference that is written, if the references are written to different bytes, which are not
those that are read. -/
theorem foldl_patchRef_ref {refs : List (Nat × Nat)} {ref : Nat × Nat}
    (hnodup : (refs.map Prod.fst).Nodup) (hlen : ∀ r ∈ refs, d + r.1 < m.length)
    (hsep : ∀ r ∈ refs, ∀ r' ∈ refs, raw.intfAt r.2 + 2 ≠ d + r'.1) (href : ref ∈ refs) :
  byteAt (refs.foldl (raw.patchRef d) m) (d + ref.1) = byteAt m (raw.intfAt ref.2 + 2)
  := by
  induction refs generalizing m with
  | nil => cases href
  | cons r refs ih =>
      obtain ⟨hne, hnodup⟩ := List.nodup_cons.mp hnodup
      rcases List.mem_cons.mp href with rfl | href
      · have hrest := (foldl_patchRef_agree raw refs d (raw.patchRef d m ref)).2
          (d + ref.1)
        rw [List.foldl_cons, ← hrest]
        · exact byteAt_set_eq _ (hlen ref List.mem_cons_self)
        · rintro ⟨r', hr', heq⟩
          rw [Nat.add_left_cancel heq] at hne
          apply hne (List.mem_map_of_mem hr')
      · rw [List.foldl_cons, ih hnodup _ _ href]
        · apply byteAt_set_ne
          exact (hsep ref (List.mem_cons_of_mem _ href) r List.mem_cons_self).symm
        · intro r' hr'
          unfold RawDescs.patchRef
          rw [List.length_set]
          apply hlen r' (List.mem_cons_of_mem _ hr')
        · intro r₁ h₁ r₂ h₂
          apply hsep r₁ (List.mem_cons_of_mem _ h₁) r₂ (List.mem_cons_of_mem _ h₂)

end Effect

theorem interfaceRefs_other {type : UInt8} (hassoc : type ≠ usbDtInterfaceAssociation)
    (hcs : type ≠ usbDtCsInterface) (subType : UInt8) :
  interfaceRefs type subType = []
  := by
  unfold interfaceRefs
  rw [if_neg hassoc, if_neg hcs]

theorem patchFields_other {type : UInt8} (hassoc : type ≠ usbDtInterfaceAssociation)
    (hcs : type ≠ usbDtCsInterface) (subType : UInt8) :
  patchFields type subType = []
  := by
  unfold patchFields
  rw [if_neg fun h => hcs h.1, interfaceRefs_other hassoc hcs]
  rfl

/-- The references of each kind of descriptor. -/
theorem interfaceRefs_cases (type subType : UInt8) :
  interfaceRefs type subType = []
    ∨ type = usbDtInterfaceAssociation ∧ interfaceRefs type subType = [(2, 0)]
    ∨ type = usbDtCsInterface ∧ subType = usbCdcCallManagementType
      ∧ interfaceRefs type subType = [(4, 1)]
    ∨ type = usbDtCsInterface ∧ subType = usbCdcUnionType
      ∧ interfaceRefs type subType = [(3, 0), (4, 1)]
  := by
  unfold interfaceRefs
  split_ifs with hassoc hcs hcall hunion
  · exact .inr (.inl ⟨hassoc, rfl⟩)
  · exact .inr (.inr (.inl ⟨hcs, hcall, rfl⟩))
  · exact .inr (.inr (.inr ⟨hcs, hunion, rfl⟩))
  · exact .inl rfl
  · exact .inl rfl

theorem nodup_interfaceRefs (type subType : UInt8) :
  ((interfaceRefs type subType).map Prod.fst).Nodup
  := by
  rcases interfaceRefs_cases type subType with h | ⟨-, h⟩ | ⟨-, -, h⟩ | ⟨-, -, h⟩
  all_goals
    rw [h]
    decide

/-- The interfaces that are used are those that are needed. -/
theorem lt_patchNeeds {type subType : UInt8} {ref : Nat × Nat}
    (h : ref ∈ interfaceRefs type subType) :
  ref.2 < (patchNeeds type subType).1
  := by
  rcases interfaceRefs_cases type subType with hrefs | ⟨rfl, hrefs⟩ | ⟨rfl, rfl, hrefs⟩
    | ⟨rfl, rfl, hrefs⟩
  all_goals rw [hrefs] at h
  · cases h
  · obtain rfl := List.mem_singleton.mp h
    exact Nat.zero_lt_one
  all_goals
    revert ref
    decide

/-- A reference is behind the subtype of a class descriptor. -/
theorem ref_class {subType : UInt8} {ref : Nat × Nat}
    (h : ref ∈ interfaceRefs usbDtCsInterface subType) :
  ref.1 = 3 ∨ ref.1 = 4
  := by
  rw [interfaceRefs_class] at h
  revert h
  split_ifs
  all_goals
    revert ref
    decide

theorem patchFields_bounds {type subType : UInt8} {k : Nat} (h : k ∈ patchFields type subType) :
  2 ≤ k ∧ k ≤ 4
  := by
  unfold patchFields at h
  split at h
  · obtain rfl := List.mem_singleton.mp h
    decide
  · rcases interfaceRefs_cases type subType with hrefs | ⟨-, hrefs⟩ | ⟨-, -, hrefs⟩ | ⟨-, -, hrefs⟩
    all_goals
      rw [hrefs] at h
      revert k
      decide

/-- A field that is written is a reference, or the string of a CDC Ethernet descriptor. -/
theorem mem_patchFields {type subType : UInt8} {k : Nat} :
  k ∈ patchFields type subType
    ↔ IsEthernet type subType ∧ k = 3 ∨ ∃ ref ∈ interfaceRefs type subType, ref.1 = k
  := by
  unfold patchFields
  by_cases hether : IsEthernet type subType
  · rw [if_pos hether, List.mem_singleton]
    obtain ⟨rfl, rfl⟩ := hether
    have hnone : ∀ ref ∈ interfaceRefs usbDtCsInterface usbCdcEthernetType, ref.1 ≠ k := by
      intro ref href
      cases href
    constructor
    · exact fun hk => .inl ⟨⟨rfl, rfl⟩, hk⟩
    · rintro (⟨-, hk⟩ | ⟨ref, href, hk⟩)
      · exact hk
      · exact absurd hk (hnone ref href)
  · rw [if_neg hether, List.mem_map]
    constructor
    · exact fun h => .inr h
    · rintro (⟨h, -⟩ | h)
      · exact absurd h hether
      · exact h

/-! ### The order of the descriptors -/

section Order

variable {raw : RawDescs} {ffs : FfsData} {us ws : List Visit} {u v w x : Visit}

theorem RawDescs.Valid.size_of_mem (hraw : raw.Valid ffs) (hv : v ∈ raw.all) :
  (byteAt raw.bytes v.offset).toNat = v.size ∧ v.offset + v.size ≤ raw.bytes.length
  := by
  obtain ⟨speed, hv⟩ := RawDescs.mem_all.mp hv
  obtain ⟨-, hstop, -⟩ := hraw.mem hv
  have hle := hraw.stop_le speed
  exact ⟨(hraw.size_eq hv).1, by omega⟩

theorem RawDescs.Valid.before_split (hraw : raw.Valid ffs) (hall : raw.all = us ++ v :: ws)
    (hu : u ∈ us) :
  u.offset + u.size ≤ v.offset
  := by
  have hvisits := hraw.all
  rw [hall] at hvisits
  exact le_of_visits_append (fun _ _ _ => descSize_le) hvisits hu

theorem RawDescs.Valid.behind_split (hraw : raw.Valid ffs) (hall : raw.all = us ++ v :: ws)
    (hx : x ∈ ws) :
  v.offset + v.size ≤ x.offset
  := by
  obtain ⟨vs, ws', rfl⟩ := List.append_of_mem hx
  have hsplit : raw.all = (us ++ v :: vs) ++ x :: ws' := by simp [hall]
  exact hraw.before_split hsplit (by simp)

/-- A descriptor behind another one is the next, or lies behind the next. -/
theorem RawDescs.Valid.next_split (hraw : raw.Valid ffs) (hall : raw.all = us ++ v :: ws)
    (hx : x ∈ ws) :
  x.offset = v.offset + v.size
    ∨ v.offset + v.size + (byteAt raw.bytes (v.offset + v.size)).toNat ≤ x.offset
  := by
  have hvisits := hraw.all
  rw [hall] at hvisits
  obtain ⟨n, len, hrest⟩ := visits_split hvisits
  obtain ⟨k, ws', -, hws, heq⟩ := visits_succ.mp hrest
  obtain ⟨hv, rfl⟩ := List.cons.inj heq
  obtain rfl : v.size = k := congrArg Visit.size hv
  cases n with
  | zero =>
      obtain rfl := Option.some.inj hws
      cases hx
  | succ n =>
      obtain ⟨k', ws', hk', hws', rfl⟩ := visits_succ.mp hws
      have hsize : k' = (byteAt raw.bytes (v.offset + v.size)).toNat := by
        have hy : (⟨v.offset + v.size, k'⟩ : Visit) ∈ raw.all := by simp [hall]
        exact (hraw.size_of_mem hy).1.symm
      rcases List.mem_cons.mp hx with rfl | hx
      · exact .inl rfl
      · have hlt := (mem_visits (fun _ _ _ => descSize_le) hws' hx).1
        exact .inr (hsize ▸ hlt)

theorem RawDescs.Valid.head_split (hraw : raw.Valid ffs) (hall : raw.all = us ++ v :: x :: ws) :
  x.offset = v.offset + v.size
  := by
  have hvisits := hraw.all
  rw [hall] at hvisits
  obtain ⟨n, len, hrest⟩ := visits_split hvisits
  obtain ⟨k, ws', -, hws, heq⟩ := visits_succ.mp hrest
  obtain ⟨hv, rfl⟩ := List.cons.inj heq
  obtain rfl : v.size = k := congrArg Visit.size hv
  cases n with
  | zero => cases hws
  | succ n =>
      obtain ⟨k', ws'', -, -, heq⟩ := visits_succ.mp hws
      exact congrArg Visit.offset (List.cons.inj heq).1

/-- The walks stay at a descriptor without bytes. -/
theorem RawDescs.Valid.stay_split (hraw : raw.Valid ffs) (hall : raw.all = us ++ v :: ws)
    (hzero : v.size = 0) (hx : x ∈ ws) :
  x.offset = v.offset
  := by
  have hvisits := hraw.all
  rw [hall] at hvisits
  obtain ⟨n, len, hrest⟩ := visits_split hvisits
  obtain ⟨k, ws', hk, hws, heq⟩ := visits_succ.mp hrest
  obtain ⟨hv, -⟩ := List.cons.inj heq
  obtain rfl : v.size = k := congrArg Visit.size hv
  rw [hzero] at hk
  exact visits_of_zero hrest hk x (List.mem_cons_of_mem _ hx)

/-- The bytes of a class descriptor behind its type are in no other descriptor, or are the first two
of it. -/
theorem RawDescs.Valid.class_own (hraw : raw.Valid ffs) (hv : v ∈ raw.all) (hw : w ∈ raw.all)
    {j : Nat} (hj : j = 2 ∨ 2 ≤ j ∧ j < v.size) (hstart : w.offset + 2 ≤ v.offset + j)
    (hstop : v.offset + j < w.offset + w.size) :
  v = w
  := by
  have hsizev := (hraw.size_of_mem hv).1
  have hsizew := (hraw.size_of_mem hw).1
  obtain ⟨speed, hv⟩ := RawDescs.mem_all.mp hv
  obtain ⟨speed', hw⟩ := RawDescs.mem_all.mp hw
  rcases hraw.apart hv hw with heq | hbefore | hbehind
  · exact heq
  · have hoffset : v.offset = w.offset := by omega
    rw [hoffset] at hsizev
    omega
  · omega

/-- The interfaces that are used are interfaces of the blob. -/
theorem mem_all_of_intfs (hw : w ∈ raw.intfs) :
  w ∈ raw.all ∧ raw.type w = usbDtInterface
  := by
  have hmem := List.mem_filter.mp hw
  exact ⟨RawDescs.mem_all.mpr ⟨.full, hmem.1⟩, (of_decide_eq_true hmem.2).1⟩

end Order

/-! ### The memory when the patches begin -/

/-- The bytes of the descriptors when the patches begin. -/
structure RawDescs.Settled (raw : RawDescs) (c : UsbConfig) (m : Bytes) : Prop where
  length : m.length = raw.bytes.length
  type : ∀ v ∈ raw.all, byteAt m (v.offset + 1) = raw.type v
  endpoints : ∀ v ∈ raw.all, raw.type v = usbDtInterface →
    byteAt m (v.offset + 4) = byteAt raw.bytes (v.offset + 4)
  classes : ∀ v ∈ raw.all, raw.type v = usbDtCsInterface → ∀ j, j = 2 ∨ 2 ≤ j ∧ j < v.size →
    byteAt m (v.offset + j) = byteAt raw.bytes (v.offset + j)
  written : ∀ v ∈ raw.all, raw.Written c (raw.numbers raw.all) m v

section Settled

variable {raw : RawDescs} {ffs : FfsData} {c : UsbConfig} {s t : Heap BindState}

theorem Numbered.settled (ht : Numbered raw c raw.all s t) (hraw : raw.Valid ffs)
    (hs : EndpointsWalked raw ffs raw.descs s) (hheads : raw.Heads t.mem) :
  raw.Settled c t.mem
  := by
  refine ⟨hheads.length, fun v hv => ?_, fun v hv htype => ?_, fun v hv htype j hj => ?_,
    ht.written⟩
  · obtain ⟨speed, hv⟩ := RawDescs.mem_all.mp hv
    exact hheads.fixed speed v hv 1 (.inl (by decide))
  · obtain ⟨speed, hv⟩ := RawDescs.mem_all.mp hv
    exact hheads.fixed speed v hv 4 (.inr (.inl ⟨htype, rfl⟩))
  · have hclaimed : byteAt raw.bytes (v.offset + j) = byteAt s.mem (v.offset + j) := by
      apply hs.mem.2
      rintro (hres | ⟨speed, w, hw, hep, hfield⟩)
      · have hle := hraw.le_of_reserved hres
        obtain ⟨speed, hv⟩ := RawDescs.mem_all.mp hv
        have hstop := (hraw.mem hv).2.1
        have hosAt := (hraw.stop_le speed).1
        omega
      · obtain ⟨a, ha⟩ := Option.isSome_iff_exists.mp hep
        obtain ⟨-, -, h7, -⟩ := descSize_endpoint (hraw.mem hw).2.2 ha
        unfold EpField at hfield
        obtain rfl := hraw.class_own hv (RawDescs.mem_all.mpr ⟨speed, hw⟩) hj (by omega) (by omega)
        have hclass : ¬descClass (raw.type v) = .endpoint := by
          rw [htype]
          decide
        have hnone : descEndpoint raw.bytes v.offset = none := if_neg hclass
        rw [hnone] at ha
        cases ha
    rw [hclaimed]
    refine (ht.mem.2 _ ?_).symm
    rintro ⟨w, hw, hfield⟩
    obtain ⟨speed, hws⟩ := RawDescs.mem_all.mp hw
    obtain ⟨hstart, hstop⟩ := hraw.numField_lt hws hfield
    obtain rfl := hraw.class_own hv hw hj hstart hstop
    unfold NumField at hfield
    rw [show byteAt raw.bytes (v.offset + 1) = usbDtCsInterface from htype] at hfield
    rcases hfield with ⟨hclass, -⟩ | ⟨hclass, -⟩
    · exact absurd hclass (by decide)
    · exact absurd hclass (by decide)

end Settled

/-! ### The loops -/

/-- What holds of the descriptors that are patched, of those that are ahead, and of the memory,
holds after the next one is patched, if the interfaces that are needed are there. -/
def RawDescs.PatchStep (raw : RawDescs) (I : List Visit → List Visit → Bytes → Prop) : Prop :=
  ∀ us v ws m, raw.all = us ++ v :: ws → I us (v :: ws) m →
    (patchNeeds (byteAt m (v.offset + 1)) (byteAt m (v.offset + 2))).1 ≤ raw.intfs.length →
    I (us ++ [v]) ws (raw.patchMem v.offset m)

section Loops

variable {raw : RawDescs} {ffs : FfsData} {c : UsbConfig} {s u : Heap BindState}
  {I : List Visit → List Visit → Bytes → Prop}

namespace RawDescs.PatchStep

/-- The loop over the descriptors of a speed. -/
theorem descs (hI : raw.PatchStep I) {speed : Speed} (hu : BeforePatches raw ffs u)
    (before after us : List Visit) {vs : List Visit} (hsplit : raw.descs speed = us ++ vs)
    (hall : raw.all = (before ++ us) ++ (vs ++ after))
    (hdescs : s.priv.descState = u.priv.descState) (h : I (before ++ us) (vs ++ after) s.mem) :
  (patchDescs speed (raw.intfs[0]?.map Visit.offset) (raw.intfs[1]?.map Visit.offset) vs.length
      us.length).Meets s
    (fun _ t => I (before ++ (us ++ vs)) after t.mem ∧ t.priv.descState = u.priv.descState)
    (fun _ _ => True)
  := by
  induction vs generalizing us s with
  | nil =>
      refine meets_pure ⟨?_, hdescs⟩
      rw [List.append_nil]
      exact h
  | cons v vs ih =>
      have hv : (raw.descs speed)[us.length]? = some v := by simp [hsplit]
      refine meets_step (hu.descHead speed _ v s hv hdescs) (meets_bind ?_)
      refine (patchDesc_effect v.offset s).mono ?_ fun _ _ he => he
      rintro _ t ⟨hneeds, ht⟩
      have hnext := hI _ _ _ _ hall h hneeds
      rw [List.append_assoc, ← ht.mem] at hnext
      have hrest := ih (us ++ [v]) (by simp [hsplit]) (by simp [hall]) (ht.descs.trans hdescs) hnext
      rw [List.length_append, List.append_assoc, List.singleton_append] at hrest
      exact hrest

/-- The loop over all descriptors of a speed. -/
theorem speed (hI : raw.PatchStep I) (speed : Speed) (hu : BeforePatches raw ffs u)
    (before after : List Visit) (hall : raw.all = before ++ (raw.descs speed ++ after))
    (hdescs : s.priv.descState = u.priv.descState)
    (h : I before (raw.descs speed ++ after) s.mem) :
  (patchDescs speed (raw.intfs[0]?.map Visit.offset) (raw.intfs[1]?.map Visit.offset)
      (ffs.descsCount speed) 0).Meets s
    (fun _ t => I (before ++ raw.descs speed) after t.mem
      ∧ t.priv.descState = u.priv.descState)
    (fun _ _ => True)
  := by
  have hbefore := List.append_nil before
  have hloop := hI.descs hu before after [] (List.nil_append _).symm (hbefore.symm ▸ hall) hdescs
    (hbefore.symm ▸ h)
  rw [hu.valid.length_descs speed] at hloop
  exact hloop

end RawDescs.PatchStep

/-- The interfaces with endpoints are found. -/
theorem findIntfs_effect (hu : BeforePatches raw ffs u) (hm : raw.Settled c u.mem)
    (us : List Visit) {vs : List Visit} (ctl : Option Nat) (hsplit : raw.descs .full = us ++ vs)
    (hs : Patched u.mem u s) :
  (findIntfs vs.length us.length ctl).Meets s
    (fun r t => r = foundIntfs ctl (raw.intfsOf vs) ∧ Patched u.mem u t)
    (fun _ _ => True)
  := by
  induction vs generalizing us s ctl with
  | nil =>
      refine meets_pure ⟨?_, hs⟩
      cases ctl with
      | none => rfl
      | some ctl => rfl
  | cons v vs ih =>
      have hv : (raw.descs .full)[us.length]? = some v := by simp [hsplit]
      have hall : v ∈ raw.all := RawDescs.mem_all.mpr ⟨.full, List.mem_of_getElem? hv⟩
      have hnext : ∀ t ctl, Patched u.mem u t →
          (findIntfs vs.length (us.length + 1) ctl).Meets t
            (fun r t => r = foundIntfs ctl (raw.intfsOf vs) ∧ Patched u.mem u t)
            fun _ _ => True := by
        intro t ctl ht
        have hrest := ih (us ++ [v]) ctl (by simp [hsplit]) ht
        rw [List.length_append] at hrest
        exact hrest
      rw [List.length_cons, findIntfs_succ]
      refine meets_step (hu.descHead .full _ v s hv hs.descs) ?_
      refine meets_bind ((getField_effect v.offset 1 s).mono ?_ fun _ _ he => he)
      rintro _ t ⟨rfl, ht⟩
      rw [hs.mem, hm.type v hall]
      replace ht := hs.trans ht
      rw [hs.mem] at ht
      unfold findTyped
      by_cases htype : raw.type v = usbDtInterface
      case neg =>
        have hskip : raw.intfsOf (v :: vs) = raw.intfsOf vs :=
          List.filter_cons_of_neg (by simp [htype])
        rw [if_neg htype, hskip]
        exact hnext t ctl ht
      rw [if_pos htype]
      refine meets_bind ((getField_effect v.offset 4 t).mono ?_ fun _ _ he => he)
      rintro _ w ⟨rfl, hw⟩
      rw [ht.mem, hm.endpoints v hall htype]
      replace hw := ht.trans hw
      rw [ht.mem] at hw
      by_cases hnum : 0 < byteAt raw.bytes (v.offset + 4)
      case neg =>
        have hskip : raw.intfsOf (v :: vs) = raw.intfsOf vs :=
          List.filter_cons_of_neg (by simp [hnum])
        rw [if_neg hnum, hskip]
        exact hnext w ctl hw
      have htake : raw.intfsOf (v :: vs) = v :: raw.intfsOf vs :=
        List.filter_cons_of_pos (by simp [htype, hnum])
      rw [if_pos hnum, htake]
      cases ctl with
      | none => exact hnext w (some v.offset) hw
      | some ctl => exact meets_pure ⟨rfl, hw⟩

/-- All loops. -/
theorem RawDescs.PatchStep.func (hI : raw.PatchStep I) (hu : BeforePatches raw ffs u)
    (hm : raw.Settled c u.mem) (h : I [] raw.all u.mem) :
  patchFunc.Meets u (fun _ t => I raw.all [] t.mem) fun _ _ => True
  := by
  unfold patchFunc
  refine meets_step (run_look u) ?_
  dsimp only
  rw [hu.ffs_eq]
  have hfind := findIntfs_effect hu hm [] none (List.nil_append _).symm ⟨rfl, rfl⟩
  rw [hu.valid.length_descs .full] at hfind
  refine meets_bind (hfind.mono ?_ fun _ _ he => he)
  rintro _ s ⟨rfl, hs⟩
  have hfull := hI.speed .full hu [] (raw.descs .high ++ raw.descs .super) rfl hs.descs (hs.mem ▸ h)
  refine meets_bind (hfull.mono ?_ fun _ _ he => he)
  rintro _ t ⟨ht, hdescs⟩
  have hhigh := hI.speed .high hu (raw.descs .full) (raw.descs .super) rfl hdescs ht
  refine meets_bind (hhigh.mono ?_ fun _ _ he => he)
  rintro _ v ⟨hv, hdescs⟩
  have hsuper := hI.speed .super hu (raw.descs .full ++ raw.descs .high) []
    (by simp [RawDescs.all]) hdescs (by simpa using hv)
  refine hsuper.mono ?_ fun _ _ he => he
  rintro _ w ⟨hw, -⟩
  simpa [RawDescs.all] using hw

end Loops

/-! ### Different numbers -/

section Ids

variable {c : UsbConfig} {keys : List UInt8} {n n' : UInt8}

/-- The ids that `usb_interface_id` gives are bytes, and each call gives another one. -/
structure UsbConfig.FreshIds (c : UsbConfig) : Prop where
  byte : ∀ k, c.interfaceId k < 256
  fresh : ∀ j k, 0 ≤ c.interfaceId j → c.interfaceId j = c.interfaceId k → j = k

/-- The ids of a configuration of which some are taken. -/
theorem freshIds_of_range {d k : Nat} (hle : k + d ≤ 256)
    (hc : ∀ n : Nat, c.interfaceId n = if n < k then (n : Int) + d else -enodev) :
  c.FreshIds
  := by
  constructor
  · intro n
    rw [hc n]
    split
    · omega
    · decide
  · intro i j hi heq
    rw [hc i] at hi heq
    rw [hc j] at heq
    unfold enodev at hi heq
    split_ifs at hi heq
    all_goals omega

theorem UsbConfig.FreshIds.newNumber_inj (hc : c.FreshIds) {func : BindState}
    (hg : func.Gave c keys) (hn : n ∈ keys) (hn' : n' ∈ keys) :
  c.newNumber keys n = c.newNumber keys n' ↔ n = n'
  := by
  constructor
  swap
  · rintro rfl
    rfl
  intro heq
  have hentry : ∀ k ∈ keys, 0 ≤ c.entry keys k ∧ c.entry keys k < 256 := by
    intro k hk
    refine ⟨hg.entry_nonneg hk, ?_⟩
    unfold UsbConfig.entry Numbering.numberOf
    rw [if_pos hk]
    apply hc.byte
  have hsame : c.entry keys n = c.entry keys n' := by
    have hnat := congrArg UInt8.toNat heq
    have hlt := hentry n hn
    have hlt' := hentry n' hn'
    unfold UsbConfig.newNumber u8 at hnat
    rw [UInt8.toNat_ofNat', UInt8.toNat_ofNat'] at hnat
    omega
  apply Numbering.numberOf_inj _ hn
  · unfold UsbConfig.entry Numbering.numberOf at hsame
    rw [if_pos hn, if_pos hn'] at hsame
    unfold Numbering.numberOf
    rw [if_pos hn, if_pos hn']
    exact congrArg some hsame
  · exact fun i j hi _ hij => hc.fresh i j (hg.given i hi) hij

end Ids

/-- What a bind that comes to its end has done. -/
theorem ffsFuncBind_ok {s u : Heap BindState} (h : (ffsFuncBind c).run s = .ok () u) :
  ∃ lens t v, (bindPasses c).run s = .ok lens t ∧ patchFunc.run t = .ok () v ∧ u.mem = v.mem
    ∧ u.priv = { v.priv with bound := true }
  := by
  unfold ffsFuncBind at h
  obtain ⟨lens, t, hpasses, h⟩ := run_bind_ok.mp h
  obtain ⟨_, v, hpatch, h⟩ := run_bind_ok.mp h
  cases h
  exact ⟨lens, t, v, hpasses, hpatch, rfl, rfl⟩

end Ffs
