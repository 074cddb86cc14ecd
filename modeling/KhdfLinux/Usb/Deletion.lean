import KhdfLinux.Usb.DeviceNumbers

/-!
# The deletion of functions

`FUNCTIONFS_DELFN` goes from a name to an instance and from there to its function, through
pointers that may be null.  `delfn_safe_iff`: in every state of the registry the request
deletes the function its name belongs to exactly if the instance is found, has its function
linked, and that function was created under this name.  No pointer ever leads to a function
that was freed.
-/

namespace Ffs

/-- The function has got its strings. -/
def FuncData.Ready (ffs : FuncData) : Prop :=
  ffs.state ≠ .readDescriptors ∧ ffs.state ≠ .readStrings

namespace Registry

/-- The request to delete the function of a name fails and changes nothing, or takes down and
frees exactly the function that was created under this name; the other instances stay as they
are. -/
def DelfnSafe (s : Registry) (name : Bytes) : Prop :=
  ∃ t ret, s.delfn (some name) = .ok (t, ret)
    ∧ ((ret < 0 ∧ t = s)
      ∨ ∃ ffs ∈ s.live, ffs.name = name ∧ t.live = s.live.erase ffs ∧ t.gone = ffs :: s.gone
        ∧ ∀ dev ∈ s.devs, some dev.addr ≠ ffs.privateData → dev ∈ t.devs)

/-- The instance found for the name has a function that was created under this name, and its
descriptors and strings were accepted; and if it is bound, configfs can unregister the
gadget. -/
def Deletable (s : Registry) (name : Bytes) : Prop :=
  ∃ dev, s.findDev name = some dev ∧ dev.descReady
    ∧ ∃ ffs ∈ s.live, dev.ffsData = some ffs.id ∧ ffs.name = name
      ∧ (ffs.gadget → s.unregisters ffs.privateData)

/-- The invariant of the registry: an instance that is ready is linked to a function that is
ready and points back to it, and a function that was freed does not wait for strings. -/
structure Consistent (s : Registry) : Prop where
  linked : ∀ dev ∈ s.devs, ∀ id, dev.ffsData = some id →
    ∃ ffs ∈ s.live, ffs.id = id ∧ ffs.privateData = some dev.addr ∧ ffs.Ready
  ready : ∀ dev ∈ s.devs, dev.descReady = dev.ffsData.isSome
  ids : (s.live.map FuncData.id).Nodup
  old : ∀ ffs ∈ s.live, ffs.id < s.next
  gone : ∀ ffs ∈ s.gone, ffs.state ≠ .readStrings

variable {s t : Registry}

/-! ### What the operations keep -/

/-- A change to instances that keeps their links. -/
theorem Consistent.modifyDev (h : s.Consistent) (addr : Nat) {f : FfsDev → FfsDev}
    (haddr : ∀ dev, (f dev).addr = dev.addr) (hready : ∀ dev, (f dev).descReady = dev.descReady)
    (hdata : ∀ dev, (f dev).ffsData = dev.ffsData) :
  (s.modifyDev addr f).Consistent
  := by
  have hdevs : ∀ dev ∈ (s.modifyDev addr f).devs, ∃ dev' ∈ s.devs,
      dev.addr = dev'.addr ∧ dev.descReady = dev'.descReady ∧ dev.ffsData = dev'.ffsData := by
    intro dev hdev
    obtain ⟨dev', hdev', rfl⟩ := List.mem_map.mp hdev
    refine ⟨dev', hdev', ?_⟩
    split_ifs
    · exact ⟨haddr dev', hready dev', hdata dev'⟩
    · exact ⟨rfl, rfl, rfl⟩
  refine ⟨?_, ?_, h.ids, h.old, h.gone⟩
  · intro dev hdev id hid
    obtain ⟨dev', hdev', haddr', -, hdata'⟩ := hdevs dev hdev
    rw [haddr']
    exact h.linked dev' hdev' id (hdata' ▸ hid)
  · intro dev hdev
    obtain ⟨dev', hdev', -, hready', hdata'⟩ := hdevs dev hdev
    rw [hready', hdata']
    apply h.ready dev' hdev'

/-- A change to functions that keeps what the instances know of them. -/
theorem Consistent.modifyData (h : s.Consistent) (id : Nat) {f : FuncData → FuncData}
    (hid : ∀ ffs, (f ffs).id = ffs.id) (hprivate : ∀ ffs, (f ffs).privateData = ffs.privateData)
    (hready : ∀ ffs, ffs.Ready → (f ffs).Ready) :
  (s.modifyData id f).Consistent
  := by
  have hids : (s.modifyData id f).live.map FuncData.id = s.live.map FuncData.id := by
    simp only [Registry.modifyData, List.map_map]
    apply List.map_congr_left
    intro ffs _
    simp only [Function.comp_apply]
    split_ifs
    · apply hid ffs
    · rfl
  refine ⟨?_, h.ready, by rw [hids]; exact h.ids, ?_, h.gone⟩
  · intro dev hdev id' hid'
    obtain ⟨ffs, hffs, heq, hprivate', hready'⟩ := h.linked dev hdev id' hid'
    refine ⟨_, List.mem_map_of_mem hffs, ?_⟩
    split_ifs
    · exact ⟨(hid ffs).trans heq, (hprivate ffs).trans hprivate', hready ffs hready'⟩
    · exact ⟨heq, hprivate', hready'⟩
  · intro ffs hffs
    have hmem := List.mem_map_of_mem (f := FuncData.id) hffs
    rw [hids] at hmem
    obtain ⟨ffs', hffs', heq⟩ := List.mem_map.mp hmem
    rw [← heq]
    apply h.old ffs' hffs'

/-- Functions with the same id are the same. -/
theorem Consistent.eq_of_id (h : s.Consistent) {ffs ffs' : FuncData} (hffs : ffs ∈ s.live)
    (hffs' : ffs' ∈ s.live) (heq : ffs.id = ffs'.id) :
  ffs = ffs'
  := List.inj_on_of_nodup_map h.ids hffs hffs' heq

/-- What an instance is linked to can be reached, and points back. -/
theorem Consistent.derefData (h : s.Consistent) {dev : FfsDev} (hdev : dev ∈ s.devs)
    (hready : dev.descReady) :
  ∃ ffs ∈ s.live, s.derefData dev = .ok ffs ∧ dev.ffsData = some ffs.id
    ∧ ffs.privateData = some dev.addr ∧ ffs.Ready
  := by
  rw [h.ready dev hdev] at hready
  obtain ⟨id, hid⟩ := Option.isSome_iff_exists.mp hready
  obtain ⟨ffs, hffs, rfl, hprivate, hstate⟩ := h.linked dev hdev id hid
  refine ⟨ffs, hffs, ?_, hid, hprivate, hstate⟩
  have hfind : (s.live.find? fun ffs' => ffs'.id = ffs.id).isSome := by
    rw [List.find?_isSome]
    exact ⟨ffs, hffs, by simp⟩
  obtain ⟨ffs', hfind⟩ := Option.isSome_iff_exists.mp hfind
  have heq := List.find?_some hfind
  rw [decide_eq_true_eq] at heq
  obtain rfl := h.eq_of_id (List.mem_of_find?_eq_some hfind) hffs heq
  simp only [Registry.derefData, hid, hfind]

/-- An instance whose link can be followed is ready. -/
theorem Consistent.ready_of_derefData (h : s.Consistent) {dev : FfsDev} (hdev : dev ∈ s.devs)
    {ffs : FuncData} (hdata : s.derefData dev = .ok ffs) :
  dev.descReady
  := by
  rw [h.ready dev hdev, (mem_of_derefData hdata).2]
  rfl

theorem Consistent.releaseDev (h : s.Consistent) (privateData : Option Nat) :
  (s.releaseDev privateData).Consistent
  := by
  cases privateData with
  | none => exact h
  | some addr => exact h.modifyDev addr (fun _ => rfl) (fun _ => rfl) (fun _ => rfl)

theorem mem_closed {addr : Nat} {dev : FfsDev} (h : dev ∈ (s.closed addr).devs) :
  (dev.descReady = false ∧ dev.ffsData = none) ∨ (dev ∈ s.devs ∧ dev.addr ≠ addr)
  := by
  obtain ⟨dev', hdev', rfl⟩ := List.mem_map.mp h
  split_ifs with haddr
  · exact .inl ⟨rfl, rfl⟩
  · exact .inr ⟨hdev', haddr⟩

/-- To close the function of an instance unlinks the instance. -/
theorem Consistent.closed (h : s.Consistent) (privateData : Option Nat) :
  (s.closed privateData).Consistent
  := by
  cases privateData with
  | none => exact h
  | some addr =>
      refine ⟨?_, ?_, h.ids, h.old, h.gone⟩
      · intro dev hdev id hid
        obtain ⟨-, hnone⟩ | ⟨hdev, -⟩ := mem_closed hdev
        · rw [hnone] at hid
          cases hid
        · apply h.linked dev hdev id hid
      · intro dev hdev
        obtain ⟨hready, hnone⟩ | ⟨hdev, -⟩ := mem_closed hdev
        · rw [hready, hnone]
          rfl
        · apply h.ready dev hdev

/-- To take down a ready function leaves no instance linked to it. -/
theorem Consistent.tearDown (h : s.Consistent) {ffs : FuncData} (hffs : ffs ∈ s.live)
    (hready : ffs.Ready) (hprivate : ffs.privateData.isSome) :
  (s.tearDown ffs).Consistent
  := by
  obtain ⟨addr, haddr⟩ := Option.isSome_iff_exists.mp hprivate
  have hclosed := (h.releaseDev (some addr)).closed (some addr)
  unfold Registry.tearDown
  rw [haddr]
  refine ⟨?_, hclosed.ready, ?_, ?_, ?_⟩
  · intro dev hdev id hid
    obtain ⟨ffs', hffs', heq, hprivate', hready'⟩ := hclosed.linked dev hdev id hid
    refine ⟨ffs', (List.mem_erase_of_ne ?_).mpr hffs', heq, hprivate', hready'⟩
    rintro rfl
    obtain ⟨-, hnone⟩ | ⟨-, hne⟩ := mem_closed hdev
    · rw [hnone] at hid
      cases hid
    · apply hne (Option.some.inj (hprivate'.symm.trans haddr))
  · apply h.ids.sublist (List.erase_sublist.map _)
  · exact fun ffs' hffs' => h.old ffs' (List.mem_of_mem_erase hffs')
  · intro ffs' hffs'
    obtain rfl | hffs' := List.mem_cons.mp hffs'
    · exact hready.2
    · apply h.gone ffs' hffs'

/-- To free an instance takes it off the list, and its function points nowhere. -/
theorem Consistent.freeDev (h : s.Consistent) {dev : FfsDev} (hdev : dev ∈ s.devs) :
  (s.freeDev dev).Consistent
  := by
  unfold Registry.freeDev
  cases hdata : dev.ffsData with
  | none =>
      refine ⟨?_, ?_, h.ids, h.old, h.gone⟩
      · exact fun dev' hdev' => h.linked dev' (List.mem_of_mem_filter hdev')
      · exact fun dev' hdev' => h.ready dev' (List.mem_of_mem_filter hdev')
  | some id =>
      have hids : (s.live.map fun ffs =>
          if ffs.id = id then { ffs with privateData := none } else ffs).map FuncData.id
            = s.live.map FuncData.id := by
        rw [List.map_map]
        apply List.map_congr_left
        intro ffs _
        simp only [Function.comp_apply]
        split_ifs <;> rfl
      refine ⟨?_, ?_, ?_, ?_, h.gone⟩
      · intro dev' hdev' id' hid'
        obtain ⟨hdev', haddr⟩ := List.mem_filter.mp hdev'
        obtain ⟨ffs, hffs, heq, hprivate, hready⟩ := h.linked dev' hdev' id' hid'
        refine ⟨ffs, ?_, heq, hprivate, hready⟩
        refine List.mem_map.mpr ⟨ffs, hffs, if_neg fun hid => ?_⟩
        obtain ⟨ffs', hffs', heq', hprivate', -⟩ := h.linked dev hdev id hdata
        obtain rfl := h.eq_of_id hffs hffs' (hid.trans heq'.symm)
        rw [hprivate] at hprivate'
        simp [Option.some.inj hprivate'] at haddr
      · exact fun dev' hdev' => h.ready dev' (List.mem_of_mem_filter hdev')
      · simp only [Registry.modifyData]
        rw [hids]
        apply h.ids
      · intro ffs hffs
        have hmem := List.mem_map_of_mem (f := FuncData.id) hffs
        simp only [Registry.modifyData] at hmem
        rw [hids] at hmem
        obtain ⟨ffs', hffs', heq⟩ := List.mem_map.mp hmem
        rw [← heq]
        apply h.old ffs' hffs'

theorem Consistent.allocInst (h : s.Consistent) (addr : Nat) (configfs : Bool) :
  (s.allocInst addr configfs).1.Consistent
  := by
  unfold Registry.allocInst
  split_ifs
  · apply h
  · refine ⟨?_, ?_, h.ids, h.old, h.gone⟩
    · intro dev hdev id hid
      obtain rfl | hdev := List.mem_cons.mp hdev
      · cases hid
      · apply h.linked dev hdev id hid
    · intro dev hdev
      obtain rfl | hdev := List.mem_cons.mp hdev
      · rfl
      · apply h.ready dev hdev

theorem Consistent.setInstName (h : s.Consistent) (addr : Nat) (name : Bytes) :
  (s.setInstName addr name).1.Consistent
  := by
  unfold Registry.setInstName
  dsimp only
  split_ifs
  · apply h
  · cases doFindDev s.devs (functionGeneric ++ name) with
    | none => exact h.modifyDev addr (fun _ => rfl) (fun _ => rfl) (fun _ => rfl)
    | some existing => exact h

theorem Consistent.singleDev (h : s.Consistent) (addr : Nat) :
  (s.singleDev addr).1.Consistent
  := by
  unfold Registry.singleDev
  split
  · exact h.modifyDev addr (fun _ => rfl) (fun _ => rfl) (fun _ => rfl)
  · apply h

/-- A new function is linked to by no instance. -/
theorem Consistent.newfn (h : s.Consistent) (name : Bytes) (prepare : Int) (major : Option Nat)
    (cdevAdded deviceCreated : Bool) :
  (s.newfn name prepare major cdevAdded deviceCreated).1.Consistent
  := by
  unfold Registry.newfn
  by_cases hprepare : prepare ≠ 0
  · rw [if_pos hprepare]
    apply h
  rw [if_neg hprepare]
  cases s.findDev name with
  | none => exact h
  | some dev =>
      dsimp only
      by_cases hmounted : dev.mounted
      · rw [if_pos hmounted]
        apply h
      rw [if_neg hmounted]
      have hmount := h.modifyDev dev.addr (f := fun dev => { dev with mounted := true })
        (fun _ => rfl) (fun _ => rfl) (fun _ => rfl)
      cases major with
      | none => exact (hmount.releaseDev (some dev.addr)).closed (some dev.addr)
      | some m =>
          have hregion : Consistent { s.modifyDev dev.addr fun dev => { dev with mounted := true }
              with gDev := m, regions := m :: s.regions } :=
            ⟨hmount.linked, hmount.ready, hmount.ids, hmount.old, hmount.gone⟩
          dsimp only
          split_ifs with hfails
          · exact (hregion.releaseDev (some dev.addr)).closed (some dev.addr)
          · refine ⟨?_, hmount.ready, ?_, ?_, h.gone⟩
            · intro dev' hdev' id hid
              obtain ⟨ffs, hffs, hlink⟩ := hmount.linked dev' hdev' id hid
              exact ⟨ffs, List.mem_cons_of_mem _ hffs, hlink⟩
            · refine List.nodup_cons.mpr ⟨fun hin => ?_, h.ids⟩
              obtain ⟨ffs, hffs, heq⟩ := List.mem_map.mp hin
              apply Nat.ne_of_lt (h.old ffs hffs) heq
            · intro ffs hffs
              obtain rfl | hffs := List.mem_cons.mp hffs
              · apply Nat.lt_succ_self _
              · apply Nat.lt_succ_of_lt (h.old ffs hffs)

/-- The instance a function points to is linked to it. -/
theorem Consistent.link (h : s.Consistent) {ffs : FuncData} (hffs : ffs ∈ s.live) {addr : Nat}
    (hprivate : ffs.privateData = some addr) {f : FuncData → FuncData}
    (hid : ∀ ffs, (f ffs).id = ffs.id) (hkeeps : ∀ ffs, (f ffs).privateData = ffs.privateData)
    (hready : ∀ ffs, (f ffs).Ready) :
  ((s.modifyDev addr fun dev =>
      { dev with descReady := true, ffsData := some ffs.id }).modifyData ffs.id f).Consistent
  := by
  have hdata := h.modifyData ffs.id hid hkeeps (fun ffs _ => hready ffs)
  refine ⟨?_, ?_, hdata.ids, hdata.old, h.gone⟩
  · intro dev hdev id hlink
    obtain ⟨dev', hdev', rfl⟩ := List.mem_map.mp hdev
    by_cases haddr : dev'.addr = addr
    · rw [if_pos haddr] at hlink ⊢
      refine ⟨f ffs, List.mem_map.mpr ⟨ffs, hffs, if_pos rfl⟩, ?_, ?_, hready ffs⟩
      · exact (hid ffs).trans (Option.some.inj hlink)
      · rw [hkeeps, hprivate, haddr]
    · rw [if_neg haddr] at hlink ⊢
      apply hdata.linked dev' hdev' id hlink
  · intro dev hdev
    obtain ⟨dev', hdev', rfl⟩ := List.mem_map.mp hdev
    split_ifs
    · rfl
    · apply h.ready dev' hdev'

/-- `ffs_ready` fails and changes nothing, or links the instance. -/
theorem ffsReady_cases (s : Registry) (ffs : FuncData) :
  (∃ ret, s.ffsReady ffs = (s, ret))
    ∨ ∃ addr, ffs.privateData = some addr
      ∧ s.ffsReady ffs
        = (s.modifyDev addr fun dev => { dev with descReady := true, ffsData := some ffs.id }, 0)
  := by
  unfold ffsReady
  cases ffs.privateData with
  | none => exact .inl ⟨_, rfl⟩
  | some addr =>
      dsimp only
      split_ifs
      · exact .inl ⟨_, rfl⟩
      · exact .inr ⟨addr, rfl, rfl⟩

/-- The strings of a function that waits for them: no instance was linked to it, and the one
it points to is linked to it if `ffs_ready` succeeds. -/
theorem Consistent.gotStrings (h : s.Consistent) {id made : Nat} {complete : Bool}
    (ht : s.gotStrings id made complete = .ok t) :
  t.Consistent
  := by
  unfold Registry.gotStrings at ht
  cases hfind : s.live.find? fun ffs => ffs.id = id with
  | none =>
      simp only [hfind] at ht
      split_ifs at ht
      obtain rfl := Except.ok.inj ht
      apply h
  | some ffs =>
      have hffs := List.mem_of_find?_eq_some hfind
      have hid := List.find?_some hfind
      rw [decide_eq_true_eq] at hid
      simp only [hfind] at ht
      by_cases hstate : ffs.state ≠ .readStrings
      · rw [if_pos hstate] at ht
        obtain rfl := Except.ok.inj ht
        apply h
      rw [if_neg hstate] at ht
      by_cases hcomplete : ¬complete
      · rw [if_pos hcomplete] at ht
        obtain rfl := Except.ok.inj ht
        refine h.modifyData id (fun _ => rfl) (fun _ => rfl) (fun ffs _ => ?_)
        exact ⟨nofun, nofun⟩
      rw [if_neg hcomplete] at ht
      obtain rfl := Except.ok.inj ht
      obtain ⟨ret, hret⟩ | ⟨addr, hprivate, hret⟩ := ffsReady_cases s ffs
      · simp only [hret]
        refine h.modifyData id (fun _ => rfl) (fun _ => rfl) (fun ffs _ => ?_)
        constructor
        · dsimp only
          split_ifs <;> nofun
        · dsimp only
          split_ifs <;> nofun
      · simp only [hret, ← hid]
        refine h.link hffs hprivate (fun _ => rfl) (fun _ => rfl) (fun ffs => ?_)
        exact ⟨nofun, nofun⟩

/-- To bind a function sets its gadget. -/
theorem Consistent.bind (h : s.Consistent) {dev : FfsDev} {ret : Int}
    (ht : s.bind dev = .ok (t, ret)) :
  t.Consistent
  := by
  unfold Registry.bind at ht
  by_cases hready : ¬dev.descReady
  · rw [if_pos hready] at ht
    cases ht
    apply h
  rw [if_neg hready] at ht
  cases hdata : s.derefData dev with
  | error e =>
      simp only [hdata] at ht
      cases ht
  | ok ffs =>
      simp only [hdata] at ht
      split_ifs at ht
      · cases ht
        apply h
      · cases ht
        exact h.modifyData ffs.id (fun _ => rfl) (fun _ => rfl) (fun _ hready => hready)

/-- A step keeps the registry consistent. -/
theorem Consistent.step (h : s.Consistent) {a : RegAct} (ht : s.step a = some t) :
  t.Consistent
  := by
  cases a with
  | allocInst addr configfs =>
      simp only [Registry.step] at ht
      split_ifs at ht
      obtain rfl := Option.some.inj ht
      apply h.allocInst addr configfs
  | setInstName addr name =>
      obtain rfl := Option.some.inj ht
      apply h.setInstName addr name
  | singleDev addr =>
      obtain rfl := Option.some.inj ht
      apply h.singleDev addr
  | freeInst addr =>
      obtain ⟨dev, hdev, rfl⟩ := Option.map_eq_some_iff.mp ht
      exact h.freeDev (List.mem_of_find?_eq_some hdev)
  | newfn name prepare major cdevAdded deviceCreated =>
      simp only [Registry.step] at ht
      split_ifs at ht
      obtain rfl := Option.some.inj ht
      apply h.newfn name prepare major cdevAdded deviceCreated
  | delfn newfn =>
      obtain ⟨-, rfl⟩ | ⟨name, dev, ffs, -, hfind, hdata, rfl⟩ := delfn_cases ht
      · apply h
      · have hdev := (mem_of_findDev hfind).1
        obtain ⟨ffs', hffs, hdata', -, hprivate, hready⟩ :=
          h.derefData hdev (h.ready_of_derefData hdev hdata)
        obtain rfl := Except.ok.inj (hdata.symm.trans hdata')
        exact h.tearDown hffs hready (by rw [hprivate]; rfl)
  | gotDescs id =>
      obtain rfl := Option.some.inj ht
      refine h.modifyData id (fun ffs => ?_) (fun ffs => ?_) (fun ffs hready => ?_)
      · split_ifs <;> rfl
      · split_ifs <;> rfl
      · rw [if_neg hready.1]
        apply hready
  | gotStrings id made complete =>
      cases hstrings : s.gotStrings id made complete with
      | error e =>
          simp only [Registry.step, hstrings] at ht
          cases ht
      | ok u =>
          simp only [Registry.step, hstrings] at ht
          obtain rfl := Option.some.inj ht
          apply h.gotStrings hstrings
  | bind addr =>
      obtain ⟨dev, -, hbind⟩ := Option.bind_eq_some_iff.mp ht
      cases hres : s.bind dev with
      | error e =>
          rw [hres] at hbind
          cases hbind
      | ok res =>
          rw [hres] at hbind
          obtain rfl := Option.some.inj hbind
          apply h.bind hres
  | unbind id =>
      obtain rfl := Option.some.inj ht
      exact h.modifyData id (fun _ => rfl) (fun _ => rfl) (fun _ hready => hready)

/-! ### The requests in a consistent registry -/

/-- The request deletes the function of the name exactly if it can be deleted. -/
theorem Consistent.delfnSafe_iff (h : s.Consistent) (name : Bytes) :
  s.DelfnSafe name ↔ s.Deletable name
  := by
  constructor
  · rintro ⟨t, ret, hdelfn, hsafe⟩
    simp only [delfn] at hdelfn
    cases hfind : s.findDev name with
    | none =>
        simp only [hfind] at hdelfn
        cases hdelfn
    | some dev =>
        simp only [hfind] at hdelfn
        cases hdata : s.derefData dev with
        | error e =>
            simp only [hdata] at hdelfn
            cases hdelfn
        | ok ffs =>
            simp only [hdata] at hdelfn
            split_ifs at hdelfn with hbug
            cases hdelfn
            obtain ⟨hret, -⟩ | ⟨ffs', hffs', hname, -, hgone, -⟩ := hsafe
            · exact absurd hret (by decide)
            obtain rfl : ffs = ffs' := (List.cons.inj hgone).1
            have hdev := (mem_of_findDev hfind).1
            refine ⟨dev, hfind, h.ready_of_derefData hdev hdata, ffs, hffs',
              (mem_of_derefData hdata).2, hname, fun hgadget => ?_⟩
            by_contra hnot
            exact hbug ⟨hgadget, hnot⟩
  · rintro ⟨dev, hfind, hready, ffs, hffs, hlink, hname, hbound⟩
    obtain ⟨ffs', hffs', hdata, hlink', -, -⟩ := h.derefData (mem_of_findDev hfind).1 hready
    obtain rfl := h.eq_of_id hffs hffs' (Option.some.inj (hlink.symm.trans hlink'))
    refine ⟨s.tearDown ffs, 0, ?_, .inr ⟨ffs, hffs, hname, rfl, rfl, ?_⟩⟩
    · have hnot : ¬(ffs.gadget ∧ ¬s.unregisters ffs.privateData) := by tauto
      simp only [delfn, hfind, hdata, if_neg hnot]
    · intro dev' hdev' haddr
      have hkept : ∀ u : Registry, dev' ∈ u.devs → ∀ (addr : Nat) (f : FfsDev → FfsDev),
          ffs.privateData = some addr → dev' ∈ (u.modifyDev addr f).devs := by
        intro u hu addr f hprivate
        refine List.mem_map.mpr ⟨dev', hu, if_neg fun heq => haddr ?_⟩
        rw [hprivate, heq]
      unfold Registry.tearDown
      cases hprivate : ffs.privateData with
      | none => exact hdev'
      | some addr => exact hkept _ (hkept s hdev' addr _ hprivate) addr _ hprivate

/-- The link of an instance that is not ready is null. -/
theorem Consistent.derefData_ne (h : s.Consistent) {dev : FfsDev} (hdev : dev ∈ s.devs) :
  s.derefData dev ≠ .error .useAfterFree
  := by
  by_cases hready : dev.descReady
  · obtain ⟨ffs, -, hdata, -⟩ := h.derefData hdev hready
    rw [hdata]
    nofun
  · have hlink := h.ready dev hdev
    rw [Bool.not_eq_true] at hready
    rw [hready] at hlink
    have hnone := Option.isNone_iff_eq_none.mp (Option.isSome_eq_false_iff.mp hlink.symm)
    rw [Registry.derefData, hnone]
    nofun

/-- No request follows a link to a function that was freed. -/
theorem Consistent.reaches_no_freed (h : s.Consistent) :
  (∀ newfn, s.delfn newfn ≠ .error .useAfterFree)
    ∧ (∀ id made complete, ∃ t, s.gotStrings id made complete = .ok t)
    ∧ ∀ dev ∈ s.devs, ∃ t ret, s.bind dev = .ok (t, ret)
  := by
  refine ⟨?_, ?_, ?_⟩
  · intro newfn heq
    cases newfn with
    | none => cases heq
    | some name =>
        simp only [delfn] at heq
        cases hfind : s.findDev name with
        | none =>
            simp only [hfind] at heq
            cases heq
        | some dev =>
            simp only [hfind] at heq
            have hne := h.derefData_ne (mem_of_findDev hfind).1
            cases hdata : s.derefData dev with
            | error e =>
                simp only [hdata, Except.error.injEq] at heq
                exact hne (heq ▸ hdata)
            | ok ffs =>
                simp only [hdata] at heq
                split_ifs at heq
                cases heq
  · intro id made complete
    unfold Registry.gotStrings
    cases hfind : s.live.find? fun ffs => ffs.id = id with
    | none =>
        have hgone : ¬(s.gone.any fun ffs => ffs.id = id ∧ ffs.state = .readStrings) := by
          rw [List.any_eq_true]
          rintro ⟨ffs, hffs, hstate⟩
          rw [decide_eq_true_eq] at hstate
          apply h.gone ffs hffs hstate.2
        exact ⟨s, if_neg hgone⟩
    | some ffs =>
        dsimp only
        by_cases hstate : ffs.state ≠ .readStrings
        · exact ⟨s, if_pos hstate⟩
        · rw [if_neg hstate]
          by_cases hcomplete : ¬complete
          · exact ⟨_, if_pos hcomplete⟩
          · exact ⟨_, if_neg hcomplete⟩
  · intro dev hdev
    unfold Registry.bind
    by_cases hready : dev.descReady
    · obtain ⟨ffs, -, hdata, -⟩ := h.derefData hdev hready
      rw [if_neg (not_not.mpr hready), hdata]
      dsimp only
      split_ifs
      · exact ⟨_, _, rfl⟩
      · exact ⟨_, _, rfl⟩
    · exact ⟨s, -enodev, if_pos hready⟩

/-- In every state the registry reaches, the request to delete the function of a name fails
and changes nothing, or deletes exactly that function, if and only if the instance found for
the name has its function linked, and that function was created under this name; and no
request reaches a function that was freed. -/
theorem delfn_safe_iff {as : List RegAct}
    (h : Run (fun s a t => s.step a = some t) registryNew as s) :
  (∀ name, s.DelfnSafe name ↔ s.Deletable name)
    ∧ (∀ newfn, s.delfn newfn ≠ .error .useAfterFree)
    ∧ (∀ id made complete, ∃ t, s.gotStrings id made complete = .ok t)
    ∧ ∀ dev ∈ s.devs, ∃ t ret, s.bind dev = .ok (t, ret)
  := by
  have hnew : registryNew.Consistent := ⟨nofun, nofun, List.nodup_nil, nofun, nofun⟩
  have hs : s.Consistent :=
    h.keeps Consistent (fun s a t hs hstep => hs.step hstep) hnew
  exact ⟨hs.delfnSafe_iff, hs.reaches_no_freed⟩

/-- The registry in which the function of the instance `f_generic.a` has got its descriptors
and strings. -/
def readyActs : List RegAct :=
  [.allocInst 1 true, .setInstName 1 [97], .newfn (functionGeneric ++ [97]) 0 (some 240) true
    true, .gotDescs 0, .gotStrings 0 1 true]

/-- The function is deleted under its name. -/
theorem delfn_safe_iff_ready :
  ∃ s, Run (fun s a t => s.step a = some t) registryNew readyActs s
    ∧ s.DelfnSafe (functionGeneric ++ [97])
  := by
  have hrun : ∃ s, Run (fun s a t => s.step a = some t) registryNew readyActs s
      ∧ s.Deletable (functionGeneric ++ [97]) := by
    refine ⟨_, Run.of_foldlM (f := step) rfl, _, rfl, rfl, _, List.mem_singleton_self _, rfl, rfl,
      fun h => ?_⟩
    revert h
    decide
  obtain ⟨s, hrun, hdeletable⟩ := hrun
  exact ⟨s, hrun, ((delfn_safe_iff hrun).1 _).mpr hdeletable⟩

/-- A function that has not got its strings yet, and one that does not exist: the request to
delete it follows a null pointer. -/
theorem delfn_null :
  ∃ s, Run (fun s a t => s.step a = some t) registryNew
      [.allocInst 1 true, .setInstName 1 [97],
        .newfn (functionGeneric ++ [97]) 0 (some 240) true true] s
    ∧ s.delfn (some (functionGeneric ++ [97])) = .error .nullDeref
    ∧ s.delfn (some (functionGeneric ++ [98])) = .error .nullDeref
    ∧ ¬s.DelfnSafe (functionGeneric ++ [97])
  := by
  refine ⟨_, Run.of_foldlM (f := step) rfl, rfl, rfl, ?_⟩
  rintro ⟨t, ret, hdelfn, -⟩
  cases hdelfn

end Registry
end Ffs
