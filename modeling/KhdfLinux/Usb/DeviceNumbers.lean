import KhdfLinux.Usb.Registry
import Mathlib.Data.List.Perm.Basic
import Mathlib.Data.List.Nodup

/-!
# Device numbers

The region of device numbers of a function is kept in one global variable, which each new
function overwrites, and has ten minor numbers.  `regions_exact`: the regions held are those
of the functions there are, with room for all their files, exactly as long as no creation
fails once it has its region, only the function created last is deleted, and no function has
more than nine endpoint files.
-/

namespace Ffs

namespace Registry

/-- The regions that are held are those of the functions that are created, one for each, and
the minor numbers of the files of each function, 0 for `ep0` and up to `made` for the
endpoint files, lie in its region. -/
def RegionsExact (s : Registry) : Prop :=
  s.regions.Perm (s.live.map FuncData.devno) ∧ ∀ ffs ∈ s.live, ffs.made < maxEpDev

/-- The condition on a step.  A creation that has got its region does not fail; the function
that is deleted has the region allocated last; and at most nine endpoint files are made. -/
def OwnsRegions (s : Registry) : RegAct → Prop
  | .newfn name prepare major cdevAdded deviceCreated =>
      prepare = 0 → (∃ dev, s.findDev name = some dev ∧ ¬dev.mounted) → major.isSome →
        cdevAdded ∧ deviceCreated
  | .delfn (some name) =>
      ∀ dev ffs, s.findDev name = some dev → s.derefData dev = .ok ffs → ffs.devno = s.gDev
  | .gotStrings id made _ =>
      (∃ ffs, (s.live.find? fun ffs => ffs.id = id) = some ffs ∧ ffs.state = .readStrings) →
        made < maxEpDev
  | _ => True

/-- The functions and the regions are the same. -/
structure SameRegions (s t : Registry) : Prop where
  regions : t.regions = s.regions
  devno : t.live.map FuncData.devno = s.live.map FuncData.devno
  made : t.live.map FuncData.made = s.live.map FuncData.made

variable {s t : Registry}

theorem regionsExact_iff :
  s.RegionsExact
    ↔ s.regions.Perm (s.live.map FuncData.devno) ∧ ∀ n ∈ s.live.map FuncData.made, n < maxEpDev
  := by
  simp [RegionsExact]

theorem SameRegions.exact_iff (h : SameRegions s t) :
  t.RegionsExact ↔ s.RegionsExact
  := by
  rw [regionsExact_iff, regionsExact_iff, h.regions, h.devno, h.made]

theorem SameRegions.trans {u : Registry} (h : SameRegions s t) (h' : SameRegions t u) :
  SameRegions s u
  := ⟨h'.regions.trans h.regions, h'.devno.trans h.devno, h'.made.trans h.made⟩

/-- A change to functions that keeps the device numbers and the files. -/
theorem sameRegions_modifyData (s : Registry) (id : Nat) {f : FuncData → FuncData}
    (hdevno : ∀ ffs, (f ffs).devno = ffs.devno) (hmade : ∀ ffs, (f ffs).made = ffs.made) :
  SameRegions s (s.modifyData id f)
  := by
  refine ⟨rfl, ?_, ?_⟩
  · simp only [modifyData, List.map_map]
    apply List.map_congr_left
    intro ffs _
    simp only [Function.comp_apply]
    split_ifs
    · apply hdevno ffs
    · rfl
  · simp only [modifyData, List.map_map]
    apply List.map_congr_left
    intro ffs _
    simp only [Function.comp_apply]
    split_ifs
    · apply hmade ffs
    · rfl

/-! ### What a step does -/

/-- A request for a new function changes nothing about the regions, or it gets a region and
then fails or succeeds. -/
theorem newfn_cases (s : Registry) (name : Bytes) (prepare : Int) (major : Option Nat)
    (cdevAdded deviceCreated : Bool) :
  (SameRegions s (s.newfn name prepare major cdevAdded deviceCreated).1
      ∧ ¬(prepare = 0 ∧ (∃ dev, s.findDev name = some dev ∧ ¬dev.mounted) ∧ major.isSome))
    ∨ ∃ dev m, prepare = 0 ∧ s.findDev name = some dev ∧ ¬dev.mounted ∧ major = some m
      ∧ (s.newfn name prepare major cdevAdded deviceCreated).1.regions = m :: s.regions
      ∧ ((¬(cdevAdded ∧ deviceCreated)
          ∧ (s.newfn name prepare major cdevAdded deviceCreated).1.live = s.live)
        ∨ (cdevAdded ∧ deviceCreated
          ∧ ∃ ffs : FuncData, ffs.devno = m ∧ ffs.made = 0
            ∧ (s.newfn name prepare major cdevAdded deviceCreated).1.live = ffs :: s.live))
  := by
  unfold newfn
  by_cases hprepare : prepare = 0
  · rw [if_neg (not_not.mpr hprepare)]
    cases hfind : s.findDev name with
    | none => exact .inl ⟨⟨rfl, rfl, rfl⟩, fun ⟨_, ⟨dev, hnone, _⟩, _⟩ => nomatch hnone⟩
    | some dev =>
        dsimp only
        by_cases hmounted : dev.mounted
        · rw [if_pos hmounted]
          refine .inl ⟨⟨rfl, rfl, rfl⟩, ?_⟩
          rintro ⟨-, ⟨dev', hsome, hnot⟩, -⟩
          obtain rfl := Option.some.inj hsome
          apply hnot hmounted
        · rw [if_neg hmounted]
          cases major with
          | none => exact .inl ⟨⟨rfl, rfl, rfl⟩, fun ⟨_, _, hnone⟩ => nomatch hnone⟩
          | some m =>
              refine .inr ⟨dev, m, hprepare, rfl, hmounted, rfl, ?_⟩
              dsimp only
              by_cases hfails : ¬cdevAdded ∨ ¬deviceCreated
              · rw [if_pos hfails]
                exact ⟨rfl, .inl ⟨by tauto, rfl⟩⟩
              · rw [if_neg hfails]
                exact ⟨rfl, .inr ⟨by tauto, by tauto, _, rfl, rfl, rfl⟩⟩
  · rw [if_pos hprepare]
    exact .inl ⟨⟨rfl, rfl, rfl⟩, fun ⟨hzero, _⟩ => hprepare hzero⟩

/-- A request to delete a function fails to copy the name, or takes down the function that is
linked to the instance found. -/
theorem delfn_cases {newfn : Option Bytes} (h : s.step (.delfn newfn) = some t) :
  (newfn = none ∧ t = s)
    ∨ ∃ name dev ffs, newfn = some name ∧ s.findDev name = some dev
      ∧ s.derefData dev = .ok ffs ∧ t = s.tearDown ffs
  := by
  simp only [step] at h
  cases newfn with
  | none =>
      simp only [delfn] at h
      exact .inl ⟨rfl, (Option.some.inj h).symm⟩
  | some name =>
      refine .inr ⟨name, ?_⟩
      simp only [delfn] at h
      cases hfind : s.findDev name with
      | none =>
          simp only [hfind] at h
          cases h
      | some dev =>
          simp only [hfind] at h
          cases hdata : s.derefData dev with
          | error e =>
              simp only [hdata] at h
              cases h
          | ok ffs =>
              simp only [hdata] at h
              split_ifs at h
              · cases h
              · exact ⟨dev, ffs, rfl, rfl, hdata, (Option.some.inj h).symm⟩

theorem mem_of_derefData {dev : FfsDev} {ffs : FuncData} (h : s.derefData dev = .ok ffs) :
  ffs ∈ s.live ∧ dev.ffsData = some ffs.id
  := by
  unfold derefData at h
  cases hid : dev.ffsData with
  | none =>
      rw [hid] at h
      cases h
  | some id =>
      simp only [hid] at h
      cases hfind : s.live.find? fun ffs => ffs.id = id with
      | none =>
          rw [hfind] at h
          cases h
      | some ffs' =>
          rw [hfind] at h
          obtain rfl := Except.ok.inj h
          have hid' := List.find?_some hfind
          rw [decide_eq_true_eq] at hid'
          exact ⟨List.mem_of_find?_eq_some hfind, by rw [hid']⟩

/-- `ffs_ready` changes the instance only. -/
theorem live_ffsReady (s : Registry) (ffs : FuncData) :
  (s.ffsReady ffs).1.live = s.live ∧ (s.ffsReady ffs).1.regions = s.regions
  := by
  unfold ffsReady
  cases ffs.privateData with
  | none => exact ⟨rfl, rfl⟩
  | some addr =>
      dsimp only
      split_ifs
      · exact ⟨rfl, rfl⟩
      · exact ⟨rfl, rfl⟩

/-- The files of a function after a change that sets them. -/
theorem made_modifyData (s : Registry) (id made : Nat) {f : FuncData → FuncData}
    (hdevno : ∀ ffs, (f ffs).devno = ffs.devno) (hmade : ∀ ffs, (f ffs).made = made) :
  (s.modifyData id f).live.map FuncData.devno = s.live.map FuncData.devno
    ∧ (s.modifyData id f).live.map FuncData.made
      = s.live.map fun ffs => if ffs.id = id then made else ffs.made
  := by
  simp only [modifyData, List.map_map]
  constructor
  · apply List.map_congr_left
    intro ffs _
    simp only [Function.comp_apply]
    split_ifs
    · apply hdevno ffs
    · rfl
  · apply List.map_congr_left
    intro ffs _
    simp only [Function.comp_apply]
    split_ifs
    · apply hmade ffs
    · rfl

/-- The strings change nothing about the regions, unless the function waits for them. -/
theorem gotStrings_cases {id made : Nat} {complete : Bool}
    (h : s.step (.gotStrings id made complete) = some t) :
  (SameRegions s t
      ∧ ¬∃ ffs, (s.live.find? fun ffs => ffs.id = id) = some ffs ∧ ffs.state = .readStrings)
    ∨ ∃ ffs, (s.live.find? fun ffs => ffs.id = id) = some ffs ∧ ffs.state = .readStrings
      ∧ t.regions = s.regions ∧ t.live.map FuncData.devno = s.live.map FuncData.devno
      ∧ t.live.map FuncData.made
        = s.live.map fun ffs => if ffs.id = id then made else ffs.made
  := by
  simp only [step, gotStrings] at h
  cases hfind : s.live.find? fun ffs => ffs.id = id with
  | none =>
      simp only [hfind] at h
      split_ifs at h
      · cases h
      · obtain rfl := Option.some.inj h
        exact .inl ⟨⟨rfl, rfl, rfl⟩, fun ⟨ffs, hnone, _⟩ => nomatch hnone⟩
  | some ffs =>
      simp only [hfind] at h
      by_cases hstate : ffs.state = .readStrings
      · refine .inr ⟨ffs, rfl, hstate, ?_⟩
        rw [if_neg (not_not.mpr hstate)] at h
        by_cases hcomplete : ¬complete
        · rw [if_pos hcomplete] at h
          obtain rfl := Option.some.inj h
          exact ⟨rfl, made_modifyData s id made (fun _ => rfl) (fun _ => rfl)⟩
        · rw [if_neg hcomplete] at h
          obtain rfl := Option.some.inj h
          obtain ⟨hlive, hregions⟩ := live_ffsReady s ffs
          refine ⟨hregions, ?_⟩
          rw [← hlive]
          exact made_modifyData _ id made (fun _ => rfl) (fun _ => rfl)
      · rw [if_pos hstate] at h
        obtain rfl := Option.some.inj h
        refine .inl ⟨⟨rfl, rfl, rfl⟩, ?_⟩
        rintro ⟨ffs', hsome, hstate'⟩
        obtain rfl := Option.some.inj hsome
        apply hstate hstate'

theorem sameRegions_bind {dev : FfsDev}
    (h : ((s.bind dev).toOption.map Prod.fst) = some t) :
  SameRegions s t
  := by
  unfold bind at h
  by_cases hready : ¬dev.descReady
  · rw [if_pos hready] at h
    obtain rfl := Option.some.inj h
    exact ⟨rfl, rfl, rfl⟩
  · rw [if_neg hready] at h
    cases hdata : s.derefData dev with
    | error e =>
        simp only [hdata] at h
        cases h
    | ok ffs =>
        simp only [hdata] at h
        by_cases hstate : ffs.state ≠ .active ∨ ffs.gadget
        · rw [if_pos hstate] at h
          obtain rfl := Option.some.inj h
          exact ⟨rfl, rfl, rfl⟩
        · rw [if_neg hstate] at h
          obtain rfl := Option.some.inj h
          exact sameRegions_modifyData s ffs.id (fun _ => rfl) (fun _ => rfl)

/-- The other steps change nothing about the regions. -/
theorem sameRegions_step {a : RegAct} (h : s.step a = some t)
    (hnewfn : ∀ name prepare major cdevAdded deviceCreated,
      a ≠ .newfn name prepare major cdevAdded deviceCreated)
    (hdelfn : ∀ newfn, a ≠ .delfn newfn)
    (hstrings : ∀ id made complete, a ≠ .gotStrings id made complete) :
  SameRegions s t
  := by
  cases a with
  | allocInst addr configfs =>
      simp only [step] at h
      split_ifs at h
      obtain rfl := Option.some.inj h
      unfold allocInst
      split_ifs
      · exact ⟨rfl, rfl, rfl⟩
      · exact ⟨rfl, rfl, rfl⟩
  | setInstName addr name =>
      obtain rfl := Option.some.inj h
      unfold setInstName
      dsimp only
      split_ifs
      · exact ⟨rfl, rfl, rfl⟩
      · cases doFindDev s.devs (functionGeneric ++ name) with
        | none => exact ⟨rfl, rfl, rfl⟩
        | some existing => exact ⟨rfl, rfl, rfl⟩
  | singleDev addr =>
      obtain rfl := Option.some.inj h
      unfold singleDev
      split <;> exact ⟨rfl, rfl, rfl⟩
  | freeInst addr =>
      obtain ⟨dev, -, rfl⟩ := Option.map_eq_some_iff.mp h
      unfold freeDev
      cases dev.ffsData with
      | none => exact ⟨rfl, rfl, rfl⟩
      | some id =>
          have hsame := sameRegions_modifyData s id
            (f := fun ffs => { ffs with privateData := none }) (fun _ => rfl) (fun _ => rfl)
          exact ⟨hsame.regions, hsame.devno, hsame.made⟩
  | newfn name prepare major cdevAdded deviceCreated =>
      apply absurd rfl (hnewfn name prepare major cdevAdded deviceCreated)
  | delfn newfn => exact absurd rfl (hdelfn newfn)
  | gotDescs id =>
      obtain rfl := Option.some.inj h
      refine sameRegions_modifyData s id (fun ffs => ?_) (fun ffs => ?_)
      · split_ifs <;> rfl
      · split_ifs <;> rfl
  | gotStrings id made complete => exact absurd rfl (hstrings id made complete)
  | bind addr =>
      obtain ⟨dev, -, hbind⟩ := Option.bind_eq_some_iff.mp h
      apply sameRegions_bind hbind
  | unbind id =>
      obtain rfl := Option.some.inj h
      exact sameRegions_modifyData s id (fun _ => rfl) (fun _ => rfl)

/-! ### The steps that keep the regions -/

/-- A creation keeps the regions exactly if it does not fail once it has its region. -/
theorem newfn_iff_ownsRegions {name : Bytes} {prepare : Int} {major : Option Nat}
    {cdevAdded deviceCreated : Bool} (hs : s.RegionsExact)
    (h : s.step (.newfn name prepare major cdevAdded deviceCreated) = some t) :
  t.RegionsExact ↔ s.OwnsRegions (.newfn name prepare major cdevAdded deviceCreated)
  := by
  simp only [step] at h
  split_ifs at h
  obtain rfl := Option.some.inj h
  obtain ⟨hsame, hnot⟩ | ⟨dev, m, hprepare, hfind, hmounted, hmajor, hregions, hlive⟩ :=
    newfn_cases s name prepare major cdevAdded deviceCreated
  · refine iff_of_true (hsame.exact_iff.mpr hs) ?_
    exact fun hprepare hdev hmajor => absurd ⟨hprepare, hdev, hmajor⟩ hnot
  · obtain ⟨hfails, hlive⟩ | ⟨hcdev, hdevice, ffs, hdevno, hmade, hlive⟩ := hlive
    · refine iff_of_false (fun ht => ?_) (fun howns => ?_)
      · have hlen := ht.1.length_eq
        have hlen' := hs.1.length_eq
        rw [hregions, hlive, List.length_cons] at hlen
        omega
      · exact hfails (howns hprepare ⟨dev, hfind, hmounted⟩ (by rw [hmajor]; rfl))
    · refine iff_of_true ⟨?_, ?_⟩ (fun _ _ _ => ⟨hcdev, hdevice⟩)
      · rw [hregions, hlive, List.map_cons, hdevno]
        exact hs.1.cons m
      · rw [hlive]
        intro ffs' hffs'
        obtain rfl | hffs' := List.mem_cons.mp hffs'
        · rw [hmade]
          decide
        · exact hs.2 ffs' hffs'

/-- A deletion keeps the regions exactly if it unregisters the region of the function. -/
theorem delfn_iff_ownsRegions {newfn : Option Bytes} (hs : s.RegionsExact)
    (h : s.step (.delfn newfn) = some t) :
  t.RegionsExact ↔ s.OwnsRegions (.delfn newfn)
  := by
  obtain ⟨rfl, rfl⟩ | ⟨name, dev, ffs, rfl, hfind, hdata, rfl⟩ := delfn_cases h
  · apply iff_of_true hs trivial
  obtain ⟨hmem, -⟩ := mem_of_derefData hdata
  have hlive : s.live.Perm (ffs :: s.live.erase ffs) := List.perm_cons_erase hmem
  have hregions : s.regions.Perm (ffs.devno :: (s.live.erase ffs).map FuncData.devno) :=
    hs.1.trans (hlive.map FuncData.devno)
  constructor
  · intro ht dev' ffs' hfind' hdata'
    obtain rfl := Option.some.inj (hfind.symm.trans hfind')
    obtain rfl := Except.ok.inj (hdata.symm.trans hdata')
    have hheld : s.gDev ∈ s.regions := by
      by_contra hnot
      have hlen := ht.1.length_eq
      have hlen' := hregions.length_eq
      simp only [tearDown, List.erase_of_not_mem hnot, List.length_cons] at hlen hlen'
      omega
    have hperm := (List.perm_cons_erase hheld).symm.trans hregions
    have hcount := ((ht.1.cons s.gDev).symm.trans hperm).count_eq s.gDev
    rw [List.count_cons_self, List.count_cons, tearDown] at hcount
    by_contra hne
    rw [beq_eq_false_iff_ne.mpr hne] at hcount
    simp at hcount
  · intro howns
    have hdevno := howns dev ffs hfind hdata
    refine ⟨?_, fun ffs' hffs' => hs.2 ffs' (List.mem_of_mem_erase hffs')⟩
    have herase := hregions.erase ffs.devno
    rw [List.erase_cons_head] at herase
    simp only [tearDown]
    rw [← hdevno]
    apply herase

/-- The strings keep the minor numbers in the region exactly if there is room for the
endpoint files. -/
theorem gotStrings_iff_ownsRegions {id made : Nat} {complete : Bool} (hs : s.RegionsExact)
    (h : s.step (.gotStrings id made complete) = some t) :
  t.RegionsExact ↔ s.OwnsRegions (.gotStrings id made complete)
  := by
  obtain ⟨hsame, hnone⟩ | ⟨ffs, hfind, hstate, hregions, hdevno, hmade⟩ := gotStrings_cases h
  · apply iff_of_true (hsame.exact_iff.mpr hs) (fun hsome => absurd hsome hnone)
  constructor
  · intro ht _
    refine (regionsExact_iff.mp ht).2 made ?_
    rw [hmade]
    refine List.mem_map.mpr ⟨ffs, List.mem_of_find?_eq_some hfind, if_pos ?_⟩
    simpa using List.find?_some hfind
  · intro howns
    have hlt := howns ⟨ffs, hfind, hstate⟩
    rw [regionsExact_iff, hregions, hdevno, hmade]
    refine ⟨hs.1, fun n hn => ?_⟩
    obtain ⟨ffs', hffs', rfl⟩ := List.mem_map.mp hn
    split_ifs
    · apply hlt
    · exact hs.2 ffs' hffs'

/-- A step from a registry with its regions exact keeps them so exactly if it meets the
condition. -/
theorem step_iff_ownsRegions {a : RegAct} (hs : s.RegionsExact) (h : s.step a = some t) :
  t.RegionsExact ↔ s.OwnsRegions a
  := by
  cases a with
  | newfn name prepare major cdevAdded deviceCreated => exact newfn_iff_ownsRegions hs h
  | delfn newfn => exact delfn_iff_ownsRegions hs h
  | gotStrings id made complete => exact gotStrings_iff_ownsRegions hs h
  | _ =>
      refine iff_of_true ((sameRegions_step h ?_ ?_ ?_).exact_iff.mpr hs) trivial
      all_goals intros; nofun

/-- No two regions have the same number. -/
theorem nodup_regions_step {a : RegAct} (hs : s.regions.Nodup) (h : s.step a = some t) :
  t.regions.Nodup
  := by
  cases a with
  | newfn name prepare major cdevAdded deviceCreated =>
      simp only [step] at h
      split_ifs at h with hused
      obtain rfl := Option.some.inj h
      obtain ⟨hsame, -⟩ | ⟨dev, m, -, -, -, hmajor, hregions, -⟩ :=
        newfn_cases s name prepare major cdevAdded deviceCreated
      · rw [hsame.regions]
        apply hs
      · rw [hregions, List.nodup_cons]
        exact ⟨fun hm => hused ⟨m, hmajor, hm⟩, hs⟩
  | delfn newfn =>
      obtain ⟨-, rfl⟩ | ⟨name, dev, ffs, -, -, -, rfl⟩ := delfn_cases h
      · apply hs
      · apply hs.sublist List.erase_sublist
  | gotStrings id made complete =>
      obtain ⟨hsame, -⟩ | ⟨ffs, -, -, hregions, -⟩ := gotStrings_cases h
      · rw [hsame.regions]
        apply hs
      · rw [hregions]
        apply hs
  | _ =>
      rw [(sameRegions_step h ?_ ?_ ?_).regions]
      · apply hs
      all_goals intros; nofun

/-- If no creation fails once it has got its region, only the function created last is
deleted, and no function has more than nine endpoint files, then the regions held are those
of the functions there are, and hold the numbers of all their files; and a further step keeps
that exactly if it meets the condition too. -/
theorem regions_exact {as : List RegAct}
    (h : Run (fun s a t => s.OwnsRegions a ∧ s.step a = some t) registryNew as s) :
  s.RegionsExact ∧ s.regions.Nodup
    ∧ ∀ a t, s.step a = some t → (t.RegionsExact ↔ s.OwnsRegions a)
  := by
  have hs : s.RegionsExact ∧ s.regions.Nodup := by
    refine h.keeps (fun s => s.RegionsExact ∧ s.regions.Nodup) ?_
      ⟨⟨List.Perm.nil, nofun⟩, List.nodup_nil⟩
    rintro s a t ⟨hs, hnodup⟩ ⟨howns, hstep⟩
    exact ⟨(step_iff_ownsRegions hs hstep).mpr howns, nodup_regions_step hnodup hstep⟩
  exact ⟨hs.1, hs.2, fun a t hstep => step_iff_ownsRegions hs.1 hstep⟩

/-- The instances `f_generic.a` and `f_generic.b`. -/
def twoInstances : List RegAct :=
  [.allocInst 1 true, .setInstName 1 [97], .allocInst 2 true, .setInstName 2 [98]]

/-- A function is created for the instance `f_generic.a`, gets its descriptors and strings,
with one endpoint, and is deleted. -/
theorem regions_exact_delete :
  ∃ s, Run (fun s a t => s.OwnsRegions a ∧ s.step a = some t) registryNew
      [.allocInst 1 true, .setInstName 1 [97], .newfn (functionGeneric ++ [97]) 0 (some 240) true
        true, .gotDescs 0, .gotStrings 0 1 true, .delfn (some (functionGeneric ++ [97]))] s
    ∧ s.regions = [] ∧ s.RegionsExact
  := by
  have hrun : ∃ s, Run (fun s a t => s.OwnsRegions a ∧ s.step a = some t) registryNew
      [.allocInst 1 true, .setInstName 1 [97], .newfn (functionGeneric ++ [97]) 0 (some 240) true
        true, .gotDescs 0, .gotStrings 0 1 true, .delfn (some (functionGeneric ++ [97]))] s
      ∧ s.regions = [] := by
    refine ⟨_, .cons ⟨trivial, rfl⟩ (.cons ⟨trivial, rfl⟩ (.cons ⟨fun _ _ _ => ⟨rfl, rfl⟩, rfl⟩
      (.cons ⟨trivial, rfl⟩ (.cons ⟨fun _ => by decide, rfl⟩ (.cons ⟨?_, rfl⟩ (.nil _)))))),
      rfl⟩
    rintro dev ffs hfind hdata
    obtain rfl := Option.some.inj (hfind.symm.trans rfl)
    obtain rfl := Except.ok.inj (hdata.symm.trans rfl)
    rfl
  obtain ⟨s, hrun, hregions⟩ := hrun
  exact ⟨s, hrun, hregions, (regions_exact hrun).1⟩

/-- Functions are created for the two instances, and that of the first is deleted: the region
that is unregistered is that of the second. -/
theorem wrong_region_unregistered :
  ∃ s, Run (fun s a t => s.step a = some t) registryNew
      (twoInstances ++ [.newfn (functionGeneric ++ [97]) 0 (some 240) true true,
        .newfn (functionGeneric ++ [98]) 0 (some 241) true true, .gotDescs 0,
        .gotStrings 0 1 true, .delfn (some (functionGeneric ++ [97]))]) s
    ∧ s.regions = [240] ∧ s.live.map FuncData.devno = [241] ∧ ¬s.RegionsExact
  := by
  refine ⟨_, Run.of_foldlM (f := step) rfl, rfl, rfl, fun h => ?_⟩
  have hperm := h.1
  revert hperm
  decide

end Registry
end Ffs
