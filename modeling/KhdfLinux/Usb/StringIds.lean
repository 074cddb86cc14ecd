import KhdfLinux.Usb.Renumbering
import KhdfLinux.Usb.StringTables

/-!
# From the index of a string to its text

`functionfs_bind` gives ids to the strings of every language, and `_ffs_func_bind` puts the id of a
string in the place of its index in the descriptors.  `strings_served`: a host that looks a string
up under the id in a descriptor finds the text that the blob of strings has at the index that was in
the blob of descriptors, and where there was no index there is no id.
-/

namespace Ffs

open Bytes Exec Heap Walk

/-! ### Giving ids -/

/-- The loop of `functionfs_bind` over the strings of a language, from cell `s` on; `fuel` is the
number of cells from there on. -/
def nameStrings : (fuel s id : Nat) → Exec StringTables Unit
  | 0, _, _ => stop (.fault .outOfBounds)
  | fuel + 1, s, id => do
      match (← get).strings[s]? with
      | none => stop (.fault .outOfBounds)
      | some str =>
          if str.s = none then pure ()
          else do
            writeString s { str with id := UInt8.ofNat id }
            nameStrings fuel (s + 1) (id + 1)

/-- The loop of `functionfs_bind` over the languages, from the pointer `lang` on; `fuel` is the
number of pointers from there on. -/
def nameLanguages (firstId : Nat) : (fuel lang : Nat) → Exec StringTables Unit
  | 0, _ => stop (.fault .outOfBounds)
  | fuel + 1, lang => do
      let tables ← get
      match tables.stringtabs[lang]? with
      | none => stop (.fault .outOfBounds)
      | some none => pure ()
      | some (some t) =>
          match tables.stringtab[t]? with
          | none => stop (.fault .outOfBounds)
          | some tab => do
              nameStrings (tables.strings.length - tab.strings) tab.strings firstId
              nameLanguages firstId fuel (lang + 1)

/-- What `functionfs_bind` does to `ffs->stringtabs`, if `usb_string_ids_n` returns `firstId`. -/
def functionfsBindIds (firstId : Nat) : Exec StringTables Unit := do
  nameLanguages firstId (← get).stringtabs.length 0

/-- `ffs->stringtabs[0]->strings[j].id`. -/
def StringTables.firstId? (tables : StringTables) (j : Nat) : Option UInt8 := do
  let t ← (tables.stringtabs[0]?).join
  let tab ← tables.stringtab[t]?
  let str ← tables.strings[tab.strings + j]?
  pure str.id

/-- The string that is found under an id in a table, which ends with the first record without a
string. -/
def StringTables.find (tables : StringTables) (tab : UsbGadgetStrings) (id : UInt8) : Option Nat :=
  (((tables.strings.drop tab.strings).takeWhile fun str => str.s.isSome).find? fun str =>
    str.id = id).bind UsbString.s

/-- The strings with ids from `id` on. -/
def named (id : Nat) : List UsbString → List UsbString
  | [] => []
  | str :: strs => { str with id := UInt8.ofNat id } :: named (id + 1) strs

theorem length_named (id : Nat) (strs : List UsbString) :
  (named id strs).length = strs.length
  := by
  induction strs generalizing id with
  | nil => rfl
  | cons str strs ih => exact congrArg (· + 1) (ih (id + 1))

theorem getElem?_named {id j : Nat} {strs : List UsbString} :
  (named id strs)[j]? = strs[j]?.map fun str => { str with id := UInt8.ofNat (id + j) }
  := by
  induction strs generalizing id j with
  | nil => rfl
  | cons str strs ih =>
      cases j with
      | zero => rfl
      | succ j =>
          rw [named, List.getElem?_cons_succ, ih, List.getElem?_cons_succ,
            show id + 1 + j = id + (j + 1) by omega]

section Names

variable {before strs after : List UsbString} {last str : UsbString} {fuel id j s : Nat}
  {tables : StringTables}

theorem nameStrings_last (hcell : tables.strings[s]? = some last) (hlast : last.s = none) :
  (nameStrings (fuel + 1) s id).run tables = .ok () tables
  := by
  unfold nameStrings
  rw [EStateM.run_bind, EStateM.run_get]
  dsimp only
  rw [hcell]
  dsimp only
  rw [hlast]
  rfl

theorem nameStrings_next (hcell : tables.strings[s]? = some str) (hstr : str.s.isSome) :
  (nameStrings (fuel + 1) s id).run tables
    = (nameStrings fuel (s + 1) (id + 1)).run
      { tables with strings := tables.strings.set s { str with id := UInt8.ofNat id } }
  := by
  have hlt : s < tables.strings.length := (List.getElem?_eq_some_iff.mp hcell).1
  rw [nameStrings, EStateM.run_bind, EStateM.run_get]
  dsimp only
  rw [hcell]
  dsimp only
  rw [if_neg (Option.isSome_iff_ne_none.mp hstr), EStateM.run_bind, writeString_run hlt]
  rfl

/-- The loop gives ids up to the end of the table. -/
theorem nameStrings_run (hstrs : ∀ str ∈ strs, str.s.isSome) (hlast : last.s = none)
    (htables : tables.strings = before ++ strs ++ last :: after) (hfuel : strs.length < fuel) :
  (nameStrings fuel before.length id).run tables
    = .ok () { tables with strings := before ++ named id strs ++ last :: after }
  := by
  obtain ⟨fuel, rfl⟩ := Nat.exists_eq_add_of_le' (Nat.zero_lt_of_lt hfuel)
  induction strs generalizing before fuel id tables with
  | nil =>
      have hcell : tables.strings[before.length]? = some last := by simp [htables]
      rw [nameStrings_last hcell hlast, named, ← htables]
  | cons str strs ih =>
      have hcell : tables.strings[before.length]? = some str := by simp [htables]
      rw [List.length_cons] at hfuel
      obtain ⟨fuel, rfl⟩ := Nat.exists_eq_add_of_le' (by omega : 1 ≤ fuel)
      have hnamed : (tables.strings.set before.length { str with id := UInt8.ofNat id })
          = (before ++ [{ str with id := UInt8.ofNat id }]) ++ strs ++ last :: after := by
        simp [htables]
      have hlength : (before ++ [{ str with id := UInt8.ofNat id }]).length
          = before.length + 1 := by
        simp
      rw [nameStrings_next hcell (hstrs str List.mem_cons_self), ← hlength,
        ih (fun str hstr => hstrs str (List.mem_cons_of_mem _ hstr)) hnamed fuel (by omega)]
      simp [named]

/-- A string is found under its id. -/
theorem find_named {tab : UsbGadgetStrings} (hstrs : ∀ str ∈ strs, str.s.isSome)
    (hlast : last.s = none) (htab : tab.strings = before.length)
    (htables : tables.strings = before ++ named id strs ++ last :: after)
    (hid : id + strs.length ≤ 256) (hstr : strs[j]? = some str) :
  tables.find tab (UInt8.ofNat (id + j)) = str.s
  := by
  have hnamed : ∀ str ∈ named id strs, str.s.isSome := by
    intro rec hrec
    obtain ⟨k, hk⟩ := List.getElem?_of_mem hrec
    rw [getElem?_named] at hk
    obtain ⟨str, hstr, rfl⟩ := Option.map_eq_some_iff.mp hk
    exact hstrs str (List.mem_of_getElem? hstr)
  have hdrop : tables.strings.drop tab.strings = named id strs ++ last :: after := by
    rw [htables, htab, List.append_assoc, List.drop_left]
  have htake : (named id strs ++ last :: after).takeWhile (fun str => str.s.isSome)
      = named id strs := by
    rw [List.takeWhile_append_of_pos hnamed, List.takeWhile_cons_of_neg (by simp [hlast]),
      List.append_nil]
  have hfound : (named id strs).find? (fun str => str.id = UInt8.ofNat (id + j))
      = some { str with id := UInt8.ofNat (id + j) } := by
    obtain ⟨hj, -⟩ := List.getElem?_eq_some_iff.mp hstr
    rw [List.find?_eq_some_iff_getElem]
    refine ⟨decide_eq_true rfl, j, by rw [length_named]; exact hj, ?_, fun k hk => ?_⟩
    · apply (List.getElem?_eq_some_iff.mp _).2
      rw [getElem?_named, hstr]
      rfl
    · have hk' : k < (named id strs).length := by
        rw [length_named]
        omega
      have hget := List.getElem?_eq_getElem hk'
      rw [getElem?_named] at hget
      obtain ⟨str', -, heq⟩ := Option.map_eq_some_iff.mp hget
      rw [← heq, decide_eq_false]
      · rfl
      · intro hsame
        have hnat := congrArg UInt8.toNat hsame
        simp only [UInt8.toNat_ofNat'] at hnat
        omega
  unfold StringTables.find
  rw [hdrop, htake, hfound]
  rfl

end Names

/-! ### The tables of an accepted blob -/

section Tables

variable {needed firstId : Nat} {blob : Bytes} {kmalloc : Nat → Bool} {r : Option StringTables}

/-- The tables of a blob that is accepted, and from which strings are needed, are those of a single
language. -/
theorem gotStrings_one (hneeded : needed ≤ 255) (hpos : 0 < needed)
    (hmax : ∀ n, kmallocMaxSize < n → kmalloc n = false)
    (h : ffsDataGotStrings needed blob kmalloc = .ok r) :
  ∃ strs, needed ≤ strs.length ∧ r = some (oneLanguage blob strs needed)
    ∧ takeStrings (le32At blob 8) ((blob.drop 16).drop 2) = some (strs, [])
    ∧ IsBody (blob.drop 16) (le32At blob 12) (le32At blob 8)
      [⟨byteAt (blob.drop 16) 0, byteAt (blob.drop 16) 1, strs⟩]
  := by
  by_cases hheader : StringsHeader blob needed
  case neg =>
    rw [gotStrings_of_not_header hheader] at h
    cases h
  obtain ⟨-, -, hlen, hzero, hle⟩ := id hheader
  rw [gotStrings_of_header kmalloc hheader, if_neg (by omega)] at h
  split_ifs at h with hk
  by_cases hone : le32At blob 12 = 1
  · rw [hone] at h ⊢
    have hbuild := buildTables_one blob (by omega) (le32At_lt blob 8) hle hneeded
    unfold Meets at hbuild
    split at h
    · rename_i tables hrun
      rw [hrun] at hbuild
      obtain ⟨strs, hlong, htake, rfl⟩ := hbuild
      have hlength := (takeStrings_eq_some.mp htake).1
      exact ⟨strs, by omega, (Except.ok.inj h).symm, htake,
        isBody_one.mpr ⟨by omega, strs, htake, rfl⟩⟩
    · cases h
  · have hbuild := buildTables_more (by omega) (le32At_lt blob 8) hle hneeded (by omega)
      (le_of_kmalloc hmax (le32At_lt blob 12) hk) (hlen ▸ le32At_lt blob 4)
    unfold Meets at hbuild
    split at h
    · rename_i tables hrun
      rw [hrun] at hbuild
      apply hbuild.elim
    · cases h

end Tables

/-! ### The indices in the descriptors -/

section Indices

variable {m : Bytes} {ffs ffs' : FfsData} {lay : DescLayout} {count : Nat} {vs : List Visit}
  {v : Visit}

theorem descString_le_of_mem (h : v ∈ vs) :
  descString m v.offset ≤ speedStrings m vs
  := by
  induction vs with
  | nil => cases h
  | cons w vs ih =>
      rw [speedStrings]
      obtain rfl | h := List.mem_cons.mp h
      · apply Nat.le_max_left
      · apply Nat.le_trans (ih h) (Nat.le_max_right _ _)

theorem descString_lt (m : Bytes) (d : Nat) :
  descString m d < 256
  := by
  unfold descString
  split
  · apply UInt8.toNat_lt
  · apply UInt8.toNat_lt
  · decide

theorem speedStrings_lt (m : Bytes) (vs : List Visit) :
  speedStrings m vs < 256
  := by
  induction vs with
  | nil => exact Nat.zero_lt_succ _
  | cons v vs ih =>
      have hlt := descString_lt m v.offset
      rw [speedStrings]
      omega

/-- A speed counts its strings. -/
theorem TakesSpeed.stringsCount (h : TakesSpeed m count vs ffs ffs') (hcount : vs.length = count) :
  ffs.stringsCount ≤ ffs'.stringsCount ∧ speedStrings m vs ≤ ffs'.stringsCount
    ∧ (ffs.stringsCount < 256 → ffs'.stringsCount < 256)
  := by
  have hlt := speedStrings_lt m vs
  obtain ⟨hzero, rfl⟩ | ⟨-, -, ⟨-, rfl⟩ | ⟨-, -, -, -, rfl⟩⟩ := h
  · rw [List.length_eq_zero_iff.mp (hcount.trans hzero)]
    exact ⟨Nat.le_refl _, Nat.zero_le _, id⟩
  all_goals
    dsimp only
    omega

/-- The head of a blob counts no strings. -/
theorem stringsCount_noteEventfd {fdget : EventfdCtxFdget} {flags : Nat}
    (h : noteEventfd fdget m flags (noteFlags m ffs) = some ffs') :
  ffs'.stringsCount = ffs.stringsCount
  := by
  have hflags : (noteFlags m ffs).stringsCount = ffs.stringsCount := by
    unfold noteFlags
    split_ifs
    · rfl
    · rfl
  unfold noteEventfd at h
  split_ifs at h
  · split at h
    · cases h
    · cases h
      exact hflags
  · cases h
    exact hflags

theorem stringsCount_storeLayout (m : Bytes) (lay : DescLayout) (ffs : FfsData) :
  (storeLayout m lay ffs).priv.stringsCount = ffs.stringsCount
  := by
  obtain ⟨-, count, nameLen, dataLen, hpriv⟩ :=
    takeOsEntries_agree m (osEntries m ffs.interfacesCount lay.os) ⟨m, ffs⟩
  simp only [storeLayout, storeDescs, hpriv]

/-- The indices of the strings in a blob that is accepted are counted. -/
theorem Parses.stringsCount
    {fdget : EventfdCtxFdget} {t : Heap FfsData} (hm : 12 ≤ m.length)
    (hmax : m.length < 2147483648)
    (hacc : (ffsDataGotDescs fdget m.length).run ⟨m, ffs⟩ = .ok () t)
    (hlay : Parses m t.priv.interfacesCount lay) :
  (ffs.stringsCount < 256 → t.priv.stringsCount < 256)
    ∧ ∀ v ∈ (lay.raw m).all, descString (lay.raw m).bytes v.offset ≤ t.priv.stringsCount
  := by
  have hspeed : ∀ speed, ∀ v ∈ (lay.raw m).descs speed,
      descString (lay.raw m).bytes v.offset ≤ speedStrings m (lay.speed speed) := by
    intro speed v hv
    have hshift := (visits_drop (descSize_drop m lay.fsAt) (hlay.visits_speed ffsDataNew speed)).2
    have hmem : Visit.shift lay.fsAt v ∈ lay.speed speed := by
      rw [← hshift]
      exact List.mem_map_of_mem hv
    have hsame : descString (lay.raw m).bytes v.offset
        = descString m (Visit.shift lay.fsAt v).offset := by
      simp only [descString, DescLayout.raw, byteAt_drop, Visit.shift, Nat.add_assoc]
    rw [hsame]
    exact descString_le_of_mem hmem
  obtain ⟨lay', ffs₃, hparses, ⟨ffs₀, ffs₁, ffs₂, hhead, hfs, hhs, hss⟩, rfl⟩ :=
    (ffsDataGotDescs_ok hm hmax).mp hacc
  rw [(storeLayout_counts m lay' ffs₃).1] at hlay
  obtain rfl := hlay.unique hparses
  rw [stringsCount_storeLayout]
  have hstart := stringsCount_noteEventfd hhead
  obtain ⟨hle₁, hfull, hlt₁⟩ := hfs.stringsCount (visits_length hlay.fs)
  obtain ⟨hle₂, hhigh, hlt₂⟩ := hhs.stringsCount (visits_length hlay.hs)
  obtain ⟨hle₃, hsuper, hlt₃⟩ := hss.stringsCount (visits_length hlay.ss)
  refine ⟨fun hlt => hlt₃ (hlt₂ (hlt₁ (hstart ▸ hlt))), fun v hv => ?_⟩
  obtain ⟨speed, hv⟩ := RawDescs.mem_all.mp hv
  apply Nat.le_trans (hspeed speed v hv)
  cases speed with
  | full => exact hfull.trans (hle₂.trans hle₃)
  | high => exact hhigh.trans hle₃
  | super => exact hsuper

end Indices

/-! ### The ids in the descriptors -/

/-- The fields of strings: those of interfaces, and of interface associations. -/
def RawDescs.StringField (raw : RawDescs) (v : Visit) (k : Nat) : Prop :=
  raw.type v = usbDtInterface ∧ k = 8 ∨ raw.type v = usbDtInterfaceAssociation ∧ k = 7

section Fields

variable {raw : RawDescs} {ffs : FfsData} {c : UsbConfig} {u : Heap BindState} {v w : Visit}
  {m₀ : Bytes} {k : Nat}

theorem RawDescs.StringField.descString (h : raw.StringField v k) :
  descString raw.bytes v.offset = (byteAt raw.bytes (v.offset + k)).toNat
  := by
  unfold Ffs.descString
  obtain ⟨htype, rfl⟩ | ⟨htype, rfl⟩ := h
  · rw [show byteAt raw.bytes (v.offset + 1) = usbDtInterface from htype]
    rfl
  · rw [show byteAt raw.bytes (v.offset + 1) = usbDtInterfaceAssociation from htype]
    rfl

/-- No patch writes into the field of a string. -/
theorem patchStep_strings (hraw : raw.Valid ffs) (m₀ : Bytes) :
  raw.PatchStep fun _ _ m => ∀ v ∈ raw.all, ∀ k, raw.StringField v k →
    byteAt m (v.offset + k) = byteAt m₀ (v.offset + k)
  := by
  rintro us v ws m hall h - w hw k hk
  rw [← h w hw k hk]
  have hv : v ∈ raw.all := by simp [hall]
  obtain ⟨speed, hv⟩ := RawDescs.mem_all.mp hv
  obtain ⟨speed', hw⟩ := RawDescs.mem_all.mp hw
  have hlast : w.offset + k + 1 = w.offset + w.size := by
    obtain ⟨htype, rfl⟩ | ⟨htype, rfl⟩ := hk
    · rw [hraw.size_interface hw htype]
    · rw [hraw.size_association hw htype]
  have hseven : 7 ≤ k := by
    obtain ⟨-, rfl⟩ | ⟨-, rfl⟩ := hk
    · decide
    · decide
  apply byteAt_patchMem
  intro k' hk'
  have hbounds := patchFields_bounds hk'
  rcases hraw.apart hv hw with rfl | hbefore | hbehind
  · omega
  · omega
  · omega

/-- After a bind, the ids of the strings are in the descriptors. -/
theorem ffsFuncBind_strings {s : Heap BindState} (hserves : c.Serves ffs) (hraw : raw.Valid ffs)
    (hffs : s.priv.ffs = ffs) (hbind : (ffsFuncBind c).run s = .ok () u) (hv : v ∈ raw.all)
    (hk : raw.StringField v k) :
  byteAt u.mem (v.offset + k) = c.newString (byteAt raw.bytes (v.offset + k))
  := by
  obtain ⟨lens, x, w, hpasses, hpatch, hmem, -⟩ := ffsFuncBind_ok hbind
  have hahead := noneAhead_of_patched hpasses hpatch
  have hbefore := bindPasses_beforePatches hraw hffs hahead hpasses
  obtain ⟨y, z, hy, -, hz, hsame⟩ := bindPasses_numbered hserves hraw hffs hahead hpasses
  have hxz : x.mem = z.mem := hsame (F := Heap.mem) fun _ _ _ _ _ _ _ _ => rfl
  have hsettled := hz.settled hraw hy (hxz ▸ hbefore.heads)
  rw [← hxz] at hsettled
  have hkept := ((patchStep_strings hraw x.mem).func hbefore hsettled fun _ _ _ _ => rfl).of_ok
    hpatch
  rw [hmem, hkept v hv k hk]
  obtain ⟨htype, rfl⟩ | ⟨htype, rfl⟩ := hk
  · exact (hsettled.written v hv).string htype
  · exact (hsettled.written v hv).function htype

end Fields

/-! ### What a host finds -/

/-- What a host finds for the string whose index is in the blob of descriptors, under the id that is
in its place: there is none without an index, and else in each language the text at the index. -/
structure HostReads (firstId : Nat) (blob : Bytes) (r : Option StringTables) (index id : UInt8) :
    Prop where
  absent : index = 0 → id = 0
  present : index ≠ 0 → id ≠ 0
  found : index ≠ 0 → ∃ tables named groups, r = some tables
    ∧ (functionfsBindIds firstId).run tables = .ok () named
    ∧ IsBody (blob.drop 16) (le32At blob 12) (le32At blob 8) groups ∧ groups ≠ []
    ∧ ∀ (i : Nat) (g : LangGroup), groups[i]? = some g → ∃ tab text p rest,
      named.stringtab[i]? = some tab ∧ tab.language = g.language
        ∧ g.strings[index.toNat - 1]? = some text ∧ named.find tab id = some p
        ∧ blob.drop p = terminate text ++ rest

section Host

variable {needed firstId j : Nat} {blob : Bytes} {strs : List Bytes}

theorem isSome_of_mem_records {data : Nat} :
  ∀ str ∈ records data strs needed, str.s.isSome
  := by
  intro str hstr
  obtain ⟨p, -, rfl⟩ := List.mem_map.mp hstr
  rfl

/-- The tables of a single language, with ids. -/
def oneLanguageNamed (blob : Bytes) (strs : List Bytes) (needed firstId : Nat) : StringTables :=
  { oneLanguage blob strs needed with
    strings := named firstId (records 18 strs needed) ++ [⟨0, none⟩] }

theorem functionfsBindIds_run :
  (functionfsBindIds firstId).run (oneLanguage blob strs needed)
    = .ok () (oneLanguageNamed blob strs needed firstId)
  := by
  have htables : (oneLanguage blob strs needed).strings
      = [] ++ records 18 strs needed ++ ⟨0, none⟩ :: [] := rfl
  have hfuel : (records 18 strs needed).length < (oneLanguage blob strs needed).strings.length := by
    simp [oneLanguage]
  have hnames : (nameStrings (oneLanguage blob strs needed).strings.length 0 firstId).run
      (oneLanguage blob strs needed) = .ok () (oneLanguageNamed blob strs needed firstId) :=
    nameStrings_run isSome_of_mem_records rfl htables hfuel
  show EStateM.run (do
    nameStrings (oneLanguage blob strs needed).strings.length 0 firstId
    nameLanguages firstId 1 1) _ = _
  rw [EStateM.run_bind, hnames]
  rfl

theorem records_getElem? {blob : Bytes} {strCount : Nat} (hneeded : needed ≤ strs.length)
    (htake : takeStrings strCount ((blob.drop 16).drop 2) = some (strs, [])) (hj : j < needed) :
  ∃ text p rest, strs[j]? = some text ∧ (records 18 strs needed)[j]? = some ⟨0, some p⟩
    ∧ blob.drop p = terminate text ++ rest
  := by
  obtain ⟨-, -, hdrop⟩ := takeStrings_eq_some.mp htake
  rw [List.drop_drop] at hdrop
  obtain ⟨p, rest, hp, hrest⟩ := drop_starts hdrop (by omega : j < strs.length)
  refine ⟨_, p, rest, List.getElem?_eq_getElem (by omega), ?_, hrest⟩
  rw [records, List.getElem?_map, List.getElem?_take_of_lt hj, hp]
  rfl

/-- A string of a single language is found under its id. -/
theorem find_oneLanguageNamed {p : Nat} (hneeded : needed ≤ strs.length)
    (hfirst : firstId + needed ≤ 256) (hj : (records 18 strs needed)[j]? = some ⟨0, some p⟩)
    (tab : UsbGadgetStrings) (htab : tab.strings = 0) :
  (oneLanguageNamed blob strs needed firstId).find tab (UInt8.ofNat (firstId + j)) = some p
  := by
  have htables : (oneLanguageNamed blob strs needed firstId).strings
      = [] ++ named firstId (records 18 strs needed) ++ ⟨0, none⟩ :: [] := rfl
  refine find_named isSome_of_mem_records rfl htab htables ?_ hj
  rw [length_records 18 hneeded]
  exact hfirst

/-- The first table has the ids. -/
theorem firstId?_oneLanguageNamed {str : UsbString} (hj : (records 18 strs needed)[j]? = some str) :
  (oneLanguageNamed blob strs needed firstId).firstId? j = some (UInt8.ofNat (firstId + j))
  := by
  have hcell : (named firstId (records 18 strs needed) ++ [⟨0, none⟩])[0 + j]?
      = some { str with id := UInt8.ofNat (firstId + j) } := by
    have hlt := (List.getElem?_eq_some_iff.mp hj).1
    rw [Nat.zero_add, List.getElem?_append_left (by rwa [length_named]), getElem?_named, hj]
    rfl
  show ((named firstId (records 18 strs needed) ++ [⟨0, none⟩])[0 + j]?).bind _ = _
  rw [hcell]
  rfl

end Host

/-- After the descriptors and the strings are accepted, and the function is bound, a host reads
under the ids in the descriptors what the blob of strings has at the indices that were there. -/
theorem strings_served
    {fdget : EventfdCtxFdget} {m blob : Bytes} {ffs : FfsData} {t : Heap FfsData}
    {lay : DescLayout} {c : UsbConfig} {s u : Heap BindState} {kmalloc : Nat → Bool}
    {r : Option StringTables} {firstId : Nat}
    (hm : 12 ≤ m.length) (hmax : m.length < 2147483648) (hstart : ffs.stringsCount < 256)
    (hacc : (ffsDataGotDescs fdget m.length).run ⟨m, ffs⟩ = .ok () t)
    (hlay : Parses m t.priv.interfacesCount lay)
    (hkmalloc : ∀ n, kmallocMaxSize < n → kmalloc n = false)
    (hstrings : ffsDataGotStrings t.priv.stringsCount blob kmalloc = .ok r)
    (hpos : 0 < firstId) (hfirst : firstId + t.priv.stringsCount ≤ 256)
    (hffs : s.priv.ffs = t.priv) (hserves : c.Serves t.priv)
    (hids : ∀ tables named, r = some tables →
      (functionfsBindIds firstId).run tables = .ok () named →
      ∀ j < t.priv.stringsCount, named.firstId? j = some (c.stringId j))
    (hbind : (ffsFuncBind c).run s = .ok () u) :
  ∀ v ∈ (lay.raw m).all, ∀ k, (lay.raw m).StringField v k →
    HostReads firstId blob r (byteAt (lay.raw m).bytes (v.offset + k))
      (byteAt u.mem (v.offset + k))
  := by
  intro v hv k hk
  obtain ⟨hlt, hle⟩ := Parses.stringsCount hm hmax hacc hlay
  have hindex := hle v hv
  rw [hk.descString] at hindex
  rw [ffsFuncBind_strings hserves (hlay.valid hm hmax hacc) hffs hbind hv hk]
  generalize byteAt (lay.raw m).bytes (v.offset + k) = index at hindex ⊢
  unfold UsbConfig.newString
  by_cases hzero : index = 0
  · rw [if_pos hzero]
    exact ⟨fun _ => rfl, fun hne => absurd hzero hne, fun hne => absurd hzero hne⟩
  have hnonzero : index.toNat ≠ 0 := fun h => hzero (UInt8.toNat_inj.mp h)
  obtain ⟨strs, hneeded, rfl, htake, hbody⟩ :=
    gotStrings_one (Nat.le_of_lt_succ (hlt hstart)) (by omega) hkmalloc hstrings
  obtain ⟨text, p, rest, htext, hrecord, hrest⟩ :=
    records_getElem? hneeded htake (by omega : index.toNat - 1 < t.priv.stringsCount)
  have hid : c.stringId (index.toNat - 1) = UInt8.ofNat (firstId + (index.toNat - 1)) := by
    have hgiven := hids _ _ rfl functionfsBindIds_run (index.toNat - 1) (by omega)
    rw [firstId?_oneLanguageNamed hrecord] at hgiven
    exact (Option.some.inj hgiven).symm
  rw [if_neg hzero, hid]
  refine ⟨fun h => absurd h hzero, fun _ h => ?_, fun _ => ?_⟩
  · have hnat := congrArg UInt8.toNat h
    simp only [UInt8.toNat_ofNat', UInt8.toNat_zero] at hnat
    omega
  · refine ⟨_, _, _, rfl, functionfsBindIds_run, hbody, List.cons_ne_nil _ _, fun i g hg => ?_⟩
    cases i with
    | succ i => simp at hg
    | zero =>
        cases hg
        refine ⟨⟨le16At (blob.drop 16) 0, 0⟩, text, p, rest, rfl, rfl, htext, ?_, hrest⟩
        exact find_oneLanguageNamed hneeded hfirst hrecord _ rfl

/-- A V2 blob with an interface with the string 1, of the full speed. -/
def namedInterfaceDescs : Bytes :=
  [3, 0, 0, 0, 25, 0, 0, 0, 1, 0, 0, 0, 1, 0, 0, 0, 9, 4, 0, 0, 0, 255, 0, 0, 1]

/-- The descriptor of the interface. -/
def namedInterfaceLayout : DescLayout := ⟨⟨1, 1, 0, 0, 0, 16⟩, [⟨16, 9⟩], [], [], []⟩

/-- A blob with the string "A" in one language. -/
def letterStrings : Bytes := [2, 0, 0, 0, 20, 0, 0, 0, 1, 0, 0, 0, 1, 0, 0, 0, 9, 4, 65, 0]

/-- A gadget that gives the ids from 5 on. -/
def fifthIdConfig : UsbConfig := { plainConfig with stringId := fun j => UInt8.ofNat (5 + j) }

/-- The interface has the string with the id 5. -/
theorem strings_served_letter :
  HostReads 5 letterStrings (some (oneLanguage letterStrings [[65]] 1)) 1 5
  := by
  have hacc : (ffsDataGotDescs (fun _ => .ok 0) namedInterfaceDescs.length).run
      ⟨namedInterfaceDescs, ffsDataNew⟩
      = .ok () ⟨namedInterfaceDescs, (newFunction namedInterfaceDescs).priv.ffs⟩ :=
    rfl
  have hlay : Parses namedInterfaceDescs
      (newFunction namedInterfaceDescs).priv.ffs.interfacesCount namedInterfaceLayout :=
    ⟨by decide +kernel, by decide +kernel, by decide +kernel, by decide +kernel, by decide +kernel,
      by decide, by decide⟩
  have hstop : stopOf ((ffsFuncBind fifthIdConfig).run (newFunction namedInterfaceDescs))
      = none := by
    decide +kernel
  obtain ⟨_, u, hbind⟩ := stopOf_eq_none.mp hstop
  have hstrings : ffsDataGotStrings 1 letterStrings (fun n => decide (n ≤ kmallocMaxSize))
      = .ok (some (oneLanguage letterStrings [[65]] 1)) := by
    decide +kernel
  have hids : ∀ tables named, some (oneLanguage letterStrings [[65]] 1) = some tables →
      (functionfsBindIds 5).run tables = .ok () named →
      ∀ j < 1, named.firstId? j = some (fifthIdConfig.stringId j) := by
    rintro _ named ⟨⟩ hrun j hj
    rw [functionfsBindIds_run] at hrun
    cases hrun
    obtain rfl := Nat.lt_one_iff.mp hj
    decide +kernel
  have hreads := strings_served (by decide) (by decide) (by decide) hacc hlay
    (fun n hn => decide_eq_false (Nat.not_le_of_lt hn)) hstrings (by decide) (by decide) rfl
    (fun _ => by decide) hids hbind ⟨0, 9⟩ (by decide +kernel) 8 (.inl ⟨by decide +kernel, rfl⟩)
  have hid : byteAt u.mem 8 = 5 := by
    have hu : bindState ((ffsFuncBind fifthIdConfig).run (newFunction namedInterfaceDescs)) = u :=
      congrArg bindState hbind
    rw [← hu]
    decide +kernel
  rw [← hid]
  exact hreads

end Ffs
