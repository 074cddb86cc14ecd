import KhdfLinux.Pnp.Records
import Mathlib.Data.List.Induction
import Mathlib.Data.List.Nodup
import Mathlib.Logic.Function.Basic

/-!
# The interfaces of a table

`UsbPnpNotifyAddInterfaceInitInfo` and the part of `UsbPnpNotifyInitInfo` that uses it, with their
arrays: the table is static and keeps what earlier events left in it.  `interfaceTable_spec`: after
any commands, the table for an `ADD_INTERFACE` has the interfaces whose last command was not a
removal, in the order of the device, and that for a `REMOVE_INTERFACE` the one that is named.
-/

namespace Pnp

/-- `struct UsbPnpNotifyMatchInfoTable` with its array. -/
structure InfoTable where
  usbDevAddr : Nat
  devNum : Int
  busNum : Int
  deviceInfo : DescriptorInfo
  removeType : RemoveType
  numInfos : UInt8
  interfaceInfo : Nat → InterfaceInfo

/-- `struct UsbPnpDeviceInfo` with its array, as far as the tables of interfaces are built from
it. -/
structure InterfaceRecord where
  interfaceRemoveStatus : Nat → Bool
  info : InfoTable

/-- The interfaces that are listed in a table. -/
def InfoTable.listed (t : InfoTable) : List InterfaceInfo :=
  (List.range t.numInfos.toNat).map t.interfaceInfo

/-- A command for an interface: `REMOVE_INTERFACE` or `ADD_INTERFACE`, and the interface it
names. -/
structure InterfaceCommand where
  remove : Bool
  infoData : AddRemoveInfo
  deriving DecidableEq, Repr

/-! ### The loops -/

/-- The loop that marks the interfaces, from `i` on. -/
def markLoop (c : InterfaceCommand) (interfaceInfo : Nat → InterfaceInfo) :
    (left i : Nat) → (Nat → Bool) → Nat → Bool
  | 0, _, removed => removed
  | left + 1, i, removed =>
      markLoop c interfaceInfo left (i + 1)
        (if c.infoData.interface = interfaceInfo i then Function.update removed i c.remove
          else removed)

/-- The loop that copies the interfaces, from `i` in the record and `j` in the table on, and the `j`
at its end. -/
def copyLoop (interfaceInfo : Nat → InterfaceInfo) (removed : Nat → Bool) :
    (left i j : Nat) → (Nat → InterfaceInfo) → (Nat → InterfaceInfo) × Nat
  | 0, _, j, table => (table, j)
  | left + 1, i, j, table =>
      if removed i then copyLoop interfaceInfo removed left (i + 1) j table
      else
        copyLoop interfaceInfo removed left (i + 1) (j + 1)
          (Function.update table j (interfaceInfo i))

/-- `UsbPnpNotifyAddInterfaceInitInfo`, on the arrays. -/
def InterfaceRecord.addInterfaceInitInfo (r : InterfaceRecord) (c : InterfaceCommand)
    (infoTable : InfoTable) : InterfaceRecord × InfoTable :=
  let removed :=
    markLoop c r.info.interfaceInfo r.info.numInfos.toNat 0 r.interfaceRemoveStatus
  let r := { r with interfaceRemoveStatus := removed }
  if c.remove then
    (r, { infoTable with
      numInfos := 1
      interfaceInfo := Function.update infoTable.interfaceInfo 0 c.infoData.interface })
  else
    let (table, j) :=
      copyLoop r.info.interfaceInfo removed r.info.numInfos.toNat 0 0 infoTable.interfaceInfo
    (r, { infoTable with numInfos := UInt8.ofNat j, interfaceInfo := table })

/-- `UsbPnpNotifyInitInfo` for the command. -/
def InterfaceRecord.initInfo (r : InterfaceRecord) (c : InterfaceCommand) (removeType : RemoveType)
    (infoTable : InfoTable) : InterfaceRecord × InfoTable :=
  r.addInterfaceInitInfo c
    { r.info with
      removeType
      numInfos := infoTable.numInfos
      interfaceInfo := infoTable.interfaceInfo }

/-! ### The commands -/

/-- The records, the static table, and `g_usbPnpNotifyRemoveType`. -/
structure Tables where
  records : List InterfaceRecord
  infoTable : InfoTable
  removeType : RemoveType

/-- The record is that of the device with these numbers. -/
def InterfaceRecord.IsOf (r : InterfaceRecord) (devNum busNum : Int) : Prop :=
  r.info.devNum = devNum ∧ r.info.busNum = busNum

instance (r : InterfaceRecord) (devNum busNum : Int) : Decidable (r.IsOf devNum busNum) := by
  unfold InterfaceRecord.IsOf
  infer_instance

/-- `UsbPnpNotifyFindInfo` for the numbers of a device. -/
def Tables.find (s : Tables) (devNum busNum : Int) : Option InterfaceRecord :=
  s.records.find? fun r => r.IsOf devNum busNum

/-- The list with the first record of a device replaced. -/
def replaceRecord (devNum busNum : Int) (r' : InterfaceRecord) :
    List InterfaceRecord → List InterfaceRecord
  | [] => []
  | r :: rest =>
      if r.IsOf devNum busNum then r' :: rest else r :: replaceRecord devNum busNum r' rest

/-- The remove type after a command: a removal sets it. -/
def Tables.typeAfter (s : Tables) (c : InterfaceCommand) : RemoveType :=
  if c.remove then .interfaceNum else s.removeType

/-- The record gets the remove type of the command, and the table is built. -/
def Tables.build (s : Tables) (c : InterfaceCommand) (r : InterfaceRecord) :
    InterfaceRecord × InfoTable :=
  ({ r with info.removeType := s.typeAfter c } : InterfaceRecord).initInfo c (s.typeAfter c)
    s.infoTable

/-- A command that is processed, with the table that is built for it, if there is a record. -/
def Tables.process (s : Tables) (c : InterfaceCommand) : Tables × Option InfoTable :=
  match s.find c.infoData.devNum c.infoData.busNum with
  | none => ({ s with removeType := s.typeAfter c }, none)
  | some r =>
      ({ records :=
          replaceRecord c.infoData.devNum c.infoData.busNum (s.build c r).1 s.records
         infoTable := (s.build c r).2
         removeType := s.typeAfter c },
        some (s.build c r).2)

/-- The state after some commands. -/
def Tables.after (s : Tables) (cs : List InterfaceCommand) : Tables :=
  cs.foldl (fun s c => (s.process c).1) s

/-- The command is for the device with these numbers. -/
def InterfaceCommand.IsFor (c : InterfaceCommand) (devNum busNum : Int) : Prop :=
  c.infoData.devNum = devNum ∧ c.infoData.busNum = busNum

instance (c : InterfaceCommand) (devNum busNum : Int) : Decidable (c.IsFor devNum busNum) := by
  unfold InterfaceCommand.IsFor
  infer_instance

/-- The last of the commands for a device that names the interface is a removal. -/
def lastRemoved (devNum busNum : Int) (cs : List InterfaceCommand) (intf : InterfaceInfo) : Bool :=
  ((cs.filter fun c => c.IsFor devNum busNum ∧ c.infoData.interface = intf).getLast?).any (·.remove)

variable {s : Tables} {r r' : InterfaceRecord} {c : InterfaceCommand} {cs : List InterfaceCommand}
  {interfaceInfo table : Nat → InterfaceInfo} {removed : Nat → Bool} {devNum busNum : Int}

theorem lastRemoved_concat (devNum busNum : Int) (cs : List InterfaceCommand) (c : InterfaceCommand)
    (intf : InterfaceInfo) :
  lastRemoved devNum busNum (cs ++ [c]) intf
    = if c.IsFor devNum busNum ∧ c.infoData.interface = intf then c.remove
      else lastRemoved devNum busNum cs intf
  := by
  unfold lastRemoved
  rw [List.filter_append, List.filter_singleton]
  by_cases h : c.IsFor devNum busNum ∧ c.infoData.interface = intf
  · rw [if_pos h, decide_eq_true h]
    simp
  · rw [if_neg h, decide_eq_false h]
    simp

/-! ### The loops -/

/-- The marks of the interfaces that are named are set by the command. -/
theorem markLoop_apply (left i k : Nat) :
  markLoop c interfaceInfo left i removed k
    = if (i ≤ k ∧ k < i + left) ∧ c.infoData.interface = interfaceInfo k then c.remove
      else removed k
  := by
  induction left generalizing i removed with
  | zero =>
      unfold markLoop
      rw [if_neg (by omega)]
  | succ left ih =>
      unfold markLoop
      rw [ih]
      by_cases hk : k = i
      · subst hk
        rw [if_neg (by omega)]
        by_cases hnamed : c.infoData.interface = interfaceInfo k
        · rw [if_pos hnamed, if_pos ⟨by omega, hnamed⟩, Function.update_self]
        · rw [if_neg hnamed, if_neg fun h => hnamed h.2]
      · have hrange : (i + 1 ≤ k ∧ k < i + 1 + left) ↔ (i ≤ k ∧ k < i + (left + 1)) := by omega
        have hkeep : (if c.infoData.interface = interfaceInfo i then
            Function.update removed i c.remove else removed) k = removed k := by
          split
          · rw [Function.update_of_ne hk]
          · rfl
        rw [hkeep]
        simp only [hrange]

/-- The table lists what it listed before, and then the interfaces that are not removed. -/
theorem copyLoop_spec (left i j : Nat) :
  (List.range (copyLoop interfaceInfo removed left i j table).2).map
      (copyLoop interfaceInfo removed left i j table).1
    = (List.range j).map table
      ++ ((List.range' i left).filter fun k => !removed k).map interfaceInfo
  := by
  induction left generalizing i j table with
  | zero => simp [copyLoop]
  | succ left ih =>
      unfold copyLoop
      rw [List.range'_succ]
      by_cases hremoved : removed i
      · rw [if_pos hremoved, ih, List.filter_cons_of_neg (by simp [hremoved])]
      · rw [if_neg hremoved, ih, List.filter_cons_of_pos (by simp [hremoved])]
        rw [List.range_succ, List.map_append, List.map_cons, List.append_assoc]
        congr 1
        · apply List.map_congr_left
          intro k hk
          rw [Function.update_of_ne (Nat.ne_of_lt (List.mem_range.mp hk))]
        · simp

theorem copyLoop_le (left i j : Nat) :
  (copyLoop interfaceInfo removed left i j table).2 ≤ j + left
  := by
  induction left generalizing i j table with
  | zero => apply Nat.le_refl
  | succ left ih =>
      unfold copyLoop
      split
      · apply Nat.le_trans (ih (i + 1) j)
        omega
      · apply Nat.le_trans (ih (i + 1) (j + 1))
        omega

/-- The table that is built lists the interface that is named, or those that are not removed. -/
theorem InterfaceRecord.listed_addInterfaceInitInfo (r : InterfaceRecord) (c : InterfaceCommand)
    (infoTable : InfoTable) :
  (r.addInterfaceInitInfo c infoTable).2.listed
    = if c.remove then [c.infoData.interface]
      else
        ((List.range r.info.numInfos.toNat).filter fun k =>
          !(r.addInterfaceInitInfo c infoTable).1.interfaceRemoveStatus k).map r.info.interfaceInfo
  := by
  unfold addInterfaceInitInfo
  by_cases hremove : c.remove
  · rw [if_pos hremove, if_pos hremove]
    simp [InfoTable.listed]
  · rw [if_neg hremove, if_neg hremove]
    have hspec := @copyLoop_spec r.info.interfaceInfo infoTable.interfaceInfo
      (markLoop c r.info.interfaceInfo r.info.numInfos.toNat 0 r.interfaceRemoveStatus)
      r.info.numInfos.toNat 0 0
    have hle := @copyLoop_le r.info.interfaceInfo infoTable.interfaceInfo
      (markLoop c r.info.interfaceInfo r.info.numInfos.toNat 0 r.interfaceRemoveStatus)
      r.info.numInfos.toNat 0 0
    have hlt := r.info.numInfos.toNat_lt
    unfold InfoTable.listed
    simp only [List.range_eq_range'] at hspec ⊢
    rw [UInt8.toNat_ofNat', Nat.mod_eq_of_lt (by omega)]
    apply hspec

/-! ### The records -/

theorem find_replaceRecord_self
    {records : List InterfaceRecord}
    (hfind : records.find? (fun r => r.IsOf devNum busNum) = some r)
    (hr' : r'.IsOf devNum busNum) :
  (replaceRecord devNum busNum r' records).find? (fun r => r.IsOf devNum busNum) = some r'
  := by
  induction records with
  | nil => cases hfind
  | cons x rest ih =>
      unfold replaceRecord
      by_cases hx : x.IsOf devNum busNum
      · rw [if_pos hx, List.find?_cons, decide_eq_true hr']
      · rw [List.find?_cons_of_neg (by simpa using hx)] at hfind
        rw [if_neg hx, List.find?_cons_of_neg (by simpa using hx), ih hfind]

/-- The record of another device is found as before. -/
theorem find_replaceRecord_of_ne
    {records : List InterfaceRecord} {devNum' busNum' : Int}
    (hne : ¬(devNum' = devNum ∧ busNum' = busNum)) (hr' : r'.IsOf devNum' busNum') :
  (replaceRecord devNum' busNum' r' records).find? (fun r => r.IsOf devNum busNum)
    = records.find? fun r => r.IsOf devNum busNum
  := by
  have hother : ∀ x : InterfaceRecord, x.IsOf devNum' busNum' → ¬x.IsOf devNum busNum := by
    rintro x ⟨rfl, rfl⟩ hx
    apply hne hx
  induction records with
  | nil => rfl
  | cons x rest ih =>
      unfold replaceRecord
      by_cases hx : x.IsOf devNum' busNum'
      · rw [if_pos hx, List.find?_cons_of_neg (by simpa using hother r' hr')]
        rw [List.find?_cons_of_neg (by simpa using hother x hx)]
      · rw [if_neg hx, List.find?_cons, List.find?_cons, ih]

/-- What a record keeps of its commands: its interfaces are those of the device, and the marks are
those of the last commands that name them. -/
structure InterfaceRecord.Keeps (r₀ : InterfaceRecord) (devNum busNum : Int)
    (cs : List InterfaceCommand) (r : InterfaceRecord) : Prop where
  isOf : r.IsOf devNum busNum
  numInfos : r.info.numInfos = r₀.info.numInfos
  interfaceInfo : r.info.interfaceInfo = r₀.info.interfaceInfo
  marks : ∀ k < r₀.info.numInfos.toNat,
    r.interfaceRemoveStatus k = lastRemoved devNum busNum cs (r₀.info.interfaceInfo k)

variable {r₀ : InterfaceRecord}

/-- What is built for a record marks its interfaces, and sets its remove type. -/
theorem Tables.build_record (s : Tables) (c : InterfaceCommand) (r : InterfaceRecord) :
  (s.build c r).1
    = ⟨markLoop c r.info.interfaceInfo r.info.numInfos.toNat 0 r.interfaceRemoveStatus,
      { r.info with removeType := s.typeAfter c }⟩
  := by
  unfold build InterfaceRecord.initInfo InterfaceRecord.addInterfaceInitInfo
  split <;> rfl

/-- The record is built for a command about its device. -/
theorem InterfaceRecord.Keeps.build (h : r₀.Keeps devNum busNum cs r)
    (hc : c.IsFor devNum busNum) (s : Tables) :
  r₀.Keeps devNum busNum (cs ++ [c]) (s.build c r).1
  := by
  rw [s.build_record]
  refine ⟨h.isOf, h.numInfos, h.interfaceInfo, fun k hk => ?_⟩
  show markLoop c r.info.interfaceInfo r.info.numInfos.toNat 0 r.interfaceRemoveStatus k = _
  rw [markLoop_apply, lastRemoved_concat, h.interfaceInfo, h.numInfos, h.marks k hk]
  have hrange : 0 ≤ k ∧ k < 0 + r₀.info.numInfos.toNat := by omega
  simp only [hrange, hc, true_and, and_self]

/-- The table that is built lists the interface that is named, or those whose last command is not a
removal. -/
theorem InterfaceRecord.Keeps.listed (h : r₀.Keeps devNum busNum cs r)
    (hc : c.IsFor devNum busNum) (s : Tables) :
  (s.build c r).2.listed
    = if c.remove then [c.infoData.interface]
      else r₀.info.listed.filter fun intf => !lastRemoved devNum busNum (cs ++ [c]) intf
  := by
  have hkeeps := h.build hc s
  unfold Tables.build InterfaceRecord.initInfo at hkeeps ⊢
  rw [InterfaceRecord.listed_addInterfaceInitInfo]
  congr 1
  unfold InfoTable.listed
  show ((List.range r.info.numInfos.toNat).filter _).map r.info.interfaceInfo = _
  rw [List.filter_map, h.interfaceInfo, h.numInfos]
  congr 1
  apply List.filter_congr
  intro k hk
  rw [hkeeps.marks k (List.mem_range.mp hk)]
  rfl

/-! ### The commands -/

/-- A command about another device leaves the record as it is. -/
theorem Tables.find_process_of_not_isFor (hc : ¬c.IsFor devNum busNum) (s : Tables) :
  (s.process c).1.find devNum busNum = s.find devNum busNum
  := by
  unfold process
  cases hfind : s.find c.infoData.devNum c.infoData.busNum with
  | none => rfl
  | some r =>
      have hof := List.find?_some hfind
      have hbuilt : (s.build c r).1.IsOf c.infoData.devNum c.infoData.busNum := by
        rw [s.build_record]
        apply of_decide_eq_true hof
      apply find_replaceRecord_of_ne hc hbuilt

theorem Tables.process_of_isFor
    (hc : c.IsFor devNum busNum) (hfind : s.find devNum busNum = some r) :
  (s.process c).2 = some (s.build c r).2
    ∧ (s.process c).1.find devNum busNum = some (s.build c r).1
  := by
  obtain ⟨rfl, rfl⟩ := hc
  unfold process
  rw [hfind]
  use rfl
  have hof := List.find?_some hfind
  apply find_replaceRecord_self hfind
  rw [s.build_record]
  apply of_decide_eq_true hof

/-- After any commands, the record found for the device keeps what they say. -/
theorem Tables.after_keeps
    (hfind : s.find devNum busNum = some r₀) (hfresh : ∀ k, r₀.interfaceRemoveStatus k = false)
    (cs : List InterfaceCommand) :
  ∃ r, (s.after cs).find devNum busNum = some r ∧ r₀.Keeps devNum busNum cs r
  := by
  induction cs using List.reverseRecOn with
  | nil =>
      have hof := List.find?_some hfind
      use r₀, hfind
      exact ⟨of_decide_eq_true hof, rfl, rfl, fun k _ => hfresh k⟩
  | append_singleton cs c ih =>
      obtain ⟨r, hr, hkeeps⟩ := ih
      have hafter : s.after (cs ++ [c]) = ((s.after cs).process c).1 := by
        unfold after
        rw [List.foldl_append]
        rfl
      rw [hafter]
      by_cases hc : c.IsFor devNum busNum
      · use ((s.after cs).build c r).1, (process_of_isFor hc hr).2
        apply hkeeps.build hc
      · use r
        rw [find_process_of_not_isFor hc]
        use hr, hkeeps.isOf, hkeeps.numInfos, hkeeps.interfaceInfo
        intro k hk
        rw [lastRemoved_concat, if_neg fun h => hc h.1]
        apply hkeeps.marks k hk

/-- After any commands, the table for an `ADD_INTERFACE` about a device lists the interfaces whose
last command was not a removal, in the order of the device and each once; the one for a
`REMOVE_INTERFACE` lists the interface that is named; and a command about another device leaves the
record as it is. -/
theorem interfaceTable_spec
    (hfind : s.find devNum busNum = some r) (hdistinct : r.info.listed.Nodup)
    (hfresh : ∀ k, r.interfaceRemoveStatus k = false) (cs : List InterfaceCommand)
    (c : InterfaceCommand) :
  (c.IsFor devNum busNum →
    ∃ t, ((s.after cs).process c).2 = some t
      ∧ (c.remove = true → t.listed = [c.infoData.interface])
      ∧ (c.remove = false →
        t.listed = (r.info.listed.filter fun intf => !lastRemoved devNum busNum (cs ++ [c]) intf)
        ∧ t.listed.Nodup
        ∧ t.numInfos.toNat
          = (r.info.listed.filter fun intf => !lastRemoved devNum busNum (cs ++ [c]) intf).length))
  ∧ (¬c.IsFor devNum busNum →
    ((s.after cs).process c).1.find devNum busNum = (s.after cs).find devNum busNum)
  := by
  obtain ⟨r', hr', hkeeps⟩ := Tables.after_keeps hfind hfresh cs
  constructor
  · intro hc
    have hlisted := hkeeps.listed hc (s.after cs)
    use ((s.after cs).build c r').2, (Tables.process_of_isFor hc hr').1
    constructor
    · intro hremove
      rw [hlisted, if_pos hremove]
    · intro hadd
      rw [if_neg (Bool.not_eq_true _ ▸ hadd)] at hlisted
      have hlength : ((s.after cs).build c r').2.listed.length
          = ((s.after cs).build c r').2.numInfos.toNat := by
        unfold InfoTable.listed
        rw [List.length_map, List.length_range]
      rw [← hlength, hlisted]
      exact ⟨rfl, hdistinct.filter _, rfl⟩
  · intro hc
    apply Tables.find_process_of_not_isFor hc

/-- A device with two interfaces, the first of which is removed. -/
theorem interfaceTable_spec_removed :
  ∃ t, ((Tables.after
      ⟨[⟨fun _ => false, ⟨4096, 2, 1, default, .busDevNum, 2, fun k => ⟨3, 1, 1, UInt8.ofNat k⟩⟩⟩],
        ⟨0, 0, 0, default, .busDevNum, 0, fun _ => default⟩, .busDevNum⟩
      [⟨true, 2, 1, 0, 3, 1, 1⟩]).process ⟨false, 2, 1, 7, 3, 1, 1⟩).2 = some t
    ∧ t.listed = [⟨3, 1, 1, 1⟩]
  := by
  obtain ⟨t, ht, -, hadd⟩ := (interfaceTable_spec
    (s := ⟨[⟨fun _ => false,
        ⟨4096, 2, 1, default, .busDevNum, 2, fun k => ⟨3, 1, 1, UInt8.ofNat k⟩⟩⟩],
      ⟨0, 0, 0, default, .busDevNum, 0, fun _ => default⟩, .busDevNum⟩) rfl (by decide)
    (fun _ => rfl) [⟨true, 2, 1, 0, 3, 1, 1⟩] ⟨false, 2, 1, 7, 3, 1, 1⟩).1 ⟨rfl, rfl⟩
  use t, ht
  rw [(hadd rfl).1]
  decide

/-! ### The interfaces of the records of the notifier -/

/-- The command of the notifier. -/
def InterfaceCommand.cmd (c : InterfaceCommand) : Cmd :=
  if c.remove then .removeInterface else .addInterface

/-- The arrays hold the interfaces of a record of the notifier, and their marks. -/
structure InterfaceRecord.Represents (r : InterfaceRecord) (d : DeviceInfo) : Prop where
  interfaces : d.info.interfaceInfo = r.info.listed
  marks : ∀ k < r.info.numInfos.toNat,
    d.interfaceRemoveStatus.getD k false = r.interfaceRemoveStatus k

theorem headD_eq_getD (removed : List Bool) :
  removed.headD false = removed.getD 0 false
  := by
  cases removed with
  | nil => rfl
  | cons b removed => rfl

theorem tail_getD (removed : List Bool) (k : Nat) :
  removed.tail.getD k false = removed.getD (k + 1) false
  := by
  cases removed with
  | nil => rfl
  | cons b removed => rfl

theorem markInterfaces_getD (cmdType : Cmd) (intf : InterfaceInfo) (infos : List InterfaceInfo)
    (removed : List Bool) (k : Nat) :
  (markInterfaces cmdType intf infos removed).getD k false
    = if infos[k]? = some intf then decide (cmdType = .removeInterface) else removed.getD k false
  := by
  induction infos generalizing removed k with
  | nil => rfl
  | cons i rest ih =>
      unfold markInterfaces
      cases k with
      | zero =>
          rw [List.getD_cons_zero, headD_eq_getD]
          simp only [List.getElem?_cons_zero, Option.some.injEq, eq_comm]
      | succ k =>
          rw [List.getD_cons_succ, ih, tail_getD]
          simp only [List.getElem?_cons_succ]

theorem presentInterfaces_eq (infos : List InterfaceInfo) (removed : List Bool) :
  presentInterfaces infos removed
    = ((List.range infos.length).filter fun k => !removed.getD k false).filterMap (infos[·]?)
  := by
  induction infos generalizing removed with
  | nil => rfl
  | cons i rest ih =>
      unfold presentInterfaces
      rw [List.length_cons, List.range_succ_eq_map, headD_eq_getD, ih]
      simp only [tail_getD]
      by_cases h : removed.getD 0 false
      · rw [if_pos h, List.filter_cons_of_neg (by simp only [h]; exact Bool.false_ne_true)]
        rw [List.filter_map, List.filterMap_map]
        rfl
      · rw [if_neg h, List.filter_cons_of_pos (by simp only [h]; rfl)]
        rw [List.filterMap_cons, List.filter_map, List.filterMap_map]
        rfl

/-- On a record of the notifier, `UsbPnpNotifyAddInterfaceInitInfo` does what it does on the
arrays. -/
theorem InterfaceRecord.Represents.addInterfaceInitInfo {d : DeviceInfo} (h : r.Represents d)
    (c : InterfaceCommand) (infoTable : InfoTable) :
  (r.addInterfaceInitInfo c infoTable).1.Represents (Pnp.addInterfaceInitInfo c.cmd d c.infoData).1
    ∧ (r.addInterfaceInitInfo c infoTable).2.listed
      = (Pnp.addInterfaceInitInfo c.cmd d c.infoData).2
  := by
  have hcmd : decide (c.cmd = .removeInterface) = c.remove := by
    unfold InterfaceCommand.cmd
    cases c.remove with
    | false => rfl
    | true => rfl
  have hinfo : (r.addInterfaceInitInfo c infoTable).1.info = r.info := by
    unfold InterfaceRecord.addInterfaceInitInfo
    split <;> rfl
  have hstatus : (r.addInterfaceInitInfo c infoTable).1.interfaceRemoveStatus
      = markLoop c r.info.interfaceInfo r.info.numInfos.toNat 0 r.interfaceRemoveStatus := by
    unfold InterfaceRecord.addInterfaceInitInfo
    split <;> rfl
  have hget : ∀ k < r.info.numInfos.toNat,
      d.info.interfaceInfo[k]? = some (r.info.interfaceInfo k) := by
    intro k hk
    rw [h.interfaces]
    unfold InfoTable.listed
    rw [List.getElem?_map, List.getElem?_range hk]
    rfl
  have hmarks : ∀ k < r.info.numInfos.toNat,
      (Pnp.addInterfaceInitInfo c.cmd d c.infoData).1.interfaceRemoveStatus.getD k false
        = (r.addInterfaceInitInfo c infoTable).1.interfaceRemoveStatus k := by
    intro k hk
    rw [hstatus, markLoop_apply]
    have hmark := markInterfaces_getD c.cmd c.infoData.interface d.info.interfaceInfo
      d.interfaceRemoveStatus k
    rw [hcmd, h.marks k hk] at hmark
    simp only [hget k hk, Option.some.injEq, eq_comm] at hmark
    apply hmark.trans
    have hrange : 0 ≤ k ∧ k < 0 + r.info.numInfos.toNat := by omega
    simp only [hrange, and_self, true_and]
  constructor
  · constructor
    · rw [hinfo]
      apply h.interfaces
    · rw [hinfo]
      apply hmarks
  · rw [InterfaceRecord.listed_addInterfaceInitInfo]
    show _ = if c.cmd = .removeInterface then _ else presentInterfaces _ _
    cases hremove : c.remove with
    | true =>
        rw [if_pos (of_decide_eq_true (hcmd.trans hremove))]
        rfl
    | false =>
        rw [if_neg (of_decide_eq_false (hcmd.trans hremove)), presentInterfaces_eq]
        have hlength : d.info.interfaceInfo.length = r.info.numInfos.toNat := by
          rw [h.interfaces]
          unfold InfoTable.listed
          rw [List.length_map, List.length_range]
        have hmap : ∀ ks : List Nat, (∀ k ∈ ks, k < r.info.numInfos.toNat) →
            ks.filterMap (d.info.interfaceInfo[·]?) = ks.map r.info.interfaceInfo := by
          intro ks hks
          rw [← List.filterMap_eq_map]
          apply List.filterMap_congr
          intro k hk
          apply hget k (hks k hk)
        rw [hlength, hmap _ fun k hk => List.mem_range.mp (List.mem_filter.mp hk).1]
        show List.map _ _ = List.map _ _
        congr 1
        apply List.filter_congr
        intro k hk
        rw [← hmarks k (List.mem_range.mp hk)]
        rfl

end Pnp
