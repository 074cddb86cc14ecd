import KhdfLinux.Lib.Ledger
import KhdfLinux.Lib.Run
import KhdfLinux.Pnp.SendEvent

/-!
# The identity of records

`UsbPnpNotifyCreateInfo` and `UsbPnpNotifyDestroyInfo` with the addresses of the records.  A record
is destroyed by its id, and ids come from a counter that starts again.  `identified_iff`: over any
calls, the ids are positive and distinct, and what is destroyed is the record that is asked for,
exactly as long as no record is created while the one of 2147483646 creations before is there, and
none is destroyed that is not there while the list is empty or has a record with the id in its
memory.
-/

namespace Pnp

/-- A record, at the address that its allocation gave it. -/
structure Record where
  address : Nat
  id : Nat
  deriving DecidableEq, Repr

/-- `g_usbPnpInfoListHead`, `idNum`, and the memory of the records. -/
structure RecordList where
  records : List Record
  idNum : Nat
  memory : Ledger
  deriving DecidableEq, Repr

namespace RecordList

variable (s : RecordList)

/-- No record was created. -/
def new : RecordList := ⟨[], 1, .empty⟩

/-- The id of the next record. -/
def nextId : Nat := if s.idNum = int32Max then 1 else s.idNum

/-- `UsbPnpNotifyCreateInfo`. -/
def createInfo (allocated : Bool) : RecordList :=
  if allocated then
    { records := s.records ++ [⟨s.memory.allocated, s.nextId⟩]
      idNum := s.nextId + 1
      memory := s.memory.alloc }
  else s

/-- What is at an address: the record of the list that is there, and else what is left in the
memory. -/
def pointed (address stale : Nat) : Record :=
  (s.records.find? (·.address = address)).getD ⟨address, stale⟩

/-- `UsbPnpNotifyDestroyInfo`, and what it returns. -/
def destroyInfo (deviceInfo : Option Record) : RecordList × Int :=
  match deviceInfo with
  | none => (s, Hdf.failure)
  | some r =>
      if s.records = [] then (s, Hdf.success)
      else
        match s.records.find? (·.id = r.id) with
        | none => (s, Hdf.failure)
        | some infoPos =>
            ({ s with
                records := s.records.erase infoPos
                memory := s.memory.free infoPos.address }, Hdf.success)

/-- The calls: a creation, if there is memory, and a destruction of the record at an address, with
the id in the memory there if no record of the list is. -/
inductive Call where
  | create (allocated : Bool)
  | destroy (deviceInfo : Option Nat) (stale : Nat)
  deriving DecidableEq, Repr

/-- The state after a call. -/
def next : Call → RecordList
  | .create allocated => s.createInfo allocated
  | .destroy deviceInfo stale => (s.destroyInfo (deviceInfo.map fun a => s.pointed a stale)).1

/-- The code that a destruction returns. -/
def code (deviceInfo : Option Nat) (stale : Nat) : Int :=
  (s.destroyInfo (deviceInfo.map fun a => s.pointed a stale)).2

/-- The record at the address is on the list. -/
def Lists (address : Nat) : Prop := ∃ r ∈ s.records, r.address = address

/-- What is to hold of a call.  The ids are positive and distinct after it.  A destruction removes
and frees the record at the address and no other, if it is on the list, and reports a failure
exactly if it is not. -/
structure Identified (c : Call) : Prop where
  positive : ∀ r ∈ (s.next c).records, 0 < r.id
  distinct : ((s.next c).records.map Record.id).Nodup
  removed : ∀ address stale, c = .destroy (some address) stale →
    (s.next c).records = s.records.filter (·.address ≠ address)
  freed : ∀ address stale, c = .destroy (some address) stale →
    (s.Lists address → (s.next c).memory = s.memory.free address)
      ∧ (¬s.Lists address → (s.next c).memory = s.memory)
  reported : ∀ address stale, c = .destroy (some address) stale →
    (s.code (some address) stale = Hdf.failure ↔ ¬s.Lists address)

/-- How many creations later an id comes again. -/
def period : Nat := 2147483646

/-- The record of 2147483646 creations before is not there at a creation; if the record that is to
be destroyed is not there, there are others, and none with the id in its memory. -/
def Distinguished : Call → Prop
  | .create true => ∀ r ∈ s.records, r.address + period ≠ s.memory.allocated
  | .destroy (some address) stale =>
      ¬s.Lists address → s.records ≠ [] ∧ ∀ r ∈ s.records, r.id ≠ stale
  | _ => True

/-! ### The records -/

variable {s} {r : Record} {address stale : Nat}

/-- A key that is different for all records finds each of them. -/
theorem find_of_nodup {key : Record → Nat} {records : List Record}
    (h : (records.map key).Nodup) (hr : r ∈ records) :
  records.find? (fun x => key x = key r) = some r
  := by
  cases hfind : records.find? (fun x => key x = key r) with
  | none => exact absurd (decide_eq_true rfl) (List.find?_eq_none.mp hfind r hr)
  | some x =>
      have hx := List.mem_of_find?_eq_some hfind
      have hkey := List.find?_some hfind
      rw [List.inj_on_of_nodup_map h hx hr (of_decide_eq_true hkey)]

/-- The ids are counted from 1 to 2147483646, and no record is older than that. -/
structure Inv (s : RecordList) : Prop where
  distinct : (s.records.map Record.id).Nodup
  memory : s.memory.Holds (s.records.map Record.address)
  id : ∀ r ∈ s.records, r.id = 1 + r.address % period
  age : ∀ r ∈ s.records, s.memory.allocated ≤ r.address + period
  next : s.nextId = 1 + s.memory.allocated % period

theorem inv_new :
  new.Inv
  where
  distinct := List.nodup_nil
  memory := Ledger.holds_empty
  id _ hr := nomatch hr
  age _ hr := nomatch hr
  next := rfl

/-- A record of the list was created. -/
theorem Inv.address_lt (h : s.Inv) (hr : r ∈ s.records) :
  r.address < s.memory.allocated
  := (h.memory.kept r.address (List.mem_map_of_mem hr)).1

theorem Inv.pointed_of_mem (h : s.Inv) (hr : r ∈ s.records) (stale : Nat) :
  s.pointed r.address stale = r
  := by
  unfold pointed
  have hfind : s.records.find? (fun x => x.address = r.address) = some r :=
    find_of_nodup h.memory.nodup hr
  rw [hfind]
  rfl

theorem pointed_of_not_lists (h : ¬s.Lists address) :
  s.pointed address stale = ⟨address, stale⟩
  := by
  have hnone : s.records.find? (·.address = address) = none := by
    apply List.find?_eq_none.mpr
    intro r hr haddress
    apply h ⟨r, hr, of_decide_eq_true haddress⟩
  unfold pointed
  rw [hnone]
  rfl

/-- The list without the record at an address. -/
theorem Inv.erase_eq_filter (h : s.Inv) (hr : r ∈ s.records) :
  s.records.erase r = s.records.filter (·.address ≠ r.address)
  := by
  rw [(List.Nodup.of_map _ h.memory.nodup).erase_eq_filter]
  apply List.filter_congr
  intro x hx
  rw [Bool.eq_iff_iff, bne_iff_ne, decide_eq_true_iff]
  apply not_congr
  constructor
  · rintro rfl
    rfl
  · intro haddress
    apply List.inj_on_of_nodup_map h.memory.nodup hx hr haddress

/-- A record of the list is destroyed, and no other. -/
theorem Inv.destroyInfo_of_mem (h : s.Inv) (hr : r ∈ s.records) :
  s.destroyInfo (some r)
    = ({ s with records := s.records.erase r, memory := s.memory.free r.address }, Hdf.success)
  := by
  show (if s.records = [] then _ else _) = _
  rw [if_neg (List.ne_nil_of_mem hr), find_of_nodup h.distinct hr]

/-! ### The calls -/

theorem Inv.create (h : s.Inv) (hspared : s.Distinguished (.create true)) :
  (s.next (.create true)).Inv
  := by
  have hage : ∀ r ∈ s.records, s.memory.allocated < r.address + period := fun r hr =>
    Nat.lt_of_le_of_ne (h.age r hr) (hspared r hr).symm
  refine ⟨?_, ?_, ?_, ?_, ?_⟩
  · show ((s.records ++ [_]).map Record.id).Nodup
    rw [List.map_append]
    apply h.distinct.append (List.nodup_singleton _)
    apply List.disjoint_singleton.mpr
    intro hmem
    obtain ⟨r, hr, hid⟩ := List.mem_map.mp hmem
    have hlt := h.address_lt hr
    have hyoung := hage r hr
    rw [h.id r hr] at hid
    have hid : 1 + r.address % period = s.nextId := hid
    rw [h.next] at hid
    unfold period at hid hyoung
    omega
  · show s.memory.alloc.Holds ((s.records ++ [_]).map Record.address)
    rw [List.map_append]
    apply h.memory.alloc
  · intro r hr
    obtain hr | hr := List.mem_append.mp hr
    · apply h.id r hr
    · rw [List.mem_singleton.mp hr]
      apply h.next
  · intro r hr
    obtain hr | hr := List.mem_append.mp hr
    · apply hage r hr
    · rw [List.mem_singleton.mp hr]
      show s.memory.allocated + 1 ≤ s.memory.allocated + period
      unfold period
      omega
  · have hnext := h.next
    show (if s.nextId + 1 = int32Max then 1 else s.nextId + 1)
      = 1 + (s.memory.allocated + 1) % period
    rw [hnext]
    unfold int32Max period
    split <;> omega

theorem Inv.destroy (h : s.Inv) (hr : r ∈ s.records) :
  ({ s with records := s.records.erase r, memory := s.memory.free r.address } : RecordList).Inv
  where
  distinct := h.distinct.sublist (List.erase_sublist.map _)
  memory := by
    have hmap : (s.records.erase r).map Record.address
        = (s.records.map Record.address).erase r.address := by
      rw [h.erase_eq_filter hr, h.memory.nodup.erase_eq_filter, List.filter_map]
      congr 1
      apply List.filter_congr
      intro x _
      rw [Bool.eq_iff_iff, decide_eq_true_iff]
      exact bne_iff_ne.symm
    rw [hmap]
    apply h.memory.free (List.mem_map_of_mem hr)
  id x hx := h.id x (List.mem_of_mem_erase hx)
  age x hx := h.age x (List.mem_of_mem_erase hx)
  next := h.next

/-- What is to hold of a creation, exactly if the id of the new record is not on the list. -/
theorem Inv.create_iff (h : s.Inv) (allocated : Bool) :
  s.Identified (.create allocated) ↔ s.Distinguished (.create allocated)
  := by
  have hidentified (hinv : (s.next (.create allocated)).Inv) :
      s.Identified (.create allocated) := by
    refine ⟨fun r hr => ?_, hinv.distinct, nofun, nofun, nofun⟩
    rw [hinv.id r hr]
    omega
  cases allocated with
  | false => exact iff_of_true (hidentified h) trivial
  | true =>
      refine ⟨fun hnew r hr hold => ?_, fun hspared => hidentified (h.create hspared)⟩
      have hdistinct : ((s.records ++ [(⟨s.memory.allocated, s.nextId⟩ : Record)]).map
          Record.id).Nodup :=
        hnew.distinct
      rw [List.map_append] at hdistinct
      apply List.disjoint_of_nodup_append hdistinct (List.mem_map_of_mem hr)
      apply List.mem_singleton.mpr
      show r.id = s.nextId
      rw [h.id r hr, h.next, ← hold, Nat.add_mod_right]

theorem Inv.destroyed (h : s.Inv) (hr : r ∈ s.records) (stale : Nat) :
  (s.next (.destroy (some r.address) stale)).Inv
    ∧ s.Identified (.destroy (some r.address) stale)
  := by
  have hcall := h.destroyInfo_of_mem hr
  rw [← h.pointed_of_mem hr stale] at hcall
  have hnext : s.next (.destroy (some r.address) stale)
      = { s with records := s.records.erase r, memory := s.memory.free r.address } := by
    show (s.destroyInfo (some (s.pointed r.address stale))).1 = _
    rw [hcall, h.pointed_of_mem hr]
  have hcode : s.code (some r.address) stale = Hdf.success := by
    show (s.destroyInfo (some (s.pointed r.address stale))).2 = _
    rw [hcall]
  have hlists : s.Lists r.address := ⟨r, hr, rfl⟩
  have hinv := h.destroy hr
  rw [← hnext] at hinv
  refine ⟨hinv, fun x hx => ?_, hinv.distinct, ?_, ?_, ?_⟩
  · rw [hinv.id x hx]
    omega
  · rintro _ _ ⟨⟩
    rw [hnext]
    apply h.erase_eq_filter hr
  · rintro _ _ ⟨⟩
    refine ⟨fun _ => ?_, fun hnot => absurd hlists hnot⟩
    rw [hnext]
  · rintro _ _ ⟨⟩
    rw [hcode]
    exact iff_of_false (by decide) (not_not.mpr hlists)

/-- A destruction of a record that is not on the list goes wrong if the list is empty, or a record
on it has the id. -/
theorem Inv.missing_iff (h : s.Inv) (hmissing : ¬s.Lists address) (stale : Nat) :
  (s.Identified (.destroy (some address) stale) ↔ s.Distinguished (.destroy (some address) stale))
    ∧ (s.Distinguished (.destroy (some address) stale) →
      s.next (.destroy (some address) stale) = s)
  := by
  have hpointed : s.pointed address stale = ⟨address, stale⟩ := pointed_of_not_lists hmissing
  have hkeeps (hspared : s.Distinguished (.destroy (some address) stale)) :
      s.destroyInfo (some (s.pointed address stale)) = (s, Hdf.failure) := by
    obtain ⟨hne, hid⟩ := hspared hmissing
    have hnone : s.records.find? (fun r => r.id = stale) = none := by
      apply List.find?_eq_none.mpr
      intro r hr heq
      apply hid r hr (of_decide_eq_true heq)
    rw [hpointed]
    show (if s.records = [] then _ else _) = _
    rw [if_neg hne, hnone]
  have hnext (hspared : s.Distinguished (.destroy (some address) stale)) :
      s.next (.destroy (some address) stale) = s := congrArg Prod.fst (hkeeps hspared)
  refine ⟨⟨fun hidentified _ => ?_, fun hspared => ?_⟩, hnext⟩
  · have hcode : (s.destroyInfo (some (s.pointed address stale))).2 = Hdf.failure :=
      (hidentified.reported address stale rfl).mpr hmissing
    rw [hpointed] at hcode
    have hne : Hdf.success ≠ Hdf.failure := by decide
    constructor
    · intro hnil
      have hempty : s.destroyInfo (some ⟨address, stale⟩) = (s, Hdf.success) := if_pos hnil
      rw [hempty] at hcode
      apply hne hcode
    · rintro r hr rfl
      have hcall : s.destroyInfo (some ⟨address, r.id⟩)
          = ({ s with records := s.records.erase r, memory := s.memory.free r.address },
            Hdf.success) := h.destroyInfo_of_mem hr
      rw [hcall] at hcode
      apply hne hcode
  · have hsame := hnext hspared
    have hcode : s.code (some address) stale = Hdf.failure := congrArg Prod.snd (hkeeps hspared)
    refine ⟨fun r hr => ?_, ?_, ?_, ?_, ?_⟩
    · rw [hsame] at hr
      rw [h.id r hr]
      omega
    · rw [hsame]
      apply h.distinct
    · rintro _ _ ⟨⟩
      rw [hsame]
      symm
      apply List.filter_eq_self.mpr
      intro r hr
      apply decide_eq_true
      exact fun heq => hmissing ⟨r, hr, heq⟩
    · rintro _ _ ⟨⟩
      rw [hsame]
      exact ⟨fun hlists => absurd hlists hmissing, fun _ => rfl⟩
    · rintro _ _ ⟨⟩
      exact iff_of_true hcode hmissing

/-- What is to hold of a call, exactly under the condition, which keeps the invariant. -/
theorem Inv.call_iff (h : s.Inv) (c : Call) :
  (s.Identified c ↔ s.Distinguished c) ∧ (s.Distinguished c → (s.next c).Inv)
  := by
  cases c with
  | create allocated =>
      refine ⟨h.create_iff allocated, fun hspared => ?_⟩
      cases allocated with
      | false => apply h
      | true => apply h.create hspared
  | destroy deviceInfo stale =>
      cases deviceInfo with
      | none =>
          have hidentified : s.Identified (.destroy none stale) :=
            ⟨fun r hr => by rw [h.id r hr]; omega, h.distinct, nofun, nofun, nofun⟩
          exact ⟨iff_of_true hidentified trivial, fun _ => h⟩
      | some address =>
          by_cases hlists : s.Lists address
          · obtain ⟨r, hr, rfl⟩ := hlists
            obtain ⟨hinv, hidentified⟩ := h.destroyed hr stale
            exact ⟨iff_of_true hidentified fun hnot => absurd ⟨r, hr, rfl⟩ hnot, fun _ => hinv⟩
          · obtain ⟨hiff, hsame⟩ := h.missing_iff hlists stale
            refine ⟨hiff, fun hspared => ?_⟩
            rw [hsame hspared]
            apply h

/-- Over any calls, the ids are positive and distinct and what is destroyed is the record that is
asked for, exactly as long as the record of 2147483646 creations before is not there at a creation,
and a record that is to be destroyed is on the list or there are others without its id. -/
theorem identified_iff (calls : List Call) :
  Along next Identified new calls ↔ Along next Distinguished new calls
  := by
  apply along_iff (fun s c (h : s.Inv) => (h.call_iff c).1)
  · exact fun s c h => (h.call_iff c).2
  · apply inv_new

/-! ### A record that stays -/

/-- As long as all goes well, a record that is never destroyed sees 2147483646 creations at most. -/
theorem Inv.creations_le
    {calls : List Call} (h : s.Inv) (hr : r ∈ s.records)
    (hstays : ∀ c ∈ calls, ∀ stale, c ≠ .destroy (some r.address) stale)
    (hcalls : Along RecordList.next Distinguished s calls) :
  s.memory.allocated + calls.count (.create true) ≤ r.address + period
  := by
  induction calls generalizing s with
  | nil => apply h.age r hr
  | cons c calls ih =>
      obtain ⟨hspared, hcalls⟩ := hcalls
      obtain ⟨hc, hstays⟩ := List.forall_mem_cons.mp hstays
      obtain ⟨hiff, hkeep⟩ := h.call_iff c
      have hidentified := hiff.mpr hspared
      have hnext : r ∈ (s.next c).records ∧ s.memory.allocated + [c].count (.create true)
          = (s.next c).memory.allocated := by
        cases c with
        | create allocated =>
            cases allocated with
            | false => exact ⟨hr, rfl⟩
            | true => exact ⟨List.mem_append_left _ hr, rfl⟩
        | destroy deviceInfo stale =>
            cases deviceInfo with
            | none => exact ⟨hr, rfl⟩
            | some address =>
                have haddress : r.address ≠ address := by
                  rintro rfl
                  apply hc stale rfl
                obtain ⟨hfree, hleave⟩ := hidentified.freed address stale rfl
                constructor
                · rw [hidentified.removed address stale rfl]
                  apply List.mem_filter.mpr ⟨hr, decide_eq_true haddress⟩
                · by_cases hlists : s.Lists address
                  · rw [hfree hlists]
                    rfl
                  · rw [hleave hlists]
                    rfl
      have hle := ih (hkeep hspared) hnext.1 hstays hcalls
      rw [← hnext.2] at hle
      rw [← List.singleton_append, List.count_append]
      omega

/-- Records that are created and destroyed at once, the first at address `m`. -/
def rounds (m : Nat) : Nat → List Call
  | 0 => []
  | n + 1 => .create true :: .destroy (some m) 0 :: rounds (m + 1) n

theorem count_rounds (m n : Nat) :
  (rounds m n).count (.create true) = n
  := by
  induction n generalizing m with
  | zero => rfl
  | succ n ih =>
      have hne : Call.destroy (some m) 0 ≠ .create true := nofun
      unfold rounds
      rw [List.count_cons_self, List.count_cons_of_ne hne, ih]

theorem rounds_stay {m n address stale : Nat} (h : address < m) :
  .destroy (some address) stale ∉ rounds m n
  := by
  induction n generalizing m with
  | zero => exact List.not_mem_nil
  | succ n ih =>
      unfold rounds
      intro hmem
      obtain heq | hmem := List.mem_cons.mp hmem
      · cases heq
      · obtain heq | hmem := List.mem_cons.mp hmem
        · obtain rfl : address = m := Option.some.inj (Call.destroy.inj heq).1
          apply Nat.lt_irrefl _ h
        · apply ih (Nat.lt_succ_of_lt h) hmem

/-- A device that stays while others come and go shares its id in the end. -/
theorem id_comes_again :
  ¬Along next Identified new (.create true :: rounds 1 2147483646)
  := by
  intro hidentified
  obtain ⟨hspared, hcalls⟩ := (identified_iff _).mp hidentified
  have hinv : (new.next (.create true)).Inv := inv_new.create hspared
  have hle := hinv.creations_le (r := ⟨0, 1⟩) List.mem_cons_self
    (fun c hc stale heq => rounds_stay Nat.one_pos (heq ▸ hc)) hcalls
  rw [count_rounds] at hle
  exact absurd hle (by decide)

end RecordList

/-! ### The records of the notifier -/

/-- The list is that of the notifier. -/
structure RecordList.Represents (s : RecordList) (n : Notifier) : Prop where
  ids : n.infoList.map DeviceInfo.id = s.records.map Record.id
  idNum : n.idNum = s.idNum

variable {s : RecordList} {n : Notifier}

theorem RecordList.Represents.createInfo (h : s.Represents n) (allocated : Bool) :
  (s.createInfo allocated).Represents (n.createInfo allocated).1
  := by
  have hid : n.nextId = s.nextId := by
    unfold Notifier.nextId RecordList.nextId
    rw [h.idNum]
  cases allocated with
  | false => apply h
  | true =>
      constructor
      · show (n.infoList ++ [DeviceInfo.new n.nextId]).map DeviceInfo.id
          = (s.records ++ [_]).map Record.id
        rw [List.map_append, List.map_append, h.ids, hid]
        rfl
      · show n.nextId + 1 = s.nextId + 1
        rw [hid]

/-- To erase the first element with a property is to erase the first that has it. -/
theorem erase_of_find {records : List Record} {p : Record → Bool} {r : Record}
    (h : records.find? p = some r) :
  records.erase r = records.eraseP p
  := by
  induction records with
  | nil => cases h
  | cons x records ih =>
      by_cases hx : p x
      · rw [List.find?_cons_of_pos hx] at h
        obtain rfl := Option.some.inj h
        rw [List.erase_cons_head, List.eraseP_cons_of_pos hx]
      · have hne : x ≠ r := by
          rintro rfl
          apply hx (List.find?_some h)
        have hbeq : ¬(x == r) := fun heq => hne (eq_of_beq heq)
        rw [List.find?_cons_of_neg hx] at h
        rw [List.erase_cons_tail hbeq, List.eraseP_cons_of_neg hx, ih h]

theorem RecordList.Represents.destroyInfo (h : s.Represents n) (r : Record) :
  (s.destroyInfo (some r)).1.Represents { n with infoList := Pnp.destroyInfo n.infoList r.id }
  := by
  have herase : (n.infoList.eraseP fun x => x.id = r.id).map DeviceInfo.id
      = (s.records.eraseP fun x => x.id = r.id).map Record.id := by
    have hmap := congrArg (List.eraseP fun id => id = r.id) h.ids
    rw [List.eraseP_map, List.eraseP_map] at hmap
    apply hmap
  have hrecords : (s.destroyInfo (some r)).1.records = s.records.eraseP fun x => x.id = r.id := by
    show (if s.records = [] then _ else _ : RecordList × Int).1.records = _
    by_cases hnil : s.records = []
    · rw [if_pos hnil, hnil]
      rfl
    · rw [if_neg hnil]
      cases hfind : s.records.find? fun x => x.id = r.id with
      | none =>
          symm
          apply List.eraseP_of_forall_not
          apply List.find?_eq_none.mp hfind
      | some infoPos => apply erase_of_find hfind
  have hidNum : (s.destroyInfo (some r)).1.idNum = s.idNum := by
    show (if s.records = [] then _ else _ : RecordList × Int).1.idNum = _
    split
    · rfl
    · split <;> rfl
  constructor
  · rw [hrecords]
    apply herase
  · rw [hidNum]
    apply h.idNum

end Pnp
