import KhdfLinux.Pnp.PayloadType
import KhdfLinux.Pnp.Reports
import Mathlib.Data.List.Nodup

/-!
# The protocol of events

What userspace is told of one device, and when notifications and commands come in order, so that the
driver tells it as it should; and who has a record on the list while they do.
-/

namespace Pnp

/-- The device of the record. -/
abbrev DeviceInfo.addr (r : DeviceInfo) : Nat := r.info.usbDevAddr

/-- The protocol `ADD_DEVICE (ADD_INTERFACE | REMOVE_INTERFACE)* REMOVE_DEVICE`: if the device is
announced after a command that may come. -/
def follow : Option Bool → Cmd → Option Bool
  | some false, .addDevice => some true
  | some true, .addInterface => some true
  | some true, .removeInterface => some true
  | some true, .removeDevice => some false
  | _, _ => none

/-- What the events about the device come to. -/
def eventState (events : List Event) (addr : Nat) : Option Bool :=
  ((events.filter fun e => e.table.usbDevAddr = addr).map Event.cmd).foldl follow (some false)

/-- The device was announced, and not yet its removal. -/
def Notifier.Opened (n : Notifier) (addr : Nat) : Prop :=
  eventState n.events addr = some true

/-- Nothing is on its way about the record: its device is announced and idle, or was never
announced. -/
def Notifier.Idle (n : Notifier) (r : DeviceInfo) : Prop :=
  r.status = .add ∨ r.status = .init ∧ ¬n.Opened r.addr

/-- The removal of the device is in the mailbox. -/
def Notifier.Removing (n : Notifier) (addr : Nat) : Prop :=
  n.usbDevice = some (.device addr) ∧ n.cmdType = .removeDevice

/-- The addition of the device is in the mailbox. -/
def Notifier.Adding (n : Notifier) (addr : Nat) : Prop :=
  n.usbDevice = some (.device addr) ∧ n.cmdType = .addDevice

namespace System

/-- What is promised of the events about each device. -/
structure Protocol (s : System) : Prop where
  word : ∀ addr, eventState s.notifier.events addr ≠ none
  record : ∀ addr, s.notifier.Opened addr → ∃ r ∈ s.notifier.infoList, r.addr = addr
  removed : ∀ addr, s.notifier.Opened addr → addr ∈ s.attached ∨ .removed addr ∈ s.callbacks
    ∨ ¬s.thread.holdsLock ∧ s.notifier.Removing addr

/-- Notifications and commands come in order: they are posted into an empty mailbox, they name a
device about which nothing else is on its way, no device is added that a command in the mailbox
names, and none is freed that is in the mailbox; a new record has an id of its own; for a removal
there is a buffer, and what is sent about a device that was announced arrives.  Nothing is reported
in between. -/
def Orderly (s : System) : Act → Prop
  | .notifyAdd usbDev allocated => allocated →
      (∀ r ∈ s.notifier.infoList, r.id ≠ s.notifier.nextId)
        ∧ (s.notifier.usbDevice = some .pnpInfo →
          usbDev.devnum ≠ s.notifier.usbPnpInfo.devNum
            ∨ usbDev.bus.getD 0 ≠ s.notifier.usbPnpInfo.busNum)
  | .notifyRemove addr => ∀ p, findInfo s.notifier.infoList (.deviceAddress addr) = some p →
      s.notifier.Idle p.record
  | .post _ => s.notifier.usbDevice = none
  | .dispatch cmd data _ => cmd ≠ .reportInterface
      ∧ (cmd = .getDevices ∨ s.notifier.usbDevice = none)
      ∧ ∀ info ∈ data, ∀ p,
        findInfo s.notifier.infoList (.normal info.devNum info.busNum) = some p →
        s.notifier.Idle p.record
  | .report o => (s.notifier.cmdType = .removeDevice → o.obtained)
      ∧ (o.obtained → ∀ query p, s.notifier.Asks query →
        findInfo s.notifier.infoList query = some p → s.notifier.Opened p.record.addr →
        o.written ∧ o.sent = Hdf.success)
  | .free addr => s.notifier.usbDevice ≠ some (.device addr)
  | _ => True

/-- Who has a record: a device that is attached, or whose removal is on its way.  Everything that is
on its way is about a device that is not freed, and a device has one record. -/
structure Hosted (s : System) : Prop where
  attached : ∀ addr ∈ s.attached, s.IsLive addr
  callbacks : ∀ c ∈ s.callbacks, s.IsLive c.addr
  payload : ∀ addr, s.notifier.usbDevice = some (.device addr) → s.IsLive addr
  owner : ∀ r ∈ s.notifier.infoList, r.addr ∈ s.attached ∨ .removed r.addr ∈ s.callbacks
    ∨ s.notifier.Removing r.addr
  addrs : (s.notifier.infoList.map DeviceInfo.addr).Nodup
  ids : (s.notifier.infoList.map DeviceInfo.id).Nodup
  awake : s.thread = .awake → s.notifier.usbDevice.isSome
  command : s.notifier.usbDevice = some .pnpInfo → s.notifier.cmdType.isInterface
  device : ∀ addr, s.notifier.usbDevice = some (.device addr) →
    s.notifier.Adding addr ∨ s.notifier.Removing addr
  gone : ∀ addr, .removed addr ∈ s.callbacks ∨ s.notifier.Removing addr → addr ∉ s.attached
  single : (s.callbacks.map Callback.addr).Nodup
  once : ∀ c ∈ s.callbacks, s.notifier.usbDevice = some (.device c.addr) →
    c = .removed c.addr ∧ s.notifier.Adding c.addr
  finished : ∀ ret id, s.thread = .finishing ret id → ∀ addr, s.notifier.Removing addr →
    ∀ r ∈ s.notifier.infoList, r.addr = addr → id = some r.id

end System

/-! ### Records -/

theorem Place.mem_put {p : Place} {r x : DeviceInfo} :
  x ∈ p.put r ↔ x = r ∨ x ∈ p.before ∨ x ∈ p.after
  := by
  unfold Place.put
  rw [List.mem_append, List.mem_cons]
  tauto

/-- A record is the one that was put there, or was there before. -/
theorem Place.mem_of_mem_put {p : Place} {r x : DeviceInfo} (h : x ∈ p.put r) :
  x = r ∨ x ∈ p.put p.record
  := by
  obtain rfl | hx := Place.mem_put.mp h
  · exact .inl rfl
  · exact .inr (Place.mem_put.mpr (.inr hx))

theorem Place.map_put {α : Type} {p : Place} {r : DeviceInfo} {f : DeviceInfo → α}
    (h : f r = f p.record) :
  (p.put r).map f = (p.put p.record).map f
  := by
  simp [Place.put, h]

/-- Where a record was replaced, the others are about other devices. -/
theorem Place.addr_ne_of_mem {p : Place} {r x : DeviceInfo} (haddr : r.addr = p.record.addr)
    (hnodup : ((p.put p.record).map DeviceInfo.addr).Nodup) (h : x ∈ p.put r) :
  x = r ∨ x ∈ p.put p.record ∧ x.addr ≠ r.addr
  := by
  obtain rfl | hx := Place.mem_of_mem_put h
  · exact .inl rfl
  by_cases heq : x.addr = r.addr
  · have hmem : r ∈ p.put r := Place.mem_put.mpr (.inl rfl)
    rw [← Place.map_put (p := p) haddr] at hnodup
    exact .inl (List.inj_on_of_nodup_map hnodup h hmem heq)
  · exact .inr ⟨hx, heq⟩

/-- What is found by address has the address. -/
theorem addr_of_findInfo {infoList : List DeviceInfo} {addr : Nat} {p : Place}
    (h : findInfo infoList (.deviceAddress addr) = some p) :
  p.record.addr = addr
  := by
  simpa [QueryPara.admits] using (findInfo_eq_some.mp h).2.1

theorem exists_findInfo {infoList : List DeviceInfo} {r : DeviceInfo} (hr : r ∈ infoList) :
  ∃ p, findInfo infoList (.deviceAddress r.addr) = some p
  := by
  cases h : findInfo infoList (.deviceAddress r.addr) with
  | none => exact absurd (by simp [QueryPara.admits]) (findInfo_eq_none.mp h r hr)
  | some p => exact ⟨p, rfl⟩

theorem toggle_addr (r : DeviceInfo) (busy : Status) : (r.toggle busy).addr = r.addr
  := rfl

/-- The list after an action of a device or a command: the record that is found is marked. -/
def markFound (infoList : List DeviceInfo) (query : QueryPara) (busy : Status) : List DeviceInfo :=
  match findInfo infoList query with
  | none => infoList
  | some p => p.put (p.record.toggle busy)

theorem map_markFound {α : Type} (infoList : List DeviceInfo) (query : QueryPara) (busy : Status)
    {f : DeviceInfo → α} (hf : ∀ r, f (r.toggle busy) = f r) :
  (markFound infoList query busy).map f = infoList.map f
  := by
  unfold markFound
  cases hfind : findInfo infoList query with
  | none => rfl
  | some p =>
      obtain ⟨hlist, -, -⟩ := findInfo_eq_some.mp hfind
      dsimp only
      rw [Place.map_put (hf _), ← hlist]

/-- A record after one was marked: it is the one, or is about another device. -/
theorem mem_markFound {infoList : List DeviceInfo} {query : QueryPara} {busy : Status}
    {x : DeviceInfo}
    (hnodup : (infoList.map DeviceInfo.addr).Nodup) (h : x ∈ markFound infoList query busy) :
  (∃ p, findInfo infoList query = some p ∧ x = p.record.toggle busy)
    ∨ x ∈ infoList ∧ ∀ p, findInfo infoList query = some p → x.addr ≠ p.record.addr
  := by
  unfold markFound at h
  cases hfind : findInfo infoList query with
  | none =>
      rw [hfind] at h
      exact .inr ⟨h, nofun⟩
  | some p =>
      rw [hfind] at h
      have hlist := (findInfo_eq_some.mp hfind).1
      rw [hlist] at hnodup
      obtain rfl | ⟨hx, hne⟩ := Place.addr_ne_of_mem (toggle_addr p.record busy) hnodup h
      · exact .inl ⟨p, rfl, rfl⟩
      · refine .inr ⟨hlist ▸ hx, fun p' hp' => ?_⟩
        rw [← Option.some.inj hp']
        apply hne

theorem mem_of_findInfo {infoList : List DeviceInfo} {query : QueryPara} {p : Place}
    (h : findInfo infoList query = some p) :
  p.record ∈ infoList
  := by
  rw [(findInfo_eq_some.mp h).1]
  apply Place.mem_put.mpr (.inl rfl)

/-- The record that is found. -/
theorem exists_findInfo_iff {infoList : List DeviceInfo} {query : QueryPara} {r : DeviceInfo} :
  (∃ p, findInfo infoList query = some p ∧ p.record = r) ↔ infoList.find? query.admits = some r
  := by
  rw [← Option.map_eq_some_iff]
  suffices h : (findInfo infoList query).map Place.record = infoList.find? query.admits by rw [h]
  induction infoList with
  | nil => rfl
  | cons x rest ih =>
      unfold findInfo
      by_cases hx : query.admits x
      · rw [if_pos hx, List.find?_cons_of_pos hx]
        rfl
      · rw [if_neg hx, List.find?_cons_of_neg hx, ← ih, Option.map_map]
        rfl

/-- A record at the end is found if no other is. -/
theorem findInfo_append {infoList : List DeviceInfo} {r : DeviceInfo} {query : QueryPara}
    {p : Place}
    (h : findInfo (infoList ++ [r]) query = some p) :
  (∃ p₀, findInfo infoList query = some p₀ ∧ p₀.record = p.record)
    ∨ p.record = r ∧ query.admits r
  := by
  have hfound := exists_findInfo_iff.mp ⟨p, h, rfl⟩
  rw [exists_findInfo_iff]
  rw [List.find?_append] at hfound
  cases hfind : infoList.find? query.admits with
  | some x =>
      rw [hfind] at hfound
      exact .inl hfound
  | none =>
      rw [hfind, Option.none_or] at hfound
      by_cases hr : query.admits r
      · rw [List.find?_cons_of_pos hr] at hfound
        exact .inr ⟨(Option.some.inj hfound).symm, hr⟩
      · rw [List.find?_cons_of_neg hr] at hfound
        cases hfound

/-- A record that is found after one was marked: it is the one, or was found before. -/
theorem findInfo_markFound {infoList : List DeviceInfo} {query query' : QueryPara} {busy : Status}
    {p' : Place} (hadmits : ∀ r, query'.admits (r.toggle busy) = query'.admits r)
    (h : findInfo (markFound infoList query busy) query' = some p') :
  (∃ p p₀, findInfo infoList query = some p ∧ findInfo infoList query' = some p₀
      ∧ p₀.record = p.record ∧ p'.record = p.record.toggle busy)
    ∨ ∃ p₀, findInfo infoList query' = some p₀ ∧ p₀.record = p'.record
  := by
  have hfound := exists_findInfo_iff.mp ⟨p', h, rfl⟩
  rw [exists_findInfo_iff]
  unfold markFound at hfound
  cases hfind : findInfo infoList query with
  | none =>
      rw [hfind] at hfound
      exact .inr hfound
  | some p =>
      rw [hfind] at hfound
      dsimp only at hfound
      have hlist := (findInfo_eq_some.mp hfind).1
      unfold Place.put at hfound hlist
      rw [List.find?_append] at hfound
      cases hbefore : p.before.find? query'.admits with
      | some x =>
          rw [hbefore] at hfound
          obtain rfl := Option.some.inj hfound
          refine .inr ?_
          rw [hlist, List.find?_append, hbefore]
          rfl
      | none =>
          rw [hbefore, Option.none_or] at hfound
          by_cases hadm : query'.admits p.record
          · rw [List.find?_cons_of_pos (by rw [hadmits]; exact hadm)] at hfound
            obtain ⟨p₀, hp₀, hrecord⟩ := exists_findInfo_iff.mpr (show infoList.find? query'.admits
                = some p.record by
              rw [hlist, List.find?_append, hbefore, Option.none_or, List.find?_cons_of_pos hadm])
            exact .inl ⟨p, p₀, rfl, hp₀, hrecord, (Option.some.inj hfound).symm⟩
          · rw [List.find?_cons_of_neg (by rw [hadmits]; exact hadm)] at hfound
            refine .inr ?_
            rw [hlist, List.find?_append, hbefore, Option.none_or, List.find?_cons_of_neg hadm]
            apply hfound

theorem Notifier.deviceRemoved_infoList (s : Notifier) (addr : Nat) :
  (s.deviceRemoved addr).1.infoList = markFound s.infoList (.deviceAddress addr) .remove
    ∧ (s.deviceRemoved addr).1.events = s.events
    ∧ ((s.deviceRemoved addr).2 ↔ ∃ p, findInfo s.infoList (.deviceAddress addr) = some p)
  := by
  rw [deviceRemoved_eq]
  unfold markFound
  cases findInfo s.infoList (.deviceAddress addr) with
  | none => exact ⟨rfl, rfl, iff_of_false Bool.false_ne_true nofun⟩
  | some p => exact ⟨rfl, rfl, iff_of_true rfl ⟨p, rfl⟩⟩

theorem Notifier.markNamed_some (infoList : List DeviceInfo) (info : AddRemoveInfo) :
  markNamed infoList (some info)
    = markFound infoList (.normal info.devNum info.busNum) .interface
  := rfl

/-! ### Who has a record -/

namespace System

variable {s t : System} {a : Act}

/-- A record is about a device that is not freed. -/
theorem Hosted.live (h : s.Hosted) {r : DeviceInfo} (hr : r ∈ s.notifier.infoList) :
  s.IsLive r.addr
  := by
  obtain hmem | hmem | hmail := h.owner r hr
  · apply h.attached _ hmem
  · apply h.callbacks _ hmem
  · apply h.payload _ hmail.1

/-- A device that is added is new to all. -/
theorem Hosted.notifyAdd (h : s.Hosted) {usbDev : UsbDevice} {allocated : Bool}
    (ht : s.next (.notifyAdd usbDev allocated) = some t)
    (horderly : s.Orderly (.notifyAdd usbDev allocated)) :
  t.Hosted
  := by
  obtain ⟨hfresh, rfl⟩ := next_notifyAdd ht
  have hmailbox := s.notifier.deviceAdded_mailbox usbDev allocated
  have hdevice : (s.notifier.deviceAdded usbDev allocated).1.usbDevice = s.notifier.usbDevice :=
    congrArg Mailbox.usbDevice hmailbox
  have hcmd : (s.notifier.deviceAdded usbDev allocated).1.cmdType = s.notifier.cmdType :=
    congrArg Mailbox.cmdType hmailbox
  have hnew : ¬s.IsLive usbDev.addr := fun ⟨d, hd, hda⟩ => hfresh d hd hda
  have hlive : ∀ {addr}, s.IsLive addr → ∃ d ∈ usbDev :: s.live, d.addr = addr :=
    fun ⟨d, hd, hda⟩ => ⟨d, List.mem_cons_of_mem _ hd, hda⟩
  have hself : ∃ d ∈ usbDev :: s.live, d.addr = usbDev.addr := ⟨usbDev, List.mem_cons_self, rfl⟩
  have hattached : ∀ {addr}, addr ∈ s.attached → addr ∈ s.attached ++ [usbDev.addr] :=
    fun h => List.mem_append_left _ h
  -- the list has at most one new record
  have hlist : ∀ r ∈ (s.notifier.deviceAdded usbDev allocated).1.infoList,
      r.addr = usbDev.addr ∨ r ∈ s.notifier.infoList := by
    cases allocated with
    | false => exact fun r hr => .inr hr
    | true =>
        obtain ⟨r₀, -, -, haddr, heq, -⟩ := s.notifier.deviceAdded_cases usbDev
        rw [heq]
        intro r hr
        obtain hr | hr := List.mem_append.mp hr
        · exact .inr hr
        · rw [List.mem_singleton.mp hr]
          exact .inl haddr
  have hcallbacks : ∀ c ∈ (if (s.notifier.deviceAdded usbDev allocated).2
      then .added usbDev.addr :: s.callbacks else s.callbacks),
      c = .added usbDev.addr ∨ c ∈ s.callbacks := by
    intro c hc
    split at hc
    · apply List.mem_cons.mp hc
    · exact .inr hc
  have hremoved : ∀ addr, .removed addr ∈ (if (s.notifier.deviceAdded usbDev allocated).2
      then .added usbDev.addr :: s.callbacks else s.callbacks) → .removed addr ∈ s.callbacks := by
    intro addr hc
    obtain hcon | hc := hcallbacks _ hc
    · cases hcon
    · apply hc
  refine
    { attached := fun addr haddr => ?_, callbacks := fun c hc => ?_, payload := fun addr haddr => ?_
      owner := fun r hr => ?_, addrs := ?_, ids := ?_, awake := fun hawake => ?_
      command := fun hinfo => ?_, device := fun addr haddr => ?_, gone := fun addr haddr => ?_
      single := ?_, once := fun c hc hmail => ?_
      finished := fun ret id hthread addr hremoving r hr hra => ?_ }
  · obtain haddr | haddr := List.mem_append.mp haddr
    · apply hlive (h.attached addr haddr)
    · rw [List.mem_singleton.mp haddr]
      apply hself
  · obtain rfl | hc := hcallbacks c hc
    · apply hself
    · apply hlive (h.callbacks c hc)
  · exact hlive (h.payload addr (hdevice ▸ haddr))
  · obtain haddr | hr := hlist r hr
    · rw [haddr]
      exact .inl (List.mem_append_right _ (List.mem_singleton_self _))
    · obtain hmem | hmem | hmail := h.owner r hr
      · exact .inl (hattached hmem)
      · refine .inr (.inl ?_)
        dsimp only
        split
        · apply List.mem_cons_of_mem _ hmem
        · apply hmem
      · exact .inr (.inr ⟨hdevice.trans hmail.1, hcmd.trans hmail.2⟩)
  · cases allocated with
    | false => exact h.addrs
    | true =>
        obtain ⟨r₀, -, -, haddr, heq, -⟩ := s.notifier.deviceAdded_cases usbDev
        dsimp only
        rw [heq, List.map_append, List.nodup_append]
        refine ⟨h.addrs, List.nodup_singleton _, fun x hx y hy => ?_⟩
        obtain ⟨r, hr, rfl⟩ := List.mem_map.mp hx
        rw [List.mem_singleton.mp hy]
        intro hsame
        have hold := h.live hr
        rw [hsame] at hold
        exact hnew (haddr ▸ hold)
  · cases allocated with
    | false => exact h.ids
    | true =>
        obtain ⟨r₀, hid, -, -, heq, -⟩ := s.notifier.deviceAdded_cases usbDev
        dsimp only
        rw [heq, List.map_append, List.nodup_append]
        refine ⟨h.ids, List.nodup_singleton _, fun x hx y hy => ?_⟩
        obtain ⟨r, hr, rfl⟩ := List.mem_map.mp hx
        rw [List.mem_singleton.mp hy, hid]
        exact (horderly rfl).1 r hr
  · dsimp only
    rw [hdevice]
    apply h.awake hawake
  · dsimp only
    rw [hcmd]
    exact h.command (hdevice ▸ hinfo)
  · obtain hadding | hremoving := h.device addr (hdevice ▸ haddr)
    · exact .inl ⟨hdevice.trans hadding.1, hcmd.trans hadding.2⟩
    · exact .inr ⟨hdevice.trans hremoving.1, hcmd.trans hremoving.2⟩
  · have hold : .removed addr ∈ s.callbacks ∨ s.notifier.Removing addr := by
      obtain hc | hmail := haddr
      · exact .inl (hremoved addr hc)
      · exact .inr ⟨hdevice.symm.trans hmail.1, hcmd.symm.trans hmail.2⟩
    intro hmem
    obtain hmem | hmem := List.mem_append.mp hmem
    · apply h.gone addr hold hmem
    · rw [List.mem_singleton.mp hmem] at hold
      obtain hc | hmail := hold
      · apply hnew (h.callbacks _ hc)
      · apply hnew (h.payload _ hmail.1)
  · dsimp only
    split
    · refine List.nodup_cons.mpr ⟨fun hmem => ?_, h.single⟩
      obtain ⟨c, hc, hca⟩ := List.mem_map.mp hmem
      have hlive := h.callbacks c hc
      rw [hca] at hlive
      apply hnew hlive
    · apply h.single
  · obtain rfl | hc := hcallbacks c hc
    · exact absurd (h.payload _ (hdevice ▸ hmail)) hnew
    · obtain ⟨hremoved, hadding⟩ := h.once c hc (hdevice ▸ hmail)
      exact ⟨hremoved, hdevice.trans hadding.1, hcmd.trans hadding.2⟩
  · have hremoving : s.notifier.Removing addr :=
      ⟨hdevice.symm.trans hremoving.1, hcmd.symm.trans hremoving.2⟩
    obtain hnewaddr | hr := hlist r hr
    · refine absurd (h.payload addr hremoving.1) ?_
      rw [← hra, hnewaddr]
      apply hnew
    · apply h.finished ret id hthread addr hremoving r hr hra

/-- A list with the same devices and ids. -/
def SameHosts (infoList infoList' : List DeviceInfo) : Prop :=
  infoList'.map DeviceInfo.addr = infoList.map DeviceInfo.addr
    ∧ infoList'.map DeviceInfo.id = infoList.map DeviceInfo.id

theorem sameHosts_markFound (infoList : List DeviceInfo) (query : QueryPara) (busy : Status) :
  SameHosts infoList (markFound infoList query busy)
  := ⟨map_markFound infoList query busy fun _ => rfl,
    map_markFound infoList query busy fun _ => rfl⟩

theorem SameHosts.exists_addr {infoList infoList' : List DeviceInfo}
    (h : SameHosts infoList infoList')
    {r : DeviceInfo} (hr : r ∈ infoList') :
  ∃ r₀ ∈ infoList, r₀.addr = r.addr
  := by
  have hmem : r.addr ∈ infoList'.map DeviceInfo.addr := List.mem_map_of_mem hr
  rw [h.1] at hmem
  apply List.mem_map.mp hmem

theorem SameHosts.exists_addr' {infoList infoList' : List DeviceInfo}
    (h : SameHosts infoList infoList') {r : DeviceInfo} (hr : r ∈ infoList) :
  ∃ r' ∈ infoList', r'.addr = r.addr
  := by
  have hmem : r.addr ∈ infoList.map DeviceInfo.addr := List.mem_map_of_mem hr
  rw [← h.1] at hmem
  apply List.mem_map.mp hmem

/-- A device that is removed is on its way out, if it has a record. -/
theorem Hosted.notifyRemove (h : s.Hosted) {addr : Nat}
    (ht : s.next (.notifyRemove addr) = some t) :
  t.Hosted
  := by
  obtain ⟨hattached, hbusy, rfl⟩ := next_notifyRemove ht
  have hmailbox := s.notifier.deviceRemoved_mailbox addr
  obtain ⟨hlist, -, hposts⟩ := s.notifier.deviceRemoved_infoList addr
  have hdevice : (s.notifier.deviceRemoved addr).1.usbDevice = s.notifier.usbDevice :=
    congrArg Mailbox.usbDevice hmailbox
  have hcmd : (s.notifier.deviceRemoved addr).1.cmdType = s.notifier.cmdType :=
    congrArg Mailbox.cmdType hmailbox
  have hhosts := sameHosts_markFound s.notifier.infoList (.deviceAddress addr) .remove
  rw [← hlist] at hhosts
  have hcallbacks : ∀ c ∈ (if (s.notifier.deviceRemoved addr).2
      then .removed addr :: s.callbacks else s.callbacks), c = .removed addr ∨ c ∈ s.callbacks := by
    intro c hc
    split at hc
    · apply List.mem_cons.mp hc
    · exact .inr hc
  have hfree : ∀ c ∈ s.callbacks, c.addr ≠ addr := by
    rintro c hc rfl
    exact hbusy (List.any_eq_true.mpr ⟨c, hc, by simp⟩)
  refine
    { attached := fun a ha => h.attached a (List.mem_filter.mp ha).1
      callbacks := fun c hc => ?_, payload := fun a ha => h.payload a (hdevice ▸ ha)
      owner := fun r hr => ?_, addrs := ?_, ids := ?_, awake := fun hawake => ?_
      command := fun hinfo => ?_, device := fun a ha => ?_, gone := fun a ha => ?_
      single := ?_, once := fun c hc hmail => ?_
      finished := fun ret id hthread a hremoving r hr hra => ?_ }
  · obtain rfl | hc := hcallbacks c hc
    · apply h.attached addr hattached
    · apply h.callbacks c hc
  · obtain ⟨r₀, hr₀, haddr⟩ := hhosts.exists_addr hr
    dsimp only
    by_cases hself : r.addr = addr
    · have hfound : (s.notifier.deviceRemoved addr).2 := by
        rw [hposts, ← hself, ← haddr]
        apply exists_findInfo hr₀
      rw [hself, if_pos hfound]
      exact .inr (.inl List.mem_cons_self)
    · rw [← haddr]
      obtain hmem | hmem | hmail := h.owner r₀ hr₀
      · refine .inl (List.mem_filter.mpr ⟨hmem, ?_⟩)
        simpa [haddr] using hself
      · refine .inr (.inl ?_)
        split
        · apply List.mem_cons_of_mem _ hmem
        · apply hmem
      · exact .inr (.inr ⟨hdevice.trans hmail.1, hcmd.trans hmail.2⟩)
  · dsimp only
    rw [hhosts.1]
    apply h.addrs
  · dsimp only
    rw [hhosts.2]
    apply h.ids
  · dsimp only
    rw [hdevice]
    apply h.awake hawake
  · dsimp only
    rw [hcmd]
    exact h.command (hdevice ▸ hinfo)
  · obtain hadding | hremoving := h.device a (hdevice ▸ ha)
    · exact .inl ⟨hdevice.trans hadding.1, hcmd.trans hadding.2⟩
    · exact .inr ⟨hdevice.trans hremoving.1, hcmd.trans hremoving.2⟩
  · intro hmem
    obtain ⟨hmem, hne⟩ := List.mem_filter.mp hmem
    obtain hc | hmail := ha
    · obtain heq | hc := hcallbacks _ hc
      · obtain rfl := Callback.removed.inj heq
        simp at hne
      · apply h.gone a (.inl hc) hmem
    · exact h.gone a (.inr ⟨hdevice.symm.trans hmail.1, hcmd.symm.trans hmail.2⟩) hmem
  · dsimp only
    split
    · refine List.nodup_cons.mpr ⟨fun hmem => ?_, h.single⟩
      obtain ⟨c, hc, hca⟩ := List.mem_map.mp hmem
      apply hfree c hc hca
    · apply h.single
  · obtain rfl | hc := hcallbacks c hc
    · refine ⟨rfl, ?_⟩
      obtain hadding | hremoving := h.device addr (hdevice ▸ hmail)
      · exact ⟨hdevice.trans hadding.1, hcmd.trans hadding.2⟩
      · apply absurd hattached (h.gone addr (.inr hremoving))
    · obtain ⟨hremoved, hadding⟩ := h.once c hc (hdevice ▸ hmail)
      exact ⟨hremoved, hdevice.trans hadding.1, hcmd.trans hadding.2⟩
  · have hold : s.notifier.Removing a :=
      ⟨hdevice.symm.trans hremoving.1, hcmd.symm.trans hremoving.2⟩
    have hne : a ≠ addr := by
      rintro rfl
      apply h.gone a (.inr hold) hattached
    rw [hlist] at hr
    unfold markFound at hr
    cases hfind : findInfo s.notifier.infoList (.deviceAddress addr) with
    | none =>
        rw [hfind] at hr
        apply h.finished ret id hthread a hold r hr hra
    | some p =>
        rw [hfind] at hr
        obtain rfl | hr := Place.mem_put.mp hr
        · apply absurd (hra.symm.trans (addr_of_findInfo hfind)) hne
        · refine h.finished ret id hthread a hold r ?_ hra
          rw [(findInfo_eq_some.mp hfind).1]
          apply Place.mem_put.mpr (.inr hr)

/-- What a callback posts is about a device that is not freed. -/
theorem Hosted.post (h : s.Hosted) {callback : Callback} (ht : s.next (.post callback) = some t)
    (horderly : s.Orderly (.post callback)) :
  t.Hosted
  := by
  obtain ⟨hlock, hmem, rfl⟩ := next_post ht
  have hnone : ∀ addr, ¬s.notifier.Removing addr := fun addr hremoving => by
    rw [Notifier.Removing, show s.notifier.usbDevice = none from horderly] at hremoving
    cases hremoving.1
  have hlist : (callback.post s.notifier).infoList = s.notifier.infoList := by
    cases callback <;> rfl
  have hdevice : (callback.post s.notifier).usbDevice = some (.device callback.addr) := by
    cases callback <;> rfl
  have hkind : (callback.post s.notifier).Adding callback.addr ∧ callback = .added callback.addr
      ∨ (callback.post s.notifier).Removing callback.addr ∧ callback = .removed callback.addr := by
    cases callback with
    | added addr => exact .inl ⟨⟨rfl, rfl⟩, rfl⟩
    | removed addr => exact .inr ⟨⟨rfl, rfl⟩, rfl⟩
  have hself : ∀ {addr}, (callback.post s.notifier).usbDevice = some (.device addr) →
      addr = callback.addr := fun haddr =>
    EventData.device.inj (Option.some.inj (haddr.symm.trans hdevice))
  have hlock' : ∀ ret id, s.thread ≠ .finishing ret id := by
    rintro ret id hthread
    rw [hthread] at hlock
    apply hlock rfl
  refine
    { attached := h.attached, callbacks := fun c hc => h.callbacks c (List.mem_of_mem_erase hc)
      payload := fun addr haddr => ?_, owner := fun r hr => ?_, addrs := ?_, ids := ?_
      awake := fun _ => ?_, command := fun hinfo => ?_, device := fun addr haddr => ?_
      gone := fun addr haddr => ?_, single := ?_, once := fun c hc hmail => ?_
      finished := fun ret id hthread => absurd hthread (hlock' ret id) }
  · rw [hself haddr]
    apply h.callbacks callback hmem
  · dsimp only at hr ⊢
    rw [hlist] at hr
    obtain hattached | hc | hremoving := h.owner r hr
    · exact .inl hattached
    · by_cases heq : Callback.removed r.addr = callback
      · refine .inr (.inr ?_)
        rw [← heq]
        exact ⟨rfl, rfl⟩
      · exact .inr (.inl ((List.mem_erase_of_ne heq).mpr hc))
    · apply absurd hremoving (hnone _)
  · dsimp only
    rw [hlist]
    apply h.addrs
  · dsimp only
    rw [hlist]
    apply h.ids
  · dsimp only
    rw [hdevice]
    rfl
  · dsimp only at hinfo
    rw [hdevice] at hinfo
    cases hinfo
  · rw [hself haddr]
    obtain hadding | hremoving := hkind
    · exact .inl hadding.1
    · exact .inr hremoving.1
  · have hold : .removed addr ∈ s.callbacks := by
      obtain hc | hremoving := haddr
      · apply List.mem_of_mem_erase hc
      · obtain hadding | hremoved := hkind
        · apply absurd (hadding.1.2.symm.trans hremoving.2) Cmd.noConfusion
        · rw [hself hremoving.1, ← hremoved.2]
          apply hmem
    apply h.gone addr (.inl hold)
  · apply h.single.sublist (List.erase_sublist.map _)
  · have haddr := hself hmail
    have hne : c ≠ callback := by
      rintro rfl
      apply List.Nodup.not_mem_erase (h.single.of_map _) hc
    apply absurd (List.inj_on_of_nodup_map h.single (List.mem_of_mem_erase hc) hmem haddr) hne

/-- What a command does to the list. -/
theorem dispatch_infoList {cmd : Cmd} {data : Option AddRemoveInfo} {outcomes : Nat → Outcome}
    {live : List UsbDevice} {attached : List Nat} {n n' : Notifier} {ret : Int}
    (hcmd : cmd ≠ .reportInterface)
    (h : n.dispatch live attached cmd data outcomes = .ok (n', ret)) :
  n'.infoList = (if cmd.isInterface then Notifier.markNamed n.infoList data else n.infoList)
    ∧ n'.events = n.events ∧ n'.idNum = n.idNum
  := by
  by_cases hinfo : cmd.isInterface
  · rw [if_pos hinfo]
    apply Notifier.dispatch_interface hinfo h
  · rw [if_neg hinfo]
    unfold Notifier.dispatch at h
    cases cmd with
    | addInterface | removeInterface => exact absurd rfl hinfo
    | reportInterface => exact absurd rfl hcmd
    | addDevice | removeDevice | getDevices | other cmd =>
        obtain ⟨rfl, -⟩ := Prod.mk.inj (Except.ok.inj h)
        exact ⟨rfl, rfl, rfl⟩

theorem sameHosts_dispatch (infoList : List DeviceInfo) (cmd : Cmd) (data : Option AddRemoveInfo) :
  SameHosts infoList (if cmd.isInterface then Notifier.markNamed infoList data else infoList)
  := by
  split
  · cases data with
    | none => exact ⟨rfl, rfl⟩
    | some info => exact sameHosts_markFound infoList _ .interface
  · exact ⟨rfl, rfl⟩

/-- A command posts nothing about a device. -/
theorem Hosted.dispatch (h : s.Hosted) {cmd : Cmd} {data : Option AddRemoveInfo}
    {outcomes : Nat → Outcome} (ht : s.next (.dispatch cmd data outcomes) = some t)
    (horderly : s.Orderly (.dispatch cmd data outcomes)) :
  t.Hosted
  := by
  obtain ⟨hlock, n, ret, hdispatch, rfl⟩ := next_dispatch ht
  obtain ⟨hreport, hempty, -⟩ := horderly
  obtain ⟨hlist, -⟩ := dispatch_infoList hreport hdispatch
  have hmailbox := Notifier.dispatch_mailbox hdispatch
  have hhosts := sameHosts_dispatch s.notifier.infoList cmd data
  rw [← hlist] at hhosts
  by_cases hget : cmd = .getDevices
  · subst hget
    rw [Mailbox.command_getDevices] at hmailbox
    have hsame : n = s.notifier := by
      obtain ⟨rfl, -⟩ := Prod.mk.inj (Except.ok.inj hdispatch)
      rfl
    subst hsame
    exact ⟨h.attached, h.callbacks, h.payload, h.owner, h.addrs, h.ids, h.awake, h.command,
      h.device,
      h.gone, h.single, h.once, h.finished⟩
  have hnone : s.notifier.usbDevice = none := hempty.resolve_left hget
  have hdevice : ∀ addr, n.usbDevice ≠ some (.device addr) := by
    intro addr haddr
    have hcommand := congrArg Mailbox.usbDevice hmailbox
    rw [Mailbox.usbDevice_command] at hcommand
    have hcon := hcommand.symm.trans haddr
    split at hcon
    · exact absurd (hnone.symm.trans hcon) (by simp)
    · cases hcon
  have hlock' : ∀ ret id, s.thread ≠ .finishing ret id := by
    rintro ret id hthread
    rw [hthread] at hlock
    apply hlock rfl
  refine
    { attached := h.attached, callbacks := h.callbacks
      payload := fun addr haddr => absurd haddr (hdevice addr)
      owner := fun r hr => ?_, addrs := ?_, ids := ?_, awake := fun hawake => ?_
      command := fun hinfo => ?_, device := fun addr haddr => absurd haddr (hdevice addr)
      gone := fun addr haddr => ?_, single := h.single
      once := fun c hc hmail => absurd hmail (hdevice _)
      finished := fun ret id hthread => absurd hthread (hlock' ret id) }
  · obtain ⟨r₀, hr₀, haddr⟩ := hhosts.exists_addr hr
    rw [← haddr]
    obtain hmem | hmem | hmail := h.owner r₀ hr₀
    · exact .inl hmem
    · exact .inr (.inl hmem)
    · exact absurd (hnone.symm.trans hmail.1) (by simp)
  · dsimp only
    rw [hhosts.1]
    apply h.addrs
  · dsimp only
    rw [hhosts.2]
    apply h.ids
  · have hcon := h.awake hawake
    rw [hnone] at hcon
    cases hcon
  · have hcommand := congrArg Mailbox.usbDevice hmailbox
    rw [Mailbox.usbDevice_command] at hcommand
    have hsome := hcommand.symm.trans hinfo
    split at hsome
    · exact absurd (hnone.symm.trans hsome) (by simp)
    · rename_i hposts
      dsimp only
      rw [show n.cmdType = cmd from
        (congrArg Mailbox.cmdType hmailbox).trans (Mailbox.cmdType_command hget)]
      exact (Mailbox.isInterface_of_postedBy hposts).1
  · obtain hc | hmail := haddr
    · apply h.gone addr (.inl hc)
    · apply absurd hmail.1 (hdevice addr)

/-- The thread asks for the record of what is in the mailbox. -/
theorem Hosted.asks (h : s.Hosted) (hawake : s.thread = .awake) :
  ∃ query, s.notifier.Asks query ∧ ∀ addr, s.notifier.usbDevice = some (.device addr) →
    query = .deviceAddress addr
  := by
  obtain ⟨d, hd⟩ := Option.isSome_iff_exists.mp (h.awake hawake)
  cases d with
  | pnpInfo =>
      refine ⟨_, .interface (h.command hd), fun addr haddr => ?_⟩
      cases hd.symm.trans haddr
  | device addr =>
      have hkind : s.notifier.cmdType = .addDevice ∨ s.notifier.cmdType = .removeDevice := by
        obtain hadding | hremoving := h.device addr hd
        · exact .inl hadding.2
        · exact .inr hremoving.2
      refine ⟨_, .device hkind hd, fun addr' haddr' => ?_⟩
      rw [EventData.device.inj (Option.some.inj (hd.symm.trans haddr'))]

/-- A report keeps the list, but for a record in its place. -/
theorem Hosted.report (h : s.Hosted) {o : Outcome} {n : Notifier} {query : QueryPara} {ret : Int}
    {id : Option Nat} (hmailbox : n.mailbox = s.notifier.mailbox)
    (hquery : ∀ addr, s.notifier.usbDevice = some (.device addr) → query = .deviceAddress addr)
    (hreported : s.notifier.Reported query o n ret id)
    (hobtained : s.notifier.cmdType = .removeDevice → o.obtained) (taken : List Notice) :
  Hosted { s with notifier := n, thread := .finishing ret id, taken }
  := by
  have hdevice : n.usbDevice = s.notifier.usbDevice := congrArg Mailbox.usbDevice hmailbox
  have hcmd : n.cmdType = s.notifier.cmdType := congrArg Mailbox.cmdType hmailbox
  have hremoving : ∀ {addr}, n.Removing addr → s.notifier.Removing addr := fun hr =>
    ⟨hdevice.symm.trans hr.1, hcmd.symm.trans hr.2⟩
  have hhosts : SameHosts s.notifier.infoList n.infoList
      ∧ ∀ addr, s.notifier.Removing addr → ∀ r ∈ n.infoList, r.addr = addr → id = some r.id := by
    have hput : ∀ {p : Place} {r : DeviceInfo}, findInfo s.notifier.infoList query = some p →
        r.id = p.record.id → r.addr = p.record.addr →
        SameHosts s.notifier.infoList (p.put r)
          ∧ ∀ addr, s.notifier.Removing addr → ∀ x ∈ p.put r, x.addr = addr →
            some p.record.id = some x.id := by
      intro p r hfound hid haddr
      obtain ⟨hlist, -, -⟩ := findInfo_eq_some.mp hfound
      have haddrs := h.addrs
      rw [hlist] at haddrs ⊢
      refine ⟨⟨Place.map_put haddr, Place.map_put hid⟩, fun addr hr x hx hxa => ?_⟩
      rw [hquery addr hr.1] at hfound
      obtain rfl | ⟨-, hne⟩ := Place.addr_ne_of_mem haddr haddrs hx
      · rw [hid]
      · apply absurd (hxa.trans ((addr_of_findInfo hfound).symm.trans haddr.symm)) hne
    cases hreported with
    | missing hmissing =>
        refine ⟨⟨rfl, rfl⟩, fun addr hr r hmem hra => ?_⟩
        obtain hcon | hcon := hmissing
        · apply absurd (hobtained hr.2) hcon
        · rw [hquery addr hr.1] at hcon
          refine absurd ?_ (findInfo_eq_none.mp hcon r hmem)
          simpa [QueryPara.admits] using hra
    | sent _ hfound _ hid hinfo _ _ _ => exact hput hfound hid (by rw [DeviceInfo.addr, hinfo])
    | refused _ hfound _ _ hid hinfo _ => exact hput hfound hid (by rw [DeviceInfo.addr, hinfo])
  obtain ⟨hhosts, hfinished⟩ := hhosts
  refine
    { attached := h.attached, callbacks := h.callbacks
      payload := fun addr haddr => h.payload addr (hdevice ▸ haddr)
      owner := fun r hr => ?_, addrs := ?_, ids := ?_, awake := nofun
      command := fun hinfo => ?_, device := fun addr haddr => ?_
      gone := fun addr haddr => ?_, single := h.single, once := fun c hc hmail => ?_
      finished := fun ret' id' hthread addr hr r hmem hra => ?_ }
  · obtain ⟨r₀, hr₀, haddr⟩ := hhosts.exists_addr hr
    rw [← haddr]
    obtain hmem | hmem | hmail := h.owner r₀ hr₀
    · exact .inl hmem
    · exact .inr (.inl hmem)
    · exact .inr (.inr ⟨hdevice.trans hmail.1, hcmd.trans hmail.2⟩)
  · dsimp only
    rw [hhosts.1]
    apply h.addrs
  · dsimp only
    rw [hhosts.2]
    apply h.ids
  · dsimp only
    rw [hcmd]
    exact h.command (hdevice ▸ hinfo)
  · obtain hadding | hr := h.device addr (hdevice ▸ haddr)
    · exact .inl ⟨hdevice.trans hadding.1, hcmd.trans hadding.2⟩
    · exact .inr ⟨hdevice.trans hr.1, hcmd.trans hr.2⟩
  · obtain hc | hr := haddr
    · apply h.gone addr (.inl hc)
    · apply h.gone addr (.inr (hremoving hr))
  · obtain ⟨hremoved, hadding⟩ := h.once c hc (hdevice ▸ hmail)
    exact ⟨hremoved, hdevice.trans hadding.1, hcmd.trans hadding.2⟩
  · obtain ⟨rfl, rfl⟩ := Thread.finishing.inj hthread
    apply hfinished addr (hremoving hr) r hmem hra

/-- Where the ids are distinct, a record is destroyed by its id. -/
theorem destroyInfo_eq_filter {infoList : List DeviceInfo} (h : (infoList.map DeviceInfo.id).Nodup)
    (id : Nat) :
  destroyInfo infoList id = infoList.filter fun r => r.id ≠ id
  := by
  induction infoList with
  | nil => rfl
  | cons r rest ih =>
      rw [List.map_cons, List.nodup_cons] at h
      unfold destroyInfo at ih ⊢
      by_cases hid : r.id = id
      · rw [List.eraseP_cons_of_pos (by simpa using hid),
          List.filter_cons_of_neg (by simpa using hid),
          eq_comm, List.filter_eq_self]
        intro x hx
        have hne : x.id ≠ id := by
          rintro rfl
          exact h.1 (hid ▸ List.mem_map_of_mem hx)
        simpa using hne
      · rw [List.eraseP_cons_of_neg (by simpa using hid),
          List.filter_cons_of_pos (by simpa using hid),
          ih h.2]

/-- The list after the thread has finished. -/
theorem mem_finishReport {n : Notifier} (hids : (n.infoList.map DeviceInfo.id).Nodup) {ret : Int}
    {id : Option Nat} {r : DeviceInfo} :
  r ∈ (n.finishReport ret id).infoList
    ↔ r ∈ n.infoList ∧ (ret ≠ Hdf.success ∨ n.cmdType = .removeDevice → id ≠ some r.id)
  := by
  change r ∈ (n.sendEventOut ret id).infoList ↔ _
  unfold Notifier.sendEventOut
  cases id with
  | none => simp
  | some id =>
      dsimp only
      split
      · rename_i hdestroys
        dsimp only
        rw [destroyInfo_eq_filter hids, List.mem_filter]
        refine and_congr_right fun _ => ?_
        rw [imp_iff_right hdestroys, decide_eq_true_iff, ne_comm, ne_eq, ne_eq, Option.some_inj]
      · rename_i hkeeps
        exact (and_iff_left fun hdestroys => absurd hdestroys hkeeps).symm

/-- The record of a device whose removal was processed is destroyed. -/
theorem Hosted.finish (h : s.Hosted) (ht : s.next .finish = some t) :
  t.Hosted
  := by
  obtain ⟨ret, id, hthread, rfl⟩ := next_finish ht
  have hsub : (s.notifier.finishReport ret id).infoList.Sublist s.notifier.infoList := by
    change (s.notifier.sendEventOut ret id).infoList.Sublist _
    unfold Notifier.sendEventOut
    cases id with
    | none => exact List.Sublist.refl _
    | some id =>
        dsimp only
        split
        · apply List.eraseP_sublist
        · apply List.Sublist.refl _
  refine
    { attached := h.attached, callbacks := h.callbacks, payload := fun _ => nofun
      owner := fun r hr => ?_, addrs := h.addrs.sublist (hsub.map _)
      ids := h.ids.sublist (hsub.map _)
      awake := nofun, command := nofun, device := fun _ => nofun, gone := fun addr haddr => ?_
      single := h.single, once := fun _ _ => nofun, finished := nofun }
  · obtain ⟨hmem, hid⟩ := (mem_finishReport h.ids).mp hr
    obtain hattached | hc | hremoving := h.owner r hmem
    · exact .inl hattached
    · exact .inr (.inl hc)
    · apply absurd (h.finished ret id hthread r.addr hremoving r hmem rfl) (hid (.inr hremoving.2))
  · obtain hc | hremoving := haddr
    · apply h.gone addr (.inl hc)
    · cases hremoving.1

/-- A step of the thread that only waits. -/
theorem Hosted.rethread (h : s.Hosted) {thread : Thread} (hlock : thread.holdsLock = false)
    (hawake : thread = .awake → s.notifier.usbDevice.isSome) :
  Hosted { s with thread }
  := by
  refine ⟨h.attached, h.callbacks, h.payload, h.owner, h.addrs, h.ids, hawake, h.command, h.device,
    h.gone, h.single, h.once, fun ret id hthread => ?_⟩
  rw [show thread = .finishing ret id from hthread] at hlock
  cases hlock

/-- Other devices are freed or change. -/
theorem Hosted.relive (h : s.Hosted) {live : List UsbDevice}
    (hattached : ∀ addr ∈ s.attached, ∃ d ∈ live, d.addr = addr)
    (hcallbacks : ∀ c ∈ s.callbacks, ∃ d ∈ live, d.addr = c.addr)
    (hpayload : ∀ addr, s.notifier.usbDevice = some (.device addr) → ∃ d ∈ live, d.addr = addr) :
  Hosted { s with live }
  := ⟨hattached, hcallbacks, hpayload, h.owner, h.addrs, h.ids, h.awake, h.command, h.device,
    h.gone, h.single, h.once, h.finished⟩

/-- A step in order keeps who has a record. -/
theorem Hosted.step (h : s.Hosted) (ht : s.next a = some t) (horderly : s.Orderly a) :
  t.Hosted
  := by
  cases a with
  | notifyAdd usbDev allocated => exact h.notifyAdd ht horderly
  | notifyRemove addr => exact h.notifyRemove ht
  | post callback => exact h.post ht horderly
  | dispatch cmd data outcomes => exact h.dispatch ht horderly
  | wake =>
      obtain ⟨-, hsome, rfl⟩ := next_wake ht
      apply h.rethread rfl fun _ => hsome
  | report o =>
      obtain ⟨hawake, n, ret, id, hreport, rfl⟩ := next_report ht
      obtain ⟨query, hasks, hquery⟩ := h.asks hawake
      exact h.report (Notifier.report_mailbox hreport) hquery
        (hasks.reported (h.awake hawake) hreport) horderly.1 _
  | finish => exact h.finish ht
  | rest =>
      obtain ⟨-, rfl⟩ := next_rest ht
      exact h.rethread rfl nofun
  | free addr =>
      obtain ⟨hattached, hbusy, rfl⟩ := next_free ht
      have hkeep : ∀ {addr'}, addr' ≠ addr → s.IsLive addr' →
          ∃ d ∈ s.live.filter (fun d => d.addr ≠ addr), d.addr = addr' := by
        rintro addr' hne ⟨d, hd, rfl⟩
        exact ⟨d, List.mem_filter.mpr ⟨hd, by simpa using hne⟩, rfl⟩
      refine h.relive (fun addr' haddr' => hkeep ?_ (h.attached addr' haddr'))
        (fun c hc => hkeep ?_ (h.callbacks c hc))
        fun addr' haddr' => hkeep ?_ (h.payload addr' haddr')
      · rintro rfl
        apply hattached haddr'
      · rintro rfl
        exact hbusy (List.any_eq_true.mpr ⟨c, hc, by simp⟩)
      · rintro rfl
        apply horderly haddr'
  | configure usbDev =>
      obtain rfl := next_configure ht
      have hkeep : ∀ {addr}, s.IsLive addr →
          ∃ d ∈ s.live.map fun d => if d.addr = usbDev.addr then usbDev else d, d.addr = addr := by
        rintro addr ⟨d, hd, rfl⟩
        refine ⟨_, List.mem_map.mpr ⟨d, hd, rfl⟩, ?_⟩
        split
        · rename_i heq
          apply heq.symm
        · rfl
      exact h.relive (fun addr haddr => hkeep (h.attached addr haddr))
        (fun c hc => hkeep (h.callbacks c hc)) fun addr haddr => hkeep (h.payload addr haddr)

theorem hosted_systemNew (live : List UsbDevice) :
  (systemNew live).Hosted
  := by
  refine ⟨fun addr haddr => List.mem_map.mp haddr, nofun, fun _ => nofun, nofun, List.nodup_nil,
    List.nodup_nil, nofun, nofun, fun _ => nofun, fun addr haddr =>
      ?_, List.nodup_nil, nofun, nofun⟩
  obtain hc | hremoving := haddr
  · cases hc
  · cases hremoving.1

end System

end Pnp
