import KhdfLinux.Pnp.EventProtocol

/-!
# The events about a device

`events_protocol`: in a run whose steps come in order, the events about each device follow the
protocol, its record stays while it is announced, and it is announced no more once its removal was
processed. -/

namespace Pnp

namespace System

/-- The removal of the device of the record was sent, and the record is about to be destroyed. -/
def Dropping (s : System) (r : DeviceInfo) : Prop :=
  ∃ ret, s.thread = .finishing ret (some r.id) ∧ s.notifier.Removing r.addr

/-- What the records and what is on its way have to do with what was told.  The status of a record
says if its device was announced; if something is on its way about it, that can be sent exactly if
the device was announced. -/
structure Told (s : System) : Prop where
  word : ∀ addr, eventState s.notifier.events addr ≠ none
  record : ∀ addr, s.notifier.Opened addr → ∃ r ∈ s.notifier.infoList, r.addr = addr
  removed : ∀ addr, s.notifier.Opened addr → addr ∈ s.attached ∨ .removed addr ∈ s.callbacks
    ∨ ¬s.thread.holdsLock ∧ s.notifier.Removing addr
  announced : ∀ r ∈ s.notifier.infoList, r.status = .add → s.notifier.Opened r.addr ∨ s.Dropping r
  opened : ∀ r ∈ s.notifier.infoList, s.notifier.Opened r.addr → r.status = .add ∨ r.status = .init
  adding : ∀ addr, .added addr ∈ s.callbacks ∨ ¬s.thread.holdsLock ∧ s.notifier.Adding addr →
    ¬s.notifier.Opened addr
  removing : ∀ addr, .removed addr ∈ s.callbacks ∨ ¬s.thread.holdsLock ∧ s.notifier.Removing addr →
    ∀ r ∈ s.notifier.infoList, r.addr = addr → (r.status = .init ↔ s.notifier.Opened addr)
  naming : ¬s.thread.holdsLock → s.notifier.usbDevice = some .pnpInfo → ∀ p,
    findInfo s.notifier.infoList
      (.normal s.notifier.usbPnpInfo.devNum s.notifier.usbPnpInfo.busNum) = some p →
    (p.record.status = .init ↔ s.notifier.Opened p.record.addr)
      ∧ .removed p.record.addr ∉ s.callbacks
  finishing : ∀ ret id, s.thread = .finishing ret (some id) →
    ret ≠ Hdf.success ∨ s.notifier.cmdType = .removeDevice →
    ∀ r ∈ s.notifier.infoList, r.id = id → ¬s.notifier.Opened r.addr

end System

/-! ### Events -/

/-- What an event comes to. -/
theorem eventState_append (events : List Event) (e : Event) (addr : Nat) :
  eventState (events ++ [e]) addr
    = if e.table.usbDevAddr = addr then follow (eventState events addr) e.cmd
      else eventState events addr
  := by
  unfold eventState
  by_cases h : e.table.usbDevAddr = addr
  · simp [h]
  · simp [h]

/-- A record that is idle and is marked can be sent about exactly if its device was announced. -/
theorem Notifier.Idle.toggle {n : Notifier} {r : DeviceInfo} (h : n.Idle r)
    (hannounced : r.status = .add → n.Opened r.addr) {busy : Status}
    (hbusy : busy = .remove ∨ busy = .interface) :
  ((r.toggle busy).status = .init ↔ n.Opened r.addr) ∧ (r.toggle busy).status ≠ .add
  := by
  unfold DeviceInfo.toggle
  dsimp only
  obtain hadd | ⟨hinit, hclosed⟩ := h
  · rw [if_pos (by rw [hadd]; exact Status.noConfusion)]
    exact ⟨iff_of_true rfl (hannounced hadd), Status.noConfusion⟩
  · rw [if_neg (by simpa using hinit)]
    obtain rfl | rfl := hbusy
    · exact ⟨iff_of_false Status.noConfusion hclosed, Status.noConfusion⟩
    · exact ⟨iff_of_false Status.noConfusion hclosed, Status.noConfusion⟩

/-- A record about which something is on its way is not idle. -/
theorem Notifier.Idle.not_pending {n : Notifier} {r : DeviceInfo} (h : n.Idle r)
    (hannounced : r.status = .add → n.Opened r.addr)
    (hpending : r.status = .init ↔ n.Opened r.addr) :
  False
  := by
  obtain hadd | ⟨hinit, hclosed⟩ := h
  · have hinit := hpending.mpr (hannounced hadd)
    rw [hadd] at hinit
    cases hinit
  · apply hclosed (hpending.mp hinit)

namespace System

variable {s t : System} {a : Act}

/-- A device that was announced is not freed. -/
theorem Told.live (h : s.Told) (hosted : s.Hosted) {addr : Nat} (hopened : s.notifier.Opened addr) :
  s.IsLive addr
  := by
  obtain ⟨r, hr, rfl⟩ := h.record addr hopened
  apply hosted.live hr

/-- A device that is added is not announced. -/
theorem Told.notifyAdd (h : s.Told) (hosted : s.Hosted) {usbDev : UsbDevice} {allocated : Bool}
    (ht : s.next (.notifyAdd usbDev allocated) = some t)
    (horderly : s.Orderly (.notifyAdd usbDev allocated)) :
  t.Told
  := by
  obtain ⟨hfresh, rfl⟩ := next_notifyAdd ht
  have hmailbox := s.notifier.deviceAdded_mailbox usbDev allocated
  have hdevice : (s.notifier.deviceAdded usbDev allocated).1.usbDevice = s.notifier.usbDevice :=
    congrArg Mailbox.usbDevice hmailbox
  have hinfo : (s.notifier.deviceAdded usbDev allocated).1.usbPnpInfo = s.notifier.usbPnpInfo :=
    congrArg Mailbox.usbPnpInfo hmailbox
  have hcmd : (s.notifier.deviceAdded usbDev allocated).1.cmdType = s.notifier.cmdType :=
    congrArg Mailbox.cmdType hmailbox
  have hnew : ¬s.IsLive usbDev.addr := fun ⟨d, hd, hda⟩ => hfresh d hd hda
  have hevents : (s.notifier.deviceAdded usbDev allocated).1.events = s.notifier.events := by
    cases allocated with
    | false => rfl
    | true =>
        obtain ⟨r₀, -, -, -, heq, -⟩ := s.notifier.deviceAdded_cases usbDev
        rw [heq]
  have hopened : ∀ {addr}, (s.notifier.deviceAdded usbDev allocated).1.Opened addr
      ↔ s.notifier.Opened addr := by
    intro addr
    unfold Notifier.Opened
    rw [hevents]
  have hclosed : ¬s.notifier.Opened usbDev.addr := fun ho => hnew (h.live hosted ho)
  have hlist : ∀ r ∈ (s.notifier.deviceAdded usbDev allocated).1.infoList,
      r.addr = usbDev.addr ∧ r.status = .init ∨ r ∈ s.notifier.infoList := by
    cases allocated with
    | false => exact fun r hr => .inr hr
    | true =>
        obtain ⟨r₀, -, hinit, haddr, heq, -⟩ := s.notifier.deviceAdded_cases usbDev
        rw [heq]
        intro r hr
        obtain hr | hr := List.mem_append.mp hr
        · exact .inr hr
        · rw [List.mem_singleton.mp hr]
          exact .inl ⟨haddr, hinit⟩
  have hsub : s.notifier.infoList ⊆ (s.notifier.deviceAdded usbDev allocated).1.infoList := by
    cases allocated with
    | false => exact List.Subset.refl _
    | true =>
        obtain ⟨r₀, -, -, -, heq, -⟩ := s.notifier.deviceAdded_cases usbDev
        rw [heq]
        apply List.subset_append_left _ _
  have hcallbacks : ∀ c ∈ (if (s.notifier.deviceAdded usbDev allocated).2
      then .added usbDev.addr :: s.callbacks else s.callbacks),
      c = .added usbDev.addr ∨ c ∈ s.callbacks := by
    intro c hc
    split at hc
    · apply List.mem_cons.mp hc
    · exact .inr hc
  have hkeeps : ∀ c ∈ s.callbacks, c ∈ (if (s.notifier.deviceAdded usbDev allocated).2
      then .added usbDev.addr :: s.callbacks else s.callbacks) := by
    intro c hc
    split
    · apply List.mem_cons_of_mem _ hc
    · apply hc
  have hremoved : ∀ addr, .removed addr ∈ (if (s.notifier.deviceAdded usbDev allocated).2
      then .added usbDev.addr :: s.callbacks else s.callbacks) → .removed addr ∈ s.callbacks := by
    intro addr hc
    obtain hcon | hc := hcallbacks _ hc
    · cases hcon
    · apply hc
  have hremoving : ∀ {addr}, (s.notifier.deviceAdded usbDev allocated).1.Removing addr
      ↔ s.notifier.Removing addr := by
    intro addr
    unfold Notifier.Removing
    rw [hdevice, hcmd]
  have hadding : ∀ {addr}, (s.notifier.deviceAdded usbDev allocated).1.Adding addr
      ↔ s.notifier.Adding addr := by
    intro addr
    unfold Notifier.Adding
    rw [hdevice, hcmd]
  refine
    { word := fun addr => ?_, record := fun addr ho => ?_, removed := fun addr ho => ?_
      announced := fun r hr hadd => ?_, opened := fun r hr ho => ?_, adding := fun addr ha ho => ?_
      removing := fun addr ha r hr hra => ?_, naming := fun hlock hmail p hp => ?_
      finishing := fun ret id hthread hdestroys r hr hid ho => ?_ }
  · dsimp only
    rw [hevents]
    apply h.word addr
  · obtain ⟨r, hr, hra⟩ := h.record addr (hopened.mp ho)
    exact ⟨r, hsub hr, hra⟩
  · obtain hmem | hc | ⟨hlock, hmail⟩ := h.removed addr (hopened.mp ho)
    · exact .inl (List.mem_append_left _ hmem)
    · exact .inr (.inl (hkeeps _ hc))
    · exact .inr (.inr ⟨hlock, hremoving.mpr hmail⟩)
  · obtain ⟨-, hinit⟩ | hr := hlist r hr
    · rw [hinit] at hadd
      cases hadd
    · obtain ho | ⟨ret, hthread, hmail⟩ := h.announced r hr hadd
      · exact .inl (hopened.mpr ho)
      · exact .inr ⟨ret, hthread, hremoving.mpr hmail⟩
  · obtain ⟨-, hinit⟩ | hr := hlist r hr
    · exact .inr hinit
    · apply h.opened r hr (hopened.mp ho)
  · obtain hc | ⟨hlock, hmail⟩ := ha
    · obtain heq | hc := hcallbacks _ hc
      · obtain rfl := Callback.added.inj heq
        apply hclosed (hopened.mp ho)
      · apply h.adding addr (.inl hc) (hopened.mp ho)
    · exact h.adding addr (.inr ⟨hlock, hadding.mp hmail⟩) (hopened.mp ho)
  · have hold : .removed addr ∈ s.callbacks ∨ ¬s.thread.holdsLock ∧ s.notifier.Removing addr := by
      obtain hc | ⟨hlock, hmail⟩ := ha
      · exact .inl (hremoved addr hc)
      · exact .inr ⟨hlock, hremoving.mp hmail⟩
    dsimp only
    rw [hopened]
    obtain ⟨hself, -⟩ | hr := hlist r hr
    · refine absurd ?_ hnew
      rw [← hself, hra]
      obtain hc | ⟨-, hmail⟩ := hold
      · apply hosted.callbacks _ hc
      · apply hosted.payload _ hmail.1
    · apply h.removing addr hold r hr hra
  · dsimp only at hmail hp ⊢
    rw [hdevice] at hmail
    rw [hinfo] at hp
    have hfound : ∃ p₀, findInfo s.notifier.infoList
        (.normal s.notifier.usbPnpInfo.devNum s.notifier.usbPnpInfo.busNum) = some p₀
        ∧ p₀.record = p.record := by
      cases allocated with
      | false => exact ⟨p, hp, rfl⟩
      | true =>
          obtain ⟨r₀, -, -, -, heq, -, hdevNum, hbusNum⟩ := s.notifier.deviceAdded_cases usbDev
          rw [heq] at hp
          obtain hold | ⟨-, hadmits⟩ := findInfo_append hp
          · apply hold
          · have hnumbers : usbDev.devnum = s.notifier.usbPnpInfo.devNum
                ∧ usbDev.bus.getD 0 = s.notifier.usbPnpInfo.busNum := by
              rw [← hdevNum, ← hbusNum]
              simpa [QueryPara.admits] using hadmits
            obtain hne | hne := (horderly rfl).2 hmail
            · apply absurd hnumbers.1 hne
            · apply absurd hnumbers.2 hne
    obtain ⟨p₀, hp₀, hrecord⟩ := hfound
    obtain ⟨hiff, hnot⟩ := h.naming hlock hmail p₀ hp₀
    rw [hrecord] at hiff hnot
    rw [hopened]
    exact ⟨hiff, fun hc => hnot (hremoved _ hc)⟩
  · dsimp only at hdestroys
    rw [hcmd] at hdestroys
    obtain ⟨hself, -⟩ | hr := hlist r hr
    · rw [hself] at ho
      apply hclosed (hopened.mp ho)
    · apply h.finishing ret id hthread hdestroys r hr hid (hopened.mp ho)

/-- A record that is found by its device is the one of the device. -/
theorem Hosted.record_eq (h : s.Hosted) {p : Place} {addr : Nat} {r : DeviceInfo}
    (hp : findInfo s.notifier.infoList (.deviceAddress addr) = some p)
    (hr : r ∈ s.notifier.infoList)
    (hra : r.addr = addr) :
  r = p.record
  := List.inj_on_of_nodup_map h.addrs hr (mem_of_findInfo hp) (hra.trans (addr_of_findInfo hp).symm)

/-- The removal of a device that was announced can be sent, and only that. -/
theorem Told.notifyRemove (h : s.Told) (hosted : s.Hosted) {addr : Nat}
    (ht : s.next (.notifyRemove addr) = some t) (horderly : s.Orderly (.notifyRemove addr)) :
  t.Told
  := by
  obtain ⟨hattached, hbusy, rfl⟩ := next_notifyRemove ht
  have hmailbox := s.notifier.deviceRemoved_mailbox addr
  obtain ⟨hlist, hevents, hposts⟩ := s.notifier.deviceRemoved_infoList addr
  have hdevice : (s.notifier.deviceRemoved addr).1.usbDevice = s.notifier.usbDevice :=
    congrArg Mailbox.usbDevice hmailbox
  have hinfo : (s.notifier.deviceRemoved addr).1.usbPnpInfo = s.notifier.usbPnpInfo :=
    congrArg Mailbox.usbPnpInfo hmailbox
  have hcmd : (s.notifier.deviceRemoved addr).1.cmdType = s.notifier.cmdType :=
    congrArg Mailbox.cmdType hmailbox
  have hhosts := sameHosts_markFound s.notifier.infoList (.deviceAddress addr) .remove
  rw [← hlist] at hhosts
  have hopened : ∀ {addr'}, (s.notifier.deviceRemoved addr).1.Opened addr'
      ↔ s.notifier.Opened addr' := by
    intro addr'
    unfold Notifier.Opened
    rw [hevents]
  have hremoving : ∀ {addr'}, (s.notifier.deviceRemoved addr).1.Removing addr'
      ↔ s.notifier.Removing addr' := by
    intro addr'
    unfold Notifier.Removing
    rw [hdevice, hcmd]
  have hadding : ∀ {addr'}, (s.notifier.deviceRemoved addr).1.Adding addr'
      ↔ s.notifier.Adding addr' := by
    intro addr'
    unfold Notifier.Adding
    rw [hdevice, hcmd]
  have hcallbacks : ∀ c ∈ (if (s.notifier.deviceRemoved addr).2
      then .removed addr :: s.callbacks else s.callbacks), c = .removed addr ∨ c ∈ s.callbacks := by
    intro c hc
    split at hc
    · apply List.mem_cons.mp hc
    · exact .inr hc
  have hkeeps : ∀ c ∈ s.callbacks, c ∈ (if (s.notifier.deviceRemoved addr).2
      then .removed addr :: s.callbacks else s.callbacks) := by
    intro c hc
    split
    · apply List.mem_cons_of_mem _ hc
    · apply hc
  have hstays : ¬s.notifier.Removing addr := fun hmail => hosted.gone addr (.inr hmail) hattached
  -- the record of the device is announced, if its status says so
  have hannounced : ∀ {p}, findInfo s.notifier.infoList (.deviceAddress addr) = some p →
      p.record.status = .add → s.notifier.Opened p.record.addr := by
    intro p hp hadd
    obtain ho | ⟨ret, -, hmail⟩ := h.announced p.record (mem_of_findInfo hp) hadd
    · apply ho
    · rw [addr_of_findInfo hp] at hmail
      apply absurd hmail hstays
  have htoggle : ∀ {p}, findInfo s.notifier.infoList (.deviceAddress addr) = some p →
      ((p.record.toggle .remove).status = .init ↔ s.notifier.Opened p.record.addr)
        ∧ (p.record.toggle .remove).status ≠ .add := fun hp =>
    (horderly _ hp).toggle (hannounced hp) (.inl rfl)
  have hcases : ∀ r ∈ (s.notifier.deviceRemoved addr).1.infoList,
      (∃ p, findInfo s.notifier.infoList (.deviceAddress addr) = some p
          ∧ r = p.record.toggle .remove)
        ∨ r ∈ s.notifier.infoList ∧ ∀ p,
          findInfo s.notifier.infoList (.deviceAddress addr) = some p → r.addr ≠ p.record.addr := by
    intro r hr
    rw [hlist] at hr
    apply mem_markFound hosted.addrs hr
  refine
    { word := fun addr' => ?_, record := fun addr' ho => ?_, removed := fun addr' ho => ?_
      announced := fun r hr hadd => ?_, opened := fun r hr ho => ?_, adding := fun addr' ha ho => ?_
      removing := fun addr' ha r hr hra => ?_, naming := fun hlock hmail p hp => ?_
      finishing := fun ret id hthread hdestroys r hr hid ho => ?_ }
  · dsimp only
    rw [hevents]
    apply h.word addr'
  · obtain ⟨r, hr, rfl⟩ := h.record addr' (hopened.mp ho)
    apply hhosts.exists_addr' hr
  · by_cases hself : addr' = addr
    · obtain ⟨r, hr, hra⟩ := h.record addr' (hopened.mp ho)
      have hfound : (s.notifier.deviceRemoved addr).2 := by
        rw [hposts, ← hself, ← hra]
        apply exists_findInfo hr
      refine .inr (.inl ?_)
      dsimp only
      rw [hself, if_pos hfound]
      apply List.mem_cons_self
    · obtain hmem | hc | ⟨hlock, hmail⟩ := h.removed addr' (hopened.mp ho)
      · exact .inl (List.mem_filter.mpr ⟨hmem, by simpa using hself⟩)
      · exact .inr (.inl (hkeeps _ hc))
      · exact .inr (.inr ⟨hlock, hremoving.mpr hmail⟩)
  · obtain ⟨p, hp, rfl⟩ | ⟨hr, -⟩ := hcases r hr
    · apply absurd hadd (htoggle hp).2
    · obtain ho | ⟨ret, hthread, hmail⟩ := h.announced r hr hadd
      · exact .inl (hopened.mpr ho)
      · exact .inr ⟨ret, hthread, hremoving.mpr hmail⟩
  · obtain ⟨p, hp, rfl⟩ | ⟨hr, -⟩ := hcases r hr
    · exact .inr ((htoggle hp).1.mpr (hopened.mp ho))
    · apply h.opened r hr (hopened.mp ho)
  · obtain hc | ⟨hlock, hmail⟩ := ha
    · obtain hcon | hc := hcallbacks _ hc
      · cases hcon
      · apply h.adding addr' (.inl hc) (hopened.mp ho)
    · exact h.adding addr' (.inr ⟨hlock, hadding.mp hmail⟩) (hopened.mp ho)
  · dsimp only
    rw [hopened]
    by_cases hself : addr' = addr
    · obtain ⟨p, hp, rfl⟩ | ⟨hr, hne⟩ := hcases r hr
      · rw [← hra]
        exact (htoggle hp).1
      · obtain ⟨p, hp⟩ := exists_findInfo hr
        rw [hra, hself] at hp
        apply absurd (hra.trans (hself.trans (addr_of_findInfo hp).symm)) (hne p hp)
    · have hold : .removed addr' ∈ s.callbacks
          ∨ ¬s.thread.holdsLock ∧ s.notifier.Removing addr' := by
        obtain hc | ⟨hlock, hmail⟩ := ha
        · obtain heq | hc := hcallbacks _ hc
          · apply absurd (Callback.removed.inj heq) hself
          · exact .inl hc
        · exact .inr ⟨hlock, hremoving.mp hmail⟩
      obtain ⟨p, hp, rfl⟩ | ⟨hr, -⟩ := hcases r hr
      · apply absurd (hra.symm.trans (addr_of_findInfo hp)) hself
      · apply h.removing addr' hold r hr hra
  · dsimp only at hmail hp ⊢
    rw [hdevice] at hmail
    rw [hinfo, hlist] at hp
    rw [hopened]
    obtain ⟨q, p₀, hq, hp₀, hsame, -⟩ | ⟨p₀, hp₀, hsame⟩ := findInfo_markFound (fun _ => rfl) hp
    · have hpending := (h.naming hlock hmail p₀ hp₀).1
      rw [hsame] at hpending
      exact ((horderly q hq).not_pending (hannounced hq) hpending).elim
    · obtain ⟨hpending, hnot⟩ := h.naming hlock hmail p₀ hp₀
      rw [hsame] at hpending hnot
      refine ⟨hpending, fun hc => ?_⟩
      obtain heq | hc := hcallbacks _ hc
      · -- a record that is named is not idle
        have hmem := mem_of_findInfo hp₀
        rw [hsame] at hmem
        obtain ⟨q, hq⟩ := exists_findInfo hmem
        rw [Callback.removed.inj heq] at hq
        rw [hosted.record_eq hq hmem (Callback.removed.inj heq)] at hpending
        exact (horderly q hq).not_pending (hannounced hq) hpending
      · apply hnot hc
  · dsimp only at hdestroys
    rw [hcmd] at hdestroys
    obtain ⟨p, hp, rfl⟩ | ⟨hr, -⟩ := hcases r hr
    · apply h.finishing ret id hthread hdestroys p.record (mem_of_findInfo hp) hid (hopened.mp ho)
    · apply h.finishing ret id hthread hdestroys r hr hid (hopened.mp ho)

/-- A callback that takes the lock only moves its notification into the mailbox. -/
theorem Told.post (h : s.Told) {callback : Callback} (ht : s.next (.post callback) = some t)
    (horderly : s.Orderly (.post callback)) :
  t.Told
  := by
  obtain ⟨hlock, hmem, rfl⟩ := next_post ht
  have hempty : s.notifier.usbDevice = none := horderly
  have hsame : (callback.post s.notifier).infoList = s.notifier.infoList
      ∧ (callback.post s.notifier).events = s.notifier.events := by
    cases callback <;> exact ⟨rfl, rfl⟩
  obtain ⟨hlist, hevents⟩ := hsame
  have hopened : ∀ {addr}, (callback.post s.notifier).Opened addr ↔ s.notifier.Opened addr := by
    intro addr
    unfold Notifier.Opened
    rw [hevents]
  have hnothing : ∀ addr, ¬s.notifier.Removing addr := by
    rintro addr ⟨hdevice, -⟩
    rw [hempty] at hdevice
    cases hdevice
  have hfinishing : ∀ {ret id}, s.thread ≠ .finishing ret id := by
    intro ret id hthread
    rw [hthread] at hlock
    apply hlock rfl
  have hadding : ∀ {addr}, (callback.post s.notifier).Adding addr → callback = .added addr := by
    rintro addr ⟨hdevice, hcmd⟩
    cases callback with
    | added addr' => rw [EventData.device.inj (Option.some.inj hdevice)]
    | removed addr' => cases hcmd
  have hremoving : ∀ {addr}, (callback.post s.notifier).Removing addr
      → callback = .removed addr := by
    rintro addr ⟨hdevice, hcmd⟩
    cases callback with
    | added addr' => cases hcmd
    | removed addr' => rw [EventData.device.inj (Option.some.inj hdevice)]
  refine
    { word := fun addr => ?_, record := fun addr ho => ?_, removed := fun addr ho => ?_
      announced := fun r hr hadd => ?_, opened := fun r hr ho => ?_, adding := fun addr ha ho => ?_
      removing := fun addr ha r hr hra => ?_, naming := fun hlock hmail p hp => ?_
      finishing := fun ret id hthread => absurd hthread hfinishing }
  · dsimp only
    rw [hevents]
    apply h.word addr
  · dsimp only
    rw [hlist]
    apply h.record addr (hopened.mp ho)
  · obtain hattached | hc | ⟨-, hmail⟩ := h.removed addr (hopened.mp ho)
    · exact .inl hattached
    · by_cases heq : Callback.removed addr = callback
      · refine .inr (.inr ⟨hlock, ?_⟩)
        rw [← heq]
        exact ⟨rfl, rfl⟩
      · exact .inr (.inl ((List.mem_erase_of_ne heq).mpr hc))
    · apply absurd hmail (hnothing addr)
  · dsimp only at hr
    rw [hlist] at hr
    obtain ho | ⟨ret, hthread, -⟩ := h.announced r hr hadd
    · exact .inl (hopened.mpr ho)
    · apply absurd hthread hfinishing
  · dsimp only at hr
    rw [hlist] at hr
    apply h.opened r hr (hopened.mp ho)
  · have hwaits : .added addr ∈ s.callbacks := by
      obtain hc | ⟨-, hmail⟩ := ha
      · apply List.mem_of_mem_erase hc
      · rw [← hadding hmail]
        apply hmem
    apply h.adding addr (.inl hwaits) (hopened.mp ho)
  · have hwaits : .removed addr ∈ s.callbacks := by
      obtain hc | ⟨-, hmail⟩ := ha
      · apply List.mem_of_mem_erase hc
      · rw [← hremoving hmail]
        apply hmem
    dsimp only at hr ⊢
    rw [hlist] at hr
    rw [hopened]
    apply h.removing addr (.inl hwaits) r hr hra
  · dsimp only at hmail
    cases callback <;> cases hmail

/-- A command that names a device that was announced can be sent, and only that. -/
theorem Told.dispatch (h : s.Told) (hosted : s.Hosted) {cmd : Cmd} {data : Option AddRemoveInfo}
    {outcomes : Nat → Outcome} (ht : s.next (.dispatch cmd data outcomes) = some t)
    (horderly : s.Orderly (.dispatch cmd data outcomes)) :
  t.Told
  := by
  obtain ⟨hlock, n, ret, hdispatch, rfl⟩ := next_dispatch ht
  obtain ⟨hreport, hget, hidle⟩ := horderly
  have hmailbox := Notifier.dispatch_mailbox hdispatch
  obtain rfl | hget' := eq_or_ne cmd .getDevices
  · obtain rfl : s.notifier = n := (Prod.mk.inj (Except.ok.inj hdispatch)).1
    exact ⟨h.word, h.record, h.removed, h.announced, h.opened, h.adding, h.removing, h.naming,
      h.finishing⟩
  have hempty : s.notifier.usbDevice = none := hget.resolve_left hget'
  obtain ⟨hlist, hevents, -⟩ := dispatch_infoList hreport hdispatch
  have hhosts := sameHosts_dispatch s.notifier.infoList cmd data
  rw [← hlist] at hhosts
  have hopened : ∀ {addr}, n.Opened addr ↔ s.notifier.Opened addr := by
    intro addr
    unfold Notifier.Opened
    rw [hevents]
  have hdevice : ∀ {addr}, n.usbDevice ≠ some (.device addr) := by
    intro addr haddr
    have hcommand := congrArg Mailbox.usbDevice hmailbox
    rw [Mailbox.usbDevice_command] at hcommand
    have hcon := hcommand.symm.trans haddr
    split at hcon
    · cases hempty.symm.trans hcon
    · cases hcon
  have hnothing : ∀ {addr}, ¬s.notifier.Removing addr := by
    rintro addr ⟨hcon, -⟩
    cases hempty.symm.trans hcon
  have hfinishing : ∀ {ret id}, s.thread ≠ .finishing ret id := by
    intro ret id hthread
    rw [hthread] at hlock
    apply hlock rfl
  have hannounced : ∀ r ∈ s.notifier.infoList, r.status = .add → s.notifier.Opened r.addr := by
    intro r hr hadd
    obtain ho | ⟨ret, hthread, -⟩ := h.announced r hr hadd
    · apply ho
    · apply absurd hthread hfinishing
  -- a record that is named
  let Named (r : DeviceInfo) := ∃ info ∈ data,
    ∃ p, findInfo s.notifier.infoList (.normal info.devNum info.busNum) = some p ∧ p.record = r
  have hnamed : ∀ {r}, Named r → s.notifier.Idle r
    ∧ (r.status = .add → s.notifier.Opened r.addr) := by
    rintro r ⟨info, hdata, p, hp, rfl⟩
    exact ⟨hidle info hdata p hp, hannounced _ (mem_of_findInfo hp)⟩
  have hcases : ∀ r ∈ n.infoList,
      r ∈ s.notifier.infoList ∨ ∃ r₀, Named r₀ ∧ r = r₀.toggle .interface := by
    intro r hr
    rw [hlist] at hr
    split at hr
    · cases hdata : data with
      | none =>
          rw [hdata] at hr
          exact .inl hr
      | some info =>
          rw [hdata, Notifier.markNamed_some] at hr
          obtain ⟨p, hp, rfl⟩ | ⟨hr, -⟩ := mem_markFound hosted.addrs hr
          · exact .inr ⟨p.record, ⟨info, hdata, p, hp, rfl⟩, rfl⟩
          · exact .inl hr
    · exact .inl hr
  refine
    { word := fun addr => ?_, record := fun addr ho => ?_, removed := fun addr ho => ?_
      announced := fun r hr hadd => ?_, opened := fun r hr ho => ?_, adding := fun addr ha ho => ?_
      removing := fun addr ha r hr hra => ?_, naming := fun _ hmail p hp => ?_
      finishing := fun ret id hthread => absurd hthread hfinishing }
  · dsimp only
    rw [hevents]
    apply h.word addr
  · obtain ⟨r, hr, rfl⟩ := h.record addr (hopened.mp ho)
    apply hhosts.exists_addr' hr
  · obtain hattached | hc | ⟨-, hmail⟩ := h.removed addr (hopened.mp ho)
    · exact .inl hattached
    · exact .inr (.inl hc)
    · apply absurd hmail hnothing
  · obtain hr | ⟨r₀, hr₀, rfl⟩ := hcases r hr
    · exact .inl (hopened.mpr (hannounced r hr hadd))
    · obtain ⟨hidle₀, hadd₀⟩ := hnamed hr₀
      apply absurd hadd (hidle₀.toggle hadd₀ (.inr rfl)).2
  · obtain hr | ⟨r₀, hr₀, rfl⟩ := hcases r hr
    · apply h.opened r hr (hopened.mp ho)
    · obtain ⟨hidle₀, hadd₀⟩ := hnamed hr₀
      exact .inr ((hidle₀.toggle hadd₀ (.inr rfl)).1.mpr (hopened.mp ho))
  · obtain hc | ⟨-, hmail⟩ := ha
    · apply h.adding addr (.inl hc) (hopened.mp ho)
    · apply absurd hmail.1 hdevice
  · obtain hc | ⟨-, hmail⟩ := ha
    · dsimp only
      rw [hopened]
      obtain hr | ⟨r₀, hr₀, rfl⟩ := hcases r hr
      · apply h.removing addr (.inl hc) r hr hra
      · -- a device that is on its way out is not named
        obtain ⟨hidle₀, hadd₀⟩ := hnamed hr₀
        obtain ⟨info, -, p, hp, rfl⟩ := hr₀
        have hpending := h.removing addr (.inl hc) p.record (mem_of_findInfo hp) hra
        rw [← hra] at hpending
        exact (hidle₀.not_pending hadd₀ hpending).elim
    · apply absurd hmail.1 hdevice
  · dsimp only at hmail hp ⊢
    rw [hopened]
    have hcommand : (s.notifier.mailbox.command cmd data).usbDevice = some .pnpInfo := by
      rw [← hmailbox]
      apply hmail
    obtain ⟨hcmd, info, hdata, hinfo⟩ := Mailbox.command_pnpInfo hempty hcommand
    rw [← hmailbox] at hinfo
    have hinfo : n.usbPnpInfo = info := hinfo
    rw [hinfo, hlist, if_pos hcmd, hdata, Notifier.markNamed_some] at hp
    unfold markFound at hp
    cases hfind : findInfo s.notifier.infoList (.normal info.devNum info.busNum) with
    | none =>
        rw [hfind] at hp
        cases hfind.symm.trans hp
    | some p₀ =>
        have hadmits := (findInfo_eq_some.mp hfind).2.1
        rw [hfind] at hp
        dsimp only at hp
        rw [findInfo_put hfind (r := p₀.record.toggle .interface) hadmits] at hp
        obtain rfl := Option.some.inj hp
        obtain ⟨hidle₀, hadd₀⟩ := hnamed ⟨info, hdata, p₀, hfind, rfl⟩
        refine ⟨(hidle₀.toggle hadd₀ (.inr rfl)).1, fun hc => ?_⟩
        apply hidle₀.not_pending hadd₀ (h.removing _ (.inl hc) _ (mem_of_findInfo hfind) rfl)

/-! ### A report -/

/-- What the thread was asked to send about the record. -/
inductive Pending (s : System) (r : DeviceInfo) : Prop where
  | adding (hmail : s.notifier.Adding r.addr) (hclosed : ¬s.notifier.Opened r.addr)
  | naming (hmail : s.notifier.usbDevice = some .pnpInfo) (hcmd : s.notifier.cmdType.isInterface)
      (hpending : r.status = .init ↔ s.notifier.Opened r.addr)
      (hstays : .removed r.addr ∉ s.callbacks)
  | removing (hmail : s.notifier.Removing r.addr)
      (hpending : r.status = .init ↔ s.notifier.Opened r.addr)

/-- What is asked for is pending. -/
theorem Told.pending (h : s.Told) (hosted : s.Hosted) (hawake : s.thread = .awake)
    {query : QueryPara}
    (hasks : s.notifier.Asks query) {p : Place}
    (hp : findInfo s.notifier.infoList query = some p) :
  s.Pending p.record
  := by
  have hlock : ¬s.thread.holdsLock := by
    rw [hawake]
    apply Bool.false_ne_true
  cases hasks with
  | interface hcmd =>
      have hmail : s.notifier.usbDevice = some .pnpInfo := by
        obtain ⟨d, hd⟩ := Option.isSome_iff_exists.mp (hosted.awake hawake)
        cases d with
        | pnpInfo => exact hd
        | device addr =>
            obtain hmail | hmail := hosted.device addr hd
            · rw [hmail.2] at hcmd
              cases hcmd
            · rw [hmail.2] at hcmd
              cases hcmd
      obtain ⟨hpending, hstays⟩ := h.naming hlock hmail p hp
      exact .naming hmail hcmd hpending hstays
  | @device addr hcmd hdevice =>
      have haddr := addr_of_findInfo hp
      obtain hcmd | hcmd := hcmd
      · have hmail : s.notifier.Adding p.record.addr := ⟨haddr ▸ hdevice, hcmd⟩
        exact .adding hmail (h.adding _ (.inr ⟨hlock, hmail⟩))
      · have hmail : s.notifier.Removing p.record.addr := ⟨haddr ▸ hdevice, hcmd⟩
        exact .removing hmail (h.removing _ (.inr ⟨hlock, hmail⟩) _ (mem_of_findInfo hp) rfl)

/-- What is pending and can be sent is what is to be told next. -/
theorem Pending.follow {r : DeviceInfo} (h : s.Pending r) (hinit : r.status = .init)
    (hword : eventState s.notifier.events r.addr ≠ none) :
  follow (eventState s.notifier.events r.addr) s.notifier.cmdType
    = some (decide (s.notifier.cmdType ≠ .removeDevice))
  := by
  cases h with
  | adding hmail hclosed =>
      obtain ⟨o, ho⟩ := Option.ne_none_iff_exists'.mp hword
      unfold Notifier.Opened at hclosed
      rw [ho] at hclosed ⊢
      rw [hmail.2]
      cases o with
      | false => rfl
      | true => exact absurd rfl hclosed
  | naming hmail hcmd hpending hstays =>
      rw [show eventState s.notifier.events r.addr = some true from hpending.mp hinit]
      cases htype : s.notifier.cmdType with
      | addInterface | removeInterface => rfl
      | _ =>
          rw [htype] at hcmd
          cases hcmd
  | removing hmail hpending =>
      rw [show eventState s.notifier.events r.addr = some true from hpending.mp hinit, hmail.2]
      rfl

/-- A record that is announced and about which something is pending can be sent. -/
theorem Pending.sends {r : DeviceInfo} (h : s.Pending r) (hopened : s.notifier.Opened r.addr)
    {o : Outcome}
    (harrives : s.notifier.Opened r.addr → o.written ∧ o.sent = Hdf.success) :
  o.Sends r
  := by
  obtain ⟨hwritten, hsent⟩ := harrives hopened
  cases h with
  | adding hmail hclosed => exact absurd hopened hclosed
  | naming hmail hcmd hpending hstays => exact ⟨hwritten, hpending.mpr hopened, hsent⟩
  | removing hmail hpending => exact ⟨hwritten, hpending.mpr hopened, hsent⟩

/-- What is in the mailbox about a device is what is asked for. -/
theorem Pending.removing_of {r : DeviceInfo} (h : s.Pending r)
    (hcmd : s.notifier.cmdType = .removeDevice) :
  s.notifier.Removing r.addr
  := by
  cases h with
  | adding hmail hclosed => cases hmail.2.symm.trans hcmd
  | naming hmail hinterface hpending hstays =>
      rw [hcmd] at hinterface
      cases hinterface
  | removing hmail hpending => exact hmail

/-- A removal in the mailbox is what is pending. -/
theorem Pending.addr_eq {r : DeviceInfo} (h : s.Pending r) {addr : Nat}
    (hmail : s.notifier.Removing addr) :
  r.addr = addr
  := EventData.device.inj (Option.some.inj ((h.removing_of hmail.2).1.symm.trans hmail.1))

/-- The event about the record `p` was sent, and the record `r` is in its place. -/
theorem Told.sent (h : s.Told) (hosted : s.Hosted) (hawake : s.thread = .awake) {query : QueryPara}
    {p : Place} {r : DeviceInfo} {table : MatchInfoTable}
    (hfound : findInfo s.notifier.infoList query = some p) (hpending : s.Pending p.record)
    (hinit : p.record.status = .init) (hid : r.id = p.record.id) (haddr : r.addr = p.record.addr)
    (hstatus : r.status = .add) (htable : table.usbDevAddr = p.record.addr) (taken : List Notice) :
  Told { s with
    notifier := { s.notifier with
      infoList := p.put r
      events := s.notifier.events ++ [⟨s.notifier.cmdType, table⟩] }
    thread := .finishing Hdf.success (some p.record.id)
    taken }
  := by
  have hlist := (findInfo_eq_some.mp hfound).1
  have haddrs := hosted.addrs
  rw [hlist] at haddrs
  have hlock : ¬s.thread.holdsLock := by
    rw [hawake]
    apply Bool.false_ne_true
  have hstate : ∀ addr, eventState (s.notifier.events ++ [⟨s.notifier.cmdType, table⟩]) addr
      = if p.record.addr = addr then some (decide (s.notifier.cmdType ≠ .removeDevice))
        else eventState s.notifier.events addr := by
    intro addr
    rw [eventState_append, htable]
    by_cases hself : p.record.addr = addr
    · subst hself
      rw [if_pos rfl, if_pos rfl]
      apply hpending.follow hinit (h.word _)
    · rw [if_neg hself, if_neg hself]
  have hself : eventState (s.notifier.events ++ [⟨s.notifier.cmdType, table⟩]) p.record.addr
      = some true ↔ s.notifier.cmdType ≠ .removeDevice := by
    rw [hstate, if_pos rfl]
    simp
  have hothers : ∀ {addr}, addr ≠ p.record.addr →
      (eventState (s.notifier.events ++ [⟨s.notifier.cmdType, table⟩]) addr = some true
        ↔ s.notifier.Opened addr) := by
    intro addr hne
    rw [hstate, if_neg (Ne.symm hne)]
    exact Iff.rfl
  have hcases : ∀ x ∈ p.put r, x = r ∨ x ∈ s.notifier.infoList ∧ x.addr ≠ p.record.addr := by
    intro x hx
    obtain hx | ⟨hx, hne⟩ := Place.addr_ne_of_mem haddr haddrs hx
    · exact .inl hx
    · exact .inr ⟨hlist ▸ hx, haddr ▸ hne⟩
  have hannounced : ∀ x ∈ s.notifier.infoList, x.status = .add → s.notifier.Opened x.addr := by
    intro x hx hadd
    obtain ho | ⟨ret, hthread, -⟩ := h.announced x hx hadd
    · apply ho
    · cases hawake.symm.trans hthread
  refine
    { word := fun addr => ?_, record := fun addr ho => ?_, removed := fun addr ho => ?_
      announced := fun x hx hadd => ?_, opened := fun x hx ho => ?_, adding := fun addr ha ho => ?_
      removing := fun addr ha x hx hxa => ?_, naming := fun hfree => absurd rfl hfree
      finishing := fun ret id hthread hdestroys x hx hxid ho => ?_ }
  · dsimp only
    rw [hstate]
    split
    · apply Option.some_ne_none _
    · apply h.word addr
  · by_cases heq : addr = p.record.addr
    · exact ⟨r, Place.mem_put.mpr (.inl rfl), haddr.trans heq.symm⟩
    · obtain ⟨x, hx, rfl⟩ := h.record addr ((hothers heq).mp ho)
      rw [hlist] at hx
      obtain rfl | hx := Place.mem_put.mp hx
      · apply absurd rfl heq
      · exact ⟨x, Place.mem_put.mpr (.inr hx), rfl⟩
  · by_cases heq : addr = p.record.addr
    · rw [heq] at ho ⊢
      have hkind := hself.mp ho
      obtain hattached | hc | hmail := hosted.owner p.record (mem_of_findInfo hfound)
      · exact .inl hattached
      · exact .inr (.inl hc)
      · apply absurd hmail.2 hkind
    · obtain hattached | hc | ⟨-, hmail⟩ := h.removed addr ((hothers heq).mp ho)
      · exact .inl hattached
      · exact .inr (.inl hc)
      · apply absurd (hpending.addr_eq hmail).symm heq
  · obtain rfl | ⟨hx, hne⟩ := hcases x hx
    · by_cases hcmd : s.notifier.cmdType = .removeDevice
      · refine .inr ⟨Hdf.success, by rw [hid], ?_⟩
        rw [haddr]
        apply hpending.removing_of hcmd
      · rw [haddr]
        exact .inl (hself.mpr hcmd)
    · exact .inl ((hothers hne).mpr (hannounced x hx hadd))
  · obtain rfl | ⟨hx, hne⟩ := hcases x hx
    · exact .inl hstatus
    · apply h.opened x hx ((hothers hne).mp ho)
  · obtain hc | ⟨hfree, -⟩ := ha
    · by_cases heq : addr = p.record.addr
      · -- an addition waits, and another is in the mailbox
        rw [heq] at hc ho
        refine h.adding _ (.inl hc) ?_
        cases hpending with
        | adding hmail hclosed => cases (hosted.once _ hc hmail.1).1
        | naming hmail hcmd hiff hstays => exact hiff.mp hinit
        | removing hmail hiff => exact absurd hmail.2 (hself.mp ho)
      · apply h.adding addr (.inl hc) ((hothers heq).mp ho)
    · apply absurd rfl hfree
  · obtain hc | ⟨hfree, -⟩ := ha
    · obtain rfl | ⟨hx, hne⟩ := hcases x hx
      · -- a removal waits, so that nothing else about the device was to be sent
        rw [← hxa, haddr] at hc
        cases hpending with
        | adding hmail hclosed =>
            have hiff := h.removing _ (.inl hc) _ (mem_of_findInfo hfound) rfl
            apply absurd (hiff.mp hinit) hclosed
        | naming hmail hcmd hiff hstays => exact absurd hc hstays
        | removing hmail hiff => cases hmail.2.symm.trans (hosted.once _ hc hmail.1).2.2
      · rw [h.removing addr (.inl hc) x hx hxa, ← hxa]
        exact (hothers hne).symm
    · apply absurd rfl hfree
  · obtain ⟨rfl, hpid⟩ := Thread.finishing.inj hthread
    obtain rfl := Option.some.inj hpid
    have hcmd : s.notifier.cmdType = .removeDevice := hdestroys.resolve_left (not_not.mpr rfl)
    have hxaddr : x.addr = p.record.addr := by
      obtain rfl | ⟨hx, -⟩ := hcases x hx
      · apply haddr
      · rw [List.inj_on_of_nodup_map hosted.ids hx (mem_of_findInfo hfound) hxid]
    rw [hxaddr] at ho
    apply hself.mp ho hcmd

/-- No event about the record `p` was sent, and the record `r` is in its place. -/
theorem Told.refused (h : s.Told) (hosted : s.Hosted) (hawake : s.thread = .awake)
    {query : QueryPara}
    {p : Place} {r : DeviceInfo} {ret : Int}
    (hfound : findInfo s.notifier.infoList query = some p) (hpending : s.Pending p.record)
    (hclosed : ¬s.notifier.Opened p.record.addr) (hid : r.id = p.record.id)
    (haddr : r.addr = p.record.addr) (hstatus : r.status = p.record.status) (taken : List Notice) :
  Told { s with
    notifier := { s.notifier with infoList := p.put r }
    thread := .finishing ret (some p.record.id)
    taken }
  := by
  have hlist := (findInfo_eq_some.mp hfound).1
  have hmem := mem_of_findInfo hfound
  have hlock : ¬s.thread.holdsLock := by
    rw [hawake]
    apply Bool.false_ne_true
  -- each record is as one that was there before
  have hcases : ∀ x ∈ p.put r, ∃ x₀ ∈ s.notifier.infoList,
      x₀.id = x.id ∧ x₀.addr = x.addr ∧ x₀.status = x.status := by
    intro x hx
    obtain rfl | hx := Place.mem_of_mem_put hx
    · exact ⟨p.record, hmem, hid.symm, haddr.symm, hstatus.symm⟩
    · exact ⟨x, hlist ▸ hx, rfl, rfl, rfl⟩
  refine
    { word := h.word, record := fun addr ho => ?_, removed := fun addr ho => ?_
      announced := fun x hx hadd => ?_, opened := fun x hx ho => ?_, adding := fun addr ha => ?_
      removing := fun addr ha x hx hxa => ?_, naming := fun hfree => absurd rfl hfree
      finishing := fun ret' id hthread _ x hx hxid ho => ?_ }
  · obtain ⟨x, hx, rfl⟩ := h.record addr ho
    rw [hlist] at hx
    obtain rfl | hx := Place.mem_put.mp hx
    · apply absurd ho hclosed
    · exact ⟨x, Place.mem_put.mpr (.inr hx), rfl⟩
  · obtain hattached | hc | ⟨-, hmail⟩ := h.removed addr ho
    · exact .inl hattached
    · exact .inr (.inl hc)
    · rw [hpending.addr_eq hmail] at hclosed
      apply absurd ho hclosed
  · obtain ⟨x₀, hx₀, -, hxaddr, hxstatus⟩ := hcases x hx
    rw [← hxaddr]
    obtain ho | ⟨ret, hthread, -⟩ := h.announced x₀ hx₀ (hxstatus.trans hadd)
    · exact .inl ho
    · cases hawake.symm.trans hthread
  · obtain ⟨x₀, hx₀, -, hxaddr, hxstatus⟩ := hcases x hx
    rw [← hxstatus]
    rw [← hxaddr] at ho
    apply h.opened x₀ hx₀ ho
  · obtain hc | ⟨hfree, -⟩ := ha
    · apply h.adding addr (.inl hc)
    · apply absurd rfl hfree
  · obtain ⟨x₀, hx₀, -, hxaddr, hxstatus⟩ := hcases x hx
    rw [← hxstatus]
    obtain hc | ⟨hfree, -⟩ := ha
    · apply h.removing addr (.inl hc) x₀ hx₀ (hxaddr.trans hxa)
    · apply absurd rfl hfree
  · obtain ⟨-, hpid⟩ := Thread.finishing.inj hthread
    obtain ⟨x₀, hx₀, hx₀id, hxaddr, -⟩ := hcases x hx
    have hsame : x₀ = p.record := by
      refine List.inj_on_of_nodup_map hosted.ids hx₀ hmem ?_
      rw [hx₀id, hxid, Option.some.inj hpid]
    rw [← hxaddr, hsame] at ho
    apply hclosed ho

/-- What is sent in order is what is to be told next. -/
theorem Told.report (h : s.Told) (hosted : s.Hosted) {o : Outcome}
    (ht : s.next (.report o) = some t)
    (horderly : s.Orderly (.report o)) :
  t.Told
  := by
  obtain ⟨hawake, n, ret, id, hreport, rfl⟩ := next_report ht
  obtain ⟨hobtained, harrives⟩ := horderly
  obtain ⟨query, hasks, hquery⟩ := hosted.asks hawake
  generalize s.taken ++ s.notifier.mailbox.notice.toList = taken
  cases hasks.reported (hosted.awake hawake) hreport with
  | missing hmissing =>
      -- the removal of a device that was announced is not missed
      have hnothing : ∀ addr, s.notifier.Removing addr → ¬s.notifier.Opened addr := by
        intro addr hmail ho
        obtain ⟨r, hr, hra⟩ := h.record addr ho
        obtain hcon | hcon := hmissing
        · apply hcon (hobtained hmail.2)
        · rw [hquery addr hmail.1] at hcon
          refine findInfo_eq_none.mp hcon r hr ?_
          simpa [QueryPara.admits] using hra
      refine
        { word := h.word, record := h.record, removed := fun addr ho => ?_
          announced := fun r hr hadd => ?_, opened := h.opened, adding := fun addr ha => ?_
          removing := fun addr ha => ?_, naming := fun hfree => absurd rfl hfree
          finishing := fun ret id hthread => ?_ }
      · obtain hattached | hc | ⟨-, hmail⟩ := h.removed addr ho
        · exact .inl hattached
        · exact .inr (.inl hc)
        · apply absurd ho (hnothing addr hmail)
      · obtain ho | ⟨ret, hthread, -⟩ := h.announced r hr hadd
        · exact .inl ho
        · cases hawake.symm.trans hthread
      · obtain hc | ⟨hfree, -⟩ := ha
        · apply h.adding addr (.inl hc)
        · apply absurd rfl hfree
      · obtain hc | ⟨hfree, -⟩ := ha
        · apply h.removing addr (.inl hc)
        · apply absurd rfl hfree
      · cases (Thread.finishing.inj hthread).2
  | @sent p r table _ hfound hsends hid hinfo hstatus htable _ =>
      exact h.sent hosted hawake hfound (h.pending hosted hawake hasks hfound) hsends.status hid
        (by rw [DeviceInfo.addr, hinfo]) hstatus htable taken
  | @refused p r ret hobtained hfound hrefused hret hid hinfo hstatus =>
      have hpending := h.pending hosted hawake hasks hfound
      have hclosed : ¬s.notifier.Opened p.record.addr := fun ho =>
        hrefused (hpending.sends ho (harrives hobtained query p hasks hfound))
      exact h.refused hosted hawake hfound hpending hclosed hid (by rw [DeviceInfo.addr, hinfo])
        hstatus taken

theorem finishReport_events (n : Notifier) (ret : Int) (id : Option Nat) :
  (n.finishReport ret id).events = n.events
  := by
  change (n.sendEventOut ret id).events = n.events
  unfold Notifier.sendEventOut
  cases id with
  | none => rfl
  | some id =>
      dsimp only
      split <;> rfl

/-- The record of a device that is announced is not destroyed. -/
theorem Told.finish (h : s.Told) (hosted : s.Hosted) (ht : s.next .finish = some t) :
  t.Told
  := by
  obtain ⟨ret, id, hthread, rfl⟩ := next_finish ht
  have hevents := finishReport_events s.notifier ret id
  have hopened : ∀ {addr},
      (s.notifier.finishReport ret id).Opened addr ↔ s.notifier.Opened addr := by
    intro addr
    unfold Notifier.Opened
    rw [hevents]
  have hlock : s.thread.holdsLock := by
    rw [hthread]
    rfl
  have hmem : ∀ {r}, r ∈ (s.notifier.finishReport ret id).infoList ↔ r ∈ s.notifier.infoList
      ∧ (ret ≠ Hdf.success ∨ s.notifier.cmdType = .removeDevice → id ≠ some r.id) :=
    mem_finishReport hosted.ids
  refine
    { word := fun addr => ?_, record := fun addr ho => ?_, removed := fun addr ho => ?_
      announced := fun r hr hadd => ?_, opened := fun r hr ho => ?_, adding := fun addr ha ho => ?_
      removing := fun addr ha r hr hra => ?_, naming := fun _ => nofun, finishing := nofun }
  · dsimp only
    rw [hevents]
    apply h.word addr
  · obtain ⟨r, hr, rfl⟩ := h.record addr (hopened.mp ho)
    refine ⟨r, hmem.mpr ⟨hr, ?_⟩, rfl⟩
    rintro hdestroys rfl
    apply h.finishing ret r.id hthread hdestroys r hr rfl (hopened.mp ho)
  · obtain hattached | hc | ⟨hfree, -⟩ := h.removed addr (hopened.mp ho)
    · exact .inl hattached
    · exact .inr (.inl hc)
    · apply absurd hlock hfree
  · obtain ⟨hr, hkept⟩ := hmem.mp hr
    obtain ho | ⟨ret', hdropping, hmail⟩ := h.announced r hr hadd
    · exact .inl (hopened.mpr ho)
    · obtain ⟨-, rfl⟩ := Thread.finishing.inj (hthread.symm.trans hdropping)
      apply absurd rfl (hkept (.inr hmail.2))
  · apply h.opened r (hmem.mp hr).1 (hopened.mp ho)
  · obtain hc | ⟨-, hdevice, -⟩ := ha
    · apply h.adding addr (.inl hc) (hopened.mp ho)
    · cases hdevice
  · obtain hc | ⟨-, hdevice, -⟩ := ha
    · rw [h.removing addr (.inl hc) r (hmem.mp hr).1 hra]
      apply hopened.symm
    · cases hdevice

/-- A step of the thread that only waits. -/
theorem Told.rethread (h : s.Told) {thread : Thread} (hbefore : ¬s.thread.holdsLock)
    (hafter : ¬thread.holdsLock) :
  Told { s with thread }
  := by
  refine
    { word := h.word, record := h.record, removed := fun addr ho => ?_
      announced := fun r hr hadd => ?_, opened := h.opened, adding := fun addr ha => ?_
      removing := fun addr ha => ?_, naming := fun _ => h.naming hbefore
      finishing := fun ret id hthread => ?_ }
  · obtain hattached | hc | ⟨-, hmail⟩ := h.removed addr ho
    · exact .inl hattached
    · exact .inr (.inl hc)
    · exact .inr (.inr ⟨hafter, hmail⟩)
  · obtain ho | ⟨ret, hthread, -⟩ := h.announced r hr hadd
    · exact .inl ho
    · rw [hthread] at hbefore
      apply absurd rfl hbefore
  · obtain hc | ⟨-, hmail⟩ := ha
    · apply h.adding addr (.inl hc)
    · exact h.adding addr (.inr ⟨hbefore, hmail⟩)
  · obtain hc | ⟨-, hmail⟩ := ha
    · apply h.removing addr (.inl hc)
    · exact h.removing addr (.inr ⟨hbefore, hmail⟩)
  · rw [show thread = .finishing ret (some id) from hthread] at hafter
    apply absurd rfl hafter

/-- A step in order keeps what the records have to do with what was told. -/
theorem Told.step (h : s.Told) (hosted : s.Hosted) (ht : s.next a = some t)
    (horderly : s.Orderly a) :
  t.Told
  := by
  cases a with
  | notifyAdd usbDev allocated => exact h.notifyAdd hosted ht horderly
  | notifyRemove addr => exact h.notifyRemove hosted ht horderly
  | post callback => exact h.post ht horderly
  | dispatch cmd data outcomes => exact h.dispatch hosted ht horderly
  | wake =>
      obtain ⟨hwaiting, -, rfl⟩ := next_wake ht
      refine h.rethread ?_ Bool.false_ne_true
      rw [hwaiting]
      apply Bool.false_ne_true
  | report o => exact h.report hosted ht horderly
  | finish => exact h.finish hosted ht
  | rest =>
      obtain ⟨hsleeping, rfl⟩ := next_rest ht
      refine h.rethread ?_ Bool.false_ne_true
      rw [hsleeping]
      apply Bool.false_ne_true
  | free addr =>
      obtain ⟨-, -, rfl⟩ := next_free ht
      exact ⟨h.word, h.record, h.removed, h.announced, h.opened, h.adding, h.removing, h.naming,
        h.finishing⟩
  | configure usbDev =>
      obtain rfl := next_configure ht
      exact ⟨h.word, h.record, h.removed, h.announced, h.opened, h.adding, h.removing, h.naming,
        h.finishing⟩

theorem told_systemNew (live : List UsbDevice) :
  (systemNew live).Told
  := by
  have hclosed : ∀ addr, ¬(systemNew live).notifier.Opened addr := fun _ => nofun
  refine
    { word := fun _ => Option.some_ne_none _, record := fun addr ho => absurd ho (hclosed addr)
      removed := fun addr ho => absurd ho (hclosed addr), announced := nofun, opened := nofun
      adding := fun addr _ => hclosed addr, removing := fun _ _ => nofun, naming := fun _ => nofun
      finishing := nofun }

theorem Told.protocol (h : s.Told) :
  s.Protocol
  := ⟨h.word, h.record, h.removed⟩

end System

/-- In a run whose steps come in order, the events about each device follow the protocol, its record
stays while it is announced, and it is announced only while it is attached or its removal is on its
way. -/
theorem events_protocol {live : List UsbDevice} {acts : List Act} {s : System}
    (h : Run (fun s a t => s.next a = some t ∧ s.Orderly a) (systemNew live) acts s) :
  s.Protocol
  := by
  have hkept : s.Hosted ∧ s.Told :=
    h.keeps (fun s => s.Hosted ∧ s.Told)
      (fun _ _ _ hs ht => ⟨hs.1.step ht.1 ht.2, hs.2.step hs.1 ht.1 ht.2⟩)
      ⟨System.hosted_systemNew live, System.told_systemNew live⟩
  exact hkept.2.protocol

/-- What the thread does about a notification. -/
def threadActs : List Act := [.wake, .report .fine, .finish, .rest]

/-- A device is added. -/
def addActs : List Act := [.notifyAdd (mouse 4096 2) true, .post (.added 4096)] ++ threadActs

/-- Its interface is removed. -/
def interfaceActs : List Act :=
  .dispatch .removeInterface (some ⟨2, 1, 0, 3, 1, 2⟩) (fun _ => .fine) :: threadActs

/-- It is removed. -/
def removeActs : List Act := [.notifyRemove 4096, .post (.removed 4096)] ++ threadActs

/-- The record of the device, after it was announced. -/
def mouseRecord (interfaceRemoveStatus : List Bool) (removeType : RemoveType) : DeviceInfo where
  id := 1
  status := .add
  interfaceRemoveStatus := interfaceRemoveStatus
  info := ⟨4096, 2, 1, default, removeType, [⟨3, 1, 2, 0⟩]⟩

/-- The device is announced, and the thread waits. -/
def mouseAdded : System where
  notifier := { notifierNew with
    infoList := [mouseRecord [] .busDevNum]
    idNum := 2
    cmdType := .addDevice
    events := [⟨.addDevice, (mouseRecord [] .busDevNum).info⟩] }
  live := [mouse 4096 2]
  attached := [4096]
  callbacks := []
  thread := .waiting
  posted := [⟨.addDevice, .device 4096, none⟩]
  taken := [⟨.addDevice, .device 4096, none⟩]

/-- Its interface is removed, and the thread waits. -/
def mouseSplit : System where
  notifier := { mouseAdded.notifier with
    infoList := [mouseRecord [true] .interfaceNum]
    usbPnpInfo := ⟨2, 1, 0, 3, 1, 2⟩
    cmdType := .removeInterface
    removeType := .interfaceNum
    events := [⟨.addDevice, (mouseRecord [] .busDevNum).info⟩,
      ⟨.removeInterface, (mouseRecord [] .interfaceNum).info⟩] }
  live := [mouse 4096 2]
  attached := [4096]
  callbacks := []
  thread := .waiting
  posted := mouseAdded.posted
    ++ [⟨.removeInterface, .interface ⟨2, 1, 0, 3, 1, 2⟩, some .interfaceNum⟩]
  taken := mouseAdded.taken
    ++ [⟨.removeInterface, .interface ⟨2, 1, 0, 3, 1, 2⟩, some .interfaceNum⟩]

theorem events_protocol_oneByOne :
  ∃ s, Run (fun s a t => s.next a = some t ∧ s.Orderly a) (systemNew [])
      (addActs ++ (interfaceActs ++ removeActs)) s
    ∧ s.notifier.events.map Event.cmd = [.addDevice, .removeInterface, .removeDevice] ∧ s.Protocol
  := by
  have hfine : ∀ s : System, s.Orderly (.report .fine) := fun s =>
    ⟨fun _ => rfl, fun _ _ _ _ _ _ => ⟨rfl, rfl⟩⟩
  have hadd :
      Run (fun s a t => s.next a = some t ∧ s.Orderly a) (systemNew []) addActs mouseAdded := by
    refine .cons ⟨rfl, ?_⟩ (.cons ⟨rfl, rfl⟩ (.cons ⟨rfl, trivial⟩ (.cons ⟨rfl, hfine _⟩
      (.cons ⟨rfl, trivial⟩ (.cons ⟨rfl, trivial⟩ (.nil _))))))
    exact fun _ => ⟨fun _ => nofun, nofun⟩
  have hinterface : Run (fun s a t => s.next a = some t ∧ s.Orderly a) mouseAdded interfaceActs
      mouseSplit := by
    refine .cons ⟨rfl, ?_⟩ (.cons ⟨rfl, trivial⟩ (.cons ⟨rfl, hfine _⟩ (.cons ⟨rfl, trivial⟩
      (.cons ⟨rfl, trivial⟩ (.nil _)))))
    refine ⟨nofun, .inr rfl, fun info hinfo p hp => ?_⟩
    obtain rfl := Option.some.inj hinfo
    obtain rfl := Option.some.inj hp
    exact .inl rfl
  have hremove : ∃ s, Run (fun s a t => s.next a = some t ∧ s.Orderly a) mouseSplit removeActs s
      ∧ s.notifier.events.map Event.cmd = [.addDevice, .removeInterface, .removeDevice] := by
    refine ⟨_, .cons ⟨rfl, ?_⟩ (.cons ⟨rfl, rfl⟩ (.cons ⟨rfl, trivial⟩ (.cons ⟨rfl, hfine _⟩
      (.cons ⟨rfl, trivial⟩ (.cons ⟨rfl, trivial⟩ (.nil _)))))), rfl⟩
    intro p hp
    obtain rfl := Option.some.inj hp
    exact .inl rfl
  obtain ⟨s, hremove, hevents⟩ := hremove
  have hrun := hadd.append (hinterface.append hremove)
  exact ⟨s, hrun, hevents, events_protocol hrun⟩

/-- A device is added, two commands about it come at once, and it is removed. -/
def hastyActs : List Act :=
  [.notifyAdd (mouse 4096 2) true, .post (.added 4096)] ++ threadActs
    ++ [.dispatch .addInterface (some ⟨2, 1, 0, 3, 1, 2⟩) fun _ => .fine,
      .dispatch .removeInterface (some ⟨2, 1, 0, 3, 1, 2⟩) fun _ => .fine]
    ++ threadActs ++ [.notifyRemove 4096]

/-- The record of the device is destroyed by the second command, and its removal is never sent. -/
theorem events_dropped :
  ∃ s, Run (fun s a t => s.next a = some t) (systemNew []) hastyActs s
    ∧ s.notifier.events.map Event.cmd = [.addDevice] ∧ s.notifier.infoList = []
    ∧ s.callbacks = [] ∧ ¬s.Protocol
  := by
  refine ⟨_, Run.of_foldlM (f := System.next) rfl, rfl, rfl, rfl, fun h => ?_⟩
  obtain ⟨r, hr, -⟩ := h.record 4096 rfl
  cases hr

end Pnp
