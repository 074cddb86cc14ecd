import KhdfLinux.Pnp.ReportThread

/-!
# What a report does

The outcome of `UsbPnpNotifyHdfSendEvent` for a record that is found, and for one that it creates,
said by what happens to the record and what is sent.
-/

namespace Pnp

/-- The records before this place have other ids, so that the record in it is what its id destroys.
-/
def Place.First (p : Place) : Prop :=
  ∀ r ∈ p.before, r.id ≠ p.record.id

theorem destroyInfo_put {p : Place} (hfirst : p.First) {r : DeviceInfo} (hid : r.id = p.record.id) :
  destroyInfo (p.put r) r.id = p.before ++ p.after
  := by
  unfold destroyInfo Place.put
  rw [List.eraseP_append_right]
  · rw [List.eraseP_cons_of_pos (by simp)]
  · intro x hx
    simpa [hid] using hfirst x hx

/-- A record that was just appended is destroyed, if no other has its id. -/
theorem destroyInfo_append {infoList : List DeviceInfo} {r : DeviceInfo}
    (hfresh : ∀ x ∈ infoList, x.id ≠ r.id) :
  destroyInfo (infoList ++ [r]) r.id = infoList
  := by
  have hfirst : Place.First ⟨infoList, r, []⟩ := hfresh
  rw [← List.append_nil infoList]
  simpa [Place.put] using destroyInfo_put hfirst rfl

/-- All that is needed to send an event about the record. -/
structure Outcome.Sends (o : Outcome) (r : DeviceInfo) : Prop where
  written : o.written
  status : r.status = .init
  sent : o.sent = Hdf.success

namespace Notifier

variable {s t : Notifier}

/-- By what the thread asks for a record. -/
inductive Asks (s : Notifier) : QueryPara → Prop where
  | interface (hcmd : s.cmdType.isInterface) :
      Asks s (.normal s.usbPnpInfo.devNum s.usbPnpInfo.busNum)
  | device {addr : Nat} (hcmd : s.cmdType = .addDevice ∨ s.cmdType = .removeDevice)
      (hdevice : s.usbDevice = some (.device addr)) : Asks s (.deviceAddress addr)

/-- What a report does: there is no buffer or no record, an event is sent about the record `p`, or
none is.  The record `r` is in its place afterwards. -/
inductive Reported (s : Notifier) (query : QueryPara) (o : Outcome) :
    Notifier → Int → Option Nat → Prop where
  | missing (h : ¬o.obtained ∨ findInfo s.infoList query = none) :
      Reported s query o s Hdf.failure none
  | sent {p : Place} {r : DeviceInfo} {table : MatchInfoTable} (hobtained : o.obtained)
      (hfound : findInfo s.infoList query = some p) (hsends : o.Sends p.record)
      (hid : r.id = p.record.id)
        (hinfo : r.info = { p.record.info with removeType := s.removeType })
      (hstatus : r.status = .add) (htable : table.usbDevAddr = p.record.info.usbDevAddr)
      (hplain : ¬s.cmdType.isInterface → table = r.info) :
      Reported s query o
        { s with infoList := p.put r, events := s.events ++ [⟨s.cmdType, table⟩] }
        Hdf.success (some p.record.id)
  | refused {p : Place} {r : DeviceInfo} {ret : Int} (hobtained : o.obtained)
      (hfound : findInfo s.infoList query = some p) (hsends : ¬o.Sends p.record)
      (hret : ret ≠ Hdf.success) (hid : r.id = p.record.id)
      (hinfo : r.info = { p.record.info with removeType := s.removeType })
      (hstatus : r.status = p.record.status) :
      Reported s query o { s with infoList := p.put r } ret (some p.record.id)

/-- What comes of sending the table. -/
theorem sendTable_cases (s : Notifier) (r : DeviceInfo) (table : MatchInfoTable) (sent : Int) :
  (r.status = .init ∧ sent = Hdf.success
      ∧ s.sendTable r table sent
        = ({ r with status := .add }, Hdf.success, some ⟨s.cmdType, table⟩))
    ∨ ¬(r.status = .init ∧ sent = Hdf.success)
      ∧ ∃ ret, ret ≠ Hdf.success ∧ s.sendTable r table sent = (r, ret, none)
  := by
  unfold sendTable
  by_cases hstatus : r.status = .init
  · by_cases hsent : sent = Hdf.success
    · refine .inl ⟨hstatus, hsent, ?_⟩
      rw [if_pos hstatus, if_neg (not_not.mpr hsent)]
    · refine .inr ⟨fun h => hsent h.2, sent, hsent, ?_⟩
      rw [if_pos hstatus, if_pos hsent]
  · exact .inr ⟨fun h => hstatus h.1, Hdf.errInvalidObject, by decide, if_neg hstatus⟩

/-- What is prepared about a record that was found: its identity stays, and so does its status. -/
theorem initInfo_found {live : List UsbDevice} {written : Bool} {r r' : DeviceInfo} {d : EventData}
    {table : MatchInfoTable} {ret : Int} (hcmd : s.cmdType ≠ .reportInterface)
    (h : s.initInfo live written r d = .ok (r', table, ret)) :
  r'.id = r.id ∧ r'.info = r.info ∧ r'.status = r.status
    ∧ table.usbDevAddr = r.info.usbDevAddr ∧ (¬s.cmdType.isInterface → table = r'.info)
    ∧ (ret = Hdf.success ↔ written)
  := by
  have hret : (if written then Hdf.success else Hdf.failure) = Hdf.success ↔ written := by
    cases written with
    | false => decide
    | true => decide
  unfold initInfo at h
  cases htype : s.cmdType with
  | addInterface | removeInterface =>
      rw [htype] at h
      cases d with
      | device addr => cases h
      | pnpInfo =>
          cases h
          exact ⟨rfl, rfl, rfl, rfl, fun hcon => absurd rfl hcon, hret⟩
  | reportInterface => exact absurd htype hcmd
  | addDevice | removeDevice | getDevices | other cmd =>
      rw [htype] at h
      cases h
      exact ⟨rfl, rfl, rfl, rfl, fun _ => rfl, hret⟩

/-- What is done with a record that was found. -/
theorem sendRecord_cases {live : List UsbDevice} {o : Outcome} {r r' : DeviceInfo} {d : EventData}
    {ret : Int} {event : Option Event} (hcmd : s.cmdType ≠ .reportInterface)
    (h : s.sendRecord live o r d = .ok (r', ret, event)) :
  r'.id = r.id ∧ r'.info = r.info ∧
    (o.Sends r ∧ ret = Hdf.success ∧ r'.status = .add
        ∧ (∃ table, event = some ⟨s.cmdType, table⟩ ∧ table.usbDevAddr = r.info.usbDevAddr
          ∧ (¬s.cmdType.isInterface → table = r'.info))
      ∨ ¬o.Sends r ∧ ret ≠ Hdf.success ∧ r'.status = r.status ∧ event = none)
  := by
  unfold sendRecord at h
  split at h
  · cases h
  rename_i r₁ table init hinit
  obtain ⟨hid, hinfo, hstatus, haddr, hplain, hret⟩ := initInfo_found hcmd hinit
  split at h
  · rename_i hfailed
    cases h
    exact ⟨hid, hinfo, .inr ⟨fun hs => hfailed (hret.mpr hs.written), hfailed, hstatus, rfl⟩⟩
  · rename_i hok
    have hwritten := hret.mp (not_not.mp hok)
    obtain ⟨hst, hsent, heq⟩ | ⟨hnot, ret', hret', heq⟩ := s.sendTable_cases r₁ table o.sent
    · rw [heq] at h
      cases h
      rw [hstatus] at hst
      exact ⟨hid, hinfo, .inl ⟨⟨hwritten, hst, hsent⟩, rfl, rfl, table, rfl, haddr, hplain⟩⟩
    · rw [heq] at h
      cases h
      refine ⟨hid, hinfo, .inr ⟨fun hs => hnot ⟨?_, hs.sent⟩, hret', hstatus, rfl⟩⟩
      rw [hstatus]
      apply hs.status

/-- A record is asked for as the command says. -/
theorem Asks.getDeviceInfo {query : QueryPara} (h : s.Asks query) {d : EventData}
    (hd : s.eventData = some d) (allocated : Bool) :
  s.getDeviceInfo allocated d = .ok (s, findInfo s.infoList query)
  := by
  unfold Notifier.getDeviceInfo
  cases h with
  | interface hcmd =>
      obtain rfl := eventData_of_isInterface hd hcmd
      cases htype : s.cmdType with
      | addInterface | removeInterface => rfl
      | _ =>
          rw [htype] at hcmd
          cases hcmd
  | device hcmd hdevice =>
      unfold Notifier.eventData at hd
      obtain htype | htype := hcmd
      · rw [htype] at hd
        obtain rfl := Option.some.inj (hdevice.symm.trans hd)
        rw [htype]
      · rw [htype] at hd
        obtain rfl := Option.some.inj (hdevice.symm.trans hd)
        rw [htype]

theorem Asks.cmdType_ne {query : QueryPara} (h : s.Asks query) :
  s.cmdType ≠ .reportInterface
  := by
  intro htype
  cases h with
  | interface hcmd =>
      rw [htype] at hcmd
      cases hcmd
  | device hcmd hdevice =>
      rw [htype] at hcmd
      simp at hcmd

/-- The thread sends an event about the record it asks for, or none. -/
theorem Asks.reported {query : QueryPara} (h : s.Asks query) {live : List UsbDevice} {o : Outcome}
    {ret : Int} {id : Option Nat} (hdevice : s.usbDevice.isSome)
    (hreport : s.report live o = .ok (t, ret, id)) :
  s.Reported query o t ret id
  := by
  obtain ⟨d, hd⟩ : ∃ d, s.eventData = some d := by
    unfold eventData
    split
    · exact ⟨_, rfl⟩
    · apply Option.isSome_iff_exists.mp hdevice
  unfold report at hreport
  rw [hd] at hreport
  dsimp only at hreport
  unfold sendEventBody at hreport
  by_cases hobtained : o.obtained
  · rw [if_neg (not_not.mpr hobtained), h.getDeviceInfo hd] at hreport
    cases hfound : findInfo s.infoList query with
    | none =>
        rw [hfound] at hreport
        cases hreport
        exact .missing (.inr hfound)
    | some p =>
        rw [hfound] at hreport
        dsimp only at hreport
        split at hreport
        · cases hreport
        · rename_i r ret event hsend
          obtain ⟨hid, hinfo, hcase⟩ := sendRecord_cases h.cmdType_ne hsend
          have hidp : r.id = p.record.id := hid
          cases hreport
          rw [hidp]
          obtain ⟨hsends, rfl, hstatus, table, rfl, haddr, hplain⟩ | ⟨hnot, hret, hstatus, rfl⟩ :=
            hcase
          · exact .sent hobtained hfound ⟨hsends.written, hsends.status, hsends.sent⟩ hidp hinfo
              hstatus haddr hplain
          · have hnotp : ¬o.Sends p.record := fun hs => hnot ⟨hs.written, hs.status, hs.sent⟩
            have hdone := Reported.refused (s := s) hobtained hfound hnotp hret hidp hinfo hstatus
            simpa using hdone
  · rw [if_pos hobtained] at hreport
    cases hreport
    exact .missing (.inl hobtained)

/-! ### A callback before it takes the lock -/

/-- A device that is added has a new record, and is posted if it could be read. -/
theorem deviceAdded_cases (s : Notifier) (usbDev : UsbDevice) :
  ∃ r : DeviceInfo, r.id = s.nextId ∧ r.status = .init ∧ r.info.usbDevAddr = usbDev.addr
    ∧ (s.deviceAdded usbDev true).1
      = { s with infoList := s.infoList ++ [r], idNum := s.nextId + 1 }
    ∧ ((s.deviceAdded usbDev true).2 ↔ usbDev.Complete)
    ∧ r.info.devNum = usbDev.devnum ∧ r.info.busNum = usbDev.bus.getD 0
  := by
  refine ⟨{ DeviceInfo.new s.nextId with
    info := (addInitInfo (DeviceInfo.new s.nextId).info usbDev).1 }, rfl, rfl, ?_, rfl, ?_, ?_, ?_⟩
  · apply addInitInfo_usbDevAddr
  · rw [← addInitInfo_eq_success (DeviceInfo.new s.nextId).info usbDev]
    apply decide_eq_true_iff
  · apply addInitInfo_devNum
  · apply addInitInfo_busNum

theorem deviceRemoved_eq (s : Notifier) (addr : Nat) :
  s.deviceRemoved addr
    = match findInfo s.infoList (.deviceAddress addr) with
      | none => (s, false)
      | some p => ({ s with infoList := p.put (p.record.toggle .remove) }, true)
  := rfl

/-- The list after a command about an interface: the record that is named, if there is one, is
marked. -/
def markNamed (infoList : List DeviceInfo) (data : Option AddRemoveInfo) : List DeviceInfo :=
  match data with
  | none => infoList
  | some info =>
      match findInfo infoList (.normal info.devNum info.busNum) with
      | none => infoList
      | some p => p.put (p.record.toggle .interface)

theorem readPnpInfo_infoList (s : Notifier) (data : Option AddRemoveInfo) :
  (s.readPnpInfo data).infoList = markNamed s.infoList data
    ∧ (s.readPnpInfo data).events = s.events ∧ (s.readPnpInfo data).idNum = s.idNum
  := by
  unfold readPnpInfo markNamed
  cases data with
  | none => exact ⟨rfl, rfl, rfl⟩
  | some info =>
      dsimp only
      cases findInfo s.infoList (.normal info.devNum info.busNum) <;> exact ⟨rfl, rfl, rfl⟩

/-- A command about an interface marks the record that is named. -/
theorem dispatch_interface {live : List UsbDevice} {attached : List Nat} {cmd : Cmd}
    {data : Option AddRemoveInfo} {outcomes : Nat → Outcome} {ret : Int} (hcmd : cmd.isInterface)
    (h : s.dispatch live attached cmd data outcomes = .ok (t, ret)) :
  t.infoList = markNamed s.infoList data ∧ t.events = s.events ∧ t.idNum = s.idNum
  := by
  unfold dispatch at h
  cases cmd with
  | addInterface | removeInterface =>
      obtain ⟨rfl, -⟩ := Prod.mk.inj (Except.ok.inj h)
      apply readPnpInfo_infoList _ data
  | _ => cases hcmd

/-! ### A report of what is attached -/

/-- A record that was created and filled is sent. -/
structure Announces (o : Outcome) (usbDev : UsbDevice) : Prop where
  complete : usbDev.Complete
  written : o.written
  sent : o.sent = Hdf.success

/-- The table of a record that is created for the device. -/
def newInfo (s : Notifier) (usbDev : UsbDevice) : MatchInfoTable :=
  (addInitInfo { (DeviceInfo.new s.nextId).info with removeType := s.removeType } usbDev).1

/-- What `UsbPnpNotifyFirstReport` does: no record is created, or one is and is announced, or one is
and is destroyed again. -/
inductive FirstReported (s : Notifier) (usbDev : UsbDevice) (o : Outcome) :
    Notifier → Int → Prop where
  | missing (h : ¬(o.obtained ∧ o.allocated)) : FirstReported s usbDev o s Hdf.failure
  | sent {r : DeviceInfo} (hannounces : Announces o usbDev) (hid : r.id = s.nextId)
      (hinfo : r.info = s.newInfo usbDev) :
      FirstReported s usbDev o
        { s with
          infoList := s.infoList ++ [r]
          idNum := s.nextId + 1
          events := s.events ++ [⟨.reportInterface, r.info⟩] } Hdf.success
  | refused {r : DeviceInfo} {ret : Int} (hobtained : o.obtained ∧ o.allocated)
      (hannounces : ¬Announces o usbDev) (hret : ret ≠ Hdf.success) (hid : r.id = s.nextId) :
      FirstReported s usbDev o
        { s with infoList := destroyInfo (s.infoList ++ [r]) r.id, idNum := s.nextId + 1 } ret

/-- What is done with a record that was created for a report. -/
theorem sendRecord_new {live : List UsbDevice} {usbDev : UsbDevice} {o : Outcome}
    {r r' : DeviceInfo}
    {ret : Int} {event : Option Event} (hcmd : s.cmdType = .reportInterface)
    (hlive : (live.find? fun d => d.addr = usbDev.addr) = some usbDev) (hinit : r.status = .init)
    (h : s.sendRecord live o r (.device usbDev.addr) = .ok (r', ret, event)) :
  r'.id = r.id ∧ r'.info = (addInitInfo r.info usbDev).1 ∧
    (Announces o usbDev ∧ ret = Hdf.success ∧ event = some ⟨.reportInterface, r'.info⟩
      ∨ ¬Announces o usbDev ∧ ret ≠ Hdf.success ∧ event = none)
  := by
  unfold sendRecord initInfo at h
  rw [hcmd] at h
  dsimp only at h
  rw [hlive] at h
  dsimp only at h
  have hcomplete := addInitInfo_eq_success r.info usbDev
  generalize addInitInfo r.info usbDev = filled at h hcomplete ⊢
  obtain ⟨info, init⟩ := filled
  dsimp only at h hcomplete ⊢
  by_cases hbad : init ≠ Hdf.success
  · rw [if_pos hbad, if_pos hbad] at h
    cases h
    exact ⟨rfl, rfl, .inr ⟨fun ha => hbad (hcomplete.mpr ha.complete), hbad, rfl⟩⟩
  rw [if_neg hbad] at h
  have hgood := hcomplete.mp (not_not.mp hbad)
  by_cases hwritten : o.written
  · rw [if_pos hwritten, if_neg (not_not.mpr rfl)] at h
    obtain ⟨-, hsent, heq⟩ | ⟨hnot, ret', hret', heq⟩ :=
      s.sendTable_cases { r with info } info o.sent
    · rw [heq, hcmd] at h
      cases h
      exact ⟨rfl, rfl, .inl ⟨⟨hgood, hwritten, hsent⟩, rfl, rfl⟩⟩
    · rw [heq] at h
      cases h
      exact ⟨rfl, rfl, .inr ⟨fun ha => hnot ⟨hinit, ha.sent⟩, hret', rfl⟩⟩
  · rw [if_neg hwritten, if_pos (by decide)] at h
    cases h
    exact ⟨rfl, rfl, .inr ⟨fun ha => hwritten ha.written, by decide, rfl⟩⟩

/-- A device is announced, or its record is destroyed again. -/
theorem firstReported_of_sendEvent {live : List UsbDevice} {usbDev : UsbDevice} {o : Outcome}
    {ret : Int}
    (hcmd : s.cmdType = .reportInterface)
    (hlive : (live.find? fun d => d.addr = usbDev.addr) = some usbDev)
    (h : s.sendEvent live o (.device usbDev.addr) = .ok (t, ret)) :
  s.FirstReported usbDev o t ret
  := by
  unfold sendEvent sendEventBody at h
  by_cases hobtained : o.obtained
  · rw [if_neg (not_not.mpr hobtained)] at h
    unfold getDeviceInfo at h
    rw [hcmd] at h
    dsimp only at h
    unfold createInfo at h
    by_cases hallocated : o.allocated
    · rw [if_pos hallocated] at h
      dsimp only at h
      split at h
      · cases h
      · rename_i n ret' id hbody
        split at hbody
        · cases hbody
        · rename_i r ret event hsend
          obtain ⟨hid, hinfo, hcase⟩ := sendRecord_new hcmd hlive rfl hsend
          cases hbody
          cases h
          have hidn : r.id = s.nextId := hid
          obtain ⟨hannounces, rfl, rfl⟩ | ⟨hnot, hret, rfl⟩ := hcase
          · have hdone := FirstReported.sent (s := s) hannounces hidn hinfo
            unfold sendEventOut
            simpa [Place.put, hcmd] using hdone
          · have hdone := FirstReported.refused (s := s) ⟨hobtained, hallocated⟩ hnot hret hidn
            unfold sendEventOut
            simpa [Place.put, hret] using hdone
    · rw [if_neg hallocated] at h
      cases h
      exact .missing fun hboth => hallocated hboth.2
  · rw [if_pos hobtained] at h
    cases h
    exact .missing fun hboth => hobtained hboth.1

end Notifier

end Pnp
