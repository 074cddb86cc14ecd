import KhdfLinux.Pnp.PayloadType
import KhdfLinux.Pnp.Reports

/-!
# The list of devices

Notifications and commands one after the other, each processed by the thread before the next.
`deviceList_mirrors`: the list of records holds one record for every attached device that was
announced to userspace and no other, as long as no failure of a kind that `Ledger.Steady` rules out
happens and no device is reported that is on the list already. -/

namespace Pnp

/-! ### Tasks -/

/-- The thread does a round. -/
def System.serve (s : System) (o : Outcome) : Option System :=
  [.wake, .report o, .finish, .rest].foldlM System.next s

/-- A notification or a command, with what comes of it in the functions outside, or what else
happens to devices. -/
inductive Task where
  | add (usbDev : UsbDevice) (allocated : Bool) (o : Outcome)
  | remove (addr : Nat) (o : Outcome)
  /-- `USB_PNP_NOTIFY_REMOVE_INTERFACE` or `USB_PNP_NOTIFY_ADD_INTERFACE`. -/
  | interface (removed : Bool) (data : Option AddRemoveInfo) (o : Outcome)
  | report (outcomes : Nat → Outcome)
  | free (addr : Nat)
  | configure (usbDev : UsbDevice)

/-- The command of a task that is about an interface. -/
def interfaceCmd (removed : Bool) : Cmd :=
  if removed then .removeInterface else .addInterface

/-- The system after a task was processed. -/
def Task.perform (s : System) : Task → Option System
  | .add usbDev allocated o =>
      (s.next (.notifyAdd usbDev allocated)).bind fun t =>
        if .added usbDev.addr ∈ t.callbacks then
          (t.next (.post (.added usbDev.addr))).bind fun u => u.serve o
        else some t
  | .remove addr o =>
      (s.next (.notifyRemove addr)).bind fun t =>
        if .removed addr ∈ t.callbacks then
          (t.next (.post (.removed addr))).bind fun u => u.serve o
        else some t
  | .interface removed data o =>
      (s.next (.dispatch (interfaceCmd removed) data fun _ => o)).bind fun t =>
        if t.notifier.usbDevice.isSome then t.serve o else some t
  | .report outcomes => s.next (.dispatch .reportInterface none outcomes)
  | .free addr => s.next (.free addr)
  | .configure usbDev => s.next (.configure usbDev)

/-- The system, with the tables of the attached devices that were announced. -/
structure Ledger where
  system : System
  known : List MatchInfoTable

/-- The devices that events announce. -/
def announced (events : List Event) : List MatchInfoTable :=
  events.filterMap fun e =>
    if e.cmd = .addDevice ∨ e.cmd = .reportInterface then some e.table else none

/-- The device that is removed. -/
def Task.removed : Task → Option Nat
  | .remove addr _ => some addr
  | _ => none

/-- The table without the remove type. -/
def MatchInfoTable.identity (table : MatchInfoTable) : MatchInfoTable :=
  { table with removeType := .busDevNum }

/-- What is known after a task: what it removes is known no more, and what it announces is. -/
def Task.knownAfter (task : Task) (known : List MatchInfoTable) (before after : List Event) :
    List MatchInfoTable :=
  known.filter (fun k => task.removed ≠ some k.usbDevAddr) ++ announced (after.drop before.length)

/-- The list holds what is known, each device once. -/
structure Shows (infoList : List DeviceInfo) (known : List MatchInfoTable) : Prop where
  records : infoList.map (fun r => r.info.identity) = known.map MatchInfoTable.identity
  unique : (known.map MatchInfoTable.usbDevAddr).Nodup

namespace Ledger

/-- The next state. -/
def step (l : Ledger) (task : Task) : Option Ledger :=
  (task.perform l.system).map fun t =>
    ⟨t, task.knownAfter l.known l.system.notifier.events t.notifier.events⟩

/-- The list holds what is known, each device once, and what is known is attached. -/
structure Mirrors (l : Ledger) : Prop where
  shows : Shows l.system.notifier.infoList l.known
  attached : ∀ k ∈ l.known, k.usbDevAddr ∈ l.system.attached

end Ledger

/-- What is announced has no record, and where the record of what is not is destroyed again, no
other has its id. -/
def SteadyReports (live : List UsbDevice) (outcomes : Nat → Outcome) : List Nat → Notifier → Prop
  | [], _ => True
  | addr :: rest, s =>
      (∀ usbDev ∈ live.find? fun d => d.addr = addr,
        (Notifier.Announces (outcomes addr) usbDev → ∀ r ∈ s.infoList, r.info.usbDevAddr ≠ addr)
        ∧ (¬Notifier.Announces (outcomes addr) usbDev → ∀ r ∈ s.infoList, r.id ≠ s.nextId))
      ∧ ∀ t, s.sendEvent live (outcomes addr) (.device addr) = .ok (t, Hdf.success) →
          SteadyReports live outcomes rest t

/-- Nothing goes wrong by which a record is left or lost: a device that is added can be read, and
there is a buffer to announce it; if it is not announced, no record has the id of the one that is
destroyed. For a device that is removed there is a buffer, and its record is the first with its id.
An event about an interface is sent, unless there is no buffer.  What is reported has no record. -/
def Ledger.Steady (l : Ledger) : Task → Prop
  | .add usbDev allocated o => allocated →
      usbDev.Complete ∧ o.obtained
        ∧ (o.written ∧ o.sent = Hdf.success
          ∨ ∀ r ∈ l.system.notifier.infoList, r.id ≠ l.system.notifier.nextId)
  | .remove addr o => ∀ p, findInfo l.system.notifier.infoList (.deviceAddress addr) = some p →
      o.obtained ∧ p.First
  | .interface _ data o => ∀ info ∈ data, ∀ p,
      findInfo l.system.notifier.infoList (.normal info.devNum info.busNum) = some p →
      o.obtained → p.record.status ≠ .init ∧ o.written ∧ o.sent = Hdf.success
  | .report outcomes => SteadyReports l.system.live outcomes l.system.attached
      { l.system.notifier with cmdType := .reportInterface }
  | _ => True

/-! ### One round of the thread -/

namespace System

variable {s t : System}

/-- A round reports what is in the mailbox, and empties it. -/
theorem serve_eq_some {o : Outcome} (h : s.serve o = some t) :
  s.notifier.usbDevice.isSome ∧ ∃ n ret id, s.notifier.report s.live o = .ok (n, ret, id)
    ∧ t.notifier = n.finishReport ret id ∧ t.live = s.live ∧ t.attached = s.attached
    ∧ t.callbacks = s.callbacks ∧ t.thread = .waiting
  := by
  simp only [serve, List.foldlM_cons, List.foldlM_nil, Option.bind_eq_bind,
    Option.bind_eq_some_iff] at h
  obtain ⟨s₁, h₁, s₂, h₂, s₃, h₃, s₄, h₄, h₅⟩ := h
  obtain ⟨-, hsome, rfl⟩ := next_wake h₁
  obtain ⟨-, n, ret, id, hreport, rfl⟩ := next_report h₂
  obtain ⟨ret', id', hthread, rfl⟩ := next_finish h₃
  obtain ⟨rfl, rfl⟩ := Thread.finishing.inj hthread
  obtain ⟨-, rfl⟩ := next_rest h₄
  obtain rfl := Option.some.inj h₅
  exact ⟨hsome, n, ret, id, hreport, rfl, rfl, rfl, rfl, rfl⟩

/-- A callback that posts, and the round that follows. -/
theorem deliver_eq_some {callback : Callback} {u : System} {o : Outcome}
    (hpost : s.next (.post callback) = some u) (hserve : u.serve o = some t) :
  ∃ n ret id, (callback.post s.notifier).Reported (.deviceAddress callback.addr) o n ret id
    ∧ t.notifier = n.finishReport ret id ∧ t.live = s.live ∧ t.attached = s.attached
    ∧ t.callbacks = s.callbacks.erase callback ∧ t.thread = .waiting
  := by
  obtain ⟨-, -, rfl⟩ := next_post hpost
  obtain ⟨-, n, ret, id, hreport, hfields⟩ := serve_eq_some hserve
  refine ⟨n, ret, id, ?_, hfields⟩
  cases callback with
  | added addr => exact (Notifier.Asks.device (.inl rfl) rfl).reported rfl hreport
  | removed addr => exact (Notifier.Asks.device (.inr rfl) rfl).reported rfl hreport

end System

namespace Notifier

theorem events_sendEventOut (n : Notifier) (ret : Int) (id : Option Nat) :
  (n.sendEventOut ret id).events = n.events
  := by
  unfold sendEventOut
  cases id with
  | none => rfl
  | some id =>
      dsimp only
      split <;> rfl

theorem sendEventOut_of_destroys {n : Notifier} {ret : Int} {id : Nat}
    (h : ret ≠ Hdf.success ∨ n.cmdType = .removeDevice) :
  (n.sendEventOut ret (some id)).infoList = destroyInfo n.infoList id
  := by
  unfold sendEventOut
  dsimp only
  rw [if_pos h]

theorem sendEventOut_of_keeps {n : Notifier} {id : Option Nat} (h : n.cmdType ≠ .removeDevice) :
  (n.sendEventOut Hdf.success id).infoList = n.infoList
  := by
  unfold sendEventOut
  cases id with
  | none => rfl
  | some id =>
      dsimp only
      rw [if_neg (by simpa using h)]

end Notifier

/-! ### The list and what is known -/

theorem identity_usbDevAddr (table : MatchInfoTable) :
  table.identity.usbDevAddr = table.usbDevAddr
  := rfl

/-- A record with another in its place that has the same identity. -/
theorem map_identity_put {p : Place} {r : DeviceInfo}
    (h : r.info.identity = p.record.info.identity) :
  (p.put r).map (fun r => r.info.identity) = (p.put p.record).map fun r => r.info.identity
  := by
  simp [Place.put, h]

namespace Shows

variable {infoList infoList' : List DeviceInfo} {known : List MatchInfoTable}

/-- The addresses on the list are those that are known. -/
theorem addrs (h : Shows infoList known) :
  infoList.map (fun r => r.info.usbDevAddr) = known.map MatchInfoTable.usbDevAddr
  := by
  have hmap := congrArg (List.map MatchInfoTable.usbDevAddr) h.records
  rw [List.map_map, List.map_map] at hmap
  apply hmap

/-- The reply shows each known device once. -/
theorem replies (h : Shows infoList known) :
  infoList.flatMap (fun r => r.info.replyValues r.status)
    = (known.zip (infoList.map DeviceInfo.status)).flatMap fun (k, status) => k.replyValues status
  := by
  have hrecords := h.records
  clear h
  induction infoList generalizing known with
  | nil =>
      obtain rfl := List.map_eq_nil_iff.mp hrecords.symm
      rfl
  | cons r infoList ih =>
      cases known with
      | nil => cases hrecords
      | cons k known =>
          obtain ⟨hr, hrest⟩ := List.cons.inj hrecords
          have hidentity : r.info.identity.replyValues r.status = k.identity.replyValues r.status :=
            congrArg (fun table : MatchInfoTable => table.replyValues r.status) hr
          have hvalues : r.info.replyValues r.status = k.replyValues r.status := hidentity
          rw [List.flatMap_cons, ih hrest, List.map_cons, List.zip_cons_cons, List.flatMap_cons]
          dsimp only
          rw [hvalues]

/-- A list with the same tables. -/
theorem of_records (h : Shows infoList known)
    (hrecords : infoList'.map (fun r => r.info.identity) = infoList.map fun r => r.info.identity) :
  Shows infoList' known
  := ⟨hrecords.trans h.records, h.unique⟩

/-- A device that was announced has a new record at the end of the list. -/
theorem announce (h : Shows infoList known) {r : DeviceInfo}
    (hfresh : ∀ x ∈ infoList, x.info.usbDevAddr ≠ r.info.usbDevAddr) :
  Shows (infoList ++ [r]) (known ++ [r.info])
  := by
  constructor
  · rw [List.map_append, List.map_append, h.records]
    rfl
  · rw [List.map_append, List.nodup_append]
    refine ⟨h.unique, List.nodup_cons.mpr ⟨List.not_mem_nil, List.nodup_nil⟩, ?_⟩
    intro a ha b hb
    rw [← h.addrs] at ha
    obtain ⟨x, hx, rfl⟩ := List.mem_map.mp ha
    rw [List.mem_singleton.mp hb]
    apply hfresh x hx

/-- A device that is removed has no record any more. -/
theorem forget (h : Shows infoList known) (addr : Nat) :
  Shows (infoList.filter fun r => r.info.usbDevAddr ≠ addr)
    (known.filter fun k => some addr ≠ some k.usbDevAddr)
  := by
  have hfilter : (known.filter fun k => some addr ≠ some k.usbDevAddr)
      = known.filter ((fun table => table.usbDevAddr ≠ addr) ∘ MatchInfoTable.identity) := by
    refine List.filter_congr fun k _ => decide_eq_decide.mpr ?_
    rw [identity_usbDevAddr, ne_eq, Option.some_inj, ne_comm]
  constructor
  · have hrecords := congrArg
      (List.filter fun table : MatchInfoTable => table.usbDevAddr ≠ addr) h.records
    rw [List.filter_map, List.filter_map] at hrecords
    rw [hfilter]
    apply hrecords
  · apply h.unique.sublist (List.filter_sublist.map _)

/-- To take out a record is to forget its device. -/
theorem put_filter {p : Place} {addr : Nat} (h : Shows (p.put p.record) known)
    (hfound : findInfo (p.put p.record) (.deviceAddress addr) = some p) :
  (p.put p.record).filter (fun r => r.info.usbDevAddr ≠ addr) = p.before ++ p.after
  := by
  obtain ⟨-, hadmits, hbefore⟩ := findInfo_eq_some.mp hfound
  have haddr : p.record.info.usbDevAddr = addr := by simpa [QueryPara.admits] using hadmits
  have hunique := h.unique
  rw [← h.addrs] at hunique
  unfold Place.put at hunique ⊢
  rw [List.map_append, List.map_cons, List.nodup_append, List.nodup_cons] at hunique
  have hkeep : p.before.filter (fun r => r.info.usbDevAddr ≠ addr) = p.before := by
    refine List.filter_eq_self.mpr fun r hr => ?_
    simpa [QueryPara.admits] using hbefore r hr
  have hkeep' : p.after.filter (fun r => r.info.usbDevAddr ≠ addr) = p.after := by
    refine List.filter_eq_self.mpr fun r hr => ?_
    have hne : r.info.usbDevAddr ≠ addr := by
      rintro rfl
      refine hunique.2.1.1 ?_
      rw [haddr]
      apply List.mem_map_of_mem hr
    simpa using hne
  rw [List.filter_append, List.filter_cons_of_neg (by simpa using haddr), hkeep, hkeep']

end Shows

namespace Ledger

variable {l l' : Ledger}

/-- What is kept from task to task: nothing is on its way. -/
structure Settled (l : Ledger) : Prop where
  mirrors : l.Mirrors
  callbacks : l.system.callbacks = []
  waiting : l.system.thread = .waiting
  empty : l.system.notifier.usbDevice = none
  live : ∀ addr ∈ l.system.attached, l.system.IsLive addr

/-- What is known after a task that removes nothing. -/
theorem knownAfter_of_events {task : Task} (htask : task.removed = none)
    {known : List MatchInfoTable}
    {before after es : List Event} (h : after = before ++ es) :
  task.knownAfter known before after = known ++ announced es
  := by
  unfold Task.knownAfter
  rw [h, List.drop_left, htask]
  simp

theorem knownAfter_of_silent {task : Task} (htask : task.removed = none)
    {known : List MatchInfoTable}
    {before after : List Event} (h : after = before) :
  task.knownAfter known before after = known
  := by
  rw [knownAfter_of_events htask (h.trans (List.append_nil before).symm)]
  apply List.append_nil known

/-- A device that is not live has no record. -/
theorem Settled.no_record (h : l.Settled) {addr : Nat}
    (hfresh : ∀ d ∈ l.system.live, d.addr ≠ addr) :
  ∀ r ∈ l.system.notifier.infoList, r.info.usbDevAddr ≠ addr
  := by
  rintro r hr rfl
  have hmem : r.info.usbDevAddr ∈ l.known.map MatchInfoTable.usbDevAddr := by
    rw [← h.mirrors.shows.addrs]
    apply List.mem_map_of_mem hr
  obtain ⟨k, hk, hka⟩ := List.mem_map.mp hmem
  obtain ⟨d, hd, hda⟩ := h.live _ (h.mirrors.attached k hk)
  apply hfresh d hd (hda.trans hka)

/-- A device that is added gets a record, if it can be announced. -/
theorem Settled.add (h : l.Settled) {usbDev : UsbDevice} {allocated : Bool} {o : Outcome}
    (hstep : l.step (.add usbDev allocated o) = some l')
    (hsteady : l.Steady (.add usbDev allocated o)) :
  l'.Settled
  := by
  obtain ⟨t, hperform, rfl⟩ := Option.map_eq_some_iff.mp hstep
  obtain ⟨t₁, h₁, h₂⟩ := Option.bind_eq_some_iff.mp hperform
  obtain ⟨hfresh, ht₁⟩ := System.next_notifyAdd h₁
  have hlive₁ : t₁.live = usbDev :: l.system.live := by rw [ht₁]
  have hattached₁ : t₁.attached = l.system.attached ++ [usbDev.addr] := by rw [ht₁]
  have hlive : ∀ addr ∈ t₁.attached, t₁.IsLive addr := by
    unfold System.IsLive
    rw [hlive₁, hattached₁]
    intro addr haddr
    obtain haddr | haddr := List.mem_append.mp haddr
    · obtain ⟨d, hd, rfl⟩ := h.live addr haddr
      exact ⟨d, List.mem_cons_of_mem _ hd, rfl⟩
    · exact ⟨usbDev, List.mem_cons_self, (List.mem_singleton.mp haddr).symm⟩
  have hsub : l.system.attached ⊆ t₁.attached := by
    rw [hattached₁]
    apply List.subset_append_left _ _
  cases allocated with
  | false =>
      have hsame : t₁.notifier = l.system.notifier := by
        rw [ht₁]
        rfl
      have hcallbacks : t₁.callbacks = [] := by
        rw [ht₁]
        apply h.callbacks
      rw [if_neg (by simp [hcallbacks])] at h₂
      obtain rfl := Option.some.inj h₂
      rw [knownAfter_of_silent rfl (by rw [hsame])]
      refine ⟨⟨hsame ▸ h.mirrors.shows, fun k hk => hsub (h.mirrors.attached k hk)⟩, hcallbacks, ?_,
        ?_, hlive⟩
      · rw [ht₁]
        apply h.waiting
      · rw [hsame]
        apply h.empty
  | true =>
      obtain ⟨hcomplete, hobtained, hsends⟩ := hsteady rfl
      obtain ⟨r, hid, hinit, haddr, hlist, hposts, -⟩ := l.system.notifier.deviceAdded_cases usbDev
      have hnotifier : t₁.notifier = { l.system.notifier with
          infoList := l.system.notifier.infoList ++ [r]
          idNum := l.system.notifier.nextId + 1 } := by rw [ht₁, ← hlist]
      have hcallbacks : t₁.callbacks = [.added usbDev.addr] := by
        rw [ht₁]
        dsimp only
        rw [if_pos (hposts.mpr hcomplete), h.callbacks]
      rw [if_pos (by simp [hcallbacks])] at h₂
      obtain ⟨t₂, h₃, h₄⟩ := Option.bind_eq_some_iff.mp h₂
      obtain ⟨n, ret, id, hreported, hn, hlive₂, hattached₂, hcallbacks₂, hwaiting⟩ :=
        System.deliver_eq_some h₃ h₄
      have hnone := h.no_record hfresh
      -- no other record has the address, so that the new one is found
      have hfind : findInfo t₁.notifier.infoList (.deviceAddress usbDev.addr)
          = some ⟨l.system.notifier.infoList, r, []⟩ := by
        rw [hnotifier]
        refine findInfo_eq_some.mpr ⟨rfl, by simpa [QueryPara.admits] using haddr, fun x hx => ?_⟩
        simpa [QueryPara.admits] using hnone x hx
      have hrest : t.callbacks = [] ∧ t.notifier.usbDevice = none
          ∧ ∀ addr ∈ t.attached, t.IsLive addr := by
        refine ⟨?_, by rw [hn]; rfl, ?_⟩
        · rw [hcallbacks₂, hcallbacks]
          simp
        · unfold System.IsLive
          rw [hlive₂, hattached₂]
          apply hlive
      cases hreported with
      | missing hmissing =>
          obtain hcon | hcon := hmissing
          · apply absurd hobtained hcon
          · exact absurd (hfind.symm.trans hcon) (by simp)
      | @sent p r' table _ hfound _ hid' hinfo hstatus htable hplain =>
          obtain rfl := Option.some.inj (hfind.symm.trans hfound)
          have hkeep : t.notifier.infoList = l.system.notifier.infoList ++ [r'] := by
            rw [hn]
            rfl
          have hevents : t.notifier.events
              = l.system.notifier.events ++ [⟨.addDevice, r'.info⟩] := by
            rw [hn, ← hplain Bool.false_ne_true]
            change t₁.notifier.events ++ _ = _
            rw [hnotifier]
            rfl
          have haddr' : r'.info.usbDevAddr = usbDev.addr := by
            rw [hinfo]
            apply haddr
          rw [knownAfter_of_events rfl hevents]
          refine ⟨⟨?_, fun k hk => ?_⟩, hrest.1, hwaiting, hrest.2.1, hrest.2.2⟩
          · dsimp only
            rw [hkeep]
            refine h.mirrors.shows.announce ?_
            rw [haddr']
            apply hnone
          · change k.usbDevAddr ∈ t.attached
            rw [hattached₂]
            obtain hk | hk := List.mem_append.mp hk
            · apply hsub (h.mirrors.attached k hk)
            · rw [List.mem_singleton.mp hk, haddr', hattached₁]
              apply List.mem_append_right _ (List.mem_singleton_self _)
      | @refused p r' ret _ hfound hnot hret hid' hinfo hstatus =>
          obtain rfl := Option.some.inj (hfind.symm.trans hfound)
          have hids : ∀ x ∈ l.system.notifier.infoList, x.id ≠ r.id := by
            obtain hsends | hids := hsends
            · exact absurd ⟨hsends.1, hinit, hsends.2⟩ hnot
            · rw [hid]
              apply hids
          have hdestroyed : t.notifier.infoList = l.system.notifier.infoList := by
            rw [hn]
            change (Notifier.sendEventOut _ ret (some r.id)).infoList = _
            rw [Notifier.sendEventOut_of_destroys (.inl hret), ← hid']
            exact destroyInfo_append (hid' ▸ hids)
          have hevents : t.notifier.events = l.system.notifier.events := by
            rw [hn]
            change (Notifier.sendEventOut _ ret (some r.id)).events = _
            rw [Notifier.events_sendEventOut]
            change t₁.notifier.events = _
            rw [hnotifier]
          rw [knownAfter_of_silent rfl hevents]
          refine ⟨⟨?_, fun k hk => ?_⟩, hrest.1, hwaiting, hrest.2.1, hrest.2.2⟩
          · dsimp only
            rw [hdestroyed]
            apply h.mirrors.shows
          · change k.usbDevAddr ∈ t.attached
            rw [hattached₂]
            apply hsub (h.mirrors.attached k hk)

/-- A device that is removed has no record any more. -/
theorem Settled.remove (h : l.Settled) {addr : Nat} {o : Outcome}
    (hstep : l.step (.remove addr o) = some l') (hsteady : l.Steady (.remove addr o)) :
  l'.Settled
  := by
  obtain ⟨t, hperform, rfl⟩ := Option.map_eq_some_iff.mp hstep
  obtain ⟨t₁, h₁, h₂⟩ := Option.bind_eq_some_iff.mp hperform
  obtain ⟨-, -, ht₁⟩ := System.next_notifyRemove h₁
  have hattached₁ : t₁.attached = l.system.attached.filter fun addr' => addr' ≠ addr := by rw [ht₁]
  have hlive₁ : t₁.live = l.system.live := by rw [ht₁]
  -- whatever is sent about the removal, the list has to lose the record
  suffices hdone : t.notifier.infoList
        = l.system.notifier.infoList.filter (fun r => r.info.usbDevAddr ≠ addr)
      ∧ (∃ es, t.notifier.events = l.system.notifier.events ++ es ∧ announced es = [])
      ∧ t.callbacks = [] ∧ t.thread = .waiting ∧ t.notifier.usbDevice = none
      ∧ t.live = t₁.live ∧ t.attached = t₁.attached by
    obtain ⟨hlist, ⟨es, hevents, hannounced⟩, hcallbacks, hwaiting, hempty, hlive, hattached⟩ :=
      hdone
    have hknown : (Task.remove addr o).knownAfter l.known l.system.notifier.events t.notifier.events
        = l.known.filter fun k => some addr ≠ some k.usbDevAddr := by
      unfold Task.knownAfter
      rw [hevents, List.drop_left, hannounced, List.append_nil]
      rfl
    rw [hknown]
    refine ⟨⟨?_, fun k hk => ?_⟩, hcallbacks, hwaiting, hempty, fun a ha => ?_⟩
    · dsimp only
      rw [hlist]
      apply h.mirrors.shows.forget addr
    · change k.usbDevAddr ∈ t.attached
      obtain ⟨hk, hne⟩ := List.mem_filter.mp hk
      rw [hattached, hattached₁]
      refine List.mem_filter.mpr ⟨h.mirrors.attached k hk, ?_⟩
      rw [decide_eq_true_iff] at hne ⊢
      exact fun heq => hne (congrArg some heq.symm)
    · unfold System.IsLive
      dsimp only at ha ⊢
      rw [hattached, hattached₁] at ha
      rw [hlive, hlive₁]
      apply h.live a (List.mem_filter.mp ha).1
  cases hfind : findInfo l.system.notifier.infoList (.deviceAddress addr) with
  | none =>
      have hnotifier : t₁.notifier = l.system.notifier := by
        rw [ht₁, Notifier.deviceRemoved_eq, hfind]
      have hcallbacks : t₁.callbacks = [] := by
        rw [ht₁, Notifier.deviceRemoved_eq, hfind]
        apply h.callbacks
      rw [if_neg (by simp [hcallbacks])] at h₂
      obtain rfl := Option.some.inj h₂
      refine ⟨?_, ⟨[], by rw [hnotifier, List.append_nil], rfl⟩, hcallbacks, ?_, ?_, rfl, rfl⟩
      · rw [hnotifier, eq_comm, List.filter_eq_self]
        intro r hr
        simpa [QueryPara.admits] using findInfo_eq_none.mp hfind r hr
      · rw [ht₁]
        apply h.waiting
      · rw [hnotifier]
        apply h.empty
  | some p =>
      obtain ⟨hobtained, hfirst⟩ := hsteady p hfind
      obtain ⟨hlist, hadmits, -⟩ := findInfo_eq_some.mp hfind
      have hnotifier : t₁.notifier = { l.system.notifier with
          infoList := p.put (p.record.toggle .remove) } := by
        rw [ht₁, Notifier.deviceRemoved_eq, hfind]
      have hcallbacks : t₁.callbacks = [.removed addr] := by
        rw [ht₁, Notifier.deviceRemoved_eq, hfind]
        dsimp only
        rw [if_pos rfl, h.callbacks]
      rw [if_pos (by simp [hcallbacks])] at h₂
      obtain ⟨t₂, h₃, h₄⟩ := Option.bind_eq_some_iff.mp h₂
      obtain ⟨n, ret, id, hreported, hn, hlive₂, hattached₂, hcallbacks₂, hwaiting⟩ :=
        System.deliver_eq_some h₃ h₄
      have hfind' : findInfo t₁.notifier.infoList (.deviceAddress addr)
          = some { p with record := p.record.toggle .remove } := by
        rw [hnotifier]
        exact findInfo_put hfind hadmits
      have hcallbacks' : t.callbacks = [] := by
        rw [hcallbacks₂, hcallbacks]
        simp
      have hempty : t.notifier.usbDevice = none := by
        rw [hn]
        rfl
      have hfilter : l.system.notifier.infoList.filter (fun r => r.info.usbDevAddr ≠ addr)
          = p.before ++ p.after := by
        have hshows := h.mirrors.shows
        rw [hlist] at hshows hfind ⊢
        apply hshows.put_filter hfind
      have hevents₁ : t₁.notifier.events = l.system.notifier.events := by rw [hnotifier]
      rw [hfilter]
      cases hreported with
      | missing hmissing =>
          obtain hcon | hcon := hmissing
          · apply absurd hobtained hcon
          · exact absurd (hfind'.symm.trans hcon) (by simp)
      | @sent p' r table _ hfound _ hid hinfo hstatus htable hplain =>
          obtain rfl := Option.some.inj (hfind'.symm.trans hfound)
          refine ⟨?_, ⟨[⟨.removeDevice, table⟩], ?_, rfl⟩, hcallbacks', hwaiting, hempty, hlive₂,
            hattached₂⟩
          · rw [hn]
            change (Notifier.sendEventOut _ _ (some p.record.id)).infoList = _
            rw [Notifier.sendEventOut_of_destroys (.inr rfl), ← show r.id = p.record.id from hid]
            apply destroyInfo_put (p := p) hfirst hid
          · rw [hn, ← hevents₁]
            change (Notifier.sendEventOut _ _ (some p.record.id)).events = _
            rw [Notifier.events_sendEventOut]
            rfl
      | @refused p' r ret _ hfound hnot hret hid hinfo hstatus =>
          obtain rfl := Option.some.inj (hfind'.symm.trans hfound)
          refine ⟨?_, ⟨[], ?_, rfl⟩, hcallbacks', hwaiting, hempty, hlive₂, hattached₂⟩
          · rw [hn]
            change (Notifier.sendEventOut _ _ (some p.record.id)).infoList = _
            rw [Notifier.sendEventOut_of_destroys (.inr rfl), ← show r.id = p.record.id from hid]
            apply destroyInfo_put (p := p) hfirst hid
          · rw [hn, ← hevents₁, List.append_nil]
            change (Notifier.sendEventOut _ _ (some p.record.id)).events = _
            rw [Notifier.events_sendEventOut]
            rfl

theorem interfaceCmd_isInterface (removed : Bool) :
  (interfaceCmd removed).isInterface
  := by
  cases removed <;> rfl

/-- What an event about an interface announces. -/
theorem announced_interface (removed : Bool) (table : MatchInfoTable) :
  announced [⟨interfaceCmd removed, table⟩] = []
  := by
  cases removed <;> rfl

/-- A command about an interface leaves the records on the list. -/
theorem Settled.interface (h : l.Settled) {removed : Bool} {data : Option AddRemoveInfo}
    {o : Outcome}
    (hstep : l.step (.interface removed data o) = some l')
    (hsteady : l.Steady (.interface removed data o)) :
  l'.Settled
  := by
  obtain ⟨t, hperform, rfl⟩ := Option.map_eq_some_iff.mp hstep
  obtain ⟨t₁, h₁, h₂⟩ := Option.bind_eq_some_iff.mp hperform
  obtain ⟨-, m, ret, hdispatch, ht₁⟩ := System.next_dispatch h₁
  have hcmd := interfaceCmd_isInterface removed
  obtain ⟨hmarked, hevents, -⟩ := Notifier.dispatch_interface hcmd hdispatch
  have hmailbox := Notifier.dispatch_mailbox hdispatch
  have hnotifier : t₁.notifier = m := by rw [ht₁]
  suffices hdone : t.notifier.infoList.map (fun r => r.info.identity)
        = l.system.notifier.infoList.map (fun r => r.info.identity)
      ∧ (∃ es, t.notifier.events = l.system.notifier.events ++ es ∧ announced es = [])
      ∧ t.callbacks = [] ∧ t.thread = .waiting ∧ t.notifier.usbDevice = none
      ∧ t.live = l.system.live ∧ t.attached = l.system.attached by
    obtain ⟨hlist, ⟨es, hevents, hannounced⟩, hcallbacks, hwaiting, hempty, hlive, hattached⟩ :=
      hdone
    rw [knownAfter_of_events rfl hevents, hannounced, List.append_nil]
    refine ⟨⟨h.mirrors.shows.of_records hlist, fun k hk => ?_⟩, hcallbacks, hwaiting, hempty, ?_⟩
    · change k.usbDevAddr ∈ t.attached
      rw [hattached]
      apply h.mirrors.attached k hk
    · unfold System.IsLive
      dsimp only
      rw [hlive, hattached]
      apply h.live
  cases data with
  | none =>
      have hempty : m.usbDevice = none := by
        have hdevice := congrArg Mailbox.usbDevice hmailbox
        rw [Mailbox.usbDevice_command, if_pos (by cases removed <;> rfl)] at hdevice
        apply hdevice.trans h.empty
      rw [if_neg (by simp [hnotifier, hempty])] at h₂
      obtain rfl := Option.some.inj h₂
      refine ⟨?_, ⟨[], ?_, rfl⟩, ?_, ?_, by rw [hnotifier, hempty], by rw [ht₁], by rw [ht₁]⟩
      · rw [hnotifier, hmarked]
        rfl
      · rw [hnotifier, hevents, List.append_nil]
      · rw [ht₁]
        apply h.callbacks
      · rw [ht₁]
        apply h.waiting
  | some info =>
      have hmail : m.mailbox = { l.system.notifier.mailbox with
          usbDevice := some .pnpInfo
          usbPnpInfo := info
          cmdType := interfaceCmd removed
          removeType := if removed then .interfaceNum else l.system.notifier.removeType } := by
        rw [hmailbox]
        cases removed <;> rfl
      have htype : m.cmdType = interfaceCmd removed := congrArg Mailbox.cmdType hmail
      have hinfo : m.usbPnpInfo = info := congrArg Mailbox.usbPnpInfo hmail
      have hfull : m.usbDevice.isSome := by
        rw [show m.usbDevice = some .pnpInfo from congrArg Mailbox.usbDevice hmail]
        rfl
      rw [if_pos (by rw [hnotifier]; exact hfull)] at h₂
      obtain ⟨-, n, ret, id, hreport, hn, hlive₂, hattached₂, hcallbacks₂, hwaiting⟩ :=
        System.serve_eq_some h₂
      rw [hnotifier] at hreport
      have hasks := Notifier.Asks.interface (s := m) (by rw [htype]; exact hcmd)
      rw [hinfo] at hasks
      have hreported := hasks.reported hfull hreport
      have hempty : t.notifier.usbDevice = none := by
        rw [hn]
        rfl
      have hcallbacks : t.callbacks = [] := by
        rw [hcallbacks₂, ht₁]
        apply h.callbacks
      have hlive : t.live = l.system.live := by rw [hlive₂, ht₁]
      have hattached : t.attached = l.system.attached := by rw [hattached₂, ht₁]
      have hmarks : ∀ {p : Place}, findInfo l.system.notifier.infoList
          (.normal info.devNum info.busNum) = some p →
          l.system.notifier.infoList = p.put p.record
            ∧ m.infoList = p.put (p.record.toggle .interface)
            ∧ findInfo m.infoList (.normal info.devNum info.busNum)
              = some { p with record := p.record.toggle .interface } := by
        intro p hfind
        obtain ⟨hlist, hadmits, -⟩ := findInfo_eq_some.mp hfind
        have hput : m.infoList = p.put (p.record.toggle .interface) := by
          rw [hmarked]
          unfold Notifier.markNamed
          dsimp only
          rw [hfind]
        exact ⟨hlist, hput, hput ▸ findInfo_put hfind hadmits⟩
      have hunmarked :
          findInfo l.system.notifier.infoList (.normal info.devNum info.busNum) = none →
          m.infoList = l.system.notifier.infoList := by
        intro hfind
        rw [hmarked]
        unfold Notifier.markNamed
        dsimp only
        rw [hfind]
      cases hreported with
      | missing hmissing =>
          have hkeep : t.notifier.infoList = m.infoList ∧ t.notifier.events = m.events := by
            rw [hn]
            exact ⟨rfl, rfl⟩
          refine ⟨?_, ⟨[], by rw [hkeep.2, hevents, List.append_nil], rfl⟩, hcallbacks, hwaiting,
            hempty, hlive, hattached⟩
          rw [hkeep.1]
          cases hfind : findInfo l.system.notifier.infoList (.normal info.devNum info.busNum) with
          | none => rw [hunmarked hfind]
          | some p =>
              obtain ⟨hlist, hput, -⟩ := hmarks hfind
              rw [hput, hlist]
              exact map_identity_put rfl
      | @sent p' r table _ hfound _ hid hrinfo hstatus htable hplain =>
          have hcmdType : m.cmdType ≠ .removeDevice := by
            rw [htype]
            cases removed <;> exact Cmd.noConfusion
          have hkeep : t.notifier.infoList = p'.put r
              ∧ t.notifier.events = m.events ++ [⟨interfaceCmd removed, table⟩] := by
            rw [hn, ← htype]
            change (Notifier.sendEventOut _ Hdf.success _).infoList = _
              ∧ (Notifier.sendEventOut _ Hdf.success _).events = _
            exact ⟨Notifier.sendEventOut_of_keeps hcmdType, Notifier.events_sendEventOut _ _ _⟩
          refine ⟨?_, ⟨_, hevents ▸ hkeep.2, announced_interface removed table⟩, hcallbacks,
            hwaiting, hempty, hlive, hattached⟩
          rw [hkeep.1]
          cases hfind : findInfo l.system.notifier.infoList (.normal info.devNum info.busNum) with
          | none =>
              rw [hunmarked hfind, hfind] at hfound
              cases hfound
          | some p =>
              obtain ⟨hlist, -, hfind'⟩ := hmarks hfind
              obtain rfl := Option.some.inj (hfind'.symm.trans hfound)
              rw [hlist]
              exact map_identity_put (p := p) (by rw [hrinfo]; rfl)
      | @refused p' r ret _ hfound hnot hret hid hrinfo hstatus =>
          cases hfind : findInfo l.system.notifier.infoList (.normal info.devNum info.busNum) with
          | none =>
              rw [hunmarked hfind, hfind] at hfound
              cases hfound
          | some p =>
              rename_i hobtained
              obtain ⟨hlist, -, hfind'⟩ := hmarks hfind
              obtain rfl := Option.some.inj (hfind'.symm.trans hfound)
              obtain ⟨hstatus', hwritten, hsent⟩ := hsteady info rfl p hfind hobtained
              refine absurd ⟨hwritten, ?_, hsent⟩ hnot
              unfold DeviceInfo.toggle
              rw [if_pos hstatus']

/-- A device that is reported gets a record, if it has none. -/
theorem firstReports_shows {live : List UsbDevice} {outcomes : Nat → Outcome} {addrs : List Nat}
    {s t : Notifier} {known : List MatchInfoTable} (hcmd : s.cmdType = .reportInterface)
    (hshows : Shows s.infoList known) (hlive : ∀ addr ∈ addrs, ∃ d ∈ live, d.addr = addr)
    (hsteady : SteadyReports live outcomes addrs s)
    (h : s.firstReports live outcomes addrs = .ok t) :
  ∃ es, t.events = s.events ++ es ∧ Shows t.infoList (known ++ announced es)
    ∧ ∀ k ∈ announced es, k.usbDevAddr ∈ addrs
  := by
  induction addrs generalizing s known with
  | nil =>
      obtain rfl := Except.ok.inj h
      refine ⟨[], (List.append_nil _).symm, ?_, fun k hk => absurd hk List.not_mem_nil⟩
      rw [show announced [] = [] from rfl, List.append_nil]
      apply hshows
  | cons addr rest ih =>
      obtain ⟨d, hd, hda⟩ := hlive addr List.mem_cons_self
      obtain ⟨usbDev, hfind⟩ : ∃ usbDev, live.find? (fun d => d.addr = addr) = some usbDev := by
        cases hfind : live.find? (fun d => d.addr = addr) with
        | none => exact absurd (List.find?_eq_none.mp hfind d hd) (by simpa using hda)
        | some usbDev => exact ⟨usbDev, rfl⟩
      have haddr : usbDev.addr = addr := by simpa using List.find?_some hfind
      obtain ⟨hfresh, hrest⟩ := hsteady
      have hfresh := hfresh usbDev hfind
      unfold Notifier.firstReports at h
      split at h
      · cases h
      rename_i u ret hsend
      have hmailbox := Notifier.sendEvent_mailbox hsend
      have hcmd' : u.cmdType = .reportInterface :=
        (congrArg Mailbox.cmdType hmailbox : u.cmdType = s.cmdType).trans hcmd
      subst haddr
      have hreported := Notifier.firstReported_of_sendEvent hcmd hfind hsend
      have hstop : u.infoList = s.infoList → u.events = s.events → ret ≠ Hdf.success →
          ∃ es, t.events = s.events ++ es ∧ Shows t.infoList (known ++ announced es)
            ∧ ∀ k ∈ announced es, k.usbDevAddr ∈ usbDev.addr :: rest := by
        intro hlist hevents hret
        rw [if_pos hret] at h
        obtain rfl := Except.ok.inj h
        refine ⟨[], by rw [hevents, List.append_nil], ?_, fun k hk => absurd hk List.not_mem_nil⟩
        rw [show announced [] = [] from rfl, List.append_nil, hlist]
        apply hshows
      cases hreported with
      | missing hmissing => exact hstop rfl rfl (by decide)
      | @refused r ret hobtained hnot hret hid =>
          refine hstop ?_ rfl hret
          exact destroyInfo_append (hid ▸ hfresh.2 hnot)
      | @sent r hannounces hid hinfo =>
          rw [if_neg (not_not.mpr rfl)] at h
          have hraddr : r.info.usbDevAddr = usbDev.addr := by
            rw [hinfo]
            apply addInitInfo_usbDevAddr
          have hshows' := hshows.announce (r := r) (by rw [hraddr]; exact hfresh.1 hannounces)
          obtain ⟨es, hevents, hdone, hmem⟩ := ih hcmd' hshows'
            (fun a ha => hlive a (List.mem_cons_of_mem _ ha)) (hrest _ hsend) h
          refine ⟨⟨.reportInterface, r.info⟩ :: es, ?_, ?_, ?_⟩
          · rw [hevents]
            simp
          · have hcons : announced (⟨.reportInterface, r.info⟩ :: es) = r.info :: announced es :=
              rfl
            rw [hcons]
            simpa using hdone
          · have hcons : announced (⟨.reportInterface, r.info⟩ :: es) = r.info :: announced es :=
              rfl
            rw [hcons]
            intro k hk
            obtain rfl | hk := List.mem_cons.mp hk
            · rw [hraddr]
              apply List.mem_cons_self
            · apply List.mem_cons_of_mem _ (hmem k hk)

/-- Devices that are reported get a record. -/
theorem Settled.report (h : l.Settled) {outcomes : Nat → Outcome}
    (hstep : l.step (.report outcomes) = some l') (hsteady : l.Steady (.report outcomes)) :
  l'.Settled
  := by
  obtain ⟨t, hperform, rfl⟩ := Option.map_eq_some_iff.mp hstep
  obtain ⟨-, m, ret, hdispatch, rfl⟩ := System.next_dispatch hperform
  have hdevice := congrArg Mailbox.usbDevice (Notifier.dispatch_mailbox hdispatch)
  unfold Notifier.dispatch at hdispatch
  dsimp only at hdispatch
  rw [if_pos (show Cmd.reportInterface ≠ .getDevices from Cmd.noConfusion)] at hdispatch
  split at hdispatch
  · cases hdispatch
  rename_i n hreports
  cases hdispatch
  obtain ⟨es, hevents, hshows, hmem⟩ :=
    firstReports_shows (s := { l.system.notifier with cmdType := .reportInterface }) rfl
      h.mirrors.shows h.live hsteady hreports
  rw [knownAfter_of_events rfl hevents]
  refine ⟨⟨hshows, fun k hk => ?_⟩, h.callbacks, h.waiting, ?_, h.live⟩
  · obtain hk | hk := List.mem_append.mp hk
    · apply h.mirrors.attached k hk
    · apply hmem k hk
  · apply hdevice.trans h.empty

/-- What happens to devices that does not concern the list. -/
theorem Settled.of_live (h : l.Settled) {t : System} (hnotifier : t.notifier = l.system.notifier)
    (hcallbacks : t.callbacks = l.system.callbacks) (hthread : t.thread = l.system.thread)
    (hattached : t.attached = l.system.attached)
    (hlive : ∀ addr ∈ l.system.attached, l.system.IsLive addr → t.IsLive addr) :
  Settled ⟨t, l.known⟩
  := by
  refine ⟨⟨hnotifier ▸ h.mirrors.shows, ?_⟩, hcallbacks.trans h.callbacks, hthread.trans h.waiting,
    hnotifier ▸ h.empty, fun addr haddr => ?_⟩
  · dsimp only
    rw [hattached]
    apply h.mirrors.attached
  · dsimp only at haddr
    rw [hattached] at haddr
    apply hlive addr haddr (h.live addr haddr)

/-- Every steady task keeps the list. -/
theorem Settled.step (h : l.Settled) {task : Task} (hstep : l.step task = some l')
    (hsteady : l.Steady task) :
  l'.Settled
  := by
  cases task with
  | add usbDev allocated o => exact h.add hstep hsteady
  | remove addr o => exact h.remove hstep hsteady
  | interface removed data o => exact h.interface hstep hsteady
  | report outcomes => exact h.report hstep hsteady
  | free addr =>
      obtain ⟨t, hperform, rfl⟩ := Option.map_eq_some_iff.mp hstep
      obtain ⟨hattached, -, rfl⟩ := System.next_free hperform
      rw [knownAfter_of_silent rfl rfl]
      refine h.of_live rfl rfl rfl rfl fun addr' haddr' hlive => ?_
      obtain ⟨d, hd, rfl⟩ := hlive
      refine ⟨d, List.mem_filter.mpr ⟨hd, ?_⟩, rfl⟩
      have hne : d.addr ≠ addr := fun heq => hattached (heq ▸ haddr')
      simpa using hne
  | configure usbDev =>
      obtain ⟨t, hperform, rfl⟩ := Option.map_eq_some_iff.mp hstep
      obtain rfl := System.next_configure hperform
      rw [knownAfter_of_silent rfl rfl]
      refine h.of_live rfl rfl rfl rfl fun addr haddr hlive => ?_
      obtain ⟨d, hd, rfl⟩ := hlive
      refine ⟨_, List.mem_map.mpr ⟨d, hd, rfl⟩, ?_⟩
      split
      · rename_i heq
        apply heq.symm
      · rfl

end Ledger

/-- The ledger of a driver that was just loaded. -/
def ledgerNew (live : List UsbDevice) : Ledger := ⟨systemNew live, []⟩

theorem settled_ledgerNew (live : List UsbDevice) :
  (ledgerNew live).Settled
  := ⟨⟨⟨rfl, List.nodup_nil⟩, nofun⟩, rfl, rfl, rfl, fun _ haddr => List.mem_map.mp haddr⟩

/-- In a run of steady tasks the list mirrors the bus, and the reply of `USB_PNP_DRIVER_GETDEVICES`
shows just the devices that were announced and are attached. -/
theorem deviceList_mirrors {live : List UsbDevice} {tasks : List Task} {l : Ledger}
    (h : Run (fun l task l' => l.step task = some l' ∧ l.Steady task) (ledgerNew live) tasks l) :
  l.Mirrors ∧ ∀ room, ∃ statuses : List Status, statuses.length = l.known.length
    ∧ l.system.notifier.getDevices room
      = ((l.known.zip statuses).flatMap fun (k, status) => k.replyValues status).take room
  := by
  have hsettled : l.Settled :=
    h.keeps Ledger.Settled (fun _ _ _ hs ht => hs.step ht.1 ht.2) (settled_ledgerNew live)
  have hshows := hsettled.mirrors.shows
  refine ⟨hsettled.mirrors, fun room => ⟨_, ?_, congrArg (List.take room) hshows.replies⟩⟩
  have hlength := congrArg List.length hshows.records
  simpa using hlength

/-- Two devices, one of which was attached before the driver was loaded, and is reported; one is
removed again. -/
def mirroredTasks : List Task :=
  [.report fun _ => .fine, .add (mouse 8192 3) true .fine,
   .interface true (some ⟨3, 1, 0, 3, 1, 2⟩) .fine, .remove 4096 .fine]

theorem deviceList_mirrors_removed :
  ∃ l, Run (fun l task l' => l.step task = some l' ∧ l.Steady task) (ledgerNew [mouse 4096 2])
      mirroredTasks l
    ∧ l.system.notifier.infoList.map (fun r => r.info.usbDevAddr) = [8192] ∧ l.Mirrors
  := by
  have hrun : ∃ l, Run (fun l task l' => l.step task = some l' ∧ l.Steady task)
        (ledgerNew [mouse 4096 2]) mirroredTasks l
      ∧ l.system.notifier.infoList.map (fun r => r.info.usbDevAddr) = [8192] := by
    refine ⟨_, .cons ⟨rfl, ?_⟩ (.cons ⟨rfl, ?_⟩ (.cons ⟨rfl, ?_⟩ (.cons ⟨rfl, ?_⟩ (.nil _)))), rfl⟩
    · refine ⟨fun usbDev _ => ⟨fun _ _ => nofun, fun _ _ => nofun⟩, fun t _ => trivial⟩
    · exact fun _ => ⟨⟨rfl, _, rfl, by decide⟩, rfl, .inl ⟨rfl, rfl⟩⟩
    · intro info hinfo p hfind _
      obtain rfl := Option.some.inj hinfo
      obtain rfl := Option.some.inj hfind
      exact ⟨Status.noConfusion, rfl, rfl⟩
    · intro p hfind
      obtain rfl := Option.some.inj hfind
      exact ⟨rfl, nofun⟩
  obtain ⟨l, hrun, haddrs⟩ := hrun
  exact ⟨l, hrun, haddrs, (deviceList_mirrors hrun).1⟩

/-- A device is added, and reported once more. -/
def reportedTwiceTasks : List Task := [.add (mouse 4096 2) true .fine, .report fun _ => .fine]

/-- The device has two records. -/
theorem deviceList_duplicates :
  ∃ l, Run (fun l task l' => l.step task = some l') (ledgerNew []) reportedTwiceTasks l
    ∧ l.system.notifier.infoList.map (fun r => r.info.usbDevAddr) = [4096, 4096] ∧ ¬l.Mirrors
  := by
  refine ⟨_, Run.of_foldlM (f := Ledger.step) rfl, rfl, fun h => ?_⟩
  have hunique := h.shows.unique
  rw [← h.shows.addrs] at hunique
  exact absurd hunique (by decide)

end Pnp
