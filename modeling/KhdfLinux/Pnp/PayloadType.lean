import KhdfLinux.Pnp.Mailbox

/-!
# The type of the payload

`g_usbDevice` points to a device or to `g_usbPnpInfo`, and `g_usbPnpNotifyCmdType` says to which,
but a command stores its type before anything else.  `payload_typed`: the payload has the type its
command says as long as no command is refused but one of the type that is there, nothing is reported
while a command about an interface is in the mailbox, and no device is freed that is in it; and each
step that breaks this breaks the types. -/

namespace Pnp

/-- The commands that may be sent. -/
def Cmd.Sendable : Cmd → Prop
  | .addInterface | .removeInterface | .reportInterface | .addDevice | .removeDevice => True
  | _ => False

/-- Whether a command is refused: it is not supported, or nothing can be read. -/
def refusedBy (cmd : Cmd) (data : Option AddRemoveInfo) : Bool :=
  match cmd with
  | .addInterface | .removeInterface => data.isNone
  | .reportInterface | .getDevices => false
  | _ => true

/-- What `UsbPnpNotifyHdfSendEvent` relies on: the command may be sent, and the data has its type.
-/
structure Notifier.WellTyped (s : Notifier) (live : List UsbDevice) (d : EventData) : Prop where
  sendable : s.cmdType.Sendable
  info : s.cmdType.isInterface → d = .pnpInfo
  device : ¬s.cmdType.isInterface → ∃ usbDev ∈ live, d = .device usbDev.addr

namespace System

/-- Whenever `UsbPnpNotifyHdfSendEvent` is called, by the thread or to report what is attached, its
data has the type the command says. -/
structure Typed (s : System) : Prop where
  awake : s.thread = .awake → s.notifier.usbDevice.isSome
  sends : ¬s.thread.holdsLock → s.notifier.usbDevice.isSome →
    ∀ d, s.notifier.eventData = some d → s.notifier.WellTyped s.live d
  reports : ∀ addr ∈ s.attached,
    { s.notifier with cmdType := .reportInterface }.WellTyped s.live (.device addr)

/-- A command that is refused changes neither the command type nor the payload. -/
def RefusedKeeps (s : System) (a : Act) (t : System) : Prop :=
  match a with
  | .dispatch cmd data _ => refusedBy cmd data →
      t.notifier.cmdType = s.notifier.cmdType ∧ t.notifier.usbDevice = s.notifier.usbDevice
  | _ => True

/-- What is refused has the type that is there, nothing is reported while a command is in the
mailbox, and the device in the mailbox is not freed. -/
def Tagged (s : System) : Act → Prop
  | .dispatch cmd data _ =>
      if refusedBy cmd data then cmd = s.notifier.cmdType
      else cmd = .reportInterface → s.notifier.usbDevice ≠ some .pnpInfo
  | .free addr => s.thread.holdsLock ∨ s.notifier.usbDevice ≠ some (.device addr)
  | _ => True

/-- Whether there is a device that is not freed. -/
def IsLive (s : System) (addr : Nat) : Prop :=
  ∃ usbDev ∈ s.live, usbDev.addr = addr

/-- What a run keeps as long as its steps are tagged. -/
structure TagInv (s : System) : Prop where
  awake : s.thread = .awake → s.notifier.usbDevice.isSome
  kind : ∀ d, s.notifier.usbDevice = some d →
    s.notifier.cmdType.Sendable ∧ (s.notifier.cmdType.isInterface ↔ d = .pnpInfo)
  payload : ¬s.thread.holdsLock → ∀ addr, s.notifier.usbDevice = some (.device addr) → s.IsLive addr
  attached : ∀ addr ∈ s.attached, s.IsLive addr
  callbacks : ∀ callback ∈ s.callbacks, s.IsLive callback.addr

end System

/-! ### The mailbox -/

namespace Mailbox

variable {m : Mailbox} {cmd : Cmd} {data : Option AddRemoveInfo}

/-- The command type is stored in any case. -/
theorem cmdType_command (h : cmd ≠ .getDevices) :
  (m.command cmd data).cmdType = cmd
  := by
  unfold command
  rw [if_neg h]
  dsimp only
  split <;> rfl

theorem command_getDevices :
  m.command .getDevices data = m
  := if_pos rfl

/-- The payload is that of the command, if it posts one. -/
theorem usbDevice_command :
  (m.command cmd data).usbDevice = if postedBy cmd data = [] then m.usbDevice else some .pnpInfo
  := by
  cases data with
  | none => cases cmd <;> rfl
  | some info => cases cmd <;> rfl

/-- A command that posts is about an interface. -/
theorem isInterface_of_postedBy (h : postedBy cmd data ≠ []) :
  cmd.isInterface ∧ cmd.Sendable
  := by
  cases data with
  | none => cases cmd <;> exact absurd rfl h
  | some info =>
      cases cmd with
      | addInterface | removeInterface => exact ⟨rfl, trivial⟩
      | _ => exact absurd rfl h

/-- What is in the mailbox after a command, if it was empty. -/
theorem command_pnpInfo (hempty : m.usbDevice = none)
    (h : (m.command cmd data).usbDevice = some .pnpInfo) :
  cmd.isInterface ∧ ∃ info, data = some info ∧ (m.command cmd data).usbPnpInfo = info
  := by
  cases data with
  | none =>
      rw [usbDevice_command] at h
      cases cmd <;> cases hempty.symm.trans h
  | some info =>
      cases cmd with
      | addInterface | removeInterface => exact ⟨rfl, info, rfl, rfl⟩
      | _ => cases hempty.symm.trans h

theorem postedBy_of_refused (h : refusedBy cmd data) :
  postedBy cmd data = [] ∧ cmd ≠ .getDevices
  := by
  cases data with
  | none => cases cmd <;> first | exact ⟨rfl, Cmd.noConfusion⟩ | cases h
  | some info => cases cmd <;> first | exact ⟨rfl, Cmd.noConfusion⟩ | cases h

/-- What neither is refused nor posts is a report, or asks for the devices. -/
theorem eq_of_not_refused (h : ¬refusedBy cmd data) (hsilent : postedBy cmd data = []) :
  cmd = .reportInterface ∨ cmd = .getDevices
  := by
  cases cmd with
  | addInterface | removeInterface => cases data <;> first | exact absurd rfl h | cases hsilent
  | reportInterface => exact .inl rfl
  | getDevices => exact .inr rfl
  | addDevice | removeDevice | other cmd => exact absurd rfl h

end Mailbox

/-! ### Sending -/

namespace Notifier

variable {s : Notifier} {live : List UsbDevice}

/-- Well-typed data can be sent. -/
theorem WellTyped.body_ok {d : EventData} (h : s.WellTyped live d) (o : Outcome) :
  ∃ t ret id, s.sendEventBody live o d = .ok (t, ret, id)
  := by
  apply sendEventBody_ok h.info
  intro hreport
  apply h.device
  rw [hreport]
  apply Bool.false_ne_true

theorem WellTyped.of_mailbox {t : Notifier} {d : EventData} (h : s.WellTyped live d)
    (hmailbox : t.mailbox = s.mailbox) :
  t.WellTyped live d
  := by
  have hcmd : t.cmdType = s.cmdType := congrArg Mailbox.cmdType hmailbox
  exact ⟨hcmd ▸ h.sendable, hcmd ▸ h.info, hcmd ▸ h.device⟩

/-- All that is attached can be reported. -/
theorem firstReports_ok {addrs : List Nat} (h : ∀ addr ∈ addrs, s.WellTyped live (.device addr))
    (outcomes : Nat → Outcome) :
  ∃ t, s.firstReports live outcomes addrs = .ok t
  := by
  induction addrs generalizing s with
  | nil => exact ⟨s, rfl⟩
  | cons addr rest ih =>
      obtain ⟨t, ret, id, hbody⟩ := (h addr List.mem_cons_self).body_ok (outcomes addr)
      have hsend : s.sendEvent live (outcomes addr) (.device addr)
          = .ok (t.sendEventOut ret id, ret) := by
        unfold sendEvent
        rw [hbody]
      unfold firstReports
      rw [hsend]
      by_cases hret : ret ≠ Hdf.success
      · simp only [if_pos hret]
        exact ⟨_, rfl⟩
      · simp only [if_neg hret]
        apply ih
        intro addr' haddr'
        exact (h addr' (List.mem_cons_of_mem _ haddr')).of_mailbox (sendEvent_mailbox hsend)

end Notifier

namespace System

variable {s t : System} {a : Act}

theorem IsLive.mono {addr : Nat} (h : s.IsLive addr) (hlive : s.live ⊆ t.live) :
  t.IsLive addr
  := by
  obtain ⟨usbDev, hmem, haddr⟩ := h
  exact ⟨usbDev, hlive hmem, haddr⟩

theorem eventData_eq_some {d : EventData} :
  s.notifier.eventData = some d
    ↔ if s.notifier.cmdType.isInterface then d = .pnpInfo else s.notifier.usbDevice = some d
  := by
  unfold Notifier.eventData
  split
  · rw [Option.some_inj, eq_comm]
  · exact Iff.rfl

/-- The invariant gives the types. -/
theorem TagInv.typed (h : s.TagInv) :
  s.Typed
  := by
  refine ⟨h.awake, fun hlock hsome d hd => ?_, fun addr haddr => ⟨trivial, ?_, fun _ => ?_⟩⟩
  · obtain ⟨payload, hpayload⟩ := Option.isSome_iff_exists.mp hsome
    obtain ⟨hsendable, hkind⟩ := h.kind payload hpayload
    rw [eventData_eq_some] at hd
    refine ⟨hsendable, fun hinfo => ?_, fun hinfo => ?_⟩
    · rw [if_pos hinfo] at hd
      apply hd
    · rw [if_neg hinfo, hpayload] at hd
      obtain rfl := Option.some.inj hd
      cases payload with
      | pnpInfo => exact absurd (hkind.mpr rfl) hinfo
      | device addr =>
          obtain ⟨usbDev, hmem, rfl⟩ := h.payload hlock addr hpayload
          exact ⟨usbDev, hmem, rfl⟩
  · intro hinfo
    cases hinfo
  · obtain ⟨usbDev, hmem, rfl⟩ := h.attached addr haddr
    exact ⟨usbDev, hmem, rfl⟩

/-- Where the types are right, the kernel does not stop. -/
theorem Typed.no_fault (h : s.Typed) (a : Act) (fault : Fault) :
  s.step a ≠ some (.error fault)
  := by
  intro hstep
  cases a with
  | dispatch cmd data outcomes =>
      rw [System.step] at hstep
      split at hstep
      · cases hstep
      cases cmd with
      | reportInterface =>
          obtain ⟨n, hn⟩ := Notifier.firstReports_ok h.reports outcomes
          unfold Notifier.dispatch at hstep
          simp only [ne_eq, reduceCtorEq, not_false_eq_true, if_true, hn] at hstep
          cases hstep
      | _ => cases hstep
  | report o =>
      rw [System.step] at hstep
      split at hstep
      · cases hstep
      rename_i hawake
      have hawake := not_not.mp hawake
      have hlock : ¬s.thread.holdsLock := by
        rw [hawake]
        apply Bool.false_ne_true
      unfold Notifier.report at hstep
      cases hdata : s.notifier.eventData with
      | none =>
          rw [hdata] at hstep
          cases hstep
      | some d =>
          obtain ⟨n, ret, id, hbody⟩ := (h.sends hlock (h.awake hawake) d hdata).body_ok o
          rw [hdata] at hstep
          simp only [hbody] at hstep
          cases hstep
  | _ =>
      rw [System.step] at hstep
      try split at hstep
      all_goals cases hstep

/-- A step that leaves the mailbox alone, and does not free what is in use. -/
theorem TagInv.quiet (h : s.TagInv) (hmailbox : t.notifier.mailbox = s.notifier.mailbox)
    (hlock : t.thread.holdsLock = s.thread.holdsLock)
    (hawake : t.thread = .awake → s.notifier.usbDevice.isSome)
    (hpayload : ∀ addr, s.notifier.usbDevice = some (.device addr) → s.IsLive addr → t.IsLive addr)
    (hattached : ∀ addr ∈ t.attached, t.IsLive addr)
    (hcallbacks : ∀ callback ∈ t.callbacks, t.IsLive callback.addr) :
  t.TagInv
  := by
  have hdevice : t.notifier.usbDevice = s.notifier.usbDevice := congrArg Mailbox.usbDevice hmailbox
  have hcmd : t.notifier.cmdType = s.notifier.cmdType := congrArg Mailbox.cmdType hmailbox
  refine ⟨fun ht => ?_, fun d hd => ?_, fun ht addr haddr => ?_, hattached, hcallbacks⟩
  · rw [hdevice]
    apply hawake ht
  · rw [hcmd]
    exact h.kind d (hdevice ▸ hd)
  · rw [hlock] at ht
    rw [hdevice] at haddr
    apply hpayload addr haddr (h.payload ht addr haddr)

/-- A command keeps the types if it is tagged. -/
theorem TagInv.dispatch (h : s.TagInv) (hlock : ¬s.thread.holdsLock) {cmd : Cmd}
    {data : Option AddRemoveInfo} {outcomes : Nat → Outcome} {n : Notifier}
    (hmailbox : n.mailbox = s.notifier.mailbox.command cmd data)
    (htagged : s.Tagged (.dispatch cmd data outcomes)) (posted : List Notice) :
  TagInv { s with notifier := n, posted }
  := by
  have hdevice : n.usbDevice = (s.notifier.mailbox.command cmd data).usbDevice :=
    congrArg Mailbox.usbDevice hmailbox
  have hcmd : n.cmdType = (s.notifier.mailbox.command cmd data).cmdType :=
    congrArg Mailbox.cmdType hmailbox
  rw [Mailbox.usbDevice_command] at hdevice
  refine ⟨fun ht => ?_, fun d hd => ?_, fun _ addr haddr => ?_, h.attached, h.callbacks⟩
  · dsimp only
    rw [hdevice]
    split
    · apply h.awake ht
    · rfl
  · change n.usbDevice = some d at hd
    dsimp only
    by_cases hget : cmd = .getDevices
    · rw [hget, Mailbox.command_getDevices] at hmailbox
      rw [show n.cmdType = s.notifier.cmdType from congrArg Mailbox.cmdType hmailbox]
      apply h.kind d
      rw [← hd]
      exact (congrArg Mailbox.usbDevice hmailbox).symm
    rw [hcmd, Mailbox.cmdType_command hget]
    by_cases hsilent : postedBy cmd data = []
    · rw [hdevice, if_pos hsilent] at hd
      by_cases hrefused : refusedBy cmd data
      · have htype : cmd = s.notifier.cmdType := by
          simp only [Tagged, if_pos hrefused] at htagged
          apply htagged
        rw [htype]
        apply h.kind d hd
      · obtain hreport | hcon := Mailbox.eq_of_not_refused hrefused hsilent
        · have hnot : s.notifier.usbDevice ≠ some .pnpInfo := by
            simp only [Tagged, if_neg hrefused] at htagged
            apply htagged hreport
          rw [hreport]
          refine ⟨trivial, iff_of_false Bool.false_ne_true fun heq => hnot ?_⟩
          exact heq ▸ hd
        · apply absurd hcon hget
    · obtain ⟨hinfo, hsendable⟩ := Mailbox.isInterface_of_postedBy hsilent
      rw [hdevice, if_neg hsilent] at hd
      exact ⟨hsendable, iff_of_true hinfo (Option.some.inj hd).symm⟩
  · change n.usbDevice = some (.device addr) at haddr
    rw [hdevice] at haddr
    split at haddr
    · apply h.payload hlock addr haddr
    · cases haddr

/-- A step that is tagged keeps the invariant. -/
theorem TagInv.step (h : s.TagInv) (ht : s.next a = some t) (htagged : s.Tagged a) :
  t.TagInv
  := by
  cases a with
  | notifyAdd usbDev allocated =>
      obtain ⟨-, rfl⟩ := next_notifyAdd ht
      have hlive : s.live ⊆ usbDev :: s.live := List.subset_cons_self _ _
      refine h.quiet (s.notifier.deviceAdded_mailbox usbDev allocated) rfl h.awake
        (fun addr _ haddr => haddr.mono hlive) (fun addr haddr => ?_) fun callback hcallback => ?_
      · obtain haddr | haddr := List.mem_append.mp haddr
        · exact (h.attached addr haddr).mono hlive
        · exact ⟨usbDev, List.mem_cons_self, (List.mem_singleton.mp haddr).symm⟩
      · dsimp only at hcallback
        split at hcallback
        · obtain rfl | hcallback := List.mem_cons.mp hcallback
          · exact ⟨usbDev, List.mem_cons_self, rfl⟩
          · exact (h.callbacks callback hcallback).mono hlive
        · exact (h.callbacks callback hcallback).mono hlive
  | notifyRemove addr =>
      obtain ⟨hattached, -, rfl⟩ := next_notifyRemove ht
      refine h.quiet (s.notifier.deviceRemoved_mailbox addr) rfl h.awake (fun _ _ hlive => hlive)
        (fun addr' haddr' => h.attached addr' (List.mem_filter.mp haddr').1)
        fun callback hcallback => ?_
      dsimp only at hcallback
      split at hcallback
      · obtain rfl | hcallback := List.mem_cons.mp hcallback
        · apply h.attached addr hattached
        · apply h.callbacks callback hcallback
      · apply h.callbacks callback hcallback
  | post callback =>
      obtain ⟨-, hmem, rfl⟩ := next_post ht
      refine ⟨fun _ => ?_, fun d hd => ?_, fun _ addr haddr => ?_, h.attached, fun c hc => ?_⟩
      · cases callback <;> rfl
      · cases callback <;> obtain rfl := Option.some.inj hd <;>
          exact ⟨trivial, iff_of_false Bool.false_ne_true EventData.noConfusion⟩
      · have hlive := h.callbacks callback hmem
        cases callback
        all_goals
          obtain rfl := EventData.device.inj (Option.some.inj haddr)
          apply hlive
      · apply h.callbacks c (List.mem_of_mem_erase hc)
  | dispatch cmd data outcomes =>
      obtain ⟨hlock, n, ret, hdispatch, rfl⟩ := next_dispatch ht
      apply h.dispatch hlock (Notifier.dispatch_mailbox hdispatch) htagged _
  | wake =>
      obtain ⟨hthread, hsome, rfl⟩ := next_wake ht
      refine h.quiet rfl ?_ (fun _ => hsome) (fun _ _ hlive => hlive) h.attached h.callbacks
      rw [hthread]
      rfl
  | report o =>
      obtain ⟨-, n, ret, id, hreport, rfl⟩ := next_report ht
      have hmailbox := Notifier.report_mailbox hreport
      have hdevice : n.usbDevice = s.notifier.usbDevice := congrArg Mailbox.usbDevice hmailbox
      have hcmd : n.cmdType = s.notifier.cmdType := congrArg Mailbox.cmdType hmailbox
      refine ⟨nofun, fun d hd => ?_, fun hlock => absurd rfl hlock, h.attached, h.callbacks⟩
      dsimp only
      rw [hcmd]
      exact h.kind d (hdevice ▸ hd)
  | finish =>
      obtain ⟨ret, id, -, rfl⟩ := next_finish ht
      exact ⟨nofun, nofun, fun _ => nofun, h.attached, h.callbacks⟩
  | rest =>
      obtain ⟨hthread, rfl⟩ := next_rest ht
      refine h.quiet rfl ?_ nofun (fun _ _ hlive => hlive) h.attached h.callbacks
      rw [hthread]
      rfl
  | free addr =>
      obtain ⟨hattached, hbusy, rfl⟩ := next_free ht
      have hkeep : ∀ addr', addr' ≠ addr → s.IsLive addr' →
          IsLive { s with live := s.live.filter fun d => d.addr ≠ addr } addr' := by
        rintro addr' hne ⟨usbDev, hmem, rfl⟩
        exact ⟨usbDev, List.mem_filter.mpr ⟨hmem, by simpa using hne⟩, rfl⟩
      refine ⟨h.awake, h.kind, fun hlock addr' haddr' => ?_, fun addr' haddr' => ?_,
        fun callback hcallback => ?_⟩
      · apply hkeep addr' _ (h.payload hlock addr' haddr')
        rintro rfl
        obtain hheld | hnot := htagged
        · apply hlock hheld
        · apply hnot haddr'
      · apply hkeep addr' _ (h.attached addr' haddr')
        rintro rfl
        apply hattached haddr'
      · apply hkeep callback.addr _ (h.callbacks callback hcallback)
        rintro rfl
        exact hbusy (List.any_eq_true.mpr ⟨callback, hcallback, by simp⟩)
  | configure usbDev =>
      obtain rfl := next_configure ht
      have hkeep : ∀ addr, s.IsLive addr → IsLive { s with
          live := s.live.map fun d => if d.addr = usbDev.addr then usbDev else d } addr := by
        rintro addr ⟨d, hmem, rfl⟩
        refine ⟨_, List.mem_map.mpr ⟨d, hmem, rfl⟩, ?_⟩
        split
        · rename_i haddr
          apply haddr.symm
        · rfl
      exact h.quiet rfl rfl h.awake (fun addr _ hlive => hkeep addr hlive)
        (fun addr haddr => hkeep addr (h.attached addr haddr))
        fun callback hcallback => hkeep _ (h.callbacks callback hcallback)

/-- A command that is refused keeps what is there if its type is there already. -/
theorem refusedKeeps_of_tagged (ht : s.next a = some t) (htagged : s.Tagged a) :
  s.RefusedKeeps a t
  := by
  cases a with
  | dispatch cmd data outcomes =>
      intro hrefused
      obtain ⟨-, n, ret, hdispatch, rfl⟩ := next_dispatch ht
      have hmailbox := Notifier.dispatch_mailbox hdispatch
      obtain ⟨hsilent, hget⟩ := Mailbox.postedBy_of_refused hrefused
      have htype : cmd = s.notifier.cmdType := by
        simp only [Tagged, if_pos hrefused] at htagged
        apply htagged
      constructor
      · calc n.cmdType = (s.notifier.mailbox.command cmd data).cmdType :=
              congrArg Mailbox.cmdType hmailbox
          _ = s.notifier.cmdType := by rw [Mailbox.cmdType_command hget, htype]
      · calc n.usbDevice = (s.notifier.mailbox.command cmd data).usbDevice :=
              congrArg Mailbox.usbDevice hmailbox
          _ = s.notifier.usbDevice := by
              rw [Mailbox.usbDevice_command, if_pos hsilent]
              rfl
  | _ => exact trivial

/-- A step after which the types are right was tagged. -/
theorem TagInv.tagged (h : s.TagInv) (ht : s.next a = some t) (htyped : t.Typed)
    (hkeeps : s.RefusedKeeps a t) :
  s.Tagged a
  := by
  cases a with
  | dispatch cmd data outcomes =>
      obtain ⟨hlock, n, ret, hdispatch, rfl⟩ := next_dispatch ht
      have hmailbox := Notifier.dispatch_mailbox hdispatch
      have hcmd : n.cmdType = (s.notifier.mailbox.command cmd data).cmdType :=
        congrArg Mailbox.cmdType hmailbox
      simp only [Tagged]
      by_cases hrefused : refusedBy cmd data
      · rw [if_pos hrefused]
        obtain ⟨-, hget⟩ := Mailbox.postedBy_of_refused hrefused
        rw [Mailbox.cmdType_command hget] at hcmd
        apply hcmd.symm.trans (hkeeps hrefused).1
      · rw [if_neg hrefused]
        rintro rfl hpayload
        have hdevice : n.usbDevice = some .pnpInfo := by
          have hsilent : postedBy .reportInterface data = [] := by cases data <;> rfl
          have hcommand := congrArg Mailbox.usbDevice hmailbox
          rw [Mailbox.usbDevice_command, if_pos hsilent] at hcommand
          apply hcommand.trans hpayload
        have hreport : n.cmdType = .reportInterface := hcmd
        have hsome : n.usbDevice.isSome := by
          rw [hdevice]
          rfl
        have hdata : n.eventData = some .pnpInfo := by
          unfold Notifier.eventData
          rw [hreport]
          apply hdevice
        obtain ⟨usbDev, -, hcon⟩ := (htyped.sends hlock hsome .pnpInfo hdata).device (by
          dsimp only
          rw [hreport]
          exact Bool.false_ne_true)
        cases hcon
  | free addr =>
      obtain ⟨-, -, rfl⟩ := next_free ht
      by_cases hlock : s.thread.holdsLock
      · exact .inl hlock
      refine .inr fun hpayload => ?_
      have hkind : ¬s.notifier.cmdType.isInterface := fun hinfo => by
        cases (h.kind _ hpayload).2.mp hinfo
      have hsome : s.notifier.usbDevice.isSome := by
        rw [hpayload]
        rfl
      have hdata : s.notifier.eventData = some (.device addr) := by
        rw [eventData_eq_some, if_neg hkind]
        apply hpayload
      obtain ⟨usbDev, hmem, heq⟩ := (htyped.sends hlock hsome _ hdata).device hkind
      obtain rfl := EventData.device.inj heq
      simpa using (List.mem_filter.mp hmem).2
  | _ => exact trivial

theorem tagInv_systemNew (live : List UsbDevice) :
  (systemNew live).TagInv
  := by
  refine ⟨nofun, nofun, fun _ => nofun, ?_, ?_⟩
  · intro addr haddr
    apply List.mem_map.mp haddr
  · exact fun callback hcallback => absurd hcallback List.not_mem_nil

end System

/-- In a run whose steps are tagged the payload has the type of the command, so that the kernel does
not stop, and what comes next keeps that exactly if it is tagged as well. -/
theorem payload_typed {live : List UsbDevice} {as : List Act} {s : System}
    (h : Run (fun s a t => s.next a = some t ∧ s.Tagged a) (systemNew live) as s) :
  s.Typed ∧ (∀ a fault, s.step a ≠ some (.error fault))
    ∧ ∀ a t, s.next a = some t → (t.Typed ∧ s.RefusedKeeps a t ↔ s.Tagged a)
  := by
  have hinv : s.TagInv :=
    h.keeps System.TagInv (fun _ _ _ hs ht => hs.step ht.1 ht.2) (System.tagInv_systemNew live)
  refine ⟨hinv.typed, hinv.typed.no_fault, fun a t ht => ⟨fun hkept => ?_, fun htagged => ?_⟩⟩
  · apply hinv.tagged ht hkept.1 hkept.2
  · exact ⟨(hinv.step ht htagged).typed, System.refusedKeeps_of_tagged ht htagged⟩

/-- A device is added and reported, and then its interface removed. -/
def typedActs : List Act :=
  [.notifyAdd (mouse 4096 2) true, .post (.added 4096),
    .dispatch .reportInterface none fun _ => .fine,
    .wake, .report .fine, .finish,
    .dispatch .removeInterface (some ⟨2, 1, 0, 3, 1, 2⟩) fun _ => .fine]

theorem payload_typed_reported :
  ∃ s, Run (fun s a t => s.next a = some t ∧ s.Tagged a) (systemNew []) typedActs s
    ∧ s.notifier.usbDevice = some .pnpInfo ∧ s.notifier.cmdType = .removeInterface ∧ s.Typed
  := by
  have hrun : ∃ s, Run (fun s a t => s.next a = some t ∧ s.Tagged a) (systemNew []) typedActs s
      ∧ s.notifier.usbDevice = some .pnpInfo ∧ s.notifier.cmdType = .removeInterface := by
    refine ⟨_, .cons ⟨rfl, trivial⟩ (.cons ⟨rfl, trivial⟩ (.cons ⟨rfl, ?_⟩ (.cons ⟨rfl, trivial⟩
      (.cons ⟨rfl, trivial⟩ (.cons ⟨rfl, trivial⟩ (.cons ⟨rfl, ?_⟩ (.nil _))))))), rfl, rfl⟩
    · exact fun _ => by decide
    · exact fun h => by cases h
  obtain ⟨s, hrun, hdevice, hcmd⟩ := hrun
  exact ⟨s, hrun, hdevice, hcmd, (payload_typed hrun).1⟩

/-- An interface is removed, and before the thread runs all devices are to be reported. -/
def confusedActs : List Act :=
  [.dispatch .addInterface (some ⟨2, 1, 0, 3, 1, 2⟩) fun _ => .fine,
   .dispatch .reportInterface none fun _ => .fine, .wake]

/-- The thread reads `g_usbPnpInfo` as a device. -/
theorem payload_confused :
  ∃ s, Run (fun s a t => s.next a = some t) (systemNew []) confusedActs s ∧ ¬s.Typed
    ∧ s.step (.report .fine) = some (.error .notADevice)
  := by
  refine ⟨_, Run.of_foldlM (f := System.next) rfl, fun h => ?_, rfl⟩
  apply h.no_fault (.report .fine) .notADevice rfl

end Pnp
