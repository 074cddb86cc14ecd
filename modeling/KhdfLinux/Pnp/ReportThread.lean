import KhdfLinux.Lib.Run
import KhdfLinux.Pnp.SendEvent

/-!
# The thread of the notifier

The callbacks of the kernel, the commands of userspace and `UsbPnpNotifyReportThread`, as the steps
of one system.  What is done under `g_usbSendEventLock` is a step, but for the thread, which takes
two: a callback may come in between with what it does before it takes the lock. -/

namespace Pnp

/-- The variables by which `g_usbDevice` is handed to the thread. -/
structure Mailbox where
  usbDevice : Option EventData
  usbPnpInfo : AddRemoveInfo
  cmdType : Cmd
  removeType : RemoveType
  deriving DecidableEq, Repr

/-- What a notification is about. -/
inductive Subject where
  | device (addr : Nat)
  | interface (info : AddRemoveInfo)
  deriving DecidableEq, Repr

/-- A notification, for the removals with the remove type. -/
structure Notice where
  cmd : Cmd
  subject : Subject
  removeType : Option RemoveType
  deriving DecidableEq, Repr

/-- Whether something is removed. -/
def Cmd.isRemove : Cmd → Bool
  | .removeInterface | .removeDevice => true
  | _ => false

/-- The notification that is in the mailbox, as the thread reads it. -/
def Mailbox.notice (m : Mailbox) : Option Notice :=
  m.usbDevice.map fun usbDevice =>
    { cmd := m.cmdType
      subject :=
        match (if m.cmdType.isInterface then .pnpInfo else usbDevice) with
        | .device addr => .device addr
        | .pnpInfo => .interface m.usbPnpInfo
      removeType := if m.cmdType.isRemove then some m.removeType else none }

/-- The mailbox of the driver. -/
def Notifier.mailbox (s : Notifier) : Mailbox :=
  ⟨s.usbDevice, s.usbPnpInfo, s.cmdType, s.removeType⟩

/-- A callback that waits for the lock, for a device that was added or removed. -/
inductive Callback where
  | added (addr : Nat)
  | removed (addr : Nat)
  deriving DecidableEq, Repr

/-- The device of the callback. -/
def Callback.addr : Callback → Nat
  | .added addr | .removed addr => addr

/-- What the callback posts. -/
def Callback.notice : Callback → Notice
  | .added addr => ⟨.addDevice, .device addr, none⟩
  | .removed addr => ⟨.removeDevice, .device addr, some .busDevNum⟩

/-- The end of the callback. -/
def Callback.post (s : Notifier) : Callback → Notifier
  | .added addr => s.postAdd addr
  | .removed addr => s.postRemove addr

/-- What a command posts. -/
def postedBy (cmd : Cmd) (data : Option AddRemoveInfo) : List Notice :=
  match cmd, data with
  | .addInterface, some info => [⟨.addInterface, .interface info, none⟩]
  | .removeInterface, some info => [⟨.removeInterface, .interface info, some .interfaceNum⟩]
  | _, _ => []

/-- Where the thread is: it waits for `g_usbDevice`, is about to take the lock, holds it with what
it returns and the record it has sent an event about, or sleeps. -/
inductive Thread where
  | waiting
  | awake
  | finishing (ret : Int) (id : Option Nat)
  | sleeping
  deriving DecidableEq, Repr

/-- Whether the thread holds the lock. -/
def Thread.holdsLock : Thread → Bool
  | .finishing _ _ => true
  | _ => false

/-- The driver, the devices that are not freed and those of them that are attached, the callbacks
that wait for the lock, and the thread, with the notifications that were posted and those the thread
has taken, in order. -/
structure System where
  notifier : Notifier
  live : List UsbDevice
  attached : List Nat
  callbacks : List Callback
  thread : Thread
  posted : List Notice
  taken : List Notice

/-- What happens. -/
inductive Act where
  | notifyAdd (usbDev : UsbDevice) (allocated : Bool)
  | notifyRemove (addr : Nat)
  /-- A callback takes the lock, and ends. -/
  | post (callback : Callback)
  | dispatch (cmd : Cmd) (data : Option AddRemoveInfo) (outcomes : Nat → Outcome)
  | wake
  | report (o : Outcome)
  | finish
  /-- The thread has slept enough. -/
  | rest
  /-- A device that is not attached is freed. -/
  | free (addr : Nat)
  /-- A device changes. -/
  | configure (usbDev : UsbDevice)

/-- The steps of the thread. -/
def Act.ofThread : Act → Bool
  | .wake | .report _ | .finish | .rest => true
  | _ => false

namespace System

/-- Whether a callback for the device waits. -/
def busy (s : System) (addr : Nat) : Bool :=
  s.callbacks.any fun callback => callback.addr = addr

/-- A step, if it is possible, or how the kernel stops.  The kernel notifies of a device that is not
attached or that is, and of one device at a time. -/
def step (s : System) : Act → Option (Except Fault System)
  | .notifyAdd usbDev allocated =>
      if s.live.any fun d => d.addr = usbDev.addr then none
      else
        let (notifier, goesOn) := s.notifier.deviceAdded usbDev allocated
        some (.ok { s with
          notifier
          live := usbDev :: s.live
          attached := s.attached ++ [usbDev.addr]
          callbacks := if goesOn then .added usbDev.addr :: s.callbacks else s.callbacks })
  | .notifyRemove addr =>
      if addr ∉ s.attached ∨ s.busy addr then none
      else
        let (notifier, goesOn) := s.notifier.deviceRemoved addr
        some (.ok { s with
          notifier
          attached := s.attached.filter fun addr' => addr' ≠ addr
          callbacks := if goesOn then .removed addr :: s.callbacks else s.callbacks })
  | .post callback =>
      if s.thread.holdsLock ∨ callback ∉ s.callbacks then none
      else
        some (.ok { s with
          notifier := callback.post s.notifier
          callbacks := s.callbacks.erase callback
          posted := s.posted ++ [callback.notice] })
  | .dispatch cmd data outcomes =>
      if s.thread.holdsLock then none
      else
        match s.notifier.dispatch s.live s.attached cmd data outcomes with
        | .error fault => some (.error fault)
        | .ok (notifier, _) =>
            some (.ok { s with notifier, posted := s.posted ++ postedBy cmd data })
  | .wake =>
      if s.thread = .waiting ∧ s.notifier.usbDevice.isSome then
        some (.ok { s with thread := .awake })
      else none
  | .report o =>
      if s.thread ≠ .awake then none
      else
        match s.notifier.report s.live o with
        | .error fault => some (.error fault)
        | .ok (notifier, ret, id) =>
            some (.ok { s with
              notifier
              thread := .finishing ret id
              taken := s.taken ++ s.notifier.mailbox.notice.toList })
  | .finish =>
      match s.thread with
      | .finishing ret id =>
          some (.ok { s with notifier := s.notifier.finishReport ret id, thread := .sleeping })
      | _ => none
  | .rest => if s.thread = .sleeping then some (.ok { s with thread := .waiting }) else none
  | .free addr =>
      if addr ∈ s.attached ∨ s.busy addr then none
      else some (.ok { s with live := s.live.filter fun d => d.addr ≠ addr })
  | .configure usbDev =>
      some (.ok { s with live := s.live.map fun d => if d.addr = usbDev.addr then usbDev else d })

/-- The next state. -/
def next (s : System) (a : Act) : Option System :=
  match s.step a with
  | some (.ok t) => some t
  | _ => none

end System

/-- The driver is loaded while these devices are attached. -/
def systemNew (live : List UsbDevice) : System where
  notifier := notifierNew
  live := live
  attached := live.map UsbDevice.addr
  callbacks := []
  thread := .waiting
  posted := []
  taken := []

/-! ### The steps one by one -/

namespace System

variable {s t : System}

theorem next_eq_some {a : Act} :
  s.next a = some t ↔ s.step a = some (.ok t)
  := by
  unfold next
  split
  · rename_i t' hstep
    rw [hstep]
    simp
  · rename_i hstep
    exact iff_of_false (fun h => by cases h) (hstep t)

theorem next_notifyAdd {usbDev : UsbDevice} {allocated : Bool}
    (h : s.next (.notifyAdd usbDev allocated) = some t) :
  (∀ d ∈ s.live, d.addr ≠ usbDev.addr) ∧
    t = { s with
      notifier := (s.notifier.deviceAdded usbDev allocated).1
      live := usbDev :: s.live
      attached := s.attached ++ [usbDev.addr]
      callbacks := if (s.notifier.deviceAdded usbDev allocated).2
        then .added usbDev.addr :: s.callbacks
        else s.callbacks }
  := by
  rw [next_eq_some, System.step] at h
  split at h
  · cases h
  · rename_i hfresh
    exact ⟨by simpa using hfresh, (Except.ok.inj (Option.some.inj h)).symm⟩

theorem next_notifyRemove {addr : Nat} (h : s.next (.notifyRemove addr) = some t) :
  addr ∈ s.attached ∧ ¬s.busy addr ∧
    t = { s with
      notifier := (s.notifier.deviceRemoved addr).1
      attached := s.attached.filter fun addr' => addr' ≠ addr
      callbacks := if (s.notifier.deviceRemoved addr).2 then .removed addr :: s.callbacks
        else s.callbacks }
  := by
  rw [next_eq_some, System.step] at h
  split at h
  · cases h
  · rename_i hpossible
    rw [not_or, not_not] at hpossible
    exact ⟨hpossible.1, hpossible.2, (Except.ok.inj (Option.some.inj h)).symm⟩

theorem next_post {callback : Callback} (h : s.next (.post callback) = some t) :
  ¬s.thread.holdsLock ∧ callback ∈ s.callbacks ∧
    t = { s with
      notifier := callback.post s.notifier
      callbacks := s.callbacks.erase callback
      posted := s.posted ++ [callback.notice] }
  := by
  rw [next_eq_some, System.step] at h
  split at h
  · cases h
  · rename_i hpossible
    rw [not_or, not_not] at hpossible
    exact ⟨hpossible.1, hpossible.2, (Except.ok.inj (Option.some.inj h)).symm⟩

theorem next_dispatch {cmd : Cmd} {data : Option AddRemoveInfo} {outcomes : Nat → Outcome}
    (h : s.next (.dispatch cmd data outcomes) = some t) :
  ¬s.thread.holdsLock ∧ ∃ notifier ret,
    s.notifier.dispatch s.live s.attached cmd data outcomes = .ok (notifier, ret)
      ∧ t = { s with notifier, posted := s.posted ++ postedBy cmd data }
  := by
  rw [next_eq_some, System.step] at h
  split at h
  · cases h
  · rename_i hlock
    split at h
    · cases h
    · rename_i notifier ret hdispatch
      exact ⟨hlock, notifier, ret, hdispatch, (Except.ok.inj (Option.some.inj h)).symm⟩

theorem next_wake (h : s.next .wake = some t) :
  s.thread = .waiting ∧ s.notifier.usbDevice.isSome ∧ t = { s with thread := .awake }
  := by
  rw [next_eq_some, System.step] at h
  split at h
  · rename_i hwake
    exact ⟨hwake.1, hwake.2, (Except.ok.inj (Option.some.inj h)).symm⟩
  · cases h

theorem next_report {o : Outcome} (h : s.next (.report o) = some t) :
  s.thread = .awake ∧ ∃ notifier ret id, s.notifier.report s.live o = .ok (notifier, ret, id)
    ∧ t = { s with
      notifier
      thread := .finishing ret id
      taken := s.taken ++ s.notifier.mailbox.notice.toList }
  := by
  rw [next_eq_some, System.step] at h
  split at h
  · cases h
  · rename_i hawake
    split at h
    · cases h
    · rename_i notifier ret id hreport
      exact ⟨not_not.mp hawake, notifier, ret, id, hreport,
        (Except.ok.inj (Option.some.inj h)).symm⟩

theorem next_finish (h : s.next .finish = some t) :
  ∃ ret id, s.thread = .finishing ret id
    ∧ t = { s with notifier := s.notifier.finishReport ret id, thread := .sleeping }
  := by
  rw [next_eq_some, System.step] at h
  split at h
  · rename_i ret id hthread
    exact ⟨ret, id, hthread, (Except.ok.inj (Option.some.inj h)).symm⟩
  · cases h

theorem next_rest (h : s.next .rest = some t) :
  s.thread = .sleeping ∧ t = { s with thread := .waiting }
  := by
  rw [next_eq_some, System.step] at h
  split at h
  · rename_i hrest
    exact ⟨hrest, (Except.ok.inj (Option.some.inj h)).symm⟩
  · cases h

theorem next_free {addr : Nat} (h : s.next (.free addr) = some t) :
  addr ∉ s.attached ∧ ¬s.busy addr ∧ t = { s with live := s.live.filter fun d => d.addr ≠ addr }
  := by
  rw [next_eq_some, System.step] at h
  split at h
  · cases h
  · rename_i hpossible
    rw [not_or] at hpossible
    exact ⟨hpossible.1, hpossible.2, (Except.ok.inj (Option.some.inj h)).symm⟩

theorem next_configure {usbDev : UsbDevice} (h : s.next (.configure usbDev) = some t) :
  t = { s with live := s.live.map fun d => if d.addr = usbDev.addr then usbDev else d }
  := (Except.ok.inj (Option.some.inj (next_eq_some.mp h))).symm

end System

/-! ### What leaves the mailbox alone -/

namespace Notifier

variable {s t : Notifier}

theorem createInfo_mailbox (s : Notifier) (allocated : Bool) :
  (s.createInfo allocated).1.mailbox = s.mailbox
  := by
  unfold createInfo
  split <;> rfl

theorem getDeviceInfo_mailbox {allocated : Bool} {eventData : EventData} {found : Option Place}
    (h : s.getDeviceInfo allocated eventData = .ok (t, found)) :
  t.mailbox = s.mailbox
  := by
  unfold getDeviceInfo at h
  cases hcmd : s.cmdType with
  | addInterface | removeInterface =>
      rw [hcmd] at h
      cases eventData with
      | device addr => cases h
      | pnpInfo =>
          cases h
          rfl
  | addDevice | removeDevice =>
      rw [hcmd] at h
      cases eventData with
      | device addr =>
          cases h
          rfl
      | pnpInfo =>
          cases h
          rfl
  | reportInterface | getDevices | other cmd =>
      rw [hcmd] at h
      obtain rfl : (s.createInfo allocated).1 = t := congrArg Prod.fst (Except.ok.inj h)
      apply createInfo_mailbox

theorem sendEventBody_mailbox {live : List UsbDevice} {o : Outcome} {eventData : EventData}
    {ret : Int}
    {id : Option Nat} (h : s.sendEventBody live o eventData = .ok (t, ret, id)) :
  t.mailbox = s.mailbox
  := by
  unfold sendEventBody at h
  split at h
  · cases h
    rfl
  · split at h
    · cases h
    · rename_i hfound
      cases h
      apply getDeviceInfo_mailbox hfound
    · rename_i hfound
      dsimp only at h
      split at h
      · cases h
      · cases h
        have hmailbox := getDeviceInfo_mailbox hfound
        apply hmailbox

theorem sendEventOut_mailbox (s : Notifier) (ret : Int) (id : Option Nat) :
  (s.sendEventOut ret id).mailbox = s.mailbox
  := by
  unfold sendEventOut
  cases id with
  | none => rfl
  | some id =>
      dsimp only
      split <;> rfl

theorem sendEvent_mailbox {live : List UsbDevice} {o : Outcome} {eventData : EventData} {ret : Int}
    (h : s.sendEvent live o eventData = .ok (t, ret)) :
  t.mailbox = s.mailbox
  := by
  unfold sendEvent at h
  split at h
  · cases h
  · rename_i hbody
    cases h
    rw [sendEventOut_mailbox, sendEventBody_mailbox hbody]

theorem firstReports_mailbox {live : List UsbDevice} {outcomes : Nat → Outcome} {addrs : List Nat}
    (h : s.firstReports live outcomes addrs = .ok t) :
  t.mailbox = s.mailbox
  := by
  induction addrs generalizing s with
  | nil =>
      cases h
      rfl
  | cons addr rest ih =>
      unfold firstReports at h
      split at h
      · cases h
      · rename_i hsend
        split at h
        · cases h
          apply sendEvent_mailbox hsend
        · rw [ih h, sendEvent_mailbox hsend]

theorem report_mailbox {live : List UsbDevice} {o : Outcome} {ret : Int} {id : Option Nat}
    (h : s.report live o = .ok (t, ret, id)) :
  t.mailbox = s.mailbox
  := by
  unfold report at h
  split at h
  · cases h
    rfl
  · apply sendEventBody_mailbox h

theorem deviceAdded_mailbox (s : Notifier) (usbDev : UsbDevice) (allocated : Bool) :
  (s.deviceAdded usbDev allocated).1.mailbox = s.mailbox
  := by
  have h := s.createInfo_mailbox allocated
  unfold deviceAdded
  split
  · rename_i hcreate
    rw [hcreate] at h
    apply h
  · rename_i hcreate
    rw [hcreate] at h
    apply h

theorem deviceRemoved_mailbox (s : Notifier) (addr : Nat) :
  (s.deviceRemoved addr).1.mailbox = s.mailbox
  := by
  unfold deviceRemoved
  split <;> rfl

/-- A command that is about an interface posts what was read, and only that. -/
theorem readPnpInfo_mailbox (s : Notifier) (data : Option AddRemoveInfo) :
  (s.readPnpInfo data).mailbox
    = match data with
      | none => s.mailbox
      | some info => { s.mailbox with usbDevice := some .pnpInfo, usbPnpInfo := info }
  := by
  unfold readPnpInfo
  cases data with
  | none => rfl
  | some info =>
      dsimp only
      split <;> rfl

theorem eventData_of_isInterface {d : EventData} (hd : s.eventData = some d)
    (h : s.cmdType.isInterface) :
  d = .pnpInfo
  := by
  unfold eventData at hd
  rw [if_pos h] at hd
  exact (Option.some.inj hd).symm

/-! ### What does not stop the kernel -/

theorem getDeviceInfo_ok {d : EventData} (hinfo : s.cmdType.isInterface → d = .pnpInfo)
    (allocated : Bool) :
  ∃ t found, s.getDeviceInfo allocated d = .ok (t, found)
  := by
  unfold getDeviceInfo
  cases hcmd : s.cmdType with
  | addInterface | removeInterface =>
      rw [hcmd] at hinfo
      rw [hinfo rfl]
      exact ⟨_, _, rfl⟩
  | addDevice | removeDevice => cases d <;> exact ⟨_, _, rfl⟩
  | reportInterface | getDevices | other cmd => exact ⟨_, _, rfl⟩

theorem initInfo_ok {live : List UsbDevice} {d : EventData}
    (hinfo : s.cmdType.isInterface → d = .pnpInfo)
    (hdevice : s.cmdType = .reportInterface → ∃ usbDev ∈ live, d = .device usbDev.addr)
    (written : Bool) (r : DeviceInfo) :
  ∃ r' table ret, s.initInfo live written r d = .ok (r', table, ret)
  := by
  unfold initInfo
  cases hcmd : s.cmdType with
  | addInterface | removeInterface =>
      rw [hcmd] at hinfo
      rw [hinfo rfl]
      exact ⟨_, _, _, rfl⟩
  | reportInterface =>
      obtain ⟨usbDev, hlive, rfl⟩ := hdevice hcmd
      dsimp only
      cases hfind : live.find? fun d => d.addr = usbDev.addr with
      | none => exact absurd (List.find?_eq_none.mp hfind usbDev hlive) (by simp)
      | some found => exact ⟨_, _, _, rfl⟩
  | addDevice | removeDevice | getDevices | other cmd => exact ⟨_, _, _, rfl⟩

/-- An event can be sent about data of the type that the command says. -/
theorem sendEventBody_ok {live : List UsbDevice} {d : EventData}
    (hinfo : s.cmdType.isInterface → d = .pnpInfo)
    (hdevice : s.cmdType = .reportInterface → ∃ usbDev ∈ live, d = .device usbDev.addr)
    (o : Outcome) :
  ∃ t ret id, s.sendEventBody live o d = .ok (t, ret, id)
  := by
  unfold sendEventBody
  by_cases hobtained : o.obtained
  · rw [if_neg (not_not.mpr hobtained)]
    obtain ⟨t, found, hfound⟩ := getDeviceInfo_ok hinfo o.allocated
    have hcmd : t.cmdType = s.cmdType := congrArg Mailbox.cmdType (getDeviceInfo_mailbox hfound)
    rw [hfound]
    cases found with
    | none => exact ⟨_, _, _, rfl⟩
    | some p =>
        rw [← hcmd] at hinfo hdevice
        obtain ⟨r, table, ret, hinit⟩ := initInfo_ok hinfo hdevice o.written
          { p.record with info.removeType := t.removeType }
        dsimp only
        unfold sendRecord
        rw [hinit]
        by_cases hret : ret ≠ Hdf.success
        · simp only [if_pos hret]
          exact ⟨_, _, _, rfl⟩
        · simp only [if_neg hret]
          exact ⟨_, _, _, rfl⟩
  · rw [if_pos hobtained]
    exact ⟨_, _, _, rfl⟩

end Notifier

end Pnp
