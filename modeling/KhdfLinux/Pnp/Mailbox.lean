import KhdfLinux.Pnp.ReportThread

/-!
# The mailbox of the notifier

`g_usbDevice` with the command and remove types is a mailbox of one place, and what is in it is
overwritten by what is posted next.  `mailbox_delivers`: in a run in which nothing is posted before
the thread has emptied the mailbox, every notification is delivered once, unchanged and in order,
and where a step breaks this rule, it breaks the delivery as well. -/

namespace Pnp

/-- The mailbox after a command. -/
def Mailbox.command (m : Mailbox) (cmd : Cmd) (data : Option AddRemoveInfo) : Mailbox :=
  if cmd = .getDevices then m
  else
    let m := { m with
      cmdType := cmd
      removeType := if cmd = .removeInterface then .interfaceNum else m.removeType }
    match cmd.isInterface, data with
    | true, some usbPnpInfo => { m with usbDevice := some .pnpInfo, usbPnpInfo }
    | _, _ => m

/-- A notification that a callback or a command can post. -/
inductive Notice.Proper : Notice → Prop where
  | callback (callback : Callback) : Proper callback.notice
  | command {cmd : Cmd} {data : Option AddRemoveInfo} {n : Notice} (h : n ∈ postedBy cmd data) :
      Proper n

namespace System

/-- The notification the thread has not taken yet. -/
def pending (s : System) : List Notice :=
  if s.thread.holdsLock then [] else s.notifier.mailbox.notice.toList

/-- Each notification was taken once and in order, as it was posted, but for the one that is in the
mailbox, and the thread takes that one next. -/
structure Delivered (s : System) : Prop where
  once : s.posted = s.taken ++ s.pending
  taken : ∃ as t, (∀ a ∈ as, a.ofThread) ∧ Run (fun s a t => s.next a = some t) s as t
    ∧ t.posted = s.posted ∧ t.taken = s.posted

/-- Nothing is posted while the mailbox is full, and no command overwrites the type of the one that
is in it. -/
def Calm (s : System) : Act → Prop
  | .post _ => s.notifier.usbDevice = none
  | .dispatch cmd data _ =>
      s.notifier.usbDevice = none ∨ cmd = .getDevices
        ∨ cmd = s.notifier.cmdType ∧ postedBy cmd data = []
  | _ => True

/-- What a run keeps as long as it is calm. -/
structure MailInv (s : System) : Prop where
  once : s.posted = s.taken ++ s.pending
  proper : ∀ n ∈ s.posted, n.Proper

end System

/-! ### One command -/

theorem Notice.Proper.cmd {n : Notice} (h : n.Proper) :
  n.cmd ≠ .reportInterface ∧ (n.cmd = .removeInterface → n.removeType = some .interfaceNum)
  := by
  cases h with
  | callback callback => cases callback <;> exact ⟨Cmd.noConfusion, Cmd.noConfusion⟩
  | @command cmd data n h =>
      cases data with
      | none => cases cmd <;> cases h
      | some info =>
          cases cmd with
          | addInterface =>
              obtain rfl := List.mem_singleton.mp h
              exact ⟨Cmd.noConfusion, Cmd.noConfusion⟩
          | removeInterface =>
              obtain rfl := List.mem_singleton.mp h
              exact ⟨Cmd.noConfusion, fun _ => rfl⟩
          | _ => cases h

namespace Notifier

variable {s t : Notifier}

theorem dispatch_mailbox {live : List UsbDevice} {attached : List Nat} {cmd : Cmd}
    {data : Option AddRemoveInfo} {outcomes : Nat → Outcome} {ret : Int}
    (h : s.dispatch live attached cmd data outcomes = .ok (t, ret)) :
  t.mailbox = s.mailbox.command cmd data
  := by
  unfold dispatch at h
  cases cmd with
  | addInterface =>
      obtain ⟨rfl, -⟩ := Prod.mk.inj (Except.ok.inj h)
      rw [readPnpInfo_mailbox]
      cases data <;> rfl
  | removeInterface =>
      obtain ⟨rfl, -⟩ := Prod.mk.inj (Except.ok.inj h)
      have hmailbox := readPnpInfo_mailbox { s with cmdType := .removeInterface } data
      cases data with
      | none => exact congrArg (fun m : Mailbox => { m with removeType := .interfaceNum }) hmailbox
      | some info =>
          exact congrArg (fun m : Mailbox => { m with removeType := .interfaceNum }) hmailbox
  | reportInterface =>
      dsimp only at h
      split at h
      · cases h
      · rename_i hreports
        cases h
        rw [firstReports_mailbox hreports]
        rfl
  | getDevices =>
      obtain ⟨rfl, -⟩ := Prod.mk.inj (Except.ok.inj h)
      rfl
  | addDevice | removeDevice | other cmd =>
      obtain ⟨rfl, -⟩ := Prod.mk.inj (Except.ok.inj h)
      rfl

end Notifier

namespace Mailbox

variable {m : Mailbox} {cmd : Cmd} {data : Option AddRemoveInfo}

theorem notice_eq_none :
  m.notice = none ↔ m.usbDevice = none
  := Option.map_eq_none_iff

/-- A command posts into an empty mailbox. -/
theorem notice_command_of_empty (hempty : m.usbDevice = none) :
  (m.command cmd data).notice.toList = postedBy cmd data
  := by
  obtain ⟨usbDevice, usbPnpInfo, cmdType, removeType⟩ := m
  obtain rfl : usbDevice = none := hempty
  cases data with
  | none => cases cmd <;> rfl
  | some info => cases cmd <;> rfl

/-- A command that does not post leaves the notification alone exactly if it does not change the
command type. -/
theorem notice_command_of_silent {n : Notice} (hn : m.notice = some n) (hproper : n.Proper)
    (hsilent : postedBy cmd data = []) :
  (m.command cmd data).notice = some n ↔ cmd = .getDevices ∨ cmd = m.cmdType
  := by
  obtain ⟨usbDevice, usbPnpInfo, cmdType, removeType⟩ := m
  obtain ⟨d, rfl, rfl⟩ := Option.map_eq_some_iff.mp hn
  obtain ⟨hreport, hremove⟩ := hproper.cmd
  by_cases hget : cmd = .getDevices
  · rw [hget]
    apply iff_of_true rfl (.inl rfl)
  have hcommand : (Mailbox.mk (some d) usbPnpInfo cmdType removeType).command cmd data
      = ⟨some d, usbPnpInfo, cmd,
        if cmd = .removeInterface then .interfaceNum else removeType⟩ := by
    cases data with
    | none => cases cmd <;> first | rfl | exact absurd rfl hget
    | some info => cases cmd <;> first | rfl | exact absurd rfl hget | cases hsilent
  rw [hcommand]
  constructor
  · intro h
    exact .inr (congrArg Notice.cmd (Option.some.inj h))
  · rintro (h | rfl)
    · apply absurd h hget
    · cases cmd with
      | removeInterface =>
          have htype : removeType = .interfaceNum := Option.some.inj (hremove rfl)
          rw [htype]
          rfl
      | _ => rfl

end Mailbox

/-! ### One step -/

namespace System

variable {s t : System} {a : Act}

theorem pending_eq (hmailbox : t.notifier.mailbox = s.notifier.mailbox)
    (hlock : t.thread.holdsLock = s.thread.holdsLock) :
  t.pending = s.pending
  := by
  unfold pending
  rw [hmailbox, hlock]

theorem pending_of_unlocked (hlock : ¬s.thread.holdsLock) :
  s.pending = s.notifier.mailbox.notice.toList
  := if_neg hlock

/-- What a command does to the mailbox is delivered exactly if it is calm. -/
theorem MailInv.dispatch (h : s.MailInv) (hlock : ¬s.thread.holdsLock) {cmd : Cmd}
    {data : Option AddRemoveInfo} (outcomes : Nat → Outcome) :
  s.posted ++ postedBy cmd data
      = s.taken ++ (s.notifier.mailbox.command cmd data).notice.toList
    ↔ s.Calm (.dispatch cmd data outcomes)
  := by
  rw [h.once, pending_of_unlocked hlock, List.append_assoc, List.append_cancel_left_eq]
  cases hn : s.notifier.mailbox.notice with
  | none =>
      have hempty := Mailbox.notice_eq_none.mp hn
      rw [Mailbox.notice_command_of_empty hempty]
      apply iff_of_true rfl (.inl hempty)
  | some n =>
      have hfull : s.notifier.usbDevice ≠ none := fun hempty => by
        rw [Mailbox.notice_eq_none.mpr hempty] at hn
        cases hn
      have hproper : n.Proper := by
        apply h.proper
        rw [h.once, pending_of_unlocked hlock, hn]
        simp
      by_cases hsilent : postedBy cmd data = []
      · have hiff := Mailbox.notice_command_of_silent hn hproper hsilent
        rw [hsilent, List.append_nil]
        constructor
        · intro heq
          obtain hget | htype := hiff.mp (Option.toList_eq_singleton_iff.mp heq.symm)
          · exact .inr (.inl hget)
          · exact .inr (.inr ⟨htype, hsilent⟩)
        · rintro (hempty | hget | ⟨htype, -⟩)
          · apply absurd hempty hfull
          · rw [hiff.mpr (.inl hget)]
          · rw [hiff.mpr (.inr htype)]
      · refine iff_of_false (fun heq => ?_) ?_
        · have hlength := congrArg List.length heq
          have hposted := List.length_pos_iff.mpr hsilent
          have htake := Option.length_toList_le (o := (s.notifier.mailbox.command cmd data).notice)
          rw [List.length_append, Option.toList_some, List.length_singleton] at hlength
          omega
        · rintro (hempty | rfl | ⟨-, hnone⟩)
          · apply hfull hempty
          · cases data <;> exact hsilent rfl
          · apply hsilent hnone

/-- A step that neither posts nor takes. -/
theorem MailInv.quiet (h : s.MailInv) (hposted : t.posted = s.posted) (htaken : t.taken = s.taken)
    (hpending : t.pending = s.pending) :
  t.posted = t.taken ++ t.pending
  := by
  rw [hposted, htaken, hpending]
  apply h.once

/-- A callback posts into an empty mailbox, or overwrites what is in it. -/
theorem MailInv.post (h : s.MailInv) (hlock : ¬s.thread.holdsLock) (callback : Callback) :
  s.posted ++ [callback.notice]
      = s.taken ++ (callback.post s.notifier).mailbox.notice.toList
    ↔ s.notifier.usbDevice = none
  := by
  have hnotice : (callback.post s.notifier).mailbox.notice = some callback.notice := by
    cases callback <;> rfl
  rw [h.once, pending_of_unlocked hlock, hnotice, Option.toList_some,
    List.append_cancel_right_eq, List.append_right_eq_self,
    Option.toList_eq_nil_iff]
  apply Mailbox.notice_eq_none

/-- A step delivers exactly if it is calm. -/
theorem MailInv.once_step (h : s.MailInv) (ht : s.next a = some t) :
  t.posted = t.taken ++ t.pending ↔ s.Calm a
  := by
  cases a with
  | notifyAdd usbDev allocated =>
      obtain ⟨-, rfl⟩ := next_notifyAdd ht
      refine iff_of_true (h.quiet rfl rfl (pending_eq ?_ rfl)) trivial
      apply s.notifier.deviceAdded_mailbox usbDev allocated
  | notifyRemove addr =>
      obtain ⟨-, -, rfl⟩ := next_notifyRemove ht
      refine iff_of_true (h.quiet rfl rfl (pending_eq ?_ rfl)) trivial
      apply s.notifier.deviceRemoved_mailbox addr
  | post callback =>
      obtain ⟨hlock, -, rfl⟩ := next_post ht
      unfold pending
      rw [if_neg hlock]
      apply h.post hlock callback
  | dispatch cmd data outcomes =>
      obtain ⟨hlock, notifier, ret, hdispatch, rfl⟩ := next_dispatch ht
      unfold pending
      rw [if_neg hlock, Notifier.dispatch_mailbox hdispatch]
      apply h.dispatch hlock outcomes
  | wake =>
      obtain ⟨hthread, -, rfl⟩ := next_wake ht
      refine iff_of_true (h.quiet rfl rfl (pending_eq rfl ?_)) trivial
      rw [hthread]
      rfl
  | report o =>
      obtain ⟨hthread, notifier, ret, id, -, rfl⟩ := next_report ht
      have hlock : ¬s.thread.holdsLock := by
        rw [hthread]
        apply Bool.false_ne_true
      refine iff_of_true ?_ trivial
      change s.posted = (s.taken ++ _) ++ []
      rw [List.append_nil, h.once, pending_of_unlocked hlock]
  | finish =>
      obtain ⟨ret, id, hthread, rfl⟩ := next_finish ht
      refine iff_of_true (h.quiet rfl rfl ?_) trivial
      unfold pending
      rw [hthread]
      rfl
  | rest =>
      obtain ⟨hthread, rfl⟩ := next_rest ht
      refine iff_of_true (h.quiet rfl rfl (pending_eq rfl ?_)) trivial
      rw [hthread]
      rfl
  | free addr =>
      obtain ⟨-, -, rfl⟩ := next_free ht
      apply iff_of_true (h.quiet rfl rfl (pending_eq rfl rfl)) trivial
  | configure usbDev =>
      obtain rfl := next_configure ht
      apply iff_of_true (h.quiet rfl rfl (pending_eq rfl rfl)) trivial

/-- What is posted can be posted. -/
theorem MailInv.proper_step (h : s.MailInv) (ht : s.next a = some t) :
  ∀ n ∈ t.posted, n.Proper
  := by
  cases a with
  | post callback =>
      obtain ⟨-, -, rfl⟩ := next_post ht
      exact List.forall_mem_append.mpr
        ⟨h.proper, List.forall_mem_singleton.mpr (.callback callback)⟩
  | dispatch cmd data outcomes =>
      obtain ⟨-, notifier, ret, -, rfl⟩ := next_dispatch ht
      exact List.forall_mem_append.mpr ⟨h.proper, fun n hn => .command hn⟩
  | notifyAdd usbDev allocated =>
      obtain ⟨-, rfl⟩ := next_notifyAdd ht
      apply h.proper
  | notifyRemove addr =>
      obtain ⟨-, -, rfl⟩ := next_notifyRemove ht
      apply h.proper
  | wake =>
      obtain ⟨-, -, rfl⟩ := next_wake ht
      apply h.proper
  | report o =>
      obtain ⟨-, notifier, ret, id, -, rfl⟩ := next_report ht
      apply h.proper
  | finish =>
      obtain ⟨ret, id, -, rfl⟩ := next_finish ht
      apply h.proper
  | rest =>
      obtain ⟨-, rfl⟩ := next_rest ht
      apply h.proper
  | free addr =>
      obtain ⟨-, -, rfl⟩ := next_free ht
      apply h.proper
  | configure usbDev =>
      obtain rfl := next_configure ht
      apply h.proper

theorem MailInv.step (h : s.MailInv) (ht : s.next a = some t) (hcalm : s.Calm a) :
  t.MailInv
  := ⟨(h.once_step ht).mpr hcalm, h.proper_step ht⟩

/-- The thread takes what is in the mailbox. -/
theorem MailInv.takes (h : s.MailInv) :
  ∃ as t, (∀ a ∈ as, a.ofThread) ∧ Run (fun s a t => s.next a = some t) s as t
    ∧ t.posted = s.posted ∧ t.taken = s.posted
  := by
  have hdone : s.pending = [] → ∃ as t, (∀ a ∈ as, a.ofThread)
      ∧ Run (fun s a t => s.next a = some t) s as t ∧ t.posted = s.posted ∧ t.taken = s.posted := by
    intro hpending
    refine ⟨[], s, by simp, .nil s, rfl, ?_⟩
    rw [h.once, hpending, List.append_nil]
  by_cases hlock : s.thread.holdsLock
  · apply hdone (if_pos hlock)
  cases hn : s.notifier.mailbox.notice with
  | none =>
      refine hdone ?_
      rw [pending_of_unlocked hlock, hn]
      rfl
  | some n =>
      have hpending : s.pending = [n] := by
        rw [pending_of_unlocked hlock, hn]
        rfl
      have hfull : s.notifier.usbDevice.isSome := by
        rw [Option.isSome_iff_ne_none]
        intro hempty
        rw [Mailbox.notice_eq_none.mpr hempty] at hn
        cases hn
      have hproper : n.Proper := by
        apply h.proper
        rw [h.once, hpending]
        apply List.mem_append_right _ (List.mem_singleton_self n)
      have hcmd : s.notifier.cmdType ≠ .reportInterface := by
        obtain ⟨d, -, heq⟩ := Option.map_eq_some_iff.mp hn
        have htype : s.notifier.cmdType = n.cmd := congrArg Notice.cmd heq
        rw [htype]
        exact hproper.cmd.1
      -- from `awake`, one step takes it
      obtain ⟨notifier, ret, id, hreport⟩ :
          ∃ t ret id, s.notifier.report s.live .fine = .ok (t, ret, id) := by
        unfold Notifier.report
        cases hdata : s.notifier.eventData with
        | none => exact ⟨_, _, _, rfl⟩
        | some d =>
            apply Notifier.sendEventBody_ok
            · apply Notifier.eventData_of_isInterface hdata
            · exact fun h => absurd h hcmd
      let taken : System := { s with
        notifier, thread := .finishing ret id, taken := s.taken ++ [n] }
      have hreported : System.next { s with thread := .awake } (.report .fine) = some taken := by
        rw [next_eq_some, System.step, if_neg (by simp), hreport]
        dsimp only
        rw [hn]
        rfl
      have htaken : taken.taken = s.posted := by rw [h.once, hpending]
      have hwoken : System.next { s with thread := .waiting } .wake
          = some { s with thread := .awake } := by
        rw [next_eq_some, System.step, if_pos ⟨rfl, hfull⟩]
      cases hthread : s.thread with
      | finishing ret id =>
          rw [hthread] at hlock
          apply absurd rfl hlock
      | awake =>
          have hs : s = { s with thread := .awake } := by rw [← hthread]
          refine ⟨[.report .fine], taken, by simp [Act.ofThread], ?_, rfl, htaken⟩
          rw [hs]
          exact .cons hreported (.nil _)
      | waiting =>
          have hs : s = { s with thread := .waiting } := by rw [← hthread]
          refine ⟨[.wake, .report .fine], taken, by simp [Act.ofThread], ?_, rfl, htaken⟩
          rw [hs]
          exact .cons hwoken (.cons hreported (.nil _))
      | sleeping =>
          have hrested : s.next .rest = some { s with thread := .waiting } := by
            rw [next_eq_some, System.step, if_pos hthread]
          refine ⟨[.rest, .wake, .report .fine], taken, by simp [Act.ofThread], ?_, rfl, htaken⟩
          exact .cons hrested (.cons hwoken (.cons hreported (.nil _)))

theorem MailInv.delivered (h : s.MailInv) :
  s.Delivered
  := ⟨h.once, h.takes⟩

theorem mailInv_systemNew (live : List UsbDevice) :
  (systemNew live).MailInv
  := ⟨rfl, fun _ h => absurd h List.not_mem_nil⟩

/-- A step that keeps calm delivers what it posts, and one that does not loses something. -/
theorem MailInv.delivered_iff (h : s.MailInv) (ht : s.next a = some t) :
  t.Delivered ↔ s.Calm a
  := ⟨fun hd => (h.once_step ht).mp hd.once, fun hcalm => (h.step ht hcalm).delivered⟩

end System

/-- In a calm run every notification is delivered; what happens next is delivered exactly if it is
calm as well. -/
theorem mailbox_delivers {live : List UsbDevice} {as : List Act} {s : System}
    (h : Run (fun s a t => s.next a = some t ∧ s.Calm a) (systemNew live) as s) :
  s.Delivered ∧ ∀ a t, s.next a = some t → (t.Delivered ↔ s.Calm a)
  := by
  have hinv : s.MailInv :=
    h.keeps System.MailInv (fun _ _ _ hs ht => hs.step ht.1 ht.2) (System.mailInv_systemNew live)
  exact ⟨hinv.delivered, fun a t ht => hinv.delivered_iff ht⟩

/-- A device with one interface. -/
def mouse (addr : Nat) (devnum : Int) : UsbDevice where
  addr := addr
  devnum := devnum
  bus := some 1
  descriptor := default
  actconfig := some [some ⟨3, 1, 2, 0⟩]

/-- A device is added and the event is sent, then its interface is removed. -/
def oneByOneActs : List Act :=
  [.notifyAdd (mouse 4096 2) true, .post (.added 4096), .wake, .report .fine, .finish,
   .dispatch .removeInterface (some ⟨2, 1, 0, 3, 1, 2⟩) fun _ => .fine]

theorem mailbox_delivers_oneByOne :
  ∃ s, Run (fun s a t => s.next a = some t ∧ s.Calm a) (systemNew []) oneByOneActs s
    ∧ s.posted.map Notice.cmd = [.addDevice, .removeInterface]
    ∧ s.taken.map Notice.cmd = [.addDevice]
    ∧ s.Delivered
  := by
  have hrun : ∃ s, Run (fun s a t => s.next a = some t ∧ s.Calm a) (systemNew []) oneByOneActs s
      ∧ s.posted.map Notice.cmd = [.addDevice, .removeInterface]
      ∧ s.taken.map Notice.cmd = [.addDevice] := by
    refine ⟨_, .cons ⟨rfl, trivial⟩ (.cons ⟨rfl, rfl⟩ (.cons ⟨rfl, trivial⟩ (.cons ⟨rfl, trivial⟩
      (.cons ⟨rfl, trivial⟩ (.cons ⟨rfl, .inl rfl⟩ (.nil _)))))), rfl, rfl⟩
  obtain ⟨s, hrun, hposted, htaken⟩ := hrun
  exact ⟨s, hrun, hposted, htaken, (mailbox_delivers hrun).1⟩

/-- Two devices are added before the thread runs. -/
def burstActs : List Act :=
  [.notifyAdd (mouse 4096 2) true, .post (.added 4096), .notifyAdd (mouse 8192 3) true,
   .post (.added 8192), .wake, .report .fine, .finish]

/-- The first of two notifications is lost. -/
theorem mailbox_loses :
  ∃ s, Run (fun s a t => s.next a = some t) (systemNew []) burstActs s
    ∧ s.posted = [⟨.addDevice, .device 4096, none⟩, ⟨.addDevice, .device 8192, none⟩]
    ∧ s.taken = [⟨.addDevice, .device 8192, none⟩] ∧ s.notifier.usbDevice = none ∧ ¬s.Delivered
  := by
  refine ⟨_, Run.of_foldlM (f := System.next) rfl, rfl, rfl, rfl, fun h => ?_⟩
  exact absurd (congrArg List.length h.once) (by decide)

end Pnp
