import KhdfLinux.Lib.Workers
import KhdfLinux.Pnp.GadgetNotify
import KhdfLinux.Pnp.Mailbox

/-!
# The life of the notifier

`UsbPnpNotifyInit` starts the two threads of the driver and `UsbPnpNotifyRelease` stops them, while
the kernel notifies and userspace commands.  `retires`: a thread that is told to stop takes at most
one more notification; the release does not end while a thread waits and nothing is posted to it;
and once a release has ended, no notification is taken any more, whatever is initialised again, and
another release stops the kernel.
-/

namespace Pnp

/-- What `g_usbPnpNotifyReportThread` or `g_gadgetPnpNotifyReportThread` holds: nothing yet, the
error of `kthread_run`, a thread, which is in its loop or before it and was told to stop or not, or
a thread that has ended. -/
inductive Kthread where
  | null
  | error
  | task (started stop : Bool)
  | ended
  deriving DecidableEq, Repr

/-- How the kernel stops in `kthread_stop`. -/
inductive StopFault where
  | errorPointer
  | freedTask
  deriving DecidableEq, Repr

namespace Kthread

/-- `kthread_run`, which does not return a null pointer. -/
def run (runs : Bool) : Kthread := if runs then .task false false else .error

/-- `kthread_stop`, up to its wait for the end of the thread. -/
def kthreadStop : Kthread → Except StopFault Kthread
  | .task started _ => .ok (.task started true)
  | .ended => .error .freedTask
  | _ => .error .errorPointer

/-- The thread was told to stop. -/
def stop : Kthread → Bool
  | .task _ stop => stop
  | .ended => true
  | _ => false

/-- Where the thread is, if `inside` is where its loop is. -/
def place (thread : Kthread) (inside : Worker.Place) : Worker.Place :=
  match thread with
  | .task true _ => inside
  | .ended => .ended
  | _ => .tests

/-- `UsbPnpNotifyInit` leaves no pointer null. -/
theorem ite_run_ne {thread : Kthread} (runs : Bool) :
  (if thread = .null then run runs else thread) ≠ .null
  := by
  split
  · cases runs <;> exact Kthread.noConfusion
  · assumption

/-- A thread that is created is before its loop, and one that is not created is left there. -/
theorem ite_run_place (thread : Kthread) (runs : Bool) (inside : Worker.Place) :
  (if thread = .null then run runs else thread).place inside = thread.place inside
    ∧ (if thread = .null then run runs else thread).stop = thread.stop
  := by
  split
  · rename_i hnull
    rw [hnull]
    cases runs <;> exact ⟨rfl, rfl⟩
  · exact ⟨rfl, rfl⟩

end Kthread

/-- Where the loop of the first thread is. -/
def Thread.place : Thread → Worker.Place
  | .waiting => .waits
  | .awake => .serves
  | .finishing _ _ => .clears
  | .sleeping => .tests

/-- Where the loop of the second thread is. -/
def GadgetThread.place : GadgetThread → Worker.Place
  | .waits => .waits
  | .woken | .locked => .serves
  | .done => .clears
  | .sleeps => .tests

/-- Where `UsbPnpNotifyRelease` is: it waits for a thread to end, or has yet to unregister. -/
inductive Release where
  | stopsUsb
  | stopsGadget
  | unregisters
  deriving DecidableEq, Repr

/-- The driver.  It is loaded from `UsbPnpNotifyInit` on until `UsbPnpNotifyRelease` has
unregistered its callback; `released` counts the releases that have ended. -/
structure Driver where
  usb : System
  gadget : GadgetNotifier
  usbThread : Kthread
  gadgetThread : Kthread
  loaded : Bool
  release : Option Release
  released : Nat

namespace Driver

/-- What happens. -/
inductive Act where
  /-- `UsbPnpNotifyInit`, with whether the threads can be created. -/
  | init (usbRuns gadgetRuns : Bool)
  | release
  /-- `kthread_stop` returns. -/
  | stopped
  | unregister
  /-- A thread tests `kthread_should_stop`. -/
  | testUsb
  | testGadget
  | usb (a : Pnp.Act)
  | gadget (x : GadgetNotifier.Step)
  /-- A device comes or goes while nothing is registered. -/
  | plug (usbDev : UsbDevice)
  | unplug (addr : Nat)

/-- The module is there and was not initialised yet. -/
def new (live : List UsbDevice) : Driver where
  usb := systemNew live
  gadget := .new
  usbThread := .null
  gadgetThread := .null
  loaded := false
  release := none
  released := 0

variable (s : Driver)

/-- `UsbPnpNotifyInit`. -/
def init (usbRuns gadgetRuns : Bool) : Driver :=
  { s with
    usbThread := if s.usbThread = .null then .run usbRuns else s.usbThread
    gadgetThread := if s.gadgetThread = .null then .run gadgetRuns else s.gadgetThread
    loaded := true }

/-- `UsbPnpNotifyRelease`, where it stops the second thread. -/
def stopGadget : Except StopFault Driver :=
  if s.gadgetThread = .null then .ok { s with release := some .unregisters }
  else
    s.gadgetThread.kthreadStop.map fun thread =>
      { s with gadgetThread := thread, release := some .stopsGadget }

/-- `UsbPnpNotifyRelease`, where it stops the first thread. -/
def stopUsb : Except StopFault Driver :=
  if s.usbThread = .null then s.stopGadget
  else
    s.usbThread.kthreadStop.map fun thread =>
      { s with usbThread := thread, release := some .stopsUsb }

/-- The first thread tests whether it should stop. -/
def testUsb : Option Driver :=
  match s.usbThread with
  | .task started stop =>
      if started ∧ s.usb.thread ≠ .sleeping then none
      else if stop then some { s with usbThread := .ended }
      else
        some { s with
          usbThread := .task true stop
          usb := { s.usb with thread := .waiting } }
  | _ => none

/-- The second thread tests whether it should stop. -/
def testGadget : Option Driver :=
  match s.gadgetThread with
  | .task started stop =>
      if started ∧ s.gadget.thread ≠ .sleeps then none
      else if stop then some { s with gadgetThread := .ended }
      else
        some { s with
          gadgetThread := .task true stop
          gadget := { s.gadget with thread := .waits } }
  | _ => none

/-- Whether a step of the first thread and of what posts to it may be taken: the thread has to be in
its loop, and the callback to be registered. -/
def AllowsUsb (a : Pnp.Act) : Prop :=
  match a with
  | .wake | .report _ | .finish => s.usbThread = .task true s.usbThread.stop
  | .rest => False
  | .notifyAdd _ _ | .notifyRemove _ => s.loaded
  | _ => True

instance (a : Pnp.Act) : Decidable (s.AllowsUsb a) := by
  unfold AllowsUsb
  split <;> infer_instance

/-- The same of the second thread.  The kernel sends it no signal. -/
def AllowsGadget (x : GadgetNotifier.Step) : Prop :=
  match x with
  | .wake interrupted => ¬interrupted ∧ s.gadgetThread = .task true s.gadgetThread.stop
  | .lock | .send _ | .unlock => s.gadgetThread = .task true s.gadgetThread.stop
  | .rest => False
  | .notify _ => s.loaded
  | .store _ => True

instance (x : GadgetNotifier.Step) : Decidable (s.AllowsGadget x) := by
  unfold AllowsGadget
  split <;> infer_instance

/-- A step, if it is possible, or how the kernel stops.  A driver that is loaded is not initialised
again, and is released by one caller; `usb_unregister_notify` waits for the callbacks. -/
def step : Act → Option (Except StopFault Driver)
  | .init usbRuns gadgetRuns => if s.loaded then none else some (.ok (s.init usbRuns gadgetRuns))
  | .release => if s.loaded ∧ s.release = none then some s.stopUsb else none
  | .stopped =>
      match s.release with
      | some .stopsUsb => if s.usbThread = .ended then some s.stopGadget else none
      | some .stopsGadget =>
          if s.gadgetThread = .ended then some (.ok { s with release := some .unregisters })
          else none
      | _ => none
  | .unregister =>
      if s.release = some .unregisters ∧ s.usb.callbacks = [] ∧ s.gadget.storing = [] then
        some (.ok { s with loaded := false, release := none, released := s.released + 1 })
      else none
  | .testUsb => s.testUsb.map .ok
  | .testGadget => s.testGadget.map .ok
  | .usb a =>
      if s.AllowsUsb a then (s.usb.next a).map fun usb => .ok { s with usb } else none
  | .gadget x =>
      if s.AllowsGadget x then some (.ok { s with gadget := s.gadget.next x }) else none
  | .plug usbDev =>
      if s.loaded ∨ s.usb.live.any fun d => d.addr = usbDev.addr then none
      else
        some (.ok { s with
          usb.live := usbDev :: s.usb.live
          usb.attached := s.usb.attached ++ [usbDev.addr] })
  | .unplug addr =>
      if s.loaded ∨ addr ∉ s.usb.attached then none
      else
        some (.ok { s with
          usb.attached := s.usb.attached.filter fun addr' => addr' ≠ addr })

/-- The next state. -/
def next (a : Act) : Option Driver :=
  match s.step a with
  | some (.ok t) => some t
  | _ => none

/-! ### The steps one by one -/

variable {s t : Driver}

theorem next_eq_some {a : Act} :
  s.next a = some t ↔ s.step a = some (.ok t)
  := by
  unfold next
  split
  · rename_i t' hstep
    rw [hstep]
    simp
  · rename_i hstep
    exact iff_of_false (fun h => by cases h) (hstep t)

theorem stopGadget_eq_ok (h : s.stopGadget = .ok t) :
  (s.gadgetThread = .null ∧ t = { s with release := some .unregisters })
    ∨ ∃ started stop, s.gadgetThread = .task started stop
      ∧ t = { s with gadgetThread := .task started true, release := some .stopsGadget }
  := by
  unfold stopGadget at h
  split at h
  · rename_i hnull
    cases h
    exact .inl ⟨hnull, rfl⟩
  · cases hthread : s.gadgetThread with
    | task started stop =>
        rw [hthread] at h
        cases h
        exact .inr ⟨started, stop, rfl, rfl⟩
    | null | error | ended =>
        rw [hthread] at h
        cases h

theorem stopUsb_eq_ok (h : s.stopUsb = .ok t) :
  (s.usbThread = .null ∧ s.stopGadget = .ok t)
    ∨ ∃ started stop, s.usbThread = .task started stop
      ∧ t = { s with usbThread := .task started true, release := some .stopsUsb }
  := by
  unfold stopUsb at h
  split at h
  · rename_i hnull
    exact .inl ⟨hnull, h⟩
  · cases hthread : s.usbThread with
    | task started stop =>
        rw [hthread] at h
        cases h
        exact .inr ⟨started, stop, rfl, rfl⟩
    | null | error | ended =>
        rw [hthread] at h
        cases h

theorem testUsb_eq_some (h : s.testUsb = some t) :
  ∃ started stop, s.usbThread = .task started stop
    ∧ (started → s.usb.thread = .sleeping)
    ∧ t = if stop then { s with usbThread := .ended }
      else { s with usbThread := .task true stop, usb := { s.usb with thread := .waiting } }
  := by
  unfold testUsb at h
  split at h
  · rename_i started stop hthread
    split at h
    · cases h
    · rename_i hloop
      refine ⟨started, stop, hthread, fun hstarted => ?_, ?_⟩
      · by_contra hne
        exact hloop ⟨hstarted, hne⟩
      · cases stop with
        | true | false => exact (Option.some.inj h).symm
  · cases h

theorem testGadget_eq_some (h : s.testGadget = some t) :
  ∃ started stop, s.gadgetThread = .task started stop
    ∧ (started → s.gadget.thread = .sleeps)
    ∧ t = if stop then { s with gadgetThread := .ended }
      else { s with gadgetThread := .task true stop, gadget := { s.gadget with thread := .waits } }
  := by
  unfold testGadget at h
  split at h
  · rename_i started stop hthread
    split at h
    · cases h
    · rename_i hloop
      refine ⟨started, stop, hthread, fun hstarted => ?_, ?_⟩
      · by_contra hne
        exact hloop ⟨hstarted, hne⟩
      · cases stop with
        | true | false => exact (Option.some.inj h).symm
  · cases h

/-- What a step does to the threads, to where the release is and to what is posted and served. -/
inductive Effect (s : Driver) : Act → Driver → Prop where
  | init {usbRuns gadgetRuns : Bool} (hloaded : ¬s.loaded) :
      Effect s (.init usbRuns gadgetRuns) (s.init usbRuns gadgetRuns)
  | release {t : Driver} (hloaded : s.loaded) (hrelease : s.release = none)
      (ht : s.stopUsb = .ok t) : Effect s .release t
  | stoppedUsb {t : Driver} (hrelease : s.release = some .stopsUsb) (hended : s.usbThread = .ended)
      (ht : s.stopGadget = .ok t) : Effect s .stopped t
  | stoppedGadget (hrelease : s.release = some .stopsGadget) (hended : s.gadgetThread = .ended) :
      Effect s .stopped { s with release := some .unregisters }
  | unregister (hrelease : s.release = some .unregisters) :
      Effect s .unregister
        { s with loaded := false, release := none, released := s.released + 1 }
  | testUsb {t : Driver} (ht : s.testUsb = some t) : Effect s .testUsb t
  | testGadget {t : Driver} (ht : s.testGadget = some t) : Effect s .testGadget t
  | usb {a : Pnp.Act} {usb : System} (hallows : s.AllowsUsb a) (ht : s.usb.next a = some usb) :
      Effect s (.usb a) { s with usb }
  | gadget {x : GadgetNotifier.Step} (hallows : s.AllowsGadget x) :
      Effect s (.gadget x) { s with gadget := s.gadget.next x }
  | bus {a : Act} (live : List UsbDevice) (attached : List Nat) :
      Effect s a { s with usb.live := live, usb.attached := attached }

theorem next_effect {a : Act} (h : s.next a = some t) :
  s.Effect a t
  := by
  rw [next_eq_some] at h
  cases a with
  | init usbRuns gadgetRuns =>
      obtain ⟨hloaded, h⟩ := Option.ite_none_left_eq_some.mp h
      cases h
      exact .init hloaded
  | release =>
      obtain ⟨⟨hloaded, hrelease⟩, h⟩ := Option.ite_none_right_eq_some.mp h
      exact .release hloaded hrelease (Option.some.inj h)
  | stopped =>
      unfold step at h
      dsimp only at h
      split at h
      · rename_i hrelease
        obtain ⟨hended, h⟩ := Option.ite_none_right_eq_some.mp h
        exact .stoppedUsb hrelease hended (Option.some.inj h)
      · rename_i hrelease
        obtain ⟨hended, h⟩ := Option.ite_none_right_eq_some.mp h
        cases h
        exact .stoppedGadget hrelease hended
      · cases h
  | unregister =>
      obtain ⟨⟨hrelease, -⟩, h⟩ := Option.ite_none_right_eq_some.mp h
      cases h
      exact .unregister hrelease
  | testUsb =>
      obtain ⟨u, hu, h⟩ := Option.map_eq_some_iff.mp h
      cases h
      exact .testUsb hu
  | testGadget =>
      obtain ⟨u, hu, h⟩ := Option.map_eq_some_iff.mp h
      cases h
      exact .testGadget hu
  | usb a =>
      obtain ⟨hallows, h⟩ := Option.ite_none_right_eq_some.mp h
      obtain ⟨usb, husb, h⟩ := Option.map_eq_some_iff.mp h
      cases h
      exact .usb hallows husb
  | gadget x =>
      obtain ⟨hallows, h⟩ := Option.ite_none_right_eq_some.mp h
      cases h
      exact .gadget hallows
  | plug usbDev =>
      obtain ⟨-, h⟩ := Option.ite_none_left_eq_some.mp h
      cases h
      exact .bus (usbDev :: s.usb.live) (s.usb.attached ++ [usbDev.addr])
  | unplug addr =>
      obtain ⟨-, h⟩ := Option.ite_none_left_eq_some.mp h
      cases h
      exact .bus s.usb.live (s.usb.attached.filter fun addr' => addr' ≠ addr)

/-! ### The release -/

/-- How far the driver and its release are. -/
structure Inv (s : Driver) : Prop where
  created : s.loaded → s.usbThread ≠ .null ∧ s.gadgetThread ≠ .null
  loaded : s.release ≠ none → s.loaded
  endedUsb : s.release = some .stopsGadget ∨ s.release = some .unregisters → s.usbThread = .ended
  endedGadget : s.release = some .unregisters → s.gadgetThread = .ended
  released : 0 < s.released →
    s.usbThread = .ended ∧ s.gadgetThread = .ended ∧ s.release = none

theorem inv_new (live : List UsbDevice) :
  (new live).Inv
  where
  created h := by cases h
  loaded h := absurd rfl h
  endedUsb h := by rcases h with h | h <;> cases h
  endedGadget h := by cases h
  released h := absurd h (Nat.lt_irrefl 0)

theorem Inv.stopGadget (h : s.Inv) (hloaded : s.loaded) (hended : s.usbThread = .ended)
    (hreleased : s.released = 0) (ht : s.stopGadget = .ok t) :
  t.Inv
  := by
  obtain ⟨hnull, -⟩ | ⟨started, stop, hthread, rfl⟩ := stopGadget_eq_ok ht
  · exact absurd hnull (h.created hloaded).2
  · exact {
      created := fun _ => ⟨(h.created hloaded).1, Kthread.noConfusion⟩
      loaded := fun _ => hloaded
      endedUsb := fun _ => hended
      endedGadget := fun h => by cases h
      released := fun hpos => absurd hreleased (Nat.ne_of_gt hpos) }

theorem Inv.unreleased (h : s.Inv) (hrelease : s.release ≠ none) :
  s.released = 0
  := by
  by_contra hne
  exact hrelease (h.released (Nat.pos_of_ne_zero hne)).2.2

/-- Only the driver's own steps change its threads. -/
theorem Inv.congr (h : s.Inv) (husb : t.usbThread = s.usbThread)
    (hgadget : t.gadgetThread = s.gadgetThread) (hloaded : t.loaded = s.loaded)
    (hrelease : t.release = s.release) (hreleased : t.released = s.released) :
  t.Inv
  := by
  obtain ⟨hcreated, hloaded', hendedUsb, hendedGadget, hreleased'⟩ := h
  constructor
  · rwa [husb, hgadget, hloaded]
  · rwa [hrelease, hloaded]
  · rwa [hrelease, husb]
  · rwa [hrelease, hgadget]
  · rwa [hreleased, husb, hgadget, hrelease]

theorem Inv.step {a : Act} (h : s.Inv) (ht : s.next a = some t) :
  t.Inv
  := by
  cases next_effect ht with
  | @init usbRuns gadgetRuns hloaded =>
      have hrelease : s.release = none := by
        by_contra hne
        exact hloaded (h.loaded hne)
      exact {
        created := fun _ => ⟨Kthread.ite_run_ne usbRuns, Kthread.ite_run_ne gadgetRuns⟩
        loaded := fun _ => rfl
        endedUsb := fun hlate => by
          rcases hlate with hlate | hlate <;> exact absurd (hrelease.symm.trans hlate) nofun
        endedGadget := fun hlate => absurd (hrelease.symm.trans hlate) nofun
        released := fun hpos => by
          obtain ⟨husb, hgadget, -⟩ := h.released hpos
          simp [init, husb, hgadget, hrelease] }
  | release hloaded hrelease hstop =>
      obtain ⟨hnull, -⟩ | ⟨started, stop, hthread, rfl⟩ := stopUsb_eq_ok hstop
      · exact absurd hnull (h.created hloaded).1
      · exact {
          created := fun _ => ⟨Kthread.noConfusion, (h.created hloaded).2⟩
          loaded := fun _ => hloaded
          endedUsb := fun hlate => by rcases hlate with hlate | hlate <;> cases hlate
          endedGadget := fun hlate => by cases hlate
          released := fun hpos => by
            rw [(h.released hpos).1] at hthread
            cases hthread }
  | stoppedUsb hrelease hended hstop =>
      have hbusy : s.release ≠ none := by simp [hrelease]
      exact h.stopGadget (h.loaded hbusy) hended (h.unreleased hbusy) hstop
  | stoppedGadget hrelease hended =>
      have hbusy : s.release ≠ none := by simp [hrelease]
      exact {
        created := h.created
        loaded := fun _ => h.loaded hbusy
        endedUsb := fun _ => h.endedUsb (.inl hrelease)
        endedGadget := fun _ => hended
        released := fun hpos => absurd (h.unreleased hbusy) (Nat.ne_of_gt hpos) }
  | unregister hrelease =>
      exact {
        created := fun hloaded => by cases hloaded
        loaded := fun hbusy => absurd rfl hbusy
        endedUsb := fun hlate => by rcases hlate with hlate | hlate <;> cases hlate
        endedGadget := fun hlate => by cases hlate
        released := fun _ => ⟨h.endedUsb (.inr hrelease), h.endedGadget hrelease, rfl⟩ }
  | testUsb htest =>
      obtain ⟨started, stop, hthread, -, rfl⟩ := testUsb_eq_some htest
      have hrun : s.usbThread ≠ .ended := by simp [hthread]
      have hcreated : s.loaded → s.gadgetThread ≠ .null := fun hloaded => (h.created hloaded).2
      cases stop with
      | true =>
          exact {
            created := fun hloaded => ⟨Kthread.noConfusion, hcreated hloaded⟩
            loaded := h.loaded
            endedUsb := fun _ => rfl
            endedGadget := h.endedGadget
            released := fun hpos => ⟨rfl, (h.released hpos).2⟩ }
      | false =>
          exact {
            created := fun hloaded => ⟨Kthread.noConfusion, hcreated hloaded⟩
            loaded := h.loaded
            endedUsb := fun hlate => absurd (h.endedUsb hlate) hrun
            endedGadget := h.endedGadget
            released := fun hpos => absurd (h.released hpos).1 hrun }
  | testGadget htest =>
      obtain ⟨started, stop, hthread, -, rfl⟩ := testGadget_eq_some htest
      have hrun : s.gadgetThread ≠ .ended := by simp [hthread]
      have hcreated : s.loaded → s.usbThread ≠ .null := fun hloaded => (h.created hloaded).1
      cases stop with
      | true =>
          exact {
            created := fun hloaded => ⟨hcreated hloaded, Kthread.noConfusion⟩
            loaded := h.loaded
            endedUsb := h.endedUsb
            endedGadget := fun _ => rfl
            released := fun hpos => ⟨(h.released hpos).1, rfl, (h.released hpos).2.2⟩ }
      | false =>
          exact {
            created := fun hloaded => ⟨hcreated hloaded, Kthread.noConfusion⟩
            loaded := h.loaded
            endedUsb := h.endedUsb
            endedGadget := fun hlate => absurd (h.endedGadget hlate) hrun
            released := fun hpos => absurd (h.released hpos).2.1 hrun }
  | usb | gadget | bus => exact h.congr rfl rfl rfl rfl rfl

/-- A thread that has ended is left as it is, and the release waits for it until then. -/
theorem Effect.keeps_ended {a : Act} (h : s.Effect a t) :
  (s.usbThread = .ended → t.usbThread = .ended)
    ∧ (s.gadgetThread = .ended → t.gadgetThread = .ended)
    ∧ (s.release = some .stopsUsb → t.release = some .stopsUsb ∨ t.usbThread = .ended)
    ∧ (s.release = some .stopsGadget → t.release = some .stopsGadget ∨ t.gadgetThread = .ended)
  := by
  cases h with
  | init hloaded =>
      refine ⟨fun hended => ?_, fun hended => ?_, .inl, .inl⟩
      · simp [Driver.init, hended]
      · simp [Driver.init, hended]
  | release hloaded hrelease hstop =>
      obtain ⟨-, hstop⟩ | ⟨started, stop, hthread, rfl⟩ := stopUsb_eq_ok hstop
      · obtain ⟨hthread, rfl⟩ | ⟨started, stop, hthread, rfl⟩ := stopGadget_eq_ok hstop
        · simp [hthread, hrelease]
        · simp [hthread, hrelease]
      · simp [hthread, hrelease]
  | stoppedUsb hrelease hended hstop =>
      obtain ⟨hthread, rfl⟩ | ⟨started, stop, hthread, rfl⟩ := stopGadget_eq_ok hstop
      · simp [hthread, hrelease, hended]
      · simp [hthread, hrelease, hended]
  | stoppedGadget hrelease hended => simp [hrelease, hended]
  | unregister hrelease => simp [hrelease]
  | testUsb htest =>
      obtain ⟨started, stop, hthread, -, rfl⟩ := testUsb_eq_some htest
      have hrun : s.usbThread ≠ .ended := by simp [hthread]
      cases stop <;> exact ⟨fun hended => absurd hended hrun, id, .inl, .inl⟩
  | testGadget htest =>
      obtain ⟨started, stop, hthread, -, rfl⟩ := testGadget_eq_some htest
      have hrun : s.gadgetThread ≠ .ended := by simp [hthread]
      cases stop <;> exact ⟨id, fun hended => absurd hended hrun, .inl, .inl⟩
  | usb | gadget | bus => exact ⟨id, id, .inl, .inl⟩

/-- A release that has ended is not forgotten. -/
theorem Effect.released_le {a : Act} (h : s.Effect a t) :
  s.released ≤ t.released
  := by
  cases h with
  | release hloaded hrelease hstop =>
      obtain ⟨-, hstop⟩ | ⟨started, stop, -, rfl⟩ := stopUsb_eq_ok hstop
      · obtain ⟨-, rfl⟩ | ⟨started, stop, -, rfl⟩ := stopGadget_eq_ok hstop
        · exact Nat.le_refl _
        · exact Nat.le_refl _
      · exact Nat.le_refl _
  | stoppedUsb hrelease hended hstop =>
      obtain ⟨-, rfl⟩ | ⟨started, stop, -, rfl⟩ := stopGadget_eq_ok hstop
      · exact Nat.le_refl _
      · exact Nat.le_refl _
  | unregister => exact Nat.le_succ _
  | testUsb htest =>
      obtain ⟨started, stop, -, -, rfl⟩ := testUsb_eq_some htest
      cases stop <;> exact Nat.le_refl _
  | testGadget htest =>
      obtain ⟨started, stop, -, -, rfl⟩ := testGadget_eq_some htest
      cases stop <;> exact Nat.le_refl _
  | init | stoppedGadget | usb | gadget | bus => exact Nat.le_refl _

/-! ### The threads as workers -/

/-- The first thread, which serves `g_usbDevice`. -/
def usbWorker (s : Driver) : Worker Notice where
  place := s.usbThread.place s.usb.thread.place
  stop := s.usbThread.stop
  mail := s.usb.notifier.usbDevice.isSome
  posts := s.usb.posted.length
  served := s.usb.taken

/-- The second thread, which serves `g_gadgetPnpNotifyType`. -/
def gadgetWorker (s : Driver) : Worker (Option GadgetAction) where
  place := s.gadgetThread.place s.gadget.thread.place
  stop := s.gadgetThread.stop
  mail := s.gadget.notifyType.isSome
  posts := s.gadget.notified.length
  served := s.gadget.sent

open Relation (ReflGen)

/-- What does not touch the mailbox, the thread, what is posted and what is taken. -/
theorem usbWorker_quiet {usb : System} (hmail : usb.notifier.usbDevice = s.usb.notifier.usbDevice)
    (hthread : usb.thread = s.usb.thread) (hposted : usb.posted = s.usb.posted)
    (htaken : usb.taken = s.usb.taken) :
  ReflGen Worker.Step s.usbWorker { s with usb }.usbWorker
  := by
  unfold usbWorker
  rw [hmail, hthread, hposted, htaken]

/-- The worker of a thread that is in its loop. -/
theorem usbWorker_inside {stop : Bool} (hthread : s.usbThread = .task true stop) (usb : System) :
  { s with usb }.usbWorker
    = ⟨usb.thread.place, stop, usb.notifier.usbDevice.isSome, usb.posted.length, usb.taken⟩
  := by
  unfold usbWorker
  rw [hthread]
  rfl

/-- A command posts to the first thread or leaves it alone. -/
theorem usbWorker_dispatch {notifier : Notifier} {cmd : Cmd} {data : Option AddRemoveInfo}
    (hmailbox : notifier.mailbox = s.usb.notifier.mailbox.command cmd data) :
  ReflGen Worker.Step s.usbWorker
    { s with usb := { s.usb with notifier, posted := s.usb.posted ++ postedBy cmd data } }.usbWorker
  := by
  have hmail : notifier.usbDevice = (s.usb.notifier.mailbox.command cmd data).usbDevice :=
    congrArg Mailbox.usbDevice hmailbox
  cases data with
  | none =>
      have hnone : (s.usb.notifier.mailbox.command cmd none).usbDevice
          = s.usb.notifier.usbDevice := by
        cases cmd <;> rfl
      have hposted : postedBy cmd none = [] := by cases cmd <;> rfl
      rw [hposted, List.append_nil]
      exact usbWorker_quiet (hmail.trans hnone) rfl rfl rfl
  | some info =>
      cases cmd with
      | addInterface | removeInterface =>
          refine .single (.posted ?_)
          unfold usbWorker
          rw [hmail, List.length_append]
          rfl
      | addDevice | removeDevice | reportInterface | getDevices | other cmd =>
          exact usbWorker_quiet hmail rfl (List.append_nil s.usb.posted) rfl

/-- What the devices, the commands and the thread do are steps of the worker. -/
theorem usbWorker_next {a : Pnp.Act} {usb : System} (hallows : s.AllowsUsb a)
    (ht : s.usb.next a = some usb) :
  ReflGen Worker.Step s.usbWorker { s with usb }.usbWorker
  := by
  cases a with
  | notifyAdd usbDev allocated =>
      obtain ⟨-, rfl⟩ := System.next_notifyAdd ht
      have hmailbox := s.usb.notifier.deviceAdded_mailbox usbDev allocated
      exact usbWorker_quiet (congrArg Mailbox.usbDevice hmailbox) rfl rfl rfl
  | notifyRemove addr =>
      obtain ⟨-, -, rfl⟩ := System.next_notifyRemove ht
      have hmailbox := s.usb.notifier.deviceRemoved_mailbox addr
      exact usbWorker_quiet (congrArg Mailbox.usbDevice hmailbox) rfl rfl rfl
  | post callback =>
      obtain ⟨-, -, rfl⟩ := System.next_post ht
      refine .single (.posted ?_)
      unfold usbWorker
      rw [List.length_append]
      cases callback <;> rfl
  | dispatch cmd data outcomes =>
      obtain ⟨-, notifier, ret, hdispatch, rfl⟩ := System.next_dispatch ht
      exact usbWorker_dispatch (Notifier.dispatch_mailbox hdispatch)
  | wake =>
      obtain ⟨hwaits, hmail, rfl⟩ := System.next_wake ht
      rw [usbWorker_inside hallows s.usb, usbWorker_inside hallows, hwaits]
      exact .single (.wake rfl hmail)
  | report o =>
      obtain ⟨hawake, notifier, ret, id, hreport, rfl⟩ := System.next_report ht
      have hmail : notifier.usbDevice = s.usb.notifier.usbDevice :=
        congrArg Mailbox.usbDevice (Notifier.report_mailbox hreport)
      rw [usbWorker_inside hallows s.usb, usbWorker_inside hallows, hawake, hmail]
      refine .single (.serve rfl _ ?_)
      cases s.usb.notifier.mailbox.notice with
      | none => exact Nat.zero_le 1
      | some n => exact Nat.le_refl 1
  | finish =>
      obtain ⟨ret, id, hfinishing, rfl⟩ := System.next_finish ht
      rw [usbWorker_inside hallows s.usb, usbWorker_inside hallows, hfinishing]
      exact .single (.clear rfl)
  | rest => exact hallows.elim
  | free addr =>
      obtain ⟨-, -, rfl⟩ := System.next_free ht
      exact .refl
  | configure usbDev =>
      obtain rfl := System.next_configure ht
      exact .refl

/-- The worker of a thread that is in its loop. -/
theorem gadgetWorker_inside {stop : Bool} (hthread : s.gadgetThread = .task true stop)
    (gadget : GadgetNotifier) :
  { s with gadget }.gadgetWorker
    = ⟨gadget.thread.place, stop, gadget.notifyType.isSome, gadget.notified.length,
      gadget.sent⟩
  := by
  unfold gadgetWorker
  rw [hthread]
  rfl

/-- What the gadgets and the thread do are steps of the worker. -/
theorem gadgetWorker_next {x : GadgetNotifier.Step} (hallows : s.AllowsGadget x) :
  ReflGen Worker.Step s.gadgetWorker { s with gadget := s.gadget.next x }.gadgetWorker
  := by
  unfold GadgetNotifier.next
  cases x with
  | notify action =>
      dsimp only
      split
      · exact .refl
      · unfold GadgetNotifier.callback
        split
        · refine .single (.quiet ?_)
          unfold gadgetWorker
          rw [List.length_append]
          rfl
        · refine .single (.posted ?_)
          unfold gadgetWorker
          rw [List.length_append]
          rfl
  | store action =>
      dsimp only
      split <;> exact .refl
  | wake interrupted =>
      obtain ⟨hsignal, hthread⟩ := hallows
      dsimp only
      split
      · rename_i hwake
        obtain ⟨hwaits, hmail⟩ := hwake
        rw [gadgetWorker_inside hthread s.gadget, gadgetWorker_inside hthread, hwaits]
        exact .single (.wake rfl (hmail.resolve_left hsignal))
      · exact .refl
  | lock =>
      dsimp only
      split
      · rename_i hwoken
        rw [gadgetWorker_inside hallows s.gadget, gadgetWorker_inside hallows, hwoken]
        exact .refl
      · exact .refl
  | send o =>
      dsimp only
      split
      · rename_i hlocked
        rw [gadgetWorker_inside hallows s.gadget, gadgetWorker_inside hallows, hlocked]
        unfold GadgetNotifier.sendEvent
        split
        · exact .single (.serve rfl [s.gadget.notifyType] (Nat.le_refl 1))
        · exact .single (.serveNothing rfl)
      · exact .refl
  | unlock =>
      dsimp only
      split
      · rename_i hdone
        rw [gadgetWorker_inside hallows s.gadget, gadgetWorker_inside hallows, hdone]
        exact .single (.clear rfl)
      · exact .refl
  | rest => exact hallows.elim

/-- The second thread is told to stop. -/
theorem gadgetWorker_stop (h : s.stopGadget = .ok t) :
  t.usbWorker = s.usbWorker ∧ ReflGen Worker.Step s.gadgetWorker t.gadgetWorker
  := by
  obtain ⟨-, rfl⟩ | ⟨started, stop, hthread, rfl⟩ := stopGadget_eq_ok h
  · exact ⟨rfl, .refl⟩
  · refine ⟨rfl, ?_⟩
    have hplace : s.gadgetThread.place s.gadget.thread.place
        = (Kthread.task started true).place s.gadget.thread.place := by
      rw [hthread]
      cases started <;> rfl
    unfold gadgetWorker
    rw [hplace]
    exact .single .stop

/-- The first thread is told to stop, or the second one if there is no first. -/
theorem usbWorker_stop (h : s.stopUsb = .ok t) :
  ReflGen Worker.Step s.usbWorker t.usbWorker ∧ ReflGen Worker.Step s.gadgetWorker t.gadgetWorker
  := by
  obtain ⟨-, h⟩ | ⟨started, stop, hthread, rfl⟩ := stopUsb_eq_ok h
  · obtain ⟨husb, hgadget⟩ := gadgetWorker_stop h
    rw [husb]
    exact ⟨.refl, hgadget⟩
  · refine ⟨?_, .refl⟩
    have hplace : s.usbThread.place s.usb.thread.place
        = (Kthread.task started true).place s.usb.thread.place := by
      rw [hthread]
      cases started <;> rfl
    unfold usbWorker
    rw [hplace]
    exact .single .stop

/-- The first thread is at the test of its loop. -/
theorem usbWorker_tests {started stop : Bool} (hthread : s.usbThread = .task started stop)
    (hloop : started → s.usb.thread = .sleeping) :
  s.usbWorker = { s.usbWorker with place := .tests, stop := stop }
  := by
  unfold usbWorker
  rw [hthread]
  cases started with
  | false => rfl
  | true =>
      rw [hloop rfl]
      rfl

/-- The second thread is at the test of its loop. -/
theorem gadgetWorker_tests {started stop : Bool} (hthread : s.gadgetThread = .task started stop)
    (hloop : started → s.gadget.thread = .sleeps) :
  s.gadgetWorker = { s.gadgetWorker with place := .tests, stop := stop }
  := by
  unfold gadgetWorker
  rw [hthread]
  cases started with
  | false => rfl
  | true =>
      rw [hloop rfl]
      rfl

/-- Each step of the driver is one of the workers, or none. -/
theorem Effect.workers {a : Act} (h : s.Effect a t) :
  ReflGen Worker.Step s.usbWorker t.usbWorker ∧ ReflGen Worker.Step s.gadgetWorker t.gadgetWorker
  := by
  cases h with
  | @init usbRuns gadgetRuns hloaded =>
      have husb := s.usbThread.ite_run_place usbRuns s.usb.thread.place
      have hgadget := s.gadgetThread.ite_run_place gadgetRuns s.gadget.thread.place
      unfold usbWorker gadgetWorker Driver.init
      rw [husb.1, husb.2, hgadget.1, hgadget.2]
      exact ⟨.refl, .refl⟩
  | release hloaded hrelease hstop => exact usbWorker_stop hstop
  | stoppedUsb hrelease hended hstop =>
      obtain ⟨husb, hgadget⟩ := gadgetWorker_stop hstop
      rw [husb]
      exact ⟨.refl, hgadget⟩
  | testUsb htest =>
      obtain ⟨started, stop, hthread, hloop, rfl⟩ := testUsb_eq_some htest
      refine ⟨?_, by cases stop <;> exact .refl⟩
      rw [usbWorker_tests hthread hloop]
      cases stop with
      | true => exact .single (.leave rfl rfl)
      | false => exact .single (.goOn rfl rfl)
  | testGadget htest =>
      obtain ⟨started, stop, hthread, hloop, rfl⟩ := testGadget_eq_some htest
      refine ⟨by cases stop <;> exact .refl, ?_⟩
      rw [gadgetWorker_tests hthread hloop]
      cases stop with
      | true => exact .single (.leave rfl rfl)
      | false => exact .single (.goOn rfl rfl)
  | usb hallows ht => exact ⟨usbWorker_next hallows ht, .refl⟩
  | gadget hallows => exact ⟨.refl, gadgetWorker_next hallows⟩
  | stoppedGadget | unregister | bus => exact ⟨.refl, .refl⟩

/-! ### Runs -/

/-- A run of the driver. -/
abbrev Runs (s : Driver) (acts : List Act) (t : Driver) : Prop :=
  Run (fun s a t => s.next a = some t) s acts t

/-- What is left of the driver while it is released, and after that. -/
structure Retires (s t : Driver) : Prop where
  /-- A thread that was told to stop takes at most one more notification. -/
  lastUsb : s.usbThread.stop → t.usb.taken.length ≤ s.usb.taken.length + 1
  lastGadget : s.gadgetThread.stop → t.gadget.sent.length ≤ s.gadget.sent.length + 1
  /-- The release does not get past a thread that waits until something is posted to it. -/
  heldUsb : s.release = some .stopsUsb → s.usbThread = .task true true → s.usb.thread = .waiting →
    s.usb.notifier.usbDevice = none → t.usb.posted = s.usb.posted →
      t.release = some .stopsUsb
  heldGadget : s.release = some .stopsGadget → s.gadgetThread = .task true true →
    s.gadget.thread = .waits → s.gadget.notifyType = none → t.gadget.notified = s.gadget.notified →
      t.release = some .stopsGadget
  /-- Once a release has ended, no notification is taken. -/
  silent : 0 < s.released → t.usb.taken = s.usb.taken ∧ t.gadget.sent = s.gadget.sent
  /-- Another release stops the kernel. -/
  once : 0 < s.released → t.loaded → t.step .release = some (.error .freedTask)

variable {acts : List Act}

theorem Runs.workers (h : Runs s acts t) :
  Worker.Steps s.usbWorker t.usbWorker ∧ Worker.Steps s.gadgetWorker t.gadgetWorker
  := by
  induction h with
  | nil s => exact ⟨.refl, .refl⟩
  | cons head tail ih =>
      obtain ⟨husb, hgadget⟩ := (next_effect head).workers
      exact ⟨husb.to_reflTransGen.trans ih.1, hgadget.to_reflTransGen.trans ih.2⟩

theorem Runs.released_le (h : Runs s acts t) :
  s.released ≤ t.released
  := by
  induction h with
  | nil s => exact Nat.le_refl _
  | cons head tail ih => exact Nat.le_trans (next_effect head).released_le ih

/-- The release waits for the first thread until it has ended. -/
theorem Runs.stopsUsb (h : Runs s acts t) (hrelease : s.release = some .stopsUsb) :
  t.release = some .stopsUsb ∨ t.usbThread = .ended
  := by
  apply h.keeps (fun s => s.release = some .stopsUsb ∨ s.usbThread = .ended) _ (.inl hrelease)
  intro s a t hs ht
  obtain ⟨hended, -, hstops, -⟩ := (next_effect ht).keeps_ended
  exact hs.elim hstops fun h => .inr (hended h)

/-- The release waits for the second thread until it has ended. -/
theorem Runs.stopsGadget (h : Runs s acts t) (hrelease : s.release = some .stopsGadget) :
  t.release = some .stopsGadget ∨ t.gadgetThread = .ended
  := by
  apply h.keeps (fun s => s.release = some .stopsGadget ∨ s.gadgetThread = .ended) _ (.inl hrelease)
  intro s a t hs ht
  obtain ⟨-, hended, -, hstops⟩ := (next_effect ht).keeps_ended
  exact hs.elim hstops fun h => .inr (hended h)

/-- A driver that was released and loaded again cannot be released. -/
theorem Inv.release_faults (h : s.Inv) (hreleased : 0 < s.released) (hloaded : s.loaded) :
  s.step .release = some (.error .freedTask)
  := by
  obtain ⟨husb, -, hrelease⟩ := h.released hreleased
  have hstop : s.stopUsb = .error .freedTask := by
    unfold stopUsb
    rw [husb]
    rfl
  unfold Driver.step
  dsimp only
  rw [if_pos ⟨hloaded, hrelease⟩, hstop]

end Driver

open Driver in
/-- Over any run of the driver, the threads that are told to stop retire, once and for all. -/
theorem driver_retires {live : List UsbDevice} {acts acts' : List Driver.Act} {s t : Driver}
    (hs : Runs (new live) acts s) (ht : Runs s acts' t) :
  Retires s t
  := by
  have hinv : s.Inv := hs.keeps Inv (fun _ _ _ h hstep => h.step hstep) (inv_new live)
  have hinv' : t.Inv := ht.keeps Inv (fun _ _ _ h hstep => h.step hstep) hinv
  obtain ⟨husb, hgadget⟩ := ht.workers
  refine ⟨husb.served_le, hgadget.served_le, ?_, ?_, ?_, ?_⟩
  · intro hrelease hthread hwaits hmail hposted
    have hplace : t.usbWorker.place = .waits := by
      apply husb.waits
      · simp [usbWorker, hthread, hwaits, Kthread.place, Thread.place]
      · simp [usbWorker, hmail]
      · simp [usbWorker, hposted]
    refine (ht.stopsUsb hrelease).resolve_right fun hended => ?_
    rw [usbWorker, hended] at hplace
    cases hplace
  · intro hrelease hthread hwaits hmail hposted
    have hplace : t.gadgetWorker.place = .waits := by
      apply hgadget.waits
      · simp [gadgetWorker, hthread, hwaits, Kthread.place, GadgetThread.place]
      · simp [gadgetWorker, hmail]
      · simp [gadgetWorker, hposted]
    refine (ht.stopsGadget hrelease).resolve_right fun hended => ?_
    rw [gadgetWorker, hended] at hplace
    cases hplace
  · intro hreleased
    obtain ⟨hendedUsb, hendedGadget, -⟩ := hinv.released hreleased
    exact ⟨(husb.of_ended (congrArg (Kthread.place · _) hendedUsb)).2,
      (hgadget.of_ended (congrArg (Kthread.place · _) hendedGadget)).2⟩
  · intro hreleased hloaded
    exact hinv'.release_faults (Nat.lt_of_lt_of_le hreleased ht.released_le) hloaded

/-- A device without interfaces. -/
def stick : UsbDevice where
  addr := 4096
  devnum := 2
  bus := some 1
  descriptor := default
  actconfig := some []

namespace Driver

/-- The driver is loaded, and is released while both threads wait. -/
def startActs : List Act :=
  [.init true true, .testUsb, .testGadget, .release]

/-- A device and a gadget are added, and each thread takes its notification and ends. -/
def stopActs : List Act :=
  [.usb (.notifyAdd stick true), .usb (.post (.added 4096)), .usb .wake, .usb (.report .fine),
   .usb .finish, .testUsb, .stopped, .gadget (.notify .add), .gadget (.store .add),
   .gadget (.wake false), .gadget .lock, .gadget (.send ⟨true, true, true, 0⟩), .gadget .unlock,
   .testGadget, .stopped, .unregister]

/-- The driver is loaded again, and the device is removed. -/
def againActs : List Act :=
  [.init true true, .usb (.notifyRemove 4096), .usb (.post (.removed 4096))]

end Driver

open Driver in
theorem driver_retires_reloaded :
  ∃ s t u, Runs (new []) startActs s ∧ Runs s stopActs t ∧ Runs t againActs u
    ∧ s.release = some .stopsUsb ∧ t.released = 1 ∧ t.usb.taken.length = 1 ∧ u.loaded
    ∧ u.usb.posted.length = 2 ∧ Retires s t ∧ Retires t u
  := by
  have hruns : ∃ s t u, Runs (new []) startActs s ∧ Runs s stopActs t ∧ Runs t againActs u
      ∧ s.release = some .stopsUsb ∧ t.released = 1 ∧ t.usb.taken.length = 1 ∧ u.loaded
      ∧ u.usb.posted.length = 2 :=
    ⟨_, _, _, Run.of_foldlM (f := Driver.next) rfl, Run.of_foldlM (f := Driver.next) rfl,
      Run.of_foldlM (f := Driver.next) rfl, rfl, rfl, rfl, rfl, rfl⟩
  obtain ⟨s, t, u, hs, ht, hu, hrelease, hreleased, htaken, hloaded, hposted⟩ := hruns
  exact ⟨s, t, u, hs, ht, hu, hrelease, hreleased, htaken, hloaded, hposted, driver_retires hs ht,
    driver_retires (hs.append ht) hu⟩

end Pnp
