import KhdfLinux.Usb.Registry
import KhdfLinux.Usb.SetupState

/-!
# Polling

`ffs_ep0_poll` looks at the events while there is no setup request, and otherwise at the replies
that are completed; it waits on the queue that belongs to what it looks at.  `ep0_poll_wakes_iff`
tells when a poll that waits misses what it waits for, and `ep0_poll_starves` that arrivals do not
end one that waits for replies.
-/

namespace Ffs

open Exec

/-! ### The poll -/

/-- The wait queues `ev.waitq` and `wait_que`. -/
inductive WaitQueue where
  | evWaitq
  | waitQue
  deriving DecidableEq, Repr

/-- What a poll returns besides `EPOLLWRNORM`, and where it waits. -/
structure Poll where
  epollin : Bool
  epollout : Bool
  queue : Option WaitQueue
  deriving DecidableEq, Repr

/-- The poll reports something, so that its caller does not sleep. -/
def Poll.Ready (poll : Poll) : Prop := poll.epollin ∨ poll.epollout

/-- `ffs_ep0_poll`, where `mutex` can be taken or not. -/
def ffsEp0Poll (state : FfsState) (locked : Bool) (s : Ep0) : Poll :=
  if ¬locked then ⟨false, false, none⟩
  else match state with
    | .readDescriptors | .readStrings => ⟨false, true, none⟩
    | .active =>
        match s.state with
        | .noSetup => ⟨s.ev.count ≠ 0, false, some .evWaitq⟩
        | .pending | .cancelled => ⟨false, ¬s.fifo.isEmpty, some .waitQue⟩
    | .closing | .deactivated => ⟨false, false, none⟩

/-- The queue on which a step wakes those who wait. -/
def Ep0Act.wakes : Ep0Act → Option WaitQueue
  | .event _ | .setup _ => some .evWaitq
  | .asyncComplete _ _ => some .waitQue
  | _ => none

theorem Ep0Act.Arrives.wakes {a : Ep0Act} (h : a.Arrives) :
  a.wakes = some .evWaitq
  := by
  cases a with
  | event => rfl
  | setup => rfl
  | _ => cases h

/-- The host or the controller does it, and not a call. -/
def Ep0Act.OfHost : Ep0Act → Prop
  | .event _ | .setup _ | .complete _ | .completed _ | .asyncComplete _ _ => True
  | _ => False

namespace Ep0

/-- A poll while the function is active and no call holds `mutex`. -/
abbrev poll (s : Ep0) : Poll := ffsEp0Poll .active true s

/-- A step that does not wake a poll which waits on the queue. -/
def Asleep (queue : Option WaitQueue) (s : Ep0) (a : Ep0Act) (t : Ep0) : Prop :=
  s.step a = some t ∧ (a.wakes = none ∨ a.wakes ≠ queue)

/-- A step of the host and the controller, while no call is made. -/
def HostStep (s : Ep0) (a : Ep0Act) (t : Ep0) : Prop := s.step a = some t ∧ a.OfHost

variable {s t : Ep0} {a : Ep0Act}

theorem ready_iff :
  s.poll.Ready ↔ if s.state = .noSetup then s.ev.count ≠ 0 else s.fifo ≠ []
  := by
  unfold Poll.Ready poll ffsEp0Poll
  cases hstate : s.state with
  | noSetup => simp
  | pending => simp
  | cancelled => simp

theorem queue_poll :
  s.poll.queue = if s.state = .noSetup then some .evWaitq else some .waitQue
  := by
  unfold poll ffsEp0Poll
  cases hstate : s.state with
  | noSetup => simp
  | pending => simp
  | cancelled => simp

/-! ### What a step does to what a poll looks at -/

/-- The events are in order, and a read that waits wants some. -/
structure Fed (s : Ep0) : Prop where
  valid : s.ev.Valid
  wanted : ∀ n, s.pc = .awaitEvents n → 1 ≤ n

/-- An arrival adds an event, and cancels a setup request that is pending. -/
structure Arrived (s t : Ep0) : Prop where
  count : t.ev.count ≠ 0
  state : t.state = s.state.abort
  pc : t.pc = s.pc
  inflight : t.inflight = s.inflight
  signalled : t.signalled = s.signalled
  async : t.async = s.async
  fifo : t.fifo = s.fifo

/-- An event arrives, events are taken, a reply is completed or its event taken, or nothing comes
or goes and a setup request may be concluded. -/
inductive Effect (s t : Ep0) : Ep0Act → Prop where
  | arrived {a : Ep0Act} (ha : a.Arrives) (harrived : s.Arrived t) : Effect s t a
  | taken {copied : Bool} (hcount : s.ev.count ≠ 0) (hfifo : t.fifo = s.fifo) :
      Effect s t (.readEvents copied)
  | stored {i : Nat} {stored : Bool} (hev : t.ev = s.ev) : Effect s t (.asyncComplete i stored)
  | got (hcount : t.ev.count = s.ev.count) (hfifo : s.fifo ≠ []) (hstate : t.state = .noSetup) :
      Effect s t .getEp0Event
  | concluded {a : Ep0Act} (hcount : t.ev.count = s.ev.count) (hfifo : t.fifo = s.fifo)
      (hstate : t.state = s.state ∨ t.state = .noSetup) : Effect s t a

/-- Nothing comes or goes. -/
theorem Fed.concluded (h : s.Fed) (hev : t.ev = s.ev ∨ t.ev = s.assign.ev) (hfifo : t.fifo = s.fifo)
    (hpc : ∀ n, t.pc = .awaitEvents n → 1 ≤ n) :
  t.Fed ∧ s.Effect t a
  := by
  obtain hev | hev := hev
  · exact ⟨⟨hev ▸ h.valid, hpc⟩, .concluded (by rw [hev]) hfifo (.inl (by rw [state, hev]))⟩
  · refine ⟨⟨?_, hpc⟩, .concluded (by rw [hev]; rfl) hfifo (.inr (by rw [state, hev]; rfl))⟩
    rw [hev]
    exact ⟨h.valid.count_le, h.valid.distinct⟩

/-- A call that makes a check. -/
theorem Fed.goOn {part : Exec FfsEv Ep0Pc} {k : Nat} (h : s.Fed) (hpart : IsCheck part)
    (hstep : { s with owner := k }.goOn part = some t) :
  t.Fed ∧ s.Effect t a
  := by
  obtain ⟨-, rfl⟩ | ⟨-, pc, hpc, rfl⟩ := goOn_cases hpart hstep
  · exact h.concluded (.inr rfl) rfl nofun
  · refine h.concluded (.inl rfl) rfl fun n hn => ?_
    dsimp only at hn
    rw [hn] at hpc
    exact hpc.2

/-- An arrival, with the request that it may carry. -/
theorem Fed.add {type : EventType} (h : s.Fed) (creq : UsbCtrlrequest) (arrived : Nat)
    (hstep : Ep0.add { s with ev := { s.ev with setup := creq }, arrived } type = some t) :
  t.Fed ∧ s.Arrived t
  := by
  have hvalid : FfsEv.Valid { s.ev with setup := creq } := ⟨h.valid.count_le, h.valid.distinct⟩
  obtain ⟨ev, hrun, -, hcount, hstate, -⟩ := ffsEventAdd_spec hvalid type
  unfold Ep0.add at hstep
  dsimp only at hstep
  rw [hrun] at hstep
  obtain rfl := Option.some.inj hstep
  refine ⟨⟨hvalid.add hrun, h.wanted⟩, ?_, hstate, rfl, rfl, rfl, rfl, rfl⟩
  dsimp only
  rw [hcount]
  exact Nat.succ_ne_zero _

theorem Fed.arrives (h : s.Fed) (ha : a.Arrives) (hstep : s.step a = some t) :
  t.Fed ∧ s.Arrived t
  := by
  cases a with
  | event type => exact h.add s.ev.setup s.arrived (Option.ite_none_left_eq_some.mp hstep).2
  | setup creq => exact h.add creq (s.arrived + 1) hstep
  | _ => cases ha

/-- A read that gets its events. -/
theorem Fed.take {n : Nat} {copied : Bool} (h : s.Fed) (hpc : s.pc = .awaitEvents n)
    (hcount : s.ev.count ≠ 0) (hstep : s.take n copied = some t) :
  t.Fed ∧ s.Effect t (.readEvents copied)
  := by
  obtain ⟨ev, hvalid, -, rfl⟩ := take_cases h.valid (h.wanted n hpc) hcount hstep
  exact ⟨⟨hvalid, nofun⟩, .taken hcount rfl⟩

/-- Each step keeps the events in order, and has one of the effects. -/
theorem Fed.step (h : s.Fed) (hstep : s.step a = some t) :
  t.Fed ∧ s.Effect t a
  := by
  cases a with
  | event type =>
      exact (h.arrives (a := .event type) trivial hstep).imp_right (.arrived trivial)
  | setup creq =>
      exact (h.arrives (a := .setup creq) trivial hstep).imp_right (.arrived trivial)
  | enter =>
      obtain ⟨-, rfl⟩ | ⟨-, rfl⟩ := enter_cases hstep
      · exact h.concluded (.inr rfl) rfl h.wanted
      · exact h.concluded (.inl rfl) rfl h.wanted
  | write => exact h.goOn isCheck_write (Option.ite_none_right_eq_some.mp hstep).2
  | read len nonblock =>
      exact h.goOn (isCheck_read len nonblock) (Option.ite_none_right_eq_some.mp hstep).2
  | readEvents copied =>
      unfold Ep0.step at hstep
      cases hpc : s.pc with
      | awaitEvents n =>
          rw [hpc] at hstep
          obtain ⟨hcount, htake⟩ := Option.ite_none_left_eq_some.mp hstep
          exact h.take hpc hcount htake
      | _ => simp only [hpc, reduceCtorEq] at hstep
  | interruptRead =>
      unfold Ep0.step at hstep
      cases hpc : s.pc with
      | awaitEvents n =>
          rw [hpc] at hstep
          cases hstep
          exact h.concluded (.inl rfl) rfl fun _ => Ep0Pc.noConfusion
      | _ => simp only [hpc, reduceCtorEq] at hstep
  | stall =>
      obtain ⟨hpc, hstep⟩ := Option.ite_none_right_eq_some.mp hstep
      rw [ffsEp0Stall, EStateM.run_bind, EStateM.run_get] at hstep
      by_cases hstall : s.ev.canStall
      · simp only [hstall, if_true] at hstep
        have ht : { s.assign.answer s.owner with pc := .idle } = t := Option.some.inj hstep
        subst ht
        exact h.concluded (.inr rfl) rfl fun _ => Ep0Pc.noConfusion
      · simp only [hstall] at hstep
        cases hstep
        exact h.concluded (.inl rfl) rfl fun _ => Ep0Pc.noConfusion
  | prepareFails =>
      obtain ⟨hpc, hstep⟩ := Option.ite_none_right_eq_some.mp hstep
      cases hstep
      exact h.concluded (.inl rfl) rfl fun _ => Ep0Pc.noConfusion
  | recheck =>
      exact h.goOn isCheck_recheck (Option.ite_none_right_eq_some.mp hstep).2
  | queue accepted =>
      obtain ⟨hpc, hstep⟩ := Option.ite_none_right_eq_some.mp hstep
      cases accepted with
      | true =>
          cases hstep
          exact h.concluded (.inl rfl) rfl fun _ => Ep0Pc.noConfusion
      | false =>
          cases hstep
          exact h.concluded (.inl rfl) rfl fun _ => Ep0Pc.noConfusion
  | wake =>
      obtain ⟨hpc, hstep⟩ := Option.ite_none_right_eq_some.mp hstep
      cases hstep
      exact h.concluded (.inl rfl) rfl fun _ => Ep0Pc.noConfusion
  | interruptWait =>
      obtain ⟨hpc, hstep⟩ := Option.ite_none_right_eq_some.mp hstep
      cases hstep
      exact h.concluded (.inl rfl) rfl fun _ => Ep0Pc.noConfusion
  | finish =>
      obtain ⟨hpc, hstep⟩ := Option.ite_none_right_eq_some.mp hstep
      cases hstep
      exact h.concluded (.inr rfl) rfl fun _ => Ep0Pc.noConfusion
  | iorw aio accepted =>
      cases accepted with
      | true =>
          cases aio with
          | true =>
              cases hstep
              exact h.concluded (.inl rfl) rfl h.wanted
          | false =>
              cases hstep
              exact h.concluded (.inl rfl) rfl h.wanted
      | false =>
          cases aio with
          | true =>
              cases hstep
              exact h.concluded (.inl rfl) rfl h.wanted
          | false =>
              cases hstep
              exact h.concluded (.inl rfl) rfl h.wanted
  | iorwWake =>
      obtain ⟨hcalls, hstep⟩ := Option.ite_none_right_eq_some.mp hstep
      cases hstep
      exact h.concluded (.inl rfl) rfl h.wanted
  | complete i =>
      obtain ⟨k, -, rfl⟩ := Option.map_eq_some_iff.mp hstep
      exact h.concluded (.inl rfl) rfl h.wanted
  | completed i =>
      obtain ⟨k, -, rfl⟩ := Option.map_eq_some_iff.mp hstep
      exact h.concluded (.inr rfl) rfl h.wanted
  | asyncComplete i stored =>
      obtain ⟨k, -, rfl⟩ := Option.map_eq_some_iff.mp hstep
      exact ⟨⟨h.valid, h.wanted⟩, .stored rfl⟩
  | getEp0Event =>
      obtain ⟨k, hk, rfl⟩ := Option.map_eq_some_iff.mp hstep
      refine ⟨⟨⟨h.valid.count_le, h.valid.distinct⟩, h.wanted⟩, .got rfl (fun hnil => ?_) rfl⟩
      rw [hnil] at hk
      cases hk

theorem fed_new : ep0New.Fed
  := ⟨FfsEv.valid_of_empty rfl, nofun⟩

/-! ### What a poll reports -/

/-- A poll reports what a call gets at once: events, or the event of a reply that is completed
while there is a setup request. -/
structure PollAgrees (s : Ep0) : Prop where
  epollin : s.poll.epollin ↔ ∀ len, usbFunctionfsEventSize ≤ len →
    ∃ t u, s.step (.read len true) = some t ∧ t.step (.readEvents true) = some u
  epollout : s.poll.epollout ↔ s.state ≠ .noSetup ∧ ∃ t, s.step .getEp0Event = some t

/-- A read for some events, while there are some and no setup request. -/
theorem ffsEp0Read_run {ev : FfsEv} {len : Nat} {nonblock : Bool}
    (hstate : ev.setupState = .noSetup) (hcount : ev.count ≠ 0)
    (hlen : usbFunctionfsEventSize ≤ len) :
  (ffsEp0Read len nonblock).run ev = .ok (.awaitEvents (len / usbFunctionfsEventSize)) ev
  := by
  have hn : len / usbFunctionfsEventSize ≠ 0 := Nat.div_ne_zero_iff.mpr ⟨by decide, hlen⟩
  obtain ⟨state, types, count, canStall, setup⟩ := ev
  obtain rfl : state = .noSetup := hstate
  unfold ffsEp0Read
  rw [EStateM.run_bind, clearCancelled_run]
  dsimp only
  rw [EStateM.run_bind, EStateM.run_get]
  dsimp only
  rw [if_neg hn, if_neg fun h => hcount h.2]
  rfl

/-- A read that waits and finds events gets some. -/
theorem take_of_count {n : Nat} (hvalid : t.ev.Valid) (hn : 1 ≤ n) (hcount : t.ev.count ≠ 0) :
  ∃ u, t.take n true = some u
  := by
  have hpos := Nat.pos_of_ne_zero hcount
  obtain ⟨ev, htake, -⟩ := ffsEp0ReadEvents_spec (n := min n t.ev.count) hvalid (by omega)
    (Nat.min_le_right _ _) true
  unfold Ep0.take
  rw [htake]
  exact ⟨_, rfl⟩

/-- A read that finds events while there is no setup request. -/
theorem Fed.read_events (h : s.Fed) (hidle : s.pc = .idle) (hstate : s.state = .noSetup)
    (hcount : s.ev.count ≠ 0) {len : Nat} (hlen : usbFunctionfsEventSize ≤ len) :
  ∃ t u, s.step (.read len true) = some t ∧ t.step (.readEvents true) = some u
  := by
  have hn : 1 ≤ len / usbFunctionfsEventSize := (Nat.one_le_div_iff (by decide)).mpr hlen
  have hread : s.step (.read len true) = some { s with
      owner := s.handed
      pc := .awaitEvents (len / usbFunctionfsEventSize) } := by
    unfold Ep0.step
    dsimp only
    rw [if_pos hidle]
    unfold Ep0.goOn
    rw [ffsEp0Read_run hstate hcount hlen]
  obtain ⟨u, htake⟩ := take_of_count (t := { s with
      owner := s.handed
      pc := .awaitEvents (len / usbFunctionfsEventSize) }) h.valid hn hcount
  exact ⟨_, u, hread, (if_neg hcount).trans htake⟩

/-- What a read finds that waits for events. -/
theorem awaits_of_step {copied : Bool} {u : Ep0} (hstep : t.step (.readEvents copied) = some u) :
  (∃ n, t.pc = .awaitEvents n) ∧ t.ev.count ≠ 0
  := by
  unfold Ep0.step at hstep
  cases hpc : t.pc with
  | awaitEvents n =>
      rw [hpc] at hstep
      exact ⟨⟨n, rfl⟩, (Option.ite_none_left_eq_some.mp hstep).1⟩
  | _ => simp only [hpc, reduceCtorEq] at hstep

/-- A read that gets events at once has found some, and no setup request. -/
theorem events_of_read {len : Nat} {u : Ep0} (hread : s.step (.read len true) = some t)
    (hstep : t.step (.readEvents true) = some u) :
  s.state = .noSetup ∧ s.ev.count ≠ 0
  := by
  obtain ⟨⟨n, hpc⟩, hcount⟩ := awaits_of_step hstep
  obtain ⟨-, rfl⟩ | ⟨-, pc, hcheck, rfl⟩ :=
    goOn_cases (isCheck_read len true) (Option.ite_none_right_eq_some.mp hread).2
  · cases hpc
  · dsimp only at hpc
    rw [hpc] at hcheck
    exact ⟨hcheck.1, hcount⟩

theorem Fed.pollAgrees (h : s.Fed) (hidle : s.pc = .idle) :
  s.PollAgrees
  := by
  constructor
  · have hin : s.poll.epollin ↔ s.state = .noSetup ∧ s.ev.count ≠ 0 := by
      unfold poll ffsEp0Poll
      cases hstate : s.state with
      | noSetup => simp
      | pending => simp
      | cancelled => simp
    rw [hin]
    constructor
    · rintro ⟨hstate, hcount⟩ len hlen
      exact h.read_events hidle hstate hcount hlen
    · intro hreads
      obtain ⟨t, u, hread, hstep⟩ := hreads _ (Nat.le_refl _)
      exact events_of_read hread hstep
  · have hout : s.poll.epollout ↔ s.state ≠ .noSetup ∧ s.fifo ≠ [] := by
      unfold poll ffsEp0Poll
      cases hstate : s.state with
      | noSetup => simp
      | pending => simp
      | cancelled => simp
    rw [hout]
    apply and_congr_right
    intro hstate
    constructor
    · intro hfifo
      obtain ⟨k, fifo, heq⟩ := List.exists_cons_of_ne_nil hfifo
      refine ⟨_, Option.map_eq_some_iff.mpr ⟨k, ?_, rfl⟩⟩
      rw [heq]
      rfl
    · rintro ⟨t, hstep⟩ hnil
      obtain ⟨k, hk, -⟩ := Option.map_eq_some_iff.mp hstep
      rw [hnil] at hk
      cases hk

/-! ### Polls that wait -/

/-- While a poll waits for events, there are none. -/
theorem Fed.asleep_events {as : List Ep0Act} (h : s.Fed) (hstate : s.state = .noSetup)
    (hcount : s.ev.count = 0) (hrun : Run (Asleep (some .evWaitq)) s as t) :
  t.state = .noSetup ∧ t.ev.count = 0
  := by
  have hkept : t.Fed ∧ t.state = .noSetup ∧ t.ev.count = 0 := by
    refine hrun.keeps (fun u => u.Fed ∧ u.state = .noSetup ∧ u.ev.count = 0) ?_ ⟨h, hstate, hcount⟩
    rintro u a v ⟨hu, hustate, hucount⟩ ⟨hstep, hasleep⟩
    obtain ⟨hv, heffect⟩ := hu.step hstep
    refine ⟨hv, ?_⟩
    cases heffect with
    | arrived ha => exact absurd hasleep (by simp [ha.wakes])
    | taken hucount' hfifo => exact absurd hucount hucount'
    | stored hev => exact ⟨(congrArg FfsEv.setupState hev).trans hustate, hev ▸ hucount⟩
    | got hvcount hfifo hvstate => exact ⟨hvstate, hvcount.trans hucount⟩
    | concluded hvcount hfifo hvstate =>
        refine ⟨?_, hvcount.trans hucount⟩
        rw [hustate] at hvstate
        exact hvstate.elim id id
  exact hkept.2

/-- While a poll waits for replies, none is completed that is stored. -/
theorem Fed.asleep_replies {as : List Ep0Act} (h : s.Fed) (hfifo : s.fifo = [])
    (hrun : Run (Asleep (some .waitQue)) s as t) :
  t.fifo = []
  := by
  have hkept : t.Fed ∧ t.fifo = [] := by
    refine hrun.keeps (fun u => u.Fed ∧ u.fifo = []) ?_ ⟨h, hfifo⟩
    rintro u a v ⟨hu, hufifo⟩ ⟨hstep, hasleep⟩
    obtain ⟨hv, heffect⟩ := hu.step hstep
    refine ⟨hv, ?_⟩
    cases heffect with
    | arrived ha harrived => exact harrived.fifo.trans hufifo
    | taken hcount hvfifo => exact hvfifo.trans hufifo
    | stored => exact absurd hasleep (by simp [Ep0Act.wakes])
    | got hcount hne => exact absurd hufifo hne
    | concluded hcount hvfifo => exact hvfifo.trans hufifo
  exact hkept.2

theorem fed_of_run {as : List Ep0Act} (h : Run Step ep0New as s) :
  s.Fed
  := h.keeps Fed (fun _ _ _ hs hstep => (hs.step hstep).1) fed_new

/-- There is a setup request, and no reply to be completed. -/
structure Unanswered (s : Ep0) : Prop where
  state : s.state ≠ .noSetup
  inflight : s.inflight = []
  signalled : s.signalled = []
  async : s.async = []
  fifo : s.fifo = []

/-- While no call is made and no reply is to be completed, only arrivals are possible. -/
theorem HostStep.arrives (h : s.Unanswered) (hstep : s.HostStep a t) :
  a.Arrives
  := by
  obtain ⟨hstep, hhost⟩ := hstep
  cases a with
  | event => trivial
  | setup => trivial
  | complete i =>
      obtain ⟨k, hk, -⟩ := Option.map_eq_some_iff.mp hstep
      rw [h.inflight] at hk
      cases hk
  | completed i =>
      obtain ⟨k, hk, -⟩ := Option.map_eq_some_iff.mp hstep
      rw [h.signalled] at hk
      cases hk
  | asyncComplete i stored =>
      obtain ⟨k, hk, -⟩ := Option.map_eq_some_iff.mp hstep
      rw [h.async] at hk
      cases hk
  | _ => cases hhost

theorem abort_cancelled {state : SetupState} (h : state ≠ .noSetup) :
  state.abort = .cancelled
  := by
  cases state with
  | noSetup => exact absurd rfl h
  | pending => rfl
  | cancelled => rfl

theorem Unanswered.step (h : s.Unanswered) (hs : s.Arrived t) :
  t.Unanswered ∧ t.state = .cancelled
  := by
  have hstate : t.state = .cancelled := hs.state.trans (abort_cancelled h.state)
  refine ⟨⟨?_, hs.inflight.trans h.inflight, hs.signalled.trans h.signalled,
    hs.async.trans h.async, hs.fifo.trans h.fifo⟩, hstate⟩
  rw [hstate]
  nofun

/-- In each state between two steps of the host nobody who waits for replies is woken, and after
the first of them the setup request is cancelled and there are events. -/
theorem Unanswered.run {as : List Ep0Act} (hfed : s.Fed) (h : s.Unanswered)
    (hrun : Run HostStep s as t) :
  (∀ a ∈ as, a.wakes ≠ some .waitQue) ∧ t.Unanswered ∧ t.pc = s.pc
    ∧ (as ≠ [] → t.state = .cancelled ∧ t.ev.count ≠ 0)
  := by
  induction hrun with
  | nil s => exact ⟨nofun, h, rfl, fun hne => absurd rfl hne⟩
  | @cons s u t a as head tail ih =>
      have ha := head.arrives h
      obtain ⟨hufed, hu⟩ := hfed.arrives ha head.1
      obtain ⟨hunanswered, hustate⟩ := h.step hu
      obtain ⟨hwakes, ht, hpc, hlast⟩ := ih hufed hunanswered
      refine ⟨?_, ht, hpc.trans hu.pc, fun _ => ?_⟩
      · rintro b (_ | ⟨_, hb⟩)
        · rw [ha.wakes]
          nofun
        · exact hwakes b hb
      · cases as with
        | nil =>
            cases tail
            exact ⟨hustate, hu.count⟩
        | cons b bs => exact hlast (List.cons_ne_nil b bs)

/-- A read that reports a cancellation, while there are events. -/
theorem read_cancelled (hidle : s.pc = .idle) (hstate : s.state = .cancelled)
    (hcount : s.ev.count ≠ 0) (len : Nat) (nonblock : Bool) :
  ∃ u, s.step (.read len nonblock) = some u ∧ u.reports = s.reports + 1 ∧ u.poll.Ready
  := by
  have hrun : (ffsEp0Read len nonblock).run s.ev
      = .error (.ret (-eidrm)) { s.ev with setupState := .noSetup } := by
    unfold ffsEp0Read
    rw [EStateM.run_bind, clearCancelled_run]
    rw [show s.ev.setupState = .cancelled from hstate]
    rfl
  have hstep : s.step (.read len nonblock)
      = some ({ s.assign with owner := s.handed, pc := .idle }.returns (-eidrm)) := by
    unfold Ep0.step
    dsimp only
    rw [if_pos hidle]
    unfold Ep0.goOn
    rw [hrun]
    rfl
  exact ⟨_, hstep, rfl, ready_iff.mpr hcount⟩

end Ep0

/-- In every state that is reached a poll reports what a call gets at once, and one that waits
misses what a new poll reports exactly when the setup request for whose replies it waits was
concluded meanwhile, and events have arrived. -/
theorem ep0_poll_wakes_iff
    {s : Ep0} {as : List Ep0Act} (h : Run Ep0.Step ep0New as s) (hidle : s.pc = .idle) :
  s.PollAgrees ∧ (¬s.poll.Ready → ∀ {bs : List Ep0Act} {t : Ep0},
    Run (Ep0.Asleep s.poll.queue) s bs t →
      (t.poll.Ready ↔ s.state ≠ .noSetup ∧ t.state = .noSetup ∧ t.ev.count ≠ 0))
  := by
  have hfed := Ep0.fed_of_run h
  refine ⟨hfed.pollAgrees hidle, fun hready bs t hrun => ?_⟩
  rw [Ep0.ready_iff] at hready
  rw [Ep0.queue_poll] at hrun
  rw [Ep0.ready_iff]
  by_cases hstate : s.state = .noSetup
  · rw [if_pos hstate] at hready hrun
    obtain ⟨htstate, hcount⟩ := hfed.asleep_events hstate (not_not.mp hready) hrun
    simp [hstate, htstate, hcount]
  · rw [if_neg hstate] at hready hrun
    have hfifo := hfed.asleep_replies (not_not.mp hready) hrun
    by_cases htstate : t.state = .noSetup
    · simp [hstate, htstate]
    · simp [htstate, hfifo]

/-- A setup request is answered by a command while a poll waits, and the next one arrives. -/
theorem ep0_poll_wakes_missed :
  ∃ s t, Run Ep0.Step ep0New [.setup setupIn, .read 12 true, .readEvents true] s
    ∧ Run (Ep0.Asleep s.poll.queue) s
      [.iorw false true, .complete 0, .completed 0, .setup setupIn] t
    ∧ s.PollAgrees ∧ ¬s.poll.Ready ∧ t.poll.Ready
  := by
  have hruns : ∃ s t, List.foldlM Ep0.step ep0New
        [.setup setupIn, .read 12 true, .readEvents true] = some s
      ∧ Run (Ep0.Asleep s.poll.queue) s
        [.iorw false true, .complete 0, .completed 0, .setup setupIn] t
      ∧ s.pc = .idle ∧ s.state = .pending ∧ s.fifo = [] ∧ t.state = .noSetup ∧ t.ev.count ≠ 0 :=
    ⟨_, _, rfl, .cons ⟨rfl, .inl rfl⟩ (.cons ⟨rfl, .inl rfl⟩ (.cons ⟨rfl, .inl rfl⟩
      (.cons ⟨rfl, .inr (by decide)⟩ (.nil _)))), rfl, rfl, rfl, rfl, by decide⟩
  obtain ⟨s, t, hfirst, hasleep, hidle, hstate, hfifo, htstate, hcount⟩ := hruns
  have hs : s.state ≠ .noSetup := by
    rw [hstate]
    nofun
  have hready : ¬s.poll.Ready := by
    rw [Ep0.ready_iff, if_neg hs]
    exact not_not.mpr hfifo
  obtain ⟨hagrees, hmisses⟩ := ep0_poll_wakes_iff (Run.of_foldlM hfirst) hidle
  exact ⟨s, t, Run.of_foldlM hfirst, hasleep, hagrees, hready,
    (hmisses hready hasleep).mpr ⟨hs, htstate, hcount⟩⟩

/-- When there is a setup request and no reply to be completed, a poll that waits sleeps for as
long as no call is made, whatever the host does, although from the first arrival on a read would
report the cancellation at once, and a poll after it would report events. -/
theorem ep0_poll_starves
    {s : Ep0} {as : List Ep0Act} (h : Run Ep0.Step ep0New as s) (hidle : s.pc = .idle)
    (hunanswered : s.Unanswered) {bs : List Ep0Act} {t : Ep0} (hrun : Run Ep0.HostStep s bs t) :
  (∀ b ∈ bs, b.wakes ≠ some .waitQue) ∧ t.poll.queue = some .waitQue ∧ ¬t.poll.Ready
    ∧ (bs ≠ [] → ∀ len nonblock, ∃ u, t.step (.read len nonblock) = some u
      ∧ u.reports = t.reports + 1 ∧ u.poll.Ready)
  := by
  obtain ⟨hwakes, ht, hpc, hlast⟩ := hunanswered.run (Ep0.fed_of_run h) hrun
  refine ⟨hwakes, ?_, ?_, fun hne => ?_⟩
  · rw [Ep0.queue_poll, if_neg ht.state]
  · rw [Ep0.ready_iff, if_neg ht.state]
    exact not_not.mpr ht.fifo
  · obtain ⟨hcancelled, hcount⟩ := hlast hne
    exact Ep0.read_cancelled (hpc.trans hidle) hcancelled hcount

/-- The host sends one setup request after the other, and the poll sleeps. -/
theorem ep0_poll_starves_arrivals :
  ∃ s t, Run Ep0.Step ep0New [.setup setupIn, .read 12 true, .readEvents true] s
    ∧ Run Ep0.HostStep s [.event .suspend, .setup setupIn, .setup setupIn] t
    ∧ ¬t.poll.Ready ∧ ∀ len nonblock, ∃ u, t.step (.read len nonblock) = some u ∧ u.poll.Ready
  := by
  have hruns : ∃ s t, List.foldlM Ep0.step ep0New
        [.setup setupIn, .read 12 true, .readEvents true] = some s
      ∧ Run Ep0.HostStep s [.event .suspend, .setup setupIn, .setup setupIn] t
      ∧ s.pc = .idle ∧ s.Unanswered :=
    ⟨_, _, rfl, .cons ⟨rfl, trivial⟩ (.cons ⟨rfl, trivial⟩ (.cons ⟨rfl, trivial⟩ (.nil _))), rfl,
      by decide, rfl, rfl, rfl, rfl⟩
  obtain ⟨s, t, hfirst, hhost, hidle, hunanswered⟩ := hruns
  obtain ⟨-, -, hready, hread⟩ := ep0_poll_starves (Run.of_foldlM hfirst) hidle hunanswered hhost
  refine ⟨s, t, Run.of_foldlM hfirst, hhost, hready, fun len nonblock => ?_⟩
  obtain ⟨u, hstep, -, huready⟩ := hread nofun len nonblock
  exact ⟨u, hstep, huready⟩

end Ffs
