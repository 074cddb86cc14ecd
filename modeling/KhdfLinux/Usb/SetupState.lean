import KhdfLinux.Usb.Ep0

/-!
# The setup state

`setup_state` is `FFS_SETUP_PENDING` from when a setup event is handed to user space until
its reply, and `FFS_SETUP_CANCELLED` if another event arrives before that, until a call has
reported it.  The checks of the calls keep this discipline; the assignments of
`FFS_NO_SETUP` that look at nothing, and the commands, which send replies without a check,
keep it only if they happen to run at the right time.
-/

namespace Ffs

open Exec

/-! ### The discipline -/

/-- The number of events a call waits for. -/
def Ep0Pc.wanted : Ep0Pc → Nat
  | .awaitEvents n => n
  | _ => 0

/-- An arrival of an event. -/
def Ep0Act.Arrives : Ep0Act → Prop
  | .event _ | .setup _ => True
  | _ => False

namespace Ep0

/-- The setup request to which the reply or stall belongs that a step concludes. -/
def concludes (s : Ep0) : Ep0Act → Option Nat
  | .stall | .finish => some s.owner
  | .completed i => s.signalled[i]?
  | .getEp0Event => s.fifo.head?
  | _ => none

/-- The setup request for which a step sends a reply or a stall. -/
def sends (s : Ep0) : Ep0Act → Option Nat
  | .stall => if s.ev.canStall then some s.owner else none
  | .queue true => some s.owner
  | .iorw _ true => some s.handed
  | _ => none

/-- The discipline of the setup state in a step.  It becomes pending only when user space
gets the setup event; it leaves that only by a reply or a stall of that very setup, or by
being cancelled by an arrival; a cancellation ends only by being reported, and nothing else
is reported; and a reply or a stall is sent only when no cancellation is unreported, and
answers the setup request it is for. -/
structure Disciplined (s : Ep0) (a : Ep0Act) (t : Ep0) : Prop where
  pending : s.state ≠ .pending → t.state = .pending →
    a = .readEvents true ∧ .setup ∈ s.ev.queue.take (min s.pc.wanted s.ev.count)
      ∧ t.handed = s.arrived
  leaves : s.state = .pending → t.state ≠ .pending →
    (t.state = .noSetup ∧ s.concludes a = some s.handed) ∨ (t.state = .cancelled ∧ a.Arrives)
  cancelled : s.state = .cancelled →
    (t.state = .cancelled ∧ t.reports = s.reports)
      ∨ (t.state = .noSetup ∧ t.reports = s.reports + 1)
  reports : t.reports ≠ s.reports → s.state = .cancelled
  sends : ∀ k, s.sends a = some k → s.state ≠ .cancelled ∧ k = s.arrived

/-- The condition on a step.  Events that include a setup request are copied to user space;
a stall or a reply is sent only while a setup is pending; and the setup state is assigned
only when there is no setup, or by the reply of the pending one. -/
def Guarded (s : Ep0) : Ep0Act → Prop
  | .readEvents copied => copied ∨ .setup ∉ s.ev.queue.take (min s.pc.wanted s.ev.count)
  | .stall => s.ev.canStall → s.state = .pending
  | .queue true | .iorw _ true => s.state = .pending
  | .finish => s.state ≠ .cancelled
  | .completed i => s.state = .noSetup ∨ (s.state = .pending ∧ s.signalled[i]? = some s.handed)
  | .getEp0Event => s.state = .noSetup ∨ (s.state = .pending ∧ s.fifo.head? = some s.handed)
  | _ => True

instance (s : Ep0) : (a : Ep0Act) → Decidable (s.Guarded a)
  | .readEvents _ => inferInstanceAs (Decidable (_ ∨ _))
  | .stall => inferInstanceAs (Decidable (_ → _))
  | .queue true | .iorw _ true => inferInstanceAs (Decidable (_ = _))
  | .finish => inferInstanceAs (Decidable (_ ≠ _))
  | .completed _ | .getEp0Event => inferInstanceAs (Decidable (_ ∨ _ ∧ _))
  | .event _ | .setup _ | .enter | .write | .read _ _ | .interruptRead | .prepareFails
  | .recheck | .queue false | .wake | .interruptWait | .iorw _ false | .iorwWake
  | .complete _ | .asyncComplete _ _ => .isTrue trivial

end Ep0

/-! ### The checks -/

/-- What holds while the call that holds `mutex` is at `pc`: a read waits for events only
while there is no setup request, and whatever else is going on is for the setup request
handed over last. -/
def Ep0.Holds (s : Ep0) : Ep0Pc → Prop
  | .idle => True
  | .awaitEvents n => s.state = .noSetup ∧ 1 ≤ n
  | .stall | .prepare | .queue | .wait | .finish => s.owner = s.handed

/-- A check lets a call wait for events only if there is no setup request. -/
def AfterCheck (ev : FfsEv) : Ep0Pc → Prop
  | .awaitEvents n => ev.setupState = .noSetup ∧ 1 ≤ n
  | _ => True

/-- A part of a call that starts with a check: a cancelled setup is reported, and otherwise
the call returns something else or goes on. -/
def IsCheck (part : Exec FfsEv Ep0Pc) : Prop :=
  ∀ ev : FfsEv,
    if ev.setupState = .cancelled then
      part.run ev = .error (.ret (-eidrm)) { ev with setupState := .noSetup }
    else (∃ ret, ret ≠ -eidrm ∧ part.run ev = .error (.ret ret) ev)
      ∨ ∃ pc, part.run ev = .ok pc ev ∧ AfterCheck ev pc

theorem clearCancelled_run (ev : FfsEv) :
  ffsSetupStateClearCancelled.run ev
    = .ok ev.setupState { ev with setupState := ev.setupState.clear }
  := rfl

theorem isCheck_write : IsCheck ffsEp0Write
  := by
  rintro ⟨state, types, count, canStall, setup⟩
  unfold ffsEp0Write
  rw [EStateM.run_bind, clearCancelled_run]
  cases state with
  | cancelled => rfl
  | noSetup => exact .inl ⟨-esrch, by decide, rfl⟩
  | pending =>
      refine .inr ⟨_, rfl, ?_⟩
      dsimp only
      split_ifs
      · trivial
      · trivial

theorem isCheck_read (len : Nat) (nonblock : Bool) : IsCheck (ffsEp0Read len nonblock)
  := by
  rintro ⟨state, types, count, canStall, setup⟩
  unfold ffsEp0Read
  rw [EStateM.run_bind, clearCancelled_run]
  cases state with
  | cancelled => rfl
  | noSetup =>
      by_cases hlen : len / usbFunctionfsEventSize = 0
      · refine .inl ⟨-einval, by decide, ?_⟩
        simp [hlen, SetupState.clear]
      by_cases hblock : nonblock ∧ count = 0
      · refine .inl ⟨-eagain, by decide, ?_⟩
        simp [hlen, hblock, SetupState.clear]
      · refine .inr ⟨.awaitEvents _, ?_, rfl, Nat.pos_of_ne_zero hlen⟩
        simp [hlen, hblock, SetupState.clear]
  | pending =>
      refine .inr ⟨_, rfl, ?_⟩
      dsimp only
      split_ifs
      · trivial
      · trivial

theorem isCheck_recheck : IsCheck ffsEp0Recheck
  := by
  rintro ⟨state, types, count, canStall, setup⟩
  unfold ffsEp0Recheck
  rw [EStateM.run_bind, clearCancelled_run]
  cases state with
  | cancelled => rfl
  | noSetup => exact .inr ⟨.queue, rfl, trivial⟩
  | pending => exact .inr ⟨.queue, rfl, trivial⟩

/-! ### What a step does -/

namespace Ep0

variable {s t : Ep0}

/-- The report of a cancellation. -/
def report (s : Ep0) : Ep0 := { s.assign with reports := s.reports + 1 }

theorem goOn_cases
    {part : Exec FfsEv Ep0Pc} (hpart : IsCheck part) (h : s.goOn part = some t) :
  (s.state = .cancelled ∧ t = { s.report with pc := .idle })
    ∨ (s.state ≠ .cancelled ∧ ∃ pc, AfterCheck s.ev pc ∧ t = { s with pc := pc })
  := by
  have hev := hpart s.ev
  unfold goOn at h
  by_cases hc : s.state = .cancelled
  · rw [if_pos hc] at hev
    rw [hev] at h
    exact .inl ⟨hc, (Option.some.inj h).symm⟩
  · rw [if_neg hc] at hev
    refine .inr ⟨hc, ?_⟩
    obtain ⟨ret, hret, hrun⟩ | ⟨pc, hrun, hpc⟩ := hev
    · rw [hrun] at h
      refine ⟨.idle, trivial, ?_⟩
      rw [← Option.some.inj h, returns, if_neg hret]
    · rw [hrun] at h
      exact ⟨pc, hpc, (Option.some.inj h).symm⟩

theorem enter_cases (h : s.step .enter = some t) :
  (s.state = .cancelled ∧ t = s.report) ∨ (s.state ≠ .cancelled ∧ t = s)
  := by
  rcases s with ⟨⟨state, types, count, canStall, setup⟩, pc⟩
  cases state with
  | cancelled => exact .inl ⟨rfl, (Option.some.inj h).symm⟩
  | noSetup => exact .inr ⟨by simp [state], (Option.some.inj h).symm⟩
  | pending => exact .inr ⟨by simp [state], (Option.some.inj h).symm⟩

theorem add_cases {type : EventType} (hvalid : s.ev.Valid) (h : s.add type = some t) :
  ∃ ev, ev.Valid ∧ ev.setupState = s.state.abort ∧ t = { s with
    ev := ev
    cancellations := if s.state = .pending then s.cancellations + 1 else s.cancellations }
  := by
  obtain ⟨ev, hrun, -, -, hstate, -⟩ := ffsEventAdd_spec hvalid type
  have hvalid' := hvalid.add hrun
  unfold add at h
  rw [hrun] at h
  refine ⟨ev, hvalid', hstate, ?_⟩
  rw [← Option.some.inj h]
  congr 1
  rw [hstate]
  unfold state
  cases s.ev.setupState <;> rfl

theorem take_cases
    {n : Nat} {copied : Bool} (hvalid : s.ev.Valid) (hn : 1 ≤ n) (hcount : s.ev.count ≠ 0)
    (h : s.take n copied = some t) :
  ∃ ev, ev.Valid ∧ ev.setupState = s.state.handOver (s.ev.queue.take (min n s.ev.count))
    ∧ t = { s with
      ev := ev
      pc := .idle
      handed :=
        if copied ∧ .setup ∈ s.ev.queue.take (min n s.ev.count) then s.arrived
        else s.handed }
  := by
  have hmin : 1 ≤ min n s.ev.count := by omega
  have hle : min n s.ev.count ≤ s.ev.count := by omega
  obtain ⟨ev, hrun, hqueue, hcount', hstate, -⟩ := ffsEp0ReadEvents_spec hvalid hmin hle copied
  have hvalid' : ev.Valid := hvalid.step (a := .read _ copied) ⟨hmin, hle, _, hrun⟩
  unfold take at h
  rw [hrun] at h
  refine ⟨ev, hvalid', hstate, ?_⟩
  rw [← Option.some.inj h]
  have htypes : ∀ q : List EventType, (q.map s.ev.event).map UsbFunctionfsEvent.type = q := by
    intro q
    rw [List.map_map]
    conv_rhs => rw [← List.map_id q]
    apply List.map_congr_left
    intro e _
    cases e <;> rfl
  simp only [htypes]

/-! ### The invariant -/

/-- The invariant of the events, the counts and the answers. -/
structure Sound (s : Ep0) : Prop where
  valid : s.ev.Valid
  handed : s.state = .pending → s.handed = s.arrived
  counted : s.cancellations = s.reports + if s.state = .cancelled then 1 else 0
  matched : ∀ p ∈ s.answers, p.1 = p.2

theorem Holds.of_eq
    {pc : Ep0Pc} (h : s.Holds pc) (howner : t.owner = s.owner) (hhanded : t.handed = s.handed)
    (hstate : s.state = .noSetup → t.state = .noSetup) :
  t.Holds pc
  := by
  cases pc with
  | idle => trivial
  | awaitEvents n => exact ⟨hstate h.1, h.2⟩
  | stall | prepare | queue | wait | finish =>
      change t.owner = t.handed
      rw [howner, hhanded]
      apply h

/-- The parts the discipline is about are the same. -/
structure Same (s t : Ep0) : Prop where
  ev : t.ev = s.ev
  arrived : t.arrived = s.arrived
  handed : t.handed = s.handed
  cancellations : t.cancellations = s.cancellations
  reports : t.reports = s.reports
  answers : t.answers = s.answers

theorem Same.state (h : Same s t) :
  t.state = s.state
  := by
  rw [Ep0.state, h.ev]

theorem Sound.same (h : s.Sound) (hsame : Same s t) :
  t.Sound
  := by
  constructor
  · rw [hsame.ev]
    apply h.valid
  · rw [hsame.state, hsame.handed, hsame.arrived]
    apply h.handed
  · rw [hsame.cancellations, hsame.reports, hsame.state]
    apply h.counted
  · rw [hsame.answers]
    apply h.matched

theorem Disciplined.of_eq
    {u : Ep0} {a : Ep0Act} (h : Disciplined s a t) (hstate : u.state = t.state)
    (hhanded : u.handed = t.handed) (hreports : u.reports = t.reports) :
  Disciplined s a u
  := by
  constructor
  · rw [hstate, hhanded]
    apply h.pending
  · rw [hstate]
    apply h.leaves
  · rw [hstate, hreports]
    apply h.cancelled
  · rw [hreports]
    apply h.reports
  · apply h.sends

/-- A step that leaves the setup state alone. -/
theorem Disciplined.stay
    {a : Ep0Act} (hstate : t.state = s.state) (hreports : t.reports = s.reports)
    (hsends : ∀ k, s.sends a = some k → s.state ≠ .cancelled ∧ k = s.arrived) :
  Disciplined s a t
  := by
  constructor
  · intro h h'
    exact absurd (hstate ▸ h') h
  · intro h h'
    exact absurd (hstate ▸ h) h'
  · intro h
    exact .inl ⟨hstate ▸ h, hreports⟩
  · intro h
    apply absurd hreports h
  · apply hsends

theorem Sound.answer (h : s.Sound) (hs : s.state = .pending) :
  (s.answer s.handed).Sound
  := by
  constructor
  · apply h.valid
  · apply h.handed
  · apply h.counted
  · intro p hp
    obtain rfl | hp := List.mem_cons.mp hp
    · apply h.handed hs
    · apply h.matched p hp

theorem Sound.assign (h : s.Sound) (hs : s.state ≠ .cancelled) :
  s.assign.Sound
  := by
  constructor
  · exact ⟨h.valid.count_le, h.valid.distinct⟩
  · intro hp
    cases hp
  · have hcounted := h.counted
    rw [if_neg hs] at hcounted
    apply hcounted
  · apply h.matched

/-- An assignment that concludes the setup that is pending, if there is one. -/
theorem Disciplined.assign
    {a : Ep0Act} (hs : s.state ≠ .cancelled)
    (hconcludes : s.state = .pending → s.concludes a = some s.handed)
    (hsends : ∀ k, s.sends a = some k → k = s.arrived) :
  Disciplined s a s.assign
  := by
  constructor
  · intro _ h
    cases h
  · intro h _
    exact .inl ⟨rfl, hconcludes h⟩
  · intro h
    apply absurd h hs
  · intro h
    apply absurd rfl h
  · intro k hk
    exact ⟨hs, hsends k hk⟩

theorem Sound.report (h : s.Sound) (hs : s.state = .cancelled) :
  s.report.Sound
  := by
  constructor
  · exact ⟨h.valid.count_le, h.valid.distinct⟩
  · intro hp
    cases hp
  · have hcounted := h.counted
    rw [if_pos hs] at hcounted
    apply hcounted
  · apply h.matched

theorem Disciplined.report
    {a : Ep0Act} (hs : s.state = .cancelled) (hsends : s.sends a = none) :
  Disciplined s a s.report
  := by
  constructor
  · intro _ h
    cases h
  · intro h _
    rw [hs] at h
    cases h
  · intro _
    exact .inr ⟨rfl, rfl⟩
  · intro _
    apply hs
  · intro k hk
    rw [hsends] at hk
    cases hk

/-- The invariant of the control endpoint. -/
structure Inv (s : Ep0) : Prop where
  sound : s.Sound
  holds : s.Holds s.pc

/-- A call that makes a check for the setup handed over last. -/
theorem Inv.goOn
    {part : Exec FfsEv Ep0Pc} {a : Ep0Act} {k : Nat} (h : s.Sound)
    (hpart : IsCheck part) (hk : k = s.handed) (hsends : s.sends a = none)
    (hstep : { s with owner := k }.goOn part = some t) :
  t.Inv ∧ Disciplined s a t
  := by
  obtain ⟨hs, rfl⟩ | ⟨hs, pc, hpc, rfl⟩ := goOn_cases hpart hstep
  · have hsame : Same s.report { { s with owner := k }.report with pc := .idle } :=
      ⟨rfl, rfl, rfl, rfl, rfl, rfl⟩
    refine ⟨⟨(h.report hs).same hsame, trivial⟩, ?_⟩
    exact (Disciplined.report (s := s) hs hsends).of_eq rfl rfl rfl
  · have hsame : Same s { s with owner := k, pc := pc } := ⟨rfl, rfl, rfl, rfl, rfl, rfl⟩
    refine ⟨⟨h.same hsame, ?_⟩, .stay rfl rfl (by simp [hsends])⟩
    cases pc with
    | idle => trivial
    | awaitEvents n => exact hpc
    | stall | prepare | queue | wait | finish => exact hk

/-- The arrival of an event. -/
theorem Inv.add
    {type : EventType} {a : Ep0Act} {creq : UsbCtrlrequest} {n : Nat} (h : s.Inv)
    (ha : a.Arrives)
    (hstep : { s with ev := { s.ev with setup := creq }, arrived := n }.add type = some t) :
  t.Inv ∧ Disciplined s a t
  := by
  obtain ⟨ev, hvalid, hstate, rfl⟩ :=
    add_cases (s := { s with ev := { s.ev with setup := creq }, arrived := n })
      ⟨h.sound.valid.count_le, h.sound.valid.distinct⟩ hstep
  have habort : ev.setupState = s.ev.setupState.abort := hstate
  have hcounted := h.sound.counted
  have hsends : s.sends a = none := by
    cases a with
    | event type => rfl
    | setup creq => rfl
    | _ => contradiction
  unfold state at hcounted
  refine ⟨⟨⟨hvalid, ?_, ?_, h.sound.matched⟩, ?_⟩, ?_, ?_, ?_, ?_, ?_⟩
  · intro hp
    change ev.setupState = .pending at hp
    rw [habort] at hp
    cases hs : s.ev.setupState <;> rw [hs] at hp <;> cases hp
  · change (if s.ev.setupState = .pending then s.cancellations + 1 else s.cancellations)
      = s.reports + if ev.setupState = .cancelled then 1 else 0
    rw [habort, hcounted]
    cases s.ev.setupState <;> rfl
  · refine Holds.of_eq h.holds ?_ ?_ ?_
    · rfl
    · rfl
    intro hs
    change ev.setupState = .noSetup
    rw [habort, show s.ev.setupState = .noSetup from hs]
    rfl
  · intro _ hp
    change ev.setupState = .pending at hp
    rw [habort] at hp
    cases hs : s.ev.setupState <;> rw [hs] at hp <;> cases hp
  · intro hs _
    refine .inr ⟨?_, ha⟩
    change ev.setupState = .cancelled
    rw [habort, show s.ev.setupState = .pending from hs]
    rfl
  · intro hs
    refine .inl ⟨?_, rfl⟩
    change ev.setupState = .cancelled
    rw [habort, show s.ev.setupState = .cancelled from hs]
    rfl
  · intro hne
    apply absurd rfl hne
  · intro k hk
    rw [hsends] at hk
    cases hk

/-- The read that waits gets its events. -/
theorem Inv.take
    {n : Nat} {copied : Bool} (h : s.Inv) (hpc : s.pc = .awaitEvents n)
    (hcount : s.ev.count ≠ 0) (hg : s.Guarded (.readEvents copied))
    (hstep : s.take n copied = some t) :
  t.Inv ∧ Disciplined s (.readEvents copied) t
  := by
  have hholds := h.holds
  rw [hpc] at hholds
  obtain ⟨hs, hn⟩ := hholds
  obtain ⟨ev, hvalid, hstate, rfl⟩ := take_cases h.sound.valid hn hcount hstep
  have hcounted := h.sound.counted
  have hguard : copied ∨ .setup ∉ s.ev.queue.take (min s.pc.wanted s.ev.count) := hg
  rw [hpc, Ep0Pc.wanted] at hguard
  rw [hs] at hcounted hstate
  by_cases hsetup : EventType.setup ∈ s.ev.queue.take (min n s.ev.count)
  · obtain rfl : copied = true := hguard.resolve_right (not_not_intro hsetup)
    have hpending : ev.setupState = .pending := by rw [hstate, SetupState.handOver, if_pos hsetup]
    rw [if_pos ⟨rfl, hsetup⟩]
    refine ⟨⟨⟨hvalid, fun _ => rfl, ?_, h.sound.matched⟩, trivial⟩, ?_, ?_, ?_, ?_, ?_⟩
    · rw [state, hpending]
      apply hcounted
    · intro _ _
      rw [hpc]
      exact ⟨rfl, hsetup, rfl⟩
    · intro hp
      rw [hs] at hp
      cases hp
    · intro hp
      rw [hs] at hp
      cases hp
    · intro hne
      apply absurd rfl hne
    · intro k hk
      cases hk
  · have hsame : ev.setupState = s.ev.setupState := by
      rw [hstate, SetupState.handOver, if_neg hsetup]
      apply hs.symm
    rw [if_neg (fun hand => hsetup hand.2)]
    refine ⟨⟨⟨hvalid, ?_, ?_, h.sound.matched⟩, trivial⟩, .stay hsame rfl ?_⟩
    · rw [state, hsame]
      apply h.sound.handed
    · rw [state, hsame]
      apply h.sound.counted
    · intro k hk
      cases hk

/-- A step that touches none of the parts the discipline is about. -/
theorem Inv.quiet
    {a : Ep0Act} (h : s.Inv) (hsame : Same s t) (hholds : t.Holds t.pc)
    (hsends : s.sends a = none) :
  t.Inv ∧ Disciplined s a t
  := by
  refine ⟨⟨h.sound.same hsame, hholds⟩, .stay hsame.state hsame.reports ?_⟩
  intro k hk
  rw [hsends] at hk
  cases hk

/-- A reply for the setup that is pending is sent. -/
theorem Inv.reply
    {a : Ep0Act} {k : Nat} (h : s.Inv) (hs : s.state = .pending) (hk : k = s.handed)
    (hsends : s.sends a = some k) (hsame : Same (s.answer k) t) (hholds : t.Holds t.pc) :
  t.Inv ∧ Disciplined s a t
  := by
  subst hk
  refine ⟨⟨(h.sound.answer hs).same hsame, hholds⟩, .stay hsame.state hsame.reports ?_⟩
  intro k hk
  rw [hsends] at hk
  cases hk
  exact ⟨by simp [hs], h.sound.handed hs⟩

/-- The setup that is pending, if there is one, is concluded by its own reply. -/
theorem Inv.conclude
    {a : Ep0Act} (h : s.Inv) (hs : s.state ≠ .cancelled)
    (hconcludes : s.state = .pending → s.concludes a = some s.handed)
    (hsame : Same s.assign t) (hholds : t.Holds t.pc) (hsends : s.sends a = none) :
  t.Inv ∧ Disciplined s a t
  := by
  refine ⟨⟨(h.sound.assign hs).same hsame, hholds⟩, ?_⟩
  apply (Disciplined.assign hs hconcludes _).of_eq hsame.state hsame.handed hsame.reports
  intro k hk
  rw [hsends] at hk
  cases hk

/-- The stall of a call. -/
theorem Inv.stall (h : s.Inv) (hg : s.Guarded .stall) (hstep : s.step .stall = some t) :
  t.Inv ∧ Disciplined s .stall t
  := by
  obtain ⟨hpc, hstep⟩ := Option.ite_none_right_eq_some.mp hstep
  have howner := h.holds
  rw [hpc] at howner
  rw [ffsEp0Stall, EStateM.run_bind, EStateM.run_get] at hstep
  by_cases hstall : s.ev.canStall
  · have hs : s.state = .pending := hg hstall
    have hne : s.state ≠ .cancelled := by simp [hs]
    simp only [hstall, if_true] at hstep
    have ht : { s.assign.answer s.owner with pc := .idle } = t := Option.some.inj hstep
    subst ht
    have hsame : Same (s.answer s.owner).assign { s.assign.answer s.owner with pc := .idle } :=
      ⟨rfl, rfl, rfl, rfl, rfl, rfl⟩
    rw [show s.owner = s.handed from howner] at hsame ⊢
    refine ⟨⟨((h.sound.answer hs).assign hne).same hsame, trivial⟩, ?_⟩
    have hsends : ∀ k, s.sends .stall = some k → k = s.arrived := by
      intro k hk
      rw [sends, if_pos hstall] at hk
      cases hk
      apply howner.trans (h.sound.handed hs)
    have hconcludes : s.state = .pending → s.concludes .stall = some s.handed :=
      fun _ => congrArg some howner
    exact (Disciplined.assign hne hconcludes hsends).of_eq rfl rfl rfl
  · simp only [hstall] at hstep
    cases hstep
    exact h.quiet ⟨rfl, rfl, rfl, rfl, rfl, rfl⟩ trivial (by simp [sends, hstall])

/-- A guarded step keeps the invariant and the discipline. -/
theorem Inv.step {a : Ep0Act} (h : s.Inv) (hg : s.Guarded a) (hstep : s.step a = some t) :
  t.Inv ∧ Disciplined s a t
  := by
  have hholds := h.holds
  cases a with
  | event type =>
      exact h.add trivial (Option.ite_none_left_eq_some.mp hstep).2
  | setup creq => exact h.add trivial hstep
  | enter =>
      obtain ⟨hs, rfl⟩ | ⟨hs, rfl⟩ := enter_cases hstep
      · exact ⟨⟨h.sound.report hs, h.holds.of_eq rfl rfl fun _ => rfl⟩, .report hs rfl⟩
      · exact ⟨h, .stay rfl rfl (by simp [sends])⟩
  | write =>
      apply Inv.goOn h.sound isCheck_write rfl rfl (Option.ite_none_right_eq_some.mp hstep).2
  | read len nonblock =>
      exact Inv.goOn h.sound (isCheck_read len nonblock) rfl rfl
        (Option.ite_none_right_eq_some.mp hstep).2
  | readEvents copied =>
      unfold Ep0.step at hstep
      cases hpc : s.pc with
      | awaitEvents n =>
          rw [hpc] at hstep
          obtain ⟨hcount, htake⟩ := Option.ite_none_left_eq_some.mp hstep
          apply h.take hpc hcount hg htake
      | _ => simp only [hpc, reduceCtorEq] at hstep
  | interruptRead =>
      unfold Ep0.step at hstep
      cases hpc : s.pc with
      | awaitEvents n =>
          rw [hpc] at hstep
          cases hstep
          exact h.quiet ⟨rfl, rfl, rfl, rfl, rfl, rfl⟩ trivial rfl
      | _ => simp only [hpc, reduceCtorEq] at hstep
  | stall => exact h.stall hg hstep
  | prepareFails =>
      obtain ⟨hpc, hstep⟩ := Option.ite_none_right_eq_some.mp hstep
      cases hstep
      exact h.quiet ⟨rfl, rfl, rfl, rfl, rfl, rfl⟩ trivial rfl
  | recheck =>
      obtain ⟨hpc, hstep⟩ := Option.ite_none_right_eq_some.mp hstep
      rw [hpc] at hholds
      apply Inv.goOn h.sound isCheck_recheck hholds rfl hstep
  | queue accepted =>
      obtain ⟨hpc, hstep⟩ := Option.ite_none_right_eq_some.mp hstep
      rw [hpc] at hholds
      cases accepted with
      | true =>
          cases hstep
          exact h.reply hg hholds rfl ⟨rfl, rfl, rfl, rfl, rfl, rfl⟩ hholds
      | false =>
          cases hstep
          exact h.quiet ⟨rfl, rfl, rfl, rfl, rfl, rfl⟩ trivial rfl
  | wake =>
      obtain ⟨hpc, hstep⟩ := Option.ite_none_right_eq_some.mp hstep
      cases hstep
      rw [hpc.1] at hholds
      exact h.quiet ⟨rfl, rfl, rfl, rfl, rfl, rfl⟩ hholds rfl
  | interruptWait =>
      obtain ⟨hpc, hstep⟩ := Option.ite_none_right_eq_some.mp hstep
      cases hstep
      exact h.quiet ⟨rfl, rfl, rfl, rfl, rfl, rfl⟩ trivial rfl
  | finish =>
      obtain ⟨hpc, hstep⟩ := Option.ite_none_right_eq_some.mp hstep
      cases hstep
      rw [hpc] at hholds
      exact h.conclude hg (fun _ => congrArg some hholds) ⟨rfl, rfl, rfl, rfl, rfl, rfl⟩
        trivial rfl
  | iorw aio accepted =>
      cases accepted with
      | true => cases aio with
          | true =>
              cases hstep
              exact h.reply hg rfl rfl ⟨rfl, rfl, rfl, rfl, rfl, rfl⟩ hholds
          | false =>
              cases hstep
              exact h.reply hg rfl rfl ⟨rfl, rfl, rfl, rfl, rfl, rfl⟩ hholds
      | false => cases aio with
          | true =>
              cases hstep
              exact h.quiet ⟨rfl, rfl, rfl, rfl, rfl, rfl⟩ hholds rfl
          | false =>
              cases hstep
              exact h.quiet ⟨rfl, rfl, rfl, rfl, rfl, rfl⟩ hholds rfl
  | iorwWake =>
      obtain ⟨hcalls, hstep⟩ := Option.ite_none_right_eq_some.mp hstep
      cases hstep
      exact h.quiet ⟨rfl, rfl, rfl, rfl, rfl, rfl⟩ hholds rfl
  | complete i =>
      obtain ⟨k, -, rfl⟩ := Option.map_eq_some_iff.mp hstep
      exact h.quiet ⟨rfl, rfl, rfl, rfl, rfl, rfl⟩ hholds rfl
  | completed i =>
      obtain ⟨k, -, rfl⟩ := Option.map_eq_some_iff.mp hstep
      have hassign : s.assign.Holds s.pc := hholds.of_eq rfl rfl fun _ => rfl
      refine h.conclude ?_ ?_ ⟨rfl, rfl, rfl, rfl, rfl, rfl⟩ hassign rfl
      · rintro hs
        obtain hs' | ⟨hs', -⟩ := hg <;> rw [hs] at hs' <;> cases hs'
      · intro hs
        obtain hs' | ⟨-, hk⟩ := hg
        · rw [hs] at hs'
          cases hs'
        · apply hk
  | asyncComplete i stored =>
      obtain ⟨k, -, rfl⟩ := Option.map_eq_some_iff.mp hstep
      exact h.quiet ⟨rfl, rfl, rfl, rfl, rfl, rfl⟩ hholds rfl
  | getEp0Event =>
      obtain ⟨k, -, rfl⟩ := Option.map_eq_some_iff.mp hstep
      have hassign : s.assign.Holds s.pc := hholds.of_eq rfl rfl fun _ => rfl
      refine h.conclude ?_ ?_ ⟨rfl, rfl, rfl, rfl, rfl, rfl⟩ hassign rfl
      · rintro hs
        obtain hs' | ⟨hs', -⟩ := hg <;> rw [hs] at hs' <;> cases hs'
      · intro hs
        obtain hs' | ⟨-, hk⟩ := hg
        · rw [hs] at hs'
          cases hs'
        · apply hk

/-- A step of the control endpoint. -/
def Step (s : Ep0) (a : Ep0Act) (t : Ep0) : Prop := s.step a = some t

/-- A step that does not assign the setup state over a setup request it is not about, and
does not send a reply to a setup request that is not pending. -/
def GuardedStep (s : Ep0) (a : Ep0Act) (t : Ep0) : Prop := s.Guarded a ∧ s.step a = some t

/-- The next state after a step, if the step is guarded. -/
def guardedStep (s : Ep0) (a : Ep0Act) : Option Ep0 := if s.Guarded a then s.step a else none

theorem guardedStep_of_eq (s : Ep0) (a : Ep0Act) (t : Ep0) (h : s.guardedStep a = some t) :
  s.GuardedStep a t
  := Option.ite_none_right_eq_some.mp h

theorem inv_new : ep0New.Inv
  := by
  refine ⟨⟨FfsEv.valid_of_empty rfl, ?_, rfl, ?_⟩, trivial⟩
  · intro h
    cases h
  · intro p hp
    cases hp

end Ep0

/-- In every run of guarded steps every step keeps the discipline, every cancellation but
the one that stands is reported once, and every reply answers the setup request it is for. -/
theorem setup_state_disciplined
    {s : Ep0} {as : List Ep0Act} (h : Run Ep0.GuardedStep ep0New as s) :
  Run Ep0.Disciplined ep0New as s
    ∧ s.cancellations = s.reports + (if s.state = .cancelled then 1 else 0)
    ∧ ∀ p ∈ s.answers, p.1 = p.2
  := by
  have hstep : ∀ (s : Ep0) a t, s.Inv → s.GuardedStep a t → t.Inv ∧ s.Disciplined a t :=
    fun s a t hinv hstep => hinv.step hstep.1 hstep.2
  obtain ⟨hinv, hrun⟩ := h.keeps_and hstep Ep0.inv_new
  exact ⟨hrun, hinv.sound.counted, hinv.sound.matched⟩

/-- A request of the host for eight bytes from the interface. -/
def setupIn : UsbCtrlrequest := ⟨0xc1, 1, 0, 0, 8⟩

/-- A setup request is handed over and gets its reply. -/
theorem setup_state_disciplined_reply :
  ∃ s, Run Ep0.Disciplined ep0New
      [.setup setupIn, .read 12 true, .readEvents true, .write, .recheck, .queue true,
        .complete 0, .wake, .finish, .completed 0] s
    ∧ s.answers = [(1, 1)] ∧ s.state = .noSetup
  := by
  have hrun : ∃ s, List.foldlM Ep0.guardedStep ep0New
      [.setup setupIn, .read 12 true, .readEvents true, .write, .recheck, .queue true,
        .complete 0, .wake, .finish, .completed 0] = some s
      ∧ s.answers = [(1, 1)] ∧ s.state = .noSetup :=
    ⟨_, rfl, rfl, rfl⟩
  obtain ⟨s, hs, h⟩ := hrun
  exact ⟨s, (setup_state_disciplined ((Run.of_foldlM hs).mono Ep0.guardedStep_of_eq)).1, h⟩

/-- A reply is on its way when the next setup request arrives: its completion loses the
cancellation, and a command then answers the new request with a reply to the old one. -/
theorem lost_cancellation :
  ∃ s, Run Ep0.Step ep0New
      [.setup setupIn, .read 12 true, .readEvents true, .write, .recheck, .queue true,
        .setup setupIn, .complete 0, .completed 0, .iorw false true] s
    ∧ s.state = .noSetup ∧ s.cancellations = 1 ∧ s.reports = 0 ∧ (1, 2) ∈ s.answers
  := by
  have hrun : ∃ s, List.foldlM Ep0.step ep0New
      [.setup setupIn, .read 12 true, .readEvents true, .write, .recheck, .queue true,
        .setup setupIn, .complete 0, .completed 0, .iorw false true] = some s
      ∧ s.state = .noSetup ∧ s.cancellations = 1 ∧ s.reports = 0 ∧ (1, 2) ∈ s.answers :=
    ⟨_, rfl, rfl, rfl, rfl, .head _⟩
  obtain ⟨s, hs, h⟩ := hrun
  exact ⟨s, Run.of_foldlM hs, h⟩

end Ffs
