import KhdfLinux.Lib.Run
import KhdfLinux.Osal.Timer

/-!
# The callback after `OsalTimerDelete`

`OsalTimerDelete` does not wait for the callback.  `invoked_after_delete_iff`: the function of a
timer is not called after the return exactly if no callback has found the flag unset with the call
still to come, and the ktimer is not used any more once it is freed.
-/

namespace Osal.Timer

variable {toJiffies : Nat → Nat} {k k' : KTimer} {s t u : State}

/-! ### Deletion by another thread -/

/-- A timer that was started, and is pending. -/
def startedTimer (mode : OsalTimerMode) (msec expires : Nat) : State :=
  ⟨[{ ktimerNew msec with mode, expires, isSetUp := true, pending := true }], some 0, none⟩

/-- The steps of a deletion by another thread, of the expirations and of the callbacks. -/
def Act.OfDeletion : Act → Prop
  | .delete own => own = none
  | .proceed _ => True
  | .expire _ => True
  | .callback _ _ _ => True
  | _ => False

instance : (a : Act) → Decidable a.OfDeletion
  | .delete own => inferInstanceAs (Decidable (own = none))
  | .proceed _ => isTrue trivial
  | .expire _ => isTrue trivial
  | .callback _ _ _ => isTrue trivial
  | .create _ _ _ => isFalse id
  | .start _ _ => isFalse id
  | .setTimeout _ => isFalse id

/-- A step of a deletion or of the kernel. -/
def State.deletionNext (toJiffies : Nat → Nat) (s : State) (a : Act) : Option State :=
  if a.OfDeletion then s.next toJiffies a else none

/-- A run of the steps of a deletion. -/
abbrev DeletionRun (toJiffies : Nat → Nat) : State → List Act → State → Prop :=
  Run fun s a t => s.deletionNext toJiffies a = some t

/-- How often the functions of the timers were called. -/
def State.invocations (s : State) : Nat := (s.timers.map KTimer.invocations).sum

/-- The callback is in the function. -/
def Callback.InFunc : Callback → Prop
  | .func _ => True
  | .calling _ => True
  | _ => False

/-- The callback does not come to call the function, when the flag is set. -/
def Callback.Quiet (k : KTimer) : Callback → Prop
  | .entered => k.frees = 0
  | .sampled _ => False
  | .func .once => ¬(0 < k.frees ∧ k.pending)
  | .func .loop => k.frees = 0
  | .calling _ => False
  | .rearming _ => k.frees = 0
  | .stopping => True
  | .freeing => ¬k.pending

/-- No callback of the ktimer has its call of the function still to come; and when the ktimer is
freed, its timer is not pending nor to be started again, and no callback is to read it. -/
def KTimer.Quiet (k : KTimer) : Prop :=
  (k.callbacks = [] → ¬(0 < k.frees ∧ k.pending)) ∧ ∀ c ∈ k.callbacks, c.Quiet k

/-! ### Single callbacks -/

/-- At most one callback is running, which has not made a call. -/
structure KTimer.Single (k : KTimer) : Prop where
  moved : k.moved = false
  one : k.callbacks = [] ∨ ∃ c, k.callbacks = [c] ∧ ∀ mode, c ≠ .calling mode

theorem KTimer.check_eq (k : KTimer) (bad : Bool) (fault : Fault) :
  ∃ faults, k.check bad fault = { k with faults }
  := by
  unfold KTimer.check
  split
  · exact ⟨_, rfl⟩
  · exact ⟨_, rfl⟩

theorem KTimer.touch_faults (k : KTimer) :
  ∃ faults, k.touch = { k with faults }
  := k.check_eq _ _

/-- A timer expires while no callback is running. -/
theorem KTimer.Single.expire (h : k.Single) (hexpire : k.expire = some k') :
  k.pending ∧ k.callbacks = []
    ∧ ∃ faults, k' = { k with pending := false, callbacks := [.entered], faults }
  := by
  unfold KTimer.expire at hexpire
  split at hexpire
  · next hcan =>
      obtain ⟨hpending, hnone | hmoved⟩ := hcan
      · obtain ⟨faults, htouch⟩ := k.touch_faults
        rw [htouch, hnone] at hexpire
        cases hexpire
        exact ⟨hpending, hnone, faults, rfl⟩
      · rw [h.moved] at hmoved
        cases hmoved
  · cases hexpire

/-- The next section of the callback that is running, but for the faults. -/
inductive CallbackStep (k : KTimer) : Callback → KTimer → Prop where
  | found {stop : Bool} {mode : OsalTimerMode} {faults : List Fault}
      (h : k.frees = 0 → stop = k.stopFlag) :
      CallbackStep k .entered
        { k with callbacks := [if stop then .stopping else .sampled mode], faults }
  | invoked (mode : OsalTimerMode) {faults : List Fault} :
      CallbackStep k (.sampled mode)
        { k with callbacks := [.func mode], invocations := k.invocations + 1, faults }
  | ended {faults : List Fault} :
      CallbackStep k (.func .once) { k with callbacks := [], faults }
  | returned {faults : List Fault} :
      CallbackStep k (.func .loop) { k with callbacks := [.rearming k.msec], faults }
  | rearmed (msec : Nat) {expires : Nat} {faults : List Fault} :
      CallbackStep k (.rearming msec) { k with callbacks := [], pending := true, expires, faults }
  | stopped {faults : List Fault} :
      CallbackStep k .stopping { k with callbacks := [.freeing], pending := false, faults }
  | freed {faults : List Fault} :
      CallbackStep k .freeing { k with callbacks := [], frees := k.frees + 1, faults }

theorem KTimer.Single.timerCallback {n : Nat} {moment : Moment} (h : k.Single)
    (hcallback : k.timerCallback toJiffies n moment = some k') :
  ∃ c, k.callbacks = [c] ∧ CallbackStep k c k'
  := by
  obtain ⟨faults, htouch⟩ := k.touch_faults
  obtain hnone | ⟨c, hc, -⟩ := h.one
  · unfold KTimer.timerCallback at hcallback
    rw [hnone] at hcallback
    cases hcallback
  refine ⟨c, hc, ?_⟩
  cases n with
  | succ n =>
      unfold KTimer.timerCallback at hcallback
      rw [hc] at hcallback
      cases hcallback
  | zero =>
      unfold KTimer.timerCallback at hcallback
      rw [hc, htouch] at hcallback
      simp only [List.getElem?_cons_zero, List.set_cons_zero, List.eraseIdx_cons_zero]
        at hcallback
      cases c with
      | entered =>
          cases hcallback
          apply CallbackStep.found
          intro hfrees
          unfold KTimer.readStopFlag
          rw [hfrees]
          rfl
      | sampled mode =>
          cases hcallback
          exact .invoked mode
      | func mode =>
          cases mode with
          | once =>
              cases hcallback
              exact .ended
          | loop =>
              cases hcallback
              exact .returned
      | calling mode => cases hcallback
      | rearming msec =>
          unfold KTimer.modTimer at hcallback
          obtain ⟨faults', hcheck⟩ := k.touch.check_eq (!k.isSetUp) .notSetUp
          rw [hcheck, htouch] at hcallback
          cases hcallback
          exact .rearmed msec
      | stopping =>
          unfold KTimer.delTimer at hcallback
          obtain ⟨faults', hcheck⟩ := k.touch.check_eq (!k.isSetUp) .notSetUp
          rw [hcheck, htouch] at hcallback
          cases hcallback
          exact .stopped
      | freeing =>
          unfold KTimer.free at hcallback
          rw [htouch] at hcallback
          cases hcallback
          exact .freed

/-! ### After the return -/

/-- The flag is set, and at most one callback is running. -/
structure KTimer.Flagged (k : KTimer) : Prop extends k.Single where
  stopFlag : k.stopFlag

theorem CallbackStep.single {c : Callback} (h : CallbackStep k c k') (hk : k.Single) :
  k'.Single ∧ k'.stopFlag = k.stopFlag
  := by
  have hmoved := hk.moved
  cases h with
  | @found stop mode faults hfound =>
      refine ⟨⟨hmoved, .inr ⟨_, rfl, ?_⟩⟩, rfl⟩
      intro mode' heq
      cases stop <;> cases heq
  | invoked mode => exact ⟨⟨hmoved, .inr ⟨_, rfl, fun _ => Callback.noConfusion⟩⟩, rfl⟩
  | ended => exact ⟨⟨hmoved, .inl rfl⟩, rfl⟩
  | returned => exact ⟨⟨hmoved, .inr ⟨_, rfl, fun _ => Callback.noConfusion⟩⟩, rfl⟩
  | rearmed msec => exact ⟨⟨hmoved, .inl rfl⟩, rfl⟩
  | stopped => exact ⟨⟨hmoved, .inr ⟨_, rfl, fun _ => Callback.noConfusion⟩⟩, rfl⟩
  | freed => exact ⟨⟨hmoved, .inl rfl⟩, rfl⟩

theorem KTimer.Single.kernelNext {a : Option (Nat × Moment)} (h : k.Single)
    (hnext : k.kernelNext toJiffies a = some k') :
  k'.Single ∧ k'.stopFlag = k.stopFlag
  := by
  cases a with
  | none =>
      obtain ⟨-, -, faults, rfl⟩ := h.expire hnext
      exact ⟨⟨h.moved, .inr ⟨_, rfl, fun _ => Callback.noConfusion⟩⟩, rfl⟩
  | some a =>
      obtain ⟨c, -, hstep⟩ := h.timerCallback hnext
      apply hstep.single h

theorem KTimer.Flagged.next {a : Option (Nat × Moment)} (h : k.Flagged)
    (hnext : k.kernelNext toJiffies a = some k') :
  k'.Flagged
  := by
  obtain ⟨hsingle, hstop⟩ := h.toSingle.kernelNext hnext
  exact ⟨hsingle, hstop.trans h.stopFlag⟩

/-- A quiet ktimer has one quiet callback, or none. -/
theorem KTimer.quiet_nil (h : k.callbacks = []) :
  k.Quiet ↔ ¬(0 < k.frees ∧ k.pending)
  := by
  unfold KTimer.Quiet
  rw [h]
  exact ⟨fun hquiet => hquiet.1 rfl, fun hquiet => ⟨fun _ => hquiet, fun _ hc => nomatch hc⟩⟩

theorem KTimer.quiet_single {c : Callback} (h : k.callbacks = [c]) :
  k.Quiet ↔ c.Quiet k
  := by
  unfold KTimer.Quiet
  rw [h]
  constructor
  · exact fun hquiet => hquiet.2 c (List.mem_singleton.mpr rfl)
  · intro hquiet
    refine ⟨fun hnil => absurd hnil (List.cons_ne_nil _ _), fun c' hc' => ?_⟩
    obtain rfl := List.mem_singleton.mp hc'
    apply hquiet

/-- A step of a quiet callback calls no function and leaves the ktimer quiet. -/
theorem CallbackStep.quiet {c : Callback} (h : CallbackStep k c k') (hc : k.callbacks = [c])
    (hstop : k.stopFlag) (hquiet : k.Quiet) :
  k'.Quiet ∧ k'.invocations = k.invocations
    ∧ (¬c.InFunc → ∀ c' ∈ k'.callbacks, ¬c'.InFunc)
  := by
  rw [KTimer.quiet_single hc] at hquiet
  cases h with
  | @found stop mode faults hfound =>
      obtain rfl := hfound hquiet
      refine ⟨(KTimer.quiet_single rfl).mpr ?_, rfl, fun _ c' hc' => ?_⟩
      · rw [if_pos hstop]
        trivial
      · obtain rfl := List.mem_singleton.mp hc'
        rw [if_pos hstop]
        exact id
  | invoked mode => exact hquiet.elim
  | ended => exact ⟨(KTimer.quiet_nil rfl).mpr hquiet, rfl, fun _ _ hc' => nomatch hc'⟩
  | returned =>
      refine ⟨(KTimer.quiet_single (c := .rearming k.msec) rfl).mpr hquiet, rfl, fun _ c' hc' => ?_⟩
      obtain rfl := List.mem_singleton.mp hc'
      exact id
  | rearmed msec =>
      refine ⟨(KTimer.quiet_nil rfl).mpr ?_, rfl, fun _ _ hc' => nomatch hc'⟩
      exact fun hfreed => Nat.ne_of_gt hfreed.1 hquiet
  | stopped =>
      refine ⟨(KTimer.quiet_single (c := .freeing) rfl).mpr Bool.false_ne_true, rfl,
        fun _ c' hc' => ?_⟩
      obtain rfl := List.mem_singleton.mp hc'
      exact id
  | freed =>
      exact ⟨(KTimer.quiet_nil rfl).mpr fun hfreed => hquiet hfreed.2, rfl,
        fun _ _ hc' => nomatch hc'⟩

/-- What the kernel keeps of a quiet ktimer whose flag is set. -/
theorem KTimer.Flagged.quiet {a : Option (Nat × Moment)} (h : k.Flagged)
    (hnext : k.kernelNext toJiffies a = some k') (hquiet : k.Quiet) :
  k'.Quiet ∧ k'.invocations = k.invocations
    ∧ ((∀ c ∈ k.callbacks, ¬c.InFunc) → ∀ c ∈ k'.callbacks, ¬c.InFunc)
  := by
  cases a with
  | none =>
      obtain ⟨hpending, hnone, faults, rfl⟩ := h.toSingle.expire hnext
      rw [KTimer.quiet_nil hnone] at hquiet
      refine ⟨(KTimer.quiet_single rfl).mpr ?_, rfl, fun _ c hc => ?_⟩
      · exact Nat.eq_zero_of_not_pos fun hfreed => hquiet ⟨hfreed, hpending⟩
      · obtain rfl := List.mem_singleton.mp hc
        exact id
  | some a =>
      obtain ⟨c, hc, hstep⟩ := h.toSingle.timerCallback hnext
      obtain ⟨hquiet', hinvocations, hfunc⟩ := hstep.quiet hc h.stopFlag hquiet
      exact ⟨hquiet', hinvocations, fun hidle =>
        hfunc (hidle c (by rw [hc]; exact List.mem_singleton.mpr rfl))⟩

/-! ### Calls of the function -/

/-- The kernel can come to call the function. -/
def KTimer.Invokes (toJiffies : Nat → Nat) (k : KTimer) : Prop :=
  ∃ acts k', Run (fun k a k' => k.kernelNext toJiffies a = some k') k acts k'
    ∧ k.invocations < k'.invocations

theorem KTimer.Invokes.step {a : Option (Nat × Moment)} (h : k'.Invokes toJiffies)
    (hnext : k.kernelNext toJiffies a = some k') (hle : k.invocations ≤ k'.invocations) :
  k.Invokes toJiffies
  := by
  obtain ⟨acts, k'', hrun, hlt⟩ := h
  exact ⟨a :: acts, k'', .cons hnext hrun, Nat.lt_of_le_of_lt hle hlt⟩

/-- The next section of a callback that has not made a call. -/
theorem KTimer.Single.go (toJiffies : Nat → Nat) {c : Callback} (h : k.Single)
    (hc : k.callbacks = [c]) (moment : Moment) :
  ∃ k', k.kernelNext toJiffies (some (0, moment)) = some k' ∧ CallbackStep k c k'
  := by
  have hsome : ∃ k', k.timerCallback toJiffies 0 moment = some k' := by
    unfold KTimer.timerCallback
    rw [hc]
    cases c with
    | calling mode =>
        obtain hnone | ⟨c', hc', hcalling⟩ := h.one
        · rw [hnone] at hc
          cases hc
        · rw [hc'] at hc
          apply absurd (List.cons.inj hc).1 (hcalling mode)
    | func mode =>
        cases mode with
        | once => exact ⟨_, rfl⟩
        | loop => exact ⟨_, rfl⟩
    | _ => exact ⟨_, rfl⟩
  obtain ⟨k', hk'⟩ := hsome
  obtain ⟨c', hc', hstep⟩ := h.timerCallback hk'
  rw [hc] at hc'
  obtain rfl := (List.cons.inj hc').1
  exact ⟨k', hk', hstep⟩

theorem KTimer.Flagged.invokes_sampled {mode : OsalTimerMode} (h : k.Flagged)
    (hc : k.callbacks = [.sampled mode]) :
  k.Invokes toJiffies
  := by
  obtain ⟨k', hk', hstep⟩ := h.toSingle.go toJiffies hc ⟨0, .once, false⟩
  refine ⟨[_], k', .cons hk' (.nil k'), ?_⟩
  cases hstep
  apply Nat.lt_succ_self _

/-- A callback that reads a ktimer that is freed can find the flag unset. -/
theorem KTimer.Flagged.invokes_entered (h : k.Flagged) (hc : k.callbacks = [.entered])
    (hfreed : 0 < k.frees) :
  k.Invokes toJiffies
  := by
  obtain ⟨k', hk', hstep⟩ := h.toSingle.go toJiffies hc ⟨0, .once, false⟩
  have hsampled : k'.callbacks = [.sampled .once] ∧ k'.invocations = k.invocations := by
    obtain ⟨faults, htouch⟩ := k.touch_faults
    unfold KTimer.kernelNext at hk'
    dsimp only at hk'
    unfold KTimer.timerCallback KTimer.readStopFlag KTimer.readMode at hk'
    rw [hc, htouch, if_pos hfreed, if_pos hfreed] at hk'
    cases hk'
    exact ⟨rfl, rfl⟩
  exact ((h.next hk').invokes_sampled hsampled.1).step hk' (Nat.le_of_eq hsampled.2.symm)

/-- A timer that is pending in freed memory expires. -/
theorem KTimer.Flagged.invokes_pending (h : k.Flagged) (hc : k.callbacks = [])
    (hfreed : 0 < k.frees) (hpending : k.pending) :
  k.Invokes toJiffies
  := by
  have hexpire : k.kernelNext toJiffies none
      = some { k.touch with pending := false, callbacks := [.entered] } := by
    unfold KTimer.kernelNext KTimer.expire
    dsimp only
    rw [if_pos ⟨hpending, .inl hc⟩, hc]
    rfl
  obtain ⟨faults, htouch⟩ := k.touch_faults
  rw [htouch] at hexpire
  have hflagged := h.next hexpire
  exact (hflagged.invokes_entered rfl hfreed).step hexpire (Nat.le_refl _)

/-- A ktimer that is not quiet can have its function called. -/
theorem KTimer.Flagged.invokes (toJiffies : Nat → Nat) (h : k.Flagged) (hquiet : ¬k.Quiet) :
  k.Invokes toJiffies
  := by
  obtain hc | ⟨c, hc, hcalling⟩ := h.one
  · rw [KTimer.quiet_nil hc, not_not] at hquiet
    apply h.invokes_pending hc hquiet.1 hquiet.2
  rw [KTimer.quiet_single hc] at hquiet
  obtain ⟨k', hk', hstep⟩ := h.toSingle.go toJiffies hc ⟨0, .once, false⟩
  have hflagged := h.next hk'
  cases c with
  | entered => exact h.invokes_entered hc (Nat.pos_of_ne_zero hquiet)
  | sampled mode => exact h.invokes_sampled hc
  | func mode =>
      cases mode with
      | once =>
          obtain ⟨hfreed, hpending⟩ := not_not.mp hquiet
          cases hstep
          exact (hflagged.invokes_pending rfl hfreed hpending).step hk' (Nat.le_refl _)
      | loop =>
          have hfreed := Nat.pos_of_ne_zero hquiet
          cases hstep
          obtain ⟨k'', hk'', hstep'⟩ := hflagged.toSingle.go toJiffies rfl
            ⟨0, .once, false⟩
          have hflagged' := hflagged.next hk''
          cases hstep'
          exact ((hflagged'.invokes_pending rfl hfreed rfl).step hk'' (Nat.le_refl _)).step hk'
            (Nat.le_refl _)
  | calling mode => exact absurd rfl (hcalling mode)
  | rearming msec =>
      have hfreed := Nat.pos_of_ne_zero hquiet
      cases hstep
      exact (hflagged.invokes_pending rfl hfreed rfl).step hk' (Nat.le_refl _)
  | stopping => exact absurd trivial hquiet
  | freeing =>
      have hpending := not_not.mp hquiet
      cases hstep
      exact (hflagged.invokes_pending rfl (Nat.succ_pos _) hpending).step hk' (Nat.le_refl _)

/-! ### The runs of a deletion -/

/-- The states of a deletion: before it is called or when it has returned, or while it is going
on. -/
inductive Deletion : State → Prop where
  | idle {k : KTimer} {handle : Option Nat} (h : k.Single) : Deletion ⟨[k], handle, none⟩
  | busy {k : KTimer} {handle : Option Nat} {phase : CallPhase} (h : k.Flagged)
      (hphase : phase = .flagged ∨ phase = .rearming ∨ phase = .done) :
      Deletion ⟨[k], handle, some ⟨0, phase⟩⟩

/-- An expiration or a callback is a step of the kernel with the ktimer. -/
theorem next_kernel {handle : Option Nat} {call : Option Call} {a : Act}
    (h : State.next toJiffies ⟨[k], handle, call⟩ a = some t)
    (ha : (∃ i, a = .expire i) ∨ ∃ i n moment, a = .callback i n moment) :
  ∃ b k', k.kernelNext toJiffies b = some k' ∧ t = ⟨[k'], handle, call⟩
  := by
  obtain ⟨i, rfl⟩ | ⟨i, n, moment, rfl⟩ := ha
  · obtain ⟨k₁, hk, hput⟩ := Option.bind_eq_some_iff.mp h
    obtain ⟨k', hexpire, ht⟩ := Option.bind_eq_some_iff.mp hput
    cases i with
    | succ i => cases hk
    | zero =>
        cases hk
        cases ht
        exact ⟨none, k', hexpire, rfl⟩
  · obtain ⟨k₁, hk, hput⟩ := Option.bind_eq_some_iff.mp h
    obtain ⟨k', hcallback, ht⟩ := Option.bind_eq_some_iff.mp hput
    cases i with
    | succ i => cases hk
    | zero =>
        cases hk
        cases ht
        exact ⟨some (n, moment), k', hcallback, rfl⟩

/-- No call of a callback returns. -/
theorem KTimer.Single.resume (h : k.Single) :
  k.resume = k
  := by
  have hcallbacks : k.callbacks.map Callback.resume = k.callbacks := by
    obtain hc | ⟨c, hc, hcalling⟩ := h.one
    · rw [hc]
      rfl
    · rw [hc]
      cases c with
      | calling mode => exact absurd rfl (hcalling mode)
      | _ => rfl
  unfold KTimer.resume
  rw [hcallbacks]

theorem KTimer.modTimer_faults (k : KTimer) (expires : Nat) :
  ∃ faults, k.modTimer expires = { k with expires, pending := true, faults }
  := by
  obtain ⟨faults, htouch⟩ := k.touch_faults
  obtain ⟨faults', hcheck⟩ := k.touch.check_eq (!k.isSetUp) .notSetUp
  unfold KTimer.modTimer
  rw [hcheck, htouch]
  exact ⟨faults', rfl⟩

theorem Deletion.next {a : Act} (h : Deletion s) (hnext : s.deletionNext toJiffies a = some t) :
  Deletion t
  := by
  unfold State.deletionNext at hnext
  split at hnext
  · next ha =>
      cases a with
      | create func interval allocated => exact ha.elim
      | start own mode => exact ha.elim
      | setTimeout interval => exact ha.elim
      | delete own =>
          obtain rfl : own = none := ha
          cases h with
          | @idle k handle hk =>
              cases handle with
              | none =>
                  cases hnext
                  exact .idle hk
              | some i =>
                  cases i with
                  | succ i =>
                      cases hnext
                      exact .idle hk
                  | zero =>
                      obtain ⟨faults, htouch⟩ := k.touch_faults
                      have ht :
                          ⟨[{ k.touch with stopFlag := true }], some 0, some ⟨0, .flagged⟩⟩ = t :=
                        Option.some.inj hnext
                      rw [htouch] at ht
                      subst ht
                      exact .busy ⟨⟨hk.moved, hk.one⟩, rfl⟩ (.inl rfl)
          | busy hk hphase => cases hnext
      | proceed moment =>
          cases h with
          | idle hk => cases hnext
          | @busy k handle phase hk hphase =>
              obtain rfl : State.proceed toJiffies _ 0 k moment phase = t := Option.some.inj hnext
              unfold State.proceed
              obtain rfl | rfl | rfl := hphase
              · obtain ⟨faults, htouch⟩ := k.touch_faults
                dsimp only
                rw [htouch]
                refine .busy ⟨⟨hk.moved, hk.one⟩, hk.stopFlag⟩ ?_
                split
                · exact .inr (.inl rfl)
                · exact .inr (.inr rfl)
              · obtain ⟨faults, hmod⟩ := k.modTimer_faults k.expires
                dsimp only
                rw [hmod]
                exact .busy ⟨⟨hk.moved, hk.one⟩, hk.stopFlag⟩ (.inr (.inr rfl))
              · dsimp only
                rw [hk.toSingle.resume]
                exact .idle ⟨hk.moved, hk.one⟩
      | expire i =>
          cases h with
          | idle hk =>
              obtain ⟨b, k', hstep, rfl⟩ := next_kernel hnext (.inl ⟨i, rfl⟩)
              exact .idle (hk.kernelNext hstep).1
          | busy hk hphase =>
              obtain ⟨b, k', hstep, rfl⟩ := next_kernel hnext (.inl ⟨i, rfl⟩)
              exact .busy (hk.next hstep) hphase
      | callback i n moment =>
          cases h with
          | idle hk =>
              obtain ⟨b, k', hstep, rfl⟩ := next_kernel hnext (.inr ⟨i, n, moment, rfl⟩)
              exact .idle (hk.kernelNext hstep).1
          | busy hk hphase =>
              obtain ⟨b, k', hstep, rfl⟩ := next_kernel hnext (.inr ⟨i, n, moment, rfl⟩)
              exact .busy (hk.next hstep) hphase
  · cases hnext

theorem deletion_startedTimer (mode : OsalTimerMode) (msec expires : Nat) :
  Deletion (startedTimer mode msec expires)
  := .idle ⟨rfl, .inl rfl⟩

/-- After the return of `OsalTimerDelete` there are only steps of the kernel. -/
theorem returned_next {a : Act} (h : State.deletionNext toJiffies ⟨[k], none, none⟩ a = some t) :
  t = ⟨[k], none, none⟩ ∨ ∃ b k', k.kernelNext toJiffies b = some k' ∧ t = ⟨[k'], none, none⟩
  := by
  unfold State.deletionNext at h
  split at h
  · next ha =>
      cases a with
      | create func interval allocated => exact ha.elim
      | start own mode => exact ha.elim
      | setTimeout interval => exact ha.elim
      | delete own =>
          cases h
          exact .inl rfl
      | proceed moment => cases h
      | expire i => exact .inr (next_kernel h (.inl ⟨i, rfl⟩))
      | callback i n moment => exact .inr (next_kernel h (.inr ⟨i, n, moment, rfl⟩))
  · cases h

/-- A quiet ktimer stays as it is. -/
theorem returned_quiet {acts : List Act} (h : k.Flagged) (hquiet : k.Quiet)
    (hrun : DeletionRun toJiffies ⟨[k], none, none⟩ acts u) :
  u.invocations = k.invocations
    ∧ ((∀ c ∈ k.callbacks, ¬c.InFunc) → ∀ k' ∈ u.timers, ∀ c ∈ k'.callbacks, ¬c.InFunc)
  := by
  obtain ⟨k', -, -, rfl, hinvocations, hfunc⟩ := hrun.keeps
    (fun u => ∃ k' : KTimer, k'.Flagged ∧ k'.Quiet ∧ u = ⟨[k'], none, none⟩
      ∧ k'.invocations = k.invocations
      ∧ ((∀ c ∈ k.callbacks, ¬c.InFunc) → ∀ c ∈ k'.callbacks, ¬c.InFunc))
    (by
      rintro s a t ⟨k₁, hk₁, hquiet₁, rfl, hinvocations, hfunc⟩ hstep
      obtain rfl | ⟨b, k₂, hkernel, rfl⟩ := returned_next hstep
      · exact ⟨k₁, hk₁, hquiet₁, rfl, hinvocations, hfunc⟩
      · obtain ⟨hquiet₂, hinvocations₂, hfunc₂⟩ := hk₁.quiet hkernel hquiet₁
        exact ⟨k₂, hk₁.next hkernel, hquiet₂, rfl, hinvocations₂.trans hinvocations,
          fun hidle => hfunc₂ (hfunc hidle)⟩)
    ⟨k, h, hquiet, rfl, rfl, id⟩
  refine ⟨?_, fun hidle k₁ hk₁ => ?_⟩
  · apply hinvocations
  · obtain rfl := List.mem_singleton.mp hk₁
    apply hfunc hidle

/-- The steps of the kernel are steps of the state. -/
theorem returned_run {acts : List (Option (Nat × Moment))}
    (h : Run (fun k a k' => k.kernelNext toJiffies a = some k') k acts k') :
  ∃ acts', DeletionRun toJiffies ⟨[k], none, none⟩ acts'
    ⟨[k'], none, none⟩
  := by
  induction h with
  | nil k => exact ⟨[], .nil _⟩
  | @cons k k₁ k₂ a as head tail ih =>
      obtain ⟨acts', hacts'⟩ := ih
      cases a with
      | none =>
          refine ⟨.expire 0 :: acts', .cons ?_ hacts'⟩
          show (do
            let k ← k.expire
            some (State.put ⟨[k], none, none⟩ 0 k)) = _
          rw [show k.expire = some k₁ from head]
          rfl
      | some a =>
          obtain ⟨n, moment⟩ := a
          refine ⟨.callback 0 n moment :: acts', .cons ?_ hacts'⟩
          show (do
            let k ← k.timerCallback toJiffies n moment
            some (State.put ⟨[k], none, none⟩ 0 k)) = _
          rw [show k.timerCallback toJiffies n moment = some k₁ from head]
          rfl

/-- The function of a timer, started once or as a loop, is called after `OsalTimerDelete` has
returned exactly if the ktimer is not quiet at the return; and it is neither called nor still
running exactly if it is quiet and no callback is in the function. -/
theorem invoked_after_delete_iff {mode : OsalTimerMode} {msec expires : Nat} {acts : List Act}
    {moment : Moment}
    (hrun : DeletionRun toJiffies (startedTimer mode msec expires) acts s)
    (hdone : s.call = some ⟨0, .done⟩) (hreturn : s.next toJiffies (.proceed moment) = some t) :
  ((∀ acts' u, DeletionRun toJiffies t acts' u →
        u.invocations = t.invocations)
      ↔ ∀ k ∈ s.timers, k.Quiet)
    ∧ ((∀ acts' u, DeletionRun toJiffies t acts' u →
        u.invocations = t.invocations ∧ ∀ k ∈ u.timers, ∀ c ∈ k.callbacks, ¬c.InFunc)
      ↔ ∀ k ∈ s.timers, k.Quiet ∧ ∀ c ∈ k.callbacks, ¬c.InFunc)
  := by
  have hdeletion := hrun.keeps Deletion (fun _ _ _ h hstep => h.next hstep)
    (deletion_startedTimer mode msec expires)
  cases hdeletion with
  | idle h => cases hdone
  | @busy k handle phase h hphase =>
      obtain rfl : phase = .done := congrArg Call.phase (Option.some.inj hdone)
      have ht : ⟨[{ k.resume with deleted := true }], none, none⟩ = t := Option.some.inj hreturn
      rw [h.toSingle.resume] at ht
      subst ht
      have hflagged : KTimer.Flagged { k with deleted := true } := ⟨⟨h.moved, h.one⟩, h.stopFlag⟩
      have hquiet : KTimer.Quiet { k with deleted := true } ↔ k.Quiet := by
        obtain hc | ⟨c, hc, -⟩ := h.one
        · rw [KTimer.quiet_nil hc, KTimer.quiet_nil (k := { k with deleted := true }) hc]
        · rw [KTimer.quiet_single hc, KTimer.quiet_single (k := { k with deleted := true }) hc]
          cases c with
          | func mode => cases mode <;> exact Iff.rfl
          | _ => exact Iff.rfl
      have hinvokes : (∀ acts' u, DeletionRun toJiffies ⟨[{ k with deleted := true }], none, none⟩
          acts' u → u.invocations = k.invocations) → k.Quiet := by
        intro hnever
        by_contra hnot
        obtain ⟨acts, k', hkernel, hlt⟩ :=
          hflagged.invokes toJiffies fun hyes => hnot (hquiet.mp hyes)
        obtain ⟨acts', hacts'⟩ := returned_run hkernel
        apply Nat.ne_of_gt hlt (hnever acts' _ hacts')
      constructor
      · constructor
        · intro hnever k₁ hk₁
          obtain rfl := List.mem_singleton.mp hk₁
          apply hinvokes hnever
        · intro hall acts' u hu
          exact (returned_quiet hflagged (hquiet.mpr (hall k (List.mem_singleton.mpr rfl))) hu).1
      · constructor
        · intro hnever k₁ hk₁
          obtain rfl := List.mem_singleton.mp hk₁
          refine ⟨hinvokes fun acts' u hu => (hnever acts' u hu).1, ?_⟩
          exact (hnever [] _ (.nil _)).2 { k₁ with deleted := true } (List.mem_singleton.mpr rfl)
        · intro hall acts' u hu
          obtain ⟨hk, hidle⟩ := hall k (List.mem_singleton.mpr rfl)
          obtain ⟨hinvocations, hfunc⟩ := returned_quiet hflagged (hquiet.mpr hk) hu
          exact ⟨hinvocations, hfunc hidle⟩

/-- A one-shot that is deleted before it expires. -/
theorem invoked_after_delete_iff_pending :
  DeletionRun id (startedTimer .once 10 10)
      [.delete none, .proceed ⟨0, .once, true⟩, .proceed ⟨0, .once, true⟩]
      ⟨[{ ktimerNew 10 with stopFlag := true, expires := 10, isSetUp := true, pending := true }],
        some 0, some ⟨0, .done⟩⟩
    ∧ ∀ acts u, DeletionRun id ⟨[{ ktimerNew 10 with
        stopFlag := true, expires := 10, isSetUp := true, pending := true, deleted := true }],
        none, none⟩ acts u →
      u.invocations = 0
  := by
  have hrun : DeletionRun id (startedTimer .once 10 10)
      [.delete none, .proceed ⟨0, .once, true⟩, .proceed ⟨0, .once, true⟩]
      ⟨[{ ktimerNew 10 with stopFlag := true, expires := 10, isSetUp := true, pending := true }],
        some 0, some ⟨0, .done⟩⟩ :=
    Run.of_foldlM (by decide +kernel)
  refine ⟨hrun, ?_⟩
  apply (invoked_after_delete_iff hrun rfl
    (show State.next id _ (.proceed ⟨0, .once, true⟩) = some _ from rfl)).1.mpr
  intro k hk
  obtain rfl := List.mem_singleton.mp hk
  rw [KTimer.quiet_nil rfl]
  decide

/-- The callback has found the flag unset when the deletion begins, and calls the function when it
has returned. -/
theorem invoked_after_delete :
  ∃ s t u, DeletionRun id (startedTimer .loop 10 10)
      [.expire 0, .callback 0 0 ⟨10, .once, true⟩, .delete none, .proceed ⟨10, .once, true⟩] s
    ∧ s.call = some ⟨0, .done⟩ ∧ s.next id (.proceed ⟨10, .once, true⟩) = some t
    ∧ DeletionRun id t [.callback 0 0 ⟨10, .once, true⟩] u ∧ t.invocations < u.invocations
  := by
  let k : KTimer :=
    { ktimerNew 10 with mode := .loop, stopFlag := true, expires := 10, isSetUp := true }
  refine ⟨⟨[{ k with callbacks := [.sampled .loop] }], some 0, some ⟨0, .done⟩⟩,
    ⟨[{ k with callbacks := [.sampled .loop], deleted := true }], none, none⟩,
    ⟨[{ k with callbacks := [.func .loop], invocations := 1, deleted := true }], none, none⟩,
    Run.of_foldlM ?_, rfl, ?_, Run.of_foldlM ?_, ?_⟩
  all_goals decide +kernel

end Osal.Timer
