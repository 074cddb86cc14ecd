import KhdfLinux.Lib.Run
import KhdfLinux.Osal.Timer

/-!
# The lifetime of a ktimer

Over any run of calls, expirations and callbacks, a ktimer that was deleted is freed once by a
callback that is still to come, nothing accesses it afterwards, and the kernel is called as it
demands, as long as a timer is started only while it is inactive, deleted only after a start, and
not freed in the middle of `OsalTimerDelete` (`timer_lifetime`).
-/

namespace Osal.Timer

/-! ### The invariant of a ktimer -/

/-- The call is `OsalTimerStart`. -/
def Starts : Option CallPhase → Prop
  | some (.setUp _) => True
  | some .modeSet => True
  | _ => False

/-- The call is `OsalTimerDelete`. -/
def Deletes : Option CallPhase → Prop
  | some .flagged => True
  | some .rearming => True
  | some .done => True
  | _ => False

/-- The call is `OsalTimerDelete`, which still accesses the ktimer. -/
def Accesses : Option CallPhase → Prop
  | some .flagged => True
  | some .rearming => True
  | _ => False

/-- The call is `OsalTimerDelete`, which is to start the timer again. -/
def Rearms (k : KTimer) : Option CallPhase → Prop
  | some .flagged => k.mode = .once
  | some .rearming => True
  | _ => False

/-- The callback starts the timer again, or frees the ktimer if the flag is set. -/
def Callback.Leads : Callback → Prop
  | .entered => True
  | .sampled mode => mode = .loop
  | .func mode => mode = .loop
  | .calling mode => mode = .loop
  | .rearming _ => True
  | .stopping => True
  | .freeing => True

/-- What a callback that runs says of the ktimer. -/
def Callback.Fits (k : KTimer) (phase : Option CallPhase) : Callback → Prop
  | .calling _ => phase ≠ none
  | .stopping => ¬Starts phase ∧ k.stopFlag
  | .freeing => ¬Starts phase ∧ k.stopFlag ∧ ¬k.pending ∧ ¬Rearms k phase
  | _ => ¬Starts phase

/-- A callback of the ktimer is to come, or one is running that leads to it. -/
def KTimer.Alive (k : KTimer) : Prop := k.pending ∨ ∃ c ∈ k.callbacks, c.Leads

/-- The invariant of a ktimer that the handle refers to if `held`, with the call on it. -/
structure KTimer.Inv (k : KTimer) (held : Bool) (phase : Option CallPhase) : Prop where
  faults : k.faults = []
  moved : k.moved = false
  one : k.callbacks.length ≤ 1
  isSetUp : k.pending ∨ k.callbacks ≠ [] ∨ phase ≠ none → k.isSetUp
  target : phase ≠ none → held
  deleted : k.deleted → ¬held
  flag : k.stopFlag ↔ k.deleted ∨ Deletes phase
  inactive : Starts phase → ¬k.pending
  fits : ∀ c ∈ k.callbacks, c.Fits k phase
  frees : k.frees = 0 ∨ k.frees = 1 ∧ k.stopFlag ∧ ¬k.pending ∧ k.callbacks = [] ∧ ¬Accesses phase
  alive : k.deleted ∨ phase = some .done ∨ k.mode = .loop ∧ k.isSetUp ∧ ¬Starts phase →
    k.frees = 0 → k.Alive

/-! ### The operations -/

namespace KTimer

variable {k k' : KTimer}

theorem touch_eq (h : k.frees = 0) :
  k.touch = k
  := by
  unfold touch check
  rw [h]
  rfl

theorem not_not_setUp (h : k.isSetUp) :
  ¬(!k.isSetUp) = true
  := by
  rw [h]
  decide

theorem readMode_eq (h : k.frees = 0) (moment : Moment) :
  k.readMode moment = k.mode
  := by
  unfold readMode
  rw [h]
  rfl

theorem readStopFlag_eq (h : k.frees = 0) (moment : Moment) :
  k.readStopFlag moment = k.stopFlag
  := by
  unfold readStopFlag
  rw [h]
  rfl

theorem timerSetup_eq (h : k.frees = 0) (hpending : ¬k.pending) :
  k.timerSetup = { k with isSetUp := true, pending := false }
  := by
  unfold timerSetup check
  rw [touch_eq h, if_neg hpending]

theorem addTimer_eq (h : k.frees = 0) (hsetUp : k.isSetUp) (hpending : ¬k.pending) :
  k.addTimer = { k with pending := true }
  := by
  unfold addTimer check
  rw [touch_eq h, if_neg (not_not_setUp hsetUp), if_neg hpending]

theorem modTimer_eq (h : k.frees = 0) (hsetUp : k.isSetUp) (expires : Nat) :
  k.modTimer expires = { k with expires, pending := true }
  := by
  unfold modTimer check
  rw [touch_eq h, if_neg (not_not_setUp hsetUp)]

theorem delTimer_eq (h : k.frees = 0) (hsetUp : k.isSetUp) :
  k.delTimer = { k with pending := false }
  := by
  unfold delTimer check
  rw [touch_eq h, if_neg (not_not_setUp hsetUp)]

theorem free_eq (h : k.frees = 0) :
  k.free = { k with frees := 1 }
  := by
  unfold free
  rw [touch_eq h, h]

end KTimer

/-! ### What the steps keep of a ktimer -/

variable {k k' : KTimer} {held : Bool} {phase : Option CallPhase}

/-- The callbacks of a ktimer with the invariant. -/
theorem KTimer.Inv.callbacks (h : k.Inv held phase) :
  k.callbacks = [] ∨ ∃ c, k.callbacks = [c]
  := by
  cases hc : k.callbacks with
  | nil => exact .inl rfl
  | cons c cs =>
      have hone := h.one
      rw [hc, List.length_cons] at hone
      obtain rfl := List.eq_nil_of_length_eq_zero (Nat.le_zero.mp (Nat.le_of_succ_le_succ hone))
      exact .inr ⟨c, rfl⟩

/-- What the kernel does to a ktimer that is set up: what is left to show of the invariant. -/
theorem KTimer.Inv.change {pending : Bool} {callbacks : List Callback} {expires frees : Nat}
    {invocations : Nat} (h : k.Inv held phase) (hsetUp : k.isSetUp)
    (hinactive : Starts phase → ¬pending) (hone : callbacks.length ≤ 1)
    (hfits : ∀ c ∈ callbacks, c.Fits { k with pending } phase)
    (hfrees : frees = 0
      ∨ frees = 1 ∧ k.stopFlag ∧ ¬pending ∧ callbacks = [] ∧ ¬Accesses phase)
    (halive : k.deleted ∨ phase = some .done ∨ k.mode = .loop ∧ k.isSetUp ∧ ¬Starts phase →
      frees = 0 → pending ∨ ∃ c ∈ callbacks, c.Leads) :
  KTimer.Inv { k with pending, callbacks, expires, frees, invocations } held phase
  where
  faults := h.faults
  moved := h.moved
  one := hone
  isSetUp _ := hsetUp
  target := h.target
  deleted := h.deleted
  flag := h.flag
  inactive := hinactive
  fits c hc := by
    have hfit := hfits c hc
    cases c with
    | _ => exact hfit
  frees := hfrees
  alive := halive

/-- The timer expires. -/
theorem KTimer.Inv.expire (h : k.Inv held phase) (hexpire : k.expire = some k') :
  k'.Inv held phase
  := by
  unfold KTimer.expire at hexpire
  split at hexpire
  · next hcan =>
      obtain ⟨hpending, hnone | hmoved⟩ := hcan
      · have hfrees : k.frees = 0 := by
          obtain hfrees | hfreed := h.frees
          · apply hfrees
          · apply absurd hpending hfreed.2.2.1
        rw [KTimer.touch_eq hfrees, hnone] at hexpire
        cases hexpire
        apply h.change (h.isSetUp (.inl hpending))
        · exact fun _ => Bool.false_ne_true
        · apply Nat.le_refl 1
        · intro c hc
          obtain rfl := List.mem_singleton.mp hc
          exact fun hstarts => h.inactive hstarts hpending
        · exact .inl hfrees
        · exact fun _ _ => .inr ⟨.entered, List.mem_singleton.mpr rfl, trivial⟩
      · rw [h.moved] at hmoved
        cases hmoved
  · cases hexpire

/-- A ktimer is not freed while a callback of it is running. -/
theorem KTimer.Inv.frees_of_callback (h : k.Inv held phase) {c : Callback}
    (hc : k.callbacks = [c]) :
  k.frees = 0
  := by
  obtain hfrees | hfreed := h.frees
  · apply hfrees
  · rw [hc] at hfreed
    cases hfreed.2.2.2.1

/-- The flag is set once `OsalTimerDelete` is past its locked section. -/
theorem KTimer.Inv.stopFlag_of_done (h : k.Inv held phase)
    (hdone : k.deleted ∨ phase = some .done) :
  k.stopFlag
  := by
  apply h.flag.mpr
  obtain hdeleted | rfl := hdone
  · exact .inl hdeleted
  · exact .inr trivial

/-- The next section of a callback. -/
theorem KTimer.Inv.timerCallback {toJiffies : Nat → Nat} {n : Nat} {moment : Moment}
    (h : k.Inv held phase) (hcallback : k.timerCallback toJiffies n moment = some k')
    (hstopping : k.callbacks[n]? = some .stopping → ¬Rearms k phase)
    (hfreeing : k.callbacks[n]? = some .freeing → ¬Accesses phase) :
  k'.Inv held phase
  := by
  obtain hnone | ⟨c, hc⟩ := h.callbacks
  · unfold KTimer.timerCallback at hcallback
    rw [hnone] at hcallback
    cases hcallback
  cases n with
  | succ n =>
      unfold KTimer.timerCallback at hcallback
      rw [hc] at hcallback
      cases hcallback
  | zero =>
      have hfrees := h.frees_of_callback hc
      have hsetUp := h.isSetUp (.inr (.inl (by rw [hc]; exact List.cons_ne_nil _ _)))
      have hfits := h.fits c (by rw [hc]; exact List.mem_singleton.mpr rfl)
      have halive : k.deleted ∨ phase = some .done
          ∨ k.mode = .loop ∧ k.isSetUp ∧ ¬Starts phase → k.pending ∨ c.Leads := by
        intro hdue
        obtain hpending | ⟨c', hc', hleads⟩ := h.alive hdue hfrees
        · exact .inl hpending
        · rw [hc] at hc'
          obtain rfl := List.mem_singleton.mp hc'
          exact .inr hleads
      unfold KTimer.timerCallback at hcallback
      rw [hc] at hcallback hstopping hfreeing
      simp only [List.getElem?_cons_zero, List.set_cons_zero, List.eraseIdx_cons_zero,
        KTimer.touch_eq hfrees, KTimer.modTimer_eq hfrees hsetUp, KTimer.delTimer_eq hfrees hsetUp,
        KTimer.free_eq hfrees, KTimer.readMode_eq hfrees, KTimer.readStopFlag_eq hfrees]
        at hcallback hstopping hfreeing
      cases c with
      | entered =>
          cases hcallback
          by_cases hstop : k.stopFlag = true
          · rw [if_pos hstop]
            apply h.change hsetUp h.inactive
            · apply Nat.le_refl 1
            · intro c hc
              obtain rfl := List.mem_singleton.mp hc
              exact ⟨hfits, hstop⟩
            · exact .inl hfrees
            · exact fun _ _ => .inr ⟨.stopping, List.mem_singleton.mpr rfl, trivial⟩
          · rw [if_neg hstop]
            apply h.change hsetUp h.inactive
            · apply Nat.le_refl 1
            · intro c hc
              obtain rfl := List.mem_singleton.mp hc
              apply hfits
            · exact .inl hfrees
            · intro hdue _
              right
              refine ⟨.sampled k.mode, List.mem_singleton.mpr rfl, ?_⟩
              obtain hdeleted | hdone | hloop := hdue
              · apply absurd (h.stopFlag_of_done (.inl hdeleted)) hstop
              · apply absurd (h.stopFlag_of_done (.inr hdone)) hstop
              · exact hloop.1
      | sampled mode =>
          cases hcallback
          apply h.change hsetUp h.inactive
          · apply Nat.le_refl 1
          · intro c hc
            obtain rfl := List.mem_singleton.mp hc
            apply hfits
          · exact .inl hfrees
          · intro hdue _
            exact (halive hdue).imp_right fun hleads =>
              ⟨.func mode, List.mem_singleton.mpr rfl, hleads⟩
      | func mode =>
          cases mode with
          | once =>
              cases hcallback
              apply h.change hsetUp h.inactive
              · apply Nat.zero_le 1
              · exact fun c hc => nomatch hc
              · exact .inl hfrees
              · intro hdue _
                exact (halive hdue).imp_right fun hleads => nomatch hleads
          | loop =>
              cases hcallback
              apply h.change hsetUp h.inactive
              · apply Nat.le_refl 1
              · intro c hc
                obtain rfl := List.mem_singleton.mp hc
                apply hfits
              · exact .inl hfrees
              · exact fun _ _ => .inr ⟨.rearming k.msec, List.mem_singleton.mpr rfl, trivial⟩
      | calling mode => cases hcallback
      | rearming msec =>
          cases hcallback
          apply h.change hsetUp
          · exact fun hstarts => absurd hstarts hfits
          · apply Nat.zero_le 1
          · exact fun c hc => nomatch hc
          · exact .inl hfrees
          · exact fun _ _ => .inl rfl
      | stopping =>
          cases hcallback
          apply h.change hsetUp
          · exact fun _ => Bool.false_ne_true
          · apply Nat.le_refl 1
          · intro c hc
            obtain rfl := List.mem_singleton.mp hc
            refine ⟨hfits.1, hfits.2, Bool.false_ne_true, ?_⟩
            intro hrearms
            apply hstopping rfl
            unfold Rearms at hrearms ⊢
            apply hrearms
          · exact .inl hfrees
          · exact fun _ _ => .inr ⟨.freeing, List.mem_singleton.mpr rfl, trivial⟩
      | freeing =>
          cases hcallback
          apply h.change hsetUp h.inactive
          · apply Nat.zero_le 1
          · exact fun c hc => nomatch hc
          · exact .inr ⟨rfl, hfits.2.1, hfits.2.2.1, rfl, hfreeing rfl⟩
          · exact fun _ hzero => nomatch hzero

/-! ### Calls on a ktimer -/

/-- A ktimer that the handle refers to is not freed before its deletion. -/
theorem KTimer.Inv.frees_of_phase (h : k.Inv held phase) (hheld : held) (hphase : ¬Deletes phase) :
  k.frees = 0
  := by
  obtain hfrees | hfreed := h.frees
  · apply hfrees
  · obtain hdeleted | hdeletes := h.flag.mp hfreed.2.1
    · apply absurd hheld (h.deleted hdeleted)
    · apply absurd hdeletes hphase

/-- A call on a ktimer is by another thread, or by the callback that is in its function. -/
theorem KTimer.Inv.call {own : Option Nat} (h : k.Inv held phase) (hcall : k.call own = some k') :
  ∃ callbacks, k' = { k with callbacks } ∧ callbacks.length ≤ 1
    ∧ (own = none ∧ callbacks = k.callbacks
      ∨ own ≠ none ∧ ∃ mode, k.callbacks = [.func mode] ∧ callbacks = [.calling mode])
  := by
  unfold KTimer.call at hcall
  cases own with
  | none =>
      cases hcall
      exact ⟨k.callbacks, rfl, h.one, .inl ⟨rfl, rfl⟩⟩
  | some n =>
      obtain hnone | ⟨c, hc⟩ := h.callbacks
      · rw [hnone] at hcall
        cases hcall
      · rw [hc] at hcall
        cases n with
        | succ n => cases hcall
        | zero =>
            cases c with
            | func mode =>
                cases hcall
                exact ⟨[.calling mode], rfl, Nat.le_refl 1,
                  .inr ⟨Option.some_ne_none 0, mode, hc, rfl⟩⟩
            | _ => cases hcall

/-- `OsalTimerStart` for a timer that is not pending, and with no callback but its own. -/
theorem KTimer.Inv.start {own : Option Nat} {mode : OsalTimerMode} (h : k.Inv true none)
    (hcall : k.call own = some k') (hpending : ¬k.pending) (hidle : own = none → k.callbacks = []) :
  KTimer.Inv { k'.timerSetup with moved := k'.moved || (own.isNone && !k'.callbacks.isEmpty) } true
    (some (.setUp mode))
  := by
  have hfrees := h.frees_of_phase rfl id
  obtain ⟨callbacks, heq, hone, hcallbacks⟩ := h.call hcall
  rw [KTimer.timerSetup_eq (by rw [heq]; exact hfrees) (by rw [heq]; exact hpending), heq]
  constructor
  · apply h.faults
  · show (k.moved || (own.isNone && !callbacks.isEmpty)) = false
    obtain ⟨hown, rfl⟩ | ⟨hown, -⟩ := hcallbacks
    · rw [h.moved, hidle hown, List.isEmpty_nil, Bool.not_true, Bool.and_false, Bool.or_false]
    · rw [h.moved, Option.isNone_eq_false_iff.mpr (Option.isSome_iff_ne_none.mpr hown),
        Bool.false_and, Bool.or_false]
  · apply hone
  · exact fun _ => rfl
  · exact fun _ => rfl
  · apply h.deleted
  · apply h.flag
  · exact fun _ => Bool.false_ne_true
  · intro c hc
    obtain ⟨hown, rfl⟩ | ⟨-, mode, -, rfl⟩ := hcallbacks
    · rw [show _ = [] from hidle hown] at hc
      cases hc
    · obtain rfl := List.mem_singleton.mp hc
      apply Option.some_ne_none _
  · exact .inl hfrees
  · rintro (hdeleted | hdone | hloop)
    · apply absurd rfl (h.deleted hdeleted)
    · cases hdone
    · apply absurd trivial hloop.2.2

/-- `OsalTimerDelete` for a timer that was started. -/
theorem KTimer.Inv.delete {own : Option Nat} (h : k.Inv true none) (hcall : k.call own = some k')
    (hsetUp : k.isSetUp) :
  KTimer.Inv { k'.touch with stopFlag := true } true (some .flagged)
  := by
  have hfrees := h.frees_of_phase rfl id
  have hdeleted : ¬k.deleted := fun hdeleted => h.deleted hdeleted rfl
  have hflag : ¬k.stopFlag := by
    intro hflag
    obtain hdel | hdel := h.flag.mp hflag
    · apply hdeleted hdel
    · apply hdel
  obtain ⟨callbacks, heq, hone, hcallbacks⟩ := h.call hcall
  rw [KTimer.touch_eq (by rw [heq]; exact hfrees), heq]
  constructor
  · apply h.faults
  · apply h.moved
  · apply hone
  · exact fun _ => hsetUp
  · exact fun _ => rfl
  · apply h.deleted
  · apply iff_of_true rfl (.inr trivial)
  · exact fun hstarts => hstarts.elim
  · intro c hc
    obtain ⟨-, rfl⟩ | ⟨-, mode, -, rfl⟩ := hcallbacks
    · have hfits := h.fits c hc
      cases c with
      | calling mode => exact Option.some_ne_none _
      | stopping => exact absurd hfits.2 hflag
      | freeing => exact absurd hfits.2.1 hflag
      | _ => exact id
    · obtain rfl := List.mem_singleton.mp hc
      apply Option.some_ne_none _
  · exact .inl hfrees
  · rintro (hdel | hdone | ⟨hloop, -⟩) -
    · apply absurd hdel hdeleted
    · cases hdone
    · obtain hpending | ⟨c, hc, hleads⟩ := h.alive (.inr (.inr ⟨hloop, hsetUp, id⟩)) hfrees
      · exact .inl hpending
      · right
        obtain ⟨-, rfl⟩ | ⟨-, mode, hfunc, rfl⟩ := hcallbacks
        · exact ⟨c, hc, hleads⟩
        · rw [hfunc] at hc
          obtain rfl := List.mem_singleton.mp hc
          exact ⟨.calling mode, List.mem_singleton.mpr rfl, hleads⟩

/-- The mode that `OsalTimerStart` sets. -/
theorem KTimer.Inv.setMode {mode mode' : OsalTimerMode} (h : k.Inv held (some (.setUp mode))) :
  KTimer.Inv { k.touch with mode := mode' } held (some .modeSet)
  := by
  have hfrees := h.frees_of_phase (h.target (Option.some_ne_none _)) id
  rw [KTimer.touch_eq hfrees]
  constructor
  · apply h.faults
  · apply h.moved
  · apply h.one
  · exact fun _ => h.isSetUp (.inr (.inr (Option.some_ne_none _)))
  · exact fun _ => h.target (Option.some_ne_none _)
  · apply h.deleted
  · apply h.flag
  · apply h.inactive
  · intro c hc
    have hfits := h.fits c hc
    cases c with
    | calling mode => exact Option.some_ne_none _
    | stopping => exact absurd trivial hfits.1
    | freeing => exact absurd trivial hfits.1
    | _ => exact absurd trivial hfits
  · exact .inl hfrees
  · rintro (hdeleted | hdone | hloop)
    · apply absurd (h.target (Option.some_ne_none _)) (h.deleted hdeleted)
    · cases hdone
    · apply absurd trivial hloop.2.2

/-- A callback leads where it did before the call returned to it. -/
theorem leads_resume (c : Callback) :
  c.resume.Leads ↔ c.Leads
  := by cases c <;> rfl

theorem KTimer.Alive.resume (h : k.Alive) :
  k.resume.Alive
  := by
  obtain hpending | ⟨c, hc, hleads⟩ := h
  · exact .inl hpending
  · exact .inr ⟨c.resume, List.mem_map_of_mem hc, (leads_resume c).mpr hleads⟩

/-- `OsalTimerStart` returns. -/
theorem KTimer.Inv.add {expires : Nat} (h : k.Inv held (some .modeSet)) :
  (KTimer.addTimer { k.touch with expires }).resume.Inv held none
  := by
  have hheld := h.target (Option.some_ne_none _)
  have hfrees := h.frees_of_phase hheld id
  have hsetUp := h.isSetUp (.inr (.inr (Option.some_ne_none _)))
  have hpending := h.inactive trivial
  rw [KTimer.touch_eq hfrees, KTimer.addTimer_eq (k := { k with expires }) hfrees hsetUp hpending]
  constructor
  · apply h.faults
  · apply h.moved
  · apply Nat.le_trans (Nat.le_of_eq (List.length_map _)) h.one
  · exact fun _ => hsetUp
  · exact fun hne => absurd rfl hne
  · apply h.deleted
  · apply h.flag
  · exact fun hstarts => hstarts.elim
  · intro c hc
    obtain ⟨c', hc', rfl⟩ := List.mem_map.mp hc
    have hfits := h.fits c' hc'
    cases c' with
    | calling mode => exact id
    | stopping => exact absurd trivial hfits.1
    | freeing => exact absurd trivial hfits.1
    | _ => exact id
  · exact .inl hfrees
  · exact fun _ _ => .inl rfl

/-- `OsalTimerDelete` has read the mode. -/
theorem KTimer.Inv.readMode {moment : Moment} (h : k.Inv held (some .flagged)) :
  k.touch.Inv held (some (if k.readMode moment = .once then .rearming else .done))
  := by
  have hfrees : k.frees = 0 := by
    obtain hfrees | hfreed := h.frees
    · apply hfrees
    · apply absurd trivial hfreed.2.2.2.2
  have hsetUp := h.isSetUp (.inr (.inr (Option.some_ne_none _)))
  rw [KTimer.touch_eq hfrees, KTimer.readMode_eq hfrees]
  constructor
  · apply h.faults
  · apply h.moved
  · apply h.one
  · exact fun _ => hsetUp
  · exact fun _ => h.target (Option.some_ne_none _)
  · apply h.deleted
  · have hflag := h.flag.mpr (.inr trivial)
    split
    · apply iff_of_true hflag (.inr trivial)
    · apply iff_of_true hflag (.inr trivial)
  · split
    · exact fun hstarts => hstarts.elim
    · exact fun hstarts => hstarts.elim
  · intro c hc
    have hfits := h.fits c hc
    split
    · next honce =>
        cases c with
        | calling mode => exact Option.some_ne_none _
        | stopping => exact hfits
        | freeing => exact absurd honce hfits.2.2.2
        | _ => exact id
    · cases c with
      | calling mode => exact Option.some_ne_none _
      | stopping => exact hfits
      | freeing => exact ⟨id, hfits.2.1, hfits.2.2.1, id⟩
      | _ => exact id
  · exact .inl hfrees
  · intro hdue
    apply h.alive
    right
    right
    refine ⟨?_, hsetUp, id⟩
    cases hmode : k.mode with
    | loop => rfl
    | once =>
        rw [hmode, if_pos rfl] at hdue
        obtain hdeleted | hdone | hloop := hdue
        · apply absurd (h.target (Option.some_ne_none _)) (h.deleted hdeleted)
        · cases hdone
        · exact hloop.1

/-- `OsalTimerDelete` has started the timer again. -/
theorem KTimer.Inv.rearm {expires : Nat} (h : k.Inv held (some .rearming)) :
  (k.modTimer expires).Inv held (some .done)
  := by
  have hfrees : k.frees = 0 := by
    obtain hfrees | hfreed := h.frees
    · apply hfrees
    · apply absurd trivial hfreed.2.2.2.2
  have hsetUp := h.isSetUp (.inr (.inr (Option.some_ne_none _)))
  rw [KTimer.modTimer_eq hfrees hsetUp]
  constructor
  · apply h.faults
  · apply h.moved
  · apply h.one
  · exact fun _ => hsetUp
  · exact fun _ => h.target (Option.some_ne_none _)
  · apply h.deleted
  · apply h.flag
  · exact fun hstarts => hstarts.elim
  · intro c hc
    have hfits := h.fits c hc
    cases c with
    | calling mode => exact Option.some_ne_none _
    | stopping => exact hfits
    | freeing => exact absurd trivial hfits.2.2.2
    | _ => exact id
  · exact .inl hfrees
  · exact fun _ _ => .inl rfl

/-- `OsalTimerDelete` returns. -/
theorem KTimer.Inv.delete_done (h : k.Inv held (some .done)) :
  KTimer.Inv { k.resume with deleted := true } false none
  := by
  have hflag := h.flag.mpr (.inr trivial)
  constructor
  · apply h.faults
  · apply h.moved
  · apply Nat.le_trans (Nat.le_of_eq (List.length_map _)) h.one
  · exact fun _ => h.isSetUp (.inr (.inr (Option.some_ne_none _)))
  · exact fun hne => absurd rfl hne
  · exact fun _ => Bool.false_ne_true
  · apply iff_of_true hflag (.inl rfl)
  · exact fun hstarts => hstarts.elim
  · intro c hc
    obtain ⟨c', hc', rfl⟩ := List.mem_map.mp hc
    have hfits := h.fits c' hc'
    cases c' with
    | calling mode => exact id
    | stopping => exact hfits
    | freeing => exact hfits
    | _ => exact id
  · obtain hfrees | ⟨hfrees, hstop, hpending, hnone, -⟩ := h.frees
    · exact .inl hfrees
    · exact .inr ⟨hfrees, hstop, hpending, List.map_eq_nil_iff.mpr hnone, id⟩
  · exact fun _ hfrees => KTimer.Alive.resume (h.alive (.inr (.inl rfl)) hfrees)

/-- The handle is given to another ktimer. -/
theorem KTimer.Inv.letGo (h : k.Inv held none) :
  k.Inv false none
  := { h with
    target := fun hne => absurd rfl hne
    deleted := fun _ => Bool.false_ne_true }

theorem inv_ktimerNew (interval : Nat) :
  (ktimerNew interval).Inv true none
  where
  faults := rfl
  moved := rfl
  one := Nat.zero_le 1
  isSetUp := by
    rintro (hpending | hcallbacks | hphase)
    · apply absurd hpending Bool.false_ne_true
    · apply absurd rfl hcallbacks
    · apply absurd rfl hphase
  target hne := absurd rfl hne
  deleted hdeleted := absurd hdeleted Bool.false_ne_true
  flag := iff_of_false Bool.false_ne_true (fun hflag => hflag.elim Bool.false_ne_true id)
  inactive hstarts := hstarts.elim
  fits _ hc := nomatch hc
  frees := .inl rfl
  alive := by
    rintro (hdeleted | hdone | hloop)
    · apply absurd hdeleted Bool.false_ne_true
    · cases hdone
    · cases hloop.1

/-! ### Deleted ktimers -/

/-- The steps that a callback still makes, with those of the expiration that it leads to. -/
def Callback.rank : Callback → Nat
  | .entered => 3
  | .sampled .once => 2
  | .sampled .loop => 7
  | .func .once => 1
  | .func .loop => 6
  | .calling _ => 7
  | .rearming _ => 5
  | .stopping => 2
  | .freeing => 1

/-- The steps that the kernel still makes with a ktimer whose flag is set. -/
def KTimer.rank (k : KTimer) : Nat :=
  (if k.pending then 4 else 0) + (k.callbacks.map Callback.rank).sum

variable {toJiffies : Nat → Nat} {moment : Moment} {n : Nat}

theorem KTimer.Inv.rank_expire (h : k.Inv held phase) (hexpire : k.expire = some k') :
  k'.deleted = k.deleted ∧ k'.rank < k.rank
  := by
  unfold KTimer.expire at hexpire
  split at hexpire
  · next hcan =>
      obtain ⟨hpending, hnone | hmoved⟩ := hcan
      · have hfrees : k.frees = 0 := by
          obtain hfrees | hfreed := h.frees
          · apply hfrees
          · apply absurd hpending hfreed.2.2.1
        rw [KTimer.touch_eq hfrees, hnone] at hexpire
        cases hexpire
        refine ⟨rfl, ?_⟩
        unfold KTimer.rank
        rw [if_pos hpending, hnone]
        exact (by decide : 0 + 3 < 4 + 0)
      · rw [h.moved] at hmoved
        cases hmoved
  · cases hexpire

theorem KTimer.Inv.rank_timerCallback (h : k.Inv held phase) (hstop : k.stopFlag)
    (hcallback : k.timerCallback toJiffies n moment = some k') :
  k'.deleted = k.deleted ∧ k'.rank < k.rank
  := by
  obtain hnone | ⟨c, hc⟩ := h.callbacks
  · unfold KTimer.timerCallback at hcallback
    rw [hnone] at hcallback
    cases hcallback
  cases n with
  | succ n =>
      unfold KTimer.timerCallback at hcallback
      rw [hc] at hcallback
      cases hcallback
  | zero =>
      have hfrees := h.frees_of_callback hc
      have hsetUp := h.isSetUp (.inr (.inl (by rw [hc]; exact List.cons_ne_nil _ _)))
      unfold KTimer.timerCallback at hcallback
      rw [hc] at hcallback
      simp only [List.getElem?_cons_zero, List.set_cons_zero, List.eraseIdx_cons_zero,
        KTimer.touch_eq hfrees, KTimer.modTimer_eq hfrees hsetUp, KTimer.delTimer_eq hfrees hsetUp,
        KTimer.free_eq hfrees, KTimer.readStopFlag_eq hfrees, if_pos hstop] at hcallback
      unfold KTimer.rank
      rw [hc]
      cases c with
      | entered =>
          cases hcallback
          exact ⟨rfl, Nat.add_lt_add_left (by decide : 2 < 3) _⟩
      | sampled mode =>
          cases hcallback
          refine ⟨rfl, Nat.add_lt_add_left ?_ _⟩
          cases mode with
          | once => exact (by decide : 1 < 2)
          | loop => exact (by decide : 6 < 7)
      | func mode =>
          cases mode with
          | once =>
              cases hcallback
              exact ⟨rfl, Nat.add_lt_add_left (by decide : 0 < 1) _⟩
          | loop =>
              cases hcallback
              exact ⟨rfl, Nat.add_lt_add_left (by decide : 5 < 6) _⟩
      | calling mode => cases hcallback
      | rearming msec =>
          cases hcallback
          exact ⟨rfl, Nat.lt_of_lt_of_le (by decide : 4 + 0 < 5) (Nat.le_add_left 5 _)⟩
      | stopping =>
          cases hcallback
          exact ⟨rfl, Nat.lt_of_lt_of_le (by decide : 0 + 1 < 2) (Nat.le_add_left 2 _)⟩
      | freeing =>
          cases hcallback
          exact ⟨rfl, Nat.add_lt_add_left (by decide : 0 < 1) _⟩

/-- A step of the kernel with a deleted ktimer. -/
theorem KTimer.Inv.kernelNext {a : Option (Nat × Moment)} (h : k.Inv false none)
    (hdeleted : k.deleted)
    (hnext : k.kernelNext toJiffies a = some k') :
  (k'.Inv false none ∧ k'.deleted) ∧ k'.rank < k.rank
  := by
  cases a with
  | none =>
      obtain ⟨hdel, hrank⟩ := h.rank_expire hnext
      exact ⟨⟨h.expire hnext, hdel.trans hdeleted⟩, hrank⟩
  | some a =>
      obtain ⟨n, moment⟩ := a
      obtain ⟨hdel, hrank⟩ := h.rank_timerCallback (h.stopFlag_of_done (.inl hdeleted)) hnext
      exact ⟨⟨h.timerCallback hnext (fun _ => id) (fun _ => id), hdel.trans hdeleted⟩, hrank⟩

/-- A deleted ktimer that the kernel has nothing to do with any more is freed. -/
theorem KTimer.Inv.frees_of_rest (h : k.Inv false none) (hdeleted : k.deleted)
    (hrest : ∀ a, k.kernelNext toJiffies a = none) :
  k.frees = 1
  := by
  obtain hfrees | hfreed := h.frees
  · exfalso
    obtain hnone | ⟨c, hc⟩ := h.callbacks
    · obtain hpending | ⟨c, hc, -⟩ := h.alive (.inl hdeleted) hfrees
      · have hexpire : k.expire = none := hrest none
        unfold KTimer.expire at hexpire
        rw [if_pos ⟨hpending, .inl hnone⟩] at hexpire
        cases hexpire
      · rw [hnone] at hc
        cases hc
    · have hfits := h.fits c (by rw [hc]; exact List.mem_singleton.mpr rfl)
      have hcallback : k.timerCallback toJiffies 0 ⟨0, .once, true⟩ = none := hrest (some (0, _))
      unfold KTimer.timerCallback at hcallback
      rw [hc, List.getElem?_cons_zero] at hcallback
      cases c with
      | calling mode => exact hfits rfl
      | func mode =>
          cases mode with
          | once => cases hcallback
          | loop => cases hcallback
      | _ => cases hcallback
  · exact hfreed.1

theorem KTimer.Inv.rank_le (h : k.Inv false none) :
  k.rank ≤ 11
  := by
  have hpending : (if k.pending then 4 else 0) ≤ 4 := by split <;> decide
  have hcallbacks : (k.callbacks.map Callback.rank).sum ≤ 7 := by
    obtain hnone | ⟨c, hc⟩ := h.callbacks
    · rw [hnone]
      decide
    · rw [hc]
      cases c with
      | sampled mode => cases mode <;> decide
      | func mode => cases mode <;> decide
      | calling mode => exact (by decide : 7 ≤ 7)
      | rearming msec => exact (by decide : 5 ≤ 7)
      | _ => decide
  apply Nat.add_le_add hpending hcallbacks

/-! ### Runs -/

/-- The call on a ktimer. -/
def State.phaseOf (s : State) (i : Nat) : Option CallPhase :=
  match s.call with
  | none => none
  | some call => if call.target = i then some call.phase else none

/-- A timer is started only if it is not pending and none of its callbacks is running but the one
that starts it, and it is deleted only after a start; and while `OsalTimerDelete` is in progress,
the ktimer is not freed before the last access to it, nor the timer of a one-shot stopped before
it is started again. -/
def State.Meets (s : State) : Act → Prop
  | .start own _ => ∀ h ∈ s.held, ¬h.2.pending ∧ (own = none → h.2.callbacks = [])
  | .delete _ => ∀ h ∈ s.held, h.2.isSetUp
  | .callback i n _ => ∀ k ∈ s.timers[i]?,
      (k.callbacks[n]? = some .stopping → ¬Rearms k (s.phaseOf i))
        ∧ (k.callbacks[n]? = some .freeing → ¬Accesses (s.phaseOf i))
  | _ => True

instance (k : KTimer) : (phase : Option CallPhase) → Decidable (Rearms k phase)
  | some .flagged => inferInstanceAs (Decidable (k.mode = .once))
  | some .rearming => isTrue trivial
  | some (.setUp _) => isFalse id
  | some .modeSet => isFalse id
  | some .done => isFalse id
  | none => isFalse id

instance : (phase : Option CallPhase) → Decidable (Accesses phase)
  | some .flagged => isTrue trivial
  | some .rearming => isTrue trivial
  | some (.setUp _) => isFalse id
  | some .modeSet => isFalse id
  | some .done => isFalse id
  | none => isFalse id

instance (s : State) : (a : Act) → Decidable (s.Meets a)
  | .create _ _ _ => isTrue trivial
  | .start own _ =>
      inferInstanceAs (Decidable (∀ h ∈ s.held, ¬h.2.pending ∧ (own = none → h.2.callbacks = [])))
  | .setTimeout _ => isTrue trivial
  | .delete _ => inferInstanceAs (Decidable (∀ h ∈ s.held, h.2.isSetUp))
  | .proceed _ => isTrue trivial
  | .expire _ => isTrue trivial
  | .callback i n _ => inferInstanceAs (Decidable (∀ k ∈ s.timers[i]?,
      (k.callbacks[n]? = some .stopping → ¬Rearms k (s.phaseOf i))
        ∧ (k.callbacks[n]? = some .freeing → ¬Accesses (s.phaseOf i))))

/-- Nothing was done to a ktimer that must not be; it is freed at most once, and only after its
deletion; and a ktimer that was deleted is freed when the kernel has made all steps that it makes
with it, of which there are 11 at most. -/
structure State.Lifetime (toJiffies : Nat → Nat) (s : State) : Prop where
  faults : ∀ k ∈ s.timers, k.faults = []
  frees : ∀ k ∈ s.timers, k.frees = 0 ∨ k.frees = 1 ∧ k.stopFlag
  freed : ∀ k ∈ s.timers, k.deleted →
    ∀ acts k', Run (fun k a k' => k.kernelNext toJiffies a = some k') k acts k' →
      acts.length ≤ 11 ∧ k'.faults = [] ∧ ((∀ a, k'.kernelNext toJiffies a = none) → k'.frees = 1)

/-- Each ktimer has its invariant. -/
def State.Inv (s : State) : Prop :=
  ∀ i (k : KTimer), s.timers[i]? = some k → k.Inv (s.handle = some i) (s.phaseOf i)

theorem State.Inv.lifetime {s : State} (h : s.Inv) :
  s.Lifetime toJiffies
  where
  faults k hk := by
    obtain ⟨i, hi⟩ := List.getElem?_of_mem hk
    exact (h i k hi).faults
  frees k hk := by
    obtain ⟨i, hi⟩ := List.getElem?_of_mem hk
    exact (h i k hi).frees.imp_right fun hfreed => ⟨hfreed.1, hfreed.2.1⟩
  freed k hk hdeleted acts k' hrun := by
    obtain ⟨i, hi⟩ := List.getElem?_of_mem hk
    have hk := h i k hi
    have hheld := hk.deleted hdeleted
    have hphase : s.phaseOf i = none := by
      by_contra hne
      apply hheld (hk.target hne)
    rw [Bool.not_eq_true] at hheld
    rw [hheld, hphase] at hk
    obtain ⟨⟨hk', hdeleted'⟩, hlength⟩ :=
      hrun.length_le_rank (fun k => k.Inv false none ∧ k.deleted) KTimer.rank
        (fun _ _ _ hinv hnext => hinv.1.kernelNext hinv.2 hnext) ⟨hk, hdeleted⟩
    exact ⟨Nat.le_trans hlength hk.rank_le, hk'.faults, hk'.frees_of_rest hdeleted'⟩

variable {s t : State}

theorem State.held_eq {i : Nat} (h : s.held = some (i, k)) :
  s.handle = some i ∧ s.timers[i]? = some k
  := by
  obtain ⟨i', hi, h⟩ := Option.bind_eq_some_iff.mp h
  obtain ⟨k', hk, h⟩ := Option.bind_eq_some_iff.mp h
  cases h
  exact ⟨hi, hk⟩

theorem State.phaseOf_none (h : s.call = none) (i : Nat) :
  s.phaseOf i = none
  := by
  unfold State.phaseOf
  rw [h]

theorem State.phaseOf_self {i : Nat} {phase : CallPhase} (h : s.call = some ⟨i, phase⟩) :
  s.phaseOf i = some phase
  := by
  unfold State.phaseOf
  rw [h]
  apply if_pos rfl

theorem State.phaseOf_other {i j : Nat} {phase : CallPhase} (h : s.call = some ⟨i, phase⟩)
    (hne : j ≠ i) :
  s.phaseOf j = none
  := by
  unfold State.phaseOf
  rw [h]
  apply if_neg (Ne.symm hne)

/-- A step that changes one ktimer, and its call and handle only. -/
theorem State.Inv.put {i : Nat} (h : s.Inv) (ht : t.timers = s.timers.set i k')
    (hk : k'.Inv (t.handle = some i) (t.phaseOf i))
    (hother : ∀ j, j ≠ i →
      decide (t.handle = some j) = decide (s.handle = some j) ∧ t.phaseOf j = s.phaseOf j) :
  t.Inv
  := by
  intro j k hj
  rw [ht] at hj
  by_cases hne : j = i
  · subst hne
    rw [List.getElem?_set_self'] at hj
    obtain ⟨_, -, rfl⟩ := Option.map_eq_some_iff.mp hj
    apply hk
  · rw [List.getElem?_set_ne (Ne.symm hne)] at hj
    obtain ⟨hheld, hphase⟩ := hother j hne
    rw [hheld, hphase]
    apply h j k hj

/-- A step that begins or goes on with a call. -/
theorem State.Inv.putCall {i : Nat} {phase : CallPhase} (h : s.Inv)
    (hcall : s.call = none ∨ ∃ phase, s.call = some ⟨i, phase⟩)
    (hk : k'.Inv (s.handle = some i) (some phase)) :
  State.Inv { s.put i k' with call := some ⟨i, phase⟩ }
  := by
  apply h.put rfl
  · rw [State.phaseOf_self rfl]
    apply hk
  · intro j hne
    refine ⟨rfl, ?_⟩
    rw [State.phaseOf_other rfl hne]
    obtain hnone | ⟨phase', hphase⟩ := hcall
    · rw [State.phaseOf_none hnone]
    · rw [State.phaseOf_other hphase hne]

/-- `OsalTimerCreate`. -/
theorem State.Inv.create {func allocated : Bool} {interval : Nat} (h : s.Inv)
    (hcall : s.call = none) :
  (s.timerCreate func interval allocated).Inv
  := by
  have hletGo : ∀ (i : Nat) (k : KTimer), s.timers[i]? = some k → k.Inv false none := by
    intro i k hk
    have hinv := h i k hk
    rw [State.phaseOf_none hcall] at hinv
    apply hinv.letGo
  have hphase : ∀ timers handle i, State.phaseOf ⟨timers, handle, s.call⟩ i = none :=
    fun _ _ => State.phaseOf_none hcall
  unfold State.timerCreate
  split
  · apply h
  · split
    · intro i k hk
      rw [hphase]
      apply hletGo i k hk
    · intro i k hk
      rw [hphase]
      by_cases hi : i < s.timers.length
      · rw [List.getElem?_append_left hi] at hk
        rw [decide_eq_false fun heq => Nat.ne_of_gt hi (Option.some.inj heq)]
        apply hletGo i k hk
      · rw [List.getElem?_append_right (Nat.not_lt.mp hi)] at hk
        obtain ⟨hlt, rfl⟩ := List.getElem?_eq_some_iff.mp hk
        have heq : i = s.timers.length := by
          rw [List.length_singleton] at hlt
          omega
        subst heq
        rw [decide_eq_true rfl]
        simp only [Nat.sub_self, List.getElem_cons_zero]
        apply inv_ktimerNew interval

/-- The calls on the handle, at their beginning. -/
theorem State.Inv.start {i : Nat} {own : Option Nat} {mode : OsalTimerMode} (h : s.Inv)
    (hcall : s.call = none) (hheld : s.held = some (i, k)) (hmeets : s.Meets (.start own mode))
    (ht : s.timerStart i k own mode = some t) :
  t.Inv
  := by
  obtain ⟨hhandle, hk⟩ := State.held_eq hheld
  obtain ⟨hpending, hidle⟩ := hmeets (i, k) hheld
  have hinv := h i k hk
  rw [State.phaseOf_none hcall, decide_eq_true hhandle] at hinv
  obtain ⟨k', hk', ht⟩ := Option.bind_eq_some_iff.mp ht
  cases ht
  apply h.putCall (.inl hcall)
  rw [decide_eq_true hhandle]
  apply hinv.start hk' hpending hidle

theorem State.Inv.delete {i : Nat} {own : Option Nat} (h : s.Inv) (hcall : s.call = none)
    (hheld : s.held = some (i, k)) (hmeets : s.Meets (.delete own))
    (ht : s.timerDelete i k own = some t) :
  t.Inv
  := by
  obtain ⟨hhandle, hk⟩ := State.held_eq hheld
  have hinv := h i k hk
  rw [State.phaseOf_none hcall, decide_eq_true hhandle] at hinv
  obtain ⟨k', hk', ht⟩ := Option.bind_eq_some_iff.mp ht
  cases ht
  apply h.putCall (.inl hcall)
  rw [decide_eq_true hhandle]
  apply hinv.delete hk' (hmeets (i, k) hheld)

theorem State.Inv.setTimeout {i interval : Nat} (h : s.Inv) (hcall : s.call = none)
    (hheld : s.held = some (i, k)) :
  (s.timerSetTimeout i k interval).Inv
  := by
  obtain ⟨hhandle, hk⟩ := State.held_eq hheld
  have hinv := h i k hk
  have hfrees : k.frees = 0 := by
    rw [State.phaseOf_none hcall, decide_eq_true hhandle] at hinv
    apply hinv.frees_of_phase rfl id
  unfold State.timerSetTimeout
  rw [KTimer.touch_eq hfrees]
  split
  · apply h
  · split
    · exact h.put rfl hinv fun _ _ => ⟨rfl, rfl⟩
    · have hset : KTimer.Inv { k with msec := interval } (s.handle = some i) (s.phaseOf i) :=
        { hinv with
          fits := fun c hc => by
            have hfits := hinv.fits c hc
            cases c with
            | _ => exact hfits }
      exact h.put rfl hset fun _ _ => ⟨rfl, rfl⟩

/-- The next section of a call. -/
theorem State.Inv.proceed {i : Nat} {phase : CallPhase} (h : s.Inv)
    (hcall : s.call = some ⟨i, phase⟩) (hk : s.timers[i]? = some k) :
  (s.proceed toJiffies i k moment phase).Inv
  := by
  have hinv := h i k hk
  rw [State.phaseOf_self hcall] at hinv
  have hhandle : s.handle = some i := of_decide_eq_true (hinv.target (Option.some_ne_none _))
  unfold State.proceed
  cases phase with
  | setUp mode => exact h.putCall (.inr ⟨_, hcall⟩) hinv.setMode
  | modeSet =>
      apply h.put rfl hinv.add
      intro j hne
      exact ⟨rfl, (State.phaseOf_other hcall hne).symm⟩
  | flagged => exact h.putCall (.inr ⟨_, hcall⟩) hinv.readMode
  | rearming => exact h.putCall (.inr ⟨_, hcall⟩) hinv.rearm
  | done =>
      apply h.put rfl hinv.delete_done
      intro j hne
      refine ⟨?_, (State.phaseOf_other hcall hne).symm⟩
      rw [hhandle]
      exact (decide_eq_false fun heq => hne (Option.some.inj heq).symm).symm

/-- The steps keep the invariant. -/
theorem State.Inv.next {a : Act} (h : s.Inv) (hmeets : s.Meets a)
    (ht : s.next toJiffies a = some t) :
  t.Inv
  := by
  cases a with
  | create func interval allocated =>
      unfold State.next at ht
      dsimp only at ht
      split at ht
      · next hcall =>
          cases ht
          apply h.create hcall
      · cases ht
  | start own mode =>
      unfold State.next at ht
      dsimp only at ht
      split at ht
      · next hcall =>
          split at ht
          · cases ht
            apply h
          · next i k hheld => exact h.start hcall hheld hmeets ht
      · cases ht
  | setTimeout interval =>
      unfold State.next at ht
      dsimp only at ht
      split at ht
      · next hcall =>
          split at ht
          · cases ht
            apply h
          · next i k hheld =>
              cases ht
              apply h.setTimeout hcall hheld
      · cases ht
  | delete own =>
      unfold State.next at ht
      dsimp only at ht
      split at ht
      · next hcall =>
          split at ht
          · cases ht
            apply h
          · next i k hheld => exact h.delete hcall hheld hmeets ht
      · cases ht
  | proceed moment =>
      obtain ⟨⟨i, phase⟩, hcall, ht⟩ := Option.bind_eq_some_iff.mp ht
      obtain ⟨k, hk, ht⟩ := Option.bind_eq_some_iff.mp ht
      cases ht
      apply h.proceed hcall hk
  | expire i =>
      obtain ⟨k, hk, ht⟩ := Option.bind_eq_some_iff.mp ht
      obtain ⟨k', hexpire, ht⟩ := Option.bind_eq_some_iff.mp ht
      cases ht
      exact h.put rfl ((h i k hk).expire hexpire) fun _ _ => ⟨rfl, rfl⟩
  | callback i n moment =>
      obtain ⟨k, hk, ht⟩ := Option.bind_eq_some_iff.mp ht
      obtain ⟨k', hcallback, ht⟩ := Option.bind_eq_some_iff.mp ht
      cases ht
      obtain ⟨hstopping, hfreeing⟩ := hmeets k hk
      exact h.put rfl ((h i k hk).timerCallback hcallback hstopping hfreeing) fun _ _ => ⟨rfl, rfl⟩

theorem inv_new :
  State.new.Inv
  := fun _ _ hk => nomatch hk

/-- A step that is allowed. -/
def State.meetsNext (toJiffies : Nat → Nat) (s : State) (a : Act) : Option State :=
  if s.Meets a then s.next toJiffies a else none

/-- Over any run of steps that are allowed, each ktimer has its lifetime. -/
theorem timer_lifetime {acts : List Act}
    (h : Run (fun s a t => s.meetsNext toJiffies a = some t) State.new acts s) :
  s.Lifetime toJiffies
  := by
  apply State.Inv.lifetime
  apply h.keeps State.Inv _ inv_new
  intro s a t hinv hstep
  unfold State.meetsNext at hstep
  split at hstep
  · next hmeets => exact hinv.next hmeets hstep
  · cases hstep

/-- The start of a timer. -/
def started (mode : OsalTimerMode) : List Act :=
  [.create true 10 true, .start none mode, .proceed ⟨0, .once, true⟩, .proceed ⟨0, .once, true⟩]

/-- A one-shot that is deleted by its own callback, and freed by the next one. -/
theorem timer_lifetime_own :
  ∃ s, State.Lifetime id s ∧ s.timers.map KTimer.frees = [1]
  := by
  have hrun : Run (fun s a t => State.meetsNext id s a = some t) State.new
      (started .once ++ [.expire 0, .callback 0 0 ⟨10, .once, true⟩,
        .callback 0 0 ⟨10, .once, true⟩, .delete (some 0), .proceed ⟨10, .once, true⟩,
        .proceed ⟨10, .once, true⟩, .proceed ⟨10, .once, true⟩, .callback 0 0 ⟨10, .once, true⟩,
        .expire 0, .callback 0 0 ⟨11, .once, true⟩, .callback 0 0 ⟨11, .once, true⟩,
        .callback 0 0 ⟨11, .once, true⟩])
      ⟨[{ ktimerNew 10 with
        stopFlag := true, expires := 10, isSetUp := true, frees := 1, invocations := 1,
        deleted := true }], none, none⟩ :=
    Run.of_foldlM (by decide +kernel)
  exact ⟨_, timer_lifetime hrun, rfl⟩

/-- A timer that was never started is deleted, a pending one is started again, and the callback
frees a ktimer before `OsalTimerDelete` reads its mode. -/
theorem timer_not_lifetime :
  (¬∀ (acts : List Act) (s : State), acts.foldlM (State.next id) State.new = some s → s.Lifetime id)
    ∧ [[.create true 10 true, .delete none, .proceed ⟨0, .once, true⟩, .proceed ⟨0, .once, true⟩],
        started .once ++ [.start none .once],
        started .loop ++ [.delete none, .expire 0, .callback 0 0 ⟨10, .once, true⟩,
          .callback 0 0 ⟨10, .once, true⟩, .callback 0 0 ⟨10, .once, true⟩,
          .proceed ⟨10, .once, true⟩]].map
        (fun acts => (acts.foldlM (State.next id) State.new).map
          fun s => s.timers.map KTimer.faults)
      = [some [[.notSetUp]], some [[.setUpPending]], some [[.freed]]]
  := by
  refine ⟨?_, by decide +kernel⟩
  intro h
  have hlifetime := h [.create true 10 true, .delete none, .proceed ⟨0, .once, true⟩,
    .proceed ⟨0, .once, true⟩] ⟨[{ ktimerNew 10 with
      stopFlag := true, pending := true, faults := [.notSetUp] }], some 0, some ⟨0, .done⟩⟩
    (by decide +kernel)
  exact absurd (hlifetime.faults _ (List.mem_singleton.mpr rfl)) (by decide)

end Osal.Timer
