import KhdfLinux.Hdf.Base
import KhdfLinux.Lib.Run
import Mathlib.Data.List.Destutter

/-!
# The notifications of the gadget

`UsbPnpNotifyCallback` for gadgets, in its two parts, and `GadgetPnpNotifyReportThread`.
`reported_iff`: over any steps, what was sent, with what is still pending, is what was notified
without immediate repetitions, exactly as long as a notification that repeats the last one is seen
to do so or finds it pending, a new one finds nothing pending and is not taken for a repetition, and
what is sent is pending and is sent successfully.
-/

namespace Pnp

/-- `USB_GADGET_ADD` and `USB_GADGET_REMOVE`, with the event type of each. -/
inductive GadgetAction where
  | add
  | remove
  deriving DecidableEq, Repr

/-- Where `GadgetPnpNotifyReportThread` is: it waits, it was woken, it holds the lock before or
after `GadgetPnpNotifyHdfSendEvent`, or it sleeps. -/
inductive GadgetThread where
  | waits
  | woken
  | locked
  | done
  | sleeps
  deriving DecidableEq, Repr

/-- What `GadgetPnpNotifyHdfSendEvent` gets: if there is a device and a buffer, if the type can be
written, and what comes of sending it. -/
structure GadgetOutcome where
  device : Bool
  obtained : Bool
  written : Bool
  sent : Int
  deriving DecidableEq, Repr

/-- The variables of the driver.  `storing` are the actions of the callbacks that are past the lock
and did not store `g_preAcion` yet; `notified` are the notifications in the order in which they took
the lock, and `sent` the types that were sent, with `none` for zero. -/
structure GadgetNotifier where
  notifyType : Option GadgetAction
  preAction : Option GadgetAction
  storing : List GadgetAction
  thread : GadgetThread
  notified : List GadgetAction
  sent : List (Option GadgetAction)
  deriving DecidableEq, Repr

namespace GadgetNotifier

/-- Nothing was notified. -/
def new : GadgetNotifier := ⟨none, none, [], .waits, [], []⟩

/-- The steps: a callback up to the wake-up, a callback that stores `g_preAcion`, and those of the
thread, which a signal can wake. -/
inductive Step where
  | notify (action : GadgetAction)
  | store (action : GadgetAction)
  | wake (interrupted : Bool)
  | lock
  | send (o : GadgetOutcome)
  | unlock
  | rest
  deriving DecidableEq, Repr

variable (s : GadgetNotifier)

/-- The thread holds the lock. -/
def Locked : Prop := s.thread = .locked ∨ s.thread = .done

instance : Decidable s.Locked := by
  unfold Locked
  infer_instance

/-- `UsbPnpNotifyCallback` while it holds the lock. -/
def callback (action : GadgetAction) : GadgetNotifier :=
  if s.preAction = some action then { s with notified := s.notified ++ [action] }
  else
    { s with
      notified := s.notified ++ [action]
      notifyType := some action
      storing := action :: s.storing }

/-- What `GadgetPnpNotifyHdfSendEvent` returns. -/
def GadgetOutcome.ret (o : GadgetOutcome) : Int :=
  if o.device = false then Hdf.errInvalidParam
  else if o.obtained = false then Hdf.failure
  else if o.written = false then Hdf.failure
  else o.sent

/-- `GadgetPnpNotifyHdfSendEvent`. -/
def sendEvent (o : GadgetOutcome) : GadgetNotifier :=
  if GadgetOutcome.ret o = Hdf.success then { s with sent := s.sent ++ [s.notifyType] } else s

/-- The state after a step.  A step that is not possible changes nothing. -/
def next : Step → GadgetNotifier
  | .notify action => if s.Locked then s else s.callback action
  | .store action =>
      if action ∈ s.storing then
        { s with preAction := some action, storing := s.storing.erase action }
      else s
  | .wake interrupted =>
      if s.thread = .waits ∧ (interrupted ∨ s.notifyType.isSome) then { s with thread := .woken }
      else s
  | .lock => if s.thread = .woken then { s with thread := .locked } else s
  | .send o => if s.thread = .locked then { s.sendEvent o with thread := .done } else s
  | .unlock =>
      if s.thread = .done then { s with notifyType := none, thread := .sleeps } else s
  | .rest => if s.thread = .sleeps then { s with thread := .waits } else s

/-- The action that is still to be sent. -/
def pending : Option GadgetAction := if s.thread = .done then none else s.notifyType

/-- What was sent and what is pending are the notifications, without immediate repetitions. -/
def Reported : Prop :=
  (s.notified.destutter (· ≠ ·)).map some = s.sent ++ s.pending.toList.map some

/-- The notification is the same as the last one. -/
def Repeats (action : GadgetAction) : Prop := s.notified.getLast? = some action

instance (action : GadgetAction) : Decidable (s.Repeats action) := by
  unfold Repeats
  infer_instance

/-- A notification that repeats the last one finds it in `g_preAcion` or pending, and another one
finds neither itself in `g_preAcion` nor anything pending; a send is one of a pending action and
succeeds, or there is none and it fails. -/
def Heard : Step → Prop
  | .notify action =>
      ¬s.Locked →
        if s.Repeats action then s.preAction = some action ∨ s.notifyType = some action
        else s.preAction ≠ some action ∧ s.notifyType = none
  | .send o =>
      s.thread = .locked → (s.notifyType.isSome ↔ GadgetOutcome.ret o = Hdf.success)
  | _ => True

end GadgetNotifier

/-! ### Lists without repetitions -/

/-- An element at the end counts if it is not the last one again. -/
theorem destutter'_concat {α : Type} [DecidableEq α] (a c : α) (l : List α) :
  (l ++ [c]).destutter' (· ≠ ·) a
    = if (a :: l).getLast? = some c then l.destutter' (· ≠ ·) a
      else l.destutter' (· ≠ ·) a ++ [c]
  := by
  induction l generalizing a with
  | nil =>
      by_cases h : a = c
      · simp [h]
      · simp [h]
  | cons b l ih =>
      rw [List.cons_append, List.getLast?_cons_cons]
      by_cases h : a = b
      · subst h
        have hsame : ¬a ≠ a := not_not.mpr rfl
        rw [List.destutter'_cons_neg _ hsame, List.destutter'_cons_neg _ hsame]
        apply ih
      · rw [List.destutter'_cons_pos _ h, List.destutter'_cons_pos _ h, ih]
        split <;> rfl

theorem destutter_concat {α : Type} [DecidableEq α] (c : α) (l : List α) :
  (l ++ [c]).destutter (· ≠ ·)
    = if l.getLast? = some c then l.destutter (· ≠ ·) else l.destutter (· ≠ ·) ++ [c]
  := by
  cases l with
  | nil => rfl
  | cons a l => apply destutter'_concat

namespace GadgetNotifier

variable {s t : GadgetNotifier}

/-- Before the send, the pending action is the one that the thread finds. -/
theorem reported_of_ne (h : s.thread ≠ .done) :
  s.Reported
    ↔ (s.notified.destutter (· ≠ ·)).map some = s.sent ++ s.notifyType.toList.map some
  := by
  have hpending : s.pending = s.notifyType := if_neg h
  unfold Reported
  rw [hpending]

@[simp]
theorem callback_notified (s : GadgetNotifier) (action : GadgetAction) :
  (s.callback action).notified = s.notified ++ [action]
  := by
  unfold callback
  split <;> rfl

@[simp]
theorem callback_sent (s : GadgetNotifier) (action : GadgetAction) :
  (s.callback action).sent = s.sent
  := by
  unfold callback
  split <;> rfl

@[simp]
theorem callback_thread (s : GadgetNotifier) (action : GadgetAction) :
  (s.callback action).thread = s.thread
  := by
  unfold callback
  split <;> rfl

@[simp]
theorem callback_notifyType (s : GadgetNotifier) (action : GadgetAction) :
  (s.callback action).notifyType
    = if s.preAction = some action then s.notifyType else some action
  := by
  unfold callback
  split <;> rfl

theorem concat_eq_concat_iff {ns : List GadgetAction} {sent : List (Option GadgetAction)}
    {pending new : Option GadgetAction} (h : ns.map some = sent ++ pending.toList.map some) :
  ns.map some = sent ++ new.toList.map some ↔ pending = new
  := by
  rw [h, List.append_right_inj]
  cases pending with
  | none => cases new with
    | none => simp
    | some b => simp
  | some a => cases new with
    | none => simp
    | some b => simp

/-- A notification is reported if it is taken for what it is and overwrites nothing. -/
theorem Reported.notify_iff (h : s.Reported) (action : GadgetAction) :
  (s.next (.notify action)).Reported ↔ s.Heard (.notify action)
  := by
  by_cases hlocked : s.Locked
  · have hnext : s.next (.notify action) = s := if_pos hlocked
    rw [hnext]
    exact iff_of_true h fun hnot => absurd hlocked hnot
  · have hnext : s.next (.notify action) = s.callback action := if_neg hlocked
    have hdone : s.thread ≠ .done := fun hdone => hlocked (.inr hdone)
    have hbefore := (reported_of_ne hdone).mp h
    have hafter : (s.callback action).Reported
        ↔ ((s.notified ++ [action]).destutter (· ≠ ·)).map some
          = s.sent ++ (if s.preAction = some action then s.notifyType
            else some action).toList.map some := by
      rw [reported_of_ne (by rw [callback_thread]; exact hdone)]
      simp only [callback_notified, callback_sent, callback_notifyType]
    have hheard : s.Heard (.notify action)
        ↔ if s.Repeats action then s.preAction = some action ∨ s.notifyType = some action
          else s.preAction ≠ some action ∧ s.notifyType = none :=
      ⟨fun hheard => hheard hlocked, fun hheard _ => hheard⟩
    rw [hnext, hafter, hheard, destutter_concat]
    by_cases hrepeats : s.Repeats action
    · have hlast : s.notified.getLast? = some action := hrepeats
      rw [if_pos hlast, if_pos hrepeats, concat_eq_concat_iff hbefore]
      by_cases hpre : s.preAction = some action
      · simp [hpre]
      · simp [hpre]
    · have hlast : ¬s.notified.getLast? = some action := hrepeats
      rw [if_neg hlast, if_neg hrepeats, List.map_append, hbefore, List.append_assoc,
        List.append_right_inj]
      by_cases hpre : s.preAction = some action
      · cases hpending : s.notifyType <;> simp [hpre]
      · cases hpending : s.notifyType <;> simp [hpre]

/-- A send reports what is pending exactly if it succeeds. -/
theorem Reported.send_iff (h : s.Reported) (o : GadgetOutcome) :
  (s.next (.send o)).Reported ↔ s.Heard (.send o)
  := by
  by_cases hlocked : s.thread = .locked
  · have hnext : s.next (.send o) = { s.sendEvent o with thread := .done } := if_pos hlocked
    have hdone : s.thread ≠ .done := by
      rw [hlocked]
      exact nofun
    have hbefore := (reported_of_ne hdone).mp h
    have hheard : s.Heard (.send o)
        ↔ (s.notifyType.isSome ↔ GadgetOutcome.ret o = Hdf.success) :=
      ⟨fun hheard => hheard hlocked, fun hheard _ => hheard⟩
    have hafter : (s.next (.send o)).Reported
        ↔ (s.notified.destutter (· ≠ ·)).map some
          = if GadgetOutcome.ret o = Hdf.success then s.sent ++ [s.notifyType] else s.sent := by
      rw [hnext]
      unfold Reported sendEvent
      by_cases hsent : GadgetOutcome.ret o = Hdf.success
      · simp [hsent, pending]
      · simp [hsent, pending]
    rw [hafter, hheard, hbefore]
    by_cases hsent : GadgetOutcome.ret o = Hdf.success
    · rw [if_pos hsent, List.append_right_inj]
      cases hpending : s.notifyType <;> simp [hsent]
    · rw [if_neg hsent, List.append_right_eq_self]
      cases hpending : s.notifyType <;> simp [hsent]
  · have hnext : s.next (.send o) = s := if_neg hlocked
    rw [hnext]
    exact iff_of_true h fun heq => absurd heq hlocked

/-- A step that may not be possible. -/
theorem Reported.ite {c : Prop} [Decidable c] (h : s.Reported) (ht : c → t.Reported) :
  (if c then t else s).Reported
  := by
  split
  · next hc => apply ht hc
  · apply h

/-- The other steps report and lose nothing. -/
theorem Reported.step_iff (h : s.Reported) (x : Step) :
  (s.next x).Reported ↔ s.Heard x
  := by
  -- the thread changes, with the pending action as it was
  have hthread {thread : GadgetThread} (hs : s.thread ≠ .done) (ht : thread ≠ .done) :
      ({ s with thread } : GadgetNotifier).Reported :=
    (reported_of_ne ht).mpr ((reported_of_ne hs).mp h)
  cases x with
  | notify action => apply h.notify_iff
  | send o => apply h.send_iff
  | store action => exact iff_of_true (h.ite fun _ => h) trivial
  | wake interrupted =>
      refine iff_of_true (h.ite fun hwake => hthread ?_ nofun) trivial
      rw [hwake.1]
      exact nofun
  | lock =>
      refine iff_of_true (h.ite fun hwoken => hthread ?_ nofun) trivial
      rw [hwoken]
      exact nofun
  | unlock =>
      refine iff_of_true (h.ite fun hdone => ?_) trivial
      have hpending : s.pending = none := if_pos hdone
      unfold Reported at h ⊢
      rw [hpending] at h
      apply h
  | rest =>
      refine iff_of_true (h.ite fun hsleeps => hthread ?_ nofun) trivial
      rw [hsleeps]
      exact nofun

/-- Over any steps, the notifications are reported, exactly as long as each of them is heard. -/
theorem reported_iff (steps : List Step) :
  Along next (fun s x => (s.next x).Reported) new steps ↔ Along next Heard new steps
  := by
  apply along_iff (fun s x (h : s.Reported) => h.step_iff x)
  · exact fun s x h => (h.step_iff x).mpr
  · rfl

/-- A gadget that is added and removed before the thread runs. -/
theorem addition_overwritten :
  ¬Along next (fun s x => (s.next x).Reported) new
    [.notify .add, .store .add, .notify .remove, .store .remove]
  := by
  rintro ⟨-, -, h, -⟩
  exact absurd h (by unfold Reported; decide)

end GadgetNotifier

end Pnp
