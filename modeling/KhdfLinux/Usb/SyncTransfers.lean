import KhdfLinux.Usb.Epfile

/-!
# What synchronous transfers return

The waits of `ffs_epfile_iorw`, `ffs_ep0_iorw` and `__ffs_ep0_queue_wait` for a request that was
queued: the wait ends because the request is given back, because of a signal, or because of the
timeout, and in the last two cases the request is dequeued, unless it is given back before that.
`truthful_iff` says which of the outcomes are returned as they are.
-/

namespace Ffs

open Locks

/-- A request that is given back, with its status and the bytes that were transferred. -/
structure Completion where
  status : Int
  actual : UInt32
  deriving DecidableEq, Repr

/-- What ends a wait. -/
inductive WaitEnd where
  | done
  | interrupted
  | timedOut
  deriving DecidableEq, Repr

/-- The end of a wait with the timeout: the request is given back before the wait ends (`before`),
or between that and the dequeue (`between`), or else by the dequeue (`cancelled`).  Only a request
that was given back is done, and there is no timeout if it is zero. -/
structure Race (timeout : UInt32) where
  wait : WaitEnd
  before : Option Completion
  between : Option Completion
  cancelled : Completion
  woken : wait = .done → before.isSome
  timed : wait = .timedOut → 0 < timeout

/-- The request while a call waits for it, with the status of its endpoint. -/
structure WaitedRequest where
  completion : Option Completion
  epStatus : Int
  deriving DecidableEq, Repr

/-- `ffs_epfile_io_complete`, for a request with a context. -/
def ffsEpfileIoComplete (c : Completion) : WaitedRequest where
  completion := some c
  epStatus := if c.status ≠ 0 then c.status else s32 c.actual.toNat

/-- A request that was queued. -/
def WaitedRequest.queued : WaitedRequest := ⟨none, 0⟩

/-- `req->status`. -/
def WaitedRequest.status (s : WaitedRequest) : Int := (s.completion.map Completion.status).getD 0

/-- `req->actual`. -/
def WaitedRequest.actual (s : WaitedRequest) : UInt32 :=
  (s.completion.map Completion.actual).getD 0

namespace Race

variable {timeout : UInt32} (r : Race timeout)

/-- The request when the wait ends. -/
def waited : WaitedRequest :=
  match r.before with
  | none => .queued
  | some c => ffsEpfileIoComplete c

/-- The request after `usb_ep_dequeue`. -/
def dequeued : WaitedRequest :=
  match r.before with
  | none => ffsEpfileIoComplete (r.between.getD r.cancelled)
  | some _ => r.waited

/-- How the request is given back. -/
def completion : Completion := (r.before <|> r.between).getD r.cancelled

end Race

/-- What `ffs_epfile_iorw` returns for a request that was queued. -/
def ffsEpfileIorwWait (timeout : UInt32) (r : Race timeout) : Int :=
  if 0 < timeout then
    match r.wait with
    | .interrupted => if r.dequeued.epStatus < 0 then -eintr else r.dequeued.actual.toNat
    | .timedOut => -ebusy
    | .done => r.waited.actual.toNat
  else
    match r.wait with
    | .interrupted => if r.dequeued.epStatus < 0 then -eintr else r.dequeued.actual.toNat
    | _ => r.waited.actual.toNat

/-- What `ffs_ep0_iorw` returns for a request that was queued. -/
def ffsEp0IorwWait (timeout : UInt32) (r : Race timeout) : Int :=
  if 0 < timeout then
    match r.wait with
    | .interrupted => if r.dequeued.status < 0 then -eintr else r.dequeued.actual.toNat
    | .timedOut => -ebusy
    | .done => r.waited.actual.toNat
  else
    match r.wait with
    | .interrupted => if r.dequeued.status < 0 then -eintr else r.dequeued.actual.toNat
    | _ => r.waited.actual.toNat

/-- What `__ffs_ep0_queue_wait` returns for a request that was queued. -/
def ffsEp0QueueWait (r : Race 0) : Int :=
  match r.wait with
  | .done => if r.waited.status ≠ 0 then r.waited.status else s32 r.waited.actual.toNat
  | _ => -eintr

/-- A wait for a request that was queued. -/
inductive SyncWait where
  | epfile (timeout : UInt32) (r : Race timeout)
  | ep0 (timeout : UInt32) (r : Race timeout)
  | ep0Queue (r : Race 0)

namespace SyncWait

/-- What the call returns. -/
def returned : SyncWait → Int
  | epfile timeout r => ffsEpfileIorwWait timeout r
  | ep0 timeout r => ffsEp0IorwWait timeout r
  | ep0Queue r => ffsEp0QueueWait r

/-- How the request is given back. -/
def completion : SyncWait → Completion
  | epfile _ r | ep0 _ r | ep0Queue r => r.completion

end SyncWait

/-- The status is negative, or zero with a count that is an `int`. -/
def Completion.FitsInt (c : Completion) : Prop :=
  c.status < 0 ∨ c.status = 0 ∧ c.actual.toNat < 2147483648

/-- What is returned is not negative exactly if the status of the request is zero, and it is then
the count of its bytes. -/
structure Reports (ret : Int) (c : Completion) : Prop where
  succeeds : 0 ≤ ret ↔ c.status = 0
  counts : c.status = 0 → ret = c.actual.toNat

/-- The outcomes that the three calls return as they are. -/
def SyncWait.Told : SyncWait → Prop
  | epfile _ r =>
      (r.wait = .done → r.completion.status = 0)
        ∧ (r.wait = .interrupted → r.completion.FitsInt)
        ∧ (r.wait = .timedOut → r.completion.status ≠ 0)
  | ep0 _ r =>
      (r.wait = .done → r.completion.status = 0)
        ∧ (r.wait = .interrupted → r.completion.status ≤ 0)
        ∧ (r.wait = .timedOut → r.completion.status ≠ 0)
  | ep0Queue r =>
      (r.wait = .done → r.completion.FitsInt)
        ∧ (r.wait ≠ .done → r.completion.status ≠ 0)

/-! ### The waits -/

variable {timeout : UInt32} {r : Race timeout}

theorem Race.dequeued_eq (r : Race timeout) :
  r.dequeued = ffsEpfileIoComplete r.completion
  := by
  unfold dequeued completion waited
  cases r.before with
  | none => rfl
  | some c => rfl

/-- A wait that is done finds the request as it was given back. -/
theorem Race.waited_eq (h : r.wait = .done) :
  r.waited = ffsEpfileIoComplete r.completion
  := by
  obtain ⟨c, hc⟩ := Option.isSome_iff_exists.mp (r.woken h)
  unfold waited completion
  rw [hc]
  rfl

/-- `ffs_epfile_iorw` by what ends its wait. -/
theorem ffsEpfileIorwWait_eq (r : Race timeout) :
  ffsEpfileIorwWait timeout r
    = match r.wait with
      | .done => r.completion.actual.toNat
      | .interrupted =>
          if (ffsEpfileIoComplete r.completion).epStatus < 0 then -eintr
          else r.completion.actual.toNat
      | .timedOut => -ebusy
  := by
  unfold ffsEpfileIorwWait
  rw [r.dequeued_eq]
  cases hwait : r.wait with
  | done =>
      rw [r.waited_eq hwait]
      split <;> rfl
  | interrupted => split <;> rfl
  | timedOut => rw [if_pos (r.timed hwait)]

/-- `ffs_ep0_iorw` by what ends its wait. -/
theorem ffsEp0IorwWait_eq (r : Race timeout) :
  ffsEp0IorwWait timeout r
    = match r.wait with
      | .done => r.completion.actual.toNat
      | .interrupted =>
          if r.completion.status < 0 then -eintr else r.completion.actual.toNat
      | .timedOut => -ebusy
  := by
  unfold ffsEp0IorwWait
  rw [r.dequeued_eq]
  cases hwait : r.wait with
  | done =>
      rw [r.waited_eq hwait]
      split <;> rfl
  | interrupted => split <;> rfl
  | timedOut => rw [if_pos (r.timed hwait)]

/-- `__ffs_ep0_queue_wait` by what ends its wait. -/
theorem ffsEp0QueueWait_eq (r : Race 0) :
  ffsEp0QueueWait r
    = match r.wait with
      | .done => (ffsEpfileIoComplete r.completion).epStatus
      | _ => -eintr
  := by
  unfold ffsEp0QueueWait
  cases hwait : r.wait with
  | done =>
      rw [r.waited_eq hwait]
      rfl
  | interrupted => rfl
  | timedOut => rfl

/-! ### What is reported -/

variable {c : Completion} {ret : Int}

/-- The count of a request is the truth if it succeeded. -/
theorem reports_count :
  Reports c.actual.toNat c ↔ c.status = 0
  := by
  have hpos : (0 : Int) ≤ c.actual.toNat := Int.natCast_nonneg _
  exact ⟨fun h => h.succeeds.mp hpos, fun hs => ⟨iff_of_true hpos hs, fun _ => rfl⟩⟩

/-- An error is the truth about a request that failed. -/
theorem reports_error (h : ret < 0) :
  Reports ret c ↔ c.status ≠ 0
  := by
  have hneg : ¬0 ≤ ret := Int.not_le.mpr h
  exact ⟨fun ht hs => hneg (ht.succeeds.mpr hs),
    fun hs => ⟨iff_of_false hneg hs, fun hzero => absurd hzero hs⟩⟩

/-- The status of an endpoint is that of the request, or its count as an `int`. -/
theorem epStatus_neg_iff :
  (ffsEpfileIoComplete c).epStatus < 0
    ↔ c.status < 0 ∨ c.status = 0 ∧ 2147483648 ≤ c.actual.toNat
  := by
  have hlt := c.actual.toNat_lt
  show (if c.status ≠ 0 then c.status else s32 c.actual.toNat) < 0 ↔ _
  by_cases hs : c.status = 0
  · rw [if_neg (not_not.mpr hs)]
    by_cases hcount : c.actual.toNat < 2147483648
    · rw [s32_of_lt hcount]
      omega
    · exact iff_of_true (s32_neg (Nat.not_lt.mp hcount) hlt) (.inr ⟨hs, Nat.not_lt.mp hcount⟩)
  · rw [if_pos hs]
    omega

theorem epStatus_of_zero (hs : c.status = 0) (hcount : c.actual.toNat < 2147483648) :
  (ffsEpfileIoComplete c).epStatus = c.actual.toNat
  := by
  show (if c.status ≠ 0 then c.status else s32 c.actual.toNat) = _
  rw [if_neg (not_not.mpr hs), s32_of_lt hcount]

/-- The status of the endpoint is the truth if it is an `int`. -/
theorem reports_epStatus :
  Reports (ffsEpfileIoComplete c).epStatus c ↔ c.FitsInt
  := by
  have hneg := epStatus_neg_iff (c := c)
  unfold Completion.FitsInt
  by_cases hfits : c.status = 0 ∧ c.actual.toNat < 2147483648
  · rw [epStatus_of_zero hfits.1 hfits.2, reports_count]
    exact iff_of_true hfits.1 (.inr hfits)
  · by_cases hlt : (ffsEpfileIoComplete c).epStatus < 0
    · rw [reports_error hlt]
      omega
    · have hpos : 0 ≤ (ffsEpfileIoComplete c).epStatus := Int.not_lt.mp hlt
      refine iff_of_false (fun h => ?_) (by omega)
      have hs := h.succeeds.mp hpos
      omega

/-- An interrupted wait that looks at whether the request failed. -/
theorem reports_checked {failed : Prop} [Decidable failed] :
  Reports (if failed then -eintr else c.actual.toNat) c ↔ (failed ↔ c.status ≠ 0)
  := by
  by_cases h : failed
  · rw [if_pos h, reports_error (by decide)]
    exact (iff_true_left h).symm
  · rw [if_neg h, reports_count]
    exact (iff_false_left h).trans not_not |>.symm

theorem ffsEpfileIorwWait_reports (r : Race timeout) :
  Reports (ffsEpfileIorwWait timeout r) r.completion
    ↔ (r.wait = .done → r.completion.status = 0)
      ∧ (r.wait = .interrupted → r.completion.FitsInt)
      ∧ (r.wait = .timedOut → r.completion.status ≠ 0)
  := by
  rw [ffsEpfileIorwWait_eq]
  cases r.wait with
  | done =>
      apply reports_count.trans
      simp
  | interrupted =>
      apply reports_checked.trans
      rw [epStatus_neg_iff]
      simp only [reduceCtorEq, false_implies, true_implies, true_and, and_true]
      unfold Completion.FitsInt
      omega
  | timedOut =>
      have hneg : -ebusy < 0 := by decide
      apply (reports_error hneg).trans
      simp

theorem ffsEp0IorwWait_reports (r : Race timeout) :
  Reports (ffsEp0IorwWait timeout r) r.completion
    ↔ (r.wait = .done → r.completion.status = 0)
      ∧ (r.wait = .interrupted → r.completion.status ≤ 0)
      ∧ (r.wait = .timedOut → r.completion.status ≠ 0)
  := by
  rw [ffsEp0IorwWait_eq]
  cases r.wait with
  | done =>
      apply reports_count.trans
      simp
  | interrupted =>
      apply reports_checked.trans
      simp only [reduceCtorEq, false_implies, true_implies, true_and, and_true]
      omega
  | timedOut =>
      have hneg : -ebusy < 0 := by decide
      apply (reports_error hneg).trans
      simp

theorem ffsEp0QueueWait_reports (r : Race 0) :
  Reports (ffsEp0QueueWait r) r.completion
    ↔ (r.wait = .done → r.completion.FitsInt) ∧ (r.wait ≠ .done → r.completion.status ≠ 0)
  := by
  have hneg : -eintr < 0 := by decide
  rw [ffsEp0QueueWait_eq]
  cases r.wait with
  | done =>
      apply reports_epStatus.trans
      simp
  | interrupted =>
      apply (reports_error hneg).trans
      simp
  | timedOut =>
      apply (reports_error hneg).trans
      simp

/-- The three calls return the truth about an outcome exactly if it is one they tell: for
`ffs_epfile_iorw` and `ffs_ep0_iorw`, a request that is done and succeeded, one whose wait was
interrupted, and one that failed after a timeout; for `__ffs_ep0_queue_wait`, one that is done, and
one that failed after an interruption. -/
theorem truthful_iff (w : SyncWait) :
  Reports w.returned w.completion ↔ w.Told
  := by
  cases w with
  | epfile timeout r => apply ffsEpfileIorwWait_reports
  | ep0 timeout r => apply ffsEp0IorwWait_reports
  | ep0Queue r => apply ffsEp0QueueWait_reports

/-- A request that is given back because the endpoint is disabled, while `ffs_epfile_iorw` waits. -/
def disabledWait : Race 0 where
  wait := .done
  before := some ⟨-eshutdown, 0⟩
  between := none
  cancelled := ⟨-104, 0⟩
  woken _ := rfl
  timed h := nomatch h

/-- The transfer that failed is returned as one of zero bytes. -/
theorem disabled_reported_as_success :
  (SyncWait.epfile 0 disabledWait).returned = 0
    ∧ ¬Reports (SyncWait.epfile 0 disabledWait).returned (SyncWait.epfile 0 disabledWait).completion
  := by
  use rfl
  intro h
  exact absurd (h.succeeds.mp (by decide)) (by decide)

/-! ### The wait of `ffs_epfile_iorw` -/

/-- What the wait returns to `ffs_epfile_iorw`, of which it looks at the sign: `-ERESTARTSYS`, zero,
or the time that is left. -/
def Race.code (r : Race timeout) : Int :=
  match r.wait with
  | .interrupted => -512
  | .timedOut => 0
  | .done => if 0 < timeout then 1 else 0

/-- What `ffs_epfile_iorw` returns for a request that was queued. -/
theorem run_waitRequest {io : IoData} {env : IorwEnv} (r : Race io.timeout)
    (hqueue : 0 ≤ env.queue) (hwait : env.wait = r.code)
    (hstatus : env.epStatus = r.dequeued.epStatus)
    (hactual : env.reqActual = r.completion.actual.toNat) {s : Locks EpfileLock}
    (hlock : s .epsLock = true) :
  (waitRequest io env).run s = (errorLock (ffsEpfileIorwWait io.timeout r)).run s
  := by
  unfold waitRequest errorLock
  rw [if_neg (Int.not_lt.mpr hqueue), EStateM.run_bind, EStateM.run_bind, run_release hlock]
  rw [ffsEpfileIorwWait_eq, hwait, hstatus, hactual, r.dequeued_eq]
  unfold Race.code
  cases hend : r.wait with
  | done =>
      have hcode : ¬(0 < io.timeout ∧ (if 0 < io.timeout then 1 else 0) = (0 : Int)) := by
        rintro ⟨htimeout, hzero⟩
        rw [if_pos htimeout] at hzero
        cases hzero
      have hpos : ¬((if 0 < io.timeout then 1 else 0) < (0 : Int)) := by
        split <;> decide
      simp only [hcode, if_false, hpos, false_and]
  | interrupted =>
      have hcode : ¬(0 < io.timeout ∧ (-512 : Int) = 0) := fun h => absurd h.2 (by decide)
      have hneg : (-512 : Int) < 0 := by decide
      simp only [hcode, hneg, if_false, true_and]
      split <;> rfl
  | timedOut => simp [r.timed hend]

end Ffs
