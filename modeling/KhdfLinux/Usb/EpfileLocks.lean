import KhdfLinux.Usb.Epfile

/-!
# The locks of the endpoint files

A call of `ffsEpfileIorw` or of `ffsEpfileIoctl` returns with the locks as they were exactly
when it does not leave through one of the returns that pass over the release, and does not
stop on a missing endpoint or descriptor.
-/

namespace Ffs

open Exec Locks

/-- A buffer lies in an area that was mapped through the endpoint file. -/
def Epfile.Covers (epfile : Epfile) (buf : UInt64) (len : UInt32) : Prop :=
  genericFindMemoryArea epfile.memoryList buf len ≠ none

/-- A transfer comes as far as looking for its buffer: there is an endpoint, the mutex is
taken, and the endpoint is still the same. -/
def IorwEnv.Reaches (env : IorwEnv) (epfile : Epfile) (io : IoData) : Prop :=
  env.active ∧ env.mutexLock = 0 ∧ ∃ ep, env.waitEp = .ok ep
    ∧ (isHalt epfile io → epfile.isoc = false)
    ∧ (isHalt epfile io = false → env.alignEp = some ep)

/-! ### The states of the locks -/

/-- Both locks are held. -/
def held : Locks EpfileLock := fun _ => true

/-- Only `mutex` is held. -/
def mutexHeld : Locks EpfileLock := Function.update free .mutex true

/-- Only `eps_lock` is held. -/
def epsHeld : Locks EpfileLock := Function.update free .epsLock true

theorem held_eq : Function.update mutexHeld .epsLock true = held
  := by
  funext l
  cases l <;> rfl

theorem free_eq : Function.update mutexHeld .mutex false = free
  := by
  funext l
  cases l <;> rfl

theorem mutexHeld_eq : Function.update held .epsLock false = mutexHeld
  := by
  funext l
  cases l <;> rfl

theorem epsHeld_eq : Function.update epsHeld .epsLock false = free
  := by
  funext l
  cases l <;> rfl

theorem epsHeld_ne : epsHeld ≠ free
  := by
  intro h
  cases congrFun h .epsLock

/-! ### Transfers -/

theorem attempt_run (ret : Int) :
  (attempt EpfileLock.mutex ret).run free = .ok ret (if ret = 0 then mutexHeld else free)
  := run_attempt ret rfl

theorem errorMutex_run (ret : Int) : (errorMutex ret).run mutexHeld = .ok ret free
  := by
  rw [errorMutex, EStateM.run_bind, run_release rfl, free_eq]
  rfl

theorem errorLock_run (ret : Int) : (errorLock ret).run held = .ok ret free
  := by
  rw [errorLock, EStateM.run_bind, run_release rfl, mutexHeld_eq]
  apply errorMutex_run

theorem waitRequest_run (io : IoData) (env : IorwEnv) :
  ∃ ret, (waitRequest io env).run held = .ok ret free
  := by
  unfold waitRequest
  by_cases hq : env.queue < 0
  · rw [if_pos hq]
    exact ⟨_, errorLock_run _⟩
  · rw [if_neg hq, EStateM.run_bind, run_release rfl, mutexHeld_eq]
    dsimp only
    split_ifs
    · exact ⟨_, errorMutex_run _⟩
    · exact ⟨_, errorMutex_run _⟩
    · exact ⟨_, errorMutex_run _⟩

theorem startRequest_run (epfile : Epfile) (io : IoData) (env : IorwEnv) (ep : Nat) :
  (∃ ret, (startRequest epfile io env ep).run mutexHeld = .ok ret free)
    ↔ epfile.Covers io.buf io.len
  := by
  unfold startRequest Epfile.Covers
  rw [EStateM.run_bind, run_acquire rfl, held_eq]
  dsimp only
  cases genericFindMemoryArea epfile.memoryList io.buf io.len with
  | none =>
      constructor
      · rintro ⟨ret, h⟩
        have := congrFun (EStateM.Result.ok.inj h).2 .mutex
        cases this
      · intro h
        apply absurd rfl h
  | some ffsm =>
      simp only [ne_eq, reduceCtorEq, not_false_eq_true, iff_true]
      by_cases he : env.ioEp = some ep
      case neg =>
        rw [if_pos he]
        exact ⟨_, errorLock_run _⟩
      rw [if_neg (not_not_intro he)]
      split_ifs
      · exact ⟨_, errorLock_run _⟩
      · exact ⟨_, errorLock_run _⟩
      · apply waitRequest_run
      · exact ⟨_, errorLock_run _⟩
      · exact ⟨_, errorLock_run _⟩
      · exact ⟨_, errorLock_run _⟩

/-- A transfer returns with the locks as they were unless it looks for its buffer and does
not find it. -/
theorem ffsEpfileIorw_balanced (epfile : Epfile) (io : IoData) (env : IorwEnv) :
  Balanced (ffsEpfileIorw epfile io env) free
    ↔ (env.Reaches epfile io → epfile.Covers io.buf io.len)
  := by
  have hstart := startRequest_run epfile io env
  unfold ffsEpfileIorw IorwEnv.Reaches Locks.Balanced
  by_cases ha : env.active
  case neg => simp [ha]
  cases hw : env.waitEp with
  | error ret => simp [ha]
  | ok ep =>
      by_cases hi : isHalt epfile io ∧ epfile.isoc
      · simp [ha, hi]
      by_cases hm : env.mutexLock = 0
      case neg =>
        simp only [ha, not_true, if_false, hi, EStateM.run_bind, attempt_run, hm, ne_eq,
          not_false_eq_true, if_true, false_and, and_false, false_implies, iff_true]
        exact ⟨_, rfl⟩
      simp only [ha, not_true, if_false, hi, EStateM.run_bind, attempt_run, hm, ne_eq, if_true,
        true_and, Except.ok.injEq, exists_eq_left']
      by_cases hh : isHalt epfile io
      · have hisoc : epfile.isoc = false := by simpa [hh] using hi
        simp only [hh, if_true, hstart, hisoc]
        simp
      · simp only [hh]
        rw [if_neg Bool.false_ne_true, EStateM.run_bind, run_acquire rfl, held_eq]
        dsimp only
        by_cases he : env.alignEp = some ep
        · simp only [he, not_true, if_false]
          rw [EStateM.run_bind, run_release rfl, mutexHeld_eq]
          dsimp only
          rw [hstart]
          simp
        · simp only [he, not_false_eq_true, if_true]
          rw [errorLock_run]
          simp

/-! ### Commands -/

/-- The state and the arguments on which a command returns with the locks as they were. -/
def IoctlEnv.Clean (env : IoctlEnv) (epfile : Epfile) : EpfileCmd → Prop
  | .releaseBuf => ∃ mem, env.mem = some mem ∧ epfile.Covers mem.buf mem.size
  | .read | .write =>
      ∀ io, env.io = some io → (io.aio = 0 ∨ env.kmalloc) → env.iorw.Reaches epfile io →
        epfile.Covers io.buf io.len
  | .rwCancel | .getReqStatus =>
      env.ep ≠ none → ∀ io, env.io = some io →
        epfile.Covers io.buf io.len ∧ env.lockedEp ≠ none
  | .fifoStatus | .fifoFlush | .clearHalt | .endpointRevmap => env.lockedEp ≠ none
  | .endpointDesc => env.descs (descIdx env.superSpeed) ≠ none
  | .queueInit | .queueDel | .other => True

theorem unlockReturn_run (ret : Int) : (unlockReturn ret).run epsHeld = .ok ret free
  := by
  rw [unlockReturn, EStateM.run_bind, run_release rfl, epsHeld_eq]
  rfl

theorem ioctlReadWrite_run (epfile : Epfile) (env : IoctlEnv) :
  (∃ ret, (ioctlReadWrite epfile env).run epsHeld = .ok ret free) ↔ env.Clean epfile .read
  := by
  unfold ioctlReadWrite IoctlEnv.Clean
  cases hio : env.io with
  | none => simp [unlockReturn_run]
  | some io =>
      dsimp only
      by_cases hk : io.aio ≠ 0 ∧ ¬env.kmalloc
      · rw [if_pos hk, unlockReturn_run]
        simp only [Option.some.injEq]
        constructor
        · rintro - _ rfl (h | h)
          · apply absurd h hk.1
          · apply absurd h hk.2
        · intro _
          exact ⟨_, rfl⟩
      · rw [if_neg hk, EStateM.run_bind, run_release rfl, epsHeld_eq]
        dsimp only
        have hor : io.aio = 0 ∨ env.kmalloc := by tauto
        have hiorw := ffsEpfileIorw_balanced epfile io env.iorw
        simp only [Option.some.injEq, forall_eq', hor, true_implies]
        rw [← hiorw, EStateM.run_bind]
        constructor
        · rintro ⟨ret, h⟩
          cases hrun : (ffsEpfileIorw epfile io env.iorw).run free with
          | ok a s =>
              rw [hrun] at h
              obtain ⟨-, rfl⟩ := EStateM.Result.ok.inj h
              exact ⟨a, hrun⟩
          | error e s =>
              rw [hrun] at h
              cases h
        · rintro ⟨a, h⟩
          rw [h]
          exact ⟨_, rfl⟩

theorem ioctlFindRequest_run (epfile : Epfile) (env : IoctlEnv) (found : Int → Int) :
  (∃ ret, (ioctlFindRequest epfile env found).run epsHeld = .ok ret free)
    ↔ env.Clean epfile .rwCancel
  := by
  unfold ioctlFindRequest IoctlEnv.Clean Epfile.Covers
  by_cases hep : env.ep = none
  · simp [hep, unlockReturn_run]
  rw [if_neg hep]
  cases hio : env.io with
  | none => simp [unlockReturn_run]
  | some io =>
      dsimp only
      cases hf : genericFindMemoryArea epfile.memoryList io.buf io.len with
      | none => simp [epsHeld_ne, hep, hf]
      | some ffsm =>
          dsimp only
          by_cases hl : env.lockedEp = none
          · simp [hl, hep]
          · rw [if_neg hl]
            simp only [hep, ne_eq, not_false_eq_true, Option.some.injEq, forall_eq', hf, hl,
              reduceCtorEq, and_self, true_implies, iff_true]
            cases List.find? _ env.requests with
            | none => exact ⟨_, unlockReturn_run _⟩
            | some req => exact ⟨_, unlockReturn_run _⟩

theorem ioctlEp_run (env : IoctlEnv) (ret : Int) :
  (∃ a, (ioctlEp env ret).run epsHeld = .ok a free) ↔ env.lockedEp ≠ none
  := by
  unfold ioctlEp
  by_cases hl : env.lockedEp = none
  · simp [hl]
  · simp [hl, unlockReturn_run]

theorem ioctlEndpointDesc_run (env : IoctlEnv) :
  (∃ ret, (ioctlEndpointDesc env).run epsHeld = .ok ret free)
    ↔ env.descs (descIdx env.superSpeed) ≠ none
  := by
  unfold ioctlEndpointDesc
  rw [EStateM.run_bind, run_release rfl, epsHeld_eq]
  dsimp only
  cases env.descs (descIdx env.superSpeed) with
  | none => simp
  | some d => simp

/-- A command returns with the locks as they were exactly when it is clean. -/
theorem ffsEpfileIoctl_balanced (epfile : Epfile) (cmd : EpfileCmd) (env : IoctlEnv) :
  Balanced (ffsEpfileIoctl epfile cmd env) free ↔ (env.active → env.Clean epfile cmd)
  := by
  unfold ffsEpfileIoctl Locks.Balanced
  by_cases ha : env.active
  case neg => simp [ha]
  simp only [ha, not_true, if_false, true_implies]
  rw [EStateM.run_bind, run_acquire rfl]
  dsimp only
  rw [show Function.update free EpfileLock.epsLock true = epsHeld from rfl]
  cases cmd with
  | queueInit => simp [unlockReturn_run, IoctlEnv.Clean]
  | queueDel => simp [unlockReturn_run, IoctlEnv.Clean]
  | releaseBuf =>
      unfold IoctlEnv.Clean Epfile.Covers
      cases hmem : env.mem with
      | none => simp [epsHeld_ne]
      | some mem =>
          dsimp only
          cases hf : genericFindMemoryArea epfile.memoryList mem.buf mem.size with
          | none => simp [epsHeld_ne, hf]
          | some ffsm => simp [unlockReturn_run, hf]
  | read => apply ioctlReadWrite_run
  | write => apply ioctlReadWrite_run
  | rwCancel => apply ioctlFindRequest_run
  | getReqStatus => apply ioctlFindRequest_run
  | fifoStatus => apply ioctlEp_run
  | fifoFlush => apply ioctlEp_run
  | clearHalt => apply ioctlEp_run
  | endpointRevmap => apply ioctlEp_run
  | endpointDesc => apply ioctlEndpointDesc_run
  | other => simp [unlockReturn_run, IoctlEnv.Clean]

/-! ### Calls -/

/-- The calls on an endpoint file. -/
inductive EpfileCall where
  | iorw (epfile : Epfile) (io : IoData) (env : IorwEnv)
  | ioctl (epfile : Epfile) (cmd : EpfileCmd) (env : IoctlEnv)

/-- What a call does with the locks. -/
def EpfileCall.run : EpfileCall → Exec (Locks EpfileLock) Int
  | iorw epfile io env => ffsEpfileIorw epfile io env
  | ioctl epfile cmd env => ffsEpfileIoctl epfile cmd env

/-- The state and the arguments on which a call returns with the locks as they were. -/
def EpfileCall.Clean : EpfileCall → Prop
  | iorw epfile io env => env.Reaches epfile io → epfile.Covers io.buf io.len
  | ioctl epfile cmd env => env.active → env.Clean epfile cmd

theorem EpfileCall.balanced_call_iff (call : EpfileCall) :
  Balanced call.run free ↔ call.Clean
  := by
  cases call with
  | iorw epfile io env => apply ffsEpfileIorw_balanced
  | ioctl epfile cmd env => apply ffsEpfileIoctl_balanced

/-- A call returns with the locks as they were exactly when it is clean, and then a sequence
of clean calls runs to its end, with both locks free between the calls. -/
theorem epfileCalls_balanced (call : EpfileCall) (calls : List EpfileCall) :
  (Balanced call.run free ↔ call.Clean)
    ∧ ((∀ call ∈ calls, call.Clean) → Balanced (calls.mapM EpfileCall.run) free)
  := by
  constructor
  · apply EpfileCall.balanced_call_iff
  · intro hclean
    apply balanced_mapM
    intro call hcall
    apply call.balanced_call_iff.mpr (hclean call hcall)

/-- To release the buffer at the address 0 of an endpoint file without buffers. -/
def releaseNothing : EpfileCall :=
  .ioctl ⟨[], true, false⟩ .releaseBuf {
    active := true
    ep := none
    lockedEp := none
    kfifoAlloc := 0
    mem := some ⟨1, 0⟩
    io := none
    kmalloc := true
    iorw := ⟨true, false, none, none, none, none, 0, 0, 0, 0, 0, 0, true⟩
    requests := []
    fifoStatus := 0
    clearHalt := 0
    epNum := 0
    superSpeed := false
    descs := fun _ => none
    copyToUser := true }

/-- The release of a buffer that is not there keeps `eps_lock`, and the next command waits
for it forever. -/
theorem releaseNothing_keeps_lock :
  releaseNothing.run.run free = .ok (-efault) epsHeld
    ∧ ([releaseNothing, releaseNothing].mapM EpfileCall.run).run free
      = .error (.fault .deadlock) epsHeld
  := ⟨rfl, rfl⟩

end Ffs
