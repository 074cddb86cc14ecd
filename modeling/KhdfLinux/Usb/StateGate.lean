import KhdfLinux.Usb.Enabling
import KhdfLinux.Usb.EpfileLocks
import Mathlib.Data.Nat.Pairing

/-!
# The gate of the endpoint files

The operations on the endpoint files of an `ffs_data`, while its state and the `ep` of the
files change.  A command reads the state and `epfile->ep` when it starts, and looks at the
`ep` again under `eps_lock`, when other calls may have come in between.  `epfile_gated`: no
operation made while the state is not `FFS_ACTIVE` succeeds and none follows an `ep` that is
null, exactly if there is no `mmap`, `read` or `write` then, and the commands that use the
`ep` find one.
-/

namespace Ffs

open Exec Locks

/-! ### The operations -/

/-- `ffs_epfile_open`. -/
def ffsEpfileOpen (state : FfsState) : Int := if state ≠ .active then -enodev else 0

/-- What comes of the steps of `ffs_epfile_mmap`: the allocation of the memory and of the
record, and `remap_pfn_range`. -/
structure MmapEnv where
  virtMem : Bool
  ffsm : Bool
  remap : Int
  deriving DecidableEq, Repr

/-- `ffs_epfile_mmap`, of a file that is open. -/
def ffsEpfileMmap (env : MmapEnv) : Int :=
  if ¬env.virtMem then -enomem
  else if ¬env.ffsm then -1
  else if env.remap ≠ 0 then -1
  else 0

/-- What `ffs_epfile_read` finds: the queue is empty, or `kfifo_to_user` copies so many bytes,
if it does not fail. -/
structure ReadEnv where
  fifoEmpty : Bool
  copied : Option Nat
  deriving DecidableEq, Repr

/-- `ffs_epfile_read`. -/
def ffsEpfileRead (env : ReadEnv) : Int :=
  if env.fifoEmpty then 0
  else
    match env.copied with
    | some copied => copied
    | none => -1

/-- `ffs_epfile_write`. -/
def ffsEpfileWrite (count : Nat) : Int := count

/-- A command on an endpoint file that has started; `env` holds what it read then. -/
structure EpfileIoctl where
  index : Nat
  epfile : Epfile
  cmd : EpfileCmd
  env : IoctlEnv

/-- The rest of the command, which finds `ep` in the endpoint file. -/
def EpfileIoctl.run (call : EpfileIoctl) (ep : Option Nat) :
    EStateM.Result Stop (Locks EpfileLock) Int :=
  (ffsEpfileIoctl call.epfile call.cmd { call.env with lockedEp := ep }).run free

/-- A command that has started comes as far as to use the `ep` of the file. -/
def EpfileIoctl.UsesEp (call : EpfileIoctl) : Prop :=
  call.env.active
    ∧ match call.cmd with
      | .fifoStatus | .fifoFlush | .clearHalt | .endpointRevmap => True
      | .rwCancel | .getReqStatus =>
          call.env.ep ≠ none ∧ ∃ io, call.env.io = some io ∧ call.epfile.Covers io.buf io.len
      | _ => False

/-- The command returned no error. -/
def Succeeds (res : EStateM.Result Stop (Locks EpfileLock) Int) : Prop :=
  ∃ ret locks, res = .ok ret locks ∧ 0 ≤ ret

/-- The command stopped the kernel at a null pointer. -/
def FollowsNull (res : EStateM.Result Stop (Locks EpfileLock) Int) : Prop :=
  ∃ locks, res = .error (.fault .nullDeref) locks

/-! ### The system -/

/-- The state of an `ffs_data`, the endpoint files that are open, each given by its index, and
the commands that have started. -/
structure GateState where
  eps : EpsState
  files : List Nat
  calls : List EpfileIoctl

/-- What happens to an `ffs_data` and its endpoint files. -/
inductive GateAct where
  | eps (a : EpsAct)
  | open (index : Nat)
  | mmap (index : Nat) (env : MmapEnv)
  | read (index : Nat) (env : ReadEnv)
  | write (index : Nat) (count : Nat)
  /-- A command starts. -/
  | ioctl (index : Nat) (epfile : Epfile) (cmd : EpfileCmd) (env : IoctlEnv)
  /-- A command goes on under `eps_lock`, and returns. -/
  | finish (k : Nat)

namespace GateState

/-- `epfile->ep`. -/
def ep (s : GateState) (index : Nat) : Option Nat :=
  (s.eps.epfileEp index).map fun ep => Nat.pair ep.1 ep.2

/-- The command, with what it reads when it starts. -/
def start (s : GateState) (index : Nat) (epfile : Epfile) (cmd : EpfileCmd) (env : IoctlEnv) :
    EpfileIoctl :=
  ⟨index, epfile, cmd, { env with active := s.eps.state = .active, ep := s.ep index }⟩

/-- The next state, if the step is possible and does not stop the kernel.  The files of an
`ffs_data` that is deleted are not followed any further. -/
def step (s : GateState) : GateAct → Option GateState
  | .eps .teardown => (s.eps.step .teardown).map fun res => ⟨res.1, [], []⟩
  | .eps a => (s.eps.step a).map fun res => { s with eps := res.1 }
  | .open index =>
      if index < s.eps.epsCount then
        some (if ffsEpfileOpen s.eps.state = 0 then { s with files := index :: s.files } else s)
      else none
  | .mmap index _ | .read index _ | .write index _ => if index ∈ s.files then some s else none
  | .ioctl index epfile cmd env =>
      if index ∈ s.files then some { s with calls := s.calls ++ [s.start index epfile cmd env] }
      else none
  | .finish k =>
      match s.calls[k]? with
      | none => none
      | some call =>
          match call.run (s.ep call.index) with
          | .ok _ _ => some { s with calls := s.calls.eraseIdx k }
          | .error _ _ => none

/-- What is promised of a step: an operation that is made while the state is not `FFS_ACTIVE`
does not succeed, whatever happens until it ends, and a command does not follow an `ep` that is
null.  The null pointer of `FUNCTIONFS_ENDPOINT_DESC` is another one. -/
def Gated (s : GateState) : GateAct → Prop
  | .eps _ => True
  | .open _ => s.eps.state ≠ .active → ffsEpfileOpen s.eps.state < 0
  | .mmap _ env => s.eps.state ≠ .active → ffsEpfileMmap env < 0
  | .read _ env => s.eps.state ≠ .active → ffsEpfileRead env < 0
  | .write _ count => s.eps.state ≠ .active → ffsEpfileWrite count < 0
  | .ioctl index epfile cmd env =>
      s.eps.state ≠ .active → ∀ ep, ¬Succeeds ((s.start index epfile cmd env).run ep)
  | .finish k =>
      ∀ call, s.calls[k]? = some call → call.cmd ≠ .endpointDesc →
        ¬FollowsNull (call.run (s.ep call.index))

/-- The condition on a step.  While the state is not `FFS_ACTIVE` there is no `write`, and no
`mmap` or `read` but one that fails for another reason; and a command that uses the `ep` of its
file finds one. -/
def MeetsGate (s : GateState) : GateAct → Prop
  | .mmap _ env => s.eps.state ≠ .active → ¬(env.virtMem ∧ env.ffsm ∧ env.remap = 0)
  | .read _ env => s.eps.state ≠ .active → env.fifoEmpty = false ∧ env.copied = none
  | .write _ _ => s.eps.state = .active
  | .finish k =>
      ∀ call, s.calls[k]? = some call → call.UsesEp → s.eps.epfileEp call.index ≠ none
  | _ => True

end GateState

/-! ### Commands at a null pointer -/

/-- The second part of a transfer returns. -/
theorem startRequest_returns (epfile : Epfile) (io : IoData) (env : IorwEnv) (ep : Nat) :
  ∃ ret locks, (startRequest epfile io env ep).run mutexHeld = .ok ret locks
  := by
  by_cases hcovers : epfile.Covers io.buf io.len
  · obtain ⟨ret, hret⟩ := (startRequest_run epfile io env ep).mpr hcovers
    exact ⟨ret, free, hret⟩
  · have hnone : genericFindMemoryArea epfile.memoryList io.buf io.len = none := not_not.mp hcovers
    refine ⟨-efault, held, ?_⟩
    unfold startRequest
    rw [EStateM.run_bind, run_acquire rfl, held_eq]
    simp only [hnone]
    rfl

/-- A transfer returns. -/
theorem ffsEpfileIorw_returns (epfile : Epfile) (io : IoData) (env : IorwEnv) :
  ∃ ret locks, (ffsEpfileIorw epfile io env).run free = .ok ret locks
  := by
  by_cases hclean : env.Reaches epfile io → epfile.Covers io.buf io.len
  · obtain ⟨ret, hret⟩ := (ffsEpfileIorw_balanced epfile io env).mpr hclean
    exact ⟨ret, free, hret⟩
  · rw [Classical.not_imp] at hclean
    obtain ⟨⟨hactive, hmutex, ep, hep, hisoc, halign⟩, -⟩ := hclean
    have hstart := startRequest_returns epfile io env ep
    unfold ffsEpfileIorw
    rw [if_neg (not_not.mpr hactive), hep]
    dsimp only
    by_cases hhalt : isHalt epfile io
    · rw [if_neg (by simp [hisoc hhalt]), EStateM.run_bind, attempt_run, if_pos hmutex]
      dsimp only
      rw [if_neg (not_not.mpr hmutex), if_pos hhalt]
      apply hstart
    · rw [if_neg (by simp [hhalt]), EStateM.run_bind, attempt_run, if_pos hmutex]
      dsimp only
      rw [if_neg (not_not.mpr hmutex), if_neg hhalt, EStateM.run_bind, run_acquire rfl, held_eq]
      dsimp only
      rw [if_neg (not_not.mpr (halign (Bool.eq_false_iff.mpr hhalt))), EStateM.run_bind,
        run_release rfl, mutexHeld_eq]
      apply hstart

/-- What returns does not follow a null pointer. -/
theorem not_followsNull_of_ok {res : EStateM.Result Stop (Locks EpfileLock) Int} {ret : Int}
    {locks : Locks EpfileLock} (h : res = .ok ret locks) :
  ¬FollowsNull res
  := by
  rintro ⟨locks', hnull⟩
  rw [h] at hnull
  cases hnull

theorem unlockReturn_not_followsNull (ret : Int) :
  ¬FollowsNull ((unlockReturn ret).run epsHeld)
  := not_followsNull_of_ok (unlockReturn_run ret)

/-- A transfer, as a command. -/
theorem ioctlReadWrite_not_followsNull (epfile : Epfile) (env : IoctlEnv) :
  ¬FollowsNull ((ioctlReadWrite epfile env).run epsHeld)
  := by
  unfold ioctlReadWrite
  cases env.io with
  | none => exact unlockReturn_not_followsNull _
  | some io =>
      dsimp only
      by_cases hk : io.aio ≠ 0 ∧ ¬env.kmalloc
      · rw [if_pos hk]
        apply unlockReturn_not_followsNull _
      · rw [if_neg hk, EStateM.run_bind, run_release rfl, epsHeld_eq]
        dsimp only
        obtain ⟨ret, locks, hret⟩ := ffsEpfileIorw_returns epfile io env.iorw
        rw [EStateM.run_bind, hret]
        apply not_followsNull_of_ok rfl

/-- A command that looks for a request. -/
theorem ioctlFindRequest_followsNull_iff (epfile : Epfile) (env : IoctlEnv) (found : Int → Int) :
  FollowsNull ((ioctlFindRequest epfile env found).run epsHeld)
    ↔ (env.ep ≠ none ∧ ∃ io, env.io = some io ∧ epfile.Covers io.buf io.len)
      ∧ env.lockedEp = none
  := by
  unfold ioctlFindRequest Epfile.Covers
  by_cases hep : env.ep = none
  · rw [if_pos hep]
    apply iff_of_false (unlockReturn_not_followsNull _) fun h => h.1.1 hep
  rw [if_neg hep]
  cases hio : env.io with
  | none => exact iff_of_false (unlockReturn_not_followsNull _) (by simp)
  | some io =>
      dsimp only
      cases hfind : genericFindMemoryArea epfile.memoryList io.buf io.len with
      | none => exact iff_of_false (not_followsNull_of_ok rfl) (by simp [hfind])
      | some ffsm =>
          dsimp only
          by_cases hlocked : env.lockedEp = none
          · rw [if_pos hlocked]
            exact iff_of_true ⟨_, rfl⟩ ⟨⟨hep, io, rfl, by simp [hfind]⟩, hlocked⟩
          · rw [if_neg hlocked]
            refine iff_of_false ?_ fun h => hlocked h.2
            cases List.find? _ env.requests with
            | none => exact unlockReturn_not_followsNull _
            | some req => exact unlockReturn_not_followsNull _

/-- A command that asks the controller. -/
theorem ioctlEp_followsNull_iff (env : IoctlEnv) (ret : Int) :
  FollowsNull ((ioctlEp env ret).run epsHeld) ↔ env.lockedEp = none
  := by
  unfold ioctlEp
  by_cases hlocked : env.lockedEp = none
  · rw [if_pos hlocked]
    exact iff_of_true ⟨_, rfl⟩ hlocked
  · rw [if_neg hlocked]
    apply iff_of_false (unlockReturn_not_followsNull ret) hlocked

/-- A command follows a null `ep` exactly if it uses the `ep`, and finds none. -/
theorem EpfileIoctl.followsNull_iff (call : EpfileIoctl) (hcmd : call.cmd ≠ .endpointDesc)
    (ep : Option Nat) :
  FollowsNull (call.run ep) ↔ call.UsesEp ∧ ep = none
  := by
  obtain ⟨index, epfile, cmd, env⟩ := call
  unfold EpfileIoctl.run EpfileIoctl.UsesEp ffsEpfileIoctl
  dsimp only at hcmd ⊢
  by_cases hactive : env.active
  case neg =>
    rw [if_pos hactive]
    apply iff_of_false (not_followsNull_of_ok rfl) fun h => hactive h.1.1
  rw [if_neg (not_not.mpr hactive), EStateM.run_bind, run_acquire rfl]
  dsimp only
  rw [show Function.update free EpfileLock.epsLock true = epsHeld from rfl]
  cases cmd with
  | queueInit => exact iff_of_false (unlockReturn_not_followsNull _) (by simp)
  | queueDel => exact iff_of_false (unlockReturn_not_followsNull _) (by simp)
  | releaseBuf =>
      refine iff_of_false ?_ (by simp)
      dsimp only
      cases env.mem with
      | none => exact not_followsNull_of_ok rfl
      | some mem =>
          dsimp only
          cases genericFindMemoryArea epfile.memoryList mem.buf mem.size with
          | none => exact not_followsNull_of_ok rfl
          | some ffsm => exact unlockReturn_not_followsNull _
  | read => exact iff_of_false (ioctlReadWrite_not_followsNull _ _) (by simp)
  | write => exact iff_of_false (ioctlReadWrite_not_followsNull _ _) (by simp)
  | rwCancel =>
      rw [and_iff_right hactive]
      apply ioctlFindRequest_followsNull_iff epfile { env with lockedEp := ep } _
  | getReqStatus =>
      rw [and_iff_right hactive]
      apply ioctlFindRequest_followsNull_iff epfile { env with lockedEp := ep } _
  | fifoStatus =>
      simpa [hactive] using ioctlEp_followsNull_iff { env with lockedEp := ep } _
  | fifoFlush =>
      simpa [hactive] using ioctlEp_followsNull_iff { env with lockedEp := ep } _
  | clearHalt =>
      simpa [hactive] using ioctlEp_followsNull_iff { env with lockedEp := ep } _
  | endpointRevmap =>
      simpa [hactive] using ioctlEp_followsNull_iff { env with lockedEp := ep } _
  | endpointDesc => exact absurd rfl hcmd
  | other => exact iff_of_false (unlockReturn_not_followsNull _) (by simp)

/-- A command that starts while the state is not `FFS_ACTIVE` fails. -/
theorem GateState.start_fails {s : GateState} (h : s.eps.state ≠ .active) (index : Nat)
    (epfile : Epfile) (cmd : EpfileCmd) (env : IoctlEnv) (ep : Option Nat) :
  ¬Succeeds ((s.start index epfile cmd env).run ep)
  := by
  rintro ⟨ret, locks, hret, hnonneg⟩
  unfold EpfileIoctl.run GateState.start ffsEpfileIoctl at hret
  rw [if_pos (by simp [h])] at hret
  obtain ⟨rfl, -⟩ := EStateM.Result.ok.inj hret
  exact absurd hnonneg (by decide)

/-! ### Steps and runs -/

namespace GateState

/-- A step keeps its promise exactly if it meets the condition. -/
theorem gated_iff (s : GateState) (a : GateAct) :
  s.Gated a ↔ s.MeetsGate a
  := by
  cases a with
  | eps a => exact iff_of_true trivial trivial
  | «open» index =>
      refine iff_of_true (fun h => ?_) trivial
      unfold ffsEpfileOpen
      rw [if_pos h]
      decide
  | mmap index env =>
      refine imp_congr_right fun _ => ?_
      unfold ffsEpfileMmap
      cases env.virtMem with
      | false => exact iff_of_true (by simp [enomem]) (by simp)
      | true =>
          cases env.ffsm with
          | false => exact iff_of_true (by simp) (by simp)
          | true =>
              by_cases hremap : env.remap = 0
              · rw [if_neg (by simp), if_neg (by simp), if_neg (not_not.mpr hremap)]
                exact iff_of_false (by decide) (by simp [hremap])
              · rw [if_neg (by simp), if_neg (by simp), if_pos hremap]
                exact iff_of_true (by decide) (by simp [hremap])
  | read index env =>
      refine imp_congr_right fun _ => ?_
      unfold ffsEpfileRead
      cases env.fifoEmpty with
      | true => simp
      | false =>
          cases env.copied with
          | none => simp
          | some copied => simp
  | write index count =>
      unfold Gated MeetsGate ffsEpfileWrite
      constructor
      · intro h
        by_contra hnot
        exact absurd (h hnot) (by omega)
      · intro h hnot
        apply absurd h hnot
  | ioctl index epfile cmd env =>
      apply iff_of_true (fun h => start_fails h index epfile cmd env) trivial
  | finish k =>
      refine forall_congr' fun call => imp_congr_right fun _ => ?_
      have hep : s.ep call.index = none ↔ s.eps.epfileEp call.index = none := Option.map_eq_none_iff
      by_cases hcmd : call.cmd = .endpointDesc
      · refine iff_of_true (fun hne => absurd hcmd hne) fun huses => ?_
        have := huses.2
        rw [hcmd] at this
        cases this
      · rw [EpfileIoctl.followsNull_iff call hcmd, hep]
        tauto

end GateState

/-- An `ffs_data` that was just created. -/
def gateStateNew : GateState where
  eps := epsStateNew
  files := []
  calls := []

namespace GateState

variable {s : GateState}

/-- If there is no `mmap`, `read` or `write` while the state is not `FFS_ACTIVE`, and every
command that uses the `ep` of its file finds one, then no operation of the run succeeds while
the state is not `FFS_ACTIVE` or follows a null `ep`, however the commands are interleaved with
the calls that enable and disable endpoints; and a further step keeps this exactly if it meets
the condition too. -/
theorem epfile_gated {as : List GateAct}
    (h : Run (fun s a t => s.MeetsGate a ∧ s.step a = some t) gateStateNew as s) :
  Run (fun s a t => s.Gated a ∧ s.step a = some t) gateStateNew as s
    ∧ ∀ a, s.Gated a ↔ s.MeetsGate a
  := by
  refine ⟨h.mono fun s a t hstep => ?_, s.gated_iff⟩
  exact ⟨(s.gated_iff a).mpr hstep.1, hstep.2⟩

/-- A command whose arguments are copied, without mapped memory. -/
def plainIoctl : IoctlEnv where
  active := true
  ep := none
  lockedEp := none
  kfifoAlloc := 0
  mem := none
  io := none
  kmalloc := true
  iorw :=
    { active := true, nonblock := false, ep := none, waitedEp := none, alignEp := none,
      ioEp := none, mutexLock := 0, setHalt := 0, queue := 0, wait := 0, epStatus := 0,
      reqActual := 0, allocRequest := true }
  requests := []
  fifoStatus := 0
  clearHalt := 0
  epNum := 1
  superSpeed := false
  descs := fun _ => some 7
  copyToUser := true

/-- An endpoint file without mapped memory. -/
def plainEpfile : Epfile := ⟨[], true, false⟩

/-- A file is opened and written, and the controller asked, while the endpoint is enabled. -/
theorem epfile_gated_enabled :
  ∃ s, Run (fun s a t => s.MeetsGate a ∧ s.step a = some t) gateStateNew
      [.eps (.gotDescs 2), .eps (.gotStrings true), .open 0, .eps (.bind 0 EpsState.twoEndpoints),
        .eps (.setAlt 0 0 0 EpsState.allEnabled), .write 0 3,
        .ioctl 0 plainEpfile .fifoStatus plainIoctl, .finish 0] s
    ∧ ∀ a, s.Gated a ↔ s.MeetsGate a
  := by
  have hrun : ∃ s, Run (fun s a t => s.MeetsGate a ∧ s.step a = some t) gateStateNew
      [.eps (.gotDescs 2), .eps (.gotStrings true), .open 0, .eps (.bind 0 EpsState.twoEndpoints),
        .eps (.setAlt 0 0 0 EpsState.allEnabled), .write 0 3,
        .ioctl 0 plainEpfile .fifoStatus plainIoctl, .finish 0] s := by
    refine ⟨_, .cons ⟨trivial, rfl⟩ (.cons ⟨trivial, rfl⟩ (.cons ⟨trivial, rfl⟩
      (.cons ⟨trivial, rfl⟩ (.cons ⟨trivial, rfl⟩ (.cons ⟨rfl, rfl⟩ (.cons ⟨trivial, rfl⟩
        (.cons ⟨fun call hcall _ => ?_, rfl⟩ (.nil _))))))))⟩
    obtain rfl := Option.some.inj hcall
    nofun
  obtain ⟨s, hrun⟩ := hrun
  exact ⟨s, hrun, (epfile_gated hrun).2⟩

/-- A file that was opened before `ffs_ready` failed can be written after it, and a command
that asks the controller before the endpoint is enabled follows a null pointer. -/
theorem write_succeeds_closing :
  (∃ s, Run (fun s a t => s.step a = some t) gateStateNew
      [.eps (.gotDescs 2), .eps (.gotStrings true), .open 0, .eps .readyFails] s
    ∧ s.eps.state = .closing ∧ 0 ∈ s.files ∧ ¬s.Gated (.write 0 3))
    ∧ ∃ s, Run (fun s a t => s.step a = some t) gateStateNew
        [.eps (.gotDescs 2), .eps (.gotStrings true), .open 0,
          .ioctl 0 plainEpfile .fifoStatus plainIoctl] s
      ∧ s.eps.state = .active ∧ ¬s.Gated (.finish 0)
  := by
  refine ⟨⟨_, .cons rfl (.cons rfl (.cons rfl (.cons rfl (.nil _)))), rfl, .head _, fun h => ?_⟩,
    ⟨_, .cons rfl (.cons rfl (.cons rfl (.cons rfl (.nil _)))), rfl, fun h => ?_⟩⟩
  · exact absurd (h nofun) (by decide)
  · exact h _ rfl nofun ⟨_, rfl⟩

end GateState

end Ffs
