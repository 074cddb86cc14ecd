import KhdfLinux.Hdf.Base
import KhdfLinux.Lib.Ledger
import KhdfLinux.Lib.Run

/-!
# The regulator adapter

The driver opens a node with a handle of the kernel, whose consumer counts how often it enabled the
regulator.  `balanced_iff`: over any calls, the count is never lowered below zero, a closed node has
a count of zero, its handles put once and the status off, exactly as long as the regulator is
disabled only where it is enabled, and a node is closed only where it is enabled once, its status is
off and the kernel disables it.
-/

namespace Regulator

/-- `enum RegulatorStatus`. -/
inductive Status where
  | on
  | off
  deriving DecidableEq, Repr

/-- `struct LinuxRegulatorInfo`, its handle by number. -/
structure LinuxRegulatorInfo where
  devName : String
  adapterReg : Option Nat
  deriving DecidableEq, Repr

/-- `struct RegulatorNode` with its `regulatorInfo.status`; the handles that were got and put, the
enable count of the consumer, and the counts at which `regulator_disable` was called. -/
structure State where
  priv : Option LinuxRegulatorInfo
  status : Status
  handles : Ledger
  enableCount : Nat
  disables : List Nat

/-- What `regulator_get` returns. -/
inductive Got where
  | handle
  | error
  | null
  deriving DecidableEq, Repr

/-- The calls, with the name of the device and what the kernel answers. -/
inductive Act where
  | openNode (devname : Option String) (got : Got)
  | close (disabled : Bool)
  | remove (disabled : Bool)
  | enable (enabled isEnabled : Bool)
  | disable (disabled isEnabled : Bool)
  | forceDisable (disabled : Bool)

/-- The call closes the node. -/
def Act.Closes : Act → Prop
  | .close _ => True
  | .remove _ => True
  | _ => False

namespace State

/-- A node that was added. -/
def init (devName : String) : State := ⟨some ⟨devName, none⟩, .off, .empty, 0, []⟩

variable (s : State)

/-- `regulator_disable`: whether it succeeds.  It does not where the count is zero. -/
def regulatorDisable (disabled : Bool) : Bool × State :=
  if s.enableCount = 0 then (false, { s with disables := 0 :: s.disables })
  else
    (disabled, { s with
      enableCount := if disabled then s.enableCount - 1 else s.enableCount
      disables := s.enableCount :: s.disables })

/-- The status after the kernel was asked whether the regulator is enabled. -/
def setStatus (isEnabled : Bool) : State := { s with status := if isEnabled then .on else .off }

/-- `LinuxRegulatorOpen`. -/
def linuxRegulatorOpen (devname : Option String) (got : Got) : Int × State :=
  match s.priv with
  | none => (Hdf.errInvalidObject, s)
  | some info =>
      match info.adapterReg with
      | some _ => (Hdf.success, s)
      | none =>
          if devname ≠ some info.devName then (Hdf.failure, s)
          else
            match got with
            | .error => (Hdf.failure, s)
            | .null => (Hdf.failure, s)
            | .handle =>
                (Hdf.success, { s with
                  priv := some { info with adapterReg := some s.handles.allocated }
                  handles := s.handles.alloc
                  enableCount := 0 })

/-- `LinuxRegulatorClose`: the handle is put whether it could be disabled or not. -/
def linuxRegulatorClose (disabled : Bool) : Int × State :=
  match s.priv with
  | none => (Hdf.errInvalidObject, s)
  | some info =>
      match info.adapterReg with
      | none => (Hdf.success, s)
      | some handle =>
          let s := (s.regulatorDisable disabled).2
          (Hdf.success, { s with
            priv := some { info with adapterReg := none }
            handles := s.handles.free handle })

/-- `LinuxRegulatorRemove`. -/
def linuxRegulatorRemove (disabled : Bool) : Int × State :=
  match s.priv with
  | none => (Hdf.errInvalidObject, s)
  | some _ => (Hdf.success, { (s.linuxRegulatorClose disabled).2 with priv := none })

/-- `LinuxRegulatorEnable`. -/
def linuxRegulatorEnable (enabled isEnabled : Bool) : Int × State :=
  match s.priv with
  | none => (Hdf.errInvalidObject, s)
  | some info =>
      match info.adapterReg with
      | none => (Hdf.errInvalidObject, s)
      | some _ =>
          if enabled then
            (Hdf.success, { s with enableCount := s.enableCount + 1 }.setStatus isEnabled)
          else (Hdf.failure, s)

/-- `LinuxRegulatorDisable`. -/
def linuxRegulatorDisable (disabled isEnabled : Bool) : Int × State :=
  match s.priv with
  | none => (Hdf.errInvalidObject, s)
  | some info =>
      match info.adapterReg with
      | none => (Hdf.errInvalidObject, s)
      | some _ =>
          match s.regulatorDisable disabled with
          | (false, s) => (Hdf.failure, s)
          | (true, s) => (Hdf.success, s.setStatus isEnabled)

/-- `LinuxRegulatorForceDisable`: the enable count is left alone. -/
def linuxRegulatorForceDisable (disabled : Bool) : Int × State :=
  match s.priv with
  | none => (Hdf.errInvalidObject, s)
  | some info =>
      match info.adapterReg with
      | none => (Hdf.errInvalidObject, s)
      | some _ => if disabled then (Hdf.success, { s with status := .off }) else (Hdf.failure, s)

/-- The state after a call. -/
def next : Act → State
  | .openNode devname got => (s.linuxRegulatorOpen devname got).2
  | .close disabled => (s.linuxRegulatorClose disabled).2
  | .remove disabled => (s.linuxRegulatorRemove disabled).2
  | .enable enabled isEnabled => (s.linuxRegulatorEnable enabled isEnabled).2
  | .disable disabled isEnabled => (s.linuxRegulatorDisable disabled isEnabled).2
  | .forceDisable disabled => (s.linuxRegulatorForceDisable disabled).2

/-- The handle of the node. -/
def adapterReg : Option Nat := s.priv.bind LinuxRegulatorInfo.adapterReg

/-- The regulator is disabled only where the count is not zero; a close leaves a count of zero and
all handles put once; and the status of a node without a handle is off. -/
structure Balanced (a : Act) : Prop where
  disables : 0 ∉ (s.next a).disables
  closed : a.Closes → (s.next a).enableCount = 0 ∧ (s.next a).handles.Exact
  status : (s.next a).adapterReg = none → (s.next a).status = .off

/-- A node with a handle is disabled only if it is enabled, and closed only if it is enabled once,
its status is off, and the kernel disables it. -/
def Paired : Act → Prop
  | .disable _ _ => s.adapterReg.isSome → 0 < s.enableCount
  | .close disabled => s.adapterReg.isSome → s.enableCount = 1 ∧ s.status = .off ∧ disabled
  | .remove disabled => s.adapterReg.isSome → s.enableCount = 1 ∧ s.status = .off ∧ disabled
  | _ => True

/-- The handle of the node is the one that was not put; and without one nothing is enabled and the
status is off. -/
structure Inv : Prop where
  handles : s.handles.Holds s.adapterReg.toList
  disables : 0 ∉ s.disables
  enableCount : s.adapterReg = none → s.enableCount = 0
  status : s.adapterReg = none → s.status = .off

end State

variable {s : State} {info : LinuxRegulatorInfo}

/-- A node that was added is closed. -/
theorem State.inv_init (devName : String) :
  (State.init devName).Inv
  where
  handles := Ledger.holds_empty
  disables := List.not_mem_nil
  enableCount _ := rfl
  status _ := rfl

/-- A node with a handle has its information. -/
theorem State.adapterReg_eq_some {handle : Nat} (h : s.adapterReg = some handle) :
  ∃ info, s.priv = some info ∧ info.adapterReg = some handle
  := Option.bind_eq_some_iff.mp h

/-- The invariant depends only on the handles and on what the kernel counts. -/
theorem State.Inv.congr {t : State} (h : s.Inv) (hreg : t.adapterReg = s.adapterReg)
    (hhandles : t.handles = s.handles) (hcount : t.enableCount = s.enableCount)
    (hstatus : t.status = s.status) (hdisables : t.disables = s.disables) :
  t.Inv
  := by
  constructor
  · rw [hhandles, hreg]
    apply h.handles
  · rw [hdisables]
    apply h.disables
  · rw [hreg, hcount]
    apply h.enableCount
  · rw [hreg, hstatus]
    apply h.status

/-- A node without a handle is only opened; the other calls change nothing but its information. -/
theorem State.Inv.next_closed {a : Act} (h : s.Inv) (hreg : s.adapterReg = none)
    (ha : ∀ devname got, a ≠ .openNode devname got) :
  (s.next a).Inv
  := by
  obtain ⟨priv, status, handles, enableCount, disables⟩ := s
  cases priv with
  | none =>
      cases a with
      | openNode devname got => exact absurd rfl (ha devname got)
      | _ => apply h
  | some info =>
      obtain ⟨devName, adapterReg⟩ := info
      obtain rfl : adapterReg = none := hreg
      cases a with
      | openNode devname got => exact absurd rfl (ha devname got)
      | remove disabled => exact h.congr rfl rfl rfl rfl rfl
      | _ => apply h

/-- A node is opened. -/
theorem State.Inv.openNode (h : s.Inv) (devname : Option String) (got : Got) :
  (s.next (.openNode devname got)).Inv
  := by
  obtain ⟨priv, status, handles, enableCount, disables⟩ := s
  cases priv with
  | none => apply h
  | some info =>
      obtain ⟨devName, adapterReg⟩ := info
      cases adapterReg with
      | some handle => apply h
      | none =>
          show State.Inv (State.linuxRegulatorOpen _ devname got).2
          unfold State.linuxRegulatorOpen
          dsimp only
          split
          · apply h
          cases got with
          | error => apply h
          | null => apply h
          | handle =>
              constructor
              · apply h.handles.alloc
              · apply h.disables
              · exact fun hnone => nomatch hnone
              · exact fun hnone => nomatch hnone

/-- After a close the node has no handle. -/
theorem State.adapterReg_of_closes {a : Act} (ha : a.Closes) :
  (s.next a).adapterReg = none
  := by
  obtain ⟨priv, status, handles, enableCount, disables⟩ := s
  cases a with
  | close disabled =>
      cases priv with
      | none => rfl
      | some info =>
          obtain ⟨devName, adapterReg⟩ := info
          cases adapterReg <;> rfl
  | remove disabled => cases priv <;> rfl
  | _ => cases ha

/-- A state with the invariant is balanced. -/
theorem State.Inv.balanced {a : Act} (h : (s.next a).Inv) :
  s.Balanced a
  where
  disables := h.disables
  closed ha := by
    have hreg := s.adapterReg_of_closes ha
    refine ⟨h.enableCount hreg, h.handles.exact_iff.mpr ?_⟩
    rw [hreg]
    rfl
  status := h.status

/-- A node with a handle: nothing is asked of the count and of the status. -/
theorem State.inv_open {devName : String} {handle : Nat} {status : Status} {handles : Ledger}
    {enableCount : Nat} {disables : List Nat} (hhandles : handles.Holds [handle])
    (hdisables : 0 ∉ disables) :
  State.Inv ⟨some ⟨devName, some handle⟩, status, handles, enableCount, disables⟩
  where
  handles := hhandles
  disables := hdisables
  enableCount hnone := nomatch hnone
  status hnone := nomatch hnone

/-- A node whose handle is put: the regulator was enabled once, and is disabled. -/
theorem State.inv_put {priv : Option LinuxRegulatorInfo} {handle : Nat} {handles : Ledger}
    {disables : List Nat} (hhandles : handles.Holds [handle]) (hdisables : 0 ∉ disables)
    (hpriv : priv.bind LinuxRegulatorInfo.adapterReg = none) :
  State.Inv ⟨priv, .off, handles.free handle, 0, 1 :: disables⟩
  where
  handles := by
    show (handles.free handle).Holds (priv.bind LinuxRegulatorInfo.adapterReg).toList
    rw [hpriv]
    simpa using hhandles.free (List.mem_singleton_self handle)
  disables hmem := by
    obtain heq | hmem := List.mem_cons.mp hmem
    · cases heq
    · apply hdisables hmem
  enableCount _ := rfl
  status _ := rfl

/-- A call on a node with a handle keeps it, or puts it. -/
theorem State.Inv.next_open {a : Act} {handle : Nat} (h : s.Inv) (hreg : s.adapterReg = some handle)
    (ha : s.Paired a) :
  (s.next a).Inv
  := by
  obtain ⟨priv, status, handles, enableCount, disables⟩ := s
  obtain ⟨⟨devName, adapterReg⟩, hpriv, hadapter⟩ := State.adapterReg_eq_some hreg
  obtain rfl : priv = some ⟨devName, adapterReg⟩ := hpriv
  obtain rfl : adapterReg = some handle := hadapter
  have hhandles : handles.Holds [handle] := h.handles
  have hdisables : 0 ∉ disables := h.disables
  cases a with
  | openNode devname got => apply h
  | enable enabled isEnabled =>
      cases enabled with
      | false => apply h
      | true => exact State.inv_open hhandles hdisables
  | disable disabled isEnabled =>
      have hpos : 0 < enableCount := ha rfl
      have hmem : 0 ∉ enableCount :: disables := by
        intro hmem
        obtain heq | hmem := List.mem_cons.mp hmem
        · omega
        · apply hdisables hmem
      show State.Inv (State.linuxRegulatorDisable _ disabled isEnabled).2
      unfold State.linuxRegulatorDisable State.regulatorDisable
      dsimp only
      rw [if_neg (Nat.ne_of_gt hpos)]
      cases disabled <;> exact State.inv_open hhandles hmem
  | forceDisable disabled =>
      cases disabled with
      | false => apply h
      | true => exact State.inv_open hhandles hdisables
  | close disabled =>
      obtain ⟨hcount, hstatus, hdisabled⟩ := ha rfl
      obtain rfl : enableCount = 1 := hcount
      obtain rfl : status = .off := hstatus
      obtain rfl : disabled = true := hdisabled
      exact State.inv_put hhandles hdisables rfl
  | remove disabled =>
      obtain ⟨hcount, hstatus, hdisabled⟩ := ha rfl
      obtain rfl : enableCount = 1 := hcount
      obtain rfl : status = .off := hstatus
      obtain rfl : disabled = true := hdisabled
      exact State.inv_put hhandles hdisables rfl

/-- A call that is paired keeps the invariant. -/
theorem State.Inv.next {a : Act} (h : s.Inv) (ha : s.Paired a) :
  (s.next a).Inv
  := by
  cases hreg : s.adapterReg with
  | some handle => exact h.next_open hreg ha
  | none =>
      cases a with
      | openNode devname got => exact h.openNode devname got
      | _ => exact h.next_closed hreg fun _ _ => Act.noConfusion

/-- A close that is balanced is of a node that is enabled once, with its status off, which the
kernel disables. -/
theorem State.paired_of_closed {disabled : Bool}
    (h : 0 ∉ (s.regulatorDisable disabled).2.disables)
    (hcount : (s.regulatorDisable disabled).2.enableCount = 0)
    (hstatus : (s.regulatorDisable disabled).2.status = .off) :
  s.enableCount = 1 ∧ s.status = .off ∧ disabled
  := by
  unfold State.regulatorDisable at h hcount hstatus
  split at h
  · exact absurd List.mem_cons_self h
  · next hne =>
      rw [if_neg hne] at hcount hstatus
      cases disabled with
      | false => exact absurd hcount hne
      | true =>
          have hsub : s.enableCount - 1 = 0 := hcount
          exact ⟨by omega, hstatus, rfl⟩

/-- A call that is balanced is paired. -/
theorem State.Balanced.paired {a : Act} (h : s.Balanced a) :
  s.Paired a
  := by
  obtain ⟨priv, status, handles, enableCount, disables⟩ := s
  cases priv with
  | none => cases a <;> first | trivial | exact fun hsome => nomatch hsome
  | some info =>
      obtain ⟨devName, adapterReg⟩ := info
      cases adapterReg with
      | none => cases a <;> first | trivial | exact fun hsome => nomatch hsome
      | some handle =>
          cases a with
          | disable disabled isEnabled =>
              intro _
              apply Nat.pos_of_ne_zero
              rintro rfl
              apply h.disables List.mem_cons_self
          | close disabled =>
              intro _
              apply State.paired_of_closed h.disables (h.closed trivial).1 (h.status rfl)
          | remove disabled =>
              intro _
              apply State.paired_of_closed h.disables (h.closed trivial).1 (h.status rfl)
          | _ => trivial

/-- The calls on a node are balanced exactly as long as they are paired: the regulator is disabled
only where it is enabled, and a node with a handle is closed or removed only where the regulator is
enabled once, the status is off and the kernel disables it. -/
theorem balanced_iff (devName : String) (acts : List Act) :
  Along State.next State.Balanced (.init devName) acts
    ↔ Along State.next State.Paired (.init devName) acts
  := by
  have hiff : ∀ (s : State) a, s.Inv → (s.Balanced a ↔ s.Paired a) :=
    fun s a h => ⟨fun hbalanced => hbalanced.paired, fun ha => (h.next ha).balanced⟩
  have hkeep : ∀ (s : State) a, s.Inv → s.Paired a → (s.next a).Inv :=
    fun s a h ha => h.next ha
  apply along_iff hiff hkeep (State.inv_init devName)

/-- A node that is opened, enabled, disabled and closed is disabled where it is not enabled; one
that is enabled twice and closed stays enabled; and one that is enabled and closed has its status
on. -/
theorem not_balanced :
  ∃ underflow enabledTwice enabledOnce : List Act,
    ¬Along State.next State.Balanced (.init "dev") underflow
      ∧ (underflow.foldl State.next (.init "dev")).disables = [0, 1]
      ∧ ¬Along State.next State.Balanced (.init "dev") enabledTwice
      ∧ (enabledTwice.foldl State.next (.init "dev")).enableCount = 1
      ∧ ¬Along State.next State.Balanced (.init "dev") enabledOnce
      ∧ (enabledOnce.foldl State.next (.init "dev")).status = .on
  := by
  refine ⟨[.openNode "dev" .handle, .enable true true, .disable true false, .close true],
    [.openNode "dev" .handle, .enable true true, .enable true true, .close true],
    [.openNode "dev" .handle, .enable true true, .close true], ?_, rfl, ?_, rfl, ?_, rfl⟩
  · rintro ⟨-, -, -, hclose, -⟩
    apply hclose.disables List.mem_cons_self
  · rintro ⟨-, -, -, hclose, -⟩
    exact absurd (hclose.closed trivial).1 (by decide)
  · rintro ⟨-, -, hclose, -⟩
    exact absurd (hclose.status rfl) (by decide)

end Regulator
