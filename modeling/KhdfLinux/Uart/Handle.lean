import KhdfLinux.Adc.Handle

/-!
# The file of a UART host

`UartAdapterInit` opens the file of the host and keeps it in `priv`, which the reads, the writes and
the calls that are based on an ioctl use and `UartAdapterDeInit` closes.  `follows_iff`: over any
calls on an ADC device, and over any on a UART host, the file follows them exactly as long as the
device is used only where its file is open, and stopped only where that is the only one.
-/

namespace Uart

/-- The calls that are based on an ioctl. -/
inductive IoctlCall where
  | getBaud
  | setBaud
  | getAttribute
  | setAttribute
  deriving DecidableEq, Repr

/-- The calls on a host, with the results of the functions of the kernel: whether there is a place
for the data or the setting, and what each transfer or ioctl returns. -/
inductive HostAct where
  | init (named opens : Bool)
  | read (data : Bool) (size : BitVec 32) (vfsReads : List Int)
  | write (data : Bool) (size : BitVec 32) (vfsWrite : Int)
  | ioctl (call : IoctlCall) (place : Bool) (ret : Int)
  | deInit (filpClose : Int)

/-- `UartAdapterInit`: whether the name fits, and the file can be opened. -/
def uartAdapterInit (host : Handles) (named opens : Bool) : Int × Touched × Handles :=
  if ¬named then (Hdf.failure, .nothing, host)
  else if ¬opens then (Hdf.failure, .nothing, host)
  else (Hdf.success, .nothing, host.opened)

/-- `UartAdapterDeInit`: the pointer is kept. -/
def uartAdapterDeInit (host : Handles) (filpClose : Int) : Int × Touched × Handles :=
  match host.pointer with
  | none => (Hdf.success, .nothing, host)
  | some fp => (filpClose, .object fp, host.closed fp)

/-- The file that `priv` refers to, which is not tested. -/
def fileOf (host : Handles) : Touched :=
  match host.pointer with
  | none => .null
  | some fp => .object fp

/-- `UartAdapterRead`: the results of its reads of one byte, of which it makes at most `size + 1`,
until one fails. -/
def uartAdapterRead (host : Handles) (data : Bool) (size : BitVec 32) (vfsReads : List Int) :
    Int × Touched × Handles :=
  if ¬data ∨ size = 0 then (Hdf.errInvalidParam, .nothing, host)
  else (((vfsReads.take (size.toNat + 1)).takeWhile (0 ≤ ·)).length, fileOf host, host)

/-- `UartAdapterWrite`. -/
def uartAdapterWrite (host : Handles) (data : Bool) (size : BitVec 32) (vfsWrite : Int) :
    Int × Touched × Handles :=
  if ¬data ∨ size = 0 then (Hdf.errInvalidParam, .nothing, host)
  else if vfsWrite < 0 then (Hdf.failure, fileOf host, host)
  else (Hdf.success, fileOf host, host)

/-- `UartAdapterGetBaud`, `UartAdapterSetBaud`, `UartAdapterGetAttribute` and
`UartAdapterSetAttribute`, as far as the file is used: all but the second test the place of the
setting. -/
def uartAdapterIoctl (host : Handles) (call : IoctlCall) (place : Bool) (ret : Int) :
    Int × Touched × Handles :=
  if call ≠ .setBaud ∧ ¬place then (Hdf.errInvalidParam, .nothing, host)
  else (ret, fileOf host, host)

namespace HostAct

/-- What kind of call it is. -/
def kind : HostAct → Handles.Kind
  | init _ _ => .start
  | deInit _ => .stop
  | _ => .use

/-- A call on the host: what it returns, touches and leaves. -/
def perform (host : Handles) : HostAct → Int × Touched × Handles
  | init named opens => uartAdapterInit host named opens
  | read data size vfsReads => uartAdapterRead host data size vfsReads
  | write data size vfsWrite => uartAdapterWrite host data size vfsWrite
  | ioctl call place ret => uartAdapterIoctl host call place ret
  | deInit filpClose => uartAdapterDeInit host filpClose

/-- The parameters of the call are refused. -/
def Refused : HostAct → Prop
  | read data size _ => ¬data ∨ size = 0
  | write data size _ => ¬data ∨ size = 0
  | ioctl call place _ => call ≠ .setBaud ∧ ¬place
  | _ => False

end HostAct

section

variable (host : Handles)

/-- The host after a call. -/
def hostNext (a : HostAct) : Handles := (a.perform host).2.2

/-- The file follows the call. -/
def Follows (a : HostAct) : Prop :=
  host.Follows a.kind (a.perform host).1 (a.perform host).2.1 (hostNext host a)

/-- A host is used only where a file is open, unless the parameters are refused, and it is stopped
only where exactly one is. -/
def Ordered (a : HostAct) : Prop :=
  match a.kind with
  | .start => True
  | .use => a.Refused ∨ host.Busy
  | .stop => host.Single

end

variable {host : Handles} {a : HostAct} {ret : Int}

/-- The file that `priv` refers to is used. -/
theorem follows_fileOf_iff (h : host.Tracks) :
  host.Follows .use ret (fileOf host) host ↔ host.Busy
  := by
  unfold fileOf
  cases hpointer : host.pointer with
  | none =>
      exact ⟨fun hfollows => absurd hfollows (Handles.not_follows_null Handles.Kind.noConfusion _),
        fun hbusy => absurd hbusy (h.of_none hpointer).2⟩
  | some fp => apply h.follows_use_iff hpointer

/-- A use that tests its parameters first. -/
theorem follows_use_iff {c : Prop} [Decidable c] (h : host.Tracks) :
  host.Follows .use (if c then (Hdf.errInvalidParam, Touched.nothing, host)
      else (ret, fileOf host, host)).1
      (if c then (Hdf.errInvalidParam, Touched.nothing, host) else (ret, fileOf host, host)).2.1
      (if c then (Hdf.errInvalidParam, Touched.nothing, host) else (ret, fileOf host, host)).2.2
    ↔ c ∨ host.Busy
  := by
  by_cases hc : c
  · have hret : Hdf.errInvalidParam < 0 := by decide
    rw [if_pos hc]
    exact ⟨fun _ => .inl hc, fun _ => Handles.follows_use_nothing hret⟩
  · rw [if_neg hc, or_iff_right hc]
    apply follows_fileOf_iff h

/-- The file follows a call exactly if it is ordered. -/
theorem follows_iff_ordered (h : host.Tracks) :
  Follows host a ↔ Ordered host a
  := by
  cases a with
  | init named opens => exact ⟨fun _ => trivial, fun _ => Handles.follows_start _ _⟩
  | read data size vfsReads => exact follows_use_iff h
  | write data size vfsWrite =>
      have hwrite : uartAdapterWrite host data size vfsWrite
          = if ¬data ∨ size = 0 then (Hdf.errInvalidParam, .nothing, host)
            else (if vfsWrite < 0 then Hdf.failure else Hdf.success, fileOf host, host) := by
        unfold uartAdapterWrite
        split_ifs <;> rfl
      show host.Follows .use (uartAdapterWrite _ _ _ _).1 (uartAdapterWrite _ _ _ _).2.1
        (uartAdapterWrite _ _ _ _).2.2 ↔ _
      rw [hwrite]
      exact follows_use_iff h
  | ioctl call place ret => exact follows_use_iff h
  | deInit filpClose =>
      show host.Follows .stop (uartAdapterDeInit _ _).1 (uartAdapterDeInit _ _).2.1
        (uartAdapterDeInit _ _).2.2 ↔ host.Single
      unfold uartAdapterDeInit
      cases hpointer : host.pointer with
      | none =>
          have hidle := (h.of_none hpointer).2
          constructor
          · intro hfollows
            exact absurd (hfollows.idle Handles.Kind.noConfusion hidle).1 (Int.lt_irrefl 0)
          · rintro ⟨i, hi⟩
            exact absurd ⟨i, (hi i).mpr rfl⟩ hidle
      | some fp => exact h.follows_stop_iff hpointer

/-- An ordered call leaves the pointer at the last file that is open. -/
theorem hostNext_tracks (h : host.Tracks) (ha : Ordered host a) :
  (hostNext host a).Tracks
  := by
  cases a with
  | init named opens =>
      show (uartAdapterInit _ _ _).2.2.Tracks
      unfold uartAdapterInit
      split
      · apply h
      split
      · apply h
      · exact h.opened
  | read data size vfsReads =>
      show (uartAdapterRead _ _ _ _).2.2.Tracks
      unfold uartAdapterRead
      split <;> apply h
  | write data size vfsWrite =>
      show (uartAdapterWrite _ _ _ _).2.2.Tracks
      unfold uartAdapterWrite
      split
      · apply h
      split <;> apply h
  | ioctl call place ret =>
      show (uartAdapterIoctl _ _ _ _).2.2.Tracks
      unfold uartAdapterIoctl
      split <;> apply h
  | deInit filpClose =>
      show (uartAdapterDeInit _ _).2.2.Tracks
      unfold uartAdapterDeInit
      cases hpointer : host.pointer with
      | none => apply h
      | some fp => exact h.closed hpointer ha

/-- The file of an ADC device and that of a UART host follow the calls, exactly as long as the
device is used only where a file is open and stopped only where exactly one is; of calls that fail
before they use the file nothing is asked. -/
theorem follows_iff (errOsApi : Int) (adc : List Adc.Act) (uart : List HostAct) :
  (Along (Adc.next errOsApi) (Adc.Follows errOsApi) .init adc
      ↔ Along (Adc.next errOsApi) Adc.Ordered .init adc)
    ∧ (Along hostNext Follows .init uart ↔ Along hostNext Ordered .init uart)
  := by
  have hiff : ∀ (host : Handles) a, host.Tracks → (Follows host a ↔ Ordered host a) :=
    fun _ _ h => follows_iff_ordered h
  have hkeep : ∀ (host : Handles) a, host.Tracks → Ordered host a → (hostNext host a).Tracks :=
    fun _ _ h ha => hostNext_tracks h ha
  exact ⟨Adc.follows_run_iff errOsApi adc, along_iff hiff hkeep Handles.tracks_init⟩

/-- A device that was stopped is read; one that was started twice is stopped, and the first file
stays open; a host that was stopped is written to; and one that was never started is read. -/
theorem not_follows :
  ∃ (stopped twice : List Adc.Act) (written unstarted : List HostAct),
    ¬Along (Adc.next 0) (Adc.Follows 0) .init stopped
      ∧ ¬Along (Adc.next 0) (Adc.Follows 0) .init twice
      ∧ (twice.foldl (Adc.next 0) .init).objects = ⟨2, [1]⟩
      ∧ ¬Along hostNext Follows .init written
      ∧ ¬Along hostNext Follows .init unstarted
  := by
  refine ⟨[.start true, .stop 0, .read true 0], [.start true, .start true, .stop 0],
    [.init true true, .deInit 0, .write true 1 1], [.read true 1 []], ?_, ?_, rfl, ?_, ?_⟩
  · rintro ⟨-, -, hread, -⟩
    exact ((hread.uses Handles.Kind.noConfusion).2 0 rfl).2 List.mem_cons_self
  · rintro ⟨-, -, hstop, -⟩
    exact absurd (hstop.stopped rfl 0 (by decide)) (by decide)
  · rintro ⟨-, -, hwrite, -⟩
    exact ((hwrite.uses Handles.Kind.noConfusion).2 0 rfl).2 List.mem_cons_self
  · rintro ⟨hread, -⟩
    exact (hread.uses Handles.Kind.noConfusion).1 rfl

end Uart
