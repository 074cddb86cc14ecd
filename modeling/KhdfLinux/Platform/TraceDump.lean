import KhdfLinux.Hdf.Base
import KhdfLinux.Lib.BoundedStrings
import KhdfLinux.Lib.Loops

/-!
# The dump of the trace

`PlatformTraceInfoDump` reads the trace file part by part and prints it.  A read does not advance
the position of the file, so the loop seeks behind what it has read.  `trace_dump_iff`: it
comes to its end in time, and prints the file from its start on; its decisions depend on what it has
assigned exactly if the first read brings something, since the result of the seek is tested in any
case.
-/

namespace Platform.Trace

open Exec Bytes

/-- `TRACE_INFO_DUMPER_LEN`. -/
def dumperLen : Nat := 512

/-- `TRACE_INFO_DUMPER_FILE_MAX_LEN`. -/
def fileMaxLen : Nat := 102400

/-- The trace file: what a read brings, and the position that a seek sets, in each turn, if they do
not fail. -/
structure TraceFile where
  vfsRead : (turn pos : Nat) → Option Bytes
  vfsLlseek : (turn : Nat) → (offset : Int) → Option Nat
  length_le : ∀ turn pos bytes, vfsRead turn pos = some bytes → bytes.length ≤ dumperLen - 1

/-- The position of the file, the number of reads so far, and what was printed.  `unassigned` is
there for the statements: a decision has depended on `off` before it was assigned. -/
structure World where
  fPos : Nat
  turn : Nat
  printed : Bytes
  unassigned : Bool

/-- Before the first read. -/
def World.start : World := ⟨0, 0, [], false⟩

/-- `len` and `off`, which is not assigned at first. -/
structure Vars where
  len : Nat
  off : Option Int

namespace TraceFile

variable (file : TraceFile)

/-- `TraceFileRead`. -/
def traceFileRead (buf : Bytes) : Exec World (Int × Bytes) := do
  let w ← get
  set { w with turn := w.turn + 1 }
  -- the position that `vfs_read` advances is the local one
  match file.vfsRead w.turn w.fPos with
  | none => pure (Hdf.failure, buf)
  | some bytes => pure (bytes.length, memcpy buf bytes)

/-- `OsalFileLseek`, from the start of the file. -/
def osalFileLseek (offset : Int) : Exec World Int := do
  let w ← get
  match file.vfsLlseek w.turn offset with
  | none => pure Hdf.failure
  | some pos => do
      set { w with fPos := pos }
      pure pos

end TraceFile

/-- `printk("%s", buf)`. -/
def printk (buf : Bytes) : Exec World Unit := do
  let s ← scan buf
  modify fun w => { w with printed := w.printed ++ s }

/-- The value of `off`.  It is `junk` before it is assigned. -/
def readOff (junk : Int) : Option Int → Exec World Int
  | some off => pure off
  | none => do
      modify fun w => { w with unassigned := true }
      pure junk

namespace TraceFile

variable (file : TraceFile) (junk : Int)

/-- What the loop does with what it has read. -/
def takeOver (ret : Int) (buf : Bytes) (v : Vars) : Exec World Vars :=
  if 0 < ret then do
    let len := v.len + ret.toNat
    let off ← file.osalFileLseek len
    printk buf
    pure ⟨len, some off⟩
  else pure v

/-- A turn of the loop, which goes on with other values, or ends it. -/
def dumpTurn (v : Vars) : Exec World (Vars ⊕ Unit) := do
  -- `memset_s` does not fail: it is told the size of the buffer
  let (ret, buf) ← file.traceFileRead (List.replicate dumperLen 0)
  let v ← file.takeOver ret buf v
  if fileMaxLen ≤ v.len then pure (.inr ())
  else
    let off ← readOff junk v.off
    if off < 0 then pure (.inr ())
    else if 0 < ret then pure (.inl v)
    else pure (.inr ())

/-- `PlatformTraceInfoDump`, with so many turns of its loop, where `TraceIsOpen` and `OsalFileOpen`
have the results given. -/
def platformTraceInfoDump (traceIsOpen opened : Bool) (turns : Nat) : Exec World (Option Unit) :=
  if ¬traceIsOpen then pure (some ())
  else if ¬opened then pure (some ())
  else iterate (file.dumpTurn junk) turns ⟨0, none⟩

/-! ### What is to be printed -/

/-- The reads bring parts of the content from their position on, and no seek fails. -/
structure Of (content : Bytes) : Prop where
  read : ∀ turn pos bytes, file.vfsRead turn pos = some bytes → bytes <+: content.drop pos
  seek : ∀ turn, ∀ offset : Nat, file.vfsLlseek turn offset = some offset

/-- A read before the end of the content brings something. -/
def Readable (content : Bytes) : Prop :=
  ∀ turn, ∀ pos < content.length, ∃ bytes, file.vfsRead turn pos = some bytes ∧ bytes ≠ []

/-- What was printed is a part of the content from its start on, and all of it if it is shorter than
the limit. -/
structure Printed (content printed : Bytes) : Prop where
  prefix_of : printed <+: content
  whole : file.Readable content → content.length < fileMaxLen → printed = content

/-- The loop ends in time, its decisions depend on what was assigned, and it prints the file. -/
def Dumps (traceIsOpen opened : Bool) : Prop :=
  ∃ w, (file.platformTraceInfoDump junk traceIsOpen opened (fileMaxLen + 1)).run .start
      = .ok (some ()) w
    ∧ w.unassigned = false
    ∧ ∀ content, file.Of content → 0 ∉ content → traceIsOpen → opened →
      file.Printed content w.printed

/-! ### The parts -/

variable {file : TraceFile} {junk : Int} {v : Vars} {w : World} {bytes content : Bytes}

/-- A part of the content that was printed, with the part that follows. -/
theorem take_add_of_prefix {n : Nat} (hbytes : bytes <+: content.drop n) (hn : n ≤ content.length) :
  content.take (n + bytes.length) = content.take n ++ bytes
    ∧ n + bytes.length ≤ content.length
  := by
  have hle := hbytes.length_le
  rw [List.length_drop] at hle
  refine ⟨?_, by omega⟩
  rw [List.take_add, ← List.prefix_iff_eq_take.mp hbytes]

/-- What is printed of a buffer with a part of the file in it. -/
theorem printk_ok (hlength : bytes.length ≤ dumperLen - 1) :
  (printk (memcpy (List.replicate dumperLen 0) bytes)).run w
    = .ok () { w with printed := w.printed ++ cstr (memcpy (List.replicate dumperLen 0) bytes) }
  := by
  have hmem : 0 ∈ memcpy (List.replicate dumperLen 0) bytes := by
    have hlen : dumperLen = 512 := rfl
    unfold memcpy
    rw [List.drop_replicate, List.mem_append, List.mem_replicate]
    exact .inr ⟨by omega, rfl⟩
  unfold printk scan
  rw [if_pos hmem]
  rfl

theorem cstr_memcpy (hzero : 0 ∉ bytes) :
  cstr (memcpy (List.replicate dumperLen 0) bytes) = bytes
  := by
  unfold memcpy
  rw [cstr_append hzero, List.drop_replicate, cstr_replicate, List.append_nil]

/-- What the turns keep: the file is printed up to its position, which is `len`, and where `off` is
not assigned, the next read brings something. -/
structure Inv (file : TraceFile) (v : Vars) (w : World) : Prop where
  len : v.len < fileMaxLen
  assigned : w.unassigned = false
  first : v.off = none → ∃ bytes, file.vfsRead w.turn w.fPos = some bytes ∧ bytes ≠ []
  printed : ∀ content, file.Of content → 0 ∉ content →
    w.fPos = v.len ∧ w.printed = content.take v.len ∧ v.len ≤ content.length

/-- What the last turn leaves. -/
structure Done (file : TraceFile) (w : World) : Prop where
  assigned : w.unassigned = false
  printed : ∀ content, file.Of content → 0 ∉ content → file.Printed content w.printed

/-- Where a read brings nothing, all of a file that can be read was printed. -/
theorem Inv.done (h : Inv file v w) (turn : Nat)
    (hread : file.vfsRead w.turn w.fPos = none ∨ file.vfsRead w.turn w.fPos = some []) :
  Done file { w with turn }
  := by
  refine ⟨h.assigned, fun content hof hzero => ?_⟩
  obtain ⟨hpos, hprinted, hle⟩ := h.printed content hof hzero
  refine ⟨hprinted ▸ List.take_prefix _ _, fun hreadable _ => ?_⟩
  have hend : content.length ≤ v.len := by
    by_contra hlt
    obtain ⟨bytes, hbytes, hne⟩ := hreadable w.turn w.fPos (by omega)
    rw [hbytes] at hread
    simp [hne] at hread
  exact hprinted.trans (List.take_of_length_le hend)

/-- What a turn establishes: it goes on behind what it has read, or it is the last one. -/
def Turned (file : TraceFile) (v : Vars) (r : Vars ⊕ Unit) (w : World) : Prop :=
  (∀ v', r = .inl v' → Inv file v' w ∧ fileMaxLen - v'.len < fileMaxLen - v.len)
    ∧ ∀ u, r = .inr u → Done file w

theorem turned_last (h : Done file w) :
  Turned file v (.inr ()) w
  := ⟨nofun, fun _ _ => h⟩

theorem traceFileRead_run (file : TraceFile) (w : World) (buf : Bytes) :
  (file.traceFileRead buf).run w
    = .ok
      (match file.vfsRead w.turn w.fPos with
        | none => (Hdf.failure, buf)
        | some bytes => (bytes.length, memcpy buf bytes))
      { w with turn := w.turn + 1 }
  := by
  have hrun : (file.traceFileRead buf).run w
      = (match file.vfsRead w.turn w.fPos with
        | none => pure (Hdf.failure, buf)
        | some bytes => pure (bytes.length, memcpy buf bytes)
          : Exec World (Int × Bytes)).run { w with turn := w.turn + 1 } := rfl
  rw [hrun]
  cases file.vfsRead w.turn w.fPos <;> rfl

/-- A read brings nothing, or something. -/
theorem reads_cases (file : TraceFile) (turn pos : Nat) :
  (file.vfsRead turn pos = none ∨ file.vfsRead turn pos = some [])
    ∨ ∃ bytes, file.vfsRead turn pos = some bytes ∧ bytes ≠ []
  := by
  cases file.vfsRead turn pos with
  | none => exact .inl (.inl rfl)
  | some bytes =>
      cases bytes with
      | nil => exact .inl (.inr rfl)
      | cons b bytes => exact .inr ⟨_, rfl, List.cons_ne_nil _ _⟩

/-- What a read that brings nothing returns. -/
theorem traceFileRead_nothing
    (hread : file.vfsRead w.turn w.fPos = none ∨ file.vfsRead w.turn w.fPos = some []) :
  ∃ ret buf, ¬0 < ret
    ∧ (file.traceFileRead (List.replicate dumperLen 0)).run w
      = .ok (ret, buf) { w with turn := w.turn + 1 }
  := by
  rw [traceFileRead_run]
  obtain hread | hread := hread
  · rw [hread]
    exact ⟨_, _, by decide, rfl⟩
  · rw [hread]
    exact ⟨_, _, by decide, rfl⟩

/-- The result of a seek. -/
def seekRet : Option Nat → Int
  | none => Hdf.failure
  | some pos => pos

/-- What was read is printed, behind it the next read is to start. -/
theorem takeOver_run (file : TraceFile) (w : World) (v : Vars) (hne : bytes ≠ [])
    (hlength : bytes.length ≤ dumperLen - 1) :
  (file.takeOver bytes.length (memcpy (List.replicate dumperLen 0) bytes) v).run w
    = .ok ⟨v.len + bytes.length,
        some (seekRet (file.vfsLlseek w.turn (v.len + bytes.length : Nat)))⟩
      { w with
        fPos := (file.vfsLlseek w.turn (v.len + bytes.length : Nat)).getD w.fPos
        printed := w.printed ++ cstr (memcpy (List.replicate dumperLen 0) bytes) }
  := by
  have hpos : 0 < bytes.length := List.length_pos_iff.mpr hne
  have hseek : (file.osalFileLseek (v.len + bytes.length : Nat)).run w
      = .ok (seekRet (file.vfsLlseek w.turn (v.len + bytes.length : Nat)))
        { w with fPos := (file.vfsLlseek w.turn (v.len + bytes.length : Nat)).getD w.fPos } := by
    have hrun : (file.osalFileLseek (v.len + bytes.length : Nat)).run w
        = (match file.vfsLlseek w.turn (v.len + bytes.length : Nat) with
          | none => pure Hdf.failure
          | some pos => do
              set { w with fPos := pos }
              pure (pos : Int) : Exec World Int).run w := rfl
    rw [hrun]
    cases file.vfsLlseek w.turn (v.len + bytes.length : Nat) <;> rfl
  unfold takeOver
  rw [if_pos (by omega), Int.toNat_natCast, EStateM.run_bind, hseek]
  dsimp only
  rw [EStateM.run_bind, printk_ok hlength]
  rfl

/-- A turn whose read brings nothing is the last one. -/
theorem dumpTurn_last (h : Inv file v w)
    (hread : file.vfsRead w.turn w.fPos = none ∨ file.vfsRead w.turn w.fPos = some []) :
  (file.dumpTurn junk v).Meets w (Turned file v) fun _ _ => False
  := by
  obtain ⟨ret, buf, hret, hrun⟩ := traceFileRead_nothing hread
  have hoff : ∃ off, v.off = some off := by
    cases hoff : v.off with
    | none =>
        obtain ⟨bytes, hbytes, hne⟩ := h.first hoff
        rw [hbytes] at hread
        simp [hne] at hread
    | some off => exact ⟨off, rfl⟩
  obtain ⟨off, hoff⟩ := hoff
  have hlast := turned_last (v := v) (h.done (w.turn + 1) hread)
  unfold dumpTurn takeOver
  refine meets_step hrun ?_
  dsimp only
  rw [if_neg hret]
  refine meets_step rfl ?_
  rw [if_neg (Nat.not_le.mpr h.len), hoff]
  refine meets_step rfl ?_
  by_cases hneg : off < 0
  · rw [if_pos hneg]
    exact meets_pure hlast
  · rw [if_neg hneg, if_neg hret]
    exact meets_pure hlast

/-- What was read is what follows of the file, and a seek behind it has its result. -/
theorem Inv.copied (h : Inv file v w) (hread : file.vfsRead w.turn w.fPos = some bytes)
    (hof : file.Of content) (hzero : 0 ∉ content) :
  file.vfsLlseek (w.turn + 1) (v.len + bytes.length : Nat) = some (v.len + bytes.length)
    ∧ w.printed ++ cstr (memcpy (List.replicate dumperLen 0) bytes)
      = content.take (v.len + bytes.length)
    ∧ v.len + bytes.length ≤ content.length
  := by
  obtain ⟨hfPos, hprinted, hle⟩ := h.printed content hof hzero
  have hpart := hof.read _ _ _ hread
  rw [hfPos] at hpart
  obtain ⟨htake, hle'⟩ := take_add_of_prefix hpart hle
  have hzero' : 0 ∉ bytes := fun hmem => hzero (List.mem_of_mem_drop (hpart.subset hmem))
  refine ⟨hof.seek _ _, ?_, hle'⟩
  rw [cstr_memcpy hzero', hprinted, htake]

/-- A turn whose read brings something prints it, and goes on behind it, if the limit is not reached
and the seek does not fail. -/
theorem dumpTurn_next (h : Inv file v w) (hread : file.vfsRead w.turn w.fPos = some bytes)
    (hne : bytes ≠ []) :
  (file.dumpTurn junk v).Meets w (Turned file v) fun _ _ => False
  := by
  have hpos : 0 < bytes.length := List.length_pos_iff.mpr hne
  have hrun := traceFileRead_run file w (List.replicate dumperLen 0)
  rw [hread] at hrun
  unfold dumpTurn
  refine meets_step hrun ?_
  dsimp only
  refine meets_step (takeOver_run file _ v hne (file.length_le _ _ _ hread)) ?_
  dsimp only
  by_cases hlimit : fileMaxLen ≤ v.len + bytes.length
  · rw [if_pos hlimit]
    refine meets_pure (turned_last ⟨h.assigned, fun content hof hzero => ?_⟩)
    obtain ⟨-, hprinted, hle⟩ := h.copied hread hof hzero
    exact ⟨hprinted ▸ List.take_prefix _ _, fun _ hshort => by omega⟩
  · rw [if_neg hlimit]
    refine meets_step rfl ?_
    by_cases hfailed : seekRet (file.vfsLlseek (w.turn + 1) (v.len + bytes.length : Nat)) < 0
    · rw [if_pos hfailed]
      refine meets_pure (turned_last ⟨h.assigned, fun content hof hzero => ?_⟩)
      rw [(h.copied hread hof hzero).1] at hfailed
      exact absurd hfailed (Int.not_lt.mpr (Int.natCast_nonneg _))
    · rw [if_neg hfailed, if_pos (by omega)]
      refine meets_pure ⟨?_, nofun⟩
      rintro v' hv'
      obtain rfl : _ = v' := Sum.inl.inj hv'
      refine ⟨⟨Nat.lt_of_not_le hlimit, h.assigned, nofun, fun content hof hzero => ?_⟩, ?_⟩
      · obtain ⟨hsought, hprinted, hle⟩ := h.copied hread hof hzero
        refine ⟨?_, hprinted, hle⟩
        show (file.vfsLlseek (w.turn + 1) _).getD _ = _
        rw [hsought]
        rfl
      · show fileMaxLen - (v.len + bytes.length) < _
        omega

/-- From the start, the loop comes to its end in time. -/
theorem dump_meets (hfirst : ∃ bytes, file.vfsRead 0 0 = some bytes ∧ bytes ≠ []) :
  (iterate (file.dumpTurn junk) (fileMaxLen + 1) ⟨0, none⟩).Meets .start
    (fun r w => ∃ u, r = some u ∧ Done file w) fun _ _ => False
  := by
  refine iterate_meets (Inv file) (fun v => fileMaxLen - v.len) (fun v w h => ?_)
    ⟨by decide, rfl, fun _ => hfirst, fun content _ _ => ⟨rfl, rfl, Nat.zero_le _⟩⟩ (by omega)
  obtain hnothing | ⟨bytes, hread, hne⟩ := file.reads_cases w.turn w.fPos
  · exact dumpTurn_last h hnothing
  · exact dumpTurn_next h hread hne

/-- Where the first read brings nothing, the result of the seek is tested before there is one. -/
theorem dump_unassigned
    (hread : file.vfsRead 0 0 = none ∨ file.vfsRead 0 0 = some []) (junk : Int) (n : Nat) :
  ∃ w, (iterate (file.dumpTurn junk) (n + 1) ⟨0, none⟩).run .start = .ok (some ()) w
    ∧ w.unassigned = true
  := by
  obtain ⟨ret, buf, hret, hrun⟩ := traceFileRead_nothing (w := .start) hread
  have hturn : (file.dumpTurn junk ⟨0, none⟩).run .start
      = .ok (.inr ()) { World.start with turn := 1, unassigned := true } := by
    unfold dumpTurn takeOver
    rw [EStateM.run_bind, hrun]
    dsimp only
    rw [if_neg hret, pure_bind, if_neg (by decide), if_neg hret]
    simp only [ite_self]
    rfl
  exact ⟨_, iterate_end hturn, rfl⟩

end TraceFile

/-- The loop comes to its end in time and prints the file from its start on, and its decisions
depend on what it has assigned, exactly if the first read brings something. -/
theorem trace_dump_iff (file : TraceFile) (junk : Int) (traceIsOpen opened : Bool) :
  file.Dumps junk traceIsOpen opened
    ↔ (traceIsOpen → opened → ∃ bytes, file.vfsRead 0 0 = some bytes ∧ bytes ≠ [])
  := by
  by_cases hreads : traceIsOpen = true ∧ opened = true
  · obtain ⟨rfl, rfl⟩ := hreads
    have hdump : file.platformTraceInfoDump junk true true (fileMaxLen + 1)
        = iterate (file.dumpTurn junk) (fileMaxLen + 1) ⟨0, none⟩ := rfl
    unfold TraceFile.Dumps
    rw [hdump]
    constructor
    · rintro ⟨w, hrun, hassigned, -⟩ - -
      obtain hnothing | hfirst := file.reads_cases 0 0
      · obtain ⟨w', hrun', hunassigned⟩ := TraceFile.dump_unassigned hnothing junk fileMaxLen
        obtain rfl : w = w' := (EStateM.Result.ok.inj (hrun.symm.trans hrun')).2
        rw [hassigned] at hunassigned
        cases hunassigned
      · exact hfirst
    · intro hfirst
      obtain ⟨_, w, hrun, u, rfl, hdone⟩ := (TraceFile.dump_meets (hfirst rfl rfl)).total
      exact ⟨w, hrun, hdone.assigned, fun content hof hzero _ _ => hdone.printed content hof hzero⟩
  · refine iff_of_true ⟨.start, ?_, rfl, ?_⟩ fun hopen hopened => absurd ⟨hopen, hopened⟩ hreads
    · cases traceIsOpen with
      | false => rfl
      | true =>
          cases opened with
          | false => rfl
          | true => exact absurd ⟨rfl, rfl⟩ hreads
    · exact fun _ _ _ hopen hopened => absurd ⟨hopen, hopened⟩ hreads

/-- A trace file whose reads fail. -/
def unreadable : TraceFile := ⟨fun _ _ => none, fun _ offset => some offset.toNat, nofun⟩

/-- Where the first read fails, the dump tests the result of a seek that it has not made. -/
theorem trace_dump_unassigned :
  (∃ w, (unreadable.platformTraceInfoDump 7 true true (fileMaxLen + 1)).run .start = .ok (some ()) w
      ∧ w.unassigned = true ∧ w.printed = [])
    ∧ ¬unreadable.Dumps 7 true true
  := by
  have hrun : (unreadable.platformTraceInfoDump 7 true true (fileMaxLen + 1)).run .start
      = .ok (some ()) ⟨0, 1, [], true⟩ := rfl
  refine ⟨⟨_, hrun, rfl, rfl⟩, ?_⟩
  rintro ⟨w, hrun', hassigned, -⟩
  obtain rfl : ⟨0, 1, [], true⟩ = w := (EStateM.Result.ok.inj (hrun.symm.trans hrun')).2
  cases hassigned

end Platform.Trace
