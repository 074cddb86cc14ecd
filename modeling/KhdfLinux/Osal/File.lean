import KhdfLinux.Hdf.Base
import KhdfLinux.Lib.Bytes
import KhdfLinux.Lib.Run

/-!
# Files

`OsalFileWrite`, `OsalFileRead` and `OsalFileLseek` on a file that is open.  Reads and writes start
at a copy of the position of the file, which they do not write back.  `sequential_iff`: over any
calls, they do what the same calls do on a sequential file exactly as long as a read, a write or a
seek from the current position is made only where no byte was transferred since the last seek.
-/

namespace Osal.File

/-! ### Sequential files -/

/-- A content with `data` written at a position.  What is left out before the position is zero. -/
def splice (content data : Bytes) (pos : Nat) : Bytes :=
  if data = [] then content
  else
    content.take pos ++ List.replicate (pos - content.length) 0 ++ data
      ++ content.drop (pos + data.length)

/-- At most `n` bytes of a content from a position on. -/
def slice (content : Bytes) (pos n : Nat) : Bytes := (content.drop pos).take n

/-- What a seek starts from. -/
inductive Whence where
  | seekSet
  | seekCur
  | seekEnd
  | seekData
  | seekHole
  deriving DecidableEq, Repr

/-- The position that a seek sets in a file of the size, from a position, if it sets one. -/
def seekTarget (size pos : Nat) (offset : Int) : Whence → Option Nat
  | .seekSet => if offset < 0 then none else some offset.toNat
  | .seekCur => if pos + offset < 0 then none else some (pos + offset).toNat
  | .seekEnd => if size + offset < 0 then none else some (size + offset).toNat
  | .seekData => if offset < 0 ∨ size ≤ offset then none else some offset.toNat
  | .seekHole => if offset < 0 ∨ size ≤ offset then none else some size

/-- A content, and the position at which the next transfer starts. -/
structure SeqFile where
  content : Bytes
  offset : Nat
  deriving DecidableEq, Repr

/-! ### The calls -/

/-- The calls, and what the kernel does: the most bytes it transfers or `none` for an error, and
whether it refuses to seek. -/
inductive Call where
  | write (string : Option Bytes) (most : Option Nat)
  | read (buf : Bool) (length : Nat) (most : Option Nat)
  | lseek (offset : Int) (whence : Whence) (refused : Bool)

/-- What is seen of a call: the position it starts from, what it returns, and the bytes that it
reads. -/
structure Seen where
  start : Option Nat
  ret : Int
  bytes : Bytes
  deriving DecidableEq, Repr

/-- `kernel_write`: the number of bytes, the content and the position after it. -/
def kernelWrite (content string : Bytes) (pos : Nat) (most : Option Nat) :
    Option (Nat × Bytes × Nat) :=
  most.map fun n =>
    ((string.take n).length, splice content (string.take n) pos, pos + (string.take n).length)

/-- `kernel_read`: the bytes, and the position after it. -/
def kernelRead (content : Bytes) (length pos : Nat) (most : Option Nat) : Option (Bytes × Nat) :=
  most.map fun n =>
    (slice content pos (min n length), pos + (slice content pos (min n length)).length)

/-- `struct file`. -/
structure RealFile where
  content : Bytes
  fPos : Nat
  deriving DecidableEq, Repr

/-- `OsalFile`. -/
structure OsalFile where
  realFile : Option RealFile
  deriving DecidableEq, Repr

/-- `OsalFileWrite`. -/
def osalFileWrite (file : OsalFile) (string : Option Bytes) (most : Option Nat) :
    Seen × OsalFile :=
  match file.realFile, string with
  | some fp, some string =>
      match kernelWrite fp.content string fp.fPos most with
      | none => (⟨some fp.fPos, Hdf.failure, []⟩, file)
      -- the position that was advanced is the local one
      | some (ret, content, _) => (⟨some fp.fPos, ret, []⟩, ⟨some { fp with content }⟩)
  | _, _ => (⟨none, Hdf.errInvalidParam, []⟩, file)

/-- `OsalFileRead`. -/
def osalFileRead (file : OsalFile) (buf : Bool) (length : Nat) (most : Option Nat) :
    Seen × OsalFile :=
  match file.realFile, buf with
  | some fp, true =>
      match kernelRead fp.content length fp.fPos most with
      | none => (⟨some fp.fPos, Hdf.failure, []⟩, file)
      | some (bytes, _) => (⟨some fp.fPos, bytes.length, bytes⟩, file)
  | _, _ => (⟨none, Hdf.errInvalidParam, []⟩, file)

/-- `vfs_llseek`. -/
def vfsLlseek (fp : RealFile) (offset : Int) (whence : Whence) (refused : Bool) :
    Option RealFile :=
  if refused then none
  else (seekTarget fp.content.length fp.fPos offset whence).map fun pos => { fp with fPos := pos }

/-- The position a seek starts from, if it does. -/
def Whence.start (pos : Nat) : Whence → Option Nat
  | seekCur => some pos
  | _ => none

/-- `OsalFileLseek`. -/
def osalFileLseek (file : OsalFile) (offset : Int) (whence : Whence) (refused : Bool) :
    Seen × OsalFile :=
  match file.realFile with
  | some fp =>
      match vfsLlseek fp offset whence refused with
      | none => (⟨whence.start fp.fPos, Hdf.failure, []⟩, file)
      | some fp' => (⟨whence.start fp.fPos, fp'.fPos, []⟩, ⟨some fp'⟩)
  | none => (⟨none, Hdf.errInvalidParam, []⟩, file)

namespace Call

/-- A call of the functions. -/
def perform (file : OsalFile) : Call → Seen × OsalFile
  | write string most => osalFileWrite file string most
  | read buf length most => osalFileRead file buf length most
  | lseek offset whence refused => osalFileLseek file offset whence refused

/-- The same call on a sequential file, that starts at its offset and advances it. -/
def model (f : SeqFile) : Call → Seen × SeqFile
  | write (some string) (some n) =>
      (⟨some f.offset, (string.take n).length, []⟩,
        ⟨splice f.content (string.take n) f.offset, f.offset + (string.take n).length⟩)
  | write (some _) none => (⟨some f.offset, Hdf.failure, []⟩, f)
  | write none _ => (⟨none, Hdf.errInvalidParam, []⟩, f)
  | read true length (some n) =>
      let bytes := slice f.content f.offset (min n length)
      (⟨some f.offset, bytes.length, bytes⟩, { f with offset := f.offset + bytes.length })
  | read true _ none => (⟨some f.offset, Hdf.failure, []⟩, f)
  | read false _ _ => (⟨none, Hdf.errInvalidParam, []⟩, f)
  | lseek offset whence refused =>
      match if refused then none else seekTarget f.content.length f.offset offset whence with
      | none => (⟨whence.start f.offset, Hdf.failure, []⟩, f)
      | some pos => (⟨whence.start f.offset, pos, []⟩, { f with offset := pos })

/-- The call starts from the current position. -/
def FromCurrent : Call → Prop
  | write string _ => string.isSome
  | read buf _ _ => buf
  | lseek _ whence _ => whence = .seekCur

/-- The bytes transferred since the last seek, after a call for which `seen` is seen. -/
def moved (moved : Nat) (seen : Seen) : Call → Nat
  | write _ _ => moved + seen.ret.toNat
  | read _ _ _ => moved + seen.ret.toNat
  | lseek _ _ _ => if seen.ret < 0 then moved else 0

end Call

/-- A file, a sequential file on which the same calls are made, and the number of bytes
transferred since the last seek. -/
structure Pair where
  file : OsalFile
  seq : SeqFile
  moved : Nat

namespace Pair

/-- A file that is open, at a position. -/
def opened (content : Bytes) (pos : Nat) : Pair := ⟨⟨some ⟨content, pos⟩⟩, ⟨content, pos⟩, 0⟩

variable (s : Pair)

/-- The pair after a call. -/
def next (c : Call) : Pair :=
  ⟨(c.perform s.file).2, (c.model s.seq).2, c.moved s.moved (c.perform s.file).1⟩

/-- The call does what it does on a sequential file: it starts at its offset, returns the same, and
leaves the same content. -/
def Sequential (c : Call) : Prop :=
  (c.perform s.file).1 = (c.model s.seq).1
    ∧ (c.perform s.file).2.realFile.map RealFile.content = some (c.model s.seq).2.content

/-- Where bytes were transferred since the last seek, the call does not start from the current
position. -/
def Repositioned (c : Call) : Prop := c.FromCurrent → s.moved = 0

/-- The contents are the same, and the offset is ahead by the bytes that were transferred. -/
structure Inv : Prop where
  realFile : s.file.realFile = some ⟨s.seq.content, s.seq.offset - s.moved⟩
  moved : s.moved ≤ s.seq.offset

end Pair

variable {s : Pair} {c : Call}

/-- What is before the position of a write, with the data. -/
theorem splice_eq (content : Bytes) {data : Bytes} (pos : Nat) (hdata : data ≠ []) :
  ∃ before : Bytes,
    before.length = pos + data.length
      ∧ splice content data pos = before ++ content.drop (pos + data.length)
      ∧ before = content.take pos ++ List.replicate (pos - content.length) 0 ++ data
  := by
  refine ⟨_, ?_, ?_, rfl⟩
  · simp only [List.length_append, List.length_take, List.length_replicate]
    omega
  · unfold splice
    rw [if_neg hdata]

/-- A write that goes on where the last one ended leaves what the last one wrote. -/
theorem splice_splice (content a b : Bytes) (pos : Nat) :
  splice (splice content a pos) b (pos + a.length) = splice content (a ++ b) pos
  := by
  by_cases ha : a = []
  · subst ha
    rfl
  by_cases hb : b = []
  · subst hb
    rw [List.append_nil]
    rfl
  obtain ⟨before, hlength, heq, hbefore⟩ := splice_eq content pos ha
  have hab : a ++ b ≠ [] := fun h => ha (List.append_eq_nil_iff.mp h).1
  rw [heq]
  unfold splice
  rw [if_neg hb, if_neg hab, ← hlength, List.take_left, List.length_append,
    Nat.sub_eq_zero_of_le (Nat.le_add_right _ _), List.drop_append, List.drop_drop,
    List.drop_eq_nil_of_le (Nat.le_add_right _ _), hbefore, List.length_append]
  simp only [List.append_assoc, List.replicate_zero, List.append_nil, List.length_append,
    List.length_take, List.length_replicate, Nat.add_assoc, Nat.add_le_add_iff_left,
    Nat.le_add_right, Nat.add_sub_cancel', List.nil_append, List.append_cancel_left_eq,
    List.drop_eq_drop_iff]
  omega

/-- A read that goes on where the last one ended returns what follows. -/
theorem slice_slice (content : Bytes) (pos m n : Nat) :
  slice content pos m ++ slice content (pos + (slice content pos m).length) n
    = slice content pos (m + n)
  := by
  unfold slice
  rw [List.take_add, ← List.drop_drop, List.length_take]
  congr 2
  obtain hle | hlt := Nat.le_total m (content.drop pos).length
  · rw [Nat.min_eq_left hle]
  · rw [Nat.min_eq_right hlt, List.drop_length, List.drop_eq_nil_of_le hlt]

/-- On a sequential file two writes leave what one write of both would, and two reads return what
one read of both would. -/
theorem model_successive (f : SeqFile) (a b : Bytes) (m n : Nat) :
  ((Call.write b (some b.length)).model ((Call.write a (some a.length)).model f).2).2.content
      = splice f.content (a ++ b) f.offset
    ∧ ((Call.read true m (some m)).model f).1.bytes
        ++ ((Call.read true n (some n)).model ((Call.read true m (some m)).model f).2).1.bytes
      = slice f.content f.offset (m + n)
  := by
  constructor
  · show splice (splice f.content (a.take a.length) f.offset) (b.take b.length)
      (f.offset + (a.take a.length).length) = _
    rw [List.take_length, List.take_length]
    apply splice_splice
  · show slice f.content f.offset (min m m)
      ++ slice f.content (f.offset + (slice f.content f.offset (min m m)).length) (min n n) = _
    rw [Nat.min_self, Nat.min_self]
    apply slice_slice

/-- The position that `vfs_llseek` sets, if it sets one. -/
def Whence.target (whence : Whence) (f : SeqFile) (offset : Int) (refused : Bool) : Option Nat :=
  if refused then none else seekTarget f.content.length f.offset offset whence

/-- What is seen of a seek to a position, or of one that fails. -/
def Whence.seen (whence : Whence) (pos : Nat) : Option Nat → Seen
  | none => ⟨whence.start pos, Hdf.failure, []⟩
  | some target => ⟨whence.start pos, target, []⟩

/-- A seek through the driver moves the position to its target, if it has one. -/
theorem osalFileLseek_eq (f : SeqFile) (offset : Int) (whence : Whence) (refused : Bool) :
  osalFileLseek ⟨some ⟨f.content, f.offset⟩⟩ offset whence refused
    = (whence.seen f.offset (whence.target f offset refused),
      ⟨some ⟨f.content, (whence.target f offset refused).getD f.offset⟩⟩)
  := by
  unfold osalFileLseek vfsLlseek Whence.target
  cases refused with
  | true => rfl
  | false =>
      simp only [Bool.false_eq_true, if_false]
      cases seekTarget f.content.length f.offset offset whence <;> rfl

/-- A seek of a sequential file does the same. -/
theorem model_lseek (f : SeqFile) (offset : Int) (whence : Whence) (refused : Bool) :
  (Call.lseek offset whence refused).model f
    = (whence.seen f.offset (whence.target f offset refused),
      ⟨f.content, (whence.target f offset refused).getD f.offset⟩)
  := by
  unfold Call.model Whence.target
  cases refused with
  | true => rfl
  | false =>
      simp only [Bool.false_eq_true, if_false]
      cases seekTarget f.content.length f.offset offset whence <;> rfl

/-- Only a seek from the current position depends on it. -/
theorem Whence.target_eq {whence : Whence} {pos pos' : Nat} (h : whence = .seekCur → pos = pos')
    (content : Bytes) (offset : Int) (refused : Bool) :
  whence.target ⟨content, pos⟩ offset refused = whence.target ⟨content, pos'⟩ offset refused
    ∧ whence.start pos = whence.start pos'
  := by
  cases whence with
  | seekCur =>
      obtain rfl := h rfl
      exact ⟨rfl, rfl⟩
  | _ => exact ⟨rfl, rfl⟩

/-- The same is seen on a file and on a sequential file at the same offset, and at any other one
where the call does not start from the current position. -/
theorem perform_eq_model (content : Bytes) {pos offset : Nat}
    (h : c.FromCurrent → pos = offset) :
  (c.perform ⟨some ⟨content, pos⟩⟩).1 = (c.model ⟨content, offset⟩).1
    ∧ (c.perform ⟨some ⟨content, pos⟩⟩).2.realFile.map RealFile.content
      = some (c.model ⟨content, offset⟩).2.content
  := by
  cases c with
  | write string most =>
      cases string with
      | none => exact ⟨rfl, rfl⟩
      | some string =>
          obtain rfl := h rfl
          cases most <;> exact ⟨rfl, rfl⟩
  | read buf length most =>
      cases buf with
      | false => exact ⟨rfl, rfl⟩
      | true =>
          obtain rfl := h rfl
          cases most <;> exact ⟨rfl, rfl⟩
  | lseek off whence refused =>
      obtain ⟨htarget, hstart⟩ := Whence.target_eq h content off refused
      have hperform := osalFileLseek_eq ⟨content, pos⟩ off whence refused
      rw [model_lseek]
      show (osalFileLseek _ _ _ _).1 = _ ∧ (osalFileLseek _ _ _ _).2.realFile.map _ = _
      rw [hperform, htarget]
      refine ⟨?_, rfl⟩
      cases whence.target ⟨content, offset⟩ off refused with
      | none =>
          show Seen.mk _ _ _ = Seen.mk _ _ _
          rw [hstart]
      | some target =>
          show Seen.mk _ _ _ = Seen.mk _ _ _
          rw [hstart]

/-- A call that starts from the current position starts there on a file and on a sequential
file. -/
theorem start_fromCurrent (h : c.FromCurrent) (content : Bytes) (pos offset : Nat) :
  (c.perform ⟨some ⟨content, pos⟩⟩).1.start = some pos
    ∧ (c.model ⟨content, offset⟩).1.start = some offset
  := by
  cases c with
  | write string most =>
      obtain ⟨string, rfl⟩ := Option.isSome_iff_exists.mp h
      cases most <;> exact ⟨rfl, rfl⟩
  | read buf length most =>
      obtain rfl : buf = true := h
      cases most <;> exact ⟨rfl, rfl⟩
  | lseek off whence refused =>
      obtain rfl : whence = .seekCur := h
      have hperform := osalFileLseek_eq ⟨content, pos⟩ off .seekCur refused
      rw [model_lseek]
      show (osalFileLseek _ _ _ _).1.start = _ ∧ _
      rw [hperform]
      constructor
      · cases Whence.seekCur.target ⟨content, pos⟩ off refused <;> rfl
      · cases Whence.seekCur.target ⟨content, offset⟩ off refused <;> rfl

/-- What a call is seen to do is what the sequential file does, exactly if it does not start from
the current position where bytes were transferred since the last seek. -/
theorem Pair.Inv.sequential_call_iff (h : s.Inv) :
  s.Sequential c ↔ s.Repositioned c
  := by
  obtain ⟨⟨realFile⟩, ⟨content, offset⟩, moved⟩ := s
  obtain ⟨hreal, hmoved⟩ := h
  obtain rfl : realFile = some ⟨content, offset - moved⟩ := hreal
  replace hmoved : moved ≤ offset := hmoved
  constructor
  · intro hseq hfrom
    obtain ⟨hperform, hmodel⟩ := start_fromCurrent hfrom content (offset - moved) offset
    have hstart := congrArg Seen.start hseq.1
    change (c.perform ⟨some ⟨content, offset - moved⟩⟩).1.start = _ at hstart
    rw [hperform] at hstart
    have heq := Option.some.inj (hstart.trans hmodel)
    show moved = 0
    omega
  · intro hrepositioned
    apply perform_eq_model
    intro hfrom
    have hzero : moved = 0 := hrepositioned hfrom
    omega

/-- A call that is sequential keeps the contents the same, and the offset ahead by the bytes
transferred. -/
theorem Pair.Inv.next (h : s.Inv) (hc : s.Repositioned c) :
  (s.next c).Inv
  := by
  obtain ⟨⟨realFile⟩, ⟨content, offset⟩, moved⟩ := s
  obtain ⟨hreal, hmoved⟩ := h
  obtain rfl : realFile = some ⟨content, offset - moved⟩ := hreal
  replace hmoved : moved ≤ offset := hmoved
  -- a read or a write leaves the file where it is
  have htransfer (content' : Bytes) (n : Nat) (hzero : moved = 0) :
      Pair.Inv ⟨⟨some ⟨content', offset - moved⟩⟩, ⟨content', offset + n⟩, moved + n⟩ := by
    constructor
    · show some (RealFile.mk content' _) = some (RealFile.mk content' (offset + n - (moved + n)))
      rw [Nat.add_sub_add_right]
    · show moved + n ≤ offset + n
      omega
  have hsame : Pair.Inv ⟨⟨some ⟨content, offset - moved⟩⟩, ⟨content, offset⟩, moved⟩ :=
    ⟨rfl, hmoved⟩
  cases c with
  | write string most =>
      cases string with
      | none => exact hsame
      | some string =>
          cases most with
          | none => exact hsame
          | some n =>
              obtain rfl : moved = 0 := hc rfl
              exact htransfer (splice content (string.take n) offset) (string.take n).length rfl
  | read buf length most =>
      cases buf with
      | false => exact hsame
      | true =>
          cases most with
          | none => exact hsame
          | some n =>
              obtain rfl : moved = 0 := hc rfl
              exact htransfer content (slice content offset (min n length)).length rfl
  | lseek off whence refused =>
      have hperform := osalFileLseek_eq ⟨content, offset - moved⟩ off whence refused
      have hmodel := model_lseek ⟨content, offset⟩ off whence refused
      have hcur : whence = .seekCur → offset - moved = offset := by
        intro hcur
        have hzero : moved = 0 := hc hcur
        omega
      have htarget := (Whence.target_eq hcur content off refused).1
      rw [htarget] at hperform
      have hnext : Pair.next ⟨⟨some ⟨content, offset - moved⟩⟩, ⟨content, offset⟩, moved⟩
          (.lseek off whence refused)
        = ⟨(osalFileLseek ⟨some ⟨content, offset - moved⟩⟩ off whence refused).2,
          ((Call.lseek off whence refused).model ⟨content, offset⟩).2,
          Call.moved moved (osalFileLseek ⟨some ⟨content, offset - moved⟩⟩ off whence refused).1
            (.lseek off whence refused)⟩ := rfl
      rw [hnext, hperform, hmodel]
      cases whence.target ⟨content, offset⟩ off refused with
      | none => exact hsame
      | some target => exact ⟨rfl, Nat.zero_le _⟩

/-- The calls on a file that was opened do what the same calls do on a sequential file, exactly as
long as no call starts from the current position after bytes were transferred since the last
seek. -/
theorem sequential_iff (content : Bytes) (pos : Nat) (calls : List Call) :
  Along Pair.next Pair.Sequential (.opened content pos) calls
    ↔ Along Pair.next Pair.Repositioned (.opened content pos) calls
  := by
  have hiff : ∀ (s : Pair) c, s.Inv → (s.Sequential c ↔ s.Repositioned c) :=
    fun s c h => h.sequential_call_iff
  have hkeep : ∀ (s : Pair) c, s.Inv → s.Repositioned c → (s.next c).Inv :=
    fun s c h hc => h.next hc
  apply along_iff hiff hkeep
  exact ⟨rfl, Nat.zero_le _⟩

/-- The second of two writes overwrites the first, and the second of two reads returns the bytes of
the first. -/
theorem not_sequential :
  ∃ writes reads : List Call,
    ¬Along Pair.next Pair.Sequential (.opened [] 0) writes
      ∧ (writes.foldl Pair.next (.opened [] 0)).file = ⟨some ⟨[2], 0⟩⟩
      ∧ (writes.foldl Pair.next (.opened [] 0)).seq = ⟨[1, 2], 2⟩
      ∧ ¬Along Pair.next Pair.Sequential (.opened [1, 2] 0) reads
  := by
  refine ⟨[.write (some [1]) (some 1), .write (some [2]) (some 1)],
    [.read true 1 (some 1), .read true 1 (some 1)], ?_, rfl, rfl, ?_⟩
  · rintro ⟨-, hsecond, -⟩
    exact absurd hsecond.1 (by decide)
  · rintro ⟨-, hsecond, -⟩
    exact absurd hsecond.1 (by decide)

end Osal.File
