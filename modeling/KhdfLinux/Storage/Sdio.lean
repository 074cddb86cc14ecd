import KhdfLinux.Hdf.Base
import KhdfLinux.Lib.ByteOrder

/-!
# The transfers of an SDIO device

`LinuxSdioIncrAddrReadBytes` and `LinuxSdioIncrAddrWriteBytes` transfer one, two and four bytes with
the accessors of the kernel for words, and other sizes with those for blocks; the transfers with the
function 0 use an accessor for a byte.  `transfers_agree_iff` tells when they do what a transfer of
a block does.
-/

namespace Sdio

open Memory

/-- The memory of a function of the device, and that of its function 0. -/
structure Card where
  func : Memory
  func0 : Memory

/-- The accessors of the kernel: what they bring or leave, and their results. -/
structure Accessors where
  readb : Card → Nat → UInt8 × Int
  readw : Card → Nat → UInt16 × Int
  readl : Card → Nat → UInt32 × Int
  memcpyFromio : Card → Memory → (dst addr count : Nat) → Memory × Int
  writeb : Card → UInt8 → Nat → Card × Int
  writew : Card → UInt16 → Nat → Card × Int
  writel : Card → UInt32 → Nat → Card × Int
  memcpyToio : Card → Nat → Memory → (src count : Nat) → Card × Int
  f0Readb : Card → Nat → UInt8 × Int
  f0Writeb : Card → UInt8 → Nat → Card × Int

/-- The device after bytes are written to the function. -/
def Card.write (card : Card) (addr n : Nat) (f : Nat → UInt8) : Card :=
  ⟨card.func.blit addr n f, card.func0⟩

/-- The device after bytes are written to the function 0. -/
def Card.write0 (card : Card) (addr n : Nat) (f : Nat → UInt8) : Card :=
  ⟨card.func, card.func0.blit addr n f⟩

/-- What the accessors do where they succeed: a word of the device has its least byte first. -/
structure Accessors.Documented (acc : Accessors) : Prop where
  readb : ∀ card addr, (acc.readb card addr).2 = 0 → (acc.readb card addr).1 = card.func addr
  readw : ∀ card addr, (acc.readw card addr).2 = 0 →
    (acc.readw card addr).1.toNat = wordOf (card.func.view addr) 2
  readl : ∀ card addr, (acc.readl card addr).2 = 0 →
    (acc.readl card addr).1.toNat = wordOf (card.func.view addr) 4
  memcpyFromio : ∀ card m dst addr count, (acc.memcpyFromio card m dst addr count).2 = 0 →
    (acc.memcpyFromio card m dst addr count).1 = m.blit dst count (card.func.view addr)
  writeb : ∀ card value addr, (acc.writeb card value addr).2 = 0 →
    (acc.writeb card value addr).1 = card.write addr 1 fun _ => value
  writew : ∀ card value addr, (acc.writew card value addr).2 = 0 →
    (acc.writew card value addr).1 = card.write addr 2 (byteOf value.toNat)
  writel : ∀ card value addr, (acc.writel card value addr).2 = 0 →
    (acc.writel card value addr).1 = card.write addr 4 (byteOf value.toNat)
  memcpyToio : ∀ card addr m src count, (acc.memcpyToio card addr m src count).2 = 0 →
    (acc.memcpyToio card addr m src count).1 = card.write addr count (m.view src)
  f0Readb : ∀ card addr, (acc.f0Readb card addr).2 = 0 →
    (acc.f0Readb card addr).1 = card.func0 addr
  f0Writeb : ∀ card value addr, (acc.f0Writeb card value addr).2 = 0 →
    (acc.f0Writeb card value addr).1 = card.write0 addr 1 fun _ => value

/-- A call of a transfer: the order of the host, whether `LinuxSdioGetFunc` finds a function, the
device and the memory, and the parameters. -/
structure Call where
  order : ByteOrder
  func : Bool
  card : Card
  memory : Memory
  data : Nat
  addr : UInt32
  size : UInt32

section

variable (acc : Accessors) (c : Call)

/-- `LinuxSdioIncrAddrReadBytes`. -/
def linuxSdioIncrAddrReadBytes : Memory × Int :=
  if ¬c.func then (c.memory, Hdf.errInvalidObject)
  else if c.data = 0 ∨ c.size = 0 then (c.memory, Hdf.errInvalidParam)
  else if c.size = 1 then
    let r := acc.readb c.card c.addr.toNat
    (c.memory.blit c.data 1 fun _ => r.1, r.2)
  else if c.size = 2 then
    let r := acc.readw c.card c.addr.toNat
    (c.memory.storeWord c.order c.data 2 r.1.toNat, r.2)
  else if c.size = 4 then
    let r := acc.readl c.card c.addr.toNat
    (c.memory.storeWord c.order c.data 4 r.1.toNat, r.2)
  else acc.memcpyFromio c.card c.memory c.data c.addr.toNat c.size.toNat

/-- `LinuxSdioIncrAddrWriteBytes`. -/
def linuxSdioIncrAddrWriteBytes : Card × Int :=
  if ¬c.func then (c.card, Hdf.errInvalidObject)
  else if c.data = 0 ∨ c.size = 0 then (c.card, Hdf.errInvalidParam)
  else if c.size = 1 then acc.writeb c.card (c.memory c.data) c.addr.toNat
  else if c.size = 2 then
    acc.writew c.card (UInt16.ofNat (c.memory.loadWord c.order c.data 2)) c.addr.toNat
  else if c.size = 4 then
    acc.writel c.card (UInt32.ofNat (c.memory.loadWord c.order c.data 4)) c.addr.toNat
  else acc.memcpyToio c.card c.addr.toNat c.memory c.data c.size.toNat

/-- `LinuxSdioFunc0ReadBytes`: one byte, whatever the size. -/
def linuxSdioFunc0ReadBytes : Memory × Int :=
  if ¬c.func then (c.memory, Hdf.errInvalidObject)
  else if c.data = 0 ∨ c.size = 0 then (c.memory, Hdf.errInvalidParam)
  else
    let r := acc.f0Readb c.card c.addr.toNat
    (c.memory.blit c.data 1 fun _ => r.1, r.2)

/-- `LinuxSdioFunc0WriteBytes`: one byte, whatever the size. -/
def linuxSdioFunc0WriteBytes : Card × Int :=
  if ¬c.func then (c.card, Hdf.errInvalidObject)
  else if c.data = 0 ∨ c.size = 0 then (c.card, Hdf.errInvalidParam)
  else acc.f0Writeb c.card (c.memory c.data) c.addr.toNat

/-- The parameters are refused. -/
def Call.Refused : Prop := ¬c.func ∨ c.data = 0 ∨ c.size = 0

/-- A read that succeeds brings the bytes of the function, as a read of a block does. -/
structure IncrReads : Prop where
  bytes : (linuxSdioIncrAddrReadBytes acc c).2 = Hdf.success →
    (linuxSdioIncrAddrReadBytes acc c).1
      = c.memory.blit c.data c.size.toNat (c.card.func.view c.addr.toNat)
  block : (linuxSdioIncrAddrReadBytes acc c).2 = Hdf.success →
    (acc.memcpyFromio c.card c.memory c.data c.addr.toNat c.size.toNat).2 = Hdf.success →
    (linuxSdioIncrAddrReadBytes acc c).1
      = (acc.memcpyFromio c.card c.memory c.data c.addr.toNat c.size.toNat).1

/-- A write that succeeds leaves the bytes on the function, as a write of a block does. -/
structure IncrWrites : Prop where
  bytes : (linuxSdioIncrAddrWriteBytes acc c).2 = Hdf.success →
    (linuxSdioIncrAddrWriteBytes acc c).1
      = c.card.write c.addr.toNat c.size.toNat (c.memory.view c.data)
  block : (linuxSdioIncrAddrWriteBytes acc c).2 = Hdf.success →
    (acc.memcpyToio c.card c.addr.toNat c.memory c.data c.size.toNat).2 = Hdf.success →
    (linuxSdioIncrAddrWriteBytes acc c).1
      = (acc.memcpyToio c.card c.addr.toNat c.memory c.data c.size.toNat).1

/-- A read of the function 0 that succeeds brings its bytes. -/
def Func0Reads : Prop :=
  (linuxSdioFunc0ReadBytes acc c).2 = Hdf.success →
    (linuxSdioFunc0ReadBytes acc c).1
      = c.memory.blit c.data c.size.toNat (c.card.func0.view c.addr.toNat)

/-- A write of the function 0 that succeeds leaves the bytes on it. -/
def Func0Writes : Prop :=
  (linuxSdioFunc0WriteBytes acc c).2 = Hdf.success →
    (linuxSdioFunc0WriteBytes acc c).1
      = c.card.write0 c.addr.toNat c.size.toNat (c.memory.view c.data)

/-- A word that is read is kept in the order of the device. -/
structure ReadFits : Prop where
  word2 : c.size = 2 → (acc.readw c.card c.addr.toNat).2 = 0 →
    c.order.Straight (c.card.func.view c.addr.toNat) 2
  word4 : c.size = 4 → (acc.readl c.card c.addr.toNat).2 = 0 →
    c.order.Straight (c.card.func.view c.addr.toNat) 4

/-- A word that is written is kept in the order of the device. -/
structure WriteFits : Prop where
  word2 : c.size = 2 →
    (acc.writew c.card (UInt16.ofNat (c.memory.loadWord c.order c.data 2)) c.addr.toNat).2 = 0 →
    c.order.Straight (c.memory.view c.data) 2
  word4 : c.size = 4 →
    (acc.writel c.card (UInt32.ofNat (c.memory.loadWord c.order c.data 4)) c.addr.toNat).2 = 0 →
    c.order.Straight (c.memory.view c.data) 4

/-- The bytes after the first one of a read of the function 0 are there already. -/
def Func0ReadFits : Prop :=
  (acc.f0Readb c.card c.addr.toNat).2 = 0 →
    ∀ k, 1 ≤ k → k < c.size.toNat →
      c.memory (c.data + k) = c.card.func0 (c.addr.toNat + k)

/-- The bytes after the first one of a write of the function 0 are there already. -/
def Func0WriteFits : Prop :=
  (acc.f0Writeb c.card (c.memory c.data) c.addr.toNat).2 = 0 →
    ∀ k, 1 ≤ k → k < c.size.toNat →
      c.card.func0 (c.addr.toNat + k) = c.memory (c.data + k)

end

variable {acc : Accessors} {c : Call}

theorem Card.write_eq_iff {card : Card} {addr n : Nat} {f g : Nat → UInt8} :
  card.write addr n f = card.write addr n g ↔ ∀ k < n, f k = g k
  := by
  unfold Card.write
  rw [Card.mk.injEq, and_iff_left rfl]
  exact blit_eq_iff

/-! ### Refused calls and blocks -/

/-- A function that tests its parameters reports an error where they are refused. -/
theorem guarded_of_refused {α : Type} {a : α} {x : α × Int} (h : c.Refused) :
  (if ¬c.func then (a, Hdf.errInvalidObject)
    else if c.data = 0 ∨ c.size = 0 then (a, Hdf.errInvalidParam) else x).2 ≠ Hdf.success
  := by
  by_cases hfunc : ¬c.func
  · rw [if_pos hfunc]
    show Hdf.errInvalidObject ≠ Hdf.success
    decide
  · rw [if_neg hfunc, if_pos (h.resolve_left hfunc)]
    show Hdf.errInvalidParam ≠ Hdf.success
    decide

/-- A function that tests its parameters goes on where they are not refused. -/
theorem guarded_of_accepted {α : Type} {a : α} {x : α × Int} (h : ¬c.Refused) :
  (if ¬c.func then (a, Hdf.errInvalidObject)
    else if c.data = 0 ∨ c.size = 0 then (a, Hdf.errInvalidParam) else x) = x
  := by
  unfold Call.Refused at h
  rw [not_or] at h
  rw [if_neg h.1, if_neg h.2]

theorem size_pos (h : ¬c.Refused) :
  1 ≤ c.size.toNat
  := by
  unfold Call.Refused at h
  rw [not_or, not_or] at h
  exact Nat.pos_of_ne_zero fun hzero => h.2.2 (UInt32.toNat_inj.mp hzero)

/-- A read brings what a read of a block does if it brings the bytes. -/
theorem incrReads_iff_bytes (hacc : acc.Documented) :
  IncrReads acc c ↔ ((linuxSdioIncrAddrReadBytes acc c).2 = Hdf.success →
    (linuxSdioIncrAddrReadBytes acc c).1
      = c.memory.blit c.data c.size.toNat (c.card.func.view c.addr.toNat))
  := ⟨IncrReads.bytes, fun h => ⟨h, fun hret hblock =>
    (h hret).trans (hacc.memcpyFromio _ _ _ _ _ hblock).symm⟩⟩

/-- A write leaves what a write of a block does if it leaves the bytes. -/
theorem incrWrites_iff_bytes (hacc : acc.Documented) :
  IncrWrites acc c ↔ ((linuxSdioIncrAddrWriteBytes acc c).2 = Hdf.success →
    (linuxSdioIncrAddrWriteBytes acc c).1
      = c.card.write c.addr.toNat c.size.toNat (c.memory.view c.data))
  := ⟨IncrWrites.bytes, fun h => ⟨h, fun hret hblock =>
    (h hret).trans (hacc.memcpyToio _ _ _ _ _ hblock).symm⟩⟩

/-! ### Words -/

/-- A word that was read is stored as the bytes of the device exactly if they are straight. -/
theorem storeWord_iff {n v : Nat} {f : Nat → UInt8} {ret : Int} (order : ByteOrder) (m : Memory)
  (p : Nat) (hv : ret = 0 → v = wordOf f n) :
  (ret = Hdf.success → m.storeWord order p n v = m.blit p n f) ↔ (ret = 0 → order.Straight f n)
  := by
  apply imp_congr_right
  intro hret
  rw [hv hret]
  exact storeWord_eq_iff

/-- A word that was taken from the memory is written as its bytes exactly if they are straight. -/
theorem write_loadWord_iff {order : ByteOrder} {m : Memory} {card : Card} {p addr n v : Nat}
  (hv : v = m.loadWord order p n) :
  card.write addr n (byteOf v) = card.write addr n (m.view p) ↔ order.Straight (m.view p) n
  := by
  rw [Card.write_eq_iff]
  apply forall₂_congr
  intro k hk
  rw [hv, Memory.loadWord, byteOf_wordOf hk]

/-- A byte in the place of one. -/
theorem byte_eq {f : Nat → UInt8} {value : UInt8} (h : value = f 0) :
  ∀ k < 1, value = f k
  := fun k hk => by rw [Nat.lt_one_iff.mp hk, h]

/-! ### The function -/

/-- A read brings the bytes of the function exactly if it is refused, or the bytes of a word are
kept in the order of the device. -/
theorem incrReads_iff (hacc : acc.Documented) :
  IncrReads acc c ↔ c.Refused ∨ ReadFits acc c
  := by
  rw [incrReads_iff_bytes hacc]
  by_cases hrefused : c.Refused
  · exact iff_of_true (fun h => absurd h (guarded_of_refused hrefused)) (.inl hrefused)
  rw [or_iff_right hrefused, linuxSdioIncrAddrReadBytes, guarded_of_accepted hrefused]
  by_cases hone : c.size = 1
  · rw [if_pos hone, hone]
    refine iff_of_true (fun hret => ?_) ⟨?_, ?_⟩
    · have hbyte : (acc.readb c.card c.addr.toNat).1 = c.card.func.view c.addr.toNat 0 :=
        hacc.readb _ _ hret
      exact blit_eq_iff.mpr (byte_eq hbyte)
    · exact fun htwo => absurd (hone.symm.trans htwo) (by decide)
    · exact fun hfour => absurd (hone.symm.trans hfour) (by decide)
  by_cases htwo : c.size = 2
  · have hword := storeWord_iff c.order c.memory c.data (hacc.readw c.card c.addr.toNat)
    rw [if_neg hone, if_pos htwo, htwo]
    refine hword.trans ⟨fun h => ⟨fun _ => h, fun hfour => ?_⟩, fun h => h.word2 htwo⟩
    exact absurd (htwo.symm.trans hfour) (by decide)
  by_cases hfour : c.size = 4
  · have hword := storeWord_iff c.order c.memory c.data (hacc.readl c.card c.addr.toNat)
    rw [if_neg hone, if_neg htwo, if_pos hfour, hfour]
    exact hword.trans ⟨fun h => ⟨fun h2 => absurd h2 htwo, fun _ => h⟩, fun h => h.word4 hfour⟩
  rw [if_neg hone, if_neg htwo, if_neg hfour]
  exact iff_of_true (hacc.memcpyFromio _ _ _ _ _)
    ⟨fun h => absurd h htwo, fun h => absurd h hfour⟩

/-- A write leaves the bytes on the function exactly if it is refused, or the bytes of a word are
kept in the order of the device. -/
theorem incrWrites_iff (hacc : acc.Documented) :
  IncrWrites acc c ↔ c.Refused ∨ WriteFits acc c
  := by
  rw [incrWrites_iff_bytes hacc]
  by_cases hrefused : c.Refused
  · exact iff_of_true (fun h => absurd h (guarded_of_refused hrefused)) (.inl hrefused)
  rw [or_iff_right hrefused, linuxSdioIncrAddrWriteBytes, guarded_of_accepted hrefused]
  by_cases hone : c.size = 1
  · rw [if_pos hone, hone]
    refine iff_of_true (fun hret => ?_) ⟨?_, ?_⟩
    · rw [hacc.writeb _ _ _ hret]
      exact Card.write_eq_iff.mpr (byte_eq rfl)
    · exact fun htwo => absurd (hone.symm.trans htwo) (by decide)
    · exact fun hfour => absurd (hone.symm.trans hfour) (by decide)
  by_cases htwo : c.size = 2
  · have hword : (UInt16.ofNat (c.memory.loadWord c.order c.data 2)).toNat
        = c.memory.loadWord c.order c.data 2 := UInt16.toNat_ofNat_of_lt' (wordOf_lt _ 2)
    rw [if_neg hone, if_pos htwo, htwo]
    refine Iff.trans (imp_congr_right fun hret => ?_)
      ⟨fun h => ⟨fun _ => h, fun hfour => ?_⟩, fun h => h.word2 htwo⟩
    · rw [hacc.writew _ _ _ hret]
      exact write_loadWord_iff hword
    · exact absurd (htwo.symm.trans hfour) (by decide)
  by_cases hfour : c.size = 4
  · have hword : (UInt32.ofNat (c.memory.loadWord c.order c.data 4)).toNat
        = c.memory.loadWord c.order c.data 4 := UInt32.toNat_ofNat_of_lt' (wordOf_lt _ 4)
    rw [if_neg hone, if_neg htwo, if_pos hfour, hfour]
    refine Iff.trans (imp_congr_right fun hret => ?_)
      ⟨fun h => ⟨fun h2 => absurd h2 htwo, fun _ => h⟩, fun h => h.word4 hfour⟩
    rw [hacc.writel _ _ _ hret]
    exact write_loadWord_iff hword
  rw [if_neg hone, if_neg htwo, if_neg hfour]
  exact iff_of_true (hacc.memcpyToio _ _ _ _ _)
    ⟨fun h => absurd h htwo, fun h => absurd h hfour⟩

/-! ### The function 0 -/

/-- A read brings the bytes of the function 0 exactly if it is refused, or those after the first one
are there. -/
theorem func0Reads_iff (hacc : acc.Documented) :
  Func0Reads acc c ↔ c.Refused ∨ Func0ReadFits acc c
  := by
  unfold Func0Reads
  by_cases hrefused : c.Refused
  · exact iff_of_true (fun h => absurd h (guarded_of_refused hrefused)) (.inl hrefused)
  rw [or_iff_right hrefused, linuxSdioFunc0ReadBytes, guarded_of_accepted hrefused]
  apply imp_congr_right
  intro hret
  have hbyte : (acc.f0Readb c.card c.addr.toNat).1 = c.card.func0.view c.addr.toNat 0 :=
    hacc.f0Readb _ _ hret
  exact blit_eq_blit_iff (size_pos hrefused) (byte_eq hbyte)

/-- A write leaves the bytes on the function 0 exactly if it is refused, or those after the first
one are there. -/
theorem func0Writes_iff (hacc : acc.Documented) :
  Func0Writes acc c ↔ c.Refused ∨ Func0WriteFits acc c
  := by
  unfold Func0Writes
  by_cases hrefused : c.Refused
  · exact iff_of_true (fun h => absurd h (guarded_of_refused hrefused)) (.inl hrefused)
  rw [or_iff_right hrefused, linuxSdioFunc0WriteBytes, guarded_of_accepted hrefused]
  apply imp_congr_right
  intro hret
  rw [hacc.f0Writeb _ _ _ hret]
  unfold Card.write0
  rw [Card.mk.injEq, and_iff_right rfl]
  exact blit_eq_blit_iff (size_pos hrefused) (byte_eq rfl)

/-- On a host that keeps the least byte first, each transfer with the function does what a transfer
of a block does. -/
theorem incr_little (hacc : acc.Documented) (h : c.order = .little) :
  IncrReads acc c ∧ IncrWrites acc c
  := by
  constructor
  · refine (incrReads_iff hacc).mpr (.inr ⟨fun _ _ => ?_, fun _ _ => ?_⟩) <;>
      exact h ▸ ByteOrder.straight_little
  · refine (incrWrites_iff hacc).mpr (.inr ⟨fun _ _ => ?_, fun _ _ => ?_⟩) <;>
      exact h ▸ ByteOrder.straight_little

/-- The transfers do what a transfer of a block does exactly if they are refused or these conditions
hold. -/
theorem transfers_agree_iff (acc : Accessors) (hacc : acc.Documented) (c : Call) :
  (IncrReads acc c ↔ c.Refused ∨ ReadFits acc c)
    ∧ (IncrWrites acc c ↔ c.Refused ∨ WriteFits acc c)
    ∧ (Func0Reads acc c ↔ c.Refused ∨ Func0ReadFits acc c)
    ∧ (Func0Writes acc c ↔ c.Refused ∨ Func0WriteFits acc c)
  := ⟨incrReads_iff hacc, incrWrites_iff hacc, func0Reads_iff hacc, func0Writes_iff hacc⟩

/-- Accessors that succeed. -/
def succeeding : Accessors where
  readb card addr := (card.func addr, 0)
  readw card addr := (UInt16.ofNat (wordOf (card.func.view addr) 2), 0)
  readl card addr := (UInt32.ofNat (wordOf (card.func.view addr) 4), 0)
  memcpyFromio card m dst addr count := (m.blit dst count (card.func.view addr), 0)
  writeb card value addr := (card.write addr 1 fun _ => value, 0)
  writew card value addr := (card.write addr 2 (byteOf value.toNat), 0)
  writel card value addr := (card.write addr 4 (byteOf value.toNat), 0)
  memcpyToio card addr m src count := (card.write addr count (m.view src), 0)
  f0Readb card addr := (card.func0 addr, 0)
  f0Writeb card value addr := (card.write0 addr 1 fun _ => value, 0)

theorem succeeding_documented :
  succeeding.Documented
  where
  readb _ _ _ := rfl
  readw _ _ _ := UInt16.toNat_ofNat_of_lt' (wordOf_lt _ 2)
  readl _ _ _ := UInt32.toNat_ofNat_of_lt' (wordOf_lt _ 4)
  memcpyFromio _ _ _ _ _ _ := rfl
  writeb _ _ _ _ := rfl
  writew _ _ _ _ := rfl
  writel _ _ _ _ := rfl
  memcpyToio _ _ _ _ _ _ := rfl
  f0Readb _ _ _ := rfl
  f0Writeb _ _ _ _ := rfl

/-- A transfer at the address 240 of a device whose bytes are their addresses, from or to a buffer
of fives and sixes. -/
def sample (order : ByteOrder) (size : UInt32) : Call where
  order
  func := true
  card := ⟨UInt8.ofNat, UInt8.ofNat⟩
  memory a := if a % 2 = 0 then 5 else 6
  data := 4096
  addr := 240
  size

/-- Four bytes on a host that keeps the least byte first, and one byte of the function 0. -/
theorem transfers_agree_little :
  IncrReads succeeding (sample .little 4) ∧ IncrWrites succeeding (sample .little 4)
    ∧ Func0Reads succeeding (sample .big 1) ∧ Func0Writes succeeding (sample .big 1)
  := by
  obtain ⟨hread, hwrite, -⟩ := transfers_agree_iff succeeding succeeding_documented
    (sample .little 4)
  obtain ⟨-, -, hread0, hwrite0⟩ := transfers_agree_iff succeeding succeeding_documented
    (sample .big 1)
  refine ⟨hread.mpr (.inr ⟨fun h => ?_, fun _ _ => ?_⟩),
    hwrite.mpr (.inr ⟨fun h => ?_, fun _ _ => ?_⟩),
    hread0.mpr (.inr fun _ k hk hk' => ?_), hwrite0.mpr (.inr fun _ k hk hk' => ?_)⟩
  · exact absurd h (by decide)
  · exact ByteOrder.straight_little
  · exact absurd h (by decide)
  · exact ByteOrder.straight_little
  · exact absurd (Nat.lt_of_le_of_lt hk hk') (by decide)
  · exact absurd (Nat.lt_of_le_of_lt hk hk') (by decide)

/-- Two bytes are read and written in reverse on a host that keeps the greatest byte first; of two
bytes of the function 0, one is transferred. -/
theorem not_transfers_agree :
  ((linuxSdioIncrAddrReadBytes succeeding (sample .big 2)).2 = Hdf.success
      ∧ (linuxSdioIncrAddrReadBytes succeeding (sample .big 2)).1.bytes 4096 2 = [241, 240]
      ∧ ¬IncrReads succeeding (sample .big 2))
    ∧ ((linuxSdioIncrAddrWriteBytes succeeding (sample .big 2)).2 = Hdf.success
      ∧ (linuxSdioIncrAddrWriteBytes succeeding (sample .big 2)).1.func.bytes 240 2 = [6, 5]
      ∧ ¬IncrWrites succeeding (sample .big 2))
    ∧ ((linuxSdioFunc0ReadBytes succeeding (sample .little 2)).2 = Hdf.success
      ∧ (linuxSdioFunc0ReadBytes succeeding (sample .little 2)).1.bytes 4096 2 = [240, 6]
      ∧ ¬Func0Reads succeeding (sample .little 2))
    ∧ (linuxSdioFunc0WriteBytes succeeding (sample .little 2)).2 = Hdf.success
      ∧ (linuxSdioFunc0WriteBytes succeeding (sample .little 2)).1.func0.bytes 240 2 = [5, 241]
      ∧ ¬Func0Writes succeeding (sample .little 2)
  := by
  have hrefused (order : ByteOrder) : ¬(sample order 2).Refused := by
    rintro (h | h | h)
    · exact h rfl
    · exact absurd (show 4096 = 0 from h) (by decide)
    · exact absurd (show (2 : UInt32) = 0 from h) (by decide)
  refine ⟨⟨by decide, by decide, ?_⟩, ⟨by decide, by decide, ?_⟩, ⟨by decide, by decide, ?_⟩,
    by decide, by decide, ?_⟩
  · rw [incrReads_iff succeeding_documented, or_iff_right (hrefused .big)]
    exact fun h => absurd (h.word2 rfl rfl) (by decide)
  · rw [incrWrites_iff succeeding_documented, or_iff_right (hrefused .big)]
    exact fun h => absurd (h.word2 rfl rfl) (by decide)
  · rw [func0Reads_iff succeeding_documented, or_iff_right (hrefused .little)]
    exact fun h => absurd (h rfl 1 (by decide) (by decide)) (by decide)
  · rw [func0Writes_iff succeeding_documented, or_iff_right (hrefused .little)]
    exact fun h => absurd (h rfl 1 (by decide) (by decide)) (by decide)

end Sdio
