import KhdfLinux.Lib.Machine
import KhdfLinux.Lib.Memory
import KhdfLinux.Lib.Run

/-!
# Memory of the OSAL

The allocations put a header of eight bytes before the pointer that they return, with the allocator
of the kernel that was asked and the distance to the block it gave, from which `OsalMemFree` finds
the block again.  `osalMem_roundTrip_iff`: it does, over any sequence of calls and of writes to the
payloads, as long as the distance fits its 32 bits.
-/

namespace Osal

/-! ### The calls -/

/-- The allocators of the kernel, each with its function to free. -/
inductive Allocator where
  | kmalloc
  | vmalloc
  deriving DecidableEq, Repr

/-- `TYPE_KMALLOC` and `TYPE_VMALLOC`. -/
def Allocator.type : Allocator → Nat
  | kmalloc => 0xa5a5a5a1
  | vmalloc => 0xa5a5a5a2

/-- A block that an allocator has given out. -/
structure KernelBlock where
  allocator : Allocator
  base : Nat
  size : Nat
  deriving DecidableEq, Repr

/-- The memory, and the blocks that are given out. -/
structure Kernel where
  mem : Memory
  blocks : List KernelBlock

/-- `SIZE_MAX`. -/
def sizeMax : Nat := 18446744073709551615

/-- The number of addresses. -/
def addresses : Nat := 18446744073709551616

/-- `KMALLOC_SIZE`. -/
def kmallocSize : Nat := 0x20000

/-- The size of `struct mem_block`, the header. -/
def mngSize : Nat := 8

/-- `osal_mem_alloc`, with the address that the allocator answers: the block that it gives, if it
is asked and gives one. -/
def memAlloc (answer size : Nat) : Option KernelBlock :=
  if sizeMax - mngSize < size then
    none
  else if answer = 0 then
    none
  else if kmallocSize - mngSize < size then
    some ⟨.vmalloc, answer, size + mngSize⟩
  else
    some ⟨.kmalloc, answer, size + mngSize⟩

/-- Store a header at `block`. -/
def storeHeader (m : Memory) (block type offset : Nat) : Memory :=
  (m.store32 block type).store32 (block + 4) offset

/-- `OsalMemAlloc`: the pointer that is returned, and the kernel. -/
def osalMemAlloc (k : Kernel) (answer size : Nat) : Nat × Kernel :=
  if size = 0 then
    (0, k)
  else
    match memAlloc answer size with
    | none => (0, k)
    | some block =>
        (block.base + mngSize,
          ⟨storeHeader k.mem block.base block.allocator.type 0, block :: k.blocks⟩)

/-- `memset_s`: nothing is set if the size of the destination is not accepted. -/
def memsetS (m : Memory) (dest destMax : Nat) (c : UInt8) (count : Nat) : Memory :=
  if destMax = 0 ∨ 2147483647 < destMax then m
  else fun a => if (Region.mk dest (min destMax count)).Has a then c else m a

/-- `OsalMemCalloc`. -/
def osalMemCalloc (k : Kernel) (answer size : Nat) : Nat × Kernel :=
  if size = 0 then
    (0, k)
  else
    let (buf, k) := osalMemAlloc k answer size
    if buf ≠ 0 then (buf, { k with mem := memsetS k.mem buf size 0 size }) else (buf, k)

/-- The `aligned_ptr` of `OsalMemAllocAlign`. -/
def alignedPtr (buf alignment : Nat) : Nat :=
  (buf + alignment - 1) % addresses &&& (addresses - 1 - (alignment - 1))

/-- `OsalMemAllocAlign`. -/
def osalMemAllocAlign (k : Kernel) (answer alignment size : Nat) : Nat × Kernel :=
  if size = 0 ∨ alignment = 0 ∨ alignment &&& (alignment - 1) ≠ 0 ∨ alignment % 8 ≠ 0
      ∨ sizeMax - alignment < size then
    (0, k)
  else
    match memAlloc answer (size + alignment) with
    | none => (0, k)
    | some block =>
        let buf := block.base + mngSize
        let alignedPtr := alignedPtr buf alignment
        -- the distance is kept in 32 bits, and the header is placed by what is kept
        let offset := u32 ((alignedPtr : Int) - buf)
        (alignedPtr,
          ⟨storeHeader k.mem (block.base + offset) block.allocator.type offset,
            block :: k.blocks⟩)

/-- `OsalMemFree`: the function to free that is called, and the address it is passed. -/
def osalMemFree (m : Memory) (buf : Nat) : Option (Allocator × Nat) :=
  if buf = 0 then
    none
  else
    let block := (buf + addresses - mngSize) % addresses
    let type := m.load32 block
    let base := (block + addresses - m.load32 (block + 4)) % addresses
    if type = Allocator.kmalloc.type then some (.kmalloc, base)
    else if type = Allocator.vmalloc.type then some (.vmalloc, base)
    else none

/-- A function to free takes back the block it is passed. -/
def Kernel.takeBack (k : Kernel) : Option (Allocator × Nat) → Kernel
  | none => k
  | some (allocator, base) =>
      { k with blocks := k.blocks.filter fun b => ¬(b.allocator = allocator ∧ b.base = base) }

/-! ### The clients -/

/-- A payload that a client was given, with the block that the kernel gave for it. -/
structure Payload where
  ptr : Nat
  size : Nat
  alignment : Nat
  block : KernelBlock
  deriving DecidableEq, Repr

/-- The kernel, and the payloads of the clients that are live. -/
structure State where
  kernel : Kernel
  live : List Payload

/-- What the clients do.  A call that asks an allocator comes with its answer, the address of a
block or a null pointer. -/
inductive Act where
  | alloc (size answer : Nat)
  | calloc (size answer : Nat)
  | allocAlign (alignment size answer : Nat)
  | free (ptr : Nat)
  | write (mem : Memory)

/-- A client takes what an allocation returns.  The block for it is the last one given out. -/
def State.take (s : State) (alignment size : Nat) : Nat × Kernel → State
  | (p, k) =>
      match k.blocks with
      | [] => { s with kernel := k }
      | block :: _ =>
          if p = 0 then { s with kernel := k } else ⟨k, ⟨p, size, alignment, block⟩ :: s.live⟩

/-- The state after an act. -/
def State.next (s : State) : Act → State
  | .alloc size answer => s.take 1 size (osalMemAlloc s.kernel answer size)
  | .calloc size answer => s.take 1 size (osalMemCalloc s.kernel answer size)
  | .allocAlign alignment size answer =>
      s.take alignment size (osalMemAllocAlign s.kernel answer alignment size)
  | .free ptr =>
      { kernel := s.kernel.takeBack (osalMemFree s.kernel.mem ptr)
        live := s.live.filter fun p => p.ptr ≠ ptr }
  | .write mem => { s with kernel := { s.kernel with mem } }

/-- The bytes of a block. -/
def KernelBlock.region (b : KernelBlock) : Region := ⟨b.base, b.size⟩

/-- The bytes of a payload. -/
def Payload.region (p : Payload) : Region := ⟨p.ptr, p.size⟩

/-- The bytes of the header of a payload. -/
def Payload.header (p : Payload) : Region := ⟨p.ptr - mngSize, mngSize⟩

/-- A block that can be given out: memory apart from the blocks that are. -/
def Kernel.Free (k : Kernel) (b : KernelBlock) : Prop :=
  b.base + b.size ≤ addresses ∧ ∀ b' ∈ k.blocks, b.region.Apart b'.region

/-- The allocators give blocks that are free, the clients free what is live, and write to the
payloads and not to the rest of the blocks. -/
def State.Allowed (s : State) : Act → Prop
  | .free ptr => ∃ p ∈ s.live, p.ptr = ptr
  | .write mem => ∀ a, mem a ≠ s.kernel.mem a →
      (∃ p ∈ s.live, p.region.Has a) ∨ ∀ b ∈ s.kernel.blocks, ¬b.region.Has a
  | act => ∀ b, (s.next act).kernel.blocks = b :: s.kernel.blocks → s.kernel.Free b

/-- Every payload lies with its header in its block, aligned and apart from the other payloads and
all headers; to free it passes its block to the function for it; and what is given out are the
blocks of the payloads. -/
structure State.Sound (s : State) : Prop where
  within : ∀ p ∈ s.live, mngSize ≤ p.ptr ∧ p.header.Within p.block.region
    ∧ p.region.Within p.block.region
  aligned : ∀ p ∈ s.live, p.alignment ∣ p.ptr
  payloads : s.live.Pairwise fun p q => p.region.Apart q.region
  headers : ∀ p ∈ s.live, ∀ q ∈ s.live, p.region.Apart q.header
  frees : ∀ p ∈ s.live, osalMemFree s.kernel.mem p.ptr = some (p.block.allocator, p.block.base)
  blocks : s.kernel.blocks = s.live.map Payload.block

/-! ### Blocks and headers -/

variable {k : Kernel} {s : State} {m m' : Memory} {p : Payload} {b : KernelBlock}
  {answer alignment size : Nat}

/-- The payload follows a header in its block. -/
structure Payload.Placed (p : Payload) : Prop where
  pos : 0 < p.size
  base : p.block.base + mngSize ≤ p.ptr
  room : p.ptr + p.size ≤ p.block.base + p.block.size
  aligned : p.alignment ∣ p.ptr
  addressed : p.block.base + p.block.size ≤ addresses

/-- The header of the payload tells its block. -/
def Payload.Marked (p : Payload) (m : Memory) : Prop :=
  m.load32 (p.ptr - mngSize) = p.block.allocator.type
    ∧ m.load32 (p.ptr - mngSize + 4) = p.ptr - mngSize - p.block.base

theorem Payload.Placed.region_within (h : p.Placed) :
  p.region.Within p.block.region
  := ⟨Nat.le_trans (Nat.le_add_right _ _) h.base, h.room⟩

theorem Payload.Placed.header_within (h : p.Placed) :
  p.header.Within p.block.region
  := by
  have hbase := h.base
  have hroom := h.room
  constructor
  · apply Nat.le_sub_of_add_le hbase
  · show p.ptr - mngSize + mngSize ≤ p.block.base + p.block.size
    omega

/-- What the header tells is read off its bytes. -/
theorem Payload.Marked.congr (h : p.Marked m) (hsame : m.AgreeOn p.header m') :
  p.Marked m'
  := by
  have hword : ∀ q, (Region.mk q 4).Within p.header → m'.load32 q = m.load32 q := by
    intro q hq
    apply Memory.load32_congr
    intro a ha
    apply hsame _ (ha.within hq)
  obtain ⟨htype, hoffset⟩ := h
  constructor
  · rw [hword (p.ptr - mngSize) ⟨Nat.le_refl _, Nat.add_le_add_left (by decide : 4 ≤ mngSize) _⟩,
      htype]
  · rw [hword (p.ptr - mngSize + 4) ⟨Nat.le_add_right _ _, Nat.le_refl _⟩, hoffset]

/-- A payload with its header passes its block to the function to free. -/
theorem osalMemFree_marked (h : p.Placed) (hmarked : p.Marked m) :
  osalMemFree m p.ptr = some (p.block.allocator, p.block.base)
  := by
  obtain ⟨htype, hoffset⟩ := hmarked
  have hbase := h.base
  have hroom := h.room
  have hpos := h.pos
  have haddressed := h.addressed
  unfold mngSize addresses at *
  have hblock : (p.ptr + addresses - mngSize) % addresses = p.ptr - 8 := by
    unfold mngSize addresses
    omega
  have hback : (p.ptr - 8 + addresses - (p.ptr - 8 - p.block.base)) % addresses = p.block.base := by
    unfold addresses
    omega
  unfold osalMemFree
  rw [if_neg (by omega)]
  dsimp only
  rw [hblock, htype, hoffset, hback]
  cases p.block.allocator with
  | kmalloc => rfl
  | vmalloc => rfl

/-- The distance that a header tells has 32 bits. -/
theorem not_osalMemFree_far
    (hfar : p.block.base + mngSize + 4294967296 ≤ p.ptr) (hlt : p.ptr < addresses) :
  osalMemFree m p.ptr ≠ some (p.block.allocator, p.block.base)
  := by
  intro hfree
  have hword := Memory.load32_lt m (p.ptr - 8 + 4)
  unfold mngSize addresses at *
  have hblock : (p.ptr + addresses - mngSize) % addresses = p.ptr - 8 := by
    unfold mngSize addresses
    omega
  have hbase : (p.ptr - 8 + addresses - m.load32 (p.ptr - 8 + 4)) % addresses ≠ p.block.base := by
    unfold addresses
    omega
  unfold osalMemFree at hfree
  rw [if_neg (by omega)] at hfree
  dsimp only at hfree
  rw [hblock] at hfree
  apply hbase
  split at hfree
  · apply congrArg Prod.snd (Option.some.inj hfree)
  · split at hfree
    · apply congrArg Prod.snd (Option.some.inj hfree)
    · cases hfree

/-- A header that is stored is read back. -/
theorem load32_storeHeader (m : Memory) (block : Nat) {type offset : Nat}
    (htype : type < 4294967296)
    (hoffset : offset < 4294967296) :
  (storeHeader m block type offset).load32 block = type
    ∧ (storeHeader m block type offset).load32 (block + 4) = offset
  := by
  unfold storeHeader
  constructor
  · rw [Memory.load32_store32_of_apart (.inr (Nat.le_refl _)), Memory.load32_store32 m block htype]
  · apply Memory.load32_store32 _ _ hoffset

/-- A header is stored to its bytes only. -/
theorem storeHeader_of_not_has {block type offset a : Nat} (h : ¬(Region.mk block mngSize).Has a) :
  storeHeader m block type offset a = m a
  := by
  unfold Region.Has mngSize at h
  dsimp only at h
  unfold storeHeader
  rw [Memory.store32_of_not_has, Memory.store32_of_not_has]
  · unfold Region.Has
    dsimp only
    omega
  · unfold Region.Has
    dsimp only
    omega

theorem Allocator.type_lt (allocator : Allocator) :
  allocator.type < 4294967296
  := by cases allocator <;> decide

/-- What `osal_mem_alloc` gives. -/
theorem memAlloc_some (h : memAlloc answer size = some b) :
  answer ≠ 0 ∧ b.base = answer ∧ b.size = size + mngSize ∧ size + mngSize ≤ sizeMax
  := by
  unfold memAlloc at h
  split at h
  · cases h
  · next hsize =>
      have hfits : size + mngSize ≤ sizeMax := by
        unfold sizeMax mngSize at *
        omega
      split at h
      · cases h
      · next hanswer =>
          split at h
          · cases h
            exact ⟨hanswer, rfl, rfl, hfits⟩
          · cases h
            exact ⟨hanswer, rfl, rfl, hfits⟩

/-! ### The invariant -/

/-- The blocks that are given out are apart, and each has one payload, with its header. -/
structure State.Inv (s : State) : Prop where
  placed : ∀ p ∈ s.live, p.Placed
  marked : ∀ p ∈ s.live, p.Marked s.kernel.mem
  apart : s.live.Pairwise fun p q => p.block.region.Apart q.block.region
  blocks : s.kernel.blocks = s.live.map Payload.block

theorem pairwise_blocks
    {live : List Payload} (h : live.Pairwise fun p q => p.block.region.Apart q.block.region)
    {q : Payload} (hp : p ∈ live) (hq : q ∈ live) (hne : p ≠ q) :
  p.block.region.Apart q.block.region
  := by
  have hsymm : Std.Symm fun p q : Payload => p.block.region.Apart q.block.region :=
    ⟨fun _ _ happart => happart.symm⟩
  apply h.forall hp hq hne

theorem State.Inv.sound (h : s.Inv) :
  s.Sound
  where
  within p hp :=
    ⟨Nat.le_trans (Nat.le_add_left _ _) (h.placed p hp).base, (h.placed p hp).header_within,
      (h.placed p hp).region_within⟩
  aligned p hp := (h.placed p hp).aligned
  payloads := h.apart.imp_of_mem fun hp hq happart =>
    happart.within (h.placed _ hp).region_within (h.placed _ hq).region_within
  headers := by
    intro p hp q hq
    by_cases heq : p = q
    · subst heq
      right
      show p.ptr - mngSize + mngSize ≤ p.ptr
      have hbase := (h.placed p hp).base
      omega
    · have happart := pairwise_blocks h.apart hp hq heq
      apply happart.within (h.placed p hp).region_within (h.placed q hq).header_within
  frees p hp := osalMemFree_marked (h.placed p hp) (h.marked p hp)
  blocks := h.blocks

/-! ### The steps -/

/-- What an allocation does that gives the payload. -/
structure Given (k : Kernel) (p : Payload) (k' : Kernel) : Prop where
  placed : p.Placed
  marked : p.Marked k'.mem
  blocks : k'.blocks = p.block :: k.blocks
  kept : ∀ a, ¬p.block.region.Has a → k'.mem a = k.mem a

theorem State.Inv.given {k' : Kernel} (h : s.Inv) (hfree : s.kernel.Free p.block)
    (hgiven : Given s.kernel p k') :
  State.Inv ⟨k', p :: s.live⟩
  := by
  have hapart : ∀ q ∈ s.live, p.block.region.Apart q.block.region := by
    intro q hq
    apply hfree.2
    rw [h.blocks]
    apply List.mem_map_of_mem hq
  constructor
  · intro q hq
    obtain rfl | hq := List.mem_cons.mp hq
    · apply hgiven.placed
    · apply h.placed q hq
  · intro q hq
    obtain rfl | hq := List.mem_cons.mp hq
    · apply hgiven.marked
    · apply (h.marked q hq).congr
      intro a ha
      apply hgiven.kept
      apply (hapart q hq).symm.not_has (ha.within (h.placed q hq).header_within)
  · exact List.pairwise_cons.mpr ⟨hapart, h.apart⟩
  · show k'.blocks = p.block :: s.live.map Payload.block
    rw [hgiven.blocks, h.blocks]

/-- What is written to payloads and outside of the blocks leaves the headers. -/
theorem State.Inv.write {mem : Memory} (h : s.Inv) (hallowed : s.Allowed (.write mem)) :
  (s.next (.write mem)).Inv
  where
  placed := h.placed
  marked := by
    intro q hq
    apply (h.marked q hq).congr
    intro a ha
    by_contra hne
    obtain ⟨p, hp, hhas⟩ | houtside := hallowed a hne
    · exact (h.sound.headers p hp q hq).not_has hhas ha
    · apply houtside q.block _ (ha.within (h.placed q hq).header_within)
      rw [h.blocks]
      apply List.mem_map_of_mem hq
  apart := h.apart
  blocks := h.blocks

/-- The pointer of a payload tells it from the others, and so does the base of its block. -/
theorem State.Inv.ptr_iff {q : Payload} (h : s.Inv) (hp : p ∈ s.live) (hq : q ∈ s.live) :
  q.ptr = p.ptr ↔ q.block.allocator = p.block.allocator ∧ q.block.base = p.block.base
  := by
  by_cases heq : q = p
  · subst heq
    exact iff_of_true rfl ⟨rfl, rfl⟩
  · have happart := pairwise_blocks h.apart hq hp heq
    have hplaced := h.placed p hp
    have hplaced' := h.placed q hq
    have hptr : q.ptr ≠ p.ptr := by
      intro hptr
      have happart := happart.within hplaced'.region_within hplaced.region_within
      have hpos := hplaced.pos
      have hpos' := hplaced'.pos
      unfold Region.Apart Payload.region at happart
      dsimp only at happart
      omega
    have hbase : q.block.base ≠ p.block.base := by
      intro hbase
      have hlow := hplaced.base
      have hhigh := hplaced.room
      have hlow' := hplaced'.base
      have hhigh' := hplaced'.room
      unfold Region.Apart KernelBlock.region at happart
      unfold mngSize at hlow hlow'
      dsimp only at happart
      omega
    apply iff_of_false hptr fun hblock => hbase hblock.2

/-- To free a payload takes back its block. -/
theorem State.Inv.free {ptr : Nat} (h : s.Inv) (hallowed : s.Allowed (.free ptr)) :
  (s.next (.free ptr)).Inv
  := by
  obtain ⟨p, hp, rfl⟩ := hallowed
  have hfree := osalMemFree_marked (h.placed p hp) (h.marked p hp)
  have hmem : ((s.next (.free p.ptr)).kernel).mem = s.kernel.mem := by
    unfold State.next
    dsimp only
    rw [hfree]
    rfl
  constructor
  · intro q hq
    apply h.placed q (List.mem_filter.mp hq).1
  · intro q hq
    rw [hmem]
    apply h.marked q (List.mem_filter.mp hq).1
  · apply h.apart.filter _
  · unfold State.next
    dsimp only
    rw [hfree]
    unfold Kernel.takeBack
    dsimp only
    rw [h.blocks, List.filter_map]
    congr 1
    apply List.filter_congr
    intro q hq
    dsimp only [Function.comp_apply]
    rw [decide_eq_decide, ne_eq, h.ptr_iff hp hq]

theorem State.take_kernel (s : State) (alignment size : Nat) (r : Nat × Kernel) :
  (s.take alignment size r).kernel = r.2
  := by
  obtain ⟨p, k⟩ := r
  unfold State.take
  dsimp only
  split
  · rfl
  · split <;> rfl

/-- A null pointer is no payload. -/
theorem State.take_null (s : State) (alignment size : Nat) :
  s.take alignment size (0, s.kernel) = s
  := by
  unfold State.take
  dsimp only
  split <;> rfl

theorem State.take_placed {k' : Kernel} {blocks : List KernelBlock} (hplaced : p.Placed)
    (hblocks : k'.blocks = p.block :: blocks) :
  s.take p.alignment p.size (p.ptr, k') = ⟨k', p :: s.live⟩
  := by
  unfold State.take
  dsimp only
  rw [hblocks]
  have hbase := hplaced.base
  unfold mngSize at hbase
  exact if_neg (by omega)

/-- What is given is taken. -/
theorem State.Inv.take_given {k' : Kernel} (h : s.Inv) (hfree : s.kernel.Free p.block)
    (hgiven : Given s.kernel p k') :
  (s.take p.alignment p.size (p.ptr, k')).Inv
  := by
  rw [State.take_placed hgiven.placed hgiven.blocks]
  apply h.given hfree hgiven

/-- A header of distance 0 at the base of a block. -/
theorem given_plain (h : memAlloc answer size = some b) (hsize : size ≠ 0)
    (haddressed : b.base + b.size ≤ addresses) :
  Given k ⟨b.base + mngSize, size, 1, b⟩
    ⟨storeHeader k.mem b.base b.allocator.type 0, b :: k.blocks⟩
  := by
  obtain ⟨-, -, hblock, -⟩ := memAlloc_some h
  have hheader := load32_storeHeader k.mem b.base b.allocator.type_lt
    (show 0 < 4294967296 by decide)
  constructor
  · constructor
    · apply Nat.pos_of_ne_zero hsize
    · apply Nat.le_refl _
    · show b.base + mngSize + size ≤ b.base + b.size
      omega
    · apply Nat.one_dvd _
    · apply haddressed
  · unfold Payload.Marked
    dsimp only
    rw [Nat.add_sub_cancel, Nat.sub_self]
    apply hheader
  · rfl
  · intro a ha
    apply storeHeader_of_not_has
    intro hhas
    apply ha (hhas.within ⟨Nat.le_refl _, _⟩)
    show b.base + mngSize ≤ b.base + b.size
    omega

/-- What is set in the payload is not the header. -/
theorem Given.memset {k' : Kernel} (h : Given k p k') (c : UInt8) :
  Given k p { k' with mem := memsetS k'.mem p.ptr p.size c p.size }
  := by
  have hset : ∀ a, ¬p.region.Has a → memsetS k'.mem p.ptr p.size c p.size a = k'.mem a := by
    intro a ha
    unfold memsetS
    split
    · rfl
    · rw [Nat.min_self]
      apply if_neg ha
  have hapart : p.header.Apart p.region := by
    left
    show p.ptr - mngSize + mngSize ≤ p.ptr
    have hbase := h.placed.base
    omega
  constructor
  · apply h.placed
  · apply h.marked.congr
    intro a ha
    apply hset _ (hapart.not_has ha)
  · apply h.blocks
  · intro a ha
    rw [← h.kept a ha]
    apply hset
    intro hhas
    apply ha (hhas.within h.placed.region_within)

/-! ### Aligned allocations -/

/-- The sizes and the alignments that `OsalMemAllocAlign` accepts. -/
def Accepts (alignment size : Nat) : Prop :=
  size ≠ 0 ∧ alignment ≠ 0 ∧ alignment &&& (alignment - 1) = 0 ∧ alignment % 8 = 0
    ∧ size + alignment + mngSize ≤ sizeMax

/-- The distance from the end of the first possible header in the block to the payload. -/
def padding (base alignment : Nat) : Nat :=
  alignUp (base + mngSize) alignment - (base + mngSize)

theorem alignedPtr_eq {buf : Nat} (hne : alignment ≠ 0)
    (hpow : alignment &&& (alignment - 1) = 0) (hle : buf + alignment ≤ addresses) :
  alignedPtr buf alignment = alignUp buf alignment
  := by
  obtain ⟨e, rfl⟩ := (Nat.and_sub_one_eq_zero_iff_isPowerOfTwo hne).mp hpow
  have hpos : 0 < 2 ^ e := Nat.two_pow_pos e
  have hlt : buf + 2 ^ e - 1 < addresses := by omega
  have he : e ≤ 64 := by
    apply (Nat.pow_le_pow_iff_right (by decide : 1 < 2)).mp
    apply Nat.le_trans (Nat.le_add_left _ _) hle
  unfold alignedPtr alignUp
  rw [Nat.mod_eq_of_lt hlt]
  apply and_not_eq he hlt

/-- The outcomes of `OsalMemAllocAlign`: it gives nothing, or it takes a block and puts the header
at the distance that 32 bits keep. -/
theorem osalMemAllocAlign_cases (k : Kernel) (answer alignment size : Nat) :
  (¬(Accepts alignment size ∧ answer ≠ 0) ∧ osalMemAllocAlign k answer alignment size = (0, k))
    ∨ (Accepts alignment size ∧ answer ≠ 0) ∧ ∃ b,
      memAlloc answer (size + alignment) = some b
        ∧ osalMemAllocAlign k answer alignment size
          = (alignedPtr (b.base + mngSize) alignment,
            ⟨storeHeader k.mem
                (b.base + u32 ((alignedPtr (b.base + mngSize) alignment : Int)
                  - (b.base + mngSize : Nat)))
                b.allocator.type
                (u32 ((alignedPtr (b.base + mngSize) alignment : Int) - (b.base + mngSize : Nat))),
              b :: k.blocks⟩)
  := by
  unfold osalMemAllocAlign
  by_cases hrefused : size = 0 ∨ alignment = 0 ∨ alignment &&& (alignment - 1) ≠ 0
      ∨ alignment % 8 ≠ 0 ∨ sizeMax - alignment < size
  · left
    rw [if_pos hrefused]
    refine ⟨?_, rfl⟩
    rintro ⟨⟨hsize, halignment, hpow, hmod, hle⟩, -⟩
    obtain h | h | h | h | h := hrefused
    · apply hsize h
    · apply halignment h
    · apply h hpow
    · apply h hmod
    · omega
  · rw [if_neg hrefused]
    push Not at hrefused
    obtain ⟨hsize, halignment, hpow, hmod, hle⟩ := hrefused
    cases hblock : memAlloc answer (size + alignment) with
    | none =>
        left
        refine ⟨?_, rfl⟩
        rintro ⟨⟨-, -, -, -, hmax⟩, hanswer⟩
        unfold memAlloc at hblock
        rw [if_neg (by omega), if_neg hanswer] at hblock
        split at hblock <;> cases hblock
    | some b =>
        right
        obtain ⟨hanswer, -, -, hmax⟩ := memAlloc_some hblock
        exact ⟨⟨⟨hsize, halignment, hpow, hmod, hmax⟩, hanswer⟩, b, rfl, rfl⟩

/-- The payload of an aligned allocation that took a block. -/
def alignedPayload (alignment size : Nat) (b : KernelBlock) : Payload :=
  ⟨alignUp (b.base + mngSize) alignment, size, alignment, b⟩

theorem placed_aligned (hblock : memAlloc answer (size + alignment) = some b)
    (haccepts : Accepts alignment size) (haddressed : b.base + b.size ≤ addresses) :
  (alignedPayload alignment size b).Placed
  := by
  obtain ⟨hsize, halignment, -⟩ := haccepts
  obtain ⟨-, -, hblocksize, -⟩ := memAlloc_some hblock
  obtain ⟨hge, hlt⟩ :=
    alignUp_bounds (p := b.base + mngSize) (Nat.pos_of_ne_zero halignment)
  constructor
  · apply Nat.pos_of_ne_zero hsize
  · apply hge
  · show alignUp (b.base + mngSize) alignment + size ≤ b.base + b.size
    omega
  · apply dvd_alignUp _ _
  · apply haddressed

/-- A distance that fits is kept, and the header is before the payload. -/
theorem given_aligned (hblock : memAlloc answer (size + alignment) = some b)
    (haccepts : Accepts alignment size) (haddressed : b.base + b.size ≤ addresses)
    (hnear : padding b.base alignment < 4294967296) :
  Given k (alignedPayload alignment size b)
    ⟨storeHeader k.mem (b.base + padding b.base alignment) b.allocator.type
        (padding b.base alignment), b :: k.blocks⟩
  := by
  have hplaced := placed_aligned hblock haccepts haddressed
  have hheader :
      (alignedPayload alignment size b).ptr - mngSize = b.base + padding b.base alignment := by
    have hbase := hplaced.base
    unfold alignedPayload padding at *
    dsimp only at *
    omega
  constructor
  · apply hplaced
  · unfold Payload.Marked
    rw [hheader]
    show _ ∧ _ = b.base + padding b.base alignment - b.base
    rw [Nat.add_sub_cancel_left]
    apply load32_storeHeader _ _ b.allocator.type_lt hnear
  · rfl
  · intro a ha
    apply storeHeader_of_not_has
    intro hhas
    apply ha (hhas.within _)
    have hwithin := hplaced.header_within
    unfold Payload.header at hwithin
    rw [hheader] at hwithin
    apply hwithin

/-- An aligned allocation whose distance has more than 32 bits cannot be freed. -/
theorem not_sound_far {k' : Kernel} {blocks : List KernelBlock}
    (hplaced : (alignedPayload alignment size b).Placed) (hblocks : k'.blocks = b :: blocks)
    (hfar : 4294967296 ≤ padding b.base alignment) :
  ¬(s.take alignment size (alignUp (b.base + mngSize) alignment, k')).Sound
  := by
  intro hsound
  have htake : s.take alignment size (alignUp (b.base + mngSize) alignment, k')
      = ⟨k', alignedPayload alignment size b :: s.live⟩ :=
    State.take_placed hplaced hblocks
  rw [htake] at hsound
  have hbase := hplaced.base
  have hroom := hplaced.room
  have hpos := hplaced.pos
  have haddressed := hplaced.addressed
  apply not_osalMemFree_far _ _ (hsound.frees _ List.mem_cons_self)
  · unfold alignedPayload padding at *
    dsimp only at *
    omega
  · omega

/-! ### Runs -/

/-- An aligned allocation that is accepted and gets a block pads it by less than `2 ^ 32` bytes. -/
def Act.Near : Act → Prop
  | .allocAlign alignment size answer =>
      Accepts alignment size ∧ answer ≠ 0 → padding answer alignment < 4294967296
  | _ => True

theorem State.Inv.alloc (h : s.Inv) (hallowed : s.Allowed (.alloc size answer)) :
  (s.next (.alloc size answer)).Inv
  := by
  unfold State.next
  dsimp only
  unfold State.Allowed State.next at hallowed
  simp only [State.take_kernel] at hallowed
  unfold osalMemAlloc at hallowed ⊢
  split
  · rw [State.take_null]
    apply h
  · next hsize =>
      rw [if_neg hsize] at hallowed
      cases hblock : memAlloc answer size with
      | none =>
          dsimp only
          rw [State.take_null]
          apply h
      | some b =>
          rw [hblock] at hallowed
          have hfree := hallowed b rfl
          apply h.take_given hfree (given_plain hblock hsize hfree.1)

theorem State.Inv.calloc (h : s.Inv) (hallowed : s.Allowed (.calloc size answer)) :
  (s.next (.calloc size answer)).Inv
  := by
  unfold State.next
  dsimp only
  unfold State.Allowed State.next at hallowed
  simp only [State.take_kernel] at hallowed
  unfold osalMemCalloc osalMemAlloc at hallowed ⊢
  split
  · rw [State.take_null]
    apply h
  · next hsize =>
      rw [if_neg hsize, if_neg hsize] at hallowed
      cases hblock : memAlloc answer size with
      | none =>
          dsimp only
          rw [if_neg (fun hne => hne rfl), State.take_null]
          apply h
      | some b =>
          rw [hblock] at hallowed
          have hptr : b.base + mngSize ≠ 0 := Nat.succ_ne_zero _
          dsimp only at hallowed ⊢
          rw [if_pos hptr] at hallowed ⊢
          have hfree := hallowed b rfl
          apply h.take_given hfree ((given_plain hblock hsize hfree.1).memset 0)

/-- An aligned allocation keeps what is claimed exactly if its distance fits. -/
theorem State.Inv.allocAlign (h : s.Inv)
    (hallowed : s.Allowed (.allocAlign alignment size answer)) :
  (Act.Near (.allocAlign alignment size answer)
      → (s.next (.allocAlign alignment size answer)).Inv)
    ∧ ((s.next (.allocAlign alignment size answer)).Sound
      → Act.Near (.allocAlign alignment size answer))
  := by
  unfold State.next Act.Near
  dsimp only
  unfold State.Allowed State.next at hallowed
  simp only [State.take_kernel] at hallowed
  obtain ⟨hno, hresult⟩ | ⟨haccepts, b, hblock, hresult⟩ :=
    osalMemAllocAlign_cases s.kernel answer alignment size
  · rw [hresult, State.take_null]
    exact ⟨fun _ => h, fun _ hyes => absurd hyes hno⟩
  · rw [hresult] at hallowed ⊢
    have hfree := hallowed b rfl
    obtain ⟨hanswer, rfl, hblocksize, -⟩ := memAlloc_some hblock
    have hptr : alignedPtr (b.base + mngSize) alignment = alignUp (b.base + mngSize) alignment := by
      apply alignedPtr_eq haccepts.1.2.1 haccepts.1.2.2.1
      have haddressed := hfree.1
      omega
    have hplaced := placed_aligned hblock haccepts.1 hfree.1
    rw [hptr]
    constructor
    · intro hnear
      have hoffset : u32 ((alignUp (b.base + mngSize) alignment : Int) - (b.base + mngSize : Nat))
          = padding b.base alignment :=
        u32_diff hplaced.base (hnear haccepts)
      rw [hoffset]
      apply h.take_given hfree (given_aligned hblock haccepts.1 hfree.1 (hnear haccepts))
    · intro hsound _
      by_contra hfar
      apply not_sound_far hplaced rfl (Nat.not_lt.mp hfar) hsound

/-- What a call keeps. -/
theorem State.Inv.next_iff {a : Act} (h : s.Inv) (hallowed : s.Allowed a) :
  (a.Near → (s.next a).Inv) ∧ ((s.next a).Sound → a.Near)
  := by
  cases a with
  | alloc size answer => exact ⟨fun _ => h.alloc hallowed, fun _ => trivial⟩
  | calloc size answer => exact ⟨fun _ => h.calloc hallowed, fun _ => trivial⟩
  | allocAlign alignment size answer => exact h.allocAlign hallowed
  | free ptr => exact ⟨fun _ => h.free hallowed, fun _ => trivial⟩
  | write mem => exact ⟨fun _ => h.write hallowed, fun _ => trivial⟩

/-- Before the first call. -/
def State.start (mem : Memory) : State := ⟨⟨mem, []⟩, []⟩

theorem inv_start (mem : Memory) :
  (State.start mem).Inv
  where
  placed _ hp := nomatch hp
  marked _ hp := nomatch hp
  apart := .nil
  blocks := rfl

/-- Payloads, headers and blocks fit together over all calls exactly if no aligned allocation pads
its block by `2 ^ 32` bytes or more. -/
theorem osalMem_roundTrip_iff (mem : Memory) (acts : List Act)
    (hallowed : Along State.next State.Allowed (State.start mem) acts) :
  Along State.next (fun s a => (s.next a).Sound) (State.start mem) acts
    ↔ Along State.next (fun _ a => a.Near) (State.start mem) acts
  := by
  apply along_allowed_iff _ _ (inv_start mem) hallowed
  · intro s a h ha
    exact ⟨(h.next_iff ha).2, fun hnear => ((h.next_iff ha).1 hnear).sound⟩
  · intro s a h ha hnear
    exact (h.next_iff ha).1 hnear

/-- A page-aligned allocation that is freed again. -/
theorem osalMem_roundTrip_iff_page :
  Along State.next (fun s a => (s.next a).Sound) (State.start fun _ => 0)
    [.allocAlign 4096 100 65536, .free 69632]
  := by
  apply (osalMem_roundTrip_iff (fun _ => 0) [.allocAlign 4096 100 65536, .free 69632] _).mpr
  · exact ⟨fun _ => by decide +kernel, trivial, trivial⟩
  · refine ⟨?_, ⟨⟨69632, 100, 4096, ⟨.kmalloc, 65536, 4204⟩⟩, ?_, rfl⟩, trivial⟩
    · intro b hb
      obtain rfl : ⟨.kmalloc, 65536, 4204⟩ = b := (List.cons.inj hb).1
      exact ⟨by decide, fun _ hb' => nomatch hb'⟩
    · apply List.mem_singleton.mpr rfl

/-- Aligned to `2 ^ 33` bytes, the payload is not before its header. -/
theorem osalMem_not_roundTrip :
  ¬∀ (mem : Memory) (acts : List Act),
    Along State.next State.Allowed (State.start mem) acts
      → Along State.next (fun s a => (s.next a).Sound) (State.start mem) acts
  := by
  intro h
  have hallowed : Along State.next State.Allowed (State.start fun _ => 0)
      [.allocAlign 8589934592 1 0xffffc90000000000] := by
    refine ⟨?_, trivial⟩
    intro b hb
    obtain rfl : ⟨.vmalloc, 0xffffc90000000000, 8589934601⟩ = b := (List.cons.inj hb).1
    exact ⟨by decide, fun _ hb' => nomatch hb'⟩
  have hfrees := (h (fun _ => 0) _ hallowed).1.frees
    ⟨0xffffc90200000000, 1, 8589934592, ⟨.vmalloc, 0xffffc90000000000, 8589934601⟩⟩
    (List.mem_singleton.mpr rfl)
  exact absurd hfrees (by decide +kernel)

end Osal
