import KhdfLinux.Lib.Loops
import KhdfLinux.Lib.Machine
import KhdfLinux.Lib.Memory
import KhdfLinux.Uart.Handle
import Mathlib.Data.List.Nodup
import Mathlib.Data.List.Perm.Subperm
import Mathlib.Data.Nat.Find

/-!
# The transfers of a UART host

`UartAdapterRead` asks for one byte after the other and counts what it asked for, whether it came or
not; `UartAdapterWrite` reduces what `vfs_write` reports to a success or a failure.  `transfers_iff`
tells for which behaviour of the port they account for what was transferred.
-/

namespace Uart.Transfer

open Exec

/-- What a read of one byte reports: the byte, no byte, or an error. -/
inductive VfsRead where
  | byte (value : UInt8)
  | nothing
  | error (code : Nat)
  deriving DecidableEq, Repr

namespace VfsRead

/-- The result of the read: one, zero, or a negative number. -/
def ret : VfsRead → Int
  | byte _ => 1
  | nothing => 0
  | error code => Int.negSucc code

/-- The byte that came. -/
def value? : VfsRead → Option UInt8
  | byte value => some value
  | _ => none

end VfsRead

/-- The memory, with the places where the port stored bytes and the number of reads that were
made. -/
structure Port where
  memory : Memory
  stored : List Nat
  made : Nat

/-- The port after a read into a place. -/
def Port.after (s : Port) (p : Nat) : VfsRead → Port
  | .byte value => ⟨fun a => if a = p then value else s.memory a, s.stored ++ [p], s.made + 1⟩
  | _ => ⟨s.memory, s.stored, s.made + 1⟩

/-- `vfs_read` of one byte into a place. -/
def vfsRead (reads : Nat → VfsRead) (p : Nat) : Exec Port Int := fun s =>
  .ok (reads s.made).ret (s.after p (reads s.made))

/-- A turn of the loop of `UartAdapterRead`, with the value of `tmp`. -/
def readTurn (reads : Nat → VfsRead) (data : Nat) (size tmp : UInt32) :
    Exec Port (UInt32 ⊕ Int) := do
  if tmp ≤ size then
    let ret ← vfsRead reads (data + tmp.toNat)
    if ret < 0 then
      return .inr (s32 tmp.toNat)
    return .inl (tmp + 1)
  else
    return .inr (s32 tmp.toNat)

/-- `UartAdapterRead`, for a number of turns of its loop. -/
def uartAdapterRead (reads : Nat → VfsRead) (host : Bool) (data : Nat) (size : UInt32)
    (turns : Nat) : Exec Port (Option Int) :=
  if ¬host then pure (some Hdf.errInvalidObject)
  else if data = 0 ∨ size = 0 then pure (some Hdf.errInvalidParam)
  else iterate (readTurn reads data size) turns 0

/-- `UartAdapterWrite`, with the result of `vfs_write`, which is kept as an `int`. -/
def uartAdapterWrite (host : Bool) (data : Nat) (size : UInt32) (vfsWrite : Int) : Int :=
  if ¬host then Hdf.errInvalidObject
  else if data = 0 ∨ size = 0 then Hdf.errInvalidParam
  else if s32 vfsWrite < 0 then Hdf.failure
  else Hdf.success

/-- The parameters of a transfer are refused. -/
def Refused (host : Bool) (data : Nat) (size : UInt32) : Prop := ¬host ∨ data = 0 ∨ size = 0

/-- The bytes that came with the first reads. -/
def received (reads : Nat → VfsRead) (n : Nat) : List UInt8 :=
  (List.range n).filterMap fun i => (reads i).value?

/-- The bytes were stored in the buffer only, are as many as is returned, and are its first bytes in
their order. -/
structure Counted (reads : Nat → VfsRead) (data : Nat) (size : UInt32) (ret : Int) (s : Port) :
    Prop where
  inside : ∀ p ∈ s.stored, (Region.mk data size.toNat).Has p
  count : ret = (received reads s.made).length
  order : Memory.bytes s.memory data ret.toNat = received reads s.made

/-- A read ends, and accounts for the bytes that came, or is refused without one. -/
def ReadAccounted (reads : Nat → VfsRead) (host : Bool) (data : Nat) (size : UInt32) : Prop :=
  ∀ memory, ∃ turns ret s,
    (uartAdapterRead reads host data size turns).run ⟨memory, [], 0⟩ = .ok (some ret) s
      ∧ (Refused host data size → ret < 0 ∧ s.stored = [] ∧ s.made = 0)
      ∧ (¬Refused host data size → Counted reads data size ret s)

/-- A write that reports success has been accepted as a whole. -/
def WriteAccounted (host : Bool) (data : Nat) (size : UInt32) (vfsWrite : Int) : Prop :=
  uartAdapterWrite host data size vfsWrite = Hdf.success → vfsWrite = size.toNat

/-- The read with this number is the first that fails. -/
def FailsAt (reads : Nat → VfsRead) (k : Nat) : Prop :=
  (∀ i < k, 0 ≤ (reads i).ret) ∧ (reads k).ret < 0

/-- The reads deliver a byte each until one fails, before the buffer is full. -/
def Plain (reads : Nat → VfsRead) (size : UInt32) : Prop :=
  ∃ k, FailsAt reads k ∧ k ≤ size.toNat ∧ k < 2147483648 ∧ ∀ i < k, ((reads i).value?).isSome

/-- The bytes that came with the first reads are as many as the counter tells, which wraps, and each
of them came, or one like it, when the counter stood at its place. -/
structure Agrees (reads : Nat → VfsRead) (k : Nat) : Prop where
  count : (received reads k).length = k % 4294967296
  place : ∀ j < k % 4294967296, ∃ i < k, i % 4294967296 = j
    ∧ (reads i).value? = (received reads k)[j]?

/-- The size is the largest, and a read fails after the counter wrapped, when it agrees with the
bytes that came. -/
def Wrapped (reads : Nat → VfsRead) (size : UInt32) : Prop :=
  size.toNat = 4294967295 ∧ ∃ k, FailsAt reads k ∧ 4294967296 ≤ k
    ∧ k % 4294967296 < 2147483648 ∧ Agrees reads k

section Read

variable {reads : Nat → VfsRead} {data : Nat} {size : UInt32} {s : Port} {i k n a : Nat}

/-! ### The bytes that came -/

/-- One more read. -/
theorem received_succ (reads : Nat → VfsRead) (n : Nat) :
  received reads (n + 1) = received reads n ++ ((reads n).value?).toList
  := by
  unfold received
  rw [List.range_succ, List.filterMap_append]
  cases h : (reads n).value? with
  | none => simp [h]
  | some value => simp [h]

/-- At most as many bytes come as reads are made. -/
theorem length_received_le (reads : Nat → VfsRead) (n : Nat) :
  (received reads n).length ≤ n
  := Nat.le_trans (List.length_filterMap_le _ _) (Nat.le_of_eq List.length_range)

/-- As many bytes come as reads are made exactly if each brings one. -/
theorem length_received_iff (reads : Nat → VfsRead) (n : Nat) :
  (received reads n).length = n ↔ ∀ i < n, ((reads i).value?).isSome
  := by
  induction n with
  | zero => exact ⟨fun _ i hi => absurd hi (Nat.not_lt_zero i), fun _ => rfl⟩
  | succ n ih =>
      have hle := length_received_le reads n
      rw [received_succ, List.length_append]
      constructor
      · intro hlen i hi
        cases hn : (reads n).value? with
        | none =>
            rw [hn] at hlen
            exact absurd hlen (show (received reads n).length + 0 ≠ n + 1 by omega)
        | some value =>
            rw [hn] at hlen
            obtain hlt | rfl := Nat.lt_succ_iff_lt_or_eq.mp hi
            · apply ih.mp (Nat.succ.inj hlen) i hlt
            · rw [hn]
              rfl
      · intro hall
        obtain ⟨value, hn⟩ := Option.isSome_iff_exists.mp (hall n (Nat.lt_succ_self n))
        rw [ih.mpr fun i hi => hall i (Nat.lt_succ_of_lt hi), hn]
        rfl

/-! ### The turns of the loop -/

/-- The port after the first reads, which start from a memory. -/
def portAt (reads : Nat → VfsRead) (data : Nat) (memory : Memory) : Nat → Port
  | 0 => ⟨memory, [], 0⟩
  | n + 1 => (portAt reads data memory n).after (data + n % 4294967296) (reads n)

variable {memory : Memory}

/-- The counter after some turns. -/
def tmpAt (n : Nat) : UInt32 := UInt32.ofNat n

theorem tmpAt_toNat (n : Nat) :
  (tmpAt n).toNat = n % 4294967296
  := UInt32.toNat_ofNat

/-- Each turn makes a read. -/
theorem portAt_made (n : Nat) :
  (portAt reads data memory n).made = n
  := by
  induction n with
  | zero => rfl
  | succ n ih =>
      unfold portAt Port.after
      split <;> exact congrArg (· + 1) ih

/-- The next read. -/
theorem vfsRead_run (n : Nat) :
  (vfsRead reads (data + (tmpAt n).toNat)).run (portAt reads data memory n)
    = .ok (reads n).ret (portAt reads data memory (n + 1))
  := by
  rw [tmpAt_toNat]
  show EStateM.Result.ok (reads (portAt reads data memory n).made).ret
    ((portAt reads data memory n).after _ (reads (portAt reads data memory n).made)) = _
  rw [portAt_made]
  rfl

/-- A turn within the size whose read does not fail goes on. -/
theorem readTurn_next (hsize : n % 4294967296 ≤ size.toNat) (h : 0 ≤ (reads n).ret) :
  (readTurn reads data size (tmpAt n)).run (portAt reads data memory n)
    = .ok (.inl (tmpAt (n + 1))) (portAt reads data memory (n + 1))
  := by
  have hle : tmpAt n ≤ size := UInt32.le_iff_toNat_le.mpr ((tmpAt_toNat n).symm ▸ hsize)
  have hnext : tmpAt n + 1 = tmpAt (n + 1) := (UInt32.ofNat_add n 1).symm
  unfold readTurn
  rw [if_pos hle, EStateM.run_bind, vfsRead_run, ← hnext]
  dsimp only
  rw [if_neg (Int.not_lt.mpr h)]
  rfl

/-- A turn within the size whose read fails ends the loop. -/
theorem readTurn_failed (hsize : n % 4294967296 ≤ size.toNat) (h : (reads n).ret < 0) :
  (readTurn reads data size (tmpAt n)).run (portAt reads data memory n)
    = .ok (.inr (s32 (n % 4294967296 : Nat))) (portAt reads data memory (n + 1))
  := by
  have hle : tmpAt n ≤ size := UInt32.le_iff_toNat_le.mpr ((tmpAt_toNat n).symm ▸ hsize)
  unfold readTurn
  rw [if_pos hle, EStateM.run_bind, vfsRead_run, tmpAt_toNat]
  dsimp only
  rw [if_pos h]
  rfl

/-- A turn above the size ends the loop. -/
theorem readTurn_above (hsize : size.toNat < n % 4294967296) :
  (readTurn reads data size (tmpAt n)).run (portAt reads data memory n)
    = .ok (.inr (s32 (n % 4294967296 : Nat))) (portAt reads data memory n)
  := by
  have hnot : ¬tmpAt n ≤ size := fun hle =>
    absurd (UInt32.le_iff_toNat_le.mp hle) (by rw [tmpAt_toNat]; exact Nat.not_le.mpr hsize)
  unfold readTurn
  rw [if_neg hnot, tmpAt_toNat]
  rfl

/-! ### The whole loop -/

/-- The loop, once the parameters are accepted. -/
theorem uartAdapterRead_eq {host : Bool} (h : ¬Refused host data size) (turns : Nat) :
  uartAdapterRead reads host data size turns = iterate (readTurn reads data size) turns (tmpAt 0)
  := by
  unfold Refused at h
  rw [not_or] at h
  exact (if_neg h.1).trans (if_neg h.2)

/-- Turns within the size go on as long as the reads do not fail. -/
theorem turns_next (h : ∀ i < n, 0 ≤ (reads i).ret)
  (hsize : ∀ i < n, i % 4294967296 ≤ size.toNat) :
  ∀ i < n, (readTurn reads data size (tmpAt i)).run (portAt reads data memory i)
    = .ok (.inl (tmpAt (i + 1))) (portAt reads data memory (i + 1))
  := fun i hi => readTurn_next (hsize i hi) (h i hi)

/-- The loop ends with the first read that fails. -/
theorem loop_failed (data : Nat) (memory : Memory) (h : FailsAt reads k)
  (hsize : ∀ i ≤ k, i % 4294967296 ≤ size.toNat) :
  (iterate (readTurn reads data size) (k + 1) (tmpAt 0)).run (portAt reads data memory 0)
    = .ok (some (s32 (k % 4294967296 : Nat))) (portAt reads data memory (k + 1))
  := by
  rw [iterate_turns (turns_next h.1 fun i hi => hsize i (Nat.le_of_lt hi))]
  exact iterate_end (readTurn_failed (hsize k (Nat.le_refl k)) h.2)

/-- The loop ends after one read more than the size where none fails. -/
theorem loop_above (data : Nat) (memory : Memory) (h : ∀ i ≤ size.toNat, 0 ≤ (reads i).ret)
  (hsize : size.toNat < 4294967295) :
  (iterate (readTurn reads data size) (size.toNat + 1 + 1) (tmpAt 0)).run
      (portAt reads data memory 0)
    = .ok (some (s32 (size.toNat + 1 : Nat))) (portAt reads data memory (size.toNat + 1))
  := by
  have hmod : (size.toNat + 1) % 4294967296 = size.toNat + 1 := Nat.mod_eq_of_lt (by omega)
  rw [iterate_turns (turns_next (fun i hi => h i (Nat.le_of_lt_succ hi)) fun i hi => ?_)]
  · have habove : (readTurn reads data size (tmpAt (size.toNat + 1))).run
          (portAt reads data memory (size.toNat + 1))
        = .ok (.inr (s32 ((size.toNat + 1) % 4294967296 : Nat)))
          (portAt reads data memory (size.toNat + 1)) := readTurn_above (by omega)
    rw [hmod] at habove
    exact iterate_end habove
  · have hlt : i < size.toNat + 1 := hi
    omega

/-- With the largest size, the loop goes on until a read fails. -/
theorem loop_unended (data : Nat) (memory : Memory) (h : ∀ i, 0 ≤ (reads i).ret)
  (hsize : size.toNat = 4294967295) (turns : Nat) :
  (iterate (readTurn reads data size) turns (tmpAt 0)).run (portAt reads data memory 0)
    = .ok none (portAt reads data memory turns)
  := iterate_unended (turns_next (fun i _ => h i) fun i _ => by omega)

/-! ### Where the bytes are -/

/-- A read without a byte leaves the memory. -/
theorem portAt_none (data : Nat) (memory : Memory) (h : (reads n).value? = none) :
  portAt reads data memory (n + 1)
    = ⟨(portAt reads data memory n).memory, (portAt reads data memory n).stored, n + 1⟩
  := by
  have hafter (s : Port) (p : Nat) :
      s.after p (reads n) = ⟨s.memory, s.stored, s.made + 1⟩ := by
    cases hn : reads n with
    | byte value =>
        rw [hn] at h
        cases h
    | nothing => rfl
    | error code => rfl
  rw [portAt, hafter, portAt_made]

/-- A read with a byte stores it. -/
theorem portAt_some {value : UInt8} (data : Nat) (memory : Memory)
  (h : (reads n).value? = some value) :
  portAt reads data memory (n + 1)
    = ⟨fun a => if a = data + n % 4294967296 then value
        else (portAt reads data memory n).memory a,
      (portAt reads data memory n).stored ++ [data + n % 4294967296], n + 1⟩
  := by
  have hn : reads n = .byte value := by
    cases hn : reads n with
    | byte value' =>
        rw [hn] at h
        exact congrArg VfsRead.byte (Option.some.inj h)
    | nothing =>
        rw [hn] at h
        cases h
    | error code =>
        rw [hn] at h
        cases h
  rw [portAt, hn, Port.after, portAt_made]

/-- A read that fails brings no byte. -/
theorem value_failed (h : (reads k).ret < 0) :
  (reads k).value? = none
  := by
  cases hk : reads k with
  | byte value =>
      rw [hk] at h
      cases h
  | nothing => rfl
  | error code => rfl

theorem received_failed (h : (reads k).ret < 0) :
  received reads (k + 1) = received reads k
  := by
  rw [received_succ, value_failed h]
  exact List.append_nil _

/-- A byte is stored where the counter stood when it came. -/
theorem mem_stored_iff {p : Nat} (n : Nat) :
  p ∈ (portAt reads data memory n).stored
    ↔ ∃ i < n, ((reads i).value?).isSome ∧ p = data + i % 4294967296
  := by
  induction n with
  | zero =>
      exact ⟨fun h => absurd h List.not_mem_nil, fun ⟨i, hi, _⟩ => absurd hi i.not_lt_zero⟩
  | succ n ih =>
      have hsplit : (∃ i < n + 1, ((reads i).value?).isSome ∧ p = data + i % 4294967296)
          ↔ (∃ i < n, ((reads i).value?).isSome ∧ p = data + i % 4294967296)
            ∨ (((reads n).value?).isSome ∧ p = data + n % 4294967296) := by
        constructor
        · rintro ⟨i, hi, hbyte⟩
          obtain hlt | rfl := Nat.lt_succ_iff_lt_or_eq.mp hi
          · exact .inl ⟨i, hlt, hbyte⟩
          · exact .inr hbyte
        · rintro (⟨i, hi, hbyte⟩ | hbyte)
          · exact ⟨i, Nat.lt_succ_of_lt hi, hbyte⟩
          · exact ⟨n, Nat.lt_succ_self n, hbyte⟩
      rw [hsplit, ← ih]
      cases hn : (reads n).value? with
      | none => simp [portAt_none data memory hn]
      | some value => simp [portAt_some data memory hn]

/-- The memory holds a byte that came when the counter stood at its place, or what it held. -/
theorem portAt_memory (reads : Nat → VfsRead) (data : Nat) (memory : Memory) (n a : Nat) :
  (∃ i < n, data + i % 4294967296 = a
      ∧ (reads i).value? = some ((portAt reads data memory n).memory a))
    ∨ (∀ i < n, data + i % 4294967296 = a → (reads i).value? = none)
      ∧ (portAt reads data memory n).memory a = memory a
  := by
  induction n with
  | zero => exact .inr ⟨fun i hi => absurd hi i.not_lt_zero, rfl⟩
  | succ n ih =>
      have hkept (h : (portAt reads data memory (n + 1)).memory a
            = (portAt reads data memory n).memory a)
          (hn : data + n % 4294967296 = a → (reads n).value? = none) :
          (∃ i < n + 1, data + i % 4294967296 = a
            ∧ (reads i).value? = some ((portAt reads data memory (n + 1)).memory a))
          ∨ (∀ i < n + 1, data + i % 4294967296 = a → (reads i).value? = none)
            ∧ (portAt reads data memory (n + 1)).memory a = memory a := by
        rw [h]
        refine ih.imp (fun ⟨i, hi, hbyte⟩ => ⟨i, Nat.lt_succ_of_lt hi, hbyte⟩) ?_
        rintro ⟨hnone, hsame⟩
        refine ⟨fun i hi => ?_, hsame⟩
        obtain hlt | rfl := Nat.lt_succ_iff_lt_or_eq.mp hi
        · exact hnone i hlt
        · exact hn
      cases hn : (reads n).value? with
      | none =>
          apply hkept
          · rw [portAt_none data memory hn]
          · exact fun _ => hn
      | some value =>
          by_cases ha : data + n % 4294967296 = a
          · left
            use n, Nat.lt_succ_self n, ha
            rw [portAt_some data memory hn, hn]
            exact congrArg some (if_pos ha.symm).symm
          · apply hkept
            · rw [portAt_some data memory hn]
              exact if_neg (Ne.symm ha)
            · exact fun h => absurd h ha

/-! ### Where the counter agrees with the bytes -/

/-- The reads that brought a byte. -/
def positions (reads : Nat → VfsRead) (n : Nat) : List Nat :=
  (List.range n).filter fun i => ((reads i).value?).isSome

theorem mem_positions_iff :
  i ∈ positions reads n ↔ i < n ∧ ((reads i).value?).isSome
  := by
  unfold positions
  rw [List.mem_filter, List.mem_range]

/-- As many reads brought a byte as bytes came. -/
theorem length_positions (reads : Nat → VfsRead) (n : Nat) :
  (positions reads n).length = (received reads n).length
  := by
  unfold positions received
  rw [List.length_filterMap_eq_countP, List.countP_eq_length_filter]

/-- Where the counter agrees with the bytes, each of its places is met once. -/
theorem Agrees.perm (h : Agrees reads k) :
  List.Perm (List.range (k % 4294967296)) ((positions reads k).map (· % 4294967296))
  := by
  apply List.Subperm.perm_of_length_le
  · apply List.subperm_of_subset List.nodup_range
    intro j hj
    have hlt := List.mem_range.mp hj
    obtain ⟨i, hi, hmod, hvalue⟩ := h.place j hlt
    apply List.mem_map.mpr
    refine ⟨i, mem_positions_iff.mpr ⟨hi, ?_⟩, hmod⟩
    rw [hvalue, List.getElem?_eq_getElem (h.count ▸ hlt)]
    rfl
  · rw [List.length_map, length_positions, h.count, List.length_range]

/-- The places where bytes came are those up to the counter. -/
theorem Agrees.lt (h : Agrees reads k) (hi : i < k) (hbyte : ((reads i).value?).isSome) :
  i % 4294967296 < k % 4294967296
  := by
  apply List.mem_range.mp
  rw [h.perm.mem_iff]
  exact List.mem_map_of_mem (mem_positions_iff.mpr ⟨hi, hbyte⟩)

/-- Two bytes do not come at one place. -/
theorem Agrees.inj (h : Agrees reads k) {i' : Nat} (hi : i < k)
  (hbyte : ((reads i).value?).isSome) (hi' : i' < k) (hbyte' : ((reads i').value?).isSome)
  (hmod : i % 4294967296 = i' % 4294967296) :
  i = i'
  := by
  have hnodup := h.perm.nodup_iff.mp List.nodup_range
  exact List.inj_on_of_nodup_map hnodup (mem_positions_iff.mpr ⟨hi, hbyte⟩)
    (mem_positions_iff.mpr ⟨hi', hbyte'⟩) hmod

/-- Where the counter agrees with the bytes, the memory holds them in their order. -/
theorem Agrees.order (h : Agrees reads k) (memory : Memory) :
  Memory.bytes (portAt reads data memory k).memory data (k % 4294967296) = received reads k
  := by
  apply List.ext_getElem?
  intro j
  by_cases hj : j < k % 4294967296
  · obtain ⟨i, hi, hmod, hvalue⟩ := h.place j hj
    obtain ⟨value, hreceived⟩ : ∃ value, (received reads k)[j]? = some value :=
      ⟨_, List.getElem?_eq_getElem (h.count ▸ hj)⟩
    have hsome : ((reads i).value?).isSome := by
      rw [hvalue, hreceived]
      rfl
    have hbytes : (Memory.bytes (portAt reads data memory k).memory data (k % 4294967296))[j]?
        = some ((portAt reads data memory k).memory (data + j)) := by
      unfold Memory.bytes
      rw [List.getElem?_map, List.getElem?_range hj]
      rfl
    rw [hbytes]
    obtain ⟨i', hi', hplace, hvalue'⟩ | ⟨hnone, -⟩ :=
      portAt_memory reads data memory k (data + j)
    · have hmod' : i' % 4294967296 = j := Nat.add_left_cancel hplace
      obtain rfl : i = i' := h.inj hi hsome hi' (by rw [hvalue']; rfl) (hmod.trans hmod'.symm)
      rw [← hvalue', hvalue]
    · rw [hnone i hi (hmod ▸ rfl)] at hsome
      cases hsome
  · have hlen : (Memory.bytes (portAt reads data memory k).memory data
        (k % 4294967296)).length = k % 4294967296 := by
      unfold Memory.bytes
      rw [List.length_map, List.length_range]
    rw [List.getElem?_eq_none (by rw [hlen]; exact Nat.le_of_not_lt hj),
      List.getElem?_eq_none (by rw [h.count]; exact Nat.le_of_not_lt hj)]

/-- Where the memory holds the bytes in their order, whatever it held, the counter agrees with
them. -/
theorem agrees_of_order (data : Nat) (hcount : (received reads k).length = k % 4294967296)
  (horder : ∀ memory, Memory.bytes (portAt reads data memory k).memory data (k % 4294967296)
    = received reads k) :
  Agrees reads k
  := by
  refine ⟨hcount, fun j hj => ?_⟩
  obtain ⟨value, hvalue⟩ : ∃ value, (received reads k)[j]? = some value :=
    ⟨_, List.getElem?_eq_getElem (hcount ▸ hj)⟩
  -- a memory that holds another byte shows that one came
  have hbytes := congrArg (·[j]?) (horder fun _ => value + 1)
  have hmemory : (portAt reads data (fun _ => value + 1) k).memory (data + j) = value := by
    unfold Memory.bytes at hbytes
    rw [hvalue, List.getElem?_map, List.getElem?_range hj] at hbytes
    exact Option.some.inj hbytes
  obtain ⟨i, hi, hplace, hbyte⟩ | ⟨-, hsame⟩ :=
    portAt_memory reads data (fun _ => value + 1) k (data + j)
  · refine ⟨i, hi, Nat.add_left_cancel hplace, ?_⟩
    rw [hbyte, hmemory, hvalue]
  · have hne : value ≠ value + 1 := by simp
    exact absurd (hmemory.symm.trans hsame) hne

/-- Where each read brings a byte, they are those that came. -/
theorem received_getElem? {j : Nat} (hall : ∀ i < n, ((reads i).value?).isSome) (hj : j < n) :
  (received reads n)[j]? = (reads j).value?
  := by
  induction n with
  | zero => exact absurd hj (Nat.not_lt_zero j)
  | succ n ih =>
      have hinit : ∀ i < n, ((reads i).value?).isSome := fun i hi => hall i (Nat.lt_succ_of_lt hi)
      have hlen := (length_received_iff reads n).mpr hinit
      obtain ⟨value, hn⟩ := Option.isSome_iff_exists.mp (hall n (Nat.lt_succ_self n))
      rw [received_succ, hn]
      obtain hlt | rfl := Nat.lt_succ_iff_lt_or_eq.mp hj
      · rw [List.getElem?_append_left (hlen.symm ▸ hlt)]
        exact ih hinit hlt
      · rw [List.getElem?_append_right (Nat.le_of_eq hlen), hlen, Nat.sub_self, hn]
        rfl

/-- Before the counter wraps, it agrees with the bytes exactly if each read brings one. -/
theorem agrees_iff (hk : k < 4294967296) :
  Agrees reads k ↔ ∀ i < k, ((reads i).value?).isSome
  := by
  have hmod : k % 4294967296 = k := Nat.mod_eq_of_lt hk
  constructor
  · intro h
    exact (length_received_iff reads k).mp (h.count.trans hmod)
  · intro hall
    refine ⟨((length_received_iff reads k).mpr hall).trans hmod.symm, fun j hj => ?_⟩
    rw [hmod] at hj
    refine ⟨j, hj, Nat.mod_eq_of_lt (Nat.lt_trans hj hk), ?_⟩
    exact (received_getElem? hall hj).symm

/-- The reads end in time, and the counter agrees with the bytes. -/
def Settled (reads : Nat → VfsRead) (size : UInt32) : Prop :=
  ∃ k, FailsAt reads k ∧ (k ≤ size.toNat ∨ size.toNat = 4294967295) ∧ k % 4294967296 < 2147483648
    ∧ Agrees reads k

theorem settled_iff :
  Settled reads size ↔ Plain reads size ∨ Wrapped reads size
  := by
  have hsize := size.toNat_lt
  constructor
  · rintro ⟨k, hfails, hwithin, hsign, hagrees⟩
    by_cases hk : k < 4294967296
    · have hmod : k % 4294967296 = k := Nat.mod_eq_of_lt hk
      exact .inl ⟨k, hfails, by omega, by omega, (agrees_iff hk).mp hagrees⟩
    · exact .inr ⟨by omega, k, hfails, Nat.le_of_not_lt hk, hsign, hagrees⟩
  · rintro (⟨k, hfails, hle, hsign, hall⟩ | ⟨hmax, k, hfails, -, hsign, hagrees⟩)
    · exact ⟨k, hfails, .inl hle, by omega, (agrees_iff (by omega)).mpr hall⟩
    · exact ⟨k, hfails, .inr hmax, hsign, hagrees⟩

/-! ### The accounts -/

/-- A read that fails in time, where the counter agrees with the bytes, accounts for them. -/
theorem Settled.counted (h : Settled reads size) (memory : Memory) :
  ∃ turns ret s,
    (iterate (readTurn reads data size) turns (tmpAt 0)).run ⟨memory, [], 0⟩ = .ok (some ret) s
      ∧ Counted reads data size ret s
  := by
  obtain ⟨k, hfails, hwithin, hsign, hagrees⟩ := h
  have hsize := size.toNat_lt
  have hrun := loop_failed data memory hfails
    (fun i hi => show i % 4294967296 ≤ size.toNat by omega)
  have hport := portAt_none data memory (value_failed hfails.2)
  have hreceived := received_failed hfails.2
  rw [s32_of_lt hsign, hport] at hrun
  refine ⟨k + 1, _, _, hrun, ?_, ?_, ?_⟩
  · intro p hp
    obtain ⟨i, hi, hbyte, rfl⟩ := (mem_stored_iff k).mp hp
    have hlt := hagrees.lt hi hbyte
    constructor
    · exact Nat.le_add_right data _
    · show data + i % 4294967296 < data + size.toNat
      omega
  · show ((k % 4294967296 : Nat) : Int) = (received reads (k + 1)).length
    rw [hreceived, hagrees.count]
  · show Memory.bytes _ data (k % 4294967296) = received reads (k + 1)
    rw [hreceived]
    exact hagrees.order memory

/-- A read that does not fail in time does not account for the bytes: it stores one behind the
buffer, or counts reads without one. -/
theorem not_counted_above (hsize : size.toNat < 4294967295) :
  ¬Counted reads data size (s32 (size.toNat + 1 : Nat))
    (portAt reads data memory (size.toNat + 1))
  := by
  intro h
  have hcount := h.count
  rw [portAt_made] at hcount
  have hsign : size.toNat + 1 < 2147483648 := by
    by_contra hge
    have hneg := s32_neg (Nat.le_of_not_lt hge) (show size.toNat + 1 < 4294967296 by omega)
    omega
  rw [s32_of_lt hsign] at hcount
  have hall := (length_received_iff reads (size.toNat + 1)).mp (Int.ofNat_inj.mp hcount).symm
  have hmod : size.toNat % 4294967296 = size.toNat := Nat.mod_eq_of_lt (by omega)
  have hstored : data + size.toNat ∈ (portAt reads data memory (size.toNat + 1)).stored := by
    apply (mem_stored_iff _).mpr
    exact ⟨size.toNat, Nat.lt_succ_self _, hall _ (Nat.lt_succ_self _), by rw [hmod]⟩
  exact absurd (h.inside _ hstored).2 (Nat.lt_irrefl _)

/-- A read accounts for the bytes, whatever the memory holds, only if the reads end in time and the
counter agrees with them. -/
theorem settled_of_counted
  (h : ∀ memory, ∃ turns ret s,
    (iterate (readTurn reads data size) turns (tmpAt 0)).run ⟨memory, [], 0⟩ = .ok (some ret) s
      ∧ Counted reads data size ret s) :
  Settled reads size
  := by
  have hlt := size.toNat_lt
  -- a loop that goes on after the size ends with too many reads, or not at all
  have habove (hnot : ∀ i ≤ size.toNat, 0 ≤ (reads i).ret) (hsize : size.toNat < 4294967295) :
      False := by
    obtain ⟨turns, ret, s, hrun, hcounted⟩ := h fun _ => 0
    obtain ⟨hret, hs⟩ := iterate_unique hrun (loop_above data (fun _ => 0) hnot hsize)
    rw [hret, hs] at hcounted
    exact not_counted_above hsize hcounted
  by_cases hfails : ∃ k, (reads k).ret < 0
  · obtain ⟨k, hk⟩ : ∃ k, FailsAt reads k :=
      ⟨Nat.find hfails, fun i hi => Int.not_lt.mp (Nat.find_min hfails hi), Nat.find_spec hfails⟩
    have hwithin : k ≤ size.toNat ∨ size.toNat = 4294967295 := by
      by_contra hout
      rw [not_or] at hout
      exact habove (fun i hi => hk.1 i (Nat.lt_of_le_of_lt hi (Nat.lt_of_not_le hout.1)))
        (by omega)
    have hcounted (memory : Memory) : Counted reads data size (s32 (k % 4294967296 : Nat))
        (portAt reads data memory (k + 1)) := by
      obtain ⟨turns, ret, s, hrun, hcounted⟩ := h memory
      obtain ⟨hret, hs⟩ := iterate_unique hrun
        (loop_failed data memory hk fun i hi => show i % 4294967296 ≤ size.toNat by omega)
      rw [hret, hs] at hcounted
      exact hcounted
    have hreceived := received_failed hk.2
    have hcount := (hcounted fun _ => 0).count
    rw [portAt_made, hreceived] at hcount
    have hsign : k % 4294967296 < 2147483648 := by
      by_contra hge
      have hneg := s32_neg (Nat.le_of_not_lt hge) (show k % 4294967296 < 4294967296 by omega)
      omega
    rw [s32_of_lt hsign] at hcount
    refine ⟨k, hk, hwithin, hsign, agrees_of_order data
      (Int.ofNat_inj.mp hcount).symm fun memory => ?_⟩
    have horder := (hcounted memory).order
    rw [s32_of_lt hsign, portAt_made, hreceived,
      portAt_none data memory (value_failed hk.2)] at horder
    exact horder
  · have hnever (i : Nat) : 0 ≤ (reads i).ret := Int.not_lt.mp fun hi => hfails ⟨i, hi⟩
    by_cases hsize : size.toNat < 4294967295
    · exact (habove (fun i _ => hnever i) hsize).elim
    · obtain ⟨turns, ret, s, hrun, -⟩ := h fun _ => 0
      have hunended := loop_unended data (fun _ => 0) hnever
        (show size.toNat = 4294967295 by omega) turns
      rw [portAt, hrun] at hunended
      cases hunended

variable {host : Bool}

/-- A call with refused parameters does nothing. -/
theorem uartAdapterRead_refused (h : Refused host data size) (turns : Nat) (s : Port) :
  ∃ ret, ret < 0 ∧ (uartAdapterRead reads host data size turns).run s = .ok (some ret) s
  := by
  unfold uartAdapterRead
  by_cases hhost : host
  · refine ⟨Hdf.errInvalidParam, by decide, ?_⟩
    rw [if_neg (not_not.mpr hhost), if_pos (h.resolve_left (not_not.mpr hhost))]
    rfl
  · refine ⟨Hdf.errInvalidObject, by decide, ?_⟩
    rw [if_pos hhost]
    rfl

/-- A read accounts for the bytes exactly if it is refused, or the reads of one byte end in time and
the counter agrees with them. -/
theorem read_accounted_iff :
  ReadAccounted reads host data size
    ↔ Refused host data size ∨ Plain reads size ∨ Wrapped reads size
  := by
  rw [← settled_iff]
  by_cases hrefused : Refused host data size
  · refine iff_of_true (fun memory => ?_) (.inl hrefused)
    obtain ⟨ret, hret, hrun⟩ := uartAdapterRead_refused hrefused 0 ⟨memory, [], 0⟩
    exact ⟨0, ret, _, hrun, fun _ => ⟨hret, rfl, rfl⟩, fun h => absurd hrefused h⟩
  · rw [or_iff_right hrefused]
    constructor
    · intro h
      apply settled_of_counted
      intro memory
      obtain ⟨turns, ret, s, hrun, -, hcounted⟩ := h memory
      rw [uartAdapterRead_eq hrefused] at hrun
      exact ⟨turns, ret, s, hrun, hcounted hrefused⟩
    · intro h memory
      obtain ⟨turns, ret, s, hrun, hcounted⟩ := h.counted memory
      rw [← uartAdapterRead_eq hrefused] at hrun
      exact ⟨turns, ret, s, hrun, fun hr => absurd hr hrefused, fun _ => hcounted⟩

/-- With the largest size, a read goes on for ever while the reads of one byte do not fail. -/
theorem uartAdapterRead_unended (hrefused : ¬Refused host data size)
  (h : ∀ i, 0 ≤ (reads i).ret) (hsize : size.toNat = 4294967295) (memory : Memory) (turns : Nat) :
  ∃ s, (uartAdapterRead reads host data size turns).run ⟨memory, [], 0⟩ = .ok none s
  := by
  rw [uartAdapterRead_eq hrefused]
  exact ⟨_, loop_unended data memory h hsize turns⟩

/-- A write accounts for the bytes exactly if it is refused, fails, or was accepted as a whole. -/
theorem write_accounted_iff {vfsWrite : Int} :
  WriteAccounted host data size vfsWrite
    ↔ Refused host data size ∨ s32 vfsWrite < 0 ∨ vfsWrite = size.toNat
  := by
  unfold WriteAccounted uartAdapterWrite Refused
  by_cases hhost : ¬host
  · rw [if_pos hhost]
    exact iff_of_true (fun h => absurd h (by decide)) (.inl (.inl hhost))
  by_cases hparam : data = 0 ∨ size = 0
  · rw [if_neg hhost, if_pos hparam]
    exact iff_of_true (fun h => absurd h (by decide)) (.inl (.inr hparam))
  rw [if_neg hhost, if_neg hparam, or_iff_right (not_or.mpr ⟨hhost, hparam⟩)]
  by_cases hneg : s32 vfsWrite < 0
  · rw [if_pos hneg]
    exact iff_of_true (fun h => absurd h (by decide)) (.inl hneg)
  · rw [if_neg hneg, or_iff_right hneg]
    exact ⟨fun h => h rfl, fun h _ => h⟩

/-! ### The file of the host -/

/-- The results of the first reads. -/
def results (reads : Nat → VfsRead) (n : Nat) : List Int :=
  (List.range n).map fun i => (reads i).ret

/-- The results before the first failure. -/
theorem length_takeWhile_results (h : ∀ i < k, 0 ≤ (reads i).ret)
  (hk : k < n → (reads k).ret < 0) (hle : k ≤ n) :
  ((results reads n).takeWhile (0 ≤ ·)).length = k
  := by
  obtain ⟨d, rfl⟩ := Nat.exists_eq_add_of_le hle
  have hbefore : ∀ ret ∈ (List.range k).map fun i => (reads i).ret, decide (0 ≤ ret) := by
    intro ret hret
    obtain ⟨i, hi, rfl⟩ := List.mem_map.mp hret
    exact decide_eq_true (h i (List.mem_range.mp hi))
  unfold results
  rw [List.range_add, List.map_append, List.takeWhile_append_of_pos hbefore, List.length_append,
    List.length_map, List.length_range]
  cases d with
  | zero => rfl
  | succ d =>
      rw [List.range_succ_eq_map, List.map_cons, List.map_cons, List.takeWhile_cons_of_neg]
      · rfl
      · exact fun hret => absurd (hk (by omega)) (Int.not_lt.mpr (of_decide_eq_true hret))

/-- The parameters are tested alike. -/
theorem param_iff :
  (¬decide (data ≠ 0) ∨ size.toBitVec = 0) ↔ data = 0 ∨ size = 0
  := by
  rw [decide_eq_true_iff, not_not]
  exact or_congr_right ⟨UInt32.toBitVec_inj.mp, fun h => congrArg UInt32.toBitVec h⟩

/-- A read returns what the calls on the file of the host count. -/
theorem uartAdapterRead_handle (handle : Handles) (hsize : size.toNat < 2147483647)
  (memory : Memory) :
  ∃ turns s, (uartAdapterRead reads true data size turns).run ⟨memory, [], 0⟩
    = .ok (some (Uart.uartAdapterRead handle (data ≠ 0) size.toBitVec
      (results reads (size.toNat + 1))).1) s
  := by
  unfold Uart.uartAdapterRead
  by_cases hparam : data = 0 ∨ size = 0
  · rw [if_pos (param_iff.mpr hparam)]
    refine ⟨0, ⟨memory, [], 0⟩, ?_⟩
    unfold uartAdapterRead
    rw [if_neg (not_not.mpr rfl), if_pos hparam]
    rfl
  · rw [if_neg fun h => hparam (param_iff.mp h)]
    have hrefused : ¬Refused true data size := not_or.mpr ⟨not_not.mpr rfl, hparam⟩
    have hlength : (results reads (size.toNat + 1)).length = size.toNat + 1 := by
      unfold results
      rw [List.length_map, List.length_range]
    have htake : (results reads (size.toNat + 1)).take (size.toBitVec.toNat + 1)
        = results reads (size.toNat + 1) := List.take_of_length_le (Nat.le_of_eq hlength)
    rw [htake]
    by_cases hfails : ∃ k, (reads k).ret < 0 ∧ k ≤ size.toNat
    · have hspec := Nat.find_spec hfails
      have hbefore : ∀ i < Nat.find hfails, 0 ≤ (reads i).ret := fun i hi =>
        Int.not_lt.mp fun hlt => Nat.find_min hfails hi ⟨hlt, by omega⟩
      have hrun := loop_failed data memory ⟨hbefore, hspec.1⟩
        (fun i hi => show i % 4294967296 ≤ size.toNat by omega)
      rw [Nat.mod_eq_of_lt (by omega), s32_of_lt (by omega)] at hrun
      rw [length_takeWhile_results hbefore (fun _ => hspec.1) (Nat.le_succ_of_le hspec.2)]
      rw [← uartAdapterRead_eq hrefused] at hrun
      exact ⟨_, _, hrun⟩
    · have hnever : ∀ i ≤ size.toNat, 0 ≤ (reads i).ret := fun i hi =>
        Int.not_lt.mp fun hlt => hfails ⟨i, hlt, hi⟩
      have hrun := loop_above data memory hnever (by omega)
      rw [s32_of_lt (by omega)] at hrun
      rw [length_takeWhile_results (fun i hi => hnever i (Nat.le_of_lt_succ hi))
        (fun hlt => absurd hlt (Nat.lt_irrefl _)) (Nat.le_refl _)]
      rw [← uartAdapterRead_eq hrefused] at hrun
      exact ⟨_, _, hrun⟩

/-- A write reports what the calls on the file of the host report. -/
theorem uartAdapterWrite_handle (handle : Handles) (vfsWrite : Int) :
  uartAdapterWrite true data size vfsWrite
    = (Uart.uartAdapterWrite handle (data ≠ 0) size.toBitVec (s32 vfsWrite)).1
  := by
  unfold uartAdapterWrite Uart.uartAdapterWrite
  rw [if_neg (not_not.mpr rfl)]
  by_cases hparam : data = 0 ∨ size = 0
  · rw [if_pos hparam, if_pos (param_iff.mpr hparam)]
  · rw [if_neg hparam, if_neg fun h => hparam (param_iff.mp h)]
    split <;> rfl

/-- The transfers account for what was transferred exactly for these behaviours of the port. -/
theorem transfers_iff (reads : Nat → VfsRead) (host : Bool) (data : Nat) (size : UInt32)
  (vfsWrite : Int) :
  (ReadAccounted reads host data size
    ↔ Refused host data size ∨ Plain reads size ∨ Wrapped reads size)
  ∧ (WriteAccounted host data size vfsWrite
    ↔ Refused host data size ∨ s32 vfsWrite < 0 ∨ vfsWrite = size.toNat)
  := ⟨read_accounted_iff, write_accounted_iff⟩

/-- A port that delivers a byte at each time. -/
def steady : Nat → VfsRead := fun _ => .byte 7

/-- A port that delivers one byte, then none, and then fails. -/
def faltering : Nat → VfsRead
  | 0 => .byte 7
  | 1 => .nothing
  | _ => .error 4

/-- Three bytes are stored in a buffer of two; one byte is counted as two; a read with the largest
size does not end; a write of four bytes of which one was accepted reports success. -/
theorem not_transfers :
  (∃ s, (uartAdapterRead steady true 4096 2 4).run ⟨fun _ => 0, [], 0⟩ = .ok (some 3) s
      ∧ s.stored = [4096, 4097, 4098])
    ∧ ¬ReadAccounted steady true 4096 2
    ∧ (∃ s, (uartAdapterRead faltering true 4096 2 3).run ⟨fun _ => 0, [], 0⟩ = .ok (some 2) s
      ∧ s.stored = [4096])
    ∧ ¬ReadAccounted faltering true 4096 2
    ∧ ¬ReadAccounted (fun _ => .nothing) true 4096 4294967295
    ∧ uartAdapterWrite true 4096 4 1 = Hdf.success ∧ ¬WriteAccounted true 4096 4 1
  := by
  have hnever (read : VfsRead) (hread : 0 ≤ read.ret) (size : UInt32) (hsize : size ≠ 0) :
      ¬ReadAccounted (fun _ => read) true 4096 size := by
    rw [read_accounted_iff]
    rintro ((h | h | h) | ⟨k, h, -⟩ | ⟨-, k, h, -⟩)
    · exact h rfl
    · exact absurd h (by decide)
    · exact hsize h
    · exact absurd h.2 (Int.not_lt.mpr hread)
    · exact absurd h.2 (Int.not_lt.mpr hread)
  have hfaltering : ¬ReadAccounted faltering true 4096 2 := by
    rw [read_accounted_iff]
    rintro ((h | h | h) | ⟨k, ⟨-, hfails⟩, -, -, hall⟩ | ⟨hmax, -⟩)
    · exact h rfl
    · exact absurd h (by decide)
    · exact absurd h (by decide)
    · match k with
      | 0 => exact absurd hfails (by decide)
      | 1 => exact absurd hfails (by decide)
      | k + 2 => exact absurd (hall 1 (by omega)) (by decide)
    · exact absurd hmax (by decide)
  have habove := @loop_above steady 2 4096 (fun _ => 0) (fun _ _ => Int.one_nonneg) (by decide)
  have hfailed := @loop_failed faltering 2 2 4096 (fun _ => 0) ⟨by decide, by decide⟩ (by decide)
  rw [show s32 ((2 : UInt32).toNat + 1 : Nat) = 3 by decide] at habove
  rw [show s32 (2 % 4294967296 : Nat) = 2 by decide] at hfailed
  refine ⟨⟨_, habove, rfl⟩, hnever _ (by decide) 2 (by decide), ⟨_, hfailed, rfl⟩, hfaltering,
    hnever _ (by decide) _ (by decide), by decide, fun h => ?_⟩
  exact absurd (h (by decide)) (by decide)

end Read

end Uart.Transfer
