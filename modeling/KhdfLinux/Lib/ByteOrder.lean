import KhdfLinux.Lib.Memory

/-!
# Words in a byte order

The bytes of a word, the order in which a host keeps them in memory, and the replacement of bytes of
a memory.
-/

/-- The order in which a host keeps the bytes of a word. -/
inductive ByteOrder where
  | little
  | big
  deriving DecidableEq, Repr

/-- The number whose digits to the base of 256 are the first bytes, the least one first. -/
def wordOf (f : Nat → UInt8) : Nat → Nat
  | 0 => 0
  | n + 1 => wordOf f n + (f n).toNat * 256 ^ n

/-- A digit of a number to the base of 256. -/
def byteOf (v k : Nat) : UInt8 := UInt8.ofNat (v / 256 ^ k)

section Words

variable {f g : Nat → UInt8} {n k : Nat}

theorem wordOf_lt (f : Nat → UInt8) (n : Nat) :
  wordOf f n < 256 ^ n
  := by
  induction n with
  | zero => exact Nat.one_pos
  | succ n ih =>
      have hbyte := (f n).toNat_lt
      calc wordOf f n + (f n).toNat * 256 ^ n
        _ < 256 ^ n + (f n).toNat * 256 ^ n := Nat.add_lt_add_right ih _
        _ = ((f n).toNat + 1) * 256 ^ n := by rw [Nat.add_one_mul, Nat.add_comm]
        _ ≤ 256 * 256 ^ n := Nat.mul_le_mul_right _ hbyte
        _ = 256 ^ (n + 1) := by rw [Nat.pow_succ, Nat.mul_comm]

/-- The digits of a word are its bytes. -/
theorem byteOf_wordOf (h : k < n) :
  byteOf (wordOf f n) k = f k
  := by
  induction n with
  | zero => exact absurd h (Nat.not_lt_zero k)
  | succ n ih =>
      unfold byteOf wordOf
      obtain hlt | rfl := Nat.lt_succ_iff_lt_or_eq.mp h
      · -- the last byte is a multiple of what a digit is taken by
        obtain ⟨d, rfl⟩ := Nat.exists_eq_add_of_lt hlt
        have hpow : 256 ^ (k + d + 1) = 256 ^ k * (256 * 256 ^ d) := by
          rw [Nat.add_assoc, Nat.pow_add, Nat.pow_succ, Nat.mul_comm (256 ^ d)]
        have hdiv : (wordOf f (k + d + 1) + (f (k + d + 1)).toNat * 256 ^ (k + d + 1)) / 256 ^ k
            = wordOf f (k + d + 1) / 256 ^ k + 256 * ((f (k + d + 1)).toNat * 256 ^ d) := by
          rw [hpow, Nat.mul_left_comm, Nat.add_mul_div_left _ _ (Nat.pow_pos (by decide)),
            Nat.mul_left_comm]
        rw [hdiv, ← ih hlt]
        unfold byteOf
        apply UInt8.toNat_inj.mp
        rw [UInt8.toNat_ofNat', UInt8.toNat_ofNat']
        exact Nat.add_mul_mod_self_left ..
      · rw [Nat.add_mul_div_right _ _ (Nat.pow_pos (by decide)),
          Nat.div_eq_of_lt (wordOf_lt f k), Nat.zero_add]
        exact UInt8.ofNat_toNat

end Words

namespace ByteOrder

variable {order : ByteOrder} {n k : Nat} {f : Nat → UInt8}

/-- Where a digit is kept in a word of `n` bytes, and which digit is kept in that place. -/
def place : ByteOrder → (n k : Nat) → Nat
  | little, _, k => k
  | big, n, k => n - 1 - k

theorem place_lt (h : k < n) :
  order.place n k < n
  := by
  cases order with
  | little => exact h
  | big =>
      show n - 1 - k < n
      omega

/-- The bytes are the same in this order as in that of their digits. -/
def Straight (order : ByteOrder) (f : Nat → UInt8) (n : Nat) : Prop :=
  ∀ k < n, f (order.place n k) = f k

theorem straight_little :
  Straight little f n
  := fun _ _ => rfl

instance (order : ByteOrder) (f : Nat → UInt8) (n : Nat) : Decidable (Straight order f n) := by
  unfold Straight
  infer_instance

end ByteOrder

namespace Memory

variable {m : Memory} {order : ByteOrder} {p n k v : Nat} {f g : Nat → UInt8}

/-- The bytes from `p` on. -/
def view (m : Memory) (p : Nat) : Nat → UInt8 := fun k => m (p + k)

/-- Replace the `n` bytes from `p` on. -/
def blit (m : Memory) (p n : Nat) (f : Nat → UInt8) : Memory := fun a =>
  if (Region.mk p n).Has a then f (a - p) else m a

/-- Store a word of `n` bytes in the order of the host. -/
def storeWord (m : Memory) (order : ByteOrder) (p n v : Nat) : Memory :=
  m.blit p n fun k => byteOf v (order.place n k)

/-- The word of `n` bytes in the order of the host. -/
def loadWord (m : Memory) (order : ByteOrder) (p n : Nat) : Nat :=
  wordOf (fun k => m.view p (order.place n k)) n

theorem blit_apply (h : k < n) :
  m.blit p n f (p + k) = f k
  := by
  unfold blit
  rw [if_pos ⟨Nat.le_add_right p k, Nat.add_lt_add_left h p⟩, Nat.add_sub_cancel_left]

/-- Replacements of the same bytes are the same exactly if they bring the same bytes. -/
theorem blit_eq_iff :
  m.blit p n f = m.blit p n g ↔ ∀ k < n, f k = g k
  := by
  constructor
  · intro h k hk
    rw [← blit_apply (m := m) (p := p) (f := f) hk, h, blit_apply hk]
  · intro h
    funext a
    unfold blit
    split
    · next ha => exact h _ (Nat.sub_lt_left_of_lt_add ha.1 ha.2)
    · rfl

/-- A longer replacement is the same as a shorter one exactly if it brings what is there. -/
theorem blit_eq_blit_iff {n' : Nat} (hn : n ≤ n') (h : ∀ k < n, f k = g k) :
  m.blit p n f = m.blit p n' g ↔ ∀ k, n ≤ k → k < n' → m (p + k) = g k
  := by
  have hkept {k : Nat} (hk : n ≤ k) : m.blit p n f (p + k) = m (p + k) :=
    if_neg fun hin => absurd hin.2 (Nat.not_lt.mpr (Nat.add_le_add_left hk p))
  constructor
  · intro heq k hk hk'
    rw [← hkept hk, heq, blit_apply hk']
  · intro hall
    funext a
    by_cases hin : (Region.mk p n').Has a
    · obtain ⟨k, rfl⟩ := Nat.exists_eq_add_of_le hin.1
      have hk' : k < n' := Nat.lt_of_add_lt_add_left hin.2
      rw [blit_apply hk']
      obtain hk | hk := Nat.lt_or_ge k n
      · rw [blit_apply hk, h k hk]
      · rw [hkept hk, hall k hk hk']
    · have hout : ¬(Region.mk p n).Has a := fun hlt =>
        hin ⟨hlt.1, Nat.lt_of_lt_of_le hlt.2 (Nat.add_le_add_left hn p)⟩
      exact (if_neg hout).trans (if_neg hin).symm

/-- Bytes that make a word are stored as they are exactly if they are straight. -/
theorem storeWord_eq_iff :
  m.storeWord order p n (wordOf f n) = m.blit p n f ↔ order.Straight f n
  := by
  unfold storeWord
  rw [blit_eq_iff]
  apply forall₂_congr
  intro k hk
  rw [byteOf_wordOf (ByteOrder.place_lt hk)]

end Memory
