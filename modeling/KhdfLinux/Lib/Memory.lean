import Mathlib.Algebra.Ring.Nat
import Mathlib.Data.List.Pairwise
import Mathlib.Tactic.Common

/-!
# Memory

A memory of bytes with regions: stores of words of 32 bits and what they leave, regions that are
apart, copies, and the next address with an alignment.
-/

/-- The region of `size` bytes at `base`. -/
structure Region where
  base : Nat
  size : Nat
  deriving DecidableEq, Repr

namespace Region

/-- The address is in the region. -/
def Has (r : Region) (a : Nat) : Prop := r.base ≤ a ∧ a < r.base + r.size

instance (r : Region) (a : Nat) : Decidable (r.Has a) := by
  unfold Has
  infer_instance

/-- One of the regions ends before the other. -/
def Apart (r s : Region) : Prop := r.base + r.size ≤ s.base ∨ s.base + s.size ≤ r.base

instance (r s : Region) : Decidable (r.Apart s) := by
  unfold Apart
  infer_instance

/-- The region lies in another one. -/
def Within (r s : Region) : Prop := s.base ≤ r.base ∧ r.base + r.size ≤ s.base + s.size

variable {r r' s s' : Region} {a : Nat}

theorem Apart.symm (h : r.Apart s) :
  s.Apart r
  := Or.symm h

/-- What lies in regions that are apart is apart. -/
theorem Apart.within (h : r.Apart s) (hr : r'.Within r) (hs : s'.Within s) :
  r'.Apart s'
  := by
  unfold Apart Within at *
  omega

theorem Apart.not_has (h : r.Apart s) (ha : r.Has a) :
  ¬s.Has a
  := by
  unfold Apart Has at *
  omega

theorem Has.within (ha : r.Has a) (h : r.Within s) :
  s.Has a
  := by
  unfold Has Within at *
  omega

end Region

/-- The contents of the memory. -/
abbrev Memory := Nat → UInt8

namespace Memory

/-- The two memories agree on the region. -/
def AgreeOn (r : Region) (m m' : Memory) : Prop := ∀ a, r.Has a → m' a = m a

/-- The little-endian word of 32 bits at `p`. -/
def load32 (m : Memory) (p : Nat) : Nat :=
  (m p).toNat + 256 * (m (p + 1)).toNat + 65536 * (m (p + 2)).toNat
    + 16777216 * (m (p + 3)).toNat

/-- Store a word of 32 bits at `p`. -/
def store32 (m : Memory) (p v : Nat) : Memory := fun a =>
  if a = p then UInt8.ofNat v
  else if a = p + 1 then UInt8.ofNat (v / 256)
  else if a = p + 2 then UInt8.ofNat (v / 65536)
  else if a = p + 3 then UInt8.ofNat (v / 16777216)
  else m a

/-- Copy `n` bytes from `src` to `dst`. -/
def copy (m : Memory) (dst src n : Nat) : Memory := fun a =>
  if (Region.mk dst n).Has a then m (src + (a - dst)) else m a

/-- The `n` bytes from `p` on. -/
def bytes (m : Memory) (p n : Nat) : List UInt8 := (List.range n).map fun i => m (p + i)

variable {m m' : Memory} {p q v a dst src n k : Nat}

theorem load32_lt (m : Memory) (p : Nat) :
  load32 m p < 4294967296
  := by
  have h0 := (m p).toNat_lt
  have h1 := (m (p + 1)).toNat_lt
  have h2 := (m (p + 2)).toNat_lt
  have h3 := (m (p + 3)).toNat_lt
  unfold load32
  omega

/-- A word that was stored is read back. -/
theorem load32_store32 (m : Memory) (p : Nat) (hv : v < 4294967296) :
  load32 (store32 m p v) p = v
  := by
  have h1 : store32 m p v (p + 1) = UInt8.ofNat (v / 256) := by
    unfold store32
    rw [if_neg (by omega), if_pos rfl]
  have h2 : store32 m p v (p + 2) = UInt8.ofNat (v / 65536) := by
    unfold store32
    rw [if_neg (by omega), if_neg (by omega), if_pos rfl]
  have h3 : store32 m p v (p + 3) = UInt8.ofNat (v / 16777216) := by
    unfold store32
    rw [if_neg (by omega), if_neg (by omega), if_neg (by omega), if_pos rfl]
  have h0 : store32 m p v p = UInt8.ofNat v := if_pos rfl
  unfold load32
  rw [h0, h1, h2, h3, UInt8.toNat_ofNat', UInt8.toNat_ofNat', UInt8.toNat_ofNat',
    UInt8.toNat_ofNat']
  omega

/-- A store leaves what is not stored to. -/
theorem store32_of_not_has (h : ¬(Region.mk p 4).Has a) :
  store32 m p v a = m a
  := by
  unfold Region.Has at h
  dsimp only at h
  unfold store32
  rw [if_neg (by omega), if_neg (by omega), if_neg (by omega), if_neg (by omega)]

/-- A word is read from its bytes. -/
theorem load32_congr (h : AgreeOn ⟨p, 4⟩ m m') :
  load32 m' p = load32 m p
  := by
  have hbyte : ∀ k < 4, m' (p + k) = m (p + k) := by
    intro k hk
    apply h
    unfold Region.Has
    dsimp only
    omega
  unfold load32
  rw [hbyte 1 (by decide), hbyte 2 (by decide), hbyte 3 (by decide)]
  rw [show m' p = m p from hbyte 0 (by decide)]

/-- A store to one place leaves the word in another. -/
theorem load32_store32_of_apart (h : (Region.mk p 4).Apart ⟨q, 4⟩) :
  load32 (store32 m p v) q = load32 m q
  := load32_congr fun _ ha => store32_of_not_has (h.symm.not_has ha)

/-! ### Copies -/

theorem copy_apply (hk : k < n) :
  m.copy dst src n (dst + k) = m (src + k)
  := by
  unfold copy
  rw [if_pos ⟨Nat.le_add_right _ _, Nat.add_lt_add_left hk _⟩, Nat.add_sub_cancel_left]

/-- A copy leaves what is apart from its destination. -/
theorem copy_agree {r : Region} (h : (Region.mk dst n).Apart r) :
  AgreeOn r m (m.copy dst src n)
  := fun _ ha => if_neg (h.symm.not_has ha)

theorem bytes_congr (h : AgreeOn ⟨p, n⟩ m m') :
  m'.bytes p n = m.bytes p n
  := by
  apply List.map_congr_left
  intro i hi
  exact h _ ⟨Nat.le_add_right _ _, Nat.add_lt_add_left (List.mem_range.mp hi) _⟩

/-- The bytes at the destination are those that were at the source. -/
theorem bytes_copy :
  (m.copy dst src n).bytes dst n = m.bytes src n
  := List.map_congr_left fun _ hi => copy_apply (List.mem_range.mp hi)

theorem bytes_add (m : Memory) (p n k : Nat) :
  m.bytes p (n + k) = m.bytes p n ++ m.bytes (p + n) k
  := by
  unfold bytes
  rw [List.range_add, List.map_append, List.map_map]
  apply congrArg
  apply List.map_congr_left
  intro i _
  exact congrArg m (Nat.add_assoc p n i).symm

end Memory

/-! ### Alignment -/

/-- The first multiple of `alignment` from `p` on. -/
def alignUp (p alignment : Nat) : Nat := (p + alignment - 1) / alignment * alignment

section Align

variable {p alignment : Nat}

theorem dvd_alignUp (p alignment : Nat) :
  alignment ∣ alignUp p alignment
  := Nat.dvd_mul_left _ _

theorem alignUp_bounds (h : 0 < alignment) :
  p ≤ alignUp p alignment ∧ alignUp p alignment < p + alignment
  := by
  unfold alignUp
  have hdiv := Nat.div_add_mod (p + alignment - 1) alignment
  have hmod := Nat.mod_lt (p + alignment - 1) h
  rw [Nat.mul_comm]
  omega

/-- To clear the bits below a power of two is to round down to a multiple of it. -/
theorem and_not_eq {w k n : Nat} (hk : k ≤ w) (hn : n < 2 ^ w) :
  n &&& (2 ^ w - 1 - (2 ^ k - 1)) = n / 2 ^ k * 2 ^ k
  := by
  apply Nat.eq_of_testBit_eq
  intro i
  have hlt : 2 ^ k - 1 < 2 ^ w :=
    Nat.lt_of_lt_of_le (Nat.sub_lt (Nat.two_pow_pos k) Nat.one_pos)
      (Nat.pow_le_pow_right (by decide) hk)
  rw [Nat.testBit_and, Nat.sub_sub, Nat.add_comm 1, Nat.testBit_two_pow_sub_succ hlt,
    Nat.testBit_two_pow_sub_one, Nat.testBit_mul_two_pow]
  by_cases hi : k ≤ i
  · rw [Nat.testBit_div_two_pow, Nat.sub_add_cancel hi]
    by_cases hw : i < w
    · simp [hi, hw, Nat.not_lt.mpr hi]
    · have hzero : n.testBit i = false :=
        Nat.testBit_lt_two_pow (Nat.lt_of_lt_of_le hn
          (Nat.pow_le_pow_right (by decide) (Nat.not_lt.mp hw)))
      simp [hzero]
  · simp [hi, Nat.not_le.mp hi]

end Align
