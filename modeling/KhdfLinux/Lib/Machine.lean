import Mathlib.Tactic.Common

/-!
# Machine integers

The values an integer takes when it is stored in an unsigned or a signed machine word:
`u8`, `u16`, `u32` and `s32`.  A value that fits is left alone.
-/

/-- The value of `n` in an unsigned word of 8 bits. -/
def u8 (n : Int) : Nat := (n % 256).toNat

/-- The value of `n` in an unsigned word of 16 bits. -/
def u16 (n : Int) : Nat := (n % 65536).toNat

/-- The value of `n` in an unsigned word of 32 bits. -/
def u32 (n : Int) : Nat := (n % 4294967296).toNat

/-- The value of `n` in a signed word of 32 bits. -/
def s32 (n : Int) : Int := Int.bmod n 4294967296

theorem u8_lt (n : Int) :
  u8 n < 256
  := by
  unfold u8
  omega

theorem u32_lt (n : Int) :
  u32 n < 4294967296
  := by
  unfold u32
  omega

theorem u8_of_lt {n : Nat} (h : n < 256) :
  u8 n = n
  := by
  unfold u8
  omega

theorem u16_of_lt {n : Nat} (h : n < 65536) :
  u16 n = n
  := by
  unfold u16
  omega

theorem u32_of_lt {n : Nat} (h : n < 4294967296) :
  u32 n = n
  := by
  unfold u32
  omega

/-- A subtraction that does not pass below zero is exact. -/
theorem u32_sub {n k : Nat} (hk : k ≤ n) (hn : n < 4294967296) :
  u32 ((n : Int) - k) = n - k
  := by
  unfold u32
  omega

/-- A signed word holds what an unsigned word holds. -/
theorem u32_s32 (n : Int) :
  u32 (s32 n) = u32 n
  := congrArg Int.toNat Int.bmod_emod

/-- A difference that fits. -/
theorem u32_diff {n k : Nat} (hk : k ≤ n) (hn : n - k < 4294967296) :
  u32 ((n : Int) - k) = n - k
  := by
  unfold u32
  omega

theorem s32_of_lt {n : Nat} (h : n < 2147483648) :
  s32 n = n
  := by
  unfold s32
  apply Int.bmod_eq_of_le
  · omega
  · omega

/-- A value of 31 bits and more is negative. -/
theorem s32_neg {n : Nat} (hle : 2147483648 ≤ n) (hlt : n < 4294967296) :
  s32 n < 0
  := by
  unfold s32
  rw [Int.bmod_def]
  split <;> omega

theorem s32_sub {n k : Nat} (hk : k ≤ n) (hn : n < 2147483648) :
  s32 ((n : Int) - k) = (n - k : Nat)
  := by
  rw [show (n : Int) - k = (n - k : Nat) by omega]
  apply s32_of_lt
  omega

/-- The number of bytes left over gives the number of bytes taken. -/
theorem s32_taken {len k : Nat} (hk : k ≤ len) (hlen : len < 2147483648) :
  s32 ((len : Int) - (len - k : Nat)) = (k : Nat)
  := by
  rw [s32_sub (Nat.sub_le len k) hlen]
  omega
