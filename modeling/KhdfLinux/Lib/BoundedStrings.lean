import KhdfLinux.Lib.Names

/-!
# The bounds-checking string functions

`strncpy_s` and `strcat_s` on an object of bytes, with the violations of their constraints, and
`strncmp`.  A write outside the object is a fault.
-/

namespace Bytes

variable {σ : Type}

/-- The value of a difference of two sizes. -/
def sizeT (n : Int) : Nat := (n % 18446744073709551616).toNat

theorem sizeT_sub {n k : Nat} (hk : k ≤ n) (hn : n < 18446744073709551616) :
  sizeT (n - k) = n - k
  := by
  unfold sizeT
  omega

/-- `RSIZE_MAX`: the greatest size of an object that the functions accept. -/
structure RsizeMax where
  max : Nat
  lt : max < 18446744073709551616

namespace CString

/-- The character `p` points to: one of the string, or the zero byte that ends it. -/
def read (s : CString) (p : Nat) : Exec σ UInt8 :=
  if p ≤ s.bytes.length then pure (byteAt s.bytes p) else Exec.stop (.fault .outOfBounds)

/-- The string that starts where `p` points to. -/
def tail (s : CString) (p : Nat) : Exec σ Bytes :=
  if p ≤ s.bytes.length then pure (s.bytes.drop p) else Exec.stop (.fault .outOfBounds)

theorem read_eq {s : CString} {p : Nat} (hp : p ≤ s.bytes.length) :
  (s.read p : Exec σ UInt8) = pure (byteAt s.bytes p)
  := if_pos hp

theorem tail_eq {s : CString} {p : Nat} (hp : p ≤ s.bytes.length) :
  (s.tail p : Exec σ Bytes) = pure (s.bytes.drop p)
  := if_pos hp

/-- The zero byte is read at the end of the string, and only there. -/
theorem byteAt_eq_zero_iff {s : CString} {p : Nat} (hp : p ≤ s.bytes.length) :
  byteAt s.bytes p = 0 ↔ p = s.bytes.length
  := by
  obtain rfl | hlt := Nat.eq_or_lt_of_le hp
  · simp [byteAt]
  · have hget : byteAt s.bytes p = s.bytes[p] := List.getD_eq_getElem _ _ hlt
    have hne : byteAt s.bytes p ≠ 0 := by
      intro h0
      rw [hget] at h0
      apply s.zero
      rw [← h0]
      apply List.getElem_mem
    simp only [hne, Nat.ne_of_lt hlt]

end CString

/-- `strncmp`, on strings given by what is before the zero byte that ends them. -/
def strncmp : (n : Nat) → (s t : Bytes) → Int
  | 0, _, _ => 0
  | _ + 1, [], [] => 0
  | _ + 1, [], b :: _ => 0 - b.toNat
  | _ + 1, a :: _, [] => a.toNat
  | n + 1, a :: s, b :: t => if a = b then strncmp n s t else a.toNat - b.toNat

/-- To compare as many characters as a string has is to look for it at the start of the other. -/
theorem strncmp_eq_zero_iff {s t : Bytes} (ht : 0 ∉ t) :
  strncmp t.length s t = 0 ↔ t <+: s
  := by
  have toNat_inj {a b : UInt8} (h : a.toNat = b.toNat) : a = b := UInt8.toNat_inj.mp h
  induction t generalizing s with
  | nil => simp [strncmp]
  | cons b t ih =>
      rw [List.mem_cons, not_or] at ht
      obtain ⟨hb, ht⟩ := ht
      cases s with
      | nil =>
          have hne : b.toNat ≠ 0 := fun h => hb (toNat_inj h).symm
          simp only [List.length_cons, strncmp, List.prefix_nil, reduceCtorEq, iff_false]
          omega
      | cons a s =>
          simp only [List.length_cons, strncmp, List.cons_prefix_cons]
          by_cases hab : a = b
          · simp only [hab, if_true, true_and]
            apply ih ht
          · have hne : a.toNat ≠ b.toNat := fun h => hab (toNat_inj h)
            simp only [hab, Ne.symm hab, if_false, false_and, iff_false]
            omega

/-- Write bytes from position `p` of the object on. -/
def put (p : Nat) (bytes : Bytes) : Exec Bytes Unit := fun m =>
  if p + bytes.length ≤ m.length then
    .ok () (m.take p ++ bytes ++ m.drop (p + bytes.length))
  else .error (.fault .outOfBounds) m

/-- The length of the string at position `p` of the object, if it is less than `n`, and else `n`. -/
def strnlenS (p n : Nat) : Exec Bytes Nat := fun m =>
  let len := strnlen ((m.drop p).take n)
  if len < n ∧ m.length ≤ p + len then .error (.fault .outOfBounds) m else .ok len m

/-- What a violation of a constraint does: the string at `p` gets empty, if the size is one that the
functions accept. -/
def violation (limit : RsizeMax) (p destMax : Nat) : Exec Bytes Int := do
  if destMax ≠ 0 ∧ destMax ≤ limit.max then put p [0]
  pure 34

/-- The string in an array, as a function reads it that goes on to the zero byte. -/
def scan (m : Bytes) : Exec σ Bytes :=
  if 0 ∈ m then pure (cstr m) else Exec.stop (.fault .outOfBounds)

/-- `strcmp` is zero for what is in two arrays. -/
def strcmpEq : (s m : Bytes) → Exec σ Bool
  | a :: s, b :: m =>
      if a ≠ b then pure false
      else if a = 0 then pure true
      else strcmpEq s m
  | _, _ => Exec.stop (.fault .outOfBounds)

/-- What `sprintf_s` leaves in an object of `destMax` bytes: the text, if it fits with the zero byte
that ends it. -/
def sprintfS (destMax : Nat) (text : Bytes) : Option Bytes :=
  if text.length < destMax then some text else none

/-- `strncpy_s(&dest[p], destMax, src, n)`. -/
def strncpyS (limit : RsizeMax) (p destMax : Nat) (src : Bytes) (n : Nat) : Exec Bytes Int :=
  if destMax = 0 ∨ limit.max < destMax ∨ limit.max < n
    ∨ (destMax ≤ n ∧ destMax ≤ src.length)
  then violation limit p destMax
  else do
    put p (src.take n ++ [0])
    pure 0

/-- `strcat_s(&dest[p], destMax, src)`. -/
def strcatS (limit : RsizeMax) (p destMax : Nat) (src : Bytes) : Exec Bytes Int :=
  if destMax = 0 ∨ limit.max < destMax then violation limit p destMax
  else do
    let used ← strnlenS p destMax
    if destMax - used ≤ src.length then violation limit p destMax
    else do
      put (p + used) (src ++ [0])
      pure 0

variable {limit : RsizeMax}

/-- Bytes that follow what was written in an object that is zero behind it. -/
theorem run_put (out : Bytes) {bytes : Bytes} {k : Nat} (hk : bytes.length ≤ k) :
  (put out.length bytes).run (out ++ List.replicate k 0)
    = .ok () (out ++ bytes ++ List.replicate (k - bytes.length) 0)
  := by
  unfold put
  show (if _ then _ else _) = _
  rw [if_pos (by simp only [List.length_append, List.length_replicate]; omega)]
  rw [List.take_left, ← List.drop_drop, List.drop_left, List.drop_replicate]

/-- A copy of characters behind what was written in an object that is zero there. -/
theorem run_strncpyS
    (out : Bytes) {src : Bytes} {k n : Nat} (hn : n ≤ src.length) (hk : n < k)
    (hmax : k ≤ limit.max) :
  (strncpyS limit out.length k src n).run (out ++ List.replicate k 0)
    = .ok 0 (out ++ src.take n ++ List.replicate (k - n) 0)
  := by
  have hlen : (src.take n ++ [0]).length = n + 1 := by
    simp only [List.length_append, List.length_take, List.length_singleton]
    omega
  have hput := run_put out (Nat.le_trans (Nat.le_of_eq hlen) hk)
  unfold strncpyS
  rw [if_neg (by omega), EStateM.run_bind, hput]
  simp only [hlen]
  have hzero : [0] ++ List.replicate (k - (n + 1)) (0 : UInt8) = List.replicate (k - n) 0 := by
    rw [List.singleton_append, ← List.replicate_succ]
    congr 1
    omega
  rw [← hzero]
  simp only [List.append_assoc]
  rfl

/-- A string appended to the empty one behind what was written in an object that is zero there. -/
theorem run_strcatS
    (out : Bytes) {src : Bytes} {k : Nat} (hk : src.length < k) (hmax : k ≤ limit.max) :
  (strcatS limit out.length k src).run (out ++ List.replicate k 0)
    = .ok 0 (out ++ src ++ List.replicate (k - src.length) 0)
  := by
  have hused : (strnlenS out.length k).run (out ++ List.replicate k 0)
      = .ok 0 (out ++ List.replicate k 0) := by
    obtain ⟨j, rfl⟩ := Nat.exists_eq_succ_of_ne_zero (by omega : k ≠ 0)
    have hlen : strnlen (((out ++ List.replicate (j + 1) 0).drop out.length).take (j + 1)) = 0 := by
      rw [List.drop_left]
      simp [strnlen, List.replicate_succ, List.findIdx_cons]
    unfold strnlenS
    show (if _ then _ else _) = _
    rw [hlen, if_neg (by simp)]
  have hlen : (src ++ [0]).length ≤ k := by
    rw [List.length_append]
    apply hk
  have hput := run_put out hlen
  unfold strcatS
  rw [if_neg (by omega), EStateM.run_bind, hused]
  show EStateM.run (if k - 0 ≤ src.length then _ else _) _ = _
  rw [if_neg (by omega), EStateM.run_bind, Nat.add_zero, hput]
  have hzero : [0] ++ List.replicate (k - (src ++ [0]).length) (0 : UInt8)
      = List.replicate (k - src.length) 0 := by
    rw [List.singleton_append, ← List.replicate_succ]
    simp only [List.length_append, List.length_singleton]
    congr 1
    omega
  rw [← hzero]
  simp only [List.append_assoc]
  rfl

theorem cstr_of_not_mem {m : Bytes} (h : 0 ∉ m) :
  cstr m = m
  := by
  rw [← List.append_nil m, cstr_append h]
  rfl

theorem cstr_cons {b : UInt8} (hb : b ≠ 0) (m : Bytes) :
  cstr (b :: m) = b :: cstr m
  := List.takeWhile_cons_of_pos (decide_eq_true hb)

/-- A zero byte ends the string. -/
theorem cstr_append_zero {s : Bytes} (hs : 0 ∉ s) (rest : Bytes) :
  cstr (s ++ 0 :: rest) = s
  := by
  rw [cstr_append hs]
  exact List.append_nil s

/-- The string in the first bytes of an array, if zero bytes follow. -/
theorem cstr_take (m : Bytes) (n k : Nat) :
  cstr (m.take n ++ List.replicate k 0) = (cstr m).take n
  := by
  have htake : (cstr m).take n = cstr (m.take n) := List.take_takeWhile
  rw [htake]
  by_cases h : 0 ∈ m.take n
  · obtain ⟨s, rest, hsplit, hs⟩ := List.eq_append_cons_of_mem h
    rw [hsplit, List.append_assoc, List.cons_append, cstr_append_zero hs, cstr_append_zero hs]
  · rw [cstr_append h, cstr_replicate, List.append_nil, cstr_of_not_mem h]

/-- A string that is shorter than the array is compared to what is in the array without a scan
beyond it, whether the array has a zero byte or not. -/
theorem strcmpEq_eq {s m : Bytes} (hs : 0 ∉ s) (hlen : s.length < m.length) :
  (strcmpEq (terminate s) m : Exec σ Bool) = pure (decide (s = cstr m))
  := by
  induction s generalizing m with
  | nil =>
      cases m with
      | nil => cases hlen
      | cons b m =>
          show (if 0 ≠ b then pure false else if (0 : UInt8) = 0 then pure true else _) = _
          by_cases hb : 0 = b
          · subst hb
            rfl
          · have hne : ¬[] = cstr (b :: m) := by
              rw [cstr_cons (Ne.symm hb)]
              exact (List.cons_ne_nil b _).symm
            rw [if_pos hb, decide_eq_false hne]
  | cons a s ih =>
      cases m with
      | nil => cases hlen
      | cons b m =>
          obtain ⟨ha, hs⟩ := not_or.mp (List.mem_cons.not.mp hs)
          show (if a ≠ b then pure false else if a = 0 then pure true
            else strcmpEq (terminate s) m) = _
          by_cases hb : a = b
          · subst hb
            rw [if_neg (not_not.mpr rfl), if_neg (Ne.symm ha), ih hs (Nat.lt_of_succ_lt_succ hlen),
              cstr_cons (Ne.symm ha)]
            simp only [List.cons.injEq, true_and]
          · have hne : ¬a :: s = cstr (b :: m) := by
              intro heq
              by_cases hzero : b = 0
              · subst hzero
                cases heq
              · rw [cstr_cons hzero] at heq
                apply hb (List.head_eq_of_cons_eq heq)
            rw [if_pos hb, decide_eq_false hne]

end Bytes
