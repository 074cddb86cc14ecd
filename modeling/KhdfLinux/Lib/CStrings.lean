import KhdfLinux.Lib.Bytes

/-!
# Terminated strings

The strings of a byte string that end with a zero byte, one after the other, and where
they start.
-/

namespace Bytes

/-- The number of bytes before the first zero byte of `m`, and the length of `m` if there is
none. -/
def strnlen (m : Bytes) : Nat := m.findIdx (· = 0)

/-- A string with the zero byte that ends it. -/
def terminate (s : Bytes) : Bytes := s ++ [0]

@[simp]
theorem length_terminate (s : Bytes) :
  (terminate s).length = s.length + 1
  := by
  simp [terminate]

theorem strnlen_le (m : Bytes) :
  strnlen m ≤ m.length
  := List.findIdx_le_length

theorem strnlen_terminate_append {s : Bytes} (hs : 0 ∉ s) (rest : Bytes) :
  strnlen (terminate s ++ rest) = s.length
  := by
  unfold strnlen terminate
  rw [List.append_assoc, List.findIdx_append, List.findIdx_eq_length_of_false]
  · simp [List.findIdx_cons]
  · intro x hx
    simp only [decide_eq_false_iff_not]
    rintro rfl
    apply hs hx

/-- A byte string with a zero byte starts with a terminated string. -/
theorem eq_terminate_append {m : Bytes} (h : strnlen m < m.length) :
  0 ∉ m.take (strnlen m) ∧ m = terminate (m.take (strnlen m)) ++ m.drop (strnlen m + 1)
  := by
  constructor
  · intro h0
    obtain ⟨i, hi, hget⟩ := List.mem_take_iff_getElem.mp h0
    have hlt : i < strnlen m := by omega
    have hne := List.not_of_lt_findIdx hlt
    simp [hget] at hne
  · have hget : m[strnlen m] = 0 := of_decide_eq_true (List.findIdx_getElem (w := h))
    have hdrop := List.drop_eq_getElem_cons h
    rw [hget] at hdrop
    conv_lhs => rw [← List.take_append_drop (strnlen m) m, hdrop]
    simp [terminate]

/-- Take `n` terminated strings off the front. -/
def takeStrings : Nat → Bytes → Option (List Bytes × Bytes)
  | 0, m => some ([], m)
  | n + 1, m =>
      if strnlen m = m.length then none
      else (takeStrings n (m.drop (strnlen m + 1))).map fun r => (m.take (strnlen m) :: r.1, r.2)

theorem takeStrings_eq_some {n : Nat} {m rest : Bytes} {strs : List Bytes} :
  takeStrings n m = some (strs, rest)
    ↔ strs.length = n ∧ (∀ s ∈ strs, 0 ∉ s) ∧ m = strs.flatMap terminate ++ rest
  := by
  induction n generalizing m strs with
  | zero =>
      constructor
      · intro h
        cases h
        simp
      · rintro ⟨hlength, -, rfl⟩
        rw [List.length_eq_zero_iff.mp hlength]
        rfl
  | succ n ih =>
      constructor
      · intro h
        rw [takeStrings] at h
        split_ifs at h with hend
        obtain ⟨⟨strs', rest'⟩, htake, heq⟩ := Option.map_eq_some_iff.mp h
        cases heq
        obtain ⟨hlength, hstrs, hm⟩ := ih.mp htake
        obtain ⟨hzero, hsplit⟩ := eq_terminate_append (Nat.lt_of_le_of_ne (strnlen_le m) hend)
        refine ⟨by simp [hlength], List.forall_mem_cons.mpr ⟨hzero, hstrs⟩, ?_⟩
        rw [List.flatMap_cons, List.append_assoc, ← hm]
        apply hsplit
      · rintro ⟨hlength, hstrs, rfl⟩
        cases strs with
        | nil => cases hlength
        | cons s strs =>
            obtain ⟨hs, hstrs⟩ := List.forall_mem_cons.mp hstrs
            have hlen : strnlen (terminate s ++ (strs.flatMap terminate ++ rest)) = s.length :=
              strnlen_terminate_append hs _
            have hn : strs.length = n := by simpa using hlength
            rw [takeStrings, List.flatMap_cons, List.append_assoc, hlen, if_neg (by simp; omega)]
            have hdrop : (terminate s ++ (strs.flatMap terminate ++ rest)).drop (s.length + 1)
                = strs.flatMap terminate ++ rest := by
              rw [← length_terminate, List.drop_left]
            have htake : (terminate s ++ (strs.flatMap terminate ++ rest)).take s.length = s := by
              simp [terminate]
            rw [hdrop, htake, ih.mpr ⟨hn, hstrs, rfl⟩]
            rfl

theorem length_le_length_flatMap (strs : List Bytes) :
  strs.length ≤ (strs.flatMap terminate).length
  := by
  induction strs with
  | nil => simp
  | cons s strs ih =>
      simp only [List.flatMap_cons, List.length_append, length_terminate, List.length_cons]
      omega

/-- There are no more strings than bytes. -/
theorem le_length_of_takeStrings
    {n : Nat} {m rest : Bytes} {strs : List Bytes} (h : takeStrings n m = some (strs, rest)) :
  n ≤ m.length
  := by
  obtain ⟨rfl, -, rfl⟩ := takeStrings_eq_some.mp h
  have hle := length_le_length_flatMap strs
  rw [List.length_append]
  omega

/-- Where the strings start, if the first starts at `d`. -/
def starts : Nat → List Bytes → List Nat
  | _, [] => []
  | d, s :: strs => d :: starts (d + (s.length + 1)) strs

@[simp]
theorem length_starts (d : Nat) (strs : List Bytes) :
  (starts d strs).length = strs.length
  := by
  induction strs generalizing d with
  | nil => rfl
  | cons s strs ih => rw [starts, List.length_cons, ih, List.length_cons]

/-- Each string stands where it starts. -/
theorem drop_starts
    {m rest : Bytes} {d : Nat} {strs : List Bytes}
    (h : m.drop d = strs.flatMap terminate ++ rest) {j : Nat} (hj : j < strs.length) :
  ∃ p tail, (starts d strs)[j]? = some p ∧ m.drop p = terminate strs[j] ++ tail
  := by
  induction strs generalizing d j with
  | nil => simp at hj
  | cons s strs ih =>
      rw [List.flatMap_cons, List.append_assoc] at h
      cases j with
      | zero => exact ⟨d, _, rfl, h⟩
      | succ j =>
          have hdrop : m.drop (d + (s.length + 1)) = strs.flatMap terminate ++ rest := by
            rw [← List.drop_drop, h, ← length_terminate, List.drop_left]
          exact ih hdrop (by simpa using hj)

end Bytes
