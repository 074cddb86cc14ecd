import KhdfLinux.Lib.BoundedStrings

/-!
# Formatted output

What the conversions `%u` and `%d` make of a word, and `snprintf_s` and `vsprintf_s` for a text that
was formatted.
-/

namespace Bytes

/-! ### Numbers -/

/-- The digits of a number. -/
def digits (n : Nat) : Bytes := (Nat.toDigits 10 n).map fun c => UInt8.ofNat c.toNat

/-- The character `-`. -/
def minus : UInt8 := 45

/-- A word as an unsigned number, as `%u` formats it. -/
def formatUnsigned (v : UInt32) : Bytes := digits v.toNat

/-- A word as a signed number, as `%d` formats it. -/
def formatSigned (v : UInt32) : Bytes :=
  if v.toNat < 2147483648 then digits v.toNat else minus :: digits (4294967296 - v.toNat)

theorem digits_ne_nil (n : Nat) :
  digits n ≠ []
  := by
  unfold digits
  rw [Ne, List.map_eq_nil_iff]
  apply Nat.toDigits_ne_nil

/-- The characters of a number are digits. -/
theorem mem_digits {n : Nat} {b : UInt8} (hb : b ∈ digits n) :
  48 ≤ b.toNat ∧ b.toNat ≤ 57
  := by
  obtain ⟨c, hc, rfl⟩ := List.mem_map.mp hb
  have hdigit := Nat.isDigit_of_mem_toDigits (by decide) (by decide) hc
  simp only [Char.isDigit, ge_iff_le, Bool.and_eq_true, decide_eq_true_eq, UInt32.le_iff_toNat_le]
    at hdigit
  obtain ⟨hlow, hhigh⟩ := hdigit
  have hlow' : 48 ≤ c.toNat := hlow
  have hhigh' : c.toNat ≤ 57 := hhigh
  rw [UInt8.toNat_ofNat']
  omega

theorem zero_not_mem_digits (n : Nat) :
  0 ∉ digits n
  := by
  intro h
  have hlow := (mem_digits h).1
  exact absurd hlow (by decide)

theorem zero_not_mem_formatSigned (v : UInt32) :
  0 ∉ formatSigned v
  := by
  unfold formatSigned
  split
  · exact zero_not_mem_digits _
  · rw [List.mem_cons, not_or]
    exact ⟨by decide, zero_not_mem_digits _⟩

/-- A word that is not negative is formatted in the same way by both. -/
theorem formatSigned_eq {v : UInt32} (hv : v.toNat < 2147483648) :
  formatSigned v = formatUnsigned v
  := if_pos hv

/-- What follows a number that is negative does not make its text that of an unsigned number. -/
theorem formatSigned_append_ne {v : UInt32} (hv : 2147483648 ≤ v.toNat) (s t : Bytes) :
  formatSigned v ++ s ≠ formatUnsigned v ++ t
  := by
  intro h
  unfold formatSigned formatUnsigned at h
  rw [if_neg (Nat.not_lt.mpr hv)] at h
  obtain ⟨b, bs, hdigits⟩ := List.exists_cons_of_ne_nil (digits_ne_nil v.toNat)
  rw [hdigits] at h
  have hb : b ∈ digits v.toNat := by
    rw [hdigits]
    apply List.mem_cons_self
  obtain rfl : minus = b := (List.cons.inj h).1
  exact absurd (mem_digits hb).1 (by decide)

/-! ### The functions -/

/-- `snprintf_s(&dest[p], destMax, count, …)` for the text that is formatted.  A text that is longer
than `count` is cut off there, and one that is cut off by the size leaves an empty string. -/
def snprintfS (p destMax count : Nat) (text : Bytes) : Exec Bytes Int := do
  if destMax = 0 then pure (-1)
  else if text.length ≤ count ∧ text.length < destMax then
    put p (text ++ [0])
    pure text.length
  else if count < destMax then
    put p (text.take count ++ [0])
    pure (-1)
  else
    put p (text.take (destMax - 1) ++ [0])
    put p [0]
    pure (-1)

/-- `vsprintf_s(&dest[p], destMax, …)` for the text that is formatted.  Of a text that is too long,
as much is written as the size takes, before the string is made empty. -/
def vsprintfS (p destMax : Nat) (text : Bytes) : Exec Bytes Int := do
  if destMax = 0 then pure (-1)
  else if text.length < destMax then
    put p (text ++ [0])
    pure text.length
  else
    put p (text.take (destMax - 1) ++ [0])
    put p [0]
    pure (-1)

/-- `strlen` of the string in the object. -/
def strlen : Exec Bytes Nat := do
  let s ← scan (← get)
  pure s.length

variable {out text : Bytes} {k n : Nat}

/-- The string in the object ends where the zero bytes begin. -/
theorem run_scan (hout : 0 ∉ out) :
  (do scan (← get) : Exec Bytes Bytes).run (out ++ List.replicate (k + 1) 0)
    = .ok out (out ++ List.replicate (k + 1) 0)
  := by
  have hmem : 0 ∈ out ++ List.replicate (k + 1) 0 := by
    rw [List.replicate_succ]
    simp
  have hcstr : cstr (out ++ List.replicate (k + 1) 0) = out := by
    rw [List.replicate_succ]
    apply cstr_append_zero hout
  show (scan (out ++ List.replicate (k + 1) 0) : Exec Bytes Bytes).run _ = _
  unfold scan
  rw [if_pos hmem, hcstr]
  rfl

theorem run_strlen (hout : 0 ∉ out) :
  strlen.run (out ++ List.replicate (k + 1) 0)
    = .ok out.length (out ++ List.replicate (k + 1) 0)
  := by
  have hscan := run_scan (k := k) hout
  have hrun : strlen.run (out ++ List.replicate (k + 1) 0)
      = ((do scan (← get) : Exec Bytes Bytes) >>= fun s => pure s.length).run
        (out ++ List.replicate (k + 1) 0) := rfl
  rw [hrun, EStateM.run_bind, hscan]
  rfl

/-- Zero bytes behind the one that ends a text. -/
theorem append_zero_replicate (s : Bytes) (hk : n < k) :
  s ++ [0] ++ List.replicate (k - (n + 1)) 0 = s ++ List.replicate (k - n) 0
  := by
  obtain ⟨j, rfl⟩ := Nat.exists_eq_add_of_lt hk
  rw [List.append_assoc, List.singleton_append, ← List.replicate_succ]
  congr 2
  omega

/-- A text that fits is appended to what is written in an object that is zero behind it. -/
theorem run_snprintfS_fits (out : Bytes) (htext : text.length ≤ n) :
  (snprintfS out.length (n + 1) n text).run (out ++ List.replicate (n + 1) 0)
    = .ok text.length (out ++ text ++ List.replicate (n + 1 - text.length) 0)
  := by
  have hput : (put out.length (text ++ [0])).run (out ++ List.replicate (n + 1) 0) = _ :=
    run_put out (by simp; omega)
  rw [List.length_append, List.length_singleton, ← List.append_assoc,
    append_zero_replicate _ (by omega)] at hput
  unfold snprintfS
  rw [if_neg (Nat.succ_ne_zero n), if_pos ⟨htext, by omega⟩, EStateM.run_bind, hput]
  rfl

/-- A text that does not fit is cut off. -/
theorem run_snprintfS_cut (out : Bytes) (htext : n < text.length) :
  (snprintfS out.length (n + 1) n text).run (out ++ List.replicate (n + 1) 0)
    = .ok (-1) (out ++ text.take n ++ List.replicate 1 0)
  := by
  have hlength : (text.take n).length = n := List.length_take_of_le (Nat.le_of_lt htext)
  have hput : (put out.length (text.take n ++ [0])).run (out ++ List.replicate (n + 1) 0) = _ :=
    run_put out (by simp [hlength])
  rw [List.length_append, List.length_singleton, hlength, ← List.append_assoc,
    append_zero_replicate _ (by omega), Nat.add_sub_cancel_left] at hput
  unfold snprintfS
  rw [if_neg (Nat.succ_ne_zero n), if_neg (by omega), if_pos (Nat.lt_succ_self n),
    EStateM.run_bind, hput]
  rfl

end Bytes
