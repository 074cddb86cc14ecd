import KhdfLinux.Lib.CStrings
import Mathlib.Data.List.Induction

/-!
# Names in a buffer

Strings that are copied, without the zero byte that ends them, to the start of a buffer that they
share.  The string in the buffer never gets shorter, and it is each of the strings that were copied
exactly if these are all the same.
-/

namespace Bytes

/-- A string without a zero byte in it. -/
structure CString where
  bytes : Bytes
  zero : 0 ∉ bytes

/-- The string in a buffer: the bytes before the first zero byte. -/
def cstr (m : Bytes) : Bytes := m.takeWhile (· ≠ 0)

/-- A buffer with a byte string copied to its start. -/
def memcpy (dest src : Bytes) : Bytes := src ++ dest.drop src.length

/-- A string without a zero byte goes on with what follows it. -/
theorem cstr_append {s : Bytes} (hs : 0 ∉ s) (rest : Bytes) :
  cstr (s ++ rest) = s ++ cstr rest
  := by
  apply List.takeWhile_append_of_pos
  intro b hb
  apply decide_eq_true
  rintro rfl
  apply hs hb

/-- A buffer of zero bytes holds the empty string. -/
theorem cstr_replicate (n : Nat) :
  cstr (List.replicate n 0) = []
  := by
  cases n with
  | zero => rfl
  | succ n => rfl

/-- What is cut off a buffer is cut off its string at most. -/
theorem length_cstr_le (m : Bytes) (k : Nat) :
  (cstr m).length ≤ k + (cstr (m.drop k)).length
  := by
  induction k generalizing m with
  | zero =>
      apply Nat.le_of_eq
      rw [List.drop_zero, Nat.zero_add]
  | succ k ih =>
      cases m with
      | nil => exact Nat.zero_le _
      | cons b m =>
          have hm := ih m
          rw [List.drop_succ_cons]
          by_cases hb : b = 0
          · subst hb
            exact Nat.zero_le _
          · have hcons : cstr (b :: m) = b :: cstr m :=
              List.takeWhile_cons_of_pos (decide_eq_true hb)
            rw [hcons, List.length_cons]
            omega

/-- The string in the buffer is as long as each that was copied to it, and as the one before. -/
theorem le_length_cstr_memcpy (dest : Bytes) {src : Bytes} (hsrc : 0 ∉ src) :
  (cstr dest).length ≤ (cstr (memcpy dest src)).length
    ∧ src.length ≤ (cstr (memcpy dest src)).length
  := by
  have hle := length_cstr_le dest src.length
  unfold memcpy
  rw [cstr_append hsrc, List.length_append]
  omega

/-- The buffer after the strings are copied to it, one after the other. -/
def shared (size : Nat) (names : List Bytes) : Bytes := names.foldl memcpy (List.replicate size 0)

/-- What is behind all the strings that are copied stays zero. -/
theorem getElem?_shared {size : Nat} {names : List Bytes} {i : Nat} (hi : i < size)
    (hlength : ∀ n ∈ names, n.length ≤ i) :
  (shared size names)[i]? = some 0
  := by
  induction names using List.reverseRecOn with
  | nil => exact List.getElem?_replicate_of_lt hi
  | append_singleton names last ih =>
      have hlast := hlength last (List.mem_append_right _ (List.mem_singleton_self last))
      unfold shared
      rw [List.foldl_append]
      show (memcpy (shared size names) last)[i]? = _
      unfold memcpy
      rw [List.getElem?_append_right hlast, List.getElem?_drop, Nat.add_sub_cancel' hlast]
      apply ih fun n hn => hlength n (List.mem_append_left _ hn)

/-- The string in the buffer is as long as each that was copied. -/
theorem le_length_cstr_shared {size : Nat} {names : List Bytes} (hzero : ∀ n ∈ names, 0 ∉ n)
    {name : Bytes} (hname : name ∈ names) :
  name.length ≤ (cstr (shared size names)).length
  := by
  induction names using List.reverseRecOn with
  | nil => cases hname
  | append_singleton names last ih =>
      have hlast := hzero last (List.mem_append_right _ (List.mem_singleton_self last))
      unfold shared
      rw [List.foldl_append]
      obtain ⟨hgrow, hle⟩ := le_length_cstr_memcpy (shared size names) hlast
      obtain hmem | hmem := List.mem_append.mp hname
      · apply Nat.le_trans (ih (fun n hn => hzero n (List.mem_append_left _ hn)) hmem) hgrow
      · rw [List.mem_singleton.mp hmem]
        apply hle

/-- A string that is copied again and again is the one in the buffer. -/
theorem cstr_shared_same {size : Nat} {names : List Bytes} {name : Bytes} (hzero : 0 ∉ name)
    (hlength : name.length < size) (hne : names ≠ []) (hsame : ∀ n ∈ names, n = name) :
  cstr (shared size names) = name
  := by
  have hshared : shared size names = name ++ List.replicate (size - name.length) 0 := by
    induction names using List.reverseRecOn with
    | nil => exact absurd rfl hne
    | append_singleton names last ih =>
        obtain rfl := hsame last (List.mem_append_right _ (List.mem_singleton_self last))
        unfold shared
        rw [List.foldl_append]
        show memcpy (shared size names) last = _
        unfold memcpy
        by_cases hnames : names = []
        · subst hnames
          show last ++ (List.replicate size 0).drop last.length = _
          rw [List.drop_replicate]
        · rw [ih hnames fun n hn => hsame n (List.mem_append_left _ hn), List.drop_left]
  rw [hshared, cstr_append hzero, cstr_replicate, List.append_nil]

/-- The names of some objects have no zero byte. -/
theorem zero_names {α : Type} {xs : List α} {f : α → CString} :
  ∀ n ∈ xs.map fun x => (f x).bytes, 0 ∉ n
  := by
  intro n hn
  obtain ⟨x, -, rfl⟩ := List.mem_map.mp hn
  apply (f x).zero

/-- The string in the buffer is the name of each of the objects whose names were copied, exactly if
these are the same. -/
theorem cstr_shared_iff {α : Type} {size : Nat} {xs : List α} {f : α → CString}
    (hlength : ∀ x ∈ xs, (f x).bytes.length < size) :
  (∀ x ∈ xs, cstr (shared size (xs.map fun x => (f x).bytes)) = (f x).bytes)
    ↔ ∀ x ∈ xs, ∀ y ∈ xs, (f x).bytes = (f y).bytes
  := by
  constructor
  · intro h x hx y hy
    rw [← h x hx, ← h y hy]
  · intro h x hx
    apply cstr_shared_same (f x).zero (hlength x hx)
    · apply List.ne_nil_of_mem (List.mem_map_of_mem hx)
    · intro n hn
      obtain ⟨y, hy, rfl⟩ := List.mem_map.mp hn
      apply h y hy x hx

end Bytes
