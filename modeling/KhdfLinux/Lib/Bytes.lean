import KhdfLinux.Lib.Exec
import KhdfLinux.Lib.Machine
import Mathlib.Data.List.GetD

/-!
# Byte strings and heaps

Byte strings, the little-endian words they hold, and executions over a heap: a byte
string together with a private state.  A read or a write outside the byte string is a
fault.
-/

/-- Byte strings. -/
abbrev Bytes := List UInt8

namespace Bytes

/-- The byte at position `p` of `m`, and `0` past the end of `m`. -/
def byteAt (m : Bytes) (p : Nat) : UInt8 := m.getD p 0

/-- The little-endian word of 16 bits at position `p` of `m`. -/
def le16At (m : Bytes) (p : Nat) : Nat :=
  (byteAt m p).toNat + 256 * (byteAt m (p + 1)).toNat

/-- The little-endian word of 32 bits at position `p` of `m`. -/
def le32At (m : Bytes) (p : Nat) : Nat :=
  le16At m p + 65536 * le16At m (p + 2)

theorem le16At_lt (m : Bytes) (p : Nat) :
  le16At m p < 65536
  := by
  have h₀ := (byteAt m p).toNat_lt
  have h₁ := (byteAt m (p + 1)).toNat_lt
  unfold le16At
  omega

theorem le32At_lt (m : Bytes) (p : Nat) :
  le32At m p < 4294967296
  := by
  have h₀ := le16At_lt m p
  have h₁ := le16At_lt m (p + 2)
  unfold le32At
  omega

theorem byteAt_append_left {a : Bytes} (b : Bytes) {p : Nat} (h : p < a.length) :
  byteAt (a ++ b) p = byteAt a p
  := by
  unfold byteAt
  apply List.getD_append _ _ _ _ h

theorem byteAt_drop (m : Bytes) (d p : Nat) :
  byteAt (m.drop d) p = byteAt m (d + p)
  := by
  simp [byteAt, List.getD_eq_getElem?_getD]

/-- Byte strings with the same bytes at some positions are the same there. -/
theorem take_drop_congr
    {m m' : Bytes} {d n : Nat} (hlen : d + n ≤ m.length) (hlen' : d + n ≤ m'.length)
    (h : ∀ p, d ≤ p → p < d + n → byteAt m p = byteAt m' p) :
  (m.drop d).take n = (m'.drop d).take n
  := by
  apply List.ext_getElem
  · simp only [List.length_take, List.length_drop]
    omega
  · intro i hi hi'
    simp only [List.length_take, List.length_drop] at hi hi'
    have hbyte := h (d + i) (Nat.le_add_right d i) (by omega)
    unfold byteAt at hbyte
    rw [List.getD_eq_getElem _ _ (by omega), List.getD_eq_getElem _ _ (by omega)] at hbyte
    simpa using hbyte

theorem le16At_drop (m : Bytes) (d p : Nat) :
  le16At (m.drop d) p = le16At m (d + p)
  := by
  rw [le16At, le16At, byteAt_drop, byteAt_drop, Nat.add_assoc]

theorem le32At_drop (m : Bytes) (d p : Nat) :
  le32At (m.drop d) p = le32At m (d + p)
  := by
  rw [le32At, le32At, le16At_drop, le16At_drop, Nat.add_assoc]

theorem byteAt_set_ne {m : Bytes} {p q : Nat} (v : UInt8) (h : q ≠ p) :
  byteAt (m.set q v) p = byteAt m p
  := by
  simp [byteAt, List.getD_eq_getElem?_getD, h]

theorem byteAt_set_eq {m : Bytes} {p : Nat} (v : UInt8) (h : p < m.length) :
  byteAt (m.set p v) p = v
  := by
  simp [byteAt, List.getD_eq_getElem?_getD, h]

/-- To write a byte where it stands already changes nothing. -/
theorem set_byteAt (m : Bytes) (p : Nat) :
  m.set p (byteAt m p) = m
  := by
  apply List.ext_getElem?
  intro i
  by_cases h : p = i
  · subst h
    by_cases hp : p < m.length
    · simp [hp, byteAt]
    · simp [hp]
  · simp [h]

/-- The byte strings `m` and `m'` have the same length and the same bytes from position
`p` on. -/
def AgreeFrom (p : Nat) (m m' : Bytes) : Prop :=
  m.length = m'.length ∧ ∀ i, p ≤ i → byteAt m i = byteAt m' i

theorem AgreeFrom.refl (p : Nat) (m : Bytes) :
  AgreeFrom p m m
  := by
  constructor
  · rfl
  · intro _ _
    rfl

theorem AgreeFrom.mono {p q : Nat} {m m' : Bytes} (h : AgreeFrom p m m') (hpq : p ≤ q) :
  AgreeFrom q m m'
  := by
  constructor
  · apply h.1
  · intro i hi
    apply h.2 i (by omega)

theorem AgreeFrom.set
    {p q : Nat} {m m' : Bytes} (h : AgreeFrom p m m') (v : UInt8) (hq : q < p) :
  AgreeFrom p m (m'.set q v)
  := by
  constructor
  · simpa using h.1
  · intro i hi
    rw [byteAt_set_ne v (by omega)]
    apply h.2 i hi

theorem AgreeFrom.le16At {p q : Nat} {m m' : Bytes} (h : AgreeFrom p m m') (hq : p ≤ q) :
  Bytes.le16At m q = Bytes.le16At m' q
  := by
  unfold Bytes.le16At
  rw [h.2 q hq, h.2 (q + 1) (by omega)]

theorem AgreeFrom.le32At {p q : Nat} {m m' : Bytes} (h : AgreeFrom p m m') (hq : p ≤ q) :
  Bytes.le32At m q = Bytes.le32At m' q
  := by
  unfold Bytes.le32At
  rw [h.le16At hq, h.le16At (q := q + 2) (by omega)]

/-- A word is told by its bytes. -/
theorem le16At_of_same {m m' : Bytes} {p : Nat}
    (h : ∀ j < 2, byteAt m (p + j) = byteAt m' (p + j)) :
  le16At m p = le16At m' p
  := by
  have h₀ : byteAt m p = byteAt m' p := h 0 (by decide)
  unfold le16At
  rw [h₀, h 1 (by decide)]

theorem le32At_of_same {m m' : Bytes} {p : Nat}
    (h : ∀ j < 4, byteAt m (p + j) = byteAt m' (p + j)) :
  le32At m p = le32At m' p
  := by
  have hhigh : le16At m (p + 2) = le16At m' (p + 2) := by
    apply le16At_of_same
    intro j hj
    rw [Nat.add_assoc, h (2 + j) (by omega)]
  unfold le32At
  rw [le16At_of_same fun j hj => h j (by omega), hhigh]

/-- The byte strings `m` and `m'` have the same length and differ at the positions `R` at
most. -/
def AgreeOff (R : Nat → Prop) (m m' : Bytes) : Prop :=
  m.length = m'.length ∧ ∀ i, ¬R i → byteAt m i = byteAt m' i

theorem AgreeOff.mono {R R' : Nat → Prop} {m m' : Bytes} (h : AgreeOff R m m')
    (hR : ∀ i, R i → R' i) :
  AgreeOff R' m m'
  := ⟨h.1, fun i hi => h.2 i fun hRi => hi (hR i hRi)⟩

theorem AgreeOff.trans {R : Nat → Prop} {m m' m'' : Bytes} (h : AgreeOff R m m')
    (h' : AgreeOff R m' m'') :
  AgreeOff R m m''
  := ⟨h.1.trans h'.1, fun i hi => (h.2 i hi).trans (h'.2 i hi)⟩

theorem AgreeOff.set {R : Nat → Prop} {q : Nat} {m m' : Bytes} (h : AgreeOff R m m') (v : UInt8)
    (hq : R q) :
  AgreeOff R m (m'.set q v)
  := by
  constructor
  · simpa using h.1
  · intro i hi
    rw [byteAt_set_ne v (fun hqi : q = i => hi (hqi ▸ hq))]
    exact h.2 i hi

end Bytes

/-- A byte string together with a private state. -/
structure Heap (π : Type) where
  mem : Bytes
  priv : π

namespace Heap

open Bytes

variable {π ρ α : Type}

/-- Read the byte at position `p`. -/
def read8 (p : Nat) : Exec (Heap π) UInt8 := fun s =>
  if p < s.mem.length then .ok (byteAt s.mem p) s
  else .error (.fault .outOfBounds) s

/-- Read the little-endian word of 16 bits at position `p`. -/
def read16 (p : Nat) : Exec (Heap π) Nat := fun s =>
  if p + 2 ≤ s.mem.length then .ok (le16At s.mem p) s
  else .error (.fault .outOfBounds) s

/-- Read the little-endian word of 32 bits at position `p`. -/
def read32 (p : Nat) : Exec (Heap π) Nat := fun s =>
  if p + 4 ≤ s.mem.length then .ok (le32At s.mem p) s
  else .error (.fault .outOfBounds) s

/-- Write the byte at position `p`. -/
def write8 (p : Nat) (v : UInt8) : Exec (Heap π) Unit := fun s =>
  if p < s.mem.length then .ok () { s with mem := s.mem.set p v }
  else .error (.fault .outOfBounds) s

/-- Change the private state. -/
def update (f : π → π) : Exec (Heap π) Unit := fun s =>
  .ok () { s with priv := f s.priv }

/-- The private state. -/
def look : Exec (Heap π) π := fun s => .ok s.priv s

/-- Run `x` with the private state `into` makes of the current one, and put `back` what
it leaves. -/
def zoom (into : π → ρ) (back : ρ → π) (x : Exec (Heap ρ) α) : Exec (Heap π) α := fun s =>
  match x.run ⟨s.mem, into s.priv⟩ with
  | .ok a t => .ok a ⟨t.mem, back t.priv⟩
  | .error e t => .error e ⟨t.mem, back t.priv⟩

theorem run_read8 {p : Nat} {s : Heap π} (h : p < s.mem.length) :
  (read8 p).run s = .ok (byteAt s.mem p) s
  := if_pos h

theorem run_read8_of_le {p : Nat} {s : Heap π} (h : s.mem.length ≤ p) :
  (read8 p).run s = .error (.fault .outOfBounds) s
  := if_neg (by omega)

theorem run_read16 {p : Nat} {s : Heap π} (h : p + 2 ≤ s.mem.length) :
  (read16 p).run s = .ok (le16At s.mem p) s
  := if_pos h

theorem run_read32 {p : Nat} {s : Heap π} (h : p + 4 ≤ s.mem.length) :
  (read32 p).run s = .ok (le32At s.mem p) s
  := if_pos h

theorem run_write8 {p : Nat} {s : Heap π} (v : UInt8) (h : p < s.mem.length) :
  (write8 p v).run s = .ok () { s with mem := s.mem.set p v }
  := if_pos h

/-- A write at the end of an execution. -/
theorem meets_write8
    {p : Nat} {v : UInt8} {s : Heap π} {Q : Unit → Heap π → Prop} {E : Stop → Heap π → Prop}
    (h : p < s.mem.length) (hQ : Q () { s with mem := s.mem.set p v }) :
  Exec.Meets (write8 p v) s Q E
  := by
  unfold Exec.Meets
  rw [run_write8 v h]
  apply hQ

@[simp]
theorem run_look (s : Heap π) :
  EStateM.run look s = .ok s.priv s
  := rfl

@[simp]
theorem run_update (f : π → π) (s : Heap π) :
  (update f).run s = .ok () { s with priv := f s.priv }
  := rfl

theorem run_zoom (into : π → ρ) (back : ρ → π) (x : Exec (Heap ρ) α) (s : Heap π) :
  (zoom into back x).run s
    = match x.run ⟨s.mem, into s.priv⟩ with
      | .ok a t => .ok a ⟨t.mem, back t.priv⟩
      | .error e t => .error e ⟨t.mem, back t.priv⟩
  := rfl

theorem run_zoom_ok
    {into : π → ρ} {back : ρ → π} {x : Exec (Heap ρ) α} {s t : Heap π} {a : α} :
  (zoom into back x).run s = .ok a t
    ↔ ∃ u, x.run ⟨s.mem, into s.priv⟩ = .ok a u ∧ t = ⟨u.mem, back u.priv⟩
  := by
  rw [run_zoom]
  cases x.run ⟨s.mem, into s.priv⟩ with
  | ok b u =>
      constructor
      · intro h
        cases h
        exact ⟨u, rfl, rfl⟩
      · rintro ⟨_, h, rfl⟩
        cases h
        rfl
  | error e u =>
      constructor
      · intro h
        cases h
      · rintro ⟨_, h, _⟩
        cases h

theorem meets_zoom
    {into : π → ρ} {back : ρ → π} {x : Exec (Heap ρ) α} {s : Heap π} {Q : α → Heap π → Prop}
    {E : Stop → Heap π → Prop}
    (h : Exec.Meets x ⟨s.mem, into s.priv⟩ (fun a u => Q a ⟨u.mem, back u.priv⟩)
      (fun e u => E e ⟨u.mem, back u.priv⟩)) :
  Exec.Meets (zoom into back x) s Q E
  := by
  unfold Exec.Meets at h ⊢
  rw [run_zoom]
  cases hx : x.run ⟨s.mem, into s.priv⟩ with
  | ok a u =>
      rw [hx] at h
      apply h
  | error e u =>
      rw [hx] at h
      apply h

/-! ### What reads and writes leave alone -/

section Keeps

variable {τ : Type} {f : π → τ} {F : Heap π → τ}

theorem keeps_read8 (p : Nat) :
  Exec.Keeps F (read8 p)
  := by
  refine Exec.keeps_of_eq fun s => ?_
  by_cases h : p < s.mem.length
  · exact .inl ⟨_, run_read8 h⟩
  · exact .inr ⟨_, if_neg h⟩

theorem keeps_read16 (p : Nat) :
  Exec.Keeps F (read16 p)
  := by
  refine Exec.keeps_of_eq fun s => ?_
  by_cases h : p + 2 ≤ s.mem.length
  · exact .inl ⟨_, run_read16 h⟩
  · exact .inr ⟨_, if_neg h⟩

theorem keeps_read32 (p : Nat) :
  Exec.Keeps F (read32 p)
  := by
  refine Exec.keeps_of_eq fun s => ?_
  by_cases h : p + 4 ≤ s.mem.length
  · exact .inl ⟨_, run_read32 h⟩
  · exact .inr ⟨_, if_neg h⟩

theorem keeps_write8 (p : Nat) (v : UInt8) :
  Exec.Keeps (fun s : Heap π => f s.priv) (write8 p v)
  := by
  intro s
  unfold Exec.Meets
  by_cases h : p < s.mem.length
  · rw [run_write8 v h]
  · rw [show (write8 p v).run s = .error (.fault .outOfBounds) s from if_neg h]

theorem keeps_look :
  Exec.Keeps F look
  := Exec.keeps_of_eq fun _ => .inl ⟨_, rfl⟩

theorem keeps_update {g : π → π} (h : ∀ s, F ⟨s.mem, g s.priv⟩ = F s) :
  Exec.Keeps F (update g)
  := h

end Keeps

end Heap
