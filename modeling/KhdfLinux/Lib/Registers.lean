import Mathlib.Logic.Function.Basic

/-!
# Registers

The registers of a device after a list of writes, and programs that write registers and read what
the device answers.  `Writes S x` says that the program `x` writes only registers in `S`; the
registers are then the ones before with these writes.
-/

namespace Registers

variable {R V α β : Type} [DecidableEq R]

/-- The registers after the writes. -/
def after (regs : R → V) (ws : List (R × V)) : R → V :=
  ws.foldl (fun regs w => Function.update regs w.1 w.2) regs

variable {regs : R → V} {ws vs : List (R × V)} {r : R} {v : V}

@[simp]
theorem after_nil :
  after regs [] = regs
  := rfl

@[simp]
theorem after_cons {w : R × V} :
  after regs (w :: ws) = after (Function.update regs w.1 w.2) ws
  := rfl

@[simp]
theorem after_append :
  after regs (ws ++ vs) = after (after regs ws) vs
  := List.foldl_append

/-- A register that is not written is kept. -/
theorem after_of_not_mem (h : ∀ w ∈ ws, w.1 ≠ r) :
  after regs ws r = regs r
  := by
  induction ws generalizing regs with
  | nil => rfl
  | cons w ws ih =>
      rw [after_cons, ih fun w' hw' => h w' (List.mem_cons_of_mem w hw')]
      apply Function.update_of_ne (h w List.mem_cons_self).symm w.2 regs

/-- The writes are of registers in `S`. -/
def Within (S : R → Prop) (ws : List (R × V)) : Prop := ∀ w ∈ ws, S w.1

section

variable {S : R → Prop}

omit [DecidableEq R]

@[simp]
theorem within_nil :
  Within S ([] : List (R × V))
  := fun _ hw => nomatch hw

@[simp]
theorem within_cons {w : R × V} :
  Within S (w :: ws) ↔ S w.1 ∧ Within S ws
  := List.forall_mem_cons

@[simp]
theorem within_append :
  Within S (ws ++ vs) ↔ Within S ws ∧ Within S vs
  := List.forall_mem_append

@[simp]
theorem within_flatMap {xs : List α} {f : α → List (R × V)} :
  Within S (xs.flatMap f) ↔ ∀ x ∈ xs, Within S (f x)
  := List.forall_mem_flatMap

theorem within_ite {c : Prop} [Decidable c] :
  Within S (if c then ws else vs) ↔ (c → Within S ws) ∧ (¬c → Within S vs)
  := by
  split
  · next hc => simp [hc]
  · next hc => simp [hc]

end

theorem Within.after_eq {S : R → Prop} (h : Within S ws) (hr : ¬S r) :
  after regs ws r = regs r
  := after_of_not_mem fun w hw heq => hr (heq ▸ h w hw)

/-- Where no register is written twice, each holds what was written. -/
theorem after_of_mem {w : R × V} (h : (ws.map Prod.fst).Nodup) (hw : w ∈ ws) :
  after regs ws w.1 = w.2
  := by
  induction ws generalizing regs with
  | nil => cases hw
  | cons v ws ih =>
      rw [List.map_cons, List.nodup_cons] at h
      rw [after_cons]
      obtain rfl | hw := List.mem_cons.mp hw
      · have hothers : ∀ v ∈ ws, v.1 ≠ w.1 := by
          intro v hv heq
          apply h.1
          rw [← heq]
          apply List.mem_map_of_mem hv
        rw [after_of_not_mem hothers]
        apply Function.update_self _ _ _
      · apply ih h.2 hw

/-! ### Programs -/

/-- A device: its registers, the writes so far, and what the next reads give. -/
structure Device (R V : Type) where
  regs : R → V
  writes : List (R × V)
  input : Nat → R → V

/-- Programs for a device. -/
abbrev DeviceM (R V α : Type) := StateM (Device R V) α

/-- Read a register. -/
def read (r : R) : DeviceM R V V := fun d =>
  (d.input 0 r, { d with input := fun n => d.input (n + 1) })

/-- The device after the next `n` reads. -/
def Device.skip (d : Device R V) (n : Nat) : Device R V :=
  { d with input := fun k => d.input (k + n) }

/-- Write registers in order. -/
def writeAll (ws : List (R × V)) : DeviceM R V Unit := fun d =>
  ((), { d with regs := after d.regs ws, writes := d.writes ++ ws })

/-- Write a register. -/
def write (r : R) (v : V) : DeviceM R V Unit := writeAll [(r, v)]

section

omit [DecidableEq R]

/-- A read is of the next input. -/
theorem read_eq (r : R) (d : Device R V) :
  read r d = (d.input 0 r, d.skip 1)
  := rfl

theorem bind_apply (x : DeviceM R V α) (f : α → DeviceM R V β) (d : Device R V) :
  (x >>= f) d = f (x d).1 (x d).2
  := rfl

@[simp]
theorem Device.skip_skip (d : Device R V) (n m : Nat) :
  (d.skip n).skip m = d.skip (n + m)
  := by
  unfold skip
  simp only [Nat.add_assoc, Nat.add_comm m n]

end

/-- The program writes only registers in `S`. -/
def Writes (S : R → Prop) (x : DeviceM R V α) : Prop :=
  ∀ d, ∃ ws, (x d).2.writes = d.writes ++ ws ∧ (x d).2.regs = after d.regs ws ∧ Within S ws

variable {S : R → Prop} {x : DeviceM R V α} {f : α → DeviceM R V β}

theorem Writes.pure (a : α) :
  Writes S (Pure.pure a : DeviceM R V α)
  := fun d => ⟨[], (List.append_nil d.writes).symm, rfl, within_nil⟩

theorem Writes.read (r : R) :
  Writes S (Registers.read r : DeviceM R V V)
  := fun d => ⟨[], (List.append_nil d.writes).symm, rfl, within_nil⟩

theorem Writes.writeAll (h : Within S ws) :
  Writes S (Registers.writeAll ws : DeviceM R V Unit)
  := fun _ => ⟨ws, rfl, rfl, h⟩

theorem Writes.write (v : V) (h : S r) :
  Writes S (Registers.write r v : DeviceM R V Unit)
  := Writes.writeAll (within_cons.mpr ⟨h, within_nil⟩)

theorem Writes.bind (hx : Writes S x) (hf : ∀ a, Writes S (f a)) :
  Writes S (x >>= f)
  := by
  intro d
  obtain ⟨ws, hwrites, hregs, hws⟩ := hx d
  obtain ⟨vs, hwrites', hregs', hvs⟩ := hf (x d).1 (x d).2
  refine ⟨ws ++ vs, ?_, ?_, within_append.mpr ⟨hws, hvs⟩⟩
  · show (f (x d).1 (x d).2).2.writes = _
    rw [hwrites', hwrites, List.append_assoc]
  · show (f (x d).1 (x d).2).2.regs = _
    rw [hregs', hregs, after_append]

theorem Writes.ite {c : Prop} [Decidable c] {y : DeviceM R V α} (hx : Writes S x)
    (hy : Writes S y) :
  Writes S (if c then x else y)
  := by
  split
  · apply hx
  · apply hy

/-- A register that the program does not write is kept. -/
theorem Writes.kept (h : Writes S x) (hr : ¬S r) (d : Device R V) :
  (x d).2.regs r = d.regs r
  := by
  obtain ⟨ws, -, hregs, hws⟩ := h d
  rw [hregs]
  apply hws.after_eq hr

/-- A program that writes no register. -/
theorem Writes.writes_eq (h : Writes (fun _ => False) x) (d : Device R V) :
  (x d).2.writes = d.writes
  := by
  obtain ⟨ws, hwrites, -, hws⟩ := h d
  have hnil : ws = [] := List.eq_nil_iff_forall_not_mem.mpr fun w hw => hws w hw
  rw [hwrites, hnil, List.append_nil]

end Registers
