import KhdfLinux.Hdf.Base
import KhdfLinux.Lib.Ledger
import KhdfLinux.Lib.Run
import Mathlib.Logic.Function.Basic

/-!
# The adapters of the I2C bus

`LinuxI2cInit` and `LinuxI2cRelease`, which add and remove a controller for each adapter on the I2C
bus.  The driver never gets a reference to an adapter, but puts one where a controller cannot be
added and where one is removed.  `neutral_iff`: over any calls, the references are as the driver
found them, the adapters whose controller can be added have one, and after a release none is left,
exactly as long as no adapter fails at an init and none has a controller at a release.
-/

namespace I2c

/-- A device on the I2C bus: an adapter with its `nr`, or a device of another type. -/
inductive Device where
  | adapter (nr : Nat)
  | other
  deriving DecidableEq, Repr

/-- The numbers of the adapters among the devices. -/
def adapters (devices : List Device) : List Nat :=
  devices.filterMap fun
    | .adapter nr => some nr
    | .other => none

/-- The devices on the bus in the order of `i2c_for_each_dev`.  Each adapter has its own number. -/
structure Bus where
  devices : List Device
  nodup : (adapters devices).Nodup

/-- A controller: its `busId`, the adapter in its `priv`, and its allocation. -/
structure Cntlr where
  busId : Nat
  priv : Nat
  allocation : Nat
  deriving DecidableEq, Repr

/-- The state of the driver: the controllers in the manager, their memory, the references to each
adapter, how many of them the driver took and did not put, and the references before the last
init. -/
structure State where
  cntlrs : List Cntlr
  memory : Ledger
  refs : Nat → Int
  held : Nat → Int
  base : Nat → Int

/-- For the adapter of each number, whether its controller is allocated, and what `I2cCntlrAdd`
returns if there is no controller with its number. -/
structure Outcomes where
  alloced : Nat → Bool
  added : Nat → Int

namespace State

variable (s : State)

/-- No controller was added. -/
def init (refs : Nat → Int) : State := ⟨[], .empty, refs, fun _ => 0, refs⟩

/-- `I2cCntlrGet`.  There is nothing to put for `I2cCntlrPut`. -/
def cntlrGet (nr : Nat) : Option Cntlr := s.cntlrs.find? (·.busId = nr)

/-- `I2cCntlrAdd`. -/
def cntlrAdd (c : Cntlr) (ret : Int) : State × Int :=
  if (s.cntlrGet c.busId).isSome then (s, Hdf.failure)
  else if ret ≠ Hdf.success then (s, ret)
  else ({ s with cntlrs := s.cntlrs ++ [c] }, Hdf.success)

/-- `I2cCntlrRemove`. -/
def cntlrRemove (c : Cntlr) : State := { s with cntlrs := s.cntlrs.erase c }

/-- `i2c_put_adapter`. -/
def putAdapter (nr : Nat) : State :=
  { s with
    refs := Function.update s.refs nr (s.refs nr - 1)
    held := Function.update s.held nr (s.held nr - 1) }

/-- `LinuxI2cRemove`. -/
def linuxI2cRemove (s : State) : Option Device → State × Int
  | none => (s, Hdf.errInvalidObject)
  | some .other => (s, Hdf.success)
  | some (.adapter nr) =>
      match s.cntlrGet nr with
      | none => (s, Hdf.success)
      | some c =>
          let s := (s.cntlrRemove c).putAdapter nr
          ({ s with memory := s.memory.free c.allocation }, Hdf.success)

/-- `LinuxI2cProbe`. -/
def linuxI2cProbe (o : Outcomes) (s : State) : Option Device → State × Int
  | none => (s, Hdf.errInvalidObject)
  | some .other => (s, Hdf.success)
  | some (.adapter nr) =>
      if o.alloced nr = false then (s.putAdapter nr, Hdf.errMallocFail)
      else
        let c : Cntlr := ⟨nr, nr, s.memory.allocated⟩
        let (s, ret) := { s with memory := s.memory.alloc }.cntlrAdd c (o.added nr)
        if ret ≠ Hdf.success then
          let s := s.putAdapter nr
          ({ s with memory := s.memory.free c.allocation }, ret)
        else (s, Hdf.success)

/-- `i2c_for_each_dev`, which ends where the function returns an error. -/
def forEachDev (fn : State → Option Device → State × Int) (s : State) : List Device → State × Int
  | [] => (s, Hdf.success)
  | d :: ds =>
      let (t, ret) := fn s (some d)
      if ret ≠ Hdf.success then (t, ret) else forEachDev fn t ds

end State

/-- The calls of the driver, with whether `device` is a device, and for `LinuxI2cInit` what comes
of the adapters. -/
inductive Act where
  | init (device : Bool) (o : Outcomes)
  | release (device : Bool)

variable (bus : Bus)

/-- The state after a call. -/
def State.next (s : State) : Act → State
  | .init false _ => s
  | .init true o =>
      ({ s with base := s.refs }.forEachDev (State.linuxI2cProbe o) bus.devices).1
  | .release false => s
  | .release true => (s.forEachDev State.linuxI2cRemove bus.devices).1

/-- The controller of an adapter can be added. -/
def Outcomes.Succeeds (o : Outcomes) (s : State) (nr : Nat) : Prop :=
  o.alloced nr ∧ o.added nr = Hdf.success ∧ s.cntlrGet nr = none

instance (o : Outcomes) (s : State) (nr : Nat) : Decidable (o.Succeeds s nr) := by
  unfold Outcomes.Succeeds
  infer_instance

/-- What is to hold after a call in `s`.  The driver put no reference that it did not take.  After
an init, the controllers are those there were and those that can be added; after a release, there
are none, and the references are those there were before the init. -/
structure State.Neutral (s : State) (a : Act) : Prop where
  held : ∀ nr, 0 ≤ (s.next bus a).held nr
  single : ((s.next bus a).cntlrs.map Cntlr.busId).Nodup
  memory : (s.next bus a).memory.Holds ((s.next bus a).cntlrs.map Cntlr.allocation)
  added : ∀ o, a = .init true o → ∀ nr ∈ adapters bus.devices,
    ((s.next bus a).cntlrGet nr).isSome ↔ (s.cntlrGet nr).isSome ∨ o.Succeeds s nr
  removed : a = .release true →
    (s.next bus a).cntlrs = [] ∧ (s.next bus a).refs = (s.next bus a).base

/-- At an init, the controller of each adapter can be added; at a release, no adapter has one. -/
def State.Spared (s : State) : Act → Prop
  | .init true o => ∀ nr ∈ adapters bus.devices, o.Succeeds s nr
  | .release true => ∀ nr ∈ adapters bus.devices, s.cntlrGet nr = none
  | _ => True

variable {bus} {s : State} {o : Outcomes} {nr n : Nat} {d : Device} {ds : List Device}

@[simp]
theorem mem_adapters_cons :
  n ∈ adapters (d :: ds) ↔ d = .adapter n ∨ n ∈ adapters ds
  := by
  cases d with
  | adapter nr => simp [adapters, eq_comm]
  | other => simp [adapters]

theorem nodup_adapters_cons (h : (adapters (.adapter nr :: ds)).Nodup) :
  nr ∉ adapters ds ∧ (adapters ds).Nodup
  := List.nodup_cons.mp h

/-! ### An init -/

/-- The state with a controller added for an adapter. -/
def State.add (s : State) (nr : Nat) : State :=
  { s with
    cntlrs := s.cntlrs ++ [⟨nr, nr, s.memory.allocated⟩]
    memory := s.memory.alloc }

theorem cntlrGet_add_self (h : s.cntlrGet nr = none) :
  ((s.add nr).cntlrGet nr).isSome
  := by
  unfold State.cntlrGet State.add at *
  simp [List.find?_append, h]

theorem cntlrGet_add_of_ne (h : n ≠ nr) :
  (s.add nr).cntlrGet n = s.cntlrGet n
  := by
  unfold State.cntlrGet State.add
  simp [List.find?_append, Ne.symm h]

theorem Outcomes.succeeds_add_of_ne (h : n ≠ nr) :
  o.Succeeds (s.add nr) n ↔ o.Succeeds s n
  := by
  unfold Outcomes.Succeeds
  rw [cntlrGet_add_of_ne h]

theorem State.probe_adapter :
  s.linuxI2cProbe o (some (.adapter nr))
    = if o.alloced nr = false then (s.putAdapter nr, Hdf.errMallocFail)
      else
        let r := { s with memory := s.memory.alloc }.cntlrAdd ⟨nr, nr, s.memory.allocated⟩
          (o.added nr)
        if r.2 ≠ Hdf.success then
          ({ r.1.putAdapter nr with memory := r.1.memory.free s.memory.allocated }, r.2)
        else (r.1, Hdf.success)
  := rfl

theorem State.remove_adapter :
  s.linuxI2cRemove (some (.adapter nr))
    = match s.cntlrGet nr with
      | none => (s, Hdf.success)
      | some c =>
          ({ (s.cntlrRemove c).putAdapter nr with memory := s.memory.free c.allocation },
            Hdf.success)
  := rfl

theorem State.probe_succeeds (h : o.Succeeds s nr) :
  s.linuxI2cProbe o (some (.adapter nr)) = (s.add nr, Hdf.success)
  := by
  obtain ⟨halloced, hadded, hget⟩ := h
  have hadd : { s with memory := s.memory.alloc }.cntlrAdd ⟨nr, nr, s.memory.allocated⟩
      (o.added nr) = (s.add nr, Hdf.success) := by
    unfold State.cntlrAdd
    have hfree : ¬({ s with memory := s.memory.alloc }.cntlrGet nr).isSome := by
      show ¬(s.cntlrGet nr).isSome
      rw [hget]
      exact Bool.false_ne_true
    rw [if_neg hfree, if_neg (not_not.mpr hadded)]
    rfl
  rw [State.probe_adapter, if_neg (Bool.not_eq_false _ ▸ halloced), hadd]
  rfl

/-- Where a controller cannot be added, the adapter is put. -/
theorem State.probe_fails (h : ¬o.Succeeds s nr) :
  ∃ m ret, ret ≠ Hdf.success
    ∧ s.linuxI2cProbe o (some (.adapter nr)) = ({ s.putAdapter nr with memory := m }, ret)
  := by
  rw [State.probe_adapter]
  by_cases halloced : o.alloced nr = false
  · rw [if_pos halloced]
    use s.memory, Hdf.errMallocFail, by decide
    rfl
  · rw [if_neg halloced]
    have hadd : ∃ ret, ret ≠ Hdf.success
        ∧ { s with memory := s.memory.alloc }.cntlrAdd ⟨nr, nr, s.memory.allocated⟩ (o.added nr)
          = ({ s with memory := s.memory.alloc }, ret) := by
      unfold State.cntlrAdd
      cases hget : s.cntlrGet nr with
      | some c =>
          use Hdf.failure, by decide
          apply if_pos
          show (s.cntlrGet nr).isSome
          rw [hget]
          rfl
      | none =>
          have hadded : o.added nr ≠ Hdf.success := fun hadded =>
            h ⟨Bool.not_eq_false _ ▸ halloced, hadded, hget⟩
          use o.added nr, hadded
          have hfree : ¬({ s with memory := s.memory.alloc }.cntlrGet nr).isSome := by
            show ¬(s.cntlrGet nr).isSome
            rw [hget]
            exact Bool.false_ne_true
          rw [if_neg hfree, if_pos hadded]
    obtain ⟨ret, hret, hadd⟩ := hadd
    use s.memory.alloc.free s.memory.allocated, ret, hret
    rw [hadd]
    apply if_pos hret

/-- The references are as they were before the init; each controller is one for an adapter on the
bus. -/
structure State.Inv (bus : Bus) (s : State) : Prop where
  single : (s.cntlrs.map Cntlr.busId).Nodup
  memory : s.memory.Holds (s.cntlrs.map Cntlr.allocation)
  onBus : ∀ c ∈ s.cntlrs, c.busId ∈ adapters bus.devices
  held : s.held = fun _ => 0
  refs : s.refs = s.base

theorem State.inv_init (bus : Bus) (refs : Nat → Int) :
  (State.init refs).Inv bus
  where
  single := List.nodup_nil
  memory := Ledger.holds_empty
  onBus _ hc := nomatch hc
  held := rfl
  refs := rfl

theorem cntlrGet_eq_none :
  s.cntlrGet nr = none ↔ nr ∉ s.cntlrs.map Cntlr.busId
  := by
  unfold State.cntlrGet
  rw [List.find?_eq_none, List.mem_map, not_exists]
  apply forall_congr'
  intro c
  rw [not_and, decide_eq_true_eq]

theorem State.Inv.add (h : s.Inv bus) (hget : s.cntlrGet nr = none)
    (hbus : nr ∈ adapters bus.devices) :
  (s.add nr).Inv bus
  where
  single := by
    unfold State.add
    rw [List.map_append]
    apply h.single.append (List.nodup_singleton _)
    apply List.disjoint_singleton.mpr
    apply cntlrGet_eq_none.mp hget
  memory := by
    unfold State.add
    rw [List.map_append]
    apply h.memory.alloc
  onBus c hc := by
    obtain hc | hc := List.mem_append.mp hc
    · apply h.onBus c hc
    · rw [List.mem_singleton.mp hc]
      apply hbus
  held := h.held
  refs := h.refs

/-- If each controller can be added, each is. -/
theorem State.Inv.probes
    (h : s.Inv bus) (hbus : ∀ n ∈ adapters ds, n ∈ adapters bus.devices)
    (hnodup : (adapters ds).Nodup) (hall : ∀ n ∈ adapters ds, o.Succeeds s n) :
  (s.forEachDev (State.linuxI2cProbe o) ds).1.Inv bus
    ∧ ∀ n, ((s.forEachDev (State.linuxI2cProbe o) ds).1.cntlrGet n).isSome
      ↔ (s.cntlrGet n).isSome ∨ n ∈ adapters ds
  := by
  induction ds generalizing s with
  | nil =>
      use h
      intro n
      simp [State.forEachDev, adapters]
  | cons d ds ih =>
      cases d with
      | other => apply ih h hbus hnodup hall
      | adapter nr =>
          have hsucceeds := hall nr (mem_adapters_cons.mpr (.inl rfl))
          obtain ⟨hnr, hnodup⟩ := nodup_adapters_cons hnodup
          have hrest : ∀ n ∈ adapters ds, o.Succeeds (s.add nr) n := by
            intro n hn
            have hne : n ≠ nr := by
              rintro rfl
              apply hnr hn
            apply (Outcomes.succeeds_add_of_ne hne).mpr
            apply hall n (mem_adapters_cons.mpr (.inr hn))
          have hadd := h.add hsucceeds.2.2 (hbus nr (mem_adapters_cons.mpr (.inl rfl)))
          obtain ⟨hinv, hget⟩ := ih hadd (fun n hn => hbus n (mem_adapters_cons.mpr (.inr hn)))
            hnodup hrest
          unfold State.forEachDev
          rw [State.probe_succeeds hsucceeds]
          use hinv
          intro n
          rw [mem_adapters_cons]
          apply (hget n).trans
          by_cases hn : n = nr
          · subst hn
            simp [cntlrGet_add_self hsucceeds.2.2]
          · have hne : Device.adapter nr ≠ .adapter n := fun heq => hn (Device.adapter.inj heq).symm
            rw [cntlrGet_add_of_ne hn, or_iff_right hne]

/-- If a controller cannot be added, an adapter is put that was not got. -/
theorem State.probes_fail
    (hnodup : (adapters ds).Nodup) (hsome : ∃ n ∈ adapters ds, ¬o.Succeeds s n) :
  ∃ n, (s.forEachDev (State.linuxI2cProbe o) ds).1.held n = s.held n - 1
  := by
  induction ds generalizing s with
  | nil =>
      obtain ⟨n, hn, -⟩ := hsome
      cases hn
  | cons d ds ih =>
      cases d with
      | other => apply ih hnodup hsome
      | adapter nr =>
          obtain ⟨hnr, hnodup⟩ := nodup_adapters_cons hnodup
          unfold State.forEachDev
          by_cases hsucceeds : o.Succeeds s nr
          · rw [State.probe_succeeds hsucceeds]
            obtain ⟨n, hn, hfails⟩ := hsome
            have hne : n ≠ nr := by
              rintro rfl
              apply hfails hsucceeds
            have hn : n ∈ adapters ds :=
              (mem_adapters_cons.mp hn).resolve_left fun heq => hne (Device.adapter.inj heq).symm
            apply ih hnodup ⟨n, hn, mt (Outcomes.succeeds_add_of_ne hne).mp hfails⟩
          · obtain ⟨m, ret, hret, hprobe⟩ := State.probe_fails hsucceeds
            use nr
            rw [hprobe]
            show (if ret ≠ Hdf.success then _ else _ : State × Int).1.held nr = _
            rw [if_pos hret]
            apply Function.update_self

/-! ### A release -/

/-- A removal takes no reference. -/
theorem State.held_remove_le (s : State) (d : Device) (n : Nat) :
  (s.linuxI2cRemove (some d)).1.held n ≤ s.held n
  := by
  cases d with
  | other => apply Int.le_refl
  | adapter nr =>
      rw [State.remove_adapter]
      cases s.cntlrGet nr with
      | none => apply Int.le_refl
      | some c =>
          show Function.update s.held nr (s.held nr - 1) n ≤ s.held n
          by_cases hn : n = nr
          · subst hn
            rw [Function.update_self]
            apply Int.sub_le_self _ Int.one_nonneg
          · apply Int.le_of_eq
            rw [Function.update_of_ne hn]

theorem State.forEachDev_remove_cons (s : State) (d : Device) (ds : List Device) :
  s.forEachDev State.linuxI2cRemove (d :: ds)
    = (s.linuxI2cRemove (some d)).1.forEachDev State.linuxI2cRemove ds
  := by
  have hret : (s.linuxI2cRemove (some d)).2 = Hdf.success := by
    cases d with
    | other => rfl
    | adapter nr =>
        rw [State.remove_adapter]
        cases s.cntlrGet nr with
        | none => rfl
        | some c => rfl
  show (if (s.linuxI2cRemove (some d)).2 ≠ Hdf.success then _ else _) = _
  rw [if_neg (not_not.mpr hret)]
  rfl

theorem State.held_removes_le (s : State) (ds : List Device) (n : Nat) :
  (s.forEachDev State.linuxI2cRemove ds).1.held n ≤ s.held n
  := by
  induction ds generalizing s with
  | nil => apply Int.le_refl
  | cons d ds ih =>
      rw [State.forEachDev_remove_cons]
      apply Int.le_trans (ih _) (s.held_remove_le d n)

/-- Where no adapter has a controller, a release does nothing. -/
theorem State.removes_none (hnone : ∀ n ∈ adapters ds, s.cntlrGet n = none) :
  (s.forEachDev State.linuxI2cRemove ds).1 = s
  := by
  induction ds with
  | nil => rfl
  | cons d ds ih =>
      have hremove : (s.linuxI2cRemove (some d)).1 = s := by
        cases d with
        | other => rfl
        | adapter nr =>
            rw [State.remove_adapter, hnone nr (mem_adapters_cons.mpr (.inl rfl))]
      rw [State.forEachDev_remove_cons, hremove]
      apply ih fun n hn => hnone n (mem_adapters_cons.mpr (.inr hn))

/-- Where an adapter has a controller, a release puts an adapter. -/
theorem State.removes_some (hsome : ∃ n ∈ adapters ds, s.cntlrGet n ≠ none) :
  ∃ n, (s.forEachDev State.linuxI2cRemove ds).1.held n < s.held n
  := by
  induction ds with
  | nil =>
      obtain ⟨n, hn, -⟩ := hsome
      cases hn
  | cons d ds ih =>
      rw [State.forEachDev_remove_cons]
      obtain ⟨n, hn, hget⟩ := hsome
      cases d with
      | other => apply ih ⟨n, hn, hget⟩
      | adapter nr =>
          cases hnr : s.cntlrGet nr with
          | some c =>
              use nr
              apply Int.lt_of_le_of_lt (State.held_removes_le _ ds nr)
              rw [State.remove_adapter, hnr]
              show Function.update s.held nr (s.held nr - 1) nr < _
              rw [Function.update_self]
              apply Int.sub_lt_self _ Int.one_pos
          | none =>
              have hremove : (s.linuxI2cRemove (some (.adapter nr))).1 = s := by
                rw [State.remove_adapter, hnr]
              have hn : n ∈ adapters ds := by
                apply (mem_adapters_cons.mp hn).resolve_left
                rintro ⟨⟩
                apply hget hnr
              rw [hremove]
              apply ih ⟨n, hn, hget⟩

/-! ### The calls -/

/-- What is to hold after a call, if the references are as they were. -/
theorem State.Inv.neutral
    {a : Act} (h : (s.next bus a).Inv bus)
    (hadded : ∀ o, a = .init true o → ∀ nr ∈ adapters bus.devices,
      ((s.next bus a).cntlrGet nr).isSome ↔ (s.cntlrGet nr).isSome ∨ o.Succeeds s nr)
    (hremoved : a = .release true → (s.next bus a).cntlrs = []) :
  s.Neutral bus a
  where
  held nr := by
    apply Int.le_of_eq
    rw [h.held]
  single := h.single
  memory := h.memory
  added := hadded
  removed ha := ⟨hremoved ha, h.refs⟩

/-- If no adapter on the bus has a controller, there is none. -/
theorem State.Inv.cntlrs_eq_nil
    (h : s.Inv bus) (hnone : ∀ n ∈ adapters bus.devices, s.cntlrGet n = none) :
  s.cntlrs = []
  := by
  apply List.eq_nil_iff_forall_not_mem.mpr
  intro c hc
  apply cntlrGet_eq_none.mp (hnone c.busId (h.onBus c hc))
  apply List.mem_map_of_mem hc

theorem State.Inv.init_iff (h : s.Inv bus) (o : Outcomes) :
  (s.Neutral bus (.init true o) ↔ s.Spared bus (.init true o))
    ∧ (s.Spared bus (.init true o) → (s.next bus (.init true o)).Inv bus)
  := by
  have hstart : { s with base := s.refs } = s :=
    congrArg (State.mk s.cntlrs s.memory s.refs s.held) h.refs
  have hnext : s.next bus (.init true o)
      = (s.forEachDev (State.linuxI2cProbe o) bus.devices).1 := by
    unfold State.next
    rw [hstart]
  have hkeeps (hspared : s.Spared bus (.init true o)) :=
    h.probes (fun n hn => hn) bus.nodup hspared
  rw [← hnext] at hkeeps
  refine ⟨⟨fun hneutral => ?_, fun hspared => ?_⟩, fun hspared => (hkeeps hspared).1⟩
  · by_contra hfails
    unfold State.Spared at hfails
    push Not at hfails
    obtain ⟨n, hn⟩ := State.probes_fail bus.nodup hfails
    have hle := hneutral.held n
    rw [hnext, hn, h.held] at hle
    cases hle
  · obtain ⟨hinv, hget⟩ := hkeeps hspared
    apply hinv.neutral
    · rintro _ ⟨⟩ nr hnr
      apply iff_of_true
      · apply (hget nr).mpr (.inr hnr)
      · apply Or.inr (hspared nr hnr)
    · exact nofun

theorem State.Inv.release_iff (h : s.Inv bus) :
  (s.Neutral bus (.release true) ↔ s.Spared bus (.release true))
    ∧ (s.Spared bus (.release true) → (s.next bus (.release true)).Inv bus)
  := by
  have hkeeps (hspared : s.Spared bus (.release true)) : s.next bus (.release true) = s :=
    State.removes_none hspared
  refine ⟨⟨fun hneutral => ?_, fun hspared => ?_⟩, fun hspared => ?_⟩
  · by_contra hsome
    unfold State.Spared at hsome
    push Not at hsome
    obtain ⟨n, hn⟩ := State.removes_some hsome
    have hle : 0 ≤ (s.forEachDev State.linuxI2cRemove bus.devices).1.held n := hneutral.held n
    rw [h.held] at hn
    apply Int.lt_irrefl _ (Int.lt_of_le_of_lt hle hn)
  · have hnext := hkeeps hspared
    have hinv : (s.next bus (.release true)).Inv bus := by
      rw [hnext]
      apply h
    apply hinv.neutral nofun
    intro _
    rw [hnext]
    apply h.cntlrs_eq_nil hspared
  · rw [hkeeps hspared]
    apply h

/-- What a call is to establish holds exactly if it is spared the failures and the removals. -/
theorem State.Inv.call_iff (h : s.Inv bus) (a : Act) :
  (s.Neutral bus a ↔ s.Spared bus a) ∧ (s.Spared bus a → (s.next bus a).Inv bus)
  := by
  cases a with
  | init device o =>
      cases device with
      | true => apply h.init_iff
      | false => exact ⟨iff_of_true (State.Inv.neutral h nofun nofun) trivial, fun _ => h⟩
  | release device =>
      cases device with
      | true => apply h.release_iff
      | false => exact ⟨iff_of_true (State.Inv.neutral h nofun nofun) trivial, fun _ => h⟩

/-- Over any calls, the references to the adapters are left as they were and the controllers are
those of the adapters they can be added for, exactly as long as the controller of each adapter can
be added at an init and no adapter has one at a release. -/
theorem neutral_iff (bus : Bus) (refs : Nat → Int) (calls : List Act) :
  Along (State.next bus) (State.Neutral bus) (.init refs) calls
    ↔ Along (State.next bus) (State.Spared bus) (.init refs) calls
  := by
  apply along_iff (fun s a (h : s.Inv bus) => (h.call_iff a).1)
  · exact fun s a h => (h.call_iff a).2
  · apply State.inv_init

/-- An adapter on the bus, and the calls that add its controller and remove it. -/
theorem release_puts_adapter :
  ¬Along (State.next ⟨[.adapter 0], by decide⟩) (State.Neutral ⟨[.adapter 0], by decide⟩)
    (.init fun _ => 1) [.init true ⟨fun _ => true, fun _ => Hdf.success⟩, .release true]
  := by
  rintro ⟨-, h, -⟩
  exact absurd (h.held 0) (by decide)

end I2c
