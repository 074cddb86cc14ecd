import KhdfLinux.Lib.Walk
import KhdfLinux.Usb.Uapi

/-!
# The descriptor walker

`ffsDoDescs` walks over the USB descriptors of one speed and `ffsDoSingleDesc` checks one
descriptor; both report what they meet to a callback.  The same walker runs when the
descriptors are validated and again, with other callbacks, when a function is bound.

What the walker checks does not depend on the callback: `descSize` is the length of the
descriptor at a position if the checks pass there, and `descEntities` lists what the
callback is told about it.
-/

namespace Ffs

open Bytes Exec Heap

variable {π : Type}

/-- What the walker reports: descriptor number `num` at `desc`, or the end of the list, with
no descriptor; an interface number, a string index or an endpoint address stored at
`valuep` in the descriptor at `desc`. -/
inductive Entity where
  | descriptor (num : Nat) (desc : Option Nat)
  | interface (valuep desc : Nat)
  | string (valuep desc : Nat)
  | endpoint (valuep desc : Nat)
  deriving DecidableEq, Repr

/-- A callback of the walker.  It stops with its negative return code. -/
abbrev EntityCallback (π : Type) := Entity → Exec (Heap π) Unit

/-- The branches of the switch over descriptor types: types a function cannot have,
interfaces, endpoints, interface associations, types of which only the length is checked,
and the types that are taken as they are. -/
inductive DescClass where
  | reserved
  | interface
  | endpoint
  | association
  | sized (size : Nat)
  | other
  deriving DecidableEq, Repr

/-- The branch a descriptor type belongs to. -/
def descClass (type : UInt8) : DescClass :=
  if type = usbDtDevice ∨ type = usbDtConfig ∨ type = usbDtString
      ∨ type = usbDtDeviceQualifier then
    .reserved
  else if type = usbDtInterface then
    .interface
  else if type = usbDtEndpoint then
    .endpoint
  else if type = hidDtHid then
    .sized hidDescriptorSize
  else if type = usbDtOtg then
    .sized usbOtgDescriptorSize
  else if type = usbDtInterfaceAssociation then
    .association
  else if type = usbDtSsEndpointComp then
    .sized usbSsEpCompSize
  else
    .other

/-- `ffs_do_single_desc`: check the descriptor at `data`, of which `len` bytes are left,
report its entities, and return its length. -/
def ffsDoSingleDesc (data len : Nat) (entity : EntityCallback π) : Exec (Heap π) Nat := do
  if len < 2 then
    stop (.ret (-einval))
  else
    let length ← UInt8.toNat <$> read8 data
    if len < length then
      stop (.ret (-einval))
    else
      let bDescriptorType ← read8 (data + 1)
      match descClass bDescriptorType with
      | .reserved => stop (.ret (-einval))
      | .interface =>
          if length ≠ usbDtInterfaceSize then
            stop (.ret (-einval))
          else
            entity (.interface (data + 2) data)
            let iInterface ← read8 (data + 8)
            if iInterface ≠ 0 then
              entity (.string (data + 8) data)
            pure length
      | .endpoint =>
          if length ≠ usbDtEndpointSize ∧ length ≠ usbDtEndpointAudioSize then
            stop (.ret (-einval))
          else
            let bEndpointAddress ← read8 (data + 2)
            if bEndpointAddress &&& usbEndpointNumberMask = 0 then
              stop (.ret (-einval))
            else
              entity (.endpoint (data + 2) data)
              pure length
      | .association =>
          if length ≠ usbInterfaceAssocSize then
            stop (.ret (-einval))
          else
            let iFunction ← read8 (data + 7)
            if iFunction ≠ 0 then
              entity (.string (data + 7) data)
            pure length
      | .sized size => if length ≠ size then stop (.ret (-einval)) else pure length
      | .other => pure length

/-- One turn of the loop of `ffs_do_descs`: report descriptor number `num`, then check
it. -/
def ffsDoDesc (entity : EntityCallback π) (num data len : Nat) : Exec (Heap π) Nat := do
  entity (.descriptor num (some data))
  ffsDoSingleDesc data len entity

/-- `ffs_do_descs`: check `count` descriptors from `data` on, with `len` bytes left, and
return the number of bytes they take. -/
def ffsDoDescs (count data len : Nat) (entity : EntityCallback π) : Exec (Heap π) Nat := do
  let r ← Walk.walk (ffsDoDesc entity) count 0 data len
  entity (.descriptor count none)
  let ret := s32 ((len : Int) - r.2)
  if ret < 0 then stop (.ret ret) else pure ret.toNat

/-! ### What is checked -/

/-- The length rule of a branch. -/
def DescClass.lengthRule (length : Nat) : DescClass → Prop
  | .reserved => False
  | .interface => length = usbDtInterfaceSize
  | .endpoint => length = usbDtEndpointSize ∨ length = usbDtEndpointAudioSize
  | .association => length = usbInterfaceAssocSize
  | .sized size => length = size
  | .other => True

instance (length : Nat) (c : DescClass) : Decidable (c.lengthRule length) := by
  cases c <;> unfold DescClass.lengthRule <;> infer_instance

/-- The rule of a descriptor, of which the first bytes are at `data`: the length fits the
type, and the number of an endpoint is not zero. -/
def DescRule (m : Bytes) (data : Nat) : Prop :=
  (descClass (byteAt m (data + 1))).lengthRule (byteAt m data).toNat
    ∧ (descClass (byteAt m (data + 1)) = .endpoint →
      byteAt m (data + 2) &&& usbEndpointNumberMask ≠ 0)

instance (m : Bytes) (data : Nat) : Decidable (DescRule m data) := by
  unfold DescRule
  infer_instance

/-- The length of the descriptor at `data` if it passes the checks of `ffs_do_single_desc`
with `len` bytes left. -/
def descSize (m : Bytes) (data len : Nat) : Option Nat :=
  if 2 ≤ len ∧ (byteAt m data).toNat ≤ len ∧ DescRule m data then
    some (byteAt m data).toNat
  else
    none

/-- The entities of the descriptor at `data`, in the order they are reported. -/
def descEntities (m : Bytes) (data : Nat) : List Entity :=
  match descClass (byteAt m (data + 1)) with
  | .interface =>
      .interface (data + 2) data ::
        if byteAt m (data + 8) ≠ 0 then [.string (data + 8) data] else []
  | .endpoint => [.endpoint (data + 2) data]
  | .association => if byteAt m (data + 7) ≠ 0 then [.string (data + 7) data] else []
  | _ => []

/-- Report a list of entities. -/
def report (entity : EntityCallback π) : List Entity → Exec (Heap π) Unit
  | [] => pure ()
  | e :: es => do
      entity e
      report entity es

theorem descSize_le {m : Bytes} {data len k : Nat} (h : descSize m data len = some k) :
  k ≤ len
  := by
  unfold descSize at h
  split at h
  · rename_i hcond
    obtain rfl := Option.some.inj h
    apply hcond.2.1
  · cases h

/-- `ffs_do_single_desc` fails without a report where `descSize` has no value, and
otherwise reports the entities of the descriptor and returns its length.  The callback may
change the descriptor while it is told an interface number, but not the string index that
is read after it. -/
theorem ffsDoSingleDesc_run
    {data len : Nat} {entity : EntityCallback π} {s : Heap π} (hlen : data + len ≤ s.mem.length)
    (hentity : ∀ s', (entity (.interface (data + 2) data)).run s = .ok () s' →
      byteAt s'.mem (data + 8) = byteAt s.mem (data + 8) ∧ s'.mem.length = s.mem.length) :
  (ffsDoSingleDesc data len entity).run s
    = match descSize s.mem data len with
      | none => .error (.ret (-einval)) s
      | some k => (do report entity (descEntities s.mem data); pure k).run s
  := by
  unfold ffsDoSingleDesc descSize
  by_cases h2 : len < 2
  · rw [if_pos h2, if_neg (by omega)]
    rfl
  rw [if_neg h2, map_eq_pure_bind, bind_assoc, EStateM.run_bind, run_read8 (by omega)]
  simp only [pure_bind]
  by_cases hle : len < (byteAt s.mem data).toNat
  · rw [if_pos hle, if_neg (by omega)]
    rfl
  rw [if_neg hle, EStateM.run_bind, run_read8 (by omega)]
  unfold DescRule descEntities
  have hle2 : 2 ≤ len := by omega
  have hle' : (byteAt s.mem data).toNat ≤ len := by omega
  simp only [hle2, hle', true_and]
  cases hc : descClass (byteAt s.mem (data + 1)) with
  | reserved => rfl
  | other => simp [DescClass.lengthRule, report]
  | sized size =>
      by_cases hl : (byteAt s.mem data).toNat = size
      · simp [DescClass.lengthRule, report, hl]
      · simp [DescClass.lengthRule, hl]
  | association =>
      by_cases hl : (byteAt s.mem data).toNat = usbInterfaceAssocSize
      · have h7 : data + 7 < s.mem.length := by
          simp only [usbInterfaceAssocSize] at hl
          omega
        by_cases h0 : byteAt s.mem (data + 7) = 0
        · simp [DescClass.lengthRule, report, hl, run_read8 h7, h0]
        · simp [DescClass.lengthRule, report, hl, run_read8 h7, h0]
      · simp [DescClass.lengthRule, hl]
  | endpoint =>
      by_cases hl : (byteAt s.mem data).toNat = usbDtEndpointSize
          ∨ (byteAt s.mem data).toNat = usbDtEndpointAudioSize
      · have h2 : data + 2 < s.mem.length := by
          simp only [usbDtEndpointSize, usbDtEndpointAudioSize] at hl
          omega
        have hn : ¬((byteAt s.mem data).toNat ≠ usbDtEndpointSize
            ∧ (byteAt s.mem data).toNat ≠ usbDtEndpointAudioSize) := by
          tauto
        by_cases h0 : byteAt s.mem (data + 2) &&& usbEndpointNumberMask = 0
        · simp [DescClass.lengthRule, hn, run_read8 h2, h0]
        · simp [DescClass.lengthRule, report, hl, hn, run_read8 h2, h0]
      · have hn : (byteAt s.mem data).toNat ≠ usbDtEndpointSize
            ∧ (byteAt s.mem data).toNat ≠ usbDtEndpointAudioSize := by
          tauto
        simp [DescClass.lengthRule, hn]
  | interface =>
      by_cases hl : (byteAt s.mem data).toNat = usbDtInterfaceSize
      · have h8 : data + 8 < s.mem.length := by
          simp only [usbDtInterfaceSize] at hl
          omega
        simp [DescClass.lengthRule, hl]
        cases hrun : (entity (.interface (data + 2) data)).run s with
        | error e t =>
          by_cases h0 : byteAt s.mem (data + 8) = 0
          · simp [h0, report, hrun]
          · simp [h0, report, hrun]
        | ok u t =>
          have hkeep := hentity t hrun
          have h8' : data + 8 < t.mem.length := by omega
          by_cases h0 : byteAt s.mem (data + 8) = 0
          · simp [run_read8 h8', hkeep.1, h0, report, hrun]
          · simp [run_read8 h8', hkeep.1, h0, report, hrun]
      · simp [DescClass.lengthRule, hl]

/-! ### Descriptors that are known -/

/-- What passes the checks passes them again, if its length and its type are the same and it is
still the descriptor of an endpoint with a number. -/
theorem descSize_of_same
    {m m' : Bytes} {d len k : Nat} (h : descSize m d len = some k)
    (hlength : byteAt m d = byteAt m' d) (htype : byteAt m (d + 1) = byteAt m' (d + 1))
    (hnumber : descClass (byteAt m (d + 1)) = .endpoint →
      byteAt m' (d + 2) &&& usbEndpointNumberMask ≠ 0) :
  descSize m' d len = some k
  := by
  unfold descSize at h ⊢
  split_ifs at h with hcond
  obtain ⟨h2, hle, hrule, -⟩ := hcond
  rw [hlength] at hle hrule h
  rw [htype] at hrule hnumber
  rw [if_pos ⟨h2, hle, hrule, hnumber⟩]
  apply h

/-! ### What the walker leaves alone -/

section Preserves

variable {P : Heap π → Prop} {entity : EntityCallback π}

/-- What the callback preserves, the check of a descriptor preserves. -/
theorem preserves_ffsDoSingleDesc (h : ∀ e, Preserves P (entity e)) (data len : Nat) :
  Preserves P (ffsDoSingleDesc data len entity)
  := by
  have hread : ∀ p, Preserves P (read8 p) := fun p => Keeps.preserves (f := id) (keeps_read8 p) P
  unfold ffsDoSingleDesc
  refine preserves_ite (preserves_stop _) ?_
  refine ((hread _).map _).bind fun length => ?_
  refine preserves_ite (preserves_stop _) ?_
  refine (hread _).bind fun type => ?_
  cases descClass type with
  | reserved => exact preserves_stop _
  | interface =>
      refine preserves_ite (preserves_stop _) ?_
      refine (h _).bind fun _ => (hread _).bind fun iInterface => ?_
      apply preserves_ite ((h _).bind fun _ => preserves_pure _) (preserves_pure _)
  | endpoint =>
      refine preserves_ite (preserves_stop _) ?_
      refine (hread _).bind fun addr => ?_
      apply preserves_ite (preserves_stop _) ((h _).bind fun _ => preserves_pure _)
  | association =>
      refine preserves_ite (preserves_stop _) ?_
      refine (hread _).bind fun iFunction => ?_
      apply preserves_ite ((h _).bind fun _ => preserves_pure _) (preserves_pure _)
  | sized size => exact preserves_ite (preserves_stop _) (preserves_pure _)
  | other => exact preserves_pure _

/-- What the callback preserves, one turn of the walker preserves. -/
theorem preserves_ffsDoDesc (h : ∀ e, Preserves P (entity e)) (num data len : Nat) :
  Preserves P (ffsDoDesc entity num data len)
  := (h _).bind fun _ => preserves_ffsDoSingleDesc h data len

/-- What the callback preserves, the walk over descriptors preserves. -/
theorem preserves_ffsDoDescs (h : ∀ e, Preserves P (entity e)) (count data len : Nat) :
  Preserves P (ffsDoDescs count data len entity)
  := by
  refine (Walk.preserves_walk (preserves_ffsDoDesc h) count 0 data len).bind fun r => ?_
  exact (h _).bind fun _ => preserves_ite (preserves_stop _) (preserves_pure _)

/-- What the callback leaves alone, the walk over descriptors leaves alone. -/
theorem keeps_ffsDoDescs
    {τ : Type} {F : Heap π → τ} (h : ∀ e, Keeps F (entity e)) (count data len : Nat) :
  Keeps F (ffsDoDescs count data len entity)
  := by
  apply keeps_iff_preserves.mpr
  intro v
  apply preserves_ffsDoDescs
  intro e
  apply keeps_iff_preserves.mp (h e) v

end Preserves

/-! ### Walks over known descriptors -/

/-- The rule for a walk over descriptors that are known, until `C` holds. -/
theorem ffsDoDescs_visits_or
    {m : Bytes} {entity : EntityCallback π} {C Q : Heap π → Prop}
    (hC : ∀ e, Preserves C (entity e)) (Inv : List Visit → Heap π → Prop)
    {count data len : Nat} {vs : List Visit} {s : Heap π}
    (hvs : Walk.visits (descSize m) count data len = some vs) (hmax : len < 2147483648)
    (hstep : ∀ us v ws t, vs = us ++ v :: ws → Inv us t →
      Meets (ffsDoDesc entity us.length v.offset (data + len - v.offset)) t
        (fun k t' => C t' ∨ k = v.size ∧ Inv (us ++ [v]) t') fun _ _ => True)
    (hend : ∀ t, Inv vs t →
      Meets (entity (.descriptor count none)) t (fun _ u => Q u) fun _ _ => True)
    (hs : Inv [] s) :
  Meets (ffsDoDescs count data len entity) s
    (fun n t => C t ∨ n = Walk.total vs ∧ Q t) fun _ _ => True
  := by
  have hsize : ∀ d l k, descSize m d l = some k → k ≤ l := fun _ _ _ => descSize_le
  have hkeep : ∀ num d l t, C t → Meets (ffsDoDesc entity num d l) t (fun _ u => C u)
      fun _ _ => True := fun num d l t ht =>
    (preserves_ffsDoDesc hC num d l t ht).mono (fun _ _ hu => hu) fun _ _ _ => trivial
  refine meets_bind
    ((Walk.walk_visits_or hsize hkeep Inv hvs (by omega) ?_ hs).mono ?_ fun _ _ he => he)
  · intro us v ws t heq ht
    rw [Nat.zero_add]
    apply hstep us v ws t heq ht
  · rintro r t (ht | ⟨rfl, ht⟩)
    · have hrest : Preserves C (do
          entity (.descriptor count none)
          let ret := s32 ((len : Int) - r.2)
          if ret < 0 then stop (.ret ret) else pure ret.toNat) :=
        (hC _).bind fun _ => preserves_ite (preserves_stop _) (preserves_pure _)
      exact (hrest t ht).mono (fun _ _ hu => .inl hu) fun _ _ _ => trivial
    · refine meets_bind ((hend t ht).mono ?_ fun _ _ he => he)
      intro _ u hu
      dsimp only
      rw [s32_taken (Walk.total_le_of_visits hsize hvs) hmax]
      exact .inr ⟨rfl, hu⟩

/-- The rule for a walk over descriptors that are known. -/
theorem ffsDoDescs_visits
    {m : Bytes} {entity : EntityCallback π} {E : Stop → Heap π → Prop} {Q : Heap π → Prop}
    (Inv : List Visit → Heap π → Prop) {count data len : Nat} {vs : List Visit} {s : Heap π}
    (hvs : Walk.visits (descSize m) count data len = some vs) (hmax : len < 2147483648)
    (hstep : ∀ us v ws t, vs = us ++ v :: ws → Inv us t →
      Meets (ffsDoDesc entity us.length v.offset (data + len - v.offset)) t
        (fun k t' => k = v.size ∧ Inv (us ++ [v]) t') E)
    (hend : ∀ t, Inv vs t → Meets (entity (.descriptor count none)) t (fun _ u => Q u) E)
    (hs : Inv [] s) :
  Meets (ffsDoDescs count data len entity) s (fun n t => n = Walk.total vs ∧ Q t) E
  := by
  have hsize : ∀ d l k, descSize m d l = some k → k ≤ l := fun _ _ _ => descSize_le
  refine meets_bind ((Walk.walk_visits hsize Inv hvs (by omega) ?_ hs).mono ?_ fun _ _ he => he)
  · intro us v ws t heq ht
    rw [Nat.zero_add]
    apply hstep us v ws t heq ht
  · rintro r t ⟨rfl, ht⟩
    refine meets_bind ((hend t ht).mono ?_ fun _ _ he => he)
    intro _ u hu
    dsimp only
    rw [s32_taken (Walk.total_le_of_visits hsize hvs) hmax]
    exact ⟨rfl, hu⟩

end Ffs
