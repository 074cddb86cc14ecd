import KhdfLinux.Usb.Descriptors

/-!
# The OS descriptor walker

`ffsDoOsDescs` walks over feature descriptors.  Each has a header and a number of
extended compatibility or extended property descriptors, which are handed one after
another to a callback; the callback says how many bytes it took.
-/

namespace Ffs

open Bytes Exec Heap

variable {π : Type}

/-- The two kinds of feature descriptors: `FFS_OS_DESC_EXT_COMPAT` and
`FFS_OS_DESC_EXT_PROP`. -/
inductive OsDescType where
  | extCompat
  | extProp
  deriving DecidableEq, Repr

/-- A callback of the walker: it is given the position of the feature header and that of
the descriptor, and the number of bytes left, and returns the number of bytes it took. -/
abbrev OsDescCallback (π : Type) := OsDescType → (h data len : Nat) → Exec (Heap π) Nat

/-! ### The fields of the feature header at `desc` -/

def osInterface (m : Bytes) (desc : Nat) : Nat := (byteAt m desc).toNat
def osDwLength (m : Bytes) (desc : Nat) : Nat := le32At m (desc + 1)
def osBcdVersion (m : Bytes) (desc : Nat) : Nat := le16At m (desc + 5)
def osWIndex (m : Bytes) (desc : Nat) : Nat := le16At m (desc + 7)
def osWCount (m : Bytes) (desc : Nat) : Nat := le16At m (desc + 9)
def osReserved (m : Bytes) (desc : Nat) : Nat := (byteAt m (desc + 10)).toNat

/-- `__ffs_do_os_desc_header`: the kind of the feature descriptor at `desc`. -/
def ffsDoOsDescHeader (desc : Nat) : Exec (Heap π) OsDescType := do
  let bcdVersion ← read16 (desc + 5)
  let wIndex ← read16 (desc + 7)
  if bcdVersion ≠ 1 then
    stop (.ret (-einval))
  else if wIndex = 4 then
    pure .extCompat
  else if wIndex = 5 then
    pure .extProp
  else
    stop (.ret (-einval))

/-- `ffs_do_single_os_desc`: hand the `featureCount` descriptors of one feature to the
callback, and return the number of bytes they take. -/
def ffsDoSingleOsDesc (data len : Nat) (type : OsDescType) (featureCount : Nat)
    (entity : OsDescCallback π) (h : Nat) : Exec (Heap π) Nat := do
  let r ← Walk.walk (fun _ data len => entity type h data len) featureCount 0 data len
  let ret := s32 ((len : Int) - r.2)
  if ret < 0 then stop (.ret ret) else pure ret.toNat

/-- One turn of the loop of `ffs_do_os_descs`: the feature descriptor at `data`. -/
def ffsDoOsDesc (entity : OsDescCallback π) (_num data len : Nat) : Exec (Heap π) Nat := do
  if len < usbOsDescHeaderSize then
    stop (.ret (-einval))
  else
    let dwLength ← read32 (data + 1)
    if len < dwLength then
      stop (.ret (-einval))
    else
      let type ← ffsDoOsDescHeader data
      let featureCount ← read16 (data + 9)
      let reserved ← read8 (data + 10)
      if type = .extCompat ∧ (255 < featureCount ∨ reserved ≠ 0) then
        stop (.ret (-einval))
      else
        let ret ← ffsDoSingleOsDesc (data + usbOsDescHeaderSize)
          (u32 ((len : Int) - usbOsDescHeaderSize)) type featureCount entity data
        pure (usbOsDescHeaderSize + ret)

/-- `ffs_do_os_descs`: handle `count` feature descriptors from `data` on, with `len` bytes
left, and return the number of bytes they take. -/
def ffsDoOsDescs (count data len : Nat) (entity : OsDescCallback π) : Exec (Heap π) Nat := do
  let r ← Walk.walk (ffsDoOsDesc entity) count 0 data len
  let ret := s32 ((len : Int) - r.2)
  if ret < 0 then stop (.ret ret) else pure ret.toNat

/-! ### What is checked -/

/-- The kind of the feature descriptor at `desc`. -/
def osKind (m : Bytes) (desc : Nat) : Option OsDescType :=
  if osBcdVersion m desc ≠ 1 then
    none
  else if osWIndex m desc = 4 then
    some .extCompat
  else if osWIndex m desc = 5 then
    some .extProp
  else
    none

/-- The kind of the feature descriptor at `desc`, and the number of descriptors that
follow its header, if the header passes the checks with `len` bytes left. -/
def osHeader (m : Bytes) (desc len : Nat) : Option (OsDescType × Nat) :=
  if len < usbOsDescHeaderSize ∨ len < osDwLength m desc then
    none
  else
    (osKind m desc).bind fun type =>
      if type = .extCompat ∧ (255 < osWCount m desc ∨ osReserved m desc ≠ 0) then
        none
      else
        some (type, osWCount m desc)

theorem osHeader_le
    {m : Bytes} {desc len : Nat} {f : OsDescType × Nat} (h : osHeader m desc len = some f) :
  usbOsDescHeaderSize ≤ len
  := by
  unfold osHeader at h
  split_ifs at h with hc
  omega

theorem osHeader_congr {m m' : Bytes} {desc len : Nat} (h : AgreeFrom desc m m') :
  osHeader m desc len = osHeader m' desc len
  := by
  have h1 : osDwLength m desc = osDwLength m' desc := h.le32At (by omega)
  have h5 : osBcdVersion m desc = osBcdVersion m' desc := h.le16At (by omega)
  have h7 : osWIndex m desc = osWIndex m' desc := h.le16At (by omega)
  have h9 : osWCount m desc = osWCount m' desc := h.le16At (by omega)
  have h10 : osReserved m desc = osReserved m' desc := by
    unfold osReserved
    rw [h.2 _ (by omega)]
  simp only [osHeader, osKind, h1, h5, h7, h9, h10]

theorem ffsDoOsDescHeader_run
    {desc : Nat} {s : Heap π} (hlen : desc + usbOsDescHeaderSize ≤ s.mem.length) :
  (ffsDoOsDescHeader desc).run s
    = match osKind s.mem desc with
      | none => .error (.ret (-einval)) s
      | some type => .ok type s
  := by
  simp only [usbOsDescHeaderSize] at hlen
  unfold ffsDoOsDescHeader osKind
  rw [EStateM.run_bind, run_read16 (by omega)]
  dsimp only
  rw [EStateM.run_bind, run_read16 (by omega)]
  change EStateM.run (if osBcdVersion s.mem desc ≠ 1 then _ else if osWIndex s.mem desc = 4 then _
    else if osWIndex s.mem desc = 5 then _ else _) s = _
  split_ifs
  · rfl
  · rfl
  · rfl
  · rfl

/-- A turn of the loop fails where `osHeader` has no value, and otherwise hands the
descriptors of the feature to the callback. -/
theorem ffsDoOsDesc_run
    {entity : OsDescCallback π} {num data len : Nat} {s : Heap π}
    (hlen : data + len ≤ s.mem.length) :
  (ffsDoOsDesc entity num data len).run s
    = match osHeader s.mem data len with
      | none => .error (.ret (-einval)) s
      | some (type, count) =>
          (do
            let ret ← ffsDoSingleOsDesc (data + usbOsDescHeaderSize)
              (u32 ((len : Int) - usbOsDescHeaderSize)) type count entity data
            pure (usbOsDescHeaderSize + ret)).run s
  := by
  unfold ffsDoOsDesc osHeader
  by_cases h11 : len < usbOsDescHeaderSize
  · simp [h11]
  have hb : data + usbOsDescHeaderSize ≤ s.mem.length := by omega
  have hb11 : data + 11 ≤ s.mem.length := hb
  simp only [h11, if_false, false_or]
  rw [EStateM.run_bind, run_read32 (by omega)]
  change EStateM.run (if len < osDwLength s.mem data then _ else _) s = _
  by_cases hdw : len < osDwLength s.mem data
  · simp [hdw]
  simp only [hdw, if_false]
  rw [EStateM.run_bind, ffsDoOsDescHeader_run hb]
  cases osKind s.mem data with
  | none => rfl
  | some type =>
      dsimp only [Option.bind_some]
      rw [EStateM.run_bind, run_read16 (by omega)]
      dsimp only
      rw [EStateM.run_bind, run_read8 (by omega)]
      have hres : byteAt s.mem (data + 10) ≠ 0 ↔ osReserved s.mem data ≠ 0 := by
        rw [osReserved, Ne, Ne, ← UInt8.toNat_inj]
        rfl
      dsimp only
      simp only [hres]
      rw [show le16At s.mem (data + 9) = osWCount s.mem data from rfl]
      by_cases hbad : type = .extCompat ∧ (255 < osWCount s.mem data ∨ osReserved s.mem data ≠ 0)
      · simp only [hbad]
        rfl
      · simp only [hbad, if_false]

/-- How both loops end: with the number of bytes the walk has taken. -/
theorem run_taken_ok
    {σ : Type} {x : Exec σ (Nat × Nat)} {len n : Nat} {s t : σ}
    (hx : ∀ d l t, x.run s = .ok (d, l) t → l ≤ len) (hmax : len < 2147483648) :
  (do
      let r ← x
      let ret := s32 ((len : Int) - r.2)
      if ret < 0 then stop (.ret ret) else pure ret.toNat : Exec σ Nat).run s = .ok n t
    ↔ ∃ d l, x.run s = .ok (d, l) t ∧ n = len - l
  := by
  rw [run_bind_ok]
  constructor
  · rintro ⟨⟨d, l⟩, u, hrun, hrest⟩
    rw [s32_sub (hx _ _ _ hrun) hmax] at hrest
    cases hrest
    exact ⟨d, l, hrun, rfl⟩
  · rintro ⟨d, l, hrun, rfl⟩
    use (d, l), t, hrun
    rw [s32_sub (hx _ _ _ hrun) hmax]
    rfl

theorem keeps_ffsDoOsDescHeader {τ : Type} {F : Heap π → τ} (desc : Nat) :
  Keeps F (ffsDoOsDescHeader desc)
  := by
  refine (keeps_read16 _).bind fun version => (keeps_read16 _).bind fun index => ?_
  refine keeps_ite (keeps_stop _) (keeps_ite (keeps_pure _) ?_)
  apply keeps_ite (keeps_pure _) (keeps_stop _)

/-- What the callback leaves alone, the walk over OS descriptors leaves alone. -/
theorem keeps_ffsDoOsDescs
    {τ : Type} {F : Heap π → τ} {entity : OsDescCallback π}
    (h : ∀ type header data len, Keeps F (entity type header data len))
    (count data len : Nat) :
  Keeps F (ffsDoOsDescs count data len entity)
  := by
  have hsingle : ∀ data len type count header, Keeps F
      (ffsDoSingleOsDesc data len type count entity header) := by
    intro data len type count header
    refine (Walk.keeps_walk (fun _ data len => h type header data len) count 0 data len).bind ?_
    exact fun r => keeps_ite (keeps_stop _) (keeps_pure _)
  have hitem : ∀ num data len,
      Keeps F (ffsDoOsDesc entity num data len) := by
    intro num data len
    refine keeps_ite (keeps_stop _) ((keeps_read32 _).bind fun dwLength => ?_)
    refine keeps_ite (keeps_stop _) ((keeps_ffsDoOsDescHeader _).bind fun type => ?_)
    refine (keeps_read16 _).bind fun count => (keeps_read8 _).bind fun reserved => ?_
    refine keeps_ite (keeps_stop _) ((hsingle _ _ _ _ _).bind fun ret => keeps_pure _)
  refine (Walk.keeps_walk hitem count 0 data len).bind fun r => ?_
  apply keeps_ite (keeps_stop _) (keeps_pure _)

/-- What the callback preserves unless it stops, the walk over OS descriptors preserves unless it
stops. -/
theorem ffsDoOsDescs_preserves
    {P : Heap π → Prop} {entity : OsDescCallback π} {s : Heap π}
    (h : ∀ type header data len t, P t →
      (entity type header data len).Meets t (fun _ u => P u) fun _ _ => True)
    (count data len : Nat) (hs : P s) :
  (ffsDoOsDescs count data len entity).Meets s (fun _ t => P t) fun _ _ => True
  := by
  have hread : ∀ {α : Type} {x : Exec (Heap π) α} {t : Heap π}, Keeps id x → P t →
      x.Meets t (fun _ u => P u) fun _ _ => True := by
    intro α x t hx ht
    refine (hx t).mono ?_ fun _ _ _ => trivial
    rintro _ u rfl
    exact ht
  have hsingle : ∀ data len type count header t, P t →
      (ffsDoSingleOsDesc data len type count entity header).Meets t (fun _ u => P u)
        fun _ _ => True := by
    intro data len type count header t ht
    refine meets_bind ((Walk.walk_meets (fun _ _ _ => P)
      (fun i d l t _ ht => h type header d l t ht) ht).mono ?_ fun _ _ he => he)
    intro r u hu
    exact meets_guard (fun _ => trivial) fun _ => meets_pure hu
  have hitem : ∀ num data len t, P t →
      (ffsDoOsDesc entity num data len).Meets t (fun _ u => P u) fun _ _ => True := by
    intro num data len t ht
    refine meets_guard (fun _ => trivial) fun _ => ?_
    refine meets_bind ((hread (keeps_read32 _) ht).mono (fun dwLength t ht => ?_) fun _ _ he => he)
    refine meets_guard (fun _ => trivial) fun _ => ?_
    refine meets_bind ((hread (keeps_ffsDoOsDescHeader _) ht).mono (fun type t ht => ?_)
      fun _ _ he => he)
    refine meets_bind ((hread (keeps_read16 _) ht).mono (fun count t ht => ?_) fun _ _ he => he)
    refine meets_bind ((hread (keeps_read8 _) ht).mono (fun reserved t ht => ?_) fun _ _ he => he)
    refine meets_guard (fun _ => trivial) fun _ => ?_
    exact meets_bind ((hsingle _ _ _ _ _ t ht).mono (fun _ _ hu => meets_pure hu) fun _ _ he => he)
  refine meets_bind ((Walk.walk_meets (fun _ _ _ => P) (fun i d l t _ ht => hitem i d l t ht)
    hs).mono ?_ fun _ _ he => he)
  intro r t ht
  exact meets_guard (fun _ => trivial) fun _ => meets_pure ht

end Ffs
