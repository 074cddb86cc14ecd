import KhdfLinux.Usb.BindReading

/-!
# The bounds of a bind

A bind allocates one chunk for all its arrays, with sizes that the validation has counted.
`bind_inside`: its passes stay inside the arrays if the sizes do not wrap, no pointer of an earlier
bind is in the way, and the properties that are stored have names and data and are counted.
-/

namespace Ffs

open Bytes Exec Heap Walk

/-! ### The sizes -/

/-- The chunk `chunk` has the sizes that were counted, and the cursors are not beyond the totals. -/
structure Within (ffs : FfsData) (chunk : Nat) (s : Heap BindState) : Prop where
  sizes : ∀ speed, ffs.descsCount speed ≠ 0 →
    (s.priv.descArrays chunk speed).size = ffs.descsCount speed + 1
  props : s.priv.extPropAvail ≤ ffs.msOsDescsExtPropCount
  names : s.priv.nameAvail ≤ ffs.msOsDescsExtPropNameLen
  data : s.priv.dataAvail ≤ ffs.msOsDescsExtPropDataLen

/-- The passes of a bind write nothing outside the arrays, wherever they end. -/
structure StaysInside (c : UsbConfig) (s : Heap BindState) : Prop where
  passes : (bindPasses c).Meets s (fun _ t => Within s.priv.ffs s.priv.next t)
    fun e t => e ≠ .fault .outOfBounds ∧ Within s.priv.ffs s.priv.next t

/-- The condition: no pointer of an earlier bind is in the way, no speed has the greatest number of
descriptors there is, and where the bind comes to the OS descriptors, the properties have names and
data and are counted. -/
structure Roomy (c : UsbConfig) (raw : RawDescs) (s : Heap BindState) : Prop where
  ahead : s.priv.NoneAhead
  counts : ∀ speed, s.priv.ffs.descsCount speed ≠ 4294967295
  props : c.useOsString → s.priv.ffs.interfacesCount ≠ 0 → raw.Claimable →
    raw.PropsFilled s.priv.ffs.interfacesCount ∧ raw.PropsCounted s.priv.ffs

/-- The cursors, and the sizes of the arrays. -/
def BindState.limits (func : BindState) : Nat × Nat × Nat × (Nat → Speed → Nat) :=
  (func.extPropAvail, func.nameAvail, func.dataAvail,
    fun chunk speed => (func.descArrays chunk speed).size)

theorem descBlind_limits :
  DescBlind BindState.limits
  := by
  refine ⟨fun _ _ _ _ => rfl, fun func chunk speed i desc => ?_, fun _ _ => rfl⟩
  have hsizes : (fun chunk' speed' =>
      ((func.setDesc chunk speed i desc).descArrays chunk' speed').size)
      = fun chunk' speed' => (func.descArrays chunk' speed').size := by
    funext chunk' speed'
    unfold BindState.setDesc
    dsimp only
    by_cases hchunk : chunk' = chunk
    · subst hchunk
      rw [Function.update_self]
      by_cases hspeed : speed' = speed
      · subst hspeed
        rw [Function.update_self]
      · rw [Function.update_of_ne hspeed]
    · rw [Function.update_of_ne hchunk]
  exact congrArg (fun sizes => (func.extPropAvail, func.nameAvail, func.dataAvail, sizes)) hsizes

section Bounds

variable {c : UsbConfig} {raw : RawDescs} {ffs : FfsData} {s t u : Heap BindState}

/-- The chunk that is allocated has the sizes that are computed in words of 32 bits, and the cursors
are at their starts. -/
theorem bindStart_limits (hdescs : ∃ speed, s.priv.ffs.descsCount speed ≠ 0) (halloc : c.kzalloc) :
  (bindStart c).Meets s (fun _ t => t.priv.limits = s.priv.allocChunk.limits)
    fun e t => e ≠ .fault .outOfBounds ∧ t.priv.limits = s.priv.allocChunk.limits
  := by
  unfold bindStart
  refine meets_step (run_look s) ?_
  dsimp only
  obtain ⟨speed, hcount⟩ := hdescs
  rw [if_neg, if_neg (not_not.mpr halloc)]
  · refine meets_step (run_update _ s) ?_
    refine meets_guard (fun _ => ⟨by simp, rfl⟩) fun _ => meets_step rfl ?_
    exact meets_guard (fun _ => ⟨by simp, rfl⟩) fun _ => rfl
  · rintro ⟨hfs, hhs, hss⟩
    cases speed with
    | full => exact hcount hfs
    | high => exact hcount hhs
    | super => exact hcount hss

/-- The size of an array in the chunk that is allocated. -/
theorem size_allocChunk (func : BindState) (speed : Speed) :
  (func.allocChunk.descArrays func.next speed).size
    = if func.ffs.descsCount speed = 0 then 0 else u32 (func.ffs.descsCount speed + 1)
  := by
  show (Function.update func.descArrays func.next _ func.next speed).size = _
  rw [Function.update_self]

/-- The sizes are those that were counted exactly if they do not wrap. -/
theorem size_eq_iff (hraw : raw.Valid ffs) {speed : Speed} (hcount : ffs.descsCount speed ≠ 0) :
  (if ffs.descsCount speed = 0 then 0 else u32 (ffs.descsCount speed + 1))
      = ffs.descsCount speed + 1
    ↔ ffs.descsCount speed ≠ 4294967295
  := by
  have hmax := hraw.counts speed
  rw [if_neg hcount]
  unfold u32
  omega

/-- Where the limits are those of the chunk that was allocated, and the sizes do not wrap, nothing
was written outside. -/
theorem within_of_limits (hraw : raw.Valid s.priv.ffs)
    (hcounts : ∀ speed, s.priv.ffs.descsCount speed ≠ 4294967295)
    (h : t.priv.limits = s.priv.allocChunk.limits) :
  Within s.priv.ffs s.priv.next t
  := by
  obtain ⟨hprops, hrest⟩ := Prod.ext_iff.mp h
  obtain ⟨hnames, hrest⟩ := Prod.ext_iff.mp hrest
  obtain ⟨hdata, hsizes⟩ := Prod.ext_iff.mp hrest
  refine ⟨fun speed hcount => ?_, hprops.trans_le (Nat.zero_le _), hnames.trans_le (Nat.zero_le _),
    hdata.trans_le (Nat.zero_le _)⟩
  have hsize := congrFun (congrFun hsizes s.priv.next) speed
  exact hsize.trans ((size_allocChunk s.priv speed).trans
    ((size_eq_iff hraw hcount).mpr (hcounts speed)))

/-- The passes leave the sizes of the arrays. -/
theorem bindPasses_sizes (hdescs : ∃ speed, s.priv.ffs.descsCount speed ≠ 0) (halloc : c.kzalloc) :
  (bindPasses c).Meets s
    (fun _ t => t.priv.limits.2.2.2 = s.priv.allocChunk.limits.2.2.2)
    fun _ t => t.priv.limits.2.2.2 = s.priv.allocChunk.limits.2.2.2
  := by
  unfold bindPasses
  refine meets_bind ((bindStart_limits hdescs halloc).mono ?_
    fun _ _ ⟨_, he⟩ => congrArg (·.2.2.2) he)
  intro _ r hr
  have hsame : r.priv.limits.2.2.2 = s.priv.allocChunk.limits.2.2.2 := congrArg (·.2.2.2) hr
  have hdescsKept := (keeps_bindDescs descBlind_limits (fun _ _ _ => rfl) c).comp (·.2.2.2)
  refine meets_bind ((hdescsKept r).mono ?_ fun _ _ ht => ht.trans hsame)
  rintro ⟨fsLen, hsLen, ssLen⟩ t ht
  have hosKept := keeps_bindOsDescs (F := fun s : Heap BindState => s.priv.limits.2.2.2)
    (fun _ _ _ _ _ _ _ _ => rfl) c (fsLen + hsLen + ssLen) t
  refine meets_bind (hosKept.mono ?_ fun _ _ hu => hu.trans (ht.trans hsame))
  intro _ u hu
  exact hu.trans (ht.trans hsame)

/-! ### The OS descriptors -/

/-- Without OS strings, the pass over OS descriptors stores nothing. -/
theorem bindOsDescs_skipped (hos : ¬c.useOsString) (data : Nat) (t : Heap BindState) :
  (bindOsDescs c data).Meets t (fun _ u => u.priv.limits = t.priv.limits) fun _ _ => False
  := by
  unfold bindOsDescs
  refine meets_step (run_look t) ?_
  rw [if_neg hos]
  exact rfl

/-- The properties that were stored are inside their arrays. -/
theorem OsNoted.within {m : Bytes} {chunk : Nat} (h : OsNoted ffs m
      ((raw.entries ffs.interfacesCount).map raw.osCall) u)
    (hm : raw.OsCopied ffs.interfacesCount m) (hraw : raw.Valid ffs)
    (hfilled : raw.PropsFilled ffs.interfacesCount)
    (hsizes : ∀ speed, ffs.descsCount speed ≠ 0 →
      (u.priv.descArrays chunk speed).size = ffs.descsCount speed + 1) :
  Within ffs chunk u
  := by
  obtain ⟨hnames, hdata⟩ := h.room (hm.filled_calls hraw hfilled)
  exact ⟨hsizes, h.propAvail.trans_le h.count, hnames, hdata⟩

/-- The pass over OS descriptors stays inside the arrays, if the properties have names and data and
are counted. -/
theorem bindOsDescs_within {chunk : Nat} (ht : DescsBound raw ffs t) (hraw : raw.Valid ffs)
    (hwithin : Within ffs chunk t)
    (hprops : c.useOsString → raw.PropsFilled ffs.interfacesCount ∧ raw.PropsCounted ffs) :
  (bindOsDescs c raw.osAt).Meets t (fun _ u => Within ffs chunk u) fun _ _ => False
  := by
  by_cases hos : c.useOsString
  · obtain ⟨hfilled, hcounted⟩ := hprops hos
    have hcopied := ht.osCopied hraw
    have hsizes := keeps_bindOsDescs (F := fun s : Heap BindState => s.priv.descArrays)
      (fun _ _ _ _ _ _ _ _ => rfl) c raw.osAt t
    refine ((bindOsDescs_taken ht.noted hcopied hraw fun _ => hfilled).and hsizes).mono ?_
      fun _ _ ⟨⟨_, _, hno⟩, _⟩ => hno hcounted
    rintro _ u ⟨hnoted, hsame⟩
    refine (hnoted hos).within hcopied hraw hfilled fun speed hcount => ?_
    rw [show u.priv.descArrays = t.priv.descArrays from hsame]
    exact hwithin.sizes speed hcount
  · refine (bindOsDescs_skipped hos raw.osAt t).mono ?_ fun _ _ he => he
    intro _ u hu
    obtain ⟨hcursor, hrest⟩ := Prod.ext_iff.mp hu
    obtain ⟨hnames, hrest⟩ := Prod.ext_iff.mp hrest
    obtain ⟨hdata, hsizes⟩ := Prod.ext_iff.mp hrest
    exact ⟨fun speed hcount => (congrFun (congrFun hsizes chunk) speed).trans
      (hwithin.sizes speed hcount), hcursor.trans_le hwithin.props, hnames.trans_le hwithin.names,
      hdata.trans_le hwithin.data⟩

/-! ### The bind -/

/-- A bind that has room stays inside. -/
theorem Roomy.staysInside (hraw : raw.Valid s.priv.ffs)
    (hdescs : ∃ speed, s.priv.ffs.descsCount speed ≠ 0) (halloc : c.kzalloc)
    (h : Roomy c raw s) :
  StaysInside c s
  := by
  constructor
  unfold bindPasses
  refine meets_bind (((bindStart_meets hraw rfl h.ahead).and (bindStart_limits hdescs halloc)).mono
    ?_ fun _ _ ⟨_, hne, hlimits⟩ => ⟨hne, within_of_limits hraw h.counts hlimits⟩)
  rintro _ r ⟨⟨hstart, hr, hgiven⟩, hlimits⟩
  refine meets_bind (((bindDescs_meets hraw hr hgiven).and
    (keeps_bindDescs descBlind_limits (fun _ _ _ => rfl) c r)).mono ?_ ?_)
  · rintro ⟨fsLen, hsLen, ssLen⟩ t ⟨⟨hlens, -, ht⟩, hsame⟩
    obtain ⟨rfl, rfl, rfl⟩ : fsLen = total (raw.descs .full) ∧ hsLen = total (raw.descs .high)
        ∧ ssLen = total (raw.descs .super) := by
      simpa using hlens
    have hinterfaces : s.priv.ffs.interfacesCount ≠ 0 := fun hzero =>
      hstart (.inr (.inr hzero))
    have hwithin := within_of_limits hraw h.counts (hsame.trans hlimits)
    refine meets_bind ((bindOsDescs_within ht hraw hwithin fun hos =>
      h.props hos hinterfaces (ht.claimable hraw)).mono ?_ fun _ _ he => he.elim)
    exact fun _ _ hu => hu
  · rintro e t ⟨hstop, hsame⟩
    refine ⟨?_, within_of_limits hraw h.counts (hsame.trans hlimits)⟩
    rintro rfl
    obtain ⟨speed, hcount⟩ := hstop
    exact h.counts speed hcount

/-- The sizes of a bind that stays inside do not wrap. -/
theorem StaysInside.counts (hraw : raw.Valid s.priv.ffs)
    (hdescs : ∃ speed, s.priv.ffs.descsCount speed ≠ 0) (halloc : c.kzalloc)
    (h : StaysInside c s) (speed : Speed) :
  s.priv.ffs.descsCount speed ≠ 4294967295
  := by
  by_cases hcount : s.priv.ffs.descsCount speed = 0
  · rw [hcount]
    decide
  have hend : ∃ t, Within s.priv.ffs s.priv.next t
      ∧ t.priv.limits.2.2.2 = s.priv.allocChunk.limits.2.2.2 := by
    have hboth := h.passes.and (bindPasses_sizes hdescs halloc)
    cases hrun : (bindPasses c).run s with
    | ok lens t => exact ⟨t, hboth.of_ok hrun⟩
    | error e t =>
        obtain ⟨⟨-, hwithin⟩, hsame⟩ := hboth.of_error hrun
        exact ⟨t, hwithin, hsame⟩
  obtain ⟨t, hwithin, hsame⟩ := hend
  have hsize : (t.priv.descArrays s.priv.next speed).size
      = (s.priv.allocChunk.descArrays s.priv.next speed).size :=
    congrFun (congrFun hsame s.priv.next) speed
  rw [hwithin.sizes speed hcount, size_allocChunk] at hsize
  exact (size_eq_iff hraw hcount).mp hsize.symm

/-- The properties of a bind that stays inside are counted, if the bind comes to them and they have
names and data. -/
theorem StaysInside.counted (hraw : raw.Valid s.priv.ffs) (hc : c.Obliging)
    (hdescs : ∃ speed, s.priv.ffs.descsCount speed ≠ 0) (halloc : c.kzalloc)
    (hahead : s.priv.NoneAhead) (h : StaysInside c s) (hos : c.useOsString)
    (hinterfaces : s.priv.ffs.interfacesCount ≠ 0) (hclaimable : raw.Claimable)
    (hfilled : raw.PropsFilled s.priv.ffs.interfacesCount) :
  raw.PropsCounted s.priv.ffs
  := by
  have hcounts := h.counts hraw hdescs halloc
  obtain ⟨t, ht, hpasses⟩ := hclaimable.run_bindPasses hraw rfl hahead hc halloc hdescs hinterfaces
    hcounts
  have htaken := bindOsDescs_taken (c := c) ht.noted (ht.osCopied hraw) hraw fun _ => hfilled
  cases hrun : (bindOsDescs c raw.osAt).run t with
  | ok _ u => exact (htaken.of_ok hrun hos).counted (ht.osCopied hraw) hraw hfilled
  | error e u =>
      obtain ⟨rfl, -⟩ := htaken.of_error hrun
      rw [EStateM.run_bind, hrun] at hpasses
      exact absurd rfl (h.passes.of_error hpasses).1

end Bounds

/-- The room of a bind of a function that was never bound. -/
theorem roomy_bindNew {c : UsbConfig} {raw : RawDescs} {ffs : FfsData}
    (hcounts : ∀ speed, ffs.descsCount speed ≠ 4294967295)
    (hprops : c.useOsString → raw.PropsFilled ffs.interfacesCount ∧ raw.PropsCounted ffs) :
  Roomy c raw (bindNew ffs)
  := ⟨noneAhead_bindNew ffs, hcounts, fun hos _ _ => hprops hos⟩

/-- A V2 blob with an interface of the full speed and two properties.  The first has no data, and
the data of the second have the form of a property with data of 200 bytes. -/
def overflowDescs : Bytes :=
  [3, 0, 0, 0, 90, 0, 0, 0, 9, 0, 0, 0, 1, 0, 0, 0, 1, 0, 0, 0,
    9, 4, 0, 0, 0, 255, 0, 0, 0,
    0, 61, 0, 0, 0, 1, 0, 5, 0, 2, 0,
    16, 0, 0, 0, 1, 0, 0, 0, 2, 0, 97, 98, 0, 0, 0, 0,
    34, 0, 0, 0, 1, 0, 0, 0, 2, 0, 97, 98, 18, 0, 0, 0,
    0, 0, 0, 0, 0, 0, 1, 0, 0, 0, 2, 0, 97, 97, 200, 0, 0, 0]

end Ffs
