import KhdfLinux.Usb.Patches

/-!
# Safe patches

`patch_safe_iff` says for every blob that was accepted, and every state of the function, when the
patches at the end of a bind are safe.  Beside what the descriptors need, no pointer to descriptors
may be left of a bind that failed: the descriptors of a speed then go into the array of a later
one, and its own array stays empty.
-/

namespace Ffs

open Bytes Exec Heap Walk

/-! ### Pointers of an earlier bind -/

/-- The array of a speed, in the chunk allocated last, stays empty, since the pointer to the array
of a later speed is set. -/
structure BindState.Skipped (speed : Speed) (func : BindState) : Prop where
  later : ∃ sp, speed.rank < sp.rank ∧ (func.descriptors sp).isSome
  empty : ∀ i, (func.descArrays (func.next - 1) speed).desc i = none

/-- The pointer to the array of a speed is set, but the array is empty. -/
structure BindState.Emptied (speed : Speed) (func : BindState) : Prop
    extends func.Skipped speed where
  pointer : func.descriptors speed = some (func.next - 1)

section Skipped

variable {c : UsbConfig} {ffs : FfsData} {s u : Heap BindState} {speed : Speed}
  {func func' : BindState}

/-- The next descriptor is not taken to be of the speed. -/
theorem BindState.Skipped.readingSpeed_ne (h : func.Skipped speed) :
  func.readingSpeed ≠ speed
  := by
  obtain ⟨sp, hrank, hsome⟩ := h.later
  unfold readingSpeed
  intro heq
  split_ifs at heq with hsuper hhigh
  · subst heq
    cases sp <;> simp only [Speed.rank] at hrank <;> omega
  · subst heq
    cases sp with
    | full => simp only [Speed.rank] at hrank; omega
    | high => simp only [Speed.rank] at hrank; omega
    | super => exact hsuper hsome
  · cases sp with
    | full => simp only [Speed.rank] at hrank; omega
    | high => exact hhigh hsome
    | super => exact hsuper hsome

/-- The arrays of descriptors, and the pointers to them. -/
def BindState.pointers (func : BindState) :
    Nat × (Nat → Speed → DescArray) × (Speed → Option Nat) :=
  (func.next, func.descArrays, func.descriptors)

/-- A property of the pointers and the arrays the walks over the descriptors keep. -/
structure PointerInvariant (P : BindState → Prop) : Prop where
  same : ∀ func func', func'.pointers = func.pointers → P func → P func'
  setDesc : ∀ func chunk i desc, P func → P (func.setDesc chunk func.readingSpeed i desc)
  setDescriptors : ∀ func sp, P func → P (func.setDescriptors sp)

theorem BindState.Skipped.congr (h : func.Skipped speed) (hsame : func'.pointers = func.pointers) :
  func'.Skipped speed
  := by
  refine ⟨?_, ?_⟩
  · rw [show func'.descriptors = func.descriptors from congrArg (fun d => d.2.2) hsame]
    apply h.later
  · rw [show func'.next = func.next from congrArg Prod.fst hsame,
      show func'.descArrays = func.descArrays from congrArg (fun d => d.2.1) hsame]
    apply h.empty

theorem BindState.Skipped.setDesc (h : func.Skipped speed) (chunk i : Nat) (desc : Option Nat) :
  (func.setDesc chunk func.readingSpeed i desc).Skipped speed
  := by
  refine ⟨h.later, fun j => ?_⟩
  rw [← h.empty j]
  by_cases hchunk : func.next - 1 = chunk
  · subst hchunk
    refine congrArg (fun array : DescArray => array.desc j) ?_
    refine (congrFun (ArraysWalked.descArrays_setDesc _ _ _ _) speed).trans ?_
    rw [Function.update_of_ne h.readingSpeed_ne.symm]
  · unfold BindState.setDesc
    dsimp only
    rw [Function.update_of_ne hchunk]

theorem BindState.Skipped.setDescriptors (h : func.Skipped speed) (sp : Speed) :
  (func.setDescriptors sp).Skipped speed
  := by
  refine ⟨?_, h.empty⟩
  obtain ⟨later, hrank, hsome⟩ := h.later
  refine ⟨later, hrank, ?_⟩
  by_cases hlater : later = sp
  · simp [BindState.setDescriptors, hlater]
  · simpa [BindState.setDescriptors, hlater] using hsome

/-- The pointer to the array is set. -/
theorem BindState.Skipped.emptied (h : func.Skipped speed) :
  (func.setDescriptors speed).Emptied speed
  := by
  exact ⟨h.setDescriptors speed, Function.update_self _ _ _⟩

theorem pointerInvariant_skipped (speed : Speed) :
  PointerInvariant (BindState.Skipped speed)
  := by
  constructor
  · exact fun _ _ hsame h => h.congr hsame
  · exact fun _ chunk i desc h => h.setDesc chunk i desc
  · exact fun _ sp h => h.setDescriptors sp

theorem pointerInvariant_emptied (speed : Speed) :
  PointerInvariant (BindState.Emptied speed)
  := by
  constructor
  · intro func func' hsame h
    refine ⟨h.congr hsame, ?_⟩
    rw [show func'.next = func.next from congrArg Prod.fst hsame,
      show func'.descriptors = func.descriptors from congrArg (fun d => d.2.2) hsame]
    apply h.pointer
  · exact fun _ chunk i desc h => ⟨h.setDesc chunk i desc, h.pointer⟩
  · intro func sp h
    refine ⟨h.setDescriptors sp, ?_⟩
    by_cases hsp : speed = sp
    · subst hsp
      exact h.emptied.pointer
    · exact (Function.update_of_ne hsp _ _).trans h.pointer

end Skipped

section Walks

variable {c : UsbConfig} {ffs : FfsData} {s u : Heap BindState} {speed : Speed}
  {P : BindState → Prop}

/-- What leaves the pointers and the arrays keeps the property. -/
theorem PointerInvariant.preserves (hP : PointerInvariant P) {α : Type} {x : BindExec α}
    (hx : Keeps (fun s : Heap BindState => s.priv.pointers) x) :
  Preserves (fun s => P s.priv) x
  := fun s hs => (hx s).mono (fun _ t ht => hP.same s.priv t.priv ht hs)
    fun _ t ht => hP.same s.priv t.priv ht hs

theorem PointerInvariant.doDescs (hP : PointerInvariant P) (c : UsbConfig) (e : Entity) :
  Preserves (fun s => P s.priv) (ffsFuncBindDoDescs c e)
  := by
  cases e with
  | interface valuep desc => exact preserves_pure _
  | string valuep desc => exact preserves_pure _
  | endpoint valuep desc => exact preserves_pure _
  | descriptor num desc =>
      intro s hs
      refine meets_step (run_look s) ?_
      have hstop : ∀ (e : Stop) (t : Heap BindState), t.priv = s.priv → P t.priv :=
        fun _ t ht => ht ▸ hs
      refine meets_bind ((keeps_deref (F := Heap.priv) _ s).mono ?_ hstop)
      intro chunk t ht
      refine meets_bind ((keeps_checkIndex (F := Heap.priv) _ _ t).mono ?_ ?_)
      rotate_left
      · exact fun e v hv => hstop e v (hv.trans ht)
      intro _ v hv
      have hset : P (v.priv.setDesc chunk s.priv.readingSpeed num desc) := by
        rw [hv.trans ht]
        exact hP.setDesc s.priv chunk num desc hs
      refine meets_step (run_update _ v) ?_
      cases desc with
      | none => exact meets_pure hset
      | some ds =>
          refine ((hP.preserves (keeps_read8 _)).bind fun type => preserves_ite ?_ ?_) _ hset
          · exact hP.preserves (keeps_bindEpDesc (fun _ _ _ _ => rfl) c _ _)
          · exact preserves_pure _

theorem PointerInvariant.bindSpeed (hP : PointerInvariant P) (c : UsbConfig) (sp : Speed)
    (count data : Nat) :
  Preserves (fun s => P s.priv) (bindSpeed c sp count data)
  := by
  have hset : Preserves (fun s => P s.priv) (update (BindState.setDescriptors sp)) :=
    fun s hs => hP.setDescriptors s.priv sp hs
  refine preserves_ite (preserves_pure _) (hset.bind fun _ => ?_)
  exact (hP.preserves keeps_look).bind fun func => preserves_ffsDoDescs (hP.doDescs c) _ _ _

/-- After the walk over the speed the pointer to its array is set. -/
theorem bindSpeed_emptied (c : UsbConfig) (count data : Nat) (hcount : count ≠ 0)
    (hs : s.priv.Skipped speed) :
  (bindSpeed c speed count data).Meets s (fun _ t => t.priv.Emptied speed) fun _ _ => True
  := by
  have hP := pointerInvariant_emptied speed
  unfold Ffs.bindSpeed
  rw [if_neg hcount]
  refine meets_step (run_update _ s) ?_
  have hrest : Preserves (fun s : Heap BindState => s.priv.Emptied speed) _ :=
    (hP.preserves keeps_look).bind fun func =>
      preserves_ffsDoDescs (hP.doDescs c) count data (u32 ((func.ffs.rawDescsLength : Int) - data))
  exact (hrest _ hs.emptied).mono (fun _ _ ht => ht) fun _ _ _ => trivial

theorem PointerInvariant.doNums (hP : PointerInvariant P) (c : UsbConfig) (count len : Nat) :
  Preserves (fun s => P s.priv) (ffsDoDescs count 0 len (ffsFuncBindDoNums c))
  := hP.preserves (keeps_ffsDoDescs (fun e =>
    (keepsSettled_ffsFuncBindDoNums c e).comp fun kept => (kept.1.1.2.1, kept.1.2.1, kept.1.2.2.1))
    _ _ _)

/-- After the walks over the descriptors the array is empty. -/
theorem bindDescs_emptied (c : UsbConfig) (hs : s.priv.Skipped speed)
    (hcount : s.priv.ffs.descsCount speed ≠ 0) :
  (bindDescs c).Meets s (fun _ t => t.priv.Emptied speed) fun _ _ => True
  := by
  have hP := pointerInvariant_emptied speed
  have hsuper : ∀ fsLen hsLen, Preserves (fun s : Heap BindState => s.priv.Emptied speed) _ :=
    fun fsLen hsLen => (hP.bindSpeed c .super s.priv.ffs.ssDescsCount (fsLen + hsLen)).bind
      fun ssLen => (hP.doNums c (u32 (s.priv.ffs.fsDescsCount + s.priv.ffs.hsDescsCount
        + s.priv.ffs.ssDescsCount)) s.priv.ffs.rawDescsLength).bind fun _ =>
          preserves_pure (fsLen, hsLen, ssLen)
  unfold bindDescs
  refine meets_step (run_look s) ?_
  cases speed with
  | full =>
      refine meets_bind ((bindSpeed_emptied c s.priv.ffs.fsDescsCount 0 hcount hs).mono ?_
        fun _ _ he => he)
      intro fsLen t ht
      have hhigh := (hP.bindSpeed c .high s.priv.ffs.hsDescsCount fsLen).bind (hsuper fsLen)
      exact (hhigh t ht).mono (fun _ _ hu => hu) fun _ _ _ => trivial
  | high =>
      have hfull := (pointerInvariant_skipped .high).bindSpeed c .full s.priv.ffs.fsDescsCount 0
      refine meets_bind ((hfull s hs).mono ?_ fun _ _ _ => trivial)
      intro fsLen t ht
      refine meets_bind ((bindSpeed_emptied c s.priv.ffs.hsDescsCount fsLen hcount ht).mono ?_
        fun _ _ he => he)
      intro hsLen u hu
      exact (hsuper fsLen hsLen u hu).mono (fun _ _ hv => hv) fun _ _ _ => trivial
  | super =>
      obtain ⟨sp, hrank, -⟩ := hs.later
      cases sp <;> simp only [Speed.rank] at hrank <;> omega

/-- A pointer of an earlier bind makes the array of a speed be skipped. -/
theorem bindStart_skipped (c : UsbConfig)
    {sp : Speed} (hrank : speed.rank < sp.rank) (hsome : (s.priv.descriptors sp).isSome) :
  (bindStart c).Meets s (fun _ t => t.priv.Skipped speed ∧ t.priv.ffs = s.priv.ffs) fun _ _ => True
  := by
  unfold bindStart
  refine meets_step (run_look s) ?_
  refine meets_guard (fun _ => trivial) fun _ => ?_
  refine meets_guard (fun _ => trivial) fun _ => ?_
  refine meets_step (run_update _ s) ?_
  refine meets_guard (fun _ => trivial) fun _ => ?_
  refine meets_step rfl ?_
  refine meets_guard (fun _ => trivial) fun _ => ?_
  refine ⟨⟨⟨sp, hrank, hsome⟩, fun i => ?_⟩, rfl⟩
  have harrays : s.priv.allocChunk.descArrays s.priv.next = fun speed =>
      ⟨if s.priv.ffs.descsCount speed = 0 then 0 else u32 (s.priv.ffs.descsCount speed + 1),
        fun _ => none⟩ := by
    apply Function.update_self _ _ _
  exact congrFun (congrArg (fun arrays => (arrays speed).desc) harrays) i

/-- All that comes before the patches leaves the array empty. -/
theorem bindPasses_emptied {lens : Nat × Nat × Nat} {sp : Speed} (hrank : speed.rank < sp.rank)
    (hsome : (s.priv.descriptors sp).isSome) (hcount : s.priv.ffs.descsCount speed ≠ 0)
    (h : (bindPasses c).run s = .ok lens u) :
  u.priv.Emptied speed ∧ u.priv.ffs = s.priv.ffs
  := by
  unfold bindPasses at h
  obtain ⟨_, r, hstart, h⟩ := run_bind_ok.mp h
  obtain ⟨hskipped, hffs⟩ := (bindStart_skipped c hrank hsome).of_ok hstart
  obtain ⟨_, t, hdescs, h⟩ := run_bind_ok.mp h
  have hemptied := (bindDescs_emptied c hskipped (hffs ▸ hcount)).of_ok hdescs
  have halloc : t.priv.allocs = r.priv.allocs := (keepsAllocs_bindDescs c r).of_ok hdescs
  obtain ⟨_, u', hos, h⟩ := run_bind_ok.mp h
  obtain ⟨-, rfl⟩ : _ ∧ u' = u := by
    cases h
    exact ⟨trivial, rfl⟩
  have hkept : u'.priv.descState = t.priv.descState :=
    (keeps_bindOsDescs (F := fun s => s.priv.descState) (fun _ _ _ _ _ _ _ _ => rfl) c _ t).of_ok
      hos
  refine ⟨(pointerInvariant_emptied speed).same t.priv u'.priv ?_ hemptied, ?_⟩
  · exact congrArg (fun d => (d.1.2.1, d.2.1, d.2.2.1)) hkept
  · rw [show u'.priv.ffs = t.priv.ffs from congrArg (fun d => d.1.1) hkept,
      show t.priv.ffs = r.priv.ffs from congrArg (fun d => d.1) halloc, hffs]

/-- The loop over the descriptors of a speed stops at an empty array. -/
theorem patchDescs_emptied (ctl data : Option Nat) {n : Nat} (hn : n ≠ 0)
    (hs : s.priv.Emptied speed) :
  (patchDescs speed ctl data n 0).Meets s (fun _ _ => False) fun _ _ => True
  := by
  obtain ⟨n, rfl⟩ := Nat.exists_eq_succ_of_ne_zero hn
  refine meets_bind ?_
  unfold descHead
  refine meets_step (run_look s) ?_
  rw [hs.pointer]
  refine meets_step rfl ?_
  by_cases hlt : 0 < (s.priv.descArrays (s.priv.next - 1) speed).size
  · refine meets_step (run_checkIndex hlt s) ?_
    rw [hs.empty 0]
    exact meets_stop trivial
  · refine meets_bind ?_
    rw [checkIndex, if_neg hlt]
    exact meets_stop trivial

/-- The patches do not come to their end. -/
theorem patchFunc_emptied (hs : s.priv.Emptied speed) (hcount : s.priv.ffs.descsCount speed ≠ 0) :
  patchFunc.Meets s (fun _ _ => False) fun _ _ => True
  := by
  have hP : PatchInvariant fun s => s.priv.Emptied speed :=
    ⟨fun _ _ => (pointerInvariant_emptied speed).preserves (keeps_update fun _ => rfl),
      fun _ _ => (pointerInvariant_emptied speed).preserves (keeps_write8 _ _)⟩
  have hweak : ∀ {α : Type} {x : BindExec α}, Preserves (fun s => s.priv.Emptied speed) x →
      ∀ t : Heap BindState, t.priv.Emptied speed →
        x.Meets t (fun _ u => u.priv.Emptied speed) fun _ _ => True :=
    fun hx t ht => (hx t ht).mono (fun _ _ hu => hu) fun _ _ _ => trivial
  have hloop := fun speed' ctl data n => hweak (hP.patchDescs speed' ctl data n 0)
  unfold patchFunc
  refine meets_step (run_look s) ?_
  refine meets_bind ((hweak (hP.findIntfs _ _ _) s hs).mono ?_ fun _ _ he => he)
  rintro ⟨ctl, data⟩ t ht
  cases speed with
  | full => exact meets_bind ((patchDescs_emptied ctl data hcount ht).mono (fun _ _ h => h.elim)
      fun _ _ he => he)
  | high =>
      refine meets_bind ((hloop .full ctl data _ t ht).mono ?_ fun _ _ he => he)
      intro _ u hu
      exact meets_bind ((patchDescs_emptied ctl data hcount hu).mono (fun _ _ h => h.elim)
        fun _ _ he => he)
  | super =>
      obtain ⟨sp, hrank, -⟩ := hs.later
      cases sp <;> simp only [Speed.rank] at hrank <;> omega

/-- A bind that comes to its end did not find a pointer of an earlier one in its way. -/
theorem noneAhead_of_patched {lens : Nat × Nat × Nat} {v : Heap BindState}
    (hpasses : (bindPasses c).run s = .ok lens u) (hpatch : patchFunc.run u = .ok () v) :
  s.priv.NoneAhead
  := by
  by_contra hahead
  simp only [BindState.NoneAhead, not_forall] at hahead
  obtain ⟨sp, speed, hrank, hcount, hsome⟩ := hahead
  obtain ⟨hemptied, hkept⟩ :=
    bindPasses_emptied hrank (Option.isSome_iff_ne_none.mpr hsome) hcount hpasses
  exact (patchFunc_emptied hemptied (hkept ▸ hcount)).of_ok hpatch

end Walks

/-! ### Safety -/

/-- On a blob that was accepted, when what comes before them succeeds, the patches are safe
exactly if no pointer is left of an earlier bind that makes descriptors be taken for those of a
later speed, each descriptor is as long as the loops take it to be, and the full speed has as many
interfaces with endpoints as they use. -/
theorem patch_safe_iff
    {fdget : EventfdCtxFdget} {m : Bytes} {ffs : FfsData} {t : Heap FfsData} {lay : DescLayout}
    {c : UsbConfig} {s u : Heap BindState} {lens : Nat × Nat × Nat}
    (hm : 12 ≤ m.length) (hmax : m.length < 2147483648)
    (hacc : (ffsDataGotDescs fdget m.length).run ⟨m, ffs⟩ = .ok () t)
    (hlay : Parses m t.priv.interfacesCount lay) (hffs : s.priv.ffs = t.priv)
    (hpasses : (bindPasses c).run s = .ok lens u) :
  PatchSafe u ↔ s.priv.NoneAhead ∧ (lay.raw m).Patchable
  := by
  by_cases hahead : s.priv.NoneAhead
  · have hbefore := bindPasses_beforePatches (hlay.valid hm hmax hacc) hffs hahead hpasses
    rw [hbefore.patchSafe_iff]
    exact (and_iff_right hahead).symm
  · refine iff_of_false ?_ fun h => hahead h.1
    rintro ⟨v, hv, -⟩
    exact hahead (noneAhead_of_patched hpasses hv)

/-- A V2 blob with an interface association and a CDC union descriptor, and two interfaces with an
endpoint each, of the full speed. -/
def cdcDescs : Bytes :=
  [3, 0, 0, 0, 61, 0, 0, 0, 1, 0, 0, 0, 6, 0, 0, 0,
    8, 0x0b, 0, 2, 2, 2, 0, 0,
    9, 4, 0, 0, 1, 2, 2, 0, 0, 5, 0x24, 6, 0, 1, 7, 5, 0x81, 3, 8, 0, 9,
    9, 4, 1, 0, 1, 10, 0, 0, 0, 7, 5, 0x02, 2, 64, 0, 0]

/-- The state the passes of a bind leave. -/
def passesState (c : UsbConfig) (s : Heap BindState) : Heap BindState :=
  match (bindPasses c).run s with
  | .ok _ t => t
  | .error _ t => t

theorem run_bindPasses {c : UsbConfig} {s : Heap BindState}
    (h : stopOf ((bindPasses c).run s) = none) :
  ∃ lens, (bindPasses c).run s = .ok lens (passesState c s)
  := by
  obtain ⟨lens, u, hu⟩ := stopOf_eq_none.mp h
  refine ⟨lens, ?_⟩
  rw [passesState, hu]

/-- The patches of the blob are safe. -/
theorem patch_safe_cdc :
  PatchSafe (passesState plainConfig (newFunction cdcDescs))
  := by
  have hacc : (ffsDataGotDescs (fun _ => .ok 0) cdcDescs.length).run ⟨cdcDescs, ffsDataNew⟩
      = .ok () ⟨cdcDescs, (newFunction cdcDescs).priv.ffs⟩ :=
    rfl
  have hlay : Parses cdcDescs (newFunction cdcDescs).priv.ffs.interfacesCount
      ⟨⟨1, 6, 0, 0, 0, 16⟩, [⟨16, 8⟩, ⟨24, 9⟩, ⟨33, 5⟩, ⟨38, 7⟩, ⟨45, 9⟩, ⟨54, 7⟩], [], [], []⟩ :=
    ⟨by decide +kernel, by decide +kernel, by decide +kernel, by decide +kernel, by decide +kernel,
      by decide, by decide⟩
  obtain ⟨lens, hpasses⟩ : ∃ lens, (bindPasses plainConfig).run (newFunction cdcDescs)
      = .ok lens (passesState plainConfig (newFunction cdcDescs)) :=
    run_bindPasses (by decide +kernel)
  refine (patch_safe_iff (by decide) (by decide) hacc hlay rfl hpasses).mpr ⟨?_, ?_⟩
  · exact fun _ _ _ _ => rfl
  · intro speed
    cases speed with
    | full => unfold RawDescs.Fits; decide +kernel
    | high => exact List.forall_mem_nil _
    | super => exact List.forall_mem_nil _

/-- A V2 blob with an interface association and an interface, of the high speed. -/
def highAssociationDescs : Bytes :=
  [3, 0, 0, 0, 33, 0, 0, 0, 2, 0, 0, 0, 2, 0, 0, 0,
    8, 0x0b, 0, 1, 255, 0, 0, 0, 9, 4, 0, 0, 0, 255, 0, 0, 0]

/-- A V2 blob with two interfaces that have endpoints and a union descriptor of three bytes, of the
full speed. -/
def shortUnionDescs : Bytes :=
  [3, 0, 0, 0, 51, 0, 0, 0, 1, 0, 0, 0, 5, 0, 0, 0,
    9, 4, 0, 0, 1, 255, 0, 0, 0, 7, 5, 0x81, 2, 64, 0, 0,
    9, 4, 1, 0, 1, 255, 0, 0, 0, 7, 5, 0x02, 2, 64, 0, 0,
    3, 0x24, 6]

/-- A V2 blob with an interface of the full and of the high speed. -/
def twoBareSpeedDescs : Bytes :=
  [3, 0, 0, 0, 38, 0, 0, 0, 3, 0, 0, 0, 1, 0, 0, 0, 1, 0, 0, 0,
    9, 4, 0, 0, 0, 255, 0, 0, 0, 9, 4, 0, 0, 0, 255, 0, 0, 0]

/-- The function of the last blob, after a bind that failed for want of an interface id. -/
def boundBefore : Heap BindState :=
  bindState ((ffsFuncBind noIdConfig).run (newFunction twoBareSpeedDescs))

/-- The blobs are accepted, and what comes before the patches succeeds.  The patches follow the
missing interface of the first blob, write behind the end of the second one, and follow a missing
entry of an array when the last one is bound again. -/
theorem patch_unsafe :
  AcceptedBlob highAssociationDescs ∧ AcceptedBlob shortUnionDescs ∧ AcceptedBlob twoBareSpeedDescs
    ∧ stopOf ((bindPasses plainConfig).run (newFunction highAssociationDescs)) = none
    ∧ stopOf ((bindPasses plainConfig).run (newFunction shortUnionDescs)) = none
    ∧ stopOf ((bindPasses plainConfig).run boundBefore) = none
    ∧ stopOf (patchFunc.run (passesState plainConfig (newFunction highAssociationDescs)))
      = some (.fault .nullDeref)
    ∧ stopOf (patchFunc.run (passesState plainConfig (newFunction shortUnionDescs)))
      = some (.fault .outOfBounds)
    ∧ stopOf (patchFunc.run (passesState plainConfig boundBefore)) = some (.fault .nullDeref)
    ∧ ¬PatchSafe (passesState plainConfig (newFunction highAssociationDescs))
    ∧ ¬PatchSafe (passesState plainConfig (newFunction shortUnionDescs))
    ∧ ¬PatchSafe (passesState plainConfig boundBefore)
  := by
  have hnot : ∀ {u : Heap BindState} {e : Stop}, stopOf (patchFunc.run u) = some e →
      ¬PatchSafe u := by
    rintro u e h ⟨v, hv, -⟩
    rw [hv] at h
    cases h
  have hfirst : stopOf (patchFunc.run (passesState plainConfig (newFunction highAssociationDescs)))
      = some (.fault .nullDeref) := by
    decide +kernel
  have hsecond : stopOf (patchFunc.run (passesState plainConfig (newFunction shortUnionDescs)))
      = some (.fault .outOfBounds) := by
    decide +kernel
  have hthird : stopOf (patchFunc.run (passesState plainConfig boundBefore))
      = some (.fault .nullDeref) := by
    decide +kernel
  refine ⟨⟨_, rfl⟩, ⟨_, rfl⟩, ⟨_, rfl⟩, ?_, ?_, ?_, hfirst, hsecond, hthird, hnot hfirst,
    hnot hsecond, hnot hthird⟩
  · decide +kernel
  · decide +kernel
  · decide +kernel

end Ffs
