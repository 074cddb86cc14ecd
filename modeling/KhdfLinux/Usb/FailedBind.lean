import KhdfLinux.Usb.FuncBind

/-!
# A bind that fails

`failed_bind_clean_iff`: a bind that fails leaves the function as it was, with nothing
allocated, exactly if it fails before the chunk is allocated.  Nothing that comes later frees
the chunk or clears the pointers to it.
-/

namespace Ffs

open Bytes Exec Heap

/-- The array of descriptors of a speed. -/
def BindState.array (func : BindState) (speed : Speed) : Option (Nat → Option Nat) :=
  (func.descriptors speed).map fun chunk => (func.descArrays chunk speed).desc

/-- What is seen of a bind: its code, or the fault that stops it, the arrays of descriptors and
the descriptors of the endpoints. -/
def bindOutcome (res : EStateM.Result Stop (Heap BindState) Unit) :
    Option Stop × (Speed → Option (Nat → Option Nat)) × List (Speed → Option Nat) :=
  match res with
  | .ok _ t => (none, t.priv.array, t.priv.eps.map FfsEp.descs)
  | .error e t => (some e, t.priv.array, t.priv.eps.map FfsEp.descs)

/-- A bind from the state `s` that fails with the code `ret` is clean if the code is negative, what
it allocated is freed, and every further bind does what it does from `s`. -/
structure CleanFailure (s t : Heap BindState) (ret : Int) : Prop where
  negative : ret < 0
  released : t.priv.live = s.priv.live
  repeatable : ∀ c, bindOutcome ((ffsFuncBind c).run t) = bindOutcome ((ffsFuncBind c).run s)

/-! ### Allocations -/

section Keeps

variable {τ α : Type} {F : Heap BindState → τ}

theorem keeps_deref (p : Option α) :
  Keeps F (deref p)
  := by
  cases p with
  | none => exact keeps_stop _
  | some a => exact keeps_pure _

theorem keeps_checkIndex (i size : Nat) :
  Keeps F (checkIndex i size)
  := keeps_ite (keeps_pure _) (keeps_stop _)

theorem keeps_readBytes (n p : Nat) :
  Keeps F (readBytes n p)
  := by
  induction n generalizing p with
  | zero => exact keeps_pure _
  | succ n ih => exact (keeps_read8 _).bind fun b => (ih _).bind fun bs => keeps_pure _

end Keeps

/-- The chunks, and the `ffs_data`. -/
def BindState.allocs (func : BindState) : FfsData × Nat × List Nat :=
  (func.ffs, func.next, func.live)

/-- The execution allocates and frees nothing. -/
abbrev KeepsAllocs {α : Type} (x : BindExec α) : Prop :=
  Keeps (fun s : Heap BindState => s.priv.allocs) x

theorem keepsAllocs_update {g : BindState → BindState} (h : ∀ func, (g func).allocs = func.allocs) :
  KeepsAllocs (update g)
  := keeps_update fun s => h s.priv

/-- `f` does not say anything about the endpoints of the function and of the gadget. -/
def EpBlind {τ : Type} (f : BindState → τ) : Prop :=
  ∀ func eps revmap claimed,
    f { func with eps := eps, epsRevmap := revmap, claimed := claimed } = f func

section EpBlind

variable {τ : Type} {f : BindState → τ}

theorem EpBlind.keeps (hf : EpBlind f) {g : BindState → BindState}
    (hg : ∀ func, ∃ eps revmap claimed,
      g func = { func with eps := eps, epsRevmap := revmap, claimed := claimed }) :
  Keeps (fun s => f s.priv) (update g)
  := by
  apply keeps_update
  intro s
  obtain ⟨eps, revmap, claimed, heq⟩ := hg s.priv
  dsimp only
  rw [heq]
  apply hf

theorem keeps_write16 (f : BindState → τ) (p v : Nat) :
  Keeps (fun s => f s.priv) (write16 p v)
  := (keeps_write8 _ _).bind fun _ => keeps_write8 _ _

theorem keeps_claimEp (hf : EpBlind f) (c : UsbConfig) (idx ds : Nat) :
  Keeps (fun s => f s.priv) (claimEp c idx ds)
  := by
  refine (keeps_read8 _).bind fun addr => ((keeps_read8 _).map _).bind fun length => ?_
  refine (keeps_readBytes _ _).bind fun bytes => keeps_look.bind fun func => ?_
  cases c.autoconfig func.claimed bytes with
  | none => exact keeps_stop _
  | some config =>
      refine (keeps_write8 _ _).bind fun _ => (keeps_write16 f _ _).bind fun _ => ?_
      refine (hf.keeps fun _ => ⟨_, _, _, rfl⟩).bind fun _ => keeps_ite (keeps_stop _) ?_
      refine (hf.keeps fun _ => ⟨_, _, _, rfl⟩).bind fun _ => ?_
      refine (hf.keeps fun _ => ⟨_, _, _, rfl⟩).bind fun _ => ?_
      apply keeps_look.bind fun func => keeps_ite (keeps_write8 _ _) (keeps_pure _)

theorem keeps_shareEp (f : BindState → τ) (ep : FfsEp) (ds : Nat) :
  Keeps (fun s => f s.priv) (shareEp ep ds)
  := by
  refine (keeps_deref _).bind fun desc => (keeps_read8 _).bind fun addr => ?_
  refine (keeps_write8 _ _).bind fun _ => (keeps_read16 _).bind fun size => ?_
  apply keeps_ite ((keeps_read16 _).bind fun size => keeps_write16 f _ _) (keeps_pure _)

theorem keeps_bindEpDesc (hf : EpBlind f) (c : UsbConfig) (speed : Speed) (ds : Nat) :
  Keeps (fun s => f s.priv) (bindEpDesc c speed ds)
  := by
  refine keeps_look.bind fun func => (keeps_read8 _).bind fun addr => ?_
  cases ffsEpAddr2idx func.ffs addr with
  | none => exact keeps_stop _
  | some i =>
      refine (keeps_checkIndex _ _).bind fun _ => (keeps_deref _).bind fun ep => ?_
      refine keeps_ite (keeps_stop _) ((hf.keeps fun _ => ⟨_, _, _, rfl⟩).bind fun _ => ?_)
      apply keeps_ite (keeps_shareEp f _ _) (keeps_claimEp hf c _ _)

end EpBlind

/-- `f` does not say anything about the endpoints, nor about the pointers to descriptors and those
to their arrays. -/
structure DescBlind {τ : Type} (f : BindState → τ) : Prop where
  ep : EpBlind f
  setDesc : ∀ func chunk speed i desc, f (func.setDesc chunk speed i desc) = f func
  setDescriptors : ∀ func speed, f (func.setDescriptors speed) = f func

section DescBlind

variable {τ : Type} {f : BindState → τ}

theorem keeps_ffsFuncBindDoDescs (hf : DescBlind f) (c : UsbConfig) (e : Entity) :
  Keeps (fun s => f s.priv) (ffsFuncBindDoDescs c e)
  := by
  cases e with
  | descriptor num desc =>
      refine keeps_look.bind fun func => (keeps_deref _).bind fun chunk => ?_
      refine (keeps_checkIndex _ _).bind fun _ => ?_
      refine (keeps_update fun s => hf.setDesc s.priv _ _ _ _).bind fun _ => ?_
      cases desc with
      | none => exact keeps_pure _
      | some ds =>
          refine (keeps_read8 _).bind fun type => ?_
          apply keeps_ite (keeps_bindEpDesc hf.ep c _ _) (keeps_pure _)
  | interface valuep desc => exact keeps_pure _
  | string valuep desc => exact keeps_pure _
  | endpoint valuep desc => exact keeps_pure _

theorem keeps_bindSpeed (hf : DescBlind f) (c : UsbConfig) (speed : Speed) (count data : Nat) :
  Keeps (fun s => f s.priv) (bindSpeed c speed count data)
  := by
  refine keeps_ite (keeps_pure _) ?_
  refine (keeps_update fun s => hf.setDescriptors s.priv speed).bind fun _ => ?_
  apply keeps_look.bind fun func => keeps_ffsDoDescs (keeps_ffsFuncBindDoDescs hf c) _ _ _

end DescBlind

theorem descBlind_allocs :
  DescBlind BindState.allocs
  := ⟨fun _ _ _ _ => rfl, fun _ _ _ _ _ => rfl, fun _ _ => rfl⟩

/-! ### Numbers, OS descriptors and patches -/

/-- What the walks over the descriptors set up. -/
def BindState.descState (func : BindState) :
    (FfsData × Nat × List Nat) × (Nat → Speed → DescArray) × (Speed → Option Nat) × List FfsEp :=
  (func.allocs, func.descArrays, func.descriptors, func.eps)

/-- What is settled when the endpoints are claimed. -/
def BindState.settled (func : BindState) :
    ((FfsData × Nat × List Nat) × (Nat → Speed → DescArray) × (Speed → Option Nat) × List FfsEp)
      × (Nat → Nat) × List Nat :=
  (func.descState, func.epsRevmap, func.claimed)

/-- The execution leaves what is settled when the endpoints are claimed. -/
abbrev KeepsSettled {α : Type} (x : BindExec α) : Prop :=
  Keeps (fun s : Heap BindState => s.priv.settled) x

/-- The execution leaves what the walks over the descriptors set up. -/
abbrev KeepsDescs {α : Type} (x : BindExec α) : Prop :=
  Keeps (fun s : Heap BindState => s.priv.descState) x

/-- The execution reads the copy of the descriptors only. -/
abbrev OnlyReads {α : Type} (x : BindExec α) : Prop :=
  Keeps (fun s : Heap BindState => (s.mem, s.priv.descState)) x

/-- The execution leaves the copy of the descriptors and what is settled. -/
abbrev ReadsSettled {α : Type} (x : BindExec α) : Prop :=
  Keeps (fun s : Heap BindState => (s.mem, s.priv.settled)) x

theorem keepsSettled_update {g : BindState → BindState}
    (h : ∀ func, (g func).settled = func.settled) :
  KeepsSettled (update g)
  := keeps_update fun s => h s.priv

/-- `f` does not say anything about the numbers of interfaces. -/
def NumBlind {τ : Type} (f : BindState → τ) : Prop :=
  ∀ func ids nums, f { func with ids := ids, interfacesNums := nums } = f func

theorem keeps_ffsFuncBindDoNums {τ : Type} {f : BindState → τ} (hf : NumBlind f) (c : UsbConfig)
    (e : Entity) :
  Keeps (fun s => f s.priv) (ffsFuncBindDoNums c e)
  := by
  cases e with
  | descriptor num desc => exact keeps_pure _
  | interface valuep desc =>
      refine ((keeps_read8 _).map _).bind fun idx => keeps_look.bind fun func => ?_
      refine (keeps_checkIndex _ _).bind fun _ => ?_
      have hrest : Keeps (fun s => f s.priv) (do
          let func ← look
          write8 valuep (UInt8.ofNat (u8 (func.interfacesNums idx)))) :=
        keeps_look.bind fun func => keeps_write8 _ _
      refine keeps_ite (keeps_ite (keeps_stop _) ?_) hrest
      exact (keeps_update fun s => hf s.priv _ _).bind fun _ => hrest
  | string valuep desc => exact ((keeps_read8 _).map _).bind fun value => keeps_write8 _ _
  | endpoint valuep desc =>
      refine (keeps_read8 _).bind fun type => keeps_ite ?_ (keeps_pure _)
      refine (keeps_read8 _).bind fun value => keeps_look.bind fun func => ?_
      refine (keeps_deref _).bind fun ep => keeps_ite (keeps_stop _) ?_
      exact (keeps_deref _).bind fun desc => (keeps_read8 _).bind fun v => keeps_write8 _ _

theorem keepsSettled_ffsFuncBindDoNums (c : UsbConfig) (e : Entity) :
  KeepsSettled (ffsFuncBindDoNums c e)
  := keeps_ffsFuncBindDoNums (fun _ _ _ => rfl) c e

/-- The walks over the descriptors leave what is neither about the endpoints and the pointers to
descriptors nor about the numbers of interfaces. -/
theorem keeps_bindDescs
    {τ : Type} {f : BindState → τ} (hf : DescBlind f) (hf' : NumBlind f) (c : UsbConfig) :
  Keeps (fun s => f s.priv) (bindDescs c)
  := by
  refine keeps_look.bind fun func => (keeps_bindSpeed hf c _ _ _).bind fun fsLen => ?_
  refine (keeps_bindSpeed hf c _ _ _).bind fun hsLen => ?_
  refine (keeps_bindSpeed hf c _ _ _).bind fun ssLen => ?_
  refine (keeps_ffsDoDescs (keeps_ffsFuncBindDoNums hf' c) _ _ _).bind fun _ => keeps_pure _

/-- `F` does not say anything about the items of the chunk that are for OS descriptors. -/
def OsBlind {τ : Type} (F : Heap BindState → τ) : Prop :=
  ∀ s table props extProps names data calls n,
    F ⟨s.mem, { s.priv with
      osDescTable := table
      extProps := props
      extPropAvail := extProps
      nameAvail := names
      dataAvail := data
      osCalls := calls
      osDescN := n }⟩ = F s

section OsBlind

variable {τ : Type} {F : Heap BindState → τ}

theorem OsBlind.keeps (hF : OsBlind F) {g : BindState → BindState}
    (hg : ∀ func, ∃ table props extProps names data calls n, g func = { func with
      osDescTable := table
      extProps := props
      extPropAvail := extProps
      nameAvail := names
      dataAvail := data
      osCalls := calls
      osDescN := n }) :
  Keeps F (update g)
  := by
  apply keeps_update
  intro s
  obtain ⟨table, props, extProps, names, data, calls, n, heq⟩ := hg s.priv
  rw [heq]
  apply hF

theorem keeps_ffsFuncBindDoOsDesc (hF : OsBlind F) (type : OsDescType) (h data len : Nat) :
  Keeps F (ffsFuncBindDoOsDesc type h data len)
  := by
  cases type with
  | extCompat =>
      refine ((keeps_read8 _).map _).bind fun interface => keeps_look.bind fun func => ?_
      refine (keeps_checkIndex _ _).bind fun _ => ?_
      refine (hF.keeps fun _ => ⟨_, _, _, _, _, _, _, rfl⟩).bind fun _ => ?_
      refine (keeps_readBytes _ _).bind fun id => ?_
      refine (hF.keeps fun _ => ⟨_, _, _, _, _, _, _, rfl⟩).bind fun _ => ?_
      apply keeps_pure _
  | extProp =>
      refine ((keeps_read8 _).map _).bind fun interface => keeps_look.bind fun func => ?_
      refine (keeps_checkIndex _ _).bind fun _ => ?_
      refine (hF.keeps fun _ => ⟨_, _, _, _, _, _, _, rfl⟩).bind fun _ => ?_
      refine (keeps_checkIndex _ _).bind fun _ => ?_
      refine (hF.keeps fun _ => ⟨_, _, _, _, _, _, _, rfl⟩).bind fun _ => ?_
      refine (keeps_read32 _).bind fun type => (keeps_read16 _).bind fun nameLen => ?_
      refine (keeps_read32 _).bind fun dataLen => ?_
      refine (hF.keeps fun _ => ⟨_, _, _, _, _, _, _, rfl⟩).bind fun _ => ?_
      refine keeps_ite (keeps_pure _) ((keeps_checkIndex _ _).bind fun _ => ?_)
      refine (keeps_readBytes _ _).bind fun bytes => keeps_ite (keeps_pure _) ?_
      refine (keeps_checkIndex _ _).bind fun _ => ?_
      refine (keeps_readBytes _ _).bind fun name => ?_
      exact (hF.keeps fun _ => ⟨_, _, _, _, _, _, _, rfl⟩).bind fun _ => keeps_pure _

theorem keeps_bindOsDescs (hF : OsBlind F) (c : UsbConfig) (data : Nat) :
  Keeps F (bindOsDescs c data)
  := by
  refine keeps_look.bind fun func => ?_
  have hrest : Keeps F (update fun func =>
      { func with osDescN := if c.useOsString then func.ffs.interfacesCount else 0 }) :=
    hF.keeps fun _ => ⟨_, _, _, _, _, _, _, rfl⟩
  have hcalls : ∀ type h data len,
      Keeps F (noteOsCalls ffsFuncBindDoOsDesc type h data len) := fun type h data len =>
    (keeps_ffsFuncBindDoOsDesc hF type h data len).bind fun ret =>
      (hF.keeps fun _ => ⟨_, _, _, _, _, _, _, rfl⟩).bind fun _ => keeps_pure _
  refine keeps_ite ((keeps_ffsDoOsDescs hcalls _ _ _).bind ?_) hrest
  exact fun _ => hrest

end OsBlind

theorem readsSettled_bindOsDescs (c : UsbConfig) (data : Nat) :
  ReadsSettled (bindOsDescs c data)
  := keeps_bindOsDescs (fun _ _ _ _ _ _ _ _ => rfl) c data

theorem onlyReads_bindOsDescs (c : UsbConfig) (data : Nat) :
  OnlyReads (bindOsDescs c data)
  := (readsSettled_bindOsDescs c data).comp fun kept => (kept.1, kept.2.1)

/-- What the patches preserve: it is preserved where a byte is noted and where one is written. -/
structure PatchInvariant (P : Heap BindState → Prop) : Prop where
  touch : ∀ desc k, Preserves P (touch desc k)
  write8 : ∀ p v, Preserves P (write8 p v)

namespace PatchInvariant

variable {P : Heap BindState → Prop}

/-- An execution that only reads. -/
theorem of_keeps (_ : PatchInvariant P) {α : Type} {x : BindExec α} (hx : Keeps id x) :
  Preserves P x
  := hx.preserves P

theorem getField (hP : PatchInvariant P) (desc k : Nat) :
  Preserves P (getField desc k)
  := (hP.touch desc k).bind fun _ => hP.of_keeps (keeps_read8 _)

theorem setField (hP : PatchInvariant P) (desc k : Nat) (v : UInt8) :
  Preserves P (setField desc k v)
  := (hP.touch desc k).bind fun _ => hP.write8 _ _

theorem descHead (hP : PatchInvariant P) (speed : Speed) (i : Nat) :
  Preserves P (descHead speed i)
  := by
  apply hP.of_keeps
  refine keeps_look.bind fun func => (keeps_deref _).bind fun chunk => ?_
  exact (keeps_checkIndex _ _).bind fun _ => keeps_deref _

/-- A field of an interface, if it is there, and what is done with it. -/
theorem intfField (hP : PatchInvariant P) {f : UInt8 → BindExec Unit} (p : Option Nat) (k : Nat)
    (hf : ∀ b, Preserves P (f b)) :
  Preserves P (deref p >>= fun d => Ffs.getField d k >>= f)
  := (hP.of_keeps (keeps_deref p)).bind fun d => (hP.getField d k).bind hf

theorem findIntfs (hP : PatchInvariant P) (n i : Nat) (ctl : Option Nat) :
  Preserves P (findIntfs n i ctl)
  := by
  induction n generalizing i ctl with
  | zero => exact preserves_pure _
  | succ n ih =>
      refine (hP.descHead _ _).bind fun desc => (hP.getField _ _).bind fun type => ?_
      refine preserves_ite ((hP.getField _ _).bind fun num => preserves_ite ?_ (ih _ _)) (ih _ _)
      cases ctl with
      | none => exact ih _ _
      | some ctl => exact preserves_pure _

theorem patchDesc (hP : PatchInvariant P) (ctl data : Option Nat) (desc : Nat) :
  Preserves P (patchDesc ctl data desc)
  := by
  have hset := hP.setField desc
  have hdata := hP.intfField data 2 (hset 4)
  refine (hP.getField _ _).bind fun type => preserves_ite (hP.intfField ctl 2 (hset 2)) ?_
  refine preserves_ite ((hP.getField _ _).bind fun subType => ?_) (preserves_pure _)
  refine preserves_ite hdata (preserves_ite ?_ (preserves_ite ?_ (preserves_pure _)))
  · exact hP.intfField ctl 2 fun v => (hset 3 v).bind fun _ => hdata
  · exact hP.intfField ctl 8 fun v => hset 3 (v + 1)

theorem patchDescs (hP : PatchInvariant P) (speed : Speed) (ctl data : Option Nat) (n i : Nat) :
  Preserves P (patchDescs speed ctl data n i)
  := by
  induction n generalizing i with
  | zero => exact preserves_pure _
  | succ n ih =>
      refine (hP.descHead _ _).bind fun desc => ?_
      exact (hP.patchDesc _ _ _).bind fun _ => ih _

theorem patchFunc (hP : PatchInvariant P) :
  Preserves P patchFunc
  := by
  refine (hP.of_keeps keeps_look).bind fun func => (hP.findIntfs _ _ _).bind fun r => ?_
  refine (hP.patchDescs _ _ _ _ _).bind fun _ => ?_
  exact (hP.patchDescs _ _ _ _ _).bind fun _ => hP.patchDescs _ _ _ _ _

end PatchInvariant

/-- `f` does not say anything about the bytes that were touched in patching. -/
def PatchBlind {τ : Type} (f : BindState → τ) : Prop :=
  ∀ func patched, f { func with patched := patched } = f func

/-- A value of what says nothing about the patches is preserved by them. -/
theorem PatchBlind.invariant {τ : Type} {f : BindState → τ} (hf : PatchBlind f) (v : τ) :
  PatchInvariant fun s => f s.priv = v
  where
  touch _ _ := keeps_iff_preserves.mp (keeps_update fun s => hf s.priv _) v
  write8 _ _ := keeps_iff_preserves.mp (keeps_write8 _ _) v

/-- The number of the bytes is left. -/
theorem patchInvariant_length (n : Nat) :
  PatchInvariant fun s => s.mem.length = n
  where
  touch _ _ := keeps_iff_preserves.mp (keeps_update fun _ => rfl) n
  write8 p v := by
    intro s hs
    unfold Meets
    by_cases hp : p < s.mem.length
    · rw [run_write8 v hp]
      rw [← hs]
      apply List.length_set
    · rw [show (Heap.write8 p v).run s = .error (.fault .outOfBounds) s from if_neg hp]
      apply hs

theorem keepsSettled_patchFunc :
  KeepsSettled patchFunc
  := keeps_iff_preserves.mpr fun v => (PatchBlind.invariant (fun _ _ => rfl) v).patchFunc

theorem keepsDescs_patchFunc :
  KeepsDescs patchFunc
  := keepsSettled_patchFunc.comp fun kept => kept.1

/-! ### Failures -/

/-- No speed has descriptors. -/
def FfsData.NoDescs (ffs : FfsData) : Prop :=
  ffs.fsDescsCount = 0 ∧ ffs.hsDescsCount = 0 ∧ ffs.ssDescsCount = 0

theorem keepsAllocs_bindDescs (c : UsbConfig) :
  KeepsAllocs (bindDescs c)
  := keeps_bindDescs descBlind_allocs (fun _ _ _ => rfl) c

/-- Once the chunk is allocated, it stays, whatever becomes of the start of the bind. -/
theorem bindStart_allocs (c : UsbConfig) (s : Heap BindState) :
  (bindStart c).Meets s
    (fun _ t => ¬s.priv.ffs.NoDescs ∧ c.kzalloc ∧ t.priv.live = s.priv.next :: s.priv.live)
    (fun e t => (s.priv.ffs.NoDescs ∧ e = .ret (-enotsupp) ∧ t = s)
      ∨ (¬s.priv.ffs.NoDescs ∧ ¬c.kzalloc ∧ e = .ret (-enomem) ∧ t = s)
      ∨ (¬s.priv.ffs.NoDescs ∧ c.kzalloc ∧ t.priv.live = s.priv.next :: s.priv.live))
  := by
  unfold bindStart
  refine meets_step (run_look s) ?_
  dsimp only
  by_cases hdescs : s.priv.ffs.fsDescsCount = 0 ∧ s.priv.ffs.hsDescsCount = 0
      ∧ s.priv.ffs.ssDescsCount = 0
  · rw [if_pos hdescs]
    exact meets_stop (.inl ⟨hdescs, rfl, rfl⟩)
  rw [if_neg hdescs]
  by_cases halloc : c.kzalloc
  case neg =>
    rw [if_pos halloc]
    exact meets_stop (.inr (.inl ⟨hdescs, halloc, rfl, rfl⟩))
  rw [if_neg (not_not.mpr halloc)]
  refine meets_step (run_update _ s) ?_
  refine meets_guard (fun _ => .inr (.inr ⟨hdescs, halloc, rfl⟩)) fun _ => ?_
  refine meets_bind ?_
  exact meets_guard (fun _ => .inr (.inr ⟨hdescs, halloc, rfl⟩)) fun _ => ⟨hdescs, halloc, rfl⟩

/-- Once the chunk is allocated, it stays, whatever becomes of the bind. -/
theorem ffsFuncBind_allocs (c : UsbConfig) (s : Heap BindState) :
  (ffsFuncBind c).Meets s
    (fun _ t => t.priv.live = s.priv.next :: s.priv.live)
    (fun e t => (s.priv.ffs.NoDescs ∧ e = .ret (-enotsupp) ∧ t = s)
      ∨ (¬s.priv.ffs.NoDescs ∧ ¬c.kzalloc ∧ e = .ret (-enomem) ∧ t = s)
      ∨ (¬s.priv.ffs.NoDescs ∧ c.kzalloc ∧ t.priv.live = s.priv.next :: s.priv.live))
  := by
  have hpasses : KeepsAllocs (bindDescs c >>= fun lens =>
      bindOsDescs c (lens.1 + lens.2.1 + lens.2.2) >>= fun _ => pure lens) :=
    (keepsAllocs_bindDescs c).bind fun lens =>
      ((onlyReads_bindOsDescs c _).comp fun kept => kept.2.1).bind fun _ => keeps_pure lens
  have hpatches : KeepsAllocs (patchFunc >>= fun _ =>
      update fun func => { func with bound := true }) :=
    (keepsDescs_patchFunc.comp fun kept => kept.1).bind fun _ => keepsAllocs_update fun _ => by rfl
  refine meets_bind (meets_bind ((bindStart_allocs c s).mono ?_ fun _ _ h => h))
  rintro _ t ⟨hdescs, halloc, ht⟩
  -- from here on nothing is allocated or freed
  have hlive : ∀ u : Heap BindState, u.priv.allocs = t.priv.allocs →
      u.priv.live = s.priv.next :: s.priv.live := by
    intro u hu
    exact (congrArg (fun allocs => allocs.2.2) hu).trans ht
  refine (hpasses t).mono ?_ fun _ u hu => .inr (.inr ⟨hdescs, halloc, hlive u hu⟩)
  intro _ u hu
  refine (hpatches u).mono (fun _ v hv => hlive v (hv.trans hu)) ?_
  exact fun _ v hv => .inr (.inr ⟨hdescs, halloc, hlive v (hv.trans hu)⟩)

/-- A bind that fails is clean exactly if it fails for want of descriptors or of memory for the
chunk. -/
theorem failed_bind_clean_iff {c : UsbConfig} {s t : Heap BindState} {ret : Int}
    (h : (ffsFuncBind c).run s = .error (.ret ret) t) :
  CleanFailure s t ret ↔ s.priv.ffs.NoDescs ∨ ¬c.kzalloc
  := by
  obtain ⟨hdescs, he, rfl⟩ | ⟨-, halloc, he, rfl⟩ | ⟨hdescs, halloc, hlive⟩ :=
    (ffsFuncBind_allocs c s).of_error h
  · obtain rfl := Stop.ret.inj he
    exact iff_of_true ⟨by decide, rfl, fun _ => rfl⟩ (.inl hdescs)
  · obtain rfl := Stop.ret.inj he
    exact iff_of_true ⟨by decide, rfl, fun _ => rfl⟩ (.inr halloc)
  · refine iff_of_false (fun hclean => ?_) (by simp [hdescs, halloc])
    have hlength := congrArg List.length (hclean.released.symm.trans hlive)
    simp at hlength

/-! ### Examples -/

/-- A V2 blob with one class descriptor, of the full speed. -/
def noInterfaceDescs : Bytes :=
  [3, 0, 0, 0, 23, 0, 0, 0, 1, 0, 0, 0, 1, 0, 0, 0, 7, 0x24, 0, 0, 0, 0, 0]

/-- A V2 blob with an interface and an endpoint, of the full and of the high speed. -/
def twoSpeedDescs : Bytes :=
  [3, 0, 0, 0, 52, 0, 0, 0, 3, 0, 0, 0, 2, 0, 0, 0, 2, 0, 0, 0,
    9, 4, 0, 0, 1, 255, 0, 0, 0, 7, 5, 0x81, 2, 64, 0, 0,
    9, 4, 0, 0, 1, 255, 0, 0, 0, 7, 5, 0x81, 2, 0, 2, 0]

/-- A new `ffs_data` accepts the blob. -/
def AcceptedBlob (m : Bytes) : Prop :=
  ∃ t, (ffsDataGotDescs (fun _ => .ok 0) m.length).run ⟨m, ffsDataNew⟩ = .ok () t

/-- A function that was never bound, of an `ffs_data` that accepted the blob. -/
def newFunction (m : Bytes) : Heap BindState :=
  match (ffsDataGotDescs (fun _ => .ok 0) m.length).run ⟨m, ffsDataNew⟩ with
  | .ok _ t => ⟨[], bindStateNew t.priv⟩
  | .error _ t => ⟨[], bindStateNew t.priv⟩

/-- A gadget with one endpoint, and all the ids that are asked for. -/
def plainConfig : UsbConfig where
  useOsString := false
  kzalloc := true
  autoconfig _ _ := some ⟨1, 0x82, 64⟩
  allocRequest _ := true
  interfaceId n := n
  stringId _ := 1

/-- A gadget without interface ids. -/
def noIdConfig : UsbConfig := { plainConfig with interfaceId := fun _ => -enodev }

/-- The code of a bind. -/
def bindCode (res : EStateM.Result Stop (Heap BindState) Unit) : Option Int :=
  match res with
  | .ok _ _ => some 0
  | .error (.ret ret) _ => some ret
  | .error (.fault _) _ => none

/-- The state a bind leaves. -/
def bindState (res : EStateM.Result Stop (Heap BindState) Unit) : Heap BindState :=
  match res with
  | .ok _ t => t
  | .error _ t => t

/-- A bind without memory for the chunk. -/
theorem failed_bind_clean_noMemory :
  CleanFailure (newFunction twoSpeedDescs) (newFunction twoSpeedDescs) (-enomem)
  := by
  have h : (ffsFuncBind { plainConfig with kzalloc := false }).run (newFunction twoSpeedDescs)
      = .error (.ret (-enomem)) (newFunction twoSpeedDescs) := by
    have hdescs : ¬((newFunction twoSpeedDescs).priv.ffs.fsDescsCount = 0
        ∧ (newFunction twoSpeedDescs).priv.ffs.hsDescsCount = 0
        ∧ (newFunction twoSpeedDescs).priv.ffs.ssDescsCount = 0) := by
      decide +kernel
    have hstart : (bindStart { plainConfig with kzalloc := false }).run (newFunction twoSpeedDescs)
        = .error (.ret (-enomem)) (newFunction twoSpeedDescs) := by
      unfold bindStart
      rw [EStateM.run_bind, run_look]
      dsimp only
      rw [if_neg hdescs]
      rfl
    rw [ffsFuncBind, bindPasses, EStateM.run_bind, EStateM.run_bind, hstart]
  exact (failed_bind_clean_iff h).mpr (.inr (by decide))

/-- Both blobs are accepted.  The bind of the first one returns a positive code, as it has no
interfaces.  The bind of the second one fails for want of an interface id, and after that the
full-speed descriptors are taken for high-speed ones: a bind that would succeed fails. -/
theorem failed_bind_not_clean :
  AcceptedBlob noInterfaceDescs ∧ AcceptedBlob twoSpeedDescs
    ∧ bindCode ((ffsFuncBind plainConfig).run (newFunction noInterfaceDescs)) = some 34
    ∧ bindCode ((ffsFuncBind noIdConfig).run (newFunction twoSpeedDescs)) = some (-19)
    ∧ bindCode ((ffsFuncBind plainConfig).run (newFunction twoSpeedDescs)) = some 0
    ∧ bindCode ((ffsFuncBind plainConfig).run
      (bindState ((ffsFuncBind noIdConfig).run (newFunction twoSpeedDescs)))) = some (-22)
  := by
  refine ⟨⟨_, rfl⟩, ⟨_, rfl⟩, ?_, ?_, ?_, ?_⟩
  · decide +kernel
  · decide +kernel
  · decide +kernel
  · decide +kernel

end Ffs
