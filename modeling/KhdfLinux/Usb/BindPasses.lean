import KhdfLinux.Usb.NumberWalk
import KhdfLinux.Usb.FailedBind

/-!
# The passes of a bind

`bindStart_meets` and `bindDescs_meets` put the walks together: a bind of a new function, over
the raw descriptors of an accepted blob, comes to the OS descriptors with all descriptors seen,
or stops for one of the reasons of `StartStop` and `BindStop`.
-/

namespace Ffs

open Bytes Exec Heap Walk

section Start

variable {c : UsbConfig} {raw : RawDescs} {ffs : FfsData}

/-- The state a bind starts from, of a function that was never bound. -/
def bindNew (ffs : FfsData) : Heap BindState := ⟨[], bindStateNew ffs⟩

theorem noneAhead_bindNew (ffs : FfsData) :
  (bindNew ffs).priv.NoneAhead
  := fun _ _ _ _ => rfl

/-- Why a bind stops before the walks: there are no descriptors, no memory for the chunk, or no
interfaces. -/
def StartStop (c : UsbConfig) (ffs : FfsData) : Prop :=
  (∀ speed, ffs.descsCount speed = 0) ∨ ¬c.kzalloc ∨ ffs.interfacesCount = 0

theorem memS_self (n : Nat) :
  memS n n = if n = 0 then erange else 0
  := by
  simp [memS]

/-- The start of a bind, when no array of descriptors from an earlier bind is in the way. -/
theorem bindStart_meets {s : Heap BindState} (hraw : raw.Valid ffs) (hffs : s.priv.ffs = ffs)
    (hahead : s.priv.NoneAhead) :
  (bindStart c).Meets s
    (fun _ t => ¬StartStop c ffs ∧ SpeedsWalked raw ffs s.priv.next 0 (raw.before 0) t
      ∧ AddressesGiven raw c (raw.before 0) t)
    (fun e _ => (∃ code, e = .ret code) ∧ StartStop c ffs)
  := by
  unfold bindStart
  refine meets_step (run_look _) ?_
  dsimp only
  rw [hffs]
  refine meets_guard (fun hnone => ⟨⟨_, rfl⟩, .inl ?_⟩) fun hsome => ?_
  · intro speed
    cases speed with
    | full => exact hnone.1
    | high => exact hnone.2.1
    | super => exact hnone.2.2
  refine meets_guard (fun halloc => ⟨⟨_, rfl⟩, .inr (.inl halloc)⟩) fun halloc => ?_
  refine meets_step (run_update _ _) ?_
  have hraw' : memS ffs.rawDescsLength ffs.rawDescsLength = 0 := by
    rw [memS_self, if_neg]
    rw [← hraw.length]
    apply Nat.ne_of_gt hraw.nonempty
  refine meets_guard (fun hne => absurd hraw' hne) fun _ => ?_
  refine meets_step rfl ?_
  refine meets_guard (fun hne => ⟨⟨_, rfl⟩, .inr (.inr ?_)⟩) fun hinterfaces => ?_
  · by_contra h
    apply hne
    show memS (2 * ffs.interfacesCount) (2 * ffs.interfacesCount) = 0
    rw [memS_self, if_neg (by omega)]
  have heps : (List.replicate s.priv.ffs.epsCount
      (⟨none, false, fun _ => none, 255⟩ : FfsEp)).length = ffs.epsCount := by
    rw [hffs, List.length_replicate]
  refine ⟨?_, ⟨⟨hffs, ?_, ?_, heps, ?_, ?_, ?_⟩, rfl, ⟨rfl, rfl, rfl, rfl, rfl, rfl⟩, ⟨rfl, rfl⟩,
    ?_, ?_, ?_, ?_⟩, rfl, ?_, ?_⟩
  · rintro (hzero | hno | hzero)
    · exact hsome ⟨hzero .full, hzero .high, hzero .super⟩
    · apply halloc hno
    · apply hinterfaces
      show memS (2 * ffs.interfacesCount) (2 * ffs.interfacesCount) ≠ 0
      rw [hzero]
      decide
  · apply hraw.copy.mono fun p hp => .inl hp
  · intro speed v hv
    cases hv
  · intro idx ep hep
    obtain rfl := List.eq_of_mem_replicate (List.mem_of_getElem? hep)
    refine ⟨fun speed => ?_, fun speed d hd => ?_, ?_, fun h => ?_, fun h => ?_⟩
    · simp [speedEndpoints, RawDescs.before]
    · cases hd
    · simp
    · cases h
    · cases h
  · intro speed
    apply List.nodup_nil
  · intro a speed speed' v hv
    cases hv
  · intro speed hrank
    omega
  · exact fun speed sp _ hlt hne => hahead speed sp hlt (hffs ▸ hne)
  · intro speed v hv
    cases hv
  · have harrays : s.priv.allocChunk.descArrays s.priv.next = fun speed =>
        ⟨if ffs.descsCount speed = 0 then 0 else u32 (ffs.descsCount speed + 1),
          fun _ => none⟩ := by
      rw [← hffs]
      apply Function.update_self _ _ _
    show ArraysWalked ffs _ (s.priv.allocChunk.descArrays s.priv.next)
    rw [harrays]
    refine ⟨fun speed => rfl, fun speed j v hv => ?_, fun speed j _ => rfl⟩
    cases hv
  · intro a
    simp [seenAll, RawDescs.before, RawDescs.claims, speedEndpoints]
  · intro speed v hv
    cases hv

end Start

/-! ### The descriptors -/

section Descs

variable {c : UsbConfig} {raw : RawDescs} {ffs : FfsData} {s : Heap BindState}

/-- The state after the walks over the descriptors. -/
def DescsBound (raw : RawDescs) (ffs : FfsData) (t : Heap BindState) : Prop :=
  ∃ chunk u, SpeedsWalked raw ffs chunk 3 raw.descs u ∧ Renumbered (NumFields raw.bytes raw.all) u t

/-- Where the high and the super speed have endpoints, the walks have found some of the full speed,
since an endpoint takes over its full-speed descriptor. -/
theorem EndpointsWalked.full_endpoints (hs : EndpointsWalked raw ffs raw.descs s)
    (hraw : raw.Valid ffs) (hhigh : raw.endpoints .high ≠ []) (hsuper : raw.endpoints .super ≠ []) :
  raw.endpoints .full ≠ []
  := by
  intro hempty
  obtain ⟨a, ha⟩ := List.exists_mem_of_ne_nil _ hhigh
  have hcount : ffs.descsCount .high ≠ 0 := by
    rw [← hraw.length_descs]
    obtain ⟨v, hv, -⟩ := List.mem_filterMap.mp ha
    apply Nat.ne_of_gt (List.length_pos_of_mem hv)
  obtain ⟨j, hj, hlt⟩ := (hraw.agree .high hcount).addr2idx ha
  rw [← hs.length] at hlt
  have hwalked := hs.eps j _ (List.getElem?_eq_getElem hlt)
  have ha' : a ∈ raw.endpoints .super := by
    rw [← hraw.endpoints_eq hhigh hsuper]
    apply ha
  have hfull := hwalked.shared ((hwalked.seen_iff .high).mpr ⟨a, ha, hj⟩)
    ((hwalked.seen_iff .super).mpr ⟨a, ha', hj⟩)
  obtain ⟨b, hb, -⟩ := (hwalked.seen_iff .full).mp hfull
  rw [show speedEndpoints raw.bytes (raw.descs .full) = [] from hempty] at hb
  cases hb

theorem RawDescs.before_three (raw : RawDescs) :
  raw.before 3 = raw.descs
  := by
  funext speed
  cases speed <;> rfl

/-- The walks over the speeds, and what is known of the walk that numbers interfaces. -/
theorem bindDescs_meets_of
    {chunk : Nat} {P : Heap BindState → Heap BindState → Prop} {E : Stop → Prop}
    (hraw : raw.Valid ffs) (hs : SpeedsWalked raw ffs chunk 0 (raw.before 0) s)
    (hgiven : AddressesGiven raw c (raw.before 0) s) (hstop : ∀ e, BindStop c raw ffs e → E e)
    (hnums : ∀ v, SpeedsWalked raw ffs chunk 3 raw.descs v →
      (ffsDoDescs (u32 (ffs.fsDescsCount + ffs.hsDescsCount + ffs.ssDescsCount)) 0
        ffs.rawDescsLength (ffsFuncBindDoNums c)).Meets v (fun _ t => P v t) fun e _ => E e) :
  (bindDescs c).Meets s
    (fun lens t => lens = (total (raw.descs .full), total (raw.descs .high),
        total (raw.descs .super))
      ∧ (∀ speed, ffs.descsCount speed ≠ 4294967295)
      ∧ ∃ v, SpeedsWalked raw ffs chunk 3 raw.descs v ∧ AddressesGiven raw c raw.descs v ∧ P v t)
    (fun e _ => E e)
  := by
  unfold bindDescs
  refine meets_step (run_look s) ?_
  dsimp only
  rw [hs.ffs_eq]
  have hfull : (bindSpeed c .full ffs.fsDescsCount 0).Meets s _ _ :=
    bindSpeed_meets hraw hs hgiven
  refine meets_bind (hfull.mono ?_ fun e _ => hstop e)
  rintro _ t ⟨rfl, hfs, ht, htgiven⟩
  have hhigh : (bindSpeed c .high ffs.hsDescsCount (total (raw.descs .full))).Meets t _ _ :=
    bindSpeed_meets hraw ht htgiven
  refine meets_bind (hhigh.mono ?_ fun e _ => hstop e)
  rintro _ u ⟨rfl, hhs, hu, hugiven⟩
  have hsuper : (bindSpeed c .super ffs.ssDescsCount
      (total (raw.descs .full) + total (raw.descs .high))).Meets u _ _ :=
    bindSpeed_meets hraw hu hugiven
  refine meets_bind (hsuper.mono ?_ fun e _ => hstop e)
  rintro _ v ⟨rfl, hss, hv, hvgiven⟩
  rw [show raw.before (Speed.rank .super + 1) = raw.descs from raw.before_three] at hv hvgiven
  refine meets_bind ((hnums v hv).mono ?_ fun _ _ he => he)
  intro _ w hw
  refine meets_pure ⟨rfl, fun speed => ?_, v, hv, hvgiven, hw⟩
  cases speed with
  | full => exact hfs
  | high => exact hhs
  | super => exact hss

/-- The walks over the descriptors. -/
theorem bindDescs_meets {chunk : Nat} (hraw : raw.Valid ffs)
    (hs : SpeedsWalked raw ffs chunk 0 (raw.before 0) s)
    (hgiven : AddressesGiven raw c (raw.before 0) s) :
  (bindDescs c).Meets s
    (fun lens t => lens = (total (raw.descs .full), total (raw.descs .high),
        total (raw.descs .super))
      ∧ (∀ speed, ffs.descsCount speed ≠ 4294967295) ∧ DescsBound raw ffs t)
    (fun e _ => BindStop c raw ffs e)
  := by
  have hnums : ∀ v, SpeedsWalked raw ffs chunk 3 raw.descs v →
      (ffsDoDescs (u32 (ffs.fsDescsCount + ffs.hsDescsCount + ffs.ssDescsCount)) 0
        ffs.rawDescsLength (ffsFuncBindDoNums c)).Meets v
        (fun _ t => Renumbered (NumFields raw.bytes raw.all) v t)
        fun e _ => BindStop c raw ffs e := by
    intro v hv
    refine (ffsFuncBindDoNums_walk hraw hv.toEndpointsWalked).mono (fun _ _ ht => ht) ?_
    rintro e w ⟨⟨code, rfl⟩, hno⟩ hc
    apply absurd hc hno
  refine (bindDescs_meets_of hraw hs hgiven (fun _ he => he) hnums).mono ?_ fun _ _ he => he
  rintro lens t ⟨hlens, hcounts, v, hv, -, ht⟩
  exact ⟨hlens, hcounts, chunk, v, hv, ht⟩

/-- All that comes before the patches: the start, the walks over the descriptors, and the OS
descriptors, which leave all but the items that are for them. -/
theorem bindPasses_split
    {lens : Nat × Nat × Nat} {u : Heap BindState} (hraw : raw.Valid ffs)
    (hffs : s.priv.ffs = ffs) (hahead : s.priv.NoneAhead)
    (h : (bindPasses c).run s = .ok lens u) :
  ¬StartStop c ffs
    ∧ ∃ r t, SpeedsWalked raw ffs s.priv.next 0 (raw.before 0) r
      ∧ AddressesGiven raw c (raw.before 0) r ∧ (bindDescs c).run r = .ok lens t
      ∧ (bindOsDescs c (lens.1 + lens.2.1 + lens.2.2)).run t = .ok () u
      ∧ ∀ {τ : Type} {F : Heap BindState → τ}, OsBlind F → F u = F t
  := by
  unfold bindPasses at h
  obtain ⟨_, r, hstart, h⟩ := run_bind_ok.mp h
  obtain ⟨hsome, hs, hgiven⟩ := (bindStart_meets hraw hffs hahead).of_ok hstart
  obtain ⟨⟨fsLen, hsLen, ssLen⟩, t, hdescs, h⟩ := run_bind_ok.mp h
  obtain ⟨_, u', hos, h⟩ := run_bind_ok.mp h
  obtain ⟨rfl, rfl⟩ : (fsLen, hsLen, ssLen) = lens ∧ u' = u := by
    cases h
    exact ⟨rfl, rfl⟩
  exact ⟨hsome, r, t, hs, hgiven, hdescs, hos, fun hF => (keeps_bindOsDescs hF c _ t).of_ok hos⟩

/-- All that comes before the patches leaves the state of the walks over the descriptors, but for
the items that are for OS descriptors. -/
theorem bindPasses_ok
    {lens : Nat × Nat × Nat} {u : Heap BindState} (hraw : raw.Valid ffs)
    (hffs : s.priv.ffs = ffs) (hahead : s.priv.NoneAhead)
    (h : (bindPasses c).run s = .ok lens u) :
  ¬StartStop c ffs ∧ (∀ speed, ffs.descsCount speed ≠ 4294967295)
    ∧ ∃ t, DescsBound raw ffs t
      ∧ ∀ {τ : Type} {F : Heap BindState → τ}, OsBlind F → F u = F t
  := by
  obtain ⟨hsome, r, t, hr, hgiven, hdescs, -, hsame⟩ := bindPasses_split hraw hffs hahead h
  obtain ⟨-, hcounts, ht⟩ := (bindDescs_meets hraw hr hgiven).of_ok hdescs
  exact ⟨hsome, hcounts, t, ht, hsame⟩

end Descs

end Ffs
