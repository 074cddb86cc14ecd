import KhdfLinux.Usb.EndpointAddresses

/-!
# The walks over the speeds

A bind walks over the speeds one after the other.  `bindSpeed_meets`: the walk visits the
descriptors the validation has found, writes their positions into the array of the speed, and
claims the endpoints; it stops for the reasons of `BindStop` only.
-/

namespace Ffs

open Bytes Exec Heap Walk

/-! ### The arrays -/

/-- The arrays hold the positions of the descriptors `seen`, and nothing behind them.  Their sizes
are words of 32 bits. -/
structure ArraysWalked (ffs : FfsData) (seen : Speed → List Visit) (arrays : Speed → DescArray) :
    Prop where
  size : ∀ speed, (arrays speed).size
    = if ffs.descsCount speed = 0 then 0 else u32 (ffs.descsCount speed + 1)
  entry : ∀ speed j v, (seen speed)[j]? = some v → (arrays speed).desc j = some v.offset
  rest : ∀ speed j, (seen speed).length ≤ j → (arrays speed).desc j = none

namespace ArraysWalked

variable {ffs : FfsData} {seen : Speed → List Visit} {func : BindState} {chunk : Nat}
  {speed : Speed} {v : Visit}

theorem descArrays_setDesc (chunk i : Nat) (desc : Option Nat) (func : BindState) :
  (func.setDesc chunk speed i desc).descArrays chunk
    = Function.update (func.descArrays chunk) speed
      ⟨(func.descArrays chunk speed).size,
        Function.update (func.descArrays chunk speed).desc i desc⟩
  := Function.update_self _ _ _

/-- One descriptor more. -/
theorem see (h : ArraysWalked ffs seen (func.descArrays chunk)) :
  ArraysWalked ffs (see seen speed v)
    ((func.setDesc chunk speed (seen speed).length (some v.offset)).descArrays chunk)
  := by
  rw [descArrays_setDesc]
  refine ⟨fun sp => ?_, fun sp j w hw => ?_, fun sp j hj => ?_⟩
  · by_cases hsp : sp = speed
    · subst hsp
      rw [Function.update_self]
      apply h.size sp
    · rw [Function.update_of_ne hsp]
      apply h.size sp
  · by_cases hsp : sp = speed
    · subst hsp
      rw [Function.update_self]
      rw [Ffs.see, Function.update_self] at hw
      by_cases hj : j = (seen sp).length
      · subst hj
        rw [List.getElem?_concat_length] at hw
        obtain rfl := Option.some.inj hw
        apply Function.update_self _ _ _
      · have hlt : j < (seen sp).length := by
          have := (List.getElem?_eq_some_iff.mp hw).1
          rw [List.length_append, List.length_singleton] at this
          omega
        rw [List.getElem?_append_left hlt] at hw
        exact (Function.update_of_ne hj _ _).trans (h.entry sp j w hw)
    · rw [Function.update_of_ne hsp]
      rw [Ffs.see, Function.update_of_ne hsp] at hw
      apply h.entry sp j w hw
  · by_cases hsp : sp = speed
    · subst hsp
      rw [Ffs.see, Function.update_self, List.length_append, List.length_singleton] at hj
      have hne : j ≠ (seen sp).length := by omega
      rw [Function.update_self]
      exact (Function.update_of_ne hne _ _).trans (h.rest sp j (by omega))
    · rw [Function.update_of_ne hsp]
      rw [Ffs.see, Function.update_of_ne hsp] at hj
      apply h.rest sp j hj

/-- The null pointer at the end. -/
theorem stop (h : ArraysWalked ffs seen (func.descArrays chunk)) :
  ArraysWalked ffs seen ((func.setDesc chunk speed (seen speed).length none).descArrays chunk)
  := by
  have hsame : (func.setDesc chunk speed (seen speed).length none).descArrays chunk
      = func.descArrays chunk := by
    rw [descArrays_setDesc, ← h.rest speed (seen speed).length (Nat.le_refl _),
      Function.update_eq_self, Function.update_eq_self]
  rw [hsame]
  apply h

end ArraysWalked

/-- The items of the chunk the walks over the descriptors do not use. -/
def BindState.Unused (func : BindState) : Prop :=
  func.extProps = [] ∧ func.extPropAvail = 0 ∧ func.nameAvail = 0 ∧ func.dataAvail = 0
    ∧ func.osCalls = [] ∧ func.patched = []

/-- No interface has a number. -/
def BindState.Unnumbered (func : BindState) : Prop :=
  func.ids = 0 ∧ func.interfacesNums = fun _ => -1

/-- No pointer of an earlier bind is there that would make the descriptors of a speed be taken for
those of a later one. -/
def BindState.NoneAhead (func : BindState) : Prop :=
  ∀ speed sp, sp.rank < speed.rank → func.ffs.descsCount sp ≠ 0 → func.descriptors speed = none

/-- The state of the function after the descriptors `seen`, when the first `n` speeds have been
reached.  The arrays are in the chunk given, which was allocated last. -/
structure SpeedsWalked (raw : RawDescs) (ffs : FfsData) (chunk n : Nat) (seen : Speed → List Visit)
    (s : Heap BindState) : Prop extends EndpointsWalked raw ffs seen s where
  next : s.priv.next = chunk + 1
  unused : s.priv.Unused
  unnumbered : s.priv.Unnumbered
  reached : ∀ speed, speed.rank < n → ffs.descsCount speed ≠ 0 →
    s.priv.descriptors speed = some chunk
  ahead : ∀ speed sp, n ≤ speed.rank → sp.rank < speed.rank → ffs.descsCount sp ≠ 0 →
    s.priv.descriptors speed = none
  counts : ∀ speed, ∀ v ∈ seen speed, ffs.descsCount speed ≠ 4294967295
  arrays : ArraysWalked ffs seen (s.priv.descArrays chunk)

section Item

variable {c : UsbConfig} {raw : RawDescs} {ffs : FfsData} {chunk : Nat}
  {seen : Speed → List Visit} {speed : Speed} {v : Visit} {s : Heap BindState}

theorem SpeedsWalked.readingSpeed (hs : SpeedsWalked raw ffs chunk (speed.rank + 1) seen s)
    (hcount : ffs.descsCount speed ≠ 0) :
  s.priv.readingSpeed = speed
  := by
  have hhere := hs.reached speed (Nat.lt_succ_self _) hcount
  unfold BindState.readingSpeed
  cases speed with
  | full =>
      simp [hs.ahead .high .full (by decide) (by decide) hcount,
        hs.ahead .super .full (by decide) (by decide) hcount]
  | high => simp [hhere, hs.ahead .super .high (by decide) (by decide) hcount]
  | super => simp [hhere]

/-- The pointer is written into the array, unless the array has no size. -/
theorem checkIndex_meets
    {α : Type} {num : Nat} {f : Unit → BindExec α} {Q : α → Heap BindState → Prop}
    (hs : SpeedsWalked raw ffs chunk (speed.rank + 1) seen s) (hraw : raw.Valid ffs)
    (hnum : num ≤ ffs.descsCount speed) (hcount : ffs.descsCount speed ≠ 0)
    (h : ffs.descsCount speed ≠ 4294967295 →
      (f ()).Meets s Q fun e _ => BindStop c raw ffs e) :
  (checkIndex num (s.priv.descArrays chunk speed).size >>= f).Meets s Q
    fun e _ => BindStop c raw ffs e
  := by
  have hsize := hs.arrays.size speed
  have hmax := hraw.counts speed
  rw [if_neg hcount] at hsize
  unfold u32 at hsize
  by_cases hlt : num < (s.priv.descArrays chunk speed).size
  · exact meets_step (run_checkIndex hlt s) (h (by omega))
  · refine meets_bind ?_
    rw [checkIndex, if_neg hlt]
    exact meets_stop ⟨speed, by omega⟩

theorem run_report_doDescs (c : UsbConfig) (m : Bytes) (d : Nat) (s : Heap BindState) :
  (report (ffsFuncBindDoDescs c) (descEntities m d)).run s = .ok () s
  := by
  unfold descEntities
  cases descClass (byteAt m (d + 1)) with
  | interface => by_cases h : byteAt m (d + 8) = 0 <;> simp [h] <;> rfl
  | association => by_cases h : byteAt m (d + 7) = 0 <;> simp [h] <;> rfl
  | endpoint => rfl
  | reserved => rfl
  | sized size => rfl
  | other => rfl

/-- The length and the type of the next descriptor, and the number of an endpoint, decide if it
passes the checks. -/
theorem descSize_iff_number
    {m m' : Bytes} {d len k k' : Nat} {a : UInt8} (h : descSize m d len = some k)
    (ha : descEndpoint m d = some a) (hlength : byteAt m d = byteAt m' d)
    (htype : byteAt m (d + 1) = byteAt m' (d + 1)) :
  descSize m' d len = some k' ↔ k' = k ∧ byteAt m' (d + 2) &&& usbEndpointNumberMask ≠ 0
  := by
  have hclass : descClass (byteAt m' (d + 1)) = .endpoint := by
    rw [← htype]
    apply descClass_endpoint.mpr (descSize_endpoint h ha).1
  constructor
  · intro h'
    have hnumber : byteAt m' (d + 2) &&& usbEndpointNumberMask ≠ 0 := by
      unfold descSize at h'
      split_ifs at h' with hcond
      exact hcond.2.2.2 hclass
    have := descSize_of_same h hlength htype fun _ => hnumber
    exact ⟨Option.some.inj (h'.symm.trans this), hnumber⟩
  · rintro ⟨rfl, hnumber⟩
    apply descSize_of_same h hlength htype fun _ => hnumber

/-- The callback for the next descriptor. -/
theorem ffsFuncBindDoDescs_meets
    (hs : SpeedsWalked raw ffs chunk (speed.rank + 1) seen s) (hraw : raw.Valid ffs)
    (hnext : raw.Next seen speed v) (hlt : (seen speed).length < ffs.descsCount speed) :
  (ffsFuncBindDoDescs c (.descriptor (seen speed).length (some v.offset))).Meets s
    (fun _ t => t.mem.length = raw.bytes.length ∧ raw.Turned c seen v s t
      ∧ (c.Obliging → descSize t.mem v.offset (raw.bytes.length - v.offset) ≠ none)
      ∧ ∀ k, descSize t.mem v.offset (raw.bytes.length - v.offset) = some k →
        k = v.size ∧ SpeedsWalked raw ffs chunk (speed.rank + 1) (see seen speed v) t)
    (fun e _ => BindStop c raw ffs e)
  := by
  obtain ⟨-, hstop, hsize⟩ := hraw.mem hnext.mem
  have hosAt := hraw.stop_le speed
  have hmemlen : s.mem.length = raw.bytes.length := hs.mem.1.symm
  have hcount : ffs.descsCount speed ≠ 0 := by omega
  have h2 : v.offset + 2 ≤ raw.bytes.length := by
    unfold descSize at hsize
    split_ifs at hsize with hcond
    omega
  have hlength : byteAt raw.bytes v.offset = byteAt s.mem v.offset :=
    (hs.fresh hraw hnext (Nat.le_refl _) (by omega)).symm
  have htype : byteAt raw.bytes (v.offset + 1) = byteAt s.mem (v.offset + 1) :=
    (hs.fresh hraw hnext (Nat.le_add_right _ _) (by omega)).symm
  unfold ffsFuncBindDoDescs
  refine meets_step (run_look s) ?_
  rw [hs.readingSpeed hcount]
  dsimp only
  rw [hs.reached speed (Nat.lt_succ_self _) hcount]
  refine meets_step rfl (checkIndex_meets hs hraw (Nat.le_of_lt hlt) hcount fun hgreatest => ?_)
  refine meets_step (run_update _ s) ?_
  have hcounts : ∀ sp, ∀ w ∈ see seen speed v sp, ffs.descsCount sp ≠ 4294967295 := by
    intro sp w hw
    obtain hw | ⟨rfl, -⟩ := mem_see.mp hw
    · apply hs.counts sp w hw
    · apply hgreatest
  have hbefore : ∀ sp, sp.rank ≤ speed.rank → ffs.descsCount sp ≠ 4294967295 := by
    intro sp hrank
    obtain hrank | hrank := Nat.lt_or_eq_of_le hrank
    · intro h
      have hlength := hraw.length_descs sp
      obtain ⟨w, hw⟩ := List.exists_mem_of_length_pos (l := raw.descs sp) (by omega)
      exact hs.counts sp w (hnext.earlier sp hrank ▸ hw) h
    · exact Speed.rank_inj hrank ▸ hgreatest
  refine meets_step (run_read8 (by dsimp only; omega)) ?_
  have hwalked : EndpointsWalked raw ffs seen
      ⟨s.mem, s.priv.setDesc chunk speed (seen speed).length (some v.offset)⟩ :=
    ⟨hs.ffs_eq, hs.mem, hs.numbered, hs.length, hs.eps, hs.nodup, hs.same⟩
  have harrays : ArraysWalked ffs (see seen speed v)
      ((s.priv.setDesc chunk speed (seen speed).length (some v.offset)).descArrays chunk) :=
    hs.arrays.see
  cases hep : descEndpoint raw.bytes v.offset with
  | none =>
      have hclass : descClass (byteAt raw.bytes (v.offset + 1)) ≠ .endpoint := by
        intro hc
        simp [descEndpoint, hc] at hep
      have hother : ¬byteAt s.mem (v.offset + 1) = usbDtEndpoint := by
        rw [← htype]
        exact fun h => hclass (descClass_endpoint.mpr h)
      rw [if_neg hother]
      have hsame := descSize_of_same hsize hlength htype fun hc => absurd hc hclass
      have hturned : raw.Turned c seen v s
          ⟨s.mem, s.priv.setDesc chunk speed (seen speed).length (some v.offset)⟩ := by
        unfold RawDescs.Turned
        rw [hep]
        exact ⟨rfl, rfl⟩
      refine meets_pure ⟨hmemlen, hturned, fun _ hnone => ?_, fun k hk => ?_⟩
      · rw [hsame] at hnone
        cases hnone
      · exact ⟨Option.some.inj (hk.symm.trans hsame), hwalked.see hep, hs.next, hs.unused,
          hs.unnumbered, hs.reached, hs.ahead, hcounts, harrays⟩
  | some a =>
      have htype' : byteAt s.mem (v.offset + 1) = usbDtEndpoint := by
        rw [← htype]
        exact (descSize_endpoint hsize hep).1
      rw [if_pos htype']
      refine (bindEpDesc_meets hwalked hraw hnext hbefore hep).mono ?_ fun _ _ he => he
      rintro _ t ⟨htake, hnumber, hagree, htaken, eps, claimed, revmap, hpriv⟩
      have hturned : raw.Turned c seen v s t := by
        unfold RawDescs.Turned
        rw [hep]
        exact ⟨hagree, htaken.again, htaken.first⟩
      have hsame : ∀ k, descSize t.mem v.offset (raw.bytes.length - v.offset) = some k
          ↔ k = v.size ∧ byteAt t.mem (v.offset + 2) &&& usbEndpointNumberMask ≠ 0 := by
        intro k
        refine descSize_iff_number hsize hep ?_ ?_
        · exact hlength.trans (hagree.2 _ (by unfold EpField; omega))
        · exact htype.trans (hagree.2 _ (by unfold EpField; omega))
      refine ⟨hagree.1.symm.trans hmemlen, hturned, fun hc hnone => ?_, fun k hk => ?_⟩
      · have hsome := (hsame v.size).mpr ⟨rfl, hnumber hc⟩
        rw [hnone] at hsome
        cases hsome
      · obtain ⟨hksize, hnum⟩ := (hsame k).mp hk
        have htaken := htake hnum
        obtain ⟨mem, priv⟩ := t
        obtain rfl : priv = _ := hpriv
        exact ⟨hksize, htaken, hs.next, hs.unused, hs.unnumbered, hs.reached, hs.ahead, hcounts,
          harrays⟩

/-- One turn of the walk over a speed. -/
theorem ffsDoDesc_bind_meets
    (hs : SpeedsWalked raw ffs chunk (speed.rank + 1) seen s) (hraw : raw.Valid ffs)
    (hnext : raw.Next seen speed v) (hlt : (seen speed).length < ffs.descsCount speed) :
  (ffsDoDesc (ffsFuncBindDoDescs c) (seen speed).length v.offset
      (raw.bytes.length - v.offset)).Meets s
    (fun k t => k = v.size ∧ SpeedsWalked raw ffs chunk (speed.rank + 1) (see seen speed v) t
      ∧ raw.Turned c seen v s t)
    (fun e _ => BindStop c raw ffs e)
  := by
  refine meets_bind ((ffsFuncBindDoDescs_meets hs hraw hnext hlt).mono ?_ fun _ _ he => he)
  rintro _ t ⟨hlen, hturned, hobliging, htake⟩
  have hstop := (hraw.mem hnext.mem).2.1
  have hosAt := hraw.stop_le speed
  have hkeep : ∀ s', (ffsFuncBindDoDescs c (.interface (v.offset + 2) v.offset)).run t = .ok () s' →
      byteAt s'.mem (v.offset + 8) = byteAt t.mem (v.offset + 8)
        ∧ s'.mem.length = t.mem.length := by
    intro s' hs'
    cases hs'
    exact ⟨rfl, rfl⟩
  unfold Meets
  rw [ffsDoSingleDesc_run (by omega) hkeep]
  cases hsize : descSize t.mem v.offset (raw.bytes.length - v.offset) with
  | none => exact fun hc => absurd hsize (hobliging hc)
  | some k =>
      dsimp only
      rw [EStateM.run_bind, run_report_doDescs]
      obtain ⟨hk, ht⟩ := htake k hsize
      exact ⟨hk, ht, hturned⟩

end Item

/-! ### One speed -/

section Speed

variable {c : UsbConfig} {raw : RawDescs} {ffs : FfsData} {chunk : Nat} {speed : Speed}
  {s : Heap BindState}

theorem RawDescs.before_succ (raw : RawDescs) (speed : Speed) :
  Function.update (raw.before speed.rank) speed (raw.descs speed) = raw.before (speed.rank + 1)
  := by
  funext sp
  cases sp <;> cases speed <;> rfl

theorem RawDescs.Valid.next
    (hraw : raw.Valid ffs) {us ws : List Visit} {v : Visit}
    (hsplit : raw.descs speed = us ++ v :: ws) :
  raw.Next (Function.update (raw.before speed.rank) speed us) speed v
  := by
  have hv : v ∈ raw.descs speed := by simp [hsplit]
  refine ⟨⟨ws, by simpa using hsplit⟩, ?_, ?_, ?_⟩
  · intro sp w hw
    by_cases hsp : sp = speed
    · subst hsp
      rw [Function.update_self] at hw
      have hdescs := hraw.descs sp
      rw [hsplit] at hdescs
      exact ⟨by simp [hsplit, hw], le_of_visits_append (fun _ _ _ => descSize_le) hdescs hw⟩
    · rw [Function.update_of_ne hsp] at hw
      unfold RawDescs.before at hw
      split_ifs at hw with hrank
      · exact ⟨hw, hraw.before hrank hw hv⟩
      · cases hw
  · intro sp hrank
    have hsp : sp ≠ speed := by
      rintro rfl
      omega
    rw [Function.update_of_ne hsp]
    apply if_pos hrank
  · intro sp hrank
    have hsp : sp ≠ speed := by
      rintro rfl
      omega
    rw [Function.update_of_ne hsp]
    exact if_neg (by omega)

/-- The walk over a speed. -/
theorem bindSpeed_meets
    (hraw : raw.Valid ffs) (hs : SpeedsWalked raw ffs chunk speed.rank (raw.before speed.rank) s)
    (hgiven : AddressesGiven raw c (raw.before speed.rank) s) :
  (bindSpeed c speed (ffs.descsCount speed) (raw.startAt speed)).Meets s
    (fun n t => n = total (raw.descs speed) ∧ ffs.descsCount speed ≠ 4294967295
      ∧ SpeedsWalked raw ffs chunk (speed.rank + 1) (raw.before (speed.rank + 1)) t
      ∧ AddressesGiven raw c (raw.before (speed.rank + 1)) t)
    (fun e _ => BindStop c raw ffs e)
  := by
  have hbefore : raw.before speed.rank speed = [] := if_neg (Nat.lt_irrefl _)
  unfold bindSpeed
  by_cases hcount : ffs.descsCount speed = 0
  · rw [if_pos hcount]
    have hnil := List.length_eq_zero_iff.mp ((hraw.length_descs speed).trans hcount)
    have hsame : raw.before (speed.rank + 1) = raw.before speed.rank := by
      rw [← RawDescs.before_succ, hnil, ← hbefore, Function.update_eq_self]
    rw [hsame]
    refine meets_pure ⟨by rw [hnil]; rfl, by omega, ⟨hs.toEndpointsWalked, hs.next, hs.unused,
      hs.unnumbered, ?_, ?_, hs.counts, hs.arrays⟩, hgiven⟩
    · intro sp hrank hne
      refine hs.reached sp (Nat.lt_of_le_of_ne (Nat.le_of_lt_succ hrank) fun heq => ?_) hne
      exact hne (Speed.rank_inj heq ▸ hcount)
    · exact fun sp sp' hrank => hs.ahead sp sp' (by omega)
  rw [if_neg hcount]
  refine meets_step (run_update _ s) (meets_step (run_look _) ?_)
  have hle := hraw.stop_le speed
  have hsmall := hraw.small
  have hlen : u32 (((s.priv.setDescriptors speed).ffs.rawDescsLength : Int) - raw.startAt speed)
      = raw.bytes.length - raw.startAt speed := by
    rw [show (s.priv.setDescriptors speed).ffs = ffs from hs.ffs_eq, ← hraw.length]
    exact u32_sub (by omega) (by omega)
  dsimp only
  rw [hlen]
  have hfirst : SpeedsWalked raw ffs chunk (speed.rank + 1)
      (Function.update (raw.before speed.rank) speed []) ⟨s.mem, s.priv.setDescriptors speed⟩ := by
    rw [← hbefore, Function.update_eq_self]
    refine ⟨⟨hs.ffs_eq, hs.mem, hs.numbered, hs.length, hs.eps, hs.nodup, hs.same⟩, hs.next,
      hs.unused, hs.unnumbered, fun sp hrank hne => ?_, fun sp sp' hrank hlt hne => ?_, hs.counts,
      hs.arrays⟩
    · by_cases hsp : sp = speed
      · subst hsp
        refine (Function.update_self _ _ _).trans ?_
        rw [hs.next, Nat.add_sub_cancel]
      · refine (Function.update_of_ne hsp _ _).trans (hs.reached sp ?_ hne)
        apply Nat.lt_of_le_of_ne (Nat.le_of_lt_succ hrank) fun heq => hsp (Speed.rank_inj heq)
    · have hsp : sp ≠ speed := by
        rintro rfl
        omega
      exact (Function.update_of_ne hsp _ _).trans (hs.ahead sp sp' (by omega) hlt hne)
  have hgivenFirst : AddressesGiven raw c (Function.update (raw.before speed.rank) speed [])
      ⟨s.mem, s.priv.setDescriptors speed⟩ := by
    rw [← hbefore, Function.update_eq_self]
    exact hgiven.congr rfl rfl rfl
  refine ffsDoDescs_visits (fun us t => SpeedsWalked raw ffs chunk (speed.rank + 1)
      (Function.update (raw.before speed.rank) speed us) t
    ∧ AddressesGiven raw c (Function.update (raw.before speed.rank) speed us) t)
    (hraw.descs speed) (by omega) ?_ ?_ ⟨hfirst, hgivenFirst⟩
  · rintro us v ws t hsplit ⟨ht, htgiven⟩
    have hlt : (Function.update (raw.before speed.rank) speed us speed).length
        < ffs.descsCount speed := by
      rw [Function.update_self, ← hraw.length_descs, hsplit]
      simp
    have hturn := ffsDoDesc_bind_meets (c := c) ht hraw (hraw.next hsplit) hlt
    rw [Function.update_self] at hturn
    rw [show raw.startAt speed + (raw.bytes.length - raw.startAt speed) = raw.bytes.length by omega]
    refine hturn.mono ?_ fun _ _ he => he
    rintro k u ⟨hk, hu, hturned⟩
    have hugiven := htgiven.turn hraw (hraw.next hsplit) hturned (hu.ffs_eq.trans ht.ffs_eq.symm)
      hu.toEndpointsWalked
    rw [see, Function.update_idem, Function.update_self] at hu hugiven
    exact ⟨hk, hu, hugiven⟩
  · rintro t ⟨ht, htgiven⟩
    have hseen : (Function.update (raw.before speed.rank) speed (raw.descs speed) speed).length
        = ffs.descsCount speed := by
      rw [Function.update_self, hraw.length_descs]
    refine meets_step (run_look t) ?_
    rw [ht.readingSpeed hcount]
    dsimp only
    rw [ht.reached speed (Nat.lt_succ_self _) hcount]
    refine meets_step rfl (checkIndex_meets ht hraw (Nat.le_refl _) hcount fun hgreatest => ?_)
    refine meets_step (run_update _ t) (meets_pure ⟨hgreatest, ?_, ?_⟩)
    · have harrays : ArraysWalked ffs _
          ((t.priv.setDesc chunk speed _ none).descArrays chunk) := ht.arrays.stop
      rw [hseen] at harrays
      rw [← RawDescs.before_succ]
      exact ⟨⟨ht.ffs_eq, ht.mem, ht.numbered, ht.length, ht.eps, ht.nodup, ht.same⟩, ht.next,
        ht.unused, ht.unnumbered, ht.reached, ht.ahead, ht.counts, harrays⟩
    · rw [← RawDescs.before_succ]
      exact htgiven.congr rfl rfl rfl

end Speed

end Ffs
