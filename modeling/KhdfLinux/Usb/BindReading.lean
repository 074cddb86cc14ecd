import KhdfLinux.Usb.OsPass
import KhdfLinux.Usb.Patches

/-!
# How a bind reads a blob

A bind walks over the blob again that the validation has accepted.  `bind_reads_iff`: with a gadget
that has all it asks for, it finds the same descriptors, of the speeds and of the OS, at the same
places, and links each property, exactly if the blob is `Readable`.
-/

namespace Ffs

open Bytes Exec Heap Walk

/-! ### What is read -/

/-- The bind has read the descriptors that the validation has found, where it has found them, with
the lengths they had, and has linked each property once. -/
structure ReadAs (raw : RawDescs) (ffs : FfsData) (os : Prop) (u : Heap BindState) : Prop where
  descs : ∀ speed, ffs.descsCount speed ≠ 0 → ∃ chunk, u.priv.descriptors speed = some chunk
    ∧ ∀ i, (u.priv.descArrays chunk speed).desc i = (raw.descs speed)[i]?.map Visit.offset
  length : ∀ v ∈ raw.all, (byteAt u.mem v.offset).toNat = v.size
    ∧ v.offset + v.size ≤ ffs.rawDescsLength
  calls : os → u.priv.osCalls = (raw.entries ffs.interfacesCount).map raw.osCall
  props : os → u.priv.extProps = (propEntries (raw.entries ffs.interfacesCount)).map raw.prop

/-- The passes of a bind of a new function come to their end, and have read the blob as the
validation has. -/
def ReadsBlob (c : UsbConfig) (raw : RawDescs) (ffs : FfsData) : Prop :=
  ∃ u, (bindPasses c).run (bindNew ffs)
      = .ok (total (raw.descs .full), total (raw.descs .high), total (raw.descs .super)) u
    ∧ ReadAs raw ffs c.useOsString u

/-- The condition: there are descriptors and interfaces, no speed has the greatest number of
descriptors there is or an endpoint twice, the full speed has endpoints if both other speeds have,
and the properties, if they are read, have names and data and are counted. -/
structure Readable (c : UsbConfig) (raw : RawDescs) (ffs : FfsData) : Prop where
  descs : ∃ speed, ffs.descsCount speed ≠ 0
  interfaces : ffs.interfacesCount ≠ 0
  counts : ∀ speed, ffs.descsCount speed ≠ 4294967295
  nodup : ∀ speed, (raw.endpoints speed).Nodup
  full : raw.endpoints .high ≠ [] → raw.endpoints .super ≠ [] → raw.endpoints .full ≠ []
  filled : c.useOsString → raw.PropsFilled ffs.interfacesCount
  counted : c.useOsString → raw.PropsCounted ffs

section Passes

variable {c : UsbConfig} {raw : RawDescs} {ffs : FfsData} {s t u : Heap BindState} {m : Bytes}

/-- When the pass over OS descriptors begins, nothing is stored. -/
theorem DescsBound.noted (ht : DescsBound raw ffs t) :
  OsNoted ffs t.mem [] t
  := by
  obtain ⟨chunk, s, hs, hst⟩ := ht
  obtain ⟨ids, nums, hpriv⟩ := hst.priv
  obtain ⟨hprops, hpropAvail, hnameAvail, hdataAvail, hcalls, -⟩ := hs.unused
  refine ⟨rfl, ?_, ?_, ?_, ?_, ?_, ?_, Nat.zero_le _, fun _ => ?_⟩
  all_goals rw [hpriv]
  · exact hs.ffs_eq
  · exact hcalls
  · exact hpropAvail
  · exact hnameAvail
  · exact hdataAvail
  · exact hprops
  · exact ⟨hnameAvail.trans_le (Nat.zero_le _), hdataAvail.trans_le (Nat.zero_le _)⟩

/-- When the pass over OS descriptors begins, they are those of the blob. -/
theorem DescsBound.osCopied (ht : DescsBound raw ffs t) (hraw : raw.Valid ffs) :
  raw.OsCopied ffs.interfacesCount t.mem
  := by
  obtain ⟨chunk, s, hs, hst⟩ := ht
  refine ⟨hst.mem.1.symm.trans hs.mem.1.symm, fun p hp hres => ?_⟩
  have hfirst : byteAt raw.bytes p = byteAt s.mem p := by
    apply hs.mem.2
    rintro (h | ⟨speed, w, hw, hep, hfield⟩)
    · exact hres h
    · obtain ⟨a, ha⟩ := Option.isSome_iff_exists.mp hep
      have hseven := (descSize_endpoint (hraw.mem hw).2.2 ha).2.2.1
      have hstop := (hraw.mem hw).2.1
      have hosAt := (hraw.stop_le speed).1
      unfold EpField at hfield
      omega
  have hsecond : byteAt s.mem p = byteAt t.mem p := by
    apply hst.mem.2
    rintro ⟨w, hw, hfield⟩
    obtain ⟨speed, hws⟩ := RawDescs.mem_all.mp hw
    have hlt := hraw.numField_lt hws hfield
    have hstop := (hraw.mem hws).2.1
    have hosAt := (hraw.stop_le speed).1
    omega
  rw [hfirst, hsecond]

/-- The number of OS descriptors does not matter for what is stored of them. -/
theorem OsNoted.counted_os {calls : List OsCall} (h : OsNoted ffs m calls u) (n : Nat) :
  OsNoted ffs m calls ⟨u.mem, { u.priv with osDescN := n }⟩
  := ⟨h.mem, h.ffs_eq, h.osCalls, h.propAvail, h.nameAvail, h.dataAvail, h.props, h.count, h.room⟩

/-- What any pass over OS descriptors has stored. -/
theorem bindOsDescs_noted (data : Nat) (ht : OsNoted ffs m [] t) :
  (bindOsDescs c data).Meets t
    (fun _ u => c.useOsString → OsNoted ffs m u.priv.osCalls u) fun _ _ => True
  := by
  unfold bindOsDescs
  refine meets_step (run_look t) ?_
  dsimp only
  by_cases hos : c.useOsString
  · rw [if_pos hos]
    refine meets_bind ((ffsDoOsDescs_noted _ _ _ ht).mono ?_ fun _ _ he => he)
    intro k u hu
    exact fun _ => hu.counted_os _
  · rw [if_neg hos]
    exact fun hyes => absurd hyes hos

/-- The pass over the OS descriptors of a blob that was accepted, whose properties have names and
data.  It is stopped only where there is no room for them. -/
theorem bindOsDescs_taken (ht : OsNoted ffs m [] t) (hm : raw.OsCopied ffs.interfacesCount m)
    (hraw : raw.Valid ffs) (hfilled : c.useOsString → raw.PropsFilled ffs.interfacesCount) :
  (bindOsDescs c raw.osAt).Meets t
    (fun _ u => c.useOsString →
      OsNoted ffs m ((raw.entries ffs.interfacesCount).map raw.osCall) u)
    fun e _ => e = .fault .outOfBounds ∧ c.useOsString ∧ ¬raw.PropsCounted ffs
  := by
  unfold bindOsDescs
  refine meets_step (run_look t) ?_
  dsimp only
  by_cases hos : c.useOsString
  · have hsmall := hraw.small
    rw [if_pos hos, ht.ffs_eq, ← hraw.length, u32_sub (hraw.stop_le .full).2 (by omega)]
    refine meets_bind ((ffsDoOsDescs_taken ht hm hraw (hfilled hos)).mono ?_
      fun _ _ ⟨he, hno⟩ => ⟨he, hos, hno⟩)
    rintro k u ⟨-, hu⟩
    exact fun _ => hu.counted_os _
  · rw [if_neg hos]
    exact fun hyes => absurd hyes hos

/-- The descriptors of the speeds are read as they were found. -/
theorem readAs_of_descsBound {os : Prop} (ht : DescsBound raw ffs t) (hraw : raw.Valid ffs)
    (hsame : ∀ {τ : Type} {F : Heap BindState → τ}, OsBlind F → F u = F t)
    (hcalls : os → u.priv.osCalls = (raw.entries ffs.interfacesCount).map raw.osCall)
    (hprops : os →
      u.priv.extProps = (propEntries (raw.entries ffs.interfacesCount)).map raw.prop) :
  ReadAs raw ffs os u
  := by
  have hheads := ht.heads hraw
  have hmem : u.mem = t.mem := hsame (F := Heap.mem) fun _ _ _ _ _ _ _ _ => rfl
  have hpointers : (u.priv.descriptors, u.priv.descArrays) = (t.priv.descriptors, t.priv.descArrays)
      := hsame (F := fun s => (s.priv.descriptors, s.priv.descArrays)) fun _ _ _ _ _ _ _ _ => rfl
  obtain ⟨hdescriptors, harrays⟩ := Prod.ext_iff.mp hpointers
  obtain ⟨chunk, s, hs, hst⟩ := ht
  obtain ⟨ids, nums, hpriv⟩ := hst.priv
  refine ⟨fun speed hcount => ⟨chunk, ?_, fun i => ?_⟩, fun v hv => ⟨?_, ?_⟩, hcalls, hprops⟩
  · rw [show u.priv.descriptors = _ from hdescriptors, hpriv]
    exact hs.reached speed (by cases speed <;> decide) hcount
  · rw [show u.priv.descArrays = _ from harrays, hpriv]
    cases hv : (raw.descs speed)[i]? with
    | none => exact hs.arrays.rest speed i (List.getElem?_eq_none_iff.mp hv)
    | some v => exact hs.arrays.entry speed i v hv
  · obtain ⟨speed, hvs⟩ := RawDescs.mem_all.mp hv
    have hbyte := hheads.fixed speed v hvs 0 (.inl (by decide))
    rw [Nat.add_zero] at hbyte
    rw [hmem, hbyte]
    exact (hraw.size_eq hvs).1
  · obtain ⟨speed, hvs⟩ := RawDescs.mem_all.mp hv
    have hstop := (hraw.mem hvs).2.1
    have hosAt := hraw.stop_le speed
    rw [← hraw.length]
    omega

/-- What can be said of a blob for a bind with a gadget that has all it asks for to come to the OS
descriptors: no speed has an endpoint twice, and the full speed has endpoints if both other speeds
have. -/
structure RawDescs.Claimable (raw : RawDescs) : Prop where
  nodup : ∀ speed, (raw.endpoints speed).Nodup
  full : raw.endpoints .high ≠ [] → raw.endpoints .super ≠ [] → raw.endpoints .full ≠ []

/-- Nothing stops the walks over the descriptors, if the endpoints can be claimed and no speed has
the greatest number of descriptors there is. -/
theorem RawDescs.Claimable.not_bindStop (h : raw.Claimable)
    (hcounts : ∀ speed, ffs.descsCount speed ≠ 4294967295) (hc : c.Obliging) {e : Stop} :
  ¬BindStop c raw ffs e
  := by
  intro hstop
  cases e with
  | ret code =>
      obtain ⟨speed, hno⟩ := hstop hc
      exact hno (h.nodup speed)
  | fault f =>
      cases f with
      | nullDeref =>
          obtain ⟨hfull, hhigh, hsuper, -⟩ := hstop
          exact h.full hhigh hsuper hfull
      | outOfBounds =>
          obtain ⟨speed, hcount⟩ := hstop
          exact hcounts speed hcount
      | deadlock => exact hstop
      | notHeld => exact hstop

/-- With a gadget that has all it asks for, and memory for the chunk, the bind of a blob whose
endpoints can be claimed comes to the OS descriptors. -/
theorem RawDescs.Claimable.run_bindPasses (h : raw.Claimable) (hraw : raw.Valid ffs)
    (hffs : s.priv.ffs = ffs) (hahead : s.priv.NoneAhead) (hc : c.Obliging) (halloc : c.kzalloc)
    (hdescs : ∃ speed, ffs.descsCount speed ≠ 0) (hinterfaces : ffs.interfacesCount ≠ 0)
    (hcounts : ∀ speed, ffs.descsCount speed ≠ 4294967295) :
  ∃ t, DescsBound raw ffs t
    ∧ (bindPasses c).run s = (bindOsDescs c raw.osAt >>= fun _ =>
      pure (total (raw.descs .full), total (raw.descs .high), total (raw.descs .super))).run t
  := by
  have hnostart : ¬StartStop c ffs := by
    rintro (hno | hno | hno)
    · obtain ⟨speed, hcount⟩ := hdescs
      exact hcount (hno speed)
    · exact hno halloc
    · exact hinterfaces hno
  obtain ⟨_, r, hstart, -, hr, hgiven⟩ := ((bindStart_meets hraw hffs hahead).mono
    (fun _ _ hq => hq) fun _ _ he => hnostart he.2).ends
  obtain ⟨_, t, hwalks, rfl, -, ht⟩ := ((bindDescs_meets hraw hr hgiven).mono
    (fun _ _ hq => hq) fun e _ he => h.not_bindStop hcounts hc he).ends
  refine ⟨t, ht, ?_⟩
  unfold bindPasses
  rw [EStateM.run_bind, hstart]
  dsimp only
  rw [EStateM.run_bind, hwalks]
  rfl

/-- The endpoints that a bind has claimed. -/
theorem DescsBound.claimable (ht : DescsBound raw ffs t) (hraw : raw.Valid ffs) :
  raw.Claimable
  := by
  obtain ⟨_, s, hs, -⟩ := ht
  exact ⟨hs.nodup, fun hhigh hsuper => hs.full_endpoints hraw hhigh hsuper⟩

/-- What a bind has read, if it has read the blob as the validation has. -/
theorem ReadsBlob.readable (hraw : raw.Valid ffs) (h : ReadsBlob c raw ffs) :
  Readable c raw ffs
  := by
  obtain ⟨u, hpasses, hu⟩ := h
  obtain ⟨hstart, r, t, hr, hgiven, hdescs, hos, -⟩ :=
    bindPasses_split hraw rfl (noneAhead_bindNew ffs) hpasses
  obtain ⟨-, hcounts, ht⟩ := (bindDescs_meets hraw hr hgiven).of_ok hdescs
  have hnoted : c.useOsString →
      OsNoted ffs t.mem ((raw.entries ffs.interfacesCount).map raw.osCall) u := fun hyes => by
    have hu' := (bindOsDescs_noted _ ht.noted).of_ok hos hyes
    rwa [hu.calls hyes] at hu'
  have hcopied := ht.osCopied hraw
  have hfilled : c.useOsString → raw.PropsFilled ffs.interfacesCount := fun hyes =>
    ((hnoted hyes).linked_iff hcopied hraw).mp (hu.props hyes)
  have hclaimable := ht.claimable hraw
  exact ⟨not_forall.mp fun hno => hstart (.inl hno), fun hno => hstart (.inr (.inr hno)), hcounts,
    hclaimable.nodup, hclaimable.full, hfilled,
    fun hyes => (hnoted hyes).counted hcopied hraw (hfilled hyes)⟩

/-- A bind of a blob that is readable has read it as the validation has. -/
theorem Readable.readsBlob (hraw : raw.Valid ffs) (hc : c.Obliging) (halloc : c.kzalloc)
    (h : Readable c raw ffs) :
  ReadsBlob c raw ffs
  := by
  have hclaimable : raw.Claimable := ⟨h.nodup, h.full⟩
  obtain ⟨t, ht, hpasses⟩ := hclaimable.run_bindPasses hraw (s := bindNew ffs) rfl
    (noneAhead_bindNew ffs) hc halloc h.descs h.interfaces h.counts
  obtain ⟨_, u, hos, hu⟩ := ((bindOsDescs_taken ht.noted (ht.osCopied hraw) hraw h.filled).mono
    (fun _ _ hq => hq) fun _ _ ⟨_, hyes, hno⟩ => hno (h.counted hyes)).ends
  refine ⟨u, ?_, ?_⟩
  · rw [hpasses, EStateM.run_bind, hos]
    rfl
  · refine readAs_of_descsBound ht hraw (fun hF => (keeps_bindOsDescs hF c _ t).of_ok hos)
      (fun hyes => (hu hyes).osCalls) fun hyes => ?_
    exact ((hu hyes).linked_iff (ht.osCopied hraw) hraw).mpr (h.filled hyes)

end Passes

/-- A bind of a new function, with a gadget that has all it asks for and memory for the chunk, reads
a blob that was accepted as the validation has, exactly if the blob is readable. -/
theorem bind_reads_iff
    {fdget : EventfdCtxFdget} {m : Bytes} {ffs : FfsData} {t : Heap FfsData} {lay : DescLayout}
    {c : UsbConfig} (hm : 12 ≤ m.length) (hmax : m.length < 2147483648)
    (hacc : (ffsDataGotDescs fdget m.length).run ⟨m, ffs⟩ = .ok () t)
    (hlay : Parses m t.priv.interfacesCount lay) (hc : c.Obliging) (halloc : c.kzalloc) :
  ReadsBlob c (lay.raw m) t.priv ↔ Readable c (lay.raw m) t.priv
  := by
  have hraw := hlay.valid hm hmax hacc
  exact ⟨fun h => h.readable hraw, fun h => h.readsBlob hraw hc halloc⟩

/-- A gadget with OS strings, and all that a bind asks for. -/
def osConfig : UsbConfig := { plainConfig with useOsString := true }

theorem obliging_osConfig :
  osConfig.Obliging
  := ⟨fun _ _ => ⟨_, rfl, by decide⟩, fun _ => rfl, fun n => Int.natCast_nonneg n⟩

/-- A V2 blob with an interface of the full speed and a property, of a name and data of two bytes
each. -/
def propDescs : Bytes :=
  [3, 0, 0, 0, 58, 0, 0, 0, 9, 0, 0, 0, 1, 0, 0, 0, 1, 0, 0, 0,
    9, 4, 0, 0, 0, 255, 0, 0, 0,
    0, 29, 0, 0, 0, 1, 0, 5, 0, 1, 0,
    18, 0, 0, 0, 1, 0, 0, 0, 2, 0, 97, 98, 2, 0, 0, 0, 99, 100]

/-- The descriptors of the function with a property. -/
def propLayout : DescLayout := ⟨⟨9, 1, 0, 0, 1, 20⟩, [⟨20, 9⟩], [], [], [⟨29, 29⟩]⟩

/-- The bind of the function with a property. -/
theorem bind_reads_prop :
  ReadsBlob osConfig (propLayout.raw propDescs) (newFunction propDescs).priv.ffs
  := by
  have hacc : (ffsDataGotDescs (fun _ => .ok 0) propDescs.length).run ⟨propDescs, ffsDataNew⟩
      = .ok () ⟨propDescs, (newFunction propDescs).priv.ffs⟩ :=
    rfl
  have hlay : Parses propDescs (newFunction propDescs).priv.ffs.interfacesCount propLayout :=
    ⟨by decide +kernel, by decide +kernel, by decide +kernel, by decide +kernel, by decide +kernel,
      by decide, by decide⟩
  refine (bind_reads_iff (by decide) (by decide) hacc hlay obliging_osConfig rfl).mpr
    ⟨⟨.full, by decide +kernel⟩, by decide +kernel, ?_, ?_, ?_, fun _ => ?_, fun _ => ?_⟩
  · intro speed
    cases speed <;> decide +kernel
  · intro speed
    cases speed <;> decide +kernel
  · decide +kernel
  · unfold RawDescs.PropsFilled
    decide +kernel
  · exact ⟨by decide +kernel, by decide +kernel, by decide +kernel⟩

/-- A V2 blob with an interface of the full speed and a property, of a name of two bytes and without
data. -/
def emptyPropDescs : Bytes :=
  [3, 0, 0, 0, 56, 0, 0, 0, 9, 0, 0, 0, 1, 0, 0, 0, 1, 0, 0, 0,
    9, 4, 0, 0, 0, 255, 0, 0, 0,
    0, 27, 0, 0, 0, 1, 0, 5, 0, 1, 0,
    16, 0, 0, 0, 1, 0, 0, 0, 2, 0, 97, 98, 0, 0, 0, 0]

/-- The descriptors of the function with a property without data. -/
def emptyPropLayout : DescLayout := ⟨⟨9, 1, 0, 0, 1, 20⟩, [⟨20, 9⟩], [], [], [⟨29, 27⟩]⟩

/-- The bind takes 34 bytes for the property, of which there are 16, and does not link it. -/
theorem bind_misreads_emptyProp :
  AcceptedBlob emptyPropDescs
    ∧ Parses emptyPropDescs (newFunction emptyPropDescs).priv.ffs.interfacesCount emptyPropLayout
    ∧ osConfig.Obliging ∧ osConfig.kzalloc
    ∧ (∃ lens u, (bindPasses osConfig).run (bindNew (newFunction emptyPropDescs).priv.ffs)
        = .ok lens u
      ∧ u.priv.osCalls = [⟨.extProp, 9, 20, 16, 34⟩] ∧ u.priv.extProps = [])
    ∧ ¬ReadsBlob osConfig (emptyPropLayout.raw emptyPropDescs)
      (newFunction emptyPropDescs).priv.ffs
  := by
  have hstop : stopOf ((bindPasses osConfig).run (bindNew (newFunction emptyPropDescs).priv.ffs))
      = none := by
    decide +kernel
  obtain ⟨lens, u, hpasses⟩ := stopOf_eq_none.mp hstop
  have hstored : (match (bindPasses osConfig).run
        (bindNew (newFunction emptyPropDescs).priv.ffs) with
      | .ok _ u => decide (u.priv.osCalls = [⟨.extProp, 9, 20, 16, 34⟩] ∧ u.priv.extProps = [])
      | .error _ _ => false) = true := by
    decide +kernel
  rw [hpasses] at hstored
  obtain ⟨hcalls, hprops⟩ := of_decide_eq_true hstored
  refine ⟨⟨_, rfl⟩, ?_, obliging_osConfig, rfl, ⟨lens, u, hpasses, hcalls, hprops⟩, ?_⟩
  · exact ⟨by decide +kernel, by decide +kernel, by decide +kernel, by decide +kernel,
      by decide +kernel, by decide, by decide⟩
  · rintro ⟨w, hw, hread⟩
    have hlinked := hread.props rfl
    obtain rfl : u = w := by
      rw [hpasses] at hw
      exact (EStateM.Result.ok.inj hw).2
    rw [hprops] at hlinked
    revert hlinked
    decide +kernel

end Ffs
