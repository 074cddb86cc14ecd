import KhdfLinux.Usb.BoundEndpoints
import KhdfLinux.Usb.EndpointReports
import KhdfLinux.Usb.PatchSafety

/-!
# The descriptor that is reported

`FUNCTIONFS_ENDPOINT_DESC` copies one of the descriptors of an endpoint, which it chooses by the
speed that was recorded when the function was bound.  `endpointDesc_iff`: for a bound function, what
is copied is the descriptor for the connected speed exactly if the descriptors of that speed have
the endpoints, and the choice is that speed, or one with endpoints whose descriptor is the same.
-/

namespace Ffs

open Bytes Exec Heap

/-! ### The command -/

/-- `enum usb_device_speed`. -/
inductive UsbDeviceSpeed where
  | unknown
  | low
  | full
  | high
  | wireless
  | super
  | superPlus
  deriving DecidableEq, Repr

/-- The index into `descs` for the speed in the `ffs_data`. -/
def descSlot : UsbDeviceSpeed → Speed
  | .super => .super
  | .high => .high
  | _ => .high

/-- The place of a file among the endpoint files, which a loop looks for. -/
def epfilePlace (epsCount epfile : Nat) : Nat :=
  ((List.range epsCount).find? fun i => i = epfile).getD epsCount

/-- `FUNCTIONFS_ENDPOINT_DESC` of an endpoint file: the descriptor and the number of bytes that
`copy_to_user` is given.  `speed` is `ffs->speed`. -/
def endpointDesc (speed : UsbDeviceSpeed) (epfile : Nat) : BindExec (Nat × Nat) := do
  let func ← look
  let i := epfilePlace func.ffs.epsCount epfile
  checkIndex i func.eps.length
  let ep ← deref func.eps[i]?
  let desc ← deref (ep.descs (descSlot speed))
  let bLength ← UInt8.toNat <$> read8 desc
  pure (desc, bLength)

/-! ### What it reports -/

/-- The descriptor of an endpoint for a speed. -/
def BindState.descOf (func : BindState) (speed : Speed) (i : Nat) : Option Nat :=
  func.eps[i]?.bind fun ep => ep.descs speed

/-- The bytes of a descriptor. -/
def descBytes (m : Bytes) (desc : Nat) : Bytes := (m.drop desc).take (byteAt m desc).toNat

/-- The descriptor that is copied is that of the endpoint for the connected speed. -/
def ReportsDesc (u : Heap BindState) (speed : UsbDeviceSpeed) (connected : Speed) (epfile : Nat) :
    Prop :=
  ∃ d, u.priv.descOf connected epfile = some d
    ∧ ∃ desc n, (endpointDesc speed epfile).run u = .ok (desc, n) u
      ∧ (u.mem.drop desc).take n = descBytes u.mem d

/-- The descriptors of an endpoint for two speeds have the same bytes. -/
def SameDesc (u : Heap BindState) (speed speed' : Speed) (i : Nat) : Prop :=
  (u.priv.descOf speed i).map (descBytes u.mem) = (u.priv.descOf speed' i).map (descBytes u.mem)

instance (u : Heap BindState) (speed speed' : Speed) (i : Nat) :
    Decidable (SameDesc u speed speed' i) := by
  unfold SameDesc
  infer_instance

/-- The endpoints have the descriptors that the blob has for them. -/
structure HasDescs (raw : RawDescs) (ffs : FfsData) (u : Heap BindState) : Prop where
  ffs_eq : u.priv.ffs = ffs
  length : u.priv.eps.length = ffs.epsCount
  isSome_iff : ∀ i < ffs.epsCount, ∀ speed,
    (u.priv.descOf speed i).isSome ↔ raw.endpoints speed ≠ []
  lt : ∀ i speed d, u.priv.descOf speed i = some d → d < u.mem.length

/-! ### Bound functions -/

section Bound

variable {c : UsbConfig} {raw : RawDescs} {ffs : FfsData} {s u : Heap BindState}

/-- Each endpoint has a descriptor in the speeds that have endpoints. -/
theorem hasDescs_of_bound (hraw : raw.Valid ffs) (hffs : s.priv.ffs = ffs)
    (hbind : (ffsFuncBind c).run s = .ok () u) :
  HasDescs raw ffs u
  := by
  unfold ffsFuncBind at hbind
  obtain ⟨lens, v, hpasses, hbind⟩ := run_bind_ok.mp hbind
  obtain ⟨_, w, hpatch, hbind⟩ := run_bind_ok.mp hbind
  obtain rfl : _ = u := (EStateM.Result.ok.inj hbind).2
  obtain ⟨-, -, t, ht, hsame⟩ :=
    bindPasses_ok hraw hffs (noneAhead_of_patched hpasses hpatch) hpasses
  have hkept : v.priv.descState = t.priv.descState :=
    hsame (F := fun s => s.priv.descState) fun _ _ _ _ _ _ _ _ => rfl
  have hpatched : w.priv.descState = v.priv.descState := (keepsDescs_patchFunc v).of_ok hpatch
  have hlength : w.mem.length = raw.bytes.length := by
    have hmem : v.mem = t.mem := hsame (F := Heap.mem) fun _ _ _ _ _ _ _ _ => rfl
    obtain ⟨_, r, hr, hrt⟩ := ht
    rw [((patchInvariant_length _).patchFunc v rfl).of_ok hpatch, hmem, ← hrt.mem.1, ← hr.mem.1]
  obtain ⟨_, r, hr, heps, hffs'⟩ := ht.walked (hpatched.trans hkept)
  refine ⟨hffs', ?_, fun i hi speed => ?_, fun i speed d hd => ?_⟩
  · rw [← hr.length]
    exact congrArg List.length heps
  · have hlt : i < r.priv.eps.length := by
      rw [hr.length]
      apply hi
    have hwalked := hr.eps i _ (List.getElem?_eq_getElem hlt)
    show ((w.priv.eps[i]?.bind fun ep => ep.descs speed)).isSome ↔ _
    rw [heps, List.getElem?_eq_getElem hlt]
    refine (hwalked.seen_iff speed).trans ⟨?_, fun hne => ?_⟩
    · rintro ⟨a, ha, -⟩ hnil
      rw [show speedEndpoints raw.bytes (raw.descs speed) = [] from hnil] at ha
      cases ha
    · have hcount : ffs.descsCount speed ≠ 0 := by
        rintro hzero
        apply hne
        have hnil := List.length_eq_zero_iff.mp ((hraw.length_descs speed).trans hzero)
        unfold RawDescs.endpoints
        rw [hnil]
        rfl
      have hagree := hraw.agree speed hcount
      obtain ⟨hnil, -⟩ | ⟨-, hall, -⟩ := id hagree
      · exact absurd hnil hne
      · apply hagree.addr2idx_of_lt hall (hr.nodup speed) hi
  · obtain ⟨ep, hep, hd⟩ := Option.bind_eq_some_iff.mp hd
    rw [show w.priv.eps = r.priv.eps from heps] at hep
    obtain ⟨v, hv, rfl, -⟩ := (hr.eps i ep hep).desc speed d hd
    show v.offset < w.mem.length
    have hin := (hraw.mem hv).2.1
    have hsize := (hraw.mem hv).2.2
    have hstop := hraw.stop_le speed
    unfold descSize at hsize
    split_ifs at hsize
    omega

theorem epfilePlace_of_lt {epsCount epfile : Nat} (h : epfile < epsCount) :
  epfilePlace epsCount epfile = epfile
  := by
  have hfind : (List.range epsCount).find? (fun i => i = epfile) = some epfile := by
    rw [List.find?_range_eq_some]
    refine ⟨decide_eq_true rfl, List.mem_range.mpr h, fun j hj => ?_⟩
    rw [decide_eq_false (Nat.ne_of_lt hj)]
    rfl
  unfold epfilePlace
  rw [hfind]
  rfl

/-- The command copies the descriptor in the slot, or follows a null pointer if there is none. -/
theorem run_endpointDesc (hu : HasDescs raw ffs u) {epfile : Nat} (he : epfile < ffs.epsCount)
    (speed : UsbDeviceSpeed) :
  (endpointDesc speed epfile).run u
    = match u.priv.descOf (descSlot speed) epfile with
      | none => .error (.fault .nullDeref) u
      | some d => .ok (d, (byteAt u.mem d).toNat) u
  := by
  have hlt : epfile < u.priv.eps.length := by
    rw [hu.length]
    apply he
  have hdesc : u.priv.descOf (descSlot speed) epfile
      = u.priv.eps[epfile].descs (descSlot speed) := by
    unfold BindState.descOf
    rw [List.getElem?_eq_getElem hlt]
    rfl
  unfold endpointDesc
  rw [EStateM.run_bind, run_look]
  dsimp only
  rw [hu.ffs_eq, epfilePlace_of_lt he, EStateM.run_bind, run_checkIndex hlt]
  dsimp only
  rw [List.getElem?_eq_getElem hlt, EStateM.run_bind]
  dsimp only [deref]
  rw [EStateM.run_pure]
  dsimp only
  rw [EStateM.run_bind, hdesc]
  cases hd : u.priv.eps[epfile].descs (descSlot speed) with
  | none => rfl
  | some d =>
      have hin : d < u.mem.length := hu.lt epfile _ d (hdesc.trans hd)
      dsimp only
      rw [EStateM.run_pure]
      dsimp only
      rw [EStateM.run_bind, run_map, run_read8 hin]
      rfl

/-- What is copied is right exactly if there is a descriptor for the connected speed, and the slot
is of that speed, or its descriptor is there and has the same bytes. -/
theorem reportsDesc_iff (hu : HasDescs raw ffs u) {epfile : Nat} (he : epfile < ffs.epsCount)
    (speed : UsbDeviceSpeed) (connected : Speed) :
  ReportsDesc u speed connected epfile
    ↔ raw.endpoints connected ≠ []
      ∧ (descSlot speed = connected
        ∨ raw.endpoints (descSlot speed) ≠ [] ∧ SameDesc u (descSlot speed) connected epfile)
  := by
  rw [← hu.isSome_iff epfile he, ← hu.isSome_iff epfile he]
  unfold ReportsDesc SameDesc
  rw [run_endpointDesc hu he]
  cases hd : u.priv.descOf connected epfile with
  | none =>
      apply iff_of_false
      · rintro ⟨d, ⟨⟩, -⟩
      · rintro ⟨h, -⟩
        cases h
  | some d =>
      cases hslot : u.priv.descOf (descSlot speed) epfile with
      | none =>
          apply iff_of_false
          · rintro ⟨_, -, _, _, ⟨⟩, -⟩
          · rintro ⟨-, heq | ⟨h, -⟩⟩
            · rw [heq, hd] at hslot
              cases hslot
            · cases h
      | some d' =>
          constructor
          · rintro ⟨_, ⟨⟩, _, _, ⟨⟩, hbytes⟩
            exact ⟨rfl, .inr ⟨rfl, congrArg some hbytes⟩⟩
          · rintro ⟨-, heq | ⟨-, hsame⟩⟩
            · rw [heq, hd] at hslot
              obtain rfl := Option.some.inj hslot
              exact ⟨d, rfl, d, _, rfl, rfl⟩
            · exact ⟨d, rfl, d', _, rfl, Option.some.inj hsame⟩

end Bound

/-- A function that is bound after its descriptors were accepted reports for each endpoint file the
descriptor of the connected speed exactly if that speed has the endpoints, and the speed recorded
at the bind selects it, or another speed with the endpoints that has the same descriptor. -/
theorem endpointDesc_iff
    {fdget : EventfdCtxFdget} {m : Bytes} {ffs : FfsData} {t : Heap FfsData} {lay : DescLayout}
    {c : UsbConfig} {s u : Heap BindState} {epfile : Nat}
    (hm : 12 ≤ m.length) (hmax : m.length < 2147483648)
    (hacc : (ffsDataGotDescs fdget m.length).run ⟨m, ffs⟩ = .ok () t)
    (hlay : Parses m t.priv.interfacesCount lay) (hffs : s.priv.ffs = t.priv)
    (hbind : (ffsFuncBind c).run s = .ok () u) (he : epfile < t.priv.epsCount)
    (speed : UsbDeviceSpeed) (connected : Speed) :
  ReportsDesc u speed connected epfile
    ↔ (lay.raw m).endpoints connected ≠ []
      ∧ (descSlot speed = connected
        ∨ (lay.raw m).endpoints (descSlot speed) ≠ []
          ∧ SameDesc u (descSlot speed) connected epfile)
  := reportsDesc_iff (hasDescs_of_bound (hlay.valid hm hmax hacc) hffs hbind) he speed connected

/-- What a bind of a function with the full and the high speed leaves. -/
def twoSpeedsBound : Heap BindState :=
  bindState ((ffsFuncBind plainConfig).run (bindNew (newFunction twoSpeedDescs).priv.ffs))

/-- The file of the endpoint reports the high-speed descriptor, if the connection has high speed. -/
theorem endpointDesc_high :
  ReportsDesc twoSpeedsBound .unknown .high 0
  := by
  have hacc : (ffsDataGotDescs (fun _ => .ok 0) twoSpeedDescs.length).run
      ⟨twoSpeedDescs, ffsDataNew⟩ = .ok () ⟨twoSpeedDescs, (newFunction twoSpeedDescs).priv.ffs⟩ :=
    rfl
  have hlay : Parses twoSpeedDescs (newFunction twoSpeedDescs).priv.ffs.interfacesCount
      ⟨⟨3, 2, 2, 0, 0, 20⟩, [⟨20, 9⟩, ⟨29, 7⟩], [⟨36, 9⟩, ⟨45, 7⟩], [], []⟩ :=
    ⟨by decide +kernel, by decide +kernel, by decide +kernel, by decide +kernel, by decide +kernel,
      by decide, by decide⟩
  have hstop : stopOf ((ffsFuncBind plainConfig).run
      (bindNew (newFunction twoSpeedDescs).priv.ffs)) = none := by
    decide +kernel
  obtain ⟨_, u, hu⟩ := stopOf_eq_none.mp hstop
  have hbound : twoSpeedsBound = u := congrArg bindState hu
  rw [hbound]
  apply (endpointDesc_iff (by decide) (by decide) hacc hlay rfl hu (by decide +kernel) .unknown
    .high).mpr
  exact ⟨by decide +kernel, .inl rfl⟩

/-- The descriptors of a function are accepted, and it is bound.  They are of the full speed only,
and the command follows the pointer to a high-speed one. -/
theorem endpointDesc_missing :
  AcceptedBlob twoEndpointDescs
    ∧ stopOf (bindBlob twoEndpointDescs funcNew) = none
    ∧ (twoEndpointsBound.priv.descOf .full 0).isSome
    ∧ stopOf ((endpointDesc .unknown 0).run twoEndpointsBound) = some (.fault .nullDeref)
    ∧ ¬ReportsDesc twoEndpointsBound .unknown .full 0
  := by
  have hstop : stopOf ((endpointDesc .unknown 0).run twoEndpointsBound)
      = some (.fault .nullDeref) := by
    decide +kernel
  refine ⟨⟨_, rfl⟩, by decide +kernel, by decide +kernel, hstop, ?_⟩
  rintro ⟨_, -, _, _, hrun, -⟩
  rw [hrun] at hstop
  cases hstop

end Ffs
