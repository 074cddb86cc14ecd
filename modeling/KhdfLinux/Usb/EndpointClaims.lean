import KhdfLinux.Usb.RawDescs

/-!
# Claimed endpoints

What a bind does when it comes to the descriptor of an endpoint: it claims the endpoint of the
gadget for the first speed, and takes the address over from the full speed for the others.  In
the copy of the descriptors it rewrites addresses and packet sizes of endpoints it has come to,
and nothing else.
-/

namespace Ffs

open Bytes Exec Heap Walk

/-- The gadget has all that a bind asks for. -/
structure UsbConfig.Obliging (c : UsbConfig) : Prop where
  autoconfig : ∀ claimed bytes, ∃ config, c.autoconfig claimed bytes = some config
    ∧ config.bEndpointAddress &&& usbEndpointNumberMask ≠ 0
  allocRequest : ∀ ep, c.allocRequest ep
  interfaceId : ∀ n, 0 ≤ c.interfaceId n

/-! ### One endpoint -/

/-- The positions of the address and of the packet size of the endpoint descriptor at `d`. -/
def EpField (d p : Nat) : Prop := p = d + 2 ∨ p = d + 4 ∨ p = d + 5

theorem run_readBytes {n p : Nat} {s : Heap BindState} (h : p + n ≤ s.mem.length) :
  (readBytes n p).run s = .ok ((s.mem.drop p).take n) s
  := by
  induction n generalizing p with
  | zero => rfl
  | succ n ih =>
      have hp : p < s.mem.length := by omega
      rw [readBytes, EStateM.run_bind, run_read8 hp]
      dsimp only
      rw [EStateM.run_bind, ih (by omega), List.drop_eq_getElem_cons hp, List.take_succ_cons]
      simp [byteAt, hp]

theorem run_checkIndex {i size : Nat} (h : i < size) (s : Heap BindState) :
  (checkIndex i size).run s = .ok () s
  := by
  rw [checkIndex, if_pos h]
  rfl

theorem run_write16 {p v : Nat} {s : Heap BindState} (h : p + 1 < s.mem.length) :
  (write16 p v).run s
    = .ok () ⟨(s.mem.set p (UInt8.ofNat v)).set (p + 1) (UInt8.ofNat (v / 256)), s.priv⟩
  := by
  rw [write16, EStateM.run_bind, run_write8 _ (by omega)]
  dsimp only
  rw [run_write8 _ (by simpa using h)]

/-- To claim an endpoint rewrites its descriptor, and fails for want of an endpoint or of a
request. -/
theorem claimEp_meets {c : UsbConfig} {idx ds : Nat} {s : Heap BindState}
    (h6 : ds + 6 ≤ s.mem.length) (hlen : ds + (byteAt s.mem ds).toNat ≤ s.mem.length)
    (hnumber : byteAt s.mem (ds + 2) &&& usbEndpointNumberMask ≠ 0) :
  (claimEp c idx ds).Meets s
    (fun _ t => AgreeOff (EpField ds) s.mem t.mem
      ∧ (c.Obliging → byteAt t.mem (ds + 2) &&& usbEndpointNumberMask ≠ 0)
      ∧ ∃ config revmap,
        c.autoconfig s.priv.claimed ((s.mem.drop ds).take (byteAt s.mem ds).toNat) = some config
        ∧ byteAt t.mem (ds + 2) = (if hasFlag s.priv.ffs.userFlags functionfsVirtualAddr then
            byteAt s.mem (ds + 2) else config.bEndpointAddress)
        ∧ t.priv = { s.priv with
          eps := s.priv.eps.modify idx fun ep => { ep with ep := some config.ep, req := true }
          claimed := config.ep :: s.priv.claimed
          epsRevmap := revmap })
    (fun e _ => (∃ code, e = .ret code) ∧ ¬c.Obliging)
  := by
  unfold claimEp
  refine meets_step (run_read8 (by omega)) ?_
  refine meets_step (by rw [run_map, run_read8 (by omega)]) ?_
  refine meets_step (run_readBytes hlen) (meets_step (run_look s) ?_)
  cases hauto : c.autoconfig s.priv.claimed
      ((s.mem.drop ds).take (byteAt s.mem ds).toNat) with
  | none =>
      refine meets_stop ⟨⟨_, rfl⟩, fun hc => ?_⟩
      obtain ⟨config, hconfig, -⟩ := hc.autoconfig s.priv.claimed
        ((s.mem.drop ds).take (byteAt s.mem ds).toNat)
      rw [hauto] at hconfig
      cases hconfig
  | some config =>
      refine meets_step (run_write8 _ (by omega)) ?_
      refine meets_step (run_write16 (by simp; omega)) (meets_step (run_update _ _) ?_)
      refine meets_guard (fun halloc => ?_) fun halloc => ?_
      · exact ⟨⟨_, rfl⟩, fun hc => halloc (hc.allocRequest config.ep)⟩
      refine meets_step (run_update _ _) (meets_step (run_update _ _) ?_)
      have hmem : AgreeOff (EpField ds) s.mem
          (((s.mem.set (ds + 2) config.bEndpointAddress).set (ds + 4)
            (UInt8.ofNat config.wMaxPacketSize)).set (ds + 4 + 1)
            (UInt8.ofNat (config.wMaxPacketSize / 256))) := by
        refine AgreeOff.set (AgreeOff.set (AgreeOff.set ⟨rfl, fun _ _ => rfl⟩ _ ?_) _ ?_) _ ?_
        · exact .inl rfl
        · exact .inr (.inl rfl)
        · exact .inr (.inr rfl)
      by_cases hvirt : hasFlag s.priv.ffs.userFlags functionfsVirtualAddr
      · rw [if_pos hvirt]
        apply meets_write8 (by simp; omega)
        refine ⟨hmem.set _ (.inl rfl), fun _ => ?_, config, _, rfl, ?_, rfl⟩
        · rw [byteAt_set_eq _ (by simp; omega)]
          apply hnumber
        · rw [if_pos hvirt, byteAt_set_eq _ (by simp; omega)]
      · have haddr : byteAt (((s.mem.set (ds + 2) config.bEndpointAddress).set (ds + 4)
              (UInt8.ofNat config.wMaxPacketSize)).set (ds + 4 + 1)
              (UInt8.ofNat (config.wMaxPacketSize / 256))) (ds + 2)
            = config.bEndpointAddress := by
          rw [byteAt_set_ne _ (by omega), byteAt_set_ne _ (by omega), byteAt_set_eq _ (by omega)]
        rw [if_neg hvirt]
        refine meets_pure ⟨hmem, fun hc => ?_, config, _, rfl, ?_, rfl⟩
        · obtain ⟨config', hconfig, hne⟩ := hc.autoconfig s.priv.claimed
            ((s.mem.drop ds).take (byteAt s.mem ds).toNat)
          obtain rfl := Option.some.inj (hauto.symm.trans hconfig)
          rw [haddr]
          apply hne
        · rw [if_neg hvirt, haddr]

/-- To share an endpoint takes the address of the full-speed descriptor over, if there is one. -/
theorem shareEp_meets {ep : FfsEp} {ds : Nat} {s : Heap BindState}
    (h6 : ds + 6 ≤ s.mem.length)
    (hfull : ∀ d, ep.descs .full = some d → d + 6 ≤ s.mem.length
      ∧ byteAt s.mem (d + 2) &&& usbEndpointNumberMask ≠ 0) :
  (shareEp ep ds).Meets s
    (fun _ t => AgreeOff (EpField ds) s.mem t.mem
      ∧ byteAt t.mem (ds + 2) &&& usbEndpointNumberMask ≠ 0
      ∧ (∃ d, ep.descs .full = some d ∧ byteAt t.mem (ds + 2) = byteAt s.mem (d + 2))
      ∧ t.priv = s.priv)
    (fun e _ => e = .fault .nullDeref ∧ ep.descs .full = none)
  := by
  unfold shareEp
  cases hdesc : ep.descs .full with
  | none => exact meets_stop ⟨rfl, rfl⟩
  | some d =>
      obtain ⟨hd, hnumber⟩ := hfull d hdesc
      refine meets_step rfl (meets_step (run_read8 (by omega)) ?_)
      refine meets_step (run_write8 _ (by omega)) ?_
      refine meets_step (run_read16 (by simp; omega)) ?_
      have hmem : AgreeOff (EpField ds) s.mem (s.mem.set (ds + 2) (byteAt s.mem (d + 2))) :=
        AgreeOff.set ⟨rfl, fun _ _ => rfl⟩ _ (.inl rfl)
      have haddr : byteAt (s.mem.set (ds + 2) (byteAt s.mem (d + 2))) (ds + 2)
          = byteAt s.mem (d + 2) :=
        byteAt_set_eq _ (by omega)
      split
      · refine meets_step (run_read16 (by simp; omega)) ?_
        unfold Meets
        rw [run_write16 (by simp; omega)]
        have hsame : ∀ x y : UInt8, byteAt (((s.mem.set (ds + 2) (byteAt s.mem (d + 2))).set
            (ds + 4) x).set (ds + 4 + 1) y) (ds + 2) = byteAt s.mem (d + 2) := by
          intro x y
          rw [byteAt_set_ne _ (by omega), byteAt_set_ne _ (by omega), haddr]
        refine ⟨(hmem.set _ (.inr (.inl rfl))).set _ (.inr (.inr rfl)), ?_,
          ⟨d, rfl, hsame _ _⟩, rfl⟩
        rw [hsame]
        apply hnumber
      · refine meets_pure ⟨hmem, ?_, ⟨d, rfl, haddr⟩, rfl⟩
        rw [haddr]
        apply hnumber

/-! ### Addresses -/

theorem ffsEpAddr2idx_eq_some {ffs : FfsData} {a : UInt8} {i : Nat} :
  ffsEpAddr2idx ffs a = some i
    ↔ 1 ≤ i ∧ i < ffsMaxEpsCount ∧ ffs.addrAt i = a ∧ ∀ j, 1 ≤ j → j < i → ffs.addrAt j ≠ a
  := by
  unfold ffsEpAddr2idx
  rw [List.find?_range'_eq_some]
  simp only [List.mem_range'_1, decide_eq_true_eq, ffsMaxEpsCount, Bool.not_eq_true',
    decide_eq_false_iff_not]
  constructor
  · rintro ⟨haddr, ⟨h1, hlt⟩, hfirst⟩
    exact ⟨h1, by omega, haddr, hfirst⟩
  · rintro ⟨h1, hlt, haddr, hfirst⟩
    exact ⟨haddr, ⟨h1, by omega⟩, hfirst⟩

/-- The entries of the address map. -/
theorem FfsData.Matches.addrAt_eq
    {ffs : FfsData} {n k : Nat} {as : List UInt8} {a : UInt8} (h : ffs.Matches n as)
    (hk : as[k]? = some a) :
  ffs.addrAt (n + k) = a
  := by
  induction as generalizing n k with
  | nil => cases hk
  | cons b as ih =>
      cases k with
      | zero =>
          obtain rfl := Option.some.inj hk
          exact h.1
      | succ k =>
          rw [← Nat.add_assoc, Nat.add_right_comm]
          apply ih h.2 hk

/-- The address of an endpoint of a speed is found. -/
theorem FfsData.Agrees.addr2idx
    {ffs : FfsData} {as : List UInt8} {i : Nat} {a : UInt8} (h : ffs.Agrees as i) (ha : a ∈ as) :
  ∃ j, ffsEpAddr2idx ffs a = some (j + 1) ∧ j < ffs.epsCount
  := by
  obtain ⟨rfl, -⟩ | ⟨hmatch, hlen, hlt, -⟩ := h
  · cases ha
  obtain ⟨k, hk⟩ := List.getElem?_of_mem ha
  have hklt := (List.getElem?_eq_some_iff.mp hk).1
  have hmax : as.length < 31 := hlt
  have haddr : ffs.addrAt (1 + k) = a := hmatch.addrAt_eq hk
  have hsome : (ffsEpAddr2idx ffs a).isSome := by
    unfold ffsEpAddr2idx
    rw [List.find?_isSome]
    exact ⟨1 + k, by simp; omega, by simpa using haddr⟩
  obtain ⟨j, hj⟩ := Option.isSome_iff_exists.mp hsome
  obtain ⟨h1, -, -, hfirst⟩ := ffsEpAddr2idx_eq_some.mp hj
  have hle : j ≤ 1 + k := by
    by_contra hgt
    exact hfirst (1 + k) (by omega) (by omega) haddr
  exact ⟨j - 1, by rw [hj, Nat.sub_add_cancel h1], by omega⟩

/-! ### What the walks have seen -/

/-- One descriptor more of a speed. -/
def see (seen : Speed → List Visit) (speed : Speed) (v : Visit) : Speed → List Visit :=
  Function.update seen speed (seen speed ++ [v])

theorem mem_see {seen : Speed → List Visit} {speed sp : Speed} {v w : Visit} :
  w ∈ see seen speed v sp ↔ w ∈ seen sp ∨ sp = speed ∧ w = v
  := by
  unfold see
  by_cases h : sp = speed
  · subst h
    simp
  · simp [h]

theorem speedEndpoints_append (m : Bytes) (us : List Visit) (v : Visit) :
  speedEndpoints m (us ++ [v]) = speedEndpoints m us ++ (descEndpoint m v.offset).toList
  := by
  unfold speedEndpoints
  rw [List.filterMap_append]
  cases h : descEndpoint m v.offset with
  | none => simp [h]
  | some a => simp [h]

theorem mem_speedEndpoints_see
    {m : Bytes} {seen : Speed → List Visit} {speed sp : Speed} {v : Visit} {a : UInt8} :
  a ∈ speedEndpoints m (see seen speed v sp)
    ↔ a ∈ speedEndpoints m (seen sp) ∨ sp = speed ∧ descEndpoint m v.offset = some a
  := by
  unfold speedEndpoints
  simp only [List.mem_filterMap, mem_see]
  constructor
  · rintro ⟨w, hw | ⟨rfl, rfl⟩, ha⟩
    · exact .inl ⟨w, hw, ha⟩
    · exact .inr ⟨rfl, ha⟩
  · rintro (⟨w, hw, ha⟩ | ⟨rfl, ha⟩)
    · exact ⟨w, .inl hw, ha⟩
    · exact ⟨v, .inr ⟨rfl, rfl⟩, ha⟩

/-- The endpoint `idx` after the descriptors `seen`: it has a descriptor in each speed in which
its address was seen, is claimed and has a request as soon as there is one, and a super-speed
descriptor joins a high-speed one only if there is a full-speed one. -/
structure EpWalked (raw : RawDescs) (ffs : FfsData) (seen : Speed → List Visit) (idx : Nat)
    (ep : FfsEp) : Prop where
  seen_iff : ∀ speed, (ep.descs speed).isSome
    ↔ ∃ a ∈ speedEndpoints raw.bytes (seen speed), ffsEpAddr2idx ffs a = some (idx + 1)
  desc : ∀ speed d, ep.descs speed = some d →
    ∃ v ∈ seen speed, v.offset = d ∧ ∃ a, descEndpoint raw.bytes d = some a
      ∧ ffsEpAddr2idx ffs a = some (idx + 1)
  claimed : ep.ep.isSome ↔ ∃ speed, (ep.descs speed).isSome
  req : ep.ep.isSome → ep.req
  shared : (ep.descs .high).isSome → (ep.descs .super).isSome → (ep.descs .full).isSome

namespace EpWalked

variable {raw : RawDescs} {ffs : FfsData} {seen : Speed → List Visit} {idx : Nat} {ep ep' : FfsEp}
  {speed : Speed} {v : Visit} {a : UInt8}

/-- A descriptor that is not of this endpoint. -/
theorem see (h : EpWalked raw ffs seen idx ep)
    (hother : ∀ a, descEndpoint raw.bytes v.offset = some a →
      ffsEpAddr2idx ffs a ≠ some (idx + 1)) :
  EpWalked raw ffs (see seen speed v) idx ep
  := by
  refine ⟨fun sp => (h.seen_iff sp).trans ?_, ?_, h.claimed, h.req, h.shared⟩
  · constructor
    · rintro ⟨a, ha, hidx⟩
      exact ⟨a, mem_speedEndpoints_see.mpr (.inl ha), hidx⟩
    · rintro ⟨a, ha, hidx⟩
      obtain ha | ⟨-, ha⟩ := mem_speedEndpoints_see.mp ha
      · exact ⟨a, ha, hidx⟩
      · apply absurd hidx (hother a ha)
  · intro sp d hd
    obtain ⟨w, hw, hpos⟩ := h.desc sp d hd
    exact ⟨w, mem_see.mpr (.inl hw), hpos⟩

/-- A descriptor of this endpoint, in a speed in which it has none. -/
theorem take (h : EpWalked raw ffs seen idx ep) (ha : descEndpoint raw.bytes v.offset = some a)
    (hidx : ffsEpAddr2idx ffs a = some (idx + 1)) (hnone : ep.descs speed = none)
    (hdescs : ep'.descs = Function.update ep.descs speed (some v.offset)) (hep : ep'.ep.isSome)
    (hreq : ep'.req) (hshared : ep.ep.isSome → (ep'.descs .full).isSome) :
  EpWalked raw ffs (Ffs.see seen speed v) idx ep'
  := by
  refine ⟨fun sp => ?_, fun sp d hd => ?_, iff_of_true hep ⟨speed, by simp [hdescs]⟩,
    fun _ => hreq, fun hhigh hsuper => ?_⟩
  · rw [hdescs]
    by_cases hsp : sp = speed
    · subst hsp
      refine iff_of_true (by simp) ⟨a, mem_speedEndpoints_see.mpr (.inr ⟨rfl, ha⟩), hidx⟩
    · rw [Function.update_of_ne hsp, h.seen_iff sp]
      refine exists_congr fun b => and_congr_left fun _ => ?_
      rw [mem_speedEndpoints_see]
      exact (or_iff_left fun hb => hsp hb.1).symm
  · rw [hdescs] at hd
    by_cases hsp : sp = speed
    · subst hsp
      rw [Function.update_self] at hd
      obtain rfl := Option.some.inj hd
      exact ⟨v, mem_see.mpr (.inr ⟨rfl, rfl⟩), rfl, a, ha, hidx⟩
    · rw [Function.update_of_ne hsp] at hd
      obtain ⟨w, hw, hpos⟩ := h.desc sp d hd
      exact ⟨w, mem_see.mpr (.inl hw), hpos⟩
  · by_cases hclaimed : ep.ep.isSome
    · apply hshared hclaimed
    -- the endpoint has its first descriptor, so it has only one
    have hnever : ∀ sp, ¬(ep.descs sp).isSome := fun sp hsp => hclaimed (h.claimed.mpr ⟨sp, hsp⟩)
    rw [hdescs] at hhigh hsuper
    cases speed with
    | full => exact absurd hhigh (hnever .high)
    | high => exact absurd hsuper (hnever .super)
    | super => exact absurd hhigh (hnever .high)

end EpWalked

/-- The bytes a bind has changed when it has claimed the endpoints of the descriptors `seen`. -/
def RawDescs.Claimed (raw : RawDescs) (interfaces : Nat) (seen : Speed → List Visit) (p : Nat) :
    Prop :=
  raw.Reserved interfaces p
    ∨ ∃ speed, ∃ v ∈ seen speed, (descEndpoint raw.bytes v.offset).isSome ∧ EpField v.offset p

/-- The state of the walks over the speeds after the descriptors `seen`. -/
structure EndpointsWalked (raw : RawDescs) (ffs : FfsData) (seen : Speed → List Visit)
    (s : Heap BindState) : Prop where
  ffs_eq : s.priv.ffs = ffs
  mem : AgreeOff (raw.Claimed ffs.interfacesCount seen) raw.bytes s.mem
  numbered : ∀ speed, ∀ v ∈ seen speed, (descEndpoint raw.bytes v.offset).isSome →
    byteAt s.mem (v.offset + 2) &&& usbEndpointNumberMask ≠ 0
  length : s.priv.eps.length = ffs.epsCount
  eps : ∀ idx ep, s.priv.eps[idx]? = some ep → EpWalked raw ffs seen idx ep
  nodup : ∀ speed, (speedEndpoints raw.bytes (seen speed)).Nodup
  same : ∀ a speed speed', ∀ v ∈ seen speed, ∀ w ∈ seen speed',
    descEndpoint raw.bytes v.offset = some a → descEndpoint raw.bytes w.offset = some a →
    byteAt s.mem (v.offset + 2) = byteAt s.mem (w.offset + 2)

/-- The descriptor `v` of a speed comes next, behind the descriptors `seen`. -/
structure RawDescs.Next (raw : RawDescs) (seen : Speed → List Visit) (speed : Speed) (v : Visit) :
    Prop where
  split : ∃ ws, raw.descs speed = seen speed ++ v :: ws
  behind : ∀ sp, ∀ w ∈ seen sp, w ∈ raw.descs sp ∧ w.offset + w.size ≤ v.offset
  earlier : ∀ sp, sp.rank < speed.rank → seen sp = raw.descs sp
  later : ∀ sp, speed.rank < sp.rank → seen sp = []

section Next

variable {raw : RawDescs} {ffs : FfsData} {seen : Speed → List Visit} {speed : Speed} {v : Visit}
  {s t : Heap BindState} {a : UInt8} {j : Nat} {ep : FfsEp}

theorem RawDescs.Next.mem (h : raw.Next seen speed v) :
  v ∈ raw.descs speed
  := by
  obtain ⟨ws, hws⟩ := h.split
  simp [hws]

/-- An address that comes again. -/
theorem RawDescs.Next.not_nodup (h : raw.Next seen speed v)
    (ha : descEndpoint raw.bytes v.offset = some a)
    (hseen : a ∈ speedEndpoints raw.bytes (seen speed)) :
  ¬(raw.endpoints speed).Nodup
  := by
  obtain ⟨ws, hws⟩ := h.split
  intro hnodup
  unfold RawDescs.endpoints speedEndpoints at hnodup
  rw [hws, List.filterMap_append, List.filterMap_cons, ha] at hnodup
  exact (List.nodup_append.mp hnodup).2.2 a hseen a (by simp) rfl

/-- The addresses of the endpoints before the next descriptor are not touched. -/
theorem RawDescs.Next.kept
    {m m' : Bytes} {sp : Speed} {w : Visit} (h : raw.Next seen speed v) (hraw : raw.Valid ffs)
    (hmem : AgreeOff (EpField v.offset) m m') (hw : w ∈ seen sp)
    (hep : (descEndpoint raw.bytes w.offset).isSome) :
  byteAt m (w.offset + 2) = byteAt m' (w.offset + 2)
  := by
  obtain ⟨hwmem, hle⟩ := h.behind sp w hw
  obtain ⟨b, hb⟩ := Option.isSome_iff_exists.mp hep
  obtain ⟨-, -, h7, -⟩ := descSize_endpoint (hraw.mem hwmem).2.2 hb
  refine hmem.2 (w.offset + 2) ?_
  unfold EpField
  omega

/-- The bytes of the next descriptor are still there. -/
theorem EndpointsWalked.fresh
    (hs : EndpointsWalked raw ffs seen s) (hraw : raw.Valid ffs) (hnext : raw.Next seen speed v)
    {p : Nat} (hv : v.offset ≤ p) (hp : p < raw.osAt + 12) :
  byteAt s.mem p = byteAt raw.bytes p
  := by
  refine (hs.mem.2 p ?_).symm
  rintro (hres | ⟨sp, w, hw, hep, hfield⟩)
  · have := hraw.le_of_reserved hres
    omega
  · obtain ⟨hmem, hle⟩ := hnext.behind sp w hw
    obtain ⟨a, ha⟩ := Option.isSome_iff_exists.mp hep
    obtain ⟨-, -, h7, -⟩ := descSize_endpoint (hraw.mem hmem).2.2 ha
    unfold EpField at hfield
    omega

/-- A descriptor that is not of an endpoint. -/
theorem EndpointsWalked.see
    (hs : EndpointsWalked raw ffs seen s) (hv : descEndpoint raw.bytes v.offset = none) :
  EndpointsWalked raw ffs (see seen speed v) s
  := by
  have hnone : ∀ w, w = v → ¬(descEndpoint raw.bytes w.offset).isSome := by
    rintro w rfl
    simp [hv]
  refine ⟨hs.ffs_eq, hs.mem.mono ?_, ?_, hs.length, ?_, ?_, ?_⟩
  · rintro p (hres | ⟨sp, w, hw, hep⟩)
    · exact .inl hres
    · exact .inr ⟨sp, w, mem_see.mpr (.inl hw), hep⟩
  · intro sp w hw hep
    obtain hw | ⟨-, hw⟩ := mem_see.mp hw
    · apply hs.numbered sp w hw hep
    · apply absurd hep (hnone w hw)
  · intro idx ep hidx
    exact (hs.eps idx ep hidx).see fun a ha => by rw [hv] at ha; cases ha
  · intro sp
    by_cases hsp : sp = speed
    · subst hsp
      rw [Ffs.see, Function.update_self, speedEndpoints_append, hv]
      simpa using hs.nodup sp
    · rw [Ffs.see, Function.update_of_ne hsp]
      apply hs.nodup sp
  · intro a sp sp' w hw w' hw' ha ha'
    obtain hw | ⟨-, hw⟩ := mem_see.mp hw
    · obtain hw' | ⟨-, hw'⟩ := mem_see.mp hw'
      · apply hs.same a sp sp' w hw w' hw' ha ha'
      · exact absurd (by simp [ha']) (hnone w' hw')
    · exact absurd (by simp [ha]) (hnone w hw)

/-- The descriptor of an endpoint that has none of this speed so far. -/
theorem EndpointsWalked.take
    (hs : EndpointsWalked raw ffs seen s) (ep' : FfsEp) (hraw : raw.Valid ffs)
    (hnext : raw.Next seen speed v)
    (ha : descEndpoint raw.bytes v.offset = some a)
    (hidx : ffsEpAddr2idx ffs a = some (j + 1)) (hep : s.priv.eps[j]? = some ep)
    (hnone : ep.descs speed = none) (hffs : t.priv.ffs = s.priv.ffs)
    (hmem : AgreeOff (EpField v.offset) s.mem t.mem)
    (hnumber : byteAt t.mem (v.offset + 2) &&& usbEndpointNumberMask ≠ 0)
    (hlength : t.priv.eps.length = s.priv.eps.length)
    (hother : ∀ i, i ≠ j → t.priv.eps[i]? = s.priv.eps[i]?) (hep' : t.priv.eps[j]? = some ep')
    (hdescs : ep'.descs = Function.update ep.descs speed (some v.offset))
    (hclaimed : ep'.ep.isSome) (hreq : ep'.req)
    (hshared : ep.ep.isSome → (ep'.descs .full).isSome)
    (hsame : ∀ sp, ∀ w ∈ seen sp, descEndpoint raw.bytes w.offset = some a →
      byteAt t.mem (v.offset + 2) = byteAt t.mem (w.offset + 2)) :
  EndpointsWalked raw ffs (Ffs.see seen speed v) t
  := by
  have hwalked := hs.eps j ep hep
  have hkept : ∀ sp, ∀ w ∈ seen sp, (descEndpoint raw.bytes w.offset).isSome →
      byteAt s.mem (w.offset + 2) = byteAt t.mem (w.offset + 2) :=
    fun sp w hw hwep => hnext.kept hraw hmem hw hwep
  refine ⟨hffs.trans hs.ffs_eq, ?_, ?_, hlength.trans hs.length, ?_, ?_, ?_⟩
  · refine AgreeOff.trans (hs.mem.mono ?_) (hmem.mono ?_)
    · rintro p (hres | ⟨sp, w, hw, hfield⟩)
      · exact .inl hres
      · exact .inr ⟨sp, w, mem_see.mpr (.inl hw), hfield⟩
    · intro p hp
      exact .inr ⟨speed, v, mem_see.mpr (.inr ⟨rfl, rfl⟩), by simp [ha], hp⟩
  · intro sp w hw hwep
    obtain hw | ⟨rfl, rfl⟩ := mem_see.mp hw
    · rw [← hkept sp w hw hwep]
      apply hs.numbered sp w hw hwep
    · apply hnumber
  · intro i e hi
    by_cases hij : i = j
    · subst hij
      obtain rfl := Option.some.inj (hi.symm.trans hep')
      apply hwalked.take ha hidx hnone hdescs hclaimed hreq hshared
    · rw [hother i hij] at hi
      refine (hs.eps i e hi).see fun b hb hbidx => hij ?_
      obtain rfl := Option.some.inj (ha.symm.trans hb)
      have := Option.some.inj (hidx.symm.trans hbidx)
      omega
  · intro sp
    by_cases hsp : sp = speed
    · subst hsp
      rw [Ffs.see, Function.update_self, speedEndpoints_append, ha]
      have hnot : a ∉ speedEndpoints raw.bytes (seen sp) := by
        intro hmem
        have := (hwalked.seen_iff sp).mpr ⟨a, hmem, hidx⟩
        simp [hnone] at this
      exact List.nodup_append.mpr ⟨hs.nodup sp, by simp, by
        intro b hb b' hb' heq
        simp only [Option.toList_some, List.mem_singleton] at hb'
        exact hnot (hb' ▸ heq ▸ hb)⟩
    · rw [Ffs.see, Function.update_of_ne hsp]
      apply hs.nodup sp
  · intro b sp sp' w hw w' hw' hb hb'
    obtain hold | ⟨-, rfl⟩ := mem_see.mp hw
    · obtain hold' | ⟨-, rfl⟩ := mem_see.mp hw'
      · rw [← hkept sp w hold (by simp [hb]), ← hkept sp' w' hold' (by simp [hb'])]
        apply hs.same b sp sp' w hold w' hold' hb hb'
      · obtain rfl := Option.some.inj (ha.symm.trans hb')
        exact (hsame sp w hold hb).symm
    · obtain rfl := Option.some.inj (ha.symm.trans hb)
      obtain hold' | ⟨-, rfl⟩ := mem_see.mp hw'
      · apply hsame sp' w' hold' hb'
      · rfl

end Next

/-- Why the walks over the descriptors stop: the gadget lacks something, a speed has two endpoints
with one address, the high and the super speed have endpoints and the full speed has none, or the
number of descriptors of a speed is the greatest there is.  A null pointer is followed only if
nothing else is wrong. -/
def BindStop (c : UsbConfig) (raw : RawDescs) (ffs : FfsData) : Stop → Prop
  | .ret _ => c.Obliging → ∃ speed, ¬(raw.endpoints speed).Nodup
  | .fault .nullDeref =>
      raw.endpoints .full = [] ∧ raw.endpoints .high ≠ [] ∧ raw.endpoints .super ≠ []
        ∧ ∀ speed, (raw.endpoints speed).Nodup ∧ ffs.descsCount speed ≠ 4294967295
  | .fault .outOfBounds => ∃ speed, ffs.descsCount speed = 4294967295
  | .fault _ => False

section Walk

variable {c : UsbConfig} {raw : RawDescs} {ffs : FfsData} {seen : Speed → List Visit}
  {speed : Speed} {v : Visit} {s : Heap BindState} {a : UInt8}

/-- The speeds that have descriptors and endpoints have the same endpoints. -/
theorem RawDescs.Valid.endpoints_eq
    (hraw : raw.Valid ffs) {sp sp' : Speed} (h : raw.endpoints sp ≠ [])
    (h' : raw.endpoints sp' ≠ []) :
  raw.endpoints sp = raw.endpoints sp'
  := by
  have hcount : ∀ sp, raw.endpoints sp ≠ [] → ffs.descsCount sp ≠ 0 := by
    intro sp hne hzero
    have hnil := List.length_eq_zero_iff.mp ((hraw.length_descs sp).trans hzero)
    exact hne (by simp [RawDescs.endpoints, speedEndpoints, hnil])
  obtain ⟨hnil, -⟩ | ⟨hmatch, hlen, -, -⟩ := hraw.agree sp (hcount sp h)
  · apply absurd hnil h
  obtain ⟨hnil, -⟩ | ⟨hmatch', hlen', -, -⟩ := hraw.agree sp' (hcount sp' h')
  · apply absurd hnil h'
  apply hmatch.unique hmatch' (hlen.trans hlen'.symm)

/-- An endpoint is claimed, but not in the full speed, when another speed comes to it. -/
theorem EndpointsWalked.only_high_and_super
    {idx : Nat} {ep : FfsEp} (hs : EndpointsWalked raw ffs seen s) (hraw : raw.Valid ffs)
    (hnext : raw.Next seen speed v) (hcounts : ∀ sp, sp.rank ≤ speed.rank →
      ffs.descsCount sp ≠ 4294967295)
    (hep : EpWalked raw ffs seen idx ep) (ha : descEndpoint raw.bytes v.offset = some a)
    (hidx : ffsEpAddr2idx ffs a = some (idx + 1)) (hnone : ep.descs speed = none)
    (hclaimed : ep.ep.isSome)
    (hfull : Function.update ep.descs speed (some v.offset) .full = none) :
  BindStop c raw ffs (.fault .nullDeref)
  := by
  have hspeed : speed ≠ .full := by
    rintro rfl
    simp at hfull
  rw [Function.update_of_ne hspeed.symm] at hfull
  have hne : raw.endpoints speed ≠ [] :=
    List.ne_nil_of_mem (List.mem_filterMap.mpr ⟨v, hnext.mem, ha⟩)
  -- the other speed that has seen the endpoint
  obtain ⟨sp, hsp⟩ := hep.claimed.mp hclaimed
  obtain ⟨b, hb, hbidx⟩ := (hep.seen_iff sp).mp hsp
  obtain ⟨w, hw, hwb⟩ := List.mem_filterMap.mp hb
  have hne' : raw.endpoints sp ≠ [] :=
    List.ne_nil_of_mem (List.mem_filterMap.mpr ⟨w, (hnext.behind sp w hw).1, hwb⟩)
  have hspfull : sp ≠ .full := by
    rintro rfl
    simp [hfull] at hsp
  have hspne : sp ≠ speed := by
    rintro rfl
    simp [hnone] at hsp
  have hempty : raw.endpoints .full = [] := by
    by_contra hfullne
    have hmem : a ∈ raw.endpoints .full := by
      rw [hraw.endpoints_eq hfullne hne]
      exact List.mem_filterMap.mpr ⟨v, hnext.mem, ha⟩
    have hrank : Speed.rank .full < speed.rank := by
      cases speed with
      | full => exact absurd rfl hspeed
      | high => decide
      | super => decide
    rw [RawDescs.endpoints, ← hnext.earlier .full hrank] at hmem
    have := (hep.seen_iff .full).mpr ⟨a, hmem, hidx⟩
    simp [hfull] at this
  cases speed with
  | full => exact absurd rfl hspeed
  | high =>
      cases sp with
      | full => exact absurd rfl hspfull
      | high => exact absurd rfl hspne
      | super =>
          rw [hnext.later .super (by decide)] at hw
          cases hw
  | super =>
      cases sp with
      | full => exact absurd rfl hspfull
      | super => exact absurd rfl hspne
      | high =>
          have hnodup := hs.nodup .high
          rw [hnext.earlier .high (by decide)] at hnodup
          refine ⟨hempty, hne', hne, fun sp => ⟨?_, hcounts sp (by cases sp <;> decide)⟩⟩
          cases sp with
          | full => exact hempty ▸ List.nodup_nil
          | high => exact hnodup
          | super => exact hraw.endpoints_eq hne' hne ▸ hnodup

/-- How the endpoint of the descriptor `v` with the address `a` comes by its address, behind the
descriptors `seen`: it is claimed for the bytes of this descriptor, unless it was before. -/
structure RawDescs.Taken (raw : RawDescs) (c : UsbConfig) (seen : Speed → List Visit) (v : Visit)
    (a : UInt8) (s t : Heap BindState) : Prop where
  again : (∃ sp, a ∈ speedEndpoints raw.bytes (seen sp)) → t.priv.claimed = s.priv.claimed
  first : (¬∃ sp, a ∈ speedEndpoints raw.bytes (seen sp)) → ∃ config,
    c.autoconfig s.priv.claimed ((raw.bytes.drop v.offset).take v.size) = some config
    ∧ t.priv.claimed = config.ep :: s.priv.claimed
    ∧ byteAt t.mem (v.offset + 2) = if hasFlag s.priv.ffs.userFlags functionfsVirtualAddr then a
        else config.bEndpointAddress

/-- The descriptor of an endpoint. -/
theorem bindEpDesc_meets
    (hs : EndpointsWalked raw ffs seen s) (hraw : raw.Valid ffs) (hnext : raw.Next seen speed v)
    (hcounts : ∀ sp, sp.rank ≤ speed.rank → ffs.descsCount sp ≠ 4294967295)
    (ha : descEndpoint raw.bytes v.offset = some a) :
  (bindEpDesc c speed v.offset).Meets s
    (fun _ t => (byteAt t.mem (v.offset + 2) &&& usbEndpointNumberMask ≠ 0 →
        EndpointsWalked raw ffs (see seen speed v) t)
      ∧ (c.Obliging → byteAt t.mem (v.offset + 2) &&& usbEndpointNumberMask ≠ 0)
      ∧ AgreeOff (EpField v.offset) s.mem t.mem ∧ raw.Taken c seen v a s t
      ∧ ∃ eps claimed revmap,
        t.priv = { s.priv with eps := eps, claimed := claimed, epsRevmap := revmap })
    (fun e _ => BindStop c raw ffs e)
  := by
  obtain ⟨-, hstop, hsize⟩ := hraw.mem hnext.mem
  obtain ⟨-, haddr, h7, hlength, hnumber⟩ := descSize_endpoint hsize ha
  have hle := descSize_le hsize
  have hosAt := hraw.stop_le speed
  have hmemlen : s.mem.length = raw.bytes.length := hs.mem.1.symm
  have hbyte : ∀ p, v.offset ≤ p → p < v.offset + v.size →
      byteAt s.mem p = byteAt raw.bytes p := fun p hp hlt => hs.fresh hraw hnext hp (by omega)
  have hread : byteAt s.mem (v.offset + 2) = a := by
    rw [hbyte _ (by omega) (by omega), haddr]
  have hmem : a ∈ raw.endpoints speed := List.mem_filterMap.mpr ⟨v, hnext.mem, ha⟩
  have hcount : ffs.descsCount speed ≠ 0 := by
    rw [← hraw.length_descs]
    apply Nat.ne_of_gt (List.length_pos_of_mem hnext.mem)
  obtain ⟨j, hj, hjlt⟩ := (hraw.agree speed hcount).addr2idx hmem
  have hjlen : j < s.priv.eps.length := by
    rw [hs.length]
    apply hjlt
  obtain ⟨ep, hep⟩ : ∃ ep, s.priv.eps[j]? = some ep := ⟨_, List.getElem?_eq_getElem hjlen⟩
  have hwalked := hs.eps j ep hep
  have hseen : ep.ep.isSome ↔ ∃ sp, a ∈ speedEndpoints raw.bytes (seen sp) := by
    rw [hwalked.claimed]
    refine exists_congr fun sp => (hwalked.seen_iff sp).trans ?_
    constructor
    · rintro ⟨b, hb, hbidx⟩
      obtain rfl : b = a :=
        (ffsEpAddr2idx_eq_some.mp hbidx).2.2.1.symm.trans (ffsEpAddr2idx_eq_some.mp hj).2.2.1
      exact hb
    · exact fun ha => ⟨a, ha, hj⟩
  unfold bindEpDesc
  refine meets_step (run_look s) (meets_step (run_read8 (by omega)) ?_)
  rw [hread, hs.ffs_eq, hj]
  dsimp only
  rw [Nat.add_sub_cancel, hep]
  refine meets_step (run_checkIndex hjlen s) (meets_step rfl ?_)
  refine meets_guard (fun hsome _ => ?_) fun hsome => ?_
  · -- another endpoint of this speed has the address
    obtain ⟨b, hb, hbidx⟩ := (hwalked.seen_iff speed).mp hsome
    obtain rfl : b = a :=
      (ffsEpAddr2idx_eq_some.mp hbidx).2.2.1.symm.trans (ffsEpAddr2idx_eq_some.mp hj).2.2.1
    exact ⟨speed, hnext.not_nodup ha hb⟩
  have hnone : ep.descs speed = none := by simpa using hsome
  have hother : ∀ (eps : List FfsEp) (f : FfsEp → FfsEp) i, i ≠ j →
      (eps.modify j f)[i]? = eps[i]? := fun eps f i hi => List.getElem?_modify_ne f eps hi.symm
  have hself : ∀ (eps : List FfsEp) (f : FfsEp → FfsEp) ep, eps[j]? = some ep →
      (eps.modify j f)[j]? = some (f ep) := by
    intro eps f ep hep
    rw [List.getElem?_modify_eq, hep]
    rfl
  refine meets_step (run_update _ s) ?_
  by_cases hclaimed : ep.ep.isSome
  · rw [if_pos hclaimed]
    refine (shareEp_meets (by dsimp only; omega) ?_).mono ?_ ?_
    · intro d hd
      dsimp only at hd ⊢
      by_cases hspeed : speed = .full
      · subst hspeed
        rw [Function.update_self] at hd
        obtain rfl := Option.some.inj hd
        exact ⟨by omega, by rw [hread]; exact hnumber⟩
      · rw [Function.update_of_ne (Ne.symm hspeed)] at hd
        obtain ⟨w, hw, rfl, b, hb, -⟩ := hwalked.desc .full d hd
        have hwle := (hnext.behind .full w hw).2
        obtain ⟨-, -, hw7, -⟩ :=
          descSize_endpoint (hraw.mem (hnext.behind .full w hw).1).2.2 hb
        exact ⟨by omega, hs.numbered .full w hw (by simp [hb])⟩
    · rintro _ t ⟨hagree, hne, ⟨d, hd, hread'⟩, hpriv⟩
      replace hd : Function.update ep.descs speed (some v.offset) .full = some d := hd
      have hfull : (Function.update ep.descs speed (some v.offset) .full).isSome := by
        rw [hd]
        rfl
      have hsame : ∀ sp, ∀ w ∈ seen sp, descEndpoint raw.bytes w.offset = some a →
          byteAt t.mem (v.offset + 2) = byteAt t.mem (w.offset + 2) := by
        intro sp w hw hwa
        -- the endpoint was seen before, so the speed is not the first
        have hspeed : speed ≠ .full := by
          rintro rfl
          have hsp : (ep.descs sp).isSome :=
            (hwalked.seen_iff sp).mpr ⟨a, List.mem_filterMap.mpr ⟨w, hw, hwa⟩, hj⟩
          cases sp with
          | full => simp [hnone] at hsp
          | high =>
              rw [hnext.later .high (by decide)] at hw
              cases hw
          | super =>
              rw [hnext.later .super (by decide)] at hw
              cases hw
        rw [Function.update_of_ne hspeed.symm] at hd
        obtain ⟨w', hw', rfl, b, hb, hbidx⟩ := hwalked.desc .full d hd
        obtain rfl : b = a :=
          (ffsEpAddr2idx_eq_some.mp hbidx).2.2.1.symm.trans (ffsEpAddr2idx_eq_some.mp hj).2.2.1
        rw [hread', ← hnext.kept hraw hagree hw (by simp [hwa])]
        apply hs.same b .full sp w' hw' w hw hb hwa
      have htaken : raw.Taken c seen v a s t :=
        ⟨fun _ => by rw [hpriv]; rfl, fun hno => absurd (hseen.mp hclaimed) hno⟩
      refine ⟨fun _ => ?_, fun _ => hne, hagree, htaken, _, _, _, hpriv⟩
      refine hs.take { ep with descs := Function.update ep.descs speed (some v.offset) } hraw hnext
        ha hj hep hnone (by rw [hpriv]; rfl) hagree hne ?_ ?_ ?_ rfl hclaimed
        (hwalked.req hclaimed) (fun _ => hfull) hsame
      · rw [hpriv]
        apply List.length_modify _ _ _
      · intro i hi
        rw [hpriv]
        apply hother _ _ i hi
      · rw [hpriv]
        apply hself _ _ ep hep
    · rintro e t ⟨rfl, hfull⟩
      apply hs.only_high_and_super hraw hnext hcounts hwalked ha hj hnone hclaimed hfull
  · rw [if_neg hclaimed]
    refine (claimEp_meets (by dsimp only; omega) ?_ ?_).mono ?_ ?_
    · dsimp only
      rw [hbyte _ (Nat.le_refl _) (by omega), hlength]
      omega
    · dsimp only
      rw [hread]
      apply hnumber
    · rintro _ t ⟨hagree, hne, config, revmap, hconfig, hbyte', hpriv⟩
      dsimp only at hconfig hbyte'
      have hslice : (s.mem.drop v.offset).take (byteAt s.mem v.offset).toNat
          = (raw.bytes.drop v.offset).take v.size := by
        rw [hbyte _ (Nat.le_refl _) (by omega), hlength]
        apply take_drop_congr (by omega) (by omega) hbyte
      rw [hslice] at hconfig
      rw [hread] at hbyte'
      have htaken : raw.Taken c seen v a s t :=
        ⟨fun hyes => absurd (hseen.mpr hyes) hclaimed,
          fun _ => ⟨config, hconfig, by rw [hpriv]; rfl, hbyte'⟩⟩
      have hsame : ∀ sp, ∀ w ∈ seen sp, descEndpoint raw.bytes w.offset = some a →
          byteAt t.mem (v.offset + 2) = byteAt t.mem (w.offset + 2) := by
        intro sp w hw hwa
        have hsp : (ep.descs sp).isSome :=
          (hwalked.seen_iff sp).mpr ⟨a, List.mem_filterMap.mpr ⟨w, hw, hwa⟩, hj⟩
        exact absurd (hwalked.claimed.mpr ⟨sp, hsp⟩) hclaimed
      refine ⟨fun hnum => ?_, hne, hagree, htaken, _, _, _, hpriv⟩
      refine hs.take ⟨some config.ep, true, Function.update ep.descs speed (some v.offset), ep.num⟩
        hraw hnext ha hj hep hnone (by rw [hpriv]; rfl) hagree hnum ?_ ?_ ?_ rfl rfl rfl
        (fun hep => absurd hep hclaimed) hsame
      · rw [hpriv]
        exact (List.length_modify _ _ _).trans (List.length_modify _ _ _)
      · intro i hi
        rw [hpriv]
        exact (hother _ _ i hi).trans (hother _ _ i hi)
      · rw [hpriv]
        apply hself _ _ _ (hself _ _ ep hep)
    · rintro e t ⟨⟨code, rfl⟩, hno⟩ hc
      apply absurd hc hno

end Walk

end Ffs
