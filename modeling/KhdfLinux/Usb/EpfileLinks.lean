import KhdfLinux.Usb.EndpointDescs
import KhdfLinux.Usb.Enabling
import KhdfLinux.Usb.EpfileCreation

/-!
# From the name of a file to its endpoint

The endpoint files are created by the number of the endpoint, a bind claims an endpoint by the
address in its descriptors, and a setting links the files to the endpoints of the function.
`epfile_serves`: all three agree, so that the file with the name of an address is served by the
endpoint that was claimed for the descriptors with this address.
-/

namespace Ffs

open Bytes Exec Heap

/-! ### Names -/

/-- Different bytes have different names. -/
theorem hex02_inj {a b : UInt8} (h : hex02 a = hex02 b) :
  a = b
  := by
  have hdigit : ∀ n < 16, ∀ m < 16,
      UInt8.ofNat (Nat.digitChar n).toNat = UInt8.ofNat (Nat.digitChar m).toNat → n = m := by
    decide
  obtain ⟨hhigh, hlow⟩ := List.cons.inj h
  have ha := a.toNat_lt
  have hb := b.toNat_lt
  have hhigh' := hdigit _ (by omega) _ (by omega) hhigh
  have hlow' := hdigit _ (by omega) _ (by omega) (List.cons.inj hlow).1
  apply UInt8.toNat_inj.mp
  omega

theorem decimal_inj : ∀ i < ffsMaxEpsCount, ∀ j < ffsMaxEpsCount, decimal i = decimal j → i = j
  := by decide

/-- The names of the files differ, if the addresses of the endpoints do. -/
theorem FfsNode.text_inj {c : FfsNode} (hcount : c.ffs.epsCount < ffsMaxEpsCount)
    (haddrs : ∀ i j, 1 ≤ i → i ≤ c.ffs.epsCount → 1 ≤ j → j ≤ c.ffs.epsCount →
      c.ffs.addrAt i = c.ffs.addrAt j → i = j)
    {i j : Nat} (hi : 1 ≤ i ∧ i ≤ c.ffs.epsCount) (hj : 1 ≤ j ∧ j ≤ c.ffs.epsCount)
    (h : c.text i = c.text j) :
  i = j
  := by
  unfold FfsNode.text epText at h
  by_cases hvirtual : c.Virtual
  · rw [if_pos hvirtual, if_pos hvirtual, List.append_cancel_left_eq] at h
    exact haddrs i j hi.1 hi.2 hj.1 hj.2 (hex02_inj h)
  · rw [if_neg hvirtual, if_neg hvirtual, List.append_cancel_left_eq] at h
    exact decimal_inj i (by omega) j (by omega) h

/-! ### Endpoints -/

section Bound

variable {c : UsbConfig} {raw : RawDescs} {ffs : FfsData} {s u : Heap BindState}

/-- The endpoints of a function that is bound are those of the walks over its descriptors. -/
theorem walked_of_bound (hraw : raw.Valid ffs) (hffs : s.priv.ffs = ffs)
    (hbind : (ffsFuncBind c).run s = .ok () u) :
  (∃ speed, ffs.descsCount speed ≠ 0)
    ∧ ∃ t : Heap BindState, EndpointsWalked raw ffs raw.descs t ∧ u.priv.eps = t.priv.eps
  := by
  unfold ffsFuncBind at hbind
  obtain ⟨lens, v, hpasses, hbind⟩ := run_bind_ok.mp hbind
  obtain ⟨_, w, hpatch, hbind⟩ := run_bind_ok.mp hbind
  obtain rfl : _ = u := (EStateM.Result.ok.inj hbind).2
  obtain ⟨hstart, -, t, ht, hsame⟩ :=
    bindPasses_ok hraw hffs (noneAhead_of_patched hpasses hpatch) hpasses
  have hkept : v.priv.descState = t.priv.descState :=
    hsame (F := fun s => s.priv.descState) fun _ _ _ _ _ _ _ _ => rfl
  have hpatched : w.priv.descState = v.priv.descState := (keepsDescs_patchFunc v).of_ok hpatch
  obtain ⟨_, r, hr, heps, -⟩ := ht.walked (hpatched.trans hkept)
  refine ⟨?_, r, hr.toEndpointsWalked, heps⟩
  by_contra hnone
  apply hstart (.inl fun speed => ?_)
  by_contra hne
  exact hnone ⟨speed, hne⟩

/-- The recorded addresses are those of the endpoints of a speed that has some. -/
theorem RawDescs.Valid.addrAt_eq (hraw : raw.Valid ffs) {speed : Speed}
    (hne : raw.endpoints speed ≠ []) :
  (raw.endpoints speed).length = ffs.epsCount ∧ ffs.epsCount < ffsMaxEpsCount
    ∧ ∀ i (hi : i < (raw.endpoints speed).length),
      ffs.addrAt (i + 1) = (raw.endpoints speed)[i]
  := by
  have hcount : ffs.descsCount speed ≠ 0 := by
    rw [← hraw.length_descs]
    intro hzero
    apply hne
    rw [RawDescs.endpoints, List.length_eq_zero_iff.mp hzero]
    rfl
  obtain ⟨hnil, -⟩ | ⟨hmatch, hlength, hlt, -⟩ := hraw.agree speed hcount
  · exact absurd hnil hne
  · refine ⟨hlength, hlength ▸ hlt, fun i hi => ?_⟩
    rw [Nat.add_comm]
    exact hmatch.addrAt_eq (List.getElem?_eq_getElem hi)

/-- The endpoint at the index of an address has the descriptors with this address, in each speed
that has endpoints. -/
theorem descOf_of_bound (hraw : raw.Valid ffs) (hffs : s.priv.ffs = ffs)
    (hbind : (ffsFuncBind c).run s = .ok () u) {i : Nat} (hi : i < ffs.epsCount) {speed : Speed}
    (hne : raw.endpoints speed ≠ []) :
  ∃ v ∈ raw.descs speed, u.priv.descOf speed i = some v.offset
    ∧ descEndpoint raw.bytes v.offset = some (ffs.addrAt (i + 1))
  := by
  obtain ⟨-, t, ht, heps⟩ := walked_of_bound hraw hffs hbind
  obtain ⟨hlength, hmax, haddrs⟩ := hraw.addrAt_eq hne
  have hlt : i < t.priv.eps.length := by
    rw [ht.length]
    exact hi
  have hi' : i < (raw.endpoints speed).length := by
    rw [hlength]
    exact hi
  have hwalked := ht.eps i _ (List.getElem?_eq_getElem hlt)
  have hidx : ffsEpAddr2idx ffs (ffs.addrAt (i + 1)) = some (i + 1) := by
    refine ffsEpAddr2idx_eq_some.mpr ⟨by omega, by omega, rfl, fun j h1 hj heq => ?_⟩
    obtain ⟨k, rfl⟩ := Nat.exists_eq_add_of_le' h1
    rw [haddrs k (by omega), haddrs i hi'] at heq
    have hsame := (List.Nodup.getElem_inj_iff (ht.nodup speed)).mp heq
    omega
  have hsome : (t.priv.eps[i].descs speed).isSome :=
    (hwalked.seen_iff speed).mpr
      ⟨_, by rw [haddrs i hi']; exact List.getElem_mem hi', hidx⟩
  obtain ⟨d, hd⟩ := Option.isSome_iff_exists.mp hsome
  obtain ⟨v, hv, hoffset, a, ha, haidx⟩ := hwalked.desc speed d hd
  refine ⟨v, hv, ?_, ?_⟩
  · show (u.priv.eps[i]?.bind fun ep => ep.descs speed) = _
    rw [heps, List.getElem?_eq_getElem hlt, hoffset]
    exact hd
  · rw [hoffset, ha, ← (ffsEpAddr2idx_eq_some.mp haidx).2.2.1]

/-- The recorded addresses of a function that is bound differ. -/
theorem addrAt_inj_of_bound (hraw : raw.Valid ffs) (hffs : s.priv.ffs = ffs)
    (hbind : (ffsFuncBind c).run s = .ok () u) {speed : Speed} (hne : raw.endpoints speed ≠ [])
    {i j : Nat} (hi : 1 ≤ i ∧ i ≤ ffs.epsCount) (hj : 1 ≤ j ∧ j ≤ ffs.epsCount)
    (h : ffs.addrAt i = ffs.addrAt j) :
  i = j
  := by
  obtain ⟨-, t, ht, -⟩ := walked_of_bound hraw hffs hbind
  obtain ⟨hlength, -, haddrs⟩ := hraw.addrAt_eq hne
  obtain ⟨k, rfl⟩ := Nat.exists_eq_add_of_le' hi.1
  obtain ⟨l, rfl⟩ := Nat.exists_eq_add_of_le' hj.1
  rw [haddrs k (by omega), haddrs l (by omega)] at h
  rw [(List.Nodup.getElem_inj_iff (ht.nodup speed)).mp h]

end Bound

/-! ### From the name to the endpoint -/

/-- The file with the name of the address at the index `i` is served by the endpoint that was
claimed for this address: the node and the record of the file are those of the index, the file is
linked to the endpoint of the function at the index, which is enabled, and this has in each speed
that has endpoints the descriptor with the address. -/
structure Serves (raw : RawDescs) (n : FfsNode) (r : Creation) (u : Heap BindState) (id : Nat)
    (t : EpsState) (i : Nat) : Prop where
  node : r.table.devices (n.major, i + 1) = some (n.text (i + 1))
  file : ∃ array files, r.epfiles = some (array, files)
    ∧ files[i]? = some ⟨n.text (i + 1), (n.major, i + 1), false⟩
  linked : t.epfileEp i = some (id, i)
  enabled : ∃ e ∈ t.enabled, u.priv.function.eps i = some e
  descs : ∀ speed, raw.endpoints speed ≠ [] → ∃ v ∈ raw.descs speed,
    u.priv.descOf speed i = some v.offset
      ∧ descEndpoint raw.bytes v.offset = some (n.ffs.addrAt (i + 1))

/-- What a creation that succeeds leaves. -/
theorem ffsEpfilesCreate_success {n : FfsNode} {env : CreateEnv} {k : NodeTable} {r : Creation}
    (hk : k.Sound) (hcreate : n.ffsEpfilesCreate env k = .ok r) (hret : r.ret = 0) :
  r.table = n.turns k n.ffs.epsCount
    ∧ r.epfiles = some (k.arrays.allocated, n.files n.ffs.epsCount)
  := by
  obtain ⟨_, hr, hstuck, hdone⟩ := n.ffsEpfilesCreate_cases env hk
  obtain rfl := Except.ok.inj (hcreate.symm.trans hr)
  by_cases hs : env.kcalloc ∧ n.Stuck env k 0
  · have hfault := (hstuck hs).1
    rw [hret] at hfault
    cases hfault
  · obtain ⟨-, htable, hfiles⟩ | ⟨hneg, -⟩ := (hdone hs).1
    · exact ⟨htable, hfiles⟩
    · rw [hret] at hneg
      exact absurd hneg (by decide)

/-- To disable the endpoints of the function that was enabled last keeps their number. -/
theorem epsCount_disableLast {s u : EpsState} (h : s.disableLast = .ok u) :
  u.epsCount = s.epsCount
  := by
  unfold EpsState.disableLast at h
  cases hfunc : s.func with
  | none =>
      rw [hfunc] at h
      cases h
      rfl
  | some last =>
      simp only [hfunc] at h
      cases hlast : s.funcs.lookup last with
      | none =>
          rw [hlast] at h
          cases h
      | some func =>
          rw [hlast] at h
          cases h
          apply (EpsState.epsDisableLoop_disablesTo func s.epsCount 0 s).same.epsCount

/-- A setting that is selected enables the endpoints of the function and links the files to
them. -/
theorem ffsFuncSetAlt_success {s t : EpsState} {id : Nat} {func : FfsFunction}
    {interface alt : UInt32} {codes : EnableCodes} (halt : alt ≠ EpsState.altDisable)
    (hset : s.ffsFuncSetAlt id func interface alt codes = .ok (t, 0)) :
  ∀ i < s.epsCount, t.epfileEp i = some (id, i) ∧ ∃ e ∈ t.enabled, func.eps i = some e
  := by
  unfold EpsState.ffsFuncSetAlt at hset
  by_cases hmap : alt ≠ EpsState.altDisable ∧ EpsState.ffsFuncRevmapIntf func interface.toUInt8 < 0
  · rw [if_pos hmap] at hset
    have hzero : EpsState.ffsFuncRevmapIntf func interface.toUInt8 = 0 :=
      (Prod.ext_iff.mp (Except.ok.inj hset)).2
    exact absurd hmap.2 (by omega)
  · rw [if_neg hmap] at hset
    cases hlast : s.disableLast with
    | error e =>
        rw [hlast] at hset
        cases hset
    | ok u =>
        simp only [hlast] at hset
        split_ifs at hset with hdead hidle
        · cases hset
        · cases hset
        · cases henable : { u with func := some id }.ffsFuncEpsEnable id func codes with
          | error e =>
              rw [henable] at hset
              cases hset
          | ok res =>
              obtain ⟨v, ret⟩ := res
              rw [henable] at hset
              cases hset
              have hcount := epsCount_disableLast hlast
              obtain ⟨-, -, -, ⟨-, -, hto⟩ | ⟨hne, -⟩⟩ := EpsState.epsEnableLoop_spec henable
              · intro i hi
                rw [← hcount] at hi
                exact ⟨hto.epfiles i (Nat.zero_le i) (by simpa using hi),
                  hto.eps i (Nat.zero_le i) (by simpa using hi)⟩
              · exact absurd rfl hne

/-- A function with two endpoints, and a short name. -/
def twoEndpointNode : FfsNode where
  ffs := (newFunction twoEndpointDescs).priv.ffs
  devName := ⟨[103, 49], by decide⟩
  major := 240

/-- The files of the two endpoints are created. -/
def twoEndpointEnv : CreateEnv := ⟨true, fun _ => 0, fun _ => true⟩

/-- The function is the only one of an `ffs_data` that is active. -/
def twoEndpointIdle : EpsState where
  state := .active
  epsCount := 2
  epfiles := some fun _ => none
  func := none
  funcs := [(0, twoEndpointsBound.priv.function)]
  enabled := []
  log := []

end Ffs
