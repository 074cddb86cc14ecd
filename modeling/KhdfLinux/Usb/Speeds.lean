import KhdfLinux.Usb.FfsData

/-!
# The descriptors of a speed

What the descriptors of one speed contribute to the `ffs_data`: the addresses of its
endpoints, in order, its number of interfaces, and its highest string index.

The callback of the validation is followed entity by entity, then descriptor by
descriptor, and then for the whole list of a speed.  `readSpeed_ok` puts the pieces
together: a speed is taken exactly when its descriptors pass the checks and
`RecordsSpeed` holds of what they contribute.
-/

namespace Ffs

open Bytes Exec Heap Walk

/-! ### What an entity records -/

namespace FfsDescHelper

/-- The helper after one more endpoint, with address `addr`, if it is accepted. -/
def endpoint (addr : UInt8) (helper : FfsDescHelper) : Option FfsDescHelper :=
  let next := { helper with epsCount := helper.epsCount + 1 }
  if ffsMaxEpsCount ≤ next.epsCount then
    none
  else if next.ffs.Unset then
    some (next.noteAddr addr)
  else if next.ffs.addrAt next.epsCount = addr then
    some next
  else
    none

/-- Raise the number of interfaces and the highest string index. -/
def raise (i s : Nat) (helper : FfsDescHelper) : FfsDescHelper :=
  { helper with
    interfacesCount := max helper.interfacesCount i
    ffs := { helper.ffs with stringsCount := max helper.ffs.stringsCount s } }

theorem noteInterface_eq (v : Nat) (helper : FfsDescHelper) :
  helper.noteInterface v = helper.raise (v + 1) 0
  := by
  unfold noteInterface raise
  rw [Nat.max_zero]
  split_ifs with h
  · rw [show max helper.interfacesCount (v + 1) = v + 1 by omega]
  · rw [show max helper.interfacesCount (v + 1) = helper.interfacesCount by omega]

theorem noteString_eq (v : Nat) (helper : FfsDescHelper) :
  helper.noteString v = helper.raise 0 v
  := by
  unfold noteString raise
  rw [Nat.max_zero]
  split_ifs with h
  · rw [show max helper.ffs.stringsCount v = v by omega]
  · rw [show max helper.ffs.stringsCount v = helper.ffs.stringsCount by omega]

theorem raise_raise (i j s t : Nat) (helper : FfsDescHelper) :
  (helper.raise i s).raise j t = helper.raise (max i j) (max s t)
  := by
  simp only [raise, Nat.max_assoc]

@[simp]
theorem raise_zero (helper : FfsDescHelper) :
  helper.raise 0 0 = helper
  := by
  simp only [raise, Nat.max_zero]

end FfsDescHelper

/-- The helper after an entity of the descriptors in `m`, if it is accepted. -/
def recordEntity (m : Bytes) : Entity → FfsDescHelper → Option FfsDescHelper
  | .descriptor _ _, helper => some helper
  | .interface valuep _, helper => some (helper.noteInterface (byteAt m valuep).toNat)
  | .string valuep _, helper => some (helper.noteString (byteAt m valuep).toNat)
  | .endpoint _ desc, helper => helper.endpoint (byteAt m (desc + 2))

/-- The helper after a list of entities. -/
def recordEntities (m : Bytes) : List Entity → FfsDescHelper → Option FfsDescHelper
  | [], helper => some helper
  | e :: es, helper => (recordEntity m e helper).bind (recordEntities m es)

/-- The byte an entity is read from lies in `m`. -/
def Entity.InBounds (m : Bytes) : Entity → Prop
  | .descriptor _ _ => True
  | .interface valuep _ => valuep < m.length
  | .string valuep _ => valuep < m.length
  | .endpoint _ desc => desc + 2 < m.length

/-- The validation callback records the entity.  Where it refuses, it has changed nothing
but its own counts. -/
theorem ffsDataDoEntity_meets
    {m : Bytes} {e : Entity} (he : e.InBounds m) (helper : FfsDescHelper) :
  Meets (ffsDataDoEntity e) ⟨m, helper⟩
    (fun _ t => ∃ next, recordEntity m e helper = some next ∧ t = ⟨m, next⟩)
    (fun stop t => recordEntity m e helper = none ∧ stop = .ret (-einval)
      ∧ ∃ next, next.ffs = helper.ffs ∧ t = ⟨m, next⟩)
  := by
  cases e with
  | descriptor num desc => exact ⟨helper, rfl, rfl⟩
  | interface valuep desc =>
      have hv : valuep < m.length := he
      unfold Meets ffsDataDoEntity
      simp [run_read8 (s := ⟨m, helper⟩) hv, recordEntity]
  | string valuep desc =>
      have hv : valuep < m.length := he
      unfold Meets ffsDataDoEntity
      simp [run_read8 (s := ⟨m, helper⟩) hv, recordEntity]
  | endpoint valuep desc =>
      have hv : desc + 2 < m.length := he
      unfold Meets ffsDataDoEntity
      simp only [recordEntity, FfsDescHelper.endpoint, EStateM.run_bind, run_update, run_look]
      by_cases hmax : ffsMaxEpsCount ≤ helper.epsCount + 1
      · simp [hmax]
      · simp only [hmax, if_false, EStateM.run_bind]
        rw [run_read8 hv]
        dsimp only
        by_cases hunset : helper.ffs.Unset
        · simp [hunset]
        · by_cases haddr : helper.ffs.addrAt (helper.epsCount + 1) = byteAt m (desc + 2)
          · simp [hunset, haddr]
          · simp [hunset, haddr]

theorem report_meets
    {m : Bytes} {es : List Entity} (hes : ∀ e ∈ es, e.InBounds m) (helper : FfsDescHelper) :
  Meets (report ffsDataDoEntity es) ⟨m, helper⟩
    (fun _ t => ∃ next, recordEntities m es helper = some next ∧ t = ⟨m, next⟩)
    (fun stop t => recordEntities m es helper = none ∧ stop = .ret (-einval) ∧ t.mem = m)
  := by
  induction es generalizing helper with
  | nil => exact ⟨helper, rfl, rfl⟩
  | cons e es ih =>
      apply meets_bind
      apply (ffsDataDoEntity_meets (hes e (by simp)) helper).mono
      · rintro _ _ ⟨next, hnext, rfl⟩
        simp only [recordEntities, hnext, Option.bind_some]
        apply ih (fun e he => hes e (by simp [he]))
      · rintro stop _ ⟨hnone, hstop, next, -, rfl⟩
        simp only [recordEntities, hnone, Option.bind_none]
        exact ⟨trivial, hstop, trivial⟩

/-! ### What a descriptor records -/

/-- The number of interfaces the descriptor at `d` shows there are. -/
def descInterfaces (m : Bytes) (d : Nat) : Nat :=
  if descClass (byteAt m (d + 1)) = .interface then (byteAt m (d + 2)).toNat + 1 else 0

/-- The string index the descriptor at `d` uses, `0` if it uses none. -/
def descString (m : Bytes) (d : Nat) : Nat :=
  match descClass (byteAt m (d + 1)) with
  | .interface => (byteAt m (d + 8)).toNat
  | .association => (byteAt m (d + 7)).toNat
  | _ => 0

/-- The address the descriptor at `d` gives, if it is an endpoint. -/
def descEndpoint (m : Bytes) (d : Nat) : Option UInt8 :=
  if descClass (byteAt m (d + 1)) = .endpoint then some (byteAt m (d + 2)) else none

/-- The helper after the descriptor at `d`, if its entities are accepted. -/
def recordDesc (m : Bytes) (d : Nat) (helper : FfsDescHelper) : Option FfsDescHelper :=
  match descEndpoint m d with
  | some addr => helper.endpoint addr
  | none => some (helper.raise (descInterfaces m d) (descString m d))

theorem descInterfaces_of_endpoint
    {m : Bytes} {d : Nat} {a : UInt8} (h : descEndpoint m d = some a) :
  descInterfaces m d = 0
  := by
  unfold descEndpoint at h
  split_ifs at h with hc
  simp [descInterfaces, hc]

theorem descString_of_endpoint {m : Bytes} {d : Nat} {a : UInt8} (h : descEndpoint m d = some a) :
  descString m d = 0
  := by
  unfold descEndpoint at h
  split_ifs at h with hc
  simp [descString, hc]

theorem recordEntities_desc (m : Bytes) (d : Nat) (helper : FfsDescHelper) :
  recordEntities m (descEntities m d) helper = recordDesc m d helper
  := by
  unfold descEntities recordDesc descEndpoint descInterfaces descString
  cases descClass (byteAt m (d + 1)) with
  | interface =>
      by_cases h : byteAt m (d + 8) = 0
      · simp [recordEntities, recordEntity, h, FfsDescHelper.noteInterface_eq]
      · simp [recordEntities, recordEntity, h, FfsDescHelper.noteInterface_eq,
          FfsDescHelper.noteString_eq, FfsDescHelper.raise_raise]
  | endpoint => simp [recordEntities, recordEntity]
  | association =>
      by_cases h : byteAt m (d + 7) = 0
      · simp [recordEntities, h]
      · simp [recordEntities, recordEntity, h, FfsDescHelper.noteString_eq]
  | reserved => simp [recordEntities]
  | sized size => simp [recordEntities]
  | other => simp [recordEntities]

theorem descEntities_inBounds
    {m : Bytes} {d len k : Nat} (hlen : d + len ≤ m.length) (h : descSize m d len = some k) :
  ∀ e ∈ descEntities m d, e.InBounds m
  := by
  unfold descSize at h
  split_ifs at h with hcond
  obtain ⟨h2, hle, hrule, -⟩ := hcond
  unfold descEntities
  cases hc : descClass (byteAt m (d + 1)) with
  | interface =>
      rw [hc] at hrule
      simp only [DescClass.lengthRule, usbDtInterfaceSize] at hrule
      by_cases h0 : byteAt m (d + 8) = 0
      · simp [h0, Entity.InBounds]
        omega
      · simp [h0, Entity.InBounds]
        omega
  | endpoint =>
      rw [hc] at hrule
      simp only [DescClass.lengthRule, usbDtEndpointSize, usbDtEndpointAudioSize] at hrule
      simp [Entity.InBounds]
      omega
  | association =>
      rw [hc] at hrule
      simp only [DescClass.lengthRule, usbInterfaceAssocSize] at hrule
      by_cases h0 : byteAt m (d + 7) = 0
      · simp [h0]
      · simp [h0, Entity.InBounds]
        omega
  | reserved => simp
  | sized size => simp
  | other => simp

theorem descEntities_of_endpoint {m : Bytes} {d : Nat} {a : UInt8} (h : descEndpoint m d = some a) :
  descEntities m d = [.endpoint (d + 2) d]
  := by
  unfold descEndpoint at h
  split_ifs at h with hc
  simp [descEntities, hc]

/-- The report of a descriptor refuses at most an endpoint, and then leaves the `ffs_data`
alone. -/
theorem report_desc_meets
    {m : Bytes} {d len k : Nat} (hlen : d + len ≤ m.length) (h : descSize m d len = some k)
    (helper : FfsDescHelper) :
  Meets (report ffsDataDoEntity (descEntities m d)) ⟨m, helper⟩
    (fun _ t => ∃ next, recordDesc m d helper = some next ∧ t = ⟨m, next⟩)
    (fun stop t => recordDesc m d helper = none ∧ stop = .ret (-einval)
      ∧ ∃ next, next.ffs = helper.ffs ∧ t = ⟨m, next⟩)
  := by
  have hes := descEntities_inBounds hlen h
  cases hep : descEndpoint m d with
  | none =>
      have hrep := report_meets hes helper
      rw [recordEntities_desc] at hrep
      apply hrep.mono
      · intro _ t ht
        apply ht
      · rintro stop t ⟨hnone, -, -⟩
        simp [recordDesc, hep] at hnone
  | some a =>
      rw [← recordEntities_desc]
      rw [descEntities_of_endpoint hep] at hes ⊢
      simp only [recordEntities, Option.bind_fun_some]
      apply meets_bind
      apply (ffsDataDoEntity_meets (hes _ (by simp)) helper).mono
      · intro _ t ht
        apply ht
      · intro stop t ht
        apply ht

/-- A descriptor is taken exactly when it passes the checks and is recorded. -/
theorem ffsDoDesc_meets
    {m : Bytes} {num data len : Nat} (hlen : data + len ≤ m.length) (helper : FfsDescHelper) :
  Meets (ffsDoDesc ffsDataDoEntity num data len) ⟨m, helper⟩
    (fun k t => descSize m data len = some k
      ∧ ∃ next, recordDesc m data helper = some next ∧ t = ⟨m, next⟩)
    (fun stop t => (descSize m data len = none ∨ recordDesc m data helper = none)
      ∧ stop = .ret (-einval) ∧ ∃ next, next.ffs = helper.ffs ∧ t = ⟨m, next⟩)
  := by
  have hkeep : ∀ s', (ffsDataDoEntity (.interface (data + 2) data)).run ⟨m, helper⟩ = .ok () s' →
      byteAt s'.mem (data + 8) = byteAt m (data + 8) ∧ s'.mem.length = m.length := by
    intro s' hs'
    obtain ⟨v, t, hread, hs'⟩ := run_bind_ok.mp hs'
    cases hs'
    rw [run_map] at hread
    rcases Nat.lt_or_ge (data + 2) m.length with hv | hv
    · rw [run_read8 (s := ⟨m, helper⟩) hv] at hread
      cases hread
      exact ⟨rfl, rfl⟩
    · rw [run_read8_of_le (s := ⟨m, helper⟩) hv] at hread
      cases hread
  unfold Meets
  rw [show (ffsDoDesc ffsDataDoEntity num data len).run ⟨m, helper⟩
    = (ffsDoSingleDesc data len ffsDataDoEntity).run ⟨m, helper⟩ from rfl,
    ffsDoSingleDesc_run hlen hkeep]
  cases hk : descSize m data len with
  | none => exact ⟨Or.inl rfl, rfl, helper, rfl, rfl⟩
  | some k =>
      apply meets_bind
      apply (report_desc_meets hlen hk helper).mono
      · rintro _ t hrec
        exact ⟨rfl, hrec⟩
      · rintro stop t ⟨hnone, hstop, ht⟩
        exact ⟨Or.inr hnone, hstop, ht⟩

/-! ### What a speed records -/

/-- The helper after the descriptors `vs`, if they are accepted. -/
def recordDescs (m : Bytes) : List Visit → FfsDescHelper → Option FfsDescHelper
  | [], helper => some helper
  | v :: vs, helper => (recordDesc m v.offset helper).bind (recordDescs m vs)

/-- The number of interfaces of a list of descriptors. -/
def speedInterfaces (m : Bytes) : List Visit → Nat
  | [] => 0
  | v :: vs => max (descInterfaces m v.offset) (speedInterfaces m vs)

/-- The highest string index of a list of descriptors. -/
def speedStrings (m : Bytes) : List Visit → Nat
  | [] => 0
  | v :: vs => max (descString m v.offset) (speedStrings m vs)

/-- The endpoint addresses of a list of descriptors, in order. -/
def speedEndpoints (m : Bytes) (vs : List Visit) : List UInt8 :=
  vs.filterMap fun v => descEndpoint m v.offset

theorem speedInterfaces_le (m : Bytes) (vs : List Visit) :
  speedInterfaces m vs ≤ 256
  := by
  induction vs with
  | nil => simp [speedInterfaces]
  | cons v vs ih =>
      have hb := (byteAt m (v.offset + 2)).toNat_lt
      simp only [speedInterfaces, descInterfaces]
      split_ifs
      · omega
      · omega

/-- The entries of `eps_addrmap` from `n` on are the addresses given. -/
def FfsData.Matches (ffs : FfsData) : (n : Nat) → List UInt8 → Prop
  | _, [] => True
  | n, a :: as => ffs.addrAt n = a ∧ ffs.Matches (n + 1) as

/-- The address map with the addresses given in its entries from `n` on. -/
def fillAddrmap (map : Vector UInt8 ffsMaxEpsCount) :
    (n : Nat) → List UInt8 → Vector UInt8 ffsMaxEpsCount
  | _, [] => map
  | n, a :: as => fillAddrmap (map.setIfInBounds n a) (n + 1) as

theorem fillAddrmap_of_lt
    (map : Vector UInt8 ffsMaxEpsCount) {n i : Nat} (as : List UInt8) (h : i < n) :
  (fillAddrmap map n as)[i]? = map[i]?
  := by
  induction as generalizing map n with
  | nil => rfl
  | cons a as ih =>
      rw [fillAddrmap, ih _ (by omega), Vector.getElem?_setIfInBounds_ne (by omega)]

theorem matches_fillAddrmap
    (ffs : FfsData) {n : Nat} {as : List UInt8} (h : n + as.length ≤ ffsMaxEpsCount) :
  FfsData.Matches { ffs with epsAddrmap := fillAddrmap ffs.epsAddrmap n as } n as
  := by
  induction as generalizing ffs n with
  | nil => trivial
  | cons a as ih =>
      simp only [List.length_cons] at h
      constructor
      · simp only [FfsData.addrAt, fillAddrmap]
        rw [fillAddrmap_of_lt _ _ (Nat.lt_succ_self n), Vector.getElem?_setIfInBounds_self]
        simp only [show n < ffsMaxEpsCount by omega, if_true]
        rfl
      · apply ih { ffs with epsAddrmap := ffs.epsAddrmap.setIfInBounds n a } (by omega)

/-- An address map matches at most one list of each length. -/
theorem FfsData.Matches.unique
    {ffs : FfsData} {n : Nat} {as bs : List UInt8} (ha : ffs.Matches n as) (hb : ffs.Matches n bs)
    (hlen : as.length = bs.length) :
  as = bs
  := by
  induction as generalizing n bs with
  | nil =>
      symm
      apply List.length_eq_zero_iff.mp
      rw [← hlen]
      rfl
  | cons a as ih =>
      cases bs with
      | nil => cases hlen
      | cons b bs =>
          obtain ⟨rfl, ha⟩ := ha
          obtain ⟨rfl, hb⟩ := hb
          rw [ih ha hb (by simpa using hlen)]

namespace FfsDescHelper

/-- The helper after endpoints with the addresses given, if they are accepted. -/
def endpoints : List UInt8 → FfsDescHelper → Option FfsDescHelper
  | [], helper => some helper
  | a :: as, helper => (helper.endpoint a).bind (endpoints as)

theorem endpoint_raise (i s : Nat) (a : UInt8) (helper : FfsDescHelper) :
  (helper.raise i s).endpoint a = (helper.endpoint a).map (raise i s)
  := by
  have hunset : (helper.raise i s).ffs.Unset ↔ helper.ffs.Unset := Iff.rfl
  have haddr : (helper.raise i s).ffs.addrAt = helper.ffs.addrAt := rfl
  unfold endpoint
  simp only [hunset, haddr, show (helper.raise i s).epsCount = helper.epsCount from rfl]
  split_ifs
  · rfl
  · rfl
  · rfl
  · rfl

theorem endpoints_raise (i s : Nat) (as : List UInt8) (helper : FfsDescHelper) :
  endpoints as (helper.raise i s) = (helper.endpoints as).map (raise i s)
  := by
  induction as generalizing helper with
  | nil => rfl
  | cons a as ih =>
      simp only [endpoints, endpoint_raise]
      cases helper.endpoint a with
      | none => rfl
      | some next => apply ih

/-- Endpoints are accepted as long as they are fewer than `FFS_MAX_EPS_COUNT` and have the
addresses recorded; they are written down if there are no addresses recorded. -/
theorem endpoints_iff
    (as : List UInt8) (helper next : FfsDescHelper) (hmax : helper.epsCount < ffsMaxEpsCount) :
  helper.endpoints as = some next
    ↔ helper.epsCount + as.length < ffsMaxEpsCount
      ∧ (helper.ffs.Unset ∨ helper.ffs.Matches (helper.epsCount + 1) as)
      ∧ next = { helper with
          epsCount := helper.epsCount + as.length
          ffs := if helper.ffs.Unset then
              { helper.ffs with
                epsAddrmap := fillAddrmap helper.ffs.epsAddrmap (helper.epsCount + 1) as }
            else helper.ffs }
  := by
  induction as generalizing helper with
  | nil =>
      by_cases h : helper.ffs.Unset
      · simp [endpoints, FfsData.Matches, fillAddrmap, h, hmax, eq_comm]
      · simp [endpoints, FfsData.Matches, h, hmax, eq_comm]
  | cons a as ih =>
      simp only [endpoints, Option.bind_eq_some_iff, List.length_cons, endpoint]
      by_cases hlt : ffsMaxEpsCount ≤ helper.epsCount + 1
      · have hno : ¬helper.epsCount + (as.length + 1) < ffsMaxEpsCount := by omega
        simp [hlt, hno]
      · by_cases h : helper.ffs.Unset
        · have hnext := ih (noteAddr a { helper with epsCount := helper.epsCount + 1 })
            (by simp only [noteAddr]; omega)
          have hset : FfsData.Unset { helper.ffs with
              epsAddrmap := helper.ffs.epsAddrmap.setIfInBounds (helper.epsCount + 1) a } := h
          simp only [noteAddr, hset, true_or, true_and, if_true] at hnext
          simp only [hlt, h, if_false, if_true, Option.some.injEq, exists_eq_left', noteAddr, hnext,
            true_or, true_and, fillAddrmap, Nat.add_assoc, Nat.add_comm 1]
        · by_cases haddr : helper.ffs.addrAt (helper.epsCount + 1) = a
          · have hnext := ih { helper with epsCount := helper.epsCount + 1 } (by dsimp only; omega)
            simp only [h, false_or, if_false] at hnext
            simp only [hlt, h, haddr, if_false, if_true, Option.some.injEq, exists_eq_left', hnext,
              false_or, FfsData.Matches, true_and, Nat.add_assoc, Nat.add_comm 1]
          · simp [hlt, h, haddr, FfsData.Matches]

end FfsDescHelper

/-- The endpoints of a list of descriptors can be recorded before all else. -/
theorem recordDescs_eq (m : Bytes) (vs : List Visit) (helper : FfsDescHelper) :
  recordDescs m vs helper
    = (helper.endpoints (speedEndpoints m vs)).map
        (FfsDescHelper.raise (speedInterfaces m vs) (speedStrings m vs))
  := by
  induction vs generalizing helper with
  | nil =>
      simp [recordDescs, speedEndpoints, FfsDescHelper.endpoints, speedInterfaces, speedStrings]
  | cons v vs ih =>
      simp only [recordDescs, speedInterfaces, speedStrings, speedEndpoints, List.filterMap_cons,
        recordDesc]
      cases hep : descEndpoint m v.offset with
      | none =>
          simp only [Option.bind_some]
          rw [ih, FfsDescHelper.endpoints_raise, Option.map_map]
          congr 1
          funext h
          apply FfsDescHelper.raise_raise
      | some a =>
          simp only [FfsDescHelper.endpoints, descInterfaces_of_endpoint hep,
            descString_of_endpoint hep, Nat.zero_max]
          cases helper.endpoint a with
          | none => rfl
          | some next => apply ih

theorem recordDescs_iff {m : Bytes} {vs : List Visit} {ffs : FfsData} {helper : FfsDescHelper} :
  recordDescs m vs ⟨ffs, 0, 0⟩ = some helper
    ↔ (speedEndpoints m vs).length < ffsMaxEpsCount
      ∧ (ffs.Unset ∨ ffs.Matches 1 (speedEndpoints m vs))
      ∧ helper = {
          interfacesCount := speedInterfaces m vs
          epsCount := (speedEndpoints m vs).length
          ffs := { ffs with
            stringsCount := max ffs.stringsCount (speedStrings m vs)
            epsAddrmap := if ffs.Unset then
                fillAddrmap ffs.epsAddrmap 1 (speedEndpoints m vs)
              else
                ffs.epsAddrmap } }
  := by
  rw [recordDescs_eq, Option.map_eq_some_iff]
  simp only [FfsDescHelper.endpoints_iff _ ⟨ffs, 0, 0⟩ _ (show 0 < ffsMaxEpsCount by decide),
    Nat.zero_add]
  constructor
  · rintro ⟨next, ⟨hlt, hmatch, rfl⟩, rfl⟩
    refine ⟨hlt, hmatch, ?_⟩
    by_cases h : ffs.Unset
    · simp only [FfsDescHelper.raise, h, if_true, Nat.zero_max]
    · simp only [FfsDescHelper.raise, h, if_false, Nat.zero_max]
  · rintro ⟨hlt, hmatch, rfl⟩
    refine ⟨_, ⟨hlt, hmatch, rfl⟩, ?_⟩
    by_cases h : ffs.Unset
    · simp only [FfsDescHelper.raise, h, if_true, Nat.zero_max]
    · simp only [FfsDescHelper.raise, h, if_false, Nat.zero_max]

/-- A speed with the endpoint addresses `as`, `i` interfaces and the highest string index
`s` is accepted in `ffs` and leaves `ffs'`.  It is recorded if no speed with an endpoint
or an interface is, and has to agree with the one recorded otherwise. -/
def RecordsSpeed (as : List UInt8) (i s : Nat) (ffs ffs' : FfsData) : Prop :=
  as.length < ffsMaxEpsCount
    ∧ (ffs.Unset ∧ ffs' = { ffs with
          stringsCount := max ffs.stringsCount s
          epsAddrmap := fillAddrmap ffs.epsAddrmap 1 as
          epsCount := as.length
          interfacesCount := i }
      ∨ ¬ffs.Unset ∧ ffs.Matches 1 as ∧ ffs.epsCount = as.length ∧ ffs.interfacesCount = i
        ∧ ffs' = { ffs with stringsCount := max ffs.stringsCount s })

/-! ### The walk over a speed -/

/-- The effect of a descriptor on the state of the walk. -/
def descEffect (m : Bytes) (v : Visit) (t : Heap FfsDescHelper) : Option (Heap FfsDescHelper) :=
  (recordDesc m v.offset t.priv).map fun helper => ⟨m, helper⟩

theorem effects_descEffect (m : Bytes) (vs : List Visit) (helper : FfsDescHelper) :
  effects (descEffect m) vs ⟨m, helper⟩ = (recordDescs m vs helper).map fun next => ⟨m, next⟩
  := by
  induction vs generalizing helper with
  | nil => rfl
  | cons v vs ih =>
      simp only [effects, recordDescs, descEffect]
      cases recordDesc m v.offset helper with
      | none => rfl
      | some next => apply ih

theorem walk_ffsDoDesc_ok
    {m : Bytes} {count data len d l : Nat} (hlen : data + len ≤ m.length)
    (hmax : len < 4294967296) {helper : FfsDescHelper} {t : Heap FfsDescHelper} :
  (walk (ffsDoDesc ffsDataDoEntity) count 0 data len).run ⟨m, helper⟩ = .ok (d, l) t
    ↔ ∃ vs, visits (descSize m) count data len = some vs
      ∧ effects (descEffect m) vs ⟨m, helper⟩ = some t ∧ d = data + total vs ∧ l = len - total vs
  := by
  apply walk_ok (fun d l (t : Heap FfsDescHelper) => (∃ next, t = ⟨m, next⟩) ∧ d + l ≤ m.length)
  · intro d l k
    apply descSize_le
  · rintro i d l _ ⟨⟨next, rfl⟩, hl⟩
    apply (ffsDoDesc_meets hl next).mono
    · rintro k _ ⟨hk, next', hrec, rfl⟩
      exact ⟨hk, by simp only [descEffect, hrec, Option.map_some]⟩
    · rintro e t ⟨hno | hno, -, -⟩ k hk
      · rw [hk] at hno
        cases hno
      · simp only [descEffect, hno, Option.map_none]
  · rintro d l _ k t' ⟨⟨next, rfl⟩, hl⟩ hk heff
    obtain ⟨next', -, rfl⟩ := Option.map_eq_some_iff.mp heff
    have := descSize_le hk
    exact ⟨⟨next', rfl⟩, by omega⟩
  · apply hmax
  · exact ⟨⟨helper, rfl⟩, hlen⟩

theorem ffsDoDescs_ok
    {m : Bytes} {count data len n : Nat} (hlen : data + len ≤ m.length) (hmax : len < 2147483648)
    {helper : FfsDescHelper} {t : Heap FfsDescHelper} :
  (ffsDoDescs count data len ffsDataDoEntity).run ⟨m, helper⟩ = .ok n t
    ↔ ∃ vs, visits (descSize m) count data len = some vs ∧ n = total vs
      ∧ ∃ next, recordDescs m vs helper = some next ∧ t = ⟨m, next⟩
  := by
  rw [ffsDoDescs, run_bind_ok]
  constructor
  · rintro ⟨⟨d, l⟩, u, hrun, hrest⟩
    obtain ⟨vs, hvs, heff, rfl, rfl⟩ := (walk_ffsDoDesc_ok hlen (by omega)).mp hrun
    rw [effects_descEffect] at heff
    obtain ⟨next, hrec, rfl⟩ := Option.map_eq_some_iff.mp heff
    rw [s32_taken (total_le_of_visits (fun _ _ _ => descSize_le) hvs) hmax] at hrest
    cases hrest
    exact ⟨vs, hvs, rfl, next, hrec, rfl⟩
  · rintro ⟨vs, hvs, rfl, next, hrec, rfl⟩
    use (data + total vs, len - total vs), ⟨m, next⟩
    constructor
    · apply (walk_ffsDoDesc_ok hlen (by omega)).mpr
      use vs, hvs
      rw [effects_descEffect, hrec]
      exact ⟨rfl, rfl, rfl⟩
    · rw [s32_taken (total_le_of_visits (fun _ _ _ => descSize_le) hvs) hmax]
      rfl

theorem settleSpeed_ok
    {m : Bytes} {ffs : FfsData} {helper : FfsDescHelper} {t : Heap FfsData}
    (he : helper.epsCount < 65536) (hi : helper.interfacesCount < 65536) :
  (settleSpeed helper).run ⟨m, ffs⟩ = .ok () t
    ↔ ffs.Unset ∧ t = ⟨m, { ffs with
          epsCount := helper.epsCount, interfacesCount := helper.interfacesCount }⟩
      ∨ ¬ffs.Unset ∧ ffs.epsCount = helper.epsCount
        ∧ ffs.interfacesCount = helper.interfacesCount ∧ t = ⟨m, ffs⟩
  := by
  rw [settleSpeed, EStateM.run_bind, run_look]
  dsimp only
  by_cases hunset : ffs.Unset
  · simp [hunset, u16_of_lt he, u16_of_lt hi, eq_comm]
  · by_cases hne : ffs.epsCount = helper.epsCount
    · by_cases hni : ffs.interfacesCount = helper.interfacesCount
      · simp [hunset, hne, hni, eq_comm]
      · simp [hunset, hne, hni]
    · simp [hunset, hne]

section ReadSpeed

variable {m : Bytes} {count data len d : Nat} {ffs : FfsData} {t : Heap FfsData}

/-- The part of `readSpeed` that walks over the descriptors. -/
theorem readSpeed_descs_ok
    (hlen : len = m.length) (hdata : data ≤ len) (hmax : len < 2147483648) {n : Nat}
    {helper : FfsDescHelper} :
  (zoom (fun ffs => ⟨ffs, 0, 0⟩) FfsDescHelper.ffs (do
      let ret ← ffsDoDescs count data (len - data) ffsDataDoEntity
      let helper ← look
      pure (ret, helper))).run ⟨m, ffs⟩ = .ok (n, helper) t
    ↔ ∃ vs, visits (descSize m) count data (len - data) = some vs ∧ n = total vs
      ∧ recordDescs m vs ⟨ffs, 0, 0⟩ = some helper ∧ t = ⟨m, helper.ffs⟩
  := by
  rw [run_zoom_ok]
  have hlen : data + (len - data) ≤ m.length := by omega
  have hmax' : len - data < 2147483648 := by omega
  simp only [run_bind_ok, ffsDoDescs_ok hlen hmax']
  constructor
  · rintro ⟨_, ⟨ret, _, ⟨vs, hvs, rfl, next, hrec, rfl⟩, _, _, hlook, hrest⟩, rfl⟩
    cases hlook
    cases hrest
    exact ⟨vs, hvs, rfl, hrec, rfl⟩
  · rintro ⟨vs, hvs, rfl, hrec, rfl⟩
    exact ⟨⟨m, helper⟩, ⟨_, _, ⟨vs, hvs, rfl, helper, hrec, rfl⟩, _, _, rfl, rfl⟩, rfl⟩

/-- A speed is taken exactly when its descriptors pass the checks and agree with what is
recorded. -/
theorem readSpeed_ok
    (hlen : len = m.length) (hdata : data ≤ len) (hmax : len < 2147483648) (hcount : count ≠ 0) :
  (readSpeed count data len).run ⟨m, ffs⟩ = .ok d t
    ↔ ∃ vs, visits (descSize m) count data (len - data) = some vs ∧ d = data + total vs
      ∧ ∃ ffs', RecordsSpeed (speedEndpoints m vs) (speedInterfaces m vs) (speedStrings m vs)
          ffs ffs' ∧ t = ⟨m, ffs'⟩
  := by
  rw [readSpeed, if_neg hcount, run_bind_ok]
  constructor
  · rintro ⟨⟨n, helper⟩, u, hrun, hrest⟩
    obtain ⟨vs, hvs, rfl, hrec, rfl⟩ := (readSpeed_descs_ok hlen hdata hmax).mp hrun
    obtain ⟨hlt, hmatch, rfl⟩ := recordDescs_iff.mp hrec
    obtain ⟨⟨⟩, u, hsettle, hrest⟩ := run_bind_ok.mp hrest
    cases hrest
    have hi := speedInterfaces_le m vs
    have he : (speedEndpoints m vs).length < 31 := hlt
    refine ⟨vs, hvs, rfl, ?_⟩
    rcases (settleSpeed_ok (by dsimp only; omega) (by dsimp only; omega)).mp hsettle
      with ⟨hunset, rfl⟩ | ⟨hunset, hne, hni, rfl⟩
    · have hu : ffs.Unset := hunset
      refine ⟨_, ⟨hlt, Or.inl ⟨hu, rfl⟩⟩, ?_⟩
      simp only [hu, if_true]
    · have hu : ¬ffs.Unset := hunset
      refine ⟨_, ⟨hlt, Or.inr ⟨hu, hmatch.resolve_left hu, hne, hni, rfl⟩⟩, ?_⟩
      simp only [hu, if_false]
  · rintro ⟨vs, hvs, rfl, ffs', ⟨hlt, hrec⟩, rfl⟩
    have hi := speedInterfaces_le m vs
    have he : (speedEndpoints m vs).length < 31 := hlt
    have hmatch : ffs.Unset ∨ ffs.Matches 1 (speedEndpoints m vs) := by
      rcases hrec with ⟨h, -⟩ | ⟨-, h, -⟩
      · apply Or.inl h
      · apply Or.inr h
    refine ⟨(total vs, _), _, (readSpeed_descs_ok hlen hdata hmax).mpr
      ⟨vs, hvs, rfl, recordDescs_iff.mpr ⟨hlt, hmatch, rfl⟩, rfl⟩, ?_⟩
    rw [run_bind_ok]
    refine ⟨(), ⟨m, ffs'⟩, ?_, rfl⟩
    apply (settleSpeed_ok (by dsimp only; omega) (by dsimp only; omega)).mpr
    rcases hrec with ⟨hu, rfl⟩ | ⟨hu, -, hne, hni, rfl⟩
    · left
      refine ⟨hu, ?_⟩
      simp only [hu, if_true]
    · right
      refine ⟨hu, hne, hni, ?_⟩
      simp only [hu, if_false]

end ReadSpeed

end Ffs
