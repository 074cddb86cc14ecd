import KhdfLinux.Usb.EndpointClaims

/-!
# The addresses of endpoints

Which address the gadget gives to each endpoint of a blob: endpoints are claimed in the order in
which their addresses appear, one after the other, and each for the bytes of its first descriptor.
All descriptors of an endpoint get the address it is given, or keep the one they have if the
function has virtual addresses.
-/

namespace Ffs

open Bytes Exec Heap Walk

/-! ### The endpoints that are claimed -/

namespace RawDescs

variable (raw : RawDescs) (c : UsbConfig)

/-- What is claimed after one descriptor more: each endpoint under the address it has in the blob,
the last one first. -/
def claim (claims : List (UInt8 × EpConfig)) (v : Visit) : List (UInt8 × EpConfig) :=
  match descEndpoint raw.bytes v.offset with
  | none => claims
  | some a =>
      if (claims.lookup a).isSome then
        claims
      else
        match c.autoconfig (claims.map fun claim => claim.2.ep)
            ((raw.bytes.drop v.offset).take v.size) with
        | none => claims
        | some config => (a, config) :: claims

/-- What is claimed for the descriptors. -/
def claims (vs : List Visit) : List (UInt8 × EpConfig) := vs.foldl (raw.claim c) []

/-- The address that the endpoint with the address `a` is given. -/
def givenAddress (userFlags : Nat) (vs : List Visit) (a : UInt8) : UInt8 :=
  if hasFlag userFlags functionfsVirtualAddr then a
  else (((raw.claims c vs).lookup a).map EpConfig.bEndpointAddress).getD a

variable {raw c} {us : List Visit} {v : Visit} {a b : UInt8} {config : EpConfig}

theorem claims_concat :
  raw.claims c (us ++ [v]) = raw.claim c (raw.claims c us) v
  := by
  unfold claims
  rw [List.foldl_append]
  rfl

theorem claims_concat_none (h : descEndpoint raw.bytes v.offset = none) :
  raw.claims c (us ++ [v]) = raw.claims c us
  := by
  rw [claims_concat, claim, h]

theorem claims_concat_again (h : descEndpoint raw.bytes v.offset = some a)
    (ha : ((raw.claims c us).lookup a).isSome) :
  raw.claims c (us ++ [v]) = raw.claims c us
  := by
  rw [claims_concat, claim, h]
  exact if_pos ha

theorem claims_concat_first (h : descEndpoint raw.bytes v.offset = some a)
    (ha : ¬((raw.claims c us).lookup a).isSome)
    (hconfig : c.autoconfig ((raw.claims c us).map fun claim => claim.2.ep)
      ((raw.bytes.drop v.offset).take v.size) = some config) :
  raw.claims c (us ++ [v]) = (a, config) :: raw.claims c us
  := by
  rw [claims_concat, claim, h]
  dsimp only
  rw [if_neg ha, hconfig]

/-- An endpoint keeps the address it is given. -/
theorem givenAddress_concat {userFlags : Nat} (ha : ((raw.claims c us).lookup a).isSome) :
  raw.givenAddress c userFlags (us ++ [v]) a = raw.givenAddress c userFlags us a
  := by
  have hlookup : (raw.claims c (us ++ [v])).lookup a = (raw.claims c us).lookup a := by
    rw [claims_concat, claim]
    split
    · rfl
    · rename_i b hb
      split_ifs with hclaimed
      · rfl
      · split
        · rfl
        · have hne : a ≠ b := by
            rintro rfl
            apply hclaimed ha
          rw [List.lookup_cons, beq_false_of_ne hne]
  unfold givenAddress
  rw [hlookup]

end RawDescs

/-! ### The walks -/

/-- The descriptors that were seen, in the order of the blob. -/
def seenAll (seen : Speed → List Visit) : List Visit :=
  seen .full ++ (seen .high ++ seen .super)

/-- The endpoints are claimed for the descriptors `seen`, and have their addresses. -/
structure AddressesGiven (raw : RawDescs) (c : UsbConfig) (seen : Speed → List Visit)
    (t : Heap BindState) : Prop where
  claimed : t.priv.claimed = (raw.claims c (seenAll seen)).map fun claim => claim.2.ep
  keys : ∀ a, ((raw.claims c (seenAll seen)).lookup a).isSome
    ↔ ∃ speed, a ∈ speedEndpoints raw.bytes (seen speed)
  given : ∀ speed, ∀ v ∈ seen speed, ∀ a, descEndpoint raw.bytes v.offset = some a →
    byteAt t.mem (v.offset + 2) = raw.givenAddress c t.priv.ffs.userFlags (seenAll seen) a

/-- What the callback does for the descriptor `v`: the endpoint comes by its address. -/
def RawDescs.Turned (raw : RawDescs) (c : UsbConfig) (seen : Speed → List Visit) (v : Visit)
    (s t : Heap BindState) : Prop :=
  match descEndpoint raw.bytes v.offset with
  | none => t.mem = s.mem ∧ t.priv.claimed = s.priv.claimed
  | some a => AgreeOff (EpField v.offset) s.mem t.mem ∧ raw.Taken c seen v a s t

section Given

variable {raw : RawDescs} {ffs : FfsData} {c : UsbConfig} {seen : Speed → List Visit}
  {speed : Speed} {v : Visit} {s t : Heap BindState} {a : UInt8}

theorem seenAll_see (hnext : raw.Next seen speed v) :
  seenAll (see seen speed v) = seenAll seen ++ [v]
  := by
  unfold seenAll see
  cases speed with
  | full =>
      have hhigh := hnext.later .high (by decide)
      have hsuper := hnext.later .super (by decide)
      simp [hhigh, hsuper]
  | high =>
      have hsuper := hnext.later .super (by decide)
      simp [hsuper]
  | super => simp

/-- The state of the addresses depends on the copy, the claimed endpoints and the flags only. -/
theorem AddressesGiven.congr (h : AddressesGiven raw c seen s) (hmem : t.mem = s.mem)
    (hclaimed : t.priv.claimed = s.priv.claimed) (hffs : t.priv.ffs = s.priv.ffs) :
  AddressesGiven raw c seen t
  := by
  refine ⟨hclaimed.trans h.claimed, h.keys, fun sp w hw b hb => ?_⟩
  rw [hmem, hffs]
  exact h.given sp w hw b hb

/-- A descriptor that is not of an endpoint. -/
theorem AddressesGiven.see (h : AddressesGiven raw c seen s) (hnext : raw.Next seen speed v)
    (hv : descEndpoint raw.bytes v.offset = none) :
  AddressesGiven raw c (see seen speed v) s
  := by
  have hclaims : raw.claims c (seenAll seen ++ [v]) = _ := RawDescs.claims_concat_none hv
  rw [← seenAll_see hnext] at hclaims
  refine ⟨hclaims ▸ h.claimed, fun b => ?_, fun sp w hw b hb => ?_⟩
  · rw [hclaims, h.keys]
    refine exists_congr fun sp => ?_
    rw [mem_speedEndpoints_see, hv]
    simp
  · unfold RawDescs.givenAddress
    rw [hclaims]
    rcases mem_see.mp hw with hw | ⟨-, rfl⟩
    · exact h.given sp w hw b hb
    · rw [hv] at hb
      cases hb

/-- The descriptor of an endpoint. -/
theorem AddressesGiven.take (h : AddressesGiven raw c seen s) (hraw : raw.Valid ffs)
    (hnext : raw.Next seen speed v) (ha : descEndpoint raw.bytes v.offset = some a)
    (hmem : AgreeOff (EpField v.offset) s.mem t.mem) (ht : raw.Taken c seen v a s t)
    (hffs : t.priv.ffs = s.priv.ffs)
    (hwalked : EndpointsWalked raw ffs (Ffs.see seen speed v) t) :
  AddressesGiven raw c (Ffs.see seen speed v) t
  := by
  have hall := seenAll_see hnext
  have hkeys : ∀ b, (∃ sp, b ∈ speedEndpoints raw.bytes (Ffs.see seen speed v sp))
      ↔ (∃ sp, b ∈ speedEndpoints raw.bytes (seen sp)) ∨ b = a := by
    intro b
    simp only [mem_speedEndpoints_see, ha, Option.some_inj]
    constructor
    · rintro ⟨sp, hb | ⟨-, rfl⟩⟩
      · exact .inl ⟨sp, hb⟩
      · exact .inr rfl
    · rintro (⟨sp, hb⟩ | rfl)
      · exact ⟨sp, .inl hb⟩
      · exact ⟨speed, .inr ⟨rfl, rfl⟩⟩
  have hold : ∀ sp, ∀ w ∈ seen sp, ∀ b, descEndpoint raw.bytes w.offset = some b →
      byteAt t.mem (w.offset + 2)
        = raw.givenAddress c t.priv.ffs.userFlags (seenAll (Ffs.see seen speed v)) b := by
    intro sp w hw b hb
    have hsome := (h.keys b).mpr ⟨sp, List.mem_filterMap.mpr ⟨w, hw, hb⟩⟩
    rw [hall, RawDescs.givenAddress_concat hsome, hffs,
      ← hnext.kept hraw hmem hw (by simp [hb])]
    exact h.given sp w hw b hb
  by_cases hseen : ∃ sp, a ∈ speedEndpoints raw.bytes (seen sp)
  · have hclaims := RawDescs.claims_concat_again ha ((h.keys a).mpr hseen)
    rw [← hall] at hclaims
    refine ⟨?_, fun b => ?_, fun sp w hw b hb => ?_⟩
    · rw [hclaims, ht.again hseen]
      exact h.claimed
    · rw [hclaims, h.keys, hkeys]
      refine (or_iff_left_of_imp ?_).symm
      rintro rfl
      exact hseen
    rcases mem_see.mp hw with hw | ⟨rfl, rfl⟩
    · exact hold sp w hw b hb
    · -- the descriptors of an endpoint have the same address
      obtain rfl := Option.some.inj (ha.symm.trans hb)
      obtain ⟨sp', hsp⟩ := hseen
      obtain ⟨w', hw', hb'⟩ := List.mem_filterMap.mp hsp
      rw [hwalked.same a sp sp' w hw w' (mem_see.mpr (.inl hw')) ha hb']
      exact hold sp' w' hw' a hb'
  · obtain ⟨config, hconfig, hclaimed, hbyte⟩ := ht.first hseen
    rw [h.claimed] at hconfig hclaimed
    have hnone : ¬((raw.claims c (seenAll seen)).lookup a).isSome := mt (h.keys a).mp hseen
    have hclaims := RawDescs.claims_concat_first ha hnone hconfig
    rw [← hall] at hclaims
    refine ⟨?_, fun b => ?_, fun sp w hw b hb => ?_⟩
    · rw [hclaims, hclaimed]
      rfl
    · rw [hclaims, hkeys, ← h.keys]
      by_cases hb : b = a
      · rw [hb]
        simp
      · rw [List.lookup_cons, beq_false_of_ne hb]
        simp [hb]
    rcases mem_see.mp hw with hw | ⟨rfl, rfl⟩
    · exact hold sp w hw b hb
    · obtain rfl := Option.some.inj (ha.symm.trans hb)
      rw [hbyte, hffs]
      unfold RawDescs.givenAddress
      rw [hclaims, List.lookup_cons, beq_self_eq_true]
      rfl

/-- The next descriptor. -/
theorem AddressesGiven.turn (h : AddressesGiven raw c seen s) (hraw : raw.Valid ffs)
    (hnext : raw.Next seen speed v) (ht : raw.Turned c seen v s t)
    (hffs : t.priv.ffs = s.priv.ffs)
    (hwalked : EndpointsWalked raw ffs (Ffs.see seen speed v) t) :
  AddressesGiven raw c (Ffs.see seen speed v) t
  := by
  unfold RawDescs.Turned at ht
  cases ha : descEndpoint raw.bytes v.offset with
  | none =>
      rw [ha] at ht
      exact (h.see hnext ha).congr ht.1 ht.2 hffs
  | some a =>
      rw [ha] at ht
      exact h.take hraw hnext ha ht.1 ht.2 hffs hwalked

end Given

end Ffs
