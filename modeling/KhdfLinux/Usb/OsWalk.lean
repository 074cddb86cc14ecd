import KhdfLinux.Usb.RawDescs

/-!
# The second walk over OS descriptors

`ffsDoOsDescs_entries`: a walk over OS descriptors that have passed the checks hands each of them
to the callback, one after the other, as long as the callback takes its length, and as long as the
headers of the features stay.  The bytes that the validation sets are none that the walk reads.
-/

namespace Ffs

open Bytes Exec Heap Walk

/-! ### The walk -/

section Rule

variable {π : Type} {entity : OsDescCallback π} {m : Bytes} {interfaces : Nat}
  {E : Stop → Heap π → Prop} {Inv : List OsEntry → Heap π → Prop} {s : Heap π}

/-- The header of a feature is told by its own bytes. -/
theorem osHeader_of_same {m' : Bytes} {d len : Nat}
    (h : ∀ j < usbOsDescHeaderSize, byteAt m' (d + j) = byteAt m (d + j)) :
  osHeader m' d len = osHeader m d len
  := by
  simp only [usbOsDescHeaderSize] at h
  have hbyte : ∀ i j, i + j < 11 → byteAt m' (d + i + j) = byteAt m (d + i + j) := by
    intro i j hj
    rw [Nat.add_assoc]
    exact h (i + j) hj
  have h1 : osDwLength m' d = osDwLength m d := le32At_of_same fun j hj => hbyte 1 j (by omega)
  have h5 : osBcdVersion m' d = osBcdVersion m d := le16At_of_same fun j hj => hbyte 5 j (by omega)
  have h7 : osWIndex m' d = osWIndex m d := le16At_of_same fun j hj => hbyte 7 j (by omega)
  have h9 : osWCount m' d = osWCount m d := le16At_of_same fun j hj => hbyte 9 j (by omega)
  have h10 : osReserved m' d = osReserved m d := by
    unfold osReserved
    rw [h 10 (by decide)]
  simp only [osHeader, osKind, h1, h5, h7, h9, h10]

/-- The extended descriptor of a feature. -/
def featureEntry (type : OsDescType) (h : Nat) (v : Visit) : OsEntry := ⟨type, h, v.offset, v.size⟩

/-- The descriptors of a feature. -/
theorem ffsDoSingleOsDesc_entries
    {type : OsDescType} {h data len count : Nat} {vs : List Visit} (es : List OsEntry)
    (hvs : visits (osEntrySize m interfaces type h) count data len = some vs)
    (hmax : len < 2147483648)
    (hstep : ∀ us v ws t, vs = us ++ v :: ws → Inv (es ++ us.map (featureEntry type h)) t →
      (entity type h v.offset (data + len - v.offset)).Meets t
        (fun k t' => k = v.size ∧ Inv (es ++ (us ++ [v]).map (featureEntry type h)) t') E)
    (hs : Inv es s) :
  (ffsDoSingleOsDesc data len type count entity h).Meets s
    (fun k t => k = total vs ∧ Inv (es ++ vs.map (featureEntry type h)) t) E
  := by
  have hle := total_le_of_visits (fun _ _ _ hk => (osEntrySize_le hk).2) hvs
  unfold ffsDoSingleOsDesc
  have hbegin : Inv (es ++ [].map (featureEntry type h)) s := by
    rw [List.map_nil, List.append_nil]
    exact hs
  refine meets_bind ((walk_visits (fun _ _ _ hk => (osEntrySize_le hk).2)
    (fun us t => Inv (es ++ us.map (featureEntry type h)) t) hvs (by omega) hstep hbegin).mono ?_
    fun _ _ he => he)
  · rintro _ t ⟨rfl, ht⟩
    dsimp only
    rw [s32_sub (by omega) hmax, if_neg (by omega)]
    refine meets_pure ⟨?_, ht⟩
    rw [Int.toNat_natCast]
    omega

/-- A feature. -/
theorem ffsDoOsDesc_entries
    {num : Nat} {v : Visit} {fs es : List OsEntry} (hle : v.offset ≤ m.length)
    (hfs : osFeature m interfaces v.offset (m.length - v.offset) = some fs)
    (hlen : s.mem.length = m.length) (hmax : m.length < 2147483648)
    (hhead : ∀ j < usbOsDescHeaderSize, byteAt s.mem (v.offset + j) = byteAt m (v.offset + j))
    (hstep : ∀ us e ws t, fs = us ++ e :: ws → Inv (es ++ us) t →
      (entity e.type e.h e.offset (m.length - e.offset)).Meets t
        (fun k t' => k = e.size ∧ Inv (es ++ (us ++ [e])) t') E)
    (hs : Inv es s) :
  (ffsDoOsDesc entity num v.offset (m.length - v.offset)).Meets s
    (fun k t => k = usbOsDescHeaderSize + entriesSize fs ∧ Inv (es ++ fs) t) E
  := by
  obtain ⟨⟨type, count⟩, hheader, hvisits⟩ := Option.bind_eq_some_iff.mp hfs
  obtain ⟨vs, hvs, rfl⟩ := Option.map_eq_some_iff.mp hvisits
  have h11 := osHeader_le hheader
  unfold Meets
  rw [ffsDoOsDesc_run (by omega), osHeader_of_same hhead, hheader]
  dsimp only
  rw [u32_sub h11 (by omega), entriesSize_map]
  refine meets_bind ((ffsDoSingleOsDesc_entries es hvs (by omega) ?_ hs).mono ?_
    fun _ _ he => he)
  · rintro us w ws t rfl ht
    rw [show v.offset + usbOsDescHeaderSize + (m.length - v.offset - usbOsDescHeaderSize)
      - w.offset = m.length - w.offset by omega]
    have hturn := hstep (us.map (featureEntry type v.offset)) (featureEntry type v.offset w)
      (ws.map (featureEntry type v.offset)) t List.map_append ht
    rw [List.map_append]
    exact hturn
  · rintro _ t ⟨rfl, ht⟩
    exact meets_pure ⟨rfl, ht⟩

theorem osEntries_append (us ws : List Visit) :
  osEntries m interfaces (us ++ ws) = osEntries m interfaces us ++ osEntries m interfaces ws
  := List.flatMap_append

/-- All features. -/
theorem ffsDoOsDescs_entries
    (Inv : List OsEntry → Heap π → Prop) {count data : Nat} {fs : List Visit}
    (hdata : data ≤ m.length)
    (hfs : visits (osFeatureSize m interfaces) count data (m.length - data) = some fs)
    (hmax : m.length < 2147483648)
    (hmem : ∀ es t, Inv es t → t.mem.length = m.length
      ∧ ∀ v ∈ fs, ∀ j < usbOsDescHeaderSize, byteAt t.mem (v.offset + j) = byteAt m (v.offset + j))
    (hstep : ∀ us e ws t, osEntries m interfaces fs = us ++ e :: ws → Inv us t →
      (entity e.type e.h e.offset (m.length - e.offset)).Meets t
        (fun k t' => k = e.size ∧ Inv (us ++ [e]) t') E)
    (hs : Inv [] s) :
  (ffsDoOsDescs count data (m.length - data) entity).Meets s
    (fun k t => k = total fs ∧ Inv (osEntries m interfaces fs) t) E
  := by
  have hle := total_le_of_visits (fun _ _ _ hk => (osFeatureSize_le hk).2) hfs
  unfold ffsDoOsDescs
  refine meets_bind ((walk_visits (fun _ _ _ hk => (osFeatureSize_le hk).2)
    (fun us t => Inv (osEntries m interfaces us) t) hfs (by omega) ?_ hs).mono ?_ fun _ _ he => he)
  · rintro us v ws t rfl ht
    obtain ⟨hlen, hheads⟩ := hmem _ t ht
    obtain ⟨-, hstop, hsize⟩ := mem_visits (fun _ _ _ hk => (osFeatureSize_le hk).2) hfs
      (show v ∈ us ++ v :: ws by simp)
    rw [show data + (m.length - data) - v.offset = m.length - v.offset by omega] at hsize ⊢
    obtain ⟨es, hes, hsum⟩ := Option.map_eq_some_iff.mp hsize
    have hone : osEntries m interfaces [v] = es := by simp [osEntries, hes]
    have hall : osEntries m interfaces (us ++ v :: ws)
        = osEntries m interfaces us ++ (es ++ osEntries m interfaces ws) := by
      rw [← hone, ← osEntries_append [v] ws, List.singleton_append, ← osEntries_append us]
    refine (ffsDoOsDesc_entries (by omega) hes hlen hmax (hheads v (by simp)) ?_ ht).mono ?_
      fun _ _ he => he
    · rintro us' e ws' u rfl hu
      have hturn := hstep (osEntries m interfaces us ++ us') e (ws' ++ osEntries m interfaces ws) u
        (by rw [hall]; simp) hu
      rw [List.append_assoc] at hturn
      exact hturn
    · rintro _ u ⟨rfl, hu⟩
      rw [osEntries_append, hone]
      exact ⟨hsum, hu⟩
  · rintro _ t ⟨rfl, ht⟩
    dsimp only
    rw [s32_sub (by omega) (by omega), if_neg (by omega)]
    refine meets_pure ⟨?_, ht⟩
    rw [Int.toNat_natCast]
    omega

end Rule

/-! ### What the walk reads -/

section Places

variable {raw : RawDescs} {ffs : FfsData} {e e' : OsEntry} {v : Visit} {m : Bytes} {j : Nat}

/-- An extended descriptor lies in its feature. -/
theorem RawDescs.Valid.exists_feature (hraw : raw.Valid ffs)
    (he : e ∈ raw.entries ffs.interfacesCount) :
  ∃ v ∈ raw.features, e.h = v.offset ∧ ∃ es,
    osFeature raw.bytes ffs.interfacesCount v.offset (raw.bytes.length - v.offset) = some es
      ∧ e ∈ es ∧ v.offset + usbOsDescHeaderSize ≤ e.offset
      ∧ e.offset + e.size ≤ v.offset + v.size
  := by
  obtain ⟨v, hv, he⟩ := List.mem_flatMap.mp he
  obtain ⟨-, -, hsize⟩ := mem_visits (fun _ _ _ hk => (osFeatureSize_le hk).2) hraw.features hv
  have hle := (hraw.stop_le .full).2
  rw [show raw.osAt + (raw.bytes.length - raw.osAt) = raw.bytes.length by omega] at hsize
  obtain ⟨es, hes, hsum⟩ := Option.map_eq_some_iff.mp hsize
  rw [hes] at he
  obtain ⟨hh, hoffset, hend, -⟩ := mem_osFeature hes he
  rw [hsum] at hend
  exact ⟨v, hv, hh, es, hes, he, hoffset, hend⟩

theorem RawDescs.Valid.features_apart (hraw : raw.Valid ffs) {w : Visit} (hv : v ∈ raw.features)
    (hw : w ∈ raw.features) :
  v = w ∨ v.offset + v.size ≤ w.offset ∨ w.offset + w.size ≤ v.offset
  := visits_apart (fun _ _ _ hk => (osFeatureSize_le hk).2) hraw.features hv hw

theorem RawDescs.Valid.feature_size (hraw : raw.Valid ffs) (hv : v ∈ raw.features) :
  usbOsDescHeaderSize ≤ v.size ∧ raw.osAt ≤ v.offset ∧ v.offset + v.size ≤ raw.bytes.length
  := by
  obtain ⟨hstart, hstop, hsize⟩ :=
    mem_visits (fun _ _ _ hk => (osFeatureSize_le hk).2) hraw.features hv
  have hle := total_le_of_visits (fun _ _ _ hk => (osFeatureSize_le hk).2) hraw.features
  have hos := (hraw.stop_le .full).2
  exact ⟨(osFeatureSize_le hsize).1, hstart, by omega⟩

/-- Two extended descriptors are the same, or one lies before the other. -/
theorem RawDescs.Valid.entries_apart (hraw : raw.Valid ffs)
    (he : e ∈ raw.entries ffs.interfacesCount) (he' : e' ∈ raw.entries ffs.interfacesCount) :
  e = e' ∨ e.offset + e.size ≤ e'.offset ∨ e'.offset + e'.size ≤ e.offset
  := by
  obtain ⟨v, hv, -, es, hes, hmem, hstart, hstop⟩ := hraw.exists_feature he
  obtain ⟨w, hw, -, es', hes', hmem', hstart', hstop'⟩ := hraw.exists_feature he'
  rcases hraw.features_apart hv hw with rfl | hbefore | hbehind
  · obtain rfl := Option.some.inj (hes.symm.trans hes')
    obtain ⟨⟨type, count⟩, -, hvisits⟩ := Option.bind_eq_some_iff.mp hes
    obtain ⟨vs, hvs, rfl⟩ := Option.map_eq_some_iff.mp hvisits
    obtain ⟨x, hx, rfl⟩ := List.mem_map.mp hmem
    obtain ⟨y, hy, rfl⟩ := List.mem_map.mp hmem'
    rcases visits_apart (fun _ _ _ hk => (osEntrySize_le hk).2) hvs hx hy with rfl | hapart
    · exact .inl rfl
    · exact .inr hapart
  · right
    omega
  · right
    omega

/-- Of an extended descriptor, only one byte of a compatibility descriptor is set by the
validation. -/
theorem RawDescs.Valid.entry_not_reserved (hraw : raw.Valid ffs)
    (he : e ∈ raw.entries ffs.interfacesCount) (hj : j < e.size)
    (hne : e.type = .extCompat → j ≠ 1) :
  ¬raw.Reserved ffs.interfacesCount (e.offset + j)
  := by
  rintro ⟨e', he', htype, hp⟩
  have hsize := osEntrySize_le (hraw.mem_entries he').2.2
  rcases hraw.entries_apart he he' with rfl | hapart
  · have hone := hne htype
    omega
  · omega

/-- The header of a feature is not changed by the validation. -/
theorem RawDescs.Valid.header_not_reserved (hraw : raw.Valid ffs) (hv : v ∈ raw.features)
    (hj : j < usbOsDescHeaderSize) :
  ¬raw.Reserved ffs.interfacesCount (v.offset + j)
  := by
  rintro ⟨e, he, htype, hp⟩
  obtain ⟨w, hw, -, -, -, -, hstart, hstop⟩ := hraw.exists_feature he
  have hsize := osEntrySize_le (hraw.mem_entries he).2.2
  have hvsize := (hraw.feature_size hv).1
  rcases hraw.features_apart hv hw with rfl | hapart
  · omega
  · omega

/-- The part of the memory that holds the OS descriptors is that of the blob, but for the bytes that
the validation has set. -/
structure RawDescs.OsCopied (raw : RawDescs) (interfaces : Nat) (m : Bytes) : Prop where
  length : m.length = raw.bytes.length
  byte : ∀ p, raw.osAt ≤ p → ¬raw.Reserved interfaces p → byteAt m p = byteAt raw.bytes p

theorem RawDescs.OsCopied.header (h : raw.OsCopied ffs.interfacesCount m) (hraw : raw.Valid ffs)
    (hv : v ∈ raw.features) (hj : j < usbOsDescHeaderSize) :
  byteAt m (v.offset + j) = byteAt raw.bytes (v.offset + j)
  := by
  have hle := (hraw.feature_size hv).2.1
  exact h.byte _ (by omega) (hraw.header_not_reserved hv hj)

theorem RawDescs.OsCopied.entry (h : raw.OsCopied ffs.interfacesCount m) (hraw : raw.Valid ffs)
    (he : e ∈ raw.entries ffs.interfacesCount) (hj : j < e.size)
    (hne : e.type = .extCompat → j ≠ 1) :
  byteAt m (e.offset + j) = byteAt raw.bytes (e.offset + j)
  := by
  obtain ⟨hstart, hoffset, -⟩ := hraw.mem_entries he
  exact h.byte _ (by omega) (hraw.entry_not_reserved he hj hne)

end Places

end Ffs
