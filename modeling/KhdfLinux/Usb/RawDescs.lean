import KhdfLinux.Usb.FuncBind
import KhdfLinux.Usb.GotDescs

/-!
# The raw descriptors

The part of an accepted blob a bind copies, with what the validation has found in it.
`Parses.valid` says what is known of it: the descriptors of the speeds lie one after the other,
each speed agrees with what is recorded, the features follow, and the copy differs from the
blob in the reserved bytes the validation has set.
-/

namespace Ffs

open Bytes Exec Heap Walk

/-! ### Positions behind the head -/

/-- The item in a buffer that starts `o` bytes later. -/
def Visit.unshift (o : Nat) (v : Visit) : Visit := ⟨v.offset - o, v.size⟩

/-- The extended descriptor in a blob that starts `o` bytes earlier. -/
def OsEntry.shift (o : Nat) (e : OsEntry) : OsEntry := ⟨e.type, o + e.h, o + e.offset, e.size⟩

section Drop

variable (m : Bytes) (o : Nat)

theorem descSize_drop (d len : Nat) :
  descSize (m.drop o) d len = descSize m (o + d) len
  := by
  simp only [descSize, DescRule, byteAt_drop, Nat.add_assoc]

theorem descEndpoint_drop (d : Nat) :
  descEndpoint (m.drop o) d = descEndpoint m (o + d)
  := by
  simp only [descEndpoint, byteAt_drop, Nat.add_assoc]

theorem descInterfaces_drop (d : Nat) :
  descInterfaces (m.drop o) d = descInterfaces m (o + d)
  := by
  simp only [descInterfaces, byteAt_drop, Nat.add_assoc]

theorem speedEndpoints_drop (vs : List Visit) :
  speedEndpoints m (vs.map (Visit.shift o)) = speedEndpoints (m.drop o) vs
  := by
  unfold speedEndpoints
  rw [List.filterMap_map]
  congr 1
  funext v
  exact (descEndpoint_drop m o v.offset).symm

theorem speedInterfaces_drop (vs : List Visit) :
  speedInterfaces m (vs.map (Visit.shift o)) = speedInterfaces (m.drop o) vs
  := by
  induction vs with
  | nil => rfl
  | cons v vs ih =>
      rw [List.map_cons, speedInterfaces, speedInterfaces, ih, descInterfaces_drop]
      rfl

theorem osHeader_drop (d len : Nat) :
  osHeader (m.drop o) d len = osHeader m (o + d) len
  := by
  simp only [osHeader, osKind, osDwLength, osBcdVersion, osWIndex, osWCount, osReserved,
    le32At_drop, le16At_drop, byteAt_drop, Nat.add_assoc]

theorem osEntrySize_drop (interfaces : Nat) (type : OsDescType) (h d len : Nat) :
  osEntrySize (m.drop o) interfaces type h d len
    = osEntrySize m interfaces type (o + h) (o + d) len
  := by
  cases type with
  | extCompat => simp only [osEntrySize, compatSize, AllZero, byteAt_drop, Nat.add_assoc]
  | extProp =>
      simp only [osEntrySize, propSize, propNameLength, propDataLength, byteAt_drop, le16At_drop,
        le32At_drop, Nat.add_assoc]

theorem osFeature_drop (interfaces d len : Nat) :
  osFeature m interfaces (o + d) len
    = (osFeature (m.drop o) interfaces d len).map (List.map (OsEntry.shift o))
  := by
  unfold osFeature
  rw [osHeader_drop]
  cases osHeader m (o + d) len with
  | none => rfl
  | some f =>
      obtain ⟨type, count⟩ := f
      dsimp only [Option.bind_some]
      have hvisits : visits (osEntrySize m interfaces type (o + d)) count
          (o + (d + usbOsDescHeaderSize)) (len - usbOsDescHeaderSize)
          = (visits (osEntrySize (m.drop o) interfaces type d) count (d + usbOsDescHeaderSize)
            (len - usbOsDescHeaderSize)).map (List.map (Visit.shift o)) := by
        apply Option.ext
        intro vs
        rw [visits_shift (osEntrySize_drop m o interfaces type d), Option.map_eq_some_iff]
        apply exists_congr fun ws => and_congr_right fun _ => eq_comm
      rw [Nat.add_assoc, hvisits, Option.map_map, Option.map_map]
      congr 1
      funext vs
      simp [OsEntry.shift, Visit.shift]

theorem osFeatureSize_drop (interfaces d len : Nat) :
  osFeatureSize (m.drop o) interfaces d len = osFeatureSize m interfaces (o + d) len
  := by
  unfold osFeatureSize
  rw [osFeature_drop, Option.map_map]
  congr 1
  funext es
  simp [entriesSize, OsEntry.shift, Function.comp_def]

theorem osEntries_drop (interfaces : Nat) (fs : List Visit) :
  osEntries m interfaces (fs.map (Visit.shift o))
    = (osEntries (m.drop o) interfaces fs).map (OsEntry.shift o)
  := by
  induction fs with
  | nil => rfl
  | cons v fs ih =>
      have hlen : m.length - (o + v.offset) = (m.drop o).length - v.offset := by
        rw [List.length_drop]
        omega
      unfold osEntries at ih ⊢
      rw [List.map_cons, List.flatMap_cons, List.flatMap_cons, List.map_append, ih]
      congr 1
      rw [show (Visit.shift o v).offset = o + v.offset from rfl, osFeature_drop, hlen]
      cases osFeature (m.drop o) interfaces v.offset ((m.drop o).length - v.offset) with
      | none => rfl
      | some es => rfl

end Drop

/-! ### Raw descriptors -/

/-- The place of a speed in the order of the walks. -/
def Speed.rank : Speed → Nat
  | .full => 0
  | .high => 1
  | .super => 2

theorem Speed.rank_inj {speed speed' : Speed} (h : speed.rank = speed'.rank) :
  speed = speed'
  := by
  cases speed <;> cases speed' <;> first | rfl | cases h

/-- The reserved bytes of the extended descriptors `es`, which the validation sets. -/
def ReservedBytes (es : List OsEntry) (p : Nat) : Prop :=
  ∃ e ∈ es, e.type = .extCompat ∧ p = e.offset + 1

/-- The raw descriptors of a blob, and the descriptors of the speeds and the features that were
found in them. -/
structure RawDescs where
  bytes : Bytes
  descs : Speed → List Visit
  features : List Visit

namespace RawDescs

/-- Where the descriptors of a speed start. -/
def startAt (raw : RawDescs) : Speed → Nat
  | .full => 0
  | .high => total (raw.descs .full)
  | .super => total (raw.descs .full) + total (raw.descs .high)

/-- The descriptors of the first `n` speeds. -/
def before (raw : RawDescs) (n : Nat) (speed : Speed) : List Visit :=
  if speed.rank < n then raw.descs speed else []

/-- Where the features start. -/
def osAt (raw : RawDescs) : Nat :=
  total (raw.descs .full) + total (raw.descs .high) + total (raw.descs .super)

/-- The addresses of the endpoints of a speed. -/
def endpoints (raw : RawDescs) (speed : Speed) : List UInt8 :=
  speedEndpoints raw.bytes (raw.descs speed)

/-- The extended descriptors. -/
def entries (raw : RawDescs) (interfaces : Nat) : List OsEntry :=
  osEntries raw.bytes interfaces raw.features

/-- The reserved bytes, which the validation sets. -/
def Reserved (raw : RawDescs) (interfaces : Nat) : Nat → Prop :=
  ReservedBytes (raw.entries interfaces)

end RawDescs

namespace DescLayout

/-- The descriptors of a speed. -/
def speed (lay : DescLayout) : Speed → List Visit
  | .full => lay.fs
  | .high => lay.hs
  | .super => lay.ss

/-- The raw descriptors of a blob with the layout. -/
def raw (lay : DescLayout) (m : Bytes) : RawDescs where
  bytes := m.drop lay.fsAt
  descs speed := (lay.speed speed).map (Visit.unshift lay.fsAt)
  features := lay.os.map (Visit.unshift lay.fsAt)

end DescLayout

/-! ### What is recorded of the speeds -/

/-- A speed with the endpoint addresses `as` and `i` interfaces agrees with what is recorded, or
has neither. -/
def FfsData.Agrees (ffs : FfsData) (as : List UInt8) (i : Nat) : Prop :=
  as = [] ∧ i = 0
    ∨ ffs.Matches 1 as ∧ as.length = ffs.epsCount ∧ as.length < ffsMaxEpsCount
      ∧ i = ffs.interfacesCount

/-- Only the address map matters. -/
theorem FfsData.Matches.congr
    {ffs ffs' : FfsData} {n : Nat} {as : List UInt8} (h : ffs.Matches n as)
    (heq : ffs'.epsAddrmap = ffs.epsAddrmap) :
  ffs'.Matches n as
  := by
  induction as generalizing n with
  | nil => trivial
  | cons a as ih =>
      refine ⟨?_, ih h.2⟩
      rw [← h.1, FfsData.addrAt, FfsData.addrAt, heq]

theorem FfsData.Agrees.congr
    {ffs ffs' : FfsData} {as : List UInt8} {i : Nat} (h : ffs.Agrees as i)
    (hmap : ffs'.epsAddrmap = ffs.epsAddrmap) (heps : ffs'.epsCount = ffs.epsCount)
    (hinterfaces : ffs'.interfacesCount = ffs.interfacesCount) :
  ffs'.Agrees as i
  := by
  refine h.imp_right ?_
  rintro ⟨hmatch, hlen, hlt, hi⟩
  exact ⟨hmatch.congr hmap, hlen.trans heps.symm, hlt, hi.trans hinterfaces.symm⟩

section TakesSpeed

variable {m : Bytes} {count : Nat} {vs : List Visit} {ffs ffs' : FfsData}

/-- A speed that is taken agrees with what is recorded then. -/
theorem TakesSpeed.agrees (h : TakesSpeed m count vs ffs ffs') (hc : count ≠ 0) :
  ffs'.Agrees (speedEndpoints m vs) (speedInterfaces m vs)
  := by
  obtain ⟨hzero, -⟩ | ⟨-, hlt, ⟨-, rfl⟩ | ⟨-, hmatch, heps, hi, rfl⟩⟩ := h
  · apply absurd hzero hc
  · have hfill : FfsData.Matches _ 1 (speedEndpoints m vs) :=
      matches_fillAddrmap ffs (by omega)
    exact .inr ⟨hfill.congr rfl, rfl, hlt, rfl⟩
  · exact .inr ⟨hmatch.congr rfl, heps.symm, hlt, hi.symm⟩

/-- A speed that is taken has the endpoints that are recorded then. -/
theorem TakesSpeed.length_endpoints (h : TakesSpeed m count vs ffs ffs') (hc : count ≠ 0) :
  (speedEndpoints m vs).length = ffs'.epsCount
  := by
  obtain ⟨hzero, -⟩ | ⟨-, -, ⟨-, rfl⟩ | ⟨-, -, heps, -, rfl⟩⟩ := h
  · apply absurd hzero hc
  · rfl
  · apply heps.symm

/-- A speed without descriptors leaves what is recorded. -/
theorem TakesSpeed.eq_of_zero (h : TakesSpeed m count vs ffs ffs') (hc : count = 0) :
  ffs' = ffs
  := by
  obtain ⟨-, heq⟩ | ⟨hne, -⟩ := h
  · apply heq
  · apply absurd hc hne

/-- What agrees goes on to agree with what is recorded. -/
theorem TakesSpeed.agrees_of_agrees
    (h : TakesSpeed m count vs ffs ffs') {as : List UInt8} {i : Nat} (ha : ffs.Agrees as i) :
  ffs'.Agrees as i
  := by
  obtain ⟨-, rfl⟩ | ⟨-, -, ⟨hunset, rfl⟩ | ⟨-, -, -, -, rfl⟩⟩ := h
  · apply ha
  · obtain hblank | ⟨-, hlen, -, hi⟩ := ha
    · exact .inl hblank
    · exact .inl ⟨List.length_eq_zero_iff.mp (hlen.trans hunset.1), hi.trans hunset.2⟩
  · exact ha.congr rfl rfl rfl

end TakesSpeed

/-! ### The copy -/

/-- The OS descriptors leave all but the counts of properties and the reserved bytes. -/
theorem takeOsEntries_agree (m : Bytes) (es : List OsEntry) (s : Heap FfsData) :
  AgreeOff (ReservedBytes es) s.mem (takeOsEntries m es s).mem
    ∧ ∃ count nameLen dataLen, (takeOsEntries m es s).priv = { s.priv with
        msOsDescsExtPropCount := count
        msOsDescsExtPropNameLen := nameLen
        msOsDescsExtPropDataLen := dataLen }
  := by
  induction es generalizing s with
  | nil => exact ⟨⟨rfl, fun _ _ => rfl⟩, _, _, _, rfl⟩
  | cons e es ih =>
      obtain ⟨hmem, count, nameLen, dataLen, hpriv⟩ := ih (takeOsEntry m e.type e.offset s)
      have htail : AgreeOff (ReservedBytes (e :: es)) _ _ :=
        hmem.mono fun p ⟨e', he', hp⟩ => ⟨e', by simp [he'], hp⟩
      obtain ⟨type, h, offset, size⟩ := e
      cases type with
      | extCompat =>
          refine ⟨AgreeOff.trans ?_ htail, count, nameLen, dataLen, hpriv⟩
          apply AgreeOff.set ⟨rfl, fun _ _ => rfl⟩
          exact ⟨_, List.mem_cons_self, rfl, rfl⟩
      | extProp => exact ⟨htail, count, nameLen, dataLen, hpriv⟩

namespace RawDescs

/-- The raw descriptors are those of a blob that was accepted, with what is recorded in `ffs`. -/
structure Valid (raw : RawDescs) (ffs : FfsData) : Prop where
  length : raw.bytes.length = ffs.rawDescsLength
  nonempty : 0 < raw.bytes.length
  small : raw.bytes.length < 2147483648
  counts : ∀ speed, ffs.descsCount speed < 4294967296
  descs : ∀ speed, visits (descSize raw.bytes) (ffs.descsCount speed) (raw.startAt speed)
    (raw.bytes.length - raw.startAt speed) = some (raw.descs speed)
  features : visits (osFeatureSize raw.bytes ffs.interfacesCount) ffs.msOsDescsCount raw.osAt
    (raw.bytes.length - raw.osAt) = some raw.features
  agree : ∀ speed, ffs.descsCount speed ≠ 0 →
    ffs.Agrees (raw.endpoints speed) (speedInterfaces raw.bytes (raw.descs speed))
  copy : AgreeOff (raw.Reserved ffs.interfacesCount) raw.bytes ffs.rawDescsBytes

end RawDescs

/-! ### Positions of the descriptors -/

namespace RawDescs.Valid

variable {raw : RawDescs} {ffs : FfsData} {speed speed' : Speed} {v w : Visit}

theorem stop_le (h : raw.Valid ffs) (speed : Speed) :
  raw.startAt speed + total (raw.descs speed) ≤ raw.osAt ∧ raw.osAt ≤ raw.bytes.length
  := by
  have hle : ∀ sp, total (raw.descs sp) ≤ raw.bytes.length - raw.startAt sp :=
    fun sp => total_le_of_visits (fun _ _ _ => descSize_le) (h.descs sp)
  have hfull := hle .full
  have hhigh := hle .high
  have hsuper := hle .super
  simp only [startAt] at hfull hhigh hsuper
  have hos : raw.osAt = total (raw.descs .full) + total (raw.descs .high)
    + total (raw.descs .super) := rfl
  refine ⟨?_, by omega⟩
  cases speed with
  | full => simp only [startAt]; omega
  | high => simp only [startAt]; omega
  | super => simp only [startAt]; omega

/-- A descriptor of a speed lies in the part of the speed and passes the checks. -/
theorem mem (h : raw.Valid ffs) (hv : v ∈ raw.descs speed) :
  raw.startAt speed ≤ v.offset
    ∧ v.offset + v.size ≤ raw.startAt speed + total (raw.descs speed)
    ∧ descSize raw.bytes v.offset (raw.bytes.length - v.offset) = some v.size
  := by
  obtain ⟨hstart, hstop, hsize⟩ := mem_visits (fun _ _ _ => descSize_le) (h.descs speed) hv
  have hle := h.stop_le speed
  rw [show raw.startAt speed + (raw.bytes.length - raw.startAt speed) = raw.bytes.length by omega]
    at hsize
  exact ⟨hstart, hstop, hsize⟩

theorem stop_le_start (raw : RawDescs) (hrank : speed.rank < speed'.rank) :
  raw.startAt speed + total (raw.descs speed) ≤ raw.startAt speed'
  := by
  cases speed <;> cases speed' <;> simp only [startAt, Speed.rank] at hrank ⊢ <;> omega

/-- The descriptors of an earlier speed lie before. -/
theorem before (h : raw.Valid ffs) (hrank : speed.rank < speed'.rank) (hv : v ∈ raw.descs speed)
    (hw : w ∈ raw.descs speed') :
  v.offset + v.size ≤ w.offset
  := by
  have hstop := (h.mem hv).2.1
  have hstart := (h.mem hw).1
  have hnext := stop_le_start raw hrank
  omega

/-- Two descriptors are the same, or one lies before the other. -/
theorem apart (h : raw.Valid ffs) (hv : v ∈ raw.descs speed) (hw : w ∈ raw.descs speed') :
  v = w ∨ v.offset + v.size ≤ w.offset ∨ w.offset + w.size ≤ v.offset
  := by
  obtain hlt | heq | hgt := Nat.lt_trichotomy speed.rank speed'.rank
  · exact .inr (.inl (h.before hlt hv hw))
  · obtain rfl := Speed.rank_inj heq
    apply visits_apart (fun _ _ _ => descSize_le) (h.descs speed) hv hw
  · exact .inr (.inr (h.before hgt hw hv))

/-- An extended descriptor lies behind the header of its feature and passes the checks. -/
theorem mem_entries (h : raw.Valid ffs) {e : OsEntry} (he : e ∈ raw.entries ffs.interfacesCount) :
  raw.osAt ≤ e.h ∧ e.h + usbOsDescHeaderSize ≤ e.offset
    ∧ osEntrySize raw.bytes ffs.interfacesCount e.type e.h e.offset
      (raw.bytes.length - e.offset) = some e.size
  := by
  obtain ⟨v, hv, he⟩ := List.mem_flatMap.mp he
  obtain ⟨hstart, hstop, hsize⟩ :=
    mem_visits (fun _ _ _ hk => (osFeatureSize_le hk).2) h.features hv
  have hle := (h.stop_le .full).2
  rw [show raw.osAt + (raw.bytes.length - raw.osAt) = raw.bytes.length by omega] at hsize
  obtain ⟨es, hes, hsum⟩ := Option.map_eq_some_iff.mp hsize
  rw [hes] at he
  obtain ⟨hh, hoffset, hend, hentry⟩ := mem_osFeature hes he
  have hvle := (osFeatureSize_le hsize).2
  rw [hh] at hentry ⊢
  rw [show v.offset + (raw.bytes.length - v.offset) - e.offset = raw.bytes.length - e.offset by
    omega] at hentry
  exact ⟨hstart, hoffset, hentry⟩

/-- The reserved bytes lie behind the first header. -/
theorem le_of_reserved (h : raw.Valid ffs) {p : Nat} (hp : raw.Reserved ffs.interfacesCount p) :
  raw.osAt + 12 ≤ p
  := by
  obtain ⟨e, he, -, rfl⟩ := hp
  obtain ⟨hstart, hoffset, -⟩ := h.mem_entries he
  simp only [usbOsDescHeaderSize] at hoffset
  omega

theorem length_descs (h : raw.Valid ffs) (speed : Speed) :
  (raw.descs speed).length = ffs.descsCount speed
  := visits_length (h.descs speed)

end RawDescs.Valid

theorem descClass_endpoint {type : UInt8} :
  descClass type = .endpoint ↔ type = usbDtEndpoint
  := by
  constructor
  · intro h
    unfold descClass at h
    split_ifs at h with h1 h2 h3
    apply h3
  · rintro rfl
    rfl

/-- The descriptor of an endpoint. -/
theorem descSize_endpoint
    {m : Bytes} {d len k : Nat} {a : UInt8} (h : descSize m d len = some k)
    (ha : descEndpoint m d = some a) :
  byteAt m (d + 1) = usbDtEndpoint ∧ byteAt m (d + 2) = a ∧ 7 ≤ k ∧ (byteAt m d).toNat = k
    ∧ a &&& usbEndpointNumberMask ≠ 0
  := by
  unfold descEndpoint at ha
  split_ifs at ha with hclass
  obtain rfl := Option.some.inj ha
  unfold descSize at h
  split_ifs at h with hcond
  obtain ⟨-, -, hrule, hnumber⟩ := hcond
  obtain rfl := Option.some.inj h
  rw [hclass] at hrule
  simp only [DescClass.lengthRule, usbDtEndpointSize, usbDtEndpointAudioSize] at hrule
  exact ⟨descClass_endpoint.mp hclass, rfl, by omega, rfl, hnumber hclass⟩

/-! ### Accepted blobs -/

@[simp]
theorem total_unshift (o : Nat) (vs : List Visit) :
  total (vs.map (Visit.unshift o)) = total vs
  := by
  simp [total, Visit.unshift, Function.comp_def]

theorem unshift_shift (o : Nat) (vs : List Visit) :
  (vs.map (Visit.shift o)).map (Visit.unshift o) = vs
  := by
  simp [Visit.shift, Visit.unshift, Function.comp_def]

/-- The items of a part that starts at `o`. -/
theorem visits_drop
    {size size' : (data len : Nat) → Option Nat} {o n data len : Nat} {vs : List Visit}
    (hsize : ∀ d l, size' d l = size (o + d) l) (h : visits size n (o + data) len = some vs) :
  visits size' n data len = some (vs.map (Visit.unshift o))
    ∧ (vs.map (Visit.unshift o)).map (Visit.shift o) = vs
  := by
  obtain ⟨ws, hws, rfl⟩ := (visits_shift hsize).mp h
  rw [unshift_shift]
  exact ⟨hws, rfl⟩

/-- The layout of a blob is determined. -/
theorem Parses.unique
    {m : Bytes} {interfaces : Nat} {lay lay' : DescLayout} (h : Parses m interfaces lay)
    (h' : Parses m interfaces lay') :
  lay = lay'
  := by
  obtain ⟨hd, fs, hs, ss, os⟩ := lay
  obtain ⟨hd', fs', hs', ss', os'⟩ := lay'
  obtain rfl : hd = hd' := Option.some.inj (h.header.symm.trans h'.header)
  obtain rfl : fs = fs' := Option.some.inj (h.fs.symm.trans h'.fs)
  obtain rfl : hs = hs' := Option.some.inj (h.hs.symm.trans h'.hs)
  obtain rfl : ss = ss' := Option.some.inj (h.ss.symm.trans h'.ss)
  obtain rfl : os = os' := Option.some.inj (h.os.symm.trans h'.os)
  rfl

theorem descHeader_counts {m : Bytes} {hd : DescHeader} (h : descHeader m = some hd) :
  hd.fsCount < 4294967296 ∧ hd.hsCount < 4294967296 ∧ hd.ssCount < 4294967296
  := by
  obtain ⟨-, d, d₀, d₁, d₂, d₃, -, -, h₁, h₂, h₃, -⟩ := descHeader_eq_some.mp h
  have hcount : ∀ {flag data count d}, countWord m flag hd.flags data = some (count, d) →
      count < 4294967296 := by
    intro flag data count d hc
    unfold countWord at hc
    split_ifs at hc
    · cases hc
      apply le32At_lt m data
    · cases hc
      decide
  exact ⟨hcount h₁, hcount h₂, hcount h₃⟩

/-- The copy a bind makes differs from the blob in the reserved bytes at most. -/
theorem rawDescsBytes_agree
    {m : Bytes} {lay : DescLayout} {ffs : FfsData}
    (hos : (lay.os.map (Visit.unshift lay.fsAt)).map (Visit.shift lay.fsAt) = lay.os) :
  AgreeOff ((lay.raw m).Reserved ffs.interfacesCount) (m.drop lay.fsAt)
    (storeLayout m lay ffs).priv.rawDescsBytes
  := by
  have hagree := (takeOsEntries_agree m (osEntries m ffs.interfacesCount lay.os) ⟨m, ffs⟩).1
  have hcopy : (storeLayout m lay ffs).priv.rawDescsBytes
      = (takeOsEntries m (osEntries m ffs.interfacesCount lay.os) ⟨m, ffs⟩).mem.drop lay.fsAt := by
    apply List.take_of_length_le
    rw [List.length_drop]
    apply Nat.le_of_eq (congrArg (· - lay.fsAt) hagree.1.symm)
  rw [hcopy]
  constructor
  · rw [List.length_drop, List.length_drop, ← hagree.1]
  · intro p hp
    rw [byteAt_drop, byteAt_drop]
    apply hagree.2
    rintro ⟨e, he, htype, hpos⟩
    rw [← hos, osEntries_drop] at he
    obtain ⟨e', he', rfl⟩ := List.mem_map.mp he
    refine hp ⟨e', he', htype, ?_⟩
    simp only [OsEntry.shift] at hpos
    omega

section Parses

variable {m : Bytes} {interfaces : Nat} {lay : DescLayout}

/-- The descriptors of a speed, in a blob. -/
theorem Parses.visits_speed (h : Parses m interfaces lay) (ffs : FfsData) (speed : Speed) :
  visits (descSize m) ((storeLayout m lay ffs).priv.descsCount speed)
      (lay.fsAt + (lay.raw m).startAt speed)
      ((lay.raw m).bytes.length - (lay.raw m).startAt speed)
    = some (lay.speed speed)
  := by
  rw [show ((lay.raw m).bytes).length = m.length - lay.fsAt from List.length_drop, ← Nat.sub_add_eq]
  cases speed with
  | full => exact h.fs
  | high =>
      rw [show (lay.raw m).startAt .high = total lay.fs from total_unshift _ _]
      apply h.hs
  | super =>
      rw [show (lay.raw m).startAt .super = total lay.fs + total lay.hs from
        congrArg₂ (· + ·) (total_unshift _ _) (total_unshift _ _), ← Nat.add_assoc]
      apply h.ss

/-- The endpoints of a speed, in a blob. -/
theorem Parses.endpoints_raw (h : Parses m interfaces lay) (speed : Speed) :
  (lay.raw m).endpoints speed = speedEndpoints m (lay.speed speed)
  := by
  have hshift := (visits_drop (descSize_drop m lay.fsAt) (h.visits_speed ffsDataNew speed)).2
  rw [← hshift, speedEndpoints_drop]
  rfl

end Parses

theorem storeLayout_counts (m : Bytes) (lay : DescLayout) (ffs : FfsData) :
  (storeLayout m lay ffs).priv.interfacesCount = ffs.interfacesCount
    ∧ (storeLayout m lay ffs).priv.epsCount = ffs.epsCount
    ∧ (storeLayout m lay ffs).priv.epsAddrmap = ffs.epsAddrmap
  := by
  obtain ⟨-, count, nameLen, dataLen, hpriv⟩ :=
    takeOsEntries_agree m (osEntries m ffs.interfacesCount lay.os) ⟨m, ffs⟩
  simp only [storeLayout, storeDescs, hpriv, and_self]

/-- An accepted blob has a layout. -/
theorem exists_parses
    {fdget : EventfdCtxFdget} {m : Bytes} {ffs : FfsData} {t : Heap FfsData}
    (hm : 12 ≤ m.length) (hmax : m.length < 2147483648)
    (hacc : (ffsDataGotDescs fdget m.length).run ⟨m, ffs⟩ = .ok () t) :
  ∃ lay, Parses m t.priv.interfacesCount lay
  := by
  obtain ⟨lay, ffs₃, hparses, -, rfl⟩ := (ffsDataGotDescs_ok hm hmax).mp hacc
  use lay
  rw [(storeLayout_counts m lay ffs₃).1]
  apply hparses

/-- What is known of the raw descriptors of an accepted blob. -/
theorem Parses.valid
    {fdget : EventfdCtxFdget} {m : Bytes} {ffs : FfsData} {t : Heap FfsData} {lay : DescLayout}
    (hm : 12 ≤ m.length) (hmax : m.length < 2147483648)
    (hacc : (ffsDataGotDescs fdget m.length).run ⟨m, ffs⟩ = .ok () t)
    (hlay : Parses m t.priv.interfacesCount lay) :
  (lay.raw m).Valid t.priv
  := by
  obtain ⟨lay', ffs₃, hparses, ⟨ffs₀, ffs₁, ffs₂, -, hfs, hhs, hss⟩, rfl⟩ :=
    (ffsDataGotDescs_ok hm hmax).mp hacc
  obtain ⟨hinterfaces, heps, hmap⟩ := storeLayout_counts m lay' ffs₃
  rw [hinterfaces] at hlay
  obtain rfl := hlay.unique hparses
  obtain ⟨hheader, -, -, -, hvos, hbody, hstop⟩ := hlay
  have hcounts := descHeader_counts hheader
  have hlen : ((lay.raw m).bytes).length = m.length - lay.fsAt := List.length_drop
  have hstart := hparses.visits_speed ffs₃
  have hosAt : lay.fsAt + (lay.raw m).osAt = lay.osAt := by
    have h : (lay.raw m).osAt = total lay.fs + total lay.hs + total lay.ss :=
      congrArg₂ (· + ·) (congrArg₂ (· + ·) (total_unshift _ _) (total_unshift _ _))
        (total_unshift _ _)
    rw [h]
    simp only [DescLayout.osAt, DescLayout.ssAt, DescLayout.hsAt, Nat.add_assoc]
  rw [← hosAt, Nat.sub_add_eq, ← hlen] at hvos
  obtain ⟨hos, hosShift⟩ := visits_drop (osFeatureSize_drop m lay.fsAt ffs₃.interfacesCount) hvos
  have hagrees : ∀ speed, (storeLayout m lay ffs₃).priv.descsCount speed ≠ 0 →
      ffs₃.Agrees (speedEndpoints m (lay.speed speed)) (speedInterfaces m (lay.speed speed)) := by
    intro speed hc
    cases speed with
    | full => exact hss.agrees_of_agrees (hhs.agrees_of_agrees (hfs.agrees hc))
    | high => exact hss.agrees_of_agrees (hhs.agrees hc)
    | super => exact hss.agrees hc
  refine ⟨hlen, ?_, ?_, ?_, ?_, ?_, ?_, ?_⟩
  · rw [hlen, ← hstop]
    have hne := hbody
    simp only [DescLayout.stopAt, DescLayout.osAt, DescLayout.ssAt, DescLayout.hsAt] at hne ⊢
    omega
  · omega
  · intro speed
    cases speed with
    | full => exact hcounts.1
    | high => exact hcounts.2.1
    | super => exact hcounts.2.2
  · intro speed
    exact (visits_drop (descSize_drop m lay.fsAt) (hstart speed)).1
  · rw [hinterfaces]
    apply hos
  · intro speed hc
    have hshift := (visits_drop (descSize_drop m lay.fsAt) (hstart speed)).2
    have hspeed := hagrees speed hc
    rw [← hshift, speedEndpoints_drop, speedInterfaces_drop] at hspeed
    apply hspeed.congr hmap heps hinterfaces
  · rw [hinterfaces]
    apply rawDescsBytes_agree hosShift

/-- If an accepted blob has descriptors, there is a speed with descriptors that has all the
endpoints that are recorded. -/
theorem Parses.recorded
    {fdget : EventfdCtxFdget} {m : Bytes} {ffs : FfsData} {t : Heap FfsData} {lay : DescLayout}
    (hm : 12 ≤ m.length) (hmax : m.length < 2147483648)
    (hacc : (ffsDataGotDescs fdget m.length).run ⟨m, ffs⟩ = .ok () t)
    (hlay : Parses m t.priv.interfacesCount lay) (hdescs : ∃ speed, t.priv.descsCount speed ≠ 0) :
  ∃ speed, ((lay.raw m).endpoints speed).length = t.priv.epsCount
  := by
  obtain ⟨lay', ffs₃, hparses, ⟨ffs₀, ffs₁, ffs₂, -, hfs, hhs, hss⟩, rfl⟩ :=
    (ffsDataGotDescs_ok hm hmax).mp hacc
  obtain ⟨hinterfaces, heps, -⟩ := storeLayout_counts m lay' ffs₃
  rw [hinterfaces] at hlay
  obtain rfl := hlay.unique hparses
  rw [heps]
  -- the last speed that has descriptors is the one the counts are compared with last
  by_cases hsc : lay.header.ssCount = 0
  case neg =>
    refine ⟨.super, ?_⟩
    rw [hlay.endpoints_raw]
    apply hss.length_endpoints hsc
  obtain rfl := hss.eq_of_zero hsc
  by_cases hhc : lay.header.hsCount = 0
  case neg =>
    refine ⟨.high, ?_⟩
    rw [hlay.endpoints_raw]
    apply hhs.length_endpoints hhc
  obtain rfl := hhs.eq_of_zero hhc
  by_cases hfc : lay.header.fsCount = 0
  case neg =>
    refine ⟨.full, ?_⟩
    rw [hlay.endpoints_raw]
    apply hfs.length_endpoints hfc
  obtain ⟨speed, hne⟩ := hdescs
  cases speed with
  | full => exact absurd hfc hne
  | high => exact absurd hhc hne
  | super => exact absurd hsc hne

end Ffs
