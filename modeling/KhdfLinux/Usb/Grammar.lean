import KhdfLinux.Lib.Segments
import KhdfLinux.Usb.GotDescs

/-!
# The grammar of descriptor blobs

A descriptor blob is meant to be a head followed by the USB descriptors of up to three
speeds and by OS feature descriptors.  `DescGrammar` says so in terms of the byte strings
the blob is made of, without an execution and without positions.

The lemmas compare the byte strings with what the walkers of the validation see at the
positions where the byte strings lie: a descriptor of the grammar is one the walkers
take, and the other way round as far as possible.
-/

namespace Ffs

open Bytes Exec Heap Walk

/-! ### The grammar -/

/-- A USB descriptor. -/
def IsDesc (d : Bytes) : Prop := 2 ≤ d.length ∧ (byteAt d 0).toNat = d.length ∧ DescRule d 0

/-- The number of interfaces of the descriptors of a speed: interfaces are numbered from
zero. -/
def descsInterfaces : List Bytes → Nat
  | [] => 0
  | d :: ds => max (descInterfaces d 0) (descsInterfaces ds)

/-- The addresses of the endpoints of a speed, in order. -/
def descsEndpoints (ds : List Bytes) : List UInt8 := ds.filterMap fun d => descEndpoint d 0

/-- An extended compatibility descriptor, of a function with the number of interfaces
given. -/
def IsCompat (interfaces : Nat) (e : Bytes) : Prop :=
  e.length = usbExtCompatDescSize ∧ (byteAt e 0).toNat < interfaces ∧ AllZero e 18 6

/-- An extended property descriptor: `dwSize` is the number of its bytes, and its name and
its data fill it. -/
def IsProp (interfaces : Nat) (header e : Bytes) : Prop :=
  (byteAt header 0).toNat < interfaces
    ∧ usbExtPropUnicode ≤ le32At e 4 ∧ le32At e 4 ≤ usbExtPropUnicodeMulti
    ∧ le32At e 0 = e.length ∧ e.length = 14 + propNameLength e 0 + propDataLength e 0

/-- An extended descriptor of either kind, in a feature with the header given. -/
def IsOsEntry (interfaces : Nat) (header : Bytes) : OsDescType → Bytes → Prop
  | .extCompat, e => IsCompat interfaces e
  | .extProp, e => IsProp interfaces header e

/-- The value of `wIndex` for a kind of feature descriptors. -/
def OsDescType.wIndex : OsDescType → Nat
  | .extCompat => 4
  | .extProp => 5

/-- A feature descriptor: its header, and the extended descriptors that follow it. -/
structure OsFeature where
  type : OsDescType
  header : Bytes
  entries : List Bytes

/-- The bytes of a feature descriptor. -/
def OsFeature.bytes (f : OsFeature) : Bytes := f.header ++ f.entries.flatten

/-- The feature descriptor is well formed when the bytes `rest` follow it. -/
structure OsFeature.Valid (f : OsFeature) (interfaces : Nat) (rest : Bytes) : Prop where
  length : f.header.length = usbOsDescHeaderSize
  version : osBcdVersion f.header 0 = 1
  index : osWIndex f.header 0 = f.type.wIndex
  dwLength : osDwLength f.header 0 ≤ f.bytes.length + rest.length
  count : f.entries.length = osWCount f.header 0
  compat : f.type = .extCompat → osWCount f.header 0 ≤ 255 ∧ osReserved f.header 0 = 0
  entries : ∀ e ∈ f.entries, IsOsEntry interfaces f.header f.type e

/-- The properties of the feature descriptor are shorter than 256 bytes. -/
def OsFeature.Short (f : OsFeature) : Prop := f.type = .extProp → ∀ e ∈ f.entries, e.length < 256

/-- The extended descriptors of the feature descriptor, if it lies at position `o`. -/
def OsFeature.locate (f : OsFeature) (o : Nat) : List OsEntry :=
  (Walk.locate (o + usbOsDescHeaderSize) f.entries).map fun v => ⟨f.type, o, v.offset, v.size⟩

/-- Well-formed feature descriptors, up to the end of the blob. -/
def IsFeatures (interfaces : Nat) : List OsFeature → Prop
  | [] => True
  | f :: fs => f.Valid interfaces (fs.flatMap OsFeature.bytes) ∧ IsFeatures interfaces fs

/-- The blob `m` has the head `hd`, and behind it the full-speed descriptors `fs`, the
high-speed descriptors `hs`, the super-speed descriptors `ss` and the features `os`.  Any
two speeds that are present have the same endpoints and the same number of interfaces. -/
structure DescGrammar (m : Bytes) (hd : DescHeader) (fs hs ss : List Bytes)
    (os : List OsFeature) : Prop where
  header : descHeader m = some hd
  fsCount : fs.length = hd.fsCount
  hsCount : hs.length = hd.hsCount
  ssCount : ss.length = hd.ssCount
  osCount : os.length = hd.osDescsCount
  body : m.drop hd.rawDescs
    = fs.flatten ++ (hs.flatten ++ (ss.flatten ++ os.flatMap OsFeature.bytes))
  nonempty : m.drop hd.rawDescs ≠ []
  descs : ∀ ds ∈ [fs, hs, ss], (∀ d ∈ ds, IsDesc d) ∧ (descsEndpoints ds).length < ffsMaxEpsCount
  agree : ∀ ds ∈ [fs, hs, ss], ∀ ds' ∈ [fs, hs, ss], ds ≠ [] → ds' ≠ [] →
    descsEndpoints ds = descsEndpoints ds' ∧ descsInterfaces ds = descsInterfaces ds'
  features : IsFeatures (descsInterfaces (fs ++ hs ++ ss)) os

/-! ### Descriptors -/

section Descs

variable {m s tail : Bytes} {o : Nat}

theorem byteAt_zero_of_drop (hm : m.drop o = s ++ tail) (hs : 0 < s.length) :
  byteAt m o = byteAt s 0
  := byteAt_of_drop hm hs

/-- The rule of a descriptor is about its own bytes. -/
theorem descRule_of_drop
    (hm : m.drop o = s ++ tail) (h2 : 2 ≤ s.length) (hlen : (byteAt s 0).toNat = s.length) :
  DescRule m o ↔ DescRule s 0
  := by
  unfold DescRule
  rw [byteAt_of_drop hm (by omega), byteAt_zero_of_drop hm (by omega), Nat.zero_add, Nat.zero_add]
  apply and_congr_right
  intro hrule
  by_cases hc : descClass (byteAt s 1) = .endpoint
  · rw [hc, hlen] at hrule
    have h7 : 7 ≤ s.length := by
      simp only [DescClass.lengthRule, usbDtEndpointSize, usbDtEndpointAudioSize] at hrule
      omega
    rw [byteAt_of_drop hm (by omega)]
  · simp [hc]

/-- The walker takes a descriptor of the grammar. -/
theorem IsDesc.descSize (hs : IsDesc s) (hm : m.drop o = s ++ tail) :
  Ffs.descSize m o (s.length + tail.length) = some s.length
  := by
  obtain ⟨h2, hlen, hrule⟩ := hs
  unfold Ffs.descSize
  rw [byteAt_zero_of_drop hm (by omega), hlen, if_pos]
  exact ⟨by omega, by omega, (descRule_of_drop hm h2 hlen).mpr hrule⟩

/-- What the walker takes is a descriptor of the grammar if it has two bytes. -/
theorem isDesc_of_descSize
    {v : Visit} {len : Nat} (hv : Ffs.descSize m v.offset len = some v.size)
    (hle : v.offset + v.size ≤ m.length) (h2 : 2 ≤ v.size) :
  IsDesc (segment m v)
  := by
  unfold Ffs.descSize at hv
  split_ifs at hv with hc
  obtain ⟨-, -, hrule⟩ := hc
  have hlen := length_segment hle
  have hm := drop_eq_segment_append m v
  have hsize : (byteAt (segment m v) 0).toNat = (segment m v).length := by
    rw [← byteAt_zero_of_drop hm (by omega), Option.some.inj hv, hlen]
  exact ⟨by omega, hsize, (descRule_of_drop hm (by omega) hsize).mp hrule⟩

theorem IsDesc.nine_le (hs : IsDesc s) (hc : descClass (byteAt s 1) = .interface) :
  9 ≤ s.length
  := by
  obtain ⟨-, hlen, hrule, -⟩ := hs
  rw [Nat.zero_add, hc, hlen] at hrule
  simp only [DescClass.lengthRule, usbDtInterfaceSize] at hrule
  omega

theorem IsDesc.descInterfaces_eq (hs : IsDesc s) (hm : m.drop o = s ++ tail) :
  descInterfaces m o = descInterfaces s 0
  := by
  unfold descInterfaces
  rw [byteAt_of_drop hm hs.1, Nat.zero_add, Nat.zero_add]
  split_ifs with hc
  · have h9 := hs.nine_le hc
    rw [byteAt_of_drop hm (by omega)]
  · rfl

theorem IsDesc.seven_le (hs : IsDesc s) (hc : descClass (byteAt s 1) = .endpoint) :
  7 ≤ s.length
  := by
  obtain ⟨-, hlen, hrule, -⟩ := hs
  rw [Nat.zero_add, hc, hlen] at hrule
  simp only [DescClass.lengthRule, usbDtEndpointSize, usbDtEndpointAudioSize] at hrule
  omega

theorem IsDesc.descEndpoint_eq (hs : IsDesc s) (hm : m.drop o = s ++ tail) :
  descEndpoint m o = descEndpoint s 0
  := by
  unfold descEndpoint
  rw [byteAt_of_drop hm hs.1, Nat.zero_add, Nat.zero_add]
  split_ifs with hc
  · have h7 := hs.seven_le hc
    rw [byteAt_of_drop hm (by omega)]
  · rfl

/-- The walker takes the descriptors of a speed one by one. -/
theorem visits_descs
    {ds : List Bytes} {rest : Bytes} (hds : ∀ d ∈ ds, IsDesc d)
    (hm : m.drop o = ds.flatten ++ rest) :
  visits (Ffs.descSize m) ds.length o (m.length - o) = some (locate o ds)
  := by
  apply visits_locate hm
  intro s hs o tail hm
  exact (hds s hs).descSize hm

theorem speedInterfaces_locate
    {ds : List Bytes} {rest : Bytes} (hds : ∀ d ∈ ds, IsDesc d)
    (hm : m.drop o = ds.flatten ++ rest) :
  speedInterfaces m (locate o ds) = descsInterfaces ds
  := by
  induction ds generalizing o with
  | nil => rfl
  | cons d ds ih =>
      obtain ⟨hd, hds⟩ := List.forall_mem_cons.mp hds
      rw [List.flatten_cons, List.append_assoc] at hm
      have hdrop : m.drop (o + d.length) = ds.flatten ++ rest := by
        rw [← List.drop_drop, hm, List.drop_left]
      rw [locate, speedInterfaces, ih hds hdrop, hd.descInterfaces_eq hm, descsInterfaces]

theorem speedEndpoints_locate
    {ds : List Bytes} {rest : Bytes} (hds : ∀ d ∈ ds, IsDesc d)
    (hm : m.drop o = ds.flatten ++ rest) :
  speedEndpoints m (locate o ds) = descsEndpoints ds
  := by
  induction ds generalizing o with
  | nil => rfl
  | cons d ds ih =>
      obtain ⟨hd, hds⟩ := List.forall_mem_cons.mp hds
      rw [List.flatten_cons, List.append_assoc] at hm
      have hdrop : m.drop (o + d.length) = ds.flatten ++ rest := by
        rw [← List.drop_drop, hm, List.drop_left]
      have htail := ih hds hdrop
      unfold speedEndpoints descsEndpoints at htail ⊢
      rw [locate, List.filterMap_cons, List.filterMap_cons, htail, hd.descEndpoint_eq hm]

end Descs

/-! ### Features -/

section Features

variable {m e tail : Bytes} {interfaces o h : Nat}

theorem propNameLength_of_drop (hm : m.drop o = e ++ tail) (hlen : 10 ≤ e.length) :
  propNameLength m o = propNameLength e 0
  := by
  unfold propNameLength
  rw [le16At_of_drop hm (by omega), Nat.zero_add]

theorem propDataLength_of_drop
    (hm : m.drop o = e ++ tail) (hlen : 14 + propNameLength e 0 ≤ e.length) :
  propDataLength m o = propDataLength e 0
  := by
  unfold propDataLength
  rw [propNameLength_of_drop hm (by omega), Nat.add_assoc, le32At_of_drop hm (by omega),
    Nat.zero_add]

theorem IsCompat.compatSize (he : IsCompat interfaces e) (hm : m.drop o = e ++ tail) :
  Ffs.compatSize m interfaces o (e.length + tail.length) = some e.length
  := by
  obtain ⟨hlen, hi, hz⟩ := he
  simp only [usbExtCompatDescSize] at hlen
  unfold Ffs.compatSize
  rw [if_pos]
  · rw [hlen]
    rfl
  · refine ⟨by simp only [usbExtCompatDescSize]; omega, ?_, ?_⟩
    · rw [byteAt_zero_of_drop hm (by omega)]
      apply hi
    · intro i hi
      rw [Nat.add_assoc, byteAt_of_drop hm (by omega)]
      apply hz i hi

theorem isCompat_of_compatSize
    {v : Visit} {len : Nat} (hv : Ffs.compatSize m interfaces v.offset len = some v.size)
    (hle : v.offset + v.size ≤ m.length) :
  IsCompat interfaces (segment m v)
  := by
  unfold Ffs.compatSize at hv
  split_ifs at hv with hc
  obtain ⟨-, hi, hz⟩ := hc
  have hsize := Option.some.inj hv
  have hlen := length_segment hle
  rw [← hsize] at hlen
  have hm := drop_eq_segment_append m v
  simp only [usbExtCompatDescSize] at hlen
  refine ⟨hlen, ?_, ?_⟩
  · rw [← byteAt_zero_of_drop hm (by omega)]
    apply hi
  · intro i hi
    rw [← byteAt_of_drop hm (by omega), ← Nat.add_assoc]
    apply hz i hi

/-- The validation takes a property of the grammar as long as its length fits in a byte. -/
theorem IsProp.propSize
    {header : Bytes} (he : IsProp interfaces header e) (hshort : e.length < 256)
    (hh : byteAt m h = byteAt header 0) (hm : m.drop o = e ++ tail) :
  Ffs.propSize m interfaces h o (e.length + tail.length) = some e.length
  := by
  obtain ⟨hi, hlo, hhi, hsize, hlen⟩ := he
  have hsize' : u8 (le32At m o) = e.length := by
    have := le32At_of_drop hm (show 0 + 4 ≤ e.length by omega)
    rw [Nat.add_zero] at this
    rw [this, hsize, u8_of_lt hshort]
  unfold Ffs.propSize
  rw [hsize', hh, le32At_of_drop hm (by omega), propNameLength_of_drop hm (by omega),
    propDataLength_of_drop hm (by omega), if_pos]
  refine ⟨?_, hi, by omega, hlo, hhi, hlen⟩
  simp only [usbExtPropDescSize]
  omega

theorem isProp_of_propSize
    {header : Bytes} {v : Visit} {len : Nat}
    (hv : Ffs.propSize m interfaces h v.offset len = some v.size)
    (hle : v.offset + v.size ≤ m.length) (hshort : le32At m v.offset < 256)
    (hh : byteAt m h = byteAt header 0) :
  IsProp interfaces header (segment m v)
  := by
  unfold Ffs.propSize at hv
  split_ifs at hv with hc
  obtain ⟨-, hi, -, hlo, hhi, hsum⟩ := hc
  have hsize := Option.some.inj hv
  rw [u8_of_lt hshort] at hsize hsum
  have hlen := length_segment hle
  have hm := drop_eq_segment_append m v
  have hn := propNameLength_of_drop hm (by omega)
  have hd := propDataLength_of_drop hm (by omega)
  have h0 := le32At_of_drop hm (show 0 + 4 ≤ (segment m v).length by omega)
  rw [Nat.add_zero] at h0
  refine ⟨by rw [← hh]; exact hi, ?_, ?_, ?_, ?_⟩
  · rw [← le32At_of_drop hm (by omega)]
    apply hlo
  · rw [← le32At_of_drop hm (by omega)]
    apply hhi
  · omega
  · omega

theorem IsOsEntry.osEntrySize
    {header : Bytes} {type : OsDescType} (he : IsOsEntry interfaces header type e)
    (hshort : type = .extProp → e.length < 256) (hh : byteAt m h = byteAt header 0)
    (hm : m.drop o = e ++ tail) :
  Ffs.osEntrySize m interfaces type h o (e.length + tail.length) = some e.length
  := by
  cases type with
  | extCompat => exact IsCompat.compatSize he hm
  | extProp => exact IsProp.propSize he (hshort rfl) hh hm

theorem isOsEntry_of_osEntrySize
    {header : Bytes} {type : OsDescType} {v : Visit} {len : Nat}
    (hv : Ffs.osEntrySize m interfaces type h v.offset len = some v.size)
    (hle : v.offset + v.size ≤ m.length) (hshort : type = .extProp → le32At m v.offset < 256)
    (hh : byteAt m h = byteAt header 0) :
  IsOsEntry interfaces header type (segment m v)
  := by
  cases type with
  | extCompat => exact isCompat_of_compatSize hv hle
  | extProp => exact isProp_of_propSize hv hle (hshort rfl) hh

/-- The header of a feature is about its own bytes. -/
theorem osHeader_of_drop
    {s : Bytes} (hm : m.drop o = s ++ tail) (hlen : s.length = usbOsDescHeaderSize) (len : Nat) :
  osHeader m o len = osHeader s 0 len
  := by
  simp only [usbOsDescHeaderSize] at hlen
  have h1 : osDwLength m o = osDwLength s 0 := by
    unfold osDwLength
    rw [le32At_of_drop hm (by omega), Nat.zero_add]
  have h5 : osBcdVersion m o = osBcdVersion s 0 := by
    unfold osBcdVersion
    rw [le16At_of_drop hm (by omega), Nat.zero_add]
  have h7 : osWIndex m o = osWIndex s 0 := by
    unfold osWIndex
    rw [le16At_of_drop hm (by omega), Nat.zero_add]
  have h9 : osWCount m o = osWCount s 0 := by
    unfold osWCount
    rw [le16At_of_drop hm (by omega), Nat.zero_add]
  have h10 : osReserved m o = osReserved s 0 := by
    unfold osReserved
    rw [byteAt_of_drop hm (by omega), Nat.zero_add]
  simp only [osHeader, osKind, h1, h5, h7, h9, h10]

/-- The header of a feature is well formed exactly when it passes the checks. -/
theorem osHeader_eq_some {s : Bytes} {len count : Nat} {type : OsDescType} :
  osHeader s 0 len = some (type, count)
    ↔ usbOsDescHeaderSize ≤ len ∧ osDwLength s 0 ≤ len ∧ osBcdVersion s 0 = 1
      ∧ osWIndex s 0 = type.wIndex
      ∧ (type = .extCompat → osWCount s 0 ≤ 255 ∧ osReserved s 0 = 0) ∧ count = osWCount s 0
  := by
  unfold osHeader
  by_cases hlen : len < usbOsDescHeaderSize ∨ len < osDwLength s 0
  · simp only [hlen, if_true]
    constructor
    · intro h
      cases h
    · rintro ⟨h11, hdw, -⟩
      omega
  · have hlen' : usbOsDescHeaderSize ≤ len ∧ osDwLength s 0 ≤ len := by omega
    simp only [hlen, if_false, hlen', true_and, osKind]
    by_cases hv : osBcdVersion s 0 = 1
    · by_cases h4 : osWIndex s 0 = 4
      · cases type <;> simp [hv, h4, OsDescType.wIndex, eq_comm]
      · by_cases h5 : osWIndex s 0 = 5
        · cases type <;> simp [hv, h5, OsDescType.wIndex, eq_comm]
        · cases type <;> simp [hv, h4, h5, OsDescType.wIndex]
    · simp [hv]

/-- A property of the grammar that the validation takes is shorter than 256 bytes, and the
validation takes all of it. -/
theorem IsProp.short_of_propSize
    {header : Bytes} {len k : Nat} (he : IsProp interfaces header e) (hm : m.drop o = e ++ tail)
    (hk : Ffs.propSize m interfaces h o len = some k) :
  e.length < 256 ∧ k = e.length
  := by
  obtain ⟨-, -, -, hsize, hlen⟩ := he
  unfold Ffs.propSize at hk
  split_ifs at hk with hc
  obtain ⟨-, -, -, -, -, hsum⟩ := hc
  have hk := Option.some.inj hk
  rw [propNameLength_of_drop hm (by omega), propDataLength_of_drop hm (by omega)] at hsum
  have := u8_lt (le32At m o)
  omega

theorem short_of_visits
    {header rest : Bytes} {es : List Bytes} {d len : Nat} {vs : List Visit}
    (hes : ∀ e ∈ es, IsProp interfaces header e) (hm : m.drop d = es.flatten ++ rest)
    (h : visits (Ffs.propSize m interfaces h) es.length d len = some vs) :
  ∀ e ∈ es, e.length < 256
  := by
  induction es generalizing d len vs with
  | nil => simp
  | cons e es ih =>
      rw [List.flatten_cons, List.append_assoc] at hm
      obtain ⟨k, ws, hk, hws, -⟩ := visits_succ.mp h
      obtain ⟨hlt, rfl⟩ := (hes e (by simp)).short_of_propSize hm hk
      have hdrop : m.drop (d + e.length) = es.flatten ++ rest := by
        rw [← List.drop_drop, hm, List.drop_left]
      intro e' he'
      rcases List.mem_cons.mp he' with rfl | he'
      · apply hlt
      · exact ih (fun e he => hes e (by simp [he])) hdrop hws e' he'

namespace OsFeature

variable {f : OsFeature} {rest : Bytes} {fs : List OsFeature}

theorem entriesSize_locate (f : OsFeature) (o : Nat) :
  usbOsDescHeaderSize + entriesSize (f.locate o)
    = usbOsDescHeaderSize + f.entries.flatten.length
  := by
  rw [locate, entriesSize_map, total_locate]

section Valid

variable (hf : f.Valid interfaces rest) (hm : m.drop o = f.bytes ++ rest)

include hf hm

theorem Valid.osHeader :
  Ffs.osHeader m o (m.length - o) = some (f.type, f.entries.length)
  := by
  have hlen := drop_length_eq hm
  have hbytes : f.bytes.length = f.header.length + f.entries.flatten.length := List.length_append
  have hdw := hf.dwLength
  have hheader := hf.length
  rw [bytes, List.append_assoc] at hm
  rw [osHeader_of_drop hm hf.length, osHeader_eq_some]
  exact ⟨by omega, by omega, hf.version, hf.index, hf.compat, hf.count⟩

theorem Valid.drop_entries :
  m.drop (o + usbOsDescHeaderSize) = f.entries.flatten ++ rest
  := by
  rw [← List.drop_drop, hm, ← hf.length, bytes, List.append_assoc, List.drop_left]

theorem Valid.interface :
  byteAt m o = byteAt f.header 0
  := by
  rw [bytes, List.append_assoc] at hm
  apply byteAt_zero_of_drop hm
  rw [hf.length]
  decide

/-- The validation takes a feature of the grammar if its properties are short. -/
theorem Valid.osFeature (hshort : f.Short) :
  Ffs.osFeature m interfaces o (m.length - o) = some (f.locate o)
  := by
  unfold Ffs.osFeature
  rw [hf.osHeader hm, Option.bind_some]
  dsimp only
  rw [← Nat.sub_add_eq, visits_locate (hf.drop_entries hm)]
  · rfl
  · intro e he o' tail hm'
    exact (hf.entries e he).osEntrySize (fun ht => hshort ht e he) (hf.interface hm) hm'

/-- A feature of the grammar that the validation takes has short properties. -/
theorem Valid.short
    {es : List OsEntry} (hes : Ffs.osFeature m interfaces o (m.length - o) = some es) :
  f.Short
  := by
  intro htype
  unfold Ffs.osFeature at hes
  rw [hf.osHeader hm, Option.bind_some, htype] at hes
  obtain ⟨vs, hvs, -⟩ := Option.map_eq_some_iff.mp hes
  have hentries := hf.entries
  rw [htype] at hentries
  apply short_of_visits hentries (hf.drop_entries hm) hvs

theorem Valid.locate_short (hshort : f.Short) :
  ∀ e ∈ f.locate o, e.type = .extProp → le32At m e.offset < 256
  := by
  intro e he htype
  obtain ⟨v, hv, rfl⟩ := List.mem_map.mp he
  have htype : f.type = .extProp := htype
  refine forall_mem_locate (P := fun v => le32At m v.offset < 256) (hf.drop_entries hm) ?_ v hv
  intro s hs o' tail hm'
  have hprop := hf.entries s hs
  rw [htype] at hprop
  obtain ⟨-, -, -, hsize, hlen⟩ := hprop
  have h0 := le32At_of_drop hm' (show 0 + 4 ≤ s.length by omega)
  have hlt := hshort htype s hs
  rw [Nat.add_zero] at h0
  dsimp only
  omega

end Valid

theorem bytes_length_of_valid (hf : f.Valid interfaces rest) :
  f.bytes.length = usbOsDescHeaderSize + f.entries.flatten.length
  := by
  rw [bytes, List.length_append, hf.length]

/-- A feature that the validation takes, with short properties, is one of the grammar. -/
theorem exists_of_osFeature
    {es : List OsEntry} (ho : o ≤ m.length)
    (hes : Ffs.osFeature m interfaces o (m.length - o) = some es)
    (hshort : ∀ e ∈ es, e.type = .extProp → le32At m e.offset < 256) :
  ∃ f : OsFeature, f.bytes.length = usbOsDescHeaderSize + entriesSize es
    ∧ m.drop o = f.bytes ++ m.drop (o + f.bytes.length)
    ∧ f.Valid interfaces (m.drop (o + f.bytes.length))
  := by
  obtain ⟨⟨type, count⟩, hheader, hes⟩ := Option.bind_eq_some_iff.mp hes
  obtain ⟨vs, hvs, rfl⟩ := Option.map_eq_some_iff.mp hes
  have h11 := osHeader_le hheader
  have htotal := total_le_of_visits (fun _ _ _ hk => (osEntrySize_le hk).2) hvs
  have hsize : ∀ v ∈ vs, v.offset + v.size ≤ m.length
      ∧ Ffs.osEntrySize m interfaces type o v.offset (m.length - v.offset) = some v.size := by
    intro v hv
    obtain ⟨-, hle, hk⟩ := mem_visits (fun _ _ _ hk => (osEntrySize_le hk).2) hvs hv
    rw [show o + usbOsDescHeaderSize + (m.length - o - usbOsDescHeaderSize) = m.length by omega]
      at hk
    exact ⟨by omega, hk⟩
  let header := segment m ⟨o, usbOsDescHeaderSize⟩
  have hlen : header.length = usbOsDescHeaderSize := length_segment (by dsimp only; omega)
  have hdrop : m.drop o = header ++ m.drop (o + usbOsDescHeaderSize) :=
    drop_eq_segment_append m ⟨o, usbOsDescHeaderSize⟩
  have hflat : (vs.map (segment m)).flatten.length = total vs := by
    rw [List.length_flatten, List.map_map, total]
    congr 1
    apply List.map_congr_left
    intro v hv
    apply length_segment (hsize v hv).1
  have hbytes : (⟨type, header, vs.map (segment m)⟩ : OsFeature).bytes.length
      = usbOsDescHeaderSize + total vs := by
    rw [bytes, List.length_append, hlen, hflat]
  rw [osHeader_of_drop hdrop hlen, osHeader_eq_some] at hheader
  obtain ⟨-, hdw, hversion, hindex, hcompat, hcount⟩ := hheader
  use ⟨type, header, vs.map (segment m)⟩
  rw [hbytes]
  refine ⟨by rw [entriesSize_map], ?_, hlen, hversion, hindex, ?_, ?_, hcompat, ?_⟩
  · rw [hdrop, drop_eq_of_visits hvs, ← Nat.add_assoc, bytes, List.append_assoc]
  · rw [hbytes, List.length_drop]
    dsimp only
    omega
  · rw [List.length_map, visits_length hvs]
    apply hcount
  · intro s hs
    obtain ⟨v, hv, rfl⟩ := List.mem_map.mp hs
    obtain ⟨hle, hk⟩ := hsize v hv
    apply isOsEntry_of_osEntrySize hk hle
    · exact hshort ⟨type, o, v.offset, v.size⟩ (List.mem_map_of_mem hv)
    · apply byteAt_zero_of_drop hdrop
      rw [hlen]
      decide

end OsFeature

section List

variable {fs : List OsFeature}

/-- The validation takes the features of the grammar if their properties are short. -/
theorem visits_features
    (hfs : IsFeatures interfaces fs) (hm : m.drop o = fs.flatMap OsFeature.bytes)
    (hshort : ∀ f ∈ fs, f.Short) :
  visits (osFeatureSize m interfaces) fs.length o (m.length - o)
    = some (locate o (fs.map OsFeature.bytes))
  := by
  induction fs generalizing o with
  | nil => rfl
  | cons f fs ih =>
      obtain ⟨hf, hfs⟩ := hfs
      rw [List.flatMap_cons] at hm
      have hdrop : m.drop (o + f.bytes.length) = fs.flatMap OsFeature.bytes := by
        rw [← List.drop_drop, hm, List.drop_left]
      apply visits_succ.mpr
      refine ⟨f.bytes.length, _, ?_, ?_, rfl⟩
      · unfold osFeatureSize
        rw [hf.osFeature hm (hshort f (by simp)), Option.map_some, f.entriesSize_locate,
          f.bytes_length_of_valid hf]
      · rw [← Nat.sub_add_eq]
        exact ih hfs hdrop fun f hf => hshort f (by simp [hf])

/-- The features of the grammar that the validation takes have short properties. -/
theorem short_of_features
    {vs : List Visit} (hfs : IsFeatures interfaces fs)
    (hm : m.drop o = fs.flatMap OsFeature.bytes)
    (hvs : visits (osFeatureSize m interfaces) fs.length o (m.length - o) = some vs) :
  ∀ f ∈ fs, f.Short
  := by
  induction fs generalizing o vs with
  | nil => simp
  | cons f fs ih =>
      obtain ⟨hf, hfs⟩ := hfs
      rw [List.flatMap_cons] at hm
      obtain ⟨k, ws, hk, hws, -⟩ := visits_succ.mp hvs
      obtain ⟨es, hes, hk⟩ := Option.map_eq_some_iff.mp hk
      have hshort := hf.short hm hes
      rw [hf.osFeature hm hshort] at hes
      obtain rfl := Option.some.inj hes
      rw [f.entriesSize_locate, ← f.bytes_length_of_valid hf] at hk
      subst hk
      have hdrop : m.drop (o + f.bytes.length) = fs.flatMap OsFeature.bytes := by
        rw [← List.drop_drop, hm, List.drop_left]
      rw [← Nat.sub_add_eq] at hws
      intro f' hf'
      rcases List.mem_cons.mp hf' with rfl | hf'
      · apply hshort
      · apply ih hfs hdrop hws f' hf'

theorem osEntries_short
    (hfs : IsFeatures interfaces fs) (hm : m.drop o = fs.flatMap OsFeature.bytes)
    (hshort : ∀ f ∈ fs, f.Short) :
  ∀ e ∈ osEntries m interfaces (locate o (fs.map OsFeature.bytes)),
    e.type = .extProp → le32At m e.offset < 256
  := by
  induction fs generalizing o with
  | nil => simp [osEntries, locate]
  | cons f fs ih =>
      obtain ⟨hf, hfs⟩ := hfs
      rw [List.flatMap_cons] at hm
      have hdrop : m.drop (o + f.bytes.length) = fs.flatMap OsFeature.bytes := by
        rw [← List.drop_drop, hm, List.drop_left]
      have hrest := ih hfs hdrop fun f hf => hshort f (by simp [hf])
      intro e he
      rw [List.map_cons, locate, osEntries, List.flatMap_cons,
        hf.osFeature hm (hshort f (by simp)), Option.getD_some] at he
      rcases List.mem_append.mp he with he | he
      · exact hf.locate_short hm (hshort f (by simp)) e he
      · apply hrest e he

/-- Features that the validation takes, with short properties, are those of the
grammar. -/
theorem exists_features
    {n : Nat} {vs : List Visit} (ho : o ≤ m.length)
    (hvs : visits (osFeatureSize m interfaces) n o (m.length - o) = some vs)
    (hend : o + total vs = m.length)
    (hshort : ∀ e ∈ osEntries m interfaces vs, e.type = .extProp → le32At m e.offset < 256) :
  ∃ fs : List OsFeature, fs.length = n ∧ m.drop o = fs.flatMap OsFeature.bytes
    ∧ IsFeatures interfaces fs
  := by
  induction n generalizing o vs with
  | zero =>
      obtain rfl := Option.some.inj hvs
      use []
      refine ⟨rfl, ?_, trivial⟩
      rw [total_nil] at hend
      exact List.drop_of_length_le (by omega)
  | succ n ih =>
      obtain ⟨k, ws, hk, hws, rfl⟩ := visits_succ.mp hvs
      have hle := osFeatureSize_le hk
      obtain ⟨es, hes, rfl⟩ := Option.map_eq_some_iff.mp hk
      simp only [osEntries, List.flatMap_cons, hes, Option.getD_some] at hshort
      obtain ⟨f, hbytes, hdrop, hf⟩ := OsFeature.exists_of_osFeature ho hes
        fun e he => hshort e (List.mem_append_left _ he)
      rw [← hbytes] at hws hend hle
      rw [← Nat.sub_add_eq] at hws
      rw [total_cons] at hend
      obtain ⟨fs, rfl, hm, hfs⟩ := ih (by omega) hws (by dsimp only at hend; omega)
        fun e he => hshort e (List.mem_append_right _ he)
      refine ⟨f :: fs, rfl, ?_, ?_, hfs⟩
      · rw [hdrop, hm, List.flatMap_cons]
      · rw [← hm]
        apply hf

end List

end Features

end Ffs
