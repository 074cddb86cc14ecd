import KhdfLinux.Usb.Speeds

/-!
# The features of a blob

What the validation of the OS descriptors checks, and what it does to the blob and to the
`ffs_data`.  `osFeature` lists the extended compatibility and extended property
descriptors of a feature that passes the checks.  `ffsDoOsDescs_ok` says that the
validation succeeds exactly when the features announced are there, and has then taken
their descriptors one after another: a compatibility descriptor has its `Reserved1` set
to 1, a property is counted.
-/

namespace Ffs

open Bytes Exec Heap Walk

/-! ### One extended descriptor -/

/-- The `n` bytes from `p` on are zero. -/
def AllZero (m : Bytes) (p n : Nat) : Prop := ∀ i < n, byteAt m (p + i) = 0

instance (m : Bytes) (p n : Nat) : Decidable (AllZero m p n) := by
  unfold AllZero
  infer_instance

/-- The length of the extended compatibility descriptor at `data`, if it is valid. -/
def compatSize (m : Bytes) (interfaces data len : Nat) : Option Nat :=
  if usbExtCompatDescSize ≤ len ∧ (byteAt m data).toNat < interfaces
      ∧ AllZero m (data + 18) 6 then
    some usbExtCompatDescSize
  else
    none

/-- The length of the name of the property at `data`. -/
def propNameLength (m : Bytes) (data : Nat) : Nat := le16At m (data + 8)

/-- The length of the data of the property at `data`. -/
def propDataLength (m : Bytes) (data : Nat) : Nat :=
  le32At m (data + 10 + propNameLength m data)

/-- The length of the extended property descriptor at `data`, in the feature at `h`, if it
is valid. -/
def propSize (m : Bytes) (interfaces h data len : Nat) : Option Nat :=
  if usbExtPropDescSize ≤ len ∧ (byteAt m h).toNat < interfaces ∧ u8 (le32At m data) ≤ len
      ∧ usbExtPropUnicode ≤ le32At m (data + 4) ∧ le32At m (data + 4) ≤ usbExtPropUnicodeMulti
      ∧ u8 (le32At m data) = 14 + propNameLength m data + propDataLength m data then
    some (u8 (le32At m data))
  else
    none

/-- The length of the extended descriptor at `data`, in the feature at `h`, if it is
valid. -/
def osEntrySize (m : Bytes) (interfaces : Nat) : OsDescType → (h data len : Nat) → Option Nat
  | .extCompat, _, data, len => compatSize m interfaces data len
  | .extProp, h, data, len => propSize m interfaces h data len

/-- Count a property with a name of `pnl` and data of `pdl` bytes. -/
def FfsData.countProp (pnl pdl : Nat) (ffs : FfsData) : FfsData :=
  { ffs with
    msOsDescsExtPropCount := u32 (ffs.msOsDescsExtPropCount + 1)
    msOsDescsExtPropNameLen := u32 (ffs.msOsDescsExtPropNameLen + pnl * 2)
    msOsDescsExtPropDataLen := u32 (ffs.msOsDescsExtPropDataLen + pdl) }

/-- The state after the extended descriptor at `data` is taken. -/
def takeOsEntry (m : Bytes) : OsDescType → (data : Nat) → Heap FfsData → Heap FfsData
  | .extCompat, data, s => { s with mem := s.mem.set (data + 1) 1 }
  | .extProp, data, s =>
      { s with priv := s.priv.countProp (propNameLength m data) (propDataLength m data) }

theorem propSize_le
    {m : Bytes} {interfaces h data len k : Nat} (hk : propSize m interfaces h data len = some k) :
  14 ≤ k ∧ k ≤ len
  := by
  unfold propSize at hk
  split_ifs at hk with hc
  obtain rfl := Option.some.inj hk
  omega

theorem compatSize_le
    {m : Bytes} {interfaces data len k : Nat} (hk : compatSize m interfaces data len = some k) :
  14 ≤ k ∧ k ≤ len
  := by
  unfold compatSize at hk
  split_ifs at hk with hc
  obtain rfl := Option.some.inj hk
  constructor
  · decide
  · apply hc.1

section Entries

variable {m m' : Bytes} {interfaces : Nat} {type : OsDescType} {h data len k : Nat}

theorem osEntrySize_le (hk : osEntrySize m interfaces type h data len = some k) :
  14 ≤ k ∧ k ≤ len
  := by
  cases type with
  | extCompat => apply compatSize_le hk
  | extProp => apply propSize_le hk

theorem propDataLength_congr (hm : AgreeFrom data m m') :
  propNameLength m data = propNameLength m' data ∧ propDataLength m data = propDataLength m' data
  := by
  have hn : propNameLength m data = propNameLength m' data := hm.le16At (by omega)
  constructor
  · apply hn
  · unfold propDataLength
    rw [hn, hm.le32At (by omega)]

/-- Only the bytes from `data` on, and the interface number in the header of a property
feature, matter. -/
theorem osEntrySize_congr
    (hm : AgreeFrom data m m') (hh : type = .extProp → byteAt m h = byteAt m' h) :
  osEntrySize m interfaces type h data len = osEntrySize m' interfaces type h data len
  := by
  cases type with
  | extCompat =>
      have hz : AllZero m (data + 18) 6 ↔ AllZero m' (data + 18) 6 := by
        apply forall₂_congr
        intro i _
        rw [hm.2 _ (by omega)]
      simp only [osEntrySize, compatSize, hm.2 data (Nat.le_refl _), hz]
  | extProp =>
      obtain ⟨hn, hd⟩ := propDataLength_congr hm
      simp only [osEntrySize, propSize, hh rfl, hn, hd, hm.le32At (Nat.le_refl data),
        hm.le32At (show data ≤ data + 4 by omega)]

theorem takeOsEntry_congr (hm : AgreeFrom data m m') (s : Heap FfsData) :
  takeOsEntry m type data s = takeOsEntry m' type data s
  := by
  cases type with
  | extCompat => rfl
  | extProp =>
      obtain ⟨hn, hd⟩ := propDataLength_congr hm
      simp only [takeOsEntry, hn, hd]

end Entries

theorem run_forceReserved1 {data : Nat} {s : Heap FfsData} (h : data + 1 < s.mem.length) :
  (forceReserved1 data).run s = .ok () { s with mem := s.mem.set (data + 1) 1 }
  := by
  unfold forceReserved1
  rw [EStateM.run_bind, run_read8 h]
  dsimp only
  by_cases h1 : byteAt s.mem (data + 1) = 1
  · rw [if_neg (by simp [h1]), ← h1, set_byteAt]
    rfl
  · rw [if_pos h1]
    apply run_write8 1 h

theorem checkZero_meets (n p : Nat) {s : Heap FfsData} (h : p + n ≤ s.mem.length) :
  Meets (checkZero n p) s
    (fun _ t => AllZero s.mem p n ∧ t = s)
    (fun stop t => ¬AllZero s.mem p n ∧ stop = .ret (-einval) ∧ t = s)
  := by
  induction n generalizing p with
  | zero => exact ⟨by simp [AllZero], rfl⟩
  | succ n ih =>
      have hnext : ∀ i, byteAt s.mem (p + 1 + i) = byteAt s.mem (p + (i + 1)) := by
        intro i
        rw [Nat.add_assoc, Nat.add_comm 1]
      unfold checkZero
      apply meets_step (run_read8 (by omega))
      apply meets_guard
      · intro h0
        refine ⟨?_, rfl, rfl⟩
        intro hall
        apply h0
        apply hall 0 (by omega)
      intro h0
      apply (ih (p + 1) (by omega)).mono
      · rintro _ t ⟨hz, rfl⟩
        refine ⟨?_, rfl⟩
        intro i hi
        cases i with
        | zero => simpa using h0
        | succ i =>
            rw [← hnext]
            apply hz i (by omega)
      · rintro stop t ⟨hz, rfl, rfl⟩
        refine ⟨?_, rfl, rfl⟩
        intro hall
        apply hz
        intro i hi
        rw [hnext]
        apply hall (i + 1) (by omega)

/-- The test of the length of a property adds in 32 bits, and is exact all the same: the
length is a byte and the length of the data a word. -/
theorem propLength_iff
    {length pnl pdl : Nat} (hl : length < 256) (hpdl : pdl < 4294967296)
    (h : 14 + pnl ≤ length) :
  length = u32 (14 + pnl + pdl) ↔ length = 14 + pnl + pdl
  := by
  unfold u32
  omega

/-- The validation callback takes the descriptors that have an `osEntrySize`, and leaves
the `ffs_data` alone where it refuses one. -/
theorem ffsDataDoOsDesc_meets
    {type : OsDescType} {h data len : Nat} {s : Heap FfsData} (hh : h < data)
    (hlen : data + len ≤ s.mem.length) :
  Meets (ffsDataDoOsDesc type h data len) s
    (fun k t => osEntrySize s.mem s.priv.interfacesCount type h data len = some k
      ∧ t = takeOsEntry s.mem type data s)
    (fun stop t => osEntrySize s.mem s.priv.interfacesCount type h data len = none
      ∧ stop = .ret (-einval) ∧ t.priv = s.priv)
  := by
  cases type with
  | extCompat =>
      unfold ffsDataDoOsDesc osEntrySize compatSize
      apply meets_step (run_look s)
      apply meets_guard
      · intro h24
        exact ⟨if_neg (by omega), rfl, rfl⟩
      intro h24
      have hb : data + 24 ≤ s.mem.length := by
        simp only [usbExtCompatDescSize] at h24
        omega
      apply meets_step (by rw [run_map, run_read8 (by omega)])
      apply meets_guard
      · intro hi
        exact ⟨if_neg (by omega), rfl, rfl⟩
      intro hi
      apply meets_step (run_forceReserved1 (by omega))
      have hzero :
          AllZero (s.mem.set (data + 1) 1) (data + 18) 6 ↔ AllZero s.mem (data + 18) 6 := by
        apply forall₂_congr
        intro i _
        rw [byteAt_set_ne _ (by omega)]
      apply meets_bind
      apply (checkZero_meets 6 (data + 18) (by simp; omega)).mono
      · rintro _ _ ⟨hz, rfl⟩
        exact ⟨if_pos ⟨by omega, by omega, hzero.mp hz⟩, rfl⟩
      · rintro stop _ ⟨hz, rfl, rfl⟩
        exact ⟨if_neg fun h => hz (hzero.mpr h.2.2), rfl, rfl⟩
  | extProp =>
      unfold ffsDataDoOsDesc osEntrySize propSize
      apply meets_step (run_look s)
      apply meets_guard
      · intro h10
        exact ⟨if_neg (by omega), rfl, rfl⟩
      intro h10
      have hb : data + 10 ≤ s.mem.length := by
        simp only [usbExtPropDescSize] at h10
        omega
      apply meets_step (by rw [run_map, run_read8 (by omega)])
      apply meets_guard
      · intro hi
        exact ⟨if_neg (by omega), rfl, rfl⟩
      intro hi
      apply meets_step (run_read32 (by omega))
      dsimp only
      apply meets_guard
      · intro hl
        exact ⟨if_neg (by omega), rfl, rfl⟩
      intro hl
      apply meets_step (run_read32 (by omega))
      apply meets_guard
      · intro ht
        exact ⟨if_neg (by omega), rfl, rfl⟩
      intro ht
      apply meets_step (run_read16 (by omega))
      rw [show le16At s.mem (data + 8) = propNameLength s.mem data from rfl]
      apply meets_guard
      · intro hn
        exact ⟨if_neg (by omega), rfl, rfl⟩
      intro hn
      apply meets_step (run_read32 (by omega))
      rw [show le32At s.mem (data + 10 + propNameLength s.mem data)
        = propDataLength s.mem data from rfl]
      have hsum := propLength_iff (u8_lt (le32At s.mem data)) 
        (le32At_lt s.mem (data + 10 + propNameLength s.mem data))
        (by omega : 14 + propNameLength s.mem data ≤ _)
      apply meets_guard
      · intro hd
        refine ⟨if_neg ?_, rfl, rfl⟩
        rintro ⟨-, -, -, -, -, hd'⟩
        apply hd (hsum.mpr hd')
      intro hd
      rw [ne_eq, not_not] at hd
      apply meets_step (run_update _ s)
      exact ⟨if_pos ⟨by omega, by omega, by omega, by omega, by omega, hsum.mp hd⟩, rfl⟩

/-! ### The descriptors of a feature -/

/-- An extended descriptor: its kind, the position of the header of its feature, its
position and its length. -/
structure OsEntry where
  type : OsDescType
  h : Nat
  offset : Nat
  size : Nat
  deriving DecidableEq, Repr

/-- The extended descriptors of the feature at `data`, if it is valid. -/
def osFeature (m : Bytes) (interfaces data len : Nat) : Option (List OsEntry) :=
  (osHeader m data len).bind fun (type, count) =>
    (visits (osEntrySize m interfaces type data) count (data + usbOsDescHeaderSize)
      (len - usbOsDescHeaderSize)).map (List.map fun v => ⟨type, data, v.offset, v.size⟩)

/-- The number of bytes a list of extended descriptors takes. -/
def entriesSize (es : List OsEntry) : Nat := (es.map OsEntry.size).sum

/-- The length of the feature at `data`, if it is valid. -/
def osFeatureSize (m : Bytes) (interfaces data len : Nat) : Option Nat :=
  (osFeature m interfaces data len).map fun es => usbOsDescHeaderSize + entriesSize es

/-- The extended descriptors of a list of features that reach to the end of the blob. -/
def osEntries (m : Bytes) (interfaces : Nat) (fs : List Visit) : List OsEntry :=
  fs.flatMap fun v => (osFeature m interfaces v.offset (m.length - v.offset)).getD []

/-- The state after a list of extended descriptors is taken. -/
def takeOsEntries (m : Bytes) (es : List OsEntry) (s : Heap FfsData) : Heap FfsData :=
  es.foldl (fun s e => takeOsEntry m e.type e.offset s) s

theorem takeOsEntries_append (m : Bytes) (es es' : List OsEntry) (s : Heap FfsData) :
  takeOsEntries m (es ++ es') s = takeOsEntries m es' (takeOsEntries m es s)
  := by
  apply List.foldl_append

theorem entriesSize_map (type : OsDescType) (h : Nat) (vs : List Visit) :
  entriesSize (vs.map fun v => ⟨type, h, v.offset, v.size⟩) = total vs
  := by
  simp [entriesSize, total, Function.comp_def]

theorem osFeatureSize_le
    {m : Bytes} {interfaces data len k : Nat} (h : osFeatureSize m interfaces data len = some k) :
  usbOsDescHeaderSize ≤ k ∧ k ≤ len
  := by
  obtain ⟨es, hes, rfl⟩ := Option.map_eq_some_iff.mp h
  obtain ⟨⟨type, count⟩, hf, hes⟩ := Option.bind_eq_some_iff.mp hes
  obtain ⟨vs, hvs, rfl⟩ := Option.map_eq_some_iff.mp hes
  have hle := total_le_of_visits (fun _ _ _ hk => (osEntrySize_le hk).2) hvs
  have h11 := osHeader_le hf
  rw [entriesSize_map]
  omega

/-- The extended descriptors of a feature lie behind its header and inside it. -/
theorem mem_osFeature
    {m : Bytes} {interfaces data len : Nat} {es : List OsEntry}
    (h : osFeature m interfaces data len = some es) {e : OsEntry} (he : e ∈ es) :
  e.h = data ∧ data + usbOsDescHeaderSize ≤ e.offset
    ∧ e.offset + e.size ≤ data + (usbOsDescHeaderSize + entriesSize es)
    ∧ osEntrySize m interfaces e.type e.h e.offset (data + len - e.offset) = some e.size
  := by
  obtain ⟨⟨type, count⟩, hf, hes⟩ := Option.bind_eq_some_iff.mp h
  obtain ⟨vs, hvs, rfl⟩ := Option.map_eq_some_iff.mp hes
  obtain ⟨v, hv, rfl⟩ := List.mem_map.mp he
  have h11 := osHeader_le hf
  obtain ⟨h₁, h₂, h₃⟩ := mem_visits (fun _ _ _ hk => (osEntrySize_le hk).2) hvs hv
  rw [show data + usbOsDescHeaderSize + (len - usbOsDescHeaderSize) = data + len by omega] at h₃
  refine ⟨rfl, h₁, ?_, h₃⟩
  rw [entriesSize_map]
  dsimp only
  omega

/-- The state of the walk over OS descriptors when it has come to position `d`: the blob
is as before from there on. -/
structure OsWalked (m : Bytes) (interfaces d : Nat) (s : Heap FfsData) : Prop where
  agree : AgreeFrom d m s.mem
  interfaces : s.priv.interfacesCount = interfaces

namespace OsWalked

variable {m : Bytes} {interfaces d d' : Nat} {s : Heap FfsData}

theorem mono (h : OsWalked m interfaces d s) (hd : d ≤ d') :
  OsWalked m interfaces d' s
  := ⟨h.agree.mono hd, h.interfaces⟩

theorem take
    {type : OsDescType} {data : Nat} (h : OsWalked m interfaces d s) (hd : d ≤ d')
    (hdata : data + 2 ≤ d') :
  OsWalked m interfaces d' (takeOsEntry m type data s)
  := by
  cases type with
  | extCompat => exact ⟨(h.agree.mono hd).set 1 (by omega), h.interfaces⟩
  | extProp => exact ⟨h.agree.mono hd, h.interfaces⟩

theorem takeAll
    {es : List OsEntry} (h : OsWalked m interfaces d s) (hd : d ≤ d')
    (hes : ∀ e ∈ es, e.offset + 2 ≤ d') :
  OsWalked m interfaces d' (takeOsEntries m es s)
  := by
  induction es generalizing d s with
  | nil => exact h.mono hd
  | cons e es ih =>
      apply ih (h.take hd (hes e (by simp))) (Nat.le_refl d')
      intro e' he'
      apply hes e' (by simp [he'])

end OsWalked

section Feature

variable {m : Bytes} {interfaces : Nat} {type : OsDescType} {h count data len : Nat}
  {s t : Heap FfsData}

theorem effects_takeOsEntry (type : OsDescType) (h : Nat) (vs : List Visit) (s : Heap FfsData) :
  effects (fun v s => some (takeOsEntry m type v.offset s)) vs s
    = some (takeOsEntries m (vs.map fun v => ⟨type, h, v.offset, v.size⟩) s)
  := by
  induction vs generalizing s with
  | nil => rfl
  | cons v vs ih => apply ih

theorem walk_ffsDataDoOsDesc_ok
    {d l : Nat} (hs : OsWalked m interfaces data s) (hh : h < data)
    (hhm : type = .extProp → byteAt m h = byteAt s.mem h) (hlen : data + len = m.length)
    (hmax : len < 4294967296) :
  (walk (fun _ d l => ffsDataDoOsDesc type h d l) count 0 data len).run s = .ok (d, l) t
    ↔ ∃ vs, visits (osEntrySize m interfaces type h) count data len = some vs
      ∧ effects (fun v s => some (takeOsEntry m type v.offset s)) vs s = some t
      ∧ d = data + total vs ∧ l = len - total vs
  := by
  apply walk_ok (fun d l (t : Heap FfsData) => OsWalked m interfaces d t ∧ h < d
    ∧ (type = .extProp → byteAt m h = byteAt t.mem h) ∧ d + l = m.length)
  · intro d l k hk
    apply (osEntrySize_le hk).2
  · rintro i d l t ⟨ht, hd, hth, hl⟩
    have hlt : d + l ≤ t.mem.length := by
      rw [← ht.agree.1]
      omega
    have hsize : osEntrySize m interfaces type h d l = osEntrySize t.mem interfaces type h d l :=
      osEntrySize_congr ht.agree hth
    apply (ffsDataDoOsDesc_meets hd hlt).mono
    · rintro k t' ⟨hk, rfl⟩
      rw [ht.interfaces, ← hsize] at hk
      rw [← takeOsEntry_congr ht.agree]
      exact ⟨hk, rfl⟩
    · rintro stop t' ⟨hk, -, -⟩ k hk'
      rw [ht.interfaces, ← hsize, hk'] at hk
      cases hk
  · rintro d l t k t' ⟨ht, hd, hth, hl⟩ hk ht'
    obtain rfl := Option.some.inj ht'
    have hkl := osEntrySize_le hk
    refine ⟨ht.take (by omega) (by dsimp only; omega), by omega, ?_, by omega⟩
    rintro rfl
    apply hth rfl
  · apply hmax
  · exact ⟨hs, hh, hhm, hlen⟩

theorem ffsDoSingleOsDesc_ok
    {n : Nat} (hs : OsWalked m interfaces data s) (hh : h < data)
    (hhm : type = .extProp → byteAt m h = byteAt s.mem h) (hlen : data + len = m.length)
    (hmax : len < 2147483648) :
  (ffsDoSingleOsDesc data len type count ffsDataDoOsDesc h).run s = .ok n t
    ↔ ∃ vs, visits (osEntrySize m interfaces type h) count data len = some vs ∧ n = total vs
      ∧ t = takeOsEntries m (vs.map fun v => ⟨type, h, v.offset, v.size⟩) s
  := by
  have hlen' : len < 4294967296 := by omega
  have htotal : ∀ vs, visits (osEntrySize m interfaces type h) count data len = some vs →
      total vs ≤ len := by
    intro vs
    apply total_le_of_visits
    intro _ _ _ hk
    apply (osEntrySize_le hk).2
  rw [ffsDoSingleOsDesc, run_taken_ok _ hmax]
  · constructor
    · rintro ⟨d, l, hrun, rfl⟩
      obtain ⟨vs, hvs, heff, rfl, rfl⟩ :=
        (walk_ffsDataDoOsDesc_ok hs hh hhm hlen hlen').mp hrun
      rw [effects_takeOsEntry type h] at heff
      obtain rfl := Option.some.inj heff
      have := htotal vs hvs
      exact ⟨vs, hvs, by omega, rfl⟩
    · rintro ⟨vs, hvs, rfl, rfl⟩
      have := htotal vs hvs
      have hwalk := (walk_ffsDataDoOsDesc_ok hs hh hhm hlen hlen').mpr
        ⟨vs, hvs, effects_takeOsEntry type h vs s, rfl, rfl⟩
      exact ⟨_, _, hwalk, by omega⟩
  · intro d l t hrun
    obtain ⟨vs, -, -, -, rfl⟩ := (walk_ffsDataDoOsDesc_ok hs hh hhm hlen hlen').mp hrun
    omega

/-- A feature is taken exactly when it is valid. -/
theorem ffsDoOsDesc_ok
    (num : Nat) {k : Nat} (hs : OsWalked m interfaces data s) (hlen : data + len = m.length)
    (hmax : len < 2147483648) :
  (ffsDoOsDesc ffsDataDoOsDesc num data len).run s = .ok k t
    ↔ ∃ es, osFeature m interfaces data len = some es
      ∧ k = usbOsDescHeaderSize + entriesSize es ∧ t = takeOsEntries m es s
  := by
  rw [ffsDoOsDesc_run (by rw [← hs.agree.1]; omega), ← osHeader_congr hs.agree, osFeature]
  cases hf : osHeader m data len with
  | none => simp
  | some f =>
      obtain ⟨type, count⟩ := f
      have h11 := osHeader_le hf
      dsimp only [Option.bind_some]
      rw [u32_sub h11 (by omega), run_bind_ok]
      have hs' := hs.mono (Nat.le_add_right data usbOsDescHeaderSize)
      have hh : data < data + usbOsDescHeaderSize := by
        simp only [usbOsDescHeaderSize]
        omega
      have hhm : type = .extProp → byteAt m data = byteAt s.mem data :=
        fun _ => hs.agree.2 data (Nat.le_refl data)
      have hlen' : data + usbOsDescHeaderSize + (len - usbOsDescHeaderSize) = m.length := by omega
      have hmax' : len - usbOsDescHeaderSize < 2147483648 := by omega
      simp only [Option.map_eq_some_iff]
      constructor
      · rintro ⟨n, u, hrun, hrest⟩
        cases hrest
        obtain ⟨vs, hvs, rfl, rfl⟩ := (ffsDoSingleOsDesc_ok hs' hh hhm hlen' hmax').mp hrun
        exact ⟨_, ⟨vs, hvs, rfl⟩, by rw [entriesSize_map], rfl⟩
      · rintro ⟨_, ⟨vs, hvs, rfl⟩, rfl, rfl⟩
        rw [entriesSize_map]
        exact ⟨_, _, (ffsDoSingleOsDesc_ok hs' hh hhm hlen' hmax').mpr ⟨vs, hvs, rfl, rfl⟩, rfl⟩

end Feature

/-! ### The features of a blob -/

/-- The effect of a feature on the state of the walk. -/
def osFeatureEffect (m : Bytes) (interfaces : Nat) (v : Visit) (s : Heap FfsData) :
    Option (Heap FfsData) :=
  (osFeature m interfaces v.offset (m.length - v.offset)).map fun es => takeOsEntries m es s

theorem osEntries_cons
    {m : Bytes} {interfaces : Nat} {v : Visit} {fs : List Visit} {es : List OsEntry}
    (h : osFeature m interfaces v.offset (m.length - v.offset) = some es) :
  osEntries m interfaces (v :: fs) = es ++ osEntries m interfaces fs
  := by
  simp [osEntries, h]

theorem effects_osFeatureEffect
    {m : Bytes} {interfaces n data len : Nat} {fs : List Visit} (s : Heap FfsData)
    (hlen : data + len = m.length)
    (h : visits (osFeatureSize m interfaces) n data len = some fs) :
  effects (osFeatureEffect m interfaces) fs s
    = some (takeOsEntries m (osEntries m interfaces fs) s)
  := by
  induction n generalizing data len fs s with
  | zero =>
      obtain rfl := Option.some.inj h
      rfl
  | succ n ih =>
      obtain ⟨k, ws, hk, hws, rfl⟩ := visits_succ.mp h
      have hle := osFeatureSize_le hk
      obtain ⟨es, hes, -⟩ := Option.map_eq_some_iff.mp hk
      rw [show len = m.length - data by omega] at hes
      rw [osEntries_cons hes, takeOsEntries_append]
      simp only [effects, osFeatureEffect, hes, Option.map_some, Option.bind_some]
      apply ih _ (by omega) hws

theorem walk_ffsDoOsDesc_ok
    {m : Bytes} {interfaces count data len d l : Nat} {s t : Heap FfsData}
    (hs : OsWalked m interfaces data s) (hlen : data + len = m.length)
    (hmax : len < 2147483648) :
  (walk (ffsDoOsDesc ffsDataDoOsDesc) count 0 data len).run s = .ok (d, l) t
    ↔ ∃ fs, visits (osFeatureSize m interfaces) count data len = some fs
      ∧ effects (osFeatureEffect m interfaces) fs s = some t
      ∧ d = data + total fs ∧ l = len - total fs
  := by
  apply walk_ok (fun d l (t : Heap FfsData) =>
    OsWalked m interfaces d t ∧ d + l = m.length ∧ l ≤ len)
  · intro d l k hk
    apply (osFeatureSize_le hk).2
  · rintro i d l t ⟨ht, hl, hle⟩
    have hl₀ : l < 2147483648 := by omega
    have hl' : l = m.length - d := by omega
    unfold Meets
    cases hrun : (ffsDoOsDesc ffsDataDoOsDesc i d l).run t with
    | ok k t' =>
        obtain ⟨es, hes, rfl, rfl⟩ := (ffsDoOsDesc_ok i ht hl hl₀).mp hrun
        constructor
        · simp only [osFeatureSize, hes, Option.map_some]
        · rw [hl'] at hes
          simp only [osFeatureEffect, hes, Option.map_some]
    | error e t' =>
        intro k hk
        obtain ⟨es, hes, rfl⟩ := Option.map_eq_some_iff.mp hk
        have hok := (ffsDoOsDesc_ok i ht hl hl₀).mpr ⟨es, hes, rfl, rfl⟩
        rw [hrun] at hok
        cases hok
  · rintro d l t k t' ⟨ht, hl, hle⟩ hk ht'
    have hkl := osFeatureSize_le hk
    obtain ⟨es, hes, rfl⟩ := Option.map_eq_some_iff.mp hk
    obtain ⟨es', hes', rfl⟩ := Option.map_eq_some_iff.mp ht'
    dsimp only at hes'
    rw [show m.length - d = l by omega, hes] at hes'
    obtain rfl := Option.some.inj hes'
    refine ⟨ht.takeAll (by omega) ?_, by omega, by omega⟩
    intro e he
    obtain ⟨-, -, hend, hsize⟩ := mem_osFeature hes he
    have := osEntrySize_le hsize
    omega
  · omega
  · exact ⟨hs, hlen, Nat.le_refl len⟩

/-- The OS descriptors are taken exactly when the features announced are there and
valid. -/
theorem ffsDoOsDescs_ok
    {m : Bytes} {count data len n : Nat} {ffs : FfsData} {t : Heap FfsData}
    (hlen : data + len = m.length) (hmax : len < 2147483648) :
  (ffsDoOsDescs count data len ffsDataDoOsDesc).run ⟨m, ffs⟩ = .ok n t
    ↔ ∃ fs, visits (osFeatureSize m ffs.interfacesCount) count data len = some fs
      ∧ n = total fs ∧ t = takeOsEntries m (osEntries m ffs.interfacesCount fs) ⟨m, ffs⟩
  := by
  have hstart : OsWalked m ffs.interfacesCount data ⟨m, ffs⟩ := ⟨AgreeFrom.refl data m, rfl⟩
  have htotal : ∀ fs, visits (osFeatureSize m ffs.interfacesCount) count data len = some fs →
      total fs ≤ len := by
    intro fs
    apply total_le_of_visits
    intro _ _ _ hk
    apply (osFeatureSize_le hk).2
  rw [ffsDoOsDescs, run_taken_ok _ hmax]
  · constructor
    · rintro ⟨d, l, hrun, rfl⟩
      obtain ⟨fs, hfs, heff, rfl, rfl⟩ := (walk_ffsDoOsDesc_ok hstart hlen hmax).mp hrun
      rw [effects_osFeatureEffect _ hlen hfs] at heff
      obtain rfl := Option.some.inj heff
      have := htotal fs hfs
      exact ⟨fs, hfs, by omega, rfl⟩
    · rintro ⟨fs, hfs, rfl, rfl⟩
      have := htotal fs hfs
      have hwalk := (walk_ffsDoOsDesc_ok hstart hlen hmax).mpr
        ⟨fs, hfs, effects_osFeatureEffect _ hlen hfs, rfl, rfl⟩
      exact ⟨_, _, hwalk, by omega⟩
  · intro d l t hrun
    obtain ⟨fs, -, -, -, rfl⟩ := (walk_ffsDoOsDesc_ok hstart hlen hmax).mp hrun
    omega

end Ffs
