import KhdfLinux.Usb.Features

/-!
# Accepted descriptor blobs

`ffsDataGotDescs_ok` says when a descriptor blob is accepted, and with what result.  The
blob has a head, `descHeader`, and a layout: the positions of its descriptors and of its
features, `Parses`.  The speeds agree with each other and with what is recorded already,
`TakesSpeeds`.  The OS descriptors are then taken, and the layout is stored.
-/

namespace Ffs

open Bytes Exec Heap Walk

/-! ### The head of a blob -/

/-- The head of a descriptor blob: its flags, the numbers of descriptors of each speed and
of features, and the position where the descriptors start. -/
structure DescHeader where
  flags : Nat
  fsCount : Nat
  hsCount : Nat
  ssCount : Nat
  osDescsCount : Nat
  rawDescs : Nat
  deriving DecidableEq, Repr

/-- The flags, and the position after the word that holds them. -/
def flagsWord (m : Bytes) : Option (Nat × Nat) :=
  if le32At m 0 = functionfsDescriptorsMagic then
    some (functionfsHasFsDesc ||| functionfsHasHsDesc, 8)
  else if le32At m 0 = functionfsDescriptorsMagicV2
      ∧ le32At m 8 &&& (4294967295 ^^^ functionfsKnownFlags) = 0 then
    some (le32At m 8, 12)
  else
    none

/-- The position after the eventfd word. -/
def eventfdWord (m : Bytes) (flags data : Nat) : Option Nat :=
  if hasFlag flags functionfsEventfd then
    if m.length - data < 4 then none else some (data + 4)
  else
    some data

/-- A count, `0` if it is not announced, and the position after its word. -/
def countWord (m : Bytes) (flag flags data : Nat) : Option (Nat × Nat) :=
  if hasFlag flags flag then
    if m.length - data < 4 then none else some (le32At m data, data + 4)
  else
    some (0, data)

/-- The head of a blob, if it is valid. -/
def descHeader (m : Bytes) : Option DescHeader :=
  if le32At m 4 ≠ m.length then
    none
  else do
    let (flags, data) ← flagsWord m
    let data ← eventfdWord m flags data
    let (fsCount, data) ← countWord m functionfsHasFsDesc flags data
    let (hsCount, data) ← countWord m functionfsHasHsDesc flags data
    let (ssCount, data) ← countWord m functionfsHasSsDesc flags data
    let (osDescsCount, rawDescs) ← countWord m functionfsHasMsOsDesc flags data
    some { flags, fsCount, hsCount, ssCount, osDescsCount, rawDescs }

/-- The `ffs_data` after the flags are read. -/
def noteFlags (m : Bytes) (ffs : FfsData) : FfsData :=
  if le32At m 0 = functionfsDescriptorsMagicV2 then { ffs with userFlags := le32At m 8 } else ffs

/-- The `ffs_data` after the eventfd word, which stands at position 12, is read. -/
def noteEventfd (fdget : EventfdCtxFdget) (m : Bytes) (flags : Nat) (ffs : FfsData) :
    Option FfsData :=
  if hasFlag flags functionfsEventfd then
    match fdget (s32 (le32At m 12)) with
    | .error _ => none
    | .ok ctx => some { ffs with ffsEventfd := some ctx }
  else
    some ffs

section Words

variable {m : Bytes} {flag flags data d : Nat} {ffs : FfsData} {t : Heap FfsData}

theorem flagsWord_position (h : flagsWord m = some (flags, data)) :
  data ≤ 12 ∧ (hasFlag flags functionfsEventfd → data = 12)
  := by
  unfold flagsWord at h
  split_ifs at h
  · cases h
    decide
  · cases h
    simp

theorem eventfdWord_le (hdata : data ≤ m.length) (h : eventfdWord m flags data = some d) :
  d ≤ m.length
  := by
  unfold eventfdWord at h
  split_ifs at h
  · cases h
    omega
  · cases h
    apply hdata

theorem countWord_le
    {r : Nat × Nat} (hdata : data ≤ m.length) (h : countWord m flag flags data = some r) :
  r.2 ≤ m.length
  := by
  unfold countWord at h
  split_ifs at h
  · cases h
    dsimp only
    omega
  · cases h
    apply hdata

theorem readFlags_ok {r : Nat × Nat} (hm : 12 ≤ m.length) :
  readFlags.run ⟨m, ffs⟩ = .ok r t ↔ flagsWord m = some r ∧ t = ⟨m, noteFlags m ffs⟩
  := by
  unfold readFlags flagsWord noteFlags
  rw [EStateM.run_bind, run_read32 (by dsimp only; omega)]
  dsimp only
  by_cases h1 : le32At m 0 = functionfsDescriptorsMagic
  · simp [h1, show functionfsDescriptorsMagic ≠ functionfsDescriptorsMagicV2 by decide, eq_comm]
  · by_cases h2 : le32At m 0 = functionfsDescriptorsMagicV2
    · rw [if_neg h1, if_pos h2, if_neg h1, EStateM.run_bind, run_read32 (by dsimp only; omega)]
      dsimp only
      rw [EStateM.run_bind, run_update]
      dsimp only
      by_cases h3 : le32At m 8 &&& (4294967295 ^^^ functionfsKnownFlags) = 0
      · simp [h2, h3, eq_comm]
      · simp [h2, h3]
    · simp [h1, h2]

theorem readEventfd_ok
    {fdget : EventfdCtxFdget} (hdata : hasFlag flags functionfsEventfd → data = 12) :
  (readEventfd fdget flags data m.length).run ⟨m, ffs⟩ = .ok d t
    ↔ eventfdWord m flags data = some d
      ∧ ∃ ffs', noteEventfd fdget m flags ffs = some ffs' ∧ t = ⟨m, ffs'⟩
  := by
  unfold readEventfd eventfdWord noteEventfd
  by_cases hf : hasFlag flags functionfsEventfd
  · obtain rfl := hdata hf
    simp only [hf, if_true]
    by_cases h4 : m.length - 12 < 4
    · simp [h4]
    · rw [if_neg h4, if_neg h4, EStateM.run_bind, run_read32 (by dsimp only; omega)]
      dsimp only
      cases fdget (s32 (le32At m 12)) with
      | error err => simp
      | ok ctx => simp [eq_comm]
  · simp [hf, eq_comm]

theorem readCount_ok {r : Nat × Nat} :
  (readCount flag flags data m.length).run ⟨m, ffs⟩ = .ok r t
    ↔ countWord m flag flags data = some r ∧ t = ⟨m, ffs⟩
  := by
  unfold readCount countWord
  by_cases hf : hasFlag flags flag
  · simp only [hf, if_true]
    by_cases h4 : m.length - data < 4
    · simp [h4]
    · rw [if_neg h4, if_neg h4, EStateM.run_bind, run_read32 (by dsimp only; omega)]
      simp [eq_comm]
  · simp [hf, eq_comm]

end Words

/-! ### The body of a blob -/

/-- A speed with `count` descriptors, at `vs`, is taken in `ffs` and leaves `ffs'`. -/
def TakesSpeed (m : Bytes) (count : Nat) (vs : List Visit) (ffs ffs' : FfsData) : Prop :=
  count = 0 ∧ ffs' = ffs
    ∨ count ≠ 0 ∧ RecordsSpeed (speedEndpoints m vs) (speedInterfaces m vs) (speedStrings m vs)
        ffs ffs'

section Body

variable {m : Bytes} {interfaces count n data d : Nat} {vs : List Visit} {ffs : FfsData}
  {t : Heap FfsData}

theorem total_le_of_descs
    (hdata : data ≤ m.length) (h : visits (descSize m) n data (m.length - data) = some vs) :
  data + total vs ≤ m.length
  := by
  have := total_le_of_visits (fun _ _ _ => descSize_le) h
  omega

theorem total_le_of_features
    (hdata : data ≤ m.length)
    (h : visits (osFeatureSize m interfaces) n data (m.length - data) = some vs) :
  data + total vs ≤ m.length
  := by
  have := total_le_of_visits (fun _ _ _ hk => (osFeatureSize_le hk).2) h
  omega

theorem takesSpeed_ok (hdata : data ≤ m.length) (hmax : m.length < 2147483648) :
  (readSpeed count data m.length).run ⟨m, ffs⟩ = .ok d t
    ↔ ∃ vs, visits (descSize m) count data (m.length - data) = some vs ∧ d = data + total vs
      ∧ ∃ ffs', TakesSpeed m count vs ffs ffs' ∧ t = ⟨m, ffs'⟩
  := by
  by_cases hc : count = 0
  · subst hc
    simp [readSpeed, visits, TakesSpeed, eq_comm]
  · rw [readSpeed_ok rfl hdata hmax hc]
    simp [TakesSpeed, hc]

theorem readOsDescs_ok (hdata : data ≤ m.length) (hmax : m.length < 2147483648) :
  (readOsDescs count data m.length).run ⟨m, ffs⟩ = .ok d t
    ↔ ∃ vs, visits (osFeatureSize m ffs.interfacesCount) count data (m.length - data) = some vs
      ∧ d = data + total vs
      ∧ t = takeOsEntries m (osEntries m ffs.interfacesCount vs) ⟨m, ffs⟩
  := by
  have hlen : data + (m.length - data) = m.length := by omega
  have hmax' : m.length - data < 2147483648 := by omega
  by_cases hc : count = 0
  · subst hc
    simp [readOsDescs, visits, osEntries, takeOsEntries, eq_comm]
  · rw [readOsDescs, if_neg hc, run_bind_ok]
    constructor
    · rintro ⟨n, u, hrun, hrest⟩
      cases hrest
      obtain ⟨vs, hvs, rfl, rfl⟩ := (ffsDoOsDescs_ok hlen hmax').mp hrun
      exact ⟨vs, hvs, rfl, rfl⟩
    · rintro ⟨vs, hvs, rfl, rfl⟩
      exact ⟨_, _, (ffsDoOsDescs_ok hlen hmax').mpr ⟨vs, hvs, rfl, rfl⟩, rfl⟩

end Body

/-- A descriptor blob taken apart: its head, the descriptors of the three speeds and the
features. -/
structure DescLayout where
  header : DescHeader
  fs : List Visit
  hs : List Visit
  ss : List Visit
  os : List Visit
  deriving DecidableEq, Repr

namespace DescLayout

/-- Where the full-speed descriptors start. -/
def fsAt (lay : DescLayout) : Nat := lay.header.rawDescs

/-- Where the high-speed descriptors start. -/
def hsAt (lay : DescLayout) : Nat := lay.fsAt + total lay.fs

/-- Where the super-speed descriptors start. -/
def ssAt (lay : DescLayout) : Nat := lay.hsAt + total lay.hs

/-- Where the features start. -/
def osAt (lay : DescLayout) : Nat := lay.ssAt + total lay.ss

/-- Where the features stop. -/
def stopAt (lay : DescLayout) : Nat := lay.osAt + total lay.os

end DescLayout

/-- The blob has the layout, with the number of interfaces given, and a body that is not
empty and reaches to its end. -/
structure Parses (m : Bytes) (interfaces : Nat) (lay : DescLayout) : Prop where
  header : descHeader m = some lay.header
  fs : visits (descSize m) lay.header.fsCount lay.fsAt (m.length - lay.fsAt) = some lay.fs
  hs : visits (descSize m) lay.header.hsCount lay.hsAt (m.length - lay.hsAt) = some lay.hs
  ss : visits (descSize m) lay.header.ssCount lay.ssAt (m.length - lay.ssAt) = some lay.ss
  os : visits (osFeatureSize m interfaces) lay.header.osDescsCount lay.osAt (m.length - lay.osAt)
    = some lay.os
  body : lay.fsAt ≠ lay.stopAt
  stop : lay.stopAt = m.length

/-- The head and the speeds of the blob are taken in `ffs` and leave `ffs'`. -/
def TakesSpeeds (fdget : EventfdCtxFdget) (m : Bytes) (lay : DescLayout) (ffs ffs' : FfsData) :
    Prop :=
  ∃ ffs₀ ffs₁ ffs₂, noteEventfd fdget m lay.header.flags (noteFlags m ffs) = some ffs₀
    ∧ TakesSpeed m lay.header.fsCount lay.fs ffs₀ ffs₁
    ∧ TakesSpeed m lay.header.hsCount lay.hs ffs₁ ffs₂
    ∧ TakesSpeed m lay.header.ssCount lay.ss ffs₂ ffs'

/-- What an accepted blob leaves, when `ffs` is left by its head and speeds. -/
def storeLayout (m : Bytes) (lay : DescLayout) (ffs : FfsData) : Heap FfsData :=
  storeDescs lay.fsAt (m.length - lay.fsAt) lay.header.fsCount lay.header.hsCount
    lay.header.ssCount lay.header.osDescsCount
    (takeOsEntries m (osEntries m ffs.interfacesCount lay.os) ⟨m, ffs⟩)

theorem descHeader_eq_some {m : Bytes} {hd : DescHeader} :
  descHeader m = some hd
    ↔ le32At m 4 = m.length ∧ ∃ d d₀ d₁ d₂ d₃, flagsWord m = some (hd.flags, d)
      ∧ eventfdWord m hd.flags d = some d₀
      ∧ countWord m functionfsHasFsDesc hd.flags d₀ = some (hd.fsCount, d₁)
      ∧ countWord m functionfsHasHsDesc hd.flags d₁ = some (hd.hsCount, d₂)
      ∧ countWord m functionfsHasSsDesc hd.flags d₂ = some (hd.ssCount, d₃)
      ∧ countWord m functionfsHasMsOsDesc hd.flags d₃ = some (hd.osDescsCount, hd.rawDescs)
  := by
  unfold descHeader
  by_cases hlen : le32At m 4 = m.length
  · rw [if_neg (by simp [hlen])]
    simp only [hlen, true_and, Option.bind_eq_bind, Option.bind_eq_some_iff, Option.some.injEq,
      Prod.exists]
    constructor
    · rintro ⟨flags, d, hf, d₀, he, c₁, d₁, h₁, c₂, d₂, h₂, c₃, d₃, h₃, c₄, d₄, h₄, rfl⟩
      exact ⟨d, d₀, d₁, d₂, d₃, hf, he, h₁, h₂, h₃, h₄⟩
    · rintro ⟨d, d₀, d₁, d₂, d₃, hf, he, h₁, h₂, h₃, h₄⟩
      exact ⟨_, d, hf, d₀, he, _, d₁, h₁, _, d₂, h₂, _, d₃, h₃, _, _, h₄, rfl⟩
  · simp [hlen]

theorem descHeader_rawDescs_le {m : Bytes} {hd : DescHeader} (hm : 12 ≤ m.length)
    (h : descHeader m = some hd) :
  hd.rawDescs ≤ m.length
  := by
  obtain ⟨-, d, d₀, d₁, d₂, d₃, hf, he, h₁, h₂, h₃, h₄⟩ := descHeader_eq_some.mp h
  have hd := (flagsWord_position hf).1
  apply countWord_le (countWord_le (countWord_le (countWord_le (eventfdWord_le _ he) h₁) h₂) h₃) h₄
  omega

/-- A descriptor blob is accepted exactly when it has a layout and its speeds are taken. -/
theorem ffsDataGotDescs_ok
    {fdget : EventfdCtxFdget} {m : Bytes} {ffs : FfsData} {t : Heap FfsData}
    (hm : 12 ≤ m.length) (hmax : m.length < 2147483648) :
  (ffsDataGotDescs fdget m.length).run ⟨m, ffs⟩ = .ok () t
    ↔ ∃ lay ffs', Parses m ffs'.interfacesCount lay ∧ TakesSpeeds fdget m lay ffs ffs'
      ∧ t = storeLayout m lay ffs'
  := by
  constructor
  · intro h
    obtain ⟨l, u, hl, h⟩ := run_bind_ok.mp h
    rw [run_read32 (by dsimp only; omega)] at hl
    cases hl
    dsimp only at h
    split_ifs at h with hlen
    · cases h
    rw [ne_eq, not_not] at hlen
    obtain ⟨⟨flags, d⟩, u, hrun, h⟩ := run_bind_ok.mp h
    obtain ⟨hflags, rfl⟩ := (readFlags_ok hm).mp hrun
    obtain ⟨d₀, u, hrun, h⟩ := run_bind_ok.mp h
    obtain ⟨hev, ffs₀, hffs₀, rfl⟩ := (readEventfd_ok (flagsWord_position hflags).2).mp hrun
    obtain ⟨⟨fsCount, d₁⟩, u, hrun, h⟩ := run_bind_ok.mp h
    obtain ⟨hfs, rfl⟩ := readCount_ok.mp hrun
    obtain ⟨⟨hsCount, d₂⟩, u, hrun, h⟩ := run_bind_ok.mp h
    obtain ⟨hhs, rfl⟩ := readCount_ok.mp hrun
    obtain ⟨⟨ssCount, d₃⟩, u, hrun, h⟩ := run_bind_ok.mp h
    obtain ⟨hss, rfl⟩ := readCount_ok.mp hrun
    obtain ⟨⟨osDescsCount, rawDescs⟩, u, hrun, h⟩ := run_bind_ok.mp h
    obtain ⟨hos, rfl⟩ := readCount_ok.mp hrun
    have hheader : descHeader m = some ⟨flags, fsCount, hsCount, ssCount, osDescsCount, rawDescs⟩ :=
      descHeader_eq_some.mpr ⟨hlen, d, d₀, d₁, d₂, d₃, hflags, hev, hfs, hhs, hss, hos⟩
    have hraw : rawDescs ≤ m.length := descHeader_rawDescs_le hm hheader
    obtain ⟨e₁, u, hrun, h⟩ := run_bind_ok.mp h
    obtain ⟨vfs, hvfs, rfl, ffs₁, hffs₁, rfl⟩ := (takesSpeed_ok hraw hmax).mp hrun
    have hle₁ := total_le_of_descs hraw hvfs
    obtain ⟨e₂, u, hrun, h⟩ := run_bind_ok.mp h
    obtain ⟨vhs, hvhs, rfl, ffs₂, hffs₂, rfl⟩ := (takesSpeed_ok hle₁ hmax).mp hrun
    have hle₂ := total_le_of_descs hle₁ hvhs
    obtain ⟨e₃, u, hrun, h⟩ := run_bind_ok.mp h
    obtain ⟨vss, hvss, rfl, ffs₃, hffs₃, rfl⟩ := (takesSpeed_ok hle₂ hmax).mp hrun
    have hle₃ := total_le_of_descs hle₂ hvss
    obtain ⟨ret, u, hrun, h⟩ := run_bind_ok.mp h
    obtain ⟨vos, hvos, rfl, rfl⟩ := (readOsDescs_ok hle₃ hmax).mp hrun
    have hle₄ := total_le_of_features hle₃ hvos
    dsimp only at h
    split_ifs at h with hend
    · cases h
    have hend : rawDescs ≠ rawDescs + total vfs + total vhs + total vss + total vos
      ∧ rawDescs + total vfs + total vhs + total vss + total vos = m.length := by omega
    cases h
    use ⟨⟨flags, fsCount, hsCount, ssCount, osDescsCount, rawDescs⟩, vfs, vhs, vss, vos⟩, ffs₃
    refine ⟨⟨hheader, hvfs, hvhs, hvss, hvos, hend.1, hend.2⟩,
      ⟨ffs₀, ffs₁, ffs₂, hffs₀, hffs₁, hffs₂, hffs₃⟩, ?_⟩
    rw [hend.2]
    rfl
  · rintro ⟨⟨⟨flags, fsCount, hsCount, ssCount, osDescsCount, rawDescs⟩, vfs, vhs, vss, vos⟩, ffs₃,
      ⟨hheader, hvfs, hvhs, hvss, hvos, hbody, hstop⟩,
      ⟨ffs₀, ffs₁, ffs₂, hffs₀, hffs₁, hffs₂, hffs₃⟩, rfl⟩
    obtain ⟨hlen, d, d₀, d₁, d₂, d₃, hflags, hev, hfs, hhs, hss, hos⟩ :=
      descHeader_eq_some.mp hheader
    have hraw : rawDescs ≤ m.length := descHeader_rawDescs_le hm hheader
    have hle₁ := total_le_of_descs hraw hvfs
    have hle₂ := total_le_of_descs hle₁ hvhs
    have hle₃ := total_le_of_descs hle₂ hvss
    refine run_bind_ok.mpr ⟨_, _, run_read32 (by dsimp only; omega), ?_⟩
    dsimp only
    rw [if_neg (by simp [hlen])]
    refine run_bind_ok.mpr ⟨_, _, (readFlags_ok hm).mpr ⟨hflags, rfl⟩, ?_⟩
    refine run_bind_ok.mpr
      ⟨_, _, (readEventfd_ok (flagsWord_position hflags).2).mpr ⟨hev, _, hffs₀, rfl⟩, ?_⟩
    refine run_bind_ok.mpr ⟨_, _, readCount_ok.mpr ⟨hfs, rfl⟩, ?_⟩
    refine run_bind_ok.mpr ⟨_, _, readCount_ok.mpr ⟨hhs, rfl⟩, ?_⟩
    refine run_bind_ok.mpr ⟨_, _, readCount_ok.mpr ⟨hss, rfl⟩, ?_⟩
    refine run_bind_ok.mpr ⟨_, _, readCount_ok.mpr ⟨hos, rfl⟩, ?_⟩
    refine run_bind_ok.mpr
      ⟨_, _, (takesSpeed_ok hraw hmax).mpr ⟨vfs, hvfs, rfl, _, hffs₁, rfl⟩, ?_⟩
    refine run_bind_ok.mpr
      ⟨_, _, (takesSpeed_ok hle₁ hmax).mpr ⟨vhs, hvhs, rfl, _, hffs₂, rfl⟩, ?_⟩
    refine run_bind_ok.mpr
      ⟨_, _, (takesSpeed_ok hle₂ hmax).mpr ⟨vss, hvss, rfl, _, hffs₃, rfl⟩, ?_⟩
    refine run_bind_ok.mpr ⟨_, _, (readOsDescs_ok hle₃ hmax).mpr ⟨vos, hvos, rfl, rfl⟩, ?_⟩
    simp only [DescLayout.stopAt, DescLayout.osAt, DescLayout.ssAt, DescLayout.hsAt,
      DescLayout.fsAt] at hbody hstop
    dsimp only
    rw [if_neg (show ¬(_ ∨ _) by omega), hstop]
    rfl

/-! ### Writing a blob -/

/-- A write of a descriptor blob: the blob, and the file descriptors that resolve when it
is written. -/
structure DescWrite where
  fdget : EventfdCtxFdget
  blob : Bytes

namespace DescWrite

/-- The lengths `ffs_ep0_write` passes on: at least 16 bytes, and no more than one write
may carry. -/
def Fits (w : DescWrite) : Prop := 16 ≤ w.blob.length ∧ w.blob.length < 2147483648

/-- The outcome of a write in `FFS_READ_DESCRIPTORS`. -/
def outcome (w : DescWrite) (ffs : FfsData) : EStateM.Result Stop (Heap FfsData) Unit :=
  (ffsDataGotDescs w.fdget w.blob.length).run ⟨w.blob, ffs⟩

/-- The blob is accepted. -/
def Accepted (w : DescWrite) (ffs : FfsData) : Prop := ∃ t, w.outcome ffs = .ok () t

end DescWrite

end Ffs
