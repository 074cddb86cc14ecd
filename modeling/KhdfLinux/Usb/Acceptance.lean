import KhdfLinux.Usb.Grammar

/-!
# The blobs that are accepted

`acceptedDescs_correct_iff` compares the blobs `ffsDataGotDescs` accepts with those of the grammar.
Three things set them apart.  The walker takes descriptors of no byte or of one byte.  A
speed without endpoints and interfaces is not compared with the next one.  And the length
of a property is cut to a byte.

A blob is accepted exactly when it has a `CodeLayout`: the layout the walkers find, with
speeds that `joinSpeeds` puts together.  A layout that is `Regular` shows none of the three
differences.
-/

namespace Ffs

open Bytes Exec Heap Walk

/-! ### Speeds put together -/

/-- What is compared of a speed: its endpoint addresses and its number of interfaces. -/
structure SpeedParts where
  endpoints : List UInt8
  interfaces : Nat
  deriving DecidableEq, Repr

/-- A speed without endpoints and interfaces. -/
def SpeedParts.none : SpeedParts := ⟨[], 0⟩

/-- The parts of the speed with the descriptors `vs`. -/
def speedParts (m : Bytes) (vs : List Visit) : SpeedParts :=
  ⟨speedEndpoints m vs, speedInterfaces m vs⟩

/-- The parts of the speed with the descriptors `ds`. -/
def descsParts (ds : List Bytes) : SpeedParts := ⟨descsEndpoints ds, descsInterfaces ds⟩

/-- The parts recorded after a speed of `count` descriptors, if they are `recorded`
before: a speed is not compared with nothing. -/
def joinSpeed (count : Nat) (parts recorded : SpeedParts) : Option SpeedParts :=
  if count = 0 then
    some recorded
  else if parts.endpoints.length < ffsMaxEpsCount
      ∧ (recorded = SpeedParts.none ∨ recorded = parts) then
    some parts
  else
    none

/-- The parts recorded after the three speeds of a layout. -/
def joinSpeeds (m : Bytes) (lay : DescLayout) : Option SpeedParts :=
  (joinSpeed lay.header.fsCount (speedParts m lay.fs) SpeedParts.none).bind fun r =>
    (joinSpeed lay.header.hsCount (speedParts m lay.hs) r).bind fun r =>
      joinSpeed lay.header.ssCount (speedParts m lay.ss) r

/-- The layout the walkers find in the blob, when the parts put together are `parts`. -/
structure CodeLayout (m : Bytes) (lay : DescLayout) (parts : SpeedParts) : Prop where
  speeds : joinSpeeds m lay = some parts
  parses : Parses m parts.interfaces lay

/-- The `ffs_data` has the parts recorded. -/
structure FfsData.Records (ffs : FfsData) (parts : SpeedParts) : Prop where
  epsCount : ffs.epsCount = parts.endpoints.length
  interfacesCount : ffs.interfacesCount = parts.interfaces
  addrs : ffs.Matches 1 parts.endpoints

section Records

variable {m : Bytes} {count : Nat} {vs : List Visit} {ffs ffs' : FfsData}
  {parts next : SpeedParts}

theorem FfsData.Records.unset_iff (h : ffs.Records parts) :
  ffs.Unset ↔ parts = SpeedParts.none
  := by
  obtain ⟨as, i⟩ := parts
  obtain ⟨he, hi, -⟩ := h
  rw [FfsData.Unset, he, hi, List.length_eq_zero_iff, SpeedParts.none, SpeedParts.mk.injEq]

/-- Strings do not matter for the parts recorded. -/
theorem FfsData.Records.raise (h : ffs.Records parts) (n : Nat) :
  FfsData.Records { ffs with stringsCount := n } parts
  := by
  have hmatch : ∀ n' as, ffs.Matches n' as →
      FfsData.Matches { ffs with stringsCount := n } n' as := by
    intro n' as
    induction as generalizing n' with
    | nil => exact id
    | cons a as ih => exact fun h => ⟨h.1, ih _ h.2⟩
  exact ⟨h.epsCount, h.interfacesCount, hmatch _ _ h.addrs⟩

theorem records_fill {as : List UInt8} {i n : Nat} (has : as.length < ffsMaxEpsCount) :
  FfsData.Records { ffs with
      stringsCount := n
      epsAddrmap := fillAddrmap ffs.epsAddrmap 1 as
      epsCount := as.length
      interfacesCount := i } ⟨as, i⟩
  := by
  refine ⟨rfl, rfl, ?_⟩
  apply matches_fillAddrmap { ffs with
    stringsCount := n, epsCount := as.length, interfacesCount := i }
  omega

theorem TakesSpeed.records (h : ffs.Records parts) (ht : TakesSpeed m count vs ffs ffs') :
  ∃ next, joinSpeed count (speedParts m vs) parts = some next ∧ ffs'.Records next
  := by
  rcases ht with ⟨hc, rfl⟩ | ⟨hc, hlt, hrec⟩
  · exact ⟨parts, if_pos hc, h⟩
  · rcases hrec with ⟨hunset, rfl⟩ | ⟨hunset, hmatch, he, hi, rfl⟩
    · refine ⟨speedParts m vs, ?_, records_fill hlt⟩
      rw [joinSpeed, if_neg hc, if_pos ⟨hlt, Or.inl (h.unset_iff.mp hunset)⟩]
    · have hparts : parts = speedParts m vs := by
        obtain ⟨as, i⟩ := parts
        obtain rfl := h.addrs.unique hmatch (by rw [← h.epsCount, he])
        obtain rfl : ffs.interfacesCount = i := h.interfacesCount
        rw [hi]
        rfl
      refine ⟨speedParts m vs, ?_, hparts ▸ h.raise _⟩
      rw [joinSpeed, if_neg hc, if_pos ⟨hlt, Or.inr hparts⟩]

theorem takesSpeed_of_joinSpeed
    (h : ffs.Records parts) (hj : joinSpeed count (speedParts m vs) parts = some next) :
  ∃ ffs', TakesSpeed m count vs ffs ffs' ∧ ffs'.Records next
  := by
  unfold joinSpeed at hj
  split_ifs at hj with hc hjoin
  · obtain rfl := Option.some.inj hj
    exact ⟨ffs, Or.inl ⟨hc, rfl⟩, h⟩
  · obtain rfl := Option.some.inj hj
    obtain ⟨hlt, hjoin⟩ := hjoin
    by_cases hunset : ffs.Unset
    · exact ⟨_, Or.inr ⟨hc, hlt, Or.inl ⟨hunset, rfl⟩⟩, records_fill hlt⟩
    · obtain rfl := hjoin.resolve_left fun hnone => hunset (h.unset_iff.mpr hnone)
      refine ⟨_, Or.inr ⟨hc, hlt, Or.inr ⟨hunset, h.addrs, h.epsCount, h.interfacesCount, rfl⟩⟩, ?_⟩
      apply h.raise _

end Records

theorem records_reset (ffs : FfsData) :
  (ffsDataReset ffs).Records SpeedParts.none
  := ⟨rfl, rfl, trivial⟩

/-- The head of a blob leaves what is recorded of speeds. -/
theorem records_of_noteEventfd
    {fdget : EventfdCtxFdget} {m : Bytes} {flags : Nat} {ffs ffs' : FfsData}
    (h : ffs.Records SpeedParts.none)
    (hev : noteEventfd fdget m flags (noteFlags m ffs) = some ffs') :
  ffs'.Records SpeedParts.none
  := by
  have hflags : (noteFlags m ffs).Records SpeedParts.none := by
    unfold noteFlags
    split_ifs
    · exact ⟨h.epsCount, h.interfacesCount, trivial⟩
    · apply h
  unfold noteEventfd at hev
  split_ifs at hev with hf
  · split at hev
    · cases hev
    · obtain rfl := Option.some.inj hev
      exact ⟨hflags.epsCount, hflags.interfacesCount, trivial⟩
  · obtain rfl := Option.some.inj hev
    apply hflags

theorem noteEventfd_isSome
    {fdget : EventfdCtxFdget} (hfd : ∀ fd, ∃ ctx, fdget fd = .ok ctx) (m : Bytes) (flags : Nat)
    (ffs : FfsData) :
  ∃ ffs', noteEventfd fdget m flags ffs = some ffs'
  := by
  unfold noteEventfd
  split_ifs
  · obtain ⟨ctx, hctx⟩ := hfd (s32 (le32At m 12))
    rw [hctx]
    exact ⟨_, rfl⟩
  · exact ⟨ffs, rfl⟩

/-- The blob is accepted by a freshly reset `ffs_data`. -/
def AcceptedDescs (fdget : EventfdCtxFdget) (m : Bytes) (ffs : FfsData) : Prop :=
  ∃ t, (ffsDataGotDescs fdget m.length).run ⟨m, ffsDataReset ffs⟩ = .ok () t

/-- A blob is accepted exactly when it has a layout. -/
theorem acceptedDescs_iff_codeLayout
    {fdget : EventfdCtxFdget} (hfd : ∀ fd, ∃ ctx, fdget fd = .ok ctx) {m : Bytes}
    (hm : 12 ≤ m.length) (hmax : m.length < 2147483648) (ffs : FfsData) :
  AcceptedDescs fdget m ffs ↔ ∃ lay parts, CodeLayout m lay parts
  := by
  unfold AcceptedDescs
  simp only [ffsDataGotDescs_ok hm hmax]
  constructor
  · rintro ⟨t, lay, ffs', hparses, ⟨ffs₀, ffs₁, ffs₂, hev, hfs, hhs, hss⟩, -⟩
    obtain ⟨p₁, hp₁, h₁⟩ := hfs.records (records_of_noteEventfd (records_reset ffs) hev)
    obtain ⟨p₂, hp₂, h₂⟩ := hhs.records h₁
    obtain ⟨p₃, hp₃, h₃⟩ := hss.records h₂
    use lay, p₃
    constructor
    · simp only [joinSpeeds, hp₁, hp₂, hp₃, Option.bind_some]
    · rw [← h₃.interfacesCount]
      apply hparses
  · rintro ⟨lay, parts, hspeeds, hparses⟩
    obtain ⟨p₁, hp₁, hspeeds⟩ := Option.bind_eq_some_iff.mp hspeeds
    obtain ⟨p₂, hp₂, hp₃⟩ := Option.bind_eq_some_iff.mp hspeeds
    obtain ⟨ffs₀, hev⟩ :=
      noteEventfd_isSome hfd m lay.header.flags (noteFlags m (ffsDataReset ffs))
    obtain ⟨ffs₁, hfs, h₁⟩ :=
      takesSpeed_of_joinSpeed (records_of_noteEventfd (records_reset ffs) hev) hp₁
    obtain ⟨ffs₂, hhs, h₂⟩ := takesSpeed_of_joinSpeed h₁ hp₂
    obtain ⟨ffs₃, hss, h₃⟩ := takesSpeed_of_joinSpeed h₂ hp₃
    rw [← h₃.interfacesCount] at hparses
    exact ⟨_, lay, ffs₃, hparses, ⟨ffs₀, ffs₁, ffs₂, hev, hfs, hhs, hss⟩, rfl⟩

/-! ### Layouts without surprises -/

/-- The layout shows none of the differences between the walkers and the grammar. -/
structure DescLayout.Regular (lay : DescLayout) (m : Bytes) (interfaces : Nat) : Prop where
  /-- Every descriptor has a length and a type. -/
  sizes : ∀ vs ∈ [lay.fs, lay.hs, lay.ss], ∀ v ∈ vs, 2 ≤ v.size
  /-- A speed without endpoints and interfaces stands beside no speed with some. -/
  blank : ∀ vs ∈ [lay.fs, lay.hs, lay.ss], vs ≠ [] → speedParts m vs = SpeedParts.none →
    ∀ vs' ∈ [lay.fs, lay.hs, lay.ss], speedParts m vs' = SpeedParts.none
  /-- The length of a property fits in a byte. -/
  short : ∀ e ∈ osEntries m interfaces lay.os, e.type = .extProp → le32At m e.offset < 256

section Join

variable {m : Bytes} {lay : DescLayout} {count : Nat} {vs : List Visit}
  {parts recorded next : SpeedParts}

theorem joinSpeed_endpoints (h : joinSpeed count parts recorded = some next) (hc : count ≠ 0) :
  parts.endpoints.length < ffsMaxEpsCount
  := by
  unfold joinSpeed at h
  rw [if_neg hc] at h
  split_ifs at h with hjoin
  exact hjoin.1

/-- What is recorded stays, unless it is nothing. -/
theorem joinSpeed_keeps
    (h : joinSpeed count parts recorded = some next) (hr : recorded ≠ SpeedParts.none) :
  next = recorded
  := by
  unfold joinSpeed at h
  split_ifs at h with hc hjoin
  · exact (Option.some.inj h).symm
  · rw [hjoin.2.resolve_left hr, ← Option.some.inj h]

/-- A speed that is present is recorded. -/
theorem joinSpeed_takes (h : joinSpeed count parts recorded = some next) (hc : count ≠ 0) :
  next = parts
  := by
  unfold joinSpeed at h
  rw [if_neg hc] at h
  split_ifs at h with hjoin
  exact (Option.some.inj h).symm

theorem joinSpeeds_endpoints
    (hfs : lay.fs.length = lay.header.fsCount) (hhs : lay.hs.length = lay.header.hsCount)
    (hss : lay.ss.length = lay.header.ssCount) (hj : joinSpeeds m lay = some parts) :
  ∀ vs ∈ [lay.fs, lay.hs, lay.ss], (speedParts m vs).endpoints.length < ffsMaxEpsCount
  := by
  obtain ⟨r₁, h₁, hj⟩ := Option.bind_eq_some_iff.mp hj
  obtain ⟨r₂, h₂, h₃⟩ := Option.bind_eq_some_iff.mp hj
  rw [← hfs] at h₁
  rw [← hhs] at h₂
  rw [← hss] at h₃
  intro vs hvs
  by_cases hnil : vs = []
  · subst hnil
    simp [speedParts, speedEndpoints, ffsMaxEpsCount]
  have hc : vs.length ≠ 0 := by simpa using hnil
  simp only [List.mem_cons, List.not_mem_nil, or_false] at hvs
  rcases hvs with rfl | rfl | rfl
  · apply joinSpeed_endpoints h₁ hc
  · apply joinSpeed_endpoints h₂ hc
  · apply joinSpeed_endpoints h₃ hc

theorem joinSpeed_of_agree
    (hvs : vs ≠ [] → speedParts m vs = parts)
    (hlt : (speedParts m vs).endpoints.length < ffsMaxEpsCount)
    (hr : recorded = SpeedParts.none ∨ recorded = parts) :
  joinSpeed vs.length (speedParts m vs) recorded = some (if vs = [] then recorded else parts)
  := by
  unfold joinSpeed
  by_cases h : vs = []
  · rw [if_pos (by rw [h]; rfl), if_pos h]
  · rw [if_neg (by simpa using h), if_neg h, if_pos ⟨hlt, (hvs h).symm ▸ hr⟩, hvs h]

theorem exists_common
    {α : Type} {L : List (List α)} {f : List α → SpeedParts}
    (h : ∀ xs ∈ L, ∀ ys ∈ L, xs ≠ [] → ys ≠ [] → f xs = f ys) :
  ∃ parts, ∀ xs ∈ L, xs ≠ [] → f xs = parts
  := by
  by_cases hex : ∃ ys ∈ L, ys ≠ []
  · obtain ⟨ys, hys, hne⟩ := hex
    exact ⟨f ys, fun xs hxs hxne => h xs hxs ys hys hxne hne⟩
  · exact ⟨SpeedParts.none, fun xs hxs hne => absurd ⟨xs, hxs, hne⟩ hex⟩

/-- Speeds that agree are put together, with the number of interfaces of all their
descriptors. -/
theorem joinSpeeds_of_agree
    (hfs : lay.fs.length = lay.header.fsCount) (hhs : lay.hs.length = lay.header.hsCount)
    (hss : lay.ss.length = lay.header.ssCount)
    (hagree : ∀ vs ∈ [lay.fs, lay.hs, lay.ss], ∀ vs' ∈ [lay.fs, lay.hs, lay.ss],
      vs ≠ [] → vs' ≠ [] → speedParts m vs = speedParts m vs')
    (hlt : ∀ vs ∈ [lay.fs, lay.hs, lay.ss],
      (speedParts m vs).endpoints.length < ffsMaxEpsCount) :
  ∃ parts, joinSpeeds m lay = some parts
    ∧ parts.interfaces = max (speedInterfaces m lay.fs)
      (max (speedInterfaces m lay.hs) (speedInterfaces m lay.ss))
  := by
  obtain ⟨parts, hparts⟩ := exists_common hagree
  have hi : ∀ vs ∈ [lay.fs, lay.hs, lay.ss],
      speedInterfaces m vs = if vs = [] then 0 else parts.interfaces := by
    intro vs hvs
    split_ifs with h
    · rw [h]
      rfl
    · rw [← hparts vs hvs h]
      rfl
  unfold joinSpeeds
  rw [← hfs, ← hhs, ← hss,
    joinSpeed_of_agree (hparts lay.fs (by simp)) (hlt lay.fs (by simp)) (Or.inl rfl),
    Option.bind_some,
    joinSpeed_of_agree (hparts lay.hs (by simp)) (hlt lay.hs (by simp)) (by split_ifs <;> simp),
    Option.bind_some,
    joinSpeed_of_agree (hparts lay.ss (by simp)) (hlt lay.ss (by simp)) (by split_ifs <;> simp),
    hi lay.fs (by simp), hi lay.hs (by simp), hi lay.ss (by simp)]
  refine ⟨_, rfl, ?_⟩
  split_ifs <;> simp [SpeedParts.none]

/-- Speeds that are put together agree, unless one of them is blank beside one that is
not. -/
theorem agree_of_joinSpeeds
    (hfs : lay.fs.length = lay.header.fsCount) (hhs : lay.hs.length = lay.header.hsCount)
    (hss : lay.ss.length = lay.header.ssCount) (hj : joinSpeeds m lay = some parts)
    (hblank : ∀ vs ∈ [lay.fs, lay.hs, lay.ss], vs ≠ [] → speedParts m vs = SpeedParts.none →
      ∀ vs' ∈ [lay.fs, lay.hs, lay.ss], speedParts m vs' = SpeedParts.none) :
  ∃ common, ∀ vs ∈ [lay.fs, lay.hs, lay.ss], vs ≠ [] → speedParts m vs = common
  := by
  by_cases hnone : ∃ vs ∈ [lay.fs, lay.hs, lay.ss], vs ≠ [] ∧ speedParts m vs = SpeedParts.none
  · obtain ⟨vs, hvs, hne, hvs'⟩ := hnone
    exact ⟨SpeedParts.none, fun vs' hvs'' _ => hblank vs hvs hne hvs' vs' hvs''⟩
  have hsome : ∀ vs ∈ [lay.fs, lay.hs, lay.ss], vs ≠ [] →
      vs.length ≠ 0 ∧ speedParts m vs ≠ SpeedParts.none := by
    intro vs hvs hne
    exact ⟨by simpa using hne, fun h => hnone ⟨vs, hvs, hne, h⟩⟩
  obtain ⟨r₁, h₁, hj⟩ := Option.bind_eq_some_iff.mp hj
  obtain ⟨r₂, h₂, h₃⟩ := Option.bind_eq_some_iff.mp hj
  rw [← hfs] at h₁
  rw [← hhs] at h₂
  rw [← hss] at h₃
  use parts
  intro vs hvs hne
  obtain ⟨hc, hblank⟩ := hsome vs hvs hne
  simp only [List.mem_cons, List.not_mem_nil, or_false] at hvs
  rcases hvs with rfl | rfl | rfl
  · have hr₁ := joinSpeed_takes h₁ hc
    have hr₂ := joinSpeed_keeps h₂ (hr₁ ▸ hblank)
    rw [joinSpeed_keeps h₃ (hr₂ ▸ hr₁ ▸ hblank), hr₂, hr₁]
  · have hr₂ := joinSpeed_takes h₂ hc
    rw [joinSpeed_keeps h₃ (hr₂ ▸ hblank), hr₂]
  · rw [joinSpeed_takes h₃ hc]

end Join

/-! ### From the grammar to layouts -/

/-- The layout of a blob of the grammar. -/
def located (hd : DescHeader) (fs hs ss : List Bytes) (os : List OsFeature) : DescLayout where
  header := hd
  fs := locate hd.rawDescs fs
  hs := locate (hd.rawDescs + fs.flatten.length) hs
  ss := locate (hd.rawDescs + fs.flatten.length + hs.flatten.length) ss
  os := locate (hd.rawDescs + fs.flatten.length + hs.flatten.length + ss.flatten.length)
    (os.map OsFeature.bytes)

theorem descsInterfaces_append (ds ds' : List Bytes) :
  descsInterfaces (ds ++ ds') = max (descsInterfaces ds) (descsInterfaces ds')
  := by
  induction ds with
  | nil => simp [descsInterfaces]
  | cons d ds ih => simp only [List.cons_append, descsInterfaces, ih, Nat.max_assoc]

section Located

variable {m : Bytes} {hd : DescHeader} {fs hs ss : List Bytes} {os : List OsFeature}
  {lay : DescLayout} {parts : SpeedParts} {interfaces o : Nat}

theorem speedParts_locate
    {ds : List Bytes} {rest : Bytes} (hds : ∀ d ∈ ds, IsDesc d)
    (hm : m.drop o = ds.flatten ++ rest) :
  speedParts m (locate o ds) = descsParts ds
  := by
  rw [speedParts, speedEndpoints_locate hds hm, speedInterfaces_locate hds hm, descsParts]

theorem locate_eq_nil_iff {ds : List Bytes} :
  locate o ds = [] ↔ ds = []
  := by
  cases ds <;> simp [locate]

namespace DescGrammar

variable (hg : DescGrammar m hd fs hs ss os)

include hg

theorem dropFs :
  m.drop hd.rawDescs = fs.flatten ++ (hs.flatten ++ (ss.flatten ++ os.flatMap OsFeature.bytes))
  := hg.body

theorem dropHs :
  m.drop (hd.rawDescs + fs.flatten.length)
    = hs.flatten ++ (ss.flatten ++ os.flatMap OsFeature.bytes)
  := by
  rw [← List.drop_drop, hg.dropFs, List.drop_left]

theorem dropSs :
  m.drop (hd.rawDescs + fs.flatten.length + hs.flatten.length)
    = ss.flatten ++ os.flatMap OsFeature.bytes
  := by
  rw [← List.drop_drop, hg.dropHs, List.drop_left]

theorem dropOs :
  m.drop (hd.rawDescs + fs.flatten.length + hs.flatten.length + ss.flatten.length)
    = os.flatMap OsFeature.bytes
  := by
  rw [← List.drop_drop, hg.dropSs, List.drop_left]

/-- The speeds of a blob of the grammar are where the walkers see them. -/
theorem speeds_eq (hp : Parses m interfaces lay) :
  lay.header = hd ∧ lay.fs = (located hd fs hs ss os).fs ∧ lay.hs = (located hd fs hs ss os).hs
    ∧ lay.ss = (located hd fs hs ss os).ss
  := by
  obtain ⟨header, vfs, vhs, vss, vos⟩ := lay
  obtain ⟨hheader, hfs, hhs, hss, -, -, -⟩ := hp
  obtain rfl : hd = header := Option.some.inj (hg.header.symm.trans hheader)
  simp only [DescLayout.ssAt, DescLayout.hsAt, DescLayout.fsAt] at hfs hhs hss
  have hdfs := (hg.descs fs (by simp)).1
  have hdhs := (hg.descs hs (by simp)).1
  have hdss := (hg.descs ss (by simp)).1
  rw [← hg.fsCount, visits_descs hdfs hg.dropFs] at hfs
  obtain rfl := Option.some.inj hfs
  rw [← hg.hsCount, total_locate, visits_descs hdhs hg.dropHs] at hhs
  obtain rfl := Option.some.inj hhs
  rw [← hg.ssCount, total_locate, total_locate, visits_descs hdss hg.dropSs] at hss
  obtain rfl := Option.some.inj hss
  exact ⟨rfl, rfl, rfl, rfl⟩

/-- The speeds of the layout are speeds of the grammar. -/
theorem of_mem_speeds
    {vs : List Visit} (hvs : vs ∈ [(located hd fs hs ss os).fs, (located hd fs hs ss os).hs,
      (located hd fs hs ss os).ss]) :
  ∃ ds ∈ [fs, hs, ss], ∃ o rest, m.drop o = ds.flatten ++ rest ∧ vs = locate o ds
  := by
  simp only [List.mem_cons, List.not_mem_nil, or_false] at hvs
  rcases hvs with rfl | rfl | rfl
  · exact ⟨fs, by simp, _, _, hg.dropFs, rfl⟩
  · exact ⟨hs, by simp, _, _, hg.dropHs, rfl⟩
  · exact ⟨ss, by simp, _, _, hg.dropSs, rfl⟩

theorem length_eq :
  hd.rawDescs < m.length
    ∧ hd.rawDescs + fs.flatten.length + hs.flatten.length + ss.flatten.length
      + (os.flatMap OsFeature.bytes).length = m.length
  := by
  have hlen := drop_length_eq hg.body
  have hne := List.length_pos_iff.mpr hg.nonempty
  rw [List.length_append, List.length_append] at hlen
  rw [List.length_drop] at hne
  omega

/-- The speeds of the grammar are put together. -/
theorem joinSpeeds :
  ∃ parts, Ffs.joinSpeeds m (located hd fs hs ss os) = some parts
    ∧ parts.interfaces = descsInterfaces (fs ++ hs ++ ss)
  := by
  have hdfs := (hg.descs fs (by simp)).1
  have hdhs := (hg.descs hs (by simp)).1
  have hdss := (hg.descs ss (by simp)).1
  rw [descsInterfaces_append, descsInterfaces_append, Nat.max_assoc,
    ← speedInterfaces_locate hdfs hg.dropFs, ← speedInterfaces_locate hdhs hg.dropHs,
    ← speedInterfaces_locate hdss hg.dropSs]
  apply joinSpeeds_of_agree
  · exact (length_locate _ _).trans hg.fsCount
  · exact (length_locate _ _).trans hg.hsCount
  · exact (length_locate _ _).trans hg.ssCount
  · intro vs hvs vs' hvs' hne hne'
    obtain ⟨ds, hds, o, rest, hm, rfl⟩ := hg.of_mem_speeds hvs
    obtain ⟨ds', hds', o', rest', hm', rfl⟩ := hg.of_mem_speeds hvs'
    rw [speedParts_locate (hg.descs ds hds).1 hm, speedParts_locate (hg.descs ds' hds').1 hm']
    obtain ⟨he, hi⟩ := hg.agree ds hds ds' hds' (fun h => hne (locate_eq_nil_iff.mpr h))
      (fun h => hne' (locate_eq_nil_iff.mpr h))
    rw [descsParts, he, hi, descsParts]
  · intro vs hvs
    obtain ⟨ds, hds, o, rest, hm, rfl⟩ := hg.of_mem_speeds hvs
    rw [speedParts_locate (hg.descs ds hds).1 hm]
    exact (hg.descs ds hds).2

/-- The blobs of the grammar with short properties have a layout. -/
theorem codeLayout (hshort : ∀ f ∈ os, f.Short) :
  ∃ parts, CodeLayout m (located hd fs hs ss os) parts
  := by
  obtain ⟨parts, hj, hi⟩ := hg.joinSpeeds
  refine ⟨parts, hj, hg.header, ?_, ?_, ?_, ?_, ?_, ?_⟩
  · exact hg.fsCount ▸ visits_descs (hg.descs fs (by simp)).1 hg.dropFs
  · simp only [DescLayout.hsAt, DescLayout.fsAt, located, total_locate]
    exact hg.hsCount ▸ visits_descs (hg.descs hs (by simp)).1 hg.dropHs
  · simp only [DescLayout.ssAt, DescLayout.hsAt, DescLayout.fsAt, located, total_locate]
    exact hg.ssCount ▸ visits_descs (hg.descs ss (by simp)).1 hg.dropSs
  · simp only [DescLayout.osAt, DescLayout.ssAt, DescLayout.hsAt, DescLayout.fsAt, located,
      total_locate]
    rw [hi, ← hg.osCount]
    apply visits_features hg.features hg.dropOs hshort
  · have hlen := hg.length_eq
    simp only [DescLayout.stopAt, DescLayout.osAt, DescLayout.ssAt, DescLayout.hsAt,
      DescLayout.fsAt, located, total_locate, ← List.flatMap_def]
    omega
  · have hlen := hg.length_eq
    simp only [DescLayout.stopAt, DescLayout.osAt, DescLayout.ssAt, DescLayout.hsAt,
      DescLayout.fsAt, located, total_locate, ← List.flatMap_def]
    omega

/-- The blobs of the grammar that have a layout have short properties, and their layout is
regular. -/
theorem regular (hc : CodeLayout m lay parts) :
  (∀ f ∈ os, f.Short) ∧ lay.Regular m parts.interfaces
  := by
  obtain ⟨hj, hp⟩ := hc
  obtain ⟨parts', hj', hi⟩ := hg.joinSpeeds
  obtain ⟨hheader, hfs, hhs, hss⟩ := hg.speeds_eq hp
  have hjoin : Ffs.joinSpeeds m lay = Ffs.joinSpeeds m (located hd fs hs ss os) := by
    simp only [Ffs.joinSpeeds, hheader, hfs, hhs, hss]
    rfl
  rw [hjoin, hj'] at hj
  obtain rfl := Option.some.inj hj
  have hos := hp.os
  rw [hi] at hos ⊢
  simp only [DescLayout.osAt, DescLayout.ssAt, DescLayout.hsAt, DescLayout.fsAt, hheader, hfs,
    hhs, hss, located, total_locate, ← hg.osCount] at hos
  have hshort := short_of_features hg.features hg.dropOs hos
  refine ⟨hshort, ?_, ?_, ?_⟩
  · rw [hfs, hhs, hss]
    intro vs hvs
    obtain ⟨ds, hds, o, rest, hm, rfl⟩ := hg.of_mem_speeds hvs
    exact forall_mem_locate hm fun s hs _ _ _ => ((hg.descs ds hds).1 s hs).1
  · rw [hfs, hhs, hss]
    intro vs hvs hne hnone vs' hvs'
    obtain ⟨ds, hds, o, rest, hm, rfl⟩ := hg.of_mem_speeds hvs
    obtain ⟨ds', hds', o', rest', hm', rfl⟩ := hg.of_mem_speeds hvs'
    rw [speedParts_locate (hg.descs ds hds).1 hm] at hnone
    rw [speedParts_locate (hg.descs ds' hds').1 hm']
    by_cases hnil : ds' = []
    · rw [hnil]
      rfl
    · obtain ⟨he, hi⟩ := hg.agree ds' hds' ds hds hnil (fun h => hne (locate_eq_nil_iff.mpr h))
      rw [← hnone, descsParts, he, hi, descsParts]
  · rw [visits_features hg.features hg.dropOs hshort] at hos
    rw [← Option.some.inj hos]
    apply osEntries_short hg.features hg.dropOs hshort

end DescGrammar

end Located

/-! ### From layouts to the grammar -/

section Regular

variable {m : Bytes} {lay : DescLayout} {parts : SpeedParts} {interfaces count o : Nat}
  {vs : List Visit}

/-- The descriptors of a speed the walker takes, cut out of the blob. -/
theorem descs_of_visits
    (ho : o ≤ m.length) (hvs : visits (descSize m) count o (m.length - o) = some vs)
    (hsize : ∀ v ∈ vs, 2 ≤ v.size) :
  (∀ d ∈ vs.map (segment m), IsDesc d) ∧ speedParts m vs = descsParts (vs.map (segment m))
  := by
  have hmem : ∀ v ∈ vs, v.offset + v.size ≤ m.length ∧ IsDesc (segment m v) := by
    intro v hv
    obtain ⟨-, hle, hk⟩ := mem_visits (fun _ _ _ => descSize_le) hvs hv
    have htotal := total_le_of_visits (fun _ _ _ => descSize_le) hvs
    have hle' : v.offset + v.size ≤ m.length := by omega
    exact ⟨hle', isDesc_of_descSize hk hle' (hsize v hv)⟩
  have hdescs : ∀ d ∈ vs.map (segment m), IsDesc d := by
    intro d hd
    obtain ⟨v, hv, rfl⟩ := List.mem_map.mp hd
    exact (hmem v hv).2
  refine ⟨hdescs, ?_⟩
  rw [← speedParts_locate hdescs (drop_eq_of_visits hvs),
    locate_segments hvs fun v hv => (hmem v hv).1]

/-- The blobs with a regular layout are of the grammar. -/
theorem CodeLayout.exists_grammar
    (hc : CodeLayout m lay parts) (hr : lay.Regular m parts.interfaces) (hm : 12 ≤ m.length) :
  ∃ os, DescGrammar m lay.header (lay.fs.map (segment m)) (lay.hs.map (segment m))
    (lay.ss.map (segment m)) os
  := by
  obtain ⟨hj, hheader, hfs, hhs, hss, hos, hbody, hstop⟩ := hc
  have hraw : lay.fsAt ≤ m.length := descHeader_rawDescs_le hm hheader
  have hle₁ : lay.hsAt ≤ m.length := total_le_of_descs hraw hfs
  have hle₂ : lay.ssAt ≤ m.length := total_le_of_descs hle₁ hhs
  have hle₃ : lay.osAt ≤ m.length := total_le_of_descs hle₂ hss
  obtain ⟨hdfs, hpfs⟩ := descs_of_visits hraw hfs (hr.sizes lay.fs (by simp))
  obtain ⟨hdhs, hphs⟩ := descs_of_visits hle₁ hhs (hr.sizes lay.hs (by simp))
  obtain ⟨hdss, hpss⟩ := descs_of_visits hle₂ hss (hr.sizes lay.ss (by simp))
  have hcfs := visits_length hfs
  have hchs := visits_length hhs
  have hcss := visits_length hss
  have hlt := joinSpeeds_endpoints hcfs hchs hcss hj
  obtain ⟨common, hcommon⟩ := agree_of_joinSpeeds hcfs hchs hcss hj hr.blank
  obtain ⟨parts', hj', hi⟩ := joinSpeeds_of_agree hcfs hchs hcss
    (fun vs hvs vs' hvs' hne hne' => (hcommon vs hvs hne).trans (hcommon vs' hvs' hne').symm) hlt
  obtain rfl := Option.some.inj (hj.symm.trans hj')
  obtain ⟨os, hcount, hdrop, hfeatures⟩ := exists_features hle₃ hos hstop hr.short
  have hmem : ∀ ds ∈ [lay.fs.map (segment m), lay.hs.map (segment m), lay.ss.map (segment m)],
      ∃ vs ∈ [lay.fs, lay.hs, lay.ss], ds = vs.map (segment m)
        ∧ (∀ d ∈ ds, IsDesc d) ∧ speedParts m vs = descsParts ds := by
    intro ds hds
    simp only [List.mem_cons, List.not_mem_nil, or_false] at hds
    rcases hds with rfl | rfl | rfl
    · exact ⟨lay.fs, by simp, rfl, hdfs, hpfs⟩
    · exact ⟨lay.hs, by simp, rfl, hdhs, hphs⟩
    · exact ⟨lay.ss, by simp, rfl, hdss, hpss⟩
  have hinterfaces : parts.interfaces = descsInterfaces
      (lay.fs.map (segment m) ++ lay.hs.map (segment m) ++ lay.ss.map (segment m)) := by
    rw [hi, descsInterfaces_append, descsInterfaces_append, Nat.max_assoc]
    exact congr_arg₂ max (congr_arg SpeedParts.interfaces hpfs)
      (congr_arg₂ max (congr_arg SpeedParts.interfaces hphs) (congr_arg SpeedParts.interfaces hpss))
  use os
  refine ⟨hheader, ?_, ?_, ?_, hcount, ?_, ?_, ?_, ?_, ?_⟩
  · rw [List.length_map, hcfs]
  · rw [List.length_map, hchs]
  · rw [List.length_map, hcss]
  · rw [← hdrop]
    exact (drop_eq_of_visits hfs).trans (congr_arg _ ((drop_eq_of_visits hhs).trans
      (congr_arg _ (drop_eq_of_visits hss))))
  · intro hnil
    have hlen := List.length_drop (i := lay.header.rawDescs) (l := m)
    rw [hnil, List.length_nil] at hlen
    have : lay.fsAt ≤ lay.stopAt := by
      simp only [DescLayout.stopAt, DescLayout.osAt, DescLayout.ssAt, DescLayout.hsAt]
      omega
    simp only [DescLayout.fsAt] at hbody this
    omega
  · intro ds hds
    obtain ⟨vs, hvs, -, hdescs, hparts⟩ := hmem ds hds
    refine ⟨hdescs, ?_⟩
    rw [← show (speedParts m vs).endpoints = descsEndpoints ds from
      congr_arg SpeedParts.endpoints hparts]
    apply hlt vs hvs
  · intro ds hds ds' hds' hne hne'
    obtain ⟨vs, hvs, rfl, -, hparts⟩ := hmem ds hds
    obtain ⟨vs', hvs', rfl, -, hparts'⟩ := hmem ds' hds'
    have heq := (hcommon vs hvs (by simpa using hne)).trans
      (hcommon vs' hvs' (by simpa using hne')).symm
    rw [hparts, hparts'] at heq
    exact ⟨congr_arg SpeedParts.endpoints heq, congr_arg SpeedParts.interfaces heq⟩
  · rw [← hinterfaces]
    apply hfeatures

end Regular

/-! ### The grammar and the code -/

/-- The blob is of the grammar. -/
def WellFormedDescs (m : Bytes) : Prop := ∃ hd fs hs ss os, DescGrammar m hd fs hs ss os

/-- Every layout the walkers find in the blob is regular, and the blob is not one of the
grammar with a property of 256 bytes or more. -/
structure PlainDescs (m : Bytes) : Prop where
  regular : ∀ lay parts, CodeLayout m lay parts → lay.Regular m parts.interfaces
  short : ∀ hd fs hs ss os, DescGrammar m hd fs hs ss os → ∀ f ∈ os, f.Short

/-- A freshly reset `ffs_data` accepts the blobs of the grammar and no others, exactly as far
as blobs are plain. -/
theorem acceptedDescs_correct_iff
    {fdget : EventfdCtxFdget} (hfd : ∀ fd, ∃ ctx, fdget fd = .ok ctx) {m : Bytes}
    (hm : 12 ≤ m.length) (hmax : m.length < 2147483648) (ffs : FfsData) :
  (AcceptedDescs fdget m ffs ↔ WellFormedDescs m) ↔ PlainDescs m
  := by
  rw [acceptedDescs_iff_codeLayout hfd hm hmax]
  constructor
  · intro h
    constructor
    · intro lay parts hc
      obtain ⟨hd, fs, hs, ss, os, hg⟩ := h.mp ⟨lay, parts, hc⟩
      exact (hg.regular hc).2
    · intro hd fs hs ss os hg
      obtain ⟨lay, parts, hc⟩ := h.mpr ⟨hd, fs, hs, ss, os, hg⟩
      exact (hg.regular hc).1
  · intro hp
    constructor
    · rintro ⟨lay, parts, hc⟩
      obtain ⟨os, hg⟩ := hc.exists_grammar (hp.regular lay parts hc) hm
      exact ⟨_, _, _, _, os, hg⟩
    · rintro ⟨hd, fs, hs, ss, os, hg⟩
      exact ⟨_, hg.codeLayout (hp.short hd fs hs ss os hg)⟩

/-- A V2 blob with two full-speed descriptors, the first of which has one byte. -/
def oneByteDesc : Bytes :=
  [3, 0, 0, 0, 24, 0, 0, 0, 1, 0, 0, 0, 2, 0, 0, 0, 1, 7, 0x24, 0, 0, 0, 0, 0]

/-- The layout the walkers find in it. -/
def oneByteDescLayout : DescLayout where
  header := ⟨1, 2, 0, 0, 0, 16⟩
  fs := [⟨16, 1⟩, ⟨17, 7⟩]
  hs := []
  ss := []
  os := []

theorem oneByteDesc_codeLayout :
  CodeLayout oneByteDesc oneByteDescLayout SpeedParts.none
  := by
  refine ⟨by decide, by decide, by decide, by decide, by decide, by decide, by decide, by decide⟩

theorem acceptedDescs_correct_iff_oneByteDesc :
  (AcceptedDescs (fun _ => .ok 0) oneByteDesc ffsDataNew ↔ WellFormedDescs oneByteDesc)
    ↔ PlainDescs oneByteDesc
  := acceptedDescs_correct_iff (fun _ => ⟨0, rfl⟩) (by decide) (by decide) ffsDataNew

/-- A descriptor of one byte, without a type of its own, is accepted. -/
theorem oneByteDesc_accepted :
  AcceptedDescs (fun _ => .ok 0) oneByteDesc ffsDataNew ∧ ¬WellFormedDescs oneByteDesc
  := by
  constructor
  · apply (acceptedDescs_iff_codeLayout (fun _ => ⟨0, rfl⟩) (by decide) (by decide) ffsDataNew).mpr
    exact ⟨_, _, oneByteDesc_codeLayout⟩
  · rintro ⟨hd, fs, hs, ss, os, hg⟩
    have hsizes := (hg.regular oneByteDesc_codeLayout).2.sizes
    have := hsizes oneByteDescLayout.fs (by simp) ⟨16, 1⟩ (by simp [oneByteDescLayout])
    simp at this

end Ffs
