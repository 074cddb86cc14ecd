import KhdfLinux.Usb.RawDescs

/-!
# The two heads of a descriptor blob

A blob of descriptors begins with the old head, which has counts for the full and the high speed, or
with one that has flags.  `legacy_iff_v2`: a blob with the old head is accepted exactly if the one
with the flags of these two speeds and the same body is, and both leave the same but for the flags.
-/

namespace Ffs

open Bytes Exec Heap Walk

/-- The flags of the full and the high speed. -/
def twoSpeedFlags : Nat := functionfsHasFsDesc ||| functionfsHasHsDesc

/-- The head of a blob announces descriptors of the full and the high speed, and nothing else; the
body starts at `d`. -/
structure TwoSpeedHead (m : Bytes) (d : Nat) : Prop where
  length : le32At m 4 = m.length
  flags : flagsWord m = some (twoSpeedFlags, d)
  least : 12 ≤ m.length
  small : m.length < 2147483648

/-- The body of a blob: the counts of the two speeds, and their descriptors up to the end. -/
structure BodyParses (b : Bytes) (fs hs : List Visit) : Prop where
  counts : 8 ≤ b.length
  full : visits (descSize b) (le32At b 0) 8 (b.length - 8) = some fs
  high : visits (descSize b) (le32At b 4) (8 + total fs) (b.length - (8 + total fs)) = some hs
  body : total fs + total hs ≠ 0
  stop : 8 + total fs + total hs = b.length

/-- The layout of a blob whose body starts at `d`. -/
def bodyLayout (b : Bytes) (d : Nat) (fs hs : List Visit) : DescLayout where
  header := ⟨twoSpeedFlags, le32At b 0, le32At b 4, 0, 0, d + 8⟩
  fs := fs.map (Visit.shift d)
  hs := hs.map (Visit.shift d)
  ss := []
  os := []

@[simp]
theorem total_shift (o : Nat) (vs : List Visit) :
  total (vs.map (Visit.shift o)) = total vs
  := by
  simp [total, Visit.shift, Function.comp_def]

section Head

variable {m : Bytes} {d : Nat}

theorem TwoSpeedHead.le (h : TwoSpeedHead m d) :
  d ≤ 12
  := (flagsWord_position h.flags).1

theorem TwoSpeedHead.descHeader_eq_some (h : TwoSpeedHead m d) {hd : DescHeader} :
  descHeader m = some hd
    ↔ d + 8 ≤ m.length ∧ hd = ⟨twoSpeedFlags, le32At m d, le32At m (d + 4), 0, 0, d + 8⟩
  := by
  have hle := h.le
  have hleast := h.least
  have heventfd : hasFlag twoSpeedFlags functionfsEventfd = false := by decide
  have hfs : hasFlag twoSpeedFlags functionfsHasFsDesc = true := by decide
  have hhs : hasFlag twoSpeedFlags functionfsHasHsDesc = true := by decide
  have hss : hasFlag twoSpeedFlags functionfsHasSsDesc = false := by decide
  have hos : hasFlag twoSpeedFlags functionfsHasMsOsDesc = false := by decide
  unfold descHeader
  rw [if_neg (not_not_intro h.length), h.flags]
  simp only [Option.bind_eq_bind, Option.bind_some, eventfdWord, countWord, heventfd, hfs, hhs, hss,
    hos, if_true, Bool.false_eq_true, if_false]
  by_cases hfour : m.length - d < 4
  · rw [if_pos hfour, Option.bind_none]
    exact ⟨nofun, fun hlong => absurd hlong.1 (by omega)⟩
  rw [if_neg hfour, Option.bind_some]
  dsimp only
  by_cases height : m.length - (d + 4) < 4
  · rw [if_pos height, Option.bind_none]
    exact ⟨nofun, fun hlong => absurd hlong.1 (by omega)⟩
  rw [if_neg height, Option.bind_some, Option.some_inj]
  exact ⟨fun heq => ⟨by omega, heq.symm⟩, fun heq => heq.2.symm⟩

/-- A blob with such a head is parsed by its body. -/
theorem TwoSpeedHead.parses_iff (h : TwoSpeedHead m d) {interfaces : Nat} {lay : DescLayout} :
  Parses m interfaces lay
    ↔ ∃ fs hs, BodyParses (m.drop d) fs hs ∧ lay = bodyLayout (m.drop d) d fs hs
  := by
  have hle := h.le
  have hleast := h.least
  have hlength : (m.drop d).length = m.length - d := List.length_drop
  have hfirst : le32At (m.drop d) 0 = le32At m d := le32At_drop m d 0
  have hsecond : le32At (m.drop d) 4 = le32At m (d + 4) := le32At_drop m d 4
  constructor
  · intro hparses
    obtain ⟨hlong, hheader⟩ := h.descHeader_eq_some.mp hparses.header
    obtain ⟨hd, vfs, vhs, vss, vos⟩ := lay
    obtain rfl := hheader
    obtain ⟨fs, hfs, rfl⟩ := (visits_shift (descSize_drop m d)).mp hparses.fs
    have hhs := hparses.hs
    have hstop := hparses.stop
    have hbody := hparses.body
    obtain rfl : vss = [] := List.length_eq_zero_iff.mp (visits_length hparses.ss)
    obtain rfl : vos = [] := List.length_eq_zero_iff.mp (visits_length hparses.os)
    simp only [DescLayout.stopAt, DescLayout.osAt, DescLayout.ssAt, DescLayout.hsAt,
      DescLayout.fsAt, total_shift, total_nil, Nat.add_zero] at hhs hstop hbody
    rw [Nat.add_assoc d 8] at hhs
    obtain ⟨hs, hhigh, rfl⟩ := (visits_shift (descSize_drop m d)).mp hhs
    rw [total_shift] at hstop hbody
    refine ⟨fs, hs, ⟨by omega, ?_, ?_, by omega, by omega⟩, ?_⟩
    · rw [hfirst, hlength, ← Nat.sub_add_eq]
      exact hfs
    · rw [hsecond, hlength, ← Nat.sub_add_eq]
      exact hhigh
    · rw [bodyLayout, hfirst, hsecond]
  · rintro ⟨fs, hs, hbody, rfl⟩
    obtain ⟨hcounts, hfull, hhigh, hne, hstop⟩ := hbody
    rw [hlength] at hcounts hstop hfull hhigh
    rw [← Nat.sub_add_eq] at hfull hhigh
    rw [← Nat.add_assoc] at hhigh
    refine ⟨?_, ?_, ?_, rfl, rfl, ?_, ?_⟩
    · rw [h.descHeader_eq_some, bodyLayout, hfirst, hsecond]
      exact ⟨by omega, rfl⟩
    · exact (visits_shift (descSize_drop m d)).mpr ⟨fs, hfull, rfl⟩
    · simp only [DescLayout.hsAt, DescLayout.fsAt, bodyLayout, total_shift]
      rw [Nat.add_assoc d 8]
      refine (visits_shift (descSize_drop m d)).mpr ⟨hs, ?_, rfl⟩
      rw [← Nat.add_assoc d 8]
      exact hhigh
    · simp only [DescLayout.stopAt, DescLayout.osAt, DescLayout.ssAt, DescLayout.hsAt,
        DescLayout.fsAt, bodyLayout, total_shift, total_nil]
      omega
    · simp only [DescLayout.stopAt, DescLayout.osAt, DescLayout.ssAt, DescLayout.hsAt,
        DescLayout.fsAt, bodyLayout, total_shift, total_nil]
      omega

end Head

/-! ### What is left -/

section Speeds

variable {m : Bytes} {count o : Nat} {vs : List Visit} {ffs ffs' : FfsData}

theorem speedStrings_drop (m : Bytes) (o : Nat) (vs : List Visit) :
  speedStrings m (vs.map (Visit.shift o)) = speedStrings (m.drop o) vs
  := by
  induction vs with
  | nil => rfl
  | cons v vs ih =>
      have hstring : descString m (Visit.shift o v).offset = descString (m.drop o) v.offset := by
        simp only [descString, byteAt_drop, Visit.shift, Nat.add_assoc]
      rw [List.map_cons, speedStrings, speedStrings, ih, hstring]

theorem takesSpeed_drop :
  TakesSpeed m count (vs.map (Visit.shift o)) ffs ffs' ↔ TakesSpeed (m.drop o) count vs ffs ffs'
  := by
  unfold TakesSpeed
  rw [speedEndpoints_drop, speedInterfaces_drop, speedStrings_drop]

/-- The `ffs_data` with flags. -/
def FfsData.withFlags (ffs : FfsData) (flags : Nat) : FfsData := { ffs with userFlags := flags }

theorem matches_withFlags (flags n : Nat) (as : List UInt8) :
  (ffs.withFlags flags).Matches n as ↔ ffs.Matches n as
  := by
  induction as generalizing n with
  | nil => rfl
  | cons a as ih => exact and_congr_right fun _ => ih (n + 1)

/-- The flags do not matter for what a speed records. -/
theorem TakesSpeed.withFlags (h : TakesSpeed m count vs ffs ffs') (flags : Nat) :
  TakesSpeed m count vs (ffs.withFlags flags) (ffs'.withFlags flags)
  := by
  obtain ⟨hzero, rfl⟩ | ⟨hne, hlt, ⟨hunset, rfl⟩ | ⟨hset, hmatch, heps, hintf, rfl⟩⟩ := h
  · exact .inl ⟨hzero, rfl⟩
  · exact .inr ⟨hne, hlt, .inl ⟨hunset, rfl⟩⟩
  · exact .inr ⟨hne, hlt, .inr ⟨hset, (matches_withFlags flags 1 _).mpr hmatch, heps, hintf, rfl⟩⟩

end Speeds

/-- What an accepted body leaves in an `ffs_data`, for a blob whose descriptors start at `start`. -/
def BodyTaken (b : Bytes) (ffs : FfsData) (m : Bytes) (start : Nat) (p : FfsData) : Prop :=
  ∃ fs hs ffs₁ ffs₂, BodyParses b fs hs ∧ TakesSpeed b (le32At b 0) fs ffs ffs₁
    ∧ TakesSpeed b (le32At b 4) hs ffs₁ ffs₂
    ∧ (storeDescs start (b.length - 8) (le32At b 0) (le32At b 4) 0 0 ⟨m, ffs₂⟩).priv = p

/-- The `ffs_data` for a blob whose descriptors start at `start`. -/
def FfsData.under (p : FfsData) (m : Bytes) (start flags : Nat) : FfsData :=
  { p with rawDescsData := m, rawDescs := start, userFlags := flags }

section Taken

variable {m b : Bytes} {d start : Nat} {ffs p : FfsData} {t : Heap FfsData}
  {fdget : EventfdCtxFdget}

/-- What a body leaves is the same under each head, but for the flags. -/
theorem BodyTaken.under (h : BodyTaken b ffs m start p) (m' : Bytes) (start' flags : Nat) :
  BodyTaken b (ffs.withFlags flags) m' start' (p.under m' start' flags)
  := by
  obtain ⟨fs, hs, ffs₁, ffs₂, hparses, hfull, hhigh, rfl⟩ := h
  exact ⟨fs, hs, _, _, hparses, hfull.withFlags flags, hhigh.withFlags flags, rfl⟩

theorem TakesSpeed.userFlags {count : Nat} {vs : List Visit} {ffs' : FfsData}
    (h : TakesSpeed m count vs ffs ffs') :
  ffs'.userFlags = ffs.userFlags
  := by
  obtain ⟨-, rfl⟩ | ⟨-, -, ⟨-, rfl⟩ | ⟨-, -, -, -, rfl⟩⟩ := h
  all_goals rfl

theorem BodyTaken.eq_under (h : BodyTaken b ffs m start p) :
  p = p.under m start ffs.userFlags
  := by
  obtain ⟨fs, hs, ffs₁, ffs₂, -, hfull, hhigh, rfl⟩ := h
  unfold FfsData.under
  rw [← hfull.userFlags, ← hhigh.userFlags]
  rfl

/-- A blob with such a head is accepted by its body. -/
theorem TwoSpeedHead.gotDescs_iff (h : TwoSpeedHead m d) :
  (ffsDataGotDescs fdget m.length).run ⟨m, ffs⟩ = .ok () t
    ↔ t.mem = m ∧ BodyTaken (m.drop d) (noteFlags m ffs) m (d + 8) t.priv
  := by
  have hlength : m.length - (d + 8) = (m.drop d).length - 8 := by
    rw [List.length_drop, Nat.sub_add_eq]
  have hhead : ∀ ffs', noteEventfd fdget m twoSpeedFlags ffs' = some ffs' := fun _ => rfl
  rw [ffsDataGotDescs_ok h.least h.small]
  constructor
  · rintro ⟨lay, ffs', hparses, ⟨ffs₀, ffs₁, ffs₂, hev, hfull, hhigh, hsuper⟩, rfl⟩
    obtain ⟨fs, hs, hbody, rfl⟩ := h.parses_iff.mp hparses
    obtain rfl := Option.some.inj ((hhead _).symm.trans hev)
    obtain rfl := hsuper.eq_of_zero rfl
    refine ⟨rfl, fs, hs, ffs₁, ffs', hbody, takesSpeed_drop.mp hfull, takesSpeed_drop.mp hhigh, ?_⟩
    rw [← hlength]
    rfl
  · rintro ⟨hmem, fs, hs, ffs₁, ffs₂, hbody, hfull, hhigh, hpriv⟩
    refine ⟨_, ffs₂, h.parses_iff.mpr ⟨fs, hs, hbody, rfl⟩, ⟨_, ffs₁, ffs₂, hhead _,
      takesSpeed_drop.mpr hfull, takesSpeed_drop.mpr hhigh, .inl ⟨rfl, rfl⟩⟩, ?_⟩
    rw [← hlength] at hpriv
    exact congrArg₂ Heap.mk hmem hpriv.symm

end Taken

/-- A blob with the old head, and the blob with flags for its two speeds and the same body. -/
structure SameBody (m m' : Bytes) : Prop where
  magic : le32At m 0 = functionfsDescriptorsMagic
  length : le32At m 4 = m.length
  least : 12 ≤ m.length
  magic' : le32At m' 0 = functionfsDescriptorsMagicV2
  length' : le32At m' 4 = m'.length
  flags : le32At m' 8 = twoSpeedFlags
  small : m'.length < 2147483648
  body : m'.drop 12 = m.drop 8

namespace SameBody

variable {m m' : Bytes} (h : SameBody m m')

include h

theorem length_eq :
  m'.length = m.length + 4
  := by
  have hlength := congrArg List.length h.body
  have hleast := h.least
  rw [List.length_drop, List.length_drop] at hlength
  omega

theorem old :
  TwoSpeedHead m 8
  := by
  have hlength := h.length_eq
  have hsmall := h.small
  refine ⟨h.length, if_pos h.magic, h.least, by omega⟩

theorem new :
  TwoSpeedHead m' 12
  := by
  have hlength := h.length_eq
  have hleast := h.least
  refine ⟨h.length', ?_, by omega, h.small⟩
  unfold flagsWord
  rw [h.magic', h.flags]
  rfl

theorem noteFlags_old (ffs : FfsData) :
  noteFlags m ffs = ffs
  := by
  unfold noteFlags
  rw [h.magic, if_neg (by decide)]

theorem noteFlags_new (ffs : FfsData) :
  noteFlags m' ffs = ffs.withFlags twoSpeedFlags
  := by
  unfold noteFlags
  rw [if_pos h.magic', h.flags]
  rfl

end SameBody

/-- A blob with the old head is accepted exactly if the blob with the flags and the same body is;
the `ffs_data` that is left differs in the blob it points to and in the flags, which the old head
leaves as they were. -/
theorem legacy_iff_v2 {m m' : Bytes} {ffs : FfsData} {fdget : EventfdCtxFdget}
    (h : SameBody m m') :
  (∀ p : FfsData, (ffsDataGotDescs fdget m.length).run ⟨m, ffs⟩
        = .ok () ⟨m, p.under m 16 ffs.userFlags⟩
      ↔ (ffsDataGotDescs fdget m'.length).run ⟨m', ffs⟩
        = .ok () ⟨m', p.under m' 20 twoSpeedFlags⟩)
    ∧ (∀ t, (ffsDataGotDescs fdget m.length).run ⟨m, ffs⟩ = .ok () t →
      t = ⟨m, t.priv.under m 16 ffs.userFlags⟩)
    ∧ ∀ t, (ffsDataGotDescs fdget m'.length).run ⟨m', ffs⟩ = .ok () t →
      t = ⟨m', t.priv.under m' 20 twoSpeedFlags⟩
  := by
  simp only [h.old.gotDescs_iff, h.new.gotDescs_iff, h.noteFlags_old, h.noteFlags_new, h.body,
    true_and]
  refine ⟨fun p => ⟨fun hold => ?_, fun hnew => ?_⟩, ?_, ?_⟩
  · exact hold.under m' 20 twoSpeedFlags
  · exact hnew.under m 16 ffs.userFlags
  · rintro ⟨mem, priv⟩ ⟨rfl, htaken⟩
    exact congrArg (Heap.mk mem) htaken.eq_under
  · rintro ⟨mem, priv⟩ ⟨rfl, htaken⟩
    exact congrArg (Heap.mk mem) htaken.eq_under

/-- A blob with the old head, and an interface with an endpoint of the full speed. -/
def legacyDescs : Bytes :=
  [1, 0, 0, 0, 32, 0, 0, 0, 2, 0, 0, 0, 0, 0, 0, 0,
    9, 4, 0, 0, 1, 255, 0, 0, 0, 7, 5, 0x81, 2, 64, 0, 0]

/-- The blob with flags and the same body. -/
def flaggedDescs : Bytes :=
  [3, 0, 0, 0, 36, 0, 0, 0, 3, 0, 0, 0, 2, 0, 0, 0, 0, 0, 0, 0,
    9, 4, 0, 0, 1, 255, 0, 0, 0, 7, 5, 0x81, 2, 64, 0, 0]

/-- Both blobs are accepted. -/
theorem legacy_iff_v2_endpoint :
  ∃ p : FfsData, (ffsDataGotDescs (fun _ => .ok 0) legacyDescs.length).run
      ⟨legacyDescs, ffsDataNew⟩ = .ok () ⟨legacyDescs, p.under legacyDescs 16 0⟩
    ∧ (ffsDataGotDescs (fun _ => .ok 0) flaggedDescs.length).run ⟨flaggedDescs, ffsDataNew⟩
      = .ok () ⟨flaggedDescs, p.under flaggedDescs 20 twoSpeedFlags⟩
  := by
  have hbody : SameBody legacyDescs flaggedDescs :=
    ⟨by decide, by decide, by decide, by decide, by decide, by decide, by decide, by decide⟩
  have hstop : stopOf ((ffsDataGotDescs (fun _ => .ok 0) legacyDescs.length).run
      ⟨legacyDescs, ffsDataNew⟩) = none := by
    decide +kernel
  obtain ⟨_, t, ht⟩ := stopOf_eq_none.mp hstop
  rw [(legacy_iff_v2 hbody).2.1 t ht] at ht
  exact ⟨t.priv, ht, ((legacy_iff_v2 hbody).1 t.priv).mp ht⟩

end Ffs
