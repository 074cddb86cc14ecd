import KhdfLinux.Usb.GotDescs
import KhdfLinux.Lib.Run

/-!
# Rejected descriptor blobs

`__ffs_data_got_descs` writes into the `ffs_data` while it parses, so that a blob that is
rejected leaves what was recorded up to the place where it is rejected.  `Silent` says
that there is nothing new among it: the flags and the eventfd are those of the `ffs_data`
already, no speed that is reached records a new string index, endpoint or count, and no
property is counted.  A run of writes that are rejected and silent leaves no trace.
-/

namespace Ffs

open Bytes Exec Heap Walk

/-! ### Speeds -/

/-- Endpoints with the addresses `as` are accepted in `ffs`. -/
def FfsData.Admits (ffs : FfsData) (as : List UInt8) : Prop :=
  as.length < ffsMaxEpsCount ∧ (ffs.Unset ∨ ffs.Matches 1 as)

/-- The descriptors of a speed record nothing new in `ffs`, as far as they are taken. -/
structure SpeedSilent (m : Bytes) (count data : Nat) (ffs : FfsData) : Prop where
  descs : ∀ i ≤ count, ∀ vs, visits (descSize m) i data (m.length - data) = some vs →
    ffs.Admits (speedEndpoints m vs) →
      speedStrings m vs ≤ ffs.stringsCount ∧ ffs.Matches 1 (speedEndpoints m vs)
  settled : ∀ vs, visits (descSize m) count data (m.length - data) = some vs →
    ffs.Admits (speedEndpoints m vs) → ffs.Unset →
      speedEndpoints m vs = [] ∧ speedInterfaces m vs = 0

theorem fillAddrmap_of_matches
    {ffs : FfsData} {n : Nat} {as : List UInt8} (h : ffs.Matches n as)
    (hlen : n + as.length ≤ ffsMaxEpsCount) :
  fillAddrmap ffs.epsAddrmap n as = ffs.epsAddrmap
  := by
  induction as generalizing n with
  | nil => rfl
  | cons a as ih =>
      obtain ⟨ha, has⟩ := h
      simp only [List.length_cons] at hlen
      have hset : ffs.epsAddrmap.setIfInBounds n a = ffs.epsAddrmap := by
        apply Vector.ext
        intro i hi
        rw [Vector.getElem_setIfInBounds]
        split_ifs with hni
        · subst hni
          rw [← ha, FfsData.addrAt]
          simp [hi]
        · rfl
      rw [fillAddrmap, hset]
      apply ih has (by omega)

theorem recordDescs_append (m : Bytes) (vs ws : List Visit) (helper : FfsDescHelper) :
  recordDescs m (vs ++ ws) helper = (recordDescs m vs helper).bind (recordDescs m ws)
  := by
  induction vs generalizing helper with
  | nil => rfl
  | cons v vs ih =>
      simp only [List.cons_append, recordDescs]
      cases recordDesc m v.offset helper with
      | none => rfl
      | some next => apply ih

theorem recordDescs_silent
    {m : Bytes} {vs : List Visit} {ffs : FfsData} {helper : FfsDescHelper}
    (h : recordDescs m vs ⟨ffs, 0, 0⟩ = some helper)
    (hs : ffs.Admits (speedEndpoints m vs) →
      speedStrings m vs ≤ ffs.stringsCount ∧ ffs.Matches 1 (speedEndpoints m vs)) :
  helper.ffs = ffs
  := by
  obtain ⟨hlt, hmatch, rfl⟩ := recordDescs_iff.mp h
  obtain ⟨hstr, hm⟩ := hs ⟨hlt, hmatch⟩
  dsimp only
  rw [Nat.max_eq_left hstr, fillAddrmap_of_matches hm (by omega), ite_self]

section Speed

variable {m : Bytes} {count data : Nat} {ffs : FfsData}

/-- The walk over a silent speed has recorded nothing new where it is refused. -/
theorem ffsDoDescs_silent
    (hdata : data ≤ m.length) (hmax : m.length < 2147483648)
    (hs : SpeedSilent m count data ffs) :
  Meets (ffsDoDescs count data (m.length - data) ffsDataDoEntity) ⟨m, ⟨ffs, 0, 0⟩⟩
    (fun n t => ∃ vs helper, visits (descSize m) count data (m.length - data) = some vs
      ∧ n = total vs ∧ recordDescs m vs ⟨ffs, 0, 0⟩ = some helper ∧ t = ⟨m, helper⟩)
    (fun stop t => stop = .ret (-einval) ∧ t.priv.ffs = ffs)
  := by
  apply meets_bind
  -- the invariant: the descriptors before `d` are taken and recorded
  apply (walk_meets (E := fun stop t => stop = .ret (-einval) ∧ t.priv.ffs = ffs)
    (fun i d l t => i ≤ count
      ∧ ∃ vs helper, visits (descSize m) i data (m.length - data) = some vs
        ∧ recordDescs m vs ⟨ffs, 0, 0⟩ = some helper ∧ t = ⟨m, helper⟩
        ∧ d = data + total vs ∧ l = m.length - data - total vs) ?_ ?_).mono
  · rintro ⟨d, l⟩ t ⟨hi, vs, helper, hvs, hrec, rfl, rfl, rfl⟩
    rw [Nat.zero_add] at hvs
    have hle := total_le_of_visits (fun _ _ _ => descSize_le) hvs
    refine meets_step (x := ffsDataDoEntity (.descriptor count none)) (t := ⟨m, helper⟩) rfl ?_
    dsimp only
    rw [s32_taken hle (by omega)]
    exact ⟨vs, helper, hvs, by simp, hrec, rfl⟩
  · intro stop t ht
    apply ht
  · rintro i d l _ hi ⟨-, vs, helper, hvs, hrec, rfl, rfl, rfl⟩
    have hle := total_le_of_visits (fun _ _ _ => descSize_le) hvs
    apply (ffsDoDesc_meets (by omega) helper).mono
    · rintro k _ ⟨hk, next, hnext, rfl⟩
      refine ⟨by omega, vs ++ [⟨data + total vs, k⟩], next, visits_snoc hvs hk, ?_, rfl, ?_, ?_⟩
      · simp [recordDescs_append, hrec, recordDescs, hnext]
      · simp
        omega
      · rw [u32_sub (descSize_le hk) (by omega)]
        simp
        omega
    · rintro stop _ ⟨-, hstop, next, hnext, rfl⟩
      refine ⟨hstop, ?_⟩
      dsimp only
      rw [hnext]
      apply recordDescs_silent hrec
      apply hs.descs i (by omega) vs hvs
  · exact ⟨by omega, [], ⟨ffs, 0, 0⟩, rfl, rfl, rfl, by simp, by simp⟩

theorem FfsData.Unset.eq {ffs : FfsData} (h : ffs.Unset) :
  { ffs with epsCount := 0, interfacesCount := 0 } = ffs
  := by
  cases ffs
  obtain ⟨rfl, rfl⟩ := h
  rfl

theorem settleSpeed_refused {helper : FfsDescHelper} {s : Heap FfsData} :
  Meets (settleSpeed helper) s (fun _ _ => True) (fun stop t => stop = .ret (-einval) ∧ t = s)
  := by
  unfold settleSpeed
  apply meets_step (run_look s)
  by_cases hu : s.priv.Unset
  · rw [if_pos hu]
    trivial
  · rw [if_neg hu]
    apply meets_guard
    · intro _
      exact ⟨rfl, rfl⟩
    intro _
    apply meets_guard
    · intro _
      exact ⟨rfl, rfl⟩
    intro _
    trivial

theorem readSpeed_refused
    (hdata : data ≤ m.length) (hmax : m.length < 2147483648)
    (hs : SpeedSilent m count data ffs) :
  Meets (readSpeed count data m.length) ⟨m, ffs⟩ (fun _ _ => True)
    (fun stop t => stop = .ret (-einval) ∧ t.priv = ffs)
  := by
  unfold readSpeed
  by_cases hc : count = 0
  · rw [if_pos hc]
    trivial
  · rw [if_neg hc]
    apply meets_bind
    apply meets_zoom
    apply meets_bind
    apply (ffsDoDescs_silent hdata hmax hs).mono
    · rintro n _ ⟨vs, helper, hvs, rfl, hrec, rfl⟩
      apply meets_step (run_look _)
      apply meets_pure
      apply meets_bind
      apply settleSpeed_refused.mono
      · intro _ _ _
        trivial
      · rintro stop t ⟨hstop, rfl⟩
        exact ⟨hstop, recordDescs_silent hrec (hs.descs count (Nat.le_refl _) vs hvs)⟩
    · intro stop t ht
      apply ht

/-- A silent speed that is accepted leaves the `ffs_data` alone. -/
theorem TakesSpeed.eq_of_silent
    {vs : List Visit} {ffs' : FfsData} (h : TakesSpeed m count vs ffs ffs')
    (hs : SpeedSilent m count data ffs)
    (hvs : visits (descSize m) count data (m.length - data) = some vs) :
  ffs' = ffs
  := by
  rcases h with ⟨-, rfl⟩ | ⟨-, hlt, ⟨hu, rfl⟩ | ⟨hu, hmatch, -, -, rfl⟩⟩
  · rfl
  · obtain ⟨has, hi⟩ := hs.settled vs hvs ⟨hlt, Or.inl hu⟩ hu
    obtain ⟨hstr, -⟩ := hs.descs count (Nat.le_refl _) vs hvs ⟨hlt, Or.inl hu⟩
    rw [has, hi, Nat.max_eq_left hstr, List.length_nil, fillAddrmap]
    apply hu.eq
  · obtain ⟨hstr, -⟩ := hs.descs count (Nat.le_refl _) vs hvs ⟨hlt, Or.inr hmatch⟩
    rw [Nat.max_eq_left hstr]

theorem readSpeed_silent
    (hdata : data ≤ m.length) (hmax : m.length < 2147483648)
    (hs : SpeedSilent m count data ffs) :
  Meets (readSpeed count data m.length) ⟨m, ffs⟩
    (fun d t => ∃ vs, visits (descSize m) count data (m.length - data) = some vs
      ∧ d = data + total vs ∧ TakesSpeed m count vs ffs ffs ∧ t = ⟨m, ffs⟩)
    (fun stop t => stop = .ret (-einval) ∧ t.priv = ffs)
  := by
  unfold Meets
  cases hrun : (readSpeed count data m.length).run ⟨m, ffs⟩ with
  | ok d t =>
      obtain ⟨vs, hvs, rfl, ffs', htake, rfl⟩ := (takesSpeed_ok hdata hmax).mp hrun
      obtain rfl := htake.eq_of_silent hs hvs
      exact ⟨vs, hvs, rfl, htake, rfl⟩
  | error e t => apply (readSpeed_refused hdata hmax hs).of_error hrun

end Speed

/-! ### Features -/

/-- No property is counted: a feature that is reached holds no property, or its first
property is refused. -/
def OsSilent (m : Bytes) (interfaces count data : Nat) : Prop :=
  ∀ i < count, ∀ fs, visits (osFeatureSize m interfaces) i data (m.length - data) = some fs →
    ∀ c, osHeader m (data + total fs) (m.length - (data + total fs)) = some (.extProp, c + 1) →
      propSize m interfaces (data + total fs) (data + total fs + usbOsDescHeaderSize)
        (m.length - (data + total fs) - usbOsDescHeaderSize) = none

theorem takeOsEntries_priv
    {m : Bytes} {es : List OsEntry} (h : ∀ e ∈ es, e.type = .extCompat) (s : Heap FfsData) :
  (takeOsEntries m es s).priv = s.priv
  := by
  induction es generalizing s with
  | nil => rfl
  | cons e es ih =>
      rw [takeOsEntries, List.foldl_cons]
      rw [show List.foldl _ _ es = takeOsEntries m es (takeOsEntry m e.type e.offset s) from rfl,
        ih (fun e he => h e (by simp [he])), h e (by simp)]
      rfl

section Feature

variable {m : Bytes} {data : Nat} {s : Heap FfsData}

theorem ffsDoSingleOsDesc_refused
    {type : OsDescType} {h count len : Nat} (hs : OsWalked m s.priv.interfacesCount data s)
    (hh : h < data) (hhm : byteAt m h = byteAt s.mem h) (hlen : data + len = m.length)
    (hmax : len < 2147483648)
    (hsilent : type = .extProp → ∀ c, count = c + 1 →
      propSize m s.priv.interfacesCount h data len = none) :
  Meets (ffsDoSingleOsDesc data len type count ffsDataDoOsDesc h) s (fun _ _ => True)
    (fun stop t => stop = .ret (-einval) ∧ t.priv = s.priv)
  := by
  unfold ffsDoSingleOsDesc
  apply meets_bind
  cases type with
  | extCompat =>
      apply (walk_meets (E := fun stop t => stop = .ret (-einval) ∧ t.priv = s.priv)
        (fun i d l t => t.priv = s.priv ∧ t.mem.length = m.length ∧ h < d ∧ d + l = m.length
          ∧ l ≤ len) ?_ ?_).mono
      · rintro ⟨d, l⟩ t ⟨-, -, -, -, hl⟩
        rw [s32_sub hl hmax, if_neg (by omega)]
        trivial
      · intro stop t ht
        apply ht
      · rintro i d l t hi ⟨hpriv, htm, hd, hl, hle⟩
        apply (ffsDataDoOsDesc_meets hd (by omega)).mono
        · rintro k t' ⟨hk, rfl⟩
          have hkl := osEntrySize_le hk
          rw [u32_sub hkl.2 (by omega)]
          refine ⟨hpriv, ?_, by omega, by omega, by omega⟩
          simpa [takeOsEntry] using htm
        · rintro stop t' ⟨-, hstop, ht'⟩
          exact ⟨hstop, ht'.trans hpriv⟩
      · exact ⟨rfl, hs.agree.1.symm, hh, hlen, Nat.le_refl len⟩
  | extProp =>
      cases count with
      | zero =>
          apply meets_pure
          rw [s32_sub (Nat.le_refl len) hmax, if_neg (by omega)]
          trivial
      | succ c =>
          have hnone := hsilent rfl c rfl
          rw [← osEntrySize, osEntrySize_congr hs.agree (fun _ => hhm)] at hnone
          apply meets_bind
          apply (ffsDataDoOsDesc_meets hh (by rw [← hs.agree.1]; omega)).mono
          · rintro k t ⟨hk, -⟩
            cases hnone.symm.trans hk
          · rintro stop t ⟨-, hstop, ht⟩
            exact ⟨hstop, ht⟩

/-- The descriptors of a feature that counts no property are compatibility descriptors. -/
theorem osFeature_extCompat
    {interfaces len : Nat} {es : List OsEntry} (hes : osFeature m interfaces data len = some es)
    (hsilent : ∀ c, osHeader m data len = some (.extProp, c + 1) →
      propSize m interfaces data (data + usbOsDescHeaderSize) (len - usbOsDescHeaderSize)
        = none) :
  ∀ e ∈ es, e.type = .extCompat
  := by
  obtain ⟨⟨type, count⟩, hf, hmap⟩ := Option.bind_eq_some_iff.mp hes
  obtain ⟨vs, hvs, rfl⟩ := Option.map_eq_some_iff.mp hmap
  intro e he
  obtain ⟨v, hv, rfl⟩ := List.mem_map.mp he
  cases type with
  | extCompat => rfl
  | extProp =>
      cases count with
      | zero =>
          obtain rfl := Option.some.inj hvs
          cases hv
      | succ c =>
          obtain ⟨k, ws, hk, -, -⟩ := visits_succ.mp hvs
          have hnone := hsilent c hf
          rw [← osEntrySize] at hnone
          cases hnone.symm.trans hk

theorem ffsDoOsDesc_silent
    {num : Nat} (hs : OsWalked m s.priv.interfacesCount data s) (hdata : data ≤ m.length)
    (hmax : m.length < 2147483648)
    (hsilent : ∀ c, osHeader m data (m.length - data) = some (.extProp, c + 1) →
      propSize m s.priv.interfacesCount data (data + usbOsDescHeaderSize)
        (m.length - data - usbOsDescHeaderSize) = none) :
  Meets (ffsDoOsDesc ffsDataDoOsDesc num data (m.length - data)) s
    (fun k t => osFeatureSize m s.priv.interfacesCount data (m.length - data) = some k
      ∧ OsWalked m s.priv.interfacesCount (data + k) t ∧ t.priv = s.priv)
    (fun stop t => stop = .ret (-einval) ∧ t.priv = s.priv)
  := by
  unfold Meets
  cases hrun : (ffsDoOsDesc ffsDataDoOsDesc num data (m.length - data)).run s with
  | ok k t =>
      obtain ⟨es, hes, rfl, rfl⟩ := (ffsDoOsDesc_ok _ hs (by omega) (by omega)).mp hrun
      refine ⟨by simp only [osFeatureSize, hes, Option.map_some], ?_,
        takeOsEntries_priv (osFeature_extCompat hes hsilent) s⟩
      apply hs.takeAll (by omega)
      intro e he
      obtain ⟨-, -, hend, hsize⟩ := mem_osFeature hes he
      have := osEntrySize_le hsize
      omega
  | error e t =>
      rw [ffsDoOsDesc_run (by rw [← hs.agree.1]; omega), ← osHeader_congr hs.agree] at hrun
      cases hf : osHeader m data (m.length - data) with
      | none =>
          rw [hf] at hrun
          cases hrun
          exact ⟨rfl, rfl⟩
      | some f =>
          obtain ⟨type, count⟩ := f
          have h11 := osHeader_le hf
          rw [hf] at hrun
          dsimp only at hrun
          rw [u32_sub h11 (by omega)] at hrun
          refine Meets.of_error (Q := fun _ _ => True)
            (E := fun stop t => stop = .ret (-einval) ∧ t.priv = s.priv) ?_ hrun
          apply meets_bind
          apply (ffsDoSingleOsDesc_refused (m := m) (hs.mono (Nat.le_add_right _ _))
            (by simp only [usbOsDescHeaderSize]; omega) (hs.agree.2 data (Nat.le_refl data))
            (by omega) (by omega) ?_).mono
          · intro _ _ _
            trivial
          · intro stop t ht
            apply ht
          · rintro rfl c rfl
            apply hsilent c hf

theorem readOsDescs_silent
    {count : Nat} {ffs : FfsData} (hdata : data ≤ m.length) (hmax : m.length < 2147483648)
    (hs : OsSilent m ffs.interfacesCount count data) :
  Meets (readOsDescs count data m.length) ⟨m, ffs⟩ (fun _ t => t.priv = ffs)
    (fun stop t => stop = .ret (-einval) ∧ t.priv = ffs)
  := by
  unfold readOsDescs
  by_cases hc : count = 0
  · rw [if_pos hc]
    apply meets_pure
    rfl
  rw [if_neg hc]
  apply meets_bind
  apply meets_bind
  apply (walk_meets (E := fun stop t => stop = .ret (-einval) ∧ t.priv = ffs)
    (fun i d l t => ∃ fs,
      visits (osFeatureSize m ffs.interfacesCount) i data (m.length - data) = some fs
        ∧ OsWalked m ffs.interfacesCount d t ∧ t.priv = ffs
        ∧ d = data + total fs ∧ l = m.length - d) ?_ ?_).mono
  · rintro ⟨d, l⟩ t ⟨fs, hfs, -, hpriv, hd, hl⟩
    have hle := total_le_of_features hdata hfs
    dsimp only at hd hl ⊢
    rw [s32_sub (by omega) (by omega), if_neg (by omega)]
    apply hpriv
  · intro stop t ht
    apply ht
  · rintro i d l t hi ⟨fs, hfs, hwalked, hpriv, rfl, rfl⟩
    have hle := total_le_of_features hdata hfs
    apply (ffsDoOsDesc_silent (by rw [hpriv]; exact hwalked) hle hmax ?_).mono
    · rintro k t' ⟨hk, hwalked', hpriv'⟩
      rw [hpriv] at hk hwalked'
      have hkl := osFeatureSize_le hk
      rw [show m.length - (data + total fs) = m.length - data - total fs by omega] at hk
      refine ⟨_, visits_snoc hfs hk, hwalked', hpriv'.trans hpriv, ?_, ?_⟩
      · simp
        omega
      · rw [u32_sub hkl.2 (by omega)]
        omega
    · rintro stop t' ⟨hstop, ht'⟩
      exact ⟨hstop, ht'.trans hpriv⟩
    · intro c hf
      rw [hpriv]
      apply hs i (by omega) fs hfs c hf
  · exact ⟨[], rfl, ⟨AgreeFrom.refl _ _, rfl⟩, rfl, by simp, by simp⟩

end Feature

/-! ### Blobs -/

/-- The stop is the return of an error code, and leaves `ffs`. -/
def Traceless (ffs : FfsData) (stop : Stop) (t : Heap FfsData) : Prop :=
  (∃ code, stop = .ret code) ∧ t.priv = ffs

section Head

variable {m : Bytes} {ffs : FfsData}

theorem readFlags_silent
    (hm : 12 ≤ m.length)
    (h : le32At m 0 = functionfsDescriptorsMagicV2 → ffs.userFlags = le32At m 8) :
  Meets readFlags ⟨m, ffs⟩ (fun r t => flagsWord m = some r ∧ t = ⟨m, ffs⟩) (Traceless ffs)
  := by
  unfold readFlags flagsWord
  apply meets_step (run_read32 (by dsimp only; omega))
  dsimp only
  by_cases h1 : le32At m 0 = functionfsDescriptorsMagic
  · rw [if_pos h1, if_pos h1]
    exact ⟨rfl, rfl⟩
  · rw [if_neg h1, if_neg h1]
    by_cases h2 : le32At m 0 = functionfsDescriptorsMagicV2
    · have hsame : { ffs with userFlags := le32At m 8 } = ffs := by rw [← h h2]
      rw [if_pos h2]
      apply meets_step (run_read32 (by dsimp only; omega))
      apply meets_step (run_update _ _)
      dsimp only
      rw [hsame]
      apply meets_guard
      · intro _
        exact ⟨⟨_, rfl⟩, rfl⟩
      · intro h3
        rw [ne_eq, not_not] at h3
        rw [if_pos ⟨h2, h3⟩]
        exact ⟨rfl, rfl⟩
    · rw [if_neg h2]
      exact ⟨⟨_, rfl⟩, rfl⟩

theorem readEventfd_silent
    {fdget : EventfdCtxFdget} {flags data : Nat}
    (hdata : hasFlag flags functionfsEventfd → data = 12)
    (h : hasFlag flags functionfsEventfd → 16 ≤ m.length →
      ffs.ffsEventfd = (fdget (s32 (le32At m 12))).toOption) :
  Meets (readEventfd fdget flags data m.length) ⟨m, ffs⟩
    (fun d t => eventfdWord m flags data = some d ∧ noteEventfd fdget m flags ffs = some ffs
      ∧ t = ⟨m, ffs⟩) (Traceless ffs)
  := by
  unfold readEventfd eventfdWord noteEventfd
  by_cases hf : hasFlag flags functionfsEventfd
  · obtain rfl := hdata hf
    simp only [hf, if_true]
    by_cases h4 : m.length - 12 < 4
    · rw [if_pos h4]
      exact ⟨⟨_, rfl⟩, rfl⟩
    · rw [if_neg h4, if_neg h4]
      apply meets_step (run_read32 (by dsimp only; omega))
      dsimp only
      have hsame := h hf (by omega)
      cases hget : fdget (s32 (le32At m 12)) with
      | error err =>
          rw [hget] at hsame
          refine ⟨⟨_, rfl⟩, ?_⟩
          change { ffs with ffsEventfd := none } = ffs
          rw [← show ffs.ffsEventfd = none from hsame]
      | ok ctx =>
          rw [hget] at hsame
          have hctx : { ffs with ffsEventfd := some ctx } = ffs := by
            rw [← show ffs.ffsEventfd = some ctx from hsame]
          refine ⟨rfl, ?_, ?_⟩
          · dsimp only
            rw [hctx]
          · change (⟨m, { ffs with ffsEventfd := some ctx }⟩ : Heap FfsData) = _
            rw [hctx]
  · simp only [hf]
    exact ⟨rfl, rfl, rfl⟩

theorem readCount_silent {flag flags data : Nat} :
  Meets (readCount flag flags data m.length) ⟨m, ffs⟩
    (fun r t => countWord m flag flags data = some r ∧ t = ⟨m, ffs⟩) (Traceless ffs)
  := by
  unfold Meets
  cases hrun : (readCount flag flags data m.length).run ⟨m, ffs⟩ with
  | ok r t => exact readCount_ok.mp hrun
  | error e t =>
      unfold readCount at hrun
      split_ifs at hrun with hf h4
      · cases hrun
        exact ⟨⟨_, rfl⟩, rfl⟩
      · rw [EStateM.run_bind, run_read32 (by dsimp only; omega)] at hrun
        cases hrun
      · cases hrun

end Head

/-- A speed of `count` descriptors at `data` consists of `vs`, and is accepted in `ffs`
without a change. -/
def SpeedAt (m : Bytes) (count data : Nat) (vs : List Visit) (ffs : FfsData) : Prop :=
  visits (descSize m) count data (m.length - data) = some vs ∧ TakesSpeed m count vs ffs ffs

/-- Every part of the body that is reached records nothing new. -/
def BodySilent (m : Bytes) (hd : DescHeader) (ffs : FfsData) : Prop :=
  SpeedSilent m hd.fsCount hd.rawDescs ffs
    ∧ ∀ fs, SpeedAt m hd.fsCount hd.rawDescs fs ffs →
      SpeedSilent m hd.hsCount (hd.rawDescs + total fs) ffs
        ∧ ∀ hs, SpeedAt m hd.hsCount (hd.rawDescs + total fs) hs ffs →
          SpeedSilent m hd.ssCount (hd.rawDescs + total fs + total hs) ffs
            ∧ ∀ ss, SpeedAt m hd.ssCount (hd.rawDescs + total fs + total hs) ss ffs →
              OsSilent m ffs.interfacesCount hd.osDescsCount
                (hd.rawDescs + total fs + total hs + total ss)

/-- Every part of the blob that is reached records nothing new in `ffs`. -/
structure Silent (fdget : EventfdCtxFdget) (m : Bytes) (ffs : FfsData) : Prop where
  flags : le32At m 4 = m.length → le32At m 0 = functionfsDescriptorsMagicV2 →
    ffs.userFlags = le32At m 8
  eventfd : le32At m 4 = m.length → ∀ flags d, flagsWord m = some (flags, d) →
    hasFlag flags functionfsEventfd → 16 ≤ m.length →
      ffs.ffsEventfd = (fdget (s32 (le32At m 12))).toOption
  body : ∀ hd, descHeader m = some hd → noteEventfd fdget m hd.flags ffs = some ffs →
    BodySilent m hd ffs

/-- A silent blob that is rejected leaves the `ffs_data` alone. -/
theorem ffsDataGotDescs_silent
    {fdget : EventfdCtxFdget} {m : Bytes} {ffs : FfsData} (hm : 12 ≤ m.length)
    (hmax : m.length < 2147483648) (hs : Silent fdget m ffs) :
  Meets (ffsDataGotDescs fdget m.length) ⟨m, ffs⟩ (fun _ _ => True) (Traceless ffs)
  := by
  have hrefused : ∀ stop t, stop = .ret (-einval) ∧ t.priv = ffs → Traceless ffs stop t := by
    rintro _ t ⟨rfl, ht⟩
    exact ⟨⟨_, rfl⟩, ht⟩
  have hsame : ∀ stop t, Traceless ffs stop t → Traceless ffs stop t := fun _ _ h => h
  unfold ffsDataGotDescs
  apply meets_step (run_read32 (by dsimp only; omega))
  apply meets_guard
  · intro _
    exact ⟨⟨_, rfl⟩, rfl⟩
  intro hlen
  rw [ne_eq, not_not] at hlen
  apply meets_bind
  apply (readFlags_silent hm (hs.flags hlen)).mono _ hsame
  rintro ⟨flags, d⟩ _ ⟨hflags, rfl⟩
  apply meets_bind
  apply (readEventfd_silent (flagsWord_position hflags).2
    (hs.eventfd hlen flags d hflags)).mono _ hsame
  rintro d₀ _ ⟨hev, hnote, rfl⟩
  apply meets_bind
  apply readCount_silent.mono _ hsame
  rintro ⟨fsCount, d₁⟩ _ ⟨hfs, rfl⟩
  apply meets_bind
  apply readCount_silent.mono _ hsame
  rintro ⟨hsCount, d₂⟩ _ ⟨hhs, rfl⟩
  apply meets_bind
  apply readCount_silent.mono _ hsame
  rintro ⟨ssCount, d₃⟩ _ ⟨hss, rfl⟩
  apply meets_bind
  apply readCount_silent.mono _ hsame
  rintro ⟨osDescsCount, rawDescs⟩ _ ⟨hos, rfl⟩
  have hheader : descHeader m = some ⟨flags, fsCount, hsCount, ssCount, osDescsCount, rawDescs⟩ :=
    descHeader_eq_some.mpr ⟨hlen, d, d₀, d₁, d₂, d₃, hflags, hev, hfs, hhs, hss, hos⟩
  have hraw : rawDescs ≤ m.length := descHeader_rawDescs_le hm hheader
  obtain ⟨hsfs, hrest⟩ := hs.body _ hheader hnote
  apply meets_bind
  apply (readSpeed_silent hraw hmax hsfs).mono _ hrefused
  rintro _ _ ⟨fs, hvs, rfl, htake, rfl⟩
  obtain ⟨hshs, hrest⟩ := hrest fs ⟨hvs, htake⟩
  have hraw := total_le_of_descs hraw hvs
  apply meets_bind
  apply (readSpeed_silent hraw hmax hshs).mono _ hrefused
  rintro _ _ ⟨hs, hvs, rfl, htake, rfl⟩
  obtain ⟨hsss, hrest⟩ := hrest hs ⟨hvs, htake⟩
  have hraw := total_le_of_descs hraw hvs
  apply meets_bind
  apply (readSpeed_silent hraw hmax hsss).mono _ hrefused
  rintro _ _ ⟨ss, hvs, rfl, htake, rfl⟩
  have hsos := hrest ss ⟨hvs, htake⟩
  have hraw := total_le_of_descs hraw hvs
  apply meets_bind
  apply (readOsDescs_silent hraw hmax hsos).mono _ hrefused
  intro data t ht
  apply meets_guard
  · intro _
    exact ⟨⟨_, rfl⟩, ht⟩
  · intro _
    trivial

/-! ### Runs of rejected writes -/

/-- A write that is rejected, and that meets `P` in the state it is made in. -/
def RejectedWrite (P : DescWrite → FfsData → Prop) (ffs : FfsData) (w : DescWrite)
    (ffs' : FfsData) : Prop :=
  P w ffs ∧ ∃ code t, w.outcome ffs = .error (.ret code) t ∧ t.priv = ffs'

/-- A run of rejected writes that all meet `P`. -/
abbrev RejectedWrites (P : DescWrite → FfsData → Prop) :
    FfsData → List DescWrite → FfsData → Prop :=
  Run (RejectedWrite P)

/-- The write fits, and every part of its blob that is reached records nothing new. -/
def DescWrite.Silent (w : DescWrite) (ffs : FfsData) : Prop :=
  w.Fits ∧ Ffs.Silent w.fdget w.blob ffs

theorem RejectedWrite.eq_of_silent
    {ffs ffs' : FfsData} {w : DescWrite} (h : RejectedWrite DescWrite.Silent ffs w ffs') :
  ffs' = ffs
  := by
  obtain ⟨⟨⟨hm, hmax⟩, hs⟩, code, t, hw, rfl⟩ := h
  apply ((ffsDataGotDescs_silent (by omega) hmax hs).of_error hw).2

/-- A run of rejected writes that record nothing new leaves no trace: the `ffs_data` is as
before, and so is the outcome of every write after the run. -/
theorem rejectedWrites_leave_no_trace
    {ffs ffs' : FfsData} {ws : List DescWrite}
    (h : RejectedWrites DescWrite.Silent ffs ws ffs') :
  ffs' = ffs ∧ ∀ B : DescWrite, B.outcome ffs' = B.outcome ffs
  := by
  have hsame : ffs' = ffs := by
    have hstep : ∀ s w t, s = ffs → RejectedWrite DescWrite.Silent s w t → t = ffs := by
      rintro s w t rfl hw
      apply hw.eq_of_silent
    apply h.keeps _ hstep rfl
  constructor
  · apply hsame
  · intro B
    rw [hsame]

/-- The write of a blob of version 1 with one full-speed descriptor of a type a function
cannot have. -/
def deviceWrite : DescWrite :=
  ⟨fun _ => .error (-einval), [1, 0, 0, 0, 25, 0, 0, 0, 1, 0, 0, 0, 0, 0, 0, 0]
    ++ [9, 1, 0, 0, 0, 0, 0, 0, 0]⟩

theorem deviceWrite_silent :
  deviceWrite.Silent ffsDataNew
  := by
  have hheader : descHeader deviceWrite.blob = some ⟨3, 1, 0, 0, 0, 16⟩ := by decide
  have hnone : visits (descSize deviceWrite.blob) 1 16 9 = none := by decide
  have hflags : flagsWord deviceWrite.blob = some (3, 8) := by decide
  constructor
  · constructor
    · decide
    · decide
  constructor
  case right.flags =>
    intro _ h
    revert h
    decide
  case right.eventfd =>
    intro _ flags d h hf
    obtain ⟨rfl, -⟩ := Prod.mk.inj (Option.some.inj (h.symm.trans hflags))
    revert hf
    decide
  case right.body =>
    intro hd h _
    obtain rfl := Option.some.inj (h.symm.trans hheader)
    constructor
    · constructor
      case left.settled =>
        intro vs hvs
        cases hvs.symm.trans hnone
      intro i hi vs hvs _
      cases i with
      | zero =>
          obtain rfl := Option.some.inj hvs
          exact ⟨Nat.zero_le _, trivial⟩
      | succ i =>
          obtain rfl := Nat.le_zero.mp (Nat.succ_le_succ_iff.mp hi)
          cases hvs.symm.trans hnone
    · intro fs hfs
      cases hfs.1.symm.trans hnone

theorem deviceWrite_leaves_no_trace :
  ∃ ffs', RejectedWrites DescWrite.Silent ffsDataNew [deviceWrite] ffs'
    ∧ ffs' = ffsDataNew ∧ ∀ B : DescWrite, B.outcome ffs' = B.outcome ffsDataNew
  := by
  have hw : deviceWrite.outcome ffsDataNew
    = .error (.ret (-einval)) ⟨deviceWrite.blob, ffsDataNew⟩ := rfl
  have hrun : RejectedWrites DescWrite.Silent ffsDataNew [deviceWrite] ffsDataNew :=
    .cons ⟨deviceWrite_silent, _, _, hw, rfl⟩ (.nil _)
  exact ⟨_, hrun, rejectedWrites_leave_no_trace hrun⟩

/-- A blob of version 1 with one full-speed interface, number `n`, and the bytes `rest`
after it. -/
def interfaceBlob (n : UInt8) (rest : Bytes) : Bytes :=
  [1, 0, 0, 0, 25 + UInt8.ofNat rest.length, 0, 0, 0, 1, 0, 0, 0, 0, 0, 0, 0]
    ++ [9, 4, n, 0, 0, 0, 0, 0, 0] ++ rest

/-- The write of such a blob. -/
def interfaceWrite (n : UInt8) (rest : Bytes) : DescWrite :=
  ⟨fun _ => .error (-einval), interfaceBlob n rest⟩

/-- A blob with one interface is rejected for the byte after its descriptors, and leaves
the number of interfaces; a blob with two interfaces is then rejected, which is accepted
if it is written first. -/
theorem rejected_write_leaves_trace :
  ∃ ffs', RejectedWrites (fun w _ => w.Fits) ffsDataNew [interfaceWrite 0 [0]] ffs'
    ∧ ffs'.interfacesCount ≠ ffsDataNew.interfacesCount
    ∧ (∃ t, (interfaceWrite 1 []).outcome ffsDataNew = .ok () t)
    ∧ ∃ t, (interfaceWrite 1 []).outcome ffs' = .error (.ret (-einval)) t
  := by
  have hw : (interfaceWrite 0 [0]).outcome ffsDataNew
    = .error (.ret (-einval)) ⟨interfaceBlob 0 [0], { ffsDataNew with interfacesCount := 1 }⟩ := rfl
  use { ffsDataNew with interfacesCount := 1 }
  refine ⟨.cons ⟨?_, _, _, hw, rfl⟩ (.nil _), by decide, ⟨_, rfl⟩, ⟨_, rfl⟩⟩
  constructor
  · decide
  · decide

end Ffs
