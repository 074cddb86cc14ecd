import KhdfLinux.Hdf.Base
import KhdfLinux.Lib.Exec
import Mathlib.Data.Nat.Find

/-!
# The search for an SDIO function

`LinuxSdioSearchFunc` looks through the cards of all slots for a function, and `LinuxSdioFindFunc`
stores what it finds.  On each card it looks at one entry more than the card has functions.
`search_finds_iff`: it finds the first function that is asked for, and looks at nothing else than
functions, exactly if the first card has such a function, or there are no cards.
-/

namespace Sdio

open Exec

/-- `struct sdio_func`. -/
structure SdioFunc where
  num : UInt32
  vendor : UInt16
  device : UInt16
  deriving DecidableEq, Repr

/-- `SDIO_MAX_FUNCS`. -/
def sdioMaxFuncs : Nat := 7

/-- `MMC_SLOT_NUM`. -/
def mmcSlotNum : Nat := 3

/-- `struct mmc_card`, with pointers to its functions. -/
structure MmcCard (P : Type) where
  sdioFuncs : Nat
  sdioFunc : Fin sdioMaxFuncs → Option P
  le : sdioFuncs ≤ sdioMaxFuncs

/-- `struct mmc_host`. -/
structure MmcHost (P : Type) where
  card : Option (MmcCard P)

/-- `struct SdioFunctionConfig`. -/
structure SdioFunctionConfig where
  funcNr : UInt32
  vendorId : UInt16
  deviceId : UInt16
  deriving DecidableEq, Repr

/-- `struct SdioDevice`, with the pointer in `sd.mmc.priv`. -/
structure SdioDevice (P : Type) where
  priv : Option P

/-- The entries that were read, each by its slot and its index. -/
abbrev Reads := List (Nat × Nat)

/-- What is there: the host of each slot, and the functions that the pointers refer to. -/
structure Slots (P : Type) where
  getMmcHost : Nat → Option (MmcHost P)
  func : P → SdioFunc

section Search

variable {P : Type}

/-- The entry `j` of `sdio_func`, which is null where there is none. -/
def MmcCard.entry (card : MmcCard P) (j : Nat) : Option P :=
  if h : j < sdioMaxFuncs then card.sdioFunc ⟨j, h⟩ else none

/-- Read the entry `j` of the card in the slot `i`. -/
def readEntry (i : Nat) (card : MmcCard P) (j : Nat) : Exec Reads (Option P) := do
  modify fun reads => reads ++ [(i, j)]
  if j < sdioMaxFuncs then pure (card.entry j) else stop (.fault .outOfBounds)

/-- The function is the one that is asked for. -/
def SdioFunc.Matches (func : SdioFunc) (config : SdioFunctionConfig) : Prop :=
  func.num = config.funcNr ∧ func.vendor = config.vendorId ∧ func.device = config.deviceId

instance (func : SdioFunc) (config : SdioFunctionConfig) : Decidable (func.Matches config) := by
  unfold SdioFunc.Matches
  infer_instance

namespace Slots

variable (slots : Slots P) (config : SdioFunctionConfig)

/-- The loop over the entries of the card in the slot `i`, from `j` on, with `n` turns left. -/
def searchEntries (i : Nat) (card : MmcCard P) : (n j : Nat) → Exec Reads (Option P)
  | 0, _ => pure none
  | n + 1, j => do
      match ← readEntry i card j with
      | none => searchEntries i card n (j + 1)
      | some func =>
          if (slots.func func).Matches config then pure (some func)
          else searchEntries i card n (j + 1)

/-- The loop over the slots, from `i` on, with `n` turns left. -/
def searchSlots : (n i : Nat) → Exec Reads (Option P)
  | 0, _ => pure none
  | n + 1, i =>
      match slots.getMmcHost i with
      | none => searchSlots n (i + 1)
      | some host =>
          match host.card with
          | none => searchSlots n (i + 1)
          | some card => do
              -- the last turn is that of `j = card->sdio_funcs`
              match ← searchEntries slots config i card (card.sdioFuncs + 1) 0 with
              | some func => pure (some func)
              | none => searchSlots n (i + 1)

/-- `LinuxSdioSearchFunc`. -/
def linuxSdioSearchFunc : Exec Reads (Option P) := slots.searchSlots config mmcSlotNum 0

/-- `LinuxSdioFindFunc`. -/
def linuxSdioFindFunc (dev : Option (SdioDevice P)) (configData : Option SdioFunctionConfig) :
    Exec Reads (Int × Option (SdioDevice P)) :=
  match dev, configData with
  | some dev, some config => do
      let priv ← slots.linuxSdioSearchFunc config
      if priv.isNone then pure (Hdf.errNotSupport, some { dev with priv })
      else pure (Hdf.success, some { dev with priv })
  | _, _ => pure (Hdf.errInvalidObject, dev)

/-! ### What is to be found -/

/-- The card in a slot. -/
def card (i : Nat) : Option (MmcCard P) := (slots.getMmcHost i).bind MmcHost.card

/-- The function of the card in slot `i`, at the index `j`, is one that is asked for. -/
structure At (i j : Nat) (p : P) : Prop where
  slot : i < mmcSlotNum
  present : ∃ card, slots.card i = some card ∧ j < card.sdioFuncs ∧ card.entry j = some p
  wanted : (slots.func p).Matches config

/-- The search finds a function exactly if there is one that is asked for, and then the first one;
it reads functions of the cards only, and what it finds is stored. -/
structure Finds : Prop where
  search : ∃ r reads, (slots.linuxSdioSearchFunc config).run [] = .ok r reads
    ∧ (r.isSome ↔ ∃ i j p, slots.At config i j p)
    ∧ (∀ p, r = some p → ∃ i j, slots.At config i j p
      ∧ ∀ i' j' p', slots.At config i' j' p' → i < i' ∨ i = i' ∧ j ≤ j')
    ∧ (∀ e ∈ reads, ∃ card, slots.card e.1 = some card ∧ e.2 < card.sdioFuncs)
    ∧ ∀ dev, (slots.linuxSdioFindFunc (some dev) (some config)).run []
      = .ok (if r.isSome then Hdf.success else Hdf.errNotSupport, some ⟨r⟩) reads

/-- The first card, if there is one, has a function that is asked for. -/
def FirstCardHas : Prop :=
  ∀ i < mmcSlotNum, (slots.card i).isSome → (∀ k < i, slots.card k = none) →
    ∃ j p, slots.At config i j p

end Slots

/-! ### What is passed over -/

variable {slots : Slots P} {config : SdioFunctionConfig} {card : MmcCard P} {i j m n : Nat}
  {reads : Reads} {e : Nat × Nat}

theorem run_readEntry (hj : j < sdioMaxFuncs) :
  (readEntry i card j).run reads = .ok (card.entry j) (reads ++ [(i, j)])
  := by
  unfold readEntry
  rw [if_pos hj]
  rfl

/-- The entry is not that of a function that is asked for. -/
def Slots.Passed (slots : Slots P) (config : SdioFunctionConfig) (card : MmcCard P) (j : Nat) :
    Prop :=
  ∀ p, card.entry j = some p → ¬(slots.func p).Matches config

/-- Entries that are not those of functions asked for are passed over. -/
theorem Slots.searchEntries_passed (hj : j + m ≤ sdioMaxFuncs)
    (hpassed : ∀ k, j ≤ k → k < j + m → slots.Passed config card k) :
  (slots.searchEntries config i card (m + n) j).run reads
    = (slots.searchEntries config i card n (j + m)).run
      (reads ++ (List.range' j m).map (Prod.mk i))
  := by
  induction m generalizing j reads with
  | zero => rw [Nat.zero_add, List.range'_zero, List.map_nil, List.append_nil, Nat.add_zero]
  | succ m ih =>
      have hrest : (slots.searchEntries config i card (m + n) (j + 1)).run (reads ++ [(i, j)])
          = (slots.searchEntries config i card n (j + (m + 1))).run
            (reads ++ (List.range' j (m + 1)).map (Prod.mk i)) := by
        rw [ih (by omega) fun k hk hlt => hpassed k (by omega) (by omega), List.range'_succ,
          List.map_cons, List.append_assoc, List.singleton_append, Nat.add_right_comm j 1 m,
          Nat.add_assoc]
      rw [← hrest, Nat.add_right_comm m 1 n]
      rw [searchEntries, EStateM.run_bind, run_readEntry (by omega)]
      cases hentry : card.entry j with
      | none => rfl
      | some p =>
          dsimp only
          rw [if_neg (hpassed j (Nat.le_refl j) (by omega) p hentry)]

/-- The first function that is asked for is found. -/
theorem Slots.searchEntries_found {p : P} (hj : m < sdioMaxFuncs) (hm : m < n)
    (hpassed : ∀ k < m, slots.Passed config card k) (hentry : card.entry m = some p)
    (hmatches : (slots.func p).Matches config) :
  (slots.searchEntries config i card n 0).run reads
    = .ok (some p) (reads ++ (List.range (m + 1)).map (Prod.mk i))
  := by
  obtain ⟨n, rfl⟩ := Nat.exists_eq_add_of_lt hm
  rw [Nat.add_assoc, searchEntries_passed (by omega) fun k _ hk => hpassed k (by omega),
    Nat.zero_add]
  unfold searchEntries
  rw [EStateM.run_bind, run_readEntry hj, hentry]
  dsimp only
  rw [if_pos hmatches, List.range_succ, List.map_append, ← List.append_assoc, List.range_eq_range']
  rfl

/-- Slots without a card are passed over. -/
theorem Slots.searchSlots_empty (slots : Slots P) (config : SdioFunctionConfig)
    (hempty : ∀ k, i ≤ k → k < i + m → slots.card k = none) :
  slots.searchSlots config (m + n) i = slots.searchSlots config n (i + m)
  := by
  induction m generalizing i with
  | zero => rw [Nat.zero_add, Nat.add_zero]
  | succ m ih =>
      have hrest := ih (i := i + 1) fun k hk hlt => hempty k (by omega) (by omega)
      have hnone := hempty i (Nat.le_refl i) (by omega)
      rw [Nat.add_right_comm m 1 n, ← Nat.add_assoc i m 1, Nat.add_right_comm i m 1, ← hrest]
      unfold Slots.card at hnone
      conv_lhs => unfold searchSlots
      cases hhost : slots.getMmcHost i with
      | none => rfl
      | some host =>
          rw [hhost] at hnone
          dsimp only
          rw [show host.card = none from hnone]

/-! ### What is read -/

theorem preserves_readEntry (e : Nat × Nat) (i j : Nat) (card : MmcCard P) :
  Preserves (fun reads => e ∈ reads) (readEntry i card j)
  := by
  have hnote : Preserves (fun reads : Reads => e ∈ reads)
      (modify fun reads => reads ++ [(i, j)]) :=
    fun reads he => List.mem_append_left _ he
  exact hnote.bind fun _ => preserves_ite (preserves_pure _) (preserves_stop _)

theorem Slots.preserves_searchEntries (e : Nat × Nat) (i n j : Nat) (card : MmcCard P) :
  Preserves (fun reads => e ∈ reads) (slots.searchEntries config i card n j)
  := by
  induction n generalizing j with
  | zero => exact preserves_pure _
  | succ n ih =>
      refine (preserves_readEntry e i j card).bind fun p => ?_
      cases p with
      | none => exact ih _
      | some p => exact preserves_ite (preserves_pure _) (ih _)

theorem Slots.preserves_searchSlots (e : Nat × Nat) (n i : Nat) :
  Preserves (fun reads => e ∈ reads) (slots.searchSlots config n i)
  := by
  induction n generalizing i with
  | zero => exact preserves_pure _
  | succ n ih =>
      unfold searchSlots
      cases slots.getMmcHost i with
      | none => exact ih _
      | some host =>
          dsimp only
          cases host.card with
          | none => exact ih _
          | some card =>
              dsimp only
              refine (preserves_searchEntries e i _ 0 card).bind fun p => ?_
              cases p with
              | none => exact ih _
              | some p => exact preserves_pure _

/-- On a card that has no function that is asked for, the entry behind the functions is read. -/
theorem Slots.searchEntries_behind (hpassed : ∀ k < card.sdioFuncs, slots.Passed config card k) :
  (slots.searchEntries config i card (card.sdioFuncs + 1) 0).Meets reads
    (fun _ reads' => (i, card.sdioFuncs) ∈ reads') fun _ _ => True
  := by
  have hle := card.le
  unfold Meets
  rw [searchEntries_passed (by omega) fun k _ hk => hpassed k (by omega), Nat.zero_add]
  by_cases hlt : card.sdioFuncs < sdioMaxFuncs
  · refine meets_step (run_readEntry hlt) ?_
    have hmem : (i, card.sdioFuncs) ∈ reads ++ (List.range' 0 card.sdioFuncs).map (Prod.mk i)
        ++ [(i, card.sdioFuncs)] := List.mem_append_right _ (List.mem_singleton_self _)
    cases card.entry card.sdioFuncs with
    | none => exact hmem
    | some p =>
        dsimp only
        by_cases hmatches : (slots.func p).Matches config
        · rw [if_pos hmatches]
          exact meets_pure hmem
        · rw [if_neg hmatches]
          exact meets_pure hmem
  · refine meets_bind ?_
    unfold readEntry
    refine meets_step rfl ?_
    rw [if_neg hlt]
    exact meets_stop trivial

/-! ### The first card -/

theorem Slots.card_eq (h : slots.card i = some card) :
  slots.getMmcHost i = some ⟨some card⟩
  := by
  obtain ⟨⟨card'⟩, hhost, hcard⟩ := Option.bind_eq_some_iff.mp h
  obtain rfl : card' = some card := hcard
  exact hhost

/-- The search comes to the first card. -/
theorem Slots.linuxSdioSearchFunc_eq (config : SdioFunctionConfig) (hi : i < mmcSlotNum)
    (hcard : slots.card i = some card) (hempty : ∀ k < i, slots.card k = none) :
  ∃ n, slots.linuxSdioSearchFunc config
    = slots.searchEntries config i card (card.sdioFuncs + 1) 0 >>= fun
      | some func => pure (some func)
      | none => slots.searchSlots config n (i + 1)
  := by
  obtain ⟨n, hn⟩ := Nat.exists_eq_add_of_lt hi
  use n
  unfold linuxSdioSearchFunc
  rw [hn, Nat.add_assoc, slots.searchSlots_empty config fun k _ hk => hempty k (by omega),
    Nat.zero_add, searchSlots, card_eq hcard]

theorem Slots.At.of_entry {p : P} (hi : i < mmcSlotNum) (hcard : slots.card i = some card)
    (hj : j < card.sdioFuncs) (hentry : card.entry j = some p)
    (hmatches : (slots.func p).Matches config) :
  slots.At config i j p
  := ⟨hi, ⟨card, hcard, hj, hentry⟩, hmatches⟩

/-- What is stored is what was found. -/
theorem Slots.linuxSdioFindFunc_ok {r : Option P} {reads' : Reads}
    (h : (slots.linuxSdioSearchFunc config).run reads = .ok r reads') (dev : SdioDevice P) :
  (slots.linuxSdioFindFunc (some dev) (some config)).run reads
    = .ok (if r.isSome then Hdf.success else Hdf.errNotSupport, some ⟨r⟩) reads'
  := by
  unfold linuxSdioFindFunc
  dsimp only
  rw [EStateM.run_bind, h]
  cases r with
  | none => rfl
  | some p => rfl

/-- Without a card, nothing is found or read. -/
theorem Slots.finds_of_empty (hempty : ∀ i < mmcSlotNum, slots.card i = none) :
  slots.Finds config
  := by
  have hrun : (slots.linuxSdioSearchFunc config).run [] = .ok none [] := by
    have hslots : slots.searchSlots config (mmcSlotNum + 0) 0 = _ :=
      slots.searchSlots_empty config fun k _ hk => hempty k (by omega)
    unfold linuxSdioSearchFunc
    rw [← Nat.add_zero mmcSlotNum, hslots]
    rfl
  refine ⟨none, [], hrun, ?_, nofun, nofun, linuxSdioFindFunc_ok hrun⟩
  refine iff_of_false (by simp) ?_
  rintro ⟨i, j, p, hi, ⟨card, hcard, -⟩, -⟩
  rw [hempty i hi] at hcard
  cases hcard

/-- If the first card has a function that is asked for, its first one is found. -/
theorem Slots.finds_of_first (hi : i < mmcSlotNum) (hcard : slots.card i = some card)
    (hempty : ∀ k < i, slots.card k = none) (hhas : ∃ j p, slots.At config i j p) :
  slots.Finds config
  := by
  classical
  have hmin : ∀ k < Nat.find hhas, ¬∃ p, slots.At config i k p := fun _ => Nat.find_min hhas
  obtain ⟨p, hat⟩ := Nat.find_spec hhas
  generalize Nat.find hhas = j at hmin hat
  obtain ⟨-, ⟨card', hcard', hj, hentry⟩, hmatches⟩ := hat
  obtain rfl : card = card' := Option.some.inj (hcard.symm.trans hcard')
  have hle := card.le
  have hpassed : ∀ k < j, slots.Passed config card k := fun k hk q hq hwanted =>
    hmin k hk ⟨q, At.of_entry hi hcard (by omega) hq hwanted⟩
  have hrun : (slots.linuxSdioSearchFunc config).run []
      = .ok (some p) ((List.range (j + 1)).map (Prod.mk i)) := by
    obtain ⟨n, heq⟩ := linuxSdioSearchFunc_eq config hi hcard hempty
    rw [heq, EStateM.run_bind, searchEntries_found (by omega) (by omega) hpassed hentry hmatches]
    rfl
  have hat : slots.At config i j p := At.of_entry hi hcard hj hentry hmatches
  refine ⟨some p, _, hrun, iff_of_true rfl ⟨i, j, p, hat⟩, ?_, ?_, linuxSdioFindFunc_ok hrun⟩
  · rintro q hq
    obtain rfl : p = q := Option.some.inj hq
    refine ⟨i, j, hat, ?_⟩
    rintro i' j' p' ⟨hi', ⟨card', hcard', hj', hentry'⟩, hmatches'⟩
    obtain hlt | rfl | hgt := Nat.lt_trichotomy i i'
    · exact .inl hlt
    · refine .inr ⟨rfl, Nat.le_of_not_lt fun hlt => ?_⟩
      obtain rfl : card = card' := Option.some.inj (hcard.symm.trans hcard')
      exact hpassed j' hlt p' hentry' hmatches'
    · rw [hempty i' hgt] at hcard'
      cases hcard'
  · intro e he
    obtain ⟨k, hk, rfl⟩ := List.mem_map.mp he
    have hlt := List.mem_range.mp hk
    exact ⟨card, hcard, by omega⟩

/-- If the first card has no function that is asked for, an entry is read that is not one of its
functions, or that is not there. -/
theorem Slots.has_of_finds (h : slots.Finds config) (hi : i < mmcSlotNum)
    (hcard : slots.card i = some card) (hempty : ∀ k < i, slots.card k = none) :
  ∃ j p, slots.At config i j p
  := by
  by_contra hno
  have hpassed : ∀ k < card.sdioFuncs, slots.Passed config card k := fun k hk p hentry hmatches =>
    hno ⟨k, p, At.of_entry hi hcard hk hentry hmatches⟩
  obtain ⟨n, heq⟩ := linuxSdioSearchFunc_eq config hi hcard hempty
  have hread : (slots.linuxSdioSearchFunc config).Meets []
      (fun _ reads => (i, card.sdioFuncs) ∈ reads) fun _ _ => True := by
    rw [heq]
    refine meets_bind ((searchEntries_behind hpassed).mono ?_ fun _ _ he => he)
    intro r reads hmem
    cases r with
    | none =>
        exact (preserves_searchSlots _ n (i + 1) reads hmem).mono (fun _ _ he => he)
          fun _ _ _ => trivial
    | some p => exact meets_pure hmem
  obtain ⟨r, reads, hrun, -, -, hvalid, -⟩ := h.search
  obtain ⟨card', hcard', hlt⟩ := hvalid _ (hread.of_ok hrun)
  obtain rfl : card = card' := Option.some.inj (hcard.symm.trans hcard')
  exact absurd hlt (Nat.lt_irrefl _)

/-- The search finds the first function that is asked for, reads functions only, and what it finds
is stored, exactly if the first card has such a function, or there are no cards. -/
theorem search_finds_iff (slots : Slots P) (config : SdioFunctionConfig) :
  slots.Finds config ↔ slots.FirstCardHas config
  := by
  constructor
  · intro h i hi hsome hempty
    obtain ⟨card, hcard⟩ := Option.isSome_iff_exists.mp hsome
    exact Slots.has_of_finds h hi hcard hempty
  · intro h
    by_cases hany : ∃ i, i < mmcSlotNum ∧ (slots.card i).isSome
    · classical
      have hmin : ∀ k < Nat.find hany, ¬(k < mmcSlotNum ∧ (slots.card k).isSome) :=
        fun _ => Nat.find_min hany
      obtain ⟨hi, hsome⟩ := Nat.find_spec hany
      generalize Nat.find hany = i at hmin hi hsome
      have hempty : ∀ k < i, slots.card k = none := by
        intro k hk
        rw [← Option.not_isSome_iff_eq_none]
        exact fun hk' => hmin k hk ⟨by omega, hk'⟩
      obtain ⟨card, hcard⟩ := Option.isSome_iff_exists.mp hsome
      exact Slots.finds_of_first hi hcard hempty (h i hi hsome hempty)
    · apply Slots.finds_of_empty
      intro i hi
      rw [← Option.not_isSome_iff_eq_none]
      exact fun hsome => hany ⟨i, hi, hsome⟩

/-- A card in the first slot, with seven functions of one vendor, which have the numbers from one
on. -/
def fullSlots : Slots (Fin 7) where
  getMmcHost i := if i = 0 then some ⟨some ⟨7, some, Nat.le_refl 7⟩⟩ else none
  func p := ⟨UInt32.ofNat (p.val + 1), 0x12d1, 1⟩

/-- A search for a function that is not there reads behind the entries of a card that uses all of
them. -/
theorem search_reads_behind :
  stopOf ((fullSlots.linuxSdioSearchFunc ⟨8, 0x12d1, 1⟩).run []) = some (.fault .outOfBounds)
    ∧ ¬fullSlots.Finds ⟨8, 0x12d1, 1⟩
  := by
  have hstop : stopOf ((fullSlots.linuxSdioSearchFunc ⟨8, 0x12d1, 1⟩).run [])
      = some (.fault .outOfBounds) := by
    decide +kernel
  refine ⟨hstop, ?_⟩
  rintro ⟨r, reads, hrun, -⟩
  rw [hrun] at hstop
  cases hstop

end Search

end Sdio
