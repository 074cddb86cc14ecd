import KhdfLinux.Lib.Run
import KhdfLinux.Spi.Adapter

/-!
# References to the devices of the SPI

An open takes a reference to the device it finds, a close puts the one of the device of the node,
which stays bound, and a release frees the nodes.  `referenced_iff`: over any calls, the driver
holds one reference to each device that is open and none to the others, and uses only devices it
holds a reference to, exactly as long as an open finds a device that is not open, the node that a
call reaches is bound to an open device, which for a close is that of the current chip select, and
the driver is released only when no device is open.
-/

namespace Spi

namespace State

variable (bus : List SpiDevice) (s : State)

/-- One reference is held to each device that is open and none to the others, and one was held to
each device that was used. -/
structure Referenced : Prop where
  refs : ∀ i, s.refs i = if s.isOpen i then 1 else 0
  uses : ∀ u ∈ s.uses, 0 < u.refs

/-- The device that an open finds is not open, the device that a call uses is, for a close it is the
one of the current chip select, and at a release none is open. -/
def Paired : Act → Prop
  | .openDev alloced => ∀ i, s.opens bus alloced = some i → ¬s.isOpen i
  | .close => ∀ i, s.device = some i → s.isOpen i ∧ s.found bus = some i
  | .setCfg cfg _ => cfg.isSome → ∀ i, s.device = some i → s.isOpen i
  | .transfer msgs =>
      (msgs.bind List.head?).any Sent.alloced → ∀ i, s.device = some i → s.isOpen i
  | .release => ∀ i, ¬s.isOpen i
  | _ => True

end State

variable {bus : List SpiDevice} {s : State}

/-- Nothing is open. -/
theorem State.referenced_init (busNum : BitVec 32) (numCs curCs : Nat) (settings : Nat → Settings) :
  (State.init busNum numCs curCs settings).Referenced
  where
  refs _ := rfl
  uses _ hu := nomatch hu

/-- An open is referenced exactly if the device it finds was not open. -/
theorem State.Referenced.openDev_iff (h : s.Referenced) (alloced : Bool) :
  (s.next bus (.openDev alloced)).Referenced ↔ s.Paired bus (.openDev alloced)
  := by
  cases hopens : s.opens bus alloced with
  | none =>
      rw [State.next_openDev_none hopens]
      exact ⟨fun _ i hi => (nomatch hopens.symm.trans hi), fun _ => h⟩
  | some i =>
      obtain ⟨cntlr, -, -, hnext⟩ := State.next_openDev_some hopens
      rw [hnext]
      constructor
      · intro ht j hj hopen
        obtain rfl : i = j := Option.some.inj (hopens.symm.trans hj)
        have hrefs : s.refs i = 1 := by
          rw [h.refs, if_pos hopen]
        have hafter : Function.update s.refs i (s.refs i + 1) i
            = if s.isOpen i || some i = some i then 1 else 0 := ht.refs i
        rw [Function.update_self, hrefs] at hafter
        simp at hafter
      · intro hclosed
        refine ⟨fun j => ?_, h.uses⟩
        show Function.update s.refs i (s.refs i + 1) j
          = if s.isOpen j || some i = some j then 1 else 0
        by_cases hj : j = i
        · subst hj
          have hrefs := h.refs j
          rw [if_neg (hclosed j hopens)] at hrefs
          simp [hrefs]
        · rw [Function.update_of_ne hj, h.refs]
          simp [Ne.symm hj]

/-- A device that is used is referenced exactly if it is open. -/
theorem State.Referenced.used_iff {t : State} {new : List Use} (h : s.Referenced)
    (hrefs : t.refs = s.refs) (hopen : t.isOpen = s.isOpen) (huses : t.uses = new ++ s.uses)
    (hnew : ∀ u ∈ new, u.refs = s.refs u.device) :
  t.Referenced ↔ ∀ u ∈ new, s.isOpen u.device
  := by
  have hpos : ∀ u ∈ new, 0 < u.refs ↔ s.isOpen u.device := by
    intro u hu
    rw [hnew u hu, h.refs]
    split
    · next hopen => exact iff_of_true Int.one_pos hopen
    · next hopen => exact iff_of_false (Int.lt_irrefl 0) hopen
  constructor
  · intro ht u hu
    apply (hpos u hu).mp (ht.uses u _)
    rw [huses]
    apply List.mem_append_left _ hu
  · intro hopens
    refine ⟨fun i => ?_, fun u hu => ?_⟩
    · rw [hrefs, hopen, h.refs]
    · rw [huses] at hu
      obtain hu | hu := List.mem_append.mp hu
      · apply (hpos u hu).mpr (hopens u hu)
      · apply h.uses u hu

/-- A close of the device of the current chip select, which is open. -/
theorem State.Referenced.close_iff (h : s.Referenced) :
  (s.next bus .close).Referenced ↔ s.Paired bus .close
  := by
  cases hdevice : s.device with
  | none =>
      rw [State.next_close_none hdevice]
      exact iff_of_true h fun i hi => nomatch hdevice.symm.trans hi
  | some i =>
      obtain ⟨cntlr, hcntlr, hi⟩ := Option.bind_eq_some_iff.mp hdevice
      rw [State.next_close_some hcntlr hi]
      constructor
      · intro ht
        have hpos : 0 < s.refs i := ht.uses _ List.mem_cons_self
        have hopen : s.isOpen i := by
          rw [h.refs] at hpos
          by_contra hclosed
          rw [if_neg hclosed] at hpos
          cases hpos
        have hafter : Function.update s.refs i (s.refs i - 1) i
            = if s.isOpen i && s.found bus ≠ some i then 1 else 0 := ht.refs i
        rw [Function.update_self, h.refs, if_pos hopen] at hafter
        intro j hj
        obtain rfl := Option.some.inj (hdevice.symm.trans hj)
        refine ⟨hopen, ?_⟩
        by_contra hne
        rw [hopen, Bool.true_and, decide_eq_true hne] at hafter
        cases hafter
      · intro hpaired
        obtain ⟨hopen, hfound⟩ := hpaired i hdevice
        have hrefs : s.refs i = 1 := by rw [h.refs, if_pos hopen]
        refine ⟨fun j => ?_, fun u hu => ?_⟩
        · show Function.update s.refs i (s.refs i - 1) j
            = if s.isOpen j && s.found bus ≠ some j then 1 else 0
          rw [hfound]
          by_cases hj : j = i
          · subst hj
            simp [hrefs]
          · rw [Function.update_of_ne hj, h.refs]
            simp [Ne.symm hj]
        · obtain rfl | hu := List.mem_cons.mp hu
          · show 0 < s.refs i
            rw [hrefs]
            apply Int.one_pos
          · apply h.uses u hu

/-- A configuration is set up in a device that is open. -/
theorem State.Referenced.setCfg_iff (h : s.Referenced) (cfg : Option SpiCfg)
    (spiSetup : Settings → Int × Settings) :
  (s.next bus (.setCfg cfg spiSetup)).Referenced ↔ s.Paired bus (.setCfg cfg spiSetup)
  := by
  cases hdevice : s.device with
  | none =>
      rw [State.next_setCfg_none spiSetup (.inr hdevice)]
      exact iff_of_true h fun _ i hi => nomatch hdevice.symm.trans hi
  | some i =>
      cases cfg with
      | none =>
          rw [State.next_setCfg_none spiSetup (.inl rfl)]
          exact iff_of_true h fun hsome => nomatch hsome
      | some cfg =>
          obtain ⟨cntlr, hcntlr, hi⟩ := Option.bind_eq_some_iff.mp hdevice
          rw [State.next_setCfg_some spiSetup hcntlr hi]
          let u : Use := ⟨i, cntlr.curCs, s.refs i, .setup cfg.written⟩
          have hused : (s.configured cntlr i cfg (spiSetup cfg.written)).Referenced
              ↔ ∀ v ∈ [u], s.isOpen v.device :=
            h.used_iff rfl rfl rfl fun v hv => by rw [List.mem_singleton.mp hv]
          rw [hused]
          constructor
          · intro hopens _ j hj
            obtain rfl := Option.some.inj (hdevice.symm.trans hj)
            exact hopens u (List.mem_singleton_self u)
          · intro hpaired v hv
            rw [List.mem_singleton.mp hv]
            exact hpaired rfl i hdevice

/-- The messages of a transfer go to a device that is open. -/
theorem State.Referenced.transfer_iff (h : s.Referenced) (msgs : Option (List Sent)) :
  (s.next bus (.transfer msgs)).Referenced ↔ s.Paired bus (.transfer msgs)
  := by
  obtain ⟨new, hnext, hof, hne⟩ := State.next_transfer bus s msgs
  have hdevice : ∀ u ∈ new, s.device = some u.device ∧ u.refs = s.refs u.device := by
    intro u hu
    obtain ⟨cntlr, hcntlr, hdevice, -, hrefs⟩ := hof u hu
    refine ⟨?_, hrefs⟩
    unfold State.device
    rw [hcntlr, ← hdevice]
    rfl
  have hused : (s.withUses new).Referenced ↔ ∀ u ∈ new, s.isOpen u.device :=
    h.used_iff rfl rfl rfl fun u hu => (hdevice u hu).2
  rw [hnext, hused]
  constructor
  · intro hopens hsent i hi
    obtain ⟨u, hu⟩ := List.exists_mem_of_ne_nil new (hne.mpr ⟨hsent, Option.isSome_of_mem hi⟩)
    obtain rfl := Option.some.inj (hi.symm.trans (hdevice u hu).1)
    apply hopens u hu
  · intro hpaired u hu
    exact hpaired (hne.mp (List.ne_nil_of_mem hu)).1 u.device (hdevice u hu).1

/-- What the driver holds is referenced after a call exactly if the call is paired. -/
theorem State.Referenced.next_iff (h : s.Referenced) (a : Act) :
  (s.next bus a).Referenced ↔ s.Paired bus a
  := by
  cases a with
  | select cs => exact iff_of_true ⟨h.refs, h.uses⟩ trivial
  | getCfg cfg => exact iff_of_true h trivial
  | openDev alloced => apply h.openDev_iff
  | close => apply h.close_iff
  | setCfg cfg spiSetup => apply h.setCfg_iff
  | transfer msgs => apply h.transfer_iff
  | release =>
      constructor
      · intro ht i hopen
        have hrefs : s.refs i = 0 := ht.refs i
        rw [h.refs, if_pos hopen] at hrefs
        cases hrefs
      · intro hclosed
        refine ⟨fun i => ?_, h.uses⟩
        show s.refs i = 0
        rw [h.refs, if_neg (hclosed i)]

/-- Over any calls, one reference is held to each device that is open and none to the others, and
the devices that are used are referenced, exactly as long as the calls are paired: an open finds a
device that is not open, a close, a configuration and a transfer reach a device that is open, the
close that of the current chip select, and the driver is released when none is open. -/
theorem referenced_iff (bus : List SpiDevice) (busNum : BitVec 32) (numCs curCs : Nat)
    (settings : Nat → Settings) (acts : List Act) :
  Along (State.next bus) (fun s a => (s.next bus a).Referenced)
      (.init busNum numCs curCs settings) acts
    ↔ Along (State.next bus) (State.Paired bus) (.init busNum numCs curCs settings) acts
  := by
  have hiff : ∀ (s : State) a, s.Referenced → ((s.next bus a).Referenced ↔ s.Paired bus a) :=
    fun s a h => h.next_iff a
  have hkeep : ∀ (s : State) a, s.Referenced → s.Paired bus a → (s.next bus a).Referenced :=
    fun s a h ha => (h.next_iff a).mpr ha
  apply along_iff hiff hkeep (State.referenced_init busNum numCs curCs settings)

/-- With one device on the bus, a second open takes a second reference, a second close puts one that
is not held, a release keeps the one that is, and after a close the device is still set up. -/
theorem not_referenced :
  ∃ (bus : List SpiDevice) (s : State) (openTwice closeTwice released closed : List Act),
    s = .init 0 1 0 (fun _ => ⟨8, 0, 0⟩)
      ∧ ¬Along (State.next bus) (fun s a => (s.next bus a).Referenced) s openTwice
      ∧ (openTwice.foldl (State.next bus) s).refs 0 = 2
      ∧ ¬Along (State.next bus) (fun s a => (s.next bus a).Referenced) s closeTwice
      ∧ (closeTwice.foldl (State.next bus) s).refs 0 = -1
      ∧ ¬Along (State.next bus) (fun s a => (s.next bus a).Referenced) s released
      ∧ (released.foldl (State.next bus) s).refs 0 = 1
      ∧ ¬Along (State.next bus) (fun s a => (s.next bus a).Referenced) s closed
      ∧ ((closed.foldl (State.next bus) s).uses.map Use.refs).head? = some 0
  := by
  refine ⟨[⟨some 0, 0⟩], _, [.openDev true, .openDev true], [.openDev true, .close, .close],
    [.openDev true, .release],
    [.openDev true, .close, .setCfg (some ⟨0, 0, .interrupt, 8⟩) fun written => (0, written)],
    rfl, ?_, rfl, ?_, rfl, ?_, rfl, ?_, rfl⟩
  · rintro ⟨-, hopen, -⟩
    exact absurd (hopen.refs 0) (by decide)
  · rintro ⟨-, -, hclose, -⟩
    exact absurd (hclose.refs 0) (by decide)
  · rintro ⟨-, hrelease, -⟩
    exact absurd (hrelease.refs 0) (by decide)
  · rintro ⟨-, -, hsetCfg, -⟩
    exact absurd (hsetCfg.uses _ List.mem_cons_self) (by decide)

end Spi
