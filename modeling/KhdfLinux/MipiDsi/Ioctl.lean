import KhdfLinux.Lib.Run
import KhdfLinux.Lib.Semaphore

/-!
# The ioctl of the DSI device node

`MipiDsiDevIoctl` performs its commands under the semaphore of the controller, and ignores whether
it was taken.  `ioctl_mutex_iff`: in any interleaving of the calls, one of them is between its
acquire and its release at a time exactly as long as no wait is interrupted.
-/

namespace MipiDsi

/-! ### Calls -/

/-- The commands of `MipiDsiDevIoctl`. -/
inductive Cmd where
  | setDevCfg
  | setCmd
  | getCmd
  | enable
  | disable
  deriving DecidableEq, Repr

/-- Where a thread is.  A command that is not known is `none`. -/
inductive Phase where
  | idle
  /-- In `down_interruptible`. -/
  | waiting (cmd : Option Cmd)
  /-- After `SemaDownInterruptable`, which may have been interrupted. -/
  | entered (cmd : Option Cmd) (interrupted : Bool)
  /-- Before `SemaUp`. -/
  | performed (interrupted : Bool)
  deriving DecidableEq, Repr

/-- A command that was performed. -/
structure Performance (ι : Type) where
  thread : ι
  cmd : Cmd
  interrupted : Bool
  deriving DecidableEq, Repr

/-- The semaphore of the controller, the threads, and the commands that were performed. -/
structure State (ι : Type) where
  sem : Semaphore ι
  phase : ι → Phase
  performed : List (Performance ι)

/-- A thread calls with a file, an argument and a command, for which a controller is found or not;
its wait is interrupted; it performs its command; it releases the semaphore. -/
inductive Act (ι : Type) where
  | ioctl (i : ι) (filep arg cntlr : Bool) (cmd : Option Cmd)
  | interrupt (i : ι)
  | perform (i : ι)
  | semaUp (i : ι)

namespace State

variable {ι : Type} [DecidableEq ι]

/-- The state that `MipiDsiDevModuleInit` leaves. -/
def init : State ι := ⟨⟨1, []⟩, fun _ => .idle, []⟩

variable (s : State ι)

/-- `MipiDsiDevIoctl`, up to `SemaDownInterruptable`. -/
def ioctl (i : ι) (filep arg cntlr : Bool) (cmd : Option Cmd) : State ι :=
  if ¬filep ∨ ¬arg then s
  else if ¬cntlr then s
  else
    match s.sem.down i with
    | (true, sem) => { s with sem, phase := Function.update s.phase i (.entered cmd false) }
    | (false, sem) => { s with sem, phase := Function.update s.phase i (.waiting cmd) }

/-- `down_interruptible` returns an error, which is ignored. -/
def interrupt (i : ι) (cmd : Option Cmd) : State ι :=
  { s with
    sem := s.sem.interrupt i
    phase := Function.update s.phase i (.entered cmd true) }

/-- The `switch` of the commands. -/
def perform (i : ι) (cmd : Option Cmd) (interrupted : Bool) : State ι :=
  { s with
    phase := Function.update s.phase i (.performed interrupted)
    performed := match cmd with
      | none => s.performed
      | some cmd => ⟨i, cmd, interrupted⟩ :: s.performed }

/-- A thread that waits is handed the semaphore. -/
def handOver (phase : ι → Phase) : Option ι → ι → Phase
  | none => phase
  | some j =>
      match phase j with
      | .waiting cmd => Function.update phase j (.entered cmd false)
      | _ => phase

/-- `SemaUp`, and the return. -/
def semaUp (i : ι) : State ι :=
  { s with
    sem := s.sem.up.2
    phase := handOver (Function.update s.phase i .idle) s.sem.up.1 }

/-- The state after an act; an act that a thread cannot make does nothing. -/
def next : Act ι → State ι
  | .ioctl i filep arg cntlr cmd =>
      match s.phase i with
      | .idle => s.ioctl i filep arg cntlr cmd
      | _ => s
  | .interrupt i =>
      match s.phase i with
      | .waiting cmd => s.interrupt i cmd
      | _ => s
  | .perform i =>
      match s.phase i with
      | .entered cmd interrupted => s.perform i cmd interrupted
      | _ => s
  | .semaUp i =>
      match s.phase i with
      | .performed _ => s.semaUp i
      | _ => s

end State

/-- The thread is between `SemaDownInterruptable` and `SemaUp`. -/
def Phase.Inside : Phase → Prop
  | idle => False
  | waiting _ => False
  | entered _ _ => True
  | performed _ => True

/-- One thread is inside at a time, the count is 0 or 1, and no command was performed by a call
that was interrupted. -/
structure State.Sound {ι : Type} (s : State ι) : Prop where
  mutex : ∀ i j, (s.phase i).Inside → (s.phase j).Inside → i = j
  count : s.sem.count ≤ 1
  performed : ∀ p ∈ s.performed, ¬p.interrupted

/-- No wait is interrupted. -/
def State.Uninterrupted {ι : Type} (s : State ι) : Act ι → Prop
  | .interrupt i => ∀ cmd, s.phase i ≠ .waiting cmd
  | _ => True

/-! ### The invariant -/

variable {ι : Type} [DecidableEq ι] {s : State ι} {holder : Option ι}

/-- The thread that holds the semaphore is the one that is inside, and the threads that wait are
those in the queue. -/
structure State.Inv (s : State ι) (holder : Option ι) : Prop where
  queued : s.sem.Queued
  count : s.sem.count = if holder.isNone then 1 else 0
  waiting : ∀ i, i ∈ s.sem.waitList ↔ ∃ cmd, s.phase i = .waiting cmd
  inside : ∀ i, (s.phase i).Inside ↔ holder = some i
  uninterrupted : ∀ i, (∀ cmd, s.phase i ≠ .entered cmd true) ∧ s.phase i ≠ .performed true
  performed : ∀ p ∈ s.performed, ¬p.interrupted

theorem State.Inv.sound (h : s.Inv holder) :
  s.Sound
  where
  mutex i j hi hj := Option.some.inj (((h.inside i).mp hi).symm.trans ((h.inside j).mp hj))
  count := by
    rw [h.count]
    split <;> decide
  performed := h.performed

theorem inv_init :
  (State.init : State ι).Inv none
  where
  queued := ⟨fun hne => absurd rfl hne, List.nodup_nil⟩
  count := rfl
  waiting i := iff_of_false List.not_mem_nil fun ⟨_, hcmd⟩ => nomatch hcmd
  inside i := iff_of_false id (Option.some_ne_none i).symm
  uninterrupted _ := ⟨fun _ => Phase.noConfusion, Phase.noConfusion⟩
  performed _ hp := nomatch hp

/-- A step of one thread: what is to be shown of it and of the semaphore. -/
theorem State.Inv.update {i : ι} {phase : Phase} {sem : Semaphore ι}
    {performed : List (Performance ι)} {holder' : Option ι} (h : s.Inv holder)
    (hqueued : sem.Queued) (hcount : sem.count = if holder'.isNone then 1 else 0)
    (hwaiting : ∀ j, j ∈ sem.waitList ↔ ∃ cmd, Function.update s.phase i phase j = .waiting cmd)
    (hinside : phase.Inside ↔ holder' = some i)
    (hothers : ∀ j, j ≠ i → (holder' = some j ↔ holder = some j))
    (hphase : (∀ cmd, phase ≠ .entered cmd true) ∧ phase ≠ .performed true)
    (hperformed : ∀ p ∈ performed, ¬p.interrupted) :
  State.Inv ⟨sem, Function.update s.phase i phase, performed⟩ holder'
  where
  queued := hqueued
  count := hcount
  waiting := hwaiting
  inside j := by
    show (Function.update s.phase i phase j).Inside ↔ _
    by_cases hj : j = i
    · subst hj
      rw [Function.update_self]
      apply hinside
    · rw [Function.update_of_ne hj, hothers j hj]
      apply h.inside j
  uninterrupted j := by
    show (∀ cmd, Function.update s.phase i phase j ≠ _)
      ∧ Function.update s.phase i phase j ≠ _
    by_cases hj : j = i
    · subst hj
      rw [Function.update_self]
      apply hphase
    · rw [Function.update_of_ne hj]
      apply h.uninterrupted j
  performed := hperformed

/-- The threads that wait, where one does not that did not. -/
theorem State.Inv.waiting_update {i : ι} {phase : Phase} (h : s.Inv holder)
    (hi : ∀ cmd, s.phase i ≠ .waiting cmd) (hphase : ∀ cmd, phase ≠ .waiting cmd) (j : ι) :
  j ∈ s.sem.waitList ↔ ∃ cmd, Function.update s.phase i phase j = .waiting cmd
  := by
  rw [h.waiting j]
  by_cases hj : j = i
  · subst hj
    rw [Function.update_self]
    exact iff_of_false (fun ⟨cmd, hcmd⟩ => hi cmd hcmd) (fun ⟨cmd, hcmd⟩ => hphase cmd hcmd)
  · rw [Function.update_of_ne hj]

/-! ### The steps -/

/-- A call takes the semaphore or waits. -/
theorem State.Inv.ioctl {i : ι} {filep arg cntlr : Bool} {cmd : Option Cmd} (h : s.Inv holder)
    (hi : s.phase i = .idle) :
  ∃ holder', (s.ioctl i filep arg cntlr cmd).Inv holder'
  := by
  have hidle : ∀ cmd, s.phase i ≠ .waiting cmd := by
    rw [hi]
    exact fun _ => Phase.noConfusion
  have hnot : i ∉ s.sem.waitList := by
    rw [h.waiting i]
    exact fun ⟨cmd, hcmd⟩ => hidle cmd hcmd
  have hqueued := h.queued.down hnot
  have hcount := h.count
  unfold State.ioctl
  split
  · exact ⟨holder, h⟩
  split
  · exact ⟨holder, h⟩
  unfold Semaphore.down at hqueued ⊢
  cases holder with
  | none =>
      have hpos : 0 < s.sem.count := by
        rw [hcount]
        apply Nat.one_pos
      rw [if_pos hpos] at hqueued ⊢
      refine ⟨some i, h.update hqueued ?_ ?_ ?_ ?_ ?_ h.performed⟩
      · show s.sem.count - 1 = 0
        rw [hcount]
        rfl
      · apply h.waiting_update hidle fun _ => Phase.noConfusion
      · apply iff_of_true trivial rfl
      · intro j hj
        apply iff_of_false (fun heq => hj (Option.some.inj heq).symm) (Option.some_ne_none j).symm
      · exact ⟨fun _ => by simp, Phase.noConfusion⟩
  | some k =>
      have hzero : ¬0 < s.sem.count := by
        rw [hcount]
        apply Nat.lt_irrefl 0
      rw [if_neg hzero] at hqueued ⊢
      refine ⟨some k, h.update hqueued ?_ ?_ ?_ ?_ ?_ h.performed⟩
      · apply hcount
      · intro j
        show j ∈ s.sem.waitList ++ [i] ↔ _
        rw [List.mem_append, List.mem_singleton, h.waiting j]
        by_cases hj : j = i
        · subst hj
          rw [Function.update_self]
          exact iff_of_true (.inr rfl) ⟨cmd, rfl⟩
        · rw [Function.update_of_ne hj]
          apply or_iff_left hj
      · apply iff_of_false id
        rw [← h.inside i, hi]
        exact id
      · exact fun _ _ => Iff.rfl
      · exact ⟨fun _ => Phase.noConfusion, Phase.noConfusion⟩

/-- The thread that is inside performs its command. -/
theorem State.Inv.perform {i : ι} {cmd : Option Cmd} {interrupted : Bool} (h : s.Inv holder)
    (hi : s.phase i = .entered cmd interrupted) :
  (s.perform i cmd interrupted).Inv holder
  := by
  have hholder : holder = some i := by
    rw [← h.inside i, hi]
    trivial
  obtain rfl : interrupted = false := by
    cases interrupted with
    | false => rfl
    | true => exact absurd hi ((h.uninterrupted i).1 cmd)
  apply h.update h.queued h.count
  · apply h.waiting_update
    · rw [hi]
      exact fun _ => Phase.noConfusion
    · exact fun _ => Phase.noConfusion
  · apply iff_of_true trivial hholder
  · exact fun _ _ => Iff.rfl
  · exact ⟨fun _ => Phase.noConfusion, by simp⟩
  · cases cmd with
    | none => exact h.performed
    | some cmd =>
        intro p hp
        obtain rfl | hp := List.mem_cons.mp hp
        · apply Bool.false_ne_true
        · apply h.performed p hp

/-- The thread that is inside releases the semaphore, or hands it over. -/
theorem State.Inv.semaUp {i : ι} {interrupted : Bool} (h : s.Inv holder)
    (hi : s.phase i = .performed interrupted) :
  (s.semaUp i).Inv s.sem.up.1
  := by
  have hholder : holder = some i := by
    rw [← h.inside i, hi]
    trivial
  have hidle : ∀ cmd, s.phase i ≠ .waiting cmd := by
    rw [hi]
    exact fun _ => Phase.noConfusion
  have hqueued := h.queued.up
  have hcount := h.count
  rw [hholder] at hcount
  cases hlist : s.sem.waitList with
  | nil =>
      have hup : s.sem.up = (none, { s.sem with count := s.sem.count + 1 }) := by
        unfold Semaphore.up
        split
        · rfl
        · next hcons =>
            rw [hlist] at hcons
            cases hcons
      unfold State.semaUp
      rw [hup] at hqueued ⊢
      apply h.update hqueued
      · show s.sem.count + 1 = 1
        rw [hcount]
        rfl
      · apply h.waiting_update hidle fun _ => Phase.noConfusion
      · apply iff_of_false id (Option.some_ne_none i).symm
      · intro j hj
        rw [hholder]
        apply iff_of_false (Option.some_ne_none j).symm fun heq => hj (Option.some.inj heq).symm
      · exact ⟨fun _ => Phase.noConfusion, Phase.noConfusion⟩
      · apply h.performed
  | cons j rest =>
      have hup : s.sem.up = (some j, { s.sem with waitList := rest }) := by
        unfold Semaphore.up
        rw [hlist]
      obtain ⟨cmd, hj⟩ := (h.waiting j).mp (by rw [hlist]; exact List.mem_cons_self)
      have hne : j ≠ i := by
        rintro rfl
        apply hidle cmd hj
      have hnodup := h.queued.nodup
      rw [hlist] at hnodup
      have hphase : State.handOver (Function.update s.phase i .idle) (some j)
          = Function.update (Function.update s.phase i .idle) j (.entered cmd false) := by
        unfold State.handOver
        dsimp only
        rw [Function.update_of_ne hne, hj]
      unfold State.semaUp
      rw [hup] at hqueued ⊢
      dsimp only
      rw [hphase]
      constructor
      · apply hqueued
      · apply hcount
      · intro k
        show k ∈ rest ↔ ∃ cmd', Function.update _ j _ k = _
        by_cases hkj : k = j
        · subst hkj
          rw [Function.update_self]
          apply iff_of_false (List.nodup_cons.mp hnodup).1
          rintro ⟨_, ⟨⟩⟩
        · have hmem := h.waiting_update hidle (fun _ => Phase.noConfusion : ∀ cmd, Phase.idle ≠ _) k
          rw [hlist, List.mem_cons, or_iff_right hkj] at hmem
          rw [Function.update_of_ne hkj]
          apply hmem
      · intro k
        show (Function.update (Function.update s.phase i .idle) j (.entered cmd false) k).Inside ↔ _
        by_cases hkj : k = j
        · subst hkj
          rw [Function.update_self]
          apply iff_of_true trivial rfl
        · rw [Function.update_of_ne hkj]
          apply iff_of_false _ fun heq => hkj (Option.some.inj heq).symm
          by_cases hki : k = i
          · subst hki
            rw [Function.update_self]
            exact id
          · rw [Function.update_of_ne hki, h.inside k, hholder]
            exact fun heq => hki (Option.some.inj heq).symm
      · intro k
        show (∀ cmd', Function.update _ j _ k ≠ _) ∧ Function.update _ j _ k ≠ _
        by_cases hkj : k = j
        · subst hkj
          rw [Function.update_self]
          exact ⟨fun _ => by simp, Phase.noConfusion⟩
        · rw [Function.update_of_ne hkj]
          by_cases hki : k = i
          · subst hki
            rw [Function.update_self]
            exact ⟨fun _ => Phase.noConfusion, Phase.noConfusion⟩
          · rw [Function.update_of_ne hki]
            apply h.uninterrupted k
      · apply h.performed

/-- A thread that is interrupted is inside beside the one that holds the semaphore. -/
theorem State.Inv.interrupt {i : ι} {cmd : Option Cmd} (h : s.Inv holder)
    (hi : s.phase i = .waiting cmd) :
  ¬(s.interrupt i cmd).Sound
  := by
  intro hsound
  have hcount := h.count
  have hmem : i ∈ s.sem.waitList := (h.waiting i).mpr ⟨cmd, hi⟩
  rw [h.queued.taken (List.ne_nil_of_mem hmem)] at hcount
  cases holder with
  | none => cases hcount
  | some k =>
      have hk : (s.phase k).Inside := (h.inside k).mpr rfl
      have hne : k ≠ i := by
        rintro rfl
        rw [hi] at hk
        apply hk
      apply hne
      apply hsound.mutex
      · show (Function.update s.phase i _ k).Inside
        rw [Function.update_of_ne hne]
        apply hk
      · show (Function.update s.phase i _ i).Inside
        rw [Function.update_self]
        trivial

/-- A step keeps the invariant if it interrupts no wait, and breaks the mutual exclusion if it
does. -/
theorem State.Inv.next_iff (h : s.Inv holder) (a : Act ι) :
  (s.Uninterrupted a → ∃ holder', (s.next a).Inv holder') ∧ ((s.next a).Sound → s.Uninterrupted a)
  := by
  cases a with
  | ioctl i filep arg cntlr cmd =>
      refine ⟨fun _ => ?_, fun _ => trivial⟩
      unfold State.next
      dsimp only
      split
      · next hi => exact h.ioctl hi
      · exact ⟨holder, h⟩
  | interrupt i =>
      unfold State.next
      dsimp only
      split
      · next cmd hi =>
          exact ⟨fun hun => absurd hi (hun cmd), fun hsound => absurd hsound (h.interrupt hi)⟩
      · next hi => exact ⟨fun _ => ⟨holder, h⟩, fun _ => hi⟩
  | perform i =>
      refine ⟨fun _ => ?_, fun _ => trivial⟩
      unfold State.next
      dsimp only
      split
      · next hi => exact ⟨holder, h.perform hi⟩
      · exact ⟨holder, h⟩
  | semaUp i =>
      refine ⟨fun _ => ?_, fun _ => trivial⟩
      unfold State.next
      dsimp only
      split
      · next hi => exact ⟨_, h.semaUp hi⟩
      · exact ⟨holder, h⟩

/-- The calls exclude each other in exactly the runs in which no wait is interrupted. -/
theorem ioctl_mutex_iff (acts : List (Act ι)) :
  Along State.next (fun s a => (s.next a).Sound) State.init acts
    ↔ Along State.next State.Uninterrupted State.init acts
  := by
  have hiff : ∀ (s : State ι) a, (∃ holder, s.Inv holder) →
      ((s.next a).Sound ↔ s.Uninterrupted a) := by
    rintro s a ⟨holder, h⟩
    refine ⟨(h.next_iff a).2, fun hun => ?_⟩
    obtain ⟨_, h'⟩ := (h.next_iff a).1 hun
    apply h'.sound
  have hkeep : ∀ (s : State ι) a, (∃ holder, s.Inv holder) → s.Uninterrupted a →
      ∃ holder, (s.next a).Inv holder := by
    rintro s a ⟨holder, h⟩ hun
    exact (h.next_iff a).1 hun
  exact along_iff hiff hkeep ⟨none, inv_init⟩

/-- A call is interrupted while another one is inside: both perform their commands, and the count
is 2 in the end. -/
theorem ioctl_not_mutex :
  ∃ acts : List (Act Nat),
    ¬Along State.next (fun s a => (s.next a).Sound) State.init acts
      ∧ (acts.foldl State.next State.init).performed = [⟨1, .setCmd, true⟩, ⟨0, .enable, false⟩]
      ∧ (acts.foldl State.next State.init).sem.count = 2
  := by
  refine ⟨[.ioctl 0 true true true (some .enable), .ioctl 1 true true true (some .setCmd),
    .interrupt 1, .perform 0, .perform 1, .semaUp 0, .semaUp 1], ?_, rfl, rfl⟩
  rintro ⟨-, -, hsound, -⟩
  exact absurd (hsound.mutex 0 1 trivial trivial) (by decide)

end MipiDsi
