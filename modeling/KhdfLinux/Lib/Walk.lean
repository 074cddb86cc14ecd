import KhdfLinux.Lib.Bytes
import Mathlib.Algebra.GroupWithZero.Nat

/-!
# Counted walks

A counted walk moves a cursor over a buffer: it handles a given number of items one after
another, each at the cursor, and every item says how many bytes it took.  The remaining
length is an unsigned word of 32 bits.

The items of a buffer are described without an execution by a size function: `size data
len` is the length of the item at position `data` when `len` bytes are left, if there is
one.  `visits size n data len` lists the first `n` items, and `walk_ok` says that a walk
whose items follow `size` succeeds exactly when these items exist, and has then the
effects of these items, in order.
-/

/-- An item of a buffer: its position and its length. -/
structure Visit where
  offset : Nat
  size : Nat
  deriving DecidableEq, Repr

/-- The item in a buffer that starts `o` bytes earlier. -/
def Visit.shift (o : Nat) (v : Visit) : Visit := ⟨o + v.offset, v.size⟩

namespace Walk

variable {σ : Type}

/-- Handle `n` items from position `data` with `len` bytes left, the first of them being
number `num`.  The result is the final position and the final remaining length. -/
def walk (item : (num data len : Nat) → Exec σ Nat) : (n num data len : Nat) → Exec σ (Nat × Nat)
  | 0, _, data, len => pure (data, len)
  | n + 1, num, data, len => do
      let ret ← item num data len
      walk item n (num + 1) (data + ret) (u32 ((len : Int) - ret))

/-- The first `n` items from position `data` with `len` bytes left. -/
def visits (size : (data len : Nat) → Option Nat) : (n data len : Nat) → Option (List Visit)
  | 0, _, _ => some []
  | n + 1, data, len =>
      (size data len).bind fun k =>
        (visits size n (data + k) (len - k)).map fun vs => ⟨data, k⟩ :: vs

/-- The number of bytes a list of items takes. -/
def total (vs : List Visit) : Nat := (vs.map Visit.size).sum

/-- The effects of a list of items, in order, as long as every item has one. -/
def effects (effect : Visit → σ → Option σ) : List Visit → σ → Option σ
  | [], s => some s
  | v :: vs, s => (effect v s).bind (effects effect vs)

@[simp]
theorem total_nil :
  total [] = 0
  := rfl

@[simp]
theorem total_cons (v : Visit) (vs : List Visit) :
  total (v :: vs) = v.size + total vs
  := by
  simp [total]

@[simp]
theorem total_append (vs ws : List Visit) :
  total (vs ++ ws) = total vs + total ws
  := by
  simp [total]

section Items

variable {size : (data len : Nat) → Option Nat}

theorem visits_succ {n data len : Nat} {vs : List Visit} :
  visits size (n + 1) data len = some vs
    ↔ ∃ k ws, size data len = some k ∧ visits size n (data + k) (len - k) = some ws
      ∧ vs = ⟨data, k⟩ :: ws
  := by
  simp only [visits, Option.bind_eq_some_iff, Option.map_eq_some_iff]
  constructor
  · rintro ⟨k, hk, ws, hws, rfl⟩
    use k, ws
  · rintro ⟨k, ws, hk, hws, rfl⟩
    use k, hk, ws

theorem visits_length {n data len : Nat} {vs : List Visit} (h : visits size n data len = some vs) :
  vs.length = n
  := by
  induction n generalizing data len vs with
  | zero =>
      obtain rfl := Option.some.inj h
      rfl
  | succ n ih =>
      obtain ⟨k, ws, _, hws, rfl⟩ := visits_succ.mp h
      simp [ih hws]

theorem total_le_of_visits
    (hsize : ∀ data len k, size data len = some k → k ≤ len)
    {n data len : Nat} {vs : List Visit} (h : visits size n data len = some vs) :
  total vs ≤ len
  := by
  induction n generalizing data len vs with
  | zero =>
      obtain rfl := Option.some.inj h
      simp
  | succ n ih =>
      obtain ⟨k, ws, hk, hws, rfl⟩ := visits_succ.mp h
      have := hsize _ _ _ hk
      have := ih hws
      simp only [total_cons]
      omega

/-- The first `n + m` items are the first `n` items followed by the `m` items after
them. -/
theorem visits_add {n m data len : Nat} {vs : List Visit} :
  visits size (n + m) data len = some vs
    ↔ ∃ us ws, visits size n data len = some us
      ∧ visits size m (data + total us) (len - total us) = some ws ∧ vs = us ++ ws
  := by
  induction n generalizing data len vs with
  | zero => simp [visits]
  | succ n ih =>
      rw [Nat.add_right_comm]
      constructor
      · intro h
        obtain ⟨k, ws, hk, hws, rfl⟩ := visits_succ.mp h
        obtain ⟨us, ws', hus, hws', rfl⟩ := ih.mp hws
        use ⟨data, k⟩ :: us, ws', visits_succ.mpr ⟨k, us, hk, hus, rfl⟩
        constructor
        · rw [total_cons, ← Nat.add_assoc, Nat.sub_add_eq]
          apply hws'
        · rfl
      · rintro ⟨us, ws, hus, hws, rfl⟩
        obtain ⟨k, us', hk, hus', rfl⟩ := visits_succ.mp hus
        rw [total_cons, ← Nat.add_assoc, Nat.sub_add_eq] at hws
        apply visits_succ.mpr
        use k, us' ++ ws, hk, ih.mpr ⟨us', ws, hus', hws, rfl⟩
        rfl

/-- One item more. -/
theorem visits_snoc
    {n data len k : Nat} {vs : List Visit} (h : visits size n data len = some vs)
    (hk : size (data + total vs) (len - total vs) = some k) :
  visits size (n + 1) data len = some (vs ++ [⟨data + total vs, k⟩])
  := by
  apply visits_add.mpr
  use vs, [⟨data + total vs, k⟩], h
  simp [visits, hk]

/-- The items listed lie between the first position and the position after the last, and
each of them is an item of the buffer. -/
theorem mem_visits
    (hsize : ∀ data len k, size data len = some k → k ≤ len)
    {n data len : Nat} {vs : List Visit} (h : visits size n data len = some vs)
    {v : Visit} (hv : v ∈ vs) :
  data ≤ v.offset ∧ v.offset + v.size ≤ data + total vs
    ∧ size v.offset (data + len - v.offset) = some v.size
  := by
  induction n generalizing data len vs with
  | zero =>
      obtain rfl := Option.some.inj h
      cases hv
  | succ n ih =>
      obtain ⟨k, ws, hk, hws, rfl⟩ := visits_succ.mp h
      have hkl := hsize _ _ _ hk
      rw [total_cons]
      rcases List.mem_cons.mp hv with rfl | hv
      · refine ⟨Nat.le_refl _, ?_, ?_⟩
        · dsimp only
          omega
        · rw [Nat.add_sub_cancel_left]
          apply hk
      · obtain ⟨h₁, h₂, h₃⟩ := ih hws hv
        rw [show data + k + (len - k) = data + len by omega] at h₃
        refine ⟨by omega, ?_, h₃⟩
        dsimp only
        omega

/-- The items before another one end before it. -/
theorem le_of_visits_append
    (hsize : ∀ data len k, size data len = some k → k ≤ len)
    {n data len : Nat} {us ws : List Visit} {u v : Visit}
    (h : visits size n data len = some (us ++ v :: ws)) (hu : u ∈ us) :
  u.offset + u.size ≤ v.offset
  := by
  induction n generalizing data len us with
  | zero => simp [visits] at h
  | succ n ih =>
      obtain ⟨k, ws', hk, hws', heq⟩ := visits_succ.mp h
      cases us with
      | nil => cases hu
      | cons u' us =>
          obtain ⟨rfl, rfl⟩ := List.cons.inj heq
          rcases List.mem_cons.mp hu with rfl | hu
          · exact (mem_visits hsize hws' (by simp)).1
          · apply ih hws' hu

/-- The items from one of them on. -/
theorem visits_split
    {n data len : Nat} {us ws : List Visit} {v : Visit}
    (h : visits size n data len = some (us ++ v :: ws)) :
  ∃ n' len', visits size (n' + 1) v.offset len' = some (v :: ws)
  := by
  induction us generalizing n data len with
  | nil =>
      cases n with
      | zero => cases h
      | succ n =>
          obtain ⟨k, ws', -, -, heq⟩ := visits_succ.mp h
          obtain ⟨rfl, -⟩ := List.cons.inj heq
          exact ⟨n, len, h⟩
  | cons u us ih =>
      cases n with
      | zero => cases h
      | succ n =>
          obtain ⟨k, ws', -, hws', heq⟩ := visits_succ.mp h
          obtain ⟨-, rfl⟩ := List.cons.inj heq
          apply ih hws'

/-- Behind an item without bytes there are only such items. -/
theorem visits_of_zero
    {n data len : Nat} {vs : List Visit} (h : visits size n data len = some vs)
    (hzero : size data len = some 0) :
  ∀ v ∈ vs, v.offset = data
  := by
  induction n generalizing vs with
  | zero =>
      obtain rfl := Option.some.inj h
      apply List.forall_mem_nil
  | succ n ih =>
      obtain ⟨k, ws, hk, hws, rfl⟩ := visits_succ.mp h
      obtain rfl : 0 = k := Option.some.inj (hzero.symm.trans hk)
      exact List.forall_mem_cons.mpr ⟨rfl, ih hws⟩

variable {size' : (data len : Nat) → Option Nat}

/-- Two items listed are the same, or one lies before the other. -/
theorem visits_apart
    (hsize : ∀ data len k, size data len = some k → k ≤ len)
    {n data len : Nat} {vs : List Visit} (h : visits size n data len = some vs)
    {v w : Visit} (hv : v ∈ vs) (hw : w ∈ vs) :
  v = w ∨ v.offset + v.size ≤ w.offset ∨ w.offset + w.size ≤ v.offset
  := by
  induction n generalizing data len vs with
  | zero =>
      obtain rfl := Option.some.inj h
      cases hv
  | succ n ih =>
      obtain ⟨k, ws, -, hws, rfl⟩ := visits_succ.mp h
      rcases List.mem_cons.mp hv with rfl | hv
      · rcases List.mem_cons.mp hw with rfl | hw
        · apply Or.inl rfl
        · apply Or.inr (Or.inl (mem_visits hsize hws hw).1)
      · rcases List.mem_cons.mp hw with rfl | hw
        · apply Or.inr (Or.inr (mem_visits hsize hws hv).1)
        · apply ih hws hv hw

/-- The items in a buffer that starts `o` bytes earlier. -/
theorem visits_shift
    {o : Nat} (h : ∀ d l, size' d l = size (o + d) l) {n data len : Nat} {vs : List Visit} :
  visits size n (o + data) len = some vs
    ↔ ∃ ws, visits size' n data len = some ws ∧ vs = ws.map (Visit.shift o)
  := by
  induction n generalizing data len vs with
  | zero => simp [visits, eq_comm]
  | succ n ih =>
      rw [visits_succ]
      constructor
      · rintro ⟨k, ws, hk, hws, rfl⟩
        rw [Nat.add_assoc] at hws
        obtain ⟨us, hus, rfl⟩ := ih.mp hws
        exact ⟨⟨data, k⟩ :: us, visits_succ.mpr ⟨k, us, by rw [h, hk], hus, rfl⟩, rfl⟩
      · rintro ⟨ws, hws, rfl⟩
        obtain ⟨k, us, hk, hus, rfl⟩ := visits_succ.mp hws
        refine ⟨k, us.map (Visit.shift o), by rw [← h, hk], ?_, rfl⟩
        rw [Nat.add_assoc]
        exact ih.mpr ⟨us, hus, rfl⟩

end Items

section Rules

variable {item : (num data len : Nat) → Exec σ Nat}

/-- The walk rule: what one item keeps, `n` items keep, and what holds where an item
stops, holds where the walk stops. -/
theorem walk_meets
    {E : Stop → σ → Prop} (Inv : (num data len : Nat) → σ → Prop) {n num data len : Nat} {s : σ}
    (hstep : ∀ i d l t, i < num + n → Inv i d l t →
      Exec.Meets (item i d l) t (fun k t' => Inv (i + 1) (d + k) (u32 ((l : Int) - k)) t') E)
    (h : Inv num data len s) :
  Exec.Meets (walk item n num data len) s (fun r s' => Inv (num + n) r.1 r.2 s') E
  := by
  induction n generalizing num data len s with
  | zero => exact Exec.meets_pure h
  | succ n ih =>
      apply Exec.meets_bind
      apply Exec.Meets.mono (hstep num data len s (by omega) h)
      · intro k t ht
        have hrest := ih (fun i d l u hi => hstep i d l u (by omega)) ht
        rw [Nat.add_right_comm] at hrest
        apply hrest
      · intro e t ht
        apply ht

/-- What every item preserves, a walk preserves. -/
theorem preserves_walk
    {P : σ → Prop} (h : ∀ num data len, Exec.Preserves P (item num data len))
    (n num data len : Nat) :
  Exec.Preserves P (walk item n num data len)
  := by
  induction n generalizing num data len with
  | zero => exact Exec.preserves_pure _
  | succ n ih => exact (h num data len).bind fun ret => ih _ _ _

/-- What every item leaves alone, a walk leaves alone. -/
theorem keeps_walk
    {τ : Type} {f : σ → τ} (h : ∀ num data len, Exec.Keeps f (item num data len))
    (n num data len : Nat) :
  Exec.Keeps f (walk item n num data len)
  := by
  apply Exec.keeps_iff_preserves.mpr
  intro v
  apply preserves_walk
  intro num data len
  apply Exec.keeps_iff_preserves.mp (h num data len) v

/-- The walk rule for a walk over items that are known, until `C` holds: each item says its own
length, as long as the items before it have and `C` does not hold. -/
theorem walk_visits_or
    {size : (data len : Nat) → Option Nat} {C : σ → Prop} {E : Stop → σ → Prop}
    (hsize : ∀ d l k, size d l = some k → k ≤ l)
    (hC : ∀ i d l t, C t → Exec.Meets (item i d l) t (fun _ t' => C t') E)
    (Inv : List Visit → σ → Prop)
    {n num data len : Nat} {vs : List Visit} {s : σ} (hvs : visits size n data len = some vs)
    (hlen : len < 4294967296)
    (hstep : ∀ us v ws t, vs = us ++ v :: ws → Inv us t →
      Exec.Meets (item (num + us.length) v.offset (data + len - v.offset)) t
        (fun k t' => C t' ∨ k = v.size ∧ Inv (us ++ [v]) t') E)
    (hs : Inv [] s) :
  Exec.Meets (walk item n num data len) s
    (fun r t => C t ∨ r = (data + total vs, len - total vs) ∧ Inv vs t) E
  := by
  induction n generalizing num data len vs s Inv with
  | zero =>
      obtain rfl := Option.some.inj hvs
      exact Exec.meets_pure (.inr ⟨rfl, hs⟩)
  | succ n ih =>
      obtain ⟨k, ws, hk, hws, rfl⟩ := visits_succ.mp hvs
      have hle := hsize _ _ _ hk
      have hfirst := hstep [] ⟨data, k⟩ ws s rfl hs
      rw [Nat.add_sub_cancel_left] at hfirst
      refine Exec.meets_bind (hfirst.mono ?_ fun _ _ he => he)
      rintro k' t (ht | ⟨hk', ht⟩)
      · apply (walk_meets (fun _ _ _ => C) (fun i d l u _ hu => hC i d l u hu) ht).mono
        · exact fun _ _ hu => .inl hu
        · exact fun _ _ he => he
      obtain rfl : k = k' := hk'.symm
      rw [u32_sub hle hlen]
      refine (ih (fun us => Inv (⟨data, k⟩ :: us)) hws (by omega) ?_ ht).mono ?_ fun _ _ he => he
      · rintro us v ws' u rfl hu
        have hnext := hstep (⟨data, k⟩ :: us) v ws' u rfl hu
        rw [List.length_cons, Nat.add_comm us.length, ← Nat.add_assoc] at hnext
        rw [show data + k + (len - k) = data + len by omega]
        apply hnext
      · rintro r u (hu | ⟨rfl, hu⟩)
        · exact .inl hu
        · rw [total_cons, ← Nat.add_assoc, Nat.sub_add_eq]
          exact .inr ⟨rfl, hu⟩

/-- The walk rule for a walk over items that are known: each item says its own length, as long
as the items before it have. -/
theorem walk_visits
    {size : (data len : Nat) → Option Nat} {E : Stop → σ → Prop}
    (hsize : ∀ d l k, size d l = some k → k ≤ l) (Inv : List Visit → σ → Prop)
    {n num data len : Nat} {vs : List Visit} {s : σ} (hvs : visits size n data len = some vs)
    (hlen : len < 4294967296)
    (hstep : ∀ us v ws t, vs = us ++ v :: ws → Inv us t →
      Exec.Meets (item (num + us.length) v.offset (data + len - v.offset)) t
        (fun k t' => k = v.size ∧ Inv (us ++ [v]) t') E)
    (hs : Inv [] s) :
  Exec.Meets (walk item n num data len) s
    (fun r t => r = (data + total vs, len - total vs) ∧ Inv vs t) E
  := by
  have hnever : ∀ i d l t, False → Exec.Meets (item i d l) t (fun _ _ => False) E :=
    fun _ _ _ _ h => h.elim
  apply (walk_visits_or hsize hnever Inv hvs hlen _ hs).mono
  · exact fun _ _ h => h.resolve_left id
  · exact fun _ _ he => he
  · intro us v ws t heq ht
    exact (hstep us v ws t heq ht).mono (fun _ _ h => .inr h) fun _ _ he => he

/-- A walk whose items follow `size` and have the effects `effect` succeeds exactly when
the `n` items exist and all of them have effects, and ends after them. -/
theorem walk_ok
    {size : (data len : Nat) → Option Nat} {effect : Visit → σ → Option σ}
    (Inv : (data len : Nat) → σ → Prop)
    (hsize : ∀ d l k, size d l = some k → k ≤ l)
    (hitem : ∀ i d l t, Inv d l t → Exec.Meets (item i d l) t
      (fun k t' => size d l = some k ∧ effect ⟨d, k⟩ t = some t')
      (fun _ _ => ∀ k, size d l = some k → effect ⟨d, k⟩ t = none))
    (hkeep : ∀ d l t k t', Inv d l t → size d l = some k → effect ⟨d, k⟩ t = some t' →
      Inv (d + k) (l - k) t')
    {n num data len : Nat} {s s' : σ} {d l : Nat} (hlen : len < 4294967296) (h : Inv data len s) :
  (walk item n num data len).run s = .ok (d, l) s'
    ↔ ∃ vs, visits size n data len = some vs ∧ effects effect vs s = some s'
      ∧ d = data + total vs ∧ l = len - total vs
  := by
  induction n generalizing num data len s with
  | zero =>
      constructor
      · intro hrun
        cases hrun
        use []
        exact ⟨rfl, rfl, rfl, rfl⟩
      · rintro ⟨vs, hvs, heff, rfl, rfl⟩
        obtain rfl := Option.some.inj hvs
        obtain rfl := Option.some.inj heff
        rfl
  | succ n ih =>
      rw [walk, Exec.run_bind_ok]
      constructor
      · rintro ⟨k, t, hk, hrest⟩
        obtain ⟨hk, ht⟩ := (hitem num data len s h).of_ok hk
        have hle := hsize _ _ _ hk
        rw [u32_sub hle hlen] at hrest
        obtain ⟨vs, hvs, heff, rfl, rfl⟩ :=
          (ih (by omega) (hkeep _ _ _ _ _ h hk ht)).mp hrest
        use ⟨data, k⟩ :: vs, visits_succ.mpr ⟨k, vs, hk, hvs, rfl⟩
        constructor
        · simp only [effects, ht, Option.bind_some, heff]
        · simp only [total_cons]
          omega
      · rintro ⟨vs, hvs, heff, rfl, rfl⟩
        obtain ⟨k, ws, hk, hws, rfl⟩ := visits_succ.mp hvs
        obtain ⟨t, ht, heff⟩ := Option.bind_eq_some_iff.mp heff
        have hle := hsize _ _ _ hk
        have hrun : (item num data len).run s = .ok k t := by
          cases hrun : (item num data len).run s with
          | ok k' t' =>
              obtain ⟨hk', ht'⟩ := (hitem num data len s h).of_ok hrun
              obtain rfl := Option.some.inj (hk.symm.trans hk')
              obtain rfl := Option.some.inj (ht.symm.trans ht')
              rfl
          | error e t' =>
              have hno := (hitem num data len s h).of_error hrun k hk
              cases ht.symm.trans hno
        use k, t, hrun
        rw [u32_sub hle hlen]
        apply (ih (by omega) (hkeep _ _ _ _ _ h hk ht)).mpr
        use ws, hws, heff
        simp only [total_cons]
        omega

end Rules

end Walk
