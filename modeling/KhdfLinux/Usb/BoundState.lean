import KhdfLinux.Lib.Run
import KhdfLinux.Usb.Uapi

/-!
# The bound state

The first function of an instance that is bound binds the `ffs_data`: it sets the flag
`FFS_FL_BOUND`, the request and the gadget, and takes a reference; the last one that is
unbound undoes this, which is counted in `refcnt` of the instance.  `bound_consistent`: the
flag, the pointers and the counts agree, exactly as long as the bind does not fail between the
flag and the pointers, and no function is unbound whose bind has already undone its count.
-/

namespace Ffs

/-- What comes of the steps of a bind: `descReady` tells if the instance is ready, `active` if
the state is `FFS_ACTIVE`, `stringIds` is what `usb_string_ids_n` returns, `allocRequest` tells
if the request is allocated, and `funcBind` is what `_ffs_func_bind` returns. -/
structure BindEnv where
  descReady : Bool
  active : Bool
  stringIds : Int
  allocRequest : Bool
  funcBind : Int
  deriving DecidableEq, Repr

/-- The bound state of an instance and its `ffs_data`, and the functions that composite takes
to be bound. -/
structure BoundState where
  flagBound : Bool
  gadget : Bool
  ep0req : Bool
  ref : Nat
  refcnt : UInt32
  functions : List Nat
  deriving DecidableEq, Repr

namespace BoundState

/-- `functionfs_bind`. -/
def functionfsBind (s : BoundState) (env : BindEnv) : BoundState × Int :=
  if ¬env.active ∨ s.flagBound then
    (s, -ebadfd)
  else
    let s := { s with flagBound := true }
    if env.stringIds < 0 then
      (s, env.stringIds)
    else if ¬env.allocRequest then
      ({ s with ep0req := false }, -enomem)
    else
      ({ s with ep0req := true, gadget := true, ref := s.ref + 1 }, 0)

/-- `functionfs_unbind`. -/
def functionfsUnbind (s : BoundState) : BoundState :=
  if s.gadget then
    { s with ep0req := false, gadget := false, flagBound := false, ref := s.ref - 1 }
  else
    s

/-- `ffs_do_functionfs_bind`. -/
def ffsDoFunctionfsBind (s : BoundState) (env : BindEnv) : BoundState × Int :=
  if ¬env.descReady then
    (s, -enodev)
  else if s.refcnt = 0 then
    let (s, ret) := s.functionfsBind env
    if ret ≠ 0 then (s, ret) else ({ s with refcnt := s.refcnt + 1 }, 0)
  else
    ({ s with refcnt := s.refcnt + 1 }, 0)

/-- The last reference to the bound state is dropped. -/
def drop (s : BoundState) : BoundState :=
  let s := { s with refcnt := s.refcnt - 1 }
  if s.refcnt = 0 then s.functionfsUnbind else s

/-- `ffs_func_bind`. -/
def ffsFuncBind (s : BoundState) (env : BindEnv) : BoundState × Int :=
  let (s, ret) := s.ffsDoFunctionfsBind env
  if ret ≠ 0 then
    (s, ret)
  else if env.funcBind ≠ 0 then
    (s.drop, env.funcBind)
  else
    (s, 0)

end BoundState

/-- What is done with the functions of an instance. -/
inductive BindAct where
  | bind (func : Nat) (env : BindEnv)
  | unbind (func : Nat)
  deriving DecidableEq, Repr

namespace BoundState

/-- The next bound state.  Composite takes a function to be bound if its bind returns no
negative code, and unbinds only such functions. -/
def step (s : BoundState) : BindAct → Option BoundState
  | .bind func env =>
      if func ∈ s.functions then none
      else
        let (t, ret) := s.ffsFuncBind env
        some (if 0 ≤ ret then { t with functions := func :: t.functions } else t)
  | .unbind func =>
      if func ∈ s.functions then some { s.drop with functions := s.functions.erase func }
      else none

/-- The flag is set if and only if the gadget and the request are there, if and only if the
count of the instance is positive, and then there is one reference more than when it is not
bound. -/
structure Consistent (ref : Nat) (s : BoundState) : Prop where
  pointers : s.flagBound ↔ s.gadget ∧ s.ep0req
  count : s.flagBound ↔ 0 < s.refcnt
  ref : s.ref = if s.flagBound then ref + 1 else ref

/-- The condition on a step.  A bind that sets the flag does not fail to allocate the string
ids or the request, and the count does not wrap; and there is a count to undo when a function
is unbound. -/
def KeepsBound (s : BoundState) : BindAct → Prop
  | .bind _ env =>
      (env.descReady ∧ env.active ∧ s.refcnt = 0 → 0 ≤ env.stringIds ∧ env.allocRequest)
        ∧ (env.descReady ∧ s.refcnt = 4294967295 → env.funcBind ≠ 0)
  | .unbind _ => 0 < s.refcnt

/-- The invariant: each pointer is there exactly if the flag is set. -/
structure Bound (ref : Nat) (s : BoundState) : Prop where
  gadget : s.gadget = s.flagBound
  ep0req : s.ep0req = s.flagBound
  count : s.flagBound ↔ 0 < s.refcnt
  ref : s.ref = if s.flagBound then ref + 1 else ref

variable {ref : Nat} {s t : BoundState}

theorem Bound.consistent (h : s.Bound ref) :
  s.Consistent ref
  := by
  refine ⟨?_, h.count, h.ref⟩
  rw [h.gadget, h.ep0req, and_self]

/-- Whatever composite takes to be bound. -/
theorem Bound.withFunctions (h : s.Bound ref) (functions : List Nat) :
  Bound ref { s with functions := functions }
  := ⟨h.gadget, h.ep0req, h.count, h.ref⟩

/-- The flag is not set as long as nothing is counted. -/
theorem Bound.flagBound_eq_false (h : s.Bound ref) (hzero : s.refcnt = 0) :
  s.flagBound = false
  := by
  rw [← Bool.not_eq_true, h.count, hzero]
  decide

/-- A count is dropped, and the last one unbinds. -/
theorem Bound.drop (h : s.Bound ref) (hpos : 0 < s.refcnt) :
  s.drop.Bound ref
  := by
  have hflag : s.flagBound = true := h.count.mpr hpos
  unfold BoundState.drop
  dsimp only
  by_cases hlast : s.refcnt - 1 = 0
  · rw [if_pos hlast]
    unfold functionfsUnbind
    rw [if_pos (h.gadget.trans hflag)]
    refine ⟨rfl, rfl, ?_, ?_⟩
    · dsimp only
      rw [hlast]
      decide
    · have href := h.ref
      rw [hflag] at href
      simp [href]
  · rw [if_neg hlast]
    refine ⟨h.gadget, h.ep0req, ?_, h.ref⟩
    dsimp only
    rw [hflag]
    refine iff_of_true rfl ?_
    rw [UInt32.lt_iff_toNat_lt]
    apply Nat.pos_of_ne_zero fun hzero => hlast (UInt32.toNat_inj.mp hzero)

/-- `functionfs_bind` of an instance that is not bound binds it, fails and changes nothing,
or fails with the flag set and a pointer null. -/
theorem Bound.functionfsBind (h : s.Bound ref) (env : BindEnv) (hzero : s.refcnt = 0) :
  (env.active = false ∧ s.functionfsBind env = (s, -ebadfd))
    ∨ (env.active ∧ 0 ≤ env.stringIds ∧ env.allocRequest
      ∧ s.functionfsBind env
        = ({ s with flagBound := true, ep0req := true, gadget := true, ref := s.ref + 1 }, 0))
    ∨ (env.active ∧ ¬(0 ≤ env.stringIds ∧ env.allocRequest)
      ∧ ∃ u ret, s.functionfsBind env = (u, ret) ∧ ret ≠ 0 ∧ u.flagBound ∧ ¬u.gadget)
  := by
  have hflag := h.flagBound_eq_false hzero
  have hgadget := h.gadget.trans hflag
  unfold BoundState.functionfsBind
  cases hactive : env.active with
  | false => exact .inl ⟨rfl, by simp⟩
  | true =>
      rw [if_neg (by simp [hflag])]
      dsimp only
      by_cases hids : env.stringIds < 0
      · refine .inr (.inr ⟨rfl, by omega, _, _, if_pos hids, by omega, rfl, ?_⟩)
        simp [hgadget]
      · rw [if_neg hids]
        cases halloc : env.allocRequest with
        | false =>
            refine .inr (.inr ⟨rfl, by simp, _, _, rfl, by decide, rfl, ?_⟩)
            simp [hgadget]
        | true => exact .inr (.inl ⟨rfl, by omega, rfl, by simp⟩)

/-- One more count. -/
theorem Bound.count_succ (h : s.Bound ref) (hpos : 0 < s.refcnt) (hmax : s.refcnt ≠ 4294967295) :
  Bound ref { s with refcnt := s.refcnt + 1 }
  := by
  refine ⟨h.gadget, h.ep0req, ?_, h.ref⟩
  refine iff_of_true (h.count.mpr hpos) ?_
  have hne : s.refcnt.toNat ≠ 4294967295 := fun heq => hmax (UInt32.toNat_inj.mp heq)
  have hlt := s.refcnt.toNat_lt
  rw [UInt32.lt_iff_toNat_lt] at hpos ⊢
  simp only [UInt32.toNat_add, UInt32.reduceToNat] at hpos ⊢
  omega

/-- A bind of a function of an instance that is not bound. -/
theorem Bound.ffsFuncBind_first (h : s.Bound ref) {env : BindEnv} (hready : env.descReady)
    (hzero : s.refcnt = 0) :
  ((env.active → 0 ≤ env.stringIds ∧ env.allocRequest) ∧ (s.ffsFuncBind env).1.Bound ref)
    ∨ (¬(env.active → 0 ≤ env.stringIds ∧ env.allocRequest)
      ∧ ¬(s.ffsFuncBind env).1.Consistent ref)
  := by
  unfold ffsFuncBind ffsDoFunctionfsBind
  rw [if_neg (not_not.mpr hready), if_pos hzero]
  obtain ⟨hactive, hbind⟩ | ⟨hactive, hids, halloc, hbind⟩ | ⟨hactive, hfails, u, ret, hbind, hret,
    hflag, hgadget⟩ := h.functionfsBind env hzero
  · refine .inl ⟨by simp [hactive], ?_⟩
    simp only [hbind]
    apply h
  · refine .inl ⟨fun _ => ⟨hids, halloc⟩, ?_⟩
    have hflag := h.flagBound_eq_false hzero
    have href := h.ref
    rw [hflag] at href
    have hbound : Bound ref { s with
        flagBound := true, ep0req := true, gadget := true, ref := s.ref + 1,
        refcnt := s.refcnt + 1 } := by
      refine ⟨rfl, rfl, ?_, ?_⟩
      · dsimp only
        rw [hzero]
        decide
      · simp [href]
    have hpos : 0 < s.refcnt + 1 := by
      rw [hzero]
      decide
    simp only [hbind]
    rw [if_neg (not_not.mpr rfl)]
    dsimp only
    rw [if_neg (not_not.mpr rfl)]
    split_ifs
    · apply hbound.drop hpos
    · apply hbound
  · refine .inr ⟨fun hok => hfails (hok hactive), fun hcons => ?_⟩
    simp only [hbind, if_pos hret] at hcons
    apply hgadget (hcons.pointers.mp hflag).1

/-- A bind of a further function. -/
theorem Bound.ffsFuncBind_next (h : s.Bound ref) {env : BindEnv} (hready : env.descReady)
    (hpos : 0 < s.refcnt) :
  ((s.refcnt = 4294967295 → env.funcBind ≠ 0) ∧ (s.ffsFuncBind env).1.Bound ref)
    ∨ (¬(s.refcnt = 4294967295 → env.funcBind ≠ 0) ∧ ¬(s.ffsFuncBind env).1.Consistent ref)
  := by
  have hzero : s.refcnt ≠ 0 := by
    rintro heq
    rw [heq] at hpos
    exact absurd hpos (by decide)
  have hflag := h.count.mpr hpos
  unfold ffsFuncBind ffsDoFunctionfsBind
  rw [if_neg (not_not.mpr hready), if_neg hzero]
  dsimp only
  by_cases hfunc : env.funcBind = 0
  · rw [if_neg (by simp), if_neg (by simp [hfunc])]
    by_cases hmax : s.refcnt = 4294967295
    · refine .inr ⟨fun hne => hne hmax hfunc, fun hcons => ?_⟩
      have hcount := hcons.count.mp hflag
      dsimp only at hcount
      rw [hmax] at hcount
      exact absurd hcount (by decide)
    · exact .inl ⟨fun heq => absurd heq hmax, h.count_succ hpos hmax⟩
  · refine .inl ⟨fun _ => hfunc, ?_⟩
    rw [if_neg (by simp), if_pos hfunc]
    have hback : s.refcnt + 1 - 1 = s.refcnt := by simp
    unfold BoundState.drop
    simp only [hback, if_neg hzero]
    apply h

/-- A bind keeps the state consistent exactly if it meets the condition. -/
theorem Bound.ffsFuncBind (h : s.Bound ref) (func : Nat) (env : BindEnv) :
  (s.KeepsBound (.bind func env) ∧ (s.ffsFuncBind env).1.Bound ref)
    ∨ (¬s.KeepsBound (.bind func env) ∧ ¬(s.ffsFuncBind env).1.Consistent ref)
  := by
  unfold KeepsBound
  by_cases hready : env.descReady
  · by_cases hzero : s.refcnt = 0
    · have hmax : ¬s.refcnt = 4294967295 := by
        rw [hzero]
        decide
      simp only [hready, hzero, true_and, and_true]
      have := h.ffsFuncBind_first hready hzero
      simpa [hmax] using this
    · have hpos : 0 < s.refcnt := by
        rw [UInt32.lt_iff_toNat_lt]
        apply Nat.pos_of_ne_zero fun heq => hzero (UInt32.toNat_inj.mp heq)
      simpa [hready, hzero] using h.ffsFuncBind_next hready hpos
  · refine .inl ⟨by simp [hready], ?_⟩
    unfold BoundState.ffsFuncBind ffsDoFunctionfsBind
    rw [if_pos hready]
    apply h

/-- A step from a bound state keeps it consistent exactly if it meets the condition, and then
keeps the invariant. -/
theorem Bound.step (h : s.Bound ref) {a : BindAct} (ht : s.step a = some t) :
  (s.KeepsBound a ∧ t.Bound ref) ∨ (¬s.KeepsBound a ∧ ¬t.Consistent ref)
  := by
  cases a with
  | bind func env =>
      simp only [BoundState.step] at ht
      by_cases hfunc : func ∈ s.functions
      · rw [if_pos hfunc] at ht
        cases ht
      rw [if_neg hfunc] at ht
      obtain rfl := Option.some.inj ht
      have hbind : (s.KeepsBound (.bind func env) ∧ (s.ffsFuncBind env).1.Bound ref)
          ∨ (¬s.KeepsBound (.bind func env) ∧ ¬(s.ffsFuncBind env).1.Consistent ref) :=
        h.ffsFuncBind func env
      split_ifs
      · refine hbind.imp (And.imp_right fun hbound => hbound.withFunctions _) ?_
        exact And.imp_right fun hnot hcons => hnot ⟨hcons.pointers, hcons.count, hcons.ref⟩
      · apply hbind
  | unbind func =>
      simp only [BoundState.step] at ht
      split_ifs at ht with hfunc
      obtain rfl := Option.some.inj ht
      by_cases hpos : 0 < s.refcnt
      · exact .inl ⟨hpos, (h.drop hpos).withFunctions _⟩
      · refine .inr ⟨hpos, fun hcons => ?_⟩
        have hzero : s.refcnt = 0 := by
          rw [UInt32.lt_iff_toNat_lt] at hpos
          apply UInt32.toNat_inj.mp (Nat.eq_zero_of_not_pos hpos)
        have hflag := h.flagBound_eq_false hzero
        have hdrop : s.drop = { s with refcnt := 4294967295 } := by
          unfold BoundState.drop
          rw [hzero]
          rfl
        have hcount := hcons.count
        rw [hdrop] at hcount
        dsimp only at hcount
        rw [hflag] at hcount
        exact absurd (hcount.mpr (by decide)) (by decide)

/-- A bind whose resources are available succeeds in a bound state. -/
theorem Bound.ffsFuncBind_succeeds (h : s.Bound ref) {env : BindEnv} (hready : env.descReady)
    (hactive : env.active) (hids : 0 ≤ env.stringIds) (halloc : env.allocRequest)
    (hfunc : env.funcBind = 0) :
  (s.ffsFuncBind env).2 = 0
  := by
  unfold BoundState.ffsFuncBind ffsDoFunctionfsBind
  rw [if_neg (not_not.mpr hready)]
  by_cases hzero : s.refcnt = 0
  · rw [if_pos hzero]
    obtain ⟨hnot, -⟩ | ⟨-, -, -, hbind⟩ | ⟨-, hfails, -⟩ := h.functionfsBind env hzero
    · rw [hactive] at hnot
      cases hnot
    · simp only [hbind]
      rw [if_neg (not_not.mpr rfl)]
      dsimp only
      rw [if_neg (not_not.mpr rfl), if_neg (not_not.mpr hfunc)]
    · exact absurd ⟨hids, halloc⟩ hfails
  · rw [if_neg hzero]
    dsimp only
    rw [if_neg (not_not.mpr rfl), if_neg (not_not.mpr hfunc)]

end BoundState

/-- An instance none of whose functions is bound, with `ref` references to its `ffs_data`. -/
def boundStateNew (ref : Nat) : BoundState where
  flagBound := false
  gadget := false
  ep0req := false
  ref := ref
  refcnt := 0
  functions := []

namespace BoundState

variable {ref : Nat} {s : BoundState}

/-- If no bind fails between the flag and the pointers, the count does not wrap, and no function
is unbound while nothing is counted, then the bound state is consistent after every call, and a
bind whose resources are available succeeds; and a further call keeps it consistent exactly if
it meets the condition too. -/
theorem bound_consistent {as : List BindAct}
    (h : Run (fun s a t => s.KeepsBound a ∧ s.step a = some t) (boundStateNew ref) as s) :
  s.Consistent ref
    ∧ (∀ env : BindEnv, env.descReady → env.active → 0 ≤ env.stringIds → env.allocRequest →
        env.funcBind = 0 → (s.ffsFuncBind env).2 = 0)
    ∧ ∀ a t, s.step a = some t → (t.Consistent ref ↔ s.KeepsBound a)
  := by
  have hnew : (boundStateNew ref).Bound ref := ⟨rfl, rfl, by simp [boundStateNew], rfl⟩
  have hs : s.Bound ref := by
    refine h.keeps (Bound ref) ?_ hnew
    intro s a t hs ⟨hkeeps, hstep⟩
    obtain ⟨-, ht⟩ | ⟨hnot, -⟩ := hs.step hstep
    · apply ht
    · apply absurd hkeeps hnot
  refine ⟨hs.consistent, fun env => hs.ffsFuncBind_succeeds, fun a t hstep => ?_⟩
  obtain ⟨hkeeps, ht⟩ | ⟨hnot, hfails⟩ := hs.step hstep
  · apply iff_of_true ht.consistent hkeeps
  · apply iff_of_false hfails hnot

/-- A bind whose steps all succeed. -/
def bindOk : BindEnv where
  descReady := true
  active := true
  stringIds := 1
  allocRequest := true
  funcBind := 0

/-- A function is bound after a bind whose last step failed, and unbound. -/
theorem bound_consistent_retry :
  ∃ s, Run (fun s a t => s.KeepsBound a ∧ s.step a = some t) (boundStateNew 1)
      [.bind 0 { bindOk with funcBind := -enomem }, .bind 0 bindOk, .unbind 0] s
    ∧ s.Consistent 1
  := by
  have hpos : (0 : UInt32) < 1 := by decide
  have hids : (0 : Int) ≤ 1 := by decide
  have hrun : ∃ s, Run (fun s a t => s.KeepsBound a ∧ s.step a = some t) (boundStateNew 1)
      [.bind 0 { bindOk with funcBind := -enomem }, .bind 0 bindOk, .unbind 0] s :=
    ⟨_, .cons ⟨⟨fun _ => ⟨hids, rfl⟩, nofun⟩, rfl⟩
      (.cons ⟨⟨fun _ => ⟨hids, rfl⟩, nofun⟩, rfl⟩
        (.cons ⟨hpos, rfl⟩ (.nil _)))⟩
  obtain ⟨s, hrun⟩ := hrun
  exact ⟨s, hrun, (bound_consistent hrun).1⟩

/-- The request of the first bind cannot be allocated: the flag stays set without a gadget, and
every later bind fails. -/
theorem failed_bind_stays_bound :
  ∃ s, Run (fun s a t => s.step a = some t) (boundStateNew 1)
      [.bind 0 { bindOk with allocRequest := false }] s
    ∧ s.flagBound ∧ ¬s.gadget ∧ ¬s.Consistent 1 ∧ (s.ffsFuncBind bindOk).2 = -ebadfd
  := by
  refine ⟨_, .cons rfl (.nil _), rfl, by decide, fun h => ?_, rfl⟩
  have hpointers := h.pointers
  revert hpointers
  decide

end BoundState

end Ffs
