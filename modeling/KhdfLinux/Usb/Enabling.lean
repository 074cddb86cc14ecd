import KhdfLinux.Usb.Endpoints

/-!
# Endpoints are enabled all or none

`all_or_nothing`: after every call all endpoints of the function that is active are enabled
and linked to the endpoint files, or none is enabled, as long as no endpoint fails to be
enabled and no setting is selected after the `ffs_data` stopped to be active with a function
enabled.
-/

namespace Ffs

/-- The last of the events `ENABLE` and `DISABLE` that were queued. -/
def lastEnabling : List EpsEvent → Option EventType
  | [] => none
  | .queued .enable :: _ => some .enable
  | .queued .disable :: _ => some .disable
  | _ :: log => lastEnabling log

/-- Was the event `ENABLE` queued since the endpoints were disabled? -/
def enabledSince : List EpsEvent → Bool
  | [] => false
  | .disabled :: _ => false
  | .queued .enable :: _ => true
  | .queued _ :: log => enabledSince log

namespace EpsState

/-- All endpoints of the function are enabled, every `ep` of an endpoint file is the matching
endpoint, and the last event of its kind was `ENABLE`. -/
structure Enabled (s : EpsState) (id : Nat) (func : FfsFunction) : Prop where
  active : s.func = some id
  bound : s.funcs.lookup id = some func
  eps : ∀ i < s.epsCount, ∃ ep ∈ s.enabled, func.eps i = some ep
  epfiles : ∀ i < s.epsCount, s.epfileEp i = some (id, i)
  last : lastEnabling s.log = some .enable

/-- No endpoint can be used. -/
structure NoneUsable (s : EpsState) : Prop where
  enabled : s.enabled = []
  epfiles : ∀ i < s.epsCount, s.epfileEp i = none

/-- Either all endpoints of the active function are enabled, or no endpoint is enabled, every
`ep` of an endpoint file is null, and no event `ENABLE` was queued since. -/
def AllOrNothing (s : EpsState) : Prop :=
  (∃ id func, s.Enabled id func) ∨ s.NoneUsable ∧ enabledSince s.log = false

/-- What holds after a call that returned `ret`; in particular a setting that failed to be
selected leaves no endpoint usable and no function active. -/
def AllOrNothingAfter (s : EpsState) (a : EpsAct) (ret : Int) : Prop :=
  s.AllOrNothing
    ∧ match a with
      | .setAlt .. | .disable _ => ret < 0 → s.NoneUsable ∧ s.func = none
      | _ => True

/-- The condition on a step.  A setting that is selected while the `ffs_data` is active has all
its endpoints enabled, and where it is not active no function is. -/
def KeepsEnabled (s : EpsState) : EpsAct → Prop
  | .setAlt _ _ _ codes =>
      (s.state = .active → ∀ i < s.epsCount, codes.config i = 0 ∧ codes.enable i = 0)
        ∧ (s.state ≠ .active → s.func = none)
  | .disable _ => s.state ≠ .active → s.func = none
  | _ => True

variable {s t : EpsState}

/-! ### The loops -/

/-- The states differ in the endpoints that are enabled and linked at most. -/
structure SameButEps (s t : EpsState) : Prop where
  state : t.state = s.state
  epsCount : t.epsCount = s.epsCount
  func : t.func = s.func
  funcs : t.funcs = s.funcs
  log : t.log = s.log

theorem SameButEps.refl (s : EpsState) :
  s.SameButEps s
  := ⟨rfl, rfl, rfl, rfl, rfl⟩

theorem SameButEps.trans {u : EpsState} (h : s.SameButEps t) (h' : t.SameButEps u) :
  s.SameButEps u
  :=
  ⟨h'.state.trans h.state, h'.epsCount.trans h.epsCount, h'.func.trans h.func,
    h'.funcs.trans h.funcs, h'.log.trans h.log⟩

theorem sameButEps_setEp (s : EpsState) (i : Nat) (ep : Option (Nat × Nat)) :
  s.SameButEps (s.setEp i ep)
  := ⟨rfl, rfl, rfl, rfl, rfl⟩

theorem sameButEps_usbEpDisable (s : EpsState) (ep : Nat) :
  s.SameButEps (s.usbEpDisable ep)
  := ⟨rfl, rfl, rfl, rfl, rfl⟩

theorem sameButEps_usbEpEnable (s : EpsState) (ep : Nat) :
  s.SameButEps (s.usbEpEnable ep)
  := ⟨rfl, rfl, rfl, rfl, rfl⟩

/-- The `ep` of the other endpoint files stays. -/
theorem epfileEp_setEp_ne {i j : Nat} (ep : Option (Nat × Nat)) (h : j ≠ i) :
  (s.setEp i ep).epfileEp j = s.epfileEp j
  := by
  unfold setEp epfileEp
  cases s.epfiles with
  | none => rfl
  | some epfiles => exact Function.update_of_ne h _ _

/-- The `ep` that is cleared. -/
theorem epfileEp_setEp_none (s : EpsState) (i : Nat) :
  (s.setEp i none).epfileEp i = none
  := by
  unfold setEp epfileEp
  cases s.epfiles with
  | none => rfl
  | some epfiles => exact Function.update_self _ _ _

/-- The `ep` that is set, if the endpoint files are there. -/
theorem epfileEp_setEp_self (i : Nat) (ep : Option (Nat × Nat)) {epfiles : Nat → Option (Nat × Nat)}
    (h : s.epfiles = some epfiles) :
  (s.setEp i ep).epfileEp i = ep
  := by
  unfold setEp epfileEp
  rw [h]
  apply Function.update_self _ _ _

/-- What the loop of `ffs_func_eps_disable` does: the endpoints it passes are not enabled
afterwards, and the files it passes have no `ep`. -/
structure DisablesTo (func : FfsFunction) (count i : Nat) (s t : EpsState) : Prop where
  same : s.SameButEps t
  enabled : ∀ e ∈ t.enabled, e ∈ s.enabled ∧ ∀ j, i ≤ j → j < i + count → func.eps j ≠ some e
  epfiles : ∀ j, i ≤ j → j < i + count → t.epfileEp j = none
  others : ∀ j < i, t.epfileEp j = s.epfileEp j

theorem epsDisableLoop_disablesTo (func : FfsFunction) (count i : Nat) (s : EpsState) :
  DisablesTo func count i s (epsDisableLoop func count i s)
  := by
  induction count generalizing i s with
  | zero => exact ⟨.refl s, fun e he => ⟨he, by omega⟩, by omega, fun _ _ => rfl⟩
  | succ count ih =>
      have hstep : ∃ u : EpsState, s.SameButEps u ∧ (∀ j, u.epfileEp j = s.epfileEp j)
          ∧ (∀ e ∈ u.enabled, e ∈ s.enabled ∧ func.eps i ≠ some e)
          ∧ epsDisableLoop func (count + 1) i s
            = epsDisableLoop func count (i + 1) (u.setEp i none) := by
        cases hep : func.eps i with
        | none =>
            refine ⟨s, .refl s, fun _ => rfl, fun e he => ⟨he, nofun⟩, ?_⟩
            simp only [epsDisableLoop, hep]
        | some ep =>
            refine ⟨s.usbEpDisable ep, sameButEps_usbEpDisable s ep, fun _ => rfl, ?_, ?_⟩
            · intro e he
              obtain ⟨hmem, hne⟩ := List.mem_filter.mp he
              refine ⟨hmem, fun heq => ?_⟩
              apply of_decide_eq_true hne (Option.some.inj heq).symm
            · simp only [epsDisableLoop, hep]
      obtain ⟨u, hsame, heps, henabled, heq⟩ := hstep
      rw [heq]
      have hrest := ih (i + 1) (u.setEp i none)
      refine ⟨(hsame.trans (sameButEps_setEp u i none)).trans hrest.same, ?_, ?_, ?_⟩
      · intro e he
        obtain ⟨hmem, hothers⟩ := hrest.enabled e he
        obtain ⟨hmem', hne⟩ := henabled e hmem
        refine ⟨hmem', fun j hle hlt => ?_⟩
        by_cases hj : j = i
        · rw [hj]
          apply hne
        · exact hothers j (by omega) (by omega)
      · intro j hle hlt
        by_cases hj : j = i
        · rw [hj, hrest.others i (by omega), epfileEp_setEp_none]
        · exact hrest.epfiles j (by omega) (by omega)
      · intro j hlt
        rw [hrest.others j (by omega), epfileEp_setEp_ne none (by omega), heps]

/-- What the loop of `ffs_func_eps_enable` does, if all endpoints are enabled. -/
structure EnablesTo (id : Nat) (func : FfsFunction) (count i : Nat) (s t : EpsState) : Prop where
  eps : ∀ j, i ≤ j → j < i + count → ∃ ep ∈ t.enabled, func.eps j = some ep
  enabled : ∀ e ∈ t.enabled, e ∈ s.enabled ∨ ∃ j < i + count, func.eps j = some e
  epfiles : ∀ j, i ≤ j → j < i + count → t.epfileEp j = some (id, j)

/-- The loop of `ffs_func_eps_enable` enables all endpoints if their codes are zero; else the
endpoint of a code that is not is not linked, and a code that is not zero is returned. -/
theorem epsEnableLoop_spec {id : Nat} {func : FfsFunction} {codes : EnableCodes} {count i : Nat}
    {ret : Int} (h : epsEnableLoop id func codes count i s = .ok (t, ret)) :
  s.SameButEps t
    ∧ (∀ e ∈ s.enabled, e ∈ t.enabled)
    ∧ (∀ j < i, t.epfileEp j = s.epfileEp j)
    ∧ ((ret = 0 ∧ (∀ j, i ≤ j → j < i + count → codes.config j = 0 ∧ codes.enable j = 0)
        ∧ EnablesTo id func count i s t)
      ∨ (ret ≠ 0 ∧ ∃ j, i ≤ j ∧ j < i + count ∧ ¬(codes.config j = 0 ∧ codes.enable j = 0)
        ∧ t.epfileEp j = s.epfileEp j))
  := by
  induction count generalizing i s with
  | zero =>
      cases h
      refine ⟨.refl _, fun _ he => he, fun _ _ => rfl, .inl ⟨rfl, by omega, ?_⟩⟩
      exact ⟨by omega, fun e he => .inl he, by omega⟩
  | succ count ih =>
      unfold epsEnableLoop at h
      cases hep : func.eps i with
      | none =>
          rw [hep] at h
          cases h
      | some ep =>
          simp only [hep] at h
          by_cases hconfig : codes.config i = 0
          · rw [if_neg (not_not.mpr hconfig)] at h
            by_cases henable : codes.enable i = 0
            · rw [if_neg (not_not.mpr henable)] at h
              cases hfiles : s.epfiles with
              | none =>
                  rw [hfiles] at h
                  cases h
              | some epfiles =>
                  simp only [hfiles] at h
                  obtain ⟨hsame, hkept, hothers, hrest⟩ := ih h
                  have hlink : ∀ j < i + 1, t.epfileEp j
                      = ((s.usbEpEnable ep).setEp i (some (id, i))).epfileEp j := hothers
                  have hlinked : t.epfileEp i = some (id, i) := by
                    rw [hlink i (by omega)]
                    apply epfileEp_setEp_self (s := s.usbEpEnable ep) i _ hfiles
                  refine ⟨?_, fun e he => hkept e (List.mem_cons_of_mem _ he), ?_, ?_⟩
                  · exact ((sameButEps_usbEpEnable s ep).trans
                      (sameButEps_setEp _ i _)).trans hsame
                  · intro j hj
                    rw [hlink j (by omega), epfileEp_setEp_ne _ (by omega)]
                    rfl
                  · refine hrest.imp ?_ ?_
                    · rintro ⟨hret, hcodes, hto⟩
                      refine ⟨hret, fun j hle hlt => ?_, fun j hle hlt => ?_, ?_,
                        fun j hle hlt => ?_⟩
                      · by_cases hj : j = i
                        · rw [hj]
                          exact ⟨hconfig, henable⟩
                        · exact hcodes j (by omega) (by omega)
                      · by_cases hj : j = i
                        · rw [hj]
                          exact ⟨ep, hkept ep (List.mem_cons_self ..), hep⟩
                        · exact hto.eps j (by omega) (by omega)
                      · intro e he
                        obtain hmem | ⟨j, hlt, hj⟩ := hto.enabled e he
                        · obtain rfl | hmem := List.mem_cons.mp hmem
                          · exact .inr ⟨i, by omega, hep⟩
                          · exact .inl hmem
                        · exact .inr ⟨j, by omega, hj⟩
                      · by_cases hj : j = i
                        · rw [hj]
                          apply hlinked
                        · exact hto.epfiles j (by omega) (by omega)
                    · rintro ⟨hret, j, hle, hlt, hcode, hj⟩
                      refine ⟨hret, j, by omega, by omega, hcode, ?_⟩
                      rw [hj, epfileEp_setEp_ne _ (by omega)]
                      rfl
            · rw [if_pos henable] at h
              cases h
              refine ⟨.refl _, fun _ he => he, fun _ _ => rfl, .inr ⟨henable, i, ?_⟩⟩
              exact ⟨by omega, by omega, fun hcode => henable hcode.2, rfl⟩
          · rw [if_pos hconfig] at h
            cases h
            refine ⟨.refl _, fun _ he => he, fun _ _ => rfl, .inr ⟨hconfig, i, ?_⟩⟩
            exact ⟨by omega, by omega, fun hcode => hconfig hcode.1, rfl⟩

/-! ### The invariant -/

/-- The invariant: without an active function no endpoint can be used, and else its endpoints
are enabled and no others.  Before the strings are accepted no function is bound. -/
structure Inv (s : EpsState) : Prop where
  idle : s.func = none → s.NoneUsable ∧ enabledSince s.log = false
  busy : ∀ id, s.func = some id →
    ∃ func, s.Enabled id func ∧ ∀ e ∈ s.enabled, ∃ i < s.epsCount, func.eps i = some e
  young : s.state = .readDescriptors ∨ s.state = .readStrings →
    s.func = none ∧ s.funcs = [] ∧ s.epfiles = none

theorem Inv.allOrNothing (h : s.Inv) :
  s.AllOrNothing
  := by
  cases hfunc : s.func with
  | none => exact .inr (h.idle hfunc)
  | some id =>
      obtain ⟨func, henabled, -⟩ := h.busy id hfunc
      exact .inl ⟨id, func, henabled⟩

/-- The code of a call that did not stop the kernel. -/
theorem eq_ok_of_toOption {res : Except Oops (EpsState × Int)} {ret : Int}
    (h : res.toOption = some (t, ret)) :
  res = .ok (t, ret)
  := by
  cases res with
  | error e => cases h
  | ok res =>
      cases h
      rfl

/-- A function is bound after the strings were accepted. -/
theorem Inv.not_young (h : s.Inv) {id : Nat} {func : FfsFunction}
    (hfunc : s.funcs.lookup id = some func) :
  ¬(s.state = .readDescriptors ∨ s.state = .readStrings)
  := by
  intro hyoung
  rw [(h.young hyoung).2.1] at hfunc
  cases hfunc

theorem inv_epsStateNew :
  epsStateNew.Inv
  := ⟨fun _ => ⟨⟨rfl, fun _ _ => rfl⟩, rfl⟩, nofun, fun _ => ⟨rfl, rfl, rfl⟩⟩

/-- The state where only the endpoints and the log changed. -/
structure SameButLog (s t : EpsState) : Prop where
  state : t.state = s.state
  epsCount : t.epsCount = s.epsCount
  func : t.func = s.func
  funcs : t.funcs = s.funcs

/-- `ffs_func_eps_disable` of the function whose endpoints are enabled. -/
theorem ffsFuncEpsDisable_noneUsable {func : FfsFunction}
    (h : ∀ e ∈ s.enabled, ∃ i < s.epsCount, func.eps i = some e) :
  (s.ffsFuncEpsDisable func).NoneUsable ∧ s.SameButLog (s.ffsFuncEpsDisable func)
    ∧ (s.ffsFuncEpsDisable func).log = .disabled :: s.log
  := by
  have hloop := epsDisableLoop_disablesTo func s.epsCount 0 s
  have hcount : (s.ffsFuncEpsDisable func).epsCount = s.epsCount := hloop.same.epsCount
  refine ⟨⟨?_, ?_⟩, ⟨hloop.same.state, hcount, hloop.same.func, hloop.same.funcs⟩, ?_⟩
  · apply List.eq_nil_iff_forall_not_mem.mpr
    intro e he
    obtain ⟨hmem, hnot⟩ := hloop.enabled e he
    obtain ⟨i, hi, hep⟩ := h e hmem
    exact hnot i (by omega) (by omega) hep
  · intro i hi
    rw [hcount] at hi
    exact hloop.epfiles i (by omega) (by omega)
  · apply congrArg _ hloop.same.log

/-- The first part of `ffs_func_set_alt` leaves no endpoint usable. -/
theorem Inv.disableLast (h : s.Inv) {u : EpsState} (hu : s.disableLast = .ok u) :
  u.NoneUsable ∧ enabledSince u.log = false ∧ s.SameButLog u
  := by
  unfold EpsState.disableLast at hu
  cases hfunc : s.func with
  | none =>
      rw [hfunc] at hu
      cases hu
      obtain ⟨hnone, hlog⟩ := h.idle hfunc
      exact ⟨hnone, hlog, rfl, rfl, rfl, rfl⟩
  | some id =>
      obtain ⟨func, henabled, honly⟩ := h.busy id hfunc
      simp only [hfunc, henabled.bound] at hu
      cases hu
      obtain ⟨hnone, hsame, hlog⟩ := ffsFuncEpsDisable_noneUsable honly
      refine ⟨hnone, ?_, hsame⟩
      rw [hlog]
      rfl

/-- Enable the endpoints of a function while none is enabled. -/
theorem enable_spec {u : EpsState} {id : Nat} {func : FfsFunction} {codes : EnableCodes}
    {ret : Int} (hu : u.NoneUsable) (hactive : u.state = .active)
    (hfunc : u.funcs.lookup id = some func)
    (h : { u with func := some id }.ffsFuncEpsEnable id func codes = .ok (t, ret)) :
  ((∀ i < u.epsCount, codes.config i = 0 ∧ codes.enable i = 0) ∧ ret = 0
      ∧ (t.eventAdd .enable).Inv)
    ∨ (¬(∀ i < u.epsCount, codes.config i = 0 ∧ codes.enable i = 0) ∧ ret ≠ 0
      ∧ t.func = some id ∧ ¬(t.eventAdd .enable).AllOrNothing)
  := by
  obtain ⟨hsame, -, -, ⟨hret, hcodes, hto⟩ | ⟨hret, i, -, hlt, hcode, hi⟩⟩ :=
    epsEnableLoop_spec (s := { u with func := some id }) h
  · have hcount : t.epsCount = u.epsCount := hsame.epsCount
    have hactive' : t.func = some id := hsame.func
    refine .inl ⟨fun i hi => hcodes i (by omega) (by dsimp only; omega), hret, ?_, ?_, ?_⟩
    · intro hnone
      have hnone' : t.func = none := hnone
      rw [hactive'] at hnone'
      cases hnone'
    · rintro id' hid'
      have hid : t.func = some id' := hid'
      rw [hactive'] at hid
      obtain rfl := Option.some.inj hid
      refine ⟨func, ⟨hactive', ?_, fun i hi => ?_, fun i hi => ?_, rfl⟩, fun e he => ?_⟩
      · exact (congrArg (List.lookup id) hsame.funcs).trans hfunc
      · exact hto.eps i (by omega) (by simpa [eventAdd, hcount] using hi)
      · exact hto.epfiles i (by omega) (by simpa [eventAdd, hcount] using hi)
      · obtain hmem | ⟨j, hj, heq⟩ := hto.enabled e he
        · have hmem' : e ∈ u.enabled := hmem
          rw [hu.enabled] at hmem'
          cases hmem'
        · exact ⟨j, by simpa [eventAdd, hcount] using hj, heq⟩
    · rintro (hyoung | hyoung)
      all_goals
        have hstate : t.state = u.state := hsame.state
        rw [hactive] at hstate
        have := hstate.symm.trans hyoung
        cases this
  · have hlt' : i < u.epsCount := by simpa using hlt
    have hnull : t.epfileEp i = none := hi.trans (hu.epfiles i hlt')
    refine .inr ⟨fun hcodes => hcode (hcodes i hlt'), hret, hsame.func, ?_⟩
    rintro (⟨id', func', henabled⟩ | ⟨-, hlog⟩)
    · have hcount : t.epsCount = u.epsCount := hsame.epsCount
      have hlinked : t.epfileEp i = some (id', i) := henabled.epfiles i (hcount ▸ hlt')
      rw [hnull] at hlinked
      cases hlinked
    · cases hlog

/-- `ffs_func_set_alt` of a function that is bound, of an interface of its own. -/
theorem Inv.ffsFuncSetAlt (h : s.Inv) {id : Nat} {func : FfsFunction} {interface alt : UInt32}
    {codes : EnableCodes} {ret : Int} (hfunc : s.funcs.lookup id = some func)
    (hintf : alt ≠ altDisable → 0 ≤ ffsFuncRevmapIntf func interface.toUInt8)
    (hset : s.ffsFuncSetAlt id func interface alt codes = .ok (t, ret)) :
  (s.state ≠ .active ∧ ret = -enodev ∧ t.func = s.func ∧ (s.func = none → t.Inv ∧ t.NoneUsable))
    ∨ (s.state = .active ∧ alt = altDisable ∧ ret = 0 ∧ t.Inv)
    ∨ (s.state = .active ∧ alt ≠ altDisable
      ∧ (((∀ i < s.epsCount, codes.config i = 0 ∧ codes.enable i = 0) ∧ ret = 0 ∧ t.Inv)
        ∨ (¬(∀ i < s.epsCount, codes.config i = 0 ∧ codes.enable i = 0)
          ∧ ((ret < 0 ∧ t.func ≠ none) ∨ ¬t.AllOrNothing))))
  := by
  unfold EpsState.ffsFuncSetAlt at hset
  rw [if_neg fun hneg => absurd (hintf hneg.1) (by omega)] at hset
  cases hlast : s.disableLast with
  | error e =>
      rw [hlast] at hset
      cases hset
  | ok u =>
      obtain ⟨hnone, hlog, hsame⟩ := h.disableLast hlast
      simp only [hlast] at hset
      by_cases hactive : s.state = .active
      · have hactive' : u.state = .active := hsame.state.trans hactive
        rw [if_neg (by rw [hactive']; decide), if_neg (not_not.mpr hactive')] at hset
        by_cases halt : alt = altDisable
        · rw [if_pos halt] at hset
          cases hset
          refine .inr (.inl ⟨hactive, halt, rfl, fun _ => ⟨⟨hnone.enabled, hnone.epfiles⟩, hlog⟩,
            nofun, fun hyoung => ?_⟩)
          exact absurd (hsame.state ▸ hyoung) (h.not_young hfunc)
        · rw [if_neg halt] at hset
          refine .inr (.inr ⟨hactive, halt, ?_⟩)
          cases henable : { u with func := some id }.ffsFuncEpsEnable id func codes with
          | error e =>
              rw [henable] at hset
              cases hset
          | ok res =>
              obtain ⟨v, ret'⟩ := res
              rw [henable] at hset
              cases hset
              rw [← hsame.epsCount]
              obtain ⟨hcodes, hret, hinv⟩ | ⟨hcodes, hret, hfunc', hnot⟩ :=
                enable_spec hnone hactive' (hsame.funcs ▸ hfunc) henable
              · refine .inl ⟨hcodes, hret, ?_⟩
                rw [if_pos (by omega)]
                apply hinv
              · refine .inr ⟨hcodes, ?_⟩
                by_cases hneg : 0 ≤ ret
                · rw [if_pos hneg]
                  exact .inr hnot
                · rw [if_neg hneg, hfunc']
                  exact .inl ⟨by omega, nofun⟩
      · refine .inl ⟨hactive, ?_⟩
        have hsettled : ∀ v : EpsState, v.state = u.state ∨ v.state = .closing →
            v.func = u.func → v.epsCount = u.epsCount → v.enabled = u.enabled →
            v.epfiles = u.epfiles → v.log = u.log →
            v.func = s.func ∧ (s.func = none → v.Inv ∧ v.NoneUsable) := by
          intro v hvstate hvfunc hvcount hvenabled hvfiles hvlog
          have hv : v.NoneUsable := by
            refine ⟨hvenabled.trans hnone.enabled, fun i hi => ?_⟩
            unfold epfileEp
            rw [hvfiles]
            exact hnone.epfiles i (hvcount ▸ hi)
          refine ⟨hvfunc.trans hsame.func, fun hidle => ⟨⟨fun _ => ⟨hv, hvlog ▸ hlog⟩, ?_, ?_⟩, hv⟩⟩
          · intro id' hid'
            rw [hvfunc, hsame.func, hidle] at hid'
            cases hid'
          · intro hyoung
            obtain hstate | hstate := hvstate
            · exact absurd (hsame.state ▸ hstate ▸ hyoung) (h.not_young hfunc)
            · simp [hstate] at hyoung
        by_cases hdead : u.state = .deactivated
        · rw [if_pos hdead] at hset
          cases hset
          exact ⟨rfl, hsettled _ (.inr rfl) rfl rfl rfl rfl rfl⟩
        · rw [if_neg hdead, if_pos (hsame.state ▸ hactive)] at hset
          cases hset
          exact ⟨rfl, hsettled _ (.inl rfl) rfl rfl rfl rfl rfl⟩
/-- An interface of the function itself is found. -/
theorem ffsFuncRevmapIntf_nonneg {func : FfsFunction} {intf : UInt8}
    (h : (intf.toNat : Int) ∈ func.interfacesNums) :
  0 ≤ ffsFuncRevmapIntf func intf
  := by
  unfold ffsFuncRevmapIntf
  cases hfind : func.interfacesNums.findIdx? fun num => 0 ≤ num ∧ num = (intf.toNat : Int) with
  | some i => exact Int.natCast_nonneg i
  | none =>
      have := List.findIdx?_eq_none_iff.mp hfind _ h
      simp at this

/-! ### Steps and runs -/

/-- A step that changes neither the functions nor the endpoints. -/
theorem Inv.sameEps (h : s.Inv) (hfunc : t.func = s.func) (hfuncs : t.funcs = s.funcs)
    (hcount : t.epsCount = s.epsCount) (henabled : t.enabled = s.enabled)
    (hfiles : t.epfiles = s.epfiles) (hlog : t.log = s.log)
    (hyoung : ¬(t.state = .readDescriptors ∨ t.state = .readStrings)) :
  t.Inv
  := by
  obtain ⟨state, epsCount, epfiles, func, funcs, enabled, log⟩ := t
  cases hfunc
  cases hfuncs
  cases hcount
  cases henabled
  cases hfiles
  cases hlog
  refine ⟨fun hidle => ?_, fun id hid => ?_, fun h => absurd h hyoung⟩
  · obtain ⟨hnone, hsince⟩ := h.idle hidle
    exact ⟨⟨hnone.enabled, hnone.epfiles⟩, hsince⟩
  · obtain ⟨func, henabled, honly⟩ := h.busy id hid
    exact ⟨func, ⟨hid, henabled.bound, henabled.eps, henabled.epfiles, henabled.last⟩, honly⟩

/-- `ffs_func_bind`. -/
theorem Inv.bind (h : s.Inv) (hfiles : s.epfiles ≠ none) {id : Nat}
    (hid : s.funcs.lookup id = none) (func : FfsFunction) :
  ({ s with funcs := (id, func) :: s.funcs }.eventAdd .bind).Inv
  := by
  refine ⟨fun hidle => ?_, fun id' hid' => ?_, fun hyoung => absurd (h.young hyoung).2.2 hfiles⟩
  · obtain ⟨hnone, hsince⟩ := h.idle hidle
    exact ⟨⟨hnone.enabled, hnone.epfiles⟩, hsince⟩
  · obtain ⟨func', henabled, honly⟩ := h.busy id' hid'
    refine ⟨func', ⟨hid', ?_, henabled.eps, henabled.epfiles, henabled.last⟩, honly⟩
    have hne : id' ≠ id := by
      rintro rfl
      have hbound := henabled.bound
      rw [hid] at hbound
      cases hbound
    simp only [eventAdd, List.lookup_cons, beq_false_of_ne hne]
    apply henabled.bound

/-- The functions that stay bound. -/
theorem lookup_filter_ne {funcs : List (Nat × FfsFunction)} {id id' : Nat} (h : id' ≠ id) :
  (funcs.filter fun f => f.1 ≠ id).lookup id' = funcs.lookup id'
  := by
  induction funcs with
  | nil => rfl
  | cons f funcs ih =>
      by_cases hf : f.1 = id
      · rw [List.filter_cons_of_neg (by simp [hf]), ih, List.lookup_cons,
          beq_false_of_ne (hf ▸ h)]
      · rw [List.filter_cons_of_pos (by simp [hf]), List.lookup_cons, List.lookup_cons, ih]

/-- `ffs_func_unbind`. -/
theorem Inv.ffsFuncUnbind (h : s.Inv) {id : Nat} {func : FfsFunction}
    (hfunc : s.funcs.lookup id = some func) :
  (s.ffsFuncUnbind id func).Inv
  := by
  unfold EpsState.ffsFuncUnbind
  by_cases hid : s.func = some id
  · rw [if_pos hid]
    obtain ⟨func', henabled, honly⟩ := h.busy id hid
    obtain rfl := Option.some.inj (hfunc.symm.trans henabled.bound)
    obtain ⟨hnone, hsame, hlog⟩ := ffsFuncEpsDisable_noneUsable honly
    refine ⟨fun _ => ⟨⟨hnone.enabled, hnone.epfiles⟩, ?_⟩, nofun, fun hyoung => ?_⟩
    · simp only [eventAdd, hlog]
      rfl
    · exact absurd (hsame.state ▸ hyoung) (h.not_young hfunc)
  · rw [if_neg hid]
    refine ⟨fun hidle => ?_, fun id' hid' => ?_, fun hyoung => absurd hyoung (h.not_young hfunc)⟩
    · obtain ⟨hnone, hsince⟩ := h.idle hidle
      exact ⟨⟨hnone.enabled, hnone.epfiles⟩, hsince⟩
    · obtain ⟨func', henabled, honly⟩ := h.busy id' hid'
      refine ⟨func', ⟨hid', ?_, henabled.eps, henabled.epfiles, henabled.last⟩, honly⟩
      have hne : id' ≠ id := by
        rintro rfl
        apply hid hid'
      exact (lookup_filter_ne hne).trans henabled.bound

/-- The descriptors are accepted. -/
theorem Inv.gotDescs (h : s.Inv) (hstate : s.state = .readDescriptors) (epsCount : Nat) :
  Inv { s with state := .readStrings, epsCount }
  := by
  obtain ⟨hidle, hfuncs, hfiles⟩ := h.young (.inl hstate)
  obtain ⟨hnone, hsince⟩ := h.idle hidle
  refine ⟨fun _ => ⟨⟨hnone.enabled, fun i _ => ?_⟩, hsince⟩, ?_, fun _ => ⟨hidle, hfuncs, hfiles⟩⟩
  · apply congrArg (Option.bind · fun ep => ep i) hfiles
  · intro id hid
    have hid' : s.func = some id := hid
    rw [hidle] at hid'
    cases hid'

/-- The strings are accepted. -/
theorem Inv.gotStrings (h : s.Inv) (hstate : s.state = .readStrings) :
  Inv { s with state := .active, epfiles := some fun _ => none }
  := by
  obtain ⟨hidle, -⟩ := h.young (.inr hstate)
  obtain ⟨hnone, hsince⟩ := h.idle hidle
  refine ⟨fun _ => ⟨⟨hnone.enabled, fun _ _ => rfl⟩, hsince⟩, ?_, by simp⟩
  intro id hid
  have hid' : s.func = some id := hid
  rw [hidle] at hid'
  cases hid'

/-- The `ffs_data` is deleted. -/
theorem Inv.teardown (h : s.Inv) (hfuncs : s.funcs.isEmpty) :
  Inv { epsStateNew with enabled := s.enabled }
  := by
  have hidle : s.func = none := by
    cases hfunc : s.func with
    | none => rfl
    | some id =>
        obtain ⟨func, henabled, -⟩ := h.busy id hfunc
        have hbound := henabled.bound
        rw [List.isEmpty_iff.mp hfuncs] at hbound
        cases hbound
  refine ⟨fun _ => ⟨⟨(h.idle hidle).1.enabled, fun _ _ => rfl⟩, rfl⟩, nofun, fun _ => ?_⟩
  exact ⟨rfl, rfl, rfl⟩

/-- A step that meets the condition keeps the invariant, and after any other not all endpoints
are enabled or none. -/
theorem Inv.step (h : s.Inv) {a : EpsAct} {ret : Int} (hstep : s.step a = some (t, ret)) :
  (s.KeepsEnabled a ∧ t.Inv ∧ t.AllOrNothingAfter a ret)
    ∨ (¬s.KeepsEnabled a ∧ ¬t.AllOrNothingAfter a ret)
  := by
  cases a with
  | gotDescs epsCount =>
      simp only [EpsState.step] at hstep
      split_ifs at hstep with hstate
      cases hstep
      have hinv := h.gotDescs hstate epsCount
      exact .inl ⟨trivial, hinv, hinv.allOrNothing, trivial⟩
  | gotStrings created =>
      simp only [EpsState.step] at hstep
      split_ifs at hstep with hstate hcreated
      · cases hstep
        have hinv := h.gotStrings (not_not.mp hstate)
        exact .inl ⟨trivial, hinv, hinv.allOrNothing, trivial⟩
      · cases hstep
        have hinv : Inv { s with state := .closing } :=
          h.sameEps rfl rfl rfl rfl rfl rfl (by simp)
        exact .inl ⟨trivial, hinv, hinv.allOrNothing, trivial⟩
  | readyFails =>
      simp only [EpsState.step] at hstep
      split_ifs at hstep
      cases hstep
      have hinv : Inv { s with state := .closing } :=
        h.sameEps rfl rfl rfl rfl rfl rfl (by simp)
      exact .inl ⟨trivial, hinv, hinv.allOrNothing, trivial⟩
  | bind id func =>
      simp only [EpsState.step] at hstep
      split_ifs at hstep with hnot
      cases hstep
      rw [not_or] at hnot
      have hfiles : s.epfiles ≠ none := mt Option.isNone_iff_eq_none.mpr hnot.1
      have hinv := h.bind hfiles (Option.not_isSome_iff_eq_none.mp hnot.2) func
      exact .inl ⟨trivial, hinv, hinv.allOrNothing, trivial⟩
  | setAlt id interface alt codes =>
      obtain ⟨func, hfunc, hset⟩ := Option.bind_eq_some_iff.mp hstep
      split_ifs at hset with hown
      obtain ⟨hintf, hbyte⟩ := hown
      have hok : s.ffsFuncSetAlt id func interface alt codes = .ok (t, ret) :=
        eq_ok_of_toOption hset
      obtain ⟨hactive, hret, hfunc', hidle⟩ | ⟨-, halt, -⟩ | ⟨hactive, -, ⟨hcodes, hret, hinv⟩
        | ⟨hcodes, hnot⟩⟩ := h.ffsFuncSetAlt hfunc (fun _ => ffsFuncRevmapIntf_nonneg hintf) hok
      · by_cases hs : s.func = none
        · obtain ⟨hinv, hnone⟩ := hidle hs
          refine .inl ⟨⟨fun hact => absurd hact hactive, fun _ => hs⟩, hinv, hinv.allOrNothing, ?_⟩
          exact fun _ => ⟨hnone, hfunc'.trans hs⟩
        · refine .inr ⟨fun hkeeps => hs (hkeeps.2 hactive), fun hafter => hs ?_⟩
          rw [← hfunc']
          exact (hafter.2 (by rw [hret]; decide)).2
      · rw [halt] at hbyte
        exact absurd hbyte (by decide)
      · refine .inl ⟨⟨fun _ => hcodes, fun hnot => absurd hactive hnot⟩, hinv,
          hinv.allOrNothing, ?_⟩
        exact fun hneg => by omega
      · refine .inr ⟨fun hkeeps => hcodes (hkeeps.1 hactive), fun hafter => ?_⟩
        obtain ⟨hneg, hsome⟩ | hnot := hnot
        · apply hsome (hafter.2 hneg).2
        · apply hnot hafter.1
  | disable id =>
      obtain ⟨func, hfunc, hset⟩ := Option.bind_eq_some_iff.mp hstep
      have hok : s.ffsFuncSetAlt id func 0 altDisable ⟨fun _ => 0, fun _ => 0⟩ = .ok (t, ret) :=
        eq_ok_of_toOption hset
      obtain ⟨hactive, hret, hfunc', hidle⟩ | ⟨hactive, -, hret, hinv⟩ | ⟨-, halt, -⟩ :=
        h.ffsFuncSetAlt hfunc (fun hne => absurd rfl hne) hok
      · by_cases hs : s.func = none
        · obtain ⟨hinv, hnone⟩ := hidle hs
          exact .inl ⟨fun _ => hs, hinv, hinv.allOrNothing, fun _ => ⟨hnone, hfunc'.trans hs⟩⟩
        · refine .inr ⟨fun hkeeps => hs (hkeeps hactive), fun hafter => hs ?_⟩
          rw [← hfunc']
          exact (hafter.2 (by rw [hret]; decide)).2
      · refine .inl ⟨fun hnot => absurd hactive hnot, hinv, hinv.allOrNothing, ?_⟩
        exact fun hneg => by omega
      · apply absurd rfl halt
  | unbind id =>
      obtain ⟨func, hfunc, hres⟩ := Option.map_eq_some_iff.mp hstep
      cases hres
      have hinv := h.ffsFuncUnbind hfunc
      exact .inl ⟨trivial, hinv, hinv.allOrNothing, trivial⟩
  | teardown =>
      simp only [EpsState.step] at hstep
      split_ifs at hstep with hfuncs
      cases hstep
      have hinv := h.teardown hfuncs
      exact .inl ⟨trivial, hinv, hinv.allOrNothing, trivial⟩

/-- If every setting that is selected has all its endpoints enabled, and none is selected after
the `ffs_data` stopped to be active with a function enabled, then after every call all endpoints
of the active function are enabled or none is; and a further call keeps this exactly if it meets
the condition too. -/
theorem all_or_nothing {as : List EpsAct}
    (h : Run (fun s a t => s.KeepsEnabled a ∧ ∃ ret, s.step a = some (t, ret)) epsStateNew as s) :
  s.AllOrNothing
    ∧ ∀ a t ret, s.step a = some (t, ret) → (t.AllOrNothingAfter a ret ↔ s.KeepsEnabled a)
  := by
  have hs : s.Inv := by
    refine h.keeps Inv ?_ inv_epsStateNew
    rintro s a t hs ⟨hkeeps, ret, hstep⟩
    obtain ⟨-, ht, -⟩ | ⟨hnot, -⟩ := hs.step hstep
    · apply ht
    · apply absurd hkeeps hnot
  refine ⟨hs.allOrNothing, fun a t ret hstep => ?_⟩
  obtain ⟨hkeeps, -, hafter⟩ | ⟨hnot, hfails⟩ := hs.step hstep
  · apply iff_of_true hafter hkeeps
  · apply iff_of_false hfails hnot

/-- A function with the endpoints 10 and 11 and the interface 0. -/
def twoEndpoints : FfsFunction where
  eps i := if i = 0 then some 10 else if i = 1 then some 11 else none
  interfacesNums := [0]

/-- Every endpoint is enabled. -/
def allEnabled : EnableCodes := ⟨fun _ => 0, fun _ => 0⟩

/-- The endpoint at index 1 is not enabled. -/
def secondFails : EnableCodes := ⟨fun _ => 0, fun i => if i = 1 then -einval else 0⟩

/-- Two endpoints are enabled, disabled, enabled again and torn down. -/
theorem all_or_nothing_twoEndpoints :
  ∃ s, Run (fun s a t => s.KeepsEnabled a ∧ ∃ ret, s.step a = some (t, ret)) epsStateNew
      [.gotDescs 2, .gotStrings true, .bind 0 twoEndpoints, .setAlt 0 0 0 allEnabled, .disable 0,
        .setAlt 0 0 0 allEnabled, .unbind 0, .teardown] s
    ∧ s.AllOrNothing
  := by
  have hcodes : ∀ s : EpsState, s.state = .active → s.KeepsEnabled (.setAlt 0 0 0 allEnabled) :=
    fun s hs => ⟨fun _ _ _ => ⟨rfl, rfl⟩, fun hnot => absurd hs hnot⟩
  have hrun : ∃ s, Run (fun s a t => s.KeepsEnabled a ∧ ∃ ret, s.step a = some (t, ret)) epsStateNew
      [.gotDescs 2, .gotStrings true, .bind 0 twoEndpoints, .setAlt 0 0 0 allEnabled, .disable 0,
        .setAlt 0 0 0 allEnabled, .unbind 0, .teardown] s :=
    ⟨_, .cons ⟨trivial, 0, rfl⟩ (.cons ⟨trivial, 0, rfl⟩ (.cons ⟨trivial, 0, rfl⟩
      (.cons ⟨hcodes _ rfl, 0, rfl⟩ (.cons ⟨fun hnot => absurd rfl hnot, 0, rfl⟩
        (.cons ⟨hcodes _ rfl, 0, rfl⟩ (.cons ⟨trivial, 0, rfl⟩
          (.cons ⟨trivial, 0, rfl⟩ (.nil _))))))))⟩
  obtain ⟨s, hrun⟩ := hrun
  exact ⟨s, hrun, (all_or_nothing hrun).1⟩

/-- The second endpoint fails to be enabled: the first one stays enabled and linked, and the
function active. -/
theorem set_alt_half_enabled :
  ∃ s, Run (fun s a t => ∃ ret, s.step a = some (t, ret)) epsStateNew
      [.gotDescs 2, .gotStrings true, .bind 0 twoEndpoints, .setAlt 0 0 0 secondFails] s
    ∧ s.enabled = [10] ∧ s.epfileEp 0 = some (0, 0) ∧ s.func = some 0 ∧ ¬s.AllOrNothing
  := by
  refine ⟨_, .cons ⟨0, rfl⟩ (.cons ⟨0, rfl⟩ (.cons ⟨0, rfl⟩ (.cons ⟨-22, rfl⟩ (.nil _)))),
    rfl, rfl, rfl, ?_⟩
  rintro (⟨id, func, h⟩ | ⟨h, -⟩)
  · exact absurd (h.epfiles 1 (by decide)) nofun
  · apply absurd h.enabled nofun

end EpsState

end Ffs
