import KhdfLinux.Lib.Superseding
import KhdfLinux.Usb.EndpointReports

/-!
# What user space learns

The events come from the gadget and the requests through `ffsFuncSetup`, and user space reads them
from the file of endpoint zero.  The queue holds the types of the events, and one request: a
`SETUP` event is handed over with the request that is there when it is read.

`Delivered` follows each event.  An event that arrives is handed over, in the order of the arrivals
and with its own request, or it is in the queue, or it was superseded by a later one while it was
there.
-/

namespace Ffs

open Bytes Exec Heap Superseding Walk

/-! ### Requests -/

namespace BindState

/-- The `wIndex` a request is reported with, if it is for the function. -/
def routed (func : BindState) (creq : UsbCtrlrequest) : Option UInt16 :=
  if creq.recipient = usbRecipInterface then
    let ret := EpsState.ffsFuncRevmapIntf func.function creq.wIndex.toUInt8
    if ret < 0 then none else some (UInt16.ofNat ret.toNat)
  else if creq.recipient = usbRecipEndpoint then
    let ret := func.ffsFuncRevmapEp creq.wIndex.toUInt8
    if ret < 0 then none else some (func.reportedIndex (ret.toNat - 1))
  else if hasFlag func.ffs.userFlags functionfsAllCtrlRecip then
    some creq.wIndex
  else
    none

/-- The `wIndex` a request is reported with, if the function accepts it. -/
def accepted (func : BindState) (state : FfsState) (creq : UsbCtrlrequest) : Option UInt16 :=
  if state = .active then func.routed creq else none

/-- The map of the endpoints holds indices of endpoints. -/
def MapBounded (func : BindState) : Prop := ∀ n, func.epsRevmap n < ffsMaxEpsCount

end BindState

section Setup

variable {func : BindState} {creq : UsbCtrlrequest}

/-- The gadget gives a function the requests that are for it. -/
theorem ffsFuncReqMatch_iff (config0 : Bool) :
  func.ffsFuncReqMatch creq config0
    ↔ (config0 → hasFlag func.ffs.userFlags functionfsConfig0Setup) ∧ (func.routed creq).isSome
  := by
  unfold BindState.ffsFuncReqMatch BindState.routed
  cases config0 <;> cases hasFlag func.ffs.userFlags functionfsConfig0Setup <;> grind

/-- A number as the code writes it into a word. -/
theorem ofNat_u16 (n : Nat) :
  UInt16.ofNat (u16 n) = UInt16.ofNat n
  := by
  apply UInt16.toNat_inj.mp
  simp [u16]
  omega

theorem revmapEp_pos {addr : UInt8} (h : 0 ≤ func.ffsFuncRevmapEp addr) :
  ∃ n, func.ffsFuncRevmapEp addr = (func.epsRevmap n : Int) ∧ 0 < func.epsRevmap n
  := by
  unfold BindState.ffsFuncRevmapEp at h ⊢
  split at h
  case isTrue hne => exact ⟨_, if_pos hne, Nat.pos_of_ne_zero hne⟩
  case isFalse => exact absurd h (by decide)

/-- A request that is for the function is reported, and others are refused. -/
theorem setupIndex_routed (hmap : func.MapBounded) (ev : FfsEv) :
  match func.routed creq with
  | some wIndex =>
      ∃ ret, (func.setupIndex creq).run ev = .ok ret ev ∧ UInt16.ofNat (u16 ret) = wIndex
  | none => ∃ code, (func.setupIndex creq).run ev = .error (.ret code) ev
  := by
  by_cases hintf : creq.recipient = usbRecipInterface
  · unfold BindState.setupIndex BindState.routed
    simp only [if_pos hintf]
    by_cases hneg : EpsState.ffsFuncRevmapIntf func.function creq.wIndex.toUInt8 < 0
    · simp only [if_pos hneg]
      exact ⟨_, rfl⟩
    · simp only [if_neg hneg]
      refine ⟨_, rfl, ?_⟩
      obtain ⟨n, hn⟩ := Int.eq_ofNat_of_zero_le (Int.not_lt.mp hneg)
      rw [hn]
      exact ofNat_u16 n
  by_cases hep : creq.recipient = usbRecipEndpoint
  · unfold BindState.setupIndex BindState.routed
    simp only [if_neg hintf, if_pos hep]
    by_cases hneg : func.ffsFuncRevmapEp creq.wIndex.toUInt8 < 0
    · simp only [if_pos hneg]
      exact ⟨_, rfl⟩
    · obtain ⟨n, hn, hpos⟩ := revmapEp_pos (Int.not_lt.mp hneg)
      have hlt := hmap n
      have hindex : func.epsRevmap n - 1 + 1 = func.epsRevmap n := Nat.sub_add_cancel hpos
      simp only [if_neg hneg]
      rw [hn, Int.toNat_natCast]
      unfold BindState.reportedIndex
      by_cases hvirt : hasFlag func.ffs.userFlags functionfsVirtualAddr
      · simp only [if_pos hvirt]
        rw [if_pos (by omega), hindex]
        refine ⟨_, rfl, ?_⟩
        rw [ofNat_u16]
        apply UInt16.toNat_inj.mp
        simp
      · simp only [if_neg hvirt]
        refine ⟨_, rfl, ?_⟩
        rw [ofNat_u16, hindex]
  · unfold BindState.setupIndex BindState.routed
    simp only [if_neg hintf, if_neg hep]
    by_cases hall : hasFlag func.ffs.userFlags functionfsAllCtrlRecip
    · simp only [if_pos hall]
      refine ⟨_, rfl, ?_⟩
      rw [ofNat_u16]
      simp
    · simp only [if_neg hall]
      exact ⟨_, rfl⟩

/-- What `ffsFuncSetup` does with a request: it queues a `SETUP` event for one that is reported,
and leaves the events when it refuses one. -/
theorem ffsFuncSetup_spec (hmap : func.MapBounded) {ev : FfsEv} (hev : ev.Valid)
    (state : FfsState) :
  match func.accepted state creq with
  | some wIndex =>
      ∃ ev', (func.ffsFuncSetup state creq).run ev
          = .ok (if creq.wLength = 0 then usbGadgetDelayedStatus else 0) ev'
        ∧ ev'.queue = arrive .setup ev.queue ∧ ev'.setup = { creq with wIndex } ∧ ev'.Valid
  | none => ∃ code, (func.ffsFuncSetup state creq).run ev = .error (.ret code) ev
  := by
  unfold BindState.accepted
  by_cases hstate : state = .active
  case neg =>
    rw [if_neg hstate]
    refine ⟨-enodev, ?_⟩
    unfold BindState.ffsFuncSetup
    rw [if_pos hstate]
    rfl
  have hindex : match func.routed creq with
      | some wIndex =>
          ∃ ret, (func.setupIndex creq).run ev = .ok ret ev ∧ UInt16.ofNat (u16 ret) = wIndex
      | none => ∃ code, (func.setupIndex creq).run ev = .error (.ret code) ev :=
    setupIndex_routed hmap ev
  rw [if_pos hstate]
  cases hrouted : func.routed creq with
  | none =>
      rw [hrouted] at hindex
      obtain ⟨code, hcode⟩ := hindex
      refine ⟨code, ?_⟩
      unfold BindState.ffsFuncSetup
      rw [if_neg (by simp [hstate]), EStateM.run_bind, hcode]
  | some wIndex =>
      rw [hrouted] at hindex
      obtain ⟨ret, hret, hwIndex⟩ := hindex
      have hvalid : FfsEv.Valid { ev with setup := { creq with wIndex } } :=
        ⟨hev.count_le, hev.distinct⟩
      obtain ⟨ev', hadd, hqueue, -, -, hsetup, -⟩ := ffsEventAdd_spec hvalid .setup
      refine ⟨ev', ?_, hqueue, hsetup, hvalid.add hadd⟩
      unfold BindState.ffsFuncSetup
      rw [if_neg (by simp [hstate]), EStateM.run_bind, hret]
      dsimp only
      rw [EStateM.run_bind, EStateM.run_modify, hwIndex]
      dsimp only
      rw [EStateM.run_bind, hadd]
      rfl

end Setup

/-! ### Functions that were bound -/

/-- The endpoints of a function have cells in the map of the addresses, and the map holds indices
of endpoints. -/
structure BindState.Indexed (func : BindState) : Prop where
  length : func.eps.length < ffsMaxEpsCount
  map : func.MapBounded

theorem claimInvariant_indexed (address : Nat → UInt8) :
  ClaimInvariant address BindState.Indexed
  := by
  constructor
  · rintro func func' - hlength - hmap h
    refine ⟨by rw [hlength]; exact h.length, fun n => ?_⟩
    rw [hmap]
    exact h.map n
  · rintro func idx e req hidx - h
    have hlength := h.length
    refine ⟨?_, fun n => ?_⟩
    · show (func.eps.modify _ _).length < _
      rw [List.length_modify]
      exact hlength
    · show Function.update func.epsRevmap _ (idx + 1) n < _
      rw [Function.update_apply]
      split
      · omega
      · exact h.map n

section Bound

variable {address : Nat → UInt8} {before : Nat → Nat} {c : UsbConfig} {ffs : FfsData}
  {func : BindState} {s t : Heap BindState}

theorem Mapped.indexed (h : Mapped address before ffs func) (hmax : ffs.epsCount < ffsMaxEpsCount)
    (hbefore : ∀ n, before n < ffsMaxEpsCount) :
  func.Indexed
  := by
  refine ⟨by rw [h.length]; exact hmax, fun n => ?_⟩
  obtain ⟨i, e, hi, -, hval⟩ | ⟨-, hval⟩ := h.cells n
  · have hlt : i < func.eps.length := by
      by_contra hge
      have hnone : func.eps[i]?.bind FfsEp.ep = some e := hi
      rw [List.getElem?_eq_none (Nat.not_lt.mp hge)] at hnone
      cases hnone
    have hlength := h.length
    omega
  · rw [hval]
    exact hbefore n

/-- A bind keeps the map in its bounds, also one that fails. -/
theorem ffsFuncBind_mapBounded (hc : c.Addresses address) (hacc : ffs.Accepted)
    (hffs : s.priv.ffs = ffs) (hmap : s.priv.MapBounded) :
  (ffsFuncBind c).Meets s (fun _ t => t.priv.MapBounded) fun _ t => t.priv.MapBounded
  := by
  obtain ⟨-, -, hmax, -⟩ := hacc.exists_raw
  have hP := claimInvariant_indexed address
  have hstart : (bindStart c).Meets s (fun _ t => t.priv.Indexed) fun _ t => t.priv.MapBounded := by
    apply (bindStart_untouched address hffs).mono
    · rintro _ t ⟨hdescs, -, hmapped⟩
      exact hmapped.indexed (hmax hdescs) hmap
    · intro _ t ht n
      rw [ht]
      exact hmap n
  have hlater : Preserves (fun s : Heap BindState => s.priv.Indexed) (do
      patchFunc
      update fun func => { func with bound := true }) :=
    (hP.preserves keepsSettled_patchFunc).bind fun _ =>
      hP.preserves (keepsSettled_update fun _ => by rfl)
  have hos : ∀ (lens : Nat × Nat × Nat), Preserves (fun s : Heap BindState => s.priv.Indexed) (do
      bindOsDescs c (lens.1 + lens.2.1 + lens.2.2)
      pure lens) := fun lens =>
    (hP.preserves ((readsSettled_bindOsDescs c _).comp fun kept => kept.2)).bind fun _ =>
      preserves_pure _
  refine meets_bind (meets_bind (hstart.mono ?_ fun _ _ he => he))
  intro _ t ht
  refine meets_bind ((preserves_bindDescs hP hc t ht).mono ?_ fun _ _ he => he.map)
  intro lens u hu
  refine (hos lens u hu).mono (fun _ v hv => ?_) fun _ _ he => he.map
  exact (hlater v hv).mono (fun _ _ hw => hw.map) fun _ _ he => he.map

/-- In every run of binds and unbinds the map stays in its bounds. -/
theorem mapBounded_of_run {acts : List FuncAct} (h : Run (FuncStep address) funcNew acts s) :
  s.priv.MapBounded
  := by
  apply h.keeps fun s => s.priv.MapBounded
  · intro s a t hs hstep
    cases a with
    | bind ffs c =>
        obtain ⟨-, hacc, hc, hrun⟩ := hstep
        have hkeeps := ffsFuncBind_mapBounded (s := ⟨s.mem, { s.priv with ffs }⟩) hc hacc rfl hs
        exact hkeeps.of_ok hrun
    | bindFails ffs c =>
        obtain ⟨-, hacc, hc, code, hrun⟩ := hstep
        have hkeeps := ffsFuncBind_mapBounded (s := ⟨s.mem, { s.priv with ffs }⟩) hc hacc rfl hs
        exact hkeeps.of_error hrun
    | unbind =>
        obtain ⟨-, rfl⟩ := hstep
        exact hs
  · intro n
    show 0 < ffsMaxEpsCount
    decide

end Bound

/-! ### The log of the events -/

/-- The events, and what was handed over, each with whether user space got it. -/
structure EventLog where
  ev : FfsEv
  handed : List (UsbFunctionfsEvent × Bool)
  deriving DecidableEq

/-- What happens to the events. -/
inductive EventCall where
  /-- `ffs_event_add` of an event other than a setup request. -/
  | event (type : EventType) (hne : type ≠ .setup)
  /-- `ffs_func_setup`. -/
  | setup (func : BindState) (state : FfsState) (creq : UsbCtrlrequest)
  /-- `__ffs_ep0_read_events` for a buffer of `len` bytes, if there are events. -/
  | read (len : Nat) (copied : Bool)

namespace EventCall

/-- The event that arrives with a call. -/
def arrival : EventCall → Option UsbFunctionfsEvent
  | .event type _ => some ⟨⟨0, 0, 0, 0, 0⟩, type⟩
  | .setup func state creq =>
      (func.accepted state creq).map fun wIndex => ⟨{ creq with wIndex }, .setup⟩
  | .read _ _ => none

/-- The function that gets a request comes from a run of binds and unbinds. -/
def Possible : EventCall → Prop
  | .setup func _ _ => ∃ address acts s, Run (FuncStep address) funcNew acts s ∧ s.priv = func
  | _ => True

end EventCall

namespace EventLog

/-- A call of the log; none if it makes a fault. -/
def step (log : EventLog) : EventCall → Option EventLog
  | .event type _ =>
      match (ffsEventAdd type).run log.ev with
      | .ok _ ev => some { log with ev }
      | .error _ _ => none
  | .setup func state creq =>
      match (func.ffsFuncSetup state creq).run log.ev with
      | .ok _ ev => some { log with ev }
      | .error (.ret _) ev => some { log with ev }
      | .error (.fault _) _ => none
  | .read len copied =>
      if log.ev.count = 0 ∨ len / usbFunctionfsEventSize = 0 then
        some log
      else
        match (ffsEp0ReadEvents (min (len / usbFunctionfsEventSize) log.ev.count) copied).run
            log.ev with
        | .ok (events, _) ev => some { ev, handed := log.handed ++ events.map fun e => (e, copied) }
        | .error _ _ => none

/-- An event that arrives keeps the one in the queue. -/
def keeps (e b : UsbFunctionfsEvent) : Bool := e.type.keeps b.type

/-- The events are accounted for by a history: what has arrived, what was handed over, and what is
in the queue, for user space. -/
structure Explains (log : EventLog) (h : History UsbFunctionfsEvent) : Prop where
  valid : log.ev.Valid
  accounted : h.Accounted keeps
  handed : h.taken.map Prod.snd = log.handed.map Prod.fst
  queued : h.queue.map Prod.snd = log.ev.queue.map log.ev.event

/-- Each event that has arrived is accounted for. -/
def Delivered (log : EventLog) (arrivals : List UsbFunctionfsEvent) : Prop :=
  ∃ h : History UsbFunctionfsEvent, log.Explains h ∧ h.arrivals = arrivals

end EventLog

section Step

variable {log : EventLog} {h : History UsbFunctionfsEvent}

theorem type_event (ev : FfsEv) (type : EventType) :
  (ev.event type).type = type
  := by
  unfold FfsEv.event
  split
  case isTrue heq => exact heq.symm
  case isFalse => rfl

/-- The kept events are handed over as before, if an arrival with a request drops those with one. -/
theorem event_of_kept {ev ev' : FfsEv} {type e : EventType}
    (hsetup : type ≠ .setup → ev'.setup = ev.setup) (hkeeps : type.keeps e = true) :
  ev'.event e = ev.event e
  := by
  unfold FfsEv.event
  by_cases he : e = .setup
  · rw [if_pos he, if_pos he, hsetup]
    rintro rfl
    rw [he] at hkeeps
    exact absurd hkeeps (by decide)
  · rw [if_neg he, if_neg he]

/-- An event arrives. -/
theorem EventLog.Explains.arrive (hlog : log.Explains h) {type : EventType} {ev' : FfsEv}
    (hvalid : ev'.Valid) (hqueue : ev'.queue = Ffs.arrive type log.ev.queue)
    (hsetup : type ≠ .setup → ev'.setup = log.ev.setup) :
  EventLog.Explains { log with ev := ev' } (h.arrive EventLog.keeps (ev'.event type))
  := by
  refine ⟨hvalid, hlog.accounted.arrive _, hlog.handed, ?_⟩
  have htype : (ev'.event type).type = type := type_event ev' type
  have harrive : (h.arrive EventLog.keeps (ev'.event type)).queue
      = (h.queue.filter fun e => EventLog.keeps (ev'.event type) e.2)
        ++ [(h.arrivals.length, ev'.event type)] := rfl
  rw [harrive, hqueue, Ffs.arrive, List.map_append, List.map_append]
  congr 1
  have hkept : (h.queue.filter fun e => EventLog.keeps (ev'.event type) e.2).map Prod.snd
      = (h.queue.map Prod.snd).filter fun e => type.keeps e.type := by
    rw [List.filter_map]
    unfold EventLog.keeps
    rw [htype]
    rfl
  rw [hkept, hlog.queued, List.filter_map]
  have hfun : (fun e : UsbFunctionfsEvent => type.keeps e.type) ∘ log.ev.event = type.keeps := by
    funext e
    exact congrArg type.keeps (type_event log.ev e)
  rw [hfun]
  apply List.map_congr_left
  intro e he
  exact (event_of_kept hsetup (List.mem_filter.mp he).2).symm

/-- Events are handed over. -/
theorem EventLog.Explains.handOver (hlog : log.Explains h) {n : Nat} (hn : 1 ≤ n)
    (hcount : n ≤ log.ev.count) (copied : Bool) :
  ∃ log', EventLog.Explains log' (h.take n)
    ∧ (match (ffsEp0ReadEvents n copied).run log.ev with
        | .ok (events, _) ev =>
            some ⟨ev, log.handed ++ events.map fun e => (e, copied)⟩
        | .error _ _ => none) = some log'
  := by
  obtain ⟨ev', hrun, hqueue, hcount', -, hsetup, -⟩ :=
    ffsEp0ReadEvents_spec hlog.valid hn hcount copied
  have hle := hlog.valid.count_le
  have hevent : ev'.event = log.ev.event := by
    funext e
    unfold FfsEv.event
    rw [hsetup]
  refine ⟨⟨ev', log.handed ++ ((log.ev.queue.take n).map log.ev.event).map fun e => (e, copied)⟩,
    ?_, ?_⟩
  · refine ⟨⟨?_, ?_⟩, hlog.accounted.take n, ?_, ?_⟩
    · show ev'.count ≤ evSlots
      omega
    · show Distinct ev'.queue
      rw [hqueue]
      exact hlog.valid.distinct.drop n
    · show (h.taken ++ h.queue.take n).map Prod.snd = _
      rw [List.map_append, hlog.handed, List.map_append, List.map_map, List.map_take, hlog.queued,
        List.map_take]
      simp [Function.comp_def]
    · show (h.queue.drop n).map Prod.snd = ev'.queue.map ev'.event
      rw [hqueue, hevent, List.map_drop, hlog.queued, List.map_drop]
  · simp only [hrun]

/-- A call is possible, and accounts for what arrives with it. -/
theorem EventLog.Explains.step (hlog : log.Explains h) {call : EventCall}
    (hcall : call.Possible) :
  ∃ log' h', log.step call = some log' ∧ log'.Explains h'
    ∧ h'.arrivals = h.arrivals ++ call.arrival.toList
  := by
  cases call with
  | event type hne =>
      obtain ⟨ev', hrun, hqueue, -, -, hsetup, -⟩ := ffsEventAdd_spec hlog.valid type
      refine ⟨{ log with ev := ev' }, _, ?_,
        hlog.arrive (hlog.valid.add hrun) hqueue fun _ => hsetup, ?_⟩
      · simp only [EventLog.step, hrun]
      · show h.arrivals ++ [_] = h.arrivals ++ [_]
        rw [FfsEv.event, if_neg hne]
  | setup func state creq =>
      obtain ⟨address, acts, s, hrun, rfl⟩ := hcall
      have hmap := mapBounded_of_run hrun
      have hspec : match s.priv.accepted state creq with
          | some wIndex =>
              ∃ ev', (s.priv.ffsFuncSetup state creq).run log.ev
                  = .ok (if creq.wLength = 0 then usbGadgetDelayedStatus else 0) ev'
                ∧ ev'.queue = Ffs.arrive .setup log.ev.queue
                ∧ ev'.setup = { creq with wIndex } ∧ ev'.Valid
          | none =>
              ∃ code, (s.priv.ffsFuncSetup state creq).run log.ev = .error (.ret code) log.ev :=
        ffsFuncSetup_spec hmap hlog.valid state
      cases hrouted : s.priv.accepted state creq with
      | none =>
          rw [hrouted] at hspec
          obtain ⟨code, hcode⟩ := hspec
          refine ⟨log, h, ?_, hlog, ?_⟩
          · simp only [EventLog.step, hcode]
          · simp [EventCall.arrival, hrouted]
      | some wIndex =>
          rw [hrouted] at hspec
          obtain ⟨ev', hrun, hqueue, hsetup, hvalid⟩ := hspec
          refine ⟨{ log with ev := ev' }, _, ?_,
            hlog.arrive hvalid hqueue fun hne => absurd rfl hne, ?_⟩
          · simp only [EventLog.step, hrun]
          · show h.arrivals ++ [_] = _
            rw [EventCall.arrival, hrouted, FfsEv.event, if_pos rfl, hsetup]
            rfl
  | read len copied =>
      by_cases hnone : log.ev.count = 0 ∨ len / usbFunctionfsEventSize = 0
      · refine ⟨log, h, if_pos hnone, hlog, ?_⟩
        simp [EventCall.arrival]
      · have hpos : 1 ≤ min (len / usbFunctionfsEventSize) log.ev.count :=
          le_min (Nat.pos_of_ne_zero fun h0 => hnone (.inr h0))
            (Nat.pos_of_ne_zero fun h0 => hnone (.inl h0))
        obtain ⟨log', hlog', hstep⟩ := hlog.handOver hpos (Nat.min_le_right _ _) copied
        refine ⟨log', h.take _, ?_, hlog', ?_⟩
        · rw [← hstep]
          exact if_neg hnone
        · simp [EventCall.arrival, History.take]

/-- The calls of a run are possible, and account for what arrives with them. -/
theorem EventLog.Explains.run (hlog : log.Explains h) {calls : List EventCall}
    (hcalls : ∀ call ∈ calls, call.Possible) :
  ∃ log' h', calls.foldlM EventLog.step log = some log' ∧ log'.Explains h'
    ∧ h'.arrivals = h.arrivals ++ calls.filterMap EventCall.arrival
  := by
  induction calls generalizing log h with
  | nil => exact ⟨log, h, rfl, hlog, by simp⟩
  | cons call calls ih =>
      obtain ⟨log', h', hstep, hlog', harrivals⟩ := hlog.step (hcalls call List.mem_cons_self)
      obtain ⟨log'', h'', hrest, hlog'', harrivals'⟩ :=
        ih hlog' fun c hc => hcalls c (List.mem_cons_of_mem _ hc)
      refine ⟨log'', h'', ?_, hlog'', ?_⟩
      · rw [List.foldlM_cons, hstep]
        exact hrest
      · rw [harrivals', harrivals, List.append_assoc]
        cases harr : call.arrival <;> simp [harr]

end Step

/-- In every run no call makes a fault, and each event that has arrived, a `SETUP` event with its
own request, was handed over in the order of the arrivals, or is in the queue, or was superseded
by a later one before it was read. -/
theorem events_delivered {ev : FfsEv} {calls : List EventCall} (hempty : ev.count = 0)
    (hcalls : ∀ call ∈ calls, call.Possible) :
  ∃ log, calls.foldlM EventLog.step ⟨ev, []⟩ = some log
    ∧ log.Delivered (calls.filterMap EventCall.arrival)
  := by
  have hstart : EventLog.Explains ⟨ev, []⟩ History.empty := by
    refine ⟨FfsEv.valid_of_empty hempty, History.accounted_empty, rfl, ?_⟩
    show [] = (Slots.used ev.types ev.count).map ev.event
    simp [Slots.used, hempty]
  obtain ⟨log, h, hrun, hlog, harrivals⟩ := hstart.run hcalls
  exact ⟨log, hrun, h, hlog, harrivals⟩

/-- Two requests for a function with two endpoints: to its interface, and to its first endpoint. -/
def requestCalls : List EventCall :=
  [.event .bind (by decide), .event .enable (by decide),
    .setup twoEndpointsBound.priv .active ⟨0xc1, 3, 0, 0, 8⟩,
    .setup twoEndpointsBound.priv .active ⟨0x42, 4, 0, 0x81, 0⟩, .read 24 true, .read 24 false]

theorem events_delivered_requests :
  ∃ log, requestCalls.foldlM EventLog.step ⟨ffsEvNew, []⟩ = some log
    ∧ log.Delivered (requestCalls.filterMap EventCall.arrival)
  := by
  have hacc : AcceptedBlob twoEndpointDescs := ⟨_, rfl⟩
  have hbind : FuncStep firstAddress funcNew
      (.bind (newFunction twoEndpointDescs).priv.ffs firstConfig) twoEndpointsBound :=
    funcStep_bindBlob (m := twoEndpointDescs) (s := funcNew) (by decide) (by decide) hacc rfl
      (by decide +kernel)
  have hfunc : ∃ address acts s, Run (FuncStep address) funcNew acts s
      ∧ s.priv = twoEndpointsBound.priv :=
    ⟨_, _, _, .cons hbind (.nil _), rfl⟩
  refine events_delivered rfl fun call hcall => ?_
  simp only [requestCalls, List.mem_cons, List.not_mem_nil, or_false] at hcall
  obtain rfl | rfl | rfl | rfl | rfl | rfl := hcall
  · trivial
  · trivial
  · exact hfunc
  · exact hfunc
  · trivial
  · trivial

end Ffs
