import KhdfLinux.Kevent.Clients

/-!
# What is sent and what is returned

`send_faithful`: when a call of `HdfSysEventSend` sends its event to every client as it was asked
for, and returns what came of it. -/

namespace Kevent

namespace Report

/-- The event was sent, arrived everywhere, and was acknowledged in time where that was asked for;
or there was no one to send it to. -/
def Served (r : Report) : Prop :=
  match r.ending with
  | .unavailable | .unprepared => False
  | .nobody => True
  | .sent inTime => (∀ a ∈ r.attempts, a.ret = Hdf.success) ∧ (r.call.sync → inTime)

/-- What is promised of a call: one buffer is sent to each client and is read as the event that was
given, and the result is defined, and says if all went well. -/
structure Faithful (r : Report) : Prop where
  reached : r.attempts.map Attempt.client = r.registered ∧ r.registered.Nodup
  decoded : ∀ a ∈ r.attempts,
    a.buf.decode = some (⟨r.call.eventClass, r.call.event, r.syncToken⟩, r.call.content)
  result : r.result.isSome ∧ (r.result = some Hdf.success ↔ r.Served)

/-- If there are clients the event can be sent and its class fits into 16 bits; and where the result
is that of the deliveries there are some, and all have succeeded if the last one has. -/
structure Fit (r : Report) : Prop where
  sent : r.registered ≠ [] → (∃ inTime, r.ending = .sent inTime) ∧ r.call.eventClass.toNat < 2 ^ 16
  last : ∀ inTime, r.ending = .sent inTime → (r.call.sync → inTime) → r.registered ≠ []
    ∧ ((∀ a ∈ r.attempts.getLast?, a.ret = Hdf.success) → ∀ a ∈ r.attempts, a.ret = Hdf.success)

end Report

/-- A class passes through 16 bits if it fits. -/
theorem setWidth_eq_self (c : BitVec 64) :
  (c.setWidth 16).setWidth 64 = c ↔ c.toNat < 2 ^ 16
  := by
  rw [← BitVec.toNat_inj, BitVec.toNat_setWidth, BitVec.toNat_setWidth]
  omega

/-- What the event of the call was sent as, and to whom. -/
structure SentTo (call : Call) (token : Token) (registered : List Nat) (attempts : List Attempt) :
    Prop where
  clients : attempts.map Attempt.client = registered
  nodup : registered.Nodup
  decoded : ∀ a ∈ attempts, a.buf.decode = some
    (⟨(call.eventClass.setWidth 16).setWidth 64, call.event, token⟩, call.content)

variable {call : Call} {token : Token} {registered : List Nat} {attempts : List Attempt}

theorem SentTo.attempts_eq_nil (h : SentTo call token registered attempts) :
  registered = [] ↔ attempts = []
  := by
  rw [← h.clients, List.map_eq_nil_iff]

/-- What was sent is what was given, if the class fits. -/
theorem SentTo.decoded_iff (h : SentTo call token registered attempts) :
  (∀ a ∈ attempts, a.buf.decode = some (⟨call.eventClass, call.event, token⟩, call.content))
    ↔ (registered ≠ [] → call.eventClass.toNat < 2 ^ 16)
  := by
  rw [ne_eq, h.attempts_eq_nil, ← setWidth_eq_self]
  constructor
  · intro hgiven hsome
    obtain ⟨a, ha⟩ := List.exists_mem_of_ne_nil _ hsome
    have hboth := (h.decoded a ha).symm.trans (hgiven a ha)
    apply congrArg SysEvent.eventClass (Prod.mk.inj (Option.some.inj hboth)).1
  · intro hfits a ha
    rw [h.decoded a ha, hfits (List.ne_nil_of_mem ha)]

/-- The result is that of the last delivery. -/
theorem getLast?_ret (attempts : List Attempt) :
  (attempts.getLast?.map Attempt.ret).isSome = true ↔ attempts ≠ []
  := by
  rw [Option.isSome_map, Option.isSome_iff_ne_none, ne_eq, List.getLast?_eq_none_iff]

theorem getLast?_ret_eq (hsome : attempts ≠ []) :
  attempts.getLast?.map Attempt.ret = some Hdf.success
    ↔ ∀ a ∈ attempts.getLast?, a.ret = Hdf.success
  := by
  rw [List.getLast?_eq_some_getLast hsome]
  simp

/-- When a call that has sent its event is faithful. -/
theorem SentTo.faithful_iff (h : SentTo call token registered attempts) {inTime : Bool}
    {result : Option Int} {owing : List Nat}
    (hresult : result = if call.sync → inTime then attempts.getLast?.map Attempt.ret
      else some Hdf.errTimeout) :
  (Report.mk call (.sent inTime) registered attempts token result owing).Faithful
    ↔ (Report.mk call (.sent inTime) registered attempts token result owing).Fit
  := by
  by_cases htime : call.sync → inTime
  · rw [if_pos htime] at hresult
    constructor
    · rintro ⟨-, hdecoded, hsome, hsuccess⟩
      dsimp only at hsome hsuccess
      rw [hresult, getLast?_ret] at hsome
      rw [hresult, getLast?_ret_eq hsome] at hsuccess
      refine ⟨fun hregistered => ⟨⟨inTime, rfl⟩, h.decoded_iff.mp hdecoded hregistered⟩,
        fun inTime' _ _ => ⟨fun hnil => hsome (h.attempts_eq_nil.mp hnil), fun hlast => ?_⟩⟩
      exact (hsuccess.mp hlast).1
    · rintro ⟨hsent, hlast⟩
      obtain ⟨hregistered, hall⟩ := hlast inTime rfl htime
      have hsome : attempts ≠ [] := fun hnil => hregistered (h.attempts_eq_nil.mpr hnil)
      refine ⟨⟨h.clients, h.nodup⟩, h.decoded_iff.mpr fun hr => (hsent hr).2, ?_⟩
      dsimp only
      rw [hresult, getLast?_ret, getLast?_ret_eq hsome]
      exact ⟨hsome, fun hok => ⟨hall hok, htime⟩,
        fun hserved a ha => hserved.1 a (List.mem_of_getLast? ha)⟩
  · rw [if_neg htime] at hresult
    constructor
    · rintro ⟨-, hdecoded, -⟩
      refine ⟨fun hregistered => ⟨⟨inTime, rfl⟩, h.decoded_iff.mp hdecoded hregistered⟩, ?_⟩
      intro inTime' hending hsync
      cases hending
      apply absurd hsync htime
    · rintro ⟨hsent, -⟩
      refine ⟨⟨h.clients, h.nodup⟩, h.decoded_iff.mpr fun hr => (hsent hr).2, ?_⟩
      dsimp only
      rw [hresult]
      refine ⟨rfl, fun hcon => ?_, fun hserved => absurd hserved.2 htime⟩
      simp [Hdf.errTimeout, Hdf.success] at hcon

/-- A call that does not send its event is faithful if there are no clients. -/
theorem refused_faithful_iff {clients : List Nat} (hnodup : clients.Nodup) {ending : Ending}
    {result : Int} (hending : ∀ inTime, ending ≠ .sent inTime)
    (hresult : result = Hdf.success ↔ ending = .nobody) {owing : List Nat} :
  (Report.mk call ending clients [] 0 (some result) owing).Faithful
    ↔ (Report.mk call ending clients [] 0 (some result) owing).Fit
  := by
  constructor
  · rintro ⟨⟨hreached, -⟩, -, -⟩
    exact ⟨fun hsome => absurd hreached.symm hsome, fun inTime hsent =>
      absurd hsent (hending inTime)⟩
  · rintro ⟨hsent, -⟩
    have hnil : clients = [] := by
      by_contra hsome
      obtain ⟨⟨inTime, heq⟩, -⟩ := hsent hsome
      apply hending inTime heq
    refine ⟨⟨hnil.symm, hnodup⟩, nofun, rfl, ?_⟩
    rw [Option.some_inj, hresult]
    unfold Report.Served
    cases ending with
    | nobody => exact iff_of_true rfl trivial
    | unavailable => exact iff_of_false Ending.noConfusion not_false
    | unprepared => exact iff_of_false Ending.noConfusion not_false
    | sent inTime => exact absurd rfl (hending inTime)

namespace System

variable {s t : System} {a : Act}

/-- What was sent is recorded as it was sent, until the call returns. -/
structure Recorded (s : System) : Prop where
  waiting : ∀ call wait attempts ret, ⟨call, .waiting wait attempts ret⟩ ∈ s.frames →
    call.sync ∧ SentTo call wait.token wait.registered attempts
      ∧ ret = attempts.getLast?.map Attempt.ret
  woken : ∀ call wait attempts inTime ret, ⟨call, .woken wait attempts inTime ret⟩ ∈ s.frames →
    call.sync ∧ SentTo call wait.token wait.registered attempts
      ∧ ret = if inTime then attempts.getLast?.map Attempt.ret else some Hdf.errTimeout
  returned : ∀ r ∈ s.returned, r.Faithful ↔ r.Fit

/-- A buffer is sent to each client. -/
theorem Tidy.sentTo (h : s.Tidy) {buf : SBuf} {wait : Option Token}
    (hf : ⟨call, .prepared buf wait⟩ ∈ s.frames) (outcomes : Nat → Int) :
  SentTo call (wait.getD 0) s.clientList (s.attempts buf outcomes)
  := by
  refine ⟨?_, h.nodup, fun a ha => ?_⟩
  · unfold System.attempts
    rw [List.map_map]
    apply List.map_id _
  · obtain ⟨c, -, rfl⟩ := List.mem_map.mp ha
    exact (h.prepared _ _ _ hf).1

/-- A step keeps the record. -/
theorem Recorded.step (h : s.Recorded) (htidy : s.Tidy) (hsteps : s.Steps a t) :
  t.Recorded
  := by
  refine ⟨fun call wait attempts ret hmem => ?_, fun call wait attempts inTime ret hmem => ?_,
    fun r hr => ?_⟩
  · generalize hframe : (⟨call, .waiting wait attempts ret⟩ : Frame) = f at hmem
    cases hsteps.frames f hmem with
    | old hf => exact h.waiting _ _ _ _ (hframe ▸ hf)
    | @delivered call₀ buf token outcomes hprepared =>
        obtain ⟨rfl, hphase⟩ := Frame.mk.inj hframe
        obtain ⟨rfl, rfl, rfl⟩ := Phase.waiting.inj hphase
        have hf := (mem_of_frame hprepared).1
        exact ⟨(htidy.prepared _ _ _ hf).2.mp rfl, htidy.sentTo hf outcomes, rfl⟩
    | @completed f₀ client token about hf hclient =>
        obtain ⟨call₀, phase₀⟩ := f₀
        cases phase₀ with
        | waiting w₀ attempts₀ ret₀ =>
            obtain ⟨rfl, hphase⟩ := Frame.mk.inj hframe
            obtain ⟨rfl, rfl, rfl⟩ := Phase.waiting.inj hphase
            obtain ⟨-, hregistered, -, htoken⟩ := w₀.complete_same token ⟨client, about⟩
            dsimp only
            rw [hregistered, htoken]
            apply h.waiting _ _ _ _ hf
        | _ => cases hframe
    | _ => cases hframe
  · generalize hframe : (⟨call, .woken wait attempts inTime ret⟩ : Frame) = f at hmem
    cases hsteps.frames f hmem with
    | old hf => exact h.woken _ _ _ _ _ (hframe ▸ hf)
    | woken hf hdone =>
        obtain ⟨rfl, hphase⟩ := Frame.mk.inj hframe
        obtain ⟨rfl, rfl, rfl, rfl⟩ := Phase.woken.inj hphase
        obtain ⟨hsync, hsent, hret⟩ := h.waiting _ _ _ _ hf
        exact ⟨hsync, hsent, hret⟩
    | expired hf hdone =>
        obtain ⟨rfl, hphase⟩ := Frame.mk.inj hframe
        obtain ⟨rfl, rfl, rfl, rfl⟩ := Phase.woken.inj hphase
        obtain ⟨hsync, hsent, -⟩ := h.waiting _ _ _ _ hf
        exact ⟨hsync, hsent, rfl⟩
    | @completed f₀ client token about hf hclient =>
        obtain ⟨call₀, phase₀⟩ := f₀
        cases phase₀ with
        | woken w₀ attempts₀ inTime₀ ret₀ =>
            obtain ⟨rfl, hphase⟩ := Frame.mk.inj hframe
            obtain ⟨rfl, rfl, rfl, rfl⟩ := Phase.woken.inj hphase
            obtain ⟨-, hregistered, -, htoken⟩ := w₀.complete_same token ⟨client, about⟩
            dsimp only
            rw [hregistered, htoken]
            apply h.woken _ _ _ _ _ hf
        | _ => cases hframe
    | _ => cases hframe
  · cases hsteps.returned r hr with
    | old hr => exact h.returned r hr
    | unavailable call hpublished =>
        exact refused_faithful_iff htidy.nodup (fun _ => Ending.noConfusion)
          (iff_of_false (by decide) Ending.noConfusion)
    | nobody call hcount =>
        apply refused_faithful_iff htidy.nodup (fun _ => Ending.noConfusion) (iff_of_true rfl rfl)
    | unprepared hf =>
        exact refused_faithful_iff htidy.nodup (fun _ => Ending.noConfusion)
          (iff_of_false (by decide) Ending.noConfusion)
    | @sent call buf outcomes hf =>
        refine (htidy.sentTo hf outcomes).faithful_iff ?_
        rw [if_pos fun hsync => ?_]
        cases (htidy.prepared _ _ _ hf).2.mpr hsync
    | @finished call wait attempts inTime ret hf =>
        obtain ⟨hsync, hsent, hret⟩ := h.woken _ _ _ _ _ hf
        refine hsent.faithful_iff (hret.trans ?_)
        cases inTime with
        | false =>
            rw [if_neg Bool.false_ne_true, if_neg fun htime => Bool.false_ne_true (htime hsync)]
        | true => rw [if_pos rfl, if_pos fun _ => rfl]

end System

/-- A call sends its event to every client as it was given, and returns what came of it, just if
there are clients only where the event can be sent with a class of 16 bits, and where the result is
that of the deliveries there are some, and the last one fails if any does. -/
theorem send_faithful {acts : List Act} {s : System}
    (h : Run (fun s a t => s.next a = some t) systemNew acts s) :
  ∀ r ∈ s.returned, r.Faithful ↔ r.Fit
  := by
  have hkept : s.Tidy ∧ s.Recorded := by
    refine h.keeps (fun s => s.Tidy ∧ s.Recorded) ?_
      ⟨System.tidy_systemNew, nofun, nofun, nofun⟩
    rintro s a t ⟨htidy, hrecorded⟩ hnext
    have hsteps := System.next_steps hnext
    exact ⟨htidy.step hsteps, hrecorded.step htidy hsteps⟩
  exact hkept.2.returned

/-- An event is sent to the only client. -/
def onceActs : List Act :=
  [.driverInit, .driverOpen true, .sysEventSend 2 0 none false, .prepare 0 (.fine 4096),
   .deliver 0 fun _ => Hdf.success]

theorem send_faithful_once :
  ∃ s, Run (fun s a t => s.next a = some t) systemNew onceActs s
    ∧ ∃ r ∈ s.returned, r.result = some Hdf.success ∧ r.attempts.length = 1 ∧ r.Faithful
  := by
  have hrun : ∃ s, Run (fun s a t => s.next a = some t) systemNew onceActs s
      ∧ ∃ r ∈ s.returned, r.result = some Hdf.success ∧ r.attempts.length = 1 ∧ r.Fit := by
    refine ⟨_, Run.of_foldlM (f := System.next) rfl, _, .head _, rfl, rfl, fun _ => ?_, ?_⟩
    · exact ⟨⟨false, rfl⟩, (by decide : 2 < 2 ^ 16)⟩
    · refine fun _ _ _ => ⟨List.cons_ne_nil _ _, fun _ a ha => ?_⟩
      obtain rfl := List.mem_singleton.mp ha
      rfl
  obtain ⟨s, hrun, r, hr, hresult, hlength, hfit⟩ := hrun
  exact ⟨s, hrun, r, hr, hresult, hlength, (send_faithful hrun r hr).mpr hfit⟩

/-- Another event with a class of 17 bits is sent, and then one to no client, as it was closed. -/
def edgeActs : List Act :=
  onceActs ++ [.sysEventSend 65538 1 none false, .prepare 1 (.fine 4096),
   .deliver 1 fun _ => Hdf.success, .sysEventSend 2 2 none false, .driverClose 0,
   .prepare 2 (.fine 4096), .deliver 2 fun _ => Hdf.success]

/-- The first call is faithful; the class of the second arrives as 2; and the third returns no
result, as its client was closed meanwhile. -/
theorem send_faithful_not :
  ∃ s, Run (fun s a t => s.next a = some t) systemNew edgeActs s
    ∧ s.returned.map (fun r => r.attempts.map Attempt.buf)
      = [[[.buffer ⟨2, 0, 0⟩, .string none]], [[.buffer ⟨2, 1, 0⟩, .string none]], []]
    ∧ s.returned.map Report.result = [some Hdf.success, some Hdf.success, none]
    ∧ ¬∀ r ∈ s.returned, r.Faithful
  := by
  refine ⟨_, Run.of_foldlM (f := System.next) rfl, rfl, rfl, fun h => ?_⟩
  have hresult := (h _ (.tail _ (.tail _ (.head _)))).result.1
  cases hresult

end Kevent
