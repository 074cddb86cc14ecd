import KhdfLinux.Kevent.Clients

/-!
# Waiting for everyone

`sync_waits`: in a run whose messages acknowledge what they should, a synchronous call succeeds only
if every client it was sent to has acknowledged its event or was closed.
-/

namespace Kevent

namespace System

variable {s t : System} {a : Act}

/-- What is promised of synchronous calls: one that succeeds, or may, has waited for every client,
and a wait counts one message of each client, by which it acknowledges the event. -/
structure WaitsForAll (s : System) : Prop where
  success : ∀ r ∈ s.returned, r.call.sync → r.result = none ∨ r.result = some Hdf.success →
    r.owing = []
  counts : ∀ w ∈ s.waitList, (w.acks.map Ack.client).Nodup
    ∧ ∀ ack ∈ w.acks, ack.about = w.number ∧ ack.client ∈ w.registered
  count : ∀ w ∈ s.waitList,
    w.waitCount + BitVec.ofNat 32 w.acks.length = BitVec.ofNat 32 w.registered.length

/-- A message that carries the address of a wait is the first of one of its clients about the event,
and there are never too many clients to be counted. -/
def Honest (s : System) : Act → Prop
  | .dispatch client id token about => id = keventCompleteEvent → ∀ w ∈ s.waitList,
      token = some w.token → about = w.number ∧ client ∈ s.owing w
  | .driverOpen _ => s.clientList.length + 1 < 2 ^ 31
  | _ => True

/-- A wait is not completed while clients owe an acknowledgement. -/
structure Patient (s : System) : Prop where
  few : s.clientList.length < 2 ^ 31
  bounded : ∀ w ∈ s.waitList, (s.owing w).length ≤ w.waitCount.toNat
  done : ∀ w ∈ s.waitList, 0 < w.done → s.owing w = []
  woken : ∀ call wait attempts inTime ret, ⟨call, .woken wait attempts inTime ret⟩ ∈ s.frames →
    s.owing wait = [] ∨ ret = some Hdf.errTimeout

/-- The clients that remain become fewer. -/
theorem Steps.remaining_subset (h : s.Steps a t) {w w' : Wait} {clients : List Nat}
    (hold : ∀ c ∈ clients, c < s.opened) (hacked : ∀ c, w.AckedBy c → w'.AckedBy c) :
  t.remaining w' clients ⊆ s.remaining w clients
  := by
  intro c hc
  obtain ⟨hmem, hopen, hnot⟩ := mem_remaining.mp hc
  refine mem_remaining.mpr ⟨hmem, ?_, fun hw => hnot (hacked c hw)⟩
  cases h.clients with
  | same hlist hcount hopened => exact hlist ▸ hopen
  | opened hlist hcount hopened =>
      rw [hlist, List.mem_append, List.mem_singleton] at hopen
      apply hopen.resolve_right (Nat.ne_of_lt (hold c hmem))
  | closed hclient hlist hcount hopened =>
      rw [hlist] at hopen
      apply List.mem_of_mem_erase hopen

/-- A wait for which no client remains stays so. -/
theorem Steps.owing_eq_nil (h : s.Steps a t) (htidy : s.Tidy) {w w' : Wait} (hw : w ∈ s.waitList)
    (hregistered : w'.registered = w.registered) (hacked : ∀ c, w.AckedBy c → w'.AckedBy c)
    (hnil : s.owing w = []) :
  t.owing w' = []
  := by
  have hsub := h.remaining_subset (htidy.registered w hw).2 hacked
  unfold owing at hnil ⊢
  rw [hnil] at hsub
  rw [hregistered]
  apply List.subset_nil.mp hsub

/-- The clients are counted as long as there are not too many. -/
theorem Tidy.toNat_clientCount (h : s.Tidy) (hfew : s.clientList.length < 2 ^ 32) :
  s.clientCount.toNat = s.clientList.length
  := by
  rw [h.count, BitVec.toNat_ofNat, Nat.mod_eq_of_lt hfew]

/-- A call is refused for want of clients only if there are none. -/
theorem Tidy.clientList_eq_nil (h : s.Tidy) (hfew : s.clientList.length < 2 ^ 31)
    (hcount : s.clientCount.toInt ≤ 0) :
  s.clientList = []
  := by
  have hnat := h.toNat_clientCount (by omega)
  rw [BitVec.toInt_eq_toNat_of_lt (by omega), hnat] at hcount
  exact List.length_eq_zero_iff.mp (by omega)

/-- A message that is meant takes its client from those that remain, and counts for one. -/
theorem Honest.complete (htidy : s.Tidy) {client : Nat} {token : Token} {about : Nat}
    (h : s.Honest (.dispatch client keventCompleteEvent (some token) about)) {w : Wait}
    (hw : w ∈ s.waitList) (htoken : token = w.token) (hlist : t.clientList = s.clientList) :
  client ∈ s.owing w ∧ about = w.number
    ∧ t.owing (w.complete token ⟨client, about⟩) = (s.owing w).erase client
  := by
  obtain ⟨habout, hclient⟩ := h rfl w hw (congrArg some htoken)
  refine ⟨hclient, habout, ?_⟩
  unfold owing
  rw [(w.complete_same token ⟨client, about⟩).2.1]
  apply remaining_complete (htidy.registered w hw).1 htoken habout hlist

/-- A step by honest messages keeps the waits patient. -/
theorem Patient.step (h : s.Patient) (htidy : s.Tidy) (hsteps : s.Steps a t) (honest : s.Honest a) :
  t.Patient
  := by
  refine ⟨?_, fun w hw => ?_, fun w hw hdone => ?_, fun call wait attempts inTime ret hmem => ?_⟩
  · cases hsteps.clients with
    | same hlist hcount hopened =>
        rw [hlist]
        apply h.few
    | opened hlist hcount hopened =>
        rw [hlist, List.length_append, List.length_singleton]
        apply honest
    | closed hclient hlist hcount hopened =>
        rw [hlist]
        apply Nat.lt_of_le_of_lt (List.length_erase_le) h.few
  · obtain ⟨w₀, hw₀, heq, -⟩ | ⟨call, buf, token, outcomes, -, rfl, rfl⟩
      | ⟨w₀, hw₀, client, token, about, hclient, rfl, rfl⟩ := hsteps.wait hw
    · have hbounded := h.bounded w₀ hw₀
      rw [heq]
      obtain ⟨hnodup, hold⟩ := htidy.registered w₀ hw₀
      unfold owing at hbounded ⊢
      obtain hsame | ⟨client, -, -, herase⟩ := htidy.remaining_of_clients hsteps.clients hnodup hold
        (rfl : ({ w₀ with done := w.done } : Wait).acks = w₀.acks) rfl
      · rw [hsame]
        apply hbounded
      · rw [herase]
        apply Nat.le_trans List.length_erase_le hbounded
    · have hlist : t.clientList = s.clientList := by
        cases hsteps.clients with
        | same hlist hcount hopened => exact hlist
      change (t.remaining (s.newWait call token outcomes) s.clientList).length ≤ s.clientCount.toNat
      rw [remaining_newWait hlist fun c hc => hc]
      exact Nat.le_of_eq (htidy.toNat_clientCount (Nat.lt_trans h.few (by decide))).symm
    · have hlist : t.clientList = s.clientList := by
        cases hsteps.clients with
        | same hlist hcount hopened => exact hlist
      have hbounded := h.bounded w₀ hw₀
      by_cases htoken : token = w₀.token
      · obtain ⟨hmem, -, howing⟩ := honest.complete htidy hw₀ htoken hlist
        have hpos := List.length_pos_of_mem hmem
        rw [howing, List.length_erase_of_mem hmem, Wait.complete_of_eq htoken]
        have hsub : (w₀.waitCount - 1).toNat = w₀.waitCount.toNat - 1 := by
          bv_omega
        rw [hsub]
        omega
      · rw [Wait.complete_of_ne htoken]
        have hsame : t.owing w₀ = s.owing w₀ :=
          remaining_congr (fun c _ => by rw [hlist]) fun _ _ => Iff.rfl
        rw [hsame]
        apply hbounded
  · obtain ⟨w₀, hw₀, heq, hle⟩ | ⟨call, buf, token, outcomes, -, rfl, rfl⟩
      | ⟨w₀, hw₀, client, token, about, hclient, rfl, rfl⟩ := hsteps.wait hw
    · rw [heq]
      exact hsteps.owing_eq_nil htidy hw₀ rfl (fun _ h => h)
        (h.done w₀ hw₀ (Nat.lt_of_lt_of_le hdone hle))
    · apply absurd hdone (Nat.lt_irrefl 0)
    · have hlist : t.clientList = s.clientList := by
        cases hsteps.clients with
        | same hlist hcount hopened => exact hlist
      by_cases htoken : token = w₀.token
      · obtain ⟨hmem, -, howing⟩ := honest.complete htidy hw₀ htoken hlist
        have hbounded := h.bounded w₀ hw₀
        have hpos := List.length_pos_of_mem hmem
        rw [Wait.complete_of_eq htoken] at hdone
        dsimp only at hdone
        split at hdone
        · rename_i hzero
          have hone : w₀.waitCount.toNat = 1 := by
            bv_omega
          rw [howing]
          refine List.length_eq_zero_iff.mp ?_
          rw [List.length_erase_of_mem hmem]
          omega
        · rw [h.done w₀ hw₀ hdone] at hmem
          cases hmem
      · rw [Wait.complete_of_ne htoken] at hdone ⊢
        apply hsteps.owing_eq_nil htidy hw₀ rfl (fun _ h => h) (h.done w₀ hw₀ hdone)
  · generalize hframe : (⟨call, .woken wait attempts inTime ret⟩ : Frame) = f at hmem
    cases hsteps.frames f hmem with
    | old hf =>
        rw [← hframe] at hf
        have hw : wait ∈ s.waitList := mem_waitList.mpr ⟨_, hf, rfl⟩
        exact (h.woken _ _ _ _ _ hf).imp_left
          (hsteps.owing_eq_nil htidy hw rfl fun _ h => h)
    | @woken call₀ wait₀ attempts₀ ret₀ hf hdone =>
        obtain ⟨-, hphase⟩ := Frame.mk.inj hframe
        obtain ⟨rfl, -, -, -⟩ := Phase.woken.inj hphase
        have hw : wait₀ ∈ s.waitList := mem_waitList.mpr ⟨_, hf, rfl⟩
        exact .inl (hsteps.owing_eq_nil htidy hw rfl (fun _ h => h)
          (h.done wait₀ hw (Nat.pos_of_ne_zero hdone)))
    | @expired call₀ wait₀ attempts₀ ret₀ hf hdone =>
        obtain ⟨-, hphase⟩ := Frame.mk.inj hframe
        exact .inr (Phase.woken.inj hphase).2.2.2
    | @completed f₀ client token about hf hclient =>
        obtain ⟨call₀, phase₀⟩ := f₀
        cases phase₀ with
        | woken wait₀ attempts₀ inTime₀ ret₀ =>
            obtain ⟨-, hphase⟩ := Frame.mk.inj hframe
            obtain ⟨rfl, -, -, rfl⟩ := Phase.woken.inj hphase
            have hw : wait₀ ∈ s.waitList := mem_waitList.mpr ⟨_, hf, rfl⟩
            exact (h.woken _ _ _ _ _ hf).imp_left
              (hsteps.owing_eq_nil htidy hw (wait₀.complete_same token _).2.1
                fun _ h => h.complete token _)
        | _ => cases hframe
    | _ => cases hframe

/-- A step by honest messages keeps what is promised of synchronous calls. -/
theorem WaitsForAll.step (h : s.WaitsForAll) (hpatient : s.Patient) (htidy : s.Tidy)
    (hsteps : s.Steps a t) (honest : s.Honest a) :
  t.WaitsForAll
  := by
  refine ⟨fun r hr hsync hresult => ?_, fun w hw => ?_, fun w hw => ?_⟩
  · cases hsteps.returned r hr with
    | old hr => exact h.success r hr hsync hresult
    | unavailable call hpublished => simp [Hdf.devErrOp, Hdf.success] at hresult
    | nobody call hcount => exact htidy.clientList_eq_nil hpatient.few hcount
    | unprepared hf => simp [Hdf.failure, Hdf.success] at hresult
    | sent hf => cases (htidy.prepared _ _ _ hf).2.mpr hsync
    | finished hf =>
        obtain hnil | rfl := hpatient.woken _ _ _ _ _ hf
        · apply hnil
        · simp [Hdf.errTimeout, Hdf.success] at hresult
  · obtain ⟨w₀, hw₀, heq, -⟩ | ⟨call, buf, token, outcomes, -, rfl, rfl⟩
      | ⟨w₀, hw₀, client, token, about, hclient, rfl, rfl⟩ := hsteps.wait hw
    · rw [heq]
      apply h.counts w₀ hw₀
    · exact ⟨List.nodup_nil, nofun⟩
    · by_cases htoken : token = w₀.token
      · obtain ⟨hnodup, hmeant⟩ := h.counts w₀ hw₀
        obtain ⟨habout, howes⟩ := honest rfl w₀ hw₀ (congrArg some htoken)
        obtain ⟨hregistered, -, hnot⟩ := mem_remaining.mp howes
        rw [Wait.complete_of_eq htoken]
        refine ⟨?_, fun ack hack => ?_⟩
        · rw [List.map_append, List.nodup_append]
          refine ⟨hnodup, List.nodup_singleton _, fun c hc c' hc' => ?_⟩
          rw [List.mem_singleton.mp hc']
          rintro rfl
          obtain ⟨ack, hack, hsame⟩ := List.mem_map.mp hc
          exact hnot ⟨ack, hack, hsame, (hmeant ack hack).1⟩
        · obtain hack | hack := List.mem_append.mp hack
          · apply hmeant ack hack
          · rw [List.mem_singleton.mp hack]
            exact ⟨habout, hregistered⟩
      · rw [Wait.complete_of_ne htoken]
        apply h.counts w₀ hw₀
  · obtain ⟨w₀, hw₀, heq, -⟩ | ⟨call, buf, token, outcomes, -, rfl, rfl⟩
      | ⟨w₀, hw₀, client, token, about, hclient, rfl, rfl⟩ := hsteps.wait hw
    · rw [heq]
      apply h.count w₀ hw₀
    · exact (BitVec.add_zero _).trans htidy.count
    · by_cases htoken : token = w₀.token
      · have hcount := h.count w₀ hw₀
        rw [Wait.complete_of_eq htoken]
        dsimp only
        rw [← hcount, List.length_append, List.length_singleton, BitVec.ofNat_add]
        bv_omega
      · rw [Wait.complete_of_ne htoken]
        apply h.count w₀ hw₀

end System

/-- In a run whose messages are honest, a synchronous call succeeds only if every client that was
registered when its event was sent has acknowledged it or was closed, and each acknowledgement
counts once, for its client and its event. -/
theorem sync_waits {acts : List Act} {s : System}
    (h : Run (fun s a t => s.next a = some t ∧ s.Honest a) systemNew acts s) :
  s.WaitsForAll
  := by
  have hkept : s.Tidy ∧ s.Patient ∧ s.WaitsForAll := by
    refine h.keeps (fun s => s.Tidy ∧ s.Patient ∧ s.WaitsForAll) ?_ ?_
    · rintro s a t ⟨htidy, hpatient, hwaits⟩ ⟨hnext, honest⟩
      have hsteps := System.next_steps hnext
      exact ⟨htidy.step hsteps, hpatient.step htidy hsteps honest,
        hwaits.step hpatient htidy hsteps honest⟩
    · exact ⟨System.tidy_systemNew, ⟨by decide, nofun, nofun, nofun⟩, ⟨nofun, nofun, nofun⟩⟩
  exact hkept.2.2

/-- Two clients are open when an event is sent and each is asked to acknowledge it. -/
def sendActs : List Act :=
  [.driverInit, .driverOpen true, .driverOpen true, .sysEventSend 2 0 none true,
   .prepare 0 (.fine 4096), .deliver 0 fun _ => Hdf.success]

/-- The buffer of the event. -/
def sentBuf : SBuf := [.buffer ⟨2, 0, 4096⟩, .string none]

/-- The event was sent, and these messages were received. -/
def sentSystem (waitCount : BitVec 32) (done : Nat) (acks : List Ack) : System where
  published := true
  clientList := [0, 1]
  clientCount := 2
  frames := [⟨⟨0, 2, 0, none, true⟩, .waiting ⟨4096, waitCount, done, 0, [0, 1], [0, 1], acks⟩
    [⟨0, sentBuf, Hdf.success⟩, ⟨1, sentBuf, Hdf.success⟩] (some Hdf.success)⟩]
  allocated := [4096]
  opened := 2
  called := 1
  returned := []

/-- Both clients acknowledge the event. -/
def ackActs : List Act :=
  [.dispatch 0 keventCompleteEvent (some 4096) 0, .dispatch 1 keventCompleteEvent (some 4096) 0,
   .wake 0, .finish 0]

theorem sync_waits_twoClients :
  ∃ s, Run (fun s a t => s.next a = some t ∧ s.Honest a) systemNew (sendActs ++ ackActs) s
    ∧ s.returned.map Report.result = [some Hdf.success] ∧ s.WaitsForAll
  := by
  have hsend : Run (fun s a t => s.next a = some t ∧ s.Honest a) systemNew sendActs
      (sentSystem 2 0 []) := by
    refine .cons ⟨rfl, trivial⟩ (.cons ⟨rfl, ?_⟩ (.cons ⟨rfl, ?_⟩ (.cons ⟨rfl, trivial⟩
      (.cons ⟨rfl, trivial⟩ (.cons ⟨rfl, trivial⟩ (.nil _))))))
    · exact (by decide : 0 + 1 < 2 ^ 31)
    · exact (by decide : 1 + 1 < 2 ^ 31)
  have hfirst : (sentSystem 2 0 []).next (.dispatch 0 keventCompleteEvent (some 4096) 0)
        = some (sentSystem 1 0 [⟨0, 0⟩])
      ∧ (sentSystem 2 0 []).Honest (.dispatch 0 keventCompleteEvent (some 4096) 0) := by
    refine ⟨rfl, fun _ w hw _ => ?_⟩
    obtain rfl := List.mem_singleton.mp hw
    exact ⟨rfl, by decide⟩
  have hsecond : (sentSystem 1 0 [⟨0, 0⟩]).next (.dispatch 1 keventCompleteEvent (some 4096) 0)
        = some (sentSystem 0 1 [⟨0, 0⟩, ⟨1, 0⟩])
      ∧ (sentSystem 1 0 [⟨0, 0⟩]).Honest (.dispatch 1 keventCompleteEvent (some 4096) 0) := by
    refine ⟨rfl, fun _ w hw _ => ?_⟩
    obtain rfl := List.mem_singleton.mp hw
    exact ⟨rfl, by decide⟩
  have hend : ∃ s, Run (fun s a t => s.next a = some t ∧ s.Honest a)
      (sentSystem 0 1 [⟨0, 0⟩, ⟨1, 0⟩]) [.wake 0, .finish 0] s
        ∧ s.returned.map Report.result = [some Hdf.success] :=
    ⟨_, .cons ⟨rfl, trivial⟩ (.cons ⟨rfl, trivial⟩ (.nil _)), rfl⟩
  obtain ⟨s, hend, hresult⟩ := hend
  have hrun := hsend.append (.cons hfirst (.cons hsecond hend))
  exact ⟨s, hrun, hresult, sync_waits hrun⟩

/-- One of the clients acknowledges the event twice, and the other not at all: the call succeeds. -/
theorem sync_waits_for_one :
  ∃ s, Run (fun s a t => s.next a = some t) systemNew
      (sendActs ++ [.dispatch 0 keventCompleteEvent (some 4096) 0,
        .dispatch 0 keventCompleteEvent (some 4096) 0, .wake 0, .finish 0]) s
    ∧ s.clientList = [0, 1]
    ∧ s.returned.map (fun r => (r.result, r.owing)) = [(some Hdf.success, [1])] ∧ ¬s.WaitsForAll
  := by
  refine ⟨_, Run.of_foldlM (f := System.next) rfl, rfl, rfl, fun h => ?_⟩
  have hsuccess := h.success _ List.mem_cons_self rfl (.inr rfl)
  cases hsuccess

end Kevent
