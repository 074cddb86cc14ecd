import KhdfLinux.Kevent.Acknowledged

/-!
# The count of a wait

`waits_counted`: as long as every event arrives, clients stay open until they have acknowledged it,
and they acknowledge it once, the count of a wait is that of the clients it waits for.
-/

namespace Kevent

namespace System

variable {s t : System} {a : Act}

/-- The clients to which the event was delivered, that are open, and have not acknowledged it. -/
def awaited (s : System) (w : Wait) : List Nat :=
  s.remaining w w.delivered

/-- What is promised of the waits: the count is that of the clients that are awaited, and a wait is
completed once there are none. -/
structure Balances (s : System) : Prop where
  count : ∀ w ∈ s.waitList, w.waitCount.toNat = (s.awaited w).length
  completed : ∀ call wait attempts ret, ⟨call, .waiting wait attempts ret⟩ ∈ s.frames →
    (0 < wait.done ↔ s.awaited wait = [])

/-- A synchronous event is delivered to all clients, of which there are some and not too many, no
client is closed that is awaited, and a message that carries the address of a wait is from a client
that is awaited, and about the event. -/
def Balanced (s : System) : Act → Prop
  | .deliver number outcomes => ∀ call buf token,
      s.frame number = some ⟨call, .prepared buf (some token)⟩ →
      s.clientList ≠ [] ∧ s.clientList.length < 2 ^ 32
        ∧ ∀ c ∈ s.clientList, outcomes c = Hdf.success
  | .driverClose client => ∀ w ∈ s.waitList, client ∉ s.awaited w
  | .dispatch client id token about => id = keventCompleteEvent → ∀ w ∈ s.waitList,
      token = some w.token → about = w.number ∧ client ∈ s.awaited w
  | _ => True

theorem Tidy.delivered_nodup (h : s.Tidy) {w : Wait} (hw : w ∈ s.waitList) :
  w.delivered.Nodup ∧ ∀ c ∈ w.delivered, c < s.opened
  := by
  obtain ⟨hnodup, hold⟩ := h.registered w hw
  exact ⟨hnodup.sublist (h.delivered w hw), fun c hc => hold c ((h.delivered w hw).subset hc)⟩

/-- Who is awaited by a wait that gets no message stays so. -/
theorem Balanced.awaited_eq (h : s.Balanced a) (htidy : s.Tidy) (hsteps : s.Steps a t) {w : Wait}
    (hw : w ∈ s.waitList) {w' : Wait} (hdelivered : w'.delivered = w.delivered)
    (hacks : w'.acks = w.acks) (hnumber : w'.number = w.number) :
  t.awaited w' = s.awaited w
  := by
  obtain ⟨hnodup, hold⟩ := htidy.delivered_nodup hw
  unfold awaited
  rw [hdelivered]
  obtain hsame | ⟨client, rfl, -, herase⟩ :=
    htidy.remaining_of_clients hsteps.clients hnodup hold hacks hnumber
  · apply hsame
  · rw [herase]
    apply List.erase_of_not_mem (h w hw)

/-- Who is awaited by a new wait. -/
theorem awaited_newWait {call : Call} {token : Token} {outcomes : Nat → Int}
    (hlist : t.clientList = s.clientList) :
  t.awaited (s.newWait call token outcomes)
    = s.clientList.filter fun client => outcomes client = Hdf.success
  := remaining_newWait hlist fun _ hc => (List.mem_filter.mp hc).1

/-- A message about the event takes its client from those that are awaited. -/
theorem Tidy.awaited_complete (h : s.Tidy) {w : Wait} (hw : w ∈ s.waitList) {token : Token}
    {ack : Ack}
    (htoken : token = w.token) (habout : ack.about = w.number)
    (hlist : t.clientList = s.clientList) :
  t.awaited (w.complete token ack) = (s.awaited w).erase ack.client
  := by
  unfold awaited
  rw [(w.complete_same token ack).2.2.1]
  apply remaining_complete (h.delivered_nodup hw).1 htoken habout hlist

theorem awaited_complete_ne {w : Wait} {token : Token} {ack : Ack}
    (hne : ¬(token = w.token ∧ ack.about = w.number)) (hlist : t.clientList = s.clientList) :
  t.awaited (w.complete token ack) = s.awaited w
  := by
  unfold awaited
  rw [(w.complete_same token ack).2.2.1]
  apply remaining_complete_ne hne hlist

/-- A message takes one from the count. -/
theorem Balances.count_complete (h : s.Balances) (htidy : s.Tidy) {w : Wait} (hw : w ∈ s.waitList)
    {client : Nat} {about : Nat} (habout : about = w.number) (hmem : client ∈ s.awaited w)
    (hlist : t.clientList = s.clientList) :
  (w.waitCount - 1).toNat = (t.awaited (w.complete w.token ⟨client, about⟩)).length
    ∧ (w.waitCount - 1 = 0 ↔ t.awaited (w.complete w.token ⟨client, about⟩) = [])
    ∧ s.awaited w ≠ []
  := by
  have hcount := h.count w hw
  have hpos := List.length_pos_of_mem hmem
  have hlength : (t.awaited (w.complete w.token ⟨client, about⟩)).length
      = (s.awaited w).length - 1 := by
    rw [htidy.awaited_complete hw rfl habout hlist]
    apply List.length_erase_of_mem hmem
  refine ⟨?_, ?_, List.ne_nil_of_mem hmem⟩
  · bv_omega
  · rw [← List.length_eq_zero_iff, hlength]
    constructor
    · intro hzero
      bv_omega
    · intro hzero
      bv_omega

/-- A balanced step keeps the waits counted. -/
theorem Balances.step (h : s.Balances) (htidy : s.Tidy) (hsteps : s.Steps a t)
    (hbal : s.Balanced a) :
  t.Balances
  := by
  refine ⟨fun w hw => ?_, fun call wait attempts ret hframes => ?_⟩
  · obtain ⟨w₀, hw₀, heq, -⟩ | ⟨call, buf, token, outcomes, hframe, rfl, rfl⟩
      | ⟨w₀, hw₀, client, token, about, hclient, rfl, rfl⟩ := hsteps.wait hw
    · rw [heq, hbal.awaited_eq htidy hsteps hw₀
        (rfl : ({ w₀ with done := w.done } : Wait).delivered = w₀.delivered) rfl rfl]
      apply h.count w₀ hw₀
    · obtain ⟨-, hfew, hall⟩ := hbal call buf token hframe
      have hlist : t.clientList = s.clientList := by
        cases hsteps.clients with
        | same hlist hcount hopened => exact hlist
      rw [awaited_newWait hlist,
        List.filter_eq_self.mpr fun c hc => decide_eq_true_iff.mpr (hall c hc)]
      apply htidy.toNat_clientCount hfew
    · have hlist : t.clientList = s.clientList := by
        cases hsteps.clients with
        | same hlist hcount hopened => exact hlist
      by_cases htoken : token = w₀.token
      · obtain ⟨habout, hmem⟩ := hbal rfl w₀ hw₀ (congrArg some htoken)
        subst htoken
        rw [← (h.count_complete htidy hw₀ habout hmem hlist).1, Wait.complete_of_eq rfl]
      · rw [awaited_complete_ne (fun hboth => htoken hboth.1) hlist, Wait.complete_of_ne htoken]
        apply h.count w₀ hw₀
  · generalize hframe : (⟨call, .waiting wait attempts ret⟩ : Frame) = f at hframes
    cases hsteps.frames f hframes with
    | old hf =>
        rw [← hframe] at hf
        have hw : wait ∈ s.waitList := mem_waitList.mpr ⟨_, hf, rfl⟩
        rw [hbal.awaited_eq htidy hsteps hw rfl rfl rfl]
        apply h.completed _ _ _ _ hf
    | @delivered call₀ buf token outcomes hprepared =>
        obtain ⟨-, hphase⟩ := Frame.mk.inj hframe
        obtain ⟨rfl, -, -⟩ := Phase.waiting.inj hphase
        obtain ⟨hsome, -, hall⟩ := hbal call₀ buf token hprepared
        have hlist : t.clientList = s.clientList := by
          cases hsteps.clients with
          | same hlist hcount hopened => exact hlist
        rw [awaited_newWait hlist,
          List.filter_eq_self.mpr fun c hc => decide_eq_true_iff.mpr (hall c hc)]
        apply iff_of_false (Nat.lt_irrefl 0) hsome
    | @completed f₀ client token about hf hclient =>
        obtain ⟨call₀, phase₀⟩ := f₀
        cases phase₀ with
        | waiting w₀ attempts₀ ret₀ =>
            obtain ⟨-, hphase⟩ := Frame.mk.inj hframe
            obtain ⟨rfl, -, -⟩ := Phase.waiting.inj hphase
            have hw : w₀ ∈ s.waitList := mem_waitList.mpr ⟨_, hf, rfl⟩
            have hcompleted := h.completed _ _ _ _ hf
            have hlist : t.clientList = s.clientList := by
              cases hsteps.clients with
              | same hlist hcount hopened => exact hlist
            dsimp only
            by_cases htoken : token = w₀.token
            · obtain ⟨habout, hmem⟩ := hbal rfl w₀ hw (congrArg some htoken)
              subst htoken
              obtain ⟨-, hzero, hsome⟩ := h.count_complete htidy hw habout hmem hlist
              rw [← hzero, Wait.complete_of_eq rfl]
              dsimp only
              split
              · rename_i hlast
                apply iff_of_true (Nat.succ_pos _) hlast
              · rename_i hmore
                apply iff_of_false (fun hdone => hsome (hcompleted.mp hdone)) hmore
            · rw [awaited_complete_ne (fun hboth => htoken hboth.1) hlist,
                Wait.complete_of_ne htoken]
              apply hcompleted
        | _ => cases hframe
    | _ => cases hframe

/-- Only a balanced step keeps the waits counted. -/
theorem Balances.balanced (h : s.Balances) (htidy : s.Tidy) (hfew : s.clientList.length < 2 ^ 32)
    (ht : s.next a = some t) (hkept : t.Balances) :
  s.Balanced a
  := by
  cases a with
  | deliver number outcomes =>
      intro call buf token hframe
      obtain ⟨hf, rfl⟩ := mem_of_frame hframe
      unfold next at ht
      dsimp only at ht
      rw [hframe] at ht
      obtain rfl := Option.some.inj ht
      let phase : Phase := .waiting (s.newWait call token outcomes) (s.attempts buf outcomes)
        ((s.attempts buf outcomes).getLast?.map Attempt.ret)
      have hnew : ⟨call, phase⟩ ∈ (s.setPhase call phase).frames := setPhase_self hf
      have hcount := hkept.count _ (mem_waitList.mpr ⟨_, hnew, rfl⟩)
      have hcompleted := hkept.completed _ _ _ _ hnew
      rw [awaited_newWait (s := s) (t := s.deliver call buf (some token) outcomes) rfl]
        at hcount hcompleted
      refine ⟨fun hnil => ?_, hfew, ?_⟩
      · rw [hnil] at hcompleted
        apply absurd (hcompleted.mpr rfl) (Nat.lt_irrefl 0)
      · have hall := List.length_filter_eq_length_iff.mp
          (hcount.symm.trans (htidy.toNat_clientCount hfew))
        exact fun c hc => decide_eq_true_iff.mp (hall c hc)
  | driverClose client =>
      intro w hw hmem
      have hclient : client ∈ s.clientList := (mem_remaining.mp hmem).2.1
      obtain rfl := Option.some.inj ht
      have hcount := hkept.count w (show w ∈ (s.driverClose client).waitList by
        unfold System.driverClose
        rw [if_pos hclient]
        exact hw)
      have herase : (s.driverClose client).awaited w = (s.awaited w).erase client := by
        refine remaining_closed (htidy.delivered_nodup hw).1 htidy.nodup ?_
        unfold System.driverClose
        rw [if_pos hclient]
      have hpos := List.length_pos_of_mem hmem
      rw [herase, List.length_erase_of_mem hmem, h.count w hw] at hcount
      omega
  | dispatch client id token about =>
      rintro rfl w hw rfl
      unfold next at ht
      dsimp only at ht
      split at ht
      · obtain rfl := Option.some.inj ht
        obtain ⟨f, hf, hwait⟩ := mem_waitList.mp hw
        have hw' : w.complete w.token ⟨client, about⟩
            ∈ (s.ioServiceDispatch keventCompleteEvent (some w.token)
              ⟨client, about⟩).waitList := by
          refine mem_waitList.mpr ⟨_, List.mem_map.mpr ⟨f, hf, rfl⟩, ?_⟩
          rw [Phase.wait?_mapWait, hwait]
          rfl
        have hcount := hkept.count _ hw'
        have hbefore := h.count w hw
        have hstays : (s.ioServiceDispatch keventCompleteEvent (some w.token)
            ⟨client, about⟩).awaited (w.complete w.token ⟨client, about⟩) ≠ s.awaited w := by
          intro hsame
          rw [hsame, ← hbefore, Wait.complete_of_eq rfl] at hcount
          dsimp only at hcount
          bv_omega
        by_cases habout : about = w.number
        · refine ⟨habout, ?_⟩
          by_contra hnot
          refine hstays ?_
          rw [htidy.awaited_complete (t := s.ioServiceDispatch keventCompleteEvent (some w.token)
            ⟨client, about⟩) hw rfl habout rfl]
          apply List.erase_of_not_mem hnot
        · apply absurd (awaited_complete_ne (fun hboth => habout hboth.2) rfl) hstays
      · cases ht
  | _ => trivial

end System

/-- In a run of balanced steps the count of each wait is that of the clients that are awaited, and
it is completed once there are none: a call does not run into the timeout without a client that is
awaited, and a message that is counted never finds the count zero.  A further step keeps this just
if it is balanced. -/
theorem waits_counted {acts : List Act} {s : System}
    (h : Run (fun s a t => s.next a = some t ∧ s.Balanced a) systemNew acts s) :
  s.Balances
    ∧ (∀ number t, s.next (.expire number) = some t → ∃ call wait attempts ret,
      s.frame number = some ⟨call, .waiting wait attempts ret⟩ ∧ s.awaited wait ≠ [])
    ∧ (∀ w ∈ s.waitList, ∀ client about,
      s.Balanced (.dispatch client keventCompleteEvent (some w.token) about) → w.waitCount ≠ 0)
    ∧ (s.clientList.length < 2 ^ 32 → ∀ a t, s.next a = some t → (t.Balances ↔ s.Balanced a))
  := by
  obtain ⟨htidy, hbalances⟩ : s.Tidy ∧ s.Balances := by
    refine h.keeps (fun s => s.Tidy ∧ s.Balances) ?_ ⟨System.tidy_systemNew, nofun, nofun⟩
    rintro s a t ⟨htidy, hbalances⟩ ⟨hnext, hbal⟩
    have hsteps := System.next_steps hnext
    exact ⟨htidy.step hsteps, hbalances.step htidy hsteps hbal⟩
  refine ⟨hbalances, fun number t ht => ?_, fun w hw client about hbal => ?_,
    fun hfew a t ht => ⟨hbalances.balanced htidy hfew ht, fun hbal =>
      hbalances.step htidy (System.next_steps ht) hbal⟩⟩
  · unfold System.next at ht
    dsimp only at ht
    split at ht
    · rename_i call wait attempts ret hframe
      refine ⟨call, wait, attempts, ret, hframe, fun hnil => ?_⟩
      have hcompleted := hbalances.completed _ _ _ _ (System.mem_of_frame hframe).1
      rw [if_neg (Nat.ne_of_gt (hcompleted.mpr hnil))] at ht
      cases ht
    · cases ht
  · have hcount := hbalances.count w hw
    have hpos := List.length_pos_of_mem (hbal rfl w hw rfl).2
    intro hzero
    rw [hzero] at hcount
    apply absurd hcount.symm (Nat.ne_of_gt hpos)

theorem waits_counted_twoClients :
  ∃ s, Run (fun s a t => s.next a = some t ∧ s.Balanced a) systemNew
      (sendActs ++ [.dispatch 0 keventCompleteEvent (some 4096) 0]) s
    ∧ s.waitList.map Wait.waitCount = [1] ∧ s.Balances
  := by
  have hsend : Run (fun s a t => s.next a = some t ∧ s.Balanced a) systemNew sendActs
      (sentSystem 2 0 []) := by
    refine .cons ⟨rfl, trivial⟩ (.cons ⟨rfl, trivial⟩ (.cons ⟨rfl, trivial⟩ (.cons ⟨rfl, trivial⟩
      (.cons ⟨rfl, trivial⟩ (.cons ⟨rfl, fun _ _ _ _ => ⟨List.cons_ne_nil _ _, ?_, ?_⟩⟩
      (.nil _))))))
    · exact (by decide : 2 < 2 ^ 32)
    · exact fun _ _ => rfl
  have hack : (sentSystem 2 0 []).next (.dispatch 0 keventCompleteEvent (some 4096) 0)
        = some (sentSystem 1 0 [⟨0, 0⟩])
      ∧ (sentSystem 2 0 []).Balanced (.dispatch 0 keventCompleteEvent (some 4096) 0) := by
    refine ⟨rfl, fun _ w hw _ => ?_⟩
    obtain rfl := List.mem_singleton.mp hw
    exact ⟨rfl, by decide⟩
  have hrun := hsend.append (.cons hack (.nil _))
  exact ⟨_, hrun, rfl, (waits_counted hrun).1⟩

/-- A client is closed before it has acknowledged the event: the other one acknowledges it, and the
call runs into the timeout. -/
theorem waits_counted_closed :
  ∃ s, Run (fun s a t => s.next a = some t) systemNew
      (sendActs ++ [.driverClose 1, .dispatch 0 keventCompleteEvent (some 4096) 0]) s
    ∧ s.waitList.map (fun w => (w.waitCount, s.awaited w)) = [(1, [])]
    ∧ (s.next (.expire 0)).isSome ∧ ¬s.Balances
  := by
  refine ⟨_, Run.of_foldlM (f := System.next) rfl, rfl, rfl, fun h => ?_⟩
  have hcount := h.count _ List.mem_cons_self
  cases hcount

end Kevent
