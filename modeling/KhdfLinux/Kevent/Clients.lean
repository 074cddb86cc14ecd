import KhdfLinux.Kevent.Module
import Mathlib.Data.List.Nodup
import Mathlib.Data.Nat.Basic

/-!
# Clients and waits

What holds of the clients and of the waits in every run, and how the clients that remain for a wait
become fewer.
-/

namespace Kevent

/-! ### Waits -/

theorem Phase.wait?_mapWait (f : Wait → Wait) (phase : Phase) :
  (phase.mapWait f).wait? = phase.wait?.map f
  := by
  cases phase <;> rfl

namespace Wait

variable {w : Wait} {token : Token} {ack : Ack}

/-- A message leaves alone who the wait is for. -/
theorem complete_same (w : Wait) (token : Token) (ack : Ack) :
  (w.complete token ack).number = w.number ∧ (w.complete token ack).registered = w.registered
    ∧ (w.complete token ack).delivered = w.delivered ∧ (w.complete token ack).token = w.token
  := by
  unfold complete
  split <;> exact ⟨rfl, rfl, rfl, rfl⟩

theorem complete_of_ne (h : token ≠ w.token) : w.complete token ack = w
  := if_neg h

theorem complete_of_eq (h : token = w.token) :
  w.complete token ack
    = { w with
      waitCount := w.waitCount - 1
      done := if w.waitCount - 1 = 0 then w.done + 1 else w.done
      acks := w.acks ++ [ack] }
  := if_pos h

theorem ackedBy_complete (h : token = w.token) {client : Nat} :
  (w.complete token ack).AckedBy client
    ↔ w.AckedBy client ∨ ack.client = client ∧ ack.about = w.number
  := by
  rw [complete_of_eq h]
  unfold AckedBy
  simp only [List.mem_append, List.mem_singleton, or_and_right, exists_or, exists_eq_left]

/-- What was acknowledged stays so. -/
theorem AckedBy.complete {client : Nat} (h : w.AckedBy client) (token : Token) (ack : Ack) :
  (w.complete token ack).AckedBy client
  := by
  by_cases htoken : token = w.token
  · exact (ackedBy_complete htoken).mpr (.inl h)
  · rw [complete_of_ne htoken]
    apply h

end Wait

namespace System

variable {s t : System} {a : Act}

theorem mem_waitList {w : Wait} :
  w ∈ s.waitList ↔ ∃ f ∈ s.frames, f.phase.wait? = some w
  := List.mem_filterMap

/-- What holds in every run: the clients are counted, a wait is for clients that were open, and a
buffer is that of its call. -/
structure Tidy (s : System) : Prop where
  nodup : s.clientList.Nodup
  opened : ∀ c ∈ s.clientList, c < s.opened
  count : s.clientCount = BitVec.ofNat 32 s.clientList.length
  registered : ∀ w ∈ s.waitList, w.registered.Nodup ∧ ∀ c ∈ w.registered, c < s.opened
  delivered : ∀ w ∈ s.waitList, w.delivered.Sublist w.registered
  prepared : ∀ call buf wait, ⟨call, .prepared buf wait⟩ ∈ s.frames →
    buf.decode = some (⟨(call.eventClass.setWidth 16).setWidth 64, call.event, wait.getD 0⟩,
      call.content) ∧ (wait.isSome ↔ call.sync)

/-- A wait was there before, is new, or has got a message. -/
theorem Steps.wait (h : s.Steps a t) {w : Wait} (hw : w ∈ t.waitList) :
  (∃ w₀ ∈ s.waitList, w = { w₀ with done := w.done } ∧ w.done ≤ w₀.done)
    ∨ (∃ call buf token outcomes, s.frame call.number = some ⟨call, .prepared buf (some token)⟩
      ∧ a = .deliver call.number outcomes ∧ w = s.newWait call token outcomes)
    ∨ ∃ w₀ ∈ s.waitList, ∃ client token about, client ∈ s.clientList
      ∧ a = .dispatch client keventCompleteEvent (some token) about
      ∧ w = w₀.complete token ⟨client, about⟩
  := by
  obtain ⟨f, hmem, hwait⟩ := mem_waitList.mp hw
  cases h.frames f hmem with
  | old hf => exact .inl ⟨w, mem_waitList.mpr ⟨f, hf, hwait⟩, rfl, le_refl _⟩
  | started call => cases hwait
  | prepared hf hevent => cases hwait
  | @delivered call buf token outcomes hframe =>
      obtain rfl := Option.some.inj hwait
      exact .inr (.inl ⟨call, buf, token, outcomes, hframe, rfl, rfl⟩)
  | @woken call wait attempts ret hf hdone =>
      obtain rfl := Option.some.inj hwait
      exact .inl ⟨wait, mem_waitList.mpr ⟨_, hf, rfl⟩, rfl, Nat.sub_le _ _⟩
  | @expired call wait attempts ret hf hdone =>
      obtain rfl := Option.some.inj hwait
      exact .inl ⟨wait, mem_waitList.mpr ⟨_, hf, rfl⟩, rfl, le_refl _⟩
  | @completed f₀ client token about hf hclient =>
      dsimp only at hwait
      rw [Phase.wait?_mapWait] at hwait
      obtain ⟨w₀, hw₀, rfl⟩ := Option.map_eq_some_iff.mp hwait
      exact .inr (.inr ⟨w₀, mem_waitList.mpr ⟨f₀, hf, hw₀⟩, client, token, about, hclient, rfl,
        rfl⟩)

/-- Handles are not used again. -/
theorem Steps.opened_le (h : s.Steps a t) :
  s.opened ≤ t.opened
  := by
  cases h.clients with
  | same hlist hcount hopened => exact Nat.le_of_eq hopened.symm
  | opened hlist hcount hopened =>
      rw [hopened]
      apply Nat.le_succ _
  | closed hclient hlist hcount hopened => exact Nat.le_of_eq hopened.symm

/-- A step keeps the system tidy. -/
theorem Tidy.step (h : s.Tidy) (hsteps : s.Steps a t) :
  t.Tidy
  := by
  have hle := hsteps.opened_le
  have hwaits : ∀ w ∈ t.waitList, (w.registered.Nodup ∧ ∀ c ∈ w.registered, c < t.opened)
      ∧ w.delivered.Sublist w.registered := by
    have hold : ∀ w ∈ s.waitList, (w.registered.Nodup ∧ ∀ c ∈ w.registered, c < t.opened)
        ∧ w.delivered.Sublist w.registered := fun w hw =>
      ⟨⟨(h.registered w hw).1, fun c hc => Nat.lt_of_lt_of_le ((h.registered w hw).2 c hc) hle⟩,
        h.delivered w hw⟩
    intro w hw
    obtain ⟨w₀, hw₀, heq, -⟩ | ⟨call, buf, token, outcomes, -, -, rfl⟩
      | ⟨w₀, hw₀, client, token, about, -, -, rfl⟩ := hsteps.wait hw
    · rw [heq]
      apply hold w₀ hw₀
    · exact ⟨⟨h.nodup, fun c hc => Nat.lt_of_lt_of_le (h.opened c hc) hle⟩, List.filter_sublist⟩
    · obtain ⟨-, hregistered, hdelivered, -⟩ := w₀.complete_same token ⟨client, about⟩
      rw [hregistered, hdelivered]
      apply hold w₀ hw₀
  have hprepared : ∀ call buf wait, ⟨call, .prepared buf wait⟩ ∈ t.frames →
      buf.decode = some (⟨(call.eventClass.setWidth 16).setWidth 64, call.event, wait.getD 0⟩,
        call.content) ∧ (wait.isSome ↔ call.sync) := by
    intro call buf wait hmem
    generalize hframe : (⟨call, .prepared buf wait⟩ : Frame) = f at hmem
    cases hsteps.frames f hmem with
    | old hf => exact h.prepared call buf wait (hframe ▸ hf)
    | prepared hf hevent =>
        obtain ⟨rfl, hphase⟩ := Frame.mk.inj hframe
        obtain ⟨rfl, rfl⟩ := Phase.prepared.inj hphase
        apply decode_prepareEvent hevent
    | @completed f₀ client token about hf hclient =>
        obtain ⟨call₀, phase₀⟩ := f₀
        cases phase₀ with
        | prepared buf₀ wait₀ =>
            obtain ⟨rfl, hphase⟩ := Frame.mk.inj hframe
            obtain ⟨rfl, rfl⟩ := Phase.prepared.inj hphase
            apply h.prepared _ _ _ hf
        | _ => cases hframe
    | _ => cases hframe
  have hclients : t.clientList.Nodup ∧ (∀ c ∈ t.clientList, c < t.opened)
      ∧ t.clientCount = BitVec.ofNat 32 t.clientList.length := by
    cases hsteps.clients with
    | same hlist hcount hopened =>
        rw [hlist, hcount, hopened]
        exact ⟨h.nodup, h.opened, h.count⟩
    | opened hlist hcount hopened =>
        rw [hlist, hcount, hopened, h.count]
        refine ⟨List.nodup_append.mpr ⟨h.nodup, List.nodup_singleton _, fun c hc c' hc' => ?_⟩,
          fun c hc => ?_, ?_⟩
        · rw [List.mem_singleton.mp hc']
          apply Nat.ne_of_lt (h.opened c hc)
        · obtain hc | hc := List.mem_append.mp hc
          · apply Nat.lt_succ_of_lt (h.opened c hc)
          · rw [List.mem_singleton.mp hc]
            apply Nat.lt_succ_self _
        · rw [List.length_append, List.length_singleton, BitVec.ofNat_add]
          rfl
    | @closed client hclient hlist hcount hopened =>
        rw [hlist, hcount, hopened, h.count]
        refine ⟨h.nodup.erase _, fun c hc => h.opened c (List.mem_of_mem_erase hc), ?_⟩
        have hlength := List.length_erase_of_mem hclient
        have hpos := List.length_pos_of_mem hclient
        rw [show s.clientList.length = (s.clientList.erase client).length + 1 by omega,
          BitVec.ofNat_add]
        apply BitVec.add_sub_cancel _ _
  exact ⟨hclients.1, hclients.2.1, hclients.2.2, fun w hw => (hwaits w hw).1,
    fun w hw => (hwaits w hw).2, hprepared⟩

theorem tidy_systemNew :
  systemNew.Tidy
  := ⟨List.nodup_nil, nofun, rfl, nofun, nofun, nofun⟩

/-! ### The clients that remain -/

variable {w : Wait} {clients : List Nat}

theorem mem_remaining {c : Nat} :
  c ∈ s.remaining w clients ↔ c ∈ clients ∧ c ∈ s.clientList ∧ ¬w.AckedBy c
  := by
  unfold remaining
  rw [List.mem_filter, decide_eq_true_iff]

/-- Other waits and other clients do not matter. -/
theorem remaining_congr {w' : Wait} (hlist : ∀ c ∈ clients, c ∈ t.clientList ↔ c ∈ s.clientList)
    (hacked : ∀ c ∈ clients, w'.AckedBy c ↔ w.AckedBy c) :
  t.remaining w' clients = s.remaining w clients
  := by
  unfold remaining
  refine List.filter_congr fun c hc => ?_
  rw [decide_eq_decide, hlist c hc, hacked c hc]

/-- A client that is closed does not remain. -/
theorem remaining_closed (hnodup : clients.Nodup) (hclients : s.clientList.Nodup) {client : Nat}
    (hlist : t.clientList = s.clientList.erase client) :
  t.remaining w clients = (s.remaining w clients).erase client
  := by
  have hfilter : (s.remaining w clients).Nodup := hnodup.filter _
  rw [hfilter.erase_eq_filter]
  unfold remaining
  rw [List.filter_filter, hlist]
  refine List.filter_congr fun c _ => ?_
  by_cases hc : c = client
  · simp [hc, hclients.mem_erase_iff]
  · simp [hc, hclients.mem_erase_iff]

/-- A client that has acknowledged the event does not remain. -/
theorem remaining_complete (hnodup : clients.Nodup) {token : Token} {ack : Ack}
    (htoken : token = w.token) (habout : ack.about = w.number)
    (hlist : t.clientList = s.clientList) :
  t.remaining (w.complete token ack) clients = (s.remaining w clients).erase ack.client
  := by
  have hfilter : (s.remaining w clients).Nodup := hnodup.filter _
  rw [hfilter.erase_eq_filter]
  unfold remaining
  rw [List.filter_filter, hlist]
  refine List.filter_congr fun c _ => ?_
  by_cases hc : c = ack.client
  · simp [hc, Wait.ackedBy_complete htoken, habout]
  · simp [hc, Ne.symm hc, Wait.ackedBy_complete htoken]

/-- A message about another event leaves the clients that remain alone. -/
theorem remaining_complete_ne {token : Token} {ack : Ack}
    (hne : ¬(token = w.token ∧ ack.about = w.number)) (hlist : t.clientList = s.clientList) :
  t.remaining (w.complete token ack) clients = s.remaining w clients
  := by
  refine remaining_congr (fun c _ => by rw [hlist]) fun c _ => ?_
  by_cases htoken : token = w.token
  · rw [Wait.ackedBy_complete htoken]
    exact or_iff_left fun h => hne ⟨htoken, h.2⟩
  · rw [Wait.complete_of_ne htoken]

/-- All clients remain for a new wait. -/
theorem remaining_newWait {call : Call} {token : Token} {outcomes : Nat → Int}
    (hlist : t.clientList = s.clientList) (hclients : ∀ c ∈ clients, c ∈ s.clientList) :
  t.remaining (s.newWait call token outcomes) clients = clients
  := by
  unfold remaining
  refine List.filter_eq_self.mpr fun c hc => ?_
  rw [decide_eq_true_iff, hlist]
  exact ⟨hclients c hc, nofun⟩

/-- The clients that remain for a wait that gets no message: all, but one that is closed. -/
theorem Tidy.remaining_of_clients (h : s.Tidy) (hchange : s.Clients t a) (hnodup : clients.Nodup)
    (hold : ∀ c ∈ clients, c < s.opened) {w' : Wait} (hacks : w'.acks = w.acks)
    (hnumber : w'.number = w.number) :
  t.remaining w' clients = s.remaining w clients
    ∨ ∃ client, a = .driverClose client ∧ client ∈ s.clientList
      ∧ t.remaining w' clients = (s.remaining w clients).erase client
  := by
  have hacked : ∀ c, w'.AckedBy c ↔ w.AckedBy c := by
    intro c
    unfold Wait.AckedBy
    rw [hacks, hnumber]
  cases hchange with
  | same hlist hcount hopened =>
      exact .inl (remaining_congr (fun c _ => by rw [hlist]) fun c _ => hacked c)
  | opened hlist hcount hopened =>
      refine .inl (remaining_congr (fun c hc => ?_) fun c _ => hacked c)
      rw [hlist, List.mem_append, List.mem_singleton]
      apply or_iff_left (Nat.ne_of_lt (hold c hc))
  | @closed client hclient hlist hcount hopened =>
      refine .inr ⟨client, rfl, hclient, ?_⟩
      rw [← remaining_closed hnodup h.nodup hlist]
      apply remaining_congr (fun _ _ => Iff.rfl) fun c _ => hacked c

end System

end Kevent
