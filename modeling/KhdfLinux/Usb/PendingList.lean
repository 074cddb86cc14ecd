import KhdfLinux.Usb.Completions
import Mathlib.Data.List.Perm.Basic

/-!
# The list of pending requests

An asynchronous request is linked into `req->list` before `usb_ep_queue` is asked to take
it, and unlinked when its completion is processed.  `pending_list_exact`: the list is exactly
that of the pending requests, and lookups touch nothing that was freed, exactly as long as no
request is refused and none is completed between the lookup that found it and its use.
-/

namespace Ffs

namespace FuncFile

/-- The asynchronous requests that are queued and not yet completed. -/
def pending (s : FuncFile) : List AsyncRequest := s.queued ++ s.done.map GivenBack.request

/-- The list is exactly that of the pending requests, each linked once and not freed; no
lookup has touched a freed request; and a lookup finds a pending request of an address
whenever there is one. -/
structure PendingExact (s : FuncFile) : Prop where
  perm : s.list.Perm s.pending
  nodup : (s.list.map AsyncRequest.id).Nodup
  notFreed : ∀ req ∈ s.list, req.id ∉ s.freed
  untouched : s.touched = false
  lookup : ∀ addr,
    (∀ req, s.lookup addr = some req → req ∈ s.pending ∧ req.req.buf = addr)
      ∧ ((∃ req ∈ s.pending, req.req.buf = addr) → (s.lookup addr).isSome)

/-- The condition on a step: an asynchronous request is not refused by `usb_ep_queue`, and a
request found by a lookup is still pending when the call that found it, and holds no lock,
uses it. -/
def KeepsList (s : FuncFile) : FileAct → Prop
  | .transfer io env maxp =>
      io.aio ≠ 0 → (s.iorwCall io env maxp).request.isSome → env.queue = 0
  | .useHeld i => ∀ req, s.held[i]? = some req → req ∈ s.pending
  | _ => True

/-- What the list is made of: the ids of the requests tell the allocations apart, and what a
call holds is linked or freed. -/
structure Allocated (s : FuncFile) : Prop where
  nodup : (s.list.map AsyncRequest.id).Nodup
  notFreed : ∀ req ∈ s.list, req.id ∉ s.freed
  untouched : s.touched = false
  old : ∀ req ∈ s.list, req.id < s.next
  oldFreed : ∀ id ∈ s.freed, id < s.next
  held : ∀ req ∈ s.held, req ∈ s.list ∨ req.id ∈ s.freed

/-- The invariant. -/
structure Linked (s : FuncFile) : Prop extends s.Allocated where
  perm : s.list.Perm s.pending

/-- The requests and the calls that hold them are the same. -/
structure SameRequests (s t : FuncFile) : Prop where
  list : t.list = s.list
  queued : t.queued = s.queued
  done : t.done = s.done
  freed : t.freed = s.freed
  next : t.next = s.next
  held : t.held = s.held
  touched : t.touched = s.touched

variable {s t : FuncFile}

theorem Linked.pendingExact (h : s.Linked) : s.PendingExact
  := by
  refine ⟨h.perm, h.nodup, h.notFreed, h.untouched, fun addr => ⟨?_, ?_⟩⟩
  · intro req hfound
    refine ⟨h.perm.mem_iff.mp (List.mem_of_find?_eq_some hfound), ?_⟩
    simpa using List.find?_some hfound
  · rintro ⟨req, hpending, haddr⟩
    unfold lookup
    rw [List.find?_isSome]
    exact ⟨req, h.perm.mem_iff.mpr hpending, by simpa using haddr⟩

/-- A list is its element at an index and the others. -/
theorem perm_eraseIdx {α : Type} {l : List α} {i : Nat} {x : α} (h : l[i]? = some x) :
  l.Perm (x :: l.eraseIdx i)
  := by
  obtain ⟨hi, rfl⟩ := List.getElem?_eq_some_iff.mp h
  exact (List.getElem_cons_eraseIdx_perm hi).symm

/-! ### What the operations keep -/

theorem SameRequests.linked (h : SameRequests s t) (hs : s.Linked) :
  t.Linked
  := by
  obtain ⟨hlist, hqueued, hdone, hfreed, hnext, hheld, htouched⟩ := h
  obtain ⟨⟨hnodup, hnotFreed, huntouched, hold, holdFreed, hheld'⟩, hperm⟩ := hs
  refine ⟨⟨?_, ?_, ?_, ?_, ?_, ?_⟩, ?_⟩
  · rwa [hlist]
  · rwa [hlist, hfreed]
  · rwa [htouched]
  · rwa [hlist, hnext]
  · rwa [hfreed, hnext]
  · rwa [hheld, hlist, hfreed]
  · rwa [pending, hlist, hqueued, hdone]

/-- A request that is taken joins the list and the queue. -/
theorem Linked.queueAsync (h : s.Linked) (r : Transfer) {queue : Int} (hqueue : queue = 0) :
  (s.queueAsync r queue).Linked
  := by
  unfold FuncFile.queueAsync
  dsimp only
  rw [if_neg (not_not.mpr hqueue)]
  refine ⟨⟨?_, ?_, h.untouched, ?_, ?_, ?_⟩, h.perm.cons _⟩
  · rw [List.map_cons, List.nodup_cons]
    refine ⟨fun hin => ?_, h.nodup⟩
    obtain ⟨req, hreq, hid⟩ := List.mem_map.mp hin
    apply Nat.ne_of_lt (h.old req hreq) hid
  · intro req hreq hfreed
    obtain rfl | hreq := List.mem_cons.mp hreq
    · apply Nat.lt_irrefl _ (h.oldFreed _ hfreed)
    · apply h.notFreed req hreq hfreed
  · intro req hreq
    obtain rfl | hreq := List.mem_cons.mp hreq
    · apply Nat.lt_succ_self _
    · apply Nat.lt_succ_of_lt (h.old req hreq)
  · exact fun id hid => Nat.lt_succ_of_lt (h.oldFreed id hid)
  · exact fun req hreq => (h.held req hreq).imp_left (List.mem_cons_of_mem _)

/-- A request that is refused stays on the list. -/
theorem not_pendingExact_queueAsync (r : Transfer) {queue : Int} (hqueue : queue ≠ 0) :
  ¬(s.queueAsync r queue).PendingExact
  := by
  intro h
  unfold FuncFile.queueAsync at h
  dsimp only at h
  rw [if_pos hqueue] at h
  apply h.notFreed _ (List.mem_cons_self) (List.mem_cons_self)

/-- A request that is completed leaves the list: the others are pending. -/
theorem Allocated.taskProc {done : GivenBack} (hs : s.Allocated)
    (h : s.list.Perm (done.request :: s.pending)) :
  (s.taskProc done).Linked
  := by
  have hmem : done.request ∈ s.list := h.mem_iff.mpr List.mem_cons_self
  have herase := List.perm_cons_erase hmem
  have hothers : ∀ req ∈ s.list.erase done.request, req.id ≠ done.request.id := by
    have hcons := ((herase.map AsyncRequest.id).nodup_iff).mp hs.nodup
    intro req hreq heq
    exact (List.nodup_cons.mp hcons).1 (heq ▸ List.mem_map_of_mem hreq)
  refine ⟨⟨?_, ?_, hs.untouched, ?_, ?_, ?_⟩, List.Perm.cons_inv (herase.symm.trans h)⟩
  · apply hs.nodup.sublist (List.erase_sublist.map _)
  · intro req hreq hfreed
    obtain heq | hfreed := List.mem_cons.mp hfreed
    · apply hothers req hreq heq
    · apply hs.notFreed req (List.mem_of_mem_erase hreq) hfreed
  · exact fun req hreq => hs.old req (List.mem_of_mem_erase hreq)
  · intro id hid
    obtain rfl | hid := List.mem_cons.mp hid
    · apply hs.old _ hmem
    · apply hs.oldFreed id hid
  · intro req hreq
    by_cases heq : req = done.request
    · exact .inr (heq ▸ List.mem_cons_self)
    · obtain hin | hfreed := hs.held req hreq
      · exact .inl ((List.mem_erase_of_ne heq).mpr hin)
      · exact .inr (List.mem_cons_of_mem _ hfreed)

/-- What a lookup touches is linked. -/
theorem visited_subset (s : FuncFile) (addr : UInt64) :
  ∀ req ∈ s.visited addr, req ∈ s.list
  := by
  intro req hreq
  obtain hreq | hreq := List.mem_append.mp hreq
  · exact (List.takeWhile_sublist _).subset hreq
  · exact List.mem_of_find?_eq_some (Option.mem_toList.mp hreq)

theorem touched_touch_iff (s : FuncFile) (reqs : List AsyncRequest) :
  (s.touch reqs).touched = false ↔ s.touched = false ∧ ∀ req ∈ reqs, req.id ∉ s.freed
  := by
  simp [touch]

theorem Linked.find (h : s.Linked) (cmd : FindCmd) (io : IoData) :
  (s.find cmd io).Linked
  := by
  unfold FuncFile.find
  cases s.findAddr io with
  | none => exact h
  | some addr =>
      have huntouched : (s.touch (s.visited addr)).touched = false :=
        (touched_touch_iff s _).mpr ⟨h.untouched, fun req hreq =>
          h.notFreed req (s.visited_subset addr req hreq)⟩
      dsimp only
      split_ifs
      · refine ⟨⟨h.nodup, h.notFreed, huntouched, h.old, h.oldFreed, ?_⟩, h.perm⟩
        intro req hreq
        obtain hreq | hreq := List.mem_append.mp hreq
        · apply h.held req hreq
        · exact .inl (List.mem_of_find?_eq_some (Option.mem_toList.mp hreq))
      · exact ⟨⟨h.nodup, h.notFreed, huntouched, h.old, h.oldFreed, h.held⟩, h.perm⟩

/-! ### What a step keeps -/

theorem sameRequests_queueSync (s : FuncFile) (r : Transfer) (queue : Int) :
  SameRequests s (s.queueSync r queue)
  := by
  unfold queueSync
  cases s.kind <;> (dsimp only; split_ifs <;> exact ⟨rfl, rfl, rfl, rfl, rfl, rfl, rfl⟩)

theorem sameRequests_readEvents {count copied : Nat} (h : s.readEvents count copied = some t) :
  SameRequests s t
  := by
  unfold readEvents at h
  dsimp only at h
  split_ifs at h with hcopied hall
  · obtain rfl := Option.some.inj h
    exact ⟨rfl, rfl, rfl, rfl, rfl, rfl, rfl⟩
  · obtain rfl := Option.some.inj h
    exact ⟨rfl, rfl, rfl, rfl, rfl, rfl, rfl⟩

/-- A request the controller gives back waits for its tasklet, or is completed. -/
theorem Linked.giveBack (h : s.Linked) {i : Nat} {request : AsyncRequest}
    (hget : s.queued[i]? = some request) (status actual : UInt32) :
  ({ s with queued := s.queued.eraseIdx i }.giveBack ⟨request, status, actual⟩).Linked
  := by
  let s' := { s with queued := s.queued.eraseIdx i }
  have halloc : s'.Allocated := ⟨h.nodup, h.notFreed, h.untouched, h.old, h.oldFreed, h.held⟩
  have hperm : s'.list.Perm (request :: s'.pending) :=
    h.perm.trans ((perm_eraseIdx hget).append_right _)
  change (s'.giveBack _).Linked
  unfold FuncFile.giveBack
  cases s'.kind with
  | ep0 => exact halloc.taskProc hperm
  | epfile in_ isoc =>
      refine ⟨⟨h.nodup, h.notFreed, h.untouched, h.old, h.oldFreed, h.held⟩, ?_⟩
      refine hperm.trans (List.perm_append_singleton request s'.pending).symm |>.trans ?_
      simp [pending, s']

theorem Linked.taskProc (h : s.Linked) {i : Nat} {done : GivenBack}
    (hget : s.done[i]? = some done) :
  ({ s with done := s.done.eraseIdx i }.taskProc done).Linked
  := by
  let s' := { s with done := s.done.eraseIdx i }
  have halloc : s'.Allocated := ⟨h.nodup, h.notFreed, h.untouched, h.old, h.oldFreed, h.held⟩
  refine halloc.taskProc (h.perm.trans ?_)
  have hdone := (perm_eraseIdx hget).map GivenBack.request
  exact (hdone.append_left s.queued).trans List.perm_middle

/-- To use a request that is still pending touches nothing that was freed. -/
theorem Linked.useHeld (h : s.Linked) {i : Nat} {req : AsyncRequest}
    (hpending : req ∈ s.pending) :
  ({ s with held := s.held.eraseIdx i }.touch [req]).Linked
  := by
  have huntouched : ({ s with held := s.held.eraseIdx i }.touch [req]).touched = false := by
    rw [touched_touch_iff]
    refine ⟨h.untouched, fun req' hreq' => ?_⟩
    rw [List.mem_singleton.mp hreq']
    apply h.notFreed req (h.perm.mem_iff.mpr hpending)
  refine ⟨⟨h.nodup, h.notFreed, huntouched, h.old, h.oldFreed, ?_⟩, h.perm⟩
  exact fun req' hreq' => h.held req' (List.mem_of_mem_eraseIdx hreq')

/-- A step that meets the condition keeps the invariant. -/
theorem Linked.step {a : FileAct} (hs : s.Linked) (h : s.step a = some t)
    (hkeeps : s.KeepsList a) :
  t.Linked
  := by
  cases a with
  | mmap vma mem =>
      cases mem with
      | none =>
          obtain rfl := Option.some.inj h
          apply hs
      | some mem =>
          simp only [FuncFile.step] at h
          split_ifs at h
          obtain rfl := Option.some.inj h
          exact SameRequests.linked (s := s) ⟨rfl, rfl, rfl, rfl, rfl, rfl, rfl⟩ hs
  | releaseBuf mem =>
      simp only [FuncFile.step] at h
      cases hfind : genericFindMemoryArea s.memoryList mem.buf mem.size with
      | none =>
          simp only [hfind] at h
          obtain rfl := Option.some.inj h
          apply hs
      | some ffsm =>
          simp only [hfind] at h
          obtain rfl := Option.some.inj h
          exact SameRequests.linked (s := s) ⟨rfl, rfl, rfl, rfl, rfl, rfl, rfl⟩ hs
  | transfer io env maxp =>
      obtain ⟨rfl, -⟩ | ⟨r, -, hreq, ⟨-, rfl⟩ | ⟨haio, rfl⟩⟩ := iorw_cases h
      · apply hs
      · exact (sameRequests_queueSync s r env.queue).linked hs
      · exact hs.queueAsync r (hkeeps haio (by rw [hreq]; rfl))
  | completeSync =>
      obtain ⟨-, -, rfl⟩ := Option.map_eq_some_iff.mp h
      exact SameRequests.linked (s := s) ⟨rfl, rfl, rfl, rfl, rfl, rfl, rfl⟩ hs
  | wakeSync =>
      simp only [FuncFile.step] at h
      split_ifs at h
      obtain rfl := Option.some.inj h
      exact SameRequests.linked (s := s) ⟨rfl, rfl, rfl, rfl, rfl, rfl, rfl⟩ hs
  | giveBack i status actual =>
      obtain ⟨request, hget, rfl⟩ := Option.map_eq_some_iff.mp h
      apply hs.giveBack hget status actual
  | taskProc i =>
      obtain ⟨done, hget, rfl⟩ := Option.map_eq_some_iff.mp h
      apply hs.taskProc hget
  | find cmd io =>
      obtain rfl := Option.some.inj h
      apply hs.find cmd io
  | useHeld i =>
      obtain ⟨req, hget, rfl⟩ := Option.map_eq_some_iff.mp h
      apply hs.useHeld (hkeeps req hget)
  | readEvents count copied =>
      simp only [FuncFile.step] at h
      split_ifs at h
      exact (sameRequests_readEvents h).linked hs

/-- A step that does not meet the condition leaves a freed request on the list, or touches
one. -/
theorem keepsList_of_pendingExact {a : FileAct} (hs : s.Linked) (h : s.step a = some t)
    (ht : t.PendingExact) :
  s.KeepsList a
  := by
  cases a with
  | transfer io env maxp =>
      intro haio hsome
      obtain ⟨-, hnone⟩ | ⟨r, -, -, ⟨hsync, -⟩ | ⟨-, rfl⟩⟩ := iorw_cases h
      · rw [hnone] at hsome
        cases hsome
      · apply absurd hsync haio
      · by_contra hqueue
        apply not_pendingExact_queueAsync r hqueue ht
  | useHeld i =>
      intro req hget
      obtain ⟨req', hget', rfl⟩ := Option.map_eq_some_iff.mp h
      obtain rfl := Option.some.inj (hget'.symm.trans hget)
      have hfree := ((touched_touch_iff _ _).mp ht.untouched).2 req' List.mem_cons_self
      obtain hlist | hfreed := hs.held req' (List.mem_of_getElem? hget)
      · apply hs.perm.mem_iff.mp hlist
      · apply absurd hfreed hfree
  | _ => trivial

/-- If `usb_ep_queue` refuses no asynchronous request, and every request found by a lookup is
still pending when it is used, then the list is exactly that of the pending requests, and
lookups find them and touch nothing that was freed; and a further step keeps that exactly if
it meets the condition too. -/
theorem pending_list_exact {kind : FileKind} {as : List FileAct}
    (h : Run (fun s a t => s.KeepsList a ∧ s.step a = some t) (funcFileNew kind) as s) :
  s.PendingExact ∧ ∀ a t, s.step a = some t → (t.PendingExact ↔ s.KeepsList a)
  := by
  have hnew : (funcFileNew kind).Linked :=
    ⟨⟨List.nodup_nil, nofun, rfl, nofun, nofun, nofun⟩, List.Perm.nil⟩
  have hs : s.Linked := by
    refine h.keeps Linked ?_ hnew
    intro s a t hs ⟨hkeeps, hstep⟩
    apply hs.step hstep hkeeps
  refine ⟨hs.pendingExact, fun a t hstep => ⟨keepsList_of_pendingExact hs hstep, ?_⟩⟩
  exact fun hkeeps => (hs.step hstep hkeeps).pendingExact

/-- A read into the page is queued, and cancelled. -/
theorem pending_list_exact_cancel :
  ∃ s, Run (fun s a t => s.KeepsList a ∧ s.step a = some t) (funcFileNew (.epfile false false))
      [.mmap pageVma (some 1048576), .transfer pageRead (readyEnv 0) none,
        .find .rwCancel pageRead] s
    ∧ s.PendingExact
  := by
  have hrun : ∃ s, Run (fun s a t => s.KeepsList a ∧ s.step a = some t)
      (funcFileNew (.epfile false false))
      [.mmap pageVma (some 1048576), .transfer pageRead (readyEnv 0) none,
        .find .rwCancel pageRead] s :=
    ⟨_, .cons ⟨trivial, rfl⟩ (.cons ⟨fun _ _ => rfl, rfl⟩ (.cons ⟨trivial, rfl⟩ (.nil _)))⟩
  obtain ⟨s, hrun⟩ := hrun
  exact ⟨s, hrun, (pending_list_exact hrun).1⟩

/-- A read is refused by `usb_ep_queue`, and then cancelled: the request is freed and on the
list, and the lookup touches it. -/
theorem refused_request_touched :
  ∃ s, Run (fun s a t => s.step a = some t) (funcFileNew (.epfile false false))
      [.mmap pageVma (some 1048576), .transfer pageRead (readyEnv (-eshutdown)) none,
        .find .rwCancel pageRead] s
    ∧ s.touched = true ∧ s.list ≠ [] ∧ s.pending = [] ∧ ¬s.PendingExact
  := by
  refine ⟨_, .cons rfl (.cons rfl (.cons rfl (.nil _))), by decide, by decide, by decide, ?_⟩
  intro h
  have hperm := h.perm
  revert hperm
  decide

end FuncFile
end Ffs
