import Mathlib.Data.List.Basic
import Mathlib.Data.List.Perm.Basic
import Mathlib.Data.List.Sort

/-!
# Queues whose arrivals supersede

An element that arrives at a queue first drops those it does not keep, and then goes to the end;
elements are taken from the front.  `History.Accounted` says what has become of each arrival: it
was taken, in the order of the arrivals, or it is in the queue, or a later arrival has superseded
it, and only one of these.
-/

namespace Superseding

variable {α : Type}

/-- A queue with its history: what has arrived, what is in the queue and what was taken, each with
the number of its arrival, and what was dropped, each with the arrival that superseded it. -/
structure History (α : Type) where
  arrivals : List α
  queue : List (Nat × α)
  taken : List (Nat × α)
  dropped : List ((Nat × α) × (Nat × α))

namespace History

/-- The queue at the start. -/
def empty : History α := ⟨[], [], [], []⟩

/-- The elements that have arrived, with their numbers. -/
def numbered (h : History α) : List (Nat × α) := h.arrivals.zipIdx.map Prod.swap

/-- An element arrives. -/
def arrive (keeps : α → α → Bool) (h : History α) (a : α) : History α where
  arrivals := h.arrivals ++ [a]
  queue := h.queue.filter (fun e => keeps a e.2) ++ [(h.arrivals.length, a)]
  taken := h.taken
  dropped := h.dropped
    ++ (h.queue.filter fun e => !keeps a e.2).map fun e => (e, (h.arrivals.length, a))

/-- The first `n` elements are taken. -/
def take (h : History α) (n : Nat) : History α :=
  { h with queue := h.queue.drop n, taken := h.taken ++ h.queue.take n }

/-- Each arrival was taken, is in the queue or was dropped; the former are in the order of the
arrivals, and what was dropped was superseded by a later arrival.  No element of the queue is
superseded by a later one. -/
structure Accounted (keeps : α → α → Bool) (h : History α) : Prop where
  order : (h.taken ++ h.queue).Pairwise fun e b => e.1 < b.1
  all : (h.taken ++ h.queue ++ h.dropped.map Prod.fst).Perm h.numbered
  superseded : ∀ p ∈ h.dropped, p.1.1 < p.2.1 ∧ keeps p.2.2 p.1.2 = false ∧ p.2 ∈ h.numbered
  kept : h.queue.Pairwise fun e b => keeps b.2 e.2 = true

theorem numbered_arrive (keeps : α → α → Bool) (h : History α) (a : α) :
  (h.arrive keeps a).numbered = h.numbered ++ [(h.arrivals.length, a)]
  := by
  simp [numbered, arrive, List.zipIdx_append]

theorem lt_of_mem_numbered {h : History α} {e : Nat × α} (he : e ∈ h.numbered) :
  e.1 < h.arrivals.length
  := by
  obtain ⟨⟨a, i⟩, hmem, rfl⟩ := List.mem_map.mp he
  have hlt := List.snd_lt_of_mem_zipIdx hmem
  simpa using hlt

section Accounted

variable {keeps : α → α → Bool} {h : History α}

theorem accounted_empty :
  (empty : History α).Accounted keeps
  := ⟨.nil, .nil, nofun, .nil⟩

theorem Accounted.mem_numbered (hacc : h.Accounted keeps) {e : Nat × α}
    (he : e ∈ h.taken ++ h.queue) :
  e ∈ h.numbered
  := hacc.all.subset (List.mem_append_left _ he)

/-- What was taken, and then what is in the queue, is a part of what has arrived, in its order. -/
theorem Accounted.sublist (hacc : h.Accounted keeps) :
  ((h.taken ++ h.queue).map Prod.snd).Sublist h.arrivals
  := by
  have hnumbered : h.numbered.map Prod.snd = h.arrivals := by
    simp [numbered, Function.comp_def]
  have hincreasing : h.numbered.Pairwise fun e b => e.1 < b.1 := by
    have hrange : (h.arrivals.zipIdx.map Prod.snd).Pairwise (· < ·) := by
      rw [List.zipIdx_map_snd]
      exact List.pairwise_lt_range'
    rw [numbered, List.pairwise_map]
    exact List.pairwise_map.mp hrange
  have hparts : (h.taken ++ h.queue).Subperm h.numbered :=
    (List.sublist_append_left _ _).subperm.trans hacc.all.subperm
  have hasymm : Std.Antisymm fun e b : Nat × α => e.1 < b.1 :=
    ⟨fun _ _ hlt hgt => absurd hlt (Nat.lt_asymm hgt)⟩
  rw [← hnumbered]
  exact (List.sublist_of_subperm_of_pairwise hparts hacc.order hincreasing).map Prod.snd

/-- The parts of a queue and what is behind them, in another order. -/
theorem perm_parts {T F G D Q : List (Nat × α)} (e : Nat × α) (h : (F ++ G).Perm Q) :
  (T ++ (F ++ [e]) ++ (D ++ G)).Perm (T ++ Q ++ D ++ [e])
  := by
  have hend : ([e] ++ (D ++ G)).Perm (G ++ (D ++ [e])) := by
    refine List.perm_append_comm.trans ?_
    rw [← List.append_assoc]
    exact List.perm_append_comm.append_right [e]
  have hqueue : (F ++ G ++ (D ++ [e])).Perm (Q ++ (D ++ [e])) := h.append_right _
  simp only [List.append_assoc] at hqueue ⊢
  exact ((hend.append_left F).trans hqueue).append_left T

/-- An arrival is accounted for. -/
theorem Accounted.arrive (hacc : h.Accounted keeps) (a : α) :
  (h.arrive keeps a).Accounted keeps
  := by
  have hfilter : (h.queue.filter fun e => keeps a e.2).Sublist h.queue := List.filter_sublist
  have hlast : (h.arrivals.length, a) ∈ (h.arrive keeps a).numbered := by
    rw [numbered_arrive]
    exact List.mem_append_right _ (List.mem_singleton_self _)
  have hsplit := List.filter_append_perm (fun e : Nat × α => keeps a e.2) h.queue
  constructor
  · show (h.taken ++ (h.queue.filter (fun e => keeps a e.2) ++ [(h.arrivals.length, a)])).Pairwise _
    rw [← List.append_assoc, List.pairwise_append]
    refine ⟨hacc.order.sublist (hfilter.append_left _), List.pairwise_singleton _ _, ?_⟩
    intro e he b hb
    rw [List.mem_singleton.mp hb]
    exact lt_of_mem_numbered (hacc.mem_numbered ((hfilter.append_left _).subset he))
  · have hdropped : (h.arrive keeps a).dropped.map Prod.fst
        = h.dropped.map Prod.fst ++ h.queue.filter fun e => !keeps a e.2 := by
      simp [History.arrive, Function.comp_def]
    rw [numbered_arrive, hdropped]
    exact (perm_parts _ hsplit).trans (hacc.all.append_right _)
  · intro p hp
    rw [numbered_arrive]
    obtain hp | hp := List.mem_append.mp hp
    · obtain ⟨hlt, hkeeps, hmem⟩ := hacc.superseded p hp
      exact ⟨hlt, hkeeps, List.mem_append_left _ hmem⟩
    · obtain ⟨e, he, rfl⟩ := List.mem_map.mp hp
      obtain ⟨hqueue, hkeeps⟩ := List.mem_filter.mp he
      refine ⟨lt_of_mem_numbered (hacc.mem_numbered (List.mem_append_right _ hqueue)), ?_, ?_⟩
      · simpa using hkeeps
      · rwa [numbered_arrive] at hlast
  · show (h.queue.filter (fun e => keeps a e.2) ++ [(h.arrivals.length, a)]).Pairwise _
    rw [List.pairwise_append]
    refine ⟨hacc.kept.sublist hfilter, List.pairwise_singleton _ _, ?_⟩
    intro e he b hb
    rw [List.mem_singleton.mp hb]
    exact (List.mem_filter.mp he).2

/-- What is taken is accounted for. -/
theorem Accounted.take (hacc : h.Accounted keeps) (n : Nat) :
  (h.take n).Accounted keeps
  := by
  have hsame : (h.take n).taken ++ (h.take n).queue = h.taken ++ h.queue := by
    show h.taken ++ h.queue.take n ++ h.queue.drop n = _
    rw [List.append_assoc, List.take_append_drop]
  constructor
  · rw [hsame]
    exact hacc.order
  · rw [hsame]
    exact hacc.all
  · exact hacc.superseded
  · exact hacc.kept.sublist (List.drop_sublist n h.queue)

end Accounted

end History

end Superseding
