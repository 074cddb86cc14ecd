import KhdfLinux.Lib.Ledger

/-!
# Handles

A bare pointer to the object that was opened last, and the ledger of the objects that were opened
and closed.  Opening overwrites the pointer, and closing does not clear it.  `Tracks` says what the
pointer means as long as all is closed one by one: it is the last of the objects that are open.
-/

/-- The pointer, and what was opened and closed. -/
structure Handles where
  pointer : Option Nat
  objects : Ledger
  deriving DecidableEq, Repr

/-- The calls that open an object, close it and use it. -/
inductive Handles.Kind where
  | start
  | stop
  | use
  deriving DecidableEq, Repr

/-- What is touched: nothing, a null pointer, or an object. -/
inductive Touched where
  | nothing
  | null
  | object (i : Nat)
  deriving DecidableEq, Repr

namespace Handles

/-- Nothing was opened. -/
def init : Handles := ⟨none, .empty⟩

variable (s : Handles)

/-- Open an object. -/
def opened : Handles := ⟨some s.objects.allocated, s.objects.alloc⟩

/-- Close an object. -/
def closed (i : Nat) : Handles := { s with objects := s.objects.free i }

/-- Some object is open. -/
def Busy : Prop := ∃ i, s.objects.Live i

/-- Exactly one object is open. -/
def Single : Prop := ∃ i, ∀ j, s.objects.Live j ↔ j = i

/-- The pointer is the last of the objects that are open, if one is. -/
def Tracks : Prop := ∃ live, s.objects.Holds live ∧ (live ≠ [] → s.pointer = live.getLast?)

/-- A call that returns, touches and leaves something: it touches only an object that is open; where
none is, it fails and touches nothing, unless it is one that opens; and after one that closes, all
was closed exactly once. -/
structure Follows (k : Kind) (ret : Int) (touched : Touched) (t : Handles) : Prop where
  uses : k ≠ .start → touched ≠ .null ∧ ∀ i, touched = .object i → s.objects.Live i
  idle : k ≠ .start → ¬s.Busy → ret < 0 ∧ touched = .nothing
  stopped : k = .stop → t.objects.Exact

variable {s}

/-- Nothing is open. -/
theorem tracks_init :
  init.Tracks
  := ⟨[], Ledger.holds_empty, fun hne => absurd rfl hne⟩

/-- Without a pointer nothing is open, and all was closed. -/
theorem Tracks.of_none (h : s.Tracks) (hpointer : s.pointer = none) :
  s.objects.Exact ∧ ¬s.Busy
  := by
  obtain ⟨live, hlive, hlast⟩ := h
  have hnil : live = [] := by
    by_contra hne
    rw [hlast hne] at hpointer
    apply hne (List.getLast?_eq_none_iff.mp hpointer)
  subst hnil
  refine ⟨hlive.exact_iff.mpr rfl, ?_⟩
  rintro ⟨i, hi⟩
  cases hlive.live_iff.mp hi

/-- The object that the pointer refers to is open exactly if some object is. -/
theorem Tracks.live_iff {i : Nat} (h : s.Tracks) (hpointer : s.pointer = some i) :
  s.objects.Live i ↔ s.Busy
  := by
  obtain ⟨live, hlive, hlast⟩ := h
  constructor
  · exact fun hi => ⟨i, hi⟩
  · rintro ⟨j, hj⟩
    rw [hlive.live_iff] at hj ⊢
    have hlast := hlast (List.ne_nil_of_mem hj)
    rw [hpointer] at hlast
    apply List.mem_of_getLast? hlast.symm

/-- Closing the object that the pointer refers to, where some object is open, leaves all closed
exactly once, exactly if it is the only one. -/
theorem Tracks.exact_iff {i : Nat} (h : s.Tracks) (hpointer : s.pointer = some i) :
  s.Busy ∧ (s.closed i).objects.Exact ↔ s.Single
  := by
  constructor
  · rintro ⟨hbusy, hexact⟩
    have hi := (h.live_iff hpointer).mpr hbusy
    obtain ⟨live, hlive, -⟩ := h
    rw [hlive.live_iff] at hi
    have hnil := (hlive.free hi).exact_iff.mp hexact
    refine ⟨i, fun j => ?_⟩
    rw [hlive.live_iff]
    constructor
    · intro hj
      by_contra hne
      have hmem := hlive.nodup.mem_erase_iff.mpr ⟨hne, hj⟩
      rw [hnil] at hmem
      cases hmem
    · rintro rfl
      apply hi
  · rintro ⟨j, hj⟩
    have hbusy : s.Busy := ⟨j, (hj j).mpr rfl⟩
    have hi := (h.live_iff hpointer).mpr hbusy
    obtain rfl := (hj i).mp hi
    obtain ⟨live, hlive, -⟩ := h
    rw [hlive.live_iff] at hi
    refine ⟨hbusy, (hlive.free hi).exact_iff.mpr ?_⟩
    apply List.eq_nil_iff_forall_not_mem.mpr
    intro k hk
    obtain ⟨hne, hk⟩ := hlive.nodup.mem_erase_iff.mp hk
    apply hne ((hj k).mp (hlive.live_iff.mpr hk))

/-- The object that is opened is the last one that is open. -/
theorem Tracks.opened (h : s.Tracks) :
  s.opened.Tracks
  := by
  obtain ⟨live, hlive, -⟩ := h
  refine ⟨live ++ [s.objects.allocated], hlive.alloc, fun _ => ?_⟩
  rw [List.getLast?_concat]
  rfl

/-- After the only object that is open is closed, none is. -/
theorem Tracks.closed {i : Nat} (h : s.Tracks) (hpointer : s.pointer = some i)
    (hsingle : s.Single) :
  (s.closed i).Tracks
  := by
  have hexact := ((h.exact_iff hpointer).mpr hsingle).2
  have hi := (h.live_iff hpointer).mpr ((h.exact_iff hpointer).mpr hsingle).1
  obtain ⟨live, hlive, -⟩ := h
  rw [hlive.live_iff] at hi
  have hfree := hlive.free hi
  rw [hfree.exact_iff.mp hexact] at hfree
  exact ⟨[], hfree, fun hne => absurd rfl hne⟩

/-! ### Calls -/

variable {ret : Int}

/-- Of a call that opens nothing is asked. -/
theorem follows_start (touched : Touched) (t : Handles) :
  s.Follows .start ret touched t
  where
  uses hne := absurd rfl hne
  idle hne := absurd rfl hne
  stopped hk := nomatch hk

/-- A call that fails before it touches anything. -/
theorem follows_use_nothing (hret : ret < 0) :
  s.Follows .use ret .nothing s
  where
  uses _ := ⟨Touched.noConfusion, fun _ h => nomatch h⟩
  idle _ _ := ⟨hret, rfl⟩
  stopped hk := nomatch hk

/-- A call through a null pointer. -/
theorem not_follows_null {k : Kind} (hk : k ≠ .start) (t : Handles) :
  ¬s.Follows k ret .null t
  := fun h => (h.uses hk).1 rfl

/-- A close that fails where there is no pointer. -/
theorem Tracks.follows_stop_nothing (h : s.Tracks) (hpointer : s.pointer = none) (hret : ret < 0) :
  s.Follows .stop ret .nothing s
  where
  uses _ := ⟨Touched.noConfusion, fun _ h => nomatch h⟩
  idle _ _ := ⟨hret, rfl⟩
  stopped _ := (h.of_none hpointer).1

/-- The object that the pointer refers to is used. -/
theorem Tracks.follows_use_iff {i : Nat} (h : s.Tracks) (hpointer : s.pointer = some i) :
  s.Follows .use ret (.object i) s ↔ s.Busy
  := by
  constructor
  · exact fun hfollows => ⟨i, (hfollows.uses Kind.noConfusion).2 i rfl⟩
  · intro hbusy
    refine ⟨fun _ => ⟨Touched.noConfusion, ?_⟩, fun _ hidle => absurd hbusy hidle, Kind.noConfusion⟩
    rintro j ⟨⟩
    exact (h.live_iff hpointer).mpr hbusy

/-- The object that the pointer refers to is closed. -/
theorem Tracks.follows_stop_iff {i : Nat} (h : s.Tracks) (hpointer : s.pointer = some i) :
  s.Follows .stop ret (.object i) (s.closed i) ↔ s.Single
  := by
  rw [← h.exact_iff hpointer]
  constructor
  · intro hfollows
    exact ⟨⟨i, (hfollows.uses Kind.noConfusion).2 i rfl⟩, hfollows.stopped rfl⟩
  · rintro ⟨hbusy, hexact⟩
    refine ⟨fun _ => ⟨Touched.noConfusion, ?_⟩, fun _ hidle => absurd hbusy hidle, fun _ => hexact⟩
    rintro j ⟨⟩
    exact (h.live_iff hpointer).mpr hbusy

end Handles
