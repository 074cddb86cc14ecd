import KhdfLinux.Lib.Handles

/-!
# Owners

An owner makes an object, keeps a bare pointer to it, adds it to a manager, and later removes the
object its pointer refers to and frees it; the pointer is not cleared.  `Owns` says what is asked of
a call, and `Inv` what the owner keeps as long as it releases each object it made: the objects that
were not freed are in the manager.
-/

/-- The pointer with the objects that were made and freed, the objects in the manager, and those
that were removed without being there. -/
structure Owner where
  handles : Handles
  added : List Nat
  strays : List Nat
  deriving DecidableEq, Repr

/-- A call that made an object, failed to, or released one. -/
inductive Owner.Kind where
  | made
  | failed
  | released
  deriving DecidableEq, Repr

namespace Owner

/-- Nothing was made. -/
def init : Owner := ⟨.init, [], []⟩

variable (s : Owner)

/-- The object that is made next. -/
def fresh : Nat := s.handles.objects.allocated

/-- Make an object and point to it. -/
def make : Owner := { s with handles := s.handles.opened }

/-- Add an object to the manager. -/
def add (i : Nat) : Owner := { s with added := i :: s.added }

/-- Remove an object from the manager. -/
def remove (i : Nat) : Owner :=
  if i ∈ s.added then { s with added := s.added.erase i }
  else { s with strays := i :: s.strays }

/-- Free an object. -/
def free (i : Nat) : Owner := { s with handles := s.handles.closed i }

/-- The pointer does not refer to an object that was freed. -/
def Safe : Prop := ∀ i, s.handles.pointer = some i → s.handles.objects.Live i

/-- After a call that failed the pointer is safe; one that releases touches only an object that was
not freed, and after it each object was freed once; only objects in the manager were removed from
it, and none was freed twice. -/
structure Owns (k : Kind) (t : Owner) : Prop where
  failed : k = .failed → t.Safe
  touched : k = .released → s.Safe
  released : k = .released → t.handles.objects.Exact
  removed : t.strays = []
  once : t.handles.objects.freed.Nodup

/-- The pointer tracks the objects that were not freed, and these are in the manager. -/
structure Inv : Prop where
  tracks : s.handles.Tracks
  added : ∀ i, s.handles.objects.Live i → i ∈ s.added
  removed : s.strays = []

variable {s}

/-- Nothing was made. -/
theorem inv_init :
  init.Inv
  where
  tracks := Handles.tracks_init
  added _ hi := nomatch hi.1
  removed := rfl

/-- No object was freed twice. -/
theorem Inv.once (h : s.Inv) :
  s.handles.objects.freed.Nodup
  := by
  obtain ⟨live, hlive, -⟩ := h.tracks
  apply hlive.freed_nodup

/-- A call that fails and changes nothing. -/
theorem Inv.owns_failed_iff (h : s.Inv) :
  s.Owns .failed s ↔ s.Safe
  := by
  constructor
  · exact fun howns => howns.failed rfl
  · exact fun hsafe => ⟨fun _ => hsafe, Kind.noConfusion, Kind.noConfusion, h.removed, h.once⟩

/-- A call that fails and leaves the pointer at an object that was freed. -/
theorem not_owns_failed {t : Owner} {i : Nat} (hpointer : t.handles.pointer = some i)
    (hfreed : i ∈ t.handles.objects.freed) :
  ¬s.Owns .failed t
  := fun howns => (howns.failed rfl i hpointer).2 hfreed

/-- The object that is made is added. -/
theorem Inv.made (h : s.Inv) :
  (s.make.add s.fresh).Inv
  where
  tracks := h.tracks.opened
  added i hi := by
    obtain hlt | heq := Nat.lt_succ_iff_lt_or_eq.mp hi.1
    · exact List.mem_cons_of_mem _ (h.added i ⟨hlt, hi.2⟩)
    · rw [heq]
      apply List.mem_cons_self
  removed := h.removed

/-- Of a call that makes an object little is asked. -/
theorem Inv.owns_made {t : Owner} (h : t.Inv) :
  s.Owns .made t
  := ⟨Kind.noConfusion, Kind.noConfusion, Kind.noConfusion, h.removed, h.once⟩

/-- Where there is no pointer nothing is released. -/
theorem Inv.owns_released (h : s.Inv) (hpointer : s.handles.pointer = none) :
  s.Owns .released s
  where
  failed hk := nomatch hk
  touched _ _ hi := nomatch hpointer.symm.trans hi
  released _ := (h.tracks.of_none hpointer).1
  removed := h.removed
  once := h.once

/-- The only object that was not freed is the one the pointer refers to. -/
theorem Inv.live_of_single {i : Nat} (h : s.Inv) (hpointer : s.handles.pointer = some i)
    (hsingle : s.handles.Single) :
  s.handles.objects.Live i
  := (h.tracks.live_iff hpointer).mpr ((h.tracks.exact_iff hpointer).mpr hsingle).1

/-- Removing an object leaves the handles alone. -/
@[simp]
theorem remove_handles (s : Owner) (i : Nat) :
  (s.remove i).handles = s.handles
  := by
  unfold remove
  split <;> rfl

/-- A release makes no object. -/
@[simp]
theorem fresh_release (s : Owner) (i : Nat) :
  ((s.remove i).free i).fresh = s.fresh
  := by
  unfold fresh free
  rw [remove_handles]
  rfl

/-- An object in the manager is removed from it. -/
theorem remove_of_mem {i : Nat} (hi : i ∈ s.added) :
  s.remove i = { s with added := s.added.erase i }
  := by
  unfold remove
  rw [if_pos hi]

/-- The only object that was not freed is released. -/
theorem Inv.release {i : Nat} (h : s.Inv) (hpointer : s.handles.pointer = some i)
    (hsingle : s.handles.Single) :
  ((s.remove i).free i).Inv
  := by
  have hlive := h.live_of_single hpointer hsingle
  rw [remove_of_mem (h.added i hlive)]
  refine ⟨h.tracks.closed hpointer hsingle, fun j hj => ?_, h.removed⟩
  have hne : j ≠ i := fun heq => hj.2 (heq ▸ List.mem_cons_self)
  have hlive' : s.handles.objects.Live j := ⟨hj.1, fun hmem => hj.2 (List.mem_cons_of_mem _ hmem)⟩
  obtain ⟨k, hk⟩ := hsingle
  exact absurd (((hk j).mp hlive').trans ((hk i).mp hlive).symm) hne

/-- The object that the pointer refers to is released. -/
theorem Inv.owns_released_iff {i : Nat} (h : s.Inv) (hpointer : s.handles.pointer = some i) :
  s.Owns .released ((s.remove i).free i) ↔ s.handles.Single
  := by
  have hhandles : ((s.remove i).free i).handles = s.handles.closed i := by
    unfold free
    rw [remove_handles]
  constructor
  · intro howns
    apply (h.tracks.exact_iff hpointer).mp
    have hlive := howns.touched rfl i hpointer
    refine ⟨⟨i, hlive⟩, ?_⟩
    rw [← hhandles]
    apply howns.released rfl
  · intro hsingle
    have ht := h.release hpointer hsingle
    refine ⟨Kind.noConfusion, fun _ j hj => ?_, fun _ => ?_, ht.removed, ht.once⟩
    · obtain rfl := Option.some.inj (hpointer.symm.trans hj)
      apply h.live_of_single hpointer hsingle
    · rw [hhandles]
      apply ((h.tracks.exact_iff hpointer).mpr hsingle).2

end Owner
