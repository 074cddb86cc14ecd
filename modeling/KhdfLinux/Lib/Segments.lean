import KhdfLinux.Lib.Walk

/-!
# Segments

A part of a byte string that is the concatenation of segments.  `locate` says where the
segments lie, and `segment` cuts an item out of the byte string: the items of a counted
walk are the segments of the bytes it goes over.
-/

namespace Walk

open Bytes

/-- The bytes of an item. -/
def segment (m : Bytes) (v : Visit) : Bytes := (m.drop v.offset).take v.size

/-- The items that segments are, if the first lies at position `d`. -/
def locate (d : Nat) : List Bytes → List Visit
  | [] => []
  | s :: segs => ⟨d, s.length⟩ :: locate (d + s.length) segs

@[simp]
theorem length_locate (d : Nat) (segs : List Bytes) :
  (locate d segs).length = segs.length
  := by
  induction segs generalizing d with
  | nil => rfl
  | cons s segs ih => simp [locate, ih]

@[simp]
theorem total_locate (d : Nat) (segs : List Bytes) :
  total (locate d segs) = segs.flatten.length
  := by
  induction segs generalizing d with
  | nil => rfl
  | cons s segs ih => simp [locate, ih]

/-- What holds of the items is what holds of the segments, each in front of the bytes that
follow it. -/
theorem forall_mem_locate
    {m rest : Bytes} {d : Nat} {segs : List Bytes} (hm : m.drop d = segs.flatten ++ rest)
    {P : Visit → Prop} (h : ∀ s ∈ segs, ∀ o tail, m.drop o = s ++ tail → P ⟨o, s.length⟩) :
  ∀ v ∈ locate d segs, P v
  := by
  induction segs generalizing d with
  | nil => simp [locate]
  | cons s segs ih =>
      rw [List.flatten_cons, List.append_assoc] at hm
      have hdrop : m.drop (d + s.length) = segs.flatten ++ rest := by
        rw [← List.drop_drop, hm, List.drop_left]
      intro v hv
      rcases List.mem_cons.mp hv with rfl | hv
      · exact h s (by simp) d _ hm
      · exact ih hdrop (fun s' hs' => h s' (by simp [hs'])) v hv

section Part

variable {m s tail : Bytes} {o i : Nat}

theorem byteAt_of_drop (hm : m.drop o = s ++ tail) (hi : i < s.length) :
  byteAt m (o + i) = byteAt s i
  := by
  rw [← byteAt_drop, hm, byteAt_append_left _ hi]

theorem le16At_of_drop (hm : m.drop o = s ++ tail) (hi : i + 2 ≤ s.length) :
  le16At m (o + i) = le16At s i
  := by
  unfold le16At
  rw [byteAt_of_drop hm (by omega), Nat.add_assoc, byteAt_of_drop hm (by omega)]

theorem le32At_of_drop (hm : m.drop o = s ++ tail) (hi : i + 4 ≤ s.length) :
  le32At m (o + i) = le32At s i
  := by
  unfold le32At
  rw [le16At_of_drop hm (by omega), Nat.add_assoc, le16At_of_drop hm (by omega)]

end Part

theorem drop_length_eq {m s tail : Bytes} {d : Nat} (h : m.drop d = s ++ tail) :
  m.length - d = s.length + tail.length
  := by
  rw [← List.length_drop, h, List.length_append]

/-- Segments that are items are the items. -/
theorem visits_locate
    {size : (data len : Nat) → Option Nat} {m rest : Bytes} {d : Nat} {segs : List Bytes}
    (hm : m.drop d = segs.flatten ++ rest)
    (h : ∀ s ∈ segs, ∀ o tail, m.drop o = s ++ tail →
      size o (s.length + tail.length) = some s.length) :
  visits size segs.length d (m.length - d) = some (locate d segs)
  := by
  induction segs generalizing d with
  | nil => rfl
  | cons s segs ih =>
      rw [List.flatten_cons, List.append_assoc] at hm
      have hdrop : m.drop (d + s.length) = segs.flatten ++ rest := by
        rw [← List.drop_drop, hm, List.drop_left]
      apply visits_succ.mpr
      refine ⟨s.length, locate (d + s.length) segs, ?_, ?_, rfl⟩
      · rw [drop_length_eq hm]
        exact h s (by simp) d _ hm
      · rw [← Nat.sub_add_eq]
        exact ih hdrop fun s' hs' => h s' (by simp [hs'])

theorem length_segment
    {m : Bytes} {v : Visit} (h : v.offset + v.size ≤ m.length) :
  (segment m v).length = v.size
  := by
  simp only [segment, List.length_take, List.length_drop]
  omega

theorem drop_eq_segment_append (m : Bytes) (v : Visit) :
  m.drop v.offset = segment m v ++ m.drop (v.offset + v.size)
  := by
  rw [segment, ← List.drop_drop, List.take_append_drop]

/-- The items of a walk are segments. -/
theorem drop_eq_of_visits
    {size : (data len : Nat) → Option Nat} {m : Bytes} {n d len : Nat} {vs : List Visit}
    (h : visits size n d len = some vs) :
  m.drop d = (vs.map (segment m)).flatten ++ m.drop (d + total vs)
  := by
  induction n generalizing d len vs with
  | zero =>
      obtain rfl := Option.some.inj h
      simp
  | succ n ih =>
      obtain ⟨k, ws, -, hws, rfl⟩ := visits_succ.mp h
      rw [List.map_cons, List.flatten_cons, List.append_assoc, total_cons, ← Nat.add_assoc,
        ← ih hws]
      exact drop_eq_segment_append m ⟨d, k⟩

/-- The items of a walk are where their bytes are. -/
theorem locate_segments
    {size : (data len : Nat) → Option Nat} {m : Bytes} {n d len : Nat} {vs : List Visit}
    (h : visits size n d len = some vs) (hle : ∀ v ∈ vs, v.offset + v.size ≤ m.length) :
  locate d (vs.map (segment m)) = vs
  := by
  induction n generalizing d len vs with
  | zero =>
      obtain rfl := Option.some.inj h
      rfl
  | succ n ih =>
      obtain ⟨k, ws, -, hws, rfl⟩ := visits_succ.mp h
      have hk : (segment m ⟨d, k⟩).length = k := length_segment (hle _ (by simp))
      rw [List.map_cons, locate, hk, ih hws fun v hv => hle v (by simp [hv])]

end Walk
