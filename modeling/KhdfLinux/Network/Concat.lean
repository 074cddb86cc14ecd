import KhdfLinux.Network.NetBuf
import KhdfLinux.Lib.Memory
import Mathlib.Data.List.Basic
import Mathlib.Data.List.Nodup
import Mathlib.Logic.Function.Basic

/-!
# Concatenated net buffers

`NetBufConcat` copies the data of a buffer to the tail room of another one and frees the buffer.
`concat_list_iff` tells of a list of buffers when each of them is appended exactly if its data fit.
-/

namespace NetBuf

/-! ### Buffers in memory -/

/-- The memory, the buffers by number, and the numbers of those that have been freed, in order. -/
structure Pool where
  mem : Memory
  buf : ℕ → SkBuff
  freed : List ℕ

namespace Pool

/-- `NetBufFree`. -/
def netBufFree (s : Pool) (nb : ℕ) : Pool := { s with freed := s.freed ++ [nb] }

/-- `skb_put`. -/
def skbPut (s : Pool) (nb len : ℕ) : Pool :=
  { s with buf := Function.update s.buf nb ((s.buf nb).put len) }

/-- `NetBufConcat`: the code that is returned, and the memory with its buffers. -/
def netBufConcat (wide : Bool) (nb : ℕ) (s : Pool) (cnb : Option ℕ) : Int × Pool :=
  let tailroom := if (s.buf nb).tailroom < 0 then 0 else u32 (s.buf nb).tailroom
  match cnb with
  | none => (Hdf.errInvalidParam, s)
  | some cnb =>
      let len := (s.buf cnb).len
      if tailroom < len then (Hdf.failure, s)
      else if memcpyS tailroom len ≠ 0 then (Hdf.failure, s)
      else
        let copied := s.mem.copy ((s.buf nb).tailPointer wide) (s.buf cnb).data len
        (Hdf.success, ({ s with mem := copied }.skbPut nb len).netBufFree cnb)

variable (wide : Bool) (nb : ℕ)

/-- The state after the call for a buffer. -/
def next (s : Pool) (cnb : ℕ) : Pool := (s.netBufConcat wide nb (some cnb)).2

/-- The buffer is appended. -/
def Accepts (s : Pool) (cnb : ℕ) : Prop := (s.netBufConcat wide nb (some cnb)).1 = Hdf.success

instance (s : Pool) (cnb : ℕ) : Decidable (s.Accepts wide nb cnb) := by
  unfold Accepts
  infer_instance

/-- The calls for the buffers of a list, one after another. -/
def run (s : Pool) (srcs : List ℕ) : Pool := srcs.foldl (next wide nb) s

/-- The buffers of the list that are appended. -/
def accepted : Pool → List ℕ → List ℕ
  | _, [] => []
  | s, cnb :: srcs =>
      if s.Accepts wide nb cnb then cnb :: accepted (s.next wide nb cnb) srcs
      else accepted (s.next wide nb cnb) srcs

/-- The memory of a buffer, from its head to its end. -/
def area (s : Pool) (b : ℕ) : Region :=
  ⟨(s.buf b).head, (s.buf b).endPointer wide - (s.buf b).head⟩

/-- The data of a buffer. -/
def contents (s : Pool) (b : ℕ) : List UInt8 := s.mem.bytes (s.buf b).data (s.buf b).len

/-- The buffers are linear with their bounds in order, none has been freed, they are distinct, and
the first one shares no memory with the others. -/
structure Ready (s : Pool) (srcs : List ℕ) : Prop where
  linear : ∀ b ∈ nb :: srcs, (s.buf b).Linear wide
  live : ∀ b ∈ nb :: srcs, b ∉ s.freed
  distinct : (nb :: srcs).Nodup
  apart : ∀ b ∈ srcs, (s.area wide nb).Apart (s.area wide b)

/-- Each buffer is appended exactly if its data fit, and the calls give the data, the freed buffers
and the refused ones that they report. -/
structure Concatenates (s : Pool) (srcs : List ℕ) : Prop where
  each : Along (next wide nb)
    (fun s cnb => s.Accepts wide nb cnb ↔ (s.buf cnb).len ≤ (s.buf nb).tailRoom) s srcs
  contents : (s.run wide nb srcs).contents nb
    = s.contents nb ++ (s.accepted wide nb srcs).flatMap s.contents
  freed : ∀ b ∈ s.accepted wide nb srcs, (s.run wide nb srcs).freed.count b = 1
  kept : ∀ b ∈ srcs, b ∉ s.accepted wide nb srcs →
    (s.run wide nb srcs).buf b = s.buf b ∧ b ∉ (s.run wide nb srcs).freed
      ∧ Memory.AgreeOn (s.area wide b) s.mem (s.run wide nb srcs).mem

end Pool

/-- Whenever a length fits into the room that is left, there is a room, of less than 2 GiB. -/
def Roomy : ℕ → List ℕ → Prop
  | _, [] => True
  | room, len :: lens =>
      if len ≤ room then (0 < room ∧ room < 2147483648) ∧ Roomy (room - len) lens
      else Roomy room lens

/-! ### Single calls -/

section Calls

variable {wide : Bool} {nb b c : ℕ} {s : Pool} {srcs : List ℕ}

/-- A buffer that fits after its room has been put to use. -/
theorem SkBuff.Linear.grow_eq {nb : SkBuff} (h : nb.Linear wide) {len : ℕ}
    (hlen : len ≤ nb.tailRoom) :
  (nb.grow len).tail = nb.tail + len ∧ (nb.grow len).len = nb.len + len
  := by
  have hend := h.end_lt.1
  have htail := h.tail_le_end
  have hle := h.headRoom_add_len_le
  unfold SkBuff.tailRoom at hlen
  constructor
  · exact u32_of_lt (n := nb.tail + len) (by omega)
  · exact u32_of_lt (n := nb.len + len) (by omega)

theorem SkBuff.Linear.tailRoom_grow {nb : SkBuff} (h : nb.Linear wide) {len : ℕ}
    (hlen : len ≤ nb.tailRoom) :
  (nb.grow len).tailRoom = nb.tailRoom - len
  := by
  show nb.endWord - (nb.grow len).tail = nb.endWord - nb.tail - len
  rw [(h.grow_eq hlen).1, Nat.sub_sub]

namespace Pool

/-- The state after a buffer has been appended. -/
def joined (wide : Bool) (nb : ℕ) (s : Pool) (c : ℕ) : Pool where
  mem := s.mem.copy ((s.buf nb).tailPointer wide) (s.buf c).data (s.buf c).len
  buf := Function.update s.buf nb ((s.buf nb).grow (s.buf c).len)
  freed := s.freed ++ [c]

/-- The data fit into the tail room, and there is one, of less than 2 GiB. -/
def Joins (nb : ℕ) (s : Pool) (c : ℕ) : Prop :=
  (s.buf c).len ≤ (s.buf nb).tailRoom ∧ 0 < (s.buf nb).tailRoom
    ∧ (s.buf nb).tailRoom < 2147483648

/-- The code and the bounds are those of a call without a memory. -/
theorem netBufConcat_bounds (s : Pool) (cnb : Option ℕ) :
  ((s.netBufConcat wide nb cnb).1, (s.netBufConcat wide nb cnb).2.buf nb)
    = NetBuf.netBufConcat (s.buf nb) (cnb.map s.buf)
  := by
  cases cnb with
  | none => rfl
  | some c =>
      unfold netBufConcat NetBuf.netBufConcat
      dsimp only [Option.map_some]
      generalize (if (s.buf nb).tailroom < 0 then 0 else u32 (s.buf nb).tailroom) = tailroom
      split_ifs with hlen hcopy
      · rfl
      · rfl
      · exact congrArg (Prod.mk _) (Function.update_self _ _ _)

/-- A buffer that fits is appended. -/
theorem netBufConcat_of_joins (h : (s.buf nb).Linear wide) (hjoins : s.Joins nb c) :
  s.netBufConcat wide nb (some c) = (Hdf.success, s.joined wide nb c)
  := by
  obtain ⟨hlen, hpos, hlt⟩ := hjoins
  have hcopy : memcpyS (s.buf nb).tailRoom (s.buf c).len = 0 := by
    unfold memcpyS
    rw [if_neg (by omega), if_neg (Nat.not_lt.mpr hlen)]
  unfold netBufConcat
  dsimp only
  rw [h.concatRoom, if_pos hlt, if_neg (Nat.not_lt.mpr hlen), if_neg (not_not.mpr hcopy)]
  rfl

/-- Any other buffer is refused. -/
theorem netBufConcat_of_not_joins (h : (s.buf nb).Linear wide) (hjoins : ¬s.Joins nb c) :
  s.netBufConcat wide nb (some c) = (Hdf.failure, s)
  := by
  unfold netBufConcat
  dsimp only
  rw [h.concatRoom]
  by_cases hexceeds : (s.buf nb).tailRoom < (s.buf c).len
  · rw [if_pos (by split <;> omega)]
  · have hzero : (if (s.buf nb).tailRoom < 2147483648 then (s.buf nb).tailRoom else 0) = 0 := by
      unfold Joins at hjoins
      split <;> omega
    have hfails : memcpyS 0 (s.buf c).len ≠ 0 := by
      unfold memcpyS
      rw [if_pos (.inl rfl)]
      decide
    rw [hzero, if_pos hfails, ite_self]

theorem accepts_iff (h : (s.buf nb).Linear wide) :
  s.Accepts wide nb c ↔ s.Joins nb c
  := by
  unfold Accepts
  by_cases hjoins : s.Joins nb c
  · rw [netBufConcat_of_joins h hjoins]
    exact iff_of_true rfl hjoins
  · rw [netBufConcat_of_not_joins h hjoins]
    exact iff_of_false (fun hcode : Hdf.failure = Hdf.success => by cases hcode) hjoins

theorem next_of_joins (h : (s.buf nb).Linear wide) (hjoins : s.Joins nb c) :
  s.next wide nb c = s.joined wide nb c
  := congrArg Prod.snd (netBufConcat_of_joins h hjoins)

theorem next_of_not_joins (h : (s.buf nb).Linear wide) (hjoins : ¬s.Joins nb c) :
  s.next wide nb c = s
  := congrArg Prod.snd (netBufConcat_of_not_joins h hjoins)

/-! ### Appended buffers -/

@[simp]
theorem joined_buf_self (s : Pool) :
  (s.joined wide nb c).buf nb = (s.buf nb).grow (s.buf c).len
  := Function.update_self _ _ _

theorem joined_buf (s : Pool) (hb : b ≠ nb) :
  (s.joined wide nb c).buf b = s.buf b
  := Function.update_of_ne hb _ _

/-- The area of a buffer stays. -/
@[simp]
theorem joined_area (s : Pool) (b : ℕ) :
  (s.joined wide nb c).area wide b = s.area wide b
  := by
  by_cases hb : b = nb
  · subst hb
    unfold area
    rw [joined_buf_self]
    rfl
  · unfold area
    rw [joined_buf s hb]

/-- The tail room that is used lies in the area of the buffer. -/
theorem used_within (h : (s.buf nb).Linear wide) (hlen : (s.buf c).len ≤ (s.buf nb).tailRoom) :
  (Region.mk ((s.buf nb).tailPointer wide) (s.buf c).len).Within (s.area wide nb)
  := by
  have hhead := h.head_le
  have hdata := h.data_le
  have htail := h.tail_le
  unfold SkBuff.tailRoom at hlen
  unfold Region.Within area
  dsimp only
  refine ⟨Nat.le_trans hhead hdata, ?_⟩
  cases wide with
  | false =>
      unfold SkBuff.tailPointer SkBuff.endPointer at *
      simp only [Bool.false_eq_true, if_false] at *
      omega
  | true =>
      unfold SkBuff.tailPointer SkBuff.endPointer at *
      simp only [if_true] at *
      omega

/-- The data of a buffer lie in its area. -/
theorem data_within (h : (s.buf b).Linear wide) :
  (Region.mk (s.buf b).data (s.buf b).len).Within (s.area wide b)
  := by
  have hhead := h.head_le
  have htail := h.tail_le
  have hlen := h.data_add_len
  unfold Region.Within area
  dsimp only
  omega

/-- The memory of a buffer that is apart stays. -/
theorem joined_agree (h : (s.buf nb).Linear wide) (hjoins : s.Joins nb c)
    (hapart : (s.area wide nb).Apart (s.area wide b)) :
  Memory.AgreeOn (s.area wide b) s.mem (s.joined wide nb c).mem
  := Memory.copy_agree (hapart.within (used_within h hjoins.1) ⟨Nat.le_refl _, Nat.le_refl _⟩)

theorem joined_contents (h : (s.buf nb).Linear wide) (hb : (s.buf b).Linear wide)
    (hjoins : s.Joins nb c) (hne : b ≠ nb) (hapart : (s.area wide nb).Apart (s.area wide b)) :
  (s.joined wide nb c).contents b = s.contents b
  := by
  unfold contents
  rw [joined_buf s hne]
  apply Memory.bytes_congr
  intro a ha
  exact joined_agree h hjoins hapart a (ha.within (data_within hb))

/-- The data of the appended buffer follow those that were there. -/
theorem joined_contents_self (h : (s.buf nb).Linear wide) (hjoins : s.Joins nb c) :
  (s.joined wide nb c).contents nb = s.contents nb ++ s.contents c
  := by
  have hkept : Memory.AgreeOn ⟨(s.buf nb).data, (s.buf nb).len⟩ s.mem (s.joined wide nb c).mem :=
    Memory.copy_agree (.inr (Nat.le_of_eq h.data_add_len))
  have hdata : ((s.buf nb).grow (s.buf c).len).data = (s.buf nb).data := rfl
  unfold contents
  rw [joined_buf_self, (h.grow_eq hjoins.1).2, hdata, Memory.bytes_add,
    Memory.bytes_congr hkept, h.data_add_len]
  exact congrArg _ Memory.bytes_copy

/-! ### Lists of buffers -/

theorem Ready.head (h : s.Ready wide nb srcs) :
  (s.buf nb).Linear wide
  := h.linear nb List.mem_cons_self

/-- A call that is refused leaves the rest ready. -/
theorem Ready.rest (h : s.Ready wide nb (c :: srcs)) :
  s.Ready wide nb srcs
  := by
  have hsub : ∀ b ∈ nb :: srcs, b ∈ nb :: c :: srcs := by
    intro b hb
    obtain rfl | hb := List.mem_cons.mp hb
    · exact List.mem_cons_self
    · exact List.mem_cons_of_mem _ (List.mem_cons_of_mem _ hb)
  obtain ⟨hnot, hrest⟩ := List.nodup_cons.mp h.distinct
  refine ⟨fun b hb => h.linear b (hsub b hb), fun b hb => h.live b (hsub b hb), ?_,
    fun b hb => h.apart b (List.mem_cons_of_mem _ hb)⟩
  exact List.nodup_cons.mpr
    ⟨fun hmem => hnot (List.mem_cons_of_mem _ hmem), (List.nodup_cons.mp hrest).2⟩

theorem Ready.ne (h : s.Ready wide nb srcs) (hb : b ∈ srcs) :
  b ≠ nb
  := by
  rintro rfl
  exact (List.nodup_cons.mp h.distinct).1 hb

theorem Ready.not_mem (h : s.Ready wide nb (c :: srcs)) :
  c ∉ srcs
  := (List.nodup_cons.mp (List.nodup_cons.mp h.distinct).2).1

/-- So does a call that is accepted. -/
theorem Ready.joined (h : s.Ready wide nb (c :: srcs)) (hjoins : s.Joins nb c) :
  (s.joined wide nb c).Ready wide nb srcs
  := by
  have hrest := h.rest
  refine ⟨fun b hb => ?_, fun b hb hfreed => ?_, hrest.distinct, fun b hb => ?_⟩
  · by_cases hne : b = nb
    · subst hne
      rw [joined_buf_self]
      exact linear_grow h.head hjoins.1
    · rw [joined_buf s hne]
      exact hrest.linear b hb
  · obtain hold | hnew := List.mem_append.mp hfreed
    · exact hrest.live b hb hold
    · obtain rfl := List.mem_singleton.mp hnew
      obtain rfl | hmem := List.mem_cons.mp hb
      · exact h.ne List.mem_cons_self rfl
      · exact h.not_mem hmem
  · rw [joined_area, joined_area]
    exact hrest.apart b hb

/-- The data, the areas and the bounds of the other buffers stay when one is appended. -/
theorem Ready.kept (h : s.Ready wide nb (c :: srcs)) (hjoins : s.Joins nb c) (hb : b ∈ srcs) :
  (s.joined wide nb c).buf b = s.buf b ∧ (s.joined wide nb c).contents b = s.contents b
    ∧ Memory.AgreeOn (s.area wide b) s.mem (s.joined wide nb c).mem
  := by
  have hne := h.rest.ne hb
  have hapart := h.rest.apart b hb
  have hlinear := h.rest.linear b (List.mem_cons_of_mem _ hb)
  exact ⟨joined_buf s hne, joined_contents h.head hlinear hjoins hne hapart,
    joined_agree h.head hjoins hapart⟩

/-- The first call of a list. -/
theorem run_cons (wide : Bool) (nb : ℕ) (s : Pool) (c : ℕ) (srcs : List ℕ) :
  s.run wide nb (c :: srcs) = (s.next wide nb c).run wide nb srcs
  := rfl

theorem accepted_of_joins (h : (s.buf nb).Linear wide) (hjoins : s.Joins nb c) :
  s.accepted wide nb (c :: srcs) = c :: (s.joined wide nb c).accepted wide nb srcs
  := by
  rw [← next_of_joins h hjoins]
  exact if_pos ((accepts_iff h).mpr hjoins)

theorem accepted_of_not_joins (h : (s.buf nb).Linear wide) (hjoins : ¬s.Joins nb c) :
  s.accepted wide nb (c :: srcs) = s.accepted wide nb srcs
  := by
  rw [accepted, if_neg (mt (accepts_iff h).mp hjoins), next_of_not_joins h hjoins]

theorem accepted_sublist (s : Pool) (srcs : List ℕ) :
  (s.accepted wide nb srcs).Sublist srcs
  := by
  induction srcs generalizing s with
  | nil => exact .slnil
  | cons c srcs ih =>
      unfold accepted
      split
      · exact (ih _).cons_cons c
      · exact (ih _).cons c

/-- What the calls do, whichever of them succeed: the data of the accepted buffers are appended in
order, these are freed, and the memory of every buffer of the list stays. -/
structure Appends (wide : Bool) (nb : ℕ) (s : Pool) (srcs : List ℕ) : Prop where
  contents : (s.run wide nb srcs).contents nb
    = s.contents nb ++ (s.accepted wide nb srcs).flatMap s.contents
  freed : (s.run wide nb srcs).freed = s.freed ++ s.accepted wide nb srcs
  kept : ∀ b, b ≠ nb → (s.area wide nb).Apart (s.area wide b) →
    (s.run wide nb srcs).buf b = s.buf b
      ∧ Memory.AgreeOn (s.area wide b) s.mem (s.run wide nb srcs).mem

/-- The run rule. -/
theorem Ready.appends (h : s.Ready wide nb srcs) :
  s.Appends wide nb srcs
  := by
  induction srcs generalizing s with
  | nil =>
      exact ⟨(List.append_nil _).symm, (List.append_nil _).symm,
        fun b _ _ => ⟨rfl, fun _ _ => rfl⟩⟩
  | cons c srcs ih =>
      by_cases hjoins : s.Joins nb c
      · obtain ⟨hcontents, hfreed, hkept⟩ := ih (h.joined hjoins)
        constructor
        · rw [run_cons, next_of_joins h.head hjoins, accepted_of_joins h.head hjoins, hcontents,
            joined_contents_self h.head hjoins, List.flatMap_cons, List.append_assoc]
          apply congrArg
          apply congrArg
          -- the data of the buffers that follow have not been touched
          apply List.flatMap_congr
          intro b hb
          exact (h.kept hjoins ((accepted_sublist _ _).subset hb)).2.1
        · rw [run_cons, next_of_joins h.head hjoins, accepted_of_joins h.head hjoins, hfreed]
          exact List.append_assoc _ _ _
        · intro b hne hapart
          rw [run_cons, next_of_joins h.head hjoins]
          obtain ⟨hbuf, hmem⟩ := hkept b hne (by rw [joined_area, joined_area]; exact hapart)
          rw [joined_area] at hmem
          refine ⟨hbuf.trans (joined_buf s hne), fun a ha => ?_⟩
          exact (hmem a ha).trans (joined_agree h.head hjoins hapart a ha)
      · obtain ⟨hcontents, hfreed, hkept⟩ := ih h.rest
        have hrun : s.run wide nb (c :: srcs) = s.run wide nb srcs := by
          rw [run_cons, next_of_not_joins h.head hjoins]
        rw [← hrun] at hcontents hfreed hkept
        rw [← accepted_of_not_joins h.head hjoins] at hcontents hfreed
        exact ⟨hcontents, hfreed, hkept⟩

/-- The condition, in the room of the buffer and the lengths of the others. -/
theorem Ready.each_iff (h : s.Ready wide nb srcs) :
  Along (next wide nb)
      (fun s cnb => s.Accepts wide nb cnb ↔ (s.buf cnb).len ≤ (s.buf nb).tailRoom) s srcs
    ↔ Roomy (s.buf nb).tailRoom (srcs.map fun b => (s.buf b).len)
  := by
  induction srcs generalizing s with
  | nil => rfl
  | cons c srcs ih =>
      unfold Along
      rw [List.map_cons, Roomy, accepts_iff h.head]
      by_cases hlen : (s.buf c).len ≤ (s.buf nb).tailRoom
      · rw [if_pos hlen, iff_true_right hlen]
        by_cases hroom : 0 < (s.buf nb).tailRoom ∧ (s.buf nb).tailRoom < 2147483648
        · have hjoins : s.Joins nb c := ⟨hlen, hroom⟩
          have hlens : (srcs.map fun b => ((s.joined wide nb c).buf b).len)
              = srcs.map fun b => (s.buf b).len :=
            List.map_congr_left fun b hb => congrArg SkBuff.len (h.kept hjoins hb).1
          have hrest := ih (h.joined hjoins)
          rw [joined_buf_self, h.head.tailRoom_grow hlen, hlens] at hrest
          rw [next_of_joins h.head hjoins, hrest]
          exact and_congr_left' (iff_of_true hjoins hroom)
        · exact iff_of_false (fun hall => hroom hall.1.2) fun hall => hroom hall.1
      · have hjoins : ¬s.Joins nb c := fun hall => hlen hall.1
        rw [if_neg hlen, next_of_not_joins h.head hjoins, ih h.rest]
        exact and_iff_right (iff_of_false hjoins hlen)

/-- Each buffer of a list is appended exactly if its data fit, with what the calls report, exactly
if there is a room of less than 2 GiB whenever a length fits into it. -/
theorem concat_list_iff (h : s.Ready wide nb srcs) :
  s.Concatenates wide nb srcs ↔ Roomy (s.buf nb).tailRoom (srcs.map fun b => (s.buf b).len)
  := by
  rw [← h.each_iff]
  refine ⟨Concatenates.each, fun heach => ?_⟩
  obtain ⟨hcontents, hfreed, hkept⟩ := h.appends
  have hsub : (s.accepted wide nb srcs).Sublist srcs := accepted_sublist s srcs
  have hnodup : (s.accepted wide nb srcs).Nodup :=
    hsub.nodup (List.nodup_cons.mp h.distinct).2
  refine ⟨heach, hcontents, fun b hb => ?_, fun b hb hnot => ?_⟩
  · have hold : b ∉ s.freed := h.live b (List.mem_cons_of_mem _ (hsub.subset hb))
    rw [hfreed, List.count_append, List.count_eq_zero.mpr hold,
      List.count_eq_one_of_mem hnodup hb]
  · obtain ⟨hbuf, hmem⟩ := hkept b (h.ne hb) (h.apart b hb)
    refine ⟨hbuf, fun hmem' => ?_, hmem⟩
    rw [hfreed] at hmem'
    obtain hold | hnew := List.mem_append.mp hmem'
    · exact h.live b (List.mem_cons_of_mem _ hb) hold
    · exact hnot hnew

/-- Three buffers: one with a tail room of 8 bytes, one with 8 bytes of data, and one with none. -/
def threeBufs : Pool where
  mem := fun a => UInt8.ofNat a
  buf
    | 0 => smallBuf
    | 1 => ⟨8192, 8192, 8, 8, 8, 0⟩
    | _ => ⟨12288, 12288, 0, 8, 0, 0⟩
  freed := []

theorem threeBufs_ready :
  threeBufs.Ready true 0 [2, 1] ∧ threeBufs.Ready true 0 [1, 2]
  := by
  have hlinear : ∀ b, (threeBufs.buf b).Linear true := by
    intro b
    match b with
    | 0 => exact smallBuf_linear
    | 1 => constructor <;> decide
    | b + 2 =>
        show SkBuff.Linear true ⟨12288, 12288, 0, 8, 0, 0⟩
        constructor <;> decide
  have hlive : ∀ b, b ∉ threeBufs.freed := fun b => List.not_mem_nil
  exact ⟨⟨fun b _ => hlinear b, fun b _ => hlive b, by decide, by decide⟩,
    ⟨fun b _ => hlinear b, fun b _ => hlive b, by decide, by decide⟩⟩

/-- The empty buffer comes first. -/
theorem concat_list_threeBufs :
  threeBufs.Concatenates true 0 [2, 1]
  := (concat_list_iff threeBufs_ready.1).mpr
    ⟨⟨by decide, by decide⟩, ⟨by decide, by decide⟩, trivial⟩

/-- The empty buffer is refused when the first one has used up the room. -/
theorem not_concat_list_threeBufs :
  threeBufs.Ready true 0 [1, 2] ∧ ¬threeBufs.Concatenates true 0 [1, 2]
    ∧ ((threeBufs.next true 0 1).netBufConcat true 0 (some 2)).1 = Hdf.failure
    ∧ ((threeBufs.next true 0 1).buf 2).len = 0
  := by
  refine ⟨threeBufs_ready.2, fun h => ?_, by decide, by decide⟩
  have hempty := h.each.2.1
  revert hempty
  decide

end Pool

end Calls

end NetBuf
