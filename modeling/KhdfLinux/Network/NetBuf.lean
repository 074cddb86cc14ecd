import KhdfLinux.Lib.Machine
import KhdfLinux.Lib.Run
import KhdfLinux.Hdf.Base
import Mathlib.Tactic.SplitIfs

/-!
# Net buffers

A net buffer has a head room, a data segment and a tail room.  `NetBufPush` and `NetBufPop` move
the bounds between them, and `NetBufConcat` appends the data of another buffer.  `netBuf_keeps_iff`
tells which calls keep the bounds in order, and `netBuf_inverse_iff` when the two are inverse to
each other.
-/

namespace NetBuf

/-! ### Buffers -/

/-- `struct sk_buff`, with the addresses `head` and `data`, the words `tail` and `end`, and the
lengths `len` and `data_len`. -/
structure SkBuff where
  head : Nat
  data : Nat
  tail : Nat
  endWord : Nat
  len : Nat
  dataLen : Nat
  deriving DecidableEq, Repr

/-- The number of addresses, on a machine with pointers of 64 bits or of 32. -/
def addresses (wide : Bool) : Nat := if wide then 18446744073709551616 else 4294967296

namespace SkBuff

variable (wide : Bool) (nb : SkBuff)

/-- `skb_tail_pointer`: the tail is a distance from the head, or a pointer of 32 bits. -/
def tailPointer : Nat := if wide then nb.head + nb.tail else nb.tail

/-- `skb_end_pointer`. -/
def endPointer : Nat := if wide then nb.head + nb.endWord else nb.endWord

/-- `skb_is_nonlinear`. -/
def isNonlinear : Bool := nb.dataLen ≠ 0

/-- `skb_headroom`. -/
def headroom : Nat := u32 ((nb.data : Int) - nb.head)

/-- `skb_tailroom`. -/
def tailroom : Int := if nb.isNonlinear then 0 else s32 ((nb.endWord : Int) - nb.tail)

/-- `skb_put`, for a length that fits. -/
def put (len : Nat) : SkBuff :=
  { nb with
    tail := u32 (nb.tail + len)
    len := u32 (nb.len + len) }

end SkBuff

/-- `E_HEAD_BUF`. -/
def eHeadBuf : UInt32 := 0

/-- `E_DATA_BUF`. -/
def eDataBuf : UInt32 := 1

/-- `E_TAIL_BUF`. -/
def eTailBuf : UInt32 := 2

/-- `memcpy_s`, with the code it returns: `EOK`, or an error. -/
def memcpyS (destMax count : Nat) : Int :=
  if destMax = 0 ∨ 2147483647 < destMax then 34 else if destMax < count then 162 else 0

/-- `NetBufPush`: the pointer that is returned, and the buffer. -/
def netBufPush (wide : Bool) (nb : SkBuff) (id len : UInt32) : Nat × SkBuff :=
  if id = eHeadBuf then
    let data := (nb.data + len.toNat) % addresses wide
    (data, { nb with data })
  else if id = eDataBuf then
    (nb.data, { nb with tail := u32 (nb.tail + len.toNat), len := u32 (nb.len + len.toNat) })
  else if id = eTailBuf then
    if nb.len < len.toNat ∨ nb.tail < len.toNat then
      (0, nb)
    else
      (nb.data, { nb with
        tail := u32 ((nb.tail : Int) - len.toNat)
        len := u32 ((nb.len : Int) - len.toNat) })
  else
    (nb.data, nb)

/-- `NetBufPop`: the pointer that is returned, and the buffer. -/
def netBufPop (wide : Bool) (nb : SkBuff) (id len : UInt32) : Nat × SkBuff :=
  if id = eHeadBuf then
    if nb.data < len.toNat then
      (0, nb)
    else
      (nb.data - len.toNat, { nb with
        data := nb.data - len.toNat
        len := u32 (nb.len + len.toNat) })
  else if id = eDataBuf then
    if nb.len < len.toNat then
      (0, nb)
    else
      let data := (nb.data + len.toNat) % addresses wide
      (data, { nb with data, len := u32 ((nb.len : Int) - len.toNat) })
  else if id = eTailBuf then
    (nb.data, { nb with tail := u32 (nb.tail + len.toNat), len := u32 (nb.len + len.toNat) })
  else
    (nb.data, nb)

/-- `NetBufGetDataLen`. -/
def netBufGetDataLen (nb : SkBuff) : Nat := nb.len

/-- `NetBufGetRoom`. -/
def netBufGetRoom (wide : Bool) (nb : SkBuff) (id : UInt32) : Nat :=
  if id = eHeadBuf then
    nb.headroom
  else if id = eDataBuf then
    if nb.isNonlinear then 0 else u32 ((nb.tailPointer wide : Int) - nb.data)
  else if id = eTailBuf then
    u32 nb.tailroom
  else
    0

/-- `NetBufConcat`: the code that is returned, and the buffer. -/
def netBufConcat (nb : SkBuff) (cnb : Option SkBuff) : Int × SkBuff :=
  let tailroom := if nb.tailroom < 0 then 0 else u32 nb.tailroom
  match cnb with
  | none => (Hdf.errInvalidParam, nb)
  | some cnb =>
      if tailroom < cnb.len then (Hdf.failure, nb)
      else if memcpyS tailroom cnb.len ≠ 0 then (Hdf.failure, nb)
      else (Hdf.success, nb.put cnb.len)

/-! ### Calls -/

/-- A call for a net buffer.  The buffer that is appended is not a null pointer. -/
inductive NetBufCall where
  | push (id len : UInt32)
  | pop (id len : UInt32)
  | concat (cnb : SkBuff)

namespace SkBuff

variable (wide : Bool) (nb : SkBuff)

/-- A call: whether it succeeds, which for a push and a pop is to return a pointer, and the
buffer. -/
def call : NetBufCall → Bool × SkBuff
  | .push id len => ((netBufPush wide nb id len).1 ≠ 0, (netBufPush wide nb id len).2)
  | .pop id len => ((netBufPop wide nb id len).1 ≠ 0, (netBufPop wide nb id len).2)
  | .concat cnb =>
      ((netBufConcat nb (some cnb)).1 = Hdf.success, (netBufConcat nb (some cnb)).2)

/-- The net buffer is linear, and its bounds are in order. -/
structure Linear : Prop where
  linear : nb.dataLen = 0
  head_pos : 0 < nb.head
  head_le : nb.head ≤ nb.data
  data_le : nb.data ≤ nb.tailPointer wide
  tail_le : nb.tailPointer wide ≤ nb.endPointer wide
  end_lt : nb.endWord < 4294967296 ∧ nb.endPointer wide < addresses wide
  len_eq : nb.len = nb.tailPointer wide - nb.data

/-- The head room. -/
def headRoom : Nat := nb.data - nb.head

/-- The tail room. -/
def tailRoom : Nat := nb.endWord - nb.tail

/-- The length exceeds the space of the segment that becomes smaller. -/
def Exceeds : NetBufCall → Prop
  | .push id len =>
      id = eHeadBuf ∧ nb.len < len.toNat ∨ id = eDataBuf ∧ nb.tailRoom < len.toNat
        ∨ id = eTailBuf ∧ nb.len < len.toNat
  | .pop id len =>
      id = eHeadBuf ∧ nb.headRoom < len.toNat ∨ id = eDataBuf ∧ nb.len < len.toNat
        ∨ id = eTailBuf ∧ nb.tailRoom < len.toNat
  | .concat cnb => nb.tailRoom < cnb.len

/-- The rooms that are reported add up to the size of the buffer, and the room of the data is its
length. -/
def RoomsAdd : Prop :=
  netBufGetRoom wide nb eHeadBuf + netBufGetRoom wide nb eDataBuf + netBufGetRoom wide nb eTailBuf
      = nb.endPointer wide - nb.head
    ∧ netBufGetRoom wide nb eDataBuf = netBufGetDataLen nb

/-- The call fails and leaves the buffer if the length exceeds the space; otherwise it succeeds and
keeps the bounds in order. -/
def KeepsBounds (c : NetBufCall) : Prop :=
  (nb.Exceeds c → (nb.call wide c).1 = false ∧ (nb.call wide c).2 = nb)
    ∧ (¬nb.Exceeds c → (nb.call wide c).1 = true
      ∧ (nb.call wide c).2.Linear wide ∧ (nb.call wide c).2.RoomsAdd wide)

/-- The calls that keep the bounds: what is pushed at the head is nothing, what comes from the tail
room fits, and what comes from the head room fits or is more than an address. -/
def Fits : NetBufCall → Prop
  | .push id len =>
      (id = eHeadBuf → len = 0) ∧ (id = eDataBuf → len.toNat ≤ nb.tailRoom)
  | .pop id len =>
      (id = eHeadBuf → len.toNat ≤ nb.headRoom ∨ nb.data < len.toNat)
        ∧ (id = eTailBuf → len.toNat ≤ nb.tailRoom)
  | .concat cnb => nb.tailRoom < cnb.len ∨ 0 < nb.tailRoom ∧ nb.tailRoom < 2147483648

end SkBuff

/-! ### Bounds -/

section Bounds

variable {wide : Bool} {nb : SkBuff}

namespace SkBuff.Linear

/-- The data end where the tail begins. -/
theorem data_add_len (h : nb.Linear wide) :
  nb.data + nb.len = nb.tailPointer wide
  := by
  have hle := h.data_le
  have hlen := h.len_eq
  omega

theorem tail_le_end (h : nb.Linear wide) :
  nb.tail ≤ nb.endWord
  := by
  have hle := h.tail_le
  cases wide with
  | false => exact hle
  | true => exact Nat.le_of_add_le_add_left hle

/-- The head room and the data are not longer than the word of the tail. -/
theorem headRoom_add_len_le (h : nb.Linear wide) :
  nb.headRoom + nb.len ≤ nb.tail
  := by
  have hlen := h.data_add_len
  have hhead := h.head_le
  unfold SkBuff.headRoom
  cases wide with
  | false =>
      rw [show nb.tailPointer false = nb.tail from rfl] at hlen
      omega
  | true =>
      rw [show nb.tailPointer true = nb.head + nb.tail from rfl] at hlen
      omega

theorem data_add_len_lt (h : nb.Linear wide) :
  nb.data + nb.len < addresses wide
  := by
  rw [h.data_add_len]
  apply Nat.lt_of_le_of_lt h.tail_le h.end_lt.2

theorem data_pos (h : nb.Linear wide) :
  0 < nb.data
  := Nat.lt_of_lt_of_le h.head_pos h.head_le

/-- Other bounds in the same buffer. -/
theorem withBounds (h : nb.Linear wide) {data tail len : Nat} (hhead : nb.head ≤ data)
    (htail : tail ≤ nb.endWord)
    (heq : data + len = SkBuff.tailPointer wide { nb with data, tail, len }) :
  SkBuff.Linear wide { nb with data, tail, len }
  := by
  refine ⟨h.linear, h.head_pos, hhead, heq ▸ Nat.le_add_right _ _, ?_, h.end_lt, ?_⟩
  · cases wide with
    | false => exact htail
    | true => exact Nat.add_le_add_left htail _
  · rw [← heq]
    exact (Nat.add_sub_cancel_left _ _).symm

/-- The data and the tail begin elsewhere. -/
theorem tailPointer_of_tail (wide : Bool) (nb : SkBuff) {tail : Nat} (data len : Nat) {k : Int}
    (htail : (tail : Int) = nb.tail + k) :
  ((SkBuff.tailPointer wide { nb with data, tail, len } : Nat) : Int) = nb.tailPointer wide + k
  := by
  cases wide with
  | false => exact htail
  | true =>
      show ((nb.head + tail : Nat) : Int) = (nb.head + nb.tail : Nat) + k
      omega

/-- What is reported of a buffer whose bounds are in order. -/
theorem rooms (h : nb.Linear wide) :
  netBufGetRoom wide nb eHeadBuf = nb.headRoom ∧ netBufGetRoom wide nb eDataBuf = nb.len
    ∧ netBufGetRoom wide nb eTailBuf = nb.tailRoom
  := by
  have hlinear : ¬nb.isNonlinear := by
    unfold SkBuff.isNonlinear
    simp [h.linear]
  have hend := h.end_lt.1
  have htail := h.tail_le_end
  have hle := h.headRoom_add_len_le
  refine ⟨?_, ?_, ?_⟩
  · show u32 ((nb.data : Int) - nb.head) = nb.headRoom
    exact u32_diff h.head_le (show nb.headRoom < 4294967296 by omega)
  · show (if nb.isNonlinear then 0 else u32 ((nb.tailPointer wide : Int) - nb.data)) = nb.len
    have hlen := h.len_eq
    rw [if_neg hlinear, hlen]
    exact u32_diff h.data_le (by omega)
  · show u32 (if nb.isNonlinear then 0 else s32 ((nb.endWord : Int) - nb.tail)) = nb.tailRoom
    rw [if_neg hlinear, u32_s32]
    apply u32_sub htail hend

theorem roomsAdd (h : nb.Linear wide) :
  nb.RoomsAdd wide
  := by
  obtain ⟨hhead, hdata, htail⟩ := h.rooms
  refine ⟨?_, hdata⟩
  rw [hhead, hdata, htail]
  have hlen := h.data_add_len
  have hle := h.head_le
  have hend := h.tail_le_end
  unfold SkBuff.headRoom SkBuff.tailRoom
  cases wide with
  | false =>
      rw [show nb.tailPointer false = nb.tail from rfl] at hlen
      show _ = nb.endWord - nb.head
      omega
  | true =>
      rw [show nb.tailPointer true = nb.head + nb.tail from rfl] at hlen
      show _ = nb.head + nb.endWord - nb.head
      omega

end SkBuff.Linear

/-! ### Single calls -/

variable {c : NetBufCall} {id len : UInt32} {cnb nb' : SkBuff} {p : Nat}

theorem call_push (h : netBufPush wide nb id len = (p, nb')) :
  nb.call wide (.push id len) = (decide (p ≠ 0), nb')
  := by
  show (decide ((netBufPush wide nb id len).1 ≠ 0), (netBufPush wide nb id len).2) = _
  rw [h]

theorem call_pop (h : netBufPop wide nb id len = (p, nb')) :
  nb.call wide (.pop id len) = (decide (p ≠ 0), nb')
  := by
  show (decide ((netBufPop wide nb id len).1 ≠ 0), (netBufPop wide nb id len).2) = _
  rw [h]

theorem keepsBounds_of_refused (hexceeds : nb.Exceeds c) (h : nb.call wide c = (false, nb)) :
  nb.KeepsBounds wide c
  := by
  refine ⟨fun _ => ?_, fun hno => absurd hexceeds hno⟩
  rw [h]
  exact ⟨rfl, rfl⟩

theorem keepsBounds_of_done (hno : ¬nb.Exceeds c) (h : nb.call wide c = (decide (p ≠ 0), nb'))
    (hp : p ≠ 0) (hlinear : nb'.Linear wide) :
  nb.KeepsBounds wide c
  := by
  refine ⟨fun hexceeds => absurd hexceeds hno, fun _ => ?_⟩
  rw [h]
  exact ⟨decide_eq_true hp, hlinear, hlinear.roomsAdd⟩

theorem not_keepsBounds_of_taken (hexceeds : nb.Exceeds c)
    (h : nb.call wide c = (decide (p ≠ 0), nb')) (hp : p ≠ 0) :
  ¬nb.KeepsBounds wide c
  := by
  intro hkeeps
  have hrefused := (hkeeps.1 hexceeds).1
  rw [h, decide_eq_true hp] at hrefused
  cases hrefused

theorem addresses_cases (wide : Bool) :
  addresses wide = 4294967296 ∨ addresses wide = 18446744073709551616
  := by
  cases wide with
  | false => exact .inl rfl
  | true => exact .inr rfl

/-- To add a length to a pointer is to change it, unless it is zero. -/
theorem addPointer_eq_iff (hp : p < addresses wide) :
  (p + len.toNat) % addresses wide = p ↔ len = 0
  := by
  have hlen := len.toNat_lt
  have hzero : len = 0 ↔ len.toNat = 0 := UInt32.toNat_inj.symm
  rw [hzero]
  obtain hA | hA := addresses_cases wide
  · rw [hA] at hp ⊢
    omega
  · rw [hA] at hp ⊢
    omega

/-- A push at the head leaves the length. -/
theorem push_head_iff (h : nb.Linear wide) :
  nb.KeepsBounds wide (.push eHeadBuf len) ↔ len = 0
  := by
  have hlt : nb.data < addresses wide := Nat.lt_of_le_of_lt (Nat.le_add_right _ _) h.data_add_len_lt
  rw [← addPointer_eq_iff hlt]
  constructor
  · rintro ⟨hrefused, hdone⟩
    by_cases hexceeds : nb.Exceeds (.push eHeadBuf len)
    · apply congrArg SkBuff.data (hrefused hexceeds).2
    · have hlen := (hdone hexceeds).2.1.data_add_len
      have hpointer : (nb.call wide (.push eHeadBuf len)).2.tailPointer wide
          = nb.tailPointer wide := rfl
      rw [hpointer, ← h.data_add_len] at hlen
      apply Nat.add_right_cancel hlen
  · intro hsame
    have hzero := (addPointer_eq_iff hlt).mp hsame
    have hbuf : netBufPush wide nb eHeadBuf len = (nb.data, nb) := by
      unfold netBufPush
      rw [if_pos rfl, hsame]
    refine keepsBounds_of_done ?_ (call_push hbuf) (Nat.ne_of_gt h.data_pos) h
    subst hzero
    rintro (⟨-, hlt⟩ | ⟨hid, -⟩ | ⟨hid, -⟩)
    · cases hlt
    · cases hid
    · cases hid

/-- The buffer whose data segment takes the length from the tail room. -/
def SkBuff.grow (nb : SkBuff) (len : Nat) : SkBuff :=
  { nb with tail := u32 (nb.tail + len), len := u32 (nb.len + len) }

theorem linear_grow (h : nb.Linear wide) {n : Nat} (hroom : n ≤ nb.tailRoom) :
  (nb.grow n).Linear wide
  := by
  have hend := h.end_lt.1
  have htail := h.tail_le_end
  have hle := h.headRoom_add_len_le
  unfold SkBuff.tailRoom at hroom
  have htail' : u32 ((nb.tail : Int) + n) = nb.tail + n := u32_of_lt (n := nb.tail + n) (by omega)
  have hlen' : u32 ((nb.len : Int) + n) = nb.len + n := u32_of_lt (n := nb.len + n) (by omega)
  unfold SkBuff.grow
  rw [htail', hlen']
  apply h.withBounds h.head_le
  · omega
  · have hlen := h.data_add_len
    have hpointer := SkBuff.Linear.tailPointer_of_tail wide nb nb.data (nb.len + n)
      (show ((nb.tail + n : Nat) : Int) = nb.tail + n by omega)
    omega

/-- What is pushed onto the data is taken from the tail room, if it fits. -/
theorem push_data_iff (h : nb.Linear wide) :
  nb.KeepsBounds wide (.push eDataBuf len) ↔ len.toNat ≤ nb.tailRoom
  := by
  have hbuf : netBufPush wide nb eDataBuf len = (nb.data, nb.grow len.toNat) := rfl
  have hpos := Nat.ne_of_gt h.data_pos
  constructor
  · intro hkeeps
    by_contra hlt
    have hexceeds : nb.Exceeds (.push eDataBuf len) :=
      Or.inr (Or.inl ⟨rfl, Nat.not_le.mp hlt⟩)
    apply not_keepsBounds_of_taken hexceeds (call_push hbuf) hpos hkeeps
  · intro hroom
    refine keepsBounds_of_done ?_ (call_push hbuf) hpos (linear_grow h hroom)
    rintro (⟨hid, -⟩ | ⟨-, hlt⟩ | ⟨hid, -⟩)
    · cases hid
    · omega
    · cases hid

/-- What is pushed at the tail is taken from the data, if it fits. -/
theorem push_tail (h : nb.Linear wide) :
  nb.KeepsBounds wide (.push eTailBuf len)
  := by
  have hle := h.headRoom_add_len_le
  by_cases hlt : nb.len < len.toNat
  · have hexceeds : nb.Exceeds (.push eTailBuf len) := Or.inr (Or.inr ⟨rfl, hlt⟩)
    have hbuf : netBufPush wide nb eTailBuf len = (0, nb) := by
      unfold netBufPush
      rw [if_neg (by decide), if_neg (by decide), if_pos rfl, if_pos (.inl hlt)]
    apply keepsBounds_of_refused hexceeds (call_push hbuf)
  · have hend := h.end_lt.1
    have htail := h.tail_le_end
    have hfits : ¬(nb.len < len.toNat ∨ nb.tail < len.toNat) := by omega
    have htail' : u32 ((nb.tail : Int) - len.toNat) = nb.tail - len.toNat :=
      u32_sub (by omega) (by omega)
    have hlen' : u32 ((nb.len : Int) - len.toNat) = nb.len - len.toNat :=
      u32_sub (by omega) (by omega)
    have hbuf : netBufPush wide nb eTailBuf len
        = (nb.data, { nb with tail := nb.tail - len.toNat, len := nb.len - len.toNat }) := by
      unfold netBufPush
      rw [if_neg (by decide), if_neg (by decide), if_pos rfl, if_neg hfits, htail', hlen']
    refine keepsBounds_of_done ?_ (call_push hbuf) (Nat.ne_of_gt h.data_pos) ?_
    · rintro (⟨hid, -⟩ | ⟨hid, -⟩ | ⟨-, hgt⟩)
      · cases hid
      · cases hid
      · apply hlt hgt
    · apply h.withBounds h.head_le
      · omega
      · have hlen := h.data_add_len
        have hpointer := SkBuff.Linear.tailPointer_of_tail wide nb nb.data
          (nb.len - len.toNat)
          (show ((nb.tail - len.toNat : Nat) : Int) = nb.tail + -len.toNat by omega)
        omega

/-- What is popped at the head is taken from the head room, if it fits; only a length above the
address of the data is refused. -/
theorem pop_head_iff (h : nb.Linear wide) :
  nb.KeepsBounds wide (.pop eHeadBuf len) ↔ len.toNat ≤ nb.headRoom ∨ nb.data < len.toNat
  := by
  have hhead := h.head_le
  have hpos := h.head_pos
  have hroomEq : nb.headRoom = nb.data - nb.head := rfl
  by_cases hlt : nb.data < len.toNat
  · refine iff_of_true ?_ (.inr hlt)
    have hexceeds : nb.Exceeds (.pop eHeadBuf len) := Or.inl ⟨rfl, by omega⟩
    have hbuf : netBufPop wide nb eHeadBuf len = (0, nb) := by
      unfold netBufPop
      rw [if_pos rfl, if_pos hlt]
    apply keepsBounds_of_refused hexceeds (call_pop hbuf)
  · have hbuf : netBufPop wide nb eHeadBuf len = (nb.data - len.toNat,
        { nb with data := nb.data - len.toNat, len := u32 (nb.len + len.toNat) }) := by
      unfold netBufPop
      rw [if_pos rfl, if_neg hlt]
    rw [or_iff_left hlt]
    constructor
    · intro hkeeps
      by_contra hgt
      -- the data are moved before the head
      have hexceeds : nb.Exceeds (.pop eHeadBuf len) := Or.inl ⟨rfl, Nat.not_le.mp hgt⟩
      have hsame := (hkeeps.1 hexceeds).2
      rw [call_pop hbuf] at hsame
      have hdata : nb.data - len.toNat = nb.data := congrArg SkBuff.data hsame
      omega
    · intro hroom
      have hle := h.headRoom_add_len_le
      have hend := h.end_lt.1
      have htail := h.tail_le_end
      have hlen' : u32 ((nb.len : Int) + len.toNat) = nb.len + len.toNat :=
        u32_of_lt (n := nb.len + len.toNat) (by omega)
      rw [hlen'] at hbuf
      refine keepsBounds_of_done ?_ (call_pop hbuf) (by omega) ?_
      · rintro (⟨-, hgt⟩ | ⟨hid, -⟩ | ⟨hid, -⟩)
        · omega
        · cases hid
        · cases hid
      · apply h.withBounds (by omega) h.tail_le_end
        have hlen := h.data_add_len
        have hpointer := SkBuff.Linear.tailPointer_of_tail wide nb (nb.data - len.toNat)
          (nb.len + len.toNat) (show (nb.tail : Int) = nb.tail + 0 by omega)
        omega

/-- What is popped from the data goes to the head room, if it fits. -/
theorem pop_data (h : nb.Linear wide) :
  nb.KeepsBounds wide (.pop eDataBuf len)
  := by
  have hhead := h.head_le
  have hpos := h.head_pos
  by_cases hlt : nb.len < len.toNat
  · have hexceeds : nb.Exceeds (.pop eDataBuf len) := Or.inr (Or.inl ⟨rfl, hlt⟩)
    have hbuf : netBufPop wide nb eDataBuf len = (0, nb) := by
      unfold netBufPop
      rw [if_neg (by decide), if_pos rfl, if_pos hlt]
    apply keepsBounds_of_refused hexceeds (call_pop hbuf)
  · have hspace := h.data_add_len_lt
    have hle := h.headRoom_add_len_le
    have hend := h.end_lt.1
    have htail := h.tail_le_end
    have hdata' : (nb.data + len.toNat) % addresses wide = nb.data + len.toNat :=
      Nat.mod_eq_of_lt (by omega)
    have hlen' : u32 ((nb.len : Int) - len.toNat) = nb.len - len.toNat :=
      u32_sub (by omega) (by omega)
    have hbuf : netBufPop wide nb eDataBuf len = (nb.data + len.toNat,
        { nb with data := nb.data + len.toNat, len := nb.len - len.toNat }) := by
      unfold netBufPop
      rw [if_neg (by decide), if_pos rfl, if_neg hlt, hdata', hlen']
    refine keepsBounds_of_done ?_ (call_pop hbuf) (by omega) ?_
    · rintro (⟨hid, -⟩ | ⟨-, hgt⟩ | ⟨hid, -⟩)
      · cases hid
      · apply hlt hgt
      · cases hid
    · apply h.withBounds (by omega) h.tail_le_end
      have hlen := h.data_add_len
      have hpointer := SkBuff.Linear.tailPointer_of_tail wide nb (nb.data + len.toNat)
        (nb.len - len.toNat) (show (nb.tail : Int) = nb.tail + 0 by omega)
      omega

/-- What is popped at the tail is taken from the tail room, if it fits. -/
theorem pop_tail_iff (h : nb.Linear wide) :
  nb.KeepsBounds wide (.pop eTailBuf len) ↔ len.toNat ≤ nb.tailRoom
  := by
  have hbuf : netBufPop wide nb eTailBuf len = (nb.data, nb.grow len.toNat) := rfl
  have hpos := Nat.ne_of_gt h.data_pos
  constructor
  · intro hkeeps
    by_contra hlt
    have hexceeds : nb.Exceeds (.pop eTailBuf len) :=
      Or.inr (Or.inr ⟨rfl, Nat.not_le.mp hlt⟩)
    apply not_keepsBounds_of_taken hexceeds (call_pop hbuf) hpos hkeeps
  · intro hroom
    refine keepsBounds_of_done ?_ (call_pop hbuf) hpos (linear_grow h hroom)
    rintro (⟨hid, -⟩ | ⟨hid, -⟩ | ⟨-, hlt⟩)
    · cases hid
    · cases hid
    · omega

/-- Another segment is left alone. -/
theorem keepsBounds_other (h : nb.Linear wide) (hhead : id ≠ eHeadBuf) (hdata : id ≠ eDataBuf)
    (htail : id ≠ eTailBuf) :
  nb.KeepsBounds wide (.push id len) ∧ nb.KeepsBounds wide (.pop id len)
  := by
  have hpush : netBufPush wide nb id len = (nb.data, nb) := by
    unfold netBufPush
    rw [if_neg hhead, if_neg hdata, if_neg htail]
  have hpop : netBufPop wide nb id len = (nb.data, nb) := by
    unfold netBufPop
    rw [if_neg hhead, if_neg hdata, if_neg htail]
  have hpos := Nat.ne_of_gt h.data_pos
  constructor
  · refine keepsBounds_of_done ?_ (call_push hpush) hpos h
    rintro (⟨heq, -⟩ | ⟨heq, -⟩ | ⟨heq, -⟩)
    · apply hhead heq
    · apply hdata heq
    · apply htail heq
  · refine keepsBounds_of_done ?_ (call_pop hpop) hpos h
    rintro (⟨heq, -⟩ | ⟨heq, -⟩ | ⟨heq, -⟩)
    · apply hhead heq
    · apply hdata heq
    · apply htail heq

/-- The tail room that is taken for an appended buffer: a room of 2 GiB or more is negative. -/
theorem SkBuff.Linear.concatRoom (h : nb.Linear wide) :
  (if nb.tailroom < 0 then 0 else u32 nb.tailroom)
    = if nb.tailRoom < 2147483648 then nb.tailRoom else 0
  := by
  have hend := h.end_lt.1
  have htail := h.tail_le_end
  have hlinear : ¬nb.isNonlinear := by
    unfold SkBuff.isNonlinear
    simp [h.linear]
  have hroom : nb.tailroom = s32 nb.tailRoom := by
    unfold SkBuff.tailroom SkBuff.tailRoom
    rw [if_neg hlinear, Int.ofNat_sub htail]
  have hlt : nb.tailRoom < 4294967296 := Nat.lt_of_le_of_lt (Nat.sub_le _ _) hend
  rw [hroom]
  by_cases hsmall : nb.tailRoom < 2147483648
  · rw [s32_of_lt hsmall, if_neg (by omega), if_pos hsmall, u32_of_lt hlt]
  · rw [if_pos (s32_neg (Nat.not_lt.mp hsmall) hlt), if_neg hsmall]

/-- A buffer is appended if it fits and there is a tail room, of less than 2 GiB. -/
theorem concat_iff (h : nb.Linear wide) :
  nb.KeepsBounds wide (.concat cnb)
    ↔ nb.tailRoom < cnb.len ∨ 0 < nb.tailRoom ∧ nb.tailRoom < 2147483648
  := by
  have hroom := h.concatRoom
  have hcall : nb.call wide (.concat cnb)
      = (decide ((netBufConcat nb (some cnb)).1 = Hdf.success),
        (netBufConcat nb (some cnb)).2) := rfl
  by_cases hexceeds : nb.tailRoom < cnb.len
  · refine iff_of_true ?_ (.inl hexceeds)
    have hbuf : netBufConcat nb (some cnb) = (Hdf.failure, nb) := by
      unfold netBufConcat
      dsimp only
      rw [hroom, if_pos (by split <;> omega)]
    have hexceeds' : nb.Exceeds (.concat cnb) := hexceeds
    exact keepsBounds_of_refused hexceeds' (by rw [hcall, hbuf]; rfl)
  · rw [or_iff_right hexceeds]
    by_cases hfits : 0 < nb.tailRoom ∧ nb.tailRoom < 2147483648
    · refine iff_of_true ?_ hfits
      have hcopy : memcpyS nb.tailRoom cnb.len = 0 := by
        unfold memcpyS
        rw [if_neg (by omega), if_neg hexceeds]
      have hbuf : netBufConcat nb (some cnb) = (Hdf.success, nb.grow cnb.len) := by
        unfold netBufConcat
        dsimp only
        rw [hroom, if_pos hfits.2, if_neg hexceeds, if_neg (not_not.mpr hcopy)]
        rfl
      refine ⟨fun hgt => absurd hgt hexceeds, fun _ => ?_⟩
      have hlinear := linear_grow h (Nat.not_lt.mp hexceeds)
      rw [hcall, hbuf]
      exact ⟨rfl, hlinear, hlinear.roomsAdd⟩
    · refine iff_of_false (fun hkeeps => ?_) hfits
      -- nothing can be copied into a room that is taken for empty
      have hzero : (if nb.tailRoom < 2147483648 then nb.tailRoom else 0) = 0 := by
        split <;> omega
      have hfail : (netBufConcat nb (some cnb)).1 = Hdf.failure := by
        unfold netBufConcat
        dsimp only
        rw [hroom, hzero]
        split
        · rfl
        · rfl
      have hdone := (hkeeps.2 hexceeds).1
      rw [hcall, hfail] at hdone
      cases hdone

/-! ### All calls -/

/-- A call keeps the bounds exactly if it fits. -/
theorem SkBuff.Linear.keepsBounds_iff (h : nb.Linear wide) (c : NetBufCall) :
  nb.KeepsBounds wide c ↔ nb.Fits c
  := by
  cases c with
  | push id len =>
      show _ ↔ (id = eHeadBuf → len = 0) ∧ (id = eDataBuf → len.toNat ≤ nb.tailRoom)
      by_cases hhead : id = eHeadBuf
      · subst hhead
        simp [push_head_iff h, show eHeadBuf ≠ eDataBuf by decide]
      by_cases hdata : id = eDataBuf
      · subst hdata
        simp [push_data_iff h, hhead]
      by_cases htail : id = eTailBuf
      · subst htail
        simp [push_tail h, hhead, hdata]
      · simp [keepsBounds_other h hhead hdata htail, hhead, hdata]
  | pop id len =>
      show _ ↔ (id = eHeadBuf → len.toNat ≤ nb.headRoom ∨ nb.data < len.toNat)
        ∧ (id = eTailBuf → len.toNat ≤ nb.tailRoom)
      by_cases hhead : id = eHeadBuf
      · subst hhead
        simp [pop_head_iff h, show eHeadBuf ≠ eTailBuf by decide]
      by_cases htail : id = eTailBuf
      · subst htail
        simp [pop_tail_iff h, hhead]
      by_cases hdata : id = eDataBuf
      · subst hdata
        simp [pop_data h, hhead, htail]
      · simp [keepsBounds_other h hhead hdata htail, hhead, htail]
  | concat cnb => exact concat_iff h

/-- A call that keeps the bounds leaves a buffer whose bounds are in order. -/
theorem SkBuff.Linear.call (h : nb.Linear wide) (hkeeps : nb.KeepsBounds wide c) :
  (nb.call wide c).2.Linear wide
  := by
  by_cases hexceeds : nb.Exceeds c
  · rw [(hkeeps.1 hexceeds).2]
    apply h
  · exact (hkeeps.2 hexceeds).2.1

/-- In every sequence of calls, each call keeps the bounds exactly if each call fits. -/
theorem netBuf_keeps_iff (h : nb.Linear wide) (calls : List NetBufCall) :
  Along (fun nb c => (SkBuff.call wide nb c).2) (SkBuff.KeepsBounds wide) nb calls
    ↔ Along (fun nb c => (SkBuff.call wide nb c).2) SkBuff.Fits nb calls
  := by
  have hiff : ∀ (nb : SkBuff) c, nb.Linear wide → (nb.KeepsBounds wide c ↔ nb.Fits c) :=
    fun nb c hnb => hnb.keepsBounds_iff c
  have hkeep : ∀ (nb : SkBuff) c, nb.Linear wide → nb.Fits c →
      (SkBuff.call wide nb c).2.Linear wide :=
    fun nb c hnb hfits => hnb.call ((hnb.keepsBounds_iff c).mpr hfits)
  apply along_iff hiff hkeep h

/-- A buffer of 32 bytes, with a head room of 8 bytes and 16 bytes of data. -/
def smallBuf : SkBuff := ⟨4096, 4104, 24, 32, 16, 0⟩

theorem smallBuf_linear :
  smallBuf.Linear true
  := by
  constructor <;> decide

/-- A push onto the data, a pop at the head, and a buffer that is appended. -/
theorem netBuf_keeps_iff_smallBuf :
  Along (fun nb c => (SkBuff.call true nb c).2) (SkBuff.KeepsBounds true) smallBuf
    [.push eDataBuf 4, .pop eHeadBuf 8, .concat smallBuf]
  := by
  refine (netBuf_keeps_iff smallBuf_linear _).mpr ⟨?_, ?_, ?_, trivial⟩
  · exact ⟨fun hid => (by cases hid), fun _ => (by decide)⟩
  · exact ⟨fun _ => .inl (by decide), fun hid => (by cases hid)⟩
  · exact .inl (by decide)

/-- A push at the head leaves the length, one onto the data leaves the buffer, as do a pop at the
head and one at the tail. -/
theorem netBuf_not_keeps :
  smallBuf.Linear true ∧ ¬smallBuf.KeepsBounds true (.push eHeadBuf 1)
    ∧ ¬smallBuf.KeepsBounds true (.push eDataBuf 9) ∧ ¬smallBuf.KeepsBounds true (.pop eHeadBuf 9)
    ∧ ¬smallBuf.KeepsBounds true (.pop eTailBuf 9)
    ∧ (smallBuf.call true (.push eHeadBuf 1)).2 = { smallBuf with data := 4105 }
  := by
  have h := smallBuf_linear
  rw [push_head_iff h, push_data_iff h, pop_head_iff h, pop_tail_iff h]
  exact ⟨h, by decide, by decide, by decide, by decide, by decide⟩

/-! ### Inverse calls -/

/-- The data, the tail and the length are the same. -/
def SkBuff.SameBounds (nb nb' : SkBuff) : Prop :=
  nb'.data = nb.data ∧ nb'.tail = nb.tail ∧ nb'.len = nb.len

/-- A pop takes back what a push has done, if that succeeds. -/
def PopTakesBack (wide : Bool) (nb : SkBuff) (id len : UInt32) : Prop :=
  (netBufPush wide nb id len).1 ≠ 0 →
    nb.SameBounds (netBufPop wide (netBufPush wide nb id len).2 id len).2

/-- A push takes back what a pop has done, if that succeeds. -/
def PushTakesBack (wide : Bool) (nb : SkBuff) (id len : UInt32) : Prop :=
  (netBufPop wide nb id len).1 ≠ 0 →
    nb.SameBounds (netBufPush wide (netBufPop wide nb id len).2 id len).2

/-- The calls that are taken back: there is nothing to do, the length fits into the word of the
tail, or neither of the two calls succeeds. -/
def TakenBack (wide : Bool) (nb : SkBuff) (id len : UInt32) : Prop :=
  len = 0 ∨ (id ≠ eHeadBuf ∧ id ≠ eDataBuf ∧ id ≠ eTailBuf)
    ∨ id = eTailBuf ∧ nb.tail + len.toNat < 4294967296
    ∨ id = eHeadBuf ∧ nb.data + len.toNat = addresses wide ∧ nb.data ≤ len.toNat

theorem u32_add_zero {n : Nat} (hn : n < 4294967296) :
  u32 ((n : Int) + (0 : UInt32).toNat) = n
  := u32_of_lt hn

/-- To move a word is to change it, unless it is by zero. -/
theorem u32_add_eq_iff {n : Nat} (hn : n < 4294967296) :
  u32 ((n : Int) + len.toNat) = n ↔ len = 0
  := by
  have hlen := len.toNat_lt
  rw [← UInt32.toNat_inj]
  unfold u32
  show _ ↔ len.toNat = 0
  omega

/-- The words of a buffer. -/
theorem SkBuff.Linear.words_lt (h : nb.Linear wide) :
  nb.data < addresses wide ∧ nb.tail < 4294967296 ∧ nb.len < 4294967296
  := by
  have hend := h.end_lt.1
  have htail := h.tail_le_end
  have hle := h.headRoom_add_len_le
  exact ⟨Nat.lt_of_le_of_lt (Nat.le_add_right _ _) h.data_add_len_lt, by omega, by omega⟩

/-- A length of zero changes nothing. -/
theorem netBuf_zero (h : nb.Linear wide) (id : UInt32) :
  netBufPush wide nb id 0 = (nb.data, nb) ∧ netBufPop wide nb id 0 = (nb.data, nb)
  := by
  obtain ⟨hdata, htail, hlen⟩ := h.words_lt
  have htail' : u32 ((nb.tail : Int) - (0 : UInt32).toNat) = nb.tail :=
    u32_sub (Nat.zero_le _) htail
  have hlen' : u32 ((nb.len : Int) - (0 : UInt32).toNat) = nb.len := u32_sub (Nat.zero_le _) hlen
  have hpointer : (nb.data + (0 : UInt32).toNat) % addresses wide = nb.data :=
    Nat.mod_eq_of_lt hdata
  have hnot : ∀ n : Nat, ¬n < (0 : UInt32).toNat := fun n => Nat.not_lt_zero n
  constructor
  · unfold netBufPush
    rw [hpointer, u32_add_zero htail, u32_add_zero hlen, htail', hlen',
      if_neg (not_or.mpr ⟨hnot _, hnot _⟩)]
    split_ifs <;> rfl
  · unfold netBufPop
    rw [hpointer, u32_add_zero htail, u32_add_zero hlen, hlen', if_neg (hnot _),
      if_neg (hnot _)]
    split_ifs <;> rfl

/-- At the head the length is added by a pop, and left by a push. -/
theorem takesBack_head (h : nb.Linear wide) (hlen : len ≠ 0) :
  PopTakesBack wide nb eHeadBuf len ∧ PushTakesBack wide nb eHeadBuf len
    ↔ nb.data + len.toNat = addresses wide ∧ nb.data ≤ len.toNat
  := by
  obtain ⟨hdata, htail, hlenlt⟩ := h.words_lt
  have hpos := h.data_pos
  have hn := len.toNat_lt
  have hchanges := mt (u32_add_eq_iff hlenlt).mp hlen
  have hmoves := mt (addPointer_eq_iff hdata).mp hlen
  have hpush : ∀ nb : SkBuff, netBufPush wide nb eHeadBuf len
      = ((nb.data + len.toNat) % addresses wide,
        { nb with data := (nb.data + len.toNat) % addresses wide }) := fun _ => rfl
  have hpop : ∀ nb : SkBuff, netBufPop wide nb eHeadBuf len
      = if nb.data < len.toNat then (0, nb) else (nb.data - len.toNat,
        { nb with data := nb.data - len.toNat, len := u32 (nb.len + len.toNat) }) := fun _ => rfl
  refine and_congr ⟨fun hback => ?_, fun hnull hne => ?_⟩ ⟨fun hback => ?_, fun hle hne => ?_⟩
  · have hnull : (nb.data + len.toNat) % addresses wide = 0 := by
      by_contra hne
      obtain ⟨hdata', -, hlen'⟩ := hback (by rw [hpush]; exact hne)
      rw [hpush, hpop] at hdata' hlen'
      split at hlen'
      · rename_i hlt
        rw [if_pos hlt] at hdata'
        apply hmoves hdata'
      · apply hchanges hlen'
    obtain hA | hA := addresses_cases wide <;> rw [hA] at hnull hdata ⊢ <;> omega
  · rw [hpush, hnull] at hne
    apply absurd (Nat.mod_self _) hne
  · by_contra hlt
    rw [Nat.not_le] at hlt
    have hbuf := hpop nb
    rw [if_neg (by omega)] at hbuf
    have hback' := hback (by rw [hbuf]; exact Nat.sub_ne_zero_of_lt hlt)
    rw [hbuf, hpush] at hback'
    apply hchanges hback'.2.2
  · rw [hpop] at hne
    split at hne
    · apply absurd rfl hne
    · apply absurd (Nat.sub_eq_zero_of_le hle) hne

/-- What is pushed onto the data comes from the tail room, and what is popped goes to the head
room. -/
theorem not_popTakesBack_data (h : nb.Linear wide) (hlen : len ≠ 0) :
  ¬PopTakesBack wide nb eDataBuf len
  := by
  obtain ⟨hdata, htail, -⟩ := h.words_lt
  have hmoves := mt (addPointer_eq_iff hdata).mp hlen
  have hgrows := mt (u32_add_eq_iff htail).mp hlen
  have hpush : netBufPush wide nb eDataBuf len = (nb.data, nb.grow len.toNat) := rfl
  intro hback
  obtain ⟨hdata', htail', -⟩ := hback (Nat.ne_of_gt h.data_pos)
  rw [hpush] at hdata' htail'
  unfold netBufPop at hdata' htail'
  rw [if_neg (by decide), if_pos rfl] at hdata' htail'
  split at htail'
  · apply hgrows htail'
  · rename_i hlt
    rw [if_neg hlt] at hdata'
    apply hmoves hdata'

/-- At the tail the two are inverse, as long as the length fits into the word. -/
theorem takesBack_tail (h : nb.Linear wide) (hlen : len ≠ 0) :
  PopTakesBack wide nb eTailBuf len ∧ PushTakesBack wide nb eTailBuf len
    ↔ nb.tail + len.toNat < 4294967296
  := by
  obtain ⟨-, htail, hlenlt⟩ := h.words_lt
  have hle := h.headRoom_add_len_le
  have hn := len.toNat_lt
  have hgrows := mt (u32_add_eq_iff htail).mp hlen
  have hpop : ∀ nb : SkBuff, netBufPop wide nb eTailBuf len = (nb.data, nb.grow len.toNat) :=
    fun _ => rfl
  have hpush : ∀ nb : SkBuff, netBufPush wide nb eTailBuf len
      = if nb.len < len.toNat ∨ nb.tail < len.toNat then (0, nb) else (nb.data, { nb with
        tail := u32 ((nb.tail : Int) - len.toNat)
        len := u32 ((nb.len : Int) - len.toNat) }) := fun _ => rfl
  have hpopBack : PopTakesBack wide nb eTailBuf len := by
    intro hne
    rw [hpush] at hne ⊢
    split at hne
    · apply absurd rfl hne
    · rename_i hfits
      rw [if_neg hfits, hpop]
      refine ⟨rfl, ?_, ?_⟩
      · show u32 ((u32 ((nb.tail : Int) - len.toNat) : Int) + len.toNat) = nb.tail
        unfold u32
        omega
      · show u32 ((u32 ((nb.len : Int) - len.toNat) : Int) + len.toNat) = nb.len
        unfold u32
        omega
  rw [and_iff_right hpopBack]
  have hne : (netBufPop wide nb eTailBuf len).1 ≠ 0 := Nat.ne_of_gt h.data_pos
  constructor
  · intro hback
    by_contra hlt
    have hback' := (hback hne).2.1
    -- the word of the tail has wrapped, and the push is refused
    have hwrap : (nb.grow len.toNat).tail < len.toNat := by
      show u32 ((nb.tail : Int) + len.toNat) < len.toNat
      unfold u32
      omega
    rw [hpop, hpush, if_pos (.inr hwrap)] at hback'
    apply hgrows hback'
  · intro hlt _
    have htail' : (nb.grow len.toNat).tail = nb.tail + len.toNat :=
      u32_of_lt (n := nb.tail + len.toNat) hlt
    have hlen' : (nb.grow len.toNat).len = nb.len + len.toNat :=
      u32_of_lt (n := nb.len + len.toNat) (by omega)
    rw [hpop, hpush, if_neg (by rw [htail', hlen']; omega)]
    refine ⟨rfl, ?_, ?_⟩
    · show u32 (((nb.grow len.toNat).tail : Int) - len.toNat) = nb.tail
      rw [htail']
      unfold u32
      omega
    · show u32 (((nb.grow len.toNat).len : Int) - len.toNat) = nb.len
      rw [hlen']
      unfold u32
      omega

/-- Push and pop take each other back exactly at the tail, up to the size of the word, and where
nothing is done. -/
theorem netBuf_inverse_iff (h : nb.Linear wide) :
  PopTakesBack wide nb id len ∧ PushTakesBack wide nb id len ↔ TakenBack wide nb id len
  := by
  unfold TakenBack
  by_cases hlen : len = 0
  · subst hlen
    obtain ⟨hpush, hpop⟩ := netBuf_zero h id
    refine iff_of_true ⟨fun _ => ?_, fun _ => ?_⟩ (.inl rfl)
    · rw [hpush, hpop]
      exact ⟨rfl, rfl, rfl⟩
    · rw [hpop, hpush]
      exact ⟨rfl, rfl, rfl⟩
  by_cases hhead : id = eHeadBuf
  · subst hhead
    rw [takesBack_head h hlen]
    simp [hlen, show eHeadBuf ≠ eTailBuf by decide]
  by_cases hdata : id = eDataBuf
  · subst hdata
    simp [not_popTakesBack_data h hlen, hlen, hhead, show eDataBuf ≠ eTailBuf by decide]
  by_cases htail : id = eTailBuf
  · subst htail
    rw [takesBack_tail h hlen]
    simp [hlen, hhead]
  · have hpush : ∀ nb : SkBuff, netBufPush wide nb id len = (nb.data, nb) := by
      intro nb
      unfold netBufPush
      rw [if_neg hhead, if_neg hdata, if_neg htail]
    have hpop : ∀ nb : SkBuff, netBufPop wide nb id len = (nb.data, nb) := by
      intro nb
      unfold netBufPop
      rw [if_neg hhead, if_neg hdata, if_neg htail]
    refine iff_of_true ⟨fun _ => ?_, fun _ => ?_⟩ (.inr (.inl ⟨hhead, hdata, htail⟩))
    · rw [hpush, hpop]
      exact ⟨rfl, rfl, rfl⟩
    · rw [hpop, hpush]
      exact ⟨rfl, rfl, rfl⟩

/-- Push and pop at the tail. -/
theorem netBuf_inverse_iff_smallBuf :
  PopTakesBack true smallBuf eTailBuf 4 ∧ PushTakesBack true smallBuf eTailBuf 4
  := (netBuf_inverse_iff smallBuf_linear).mpr (.inr (.inr (.inl ⟨rfl, by decide⟩)))

/-- A push and a pop at the head leave a length of 17 bytes, and a pop and a push of the data move
the data. -/
theorem netBuf_not_inverse :
  smallBuf.Linear true ∧ ¬PopTakesBack true smallBuf eHeadBuf 1
    ∧ ¬PushTakesBack true smallBuf eDataBuf 4
    ∧ (netBufPop true (netBufPush true smallBuf eHeadBuf 1).2 eHeadBuf 1).2
      = { smallBuf with len := 17 }
    ∧ (netBufPush true (netBufPop true smallBuf eDataBuf 4).2 eDataBuf 4).2
      = { smallBuf with data := 4108, tail := 28 }
  := by
  refine ⟨smallBuf_linear, fun hback => ?_, fun hback => ?_, by decide, by decide⟩
  · exact absurd (hback (by decide)).2.2 (by decide)
  · exact absurd (hback (by decide)).1 (by decide)

end Bounds

end NetBuf
