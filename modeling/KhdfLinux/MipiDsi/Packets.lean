import KhdfLinux.MipiDsi.Command

/-!
# Packets to and from the panel

A long packet is packed into words, which are written to `GEN_PLD_DATA` before the header, and a
reply is unpacked from the words that are read there.  `setCmd_transfers_iff` tells when a packet
that was sent with success is complete.
-/

namespace MipiDsi

open Exec Registers

/-! ### Bytes of words -/

/-- A byte of a word. -/
def byteAt (value : UInt32) (n : Nat) : UInt8 := (value >>> (8 * UInt32.ofNat n)).toUInt8

/-- The bytes of words, in order. -/
def unpack (words : List UInt32) : List UInt8 := words.flatMap fun word => bytes word 4

section Bytes

variable {value : UInt32} {b : UInt8} {cmd : Nat → UInt8} {n m i j k : Nat}

/-- A bit of a byte is one of the word. -/
theorem getLsbD_byteAt (hn : n < 4) (hi : i < 8) :
  (byteAt value n).toBitVec.getLsbD i = value.toBitVec.getLsbD (8 * n + i)
  := by
  unfold byteAt
  interval_cases n
  all_goals simp [hi]

/-- The bits outside a byte are left. -/
theorem getLsbD_mask :
  ∀ n < 4, ∀ i < 32, (~~~((0xff : UInt32) <<< (8 * UInt32.ofNat n))).toBitVec.getLsbD i
    = !decide (8 * n ≤ i ∧ i < 8 * n + 8)
  := by
  decide

/-- A byte that is moved to its place. -/
theorem getLsbD_shifted (hn : n < 4) (hi : i < 32) :
  (b.toUInt32 <<< (8 * UInt32.ofNat n)).toBitVec.getLsbD i
    = (!decide (i < 8 * n) && b.toBitVec.getLsbD (i - 8 * n))
  := by
  interval_cases n
  all_goals simp [hi]

/-- To replace a byte leaves the others. -/
theorem byteAt_setByte (hn : n < 4) (hm : m < 4) :
  byteAt (setByte value (UInt32.ofNat n) b) m = if m = n then b else byteAt value m
  := by
  apply UInt8.toBitVec_inj.mp
  apply BitVec.eq_of_getLsbD_eq
  intro i hi
  have hlt : 8 * m + i < 32 := by omega
  rw [getLsbD_byteAt hm hi]
  unfold setByte
  rw [UInt32.toBitVec_or, UInt32.toBitVec_and, BitVec.getLsbD_or, BitVec.getLsbD_and,
    getLsbD_mask n hn _ hlt, getLsbD_shifted hn hlt]
  by_cases heq : m = n
  · subst heq
    rw [if_pos rfl, decide_eq_true (by omega), decide_eq_false (by omega)]
    simp
  · rw [if_neg heq, getLsbD_byteAt hm hi, decide_eq_false (by omega)]
    by_cases hlow : 8 * m + i < 8 * n
    · simp [hlow]
    · rw [BitVec.getLsbD_of_ge b.toBitVec _ (by omega)]
      simp

/-- The first bytes of a word that is built from the command. -/
theorem byteAt_setBytes (hj : j ≤ 4) (hm : m < 4) :
  byteAt (setBytes value cmd i j) m = if m < j then cmd (4 * i + m) else byteAt value m
  := by
  induction j with
  | zero => exact (if_neg (Nat.not_lt_zero m)).symm
  | succ j ih =>
      have hstep : setBytes value cmd i (j + 1)
          = setByte (setBytes value cmd i j) (UInt32.ofNat j) (cmd (4 * i + j)) := by
        unfold setBytes
        rw [List.range_succ, List.foldl_append]
        rfl
      rw [hstep, byteAt_setByte (by omega) hm, ih (by omega)]
      by_cases heq : m = j
      · subst heq
        rw [if_pos rfl, if_pos (Nat.lt_succ_self m)]
      · rw [if_neg heq]
        split_ifs with hlt hlt'
        · rfl
        · omega
        · omega
        · rfl

theorem bytes_setBytes (hk : k ≤ j) (hj : j ≤ 4) :
  bytes (setBytes value cmd i j) k = (List.range k).map fun n => cmd (4 * i + n)
  := by
  apply List.map_congr_left
  intro n hn
  have hlt : n < j := Nat.lt_of_lt_of_le (List.mem_range.mp hn) hk
  exact (byteAt_setBytes hj (Nat.lt_of_lt_of_le hlt hj)).trans (if_pos hlt)

end Bytes

/-! ### Waits -/

variable {busy : UInt32 → Bool} {d : Device Reg UInt32} {rounds k : Nat}

/-- The status is busy for `k` reads, and not in the next one. -/
def TurnsAfter (busy : UInt32 → Bool) (input : Nat → Reg → UInt32) (k : Nat) : Prop :=
  (∀ i < k, busy (input i .cmdPktStatus)) ∧ ¬busy (input k .cmdPktStatus)

/-- Either the status turns in time, or it does not. -/
theorem turnsAfter_or (busy : UInt32 → Bool) (input : Nat → Reg → UInt32) (rounds : Nat) :
  (∃ k < rounds, TurnsAfter busy input k) ∨ ∀ i < rounds, busy (input i .cmdPktStatus)
  := by
  induction rounds with
  | zero => exact .inr fun i hi => absurd hi (Nat.not_lt_zero i)
  | succ rounds ih =>
      obtain ⟨k, hk, hturns⟩ | hbusy := ih
      · exact .inl ⟨k, Nat.lt_succ_of_lt hk, hturns⟩
      · by_cases hlast : busy (input rounds .cmdPktStatus)
        · refine .inr fun i hi => ?_
          obtain hlt | rfl := Nat.lt_succ_iff_lt_or_eq.mp hi
          · exact hbusy i hlt
          · exact hlast
        · exact .inl ⟨rounds, Nat.lt_succ_self rounds, hbusy, hlast⟩

/-- A wait whose status turns in time. -/
theorem waitStatus_of_turnsAfter (h : TurnsAfter busy d.input k) (hk : k < rounds) :
  waitStatus busy rounds d = (Hdf.success, d.skip (k + 1))
  := by
  induction rounds generalizing d k with
  | zero => exact absurd hk (Nat.not_lt_zero k)
  | succ rounds ih =>
      obtain ⟨hbusy, hturns⟩ := h
      have hstep : waitStatus busy (rounds + 1) d
          = (if busy (d.input 0 .cmdPktStatus) then waitStatus busy rounds
            else pure Hdf.success : DeviceM Reg UInt32 Int) (d.skip 1) := rfl
      rw [hstep]
      cases k with
      | zero =>
          rw [if_neg hturns]
          rfl
      | succ k =>
          have hrest : TurnsAfter busy (d.skip 1).input k :=
            ⟨fun i hi => hbusy (i + 1) (Nat.succ_lt_succ hi), hturns⟩
          rw [if_pos (hbusy 0 (Nat.succ_pos k)), ih hrest (Nat.lt_of_succ_lt_succ hk),
            Device.skip_skip, Nat.add_comm 1]

/-- A wait that times out. -/
theorem waitStatus_of_busy (h : ∀ i < rounds, busy (d.input i .cmdPktStatus)) :
  waitStatus busy rounds d = (Hdf.errTimeout, d.skip (rounds + 1))
  := by
  induction rounds generalizing d with
  | zero => rfl
  | succ rounds ih =>
      have hstep : waitStatus busy (rounds + 1) d
          = (if busy (d.input 0 .cmdPktStatus) then waitStatus busy rounds
            else pure Hdf.success : DeviceM Reg UInt32 Int) (d.skip 1) := rfl
      rw [hstep, if_pos (h 0 (Nat.succ_pos rounds)),
        ih fun i hi => h (i + 1) (Nat.succ_lt_succ hi), Device.skip_skip, Nat.add_comm 1]

/-- A wait writes nothing. -/
theorem waitStatus_writes (busy : UInt32 → Bool) (rounds : Nat) (d : Device Reg UInt32) :
  (waitStatus busy rounds d).2.writes = d.writes
  := by
  obtain ⟨k, hk, hturns⟩ | hbusy := turnsAfter_or busy d.input rounds
  · rw [waitStatus_of_turnsAfter hturns hk]
    rfl
  · rw [waitStatus_of_busy hbusy]
    rfl

/-- The status turns only once. -/
theorem TurnsAfter.unique {input : Nat → Reg → UInt32} {k' : Nat} (h : TurnsAfter busy input k)
    (h' : TurnsAfter busy input k') :
  k = k'
  := by
  obtain hlt | heq | hgt := Nat.lt_trichotomy k k'
  · exact absurd (h'.1 k hlt) h.2
  · exact heq
  · exact absurd (h.1 k' hgt) h'.2

/-! ### The payload -/

/-- The FIFO is full. -/
def full (status : UInt32) : Bool := bit status 3

/-- For each word in turn, one of the first 1001 reads of the status finds the FIFO not full. -/
def Drains : Nat → (Nat → Reg → UInt32) → Prop
  | 0, _ => True
  | words + 1, input => ∃ k ≤ mipiTxReadTimeoutCnt,
      TurnsAfter full input k ∧ Drains words fun n => input (n + (k + 1))

/-- The words of a payload of `n` bytes. -/
def Packed (payload : Nat → UInt8) (n : Nat) (words : List UInt32) : Prop :=
  words.length = (n + 3) / 4 ∧ (unpack words).take n = (List.range n).map payload

/-- What a payload of `n` bytes adds to the writes: all its words where the FIFO drains, and fewer
words otherwise. -/
def PayloadSent (payload : Nat → UInt8) (n : Nat) (d d' : Device Reg UInt32) : Prop :=
  ∃ words : List UInt32, d'.writes = d.writes ++ words.map (Prod.mk .genPldData)
    ∧ (Drains ((n + 3) / 4) d.input ∧ Packed payload n words
      ∨ ¬Drains ((n + 3) / 4) d.input ∧ words.length < (n + 3) / 4)

section Payload

variable {input : Nat → Reg → UInt32} {payload cmd : Nat → UInt8} {n words i j last : Nat}
variable {word genPldData : UInt32} {rest : List UInt32} {d' : Device Reg UInt32}

theorem drains_succ (h : TurnsAfter full input k) (hk : k ≤ mipiTxReadTimeoutCnt) :
  Drains (n + 1) input ↔ Drains n fun m => input (m + (k + 1))
  := by
  constructor
  · rintro ⟨k', -, hturns, hrest⟩
    obtain rfl := h.unique hturns
    exact hrest
  · exact fun hrest => ⟨k, hk, h, hrest⟩

theorem not_drains_of_busy (h : ∀ i < mipiTxReadTimeoutCnt + 1, full (input i .cmdPktStatus)) :
  ¬Drains (n + 1) input
  := fun ⟨k, hk, hturns, _⟩ => hturns.2 (h k (Nat.lt_succ_of_le hk))

@[simp]
theorem length_bytes (word : UInt32) (n : Nat) :
  (bytes word n).length = n
  := by
  unfold bytes
  rw [List.length_map, List.length_range]

theorem unpack_cons (word : UInt32) (rest : List UInt32) :
  unpack (word :: rest) = bytes word 4 ++ unpack rest
  := List.flatMap_cons

/-- The first word of a payload, before the others. -/
theorem take_unpack_cons (n : Nat) :
  (unpack (word :: rest)).take (n + 4) = bytes word 4 ++ (unpack rest).take n
  := by
  rw [unpack_cons, Nat.add_comm, List.take_append, length_bytes, Nat.add_sub_cancel_left,
    List.take_of_length_le (by rw [length_bytes]; omega)]

theorem Packed.cons (h : Packed (fun m => payload (4 + m)) n rest)
    (hword : bytes word 4 = (List.range 4).map payload) :
  Packed payload (n + 4) (word :: rest)
  := by
  constructor
  · rw [List.length_cons, h.1]
    omega
  · rw [take_unpack_cons, hword, h.2, Nat.add_comm n, List.range_add, List.map_append,
      List.map_map]
    rfl

/-- The first bytes of a single word. -/
theorem take_unpack_singleton (word : UInt32) (hj : j ≤ 4) :
  (unpack [word]).take j = bytes word j
  := by
  have hunpack : unpack [word] = bytes word 4 := List.append_nil _
  rw [hunpack]
  unfold bytes
  rw [← List.map_take, List.take_range, Nat.min_eq_left hj]

/-- The last bytes of a payload, fewer than a word. -/
theorem packed_rest (hj : j < 4) (hpos : j ≠ 0)
    (hword : bytes word j = (List.range j).map payload) :
  Packed payload j [word]
  := by
  constructor
  · show 1 = (j + 3) / 4
    omega
  · rw [take_unpack_singleton word (Nat.le_of_lt hj), hword]

/-- A word that is written when the FIFO has turned, and what follows. -/
theorem PayloadSent.cons (hturns : TurnsAfter full d.input k) (hk : k ≤ mipiTxReadTimeoutCnt)
    (hword : bytes word 4 = (List.range 4).map payload)
    (h : PayloadSent (fun m => payload (4 + m)) n
      ((write .genPldData word : DeviceM Reg UInt32 Unit) (d.skip (k + 1))).2 d') :
  PayloadSent payload (n + 4) d d'
  := by
  obtain ⟨rest, hwrites, hsent⟩ := h
  have hcount : (n + 4 + 3) / 4 = (n + 3) / 4 + 1 := by omega
  refine ⟨word :: rest, ?_, ?_⟩
  · rw [hwrites, List.map_cons]
    exact List.append_assoc _ [_] _
  · rw [hcount, drains_succ hturns hk]
    obtain ⟨hdrains, hpacked⟩ | ⟨hdrains, hlt⟩ := hsent
    · exact .inl ⟨hdrains, hpacked.cons hword⟩
    · exact .inr ⟨hdrains, Nat.succ_lt_succ hlt⟩

/-- A payload whose first wait times out. -/
theorem payloadSent_of_busy {m : Nat} (hn : 0 < n)
    (h : ∀ i < mipiTxReadTimeoutCnt + 1, full (d.input i .cmdPktStatus)) :
  PayloadSent payload n d (d.skip m)
  := by
  have hcount : (n + 3) / 4 = (n - 1) / 4 + 1 := by omega
  refine ⟨[], (List.append_nil _).symm, .inr ⟨?_, ?_⟩⟩
  · rw [hcount]
    exact not_drains_of_busy h
  · show 0 < (n + 3) / 4
    omega

/-- The wait for the FIFO succeeds when it turns in time, and times out otherwise. -/
theorem waitNotFull_cases (d : Device Reg UInt32) :
  (∃ k ≤ mipiTxReadTimeoutCnt, TurnsAfter full d.input k
      ∧ mipiTxWaitWriteFifoNotFull d = (Hdf.success, d.skip (k + 1)))
    ∨ (∀ i < mipiTxReadTimeoutCnt + 1, full (d.input i .cmdPktStatus))
      ∧ mipiTxWaitWriteFifoNotFull d = (Hdf.errTimeout, d.skip (mipiTxReadTimeoutCnt + 1 + 1))
  := by
  obtain ⟨k, hk, hturns⟩ | hbusy := turnsAfter_or full d.input (mipiTxReadTimeoutCnt + 1)
  · exact .inl ⟨k, Nat.le_of_lt_succ hk, hturns, waitStatus_of_turnsAfter hturns hk⟩
  · exact .inr ⟨hbusy, waitStatus_of_busy hbusy⟩

theorem timeout_ne : Hdf.errTimeout ≠ Hdf.success := by decide

/-- The bytes after the last word. -/
theorem payloadSent_rest (cmd : Nat → UInt8) (i : Nat) (hj : j < 4) (genPldData : UInt32)
    (d : Device Reg UInt32) :
  PayloadSent (fun m => cmd (4 * i + m)) j d (setPayloadRest cmd i j genPldData d).2
  := by
  unfold setPayloadRest
  by_cases hzero : j = 0
  · subst hzero
    exact ⟨[], (List.append_nil _).symm, .inl ⟨trivial, rfl, rfl⟩⟩
  · rw [if_neg hzero, bind_apply]
    obtain ⟨k, hk, hturns, hwait⟩ | ⟨hbusy, hwait⟩ := waitNotFull_cases d
    · have hcount : (j + 3) / 4 = 0 + 1 := by omega
      rw [hwait, if_neg (not_not.mpr rfl)]
      refine ⟨[setBytes genPldData cmd i j], rfl, .inl ⟨?_, ?_⟩⟩
      · rw [hcount, drains_succ hturns hk]
        trivial
      · exact packed_rest hj hzero (bytes_setBytes (Nat.le_refl j) (Nat.le_of_lt hj))
    · rw [hwait, if_pos timeout_ne]
      exact payloadSent_of_busy (Nat.pos_of_ne_zero hzero) hbusy

/-- The words from `i` on, and the bytes after them. -/
theorem payloadSent_words (cmd : Nat → UInt8) (words i : Nat) (hlast : last = i + words)
    (hj : j < 4) (genPldData : UInt32) (d : Device Reg UInt32) :
  PayloadSent (fun m => cmd (4 * i + m)) (4 * words + j) d
    ((setPayloadWords cmd words i genPldData >>= fun sent =>
      match sent with
      | none => pure ()
      | some genPldData => setPayloadRest cmd last j genPldData) d).2
  := by
  induction words generalizing i genPldData d with
  | zero =>
      obtain rfl : last = i := hlast
      rw [Nat.mul_zero, Nat.zero_add]
      exact payloadSent_rest cmd last hj genPldData d
  | succ words ih =>
      have hcount : 4 * (words + 1) + j = 4 * words + j + 4 := by omega
      unfold setPayloadWords
      dsimp only
      rw [bind_assoc, bind_apply, hcount]
      obtain ⟨k, hk, hturns, hwait⟩ | ⟨hbusy, hwait⟩ := waitNotFull_cases d
      · rw [hwait, if_neg (not_not.mpr rfl), bind_assoc, bind_apply]
        apply PayloadSent.cons hturns hk (bytes_setBytes (Nat.le_refl 4) (Nat.le_refl 4))
        have hindex : (fun m => cmd (4 * i + (4 + m))) = fun m => cmd (4 * (i + 1) + m) := by
          funext m
          exact congrArg cmd (by omega)
        rw [hindex]
        exact ih (i + 1) (by omega) _ _
      · rw [hwait, if_pos timeout_ne]
        exact payloadSent_of_busy (by omega) hbusy

/-- `MipiTxDrvSetPayloadData`, whose first read is of the register that it writes. -/
theorem payloadSent (cmd : Nat → UInt8) (cmdSize : Nat) (d : Device Reg UInt32) :
  PayloadSent cmd cmdSize (d.skip 1) (mipiTxDrvSetPayloadData cmd cmdSize d).2
  := by
  have hsent := payloadSent_words cmd (cmdSize / 4) 0 (Nat.zero_add _).symm
    (Nat.mod_lt cmdSize (by decide)) (d.input 0 .genPldData) (d.skip 1)
  simp only [Nat.mul_zero, Nat.zero_add, Nat.div_add_mod] at hsent
  exact hsent

end Payload

/-! ### Replies -/

/-- Each of the words in turn is what `GEN_PLD_DATA` gives after a wait that succeeds. -/
def Feeds : List UInt32 → Device Reg UInt32 → Prop
  | [], _ => True
  | word :: rest, d =>
      (mipiTxWaitReadFifoNotEmpty d).1 = Hdf.success
        ∧ (mipiTxWaitReadFifoNotEmpty d).2.input 0 .genPldData = word
        ∧ Feeds rest ((mipiTxWaitReadFifoNotEmpty d).2.skip 1)

section Replies

variable {data dataBuf : List UInt8} {n words j : Nat}

/-- No word is fed by a wait that fails. -/
theorem Feeds.waits {ws : List UInt32} (h : Feeds ws d) (hpos : 0 < ws.length) :
  (mipiTxWaitReadFifoNotEmpty d).1 = Hdf.success
  := by
  cases ws with
  | nil => exact absurd hpos (Nat.lt_irrefl 0)
  | cons word rest => exact h.1

/-- The reply is unpacked from the words, and fails only with a wait. -/
theorem getReadFifoWords_iff (hj : j < 4) (dataBuf : List UInt8) (d : Device Reg UInt32) :
  (getReadFifoWords words j dataBuf d).1 = some data
    ↔ ∃ ws, Feeds ws d ∧ ws.length = (4 * words + j + 3) / 4
      ∧ data = dataBuf ++ (unpack ws).take (4 * words + j)
  := by
  induction words generalizing dataBuf d with
  | zero =>
      rw [Nat.mul_zero, Nat.zero_add]
      cases j with
      | zero =>
          constructor
          · intro h
            obtain rfl := Option.some.inj h
            exact ⟨[], trivial, rfl, (List.append_nil _).symm⟩
          · rintro ⟨ws, -, -, rfl⟩
            exact congrArg some (List.append_nil _).symm
      | succ j =>
          have hcount : (j + 1 + 3) / 4 = 1 := by omega
          unfold getReadFifoWords
          rw [bind_apply, hcount]
          by_cases hwait : (mipiTxWaitReadFifoNotEmpty d).1 = Hdf.success
          · rw [if_neg (not_not.mpr hwait)]
            constructor
            · intro h
              refine ⟨[_], ⟨hwait, rfl, trivial⟩, rfl, ?_⟩
              rw [take_unpack_singleton _ (Nat.le_of_lt hj)]
              exact (Option.some.inj h).symm
            · rintro ⟨ws, hfeeds, hlength, rfl⟩
              obtain ⟨word, rfl⟩ := List.length_eq_one_iff.mp hlength
              rw [take_unpack_singleton _ (Nat.le_of_lt hj), ← hfeeds.2.1]
              rfl
          · rw [if_pos hwait]
            refine iff_of_false nofun ?_
            rintro ⟨ws, hfeeds, hlength, -⟩
            exact hwait (hfeeds.waits (by omega))
  | succ words ih =>
      have hsize : 4 * (words + 1) + j = 4 * words + j + 4 := by omega
      have hcount : (4 * words + j + 4 + 3) / 4 = (4 * words + j + 3) / 4 + 1 := by omega
      unfold getReadFifoWords
      rw [bind_apply, hsize, hcount]
      by_cases hwait : (mipiTxWaitReadFifoNotEmpty d).1 = Hdf.success
      · rw [if_neg (not_not.mpr hwait), bind_apply, ih]
        constructor
        · rintro ⟨ws, hfeeds, hlength, rfl⟩
          refine ⟨_ :: ws, ⟨hwait, rfl, hfeeds⟩, congrArg Nat.succ hlength, ?_⟩
          rw [take_unpack_cons, List.append_assoc]
          rfl
        · rintro ⟨ws, hfeeds, hlength, rfl⟩
          obtain ⟨word, rest, rfl⟩ := List.exists_cons_of_length_eq_add_one hlength
          obtain ⟨-, rfl, hrest⟩ := hfeeds
          refine ⟨rest, hrest, Nat.succ.inj hlength, ?_⟩
          rw [take_unpack_cons, List.append_assoc]
          rfl
      · rw [if_pos hwait]
        refine iff_of_false nofun ?_
        rintro ⟨ws, hfeeds, hlength, -⟩
        exact hwait (hfeeds.waits (by omega))

/-- `MipiTxGetReadFifoData` gives the first bytes of the words that it reads. -/
theorem getReadFifoData_iff (n : Nat) (d : Device Reg UInt32) :
  (mipiTxGetReadFifoData n d).1 = some data
    ↔ ∃ ws, Feeds ws d ∧ ws.length = (n + 3) / 4 ∧ data = (unpack ws).take n
  := by
  have hiff : (getReadFifoWords (n / 4) (n % 4) [] d).1 = some data ↔ _ :=
    getReadFifoWords_iff (Nat.mod_lt n (by decide)) [] d
  rw [Nat.div_add_mod] at hiff
  exact hiff

end Replies

/-! ### Long packets -/

/-- The word count of a header. -/
def wordCount (genHdr : UInt32) : Nat := (byteAt genHdr 1).toNat + 256 * (byteAt genHdr 2).toNat

/-- The header that `MipiTxDrvSetCmdInfo` writes. -/
def packetHeader (cmdInfo : CmdInfo) (genHdr : UInt32) : UInt32 :=
  setGenWc (setGenDt genHdr cmdInfo.dataType) cmdInfo.cmdSize

/-- The writes are the words of the payload and then a header with its size, and the reply that is
fed the same words is the payload. -/
def Transfers (payload : Nat → UInt8) (n : Nat) (ws : RegWrites) : Prop :=
  ∃ words header, ws = words.map (Prod.mk .genPldData) ++ [(.genHdr, header)]
    ∧ wordCount header = n ∧ Packed payload n words
    ∧ ∀ d, Feeds words d →
      (mipiTxGetReadFifoData n d).1 = some ((List.range n).map payload)

section Long

variable {payload : Nat → UInt8} {words : List UInt32} {n : Nat} {header : UInt32}

theorem wordCount_packetHeader (cmdInfo : CmdInfo) (genHdr : UInt32) :
  wordCount (packetHeader cmdInfo genHdr) = cmdInfo.cmdSize.toNat
  := by
  have hlow : byteAt (packetHeader cmdInfo genHdr) 1 = cmdInfo.cmdSize.toUInt8 := by
    refine (byteAt_setByte (n := 2) (by decide) (by decide)).trans ?_
    rw [if_neg (by decide)]
    exact (byteAt_setByte (n := 1) (by decide) (by decide)).trans (if_pos rfl)
  have hhigh : byteAt (packetHeader cmdInfo genHdr) 2 = (cmdInfo.cmdSize >>> 8).toUInt8 :=
    (byteAt_setByte (n := 2) (by decide) (by decide)).trans (if_pos rfl)
  have hlt := cmdInfo.cmdSize.toNat_lt
  unfold wordCount
  rw [hlow, hhigh, UInt16.toNat_toUInt8, UInt16.toNat_toUInt8, UInt16.toNat_shiftRight]
  show cmdInfo.cmdSize.toNat % 256 + 256 * (cmdInfo.cmdSize.toNat >>> 8 % 256)
    = cmdInfo.cmdSize.toNat
  rw [Nat.shiftRight_eq_div_pow]
  omega

/-- The header is the only write after the payload. -/
theorem sendHeader_writes (cmdInfo : CmdInfo) (genHdr : UInt32) (d : Device Reg UInt32) :
  (sendHeader cmdInfo genHdr d).2.writes
    = d.writes ++ [(.genHdr, packetHeader cmdInfo genHdr)]
  := by
  have hwait (d : Device Reg UInt32) : (mipiTxWaitCmdFifoEmpty d).2.writes = d.writes :=
    waitStatus_writes _ _ d
  have hwait' (d : Device Reg UInt32) : (mipiTxWaitWriteFifoEmpty d).2.writes = d.writes :=
    waitStatus_writes _ _ d
  unfold sendHeader
  rw [bind_apply, bind_apply]
  split
  · exact hwait _
  · rw [bind_apply]
    split
    · exact (hwait' _).trans (hwait _)
    · exact (hwait' _).trans (hwait _)

variable {cmdInfo : CmdInfo} {env : Surroundings} {d : Device Reg UInt32}

/-- A long packet that passes the checks: the payload and then the header. -/
theorem setCmdInfo_eq (hcmd : cmdInfo.cmd = some payload)
    (hsize : ¬(200 < cmdInfo.cmdSize ∨ cmdInfo.cmdSize = 0)) (hallocated : env.allocated)
    (hcopied : env.copied) :
  mipiTxDrvSetCmdInfo cmdInfo env d = sendHeader cmdInfo (d.input 0 .genHdr)
    (mipiTxDrvSetPayloadData payload cmdInfo.cmdSize.toNat (d.skip 1)).2
  := by
  unfold mipiTxDrvSetCmdInfo
  rw [bind_apply, hcmd]
  dsimp only
  rw [if_neg hsize, if_neg (not_not.mpr hallocated), if_neg (not_not.mpr hcopied)]
  rfl

/-- A long packet that is sent with success has passed the checks. -/
theorem checks_of_success (hcmd : cmdInfo.cmd = some payload)
    (hret : (mipiTxDrvSetCmdInfo cmdInfo env d).1 = Hdf.success) :
  ¬(200 < cmdInfo.cmdSize ∨ cmdInfo.cmdSize = 0) ∧ env.allocated ∧ env.copied
  := by
  unfold mipiTxDrvSetCmdInfo at hret
  rw [bind_apply, hcmd] at hret
  dsimp only at hret
  split at hret
  · cases hret
  split at hret
  · cases hret
  split at hret
  · cases hret
  next hsize hallocated hcopied =>
    exact ⟨hsize, not_not.mp hallocated, not_not.mp hcopied⟩

/-- What a long packet writes, if it is sent with success: the payload, as far as the FIFO drains,
and then the header. -/
theorem setCmdInfo_writes (hcmd : cmdInfo.cmd = some payload)
    (hret : (mipiTxDrvSetCmdInfo cmdInfo env d).1 = Hdf.success) :
  ∃ (words : List UInt32) (header : UInt32), (mipiTxDrvSetCmdInfo cmdInfo env d).2.writes
      = d.writes ++ (words.map (Prod.mk .genPldData) ++ [(.genHdr, header)])
    ∧ wordCount header = cmdInfo.cmdSize.toNat
    ∧ (Drains ((cmdInfo.cmdSize.toNat + 3) / 4) (d.skip 2).input
        ∧ Packed payload cmdInfo.cmdSize.toNat words
      ∨ ¬Drains ((cmdInfo.cmdSize.toNat + 3) / 4) (d.skip 2).input
        ∧ words.length < (cmdInfo.cmdSize.toNat + 3) / 4)
  := by
  obtain ⟨words, hwrites, hsent⟩ := payloadSent payload cmdInfo.cmdSize.toNat (d.skip 1)
  rw [Device.skip_skip] at hwrites hsent
  obtain ⟨hsize, hallocated, hcopied⟩ := checks_of_success hcmd hret
  rw [setCmdInfo_eq hcmd hsize hallocated hcopied, sendHeader_writes]
  refine ⟨words, packetHeader cmdInfo (d.input 0 .genHdr), ?_,
    wordCount_packetHeader cmdInfo _, hsent⟩
  rw [← List.append_assoc]
  exact congrArg (· ++ _) hwrites

/-- The words of a packet are determined by its writes. -/
theorem words_inj {words' : List UInt32} {header' : UInt32}
    (h : words.map (Prod.mk Reg.genPldData) ++ [(.genHdr, header)]
      = words'.map (Prod.mk .genPldData) ++ [(.genHdr, header')]) :
  words = words'
  := by
  have hmap := List.append_inj_left' h rfl
  exact (List.map_inj_right fun _ _ heq => (Prod.mk.inj heq).2).mp hmap

/-- A packet that is sent with success is complete exactly if the FIFO drains for each of its
words. -/
theorem setCmdInfo_transfers_iff (hcmd : cmdInfo.cmd = some payload)
    (hret : (mipiTxDrvSetCmdInfo cmdInfo env d).1 = Hdf.success) :
  (∃ ws, (mipiTxDrvSetCmdInfo cmdInfo env d).2.writes = d.writes ++ ws
      ∧ Transfers payload cmdInfo.cmdSize.toNat ws)
    ↔ Drains ((cmdInfo.cmdSize.toNat + 3) / 4) fun k => d.input (k + 2)
  := by
  obtain ⟨words, header, hwrites, hcount, hsent⟩ := setCmdInfo_writes hcmd hret
  constructor
  · rintro ⟨ws, hws, words', header', rfl, -, hpacked, -⟩
    obtain ⟨hdrains, -⟩ | ⟨-, hlt⟩ := hsent
    · exact hdrains
    · -- the packet has fewer words than its payload
      rw [hwrites] at hws
      have hwords := words_inj (List.append_cancel_left hws)
      rw [hwords, hpacked.1] at hlt
      exact absurd hlt (Nat.lt_irrefl _)
  · intro hdrains
    obtain ⟨-, hpacked⟩ | ⟨hnot, -⟩ := hsent
    · refine ⟨_, hwrites, words, header, rfl, hcount, hpacked, fun d' hfeeds => ?_⟩
      exact (getReadFifoData_iff _ d').mpr ⟨words, hfeeds, hpacked.1, hpacked.2.symm⟩
    · exact absurd hdrains hnot

variable {s t : MipiTx} {dataType n : UInt16}

/-- The driver is asked for a long packet that passes the checks. -/
theorem hi35xxSetCmd_run (hn : 2 < n) :
  (hi35xxSetCmd (some ⟨dataType, n, some payload⟩) env).run s
    = (if mipiTxCheckSetCmdInfo s.enHsMode s.enCfg ⟨0, dataType, n, some payload⟩ ≠ Hdf.success
      then pure (mipiTxCheckSetCmdInfo s.enHsMode s.enCfg ⟨0, dataType, n, some payload⟩)
      else onDevice (mipiTxDrvSetCmdInfo ⟨0, dataType, n, some payload⟩ env) :
        Exec MipiTx Int).run s
  := by
  have hlong : hi35xxSetCmd (some ⟨dataType, n, some payload⟩) env
      = mipiTxSetCmd ⟨0, dataType, n, some payload⟩ env := if_pos hn
  rw [hlong]
  rfl

/-- A long packet that `Hi35xxSetCmd` sends with success has passed the checks. -/
theorem hi35xxSetCmd_long (hn : 2 < n)
    (h : (hi35xxSetCmd (some ⟨dataType, n, some payload⟩) env).run s = .ok Hdf.success t) :
  (mipiTxDrvSetCmdInfo ⟨0, dataType, n, some payload⟩ env s.device).1 = Hdf.success
    ∧ t.device = (mipiTxDrvSetCmdInfo ⟨0, dataType, n, some payload⟩ env s.device).2
  := by
  rw [hi35xxSetCmd_run hn] at h
  split at h
  · next hfails => exact absurd (EStateM.Result.ok.inj h).1 hfails
  · obtain ⟨hcode, rfl⟩ := EStateM.Result.ok.inj h
    exact ⟨hcode, rfl⟩

/-- A long packet that passes the checks is sent with success if the driver does so. -/
theorem hi35xxSetCmd_success (hn : 2 < n)
    (hcheck : mipiTxCheckSetCmdInfo s.enHsMode s.enCfg ⟨0, dataType, n, some payload⟩
      = Hdf.success)
    (hret : (mipiTxDrvSetCmdInfo ⟨0, dataType, n, some payload⟩ env s.device).1 = Hdf.success) :
  ∃ t, (hi35xxSetCmd (some ⟨dataType, n, some payload⟩) env).run s = .ok Hdf.success t
  := by
  rw [hi35xxSetCmd_run hn, if_neg (not_not.mpr hcheck)]
  exact ⟨_, congrArg (EStateM.Result.ok · _) hret⟩

/-- A long packet that `Hi35xxSetCmd` sends with success is complete exactly if, for each of its
words, the FIFO is seen not full in time. -/
theorem setCmd_transfers_iff (hn : 2 < n)
    (h : (hi35xxSetCmd (some ⟨dataType, n, some payload⟩) env).run s = .ok Hdf.success t) :
  (∃ ws, t.device.writes = s.device.writes ++ ws ∧ Transfers payload n.toNat ws)
    ↔ Drains ((n.toNat + 3) / 4) fun k => s.device.input (k + 2)
  := by
  obtain ⟨hret, hdevice⟩ := hi35xxSetCmd_long hn h
  rw [hdevice]
  exact setCmdInfo_transfers_iff rfl hret

/-- A driver that is configured and in low-power mode, with registers that read as `status`. -/
def readyDriver (status : Nat → UInt32) : MipiTx :=
  ⟨⟨fun _ => 0, [], fun k _ => status k⟩, true, false, 0⟩

/-- The bytes 0, 1, 2 and so on. -/
def counting (m : Nat) : UInt8 := UInt8.ofNat m

/-- A packet of five bytes, with FIFOs that are empty. -/
theorem setCmd_transfers_five :
  ∃ t, (hi35xxSetCmd (some ⟨0x29, 5, some counting⟩) ⟨true, true, 0⟩).run (readyDriver fun _ => 5)
      = .ok Hdf.success t
    ∧ ∃ ws, t.device.writes = ws ∧ Transfers counting 5 ws
  := by
  obtain ⟨t, hrun⟩ : ∃ t, (hi35xxSetCmd (some ⟨0x29, 5, some counting⟩) ⟨true, true, 0⟩).run
      (readyDriver fun _ => 5) = .ok Hdf.success t := ⟨_, rfl⟩
  have hturns : TurnsAfter full (fun _ _ => 5) 0 := ⟨nofun, by decide⟩
  have hdrains : Drains 2 fun _ _ => 5 :=
    ⟨0, Nat.zero_le _, hturns, 0, Nat.zero_le _, hturns, trivial⟩
  exact ⟨t, hrun, (setCmd_transfers_iff (by decide) hrun).mpr hdrains⟩

/-- The status of a FIFO that is full for 1002 reads after the first two, and then empty. -/
def lateStatus (k : Nat) : UInt32 := if k < 1004 then 8 else 5

theorem lateStatus_full {i : Nat} (hi : i < mipiTxReadTimeoutCnt + 1) :
  full (lateStatus (i + 2))
  := by
  have hlate : lateStatus (i + 2) = 8 :=
    if_pos (Nat.lt_trans (Nat.add_lt_add_right hi 2) (by decide))
  rw [hlate]
  decide

theorem lateStatus_empty {i : Nat} (hi : 1004 ≤ i) :
  lateStatus i = 5
  := if_neg (Nat.not_lt.mpr hi)

/-- The header is sent with success when the FIFOs are empty. -/
theorem sendHeader_success (genHdr : UInt32) (h : ∀ k, d.input k .cmdPktStatus = 5) :
  (sendHeader cmdInfo genHdr d).1 = Hdf.success
  := by
  let d₁ : Device Reg UInt32 :=
    ((write .genHdr (packetHeader cmdInfo genHdr) : DeviceM Reg UInt32 Unit) d).2
  have hturns (bit : UInt32 → Bool) (hbit : ¬bit 5) : TurnsAfter bit d₁.input 0
      ∧ TurnsAfter bit (d₁.skip 1).input 0 :=
    ⟨⟨nofun, (h 0).symm ▸ hbit⟩, nofun, (h 1).symm ▸ hbit⟩
  have hwait : mipiTxWaitCmdFifoEmpty d₁ = (Hdf.success, d₁.skip 1) :=
    waitStatus_of_turnsAfter (hturns _ (by decide)).1 (by decide)
  have hwait' : mipiTxWaitWriteFifoEmpty (d₁.skip 1) = (Hdf.success, (d₁.skip 1).skip 1) :=
    waitStatus_of_turnsAfter (hturns _ (by decide)).2 (by decide)
  have hrun : (sendHeader cmdInfo genHdr d).1
      = ((if (mipiTxWaitCmdFifoEmpty d₁).1 ≠ Hdf.success then pure Hdf.failure
        else do
          let ret ← mipiTxWaitWriteFifoEmpty
          if ret ≠ Hdf.success then pure Hdf.failure else pure Hdf.success :
          DeviceM Reg UInt32 Int) (mipiTxWaitCmdFifoEmpty d₁).2).1 := rfl
  rw [hrun, hwait, if_neg (not_not.mpr rfl), bind_apply, hwait', if_neg (not_not.mpr rfl)]
  rfl

/-- A payload of three bytes is given up. -/
theorem setPayloadData_late
    (h : ∀ i < mipiTxReadTimeoutCnt + 1, full (d.input (i + 1) .cmdPktStatus)) :
  (mipiTxDrvSetPayloadData payload 3 d).2 = d.skip 1003
  := by
  have hwait : mipiTxWaitWriteFifoNotFull (d.skip 1) = (Hdf.errTimeout, (d.skip 1).skip 1002) :=
    waitStatus_of_busy h
  have hrest : (mipiTxDrvSetPayloadData payload 3 d).2
      = (setPayloadRest payload 0 3 (d.input 0 .genPldData) (d.skip 1)).2 := rfl
  rw [hrest]
  unfold setPayloadRest
  rw [if_neg (by decide), bind_apply, hwait, if_pos timeout_ne]
  exact Device.skip_skip d 1 1002

/-- A packet of three bytes whose word is given up is reported as sent, without its payload. -/
theorem setCmd_not_transfers :
  ∃ t, (hi35xxSetCmd (some ⟨0x29, 3, some counting⟩) ⟨true, true, 0⟩).run (readyDriver lateStatus)
      = .ok Hdf.success t
    ∧ ¬∃ ws, t.device.writes = ws ∧ Transfers counting 3 ws
  := by
  have hfull : ∀ i < mipiTxReadTimeoutCnt + 1,
      full ((readyDriver lateStatus).device.input (i + 2) .cmdPktStatus) :=
    fun i hi => lateStatus_full hi
  have hpayload : (mipiTxDrvSetPayloadData counting (3 : UInt16).toNat
      ((readyDriver lateStatus).device.skip 1)).2
        = ((readyDriver lateStatus).device.skip 1).skip 1003 :=
    setPayloadData_late (d := (readyDriver lateStatus).device.skip 1) hfull
  have hret : (mipiTxDrvSetCmdInfo ⟨0, 0x29, 3, some counting⟩ ⟨true, true, 0⟩
      (readyDriver lateStatus).device).1 = Hdf.success := by
    rw [setCmdInfo_eq rfl (by decide) rfl rfl, hpayload, Device.skip_skip]
    apply sendHeader_success
    intro k
    unfold Device.skip readyDriver
    dsimp only
    apply lateStatus_empty
    omega
  obtain ⟨t, hrun⟩ := hi35xxSetCmd_success (s := readyDriver lateStatus) (by decide) (by decide)
    hret
  refine ⟨t, hrun, ?_⟩
  rintro ⟨ws, hws, htransfers⟩
  obtain ⟨-, hdevice⟩ := hi35xxSetCmd_long (by decide) hrun
  rw [hdevice] at hws
  have hdrains := (setCmdInfo_transfers_iff rfl hret).mp ⟨ws, hws, htransfers⟩
  exact not_drains_of_busy hfull hdrains

end Long

end MipiDsi
