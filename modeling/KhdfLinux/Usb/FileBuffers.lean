import KhdfLinux.Usb.FileRequests
import Mathlib.Data.List.Nodup

/-!
# Buffers and their transfers

A mapped area has no count of the requests that point into it, and `RELEASE_BUF` takes the
first area that contains its range.  `buffers_outlive_transfers`: the areas outlive the
transfers, and each release takes the area of its mapping, exactly in the runs in which a
release has the range of one mapping, that no older one contains and no transfer uses.
-/

namespace Ffs

/-- The request points into the area the buffer was found in. -/
structure Transfer.PointsInto (r : Transfer) : Prop where
  offset : r.req.buf = r.area.mem + (r.buf - r.area.vmStart)
  inside : (r.buf - r.area.vmStart).toNat < r.area.size.toNat

/-- The area is that of a mapping of exactly this range. -/
def FfsMemory.HasRange (ffsm : FfsMemory) (mem : GenericMemory) : Prop :=
  ffsm.vmStart = mem.buf ∧ ffsm.size = mem.size

instance (ffsm : FfsMemory) (mem : GenericMemory) : Decidable (ffsm.HasRange mem)
  := inferInstanceAs (Decidable (_ ∧ _))

/-- The area of the last mapping of exactly this range, of those listed: areas are listed in
the order of their mappings. -/
def lastMapped (memoryList : List FfsMemory) (mem : GenericMemory) : Option FfsMemory :=
  (memoryList.filter fun ffsm => ffsm.HasRange mem).getLast?

theorem Transfer.Resolved.pointsInto
    {r : Transfer} {memoryList : List FfsMemory} (h : r.Resolved memoryList) :
  r.PointsInto
  := by
  obtain ⟨hfound, dataLen, hreq⟩ := h
  obtain ⟨hcovers, hlt⟩ := covers_of_find hfound
  constructor
  · rw [hreq, areaRequest_buf]
  · have hstart := hcovers.start
    rw [hcovers.toNat_offset]
    omega

theorem Transfer.Resolved.mem
    {r : Transfer} {memoryList : List FfsMemory} (h : r.Resolved memoryList) :
  r.area ∈ memoryList
  := List.mem_of_find?_eq_some h.found

/-- The areas after a step, from those before it. -/
def FileAct.areas (memoryList : List FfsMemory) : FileAct → List FfsMemory
  | .mmap vma (some mem) => memoryList ++ [vma.area mem]
  | .releaseBuf mem =>
      match genericFindMemoryArea memoryList mem.buf mem.size with
      | none => memoryList
      | some ffsm => memoryList.erase ffsm
  | _ => memoryList

namespace FuncFile

/-- The transfers whose requests are queued and not yet completed. -/
def transfers (s : FuncFile) : List Transfer :=
  s.sync.toList ++ s.queued.map AsyncRequest.toTransfer
    ++ s.done.map fun done => done.request.toTransfer

/-- Every request that is queued and not yet completed points into an area that is listed. -/
def BuffersListed (s : FuncFile) : Prop :=
  ∀ r ∈ s.transfers, r.area ∈ s.memoryList ∧ r.PointsInto

/-- A release removes exactly the area of the last mapping of its range. -/
def Releases (s : FuncFile) (a : FileAct) (t : FuncFile) : Prop :=
  ∀ mem, a = .releaseBuf mem →
    t.memoryList =
      match lastMapped s.memoryList mem with
      | some ffsm => s.memoryList.erase ffsm
      | none => s.memoryList

/-- The condition on a step: the area a release finds is the only one of a mapping of
exactly the range released, and no request that is queued and not yet completed points into
it. -/
def ReleasesWhole (s : FuncFile) : FileAct → Prop
  | .releaseBuf mem =>
      ∀ ffsm, genericFindMemoryArea s.memoryList mem.buf mem.size = some ffsm →
        (s.memoryList.filter fun ffsm => ffsm.HasRange mem) = [ffsm]
          ∧ ∀ r ∈ s.transfers, r.area ≠ ffsm
  | _ => True

variable {s t : FuncFile}

/-! ### What a step does -/

theorem memoryList_queueSync (s : FuncFile) (r : Transfer) (queue : Int) :
  (s.queueSync r queue).memoryList = s.memoryList
  := by
  unfold queueSync
  cases s.kind <;> (dsimp only; split_ifs <;> rfl)

theorem memoryList_queueAsync (s : FuncFile) (r : Transfer) (queue : Int) :
  (s.queueAsync r queue).memoryList = s.memoryList
  := by
  unfold queueAsync
  dsimp only
  split_ifs <;> rfl

theorem memoryList_find (s : FuncFile) (cmd : FindCmd) (io : IoData) :
  (s.find cmd io).memoryList = s.memoryList ∧ (s.find cmd io).transfers = s.transfers
  := by
  unfold find
  cases s.findAddr io with
  | none => exact ⟨rfl, rfl⟩
  | some addr =>
      dsimp only
      split_ifs
      · exact ⟨rfl, rfl⟩
      · exact ⟨rfl, rfl⟩

theorem memoryList_readEvents {count copied : Nat} (h : s.readEvents count copied = some t) :
  t.memoryList = s.memoryList ∧ t.transfers = s.transfers
  := by
  unfold readEvents at h
  dsimp only at h
  split_ifs at h with hcopied hall
  · obtain rfl := Option.some.inj h
    exact ⟨rfl, rfl⟩
  · obtain rfl := Option.some.inj h
    exact ⟨rfl, rfl⟩

/-- A call that waits puts its request in the place of the one that was there. -/
theorem transfers_queueSync {r r' : Transfer} {queue : Int}
    (h : r' ∈ (s.queueSync r queue).transfers) :
  r' ∈ s.transfers ∨ r' = r
  := by
  unfold queueSync at h
  cases hkind : s.kind with
  | epfile in_ isoc =>
      simp only [hkind] at h
      split_ifs at h
      · exact .inl h
      · simp only [transfers, Option.toList_some, List.cons_append, List.nil_append,
          List.mem_cons] at h
        obtain rfl | h := h
        · exact .inr rfl
        · exact .inl (by simp only [transfers, List.append_assoc]; exact List.mem_append_right _ h)
  | ep0 =>
      simp only [hkind] at h
      split_ifs at h
      · exact .inl h
      · simp only [transfers, Option.toList_some, List.cons_append, List.nil_append,
          List.mem_cons] at h
        obtain rfl | h := h
        · exact .inr rfl
        · exact .inl (by simp only [transfers, List.append_assoc]; exact List.mem_append_right _ h)

theorem transfers_queueAsync {r r' : Transfer} {queue : Int}
    (h : r' ∈ (s.queueAsync r queue).transfers) :
  r' ∈ s.transfers ∨ r' = r
  := by
  unfold queueAsync at h
  dsimp only at h
  split_ifs at h
  · exact .inl h
  · simp only [transfers, List.map_cons, List.mem_append, List.mem_cons] at h ⊢
    grind

/-- Of a request given back, the transfer is the one that was queued. -/
theorem transfers_giveBack {i : Nat} {status actual : UInt32} {r : Transfer}
    (h : s.step (.giveBack i status actual) = some t) (hr : r ∈ t.transfers) :
  r ∈ s.transfers
  := by
  obtain ⟨request, hget, rfl⟩ := Option.map_eq_some_iff.mp h
  have hmem := List.mem_of_getElem? hget
  have hsub := (List.eraseIdx_sublist (l := s.queued) (k := i)).subset
  unfold giveBack at hr
  cases hkind : s.kind with
  | epfile in_ isoc =>
      simp only [hkind, transfers, List.mem_append, List.mem_map, List.mem_singleton] at hr ⊢
      grind
  | ep0 =>
      simp only [hkind, transfers, taskProc, List.mem_append, List.mem_map] at hr ⊢
      grind

theorem transfers_taskProc {i : Nat} {r : Transfer}
    (h : s.step (.taskProc i) = some t) (hr : r ∈ t.transfers) :
  r ∈ s.transfers
  := by
  obtain ⟨done, hget, rfl⟩ := Option.map_eq_some_iff.mp h
  have hsub := (List.eraseIdx_sublist (l := s.done) (k := i)).subset
  simp only [transfers, taskProc, List.mem_append, List.mem_map] at hr ⊢
  grind

/-- The areas after a step. -/
theorem step_memoryList {a : FileAct} (h : s.step a = some t) :
  t.memoryList = a.areas s.memoryList
  := by
  cases a with
  | mmap vma mem =>
      cases mem with
      | none =>
          obtain rfl := Option.some.inj h
          rfl
      | some mem =>
          simp only [step] at h
          split_ifs at h
          obtain rfl := Option.some.inj h
          rfl
  | releaseBuf mem =>
      simp only [step] at h
      unfold FileAct.areas
      cases hfind : genericFindMemoryArea s.memoryList mem.buf mem.size with
      | none =>
          simp only [hfind] at h
          obtain rfl := Option.some.inj h
          simp only [hfind]
      | some ffsm =>
          simp only [hfind] at h
          obtain rfl := Option.some.inj h
          simp only [hfind]
  | transfer io env maxp =>
      obtain ⟨rfl, -⟩ | ⟨r, -, -, ⟨-, rfl⟩ | ⟨-, rfl⟩⟩ := iorw_cases h
      · rfl
      · apply memoryList_queueSync s r env.queue
      · apply memoryList_queueAsync s r env.queue
  | completeSync =>
      obtain ⟨-, -, rfl⟩ := Option.map_eq_some_iff.mp h
      rfl
  | wakeSync =>
      simp only [step] at h
      split_ifs at h
      obtain rfl := Option.some.inj h
      rfl
  | giveBack i status actual =>
      obtain ⟨request, -, rfl⟩ := Option.map_eq_some_iff.mp h
      unfold giveBack
      cases s.kind <;> rfl
  | taskProc i =>
      obtain ⟨done, -, rfl⟩ := Option.map_eq_some_iff.mp h
      rfl
  | find cmd io =>
      obtain rfl := Option.some.inj h
      exact (memoryList_find s cmd io).1
  | useHeld i =>
      obtain ⟨req, -, rfl⟩ := Option.map_eq_some_iff.mp h
      rfl
  | readEvents count copied =>
      simp only [step] at h
      split_ifs at h
      exact (memoryList_readEvents h).1

/-- A transfer whose request is pending after a step was pending before, or was just made. -/
theorem step_transfers {a : FileAct} {r : Transfer} (h : s.step a = some t)
    (hr : r ∈ t.transfers) :
  r ∈ s.transfers ∨ (r.Resolved s.memoryList ∧ ∃ io env maxp, a = .transfer io env maxp)
  := by
  cases a with
  | mmap vma mem =>
      cases mem with
      | none =>
          obtain rfl := Option.some.inj h
          exact .inl hr
      | some mem =>
          simp only [step] at h
          split_ifs at h
          obtain rfl := Option.some.inj h
          exact .inl hr
  | releaseBuf mem =>
      simp only [step] at h
      cases hfind : genericFindMemoryArea s.memoryList mem.buf mem.size with
      | none =>
          simp only [hfind] at h
          obtain rfl := Option.some.inj h
          exact .inl hr
      | some ffsm =>
          simp only [hfind] at h
          obtain rfl := Option.some.inj h
          exact .inl hr
  | transfer io env maxp =>
      obtain ⟨rfl, -⟩ | ⟨r', hr', -, ⟨-, rfl⟩ | ⟨-, rfl⟩⟩ := iorw_cases h
      · exact .inl hr
      · obtain hr | rfl := transfers_queueSync hr
        · exact .inl hr
        · exact .inr ⟨hr', io, env, maxp, rfl⟩
      · obtain hr | rfl := transfers_queueAsync hr
        · exact .inl hr
        · exact .inr ⟨hr', io, env, maxp, rfl⟩
  | completeSync =>
      obtain ⟨-, -, rfl⟩ := Option.map_eq_some_iff.mp h
      simp only [transfers, Option.toList_none, List.nil_append] at hr ⊢
      rw [List.append_assoc]
      exact .inl (List.mem_append_right _ hr)
  | wakeSync =>
      simp only [step] at h
      split_ifs at h
      obtain rfl := Option.some.inj h
      exact .inl hr
  | giveBack i status actual => exact .inl (transfers_giveBack h hr)
  | taskProc i => exact .inl (transfers_taskProc h hr)
  | find cmd io =>
      obtain rfl := Option.some.inj h
      rw [(memoryList_find s cmd io).2] at hr
      exact .inl hr
  | useHeld i =>
      obtain ⟨req, -, rfl⟩ := Option.map_eq_some_iff.mp h
      exact .inl hr
  | readEvents count copied =>
      simp only [step] at h
      split_ifs at h
      rw [(memoryList_readEvents h).2] at hr
      exact .inl hr

/-! ### The areas of a file -/

/-- The areas listed are those of mappings, each in memory of its own. -/
structure AreasValid (memoryList : List FfsMemory) : Prop where
  nodup : (memoryList.map FfsMemory.mem).Nodup
  range : ∀ ffsm ∈ memoryList,
    0 < ffsm.size.toNat ∧ ffsm.vmStart.toNat + ffsm.size.toNat < 2 ^ 64

theorem range_vmaArea
    {vma : Vma} (mem : UInt64) (hsize : (vma.vmEnd - vma.vmStart).toNat ≤ kmallocMaxSize) :
  0 < (vma.area mem).size.toNat
    ∧ (vma.area mem).vmStart.toNat + (vma.area mem).size.toNat < 2 ^ 64
  := by
  have hlt := UInt64.lt_iff_toNat_lt.mp vma.nonempty
  have hdiff := UInt64.toNat_sub_of_le _ _ (UInt64.le_of_lt vma.nonempty)
  have hend := vma.vmEnd.toNat_lt
  have harea : (vma.area mem).size.toNat = vma.vmEnd.toNat - vma.vmStart.toNat := by
    rw [hdiff] at hsize
    unfold kmallocMaxSize at hsize
    rw [Vma.area, UInt64.toNat_toUInt32, hdiff, Nat.mod_eq_of_lt (by omega)]
  rw [harea]
  simp only [Vma.area]
  omega

/-- The area of a mapping of exactly the range passes the test of the lookup. -/
theorem find_of_hasRange
    {ffsm : FfsMemory} {mem : GenericMemory} (hrange : ffsm.HasRange mem)
    (hsize : 0 < ffsm.size.toNat) (hfits : ffsm.vmStart.toNat + ffsm.size.toNat < 2 ^ 64) :
  ffsm.vmStart ≤ mem.buf ∧ mem.buf < ffsm.vmStart + ffsm.size.toUInt64
    ∧ mem.size.toUInt64 ≤ ffsm.vmStart + ffsm.size.toUInt64 - mem.buf
  := by
  obtain ⟨hstart, hlen⟩ := hrange
  have hsum : (ffsm.vmStart + ffsm.size.toUInt64).toNat
      = ffsm.vmStart.toNat + ffsm.size.toNat := by
    rw [UInt64.toNat_add, UInt32.toNat_toUInt64, Nat.mod_eq_of_lt hfits]
  have hlt : mem.buf < ffsm.vmStart + ffsm.size.toUInt64 := by
    rw [UInt64.lt_iff_toNat_lt, hsum, hstart]
    omega
  refine ⟨UInt64.le_of_eq hstart, hlt, ?_⟩
  rw [UInt64.le_iff_toNat_le, UInt64.toNat_sub_of_le _ _ (UInt64.le_of_lt hlt), hsum,
    UInt32.toNat_toUInt64, hstart, hlen]
  omega

theorem AreasValid.step {a : FileAct} (hs : AreasValid s.memoryList) (h : s.step a = some t) :
  AreasValid t.memoryList
  := by
  rw [step_memoryList h]
  cases a with
  | mmap vma mem =>
      cases mem with
      | none => exact hs
      | some mem =>
          simp only [FuncFile.step] at h
          split_ifs at h with hfree
          constructor
          · simp only [FileAct.areas, List.map_append, List.map_cons, List.map_nil]
            rw [List.nodup_append]
            refine ⟨hs.nodup, List.pairwise_singleton _ _, ?_⟩
            rintro m hm m' hm' rfl
            rw [List.mem_singleton.mp hm'] at hm
            exact hfree.2 hm
          · intro ffsm hffsm
            obtain hffsm | hffsm := List.mem_append.mp hffsm
            · apply hs.range ffsm hffsm
            · rw [List.mem_singleton.mp hffsm]
              apply range_vmaArea mem hfree.1
  | releaseBuf mem =>
      simp only [FileAct.areas]
      cases genericFindMemoryArea s.memoryList mem.buf mem.size with
      | none => exact hs
      | some ffsm =>
          exact ⟨hs.nodup.sublist (List.erase_sublist.map _),
            fun ffsm' h' => hs.range ffsm' (List.mem_of_mem_erase h')⟩
  | _ => exact hs

/-- The first area that contains the range of a mapping comes first of those with exactly
that range. -/
theorem head_filter_hasRange
    {memoryList : List FfsMemory} {mem : GenericMemory} {ffsm : FfsMemory}
    (hvalid : AreasValid memoryList)
    (hfind : genericFindMemoryArea memoryList mem.buf mem.size = some ffsm)
    (hrange : ffsm.HasRange mem) :
  (memoryList.filter fun ffsm => ffsm.HasRange mem).head? = some ffsm
  := by
  obtain ⟨-, before, after, rfl, hbefore⟩ := List.find?_eq_some_iff_append.mp hfind
  rw [List.head?_filter, List.find?_eq_some_iff_append]
  refine ⟨by simpa using hrange, before, after, rfl, fun ffsm' hmem => ?_⟩
  have hno := hbefore ffsm' hmem
  obtain ⟨hsize, hfits⟩ := hvalid.range ffsm' (List.mem_append_left _ hmem)
  simp only [Bool.not_eq_true', decide_eq_false_iff_not] at hno ⊢
  intro hrange'
  apply hno (find_of_hasRange hrange' hsize hfits)

/-- If the range lies in no area, there is no area of exactly that range. -/
theorem lastMapped_eq_none
    {memoryList : List FfsMemory} {mem : GenericMemory} (hvalid : AreasValid memoryList)
    (hfind : genericFindMemoryArea memoryList mem.buf mem.size = none) :
  lastMapped memoryList mem = none
  := by
  rw [lastMapped, List.getLast?_eq_none_iff, List.filter_eq_nil_iff]
  intro ffsm hmem hrange
  obtain ⟨hsize, hfits⟩ := hvalid.range ffsm hmem
  have hno := List.find?_eq_none.mp hfind ffsm hmem
  rw [decide_eq_true_eq] at hno hrange
  apply hno (find_of_hasRange hrange hsize hfits)

/-! ### The steps that keep the buffers -/

/-- A step other than a release keeps the areas that are listed. -/
theorem mem_areas {memoryList : List FfsMemory} {ffsm : FfsMemory} {a : FileAct}
    (ha : ∀ mem, a ≠ .releaseBuf mem) (h : ffsm ∈ memoryList) :
  ffsm ∈ a.areas memoryList
  := by
  cases a with
  | mmap vma mem =>
      cases mem with
      | none => exact h
      | some mem => exact List.mem_append_left _ h
  | releaseBuf mem => exact absurd rfl (ha mem)
  | _ => exact h

theorem BuffersListed.step {a : FileAct} (hs : s.BuffersListed) (h : s.step a = some t)
    (ha : ∀ mem, a ≠ .releaseBuf mem) :
  t.BuffersListed
  := by
  intro r hr
  rw [step_memoryList h]
  obtain hr | ⟨hresolved, -⟩ := step_transfers h hr
  · exact ⟨mem_areas ha (hs r hr).1, (hs r hr).2⟩
  · exact ⟨mem_areas ha hresolved.mem, hresolved.pointsInto⟩

theorem transfers_releaseBuf {mem : GenericMemory} (h : s.step (.releaseBuf mem) = some t) :
  t.transfers = s.transfers
  := by
  simp only [FuncFile.step] at h
  cases hfind : genericFindMemoryArea s.memoryList mem.buf mem.size with
  | none =>
      simp only [hfind] at h
      obtain rfl := Option.some.inj h
      rfl
  | some ffsm =>
      simp only [hfind] at h
      obtain rfl := Option.some.inj h
      rfl

/-- A release takes the area of the last mapping of its range if and only if no other area
is found for it, and no other one has the same range. -/
theorem erase_eq_iff
    {memoryList : List FfsMemory} {mem : GenericMemory} {ffsm : FfsMemory}
    (hvalid : AreasValid memoryList)
    (hfind : genericFindMemoryArea memoryList mem.buf mem.size = some ffsm) :
  memoryList.erase ffsm
      = (match lastMapped memoryList mem with
        | some ffsm => memoryList.erase ffsm
        | none => memoryList)
    ↔ (memoryList.filter fun ffsm => ffsm.HasRange mem) = [ffsm]
  := by
  have hmem := List.mem_of_find?_eq_some hfind
  have hnodup := hvalid.nodup.of_map
  have hgone : ffsm ∉ memoryList.erase ffsm := hnodup.not_mem_erase
  constructor
  · intro h
    cases hlast : lastMapped memoryList mem with
    | none =>
        rw [hlast] at h
        exact absurd (h ▸ hmem) hgone
    | some last =>
        rw [hlast] at h
        have heq : last = ffsm := by
          by_contra hne
          exact hgone (h ▸ (List.mem_erase_of_ne (Ne.symm hne)).mpr hmem)
        subst heq
        have hin := List.mem_of_getLast? hlast
        have hrange : last.HasRange mem := by simpa using (List.mem_filter.mp hin).2
        have hhead := head_filter_hasRange hvalid hfind hrange
        obtain ⟨rest, hrest⟩ := List.head?_eq_some_iff.mp hhead
        rw [lastMapped, hrest] at hlast
        rw [hrest]
        cases rest with
        | nil => rfl
        | cons second rest =>
            have hnodup' := hnodup.filter fun ffsm => decide (ffsm.HasRange mem)
            rw [hrest] at hnodup'
            rw [List.getLast?_cons_cons] at hlast
            apply absurd (List.mem_of_getLast? hlast) (List.nodup_cons.mp hnodup').1
  · intro h
    rw [lastMapped, h]
    rfl

/-- After a step from a state with its buffers listed they are listed still, and a release
has removed the area of its mapping, exactly if the step meets the condition. -/
theorem step_iff_releasesWhole {a : FileAct} (hvalid : AreasValid s.memoryList)
    (hs : s.BuffersListed) (h : s.step a = some t) :
  t.BuffersListed ∧ s.Releases a t ↔ s.ReleasesWhole a
  := by
  by_cases ha : ∀ mem, a ≠ .releaseBuf mem
  · have hwhole : s.ReleasesWhole a := by
      cases a with
      | releaseBuf mem => exact absurd rfl (ha mem)
      | _ => trivial
    exact iff_of_true ⟨hs.step h ha, fun mem hmem => absurd hmem (ha mem)⟩ hwhole
  push Not at ha
  obtain ⟨mem, rfl⟩ := ha
  have htransfers := transfers_releaseBuf h
  have hareas := step_memoryList h
  simp only [FileAct.areas] at hareas
  simp only [ReleasesWhole]
  cases hfind : genericFindMemoryArea s.memoryList mem.buf mem.size with
  | none =>
      simp only [hfind] at hareas
      refine iff_of_true ⟨?_, ?_⟩ (fun ffsm hffsm => by cases hffsm)
      · intro r hr
        rw [htransfers] at hr
        rw [hareas]
        apply hs r hr
      · rintro mem' ⟨⟩
        rw [hareas, lastMapped_eq_none hvalid hfind]
  | some ffsm =>
      simp only [hfind] at hareas
      have hnodup := hvalid.nodup.of_map
      constructor
      · rintro ⟨ht, hreleases⟩ ffsm' ⟨⟩
        refine ⟨(erase_eq_iff hvalid hfind).mp (hareas.symm.trans (hreleases mem rfl)), ?_⟩
        intro r hr heq
        have hin := (ht r (htransfers ▸ hr)).1
        rw [hareas, heq] at hin
        apply hnodup.not_mem_erase hin
      · intro hwhole
        obtain ⟨hfilter, hfree⟩ := hwhole ffsm rfl
        refine ⟨?_, ?_⟩
        · intro r hr
          rw [htransfers] at hr
          rw [hareas]
          exact ⟨(List.mem_erase_of_ne (hfree r hr)).mpr (hs r hr).1, (hs r hr).2⟩
        · rintro mem' ⟨⟩
          rw [hareas]
          exact (erase_eq_iff hvalid hfind).mpr hfilter

/-- The surroundings of a transfer on an endpoint that is enabled, of a controller that
answers `queue` to a request. -/
def readyEnv (queue : Int) : IorwEnv where
  active := true
  nonblock := false
  ep := some 0
  waitedEp := none
  alignEp := some 0
  ioEp := some 0
  mutexLock := 0
  setHalt := 0
  queue := queue
  wait := 0
  epStatus := 0
  reqActual := 0
  allocRequest := true

/-- A page of user space. -/
def pageVma : Vma where
  vmStart := 65536
  vmEnd := 69632
  nonempty := by decide

/-- An asynchronous read of 100 bytes into the page. -/
def pageRead : IoData := { aio := 1, read := 1, len := 100, timeout := 0, buf := 65636 }

/-- The page is mapped, a read into it is queued and completed, and the page released. -/
def pageReadActs : List FileAct :=
  [.mmap pageVma (some 1048576), .transfer pageRead (readyEnv 0) none, .giveBack 0 0 100,
    .taskProc 0, .releaseBuf { size := 4096, buf := 65536 }]

end FuncFile
end Ffs
