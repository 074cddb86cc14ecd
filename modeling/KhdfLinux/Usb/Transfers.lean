import KhdfLinux.Usb.Epfile

/-!
# The requests of transfers

The requests `ffsEpfileIorw` and `ffs_ep0_iorw` hand to `usb_ep_queue`, and where they
point.  `queued_request_iff` says when a request lies inside the mapped area its buffer was
found in: always, unless the length was rounded up to more than what is left of the area.
-/

namespace Ffs

/-- The part of `struct usb_request` a transfer sets. -/
structure UsbRequest where
  buf : UInt64
  length : UInt32
  deriving DecidableEq, Repr

/-- `usb_ep_align_maybe`: `maxp` is the packet size of the endpoint if the controller wants
the buffers of OUT transfers aligned. -/
def usbEpAlignMaybe (maxp : Option Nat) (len : Nat) : Nat :=
  match maxp with
  | none => len
  | some maxp => (len + maxp - 1) / maxp * maxp

/-- The request for the `dataLen` bytes from `buf` on, in the area. -/
def areaRequest (ffsm : FfsMemory) (buf : UInt64) (dataLen : Nat) : UsbRequest where
  buf := ffsm.mem + buf - ffsm.vmStart
  length := UInt32.ofNat dataLen

/-- `data_len` in `ffs_epfile_iorw`. -/
def epfileDataLen (io : IoData) (maxp : Option Nat) : Nat :=
  if io.read ≠ 0 then usbEpAlignMaybe maxp io.len.toNat else io.len.toNat

/-- The request `ffs_epfile_iorw` hands to `usb_ep_queue`, if the call comes to that. -/
def ffsEpfileIorwRequest (epfile : Epfile) (io : IoData) (env : IorwEnv) (maxp : Option Nat) :
    Option UsbRequest :=
  if ¬env.active then
    none
  else
    match env.waitEp with
    | .error _ => none
    | .ok ep =>
        if isHalt epfile io then
          -- the endpoint is halted instead
          none
        else if env.mutexLock ≠ 0 ∨ env.alignEp ≠ some ep then
          none
        else
          match genericFindMemoryArea epfile.memoryList io.buf io.len with
          | none => none
          | some ffsm =>
              if env.ioEp ≠ some ep then
                none
              else if io.aio ≠ 0 ∧ ¬env.allocRequest then
                none
              else
                some (areaRequest ffsm io.buf (epfileDataLen io maxp))

/-- The request `ffs_ep0_iorw` hands to `usb_ep_queue`, if the call comes to that. -/
def ffsEp0IorwRequest (memoryList : List FfsMemory) (io : IoData) (active allocRequest : Bool) :
    Option UsbRequest :=
  if ¬active then
    none
  else
    -- `generic_find_ep0_memory_area` makes the same tests
    match genericFindMemoryArea memoryList io.buf io.len with
    | none => none
    | some ffsm =>
        if io.aio ≠ 0 ∧ ¬allocRequest then none else some (areaRequest ffsm io.buf io.len.toNat)

/-! ### The area of a buffer -/

/-- The user range lies in the range of the area. -/
structure FfsMemory.Covers (ffsm : FfsMemory) (buf : UInt64) (len : UInt32) : Prop where
  start : ffsm.vmStart.toNat ≤ buf.toNat
  stop : buf.toNat + len.toNat ≤ ffsm.vmStart.toNat + ffsm.size.toNat
  fits : ffsm.vmStart.toNat + ffsm.size.toNat < 2 ^ 64

/-- The area is that of a mapping which ends at `vmEnd`: `mmap` stores the low word of the
size. -/
def FfsMemory.Mapped (ffsm : FfsMemory) : Prop :=
  ∃ vmEnd : UInt64, ffsm.vmStart ≤ vmEnd ∧ ffsm.size = (vmEnd - ffsm.vmStart).toUInt32

/-- None of the sums and differences wraps that the lookup computes for the area: the end of
the area, and what is left of the area from `buf` on. -/
structure FfsMemory.Exact (ffsm : FfsMemory) (buf : UInt64) : Prop where
  sum : (ffsm.vmStart + ffsm.size.toUInt64).toNat = ffsm.vmStart.toNat + ffsm.size.toNat
  difference : buf < ffsm.vmStart + ffsm.size.toUInt64 →
    (ffsm.vmStart + ffsm.size.toUInt64 - buf).toNat
      = ffsm.vmStart.toNat + ffsm.size.toNat - buf.toNat

/-- The request lies in the area, at the offset of `buf`. -/
structure UsbRequest.InArea (req : UsbRequest) (ffsm : FfsMemory) (buf : UInt64) : Prop where
  offset : req.buf = ffsm.mem + (buf - ffsm.vmStart)
  fits : (buf - ffsm.vmStart).toNat + req.length.toNat ≤ ffsm.size.toNat

section Area

variable {memoryList : List FfsMemory} {ffsm : FfsMemory} {buf : UInt64} {len : UInt32}

/-- The area found covers the user range, which starts before its end. -/
theorem covers_of_find (h : genericFindMemoryArea memoryList buf len = some ffsm) :
  ffsm.Covers buf len ∧ buf.toNat < ffsm.vmStart.toNat + ffsm.size.toNat
  := by
  have hf := List.find?_some h
  simp only [decide_eq_true_eq] at hf
  obtain ⟨h₁, h₂, h₃⟩ := hf
  have h₂' := UInt64.le_of_lt h₂
  rw [UInt64.le_iff_toNat_le] at h₁ h₃
  rw [UInt64.lt_iff_toNat_lt, UInt64.toNat_add] at h₂
  rw [UInt64.toNat_sub_of_le _ _ h₂', UInt64.toNat_add] at h₃
  simp only [UInt32.toNat_toUInt64] at h₂ h₃
  have := ffsm.size.toNat_lt
  have := ffsm.vmStart.toNat_lt
  have := buf.toNat_lt
  refine ⟨⟨h₁, ?_, ?_⟩, ?_⟩
  · omega
  · omega
  · omega

/-- The lookup computes exactly on areas that were mapped. -/
theorem FfsMemory.Mapped.exact (h : ffsm.Mapped) (buf : UInt64) : ffsm.Exact buf
  := by
  obtain ⟨vmEnd, hle, hsize⟩ := h
  have hdiff := UInt64.toNat_sub_of_le _ _ hle
  have hend := vmEnd.toNat_lt
  have hlow : ffsm.size.toNat ≤ vmEnd.toNat - ffsm.vmStart.toNat := by
    rw [hsize, UInt64.toNat_toUInt32, hdiff]
    apply Nat.mod_le _ _
  rw [UInt64.le_iff_toNat_le] at hle
  have hsum : (ffsm.vmStart + ffsm.size.toUInt64).toNat
      = ffsm.vmStart.toNat + ffsm.size.toNat := by
    rw [UInt64.toNat_add, UInt32.toNat_toUInt64, Nat.mod_eq_of_lt (by omega)]
  refine ⟨hsum, fun hlt => ?_⟩
  rw [UInt64.toNat_sub_of_le _ _ (UInt64.le_of_lt hlt), hsum]

/-- The offset of the buffer. -/
theorem FfsMemory.Covers.toNat_offset (h : ffsm.Covers buf len) :
  (buf - ffsm.vmStart).toNat = buf.toNat - ffsm.vmStart.toNat
  := UInt64.toNat_sub_of_le _ _ h.start

/-- The offset is that of the buffer: the sum that comes first may wrap, and the difference
makes up for it. -/
theorem areaRequest_buf (ffsm : FfsMemory) (buf : UInt64) (dataLen : Nat) :
  (areaRequest ffsm buf dataLen).buf = ffsm.mem + (buf - ffsm.vmStart)
  := by
  simp only [areaRequest, UInt64.sub_eq_add_neg, UInt64.add_assoc]

/-- The request lies in the area if its length, as a word of 32 bits, does. -/
theorem areaRequest_inArea_iff {dataLen : Nat} :
  (areaRequest ffsm buf dataLen).InArea ffsm buf
    ↔ (buf - ffsm.vmStart).toNat + dataLen % 4294967296 ≤ ffsm.size.toNat
  := by
  have hlen : (areaRequest ffsm buf dataLen).length.toNat = dataLen % 4294967296 :=
    UInt32.toNat_ofNat
  constructor
  · intro h
    rw [← hlen]
    apply h.fits
  · intro h
    rw [← hlen] at h
    exact ⟨areaRequest_buf ffsm buf dataLen, h⟩

/-- A request with the length of the buffer lies in the area of the buffer. -/
theorem areaRequest_inArea (h : ffsm.Covers buf len) :
  (areaRequest ffsm buf len.toNat).InArea ffsm buf
  := by
  have hlen := len.toNat_lt
  have hsize := h.stop
  have hstart := h.start
  rw [areaRequest_inArea_iff, h.toNat_offset, Nat.mod_eq_of_lt hlen]
  omega

end Area

/-! ### The requests queued -/

/-- A call of `ffs_epfile_iorw` or of `ffs_ep0_iorw`. -/
inductive IorwCall where
  | epfile (file : Epfile) (io : IoData) (env : IorwEnv) (maxp : Option Nat)
  | ep0 (memoryList : List FfsMemory) (io : IoData) (active allocRequest : Bool)

namespace IorwCall

/-- The buffer of user space. -/
def io : IorwCall → IoData
  | .epfile _ io _ _ => io
  | .ep0 _ io _ _ => io

/-- The areas of the file. -/
def memoryList : IorwCall → List FfsMemory
  | .epfile file _ _ _ => file.memoryList
  | .ep0 memoryList _ _ _ => memoryList

/-- The area the buffer is found in. -/
def area (call : IorwCall) : Option FfsMemory :=
  genericFindMemoryArea call.memoryList call.io.buf call.io.len

/-- The request handed to `usb_ep_queue`. -/
def request : IorwCall → Option UsbRequest
  | .epfile file io env maxp => ffsEpfileIorwRequest file io env maxp
  | .ep0 memoryList io active allocRequest => ffsEp0IorwRequest memoryList io active allocRequest

/-- `data_len`. -/
def dataLen : IorwCall → Nat
  | .epfile _ io _ maxp => epfileDataLen io maxp
  | .ep0 _ io _ _ => io.len.toNat

/-- Nothing but the lookup keeps a transfer on an endpoint file from the queue. -/
def ReachesQueue (epfile : Epfile) (io : IoData) (env : IorwEnv) : Prop :=
  env.active ∧ ¬isHalt epfile io ∧ env.mutexLock = 0 ∧ (io.aio ≠ 0 → env.allocRequest)
    ∧ ∃ ep, env.waitEp = .ok ep ∧ env.alignEp = some ep ∧ env.ioEp = some ep

/-- The call is a read that reaches the queue of an endpoint whose controller wants aligned
buffers, and the length rounded up, as a word of 32 bits, is more than what is left of the
area of the buffer. -/
def Overruns : IorwCall → Prop
  | .epfile file io env maxp =>
      ReachesQueue file io env ∧ io.read ≠ 0
        ∧ ∃ ffsm p, genericFindMemoryArea file.memoryList io.buf io.len = some ffsm
          ∧ maxp = some p
          ∧ ffsm.size.toNat
            < (io.buf - ffsm.vmStart).toNat + (io.len.toNat + p - 1) / p * p % 4294967296
  | .ep0 _ _ _ _ => False

/-- What `ffs_epfile_iorw` hands to `usb_ep_queue`. -/
theorem ffsEpfileIorwRequest_eq_some_iff {file : Epfile} {io : IoData} {env : IorwEnv}
    {maxp : Option Nat} {req : UsbRequest} :
  ffsEpfileIorwRequest file io env maxp = some req
    ↔ ReachesQueue file io env
      ∧ ∃ ffsm, genericFindMemoryArea file.memoryList io.buf io.len = some ffsm
        ∧ areaRequest ffsm io.buf (epfileDataLen io maxp) = req
  := by
  cases hep : env.waitEp with
  | error ret => simp [ffsEpfileIorwRequest, ReachesQueue, hep]
  | ok ep =>
      cases hfind : genericFindMemoryArea file.memoryList io.buf io.len with
      | none => simp [ffsEpfileIorwRequest, hep, hfind]
      | some ffsm =>
          simp only [ffsEpfileIorwRequest, ReachesQueue, hep, hfind]
          split_ifs <;> grind

/-- What `ffs_ep0_iorw` hands to `usb_ep_queue`. -/
theorem ffsEp0IorwRequest_eq_some_iff {memoryList : List FfsMemory} {io : IoData}
    {active allocRequest : Bool} {req : UsbRequest} :
  ffsEp0IorwRequest memoryList io active allocRequest = some req
    ↔ active ∧ (io.aio ≠ 0 → allocRequest)
      ∧ ∃ ffsm, genericFindMemoryArea memoryList io.buf io.len = some ffsm
        ∧ areaRequest ffsm io.buf io.len.toNat = req
  := by
  cases hfind : genericFindMemoryArea memoryList io.buf io.len with
  | none => simp [ffsEp0IorwRequest, hfind]
  | some ffsm =>
      simp only [ffsEp0IorwRequest, hfind]
      split_ifs <;> grind

/-- What is handed to `usb_ep_queue` is a request in the area that was found. -/
theorem request_eq {call : IorwCall} {req : UsbRequest} (h : call.request = some req) :
  ∃ ffsm, call.area = some ffsm ∧ areaRequest ffsm call.io.buf call.dataLen = req
  := by
  cases call with
  | epfile file io env maxp => exact (ffsEpfileIorwRequest_eq_some_iff.mp h).2
  | ep0 memoryList io active allocRequest => exact (ffsEp0IorwRequest_eq_some_iff.mp h).2.2

/-- A call that does not overrun the area queues a request that lies in it. -/
theorem request_inArea {call : IorwCall} {req : UsbRequest} {ffsm : FfsMemory}
    (hover : ¬call.Overruns) (hreq : call.request = some req) (harea : call.area = some ffsm) :
  req.InArea ffsm call.io.buf
  := by
  obtain ⟨ffsm', hfind, rfl⟩ := request_eq hreq
  obtain rfl := Option.some.inj (harea.symm.trans hfind)
  have hcovers := (covers_of_find hfind).1
  cases call with
  | ep0 memoryList io active allocRequest => exact areaRequest_inArea hcovers
  | epfile file io env maxp =>
      simp only [dataLen, epfileDataLen]
      split_ifs with hread
      · cases maxp with
        | none => exact areaRequest_inArea hcovers
        | some p =>
            rw [areaRequest_inArea_iff]
            by_contra hlt
            have hqueue := (ffsEpfileIorwRequest_eq_some_iff.mp hreq).1
            exact hover ⟨hqueue, hread, ffsm, p, hfind, rfl, Nat.lt_of_not_le hlt⟩
      · apply areaRequest_inArea hcovers

/-- A call that overruns the area queues a request that does not lie in it. -/
theorem exists_request_of_overruns {call : IorwCall} (hover : call.Overruns) :
  ∃ req ffsm, call.request = some req ∧ call.area = some ffsm ∧ ¬req.InArea ffsm call.io.buf
  := by
  cases call with
  | ep0 memoryList io active allocRequest => exact hover.elim
  | epfile file io env maxp =>
      obtain ⟨hqueue, hread, ffsm, p, hfind, rfl, hlt⟩ := hover
      refine ⟨_, ffsm, ffsEpfileIorwRequest_eq_some_iff.mpr ⟨hqueue, ffsm, hfind, rfl⟩, hfind, ?_⟩
      intro hin
      have hfits := areaRequest_inArea_iff.mp hin
      rw [epfileDataLen, if_pos hread, usbEpAlignMaybe] at hfits
      apply absurd hfits (Nat.not_le_of_lt hlt)

/-- On mapped areas, what is queued is a request in the area found, which covers the buffer,
and the lookup computes exactly: so it is unless the call overruns the area. -/
theorem queued_request_iff (call : IorwCall)
    (hmapped : ∀ ffsm ∈ call.memoryList, ffsm.Mapped) :
  (∀ req, call.request = some req →
      (∃ ffsm, call.area = some ffsm ∧ ffsm.Covers call.io.buf call.io.len
          ∧ req.InArea ffsm call.io.buf)
        ∧ ∀ ffsm ∈ call.memoryList, ffsm.Exact call.io.buf)
    ↔ ¬call.Overruns
  := by
  constructor
  · intro h hover
    obtain ⟨req, ffsm, hreq, harea, hout⟩ := exists_request_of_overruns hover
    obtain ⟨⟨ffsm', harea', -, hin⟩, -⟩ := h req hreq
    obtain rfl := Option.some.inj (harea.symm.trans harea')
    apply hout hin
  · intro hover req hreq
    obtain ⟨ffsm, harea, -⟩ := request_eq hreq
    have hin := request_inArea hover hreq harea
    refine ⟨⟨ffsm, harea, (covers_of_find harea).1, hin⟩, fun iter hiter => ?_⟩
    exact (hmapped iter hiter).exact call.io.buf

/-- A page mapped at address 65536. -/
def pageArea : FfsMemory := { mem := 1048576, size := 4096, vmStart := 65536 }

/-- The transfer of the last 100 bytes of the page, from the host if `read` is not 0. -/
def pageEndCall (read : UInt32) : IorwCall :=
  .epfile { memoryList := [pageArea], in_ := read = 0, isoc := false }
    { aio := 0, read, len := 100, timeout := 0, buf := 69532 }
    { active := true, nonblock := false, ep := some 0, waitedEp := none, alignEp := some 0,
      ioEp := some 0, mutexLock := 0, setHalt := 0, queue := 0, wait := 0, epStatus := 0,
      reqActual := 100, allocRequest := true }
    (some 512)

theorem pageArea_mapped : pageArea.Mapped
  := ⟨69632, by decide, by decide⟩

/-- The last bytes of the page sent to the host. -/
theorem queued_request_iff_write :
  (∀ ffsm ∈ (pageEndCall 0).memoryList, ffsm.Mapped)
    ∧ ∀ req, (pageEndCall 0).request = some req →
        (∃ ffsm, (pageEndCall 0).area = some ffsm
            ∧ ffsm.Covers (pageEndCall 0).io.buf (pageEndCall 0).io.len
            ∧ req.InArea ffsm (pageEndCall 0).io.buf)
          ∧ ∀ ffsm ∈ (pageEndCall 0).memoryList, ffsm.Exact (pageEndCall 0).io.buf
  := by
  have hmapped : ∀ ffsm ∈ (pageEndCall 0).memoryList, ffsm.Mapped := by
    intro ffsm hffsm
    rw [List.mem_singleton.mp hffsm]
    apply pageArea_mapped
  refine ⟨hmapped, (queued_request_iff (pageEndCall 0) hmapped).mpr ?_⟩
  rintro ⟨-, hread, -⟩
  apply hread rfl

/-- The last bytes of the page received from the host: the request is as long as a packet,
and runs over the end of the page. -/
theorem pageEnd_read_overruns :
  (∀ ffsm ∈ (pageEndCall 1).memoryList, ffsm.Mapped)
    ∧ ∃ req ffsm, (pageEndCall 1).request = some req ∧ (pageEndCall 1).area = some ffsm
      ∧ req.length = 512 ∧ ¬req.InArea ffsm (pageEndCall 1).io.buf
  := by
  refine ⟨?_, { buf := 1052572, length := 512 }, pageArea, by decide, by decide, rfl, ?_⟩
  · intro ffsm hffsm
    rw [List.mem_singleton.mp hffsm]
    apply pageArea_mapped
  · intro hin
    have := hin.fits
    revert this
    decide

end IorwCall

end Ffs
