import KhdfLinux.Lib.Kfifo
import KhdfLinux.Lib.Run
import KhdfLinux.Usb.Transfers

/-!
# The requests of a function file

An endpoint file or the control file `ep0` of a function, with the areas mapped into user
space, the request of the transfer a call waits for, and the asynchronous requests: those on
the list `req->list`, those the controller has, those it has given back whose tasklet has
still to run, and those that were freed.

A lookup that fails in an endpoint file leaves `eps_lock` held, so that no later call on the
file gets on; the steps here go on all the same, which only adds runs.
-/

namespace Ffs

/-- The kinds of files: an endpoint file, with the fields `in` and `isoc`, or `ep0`. -/
inductive FileKind where
  | epfile (in_ isoc : Bool)
  | ep0
  deriving DecidableEq, Repr

/-- `struct vm_area_struct`. -/
structure Vma where
  vmStart : UInt64
  vmEnd : UInt64
  nonempty : vmStart < vmEnd

/-- The area `mmap` makes of the memory at `mem`. -/
def Vma.area (vma : Vma) (mem : UInt64) : FfsMemory where
  mem := mem
  size := (vma.vmEnd - vma.vmStart).toUInt32
  vmStart := vma.vmStart

/-- A transfer: the buffer in user space, the request made for it, and the area it was found
in. -/
structure Transfer where
  buf : UInt64
  len : UInt32
  req : UsbRequest
  area : FfsMemory
  deriving DecidableEq, Repr

/-- An asynchronous transfer, with the allocation its request is. -/
structure AsyncRequest extends Transfer where
  id : Nat
  deriving DecidableEq, Repr

/-- The buffer was found in the area, and the request made for it. -/
structure Transfer.Resolved (r : Transfer) (memoryList : List FfsMemory) : Prop where
  found : genericFindMemoryArea memoryList r.buf r.len = some r.area
  made : ∃ dataLen, r.req = areaRequest r.area r.buf dataLen

/-- `struct UsbFnReqEvent`. -/
structure UsbFnReqEvent where
  buf : UInt64
  actual : UInt32
  status : UInt32
  deriving DecidableEq, Repr

/-- The event in memory. -/
def UsbFnReqEvent.bytes (event : UsbFnReqEvent) : Bytes :=
  (List.range 8).map (fun i => (event.buf >>> (8 * i).toUInt64).toUInt8)
    ++ (List.range 4).map (fun i => (event.actual >>> (8 * i).toUInt32).toUInt8)
    ++ (List.range 4).map fun i => (event.status >>> (8 * i).toUInt32).toUInt8

/-- `sizeof(struct UsbFnReqEvent)`. -/
def usbFnReqEventSize : Nat := 16

/-- `MAX_REQUEST`. -/
def maxRequest : Nat := 64

@[simp] theorem UsbFnReqEvent.length_bytes (event : UsbFnReqEvent) :
  event.bytes.length = usbFnReqEventSize
  := by
  simp [bytes, usbFnReqEventSize]

/-- A request the controller has given back, with its `status` and `actual`. -/
structure GivenBack where
  request : AsyncRequest
  status : UInt32
  actual : UInt32
  deriving DecidableEq, Repr

/-- The event of a request given back. -/
def GivenBack.event (done : GivenBack) : UsbFnReqEvent where
  buf := done.request.buf
  actual := done.actual
  status := done.status

/-- An open file.  `sync` is the request of the transfer a call waits for, while the
controller has it, and `busy` tells if that call holds `mutex`; `list` is `req->list`;
`queued` are the asynchronous requests the controller has, `done` those it has given back
and whose tasklet has not run, `freed` the allocations that were freed; `held` are the
requests a call has a pointer to while it holds no lock.

Of the rest, `touched` tells if a cancellation or a status lookup has touched a freed
request, `completed` are the events of the requests in the order of their completion, and
`delivered` the bytes returned to user space. -/
structure FuncFile where
  kind : FileKind
  memoryList : List FfsMemory
  sync : Option Transfer
  busy : Bool
  list : List AsyncRequest
  queued : List AsyncRequest
  done : List GivenBack
  freed : List Nat
  next : Nat
  held : List AsyncRequest
  reqEventFifo : Kfifo UInt8 (maxRequest * usbFnReqEventSize)
  touched : Bool
  completed : List UsbFnReqEvent
  delivered : Bytes

/-- The commands that look for a request. -/
inductive FindCmd where
  | rwCancel
  | getReqStatus
  deriving DecidableEq, Repr

/-- What happens to a file. -/
inductive FileAct where
  /-- `mmap`; `mem` is the memory allocated, if nothing fails: memory not in use, of a size
  `kmalloc` can give. -/
  | mmap (vma : Vma) (mem : Option UInt64)
  | releaseBuf (mem : GenericMemory)
  /-- `FUNCTIONFS_ENDPOINT_READ` and `FUNCTIONFS_ENDPOINT_WRITE`, up to `usb_ep_queue`. -/
  | transfer (io : IoData) (env : IorwEnv) (maxp : Option Nat)
  /-- The controller gives back the request a call waits for. -/
  | completeSync
  /-- The call that waited returns. -/
  | wakeSync
  /-- The controller gives back the request at the index of `queued`. -/
  | giveBack (i : Nat) (status actual : UInt32)
  /-- `epfile_task_proc` for the request at the index of `done`. -/
  | taskProc (i : Nat)
  | find (cmd : FindCmd) (io : IoData)
  /-- The call with the pointer at the index of `held` uses it. -/
  | useHeld (i : Nat)
  /-- A read of `reqEventFifo`, of which `copied` bytes get to user space. -/
  | readEvents (count copied : Nat)

namespace FuncFile

/-- The call of `ffs_epfile_iorw` or `ffs_ep0_iorw`. -/
def iorwCall (s : FuncFile) (io : IoData) (env : IorwEnv) (maxp : Option Nat) : IorwCall :=
  match s.kind with
  | .epfile in_ isoc => .epfile { memoryList := s.memoryList, in_, isoc } io env maxp
  | .ep0 => .ep0 s.memoryList io env.active env.allocRequest

/-- Queue the request of a call that waits, which is the same for every call: `ep0` has no
lock that keeps a call from changing it while the controller has it. -/
def queueSync (s : FuncFile) (r : Transfer) (queue : Int) : FuncFile :=
  match s.kind with
  | .epfile _ _ => if queue < 0 then s else { s with sync := some r, busy := true }
  | .ep0 => if queue < 0 ∧ s.sync = none then s else { s with sync := some r }

/-- Link a new request and queue it; a request that is refused is freed. -/
def queueAsync (s : FuncFile) (r : Transfer) (queue : Int) : FuncFile :=
  let req : AsyncRequest := { r with id := s.next }
  let t := { s with list := req :: s.list, next := s.next + 1 }
  if queue ≠ 0 then { t with freed := req.id :: t.freed } else { t with queued := req :: t.queued }

/-- `ffs_epfile_iorw` and `ffs_ep0_iorw`, up to `usb_ep_queue`. -/
def iorw (s : FuncFile) (io : IoData) (env : IorwEnv) (maxp : Option Nat) : Option FuncFile :=
  if s.busy ∧ env.mutexLock = 0 then
    -- the call has to wait for `mutex`
    none
  else
    let call := s.iorwCall io env maxp
    match call.request, call.area with
    | some req, some area =>
        let r := { buf := io.buf, len := io.len, req, area }
        some (if io.aio = 0 then s.queueSync r env.queue else s.queueAsync r env.queue)
    | _, _ => some s

/-- `epfile_task_proc` and `ffs_ep0_async_io_complete`: report a request that was given back,
unlink it and free it. -/
def taskProc (s : FuncFile) (done : GivenBack) : FuncFile :=
  { s with
    reqEventFifo := s.reqEventFifo.put done.event.bytes
    completed := s.completed ++ [done.event]
    list := s.list.erase done.request
    freed := done.request.id :: s.freed }

/-- The completion of an asynchronous request: that of an endpoint file schedules a tasklet. -/
def giveBack (s : FuncFile) (done : GivenBack) : FuncFile :=
  match s.kind with
  | .epfile _ _ => { s with done := s.done ++ [done] }
  | .ep0 => s.taskProc done

/-- The address a command looks for. -/
def findAddr (s : FuncFile) (io : IoData) : Option UInt64 :=
  (genericFindMemoryArea s.memoryList io.buf io.len).map fun ffsm =>
    ffsm.mem + io.buf - ffsm.vmStart

/-- The request found for an address. -/
def lookup (s : FuncFile) (addr : UInt64) : Option AsyncRequest :=
  s.list.find? fun req => req.req.buf = addr

/-- The requests a lookup touches: those it passes, and the one it finds. -/
def visited (s : FuncFile) (addr : UInt64) : List AsyncRequest :=
  s.list.takeWhile (fun req => req.req.buf ≠ addr) ++ (s.lookup addr).toList

/-- A command goes on with the request it found while it holds no lock. -/
def unlocked (s : FuncFile) (cmd : FindCmd) : Bool := s.kind = .ep0 ∨ cmd = .getReqStatus

/-- Something touches requests. -/
def touch (s : FuncFile) (reqs : List AsyncRequest) : FuncFile :=
  { s with touched := s.touched || reqs.any fun req => req.id ∈ s.freed }

/-- `FUNCTIONFS_ENDPOINT_RW_CANCEL` and `FUNCTIONFS_ENDPOINT_GET_REQ_STATUS`.  To dequeue a
request is to make the controller give it back. -/
def find (s : FuncFile) (cmd : FindCmd) (io : IoData) : FuncFile :=
  match s.findAddr io with
  | none => s
  | some addr =>
      let t := s.touch (s.visited addr)
      if s.unlocked cmd then { t with held := t.held ++ (s.lookup addr).toList } else t

/-- `ffs_epfile_read`, and `FUNCTIONFS_ENDPOINT_GET_EP0_EVENT`.  What was copied before a
copy to user space fails is lost. -/
def readEvents (s : FuncFile) (count copied : Nat) : Option FuncFile :=
  let wanted := min count s.reqEventFifo.items.length
  if copied ≤ wanted then
    let t := { s with reqEventFifo := s.reqEventFifo.drop copied }
    some (if copied = wanted then
      { t with delivered := s.delivered ++ s.reqEventFifo.items.take copied } else t)
  else
    none

/-- The next state of the file, if the step is possible. -/
def step (s : FuncFile) : FileAct → Option FuncFile
  | .mmap vma mem =>
      match mem with
      | none => some s
      | some mem =>
          if (vma.vmEnd - vma.vmStart).toNat ≤ kmallocMaxSize
              ∧ mem ∉ s.memoryList.map FfsMemory.mem then
            some { s with memoryList := s.memoryList ++ [vma.area mem] }
          else
            none
  | .releaseBuf mem =>
      match genericFindMemoryArea s.memoryList mem.buf mem.size with
      | none => some s
      | some ffsm => some { s with memoryList := s.memoryList.erase ffsm }
  | .transfer io env maxp => s.iorw io env maxp
  | .completeSync => s.sync.map fun _ => { s with sync := none }
  | .wakeSync => if s.busy ∧ s.sync = none then some { s with busy := false } else none
  | .giveBack i status actual =>
      s.queued[i]?.map fun request =>
        { s with queued := s.queued.eraseIdx i }.giveBack ⟨request, status, actual⟩
  | .taskProc i =>
      s.done[i]?.map fun done => { s with done := s.done.eraseIdx i }.taskProc done
  | .find cmd io => some (s.find cmd io)
  | .useHeld i =>
      s.held[i]?.map fun req => { s with held := s.held.eraseIdx i }.touch [req]
  | .readEvents count copied =>
      if s.kind = .ep0 ∧ count ≠ usbFnReqEventSize then none else s.readEvents count copied

variable {s t : FuncFile}

/-- The transfer of the call. -/
theorem iorwCall_io (s : FuncFile) (io : IoData) (env : IorwEnv) (maxp : Option Nat) :
  (s.iorwCall io env maxp).io = io
  := by
  unfold iorwCall
  cases s.kind with
  | epfile in_ isoc => rfl
  | ep0 => rfl

/-- The area of the call. -/
theorem iorwCall_area (s : FuncFile) (io : IoData) (env : IorwEnv) (maxp : Option Nat) :
  (s.iorwCall io env maxp).area = genericFindMemoryArea s.memoryList io.buf io.len
  := by
  unfold iorwCall
  cases s.kind with
  | epfile in_ isoc => rfl
  | ep0 => rfl

/-- A transfer does nothing, or makes a request in the area the buffer is found in. -/
theorem iorw_cases
    {io : IoData} {env : IorwEnv} {maxp : Option Nat} (h : s.iorw io env maxp = some t) :
  (t = s ∧ (s.iorwCall io env maxp).request = none)
    ∨ ∃ r : Transfer, r.Resolved s.memoryList ∧ (s.iorwCall io env maxp).request = some r.req
      ∧ ((io.aio = 0 ∧ t = s.queueSync r env.queue)
        ∨ (io.aio ≠ 0 ∧ t = s.queueAsync r env.queue))
  := by
  unfold iorw at h
  by_cases hbusy : s.busy ∧ env.mutexLock = 0
  · rw [if_pos hbusy] at h
    cases h
  rw [if_neg hbusy] at h
  cases hreq : (s.iorwCall io env maxp).request with
  | none =>
      simp only [hreq, Option.some.injEq] at h
      exact .inl ⟨h.symm, rfl⟩
  | some req =>
      obtain ⟨ffsm, harea, hmade⟩ := IorwCall.request_eq hreq
      simp only [hreq, harea, Option.some.injEq] at h
      rw [iorwCall_area] at harea
      rw [iorwCall_io] at hmade
      let r : Transfer := { buf := io.buf, len := io.len, req := req, area := ffsm }
      have hr : r.Resolved s.memoryList := ⟨harea, _, hmade.symm⟩
      by_cases haio : io.aio = 0
      · rw [if_pos haio] at h
        exact .inr ⟨r, hr, rfl, .inl ⟨haio, h.symm⟩⟩
      · rw [if_neg haio] at h
        exact .inr ⟨r, hr, rfl, .inr ⟨haio, h.symm⟩⟩

end FuncFile

/-- A file that was just opened, with the fifo allocated by `FUNCTIONFS_ENDPOINT_QUEUE_INIT`. -/
def funcFileNew (kind : FileKind) : FuncFile where
  kind := kind
  memoryList := []
  sync := none
  busy := false
  list := []
  queued := []
  done := []
  freed := []
  next := 0
  held := []
  reqEventFifo := .empty
  touched := false
  completed := []
  delivered := []

end Ffs
