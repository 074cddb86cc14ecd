import KhdfLinux.Kevent.SysEvent
import KhdfLinux.Lib.Ledger
import KhdfLinux.Lib.Run

/-!
# The life of the kevent module

`HdfKeventDriverBind` allocates the module, `HdfKeventDriverInit` registers its notifiers and
publishes it, and `HdfKeventDriverRelease` frees it; in between clients are opened and closed and
events are sent.  `released_iff`: nothing refers to a module after its release, and all that was
registered or allocated is undone exactly once, in exactly the runs in which each module that is
released was never initialised and has no client.
-/

namespace Kevent.Lifecycle

/-- A notifier block of the module, and the chain it is meant for. -/
inductive Notifier where
  | pm
  | fb
  deriving DecidableEq, Repr

/-- `keventPmNotifier` or `fbNotifier` of the module at an address. -/
structure Block where
  addr : Nat
  notifier : Notifier
  deriving DecidableEq, Repr

/-- `struct HdfKeventModule` at an address, the number of its allocation, and whether
`HdfKeventDriverInit` was called with it.  Its waits are given by the numbers of theirs. -/
structure Module where
  addr : Nat
  initialised : Bool
  clientCount : BitVec 32
  waitList : List Nat
  deriving DecidableEq, Repr

/-- The `struct HdfKeventClient` that the `priv` of a client points to, with the module on whose
`clientList` it is. -/
structure Client where
  number : Nat
  addr : Nat
  deriving DecidableEq, Repr

/-- The device with the module in its `priv`, the notifier chains, `g_keventModule`, the clients
that are open, and what was allocated, freed, registered and unregistered. -/
structure State where
  priv : Option Module
  modules : Ledger
  chain : Notifier → List Block
  keventModule : Option Nat
  clients : List Client
  kClients : Ledger
  waits : Ledger
  registered : List (Notifier × Block)
  unregistered : List (Notifier × Block)

/-- Who calls `SendKevent`: `HdfSysEventSend`, or a block on a chain. -/
inductive Source where
  | sysEventSend
  | notifier (chain : Notifier) (block : Block)
  deriving DecidableEq, Repr

/-- The calls of the framework and of the kernel, with what the functions they call return. -/
inductive Act where
  | driverBind (dev module mutex clientMutex : Bool)
  | driverInit (pm fb : Bool)
  | driverOpen (allocated : Bool)
  | driverClose (client : Nat)
  /-- `SendKevent`, to its end or until it waits. -/
  | send (source : Source) (o : Preparation) (eventClass : BitVec 64) (event : BitVec 32)
      (content : Option String) (sync : Bool)
  /-- A wait is completed or has timed out, and `SendKevent` goes on to its end. -/
  | wake (wait : Nat)
  | driverRelease

namespace State

/-- Nothing is bound. -/
def init : State := ⟨none, .empty, fun _ => [], none, [], .empty, .empty, [], []⟩

variable (s : State)

/-- Register a block on a chain. -/
def register (chain : Notifier) (block : Block) : State :=
  { s with
    chain := Function.update s.chain chain (s.chain chain ++ [block])
    registered := s.registered ++ [(chain, block)] }

/-- Unregister a block from a chain, where it may not be. -/
def unregister (chain : Notifier) (block : Block) : State :=
  { s with
    chain := Function.update s.chain chain ((s.chain chain).erase block)
    unregistered := s.unregistered ++ [(chain, block)] }

/-- `HdfKeventDriverBind`: whether there are a device, memory and two mutexes. -/
def driverBind (dev module mutex clientMutex : Bool) : State :=
  if ¬dev then s
  else if ¬module then s
  else if ¬mutex then { s with modules := s.modules.alloc.free s.modules.allocated }
  else if ¬clientMutex then { s with modules := s.modules.alloc.free s.modules.allocated }
  else
    { s with
      priv := some ⟨s.modules.allocated, false, 0, []⟩
      modules := s.modules.alloc }

/-- `HdfKeventDriverInit`: whether each registration succeeds. -/
def driverInit (m : Module) (pm fb : Bool) : State :=
  let s := if pm then s.register .pm ⟨m.addr, .pm⟩ else s
  let s := if fb then s.register .fb ⟨m.addr, .fb⟩ else s.unregister .pm ⟨m.addr, .pm⟩
  { s with priv := some { m with initialised := true }, keventModule := some m.addr }

/-- `HdfKeventDriverOpen`. -/
def driverOpen (m : Module) (allocated : Bool) : State :=
  if allocated then
    { s with
      priv := some { m with clientCount := m.clientCount + 1 }
      clients := s.clients ++ [⟨s.kClients.allocated, m.addr⟩]
      kClients := s.kClients.alloc }
  else s

/-- `HdfKeventDriverClose`, of a client on the list of the module. -/
def driverClose (m : Module) (client : Nat) : State :=
  if ⟨client, m.addr⟩ ∈ s.clients then
    { s with
      priv := some { m with clientCount := m.clientCount - 1 }
      clients := s.clients.erase ⟨client, m.addr⟩
      kClients := s.kClients.free client }
  else s

/-- The module that a caller of `SendKevent` has. -/
def target : Source → Option Nat
  | .sysEventSend => s.keventModule
  | .notifier chain block => if block ∈ s.chain chain then some block.addr else none

/-- `SendKevent`, to its end or until it waits. -/
def sendKevent (m : Module) (o : Preparation) (eventClass : BitVec 64) (event : BitVec 32)
    (content : Option String) (sync : Bool) : State :=
  if m.clientCount.toInt ≤ 0 then s
  else
    match prepareEvent o ((eventClass.setWidth 16).setWidth 64) event content sync with
    | (_, none) => s
    -- the wait is on no list, and is not freed
    | (none, some _) => { s with waits := s.waits.alloc }
    | (some _, some _) =>
        { s with
          priv := some { m with waitList := m.waitList ++ [s.waits.allocated] }
          waits := s.waits.alloc }

/-- `SendKevent`, after its wait. -/
def wake (m : Module) (wait : Nat) : State :=
  if wait ∈ m.waitList then
    { s with
      priv := some { m with waitList := m.waitList.erase wait }
      waits := s.waits.free wait }
  else s

/-- `HdfKeventDriverRelease`. -/
def driverRelease (m : Module) : State :=
  let s := (s.unregister .pm ⟨m.addr, .pm⟩).unregister .fb ⟨m.addr, .pm⟩
  { s with priv := none, modules := s.modules.free m.addr }

/-- The state after a call.  The framework binds a device that is not bound, and initialises it
once; a call that uses a module that was freed has no meaning.  Such calls do nothing. -/
def next : Act → State
  | .driverBind dev module mutex clientMutex =>
      match s.priv with
      | none => s.driverBind dev module mutex clientMutex
      | some _ => s
  | .driverInit pm fb =>
      match s.priv with
      | none => s
      | some m => if m.initialised then s else s.driverInit m pm fb
  | .driverOpen allocated =>
      match s.priv with
      | none => s
      | some m => s.driverOpen m allocated
  | .driverClose client =>
      match s.priv with
      | none => s
      | some m => s.driverClose m client
  | .send source o eventClass event content sync =>
      match s.priv with
      | none => s
      | some m =>
          if s.target source = some m.addr then s.sendKevent m o eventClass event content sync
          else s
  | .wake wait =>
      match s.priv with
      | none => s
      | some m => s.wake m wait
  | .driverRelease =>
      match s.priv with
      | none => s
      | some m => s.driverRelease m

/-! ### What is asked of a release -/

/-- Nothing refers to a module that was freed. -/
structure Unreferenced : Prop where
  chains : ∀ chain, ∀ block ∈ s.chain chain, block.addr ∉ s.modules.freed
  keventModule : ∀ addr, s.keventModule = some addr → addr ∉ s.modules.freed
  clients : ∀ k ∈ s.clients, k.addr ∉ s.modules.freed

/-- What was registered is unregistered from its chain, and what was allocated is freed, exactly
once. -/
structure Undone : Prop where
  notifiers : ∀ r ∈ s.registered, s.unregistered.count r = 1
  waits : s.waits.Exact
  kClients : s.kClients.Exact

/-- No reference survives a release, and all is undone after it. -/
def Released (a : Act) : Prop :=
  (s.next a).Unreferenced ∧ (a = .driverRelease → (s.next a).Undone)

/-- A module is released only if it was not initialised and has no client. -/
def Allowed : Act → Prop
  | .driverRelease => ∀ m, s.priv = some m → ¬m.initialised ∧ s.clients = []
  | _ => True

/-! ### The invariant -/

/-- The device has a module that is initialised. -/
def Active : Prop := ∃ m, s.priv = some m ∧ m.initialised

/-- The device has the module at the address. -/
def Owns (addr : Nat) : Prop := ∃ m, s.priv = some m ∧ m.addr = addr

/-- All references are to the module of the device; and notifiers, `g_keventModule` and waits are
those of one that is initialised. -/
structure Inv : Prop where
  modules : s.modules.Holds (s.priv.toList.map Module.addr)
  chains : ∀ chain, ∀ block ∈ s.chain chain, s.Active ∧ s.Owns block.addr
  keventModule : ∀ addr, s.keventModule = some addr → s.Active ∧ s.Owns addr
  published : ∀ m, s.priv = some m → m.initialised → s.keventModule = some m.addr
  registered : s.registered ≠ [] → s.Active
  waits : 0 < s.waits.allocated → s.Active
  kClients : s.kClients.Holds (s.clients.map Client.number)
  clients : ∀ k ∈ s.clients, s.Owns k.addr

end State

variable {s : State} {m : Module}

/-- Nothing is bound. -/
theorem State.inv_init :
  State.init.Inv
  where
  modules := Ledger.holds_empty
  chains _ _ hblock := nomatch hblock
  keventModule _ haddr := nomatch haddr
  published _ hpriv := nomatch hpriv
  registered hne := absurd rfl hne
  waits hpos := absurd hpos (Nat.lt_irrefl 0)
  kClients := Ledger.holds_empty
  clients _ hk := nomatch hk

/-- A module that the device has was not freed. -/
theorem State.Inv.not_freed {addr : Nat} (h : s.Inv) (howns : s.Owns addr) :
  addr ∉ s.modules.freed
  := by
  obtain ⟨m, hpriv, rfl⟩ := howns
  have hmodules := h.modules
  rw [hpriv] at hmodules
  exact (hmodules.kept m.addr (List.mem_singleton_self _)).2

/-- No reference is to a module that was freed. -/
theorem State.Inv.unreferenced (h : s.Inv) :
  s.Unreferenced
  where
  chains chain block hblock := h.not_freed (h.chains chain block hblock).2
  keventModule addr haddr := h.not_freed (h.keventModule addr haddr).2
  clients k hk := h.not_freed (h.clients k hk)

/-- All is undone where the device has no module that is initialised, and no client. -/
theorem State.Inv.undone (h : s.Inv) (hidle : ¬s.Active) (hclients : s.clients = []) :
  s.Undone
  where
  notifiers := by
    have hregistered : s.registered = [] := by
      by_contra hne
      apply hidle (h.registered hne)
    rw [hregistered]
    exact fun r hr => nomatch hr
  waits i hi := absurd (h.waits (Nat.zero_lt_of_lt hi)) hidle
  kClients := by
    apply h.kClients.exact_iff.mpr
    rw [hclients]
    rfl

/-- Without a module there is no client. -/
theorem State.Inv.clients_eq_nil (h : s.Inv) (hpriv : s.priv = none) :
  s.clients = []
  := by
  apply List.eq_nil_iff_forall_not_mem.mpr
  intro k hk
  obtain ⟨m, hm, -⟩ := h.clients k hk
  rw [hpriv] at hm
  cases hm

/-- The module of the device is the one that it has. -/
theorem State.owns_iff {addr : Nat} (hpriv : s.priv = some m) :
  s.Owns addr ↔ m.addr = addr
  := by
  unfold State.Owns
  rw [hpriv]
  constructor
  · rintro ⟨m', hm', haddr⟩
    cases hm'
    apply haddr
  · exact fun haddr => ⟨m, rfl, haddr⟩

/-- The device is active if its module is initialised. -/
theorem State.active_iff (hpriv : s.priv = some m) :
  s.Active ↔ m.initialised
  := by
  unfold State.Active
  rw [hpriv]
  constructor
  · rintro ⟨m', hm', hinit⟩
    cases hm'
    apply hinit
  · exact fun hinit => ⟨m, rfl, hinit⟩

/-! ### The steps -/

/-- A step that changes the module, the clients and the waits. -/
theorem State.Inv.update {clients : List Client} {kClients : Ledger} (h : s.Inv) (m' : Module)
    (waits : Ledger) (hpriv : s.priv = some m) (haddr : m'.addr = m.addr)
    (hinitialised : m'.initialised = m.initialised)
    (hkClients : kClients.Holds (clients.map Client.number))
    (hclients : ∀ k ∈ clients, k.addr = m.addr)
    (hwaits : 0 < waits.allocated → m.initialised) :
  State.Inv { s with priv := some m', clients, kClients, waits }
  := by
  have hactive : State.Active { s with priv := some m', clients, kClients, waits } ↔ s.Active := by
    rw [State.active_iff hpriv, State.active_iff rfl, hinitialised]
  have howns (addr : Nat) :
      State.Owns { s with priv := some m', clients, kClients, waits } addr ↔ s.Owns addr := by
    rw [State.owns_iff hpriv, State.owns_iff rfl, haddr]
  constructor
  · have hmodules := h.modules
    rw [hpriv] at hmodules
    show s.modules.Holds [m'.addr]
    rw [haddr]
    apply hmodules
  · intro chain block hblock
    rw [hactive, howns]
    apply h.chains chain block hblock
  · intro addr hkevent
    rw [hactive, howns]
    apply h.keventModule addr hkevent
  · intro m'' hm'' hinit
    cases hm''
    show s.keventModule = some m'.addr
    rw [haddr]
    apply h.published m hpriv
    rw [← hinitialised]
    apply hinit
  · rw [hactive]
    apply h.registered
  · rw [hactive, State.active_iff hpriv]
    apply hwaits
  · apply hkClients
  · intro k hk
    rw [howns, State.owns_iff hpriv]
    exact (hclients k hk).symm

/-- All clients are those of the module that the device has. -/
theorem State.Inv.clients_addr (h : s.Inv) (hpriv : s.priv = some m) :
  ∀ k ∈ s.clients, k.addr = m.addr
  := fun k hk => ((State.owns_iff hpriv).mp (h.clients k hk)).symm

/-- Only a module that is initialised has waits. -/
theorem State.Inv.waits_initialised (h : s.Inv) (hpriv : s.priv = some m) :
  0 < s.waits.allocated → m.initialised
  := fun hpos => (State.active_iff hpriv).mp (h.waits hpos)

/-- A module that is bound is the only one. -/
theorem State.Inv.driverBind (h : s.Inv) (hpriv : s.priv = none)
    (dev module mutex clientMutex : Bool) :
  (s.driverBind dev module mutex clientMutex).Inv
  := by
  have hmodules := h.modules
  rw [hpriv] at hmodules
  have hidle : ¬s.Active := by
    rintro ⟨m, hm, -⟩
    rw [hpriv] at hm
    cases hm
  -- a module that could not be set up is freed at once
  have hfreed : State.Inv { s with modules := s.modules.alloc.free s.modules.allocated } := by
    refine { h with modules := ?_ }
    show (s.modules.alloc.free s.modules.allocated).Holds (s.priv.toList.map Module.addr)
    rw [hpriv]
    simpa using hmodules.alloc.free (List.mem_singleton_self s.modules.allocated)
  unfold State.driverBind
  split
  · apply h
  split
  · apply h
  split
  · apply hfreed
  split
  · apply hfreed
  constructor
  · apply hmodules.alloc
  · exact fun chain block hblock => absurd (h.chains chain block hblock).1 hidle
  · exact fun addr haddr => absurd (h.keventModule addr haddr).1 hidle
  · intro m hm hinit
    cases hm
    cases hinit
  · exact fun hne => absurd (h.registered hne) hidle
  · exact fun hpos => absurd (h.waits hpos) hidle
  · apply h.kClients
  · intro k hk
    have hnil := h.clients_eq_nil hpriv
    rw [show State.clients _ = s.clients from rfl, hnil] at hk
    cases hk

/-- A block of the module is registered. -/
theorem State.Inv.register (h : s.Inv) (hactive : s.Active) (chain : Notifier) (block : Block)
    (howns : s.Owns block.addr) :
  (s.register chain block).Inv
  := by
  refine { h with chains := ?_, registered := fun _ => hactive }
  intro chain' block' hblock
  change block' ∈ Function.update s.chain chain _ chain' at hblock
  show s.Active ∧ s.Owns block'.addr
  by_cases hchain : chain' = chain
  · subst hchain
    rw [Function.update_self] at hblock
    obtain hblock | hblock := List.mem_append.mp hblock
    · apply h.chains chain' block' hblock
    · rw [List.mem_singleton.mp hblock]
      exact ⟨hactive, howns⟩
  · rw [Function.update_of_ne hchain] at hblock
    apply h.chains chain' block' hblock

/-- A block is unregistered, where it is or not. -/
theorem State.Inv.unregister (h : s.Inv) (chain : Notifier) (block : Block) :
  (s.unregister chain block).Inv
  := by
  refine { h with chains := ?_ }
  intro chain' block' hblock
  change block' ∈ Function.update s.chain chain _ chain' at hblock
  show s.Active ∧ s.Owns block'.addr
  by_cases hchain : chain' = chain
  · subst hchain
    rw [Function.update_self] at hblock
    apply h.chains chain' block' (List.mem_of_mem_erase hblock)
  · rw [Function.update_of_ne hchain] at hblock
    apply h.chains chain' block' hblock

/-- A module is published. -/
theorem State.Inv.publish (h : s.Inv) (hpriv : s.priv = some m) (hinit : ¬m.initialised) :
  State.Inv { s with
    priv := some { m with initialised := true }
    keventModule := some m.addr }
  := by
  have hidle : ¬s.Active := by
    rw [State.active_iff hpriv]
    apply hinit
  have hactive : State.Active { s with
      priv := some { m with initialised := true }
      keventModule := some m.addr } := ⟨_, rfl, rfl⟩
  constructor
  · have hmodules := h.modules
    rw [hpriv] at hmodules
    apply hmodules
  · exact fun chain block hblock => absurd (h.chains chain block hblock).1 hidle
  · intro addr haddr
    cases haddr
    exact ⟨hactive, _, rfl, rfl⟩
  · intro m' hm' _
    cases hm'
    rfl
  · exact fun _ => hactive
  · exact fun _ => hactive
  · apply h.kClients
  · intro k hk
    exact ⟨_, rfl, (h.clients_addr hpriv k hk).symm⟩

/-- A module is initialised. -/
theorem State.Inv.driverInit (h : s.Inv) (hpriv : s.priv = some m) (hinit : ¬m.initialised)
    (pm fb : Bool) :
  (s.driverInit m pm fb).Inv
  := by
  have h' := h.publish hpriv hinit
  generalize hs' : State.mk (some { m with initialised := true }) s.modules s.chain (some m.addr)
    s.clients s.kClients s.waits s.registered s.unregistered = s' at h'
  have hactive : s'.Active := by
    rw [← hs']
    exact ⟨_, rfl, rfl⟩
  have howns : s'.Owns m.addr := by
    rw [← hs']
    exact ⟨_, rfl, rfl⟩
  -- the module may as well be published first
  have heq : s.driverInit m pm fb
      = if fb then (if pm then s'.register .pm ⟨m.addr, .pm⟩ else s').register .fb ⟨m.addr, .fb⟩
        else (if pm then s'.register .pm ⟨m.addr, .pm⟩ else s').unregister .pm ⟨m.addr, .pm⟩ := by
    rw [← hs']
    cases pm <;> cases fb <;> rfl
  have hpm := h'.register hactive .pm ⟨m.addr, .pm⟩ howns
  rw [heq]
  cases pm with
  | true =>
      cases fb with
      | true => exact hpm.register hactive .fb ⟨m.addr, .fb⟩ howns
      | false => exact hpm.unregister .pm _
  | false =>
      cases fb with
      | true => exact h'.register hactive .fb ⟨m.addr, .fb⟩ howns
      | false => exact h'.unregister .pm _

/-- A module that was not initialised and has no client is released. -/
theorem State.Inv.driverRelease (h : s.Inv) (hpriv : s.priv = some m) (hidle : ¬s.Active)
    (hclients : s.clients = []) :
  (s.driverRelease m).Inv ∧ (s.driverRelease m).Undone
  := by
  have h' := (h.unregister .pm ⟨m.addr, .pm⟩).unregister .fb ⟨m.addr, .pm⟩
  generalize hs' : (s.unregister .pm ⟨m.addr, .pm⟩).unregister .fb ⟨m.addr, .pm⟩ = s' at h'
  have hidle' : ¬s'.Active := by
    rw [← hs']
    apply hidle
  have hclients' : s'.clients = [] := by
    rw [← hs']
    apply hclients
  have hpriv' : s'.priv = some m := by
    rw [← hs']
    apply hpriv
  have hrelease : s.driverRelease m
      = { s' with priv := none, modules := s'.modules.free m.addr } := by
    rw [← hs']
    rfl
  rw [hrelease]
  have hinv : State.Inv { s' with priv := none, modules := s'.modules.free m.addr } := by
    constructor
    · have hmodules := h'.modules
      rw [hpriv'] at hmodules
      simpa using hmodules.free (List.mem_singleton_self m.addr)
    · exact fun chain block hblock => absurd (h'.chains chain block hblock).1 hidle'
    · exact fun addr haddr => absurd (h'.keventModule addr haddr).1 hidle'
    · intro m' hm'
      cases hm'
    · exact fun hne => absurd (h'.registered hne) hidle'
    · exact fun hpos => absurd (h'.waits hpos) hidle'
    · apply h'.kClients
    · intro k hk
      rw [show State.clients _ = s'.clients from rfl, hclients'] at hk
      cases hk
  refine ⟨hinv, hinv.undone ?_ hclients'⟩
  rintro ⟨m', hm', -⟩
  cases hm'

/-- A client is opened. -/
theorem State.Inv.driverOpen (h : s.Inv) (hpriv : s.priv = some m) (allocated : Bool) :
  (s.driverOpen m allocated).Inv
  := by
  unfold State.driverOpen
  split
  · apply h.update { m with clientCount := m.clientCount + 1 } s.waits hpriv rfl rfl
    · rw [List.map_append]
      apply h.kClients.alloc
    · intro k hk
      obtain hk | hk := List.mem_append.mp hk
      · apply h.clients_addr hpriv k hk
      · rw [List.mem_singleton.mp hk]
    · apply h.waits_initialised hpriv
  · apply h

/-- The numbers of the clients, without one of them. -/
theorem map_erase {clients : List Client} {k : Client} (hnodup : (clients.map Client.number).Nodup)
    (hk : k ∈ clients) :
  (clients.erase k).map Client.number = (clients.map Client.number).erase k.number
  := by
  induction clients with
  | nil => cases hk
  | cons c clients ih =>
      rw [List.map_cons, List.nodup_cons] at hnodup
      by_cases hc : c = k
      · subst hc
        rw [List.erase_cons_head, List.map_cons, List.erase_cons_head]
      · have hk : k ∈ clients := (List.mem_cons.mp hk).resolve_left (Ne.symm hc)
        have hne : c.number ≠ k.number := by
          intro heq
          apply hnodup.1
          rw [heq]
          apply List.mem_map_of_mem hk
        rw [List.erase_cons_tail (by simpa using hc), List.map_cons, List.map_cons,
          List.erase_cons_tail (by simpa using hne), ih hnodup.2 hk]

/-- A client is closed. -/
theorem State.Inv.driverClose (h : s.Inv) (hpriv : s.priv = some m) (client : Nat) :
  (s.driverClose m client).Inv
  := by
  unfold State.driverClose
  split
  · next hk =>
      apply h.update { m with clientCount := m.clientCount - 1 } s.waits hpriv rfl rfl
      · rw [map_erase h.kClients.nodup hk]
        apply h.kClients.free (List.mem_map_of_mem hk)
      · exact fun k hk' => h.clients_addr hpriv k (List.mem_of_mem_erase hk')
      · apply h.waits_initialised hpriv
  · apply h

/-- An event is sent. -/
theorem State.Inv.sendKevent (h : s.Inv) (hpriv : s.priv = some m) (hinit : m.initialised)
    (o : Preparation) (eventClass : BitVec 64) (event : BitVec 32) (content : Option String)
    (sync : Bool) :
  (s.sendKevent m o eventClass event content sync).Inv
  := by
  unfold State.sendKevent
  split
  · apply h
  split
  · apply h
  · have hupdate := h.update m s.waits.alloc hpriv rfl rfl h.kClients (h.clients_addr hpriv)
      fun _ => hinit
    rw [← hpriv] at hupdate
    apply hupdate
  · exact h.update _ _ hpriv rfl rfl h.kClients (h.clients_addr hpriv) fun _ => hinit

/-- A wait ends. -/
theorem State.Inv.wake (h : s.Inv) (hpriv : s.priv = some m) (wait : Nat) :
  (s.wake m wait).Inv
  := by
  unfold State.wake
  split
  · exact h.update _ _ hpriv rfl rfl h.kClients (h.clients_addr hpriv) (h.waits_initialised hpriv)
  · apply h

/-- A release that is not allowed leaves `g_keventModule` or a client behind. -/
theorem State.Inv.allowed_of_released (h : s.Inv) (hreleased : s.Released .driverRelease) :
  s.Allowed .driverRelease
  := by
  intro m hpriv
  have hnext : s.next .driverRelease = s.driverRelease m := by
    unfold State.next
    rw [hpriv]
  have hfreed : m.addr ∈ (s.driverRelease m).modules.freed := List.mem_cons_self
  have hunreferenced := hreleased.1
  rw [hnext] at hunreferenced
  constructor
  · intro hinit
    apply hunreferenced.keventModule m.addr (h.published m hpriv hinit) hfreed
  · apply List.eq_nil_iff_forall_not_mem.mpr
    intro k hk
    apply hunreferenced.clients k hk
    rw [h.clients_addr hpriv k hk]
    apply hfreed

/-! ### Runs -/

/-- A caller of `SendKevent` with the module of the device: the module is initialised. -/
theorem State.Inv.target_active {source : Source} {addr : Nat} (h : s.Inv)
    (htarget : s.target source = some addr) :
  s.Active
  := by
  cases source with
  | sysEventSend => exact (h.keventModule addr htarget).1
  | notifier chain block =>
      unfold State.target at htarget
      dsimp only at htarget
      split at htarget
      · next hblock => exact (h.chains chain block hblock).1
      · cases htarget

/-- A call that is allowed keeps the invariant. -/
theorem State.Inv.next {a : Act} (h : s.Inv) (ha : s.Allowed a) :
  (s.next a).Inv ∧ (a = .driverRelease → (s.next a).Undone)
  := by
  unfold State.next
  cases hpriv : s.priv with
  | none =>
      have hidle : ¬s.Active := by
        rintro ⟨m, hm, -⟩
        rw [hpriv] at hm
        cases hm
      have hundone := h.undone hidle (h.clients_eq_nil hpriv)
      cases a with
      | driverBind dev module mutex clientMutex =>
          exact ⟨h.driverBind hpriv dev module mutex clientMutex, Act.noConfusion⟩
      | _ => exact ⟨h, fun _ => hundone⟩
  | some m =>
      cases a with
      | driverBind dev module mutex clientMutex => exact ⟨h, Act.noConfusion⟩
      | driverInit pm fb =>
          refine ⟨?_, Act.noConfusion⟩
          dsimp only
          split
          · apply h
          · next hinit => exact h.driverInit hpriv hinit pm fb
      | driverOpen allocated => exact ⟨h.driverOpen hpriv allocated, Act.noConfusion⟩
      | driverClose client => exact ⟨h.driverClose hpriv client, Act.noConfusion⟩
      | send source o eventClass event content sync =>
          refine ⟨?_, Act.noConfusion⟩
          dsimp only
          split
          · next htarget =>
              have hinit := (State.active_iff hpriv).mp (h.target_active htarget)
              apply h.sendKevent hpriv hinit o eventClass event content sync
          · apply h
      | wake wait => exact ⟨h.wake hpriv wait, Act.noConfusion⟩
      | driverRelease =>
          obtain ⟨hinit, hclients⟩ := ha m hpriv
          have hidle : ¬s.Active := by
            rw [State.active_iff hpriv]
            apply hinit
          obtain ⟨hinv, hundone⟩ := h.driverRelease hpriv hidle hclients
          exact ⟨hinv, fun _ => hundone⟩

/-- The releases leave nothing behind in exactly the runs in which each module that is released was
not initialised and has no client. -/
theorem released_iff (acts : List Act) :
  Along State.next State.Released State.init acts ↔ Along State.next State.Allowed State.init acts
  := by
  have hiff : ∀ (s : State) a, s.Inv → (s.Released a ↔ s.Allowed a) := by
    intro s a h
    constructor
    · intro hreleased
      cases a with
      | driverRelease => exact h.allowed_of_released hreleased
      | _ => trivial
    · intro ha
      exact ⟨(h.next ha).1.unreferenced, (h.next ha).2⟩
  have hkeep : ∀ (s : State) a, s.Inv → s.Allowed a → (s.next a).Inv :=
    fun s a h ha => (h.next ha).1
  apply along_iff hiff hkeep State.inv_init

/-- A module that was bound and initialised is released: `g_keventModule` and the chain of the
framebuffer refer to it. -/
theorem not_released :
  ∃ acts : List Act,
    ¬Along State.next State.Released State.init acts
      ∧ (acts.foldl State.next State.init).modules.freed = [0]
      ∧ (acts.foldl State.next State.init).keventModule = some 0
      ∧ (acts.foldl State.next State.init).chain .fb = [⟨0, .fb⟩]
  := by
  refine ⟨[.driverBind true true true true, .driverInit true true, .driverRelease], ?_, rfl, rfl,
    rfl⟩
  rintro ⟨-, -, ⟨hunreferenced, -⟩, -⟩
  apply hunreferenced.keventModule 0 rfl List.mem_cons_self

end Kevent.Lifecycle
