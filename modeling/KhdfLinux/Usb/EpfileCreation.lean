import KhdfLinux.Lib.Blocks
import KhdfLinux.Lib.BoundedStrings
import KhdfLinux.Lib.Ledger
import KhdfLinux.Usb.FfsData
import KhdfLinux.Usb.Registry

/-!
# The creation of the endpoint files

`ffs_epfiles_create` registers a character device and a device node for each endpoint, and
`ffs_epfiles_destroy` takes them back.  `epfiles_create_iff`: a creation registers all of them, for
`ffs_epfiles_destroy` to undo exactly that, or leaves nothing behind, exactly as long as it does not
come to an endpoint whose name does not fit: the first one, if the names have the addresses, or the
tenth one, if they have the numbers, of a function with a name of 59 characters.
-/

namespace Ffs

open Bytes

/-! ### Names -/

/-- `MAX_NAMELEN`. -/
def maxNamelen : Nat := 64

/-- What `"%u"` prints. -/
def decimal (n : Nat) : Bytes := (Nat.toDigits 10 n).map fun c => UInt8.ofNat c.toNat

/-- What `"%02x"` prints of a byte. -/
def hex02 (b : UInt8) : Bytes :=
  [Nat.digitChar (b.toNat / 16), Nat.digitChar (b.toNat % 16)].map fun c => UInt8.ofNat c.toNat

/-- The name of the function, `".ep"`, and the endpoint. -/
def epText (devName endpoint : Bytes) : Bytes := devName ++ [46, 101, 112] ++ endpoint

/-- What the creation reads of an `ffs_data`, besides what was parsed: `dev_name`, and the major
number in `devno`. -/
structure FfsNode where
  ffs : FfsData
  devName : CString
  major : Nat

/-- The names of the files have the addresses of the endpoints. -/
def FfsNode.Virtual (c : FfsNode) : Prop := hasFlag c.ffs.userFlags functionfsVirtualAddr

instance (c : FfsNode) : Decidable c.Virtual := by
  unfold FfsNode.Virtual
  infer_instance

/-- The text for the name of the `i`-th endpoint file. -/
def FfsNode.text (c : FfsNode) (i : Nat) : Bytes :=
  if c.Virtual then epText c.devName.bytes (hex02 (c.ffs.addrAt i))
  else epText c.devName.bytes (decimal i)

/-- `FUNCTIONFS_NEWFN` accepts the name: that of `ep0` fits. -/
def NewfnAccepts (devName : CString) : Prop :=
  (sprintfS maxNamelen (epText devName.bytes (decimal 0))).isSome

instance (devName : CString) : Decidable (NewfnAccepts devName) := by
  unfold NewfnAccepts
  infer_instance

/-! ### Files -/

/-- What the creation sets of a `struct ffs_epfile`, and if its mutex is locked. -/
structure EpfileNode where
  name : Bytes
  devno : Nat × Nat
  locked : Bool
  deriving DecidableEq, Repr

/-- The device nodes, by their numbers, with their names; the character devices that were added,
each by the array it is in and its place there; and the arrays. -/
@[ext]
structure NodeTable where
  devices : Nat × Nat → Option Bytes
  cdevs : Nat × Nat → Bool
  arrays : Ledger

namespace NodeTable

variable (k : NodeTable)

/-- `kcalloc`, if it finds the memory. -/
def kcalloc : NodeTable := { k with arrays := k.arrays.alloc }

/-- `kfree`. -/
def kfree (array : Nat) : NodeTable := { k with arrays := k.arrays.free array }

/-- `cdev_add`, which is to return `ret`. -/
def cdevAdd (cdev : Nat × Nat) (ret : Int) : NodeTable :=
  if ret = 0 then { k with cdevs := Function.update k.cdevs cdev true } else k

/-- `cdev_del`. -/
def cdevDel (cdev : Nat × Nat) : NodeTable :=
  { k with cdevs := Function.update k.cdevs cdev false }

/-- `device_create`, if it finds the memory: it fails if there is a device of the number. -/
def deviceCreate (devno : Nat × Nat) (name : Bytes) (memory : Bool) : Option NodeTable :=
  if memory ∧ k.devices devno = none then
    some { k with devices := Function.update k.devices devno (some name) }
  else none

/-- `device_destroy`. -/
def deviceDestroy (devno : Nat × Nat) : NodeTable :=
  { k with devices := Function.update k.devices devno none }

/-- The loop of `ffs_epfiles_destroy`, at a place of the array. -/
def destroyLoop (array : Nat) :
    (count place : Nat) → List EpfileNode → NodeTable → Except Oops NodeTable
  | 0, _, _, k => .ok k
  | _ + 1, _, [], _ => .error .useAfterFree  -- past the array
  | count + 1, place, epfile :: epfiles, k =>
      if epfile.locked then .error .bug
      else destroyLoop array count (place + 1) epfiles
        ((k.deviceDestroy epfile.devno).cdevDel (array, place))

/-- `ffs_epfiles_destroy`. -/
def ffsEpfilesDestroy (array : Nat) (epfiles : List EpfileNode) (count : Nat) :
    Except Oops NodeTable :=
  (destroyLoop array count 0 epfiles k).map fun k => k.kfree array

end NodeTable

/-- What the kernel's functions do for a creation: `cdevAdd i` is what `cdev_add` returns for the
`i`-th endpoint, and `deviceCreate i` tells if `device_create` finds the memory. -/
structure CreateEnv where
  kcalloc : Bool
  cdevAdd : Nat → Int
  deviceCreate : Nat → Bool

/-- What a creation returns, what it leaves, and `ffs->epfiles`. -/
structure Creation where
  ret : Int
  table : NodeTable
  epfiles : Option (Nat × List EpfileNode)

namespace FfsNode

variable (c : FfsNode) (env : CreateEnv)

/-- An error after an undoing. -/
def undone (code : Int) (k : Except Oops NodeTable) : Except Oops Creation :=
  k.map fun k => ⟨-code, k, none⟩

/-- The loop of `ffs_epfiles_create`, with the part of the array that is filled. -/
def createLoop (array : Nat) :
    (left i : Nat) → List EpfileNode → NodeTable → Except Oops Creation
  | 0, _, epfiles, k => .ok ⟨0, k, some (array, epfiles)⟩
  | left + 1, i, epfiles, k =>
      match sprintfS maxNamelen (c.text i) with
      | none => .ok ⟨-efault, k, none⟩
      | some name =>
          let devno := (c.major, i)
          let cdev := (array, i - 1)
          let ret := env.cdevAdd i
          let k := k.cdevAdd cdev ret
          if ret ≠ 0 then undone ebusy (k.ffsEpfilesDestroy array epfiles (i - 1))
          else
            match k.deviceCreate devno name (env.deviceCreate i) with
            | none =>
                undone ebusy ((k.cdevDel cdev).ffsEpfilesDestroy array epfiles (i - 1))
            | some k =>
                createLoop array left (i + 1) (epfiles ++ [⟨name, devno, false⟩]) k

/-- `ffs_epfiles_create`. -/
def ffsEpfilesCreate (k : NodeTable) : Except Oops Creation :=
  if env.kcalloc = false then .ok ⟨-enomem, k, none⟩
  else createLoop c env k.arrays.allocated c.ffs.epsCount 1 [] k.kcalloc

/-- The `i`-th file of the array. -/
def file (i : Nat) : EpfileNode := ⟨c.text i, (c.major, i), false⟩

/-- The first `n` files. -/
def files (n : Nat) : List EpfileNode := (List.range' 1 n).map c.file

end FfsNode

namespace NodeTable

/-- The first `n` files of the function, in an array, are registered too. -/
def withFiles (k : NodeTable) (c : FfsNode) (array n : Nat) : NodeTable where
  devices := Function.fill k.devices c.major 1 n fun i => some (c.text i)
  cdevs := Function.fill k.cdevs array 0 n fun _ => true
  arrays := k.arrays

/-- The files at `n` places of an array are not registered. -/
def withoutFiles (k : NodeTable) (major array place n : Nat) : NodeTable where
  devices := Function.fill k.devices major (place + 1) n fun _ => none
  cdevs := Function.fill k.cdevs array place n fun _ => false
  arrays := k.arrays

/-- A character device that was added is in an array that was allocated. -/
def Sound (k : NodeTable) : Prop :=
  ∀ array place, k.arrays.allocated ≤ array → ¬k.cdevs (array, place)

/-- Nothing is registered. -/
def empty : NodeTable := ⟨fun _ => none, fun _ => false, .empty⟩

theorem sound_empty :
  empty.Sound
  := fun _ _ _ => Bool.false_ne_true

end NodeTable

namespace FfsNode

variable (c : FfsNode) (env : CreateEnv) (k : NodeTable)

/-- All files are registered and recorded, or none is, and the array is freed if it was there. -/
def Atomic (r : Creation) : Prop :=
  (r.ret = 0
    ∧ r.table = k.kcalloc.withFiles c k.arrays.allocated c.ffs.epsCount
    ∧ r.epfiles = some (k.arrays.allocated, c.files c.ffs.epsCount))
  ∨ (r.ret < 0
    ∧ (r.table = k ∨ r.table = k.kcalloc.kfree k.arrays.allocated)
    ∧ r.epfiles = none)

/-- A creation is all or nothing, and what `ffs_epfiles_destroy` does to its files, at any later
time, is to take them back, which undoes a creation. -/
structure AllOrNothing : Prop where
  creates : ∃ r, c.ffsEpfilesCreate env k = .ok r ∧ c.Atomic k r
  destroys : ∀ r array epfiles, c.ffsEpfilesCreate env k = .ok r →
    r.epfiles = some (array, epfiles) →
      (∀ later : NodeTable, later.ffsEpfilesDestroy array epfiles c.ffs.epsCount
        = .ok ((later.withoutFiles c.major array 0 c.ffs.epsCount).kfree array))
      ∧ r.table.withoutFiles c.major array 0 c.ffs.epsCount = k.kcalloc

/-- The kernel registers the `i`-th file. -/
def Made (i : Nat) : Prop :=
  env.cdevAdd i = 0 ∧ env.deviceCreate i ∧ k.devices (c.major, i) = none

/-- The first endpoint whose name is longer than that of `ep0`. -/
def firstLong : Nat := if c.Virtual then 1 else 10

/-- The creation comes to an endpoint whose name does not fit. -/
def Overlong : Prop :=
  env.kcalloc ∧ c.devName.bytes.length = 59 ∧ c.firstLong ≤ c.ffs.epsCount
    ∧ ∀ i, 0 < i → i < c.firstLong → c.Made env k i

end FfsNode

/-! ### Destroying -/

namespace NodeTable

variable {k : NodeTable} {c : FfsNode} {array n : Nat}

/-- A place that is taken back before the following ones. -/
theorem withoutFiles_succ (k : NodeTable) (major array place n : Nat) :
  ((k.deviceDestroy (major, place + 1)).cdevDel (array, place)).withoutFiles major array
      (place + 1) n
    = k.withoutFiles major array place (n + 1)
  := by
  unfold withoutFiles
  rw [← Function.fill_update k.devices, ← Function.fill_update k.cdevs]
  rfl

theorem destroyLoop_eq (k : NodeTable) (c : FfsNode) (array place : Nat) {n m : Nat} (h : n ≤ m) :
  destroyLoop array n place ((List.range' (place + 1) m).map c.file) k
    = .ok (k.withoutFiles c.major array place n)
  := by
  induction n generalizing m place k with
  | zero =>
      unfold withoutFiles
      rw [Function.fill_zero, Function.fill_zero]
      rfl
  | succ n ih =>
      obtain ⟨m, rfl⟩ := Nat.exists_eq_add_of_le' (Nat.le_trans (Nat.le_add_left 1 n) h)
      rw [List.range'_succ, List.map_cons, ← withoutFiles_succ]
      apply ih
      omega

theorem ffsEpfilesDestroy_eq (k : NodeTable) (c : FfsNode) (array n : Nat) :
  k.ffsEpfilesDestroy array (c.files n) n
    = .ok ((k.withoutFiles c.major array 0 n).kfree array)
  := by
  unfold ffsEpfilesDestroy FfsNode.files
  rw [destroyLoop_eq k c array 0 (Nat.le_refl n)]
  rfl

/-- A removal keeps to the arrays that were allocated. -/
theorem sound_destroy {k' : NodeTable} {epfiles : List EpfileNode} {count : Nat} (hk : k.Sound)
    (h : k.ffsEpfilesDestroy array epfiles count = .ok k') :
  k'.Sound
  := by
  have hloop : ∀ (count place : Nat) (epfiles : List EpfileNode) (k k' : NodeTable), k.Sound →
      destroyLoop array count place epfiles k = .ok k' → k'.Sound := by
    intro count
    induction count with
    | zero =>
        rintro place epfiles k k' hk ⟨⟩
        apply hk
    | succ count ih =>
        intro place epfiles k k' hk h
        cases epfiles with
        | nil => cases h
        | cons epfile epfiles =>
            rw [destroyLoop] at h
            split_ifs at h
            apply ih _ _ _ _ _ h
            intro a p hle
            show ¬Function.update k.cdevs (array, place) false (a, p)
            rw [Function.update_apply]
            split_ifs
            · exact id
            · apply hk a p hle
  unfold ffsEpfilesDestroy at h
  cases hrun : destroyLoop array count 0 epfiles k with
  | error e =>
      rw [hrun] at h
      cases h
  | ok t =>
      rw [hrun] at h
      obtain rfl := Except.ok.inj h
      apply hloop _ _ _ _ _ hk hrun

/-! ### Creating -/

/-- The next file. -/
theorem withFiles_succ (k : NodeTable) (c : FfsNode) (array n : Nat) :
  k.withFiles c array (n + 1)
    = { k.withFiles c array n with
        devices := Function.update (k.withFiles c array n).devices (c.major, n + 1)
          (some (c.text (n + 1)))
        cdevs := Function.update (k.withFiles c array n).cdevs (array, n) true }
  := by
  unfold withFiles
  rw [← Function.update_fill, ← Function.update_fill k.cdevs, Nat.zero_add, Nat.add_comm 1 n]

/-- What is registered in a new array at free numbers can be taken back. -/
theorem withFiles_withoutFiles
    (hdevices : ∀ i, 0 < i → i ≤ n → k.devices (c.major, i) = none)
    (hcdevs : ∀ place, k.cdevs (array, place) = false) :
  (k.withFiles c array n).withoutFiles c.major array 0 n = k
  := by
  unfold withoutFiles withFiles
  rw [Function.fill_fill, Function.fill_fill, Function.fill_eq_self, Function.fill_eq_self]
  · exact fun place _ _ => hcdevs place
  · intro i hpos hlt
    apply hdevices i hpos
    omega

end NodeTable

namespace FfsNode

variable {c : FfsNode} {env : CreateEnv} {k : NodeTable} {n : Nat} {r : Creation}

/-- The table after the first `n` turns. -/
def turns (c : FfsNode) (k : NodeTable) (n : Nat) : NodeTable :=
  k.kcalloc.withFiles c k.arrays.allocated n

/-- After the first `n` turns, the creation comes to an endpoint whose name does not fit. -/
def Stuck (c : FfsNode) (env : CreateEnv) (k : NodeTable) (n : Nat) : Prop :=
  ∃ i, n < i ∧ i ≤ c.ffs.epsCount ∧ maxNamelen ≤ (c.text i).length
    ∧ ∀ j, n < j → j < i → c.Made env k j

theorem files_succ (c : FfsNode) (n : Nat) :
  c.files (n + 1) = c.files n ++ [c.file (n + 1)]
  := by
  unfold files
  rw [List.range'_1_concat, List.map_append, Nat.add_comm 1 n]
  rfl

theorem turns_devices (c : FfsNode) (k : NodeTable) (n : Nat) :
  (c.turns k n).devices (c.major, n + 1) = k.devices (c.major, n + 1)
  := by
  simp only [turns, NodeTable.withFiles]
  apply Function.fill_apply_of_not_mem
  omega

theorem turns_cdevs (c : FfsNode) (hk : k.Sound) (n : Nat) :
  (c.turns k n).cdevs (k.arrays.allocated, n) = false
  := by
  simp only [turns, NodeTable.withFiles]
  rw [Bool.eq_false_iff, Function.fill_apply_of_not_mem (by omega)]
  apply hk _ n (Nat.le_refl _)

/-- What was registered in the first `n` turns can be taken back. -/
theorem turns_withoutFiles (hk : k.Sound) (hmade : ∀ i, 0 < i → i ≤ n → c.Made env k i) :
  (c.turns k n).withoutFiles c.major k.arrays.allocated 0 n = k.kcalloc
  := by
  apply NodeTable.withFiles_withoutFiles
  · exact fun i hpos hle => (hmade i hpos hle).2.2
  · exact fun place => Bool.eq_false_iff.mpr (hk _ place (Nat.le_refl _))

/-- What the turns before left is undone. -/
theorem undone_turns (hk : k.Sound) (hmade : ∀ i, 0 < i → i ≤ n → c.Made env k i) :
  undone ebusy ((c.turns k n).ffsEpfilesDestroy k.arrays.allocated (c.files n) n)
    = .ok ⟨-ebusy, k.kcalloc.kfree k.arrays.allocated, none⟩
  := by
  rw [NodeTable.ffsEpfilesDestroy_eq, turns_withoutFiles hk hmade]
  rfl

/-- The character device of the turn is removed again. -/
theorem cdevDel_cdevAdd (c : FfsNode) (hk : k.Sound) (n : Nat) :
  ((c.turns k n).cdevAdd (k.arrays.allocated, n) 0).cdevDel (k.arrays.allocated, n)
    = c.turns k n
  := by
  unfold NodeTable.cdevDel NodeTable.cdevAdd
  rw [if_pos rfl]
  simp only [Function.update_idem]
  rw [← turns_cdevs c hk, Function.update_eq_self]

/-- A turn whose name fits goes on if the kernel registers the file, and else leaves nothing. -/
theorem createLoop_turn (left : Nat) (hk : k.Sound)
    (hmade : ∀ i, 0 < i → i ≤ n → c.Made env k i) (hfits : (c.text (n + 1)).length < maxNamelen) :
  (c.Made env k (n + 1) →
    c.createLoop env k.arrays.allocated (left + 1) (n + 1) (c.files n) (c.turns k n)
      = c.createLoop env k.arrays.allocated left (n + 1 + 1) (c.files (n + 1)) (c.turns k (n + 1)))
  ∧ (¬c.Made env k (n + 1) →
    c.createLoop env k.arrays.allocated (left + 1) (n + 1) (c.files n) (c.turns k n)
      = .ok ⟨-ebusy, k.kcalloc.kfree k.arrays.allocated, none⟩)
  := by
  have hname : sprintfS maxNamelen (c.text (n + 1)) = some (c.text (n + 1)) := if_pos hfits
  rw [createLoop]
  simp only [hname, Nat.add_sub_cancel]
  by_cases hadd : env.cdevAdd (n + 1) = 0
  · rw [if_neg (not_not.mpr hadd), hadd]
    have hdevices : ((c.turns k n).cdevAdd (k.arrays.allocated, n) 0).devices (c.major, n + 1)
        = k.devices (c.major, n + 1) := turns_devices c k n
    unfold NodeTable.deviceCreate
    rw [hdevices]
    by_cases hcreate : env.deviceCreate (n + 1) = true ∧ k.devices (c.major, n + 1) = none
    · refine ⟨fun _ => ?_, fun h => absurd ⟨hadd, hcreate⟩ h⟩
      rw [if_pos hcreate, files_succ]
      unfold turns
      rw [NodeTable.withFiles_succ]
      rfl
    · refine ⟨fun h => absurd h.2 hcreate, fun _ => ?_⟩
      rw [if_neg hcreate]
      simp only
      rw [cdevDel_cdevAdd c hk]
      apply undone_turns hk hmade
  · refine ⟨fun h => absurd h.1 hadd, fun _ => ?_⟩
    rw [if_pos hadd]
    unfold NodeTable.cdevAdd
    rw [if_neg hadd]
    apply undone_turns hk hmade

theorem createLoop_long (left : Nat) (hlong : maxNamelen ≤ (c.text (n + 1)).length) :
  c.createLoop env k.arrays.allocated (left + 1) (n + 1) (c.files n) (c.turns k n)
    = .ok ⟨-efault, c.turns k n, none⟩
  := by
  have hname : sprintfS maxNamelen (c.text (n + 1)) = none := if_neg (Nat.not_lt.mpr hlong)
  rw [createLoop, hname]

theorem stuck_iff (hlt : n < c.ffs.epsCount) :
  c.Stuck env k n
    ↔ maxNamelen ≤ (c.text (n + 1)).length ∨ c.Made env k (n + 1) ∧ c.Stuck env k (n + 1)
  := by
  constructor
  · rintro ⟨i, hni, hi, hlong, hmade⟩
    obtain rfl | hlt := Nat.eq_or_lt_of_le (Nat.succ_le_of_lt hni)
    · exact .inl hlong
    · refine .inr ⟨hmade _ (Nat.lt_succ_self n) hlt, i, hlt, hi, hlong, fun j hj => ?_⟩
      apply hmade j (Nat.lt_of_succ_lt hj)
  · rintro (hlong | ⟨hturn, i, hni, hi, hlong, hmade⟩)
    · refine ⟨n + 1, Nat.lt_succ_self n, hlt, hlong, fun j hj hj' => ?_⟩
      omega
    · refine ⟨i, Nat.lt_of_succ_lt hni, hi, hlong, fun j hj hj' => ?_⟩
      obtain rfl | hj := Nat.eq_or_lt_of_le (Nat.succ_le_of_lt hj)
      · apply hturn
      · apply hmade j hj hj'

/-- The loop stops at a name that does not fit, where it leaves what the turns before registered, or
it registers all files, or none is left. -/
theorem createLoop_cases {left : Nat} (hk : k.Sound) (hsum : n + left = c.ffs.epsCount)
    (hmade : ∀ i, 0 < i → i ≤ n → c.Made env k i) :
  ∃ r, c.createLoop env k.arrays.allocated left (n + 1) (c.files n) (c.turns k n) = .ok r
    ∧ (c.Stuck env k n → r.ret = -efault ∧ ∃ m, r.table = c.turns k m)
    ∧ (¬c.Stuck env k n →
      c.Atomic k r ∧ (r.ret = 0 → ∀ i, 0 < i → i ≤ c.ffs.epsCount → c.Made env k i))
  := by
  induction left generalizing n with
  | zero =>
      obtain rfl : n = c.ffs.epsCount := hsum
      refine ⟨_, rfl, ?_, fun _ => ⟨.inl ⟨rfl, rfl, rfl⟩, fun _ => hmade⟩⟩
      rintro ⟨i, hlt, hle, -⟩
      omega
  | succ left ih =>
      rw [stuck_iff (by omega)]
      by_cases hlong : maxNamelen ≤ (c.text (n + 1)).length
      · exact ⟨_, createLoop_long left hlong, fun _ => ⟨rfl, n, rfl⟩,
          fun h => absurd (.inl hlong) h⟩
      · rw [or_iff_right hlong]
        obtain ⟨hgoes, hstops⟩ := createLoop_turn left hk hmade (Nat.lt_of_not_le hlong)
        by_cases hturn : c.Made env k (n + 1)
        · rw [hgoes hturn, and_iff_right hturn]
          apply ih
          · omega
          · intro i hpos hle
            obtain rfl | hlt := Nat.eq_or_lt_of_le hle
            · apply hturn
            · apply hmade i hpos (Nat.le_of_lt_succ hlt)
        · refine ⟨_, hstops hturn, fun h => absurd h.1 hturn, fun _ => ⟨.inr ?_, fun h => ?_⟩⟩
          · exact ⟨(by decide : -ebusy < 0), .inr rfl, rfl⟩
          · cases h

/-! ### Names -/

theorem length_decimal : ∀ i < ffsMaxEpsCount, (decimal i).length = if i < 10 then 1 else 2
  := by decide

theorem length_epText (devName endpoint : Bytes) :
  (epText devName endpoint).length = devName.length + 3 + endpoint.length
  := by
  unfold epText
  rw [List.length_append, List.length_append]
  rfl

theorem newfnAccepts_iff (devName : CString) :
  NewfnAccepts devName ↔ devName.bytes.length ≤ 59
  := by
  unfold NewfnAccepts sprintfS
  have hlen : (epText devName.bytes (decimal 0)).length = devName.bytes.length + 3 + 1 :=
    length_epText _ _
  have hmax : maxNamelen = 64 := rfl
  split_ifs with h
  · apply iff_of_true rfl
    omega
  · apply iff_of_false Bool.false_ne_true
    omega

/-- The names that do not fit. -/
theorem long_iff {i : Nat} (haccepts : NewfnAccepts c.devName) (hpos : 0 < i)
    (hi : i < ffsMaxEpsCount) :
  maxNamelen ≤ (c.text i).length ↔ c.devName.bytes.length = 59 ∧ c.firstLong ≤ i
  := by
  have hle := (newfnAccepts_iff _).mp haccepts
  unfold text firstLong maxNamelen
  by_cases hvirtual : c.Virtual
  · rw [if_pos hvirtual, if_pos hvirtual]
    have hlen : (epText c.devName.bytes (hex02 (c.ffs.addrAt i))).length
        = c.devName.bytes.length + 3 + 2 := length_epText _ _
    omega
  · rw [if_neg hvirtual, if_neg hvirtual]
    have hlen : (epText c.devName.bytes (decimal i)).length
        = c.devName.bytes.length + 3 + if i < 10 then 1 else 2 := by
      rw [length_epText, length_decimal i hi]
    split_ifs at hlen
    · omega
    · omega

theorem overlong_iff (haccepts : NewfnAccepts c.devName)
    (hcount : c.ffs.epsCount < ffsMaxEpsCount) :
  c.Overlong env k ↔ env.kcalloc ∧ c.Stuck env k 0
  := by
  apply and_congr_right
  intro _
  have hpos : 0 < c.firstLong := by
    unfold firstLong
    split_ifs
    · decide
    · decide
  constructor
  · rintro ⟨hlen, hle, hmade⟩
    refine ⟨c.firstLong, hpos, hle, ?_, hmade⟩
    apply (long_iff haccepts hpos (Nat.lt_of_le_of_lt hle hcount)).mpr
    exact ⟨hlen, Nat.le_refl _⟩
  · rintro ⟨i, hi, hle, hlong, hmade⟩
    obtain ⟨hlen, hfirst⟩ := (long_iff haccepts hi (Nat.lt_of_le_of_lt hle hcount)).mp hlong
    refine ⟨hlen, Nat.le_trans hfirst hle, fun j hj hlt => ?_⟩
    apply hmade j hj (Nat.lt_of_lt_of_le hlt hfirst)

/-! ### All or nothing -/

theorem ffsEpfilesCreate_eq (hkcalloc : env.kcalloc) :
  c.ffsEpfilesCreate env k
    = c.createLoop env k.arrays.allocated c.ffs.epsCount (0 + 1) (c.files 0) (c.turns k 0)
  := by
  unfold ffsEpfilesCreate turns NodeTable.withFiles
  rw [Function.fill_zero, Function.fill_zero, if_neg _]
  · rfl
  · rw [hkcalloc]
    decide

/-- How a creation ends. -/
theorem ffsEpfilesCreate_cases (c : FfsNode) (env : CreateEnv) (hk : k.Sound) :
  ∃ r, c.ffsEpfilesCreate env k = .ok r
    ∧ (env.kcalloc ∧ c.Stuck env k 0 → r.ret = -efault ∧ ∃ m, r.table = c.turns k m)
    ∧ (¬(env.kcalloc ∧ c.Stuck env k 0) →
      c.Atomic k r ∧ (r.ret = 0 → ∀ i, 0 < i → i ≤ c.ffs.epsCount → c.Made env k i))
  := by
  by_cases hkcalloc : env.kcalloc
  · rw [ffsEpfilesCreate_eq hkcalloc, and_iff_right hkcalloc]
    apply createLoop_cases hk (Nat.zero_add _)
    intro i hpos hle
    omega
  · refine ⟨⟨-enomem, k, none⟩, if_pos (Bool.eq_false_iff.mpr hkcalloc),
      fun h => absurd h.1 hkcalloc, fun _ => ⟨.inr ?_, fun h => ?_⟩⟩
    · exact ⟨(by decide : -enomem < 0), .inl rfl, rfl⟩
    · cases h

/-- A creation that comes to a name that does not fit leaves the array. -/
theorem not_allOrNothing (hk : k.Sound) (hstuck : env.kcalloc ∧ c.Stuck env k 0) :
  ¬c.AllOrNothing env k
  := by
  rintro ⟨⟨r, hr, hatomic⟩, -⟩
  obtain ⟨_, hr', hleft, -⟩ := ffsEpfilesCreate_cases c env hk
  obtain rfl := Except.ok.inj (hr.symm.trans hr')
  obtain ⟨hret, m, htable'⟩ := hleft hstuck
  have harrays : r.table.arrays = k.arrays.alloc := congrArg NodeTable.arrays htable'
  obtain ⟨hzero, -⟩ | ⟨-, htable | htable, -⟩ := hatomic
  · rw [hret] at hzero
    cases hzero
  · rw [htable] at harrays
    have hallocated := congrArg Ledger.allocated harrays
    apply Nat.succ_ne_self _ hallocated.symm
  · rw [htable] at harrays
    have hfreed := congrArg Ledger.freed harrays
    apply List.cons_ne_self _ _ hfreed

theorem allOrNothing (hk : k.Sound) (hnot : ¬(env.kcalloc ∧ c.Stuck env k 0)) :
  c.AllOrNothing env k
  := by
  obtain ⟨r, hr, -, hright⟩ := ffsEpfilesCreate_cases c env hk
  obtain ⟨hatomic, hmade⟩ := hright hnot
  refine ⟨⟨r, hr, hatomic⟩, fun r' array epfiles hr' hepfiles => ?_⟩
  obtain rfl := Except.ok.inj (hr.symm.trans hr')
  obtain ⟨hret, htable, hfiles⟩ | ⟨-, -, hnone⟩ := hatomic
  · obtain ⟨rfl, rfl⟩ := Prod.ext_iff.mp (Option.some.inj (hfiles.symm.trans hepfiles))
    refine ⟨fun later => later.ffsEpfilesDestroy_eq c _ _, ?_⟩
    rw [htable]
    apply turns_withoutFiles hk (hmade hret)
  · rw [hnone] at hepfiles
    cases hepfiles

/-- A creation keeps to the arrays that were allocated. -/
theorem sound_create (hk : k.Sound) (h : c.ffsEpfilesCreate env k = .ok r) :
  r.table.Sound
  := by
  have hturns : ∀ m, (c.turns k m).Sound := fun m array place hle => by
    simp only [turns, NodeTable.withFiles]
    rw [Function.fill_apply_of_ne (Nat.ne_of_gt hle)]
    apply hk array place (Nat.le_of_succ_le hle)
  obtain ⟨_, hr, hleft, hright⟩ := ffsEpfilesCreate_cases c env hk
  obtain rfl := Except.ok.inj (h.symm.trans hr)
  by_cases hstuck : env.kcalloc ∧ c.Stuck env k 0
  · obtain ⟨-, m, htable⟩ := hleft hstuck
    rw [htable]
    apply hturns
  · obtain ⟨⟨-, htable, -⟩ | ⟨-, htable | htable, -⟩, -⟩ := hright hstuck
    · rw [htable]
      apply hturns
    · rw [htable]
      apply hk
    · rw [htable]
      exact fun array place hle => hk array place (Nat.le_of_succ_le hle)

end FfsNode

end Ffs
