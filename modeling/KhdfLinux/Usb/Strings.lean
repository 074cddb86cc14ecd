import KhdfLinux.Lib.Cells
import KhdfLinux.Lib.CStrings
import KhdfLinux.Usb.Uapi

/-!
# Parsing strings

`ffsDataGotStrings` takes the blob with the strings for the descriptors in one or more
languages, and builds the tables of the strings in one allocation.
-/

namespace Ffs

open Bytes Exec

/-- `struct usb_string`; the string is where it starts in the blob. -/
structure UsbString where
  id : UInt8
  s : Option Nat
  deriving DecidableEq, Repr

/-- `struct usb_gadget_strings`; the strings are where they start in the array. -/
structure UsbGadgetStrings where
  language : Nat
  strings : Nat
  deriving DecidableEq, Repr

/-- What `__ffs_data_got_strings` allocates: the pointers to the tables, the tables of the
languages, and the strings. -/
structure StringTables where
  stringtabs : List (Option Nat)
  stringtab : List UsbGadgetStrings
  strings : List UsbString
  deriving DecidableEq, Repr

/-- The numbers of elements of the three arrays. -/
def stringtabsCount (langCount : Nat) : Nat := u32 ((langCount : Int) + 1)
def stringsCount (langCount neededCount : Nat) : Nat :=
  u32 ((langCount : Int) * u32 ((neededCount : Int) + 1))

/-- `vla_group_size(d)`: a pointer takes 8 bytes, a table and a string 16 each. -/
def stringsGroupSize (langCount neededCount : Nat) : Nat :=
  8 * stringtabsCount langCount + 16 * langCount + 16 * stringsCount langCount neededCount

/-- The memory of the allocation; what `kmalloc` leaves in it is zero here. -/
def newTables (langCount neededCount : Nat) : StringTables where
  stringtabs := List.replicate (stringtabsCount langCount) none
  stringtab := List.replicate langCount ⟨0, 0⟩
  strings := List.replicate (stringsCount langCount neededCount) ⟨0, none⟩

/-- `stringtabs[i] = v`. -/
def writeTab (i : Nat) (v : Option Nat) : Exec StringTables Unit := do
  Cells.write (← get).stringtabs i v fun cells tables => { tables with stringtabs := cells }

/-- `stringtab[i] = v`. -/
def writeLanguage (i : Nat) (v : UsbGadgetStrings) : Exec StringTables Unit := do
  Cells.write (← get).stringtab i v fun cells tables => { tables with stringtab := cells }

/-- `strings[i] = v`. -/
def writeString (i : Nat) (v : UsbString) : Exec StringTables Unit := do
  Cells.write (← get).strings i v fun cells tables => { tables with strings := cells }

/-- The pointers to `n` tables from table `i` on. -/
def linkTables : (n i : Nat) → Exec StringTables Unit
  | 0, i => writeTab i none
  | n + 1, i => do
      writeTab i (some i)
      linkTables n (i + 1)

/-- The cursors of the parser: the bytes that are left start at position `data`, and `s` is
the next element of the strings. -/
structure StringCursor where
  data : Nat
  rest : Bytes
  s : Nat
  deriving DecidableEq, Repr

/-- Store a string, if there are some needed still. -/
def storeNeeded (needed : Nat) (cursor : StringCursor) : Exec StringTables Nat :=
  if needed = 0 then pure cursor.s
  else do
    writeString cursor.s ⟨0, some cursor.data⟩
    pure (cursor.s + 1)

/-- The loop over the strings of a language, until `--str_count` is zero.  There is a byte at
least for every string, so that it ends before `fuel` does if that is the number of bytes
left. -/
def scanStrings : (fuel strCount needed : Nat) → StringCursor → Exec StringTables StringCursor
  | 0, _, _, _ => stop (.ret (-einval))
  | fuel + 1, strCount, needed, cursor =>
      let length := strnlen cursor.rest
      if length = cursor.rest.length then
        stop (.ret (-einval))
      else do
        let s ← storeNeeded needed cursor
        let next : StringCursor :=
          ⟨cursor.data + (length + 1), cursor.rest.drop (length + 1), s⟩
        if u32 ((strCount : Int) - 1) = 0 then pure next
        else scanStrings fuel (u32 ((strCount : Int) - 1)) (needed - 1) next

/-- The loop over the languages, until `--lang_count` is zero; `t` is the next table.  When
the loop over the strings ends `str_count` is zero, and the next language starts with
that. -/
def scanLanguages : (fuel strCount langCount neededCount t : Nat) → StringCursor →
    Exec StringTables Bytes
  | 0, _, _, _, _, _ => stop (.ret (-einval))
  | fuel + 1, strCount, langCount, neededCount, t, cursor =>
      if cursor.rest.length < 3 then
        stop (.ret (-einval))
      else do
        writeLanguage t ⟨le16At cursor.rest 0, cursor.s⟩
        let cursor ← scanStrings (cursor.rest.length - 2) strCount neededCount
          ⟨cursor.data + 2, cursor.rest.drop 2, cursor.s⟩
        writeString cursor.s ⟨0, none⟩
        let next : StringCursor := ⟨cursor.data, cursor.rest, cursor.s + 1⟩
        if u32 ((langCount : Int) - 1) = 0 then pure cursor.rest
        else scanLanguages fuel 0 (u32 ((langCount : Int) - 1)) neededCount (t + 1) next

/-- The tables of a blob, into the memory that is allocated for them. -/
def buildTables (blob : Bytes) (strCount langCount neededCount : Nat) :
    Exec StringTables Unit := do
  linkTables langCount 0
  let rest ← scanLanguages (blob.length - 16) strCount langCount neededCount 0
    ⟨16, blob.drop 16, 0⟩
  -- some garbage left?
  if rest.length ≠ 0 then stop (.ret (-einval)) else pure ()

/-- `__ffs_data_got_strings` for an `ffs_data` with `strings_count = neededCount`.  `kmalloc`
tells if there is memory of a size.  The result is what `ffs->stringtabs` is set to, if it is
set. -/
def ffsDataGotStrings (neededCount : Nat) (blob : Bytes) (kmalloc : Nat → Bool) :
    Except Stop (Option StringTables) :=
  if blob.length < 16 ∨ le32At blob 0 ≠ functionfsStringsMagic ∨ le32At blob 4 ≠ blob.length then
    .error (.ret (-einval))
  else
    let strCount := le32At blob 8
    let langCount := le32At blob 12
    if ¬(strCount = 0 ↔ langCount = 0) then
      .error (.ret (-einval))
    else if strCount < neededCount then
      .error (.ret (-einval))
    else if neededCount = 0 then
      .ok none
    else if ¬kmalloc (stringsGroupSize langCount neededCount) then
      .error (.ret (-enomem))
    else
      match (buildTables blob strCount langCount neededCount).run
          (newTables langCount neededCount) with
      | .ok _ tables => .ok (some tables)
      | .error e _ => .error e

end Ffs
