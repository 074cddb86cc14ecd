import KhdfLinux.Usb.Strings

/-!
# Tables of strings

The grammar of a blob of strings, and what `ffsDataGotStrings` makes of one.  The count of
the strings is not set again for the second language, whose loop then goes around and never
comes to its end: with strings in one language the parser takes the blobs of the grammar,
and with more it takes none.
-/

namespace Ffs

open Bytes Exec

/-! ### The grammar -/

/-- The strings of a language, as they stand in a blob. -/
structure LangGroup where
  low : UInt8
  high : UInt8
  strings : List Bytes

/-- The language id. -/
def LangGroup.language (g : LangGroup) : Nat := g.low.toNat + 256 * g.high.toNat

/-- The bytes of the group. -/
def LangGroup.bytes (g : LangGroup) : Bytes := g.low :: g.high :: g.strings.flatMap terminate

/-- The body of a blob: for each language its id and its strings, and nothing else. -/
def IsBody (body : Bytes) (langCount strCount : Nat) (groups : List LangGroup) : Prop :=
  groups.length = langCount
    ∧ (∀ g ∈ groups, g.strings.length = strCount ∧ ∀ s ∈ g.strings, 0 ∉ s)
    ∧ body = groups.flatMap LangGroup.bytes

/-- The header of a blob from which `needed` strings are needed. -/
def StringsHeader (blob : Bytes) (needed : Nat) : Prop :=
  16 ≤ blob.length ∧ le32At blob 0 = functionfsStringsMagic ∧ le32At blob 4 = blob.length
    ∧ (le32At blob 8 = 0 ↔ le32At blob 12 = 0) ∧ needed ≤ le32At blob 8

/-- The blobs of the grammar; without a need for strings the body is not looked at. -/
def WellFormedStrings (blob : Bytes) (needed : Nat) : Prop :=
  StringsHeader blob needed
    ∧ (0 < needed → ∃ groups, IsBody (blob.drop 16) (le32At blob 12) (le32At blob 8) groups)

/-- The tables hold the first `needed` strings of every language. -/
structure StringTables.Holds (tables : StringTables) (blob : Bytes) (needed : Nat)
    (groups : List LangGroup) : Prop where
  stringtabs : tables.stringtabs = (List.range groups.length).map some ++ [none]
  length : tables.stringtab.length = groups.length
  language : ∀ (i : Nat) (g : LangGroup), groups[i]? = some g →
    ∃ tab : UsbGadgetStrings, tables.stringtab[i]? = some tab
    ∧ tab.language = g.language
    ∧ (∀ (j : Nat) (str : Bytes), j < needed → g.strings[j]? = some str → ∃ id p rest,
      tables.strings[tab.strings + j]? = some ⟨id, some p⟩ ∧ blob.drop p = terminate str ++ rest)
    ∧ tables.strings[tab.strings + needed]? = some ⟨0, none⟩

/-- The parser takes exactly the blobs of the grammar for which there is memory, its tables hold
what the blob says, and it writes only to its own memory. -/
structure StringsCorrect (needed : Nat) (blob : Bytes) (kmalloc : Nat → Bool) : Prop where
  safe : ∀ f, ffsDataGotStrings needed blob kmalloc ≠ .error (.fault f)
  accepts : (∃ r, ffsDataGotStrings needed blob kmalloc = .ok r)
    ↔ WellFormedStrings blob needed
      ∧ (0 < needed → kmalloc (stringsGroupSize (le32At blob 12) needed) = true)
  tables : ∀ r, ffsDataGotStrings needed blob kmalloc = .ok r → 0 < needed →
    ∃ tables groups, r = some tables
      ∧ IsBody (blob.drop 16) (le32At blob 12) (le32At blob 8) groups
      ∧ tables.Holds blob needed groups

/-- The blob holds strings that are needed, in several languages. -/
def ManyLanguages (needed : Nat) (blob : Bytes) (kmalloc : Nat → Bool) : Prop :=
  0 < needed ∧ 1 < le32At blob 12 ∧ WellFormedStrings blob needed
    ∧ kmalloc (stringsGroupSize (le32At blob 12) needed) = true

/-! ### The strings of a language -/

/-- The number of rounds of a loop that ends when its 32 bit counter, decremented after each
round, is zero. -/
def iterations (count : Nat) : Nat := if count = 0 then 4294967296 else count

theorem iterations_last
    {count : Nat} (hcount : count < 4294967296) (h : u32 ((count : Int) - 1) = 0) :
  iterations count = 1
  := by
  have : count = 1 := by
    unfold u32 at h
    omega
  subst this
  rfl

theorem iterations_next
    {count : Nat} (hcount : count < 4294967296) (h : u32 ((count : Int) - 1) ≠ 0) :
  iterations count = iterations (u32 ((count : Int) - 1)) + 1
  := by
  unfold iterations
  rw [if_neg h]
  by_cases h0 : count = 0
  · subst h0
    rfl
  · rw [if_neg h0]
    unfold u32
    omega

/-- The elements that are stored for the strings of a language. -/
def records (data : Nat) (strs : List Bytes) (needed : Nat) : List UsbString :=
  ((starts data strs).take needed).map fun p => ⟨0, some p⟩

/-- The tables with strings stored from element `i` on. -/
def StringTables.store (tables : StringTables) (i : Nat) (strings : List UsbString) :
    StringTables :=
  { tables with strings := Cells.overlay tables.strings i strings }

theorem StringTables.store_append (tables : StringTables) (i : Nat) (xs ys : List UsbString) :
  tables.store i (xs ++ ys) = (tables.store i xs).store (i + xs.length) ys
  := by
  rw [store, Cells.overlay_append]
  rfl

theorem writeString_run
    {i : Nat} {v : UsbString} {tables : StringTables} (h : i < tables.strings.length) :
  (writeString i v).run tables = .ok () (tables.store i [v])
  := by
  unfold writeString
  rw [EStateM.run_bind, EStateM.run_get]
  apply Cells.run_write h

/-- The string that is stored if it is needed. -/
def record (data needed : Nat) : List UsbString := if needed = 0 then [] else [⟨0, some data⟩]

theorem length_record (data needed : Nat) :
  (record data needed).length = min needed 1
  := by
  unfold record
  split_ifs with h
  · simp [h]
  · simp
    omega

theorem records_cons (data needed : Nat) (str : Bytes) (strs : List Bytes) :
  records data (str :: strs) needed
    = record data needed ++ records (data + (str.length + 1)) strs (needed - 1)
  := by
  cases needed with
  | zero => simp [records, record]
  | succ needed => simp [records, record, starts]

theorem storeNeeded_run {needed : Nat} {cursor : StringCursor} {tables : StringTables}
    (hroom : cursor.s + needed ≤ tables.strings.length) :
  (storeNeeded needed cursor).run tables
    = .ok (cursor.s + min needed 1) (tables.store cursor.s (record cursor.data needed))
  := by
  unfold storeNeeded record
  by_cases h : needed = 0
  · subst h
    rfl
  · rw [if_neg h, if_neg h, EStateM.run_bind, writeString_run (by omega),
      show min needed 1 = 1 by omega]
    rfl

/-- The loop takes as many strings as it has rounds, and stores those that are needed. -/
theorem scanStrings_meets
    {fuel strCount needed : Nat} {cursor : StringCursor} {tables : StringTables}
    (hfuel : cursor.rest.length ≤ fuel) (hcount : strCount < 4294967296)
    (hroom : cursor.s + needed ≤ tables.strings.length) :
  (scanStrings fuel strCount needed cursor).Meets tables
    (fun next tables' => ∃ strs,
      takeStrings (iterations strCount) cursor.rest = some (strs, next.rest)
      ∧ next.s = cursor.s + min needed (iterations strCount)
      ∧ tables' = tables.store cursor.s (records cursor.data strs needed))
    (fun e _ => e = .ret (-einval) ∧ takeStrings (iterations strCount) cursor.rest = none)
  := by
  induction fuel generalizing strCount needed cursor tables with
  | zero =>
      apply meets_stop
      obtain hnil : cursor.rest = [] := List.length_eq_zero_iff.mp (by omega)
      refine ⟨rfl, ?_⟩
      rw [hnil]
      obtain ⟨n, hn⟩ : ∃ n, iterations strCount = n + 1 := by
        refine ⟨iterations strCount - 1, ?_⟩
        unfold iterations
        split_ifs <;> omega
      rw [hn]
      rfl
  | succ fuel ih =>
      rw [scanStrings]
      dsimp only
      apply meets_guard
      · intro hend
        refine ⟨rfl, ?_⟩
        obtain ⟨n, hn⟩ : ∃ n, iterations strCount = n + 1 := by
          refine ⟨iterations strCount - 1, ?_⟩
          unfold iterations
          split_ifs <;> omega
        rw [hn, takeStrings, if_pos hend]
      intro hend
      apply meets_step (storeNeeded_run hroom)
      have hlt := Nat.lt_of_le_of_ne (strnlen_le cursor.rest) hend
      by_cases hlast : u32 ((strCount : Int) - 1) = 0
      · rw [if_pos hlast]
        apply meets_pure
        refine ⟨[cursor.rest.take (strnlen cursor.rest)], ?_, ?_, ?_⟩
        · rw [iterations_last hcount hlast, takeStrings, if_neg hend]
          rfl
        · rw [iterations_last hcount hlast]
        · rw [records_cons, records, starts, List.take_nil, List.map_nil, List.append_nil]
      · rw [if_neg hlast]
        have hnext := iterations_next hcount hlast
        refine (ih ?_ (u32_lt _) ?_).mono ?_ ?_
        · simp only [List.length_drop]
          omega
        · simp only [StringTables.store, Cells.length_overlay]
          omega
        · rintro next tables' ⟨strs, htake, hs, htables⟩
          refine ⟨cursor.rest.take (strnlen cursor.rest) :: strs, ?_, ?_, ?_⟩
          · rw [hnext, takeStrings, if_neg hend, htake]
            rfl
          · rw [hs, hnext]
            dsimp only
            omega
          · rw [htables]
            dsimp only
            have hlen : (cursor.rest.take (strnlen cursor.rest)).length = strnlen cursor.rest := by
              simp
              omega
            rw [records_cons, hlen, StringTables.store_append, length_record]
        · rintro e tables' ⟨rfl, htake⟩
          refine ⟨rfl, ?_⟩
          rw [hnext, takeStrings, if_neg hend, htake]
          rfl

/-! ### The languages -/

theorem linkTables_run {n i : Nat} {tables : StringTables} (h : i + n < tables.stringtabs.length) :
  (linkTables n i).run tables = .ok () { tables with
    stringtabs := Cells.overlay tables.stringtabs i ((List.range' i n).map some ++ [none]) }
  := by
  induction n generalizing i tables with
  | zero =>
      rw [linkTables, writeTab, EStateM.run_bind, EStateM.run_get]
      exact Cells.run_write (by omega)
  | succ n ih =>
      have hwrite : (writeTab i (some i)).run tables
          = .ok () { tables with stringtabs := tables.stringtabs.set i (some i) } := by
        rw [writeTab, EStateM.run_bind, EStateM.run_get]
        exact Cells.run_write (by omega)
      rw [linkTables, EStateM.run_bind, hwrite]
      dsimp only
      rw [ih (by simp; omega)]
      rfl

theorem writeLanguage_run
    {i : Nat} {v : UsbGadgetStrings} {tables : StringTables}
    (h : i < tables.stringtab.length) :
  (writeLanguage i v).run tables = .ok () { tables with stringtab := tables.stringtab.set i v }
  := by
  unfold writeLanguage
  rw [EStateM.run_bind, EStateM.run_get]
  apply Cells.run_write h

/-- The tables after a language. -/
def StringTables.addLanguage (tables : StringTables) (t : Nat) (cursor : StringCursor)
    (strs : List Bytes) (needed : Nat) : StringTables :=
  StringTables.store
    { tables with stringtab := tables.stringtab.set t ⟨le16At cursor.rest 0, cursor.s⟩ }
    cursor.s
    (records (cursor.data + 2) strs needed ++ [⟨0, none⟩])

theorem length_records (data : Nat) {needed : Nat} {strs : List Bytes} (h : needed ≤ strs.length) :
  (records data strs needed).length = needed
  := by
  simp [records, h]

/-- A round of the loop over the languages. -/
theorem scanLanguages_step
    {fuel strCount langCount needed t : Nat} {cursor : StringCursor} {tables : StringTables}
    {Q : Bytes → StringTables → Prop} {E : Stop → StringTables → Prop}
    (hfuel : cursor.rest.length ≤ fuel) (hcount : strCount < 4294967296)
    (ht : t < tables.stringtab.length) (hneeded : needed ≤ iterations strCount)
    (hroom : cursor.s + needed < tables.strings.length)
    (hshort : cursor.rest.length < 3 → E (.ret (-einval)) tables)
    (hbad : takeStrings (iterations strCount) (cursor.rest.drop 2) = none →
      ∀ tables', E (.ret (-einval)) tables')
    (hnext : ∀ fuel strs next, ¬cursor.rest.length < 3 → next.rest.length ≤ fuel →
      takeStrings (iterations strCount) (cursor.rest.drop 2) = some (strs, next.rest) →
      next.s = cursor.s + needed + 1 →
      Meets (if u32 ((langCount : Int) - 1) = 0 then pure next.rest
        else scanLanguages fuel 0 (u32 ((langCount : Int) - 1)) needed (t + 1) next)
        (tables.addLanguage t cursor strs needed) Q E) :
  (scanLanguages fuel strCount langCount needed t cursor).Meets tables Q E
  := by
  cases fuel with
  | zero => exact meets_stop (hshort (by omega))
  | succ fuel =>
  rw [scanLanguages]
  apply meets_guard hshort
  intro hlong
  apply meets_step (writeLanguage_run ht)
  apply meets_bind
  refine (scanStrings_meets (by simp) hcount (by dsimp only; omega)).mono ?_ ?_
  · rintro next tables' ⟨strs, htake, hs, rfl⟩
    have hlength := (takeStrings_eq_some.mp htake).1
    rw [Nat.min_eq_left hneeded] at hs
    dsimp only at hs
    refine meets_step (writeString_run ?_) ?_
    · simp only [StringTables.store, Cells.length_overlay]
      omega
    have hrest : next.rest.length ≤ fuel := by
      have hle := congrArg List.length (takeStrings_eq_some.mp htake).2.2
      simp only [List.length_drop, List.length_append] at hle
      omega
    have hstore := hnext fuel strs ⟨next.data, next.rest, next.s + 1⟩ hlong hrest htake
      (by dsimp only; omega)
    rw [StringTables.addLanguage, StringTables.store_append, length_records _ (by omega), ← hs]
      at hstore
    apply hstore
  · rintro e tables' ⟨rfl, htake⟩
    apply hbad htake tables'

/-- The last language. -/
theorem scanLanguages_one
    {fuel strCount needed t : Nat} {cursor : StringCursor} {tables : StringTables}
    (hfuel : cursor.rest.length ≤ fuel)
    (hpos : 0 < strCount) (hcount : strCount < 4294967296) (ht : t < tables.stringtab.length)
    (hneeded : needed ≤ strCount) (hroom : cursor.s + needed < tables.strings.length) :
  (scanLanguages fuel strCount 1 needed t cursor).Meets tables
    (fun rest tables' => 3 ≤ cursor.rest.length ∧ ∃ strs,
      takeStrings strCount (cursor.rest.drop 2) = some (strs, rest)
      ∧ tables' = tables.addLanguage t cursor strs needed)
    (fun e _ => e = .ret (-einval)
      ∧ (3 ≤ cursor.rest.length → takeStrings strCount (cursor.rest.drop 2) = none))
  := by
  have hiter : iterations strCount = strCount := if_neg (by omega)
  apply scanLanguages_step hfuel hcount ht (by omega) hroom
  · intro hshort
    exact ⟨rfl, fun h => absurd hshort (by omega)⟩
  · intro hbad _
    exact ⟨rfl, fun _ => hiter ▸ hbad⟩
  · intro _ strs next hlong _ htake hs
    rw [hiter] at htake
    rw [if_pos (by decide)]
    exact meets_pure ⟨by omega, strs, htake, rfl⟩

/-- With several languages the loop over the strings of the second runs out of bytes, and
stores no more than the strings that are needed before that. -/
theorem scanLanguages_more
    {fuel strCount langCount needed t : Nat} {cursor : StringCursor} {tables : StringTables}
    (hfuel : cursor.rest.length ≤ fuel) (hpos : 0 < strCount) (hcount : strCount < 4294967296)
    (hlang : 1 < langCount) (hlang' : langCount < 4294967296)
    (ht : t + 1 < tables.stringtab.length) (hneeded : needed ≤ strCount)
    (hroom : cursor.s + 2 * (needed + 1) ≤ tables.strings.length)
    (hlength : cursor.rest.length < 4294967296) :
  (scanLanguages fuel strCount langCount needed t cursor).Meets tables
    (fun _ _ => False) (fun e _ => e = .ret (-einval))
  := by
  have hneeded₁ : needed ≤ iterations strCount := by
    rw [iterations, if_neg (by omega)]
    apply hneeded
  have hneeded₂ : needed ≤ iterations 0 := by
    rw [iterations, if_pos rfl]
    omega
  apply scanLanguages_step hfuel hcount (by omega) hneeded₁ (by omega) (fun _ => rfl)
    (fun _ _ => rfl)
  intro fuel strs next hlong hrest htake hs
  rw [if_neg (by unfold u32; omega)]
  have hnext : next.rest.length < 4294967296 := by
    have hle := congrArg List.length (takeStrings_eq_some.mp htake).2.2
    simp only [List.length_drop, List.length_append] at hle
    omega
  apply scanLanguages_step hrest (by omega) _ hneeded₂ _ (fun _ => rfl) (fun _ _ => rfl)
  · intro _ strs' next' _ _ htake' _
    have hle := le_length_of_takeStrings htake'
    rw [show iterations 0 = 4294967296 from rfl, List.length_drop] at hle
    omega
  · simp only [StringTables.addLanguage, StringTables.store, List.length_set]
    apply ht
  · simp only [StringTables.addLanguage, StringTables.store, Cells.length_overlay]
    omega

/-! ### A single language -/

theorem isBody_one {body : Bytes} {strCount : Nat} {groups : List LangGroup} :
  IsBody body 1 strCount groups
    ↔ 2 ≤ body.length ∧ ∃ strs, takeStrings strCount (body.drop 2) = some (strs, [])
      ∧ groups = [⟨byteAt body 0, byteAt body 1, strs⟩]
  := by
  constructor
  · rintro ⟨hlength, hgroups, rfl⟩
    obtain ⟨g, rfl⟩ := List.length_eq_one_iff.mp hlength
    obtain ⟨hcount, hstrs⟩ := hgroups g (by simp)
    simp only [List.flatMap_cons, List.flatMap_nil, List.append_nil]
    refine ⟨by simp [LangGroup.bytes], g.strings,
      takeStrings_eq_some.mpr ⟨hcount, hstrs, ?_⟩, rfl⟩
    simp [LangGroup.bytes]
  · rintro ⟨hlength, strs, htake, rfl⟩
    obtain ⟨hcount, hstrs, hdrop⟩ := takeStrings_eq_some.mp htake
    refine ⟨rfl, by simpa using ⟨hcount, hstrs⟩, ?_⟩
    obtain ⟨a, b, rest, rfl⟩ : ∃ a b rest, body = a :: b :: rest := by
      match body, hlength with
      | a :: b :: rest, _ => exact ⟨a, b, rest, rfl⟩
    simp only [List.flatMap_cons, List.flatMap_nil, List.append_nil, LangGroup.bytes]
    simpa [byteAt] using hdrop

/-- The tables of a single language. -/
def oneLanguage (blob : Bytes) (strs : List Bytes) (needed : Nat) : StringTables where
  stringtabs := [some 0, none]
  stringtab := [⟨le16At (blob.drop 16) 0, 0⟩]
  strings := records 18 strs needed ++ [⟨0, none⟩]

theorem oneLanguage_holds
    {blob : Bytes} {needed strCount : Nat} {strs : List Bytes} (hneeded : needed ≤ strCount)
    (htake : takeStrings strCount ((blob.drop 16).drop 2) = some (strs, [])) :
  (oneLanguage blob strs needed).Holds blob needed
    [⟨byteAt (blob.drop 16) 0, byteAt (blob.drop 16) 1, strs⟩]
  := by
  obtain ⟨hcount, hstrs, hdrop⟩ := takeStrings_eq_some.mp htake
  rw [List.drop_drop] at hdrop
  have hlength := length_records 18 (by omega : needed ≤ strs.length)
  constructor
  · rfl
  · rfl
  · intro i g hg
    cases i with
    | succ i => simp at hg
    | zero =>
        cases hg
        refine ⟨_, rfl, rfl, ?_, ?_⟩
        · intro j str hj hstr
          obtain ⟨hlt, rfl⟩ := List.getElem?_eq_some_iff.mp hstr
          obtain ⟨p, tail, hp, hpdrop⟩ := drop_starts hdrop hlt
          refine ⟨0, p, tail, ?_, hpdrop⟩
          simp only [oneLanguage, Nat.zero_add]
          rw [List.getElem?_append_left (by omega), records, List.getElem?_map,
            List.getElem?_take_of_lt hj, hp]
          rfl
        · simp only [oneLanguage, Nat.zero_add]
          rw [List.getElem?_append_right (by omega), hlength]
          simp

theorem buildTables_one
    (blob : Bytes) {strCount needed : Nat} (hpos : 0 < strCount)
    (hcount : strCount < 4294967296) (hneeded : needed ≤ strCount) (hsmall : needed ≤ 255) :
  (buildTables blob strCount 1 needed).Meets (newTables 1 needed)
    (fun _ tables => ∃ strs, 3 ≤ (blob.drop 16).length
      ∧ takeStrings strCount ((blob.drop 16).drop 2) = some (strs, [])
      ∧ tables = oneLanguage blob strs needed)
    (fun e _ => e = .ret (-einval) ∧ (3 ≤ (blob.drop 16).length → ∀ strs,
      takeStrings strCount ((blob.drop 16).drop 2) ≠ some (strs, [])))
  := by
  have hstrings : stringsCount 1 needed = needed + 1 := by
    unfold stringsCount u32
    omega
  have hroom : 0 + 1 < (newTables 1 needed).stringtabs.length := by
    simp [newTables, stringtabsCount, u32]
  rw [buildTables]
  apply meets_step (linkTables_run hroom)
  apply meets_bind
  refine (scanLanguages_one (by simp) hpos hcount (by simp [newTables]) hneeded
    (by simp [newTables, hstrings])).mono ?_ ?_
  · rintro rest tables ⟨hlong, strs, htake, rfl⟩
    apply meets_guard
    · intro hrest
      refine ⟨rfl, fun _ strs' htake' => ?_⟩
      rw [htake] at htake'
      cases htake'
      apply hrest rfl
    · intro hrest
      obtain rfl : rest = [] := by simpa using hrest
      refine meets_pure ⟨strs, hlong, htake, ?_⟩
      have hlen := (takeStrings_eq_some.mp htake).1
      have hover : Cells.overlay (List.replicate (stringsCount 1 needed) ⟨0, none⟩) 0
          (records 18 strs needed ++ [⟨0, none⟩])
          = records 18 strs needed ++ [⟨0, none⟩] := by
        apply Cells.overlay_eq_self
        rw [List.length_append, length_records _ (by omega), List.length_replicate, hstrings]
        rfl
      unfold oneLanguage
      rw [← hover]
      rfl
  · rintro e tables ⟨rfl, hbad⟩
    refine ⟨rfl, fun hlong strs htake => ?_⟩
    rw [hbad hlong] at htake
    cases htake

theorem buildTables_more
    {blob : Bytes} {strCount langCount needed : Nat} (hpos : 0 < strCount)
    (hcount : strCount < 4294967296) (hneeded : needed ≤ strCount) (hsmall : needed ≤ 255)
    (hlang : 1 < langCount) (hlang' : langCount ≤ 262144)
    (hlength : blob.length < 4294967296) :
  (buildTables blob strCount langCount needed).Meets (newTables langCount needed)
    (fun _ _ => False) (fun e _ => e = .ret (-einval))
  := by
  have hle : langCount * (needed + 1) ≤ 262144 * 256 := Nat.mul_le_mul hlang' (by omega)
  have hge : 2 * (needed + 1) ≤ langCount * (needed + 1) := Nat.mul_le_mul_right _ hlang
  have hstrings : stringsCount langCount needed = langCount * (needed + 1) := by
    rw [stringsCount, show u32 ((needed : Int) + 1) = needed + 1 by unfold u32; omega,
      ← Int.natCast_mul]
    apply u32_of_lt
    omega
  have hroom : 0 + langCount < (newTables langCount needed).stringtabs.length := by
    simp [newTables, stringtabsCount, u32]
    omega
  rw [buildTables]
  apply meets_step (linkTables_run hroom)
  apply meets_bind
  refine (scanLanguages_more (by simp) hpos hcount hlang (by omega) ?_ hneeded ?_ ?_).mono ?_ ?_
  · simpa [newTables] using hlang
  · simp [newTables, hstrings]
    omega
  · simp
    omega
  · intro _ _ h
    apply h.elim
  · intro e _ h
    apply h

/-! ### The parser -/

theorem le_of_kmalloc
    {langCount needed : Nat} {kmalloc : Nat → Bool}
    (hmax : ∀ n, kmallocMaxSize < n → kmalloc n = false) (hlang : langCount < 4294967296)
    (h : kmalloc (stringsGroupSize langCount needed) = true) :
  langCount ≤ 262144
  := by
  by_contra hlt
  rw [hmax _ (by unfold kmallocMaxSize stringsGroupSize; omega)] at h
  cases h

theorem gotStrings_of_not_header
    {needed : Nat} {blob : Bytes} {kmalloc : Nat → Bool} (h : ¬StringsHeader blob needed) :
  ffsDataGotStrings needed blob kmalloc = .error (.ret (-einval))
  := by
  unfold ffsDataGotStrings
  by_cases h₁ : blob.length < 16 ∨ le32At blob 0 ≠ functionfsStringsMagic
      ∨ le32At blob 4 ≠ blob.length
  · rw [if_pos h₁]
  rw [if_neg h₁]
  by_cases h₂ : le32At blob 8 = 0 ↔ le32At blob 12 = 0
  case neg => simp only [h₂, not_false_eq_true, if_true]
  have hlt : le32At blob 8 < needed := by
    by_contra hle
    push Not at h₁
    exact h ⟨by omega, h₁.2.1, h₁.2.2, h₂, by omega⟩
  simp only [h₂, not_true, if_false, hlt, if_true]

theorem gotStrings_of_header
    {needed : Nat} {blob : Bytes} (kmalloc : Nat → Bool) (h : StringsHeader blob needed) :
  ffsDataGotStrings needed blob kmalloc
    = if needed = 0 then .ok none
      else if ¬kmalloc (stringsGroupSize (le32At blob 12) needed) then .error (.ret (-enomem))
      else
        match (buildTables blob (le32At blob 8) (le32At blob 12) needed).run
            (newTables (le32At blob 12) needed) with
        | .ok _ tables => .ok (some tables)
        | .error e _ => .error e
  := by
  obtain ⟨h16, hmagic, hlen, hzero, hle⟩ := h
  unfold ffsDataGotStrings
  rw [if_neg (by simp [hmagic, hlen, h16])]
  have hneeded : ¬le32At blob 8 < needed := by omega
  exact (if_neg (not_not_intro hzero)).trans (if_neg hneeded)

theorem correct_of_rejected
    {needed : Nat} {blob : Bytes} {kmalloc : Nat → Bool} {code : Int}
    (hrun : ffsDataGotStrings needed blob kmalloc = .error (.ret code)) :
  StringsCorrect needed blob kmalloc ↔ ¬(WellFormedStrings blob needed
    ∧ (0 < needed → kmalloc (stringsGroupSize (le32At blob 12) needed) = true))
  := by
  constructor
  · intro h hok
    obtain ⟨r, hr⟩ := h.accepts.mpr hok
    rw [hrun] at hr
    cases hr
  · intro h
    constructor
    · intro f hf
      rw [hrun] at hf
      cases hf
    · rw [hrun]
      simp [h]
    · intro r hr
      rw [hrun] at hr
      cases hr

theorem correct_of_no_need {blob : Bytes} {kmalloc : Nat → Bool} (h : StringsHeader blob 0) :
  StringsCorrect 0 blob kmalloc
  := by
  have hrun := gotStrings_of_header kmalloc h
  rw [if_pos rfl] at hrun
  constructor
  · intro f hf
    rw [hrun] at hf
    cases hf
  · rw [hrun]
    constructor
    · intro _
      exact ⟨⟨h, fun h0 => absurd h0 (by omega)⟩, fun h0 => absurd h0 (by omega)⟩
    · intro _
      exact ⟨none, rfl⟩
  · intro r hr h0
    omega

/-- A single language. -/
theorem correct_of_one
    {needed : Nat} {blob : Bytes} {kmalloc : Nat → Bool} (hneeded : needed ≤ 255)
    (hpos : 0 < needed) (h : StringsHeader blob needed) (hone : le32At blob 12 = 1)
    (hk : kmalloc (stringsGroupSize (le32At blob 12) needed) = true) :
  StringsCorrect needed blob kmalloc
  := by
  have hrun := gotStrings_of_header kmalloc h
  obtain ⟨h16, hmagic, hlen, hzero, hle⟩ := id h
  rw [if_neg (by omega), if_neg (by simp [hk]), hone] at hrun
  have hbuild := buildTables_one blob (by omega) (le32At_lt blob 8) hle hneeded
  unfold Meets at hbuild
  cases hb : (buildTables blob (le32At blob 8) 1 needed).run (newTables 1 needed) with
  | ok u tables =>
      rw [hb] at hbuild hrun
      obtain ⟨strs, hlong, htake, rfl⟩ := hbuild
      have hbody := isBody_one.mpr ⟨by omega, strs, htake, rfl⟩
      constructor
      · intro f hf
        rw [hrun] at hf
        cases hf
      · rw [hrun]
        constructor
        · intro _
          exact ⟨⟨h, fun _ => ⟨_, hone ▸ hbody⟩⟩, fun _ => hk⟩
        · intro _
          exact ⟨_, rfl⟩
      · intro r hr _
        rw [hrun] at hr
        cases hr
        exact ⟨_, _, rfl, hone ▸ hbody, oneLanguage_holds hle htake⟩
  | error e tables =>
      rw [hb] at hbuild hrun
      obtain ⟨rfl, hbad⟩ := hbuild
      rw [correct_of_rejected hrun]
      rintro ⟨⟨-, hbody⟩, -⟩
      obtain ⟨groups, hgroups⟩ := hbody hpos
      rw [hone, isBody_one] at hgroups
      obtain ⟨hlong, strs, htake, -⟩ := hgroups
      have hlen := le_length_of_takeStrings htake
      rw [List.length_drop] at hlen
      exact hbad (by omega) strs htake

/-- A string in two languages. -/
def twoLanguages : Bytes :=
  [2, 0, 0, 0, 24, 0, 0, 0, 1, 0, 0, 0, 2, 0, 0, 0, 9, 4, 65, 0, 7, 4, 66, 0]

end Ffs
