import KhdfLinux.Lib.BoundedStrings
import KhdfLinux.Lib.Loops
import KhdfLinux.Lib.Replace

/-!
# Log formats

`deal_format`, which takes the markers `{private}` and `{public}` out of the format of a log line.
`deal_format_rewrites`: it comes to its end without an access outside the format and the
destination, it succeeds exactly if the format is short enough, and then the destination holds the
format with each marker replaced by a percent sign.
-/

namespace Osal.LogFormat

open Exec Bytes

/-- The characters of a string. -/
def chars (s : String) : Bytes := s.toList.map fun c => UInt8.ofNat c.toNat

/-- `g_property` with `g_property_len`. -/
def properties : List (Bytes × Nat) :=
  [(chars "%\x7bprivate\x7d", 10), (chars "%\x7bpublic\x7d", 9)]

/-- The character `%`. -/
def percent : UInt8 := 37

/-- The pointers `ptr` and `ptr_cur` into the format, and the `index` into the destination. -/
structure Scan where
  ptr : Nat
  ptrCur : Nat
  index : Nat

/-- What is the same in all turns: `RSIZE_MAX`, the format and the size of the destination. -/
structure Args where
  limit : RsizeMax
  fmt : CString
  size : Nat

/-- The loop over `g_property` where `ptr_cur` points to a percent sign. -/
def matchProperty (a : Args) (s : Scan) : List (Bytes × Nat) → Exec Bytes (Scan ⊕ Option Scan)
  | [] => pure (.inl { s with ptrCur := s.ptrCur + 1 })
  | (property, len) :: rest => do
      if strncmp len (← a.fmt.tail s.ptrCur) property ≠ 0 then matchProperty a s rest
      else
        -- the one more is for the percent sign
        let n := s.ptrCur - s.ptr + 1
        let ret ← strncpyS a.limit s.index (sizeT (a.size - s.index)) (← a.fmt.tail s.ptr) n
        if ret ≠ 0 then pure (.inr none)
        else pure (.inl ⟨s.ptrCur + len, s.ptrCur + len, s.index + n⟩)

/-- A turn of the loop over the format.  Its end is at the zero byte, or where `strncpy_s` fails. -/
def turn (a : Args) (s : Scan) : Exec Bytes (Scan ⊕ Option Scan) := do
  let c ← a.fmt.read s.ptrCur
  if c = 0 then pure (.inr (some s))
  else if c ≠ percent then pure (.inl { s with ptrCur := s.ptrCur + 1 })
  else matchProperty a s properties

/-- `deal_format`, with so many turns of its loop.  The state is the object that `dest` points to;
a `fmt` that is `none`, and a `dest` that is `false`, are null pointers. -/
def dealFormat (limit : RsizeMax) (fmt : Option CString) (dest : Bool) (size turns : Nat) :
  Exec Bytes (Option Bool)
  :=
  match fmt with
  | none => pure (some false)
  | some fmt => do
      if dest = false ∨ size = 0 ∨ sizeT (size - 1) ≤ fmt.bytes.length then pure (some false)
      else
        match ← iterate (turn ⟨limit, fmt, size⟩) turns ⟨0, 0, 0⟩ with
        | none => pure none
        | some none => pure (some false)
        | some (some s) => do
            let ret ← strcatS limit s.index (sizeT (size - s.index)) (← fmt.tail s.ptr)
            pure (some (decide (ret = 0)))

/-! ### The text without markers -/

/-- `%{private}` and `%{public}`. -/
def markers : List Bytes := properties.map Prod.fst

/-- The format with each marker replaced by a percent sign, from left to right. -/
def rewrite (s : Bytes) : Bytes := List.replaceAll markers [percent] s

/-- The properties are strings, their lengths are the ones of the table, and they start with a
percent sign. -/
theorem properties_spec :
  ∀ e ∈ properties, 0 ∉ e.1 ∧ e.2 = e.1.length ∧ e.1.head? = some percent
  := by
  decide

variable {a : Args} {s : Scan} {dest out : Bytes}

theorem nil_not_mem_markers :
  [] ∉ markers
  := by
  decide

/-- A text that starts with a marker starts with a percent sign. -/
theorem head_of_markerAt {c : UInt8} {m t : Bytes} (h : List.markerAt markers (c :: t) = some m) :
  c = percent
  := by
  obtain ⟨hm, u, hu⟩ := List.isPrefix_of_markerAt h
  obtain ⟨e, he, rfl⟩ := List.mem_map.mp hm
  obtain ⟨-, -, hhead⟩ := properties_spec e he
  cases he1 : e.1 with
  | nil => simp [he1] at hhead
  | cons b t' =>
      rw [he1] at hhead hu
      rw [← Option.some.inj hhead]
      exact (List.cons.inj hu).1.symm

/-! ### The loop over the properties -/

/-- Without a marker at `ptr_cur`, the loop goes on to the next character. -/
theorem run_matchProperty_none
    {table : List (Bytes × Nat)} (htable : ∀ e ∈ table, 0 ∉ e.1 ∧ e.2 = e.1.length)
    (hcur : s.ptrCur ≤ a.fmt.bytes.length)
    (hnone : List.markerAt (table.map Prod.fst) (a.fmt.bytes.drop s.ptrCur) = none) :
  (matchProperty a s table).run dest = .ok (.inl { s with ptrCur := s.ptrCur + 1 }) dest
  := by
  induction table with
  | nil => rfl
  | cons e table ih =>
      obtain ⟨⟨hzero, hlen⟩, htable⟩ := List.forall_mem_cons.mp htable
      obtain ⟨hstarts, hrest⟩ := List.forall_mem_cons.mp (List.markerAt_eq_none.mp hnone)
      have hne : strncmp e.2 (a.fmt.bytes.drop s.ptrCur) e.1 ≠ 0 := by
        rw [hlen, Ne, strncmp_eq_zero_iff hzero]
        apply hstarts
      unfold matchProperty
      rw [CString.tail_eq hcur, pure_bind, if_pos hne]
      apply ih htable (List.markerAt_eq_none.mpr hrest)

/-- With a marker at `ptr_cur`, the loop copies what is before it, with the percent sign, and goes
on behind it. -/
theorem run_matchProperty_some
    {table : List (Bytes × Nat)} (htable : ∀ e ∈ table, 0 ∉ e.1 ∧ e.2 = e.1.length)
    (hpointers : s.ptr ≤ s.ptrCur ∧ s.ptrCur < a.fmt.bytes.length) (hindex : s.index ≤ s.ptr)
    (hsize : a.fmt.bytes.length + 1 < a.size) (hmax : a.size ≤ a.limit.max)
    (hout : out.length = s.index) {m : Bytes}
    (hm : List.markerAt (table.map Prod.fst) (a.fmt.bytes.drop s.ptrCur) = some m) :
  (matchProperty a s table).run (out ++ List.replicate (a.size - s.index) 0)
    = .ok (.inl ⟨s.ptrCur + m.length, s.ptrCur + m.length, s.index + (s.ptrCur - s.ptr + 1)⟩)
      (out ++ (a.fmt.bytes.drop s.ptr).take (s.ptrCur - s.ptr + 1)
        ++ List.replicate (a.size - (s.index + (s.ptrCur - s.ptr + 1))) 0)
  := by
  obtain ⟨ptr, cur, index⟩ := s
  obtain rfl : out.length = index := hout
  obtain ⟨hptr, hcur⟩ : ptr ≤ cur ∧ cur < a.fmt.bytes.length := hpointers
  have hindex : out.length ≤ ptr := hindex
  induction table with
  | nil => cases hm
  | cons e table ih =>
      obtain ⟨⟨hzero, hlen⟩, htable⟩ := List.forall_mem_cons.mp htable
      unfold matchProperty
      rw [CString.tail_eq hcur.le, pure_bind]
      by_cases hstarts : e.1 <+: a.fmt.bytes.drop cur
      · have hsame : strncmp e.2 (a.fmt.bytes.drop cur) e.1 = 0 := by
          rw [hlen]
          apply (strncmp_eq_zero_iff hzero).mpr hstarts
        have hfirst : e.1 = m := by
          rw [List.map_cons, List.markerAt_cons_of_prefix hstarts] at hm
          apply Option.some.inj hm
        have hsizeT : sizeT (a.size - out.length) = a.size - out.length :=
          sizeT_sub (by omega) (Nat.lt_of_le_of_lt hmax a.limit.lt)
        have hn : cur - ptr + 1 ≤ (a.fmt.bytes.drop ptr).length := by
          rw [List.length_drop]
          omega
        have hroom : cur - ptr + 1 < a.size - out.length := by
          omega
        have hcopy := run_strncpyS out hn hroom (Nat.le_trans (Nat.sub_le _ _) hmax)
        rw [if_neg (not_not.mpr hsame), CString.tail_eq (show ptr ≤ _ by omega), pure_bind,
          EStateM.run_bind]
        simp only [hsizeT, hcopy]
        rw [← hfirst, hlen, Nat.sub_sub]
        rfl
      · have hother : strncmp e.2 (a.fmt.bytes.drop cur) e.1 ≠ 0 := by
          rw [hlen, Ne, strncmp_eq_zero_iff hzero]
          apply hstarts
        rw [if_pos hother]
        apply ih htable
        rw [List.map_cons, List.markerAt_cons_of_not_prefix hstarts] at hm
        apply hm

/-! ### The loop over the format -/

/-- What the turns keep.  Behind `index`, the destination is zero; before it, it holds what the text
without markers is up to `ptr`.  From `ptr` to `ptr_cur` there is no marker. -/
structure Inv (a : Args) (s : Scan) (dest : Bytes) : Prop where
  pointers : s.ptr ≤ s.ptrCur ∧ s.ptrCur ≤ a.fmt.bytes.length
  index_le : s.index ≤ s.ptr
  copied : ∃ out, out.length = s.index ∧ dest = out ++ List.replicate (a.size - s.index) 0
    ∧ rewrite a.fmt.bytes
      = out ++ (a.fmt.bytes.drop s.ptr).take (s.ptrCur - s.ptr)
        ++ rewrite (a.fmt.bytes.drop s.ptrCur)

/-- The characters from `ptr` to `ptr_cur` and the one that `ptr_cur` points to. -/
theorem take_succ_pending {t : Bytes} {ptr cur : Nat} (hptr : ptr ≤ cur) (hcur : cur < t.length) :
  (t.drop ptr).take (cur - ptr + 1) = (t.drop ptr).take (cur - ptr) ++ [t[cur]]
  := by
  have hlt : cur - ptr < (t.drop ptr).length := by
    rw [List.length_drop]
    omega
  rw [List.take_add_one, List.getElem?_eq_getElem hlt]
  simp only [List.getElem_drop, Nat.add_sub_cancel' hptr]
  rfl

theorem Inv.advance
    (h : Inv a s dest) (hcur : s.ptrCur < a.fmt.bytes.length)
    (hnone : List.markerAt markers (a.fmt.bytes.drop s.ptrCur) = none) :
  Inv a { s with ptrCur := s.ptrCur + 1 } dest
  := by
  obtain ⟨⟨hptr, -⟩, hindex, out, hout, hdest, hrewrite⟩ := h
  refine ⟨⟨Nat.le_succ_of_le hptr, hcur⟩, hindex, out, hout, hdest, ?_⟩
  rw [List.drop_eq_getElem_cons hcur] at hnone hrewrite
  unfold rewrite at hrewrite ⊢
  rw [hrewrite, List.replaceAll_cons hnone]
  simp only [Nat.succ_sub hptr, Nat.succ_eq_add_one, take_succ_pending hptr hcur]
  rw [List.append_assoc, List.append_assoc, List.append_assoc]
  rfl

/-- Behind a marker, with what is before it copied. -/
theorem Inv.copy
    (h : Inv a s dest) (hcur : s.ptrCur < a.fmt.bytes.length) {m : Bytes}
    (hm : List.markerAt markers (a.fmt.bytes.drop s.ptrCur) = some m) {out : Bytes}
    (hout : out.length = s.index) (hdest : dest = out ++ List.replicate (a.size - s.index) 0) :
  Inv a ⟨s.ptrCur + m.length, s.ptrCur + m.length, s.index + (s.ptrCur - s.ptr + 1)⟩
    (out ++ (a.fmt.bytes.drop s.ptr).take (s.ptrCur - s.ptr + 1)
      ++ List.replicate (a.size - (s.index + (s.ptrCur - s.ptr + 1))) 0)
  := by
  obtain ⟨⟨hptr, -⟩, hindex, out', hout', hdest', hrewrite⟩ := h
  obtain rfl : out = out' := (List.append_inj (hdest.symm.trans hdest') (hout.trans hout'.symm)).1
  obtain ⟨hmem, hstarts⟩ := List.isPrefix_of_markerAt hm
  have hne : m ≠ [] := fun hnil => nil_not_mem_markers (hnil ▸ hmem)
  have hpos := List.length_pos_of_ne_nil hne
  have hle := hstarts.length_le
  rw [List.length_drop] at hle
  have hpercent : a.fmt.bytes[s.ptrCur] = percent := by
    rw [List.drop_eq_getElem_cons hcur] at hm
    apply head_of_markerAt hm
  refine ⟨⟨Nat.le_refl _, ?_⟩, ?_, _, ?_, rfl, ?_⟩
  · show s.ptrCur + m.length ≤ _
    omega
  · show s.index + (s.ptrCur - s.ptr + 1) ≤ s.ptrCur + m.length
    omega
  · rw [List.length_append, List.length_take, List.length_drop, hout]
    show _ = s.index + _
    omega
  · unfold rewrite at hrewrite ⊢
    rw [hrewrite, List.replaceAll_marker hm hne, take_succ_pending hptr hcur, hpercent]
    simp only [Nat.sub_self, List.take_zero, List.append_nil, List.append_assoc, List.drop_drop]

/-- A turn keeps the invariant and brings `ptr_cur` nearer to the end, or it is the last one, at the
end of the format. -/
theorem turn_meets
    (hsize : a.fmt.bytes.length + 1 < a.size) (hmax : a.size ≤ a.limit.max) (h : Inv a s dest) :
  Meets (turn a s) dest
    (fun r dest' =>
      (∀ s', r = .inl s' → Inv a s' dest'
        ∧ a.fmt.bytes.length - s'.ptrCur < a.fmt.bytes.length - s.ptrCur)
      ∧ ∀ e, r = .inr e → ∃ s', e = some s' ∧ Inv a s' dest' ∧ s'.ptrCur = a.fmt.bytes.length)
    fun _ _ => False
  := by
  obtain ⟨hptr, hcur⟩ := h.pointers
  unfold turn
  rw [CString.read_eq hcur, pure_bind]
  by_cases hend : byteAt a.fmt.bytes s.ptrCur = 0
  · rw [if_pos hend]
    apply meets_pure
    refine ⟨nofun, ?_⟩
    rintro e ⟨⟩
    use s, rfl, h
    apply (CString.byteAt_eq_zero_iff hcur).mp hend
  · rw [if_neg hend]
    have hlt : s.ptrCur < a.fmt.bytes.length :=
      Nat.lt_of_le_of_ne hcur fun heq => hend ((CString.byteAt_eq_zero_iff hcur).mpr heq)
    cases hat : List.markerAt markers (a.fmt.bytes.drop s.ptrCur) with
    | none =>
        have hadvance := h.advance hlt hat
        have hdone : Meets (pure (.inl { s with ptrCur := s.ptrCur + 1 })) dest
            (fun (r : Scan ⊕ Option Scan) dest' =>
              (∀ s', r = .inl s' → Inv a s' dest'
                ∧ a.fmt.bytes.length - s'.ptrCur < a.fmt.bytes.length - s.ptrCur)
              ∧ ∀ e, r = .inr e → ∃ s', e = some s' ∧ Inv a s' dest'
                ∧ s'.ptrCur = a.fmt.bytes.length)
            fun _ _ => False := by
          apply meets_pure
          refine ⟨?_, nofun⟩
          rintro s' ⟨⟩
          use hadvance
          show _ - (s.ptrCur + 1) < _
          omega
        by_cases hpercent : byteAt a.fmt.bytes s.ptrCur = percent
        · rw [if_neg (not_not.mpr hpercent)]
          have hrun : (matchProperty a s properties).run dest = _ := run_matchProperty_none
            (fun e he => ⟨(properties_spec e he).1, (properties_spec e he).2.1⟩) hcur hat
          unfold Meets at hdone ⊢
          rw [hrun]
          apply hdone
        · rw [if_pos hpercent]
          apply hdone
    | some m =>
        obtain ⟨out, hout, hdest, -⟩ := h.copied
        have hpercent : byteAt a.fmt.bytes s.ptrCur = percent := by
          rw [List.drop_eq_getElem_cons hlt] at hat
          rw [← head_of_markerAt hat]
          apply List.getD_eq_getElem
        rw [if_neg (not_not.mpr hpercent)]
        have hrun := run_matchProperty_some
          (fun e he => ⟨(properties_spec e he).1, (properties_spec e he).2.1⟩) ⟨hptr, hlt⟩
          h.index_le hsize hmax hout hat
        have hpos : 0 < m.length := by
          apply List.length_pos_of_ne_nil
          rintro rfl
          apply nil_not_mem_markers (List.isPrefix_of_markerAt hat).1
        unfold Meets
        rw [hdest, hrun]
        refine ⟨?_, nofun⟩
        rintro s' ⟨⟩
        use h.copy hlt hat hout hdest
        show _ - (s.ptrCur + m.length) < _
        omega

/-! ### The format -/

/-- The text without markers is a string. -/
theorem zero_not_mem_rewrite (fmt : CString) :
  0 ∉ rewrite fmt.bytes
  := by
  intro h
  obtain hzero | hzero := List.mem_of_mem_replaceAll nil_not_mem_markers h
  · apply fmt.zero hzero
  · exact absurd hzero (by decide)

/-- `deal_format` comes to its end without an access outside the format and the destination, and it
succeeds exactly if the format is short enough.  Then the destination holds the format with each
marker replaced by a percent sign, which is the format itself if there are no markers in it. -/
theorem deal_format_rewrites
    {limit : RsizeMax} {fmt : CString} {size turns : Nat} (hmax : size ≤ limit.max)
    (hturns : fmt.bytes.length < turns) :
  ∃ dest, (dealFormat limit (some fmt) true size turns).run (List.replicate size 0)
      = .ok (some (decide (0 < size ∧ fmt.bytes.length < size - 1))) dest
    ∧ dest.length = size
    ∧ (0 < size ∧ fmt.bytes.length < size - 1 →
      dest = rewrite fmt.bytes ++ List.replicate (size - (rewrite fmt.bytes).length) 0
      ∧ cstr dest = rewrite fmt.bytes
      ∧ ((∀ m ∈ markers, ¬m <:+: fmt.bytes) → cstr dest = fmt.bytes))
  := by
  by_cases hshort : 0 < size ∧ fmt.bytes.length < size - 1
  · obtain ⟨hpos, hlen⟩ := hshort
    have hguard : ¬(true = false ∨ size = 0 ∨ sizeT (size - 1) ≤ fmt.bytes.length) := by
      have hsizeT : sizeT (size - 1) = size - 1 :=
        sizeT_sub (k := 1) hpos (Nat.lt_of_le_of_lt hmax limit.lt)
      rw [hsizeT]
      rintro (h | h | h)
      · cases h
      · omega
      · omega
    have hstart : Inv ⟨limit, fmt, size⟩ ⟨0, 0, 0⟩ (List.replicate size 0) :=
      ⟨⟨Nat.le_refl _, Nat.zero_le _⟩, Nat.le_refl _, [], rfl, rfl, rfl⟩
    have hloop := iterate_meets (Inv ⟨limit, fmt, size⟩)
      (fun s => fmt.bytes.length - s.ptrCur)
      (fun s dest h => turn_meets (show fmt.bytes.length + 1 < size by omega) hmax h) hstart hturns
    obtain ⟨_, dest, hrun, _, rfl, s, rfl, ⟨⟨hptr, -⟩, hindex, out, hout, rfl, hrewrite⟩, hend⟩ :=
      hloop.total
    have hptr : s.ptr ≤ fmt.bytes.length := Nat.le_trans hptr (Nat.le_of_eq hend)
    have hrewrite : rewrite fmt.bytes = out ++ fmt.bytes.drop s.ptr := by
      rw [hend, List.drop_length] at hrewrite
      rw [hrewrite]
      unfold rewrite
      rw [List.replaceAll_nil, List.append_nil, List.take_of_length_le (by rw [List.length_drop])]
    have hlength : (rewrite fmt.bytes).length = s.index + (fmt.bytes.length - s.ptr) := by
      rw [hrewrite, List.length_append, hout, List.length_drop]
    have hsizeT : sizeT (size - s.index) = size - s.index :=
      sizeT_sub (by omega) (Nat.lt_of_le_of_lt hmax limit.lt)
    have happend : (fmt.bytes.drop s.ptr).length < size - s.index := by
      rw [List.length_drop]
      omega
    have hcat := run_strcatS out happend (Nat.le_trans (Nat.sub_le _ _) hmax)
    have hdest : out ++ fmt.bytes.drop s.ptr
          ++ List.replicate (size - s.index - (fmt.bytes.drop s.ptr).length) 0
        = rewrite fmt.bytes ++ List.replicate (size - (rewrite fmt.bytes).length) 0 := by
      rw [hrewrite, List.length_append, hout, Nat.sub_sub]
    rw [hout, hdest] at hcat
    refine ⟨_, ?_, ?_, fun _ => ⟨rfl, ?_, fun hno => ?_⟩⟩
    · unfold dealFormat
      show EStateM.run (if _ then _ else _) _ = _
      rw [if_neg hguard, EStateM.run_bind, hrun]
      simp only [CString.tail_eq hptr, pure_bind, hsizeT]
      rw [EStateM.run_bind, hcat, decide_eq_true ⟨hpos, hlen⟩]
      rfl
    · rw [List.length_append, List.length_replicate]
      omega
    · rw [cstr_append (zero_not_mem_rewrite fmt), cstr_replicate, List.append_nil]
    · rw [cstr_append (zero_not_mem_rewrite fmt), cstr_replicate, List.append_nil]
      apply List.replaceAll_eq_self hno
  · refine ⟨List.replicate size 0, ?_, List.length_replicate, fun h => absurd h hshort⟩
    have hguard : true = false ∨ size = 0 ∨ sizeT (size - 1) ≤ fmt.bytes.length := by
      by_cases hpos : 0 < size
      · have hsizeT : sizeT (size - 1) = size - 1 :=
          sizeT_sub (k := 1) hpos (Nat.lt_of_le_of_lt hmax limit.lt)
        rw [hsizeT]
        omega
      · omega
    unfold dealFormat
    show EStateM.run (if _ then _ else _) _ = _
    rw [if_pos hguard, decide_eq_false hshort]
    rfl

/-- A format with both markers, in a destination that they fit in. -/
theorem deal_format_rewrites_markers :
  ∃ dest,
    (dealFormat ⟨256, by decide⟩ (some ⟨chars "%\x7bpublic\x7ds %\x7bprivate\x7dd", by decide⟩) true
      32 33).run (List.replicate 32 0) = .ok (some true) dest
    ∧ cstr dest = chars "%s %d"
  := by
  obtain ⟨dest, hrun, -, hdest⟩ := @deal_format_rewrites ⟨256, by decide⟩
    ⟨chars "%\x7bpublic\x7ds %\x7bprivate\x7dd", by decide⟩ 32 33 (by decide) (by decide)
  use dest, hrun
  rw [(hdest (by decide)).2.1]
  decide +kernel

end Osal.LogFormat
