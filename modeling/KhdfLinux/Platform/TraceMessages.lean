import KhdfLinux.Lib.Formats
import KhdfLinux.Osal.LogFormat

/-!
# Trace messages

`PlatformTraceAddMsg` and `PlatformTraceAddUintMsg` format a message in a buffer and record it.
`trace_messages_iff` tells when they stay inside the buffer and record the text that they are to
record.  The first one does so only where it records nothing, since it begins to write the
parameters over the last character of the prefix, with a limit that does not shrink; the second one
prints signed numbers, and refuses a text that just fits.
-/

namespace Platform.Trace

open Exec Bytes
open Osal.LogFormat (chars)

/-- `PLATFORM_TRACE_MSG_MAX_LEN`. -/
def msgMaxLen : Nat := 512

/-- Record the string in `messages`. -/
def recordMessages : Exec Bytes (Option Bytes) := do
  let s ← scan (← get)
  pure (some s)

/-! ### Formatted parameters -/

/-- The text before the parameters of `PlatformTraceAddMsg`. -/
def msgPrefix (module moduleFun : CString) : Bytes :=
  chars "module:" ++ module.bytes ++ chars " function:" ++ moduleFun.bytes ++ chars " params: "

/-- `PlatformTraceAddMsg`, for parameters that are formatted as `text`.  The state is the buffer
`messages`; the result is what is recorded. -/
def platformTraceAddMsg (module moduleFun : Option CString) (text : Bytes) :
    Exec Bytes (Option Bytes) := do
  set (List.replicate (msgMaxLen + 1) (0 : UInt8))
  match module, moduleFun with
  | some module, some moduleFun => do
      let length ← snprintfS 0 (msgMaxLen + 1) msgMaxLen (msgPrefix module moduleFun)
      if length < 0 then pure none
      else
        let ret ← vsprintfS (length - 1).toNat msgMaxLen text
        if ret < 0 then pure none else recordMessages
  | _, _ => pure none

/-! ### Unsigned parameters -/

/-- What the header of the functions has: the names of modules and functions, their bounds, and the
greatest number of parameters. -/
structure Tables where
  moduleExplain : Int → Option CString
  funExplain : Int → Option CString
  moduleI2s : Int
  moduleMax : Int
  moduleI2sFun : Int
  moduleMaxFun : Int
  uintParamSizeMax : Nat

/-- The text before the parameters of `PlatformTraceAddUintMsg`. -/
def uintPrefix (module moduleFun : CString) : Bytes :=
  chars "module:" ++ module.bytes ++ chars " function:" ++ moduleFun.bytes ++ chars " params:"

/-- The loop over the parameters; `ret` is what the call that formatted the prefix has returned.
The result tells if all of them were appended. -/
def addUints (ret : Int) : List UInt32 → Exec Bytes Bool
  | [] => pure true
  | info :: infos => do
      let used ← strlen
      let _ ← snprintfS used (msgMaxLen + 1 - used) (msgMaxLen - used)
        (formatSigned info ++ chars ", ")
      let used ← strlen
      if ret < 0 ∨ msgMaxLen ≤ used then pure false else addUints ret infos

namespace Tables

variable (tables : Tables) (module moduleFun : Int) (size : UInt8)

/-- The names of the module and the function, if the parameters are legal. -/
def names : Option (CString × CString) :=
  match tables.moduleExplain module, tables.funExplain moduleFun with
  | some moduleMean, some moduleFunMean =>
      if size.toNat ≤ 0 ∨ tables.uintParamSizeMax < size.toNat then none
      else if module < tables.moduleI2s ∨ tables.moduleMax ≤ module then none
      else if moduleFun < tables.moduleI2sFun ∨ tables.moduleMaxFun ≤ moduleFun then none
      else some (moduleMean, moduleFunMean)
  | _, _ => none

/-- `PlatformTraceAddUintMsg`. -/
def platformTraceAddUintMsg (infos : Nat → UInt32) : Exec Bytes (Option Bytes) := do
  set (List.replicate (msgMaxLen + 1) (0 : UInt8))
  match tables.names module moduleFun size with
  | none => pure none
  | some (moduleMean, moduleFunMean) => do
      let ret ← snprintfS 0 (msgMaxLen + 1) msgMaxLen (uintPrefix moduleMean moduleFunMean)
      if ret < 0 then pure none
      else if ← addUints ret ((List.range size.toNat).map infos) then recordMessages
      else pure none

end Tables

/-! ### What is to be recorded -/

/-- The text of a message with formatted parameters. -/
def msgText (module moduleFun : CString) (text : Bytes) : Bytes :=
  msgPrefix module moduleFun ++ text

/-- The parameters in decimal. -/
def uintTexts (format : UInt32 → Bytes) (infos : List UInt32) : Bytes :=
  infos.flatMap fun info => format info ++ chars ", "

/-- The text of a message with unsigned parameters. -/
def uintText (names : CString × CString) (format : UInt32 → Bytes) (infos : List UInt32) : Bytes :=
  uintPrefix names.1 names.2 ++ uintTexts format infos

/-- The execution stays inside the buffer, and records the text, if there is one and it fits. -/
def Records (x : Exec Bytes (Option Bytes)) (text : Option Bytes) : Prop :=
  ∃ messages, x.run [] = .ok (text.filter fun t => t.length ≤ msgMaxLen) messages

/-- The text is shorter than the longest one, and no parameter is negative as a signed number; or it
is longer, and with signed numbers it is not shorter than the longest one. -/
def UintsFit (names : CString × CString) (infos : List UInt32) : Prop :=
  (uintText names formatUnsigned infos).length < msgMaxLen
      ∧ (∀ info ∈ infos, info.toNat < 2147483648)
    ∨ msgMaxLen < (uintText names formatUnsigned infos).length
      ∧ msgMaxLen ≤ (uintText names formatSigned infos).length

/-! ### Prefixes -/

section

variable {module moduleFun : CString} {names : CString × CString} {text out full : Bytes}
  {infos : List UInt32}

theorem zero_not_mem_uintPrefix (module moduleFun : CString) :
  0 ∉ uintPrefix module moduleFun
  := by
  simp only [uintPrefix, List.mem_append, not_or]
  exact ⟨⟨⟨⟨by decide, module.zero⟩, by decide⟩, moduleFun.zero⟩, by decide⟩

/-- The length of the fixed part of the prefix. -/
theorem le_length_msgPrefix (module moduleFun : CString) :
  26 ≤ (msgPrefix module moduleFun).length
  := by
  have hmodule : (chars "module:").length = 7 := by decide
  have hfunction : (chars " function:").length = 10 := by decide
  have hparams : (chars " params: ").length = 9 := by decide
  simp only [msgPrefix, List.length_append]
  omega

/-- The prefix in the buffer, where it fits. -/
theorem run_prefix_fits (htext : text.length ≤ msgMaxLen) :
  (snprintfS 0 (msgMaxLen + 1) msgMaxLen text).run (List.replicate (msgMaxLen + 1) 0)
    = .ok text.length (text ++ List.replicate (msgMaxLen + 1 - text.length) 0)
  := run_snprintfS_fits [] htext

/-- A prefix that does not fit is refused. -/
theorem run_prefix_cut (htext : msgMaxLen < text.length) :
  (snprintfS 0 (msgMaxLen + 1) msgMaxLen text).run (List.replicate (msgMaxLen + 1) 0)
    = .ok (-1) (text.take msgMaxLen ++ List.replicate 1 0)
  := run_snprintfS_cut [] htext

theorem filter_fits (htext : text.length ≤ msgMaxLen) :
  (some text).filter (fun t => decide (t.length ≤ msgMaxLen)) = some text
  := by
  simp [Option.filter, htext]

theorem filter_cut (htext : msgMaxLen < text.length) :
  (some text).filter (fun t => decide (t.length ≤ msgMaxLen)) = none
  := by
  simp [Option.filter, Nat.not_le.mpr htext]

/-! ### Messages with formatted parameters -/

/-- After the prefix, the parameters are written from its last character on. -/
theorem platformTraceAddMsg_run (hhead : (msgPrefix module moduleFun).length ≤ msgMaxLen) :
  (platformTraceAddMsg (some module) (some moduleFun) text).run []
    = (do
        let ret ← vsprintfS ((msgPrefix module moduleFun).length - 1) msgMaxLen text
        if ret < 0 then pure none else recordMessages : Exec Bytes (Option Bytes)).run
      (msgPrefix module moduleFun
        ++ List.replicate (msgMaxLen + 1 - (msgPrefix module moduleFun).length) 0)
  := by
  have hlength : ((msgPrefix module moduleFun).length - 1 : Int).toNat
      = (msgPrefix module moduleFun).length - 1 := by
    omega
  show EStateM.run (snprintfS 0 (msgMaxLen + 1) msgMaxLen _ >>= _) _ = _
  rw [EStateM.run_bind, run_prefix_fits hhead]
  dsimp only
  rw [if_neg (by omega), hlength]

/-- What an object holds after a write that stays inside it. -/
theorem put_ok {p : Nat} {bytes m m' : Bytes} (h : (put p bytes).run m = .ok () m') :
  p + bytes.length ≤ m.length ∧ m' = m.take p ++ bytes ++ m.drop (p + bytes.length)
  := by
  have hrun : (put p bytes).run m
      = if p + bytes.length ≤ m.length then .ok () (m.take p ++ bytes ++ m.drop (p + bytes.length))
        else .error (.fault .outOfBounds) m := rfl
  rw [hrun] at h
  split_ifs at h with hle
  exact ⟨hle, (EStateM.Result.ok.inj h).2.symm⟩

/-- What is recorded is the string in the buffer. -/
theorem recordMessages_ok {m m' : Bytes} {r : Option Bytes}
    (h : recordMessages.run m = .ok r m') :
  r = some (cstr m)
  := by
  have hrun : recordMessages.run m
      = ((scan m : Exec Bytes Bytes) >>= fun s => pure (some s)).run m := rfl
  rw [hrun] at h
  obtain ⟨s, t, hscan, hs⟩ := run_bind_ok.mp h
  unfold scan at hscan
  split_ifs at hscan with hzero
  · cases hscan
    cases hs
    rfl
  · cases hscan

/-- What is recorded lacks a character, if the parameters are not written beyond the buffer. -/
theorem platformTraceAddMsg_recorded {r : Option Bytes} {messages : Bytes}
    (hhead : (msgPrefix module moduleFun).length ≤ msgMaxLen)
    (hrun : (platformTraceAddMsg (some module) (some moduleFun) text).run [] = .ok r messages) :
  ∃ s, r = some s ∧ s.length < (msgText module moduleFun text).length
  := by
  have hlow := le_length_msgPrefix module moduleFun
  have hmax : msgMaxLen = 512 := rfl
  rw [platformTraceAddMsg_run hhead] at hrun
  generalize hbuffer : msgPrefix module moduleFun
    ++ List.replicate (msgMaxLen + 1 - (msgPrefix module moduleFun).length) 0 = buffer at hrun
  have hsize : buffer.length = 513 := by
    rw [← hbuffer, List.length_append, List.length_replicate]
    omega
  obtain ⟨ret, m, hformat, hrest⟩ := run_bind_ok.mp hrun
  unfold vsprintfS at hformat
  rw [if_neg (by decide)] at hformat
  by_cases hshort : text.length < msgMaxLen
  · rw [if_pos hshort] at hformat
    obtain ⟨_, m', hput, hret⟩ := run_bind_ok.mp hformat
    obtain ⟨hinside, rfl⟩ := put_ok hput
    cases hret
    rw [if_neg (by omega)] at hrest
    refine ⟨_, recordMessages_ok hrest, ?_⟩
    generalize hend : buffer.drop _ = rest
    have hfirst : (buffer.take ((msgPrefix module moduleFun).length - 1)).length
        = (msgPrefix module moduleFun).length - 1 := List.length_take_of_le (by omega)
    have hle := length_cstr_le
      (buffer.take ((msgPrefix module moduleFun).length - 1) ++ (text ++ [0]) ++ rest)
      (buffer.take ((msgPrefix module moduleFun).length - 1) ++ text).length
    rw [← List.append_assoc, List.append_assoc (_ ++ text), List.drop_left, List.length_append,
      hfirst] at hle
    have hzero : (cstr ([0] ++ rest)).length = 0 := rfl
    unfold msgText
    rw [List.length_append, ← List.append_assoc, List.append_assoc (_ ++ text)]
    omega
  · rw [if_neg hshort] at hformat
    obtain ⟨_, m', hput, -⟩ := run_bind_ok.mp hformat
    have hinside := (put_ok hput).1
    rw [List.length_append, List.length_take, List.length_singleton] at hinside
    omega

/-! ### Messages with unsigned parameters -/

theorem zero_not_mem_uintTexts (infos : List UInt32) :
  0 ∉ uintTexts formatSigned infos
  := by
  intro h
  obtain ⟨info, -, hinfo⟩ := List.mem_flatMap.mp h
  rw [List.mem_append] at hinfo
  obtain hinfo | hinfo := hinfo
  · exact zero_not_mem_formatSigned info hinfo
  · exact absurd hinfo (by decide)

/-- The buffer with a text in it. -/
def buffer (text : Bytes) : Bytes := text ++ List.replicate (msgMaxLen + 1 - text.length) 0

/-- A turn of the loop appends a parameter, if it does not come to fill the buffer. -/
theorem addUints_turn {ret : Int} {info : UInt32} (hret : ¬ret < 0) (hout : 0 ∉ out)
    (hfits : (out ++ (formatSigned info ++ chars ", ")).length < msgMaxLen) :
  (addUints ret (info :: infos)).run (buffer out)
    = (addUints ret infos).run (buffer (out ++ (formatSigned info ++ chars ", ")))
  := by
  have htext : 0 ∉ formatSigned info ++ chars ", " := by
    rw [List.mem_append, not_or]
    exact ⟨zero_not_mem_formatSigned info, by decide⟩
  generalize htexts : formatSigned info ++ chars ", " = text at hfits htext ⊢
  have hout' : 0 ∉ out ++ text := by
    rw [List.mem_append, not_or]
    exact ⟨hout, htext⟩
  rw [List.length_append] at hfits
  obtain ⟨k, hk⟩ := Nat.exists_eq_add_of_le (show out.length ≤ msgMaxLen by omega)
  have hroom : msgMaxLen + 1 - out.length = k + 1 := by omega
  have hcount : msgMaxLen - out.length = k := by omega
  have hroom' : k + 1 - text.length = k - text.length + 1 := by omega
  have hbuffer : buffer (out ++ text)
      = out ++ text ++ List.replicate (k - text.length + 1) 0 := by
    unfold buffer
    rw [List.length_append]
    congr 2
    omega
  rw [hbuffer, buffer, addUints, hroom, EStateM.run_bind, run_strlen hout]
  dsimp only
  rw [hroom, hcount, htexts, EStateM.run_bind, run_snprintfS_fits out (by omega)]
  dsimp only
  rw [hroom', EStateM.run_bind, run_strlen hout']
  dsimp only
  rw [if_neg (by rw [List.length_append]; omega)]

/-- A parameter that comes to fill the buffer ends the loop. -/
theorem addUints_full {ret : Int} {info : UInt32} (hout : 0 ∉ out)
    (hlength : out.length ≤ msgMaxLen)
    (hfull : msgMaxLen ≤ (out ++ (formatSigned info ++ chars ", ")).length) :
  ∃ m, (addUints ret (info :: infos)).run (buffer out) = .ok false m
  := by
  have htext : 0 ∉ formatSigned info ++ chars ", " := by
    rw [List.mem_append, not_or]
    exact ⟨zero_not_mem_formatSigned info, by decide⟩
  generalize htexts : formatSigned info ++ chars ", " = text at hfull htext
  rw [List.length_append] at hfull
  obtain ⟨k, hk⟩ := Nat.exists_eq_add_of_le hlength
  have hroom : msgMaxLen + 1 - out.length = k + 1 := by omega
  have hcount : msgMaxLen - out.length = k := by omega
  have hcut : (text.take k).length = k := List.length_take_of_le (by omega)
  have hout' : 0 ∉ out ++ text.take k := by
    rw [List.mem_append, not_or]
    exact ⟨hout, fun h => htext (List.mem_of_mem_take h)⟩
  -- a text that just fits is taken as if it were cut off
  have hformat : ∃ code, (snprintfS out.length (k + 1) k text).run
        (out ++ List.replicate (k + 1) 0)
      = .ok code (out ++ text.take k ++ List.replicate (0 + 1) 0) := by
    obtain hcase | hcase := Nat.eq_or_lt_of_le (show k ≤ text.length by omega)
    · have hfits : (snprintfS out.length (k + 1) k text).run (out ++ List.replicate (k + 1) 0)
          = _ := run_snprintfS_fits out (by omega)
      rw [show k + 1 - text.length = 0 + 1 by omega] at hfits
      rw [List.take_of_length_le (by omega)]
      exact ⟨_, hfits⟩
    · exact ⟨_, run_snprintfS_cut out hcase⟩
  obtain ⟨code, hformat⟩ := hformat
  rw [buffer, addUints, hroom, EStateM.run_bind, run_strlen hout]
  dsimp only
  rw [hroom, hcount, htexts, EStateM.run_bind, hformat]
  dsimp only
  rw [EStateM.run_bind, run_strlen hout']
  dsimp only
  rw [if_pos (.inr (by rw [List.length_append]; omega))]
  exact ⟨_, rfl⟩

/-- The loop appends the parameters as signed numbers, if these do not come to fill the buffer. -/
theorem addUints_run {ret : Int} (infos : List UInt32) (hret : ¬ret < 0) (hout : 0 ∉ out)
    (hlength : out.length ≤ msgMaxLen) (hne : infos = [] → out.length < msgMaxLen) :
  if (out ++ uintTexts formatSigned infos).length < msgMaxLen then
    (addUints ret infos).run (buffer out) = .ok true (buffer (out ++ uintTexts formatSigned infos))
  else ∃ m, (addUints ret infos).run (buffer out) = .ok false m
  := by
  induction infos generalizing out with
  | nil =>
      rw [show uintTexts formatSigned [] = [] from rfl, List.append_nil, if_pos (hne rfl)]
      rfl
  | cons info infos ih =>
      have hsplit : out ++ uintTexts formatSigned (info :: infos)
          = out ++ (formatSigned info ++ chars ", ") ++ uintTexts formatSigned infos := by
        rw [List.append_assoc]
        rfl
      rw [hsplit]
      by_cases hfits : (out ++ (formatSigned info ++ chars ", ")).length < msgMaxLen
      · rw [addUints_turn hret hout hfits]
        apply ih
        · rw [List.mem_append, List.mem_append, not_or, not_or]
          exact ⟨hout, zero_not_mem_formatSigned info, by decide⟩
        · exact Nat.le_of_lt hfits
        · exact fun _ => hfits
      · rw [if_neg (by rw [List.length_append]; omega)]
        exact addUints_full hout hlength (Nat.le_of_not_lt hfits)

/-- The text with signed numbers is that with unsigned ones exactly if none is negative. -/
theorem uintTexts_signed_iff :
  uintTexts formatSigned infos = uintTexts formatUnsigned infos
    ↔ ∀ info ∈ infos, info.toNat < 2147483648
  := by
  induction infos with
  | nil => simp [uintTexts]
  | cons info infos ih =>
      have hsplit : ∀ format, uintTexts format (info :: infos)
          = format info ++ (chars ", " ++ uintTexts format infos) := fun format => by
        rw [← List.append_assoc]
        rfl
      rw [hsplit, hsplit, List.forall_mem_cons]
      by_cases hinfo : info.toNat < 2147483648
      · rw [formatSigned_eq hinfo, List.append_cancel_left_eq, List.append_cancel_left_eq, ih]
        exact (and_iff_right hinfo).symm
      · refine iff_of_false ?_ fun h => hinfo h.1
        exact formatSigned_append_ne (Nat.le_of_not_lt hinfo) _ _

/-- The text that is in the buffer is recorded. -/
theorem recordMessages_run (hout : 0 ∉ out) (hlength : out.length ≤ msgMaxLen) :
  recordMessages.run (buffer out) = .ok (some out) (buffer out)
  := by
  obtain ⟨k, hk⟩ := Nat.exists_eq_add_of_le hlength
  have hbuffer : buffer out = out ++ List.replicate (k + 1) 0 := by
    unfold buffer
    congr 2
    omega
  have hrun : recordMessages.run (buffer out)
      = ((do scan (← get) : Exec Bytes Bytes) >>= fun s => pure (some s)).run (buffer out) := rfl
  rw [hrun, hbuffer, EStateM.run_bind, run_scan hout]
  rfl

/-- Parameters that are legal are some. -/
theorem Tables.names_pos {tables : Tables} {module moduleFun : Int} {size : UInt8}
    (h : tables.names module moduleFun size = some names) :
  size.toNat ≠ 0
  := by
  unfold Tables.names at h
  split at h
  · split_ifs at h with hsize
    omega
  · cases h

/-- What is recorded of unsigned parameters. -/
theorem addUintMsg_run {tables : Tables} {module moduleFun : Int} {size : UInt8}
    (infos : Nat → UInt32) (hnames : tables.names module moduleFun size = some names) :
  ∃ m, (tables.platformTraceAddUintMsg module moduleFun size infos).run []
    = .ok
      (if (uintText names formatSigned ((List.range size.toNat).map infos)).length < msgMaxLen then
        some (uintText names formatSigned ((List.range size.toNat).map infos))
      else none) m
  := by
  have hsize := Tables.names_pos hnames
  unfold Tables.platformTraceAddUintMsg
  rw [hnames]
  generalize hparams : (List.range size.toNat).map infos = params
  have hne : params ≠ [] := by
    rw [← hparams, Ne, List.map_eq_nil_iff, List.range_eq_nil]
    exact hsize
  show ∃ m, EStateM.run (snprintfS 0 (msgMaxLen + 1) msgMaxLen _ >>= _) _ = _
  unfold uintText
  have hzero := zero_not_mem_uintPrefix names.1 names.2
  generalize uintPrefix names.1 names.2 = out at hzero ⊢
  rw [EStateM.run_bind]
  by_cases hhead : out.length ≤ msgMaxLen
  · rw [run_prefix_fits hhead]
    dsimp only
    rw [if_neg (by omega), EStateM.run_bind]
    have hloop := addUints_run params (show ¬(out.length : Int) < 0 by omega) hzero hhead
      fun hnil => absurd hnil hne
    have hzeros : 0 ∉ out ++ uintTexts formatSigned params := by
      rw [List.mem_append, not_or]
      exact ⟨hzero, zero_not_mem_uintTexts params⟩
    by_cases hfits : (out ++ uintTexts formatSigned params).length < msgMaxLen
    · rw [if_pos hfits] at hloop ⊢
      rw [show out ++ List.replicate (msgMaxLen + 1 - out.length) 0 = buffer out from rfl, hloop]
      exact ⟨_, recordMessages_run hzeros (Nat.le_of_lt hfits)⟩
    · rw [if_neg hfits] at hloop ⊢
      obtain ⟨m, hloop⟩ := hloop
      rw [show out ++ List.replicate (msgMaxLen + 1 - out.length) 0 = buffer out from rfl, hloop]
      exact ⟨m, rfl⟩
  · rw [run_prefix_cut (Nat.lt_of_not_le hhead)]
    dsimp only
    rw [if_pos (by decide), if_neg (by rw [List.length_append]; omega)]
    exact ⟨_, rfl⟩

/-- A message with formatted parameters is as it should be only if the prefix does not fit. -/
theorem addMsg_records_iff :
  Records (platformTraceAddMsg (some module) (some moduleFun) text)
      (some (msgText module moduleFun text))
    ↔ msgMaxLen < (msgPrefix module moduleFun).length
  := by
  constructor
  · rintro ⟨m, hrun⟩
    by_contra hhead
    obtain ⟨s, hs, hshort⟩ := platformTraceAddMsg_recorded (Nat.le_of_not_lt hhead) hrun
    obtain ⟨hsome, -⟩ := Option.filter_eq_some_iff.mp hs
    rw [Option.some.inj hsome] at hshort
    exact absurd hshort (Nat.lt_irrefl _)
  · intro hhead
    have hlong : msgMaxLen < (msgText module moduleFun text).length := by
      unfold msgText
      rw [List.length_append]
      omega
    unfold Records
    rw [filter_cut hlong]
    show ∃ m, EStateM.run (snprintfS 0 (msgMaxLen + 1) msgMaxLen _ >>= _) _ = _
    rw [EStateM.run_bind, run_prefix_cut hhead]
    exact ⟨_, rfl⟩

/-- The text with signed numbers is recorded, if it does not fill the buffer.  This is what is to be
done with the one with unsigned numbers exactly if the parameters fit. -/
theorem recorded_iff :
  (if (uintText names formatSigned infos).length < msgMaxLen then
        some (uintText names formatSigned infos) else none)
      = (some (uintText names formatUnsigned infos)).filter
        (fun t => decide (t.length ≤ msgMaxLen))
    ↔ UintsFit names infos
  := by
  have hsame : uintText names formatSigned infos = uintText names formatUnsigned infos
      ↔ ∀ info ∈ infos, info.toNat < 2147483648 := by
    unfold uintText
    rw [List.append_cancel_left_eq, uintTexts_signed_iff]
  unfold UintsFit
  by_cases hfits : (uintText names formatUnsigned infos).length ≤ msgMaxLen
  · rw [filter_fits hfits]
    constructor
    · intro h
      split_ifs at h with hshort
      have heq := Option.some.inj h
      exact .inl ⟨heq ▸ hshort, hsame.mp heq⟩
    · rintro (⟨hshort, hall⟩ | ⟨hlong, -⟩)
      · rw [hsame.mpr hall, if_pos hshort]
      · omega
  · rw [filter_cut (Nat.lt_of_not_le hfits)]
    constructor
    · intro h
      split_ifs at h with hshort
      exact .inr ⟨Nat.lt_of_not_le hfits, Nat.le_of_not_lt hshort⟩
    · rintro (⟨hshort, -⟩ | ⟨-, hfull⟩)
      · omega
      · rw [if_neg (Nat.not_lt.mpr hfull)]

/-- A message with unsigned parameters is as it should be exactly if they fit. -/
theorem addUintMsg_records_iff
    (tables : Tables) (module moduleFun : Int) (size : UInt8) (infos : Nat → UInt32) :
  Records (tables.platformTraceAddUintMsg module moduleFun size infos)
      ((tables.names module moduleFun size).map fun names =>
        uintText names formatUnsigned ((List.range size.toNat).map infos))
    ↔ ∀ names, tables.names module moduleFun size = some names →
      UintsFit names ((List.range size.toNat).map infos)
  := by
  cases hnames : tables.names module moduleFun size with
  | none =>
      refine iff_of_true ⟨List.replicate (msgMaxLen + 1) 0, ?_⟩ nofun
      unfold Tables.platformTraceAddUintMsg
      rw [hnames]
      rfl
  | some names =>
      obtain ⟨m, hrun⟩ := addUintMsg_run infos hnames
      have hone : (∀ names', some names = some names' →
            UintsFit names' ((List.range size.toNat).map infos))
          ↔ UintsFit names ((List.range size.toNat).map infos) :=
        ⟨fun h => h names rfl, fun h names' heq => Option.some.inj heq ▸ h⟩
      rw [hone, ← recorded_iff, Option.map_some]
      unfold Records
      rw [hrun]
      exact ⟨fun ⟨_, h⟩ => (EStateM.Result.ok.inj h).1, fun h => ⟨m, by rw [h]⟩⟩

/-- The two functions stay inside their buffers and record the text of a message, if and only if it
fits, exactly in these cases: with formatted parameters, if the prefix does not fit; with unsigned
ones, if they are not legal, or fit. -/
theorem trace_messages_iff
    (module moduleFun : CString) (text : Bytes) (tables : Tables) (moduleId funId : Int)
    (size : UInt8) (infos : Nat → UInt32) :
  (Records (platformTraceAddMsg (some module) (some moduleFun) text)
        (some (msgText module moduleFun text))
      ↔ msgMaxLen < (msgPrefix module moduleFun).length)
    ∧ (Records (tables.platformTraceAddUintMsg moduleId funId size infos)
        ((tables.names moduleId funId size).map fun names =>
          uintText names formatUnsigned ((List.range size.toNat).map infos))
      ↔ ∀ names, tables.names moduleId funId size = some names →
        UintsFit names ((List.range size.toNat).map infos))
  := ⟨addMsg_records_iff, addUintMsg_records_iff tables moduleId funId size infos⟩

/-- A table with one module and one function. -/
def oneName : Tables where
  moduleExplain module := if module = 0 then some ⟨chars "i2s", by decide⟩ else none
  funExplain moduleFun := if moduleFun = 0 then some ⟨chars "open", by decide⟩ else none
  moduleI2s := 0
  moduleMax := 1
  moduleI2sFun := 0
  moduleMaxFun := 1
  uintParamSizeMax := 4

/-- The text that the execution records. -/
def recorded (x : Exec Bytes (Option Bytes)) : Option Bytes :=
  match x.run [] with
  | .ok r _ => r
  | .error _ _ => none

/-- A message lacks the blank before its parameters, a longer one is written beyond the buffer, and
the greatest unsigned number is recorded as `-1`. -/
theorem trace_messages_wrong :
  recorded (platformTraceAddMsg (some ⟨chars "i2s", by decide⟩) (some ⟨chars "open", by decide⟩)
        (chars "bus 1"))
      = some (chars "module:i2s function:open params:bus 1")
    ∧ stopOf ((platformTraceAddMsg (some ⟨chars "i2s", by decide⟩)
        (some ⟨chars "open", by decide⟩) (List.replicate 490 120)).run [])
      = some (.fault .outOfBounds)
    ∧ recorded (oneName.platformTraceAddUintMsg 0 0 1 fun _ => 4294967295)
      = some (chars "module:i2s function:open params:-1, ")
    ∧ ¬Records (platformTraceAddMsg (some ⟨chars "i2s", by decide⟩)
        (some ⟨chars "open", by decide⟩) (chars "bus 1"))
      (some (msgText ⟨chars "i2s", by decide⟩ ⟨chars "open", by decide⟩ (chars "bus 1")))
  := by
  have hshort : recorded (platformTraceAddMsg (some ⟨chars "i2s", by decide⟩)
      (some ⟨chars "open", by decide⟩) (chars "bus 1"))
      = some (chars "module:i2s function:open params:bus 1") := by
    decide +kernel
  refine ⟨hshort, by decide +kernel, by decide +kernel, ?_⟩
  rintro ⟨m, hrun⟩
  unfold recorded at hshort
  rw [hrun] at hshort
  dsimp only at hshort
  revert hshort
  decide +kernel

end

end Platform.Trace
