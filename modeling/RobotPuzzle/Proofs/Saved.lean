/-
  What is saved is read back.

  1. **Escapes** — whatever stands between double quotes is read as the text it was written for, with
     hexadecimal units for what is not printable and two of them for what lies beyond the first plane
     (`textBody_quote`).
  2. **Lists of texts** — the items of a list over several lines are read in their order
     (`readItems_quotedList`).
  3. **The progress file** — no line of it ends with a carriage return (`return_not_mem_fileText`), it
     parses to the object it was written for (`parse_fileText`), and so the identifiers that are read are
     those that were saved (`mem_idsOfFile_fileText`).

  The crux is that every statement about the reader is one about what stands in front of any rest (`… ++
  rest`).  So statements can be put one behind the other, as the writer puts the parts of the file, and
  none of them has to know what follows.

  What the file has in the end is asked by loading it, as another process would.  So this module has to
  show that the text written for a list of identifiers is read as that list, character by character, with
  whatever is in them; everything else about the store is in `Retries` and `Overlaps`.
-/
import Mathlib.Data.List.Basic
import RobotPuzzle.Progress.Store

namespace RobotPuzzle

namespace Text

theorem unifyBreaks_of_no_return {s : List Char} (h : '\r' ∉ s) : unifyBreaks s = s := by
  fun_induction unifyBreaks s with
  | case1 => rfl
  | case2 rest => exact absurd List.mem_cons_self h
  | case3 rest => exact absurd List.mem_cons_self h
  | case4 c rest _ _ ih => rw [ih fun hr => h (List.mem_cons_of_mem c hr)]

end Text

namespace Json

/-! ## Escapes

  A character is written in one of four ways, and which one it is depends on the character only.  So there
  is one lemma on reading for each way, and one on how a character is written (`escapeChar_escapes`). -/

section Escapes

variable {start n : Nat} {done more : List Char} {c : Char}

theorem hexValue?_digitChar : ∀ k < 16, hexValue? (Nat.digitChar k) = some k := by decide

theorem digitChar_ne_return : ∀ k < 16, Nat.digitChar k ≠ '\r' := by decide

/-- A code unit has four digits. -/
theorem hex_unit (h : n < 0x10000) : Text.hex 4 n = [(n / 4096 % 16).digitChar,
    (n / 256 % 16).digitChar, (n / 16 % 16).digitChar, (n % 16).digitChar] := by
  have hzero : Nat.digitChar 0 = '0' := rfl
  -- the digits are as many as the number needs, and zeros come before them
  rw [Text.hex]
  by_cases h₁ : n < 16
  · rw [Nat.toDigits_of_lt_base h₁, Nat.mod_eq_of_lt h₁, show n / 16 % 16 = 0 by omega,
      show n / 256 % 16 = 0 by omega, show n / 4096 % 16 = 0 by omega, hzero]
    rfl
  have hlast : Nat.toDigits 16 n = Nat.toDigits 16 (n / 16) ++ [(n % 16).digitChar] :=
    Nat.toDigits_of_base_le (by decide) (by omega)
  by_cases h₂ : n / 16 < 16
  · rw [hlast, Nat.toDigits_of_lt_base h₂, Nat.mod_eq_of_lt h₂, show n / 256 % 16 = 0 by omega,
      show n / 4096 % 16 = 0 by omega, hzero]
    rfl
  have hthird : Nat.toDigits 16 (n / 16) = Nat.toDigits 16 (n / 16 / 16) ++ [(n / 16 % 16).digitChar] :=
    Nat.toDigits_of_base_le (by decide) (by omega)
  rw [Nat.div_div_eq_div_mul] at hthird
  by_cases h₃ : n / 256 < 16
  · rw [hlast, hthird, Nat.toDigits_of_lt_base h₃, Nat.mod_eq_of_lt h₃,
      show n / 4096 % 16 = 0 by omega, hzero]
    rfl
  have hsecond : Nat.toDigits 16 (n / 256)
      = Nat.toDigits 16 (n / 256 / 16) ++ [(n / 256 % 16).digitChar] :=
    Nat.toDigits_of_base_le (by decide) (by omega)
  rw [Nat.div_div_eq_div_mul] at hsecond
  rw [hlast, hthird, hsecond, Nat.toDigits_of_lt_base (show n / (256 * 16) < 16 by omega),
    Nat.mod_eq_of_lt (show n / 4096 < 16 by omega)]
  rfl

/-- Four digits are read as the code unit that they were written for. -/
theorem hex4?_unit (h : n < 0x10000) : hex4? (n / 4096 % 16).digitChar (n / 256 % 16).digitChar
    (n / 16 % 16).digitChar (n % 16).digitChar = some n := by
  have hmod : ∀ m, hexValue? (m % 16).digitChar = some (m % 16) := fun m =>
    hexValue?_digitChar _ (Nat.mod_lt m (by decide))
  simp only [hex4?, hmod, Option.bind_eq_bind, Option.bind_some, Option.pure_def, Option.some.injEq]
  omega

theorem return_not_mem_unitEscape (h : n < 0x10000) : '\r' ∉ unitEscape n := by
  have hne : ∀ m, '\r' ≠ (m % 16).digitChar := fun m =>
    (digitChar_ne_return _ (Nat.mod_lt m (by decide))).symm
  rw [unitEscape, hex_unit h]
  simp [hne]

/-- A character that stands for itself. -/
theorem textBody_plain (hquote : c ≠ '"') (hslash : c ≠ '\\') (hcontrol : 0x1F < c.toNat) :
    textBody start done (c :: more) = textBody start (c :: done) more := by
  have hshown : ¬ c.toNat ≤ 0x1F := Nat.not_le.2 hcontrol
  rw [textBody.eq_def]
  split
  case h_7 heq =>
    cases heq
    rw [if_neg hshown]
  all_goals simp_all

/-- A backslash and a letter. -/
theorem textBody_escaped {u : Char} (hu : unescape? c = some u) :
    textBody start done ('\\' :: c :: more) = textBody start (u :: done) more := by
  have hc : c ≠ 'u' := by
    rintro rfl
    cases hu
  rw [textBody.eq_def]
  split
  case h_6 heq =>
    cases heq
    rw [hu]
  all_goals grind

/-- A code unit that is a character.  Something follows, since a text has a closing quote. -/
theorem textBody_unit (hn : n < 0x10000) (hhigh : isHighSurrogate n = false)
    (hlow : isLowSurrogate n = false) (hmore : more ≠ []) :
    textBody start done (unitEscape n ++ more) = textBody start (Char.ofNat n :: done) more := by
  have hchar : unitChar n = Char.ofNat n := by
    rw [unitChar, hhigh, hlow]
    rfl
  rw [unitEscape, hex_unit hn, List.cons_append, List.cons_append, List.cons_append, List.cons_append,
    List.cons_append, List.cons_append, List.nil_append, textBody.eq_def]
  simp only [hex4?_unit hn]
  split <;> simp_all

/-- Two code units that are one character. -/
theorem textBody_pair {low : Nat} (hn : n < 0x10000) (hm : low < 0x10000)
    (hhigh : isHighSurrogate n = true) (hlow : isLowSurrogate low = true) (hmore : more ≠ []) :
    textBody start done (unitEscape n ++ (unitEscape low ++ more))
      = textBody start (Char.ofNat (0x10000 + (n - 0xD800) * 0x400 + (low - 0xDC00)) :: done) more := by
  obtain ⟨next, rest, rfl⟩ := List.exists_cons_of_ne_nil hmore
  simp only [unitEscape, hex_unit hn, hex_unit hm, List.cons_append, List.nil_append]
  rw [textBody.eq_def]
  simp only [hex4?_unit hn, hex4?_unit hm, hhigh, hlow, reduceIte]

/-- The ways of writing a character. -/
inductive Escapes (c : Char) : List Char → Prop
  /-- a backslash and the letter that stands for the character -/
  | letter {d : Char} : unescape? d = some c → d ≠ '\r' → Escapes c ['\\', d]
  /-- the character itself, if it is no quote, no backslash and no control character -/
  | plain : c ≠ '"' → c ≠ '\\' → c ≠ '\r' → 0x1F < c.toNat → Escapes c [c]
  /-- a backslash, a `u` and four digits -/
  | unit : c.toNat < 0x10000 → Escapes c (unitEscape c.toNat)
  /-- two such units, for a character beyond the first plane -/
  | pair : 0x10000 ≤ c.toNat → Escapes c (unitEscape (0xD800 + (c.toNat - 0x10000) / 0x400)
      ++ unitEscape (0xDC00 + (c.toNat - 0x10000) % 0x400))

/-- Every character is written in one of the four ways: quotes, backslashes and the usual controls with a
letter, what is printable as it is, and the rest by code units. -/
theorem escapeChar_escapes (c : Char) : Escapes c (escapeChar c) := by
  have hletter : ∀ {u d : Char}, (c == u) = true → unescape? d = some u → d ≠ '\r' →
      Escapes c ['\\', d] := fun hc hd hne => .letter (by rwa [beq_iff_eq.1 hc]) hne
  unfold escapeChar
  split
  · exact hletter ‹_› rfl (by decide)
  -- the quote and the backslash come first, since they could not be told from the marks
  rename_i hquote
  split
  · exact hletter ‹_› rfl (by decide)
  rename_i hslash
  split
  · exact hletter ‹_› rfl (by decide)
  split
  · exact hletter ‹_› rfl (by decide)
  rename_i hreturn
  split
  · exact hletter ‹_› rfl (by decide)
  split
  · exact hletter ‹_› rfl (by decide)
  split
  · exact hletter ‹_› rfl (by decide)
  split
  · -- what is left and printable stands for itself
    rename_i hshown
    rw [Bool.and_eq_true, decide_eq_true_iff, decide_eq_true_iff] at hshown
    exact .plain (mt beq_iff_eq.2 hquote) (mt beq_iff_eq.2 hslash) (mt beq_iff_eq.2 hreturn) hshown.1
  split
  · exact .unit (Nat.lt_succ_of_le ‹_›)
  · exact .pair (Nat.lt_of_not_le ‹_›)

/-- Every character is read as it was written. -/
theorem textBody_escapeChar (c : Char) (hmore : more ≠ []) :
    textBody start done (escapeChar c ++ more) = textBody start (c :: done) more := by
  -- no character is a surrogate
  have hvalid : c.toNat < 0xD800 ∨ 0xDFFF < c.toNat ∧ c.toNat < 0x110000 := c.valid
  have hescapes := escapeChar_escapes c
  generalize escapeChar c = written at hescapes ⊢
  cases hescapes with
  | letter hd _ => exact textBody_escaped hd
  | plain hquote hslash _ hshown => exact textBody_plain hquote hslash hshown
  | unit hunit =>
    have hhigh : isHighSurrogate c.toNat = false := by
      simp only [isHighSurrogate, Bool.and_eq_false_iff, decide_eq_false_iff_not]
      omega
    have hlow : isLowSurrogate c.toNat = false := by
      simp only [isLowSurrogate, Bool.and_eq_false_iff, decide_eq_false_iff_not]
      omega
    rw [textBody_unit hunit hhigh hlow hmore, Char.ofNat_toNat]
  | pair hbeyond =>
    have hhigh : isHighSurrogate (0xD800 + (c.toNat - 0x10000) / 0x400) = true := by
      simp only [isHighSurrogate, Bool.and_eq_true, decide_eq_true_eq]
      omega
    have hlow : isLowSurrogate (0xDC00 + (c.toNat - 0x10000) % 0x400) = true := by
      simp only [isLowSurrogate, Bool.and_eq_true, decide_eq_true_eq]
      omega
    have hjoined : 0x10000 + (0xD800 + (c.toNat - 0x10000) / 0x400 - 0xD800) * 0x400
        + (0xDC00 + (c.toNat - 0x10000) % 0x400 - 0xDC00) = c.toNat := by
      omega
    rw [List.append_assoc, textBody_pair (by omega) (by omega) hhigh hlow hmore, hjoined,
      Char.ofNat_toNat]

/-- What stands between double quotes is read as the text it was written for. -/
theorem textBody_quote (cs rest : List Char) : ∀ done,
    textBody start done (cs.flatMap escapeChar ++ '"' :: rest)
      = .ok (String.ofList (done.reverse ++ cs), rest) := by
  induction cs with
  | nil =>
    intro done
    rw [List.flatMap_nil, List.nil_append, List.append_nil, textBody]
  | cons c cs ih =>
    intro done
    rw [List.flatMap_cons, List.append_assoc, textBody_escapeChar c (by simp), ih, List.reverse_cons,
      List.append_assoc, List.singleton_append]

/-- A carriage return is written with a letter, so there is none in what is written. -/
theorem return_not_mem_escapeChar (c : Char) : '\r' ∉ escapeChar c := by
  have hvalid : c.toNat < 0xD800 ∨ 0xDFFF < c.toNat ∧ c.toNat < 0x110000 := c.valid
  have hescapes := escapeChar_escapes c
  generalize escapeChar c = written at hescapes ⊢
  cases hescapes with
  | letter _ hne =>
    refine List.not_mem_cons_of_ne_of_not_mem (by decide) ?_
    exact List.not_mem_cons_of_ne_of_not_mem hne.symm List.not_mem_nil
  | plain _ _ hne _ => exact List.not_mem_cons_of_ne_of_not_mem hne.symm List.not_mem_nil
  | unit hunit => exact return_not_mem_unitEscape hunit
  | pair hbeyond =>
    refine List.not_mem_append ?_ ?_
    · exact return_not_mem_unitEscape (by omega)
    · exact return_not_mem_unitEscape (by omega)

end Escapes

/-! ## Lists of texts

  The reader of values works with fuel, one for each item or member.  A list needs two more than it has
  items, and a file always has more characters than that (`length_lt_fileText`). -/

section Lists

variable {fuel : Nat} {gap tail rest : List Char}

theorem toList_quote (text : String) :
    (quote text).toList = '"' :: (text.toList.flatMap escapeChar ++ ['"']) := by
  rw [quote, String.toList_ofList, List.cons_append]

/-- A text in quotes is read as that text, and what follows is left. -/
theorem readValue_quote (fuel : Nat) (text : String) (rest : List Char) :
    readValue (fuel + 1) ((quote text).toList ++ rest) = .ok (.str text, rest) := by
  rw [toList_quote, List.cons_append, List.append_assoc, List.singleton_append, readValue,
    textBody_quote, List.reverse_nil, List.nil_append, String.ofList_toList]
  rfl

theorem skipSpace_gap (hgap : ∀ c ∈ gap, isSpace c = true) (rest : List Char) :
    skipSpace (gap ++ rest) = skipSpace rest :=
  List.dropWhile_append_of_pos hgap

theorem skipSpace_quote (text : String) (rest : List Char) :
    skipSpace ((quote text).toList ++ rest) = (quote text).toList ++ rest := by
  rw [toList_quote]
  rfl

theorem prettyItems_texts (depth : Nat) (texts : List String) :
    prettyItems depth (texts.map .str) = texts.map quote := by
  induction texts with
  | nil => rfl
  | cons text rest ih =>
    rw [List.map_cons, prettyItems, ih]
    rfl

/-- Texts in double quotes, with a separator between any two of them. -/
def quotedList (separator : List Char) (texts : List String) : List Char :=
  separator.intercalate (texts.map fun text => (quote text).toList)

theorem quotedList_cons_cons (separator : List Char) (first second : String) (texts : List String) :
    quotedList separator (first :: second :: texts)
      = (quote first).toList ++ (separator ++ quotedList separator (second :: texts)) := by
  rw [quotedList, List.map_cons, List.map_cons, List.intercalate_cons_cons, List.append_assoc]
  rfl

/-- There is no carriage return in a quoted text. -/
theorem return_not_mem_quote (text : String) : '\r' ∉ (quote text).toList := by
  have hescaped : '\r' ∉ text.toList.flatMap escapeChar := by
    rw [List.mem_flatMap]
    rintro ⟨c, -, hc⟩
    exact return_not_mem_escapeChar c hc
  rw [toList_quote]
  simp [hescaped]

/-- Nor is there one in a list of such texts. -/
theorem return_not_mem_quotedList {separator : List Char} (hseparator : '\r' ∉ separator)
    (texts : List String) : ∀ first, '\r' ∉ quotedList separator (first :: texts) := by
  induction texts with
  | nil =>
    intro first
    rw [quotedList, List.map_singleton, List.intercalate_singleton]
    exact return_not_mem_quote first
  | cons second texts ih =>
    intro first
    rw [quotedList_cons_cons]
    exact List.not_mem_append (return_not_mem_quote first)
      (List.not_mem_append hseparator (ih second))

/-- Each text takes a character at least, for its quotation mark. -/
theorem length_le_quotedList (separator : List Char) (texts : List String) :
    texts.length ≤ (quotedList separator texts).length := by
  induction texts with
  | nil => exact Nat.zero_le _
  | cons first texts ih =>
    have hfirst : 1 ≤ (quote first).toList.length := by
      rw [toList_quote, List.length_cons]
      omega
    cases texts with
    | nil =>
      rw [quotedList, List.map_singleton, List.intercalate_singleton]
      exact hfirst
    | cons second texts =>
      rw [quotedList_cons_cons, List.length_append, List.length_append, List.length_cons]
      omega

/-- A list of quoted texts begins with a quotation mark, so nothing is skipped. -/
theorem skipSpace_quotedList (separator : List Char) (first : String) (texts : List String)
    (rest : List Char) : skipSpace (quotedList separator (first :: texts) ++ rest)
      = quotedList separator (first :: texts) ++ rest := by
  cases texts with
  | nil =>
    rw [quotedList, List.map_singleton, List.intercalate_singleton, skipSpace_quote]
  | cons second texts => rw [quotedList_cons_cons, List.append_assoc, skipSpace_quote]

/-- Items that are texts, with a comma and a gap between any two of them. -/
theorem readItems_quotedList (hgap : ∀ c ∈ gap, isSpace c = true)
    (htail : skipSpace tail = ']' :: rest) (texts : List String) :
    ∀ (first : String) (done : List Json),
      readItems (fuel + (texts.length + 2)) done (quotedList (',' :: gap) (first :: texts) ++ tail)
        = .ok (.arr (done.reverse ++ (first :: texts).map .str), rest) := by
  induction texts with
  | nil =>
    intro first done
    -- the last text is followed by the bracket
    show readItems (fuel + 1 + 1) done _ = _
    rw [quotedList, List.map_singleton, List.intercalate_singleton, List.map_singleton, readItems,
      readValue_quote]
    simp only [bind, Except.bind, htail]
    rw [List.reverse_cons]
  | cons second texts ih =>
    intro first done
    -- any other one by a comma, behind which the list goes on
    have hnext := ih second (.str first :: done)
    rw [List.reverse_cons, List.append_assoc, List.singleton_append] at hnext
    have hcomma : ∀ cs, skipSpace (',' :: cs) = ',' :: cs := fun _ => rfl
    show readItems (fuel + (texts.length + 1) + 1 + 1) done _ = _
    rw [quotedList_cons_cons, List.append_assoc, readItems, readValue_quote]
    simp only [bind, Except.bind, List.cons_append, hcomma, List.append_assoc]
    rw [skipSpace_gap hgap, skipSpace_quotedList]
    exact hnext

theorem toList_lineBreak (depth : Nat) :
    (lineBreak depth).toList = '\n' :: List.replicate (2 * depth) ' ' := by
  simp [lineBreak]

theorem isSpace_of_mem_lineBreak {depth : Nat} {c : Char} (h : c ∈ (lineBreak depth).toList) :
    isSpace c = true := by
  rw [toList_lineBreak, List.mem_cons, List.mem_replicate] at h
  rcases h with rfl | ⟨-, rfl⟩
  · rfl
  · rfl

theorem quotedList_eq_cons (separator : List Char) (first : String) (texts : List String) :
    ∃ cs, quotedList separator (first :: texts) = '"' :: cs := by
  cases texts with
  | nil => exact ⟨_, by rw [quotedList, List.map_singleton, List.intercalate_singleton, toList_quote]⟩
  | cons second texts => exact ⟨_, by rw [quotedList_cons_cons, toList_quote, List.cons_append]⟩

/-- A list of texts over several lines, character by character. -/
theorem toList_prettyAt_texts (depth : Nat) (first : String) (texts : List String) :
    (prettyAt depth (.arr ((first :: texts).map .str))).toList
      = '[' :: ((lineBreak (depth + 1)).toList
        ++ (quotedList (',' :: (lineBreak (depth + 1)).toList) (first :: texts)
          ++ ((lineBreak depth).toList ++ [']']))) := by
  have hentries : ((first :: texts).map quote).isEmpty = false := rfl
  have hcomma : ("," : String).toList = [','] := rfl
  have hopening : ("[" : String).toList = ['['] := rfl
  have hclosing : ("]" : String).toList = [']'] := rfl
  rw [prettyAt, prettyItems_texts, block, hentries, if_neg Bool.false_ne_true]
  simp only [String.toList_append, String.toList_intercalate, List.map_map, hcomma, hopening, hclosing,
    List.append_assoc, List.singleton_append]
  rfl

theorem toList_prettyAt_nil (depth : Nat) : (prettyAt depth (.arr [])).toList = ['[', ']'] := by
  rw [prettyAt, prettyItems, block, List.isEmpty_nil, if_pos rfl]
  rfl

theorem return_not_mem_lineBreak (depth : Nat) : '\r' ∉ (lineBreak depth).toList := by
  rw [toList_lineBreak]
  simp

/-- There is no carriage return in a list of texts. -/
theorem return_not_mem_texts (depth : Nat) (texts : List String) :
    '\r' ∉ (prettyAt depth (.arr (texts.map .str))).toList := by
  cases texts with
  | nil =>
    rw [List.map_nil, toList_prettyAt_nil]
    decide
  | cons first texts =>
    have hseparator : '\r' ∉ ',' :: (lineBreak (depth + 1)).toList :=
      List.not_mem_cons_of_ne_of_not_mem (by decide) (return_not_mem_lineBreak _)
    rw [toList_prettyAt_texts]
    refine List.not_mem_cons_of_ne_of_not_mem (by decide) ?_
    exact List.not_mem_append (return_not_mem_lineBreak _) (List.not_mem_append
      (return_not_mem_quotedList hseparator texts first)
      (List.not_mem_append (return_not_mem_lineBreak _) (by decide)))

/-- A list has more characters than texts. -/
theorem length_le_texts (depth : Nat) (texts : List String) :
    texts.length ≤ (prettyAt depth (.arr (texts.map .str))).toList.length := by
  cases texts with
  | nil => exact Nat.zero_le _
  | cons first texts =>
    have hitems := length_le_quotedList (',' :: (lineBreak (depth + 1)).toList) (first :: texts)
    rw [toList_prettyAt_texts]
    simp only [List.length_cons, List.length_append] at hitems ⊢
    omega

/-- A list begins with a bracket, so nothing is skipped. -/
theorem skipSpace_texts (depth : Nat) (texts : List String) (rest : List Char) :
    skipSpace ((prettyAt depth (.arr (texts.map .str))).toList ++ rest)
      = (prettyAt depth (.arr (texts.map .str))).toList ++ rest := by
  cases texts with
  | nil =>
    rw [List.map_nil, toList_prettyAt_nil]
    rfl
  | cons first texts =>
    rw [toList_prettyAt_texts]
    rfl

/-- A list of texts over several lines. -/
theorem readValue_texts (fuel depth : Nat) (texts : List String) (rest : List Char) :
    readValue (fuel + (texts.length + 2)) ((prettyAt depth (.arr (texts.map .str))).toList ++ rest)
      = .ok (.arr (texts.map .str), rest) := by
  cases texts with
  | nil =>
    rw [List.map_nil, toList_prettyAt_nil]
    rfl
  | cons first texts =>
    -- line breaks are space to the reader
    have hgap : ∀ c ∈ (lineBreak (depth + 1)).toList, isSpace c = true := fun c hc =>
      isSpace_of_mem_lineBreak hc
    have htail : skipSpace ((lineBreak depth).toList ++ ']' :: rest) = ']' :: rest :=
      (skipSpace_gap (fun c hc => isSpace_of_mem_lineBreak hc) _).trans rfl
    have hitems : readItems (fuel + (texts.length + 2)) [] _ = _ :=
      readItems_quotedList hgap htail texts first []
    obtain ⟨cs, hcs⟩ := quotedList_eq_cons (',' :: (lineBreak (depth + 1)).toList) first texts
    show readValue (fuel + (texts.length + 2) + 1) _ = _
    rw [toList_prettyAt_texts, List.cons_append, List.append_assoc, List.append_assoc,
      List.append_assoc, List.singleton_append, readValue,
      skipSpace_gap fun c hc => isSpace_of_mem_lineBreak hc, skipSpace_quotedList]
    rw [hcs] at hitems ⊢
    exact hitems

/-- A member that others follow. -/
theorem readMembers_more {name : String} {value : Json} {cs : List Char} {done : List (String × Json)}
    (hcs : skipSpace cs = cs) (hvalue : readValue fuel cs = .ok (value, ',' :: rest)) :
    readMembers (fuel + 1) done ((quote name).toList ++ ':' :: ' ' :: cs)
      = readMembers fuel (insert name value done) (skipSpace rest) := by
  have hcolon : ∀ cs, skipSpace (':' :: cs) = ':' :: cs := fun _ => rfl
  have hcomma : ∀ cs, skipSpace (',' :: cs) = ',' :: cs := fun _ => rfl
  have hspace : skipSpace (' ' :: cs) = cs := hcs
  rw [toList_quote, List.cons_append, List.append_assoc, List.singleton_append, readMembers,
    textBody_quote, List.reverse_nil, List.nil_append, String.ofList_toList]
  simp only [bind, Except.bind, hcolon, hspace, hvalue, hcomma]

/-- The last member. -/
theorem readMembers_last {name : String} {value : Json} {cs : List Char} {done : List (String × Json)}
    (hcs : skipSpace cs = cs) (hvalue : readValue fuel cs = .ok (value, tail))
    (htail : skipSpace tail = '\x7d' :: rest) :
    readMembers (fuel + 1) done ((quote name).toList ++ ':' :: ' ' :: cs)
      = .ok (.obj (insert name value done), rest) := by
  have hcolon : ∀ cs, skipSpace (':' :: cs) = ':' :: cs := fun _ => rfl
  have hspace : skipSpace (' ' :: cs) = cs := hcs
  rw [toList_quote, List.cons_append, List.append_assoc, List.singleton_append, readMembers,
    textBody_quote, List.reverse_nil, List.nil_append, String.ofList_toList]
  simp only [bind, Except.bind, hcolon, hspace, hvalue, htail]

theorem readValue_one (fuel : Nat) (rest : List Char) :
    readValue (fuel + 1) ('1' :: ',' :: rest) = .ok (.int 1, ',' :: rest) := rfl

end Lists

end Json

/-! ## The progress file

  The file is an object with two members, and each member is read by its own lemma. -/

namespace ProgressStore

open Json (insert lineBreak prettyAt quote readAll readMembers readMembers_last readMembers_more
  readValue readValue_one readValue_texts return_not_mem_lineBreak return_not_mem_quote skipSpace
  skipSpace_gap)

/-- The second member of a progress file, and the end of the file. -/
def completedPart (ids : List String) : List Char :=
  (quote "completed").toList ++ ':' :: ' ' :: ((prettyAt 1 (.arr (ids.map .str))).toList
    ++ ((lineBreak 0).toList ++ ['\x7d']))

/-- The file, character by character. -/
theorem toList_fileText (ids : List String) :
    (fileText ids).toList = '\x7b' :: ((lineBreak 1).toList ++ ((quote "version").toList
      ++ ':' :: ' ' :: '1' :: ',' :: ((lineBreak 1).toList ++ completedPart ids))) := by
  have hfile : fileText ids = Json.block "\x7b" "\x7d" 0 [quote "version" ++ ": " ++ prettyAt 1 (.int 1),
      quote "completed" ++ ": " ++ prettyAt 1 (.arr (ids.map .str))] := rfl
  have hone : prettyAt 1 (.int 1) = "1" := by
    rw [prettyAt]
    rfl
  rw [hfile, hone, Json.block, List.isEmpty_cons, if_neg Bool.false_ne_true, completedPart]
  simp

/-- There is no carriage return in it, so reading it line by line changes nothing. -/
theorem return_not_mem_fileText (ids : List String) : '\r' ∉ (fileText ids).toList := by
  have hbreak := return_not_mem_lineBreak
  have hquote := return_not_mem_quote
  have htexts := Json.return_not_mem_texts 1 ids
  rw [toList_fileText, completedPart]
  simp only [List.mem_cons, List.mem_append, hbreak, hquote, htexts]
  decide

/-- A progress file holds more characters than identifiers. -/
theorem length_lt_fileText (ids : List String) : ids.length + 2 < (fileText ids).toList.length := by
  have hitems := Json.length_le_texts 1 ids
  rw [toList_fileText, completedPart]
  simp only [List.length_cons, List.length_append]
  omega

/-- The file parses to the object it was written for. -/
theorem parse_fileText (ids : List String) : Json.parse (fileText ids)
    = .ok (.obj [("version", .int 1), ("completed", .arr (ids.map .str))]) := by
  have hspace : ∀ {depth : Nat} (rest : List Char),
      skipSpace ((lineBreak depth).toList ++ rest) = skipSpace rest :=
    skipSpace_gap fun _ => Json.isSpace_of_mem_lineBreak
  obtain ⟨fuel, hfuel⟩ : ∃ fuel,
      2 * (fileText ids).toList.length + 2 = fuel + (ids.length + 2) + 1 + 1 + 1 := by
    have hlength := length_lt_fileText ids
    exact ⟨2 * (fileText ids).toList.length - ids.length - 3, by omega⟩
  -- the object is read from its last member backwards
  have hsecond : readMembers (fuel + (ids.length + 2) + 1) [("version", .int 1)] (completedPart ids)
      = .ok (.obj [("version", .int 1), ("completed", .arr (ids.map .str))], []) :=
    readMembers_last (Json.skipSpace_texts 1 ids _) (readValue_texts fuel 1 ids _)
      ((hspace _).trans rfl)
  have hfirst : readMembers (fuel + (ids.length + 2) + 1 + 1) [] ((quote "version").toList
      ++ ':' :: ' ' :: '1' :: ',' :: ((lineBreak 1).toList ++ completedPart ids))
      = .ok (.obj [("version", .int 1), ("completed", .arr (ids.map .str))], []) := by
    rw [readMembers_more rfl (readValue_one _ _), hspace]
    exact hsecond
  have hobject : readValue (fuel + (ids.length + 2) + 1 + 1 + 1) (fileText ids).toList
      = .ok (.obj [("version", .int 1), ("completed", .arr (ids.map .str))], []) := by
    rw [toList_fileText, readValue, hspace, Json.skipSpace_quote]
    rw [Json.toList_quote] at hfirst ⊢
    exact hfirst
  have hstart : skipSpace (fileText ids).toList = (fileText ids).toList := by
    rw [toList_fileText]
    rfl
  have hread : readAll (fileText ids).toList
      = .ok (.obj [("version", .int 1), ("completed", .arr (ids.map .str))]) := by
    rw [readAll]
    · rw [hfuel, hstart, hobject]
      rfl
    · rw [toList_fileText]
      intro tail heq
      cases heq
  rw [Json.parse, hread]

/-! ### The identifiers that are read -/

/-- Identifiers that are collected are all there. -/
theorem mem_collect {id : String} {ids : List String} : id ∈ collect ids ↔ id ∈ ids := by
  have key : ∀ done, id ∈ ids.foldl (fun all id => insertId id all) done ↔ id ∈ done ∨ id ∈ ids := by
    induction ids with
    | nil => simp
    | cons first rest ih =>
      intro done
      rw [List.foldl_cons, ih, mem_insertId, List.mem_cons]
      tauto
  rw [collect, key]
  simp

/-- **What is saved is read back.** -/
theorem idsOfFile_fileText (ids : List String) : idsOfFile (.text (fileText ids)) = collect ids := by
  have hread : Text.ofFile (fileText ids) = fileText ids := by
    rw [Text.ofFile, Text.unifyBreaks_of_no_return (return_not_mem_fileText ids), String.ofList_toList]
  have hplain : ∀ ids : List String, (ids.map .str).map Json.plain = ids := fun ids => by
    rw [List.map_map]
    exact List.map_id ids
  rw [idsOfFile, hread, parse_fileText]
  show collect ((ids.map .str).map Json.plain) = collect ids
  rw [hplain]

/-- **What is saved is there when it is read**, and nothing else is. -/
theorem mem_idsOfFile_fileText {id : String} {ids : List String} :
    id ∈ idsOfFile (.text (fileText ids)) ↔ id ∈ ids := by
  rw [idsOfFile_fileText, mem_collect]

end ProgressStore

end RobotPuzzle
