/-
Reading back what is written over several lines: a faithful value whose text can be encoded comes back
as it was (`read_page`). The text of a value is followed by something that cannot be taken for more of
it, and its parts are set apart in the same way, so the reader stops where the writer did. Every control
character but the line feeds between the parts is spelled out (`shown_of_mem_indented`).

What is written is a row of letters, what is read is a row of characters. The lemmas are about the
characters of what is written, and hold if no letter is lost by that.
-/
import SlideFlow.Json.Writer
import SlideFlow.Proofs.Ident.Form
import SlideFlow.Proofs.Json.Tidy
import SlideFlow.Proofs.Traverse

namespace SlideFlow.Text

/-! ## The characters of a text -/

def Letter.char? : Letter → Option Char
  | .char c => some c
  | .half _ => none

namespace RawText

/-- The characters of a text, without the halves. -/
def plain (s : RawText) : List Char := s.filterMap Letter.char?

@[simp] theorem plain_append (s t : RawText) : plain (s ++ t) = plain s ++ plain t :=
  List.filterMap_append

@[simp] theorem plain_chars (cs : List Char) : plain (cs.map .char) = cs := by
  unfold plain
  rw [List.filterMap_map]
  exact List.filterMap_some

@[simp] theorem plain_ofString (s : String) : plain (ofString s) = s.toList := plain_chars s.toList

/-- A text that holds no half. -/
def IsWhole (s : RawText) : Prop := ∀ l ∈ s, ∃ c, l = .char c

@[simp] theorem isWhole_append {s t : RawText} : IsWhole (s ++ t) ↔ IsWhole s ∧ IsWhole t :=
  List.forall_mem_append

theorem isWhole_chars (cs : List Char) : IsWhole (cs.map .char) := by
  intro l hl
  obtain ⟨c, -, rfl⟩ := List.mem_map.1 hl
  exact ⟨c, rfl⟩

theorem isWhole_ofString (s : String) : IsWhole (ofString s) := isWhole_chars s.toList

/-- Nothing is lost of a whole text. -/
theorem IsWhole.map_plain {s : RawText} (h : IsWhole s) : (plain s).map .char = s := by
  induction s with
  | nil => rfl
  | cons l s ih =>
    obtain ⟨c, rfl⟩ := h l (List.mem_cons_self ..)
    exact congrArg (Letter.char c :: ·) (ih fun l hl => h l (List.mem_cons_of_mem _ hl))

theorem plain_of_encode? {s : RawText} {t : String} (h : s.encode? = some t) :
    IsWhole s ∧ plain s = t.toList := by
  rw [encode?_eq_some_iff.1 h]
  exact ⟨isWhole_ofString t, plain_ofString t⟩

end RawText

end SlideFlow.Text

namespace SlideFlow.Json

open SlideFlow.Number SlideFlow.Text SlideFlow.Text.RawText

/-! ## White space -/

theorem skipSpace_cons_of_not {c : Char} (h : isSpace c = false) (cs : List Char) :
    skipSpace (c :: cs) = c :: cs := by
  simp [skipSpace, h]

theorem plain_lineBreak (depth : Nat) :
    plain (lineBreak depth) = '\n' :: List.replicate (2 * depth) ' ' := by
  have hspaces : plain (List.replicate (2 * depth) (Letter.char ' ')) =
      List.replicate (2 * depth) ' ' := by
    rw [← List.map_replicate, plain_chars]
  rw [lineBreak, plain_append, hspaces]
  rfl

theorem skipSpace_lineBreak (depth : Nat) (cs : List Char) :
    skipSpace (plain (lineBreak depth) ++ cs) = skipSpace cs := by
  rw [plain_lineBreak]
  have hspaces : ∀ k, skipSpace (List.replicate k ' ' ++ cs) = skipSpace cs := by
    intro k
    induction k with
    | zero => rfl
    | succ k ih => exact ih
  exact hspaces (2 * depth)

/-! ## Strings -/

theorem codeUnit?_hexPadded {n : Nat} (h : n < 32) {more : List Char} (hmore : more ≠ []) :
    codeUnit? (hexPadded 4 n ++ more) = some (n, more) := by
  have hdigits : ∀ n < 32, hexPadded 4 n =
      ['0', '0', Nat.digitChar (n / 16), Nat.digitChar (n % 16)] := by decide
  have hvalue : ∀ d < 16, hexValue? (Nat.digitChar d) = some d := by decide
  obtain ⟨c, cs, rfl⟩ := List.exists_cons_of_ne_nil hmore
  have hzero : hexValue? '0' = some 0 := rfl
  rw [hdigits n h]
  simp only [List.cons_append, List.nil_append, codeUnit?, hzero, hvalue _ (by omega : n / 16 < 16),
    hvalue _ (by omega : n % 16 < 16), Option.bind_eq_bind, Option.bind_some]
  congr 2
  omega

/-- A control character is no half of a pair, so nothing behind its escape is taken along. -/
theorem unicodeEscape?_control {c : Char} (h : c.toNat < 32) {more : List Char} (hmore : more ≠ []) :
    unicodeEscape? (hexPadded 4 c.toNat ++ more) = some (.char c, more) := by
  have hhigh : isHighSurrogate c.toNat = false := by
    simp only [isHighSurrogate, Bool.and_eq_false_imp, decide_eq_true_eq, decide_eq_false_iff_not]
    omega
  have hchar : unitLetter c.toNat = .char c := by
    unfold unitLetter
    rw [dif_neg (by omega), Char.ofNat_toNat]
  unfold unicodeEscape?
  rw [codeUnit?_hexPadded h hmore]
  simp only [Option.bind_eq_bind, Option.bind_some, hchar, hhigh, Bool.false_and,
    Bool.false_eq_true, if_false]
  split
  · split <;> rfl
  · rfl

/-- How a character is written: as it is, by a letter, or by its number. -/
inductive Escape (c : Char) : List Char → Prop
  | plain (hquote : c ≠ '"') (hback : c ≠ '\\') (hshown : 32 ≤ c.toNat) : Escape c [c]
  | letter {l : Char} (hu : l ≠ 'u') (hl : plainEscape? l = some c) (hshown : 32 ≤ l.toNat) :
    Escape c ['\\', l]
  | number (hcontrol : c.toNat < 32) : Escape c ('\\' :: 'u' :: hexPadded 4 c.toNat)

theorem escape_escaped (c : Char) : Escape c (escaped c) := by
  unfold escaped
  split_ifs with hquote hback hfeed hreturn htab hbackspace hform hcontrol
  · subst hquote; exact .letter (by decide) rfl (by decide)
  · subst hback; exact .letter (by decide) rfl (by decide)
  · subst hfeed; exact .letter (by decide) rfl (by decide)
  · subst hreturn; exact .letter (by decide) rfl (by decide)
  · subst htab; exact .letter (by decide) rfl (by decide)
  · subst hbackspace; exact .letter (by decide) rfl (by decide)
  · subst hform; exact .letter (by decide) rfl (by decide)
  · exact .number hcontrol
  · exact .plain hquote hback (Nat.not_lt.1 hcontrol)

/-- What stands for a character is read as that character. -/
theorem readString_escaped (opened : List Char) (fuel : Nat) (acc : RawText) (c : Char)
    {more : List Char} (hmore : more ≠ []) :
    readString opened (fuel + 1) acc (escaped c ++ more) =
      readString opened fuel (.char c :: acc) more := by
  have hwritten := escape_escaped c
  generalize escaped c = written at hwritten
  cases hwritten with
  | plain hquote hback hshown =>
    simp [readString, hquote, hback, Nat.not_lt.2 hshown]
  | letter hu hl =>
    -- the letter is not the one that announces a number
    simp [readString, hl]
  | number hcontrol =>
    have hescape := unicodeEscape?_control hcontrol hmore
    simp [readString, hescape]

theorem readString_chars (opened : List Char) (rest : List Char) :
    ∀ (cs : List Char) (fuel : Nat) (acc : RawText), cs.length < fuel →
      readString opened fuel acc (cs.flatMap escaped ++ '"' :: rest) =
        .ok (acc.reverse ++ cs.map .char, rest)
  | cs, 0, acc, h => absurd h (Nat.not_lt_zero _)
  | [], fuel + 1, acc, _ => by simp [readString]
  | c :: cs, fuel + 1, acc, h => by
    rw [List.flatMap_cons, List.append_assoc, readString_escaped _ _ _ _ (by simp),
      readString_chars opened rest cs fuel (.char c :: acc) (by simpa using h)]
    simp

/-- The characters of a text between quotes, each as it is written. -/
theorem plain_rawLiteral (s : RawText) :
    plain (rawLiteral s) = '"' :: ((plain s).flatMap escaped ++ ['"']) := by
  have hletters : plain (s.flatMap escapedLetter) = (plain s).flatMap escaped := by
    induction s with
    | nil => rfl
    | cons l s ih =>
      rw [List.flatMap_cons, plain_append, ih]
      cases l with
      | char c =>
        rw [escapedLetter, plain_chars]
        rfl
      | half h => rfl
  simp [rawLiteral, hletters]

/-- A text between quotes is whole if the text is. -/
theorem isWhole_of_rawLiteral {s : RawText} (h : IsWhole (rawLiteral s)) : IsWhole s := by
  intro l hl
  cases l with
  | char c => exact ⟨c, rfl⟩
  | half half =>
    have hmem : Letter.half half ∈ s.flatMap escapedLetter :=
      List.mem_flatMap.2 ⟨_, hl, List.mem_singleton.2 rfl⟩
    exact h _ (List.mem_append_left _ (List.mem_append_right _ hmem))

/-- A whole text is read back from its literal. -/
theorem readString_rawLiteral (opened rest : List Char) {s : RawText} (hs : IsWhole (rawLiteral s))
    {fuel : Nat} (hfuel : (plain s).length < fuel) :
    readString opened fuel [] ((plain s).flatMap escaped ++ '"' :: rest) = .ok (s, rest) := by
  rw [readString_chars opened rest (plain s) fuel [] hfuel, (isWhole_of_rawLiteral hs).map_plain]
  rfl

/-! ## Numbers -/

/-- What follows a value and cannot be taken for more of a number. -/
def Stops (rest : List Char) : Prop :=
  ∀ c, rest.head? = some c → c.isDigit = false ∧ c ≠ '.' ∧ c ≠ 'e' ∧ c ≠ 'E'

theorem stops_cons {c : Char} (h : c.isDigit = false ∧ c ≠ '.' ∧ c ≠ 'e' ∧ c ≠ 'E')
    (rest : List Char) : Stops (c :: rest) := by
  rintro d hd
  cases hd
  exact h

theorem isDigit_of_mem_toDigits (n : Nat) : ∀ c ∈ Nat.toDigits 10 n, c.isDigit = true := by
  have hdigit : ∀ d < 10, (Nat.digitChar d).isDigit = true := by decide
  intro c hc
  obtain ⟨d, hd, rfl⟩ := exists_digitChar_of_mem_toDigits (by decide : 1 < 10) n c hc
  exact hdigit d hd

/-- The digits of a positive number start with another one than zero. -/
theorem head?_toDigits_ne_zero {n : Nat} (h : 0 < n) : (Nat.toDigits 10 n).head? ≠ some '0' := by
  induction n using Nat.strongRecOn with
  | ind n ih =>
    rw [Nat.toDigits_eq_if (by decide)]
    split
    · intro hzero
      have := Nat.digitChar_eq_zero.1 (Option.some.inj hzero)
      omega
    · have hdiv := ih (n / 10) (by omega) (by omega)
      rw [List.head?_append]
      cases hds : Nat.toDigits 10 (n / 10) with
      | nil => exact absurd hds Nat.toDigits_ne_nil
      | cons d ds =>
        rw [hds] at hdiv
        exact hdiv

theorem digits_append {ds rest : List Char} (hds : ∀ c ∈ ds, c.isDigit = true) (hrest : Stops rest) :
    digits (ds ++ rest) = (ds, rest) :=
  span_append hds fun c hc => (hrest c hc).1

theorem wholePart?_toDigits (n : Nat) {rest : List Char} (hrest : Stops rest) :
    wholePart? (Nat.toDigits 10 n ++ rest) = some (Nat.toDigits 10 n, rest) := by
  rcases Nat.eq_zero_or_pos n with rfl | hpos
  · rfl
  · have hdigits := digits_append (isDigit_of_mem_toDigits n) hrest
    have hzero := head?_toDigits_ne_zero hpos
    have hisDigit := isDigit_of_mem_toDigits n
    cases hds : Nat.toDigits 10 n with
    | nil => exact absurd hds Nat.toDigits_ne_nil
    | cons d ds =>
      rw [hds] at hdigits hzero hisDigit
      have hd : d ≠ '0' := fun h => hzero (congrArg some h)
      have hdigit := hisDigit d (List.mem_cons_self ..)
      unfold wholePart?
      split
      · rename_i heq
        cases heq
        exact absurd rfl hd
      · rename_i heq
        cases heq
        rw [if_pos hdigit]
        exact congrArg some hdigits
      · rename_i heq
        cases heq

theorem fraction_of_stops {rest : List Char} (h : Stops rest) : fraction rest = ([], rest) := by
  unfold fraction
  split
  · exact absurd rfl (h '.' rfl).2.1
  · rfl

theorem exponent?_of_stops {rest : List Char} (h : Stops rest) : exponent? rest = none := by
  cases rest with
  | nil => rfl
  | cons c cs =>
    obtain ⟨-, -, he, hE⟩ := h c rfl
    simp [exponent?, he, hE]

theorem exists_toDigits (n : Nat) : ∃ d ds, Nat.toDigits 10 n = d :: ds ∧ d.isDigit = true := by
  have hdigit := isDigit_of_mem_toDigits n
  cases hds : Nat.toDigits 10 n with
  | nil => exact absurd hds Nat.toDigits_ne_nil
  | cons d ds => exact ⟨d, ds, rfl, hdigit d (hds ▸ List.mem_cons_self ..)⟩

/-- The digits of a number are read as that number, if they are not too many. -/
theorem readNumber_intChars {n : Int} (hn : Readable n) {rest : List Char} (hrest : Stops rest) :
    readNumber (intChars n ++ rest) = .ok (.int n, rest) := by
  have hwhole := wholePart?_toDigits n.natAbs hrest
  have hlength : ¬ (Nat.toDigits 10 n.natAbs).length > maxDigits := Nat.not_lt.2 hn
  have hvalue := decimalValue_toDigits n.natAbs
  unfold intChars readNumber
  split_ifs with hneg
  · simp only [List.cons_append, hwhole, fraction_of_stops hrest, exponent?_of_stops hrest,
      List.isEmpty_nil, Option.isNone_none, Bool.and_self, if_true, hlength, if_false, hvalue]
    congr 3
    omega
  · split
    rename_i negative body hsign
    split at hsign
    · -- a digit is no sign
      rename_i heq
      obtain ⟨d, ds, hds, hd⟩ := exists_toDigits n.natAbs
      rw [hds] at heq
      cases heq
      cases hd
    · cases hsign
      simp only [hwhole, fraction_of_stops hrest, exponent?_of_stops hrest,
        List.isEmpty_nil, Option.isNone_none, Bool.and_self, if_true, hlength, if_false, hvalue,
        Bool.false_eq_true]
      congr 3
      omega

/-- Nothing that stands for a value in words starts with a digit. -/
theorem readScalar_intChars {n : Int} (hn : Readable n) {rest : List Char} (hrest : Stops rest) :
    readScalar (intChars n ++ rest) = .ok (.int n, rest) := by
  have hwords : ∀ p ∈ words, ¬ p.1.isPrefixOf (intChars n ++ rest) = true := by
    obtain ⟨d, ds, hds, hd⟩ := exists_toDigits n.natAbs
    have hne : ∀ c : Char, c.isDigit = false → c ≠ d := by
      rintro c hc rfl
      rw [hc] at hd
      cases hd
    unfold intChars
    rw [hds]
    split_ifs
    · simp [words, hne]
    · simp [words, hne]
  unfold readScalar
  split
  · rename_i w v hfind
    exact absurd (List.find?_some hfind) (hwords (w, v) (List.mem_of_find?_eq_some hfind))
  · exact readNumber_intChars hn hrest

/-! ## The first character of a value -/

/-- A text that starts like a value: not with white space, a closing bracket or a byte order mark. -/
def Opens (cs : List Char) : Prop :=
  ∃ c rest, cs = c :: rest ∧ isSpace c = false ∧ c ≠ ']' ∧ c ≠ '\x7d' ∧ c ≠ '\ufeff'

theorem skipSpace_of_opens {cs : List Char} (h : Opens cs) (more : List Char) :
    skipSpace (cs ++ more) = cs ++ more := by
  obtain ⟨c, rest, rfl, hspace, -⟩ := h
  exact skipSpace_cons_of_not hspace _

theorem opens_rawLiteral (s : RawText) : Opens (plain (rawLiteral s)) :=
  ⟨'"', _, plain_rawLiteral s, by decide⟩

theorem opens_intChars (n : Int) : Opens (intChars n) := by
  obtain ⟨d, ds, hds, hd⟩ := exists_toDigits n.natAbs
  have hne : ∀ c : Char, c.isDigit = false → d ≠ c := by
    rintro c hc rfl
    rw [hc] at hd
    cases hd
  have hspace : isSpace d = false := by
    simp [isSpace, hne]
  unfold intChars
  split_ifs
  · exact ⟨'-', _, rfl, by decide⟩
  · exact ⟨d, ds, hds, hspace, hne _ (by decide), hne _ (by decide), hne _ (by decide)⟩

theorem plain_indented_int (depth : Nat) (n : Int) : plain (indented depth (.int n)) = intChars n :=
  plain_chars (intChars n)

theorem opens_indented {v : Json} (h : Faithful v) (depth : Nat) :
    Opens (plain (indented depth v)) := by
  cases h with
  | null => exact ⟨'n', _, rfl, by decide⟩
  | bool b =>
    cases b with
    | true => exact ⟨'t', _, rfl, by decide⟩
    | false => exact ⟨'f', _, rfl, by decide⟩
  | @int n h =>
    rw [plain_indented_int]
    exact opens_intChars n
  | float h => exact h.elim
  | str s => exact opens_rawLiteral s
  | @arr items h =>
    cases items with
    | nil => exact ⟨'[', _, rfl, by decide⟩
    | cons w items => exact ⟨'[', _, rfl, by decide⟩
  | @obj members hkeys h =>
    cases members with
    | nil => exact ⟨'\x7b', _, rfl, by decide⟩
    | cons m members => exact ⟨'\x7b', _, rfl, by decide⟩

theorem length_pos_of_opens {cs : List Char} (h : Opens cs) : 0 < cs.length := by
  obtain ⟨c, rest, rfl, -⟩ := h
  exact Nat.succ_pos _

/-! ## The text between two items -/

/-- What follows an item: the end of the array, or a comma and the other items. -/
def itemsTail (depth : Nat) : List Json → RawText
  | [] => lineBreak depth ++ "]"
  | v :: items => "," ++ indentedItems depth (v :: items)

/-- What follows a member. -/
def membersTail (depth : Nat) : List (RawText × Json) → RawText
  | [] => lineBreak depth ++ "\x7d"
  | m :: members => "," ++ indentedMembers depth (m :: members)

theorem indentedItems_cons (depth : Nat) (v : Json) (items : List Json) :
    indentedItems depth (v :: items) =
      lineBreak (depth + 1) ++ (indented (depth + 1) v ++ itemsTail depth items) := by
  cases items with
  | nil => simp [indentedItems, itemsTail]
  | cons w items => simp [indentedItems, itemsTail]

theorem indentedMembers_cons (depth : Nat) (k : RawText) (v : Json)
    (members : List (RawText × Json)) :
    indentedMembers depth ((k, v) :: members) = lineBreak (depth + 1) ++
      (rawLiteral k ++ (": " ++ (indented (depth + 1) v ++ membersTail depth members))) := by
  cases members with
  | nil => simp [indentedMembers, membersTail]
  | cons m members => simp [indentedMembers, membersTail]

theorem stops_itemsTail (depth : Nat) (items : List Json) (rest : List Char) :
    Stops (plain (itemsTail depth items) ++ rest) := by
  cases items with
  | nil =>
    rw [itemsTail, plain_append, plain_lineBreak]
    exact stops_cons (by decide) _
  | cons v items =>
    rw [itemsTail, plain_append]
    exact stops_cons (c := ',') (by decide) _

theorem stops_membersTail (depth : Nat) (members : List (RawText × Json)) (rest : List Char) :
    Stops (plain (membersTail depth members) ++ rest) := by
  cases members with
  | nil =>
    rw [membersTail, plain_append, plain_lineBreak]
    exact stops_cons (by decide) _
  | cons m members =>
    rw [membersTail, plain_append]
    exact stops_cons (c := ',') (by decide) _

theorem skipSpace_indentedItems {v : Json} (hv : Faithful v) (depth : Nat) (items : List Json)
    (rest : List Char) : skipSpace (plain (indentedItems depth (v :: items)) ++ rest) =
      plain (indented (depth + 1) v) ++ (plain (itemsTail depth items) ++ rest) := by
  rw [indentedItems_cons, plain_append, List.append_assoc, skipSpace_lineBreak, plain_append,
    List.append_assoc, skipSpace_of_opens (opens_indented hv _)]

theorem skipSpace_indentedMembers (depth : Nat) (k : RawText) (v : Json)
    (members : List (RawText × Json)) (rest : List Char) :
    skipSpace (plain (indentedMembers depth ((k, v) :: members)) ++ rest) =
      '"' :: ((plain k).flatMap escaped ++ '"' :: ':' :: ' ' ::
        (plain (indented (depth + 1) v) ++ (plain (membersTail depth members) ++ rest))) := by
  rw [indentedMembers_cons, plain_append, List.append_assoc, skipSpace_lineBreak, plain_append,
    List.append_assoc, skipSpace_of_opens (opens_rawLiteral k), plain_rawLiteral]
  simp

theorem length_lineBreak (depth : Nat) : (plain (lineBreak depth)).length = 2 * depth + 1 := by
  simp [plain_lineBreak]

theorem length_le_flatMap_escaped (cs : List Char) : cs.length ≤ (cs.flatMap escaped).length := by
  apply length_le_length_flatMap
  intro c _
  have hwritten := escape_escaped c
  generalize escaped c = written at hwritten
  cases hwritten <;> exact nofun

theorem length_lt_rawLiteral (s : RawText) : (plain s).length + 1 < (plain (rawLiteral s)).length := by
  have hescaped := length_le_flatMap_escaped (plain s)
  rw [plain_rawLiteral, List.length_cons, List.length_append, List.length_singleton]
  omega

/-! ## Values

The steps that are left pay for the text that is left, so the induction is on them: what holds of the
parts of a value with some steps holds of the value with one more. -/

theorem readValue_str (fuel : Nat) {s : RawText} (hs : IsWhole (rawLiteral s))
    (h : (plain (rawLiteral s)).length ≤ fuel + 1) (rest : List Char) :
    readValue (fuel + 1) (plain (rawLiteral s) ++ rest) = .ok (.str s, rest) := by
  have hlength := length_lt_rawLiteral s
  have hread := readString_rawLiteral (plain (rawLiteral s) ++ rest) rest hs
    (by omega : (plain s).length < fuel + 1)
  rw [plain_rawLiteral] at hread ⊢
  simp only [List.cons_append, List.append_assoc, List.nil_append] at hread ⊢
  rw [readValue, hread]

theorem readValue_arr {fuel : Nat} {rest : List Char} (h : (skipSpace rest).head? ≠ some ']') :
    readValue (fuel + 1) ('[' :: rest) = readItems fuel [] (skipSpace rest) := by
  rw [readValue]
  split
  · rename_i heq
    rw [heq] at h
    exact absurd rfl h
  · rfl

theorem readValue_obj {fuel : Nat} {rest : List Char} (h : (skipSpace rest).head? ≠ some '\x7d') :
    readValue (fuel + 1) ('\x7b' :: rest) = readMembers fuel [] (skipSpace rest) := by
  rw [readValue]
  split
  · rename_i heq
    rw [heq] at h
    exact absurd rfl h
  · rfl

theorem readValue_scalar {fuel : Nat} {c : Char} (h : c ≠ '"' ∧ c ≠ '[' ∧ c ≠ '\x7b')
    (cs : List Char) : readValue (fuel + 1) (c :: cs) = readScalar (c :: cs) := by
  obtain ⟨hquote, hbracket, hbrace⟩ := h
  rw [readValue]
  · rintro rest heq
    exact hquote (List.head_eq_of_cons_eq heq)
  · rintro rest heq
    exact hbracket (List.head_eq_of_cons_eq heq)
  · rintro rest heq
    exact hbrace (List.head_eq_of_cons_eq heq)

theorem readValue_int (fuel : Nat) {n : Int} (hn : Readable n) {rest : List Char}
    (hrest : Stops rest) : readValue (fuel + 1) (intChars n ++ rest) = .ok (.int n, rest) := by
  rw [← readScalar_intChars hn hrest]
  obtain ⟨d, ds, hds, hd⟩ := exists_toDigits n.natAbs
  unfold intChars
  rw [hds]
  split_ifs
  · exact readValue_scalar (by decide) _
  · refine readValue_scalar ⟨?_, ?_, ?_⟩ _
    all_goals
      rintro rfl
      cases hd

/-- Everything that takes so many characters, and no half, is read back in so many steps. -/
structure ReadsBack (fuel : Nat) : Prop where
  value : ∀ (depth : Nat) {v : Json} {rest : List Char}, Faithful v → IsWhole (indented depth v) →
    Stops rest → (plain (indented depth v)).length ≤ fuel →
      readValue fuel (plain (indented depth v) ++ rest) = .ok (v, rest)
  items : ∀ (depth : Nat) {v : Json} {items : List Json} (acc : List Json) (rest : List Char),
    (∀ w ∈ v :: items, Faithful w) → IsWhole (indentedItems depth (v :: items)) →
      (plain (indentedItems depth (v :: items))).length ≤ fuel →
      readItems fuel acc (skipSpace (plain (indentedItems depth (v :: items)) ++ rest)) =
        .ok (.arr (acc.reverse ++ v :: items), rest)
  members : ∀ (depth : Nat) {m : RawText × Json} {members : List (RawText × Json)}
    (acc : List (RawText × Json)) (rest : List Char),
    (Ordered.keys (acc.reverse ++ m :: members)).Nodup → (∀ p ∈ m :: members, Faithful p.2) →
      IsWhole (indentedMembers depth (m :: members)) →
      (plain (indentedMembers depth (m :: members))).length ≤ fuel →
      readMembers fuel acc (skipSpace (plain (indentedMembers depth (m :: members)) ++ rest)) =
        .ok (.obj (acc.reverse ++ m :: members), rest)

theorem readsBack_zero : ReadsBack 0 where
  value depth v rest hv _ _ hlength := by
    have := length_pos_of_opens (opens_indented hv depth)
    omega
  items depth v items acc rest _ _ hlength := by
    rw [indentedItems_cons, plain_append, List.length_append, length_lineBreak] at hlength
    omega
  members depth m members acc rest _ _ _ hlength := by
    rw [indentedMembers_cons, plain_append, List.length_append, length_lineBreak] at hlength
    omega

theorem ReadsBack.value_succ {fuel : Nat} (h : ReadsBack fuel) (depth : Nat) {v : Json}
    {rest : List Char} (hv : Faithful v) (hwhole : IsWhole (indented depth v)) (hrest : Stops rest)
    (hlength : (plain (indented depth v)).length ≤ fuel + 1) :
    readValue (fuel + 1) (plain (indented depth v) ++ rest) = .ok (v, rest) := by
  cases hv with
  | null => rfl
  | bool b => cases b <;> rfl
  | @int n hn =>
    rw [plain_indented_int]
    exact readValue_int fuel hn hrest
  | float h => exact h.elim
  | str s => exact readValue_str fuel hwhole hlength rest
  | @arr items hitems =>
    cases items with
    | nil => rfl
    | cons w items =>
      have hw := hitems w (List.mem_cons_self ..)
      have htext : plain (indented depth (.arr (w :: items))) =
          '[' :: plain (indentedItems depth (w :: items)) := by simp [indented]
      rw [htext, List.length_cons] at hlength
      rw [indented, isWhole_append] at hwhole
      rw [htext, List.cons_append, readValue_arr]
      · exact h.items depth [] rest hitems hwhole.2 (Nat.le_of_succ_le_succ hlength)
      · obtain ⟨c, cs, heq, -, hbracket, -⟩ := opens_indented hw (depth + 1)
        rw [skipSpace_indentedItems hw, heq]
        exact fun hc => hbracket (Option.some.inj hc)
  | @obj members hkeys hmembers =>
    cases members with
    | nil => rfl
    | cons m members =>
      have htext : plain (indented depth (.obj (m :: members))) =
          '\x7b' :: plain (indentedMembers depth (m :: members)) := by simp [indented]
      rw [htext, List.length_cons] at hlength
      rw [indented, isWhole_append] at hwhole
      rw [htext, List.cons_append, readValue_obj]
      · exact h.members depth [] rest hkeys hmembers hwhole.2 (Nat.le_of_succ_le_succ hlength)
      · rw [skipSpace_indentedMembers depth m.1 m.2]
        exact nofun

theorem ReadsBack.items_succ {fuel : Nat} (h : ReadsBack fuel) (depth : Nat) {v : Json}
    {items : List Json} (acc : List Json) (rest : List Char) (hitems : ∀ w ∈ v :: items, Faithful w)
    (hwhole : IsWhole (indentedItems depth (v :: items)))
    (hlength : (plain (indentedItems depth (v :: items))).length ≤ fuel + 1) :
    readItems (fuel + 1) acc (skipSpace (plain (indentedItems depth (v :: items)) ++ rest)) =
      .ok (.arr (acc.reverse ++ v :: items), rest) := by
  have hv := hitems v (List.mem_cons_self ..)
  rw [indentedItems_cons, isWhole_append, isWhole_append] at hwhole
  obtain ⟨-, hwholeValue, hwholeTail⟩ := hwhole
  simp only [indentedItems_cons, plain_append, List.length_append, length_lineBreak] at hlength
  have hvalue := h.value (depth + 1) hv hwholeValue (stops_itemsTail depth items rest) (by omega)
  rw [skipSpace_indentedItems hv, readItems, hvalue]
  cases items with
  | nil =>
    have hend : skipSpace (plain (itemsTail depth []) ++ rest) = ']' :: rest := by
      rw [itemsTail, plain_append, List.append_assoc, skipSpace_lineBreak]
      rfl
    simp [hend]
  | cons w items =>
    rw [itemsTail, isWhole_append] at hwholeTail
    have htail : plain (itemsTail depth (w :: items)) =
        ',' :: plain (indentedItems depth (w :: items)) := by simp [itemsTail]
    rw [htail, List.length_cons] at hlength
    have hmore := h.items depth (v :: acc) rest (fun u hu => hitems u (List.mem_cons_of_mem _ hu))
      hwholeTail.2 (by omega)
    have hcomma : skipSpace (plain (itemsTail depth (w :: items)) ++ rest) =
        ',' :: (plain (indentedItems depth (w :: items)) ++ rest) := by
      rw [htail]
      rfl
    simp only [hcomma, hmore]
    simp

theorem ReadsBack.members_succ {fuel : Nat} (h : ReadsBack fuel) (depth : Nat) {m : RawText × Json}
    {members : List (RawText × Json)} (acc : List (RawText × Json)) (rest : List Char)
    (hkeys : (Ordered.keys (acc.reverse ++ m :: members)).Nodup)
    (hmembers : ∀ p ∈ m :: members, Faithful p.2)
    (hwhole : IsWhole (indentedMembers depth (m :: members)))
    (hlength : (plain (indentedMembers depth (m :: members))).length ≤ fuel + 1) :
    readMembers (fuel + 1) acc (skipSpace (plain (indentedMembers depth (m :: members)) ++ rest)) =
      .ok (.obj (acc.reverse ++ m :: members), rest) := by
  obtain ⟨k, v⟩ := m
  have hv : Faithful v := hmembers (k, v) (List.mem_cons_self ..)
  simp only [indentedMembers_cons, isWhole_append] at hwhole
  obtain ⟨-, hwholeName, -, hwholeValue, hwholeTail⟩ := hwhole
  simp only [indentedMembers_cons, plain_append, List.length_append, length_lineBreak] at hlength
  have hliteral := length_lt_rawLiteral k
  have hname := readString_rawLiteral
    (skipSpace (plain (indentedMembers depth ((k, v) :: members)) ++ rest))
    (':' :: ' ' :: (plain (indented (depth + 1) v) ++ (plain (membersTail depth members) ++ rest)))
    hwholeName (by omega : (plain k).length < fuel + 1)
  have hvalue := h.value (depth + 1) hv hwholeValue (stops_membersTail depth members rest) (by omega)
  have hspace : skipSpace (' ' :: (plain (indented (depth + 1) v) ++
      (plain (membersTail depth members) ++ rest))) =
        plain (indented (depth + 1) v) ++ (plain (membersTail depth members) ++ rest) := by
    show skipSpace (plain (indented (depth + 1) v) ++ _) = _
    exact skipSpace_of_opens (opens_indented hv _) _
  rw [skipSpace_indentedMembers] at hname ⊢
  rw [readMembers, hname]
  simp only [skipSpace_cons_of_not (by decide : isSpace ':' = false), hspace, hvalue]
  cases members with
  | nil =>
    have hend : skipSpace (plain (membersTail depth []) ++ rest) = '\x7d' :: rest := by
      rw [membersTail, plain_append, List.append_assoc, skipSpace_lineBreak]
      rfl
    have hself : Ordered.ofList ((k, v) :: acc).reverse = ((k, v) :: acc).reverse := by
      refine Ordered.ofList_eq_self ?_
      simpa using hkeys
    simp only [hend, hself]
    simp
  | cons m members =>
    rw [membersTail, isWhole_append] at hwholeTail
    have htail : plain (membersTail depth (m :: members)) =
        ',' :: plain (indentedMembers depth (m :: members)) := by simp [membersTail]
    rw [htail, List.length_cons] at hlength
    have hmore := h.members depth ((k, v) :: acc) rest (by simpa using hkeys)
      (fun p hp => hmembers p (List.mem_cons_of_mem _ hp)) hwholeTail.2 (by omega)
    have hcomma : skipSpace (plain (membersTail depth (m :: members)) ++ rest) =
        ',' :: (plain (indentedMembers depth (m :: members)) ++ rest) := by
      rw [htail]
      rfl
    simp only [hcomma, hmore]
    simp

theorem readsBack (fuel : Nat) : ReadsBack fuel := by
  induction fuel with
  | zero => exact readsBack_zero
  | succ fuel ih => exact ⟨ih.value_succ, ih.items_succ, ih.members_succ⟩

/-! ## Whole texts -/

/-- A value on a page is read back, also with white space behind it. -/
theorem readChars_page {v : Json} (h : Faithful v) (hwhole : IsWhole v.page) {rest : List Char}
    (hrest : ∀ c ∈ rest, isSpace c = true) : readChars (plain v.page ++ rest) = .ok v := by
  have hopens : Opens (plain v.page) := opens_indented h 0
  have hstops : Stops rest := by
    rintro c hc
    have hspace := hrest c (List.mem_of_head? hc)
    simp only [isSpace, Bool.or_eq_true, beq_iff_eq] at hspace
    rcases hspace with ((rfl | rfl) | rfl) | rfl <;> decide
  have hvalue : readValue (2 * (plain v.page ++ rest).length + 1) (plain v.page ++ rest) =
      .ok (v, rest) := by
    refine (readsBack _).value 0 h hwhole hstops ?_
    show (plain v.page).length ≤ _
    rw [List.length_append]
    omega
  have hend : skipSpace rest = [] := List.dropWhile_eq_nil_iff.2 hrest
  unfold readChars
  split
  · obtain ⟨c, cs, hcs, -, -, -, hmark⟩ := hopens
    rename_i heq
    rw [hcs] at heq
    exact absurd (List.head_eq_of_cons_eq heq) hmark
  · rw [skipSpace_of_opens hopens, hvalue]
    simp only [hend]

/-- A page that can be encoded is read back. -/
theorem read_page {v : Json} (h : Faithful v) {s : String}
    (hs : (v.page ++ "\n").encode? = some s) : read s = .ok v := by
  obtain ⟨hwhole, hplain⟩ := plain_of_encode? hs
  rw [isWhole_append] at hwhole
  rw [read, ← hplain, plain_append, plain_ofString]
  exact readChars_page h hwhole.1 (List.all_eq_true.1 (by decide))

/-! ## Characters -/

/-- A line feed, or no control character at all. -/
def Shown (c : Char) : Prop := c = '\n' ∨ 32 ≤ c.toNat

instance (c : Char) : Decidable (Shown c) :=
  inferInstanceAs (Decidable (c = '\n' ∨ 32 ≤ c.toNat))

theorem shown_of_all {cs : List Char} (h : cs.all (fun c => decide (Shown c)) = true) :
    ∀ c ∈ cs, Shown c :=
  fun c hc => of_decide_eq_true (List.all_eq_true.1 h c hc)

/-- No control character is left in what stands for a character. -/
theorem le_toNat_of_mem_escaped {d c : Char} (h : c ∈ escaped d) : 32 ≤ c.toNat := by
  have hwritten := escape_escaped d
  generalize escaped d = written at h hwritten
  cases hwritten with
  | plain _ _ hshown =>
    rw [List.mem_singleton.1 h]
    exact hshown
  | letter _ _ hshown =>
    simp only [List.mem_cons, List.not_mem_nil, or_false] at h
    rcases h with rfl | rfl
    · decide
    · exact hshown
  | number _ =>
    simp only [List.mem_cons] at h
    rcases h with rfl | rfl | h
    · decide
    · decide
    · have := toNat_of_isLowerHex (isLowerHex_of_mem_hexPadded h)
      omega

theorem le_toNat_of_mem_rawLiteral {s : RawText} {c : Char} (h : c ∈ plain (rawLiteral s)) :
    32 ≤ c.toNat := by
  rw [plain_rawLiteral, List.mem_cons, List.mem_append, List.mem_flatMap, List.mem_singleton] at h
  rcases h with rfl | ⟨d, -, hd⟩ | rfl
  · decide
  · exact le_toNat_of_mem_escaped hd
  · decide

theorem shown_of_mem_lineBreak {depth : Nat} {c : Char} (h : c ∈ plain (lineBreak depth)) :
    Shown c := by
  rw [plain_lineBreak] at h
  rcases List.mem_cons.1 h with rfl | h
  · exact Or.inl rfl
  · rw [(List.mem_replicate.1 h).2]
    decide

theorem shown_of_mem_intChars {n : Int} {c : Char} (h : c ∈ intChars n) : Shown c := by
  have hdigit : ∀ d ∈ Nat.toDigits 10 n.natAbs, Shown d := by
    intro d hd
    have := isDigit_of_mem_toDigits _ d hd
    simp only [Char.isDigit, Bool.and_eq_true, decide_eq_true_eq] at this
    exact Or.inr (Nat.le_trans (by decide) this.1)
  unfold intChars at h
  split at h
  · rcases List.mem_cons.1 h with rfl | h
    · decide
    · exact hdigit c h
  · exact hdigit c h

/-- Text that is written between the parts of a value. -/
theorem shown_of_mem_ofString {s : String} (h : s.toList.all (fun c => decide (Shown c)) = true)
    {c : Char} (hc : c ∈ plain (ofString s)) : Shown c := by
  rw [plain_ofString] at hc
  exact shown_of_all h c hc

theorem shown_of_mem_itemsTail {depth : Nat} : ∀ {items : List Json},
    (∀ v ∈ items, ∀ depth, ∀ c ∈ plain (indented depth v), Shown c) →
      ∀ c ∈ plain (itemsTail depth items), Shown c
  | [], _, c, hc => by
    rw [itemsTail, plain_append, List.mem_append] at hc
    rcases hc with hc | hc
    · exact shown_of_mem_lineBreak hc
    · exact shown_of_mem_ofString (by decide) hc
  | v :: items, h, c, hc => by
    rw [itemsTail, indentedItems_cons] at hc
    simp only [plain_append, List.mem_append] at hc
    rcases hc with hc | hc | hc | hc
    · exact shown_of_mem_ofString (by decide) hc
    · exact shown_of_mem_lineBreak hc
    · exact h v (List.mem_cons_self ..) _ c hc
    · exact shown_of_mem_itemsTail (fun w hw => h w (List.mem_cons_of_mem _ hw)) c hc

theorem shown_of_mem_membersTail {depth : Nat} : ∀ {members : List (RawText × Json)},
    (∀ m ∈ members, ∀ depth, ∀ c ∈ plain (indented depth m.2), Shown c) →
      ∀ c ∈ plain (membersTail depth members), Shown c
  | [], _, c, hc => by
    rw [membersTail, plain_append, List.mem_append] at hc
    rcases hc with hc | hc
    · exact shown_of_mem_lineBreak hc
    · exact shown_of_mem_ofString (by decide) hc
  | (k, v) :: members, h, c, hc => by
    rw [membersTail, indentedMembers_cons] at hc
    simp only [plain_append, List.mem_append] at hc
    rcases hc with hc | hc | hc | hc | hc | hc
    · exact shown_of_mem_ofString (by decide) hc
    · exact shown_of_mem_lineBreak hc
    · exact Or.inr (le_toNat_of_mem_rawLiteral hc)
    · exact shown_of_mem_ofString (by decide) hc
    · exact h (k, v) (List.mem_cons_self ..) _ c hc
    · exact shown_of_mem_membersTail (fun m hm => h m (List.mem_cons_of_mem _ hm)) c hc

/-- The only control characters on a page are its line feeds. -/
theorem shown_of_mem_indented {v : Json} (h : Faithful v) :
    ∀ depth, ∀ c ∈ plain (indented depth v), Shown c := by
  -- an item or member is shown as one that follows another, without the comma
  induction h with
  | null => exact fun _ => shown_of_all rfl
  | bool b => cases b <;> exact fun _ => shown_of_all rfl
  | @int n h =>
    intro depth c hc
    rw [plain_indented_int] at hc
    exact shown_of_mem_intChars hc
  | float h => exact h.elim
  | str s => exact fun _ c hc => Or.inr (le_toNat_of_mem_rawLiteral hc)
  | @arr items h ih =>
    intro depth c hc
    cases items with
    | nil => exact shown_of_all rfl c hc
    | cons v items =>
      rw [indented, plain_append, List.mem_append] at hc
      rcases hc with hc | hc
      · exact shown_of_mem_ofString (by decide) hc
      · have htail : c ∈ plain (itemsTail depth (v :: items)) := by
          rw [itemsTail, plain_append]
          exact List.mem_append_right _ hc
        exact shown_of_mem_itemsTail ih c htail
  | @obj members hkeys h ih =>
    intro depth c hc
    cases members with
    | nil => exact shown_of_all rfl c hc
    | cons m members =>
      rw [indented, plain_append, List.mem_append] at hc
      rcases hc with hc | hc
      · exact shown_of_mem_ofString (by decide) hc
      · have htail : c ∈ plain (membersTail depth (m :: members)) := by
          rw [membersTail, plain_append]
          exact List.mem_append_right _ hc
        exact shown_of_mem_membersTail ih c htail

end SlideFlow.Json
