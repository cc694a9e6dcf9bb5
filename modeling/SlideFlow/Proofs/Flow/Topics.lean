/-
How topics are spelled in scripts. The script that marks a message and the script of a barrier hold
the same literals, and what is filled into a template is not looked at again. A literal ends at its
first quote that is not escaped and reads back as the topic it stands for; so does the list of a
barrier, also if a topic holds quotes, commas or the signs of a template. Hence no two topics have one
mark, and no two lists of topics one barrier (`topics_spelled_alike`).
-/
import SlideFlow.Flow.Script
import SlideFlow.Proofs.Json.Line
import SlideFlow.Proofs.Json.RoundTrip

namespace SlideFlow.Json

open SlideFlow.Text SlideFlow.Text.RawText

/-! ## Escaped quotes -/

/-- Whether the character behind a text is escaped: a backslash stands in front of it that is not
escaped itself. -/
def escapesNext (before : List Char) : Bool :=
  before.foldl (fun inEscape c => !inEscape && c == '\\') false

theorem escapesNext_append {before : List Char} (h : escapesNext before = false) (cs : List Char) :
    escapesNext (before ++ cs) = escapesNext cs := by
  unfold escapesNext at h ⊢
  rw [List.foldl_append, h]

theorem escapesNext_of_not_mem {cs : List Char} (h : '\\' ∉ cs) : escapesNext cs = false := by
  induction cs with
  | nil => rfl
  | cons c cs ih =>
    rw [List.mem_cons, not_or] at h
    have hone : escapesNext [c] = false := by simp [escapesNext, Ne.symm h.1]
    rw [← List.singleton_append, escapesNext_append hone]
    exact ih h.2

/-- The digits of an escape are neither quotes nor backslashes. -/
theorem not_mem_hexPadded {c : Char} (h : c.toNat < 48 ∨ c = '\\') (n : Nat) :
    c ∉ hexPadded 4 n := by
  intro hmem
  have hlower := isLowerHex_of_mem_hexPadded hmem
  have hbounds := toNat_of_isLowerHex hlower
  rcases h with h | rfl
  · omega
  · cases hlower

/-- What stands for a character leaves the next one as it is. -/
theorem escapesNext_escaped (c : Char) : escapesNext (escaped c) = false := by
  have hwritten := escape_escaped c
  generalize escaped c = written at hwritten
  cases hwritten with
  | plain _ hback _ => simp [escapesNext, hback]
  | letter => simp [escapesNext]
  | number _ =>
    have hletter : escapesNext ['\\', 'u'] = false := rfl
    have hdigits := escapesNext_of_not_mem (not_mem_hexPadded (c := '\\') (Or.inr rfl) c.toNat)
    exact (escapesNext_append hletter _).trans hdigits

theorem escapesNext_flatMap_escaped (cs : List Char) : escapesNext (cs.flatMap escaped) = false := by
  induction cs with
  | nil => rfl
  | cons c cs ih => rw [List.flatMap_cons, escapesNext_append (escapesNext_escaped c), ih]

/-- A quote in what stands for a character is its last character, behind a backslash. -/
theorem escapesNext_of_escaped_eq {c : Char} {before after : List Char}
    (h : escaped c = before ++ '"' :: after) : escapesNext before = true := by
  have hwritten := escape_escaped c
  rw [h] at hwritten
  have hmem : '"' ∈ before ++ '"' :: after := by simp
  generalize hall : before ++ '"' :: after = written at hwritten hmem
  cases hwritten with
  | plain hquote _ _ => exact absurd (List.mem_singleton.1 hmem).symm hquote
  | letter =>
    rcases before with _ | ⟨d, _ | ⟨e, before⟩⟩
    · cases hall
    · cases hall
      rfl
    · simp at hall
  | number _ =>
    simp only [List.mem_cons] at hmem
    rcases hmem with hmem | hmem | hmem
    · cases hmem
    · cases hmem
    · exact absurd hmem (not_mem_hexPadded (Or.inl (by decide)) _)

/-- Every quote between the two ends of a literal is escaped. -/
theorem escapesNext_of_flatMap_eq {cs before after : List Char}
    (h : cs.flatMap escaped = before ++ '"' :: after) : escapesNext before = true := by
  induction cs generalizing before with
  | nil => simp at h
  | cons c cs ih =>
    rw [List.flatMap_cons, List.append_eq_append_iff] at h
    rcases h with ⟨more, rfl, hmore⟩ | ⟨more, hmore, hcs⟩
    · rw [escapesNext_append (escapesNext_escaped c)]
      exact ih hmore
    · -- the quote belongs to the first character, unless what is left of that is empty
      cases more with
      | nil =>
        rw [List.append_nil] at hmore
        have hfirst : escapesNext [] = true := ih (by simpa using hcs.symm)
        cases hfirst
      | cons d more =>
        rw [List.cons_append, List.cons.injEq] at hcs
        rw [← hcs.1] at hmore
        exact escapesNext_of_escaped_eq hmore

/-! ## Reading literals and their lists -/

/-- The literal of a text without halves of characters. -/
def literal (s : String) : List Char := '"' :: s.toList.flatMap escaped ++ ['"']

theorem rawLiteral_ofString (s : String) : rawLiteral (s : RawText) = (literal s).map .char := by
  have hletters : (s : RawText).flatMap escapedLetter = (s.toList.flatMap escaped).map .char := by
    rw [ofString, List.flatMap_map, List.map_flatMap]
    rfl
  rw [rawLiteral, hletters, literal, List.map_append, List.map_cons]
  rfl

theorem plain_literal (s : String) : plain (rawLiteral (s : RawText)) = literal s := by
  rw [rawLiteral_ofString, plain_chars]

theorem isWhole_literal (s : String) : IsWhole (rawLiteral (s : RawText)) := by
  rw [rawLiteral_ofString]
  exact isWhole_chars _

theorem opens_literal (s : String) : Opens (literal s) := plain_literal s ▸ opens_rawLiteral _

theorem length_le_literal (s : String) : 2 ≤ (literal s).length := by
  simp [literal]

theorem read_literal (s : String) : read (String.ofList (literal s)) = .ok (.str s) := by
  have hchars : readChars (plain (rawLiteral (s : RawText)) ++ []) = .ok (.str s) :=
    readChars_page (.str s) (isWhole_literal s) (by simp)
  rw [List.append_nil, plain_literal] at hchars
  rwa [read, String.toList_ofList]

theorem literal_injective : Function.Injective literal := by
  intro s t h
  have hs := read_literal s
  rw [h, read_literal] at hs
  exact (ofString_inj.1 (Json.str.inj (Except.ok.inj hs))).symm

/-- What follows a text in a list of texts. -/
def textsTail : List String → List Char
  | [] => [']']
  | s :: texts => ',' :: ' ' :: (literal s ++ textsTail texts)

/-- A list of texts and its closing bracket. -/
def textsChars : List String → List Char
  | [] => [']']
  | s :: texts => literal s ++ textsTail texts

/-- The value of a text without halves of characters. -/
abbrev ofText (s : String) : Json := .str s

theorem inlineItems_cons (s : String) (texts : List String) :
    inlineItems asText ((s :: texts).map ofText) = (literal s ++ textsTail texts).map .char := by
  have htext : ∀ s, inline asText (ofText s) = (literal s).map .char := rawLiteral_ofString
  induction texts generalizing s with
  | nil =>
    rw [List.map_singleton, inlineItems, htext, List.map_append]
    rfl
  | cons t texts ih =>
    rw [List.map_cons, List.map_cons, inlineItems, ← List.map_cons, ih, htext]
    · simp [textsTail, ofString]
    · exact List.cons_ne_nil _ _

theorem inlineItems_texts (texts : List String) :
    inlineItems asText (texts.map ofText) = (textsChars texts).map .char := by
  cases texts with
  | nil => rfl
  | cons s texts => exact inlineItems_cons s texts

theorem line_text (s : String) : (ofText s).line = String.ofList (literal s) := by
  have htext : inline asText (ofText s) = (literal s).map .char := rawLiteral_ofString s
  rw [line, htext, shown_chars]

theorem line_eq (texts : List String) :
    (Json.arr (texts.map ofText)).line = String.ofList ('[' :: textsChars texts) := by
  rw [line, inline, inlineItems_texts]
  exact shown_chars ('[' :: textsChars texts)

theorem readValue_literal {fuel : Nat} {s : String} (h : (literal s).length ≤ fuel + 1)
    (rest : List Char) : readValue (fuel + 1) (literal s ++ rest) = .ok (ofText s, rest) := by
  rw [← plain_literal] at h ⊢
  exact readValue_str fuel (isWhole_literal s) h rest

theorem readItems_last {fuel : Nat} {s : String} (h : (literal s).length ≤ fuel + 1)
    (acc : List Json) (rest : List Char) : readItems (fuel + 2) acc (literal s ++ ']' :: rest) =
      .ok (.arr (acc.reverse ++ [ofText s]), rest) := by
  rw [readItems, readValue_literal h]
  simp [skipSpace_cons_of_not (by decide : isSpace ']' = false)]

theorem readItems_next {fuel : Nat} {s : String} (h : (literal s).length ≤ fuel + 1)
    (acc : List Json) (rest : List Char) :
    readItems (fuel + 2) acc (literal s ++ ',' :: ' ' :: rest) =
      readItems (fuel + 1) (ofText s :: acc) (skipSpace rest) := by
  have hspace : skipSpace (' ' :: rest) = skipSpace rest := rfl
  rw [readItems, readValue_literal h]
  simp [skipSpace_cons_of_not (by decide : isSpace ',' = false), hspace]

/-- A list of texts is read back item by item. -/
theorem readItems_texts {texts : List String} {s : String} {fuel : Nat}
    (h : (literal s ++ textsTail texts).length ≤ fuel) (acc : List Json) (rest : List Char) :
    readItems fuel acc (literal s ++ textsTail texts ++ rest) =
      .ok (.arr (acc.reverse ++ (s :: texts).map ofText), rest) := by
  have hlength := length_le_literal s
  rw [List.length_append] at h
  obtain ⟨k, rfl⟩ : ∃ k, fuel = k + 2 := ⟨fuel - 2, by omega⟩
  induction texts generalizing s k acc with
  | nil =>
    rw [textsTail, List.length_singleton] at h
    rw [List.append_assoc]
    exact readItems_last (by omega) acc rest
  | cons t texts ih =>
    have ht := length_le_literal t
    rw [textsTail, List.length_cons, List.length_cons, List.length_append] at h
    rw [textsTail, List.append_assoc, List.cons_append, List.cons_append,
      readItems_next (by omega), List.append_assoc, skipSpace_of_opens (opens_literal t),
      ← List.append_assoc]
    obtain ⟨j, rfl⟩ : ∃ j, k = j + 1 := ⟨k - 1, by omega⟩
    rw [ih (ofText s :: acc) ht j (by omega)]
    simp

theorem read_texts (texts : List String) :
    read (Json.arr (texts.map ofText)).line = .ok (.arr (texts.map ofText)) := by
  rw [read, line_eq, String.toList_ofList]
  cases texts with
  | nil => rfl
  | cons s texts =>
    have hopens := skipSpace_of_opens (opens_literal s) (textsTail texts)
    have hsome : (skipSpace (literal s ++ textsTail texts)).head? ≠ some ']' := by
      rw [hopens]
      simp [literal]
    have hvalue : readValue (2 * ('[' :: (literal s ++ textsTail texts)).length + 1)
        ('[' :: (literal s ++ textsTail texts)) = .ok (.arr ((s :: texts).map ofText), []) := by
      have hsteps : (literal s ++ textsTail texts).length ≤
          2 * ('[' :: (literal s ++ textsTail texts)).length := by
        rw [List.length_cons]
        omega
      have hitems := readItems_texts hsteps [] []
      rw [List.append_nil] at hitems
      rw [readValue_arr hsome, hopens]
      exact hitems
    rw [textsChars, readChars, skipSpace_cons_of_not (by decide), hvalue]
    · rfl
    · rintro rest heq
      cases heq

/-- A list of texts on one line: their literals, set apart by commas. -/
theorem line_texts (texts : List String) : (Json.arr (texts.map ofText)).line =
    "[" ++ ", ".intercalate (texts.map fun s => String.ofList (literal s)) ++ "]" := by
  rw [line_arr, List.map_map]
  simp only [Function.comp_def, line_text]

end SlideFlow.Json

namespace SlideFlow.Flow.Script

open SlideFlow.Json

/-! ## Scripts -/

theorem topic_eq (name : String) :
    topic name = "msg.topic = " ++ String.ofList (literal name) ++ ";\nreturn msg;" := by
  rw [← line_text, String.append_assoc]
  rfl

/-- The script of a barrier behind its list of topics. -/
def barrierRest : String := Template.fill (fun _ => "") (joinTemplate.drop 2)

theorem join_eq (topics : List String) :
    join topics = "const topics = " ++ (Json.arr (topics.map ofText)).line ++ barrierRest := by
  rw [String.append_assoc]
  rfl

theorem topic_injective : Function.Injective topic := by
  intro a b h
  rw [topic_eq, topic_eq] at h
  apply literal_injective
  apply String.ofList_injective
  simpa using h

theorem join_injective : Function.Injective join := by
  intro as bs h
  rw [join_eq, join_eq] at h
  have hline : (Json.arr (as.map ofText)).line = (Json.arr (bs.map ofText)).line := by
    simpa using h
  have hread := read_texts as
  rw [hline, read_texts] at hread
  have hstr : Function.Injective ofText := fun s t hst => Text.RawText.ofString_inj.1 (Json.str.inj hst)
  apply List.map_injective_iff.2 hstr
  exact (Json.arr.inj (Except.ok.inj hread)).symm

/-- Marks and barriers spell topics alike, and no two topics or lists of topics alike. The mark of a
topic holds its literal, and a barrier the literals of its topics in order, between fixed texts. A
literal reads back as its topic. It holds no line feed, no carriage return and nothing else below
U+0020, and between its two quotes every quote is escaped. A list of literals reads back as its
topics. -/
theorem topics_spelled_alike :
    (∀ name, topic name = "msg.topic = " ++ String.ofList (literal name) ++ ";\nreturn msg;") ∧
    (∀ topics, join topics = "const topics = " ++
      ("[" ++ ", ".intercalate (topics.map fun name => String.ofList (literal name)) ++ "]") ++
        barrierRest) ∧
    (∀ name, Json.read (String.ofList (literal name)) = .ok (.str name) ∧
      (∀ c ∈ literal name, c ≠ '\n' ∧ c ≠ '\r' ∧ 32 ≤ c.toNat) ∧
      ∃ body, literal name = '"' :: body ++ ['"'] ∧ escapesNext body = false ∧
        ∀ before after, body = before ++ '"' :: after → escapesNext before = true) ∧
    (∀ topics : List String, Json.read
      ("[" ++ ", ".intercalate (topics.map fun name => String.ofList (literal name)) ++ "]") =
        .ok (.arr (topics.map fun (name : String) => .str name))) ∧
    Function.Injective topic ∧ Function.Injective join := by
  refine ⟨topic_eq, fun topics => ?_, fun name => ⟨read_literal name, ?_, ?_⟩, fun topics => ?_,
    topic_injective, join_injective⟩
  · rw [join_eq, line_texts]
  · intro c hc
    rw [← plain_literal] at hc
    have hshown := le_toNat_of_mem_rawLiteral hc
    refine ⟨?_, ?_, hshown⟩
    · rintro rfl
      exact absurd hshown (by decide)
    · rintro rfl
      exact absurd hshown (by decide)
  · exact ⟨name.toList.flatMap escaped, rfl, escapesNext_flatMap_escaped _,
      fun before after => escapesNext_of_flatMap_eq⟩
  · rw [← line_texts, read_texts]

end SlideFlow.Flow.Script
