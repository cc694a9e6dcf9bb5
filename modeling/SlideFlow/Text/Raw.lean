/-
Texts that may hold halves of characters. A character outside of the first plane can be spelled as a
pair of code units. A unit of such a pair that stands alone is no character, but a text that was spelled
unit by unit may hold it all the same. Two texts are equal only if they hold the same halves, and a text
that holds one cannot be encoded.
-/
import SlideFlow.Text.Hex

namespace SlideFlow.Text

/-- A code unit that stands alone and is half of a pair. -/
structure Half where
  unit : Nat
  isHalf : 0xd800 ≤ unit ∧ unit < 0xe000
  deriving DecidableEq, Repr

/-- The escape that shows a half: its four hexadecimal digits. -/
def Half.escape (h : Half) : List Char := '\\' :: 'u' :: hexPadded 4 h.unit

/-- A character, or half of one. -/
inductive Letter where
  | char (c : Char)
  | half (h : Half)
  deriving DecidableEq, Repr

/-- What a report shows of a letter. -/
def Letter.shown : Letter → List Char
  | .char c => [c]
  | .half h => h.escape

/-- A text that may hold halves of characters. -/
abbrev RawText := List Letter

namespace RawText

def ofString (s : String) : RawText := s.toList.map .char

instance : Coe String RawText := ⟨ofString⟩

instance : LawfulBEq RawText := List.instLawfulBEq

/-- The characters of a text that holds no half. -/
def chars? : RawText → Option (List Char)
  | [] => some []
  | .char c :: rest => (chars? rest).map (c :: ·)
  | .half _ :: _ => none

/-- The text, if it can be encoded: it holds no half. -/
def encode? (s : RawText) : Option String := s.chars?.map String.ofList

/-- The text as a report shows it: halves as escapes. -/
def shown (s : RawText) : String := String.ofList (s.flatMap Letter.shown)

theorem chars?_eq_some_iff {s : RawText} {cs : List Char} : s.chars? = some cs ↔ s = cs.map .char := by
  induction s generalizing cs with
  | nil => cases cs <;> simp [chars?]
  | cons l s ih =>
    cases l with
    | char c =>
      rw [chars?, Option.map_eq_some_iff]
      constructor
      · rintro ⟨rest, hrest, rfl⟩
        rw [ih.1 hrest, List.map_cons]
      · intro h
        cases cs with
        | nil => cases h
        | cons d cs =>
          rw [List.map_cons, List.cons.injEq, Letter.char.injEq] at h
          exact ⟨cs, ih.2 h.2, by rw [h.1]⟩
    | half h => cases cs <;> simp [chars?]

/-- What is encoded is the text itself. -/
theorem encode?_eq_some_iff {s : RawText} {t : String} : s.encode? = some t ↔ s = ofString t := by
  rw [encode?, Option.map_eq_some_iff, ofString]
  constructor
  · rintro ⟨cs, hcs, rfl⟩
    rw [String.toList_ofList]
    exact chars?_eq_some_iff.1 hcs
  · intro h
    exact ⟨t.toList, chars?_eq_some_iff.2 h, String.ofList_toList⟩

@[simp] theorem encode?_ofString (s : String) : (ofString s).encode? = some s :=
  encode?_eq_some_iff.2 rfl

@[simp] theorem ofString_inj {s t : String} : ofString s = ofString t ↔ s = t := by
  constructor
  · intro h
    have hencode := encode?_ofString s
    rw [h, encode?_ofString] at hencode
    exact (Option.some.inj hencode).symm
  · rintro rfl
    rfl

@[simp] theorem shown_ofString (s : String) : (ofString s).shown = s := by
  simp [shown, ofString, List.flatMap_map, Letter.shown]

end RawText

end SlideFlow.Text
