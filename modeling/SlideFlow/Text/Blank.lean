/-
White space of every script, and taking it off a text: at both ends, or everywhere.
-/
import SlideFlow.Text.Range

namespace SlideFlow.Text

/-- The white space characters: the ASCII separators U+001C to U+001F and the non-breaking spaces
count, the zero-width ones do not. -/
def blanks : List (Nat × Nat) := [
  (0x9, 0xd), (0x1c, 0x20), (0x85, 0x85), (0xa0, 0xa0), (0x1680, 0x1680), (0x2000, 0x200a),
  (0x2028, 0x2029), (0x202f, 0x202f), (0x205f, 0x205f), (0x3000, 0x3000)
]

/-- White space in any script. -/
def isBlank (c : Char) : Bool := within blanks c

/-- The text without the characters of a class at its two ends. -/
def trimBoth (drop : Char → Bool) (cs : List Char) : List Char :=
  ((cs.dropWhile drop).reverse.dropWhile drop).reverse

/-- The text without the white space at its two ends. -/
def strip (s : String) : String := String.ofList (trimBoth isBlank s.toList)

/-- The characters that are not white space, in order. -/
def compact (cs : List Char) : List Char := cs.filter (! isBlank ·)

theorem isBlank_of_isWhitespace {c : Char} (h : c.isWhitespace = true) : isBlank c = true := by
  simp only [Char.isWhitespace, Bool.or_eq_true, decide_eq_true_eq] at h
  rcases h with ((rfl | rfl) | rfl) | rfl <;> decide

end SlideFlow.Text
