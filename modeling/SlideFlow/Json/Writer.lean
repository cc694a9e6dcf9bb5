/-
Writing JSON values on one line or over several, and naming a value inside a message. All three
spell the same tree; they differ in the words for the constants, in the quoting of texts and in the
white space between the parts. Halves of characters are written as they are, so what is written may be a
text that cannot be encoded.
-/
import SlideFlow.Json.Basic
import SlideFlow.Number.Shortest
import SlideFlow.Text.Quoted

namespace SlideFlow.Json

open SlideFlow.Number SlideFlow.Text

/-! ## String literals -/

/-- One character of a string literal: only quotes, backslashes and characters below U+0020 are
escaped. -/
def escaped (c : Char) : List Char :=
  if c = '"' then ['\\', '"']
  else if c = '\\' then ['\\', '\\']
  else if c = '\n' then ['\\', 'n']
  else if c = '\r' then ['\\', 'r']
  else if c = '\t' then ['\\', 't']
  else if c = '\x08' then ['\\', 'b']
  else if c = '\x0c' then ['\\', 'f']
  else if c.toNat < 0x20 then '\\' :: 'u' :: hexPadded 4 c.toNat
  else [c]

/-- One letter of a string literal. -/
def escapedLetter : Letter → RawText
  | .char c => (escaped c).map .char
  | .half h => [.half h]

/-- The string literal of a text. -/
def rawLiteral (s : RawText) : RawText := "\"" ++ s.flatMap escapedLetter ++ "\""

/-! ## Spelling -/

/-- How the leaves of a value are spelled. -/
structure Spelling where
  null : String
  yes : String
  no : String
  text : RawText → RawText
  float : Binary64.Layout

/-- The spelling of JSON text. -/
def asText : Spelling where
  null := "null"
  yes := "true"
  no := "false"
  text := rawLiteral
  float := ⟨-4, 16, "Infinity", "-Infinity", "NaN"⟩

/-- The spelling inside messages. -/
def asMention : Spelling where
  null := "None"
  yes := "True"
  no := "False"
  text s := quoted s
  float := ⟨-4, 16, "inf", "-inf", "nan"⟩

/-- The digits of a whole number, with a minus sign in front of a negative one. -/
def intChars (n : Int) : List Char :=
  if n < 0 then '-' :: Nat.toDigits 10 n.natAbs else Nat.toDigits 10 n.natAbs

mutual

/-- A value on one line, with a comma and a space between its parts. -/
def inline (sp : Spelling) : Json → RawText
  | .null => sp.null
  | .bool b => if b then sp.yes else sp.no
  | .int n => (intChars n).map .char
  | .float x => sp.float.text x
  | .str s => sp.text s
  | .arr items => "[" ++ inlineItems sp items
  | .obj members => "\x7b" ++ inlineMembers sp members

/-- The items of an array and its closing bracket. -/
def inlineItems (sp : Spelling) : List Json → RawText
  | [] => "]"
  | [v] => inline sp v ++ "]"
  | v :: rest => inline sp v ++ ", " ++ inlineItems sp rest

/-- The members of an object and its closing brace. -/
def inlineMembers (sp : Spelling) : List (RawText × Json) → RawText
  | [] => "\x7d"
  | [(k, v)] => sp.text k ++ ": " ++ inline sp v ++ "\x7d"
  | (k, v) :: rest => sp.text k ++ ": " ++ inline sp v ++ ", " ++ inlineMembers sp rest

end

/-! ## Several lines -/

/-- A line break and the indentation of a depth, two spaces a level. -/
def lineBreak (depth : Nat) : RawText := "\n" ++ List.replicate (2 * depth) (Letter.char ' ')

mutual

/-- A value over several lines: each item and member on a line of its own. -/
def indented (depth : Nat) : Json → RawText
  | .arr [] => "[]"
  | .arr (v :: rest) => "[" ++ indentedItems depth (v :: rest)
  | .obj [] => "\x7b\x7d"
  | .obj (m :: rest) => "\x7b" ++ indentedMembers depth (m :: rest)
  | v => inline asText v

/-- The items of an array that stands at a depth, and its closing bracket. -/
def indentedItems (depth : Nat) : List Json → RawText
  | [] => lineBreak depth ++ "]"
  | [v] => lineBreak (depth + 1) ++ indented (depth + 1) v ++ lineBreak depth ++ "]"
  | v :: rest => lineBreak (depth + 1) ++ indented (depth + 1) v ++ "," ++ indentedItems depth rest

/-- The members of an object that stands at a depth, and its closing brace. -/
def indentedMembers (depth : Nat) : List (RawText × Json) → RawText
  | [] => lineBreak depth ++ "\x7d"
  | [(k, v)] =>
    lineBreak (depth + 1) ++ rawLiteral k ++ ": " ++ indented (depth + 1) v
      ++ lineBreak depth ++ "\x7d"
  | (k, v) :: rest =>
    lineBreak (depth + 1) ++ rawLiteral k ++ ": " ++ indented (depth + 1) v
      ++ "," ++ indentedMembers depth rest

end

/-- The value as JSON text on one line, with halves of characters as escapes. -/
def line (v : Json) : String := (inline asText v).shown

/-- The value as JSON text over several lines. -/
def page (v : Json) : RawText := indented 0 v

/-- The value as a message names it. -/
def mention (v : Json) : String := (inline asMention v).shown

end SlideFlow.Json
