/-
A text quoted inside a message. Single quotes stand around it, or double quotes if it holds a
single quote and no double one; the quote in use, the backslash and whatever does not print are
written as escapes, and so is half of a character.
-/
import SlideFlow.Text.Printable
import SlideFlow.Text.Raw

namespace SlideFlow.Text

/-- The quote that `quoted` puts around a text. -/
def quoteFor (s : RawText) : Char :=
  if s.contains (.char '\x27') && !s.contains (.char '"') then '"' else '\x27'

/-- The escape of a character that does not print: two, four or eight hexadecimal digits. -/
def hexEscape (c : Char) : List Char :=
  if c.toNat < 0x100 then '\\' :: 'x' :: hexPadded 2 c.toNat
  else if c.toNat < 0x10000 then '\\' :: 'u' :: hexPadded 4 c.toNat
  else '\\' :: 'U' :: hexPadded 8 c.toNat

/-- One character between quotes. -/
def quotedChar (quote c : Char) : List Char :=
  if c = quote || c = '\\' then ['\\', c]
  else if c = '\n' then ['\\', 'n']
  else if c = '\r' then ['\\', 'r']
  else if c = '\t' then ['\\', 't']
  else if isPrintable c then [c]
  else hexEscape c

/-- One letter between quotes. -/
def quotedLetter (quote : Char) : Letter → List Char
  | .char c => quotedChar quote c
  | .half h => h.escape

/-- The text as a message quotes it. -/
def quoted (s : RawText) : String :=
  let quote := quoteFor s
  String.ofList (quote :: s.flatMap (quotedLetter quote) ++ [quote])

end SlideFlow.Text
