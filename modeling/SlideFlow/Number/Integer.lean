/-
Whole numbers in text: an optional sign and decimal digits of any script, where a single underscore
may stand between two digits and white space around the whole. More than 4300 digits are refused.
-/
import SlideFlow.Text.Blank
import SlideFlow.Text.Digit
import SlideFlow.Text.Quoted

namespace SlideFlow.Number

open SlideFlow.Text

/-- Why a text is not taken as a whole number. -/
inductive IntegerFault where
  | malformed (text : String)
  | tooLong (digits : Nat)
  deriving DecidableEq, Repr

/-- The most digits a whole number may have. -/
def maxDigits : Nat := 4300

/-- The most characters of a text that a message about it shows, quotes included. -/
def maxShown : Nat := 200

def IntegerFault.message : IntegerFault → String
  | .malformed text =>
    "invalid literal for int() with base 10: "
      ++ String.ofList ((quoted text).toList.take maxShown)
  | .tooLong digits =>
    s!"Exceeds the limit ({maxDigits} digits) for integer string conversion: value has {digits} "
      ++ "digits; use sys.set_int_max_str_digits() to increase the limit"

/-- White space that may surround a number: the ASCII separators are not among it. -/
def isMargin (c : Char) : Bool :=
  isBlank c && !(decide (0x1c ≤ c.toNat) && decide (c.toNat ≤ 0x1f))

/-- Digits in which single underscores stand between two of them. -/
def groupedDigits : List Char → Bool
  | [] => false
  | [c] => isDecimal c
  | c :: '_' :: d :: rest => isDecimal c && groupedDigits (d :: rest)
  | c :: rest => isDecimal c && groupedDigits rest

/-- A sign in front, and what follows it. -/
def signed : List Char → Bool × List Char
  | '-' :: rest => (true, rest)
  | '+' :: rest => (false, rest)
  | cs => (false, cs)

/-- Reads a whole number. The run of digits is judged first, then its length, then what follows. -/
def readInteger (s : String) : Except IntegerFault Int :=
  let (negative, body) := signed (trimBoth isMargin s.toList)
  let (run, rest) := body.span fun c => isDecimal c || c == '_'
  let digits := run.filter (· != '_')
  if !groupedDigits run then .error (.malformed s)
  else if digits.length > maxDigits then .error (.tooLong digits.length)
  else if !rest.isEmpty then .error (.malformed s)
  else
    let value : Int := decimalValue digits
    .ok (if negative then -value else value)

end SlideFlow.Number
