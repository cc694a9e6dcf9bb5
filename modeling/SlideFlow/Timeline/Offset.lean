/-
Time offsets such as `1.5s` or `2 min`. White space does not count; the first number that a unit
follows directly is taken, and what stands around it is not looked at. The conversion goes through
binary64 seconds and whole microseconds; what is left below a millisecond is dropped.
-/
import SlideFlow.Number.Binary64
import SlideFlow.Text.Blank
import SlideFlow.Text.Digit

namespace SlideFlow.Timeline

open SlideFlow.Number SlideFlow.Text

/-! ## Units -/

inductive TimeUnit where
  | hour
  | minute
  | second
  | milli
  | micro
  | nano
  deriving DecidableEq, Repr

namespace TimeUnit

/-- How units are written. No spelling is the start of another. -/
def spellings : List (List Char × TimeUnit) := [
  (['h'], .hour),
  (['m', 'i', 'n'], .minute),
  (['m', 's'], .milli),
  (['µ', 's'], .micro),
  (['u', 's'], .micro),
  (['n', 's'], .nano),
  (['s'], .second)
]

/-- The unit in front of a text. -/
def ofStart? (cs : List Char) : Option TimeUnit :=
  (spellings.find? fun (w, _) => w.isPrefixOf cs).map (·.2)

/-- The length of a unit in seconds. -/
def seconds : TimeUnit → Binary64
  | .hour => .ofNat 3600
  | .minute => .ofNat 60
  | .second => .ofNat 1
  | .milli => .ofDecimal false 1 (-3)
  | .micro => .ofDecimal false 1 (-6)
  | .nano => .ofDecimal false 1 (-9)

end TimeUnit

/-! ## Recognition -/

/-- A number and its unit: the digits before and after the point. -/
structure Offset where
  whole : List Char
  frac : List Char
  unit : TimeUnit
  deriving DecidableEq, Repr

/-- A number and a unit that start right here. -/
def offsetHere? (cs : List Char) : Option Offset :=
  match cs.span isDecimal with
  | ([], _) => none
  | (whole, rest) =>
    match TimeUnit.ofStart? rest with
    | some unit => some { whole, frac := [], unit }
    | none =>
      match rest with
      | '.' :: more =>
        match more.span isDecimal with
        | ([], _) => none
        | (frac, last) => (TimeUnit.ofStart? last).map fun unit => { whole, frac, unit }
      | _ => none

/-- The first number that a unit follows. -/
def findOffset? : List Char → Option Offset
  | [] => none
  | c :: rest =>
    match offsetHere? (c :: rest) with
    | some o => some o
    | none => findOffset? rest

/-! ## Conversion -/

/-- The number of an offset as a binary64 value. -/
def Offset.number (o : Offset) : Binary64 :=
  .ofDecimal false (decimalValue (o.whole ++ o.frac)) (-o.frac.length)

/-- The longest offset in milliseconds: not quite a thousand million days. -/
def maxMillis : Int := 1000000000 * 86400000 - 1

/-- The offset in whole milliseconds; nothing if it is too long. -/
def Offset.millis? (o : Offset) : Option Int := do
  let micros ← (o.number * o.unit.seconds * .ofNat 1000000).round?
  let millis := micros / 1000
  if millis ≤ maxMillis then some millis else none

/-- An offset that is too long to be a time. -/
inductive OffsetFault where
  | tooLong
  deriving DecidableEq, Repr

/-- Reads a time offset in whole milliseconds; none if the text holds no offset. -/
def readOffset (text : String) : Except OffsetFault (Option Int) :=
  match findOffset? (compact text.toList) with
  | none => .ok none
  | some o =>
    match o.millis? with
    | some millis => .ok (some millis)
    | none => .error .tooLong

end SlideFlow.Timeline
