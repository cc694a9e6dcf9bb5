/-
Reading JSON text. The reader works on the characters that are left and returns what follows the
value, so a fault carries the rest of the text at its place, and the place is counted from there.

Beside the grammar of JSON it accepts `NaN`, `Infinity` and `-Infinity`. Of a repeated member name
the first place and the last value count. A whole number may have 4300 digits. An escape that spells
half of a pair without the other half is kept as that half.
-/
import SlideFlow.Json.Basic
import SlideFlow.Number.Integer
import SlideFlow.Text.Hex

namespace SlideFlow.Json

open SlideFlow.Number SlideFlow.Text

/-! ## Faults -/

/-- What is wrong at a place of the text. -/
inductive Fault where
  | value
  | memberName
  | colon
  | comma
  | openString
  | controlCharacter
  | escape
  | unicodeEscape
  | extraData
  | byteOrderMark
  deriving DecidableEq, Repr

def Fault.text : Fault → String
  | .value => "Expecting value"
  | .memberName => "Expecting property name enclosed in double quotes"
  | .colon => "Expecting ':' delimiter"
  | .comma => "Expecting ',' delimiter"
  | .openString => "Unterminated string starting at"
  | .controlCharacter => "Invalid control character at"
  | .escape => "Invalid \\escape"
  | .unicodeEscape => "Invalid \\uXXXX escape"
  | .extraData => "Extra data"
  | .byteOrderMark => "Unexpected UTF-8 BOM (decode using utf-8-sig)"

/-- Why a text is not read: a fault and the rest of the text from its place on, or a whole number
with too many digits. -/
inductive ReadError where
  | fault (what : Fault) (rest : List Char)
  | integer (why : IntegerFault)
  deriving DecidableEq, Repr

/-- Line, column and index of the place before which `read` stands; a line ends at a line feed. -/
def place (read : List Char) : Nat × Nat × Nat :=
  let line := read.count '\n' + 1
  let column := (read.reverse.takeWhile (· ≠ '\n')).length + 1
  (line, column, read.length)

/-- The message about a fault in a text. -/
def ReadError.message (text : List Char) : ReadError → String
  | .fault what rest =>
    let (line, column, index) := place (text.take (text.length - rest.length))
    s!"{what.text}: line {line} column {column} (char {index})"
  | .integer why => why.message

/-- What a reader gives back: a value and the rest of the text. -/
abbrev Reading (α : Type) := Except ReadError (α × List Char)

/-! ## White space, strings -/

def isSpace (c : Char) : Bool := c == ' ' || c == '\t' || c == '\n' || c == '\r'

def skipSpace (cs : List Char) : List Char := cs.dropWhile isSpace

/-- Four hexadecimal digits in front; at least one character has to follow them. -/
def codeUnit? : List Char → Option (Nat × List Char)
  | a :: b :: c :: d :: e :: rest => do
    let a ← hexValue? a
    let b ← hexValue? b
    let c ← hexValue? c
    let d ← hexValue? d
    some (((a * 16 + b) * 16 + c) * 16 + d, e :: rest)
  | _ => none

def isHighSurrogate (u : Nat) : Bool := decide (0xd800 ≤ u) && decide (u < 0xdc00)

def isLowSurrogate (u : Nat) : Bool := decide (0xdc00 ≤ u) && decide (u < 0xe000)

/-- The letter of a code unit: a character, or half of a pair. -/
def unitLetter (u : Nat) : Letter :=
  if h : 0xd800 ≤ u ∧ u < 0xe000 then .half ⟨u, h⟩ else .char (Char.ofNat u)

/-- The letter after `\u`: two code units that form a pair are one character. -/
def unicodeEscape? (cs : List Char) : Option (Letter × List Char) := do
  let (u, rest) ← codeUnit? cs
  match rest with
  | '\\' :: 'u' :: more =>
    match codeUnit? more with
    | some (v, last) =>
      if isHighSurrogate u && isLowSurrogate v then
        some (.char (Char.ofNat (0x10000 + (u - 0xd800) * 0x400 + (v - 0xdc00))), last)
      else some (unitLetter u, rest)
    | none => some (unitLetter u, rest)
  | _ => some (unitLetter u, rest)

/-- The character that a one-letter escape stands for. -/
def plainEscape? (c : Char) : Option Char :=
  if c = '"' || c = '\\' || c = '/' then some c
  else if c = 'b' then some '\x08'
  else if c = 'f' then some '\x0c'
  else if c = 'n' then some '\n'
  else if c = 'r' then some '\r'
  else if c = 't' then some '\t'
  else none

/-- The rest of a string that was opened at `opened`, after the letters `acc`, last first. -/
def readString (opened : List Char) : Nat → RawText → List Char → Reading RawText
  | 0, _, _ => .error (.fault .openString opened)
  | _ + 1, _, [] => .error (.fault .openString opened)
  | fuel + 1, acc, c :: rest =>
    if c = '"' then .ok (acc.reverse, rest)
    else if c = '\\' then
      match rest with
      | [] => .error (.fault .openString opened)
      | 'u' :: more =>
        match unicodeEscape? more with
        | some (d, last) => readString opened fuel (d :: acc) last
        | none => .error (.fault .unicodeEscape rest)
      | e :: more =>
        match plainEscape? e with
        | some d => readString opened fuel (.char d :: acc) more
        | none => .error (.fault .escape (c :: rest))
    else if c.toNat < 0x20 then .error (.fault .controlCharacter (c :: rest))
    else readString opened fuel (.char c :: acc) rest

/-! ## Numbers and literals -/

/-- The longest run of ASCII digits, and the rest. -/
def digits (cs : List Char) : List Char × List Char := cs.span Char.isDigit

/-- The fraction in front, without its point; it has at least one digit. -/
def fraction : List Char → List Char × List Char
  | '.' :: rest =>
    match digits rest with
    | ([], _) => ([], '.' :: rest)
    | (ds, more) => (ds, more)
  | cs => ([], cs)

/-- The exponent in front, if there is one with at least one digit. -/
def exponent? (cs : List Char) : Option (Int × List Char) :=
  match cs with
  | c :: rest =>
    if c = 'e' || c = 'E' then
      let (negative, body) := signed rest
      match digits body with
      | ([], _) => none
      | (ds, more) =>
        let value : Int := decimalValue ds
        some (if negative then -value else value, more)
    else none
  | [] => none

/-- The whole part of a number: a single zero, or digits that start with another one. -/
def wholePart? : List Char → Option (List Char × List Char)
  | '0' :: rest => some (['0'], rest)
  | c :: rest => if c.isDigit then some (digits (c :: rest)) else none
  | [] => none

/-- A number takes the longest text that is one. -/
def readNumber (cs : List Char) : Reading Json :=
  let (negative, body) := match cs with
    | '-' :: rest => (true, rest)
    | _ => (false, cs)
  match wholePart? body with
  | none => .error (.fault .value cs)
  | some (whole, rest) =>
    let (frac, rest') := fraction rest
    let (power, rest'') := match exponent? rest' with
      | some (e, more) => (some e, more)
      | none => (none, rest')
    if frac.isEmpty && power.isNone then
      if whole.length > maxDigits then .error (.integer (.tooLong whole.length))
      else
        let value : Int := decimalValue whole
        .ok (.int (if negative then -value else value), rest'')
    else
      let e : Int := power.getD 0 - frac.length
      .ok (.float (.ofDecimal negative (decimalValue (whole ++ frac)) e), rest'')

/-- The words that stand for a value. -/
def words : List (List Char × Json) := [
  (['n', 'u', 'l', 'l'], .null),
  (['t', 'r', 'u', 'e'], .bool true),
  (['f', 'a', 'l', 's', 'e'], .bool false),
  (['N', 'a', 'N'], .float .nan),
  (['I', 'n', 'f', 'i', 'n', 'i', 't', 'y'], .float (.infinite false)),
  (['-', 'I', 'n', 'f', 'i', 'n', 'i', 't', 'y'], .float (.infinite true))
]

/-- A word or a number. -/
def readScalar (cs : List Char) : Reading Json :=
  match words.find? fun (w, _) => w.isPrefixOf cs with
  | some (w, v) => .ok (v, cs.drop w.length)
  | none => readNumber cs

/-! ## Values

A bracket takes two steps, one for the value and one for its first item, so a text never needs more
steps than twice its length and one.
-/

mutual

/-- A value without space in front. -/
def readValue : Nat → List Char → Reading Json
  | 0, cs => .error (.fault .value cs)
  | fuel + 1, cs =>
    match cs with
    | '"' :: rest =>
      match readString cs (fuel + 1) [] rest with
      | .error e => .error e
      | .ok (s, more) => .ok (.str s, more)
    | '[' :: rest =>
      match skipSpace rest with
      | ']' :: more => .ok (.arr [], more)
      | inner => readItems fuel [] inner
    | '\x7b' :: rest =>
      match skipSpace rest with
      | '\x7d' :: more => .ok (.obj [], more)
      | inner => readMembers fuel [] inner
    | _ => readScalar cs

/-- The items of an array from one on, after those in `acc`, last first. -/
def readItems : Nat → List Json → List Char → Reading Json
  | 0, _, cs => .error (.fault .value cs)
  | fuel + 1, acc, cs =>
    match readValue fuel cs with
    | .error e => .error e
    | .ok (v, rest) =>
      match skipSpace rest with
      | ']' :: more => .ok (.arr (v :: acc).reverse, more)
      | ',' :: more => readItems fuel (v :: acc) (skipSpace more)
      | other => .error (.fault .comma other)

/-- The members of an object from one on, after those in `acc`, last first. -/
def readMembers : Nat → List (RawText × Json) → List Char → Reading Json
  | 0, _, cs => .error (.fault .memberName cs)
  | fuel + 1, acc, cs =>
    match cs with
    | '"' :: rest =>
      match readString cs (fuel + 1) [] rest with
      | .error e => .error e
      | .ok (name, afterName) =>
        match skipSpace afterName with
        | ':' :: afterColon =>
          match readValue fuel (skipSpace afterColon) with
          | .error e => .error e
          | .ok (v, afterValue) =>
            match skipSpace afterValue with
            | '\x7d' :: more => .ok (.obj (Ordered.ofList ((name, v) :: acc).reverse), more)
            | ',' :: more => readMembers fuel ((name, v) :: acc) (skipSpace more)
            | other => .error (.fault .comma other)
        | other => .error (.fault .colon other)
    | _ => .error (.fault .memberName cs)

end

/-- Reads a text that holds one value and nothing else. -/
def readChars (cs : List Char) : Except ReadError Json :=
  match cs with
  | '﻿' :: _ => .error (.fault .byteOrderMark cs)
  | _ =>
    match readValue (2 * cs.length + 1) (skipSpace cs) with
    | .error e => .error e
    | .ok (v, rest) =>
      match skipSpace rest with
      | [] => .ok v
      | other => .error (.fault .extraData other)

/-- Reads a text that holds one value and nothing else. -/
def read (text : String) : Except ReadError Json := readChars text.toList

end SlideFlow.Json
