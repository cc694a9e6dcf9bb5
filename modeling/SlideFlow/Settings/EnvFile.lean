/-
Files of assignments: a name, an equals sign and a value on each line, with `export` allowed in
front and a comment behind. A value may stand in single or double quotes and may then run over
several lines; escapes count inside quotes only. A line that cannot be read is passed over. After
all assignments are read, places such as `${NAME}` and `${NAME:-default}` in values are filled.
A byte order mark in front of the text is no part of it.

Lines end at a line feed here: the text has been read with unified line ends.
-/
import SlideFlow.Ordered
import SlideFlow.Text.Blank

namespace SlideFlow.Settings.EnvFile

open SlideFlow.Text

/-- A name and the value assigned to it, if one is. -/
abbrev Assignment := String × Option String

/-! ## Lines -/

/-- White space within a line. -/
def isInnerBlank (c : Char) : Bool := isBlank c && c != '\n'

def skipInner (cs : List Char) : List Char := cs.dropWhile isInnerBlank

/-- What follows a comment that may stand here. -/
def skipComment (cs : List Char) : List Char :=
  match skipInner cs with
  | '#' :: rest => rest.dropWhile (· != '\n')
  | _ => cs

/-- What follows the end of a line, if nothing but white space stands before it. -/
def lineEnd? (cs : List Char) : Option (List Char) :=
  match skipInner cs with
  | [] => some []
  | '\n' :: rest => some rest
  | _ => none

/-- What follows the line. -/
def nextLine (cs : List Char) : List Char := (cs.dropWhile (· != '\n')).drop 1

/-! ## Names -/

/-- What follows an `export` and its white space. -/
def skipExport (cs : List Char) : List Char :=
  match cs with
  | 'e' :: 'x' :: 'p' :: 'o' :: 'r' :: 't' :: c :: rest =>
    if isInnerBlank c then skipInner rest else cs
  | _ => cs

/-- A part of a line and what follows it, or the place of a fault. -/
abbrev Part (α : Type) := Except (List Char) (α × List Char)

/-- A name, in single quotes or up to white space, an equals sign or a number sign. -/
def name (cs : List Char) : Part (List Char) :=
  match cs with
  | '\x27' :: rest =>
    match rest.span (· != '\x27') with
    | (c :: found, _ :: after) => .ok (c :: found, after)
    | _ => .error cs
  | _ =>
    match cs.span fun c => c != '=' && c != '#' && !isBlank c with
    | ([], _) => .error cs
    | found => .ok found

/-! ## Values -/

/-- The text up to the closing quote. A backslash and the character behind it belong together, so a
quote behind a backslash does not close. -/
def quotedText? (quote : Char) : List Char → Option (List Char × List Char)
  | [] => none
  | '\\' :: c :: rest =>
    (quotedText? quote rest).map fun (body, after) => ('\\' :: c :: body, after)
  | c :: rest =>
    if c = quote then some ([], rest)
    else (quotedText? quote rest).map fun (body, after) => (c :: body, after)

/-- The escapes between double quotes. -/
def doubleEscape? : Char → Option Char
  | '\\' => some '\\'
  | '\x27' => some '\x27'
  | '"' => some '"'
  | 'a' => some '\x07'
  | 'b' => some '\x08'
  | 'f' => some '\x0c'
  | 'n' => some '\n'
  | 'r' => some '\r'
  | 't' => some '\t'
  | 'v' => some '\x0b'
  | _ => none

/-- The escapes between single quotes. -/
def singleEscape? : Char → Option Char
  | '\\' => some '\\'
  | '\x27' => some '\x27'
  | _ => none

/-- A text with its escapes replaced. -/
def unescape (escape? : Char → Option Char) : List Char → List Char
  | '\\' :: c :: rest =>
    match escape? c with
    | some d => d :: unescape escape? rest
    | none => '\\' :: unescape escape? (c :: rest)
  | c :: rest => c :: unescape escape? rest
  | [] => []

/-- A value without quotes, up to white space that a number sign follows. -/
def uncommented : List Char → List Char
  | [] => []
  | c :: rest =>
    if isBlank c && (rest.dropWhile isBlank).head? == some '#' then []
    else c :: uncommented rest

/-- The value of an assignment. The white space in front of it can open a comment. -/
def value (cs : List Char) : Part (List Char) :=
  match skipInner cs with
  | '\x27' :: rest =>
    match quotedText? '\x27' rest with
    | some (body, after) => .ok (unescape singleEscape? body, after)
    | none => .error cs
  | '"' :: rest =>
    match quotedText? '"' rest with
    | some (body, after) => .ok (unescape doubleEscape? body, after)
    | none => .error cs
  | _ =>
    let (raw, after) := cs.span (· != '\n')
    .ok (trimBoth isBlank (uncommented raw), after)

/-! ## Assignments -/

/-- What follows the end of the line, if nothing but a comment stands before it. -/
def restOfLine {α : Type} (found : α) (cs : List Char) : Part α :=
  match lineEnd? (skipComment cs) with
  | some rest => .ok (found, rest)
  | none => .error cs

/-- The value behind a name, if there is one, up to the end of the line. -/
def assigned (cs : List Char) : Part (Option (List Char)) :=
  match skipInner cs with
  | '=' :: rest =>
    match value rest with
    | .ok (found, after) => restOfLine (some found) after
    | .error place => .error place
  | other => restOfLine none other

/-- An assignment, up to the end of the line. -/
def assignment (cs : List Char) : Part Assignment :=
  match name cs with
  | .error place => .error place
  | .ok (key, rest) =>
    match assigned rest with
    | .error place => .error place
    | .ok (given, after) => .ok ((String.ofList key, given.map String.ofList), after)

/-- The next line that is not empty: its assignment, if it has one, and what follows. -/
def line (cs : List Char) : Option Assignment × List Char :=
  match skipExport (cs.dropWhile isBlank) with
  | [] => (none, [])
  | '#' :: rest => (none, nextLine rest)
  | cs =>
    match assignment cs with
    | .ok (found, rest) => (some found, rest)
    | .error place => (none, nextLine place)

/-- All assignments. Each line uses up a character at least. -/
def lines : Nat → List Char → List Assignment
  | 0, _ => []
  | _, [] => []
  | fuel + 1, cs =>
    let (found, rest) := line cs
    found.toList ++ lines fuel rest

/-! ## Places in values -/

/-- A place in front: its name, its default and what follows. -/
def place? : List Char → Option (List Char × List Char × List Char)
  | '$' :: '\x7b' :: rest =>
    match rest.span fun c => c != '\x7d' && c != ':' with
    | (name, '\x7d' :: after) => some (name, [], after)
    | (name, ':' :: '-' :: more) =>
      match more.span (· != '\x7d') with
      | (other, _ :: after) => some (name, other, after)
      | (_, []) => none
    | _ => none
  | _ => none

/-- A value with its places filled. -/
def fill (known : Ordered String (Option String)) : Nat → List Char → List Char
  | 0, cs => cs
  | _, [] => []
  | fuel + 1, c :: rest =>
    match place? (c :: rest) with
    | some (name, other, after) =>
      let value :=
        match Ordered.get? (String.ofList name) known with
        | some found => (found.getD "").toList
        | none => other
      value ++ fill known fuel after
    | none => c :: fill known fuel rest

/-- Fills the places of each value from the environment and the assignments before it. -/
def fillAll (environment : Ordered String (Option String)) :
    Ordered String (Option String) → List Assignment → Ordered String (Option String)
  | done, [] => done
  | done, (name, value) :: rest =>
    let known := done.foldl (fun m (k, v) => Ordered.put k v m) environment
    let filled := value.map fun v => String.ofList (fill known v.length v.toList)
    fillAll environment (Ordered.put name filled done) rest

/-- A text without the byte order mark in front of it. -/
def unmarked : List Char → List Char
  | '\ufeff' :: rest => rest
  | cs => cs

/-- The assignments of a file, read under an environment. -/
def read (environment : List (String × String)) (text : String) : Ordered String (Option String) :=
  let known := Ordered.ofList (environment.map fun (k, v) => (k, some v))
  let cs := unmarked text.toList
  fillAll known [] (lines (cs.length + 1) cs)

end SlideFlow.Settings.EnvFile
