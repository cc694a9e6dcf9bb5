/-
Files and directories as a value, seen from a working directory. A place is the list of names that
lead to an entry: from the working directory, from one of the directories above it if the names
start with two points, or from the root if they start with an anchor. Working directory, directories
above it and roots are always there.

Paths are followed name by name: every place on the way has to be a directory, and two points lead
back up.
-/
import SlideFlow.Deck.Document
import SlideFlow.Files.Path

namespace SlideFlow.Files

open SlideFlow.Deck

/-- What a file holds: text, other bytes, or a presentation. -/
inductive Content where
  | text (s : String)
  | binary (data : ByteArray)
  | deck (document : Opened)

inductive Entry where
  | directory
  | file (content : Content)

/-! ## Places -/

/-- The names that lead to an entry. -/
abbrev Place := List String

namespace Place

/-- The root, under either of its anchors. -/
def isRoot (place : Place) : Bool := place = ["/"] || place = ["//"]

/-- A place that is always there. -/
def isBase (place : Place) : Bool := isRoot place || place.all (· = "..")

/-- A place below the working directory. -/
def isInside (place : Place) : Bool :=
  match place with
  | [] => false
  | name :: _ => name ≠ ".." && name ≠ "/" && name ≠ "//"

/-- The place above. Nothing stands above a root. -/
def up (place : Place) : Place :=
  if isRoot place then place
  else if isBase place then place ++ [".."]
  else place.dropLast

/-- The place that a name leads to. -/
def step (place : Place) (name : String) : Place :=
  if name = ".." then up place else place ++ [name]

end Place

/-- The place from which a path starts. -/
def Path.start (p : Path) : Place := if p.anchor = "" then [] else [p.anchor]

/-- The place that a path leads to, if every name on the way is a directory. -/
def Path.place (p : Path) : Place := p.parts.foldl Place.step p.start

/-! ## Trees -/

/-- The entries that are not always there, and the number of bytes of the path that leads from the root
to the working directory. -/
structure Tree where
  workingPathBytes : Nat
  entries : Ordered Place Entry

namespace Tree

/-- No entries, with the root as working directory. -/
def empty : Tree := { workingPathBytes := 0, entries := [] }

/-- The entry at a place. -/
def get? (t : Tree) (place : Place) : Option Entry :=
  if place.isBase then some .directory else Ordered.get? place t.entries

def isDirectory (t : Tree) (place : Place) : Bool :=
  match t.get? place with
  | some .directory => true
  | _ => false

def put (t : Tree) (place : Place) (e : Entry) : Tree :=
  { t with entries := Ordered.put place e t.entries }

def erase (t : Tree) (place : Place) : Tree :=
  { t with entries := Ordered.erase place t.entries }

/-! ## Following a path -/

/-- Why a path leads nowhere. -/
inductive Dead where
  | missing
  | notDirectory
  | nullByte
  | nameTooLong
  deriving DecidableEq, Repr

/-- The most bytes that a name may have. -/
def maxNameBytes : Nat := 255

/-- The most bytes that a path may have. -/
def maxPathBytes : Nat := 4095

/-- Follows names from a place. The last one need not exist. -/
def follow (t : Tree) : Place → List String → Except Dead Place
  | place, [] => .ok place
  | place, name :: rest =>
    match t.get? place with
    | none => .error .missing
    | some (.file _) => .error .notDirectory
    | some .directory =>
      if name.utf8ByteSize > maxNameBytes then .error .nameTooLong
      else follow t (place.step name) rest

/-- The place of a path. -/
def locate (t : Tree) (p : Path) : Except Dead Place :=
  if p.parts.any (·.toList.contains '\x00') then .error .nullByte
  else if p.toString.utf8ByteSize > maxPathBytes then .error .nameTooLong
  else t.follow p.start p.parts

/-- What a path leads to. -/
def at? (t : Tree) (p : Path) : Option Entry :=
  match t.locate p with
  | .ok place => t.get? place
  | .error _ => none

/-- The content of the file that a path leads to. -/
def file? (t : Tree) (p : Path) : Option Content :=
  match t.at? p with
  | some (.file content) => some content
  | _ => none

/-- Whether a path leads to a directory. -/
def leadsToDirectory (t : Tree) (p : Path) : Bool :=
  match t.at? p with
  | some .directory => true
  | _ => false

/-! ## Listing -/

/-- A place written with slashes, a directory with one at its end. -/
def shown (place : Place) : Entry → String
  | .directory => "/".intercalate place ++ "/"
  | .file _ => "/".intercalate place

/-- Everything below the working directory, written out and sorted by code point. -/
def listing (t : Tree) : List String :=
  let inside := t.entries.filter fun (place, _) => place.isInside
  (inside.map fun (place, e) => shown place e).mergeSort fun a b => !decide (b < a)

end Tree

end SlideFlow.Files
