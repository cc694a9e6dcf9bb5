/-
Paths as text and as components. Empty components and single points do not count, two points stay;
exactly two leading slashes are kept apart from one. The empty path is written as a point.
-/

namespace SlideFlow.Files

/-- A path: what anchors it (nothing, one slash or two) and its components. -/
structure Path where
  anchor : String
  parts : List String
  deriving DecidableEq, Repr

namespace Path

/-- The components of a text between slashes. -/
def split : List Char → List (List Char)
  | [] => [[]]
  | '/' :: rest => [] :: split rest
  | c :: rest =>
    match split rest with
    | [] => [[c]]
    | w :: ws => (c :: w) :: ws

/-- The anchor of a text. -/
def anchorOf : List Char → String
  | '/' :: '/' :: '/' :: _ => "/"
  | '/' :: '/' :: _ => "//"
  | '/' :: _ => "/"
  | _ => ""

/-- Reads a path. -/
def ofString (s : String) : Path where
  anchor := anchorOf s.toList
  parts := ((split s.toList).map String.ofList).filter fun p => p ≠ "" && p ≠ "."

/-- Whether a text can only lead to a directory: it ends in a slash or in a single point. -/
def meansDirectory (s : String) : Bool :=
  match (split s.toList).getLast? with
  | some [] | some ['.'] => true
  | _ => false

def toString (p : Path) : String :=
  if p.anchor = "" && p.parts.isEmpty then "." else p.anchor ++ "/".intercalate p.parts

/-- A path seen from another one; an anchored path stands for itself. -/
def join (base p : Path) : Path :=
  if p.anchor = "" then { base with parts := base.parts ++ p.parts } else p

/-- The path without its last component. -/
def parent (p : Path) : Path := { p with parts := p.parts.dropLast }

/-- The last component. -/
def name (p : Path) : String := p.parts.getLast?.getD ""

end Path

end SlideFlow.Files
