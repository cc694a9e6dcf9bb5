/-
Opening presentations that are kept in files or come as bytes.
-/
import SlideFlow.Files.Tree

namespace SlideFlow.Files

open SlideFlow.Deck

/-- Opens what came as bytes. -/
def Content.openDeck : Content → Opened
  | .deck document => document
  | _ => .error (.unreadable "File is not a zip file")

/-- The list of its parts, without which nothing is a presentation. -/
def partList : String := "/[Content_Types].xml"

/-- Opens the presentation at a path. A directory is taken for a presentation whose parts are files
of their own. -/
def Tree.openDeck (t : Tree) (path : String) : Opened :=
  let nowhere : Opened := .error (.unreadable s!"Package not found at '{path}'")
  if path = "" then nowhere
  else if path.toList.contains '\x00' then .error (.unreadable "embedded null byte")
  else
    match t.at? (Path.ofString path) with
    | some .directory => .error (.missingPart s!"no member '{partList}' in package")
    | some (.file (.deck document)) => if Path.meansDirectory path then nowhere else document
    | _ => nowhere

/-- There are no bytes at all. -/
def Content.isEmpty : Content → Bool
  | .text s => s.isEmpty
  | .binary data => data.isEmpty
  | .deck _ => false

end SlideFlow.Files
