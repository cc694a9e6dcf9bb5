/-
Making directories and writing files. A file is written next to its target under a name that is not
in use and then moved over it, so a write that fails leaves no file behind and changes none: the file
next to the target is taken away if the text does not get into it or if it cannot be moved.
-/
import SlideFlow.Files.Tree
import SlideFlow.Text.Quoted

namespace SlideFlow.Files

open SlideFlow.Text

/-- Why a directory is not made or a file not written. -/
inductive WriteFault where
  | exists (path : String)
  | notDirectory (path : String)
  | isDirectory (path : String)
  | missing (path : String)
  | busy (path : String)
  | nameTooLong (path : String)
  | nullByte
  /-- The text holds half of a character. -/
  | unencodable
  deriving DecidableEq, Repr

def WriteFault.message : WriteFault → String
  | .exists path => s!"[Errno 17] File exists: {quoted path}"
  | .notDirectory path => s!"[Errno 20] Not a directory: {quoted path}"
  | .isDirectory path => s!"[Errno 21] Is a directory: {quoted path}"
  | .missing path => s!"[Errno 2] No such file or directory: {quoted path}"
  | .busy path => s!"[Errno 16] Device or resource busy: {quoted path}"
  | .nameTooLong path => s!"[Errno 36] File name too long: {quoted path}"
  | .nullByte => "embedded null byte"
  | .unencodable => "surrogates not allowed"

namespace Tree

/-- The fault of a path that leads nowhere. -/
def faultOf (p : Path) : Dead → WriteFault
  | .nullByte => .nullByte
  | .nameTooLong => .nameTooLong p.toString
  | .missing => .missing p.toString
  | .notDirectory => .notDirectory p.toString

/-! ## Directories -/

/-- Makes one directory. Its parent has to exist and it must not. -/
def makeDirectory (t : Tree) (p : Path) : Except WriteFault Tree :=
  match t.locate p with
  | .error dead => .error (faultOf p dead)
  | .ok place =>
    match t.get? place with
    | some _ => .error (.exists p.toString)
    | none => .ok (t.put place .directory)

/-- The fault of making a directory is forgiven if one stands there already. -/
def forgive (t : Tree) (p : Path) (fault : WriteFault) : Except WriteFault Unit :=
  if t.leadsToDirectory p then .ok () else .error fault

/-- Makes a directory, given by its components from the last to the first, and those above it that
are missing. -/
def ensureParts (anchor : String) (t : Tree) : List String → Tree × Except WriteFault Unit
  | [] => (t, .ok ())
  | name :: above =>
    let p : Path := { anchor, parts := (name :: above).reverse }
    match t.makeDirectory p with
    | .ok t' => (t', .ok ())
    | .error (.missing _) =>
      match ensureParts anchor t above with
      | (t', .error fault) => (t', .error fault)
      | (t', .ok ()) =>
        match t'.makeDirectory p with
        | .ok t'' => (t'', .ok ())
        | .error fault => (t', t'.forgive p fault)
    | .error fault => (t, t.forgive p fault)

/-- Makes a directory and those above it that are missing; one that exists already is fine. -/
def ensureDirectory (t : Tree) (p : Path) : Tree × Except WriteFault Unit :=
  ensureParts p.anchor t p.parts.reverse

/-! ## Files -/

/-- A name next to a file that no entry of the directory has. -/
def spareName (t : Tree) (directory : Place) (name : String) : String :=
  let candidate (k : Nat) := "." ++ name ++ "." ++ String.ofList (hexPadded 8 k)
  let free := (List.range (t.entries.length + 1)).find? fun k =>
    (t.get? (directory ++ [candidate k])).isNone
  candidate (free.getD 0)

/-- The bytes of the path that leads to a place from the root. -/
def fullPathBytes (t : Tree) (place : Place) : Nat :=
  let names := place.foldl (fun bytes name => bytes + name.utf8ByteSize + 1) 0
  if place.isInside then t.workingPathBytes + names else names

/-- Moves a file over a target in the same directory. A directory is not replaced. -/
def replace (t : Tree) (source target : Place) (shown : String) (content : Content) :
    Except WriteFault Tree :=
  match t.get? target with
  | some .directory => .error (.isDirectory shown)
  | _ => .ok ((t.erase source).put target (.file content))

/-- Writes a text file: first under a spare name beside the target, then moved over it. The spare
file is opened by its full path, so it can be too long where the target itself is not. It is empty until
the text is encoded into it as a whole. -/
def writeVia (spareFor : Tree → Place → String → String) (t : Tree) (path : String) (text : RawText) :
    Tree × Except WriteFault Path :=
  let p := Path.ofString path
  match t.ensureDirectory p.parent with
  | (t, .error fault) => (t, .error fault)
  | (t, .ok ()) =>
    match t.locate p.parent with
    | .error _ => (t, .error (.missing p.toString))
    | .ok directory =>
      let spare := spareFor t directory p.name
      let source := directory ++ [spare]
      if p.name.toList.contains '\x00' then (t, .error .nullByte)
      else if spare.utf8ByteSize > maxNameBytes || t.fullPathBytes source > maxPathBytes then
        (t, .error (.nameTooLong p.toString))
      else
        let opened := t.put source (.file (.text ""))
        match text.encode? with
        | none => (opened.erase source, .error .unencodable)
        | some encoded =>
          let content := Content.text encoded
          let written := opened.put source (.file content)
          if p.toString.utf8ByteSize > maxPathBytes then
            (written.erase source, .error (.nameTooLong p.toString))
          else if p.name = "" || p.name = ".." then
            (written.erase source, .error (.busy p.toString))
          else
            match written.replace source (directory ++ [p.name]) p.toString content with
            | .ok t' => (t', .ok p)
            | .error fault => (written.erase source, .error fault)

/-- Writes a text file by way of the first spare name that is free. -/
def writeText (t : Tree) (path : String) (text : RawText) : Tree × Except WriteFault Path :=
  t.writeVia spareName path text

/-! ## Single entries -/

/-- Opens a file and writes a content into it. -/
def putFile (t : Tree) (p : Path) (content : Content) : Tree × Except WriteFault Unit :=
  match t.locate p with
  | .error dead => (t, .error (faultOf p dead))
  | .ok place =>
    if t.isDirectory place then (t, .error (.isDirectory p.toString))
    else (t.put place (.file content), .ok ())

/-- Stores an entry in place. The directories above it that are missing are made first, each one as
the path names it: on the way to `x/../y` that is also `x`. -/
def store (t : Tree) (p : Path) (e : Entry) : Tree × Except WriteFault Unit :=
  match t.ensureDirectory p.parent with
  | (t, .error fault) => (t, .error fault)
  | (t, .ok ()) =>
    match e with
    | .directory => t.ensureDirectory p
    | .file content => t.putFile p content

/-- Takes away a file. -/
def remove (t : Tree) (p : Path) : Tree × Except WriteFault Unit :=
  match t.locate p with
  | .error dead => (t, .error (faultOf p dead))
  | .ok place =>
    match t.get? place with
    | none => (t, .error (.missing p.toString))
    | some .directory => (t, .error (.isDirectory p.toString))
    | some (.file _) => (t.erase place, .ok ())

end Tree

end SlideFlow.Files
