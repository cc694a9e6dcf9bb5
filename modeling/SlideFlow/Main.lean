/-
The command line. The files that a command can touch are taken into a tree, the command runs on the
tree, and what it changed is written back. A presentation is read in its JSON form: the element
trees and titles of its slides.
-/
import SlideFlow.Command.Run
import SlideFlow.Deck.Exchange

namespace SlideFlow.Main

open SlideFlow.Deck SlideFlow.Files SlideFlow.Service SlideFlow.Text

/-! ## Reading -/

/-- What stands at a path. Whatever exists and cannot be read as a file counts as a directory. -/
def probe (path : String) : IO (Option Entry) := do
  try
    return some (.file (.binary (← IO.FS.readBinFile path)))
  catch e =>
    match e with
    | .noFileOrDirectory .. => return none
    | _ => return some .directory

/-- The paths that lead to a path, itself last. -/
def onTheWay (p : Path) : List Path :=
  (List.range p.parts.length).map fun k => { p with parts := p.parts.take (k + 1) }

/-- Takes a path and all directories on the way to it into a tree. What is there already stays as it
was taken. -/
def take (t : Tree) (path : String) : IO Tree := do
  let mut t := t
  for p in onTheWay (Path.ofString path) do
    if t.leadsToDirectory p.parent && (t.at? p).isNone && !p.name.toList.contains '\x00' then
      if let some e ← probe p.toString then
        t := t.put p.place e
  return t

/-- A content that holds the JSON form of a presentation is taken as that presentation. -/
def asDeck (content : Content) : Content :=
  match content.decode? with
  | none => content
  | some text =>
    match Json.read text with
    | .error _ => content
    | .ok v =>
      match Document.ofJson? v with
      | some document => .deck (.ok document)
      | none => content

/-- Takes the presentation at a path into a tree. -/
def takeDeck (t : Tree) (path : String) : IO Tree := do
  let t ← take t path
  let p := Path.ofString path
  match t.file? p with
  | some content => return t.put p.place (.file (asDeck content))
  | none => return t

/-- Takes the fragments of all registered services into a tree. -/
def takeFragments (t : Tree) (services directory : String) : IO Tree := do
  let names := (Registry.empty.loadFile t services).1.names
  let paths := (names.filterMap RawText.encode?).flatMap fun name =>
    [Fragment.Role.activation, .deactivation].map (Fragment.location directory name)
  paths.foldlM (fun t p => take t p.toString) t

/-- A tree into which nothing is taken yet. -/
def workingTree : IO Tree := do
  return { Tree.empty with workingPathBytes := (← IO.currentDir).toString.utf8ByteSize }

/-- Everything that a command can touch. -/
def takeFor (settings : Settings) (command : Command) : IO Tree := do
  let t ← workingTree
  match command with
  | .compile input output services directory _ _ _ =>
    let t ← takeDeck (← take t services) input
    let t ← takeFragments t services (Compile.wished (some directory) settings.fragmentsDirectory)
    output.toList.foldlM take t
  | .inspect input services _ => takeDeck (← take t services) input
  | .simulate input _ _ => takeDeck t input

/-- The settings from the environment and the file of assignments. -/
def readSettings : IO (Except Settings.Fault Settings) := do
  let names := Settings.fieldNames.flatMap Settings.givenNames
  let mut environment := []
  for name in names.map String.toUpper ++ names do
    if let some value ← IO.getEnv name then
      environment := environment ++ [(name, value)]
  return Settings.load environment (← take Tree.empty Settings.fileName)

/-! ## Writing -/

/-- Writes a text next to its target and moves it there. -/
def writeFile (path text : String) : IO Unit := do
  let spare := path ++ ".part"
  IO.FS.writeFile spare text
  IO.FS.rename spare path

/-- Makes the directories that a command made, and writes the file it wrote. -/
def writeBack (before after : Tree) (output : Option String) (done : Bool) : IO Unit := do
  if let some path := output then
    let p := Path.ofString path
    for d in onTheWay p.parent do
      if after.leadsToDirectory d && !before.leadsToDirectory d then
        IO.FS.createDirAll d.toString
    if done then
      if let some (.text text) := after.file? p then writeFile p.toString text

/-- Reads standard input to its end. -/
partial def readAll (h : IO.FS.Stream) (read : ByteArray) : IO ByteArray := do
  let more ← h.read 65536
  if more.isEmpty then return read else readAll h (read ++ more)

/-- The name that a command reads from. -/
def inputOf : Command → String
  | .compile input .. => input
  | .inspect input .. => input
  | .simulate input .. => input

/-- The file that a command writes to. -/
def outputOf : Command → Option String
  | .compile _ output .. => output.filter (· ≠ Command.standardStream)
  | _ => none

/-- What is said about a failure that is not reported. -/
def escapeText : Command.Escape → String
  | .error e => e.message
  | .write e => e.message
  | .print => WriteFault.unencodable.message

/-- Runs a command and prints what it prints. -/
def perform (settings : Settings) (command : Command) : IO UInt32 := do
  let files ← takeFor settings command
  let input ←
    if inputOf command = Command.standardStream then readAll (← IO.getStdin) .empty
    else pure .empty
  let spare : Nat := (← IO.getRandomBytes 8).toList.foldl (fun n b => n * 256 + b.toNat) 0
  let outcome := Command.run .standard settings spare files (asDeck (.binary input)) command
  writeBack files outcome.files (outputOf command) (outcome.code = 0)
  IO.print outcome.output
  IO.eprint outcome.report
  if let some escape := outcome.escape then IO.eprintln (escapeText escape)
  return outcome.code.toUInt32

def usage : String := String.intercalate "\n" [
  "compile [INPUT] [OUTPUT] [--services FILE] [--fragments-dir DIR] [--policy per_branch|per_step]",
  "        [--seed N] [--verbose]",
  "inspect INPUT [--services FILE] [--verbose]",
  "simulate INPUT [--calls N] [--session NAME]"
]

end SlideFlow.Main

open SlideFlow SlideFlow.Main in
def main (args : List String) : IO UInt32 := do
  match ← readSettings with
  | .error _ =>
    IO.eprintln "error: settings are not valid"
    return 1
  | .ok settings =>
    match Command.read Command.Platform.standard.integer? settings args with
    | .ok command => perform settings command
    | .error .help =>
      IO.println usage
      return 0
    | .error .usage =>
      IO.eprintln usage
      return 2
