/-
Running a command on a tree of files: what it prints, what it reports, how it ends, and the files
afterwards.
-/
import SlideFlow.Command.Basic
import SlideFlow.Compile.Document
import SlideFlow.Files.Deck
import SlideFlow.Files.Write
import SlideFlow.Text.Terminal

namespace SlideFlow.Command

open SlideFlow.Compile SlideFlow.Deck SlideFlow.Files SlideFlow.Ident SlideFlow.Service SlideFlow.Text

variable {σ : Type} [Source σ]

/-- A failure that is not reported but ends the program. -/
inductive Escape where
  | error (why : Error)
  | write (why : WriteFault)
  /-- What is to be printed holds half of a character. -/
  | print

/-- How a command ends. -/
structure Outcome where
  code : Nat
  output : String
  report : String
  escape : Option Escape
  files : Tree

/-- Lines, each with its end. -/
def endLines (lines : List String) : String := String.join (lines.map (· ++ "\n"))

/-- The least rank of events that are reported. -/
def leastRank (settings : Settings) (verbose : Bool) : Nat :=
  if verbose then Level.debug.rank else rankNamed settings.logLevel

/-- The line that reports a failure. -/
def errorLine (message : String) : String := withoutControls s!"error: {message}"

/-- The end of a command that failed: a declared failure is reported. -/
def failure (files : Tree) (report : List String) (e : Error) : Outcome :=
  if e.isDeclared then
    { code := 1, output := "", report := endLines (report ++ [errorLine e.message]),
      escape := none, files }
  else { code := 1, output := "", report := endLines report, escape := some (.error e), files }

/-- The end of a command that prints its result. Nothing is printed of a text that cannot be encoded. -/
def finish (files : Tree) (least : Nat) (run : Logged Error RawText) : Outcome :=
  let report := logLines least run.events
  match run.result with
  | .error e => failure files report e
  | .ok text =>
    match text.encode? with
    | some output => { code := 0, output, report := endLines report, escape := none, files }
    | none => { code := 1, output := "", report := endLines report, escape := some .print, files }

/-- Whether a fault of a write is reported: those of the file system are. -/
def isReported : WriteFault → Bool
  | .nullByte | .unencodable => false
  | _ => true

/-- The end of a command that writes its result to a file. -/
def deliver (files : Tree) (least : Nat) (path : String) (run : Logged Error RawText) : Outcome :=
  let report := logLines least run.events
  match run.result with
  | .error e => failure files report e
  | .ok text =>
    match files.writeText path text with
    | (files, .ok _) =>
      { code := 0, output := "", report := endLines report, escape := none, files }
    | (files, .error fault) =>
      if isReported fault then
        { code := 1, output := "", report := endLines (report ++ [errorLine fault.message]),
          escape := none, files }
      else
        { code := 1, output := "", report := endLines report, escape := some (.write fault), files }

/-- The presentation that a name stands for. -/
def source (files : Tree) (input : Content) (name : String) : Opened :=
  if name = standardStream then input.openDeck else files.openDeck name

/-- The text of the flow of a presentation. -/
def flowText (pools : Int → Pool σ) (settings : Settings) (spare : Int) (files : Tree)
    (services directory : String) (policy : Policy) (seed : Option Int) (document : Opened) :
    Logged Error RawText := do
  let registry ← (Registry.ofFile files services).mapError .registry
  let wishes : Wishes := { directory := some directory, policy := some policy.name, seed }
  let nodes ← compileFrom pools settings wishes spare files registry document
  return (flowJson nodes).page ++ "\n"

/-- The text of the timeline of a presentation. -/
def timelineText (files : Tree) (services : String) (document : Opened) : Logged Error RawText := do
  let registry ← (Registry.ofFile files services).mapError .registry
  let activities ← loadActivities registry (← openDocument document)
  let summaries ← activities.mapM Activity.summary
  return (Json.obj [("activities", .arr summaries)]).page ++ "\n"

/-- The text of the answers to calls. -/
def answersText (calls : Nat) (session : String) (document : Opened) : Logged Error RawText := do
  let activities ← loadActivities .empty (← openDocument document)
  let responses ← Deck.simulate activities calls session
  return endLines (responses.map fun r => r.toJson.line)

/-- Runs a command. -/
def run (platform : Platform σ) (settings : Settings) (spare : Int) (files : Tree) (input : Content) :
    Command → Outcome
  | .compile name output services directory policy seed verbose =>
    let text := flowText platform.pool settings spare files services directory policy seed
      (source files input name)
    let least := leastRank settings verbose
    match output with
    | none => finish files least text
    | some path =>
      if path = standardStream then finish files least text else deliver files least path text
  | .inspect name services verbose =>
    finish files (leastRank settings verbose) (timelineText files services (source files input name))
  | .simulate name calls session =>
    finish files (leastRank settings false) (answersText calls session (source files input name))

/-- Runs a command line. Help ends well, wrong arguments end with the code for them. -/
def runLine (platform : Platform σ) (settings : Settings) (spare : Int) (files : Tree)
    (input : Content) (args : List String) : Outcome :=
  match read platform.integer? settings args with
  | .ok command => run platform settings spare files input command
  | .error .help => { code := 0, output := "", report := "", escape := none, files }
  | .error .usage => { code := 2, output := "", report := "", escape := none, files }

end SlideFlow.Command
