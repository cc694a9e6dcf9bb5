/-
From an opened document to its flow, under settings of which a caller may replace some.
-/
import SlideFlow.Compile.Basic
import SlideFlow.Deck.Slides
import SlideFlow.Settings.Basic

namespace SlideFlow.Compile

open SlideFlow.Deck SlideFlow.Files SlideFlow.Flow SlideFlow.Ident SlideFlow.Service

/-- What a caller asks for in place of the settings. An empty text asks for nothing. -/
structure Wishes where
  directory : Option String
  policy : Option String
  seed : Option Int
  deriving Repr

/-- A text that is asked for, or else the one of the settings. -/
def wished (asked : Option String) (setting : String) : String :=
  (asked.filter (· ≠ "")).getD setting

/-- The nodes of the flow of a document, with identifiers from the pools of seeds. `spare` is the seed
for when none is given. The policy is judged before the document is opened. -/
def compileFrom {σ : Type} [Source σ] (pools : Int → Pool σ) (settings : Settings) (wishes : Wishes)
    (spare : Int) (files : Tree) (registry : Registry) (document : Opened) :
    Logged Error (List (Node String)) := do
  let options ← Logged.ofExcept (Options.make (wished wishes.directory settings.fragmentsDirectory)
    settings.route settings.method (wished wishes.policy settings.policy.name))
  let activities ← loadActivities registry (← openDocument document)
  let seed := (wishes.seed.or settings.seed).getD spare
  compile options files (pools seed) activities

/-- The nodes of the flow of a document. -/
def compileDocument (settings : Settings) (wishes : Wishes) (spare : Int) (files : Tree)
    (registry : Registry) (document : Opened) : Logged Error (List (Node String)) :=
  compileFrom Pool.ofSeed settings wishes spare files registry document

/-- The written form of a flow. -/
def flowJson (nodes : List (Node String)) : Json := .arr (nodes.map Node.toJson)

end SlideFlow.Compile
