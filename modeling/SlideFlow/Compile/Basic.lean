/-
Compiling activities into the nodes of a flow: the plan is made, and the flow is assembled from it.
-/
import SlideFlow.Compile.Assembly
import SlideFlow.Text.Case

namespace SlideFlow.Compile

open SlideFlow.Deck SlideFlow.Files SlideFlow.Flow SlideFlow.Ident SlideFlow.Text

/-- What shapes a flow beside the activities. -/
structure Options where
  directory : String
  route : String
  /-- The method of requests, in lower case. -/
  method : String
  policy : Policy

namespace Options

/-- Options with a policy given by name. -/
def make (directory route method policy : String) : Except Error Options :=
  match Policy.ofName? policy with
  | none => .error (.policy policy)
  | some policy => .ok { directory, route, method := lower method, policy }

end Options

/-- The nodes of the flow of some activities. -/
def compile {σ : Type} [Source σ] (options : Options) (files : Tree) (pool : Pool σ)
    (activities : List Activity) : Logged Error (List (Node String)) := do
  let lib : Library := { files, directory := options.directory, policy := options.policy }
  let plan ← lib.plan activities
  let nodes ← Logged.ofExcept ((assemble options.route options.method pool plan).mapError .flow)
  Logged.report [.nodesFlushed nodes.length, .compiled activities.length nodes.length]
  return nodes

end SlideFlow.Compile
