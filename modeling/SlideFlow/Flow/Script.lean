/-
The JavaScript bodies of the generated function nodes. A body is a template: text with named places
that are filled with literals.
-/
import SlideFlow.Json.Writer

namespace SlideFlow.Flow

/-! ## Templates -/

/-- A part of a template: fixed text, or a place with a name. -/
inductive Piece where
  | text (s : String)
  | hole (name : String)
  deriving DecidableEq, Repr

/-- Text with named places. -/
abbrev Template := List Piece

namespace Template

/-- The text of a template with each place filled. What is filled in is not looked at again. -/
def fill (value : String → String) : Template → String
  | [] => ""
  | .text s :: rest => s ++ fill value rest
  | .hole name :: rest => value name ++ fill value rest

/-- The names of the places, sorted, each once. -/
def fields (t : Template) : List String :=
  let names := t.filterMap fun
    | .hole name => some name
    | .text _ => none
  names.eraseDups.mergeSort fun a b => !decide (b < a)

end Template

/-- Advances a session's activity and step, and puts both on the message. -/
def counterTemplate : Template := [
  .text "const activityCount = ", .hole "activity_count", .text ";\n",
  .text "const stepCounts = ", .hole "step_counts", .text ";\n",
  .text "const session = String((msg.payload && msg.payload.session) || (msg.req && msg.req.query && msg.req.query.session) || \"default\");\n",
  .text "const sessions = flow.get(\"", .hole "store_key", .text "\") || \x7b\x7d;\n",
  .text "const state = sessions[session] || \x7b currentActivity: 1, currentStep: 0 \x7d;\n",
  .text "if (state.currentActivity <= activityCount) \x7b\n",
  .text "    state.currentStep += 1;\n",
  .text "    while (state.currentActivity <= activityCount && state.currentStep > stepCounts[state.currentActivity - 1]) \x7b\n",
  .text "        state.currentActivity += 1;\n",
  .text "        state.currentStep = 1;\n",
  .text "    \x7d\n",
  .text "\x7d\n",
  .text "sessions[session] = state;\n",
  .text "flow.set(\"", .hole "store_key", .text "\", sessions);\n",
  .text "msg.execution = \x7b session: session, activity: state.currentActivity, step: state.currentStep \x7d;\n",
  .text "return msg;"
]

/-- Answers a request. -/
def responseTemplate : Template := [
  .text "msg.payload = \x7b\n",
  .text "    status: \"Success\",\n",
  .text "    curr_activity: ", .hole "curr_activity", .text ",\n",
  .text "    curr_step: ", .hole "curr_step", .text ",\n",
  .text "    task_finished: ", .hole "task_finished", .text "\n",
  .text "\x7d;\n",
  .text "return msg;"
]

/-- Marks a message with the branch that it comes from. -/
def topicTemplate : Template := [
  .text "msg.topic = ", .hole "topic", .text ";\n",
  .text "return msg;"
]

/-- Sends a copy of the message to each branch. -/
def fanOutTemplate : Template := [
  .text "const branches = ", .hole "branches", .text ";\n",
  .text "const out = [msg];\n",
  .text "for (let i = 1; i < branches; i++) \x7b\n",
  .text "    out.push(RED.util.cloneMessage(msg));\n",
  .text "\x7d\n",
  .text "return out;"
]

/-- Waits for one message of each branch, then lets the first pass. -/
def joinTemplate : Template := [
  .text "const topics = ", .hole "topics", .text ";\n",
  .text "if (topics.length === 0) \x7b\n",
  .text "    return msg;\n",
  .text "\x7d\n",
  .text "const key = \"barrier:\" + ((msg.execution && msg.execution.session) || \"default\");\n",
  .text "let barrier = context.get(key);\n",
  .text "if (!barrier) \x7b\n",
  .text "    barrier = \x7b pending: \x7b\x7d \x7d;\n",
  .text "    const waits = topics.map(function (topic) \x7b\n",
  .text "        return new Promise(function (resolve) \x7b\n",
  .text "            (barrier.pending[topic] = barrier.pending[topic] || []).push(resolve);\n",
  .text "        \x7d);\n",
  .text "    \x7d);\n",
  .text "    context.set(key, barrier);\n",
  .text "    Promise.all(waits).then(function (msgs) \x7b\n",
  .text "        context.set(key, undefined);\n",
  .text "        node.send(msgs[0]);\n",
  .text "    \x7d);\n",
  .text "\x7d\n",
  .text "const queue = barrier.pending[msg.topic];\n",
  .text "if (queue && queue.length) \x7b\n",
  .text "    queue.shift()(msg);\n",
  .text "\x7d else \x7b\n",
  .text "    node.warn(\"Unexpected topic at barrier: \" + msg.topic);\n",
  .text "\x7d\n",
  .text "return null;"
]

/-- The templates by name. -/
def templates : List (String × Template) := [
  ("counter", counterTemplate), ("response", responseTemplate), ("topic", topicTemplate),
  ("fan_out", fanOutTemplate), ("join", joinTemplate)
]

/-! ## Scripts -/

namespace Script

/-- Hands the message on. -/
def passThrough : String := "return msg;"

/-- Where the sessions are kept unless another place is named. -/
def sessionStore : String := "executionSessions"

/-- The counter over activities with these numbers of steps. -/
def counter (stepCounts : List Int) (store : String) : String :=
  let value : String → String
    | "activity_count" => toString stepCounts.length
    | "step_counts" => (Json.arr (stepCounts.map .int)).line
    | "store_key" => store
    | _ => ""
  Template.fill value counterTemplate

/-- The answer to a request. A number that is not given is read from the message. -/
def response (activity step : Option Int) (finished : Bool) : String :=
  let value : String → String
    | "curr_activity" => (activity.map toString).getD "msg.execution.activity"
    | "curr_step" => (step.map toString).getD "msg.execution.step"
    | "task_finished" => (Json.bool finished).line
    | _ => ""
  Template.fill value responseTemplate

/-- The mark of a branch. -/
def topic (name : String) : String :=
  Template.fill (fun _ => (Json.str name).line) topicTemplate

/-- The fan-out to a number of branches; one branch needs no copies. -/
def fanOut (branches : Int) : String :=
  if branches ≤ 1 then passThrough
  else Template.fill (fun _ => toString branches) fanOutTemplate

/-- The barrier that waits for these branches. -/
def join (topics : List String) : String :=
  Template.fill (fun _ => (Json.arr (topics.map fun (name : String) => .str name)).line) joinTemplate

end Script

end SlideFlow.Flow
