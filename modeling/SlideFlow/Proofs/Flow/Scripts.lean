/-
What scripts say. A template that is filled is its pieces one after the other (`Template.fill_eq_join`).
So the script of an answer names the activity and the step that it is given, and otherwise reads them
from the message (`response_eq`), where the script of the counter leaves them (`counter_eq`).
-/
import SlideFlow.Flow.Script
import SlideFlow.Proofs.Json.Line

namespace SlideFlow.Flow

/-! ## Templates -/

/-- What a part of a template becomes. -/
def Piece.filled (value : String → String) : Piece → String
  | .text s => s
  | .hole name => value name

theorem Template.fill_eq_join (value : String → String) (t : Template) :
    t.fill value = String.join (t.map (Piece.filled value)) := by
  induction t with
  | nil => rfl
  | cons piece t ih =>
    rw [List.map_cons, String.join_cons, ← ih]
    cases piece <;> rfl

/-! ## Scripts -/

namespace Script

/-- The script that answers with these three terms. -/
def answering (activity step finished : String) : String :=
  String.join ["msg.payload = \x7b\n",
    "    status: \"Success\",\n",
    "    curr_activity: ", activity, ",\n",
    "    curr_step: ", step, ",\n",
    "    task_finished: ", finished, "\n",
    "\x7d;\n",
    "return msg;"]

theorem fill_responseTemplate (value : String → String) : Template.fill value responseTemplate =
    answering (value "curr_activity") (value "curr_step") (value "task_finished") :=
  Template.fill_eq_join value responseTemplate

/-- An answer holds the numbers that are given, and reads the others from the message. -/
theorem response_eq (activity step : Option Int) (finished : Bool) :
    response activity step finished =
      answering (activity.elim "msg.execution.activity" toString)
        (step.elim "msg.execution.step" toString) (toString finished) := by
  unfold response
  rw [fill_responseTemplate, ← Json.line_bool]
  cases activity <;> cases step <;> rfl

/-- The script that counts over these numbers of steps, goes on in a way that does not depend on them,
and leaves the session, its activity and its step on the message. -/
def counting (body : List String) (counts : List Int) : String :=
  String.join (["const activityCount = ", toString counts.length, ";\n",
    "const stepCounts = ", "[" ++ ", ".intercalate (counts.map toString) ++ "]", ";\n"] ++ body ++
    ["msg.execution = \x7b session: session, activity: state.currentActivity, step: state.currentStep \x7d;\n",
    "return msg;"])

theorem counter_eq (store : String) : ∃ body, ∀ counts, counter counts store = counting body counts := by
  refine ⟨((counterTemplate.drop 6).take 16).map (Piece.filled fun _ => store), fun counts => ?_⟩
  have hcounts : (Json.arr (counts.map .int)).line =
      "[" ++ ", ".intercalate (counts.map toString) ++ "]" := by
    rw [Json.line_arr, List.map_map]
    exact congrArg (fun items => "[" ++ ", ".intercalate items ++ "]")
      (List.map_congr_left fun n _ => Json.line_int n)
  unfold counter counting
  rw [Template.fill_eq_join, ← hcounts]
  rfl

end Script

end SlideFlow.Flow
