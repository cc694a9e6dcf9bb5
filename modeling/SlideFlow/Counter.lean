/-
The execution counter that a compiled flow runs, as a state machine. Each session stands at a step
of an activity and advances by one step with each call; activities without steps are passed over,
and behind the last activity a session stays where it is.
-/
import SlideFlow.Json.Basic

namespace SlideFlow

namespace Counter

/-- Where a session stands: activities and steps count from one; a new session stands before the
first step of the first activity. -/
structure Place where
  activity : Nat
  step : Int
  deriving DecidableEq, Repr

def start : Place := { activity := 1, step := 0 }

/-- The session that is meant when none is named. -/
def defaultSession : String := "default"

/-- Moves on from activities whose steps are used up. The list holds the numbers of steps from this
activity on. -/
def settle : List Int → Nat → Int → Place
  | [], activity, step => { activity, step }
  | count :: rest, activity, step =>
    if count < step then settle rest (activity + 1) 1 else { activity, step }

/-- The place after one more call. -/
def Place.advance (stepCounts : List Int) (p : Place) : Place :=
  if p.activity ≤ stepCounts.length then
    settle (stepCounts.drop (p.activity - 1)) p.activity (p.step + 1)
  else p

/-- Activity and step that are answered once everything has run: the last of each. -/
def finishedPair (stepCounts : List Int) : Int × Int :=
  match stepCounts.getLast? with
  | none => (0, 0)
  | some last => (stepCounts.length, last)

end Counter

/-- The numbers of steps of the activities, and the sessions that have made a call. -/
structure Counter where
  stepCounts : List Int
  sessions : Ordered String Counter.Place
  deriving Repr

namespace Counter

/-- The answer to a call. -/
structure Response where
  activity : Int
  step : Int
  finished : Bool
  deriving DecidableEq, Repr

def Response.toJson (r : Response) : Json :=
  .obj [
    ("status", .str "Success"),
    ("curr_activity", .int r.activity),
    ("curr_step", .int r.step),
    ("task_finished", .bool r.finished)
  ]

def ofCounts (stepCounts : List Int) : Counter := { stepCounts, sessions := [] }

def activityCount (c : Counter) : Nat := c.stepCounts.length

/-- Where a session stands. -/
def place (c : Counter) (session : String) : Place := (Ordered.get? session c.sessions).getD start

def isFinished (c : Counter) (session : String) : Bool :=
  c.activityCount < (c.place session).activity

/-- One call of a session. -/
def advance (c : Counter) (session : String) : Place × Counter :=
  let p := (c.place session).advance c.stepCounts
  (p, { c with sessions := Ordered.put session p c.sessions })

/-- What is answered at a place. -/
def responseAt (stepCounts : List Int) (p : Place) : Response :=
  if stepCounts.length < p.activity then
    let (activity, step) := finishedPair stepCounts
    { activity, step, finished := true }
  else { activity := p.activity, step := p.step, finished := false }

/-- One call of a session and its answer. -/
def executeNext (c : Counter) (session : String) : Response × Counter :=
  let (p, c) := c.advance session
  (responseAt c.stepCounts p, c)

/-- Several calls of a session and their answers. -/
def executeMany : Nat → Counter → String → List Response × Counter
  | 0, c, _ => ([], c)
  | n + 1, c, session =>
    let (r, c) := c.executeNext session
    let (rs, c) := executeMany n c session
    (r :: rs, c)

/-- Forgets a session, which then is a new one. -/
def reset (c : Counter) (session : String) : Counter :=
  { c with sessions := Ordered.erase session c.sessions }

end Counter

end SlideFlow
