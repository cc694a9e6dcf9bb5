/-
Sessions do not interfere. A request reads and moves the place of its own session and leaves the
places of all others as they are (`place_serve`), so of any sequence of requests, in whatever order
the sessions take turns, each session sees what it would see if it were alone
(`answers_of_session`).
-/
import SlideFlow.Counter

namespace SlideFlow.Counter

/-! ## Requests -/

/-- What can be asked of a counter in the name of a session. -/
inductive Request where
  | advance
  | executeNext
  | place
  | isFinished
  | reset
  deriving DecidableEq, Repr

/-- What a request is answered. -/
inductive Answer where
  | place (p : Place)
  | response (r : Response)
  | finished (b : Bool)
  | done
  deriving DecidableEq, Repr

/-- Serves one request of a session. -/
def serve (c : Counter) (session : String) : Request → Answer × Counter
  | .advance => let (p, c) := c.advance session; (.place p, c)
  | .executeNext => let (r, c) := c.executeNext session; (.response r, c)
  | .place => (.place (c.place session), c)
  | .isFinished => (.finished (c.isFinished session), c)
  | .reset => (.done, c.reset session)

/-- Serves requests one after the other, each in the name of a session, and tells the answer to each
of them together with its session. -/
def serveAll : Counter → List (String × Request) → List (String × Answer)
  | _, [] => []
  | c, (session, request) :: rest =>
    let (answer, c) := c.serve session request
    (session, answer) :: serveAll c rest

/-! ## One session -/

/-- The answer to a request of a session that stands at a place. -/
def Request.answerAt (stepCounts : List Int) (p : Place) : Request → Answer
  | .advance => .place (p.advance stepCounts)
  | .executeNext => .response (responseAt stepCounts (p.advance stepCounts))
  | .place => .place p
  | .isFinished => .finished (stepCounts.length < p.activity)
  | .reset => .done

/-- Where a session stands after a request. -/
def Request.move (stepCounts : List Int) (p : Place) : Request → Place
  | .advance => p.advance stepCounts
  | .executeNext => p.advance stepCounts
  | .place => p
  | .isFinished => p
  | .reset => start

/-- The place of its session decides the answer to a request. -/
theorem answer_serve (c : Counter) (session : String) (request : Request) :
    (c.serve session request).1 = request.answerAt c.stepCounts (c.place session) := by
  cases request <;> rfl

theorem stepCounts_serve (c : Counter) (session : String) (request : Request) :
    (c.serve session request).2.stepCounts = c.stepCounts := by
  cases request <;> rfl

/-- A request moves its own session and no other one. -/
theorem place_serve (c : Counter) (session other : String) (request : Request) :
    (c.serve session request).2.place other =
      if session = other then request.move c.stepCounts (c.place session) else c.place other := by
  by_cases h : session = other
  · subst h
    cases request <;> simp [serve, executeNext, advance, reset, place, Request.move]
  · cases request <;> simp [serve, executeNext, advance, reset, place, h]

/-! ## Sequences of requests -/

/-- Two counters at which a session stands at the same place cannot be told apart by this session,
whatever other sessions ask of the first one. -/
theorem filter_serveAll (session : String) (requests : List (String × Request)) {c d : Counter}
    (hcounts : c.stepCounts = d.stepCounts) (hplace : c.place session = d.place session) :
    (c.serveAll requests).filter (·.1 = session) =
      d.serveAll (requests.filter (·.1 = session)) := by
  induction requests generalizing c d with
  | nil => rfl
  | cons r rest ih =>
    obtain ⟨s, request⟩ := r
    by_cases hs : s = session
    · -- both counters serve the request and move the session alike
      subst hs
      have hanswer : (c.serve s request).1 = (d.serve s request).1 := by
        rw [answer_serve, answer_serve, hcounts, hplace]
      have hrest := ih (c := (c.serve s request).2) (d := (d.serve s request).2)
        (by rw [stepCounts_serve, stepCounts_serve, hcounts])
        (by rw [place_serve, place_serve, if_pos rfl, if_pos rfl, hcounts, hplace])
      simp only [serveAll, List.filter_cons, decide_true, if_true, hanswer, hrest]
    · -- the request of another session does not move this one
      have hrest := ih (c := (c.serve s request).2) (d := d)
        (by rw [stepCounts_serve, hcounts])
        (by rw [place_serve, if_neg hs, hplace])
      simp only [serveAll, List.filter_cons, hs, decide_false, Bool.false_eq_true, if_false, hrest]

/-- Whatever a number of sessions ask of a new counter, and in whatever order, the answers to one of
them are the answers that a new counter gives to its requests alone. -/
theorem answers_of_session (stepCounts : List Int) (requests : List (String × Request))
    (session : String) :
    ((ofCounts stepCounts).serveAll requests).filter (·.1 = session) =
      (ofCounts stepCounts).serveAll (requests.filter (·.1 = session)) :=
  filter_serveAll session requests rfl rfl

end SlideFlow.Counter
