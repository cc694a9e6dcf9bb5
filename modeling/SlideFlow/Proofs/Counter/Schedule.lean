/-
The answers of the counter in closed form. The steps of the activities, one activity after the
other, make up a schedule. A session that is new, or was reset just now, is answered with one entry
of the schedule after the other, and behind its end that everything has run, for good
(`executeMany_follows_schedule`). Numbers of steps that are zero or negative stand for activities
without entries, wherever they are.

What carries a run is the rest of the schedule behind a place (`Place.ahead`): each call takes the
first entry off it and stands there (`advance_of_ahead_cons`), or finds nothing left and stands
behind the last activity (`advance_of_ahead_nil`).
-/
import SlideFlow.Proofs.Counter.Run

namespace SlideFlow.Counter

/-! ## The schedule -/

/-- The steps of an activity with so many of them; none if the number is not positive. -/
def activitySteps (activity : Nat) (count : Int) : List Place :=
  (List.range count.toNat).map fun i => { activity, step := (i + 1 : Nat) }

/-- The steps of all activities in order; activities are numbered from one. -/
def schedule (stepCounts : List Int) : List Place :=
  (stepCounts.zipIdx 1).flatMap fun (count, activity) => activitySteps activity count

/-- The steps of an activity behind one of them. -/
def stepsBehind (activity : Nat) (step count : Int) : List Place :=
  (List.range (count - step).toNat).map fun i => { activity, step := step + (i + 1 : Nat) }

/-- The steps behind a step of an activity, in it and in those that follow. The list holds the
numbers of steps from this activity on. -/
def stepsFrom : List Int → Nat → Int → List Place
  | [], _, _ => []
  | count :: rest, activity, step =>
    stepsBehind activity step count ++ stepsFrom rest (activity + 1) 0

/-- What is left of the schedule behind a place. -/
def Place.ahead (stepCounts : List Int) (p : Place) : List Place :=
  stepsFrom (stepCounts.drop (p.activity - 1)) p.activity p.step

theorem stepsFrom_zero (counts : List Int) (first : Nat) :
    stepsFrom counts first 0 =
      (counts.zipIdx first).flatMap fun (count, activity) => activitySteps activity count := by
  induction counts generalizing first with
  | nil => rfl
  | cons count rest ih =>
    rw [stepsFrom, ih, List.zipIdx_cons, List.flatMap_cons]
    simp [stepsBehind, activitySteps]

theorem ahead_start (stepCounts : List Int) : start.ahead stepCounts = schedule stepCounts :=
  stepsFrom_zero stepCounts 1

theorem stepsBehind_of_lt {step count : Int} (h : step < count) (activity : Nat) :
    stepsBehind activity step count =
      { activity, step := step + 1 } :: stepsBehind activity (step + 1) count := by
  have hlength : (count - step).toNat = (count - (step + 1)).toNat + 1 := by omega
  rw [stepsBehind, hlength, List.range_succ_eq_map, List.map_cons, List.map_map]
  refine List.cons_eq_cons.2 ⟨rfl, List.map_congr_left fun i _ => ?_⟩
  simp only [Function.comp_apply, Place.mk.injEq, true_and]
  omega

theorem stepsBehind_of_le {step count : Int} (h : count ≤ step) (activity : Nat) :
    stepsBehind activity step count = [] := by
  rw [stepsBehind, show (count - step).toNat = 0 by omega]
  rfl

/-! ## One call -/

/-- Moving on with nothing left ends behind the last activity. -/
theorem settle_of_stepsFrom_nil {counts : List Int} {activity : Nat} {step : Int}
    (h : stepsFrom counts activity step = []) :
    (settle counts activity (step + 1)).activity = activity + counts.length := by
  induction counts generalizing activity step with
  | nil => rfl
  | cons count rest ih =>
    rw [stepsFrom, List.append_eq_nil_iff] at h
    obtain ⟨hsteps, hrest⟩ := h
    have hle : count < step + 1 := by
      by_contra hlt
      rw [stepsBehind_of_lt (by omega)] at hsteps
      cases hsteps
    rw [settle, if_pos hle, show (1 : Int) = 0 + 1 from rfl, ih hrest, List.length_cons]
    omega

/-- Moving on stands at the first step that is left, and the others stay ahead. -/
theorem settle_of_stepsFrom_cons {counts : List Int} {activity : Nat} {step : Int} {q : Place}
    {later : List Place} (h : stepsFrom counts activity step = q :: later) :
    settle counts activity (step + 1) = q ∧ activity ≤ q.activity ∧
      stepsFrom (counts.drop (q.activity - activity)) q.activity q.step = later := by
  induction counts generalizing activity step with
  | nil => cases h
  | cons count rest ih =>
    rw [stepsFrom] at h
    rw [settle]
    by_cases hlt : step < count
    · -- the activity has one more step
      rw [stepsBehind_of_lt hlt, List.cons_append, List.cons_eq_cons] at h
      obtain ⟨rfl, rfl⟩ := h
      rw [if_neg (by omega)]
      refine ⟨rfl, Nat.le_refl _, ?_⟩
      rw [Nat.sub_self, List.drop_zero, stepsFrom]
    · rw [stepsBehind_of_le (by omega), List.nil_append] at h
      obtain ⟨hq, hle, hlater⟩ := ih h
      rw [if_pos (by omega)]
      refine ⟨hq, by omega, ?_⟩
      rwa [show q.activity - activity = q.activity - (activity + 1) + 1 by omega, List.drop_succ_cons]

theorem ahead_of_finished {stepCounts : List Int} {p : Place} (h : stepCounts.length < p.activity) :
    p.ahead stepCounts = [] := by
  rw [Place.ahead, List.drop_eq_nil_of_le (by omega)]
  rfl

theorem advance_of_finished {stepCounts : List Int} {p : Place}
    (h : stepCounts.length < p.activity) : p.advance stepCounts = p :=
  if_neg (by omega)

theorem advance_of_ahead_nil {stepCounts : List Int} {p : Place} (hpos : 1 ≤ p.activity)
    (h : p.ahead stepCounts = []) : stepCounts.length < (p.advance stepCounts).activity := by
  by_cases hle : p.activity ≤ stepCounts.length
  · rw [Place.advance, if_pos hle, settle_of_stepsFrom_nil h, List.length_drop]
    omega
  · rw [advance_of_finished (by omega)]
    omega

theorem advance_of_ahead_cons {stepCounts : List Int} {p q : Place} {later : List Place}
    (hpos : 1 ≤ p.activity) (h : p.ahead stepCounts = q :: later) :
    p.advance stepCounts = q ∧ 1 ≤ q.activity ∧ q.ahead stepCounts = later := by
  have hle : p.activity ≤ stepCounts.length := by
    by_contra hlt
    rw [ahead_of_finished (by omega)] at h
    cases h
  obtain ⟨hq, hge, hlater⟩ := settle_of_stepsFrom_cons h
  refine ⟨by rw [Place.advance, if_pos hle, hq], by omega, ?_⟩
  rw [List.drop_drop] at hlater
  rwa [Place.ahead, show q.activity - 1 = p.activity - 1 + (q.activity - p.activity) by omega]

/-! ## Runs -/

theorem iterate_of_finished {stepCounts : List Int} {p : Place} (h : stepCounts.length < p.activity)
    (calls : Nat) : (Place.advance stepCounts)^[calls] p = p := by
  induction calls with
  | zero => rfl
  | succ calls ih => rw [Function.iterate_succ_apply, advance_of_finished h, ih]

/-- A run goes along what is left of the schedule, and behind its end it is finished. -/
theorem iterate_of_ahead (stepCounts : List Int) (calls : Nat) {p : Place} (hpos : 1 ≤ p.activity) :
    (∀ q, (p.ahead stepCounts)[calls]? = some q → (Place.advance stepCounts)^[calls + 1] p = q) ∧
    ((p.ahead stepCounts).length ≤ calls →
      stepCounts.length < ((Place.advance stepCounts)^[calls + 1] p).activity) := by
  induction calls generalizing p with
  | zero =>
    cases h : p.ahead stepCounts with
    | nil => exact ⟨nofun, fun _ => advance_of_ahead_nil hpos h⟩
    | cons q later =>
      obtain ⟨hq, -, -⟩ := advance_of_ahead_cons hpos h
      refine ⟨fun q' hq' => ?_, nofun⟩
      cases hq'
      exact hq
  | succ calls ih =>
    rw [Function.iterate_succ_apply]
    cases h : p.ahead stepCounts with
    | nil =>
      have hfinished := advance_of_ahead_nil hpos h
      refine ⟨nofun, fun _ => ?_⟩
      rwa [iterate_of_finished hfinished]
    | cons q later =>
      obtain ⟨hq, hpos', hlater⟩ := advance_of_ahead_cons hpos h
      have := ih hpos'
      rw [hlater] at this
      rw [hq]
      exact ⟨this.1, fun hle => this.2 (Nat.le_of_succ_le_succ hle)⟩

/-- A place of the schedule is a place of an activity. -/
theorem activity_le_of_mem_schedule {stepCounts : List Int} {p : Place}
    (h : p ∈ schedule stepCounts) : p.activity ≤ stepCounts.length := by
  obtain ⟨⟨count, activity⟩, hmem, hp⟩ := List.mem_flatMap.1 h
  obtain ⟨i, -, rfl⟩ := List.mem_map.1 hp
  have := (List.mem_zipIdx hmem).2.1
  simp only at this ⊢
  omega

theorem place_eq_start_of_new {c : Counter} {session : String}
    (h : Ordered.get? session c.sessions = none ∨ ∃ before : Counter, c = before.reset session) :
    c.place session = start := by
  rcases h with h | ⟨before, rfl⟩
  · rw [place, h]
    rfl
  · simp [place, reset]

/-- The closed form of the counter. Whatever the numbers of steps are, the answers to the calls of a
session that is new, or was reset just now, are the entries of the schedule, and behind its end the
pair of the last activity and its last step, with everything finished. -/
theorem executeMany_follows_schedule (c : Counter) (session : String)
    (hnew : Ordered.get? session c.sessions = none ∨ ∃ before : Counter, c = before.reset session)
    (k calls : Nat) (hk : 1 ≤ k) (hcalls : k ≤ calls) :
    (k ≤ (schedule c.stepCounts).length → ∃ p, (schedule c.stepCounts)[k - 1]? = some p ∧
      (c.executeMany calls session).1[k - 1]? =
        some { activity := p.activity, step := p.step, finished := false }) ∧
    ((schedule c.stepCounts).length < k →
      (c.executeMany calls session).1[k - 1]? =
        some { activity := (finishedPair c.stepCounts).1, step := (finishedPair c.stepCounts).2,
               finished := true }) := by
  obtain ⟨i, rfl⟩ := Nat.exists_eq_add_of_le' hk
  have hanswer : (c.executeMany calls session).1[i]? =
      some (responseAt c.stepCounts ((Place.advance c.stepCounts)^[i + 1] start)) := by
    rw [executeMany_eq, List.getElem?_map, List.getElem?_range hcalls, Option.map_some,
      place_advances, place_eq_start_of_new hnew]
  obtain ⟨hstands, hfinishes⟩ := iterate_of_ahead c.stepCounts i (p := start) (Nat.le_refl 1)
  rw [ahead_start] at hstands hfinishes
  rw [Nat.add_sub_cancel, hanswer]
  refine ⟨fun hle => ?_, fun hlt => ?_⟩
  · have hentry := List.getElem?_eq_getElem (l := schedule c.stepCounts) hle
    have hactivity := activity_le_of_mem_schedule (List.mem_of_getElem? hentry)
    refine ⟨_, hentry, ?_⟩
    rw [hstands _ hentry, responseAt, if_neg (by omega)]
  · rw [responseAt, if_pos (hfinishes (by omega))]

/-- Activities without steps stand in front, between the others and at the end. The third call comes
to the only step of the fourth activity, the fourth call finds everything finished. -/
theorem executeMany_follows_schedule_gaps :
    ((ofCounts [0, 2, -1, 1, 0]).executeMany 4 "default").1[2]? = some ⟨4, 1, false⟩ ∧
    (((ofCounts [0, 2, -1, 1, 0]).advance "a").2.reset "a" |>.executeMany 4 "a").1[3]? =
      some ⟨5, 0, true⟩ := by
  refine ⟨?_, ?_⟩
  · obtain ⟨p, hp, h⟩ := (executeMany_follows_schedule (ofCounts [0, 2, -1, 1, 0]) "default"
      (Or.inl rfl) 3 4 (by decide) (by decide)).1 (by decide)
    cases hp
    exact h
  · exact (executeMany_follows_schedule _ "a" (Or.inr ⟨_, rfl⟩) 4 4 (by decide) (by decide)).2
      (by decide)

end SlideFlow.Counter
