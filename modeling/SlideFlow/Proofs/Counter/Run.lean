/-
Runs of the counter. A session moves by itself, whatever the other sessions do, so a run is the
iteration of one step (`place_advances`). After the first call a session stands at a step that the
activity has, or behind the last activity (`Settled`), and it stays so (`settled_iterate`).
-/
import SlideFlow.Counter
import Mathlib.Logic.Function.Iterate

namespace SlideFlow.Counter

/-! ## Where a session stands after some calls -/

/-- The counter after a number of calls of a session. -/
def advances (session : String) (calls : Nat) (c : Counter) : Counter :=
  (fun c => (c.advance session).2)^[calls] c

theorem place_advance (c : Counter) (session : String) :
    (c.advance session).2.place session = (c.place session).advance c.stepCounts := by
  simp [place, advance]

theorem advances_succ (session : String) (calls : Nat) (c : Counter) :
    c.advances session (calls + 1) = ((c.advances session calls).advance session).2 :=
  Function.iterate_succ_apply' _ _ _

theorem stepCounts_advances (session : String) (calls : Nat) (c : Counter) :
    (c.advances session calls).stepCounts = c.stepCounts := by
  induction calls with
  | zero => rfl
  | succ calls ih => rw [advances_succ, ← ih]; rfl

theorem place_advances (session : String) (calls : Nat) (c : Counter) :
    (c.advances session calls).place session =
      (Place.advance c.stepCounts)^[calls] (c.place session) := by
  induction calls with
  | zero => rfl
  | succ calls ih =>
    rw [advances_succ, place_advance, ih, stepCounts_advances, Function.iterate_succ_apply']

/-- The answers to several calls are those at the places that the session comes to. -/
theorem executeMany_eq (session : String) (calls : Nat) (c : Counter) :
    (c.executeMany calls session).1 = (List.range calls).map fun i =>
      responseAt c.stepCounts ((c.advances session (i + 1)).place session) := by
  induction calls generalizing c with
  | zero => rfl
  | succ calls ih =>
    have hfirst : (c.executeMany (calls + 1) session).1 =
        responseAt c.stepCounts ((c.place session).advance c.stepCounts) ::
          ((c.advance session).2.executeMany calls session).1 := rfl
    rw [hfirst, ih, List.range_succ_eq_map, List.map_cons, List.map_map]
    refine List.cons_eq_cons.2 ⟨by rw [place_advances]; rfl, List.map_congr_left fun i _ => ?_⟩
    rw [Function.comp_apply, place_advances, place_advances, place_advance,
      Function.iterate_succ_apply _ (i + 1)]
    rfl

/-! ## Settled places -/

/-- A session stands at a step of an activity that has so many steps, or behind the last one. -/
structure Settled (stepCounts : List Int) (p : Place) : Prop where
  activity_pos : 1 ≤ p.activity
  activity_le : p.activity ≤ stepCounts.length + 1
  step : p.activity ≤ stepCounts.length →
    ∃ count, stepCounts[p.activity - 1]? = some count ∧ 1 ≤ p.step ∧ p.step ≤ count

/-- Moving on ends at a step that is there, or behind the activities that are left. -/
theorem settle_spec : ∀ (counts : List Int) (activity : Nat) (step : Int), 1 ≤ step →
    activity ≤ (settle counts activity step).activity ∧
    (settle counts activity step).activity ≤ activity + counts.length ∧
    ((settle counts activity step).activity < activity + counts.length →
      ∃ count, counts[(settle counts activity step).activity - activity]? = some count ∧
        1 ≤ (settle counts activity step).step ∧ (settle counts activity step).step ≤ count)
  | [], activity, step, _ => ⟨Nat.le_refl _, Nat.le_refl _, fun h => absurd h (Nat.lt_irrefl _)⟩
  | count :: rest, activity, step, hstep => by
    rw [settle]
    split
    · -- the steps of this activity are used up
      obtain ⟨hge, hle, hcount⟩ := settle_spec rest (activity + 1) 1 (Int.le_refl _)
      refine ⟨by omega, by simp only [List.length_cons]; omega, fun hlt => ?_⟩
      obtain ⟨n, hn, hbounds⟩ := hcount (by simp only [List.length_cons] at hlt; omega)
      refine ⟨n, ?_, hbounds⟩
      rw [show (settle rest (activity + 1) 1).activity - activity =
        (settle rest (activity + 1) 1).activity - (activity + 1) + 1 by omega]
      exact hn
    · rename_i hle
      refine ⟨Nat.le_refl _, by simp only [List.length_cons]; omega, fun _ => ⟨count, ?_, hstep, ?_⟩⟩
      · simp
      · exact Int.not_lt.1 hle

/-- One call settles a session that stands before or at a step, or behind the last activity. -/
theorem settled_advance {stepCounts : List Int} {p : Place} (hpos : 1 ≤ p.activity)
    (hle : p.activity ≤ stepCounts.length + 1)
    (hstep : p.activity ≤ stepCounts.length → 0 ≤ p.step) :
    Settled stepCounts (p.advance stepCounts) := by
  unfold Place.advance
  split
  · -- activities are counted from the one where the session stands
    rename_i hactivity
    have hstep := hstep hactivity
    obtain ⟨hge, hle', hcount⟩ := settle_spec (stepCounts.drop (p.activity - 1)) p.activity
      (p.step + 1) (by omega)
    rw [List.length_drop] at hle' hcount
    refine ⟨by omega, by omega, fun hlt => ?_⟩
    obtain ⟨count, hn, hbounds⟩ := hcount (by omega)
    refine ⟨count, ?_, hbounds⟩
    rw [List.getElem?_drop] at hn
    rw [← hn]
    congr 1
    omega
  · rename_i hactivity
    exact ⟨hpos, hle, fun h => absurd h hactivity⟩

/-- After its first call a session is settled for good. -/
theorem settled_iterate (stepCounts : List Int) (calls : Nat) :
    Settled stepCounts ((Place.advance stepCounts)^[calls + 1] start) := by
  induction calls with
  | zero => exact settled_advance (Nat.le_refl _) (by simp [start]) fun _ => Int.le_refl _
  | succ calls ih =>
    rw [Function.iterate_succ_apply']
    refine settled_advance ih.activity_pos ih.activity_le fun h => ?_
    obtain ⟨_, -, hpos, -⟩ := ih.step h
    omega

end SlideFlow.Counter
