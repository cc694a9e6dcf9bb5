/-
Which documents fail in a way that is not declared. The number of a shape and the times of a
transition are converted where a text only shows digits or holds an offset; a text that passes that
test need not be a number, and an offset need not be a time. A slide is legible if the conversions
have what they need. Documents fail in an undeclared way exactly if some slide is not legible
(`undeclared_failure_iff`), and then already when their activities are loaded, so for all uses alike.
-/
import SlideFlow.Compile.Document
import SlideFlow.Proofs.Compile.Outcome
import SlideFlow.Proofs.Number.Decimal

namespace SlideFlow.Timeline

open SlideFlow.Markup SlideFlow.Number SlideFlow.Text

/-! ## Times -/

/-- An offset in the text, if there is one, is short enough to be a time. -/
def Tellable (text : String) : Prop :=
  ∀ o, findOffset? (compact text.toList) = some o →
    ∃ micros, (o.number * o.unit.seconds * .ofNat 1000000).round? = some micros ∧
      micros / 1000 ≤ maxMillis

theorem Offset.exists_millis_iff (o : Offset) :
    (∃ millis, o.millis? = some millis) ↔
      ∃ micros, (o.number * o.unit.seconds * .ofNat 1000000).round? = some micros ∧
        micros / 1000 ≤ maxMillis := by
  unfold millis?
  cases (o.number * o.unit.seconds * .ofNat 1000000).round? with
  | none => simp
  | some micros => simp

theorem readOffset_eq_ok_iff (text : String) : (∃ t, readOffset text = .ok t) ↔ Tellable text := by
  unfold readOffset Tellable
  cases hfind : findOffset? (compact text.toList) with
  | none => simp
  | some o =>
    simp only [Option.some.injEq, forall_eq', ← o.exists_millis_iff]
    cases o.millis? <;> simp

/-- The times of a transition can be told: an offset as its duration is no longer than a time may be,
and what shows digits as the time to advance after is a numeral. -/
structure Transition.Legible (e : Element) : Prop where
  duration : ∀ raw, e.attr? "dur" = some raw →
    Tellable (if allShowDigits raw then raw ++ "ms" else raw)
  advance : ∀ raw, e.attr? "advTm" = some raw → allShowDigits raw = true → Numeral raw

theorem Transition.readDuration_eq_ok_iff (raw : Option String) :
    (∃ t, readDuration raw = .ok t) ↔
      ∀ text, raw = some text → Tellable (if allShowDigits text then text ++ "ms" else text) := by
  cases raw with
  | none => simp [readDuration]
  | some text => simp [readDuration, readOffset_eq_ok_iff]

theorem Transition.readAdvance_eq_ok_iff (raw : Option String) :
    (∃ t, readAdvance raw = .ok t) ↔
      ∀ text, raw = some text → allShowDigits text = true → Numeral text := by
  cases raw with
  | none => simp [readAdvance]
  | some text =>
    simp only [readAdvance, Option.some.injEq, forall_eq']
    by_cases hshow : allShowDigits text = true
    · rw [if_pos hshow, ← readInteger_eq_ok_iff hshow]
      cases readInteger text <;> simp [hshow, Except.map]
    · rw [if_neg hshow]
      simp [hshow]

theorem Transition.read_eq_ok_iff (e : Element) : (∃ t, read e = .ok t) ↔ Legible e := by
  have hparts : (∃ t, read e = .ok t) ↔ (∃ t, readDuration (e.attr? "dur") = .ok t) ∧
      ∃ t, readAdvance (e.attr? "advTm") = .ok t := by
    unfold read
    cases readDuration (e.attr? "dur") with
    | error why => simp [bind, Except.bind, Except.mapError]
    | ok duration =>
      cases readAdvance (e.attr? "advTm") <;> simp [bind, Except.bind, Except.mapError]
  rw [hparts, readDuration_eq_ok_iff, readAdvance_eq_ok_iff]
  exact ⟨fun h => ⟨h.1, h.2⟩, fun h => ⟨h.duration, h.advance⟩⟩

end SlideFlow.Timeline

namespace SlideFlow.Deck

open SlideFlow.Compile SlideFlow.Files SlideFlow.Markup SlideFlow.Number SlideFlow.Service
open SlideFlow.Text SlideFlow.Timeline

/-! ## Slides -/

/-- The numbers of a slide can be read: what shows digits as the number of a shape is a numeral, and
its transition is legible. -/
structure Slide.Legible (s : Slide) : Prop where
  shapes : ∀ e ∈ s.element.nodesTagged (fullName "p:cNvPr"), ∀ raw, e.exactAttr? "id" = some raw →
    allShowDigits raw = true → Numeral raw
  transition : ∀ e, firstTagged? s.element "p:transition" = some e → Transition.Legible e

theorem declared_eq_ok_iff (slide : Element) :
    (∃ found, declared slide = .ok found) ↔ ∀ e ∈ slide.nodesTagged (fullName "p:cNvPr"),
      ∀ raw, e.exactAttr? "id" = some raw → allShowDigits raw = true → Numeral raw := by
  have hnumber : ∀ (number : String) (name : Option String),
      failure? (do return (← readInteger number, name)) = failure? (readInteger number) :=
    fun number name => failure?_bind_pure (readInteger number) fun n => (n, name)
  -- what is declared plays no part, only the numbers are converted
  unfold declared
  rw [← failure?_eq_none_iff, failure?_bind_pure, failure?_mapM, List.findSome?_eq_none_iff]
  constructor
  · intro h e he raw hraw hshow
    have hnone := h (raw, declaration e) (List.mem_filterMap.2 ⟨e, he, by
      rw [shapeNumber?, hraw, Option.filter_some_pos hshow]
      rfl⟩)
    simp only [hnumber, failure?_eq_none_iff] at hnone
    exact (readInteger_eq_ok_iff hshow).1 hnone
  · intro h p hp
    obtain ⟨e, he, hp⟩ := List.mem_filterMap.1 hp
    obtain ⟨raw, hraw, rfl⟩ := Option.map_eq_some_iff.1 hp
    obtain ⟨hraw, hshow⟩ := Option.filter_eq_some_iff.1 hraw
    simp only [hnumber, failure?_eq_none_iff]
    exact (readInteger_eq_ok_iff hshow).2 (h e he raw hraw hshow)

/-- A slide fails for the number of a shape, and else for its transition. -/
theorem Slide.failure?_activity (registry : Registry) (index : Nat) (s : Slide) :
    failure? (s.activity registry index).result =
      ((failure? (declared s.element)).map Error.shapeNumber).or
        ((failure? ((firstTagged? s.element "p:transition").mapM Transition.read)).map
          Error.transition) := by
  unfold activity Activity.ofElements
  simp only [Logged.result_bind, Logged.result_ofExcept, Logged.result_report, Logged.result_pure]
  cases declared s.element with
  | error why => rfl
  | ok found =>
    cases (firstTagged? s.element "p:transition").mapM Transition.read <;> rfl

theorem Slide.activity_eq_ok_iff (registry : Registry) (index : Nat) (s : Slide) :
    (∃ a, (s.activity registry index).result = .ok a) ↔ s.Legible := by
  have htransition : (∃ t, (firstTagged? s.element "p:transition").mapM Transition.read = .ok t) ↔
      ∀ e, firstTagged? s.element "p:transition" = some e → Transition.Legible e := by
    cases firstTagged? s.element "p:transition" with
    | none => simp [pure, Except.pure]
    | some e =>
      simp only [Option.some.injEq, forall_eq', ← Transition.read_eq_ok_iff]
      show (∃ t, (some <$> Transition.read e) = .ok t) ↔ _
      cases Transition.read e <;> simp [Functor.map, Except.map]
  rw [← failure?_eq_none_iff, s.failure?_activity, Option.or_eq_none_iff, Option.map_eq_none_iff,
    Option.map_eq_none_iff, failure?_eq_none_iff, failure?_eq_none_iff, declared_eq_ok_iff,
    htransition]
  exact ⟨fun h => ⟨h.1, h.2⟩, fun h => ⟨h.shapes, h.transition⟩⟩

/-! ## Undeclared failures -/

/-- A failure that is not declared. That identifiers run out is not counted among them: a pool goes on
drawing where it may. -/
def Undeclared (e : Error) : Prop := e.isDeclared = false ∧ e ≠ .flow .exhausted

/-- A computation fails in a way that is not declared. -/
def FailsUndeclared {α : Type} (x : Except Error α) : Prop := ∃ e, failure? x = some e ∧ Undeclared e

theorem undeclared_of_activity {registry : Registry} {index : Nat} {s : Slide} {e : Error}
    (h : failure? (s.activity registry index).result = some e) : Undeclared e := by
  rw [s.failure?_activity] at h
  rcases Option.or_eq_some_iff.1 h with h | ⟨-, h⟩
  · obtain ⟨why, -, rfl⟩ := Option.map_eq_some_iff.1 h
    exact ⟨rfl, by simp⟩
  · obtain ⟨why, -, rfl⟩ := Option.map_eq_some_iff.1 h
    exact ⟨rfl, by simp⟩

theorem failure?_loadActivities (registry : Registry) (d : Document) :
    failure? (loadActivities registry d).result =
      (slideActivities registry d).findSome? fun a => failure? a.result := by
  rw [loadActivities, Logged.result_mapM, failure?_mapM]

/-- Activities are loaded exactly if every slide is legible. -/
theorem loadActivities_eq_ok_iff (registry : Registry) (d : Document) :
    (∃ activities, (loadActivities registry d).result = .ok activities) ↔ ∀ s ∈ d, s.Legible := by
  rw [← failure?_eq_none_iff, failure?_loadActivities, List.findSome?_eq_none_iff]
  constructor
  · intro h s hs
    obtain ⟨i, hi, rfl⟩ := List.getElem_of_mem hs
    rw [← Slide.activity_eq_ok_iff registry (i + 1), ← failure?_eq_none_iff]
    exact h _ (List.mem_mapIdx.2 ⟨i, hi, rfl⟩)
  · intro h a ha
    obtain ⟨i, hi, rfl⟩ := List.mem_mapIdx.1 ha
    rw [failure?_eq_none_iff, Slide.activity_eq_ok_iff]
    exact h _ (List.getElem_mem hi)

/-- What follows after loading makes no difference, if it fails in declared ways only. -/
theorem failsUndeclared_bind_iff {α : Type} {registry : Registry} {d : Document}
    {next : List Activity → Except Error α}
    (hnext : ∀ activities, ¬ FailsUndeclared (next activities)) :
    FailsUndeclared ((loadActivities registry d).result >>= next) ↔ ∃ s ∈ d, ¬ s.Legible := by
  -- loading comes first, so its failure is the outcome, and it is never a declared one
  have hload := loadActivities_eq_ok_iff registry d
  cases hresult : (loadActivities registry d).result with
  | ok activities =>
    have hlegible := hload.1 ⟨activities, hresult⟩
    exact ⟨fun h => absurd h (hnext activities), fun ⟨s, hs, hnot⟩ => absurd (hlegible s hs) hnot⟩
  | error e =>
    have hfirst : failure? (loadActivities registry d).result = some e :=
      failure?_eq_some_iff.2 hresult
    rw [failure?_loadActivities] at hfirst
    obtain ⟨a, ha, hfail⟩ := List.exists_of_findSome?_eq_some hfirst
    obtain ⟨i, hi, rfl⟩ := List.mem_mapIdx.1 ha
    refine ⟨fun _ => ?_, fun _ => ⟨e, rfl, undeclared_of_activity hfail⟩⟩
    by_contra hnone
    push Not at hnone
    obtain ⟨activities, hok⟩ := hload.2 hnone
    rw [hresult] at hok
    cases hok

/-! ## Uses of a document -/

theorem not_failsUndeclared_of_declared {α : Type} {x : Except Error α}
    (h : ∀ e, failure? x = some e → e.isDeclared = true ∨ e = .flow .exhausted) :
    ¬ FailsUndeclared x := by
  rintro ⟨e, he, hundeclared, hids⟩
  rcases h e he with hdeclared | rfl
  · rw [hdeclared] at hundeclared
    cases hundeclared
  · exact hids rfl

/-- Going through the timelines fails in declared ways only. -/
theorem declared_of_timelines {α : Type} {use : Activity → Except Error α}
    (huse : ∀ a, failure? (use a) = a.timing.walk.fault.map .violation) {activities : List Activity}
    {e : Error} (h : failure? (activities.mapM use) = some e) : e.isDeclared = true := by
  rw [failure?_mapM] at h
  obtain ⟨a, -, ha⟩ := List.exists_of_findSome?_eq_some h
  rw [huse] at ha
  obtain ⟨v, -, rfl⟩ := Option.map_eq_some_iff.1 ha
  rfl

theorem failure?_summary (a : Activity) :
    failure? a.summary.result = a.timing.walk.fault.map .violation := by
  rw [Activity.summary, Logged.result_bind, result_steps]
  cases a.timing.walk.fault <;> rfl

theorem summaries_declared (activities : List Activity) :
    ¬ FailsUndeclared (activities.mapM Activity.summary).result := by
  refine not_failsUndeclared_of_declared fun e he => Or.inl ?_
  rw [Logged.result_mapM] at he
  exact declared_of_timelines failure?_summary he

theorem simulate_declared (activities : List Activity) (calls : Nat) (session : String) :
    ¬ FailsUndeclared (simulate activities calls session).result := by
  refine not_failsUndeclared_of_declared fun e he => Or.inl ?_
  rw [simulate, Logged.result_bind, Logged.result_mapM] at he
  have hcounts : failure? (activities.mapM fun a => a.stepCount.result) = some e := by
    cases hresult : activities.mapM fun a => a.stepCount.result with
    | error why =>
      rw [hresult] at he
      exact he
    | ok counts =>
      rw [hresult] at he
      cases he
  exact declared_of_timelines failure?_stepCount hcounts

theorem compile_declared {σ : Type} [Ident.Source σ] (options : Options) (files : Tree)
    (pool : Ident.Pool σ) (activities : List Activity) :
    ¬ FailsUndeclared (compile options files pool activities).result := by
  refine not_failsUndeclared_of_declared fun e he => ?_
  rw [result_compile] at he
  cases hplan : ((options.library files).plan activities).result with
  | error why =>
    rw [hplan] at he
    cases he
    have hfault := failure?_eq_some_iff.2 hplan
    rw [Library.failure?_plan] at hfault
    -- a plan fails for a timeline or for a fragment, and both are declared
    left
    rcases Option.or_eq_some_iff.1 hfault with h | ⟨-, h⟩
    · obtain ⟨v, -, rfl⟩ := Option.map_eq_some_iff.1 h
      rfl
    · obtain ⟨f, -, rfl⟩ := Option.map_eq_some_iff.1 h
      rfl
  | ok plan =>
    rw [hplan] at he
    simp only [bind, Except.bind] at he
    cases hdraw : pool.nexts (activitiesSize plan + 6) with
    | none =>
      rw [hdraw] at he
      cases he
      exact Or.inr rfl
    | some drawn =>
      rw [hdraw] at he
      cases he

/-! ### A slide with one shape -/

/-- A slide with one shape, under a number, and a transition that takes one and a half seconds. -/
def slideNumbered (number : String) : Slide where
  element := ⟨some (fullName "p:sld"), [], [
    ⟨some (fullName "p:cNvPr"), [("id", number), ("descr", "lamp")], []⟩,
    ⟨some (fullName "p:transition"), [("dur", "1.5s"), ("advTm", "3000")], []⟩]⟩
  title := none

theorem legible_slideNumbered_iff {number : String} (hshow : allShowDigits number = true) :
    (slideNumbered number).Legible ↔ Numeral number := by
  have hshapes : (slideNumbered number).element.nodesTagged (fullName "p:cNvPr") =
      [⟨some (fullName "p:cNvPr"), [("id", number), ("descr", "lamp")], []⟩] := rfl
  have htransition : firstTagged? (slideNumbered number).element "p:transition" =
      some ⟨some (fullName "p:transition"), [("dur", "1.5s"), ("advTm", "3000")], []⟩ := rfl
  constructor
  · intro h
    exact h.shapes _ (hshapes ▸ List.mem_singleton_self _) number rfl hshow
  · intro h
    refine ⟨fun e he raw hraw _ => ?_, fun e he => ⟨fun raw hraw o ho => ?_, fun raw hraw _ => ?_⟩⟩
    · rw [hshapes] at he
      cases List.mem_singleton.1 he
      cases hraw
      exact h
    · rw [htransition] at he
      cases he
      cases hraw
      cases ho
      exact ⟨1500000, by decide +kernel, by decide⟩
    · rw [htransition] at he
      cases he
      cases hraw
      exact ⟨List.all_eq_true.1 (by decide), by decide⟩

/-! ## Documents that fail -/

/-- The documents that fail in an undeclared way, whatever is done with them: those with a slide that
is not legible. All others are summarised, simulated and compiled, or fail in a declared way. -/
theorem undeclared_failure_iff (registry : Registry) (d : Document) (calls : Nat) (session : String)
    (settings : Settings) (wishes : Wishes) (spare : Int) (files : Tree) (policy : Policy)
    (hpolicy : Policy.ofName? (wished wishes.policy settings.policy.name) = some policy) :
    (FailsUndeclared (loadActivities registry d >>= fun activities =>
      activities.mapM Activity.summary).result ↔ ∃ s ∈ d, ¬ s.Legible) ∧
    (FailsUndeclared (loadActivities registry d >>= fun activities =>
      simulate activities calls session).result ↔ ∃ s ∈ d, ¬ s.Legible) ∧
    (FailsUndeclared (compileDocument settings wishes spare files registry (.ok d)).result ↔
      ∃ s ∈ d, ¬ s.Legible) := by
  refine ⟨?_, ?_, ?_⟩
  · rw [Logged.result_bind]
    exact failsUndeclared_bind_iff summaries_declared
  · rw [Logged.result_bind]
    exact failsUndeclared_bind_iff fun activities => simulate_declared activities calls session
  · unfold compileDocument compileFrom Options.make
    rw [hpolicy]
    simp only [Logged.result_bind, Logged.result_ofExcept]
    exact failsUndeclared_bind_iff fun activities => compile_declared _ files _ activities

/-- The slide fails in an undeclared way with a superscript as the number, and not with a digit. -/
theorem undeclared_failure_iff_slideNumbered :
    FailsUndeclared (compileDocument .defaults ⟨none, none, none⟩ 0 .empty .empty
      (.ok [slideNumbered "²"])).result ∧
    ¬ FailsUndeclared (compileDocument .defaults ⟨none, none, none⟩ 0 .empty .empty
      (.ok [slideNumbered "2"])).result := by
  have hpolicy : Policy.ofName? (wished none Settings.defaults.policy.name) = some .perBranch := rfl
  have hcompile := fun d => (undeclared_failure_iff .empty d 1 "default" .defaults ⟨none, none, none⟩ 0
    .empty .perBranch hpolicy).2.2
  rw [hcompile, hcompile]
  simp only [List.mem_singleton, exists_eq_left, not_not]
  have htwo : Numeral "2" := ⟨List.all_eq_true.1 (by decide), by decide⟩
  refine ⟨fun h => ?_, (legible_slideNumbered_iff (by decide)).2 htwo⟩
  have hnumeral := (legible_slideNumbered_iff (by decide)).1 h
  exact absurd (hnumeral.1 '²' (by decide)) (by decide)

/-- A shape with a superscript as its number: nothing can be done with the slide, and what is
reported is not declared. -/
theorem superscript_number_undeclared :
    (loadActivities .empty [slideNumbered "²"] >>= fun activities =>
      activities.mapM Activity.summary).result = .error (.shapeNumber (.malformed "²")) ∧
    (loadActivities .empty [slideNumbered "²"] >>= fun activities =>
      simulate activities 1 "default").result = .error (.shapeNumber (.malformed "²")) ∧
    (compileDocument .defaults ⟨none, none, none⟩ 0 .empty .empty (.ok [slideNumbered "²"])).result =
      .error (.shapeNumber (.malformed "²")) ∧
    (Error.shapeNumber (.malformed "²")).isDeclared = false :=
  ⟨rfl, rfl, rfl, rfl⟩

end SlideFlow.Deck
