/-
Which shapes are bound. White space around a declared name does not count, and the empty name stands for
nothing, so a shape is bound to a registered name if stripping leaves that name of what the shape
declares. A name that is not empty and has no white space around it is left by itself, so every shape
that declares it is bound to it (`declared_name_bound`). Names are registered as they are given: a name
that is empty or has white space around it is taken, but no shape is bound to it
(`blank_names_not_bound`).
-/
import SlideFlow.Proofs.Service.Registration

namespace SlideFlow.Service.Registry

open SlideFlow.Text

variable {r : Registry} {name : String}

theorem Sound.find?_eq (h : r.Sound) (hname : (name : RawText) ∈ r.names) (hempty : name ≠ "") :
    r.find? name = some { name := name } := by
  have hletters : ¬ (name : RawText).isEmpty = true := by
    rw [List.isEmpty_iff]
    exact fun hnil => hempty (RawText.ofString_inj.1 hnil)
  rw [find?, if_neg hletters]
  exact h.get?_services hname

theorem resolve_cons (r : Registry) (shape : Int) (given : Option String) (declared : Declared) :
    r.resolve ((shape, given) :: declared) =
      (given.bind fun text => (r.matching? text).map fun _ => (shape, strip text)).toList
        ++ r.resolve declared := by
  rw [resolve, List.filterMap_cons]
  cases given with
  | none => rfl
  | some text =>
    cases hmatch : r.matching? text with
    | none => simp [hmatch, resolve]
    | some c => simp [hmatch, resolve]

/-- A shape is bound to what stripping leaves of its declared name, if that stands for a capability. -/
theorem get?_resolve {declared : Declared} {shape : Int} {text : String} {c : Capability}
    (hdeclared : Ordered.get? shape declared = some (some text)) (hmatch : r.matching? text = some c) :
    Ordered.get? shape (r.resolve declared) = some (strip text) := by
  induction declared with
  | nil => cases hdeclared
  | cons p declared ih =>
    obtain ⟨other, given⟩ := p
    rw [Ordered.get?] at hdeclared
    rw [resolve_cons]
    by_cases hshape : other = shape
    · rw [if_pos hshape] at hdeclared
      cases hdeclared
      simp [hmatch, Ordered.get?, hshape]
    · rw [if_neg hshape] at hdeclared
      -- another shape comes first, bound or not
      cases hgiven : given.bind fun text => (r.matching? text).map fun _ => (other, strip text) with
      | none => exact ih hdeclared
      | some bound =>
        obtain ⟨text', -, hbound⟩ := Option.bind_eq_some_iff.1 hgiven
        obtain ⟨-, -, rfl⟩ := Option.map_eq_some_iff.1 hbound
        simpa [Ordered.get?, hshape] using ih hdeclared

/-- Every name that is registered by any calls and is not empty is bound to the shapes that declare it,
with or without white space around it: to every shape with a text of which stripping leaves the name. A
name without white space around it is such a text. -/
theorem declared_name_bound (calls : List Call) (hname : (name : RawText) ∈ (empty.after calls).names)
    (hempty : name ≠ "") {declared : Declared} {shape : Int} {text : String}
    (hdeclared : Ordered.get? shape declared = some (some text)) (htext : strip text = name) :
    Ordered.get? shape ((empty.after calls).resolve declared) = some name := by
  have hsound : (empty.after calls).Sound := sound_empty.after calls
  have hmatch : (empty.after calls).matching? text = some { name := name } := by
    rw [matching?, htext]
    exact hsound.find?_eq hname hempty
  rw [← htext]
  exact get?_resolve hdeclared hmatch

/-- A name of a source, declared as it is and with white space around it; the list before the source
stops at a name that is taken. -/
theorem declared_name_bound_source :
    let calls := [Call.add "lamp", .addMany ["lamp", "bell"], .loadSource "[\"a b\"]"]
    let declared : Declared := [(4, some "lamp"), (7, some "a b"), (2, none), (9, some " a b　")]
    (empty.after calls).names = ["lamp", "a b"] ∧
    Ordered.get? 7 ((empty.after calls).resolve declared) = some "a b" ∧
    Ordered.get? 9 ((empty.after calls).resolve declared) = some "a b" := by
  intro calls declared
  have hnames : (empty.after calls).names = ["lamp", "a b"] := by decide +kernel
  have hname : ("a b" : RawText) ∈ (empty.after calls).names := by
    rw [hnames]
    decide
  have hplain : Ordered.get? 7 declared = some (some "a b") := by decide
  have hspaced : Ordered.get? 9 declared = some (some " a b　") := by decide
  exact ⟨hnames, declared_name_bound calls hname (by decide) hplain (by decide),
    declared_name_bound calls hname (by decide) hspaced (by decide)⟩

/-- The empty name and a name with white space around it are registered, and the shapes that declare
exactly these names are not bound. -/
theorem blank_names_not_bound :
    let r := empty.after [.addMany ["", " lamp"]]
    r.names = ["", " lamp"] ∧ r.resolve [(2, some ""), (5, some " lamp")] = [] := by
  decide +kernel

end SlideFlow.Service.Registry
