/-
The timing tree of a timeline. A timeline that is written down becomes the tree that presentation
programs store (`encode`): inside of two wrappers, the root and the main sequence, stands one block
for each step, in it one block for each group, and in it one block for each animation. The first
animation of a step waits for the click; the others of its group start with it, those of later
groups after it. Every time node has a number of its own, counted in the order in which the nodes
are closed, but an animation before its parts.
-/
import SlideFlow.Markup.Exchange
import SlideFlow.Proofs.Number.Decimal
import SlideFlow.Timeline.Recover

namespace SlideFlow.Timeline

open SlideFlow.Markup SlideFlow.Number

/-! ## Timelines to write -/

/-- An animation to write: its shape, its preset class and its delay, none if that is indefinite. -/
structure Cue where
  shape : Int
  preset : String
  delay : Option Int
  deriving DecidableEq, Repr

/-- The animation that a cue stands for. Only the preset class of exits takes a shape away. -/
def Cue.animation (c : Cue) : Animation where
  shape := c.shape
  effect := if c.preset = "exit" then .exit else .entrance
  delay := c.delay

/-- The numbers of a cue are not too long to be read. -/
def Cue.Readable (c : Cue) : Prop := Number.Readable c.shape ∧ ∀ n ∈ c.delay, Number.Readable n

instance (c : Cue) : Decidable c.Readable :=
  inferInstanceAs (Decidable (Number.Readable c.shape ∧ ∀ n ∈ c.delay, Number.Readable n))

/-- Whether a step has an animation at all. -/
def hasCue (step : List (List Cue)) : Bool := step.any (!·.isEmpty)

/-! ## Elements -/

/-- An element of the namespace of presentations. -/
def tagged (name : String) (attrs : List (String × String)) (children : List Element) : Element :=
  { tag? := some (presentationSpace ++ name), attrs, children }

/-- A time node with its number. -/
def timeNode (id : Nat) (attrs : List (String × String)) (children : List Element) : Element :=
  tagged "cTn" (("id", toString id) :: attrs) children

def startConditions (delay : String) : Element :=
  tagged "stCondLst" [] [tagged "cond" [("delay", delay)] []]

def childList (children : List Element) : Element := tagged "childTnLst" [] children

/-- The time node of a block that holds other blocks. -/
def holder (id : Nat) (delay : String) (children : List Element) : Element :=
  timeNode id [("fill", "hold")] [startConditions delay, childList children]

/-- A block that holds other blocks. -/
def block (id : Nat) (delay : String) (children : List Element) : Element :=
  tagged "par" [] [holder id delay children]

def target (shape : Int) : Element :=
  tagged "tgtEl" [] [tagged "spTgt" [("spid", toString shape)] []]

/-- The behaviour that makes a shape visible. -/
def setVisible (id : Nat) (shape : Int) : Element :=
  tagged "set" [] [
    tagged "cBhvr" [] [
      timeNode id [("dur", "1"), ("fill", "hold")] [startConditions "0"],
      target shape,
      tagged "attrNameLst" [] [tagged "attrName" [] []]],
    tagged "to" [] [tagged "strVal" [("val", "visible")] []]]

/-- The behaviour that fades a shape in. -/
def fadeIn (id : Nat) (shape : Int) : Element :=
  tagged "animEffect" [("transition", "in"), ("filter", "fade")] [
    tagged "cBhvr" [] [timeNode id [("dur", "500")] [], target shape]]

def delayText : Option Int → String
  | none => "indefinite"
  | some n => toString n

/-- The time node of an animation; the node type says what it waits for. -/
def Cue.time (id : Nat) (nodeType : String) (c : Cue) : Element :=
  timeNode id
    [("presetID", "10"), ("presetClass", c.preset), ("presetSubtype", "0"), ("fill", "hold"),
      ("nodeType", nodeType)]
    [startConditions (delayText c.delay),
      childList [setVisible (id + 1) c.shape, fadeIn (id + 2) c.shape]]

/-- The block of an animation. -/
def Cue.block (id : Nat) (nodeType : String) (c : Cue) : Element :=
  tagged "par" [] [c.time id nodeType]

/-! ## Timelines -/

/-- The blocks of the animations of a group, numbered from a first number on. The one that comes
before the step is clicked waits for the click, those behind it have the given node type. -/
def cueBlocks (later : String) : Bool → Nat → List Cue → List Element
  | _, _, [] => []
  | clicked, id, c :: rest =>
    c.block id (if clicked then later else "clickEffect") :: cueBlocks later true (id + 3) rest

/-- The blocks of the groups of a step. -/
def groupBlocks : String → Bool → Nat → List (List Cue) → List Element
  | _, _, _, [] => []
  | later, clicked, id, g :: rest =>
    block (id + 3 * g.length) "0" (cueBlocks later clicked id g)
      :: groupBlocks "afterEffect" (clicked || !g.isEmpty) (id + 3 * g.length + 1) rest

/-- How many numbers the groups of a step take. -/
def numbersOf : List (List Cue) → Nat
  | [] => 0
  | g :: rest => 3 * g.length + 1 + numbersOf rest

/-- The blocks of the steps of a timeline. -/
def stepBlocks : Nat → List (List (List Cue)) → List Element
  | _, [] => []
  | id, step :: rest =>
    block (id + numbersOf step) "indefinite" (groupBlocks "withEffect" false id step)
      :: stepBlocks (id + numbersOf step + 1) rest

/-- The conditions under which a slide show goes back or on. -/
def slideConditions (name event : String) : Element :=
  tagged name [] [
    tagged "cond" [("evt", event), ("delay", "0")] [tagged "tgtEl" [] [tagged "sldTgt" [] []]]]

/-- The time node of the main sequence. -/
def sequenceTime (steps : List (List (List Cue))) : Element :=
  timeNode 2 [("dur", "indefinite"), ("nodeType", "mainSeq")] [childList (stepBlocks 3 steps)]

def mainSequence (steps : List (List (List Cue))) : Element :=
  tagged "seq" [("concurrent", "1"), ("nextAc", "seek")] [
    sequenceTime steps,
    slideConditions "prevCondLst" "onPrev",
    slideConditions "nextCondLst" "onNext"]

/-- The timing tree of a timeline. -/
def encode (steps : List (List (List Cue))) : Element :=
  tagged "timing" [] [tagged "tnLst" [] [tagged "par" [] [
    timeNode 1 [("dur", "indefinite"), ("restart", "never"), ("nodeType", "tmRoot")]
      [childList [mainSequence steps]]]]]

/-! ## Local names -/

theorem takeWhile_reverse_append {chars : List Char} (h : '\x7d' ∉ chars) (back : List Char) :
    (chars.reverse ++ back).takeWhile (· ≠ '\x7d') =
      chars.reverse ++ back.takeWhile (· ≠ '\x7d') := by
  refine List.takeWhile_append_of_pos fun c hc => ?_
  rw [decide_eq_true_iff]
  rintro rfl
  exact h (List.mem_reverse.1 hc)

theorem localName_append {space name : String} (hspace : space.toList.getLast? = some '\x7d')
    (hname : '\x7d' ∉ name.toList) : localName (space ++ name) = name := by
  obtain ⟨front, hfront⟩ := List.getLast?_eq_some_iff.1 hspace
  have hchars : (space ++ name).toList.reverse =
      name.toList.reverse ++ '\x7d' :: front.reverse := by
    rw [String.toList_append, hfront]
    simp
  rw [localName, hchars, takeWhile_reverse_append hname, List.takeWhile_cons_of_neg (by simp),
    List.append_nil, List.reverse_reverse, String.ofList_toList]

theorem localName_eq_self {name : String} (h : '\x7d' ∉ name.toList) : localName name = name := by
  have hchars := takeWhile_reverse_append h []
  rw [List.append_nil, List.takeWhile_nil, List.append_nil] at hchars
  rw [localName, hchars, List.reverse_reverse, String.ofList_toList]

/-- Elements are found by their local names. -/
theorem name_tagged {name : String} (h : '\x7d' ∉ name.toList) (attrs : List (String × String))
    (children : List Element) : (tagged name attrs children).name = name :=
  localName_append (by decide) h

/-- Attributes whose names have no namespace are found by their names. -/
theorem attr?_tagged (name : String) {attrs : List (String × String)} (children : List Element)
    (h : ∀ p ∈ attrs, '\x7d' ∉ p.1.toList) (key : String) :
    (tagged name attrs children).attr? key = Ordered.get? key attrs := by
  unfold Element.attr? Element.exactAttr?
  cases hkey : Ordered.get? key (tagged name attrs children).attrs with
  | some v => exact hkey.symm
  | none =>
    have hfind : attrs.find? (fun p => localName p.1 = key) = none := by
      rw [List.find?_eq_none]
      intro p hp
      rw [localName_eq_self (h p hp), decide_eq_true_iff]
      rintro rfl
      have := Ordered.mem_keys_iff.1 (List.mem_map_of_mem (f := (·.1)) hp)
      rw [show Ordered.get? p.1 attrs = none from hkey] at this
      cases this
    rw [show Ordered.get? key attrs = none from hkey]
    show (attrs.find? _).map _ = none
    rw [hfind]
    rfl

@[simp] theorem name_timeNode (id : Nat) (attrs : List (String × String))
    (children : List Element) : (timeNode id attrs children).name = "cTn" :=
  name_tagged (by decide) ..

@[simp] theorem name_startConditions (delay : String) :
    (startConditions delay).name = "stCondLst" :=
  name_tagged (by decide) ..

@[simp] theorem name_childList (children : List Element) :
    (childList children).name = "childTnLst" :=
  name_tagged (by decide) ..

@[simp] theorem name_holder (id : Nat) (delay : String) (children : List Element) :
    (holder id delay children).name = "cTn" :=
  name_timeNode ..

@[simp] theorem name_block (id : Nat) (delay : String) (children : List Element) :
    (block id delay children).name = "par" :=
  name_tagged (by decide) ..

@[simp] theorem name_target (shape : Int) : (target shape).name = "tgtEl" :=
  name_tagged (by decide) ..

@[simp] theorem name_setVisible (id : Nat) (shape : Int) : (setVisible id shape).name = "set" :=
  name_tagged (by decide) ..

@[simp] theorem Cue.name_time (id : Nat) (nodeType : String) (c : Cue) :
    (c.time id nodeType).name = "cTn" :=
  name_timeNode ..

@[simp] theorem Cue.name_block (id : Nat) (nodeType : String) (c : Cue) :
    (c.block id nodeType).name = "par" :=
  name_tagged (by decide) ..

/-- All groups of a step are found in its block. -/
theorem childrenNamed_groupBlocks (later : String) (clicked : Bool) (id : Nat)
    (step : List (List Cue)) :
    (childList (groupBlocks later clicked id step)).childrenNamed "par" =
      groupBlocks later clicked id step := by
  refine List.filter_eq_self.2 ?_
  show ∀ e ∈ groupBlocks later clicked id step, decide (e.name = "par") = true
  fun_induction groupBlocks later clicked id step <;> simp_all

/-- All animations of a group are found in its block. -/
theorem childrenNamed_cueBlocks (later : String) (clicked : Bool) (id : Nat) (group : List Cue) :
    (childList (cueBlocks later clicked id group)).childrenNamed "par" =
      cueBlocks later clicked id group := by
  refine List.filter_eq_self.2 ?_
  show ∀ e ∈ cueBlocks later clicked id group, decide (e.name = "par") = true
  fun_induction cueBlocks later clicked id group <;> simp_all

end SlideFlow.Timeline
