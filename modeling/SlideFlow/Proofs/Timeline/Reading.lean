/-
Reading the parts of a written timing tree. Each animation, each group and each list of them is read
as it was written, if the numbers in it are not too long to be read, and otherwise the reading
fails. Both halves are kept together as `Reads`, which goes through binds and lists, so that what
holds of one animation holds of a whole step.
-/
import SlideFlow.Proofs.Timeline.Written

namespace SlideFlow.Timeline

open SlideFlow.Markup SlideFlow.Number

/-! ## Reading under a condition -/

/-- Under the condition `p` a reading gives `a`, otherwise it fails. -/
def Reads {ε α : Type} (p : Prop) (x : Except ε α) (a : α) : Prop :=
  (p → x = .ok a) ∧ (¬p → ∃ e, x = .error e)

namespace Reads

variable {ε ε' α β γ : Type} {p q : Prop} {x : Except ε α} {a : α} {b : β}

theorem map (h : Reads p x a) (f : α → β) : Reads p (x >>= fun a => .ok (f a)) (f a) := by
  constructor
  · intro hp
    rw [h.1 hp]
    rfl
  · intro hp
    obtain ⟨e, he⟩ := h.2 hp
    exact ⟨e, by rw [he]; rfl⟩

/-- What is made of a reading has its condition. -/
theorem handle {y : Except ε' β} (h : Reads p x a) (hok : x = .ok a → y = .ok b)
    (herror : ∀ e, x = .error e → ∃ v, y = .error v) : Reads p y b := by
  constructor
  · intro hp
    exact hok (h.1 hp)
  · intro hp
    obtain ⟨e, he⟩ := h.2 hp
    exact herror e he

theorem bind {f : α → Except ε β} (hx : Reads p x a) (hf : Reads q (f a) b) :
    Reads (p ∧ q) (x >>= f) b := by
  constructor
  · rintro ⟨hp, hq⟩
    rw [hx.1 hp]
    exact hf.1 hq
  · intro hpq
    by_cases hp : p
    · rw [hx.1 hp]
      exact hf.2 fun hq => hpq ⟨hp, hq⟩
    · obtain ⟨e, he⟩ := hx.2 hp
      exact ⟨e, by rw [he]; rfl⟩

/-- A list is read if each of its members is. -/
theorem mapM {f : α → Except ε β} {P : γ → Prop} {g : γ → β} {xs : List α} {cs : List γ}
    (h : List.Forall₂ (fun x c => Reads (P c) (f x) (g c)) xs cs) :
    Reads (∀ c ∈ cs, P c) (xs.mapM f) (cs.map g) := by
  induction h with
  | nil => exact ⟨fun _ => rfl, fun h => absurd nofun h⟩
  | @cons x c xs cs hx _ ih =>
    rw [List.mapM_cons, List.forall_mem_cons]
    exact hx.bind (ih.map (g c :: ·))

end Reads

/-! ## Animations -/

section Children

variable {name key : String} {attrs : List (String × String)} {e : Element} {rest : List Element}

theorem childNamed?_cons_of_eq (h : e.name = key) :
    (tagged name attrs (e :: rest)).childNamed? key = some e :=
  List.find?_cons_of_pos (decide_eq_true h)

theorem childNamed?_cons_of_ne (h : e.name ≠ key) :
    (tagged name attrs (e :: rest)).childNamed? key = (tagged name attrs rest).childNamed? key :=
  List.find?_cons_of_neg (by simpa using h)

end Children

theorem reads_integer (n : Int) : Reads (Number.Readable n) (readInteger (toString n)) n := by
  rw [readInteger_toString]
  constructor
  · intro h
    rw [if_pos h]
  · intro h
    rw [if_neg h]
    exact ⟨_, rfl⟩

theorem toString_ne_indefinite (n : Int) : toString n ≠ "indefinite" := by
  intro h
  have hread := readInteger_toString n
  rw [h, show readInteger "indefinite" = .error (.malformed "indefinite") by decide] at hread
  split at hread <;> cases hread

theorem startDelay_eq {time conditions condition : Element} {text : String}
    (hconditions : time.childNamed? "stCondLst" = some conditions)
    (hcondition : conditions.childNamed? "cond" = some condition)
    (htext : condition.attr? "delay" = some text) :
    startDelay time =
      if text = "indefinite" then .ok none
      else match readInteger text with
        | .ok n => .ok (some n)
        | .error _ => .error (.delay time.describe text) := by
  simp only [startDelay, hconditions, hcondition, htext, Option.bind_eq_bind, Option.bind_some]
  split
  · next h => cases h
  · next h => rw [if_pos (Option.some.inj h)]
  · next hne h =>
    obtain rfl := Option.some.inj h
    cases readInteger text <;> exact (if_neg hne).symm

theorem reads_startDelay (id : Nat) (nodeType : String) (c : Cue) :
    Reads (∀ n ∈ c.delay, Number.Readable n) (startDelay (c.time id nodeType)) c.delay := by
  have hconditions : (c.time id nodeType).childNamed? "stCondLst" =
      some (startConditions (delayText c.delay)) :=
    childNamed?_cons_of_eq (name_startConditions _)
  have hcondition : (startConditions (delayText c.delay)).childNamed? "cond" =
      some (tagged "cond" [("delay", delayText c.delay)] []) :=
    childNamed?_cons_of_eq (name_tagged (by decide) ..)
  have htext : (tagged "cond" [("delay", delayText c.delay)] []).attr? "delay" =
      some (delayText c.delay) :=
    attr?_tagged _ _ (by simp) _
  rw [startDelay_eq hconditions hcondition htext]
  cases c.delay with
  | none => exact ⟨fun _ => if_pos rfl, fun h => absurd nofun h⟩
  | some n =>
    rw [delayText, if_neg (toString_ne_indefinite n)]
    simp only [Option.mem_some_iff, forall_eq']
    exact (reads_integer n).handle (fun hok => by rw [hok]) fun e herror => ⟨_, by rw [herror]⟩

theorem setBehaviour?_time (id : Nat) (nodeType : String) (c : Cue) :
    setBehaviour? (c.time id nodeType) = some (setVisible (id + 1) c.shape) := by
  have hlist : (c.time id nodeType).childNamed? "childTnLst" =
      some (childList [setVisible (id + 1) c.shape, fadeIn (id + 2) c.shape]) := by
    rw [Cue.time, timeNode, childNamed?_cons_of_ne (by simp), childNamed?_cons_of_eq (by simp)]
  have hset : (childList [setVisible (id + 1) c.shape, fadeIn (id + 2) c.shape]).childNamed? "set" =
      some (setVisible (id + 1) c.shape) :=
    childNamed?_cons_of_eq (name_setVisible ..)
  rw [setBehaviour?, hlist, Option.bind_eq_bind, Option.bind_some, hset]

theorem descend_setVisible (time behaviour : Element) (id : Nat) (shape : Int) :
    descend time behaviour (setVisible id shape) targetPath =
      .ok (tagged "spTgt" [("spid", toString shape)] []) := by
  rw [targetPath, descend, setVisible, childNamed?_cons_of_eq (name_tagged (by decide) ..)]
  dsimp only
  rw [descend, childNamed?_cons_of_ne (by simp), childNamed?_cons_of_eq (name_target shape)]
  dsimp only
  rw [descend, target, childNamed?_cons_of_eq (name_tagged (by decide) ..)]
  rfl

theorem reads_targetShape (time : Element) (shape : Int) :
    Reads (Number.Readable shape)
      (targetShape time (tagged "spTgt" [("spid", toString shape)] [])) shape := by
  have hattr : (tagged "spTgt" [("spid", toString shape)] []).attr? "spid" =
      some (toString shape) :=
    attr?_tagged _ _ (by simp) _
  unfold targetShape
  rw [hattr]
  dsimp only
  exact (reads_integer shape).handle (fun hok => by rw [hok]) fun e herror => ⟨_, by rw [herror]⟩

theorem readAnimation_eq {block time behaviour target : Element}
    (htime : block.childNamed? "cTn" = some time)
    (hbehaviour : setBehaviour? time = some behaviour)
    (htarget : descend time behaviour behaviour targetPath = .ok target) :
    readAnimation block = (do
      let shape ← targetShape time target
      let delay ← startDelay time
      .ok { shape, effect := .ofPreset (time.attr? "presetClass"), delay }) := by
  simp only [readAnimation, htime, hbehaviour, htarget]
  rfl

/-- An animation is read as it was written. -/
theorem reads_cue (id : Nat) (nodeType : String) (c : Cue) :
    Reads c.Readable (readAnimation (c.block id nodeType)) c.animation := by
  have htime : (c.block id nodeType).childNamed? "cTn" = some (c.time id nodeType) :=
    childNamed?_cons_of_eq (Cue.name_time ..)
  have hpreset : (c.time id nodeType).attr? "presetClass" = some c.preset :=
    attr?_tagged _ _ (by simp) _
  have heffect : Effect.ofPreset (some c.preset) = c.animation.effect := by
    simp [Effect.ofPreset, Cue.animation]
  rw [readAnimation_eq htime (setBehaviour?_time id nodeType c) (descend_setVisible ..), hpreset,
    heffect]
  exact (reads_targetShape _ c.shape).bind
    ((reads_startDelay id nodeType c).map ({ c.animation with delay := · }))

/-! ## Groups -/

theorem forall₂_cueBlocks (later : String) (clicked : Bool) (id : Nat) (group : List Cue) :
    List.Forall₂ (fun e (c : Cue) => Reads c.Readable (readAnimation e) c.animation)
      (cueBlocks later clicked id group) group := by
  induction group generalizing clicked id with
  | nil => exact .nil
  | cons c group ih => exact .cons (reads_cue ..) (ih ..)

/-- A group is read as it was written, an empty one too. -/
theorem reads_group (number : Nat) (delay later : String) (clicked : Bool) (id : Nat)
    (group : List Cue) :
    Reads (∀ c ∈ group, c.Readable)
      (readGroup (block number delay (cueBlocks later clicked id group)))
      (group.map Cue.animation) := by
  have htime : (block number delay (cueBlocks later clicked id group)).firstElement? =
      some (holder number delay (cueBlocks later clicked id group)) :=
    List.find?_cons_of_pos (by simp)
  have hlist : (holder number delay (cueBlocks later clicked id group)).childNamed? "childTnLst" =
      some (childList (cueBlocks later clicked id group)) := by
    rw [holder, timeNode, childNamed?_cons_of_ne (by simp), childNamed?_cons_of_eq (by simp)]
  rw [readGroup, htime]
  dsimp only
  rw [if_neg (by simp), hlist]
  dsimp only
  rw [childrenNamed_cueBlocks]
  exact .mapM (forall₂_cueBlocks later clicked id group)

theorem forall₂_groupBlocks (later : String) (clicked : Bool) (id : Nat)
    (step : List (List Cue)) :
    List.Forall₂ (fun e group =>
        Reads (∀ c ∈ group, c.Readable) (readGroup e) (group.map Cue.animation))
      (groupBlocks later clicked id step) step := by
  induction step generalizing later clicked id with
  | nil => exact .nil
  | cons group step ih => exact .cons (reads_group ..) (ih ..)

end SlideFlow.Timeline
