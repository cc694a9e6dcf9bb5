/-
What is worth a line in the log, and computations that keep a log beside their result. A
computation that fails keeps the events up to its failure.
-/
import SlideFlow.Text.Quoted

namespace SlideFlow

open SlideFlow.Text

/-! ## Events -/

inductive Event where
  /-- A step was read from a timing tree. -/
  | stepRead (index groups : Nat)
  /-- A capability was registered a second time. -/
  | capabilityTaken (name : RawText)
  | capabilitiesRegistered (count : Nat)
  /-- A shape declares a capability that is not registered. -/
  | capabilityUnknown (shape : Int) (name : String)
  | slideRead (index bound : Nat)
  | fragmentRead (path : String)
  /-- An animated shape has no service. -/
  | shapeUnbound (shape : Int)
  | nodesFlushed (count : Nat)
  | compiled (activities nodes : Nat)
  deriving DecidableEq, Repr

inductive Level where
  | debug
  | info
  | warning
  deriving DecidableEq, Repr

namespace Level

def rank : Level → Nat
  | .debug => 10
  | .info => 20
  | .warning => 30

def name : Level → String
  | .debug => "DEBUG"
  | .info => "INFO"
  | .warning => "WARNING"

end Level

namespace Event

def level : Event → Level
  | .capabilityTaken _ => .warning
  | .capabilitiesRegistered _ | .compiled _ _ => .info
  | _ => .debug

/-- The part of the program that reports an event. -/
def reporter : Event → String
  | .stepRead _ _ => "mashup.timing.builder"
  | .capabilityTaken _ | .capabilitiesRegistered _ | .capabilityUnknown _ _ =>
    "mashup.services.registry"
  | .slideRead _ _ => "mashup.presentation"
  | .fragmentRead _ => "mashup.services.fragments"
  | .shapeUnbound _ | .compiled _ _ => "mashup.compiler.generator"
  | .nodesFlushed _ => "mashup.flow.nodes"

def text : Event → String
  | .stepRead index groups => s!"Step {index}: {groups} parallel group(s)"
  | .capabilityTaken name => s!"Capability {quoted name} is already registered"
  | .capabilitiesRegistered count => s!"Registered {count} capabilities"
  | .capabilityUnknown shape name => s!"Shape {shape} declares unknown capability {quoted name}"
  | .slideRead index bound => s!"Slide {index}: {bound} bound shape(s)"
  | .fragmentRead path => s!"Loaded flow fragment {path}"
  | .shapeUnbound shape => s!"Shape {shape} has no service; skipped"
  | .nodesFlushed count => s!"Flushing {count} nodes"
  | .compiled activities nodes => s!"Compiled {activities} activities into {nodes} nodes"

/-- The line of an event. -/
def line (e : Event) : String := s!"{e.level.name} {e.reporter}: {e.text}"

end Event

/-- The rank that the name of a level stands for, in either case; an unknown name stands for
warnings. -/
def rankNamed (name : String) : Nat :=
  match name.toUpper with
  | "NOTSET" => 0
  | "DEBUG" => Level.debug.rank
  | "INFO" => Level.info.rank
  | "ERROR" => 40
  | "CRITICAL" | "FATAL" => 50
  | _ => Level.warning.rank

/-- The lines of the events from a rank on. -/
def logLines (least : Nat) (events : List Event) : List String :=
  (events.filter fun e => least ≤ e.level.rank).map Event.line

/-! ## Computations with a log -/

/-- The events of a computation, in order, and its result. -/
structure Logged (ε α : Type) where
  events : List Event
  result : Except ε α

namespace Logged

variable {ε ε' α β : Type}

/-- A computation without events. -/
def ofExcept (result : Except ε α) : Logged ε α := { events := [], result }

def throw (e : ε) : Logged ε α := ofExcept (.error e)

/-- Reports events. -/
def report (events : List Event) : Logged ε Unit := { events, result := .ok () }

instance : Monad (Logged ε) where
  pure a := ofExcept (.ok a)
  bind x f :=
    match x.result with
    | .ok a => { events := x.events ++ (f a).events, result := (f a).result }
    | .error e => { events := x.events, result := .error e }

/-- A computation whose failures are seen as those of a larger one. -/
def mapError (f : ε → ε') (x : Logged ε α) : Logged ε' α :=
  { events := x.events, result := x.result.mapError f }

@[simp] theorem result_pure (a : α) : (pure a : Logged ε α).result = .ok a := rfl

@[simp] theorem result_ofExcept (r : Except ε α) : (ofExcept r).result = r := rfl

@[simp] theorem result_report (events : List Event) :
    (report events : Logged ε Unit).result = .ok () := rfl

theorem bind_ok {x : Logged ε α} {a : α} (h : x.result = .ok a) (f : α → Logged ε β) :
    x >>= f = { events := x.events ++ (f a).events, result := (f a).result } := by
  show (match x.result with | .ok a => _ | .error e => _) = _
  rw [h]

theorem bind_error {x : Logged ε α} {e : ε} (h : x.result = .error e) (f : α → Logged ε β) :
    x >>= f = { events := x.events, result := .error e } := by
  show (match x.result with | .ok a => _ | .error e => _) = _
  rw [h]

/-- The result of a sequence is the sequence of the results. -/
@[simp] theorem result_bind (x : Logged ε α) (f : α → Logged ε β) :
    (x >>= f).result = x.result >>= fun a => (f a).result := by
  cases h : x.result with
  | ok a => rw [bind_ok h]; rfl
  | error e => rw [bind_error h]; rfl

theorem map_id_eq (x : Logged ε α) : id <$> x = x := by
  show x >>= (fun a => pure a) = x
  obtain ⟨events, result⟩ := x
  cases result with
  | ok a => rw [bind_ok rfl]; show Logged.mk (events ++ []) _ = _; rw [List.append_nil]; rfl
  | error e => rw [bind_error rfl]

theorem bind_assoc_eq {γ : Type} (x : Logged ε α) (f : α → Logged ε β) (g : β → Logged ε γ) :
    x >>= f >>= g = x >>= fun a => f a >>= g := by
  cases hx : x.result with
  | error e => rw [bind_error hx, bind_error hx, bind_error (e := e) rfl]
  | ok a =>
    rw [bind_ok hx f, bind_ok hx fun a => f a >>= g]
    cases h : (f a).result with
    | ok b => rw [bind_ok h, bind_ok (a := b) rfl]; simp only [List.append_assoc]
    | error e => rw [bind_error h, bind_error (e := e) rfl]

instance : LawfulMonad (Logged ε) :=
  LawfulMonad.mk' _ map_id_eq (fun _ _ => bind_ok rfl _) bind_assoc_eq

/-- The result of a computation over a list is the computation of the results. -/
theorem result_mapM (f : α → Logged ε β) (xs : List α) :
    (xs.mapM f).result = xs.mapM fun a => (f a).result := by
  induction xs with
  | nil => rfl
  | cons x xs ih => simp only [List.mapM_cons, result_bind, ih, result_pure]; rfl

end Logged

end SlideFlow
