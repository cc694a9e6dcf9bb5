/-
What a fragment is for: a service has one fragment that starts it and one that stops it, in files
named after the service and the role.
-/
import SlideFlow.Files.Path
import SlideFlow.Timeline.Basic

namespace SlideFlow.Fragment

open SlideFlow.Files SlideFlow.Text SlideFlow.Timeline

inductive Role where
  | activation
  | deactivation
  deriving DecidableEq, Repr

namespace Role

def name : Role → String
  | .activation => "activation"
  | .deactivation => "deactivation"

def ofName (s : String) : Except UnknownWord Role :=
  match [activation, deactivation].find? (·.name = s) with
  | some r => .ok r
  | none => .error { word := s, vocabulary := "FragmentKind" }

/-- A shape that comes in starts its service, one that goes out stops it. -/
def ofEffect : Effect → Role
  | .entrance => .activation
  | .exit => .deactivation

end Role

/-- The name of the fragment of a service in a role. -/
def fileStem (service : String) (role : Role) : String := s!"{service}-{role.name}"

/-- Where the fragment of a service in a role is kept. -/
def location (directory : String) (service : String) (role : Role) : Path :=
  (Path.ofString directory).join (Path.ofString (fileStem service role ++ ".json"))

end SlideFlow.Fragment
