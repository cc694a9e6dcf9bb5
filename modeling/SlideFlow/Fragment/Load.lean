/-
Loading fragments from files. A file is read again each time.
-/
import SlideFlow.Files.Read
import SlideFlow.Fragment.Role
import SlideFlow.Fragment.Validate
import SlideFlow.Log

namespace SlideFlow

open SlideFlow.Files

/-- Why a fragment cannot be used. -/
inductive FragmentError where
  | unreadable (path : String) (why : ReadFault)
  | invalid (source : String) (why : Fragment.Fault)
  deriving Repr

def FragmentError.message : FragmentError → String
  | .unreadable path why => s!"Cannot load flow fragment {path}: {why.message}"
  | .invalid source why => why.message source

namespace Fragment

/-- The fragment that a value from a source describes. -/
def validate (source : String) (v : Json) : Except FragmentError Fragment :=
  (ofJson v).mapError (.invalid source)

/-- Loads the fragment at a path. That the file was read is reported before it is judged. -/
def load (files : Tree) (path : Path) : Logged FragmentError Fragment :=
  let shown := path.toString
  match files.readJson shown with
  | .error why => .throw (.unreadable shown why)
  | .ok v => do
    Logged.report [.fragmentRead shown]
    Logged.ofExcept (validate shown v)

/-- Loads the fragment of a service in a role. -/
def loadFor (files : Tree) (directory service : String) (role : Role) :
    Logged FragmentError Fragment :=
  load files (location directory service role)

end Fragment

end SlideFlow
