/-
Shapes of JSON values. A value is checked against a schema depth first; the first fault is
reported: for an object its type, then the members it has to have, then the members it has, in the
order of the schema; for an array its items in order.
-/
import SlideFlow.Json.Writer

namespace SlideFlow

open SlideFlow.Text

inductive Schema where
  | text
  | list (item : Schema)
  /-- An object with required members and shapes for members that may be there. -/
  | record (required : List String) (members : List (String × Schema))

namespace Schema

inductive Fault where
  | wrongType (v : Json) (expected : String)
  | missing (key : String)
  deriving Repr, BEq

def Fault.message : Fault → String
  | .wrongType v expected => s!"{v.mention} is not of type {quoted expected}"
  | .missing key => s!"{quoted key} is a required property"

mutual

/-- The first fault of a value. -/
def check : Schema → Json → Option Fault
  | .text, .str _ => none
  | .text, v => some (.wrongType v "string")
  | .list item, .arr items => items.findSome? (check item)
  | .list _, v => some (.wrongType v "array")
  | .record required members, .obj given =>
    match required.find? fun (key : String) => (Ordered.get? (key : RawText) given).isNone with
    | some key => some (.missing key)
    | none => checkMembers members given
  | .record _ _, v => some (.wrongType v "object")

/-- The first fault among the members that are there. -/
def checkMembers : List (String × Schema) → List (RawText × Json) → Option Fault
  | [], _ => none
  | (key, schema) :: rest, given =>
    match (Ordered.get? (key : RawText) given).bind (check schema) with
    | some fault => some fault
    | none => checkMembers rest given

end

end Schema

end SlideFlow
