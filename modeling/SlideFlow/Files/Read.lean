/-
Reading files as text and as JSON. Bytes have to be valid UTF-8; every line end becomes a line
feed.
-/
import SlideFlow.Files.Tree
import SlideFlow.Json.Reader

namespace SlideFlow.Files

open SlideFlow.Json SlideFlow.Number SlideFlow.Text

/-- Why a file is not read. -/
inductive ReadFault where
  /-- There is no such file; the path is shown as it was given. -/
  | missing (path : String)
  /-- A name on the way is too long for any file. -/
  | nameTooLong (path : String)
  /-- The bytes are no text. -/
  | undecodable (name : String)
  /-- The text is no JSON. -/
  | malformed (name : String) (message : String)
  /-- A whole number in the text is too long. -/
  | integer (why : IntegerFault)
  deriving DecidableEq, Repr

def ReadFault.message : ReadFault → String
  | .missing path => s!"Missing file: {path}"
  | .nameTooLong path => s!"[Errno 36] File name too long: {quoted path}"
  | .undecodable name => s!"Unable to read text file: {name}"
  | .malformed name message => s!"Invalid JSON in {name}: {message}"
  | .integer why => why.message

/-- Every line end as a line feed: carriage returns with or without a line feed after them. -/
def unifyLines : List Char → List Char
  | [] => []
  | '\r' :: '\n' :: rest => '\n' :: unifyLines rest
  | '\r' :: rest => '\n' :: unifyLines rest
  | c :: rest => c :: unifyLines rest

/-- The text of a content, as it is stored. -/
def Content.decode? : Content → Option String
  | .text s => some s
  | .binary data => String.fromUTF8? data
  | .deck _ => none

namespace Tree

/-- Reads a text file. -/
def readText (t : Tree) (path : String) : Except ReadFault String :=
  let p := Path.ofString path
  match t.locate p with
  | .error .nameTooLong => .error (.nameTooLong p.toString)
  | .error _ => .error (.missing path)
  | .ok place =>
    match t.get? place with
    | some (.file content) =>
      match content.decode? with
      | none => .error (.undecodable p.name)
      | some s => .ok (String.ofList (unifyLines s.toList))
    | _ => .error (.missing path)

/-- Reads a JSON file. -/
def readJson (t : Tree) (path : String) : Except ReadFault Json := do
  let text ← t.readText path
  match Json.read text with
  | .ok v => .ok v
  | .error (.integer why) => .error (.integer why)
  | .error e => .error (.malformed (Path.ofString path).name (e.message text.toList))

end Tree

end SlideFlow.Files
