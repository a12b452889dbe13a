import ConfigWatch.Name
import ConfigWatch.Text.Blank
import ConfigWatch.Text.Line
/-!
Configuration documents. A document is read line by line:

* an empty line and a line that begins with a number sign say nothing;
* a line in square brackets is a header, and its trimmed inner text is the
  namespace of the lines that follow, up to the next header;
* any other line is an entry when it has an equals sign with something besides
  blanks on both sides of the first one.

An entry counts only under a header that is not blank. Lines of no kind are
passed over, so reading never fails.
-/
namespace ConfigWatch

/-- One value given by a document. -/
structure Entry where
  name : Name
  value : Text
deriving DecidableEq, Repr

namespace Document

/-- What one line says. -/
inductive Line where
  | silent
  | header (space : Text)
  | pair (key value : Text)
  | malformed
deriving DecidableEq, Repr

/-- The text between the square brackets of a line that begins and ends with
    them. -/
def bracketed? : Text → Option Text
  | '[' :: rest => if rest.getLast? = some ']' then some rest.dropLast else none
  | _ => none

/-- A key and a value with the first equals sign between them, both trimmed and
    neither of them blank. -/
def keyValue? (line : Text) : Option (Text × Text) :=
  (Text.cutFirst? '=' line).bind fun (left, right) =>
    let key := Text.trim left
    let value := Text.trim right
    if key.isEmpty || value.isEmpty then none else some (key, value)

def Line.ofText (line : Text) : Line :=
  if line.isEmpty || line.head? = some '#' then .silent
  else match bracketed? line with
    | some inner => .header inner.trim
    | none =>
      match keyValue? line with
      | some (key, value) => .pair key value
      | none => .malformed

/-- The namespace in force after a line. The empty text stands for none. -/
def spaceAfterLine (space : Text) : Line → Text
  | .header inner => inner
  | _ => space

def entryOf? (space : Text) : Line → Option Entry
  | .pair key value => if space.isEmpty then none else some ⟨⟨space, key⟩, value⟩
  | _ => none

/-- The entries of lines that follow a header for `space`, in order. -/
def entriesOfLines (space : Text) : List Text → List Entry
  | [] => []
  | line :: rest =>
    let read := Line.ofText line
    (entryOf? space read).toList ++ entriesOfLines (spaceAfterLine space read) rest

/-- The entries of a document that continues under the namespace `space`. -/
def entriesFrom (space : Text) (content : Text) : List Entry :=
  entriesOfLines space content.lines

/-- The namespace in force at the end of a document that continues under `space`. -/
def spaceAfter (space : Text) (content : Text) : Text :=
  content.lines.foldl (fun space line => spaceAfterLine space (Line.ofText line)) space

/-- The entries of a document, in order. -/
def entries (content : Text) : List Entry := entriesFrom [] content

/-- Writes an entry as a header line and an indented pair. -/
def renderEntry (e : Entry) : Text :=
  '[' :: e.name.space ++ "]\n ".toList ++ e.name.key ++ '=' :: e.value ++ ['\n']

/-- Writes entries as a document, each under a header of its own. -/
def render (es : List Entry) : Text := es.flatMap renderEntry

end Document

end ConfigWatch
