import ConfigWatch.Text.Basic
/-!
Names of configuration values. A value is named by a namespace and a key; both
together are written as one text with a point between them. As keys may contain
points, a written name is cut at its first point.
-/
namespace ConfigWatch

/-- The name of a value: its namespace and its key in there. -/
structure Name where
  space : Text
  key : Text
deriving DecidableEq, Repr

namespace Name

/-- Whether both parts hold something. Only such names can have a value. -/
def isComplete (name : Name) : Bool := !name.space.isEmpty && !name.key.isEmpty

/-- The written form: the parts with a point between them. -/
def toText (name : Name) : Text := name.space ++ '.' :: name.key

/-- The name written by a text; `none` unless the first point has something on
    both sides. -/
def ofText? (t : Text) : Option Name :=
  (Text.cutFirst? '.' t).bind fun (space, key) =>
    if space.isEmpty || key.isEmpty then none else some ⟨space, key⟩

end Name

end ConfigWatch
