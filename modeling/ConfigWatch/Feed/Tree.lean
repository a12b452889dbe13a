import ConfigWatch.Text.Basic
import Std.Data.ExtTreeMap
/-!
Trees of files and directories. A place in a tree is the list of names that lead to
it; the empty list is the directory in which everything takes place.
-/
namespace ConfigWatch.Feed

/-- What stands at a place. -/
inductive Node where
  | file (content : List UInt8)
  | directory
deriving DecidableEq

abbrev Place := List Text

/-- A tree, by the places where something stands. -/
structure Tree where
  nodes : Std.ExtTreeMap Place Node

namespace Tree

def empty : Tree := ⟨∅⟩

def get? (t : Tree) (place : Place) : Option Node :=
  if place.isEmpty then some .directory else t.nodes[place]?

/-- The tree with something put at a place, over what stood there. -/
def put (t : Tree) (place : Place) (node : Node) : Tree := ⟨t.nodes.insert place node⟩

def erase (t : Tree) (place : Place) : Tree := ⟨t.nodes.erase place⟩

/-- The tree with directories at the given places that lead down from `above`, where
    there are none. -/
def putDirectories (t : Tree) (above : Place) : Place → Tree
  | [] => t
  | name :: rest =>
    let place := above ++ [name]
    let grown := if t.get? place = some .directory then t else t.put place .directory
    grown.putDirectories place rest

/-- The tree with something put at a place and directories above it. -/
def putDeep (t : Tree) (place : Place) (node : Node) : Tree :=
  (t.putDirectories [] place.dropLast).put place node

/-- The place that names lead to from a place. Only directories can be walked through,
    and nothing leads out of the tree. -/
def walk (t : Tree) (start : Place) : List Text → Option Place
  | [] => some start
  | name :: rest =>
    if t.get? start ≠ some .directory then none
    else if name = [] ∨ name = ".".toList then t.walk start rest
    else if name = "..".toList then
      if start.isEmpty then none else t.walk start.dropLast rest
    else t.walk (start ++ [name]) rest

def place? (t : Tree) (path : Text) : Option Place :=
  if path.head? = some '/' then none else t.walk [] (Text.pieces '/' path)

end Tree

end ConfigWatch.Feed
