import ConfigWatch.Document
import Std.Data.ExtTreeMap
/-!
The store: the current value of every name. The values of a namespace are kept
together in a drawer, which is made by the first of them. Documents are merged
into the store one entry after the other, so the last writer of a name wins and
nothing is ever removed.
-/
namespace ConfigWatch

/-- The values of one namespace, by key. -/
abbrev Drawer := Std.ExtTreeMap Text Text

/-- The values known so far, by namespace. -/
structure Store where
  drawers : Std.ExtTreeMap Text Drawer

namespace Store

def empty : Store := ⟨∅⟩

instance : Inhabited Store := ⟨empty⟩

/-- The drawer of a namespace; an empty one for a namespace without any. -/
def drawer (s : Store) (space : Text) : Drawer := s.drawers.getD space ∅

def put (s : Store) (e : Entry) : Store :=
  ⟨s.drawers.insert e.name.space ((s.drawer e.name.space).insert e.name.key e.value)⟩

/-- Sets the values that entries give, in order. -/
def putAll (s : Store) (es : List Entry) : Store := es.foldl put s

def merge (s : Store) (content : Text) : Store := s.putAll (Document.entries content)

/-- The value of a name. A name with an empty part has none. -/
def get? (s : Store) (name : Name) : Option Text :=
  if name.isComplete then (s.drawer name.space)[name.key]? else none

def named? (s : Store) (fullName : Text) : Option Text :=
  (Name.ofText? fullName).bind s.get?

/-- A value that is there and not empty, or else the default. -/
def orDefault (value : Option Text) (default : Text) : Text :=
  match value with
  | some v => if v.isEmpty then default else v
  | none => default

/-- The value of a name, or the default where there is none. -/
def getD (s : Store) (name : Name) (default : Text) : Text :=
  orDefault (s.get? name) default

/-- The value of a written name, or the default where there is none. -/
def namedD (s : Store) (fullName : Text) (default : Text) : Text :=
  orDefault (s.named? fullName) default

/-- The number of values, drawer by drawer. -/
def size (s : Store) : Nat := s.drawers.toList.foldr (fun entry n => entry.2.size + n) 0

def isEmpty (s : Store) : Bool := s.size == 0

/-- The namespaces with a drawer, in increasing order. -/
def namespaces (s : Store) : List Text := s.drawers.keys

end Store

end ConfigWatch
