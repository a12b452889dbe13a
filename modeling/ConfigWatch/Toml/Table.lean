import ConfigWatch.Toml.Scalar
/-!
Tables, and how they may grow while a document is read. A table comes into being in
one of several ways, and that decides what may be added to it later: nothing is ever
given twice, and a table that was closed stays closed.
-/
namespace ConfigWatch.Toml

/-- How a table came into being. -/
inductive Origin where
  /-- By a header of its own. -/
  | header
  /-- By the header of a table inside it. -/
  | implied
  /-- By a key with points. -/
  | dotted
deriving DecidableEq, Repr

/-- A value. `inline` is a table that is written in one line; `tables` is an array of
    tables with headers, of which the last one can still grow. -/
inductive Value where
  | string (t : Text)
  | scalar (s : Scalar)
  | array (items : List Value)
  | inline (fields : List (Text × Value))
  | table (origin : Origin) (fields : List (Text × Value))
  | tables (closed : List (List (Text × Value))) (last : List (Text × Value))

/-- The fields of a table, in the order in which they came up. -/
abbrev Fields := List (Text × Value)

namespace Fields

def get? (fields : Fields) (key : Text) : Option Value :=
  (fields.find? (·.1 == key)).map (·.2)

/-- The fields with the value of one set, at its old place if it has one. -/
def set (fields : Fields) (key : Text) (value : Value) : Fields :=
  if (fields.get? key).isSome then
    fields.map fun field => if field.1 == key then (key, value) else field
  else fields ++ [(key, value)]

/-- Changes the table that a path leads to. Missing tables on the way come into being
    as `made`; arrays of tables lead to their last table. A key with points does not
    lead into tables that have a header. -/
def update (made : Origin) (change : Origin → Fields → Option Fields) (origin : Origin)
    (fields : Fields) : List Text → Option Fields
  | [] => change origin fields
  | key :: path =>
    match get? fields key with
    | none => (update made change made [] path).map fun inner => set fields key (.table made inner)
    | some (.table old inner) =>
      if made = .dotted ∧ old = .header then none
      else (update made change old inner path).map fun inner => set fields key (.table old inner)
    | some (.tables closed last) =>
      (update made change .header last path).map fun last => set fields key (.tables closed last)
    | some _ => none

def add (key : Text) (value : Value) (fields : Fields) : Option Fields :=
  if (fields.get? key).isSome then none else some (fields ++ [(key, value)])

/-- Adds a value under a key with points, to the table itself when the key has
    none. -/
def assign (path : List Text) (key : Text) (value : Value) (fields : Fields) : Option Fields :=
  update .dotted
    (fun origin inner =>
      if !path.isEmpty && origin ≠ .dotted then none else add key value inner)
    .header fields path

/-- Opens the table with a header. It may be there already, but only by the header of a
    table inside it. -/
def openTable (key : Text) (fields : Fields) : Option Fields :=
  match get? fields key with
  | none => some (set fields key (.table .header []))
  | some (.table .implied inner) => some (set fields key (.table .header inner))
  | some _ => none

def openElement (key : Text) (fields : Fields) : Option Fields :=
  match get? fields key with
  | none => some (set fields key (.tables [] []))
  | some (.tables closed last) => some (set fields key (.tables (closed ++ [last]) []))
  | some _ => none

end Fields

end ConfigWatch.Toml
