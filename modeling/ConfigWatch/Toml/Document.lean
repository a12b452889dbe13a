import ConfigWatch.Toml.Quoted
import ConfigWatch.Toml.Table
import ConfigWatch.Text.Utf8
/-!
TOML documents. A document is a row of statements: headers that open a table, and
assignments to the table that was opened last. Statements are read one after the
other and applied to the fields of the whole document.
-/
namespace ConfigWatch.Toml

def skipBlanks (t : Text) : Text := t.dropWhile fun c => c = ' ' || c = '\t'

/-- The text without the comment at its start, if there is one. It may hold the same
    characters as a string. -/
def skipComment : Text → Text
  | '#' :: rest => rest.dropWhile isPlain
  | t => t

/-- What follows the end of a line, which may have blanks and a comment before it and
    may be the end of the text. -/
def afterLine? (t : Text) : Option Text :=
  match skipComment (skipBlanks t) with
  | [] => some []
  | '\n' :: rest => some rest
  | '\r' :: '\n' :: rest => some rest
  | _ => none

/-- Passes over blanks, comments and line ends. -/
def skipLines (t : Text) : Text :=
  match afterLine? t with
  | some rest => if rest.length < t.length then skipLines rest else skipBlanks t
  | none => skipComment (skipBlanks t)
termination_by t.length

/-- Whether a character can stand in a key without quotes. -/
def inBareKey (c : Char) : Bool := c.isAlphanum || c = '_' || c = '-'

def takeSimpleKey (t : Text) : Option (Text × Text) :=
  if t.head? = some '"' then takeBasic (t.drop 1)
  else if t.head? = some (Char.ofNat 0x27) then takeLiteral (t.drop 1)
  else
    let key := t.takeWhile inBareKey
    if key.isEmpty then none else some (key, t.dropWhile inBareKey)

def takeKey (t : Text) : Option (List Text × Text) :=
  match takeSimpleKey t with
  | none => none
  | some (first, rest) =>
    match skipBlanks rest with
    | '.' :: more =>
      let next := skipBlanks more
      if next.length < t.length then
        (takeKey next).map fun (path, after) => (first :: path, after)
      else none
    | after => some ([first], after)
termination_by t.length

/-- Keys have fewer parts than this, and values are nested less deep. -/
def depthLimit : Nat := 80

def takePath (t : Text) : Option ((List Text × Text) × Text) :=
  match takeKey t with
  | some (path, rest) =>
    if path.length < depthLimit then
      path.getLast?.map fun key => ((path.dropLast, key), rest)
    else none
  | none => none

def takeAssigned (t : Text) : Option ((List Text × Text) × Text) :=
  match takePath t with
  | some (path, rest) =>
    match skipBlanks rest with
    | '=' :: value => some (path, skipBlanks value)
    | _ => none
  | none => none

mutual

/-- Reads a value that holds containers at most `depth` deep. -/
def takeValue (depth : Nat) (t : Text) : Option (Value × Text) :=
  match t, depth with
  | '[' :: rest, depth + 1 =>
    (takeItems depth rest).map fun (items, after) => (.array items, after)
  | '[' :: _, 0 => none
  | c :: rest, depth =>
    if c = Char.ofNat 0x7B then
      match depth with
      | 0 => none
      | depth + 1 =>
        match skipBlanks rest with
        | [] => none
        | d :: after =>
          if d = Char.ofNat 0x7D then some (.inline [], after)
          else (takeFields depth [] (d :: after)).map fun (fields, after) =>
            (.inline fields, after)
    else if c = '"' ∨ c = Char.ofNat 0x27 then
      (takeQuoted (c :: rest)).map fun (text, after) => (.string text, after)
    else
      let (text, after) := cutScalar (c :: rest)
      (Scalar.ofText? text).map fun s => (.scalar s, after)
  | [], _ => none
termination_by (depth, 0, 0)

/-- Reads the items of an array and its closing bracket. A comma may follow the last
    item. -/
def takeItems (depth : Nat) (t : Text) : Option (List Value × Text) :=
  match skipLines t with
  | ']' :: after => some ([], after)
  | first =>
    match takeValue depth first with
    | none => none
    | some (item, rest) =>
      match skipLines rest with
      | ']' :: after => some ([item], after)
      | ',' :: more =>
        if more.length < t.length then
          (takeItems depth more).map fun (items, after) => (item :: items, after)
        else none
      | _ => none
termination_by (depth, 1, t.length)

/-- Reads the fields of a table in one line, after those that are known, and its
    closing brace. -/
def takeFields (depth : Nat) (known : Fields) (t : Text) : Option (Fields × Text) :=
  match takeAssigned t with
  | none => none
  | some ((path, key), first) =>
    match takeValue depth first with
    | none => none
    | some (value, rest) =>
      match known.assign path key value with
      | none => none
      | some fields =>
        match skipBlanks rest with
        | [] => none
        | c :: more =>
          if c = Char.ofNat 0x7D then some (fields, more)
          else if c = ',' ∧ (skipBlanks more).length < t.length then
            takeFields depth fields (skipBlanks more)
          else none
termination_by (depth, 1, t.length)

end

/-- One statement of a document. -/
inductive Statement where
  | table (path : List Text) (key : Text)
  | element (path : List Text) (key : Text)
  | assignment (path : List Text) (key : Text) (value : Value)

def takeHeader (t : Text) : Option ((List Text × Text) × Text) := takePath (skipBlanks t)

/-- Reads a statement, up to the end of its line. -/
def takeStatement (t : Text) : Option (Statement × Text) :=
  match t with
  | '[' :: '[' :: rest =>
    match takeHeader rest with
    | some ((path, key), after) =>
      match skipBlanks after with
      | ']' :: ']' :: after => (afterLine? after).map (Statement.element path key, ·)
      | _ => none
    | none => none
  | '[' :: rest =>
    match takeHeader rest with
    | some ((path, key), after) =>
      match skipBlanks after with
      | ']' :: after => (afterLine? after).map (Statement.table path key, ·)
      | _ => none
    | none => none
  | _ =>
    match takeAssigned t with
    | some ((path, key), rest) =>
      match takeValue (depthLimit - 1) rest with
      | some (value, after) => (afterLine? after).map (Statement.assignment path key value, ·)
      | none => none
    | none => none

def statements? (t : Text) : Option (List Statement) :=
  match skipLines t with
  | [] => some []
  | first =>
    match takeStatement first with
    | some (statement, rest) =>
      if rest.length < t.length then (statements? rest).map (statement :: ·) else none
    | none => none
termination_by t.length

/-- The fields of a document after one more statement. `opened` is the path of the
    table that was opened last. -/
def apply (opened : List Text) (fields : Fields) : Statement → Option (List Text × Fields)
  | .table path key =>
    (fields.update .implied (fun _ => Fields.openTable key) .header path).map (path ++ [key], ·)
  | .element path key =>
    (fields.update .implied (fun _ => Fields.openElement key) .header path).map (path ++ [key], ·)
  | .assignment path key value =>
    (fields.update .implied (fun _ => Fields.assign path key value) .header opened).map
      (opened, ·)

def document? (t : Text) : Option Fields := do
  let statements ← statements? t
  let (_, fields) ← statements.foldlM (fun (opened, fields) => apply opened fields) ([], [])
  return fields

/-- The fields of the document that a file holds, which may begin with a byte order
    mark. -/
def Fields.ofText? (t : Text) : Option Fields :=
  document? (if t.head? = some (Char.ofNat 0xFEFF) then t.drop 1 else t)

end ConfigWatch.Toml
