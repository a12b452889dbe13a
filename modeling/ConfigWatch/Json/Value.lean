import ConfigWatch.Json.Token
/-!
JSON values. Values are built from tokens from left to right; the containers that are
still open are kept on a stack, so the depth of a value does not matter.
-/
namespace ConfigWatch

/-- A JSON value. Of a number only its presence is kept. -/
inductive Json where
  | null
  | bool (b : Bool)
  | number
  | string (t : Option Text)
  | array (items : List Json)
  | object (fields : List (Option Text × Json))

namespace Json

/-- A container that is still open, with what it holds so far in reverse. -/
inductive Frame where
  | array (items : List Json)
  | object (fields : List (Option Text × Json)) (key : Option Text)

/-- What may come next. -/
inductive Expecting where
  /-- A value; after an opening bracket the array may also end. -/
  | value (orEnd : Bool)
  /-- A key; after an opening brace the object may also end. The fields so far are
      given in reverse. -/
  | key (fields : List (Option Text × Json)) (orEnd : Bool)
  /-- The colon after a key. -/
  | colon (fields : List (Option Text × Json)) (key : Option Text)
  /-- What comes after a complete value. -/
  | after (value : Json)

/-- The point that a reader of tokens has reached. -/
structure Reader where
  frames : List Frame
  expecting : Expecting

namespace Reader

def start : Reader := ⟨[], .value false⟩

/-- The reader after a value inside the open containers. -/
def give (frames : List Frame) (value : Json) : Reader := ⟨frames, .after value⟩

def stepValue (frames : List Frame) (orEnd : Bool) : Token → Option Reader
  | .null => some (give frames .null)
  | .bool b => some (give frames (.bool b))
  | .number => some (give frames .number)
  | .string t => some (give frames (.string t))
  | .openArray => some ⟨.array [] :: frames, .value true⟩
  | .openObject => some ⟨frames, .key [] true⟩
  | .closeArray =>
    match orEnd, frames with
    | true, .array items :: outer => some (give outer (.array items.reverse))
    | _, _ => none
  | _ => none

/-- The reader after a token that follows a complete value. -/
def stepAfter (frames : List Frame) (value : Json) : Token → Option Reader
  | .comma =>
    match frames with
    | .array items :: outer => some ⟨.array (value :: items) :: outer, .value false⟩
    | .object fields key :: outer => some ⟨outer, .key ((key, value) :: fields) false⟩
    | [] => none
  | .closeArray =>
    match frames with
    | .array items :: outer => some (give outer (.array (value :: items).reverse))
    | _ => none
  | .closeObject =>
    match frames with
    | .object fields key :: outer =>
      some (give outer (.object ((key, value) :: fields).reverse))
    | _ => none
  | _ => none

/-- The reader after one more token; `none` if the token cannot come there. -/
def step (r : Reader) (token : Token) : Option Reader :=
  match r.expecting with
  | .value orEnd => stepValue r.frames orEnd token
  | .key fields orEnd =>
    match token with
    | .string key => some ⟨r.frames, .colon fields key⟩
    | .closeObject => if orEnd then some (give r.frames (.object fields.reverse)) else none
    | _ => none
  | .colon fields key =>
    match token with
    | .colon => some ⟨.object fields key :: r.frames, .value false⟩
    | _ => none
  | .after value => stepAfter r.frames value token

/-- The value that has been read, if it is complete and stands alone. -/
def result? (r : Reader) : Option Json :=
  match r.frames, r.expecting with
  | [], .after value => some value
  | _, _ => none

end Reader

def ofTokens? (tokens : List Token) : Option Json :=
  (tokens.foldlM Reader.step Reader.start).bind Reader.result?

def ofBytes? (bytes : List UInt8) : Option Json :=
  (tokens? (Utf8.chars bytes)).bind ofTokens?

end Json

end ConfigWatch
