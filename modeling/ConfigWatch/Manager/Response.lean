import ConfigWatch.Json.Value
import ConfigWatch.Manager.Error
/-!
The answer of a manager. With the status of success its body is a JSON object with a
message and a target, each of which may be missing or null; the target is an object
with endpoints and a key, which may be missing. Both objects may also be written as
arrays of their values. Other fields do not matter; a field of either object that is
given twice makes the answer unreadable. With any other status the body is a text.
-/
namespace ConfigWatch.Manager

/-- The values of the named fields of an object, in order; `none` if a key holds no
    text or a named field is given twice. -/
def namedFields (names : List Text) (fields : List (Option Text × Json)) :
    Option (List (Option Json)) := do
  let known ← fields.mapM fun (key, value) => key.map (·, value)
  names.mapM fun name =>
    match known.filter (·.1 == name) with
    | [] => some none
    | [(_, value)] => some (some value)
    | _ => none

/-- The values of an object with the named fields, or of an array of them, whose
    tail may be missing. -/
def record? (names : List Text) : Json → Option (List (Option Json))
  | .object fields => namedFields names fields
  | .array items =>
    if items.length ≤ names.length then
      some (items.map some ++ List.replicate (names.length - items.length) none)
    else none
  | _ => none

def text? : Json → Option Text
  | .string t => t
  | _ => none

def texts? : Json → Option (List Text)
  | .array items => items.mapM text?
  | _ => none

def target? (value : Json) : Option Target :=
  match record? ["endpoints".toList, "key".toList] value with
  | some [endpoints, key] => do
    return ⟨← endpoints.elim (some []) texts?, ← key.elim (some []) text?⟩
  | _ => none

def optional? {α : Type} (readValue : Json → Option α) : Option Json → Option (Option α)
  | none => some none
  | some .null => some none
  | some value => (readValue value).map some

/-- The target in the body of a successful answer: not readable, absent, or given. -/
def bodyTarget? (body : List UInt8) : Option (Option Target) :=
  match (Json.ofBytes? body).bind (record? ["msg".toList, "data".toList]) with
  | some [message, data] => do
    let _ ← optional? text? message
    optional? target? data
  | _ => none

/-- Whether a status is that of an answer. Those below 200 announce one that is still to
    come, except for the change to another way of talking. -/
def isFinal (status : Nat) : Bool := status == 101 || (200 ≤ status && status < 1000)

/-- Whether nothing that follows a status belongs to the answer. -/
def isBodiless (status : Nat) : Bool := status == 101 || status == 204 || status == 304

/-- The target that an answer with a status and a body gives. -/
def readAnswer (status : Nat) (body : List UInt8) : Except Error Target :=
  if status = 200 then
    match bodyTarget? body with
    | none => .error .exchange
    | some none => .error .missingTarget
    | some (some target) => .ok target
  else if isFinal status then
    let kept := if isBodiless status then [] else body
    .error (.status status (Utf8.decodeLossy (Utf8.dropMark kept)))
  else .error .exchange

end ConfigWatch.Manager
