import ConfigWatch.Manager.Lookup
import ConfigWatch.Text.Line
/-!
The exchange with a manager as bytes: the request that is sent, and the reply, which
ends when the manager closes the connection.
-/
namespace ConfigWatch.Manager

def lineEnd : Text := "\r\n".toList

/-- The request for the target of an application; `none` if the address cannot be
    asked. -/
def request? (url : Url) (app : Text) : Option (List UInt8) := do
  let line ← requestLine? url app
  let host ← url.host
  let port := match url.port with
    | some port => ':' :: Numeral.ofNat port
    | none => []
  let lines := [line, "host: ".toList ++ host.toText ++ port, "accept: */*".toList,
    "connection: close".toList, []]
  return Utf8.encode (lines.flatMap (· ++ lineEnd))

/-- The parts of a reply before and after the first empty line. -/
def cutHead? : List UInt8 → Option (List UInt8 × List UInt8)
  | 13 :: 10 :: 13 :: 10 :: body => some ([], body)
  | b :: rest => (cutHead? rest).map fun (head, body) => (b :: head, body)
  | [] => none

def status? (line : Text) : Option Nat :=
  match Text.pieces ' ' line with
  | _ :: code :: _ => Numeral.digits? code
  | _ => none

/-- The value of the header with the given name. -/
def header? (name : Text) (lines : List Text) : Option Text :=
  lines.findSome? fun line =>
    match Text.cutFirst? ':' line with
    | some (written, value) => if Text.sameLetters written name then some value.trim else none
    | none => none

/-- The length of a chunk, from the line before it. -/
def chunkLength? (line : List UInt8) : Option Nat :=
  Numeral.hex? ((Utf8.decodeLossy line).takeWhile Numeral.isHexDigit)

/-- The content of a body that is sent in chunks: each one comes after a line with its
    length, and an empty one is the last. -/
def joinChunks? (bytes : List UInt8) : Option (List UInt8) :=
  let rest := (bytes.dropWhile (· != 10)).drop 1
  match chunkLength? (bytes.takeWhile (· != 10)) with
  | none => none
  | some 0 => some []
  | some (length + 1) =>
    if length + 3 ≤ rest.length then
      (joinChunks? (rest.drop (length + 3))).map (rest.take (length + 1) ++ ·)
    else none
termination_by bytes.length
decreasing_by
  have hle := (List.dropWhile_suffix (l := bytes) (· != 10)).length_le
  simp only [rest, List.length_drop] at *
  omega

/-- What a manager replies. -/
structure Reply where
  status : Nat
  body : List UInt8

/-- The reply in the bytes that were received. A body that is not sent in chunks is as
    long as its header says, or else goes to the end. -/
def Reply.ofBytes? (bytes : List UInt8) : Option Reply := do
  let (head, body) ← cutHead? bytes
  match Text.lines (Utf8.decodeLossy head) with
  | [] => none
  | first :: headers =>
    let status ← status? first
    if (header? "transfer-encoding".toList headers).any (Text.sameLetters "chunked".toList) then
      return ⟨status, ← joinChunks? body⟩
    match header? "content-length".toList headers with
    | none => return ⟨status, body⟩
    | some written =>
      let length ← Numeral.digits? written
      if length ≤ body.length then return ⟨status, body.take length⟩ else none

end ConfigWatch.Manager
