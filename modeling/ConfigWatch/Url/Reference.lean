import ConfigWatch.Url.Basic
/-!
Reading URLs, alone and relative to another one.

Blanks and control characters around a URL and line breaks and tabs inside it are
dropped. What is left is cut from the outside in: fragment and query from the end,
the scheme from the front, then the authority, which runs up to the first slash, and
in it the credentials, host and port.
-/
namespace ConfigWatch.Url

/-- A reference to a URL without its scheme: what stands before the query, the query,
    and the fragment. -/
structure Reference where
  front : Text
  query : Option Text
  fragment : Option Text
deriving DecidableEq, Repr

/-- The text before and after the first separator; all of the text and nothing where
    there is none. -/
def cutTail (separator : Char) (t : Text) : Text × Option Text :=
  match Text.cutFirst? separator t with
  | some (front, tail) => (front, some tail)
  | none => (t, none)

def Reference.ofText (t : Text) : Reference :=
  let (rest, fragment) := cutTail '#' t
  let (front, query) := cutTail '?' rest
  ⟨front, query, fragment⟩

/-- The text without the characters that do not count: blanks and control characters
    at its ends, tabs and line breaks everywhere. -/
def clean (t : Text) : Text :=
  let isOuter := fun (c : Char) => decide (c.toNat ≤ 0x20)
  let inner := ((t.dropWhile isOuter).reverse.dropWhile isOuter).reverse
  inner.filter fun c => c ≠ '\t' && c ≠ '\n' && c ≠ '\r'

/-- Whether a scheme may hold a character after its first. -/
def schemeKeeps (c : Char) : Bool := c.isAlphanum || c = '+' || c = '-' || c = '.'

/-- The scheme at the front of a text, in small letters, and what follows its colon. -/
def cutScheme? (t : Text) : Option (Text × Text) :=
  (Text.cutFirst? ':' t).bind fun (scheme, rest) =>
    match scheme with
    | first :: others =>
      if first.isAlpha && others.all schemeKeeps then some (scheme.lower, rest) else none
    | [] => none

def isSlash (special : Bool) (c : Char) : Bool := c = '/' || special && c = '\\'

/-- The host text at the front of an authority, up to a colon outside brackets, and
    what follows. -/
def cutHost (inBrackets : Bool) : Text → Text × Text
  | [] => ([], [])
  | c :: rest =>
    if c = ':' && !inBrackets then ([], c :: rest)
    else
      let (host, after) := cutHost (c = '[' || inBrackets && c ≠ ']') rest
      (c :: host, after)

/-- The port in what follows a host. A port that the scheme has anyway is none. -/
def readPort (scheme : Text) : Text → Except Error (Option Nat)
  | ':' :: digits =>
    if digits.isEmpty then .ok none
    else
      match (Numeral.digits? digits).filter (· < UInt16.size) with
      | some port => .ok (if defaultPort? scheme = some port then none else some port)
      | none => .error .invalidPort
  | _ => .ok none

/-- Credentials, and the host and port after them, in an authority. -/
def readAuthority [Idna] (scheme t : Text) : Except Error Url := do
  let (login, server) := match Text.cutLast? '@' t with
    | some (login, server) => (some login, server)
    | none => (none, t)
  let (name, secret) := cutTail ':' (login.getD [])
  let (hostText, portText) := cutHost false server
  let known := isSpecial scheme
  if hostText.isEmpty && (known || login.isSome || !portText.isEmpty) then
    throw .emptyHost
  let host ← if known then Host.special hostText else Host.general hostText
  let port ← readPort scheme portText
  return {
    scheme
    username := encode .userinfo name
    password := encode .userinfo (secret.getD [])
    host := some host
    port
    path := .segments []
    query := none
    fragment := none }

def withTail (u : Url) (r : Reference) : Url :=
  { u with
    query := r.query.map (encode (if isSpecial u.scheme then .specialQuery else .query))
    fragment := r.fragment.map (encode .fragment) }

/-- The path after an authority. It has segments unless it is empty and the scheme
    is not a known one. -/
def rootPath (special : Bool) (t : Text) : Path :=
  match t with
  | [] => .segments (if special then [[]] else [])
  | _ :: rest => .segments (Path.resolve [] (Path.cutSegments special rest))

def ofAuthority [Idna] (scheme front : Text) : Except Error Url := do
  let special := isSpecial scheme
  let u ← readAuthority scheme (front.takeWhile fun c => !isSlash special c)
  return { u with path := rootPath special (front.dropWhile fun c => !isSlash special c) }

/-- Whether a text is a drive letter, as local paths begin with. -/
def isDrive : Text → Bool
  | [letter, mark] => letter.isAlpha && (mark = ':' || mark = '|')
  | _ => false

/-- The path of a local file. Empty segments at its start do not count. A drive letter
    there is written with a colon, and nothing leads out of the drive. -/
def filePath (t : Text) : Path :=
  let inner := if t.head?.any (isSlash true) then t.drop 1 else t
  let parts := Path.cutSegments true inner
  match parts with
  | first :: rest =>
    if isDrive first then .segments ((first.take 1 ++ [':']) :: Path.resolve [] rest)
    else
      match (Path.resolve [] parts).dropWhile List.isEmpty with
      | [] => .segments [[]]
      | kept => .segments kept
  | [] => .segments [[]]

/-- The URL of a local file. Two slashes announce a host, which is empty for this
    computer. -/
def ofFile [Idna] (front : Text) : Except Error Url := do
  let scheme := "file".toList
  let here : Url := {
    scheme, username := [], password := [], host := some (.plain []), port := none
    path := filePath [], query := none, fragment := none }
  match front with
  | a :: b :: rest =>
    if isSlash true a && isSlash true b then
      let hostText := rest.takeWhile fun c => !isSlash true c
      let path := rest.dropWhile fun c => !isSlash true c
      if isDrive hostText then return { here with path := filePath rest }
      else if hostText.isEmpty then return { here with path := filePath path }
      else
        let host ← Host.special hostText
        let isThis := host = .domain "localhost".toList
        let named := if isThis then .plain [] else host
        return { here with host := some named, path := filePath path }
    else return { here with path := filePath front }
  | _ => return { here with path := filePath front }

def absolute [Idna] (scheme front : Text) : Except Error Url :=
  if isFile scheme then ofFile front
  else if (defaultPort? scheme).isSome then ofAuthority scheme (front.dropWhile (isSlash true))
  else
    match front with
    | '/' :: '/' :: rest => ofAuthority scheme rest
    | '/' :: rest =>
      .ok ⟨scheme, [], [], none, none, .segments (Path.resolve [] (Path.cutSegments false rest)),
        none, none⟩
    | _ => .ok ⟨scheme, [], [], none, none, .plain (encode .free front), none, none⟩

/-- The URL that a reference without a scheme has relative to another one. Where the
    reference has neither path nor query, the query of the other URL stays. -/
def relative [Idna] (base : Url) (r : Reference) : Except Error Url :=
  let special := isSpecial base.scheme
  match base.path with
  | .plain _ =>
    if r.front.isEmpty && r.query.isNone && r.fragment.isSome then
      .ok { base with fragment := r.fragment.map (encode .fragment) }
    else .error .relativeWithoutBase
  | .segments parts =>
    match r.front with
    | [] =>
      if r.query.isNone then
        .ok { base with fragment := r.fragment.map (encode .fragment) }
      else .ok (withTail base r)
    | a :: rest =>
      if isSlash special a then
        match rest with
        | b :: more =>
          if isSlash special b then
            (ofAuthority base.scheme
              (if special then more.dropWhile (isSlash true) else more)).map (withTail · r)
          else .ok (withTail { base with path := rootPath special r.front } r)
        | [] => .ok (withTail { base with path := rootPath special r.front } r)
      else
        let path := Path.resolve parts.dropLast (Path.cutSegments special r.front)
        .ok (withTail { base with path := .segments path } r)

/-- Whether the text after a scheme is taken relative to another URL all the same:
    the scheme is a known one and the same, and no authority is announced. -/
def isRelativeAfterScheme (base : Url) (scheme front : Text) : Bool :=
  (defaultPort? scheme).isSome && base.scheme == scheme &&
    (front.takeWhile (isSlash true)).length < 2

/-- Reads a URL, relative to another one if one is given. -/
def read [Idna] (base : Option Url) (t : Text) : Except Error Url :=
  let cleaned := clean t
  match cutScheme? cleaned with
  | some (scheme, rest) =>
    let r := Reference.ofText rest
    match base with
    | some b =>
      if isRelativeAfterScheme b scheme r.front then relative b r
      else (absolute scheme r.front).map (withTail · r)
    | none => (absolute scheme r.front).map (withTail · r)
  | none =>
    match base with
    | some b => relative b (Reference.ofText cleaned)
    | none => .error .relativeWithoutBase

def ofText [Idna] (t : Text) : Except Error Url := read none t

/-- The URL that a text writes relative to another one. -/
def join [Idna] (base : Url) (t : Text) : Except Error Url := read (some base) t

end ConfigWatch.Url
