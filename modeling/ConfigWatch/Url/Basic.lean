import ConfigWatch.Url.Host
import ConfigWatch.Url.Path
/-!
URLs and their written form.
-/
namespace ConfigWatch

/-- A URL. User name, password, query and fragment are kept as they are written,
    percent-encoded; an empty user name or password is as good as none. -/
structure Url where
  scheme : Text
  username : Text
  password : Text
  host : Option Url.Host
  port : Option Nat
  path : Url.Path
  query : Option Text
  fragment : Option Text
deriving DecidableEq, Repr

namespace Url

/-- The port that a scheme has unless another one is given. Schemes with such a port
    have a host and a path with segments. -/
def defaultPort? (scheme : Text) : Option Nat :=
  if scheme = "http".toList ∨ scheme = "ws".toList then some 80
  else if scheme = "https".toList ∨ scheme = "wss".toList then some 443
  else if scheme = "ftp".toList then some 21
  else none

def isFile (scheme : Text) : Bool := scheme == "file".toList

/-- Whether a scheme is one of those that share the rules for hosts and paths. -/
def isSpecial (scheme : Text) : Bool := (defaultPort? scheme).isSome || isFile scheme

/-- User name and password as they stand before a host. -/
def credentials (u : Url) : Text :=
  if u.username.isEmpty && u.password.isEmpty then []
  else if u.password.isEmpty then u.username ++ ['@']
  else u.username ++ ':' :: u.password ++ ['@']

/-- What stands between the scheme and the path. A path without a host that begins
    with two slashes is kept apart from one by a point. -/
def authority (u : Url) : Text :=
  match u.host with
  | some host =>
    "//".toList ++ u.credentials ++ host.toText ++
      (match u.port with
        | some port => ':' :: Numeral.ofNat port
        | none => [])
  | none =>
    match u.path with
    | .segments ([] :: _ :: _) => "/.".toList
    | _ => []

def pathAndQuery (u : Url) : Text :=
  u.path.toText ++
    (match u.query with
      | some query => '?' :: query
      | none => [])

def toText (u : Url) : Text :=
  u.scheme ++ ':' :: u.authority ++ u.pathAndQuery ++
    (match u.fragment with
      | some fragment => '#' :: fragment
      | none => [])

def asDirectory (u : Url) : Url := { u with path := u.path.asDirectory }

end Url

end ConfigWatch
