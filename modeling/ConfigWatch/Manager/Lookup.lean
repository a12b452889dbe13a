import ConfigWatch.Manager.Error
import ConfigWatch.Url.Reference
/-!
The address at which a manager is asked for a watch target, and the request that is
sent there.
-/
namespace ConfigWatch.Manager

def standardPath : Text := "v1/watchers".toList

/-- The endpoint as a URL text: without blanks around it, and as `http` where it does
    not begin with the scheme in small letters. -/
def endpointText (endpoint : Text) : Text :=
  let trimmed := endpoint.trim
  let begins := fun (scheme : Text) => (Text.after? scheme trimmed).isSome
  if begins "http://".toList || begins "https://".toList then trimmed
  else "http://".toList ++ trimmed

/-- The address of the lookup: the path, without the slashes that it begins with,
    relative to the endpoint as a directory. -/
def lookupUrl [Url.Idna] (endpoint path : Text) : Except Error Url :=
  (do
    let base ← Url.ofText (endpointText endpoint)
    base.asDirectory.join path.dropSlashes : Except Url.Error Url).mapError
      (.invalidEndpoint endpoint)

/-- Whether a host can stand in a request. Some characters that a domain may hold are
    not allowed there. -/
def isSendableHost (host : Url.Host) : Bool :=
  host.toText.all fun c =>
    c ≠ '"' && c ≠ Char.ofNat 0x60 && c ≠ Char.ofNat 0x7B && c ≠ Char.ofNat 0x7D

/-- The address with the name of an application added to its query, and without its
    fragment. -/
def withApp (url : Url) (app : Text) : Url :=
  let field := "app=".toList ++ Url.encodeForm app
  { url with
    query := some (match url.query with
      | some query => if query.isEmpty then field else query ++ '&' :: field
      | none => field)
    fragment := none }

/-- Addresses of this length or more are not sent. -/
def addressLimit : Nat := 65535

/-- The first line of the request for the target of an application; `none` if no
    request can be sent to the address. -/
def requestLine? (url : Url) (app : Text) : Option Text :=
  let asked := withApp url app
  let isWeb := url.scheme == "http".toList || url.scheme == "https".toList
  if isWeb && asked.host.any isSendableHost && asked.toText.length < addressLimit then
    some ("GET ".toList ++ asked.pathAndQuery ++ " HTTP/1.1".toList)
  else none

end ConfigWatch.Manager
