import ConfigWatch.Address.Ipv6
import ConfigWatch.Url.Encode
import ConfigWatch.Url.Error
import ConfigWatch.Url.Idna
/-!
Hosts. A URL with a known scheme has a domain or an address: percent-encoding is
undone, letters are made small, other characters are mapped to ASCII, and a domain that
ends in a number has to be an IPv4 address. The host of any other URL stays as it is
written.
-/
namespace ConfigWatch.Url

/-- The host of a URL. -/
inductive Host where
  | domain (name : Text)
  | ipv4 (address : UInt32)
  | ipv6 (groups : List Nat)
  | plain (text : Text)
deriving DecidableEq, Repr

namespace Host

def toText : Host → Text
  | .domain name => name
  | .ipv4 address => Ipv4.render address
  | .ipv6 groups => '[' :: Ipv6.render groups ++ [']']
  | .plain text => text

def forbidden : List Char :=
  [' ', '#', '/', ':', '<', '>', '?', '@', '[', '\\', ']', '^', '|']

def domainKeeps (c : Char) : Bool :=
  0x20 ≤ c.toNat && c.toNat < 0x7F && c ≠ '%' && !forbidden.contains c

/-- A number in an IPv4 address: hexadecimal after `0x`, octal after another zero,
    decimal otherwise. Nothing after a mark means zero. -/
def number? : Text → Option Nat
  | [] => none
  | '0' :: 'x' :: rest => if rest.isEmpty then some 0 else Numeral.hex? rest
  | '0' :: c :: rest =>
    if (c :: rest).all fun d => '0' ≤ d && d ≤ '7' then
      some ((c :: rest).foldl (fun n d => 8 * n + (d.toNat - '0'.toNat)) 0)
    else none
  | t => Numeral.digits? t

/-- The pieces of a domain without an empty one at its end. -/
def domainPieces (name : Text) : List Text :=
  let pieces := Text.pieces '.' name
  if pieces.getLast? = some [] then pieces.dropLast else pieces

/-- Whether the last piece of a domain is a number, which makes it an address. -/
def endsInNumber (name : Text) : Bool :=
  match (domainPieces name).getLast? with
  | some last => !last.isEmpty && (last.all Numeral.isDigit || (number? last).isSome)
  | none => false

/-- The address with the given numbers. Every number but the last is one byte; the
    last one fills the bytes that are left. -/
def ipv4OfNumbers? (numbers : List Nat) : Option UInt32 :=
  let leading := numbers.dropLast
  match numbers.getLast? with
  | none => none
  | some last =>
    let room := Nat.pow 256 (4 - leading.length)
    if leading.length ≤ 3 ∧ leading.all (· < 256) ∧ last < room then
      let high := leading.foldl (fun n octet => 256 * n + octet) 0
      some (UInt32.ofNat (high * room + last))
    else none

/-- The address that a domain ending in a number writes. -/
def ipv4? (name : Text) : Option UInt32 :=
  ((domainPieces name).mapM number?).bind ipv4OfNumbers?

def bracketed (t : Text) : Except Error Host :=
  if t.getLast? = some ']' then
    match Ipv6.groups? (t.drop 1).dropLast with
    | some groups => .ok (.ipv6 groups)
    | none => .error .invalidIpv6
  else .error .invalidIpv6

/-- The domain that a text writes, in ASCII. -/
def domain? [Idna] (t : Text) : Option Text :=
  ((Utf8.decode? (decodeBytes t)).bind fun decoded => Idna.form? decoded.lower).filter (·.all domainKeeps)

def special [Idna] (t : Text) : Except Error Host :=
  if t.head? = some '[' then bracketed t
  else
    match domain? t with
    | none => .error .invalidDomain
    | some name =>
      if name.isEmpty then .error .emptyHost
      else if endsInNumber name then
        match ipv4? name with
        | some address => .ok (.ipv4 address)
        | none => .error .invalidIpv4
      else .ok (.domain name)

def general (t : Text) : Except Error Host :=
  if t.head? = some '[' then bracketed t
  else if t.any fun c => c.toNat = 0 || forbidden.contains c then .error .invalidCharacter
  else .ok (.plain (encode .free t))

end Host

end ConfigWatch.Url
