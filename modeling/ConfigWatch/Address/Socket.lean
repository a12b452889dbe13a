import ConfigWatch.Address.Ipv6
/-!
Socket addresses: an IPv4 address, or an IPv6 address in square brackets with an
optional numeric scope, and a port after a colon.
-/
namespace ConfigWatch.Socket

/-- Whether a text is a port: digits that denote a number of sixteen bits. -/
def isPort (t : Text) : Bool := ((Numeral.digits? t).filter (· < UInt16.size)).isSome

/-- Whether a text is a scope: digits that denote a number of 32 bits. -/
def isScope (t : Text) : Bool := ((Numeral.digits? t).filter (· < UInt32.size)).isSome

/-- Whether a text is what stands in the brackets of a socket address. -/
def isScopedIpv6 (t : Text) : Bool :=
  match Text.cutFirst? '%' t with
  | some (address, scope) => (Ipv6.groups? address).isSome && isScope scope
  | none => (Ipv6.groups? t).isSome

def isAddress : Text → Bool
  | '[' :: rest =>
    match Text.cutFirst? ']' rest with
    | some (inner, ':' :: port) => isScopedIpv6 inner && isPort port
    | _ => false
  | t =>
    match Text.cutFirst? ':' t with
    | some (host, port) => (Ipv4.octets? host).isSome && isPort port
    | none => false

end ConfigWatch.Socket
