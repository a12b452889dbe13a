import ConfigWatch.Numeral.Integer
/-!
IPv4 addresses in dotted form: four decimal numbers below 256, without leading
zeros.
-/
namespace ConfigWatch.Ipv4

def octet? (t : Text) : Option Nat :=
  if t.length = 1 ∨ t.head? ≠ some '0' then (Numeral.digits? t).filter (· < 256) else none

def octets? (t : Text) : Option (List Nat) :=
  ((Text.pieces '.' t).mapM octet?).filter (·.length = 4)

def render (address : UInt32) : Text :=
  let n := address.toNat
  Text.join ['.'] ([n >>> 24, n >>> 16 % 256, n >>> 8 % 256, n % 256].map Numeral.ofNat)

end ConfigWatch.Ipv4
