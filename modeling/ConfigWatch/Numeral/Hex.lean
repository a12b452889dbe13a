import ConfigWatch.Text.Basic
/-!
Hexadecimal digits.
-/
namespace ConfigWatch.Numeral

/-- The value of a hexadecimal digit in either letter case. -/
def hexDigit? (c : Char) : Option Nat :=
  if '0' ≤ c ∧ c ≤ '9' then some (c.toNat - '0'.toNat)
  else if 'a' ≤ c ∧ c ≤ 'f' then some (c.toNat - 'a'.toNat + 10)
  else if 'A' ≤ c ∧ c ≤ 'F' then some (c.toNat - 'A'.toNat + 10)
  else none

def isHexDigit (c : Char) : Bool := (hexDigit? c).isSome

/-- The number written by hexadecimal digits after a part with the value `value`. -/
def hexFrom? (value : Nat) : Text → Option Nat
  | [] => some value
  | c :: rest => (hexDigit? c).bind fun d => hexFrom? (16 * value + d) rest

/-- The number written by one or more hexadecimal digits. -/
def hex? (t : Text) : Option Nat := if t.isEmpty then none else hexFrom? 0 t

/-- The lower-case hexadecimal digits of a number, without leading zeros. -/
def toHex (n : Nat) : Text := Nat.toDigits 16 n

/-- The capital hexadecimal digit with the given value, which is below sixteen. -/
def upperHexDigit (d : Nat) : Char :=
  if d < 10 then Char.ofNat ('0'.toNat + d) else Char.ofNat ('A'.toNat + (d - 10))

def byteHex (b : UInt8) : Text := [upperHexDigit (b.toNat / 16), upperHexDigit (b.toNat % 16)]

end ConfigWatch.Numeral
