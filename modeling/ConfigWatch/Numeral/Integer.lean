import ConfigWatch.Text.Basic
/-!
Decimal integers: one or more ASCII digits, after an optional sign where the
integer may be negative. Leading zeros are allowed and mean nothing.
-/
namespace ConfigWatch.Numeral

def digit? (c : Char) : Option Nat :=
  if '0' ≤ c ∧ c ≤ '9' then some (c.toNat - '0'.toNat) else none

def isDigit (c : Char) : Bool := (digit? c).isSome

/-- The number written by digits after a part with the value `value`. -/
def digitsFrom? (value : Nat) : Text → Option Nat
  | [] => some value
  | c :: rest => (digit? c).bind fun d => digitsFrom? (10 * value + d) rest

def digits? (t : Text) : Option Nat :=
  if t.isEmpty then none else digitsFrom? 0 t

/-- A sign, if the text begins with one, and what follows it. The flag says
    whether the sign is a minus. -/
def cutSign : Text → Bool × Text
  | '+' :: rest => (false, rest)
  | '-' :: rest => (true, rest)
  | t => (false, t)

def natural? : Text → Option Nat
  | '+' :: rest => digits? rest
  | t => digits? t

/-- An integer written by digits after an optional sign. -/
def integer? (t : Text) : Option Int :=
  let (negative, magnitude) := cutSign t
  (digits? magnitude).map fun n => if negative then -(n : Int) else n

/-- A number below the given bound, written by digits after an optional plus. -/
def naturalBelow? (bound : Nat) (t : Text) : Option Nat :=
  (natural? t).filter (· < bound)

/-- An integer between the given ends, written by digits after an optional sign. -/
def integerWithin? (least greatest : Int) (t : Text) : Option Int :=
  (integer? t).filter fun n => least ≤ n && n ≤ greatest

/-- The digit with the given value, which is below ten. -/
def digitChar (d : Nat) : Char := Char.ofNat ('0'.toNat + d)

/-- The decimal digits of a number, without leading zeros. -/
def ofNat (n : Nat) : Text :=
  if n < 10 then [digitChar n] else ofNat (n / 10) ++ [digitChar (n % 10)]

/-- The decimal form of an integer: its digits, after a minus when it is negative. -/
def ofInt : Int → Text
  | .ofNat n => ofNat n
  | .negSucc n => '-' :: ofNat (n + 1)

end ConfigWatch.Numeral
