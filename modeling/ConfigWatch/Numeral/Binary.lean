import ConfigWatch.Numeral.Integer
/-!
Binary floating-point numbers given by their bits, and the decimal numerals that
denote them. A numeral is read exactly and rounded once, to the nearest number of
the format; a tie goes to the number with an even last bit.
-/
namespace ConfigWatch.Numeral

/-- An interchange format with the given widths of fraction and exponent. -/
structure Format where
  fractionBits : Nat
  exponentBits : Nat
deriving DecidableEq, Repr

namespace Format

def single : Format := ⟨23, 8⟩

def double : Format := ⟨52, 11⟩

/-- The weight of the last fraction bit of the least numbers is two to the
    negative of this. -/
def depth (f : Format) : Nat := Nat.pow 2 (f.exponentBits - 1) - 2 + f.fractionBits

/-- The bits of infinity without its sign: all ones in the exponent. -/
def infinity (f : Format) : Nat := (Nat.pow 2 f.exponentBits - 1) * Nat.pow 2 f.fractionBits

def signWeight (f : Format) : Nat := Nat.pow 2 (f.exponentBits + f.fractionBits)

def width (f : Format) : Nat := 1 + f.exponentBits + f.fractionBits

end Format

/-- The integer nearest to a quotient, of two nearest the even one. -/
def nearestEven (numerator denominator : Nat) : Nat :=
  let quotient := numerator / denominator
  let remainder := numerator % denominator
  if 2 * remainder < denominator then quotient
  else if denominator < 2 * remainder then quotient + 1
  else quotient + quotient % 2

/-- The power of two by which the numbers of a format near a quotient are spaced,
    counted up from the least spacing. It leaves the quotient fewer bits before
    the point than a significand has. -/
def spacing (f : Format) (numerator denominator : Nat) : Nat :=
  (numerator * Nat.pow 2 f.depth / denominator).log2 - f.fractionBits

/-- The bits, without the sign, of the number nearest to a quotient. Counting the
    numbers of a format upwards from zero gives exactly their bits, so rounding up
    past a power of two needs no case of its own; what lies beyond the greatest
    finite number gives the bits of infinity. -/
def magnitude (f : Format) (numerator denominator : Nat) : Nat :=
  let step := spacing f numerator denominator
  let significand :=
    nearestEven (numerator * Nat.pow 2 f.depth) (denominator * Nat.pow 2 step)
  min (step * Nat.pow 2 f.fractionBits + significand) f.infinity

/-- A decimal numeral: an integer number of units of a power of ten. -/
structure Decimal where
  negative : Bool
  digits : Nat
  exponent : Int
deriving DecidableEq, Repr

namespace Decimal

/-- An exponent part after its letter: digits after an optional sign. -/
def exponent? (t : Text) : Option Int := integer? t

/-- A numeral without its sign and exponent: digits on at least one side of an
    optional point. -/
def mantissa? (t : Text) : Option (Nat × Int) :=
  let whole := t.takeWhile isDigit
  match t.dropWhile isDigit with
  | [] => (digits? whole).map fun n => (n, 0)
  | '.' :: fraction => (digits? (whole ++ fraction)).map fun n => (n, -(fraction.length : Int))
  | _ => none

/-- A decimal numeral: sign, digits with an optional point, exponent. -/
def ofText? (t : Text) : Option Decimal :=
  let (negative, unsigned) := cutSign t
  let isMark := fun c => c == 'e' || c == 'E'
  let front := unsigned.takeWhile fun c => !isMark c
  let power := match unsigned.dropWhile fun c => !isMark c with
    | [] => some 0
    | _ :: power => exponent? power
  match mantissa? front, power with
  | some (digits, shift), some exponent => some ⟨negative, digits, shift + exponent⟩
  | _, _ => none

/-- The bits, without the sign, of the number of a format nearest to a decimal.
    Numbers far outside the range of every format are settled by their length, so
    that no power of ten grows beyond it. -/
def magnitude (f : Format) (d : Decimal) : Nat :=
  let length : Int := (ofNat d.digits).length
  let reach : Int := f.depth + f.fractionBits
  if d.digits = 0 then 0
  else if d.exponent + length < -reach then 0
  else if reach < d.exponent then f.infinity
  else if 0 ≤ d.exponent then
    Numeral.magnitude f (d.digits * Nat.pow 10 d.exponent.toNat) 1
  else
    Numeral.magnitude f d.digits (Nat.pow 10 (-d.exponent).toNat)

end Decimal

/-- A number of a format, by its bits. -/
structure Binary (f : Format) where
  bits : Nat
deriving DecidableEq, Repr

/-- The finite number that a decimal numeral denotes after rounding; `none` for a
    text that is no numeral, and for a numeral beyond the range of the format. -/
def Binary.ofText? (f : Format) (t : Text) : Option (Binary f) :=
  (Decimal.ofText? t).bind fun d =>
    let magnitude := d.magnitude f
    if magnitude = f.infinity then none
    else some ⟨(if d.negative then f.signWeight else 0) + magnitude⟩

end ConfigWatch.Numeral
