import ConfigWatch.Text.Basic
/-!
Punycode: the ASCII form of labels with characters beyond ASCII. The plain
characters come first, up to the last hyphen; then follow numbers in a variable
base that say where the other characters are inserted, in increasing order of their
code points.
-/
namespace ConfigWatch.Url.Punycode

/-- The value of a digit: letters first, then the decimal digits. -/
def digit? (c : Char) : Option Nat :=
  if 'a' ≤ c ∧ c ≤ 'z' then some (c.toNat - 'a'.toNat)
  else if '0' ≤ c ∧ c ≤ '9' then some (c.toNat - '0'.toNat + 26)
  else none

/-- The value from which on the digit at a place is not the last one. -/
def threshold (place bias : Nat) : Nat :=
  if place ≤ bias then 1 else if bias + 26 ≤ place then 26 else place - bias

/-- The bias that fits a number of the given size, together with the place value
    reached. -/
def adaptFrom (place delta : Nat) : Nat :=
  if 455 < delta then adaptFrom (place + 36) (delta / 35)
  else place + 36 * delta / (delta + 38)
termination_by delta
decreasing_by exact Nat.div_lt_self (by omega) (by omega)

/-- The bias after a number. `count` is the number of characters then known. -/
def adapt (delta count : Nat) (first : Bool) : Nat :=
  let damped := if first then delta / 700 else delta / 2
  adaptFrom 0 (damped + damped / count)

/-- Reads one number: adds its digits to `sum`, from the given place and weight on. -/
def takeNumber (bias : Nat) (sum weight place : Nat) : Text → Option (Nat × Text)
  | [] => none
  | c :: rest =>
    match digit? c with
    | none => none
    | some d =>
      let limit := threshold place bias
      let total := sum + d * weight
      if d < limit then some (total, rest)
      else takeNumber bias total (weight * (36 - limit)) (place + 36) rest

/-- Inserts the characters that `fuel` more digits can give. -/
def insertFrom (code place bias : Nat) (first : Bool) (known : List Nat) :
    Nat → Text → Option (List Nat)
  | _, [] => some known
  | 0, _ :: _ => none
  | fuel + 1, digits =>
    match takeNumber bias place 1 36 digits with
    | none => none
    | some (total, rest) =>
      let count := known.length + 1
      let code := code + total / count
      let spot := total % count
      if 0x10FFFF < code then none
      else
        insertFrom code (spot + 1) (adapt (total - place) count first) false
          (known.take spot ++ code :: known.drop spot) fuel rest

def decode? (label : Text) : Option (List Nat) :=
  let (plain, digits) := (Text.cutLast? '-' label).getD ([], label)
  insertFrom 0x80 0 72 true (plain.map Char.toNat) digits.length digits

end ConfigWatch.Url.Punycode
