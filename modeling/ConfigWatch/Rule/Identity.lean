import ConfigWatch.Numeral.Integer
import ConfigWatch.Text.CodeUnit
/-!
Identities that a release rule decides about. An identity has a membership key,
which is looked for among the names a rule lists, and a bucket, which is tested
for divisibility.
-/
namespace ConfigWatch

/-- The polynomial in 31 over the code units of a text, in wrapping signed 32-bit
    arithmetic. It depends on the text alone, so a text always falls into the same
    buckets. -/
def Text.polynomial (t : Text) : Int32 :=
  t.codeUnits.foldl (fun sum unit => sum * 31 + Int32.ofNat unit.toNat) 0

/-- The bucket of a text: the absolute value of its polynomial. -/
def Text.bucket (t : Text) : Int := t.polynomial.toInt.natAbs

/-- An identity is a text or an integer. -/
inductive Identity where
  | text (t : Text)
  | number (n : Int64)
deriving DecidableEq

namespace Identity

/-- What is looked for among the names of a rule. -/
def membership : Identity → Text
  | .text t => t
  | .number n => Numeral.ofInt n.toInt

/-- What is tested for divisibility. The sign of an integer does not matter to
    that, so it is kept. -/
def bucket : Identity → Int
  | .text t => t.bucket
  | .number n => n.toInt

/-- The identity that a text stands for where both kinds are meant: the integer
    it denotes, or else the text itself. -/
def ofText (t : Text) : Identity :=
  match Numeral.integerWithin? Int64.minValue.toInt Int64.maxValue.toInt t with
  | some n => .number (Int64.ofInt n)
  | none => .text t

end Identity

end ConfigWatch
