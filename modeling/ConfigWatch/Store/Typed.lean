import ConfigWatch.Numeral.Binary
import ConfigWatch.Store
/-!
Typed access to the store. A value is converted when it is asked for; where there
is no value, or its text does not denote one of the wanted type, the default that
came with the question is the answer.
-/
namespace ConfigWatch

/-- Types whose values can be denoted by text. -/
class Readable (α : Type) where
  ofText? : Text → Option α

/-- Truth values are the two words, in any letter case. -/
instance : Readable Bool where
  ofText? t :=
    if t.sameLetters "true".toList then some true
    else if t.sameLetters "false".toList then some false
    else none

instance : Readable Int16 where
  ofText? t :=
    (Numeral.integerWithin? Int16.minValue.toInt Int16.maxValue.toInt t).map Int16.ofInt

instance : Readable Int32 where
  ofText? t :=
    (Numeral.integerWithin? Int32.minValue.toInt Int32.maxValue.toInt t).map Int32.ofInt

instance : Readable Int64 where
  ofText? t :=
    (Numeral.integerWithin? Int64.minValue.toInt Int64.maxValue.toInt t).map Int64.ofInt

instance (f : Numeral.Format) : Readable (Numeral.Binary f) where
  ofText? := Numeral.Binary.ofText? f

/-- The value that a text denotes, or the default for no text, the empty text and
    a text that denotes none. -/
def convertOr {α : Type} [Readable α] (raw : Option Text) (default : α) : α :=
  match raw with
  | some t => if t.isEmpty then default else (Readable.ofText? t).getD default
  | none => default

/-- The typed value of a written name, or the default. -/
def Store.typedD {α : Type} [Readable α] (s : Store) (fullName : Text) (default : α) : α :=
  convertOr (s.named? fullName) default

end ConfigWatch
