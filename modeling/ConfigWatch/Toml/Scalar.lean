import ConfigWatch.Numeral.Binary
import ConfigWatch.Numeral.Hex
/-!
The plain values of TOML: truth values, integers, floating-point numbers, dates and
times. A plain value is read from its whole text.
-/
namespace ConfigWatch.Toml

/-- A plain value. Of a floating-point number and of a date or time only its presence
    is kept. -/
inductive Scalar where
  | bool (b : Bool)
  | integer (n : Int)
  | float
  | date
deriving DecidableEq, Repr

/-- The digits of a group, without the underscores between them. An underscore needs a
    digit on both sides. -/
def ungroup? (isDigit : Char → Bool) : Text → Option Text
  | [] => none
  | [c] => if isDigit c then some [c] else none
  | c :: '_' :: rest => if isDigit c then (ungroup? isDigit rest).map (c :: ·) else none
  | c :: rest => if isDigit c then (ungroup? isDigit rest).map (c :: ·) else none

/-- Decimal digits without a needless zero at their start. -/
def whole? (t : Text) : Option Text :=
  (ungroup? Numeral.isDigit t).filter fun digits => digits.length = 1 || digits.head? ≠ some '0'

def inBase? (base : Nat) (t : Text) : Option Nat :=
  let isDigit := fun c => (Numeral.hexDigit? c).any (· < base)
  (ungroup? isDigit t).map fun digits =>
    digits.foldl (fun n c => base * n + (Numeral.hexDigit? c).getD 0) 0

/-- The integer that a text writes, in any base. -/
def anyInteger? : Text → Option Int
  | '0' :: 'x' :: rest => (inBase? 16 rest).map Int.ofNat
  | '0' :: 'o' :: rest => (inBase? 8 rest).map Int.ofNat
  | '0' :: 'b' :: rest => (inBase? 2 rest).map Int.ofNat
  | t =>
    let (negative, magnitude) := Numeral.cutSign t
    ((whole? magnitude).bind Numeral.digits?).map fun n => if negative then -(n : Int) else n

def integer? (t : Text) : Option Int :=
  (anyInteger? t).filter fun n => Int64.minValue.toInt ≤ n && n ≤ Int64.maxValue.toInt

/-- The exponent of a floating-point number after its letter, without underscores. -/
def power? (t : Text) : Option Text :=
  match t with
  | '+' :: rest => (ungroup? Numeral.isDigit rest).map ('+' :: ·)
  | '-' :: rest => (ungroup? Numeral.isDigit rest).map ('-' :: ·)
  | _ => ungroup? Numeral.isDigit t

/-- The numeral of an unsigned floating-point number, without underscores. It has a
    fraction, an exponent, or both. -/
def decimal? (t : Text) : Option Text :=
  let isMark := fun (c : Char) => c == 'e' || c == 'E'
  let front := t.takeWhile fun c => !isMark c
  let tail := match t.dropWhile fun c => !isMark c with
    | [] => some []
    | _ :: power => (power? power).map ('e' :: ·)
  match Text.cutFirst? '.' front with
  | some (whole, fraction) => do
    return (← whole? whole) ++ '.' :: (← ungroup? Numeral.isDigit fraction) ++ (← tail)
  | none => do
    let power ← tail
    if power.isEmpty then none else return (← whole? front) ++ power

/-- Whether a text is a floating-point number. A positive one has to be in range. -/
def isFloat (t : Text) : Bool :=
  let (negative, magnitude) := Numeral.cutSign t
  if magnitude == "inf".toList || magnitude == "nan".toList then true
  else
    match decimal? magnitude with
    | some numeral => negative || (Numeral.Binary.ofText? .double numeral).isSome
    | none => false

/-- The number written by exactly `count` digits at the start of a text, and what
    follows. -/
def fixed? (count : Nat) (t : Text) : Option (Nat × Text) :=
  if t.length < count then none
  else (Numeral.digits? (t.take count)).map (·, t.drop count)

/-- The number of two digits at the start of a text, if it is in a range. -/
def pair? (least greatest : Nat) (t : Text) : Option (Nat × Text) :=
  (fixed? 2 t).filter fun (n, _) => least ≤ n && n ≤ greatest

def afterChar? (c : Char) : Text → Option Text
  | d :: rest => if c = d then some rest else none
  | [] => none

def daysIn (year month : Nat) : Nat :=
  if month = 2 then
    if year % 4 = 0 ∧ (year % 100 ≠ 0 ∨ year % 400 = 0) then 29 else 28
  else if month = 4 ∨ month = 6 ∨ month = 9 ∨ month = 11 then 30
  else 31

def afterDate? (t : Text) : Option Text := do
  let (year, t) ← fixed? 4 t
  let (month, t) ← pair? 1 12 (← afterChar? '-' t)
  let (_, t) ← pair? 1 (daysIn year month) (← afterChar? '-' t)
  return t

/-- What follows a time of day at the start of a text. The minute may have a second
    too many. -/
def afterTime? (t : Text) : Option Text := do
  let (_, t) ← pair? 0 23 t
  let (_, t) ← pair? 0 59 (← afterChar? ':' t)
  let (_, t) ← pair? 0 60 (← afterChar? ':' t)
  match t with
  | '.' :: fraction =>
    if fraction.head?.any Numeral.isDigit then some (fraction.dropWhile Numeral.isDigit) else none
  | _ => some t

/-- Whether a text is the offset of a time, or nothing. -/
def isOffset : Text → Bool
  | [] => true
  | ['Z'] => true
  | ['z'] => true
  | sign :: t =>
    (sign = '+' || sign = '-') &&
      match (do
        let (_, t) ← pair? 0 23 t
        let (_, t) ← pair? 0 59 (← afterChar? ':' t)
        return t : Option Text) with
      | some rest => rest.isEmpty
      | none => false

/-- Whether a text is a date, a time, or both, which may then have an offset. -/
def isDate (t : Text) : Bool :=
  match afterDate? t with
  | some [] => true
  | some (mark :: rest) =>
    (mark = 'T' || mark = 't' || mark = ' ') && (afterTime? rest).any isOffset
  | none => (afterTime? t).any List.isEmpty

def Scalar.ofText? (t : Text) : Option Scalar :=
  if t = "true".toList then some (.bool true)
  else if t = "false".toList then some (.bool false)
  else
    match integer? t with
    | some n => some (.integer n)
    | none => if isFloat t then some .float else if isDate t then some .date else none

def inScalar (c : Char) : Bool :=
  c.isAlphanum || c = '_' || c = '+' || c = '-' || c = '.' || c = ':'

/-- The text of a plain value at the start of a text, and what follows. A time may
    follow its date after a space. -/
def cutScalar (t : Text) : Text × Text :=
  let front := t.takeWhile inScalar
  let rest := t.dropWhile inScalar
  match afterDate? front, rest with
  | some [], ' ' :: c :: after =>
    if Numeral.isDigit c then
      (front ++ ' ' :: (c :: after).takeWhile inScalar, (c :: after).dropWhile inScalar)
    else (front, rest)
  | _, _ => (front, rest)

end ConfigWatch.Toml
