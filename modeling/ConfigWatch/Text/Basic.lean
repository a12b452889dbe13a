/-!
Text as a list of characters, and the three ways in which the formats of this
library cut it: at the first separator, at the last one, and at every one.
-/
namespace ConfigWatch

/-- Text is a list of Unicode scalar values, so that every format is read and
    written by recursion on it. -/
abbrev Text := List Char

namespace Text

/-- The parts before and after the first separator; `none` when there is none. -/
def cutFirst? (separator : Char) : Text → Option (Text × Text)
  | [] => none
  | c :: rest =>
    if c = separator then some ([], rest)
    else (cutFirst? separator rest).map fun parts => (c :: parts.1, parts.2)

/-- The parts before and after the last separator; `none` when there is none. -/
def cutLast? (separator : Char) : Text → Option (Text × Text)
  | [] => none
  | c :: rest =>
    match cutLast? separator rest with
    | some parts => some (c :: parts.1, parts.2)
    | none => if c = separator then some ([], rest) else none

def consFirst (c : Char) : List Text → List Text
  | [] => [[c]]
  | piece :: pieces => (c :: piece) :: pieces

/-- The pieces between the separators, empty ones included. A text with `n`
    separators has `n + 1` pieces. -/
def pieces (separator : Char) : Text → List Text
  | [] => [[]]
  | c :: rest =>
    if c = separator then [] :: pieces separator rest
    else consFirst c (pieces separator rest)

/-- The pieces in order with the separator between neighbours. -/
def join (separator : Text) : List Text → Text
  | [] => []
  | [piece] => piece
  | piece :: rest => piece ++ separator ++ join separator rest

/-- The lower-case form of an ASCII letter; any other character is left as it is. -/
def lowerChar (c : Char) : Char :=
  if 'A' ≤ c ∧ c ≤ 'Z' then Char.ofNat (c.toNat + 32) else c

def lower (t : Text) : Text := t.map lowerChar

/-- Two texts that differ at most in the case of ASCII letters. -/
def sameLetters (a b : Text) : Bool := a.lower == b.lower

/-- What follows the given beginning; `none` when the text begins otherwise. -/
def after? : Text → Text → Option Text
  | [], t => some t
  | _ :: _, [] => none
  | b :: beginning, c :: rest => if b = c then after? beginning rest else none

def dropSlashes (t : Text) : Text := t.dropWhile (· == '/')

end Text

end ConfigWatch
