import ConfigWatch.Numeral.Hex
import ConfigWatch.Numeral.Integer
import ConfigWatch.Text.Utf8
/-!
The tokens of a JSON text. A text is read from bytes; a part of them that encodes no
character can only stand inside a string, and makes that string hold no text. So
does half of a surrogate pair.
-/
namespace ConfigWatch.Json

/-- A token. Strings hold a text unless they are ill-formed. -/
inductive Token where
  | openObject
  | closeObject
  | openArray
  | closeArray
  | colon
  | comma
  | null
  | bool (b : Bool)
  | number
  | string (t : Option Text)
deriving DecidableEq, Repr

/-- A character of the input, or a part of it that encodes none. -/
abbrev Symbol := Option Char

/-- What a string holds at one place: a character, half of a surrogate pair, or an
    ill-formed part. -/
inductive Piece where
  | char (c : Char)
  | half (code : Nat)
  | broken
deriving DecidableEq, Repr

def Piece.ofCode (code : Nat) : Piece :=
  if 0xD800 ≤ code ∧ code < 0xE000 then .half code else .char (Char.ofNat code)

/-- The text that pieces make, with each high half joined to the low half after it. -/
def assemble : List Piece → Option Text
  | [] => some []
  | .char c :: rest => (assemble rest).map (c :: ·)
  | .half high :: .half low :: rest =>
    if high < 0xDC00 ∧ 0xDC00 ≤ low then
      (assemble rest).map
        (Char.ofNat (0x10000 + (high - 0xD800) * 0x400 + (low - 0xDC00)) :: ·)
    else none
  | _ => none

/-- The character that a letter after a backslash stands for. -/
def escaped? (c : Char) : Option Char :=
  if c = '"' ∨ c = '\\' ∨ c = '/' then some c
  else if c = 'b' then some (Char.ofNat 8)
  else if c = 'f' then some (Char.ofNat 12)
  else if c = 'n' then some '\n'
  else if c = 'r' then some '\r'
  else if c = 't' then some '\t'
  else none

def code? (a b c d : Symbol) : Option Nat :=
  ([a, b, c, d].mapM id).bind Numeral.hex?

/-- The pieces of a string after its opening quote, and what follows its closing
    one. -/
def takeString : List Symbol → Option (List Piece × List Symbol)
  | [] => none
  | some '"' :: rest => some ([], rest)
  | some '\\' :: some 'u' :: a :: b :: c :: d :: rest =>
    match code? a b c d, takeString rest with
    | some code, some (pieces, after) => some (.ofCode code :: pieces, after)
    | _, _ => none
  | some '\\' :: some c :: rest =>
    match escaped? c, takeString rest with
    | some c, some (pieces, after) => some (.char c :: pieces, after)
    | _, _ => none
  | some c :: rest =>
    if c.toNat < 0x20 ∨ c = '\\' then none
    else (takeString rest).map fun (pieces, after) => (.char c :: pieces, after)
  | none :: rest => (takeString rest).map fun (pieces, after) => (.broken :: pieces, after)

theorem length_takeString_lt {input after : List Symbol} {pieces : List Piece}
    (htake : takeString input = some (pieces, after)) : after.length < input.length := by
  fun_induction takeString input generalizing pieces after with
  | case1 => cases htake
  | case2 rest => cases htake; simp
  | case3 a b c d rest code parts left hleft hcode ih =>
    cases htake
    have := ih hleft
    simp only [List.length_cons]
    omega
  | case4 => cases htake
  | case5 c rest hnot found parts left hleft hfound ih =>
    cases htake
    have := ih hleft
    simp only [List.length_cons]
    omega
  | case6 => cases htake
  | case7 => cases htake
  | case8 c rest _ _ _ _ ih =>
    obtain ⟨found, hfound, heq⟩ := Option.map_eq_some_iff.1 htake
    cases heq
    have := ih hfound
    simp only [List.length_cons]
    omega
  | case9 rest ih =>
    obtain ⟨found, hfound, heq⟩ := Option.map_eq_some_iff.1 htake
    cases heq
    have := ih hfound
    simp only [List.length_cons]
    omega

def isDigits (t : Text) : Bool := !t.isEmpty && t.all Numeral.isDigit

/-- Whether a text is the whole part of a number: no needless zero at its start. -/
def isWhole (t : Text) : Bool := isDigits t && (t.length == 1 || t.head? != some '0')

/-- Whether a text is a number: an optional minus, a whole part, an optional
    fraction and an optional exponent. -/
def isNumber (t : Text) : Bool :=
  let unsigned := match t with
    | '-' :: rest => rest
    | _ => t
  let isMark := fun (c : Char) => c == 'e' || c == 'E'
  let front := unsigned.takeWhile fun c => !isMark c
  let power := match unsigned.dropWhile fun c => !isMark c with
    | [] => true
    | _ :: power => isDigits (Numeral.cutSign power).2
  power && match Text.cutFirst? '.' front with
    | some (whole, fraction) => isWhole whole && isDigits fraction
    | none => isWhole front

def inNumber : Symbol → Bool
  | some c => Numeral.isDigit c || c == '-' || c == '+' || c == '.' || c == 'e' || c == 'E'
  | none => false

def mark? (c : Char) : Option Token :=
  if c = Char.ofNat 0x7B then some .openObject
  else if c = Char.ofNat 0x7D then some .closeObject
  else if c = '[' then some .openArray
  else if c = ']' then some .closeArray
  else if c = ':' then some .colon
  else if c = ',' then some .comma
  else none

def afterWord? : Text → List Symbol → Option (List Symbol)
  | [], rest => some rest
  | c :: word, some d :: rest => if c = d then afterWord? word rest else none
  | _ :: _, _ => none

theorem length_afterWord_le {word : Text} {input after : List Symbol}
    (hafter : afterWord? word input = some after) : after.length ≤ input.length := by
  fun_induction afterWord? word input with
  | case1 rest => cases hafter; exact Nat.le_refl _
  | case2 c word rest ih => exact Nat.le_succ_of_le (ih hafter)
  | case3 => cases hafter
  | case4 => cases hafter

/-- The token at the start of the input, which begins with the given character, and
    what follows it. -/
def takeToken (c : Char) (rest : List Symbol) : Option (Token × List Symbol) :=
  match mark? c with
  | some token => some (token, rest)
  | none =>
    if c = '"' then
      (takeString rest).map fun (pieces, after) => (.string (assemble pieces), after)
    else if c = 'n' then (afterWord? "ull".toList rest).map (Token.null, ·)
    else if c = 't' then (afterWord? "rue".toList rest).map (Token.bool true, ·)
    else if c = 'f' then (afterWord? "alse".toList rest).map (Token.bool false, ·)
    else if isNumber (c :: (rest.takeWhile inNumber).filterMap id) then
      some (.number, rest.dropWhile inNumber)
    else none

theorem length_takeToken_le {c : Char} {rest after : List Symbol} {token : Token}
    (htake : takeToken c rest = some (token, after)) : after.length ≤ rest.length := by
  have hword : ∀ {word : Text} {made : Token},
      (afterWord? word rest).map (made, ·) = some (token, after) →
        after.length ≤ rest.length := by
    intro word made hmap
    obtain ⟨found, hfound, heq⟩ := Option.map_eq_some_iff.1 hmap
    cases heq
    exact length_afterWord_le hfound
  unfold takeToken at htake
  split at htake
  · cases htake
    exact Nat.le_refl _
  · split at htake
    · obtain ⟨found, hfound, heq⟩ := Option.map_eq_some_iff.1 htake
      cases heq
      exact Nat.le_of_lt (length_takeString_lt hfound)
    · split at htake
      · exact hword htake
      · split at htake
        · exact hword htake
        · split at htake
          · exact hword htake
          · split at htake
            · cases htake
              exact (List.dropWhile_sublist _).length_le
            · cases htake

def isGap (c : Char) : Bool := c == ' ' || c == '\t' || c == '\n' || c == '\r'

def tokens? : List Symbol → Option (List Token)
  | [] => some []
  | none :: _ => none
  | some c :: rest =>
    if isGap c then tokens? rest
    else
      match htake : takeToken c rest with
      | none => none
      | some (token, after) =>
        have := length_takeToken_le htake
        (tokens? after).map (token :: ·)
termination_by input => input.length
decreasing_by
  · simp
  · simp only [List.length_cons]
    omega

end ConfigWatch.Json
