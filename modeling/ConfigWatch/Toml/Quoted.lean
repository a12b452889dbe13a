import ConfigWatch.Numeral.Hex
/-!
The quoted strings of TOML: with and without escapes, in one line and in several.
Each function reads a string after its opening quotes and gives what follows the
closing ones.
-/
namespace ConfigWatch.Toml

/-- Whether a character can stand in a string as it is: any but control characters,
    of which the tab is allowed. -/
def isPlain (c : Char) : Bool := c = '\t' || (0x20 ≤ c.toNat && c.toNat ≠ 0x7F)

/-- The character that a letter after a backslash stands for. -/
def escaped? (c : Char) : Option Char :=
  if c = '"' ∨ c = '\\' then some c
  else if c = 'b' then some (Char.ofNat 8)
  else if c = 't' then some '\t'
  else if c = 'n' then some '\n'
  else if c = 'f' then some (Char.ofNat 12)
  else if c = 'r' then some '\r'
  else none

def coded? (digits : Text) : Option Char :=
  (Numeral.hex? digits).bind fun n => if n.isValidChar then some (Char.ofNat n) else none

/-- Puts a character, if there is one, in front of a string. -/
def consChar (c : Option Char) (string : Option (Text × Text)) : Option (Text × Text) :=
  match c, string with
  | some c, some (t, rest) => some (c :: t, rest)
  | _, _ => none

def takeBasic : Text → Option (Text × Text)
  | [] => none
  | '"' :: rest => some ([], rest)
  | '\\' :: 'u' :: a :: b :: c :: d :: rest => consChar (coded? [a, b, c, d]) (takeBasic rest)
  | '\\' :: 'U' :: a :: b :: c :: d :: e :: f :: g :: h :: rest =>
    consChar (coded? [a, b, c, d, e, f, g, h]) (takeBasic rest)
  | '\\' :: c :: rest => consChar (escaped? c) (takeBasic rest)
  | c :: rest => if isPlain c && c ≠ '\\' then consChar (some c) (takeBasic rest) else none

def takeLiteral : Text → Option (Text × Text)
  | [] => none
  | c :: rest =>
    if c = Char.ofNat 0x27 then some ([], rest)
    else if isPlain c then consChar (some c) (takeLiteral rest)
    else none

/-- Whether a text begins with the end of a line, after blanks if there are any. -/
def endsLine (t : Text) : Bool :=
  match t.dropWhile fun c => c = ' ' || c = '\t' with
  | '\n' :: _ => true
  | '\r' :: '\n' :: _ => true
  | _ => false

/-- Reads a string with escapes in several lines. While `skipping`, blanks and line
    ends are passed over, as they are after a backslash at the end of a line. Up to
    two quotes may stand right before the closing ones. -/
def takeLongBasic (skipping : Bool) : Text → Option (Text × Text)
  | [] => none
  | '"' :: '"' :: '"' :: '"' :: '"' :: rest => some (['"', '"'], rest)
  | '"' :: '"' :: '"' :: '"' :: rest => some (['"'], rest)
  | '"' :: '"' :: '"' :: rest => some ([], rest)
  | '\r' :: '\n' :: rest =>
    if skipping then takeLongBasic true rest else consChar (some '\n') (takeLongBasic false rest)
  | '\\' :: 'u' :: a :: b :: c :: d :: rest =>
    consChar (coded? [a, b, c, d]) (takeLongBasic false rest)
  | '\\' :: 'U' :: a :: b :: c :: d :: e :: f :: g :: h :: rest =>
    consChar (coded? [a, b, c, d, e, f, g, h]) (takeLongBasic false rest)
  | '\\' :: c :: rest =>
    if endsLine (c :: rest) then takeLongBasic true (c :: rest)
    else consChar (escaped? c) (takeLongBasic false rest)
  | c :: rest =>
    if skipping && (c = ' ' || c = '\t' || c = '\n') then takeLongBasic true rest
    else if c = '\n' || isPlain c && c ≠ '\\' then
      consChar (some c) (takeLongBasic false rest)
    else none

/-- Reads a string without escapes in several lines. Up to two quotes may stand right
    before the closing ones. -/
def takeLongLiteral : Text → Option (Text × Text)
  | [] => none
  | '\r' :: '\n' :: rest => consChar (some '\n') (takeLongLiteral rest)
  | c :: rest =>
    let quote := Char.ofNat 0x27
    if c = quote ∧ rest.take 2 = [quote, quote] then
      let extra := ((rest.drop 2).take 2).takeWhile (· = quote)
      some (extra, rest.drop (2 + extra.length))
    else if c = '\n' || isPlain c then consChar (some c) (takeLongLiteral rest)
    else none

def dropLineEnd : Text → Text
  | '\n' :: rest => rest
  | '\r' :: '\n' :: rest => rest
  | t => t

def takeQuoted (t : Text) : Option (Text × Text) :=
  let quote := Char.ofNat 0x27
  if t.take 3 = ['"', '"', '"'] then takeLongBasic false (dropLineEnd (t.drop 3))
  else if t.take 3 = [quote, quote, quote] then takeLongLiteral (dropLineEnd (t.drop 3))
  else if t.head? = some '"' then takeBasic (t.drop 1)
  else if t.head? = some quote then takeLiteral (t.drop 1)
  else none

end ConfigWatch.Toml
