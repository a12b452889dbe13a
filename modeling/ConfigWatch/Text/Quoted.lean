import ConfigWatch.Numeral.Hex
/-!
Texts in quotes, as they are listed in messages. Quotes, backslashes and control
characters are escaped, so the end of a quoted text is never in doubt.
-/
namespace ConfigWatch.Text

/-- A control character by its code, in hexadecimal digits between braces. -/
def escapeCode (c : Char) : Text :=
  '\\' :: 'u' :: Char.ofNat 0x7B :: Numeral.toHex c.toNat ++ [Char.ofNat 0x7D]

def quoteChar (c : Char) : Text :=
  if c = '"' ∨ c = '\\' then ['\\', c]
  else if c = '\t' then ['\\', 't']
  else if c = '\n' then ['\\', 'n']
  else if c = '\r' then ['\\', 'r']
  else if c.toNat = 0 then ['\\', '0']
  else if c.toNat < 0x20 ∨ (0x7F ≤ c.toNat ∧ c.toNat < 0xA0) then escapeCode c
  else [c]

def quoted (t : Text) : Text := '"' :: t.flatMap quoteChar ++ ['"']

/-- A list of texts in quotes, in brackets with commas between them. -/
def quotedList (ts : List Text) : Text := '[' :: join ", ".toList (ts.map quoted) ++ [']']

end ConfigWatch.Text
