import ConfigWatch.Text.Basic
/-!
The sixteen-bit code units of a text: one for a character of the basic plane, a
high and a low surrogate for any other.
-/
namespace ConfigWatch.Text

def charUnits (c : Char) : List UInt16 :=
  let n := c.toNat
  if n < 0x10000 then [n.toUInt16]
  else [(0xD800 + (n - 0x10000) / 0x400).toUInt16, (0xDC00 + (n - 0x10000) % 0x400).toUInt16]

def codeUnits (t : Text) : List UInt16 := t.flatMap charUnits

end ConfigWatch.Text
