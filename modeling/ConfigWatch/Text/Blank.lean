import ConfigWatch.Text.Basic
/-!
Blank characters and trimming. A character is blank when it has the Unicode
property `White_Space`; trimming removes blanks from both ends of a text.
-/
namespace ConfigWatch

/-- The code points with the property `White_Space`, as inclusive ranges. -/
def blankRanges : List (Nat × Nat) :=
  [(0x09, 0x0D), (0x20, 0x20), (0x85, 0x85), (0xA0, 0xA0), (0x1680, 0x1680), (0x2000, 0x200A),
    (0x2028, 0x2029), (0x202F, 0x202F), (0x205F, 0x205F), (0x3000, 0x3000)]

def isBlankChar (c : Char) : Bool :=
  blankRanges.any fun range => range.1 ≤ c.toNat && c.toNat ≤ range.2

namespace Text

/-- Whether a text consists of blanks only. The empty text does. -/
def isBlank (t : Text) : Bool := t.all isBlankChar

def trimStart (t : Text) : Text := t.dropWhile isBlankChar

def trimEnd (t : Text) : Text := (t.reverse.dropWhile isBlankChar).reverse

def trim (t : Text) : Text := t.trimStart.trimEnd

end Text

end ConfigWatch
