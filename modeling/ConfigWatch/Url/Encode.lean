import ConfigWatch.Numeral.Hex
import ConfigWatch.Text.Utf8
/-!
Percent-encoding. Each part of a URL has its own set of ASCII characters that are
written as percent signs with two hexadecimal digits; what lies beyond ASCII is
encoded everywhere, byte by byte. A percent sign itself stands as it is, so that
text which is encoded already keeps its meaning.
-/
namespace ConfigWatch.Url

/-- The parts of a URL that are encoded differently. -/
inductive Component where
  | free
  | fragment
  | query
  | specialQuery
  | path
  | userinfo
deriving DecidableEq, Repr

namespace Component

/-- The printable ASCII characters that a part encodes. Control characters are
    encoded in every part. -/
def reserved : Component → List Char
  | .free => []
  | .fragment => [' ', '"', '<', '>', Char.ofNat 0x60]
  | .query => [' ', '"', '#', '<', '>']
  | .specialQuery => [' ', '"', '#', '<', '>', Char.ofNat 0x27]
  | .path => [' ', '"', '<', '>', Char.ofNat 0x60, '#', '?', Char.ofNat 0x7B, Char.ofNat 0x7D]
  | .userinfo =>
    [' ', '"', '<', '>', Char.ofNat 0x60, '#', '?', Char.ofNat 0x7B, Char.ofNat 0x7D,
      '/', ':', ';', '=', '@', '[', '\\', ']', '^', '|']

def keeps (part : Component) (c : Char) : Bool :=
  0x20 ≤ c.toNat && c.toNat < 0x7F && !part.reserved.contains c

end Component

def encodeByte (b : UInt8) : Text := '%' :: Numeral.byteHex b

def encodeChar (part : Component) (c : Char) : Text :=
  if part.keeps c then [c] else (String.utf8EncodeChar c).flatMap encodeByte

def encode (part : Component) (t : Text) : Text := t.flatMap (encodeChar part)

/-- The bytes of a text in which percent signs with two hexadecimal digits stand for
    bytes. -/
def decodeBytes : Text → List UInt8
  | '%' :: a :: b :: rest =>
    match Numeral.hexDigit? a, Numeral.hexDigit? b with
    | some high, some low => UInt8.ofNat (16 * high + low) :: decodeBytes rest
    | _, _ => 0x25 :: decodeBytes (a :: b :: rest)
  | c :: rest => String.utf8EncodeChar c ++ decodeBytes rest
  | [] => []

def formKeeps (c : Char) : Bool :=
  c.isAlphanum || c = '*' || c = '-' || c = '.' || c = '_'

/-- A text as the value of a form field: a space is a plus, and all but ASCII letters,
    digits and four signs is percent-encoded. -/
def encodeForm (t : Text) : Text :=
  t.flatMap fun c =>
    if formKeeps c then [c]
    else if c = ' ' then ['+']
    else (String.utf8EncodeChar c).flatMap encodeByte

end ConfigWatch.Url
