import ConfigWatch.Url.Punycode
/-!
Domains beyond plain characters. A domain that holds other characters than those of ASCII, or
a marked label, which stands for some, has an ASCII form that is decided by tables of Unicode.
The tables are not here: domains are read with any mapping that is given, and where none is
given, with the one that adds nothing.
-/
namespace ConfigWatch.Url

/-- How domains are written in ASCII. A domain that the mapping does not take has no such
    form. -/
class Idna where
  toAscii? : Text → Option Text

namespace Idna

/-- What a label begins with that stands for one with other characters. -/
def mark : Text := "xn--".toList

/-- Whether a label is plain, or marked and well-formed: a marked label holds a
    character beyond ASCII and no control character. -/
def isLabel (label : Text) : Bool :=
  match Text.after? mark label with
  | none => true
  | some code =>
    match Punycode.decode? code with
    | none => false
    | some codes =>
      codes.any (0x80 ≤ ·) && codes.all fun n => (n < 0x80 || 0xA0 ≤ n) && n.isValidChar

/-- Whether a domain in small letters is its own ASCII form: it is plain, and so are its
    labels. -/
def isOwnForm (name : Text) : Bool :=
  (name.all fun c => c.toNat < 0x80) &&
    (Text.pieces '.' name).all fun label => (Text.after? mark label).isNone

/-- The ASCII form of a domain in small letters. -/
def form? [Idna] (name : Text) : Option Text :=
  if isOwnForm name then some name else toAscii? name

/-- The mapping that leaves ASCII domains as they are, if their marked labels can be decoded,
    and takes no others. -/
instance withoutTables : Idna where
  toAscii? name :=
    if (name.all fun c => c.toNat < 0x80) && (Text.pieces '.' name).all isLabel then some name else none

end Idna

end ConfigWatch.Url
