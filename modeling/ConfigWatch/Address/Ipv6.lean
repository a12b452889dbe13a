import ConfigWatch.Address.Ipv4
import ConfigWatch.Numeral.Hex
/-!
IPv6 addresses. An address is eight groups of sixteen bits, written as up to four
hexadecimal digits each, with colons between them. The last two groups may be
written as a dotted IPv4 address, and one row of zero groups may be left out between
two colons. Written out, the first of the longest rows of two or more zero groups is
left out.
-/
namespace ConfigWatch.Ipv6

def group? (t : Text) : Option Nat := if t.length ≤ 4 then Numeral.hex? t else none

/-- The groups of pieces, of which the last may be a dotted address where that is
    allowed. -/
def groupsOfPieces (dotted : Bool) : List Text → Option (List Nat)
  | [] => some []
  | [last] =>
    match group? last with
    | some group => some [group]
    | none =>
      if dotted then
        match Ipv4.octets? last with
        | some [a, b, c, d] => some [256 * a + b, 256 * c + d]
        | _ => none
      else none
  | piece :: rest => do
    let group ← group? piece
    let groups ← groupsOfPieces dotted rest
    return group :: groups

/-- The groups on one side of the place where zeros are left out. -/
def side? (dotted : Bool) (t : Text) : Option (List Nat) :=
  if t.isEmpty then some [] else groupsOfPieces dotted (Text.pieces ':' t)

/-- The texts on the two sides of the first pair of colons. -/
def cutPair : Text → Option (Text × Text)
  | [] => none
  | ':' :: ':' :: rest => some ([], rest)
  | c :: rest => (cutPair rest).map fun (left, right) => (c :: left, right)

def groups? (t : Text) : Option (List Nat) :=
  match cutPair t with
  | none => (groupsOfPieces true (Text.pieces ':' t)).filter (·.length = 8)
  | some (left, right) => do
    let before ← side? false left
    let after ← side? true right
    let given := before.length + after.length
    if given ≤ 7 then some (before ++ List.replicate (8 - given) 0 ++ after) else none

/-- The length of the row of zeros at the start of a list. -/
def zeroRow : List Nat → Nat
  | 0 :: rest => zeroRow rest + 1
  | _ => 0

def longestRow : List Nat → Nat
  | [] => 0
  | group :: rest => max (zeroRow (group :: rest)) (longestRow rest)

/-- The groups before and after the first row of zeros with the given length. -/
def cutRow (length : Nat) : List Nat → List Nat × List Nat
  | [] => ([], [])
  | group :: rest =>
    if zeroRow (group :: rest) = length then ([], (group :: rest).drop length)
    else
      let (before, after) := cutRow length rest
      (group :: before, after)

def renderGroups (groups : List Nat) : Text := Text.join [':'] (groups.map Numeral.toHex)

def render (groups : List Nat) : Text :=
  let row := longestRow groups
  if row < 2 then renderGroups groups
  else
    let (before, after) := cutRow row groups
    renderGroups before ++ "::".toList ++ renderGroups after

end ConfigWatch.Ipv6
