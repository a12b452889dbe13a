import ConfigWatch.Rule.Identity
import ConfigWatch.Text.Blank
import Std.Data.ExtTreeSet
/-!
Release rules. A rule admits everyone or nobody, with exceptions that are listed
by name or selected by buckets: the text `deny;alice;%10` admits `alice` and the
identities whose bucket is divisible by ten. Where there is no rule, nobody is
admitted.
-/
namespace ConfigWatch

/-- What a rule does with an identity that is no exception. -/
inductive Stance where
  | allow
  | deny
deriving DecidableEq, Repr

namespace Stance

def toText : Stance → Text
  | .allow => "allow".toList
  | .deny => "deny".toList

/-- The stance named by a word, in any letter case. -/
def ofText? (word : Text) : Option Stance :=
  if word.sameLetters Stance.allow.toText then some .allow
  else if word.sameLetters Stance.deny.toText then some .deny
  else none

end Stance

/-- A rule that was read under a full name. A set without members is absent. -/
structure Rule where
  name : Text
  stance : Stance
  members : Option (Std.ExtTreeSet Text)
  divisors : Option (Std.ExtTreeSet Nat)
deriving DecidableEq

namespace Rule

/-- Divisors are below this bound. -/
def divisorBound : Nat := Nat.pow 2 63

/-- One item of a rule's text. An empty item and a percent sign without a usable
    divisor are void. -/
inductive Item where
  | void
  | member (name : Text)
  | divisor (n : Nat)
deriving DecidableEq, Repr

def Item.ofText : Text → Item
  | [] => .void
  | '%' :: rest =>
    match Numeral.naturalBelow? divisorBound rest with
    | some (n + 1) => .divisor (n + 1)
    | _ => .void
  | name => .member name

def Item.member? : Item → Option Text
  | .member name => some name
  | _ => none

def Item.divisor? : Item → Option Nat
  | .divisor n => some n
  | _ => none

/-- The set of the members of a list, if there are any. -/
def setOf {α : Type} [Ord α] (xs : List α) : Option (Std.ExtTreeSet α) :=
  if xs.isEmpty then none else some (.ofList xs)

def ofItems (name : Text) (stance : Stance) (items : List Item) : Rule where
  name := name
  stance := stance
  members := setOf (items.filterMap Item.member?)
  divisors := setOf (items.filterMap Item.divisor?)

/-- The word for the stance, and the text of the items, of a trimmed rule text. -/
def cutStance (t : Text) : Text × Text :=
  match Text.cutFirst? ';' t with
  | some (word, items) => (word.trim, items.trim)
  | none => (t.trim, [])

/-- The rule written by a text; `none` unless it begins with a stance. -/
def ofText? (name raw : Text) : Option Rule :=
  let (word, items) := cutStance raw.trim
  (Stance.ofText? word).map fun stance =>
    ofItems name stance ((Text.pieces ';' items).map Item.ofText)

/-- Whether an identity is an exception: listed, or in some bucket. -/
def excepts (r : Rule) (id : Identity) : Bool :=
  (match r.members with
    | some names => decide (id.membership ∈ names)
    | none => false) ||
  (match r.divisors with
    | some divisors => divisors.toList.any fun n => id.bucket.tmod n == 0
    | none => false)

def allows (r : Rule) (id : Identity) : Bool :=
  match r.stance with
  | .allow => !r.excepts id
  | .deny => r.excepts id

/-- Without a rule nobody is admitted. -/
def admits (rule : Option Rule) (id : Identity) : Bool := rule.any fun r => r.allows id

/-- The items that list the exceptions of a rule, in the order of its sets. -/
def itemTexts (r : Rule) : List Text :=
  (r.members.elim [] Std.ExtTreeSet.toList) ++
    (r.divisors.elim [] Std.ExtTreeSet.toList).map fun n => '%' :: Numeral.ofNat n

/-- Writes a stance and items: the stance, a semicolon, each item after a
    semicolon, and a last semicolon that keeps blanks at the end from being
    trimmed. -/
def render (stance : Stance) (items : List Text) : Text :=
  stance.toText ++ ';' :: items.flatMap (fun item => ';' :: item) ++ [';']

end Rule

end ConfigWatch
