import ConfigWatch.Text.Basic
/-!
The state of a watch session and its counters, as observers see them. Apart from the failures
since the last batch the counters are not bounded: that one kept in 64 bits wraps around
after `2 ^ 64` steps is left out.
-/
namespace ConfigWatch.Session

/-- The state of a session: opening a subscription, applying batches, or waiting
    after a failure. -/
inductive State where
  | subscribing
  | active
  | failed
deriving DecidableEq, Repr

namespace State

def number : State → Nat
  | .subscribing => 0
  | .active => 1
  | .failed => 2

/-- The state with a number. Numbers without a state mean the first one. -/
def ofNumber : Nat → State
  | 1 => .active
  | 2 => .failed
  | _ => .subscribing

/-- States are told apart by their numbers. -/
@[simp] theorem ofNumber_number (state : State) : ofNumber state.number = state := by
  cases state <;> rfl

def toText : State → Text
  | .subscribing => "Subscribing".toList
  | .active => "Active".toList
  | .failed => "Failed".toList

end State

/-- The state and the counters of a session. `attempts` counts the failures since
    the last batch. -/
structure Status where
  state : State
  subscriptions : Nat
  failures : Nat
  reloads : Nat
  attempts : UInt32
deriving DecidableEq, Repr

def Status.initial : Status := ⟨.subscribing, 0, 0, 0, 0⟩

end ConfigWatch.Session
