import ConfigWatch.Text.Basic
/-!
What a change feed reports: events about the watched key, and failures of the
feed itself.
-/
namespace ConfigWatch.Feed

/-- What happened to the watched key. -/
inductive Change where
  | put
  | delete
deriving DecidableEq, Repr

/-- One update. -/
structure Event where
  change : Change
  key : Text
  value : Option Text
deriving DecidableEq, Repr

namespace Event

/-- The document that an event brings: the value of a put, unless it is empty. -/
def payload? (e : Event) : Option Text :=
  match e.change, e.value with
  | .put, some value => if value.isEmpty then none else some value
  | _, _ => none

end Event

/-- Why a call on a feed brought nothing. -/
inductive Failure where
  | interrupted (reason : Text)
  | transport (reason : Text)
  | closed
deriving DecidableEq, Repr

namespace Failure

/-- Whether the subscription is lost and has to be opened anew. An interrupted
    wait leaves it usable. -/
def losesSubscription : Failure → Bool
  | .interrupted _ => false
  | .transport _ => true
  | .closed => true

def message : Failure → String
  | .interrupted reason => "watch interrupted: " ++ String.ofList reason
  | .transport reason => "transport error: " ++ String.ofList reason
  | .closed => "subscription closed by feed"

end Failure

end ConfigWatch.Feed
